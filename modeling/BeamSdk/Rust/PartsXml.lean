import Mathlib.Data.List.Basic
import BeamSdk.Library.Cut
import BeamSdk.Library.Lists
import BeamSdk.Library.Uri
import BeamSdk.Rust.ListParts

/-! The XML that the Rust SDK writes and reads: characters escaped and read back, elements found by
their names, and the parts in a page of a multipart upload. -/

namespace Beam.Rust.PartsXml
open Cut
open Rust.HuggingFace (parse parseDigits maxU64 maxU32)
open ListParts (MultipartPart PartElement readPart)

def replace (c : Char) (by' : String) (value : List Char) : List Char :=
    value.flatMap fun d => if d = c then by'.toList else [d]

def xmlEscape (value : List Char) : List Char :=
  replace '\'' "&apos;" (replace '"' "&quot;" (replace '>' "&gt;" (replace '<' "&lt;" (replace '&' "&amp;" value))))

def charOf (n : ℕ) : Option Char := if n.isValidChar then some (Char.ofNat n) else none

def fromHexDigits (digits : List Char) : Option ℕ :=
  if digits.isEmpty then none
  else
    (digits.mapM Uri.hexValue).bind fun values =>
      let value := values.foldl (fun value digit => 16 * value + digit) 0
      if value ≤ maxU32 then some value else none

def fromHex (text : List Char) : Option ℕ :=
  fromHexDigits (match text with
    | '+' :: digits => digits
    | digits => digits)

def decoded (entity : List Char) : Option Char :=
  if entity = "quot".toList then some '"'
  else if entity = "amp".toList then some '&'
  else if entity = "apos".toList then some '\''
  else if entity = "lt".toList then some '<'
  else if entity = "gt".toList then some '>'
  else
    match entity with
    | '#' :: 'x' :: digits => (fromHex digits).bind charOf
    | '#' :: digits => (parse maxU32 (String.ofList digits)).bind charOf
    | _ => none

def xmlUnescape (value : List Char) : List Char :=
  match _ : cut ['&'] value with
  | none => value
  | some (before, entityRest) =>
    match _ : cut [';'] entityRest with
    | none => before ++ '&' :: entityRest
    | some (entity, rest) =>
      before ++ ((decoded entity).elim ('&' :: entity ++ [';']) fun c => [c]) ++ xmlUnescape rest
termination_by value.length
decreasing_by
  rename_i hstart hend
  exact Nat.lt_trans (length_lt_of_cut (by decide) hend) (length_lt_of_cut (by decide) hstart)

def xmlElements (body tag : List Char) : List (List Char) :=
  match _ : cut ('<' :: tag) body with
  | none => []
  | some (_, afterName) =>
    if afterName.head? ≠ some '>' ∧ afterName.head? ≠ some ' ' then xmlElements afterName tag
    else
      match _ : cut ['>'] afterName with
      | none => []
      | some (_, content) =>
        match _ : cut ('<' :: '/' :: (tag ++ ['>'])) content with
        | none => []
        | some (element, rest) => element :: xmlElements rest tag
termination_by body.length
decreasing_by
  · rename_i hstart _
    exact length_lt_of_cut (by simp) hstart
  · rename_i hstart _ _ hcontent hend
    have hrest := length_lt_of_cut (by simp) hend
    exact Nat.lt_trans hrest (Nat.lt_trans (length_lt_of_cut (by decide) hcontent)
      (length_lt_of_cut (by simp) hstart))

def xmlText (body tag : List Char) : Option (List Char) :=
    (xmlElements body tag).head?.map xmlUnescape

def text (body : List Char) (tag : String) : Option String :=
    (xmlText body tag.toList).map String.ofList

def partElement (part : List Char) : PartElement :=
    ⟨text part "PartNumber", text part "ETag", text part "Size"⟩

def page (body : List Char) : ListParts.Page :=
  ⟨(xmlElements body "Part".toList).map partElement, text body "IsTruncated",
    text body "NextPartNumberMarker"⟩

inductive Token
  | text (characters : List Char)
  | opens (name attributes : List Char)
  | closes (name : List Char)
  -- an element without content, as one tag
  | empty (name attributes : List Char)
  | declaration (content : List Char)

def Token.render : Token → List Char
  | .text characters => characters
  | .opens name attributes => '<' :: (name ++ (attributes ++ ['>']))
  | .closes name => '<' :: '/' :: (name ++ ['>'])
  | .empty name attributes => '<' :: (name ++ (attributes ++ ['/', '>']))
  | .declaration content => '<' :: '?' :: (content ++ ['?', '>'])

def isSpace (c : Char) : Bool := c = ' ' || c = '\t' || c = '\n' || c = '\r'

def isNameChar (c : Char) : Bool :=
    !isSpace c && c ≠ '<' && c ≠ '>' && c ≠ '/' && c ≠ '?' && c ≠ '!'

def IsName (name : List Char) : Prop := name ≠ [] ∧ ∀ c ∈ name, isNameChar c = true

instance (name : List Char) : Decidable (IsName name) :=
  decidable_of_iff (name ≠ [] ∧ name.all isNameChar = true)
    (and_congr_right fun _ => List.all_eq_true)

/-- Attributes are apart from the name, and no `<` is in them. -/
def IsAttributes (attributes : List Char) : Prop :=
    attributes.head?.all isSpace = true ∧ '<' ∉ attributes

def Token.Escaped : Token → Prop
  | .text characters => '<' ∉ characters
  | .opens name attributes | .empty name attributes => IsName name ∧ IsAttributes attributes
  | .closes name => IsName name
  | .declaration content => '<' ∉ content

def Token.name : Token → Option (List Char)
  | .opens name _ | .closes name | .empty name _ => some name
  | .text _ | .declaration _ => none

def entities : List (Char × String) :=
    [('"', "quot"), ('&', "amp"), ('\'', "apos"), ('<', "lt"), ('>', "gt")]

inductive Spells : List Char → Char → Prop
  | plain {c : Char} (hamp : c ≠ '&') (hlt : c ≠ '<') : Spells [c] c
  | named {c : Char} {name : String} (h : (c, name) ∈ entities) :
      Spells ('&' :: (name.toList ++ [';'])) c
  | decimal {c : Char} {digits : List Char} (hne : digits ≠ [])
      (hdigits : ∀ d ∈ digits, d.isDigit = true)
      (h : Nat.ofDigitChars 10 digits 0 = c.toNat) : Spells ('&' :: ('#' :: digits ++ [';'])) c
  | hexadecimal {c : Char} {digits : List Char} {values : List ℕ} (hne : digits ≠ [])
      (hdigits : digits.mapM Uri.hexValue = some values)
      (h : values.foldl (fun value digit => 16 * value + digit) 0 = c.toNat) :
        Spells ('&' :: ('#' :: 'x' :: digits ++ [';'])) c

inductive Renders : List Char → List Char → Prop
  | nil : Renders [] []
  | cons {written text value : List Char} {c : Char} (h : Spells written c)
      (htext : Renders text value) :
      Renders (written ++ text) (c :: value)

inductive Field
  | partNumber
  | etag
  | size
  deriving DecidableEq

def Field.tag : Field → List Char
  | .partNumber => "PartNumber".toList
  | .etag => "ETag".toList
  | .size => "Size".toList

inductive Child
  | field (name : Field) (attributes text : List Char)
  | other (token : Token)

def Child.render : Child → List Char
  | .field name attributes text =>
      (Token.opens name.tag attributes).render ++ (text ++ (Token.closes name.tag).render)
  | .other token => token.render

def IsPlain (attributes : List Char) : Prop :=
  attributes.head?.all (· = ' ') = true ∧ '<' ∉ attributes ∧ '>' ∉ attributes

def Foreign (names : List (List Char)) (token : Token) : Prop :=
    token.Escaped ∧ ∀ name ∈ token.name, name ∉ names

def partNames : List (List Char) :=
    ["Part".toList, Field.partNumber.tag, Field.etag.tag, Field.size.tag]

def Child.Escaped : Child → Prop
  | .field _ attributes text => IsPlain attributes ∧ '<' ∉ text
  | .other token => Foreign partNames token

inductive Item
  | part (attributes : List Char) (children : List Child)
  | other (token : Token)

def Item.render : Item → List Char
  | .part attributes children =>
    (Token.opens "Part".toList attributes).render ++
      (children.flatMap Child.render ++ (Token.closes "Part".toList).render)
  | .other token => token.render

def Item.Escaped : Item → Prop
  | .part attributes children => IsPlain attributes ∧ ∀ child ∈ children, child.Escaped
  | .other token => Foreign ["Part".toList] token

def body (items : List Item) : List Char := items.flatMap Item.render

def Child.field? : Child → Option (Field × List Char)
  | .field name _ text => some (name, text)
  | .other _ => none

def Item.children? : Item → Option (List Child)
  | .part _ children => some children
  | .other _ => none

/-- The children of a part's element: its three fields in some order, and whatever else. -/
def Shows (children : List Child) (part : MultipartPart) : Prop :=
  ∃ etag, Renders etag part.etag.toList ∧
    (children.filterMap Child.field?).Perm
      [(.partNumber, (toString part.partNumber).toList), (.etag, etag),
        (.size, (toString part.size).toList)]

def Listable (part : MultipartPart) : Prop :=
  0 < part.partNumber ∧ part.partNumber ≤ maxU64 ∧ part.etag ≠ "" ∧ part.size ≤ maxU64

def unescapeRest (entityRest : List Char) : List Char :=
  match cut [';'] entityRest with
  | none => '&' :: entityRest
  | some (entity, rest) =>
      ((decoded entity).elim ('&' :: entity ++ [';']) fun c => [c]) ++ xmlUnescape rest

theorem xmlUnescape_eq (value : List Char) :
    xmlUnescape value = (cut ['&'] value).elim value fun r => r.1 ++ unescapeRest r.2 := by
  rw [xmlUnescape]
  split
  · rename_i hstart
    rw [hstart]
    rfl
  · rename_i before entityRest hstart
    rw [hstart, Option.elim_some]
    split
    · rename_i hend
      rw [unescapeRest, hend]
    · rename_i entity rest hend
      rw [unescapeRest, hend, List.append_assoc]

theorem xmlUnescape_append {before : List Char} (h : '&' ∉ before) (rest : List Char) :
    xmlUnescape (before ++ rest) = before ++ xmlUnescape rest := by
  have hpasses : Passes ['&'] before := passes_of_notMem h
  rw [xmlUnescape_eq, xmlUnescape_eq, hpasses]
  cases cut ['&'] rest with
  | none => rfl
  | some r => exact List.append_assoc _ _ _

theorem xmlUnescape_entity {entity : List Char} {c : Char} (hend : ';' ∉ entity)
    (h : decoded entity = some c)
    (rest : List Char) : xmlUnescape ('&' :: (entity ++ ';' :: rest)) = c :: xmlUnescape rest := by
  have hstart : cut ['&'] ('&' :: (entity ++ ';' :: rest)) = some ([], entity ++ ';' :: rest) :=
    cut_self (by decide) _
  have hcut : cut [';'] (entity ++ ';' :: rest) = some (entity, rest) :=
    (passes_of_notMem hend).cut (by decide) _
  rw [xmlUnescape_eq, hstart, Option.elim_some, unescapeRest, hcut]
  simp only [h]
  rfl

theorem charOf_toNat (c : Char) : charOf c.toNat = some c := by
  have hvalid : c.toNat.isValidChar := c.valid
  rw [charOf, if_pos hvalid, Char.ofNat_toNat]

theorem toNat_le_maxU32 (c : Char) : c.toNat ≤ maxU32 := by
  have hvalid : c.toNat.isValidChar := c.valid
  have hle : c.toNat < 0x110000 := by
    rcases hvalid with hlow | ⟨-, hhigh⟩
    · omega
    · exact hhigh
  unfold maxU32
  omega

theorem parseDigits_digits {max : ℕ} {digits : List Char} (hne : digits ≠ [])
    (hdigits : ∀ d ∈ digits, d.isDigit = true)
    (hmax : Nat.ofDigitChars 10 digits 0 ≤ max) :
      parseDigits max digits = some (Nat.ofDigitChars 10 digits 0) := by
  unfold parseDigits
  rw [if_neg (by simpa using hne), if_pos (List.all_eq_true.mpr hdigits)]
  rw [Nat.ofDigitChars_eq_foldl] at hmax ⊢
  exact if_pos hmax

theorem parse_digits {max : ℕ} {digits : List Char} (hne : digits ≠ [])
    (hdigits : ∀ d ∈ digits, d.isDigit = true)
    (hmax : Nat.ofDigitChars 10 digits 0 ≤ max) :
      parse max (String.ofList digits) = some (Nat.ofDigitChars 10 digits 0) := by
  rw [parse, String.toList_ofList, ← parseDigits_digits hne hdigits hmax]
  split
  · exact absurd (hdigits '+' List.mem_cons_self) (by decide)
  · rfl

theorem parse_toString {max n : ℕ} (h : n ≤ max) : parse max (toString n) = some n := by
  have hvalue : Nat.ofDigitChars 10 (Nat.toDigits 10 n) 0 = n := Nat.ofDigitChars_ten_toDigits
  have hdigits : ∀ d ∈ Nat.toDigits 10 n, d.isDigit = true := fun d hd =>
    Nat.isDigit_of_mem_toDigits (by decide) (by decide) hd
  rw [Nat.toString_eq_ofList_toDigits,
    parse_digits Nat.toDigits_ne_nil hdigits (by rw [hvalue]; exact h), hvalue]

theorem fromHexDigits_values {digits : List Char} {values : List ℕ} (hne : digits ≠ [])
    (hdigits : digits.mapM Uri.hexValue = some values) {c : Char}
    (h : values.foldl (fun value digit => 16 * value + digit) 0 = c.toNat) :
      fromHexDigits digits = some c.toNat := by
  rw [fromHexDigits, if_neg (by simpa using hne), hdigits, Option.bind_some, h]
  exact if_pos (toNat_le_maxU32 c)

theorem fromHex_values {digits : List Char} {values : List ℕ} (hne : digits ≠ [])
    (hdigits : digits.mapM Uri.hexValue = some values) {c : Char}
    (h : values.foldl (fun value digit => 16 * value + digit) 0 = c.toNat) :
      fromHex digits = some c.toNat := by
  unfold fromHex
  rw [← fromHexDigits_values hne hdigits h]
  split
  · cases hdigits
  · rfl

theorem notMem_of_isDigit {digits : List Char} (hdigits : ∀ d ∈ digits, d.isDigit = true) {c : Char}
    (hc : c.isDigit = false) : c ∉ digits :=
  fun hmem => Bool.false_ne_true (hc.symm.trans (hdigits c hmem))

theorem notMem_of_hexValue {digits : List Char} {values : List ℕ}
    (hdigits : digits.mapM Uri.hexValue = some values) {c : Char}
    (hc : Uri.hexValue c = none) : c ∉ digits := by
  induction digits generalizing values with
  | nil => exact List.not_mem_nil
  | cons d digits ih =>
    rw [List.mapM_cons] at hdigits
    obtain ⟨value, hvalue, hrest⟩ := Option.bind_eq_some_iff.mp hdigits
    obtain ⟨more, hmore, -⟩ := Option.bind_eq_some_iff.mp hrest
    rw [List.mem_cons, not_or]
    refine ⟨?_, ih hmore⟩
    rintro rfl
    rw [hc] at hvalue
    cases hvalue

theorem decoded_number (entity : List Char) :
    decoded ('#' :: entity) = match entity with
      | 'x' :: digits => (fromHex digits).bind charOf
      | digits => (parse maxU32 (String.ofList digits)).bind charOf := by
  have hne : ∀ name : String, name.toList.head? ≠ some '#' → '#' :: entity ≠ name.toList :=
    fun name hhead heq =>
    hhead (heq ▸ rfl)
  unfold decoded
  rw [if_neg (hne "quot" (by decide)), if_neg (hne "amp" (by decide)),
    if_neg (hne "apos" (by decide)),
    if_neg (hne "lt" (by decide)), if_neg (hne "gt" (by decide))]
  split
  · rename_i heq
    cases heq
    rfl
  · rename_i hhex heq
    cases heq
    split
    · rename_i digits
      exact absurd rfl (hhex digits)
    · rfl
  · rename_i hnumber
    exact absurd rfl (hnumber entity)

theorem Spells.read {written : List Char} {c : Char} (h : Spells written c) (rest : List Char) :
    xmlUnescape (written ++ rest) = c :: xmlUnescape rest := by
  cases h with
  | plain hamp hlt => exact xmlUnescape_append (by simpa using hamp.symm) rest
  | named h =>
    rename_i name
    have hall : ∀ e ∈ entities, ';' ∉ e.2.toList ∧ decoded e.2.toList = some e.1 := by decide
    obtain ⟨hend, hdecoded⟩ := hall _ h
    simpa using xmlUnescape_entity hend hdecoded rest
  | decimal hne hdigits h =>
    rename_i digits
    have hend : ';' ∉ '#' :: digits := by simpa using notMem_of_isDigit hdigits (by decide)
    have hdecoded : decoded ('#' :: digits) = some c := by
      have hparse : parse maxU32 (String.ofList digits) = some c.toNat := by
        rw [parse_digits hne hdigits (by rw [h]; exact toNat_le_maxU32 c), h]
      rw [decoded_number]
      split
      · exact absurd (hdigits 'x' List.mem_cons_self) (by decide)
      · rw [hparse, Option.bind_some, charOf_toNat]
    simpa using xmlUnescape_entity hend hdecoded rest
  | hexadecimal hne hdigits h =>
    rename_i digits values
    have hend : ';' ∉ '#' :: 'x' :: digits := by simpa using notMem_of_hexValue hdigits (by decide)
    have hdecoded : decoded ('#' :: 'x' :: digits) = some c := by
      rw [decoded_number]
      simp only [fromHex_values hne hdigits h, Option.bind_some, charOf_toNat]
    simpa using xmlUnescape_entity hend hdecoded rest

theorem Renders.read {written value : List Char} (h : Renders written value) :
    xmlUnescape written = value := by
  induction h with
  | nil =>
    rw [xmlUnescape_eq]
    rfl
  | cons h htext ih => rw [h.read, ih]

def escaped (c : Char) : List Char :=
  match entities.find? (·.1 = c) with
  | some (_, name) => '&' :: (name.toList ++ [';'])
  | none => [c]

theorem spells_escaped (c : Char) : Spells (escaped c) c := by
  unfold escaped
  split
  · rename_i c' name heq
    have hc : decide (c' = c) = true :=
      List.find?_some (p := fun e : Char × String => decide (e.1 = c)) heq
    obtain rfl := of_decide_eq_true hc
    exact .named (List.mem_of_find?_eq_some heq)
  · rename_i hnone
    have hall := List.find?_eq_none.mp hnone
    exact .plain (fun heq => hall ('&', "amp") (by decide) (decide_eq_true heq.symm))
      (fun heq => hall ('<', "lt") (by decide) (decide_eq_true heq.symm))

theorem replace_of_ne {c d : Char} (h : d ≠ c) (by' : String) : replace c by' [d] = [d] := by
  rw [replace, List.flatMap_cons, if_neg h]
  rfl

theorem xmlEscape_singleton (c : Char) : xmlEscape [c] = escaped c := by
  cases heq : entities.find? (·.1 = c) with
  | some e =>
    have hall : ∀ e ∈ entities, xmlEscape [e.1] = escaped e.1 := by decide
    have hc : decide (e.1 = c) = true :=
      List.find?_some (p := fun e : Char × String => decide (e.1 = c)) heq
    obtain rfl := of_decide_eq_true hc
    exact hall e (List.mem_of_find?_eq_some heq)
  | none =>
    have hne : ∀ e ∈ entities, c ≠ e.1 := fun e he hc =>
      List.find?_eq_none.mp heq e he (decide_eq_true hc.symm)
    rw [escaped, heq, xmlEscape, replace_of_ne (hne ('&', "amp") (by decide)),
      replace_of_ne (hne ('<', "lt") (by decide)),
      replace_of_ne (hne ('>', "gt") (by decide)), replace_of_ne (hne ('"', "quot") (by decide)),
      replace_of_ne (hne ('\'', "apos") (by decide))]

theorem xmlEscape_eq (value : List Char) : xmlEscape value = value.flatMap escaped := by
  have hassoc : xmlEscape value = value.flatMap fun c => xmlEscape [c] := by
    unfold xmlEscape replace
    simp only [List.flatMap_assoc, List.flatMap_singleton]
  rw [hassoc]
  congr 1
  funext c
  exact xmlEscape_singleton c

theorem renders_xmlEscape (value : List Char) : Renders (xmlEscape value) value := by
  rw [xmlEscape_eq]
  induction value with
  | nil => exact .nil
  | cons c value ih =>
    rw [List.flatMap_cons]
    exact .cons (spells_escaped c) ih

theorem unescape_escape (value : List Char) : xmlUnescape (xmlEscape value) = value :=
    (renders_xmlEscape value).read

/-- What is found behind a place where a tag of the name, or of a longer one, begins. -/
def elementsAfter (afterName tag : List Char) : List (List Char) :=
  if afterName.head? ≠ some '>' ∧ afterName.head? ≠ some ' ' then xmlElements afterName tag
  else
    match cut ['>'] afterName with
    | none => []
    | some (_, content) =>
      match cut ('<' :: '/' :: (tag ++ ['>'])) content with
      | none => []
      | some (element, rest) => element :: xmlElements rest tag

theorem xmlElements_eq (body tag : List Char) :
    xmlElements body tag = (cut ('<' :: tag) body).elim [] fun r => elementsAfter r.2 tag := by
  rw [xmlElements]
  split
  · rename_i hstart
    rw [hstart]
    rfl
  · rename_i before afterName hstart
    rw [hstart, Option.elim_some, elementsAfter]
    split
    · rfl
    · split
      · rename_i hcontent
        rw [hcontent]
      · rename_i before content hcontent
        simp only [hcontent]
        split
        · rename_i hend
          rw [hend]
        · rename_i element rest hend
          rw [hend]

def Clear (tag left : List Char) : Prop :=
    ∀ right, xmlElements (left ++ right) tag = xmlElements right tag

variable {tag name : List Char}

theorem clear_of_passes {left : List Char} (h : Passes ('<' :: tag) left) : Clear tag left := by
  intro right
  rw [xmlElements_eq, xmlElements_eq, h]
  cases cut ('<' :: tag) right with
  | none => rfl
  | some r => rfl

theorem Clear.append {left left' : List Char} (h : Clear tag left) (h' : Clear tag left') :
    Clear tag (left ++ left') := by
  intro right
  rw [List.append_assoc, h, h']

theorem xmlElements_nil (tag : List Char) : xmlElements [] tag = [] := by
  rw [xmlElements_eq]
  rfl

theorem xmlElements_open {attributes content : List Char} (hattributes : IsPlain attributes)
    (hcontent : Passes ('<' :: '/' :: (tag ++ ['>'])) content) (right : List Char) :
    xmlElements ((Token.opens tag attributes).render ++ (content ++ (Token.closes tag).render) ++
      right) tag =
      content :: xmlElements right tag := by
  obtain ⟨hspace, -, hnone⟩ := hattributes
  have hrender : (Token.opens tag attributes).render ++
      (content ++ (Token.closes tag).render) ++ right =
      ('<' :: tag) ++
        (attributes ++ (['>'] ++ (content ++ (('<' :: '/' :: (tag ++ ['>'])) ++ right)))) := by
    simp [Token.render]
  have hhead :
      ¬ ((attributes ++ (['>'] ++ (content ++ (('<' :: '/' :: (tag ++ ['>'])) ++ right)))).head? ≠
        some '>' ∧
      (attributes ++ (['>'] ++ (content ++ (('<' :: '/' :: (tag ++ ['>'])) ++ right)))).head? ≠
        some ' ') := by
    cases attributes with
    | nil => exact fun h => h.1 rfl
    | cons c attributes =>
      obtain rfl := of_decide_eq_true hspace
      exact fun h => h.2 rfl
  have hopen := (passes_of_notMem (w := []) hnone).cut (by decide)
    (content ++ (('<' :: '/' :: (tag ++ ['>'])) ++ right))
  have hclose := hcontent.cut (by simp) right
  rw [hrender, xmlElements_eq, cut_self (by simp), Option.elim_some, elementsAfter,
    if_neg hhead, hopen]
  simp only [hclose]

theorem isNameChar_iff {c : Char} : isNameChar c = true ↔
    isSpace c = false ∧ c ≠ '<' ∧ c ≠ '>' ∧ c ≠ '/' ∧ c ≠ '?' ∧ c ≠ '!' := by
  simp [isNameChar, and_assoc]

theorem clear_tag (htag : IsName tag) (hname : IsName name) (hne : name ≠ tag) {stop : Char}
    {rest : List Char}
    (hstop : isNameChar stop = false) (hrest : '<' ∉ stop :: rest) :
      Clear tag ('<' :: (name ++ stop :: rest)) := by
  have hnone : ∀ {c}, c ∈ name → c ≠ '<' := fun hc => (isNameChar_iff.mp (hname.2 _ hc)).2.1
  have hbody : '<' ∉ name ++ stop :: rest := fun hmem =>
    (List.mem_append.mp hmem).elim (fun hc => hnone hc rfl) hrest
  by_cases hlong : tag <+: name
  · obtain ⟨more, rfl⟩ := hlong
    cases more with
    | nil => exact absurd (List.append_nil tag) hne
    | cons c more =>
      intro right
      have hc := isNameChar_iff.mp (hname.2 c (List.mem_append_right _ List.mem_cons_self))
      have hrender : '<' :: (tag ++ c :: more ++ stop :: rest) ++ right =
          ('<' :: tag) ++ (c :: (more ++ stop :: rest) ++ right) := by
        simp
      have hskip : (c :: (more ++ stop :: rest) ++ right).head? ≠ some '>' ∧
          (c :: (more ++ stop :: rest) ++ right).head? ≠ some ' ' := by
        refine ⟨fun heq => hc.2.2.1 (Option.some.inj heq), fun heq => ?_⟩
        obtain rfl : c = ' ' := Option.some.inj heq
        exact absurd hc.1 (by decide)
      have hclear : Clear tag (c :: (more ++ stop :: rest)) := by
        apply clear_of_passes
        apply passes_of_notMem
        intro hmem
        exact hbody (by simpa using Or.inr hmem)
      rw [hrender, xmlElements_eq, cut_self (by simp), Option.elim_some, elementsAfter,
        if_pos hskip]
      exact hclear right
  · apply clear_of_passes
    apply passes_cons _ (passes_of_notMem hbody)
    intro right hstart
    rw [List.append_assoc, List.cons_append] at hstart
    have hstart := (List.cons_prefix_cons.mp hstart).2
    exact hlong (prefix_of_stop (p := fun c => isNameChar c = true) htag.2 (by simp [hstop]) hstart)

theorem stops_of_attributes {attributes : List Char} (h : IsAttributes attributes) {c : Char}
    {ending : List Char}
    (hc : isNameChar c = false) (hnone : '<' ∉ c :: ending) :
    ∃ stop rest, attributes ++ c :: ending = stop :: rest ∧ isNameChar stop = false ∧
      '<' ∉ stop :: rest := by
  obtain ⟨hspace, hattributes⟩ := h
  cases attributes with
  | nil => exact ⟨c, ending, rfl, hc, hnone⟩
  | cons space attributes =>
    refine ⟨space, attributes ++ c :: ending, rfl, ?_, ?_⟩
    · have hspace : isSpace space = true := hspace
      simp [isNameChar, hspace]
    · intro hmem
      rw [← List.cons_append] at hmem
      exact (List.mem_append.mp hmem).elim hattributes hnone

theorem passes_tag (htag : IsName tag) {c : Char} {rest : List Char} (hc : c ∉ tag)
    (hrest : '<' ∉ c :: rest) :
    Passes ('<' :: tag) ('<' :: c :: rest) := by
  apply passes_cons _ (passes_of_notMem hrest)
  intro right hstart
  obtain ⟨d, more, rfl⟩ := List.exists_cons_of_ne_nil htag.1
  have hstart := (List.cons_prefix_cons.mp hstart).2
  exact hc ((List.cons_prefix_cons.mp hstart).1 ▸ List.mem_cons_self)

theorem notMem_name (htag : IsName tag) {c : Char} (hc : isNameChar c = false) : c ∉ tag :=
    fun hmem => by
  have hname := htag.2 c hmem
  rw [hc] at hname
  cases hname

theorem clear_token (htag : IsName tag) {token : Token} (h : token.Escaped)
    (hname : token.name ≠ some tag) :
    Clear tag token.render := by
  cases token with
  | text characters => exact clear_of_passes (passes_of_notMem h)
  | opens name attributes =>
    obtain ⟨stop, rest, heq, hstop, hrest⟩ :=
      stops_of_attributes h.2 (by decide : isNameChar '>' = false) (by decide : '<' ∉ ['>'])
    rw [Token.render, heq]
    exact clear_tag htag h.1 (fun hsame => hname (congrArg some hsame)) hstop hrest
  | closes name =>
    apply clear_of_passes
    apply passes_tag htag (notMem_name htag (by decide))
    simpa using notMem_name h (by decide)
  | empty name attributes =>
    obtain ⟨stop, rest, heq, hstop, hrest⟩ :=
      stops_of_attributes h.2 (by decide : isNameChar '/' = false) (by decide : '<' ∉ ['/', '>'])
    rw [Token.render, heq]
    exact clear_tag htag h.1 (fun hsame => hname (congrArg some hsame)) hstop hrest
  | declaration content =>
    have hnone : '<' ∉ content := h
    apply clear_of_passes
    apply passes_tag htag (notMem_name htag (by decide))
    simpa using hnone

theorem passes_close {c : Char} {rest : List Char} (hc : c ≠ '/') (hrest : '<' ∉ c :: rest) :
    Passes ('<' :: '/' :: (tag ++ ['>'])) ('<' :: c :: rest) := by
  apply passes_cons _ (passes_of_notMem hrest)
  intro right hstart
  have hstart := (List.cons_prefix_cons.mp hstart).2
  exact hc (List.cons_prefix_cons.mp hstart).1.symm

theorem passes_open {attributes ending : List Char} (hname : IsName name)
    (hrest : '<' ∉ attributes ++ ending) :
    Passes ('<' :: '/' :: (tag ++ ['>'])) ('<' :: (name ++ (attributes ++ ending))) := by
  obtain ⟨c, more, rfl⟩ := List.exists_cons_of_ne_nil hname.1
  have hc := isNameChar_iff.mp (hname.2 c List.mem_cons_self)
  refine passes_close hc.2.2.2.1 fun hmem => ?_
  change '<' ∈ (c :: more) ++ (attributes ++ ending) at hmem
  exact (List.mem_append.mp hmem).elim (notMem_name hname (by decide)) hrest

theorem passes_token (htag : IsName tag) {token : Token} (h : token.Escaped)
    (hname : token.name ≠ some tag) :
    Passes ('<' :: '/' :: (tag ++ ['>'])) token.render := by
  cases token with
  | text characters => exact passes_of_notMem h
  | opens name attributes => exact passes_open h.1 (by simpa using h.2.2)
  | closes name =>
    have hnone : '<' ∉ '/' :: (name ++ ['>']) := by simpa using notMem_name h (by decide)
    apply passes_cons _ (passes_of_notMem hnone)
    intro right hstart
    have hstart : tag ++ ['>'] <+: name ++ ['>'] ++ right :=
      (List.cons_prefix_cons.mp (List.cons_prefix_cons.mp hstart).2).2
    rw [List.append_assoc] at hstart
    have hsame := eq_of_stops (p := fun c => isNameChar c = true) htag.2 h.2 (by decide) hstart
    exact hname (congrArg some hsame.symm)
  | empty name attributes => exact passes_open h.1 (by simpa using h.2.2)
  | declaration content =>
    have hnone : '<' ∉ content := h
    exact passes_close (by decide) (by simpa using hnone)

theorem isName_part : IsName "Part".toList := by decide

theorem Field.isName (f : Field) : IsName f.tag := by
  cases f with
  | partNumber => decide
  | etag => decide
  | size => decide

theorem Field.tag_injective {f g : Field} (h : f.tag = g.tag) : f = g := by
  cases f <;> cases g <;> first | rfl | exact absurd h (by decide)

theorem Field.tag_ne_part (f : Field) : f.tag ≠ "Part".toList := by
  cases f with
  | partNumber => decide
  | etag => decide
  | size => decide

theorem Field.mem_partNames (f : Field) : f.tag ∈ partNames := by
  cases f with
  | partNumber => decide
  | etag => decide
  | size => decide

theorem IsPlain.attributes {attributes : List Char} (h : IsPlain attributes) :
    IsAttributes attributes := by
  obtain ⟨hspace, hnone, -⟩ := h
  refine ⟨?_, hnone⟩
  cases attributes with
  | nil => rfl
  | cons c attributes =>
    obtain rfl := of_decide_eq_true hspace
    rfl

theorem Foreign.ne {names : List (List Char)} {token : Token} (h : Foreign names token)
    (hmem : tag ∈ names) :
    token.name ≠ some tag := fun heq => h.2 tag heq hmem

theorem clear_child (htag : IsName tag) (hmem : tag ∈ partNames) {child : Child} (h : child.Escaped)
    (hne : ∀ x ∈ child.field?, x.1.tag ≠ tag) : Clear tag child.render := by
  cases child with
  | other token => exact clear_token htag h.1 (h.ne hmem)
  | field f attributes text =>
    obtain ⟨hattributes, htext⟩ := h
    have hname : some f.tag ≠ some tag := fun heq => hne (f, text) rfl (Option.some.inj heq)
    have hopens : Clear tag (Token.opens f.tag attributes).render :=
      clear_token htag ⟨f.isName, hattributes.attributes⟩ hname
    have htext : Clear tag text := clear_of_passes (passes_of_notMem htext)
    exact hopens.append (htext.append (clear_token htag f.isName hname))

theorem passes_child {child : Child} (h : child.Escaped) :
    Passes ('<' :: '/' :: ("Part".toList ++ ['>'])) child.render := by
  cases child with
  | other token => exact passes_token isName_part h.1 (h.ne (by decide))
  | field f attributes text =>
    obtain ⟨hattributes, htext⟩ := h
    have hname : some f.tag ≠ some "Part".toList := fun heq => f.tag_ne_part (Option.some.inj heq)
    have hopens : Passes ('<' :: '/' :: ("Part".toList ++ ['>']))
        (Token.opens f.tag attributes).render :=
      passes_token isName_part ⟨f.isName, hattributes.attributes⟩ hname
    exact hopens.append ((passes_of_notMem htext).append (passes_token isName_part f.isName hname))

def texts (f : Field) (children : List Child) : List (List Char) :=
  (children.filterMap Child.field?).filterMap fun x => if x.1 = f then some x.2 else none

theorem xmlElements_children (f : Field) {children : List Child}
    (h : ∀ child ∈ children, child.Escaped) :
    xmlElements (children.flatMap Child.render) f.tag = texts f children := by
  induction children with
  | nil => exact xmlElements_nil f.tag
  | cons child children ih =>
    have ih := ih fun child' hchild => h child' (List.mem_cons_of_mem _ hchild)
    have hchild := h child List.mem_cons_self
    rw [List.flatMap_cons]
    cases child with
    | other token =>
      rw [clear_child f.isName f.mem_partNames hchild nofun, ih]
      rfl
    | field g attributes text =>
      by_cases hsame : g = f
      · obtain ⟨hattributes, htext⟩ := hchild
        rw [hsame, Child.render, xmlElements_open hattributes (passes_of_notMem htext), ih]
        simp [texts, Child.field?]
      · have hne : ∀ x ∈ (Child.field g attributes text).field?, x.1.tag ≠ f.tag := by
          intro x hx htag
          cases hx
          exact hsame (Field.tag_injective htag)
        rw [clear_child f.isName f.mem_partNames hchild hne, ih]
        simp [texts, Child.field?, hsame]

theorem xmlElements_items {items : List Item} (h : ∀ item ∈ items, item.Escaped) :
    xmlElements (body items) "Part".toList = (items.filterMap Item.children?).map
      (List.flatMap Child.render) := by
  unfold body
  induction items with
  | nil => exact xmlElements_nil "Part".toList
  | cons item items ih =>
    have ih := ih fun item' hitem => h item' (List.mem_cons_of_mem _ hitem)
    have hitem := h item List.mem_cons_self
    rw [List.flatMap_cons]
    cases item with
    | other token =>
      rw [Item.render, clear_token isName_part hitem.1 (hitem.ne List.mem_cons_self), ih]
      rfl
    | part attributes children =>
      obtain ⟨hattributes, hchildren⟩ := hitem
      have hpasses := passes_flatMap fun child hchild => passes_child (hchildren child hchild)
      rw [Item.render, xmlElements_open hattributes hpasses, ih]
      rfl

theorem text_children (f : Field) {name : String} (hname : f.tag = name.toList)
    {children : List Child}
    (h : ∀ child ∈ children, child.Escaped) :
    text (children.flatMap Child.render) name = (texts f children).head?.map fun t =>
      String.ofList (xmlUnescape t) := by
  rw [text, xmlText, ← hname, xmlElements_children f h, Option.map_map]
  rfl

theorem partElement_children {children : List Child} (h : ∀ child ∈ children, child.Escaped) :
    partElement (children.flatMap Child.render) =
      ⟨(texts .partNumber children).head?.map fun t => String.ofList (xmlUnescape t),
        (texts .etag children).head?.map fun t => String.ofList (xmlUnescape t),
        (texts .size children).head?.map fun t => String.ofList (xmlUnescape t)⟩ := by
  rw [partElement, text_children .partNumber rfl h, text_children .etag rfl h,
    text_children .size rfl h]

theorem xmlUnescape_toString (n : ℕ) : xmlUnescape (toString n).toList = (toString n).toList := by
  have htext : (toString n).toList = Nat.toDigits 10 n := Nat.toList_repr
  have hdigits : ∀ d ∈ (toString n).toList, d.isDigit = true := by
    rw [htext]
    exact fun d hd => Nat.isDigit_of_mem_toDigits (by decide) (by decide) hd
  have hplain := xmlUnescape_append (notMem_of_isDigit hdigits (by decide : '&'.isDigit = false)) []
  rw [List.append_nil] at hplain
  rw [hplain, xmlUnescape_eq]
  exact List.append_nil _

theorem texts_of_shows {children : List Child} {fields : List (Field × List Char)}
    (h : (children.filterMap Child.field?).Perm fields) {f : Field} {t : List Char}
    (hone : (fields.filterMap fun x => if x.1 = f then some x.2 else none) = [t]) :
      texts f children = [t] := by
  have hperm := h.filterMap fun x => if x.1 = f then some x.2 else none
  rw [hone] at hperm
  exact List.perm_singleton.mp hperm

theorem readPart_shown {children : List Child} (h : ∀ child ∈ children, child.Escaped)
    {part : MultipartPart}
    (hshows : Shows children part) (hlistable : Listable part) :
    readPart (partElement (children.flatMap Child.render)) = some part := by
  obtain ⟨etag, hetag, hperm⟩ := hshows
  obtain ⟨hpositive, hnumber, hne, hsize⟩ := hlistable
  rw [partElement_children h, texts_of_shows hperm rfl, texts_of_shows hperm rfl,
    texts_of_shows hperm rfl]
  have hkept : (some part.etag).filter (· ≠ "") = some part.etag :=
    Option.filter_eq_some_iff.mpr ⟨rfl, decide_eq_true hne⟩
  simp only [List.head?_cons, Option.map_some, xmlUnescape_toString, hetag.read, readPart,
    Option.bind_some,
    parse_toString hnumber, parse_toString hsize, String.ofList_toList, hkept, if_pos hpositive]

theorem readPart_lacking {children : List Child} (h : ∀ child ∈ children, child.Escaped) {f : Field}
    (hlacks : ∀ child ∈ children, ∀ x ∈ child.field?, x.1 ≠ f) :
    readPart (partElement (children.flatMap Child.render)) = none := by
  have hnone : texts f children = [] := by
    apply List.filterMap_eq_nil_iff.mpr
    intro x hx
    obtain ⟨child, hchild, hfield⟩ := List.mem_filterMap.mp hx
    exact if_neg (hlacks child hchild x hfield)
  rw [partElement_children h, readPart]
  cases f with
  | partNumber =>
    rw [hnone]
    rfl
  | etag =>
    rw [hnone]
    split
    · rename_i heq _
      cases heq
    · rfl
  | size =>
    rw [hnone]
    split
    · rename_i heq
      cases heq
    · rfl

theorem parts_page {items : List Item} (h : ∀ item ∈ items, item.Escaped) :
    (page (body items)).parts = (items.filterMap Item.children?).map fun children =>
      partElement (children.flatMap Child.render) := by
  rw [page, xmlElements_items h, List.map_map]
  rfl

theorem escaped_children {items : List Item} (h : ∀ item ∈ items, item.Escaped)
    {children : List Child}
    (hmem : children ∈ items.filterMap Item.children?) : ∀ child ∈ children, child.Escaped := by
  obtain ⟨item, hitem, hsome⟩ := List.mem_filterMap.mp hmem
  cases item with
  | other token => cases hsome
  | part attributes children' =>
    cases hsome
    exact (h _ hitem).2

/-- What is escaped is read back; a page is read as the parts that it shows, and not at all where
one of them lacks a field. -/
theorem xml_read :
    (∀ value, xmlUnescape (xmlEscape value) = value) ∧ ∀ items,
      (∀ item ∈ items, Item.Escaped item) →
      (∀ parts, List.Forall₂ Shows (items.filterMap Item.children?) parts →
        (∀ part ∈ parts, Listable part) →
        (page (body items)).parts.mapM readPart = some parts) ∧
      ((∃ children ∈ items.filterMap Item.children?, ∃ f, ∀ child ∈ children,
        ∀ x ∈ child.field?, x.1 ≠ f) →
        (page (body items)).parts.mapM readPart = none) := by
  refine ⟨unescape_escape, fun items h => ⟨fun parts hshows hlistable => ?_, ?_⟩⟩
  · rw [parts_page h]
    apply mapM_forall₂
    rw [List.forall₂_map_left_iff]
    have hescaped : ∀ children ∈ items.filterMap Item.children?, ∀ child ∈ children,
        child.Escaped := fun _ hmem =>
      escaped_children h hmem
    generalize items.filterMap Item.children? = written at hshows hescaped
    induction hshows with
    | nil => exact .nil
    | cons hpart hparts ih =>
      refine .cons
        (readPart_shown (hescaped _ List.mem_cons_self) hpart (hlistable _ List.mem_cons_self))
          (ih ?_ ?_)
      · exact fun part hmem => hlistable part (List.mem_cons_of_mem _ hmem)
      · exact fun children hmem => hescaped children (List.mem_cons_of_mem _ hmem)
  · rintro ⟨children, hmem, f, hlacks⟩
    rw [parts_page h]
    exact mapM_none (List.mem_map_of_mem hmem) (readPart_lacking (escaped_children h hmem) hlacks)

instance : (token : Token) → Decidable token.Escaped
  | .text characters => inferInstanceAs (Decidable ('<' ∉ characters))
  | .opens name attributes | .empty name attributes =>
    inferInstanceAs
      (Decidable (IsName name ∧ attributes.head?.all isSpace = true ∧ '<' ∉ attributes))
  | .closes name => inferInstanceAs (Decidable (IsName name))
  | .declaration content => inferInstanceAs (Decidable ('<' ∉ content))

instance (names : List (List Char)) (token : Token) : Decidable (Foreign names token) :=
  inferInstanceAs (Decidable (token.Escaped ∧ ∀ name ∈ token.name, name ∉ names))

instance (attributes : List Char) : Decidable (IsPlain attributes) :=
  inferInstanceAs
    (Decidable (attributes.head?.all (· = ' ') = true ∧ '<' ∉ attributes ∧ '>' ∉ attributes))

instance : (child : Child) → Decidable child.Escaped
  | .field _ attributes text => inferInstanceAs (Decidable (IsPlain attributes ∧ '<' ∉ text))
  | .other token => inferInstanceAs (Decidable (Foreign partNames token))

instance : (item : Item) → Decidable item.Escaped
  | .part attributes children =>
      inferInstanceAs (Decidable (IsPlain attributes ∧ ∀ child ∈ children, child.Escaped))
  | .other token => inferInstanceAs (Decidable (Foreign ["Part".toList] token))

def quoted : List Child :=
  [.field .etag [] (xmlEscape "\"<a&amp;>\"".toList), .other (.text "\n  ".toList),
    .field .size " unit='b'".toList "7".toList,
    .other (.empty "PartOwner".toList []), .field .partNumber [] "2".toList]

def sizeless : List Child := [.field .partNumber [] "3".toList, .field .etag [] "c".toList]

def around (parts : List Item) : List Item :=
  [.other (.declaration "xml version='1.0'".toList),
    .other (.opens "ListPartsResult".toList " xmlns='s3'".toList),
    .other (.opens "PartNumberMarker".toList []), .other (.text "1".toList),
      .other (.closes "PartNumberMarker".toList)] ++
    parts ++ [.other (.closes "ListPartsResult".toList)]

theorem quoted_read : (page (body (around [.part [] quoted]))).parts.mapM readPart =
    some [⟨2, "\"<a&amp;>\"", 7⟩] ∧
    (page (body (around [.part [] quoted, .part [] sizeless]))).parts.mapM readPart = none := by
  have hread := xml_read.2
  constructor
  · refine (hread _ (by decide +kernel)).1 _ (.cons ⟨_, renders_xmlEscape _, ?_⟩ .nil) ?_
    · decide +kernel
    · simp [Listable, maxU64]
  · refine (hread _ (by decide +kernel)).2 ⟨sizeless, by simp [around, Item.children?], .size, ?_⟩
    decide +kernel

end Beam.Rust.PartsXml
