import BeamSdk.Web.Withheld

/-! What the sink gets of a context. -/

namespace Beam.Web.Logger

open List (Forall₂)

variable {u : Urls}

section Telling

/-- A rewriting that leaves the marks of a URL where they are. -/
structure Apart (f : List Char → List Char) : Prop where
  nil : f [] = []
  append : ∀ {stop}, stop ∈ ['?', '&', '=', '#'] → ∀ text rest,
    f (text ++ stop :: rest) = f text ++ stop :: f rest

theorem apart_id : Apart id := ⟨rfl, fun _ _ _ => rfl⟩

theorem redactString_nil : redactString [] = [] := redactFrom_nil none

theorem apart_redactString : Apart redactString := by
  have hstops : (['?', '&', '=', '#'].all fun stop => !body stop) = true := by decide
  refine ⟨redactString_nil, fun {stop} hstop => redactString_append ?_⟩
  simpa using List.all_eq_true.mp hstops stop hstop

variable {f : List Char → List Char} (hf : Apart f)
include hf

theorem Apart.stop {stop : Char} (hstop : stop ∈ ['?', '&', '=', '#']) (rest : List Char) :
    f (stop :: rest) = stop :: f rest := by
  have happend := hf.append hstop [] rest
  rwa [List.nil_append, hf.nil, List.nil_append] at happend

theorem Apart.intercalate (parts : List (List Char)) :
    f (['&'].intercalate parts) = ['&'].intercalate (parts.map f) := by
  induction parts with
  | nil => exact hf.nil
  | cons part parts ih =>
    cases parts with
    | nil => simp
    | cons next parts =>
      rw [List.intercalate_cons_cons, List.append_assoc, List.singleton_append,
        hf.append (by decide), ih,
        List.map_cons, List.map_cons, List.map_cons, List.intercalate_cons_cons, List.append_assoc,
          List.singleton_append]

theorem Apart.assemble (l : List Char) (parts : List (List Char)) {h : List Char}
    (hhash : ∀ c ∈ h.head?, c = '#') :
    f (assemble l parts h) = assemble (f l) (parts.map f) (f h) := by
  have hquery : f (l ++ (if parts = [] then [] else '?' :: ['&'].intercalate parts)) =
      f l ++ (if parts.map f = [] then [] else '?' :: ['&'].intercalate (parts.map f)) := by
    by_cases hparts : parts = []
    · rw [hparts]
      simp
    · rw [if_neg hparts, if_neg (by simpa using hparts), hf.append (by decide), hf.intercalate]
  rw [Logger.assemble, Logger.assemble, ← hquery]
  cases h with
  | nil => rw [hf.nil, List.append_nil, List.append_nil]
  | cons c h =>
    obtain rfl := hhash c rfl
    rw [hf.append (by decide), hf.stop (by decide)]

/-- A rewriting that keeps a character that stands alone tells apart two texts that differ in such a
character at the value of a sensitive parameter. -/
theorem Apart.tells {x y : Char} (hx : f [x] = [x]) (hy : f [y] = [y]) (hxy : x ≠ y)
    {text : List Char}
    (h : f (blankText u x text) = f (blankText u y text)) :
    ∀ segment ∈ segments text, u.sensitive segment ≠ true := by
  intro segment hsegment hsensitive
  rw [blankText, blankText, hf.assemble _ _ (hash_head text), hf.assemble _ _ (hash_head text),
    Logger.assemble, Logger.assemble] at h
  have hsegments : segments text ≠ [] := List.ne_nil_of_mem hsegment
  rw [if_neg (by simpa using hsegments), if_neg (by simpa using hsegments)] at h
  have hquery := List.append_cancel_left (List.append_cancel_right h)
  have hparts := intercalate_inj ?_ (List.cons.inj hquery).2
  · rw [List.map_map, List.map_map] at hparts
    have hpart := (List.map_inj_left.mp hparts) segment hsegment
    rw [Function.comp_apply, Function.comp_apply, blank, blank, if_pos hsensitive,
      if_pos hsensitive,
      hf.append (by decide), hf.append (by decide), hx, hy] at hpart
    have hvalue := List.append_cancel_left hpart
    exact hxy (List.cons.inj (List.cons.inj hvalue).2).1
  · rw [List.map_map, List.map_map, List.forall₂_map_left_iff, List.forall₂_map_right_iff,
      List.forall₂_same]
    intro segment _
    rw [Function.comp_apply, Function.comp_apply, blank, blank]
    split
    · rw [hf.append (by decide), hf.append (by decide), hx, hy]
      simp
    · rfl

end Telling

section Texts

theorem redactString_single {c : Char} : redactString [c] = [c] := by
  have hnone : ¬ Credential none [c] := by
    apply not_credential_short
    have hshort : (run [c]).length ≤ 1 := (List.takeWhile_prefix _).length_le
    omega
  rw [redactString_eq, redactFrom_cons hnone, redactFrom_nil]

def Written (u : Urls) (text : List Char) (address : Address) : Prop :=
  mark <:+: text ∧ u.parse (withoutQuery text) = some address ∧
    (u.searchParams text).any (fun param => sensitiveKey param.1) = true

theorem redactText_written {text : List Char} {address : Address} (h : Written u text address) :
    redactText u text = address.toString (hidden (u.searchParams text)) := by
  obtain ⟨hmark, hparse, hany⟩ := h
  have hmark : "://".toList <:+: text := hmark
  rw [redactText, if_pos hmark, redactUrl, hparse]
  simp only
  rw [if_pos hany]

theorem redactText_unwritten {text : List Char} (h : ∀ address, ¬ Written u text address) :
    redactText u text = redactString text := by
  unfold redactText
  split
  · rename_i hmark
    unfold redactUrl
    split
    · rfl
    · rename_i address hparse
      simp only
      rw [if_neg fun hany => h address ⟨hmark, hparse, hany⟩]
  · rfl

/-- What is left of a URL when the values of its sensitive parameters are gone has no credential. -/
def Address.Clean (address : Address) (params : Params) : Prop :=
  Logger.Clean address.beforeQuery ∧
    (∀ param ∈ params, Logger.Clean (encode param.1) ∧
      (sensitiveKey param.1 ≠ true → Logger.Clean (encode param.2))) ∧
    ∀ fragment ∈ address.fragment, Logger.Clean fragment

theorem clean_fragment (fragment : Option (List Char)) (query : List Char) :
    Clean (query ++ fragment.elim [] ('#' :: ·)) ↔ Clean query ∧ ∀ text ∈ fragment, Clean text := by
  cases fragment with
  | none => simp
  | some text =>
    rw [Option.elim_some, clean_append (by decide)]
    simp

theorem clean_query (params : Params) : Clean (query params) ↔
    ∀ param ∈ params, Clean (encode param.1) ∧ Clean (encode param.2) := by
  rw [query, clean_intercalate (by decide), List.forall_mem_map]
  refine forall₂_congr fun param _ => ?_
  rw [clean_append (by decide)]

theorem clean_toString (address : Address) (params : Params) :
    Clean (address.toString (hidden params)) ↔ address.Clean params := by
  have hredacted : Clean (encode redacted) := by decide
  rw [Address.toString, clean_append (by decide), clean_fragment, clean_query, Address.Clean]
  refine and_congr_right fun _ => and_congr_left fun _ =>
    ⟨fun h param hparam => ?_, fun h param hparam => ?_⟩
  · by_cases hsensitive : sensitiveKey param.1 = true
    · have hmem : (param.1, redacted) ∈ hidden params :=
        mem_hidden.mpr (.inl ⟨List.mem_map.mpr ⟨param, hparam, rfl⟩, hsensitive, rfl⟩)
      exact ⟨(h _ hmem).1, fun hplain => absurd hsensitive hplain⟩
    · have hmem : param ∈ hidden params := mem_hidden.mpr (.inr ⟨hsensitive, hparam⟩)
      exact ⟨(h _ hmem).1, fun _ => (h _ hmem).2⟩
  · rcases mem_hidden.mp hparam with ⟨hname, hsensitive, hvalue⟩ | ⟨hplain, hmem⟩
    · obtain ⟨param', hparam', hname'⟩ := List.mem_map.mp hname
      rw [hvalue, ← hname']
      exact ⟨(h param' hparam').1, hredacted⟩
    · exact ⟨(h param hmem).1, (h param hmem).2 hplain⟩

theorem redactText_clean (text : List Char) : Clean (redactText u text) ↔
    ∀ address, Written u text address → address.Clean (u.searchParams text) := by
  by_cases h : ∃ address, Written u text address
  · obtain ⟨address, hwritten⟩ := h
    rw [redactText_written hwritten, clean_toString]
    refine ⟨fun hclean address' hwritten' => ?_, fun h => h address hwritten⟩
    obtain rfl := Option.some.inj (hwritten.2.1.symm.trans hwritten'.2.1)
    exact hclean
  · have hnone := not_exists.mp h
    rw [redactText_unwritten hnone]
    exact iff_of_true (redactString_clean text) fun address hwritten =>
      absurd hwritten (hnone address)

end Texts

section Contexts
variable {π : Type}

mutual
def strings : Shown π → List (List Char)
  | .undefined => []
  | .string text => [text]
  | .other _ => []
  | .array items => itemStrings items
  | .record entries => entryStrings entries

def itemStrings : List (Shown π) → List (List Char)
  | [] => []
  | item :: items => strings item ++ itemStrings items

def entryStrings : List (List Char × Shown π) → List (List Char)
  | [] => []
  | (key, item) :: entries => key :: strings item ++ entryStrings entries
end

theorem itemStrings_eq (items : List (Shown π)) : itemStrings items = items.flatMap strings := by
  induction items with
  | nil => rfl
  | cons item items ih => rw [itemStrings, ih, List.flatMap_cons]

theorem entryStrings_eq (entries : List (List Char × Shown π)) :
    entryStrings entries = entries.flatMap fun entry => entry.1 :: strings entry.2 := by
  induction entries with
  | nil => rfl
  | cons entry entries ih => rw [entryStrings, ih, List.flatMap_cons]

inductive Word
  | truncated
  | circular
  | redacted
  | name
  | message

def Word.text : Word → List Char
  | .truncated => "[truncated]".toList
  | .circular => "[circular]".toList
  | .redacted => Logger.redacted
  | .name => "name".toList
  | .message => "message".toList

/-- What redaction comes to in a context: the text of a string, a key, the name or the message of an
error, or a word of its own. -/
inductive Piece
  | word (w : Word)
  | key (text : List Char)
  | name (text : List Char)
  | message (text : List Char)
  | string (text : List Char)

def visit (heap : ℕ → Object π) : ℕ → Value π → List ℕ → List Piece × List ℕ
  | 0, _, seen => ([.word .truncated], seen)
  | _ + 1, .undefined, seen => ([], seen)
  | _ + 1, .string text, seen => ([.string text], seen)
  | _ + 1, .other _, seen => ([], seen)
  | depth + 1, .object r, seen =>
    if r ∈ seen then ([.word .circular], seen)
    else
      match heap r with
      | .array items =>
        let (pieces, seen) := through (visit heap depth) (items.take 50) (r :: seen)
        (pieces.flatten, seen)
      | .error name message =>
        ([.word .name, .name name, .word .message, .message message], r :: seen)
      | .record entries =>
        let (pieces, seen) := through (fun (key, item) seen =>
          if sensitiveKey key then ([.key key, .word .redacted], seen)
          else
            let (pieces, seen) := visit heap depth item seen
            (.key key :: pieces, seen)) entries (r :: seen)
        (pieces.flatten, seen)

def shown (u : Urls) : Piece → List Char
  | .word w => w.text
  | .key text => text
  | .name text => text
  | .message text => redactString text
  | .string text => redactText u text

theorem through_flatMap {α γ : Type} {f : α → List ℕ → γ × List ℕ}
    {g : α → List ℕ → List Piece × List ℕ}
    {texts : γ → List (List Char)}
    (h : ∀ x seen, texts (f x seen).1 = (g x seen).1.map (shown u) ∧ (f x seen).2 = (g x seen).2)
    (xs : List α) (seen : List ℕ) :
    (through f xs seen).1.flatMap texts = (through g xs seen).1.flatten.map (shown u) ∧
      (through f xs seen).2 = (through g xs seen).2 := by
  induction xs generalizing seen with
  | nil => exact ⟨rfl, rfl⟩
  | cons x xs ih =>
    obtain ⟨htexts, hseen⟩ := h x seen
    obtain ⟨hrest, hlast⟩ := ih (g x seen).2
    simp only [through, hseen, List.flatMap_cons, List.flatten_cons, List.map_append, htexts,
      hrest, hlast]
    trivial

theorem strings_redact (heap : ℕ → Object π) (depth : ℕ) (value : Value π) (seen : List ℕ) :
    strings (redact u heap depth value seen).1 = (visit heap depth value seen).1.map (shown u) ∧
      (redact u heap depth value seen).2 = (visit heap depth value seen).2 := by
  induction depth generalizing value seen with
  | zero => exact ⟨rfl, rfl⟩
  | succ depth ih =>
    cases value with
    | undefined => exact ⟨rfl, rfl⟩
    | string text => exact ⟨rfl, rfl⟩
    | other x => exact ⟨rfl, rfl⟩
    | object r =>
      rw [redact, visit]
      split
      · exact ⟨rfl, rfl⟩
      · cases heap r with
        | array items =>
          have hitems := through_flatMap ih (items.take 50) (r :: seen)
          simp only [strings, itemStrings_eq]
          exact hitems
        | error name message => exact ⟨rfl, rfl⟩
        | record entries =>
          simp only [strings, entryStrings_eq]
          refine through_flatMap (fun entry seen => ?_) entries (r :: seen)
          obtain ⟨key, item⟩ := entry
          simp only
          split
          · exact ⟨rfl, rfl⟩
          · obtain ⟨htexts, hseen⟩ := ih item seen
            simp only [htexts, hseen, List.map_cons]
            exact ⟨rfl, trivial⟩

section Alike

inductive AlikeValue (u : Urls) : Value π → Value π → Prop
  | undefined : AlikeValue u .undefined .undefined
  | string {text other : List Char} (h : AlikeText u text other) :
      AlikeValue u (.string text) (.string other)
  | other (x : π) : AlikeValue u (.other x) (.other x)
  | object (r : ℕ) : AlikeValue u (.object r) (.object r)

/-- What stands under a sensitive key may be anything. -/
inductive AlikeObject (u : Urls) : Object π → Object π → Prop
  | array {items others : List (Value π)} (h : Forall₂ (AlikeValue u) items others) :
    AlikeObject u (.array items) (.array others)
  | error {name name' message message' : List Char} (hname : AlikeText u name name')
    (hmessage : AlikeText u message message') : AlikeObject u (.error name message)
      (.error name' message')
  | record {entries others : List (List Char × Value π)}
    (h : Forall₂ (fun entry other => entry.1 = other.1 ∧
      (sensitiveKey entry.1 = true ∨ AlikeValue u entry.2 other.2)) entries others) :
    AlikeObject u (.record entries) (.record others)

/-- What is shown of the piece is the same whatever is to be hidden in it. -/
def Piece.Constant (u : Urls) : Piece → Prop
  | .word _ => True
  | .key _ => True
  | .name text => ¬ Carries u text
  | .message text => ¬ Carries u text
  | .string text => Carries u text → Marked u text

theorem through_alike {α γ : Type} {R : α → α → Prop} {f f' : α → List ℕ → γ × List ℕ}
    {g : α → List ℕ → List Piece × List ℕ} (hseen : ∀ x seen, (f x seen).2 = (g x seen).2)
    (h : ∀ x y seen, R x y → (∀ piece ∈ (g x seen).1, piece.Constant u) → f x seen = f' y seen)
    {xs ys : List α} (hxs : Forall₂ R xs ys) (seen : List ℕ)
    (hpieces : ∀ piece ∈ (through g xs seen).1.flatten, piece.Constant u) :
    through f xs seen = through f' ys seen := by
  induction hxs generalizing seen with
  | nil => rfl
  | @cons x y xs ys hfirst _ ih =>
    have hcons : (through g (x :: xs) seen).1 = (g x seen).1 :: (through g xs (g x seen).2).1 := rfl
    rw [hcons, List.flatten_cons, List.forall_mem_append] at hpieces
    have hx := h x y seen hfirst hpieces.1
    rw [through, through, ← hx]
    simp only [hseen]
    rw [ih _ hpieces.2]

theorem redact_alike {heap heap' : ℕ → Object π}
    (hheap : ∀ r, AlikeObject u (heap r) (heap' r)) {depth : ℕ}
    {value other : Value π} (hvalue : AlikeValue u value other) (seen : List ℕ)
    (hpieces : ∀ piece ∈ (visit heap depth value seen).1, piece.Constant u) :
    redact u heap depth value seen = redact u heap' depth other seen := by
  induction depth generalizing value other seen with
  | zero => rfl
  | succ depth ih =>
    cases hvalue with
    | undefined => rfl
    | string h =>
      have htext : (.string _ : Piece).Constant u := hpieces _ List.mem_cons_self
      rw [redact, redact, h.redactText_eq htext]
    | other x => rfl
    | object r =>
      have hr := hheap r
      rw [redact, redact]
      rw [visit] at hpieces
      by_cases hmem : r ∈ seen
      · rw [if_pos hmem, if_pos hmem]
      · rw [if_neg hmem] at hpieces
        rw [if_neg hmem, if_neg hmem]
        generalize heap r = object at hr hpieces
        generalize heap' r = object' at hr
        cases hr with
        | @array items others h =>
          have hitems := through_alike (R := AlikeValue u)
            (fun x seen => (strings_redact (u := u) heap depth x seen).2)
            (fun _ _ seen halike hall => ih halike seen hall) (List.forall₂_take 50 h)
              (r :: seen) hpieces
          simp only [hitems]
        | @error name name' message message' hname hmessage =>
          have hname' : ¬ Carries u name := hpieces (.name name) (by simp)
          have hmessage' : ¬ Carries u message := hpieces (.message message) (by simp)
          rw [hname.eq hname', hmessage.eq hmessage']
        | @record entries others h =>
          refine congrArg (fun result : List (List Char × Shown π) × List ℕ =>
            (Shown.record result.1, result.2))
            (through_alike ?_ ?_ h (r :: seen) hpieces)
          · rintro ⟨key, item⟩ seen
            simp only
            split
            · rfl
            · exact (strings_redact heap depth item seen).2
          · rintro ⟨key, item⟩ ⟨key', item'⟩ seen ⟨hkey, hitem⟩ hall
            obtain rfl : key = key' := hkey
            simp only at hall ⊢
            by_cases hsensitive : sensitiveKey key = true
            · rw [if_pos hsensitive, if_pos hsensitive]
            · rw [if_neg hsensitive] at hall
              rw [if_neg hsensitive, if_neg hsensitive, ih (hitem.resolve_left hsensitive) seen
                fun piece hpiece => hall piece (List.mem_cons_of_mem _ hpiece)]

end Alike

section Rewritten

def Value.mapText (f : List Char → List Char) : Value π → Value π
  | .string text => .string (f text)
  | value => value

def Object.mapText (f : List Char → List Char) : Object π → Object π
  | .array items => .array (items.map (Value.mapText f))
  | .error name message => .error (f name) (f message)
  | .record entries => .record (entries.map fun entry => (entry.1, entry.2.mapText f))

def Piece.mapText (f : List Char → List Char) : Piece → Piece
  | .name text => .name (f text)
  | .message text => .message (f text)
  | .string text => .string (f text)
  | piece => piece

theorem through_map {α : Type} {m : α → α} {k : Piece → Piece}
    {f g : α → List ℕ → List Piece × List ℕ}
    (h : ∀ x seen, f (m x) seen = ((g x seen).1.map k, (g x seen).2)) (xs : List α)
    (seen : List ℕ) :
    (through f (xs.map m) seen).1.flatten = (through g xs seen).1.flatten.map k ∧
      (through f (xs.map m) seen).2 = (through g xs seen).2 := by
  induction xs generalizing seen with
  | nil => exact ⟨rfl, rfl⟩
  | cons x xs ih =>
    obtain ⟨hrest, hlast⟩ := ih (g x seen).2
    simp only [List.map_cons, through, h, List.flatten_cons, List.map_append, hrest, hlast]
    trivial

theorem visit_mapText (f : List Char → List Char) (heap : ℕ → Object π) (depth : ℕ)
    (value : Value π)
    (seen : List ℕ) : visit (fun r => (heap r).mapText f) depth (value.mapText f) seen =
      ((visit heap depth value seen).1.map (Piece.mapText f), (visit heap depth value seen).2) := by
  induction depth generalizing value seen with
  | zero => rfl
  | succ depth ih =>
    cases value with
    | undefined => rfl
    | string text => rfl
    | other x => rfl
    | object r =>
      rw [Value.mapText, visit, visit]
      · split
        · rfl
        · cases heap r with
          | array items =>
            obtain ⟨hpieces, hseen⟩ := through_map ih (items.take 50) (r :: seen)
            rw [List.map_take] at hpieces hseen
            exact Prod.ext hpieces hseen
          | error name message => rfl
          | record entries =>
            obtain ⟨hpieces, hseen⟩ := through_map (k := Piece.mapText f)
              (m := fun entry : List Char × Value π => (entry.1, entry.2.mapText f))
              (g := fun entry seen =>
                if sensitiveKey entry.1 then ([.key entry.1, .word .redacted], seen)
                else (.key entry.1 :: (visit heap depth entry.2 seen).1,
                  (visit heap depth entry.2 seen).2))
              (f := fun entry seen =>
                if sensitiveKey entry.1 then ([.key entry.1, .word .redacted], seen)
                else (.key entry.1 :: (visit (fun r => (heap r).mapText f) depth entry.2 seen).1,
                  (visit (fun r => (heap r).mapText f) depth entry.2 seen).2))
              (fun entry seen => by
                simp only [ih]
                split
                · rfl
                · rfl) entries (r :: seen)
            exact Prod.ext hpieces hseen
      · simp

variable (u)

/-- The text with one character for the value of each sensitive parameter, if it is a URL. -/
def refill (value : Char) (text : List Char) : List Char :=
  if (u.parse (withoutQuery text)).isSome then blankText u value text else text

variable {u}

theorem refill_alike {value : Char} (hvalue : value ≠ '&' ∧ value ≠ '#') (text : List Char) :
    AlikeText u text (refill u value text) := by
  unfold refill
  split
  · rename_i hparse
    exact blankText_alike hvalue hparse
  · exact .inl rfl

theorem refill_value {value : Char} (hvalue : value ≠ '&' ∧ value ≠ '#') (v : Value π) :
    AlikeValue u v (v.mapText (refill u value)) := by
  cases v with
  | undefined => exact .undefined
  | string text => exact .string (refill_alike hvalue text)
  | other x => exact .other x
  | object r => exact .object r

theorem refill_object {value : Char} (hvalue : value ≠ '&' ∧ value ≠ '#') (object : Object π) :
    AlikeObject u object (object.mapText (refill u value)) := by
  cases object with
  | array items =>
    refine .array ?_
    rw [List.forall₂_map_right_iff, List.forall₂_same]
    exact fun item _ => refill_value hvalue item
  | error name message => exact .error (refill_alike hvalue name) (refill_alike hvalue message)
  | record entries =>
    refine .record ?_
    rw [List.forall₂_map_right_iff, List.forall₂_same]
    exact fun entry _ => ⟨rfl, .inr (refill_value hvalue entry.2)⟩

theorem not_carries_of_tells {f : List Char → List Char} (hf : Apart f) (hsingle : ∀ c, f [c] = [c])
    {x y : Char} (hxy : x ≠ y) {text : List Char} (h : f (refill u x text) = f (refill u y text)) :
    ¬ Carries u text := by
  rintro ⟨hparse, segment, hsegment, hsensitive⟩
  rw [refill, refill, if_pos hparse, if_pos hparse] at h
  exact hf.tells (hsingle x) (hsingle y) hxy h segment hsegment hsensitive

theorem Piece.constant_of_shown {x y : Char} (hxy : x ≠ y) {piece : Piece}
    (h : shown u (piece.mapText (refill u x)) = shown u (piece.mapText (refill u y))) :
    piece.Constant u := by
  cases piece with
  | word w => trivial
  | key text => trivial
  | name text => exact not_carries_of_tells apart_id (fun _ => rfl) hxy h
  | message text =>
      exact not_carries_of_tells apart_redactString (fun _ => redactString_single) hxy h
  | string text =>
    intro hcarries
    by_contra hmarked
    have hplain : ∀ value, redactText u (refill u value text) =
        redactString (refill u value text) := by
      intro value
      have hnone : ¬ "://".toList <:+: refill u value text := by
        rw [refill, if_pos hcarries.1]
        exact fun h => hmarked ((blankText_mark text).mp h)
      rw [redactText, if_neg hnone]
    have hsame : redactString (refill u x text) = redactString (refill u y text) := by
      rw [← hplain, ← hplain]
      exact h
    exact not_carries_of_tells apart_redactString (fun _ => redactString_single) hxy hsame hcarries

theorem pieces_constant {x y : Char} (hxy : x ≠ y) {heap : ℕ → Object π} {depth : ℕ}
    {value : Value π}
    {seen : List ℕ}
    (h : (redact u (fun r => (heap r).mapText (refill u x)) depth
      (value.mapText (refill u x)) seen).1 =
      (redact u (fun r => (heap r).mapText (refill u y)) depth
        (value.mapText (refill u y)) seen).1) :
    ∀ piece ∈ (visit heap depth value seen).1, piece.Constant u := by
  have hstrings := congrArg strings h
  rw [(strings_redact _ depth _ seen).1, (strings_redact _ depth _ seen).1, visit_mapText,
    visit_mapText,
    List.map_map, List.map_map, List.map_inj_left] at hstrings
  exact fun piece hpiece => Piece.constant_of_shown hxy (hstrings piece hpiece)

end Rewritten

namespace Piece

def Clean (u : Urls) : Piece → Prop
  | .word _ => True
  | .key text => Logger.Clean text
  | .name text => Logger.Clean text
  | .message _ => True
  | .string text => ∀ address, Written u text address → address.Clean (u.searchParams text)

theorem shown_clean (piece : Piece) : Logger.Clean (shown u piece) ↔ piece.Clean u := by
  cases piece with
  | word w =>
    refine iff_of_true ?_ trivial
    rw [shown]
    cases w <;> decide
  | key text => rfl
  | name text => rfl
  | message text => exact iff_of_true (redactString_clean text) trivial
  | string text => exact redactText_clean text

end Piece

end Contexts

namespace BeamLogger
variable {π : Type}

theorem log_eq (l : BeamLogger) (heap : ℕ → Object π) (level : LogLevel) (message : List Char)
    (context : Value π) :
    l.log u heap level message context =
      if l.level.order < level.order then none
      else some (level, '[' :: l.scope ++ "] ".toList ++ message,
        (redact u heap 7 context []).1) := by
  cases context with
  | undefined => rfl
  | string text => rfl
  | other x => rfl
  | object r => rfl

def handed : Option (LogLevel × List Char × Shown π) → List (List Char)
  | none => []
  | some (_, message, context) => message :: strings context

/-- No string the sink gets has a credential, and it gets the same for every context that differs
only under sensitive keys and in the values of the sensitive parameters of URLs. -/
structure Redacts (u : Urls) (l : BeamLogger) (heap : ℕ → Object π) (level : LogLevel)
    (message : List Char)
    (context : Value π) : Prop where
  clean : ∀ text ∈ handed (l.log u heap level message context), Clean text
  same : ∀ heap' context', (∀ r, AlikeObject u (heap r) (heap' r)) → AlikeValue u context context' →
    l.log u heap' level message context' = l.log u heap level message context

end BeamLogger
end Beam.Web.Logger
