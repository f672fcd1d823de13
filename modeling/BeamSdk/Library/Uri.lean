import Mathlib.Data.Nat.Basic
import Mathlib.Data.List.Basic

/-! Percent-escapes of UTF-8 octets in text: written by an encoder that keeps some octets, and read
back the way ECMAScript's `decodeURIComponent` and the way a server's octet reader do. -/

namespace Beam.Uri

def hexValue (c : Char) : Option ℕ :=
  if 48 ≤ c.toNat ∧ c.toNat ≤ 57 then some (c.toNat - 48)
  else if 65 ≤ c.toNat ∧ c.toNat ≤ 70 then some (c.toNat - 55)
  else if 97 ≤ c.toNat ∧ c.toNat ≤ 102 then some (c.toNat - 87)
  else none

/-- Where the reader stands: in an escape, perhaps past its first digit, and in a character of
which octets are still owed, with its value so far and the least value that needs that many octets.
-/
structure Reader where
  escape : Option (Option ℕ)
  owed : ℕ
  value : ℕ
  least : ℕ
  text : List Char

namespace Reader

def start : Reader := ⟨none, 0, 0, 0, []⟩

def push (r : Reader) (n : ℕ) : Reader := ⟨none, 0, 0, 0, r.text ++ [Char.ofNat n]⟩

def lead (r : Reader) (n : ℕ) : Option Reader :=
  if n < 0x80 then some (r.push n)
  else if n < 0xC0 then none
  else if n < 0xE0 then some ⟨none, 1, n - 0xC0, 0x80, r.text⟩
  else if n < 0xF0 then some ⟨none, 2, n - 0xE0, 0x800, r.text⟩
  else if n < 0xF8 then some ⟨none, 3, n - 0xF0, 0x10000, r.text⟩
  else none

def continuation (r : Reader) (n : ℕ) : Option Reader :=
  if n < 0x80 ∨ 0xC0 ≤ n then none
  else
    let value := 64 * r.value + (n - 0x80)
    if r.owed = 1 then if r.least ≤ value ∧ value.isValidChar then some (r.push value) else none
    else some ⟨none, r.owed - 1, value, r.least, r.text⟩

def octet (r : Reader) (n : ℕ) : Option Reader := if r.owed = 0 then r.lead n else r.continuation n

def step (r : Reader) (c : Char) : Option Reader :=
  match r.escape with
  | none =>
    if c = '%' then some { r with escape := some none }
    else if r.owed = 0 then some { r with text := r.text ++ [c] }
    else none
  | some none => (hexValue c).map fun high => { r with escape := some (some high) }
  | some (some high) => (hexValue c).bind fun low => r.octet (16 * high + low)

def finish (r : Reader) : Option (List Char) := if r.escape = none ∧
    r.owed = 0 then some r.text else none

end Reader

def decodeURIComponent (text : List Char) : Option (List Char) :=
    (text.foldlM Reader.step .start).bind Reader.finish

example : decodeURIComponent "a%2Fb%C3%A9".toList = some "a/bé".toList := by decide
example : decodeURIComponent "%C0%80".toList = none := by decide

def octets (text : List Char) : List ℕ := text.flatMap fun c =>
    (String.utf8EncodeChar c).map UInt8.toNat

@[simp] theorem octets_nil : octets [] = [] := rfl

@[simp] theorem octets_append (left right : List Char) :
    octets (left ++ right) = octets left ++ octets right :=
  List.flatMap_append

theorem octets_cons (c : Char) (text : List Char) :
    octets (c :: text) = octets [c] ++ octets text := by
  rw [← octets_append]
  rfl

theorem octets_lt {text : List Char} {n : ℕ} (h : n ∈ octets text) : n < 256 := by
  obtain ⟨c, _, hn⟩ := List.mem_flatMap.mp h
  obtain ⟨octet, _, rfl⟩ := List.mem_map.mp hn
  exact octet.toNat_lt

theorem octets_eq (text : List Char) : octets text =
    (text.flatMap String.utf8EncodeChar).map UInt8.toNat := by
  induction text with
  | nil => rfl
  | cons c text ih => rw [octets_cons, ih]; simp [octets]

theorem octets_injective {left right : List Char} (h : octets left = octets right) :
    left = right := by
  rw [octets_eq, octets_eq] at h
  have hbytes := (List.map_injective_iff.mpr fun _ _ => UInt8.toNat_inj.mp) h
  have henc : left.utf8Encode = right.utf8Encode := congrArg List.toByteArray hbytes
  rw [← String.toByteArray_ofList, ← String.toByteArray_ofList, String.toByteArray_inj] at henc
  simpa using congrArg String.toList henc

theorem octets_ascii {c : Char} (h : c.toNat < 128) : octets [c] = [c.toNat] := by
  have hencode : String.utf8EncodeChar c = [UInt8.ofNat c.val.toNat] := if_pos (Nat.le_of_lt_succ h)
  have hn : c.val.toNat < 2 ^ 8 := Nat.lt_of_lt_of_le h (by decide)
  rw [octets, List.flatMap_cons, List.flatMap_nil, List.append_nil, hencode, List.map_cons,
    List.map_nil,
    UInt8.toNat_ofNat', Nat.mod_eq_of_lt hn]
  rfl

theorem octets_cons_ascii {c : Char} (h : c.toNat < 128) (text : List Char) :
    octets (c :: text) = c.toNat :: octets text := by
  rw [octets_cons, octets_ascii h, List.singleton_append]

theorem toNat_of_mem_octets {c : Char} {n : ℕ} (hn : n ∈ octets [c]) (h : n < 128) :
    c.toNat = n := by
  by_cases hc : c.toNat < 128
  · rw [octets_ascii hc, List.mem_singleton] at hn
    exact hn.symm
  · have hlarge : ¬ c.val.toNat ≤ 127 := fun hle => hc (Nat.lt_succ_of_le hle)
    rw [octets, List.flatMap_cons, List.flatMap_nil, List.append_nil] at hn
    unfold String.utf8EncodeChar at hn
    simp only [if_neg hlarge] at hn
    split_ifs at hn <;>
      simp only [List.map_cons, List.map_nil, List.mem_cons, List.not_mem_nil, or_false,
        UInt8.toNat_ofNat'] at hn <;>
      omega

theorem mem_octets_iff {c : Char} (hc : c.toNat < 128) {text : List Char} : c.toNat ∈ octets text ↔
    c ∈ text := by
  constructor
  · intro h
    obtain ⟨d, hd, hmem⟩ := List.mem_flatMap.mp h
    have hone : c.toNat ∈ octets [d] := by
      rw [octets, List.flatMap_cons, List.flatMap_nil, List.append_nil]
      exact hmem
    have heq : d = c := Char.toNat_inj.mp (toNat_of_mem_octets hone hc)
    rwa [← heq]
  · intro h
    obtain ⟨left, right, rfl⟩ := List.append_of_mem h
    rw [octets_append, octets_cons, octets_ascii hc]
    simp

theorem octets_intercalate {c : Char} (hc : c.toNat < 128) (texts : List (List Char)) :
    octets ([c].intercalate texts) = [c.toNat].intercalate (texts.map octets) := by
  induction texts with
  | nil => rfl
  | cons text texts ih =>
    cases texts with
    | nil => simp
    | cons next texts =>
      rw [List.map_cons, List.map_cons, List.intercalate_cons_cons, List.intercalate_cons_cons,
        octets_append, octets_append,
        octets_ascii hc, ih, List.map_cons]

def upperHex (n : ℕ) : Char := if n < 10 then Char.ofNat (48 + n) else Char.ofNat (55 + n)

def escape (n : ℕ) : List Char := ['%', upperHex (n / 16), upperHex (n % 16)]

def encodeOctet (keep : ℕ → Bool) (n : ℕ) : List Char := if keep n then [Char.ofNat n] else escape n

def encode (keep : ℕ → Bool) (text : List Char) : List Char :=
    (octets text).flatMap (encodeOctet keep)

def decodeOctets : List Char → List ℕ
  | [] => []
  | '%' :: high :: low :: rest =>
    match hexValue high, hexValue low with
    | some h, some l => (16 * h + l) :: decodeOctets rest
    | _, _ => 37 :: decodeOctets (high :: low :: rest)
  | c :: rest => octets [c] ++ decodeOctets rest

theorem hexValue_upperHex {n : ℕ} (h : n < 16) : hexValue (upperHex n) = some n := by
  have hall : ∀ n < 16, hexValue (upperHex n) = some n := by decide
  exact hall n h

theorem decodeOctets_escape {n : ℕ} (h : n < 256) (rest : List Char) :
    decodeOctets (escape n ++ rest) = n :: decodeOctets rest := by
  have hhigh : n / 16 < 16 := by omega
  have hlow : n % 16 < 16 := by omega
  rw [escape, List.cons_append, List.cons_append, List.cons_append, List.nil_append, decodeOctets,
    hexValue_upperHex hhigh, hexValue_upperHex hlow]
  simp only [Nat.div_add_mod]

theorem decodeOctets_cons {c : Char} (h : c ≠ '%') (rest : List Char) :
    decodeOctets (c :: rest) = octets [c] ++ decodeOctets rest := by
  rw [decodeOctets]
  rintro high low rest' rfl
  exact absurd rfl h

/-- A set of octets an encoder may keep: they are characters of their own, and none starts an
escape. -/
structure Keeps (keep : ℕ → Bool) : Prop where
  ascii : ∀ n, keep n = true → n < 128
  percent : keep 37 = false

theorem toNat_ofNat_of_lt {n : ℕ} (h : n < 128) : (Char.ofNat n).toNat = n := by
  have hall : ∀ n < 128, (Char.ofNat n).toNat = n := by decide
  exact hall n h

theorem Keeps.ofNat_ne {keep : ℕ → Bool} (hkeep : Keeps keep) {c : Char}
    (hout : keep c.toNat = false) {n : ℕ} (hn : keep n = true) : Char.ofNat n ≠ c := by
  rintro rfl
  rw [toNat_ofNat_of_lt (hkeep.ascii n hn), hn] at hout
  cases hout

section
variable {keep : ℕ → Bool} (hkeep : Keeps keep)
include hkeep

theorem decodeOctets_encodeOctet {n : ℕ} (h : n < 256) (rest : List Char) :
    decodeOctets (encodeOctet keep n ++ rest) = n :: decodeOctets rest := by
  cases hn : keep n with
  | false => simpa [encodeOctet, hn] using decodeOctets_escape h rest
  | true =>
    have hlt := hkeep.ascii n hn
    have hself : ∀ n < 128, n ≠ 37 → Char.ofNat n ≠ '%' ∧ octets [Char.ofNat n] = [n] := by decide
    have hne : n ≠ 37 := by
      rintro rfl
      simp [hkeep.percent] at hn
    obtain ⟨hchar, hoctets⟩ := hself n hlt hne
    simp only [encodeOctet, hn, if_true, List.singleton_append]
    rw [decodeOctets_cons hchar, hoctets, List.singleton_append]

theorem decodeOctets_encode (text rest : List Char) :
    decodeOctets (encode keep text ++ rest) = octets text ++ decodeOctets rest := by
  have hrun : ∀ ns : List ℕ, (∀ n ∈ ns, n < 256) →
      decodeOctets (ns.flatMap (encodeOctet keep) ++ rest) = ns ++ decodeOctets rest := by
    intro ns
    induction ns with
    | nil => simp
    | cons n ns ih =>
      intro hlt
      rw [List.flatMap_cons, List.append_assoc,
        decodeOctets_encodeOctet hkeep (hlt n List.mem_cons_self),
        ih fun m hm => hlt m (List.mem_cons_of_mem n hm), List.cons_append]
  exact hrun (octets text) fun n hn => octets_lt hn

theorem decodeOctets_intercalate {c : Char} (hc : c ≠ '%') (segments : List (List Char))
    (rest : List Char) :
    decodeOctets ([c].intercalate (segments.map (encode keep)) ++ rest)
      = octets ([c].intercalate segments) ++ decodeOctets rest := by
  induction segments with
  | nil => simp
  | cons segment segments ih =>
    cases segments with
    | nil => simpa using decodeOctets_encode hkeep segment rest
    | cons next segments =>
      simp only [List.map_cons, List.intercalate_cons_cons, List.append_assoc,
        octets_append] at ih ⊢
      rw [decodeOctets_encode hkeep, List.singleton_append, decodeOctets_cons hc, ih]

theorem decodeOctets_encode_self (text : List Char) :
    decodeOctets (encode keep text) = octets text := by
  have hall := decodeOctets_encode hkeep text []
  rwa [List.append_nil, decodeOctets, List.append_nil] at hall

theorem encode_injective {left right : List Char} (h : encode keep left = encode keep right) :
    left = right := by
  have hleft := decodeOctets_encode_self hkeep left
  rw [h, decodeOctets_encode_self hkeep right] at hleft
  exact (octets_injective hleft).symm

end

theorem upperHex_isAlphanum {n : ℕ} (h : n < 16) : (upperHex n).isAlphanum = true := by
  have hall : ∀ n < 16, (upperHex n).isAlphanum = true := by decide
  exact hall n h

theorem mem_encodeOctet {keep : ℕ → Bool} {c : Char} {n : ℕ} (hn : n < 256)
    (hc : c ∈ encodeOctet keep n) :
    (keep n = true ∧ c = Char.ofNat n) ∨ c = '%' ∨ c.isAlphanum = true := by
  cases hk : keep n with
  | true =>
    rw [encodeOctet, hk, if_pos rfl, List.mem_singleton] at hc
    exact .inl ⟨rfl, hc⟩
  | false =>
    rw [encodeOctet, hk, if_neg Bool.false_ne_true] at hc
    simp only [escape, List.mem_cons, List.not_mem_nil, or_false] at hc
    rcases hc with rfl | rfl | rfl
    · exact .inr (.inl rfl)
    · exact .inr (.inr (upperHex_isAlphanum (by omega)))
    · exact .inr (.inr (upperHex_isAlphanum (by omega)))

theorem notMem_encodeOctets {keep : ℕ → Bool} {c : Char} (hc : c ≠ '%')
    (hplain : c.isAlphanum = false) (hkeep : ∀ n, keep n = true → Char.ofNat n ≠ c) {ns : List ℕ}
    (hlt : ∀ n ∈ ns, n < 256) : c ∉ ns.flatMap (encodeOctet keep) := by
  intro hmem
  obtain ⟨n, hn, hmem⟩ := List.mem_flatMap.mp hmem
  rcases mem_encodeOctet (hlt n hn) hmem with ⟨hk, he⟩ | he | halnum
  · exact hkeep n hk he.symm
  · exact hc he
  · exact Bool.false_ne_true (hplain.symm.trans halnum)

theorem notMem_encode {keep : ℕ → Bool} {c : Char} (hc : c ≠ '%') (hplain : c.isAlphanum = false)
    (hkeep : ∀ n, keep n = true → Char.ofNat n ≠ c) (text : List Char) : c ∉ encode keep text :=
  notMem_encodeOctets hc hplain hkeep fun _ hn => octets_lt hn

/-- A text that does not start with the digits of an escape. -/
def Literal (text : List Char) : Prop :=
  ∀ high low rest, text = high :: low :: rest → hexValue high = none ∨ hexValue low = none

theorem decodeOctets_literal {text : List Char} (h : Literal text) :
    decodeOctets ('%' :: text) = 37 :: decodeOctets text := by
  have hpercent : octets ['%'] = [37] := by decide
  cases text with
  | nil => decide
  | cons high text =>
    cases text with
    | nil => rw [decodeOctets, hpercent] <;> simp
    | cons low rest =>
      rw [decodeOctets]
      rcases h high low rest rfl with hnone | hnone
      · rw [hnone]
      · rw [hnone]
        cases hexValue high <;> rfl

theorem decodeOctets_digits {high low : Char} {h l : ℕ} (hhigh : hexValue high = some h)
    (hlow : hexValue low = some l) (rest : List Char) :
    decodeOctets ('%' :: high :: low :: rest) = (16 * h + l) :: decodeOctets rest := by
  rw [decodeOctets, hhigh, hlow]

/-- A text is read escape by escape. -/
theorem escape_induction {motive : List Char → Prop} (nil : motive [])
    (digits : ∀ high low rest h l, hexValue high = some h → hexValue low = some l → motive rest →
      motive ('%' :: high :: low :: rest))
    (literal : ∀ rest, Literal rest → motive rest → motive ('%' :: rest))
    (plain : ∀ c rest, c ≠ '%' → motive rest → motive (c :: rest)) (text : List Char) :
    motive text := by
  induction text using decodeOctets.induct with
  | case1 => exact nil
  | case2 high low rest h l hlow hhigh ih => exact digits high low rest h l hhigh hlow ih
  | case3 high low rest hbad ih =>
    refine literal _ (fun high' low' rest' heq => ?_) ih
    cases heq
    cases hhigh : hexValue high with
    | none => exact .inl rfl
    | some h =>
      cases hlow : hexValue low with
      | none => exact .inr rfl
      | some l => exact (hbad h l hhigh hlow).elim
  | case4 c rest hother ih =>
    by_cases hc : c = '%'
    · subst hc
      exact literal rest (fun high low rest' heq => (hother high low rest' rfl heq).elim) ih
    · exact plain c rest hc ih

theorem hexValue_lt {c : Char} {n : ℕ} (h : hexValue c = some n) : n < 16 := by
  unfold hexValue at h
  split_ifs at h <;>
  · obtain rfl := Option.some.inj h
    omega

theorem decodeOctets_lt (text : List Char) : ∀ n ∈ decodeOctets text, n < 256 := by
  induction text using escape_induction with
  | nil => exact fun _ hnone => absurd hnone List.not_mem_nil
  | digits high low rest h l hhigh hlow ih =>
    have hh := hexValue_lt hhigh
    have hl := hexValue_lt hlow
    rw [decodeOctets_digits hhigh hlow]
    exact List.forall_mem_cons.mpr ⟨by omega, ih⟩
  | literal rest hrest ih =>
    rw [decodeOctets_literal hrest]
    exact List.forall_mem_cons.mpr ⟨by decide, ih⟩
  | plain c rest hc ih =>
    rw [decodeOctets_cons hc]
    exact List.forall_mem_append.mpr ⟨fun n hn => octets_lt hn, ih⟩

section Stop
variable {c : Char} {left right : List Char}

theorem Literal.append_stop (h : Literal left) (hc : hexValue c = none) :
    Literal (left ++ c :: right) := by
  intro high low rest heq
  cases left with
  | nil =>
    cases heq
    exact .inl hc
  | cons first left =>
    cases left with
    | nil =>
      cases heq
      exact .inr hc
    | cons second left =>
      cases heq
      exact h _ _ _ rfl

theorem decodeOctets_stop (hc : hexValue c = none) (left right : List Char) :
    decodeOctets (left ++ c :: right) = decodeOctets left ++ decodeOctets (c :: right) := by
  induction left using escape_induction with
  | nil => rfl
  | digits high low rest h l hhigh hlow ih =>
    rw [decodeOctets_digits hhigh hlow]
    show _ = (16 * h + l) :: (decodeOctets rest ++ decodeOctets (c :: right))
    rw [← ih]
    exact decodeOctets_digits hhigh hlow _
  | literal rest hrest ih =>
    rw [decodeOctets_literal hrest]
    show _ = 37 :: (decodeOctets rest ++ decodeOctets (c :: right))
    rw [← ih]
    exact decodeOctets_literal (hrest.append_stop hc)
  | plain d rest hd ih =>
    rw [List.cons_append, decodeOctets_cons hd, decodeOctets_cons hd, ih, List.append_assoc]

variable {keep : ℕ → Bool}

/-- A text with the escapes that an encoder would have written. -/
def reencode (keep : ℕ → Bool) (text : List Char) : List Char :=
  (decodeOctets text).flatMap (encodeOctet keep)

theorem reencode_of_append (hkeep : Keeps keep) (hc : hexValue c = none) {rest : List Char}
    (h : reencode keep left ++ rest = left ++ c :: right) : reencode keep left = left := by
  have hpercent : encodeOctet keep 37 = ['%', '2', '5'] := by
    rw [encodeOctet, hkeep.percent]
    rfl
  induction left using escape_induction with
  | nil => rfl
  | digits high low left hv lv hhigh hlow ih =>
    rw [reencode, decodeOctets_digits hhigh hlow, List.flatMap_cons] at h ⊢
    cases hk : keep (16 * hv + lv) with
    | true =>
      rw [encodeOctet, hk, if_pos rfl] at h
      have hchar : Char.ofNat (16 * hv + lv) = '%' := (List.cons.inj h).1
      have hout : keep '%'.toNat = false := hkeep.percent
      exact absurd hchar (hkeep.ofNat_ne hout hk)
    | false =>
      rw [encodeOctet, hk, if_neg Bool.false_ne_true] at h ⊢
      simp only [escape, List.cons_append, List.nil_append] at h ⊢
      obtain ⟨-, h⟩ := List.cons.inj h
      obtain ⟨hfirst, h⟩ := List.cons.inj h
      obtain ⟨hsecond, h⟩ := List.cons.inj h
      have hrest : (decodeOctets left).flatMap (encodeOctet keep) = left := ih h
      rw [hfirst, hsecond, hrest]
  | literal left hleft ih =>
    rw [reencode, decodeOctets_literal hleft, List.flatMap_cons, hpercent] at h
    have htext := (List.cons.inj h).2
    rcases hleft.append_stop hc '2' '5' _ htext.symm with hnone | hnone
    · exact absurd hnone (by decide)
    · exact absurd hnone (by decide)
  | plain d left hd ih =>
    rw [reencode, decodeOctets_cons hd, List.flatMap_append] at h ⊢
    -- What is not kept is written with a percent sign, which is not the character.
    obtain ⟨n, ns, hoctets⟩ : ∃ n ns, octets [d] = n :: ns := by
      cases hnone : octets [d] with
      | nil => exact absurd (@octets_injective [d] [] hnone) (List.cons_ne_nil d [])
      | cons n ns => exact ⟨n, ns, rfl⟩
    have hmem : n ∈ octets [d] := hoctets ▸ List.mem_cons_self
    cases hk : keep n with
    | true =>
      have hvalue := toNat_of_mem_octets hmem (hkeep.ascii n hk)
      have hone : (octets [d]).flatMap (encodeOctet keep) = [d] := by
        rw [octets_ascii (hvalue ▸ hkeep.ascii n hk), List.flatMap_singleton, encodeOctet, hvalue,
          if_pos hk, ← hvalue, Char.ofNat_toNat]
      rw [hone] at h ⊢
      have hrest : (decodeOctets left).flatMap (encodeOctet keep) = left :=
        ih (List.cons.inj h).2
      rw [hrest, List.singleton_append]
    | false =>
      rw [hoctets, List.flatMap_cons, encodeOctet, hk, if_neg Bool.false_ne_true] at h
      exact absurd (List.cons.inj h).1.symm hd

/-- Where a character stands that is no digit, the text before it and the one behind it are escaped
each on its own. -/
theorem reencode_stop (hkeep : Keeps keep) (hc : hexValue c = none) (hkept : keep c.toNat = true) :
    reencode keep (left ++ c :: right) = left ++ c :: right ↔
      reencode keep left = left ∧ reencode keep right = right := by
  have hpercent : c ≠ '%' := by
    rintro rfl
    have hfalse : keep 37 = true := hkept
    rw [hkeep.percent] at hfalse
    cases hfalse
  have hsplit : reencode keep (left ++ c :: right) = reencode keep left ++ c ::
      reencode keep right := by
    rw [reencode, decodeOctets_stop hc, decodeOctets_cons hpercent,
      octets_ascii (hkeep.ascii _ hkept), List.flatMap_append, List.flatMap_append,
      List.flatMap_singleton, encodeOctet, if_pos hkept, Char.ofNat_toNat]
    rfl
  rw [hsplit]
  constructor
  · intro h
    have hleft := reencode_of_append hkeep hc h
    rw [hleft] at h
    exact ⟨hleft, (List.cons.inj (List.append_cancel_left h)).2⟩
  · rintro ⟨hleft, hright⟩
    rw [hleft, hright]

end Stop
end Beam.Uri
