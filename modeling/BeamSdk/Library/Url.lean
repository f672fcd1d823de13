import Mathlib.Data.List.DropRight
import BeamSdk.Library.Cut
import BeamSdk.Library.Lists
import BeamSdk.Library.Trim
import BeamSdk.Library.Uri

/-! URLs of the schemes `http` and `https`, as the URL standard has them read and written: what
hosts are, and which octets stand for themselves, is a parameter. -/

namespace Beam

structure Url where
  scheme : List Char
  userinfo : List Char
  host : List Char
  port : Option ℕ
  path : List (List Char)
  query : Option (List Char)
  fragment : Option (List Char)
  deriving DecidableEq

namespace Url

abbrev Text := List Char

inductive Part
  | userinfo
  | path
  | query
  | fragment

/-- The host that a text is read as, in the form it is written in, and the octets that a part does
not escape. -/
structure Rules where
  host : Text → Option Text
  kept : Part → ℕ → Bool

def portText (port : Option ℕ) : Text :=
  match port with
  | some n => ':' :: Nat.toDigits 10 n
  | none => []

def pathText (u : Url) : Text := u.path.flatMap ('/' :: ·)

/-- What a request for the URL has as its `Host`. -/
def authority (u : Url) : Text := u.host ++ portText u.port

def tailText (u : Url) : Text :=
  (match u.query with
    | some query => '?' :: query
    | none => []) ++
  match u.fragment with
    | some fragment => '#' :: fragment
    | none => []

def text (u : Url) : Text :=
  u.scheme ++ "://".toList ++ u.userinfo ++ u.authority ++ u.pathText ++ u.tailText

def isBlank (c : Char) : Bool := c.toNat ≤ 32

def isBreak (c : Char) : Bool := c == '\t' || c == '\n' || c == '\r'

def strip (text : Text) : Text := (Trim.trim isBlank text).filter fun c => !isBreak c

def inScheme (c : Char) : Bool := c.isAlphanum || c == '+' || c == '-' || c == '.'

def cutScheme (text : Text) : Option (Text × Text) :=
  match text.dropWhile inScheme with
  | ':' :: rest =>
    if text.head?.any Char.isAlpha then some ((text.takeWhile inScheme).map Char.toLower, rest)
    else none
  | _ => none

def isHttp (scheme : Text) : Bool := scheme == "http".toList || scheme == "https".toList

def defaultPort (scheme : Text) : ℕ := if scheme = "http".toList then 80 else 443

def isSlash (c : Char) : Bool := c == '/' || c == '\\'

def endsPath (c : Char) : Bool := c == '?' || c == '#'

def readUserinfo (rules : Rules) (text : Text) : Text :=
  let escaped := Uri.encode (rules.kept .userinfo)
  let username := escaped (text.takeWhile (· ≠ ':'))
  let password := escaped ((text.dropWhile (· ≠ ':')).drop 1)
  if username.isEmpty && password.isEmpty then []
  else username ++ (if password.isEmpty then [] else ':' :: password) ++ ['@']

/-- A host, and what stands behind the first colon outside of brackets. -/
def cutPort (bracketed : Bool) : Text → Text × Option Text
  | [] => ([], none)
  | c :: rest =>
    if c = ':' ∧ bracketed = false then ([], some rest)
    else
      let cut := cutPort (if c = '[' then true else if c = ']' then false else bracketed) rest
      (c :: cut.1, cut.2)

def readHost (rules : Rules) (text : Text) : Option Text :=
  if text.isEmpty then none else rules.host text

def readPort (scheme : Text) : Option Text → Option (Option ℕ)
  | none => some none
  | some digits =>
    let n := Nat.ofDigitChars 10 digits 0
    if digits.all Char.isDigit = false ∨ 65535 < n then none
    else if digits = [] ∨ n = defaultPort scheme then some none
    else some (some n)

/-- A segment that stands for a dot, be it written with an escape. -/
def singleDot (segment : Text) : Bool := Uri.decodeOctets segment == Uri.octets ['.']

def doubleDot (segment : Text) : Bool := Uri.decodeOctets segment == Uri.octets ['.', '.']

/-- A path with one more segment, which may be the last one. -/
def enter (last : Bool) (done : List Text) (segment : Text) : List Text :=
  let opened := if last then [[]] else []
  if doubleDot segment then done.dropLast ++ opened
  else if singleDot segment then done ++ opened
  else done ++ [segment]

def walk (done : List Text) : List Text → List Text
  | [] => done
  | segment :: rest => walk (enter rest.isEmpty done segment) rest

def readPath (rules : Rules) (text : Text) : List Text :=
  let segments := ((text.drop 1).map fun c => if isSlash c then '/' else c).splitOn '/'
  walk [] (segments.map (Uri.encode (rules.kept .path)))

def readQuery (rules : Rules) (text : Text) : Option Text :=
  if text.head? = some '?' then
    some (Uri.encode (rules.kept .query) ((text.drop 1).takeWhile (· ≠ '#')))
  else none

def readFragment (rules : Rules) (text : Text) : Option Text :=
  match text.dropWhile (· ≠ '#') with
  | [] => none
  | _ :: fragment => some (Uri.encode (rules.kept .fragment) fragment)

def readRest (rules : Rules) (scheme rest : Text) : Option Url := do
  let rest := rest.dropWhile isSlash
  let inAuthority (c : Char) : Bool := !isSlash c && !endsPath c
  let authority := rest.takeWhile inAuthority
  let cut := cutPort false (authority.rtakeWhile (· ≠ '@'))
  let host ← readHost rules cut.1
  let port ← readPort scheme cut.2
  let after := rest.dropWhile inAuthority
  let tail := after.dropWhile fun c => !endsPath c
  return ⟨scheme, readUserinfo rules ((authority.rdropWhile (· ≠ '@')).dropLast), host, port,
    readPath rules (after.takeWhile fun c => !endsPath c), readQuery rules tail,
    readFragment rules tail⟩

def read (rules : Rules) (text : Text) : Option Url :=
  (cutScheme (strip text)).bind fun (scheme, rest) =>
    if isHttp scheme then readRest rules scheme rest else none

section Walk
variable {segment : Text} {done segments : List Text}

def NoDots (segments : List Text) : Prop :=
  ∀ segment ∈ segments, singleDot segment = false ∧ doubleDot segment = false

theorem noDots_nil_text : NoDots [[]] := List.forall_mem_singleton.mpr (by decide)

theorem NoDots.append {left right : List Text} (hleft : NoDots left) (hright : NoDots right) :
    NoDots (left ++ right) := List.forall_mem_append.mpr ⟨hleft, hright⟩

theorem noDots_enter (hdone : NoDots done) (last : Bool) (segment : Text) :
    NoDots (enter last done segment) := by
  have hopened : NoDots (if last then [[]] else []) := by
    cases last with
    | true => exact noDots_nil_text
    | false => exact fun _ hnone => absurd hnone List.not_mem_nil
  unfold enter
  by_cases hdouble : doubleDot segment = true
  · rw [if_pos hdouble]
    exact NoDots.append (fun s hs => hdone s (List.mem_of_mem_dropLast hs)) hopened
  · rw [if_neg hdouble]
    by_cases hsingle : singleDot segment = true
    · rw [if_pos hsingle]
      exact hdone.append hopened
    · rw [if_neg hsingle]
      exact hdone.append (List.forall_mem_singleton.mpr
        ⟨Bool.eq_false_iff.mpr hsingle, Bool.eq_false_iff.mpr hdouble⟩)

theorem noDots_walk (hdone : NoDots done) : NoDots (walk done segments) := by
  induction segments generalizing done with
  | nil => exact hdone
  | cons segment rest ih => exact ih (noDots_enter hdone rest.isEmpty segment)

theorem walk_of_noDots (h : NoDots segments) : walk done segments = done ++ segments := by
  induction segments generalizing done with
  | nil => exact (List.append_nil done).symm
  | cons segment rest ih =>
    obtain ⟨⟨hsingle, hdouble⟩, hrest⟩ := List.forall_mem_cons.mp h
    have hentered : enter rest.isEmpty done segment = done ++ [segment] := by
      rw [enter, hdouble, hsingle, if_neg Bool.false_ne_true, if_neg Bool.false_ne_true]
    rw [walk, hentered, ih hrest, List.append_assoc, List.singleton_append]

/-- A path is left as it is exactly when none of its segments is a dot or two. -/
theorem walk_eq_self : walk [] segments = segments ↔ NoDots segments :=
  ⟨fun h => h ▸ noDots_walk fun _ hnone => absurd hnone List.not_mem_nil, walk_of_noDots⟩

theorem mem_enter {last : Bool} {first : Text} (h : segment ∈ enter last done first) :
    segment ∈ done ∨ segment = first ∨ segment = [] := by
  have hopened : segment ∈ (if last then [[]] else [] : List Text) → segment = [] := by
    cases last with
    | true => exact List.mem_singleton.mp
    | false => exact fun hnone => absurd hnone List.not_mem_nil
  unfold enter at h
  by_cases hdouble : doubleDot first = true
  · rw [if_pos hdouble] at h
    exact (List.mem_append.mp h).imp List.mem_of_mem_dropLast fun h => .inr (hopened h)
  · rw [if_neg hdouble] at h
    by_cases hsingle : singleDot first = true
    · rw [if_pos hsingle] at h
      exact (List.mem_append.mp h).imp_right fun h => .inr (hopened h)
    · rw [if_neg hsingle] at h
      exact (List.mem_append.mp h).imp_right fun h => .inl (List.mem_singleton.mp h)

theorem mem_walk (h : segment ∈ walk done segments) :
    segment ∈ done ∨ segment ∈ segments ∨ segment = [] := by
  induction segments generalizing done with
  | nil => exact .inl h
  | cons first rest ih =>
    rcases ih h with hmem | hmem | hmem
    · rcases mem_enter hmem with hmem | rfl | hmem
      · exact .inl hmem
      · exact .inr (.inl List.mem_cons_self)
      · exact .inr (.inr hmem)
    · exact .inr (.inl (List.mem_cons_of_mem first hmem))
    · exact .inr (.inr hmem)

end Walk

section Joined
variable {segments segments' : List Text}

theorem flatMap_slash (segments : List Text) :
    segments.flatMap ('/' :: ·) = ['/'].intercalate ([] :: segments) := by
  induction segments with
  | nil => rfl
  | cons segment rest ih =>
    cases rest with
    | nil => simp
    | cons next rest =>
      rw [List.flatMap_cons, ih, List.intercalate_cons_cons, List.intercalate_cons_cons,
        List.intercalate_cons_cons]
      simp

theorem flatMap_slash_of_ne_nil (hne : segments ≠ []) :
    segments.flatMap ('/' :: ·) = '/' :: ['/'].intercalate segments := by
  rw [flatMap_slash, List.intercalate_cons_of_ne_nil hne]
  rfl

theorem splitOn_slashes (h : ∀ segment ∈ segments, '/' ∉ segment) :
    (segments.flatMap ('/' :: ·)).splitOn '/' = [] :: segments := by
  rw [flatMap_slash]
  exact List.splitOn_intercalate '/' (List.forall_mem_cons.mpr ⟨List.not_mem_nil, h⟩)
    (List.cons_ne_nil _ _)

theorem slashes_injective (h : ∀ segment ∈ segments, '/' ∉ segment)
    (h' : ∀ segment ∈ segments', '/' ∉ segment)
    (heq : segments.flatMap ('/' :: ·) = segments'.flatMap ('/' :: ·)) : segments = segments' := by
  have hsplit := splitOn_slashes h
  rw [heq, splitOn_slashes h'] at hsplit
  exact (List.cons.inj hsplit).2.symm

theorem splitOn_drop_slash (h : ∀ segment ∈ segments, '/' ∉ segment) (hne : segments ≠ []) :
    ((segments.flatMap ('/' :: ·)).drop 1).splitOn '/' = segments := by
  cases segments with
  | nil => exact absurd rfl hne
  | cons segment rest =>
    rw [flatMap_slash_of_ne_nil hne, List.drop_succ_cons, List.drop_zero]
    exact List.splitOn_intercalate '/' h hne

theorem rdropWhile_slashes (h : ∀ segment ∈ segments, '/' ∉ segment) :
    (segments.flatMap ('/' :: ·)).rdropWhile (· == '/') =
      (segments.rdropWhile List.isEmpty).flatMap ('/' :: ·) := by
  induction segments using List.reverseRecOn with
  | nil => rfl
  | append_singleton rest last ih =>
    have hlast : '/' ∉ last := h last (List.mem_append_right _ List.mem_cons_self)
    rw [List.flatMap_append, List.flatMap_singleton, List.rdropWhile_concat]
    rcases List.eq_nil_or_concat last with rfl | ⟨before, c, rfl⟩
    · rw [List.rdropWhile_concat_pos _ _ _ (by decide)]
      exact ih fun segment hsegment => h segment (List.mem_append_left _ hsegment)
    · have hc : (c == '/') = false := by
        rw [beq_eq_false_iff_ne]
        rintro rfl
        simp at hlast
      have hfull : ¬ (before.concat c).isEmpty = true := by simp
      rw [if_neg hfull, List.flatMap_append, List.flatMap_singleton, List.concat_eq_append,
        ← List.cons_append, ← List.append_assoc,
        List.rdropWhile_concat_neg _ _ _ (by rw [hc]; exact Bool.false_ne_true)]

end Joined

section Visible

def Visible (text : Text) : Prop := ∀ c ∈ text, 33 ≤ c.toNat ∧ c.toNat ≤ 126

theorem visible_of_all {text : Text}
    (h : text.all (fun c => 33 ≤ c.toNat && c.toNat ≤ 126) = true) : Visible text := by
  intro c hc
  have hrange := List.all_eq_true.mp h c hc
  rwa [Bool.and_eq_true, decide_eq_true_eq, decide_eq_true_eq] at hrange

theorem visible_nil : Visible [] := fun _ hnone => absurd hnone List.not_mem_nil

theorem Visible.append {left right : Text} (hleft : Visible left) (hright : Visible right) :
    Visible (left ++ right) := List.forall_mem_append.mpr ⟨hleft, hright⟩

theorem Visible.cons {c : Char} {text : Text} (hc : 33 ≤ c.toNat ∧ c.toNat ≤ 126)
    (htext : Visible text) : Visible (c :: text) := List.forall_mem_cons.mpr ⟨hc, htext⟩

theorem strip_visible {text : Text} (h : Visible text) : strip text = text := by
  have hblank : ∀ c ∈ text, isBlank c = false := fun c hc =>
    decide_eq_false (Nat.not_le.mpr (Nat.lt_of_lt_of_le (by decide) (h c hc).1))
  have hbreak : ∀ c ∈ text, (!isBreak c) = true := by
    intro c hc
    have hlow := (h c hc).1
    rw [Bool.not_eq_true', isBreak]
    simp only [Bool.or_eq_false_iff, beq_eq_false_iff_ne]
    refine ⟨⟨?_, ?_⟩, ?_⟩ <;>
    · rintro rfl
      exact absurd hlow (by decide)
  have hfirst : text.dropWhile isBlank = text := by
    refine List.dropWhile_eq_self_iff.mpr fun hlength hpos => ?_
    rw [hblank _ (List.getElem_mem hlength)] at hpos
    cases hpos
  have hlast : text.rdropWhile isBlank = text := by
    refine List.rdropWhile_eq_self_iff.mpr fun hne hpos => ?_
    rw [hblank _ (List.getLast_mem hne)] at hpos
    cases hpos
  rw [strip, Trim.trim, hfirst, hlast]
  exact List.filter_eq_self.mpr hbreak

end Visible

/-- A host as it is written: an address in brackets, or a text without colons. -/
structure HostText (host : Text) : Prop where
  ne_nil : host ≠ []
  visible : Visible host
  free : ∀ c ∈ host, isSlash c = false ∧ endsPath c = false ∧ c ≠ '@'
  colons : (':' ∉ host ∧ '[' ∉ host) ∨ ∃ address, host = '[' :: address ++ [']'] ∧ ']' ∉ address

/-- What the standard has of hosts and escapes: a host that is written is read as itself. -/
structure Rules.Lawful (rules : Rules) : Prop where
  host : ∀ text host, rules.host text = some host → rules.host host = some host ∧ HostText host
  visible : ∀ part n, rules.kept part n = true → 33 ≤ n ∧ n ≤ 126
  plain : ∀ part c, c.isAlphanum = true ∨ c ∈ "-._~%".toList → rules.kept part c.toNat = true
  query : ∀ c ∈ "&=".toList, rules.kept .query c.toNat = true

section Port
variable {host host' : Text} {port port' : Option ℕ} {scheme : Text}

theorem isDigit_toDigits {n : ℕ} {c : Char} (hc : c ∈ Nat.toDigits 10 n) : c.isDigit = true :=
  Nat.isDigit_of_mem_toDigits (by decide) (by decide) hc

def PortFree (host : Text) : Prop :=
  ∀ front digits, (∀ c ∈ digits, Char.isDigit c = true) → host ≠ front ++ ':' :: digits

theorem PortFree.append {c : Char} (hhost : PortFree host) (hdigit : c.isDigit = false)
    (hc : c ≠ ':') (front : Text) : PortFree (front ++ c :: host) := by
  intro before digits hdigits h
  rcases List.append_eq_append_iff.mp h with ⟨rest, rfl, hrest⟩ | ⟨rest, rfl, hrest⟩
  · cases rest with
    | nil => exact hc (List.cons.inj hrest).1
    | cons d rest => exact hhost rest digits hdigits (List.cons.inj hrest).2
  · cases rest with
    | nil => exact hc (List.cons.inj hrest).1.symm
    | cons d rest =>
      have hmem : c ∈ digits := (List.cons.inj hrest).2 ▸ by simp
      rw [hdigits c hmem] at hdigit
      cases hdigit

theorem portFree_of_getLast {c : Char} (h : host.getLast? = some c) (hdigit : c.isDigit = false)
    (hc : c ≠ ':') : PortFree host := by
  rintro front digits hdigits rfl
  rcases List.eq_nil_or_concat digits with rfl | ⟨before, d, rfl⟩
  · rw [List.getLast?_concat] at h
    exact hc (Option.some.inj h).symm
  · have htext : front ++ ':' :: before.concat d = front ++ ':' :: before ++ [d] := by simp
    rw [htext, List.getLast?_concat] at h
    rw [← Option.some.inj h, hdigits d (by simp)] at hdigit
    cases hdigit

theorem HostText.portFree (h : HostText host) : PortFree host := by
  rcases h.colons with ⟨hcolon, -⟩ | ⟨address, rfl, -⟩
  · rintro front digits - rfl
    exact hcolon (by simp)
  · exact portFree_of_getLast List.getLast?_concat (by decide) (by decide)

theorem authority_injective (hhost : PortFree host) (hhost' : PortFree host')
    (h : host ++ portText port = host' ++ portText port') : host = host' ∧ port = port' := by
  have hdigits : ∀ n : ℕ, ∀ c ∈ Nat.toDigits 10 n, Char.isDigit c = true :=
    fun n c => isDigit_toDigits
  cases port with
  | none =>
    cases port' with
    | none => exact ⟨by simpa [portText] using h, rfl⟩
    | some n => exact absurd (by simpa [portText] using h) (hhost host' _ (hdigits n))
  | some n =>
    cases port' with
    | none => exact absurd (by simpa [portText] using h.symm) (hhost' host _ (hdigits n))
    | some n' =>
      have hfree : ∀ n : ℕ, ':' ∉ Nat.toDigits 10 n := fun n hmem =>
        absurd (hdigits n _ hmem) (by decide)
      simp only [portText] at h
      obtain ⟨rfl, hn⟩ := Cut.append_cons_inj (hfree n) (hfree n') h
      have hread := congrArg (Nat.ofDigitChars 10 · 0) hn
      simp only [Nat.ofDigitChars_toDigits (b := 10) (by decide) (by decide)] at hread
      exact ⟨rfl, congrArg some hread⟩

end Port

end Url
end Beam
