import Mathlib.Data.List.Basic

/-! Regular expressions the way ECMAScript's matcher reads them: by backtracking, where the first
reading that goes through counts. -/

namespace Beam

inductive Pattern
  | skip
  | boundary
  | one (p : Char → Bool)
  | many (p : Char → Bool) (least : ℕ)
  | seq (first second : Pattern)
  | alt (first second : Pattern)

namespace Pattern

def word (c : Char) : Bool := c.isAlphanum || c == '_'

def last (before : Option Char) (taken : List Char) : Option Char := taken.getLast?.or before

def runs (p : Char → Bool) : List Char → List (List Char)
  | [] => [[]]
  | c :: text => if p c then (runs p text).map (c :: ·) ++ [[]] else [[]]

def readings : Pattern → Option Char → List Char → List (List Char)
  | .skip, _, _ => [[]]
  | .boundary, before, text => if before.any word = text.head?.any word then [] else [[]]
  | .one _, _, [] => []
  | .one p, _, c :: _ => if p c then [[c]] else []
  | .many p least, _, text => (runs p text).filter (least ≤ ·.length)
  | .seq first second, before, text => (first.readings before text).flatMap fun taken =>
      (second.readings (last before taken) (text.drop taken.length)).map (taken ++ ·)
  | .alt first second, before, text => first.readings before text ++ second.readings before text

def exec (e : Pattern) (before : Option Char) (text : List Char) : Option (List Char) :=
    (e.readings before text).head?

def found (e : Pattern) : Option Char → List Char → Bool
  | before, [] => (e.exec before []).isSome
  | before, c :: text => (e.exec before (c :: text)).isSome || found e (some c) text

def test (e : Pattern) (text : List Char) : Bool := e.found none text

def replaceFrom (e : Pattern) (f : List Char → List Char) : ℕ → Option Char → List Char → List Char
  | 0, before, [] => (e.exec before []).elim [] f
  | _ + 1, _, [] => []
  | 0, before, c :: text =>
    match e.exec before (c :: text) with
    | none => c :: replaceFrom e f 0 (some c) text
    | some [] => f [] ++ c :: replaceFrom e f 0 (some c) text
    | some (_ :: taken) => f (c :: taken) ++ replaceFrom e f taken.length (some c) text
  | passed + 1, _, c :: text => replaceFrom e f passed (some c) text

def replace (e : Pattern) (f : List Char → List Char) (text : List Char) : List Char :=
    e.replaceFrom f 0 none text

def optional (e : Pattern) : Pattern := alt e skip

def literal (text : List Char) : Pattern := text.foldr (fun c e => seq (one (· == c)) e) skip

def anyOf (es : List Pattern) : Pattern := es.foldr alt (one fun _ => false)

theorem readings_skip (before : Option Char) (text : List Char) :
    skip.readings before text = [[]] := rfl

theorem readings_boundary (before : Option Char) (text : List Char) :
    boundary.readings before text = if before.any word = text.head?.any word then []
      else [[]] := rfl

theorem readings_one_nil (p : Char → Bool) (before : Option Char) :
    (one p).readings before [] = [] := rfl

theorem readings_one_cons (p : Char → Bool) (before : Option Char) (c : Char) (text : List Char) :
    (one p).readings before (c :: text) = if p c then [[c]] else [] := rfl

theorem readings_many (p : Char → Bool) (least : ℕ) (before : Option Char) (text : List Char) :
    (many p least).readings before text = (runs p text).filter (least ≤ ·.length) := rfl

theorem readings_seq (first second : Pattern) (before : Option Char) (text : List Char) :
    (seq first second).readings before text = (first.readings before text).flatMap fun taken =>
      (second.readings (last before taken) (text.drop taken.length)).map (taken ++ ·) := rfl

theorem readings_alt (first second : Pattern) (before : Option Char) (text : List Char) :
    (alt first second).readings before text = first.readings before text ++
      second.readings before text := rfl

theorem runs_cons (p : Char → Bool) (c : Char) (text : List Char) :
    runs p (c :: text) = if p c then (runs p text).map (c :: ·) ++ [[]] else [[]] := rfl

theorem readings_literal (text : List Char) (before : Option Char) (rest : List Char) :
    (literal text).readings before rest = if text <+: rest then [text] else [] := by
  induction text generalizing before rest with
  | nil =>
    rw [if_pos (List.nil_prefix (l := rest))]
    rfl
  | cons c text ih =>
    have hliteral : literal (c :: text) = seq (one (· == c)) (literal text) := rfl
    rw [hliteral, readings_seq]
    cases rest with
    | nil => simp [readings_one_nil]
    | cons d rest =>
      by_cases hd : d = c
      · subst hd
        by_cases hprefix : text <+: rest
        · simp [readings_one_cons, ih, hprefix]
        · simp [readings_one_cons, ih, hprefix]
      · have hnot : ¬ c = d := fun h => hd h.symm
        simp [readings_one_cons, hd, hnot]

theorem readings_anyOf (es : List Pattern) (before : Option Char) (text : List Char) :
    (anyOf es).readings before text = es.flatMap fun e => e.readings before text := by
  induction es with
  | nil =>
    cases text with
    | nil => rfl
    | cons c text => rfl
  | cons e es ih =>
    have hanyOf : anyOf (e :: es) = alt e (anyOf es) := rfl
    rw [hanyOf, readings_alt, ih, List.flatMap_cons]

theorem length_of_mem_runs {p : Char → Bool} {text taken : List Char} (h : taken ∈ runs p text) :
    taken.length ≤ (text.takeWhile p).length := by
  induction text generalizing taken with
  | nil =>
    obtain rfl := List.mem_singleton.mp h
    exact Nat.zero_le _
  | cons c text ih =>
    rw [runs_cons] at h
    split at h
    · rename_i hc
      rw [List.takeWhile_cons, if_pos hc]
      rcases List.mem_append.mp h with hmem | hmem
      · obtain ⟨rest, hrest, rfl⟩ := List.mem_map.mp hmem
        exact Nat.succ_le_succ (ih hrest)
      · obtain rfl := List.mem_singleton.mp hmem
        exact Nat.zero_le _
    · obtain rfl := List.mem_singleton.mp h
      exact Nat.zero_le _

theorem runs_head (p : Char → Bool) (text : List Char) : ∃ shorter,
    runs p text = text.takeWhile p :: shorter := by
  induction text with
  | nil => exact ⟨[], rfl⟩
  | cons c text ih =>
    obtain ⟨shorter, hruns⟩ := ih
    rw [runs_cons]
    by_cases hc : p c = true
    · rw [if_pos hc, List.takeWhile_cons, if_pos hc, hruns]
      exact ⟨_, rfl⟩
    · rw [if_neg hc, List.takeWhile_cons, if_neg hc]
      exact ⟨[], rfl⟩

theorem exec_many (p : Char → Bool) (least : ℕ) (before : Option Char) (text : List Char) :
    (many p least).exec before text =
      if least ≤ (text.takeWhile p).length then some (text.takeWhile p) else none := by
  obtain ⟨shorter, hruns⟩ := runs_head p text
  rw [exec, readings_many]
  split
  · rename_i hleast
    rw [hruns, List.filter_cons_of_pos (by simpa using hleast), List.head?_cons]
  · rename_i hleast
    rw [List.head?_eq_none_iff, List.filter_eq_nil_iff]
    intro taken hmem hlong
    have hshort := length_of_mem_runs hmem
    simp only [decide_eq_true_eq] at hlong
    omega

theorem exec_seq (first second : Pattern) (before : Option Char) (text : List Char) :
    (seq first second).exec before text = (first.readings before text).findSome? fun taken =>
      (second.exec (last before taken) (text.drop taken.length)).map (taken ++ ·) := by
  unfold exec
  rw [readings_seq, List.head?_flatMap]
  congr 1
  funext taken
  rw [List.head?_map]

@[simp] theorem last_nil (before : Option Char) : last before [] = before := rfl

@[simp] theorem last_one (before : Option Char) (c : Char) : last before [c] = some c := rfl

theorem exec_boundary (e : Pattern) (before : Option Char) (text : List Char) :
    (seq boundary e).exec before text = if before.any word = text.head?.any word then none
      else e.exec before text := by
  rw [exec_seq, readings_boundary]
  split
  · rfl
  · simp

theorem last_cons (before : Option Char) (c : Char) (taken : List Char) :
    last before (c :: taken) = last (some c) taken := by
  rw [last, last, List.getLast?_cons]
  cases taken.getLast? with
  | none => rfl
  | some d => rfl

theorem exec_one (p : Char → Bool) (e : Pattern) (before : Option Char) (text : List Char) :
    (seq (one p) e).exec before text = match text with
      | [] => none
      | c :: rest => if p c then (e.exec (some c) rest).map (c :: ·) else none := by
  rw [exec_seq]
  cases text with
  | nil => rfl
  | cons c rest =>
    simp only [readings_one_cons]
    split
    · simp
    · rfl

theorem exec_optional (first second : Pattern) (before : Option Char) (text : List Char) :
    (seq (optional first) second).exec before text =
      ((seq first second).exec before text).or (second.exec before text) := by
  rw [exec_seq, exec_seq, optional, readings_alt, List.findSome?_append]
  congr 1
  simp [readings_skip]

theorem exec_anyOf_literals (ws : List (List Char)) (e : Pattern) (before : Option Char)
    (text : List Char) :
    (seq (anyOf (ws.map literal)) e).exec before text = ws.findSome? fun w =>
      if w <+: text then (e.exec (last before w) (text.drop w.length)).map (w ++ ·) else none := by
  rw [exec_seq, readings_anyOf, List.flatMap_map]
  induction ws with
  | nil => rfl
  | cons w ws ih =>
    rw [List.flatMap_cons, List.findSome?_append, ih, readings_literal, List.findSome?_cons]
    split
    · rw [List.findSome?_singleton]
      cases (e.exec (last before w) (text.drop w.length)).map (w ++ ·) with
      | none => rfl
      | some taken => rfl
    · rfl

theorem replaceFrom_append (e : Pattern) (f : List Char → List Char) (before : Option Char)
    (taken text : List Char) :
    e.replaceFrom f taken.length before (taken ++ text) =
      e.replaceFrom f 0 (last before taken) text := by
  induction taken generalizing before with
  | nil => rfl
  | cons c taken ih =>
    have hpassed : e.replaceFrom f (taken.length + 1) before (c :: (taken ++ text)) =
        e.replaceFrom f taken.length (some c) (taken ++ text) := rfl
    rw [List.length_cons, List.cons_append, hpassed, ih, last_cons]

theorem replaceFrom_none {e : Pattern} {f : List Char → List Char} {before : Option Char} {c : Char}
    {text : List Char}
    (h : e.exec before (c :: text) = none) :
    e.replaceFrom f 0 before (c :: text) = c :: e.replaceFrom f 0 (some c) text := by
  rw [replaceFrom, h]

theorem replaceFrom_some {e : Pattern} {f : List Char → List Char} {before : Option Char} {c : Char}
    {taken text : List Char} (h : e.exec before (c :: (taken ++ text)) = some (c :: taken)) :
    e.replaceFrom f 0 before (c :: (taken ++ text)) =
      f (c :: taken) ++ e.replaceFrom f 0 (last (some c) taken) text := by
  rw [replaceFrom, h]
  simp only
  rw [replaceFrom_append]

theorem found_cons (e : Pattern) (before : Option Char) (c : Char) (text : List Char) :
    e.found before (c :: text) = ((e.exec before (c :: text)).isSome || e.found (some c) text) :=
      rfl

end Pattern
end Beam
