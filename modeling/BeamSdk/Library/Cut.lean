import Mathlib.Data.List.Basic
import Mathlib.Data.List.Infix

/-! A list cut at the first place where a word occurs in it. -/

namespace Beam.Cut
variable {α : Type*}

theorem prefix_of_stop {p : α → Prop} {word name rest : List α} {stop : α} (hword : ∀ c ∈ word, p c)
    (hstop : ¬ p stop)
    (h : word <+: name ++ stop :: rest) : word <+: name := by
  rcases List.prefix_or_prefix_of_prefix h (List.prefix_append name (stop :: rest)) with hshort |
    ⟨more, hmore⟩
  · exact hshort
  · rw [← hmore, List.prefix_append_right_inj] at h
    cases more with
    | nil =>
      rw [List.append_nil] at hmore
      rw [hmore]
    | cons c more =>
      obtain ⟨rfl, -⟩ := List.cons_prefix_cons.mp h
      exact absurd (hword c (hmore ▸ List.mem_append_right _ List.mem_cons_self)) hstop

theorem eq_of_stops {p : α → Prop} {word name rest : List α} {stop : α} (hword : ∀ c ∈ word, p c)
    (hname : ∀ c ∈ name, p c)
    (hstop : ¬ p stop) (h : word ++ [stop] <+: name ++ stop :: rest) : word = name := by
  have hshort := prefix_of_stop hword hstop ((List.prefix_append _ _).trans h)
  obtain ⟨more, rfl⟩ := hshort
  rw [List.append_assoc, List.prefix_append_right_inj] at h
  cases more with
  | nil => rw [List.append_nil]
  | cons c more =>
    obtain ⟨rfl, -⟩ := List.cons_prefix_cons.mp h
    exact absurd (hname stop (List.mem_append_right _ List.mem_cons_self)) hstop

theorem takeWhile_stop {p : α → Bool} {word rest : List α} (hword : ∀ c ∈ word, p c = true)
    (hrest : ∀ c ∈ rest.head?, p c = false) :
    (word ++ rest).takeWhile p = word ∧ (word ++ rest).dropWhile p = rest := by
  rw [List.takeWhile_append_of_pos hword, List.dropWhile_append_of_pos hword]
  cases rest with
  | nil => simp
  | cons stop rest =>
    have hstop := hrest stop rfl
    rw [List.takeWhile_cons, List.dropWhile_cons, hstop]
    simp

theorem append_cons_inj {left left' right right' : List α} {stop : α} (hright : stop ∉ right)
    (hright' : stop ∉ right') (h : left ++ stop :: right = left' ++ stop :: right') :
    left = left' ∧ right = right' := by
  rcases List.append_eq_append_iff.mp h with ⟨rest, rfl, hrest⟩ | ⟨rest, rfl, hrest⟩
  · cases rest with
    | nil => exact ⟨(List.append_nil left).symm, (List.cons.inj hrest).2⟩
    | cons c rest => exact absurd ((List.cons.inj hrest).2 ▸ by simp) hright
  · cases rest with
    | nil => exact ⟨List.append_nil left', (List.cons.inj hrest).2.symm⟩
    | cons c rest => exact absurd ((List.cons.inj hrest).2 ▸ by simp) hright'

theorem append_cons_inj_left {left left' right right' : List α} {stop : α} (hleft : stop ∉ left)
    (hleft' : stop ∉ left') (h : left ++ stop :: right = left' ++ stop :: right') :
    left = left' ∧ right = right' := by
  rcases List.append_eq_append_iff.mp h with ⟨rest, rfl, hrest⟩ | ⟨rest, rfl, hrest⟩
  · cases rest with
    | nil => exact ⟨(List.append_nil left).symm, (List.cons.inj hrest).2⟩
    | cons c rest => exact absurd ((List.cons.inj hrest).1 ▸ by simp) hleft'
  · cases rest with
    | nil => exact ⟨List.append_nil left', (List.cons.inj hrest).2.symm⟩
    | cons c rest => exact absurd ((List.cons.inj hrest).1 ▸ by simp) hleft

theorem infix_append_cons {w left right : List α} {stop : α} (hstop : stop ∉ w) :
    w <:+: left ++ stop :: right ↔ w <:+: left ∨ w <:+: right := by
  constructor
  · rintro ⟨before, after, h⟩
    rw [List.append_assoc] at h
    rcases List.append_eq_append_iff.mp h with ⟨rest, rfl, hrest⟩ | ⟨rest, hbefore, hrest⟩
    · rcases List.append_eq_append_iff.mp hrest with ⟨tail, rfl, -⟩ | ⟨tail, hw, htail⟩
      · exact .inl ⟨before, tail, by simp⟩
      · cases tail with
        | nil => exact .inl ⟨before, [], by simp [hw]⟩
        | cons c tail =>
          obtain ⟨rfl, -⟩ := List.cons.inj htail
          exact absurd (hw ▸ by simp) hstop
    · cases rest with
      | nil =>
        cases w with
        | nil => exact .inr List.nil_prefix.isInfix
        | cons c w =>
          obtain ⟨rfl, -⟩ := List.cons.inj hrest
          exact absurd List.mem_cons_self hstop
      | cons c rest =>
        obtain ⟨-, hright⟩ := List.cons.inj hrest
        exact .inr ⟨rest, after, by rw [List.append_assoc]; exact hright.symm⟩
  · rintro (h | h)
    · exact h.trans (List.prefix_append left _).isInfix
    · exact h.trans ((List.suffix_cons stop right).trans (List.suffix_append left _)).isInfix

theorem infix_cons_stop {w : List α} {stop : α} (hw : w ≠ []) (hstop : stop ∉ w)
    (rest : List α) : w <:+: stop :: rest ↔ w <:+: rest := by
  rw [← List.nil_append (stop :: rest), infix_append_cons hstop, List.infix_nil]
  exact or_iff_right hw

theorem infix_intercalate {w : List α} {stop : α} (hw : w ≠ []) (hstop : stop ∉ w)
    (parts : List (List α)) : w <:+: [stop].intercalate parts ↔ ∃ part ∈ parts, w <:+: part := by
  induction parts with
  | nil =>
    simp only [List.intercalate_nil, List.infix_nil, hw, List.not_mem_nil, false_and, exists_false]
  | cons part parts ih =>
    cases parts with
    | nil => simp
    | cons next parts =>
      rw [List.intercalate_cons_cons, List.append_assoc, List.singleton_append,
        infix_append_cons hstop, ih]
      simp only [List.mem_cons, exists_eq_or_imp]

theorem not_of_mem_splitOnP {p : α → Bool} {text piece : List α}
    (h : piece ∈ text.splitOnP p) : ∀ c ∈ piece, p c = false := by
  induction text generalizing piece with
  | nil =>
    rw [List.splitOnP_nil, List.mem_singleton] at h
    rw [h]
    exact fun c hc => absurd hc List.not_mem_nil
  | cons a text ih =>
    rw [List.splitOnP_cons_eq_if_modifyHead] at h
    split_ifs at h with ha
    · rcases List.mem_cons.mp h with rfl | h
      · exact fun c hc => absurd hc List.not_mem_nil
      · exact ih h
    · obtain ⟨first, rest, hsplit⟩ :=
        List.exists_cons_of_ne_nil (List.splitOnP_ne_nil p text)
      rw [hsplit, List.modifyHead_cons] at h
      rcases List.mem_cons.mp h with rfl | h
      · refine List.forall_mem_cons.mpr ⟨Bool.eq_false_iff.mpr ha, ?_⟩
        exact ih (hsplit ▸ List.mem_cons_self)
      · exact ih (hsplit ▸ List.mem_cons_of_mem _ h)

variable [DecidableEq α] {w left right text : List α}

def cut (w : List α) : List α → Option (List α × List α)
  | [] => if w = [] then some ([], []) else none
  | c :: text => if w <+: c :: text then some ([], (c :: text).drop w.length)
      else (cut w text).map fun r => (c :: r.1, r.2)

theorem eq_of_cut (h : cut w text = some (left, right)) : text = left ++ (w ++ right) := by
  induction text generalizing left with
  | nil =>
    obtain ⟨rfl, heq⟩ := Option.ite_none_right_eq_some.mp h
    cases heq
    rfl
  | cons c text ih =>
    rw [cut] at h
    split at h
    · rename_i hstart
      cases h
      obtain ⟨rest, hrest⟩ := hstart
      rw [← hrest, List.drop_left, List.nil_append]
    · obtain ⟨⟨before, after⟩, hcut, heq⟩ := Option.map_eq_some_iff.mp h
      cases heq
      rw [ih hcut, List.cons_append]

theorem length_lt_of_cut (hw : w ≠ []) (h : cut w text = some (left, right)) :
    right.length < text.length := by
  have hlength := congrArg List.length (eq_of_cut h)
  have hpos := List.length_pos_iff.mpr hw
  rw [List.length_append, List.length_append] at hlength
  omega

theorem cut_self (hw : w ≠ []) (right : List α) : cut w (w ++ right) = some ([], right) := by
  obtain ⟨c, w, rfl⟩ := List.exists_cons_of_ne_nil hw
  rw [List.cons_append, cut, ← List.cons_append, if_pos (List.prefix_append _ _), List.drop_left]

def Passes (w left : List α) : Prop := ∀ right, cut w (left ++ right) = (cut w right).map fun r =>
    (left ++ r.1, r.2)

theorem passes_nil : Passes w [] := fun right => by
  rw [List.nil_append]
  exact (Option.map_id_apply).symm

theorem passes_cons {c : α} (hc : ∀ right, ¬ w <+: c :: (left ++ right)) (h : Passes w left) :
    Passes w (c :: left) := by
  intro right
  rw [List.cons_append, cut, if_neg (hc right), h right, Option.map_map]
  rfl

theorem Passes.append {left' : List α} (h : Passes w left) (h' : Passes w left') :
    Passes w (left ++ left') := by
  intro right
  rw [List.append_assoc, h, h', Option.map_map]
  congr 1
  funext r
  exact congrArg (·, r.2) (List.append_assoc _ _ _).symm

theorem passes_of_notMem {c : α} (h : c ∉ left) : Passes (c :: w) left := by
  induction left with
  | nil => exact passes_nil
  | cons d left ih =>
    rw [List.mem_cons, not_or] at h
    obtain ⟨hne, hrest⟩ := h
    apply passes_cons _ (ih hrest)
    intro right hstart
    exact hne (List.cons_prefix_cons.mp hstart).1

theorem passes_flatMap {β : Type*} {f : β → List α} {xs : List β} (h : ∀ x ∈ xs, Passes w (f x)) :
    Passes w (xs.flatMap f) := by
  induction xs with
  | nil => exact passes_nil
  | cons x xs ih =>
    rw [List.flatMap_cons]
    exact (h x List.mem_cons_self).append (ih fun y hy => h y (List.mem_cons_of_mem _ hy))

theorem Passes.cut (h : Passes w left) (hw : w ≠ []) (right : List α) :
    cut w (left ++ (w ++ right)) = some (left, right) := by
  rw [h, cut_self hw, Option.map_some, List.append_nil]

theorem notMem_of_mem_splitOn {separator : α} {piece : List α}
    (h : piece ∈ text.splitOn separator) :
    separator ∉ piece := by
  rw [List.splitOn_eq_splitOnP] at h
  intro hmem
  have hstop := not_of_mem_splitOnP h separator hmem
  rw [beq_self_eq_true] at hstop
  cases hstop

end Beam.Cut
