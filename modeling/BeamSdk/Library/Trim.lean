import Mathlib.Data.List.DropRight

/-! Trimming a text, where one notion of what is dropped includes another. -/

namespace Beam.Trim
variable {α : Type*} {p q : α → Bool} {l : List α}

def trim (p : α → Bool) (l : List α) : List α := (l.dropWhile p).rdropWhile p

theorem dropWhile_dropWhile (h : ∀ a, p a = true → q a = true) :
    (l.dropWhile p).dropWhile q = l.dropWhile q := by
  induction l with
  | nil => rfl
  | cons a l ih =>
    cases ha : p a with
    | true => rw [List.dropWhile_cons_of_pos ha, List.dropWhile_cons_of_pos (h a ha), ih]
    | false => rw [List.dropWhile_cons_of_neg (by simp [ha])]

theorem rdropWhile_rdropWhile (h : ∀ a, p a = true → q a = true) :
    (l.rdropWhile p).rdropWhile q = l.rdropWhile q := by
  unfold List.rdropWhile
  rw [List.reverse_reverse, dropWhile_dropWhile h]

theorem trim_eq_trim (h : ∀ a, p a = true → q a = true)
    (hfirst : ∀ a ∈ (trim p l).head?, q a = true → p a = true)
    (hlast : ∀ a ∈ (trim p l).getLast?, q a = true → p a = true) : trim q l = trim p l := by
  have hdrop : l.dropWhile q = l.dropWhile p := by
    rw [← dropWhile_dropWhile h]
    cases hrest : l.dropWhile p with
    | nil => rfl
    | cons a rest =>
      have ha : p a = false := by
        have hhead := List.head?_dropWhile_not p l
        rw [hrest] at hhead
        simpa using hhead
      have hmem : a ∈ (trim p l).head? := by
        obtain ⟨dropped, hsplit⟩ := List.rdropWhile_prefix (p := p) (l := a :: rest)
        unfold trim
        rw [hrest]
        cases hkept : (a :: rest).rdropWhile p with
        | nil =>
          have hall := List.rdropWhile_eq_nil_iff.mp hkept a List.mem_cons_self
          rw [ha] at hall
          cases hall
        | cons b kept =>
          rw [hkept, List.cons_append] at hsplit
          rw [(List.cons.inj hsplit).1]
          rfl
      refine List.dropWhile_cons_of_neg fun hq => ?_
      rw [hfirst a hmem hq] at ha
      cases ha
  have hkeep : (trim p l).rdropWhile q = trim p l := by
    refine List.rdropWhile_eq_self_iff.mpr fun hne hq => ?_
    have hnot : ¬ p ((trim p l).getLast hne) = true :=
      List.rdropWhile_last_not p (l.dropWhile p) hne
    exact hnot (hlast _ (List.getLast?_eq_some_getLast hne) hq)
  unfold trim at hkeep ⊢
  rw [hdrop, ← rdropWhile_rdropWhile h, hkeep]

end Beam.Trim
