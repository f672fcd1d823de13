import Mathlib.Data.List.Basic
import Mathlib.Data.List.Induction
import Mathlib.Data.List.Nodup

/-! Tables that keep each key once, in the order of first use, and number them. -/

namespace Beam.Interning
variable {α κ κ' : Type*} [DecidableEq κ] [DecidableEq κ'] (f : α → κ) {g : α → κ'} {x y : α}
    {xs ys : List α} {k : κ}

def use (used : List α) (x : α) : List α := if f x ∈ used.map f then used else used ++ [x]

def firstUses (xs : List α) : List α := xs.foldl (use f) []

def ref (xs : List α) (k : κ) : ℕ := ((firstUses f xs).map f).idxOf k

variable {f}

theorem firstUses_snoc : firstUses f (xs ++ [x]) = use f (firstUses f xs) x := by
  rw [firstUses, List.foldl_append]
  rfl

theorem use_of_mem (h : f x ∈ xs.map f) : use f xs x = xs := if_pos h

theorem use_of_not_mem (h : f x ∉ xs.map f) : use f xs x = xs ++ [x] := if_neg h

theorem mem_keys : k ∈ (firstUses f xs).map f ↔ k ∈ xs.map f := by
  induction xs using List.reverseRecOn with
  | nil => rfl
  | append_singleton xs x ih =>
    rw [firstUses_snoc, List.map_append, List.mem_append, ← ih]
    by_cases hx : f x ∈ (firstUses f xs).map f
    · rw [use_of_mem hx]
      refine ⟨.inl, fun h => h.elim (fun h => h) fun h => ?_⟩
      rw [List.mem_singleton.mp h]
      exact hx
    · rw [use_of_not_mem hx, List.map_append, List.mem_append]

theorem nodup_keys : ((firstUses f xs).map f).Nodup := by
  induction xs using List.reverseRecOn with
  | nil => exact List.nodup_nil
  | append_singleton xs x ih =>
    rw [firstUses_snoc]
    by_cases hx : f x ∈ (firstUses f xs).map f
    · rw [use_of_mem hx]
      exact ih
    · rw [use_of_not_mem hx, List.map_append]
      refine List.nodup_append.mpr ⟨ih, List.nodup_singleton _, ?_⟩
      intro k hk k' hk' hsame
      rw [hsame, List.mem_singleton.mp hk'] at hk
      exact hx hk

theorem firstUses_prefix : firstUses f xs <+: firstUses f (xs ++ ys) := by
  induction ys using List.reverseRecOn with
  | nil =>
    simp only [List.append_nil, List.prefix_rfl]
  | append_singleton ys y ih =>
    rw [← List.append_assoc, firstUses_snoc]
    refine ih.trans ?_
    unfold use
    split
    · exact List.prefix_rfl
    · exact List.prefix_append _ _

theorem mem_of_mem_firstUses (h : x ∈ firstUses f xs) : ∃ earlier later,
    xs = earlier ++ x :: later ∧
    f x ∉ earlier.map f := by
  induction xs using List.reverseRecOn with
  | nil => cases h
  | append_singleton xs y ih =>
    rw [firstUses_snoc] at h
    have hold : x ∈ firstUses f xs → ∃ earlier later, xs ++ [y] = earlier ++ x :: later ∧
        f x ∉ earlier.map f := by
      intro h
      obtain ⟨earlier, later, hsplit, hfirst⟩ := ih h
      exact ⟨earlier, later ++ [y], by rw [hsplit, List.append_assoc, List.cons_append], hfirst⟩
    by_cases hy : f y ∈ (firstUses f xs).map f
    · rw [use_of_mem hy] at h
      exact hold h
    · rw [use_of_not_mem hy] at h
      rcases List.mem_append.mp h with h | h
      · exact hold h
      · obtain rfl := List.mem_singleton.mp h
        exact ⟨xs, [], rfl, fun hmem => hy (mem_keys.mpr hmem)⟩

theorem eq_or_mem_earlier {earlier later : List α} (hsplit : xs = earlier ++ x :: later)
    (hfirst : y ∈ firstUses f xs)
    (hkey : f y = f x) : y = x ∨ y ∈ earlier := by
  obtain ⟨earlier', later', hsplit', hnew⟩ := mem_of_mem_firstUses hfirst
  rw [hsplit] at hsplit'
  rcases List.append_eq_append_iff.mp hsplit' with ⟨between, hbefore, hafter⟩ |
    ⟨between, hbefore, hafter⟩
  · cases between with
    | nil => exact .inl (List.cons.inj hafter).1.symm
    | cons z between =>
      obtain ⟨rfl, -⟩ := List.cons.inj hafter
      refine absurd ?_ hnew
      rw [hbefore, hkey]
      exact List.mem_map_of_mem (List.mem_append_right _ (List.mem_cons_self ..))
  · cases between with
    | nil => exact .inl (List.cons.inj hafter).1
    | cons z between =>
      obtain ⟨rfl, -⟩ := List.cons.inj hafter
      rw [hbefore]
      exact .inr (List.mem_append_right _ (List.mem_cons_self ..))

theorem ref_lt (h : k ∈ xs.map f) : ref f xs k < (firstUses f xs).length := by
  have hlt := List.idxOf_lt_length_of_mem (mem_keys.mpr h)
  rwa [List.length_map] at hlt

theorem getElem?_ref (h : k ∈ xs.map f) : ∃ first, (firstUses f xs)[ref f xs k]? = some first ∧
    f first = k := by
  have hkey : ((firstUses f xs).map f)[ref f xs k]? = some k := List.getElem?_idxOf (mem_keys.mpr h)
  rw [List.getElem?_map] at hkey
  exact Option.map_eq_some_iff.mp hkey

theorem ref_inj (hx : x ∈ xs) : ref f xs (f x) = ref f xs (f y) ↔ f x = f y :=
  List.idxOf_inj (mem_keys.mpr (List.mem_map_of_mem hx))

theorem ref_append (h : k ∈ xs.map f) : ref f (xs ++ ys) k = ref f xs k := by
  have hprefix : firstUses f xs <+: firstUses f (xs ++ ys) := firstUses_prefix
  obtain ⟨more, hmore⟩ := hprefix
  rw [ref, ← hmore, List.map_append]
  exact List.idxOf_append_of_mem (mem_keys.mpr h)

theorem ref_new (h : f x ∉ xs.map f) : ref f (xs ++ [x]) (f x) = (firstUses f xs).length := by
  have hx : f x ∉ (firstUses f xs).map f := fun hmem => h (mem_keys.mp hmem)
  rw [ref, firstUses_snoc, use_of_not_mem hx, List.map_append, List.idxOf_append_of_notMem hx,
    List.map_singleton,
    List.idxOf_cons_self, List.length_map]
  rfl

theorem firstUses_refs : firstUses id (xs.map fun x => ref f xs (f x)) =
    List.range (firstUses f xs).length := by
  have hparts : ∀ part rest, xs = part ++ rest →
      firstUses id (part.map fun x => ref f xs (f x)) = List.range (firstUses f part).length := by
    intro part
    induction part using List.reverseRecOn with
    | nil => exact fun _ _ => rfl
    | append_singleton part x ih =>
      intro rest hsplit
      rw [List.append_assoc, List.singleton_append] at hsplit
      have hpart := ih (x :: rest) hsplit
      rw [List.map_append, List.map_singleton, firstUses_snoc, firstUses_snoc, hpart]
      by_cases hx : f x ∈ part.map f
      · -- a number that was given before
        have hold : ref f xs (f x) < (firstUses f part).length := by
          rw [hsplit, ref_append hx]
          exact ref_lt hx
        rw [use_of_mem (mem_keys.mpr hx), use_of_mem]
        rw [List.map_id]
        exact List.mem_range.mpr hold
      · have hnew : ref f xs (f x) = (firstUses f part).length := by
          rw [hsplit, ← List.singleton_append, ← List.append_assoc,
            ref_append (by simp), ref_new hx]
        rw [use_of_not_mem fun hmem => hx (mem_keys.mp hmem), List.length_append,
          List.length_singleton,
          List.range_succ, hnew, use_of_not_mem]
        rw [List.map_id]
        exact List.not_mem_range_self
  exact hparts xs [] (List.append_nil xs).symm

theorem firstUses_congr (h : ∀ x ∈ xs, ∀ y ∈ xs, f x = f y ↔ g x = g y) :
    firstUses f xs = firstUses g xs := by
  induction xs using List.reverseRecOn with
  | nil => rfl
  | append_singleton xs x ih =>
    have hxs := ih fun y hy z hz => h y (List.mem_append_left _ hy) z (List.mem_append_left _ hz)
    have hmem : f x ∈ xs.map f ↔ g x ∈ xs.map g := by
      simp only [List.mem_map]
      refine exists_congr fun y => and_congr_right fun hy => ?_
      exact h y (List.mem_append_left _ hy) x (List.mem_append_right _ (List.mem_singleton_self x))
    rw [firstUses_snoc, firstUses_snoc]
    by_cases hx : f x ∈ xs.map f
    · rw [use_of_mem (mem_keys.mpr hx), use_of_mem (mem_keys.mpr (hmem.mp hx)), hxs]
    · rw [use_of_not_mem fun hin => hx (mem_keys.mp hin), use_of_not_mem fun hin =>
        hx (hmem.mpr (mem_keys.mp hin)), hxs]

theorem ref_congr (h : ∀ x ∈ xs, ∀ y ∈ xs, f x = f y ↔ g x = g y) (hx : x ∈ xs) :
    ref f xs (f x) = ref g xs (g x) := by
  have hfirst := firstUses_congr h
  have hmem : f x ∈ xs.map f := List.mem_map_of_mem hx
  obtain ⟨first, hentry, hkey⟩ := getElem?_ref hmem
  obtain ⟨first', hentry', hkey'⟩ := getElem?_ref (f := g) (List.mem_map_of_mem hx)
  rw [← hfirst] at hentry'
  -- both stand at the place of the item's key
  have hin : first' ∈ xs := by
    obtain ⟨earlier, later, hsplit, -⟩ := mem_of_mem_firstUses (List.mem_of_getElem? hentry')
    rw [hsplit]
    exact List.mem_append_right _ (List.mem_cons_self ..)
  have hsame : f first' = f first := hkey.symm ▸ (h first' hin x hx).mpr hkey'
  have hlt : ref f xs (f x) < ((firstUses f xs).map f).length := by
    rw [List.length_map]
    exact ref_lt hmem
  refine (List.getElem?_inj hlt nodup_keys).mp ?_
  rw [List.getElem?_map, List.getElem?_map, hentry, hentry', Option.map_some,
    Option.map_some, hsame]

end Beam.Interning
