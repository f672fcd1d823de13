import Mathlib.Data.List.Basic

/-! Maps that list their entries in the order the keys were first set. -/

namespace Beam

abbrev OrderedMap (κ ν : Type*) := List (κ × ν)

namespace OrderedMap
variable {κ ν : Type*} [DecidableEq κ]

def get : OrderedMap κ ν → κ → Option ν
  | [], _ => none
  | (j, v) :: m, k => if j = k then some v else get m k

def set : OrderedMap κ ν → κ → ν → OrderedMap κ ν
  | [], k, v => [(k, v)]
  | (j, u) :: m, k, v => if j = k then (k, v) :: m else (j, u) :: set m k v

def delete (m : OrderedMap κ ν) (k : κ) : OrderedMap κ ν := m.filter fun e => e.1 ≠ k

theorem get_cons (j : κ) (v : ν) (m : OrderedMap κ ν) (k : κ) :
    get ((j, v) :: m) k = if j = k then some v else m.get k := rfl

theorem set_nil (k : κ) (v : ν) : set [] k v = [(k, v)] := rfl

theorem set_cons (j : κ) (u : ν) (m : OrderedMap κ ν) (k : κ) (v : ν) :
    set ((j, u) :: m) k v = if j = k then (k, v) :: m else (j, u) :: m.set k v := rfl

theorem get_set_self (m : OrderedMap κ ν) (k : κ) (v : ν) : (m.set k v).get k = some v := by
  induction m with
  | nil => rw [set_nil, get_cons, if_pos rfl]
  | cons e m ih =>
    obtain ⟨j, u⟩ := e
    by_cases he : j = k
    · rw [set_cons, if_pos he, get_cons, if_pos rfl]
    · rw [set_cons, if_neg he, get_cons, if_neg he, ih]

theorem get_set_of_ne (m : OrderedMap κ ν) {k l : κ} (h : l ≠ k) (v : ν) :
    (m.set k v).get l = m.get l := by
  induction m with
  | nil => rw [set_nil, get_cons, if_neg h.symm]
  | cons e m ih =>
    obtain ⟨j, u⟩ := e
    by_cases he : j = k
    · simp only [set_cons, if_pos he, get_cons, if_neg h.symm, if_neg (he.trans_ne h.symm)]
    · simp only [set_cons, if_neg he, get_cons, ih]

theorem get_delete_self (m : OrderedMap κ ν) (k : κ) : (m.delete k).get k = none := by
  induction m with
  | nil => rfl
  | cons e m ih =>
    obtain ⟨j, u⟩ := e
    by_cases he : j = k
    · rwa [delete, List.filter_cons_of_neg (by simp [he])]
    · rw [delete, List.filter_cons_of_pos (by simp [he]), get_cons, if_neg he]
      exact ih

theorem get_delete_of_ne (m : OrderedMap κ ν) {k l : κ} (h : l ≠ k) :
    (m.delete k).get l = m.get l := by
  induction m with
  | nil => rfl
  | cons e m ih =>
    obtain ⟨j, u⟩ := e
    by_cases he : j = k
    · rw [delete, List.filter_cons_of_neg (by simp [he]), get_cons, if_neg (he.trans_ne h.symm)]
      exact ih
    · rw [delete, List.filter_cons_of_pos (by simp [he]), get_cons, get_cons]
      exact if_congr Iff.rfl rfl ih

theorem mem_of_get {m : OrderedMap κ ν} {k : κ} {v : ν} (h : m.get k = some v) : (k, v) ∈ m := by
  induction m with
  | nil => cases h
  | cons e m ih =>
    obtain ⟨j, u⟩ := e
    rw [get_cons] at h
    split_ifs at h with he
    · cases h
      exact he ▸ List.mem_cons_self ..
    · exact List.mem_cons_of_mem _ (ih h)

theorem get_filter {m : OrderedMap κ ν} {k : κ} {v : ν} (h : m.get k = some v) {p : κ × ν → Bool}
    (hp : p (k, v) = true) :
    get (m.filter p) k = some v := by
  induction m with
  | nil => cases h
  | cons e m ih =>
    obtain ⟨j, u⟩ := e
    rw [get_cons] at h
    by_cases he : j = k
    · rw [if_pos he] at h
      cases h
      rw [he, List.filter_cons_of_pos hp, get_cons, if_pos rfl]
    · rw [if_neg he] at h
      rw [List.filter_cons]
      split
      · rw [get_cons, if_neg he]
        exact ih h
      · exact ih h

theorem get_eq_none {m : OrderedMap κ ν} {k : κ} : m.get k = none ↔ ∀ v, (k, v) ∉ m := by
  constructor
  · intro h v hv
    induction m with
    | nil => cases hv
    | cons e m ih =>
      obtain ⟨j, u⟩ := e
      rw [get_cons] at h
      split_ifs at h with he
      rcases List.mem_cons.mp hv with heq | hv
      · cases heq
        exact he rfl
      · exact ih h hv
  · intro h
    cases hget : m.get k with
    | none => rfl
    | some v => exact absurd (mem_of_get hget) (h v)

theorem mem_set {m : OrderedMap κ ν} {k : κ} {v : ν} {e : κ × ν} (h : e ∈ m.set k v) :
    e = (k, v) ∨ e ∈ m := by
  induction m with
  | nil => exact .inl (List.mem_singleton.mp h)
  | cons x m ih =>
    obtain ⟨j, u⟩ := x
    rw [set_cons] at h
    split_ifs at h with he
    · exact (List.mem_cons.mp h).imp_right (List.mem_cons_of_mem _)
    · rcases List.mem_cons.mp h with h | h
      · exact .inr (h ▸ List.mem_cons_self ..)
      · exact (ih h).imp_right (List.mem_cons_of_mem _)

theorem get_eq_some {m : OrderedMap κ ν} (h : (m.map Prod.fst).Nodup) {k : κ} {v : ν} :
    m.get k = some v ↔ (k, v) ∈ m := by
  refine ⟨mem_of_get, fun hmem => ?_⟩
  induction m with
  | nil => cases hmem
  | cons e m ih =>
    obtain ⟨j, u⟩ := e
    obtain ⟨hj, hm⟩ := List.nodup_cons.mp h
    rw [get_cons]
    rcases List.mem_cons.mp hmem with heq | hmem
    · cases heq
      exact if_pos rfl
    · rw [if_neg, ih hm hmem]
      rintro rfl
      exact hj (List.mem_map.mpr ⟨_, hmem, rfl⟩)

theorem keys_set (m : OrderedMap κ ν) (k : κ) (v : ν) :
    (m.set k v).map Prod.fst = if k ∈ m.map Prod.fst then m.map Prod.fst
      else m.map Prod.fst ++ [k] := by
  induction m with
  | nil => rfl
  | cons e m ih =>
    obtain ⟨j, u⟩ := e
    rw [set_cons, List.map_cons]
    by_cases he : j = k
    · rw [if_pos he, if_pos (he ▸ List.mem_cons_self ..), List.map_cons, he]
    · have hmem : k ∈ j :: m.map Prod.fst ↔ k ∈ m.map Prod.fst := by
        rw [List.mem_cons, or_iff_right (fun h => he h.symm)]
      rw [if_neg he, List.map_cons, ih]
      by_cases hk : k ∈ m.map Prod.fst
      · rw [if_pos hk, if_pos (hmem.mpr hk)]
      · rw [if_neg hk, if_neg (fun h => hk (hmem.mp h)), List.cons_append]

theorem nodup_set {m : OrderedMap κ ν} (h : (m.map Prod.fst).Nodup) (k : κ) (v : ν) :
    ((m.set k v).map Prod.fst).Nodup := by
  induction m with
  | nil => exact List.pairwise_singleton _ k
  | cons e m ih =>
    obtain ⟨j, u⟩ := e
    obtain ⟨hj, hm⟩ := List.nodup_cons.mp h
    rw [set_cons]
    split_ifs with he
    · subst he
      exact h
    · refine List.nodup_cons.mpr ⟨fun hmem => ?_, ih hm⟩
      obtain ⟨⟨_, w⟩, hin, rfl⟩ := List.mem_map.mp hmem
      rcases mem_set hin with heq | hin
      · cases heq
        exact he rfl
      · exact hj (List.mem_map.mpr ⟨_, hin, rfl⟩)

theorem set_new {m : OrderedMap κ ν} {k : κ} (h : k ∉ m.map Prod.fst) (v : ν) :
    m.set k v = m ++ [(k, v)] := by
  induction m with
  | nil => rfl
  | cons e m ih =>
    obtain ⟨j, u⟩ := e
    rw [List.map_cons, List.mem_cons, not_or] at h
    rw [set_cons, if_neg (Ne.symm h.1), ih h.2, List.cons_append]

theorem foldl_set_new {f : ν → κ} {values : List ν} {m : OrderedMap κ ν}
    (h : (m.map Prod.fst ++ values.map f).Nodup) :
    values.foldl (fun m v => m.set (f v) v) m = m ++ values.map fun v => (f v, v) := by
  induction values generalizing m with
  | nil => rw [List.foldl_nil, List.map_nil, List.append_nil]
  | cons v values ih =>
    have hnew : f v ∉ m.map Prod.fst := fun hmem =>
      (List.nodup_append.mp h).2.2 (f v) hmem (f v) (List.mem_cons_self ..) rfl
    rw [List.foldl_cons, set_new hnew, ih, List.append_assoc, List.map_cons, List.singleton_append]
    rw [List.map_append, List.append_assoc]
    exact h

end OrderedMap
end Beam
