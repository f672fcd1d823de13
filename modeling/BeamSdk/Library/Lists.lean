import Mathlib.Data.List.Perm.Subperm

namespace Beam

section Positions
variable {α β : Type*} {f : α → β} {l : List α} {i : ℕ}

theorem map_modify {g : α → α} (h : ∀ a, f (g a) = f a) : (l.modify i g).map f = l.map f := by
  refine List.ext_getElem? fun k => ?_
  rw [List.getElem?_map, List.getElem?_map, List.getElem?_modify, Option.map_eq_map, Option.map_map]
  congr 1
  funext a
  by_cases hk : i = k
  · rw [Function.comp_apply, if_pos hk, h]
  · rw [Function.comp_apply, if_neg hk]

theorem mem_or_mem_eraseIdx {a b : α} (ha : l[i]? = some a) (hb : b ∈ l) : b = a ∨
    b ∈ l.eraseIdx i := by
  obtain ⟨k, hk⟩ := List.mem_iff_getElem?.mp hb
  by_cases hki : k = i
  · rw [hki, ha] at hk
    exact .inl (Option.some.inj hk).symm
  · exact .inr (List.mem_eraseIdx_iff_getElem?.mpr ⟨k, hki, hk⟩)

theorem append_cons_of_append {front back before after : List α} {a : α}
    (h : front ++ back = before ++ a :: after) :
    (∃ rest, front = before ++ a :: rest) ∨ ∃ rest, before = front ++ rest ∧
      back = rest ++ a :: after := by
  rcases List.append_eq_append_iff.mp h with ⟨rest, hbefore, hback⟩ | ⟨rest, hfront, ha⟩
  · exact .inr ⟨rest, hbefore, hback⟩
  · cases rest with
    | nil => exact .inr ⟨[], by simpa using hfront.symm, ha.symm⟩
    | cons first rest =>
      cases ha
      exact .inl ⟨rest, hfront⟩

end Positions

section Groups
variable {α : Type*} {p : List α → Bool} {groups : List (List α)} {a : α}

theorem flatten_windows (l : List α) (size count : ℕ) :
    ((List.range count).map fun i => (l.drop (i * size)).take size).flatten =
      l.take (count * size) := by
  induction count with
  | zero => simp
  | succ count ih =>
    rw [List.range_succ, List.map_append, List.flatten_append, ih, Nat.succ_mul, List.take_add]
    simp

theorem mem_flatten_takeWhile : a ∈ (groups.takeWhile p).flatten ↔ a ∈ groups.flatten ∧
    ∀ before group after, groups = before ++ group :: after → (∀ earlier ∈ before, a ∉ earlier) →
      p group := by
  induction groups with
  | nil => simp
  | cons first groups ih =>
    cases hfirst : p first with
    | false =>
      rw [List.takeWhile_cons_of_neg (by rw [hfirst]; exact Bool.false_ne_true)]
      refine iff_of_false List.not_mem_nil fun h => ?_
      have hholds := h.2 [] first groups rfl fun _ hmem => absurd hmem List.not_mem_nil
      rw [hfirst] at hholds
      exact Bool.false_ne_true hholds
    | true =>
      rw [List.takeWhile_cons_of_pos hfirst, List.flatten_cons, List.flatten_cons, List.mem_append,
        List.mem_append, ih]
      constructor
      · intro h
        refine ⟨h.imp_right And.left, fun before group after hgroups hearlier => ?_⟩
        cases before with
        | nil =>
          cases hgroups
          exact hfirst
        | cons _ before =>
          cases hgroups
          have hrest := h.resolve_left (hearlier first (List.mem_cons_self ..))
          exact hrest.2 before group after rfl fun earlier hmem =>
            hearlier earlier (List.mem_cons_of_mem _ hmem)
      · rintro ⟨hmem, hholds⟩
        by_cases hin : a ∈ first
        · exact .inl hin
        · refine .inr ⟨hmem.resolve_left hin, fun before group after hgroups hearlier => ?_⟩
          refine hholds (first :: before) group after
            (by rw [hgroups]; rfl) fun earlier hearlier' => ?_
          rcases List.mem_cons.mp hearlier' with rfl | hearlier'
          · exact hin
          · exact hearlier earlier hearlier'

end Groups

section Keys
variable {α β κ : Type*} {f : α → List β} {key : α → κ} {l : List α} {keys : List κ}

theorem length_flatMap_le (hone : ∀ a ∈ l, (f a).length ≤ 1)
    (hkeys : ∀ a ∈ l, f a ≠ [] → key a ∈ keys)
    (hnodup : (l.map key).Nodup) : (l.flatMap f).length ≤ keys.length := by
  have hfilter : (l.flatMap f).length ≤ (l.filter fun a => !(f a).isEmpty).length := by
    clear hkeys hnodup
    induction l with
    | nil => exact Nat.le_refl 0
    | cons a l ih =>
      have hrest := ih fun b hb => hone b (List.mem_cons_of_mem _ hb)
      have hfirst := hone a (List.mem_cons_self ..)
      rw [List.flatMap_cons, List.length_append, List.filter_cons]
      cases hempty : (f a).isEmpty with
      | true =>
        rw [List.isEmpty_iff.mp hempty, if_neg (by decide), List.length_nil, Nat.zero_add]
        exact hrest
      | false =>
        rw [if_pos (by decide), List.length_cons]
        omega
  have hsubset : (l.filter fun a => !(f a).isEmpty).map key ⊆ keys := by
    intro k hk
    obtain ⟨a, ha, rfl⟩ := List.mem_map.mp hk
    obtain ⟨hmem, hne⟩ := List.mem_filter.mp ha
    exact hkeys a hmem fun hnil => by simp [hnil] at hne
  have hsub : ((l.filter fun a => !(f a).isEmpty).map key).Nodup :=
    hnodup.sublist (List.filter_sublist.map key)
  have hle := (hsub.subperm hsubset).length_le
  rw [List.length_map] at hle
  exact Nat.le_trans hfilter hle

end Keys

section Fallible
variable {α β : Type*} {f : α → Option β} {l : List α}

theorem mapM_forall₂ {l' : List β} (h : List.Forall₂ (fun a b => f a = some b) l l') :
    l.mapM f = some l' := by
  induction h with
  | nil => rfl
  | cons ha hl ih =>
    rw [List.mapM_cons, ha, ih]
    rfl

theorem mapM_none {a : α} (ha : a ∈ l) (hnone : f a = none) : l.mapM f = none := by
  induction l with
  | nil => cases ha
  | cons first l ih =>
    rw [List.mapM_cons]
    rcases List.mem_cons.mp ha with rfl | ha
    · rw [hnone]
      rfl
    · rw [ih ha]
      cases f first with
      | none => rfl
      | some b => rfl

end Fallible

section Parts
variable {α : Type*}

theorem map_eq_of_forall₂ {β γ : Type*} {f : α → γ} {g : β → γ} {l : List α} {l' : List β}
    (h : List.Forall₂ (fun a b => f a = g b) l l') : l.map f = l'.map g := by
  induction h with
  | nil => rfl
  | cons hfirst _ ih => rw [List.map_cons, List.map_cons, hfirst, ih]

theorem subset_intercalate {sep part : List α} {parts : List (List α)} (h : part ∈ parts) :
    part ⊆ sep.intercalate parts := by
  induction parts with
  | nil => cases h
  | cons first parts ih =>
    cases parts with
    | nil => simp_all
    | cons next parts =>
      rw [List.intercalate_cons_cons]
      rcases List.mem_cons.mp h with rfl | h
      · simp
      · exact fun c hc => List.mem_append_right _ (ih h hc)

theorem exists_of_mem_intercalate {sep : List α} {parts : List (List α)} {c : α}
    (h : c ∈ sep.intercalate parts) : ∃ part ∈ parts, c ∈ part ∨ c ∈ sep := by
  induction parts with
  | nil => cases h
  | cons first parts ih =>
    cases parts with
    | nil => exact ⟨first, List.mem_cons_self, .inl (by simpa using h)⟩
    | cons next parts =>
      rw [List.intercalate_cons_cons, List.append_assoc] at h
      rcases List.mem_append.mp h with hmem | h
      · exact ⟨first, List.mem_cons_self, .inl hmem⟩
      · rcases List.mem_append.mp h with hmem | h
        · exact ⟨first, List.mem_cons_self, .inr hmem⟩
        · obtain ⟨part, hpart, hmem⟩ := ih h
          exact ⟨part, List.mem_cons_of_mem first hpart, hmem⟩

theorem intercalate_inj {sep : List α} {parts parts' : List (List α)}
    (hlength : List.Forall₂ (fun part part' => part.length = part'.length) parts parts')
    (h : sep.intercalate parts = sep.intercalate parts') : parts = parts' := by
  induction hlength with
  | nil => rfl
  | cons hfirst hrest ih =>
    cases hrest with
    | nil => simpa using h
    | cons hnext hrest =>
      rw [List.intercalate_cons_cons, List.intercalate_cons_cons, List.append_assoc,
        List.append_assoc] at h
      obtain ⟨hparts, hrest⟩ := List.append_inj h hfirst
      rw [hparts, ih (List.append_cancel_left hrest)]

end Parts
end Beam
