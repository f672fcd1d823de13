import Mathlib.Data.List.Basic

/-! Lists that are cut into blocks: each the longest that still fits, or one element where none
does. -/

namespace Beam.Packing
variable {α : Type*} (size : List α → ℕ) (target : ℕ)

/-- The block that what begins with `block` and goes on with `rest` is cut at. -/
structure Leads (block rest : List α) : Prop where
  nonempty : block ≠ []
  fits : size block ≤ target ∨ block.length = 1
  longest : ∀ more, more ≠ [] → more <+: rest → target < size (block ++ more)

inductive Packs : List α → List (List α) → Prop
  | nil : Packs [] []
  | cons {block rest : List α} {blocks : List (List α)} (leads : Leads size target block rest)
      (packs : Packs rest blocks) :
    Packs (block ++ rest) (block :: blocks)

variable {size target}

theorem packs_singleton (item : α) : Packs size target [item] [[item]] := by
  have leads : Leads size target [item] [] :=
    ⟨List.cons_ne_nil _ _, .inr rfl, fun _ hmore hrest => absurd (List.prefix_nil.mp hrest) hmore⟩
  exact .cons leads .nil

theorem Packs.flatten {items : List α} {blocks : List (List α)}
    (h : Packs size target items blocks) :
    blocks.flatten = items := by
  induction h with
  | nil => rfl
  | cons _ _ ih => rw [List.flatten_cons, ih]

theorem Packs.nonempty {items : List α} {blocks : List (List α)}
    (h : Packs size target items blocks) :
    ∀ block ∈ blocks, block ≠ [] := by
  induction h with
  | nil => nofun
  | cons leads _ ih => exact List.forall_mem_cons.mpr ⟨leads.nonempty, ih⟩

theorem Leads.not_longer {block rest more rest' : List α} (h : Leads size target block rest)
    (h' : Leads size target (block ++ more) rest') (hrest : rest = more ++ rest') : more = [] := by
  by_contra hmore
  have hlarge := h.longest more hmore ⟨rest', hrest.symm⟩
  obtain hfits | hone := h'.fits
  · exact absurd hfits (Nat.not_le.mpr hlarge)
  · rw [List.length_append] at hone
    have hblock := List.length_pos_iff.mpr h.nonempty
    have hpos := List.length_pos_iff.mpr hmore
    omega

theorem Leads.unique {block rest block' rest' : List α} (h : Leads size target block rest)
    (h' : Leads size target block' rest')
    (heq : block ++ rest = block' ++ rest') : block = block' ∧ rest = rest' := by
  rcases List.append_eq_append_iff.mp heq with ⟨more, rfl, hrest⟩ | ⟨more, rfl, hrest⟩
  · obtain rfl := h.not_longer h' hrest
    exact ⟨(List.append_nil block).symm, hrest⟩
  · obtain rfl := h'.not_longer h hrest
    exact ⟨List.append_nil block', hrest.symm⟩

theorem Packs.unique {items : List α} {blocks blocks' : List (List α)}
    (h : Packs size target items blocks)
    (h' : Packs size target items blocks') : blocks = blocks' := by
  generalize hitems : items = items' at h'
  induction h generalizing items' blocks' with
  | nil =>
    cases h' with
    | nil => rfl
    | cons leads _ => exact absurd (List.append_eq_nil_iff.mp hitems.symm).1 leads.nonempty
  | cons leads _ ih =>
    cases h' with
    | nil => exact absurd (List.append_eq_nil_iff.mp hitems).1 leads.nonempty
    | cons leads' packs' =>
      obtain ⟨rfl, rfl⟩ := leads.unique leads' hitems
      rw [ih _ rfl packs']

theorem exists_packs (hleads : ∀ items, items ≠ [] → ∃ block rest, items = block ++ rest ∧
    Leads size target block rest)
    (items : List α) : ∃ blocks, Packs size target items blocks := by
  induction hlength : items.length using Nat.strongRecOn generalizing items with
  | _ length ih =>
    by_cases hnil : items = []
    · exact ⟨[], hnil ▸ .nil⟩
    · obtain ⟨block, rest, rfl, leads⟩ := hleads items hnil
      have hshorter : rest.length < length := by
        have hpos := List.length_pos_iff.mpr leads.nonempty
        rw [List.length_append] at hlength
        omega
      obtain ⟨blocks, packs⟩ := ih rest.length hshorter rest rfl
      exact ⟨block :: blocks, .cons leads packs⟩

end Beam.Packing
