import Mathlib.Data.List.Induction

/-! Runs of a machine whose steps are a partial function: a step that is not enabled ends in no
state. -/

namespace Beam.Run
variable {σ ι : Type*} {step : σ → ι → Option σ} {s t u : σ} {is : List ι} {i : ι}

def after (step : σ → ι → Option σ) (s : σ) (is : List ι) : Option σ := is.foldlM step s

theorem after_snoc : after step s (is ++ [i]) = some t ↔ ∃ u, after step s is = some u ∧
    step u i = some t := by
  rw [after, List.foldlM_append]
  constructor
  · intro h
    obtain ⟨u, hu, h⟩ := Option.bind_eq_some_iff.mp h
    obtain ⟨v, hv, h⟩ := Option.bind_eq_some_iff.mp h
    cases h
    exact ⟨u, hu, hv⟩
  · rintro ⟨u, hu, ht⟩
    refine Option.bind_eq_some_iff.mpr ⟨u, hu, ?_⟩
    exact Option.bind_eq_some_iff.mpr ⟨t, ht, rfl⟩

theorem after_invariant {I : σ → Prop} (hstep : ∀ u i v, I u → step u i = some v → I v) (hs : I s)
    (h : after step s is = some t) : I t := by
  induction is using List.reverseRecOn generalizing t with
  | nil =>
    cases h
    exact hs
  | append_singleton is i ih =>
    obtain ⟨u, hu, ht⟩ := after_snoc.mp h
    exact hstep u i t (ih hu) ht

/-- The states the steps pass through, the first and the last included, all have the property. -/
def Always (step : σ → ι → Option σ) (s : σ) (is : List ι) (P : σ → Prop) : Prop :=
  ∀ earlier later u, is = earlier ++ later → after step s earlier = some u → P u

def Never (step : σ → ι → Option σ) (s : σ) (is : List ι) (B : σ → ι → Prop) : Prop :=
  ∀ earlier i later u, is = earlier ++ i :: later → after step s earlier = some u → ¬ B u i

theorem after_append {others : List ι} :
    after step s (is ++ others) = some t ↔ ∃ u, after step s is = some u ∧
      after step u others = some t := by
  rw [after, List.foldlM_append]
  exact Option.bind_eq_some_iff

theorem Never.of_append {B : σ → ι → Prop} {others : List ι} (h : Never step s (is ++ others) B)
    (hu : after step s is = some u) : Never step u others B := by
  intro earlier i later v hothers hv
  refine h (is ++ earlier) i later v ?_ (after_append.mpr ⟨u, hu, hv⟩)
  rw [hothers, List.append_assoc]

theorem Always.last {P : σ → Prop} (h : Always step s is P) (ht : after step s is = some t) : P t :=
  h is [] t (List.append_nil is).symm ht

theorem Always.earlier {P : σ → Prop} {others : List ι} (h : Always step s (is ++ others) P) :
    Always step s is P :=
  fun earlier later u he hu => h earlier (later ++ others) u (by rw [he, List.append_assoc]) hu

theorem always_nil {P : σ → Prop} (h : P s) : Always step s [] P := by
  intro earlier later u hsplit hu
  obtain ⟨rfl, -⟩ := List.nil_eq_append_iff.mp hsplit
  cases hu
  exact h

theorem never_nil {B : σ → ι → Prop} : Never step s [] B :=
  fun earlier i later _ hsplit => absurd hsplit (by simp)

theorem always_snoc {P : σ → Prop} (hu : after step s is = some u) (ht : step u i = some t) :
    Always step s (is ++ [i]) P ↔ Always step s is P ∧ P t := by
  constructor
  · exact fun h => ⟨h.earlier, h.last (after_snoc.mpr ⟨u, hu, ht⟩)⟩
  · rintro ⟨h, hP⟩ earlier later v hsplit hv
    rcases List.eq_nil_or_concat later with rfl | ⟨later, j, rfl⟩
    · rw [List.append_nil] at hsplit
      rw [← hsplit, after_snoc.mpr ⟨u, hu, ht⟩] at hv
      exact Option.some.inj hv ▸ hP
    · rw [List.concat_eq_append, ← List.append_assoc] at hsplit
      exact h earlier later v (List.append_inj' hsplit rfl).1 hv

theorem never_snoc {B : σ → ι → Prop} (hu : after step s is = some u) :
    Never step s (is ++ [i]) B ↔ Never step s is B ∧ ¬ B u i := by
  constructor
  · refine fun h => ⟨fun earlier j later v hsplit hv => ?_, h is i [] u rfl hu⟩
    exact h earlier j (later ++ [i]) v (by rw [hsplit, List.append_assoc, List.cons_append]) hv
  · rintro ⟨h, hB⟩ earlier j later v hsplit hv
    rcases List.eq_nil_or_concat later with rfl | ⟨later, k, rfl⟩
    · obtain ⟨rfl, hj⟩ := List.append_inj' hsplit rfl
      cases hu.symm.trans hv
      exact List.singleton_inj.mp hj ▸ hB
    · rw [List.concat_eq_append, ← List.cons_append, ← List.append_assoc] at hsplit
      exact h earlier j later v (List.append_inj' hsplit rfl).1 hv

def Each (step : σ → ι → Option σ) (s : σ) (is : List ι) (R : σ → ι → σ → Prop) : Prop :=
  ∀ earlier i later u v, is = earlier ++ i :: later → after step s earlier = some u →
    step u i = some v → R u i v

theorem each_nil {R : σ → ι → σ → Prop} : Each step s [] R :=
  fun earlier i later _ _ hsplit => absurd hsplit (by simp)

theorem each_snoc {R : σ → ι → σ → Prop} (hu : after step s is = some u) (ht : step u i = some t) :
    Each step s (is ++ [i]) R ↔ Each step s is R ∧ R u i t := by
  constructor
  · refine fun h => ⟨fun earlier j later v w hsplit hv hw => ?_, h is i [] u t rfl hu ht⟩
    exact h earlier j (later ++ [i]) v w (by rw [hsplit, List.append_assoc, List.cons_append]) hv hw
  · rintro ⟨h, hR⟩ earlier j later v w hsplit hv hw
    rcases List.eq_nil_or_concat later with rfl | ⟨later, k, rfl⟩
    · obtain ⟨rfl, hj⟩ := List.append_inj' hsplit rfl
      obtain rfl : u = v := Option.some.inj (hu.symm.trans hv)
      obtain rfl : i = j := List.singleton_inj.mp hj
      obtain rfl : t = w := Option.some.inj (ht.symm.trans hw)
      exact hR
    · rw [List.concat_eq_append, ← List.cons_append, ← List.append_assoc] at hsplit
      exact h earlier j later v w (List.append_inj' hsplit rfl).1 hv hw

/-- A relation that the bad steps break, and no others, holds at each step of a run exactly when no
step of it is bad. -/
theorem each_iff_never {I : σ → Prop} {R : σ → ι → σ → Prop} {B : σ → ι → Prop}
    (hbad : ∀ u i v, I u → step u i = some v → B u i → ¬ R u i v)
    (hgood : ∀ u i v, I u → step u i = some v → ¬ B u i → I v ∧ R u i v) (hI : I s)
    (h : after step s is = some t) :
    Each step s is R ↔ Never step s is B := by
  have hboth : (Each step s is R ↔ Never step s is B) ∧ (Never step s is B → I t) := by
    induction is using List.reverseRecOn generalizing t with
    | nil =>
      cases h
      exact ⟨⟨fun _ => never_nil, fun _ => each_nil⟩, fun _ => hI⟩
    | append_singleton is i ih =>
      obtain ⟨u, hu, ht⟩ := after_snoc.mp h
      obtain ⟨hiff, hinv⟩ := ih hu
      rw [each_snoc hu ht, never_snoc hu, hiff]
      refine ⟨and_congr_right fun hnever => ?_, fun hnever =>
        (hgood u i t (hinv hnever.1) ht hnever.2).1⟩
      exact ⟨fun hR hB => hbad u i t (hinv hnever) ht hB hR, fun hB =>
        (hgood u i t (hinv hnever) ht hB).2⟩
  exact hboth.1

/-- What every step gives and preserves that is none of the bad ones, a run without them gives and
preserves. -/
theorem each_of_never {I : σ → Prop} {R : σ → ι → σ → Prop} {B : σ → ι → Prop}
    (hstep : ∀ u i v, I u → step u i = some v → ¬ B u i → I v ∧ R u i v) (hI : I s)
    (h : after step s is = some t)
    (hB : Never step s is B) : Each step s is R ∧ I t := by
  induction is using List.reverseRecOn generalizing t with
  | nil =>
    cases h
    exact ⟨each_nil, hI⟩
  | append_singleton is i ih =>
    obtain ⟨u, hu, ht⟩ := after_snoc.mp h
    obtain ⟨hB, hgood⟩ := (never_snoc hu).mp hB
    obtain ⟨heach, hinv⟩ := ih hu hB
    obtain ⟨hinv', hR⟩ := hstep u i t hinv ht hgood
    exact ⟨(each_snoc hu ht).mpr ⟨heach, hR⟩, hinv'⟩

theorem always_of_never {I : σ → Prop} {B : σ → ι → Prop}
    (hstep : ∀ u i v, I u → step u i = some v → ¬ B u i → I v) (hI : I s) (hB : Never step s is B) :
    Always step s is I := by
  intro earlier later u hsplit hu
  have hearlier : Never step s earlier B := fun before i rest v hrest hv =>
    hB before i (rest ++ later) v (by rw [hsplit, hrest, List.append_assoc, List.cons_append]) hv
  exact (each_of_never (R := fun _ _ _ => True)
    (fun u i v hu ht hgood => ⟨hstep u i v hu ht hgood, trivial⟩) hI hu
    hearlier).2

def checkAlways (step : σ → ι → Option σ) (P : σ → Bool) : σ → List ι → Bool
  | s, [] => P s
  | s, i :: is => P s && (step s i).all fun t => checkAlways step P t is

def checkNever (step : σ → ι → Option σ) (B : σ → ι → Bool) : σ → List ι → Bool
  | _, [] => true
  | s, i :: is => !B s i && (step s i).all fun t => checkNever step B t is

theorem after_cons : after step s (i :: is) = some t ↔ ∃ u, step s i = some u ∧
    after step u is = some t := by
  rw [after, List.foldlM_cons]
  exact Option.bind_eq_some_iff

theorem always_of_check {P : σ → Prop} [DecidablePred P]
    (h : checkAlways step (fun s => decide (P s)) s is = true) :
    Always step s is P := by
  induction is generalizing s with
  | nil => exact always_nil (of_decide_eq_true h)
  | cons i is ih =>
    obtain ⟨hs, hrest⟩ := Bool.and_eq_true_iff.mp h
    rw [decide_eq_true_iff] at hs
    intro earlier later u hsplit hu
    cases earlier with
    | nil =>
      cases hu
      exact hs
    | cons j earlier =>
      obtain ⟨rfl, htail⟩ := List.cons.inj hsplit
      obtain ⟨t, ht, hu⟩ := after_cons.mp hu
      rw [ht, Option.all_some] at hrest
      exact ih hrest earlier later u htail hu

theorem never_of_check {B : σ → ι → Prop} [∀ s i, Decidable (B s i)]
    (h : checkNever step (fun s i => decide (B s i)) s is = true) : Never step s is B := by
  induction is generalizing s with
  | nil => exact never_nil
  | cons i is ih =>
    obtain ⟨hs, hrest⟩ := Bool.and_eq_true_iff.mp h
    intro earlier j later u hsplit hu
    cases earlier with
    | nil =>
      cases hu
      obtain ⟨rfl, -⟩ := List.cons.inj hsplit
      exact of_decide_eq_false ((Bool.not_eq_true' _).mp hs)
    | cons j' earlier =>
      obtain ⟨rfl, htail⟩ := List.cons.inj hsplit
      obtain ⟨t, ht, hu⟩ := after_cons.mp hu
      rw [ht, Option.all_some] at hrest
      exact ih hrest earlier j later u htail hu

theorem Never.mono {B B' : σ → ι → Prop} (h : Never step s is B') (hsub : ∀ u i, B u i → B' u i) :
    Never step s is B :=
  fun earlier i later u hsplit hu hB => h earlier i later u hsplit hu (hsub u i hB)

/-- What every step preserves that is none of the bad ones and ends where the run may pass, such a
run preserves. -/
theorem invariant_along {I P : σ → Prop} {B : σ → ι → Prop}
    (hstep : ∀ u i v, I u → step u i = some v → P v → ¬ B u i → I v) (hs : I s)
    (h : after step s is = some t)
    (hP : Always step s is P) (hB : Never step s is B) : I t := by
  induction is using List.reverseRecOn generalizing t with
  | nil =>
    cases h
    exact hs
  | append_singleton is i ih =>
    obtain ⟨u, hu, ht⟩ := after_snoc.mp h
    obtain ⟨hP, hlast⟩ := (always_snoc hu ht).mp hP
    obtain ⟨hB, hgood⟩ := (never_snoc hu).mp hB
    exact hstep u i t (ih hu hP hB) ht hlast hgood

theorem always_of_last {I P : σ → Prop} (hstep : ∀ u i v, I u → step u i = some v → I v)
    (hback : ∀ u i v, I u → step u i = some v → P v → P u) (hI : I s) (h : after step s is = some t)
    (hP : P t) :
    Always step s is P := by
  induction is using List.reverseRecOn generalizing t with
  | nil =>
    cases h
    exact always_nil hP
  | append_singleton is i ih =>
    obtain ⟨u, hu, ht⟩ := after_snoc.mp h
    have hPu := hback u i t (after_invariant hstep hI hu) ht hP
    exact (always_snoc hu ht).mpr ⟨ih hu hPu, hP⟩

/-- A property that is lost by the bad steps, and by no others, holds all along a run exactly when
no step of it is bad. -/
theorem always_iff_never {I P : σ → Prop} {B : σ → ι → Prop}
    (hstep : ∀ u i v, I u → P u → step u i = some v → I v ∧ (P v ↔ ¬ B u i)) (hI : I s) (hP : P s)
    (h : after step s is = some t) : Always step s is P ↔ Never step s is B := by
  have hboth : (Always step s is P ↔ Never step s is B) ∧ (Always step s is P → I t) := by
    induction is using List.reverseRecOn generalizing t with
    | nil =>
      cases h
      exact ⟨⟨fun _ => never_nil, fun _ => always_nil hP⟩, fun _ => hI⟩
    | append_singleton is i ih =>
      obtain ⟨u, hu, ht⟩ := after_snoc.mp h
      obtain ⟨hiff, hinv⟩ := ih hu
      rw [always_snoc hu ht, never_snoc hu, ← hiff]
      refine ⟨and_congr_right fun halways => ?_, fun halways => ?_⟩
      · exact (hstep u i t (hinv halways) (halways.last hu) ht).2
      · exact (hstep u i t (hinv halways.1) (halways.1.last hu) ht).1
  exact hboth.1

end Beam.Run
