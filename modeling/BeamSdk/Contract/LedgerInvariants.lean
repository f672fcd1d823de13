import BeamSdk.Contract.Ledger

/-! What holds of every ledger the machine reaches: no met demand is open, records never change,
pointers between them never dangle, and levels follow the deployment. -/

namespace Beam.Contract

def Act.meets : Act → Option Demand
  | .opened _ _ | .closed _ | .linked _ _ => none
  | .recorded transferId _ => some (.receipt transferId)
  | .bound requestId _ | .roomBound requestId _ | .jobRecorded requestId _ =>
      some (.transfer requestId)
  | .roomRecorded roomKey _ => some (.room roomKey)

namespace Ledger
variable {H : Hashes} {l l' l'' : Ledger} {a : Act} {d : Demand}

/-- What a later ledger keeps of an earlier one. A receipt may still come to name the request id
it answers, once. -/
structure Keeps (l l' : Ledger) : Prop where
  receipt : ∀ T, (l.receipts T).status ≠ .none → l'.receipts T = l.receipts T ∨
    ((l.receipts T).requestId = 0 ∧ ∃ R ≠ 0, l'.receipts T = { l.receipts T with requestId := R } ∧
      l'.transferIdForRequest R = T ∧ T ≠ 0)
  room : ∀ K, (l.roomReceipts K).status ≠ .none → l'.roomReceipts K = l.roomReceipts K
  job : ∀ R, (l.jobs R).status ≠ .none → l'.jobs R = l.jobs R
  transferId : ∀ R, l.transferIdForRequest R ≠ 0 →
    l'.transferIdForRequest R = l.transferIdForRequest R
  roomKey : ∀ R, l.roomKeyForRequest R ≠ 0 → l'.roomKeyForRequest R = l.roomKeyForRequest R
  donAttested : l'.donAttested = l.donAttested

theorem Keeps.refl (l : Ledger) : l.Keeps l :=
  ⟨fun _ _ => .inl rfl, fun _ _ => rfl, fun _ _ => rfl, fun _ _ => rfl, fun _ _ => rfl, rfl⟩

theorem Keeps.trans (h : l.Keeps l') (h' : l'.Keeps l'') : l.Keeps l'' where
  receipt T hT := by
    rcases h.receipt T hT with he | ⟨h0, R, hR, he, hb, hT0⟩
    · rcases h'.receipt T (he ▸ hT) with he' | ⟨h0', R, hR, he', hb'⟩
      · exact .inl (he'.trans he)
      · rw [he] at h0' he'
        exact .inr ⟨h0', R, hR, he', hb'⟩
    · have hkeep : l''.transferIdForRequest R = T := (h'.transferId R (hb ▸ hT0)).trans hb
      rcases h'.receipt T (by rw [he]; exact hT) with he' | ⟨h0', -⟩
      · exact .inr ⟨h0, R, hR, he'.trans he, hkeep, hT0⟩
      · rw [he] at h0'
        exact absurd h0' hR
  room K hK := by
    have he := h.room K hK
    exact (h'.room K (he ▸ hK)).trans he
  job R hR := by
    have he := h.job R hR
    exact (h'.job R (he ▸ hR)).trans he
  transferId R hR := by
    have he := h.transferId R hR
    exact (h'.transferId R (he ▸ hR)).trans he
  roomKey R hR := by
    have he := h.roomKey R hR
    exact (h'.roomKey R (he ▸ hR)).trans he
  donAttested := h'.donAttested.trans h.donAttested

theorem update_eq_of_ne {α β : Type} [DecidableEq α] {f : α → β} {x y : α} {b : β} {P : β → Prop}
    (hx : ¬ P (f x)) (hy : P (f y)) : Function.update f x b y = f y := by
  have hne : y ≠ x := by
    rintro rfl
    exact hx hy
  exact Function.update_of_ne hne b f

theorem Allowed.keeps (h : l.Allowed H a) : l.Keeps (l.apply a) := by
  cases a with
  | opened key request =>
      exact ⟨fun _ _ => .inl rfl, fun _ _ => rfl, fun _ _ => rfl, fun _ _ =>
        rfl, fun _ _ => rfl, rfl⟩
  | closed key =>
      exact ⟨fun _ _ => .inl rfl, fun _ _ => rfl, fun _ _ => rfl, fun _ _ =>
        rfl, fun _ _ => rfl, rfl⟩
  | recorded transferId receipt =>
    refine ⟨fun T hT => .inl ?_, fun _ _ => rfl, fun _ _ => rfl, fun _ _ =>
      rfl, fun _ _ => rfl, rfl⟩
    exact update_eq_of_ne (P := fun r => r.status ≠ .none) h.1 hT
  | bound requestId transferId =>
    refine ⟨fun _ _ => .inl rfl, fun _ _ => rfl, fun _ _ => rfl,
      fun R hR => ?_, fun _ _ => rfl, rfl⟩
    exact update_eq_of_ne (P := fun T => T ≠ 0) (fun hb => h.2.1 (.inl hb)) hR
  | linked transferId requestId =>
    obtain ⟨hT0, hzero, hR, hbound⟩ := h
    refine ⟨fun T hT => ?_, fun _ _ => rfl, fun _ _ => rfl, fun _ _ => rfl, fun _ _ => rfl, rfl⟩
    by_cases he : T = transferId
    · subst he
      exact .inr ⟨hzero, requestId, hR, Function.update_self .., hbound, hT0⟩
    · exact .inl (Function.update_of_ne he ..)
  | roomRecorded roomKey receipt =>
    refine ⟨fun _ _ => .inl rfl, fun K hK => ?_, fun _ _ => rfl, fun _ _ =>
      rfl, fun _ _ => rfl, rfl⟩
    exact update_eq_of_ne (P := fun r => r.status ≠ .none) h.1 hK
  | roomBound requestId roomKey =>
    refine ⟨fun _ _ => .inl rfl, fun _ _ => rfl, fun _ _ => rfl, fun _ _ =>
      rfl, fun R hR => ?_, rfl⟩
    exact update_eq_of_ne (P := fun K => K ≠ 0) (fun hb => h.1 (.inr (.inl hb))) hR
  | jobRecorded requestId job =>
    refine ⟨fun _ _ => .inl rfl, fun _ _ => rfl, fun R hR => ?_, fun _ _ =>
      rfl, fun _ _ => rfl, rfl⟩
    exact update_eq_of_ne (P := fun j => j.status ≠ .none) (fun hj => h.1 (.inr (.inr hj))) hR

theorem later_keeps (h : (ledger H).Later l l') : l.Keeps l' := by
  refine h.relates (I := fun _ => True) (fun _ _ _ _ _ => trivial) .refl
    (fun _ _ _ => .trans) ?_ trivial
  rintro l a _ - ⟨hallowed, rfl⟩
  exact hallowed.keeps

theorem Keeps.met (h : l.Keeps l') (hd : l.Met d) : l'.Met d := by
  cases d with
  | transfer requestId =>
    rcases hd with hT | hK | hJ
    · exact .inl ((h.transferId _ hT).symm ▸ hT)
    · exact .inr (.inl ((h.roomKey _ hK).symm ▸ hK))
    · exact .inr (.inr ((h.job _ hJ).symm ▸ hJ))
  | receipt transferId =>
    rcases h.receipt transferId hd with he | ⟨-, _, -, he, -⟩
    · exact fun hn => hd (he ▸ hn)
    · exact fun hn => hd (by simpa only [he] using hn)
  | room roomKey => exact fun hn => hd (h.room roomKey hd ▸ hn)

theorem update_eq_or {α β : Type} [DecidableEq α] (f : α → β) (x y : α) (b : β) :
    Function.update f x b y = f y ∨ (y = x ∧ Function.update f x b y = b) := by
  by_cases he : y = x
  · subst he
    exact .inr ⟨rfl, Function.update_self ..⟩
  · exact .inl (Function.update_of_ne he ..)

theorem openRequests_apply (l : Ledger) (a : Act) (k : Bytes32) :
    (l.apply a).openRequests k = l.openRequests k ∨ (l.apply a).openRequests k = OpenRequest.zero ∨
      a = .opened k ((l.apply a).openRequests k) := by
  cases a with
  | opened key request =>
    rcases update_eq_or l.openRequests key k request with he | ⟨rfl, he⟩
    · exact .inl he
    · exact .inr (.inr (by simp only [apply, he]))
  | closed key =>
    rcases update_eq_or l.openRequests key k OpenRequest.zero with he | ⟨-, he⟩
    · exact .inl he
    · exact .inr (.inl he)
  | _ => exact .inl rfl

theorem receipts_apply (l : Ledger) (a : Act) (T : Bytes16) :
    (l.apply a).receipts T = l.receipts T ∨ a = .recorded T ((l.apply a).receipts T) ∨
      ∃ R, a = .linked T R ∧ (l.apply a).receipts T = { l.receipts T with requestId := R } := by
  cases a with
  | recorded transferId receipt =>
    rcases update_eq_or l.receipts transferId T receipt with he | ⟨rfl, he⟩
    · exact .inl he
    · exact .inr (.inl (by simp only [apply, he]))
  | linked transferId requestId =>
    rcases update_eq_or l.receipts transferId T { l.receipts transferId with
      requestId := requestId }
      with he | ⟨rfl, he⟩
    · exact .inl he
    · exact .inr (.inr ⟨requestId, rfl, he⟩)
  | _ => exact .inl rfl

theorem roomReceipts_apply (l : Ledger) (a : Act) (K : Bytes32) :
    (l.apply a).roomReceipts K = l.roomReceipts K ∨
      a = .roomRecorded K ((l.apply a).roomReceipts K) := by
  cases a with
  | roomRecorded roomKey receipt =>
    rcases update_eq_or l.roomReceipts roomKey K receipt with he | ⟨rfl, he⟩
    · exact .inl he
    · exact .inr (by simp only [apply, he])
  | _ => exact .inl rfl

theorem transferIdForRequest_apply (l : Ledger) (a : Act) (R : Bytes32) :
    (l.apply a).transferIdForRequest R = l.transferIdForRequest R ∨
      a = .bound R ((l.apply a).transferIdForRequest R) := by
  cases a with
  | bound requestId transferId =>
    rcases update_eq_or l.transferIdForRequest requestId R transferId with he | ⟨rfl, he⟩
    · exact .inl he
    · exact .inr (by simp only [apply, he])
  | _ => exact .inl rfl

theorem roomKeyForRequest_apply (l : Ledger) (a : Act) (R : Bytes32) :
    (l.apply a).roomKeyForRequest R = l.roomKeyForRequest R ∨
      a = .roomBound R ((l.apply a).roomKeyForRequest R) := by
  cases a with
  | roomBound requestId roomKey =>
    rcases update_eq_or l.roomKeyForRequest requestId R roomKey with he | ⟨rfl, he⟩
    · exact .inl he
    · exact .inr (by simp only [apply, he])
  | _ => exact .inl rfl

theorem jobs_apply (l : Ledger) (a : Act) (R : Bytes32) :
    (l.apply a).jobs R = l.jobs R ∨ a = .jobRecorded R ((l.apply a).jobs R) := by
  cases a with
  | jobRecorded requestId job =>
    rcases update_eq_or l.jobs requestId R job with he | ⟨rfl, he⟩
    · exact .inl he
    · exact .inr (by simp only [apply, he])
  | _ => exact .inl rfl

structure AnsweredOnce (l : Ledger) (R : Bytes32) : Prop where
  transferRoom : l.transferIdForRequest R = 0 ∨ l.roomKeyForRequest R = 0
  transferJob : l.transferIdForRequest R = 0 ∨ (l.jobs R).status = .none
  roomJob : l.roomKeyForRequest R = 0 ∨ (l.jobs R).status = .none

theorem not_isAnswered {R : Bytes32} : ¬ l.isAnswered R ↔
    l.transferIdForRequest R = 0 ∧ l.roomKeyForRequest R = 0 ∧ (l.jobs R).status = .none := by
  simp only [isAnswered, not_or, not_not]

theorem met_apply (h : (l.apply a).Met d) : l.Met d ∨ a.meets = some d := by
  cases d with
  | transfer requestId =>
    rcases h with hT | hK | hJ
    · rcases transferIdForRequest_apply l a requestId with he | he
      · exact .inl (.inl (he ▸ hT))
      · exact .inr (he ▸ rfl)
    · rcases roomKeyForRequest_apply l a requestId with he | he
      · exact .inl (.inr (.inl (he ▸ hK)))
      · exact .inr (he ▸ rfl)
    · rcases jobs_apply l a requestId with he | he
      · exact .inl (.inr (.inr (he ▸ hJ)))
      · exact .inr (he ▸ rfl)
  | receipt transferId =>
    rcases receipts_apply l a transferId with he | he | ⟨R, -, he⟩
    · exact .inl fun hn => h (by rw [he]; exact hn)
    · exact .inr (he ▸ rfl)
    · exact .inl fun hn => h (by rw [he]; exact hn)
  | room roomKey =>
    rcases roomReceipts_apply l a roomKey with he | he
    · exact .inl fun hn => h (by rw [he]; exact hn)
    · exact .inr (he ▸ rfl)

theorem Open.apply (h : (l.apply a).Open H d) :
    l.Open H d ∨ ∃ k request, a = .opened k request ∧ request.demand H = some d := by
  obtain ⟨k, hk⟩ := h
  rcases openRequests_apply l a k with he | he | he
  · exact .inl ⟨k, he ▸ hk⟩
  · rw [he] at hk
    cases hk
  · exact .inr ⟨k, _, he, hk⟩

theorem Allowed.not_open (h : l.Allowed H a) (hd : a.meets = some d) : ¬ l.Open H d := by
  cases a with
  | recorded transferId receipt =>
    cases hd
    exact h.2.1
  | bound requestId transferId =>
    cases hd
    exact h.2.2.1
  | roomRecorded roomKey receipt =>
    cases hd
    exact h.2.1
  | roomBound requestId roomKey =>
    cases hd
    exact h.2.1
  | jobRecorded requestId job =>
    cases hd
    exact h.2.1
  | _ => cases hd

theorem Allowed.not_met (h : l.Allowed H a) (hd : a.meets = some d) : ¬ l.Met d := by
  cases a with
  | recorded transferId receipt =>
    cases hd
    exact h.1
  | bound requestId transferId =>
    cases hd
    exact h.2.1
  | roomRecorded roomKey receipt =>
    cases hd
    exact h.1
  | roomBound requestId roomKey =>
    cases hd
    exact h.1
  | jobRecorded requestId job =>
    cases hd
    exact h.1
  | _ => cases hd

theorem Allowed.unmet (h : l.Allowed H a) (hu : ∀ d, l.Open H d → ¬ l.Met d) :
    ∀ d, (l.apply a).Open H d → ¬ (l.apply a).Met d := by
  intro d hopen hmet
  rcases hopen.apply with hopen | ⟨k, request, rfl, hd⟩
  · rcases met_apply hmet with hmet | hmeets
    · exact hu d hopen hmet
    · exact h.not_open hmeets hopen
  · obtain ⟨d', hd', hun⟩ := h
    rw [hd, Option.some.injEq] at hd'
    subst hd'
    exact hun hmet

theorem Allowed.answeredOnce (h : l.Allowed H a) {R : Bytes32} (hR : l.AnsweredOnce R) :
    (l.apply a).AnsweredOnce R := by
  -- an action that binds `R` found it unanswered, so the two other kinds are still unset
  rcases transferIdForRequest_apply l a R with hT | hT
  · rcases roomKeyForRequest_apply l a R with hK | hK
    · rcases jobs_apply l a R with hJ | hJ
      · exact ⟨hT ▸ hK ▸ hR.1, hT ▸ hJ ▸ hR.2, hK ▸ hJ ▸ hR.3⟩
      · obtain ⟨hT0, hK0, -⟩ := not_isAnswered.mp (h.not_met (d := .transfer R) (by rw [hJ]; rfl))
        exact ⟨.inl (hT ▸ hT0), .inl (hT ▸ hT0), .inl (hK ▸ hK0)⟩
    · obtain ⟨hT0, -, hJ0⟩ := not_isAnswered.mp (h.not_met (d := .transfer R) (by rw [hK]; rfl))
      have hJ : (l.apply a).jobs R = l.jobs R := by rw [hK]; rfl
      exact ⟨.inl (hT ▸ hT0), .inl (hT ▸ hT0), .inr (hJ ▸ hJ0)⟩
  · obtain ⟨-, hK0, hJ0⟩ := not_isAnswered.mp (h.not_met (d := .transfer R) (by rw [hT]; rfl))
    have hK : (l.apply a).roomKeyForRequest R = l.roomKeyForRequest R := by rw [hT]; rfl
    have hJ : (l.apply a).jobs R = l.jobs R := by rw [hT]; rfl
    exact ⟨.inr (hK ▸ hK0), .inr (hJ ▸ hJ0), .inl (hK ▸ hK0)⟩

structure Linked (l : Ledger) : Prop where
  bound : ∀ R, l.transferIdForRequest R ≠ 0 → l.Met (.receipt (l.transferIdForRequest R))
  named : ∀ T, (l.receipts T).requestId ≠ 0 → T ≠ 0 ∧
    l.transferIdForRequest (l.receipts T).requestId = T
  roomBound : ∀ R, l.roomKeyForRequest R ≠ 0 → l.Met (.room (l.roomKeyForRequest R))
  job : ∀ R, (l.jobs R).status ≠ .none → l.JobAgrees (l.jobs R)

theorem JobAgrees.keeps {j : JobResult} (h : l.JobAgrees j) (hk : l.Keeps l') : l'.JobAgrees j := by
  have hi := hk.room _ h.input
  have ho := hk.room _ h.output
  refine ⟨h.distinct, ?_, ?_, ?_, ?_, ?_, ?_⟩
  · exact hi ▸ h.input
  · exact ho ▸ h.output
  · exact hi ▸ h.inputManifest
  · exact ho ▸ h.outputManifest
  · rw [hi, ho]
    exact h.status
  · rw [hi, ho]
    exact h.level

theorem Allowed.linked (h : l.Allowed H a) (hl : l.Linked) : (l.apply a).Linked where
  bound R hR := by
    rcases transferIdForRequest_apply l a R with he | he
    · rw [he] at hR ⊢
      exact h.keeps.met (hl.bound R hR)
    · have hb : l.Allowed H (.bound R ((l.apply a).transferIdForRequest R)) := he ▸ h
      exact h.keeps.met hb.2.2.2
  named T hT := by
    rcases receipts_apply l a T with he | he | ⟨R, he, hr⟩
    · rw [he] at hT ⊢
      obtain ⟨hT0, hb⟩ := hl.named T hT
      exact ⟨hT0, (h.keeps.transferId _ (hb.symm ▸ hT0)).trans hb⟩
    · have hb : l.Allowed H (.recorded T ((l.apply a).receipts T)) := he ▸ h
      exact absurd hb.2.2.2.1 hT
    · have hb : l.Allowed H (.linked T R) := he ▸ h
      rw [hr]
      exact ⟨hb.1, (h.keeps.transferId R (hb.2.2.2.symm ▸ hb.1)).trans hb.2.2.2⟩
  roomBound R hR := by
    rcases roomKeyForRequest_apply l a R with he | he
    · rw [he] at hR ⊢
      exact h.keeps.met (hl.roomBound R hR)
    · have hb : l.Allowed H (.roomBound R ((l.apply a).roomKeyForRequest R)) := he ▸ h
      exact h.keeps.met hb.2.2
  job R hR := by
    rcases jobs_apply l a R with he | he
    · rw [he] at hR ⊢
      exact (hl.job R hR).keeps h.keeps
    · have hb : l.Allowed H (.jobRecorded R ((l.apply a).jobs R)) := he ▸ h
      exact hb.2.2.keeps h.keeps

structure LevelsOk (l : Ledger) : Prop where
  standard : ∀ T, (l.receipts T).status ≠ .none → (l.receipts T).level = l.standardReceiptLevel
  room : ∀ K, (l.roomReceipts K).status ≠ .none → l.RoomLevelOk (l.roomReceipts K)

theorem RoomLevelOk.congr {r : RoomReceipt} (h : l.RoomLevelOk r)
    (hd : l'.donAttested = l.donAttested) :
    l'.RoomLevelOk r := by
  refine ⟨?_, h.evidenceVersion, h.evidenceSha256⟩
  simp only [roomReceiptLevel, roomSignedReceiptLevel, attestationLevel, hd]
  exact h.level

theorem Allowed.levelsOk (h : l.Allowed H a) (hl : l.LevelsOk) : (l.apply a).LevelsOk where
  standard T hT := by
    have hlevel : (l.apply a).standardReceiptLevel = l.standardReceiptLevel := by
      simp only [standardReceiptLevel, attestationLevel, h.keeps.donAttested]
    rw [hlevel]
    rcases receipts_apply l a T with he | he | ⟨R, -, he⟩
    · rw [he] at hT ⊢
      exact hl.standard T hT
    · have hb : l.Allowed H (.recorded T ((l.apply a).receipts T)) := he ▸ h
      exact hb.2.2.2.2
    · rw [he] at hT ⊢
      exact hl.standard T hT
  room K hK := by
    rcases roomReceipts_apply l a K with he | he
    · rw [he] at hK ⊢
      exact (hl.room K hK).congr h.keeps.donAttested
    · have hb : l.Allowed H (.roomRecorded K ((l.apply a).roomReceipts K)) := he ▸ h
      exact hb.2.2.2.congr h.keeps.donAttested

structure Sound (H : Hashes) (l : Ledger) : Prop where
  unmet : ∀ d, l.Open H d → ¬ l.Met d
  answeredOnce : ∀ R, l.AnsweredOnce R
  linked : l.Linked
  levelsOk : l.LevelsOk

theorem blank_sound (H : Hashes) (don : Bool) : (blank don).Sound H where
  unmet d hd := by
    obtain ⟨k, hk⟩ := hd
    cases hk
  answeredOnce R := ⟨.inl rfl, .inl rfl, .inl rfl⟩
  linked :=
    ⟨fun _ h => absurd rfl h, fun _ h => absurd rfl h, fun _ h => absurd rfl h, fun _ h =>
      absurd rfl h⟩
  levelsOk := ⟨fun _ h => absurd rfl h, fun _ h => absurd rfl h⟩

theorem Allowed.sound (h : l.Allowed H a) (hs : l.Sound H) : (l.apply a).Sound H where
  unmet := h.unmet hs.unmet
  answeredOnce R := h.answeredOnce (hs.answeredOnce R)
  linked := h.linked hs.linked
  levelsOk := h.levelsOk hs.levelsOk

theorem later_sound (hs : l.Sound H) (h : (ledger H).Later l l') : l'.Sound H := by
  refine h.invariant (I := Sound H) ?_ hs
  rintro l a _ hs ⟨hallowed, rfl⟩
  exact hallowed.sound hs

theorem reachable_sound (h : (ledger H).Reachable l) : l.Sound H := by
  obtain ⟨l₀, ⟨don, rfl⟩, hl⟩ := h
  exact later_sound (blank_sound H don) hl

end Ledger
end Beam.Contract
