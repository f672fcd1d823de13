import BeamSdk.Web.Handle

/-! An open handle is served: its stream is on, or polling has taken over. -/

namespace Beam.Web
namespace Handle
variable {π : Type*} {maxAttempts : ℕ}

def Attempting (h : Handle π) : Prop := h.stream = .connecting ∨ h.stream = .reading ∨
    h.stream = .waiting

def Polling (h : Handle π) : Prop := h.poll ≠ .none ∧ h.poll ≠ .finished

def Served (h : Handle π) : Prop :=
  h.closed = false → h.settlement = none → h.Attempting ∨ h.stream = .rejected ∨ h.Polling

def HandsOver (maxAttempts : ℕ) (h : Handle π) : Prop :=
  h.closed = false → h.Attempting → h.ended = 0 ∨ h.ended < maxAttempts

def Reconnected (h : Handle π) : Prop := h.attempt < h.ended

end Handle

def Happening.failure {π : Type*} : Happening π → Option (Option ConnectFailure)
  | .refused failure => some (some failure)
  | .event .null _ => some (some (.error true))
  | .streamEnded => some none
  | .interrupted => some (some (.error true))
  | _ => none

namespace Handle
variable {π : Type*} {maxAttempts : ℕ}

/-- The end of an attempt that an open handle does not cope with: an abort it has not made, an
orderly end of the only attempt, or the last attempt of a stream that has reconnected. -/
def Strands (maxAttempts : ℕ) (h : Handle π) (happening : Happening π) : Prop :=
  h.closed = false ∧ ∃ failure, happening.failure = some failure
    ∧ (failure = some .abort
      ∨ failure = none ∧ maxAttempts ≤ 1
      ∨ failure ≠ some (.error false) ∧ h.Reconnected ∧ maxAttempts ≤ h.ended + 1)

instance (h : Handle π) : Decidable h.Reconnected := inferInstanceAs (Decidable (_ < _))

instance (h : Handle π) : Decidable h.Attempting := inferInstanceAs (Decidable (_ ∨ _ ∨ _))

structure Watched (h : Handle π) : Prop where
  unsettled : h.closed = false → h.settlement = none
  begun : h.closed = false → h.stream ≠ .none
  unpolled : h.Attempting ∨ h.stream = .rejected → h.poll = .none
  reset : h.stream = .reading → h.attempt = 0
  counted : h.attempt ≤ h.ended

theorem start_watched (transfer : Transfer π) : Watched (start transfer) := by
  unfold start
  simp only
  split
  · have hwatch :=
      settle_watch (π := π)
        ⟨transfer, false, none, .none, 0, 0, .none, [], [], false, false⟩ transfer
      fun _ => false
    simp only [watch, Prod.mk.injEq] at hwatch
    obtain ⟨hstream, hattempt, hended, hpoll⟩ := hwatch
    refine ⟨?_, ?_, fun _ => hpoll, ?_, by rw [hattempt, hended]⟩
    · simp [settle_closed]
    · simp [settle_closed]
    · simp [hstream]
  · exact ⟨fun _ => rfl, by simp, fun _ => rfl, by simp, le_rfl⟩

/-- A step that leaves the stream and the polling where they are, and the promise of an open handle
as it is. -/
theorem Watched.of_watch {h h' : Handle π} (hwatched : Watched h) (hwatch : h'.watch = h.watch)
    (hopen : h'.closed = false → h.closed = false ∧ h'.settlement = h.settlement) : Watched h' := by
  simp only [watch, Prod.mk.injEq] at hwatch
  obtain ⟨hstream, hattempt, hended, hpoll⟩ := hwatch
  refine ⟨?_, ?_, ?_, ?_, ?_⟩
  · intro h
    rw [(hopen h).2]
    exact hwatched.unsettled (hopen h).1
  · intro h
    rw [hstream]
    exact hwatched.begun (hopen h).1
  · unfold Attempting
    rw [hstream, hpoll]
    exact hwatched.unpolled
  · rw [hstream, hattempt]
    exact hwatched.reset
  · rw [hattempt, hended]
    exact hwatched.counted

theorem Served.of_watch {h h' : Handle π} (hserved : Served h) (hwatch : h'.watch = h.watch)
    (hopen : h'.closed = false → h.closed = false ∧ h'.settlement = h.settlement) : Served h' := by
  simp only [watch, Prod.mk.injEq] at hwatch
  obtain ⟨hstream, -, -, hpoll⟩ := hwatch
  intro h hnone
  have hbefore := hserved (hopen h).1 ((hopen h).2 ▸ hnone)
  unfold Attempting Polling at hbefore ⊢
  rw [hstream, hpoll]
  exact hbefore

theorem HandsOver.of_watch {h h' : Handle π} (hover : HandsOver maxAttempts h)
    (hwatch : h'.watch = h.watch)
    (hopen : h'.closed = false → h.closed = false ∧ h'.settlement = h.settlement) :
      HandsOver maxAttempts h' := by
  simp only [watch, Prod.mk.injEq] at hwatch
  obtain ⟨hstream, -, hended, -⟩ := hwatch
  intro h hattempting
  unfold Attempting at hattempting
  rw [hstream] at hattempting
  rw [hended]
  exact hover (hopen h).1 hattempting

theorem attemptEnded_spec {h : Handle π} (hwatched : Watched h) (hactive : h.stream =
    .connecting ∨ h.stream = .reading)
    (hover : HandsOver maxAttempts h) (failure : Option ConnectFailure) (horderly : failure =
      none → h.stream = .reading) :
    Watched (h.attemptEnded maxAttempts failure)
      ∧ (Served
        (h.attemptEnded maxAttempts failure) ∧
          HandsOver maxAttempts (h.attemptEnded maxAttempts failure)
        ↔ ¬ (h.closed = false ∧ (failure = some .abort ∨ failure = none ∧ maxAttempts ≤ 1
          ∨ failure ≠ some (.error false) ∧ h.Reconnected ∧ maxAttempts ≤ h.ended + 1))) := by
  have hpoll : h.poll = .none := hwatched.unpolled (by
    rcases hactive with hactive | hactive
    · exact .inl (.inl hactive)
    · exact .inl (.inr (.inl hactive)))
  have hcounted := hwatched.counted
  -- The stream's phase afterwards settles everything: `finished` serves nobody.
  have hspec : ∀ (stream : StreamPhase) (attempt : ℕ), stream = .finished ∨ stream =
      .rejected ∨ stream = .waiting →
      attempt ≤ h.ended + 1 →
      Watched { h with stream, attempt, ended := h.ended + 1 }
        ∧ (Served { h with stream, attempt, ended := h.ended + 1 } ↔ (h.closed =
          false → stream ≠ .finished))
        ∧ (HandsOver maxAttempts { h with stream, attempt, ended := h.ended + 1 }
          ↔ (h.closed = false → stream = .waiting → h.ended + 1 < maxAttempts)) := by
    intro stream attempt hstream hattempt
    refine ⟨⟨hwatched.unsettled, ?_, fun _ => hpoll, ?_, hattempt⟩, ?_, ?_⟩
    · rintro - rfl
      simp at hstream
    · rintro rfl
      simp at hstream
    · unfold Served Attempting Polling
      simp only [hpoll]
      constructor
      · rintro hserved hopen rfl
        simpa using hserved hopen (hwatched.unsettled hopen)
      · intro hstays hopen _
        rcases hstream with rfl | rfl | rfl
        · exact absurd rfl (hstays hopen)
        · exact .inr (.inl rfl)
        · exact .inl (.inr (.inr rfl))
    · unfold HandsOver Attempting
      rcases hstream with rfl | rfl | rfl <;> simp
  have hattempt : h.attempt ≤ h.ended + 1 := by omega
  unfold attemptEnded
  simp only
  by_cases habort : h.closed = true ∨ failure = some .abort
  · obtain ⟨hkept, hserved, hhands⟩ := hspec .finished h.attempt (.inl rfl) hattempt
    rw [if_pos habort]
    refine ⟨hkept, ?_⟩
    rw [hserved, hhands]
    rcases habort with hclosed | rfl
    · simp [hclosed]
    · simp
  obtain ⟨hopen, habort⟩ := not_or.mp habort
  have hopen : h.closed = false := by simpa using hopen
  rw [if_neg (by simp [hopen, habort])]
  by_cases hfinal : failure = some (.error false)
  · obtain ⟨hkept, hserved, hhands⟩ := hspec .rejected h.attempt (.inr (.inl rfl)) hattempt
    rw [if_pos hfinal]
    refine ⟨hkept, ?_⟩
    rw [hserved, hhands]
    simp [hfinal]
  rw [if_neg hfinal]
  by_cases hlast : maxAttempts ≤ h.attempt + 1
  · rw [if_pos hlast]
    have hnever : ¬ (h.Reconnected ∧ maxAttempts ≤ h.ended + 1) := by
      rintro ⟨hreconnected, -⟩
      have hattempting : h.Attempting := by
        rcases hactive with hactive | hactive
        · exact .inl hactive
        · exact .inr (.inl hactive)
      have hbound := hover hopen hattempting
      unfold Reconnected at hreconnected
      omega
    by_cases hfailed : failure = none
    · obtain ⟨hkept, hserved, hhands⟩ := hspec .finished (h.attempt + 1) (.inl rfl) (by omega)
      have hmax : maxAttempts ≤ 1 := by
        have hreset := hwatched.reset (horderly hfailed)
        omega
      subst hfailed
      refine ⟨hkept, ?_⟩
      change Served { h with stream := .finished, attempt := h.attempt + 1, ended := h.ended + 1 }
        ∧ HandsOver maxAttempts { h with
          stream := .finished, attempt := h.attempt + 1, ended := h.ended + 1 } ↔ _
      rw [hserved, hhands]
      simp [hopen, hmax]
    · obtain ⟨hkept, hserved, hhands⟩ := hspec .rejected (h.attempt + 1) (.inr (.inl rfl))
        (by omega)
      have hsome : failure.isSome = true := Option.isSome_iff_ne_none.mpr hfailed
      rw [hsome]
      refine ⟨hkept, ?_⟩
      change Served { h with stream := .rejected, attempt := h.attempt + 1, ended := h.ended + 1 }
        ∧ HandsOver maxAttempts { h with
          stream := .rejected, attempt := h.attempt + 1, ended := h.ended + 1 } ↔ _
      rw [hserved, hhands]
      simp [habort, hfailed, hnever]
  · obtain ⟨hkept, hserved, hhands⟩ := hspec .waiting (h.attempt + 1) (.inr (.inr rfl)) (by omega)
    rw [if_neg hlast]
    refine ⟨hkept, ?_⟩
    rw [hserved, hhands]
    have hmax : ¬ maxAttempts ≤ 1 := by omega
    have hsame : h.ended + 1 < maxAttempts ↔ ¬ (h.Reconnected ∧ maxAttempts ≤ h.ended + 1) := by
      unfold Reconnected
      omega
    simpa [hopen, habort, hfinal, hmax] using hsame

theorem not_strands {h : Handle π} {happening : Happening π} (hnone : happening.failure = none) :
    ¬ Strands maxAttempts h happening := by
  rintro ⟨-, failure, hfailure, -⟩
  rw [hnone] at hfailure
  cases hfailure

theorem strands_iff {h : Handle π} {happening : Happening π} {failure : Option ConnectFailure}
    (hfailure : happening.failure = some failure) : Strands maxAttempts h happening ↔
      h.closed = false
      ∧ (failure = some .abort ∨ failure = none ∧ maxAttempts ≤ 1
        ∨ failure ≠ some (.error false) ∧ h.Reconnected ∧ maxAttempts ≤ h.ended + 1) := by
  simp [Strands, hfailure]

instance (h : Handle π) (happening : Happening π) : Decidable (Strands maxAttempts h happening) :=
  match hfailure : happening.failure with
  | none => isFalse (not_strands hfailure)
  | some _ => decidable_of_iff _ (strands_iff hfailure).symm

theorem step_served {h h' : Handle π} {happening : Happening π} (hwatched : Watched h)
    (hgood : Served h ∧ HandsOver maxAttempts h) (hstep : h.step maxAttempts happening = some h') :
    Watched h' ∧ (Served h' ∧ HandsOver maxAttempts h' ↔ ¬ Strands maxAttempts h happening) := by
  obtain ⟨hserved, hover⟩ := hgood
  have hsame : ∀ {h' : Handle π}, happening.failure = none → h'.watch = h.watch →
      (h'.closed = false → h.closed = false ∧ h'.settlement = h.settlement) →
      Watched h' ∧ (Served h' ∧ HandsOver maxAttempts h' ↔ ¬ Strands maxAttempts h happening) :=
    fun hnone hwatch hopen => ⟨hwatched.of_watch hwatch hopen,
      iff_of_true ⟨hserved.of_watch hwatch hopen, hover.of_watch hwatch hopen⟩ (not_strands hnone)⟩
  have hends : ∀ {failure : Option ConnectFailure}, happening.failure = some failure →
      h.stream = .connecting ∨ h.stream = .reading → (failure = none → h.stream = .reading) →
      h' = h.attemptEnded maxAttempts failure →
      Watched h' ∧ (Served h' ∧ HandsOver maxAttempts h' ↔ ¬ Strands maxAttempts h happening) := by
    rintro failure hfailure hactive horderly rfl
    rw [strands_iff hfailure]
    exact attemptEnded_spec hwatched hactive hover failure horderly
  have hpolls : ∀ {h' : Handle π}, happening.failure = none → h.Polling → h'.stream = h.stream →
      h'.attempt = h.attempt →
      h'.ended = h.ended →
      (h'.closed = false → h.closed = false ∧ h'.settlement = h.settlement ∧ h'.Polling) →
      Watched h' ∧ (Served h' ∧ HandsOver maxAttempts h' ↔ ¬ Strands maxAttempts h happening) := by
    intro h' hnone hpolling hstream hattempt hended hopen
    have hidle : ¬ (h.Attempting ∨ h.stream = .rejected) :=
      fun hactive => hpolling.1 (hwatched.unpolled hactive)
    obtain ⟨hnot, hnot'⟩ := not_or.mp hidle
    have hattempting : ¬ h'.Attempting := by
      unfold Attempting at hnot ⊢
      rwa [hstream]
    refine ⟨⟨?_, ?_, ?_, ?_, ?_⟩, iff_of_true ⟨?_, ?_⟩ (not_strands hnone)⟩
    · intro hclosed
      rw [(hopen hclosed).2.1]
      exact hwatched.unsettled (hopen hclosed).1
    · intro hclosed
      rw [hstream]
      exact hwatched.begun (hopen hclosed).1
    · rw [hstream]
      exact fun hactive => absurd hactive (not_or.mpr ⟨hattempting, hnot'⟩)
    · rw [hstream, hattempt]
      exact hwatched.reset
    · rw [hattempt, hended]
      exact hwatched.counted
    · exact fun hclosed _ => .inr (.inr (hopen hclosed).2.2)
    · exact fun _ hactive => absurd hactive hattempting
  cases happening with
  | connected =>
    simp only [step, Option.ite_none_right_eq_some, Option.some.injEq] at hstep
    obtain ⟨hconnecting, rfl⟩ := hstep
    have hpoll : h.poll = .none := hwatched.unpolled (.inl (.inl hconnecting))
    refine ⟨⟨hwatched.unsettled, by simp, fun _ => hpoll, fun _ => rfl, Nat.zero_le _⟩,
      iff_of_true ⟨?_, ?_⟩ (not_strands rfl)⟩
    · exact fun _ _ => .inl (.inr (.inl rfl))
    · exact fun hopen _ => hover hopen (.inl hconnecting)
  | refused failure =>
    simp only [step, Option.ite_none_right_eq_some, Option.some.injEq] at hstep
    exact hends rfl (.inl hstep.1) (by simp) hstep.2.symm
  | event data closes =>
    simp only [step, Option.ite_none_right_eq_some] at hstep
    obtain ⟨hreading, hstep⟩ := hstep
    cases data with
    | malformed =>
      obtain rfl := Option.some.inj hstep
      exact hsame rfl rfl fun hopen => ⟨hopen, rfl⟩
    | null => exact hends rfl (.inr hreading) (by simp) (Option.some.inj hstep).symm
    | transfer wire =>
      obtain rfl := Option.some.inj hstep
      exact hsame rfl (apply_watch _ _ _) apply_open
  | streamEnded =>
    simp only [step, Option.ite_none_right_eq_some, Option.some.injEq] at hstep
    exact hends rfl (.inr hstep.1) (fun _ => hstep.1) hstep.2.symm
  | interrupted =>
    simp only [step, Option.ite_none_right_eq_some, Option.some.injEq] at hstep
    exact hends rfl (.inr hstep.1) (by simp) hstep.2.symm
  | delayElapsed =>
    simp only [step, Option.ite_none_right_eq_some, Option.some.injEq] at hstep
    obtain ⟨hwaiting, rfl⟩ := hstep
    have hpoll : h.poll = .none := hwatched.unpolled (.inl (.inr (.inr hwaiting)))
    refine ⟨⟨hwatched.unsettled, ?_, fun _ => hpoll, ?_, hwatched.counted⟩,
      iff_of_true ⟨?_, ?_⟩ (not_strands rfl)⟩
    · intro hopen
      simp [show h.closed = false from hopen]
    · cases hclosed : h.closed <;> simp
    · intro hopen _
      exact .inl (.inl (by simp [show h.closed = false from hopen]))
    · exact fun hopen _ => hover hopen (.inr (.inr hwaiting))
  | streamRejected closes =>
    simp only [step, Option.ite_none_right_eq_some] at hstep
    obtain ⟨hrejected, hstep⟩ := hstep
    have hpoll : h.poll = .none := hwatched.unpolled (.inr hrejected)
    cases hclosed : h.closed with
    | true =>
      simp only [hclosed, if_true, Option.some.injEq] at hstep
      subst hstep
      refine ⟨⟨?_, ?_, ?_, ?_, hwatched.counted⟩, iff_of_true ⟨?_, ?_⟩ (not_strands rfl)⟩ <;>
        simp [Attempting, Served, HandsOver]
    | false =>
      simp only [hclosed, Bool.false_eq_true, if_false, Option.some.injEq] at hstep
      subst hstep
      have hwatch := emit_watch { h with stream := .finished } .error closes
      have hsettlement := emit_settlement { h with stream := .finished } .error closes
      simp only [hclosed] at hwatch hsettlement
      simp only [watch, Prod.mk.injEq] at hwatch
      obtain ⟨hstream, hattempt, hended, -⟩ := hwatch
      refine ⟨⟨?_, ?_, ?_, ?_, ?_⟩, iff_of_true ⟨?_, ?_⟩ (not_strands rfl)⟩
      · intro _
        exact hsettlement.trans (hwatched.unsettled hclosed)
      · simp [hstream]
      · simp [Attempting, hstream]
      · simp [hstream]
      · simpa [hattempt, hended] using hwatched.counted
      · intro hopen _
        simp only at hopen
        exact .inr (.inr (by simp [Polling, hopen]))
      · simp [HandsOver, Attempting, hstream]
  | pollDue =>
    simp only [step] at hstep
    split at hstep
    · rename_i hasleep
      obtain rfl := Option.some.inj hstep
      refine hpolls rfl (by simp [Polling, hasleep]) rfl rfl rfl fun hopen => ⟨hopen, rfl, ?_⟩
      simp [Polling, show h.closed = false from hopen]
    · cases hstep
  | pollAnswered wire =>
    simp only [step] at hstep
    split at hstep
    · rename_i hasking
      obtain rfl := Option.some.inj hstep
      exact hpolls rfl (by simp [Polling, hasking]) rfl rfl rfl fun hopen =>
        ⟨hopen, rfl, by simp [Polling]⟩
    · cases hstep
  | pollFailed =>
    simp only [step] at hstep
    split at hstep
    · rename_i hasking
      obtain rfl := Option.some.inj hstep
      refine hpolls rfl (by simp [Polling, hasking]) rfl rfl rfl fun hopen => ⟨hopen, rfl, ?_⟩
      simp [Polling, show h.closed = false from hopen]
    · cases hstep
  | pollApplied closes =>
    simp only [step] at hstep
    split at hstep
    · rename_i next hanswered
      obtain rfl := Option.some.inj hstep
      have hwatch := apply_watch h next closes
      simp only [watch, Prod.mk.injEq] at hwatch
      refine hpolls rfl (by simp [Polling, hanswered]) hwatch.1 hwatch.2.1 hwatch.2.2.1 fun hopen =>
        ?_
      obtain ⟨hclosed, hsettlement⟩ := apply_open hopen
      exact ⟨hclosed, hsettlement,
        by simp [Polling, show (h.apply next closes).closed = false from hopen]⟩
    · cases hstep
  | refreshed wire =>
    obtain rfl := Option.some.inj hstep
    exact hsame rfl rfl fun hopen => ⟨hopen, rfl⟩
  | cancelled =>
    obtain rfl := Option.some.inj hstep
    exact hsame rfl rfl fun hopen => ⟨hopen, rfl⟩
  | closeCalled =>
    obtain rfl := Option.some.inj hstep
    exact hsame rfl (close_watch _) (by simp [close_closed])
  | listened name =>
    obtain rfl := Option.some.inj hstep
    exact hsame rfl rfl fun hopen => ⟨hopen, rfl⟩

/-- An open handle is served, and its stream hands over in time, all along a run exactly where no
step of it strands the handle. -/
theorem always_served {transfer : Transfer π} {happenings : List (Happening π)} {h : Handle π}
    (hrun : Run.after (step maxAttempts) (start transfer) happenings = some h) :
    Run.Always (step maxAttempts) (start transfer) happenings
      (fun h => Served h ∧ HandsOver maxAttempts h)
      ↔ Run.Never (step maxAttempts) (start transfer) happenings (Strands maxAttempts) := by
  have hstart : Served (start transfer) ∧ HandsOver maxAttempts (start transfer) := by
    unfold start
    simp only
    split
    · constructor
      · simp [Served, settle_closed]
      · simp [HandsOver, settle_closed]
    · exact ⟨fun _ _ => .inl (.inl rfl), fun _ _ => .inl rfl⟩
  exact Run.always_iff_never (fun u i v hwatched hgood hstep => step_served hwatched hgood hstep)
    (start_watched transfer) hstart hrun

def runningTransfer : Transfer Unit := ⟨.running, none, none⟩

def fallback : List (Happening Unit) :=
  [.refused (.error true), .delayElapsed, .refused (.error true), .delayElapsed,
    .refused (.error true),
    .streamRejected fun _ => false, .pollDue, .pollAnswered ⟨some "completed", none, none⟩,
      .pollApplied fun _ => false]

def streamAttempts : ℕ := 3

theorem fallback_served : Run.Always (step streamAttempts) (start runningTransfer) fallback
    (fun h => Served h ∧ HandsOver streamAttempts h) := by
  obtain ⟨h, hrun⟩ : ∃ h, Run.after (step streamAttempts)
      (start runningTransfer) fallback = some h := ⟨_, rfl⟩
  exact (always_served hrun).mpr (Run.never_of_check (by decide))

/-- An abort from below leaves an open handle with nothing, and a stream that always connects is
never given up. -/
theorem stranded :
    (∃ h, Run.after (step streamAttempts) (start runningTransfer)
    [.refused .abort] = some h ∧ ¬ Served h)
    ∧ ∃ h, Run.after (step streamAttempts) (start runningTransfer)
      [.connected, .interrupted, .delayElapsed, .connected,
      .streamEnded, .delayElapsed, .connected, .interrupted, .delayElapsed] = some h ∧
        ¬ HandsOver streamAttempts h := by
  constructor
  · refine ⟨_, rfl, fun hserved => ?_⟩
    have hserved := hserved rfl rfl
    simp [Attempting, Polling, attemptEnded, start, runningTransfer, TERMINAL_STATUSES] at hserved
  · refine ⟨_, rfl, fun hover => ?_⟩
    have hover := hover rfl (.inl rfl)
    revert hover
    decide

end Handle
end Beam.Web
