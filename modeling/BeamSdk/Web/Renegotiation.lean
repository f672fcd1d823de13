import BeamSdk.Library.Run

/-! The queue that a room session negotiates through: bursts of requests for one negotiation
collapse into one more. -/

namespace Beam.Web.Renegotiation

/-- Where a call of `drain` awaits: the connection to be stable, or its run. -/
inductive Place
  | wait (waited : ℕ)
  | run
  deriving DecidableEq

/-- `drains` are the calls of `drain` that are under way and `starts` counts the runs that were
begun. -/
structure RenegotiationQueue where
  running : Bool
  pending : Bool
  closed : Bool
  drains : List Place
  starts : ℕ

inductive Call
  | schedule
  | close
  deriving DecidableEq

/-- Each with what `isStable` says when it is asked next, and an await that ends with the `drain`
it is of. -/
inductive Step
  | schedule (stable : Bool)
  | close
  | waited (i : ℕ) (stable : Bool)
  | completed (i : ℕ) (stable : Bool)
  | failed (i : ℕ) (calls : List Call) (stable : Bool)

namespace RenegotiationQueue

def initial : RenegotiationQueue := ⟨false, false, false, [], 0⟩

def leave (q : RenegotiationQueue) (i : ℕ) : RenegotiationQueue :=
  { q with running := false, drains := q.drains.eraseIdx i }

/-- `drain` from where it asks whether the connection is stable. -/
def resume (q : RenegotiationQueue) (i waited : ℕ) (stable : Bool) : RenegotiationQueue :=
  if !stable && waited < 5000 then
    if q.closed then q.leave i else { q with drains := q.drains.set i (.wait waited) }
  else if q.closed then q.leave i
  else { q with drains := q.drains.set i .run, starts := q.starts + 1 }

def drain (q : RenegotiationQueue) (stable : Bool) : RenegotiationQueue :=
  if q.closed || q.running then q
  else
    { q with running := true, pending := false, drains := q.drains ++ [Place.wait 0] }.resume
      q.drains.length 0 stable

def schedule (q : RenegotiationQueue) (stable : Bool) : RenegotiationQueue :=
  if q.closed then q
  else if q.running then { q with pending := true }
  else q.drain stable

def close (q : RenegotiationQueue) : RenegotiationQueue :=
    { q with closed := true, pending := false }

def settle (q : RenegotiationQueue) (i : ℕ) (stable : Bool) : RenegotiationQueue :=
  if q.pending && !q.closed then { q with pending := false }.resume i 0 stable else q.leave i

def call (stable : Bool) (q : RenegotiationQueue) : Call → RenegotiationQueue
  | .schedule => q.schedule stable
  | .close => q.close

def step (q : RenegotiationQueue) : Step → Option RenegotiationQueue
  | .schedule stable => some (q.schedule stable)
  | .close => some q.close
  | .waited i stable =>
    match q.drains[i]? with
    | some (.wait waited) => some (q.resume i (waited + 100) stable)
    | _ => none
  | .completed i stable => if q.drains[i]? = some .run then some (q.settle i stable) else none
  | .failed i calls stable =>
    if q.drains[i]? = some .run then some ((calls.foldl (call stable) q).settle i stable) else none

end RenegotiationQueue

def Step.internal : Step → Bool
  | .schedule _ | .close => false
  | _ => true

def Step.closes : Step → Bool
  | .close => true
  | .failed _ calls _ => calls.contains .close
  | _ => false

def Step.quiet : Step → Bool
  | .schedule _ | .close => false
  | .failed _ calls _ => calls.isEmpty
  | _ => true

namespace RenegotiationQueue

structure Serves (q : RenegotiationQueue) : Prop where
  alone : q.drains.count .run ≤ 1
  -- after a request a run starts, unless the queue is closed first, once the awaits have ended
  -- that stand before it
  followed : ∀ stable steps q', q.closed = false →
    Run.after step q (.schedule stable :: steps) = some q' →
    (∀ i ∈ steps, i.closes = false) → q.starts < q'.starts ∨
      (q'.drains ≠ [] ∧ steps.countP Step.internal < 51)
  -- requests during a run lead to one more run, which is left once the others have ended
  collapsed : ∀ (requests : List Bool) steps q', q.closed = false → .run ∈ q.drains →
    requests ≠ [] →
    Run.after step q (requests.map .schedule ++ steps) = some q' → (∀ i ∈ steps, i.quiet = true) →
    q'.starts ≤ q.starts + 1 ∧ (q'.drains = [] → q'.starts = q.starts + 1)
  silent : ∀ steps q', q.closed = true → Run.after step q steps = some q' → q'.starts = q.starts
  failing : ∀ i stable, q.step (.failed i [] stable) = q.step (.completed i stable)

structure Sound (q : RenegotiationQueue) : Prop where
  one : q.drains = [] ∧ q.running = false ∧ q.pending = false ∨ ∃ place, q.drains = [place] ∧
    q.running = true
  closed : q.closed = true → q.pending = false
  soon : ∀ waited, .wait waited ∈ q.drains → waited < 5000

variable {q q' : RenegotiationQueue} {i : Step}

theorem Sound.only (h : Sound q) {j : ℕ} {place : Place} (hplace : q.drains[j]? = some place) :
    j = 0 ∧ q.drains = [place] ∧ q.running = true := by
  rcases h.one with ⟨hnone, -⟩ | ⟨place', hone, hrunning⟩
  · rw [hnone] at hplace
    cases hplace
  · rw [hone] at hplace
    obtain ⟨hlt, -⟩ := List.getElem?_eq_some_iff.mp hplace
    obtain rfl : j = 0 := Nat.lt_one_iff.mp hlt
    obtain rfl : place' = place := Option.some.inj hplace
    exact ⟨rfl, hone, hrunning⟩

theorem resume_cases {place : Place} (hone : q.drains = [place]) (waited : ℕ) (stable : Bool) :
    (q.closed = true ∧ q.resume 0 waited stable = { q with running := false, drains := [] })
    ∨ (q.closed = false ∧ waited < 5000 ∧
      q.resume 0 waited stable = { q with drains := [Place.wait waited] })
    ∨ (q.closed = false ∧ q.resume 0 waited stable =
      { q with drains := [Place.run], starts := q.starts + 1 }) := by
  have hleave : q.leave 0 = { q with running := false, drains := [] } := by
    rw [leave, hone]
    rfl
  have hset : ∀ place', q.drains.set 0 place' = [place'] := by
    intro place'
    rw [hone]
    rfl
  unfold resume
  rw [hset, hset, hleave]
  by_cases hclosed : q.closed = true
  · refine .inl ⟨hclosed, ?_⟩
    rw [if_pos hclosed, if_pos hclosed, ite_self]
  · have hopen : q.closed = false := by simpa using hclosed
    rw [if_neg hclosed, if_neg hclosed]
    split
    · rename_i hwaits
      simp only [Bool.and_eq_true, decide_eq_true_eq] at hwaits
      exact .inr (.inl ⟨hopen, hwaits.2, rfl⟩)
    · exact .inr (.inr ⟨hopen, rfl⟩)

theorem resume_sound {place : Place} (hone : q.drains = [place]) (hrunning : q.running = true)
    (hclosed : q.closed = true → q.pending = false) (waited : ℕ) (stable : Bool) :
      Sound (q.resume 0 waited stable) := by
  rcases resume_cases hone waited stable with ⟨hover, heq⟩ | ⟨-, hsoon, heq⟩ | ⟨-, heq⟩
  · rw [heq]
    exact ⟨.inl ⟨rfl, rfl, hclosed hover⟩, hclosed, nofun⟩
  · rw [heq]
    refine ⟨.inr ⟨_, rfl, hrunning⟩, hclosed, fun waited' hmem => ?_⟩
    obtain rfl := Place.wait.inj (List.mem_singleton.mp hmem)
    exact hsoon
  · rw [heq]
    refine ⟨.inr ⟨_, rfl, hrunning⟩, hclosed, fun waited' hmem => ?_⟩
    cases List.mem_singleton.mp hmem

theorem schedule_cases (h : Sound q) (stable : Bool) :
    (q.closed = true ∧ q.schedule stable = q)
    ∨ (q.closed = false ∧ q.drains ≠ [] ∧ q.schedule stable = { q with pending := true })
    ∨ (q.closed = false ∧ q.drains = [] ∧ q.pending = false ∧
      q.schedule stable = { q with running := true, drains := [Place.wait 0] }.resume 0 0
        stable) := by
  unfold schedule
  cases hclosed : q.closed with
  | true => exact .inl ⟨rfl, rfl⟩
  | false =>
    rcases h.one with ⟨hnone, hidle, hpending⟩ | ⟨place, hone, hrunning⟩
    · refine .inr (.inr ⟨rfl, hnone, hpending, ?_⟩)
      rw [drain, hclosed, hidle, hnone]
      simp [hpending]
    · refine .inr (.inl ⟨rfl, ?_, ?_⟩)
      · simp [hone]
      · rw [hrunning]
        simp

theorem schedule_sound (h : Sound q) (stable : Bool) : Sound (q.schedule stable) := by
  rcases schedule_cases h stable with ⟨-, heq⟩ | ⟨hopen, hsome, heq⟩ | ⟨hopen, -, -, heq⟩
  · rw [heq]
    exact h
  · rw [heq]
    refine ⟨?_, fun hclosed => absurd (hopen.symm.trans hclosed) (by decide), h.soon⟩
    rcases h.one with ⟨hnone, -⟩ | hone
    · exact absurd hnone hsome
    · exact .inr hone
  · rw [heq]
    exact resume_sound (q := { q with running := true, drains := [Place.wait 0] })
      rfl rfl h.closed 0 stable

theorem close_sound (h : Sound q) : Sound q.close := by
  refine ⟨?_, fun _ => rfl, h.soon⟩
  rcases h.one with ⟨hnone, hidle, -⟩ | hone
  · exact .inl ⟨hnone, hidle, rfl⟩
  · exact .inr hone

theorem settle_sound (h : Sound q) {place : Place} (hone : q.drains = [place])
    (hrunning : q.running = true) (stable : Bool) :
    Sound (q.settle 0 stable) := by
  unfold settle
  split
  · exact resume_sound (q := { q with pending := false }) hone hrunning (fun _ => rfl) 0 stable
  · rename_i hlast
    rw [leave, hone]
    refine ⟨.inl ⟨rfl, rfl, ?_⟩, h.closed, nofun⟩
    cases hclosed : q.closed with
    | true => exact h.closed hclosed
    | false => simpa [hclosed] using hlast

/-- What calls of the queue leave as it is while a `drain` is under way. -/
structure Calls (calls : List Call) (q q' : RenegotiationQueue) : Prop where
  sound : Sound q'
  drains : q'.drains = q.drains
  running : q'.running = q.running
  starts : q'.starts = q.starts
  closed : q.closed = true → q'.closed = true
  opened : calls.contains .close = false → q'.closed = q.closed ∧
    (q.pending = true → q'.pending = true)

theorem calls_one (h : Sound q) {place : Place} (hone : q.drains = [place]) (stable : Bool)
    (c : Call) :
    Calls [c] q (q.call stable c) := by
  cases c with
  | schedule =>
    have hsound := schedule_sound h stable
    unfold call
    rcases schedule_cases h stable with ⟨hover, heq⟩ | ⟨hopen, -, heq⟩ | ⟨-, hnone, -⟩
    · rw [heq]
      exact ⟨h, rfl, rfl, rfl, id, fun _ => ⟨rfl, id⟩⟩
    · rw [heq] at hsound ⊢
      exact ⟨hsound, rfl, rfl, rfl, id, fun _ => ⟨rfl, fun _ => rfl⟩⟩
    · rw [hone] at hnone
      cases hnone
  | close => exact ⟨close_sound h, rfl, rfl, rfl, fun _ => rfl, fun hnot => absurd hnot (by decide)⟩

theorem calls_all (calls : List Call) (h : Sound q) {place : Place} (hone : q.drains = [place])
    (stable : Bool) :
    Calls calls q (calls.foldl (call stable) q) := by
  induction calls generalizing q with
  | nil => exact ⟨h, rfl, rfl, rfl, id, fun _ => ⟨rfl, id⟩⟩
  | cons c calls ih =>
    have hfirst := calls_one h hone stable c
    have hrest := ih hfirst.sound (hfirst.drains.trans hone)
    refine ⟨hrest.sound, hrest.drains.trans hfirst.drains, hrest.running.trans hfirst.running,
      hrest.starts.trans hfirst.starts, fun hclosed => hrest.closed (hfirst.closed hclosed),
        fun hopens => ?_⟩
    simp only [List.contains_cons, Bool.or_eq_false_iff] at hopens
    obtain ⟨hclosed, hpending⟩ := hfirst.opened (by simpa using hopens.1)
    obtain ⟨hclosed', hpending'⟩ := hrest.opened hopens.2
    exact ⟨hclosed'.trans hclosed, fun hq => hpending' (hpending hq)⟩

inductive Steps (q : RenegotiationQueue) : Step → RenegotiationQueue → Prop
  | schedule (stable : Bool) : Steps q (.schedule stable) (q.schedule stable)
  | close : Steps q .close q.close
  | waited (waited : ℕ) (stable : Bool) (hone : q.drains = [.wait waited])
      (hrunning : q.running = true) :
    Steps q (.waited 0 stable) (q.resume 0 (waited + 100) stable)
  | completed (stable : Bool) (hone : q.drains = [.run]) (hrunning : q.running = true) :
    Steps q (.completed 0 stable) (q.settle 0 stable)
  | failed (calls : List Call) (stable : Bool) (hone : q.drains = [.run])
      (hrunning : q.running = true)
    (hcalls : Calls calls q (calls.foldl (call stable) q)) :
    Steps q (.failed 0 calls stable) ((calls.foldl (call stable) q).settle 0 stable)

theorem steps_of_step (h : Sound q) (hstep : q.step i = some q') : Steps q i q' := by
  cases i with
  | schedule stable =>
    obtain rfl := Option.some.inj hstep
    exact .schedule stable
  | close =>
    obtain rfl := Option.some.inj hstep
    exact .close
  | waited j stable =>
    simp only [step] at hstep
    split at hstep
    · rename_i waited hplace
      obtain ⟨rfl, hone, hrunning⟩ := h.only hplace
      obtain rfl := Option.some.inj hstep
      exact .waited waited stable hone hrunning
    · cases hstep
  | completed j stable =>
    simp only [step, Option.ite_none_right_eq_some, Option.some.injEq] at hstep
    obtain ⟨hplace, rfl⟩ := hstep
    obtain ⟨rfl, hone, hrunning⟩ := h.only hplace
    exact .completed stable hone hrunning
  | failed j calls stable =>
    simp only [step, Option.ite_none_right_eq_some, Option.some.injEq] at hstep
    obtain ⟨hplace, rfl⟩ := hstep
    obtain ⟨rfl, hone, hrunning⟩ := h.only hplace
    exact .failed calls stable hone hrunning (calls_all calls h hone stable)

theorem step_sound (h : Sound q) (hstep : q.step i = some q') : Sound q' := by
  cases steps_of_step h hstep with
  | schedule stable => exact schedule_sound h stable
  | close => exact close_sound h
  | waited waited stable hone hrunning => exact resume_sound hone hrunning h.closed _ stable
  | completed stable hone hrunning => exact settle_sound h hone hrunning stable
  | failed calls stable hone hrunning hcalls =>
    exact settle_sound hcalls.sound (hcalls.drains.trans hone)
      (hcalls.running.trans hrunning) stable

theorem resume_closed (hclosed : q.closed = true) {place : Place} (hone : q.drains = [place])
    (waited : ℕ) (stable : Bool) :
    (q.resume 0 waited stable).closed = true ∧ (q.resume 0 waited stable).starts = q.starts := by
  rcases resume_cases hone waited stable with ⟨-, heq⟩ | ⟨hopen, -⟩ | ⟨hopen, -⟩
  · rw [heq]
    exact ⟨hclosed, rfl⟩
  · exact absurd (hopen.symm.trans hclosed) (by decide)
  · exact absurd (hopen.symm.trans hclosed) (by decide)

theorem settle_closed (hclosed : q.closed = true) (stable : Bool) :
    (q.settle 0 stable).closed = true ∧ (q.settle 0 stable).starts = q.starts := by
  unfold settle
  rw [hclosed]
  simp [leave, hclosed]

theorem step_closed (h : Sound q) (hstep : q.step i = some q') (hclosed : q.closed = true) :
    q'.closed = true ∧ q'.starts = q.starts := by
  cases steps_of_step h hstep with
  | schedule stable =>
    rcases schedule_cases h stable with ⟨-, heq⟩ | ⟨hopen, -⟩ | ⟨hopen, -⟩
    · rw [heq]
      exact ⟨hclosed, rfl⟩
    · exact absurd (hopen.symm.trans hclosed) (by decide)
    · exact absurd (hopen.symm.trans hclosed) (by decide)
  | close => exact ⟨rfl, rfl⟩
  | waited waited stable hone hrunning => exact resume_closed hclosed hone _ stable
  | completed stable hone hrunning => exact settle_closed hclosed stable
  | failed calls stable hone hrunning hcalls =>
    obtain ⟨hover, hsame⟩ := settle_closed (hcalls.closed hclosed) stable
    exact ⟨hover, hsame.trans hcalls.starts⟩

/-- After the first `k` a run has started, or one is due before `n` more awaits have ended. -/
def Owed (k n : ℕ) (q : RenegotiationQueue) : Prop :=
  k < q.starts ∨ (q.closed = false ∧ k ≤ q.starts ∧
    ((∃ waited, q.drains = [Place.wait waited] ∧ 4999 < 100 * n + waited) ∨
      (q.drains = [Place.run] ∧ q.pending = true ∧ 51 ≤ n)))

theorem resume_owed {k n : ℕ} {place : Place} (hone : q.drains = [place]) (hopen : q.closed = false)
    (hk : k ≤ q.starts)
    {waited : ℕ} (hsoon : 4999 < 100 * n + waited) (stable : Bool) :
      Owed k n (q.resume 0 waited stable) := by
  rcases resume_cases hone waited stable with ⟨hclosed, -⟩ | ⟨-, -, heq⟩ | ⟨-, heq⟩
  · exact absurd (hopen.symm.trans hclosed) (by decide)
  · rw [heq]
    exact .inr ⟨hopen, hk, .inl ⟨waited, rfl, hsoon⟩⟩
  · rw [heq]
    exact .inl (Nat.lt_succ_of_le hk)

theorem resume_starts {place : Place} (hone : q.drains = [place]) (waited : ℕ) (stable : Bool) :
    q.starts ≤ (q.resume 0 waited stable).starts := by
  rcases resume_cases hone waited stable with ⟨-, heq⟩ | ⟨-, -, heq⟩ | ⟨-, heq⟩
  · exact Nat.le_of_eq (by rw [heq])
  · exact Nat.le_of_eq (by rw [heq])
  · rw [heq]
    exact Nat.le_succ _

theorem settle_starts {place : Place} (hone : q.drains = [place]) (stable : Bool) :
    q.starts ≤ (q.settle 0 stable).starts := by
  unfold settle
  split
  · exact resume_starts (q := { q with pending := false }) hone 0 stable
  · exact Nat.le_refl _

theorem step_starts (h : Sound q) (hstep : q.step i = some q') : q.starts ≤ q'.starts := by
  cases steps_of_step h hstep with
  | schedule stable =>
    rcases schedule_cases h stable with ⟨-, heq⟩ | ⟨-, -, heq⟩ | ⟨-, -, -, heq⟩
    · exact Nat.le_of_eq (by rw [heq])
    · exact Nat.le_of_eq (by rw [heq])
    · rw [heq]
      exact resume_starts (q := { q with running := true, drains := [Place.wait 0] }) rfl 0 stable
  | close => exact Nat.le_refl _
  | waited waited stable hone hrunning => exact resume_starts hone _ stable
  | completed stable hone hrunning => exact settle_starts hone stable
  | failed calls stable hone hrunning hcalls =>
    rw [← hcalls.starts]
    exact settle_starts (hcalls.drains.trans hone) stable

theorem settle_owed {k n : ℕ} (hone : q.drains = [Place.run]) (hopen : q.closed = false)
    (hk : k ≤ q.starts)
    (hpending : q.pending = true) (hn : 50 ≤ n) (stable : Bool) : Owed k n (q.settle 0 stable) := by
  have hagain : (q.pending && !q.closed) = true := by
    rw [hpending, hopen]
    rfl
  rw [settle, if_pos hagain]
  have hsoon : 4999 < 100 * n + 0 := by omega
  exact resume_owed (q := { q with pending := false }) hone hopen hk hsoon stable

theorem step_owed {k n : ℕ} (h : Sound q) (hstep : q.step i = some q') (hopens : i.closes = false)
    (howed : Owed k (n + if i.internal then 1 else 0) q) : Owed k n q' := by
  rcases howed with hstarted | ⟨hopen, hk, hdue⟩
  · exact .inl (Nat.lt_of_lt_of_le hstarted (step_starts h hstep))
  · cases steps_of_step h hstep with
    | schedule stable =>
      rcases schedule_cases h stable with ⟨hclosed, -⟩ | ⟨-, -, heq⟩ | ⟨-, hnone, -⟩
      · exact absurd (hopen.symm.trans hclosed) (by decide)
      · rw [heq]
        refine .inr ⟨hopen, hk, ?_⟩
        rcases hdue with ⟨waited, hone, hsoon⟩ | ⟨hone, -, hn⟩
        · exact .inl ⟨waited, hone, hsoon⟩
        · exact .inr ⟨hone, rfl, hn⟩
      · rcases hdue with ⟨waited, hone, -⟩ | ⟨hone, -⟩
        · cases hnone.symm.trans hone
        · cases hnone.symm.trans hone
    | close => cases hopens
    | waited waited stable hone hrunning =>
      rcases hdue with ⟨waited', hone', hsoon⟩ | ⟨hone', -⟩
      · obtain rfl := Place.wait.inj (List.singleton_inj.mp (hone.symm.trans hone'))
        simp only [Step.internal, if_true] at hsoon
        have hsooner : 4999 < 100 * n + (waited + 100) := by omega
        exact resume_owed hone hopen hk hsooner stable
      · cases hone.symm.trans hone'
    | completed stable hone hrunning =>
      rcases hdue with ⟨waited', hone', -⟩ | ⟨-, hpending, hn⟩
      · cases hone.symm.trans hone'
      · exact settle_owed hone hopen hk hpending (Nat.le_of_succ_le_succ hn) stable
    | failed calls stable hone hrunning hcalls =>
      obtain ⟨hclosed, hpends⟩ := hcalls.opened hopens
      rcases hdue with ⟨waited', hone', -⟩ | ⟨-, hpending, hn⟩
      · cases hone.symm.trans hone'
      · exact settle_owed (hcalls.drains.trans hone) (hclosed.trans hopen) (hcalls.starts ▸ hk)
          (hpends hpending)
          (Nat.le_of_succ_le_succ hn) stable

theorem run_owed {k n : ℕ} {steps : List Step} (h : Sound q)
    (hrun : Run.after step q steps = some q')
    (hopens : ∀ i ∈ steps, i.closes = false) (howed : Owed k (n + steps.countP Step.internal) q) :
      Owed k n q' := by
  induction steps generalizing q with
  | nil =>
    cases hrun
    exact howed
  | cons i steps ih =>
    obtain ⟨u, hstep, hrest⟩ := Run.after_cons.mp hrun
    refine ih (step_sound h hstep) hrest (fun j hj => hopens j (List.mem_cons_of_mem i hj)) ?_
    refine step_owed h hstep (hopens i (List.mem_cons_self ..)) ?_
    rwa [List.countP_cons, ← Nat.add_assoc] at howed

theorem schedule_owed (h : Sound q) (hopen : q.closed = false) (stable : Bool) :
    Owed q.starts 51 (q.schedule stable) := by
  rcases schedule_cases h stable with ⟨hclosed, -⟩ | ⟨-, hsome, heq⟩ | ⟨-, -, -, heq⟩
  · exact absurd (hopen.symm.trans hclosed) (by decide)
  · rw [heq]
    refine .inr ⟨hopen, Nat.le_refl _, ?_⟩
    rcases h.one with ⟨hnone, -⟩ | ⟨place, hone, -⟩
    · exact absurd hnone hsome
    · cases place with
      | wait waited => exact .inl ⟨waited, hone, by omega⟩
      | run => exact .inr ⟨hone, rfl, Nat.le_refl _⟩
  · rw [heq]
    exact resume_owed (q := { q with running := true, drains := [Place.wait 0] }) rfl hopen
      (Nat.le_refl _) (by omega) stable

def due (q : RenegotiationQueue) : ℕ :=
    (q.drains.filter (· ≠ Place.run)).length + if q.pending then 1 else 0

theorem resume_due {place : Place} (hone : q.drains = [place]) (hopen : q.closed = false)
    (waited : ℕ) (stable : Bool) :
    (q.resume 0 waited stable).closed = false ∧
      (q.resume 0 waited stable).starts + due (q.resume 0 waited stable) = q.starts + 1 +
        if q.pending then 1 else 0 := by
  rcases resume_cases hone waited stable with ⟨hclosed, -⟩ | ⟨-, -, heq⟩ | ⟨-, heq⟩
  · exact absurd (hopen.symm.trans hclosed) (by decide)
  · rw [heq]
    refine ⟨hopen, ?_⟩
    simp only [due, List.filter_cons, List.filter_nil]
    simp [Nat.add_assoc]
  · rw [heq]
    refine ⟨hopen, ?_⟩
    simp [due]

theorem settle_due (hone : q.drains = [Place.run]) (hopen : q.closed = false) (stable : Bool) :
    (q.settle 0 stable).closed = false ∧
      (q.settle 0 stable).starts + due (q.settle 0 stable) = q.starts + due q := by
  by_cases hpending : q.pending = true
  · have hagain : (q.pending && !q.closed) = true := by
      rw [hpending, hopen]
      rfl
    rw [settle, if_pos hagain]
    obtain ⟨hopen', hdue⟩ := resume_due (q := { q with pending := false }) hone hopen 0 stable
    refine ⟨hopen', hdue.trans ?_⟩
    simp [due, hone, hpending]
  · have hlast : ¬ (q.pending && !q.closed) = true := by simp [hpending]
    rw [settle, if_neg hlast]
    refine ⟨hopen, ?_⟩
    simp [due, leave, hone, hpending]

theorem step_due (h : Sound q) (hstep : q.step i = some q') (hquiet : i.quiet = true)
    (hopen : q.closed = false) :
    q'.closed = false ∧ q'.starts + due q' = q.starts + due q := by
  cases steps_of_step h hstep with
  | schedule stable => cases hquiet
  | close => cases hquiet
  | waited waited stable hone hrunning =>
    obtain ⟨hopen', hdue⟩ := resume_due hone hopen (waited + 100) stable
    refine ⟨hopen', hdue.trans ?_⟩
    simp [due, hone, Nat.add_assoc]
  | completed stable hone hrunning => exact settle_due hone hopen stable
  | failed calls stable hone hrunning hcalls =>
    obtain rfl : calls = [] := by simpa [Step.quiet] using hquiet
    exact settle_due hone hopen stable

theorem run_due {steps : List Step} (h : Sound q) (hrun : Run.after step q steps = some q')
    (hquiet : ∀ i ∈ steps, i.quiet = true) (hopen : q.closed = false) :
    Sound q' ∧ q'.starts + due q' = q.starts + due q := by
  induction steps generalizing q with
  | nil =>
    cases hrun
    exact ⟨h, rfl⟩
  | cons i steps ih =>
    obtain ⟨u, hstep, hrest⟩ := Run.after_cons.mp hrun
    obtain ⟨hopen', hdue⟩ := step_due h hstep (hquiet i (List.mem_cons_self ..)) hopen
    obtain ⟨hsound, htotal⟩ :=
      ih (step_sound h hstep) hrest (fun j hj => hquiet j (List.mem_cons_of_mem i hj)) hopen'
    exact ⟨hsound, htotal.trans hdue⟩

theorem run_requests {requests : List Bool} (h : Sound q) (hopen : q.closed = false)
    (hone : q.drains = [Place.run])
    (hrun : Run.after step q (requests.map .schedule) = some q') :
    Sound q' ∧ q' = { q with pending := q.pending || !requests.isEmpty } := by
  induction requests generalizing q with
  | nil =>
    cases hrun
    exact ⟨h, by simp⟩
  | cons stable requests ih =>
    obtain ⟨u, hstep, hrest⟩ := Run.after_cons.mp hrun
    obtain rfl := Option.some.inj hstep
    have hsound := schedule_sound h stable
    rcases schedule_cases h stable with ⟨hclosed, -⟩ | ⟨-, -, heq⟩ | ⟨-, hnone, -⟩
    · exact absurd (hopen.symm.trans hclosed) (by decide)
    · rw [heq] at hrest hsound
      obtain ⟨hsound', hlast⟩ := ih hsound hopen hone hrest
      refine ⟨hsound', ?_⟩
      rw [hlast]
      simp
    · cases hnone.symm.trans hone

theorem initial_sound : Sound initial := ⟨.inl ⟨rfl, rfl, rfl⟩, nofun, nofun⟩

theorem run_sound {steps : List Step} (h : Sound q)
    (hrun : Run.after step q steps = some q') : Sound q' :=
  Run.after_invariant (fun _ _ _ hu hstep => step_sound hu hstep) h hrun

theorem run_closed {steps : List Step} (h : Sound q) (hclosed : q.closed = true)
    (hrun : Run.after step q steps = some q') :
    q'.starts = q.starts := by
  have hkept : Sound q' ∧ q'.closed = true ∧ q'.starts = q.starts := by
    refine Run.after_invariant (I := fun u => Sound u ∧ u.closed = true ∧ u.starts = q.starts) ?_
      ⟨h, hclosed, rfl⟩ hrun
    rintro u i v ⟨hu, hover, hsame⟩ hstep
    obtain ⟨hover', hsame'⟩ := step_closed hu hstep hover
    exact ⟨step_sound hu hstep, hover', hsame'.trans hsame⟩
  exact hkept.2.2

theorem Sound.alone (h : Sound q) : q.drains.count .run ≤ 1 := by
  rcases h.one with ⟨hnone, -⟩ | ⟨place, hone, -⟩
  · simp [hnone]
  · rw [hone]
    exact List.count_le_length

theorem Sound.due_idle (h : Sound q) (hnone : q.drains = []) : due q = 0 := by
  rcases h.one with ⟨-, -, hpending⟩ | ⟨place, hone, -⟩
  · simp [due, hnone, hpending]
  · cases hnone.symm.trans hone

/-- A run that fails while others are requested, in a connection that is not stable at first. -/
def negotiated : List Step :=
  [.schedule false, .schedule true, .waited 0 false, .waited 0 true, .schedule true,
    .failed 0 [.schedule] false,
    .waited 0 true, .completed 0 true, .schedule true, .close, .completed 0 true]

end RenegotiationQueue
end Beam.Web.Renegotiation
