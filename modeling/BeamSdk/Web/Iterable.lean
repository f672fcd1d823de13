import BeamSdk.Library.Run

/-! Events as an asynchronous iterator: what is emitted meets the calls of `next` in two queues. -/

namespace Beam.Web.Iterable
variable {α ε : Type}

/-- What a call of `next` settles with; a value has its place among the events. -/
inductive Outcome (α ε : Type)
  | value (k : ℕ) (payload : α)
  | done
  | rejected (error : ε)

/-- `failure` is absent where it is undefined. The events and the calls of `next` are numbered;
`results` are the calls that have settled, `emitted` the events before the iteration has ended,
`dropped` those of them that the buffer has let go, and `fails` is the failure of the source with
how many calls had settled by then. -/
structure Iterator (α ε : Type) where
  buffer : List (ℕ × α)
  waiters : List ℕ
  done : Bool
  failure : Option ε
  calls : ℕ
  results : List (ℕ × Outcome α ε)
  emitted : List α
  dropped : List ℕ
  fails : Option (Option ε × ℕ)

inductive Step (α ε : Type)
  | emit (payload : α)
  | next
  | return
  | throw (error : Option ε)
  -- the signal is aborted, also before the iteration begins
  | abort
  | ended
  | failed (error : Option ε)

namespace Iterator

def initial : Iterator α ε := ⟨[], [], false, none, 0, [], [], [], none⟩

/-- `maxBuffer` is the least length that is not below it, if there is one. -/
def full (maxBuffer : Option ℕ) (s : Iterator α ε) : Bool := maxBuffer.any (· ≤ s.buffer.length)

def push (maxBuffer : Option ℕ) (s : Iterator α ε) (payload : α) : Iterator α ε :=
  if s.done then s
  else
    let k := s.emitted.length
    match s.waiters with
    | waiter :: waiters => { s with
        waiters := waiters
        results := s.results ++ [(waiter, .value k payload)]
        emitted := s.emitted ++ [payload] }
    | [] =>
      let kept := if s.full maxBuffer then s.buffer.tail else s.buffer
      let dropped := if s.full maxBuffer then s.dropped ++ s.buffer.head?.toList.map Prod.fst
        else s.dropped
      { s with
        buffer := kept ++ [(k, payload)]
        dropped := dropped
        emitted := s.emitted ++ [payload] }

def finish (s : Iterator α ε) (error : Option ε) : Iterator α ε :=
  if s.done then s
  else { s with
    done := true
    failure := error
    waiters := []
    results := s.results ++ s.waiters.map (·, .done) }

/-- What `next` comes to where nothing is buffered and the iteration has ended. -/
def ending (s : Iterator α ε) : Outcome α ε :=
  match s.failure with
  | none => .done
  | some error => .rejected error

def next (s : Iterator α ε) : Iterator α ε :=
  match s.buffer with
  | (k, payload) :: buffer => { s with
      buffer := buffer
      calls := s.calls + 1
      results := s.results ++ [(s.calls, .value k payload)] }
  | [] =>
    if s.done then { s with calls := s.calls + 1, results := s.results ++ [(s.calls, s.ending)] }
    else { s with calls := s.calls + 1, waiters := s.waiters ++ [s.calls] }

def step (maxBuffer : Option ℕ) (s : Iterator α ε) : Step α ε → Option (Iterator α ε)
  | .emit payload => some (s.push maxBuffer payload)
  | .next => some s.next
  | .return | .abort | .ended => some (s.finish none)
  | .throw error => some (s.finish error)
  | .failed error =>
    some (if s.done then s else { s.finish error with fails := some (error, s.results.length) })

def places (results : List (ℕ × Outcome α ε)) : List ℕ :=
  results.filterMap fun result => match result.2 with
    | .value k _ => some k
    | _ => none

def delivered (s : Iterator α ε) : List ℕ := places s.results

def Tells (error : Option ε) : Outcome α ε → Prop
  | .value _ _ => True
  | .done => False
  | .rejected e => error = some e

structure DeliversInOrder (s : Iterator α ε) : Prop where
  ordered : s.delivered.Pairwise (· < ·)
  payloads : ∀ call k payload, (call, .value k payload) ∈ s.results → s.emitted[k]? = some payload
  accounted : ∀ k < s.emitted.length, k ∈ s.delivered ∨ k ∈ s.buffer.map Prod.fst ∨ k ∈ s.dropped
  apart : s.buffer = [] ∨ s.waiters = []
  settled : s.done = true → s.results.map Prod.fst = List.range s.calls
  told : ∀ error n, s.fails = some (error, n) → ∀ result ∈ s.results.drop n, Tells error result.2

def Follows (maxBuffer : Option ℕ) (s : Iterator α ε) (i : Step α ε) (s' : Iterator α ε) : Prop :=
  ∀ k ∈ s'.dropped, k ∈ s.dropped ∨
    (∃ payload, i = .emit payload) ∧ s.full maxBuffer = true ∧ s.buffer.head?.map Prod.fst = some k

def Silent (s : Iterator α ε) : Step α ε → Prop
  | .failed error => s.done = false ∧ (s.waiters ≠ [] ∨ error = none)
  | _ => False

structure Sound (s : Iterator α ε) : Prop where
  ordered : (s.delivered ++ s.buffer.map Prod.fst).Pairwise (· < ·)
  below : ∀ k ∈ s.delivered ++ s.buffer.map Prod.fst, k < s.emitted.length
  payloads : ∀ call k payload, (call, .value k payload) ∈ s.results → s.emitted[k]? = some payload
  buffered : ∀ k payload, (k, payload) ∈ s.buffer → s.emitted[k]? = some payload
  accounted : ∀ k < s.emitted.length, k ∈ s.delivered ∨ k ∈ s.buffer.map Prod.fst ∨ k ∈ s.dropped
  apart : s.buffer = [] ∨ s.waiters = []
  numbered : s.results.map Prod.fst ++ s.waiters = List.range s.calls
  unwaited : s.done = true → s.waiters = []
  told : ∀ error n, s.fails = some (error, n) → s.done = true ∧ s.failure = error ∧ error ≠ none ∧
    n ≤ s.results.length ∧
    ∀ result ∈ s.results.drop n, Tells error result.2

theorem Sound.deliversInOrder {s : Iterator α ε} (h : Sound s) : DeliversInOrder s where
  ordered := (List.pairwise_append.mp h.ordered).1
  payloads := h.payloads
  accounted := h.accounted
  apart := h.apart
  settled hdone := by
    have hnumbered := h.numbered
    rwa [h.unwaited hdone, List.append_nil] at hnumbered
  told error n hfails := (h.told error n hfails).2.2.2.2

variable {s s' : Iterator α ε} {maxBuffer : Option ℕ} {i : Step α ε}

theorem places_append (results later : List (ℕ × Outcome α ε)) :
    places (results ++ later) = places results ++ places later :=
  List.filterMap_append

theorem places_done (calls : List ℕ) :
    places (calls.map fun call => (call, (Outcome.done : Outcome α ε))) = [] := by
  induction calls with
  | nil => rfl
  | cons call calls ih => exact ih

theorem getElem?_emitted {emitted : List α} {k : ℕ} {payload other : α}
    (h : emitted[k]? = some payload) :
    (emitted ++ [other])[k]? = some payload := by
  obtain ⟨hlt, -⟩ := List.getElem?_eq_some_iff.mp h
  rwa [List.getElem?_append_left hlt]

theorem ordered_snoc {ks : List ℕ} {n : ℕ} (hordered : ks.Pairwise (· < ·))
    (hbelow : ∀ k ∈ ks, k < n) :
    (ks ++ [n]).Pairwise (· < ·) ∧ ∀ k ∈ ks ++ [n], k < n + 1 := by
  constructor
  · refine List.pairwise_append.mpr ⟨hordered, List.pairwise_singleton _ _, fun k hk m hm => ?_⟩
    obtain rfl := List.mem_singleton.mp hm
    exact hbelow k hk
  · intro k hk
    rcases List.mem_append.mp hk with hk | hk
    · exact Nat.lt_succ_of_lt (hbelow k hk)
    · obtain rfl := List.mem_singleton.mp hk
      exact Nat.lt_succ_self _

theorem told_snoc {results : List (ℕ × Outcome α ε)} {n : ℕ} {error : Option ε}
    (hn : n ≤ results.length)
    (htold : ∀ result ∈ results.drop n, Tells error result.2) {result : ℕ × Outcome α ε}
    (hnew : Tells error result.2) :
    n ≤ (results ++ [result]).length ∧ ∀ result' ∈ (results ++ [result]).drop n,
      Tells error result'.2 := by
  refine ⟨by rw [List.length_append]; exact Nat.le_add_right_of_le hn, fun result' hmem => ?_⟩
  rw [List.drop_append_of_le_length hn] at hmem
  rcases List.mem_append.mp hmem with hold | hlast
  · exact htold result' hold
  · obtain rfl := List.mem_singleton.mp hlast
    exact hnew

theorem handed_sound (h : Sound s) (hdone : s.done = false) {waiter : ℕ} {waiters : List ℕ}
    (hwaiters : s.waiters = waiter :: waiters) (payload : α) : Sound { s with
      waiters := waiters
      results := s.results ++ [(waiter, .value s.emitted.length payload)]
      emitted := s.emitted ++ [payload] } := by
  have hempty : s.buffer = [] := by
    rcases h.apart with hempty | hnone
    · exact hempty
    · cases hwaiters.symm.trans hnone
  have hdelivered : places (s.results ++ [(waiter, .value s.emitted.length payload)]) =
      s.delivered ++ [s.emitted.length] :=
    places_append ..
  have hordered := h.ordered
  have hbelow := h.below
  rw [hempty, List.map_nil, List.append_nil] at hordered hbelow
  obtain ⟨hordered', hbelow'⟩ := ordered_snoc hordered hbelow
  refine ⟨?_, ?_, ?_, ?_, ?_, .inl hempty, ?_, ?_, ?_⟩
  · rw [delivered, hdelivered, hempty, List.map_nil, List.append_nil]
    exact hordered'
  · rw [delivered, hdelivered, hempty, List.map_nil, List.append_nil, List.length_append]
    exact hbelow'
  · intro call k value hmem
    rcases List.mem_append.mp hmem with hold | hnew
    · exact getElem?_emitted (h.payloads call k value hold)
    · cases List.mem_singleton.mp hnew
      exact List.getElem?_concat_length
  · rw [hempty]
    exact nofun
  · intro k hk
    rw [delivered, hdelivered]
    simp only [List.length_append, List.length_singleton] at hk
    rcases Nat.lt_succ_iff_lt_or_eq.mp hk with hlt | rfl
    · rcases h.accounted k hlt with hgone | hkept | hlost
      · exact .inl (List.mem_append_left _ hgone)
      · exact .inr (.inl hkept)
      · exact .inr (.inr hlost)
    · exact .inl (List.mem_append_right _ (List.mem_singleton_self _))
  · have hnumbered := h.numbered
    rw [hwaiters] at hnumbered
    rw [List.map_append, List.append_assoc]
    exact hnumbered
  · exact fun hover => absurd (hdone.symm.trans hover) (by decide)
  · exact fun error n hfails => absurd (hdone.symm.trans (h.told error n hfails).1) (by decide)

theorem buffered_sound (h : Sound s) (hwaiters : s.waiters = []) {kept : List (ℕ × α)}
    {dropped : List ℕ} (hkept : kept <:+ s.buffer) (hold : ∀ k ∈ s.dropped, k ∈ dropped)
    (hlost : ∀ k ∈ s.buffer.map Prod.fst, k ∈ kept.map Prod.fst ∨ k ∈ dropped) (payload : α) :
      Sound { s with
      buffer := kept ++ [(s.emitted.length, payload)]
      dropped := dropped
      emitted := s.emitted ++ [payload] } := by
  have hsub : (s.delivered ++ kept.map Prod.fst).Sublist (s.delivered ++ s.buffer.map Prod.fst) :=
    (List.Sublist.refl _).append (hkept.sublist.map _)
  obtain ⟨hordered', hbelow'⟩ := ordered_snoc (h.ordered.sublist hsub) fun k hk =>
    h.below k (hsub.subset hk)
  have hbuffer : s.delivered ++ (kept ++ [(s.emitted.length, payload)]).map Prod.fst =
      s.delivered ++ kept.map Prod.fst ++ [s.emitted.length] := by
    rw [List.map_append, List.append_assoc]
    rfl
  refine ⟨?_, ?_, fun call k value hmem => getElem?_emitted (h.payloads call k value hmem), ?_, ?_,
    .inr hwaiters,
    h.numbered, h.unwaited, h.told⟩
  · exact hbuffer ▸ hordered'
  · intro k hk
    rw [List.length_append]
    exact hbelow' k (hbuffer ▸ hk)
  · intro k value hmem
    rcases List.mem_append.mp hmem with hmem | hnew
    · exact getElem?_emitted (h.buffered k value (hkept.subset hmem))
    · cases List.mem_singleton.mp hnew
      exact List.getElem?_concat_length
  · intro k hk
    simp only [List.length_append, List.length_singleton] at hk
    simp only [List.map_append, List.mem_append]
    rcases Nat.lt_succ_iff_lt_or_eq.mp hk with hlt | rfl
    · rcases h.accounted k hlt with hgone | hin | hdropped
      · exact .inl hgone
      · rcases hlost k hin with hin | hdropped
        · exact .inr (.inl (.inl hin))
        · exact .inr (.inr hdropped)
      · exact .inr (.inr (hold k hdropped))
    · exact .inr (.inl (.inr (List.mem_singleton_self _)))

theorem push_sound (h : Sound s) (payload : α) : Sound (s.push maxBuffer payload) := by
  unfold push
  by_cases hover : s.done = true
  · rw [if_pos hover]
    exact h
  · have hdone : s.done = false := by simpa using hover
    rw [if_neg hover]
    cases hwaiters : s.waiters with
    | cons waiter waiters => exact handed_sound h hdone hwaiters payload
    | nil =>
      simp only
      rw [← hwaiters]
      split
      · refine buffered_sound h hwaiters (List.tail_suffix _)
          (fun k hk => List.mem_append_left _ hk) ?_ payload
        intro k hk
        cases hbuffer : s.buffer with
        | nil =>
          rw [hbuffer] at hk
          cases hk
        | cons oldest rest =>
          rw [hbuffer, List.map_cons] at hk
          rcases List.mem_cons.mp hk with rfl | hk
          · exact .inr (List.mem_append_right _ (List.mem_singleton_self _))
          · exact .inl hk
      · exact buffered_sound h hwaiters (List.suffix_refl _) (fun k hk => hk)
          (fun k hk => .inl hk) payload

theorem finish_sound (h : Sound s) (error : Option ε) : Sound (s.finish error) := by
  unfold finish
  by_cases hover : s.done = true
  · rw [if_pos hover]
    exact h
  · have hplaces : places (s.results ++ s.waiters.map fun call => (call, .done)) = s.delivered := by
      rw [places_append, places_done, List.append_nil]
      rfl
    rw [if_neg hover]
    refine ⟨?_, ?_, ?_, h.buffered, ?_, .inr rfl, ?_, fun _ => rfl, ?_⟩
    · rw [delivered, hplaces]
      exact h.ordered
    · rw [delivered, hplaces]
      exact h.below
    · intro call k payload hmem
      rcases List.mem_append.mp hmem with hold | hnew
      · exact h.payloads call k payload hold
      · obtain ⟨waiter, -, hwaiter⟩ := List.mem_map.mp hnew
        cases hwaiter
    · rw [delivered, hplaces]
      exact h.accounted
    · have hcalls : ((fun call => (call, (Outcome.done : Outcome α ε))) : ℕ → ℕ × Outcome α ε) =
          fun call => (call, .done) := rfl
      rw [List.map_append, List.map_map, List.append_nil, ← h.numbered]
      congr 1
      exact List.map_id _
    · exact fun e n hfails => absurd (h.told e n hfails).1 hover

theorem taken_sound (h : Sound s) {k : ℕ} {payload : α} {rest : List (ℕ × α)}
    (hbuffer : s.buffer = (k, payload) :: rest) :
    Sound { s with
      buffer := rest
      calls := s.calls + 1
      results := s.results ++ [(s.calls, .value k payload)] } := by
  have hwaiters : s.waiters = [] := by
    rcases h.apart with hempty | hnone
    · cases hbuffer.symm.trans hempty
    · exact hnone
  have hsame : places (s.results ++ [(s.calls, .value k payload)]) ++ rest.map Prod.fst =
      s.delivered ++ s.buffer.map Prod.fst := by
    rw [places_append, hbuffer, List.map_cons, List.append_assoc]
    rfl
  refine ⟨hsame ▸ h.ordered, fun n hn => h.below n (hsame ▸ hn), ?_, ?_, ?_, .inr hwaiters, ?_,
    h.unwaited, ?_⟩
  · intro call n value hmem
    rcases List.mem_append.mp hmem with hold | hnew
    · exact h.payloads call n value hold
    · cases List.mem_singleton.mp hnew
      exact h.buffered k payload (by rw [hbuffer]; exact List.mem_cons_self ..)
  · exact fun n value hmem =>
      h.buffered n value (by rw [hbuffer]; exact List.mem_cons_of_mem _ hmem)
  · intro n hn
    have hmem : n ∈ s.delivered ++ s.buffer.map Prod.fst →
        n ∈ places (s.results ++ [(s.calls, .value k payload)]) ∨
        n ∈ rest.map Prod.fst := fun hn => List.mem_append.mp (hsame ▸ hn)
    rcases h.accounted n hn with hgone | hin | hlost
    · rcases hmem (List.mem_append_left _ hgone) with hgone | hin
      · exact .inl hgone
      · exact .inr (.inl hin)
    · rcases hmem (List.mem_append_right _ hin) with hgone | hin
      · exact .inl hgone
      · exact .inr (.inl hin)
    · exact .inr (.inr hlost)
  · have hnumbered := h.numbered
    rw [hwaiters, List.append_nil] at hnumbered
    rw [hwaiters, List.append_nil, List.map_append, hnumbered, List.range_succ]
    rfl
  · intro error n hfails
    obtain ⟨hdone, hfailure, hsome, hn, htold⟩ := h.told error n hfails
    exact ⟨hdone, hfailure, hsome, told_snoc hn htold trivial⟩

theorem after_sound (h : Sound s) (hdone : s.done = true) :
    Sound { s with calls := s.calls + 1, results := s.results ++ [(s.calls, s.ending)] } := by
  have hwaiters := h.unwaited hdone
  have hplaces : places (s.results ++ [(s.calls, s.ending)]) = s.delivered := by
    rw [places_append, ending]
    cases s.failure with
    | none => exact List.append_nil _
    | some error => exact List.append_nil _
  refine ⟨?_, ?_, ?_, h.buffered, ?_, h.apart, ?_, h.unwaited, ?_⟩
  · rw [delivered, hplaces]
    exact h.ordered
  · rw [delivered, hplaces]
    exact h.below
  · intro call k payload hmem
    rcases List.mem_append.mp hmem with hold | hnew
    · exact h.payloads call k payload hold
    · have hover := congrArg Prod.snd (List.mem_singleton.mp hnew)
      unfold ending at hover
      cases hfailure : s.failure with
      | none =>
        rw [hfailure] at hover
        cases hover
      | some error =>
        rw [hfailure] at hover
        cases hover
  · rw [delivered, hplaces]
    exact h.accounted
  · have hnumbered := h.numbered
    rw [hwaiters, List.append_nil] at hnumbered
    rw [hwaiters, List.append_nil, List.map_append, hnumbered, List.range_succ]
    rfl
  · intro error n hfails
    obtain ⟨-, hfailure, hsome, hn, htold⟩ := h.told error n hfails
    have hnew : Tells error s.ending := by
      unfold ending
      rw [hfailure]
      cases error with
      | none => exact absurd rfl hsome
      | some e => rfl
    exact ⟨hdone, hfailure, hsome, told_snoc hn htold hnew⟩

theorem waiting_sound (h : Sound s) (hempty : s.buffer = []) (hdone : s.done = false) :
    Sound { s with calls := s.calls + 1, waiters := s.waiters ++ [s.calls] } := by
  refine ⟨h.ordered, h.below, h.payloads, h.buffered, h.accounted, .inl hempty, ?_, ?_, h.told⟩
  · rw [← List.append_assoc, h.numbered, List.range_succ]
  · exact fun hover => absurd (hdone.symm.trans hover) (by decide)

theorem next_sound (h : Sound s) : Sound s.next := by
  unfold next
  cases hbuffer : s.buffer with
  | cons oldest rest => exact taken_sound h hbuffer
  | nil =>
    by_cases hover : s.done = true
    · simp only [if_pos hover]
      exact hbuffer ▸ after_sound h hover
    · simp only [if_neg hover]
      exact hbuffer ▸ waiting_sound h hbuffer (by simpa using hover)

theorem failed_sound (h : Sound s) {error : Option ε} (htells : ¬ Silent s (.failed error))
    (hover : ¬ s.done = true) :
    Sound { s.finish error with fails := some (error, s.results.length) } := by
  have hfinished := finish_sound h error
  have hdone : s.done = false := by simpa using hover
  obtain ⟨hwaiters, hsome⟩ := not_or.mp fun hbad => htells ⟨hdone, hbad⟩
  have hfinish : s.finish error = { s with done := true, failure := error, waiters := [] } := by
    unfold finish
    rw [if_neg hover, not_not.mp hwaiters]
    simp
  rw [hfinish] at hfinished ⊢
  refine { hfinished with told := ?_ }
  rintro e n hfails
  cases hfails
  exact ⟨rfl, rfl, hsome, Nat.le_refl _, by simp⟩

theorem step_sound (h : Sound s) (hstep : s.step maxBuffer i = some s') (htells : ¬ Silent s i) :
    Sound s' := by
  cases i with
  | emit payload =>
    obtain rfl := Option.some.inj hstep
    exact push_sound h payload
  | next =>
    obtain rfl := Option.some.inj hstep
    exact next_sound h
  | «return» =>
    obtain rfl := Option.some.inj hstep
    exact finish_sound h none
  | throw error =>
    obtain rfl := Option.some.inj hstep
    exact finish_sound h error
  | abort =>
    obtain rfl := Option.some.inj hstep
    exact finish_sound h none
  | ended =>
    obtain rfl := Option.some.inj hstep
    exact finish_sound h none
  | failed error =>
    obtain rfl := Option.some.inj hstep
    split
    · exact h
    · rename_i hover
      exact failed_sound h htells hover

theorem finish_dropped (s : Iterator α ε) (error : Option ε) :
    (s.finish error).dropped = s.dropped := by
  unfold finish
  split <;> rfl

theorem next_dropped (s : Iterator α ε) : s.next.dropped = s.dropped := by
  unfold next
  split
  · rfl
  · split <;> rfl

theorem push_dropped {payload : α} {k : ℕ} (hk : k ∈ (s.push maxBuffer payload).dropped) :
    k ∈ s.dropped ∨ s.full maxBuffer = true ∧ s.buffer.head?.map Prod.fst = some k := by
  unfold push at hk
  split at hk
  · exact .inl hk
  · simp only at hk
    split at hk
    · exact .inl hk
    · simp only at hk
      split at hk
      · rename_i hfull
        rcases List.mem_append.mp hk with hold | hnew
        · exact .inl hold
        · refine .inr ⟨hfull, ?_⟩
          obtain ⟨oldest, holdest, rfl⟩ := List.mem_map.mp hnew
          rw [Option.mem_toList.mp holdest]
          rfl
      · exact .inl hk

theorem step_follows (hstep : s.step maxBuffer i = some s') : Follows maxBuffer s i s' := by
  intro k hk
  cases i with
  | emit payload =>
    obtain rfl := Option.some.inj hstep
    rcases push_dropped hk with hold | ⟨hfull, hhead⟩
    · exact .inl hold
    · exact .inr ⟨⟨payload, rfl⟩, hfull, hhead⟩
  | next =>
    obtain rfl := Option.some.inj hstep
    exact .inl (next_dropped s ▸ hk)
  | «return» =>
    obtain rfl := Option.some.inj hstep
    exact .inl (finish_dropped s none ▸ hk)
  | throw error =>
    obtain rfl := Option.some.inj hstep
    exact .inl (finish_dropped s error ▸ hk)
  | abort =>
    obtain rfl := Option.some.inj hstep
    exact .inl (finish_dropped s none ▸ hk)
  | ended =>
    obtain rfl := Option.some.inj hstep
    exact .inl (finish_dropped s none ▸ hk)
  | failed error =>
    obtain rfl := Option.some.inj hstep
    split at hk
    · exact .inl hk
    · have hfinished := finish_dropped s error
      exact .inl (hfinished ▸ hk)

theorem initial_sound : Sound (initial : Iterator α ε) := by
  refine ⟨List.Pairwise.nil, ?_, ?_, ?_, ?_, .inl rfl, rfl, nofun, nofun⟩ <;>
    simp [initial, delivered, places]

/-- Events before and after the first call, one of them lost, and a failure that is told once the
buffer is empty. -/
def progress : List (Step ℕ String) :=
  [.emit 1, .emit 2, .emit 3, .next, .next, .next, .emit 4, .emit 5, .failed (some "gone"), .emit 6,
    .next, .next, .next]

instance (i : Step ℕ String) (s : Iterator ℕ String) : Decidable (Silent s i) := by
  unfold Silent
  split <;> infer_instance

end Iterator
end Beam.Web.Iterable
