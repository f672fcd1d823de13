import BeamSdk.Web.Agent

/-! What becomes of the requests made on a Web Agent's session. -/

namespace Beam.Web.Agent

def Call.stopped (c : Call) : Call := { c.settle .stopped with armed := false }

def Call.halt (c : Call) : Call := if c.armed then c.stopped else c

def Happening.inner : Happening → List Inner
  | .credential _ _ inner => inner
  | .message _ _ inner => inner
  | .closed _ inner => inner
  | .disconnect inner => inner
  | .control _ inner => inner
  | .timedOut _ _ inner => inner
  | .aborted _ _ inner => inner
  | _ => []

/-- Whether these calls end with an attempt under way that they have begun, where a promise of
`connect()` is open or is not. -/
def leaves : Bool → Bool → List Inner → Bool
  | _, under, [] => under
  | opening, under, .connect :: rest => leaves true (under || !opening) rest
  | _, _, .disconnect :: rest => leaves false false rest

namespace Transport

structure CallsSettle (t : Transport) : Prop where
  bound : t.pending.length ≤ 28
  unique : ∀ (r r' : ℕ) (c c' : Call), t.calls[r]? = some c → t.calls[r']? = some c' →
    c.key = c'.key → c.key.isSome → r = r'
  settles : ∀ (r : ℕ) (c : Call), t.calls[r]? = some c → c.outcome = none → ∀ sends inner,
    ∃ (t' : Transport) (c' : Call), t.step (.timedOut r sends inner) = some t' ∧
      t'.calls[r]? = some c' ∧ c'.outcome.isSome

structure Follows (t : Transport) (happening : Happening) (t' : Transport) : Prop where
  once : ∀ (r : ℕ) (c : Call) (o : Outcome), t.calls[r]? = some c → c.outcome = some o →
    ∃ c', t'.calls[r]? = some c' ∧ c'.outcome = some o
  answered : ∀ (r : ℕ) (c' : Call) (o : Outcome), t'.calls[r]? = some c' → c'.outcome = some o →
    o.answer = true →
    (∀ c, t.calls[r]? = some c → c.outcome = none) →
    ∃ s id reply inner, happening = .message s (.response id reply) inner ∧
      c'.key = some (some s, id)
  finished : ∀ (r : ℕ) (c : Call), t.calls[r]? = some c → c.cancelled = true →
    (∃ id, (id, r) ∈ t.pending) →
    (∀ id, (id, r) ∉ t'.pending) → ∃ s id, c.key = some (some s, id)
      ∧ ((∃ reply inner, happening = .message s (.response id reply) inner) ∨ s ∈ t'.ended)

/-- A step that may leave an attempt that nothing can end: the socket is made by code that ends its
attempt, or the listeners of an attempt that ends begin another one. -/
def Escapes (t : Transport) : Happening → Prop
  | .credential _ .hungUp _ => True
  | happening => t.attempt.isSome = true ∧ leaves t.opening.isSome false happening.inner = true

instance (t : Transport) (happening : Happening) : Decidable (t.Escapes happening) := by
  unfold Escapes
  split <;> infer_instance

structure Stands (t : Transport) : Prop where
  bounded : ∀ a, t.attempt = some a → a < t.attempts
  waits : ∀ a ∈ t.waiting, t.attempt = some a
  nodup : t.waiting.Nodup
  owns : ∀ s, t.socket = some s → t.attempt = some s ∧ s ∉ t.waiting
  connects : t.connected = true → t.socket.isSome = true
  resolved : ∀ a, t.opening = some (a, true) → t.connected = true
  opens : t.connected = false → t.opening = none → t.attempt = none
  quiet : t.connected = false → t.pending = []

structure Kept (x : Option ℕ) (t : Transport) : Prop where
  bound : t.pending.length ≤ 28
  listed : ∀ id r, (id, r) ∈ t.pending → ∃ c, t.calls[r]? = some c ∧ c.armed = true ∧
    c.key = some (t.socket, id)
  armed : ∀ (r : ℕ) (c : Call), t.calls[r]? = some c → c.armed = true →
    ∃ id, c.key = some (t.socket, id) ∧ (id, r) ∈ t.pending
  numbered : ∀ (r : ℕ) (c : Call) (s : Option ℕ) (id : String), t.calls[r]? = some c →
    c.key = some (s, id) →
    ∃ b, s = some b ∧ b < t.attempts ∧ b ∉ t.waiting ∧
      (t.socket = some b → ∃ n ≤ t.counter, id = toString n)
  unique : ∀ (r r' : ℕ) (c c' : Call), t.calls[r]? = some c → t.calls[r']? = some c' →
    c.key = c'.key → c.key.isSome → r = r'
  unsettled : ∀ (r : ℕ) (c : Call), x ≠ some r → t.calls[r]? = some c → c.outcome = none →
    c.armed = true ∧ c.cancelled = false

structure Sound (x : Option ℕ) (t : Transport) : Prop extends Stands t, Kept x t

/-- What becomes of the calls from `t` to `t'`, where some may be answered and some confirmed as
finished. -/
structure Moves (answers confirms : ℕ → Prop) (t t' : Transport) : Prop where
  kept : ∀ (r : ℕ) (c : Call), t.calls[r]? = some c →
    ∃ c', t'.calls[r]? = some c' ∧ c'.key = c.key ∧ ∀ o, c.outcome = some o → c'.outcome = some o
  answered : ∀ (r : ℕ) (c' : Call) (o : Outcome), t'.calls[r]? = some c' → c'.outcome = some o →
    o.answer = true →
    answers r ∨ ∃ c, t.calls[r]? = some c ∧ c.outcome = some o
  finished : ∀ (r : ℕ) (c : Call), t.calls[r]? = some c → c.armed = true → confirms r ∨
    (∃ c', t'.calls[r]? = some c' ∧ c'.armed = true) ∨ ∃ s id, c.key = some (some s, id) ∧
      s ∈ t'.ended
  ended : ∀ s ∈ t.ended, s ∈ t'.ended

theorem Moves.of_same {answers confirms : ℕ → Prop} {t t' : Transport} (hcalls : t'.calls = t.calls)
    (hended : ∀ s ∈ t.ended, s ∈ t'.ended) : Moves answers confirms t t' where
  kept r c h := ⟨c, by rw [hcalls, h], rfl, fun _ => id⟩
  answered r c o h ho _ := .inr ⟨c, by rw [← hcalls, h], ho⟩
  finished r c h harmed := .inr (.inl ⟨c, by rw [hcalls, h], harmed⟩)
  ended := hended

theorem Moves.trans {answers confirms : ℕ → Prop} {t u v : Transport}
    (h : Moves answers confirms t u)
    (h' : Moves answers confirms u v) : Moves answers confirms t v where
  kept r c hc := by
    obtain ⟨d, hd, hkey, hout⟩ := h.kept r c hc
    obtain ⟨e, he, hkey', hout'⟩ := h'.kept r d hd
    exact ⟨e, he, hkey'.trans hkey, fun o ho => hout' o (hout o ho)⟩
  answered r c o hc ho hanswer := by
    rcases h'.answered r c o hc ho hanswer with hr | ⟨d, hd, ho⟩
    · exact .inl hr
    · exact h.answered r d o hd ho hanswer
  finished r c hc harmed := by
    rcases h.finished r c hc harmed with hr | ⟨d, hd, harmed'⟩ | ⟨s, id, hkey, hs⟩
    · exact .inl hr
    · obtain ⟨d', hd', hkey, -⟩ := h.kept r c hc
      obtain rfl : d = d' := Option.some.inj (hd.symm.trans hd')
      rcases h'.finished r d hd harmed' with hr | hstill | ⟨s, id, hkey', hs⟩
      · exact .inl hr
      · exact .inr (.inl hstill)
      · exact .inr (.inr ⟨s, id, hkey ▸ hkey', hs⟩)
    · exact .inr (.inr ⟨s, id, hkey, h'.ended s hs⟩)
  ended s hs := h'.ended s (h.ended s hs)

theorem modify_some {t : Transport} {r i : ℕ} {f : Call → Call} {c : Call}
    (h : (t.modify r f).calls[i]? = some c) :
    ∃ c', t.calls[i]? = some c' ∧ c = if r = i then f c' else c' := by
  simp only [modify, List.getElem?_modify] at h
  cases hcall : t.calls[i]? with
  | none => simp [hcall] at h
  | some c' =>
    refine ⟨c', rfl, ?_⟩
    simp only [hcall, Option.map_eq_map, Option.map_some, Option.some.injEq] at h
    rw [← h]

theorem modify_get {t : Transport} {i : ℕ} {c : Call} (h : t.calls[i]? = some c) (r : ℕ)
    (f : Call → Call) :
    (t.modify r f).calls[i]? = some (if r = i then f c else c) := by
  simp only [modify, List.getElem?_modify, h, Option.map_eq_map, Option.map_some]

theorem moves_modify {answers confirms : ℕ → Prop} {t : Transport} {r : ℕ} {f : Call → Call}
    (hkey : ∀ c, (f c).key = c.key) (hout : ∀ c o, c.outcome = some o → (f c).outcome = some o)
    (hanswer : ∀ c o, (f c).outcome = some o → o.answer = true → answers r ∨ c.outcome = some o)
    (harmed : ∀ c, c.armed = true → confirms r ∨ (f c).armed = true) :
      Moves answers confirms t (t.modify r f) where
  kept i c hc := by
    refine ⟨_, modify_get hc r f, ?_, fun o ho => ?_⟩
    · split
      · exact hkey c
      · rfl
    · split
      · exact hout c o ho
      · exact ho
  answered i c o hc ho hans := by
    obtain ⟨c', hc', rfl⟩ := modify_some hc
    split at ho
    · rename_i hri
      subst hri
      exact (hanswer c' o ho hans).imp_right fun h => ⟨c', hc', h⟩
    · exact .inr ⟨c', hc', ho⟩
  finished i c hc h := by
    by_cases hri : r = i
    · subst hri
      refine (harmed c h).imp_right fun h' => .inl ⟨f c, ?_, h'⟩
      rw [modify_get hc, if_pos rfl]
    · refine .inr (.inl ⟨c, ?_, h⟩)
      rw [modify_get hc, if_neg hri]
  ended s hs := hs

theorem kept_modify {x x' : Option ℕ} {t : Transport} {r : ℕ} {f : Call → Call} (h : Kept x t)
    (hkey : ∀ c, (f c).key = c.key) (harmed : ∀ c, (f c).armed = c.armed)
    (hout : ∀ c, (f c).outcome.isSome = true) (hx : x' = x ∨ x = some r) :
      Kept x' (t.modify r f) where
  bound := h.bound
  listed id i hmem := by
    obtain ⟨c, hc, ha, hk⟩ := h.listed id i hmem
    refine ⟨_, modify_get hc r f, ?_, ?_⟩
    · split
      · rw [harmed, ha]
      · exact ha
    · split
      · rw [hkey, hk]
        rfl
      · exact hk
  armed i c hc ha := by
    obtain ⟨c', hc', rfl⟩ := modify_some hc
    have ha' : c'.armed = true := by
      split at ha
      · rw [← harmed, ha]
      · exact ha
    obtain ⟨id, hk, hmem⟩ := h.armed i c' hc' ha'
    refine ⟨id, ?_, hmem⟩
    split
    · rw [hkey, hk]
      rfl
    · exact hk
  numbered i c s id hc hk := by
    obtain ⟨c', hc', rfl⟩ := modify_some hc
    refine h.numbered i c' s id hc' ?_
    split at hk
    · rw [← hkey, hk]
    · exact hk
  unique i j c d hc hd hk hsome := by
    obtain ⟨c', hc', rfl⟩ := modify_some hc
    obtain ⟨d', hd', rfl⟩ := modify_some hd
    have hc'' : (if r = i then f c' else c').key = c'.key := by
      split
      · exact hkey c'
      · rfl
    have hd'' : (if r = j then f d' else d').key = d'.key := by
      split
      · exact hkey d'
      · rfl
    rw [hc''] at hk hsome
    rw [hd''] at hk
    exact h.unique i j c' d' hc' hd' hk hsome
  unsettled i c hi hc ho := by
    obtain ⟨c', hc', rfl⟩ := modify_some hc
    by_cases hri : r = i
    · rw [if_pos hri] at ho
      have := hout c'
      rw [ho] at this
      cases this
    · rw [if_neg hri] at ho ⊢
      refine h.unsettled i c' ?_ hc' ho
      rcases hx with rfl | rfl
      · exact hi
      · exact fun heq => hri (Option.some.inj heq)

theorem stands_modify {t : Transport} {r : ℕ} {f : Call → Call} (h : Stands t) :
    Stands (t.modify r f) :=
  ⟨h.bounded, h.waits, h.nodup, h.owns, h.connects, h.resolved, h.opens, h.quiet⟩

/-- `t'` is `t` with its session ended and nothing under way. -/
structure Closed (t t' : Transport) : Prop where
  waiting : t'.waiting = []
  attempt : t'.attempt = none
  opening : t'.opening = none
  socket : t'.socket = none
  connected : t'.connected = false
  pending : t'.pending = []
  calls : t'.calls = t.calls.map Call.halt
  attempts : t.attempts ≤ t'.attempts
  owned : ∀ s, t.socket = some s → s ∈ t'.ended
  ended : ∀ s ∈ t.ended, s ∈ t'.ended

theorem stop_eq (t : Transport) (r : ℕ) :
    ∃ pending,
      t.stop r = { t with calls := t.calls.modify r Call.stopped, pending := pending } := by
  have hcalls : (t.calls.modify r fun c => { c with armed := false }).modify r
      (Call.settle .stopped)
      = t.calls.modify r Call.stopped := List.modify_modify_eq _ _ _ _
  unfold stop cleanup modify
  simp only
  split
  · exact ⟨_, by rw [← hcalls]⟩
  · exact ⟨t.pending, by rw [← hcalls]⟩

theorem stops_eq (entries : List (String × ℕ)) (t : Transport) :
    ∃ pending, entries.foldl (fun t entry => t.stop entry.2) t
      = { t with calls := entries.foldl (fun calls entry =>
        calls.modify entry.2 Call.stopped) t.calls, pending := pending } := by
  induction entries generalizing t with
  | nil => exact ⟨t.pending, rfl⟩
  | cons entry rest ih =>
    obtain ⟨pending, hstop⟩ := stop_eq t entry.2
    obtain ⟨pending', hrest⟩ := ih (t.stop entry.2)
    refine ⟨pending', ?_⟩
    rw [List.foldl_cons, List.foldl_cons, hrest, hstop]

theorem stopped_stopped (c : Call) : c.stopped.stopped = c.stopped := by
  simp [Call.stopped, Call.settle]

theorem stops_get (entries : List (String × ℕ)) (calls : List Call) (i : ℕ) :
    (entries.foldl (fun calls entry => calls.modify entry.2 Call.stopped) calls)[i]?
      = calls[i]?.map fun c => if i ∈ entries.map Prod.snd then c.stopped else c := by
  induction entries generalizing calls with
  | nil => simp
  | cons entry rest ih =>
    rw [List.foldl_cons, ih, List.getElem?_modify]
    cases calls[i]? with
    | none => simp
    | some c =>
      simp only [Option.map_eq_map, Option.map_some, List.map_cons, List.mem_cons,
        Option.some.injEq]
      by_cases hi : entry.2 = i
      · rw [if_pos hi, if_pos (Or.inl hi.symm), stopped_stopped, ite_self]
      · have hiff : i = entry.2 ∨ i ∈ rest.map Prod.snd ↔ i ∈ rest.map Prod.snd :=
          or_iff_right fun h => hi h.symm
        simp only [if_neg hi, hiff]

def Lists (t : Transport) : Prop := ∀ r c, t.calls[r]? = some c →
    (c.armed = true ↔ r ∈ t.pending.map Prod.snd)

theorem Kept.lists {x : Option ℕ} {t : Transport} (h : Kept x t) : t.Lists := by
  intro r c hc
  constructor
  · intro harmed
    obtain ⟨id, -, hmem⟩ := h.armed r c hc harmed
    exact List.mem_map.mpr ⟨_, hmem, rfl⟩
  · intro hmem
    obtain ⟨⟨id, r'⟩, hentry, rfl⟩ := List.mem_map.mp hmem
    obtain ⟨c', hc', harmed, -⟩ := h.listed id r' hentry
    rw [Option.some.inj (hc.symm.trans hc')]
    exact harmed

theorem sever_eq (t : Transport) (socket : Option ℕ) (hlists : t.Lists) : t.sever socket = { t with
    attempt := none
    opening := none
    ended := socket.toList ++ t.ended
    calls := t.calls.map Call.halt
    pending := [] } := by
  obtain ⟨pending, hstops⟩ := stops_eq t.pending
    { t with attempt := none, opening := none, ended := socket.toList ++ t.ended }
  have hcalls : t.pending.foldl (fun calls entry => calls.modify entry.2 Call.stopped) t.calls
      = t.calls.map Call.halt := by
    apply List.ext_getElem?
    intro i
    rw [stops_get, List.getElem?_map]
    cases hc : t.calls[i]? with
    | none => rfl
    | some c =>
      have hiff := hlists i c hc
      simp only [Option.map_some, Call.halt, hiff]
  unfold sever
  simp only
  rw [hstops]
  simp only [hcalls]

theorem halt_armed (c : Call) : c.halt.armed = false := by
  unfold Call.halt
  split
  · rfl
  · rename_i hunarmed
    simpa using hunarmed

theorem halt_halt (c : Call) : c.halt.halt = c.halt := by
  rw [Call.halt, halt_armed]
  rfl

theorem halts_lists {t : Transport} (calls : List Call) (hcalls : t.calls = calls.map Call.halt)
    (hpending : t.pending = []) : t.Lists := by
  intro r c hc
  rw [hcalls, List.getElem?_map] at hc
  obtain ⟨d, -, rfl⟩ := Option.map_eq_some_iff.mp hc
  simp [halt_armed, hpending]

/-- Between the two halves of `disconnect`, whatever the listeners have called. -/
structure Between (t : Transport) (opening under : Bool) (u : Transport) : Prop where
  socket : u.socket = none
  connected : u.connected = false
  promise : u.opening.isSome = opening
  idle : under = false → u.waiting = []
  busy : under = true → opening = true ∧ ∃ a, u.waiting = [a] ∧ u.attempt = some a
  attempts : t.attempts ≤ u.attempts
  ended : u.ended = t.ended
  calls : u.pending = t.pending ∧ u.calls = t.calls ∨ u.pending = [] ∧
    u.calls = t.calls.map Call.halt

theorem Between.lists {t u : Transport} {opening under : Bool} (h : Between t opening under u)
    (hlists : t.Lists) :
    u.Lists := by
  rcases h.calls with ⟨hpending, hcalls⟩ | ⟨hpending, hcalls⟩
  · unfold Lists
    rw [hpending, hcalls]
    exact hlists
  · exact halts_lists t.calls hcalls hpending

theorem Between.halted {t u : Transport} {opening under : Bool} (h : Between t opening under u) :
    u.calls.map Call.halt = t.calls.map Call.halt := by
  rcases h.calls with ⟨-, hcalls⟩ | ⟨-, hcalls⟩
  · rw [hcalls]
  · rw [hcalls, List.map_map]
    congr 1
    funext c
    exact halt_halt c

theorem abort_waiting {t u : Transport} {opening under : Bool} (h : Between t opening under u) :
    u.abort.waiting = [] := by
  cases under with
  | true =>
    obtain ⟨-, a, hwaiting, hattempt⟩ := h.busy rfl
    simp [abort, hwaiting, hattempt]
  | false =>
    have hidle := h.idle rfl
    cases hattempt : u.attempt with
    | none => simp [abort, hidle, hattempt]
    | some a => simp [abort, hidle, hattempt]

theorem between_connect {t u : Transport} {opening under : Bool} (h : Between t opening under u) :
    Between t true (under || !opening) u.connect := by
  have hconnect : u.connect = if u.opening.isSome then u else { u with
      attempts := u.attempts + 1
      waiting := u.waiting ++ [u.attempts]
      attempt := some u.attempts
      opening := some (u.attempts, false)
      counter := 0 } := by
    rw [connect, h.connected]
    rfl
  rw [hconnect, h.promise]
  cases opening with
  | true =>
    simp only [Bool.not_true, Bool.or_false, if_true]
    exact h
  | false =>
    have hidle : u.waiting = [] := h.idle (by
      cases under with
      | false => rfl
      | true => cases (h.busy rfl).1)
    simp only [Bool.not_false, Bool.or_true, Bool.false_eq_true, if_false]
    refine ⟨h.socket, h.connected, rfl, fun hbad => (by cases hbad), fun _ =>
      ⟨rfl, u.attempts, ?_, rfl⟩,
      Nat.le_succ_of_le h.attempts, h.ended, h.calls⟩
    simp [hidle]

theorem between_disconnect {t u : Transport} (hlists : t.Lists) {opening under : Bool}
    (h : Between t opening under u) :
    Between t false false (u.abort.sever u.socket) := by
  have hsever := sever_eq u.abort u.socket (h.lists hlists)
  rw [hsever]
  refine ⟨rfl, rfl, rfl, fun _ => abort_waiting h, fun hbad =>
    (by cases hbad), h.attempts, ?_, .inr ⟨rfl, h.halted⟩⟩
  simp only [h.socket, Option.toList_none, List.nil_append]
  exact h.ended

theorem between_calls {t : Transport} (hlists : t.Lists) (inner : List Inner) {opening under : Bool}
    {u : Transport}
    (h : Between t opening under u) (hleaves : leaves opening under inner = false) :
    ∃ opening', Between t opening' false (inner.foldl call u) := by
  induction inner generalizing opening under u with
  | nil =>
    obtain rfl : under = false := hleaves
    exact ⟨opening, h⟩
  | cons inner rest ih =>
    cases inner with
    | connect => exact ih (between_connect h) hleaves
    | disconnect => exact ih (between_disconnect hlists h) hleaves

theorem disconnect_closed {t : Transport} (hstands : Stands t) (hlists : t.Lists)
    {inner : List Inner}
    (hleaves : ¬ (t.attempt.isSome = true ∧ leaves t.opening.isSome false inner = true)) :
    Closed t (t.disconnect inner) := by
  have hwaiting : t.abort.waiting = [] := by
    unfold abort
    cases hattempt : t.attempt with
    | none =>
      have hnone : ∀ a, a ∉ t.waiting := fun a ha => by simpa [hattempt] using hstands.waits a ha
      simpa using List.eq_nil_iff_forall_not_mem.mpr hnone
    | some a =>
      refine List.eq_nil_iff_forall_not_mem.mpr fun b hb => ?_
      obtain ⟨hne, hmem⟩ := (hstands.nodup.mem_erase_iff).mp hb
      exact hne (Option.some.inj ((hstands.waits b hmem).symm.trans hattempt))
  have hbegin : Between t t.opening.isSome false t.abort :=
    ⟨rfl, rfl, rfl, fun _ => hwaiting, fun hbad => (by cases hbad), Nat.le_refl _, rfl,
      .inl ⟨rfl, rfl⟩⟩
  obtain ⟨opening, hbetween⟩ : ∃ opening, Between t opening false
      (if t.attempt.isSome then inner.foldl call t.abort else t.abort) := by
    split
    · rename_i hsome
      exact between_calls hlists inner hbegin (by simpa [hsome] using hleaves)
    · exact ⟨_, hbegin⟩
  have hsever := sever_eq _ t.socket (hbetween.lists hlists)
  unfold disconnect
  simp only
  rw [hsever]
  refine ⟨hbetween.idle rfl, rfl, rfl, hbetween.socket, hbetween.connected, rfl, hbetween.halted,
    hbetween.attempts,
    fun s hs => ?_, fun s hs => ?_⟩
  · simp [hs]
  · simp only [hbetween.ended, List.mem_append]
    exact .inr hs

theorem map_get {t t' : Transport} {f : Call → Call} (hcalls : t'.calls = t.calls.map f) {i : ℕ}
    {c : Call} :
    t'.calls[i]? = some c ↔ ∃ c', t.calls[i]? = some c' ∧ f c' = c := by
  rw [hcalls, List.getElem?_map, Option.map_eq_some_iff]

theorem halt_key (c : Call) : c.halt.key = c.key := by
  unfold Call.halt
  split <;> rfl

theorem halt_outcome (c : Call) (o : Outcome) (h : c.outcome = some o) :
    c.halt.outcome = some o := by
  unfold Call.halt Call.stopped Call.settle
  split
  · simp [h]
  · exact h

theorem halt_unsettled {c : Call} (h : c.halt.outcome = none) : c.outcome = none ∧
    c.armed = false := by
  unfold Call.halt Call.stopped Call.settle at h
  split at h
  · cases h
  · rename_i hunarmed
    exact ⟨h, by simpa using hunarmed⟩

theorem Closed.sound {x : Option ℕ} {t t' : Transport} (h : Closed t t') (hsound : Sound x t) :
    Sound x t' where
  bounded a ha := by rw [h.attempt] at ha; cases ha
  waits a ha := by rw [h.waiting] at ha; cases ha
  nodup := by rw [h.waiting]; exact List.nodup_nil
  owns s hs := by rw [h.socket] at hs; cases hs
  connects hc := by rw [h.connected] at hc; cases hc
  resolved a ha := by rw [h.opening] at ha; cases ha
  opens _ _ := h.attempt
  quiet _ := h.pending
  bound := by rw [h.pending]; exact Nat.zero_le _
  listed id r hmem := by rw [h.pending] at hmem; cases hmem
  armed r c hc harmed := by
    obtain ⟨c', -, rfl⟩ := (map_get h.calls).mp hc
    rw [halt_armed] at harmed
    cases harmed
  numbered r c s id hc hkey := by
    obtain ⟨c', hc', rfl⟩ := (map_get h.calls).mp hc
    rw [halt_key] at hkey
    obtain ⟨b, hs, hb, -, -⟩ := hsound.numbered r c' s id hc' hkey
    refine ⟨b, hs, Nat.lt_of_lt_of_le hb h.attempts, by simp [h.waiting], fun hsocket => ?_⟩
    rw [h.socket] at hsocket
    cases hsocket
  unique r r' c d hc hd hkey hsome := by
    obtain ⟨c', hc', rfl⟩ := (map_get h.calls).mp hc
    obtain ⟨d', hd', rfl⟩ := (map_get h.calls).mp hd
    rw [halt_key] at hkey hsome
    rw [halt_key] at hkey
    exact hsound.unique r r' c' d' hc' hd' hkey hsome
  unsettled r c hr hc hout := by
    obtain ⟨c', hc', rfl⟩ := (map_get h.calls).mp hc
    obtain ⟨hout', hunarmed⟩ := halt_unsettled hout
    obtain ⟨harmed, -⟩ := hsound.unsettled r c' hr hc' hout'
    rw [hunarmed] at harmed
    cases harmed

theorem Closed.moves {x : Option ℕ} {answers confirms : ℕ → Prop} {t t' : Transport}
    (h : Closed t t') (hsound : Sound x t) :
    Moves answers confirms t t' where
  kept r c hc := ⟨c.halt, (map_get h.calls).mpr ⟨c, hc, rfl⟩, halt_key c, halt_outcome c⟩
  answered r c o hc ho hanswer := by
    obtain ⟨c', hc', rfl⟩ := (map_get h.calls).mp hc
    refine .inr ⟨c', hc', ?_⟩
    unfold Call.halt Call.stopped Call.settle at ho
    split at ho
    · cases hout : c'.outcome with
      | none =>
        simp only [hout, Option.getD_none, Option.some.injEq] at ho
        subst ho
        cases hanswer
      | some o' => simpa [hout] using ho
    · exact ho
  finished r c hc harmed := by
    obtain ⟨id, hkey, -⟩ := hsound.armed r c hc harmed
    obtain ⟨s, hs, -, -, -⟩ := hsound.numbered r c _ id hc hkey
    exact .inr (.inr ⟨s, id, by rw [hkey, hs], h.owned s hs⟩)
  ended := h.ended

def Tame (t : Transport) (inner : List Inner) : Prop :=
  ¬ (t.attempt.isSome = true ∧ leaves t.opening.isSome false inner = true)

theorem disconnect_sound {x : Option ℕ} {t : Transport} {inner : List Inner} (hsound : Sound x t)
    (htame : t.Tame inner) :
    Sound x (t.disconnect inner) ∧
      (∀ answers confirms, Moves answers confirms t (t.disconnect inner))
      ∧ (t.disconnect inner).Tame inner := by
  have hclosed := disconnect_closed hsound.toStands hsound.toKept.lists htame
  refine ⟨hclosed.sound hsound, fun _ _ => hclosed.moves hsound, ?_⟩
  rintro ⟨hsome, -⟩
  rw [hclosed.attempt] at hsome
  cases hsome

theorem counted_sound {x : Option ℕ} {t : Transport} (h : Sound x t) :
    Sound x { t with counter := t.counter + 1 } := by
  refine ⟨⟨h.bounded, h.waits, h.nodup, h.owns, h.connects, h.resolved, h.opens, h.quiet⟩,
    h.bound, h.listed, h.armed, fun r c s id hc hkey => ?_, h.unique, h.unsettled⟩
  obtain ⟨b, hs, hb, hwaits, hid⟩ := h.numbered r c s id hc hkey
  refine ⟨b, hs, hb, hwaits, fun hsocket => ?_⟩
  obtain ⟨n, hn, hid⟩ := hid hsocket
  exact ⟨n, Nat.le_succ_of_le hn, hid⟩

theorem control_sound {x : Option ℕ} {t : Transport} (sends : Bool) {inner : List Inner}
    (hsound : Sound x t)
    (htame : t.Tame inner) : Sound x (t.control sends inner)
      ∧ (∀ answers confirms, Moves answers confirms t (t.control sends inner)) ∧
        (t.control sends inner).Tame inner := by
  unfold control
  split
  · exact ⟨hsound, fun _ _ => Moves.of_same rfl fun _ => id, htame⟩
  · split
    · exact disconnect_sound hsound htame
    · have hcounted := counted_sound hsound
      simp only
      split
      · exact ⟨hcounted, fun _ _ => Moves.of_same rfl fun _ => id, htame⟩
      · obtain ⟨hsound', hmoves, htame'⟩ := disconnect_sound hcounted htame
        refine ⟨hsound', fun answers confirms => ?_, htame'⟩
        have hcount : Moves answers confirms t { t with counter := t.counter + 1 } :=
          Moves.of_same rfl fun _ hs => hs
        exact hcount.trans (hmoves answers confirms)

theorem perhapsControl_sound {x : Option ℕ} {t : Transport} (sends : Option Bool)
    {inner : List Inner} (hsound : Sound x t)
    (htame : t.Tame inner) : Sound x (t.perhapsControl sends inner)
      ∧ (∀ answers confirms, Moves answers confirms t (t.perhapsControl sends inner))
      ∧ (t.perhapsControl sends inner).Tame inner := by
  cases sends with
  | none => exact ⟨hsound, fun _ _ => Moves.of_same rfl fun _ => id, htame⟩
  | some sends => exact control_sound sends hsound htame

theorem settle_sound {x x' : Option ℕ} {t : Transport} {r : ℕ} {f : Call → Call}
    (hsound : Sound x t)
    (hkey : ∀ c, (f c).key = c.key) (harmed : ∀ c, (f c).armed = c.armed)
    (hout : ∀ c, (f c).outcome.isSome = true)
    (hx : x' = x ∨ x = some r) : Sound x' (t.modify r f) :=
  { stands_modify hsound.toStands, kept_modify hsound.toKept hkey harmed hout hx with }

theorem settle_moves {answers confirms : ℕ → Prop} {t : Transport} {r : ℕ} (outcome : Outcome)
    (hanswers : outcome.answer = true → answers r) {f : Call → Call} (hkey : ∀ c, (f c).key = c.key)
    (harmed : ∀ c, (f c).armed = c.armed)
    (hout : ∀ c, (f c).outcome = some (c.outcome.getD outcome)) :
    Moves answers confirms t (t.modify r f) := by
  refine moves_modify hkey (fun c o ho => ?_) (fun c o ho hanswer => ?_) fun c h =>
    .inr ((harmed c).trans h)
  · rw [hout, ho]
    rfl
  · rw [hout] at ho
    cases hcase : c.outcome with
    | none =>
      rw [hcase, Option.getD_none] at ho
      obtain rfl := Option.some.inj ho
      exact .inl (hanswers hanswer)
    | some o' =>
      rw [hcase, Option.getD_some] at ho
      exact .inr ho

theorem cancel_sound {t : Transport} {r : ℕ} (outcome : Outcome) (hanswer : outcome.answer = false)
    (sends : Bool)
    {inner : List Inner} (hsound : Sound none t) (htame : t.Tame inner) :
    Sound none (t.cancel r outcome sends inner)
      ∧ ∀ answers confirms, Moves answers confirms t (t.cancel r outcome sends inner) := by
  have hmodified : Sound none (t.modify r fun c => { c.settle outcome with cancelled := true }) :=
    settle_sound hsound (fun _ => rfl) (fun _ => rfl) (fun _ => rfl) (.inl rfl)
  obtain ⟨hsound', hmoves, -⟩ := control_sound sends hmodified htame
  refine ⟨hsound', fun answers confirms => Moves.trans ?_ (hmoves answers confirms)⟩
  exact settle_moves outcome (fun hbad => by rw [hanswer] at hbad; cases hbad) (fun _ => rfl)
    (fun _ => rfl) fun _ => rfl

theorem cleanup_eq {t : Transport} {r : ℕ} {c : Call} {s : Option ℕ} {id : String}
    (hc : t.calls[r]? = some c)
    (hkey : c.key = some (s, id)) : t.cleanup r =
      { t.modify r fun c => { c with armed := false } with
      pending := t.pending.filter (·.1 ≠ id) } := by
  unfold cleanup
  simp only [hc, Option.bind_some, hkey]

theorem cleanup_sound {t : Transport} {r : ℕ} {c : Call} (hsound : Sound none t)
    (hc : t.calls[r]? = some c)
    (harmed : c.armed = true) : Sound (some r) (t.cleanup r)
      ∧ (∀ answers confirms, confirms r → Moves answers confirms t (t.cleanup r)) := by
  obtain ⟨id, hkey, hmem⟩ := hsound.armed r c hc harmed
  rw [cleanup_eq hc hkey]
  refine ⟨⟨⟨hsound.bounded, hsound.waits, hsound.nodup, hsound.owns, hsound.connects,
    hsound.resolved, hsound.opens, ?_⟩,
    ?_, ?_, ?_, ?_, ?_, ?_⟩, ?_⟩
  · intro hconnected
    simp only [hsound.quiet hconnected, List.filter_nil]
  · exact Nat.le_trans (List.length_filter_le _ _) hsound.bound
  · intro id' i hentry
    obtain ⟨hentry, hne⟩ := List.mem_filter.mp hentry
    obtain ⟨d, hd, hdarmed, hdkey⟩ := hsound.listed id' i hentry
    have hri : r ≠ i := by
      rintro rfl
      rw [Option.some.inj (hd.symm.trans hc), hkey] at hdkey
      simp only [Option.some.injEq, Prod.mk.injEq, true_and] at hdkey
      simp [hdkey] at hne
    refine ⟨d, ?_, hdarmed, hdkey⟩
    rw [modify_get hd, if_neg hri]
  · intro i d hd hdarmed
    obtain ⟨d', hd', rfl⟩ := modify_some hd
    by_cases hri : r = i
    · rw [if_pos hri] at hdarmed
      cases hdarmed
    · rw [if_neg hri] at hdarmed ⊢
      obtain ⟨id', hdkey, hentry⟩ := hsound.armed i d' hd' hdarmed
      refine ⟨id', hdkey, List.mem_filter.mpr ⟨hentry, ?_⟩⟩
      by_contra hsame
      have hsame : id' = id := by simpa using hsame
      exact hri (hsound.unique r i c d' hc hd' (by rw [hkey, hdkey, hsame]) (by rw [hkey]; rfl))
  · intro i d s id' hd hdkey
    obtain ⟨d', hd', rfl⟩ := modify_some hd
    refine hsound.numbered i d' s id' hd' ?_
    rw [← hdkey]
    split <;> rfl
  · intro i j d e hd he hsame hsome
    obtain ⟨d', hd', rfl⟩ := modify_some hd
    obtain ⟨e', he', rfl⟩ := modify_some he
    have hkeys : ∀ k (c : Call), (if r = k then { c with armed := false } else c).key = c.key :=
      fun k c => by
      split <;> rfl
    rw [hkeys] at hsame hsome
    rw [hkeys] at hsame
    exact hsound.unique i j d' e' hd' he' hsame hsome
  · intro i d hi hd hout
    obtain ⟨d', hd', rfl⟩ := modify_some hd
    have hri : r ≠ i := fun heq => hi (heq ▸ rfl)
    rw [if_neg hri] at hout ⊢
    exact hsound.unsettled i d' (by simp) hd' hout
  · intro answers confirms hconfirms
    have hmoves : Moves answers confirms t (t.modify r fun c => { c with armed := false }) :=
      moves_modify (fun _ => rfl) (fun _ _ ho => ho) (fun _ _ ho _ => .inr ho) fun _ _ =>
        .inl hconfirms
    exact hmoves.trans (Moves.of_same rfl fun _ hs => hs)

theorem Sound.of_settled {t : Transport} {r : ℕ} {c : Call} (h : Sound (some r) t)
    (hc : t.calls[r]? = some c)
    (hout : c.outcome.isSome = true) : Sound none t := by
  refine { h.toStands, h.toKept with unsettled := fun i d _ hd hnone => ?_ }
  by_cases hri : r = i
  · subst hri
    rw [Option.some.inj (hd.symm.trans hc)] at hnone
    rw [hnone] at hout
    cases hout
  · exact h.unsettled i d (fun heq => hri (Option.some.inj heq)) hd hnone

theorem receive_sound {t : Transport} {r : ℕ} {c : Call} (reply : Reply) {inner : List Inner}
    (hsound : Sound none t)
    (htame : t.Tame inner) (hc : t.calls[r]? = some c) (harmed : c.armed = true) :
    Sound none (t.receive r reply inner) ∧ Moves (· = r) (· = r) t (t.receive r reply inner) := by
  obtain ⟨hcleaned, hcleans⟩ := cleanup_sound hsound hc harmed
  have hfirst : Moves (· = r) (· = r) t (t.cleanup r) := hcleans _ _ rfl
  have htame' : (t.cleanup r).Tame inner := by
    unfold cleanup
    simp only
    split <;> exact htame
  obtain ⟨d, hd, -, hkept⟩ := hfirst.kept r c hc
  have hcancelled : t.calls[r]?.any Call.cancelled = c.cancelled := by rw [hc]; rfl
  unfold receive
  simp only [hcancelled]
  split
  · rename_i hiscancelled
    -- It has settled when it was cancelled.
    have hsettled : c.outcome.isSome = true := by
      by_contra hnone
      have hunsettled := hsound.unsettled r c (by simp) hc (by simpa using hnone)
      rw [hiscancelled] at hunsettled
      cases hunsettled.2
    obtain ⟨o, ho⟩ := Option.isSome_iff_exists.mp hsettled
    have hdone : Sound none (t.cleanup r) := hcleaned.of_settled hd (by rw [hkept o ho]; rfl)
    cases reply with
    | error => exact ⟨hdone, hfirst⟩
    | invalidError => exact ⟨hdone, hfirst⟩
    | value sends =>
      obtain ⟨hsound', hmoves, -⟩ := perhapsControl_sound sends hdone htame'
      exact ⟨hsound', hfirst.trans (hmoves _ _)⟩
    | invalid sends =>
      obtain ⟨hsound', hmoves, htame''⟩ := perhapsControl_sound sends hdone htame'
      obtain ⟨hsound'', hmoves', -⟩ := disconnect_sound hsound' htame''
      exact ⟨hsound'', (hfirst.trans (hmoves _ _)).trans (hmoves' _ _)⟩
  · have hsettles : ∀ (u : Transport) (outcome : Outcome), Sound (some r) u →
        Sound none (u.modify r (Call.settle outcome))
          ∧ Moves (· = r) (· = r) u (u.modify r (Call.settle outcome)) := by
      intro u outcome hu
      refine ⟨settle_sound hu (fun _ => rfl) (fun _ => rfl) (fun _ => rfl) (.inr rfl), ?_⟩
      refine settle_moves (f := Call.settle outcome) outcome (fun _ => ?_) (fun _ => rfl)
        (fun _ => rfl) fun _ => rfl
      rfl
    cases reply with
    | error =>
      obtain ⟨hsound', hmoves⟩ := hsettles _ .remote hcleaned
      exact ⟨hsound', hfirst.trans hmoves⟩
    | invalidError =>
      obtain ⟨hsound', hmoves⟩ := hsettles _ .invalid hcleaned
      obtain ⟨hsound'', hmoves', -⟩ := disconnect_sound hsound' htame'
      exact ⟨hsound'', (hfirst.trans hmoves).trans (hmoves' _ _)⟩
    | value sends =>
      obtain ⟨hsound', hmoves, -⟩ := perhapsControl_sound sends hcleaned htame'
      obtain ⟨hsound'', hmoves'⟩ := hsettles _ .resolved hsound'
      exact ⟨hsound'', (hfirst.trans (hmoves _ _)).trans hmoves'⟩
    | invalid sends =>
      obtain ⟨hsound', hmoves, htame''⟩ := perhapsControl_sound sends hcleaned htame'
      obtain ⟨hsound'', hmoves'⟩ := hsettles _ .invalid hsound'
      obtain ⟨hgone, hgoes, -⟩ := disconnect_sound hsound'' htame''
      exact ⟨hgone, ((hfirst.trans (hmoves _ _)).trans hmoves').trans (hgoes _ _)⟩

theorem append_some {calls : List Call} {i : ℕ} {c d : Call} (h : (calls ++ [c])[i]? = some d) :
    calls[i]? = some d ∨ i = calls.length ∧ d = c := by
  rcases Nat.lt_or_ge i calls.length with hi | hi
  · rw [List.getElem?_append_left hi] at h
    exact .inl h
  · rw [List.getElem?_append_right hi] at h
    obtain ⟨hzero, rfl⟩ := List.getElem?_eq_some_iff.mp h
    have hi' : i = calls.length := by
      simp only [List.length_singleton] at hzero
      omega
    exact .inr ⟨hi', by simp⟩

theorem append_get {calls : List Call} {i : ℕ} {c d : Call} (h : calls[i]? = some d) :
    (calls ++ [c])[i]? = some d := by
  obtain ⟨hi, -⟩ := List.getElem?_eq_some_iff.mp h
  rw [List.getElem?_append_left hi, h]

theorem append_moves {answers confirms : ℕ → Prop} {t t' : Transport} {c : Call}
    (hcalls : t'.calls = t.calls ++ [c])
    (hended : t'.ended = t.ended) (hanswer : ∀ o, c.outcome = some o → o.answer = false) :
      Moves answers confirms t t' where
  kept r d hd := ⟨d, by rw [hcalls, append_get hd], rfl, fun _ ho => ho⟩
  answered r d o hd ho hans := by
    rw [hcalls] at hd
    rcases append_some hd with hold | ⟨-, rfl⟩
    · exact .inr ⟨d, hold, ho⟩
    · rw [hanswer o ho] at hans
      cases hans
  finished r d hd harmed := .inr (.inl ⟨d, by rw [hcalls, append_get hd], harmed⟩)
  ended s hs := hended ▸ hs

theorem refused_sound {t : Transport} (hsound : Sound none t) :
    Sound none { t with calls := t.calls ++ [⟨none, false, false, some .refused⟩] } := by
  have hold : ∀ {i : ℕ} {c : Call},
      (t.calls ++ [⟨none, false, false, some .refused⟩])[i]? = some c →
      t.calls[i]? = some c ∨ c = ⟨none, false, false, some .refused⟩ :=
        fun h => (append_some h).imp_right And.right
  refine ⟨⟨hsound.bounded, hsound.waits, hsound.nodup, hsound.owns, hsound.connects,
    hsound.resolved, hsound.opens,
    hsound.quiet⟩, hsound.bound, ?_, ?_, ?_, ?_, ?_⟩
  · intro id r hmem
    obtain ⟨c, hc, hrest⟩ := hsound.listed id r hmem
    exact ⟨c, append_get hc, hrest⟩
  · intro r c hc harmed
    rcases hold hc with hc | rfl
    · exact hsound.armed r c hc harmed
    · cases harmed
  · intro r c s id hc hkey
    rcases hold hc with hc | rfl
    · exact hsound.numbered r c s id hc hkey
    · cases hkey
  · intro r r' c d hc hd hkey hsome
    rcases hold hc with hc | rfl
    · rcases hold hd with hd | rfl
      · exact hsound.unique r r' c d hc hd hkey hsome
      · rw [hkey] at hsome
        cases hsome
    · cases hsome
  · intro r c hr hc hout
    rcases hold hc with hc | rfl
    · exact hsound.unsettled r c hr hc hout
    · cases hout

theorem fresh_key {x : Option ℕ} {t : Transport} (hsound : Sound x t) {r : ℕ} {c : Call}
    (hc : t.calls[r]? = some c) :
    c.key ≠ some (t.socket, toString (t.counter + 1)) := by
  intro hkey
  obtain ⟨b, hb, -, -, hid⟩ := hsound.numbered r c _ _ hc hkey
  obtain ⟨n, hn, hsame⟩ := hid hb
  have : t.counter + 1 = n := Nat.repr_injective hsame
  omega

theorem setPending_fresh {t : Transport} (hsound : Sound none t) (r : ℕ) :
    setPending t.pending (toString (t.counter + 1)) r = t.pending ++
      [(toString (t.counter + 1), r)] := by
  unfold setPending
  rw [if_neg]
  intro hany
  obtain ⟨⟨id, i⟩, hmem, hsame⟩ := List.any_eq_true.mp hany
  obtain ⟨c, hc, -, hkey⟩ := hsound.listed id i hmem
  have hsame : id = toString (t.counter + 1) := by simpa using hsame
  exact fresh_key hsound hc (hsame ▸ hkey)

def requested (t : Transport) : Transport := { t with
  counter := t.counter + 1
  calls := t.calls ++ [⟨some (t.socket, toString (t.counter + 1)), true, false, none⟩]
  pending := t.pending ++ [(toString (t.counter + 1), t.calls.length)] }

theorem requested_sound {t : Transport} (hsound : Sound none t) (hconnected : t.connected = true)
    (hroom : t.pending.length < 28) : Sound none t.requested := by
  obtain ⟨s, hs⟩ := Option.isSome_iff_exists.mp (hsound.connects hconnected)
  obtain ⟨hattempt, hwaits⟩ := hsound.owns s hs
  have hlast :
      (t.calls ++ [⟨some (t.socket, toString (t.counter + 1)), true, false, none⟩])[t.calls.length]?
      = some (⟨some (t.socket, toString (t.counter + 1)), true, false, none⟩ : Call) :=
        List.getElem?_concat_length ..
  refine ⟨⟨hsound.bounded, hsound.waits, hsound.nodup, hsound.owns, hsound.connects,
    hsound.resolved, hsound.opens, ?_⟩,
    ?_, ?_, ?_, ?_, ?_, ?_⟩
  · intro hbad
    cases hconnected.symm.trans hbad
  · simp only [requested, List.length_append, List.length_singleton]
    omega
  · intro id r hmem
    rcases List.mem_append.mp hmem with hmem | hmem
    · obtain ⟨c, hc, hrest⟩ := hsound.listed id r hmem
      exact ⟨c, append_get hc, hrest⟩
    · simp only [List.mem_singleton, Prod.mk.injEq] at hmem
      obtain ⟨rfl, rfl⟩ := hmem
      exact ⟨_, hlast, rfl, rfl⟩
  · intro r c hc harmed
    rcases append_some hc with hc | ⟨rfl, rfl⟩
    · obtain ⟨id, hkey, hmem⟩ := hsound.armed r c hc harmed
      exact ⟨id, hkey, List.mem_append_left _ hmem⟩
    · exact ⟨_, rfl, List.mem_append_right _ (List.mem_singleton_self _)⟩
  · intro r c s' id hc hkey
    rcases append_some hc with hc | ⟨-, rfl⟩
    · obtain ⟨b, hb, hlt, hnot, hid⟩ := hsound.numbered r c s' id hc hkey
      refine ⟨b, hb, hlt, hnot, fun hsocket => ?_⟩
      obtain ⟨n, hn, hid⟩ := hid hsocket
      exact ⟨n, Nat.le_succ_of_le hn, hid⟩
    · simp only [Option.some.injEq, Prod.mk.injEq] at hkey
      obtain ⟨rfl, rfl⟩ := hkey
      exact ⟨s, hs, hsound.bounded s hattempt, hwaits, fun _ => ⟨_, Nat.le_refl _, rfl⟩⟩
  · intro r r' c d hc hd hkey hsome
    rcases append_some hc with hc | ⟨rfl, rfl⟩
    · rcases append_some hd with hd | ⟨rfl, rfl⟩
      · exact hsound.unique r r' c d hc hd hkey hsome
      · exact absurd hkey (fresh_key hsound hc)
    · rcases append_some hd with hd | ⟨rfl, rfl⟩
      · exact absurd hkey.symm (fresh_key hsound hd)
      · rfl
  · intro r c hr hc hout
    rcases append_some hc with hc | ⟨rfl, rfl⟩
    · exact hsound.unsettled r c hr hc hout
    · exact ⟨rfl, rfl⟩

theorem request_sound {t : Transport} (aborted sends : Bool) (hsound : Sound none t) :
    Sound none (t.request aborted sends) ∧ ∀ answers,
      Moves answers (· = t.calls.length) t (t.request aborted sends) := by
  unfold request
  split
  · exact ⟨refused_sound hsound, fun _ => append_moves rfl rfl fun o ho => by cases ho; rfl⟩
  · rename_i hgranted
    simp only [not_or, Decidable.not_not, Nat.not_le] at hgranted
    obtain ⟨-, hconnected, hroom, -⟩ := hgranted
    have hsound' := requested_sound hsound hconnected hroom
    have hmoves : ∀ answers, Moves answers (· = t.calls.length) t t.requested :=
      fun answers => append_moves rfl rfl fun o ho => by cases ho
    simp only
    rw [setPending_fresh hsound]
    split
    · exact ⟨hsound', hmoves⟩
    · have hlast : t.requested.calls[t.calls.length]?
          = some (⟨some (t.socket, toString (t.counter + 1)), true, false, none⟩ : Call) :=
            List.getElem?_concat_length ..
      obtain ⟨hcleaned, hcleans⟩ := cleanup_sound hsound' hlast rfl
      refine ⟨settle_sound (f := Call.settle .stopped) hcleaned (fun _ => rfl) (fun _ => rfl)
        (fun _ => rfl) (.inr rfl),
        fun answers => ?_⟩
      exact ((hmoves answers).trans (hcleans _ _ rfl)).trans
        (settle_moves (f := Call.settle .stopped) .stopped
        (fun hbad => by cases hbad) (fun _ => rfl) (fun _ => rfl) fun _ => rfl)

theorem connect_sound {t : Transport} (hsound : Sound none t) :
    Sound none t.connect ∧ ∀ answers confirms, Moves answers confirms t t.connect := by
  unfold connect
  split
  · exact ⟨hsound, fun _ _ => Moves.of_same rfl fun _ hs => hs⟩
  · rename_i hconnected
    have hconnected : t.connected = false := by simpa using hconnected
    split
    · exact ⟨hsound, fun _ _ => Moves.of_same rfl fun _ hs => hs⟩
    · rename_i hopening
      have hopening : t.opening = none := by simpa using hopening
      have hattempt := hsound.opens hconnected hopening
      have hwaiting : t.waiting = [] := List.eq_nil_iff_forall_not_mem.mpr fun a ha => by
        have hbad := hsound.waits a ha
        rw [hattempt] at hbad
        cases hbad
      have hsocket : t.socket = none := by
        cases hcase : t.socket with
        | none => rfl
        | some s => cases hattempt.symm.trans (hsound.owns s hcase).1
      have hpending := hsound.quiet hconnected
      refine ⟨⟨⟨?_, ?_, ?_, ?_, ?_, ?_, ?_, ?_⟩, hsound.bound, hsound.listed, hsound.armed, ?_,
        hsound.unique,
        hsound.unsettled⟩, fun _ _ => Moves.of_same rfl fun _ hs => hs⟩
      · intro a ha
        obtain rfl := Option.some.inj ha
        exact Nat.lt_succ_self _
      · simp [hwaiting]
      · simp [hwaiting]
      · simp [hsocket]
      · simp [hconnected]
      · simp
      · simp
      · exact fun _ => hpending
      · intro r c s id hc hkey
        obtain ⟨b, hb, hlt, -, -⟩ := hsound.numbered r c s id hc hkey
        refine ⟨b, hb, Nat.lt_succ_of_lt hlt, ?_, by simp [hsocket]⟩
        simp only [hwaiting, List.nil_append, List.mem_singleton]
        omega

theorem provided_sound {t : Transport} {a : ℕ} (hsound : Sound none t) :
    Sound none { t with waiting := t.waiting.erase a } := by
  have hsub : ∀ b ∈ t.waiting.erase a, b ∈ t.waiting := fun b hb => List.mem_of_mem_erase hb
  refine ⟨⟨hsound.bounded, fun b hb => hsound.waits b (hsub b hb), hsound.nodup.erase a, ?_,
    hsound.connects,
    hsound.resolved, hsound.opens, hsound.quiet⟩, hsound.bound, hsound.listed, hsound.armed, ?_,
      hsound.unique,
    hsound.unsettled⟩
  · intro s hs
    obtain ⟨hattempt, hnot⟩ := hsound.owns s hs
    exact ⟨hattempt, fun hmem => hnot (hsub s hmem)⟩
  · intro r c s id hc hkey
    obtain ⟨b, hb, hlt, hnot, hid⟩ := hsound.numbered r c s id hc hkey
    exact ⟨b, hb, hlt, fun hmem => hnot (hsub b hmem), hid⟩

theorem opened_sound {t : Transport} {a : ℕ} (hsound : Sound none t) (ha : a ∈ t.waiting) :
    Sound none { t with waiting := t.waiting.erase a, socket := some a } := by
  have hattempt := hsound.waits a ha
  have hsocket : t.socket = none := by
    cases hcase : t.socket with
    | none => rfl
    | some s =>
      obtain ⟨hs, hnot⟩ := hsound.owns s hcase
      obtain rfl : s = a := Option.some.inj (hs.symm.trans hattempt)
      exact absurd ha hnot
  have hconnected : t.connected = false := by
    by_contra hbad
    have hsome := hsound.connects (by simpa using hbad)
    rw [hsocket] at hsome
    cases hsome
  have hpending := hsound.quiet hconnected
  have hprovided := provided_sound (a := a) hsound
  refine ⟨⟨hprovided.bounded, hprovided.waits, hprovided.nodup, ?_, fun _ =>
    rfl, hprovided.resolved, hprovided.opens,
    hprovided.quiet⟩, hsound.bound, ?_, ?_, ?_, hsound.unique, hsound.unsettled⟩
  · intro s hs
    obtain rfl := Option.some.inj hs
    exact ⟨hattempt, hsound.nodup.not_mem_erase⟩
  · intro id r hmem
    simp [hpending] at hmem
  · intro r c hc harmed
    obtain ⟨id, -, hmem⟩ := hsound.armed r c hc harmed
    simp [hpending] at hmem
  · intro r c s id hc hkey
    obtain ⟨b, hb, hlt, hnot, -⟩ := hsound.numbered r c s id hc hkey
    refine ⟨b, hb, hlt, fun hmem => hnot (List.mem_of_mem_erase hmem), fun hsame => ?_⟩
    obtain rfl := Option.some.inj hsame
    exact absurd ha hnot

theorem follows_of_moves {answers confirms : ℕ → Prop} {t t' : Transport} {happening : Happening}
    (hsound : Sound none t)
    (hsound' : Sound none t') (hmoves : Moves answers confirms t t')
    (hanswers : ∀ r c, answers r → t.calls[r]? = some c →
      ∃ s id reply inner, happening = .message s (.response id reply) inner ∧
        c.key = some (some s, id))
    (hold : ∀ r, answers r → r < t.calls.length)
    (hconfirms : ∀ r c, confirms r → t.calls[r]? = some c →
      ∃ s id, c.key = some (some s, id) ∧ ∃ reply inner,
        happening = .message s (.response id reply) inner) :
    Follows t happening t' := by
  refine ⟨fun r c o hc ho => ?_,
    fun r c o hc ho hanswer hbefore => ?_, fun r c hc _ hpending hover => ?_⟩
  · obtain ⟨c', hc', -, hout⟩ := hmoves.kept r c hc
    exact ⟨c', hc', hout o ho⟩
  · rcases hmoves.answered r c o hc ho hanswer with hr | ⟨d, hd, hsettled⟩
    · obtain ⟨d, hd⟩ : ∃ d, t.calls[r]? = some d := ⟨_, List.getElem?_eq_getElem (hold r hr)⟩
      obtain ⟨c', hc', hkey, -⟩ := hmoves.kept r d hd
      obtain rfl : c = c' := Option.some.inj (hc.symm.trans hc')
      rw [hkey]
      exact hanswers r d hr hd
    · rw [hbefore d hd] at hsettled
      cases hsettled
  · obtain ⟨id, hmem⟩ := hpending
    obtain ⟨c', hc', harmed, -⟩ := hsound.listed id r hmem
    obtain rfl : c = c' := Option.some.inj (hc.symm.trans hc')
    rcases hmoves.finished r c hc harmed with hr | ⟨c', hc', harmed'⟩ | ⟨s, id, hkey, hs⟩
    · obtain ⟨s, id, hkey, hresponse⟩ := hconfirms r c hr hc
      exact ⟨s, id, hkey, .inl hresponse⟩
    · obtain ⟨id', -, hmem'⟩ := hsound'.armed r c' hc' harmed'
      exact absurd hmem' (hover id')
    · exact ⟨s, id, hkey, .inr hs⟩

theorem follows_of_quiet {t t' : Transport} (happening : Happening) (hsound : Sound none t)
    (hsound' : Sound none t')
    (hmoves : ∀ answers confirms, Moves answers confirms t t') : Follows t happening t' :=
  follows_of_moves hsound hsound' (hmoves (fun _ => False) fun _ => False) (fun _ _ h => h.elim)
    (fun _ h => h.elim)
    fun _ _ h => h.elim

theorem onmessage_sound {t : Transport} {s : ℕ} {wire : Wire} {inner : List Inner}
    (hsound : Sound none t)
    (htame : t.Tame inner) :
    Sound none (t.onmessage s wire inner) ∧
      Follows t (.message s wire inner) (t.onmessage s wire inner) := by
  have hquiet : ∀ {t' : Transport}, Sound none t' →
      (∀ answers confirms, Moves answers confirms t t') →
      Sound none t' ∧ Follows t (.message s wire inner) t' :=
    fun hsound' hmoves => ⟨hsound', follows_of_quiet _ hsound hsound' hmoves⟩
  have hsame : ∀ answers confirms, Moves answers confirms t t :=
    fun _ _ => Moves.of_same rfl fun _ hs => hs
  obtain ⟨hgone, hgoes, -⟩ := disconnect_sound hsound htame
  unfold onmessage
  split
  · exact hquiet hsound hsame
  · rename_i hsocket
    have hsocket : t.socket = some s := by simpa using hsocket
    split
    · rename_i hconnected
      have hconnected : t.connected = false := by simpa using hconnected
      split
      · refine hquiet ⟨⟨hsound.bounded, hsound.waits, hsound.nodup, hsound.owns, ?_, ?_, ?_, ?_⟩,
          hsound.bound,
          hsound.listed, hsound.armed, hsound.numbered, hsound.unique, hsound.unsettled⟩
          fun _ _ => Moves.of_same rfl fun _ hs => hs
        · exact fun _ => by simp [hsocket]
        · exact fun _ _ => rfl
        · exact fun hbad => by cases hbad
        · exact fun hbad => by cases hbad
      · exact hquiet hgone hgoes
    · cases wire with
      | malformed => exact hquiet hgone hgoes
      | ready => exact hquiet hsound hsame
      | event fails =>
        simp only
        split
        · exact hquiet hgone hgoes
        · exact hquiet hsound hsame
      | response id reply =>
        simp only
        split
        · rename_i id' r hfound
          have hmem := List.mem_of_find?_eq_some hfound
          obtain rfl : id' = id := by simpa using List.find?_some hfound
          obtain ⟨c, hc, harmed, hkey⟩ := hsound.listed id' r hmem
          obtain ⟨hsound', hmoves⟩ := receive_sound reply hsound htame hc harmed
          rw [hsocket] at hkey
          refine ⟨hsound', follows_of_moves hsound hsound' hmoves ?_ ?_ ?_⟩
          · rintro _ d rfl hd
            obtain rfl : d = c := Option.some.inj (hd.symm.trans hc)
            exact ⟨s, id', reply, inner, rfl, hkey⟩
          · rintro _ rfl
            exact (List.getElem?_eq_some_iff.mp hc).1
          · rintro _ d rfl hd
            obtain rfl : d = c := Option.some.inj (hd.symm.trans hc)
            exact ⟨s, id', hkey, reply, inner, rfl⟩
        · exact hquiet hsound hsame

theorem step_sound {t t' : Transport} {happening : Happening} (hsound : Sound none t)
    (hstep : t.step happening = some t') (htame : ¬ t.Escapes happening) : Sound none t' ∧
      Follows t happening t' := by
  have hquiet : ∀ {u : Transport}, Sound none u → (∀ answers confirms, Moves answers confirms t u) →
      Sound none u ∧ Follows t happening u :=
    fun hsound' hmoves => ⟨hsound', follows_of_quiet _ hsound hsound' hmoves⟩
  cases happening with
  | connect =>
    obtain rfl := Option.some.inj hstep
    obtain ⟨hsound', hmoves⟩ := connect_sound hsound
    exact hquiet hsound' hmoves
  | credential a provision inner =>
    simp only [step, Option.ite_none_right_eq_some] at hstep
    obtain ⟨ha, hstep⟩ := hstep
    cases provision with
    | failed =>
      obtain rfl := Option.some.inj hstep
      obtain ⟨hsound', hmoves, -⟩ := disconnect_sound (provided_sound (a := a) hsound) htame
      have hprovided : ∀ answers confirms,
          Moves answers confirms t { t with waiting := t.waiting.erase a } :=
        fun _ _ => Moves.of_same rfl fun _ hs => hs
      exact hquiet hsound' fun answers confirms =>
        (hprovided answers confirms).trans (hmoves answers confirms)
    | opened =>
      obtain rfl := Option.some.inj hstep
      exact hquiet (opened_sound hsound ha) fun _ _ => Moves.of_same rfl fun _ hs => hs
    | hungUp => exact absurd trivial htame
  | openingSettled =>
    simp only [step, Option.ite_none_right_eq_some, Option.some.injEq] at hstep
    obtain ⟨hresolved, rfl⟩ := hstep
    obtain ⟨⟨a, resolved⟩, hopening, htrue⟩ := (Option.any_eq_true _ _).mp hresolved
    obtain rfl : resolved = true := htrue
    have hconnected := hsound.resolved a hopening
    refine hquiet
      ⟨⟨hsound.bounded, hsound.waits, hsound.nodup, hsound.owns, hsound.connects, ?_, ?_,
        hsound.quiet⟩,
      hsound.bound, hsound.listed, hsound.armed, hsound.numbered, hsound.unique, hsound.unsettled⟩
      fun _ _ => Moves.of_same rfl fun _ hs => hs
    · exact fun b hb => by cases hb
    · exact fun hbad => by cases hbad.symm.trans hconnected
  | message s wire inner =>
    obtain rfl := Option.some.inj hstep
    exact onmessage_sound hsound htame
  | closed s inner =>
    simp only [step, Option.ite_none_right_eq_some, Option.some.injEq] at hstep
    obtain ⟨-, rfl⟩ := hstep
    have hended : Sound none { t with ended := s :: t.ended } :=
      ⟨⟨hsound.bounded, hsound.waits, hsound.nodup, hsound.owns, hsound.connects, hsound.resolved,
        hsound.opens,
        hsound.quiet⟩, hsound.bound, hsound.listed, hsound.armed, hsound.numbered, hsound.unique,
          hsound.unsettled⟩
    have hmoves : ∀ answers confirms, Moves answers confirms t { t with ended := s :: t.ended } :=
      fun _ _ => Moves.of_same rfl fun _ hs => List.mem_cons_of_mem _ hs
    split
    · obtain ⟨hsound', hmoves', -⟩ := disconnect_sound hended htame
      exact hquiet hsound' fun answers confirms =>
        (hmoves answers confirms).trans (hmoves' answers confirms)
    · exact hquiet hended hmoves
  | disconnect inner =>
    obtain rfl := Option.some.inj hstep
    obtain ⟨hsound', hmoves, -⟩ := disconnect_sound hsound htame
    exact hquiet hsound' hmoves
  | request aborted sends =>
    obtain rfl := Option.some.inj hstep
    obtain ⟨hsound', hmoves⟩ := request_sound aborted sends hsound
    refine ⟨hsound', follows_of_moves hsound hsound' (hmoves fun _ => False) (fun _ _ h => h.elim)
      (fun _ h => h.elim) ?_⟩
    rintro _ c rfl hc
    simp at hc
  | control sends inner =>
    obtain rfl := Option.some.inj hstep
    obtain ⟨hsound', hmoves, -⟩ := control_sound sends hsound htame
    exact hquiet hsound' hmoves
  | timedOut r sends inner =>
    simp only [step, Option.ite_none_right_eq_some, Option.some.injEq] at hstep
    obtain ⟨-, rfl⟩ := hstep
    split
    · obtain ⟨hsound', hmoves, -⟩ := disconnect_sound hsound htame
      exact hquiet hsound' hmoves
    · obtain ⟨hsound', hmoves⟩ := cancel_sound (r := r) .timedOut rfl sends hsound htame
      exact hquiet hsound' hmoves
  | aborted r sends inner =>
    simp only [step, Option.ite_none_right_eq_some, Option.some.injEq] at hstep
    obtain ⟨-, rfl⟩ := hstep
    obtain ⟨hsound', hmoves⟩ := cancel_sound (r := r) .aborted rfl sends hsound htame
    exact hquiet hsound' hmoves

def Settled (t : Transport) (r : ℕ) : Prop := ∃ c, t.calls[r]? = some c ∧ c.outcome.isSome = true

theorem sever_settled {t : Transport} {r : ℕ} (socket : Option ℕ)
    (h : t.Settled r) : (t.sever socket).Settled r := by
  obtain ⟨c, hc, hout⟩ := h
  obtain ⟨pending, hstops⟩ := stops_eq t.pending
    { t with attempt := none, opening := none, ended := socket.toList ++ t.ended }
  have hget : (t.sever socket).calls[r]?
      = some (if r ∈ t.pending.map Prod.snd then c.stopped else c) := by
    unfold sever
    simp only
    rw [hstops]
    simp only [stops_get, hc, Option.map_some]
  refine ⟨_, hget, ?_⟩
  split
  · rfl
  · exact hout

theorem connect_settled {t : Transport} {r : ℕ} (h : t.Settled r) : t.connect.Settled r := by
  unfold connect
  split
  · exact h
  · split <;> exact h

theorem disconnect_settled {t : Transport} {r : ℕ} (inner : List Inner) (h : t.Settled r) :
    (t.disconnect inner).Settled r := by
  have hcalls : ∀ (inner : List Inner) (u : Transport), u.Settled r →
      (inner.foldl call u).Settled r := by
    intro inner
    induction inner with
    | nil => exact fun u hu => hu
    | cons inner rest ih =>
      intro u hu
      cases inner with
      | connect => exact ih _ (connect_settled hu)
      | disconnect => exact ih _ (sever_settled (t := u.abort) _ hu)
  unfold disconnect
  simp only
  refine sever_settled _ ?_
  split
  · exact hcalls inner t.abort h
  · exact h

theorem control_settled {t : Transport} {r : ℕ} (sends : Bool) (inner : List Inner)
    (h : t.Settled r) :
    (t.control sends inner).Settled r := by
  unfold control
  split
  · exact h
  · split
    · exact disconnect_settled inner h
    · simp only
      split
      · exact h
      · exact disconnect_settled (t := { t with counter := t.counter + 1 }) inner h

theorem Sound.callsSettle {t : Transport} (hsound : Sound none t) : CallsSettle t := by
  refine ⟨hsound.bound, hsound.unique, fun r c hc hout sends inner => ?_⟩
  obtain ⟨harmed, hcancelled⟩ := hsound.unsettled r c (by simp) hc hout
  have hsettled : (t.cancel r .timedOut sends inner).Settled r := by
    refine control_settled sends inner ⟨_, modify_get hc r _, ?_⟩
    rw [if_pos rfl]
    rfl
  obtain ⟨c', hc', hout'⟩ := hsettled
  refine ⟨t.cancel r .timedOut sends inner, c', ?_, hc', hout'⟩
  simp [step, hc, harmed, hcancelled]

theorem initial_sound : Sound none initial := by
  refine ⟨⟨?_, ?_, ?_, ?_, ?_, ?_, ?_, ?_⟩, ?_, ?_, ?_, ?_, ?_, ?_⟩ <;> simp [initial]

/-- All along a run in which no attempt escapes, every promise settles once and in time, ids are
unique on a socket, no more than 28 requests are pending, an answer settles the request of its
socket and id only, and a cancelled request is over when the agent has answered it or its socket is
closed. -/
theorem each_answered {happenings : List Happening} {t : Transport}
    (hrun : Run.after step initial happenings = some t)
    (htame : Run.Never step initial happenings Escapes) :
    CallsSettle initial ∧ Run.Each step initial happenings
      (fun t happening t' => Follows t happening t' ∧ CallsSettle t') := by
  refine ⟨initial_sound.callsSettle,
    (Run.each_of_never (I := Sound none) (fun u i v hu hstep hgood => ?_) initial_sound hrun
    htame).1⟩
  obtain ⟨hv, hfollows⟩ := step_sound hu hstep hgood
  exact ⟨hv, hfollows, hv.callsSettle⟩

/-- A session with an answer, an abort and a late answer, and another one after it. -/
def sessions : List Happening :=
  [.connect, .credential 0 .opened [], .message 0 .ready [], .openingSettled, .request false true,
    .request false true,
    .message 0 (.response "1" (.value none)) [], .aborted 1 true [],
      .message 0 (.response "2" (.value (some true))) [],
    .request false true, .disconnect [.disconnect], .message 0 (.response "4" .error) [], .connect,
    .credential 1 .opened [], .message 1 .ready [], .request false true, .timedOut 3 true [],
      .timedOut 3 true []]

theorem sessions_answered : CallsSettle initial
    ∧ Run.Each step initial sessions (fun t happening t' => Follows t happening t' ∧
      CallsSettle t') := by
  obtain ⟨t, hrun⟩ : ∃ t, Run.after step initial sessions = some t := ⟨_, rfl⟩
  exact each_answered hrun (Run.never_of_check (by decide))

def reconnected : List Happening :=
  [.connect, .credential 0 .opened [], .message 0 .ready [], .openingSettled,
    .disconnect [.connect], .connect,
    .credential 1 .opened [], .message 1 .ready [], .request false true, .credential 2 .opened []]

/-- Then a request of one socket is settled by an answer that comes on another one, or is given up
although its socket stays open and nobody has answered. -/
theorem reconnected_unanswered :
    (∃ t t', Run.after step initial reconnected = some t
      ∧ t.step (.message 2 (.response "1" (.value none)) []) = some t'
      ∧ ¬ Follows t (.message 2 (.response "1" (.value none)) []) t')
    ∧ ∃ t t', Run.after step initial (reconnected ++ [.aborted 0 true []]) = some t
      ∧ t.step (.disconnect []) = some t' ∧ ¬ Follows t (.disconnect []) t' := by
  refine ⟨⟨_, _, rfl, rfl, fun hfollows => ?_⟩, ⟨_, _, rfl, rfl, fun hfollows => ?_⟩⟩
  · obtain ⟨s, id, reply, inner, hresponse, hkey⟩ :=
      hfollows.answered 0 _ .resolved rfl rfl rfl (by decide)
    obtain ⟨rfl, -, -⟩ := Happening.message.inj hresponse
    have hsocket : some (some 1, "1") = some (some 2, id) := hkey
    simp at hsocket
  · obtain ⟨s, id, hkey, hover⟩ :=
      hfollows.finished 0 _ rfl rfl ⟨"1", by decide⟩ (fun id hmem => by cases hmem)
    rcases hover with ⟨reply, inner, hresponse⟩ | hended
    · cases hresponse
    · have hsocket : some (some 1, "1") = some (some s, id) := hkey
      simp only [Option.some.injEq, Prod.mk.injEq] at hsocket
      obtain ⟨rfl, -⟩ := hsocket
      revert hended
      decide

end Transport
end Beam.Web.Agent
