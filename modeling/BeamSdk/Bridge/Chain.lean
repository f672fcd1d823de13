import BeamSdk.Bridge.Bridge
import BeamSdk.Library.Trace

/-! The bridge with answers from a contract that a relay serves: its pump, which looks each receipt
up, and opens a request on the contract for what is not there yet, once per description. -/

namespace Beam.Bridge

def MAX_CHAIN_FAILURES : ℕ := 5

structure Deployment where
  chainId : ℕ
  contract : Contract.Address
  donAttested : Bool

structure ChainAnswer where
  answer : AttestationAnswer
  transaction : Option String
  block : Option ℕ

structure Opening where
  transaction : String
  block : ℕ

inductive ChainReply
  | recorded (deployment : Deployment) (attestation : Attestation) (found : ChainAnswer)
  | unanswered (attestation : Attestation) (reason message : String)

/-- `answers` of a configuration whose answers come from a contract. -/
structure ContractAnswers where
  pollSeconds : ℤ
  answerWithinSeconds : ℤ

/-- A request as this bridge keeps it, told apart from others like `BridgeRequest`. -/
structure ChainRequest where
  ref : ℕ
  id : String
  room : String
  channel : String
  publisher : String
  receivedAt : ℤ
  attestation : Attestation
  publishOnchain : Bool
  -- failed reads or requests
  attempts : ℕ
  -- when the request was opened on the contract
  forwardedAt : Option ℤ
  requestedBlock : Option ℕ
  reply : Option ChainReply
  answeredAt : Option ℤ

structure ChainWorld where
  requests : OrderedMap String ChainRequest
  nextRunAt : ℤ

inductive ChainCall
  | lookup (attestation : Attestation) (since : Option ℕ)
  | request (attestation : Attestation)

def ChainCall.Answer : ChainCall → Type
  | .lookup _ _ => Option ChainAnswer
  | .request _ => Opening

abbrev ChainProgram := Script ChainCall ChainCall.Answer Relay.Thrown

def lookup (attestation : Attestation) (since : Option ℕ) :
    ChainProgram (Except Relay.Thrown (Option ChainAnswer)) :=
  (Script.io (ChainCall.lookup attestation since)).attempt

def request (attestation : Attestation) : ChainProgram (Except Relay.Thrown Opening) :=
  (Script.io (ChainCall.request attestation)).attempt

namespace ChainWorld
variable (w : ChainWorld)

def kept : List ChainRequest := objectValues w.requests

def mapRequests (f : ChainRequest → ChainRequest) : ChainWorld :=
  { w with requests := w.requests.map fun entry => (entry.1, f entry.2) }

def put (request : ChainRequest) : ChainWorld :=
  w.mapRequests fun pending => if pending.ref = request.ref then request else pending

def dropExpired (now : ℤ) : ChainWorld :=
  { w with requests := w.requests.filter fun entry =>
    ¬ now - entry.2.receivedAt > RETENTION_SECONDS }

def unanswered : List ChainRequest :=
  (w.kept.filter fun pending => pending.reply.isNone).insertionSort fun a b =>
    a.receivedAt ≤ b.receivedAt

end ChainWorld

section Pump
variable (deployment : Deployment) (answers : ContractAnswers) (now : ℤ)

def giveUp (pending : ChainRequest) : ChainRequest :=
  if pending.reply.isNone ∧
    (pending.forwardedAt.any fun forwardedAt =>
      now - forwardedAt > answers.answerWithinSeconds) then
    { pending with
      reply := some (.unanswered pending.attestation "not_recorded"
        ("No receipt was recorded within " ++ toString answers.answerWithinSeconds ++
          " seconds: Beam reported nothing finished for it, or the relay is not running."))
      answeredAt := some now }
  else pending

def failed (pending : ChainRequest) : ChainRequest :=
  let pending := { pending with attempts := pending.attempts + 1 }
  if pending.attempts ≥ MAX_CHAIN_FAILURES then
    { pending with
      reply := some (.unanswered pending.attestation "chain_unavailable"
        "The receipts contract could not be read or asked for this receipt.")
      answeredAt := some now }
  else pending

def recorded (pending : ChainRequest) (found : ChainAnswer) : ChainRequest :=
  { pending with
    reply := some (.recorded deployment pending.attestation found), answeredAt := some now }

def marked (pending : ChainRequest) (opening : Opening) : ChainRequest :=
  { pending with forwardedAt := some now, requestedBlock := some opening.block }

def serve (state : OrderedMap String Opening × ChainWorld) (pending : ChainRequest) :
    ChainProgram (OrderedMap String Opening × ChainWorld) :=
  lookup pending.attestation pending.requestedBlock >>= fun
    | .error _ => pure (state.1, state.2.put (failed now pending))
    | .ok (some found) => pure (state.1, state.2.put (recorded deployment now pending found))
    | .ok none =>
      if pending.forwardedAt.isSome then pure state
      else match state.1.get (describe pending.attestation) with
        | some opening => pure (state.1, state.2.put (marked now pending opening))
        | none => request pending.attestation >>= fun
          | .error _ => pure (state.1, state.2.put (failed now pending))
          | .ok opening =>
            pure (state.1.set (describe pending.attestation)
              opening, state.2.put (marked now pending opening))

def chainSweep (w : ChainWorld) : ChainWorld := (w.dropExpired now).mapRequests (giveUp answers now)

def pumpContract (w : ChainWorld) : ChainProgram ChainWorld :=
  let w := chainSweep answers now w
  if now < w.nextRunAt then pure w
  else do
    let w := { w with nextRunAt := now + answers.pollSeconds }
    let (_, w) ← w.unanswered.foldlM (serve deployment now) ([], w)
    pure w

end Pump

def Apart (attestations : List Attestation) : Prop :=
  ∀ a ∈ attestations, ∀ b ∈ attestations, describe a = describe b → a = b

abbrev ChainLog := List (Script.Told ChainCall.Answer Relay.Thrown)

def Opens (log : ChainLog) (attestation : Attestation) : Prop :=
  ∃ opening : Opening, ⟨.request attestation, .ok opening⟩ ∈ log

def untold : (c : ChainCall) → Except Relay.Thrown c.Answer
  | .lookup _ _ => .ok none
  | .request _ => .ok (⟨"", 0⟩ : Opening)

section Rounds
variable {deployment : Deployment} {answers : ContractAnswers} {now : ℤ}
    {opened opened' : OrderedMap String Opening}
  {w w' : ChainWorld} {pending : ChainRequest} {log : ChainLog}

theorem opens_append {rest : ChainLog} {a : Attestation} : Opens (log ++ rest) a ↔ Opens log a ∨
    Opens rest a := by
  simp only [Opens, List.mem_append, exists_or]

structure Passes (pending : ChainRequest) (log : ChainLog) (w w' : ChainWorld) : Prop where
  opens : ∀ a, ¬ Opens log a
  kept : w' = w ∨ ∃ p, w' = w.put p ∧ p.ref = pending.ref ∧ p.forwardedAt = pending.forwardedAt
  told : (∀ event ∈ log, event.2 = untold event.1) → pending.forwardedAt ≠ none ∧ w' = w

/-- A round that marks its request, which it opens where nothing of its description is opened yet.
-/
structure Marks (pending : ChainRequest) (log : ChainLog)
    (opened opened' : OrderedMap String Opening)
    (w w' : ChainWorld) (now : ℤ) : Prop where
  waits : pending.forwardedAt = none
  kept : ∃ opening, w' = w.put (marked now pending opening)
  opens : ((opened.get (describe pending.attestation)).isSome ∧ opened' = opened ∧
    ∀ a, ¬ Opens log a) ∨
    (opened.get (describe pending.attestation) = none ∧
      (∃ opening, opened' = opened.set (describe pending.attestation) opening) ∧
      ∀ a, Opens log a ↔ a = pending.attestation)

theorem serve_cases (h : (serve deployment now (opened, w) pending).Trace log (.ok (opened', w'))) :
    (opened' = opened ∧ Passes pending log w w') ∨ Marks pending log opened opened' w w' now := by
  have hfailed : (failed now pending).ref =
      pending.ref ∧ (failed now pending).forwardedAt = pending.forwardedAt := by
    unfold failed
    dsimp only
    split_ifs <;> exact ⟨rfl, rfl⟩
  rcases h.of_bind with ⟨e, he, -⟩ | ⟨found, first, rest, rfl, hlookup, h⟩
  · cases he
  obtain ⟨_, hsame, hlookup⟩ := hlookup.of_attempt
  cases hsame
  have hfirst := hlookup.of_io
  have hquiet : ∀ a, ¬ Opens first a := by
    rintro a ⟨opening, hopening⟩
    rw [hfirst] at hopening
    cases List.mem_singleton.mp hopening
  have htold : (∀ event ∈ first ++ rest, event.2 = untold event.1) → found = .ok none := by
    intro hall
    exact hall _ (List.mem_append_left _ (hfirst ▸ List.mem_singleton_self _))
  split at h
  · cases h
    refine .inl ⟨rfl, ?_, .inr ⟨_, rfl, hfailed⟩, fun hall => ?_⟩
    · rwa [List.append_nil]
    · cases htold hall
  · cases h
    refine .inl ⟨rfl, ?_, .inr ⟨_, rfl, rfl, rfl⟩, fun hall => ?_⟩
    · rwa [List.append_nil]
    · cases htold hall
  · split_ifs at h with hforwarded
    · cases h
      refine .inl ⟨rfl, ?_, .inl rfl, fun _ => ⟨?_, rfl⟩⟩
      · rwa [List.append_nil]
      · exact Option.isSome_iff_ne_none.mp hforwarded
    · have hwaits : pending.forwardedAt = none := Option.not_isSome_iff_eq_none.mp hforwarded
      split at h
      · rename_i opening hopening
        cases h
        refine .inr ⟨hwaits, ⟨opening, rfl⟩, .inl ⟨?_, rfl, ?_⟩⟩
        · exact Option.isSome_iff_exists.mpr ⟨opening, hopening⟩
        · rwa [List.append_nil]
      · rename_i hnone
        rcases h.of_bind with ⟨e, he, -⟩ | ⟨outcome, second, last, rfl, hrequest, h⟩
        · cases he
        obtain ⟨_, hsame, hrequest⟩ := hrequest.of_attempt
        cases hsame
        have hsecond := hrequest.of_io
        cases outcome with
        | error e =>
          cases h
          refine .inl ⟨rfl, ?_, .inr ⟨_, rfl, hfailed⟩, fun hall => ?_⟩
          · rintro a hopens
            rw [List.append_nil, opens_append] at hopens
            obtain ⟨opening, hopening⟩ := hopens.resolve_left (hquiet a)
            rw [hsecond] at hopening
            cases List.mem_singleton.mp hopening
          · have hlast := hall _ (List.mem_append_right _
              (List.mem_append_left _ (hsecond ▸ List.mem_singleton_self _)))
            cases hlast
        | ok opening =>
          cases h
          refine .inr ⟨hwaits, ⟨opening, rfl⟩, .inr ⟨hnone, ⟨opening, rfl⟩, fun a => ?_⟩⟩
          rw [List.append_nil, opens_append, or_iff_right (hquiet a), hsecond]
          constructor
          · rintro ⟨other, hother⟩
            cases List.mem_singleton.mp hother
            rfl
          · rintro rfl
            exact ⟨opening, List.mem_singleton_self _⟩

end Rounds

section Loop
variable {deployment : Deployment} {answers : ContractAnswers} {now : ℤ} {w₀ w : ChainWorld}
    {p p' : ChainRequest}
  {done : List ChainRequest} {state : OrderedMap String Opening × ChainWorld} {log : ChainLog}

theorem mem_kept_mapRequests {f : ChainRequest → ChainRequest} :
    p' ∈ (w.mapRequests f).kept ↔ ∃ p ∈ w.kept, f p = p' := by
  simp only [ChainWorld.kept, mem_objectValues, ChainWorld.mapRequests, List.mem_map, Prod.mk.injEq]
  constructor
  · rintro ⟨key, entry, hmem, rfl, hf⟩
    exact ⟨entry.2, ⟨entry.1, hmem⟩, hf⟩
  · rintro ⟨p, ⟨key, hmem⟩, hf⟩
    exact ⟨key, (key, p), hmem, rfl, hf⟩

theorem mem_put : p' ∈ (w.put p).kept ↔ ∃ q ∈ w.kept, (if q.ref = p.ref then p else q) = p' :=
    mem_kept_mapRequests

/-- What the loop has done by now: everything marked was opened, or something of its description
was. -/
structure Served (w₀ : ChainWorld) (done : List ChainRequest)
    (state : OrderedMap String Opening × ChainWorld)
    (log : ChainLog) : Prop where
  opened : ∀ key, (state.1.get key).isSome → ∃ r ∈ done, r.forwardedAt = none ∧
    describe r.attestation = key ∧
    Opens log r.attestation
  kept : ∀ p' ∈ state.2.kept, ∃ p ∈ w₀.kept, p.ref = p'.ref ∧ (p'.forwardedAt = p.forwardedAt ∨
    p ∈ done ∧ p.forwardedAt = none ∧ ∃ r ∈ done, r.forwardedAt = none ∧
      describe r.attestation = describe p.attestation ∧ Opens log r.attestation)

theorem Served.grow (h : Served w₀ done state log) (pending : ChainRequest) (new : ChainLog) :
    Served w₀ (done ++ [pending]) state (log ++ new) where
  opened key hkey := by
    obtain ⟨r, hr, hwaits, hdescribe, hopens⟩ := h.opened key hkey
    exact ⟨r, List.mem_append_left _ hr, hwaits, hdescribe, opens_append.mpr (.inl hopens)⟩
  kept p' hp' := by
    obtain ⟨p, hp, href, hsame⟩ := h.kept p' hp'
    refine ⟨p, hp, href, hsame.imp_right ?_⟩
    rintro ⟨hdone, hwaits, r, hr, hr', hdescribe, hopens⟩
    exact ⟨List.mem_append_left _ hdone, hwaits, r, List.mem_append_left _ hr, hr', hdescribe,
      opens_append.mpr (.inl hopens)⟩

theorem Served.round {state' : OrderedMap String Opening ×
    ChainWorld} {pending : ChainRequest} {new : ChainLog}
    (h : Served w₀ done state log) (hpending : pending ∈ w₀.kept)
    (hserve : (serve deployment now state pending).Trace new (.ok state')) :
    Served w₀ (done ++ [pending]) state' (log ++ new) := by
  have hgrown := h.grow pending new
  rcases serve_cases hserve with ⟨hopened, hpasses⟩ | hmarks
  · refine ⟨hopened ▸ hgrown.opened, fun p' hp' => ?_⟩
    rcases hpasses.kept with hsame | ⟨q, hput, href, hforwarded⟩
    · exact hgrown.kept p' (hsame ▸ hp')
    · rw [hput] at hp'
      obtain ⟨p, hp, heq⟩ := mem_put.mp hp'
      split_ifs at heq with hsame
      · exact ⟨pending, hpending, by rw [← heq, href], .inl (by rw [← heq, hforwarded])⟩
      · exact hgrown.kept p' (heq ▸ hp)
  · have hown : pending ∈ done ++ [pending] := List.mem_append_right _ (List.mem_singleton_self _)
    have hother : ∃ r ∈ done ++ [pending], r.forwardedAt = none ∧
        describe r.attestation = describe pending.attestation ∧ Opens (log ++ new)
          r.attestation := by
      rcases hmarks.opens with ⟨hsome, -, -⟩ | ⟨-, -, hopens⟩
      · exact hgrown.opened _ hsome
      · exact ⟨pending, hown, hmarks.waits, rfl, opens_append.mpr (.inr ((hopens _).mpr rfl))⟩
    refine ⟨fun key hkey => ?_, fun p' hp' => ?_⟩
    · rcases hmarks.opens with ⟨-, hsame, -⟩ | ⟨-, ⟨opening, hset⟩, hopens⟩
      · exact hgrown.opened key (hsame ▸ hkey)
      · by_cases hkeys : key = describe pending.attestation
        · exact ⟨pending, hown,
            hmarks.waits, hkeys.symm, opens_append.mpr (.inr ((hopens _).mpr rfl))⟩
        · rw [hset, OrderedMap.get_set_of_ne _ hkeys] at hkey
          exact hgrown.opened key hkey
    · obtain ⟨opening, hput⟩ := hmarks.kept
      rw [hput] at hp'
      obtain ⟨p, hp, heq⟩ := mem_put.mp hp'
      split_ifs at heq with hsame
      · exact ⟨pending, hpending, by rw [← heq]; rfl, .inr ⟨hown, hmarks.waits, hother⟩⟩
      · exact hgrown.kept p' (heq ▸ hp)

structure ServedAll (w₀ : ChainWorld) (done : List ChainRequest)
    (state : OrderedMap String Opening × ChainWorld)
    (log : ChainLog) : Prop where
  present : ∀ p ∈ w₀.kept, ∃ p' ∈ state.2.kept, p'.ref = p.ref
  opened : ∀ a, Opens log a → (state.1.get (describe a)).isSome
  once : ∀ a b, Opens log a → Opens log b → describe a = describe b → a = b
  marks : ∀ p ∈ done, p.forwardedAt = none → ∃ p' ∈ state.2.kept, p'.ref = p.ref ∧
    p'.forwardedAt ≠ none

theorem mem_put_of_mem (h : p' ∈ w.kept) : ∃ q ∈ (w.put p).kept, q.ref = p'.ref ∧
    (q = p' ∨ q = p) := by
  refine ⟨_, mem_put.mpr ⟨p', h, rfl⟩, ?_⟩
  split_ifs with hsame
  · exact ⟨hsame.symm, .inr rfl⟩
  · exact ⟨rfl, .inl rfl⟩

theorem ServedAll.round {state' : OrderedMap String Opening ×
    ChainWorld} {pending : ChainRequest} {new : ChainLog}
    (h : ServedAll w₀ done state log) (hpending : pending ∈ w₀.kept)
    (hserve : (serve deployment now state pending).Trace new (.ok state'))
    (htold : ∀ event ∈ new, event.2 = untold event.1) : ServedAll w₀
      (done ++ [pending]) state' (log ++ new) := by
  rcases serve_cases hserve with ⟨hopened, hpasses⟩ | hmarks
  · obtain ⟨hforwarded, hsame⟩ := hpasses.told htold
    have hopens : ∀ a, Opens (log ++ new) a ↔ Opens log a := fun a =>
      opens_append.trans (or_iff_left (hpasses.opens a))
    refine ⟨?_, fun a ha => ?_, fun a b ha hb => h.once a b ((hopens a).mp ha)
      ((hopens b).mp hb), fun p hp hwaits => ?_⟩
    · rw [hsame]
      exact h.present
    · rw [hopened]
      exact h.opened a ((hopens a).mp ha)
    · rw [hsame]
      rcases List.mem_append.mp hp with hdone | hself
      · exact h.marks p hdone hwaits
      · obtain rfl := List.mem_singleton.mp hself
        exact absurd hwaits hforwarded
  · obtain ⟨opening, hput⟩ := hmarks.kept
    have hpresent : ∀ p ∈ w₀.kept, ∃ p' ∈ state'.2.kept, p'.ref = p.ref := by
      intro p hp
      obtain ⟨p', hp', href⟩ := h.present p hp
      obtain ⟨q, hq, hsame, -⟩ := mem_put_of_mem (p := marked now pending opening) hp'
      exact ⟨q, hput ▸ hq, hsame.trans href⟩
    have hmarked : ∀ p ∈ done ++ [pending], p.forwardedAt = none →
        ∃ p' ∈ state'.2.kept, p'.ref = p.ref ∧ p'.forwardedAt ≠ none := by
      intro p hp hwaits
      rcases List.mem_append.mp hp with hdone | hself
      · obtain ⟨p', hp', href, hforwarded⟩ := h.marks p hdone hwaits
        obtain ⟨q, hq, hsame, hwhich⟩ := mem_put_of_mem (p := marked now pending opening) hp'
        refine ⟨q, hput ▸ hq, hsame.trans href, ?_⟩
        rcases hwhich with rfl | rfl
        · exact hforwarded
        · exact Option.some_ne_none now
      · obtain rfl := List.mem_singleton.mp hself
        obtain ⟨p', hp', href⟩ := h.present p hpending
        refine ⟨marked now p opening, ?_, rfl, Option.some_ne_none now⟩
        rw [hput]
        exact mem_put.mpr ⟨p', hp', if_pos href⟩
    rcases hmarks.opens with ⟨-, hsame, hnone⟩ | ⟨hnew, ⟨opening', hset⟩, hopens⟩
    · have hlog : ∀ a, Opens (log ++ new) a ↔
          Opens log a := fun a => opens_append.trans (or_iff_left (hnone a))
      refine ⟨hpresent,
        fun a ha => ?_, fun a b ha hb => h.once a b ((hlog a).mp ha) ((hlog b).mp hb), hmarked⟩
      rw [hsame]
      exact h.opened a ((hlog a).mp ha)
    · have hfresh : ∀ a, Opens log a → describe a ≠ describe pending.attestation := by
        intro a ha hsame
        have hsome := h.opened a ha
        rw [hsame, hnew] at hsome
        cases hsome
      refine ⟨hpresent, fun a ha => ?_, fun a b ha hb hsame => ?_, hmarked⟩
      · rw [hset]
        rcases opens_append.mp ha with hold | hnew'
        · rw [OrderedMap.get_set_of_ne _ (hfresh a hold)]
          exact h.opened a hold
        · rw [(hopens a).mp hnew', OrderedMap.get_set_self]
          rfl
      · rcases opens_append.mp ha with ha | ha <;> rcases opens_append.mp hb with hb | hb
        · exact h.once a b ha hb hsame
        · rw [(hopens b).mp hb] at hsame
          exact absurd hsame (hfresh a ha)
        · rw [(hopens a).mp ha] at hsame
          exact absurd hsame.symm (hfresh b hb)
        · rw [(hopens a).mp ha, (hopens b).mp hb]

end Loop

section Pump
variable {deployment : Deployment} {answers : ContractAnswers} {now : ℤ} {w w' : ChainWorld}
    {p p' : ChainRequest}
  {log : ChainLog}

def ChainWorld.Distinct (w : ChainWorld) : Prop := ∀ p ∈ w.kept, ∀ q ∈ w.kept, q.ref = p.ref → q = p

def waiting (answers : ContractAnswers) (now : ℤ) (w : ChainWorld) : List ChainRequest :=
  (chainSweep answers now w).unanswered.filter fun pending => pending.forwardedAt.isNone

variable (answers now) in
theorem giveUp_same (p : ChainRequest) : (giveUp answers now p).ref = p.ref ∧
    (giveUp answers now p).attestation = p.attestation ∧
      (giveUp answers now p).forwardedAt = p.forwardedAt := by
  unfold giveUp
  split_ifs <;> exact ⟨rfl, rfl, rfl⟩

theorem mem_chainSweep (h : p ∈ (chainSweep answers now w).kept) : ∃ q ∈ w.kept,
    giveUp answers now q = p := by
  obtain ⟨q, hq, hgive⟩ := mem_kept_mapRequests.mp h
  obtain ⟨key, hmem⟩ := mem_objectValues.mp hq
  exact ⟨q, mem_objectValues.mpr ⟨key, (List.mem_filter.mp hmem).1⟩, hgive⟩

theorem mem_unanswered (h : p ∈ w.unanswered) : p ∈ w.kept :=
  (List.mem_filter.mp ((List.mem_insertionSort _).mp h)).1

theorem pumpContract_loop (hdue : ¬ now <
    w.nextRunAt) (h : (pumpContract deployment answers now w).Trace log (.ok w')) :
    ∃ opened, ((chainSweep answers now w).unanswered.foldlM (serve deployment now)
      ([], { chainSweep answers now w with nextRunAt := now + answers.pollSeconds })).Trace log (.ok
        (opened, w')) := by
  have hdue' : ¬ now < (chainSweep answers now w).nextRunAt := hdue
  unfold pumpContract at h
  simp only [if_neg hdue'] at h
  rcases h.of_bind with ⟨e, he, -⟩ | ⟨⟨opened, v⟩, first, rest, rfl, hloop, hdone⟩
  · cases he
  cases hdone
  rw [List.append_nil]
  exact ⟨opened, hloop⟩

theorem serve_raises (state : OrderedMap String Opening × ChainWorld) (pending : ChainRequest) :
    (serve deployment now state pending).Raises fun _ => False := by
  refine Script.Raises.bind (Script.Raises.attempt _) fun found => ?_
  rcases found with e | ⟨_ | found⟩
  · trivial
  · show Script.Raises _ (if pending.forwardedAt.isSome then _ else _)
    split_ifs
    · trivial
    · split
      · trivial
      · refine Script.Raises.bind (Script.Raises.attempt _) fun outcome => ?_
        cases outcome <;> trivial
  · trivial

theorem pumpContract_returns (told : (c : ChainCall) → Except Relay.Thrown c.Answer) :
    ∃ w', ((pumpContract deployment answers now w).run told).1 = .ok w' := by
  have hraises : (pumpContract deployment answers now w).Raises fun _ => False := by
    unfold pumpContract
    dsimp only
    split_ifs
    · trivial
    · refine Script.Raises.bind (Script.Raises.foldlM _ fun pending _ state => serve_raises state
        pending) fun _ => ?_
      trivial
  cases hresult : ((pumpContract deployment answers now w).run told).1 with
  | ok w' => exact ⟨w', rfl⟩
  | error e => exact (hraises.run hresult).elim

/-- Whatever the contract answers, a pump marks only requests that it opened their own request for,
exactly where what it has to open holds no two subjects with one description. -/
theorem pump_opened_iff (hw : w.Distinct) :
    (∀ log w', (pumpContract deployment answers now w).Trace log (.ok w') → ∀ p ∈
      w.kept, ∀ p' ∈ w'.kept,
      p'.ref = p.ref → p.forwardedAt = none → p'.forwardedAt ≠ none → Opens log p.attestation) ↔
    (¬ now < w.nextRunAt → Apart ((waiting answers now w).map ChainRequest.attestation)) := by
  have hswept : ∀ p ∈ (chainSweep answers now w).unanswered, p ∈
      (chainSweep answers now w).kept := fun _ => mem_unanswered
  constructor
  · intro h hdue a ha b hb hsame
    obtain ⟨p, hp, rfl⟩ := List.mem_map.mp ha
    obtain ⟨q, hq, rfl⟩ := List.mem_map.mp hb
    obtain ⟨log, w', htrace, htold⟩ : ∃ log w', (pumpContract deployment answers now w).Trace log
        (.ok w') ∧
        ∀ event ∈ log, event.2 = untold event.1 := by
      obtain ⟨w', hresult⟩ : ∃ w', ((pumpContract deployment answers now w).run untold).1 =
          .ok w' :=
        pumpContract_returns untold
      refine ⟨_, w', hresult ▸ Script.trace_run untold _, fun event hevent => ?_⟩
      obtain ⟨call, -, rfl⟩ := List.mem_map.mp hevent
      rfl
    obtain ⟨opened, hloop⟩ := pumpContract_loop hdue htrace
    have hserved :
        ServedAll (chainSweep answers now w)
          (chainSweep answers now w).unanswered (opened, w') log := by
      refine hloop.foldlM_log (I := fun done state log => ServedAll
        (chainSweep answers now w) done state log)
        (P := fun event => event.2 = untold event.1) ?_ htold ?_
      · intro done pending a b log new hprefix hI hround htold
        refine hI.round (hswept pending ?_) hround htold
        exact hprefix.subset (List.mem_append_right _ (List.mem_singleton_self _))
      · refine ⟨fun p hp => ⟨p, hp, rfl⟩, fun a ha => ?_, fun a b ha => ?_,
          fun p hp => absurd hp List.not_mem_nil⟩
        · obtain ⟨_, hmem⟩ := ha
          cases hmem
        · obtain ⟨_, hmem⟩ := ha
          cases hmem
    have hopens : ∀ p ∈ waiting answers now w, Opens log p.attestation := by
      intro p hp
      obtain ⟨hmem, hnone⟩ := List.mem_filter.mp hp
      have hwaits := Option.isNone_iff_eq_none.mp hnone
      obtain ⟨p', hp', href, hforwarded⟩ := hserved.marks p hmem hwaits
      obtain ⟨p₀, hp₀, rfl⟩ := mem_chainSweep (hswept p hmem)
      obtain ⟨hsameRef, hsameAttestation, hsameForwarded⟩ := giveUp_same answers now p₀
      rw [hsameAttestation]
      exact h log w' htrace p₀ hp₀ p' hp' (href.trans hsameRef) (hsameForwarded ▸ hwaits) hforwarded
    exact hserved.once _ _ (hopens p hp) (hopens q hq) hsame
  · intro hapart log w' htrace p hp p' hp' href hwaits hforwarded
    by_cases hdue : now < w.nextRunAt
    · have hdue' : now < (chainSweep answers now w).nextRunAt := hdue
      unfold pumpContract at htrace
      simp only [if_pos hdue'] at htrace
      cases htrace
      obtain ⟨q, hq, rfl⟩ := mem_chainSweep hp'
      obtain ⟨hsameRef, -, hsameForwarded⟩ := giveUp_same answers now q
      rw [hsameForwarded, hw p hp q hq (hsameRef.symm.trans href)] at hforwarded
      exact absurd hwaits hforwarded
    · obtain ⟨opened, hloop⟩ := pumpContract_loop hdue htrace
      have hserved :
          Served (chainSweep answers now w)
            (chainSweep answers now w).unanswered (opened, w') log := by
        refine hloop.foldlM_log (I := fun done state log => Served
          (chainSweep answers now w) done state log)
          (P := fun _ => True) ?_ (fun _ _ => trivial) ⟨fun key hkey =>
            (nomatch hkey), fun p hp => ⟨p, hp, rfl, .inl rfl⟩⟩
        intro done pending a b log new hprefix hI hround _
        refine hI.round (hswept pending ?_) hround
        exact hprefix.subset (List.mem_append_right _ (List.mem_singleton_self _))
      obtain ⟨p₁, hp₁, href₁, hmarked⟩ := hserved.kept p' hp'
      obtain ⟨q, hq, rfl⟩ := mem_chainSweep hp₁
      obtain ⟨hsameRef, hsameAttestation, hsameForwarded⟩ := giveUp_same answers now q
      obtain rfl : q = p := hw p hp q hq (hsameRef.symm.trans (href₁.trans href))
      rcases hmarked with hsame | ⟨hdone, hnone, r, hr, hrwaits, hdescribe, hopens⟩
      · rw [hsame, hsameForwarded] at hforwarded
        exact absurd hwaits hforwarded
      · have hin : ∀ r ∈ (chainSweep answers now w).unanswered, r.forwardedAt = none →
            r.attestation ∈ (waiting answers now w).map ChainRequest.attestation := fun r
              hr hwaits =>
          List.mem_map_of_mem (List.mem_filter.mpr ⟨hr, Option.isNone_iff_eq_none.mpr hwaits⟩)
        have heq := hapart hdue _ (hin r hr hrwaits) _ (hin _ hdone hnone) hdescribe
        rw [← hsameAttestation, ← heq]
        exact hopens

end Pump
end Beam.Bridge
