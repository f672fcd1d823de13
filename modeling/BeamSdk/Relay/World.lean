import BeamSdk.Contract.Recorded
import BeamSdk.Relay.Pass

/-! The relay at work: passes that may throw, crash or be restarted at any call, against a contract
that anyone else may call in between. -/

namespace Beam.Relay
open Contract (Address Bytes32 Hashes)

/-- The contract, the process memory, and the answered calls of the current pass and of the passes
of the same process before it, oldest first. -/
structure RelayWorld where
  contract : Contract.State
  uncommitted : OrderedMap Bytes32 String
  past : List IoEvent
  pass : List IoEvent

/-- A transaction of `account` that succeeded, among transactions of others. -/
def Mined (H : Hashes) (account : Address) (s : Contract.State) (call : Contract.Call)
    (s' : Contract.State) : Prop :=
  ∃ s₁ s₂ timestamp, (Contract.contract H).Later s s₁ ∧
    s₁.call H ⟨account, timestamp⟩ call = .ok s₂ ∧
    (Contract.contract H).Later s₂ s'

/-- `state.uncommittedCloses` is a `Map` in memory: its calls never throw. -/
def MemoryEnv (w : RelayWorld) : (c : RelayCall) → Except Thrown c.Answer → RelayWorld → Prop
  | .uncommittedCloses, r, w' => r = .ok w.uncommitted ∧ w'.uncommitted = w.uncommitted
  | .setUncommitted requestKey organizationId, r, w' =>
    r = .ok () ∧ w'.uncommitted = w.uncommitted.set requestKey organizationId
  | .deleteUncommitted requestKey, r, w' =>
      r = .ok () ∧ w'.uncommitted = w.uncommitted.delete requestKey
  | _, _, w' => w'.uncommitted = w.uncommitted

/-- `onReport` and `cancelRequest` return once their transaction is mined and did not revert; where
they throw, it may be mined all the same, which is then one more transaction among the others. -/
def ChainEnv (H : Hashes) (account : Address) (w : RelayWorld) :
    (c : RelayCall) → Except Thrown c.Answer → RelayWorld → Prop
  | .writeReport report, .ok _, w' => Mined H account w.contract (.onReport [] report) w'.contract
  | .cancelRequest key, .ok _, w' => Mined H account w.contract (.cancelRequest key) w'.contract
  | _, _, w' => (Contract.contract H).Later w.contract w'.contract

structure RelayEnv (H : Hashes) (account : Address) (w : RelayWorld) (c : RelayCall)
    (r : Except Thrown c.Answer) (w' : RelayWorld) : Prop where
  past : w'.past = w.past
  pass : w'.pass = w.pass ++ [⟨c, r⟩]
  memory : MemoryEnv w c r w'
  chain : ChainEnv H account w c r w'

/-- Pass after pass, stopped at any call; a stop may be followed by the next pass or be a restart.
-/
def relayMachine (H : Hashes) (settings : RelaySettings) :
    Machine RelayWorld RelayCall RelayCall.Answer Thrown PassResult where
  init w := (Contract.contract H).Reachable w.contract ∧ w.uncommitted = [] ∧
    w.past = [] ∧ w.pass = []
  env := RelayEnv H settings.relayAccount
  starts w s w' := ∃ now, s = runOnce H settings now ∧
    w' = { w with past := w.past ++ w.pass, pass := [] }
  stops w w' := (Contract.contract H).Later w.contract w'.contract ∧
    ((w'.uncommitted = w.uncommitted ∧ w'.past = w.past ∧ w'.pass = w.pass) ∨
      (w'.uncommitted = [] ∧ w'.past = [] ∧ w'.pass = []))

structure Grows (H : Hashes) (w w' : RelayWorld) : Prop where
  past : w'.past = w.past
  pass : w.pass ⊆ w'.pass
  contract : (Contract.contract H).Later w.contract w'.contract

variable {H : Hashes} {account : Address} {u v w w' : RelayWorld}

theorem Grows.refl (w : RelayWorld) : Grows H w w := ⟨rfl, List.Subset.refl _, .refl _⟩

theorem Grows.trans (h : Grows H u v) (h' : Grows H v w) : Grows H u w :=
  ⟨h'.past.trans h.past, List.Subset.trans h.pass h'.pass, h.contract.trans h'.contract⟩

theorem Mined.later {s s' : Contract.State} {call : Contract.Call} (h : Mined H account s call s') :
    (Contract.contract H).Later s s' := by
  obtain ⟨s₁, s₂, timestamp, hbefore, hcall, hafter⟩ := h
  have hstep : (Contract.contract H).step s₁ (⟨account, timestamp⟩, call) s₂ := by
    show s₂ = s₁.transact (s₁.call H ⟨account, timestamp⟩ call)
    rw [hcall]
    rfl
  exact (hbefore.trans (.single hstep)).trans hafter

theorem ChainEnv.later {c : RelayCall} {r : Except Thrown c.Answer}
    (h : ChainEnv H account w c r w') :
    (Contract.contract H).Later w.contract w'.contract := by
  unfold ChainEnv at h
  split at h
  · exact h.later
  · exact h.later
  · exact h

theorem RelayEnv.grows {c : RelayCall} {r : Except Thrown c.Answer}
    (h : RelayEnv H account w c r w') :
    Grows H w w' where
  past := h.past
  pass := h.pass ▸ List.subset_append_left _ _
  contract := h.chain.later

theorem RelayEnv.event {c : RelayCall} {r : Except Thrown c.Answer}
    (h : RelayEnv H account w c r w') :
    ⟨c, r⟩ ∈ w'.pass := h.pass ▸ List.mem_append_right _ (List.mem_singleton.mpr rfl)

def RelayWorld.answered (w : RelayWorld) (c : RelayCall) (r : Except Thrown c.Answer) :
    RelayWorld :=
  { w with pass := w.pass ++ [⟨c, r⟩] }

def RelayWorld.transact (w : RelayWorld) (H : Hashes) (account : Address) (call : Contract.Call) :
    Except Thrown Unit × RelayWorld :=
  match w.contract.call H ⟨account, 0⟩ call with
  | .ok s => (.ok (), { w with contract := s })
  | .error _ => (.error "reverted", w)

/-- The relay's transactions are run on the contract; `outside` answers the rest. -/
def alone (H : Hashes) (account : Address) (outside : (c : RelayCall) → Except Thrown c.Answer)
    (w : RelayWorld) :
    (c : RelayCall) → Except Thrown c.Answer × RelayWorld
  | .writeReport report =>
    let mined := w.transact H account (.onReport [] report)
    (mined.1, mined.2.answered (.writeReport report) mined.1)
  | .cancelRequest key =>
    let mined := w.transact H account (.cancelRequest key)
    (mined.1, mined.2.answered (.cancelRequest key) mined.1)
  | .uncommittedCloses => (.ok w.uncommitted, w.answered .uncommittedCloses (.ok w.uncommitted))
  | .setUncommitted key organizationId =>
      (.ok (), { w with uncommitted := w.uncommitted.set key organizationId }.answered
      (.setUncommitted key organizationId) (.ok ()))
  | .deleteUncommitted key => (.ok (), { w with uncommitted := w.uncommitted.delete key }.answered
      (.deleteUncommitted key) (.ok ()))
  | c => (outside c, w.answered c (outside c))

theorem RelayWorld.transact_cases (w : RelayWorld) (account : Address) (call : Contract.Call) :
    w.transact H account call = (.error "reverted", w) ∨
      ∃ s, w.transact H account call = (.ok (), { w with contract := s }) ∧
        Mined H account w.contract call s := by
  unfold RelayWorld.transact
  cases hcall : w.contract.call H ⟨account, 0⟩ call with
  | error e => exact .inl rfl
  | ok s => exact .inr ⟨s, rfl, w.contract, s, 0, .refl _, hcall, .refl _⟩

theorem alone_env (outside : (c : RelayCall) → Except Thrown c.Answer) (w : RelayWorld)
    (c : RelayCall) :
    RelayEnv H account w c (alone H account outside w c).1 (alone H account outside w c).2 := by
  cases c with
  | writeReport report =>
    show RelayEnv H account w (.writeReport report) (w.transact H account (.onReport [] report)).1
      ((w.transact H account (.onReport [] report)).2.answered _ _)
    rcases w.transact_cases (H := H) account (.onReport [] report) with h | ⟨s, h, hmined⟩
    · rw [h]
      exact ⟨rfl, rfl, rfl, .refl _⟩
    · rw [h]
      exact ⟨rfl, rfl, rfl, hmined⟩
  | cancelRequest key =>
    show RelayEnv H account w (.cancelRequest key) (w.transact H account (.cancelRequest key)).1
      ((w.transact H account (.cancelRequest key)).2.answered _ _)
    rcases w.transact_cases (H := H) account (.cancelRequest key) with h | ⟨s, h, hmined⟩
    · rw [h]
      exact ⟨rfl, rfl, rfl, .refl _⟩
    · rw [h]
      exact ⟨rfl, rfl, rfl, hmined⟩
  | uncommittedCloses => exact ⟨rfl, rfl, ⟨rfl, rfl⟩, .refl _⟩
  | setUncommitted key organizationId => exact ⟨rfl, rfl, ⟨rfl, rfl⟩, .refl _⟩
  | deleteUncommitted key => exact ⟨rfl, rfl, ⟨rfl, rfl⟩, .refl _⟩
  | _ => exact ⟨rfl, rfl, rfl, .refl _⟩

end Beam.Relay
