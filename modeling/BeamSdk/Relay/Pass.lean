import BeamSdk.Relay.Receipts
import BeamSdk.Relay.Starts

/-! One relay pass: starts, the allowlist, receipts, and closing what will never be answered. -/

namespace Beam.Relay
open Contract (Bytes32 Hashes)

/-- Whether a requester's place on the allowlist is to change: allowed, removed, or neither. -/
def Requester.allow (requester : Requester) : Prop :=
  requester.status = .approved ∧ requester.allowlist ≠ .allowed

def Requester.remove (requester : Requester) : Prop :=
  requester.status = .revoked ∧ requester.allowlist = .allowed

instance (requester : Requester) : Decidable requester.allow := inferInstanceAs (Decidable (_ ∧ _))
instance (requester : Requester) : Decidable requester.remove := inferInstanceAs (Decidable (_ ∧ _))

def syncRequester (changed : ℕ) (requester : Requester) : Program ℕ :=
  if ¬ requester.allow ∧ ¬ requester.remove then pure changed
  else
    let sync : Program Unit := do
      let hash ← io (.setRequester requester.address requester.allow)
      io (.reportAllowlist requester.id requester.allow hash)
    sync.attempt >>= fun
      | .ok _ => pure (changed + 1)
      | .error _ => pure changed

def syncAllowlist (customers : List Customer) : Program ℕ :=
  customers.foldlM (fun changed customer => customer.requesters.foldlM syncRequester changed) 0

def commitUncommitted (close : Bytes32 × String) : Program Unit :=
  io (.commitCharge (.request close.1)) >>= fun
    | .unavailable _ => pure ()
    | _ => io (.deleteUncommitted close.1)

def closeRequest (unanswerable : Unanswerable) : Program ℕ :=
  let key := unanswerable.request.key
  io (.reserveCharge (.request key) unanswerable.organizationId
    (.requester unanswerable.request.requester)) >>= fun
    | .held => (io (.cancelRequest key)).attempt >>= fun
      | .error _ => pure 0
      | .ok _ => io (.commitCharge (.request key)) >>= fun
        | .charged => pure 1
        | _ => do
          io (.setUncommitted key unanswerable.organizationId)
          pure 1
    | _ => pure 0

def closeOnce (state : List Bytes32 × ℕ) (unanswerable : Unanswerable) :
    Program (List Bytes32 × ℕ) :=
  let key := unanswerable.request.key
  if key ∈ state.1 then pure state
  else do
    let closed ← closeRequest unanswerable
    pure (key :: state.1, state.2 + closed)

def closeUnanswerable (unanswerable : List Unanswerable) : Program ℕ := do
  let closes ← io .uncommittedCloses
  closes.foldlM (fun _ close => commitUncommitted close) ()
  let state ← unanswerable.foldlM closeOnce ([], 0)
  pure state.2

structure PassResult where
  finalized : ℕ
  started : ℕ
  allowlisted : ℕ
  recorded : ℕ
  closed : ℕ

def runOnce (H : Hashes) (settings : RelaySettings) (now : ℤ) : Program PassResult := do
  let finalized ← io .finalizedBlock
  let started ← (if settings.starts then runStarts settings finalized else pure 0 : Program ℕ)
  let customers ← (if settings.customers.isSome then io .customers
    else pure [] : Program (List Customer))
  let allowlisted ← (if settings.customers.isSome then syncAllowlist customers
    else pure 0 : Program ℕ)
  let (recorded, unanswerable) ← runReceipts H settings customers now
  let closed ← (if settings.customers.isSome then closeUnanswerable unanswerable
    else pure 0 : Program ℕ)
  pure ⟨finalized, started, allowlisted, recorded, closed⟩

end Beam.Relay
