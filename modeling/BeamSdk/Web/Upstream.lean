import BeamSdk.Web.Broker

/-! The upstream that starts transfers on BeamCore through the SDK's client, and how many transfers
BeamCore starts. -/

namespace Beam.Web

structure TransferRecord where
  id : String
  status : String
  name : Option String
  createdAt : String

/-- What the SDK's client takes, over the configurations `N` of endpoints. -/
structure BeamTransferInput (N : Type) where
  source : N
  destinations : List N
  name : Option String
  idempotencyKey : Option String

structure BeamTransferCreated where
  transfer_id : Option String
  transferId : Option String

/-- The calls an upstream makes: to the application's resolver, for the process's client, and to
BeamCore. -/
inductive SdkCall (N : Type)
  | resolveEndpoint (reference : String) (subject organizationId : Option Json)
  | client
  | createTransfer (input : BeamTransferInput N)

abbrev SdkAnswer (N : Type) : SdkCall N → Type
  | .resolveEndpoint _ _ _ => Option N
  | .client => Unit
  | .createTransfer _ => BeamTransferCreated

def SdkCall.key {N : Type} : SdkCall N → Option (Option String)
  | .createTransfer input => some input.idempotencyKey
  | _ => none

namespace Upstream
variable {E N : Type}

abbrev Program (E N α : Type) := Script (SdkCall N) (SdkAnswer N) (Thrown E) α

def ask (call : SdkCall N) : Program E N (SdkAnswer N call) := Script.io call

def resolve (reference : String) (context : BeamSessionContext) : Program E N N := do
  match ← ask (.resolveEndpoint reference context.subject context.organizationId) with
  | some resolved => return resolved
  | none => Script.fail (.brokerError
      s!"Unknown storage endpoint: {reference}." 400 "invalid_argument")

def resolveAll (context : BeamSessionContext) : List String → Program E N (List N)
  | [] => return []
  | reference :: references => do
    let resolved ← (resolve reference context).attempt
    let others ← (resolveAll context references).attempt
    Script.ofExcept do
      return (← resolved) :: (← others)

def createTransfer
    (createdAt : String) (input : CreateTransferInput) (context : BeamSessionContext) :
    Program E N TransferRecord := do
  let resolved ← (resolve input.source context).attempt
  let others ← (resolveAll context input.destinations).attempt
  let source ← Script.ofExcept resolved
  let destinations ← Script.ofExcept others
  ask .client
  -- no key is among what the client is given
  let created ← ask (.createTransfer ⟨source, destinations, input.name, none⟩)
  match created.transfer_id.or created.transferId with
  | none |
      some "" =>
        Script.fail (.brokerError "BeamCore did not return a transfer id." 502 "upstream_invalid")
  | some transferId => return ⟨transferId, "pending", input.name, createdAt⟩

end Upstream

structure BeamCore where
  started : List (Option String)

def BeamCore.create (core : BeamCore) : Option String → BeamCore
  | none => ⟨core.started ++ [none]⟩
  | some key => if some key ∈ core.started then core else ⟨core.started ++ [some key]⟩

end Beam.Web
