import BeamSdk.Library.Result
import BeamSdk.Library.Transition
import BeamSdk.Signing.Routes

/-! What an accepted request for recovery may write to, list and read: everything follows from the
final object key it names, which no handler compares with the plan's. -/

namespace Beam.Signing
open Plan

def Reaches (settings : S3Settings) (transferID : String) (r : MultipartCoordinates)
    (grant : Grant) : Prop :=
  grant.bucket = settings.bucket ∧
    match grant.operation with
    | .listObjectsV2 below _ _ =>
        grant.objectKey = "" ∧ below = Rust.multipartRecoveryPrefix transferID r
    | _ => grant.objectKey = r.finalObjectKey ∨ ∃ attemptID,
        grant.objectKey = Rust.stagingKey transferID r attemptID

section
variable {settings : S3Settings} {transferID : String} {r : MultipartCoordinates}

theorem reaches_final {operation : S3Operation}
    (h : ∀ below token keys, operation ≠ .listObjectsV2 below token keys) :
    Reaches settings transferID r (settings.sign r.finalObjectKey operation) := by
  refine ⟨rfl, ?_⟩
  cases operation with
  | listObjectsV2 below token keys => exact absurd rfl (h below token keys)
  | putObject | headObject | deleteObject | uploadPart | uploadPartCopy | completeMultipartUpload |
      abortMultipartUpload
  | listParts => exact .inl rfl

theorem reaches_staging {operation : S3Operation}
    (h : ∀ below token keys, operation ≠ .listObjectsV2 below token keys)
    (attemptID : String) :
    Reaches settings transferID r
      (settings.sign (Rust.stagingKey transferID r attemptID) operation) := by
  refine ⟨rfl, ?_⟩
  cases operation with
  | listObjectsV2 below token keys => exact absurd rfl (h below token keys)
  | putObject | headObject | deleteObject | uploadPart | uploadPartCopy | completeMultipartUpload |
      abortMultipartUpload
  | listParts => exact .inr ⟨attemptID, rfl⟩

theorem reaches_renewed {recovered : Recovered} {markers : List ℤ} {marker : ℤ → Option ℤ}
    {page : Option Grant}
    (h : recovered = .renewed {
      completeURL := settings.sign r.finalObjectKey (.completeMultipartUpload r.uploadID)
      abortURL := settings.sign r.finalObjectKey (.abortMultipartUpload r.uploadID)
      finalHeadURL := settings.sign r.finalObjectKey .headObject
      listPageURLs := markers.map fun start =>
        settings.sign r.finalObjectKey (.listParts r.uploadID 1000 (marker start))
      listPageURL := page }) : ∀ grant ∈ recovered.grants, Reaches settings transferID r grant := by
  subst h
  intro grant hgrant
  simp only [Recovered.grants, List.mem_cons, List.mem_map] at hgrant
  rcases hgrant with rfl | rfl | rfl | ⟨start, -, rfl⟩
  all_goals exact reaches_final (by simp)

theorem reaches_listed {recovered : Recovered} {token : Option String}
    (h : recovered = .listed ⟨Rust.multipartRecoveryPrefix transferID r,
      settings.sign "" (.listObjectsV2 (Rust.multipartRecoveryPrefix transferID r) token 1000)⟩) :
    ∀ grant ∈ recovered.grants, Reaches settings transferID r grant := by
  subst h
  intro grant hgrant
  obtain rfl := List.mem_singleton.mp hgrant
  exact ⟨rfl, rfl, rfl⟩

theorem reaches_removed {recovered : Recovered} {attemptID : String}
    (h : recovered = .removed ⟨Rust.stagingKey transferID r attemptID,
      settings.sign (Rust.stagingKey transferID r attemptID) .deleteObject⟩) :
    ∀ grant ∈ recovered.grants, Reaches settings transferID r grant := by
  subst h
  intro grant hgrant
  obtain rfl := List.mem_singleton.mp hgrant
  exact reaches_staging (by simp) attemptID

theorem reaches_staged {recovered : Recovered} {attemptID copySource : String}
    {condition : Option String} {upload : Prop}
    [Decidable upload] (h : recovered = .staged {
      objectKey := Rust.stagingKey transferID r attemptID
      attemptID
      headURL := settings.sign (Rust.stagingKey transferID r attemptID) .headObject
      copyURL :=
        settings.sign r.finalObjectKey
          (.uploadPartCopy r.uploadID r.partNumber copySource condition)
      deleteURL := settings.sign (Rust.stagingKey transferID r attemptID) .deleteObject
      copySource
      copySourceIfMatch := condition }
      (if upload then some (settings.sign (Rust.stagingKey transferID r attemptID) .putObject)
        else none)) :
    ∀ grant ∈ recovered.grants, Reaches settings transferID r grant := by
  subst h
  intro grant hgrant
  simp only [Recovered.grants, List.mem_cons, Option.mem_toList, Option.ite_none_right_eq_some,
    Option.some.injEq]
    at hgrant
  rcases hgrant with rfl | rfl | rfl | ⟨-, rfl⟩
  · exact reaches_staging (by simp) attemptID
  · exact reaches_final (by simp)
  · exact reaches_staging (by simp) attemptID
  · exact reaches_staging (by simp) attemptID

end

section
variable {settings : S3Settings} {transferID : String} {r : MultipartCoordinates}
    {request : MultipartRecoveryRequest}
  {expectedPartCount : Option ℤ} {recovered : Recovered}

theorem typescript_renewal_reaches
    (h : TypeScript.renewal (.s3Compatible settings) r expectedPartCount = .ok recovered) :
    ∀ grant ∈ recovered.grants, Reaches settings transferID r grant := by
  unfold TypeScript.renewal at h
  cases expectedPartCount with
  | none => cases h
  | some count =>
    simp only [ProviderDestinationConfig.s3Settings?] at h
    obtain ⟨-, h⟩ := guard_eq_ok.mp h
    exact reaches_renewed (Except.ok.inj h).symm

theorem go_renewal_reaches
    (h : Go.renewal (.s3Compatible settings) r expectedPartCount = .ok recovered) :
    ∀ grant ∈ recovered.grants, Reaches settings transferID r grant := by
  unfold Go.renewal at h
  simp only [ProviderDestinationConfig.s3Settings?] at h
  obtain ⟨-, h⟩ := guard_eq_ok.mp h
  obtain ⟨-, h⟩ := guard_eq_ok.mp h
  exact reaches_renewed (Except.ok.inj h).symm

theorem rust_renewal_reaches
    (h : Rust.renewal (.s3Compatible settings) r expectedPartCount = .ok recovered) :
    ∀ grant ∈ recovered.grants, Reaches settings transferID r grant := by
  unfold Rust.renewal at h
  simp only [ProviderDestinationConfig.s3Settings?] at h
  split at h
  · split at h
    · exact reaches_renewed (Except.ok.inj h).symm
    · cases h
  · cases h

theorem python_renewal_reaches
    (h : Python.renewal (.s3Compatible settings) r expectedPartCount = .ok recovered) :
    ∀ grant ∈ recovered.grants, Reaches settings transferID r grant := by
  unfold Python.renewal at h
  cases expectedPartCount with
  | none => cases h
  | some count =>
    simp only [ProviderDestinationConfig.s3Settings?] at h
    obtain ⟨-, h⟩ := guard_eq_ok.mp h
    split at h
    · exact reaches_renewed (Except.ok.inj h).symm
    · cases h

theorem typescript_staged_reaches
    (h : TypeScript.staged (.s3Compatible settings) transferID r request = .ok recovered) :
    ∀ grant ∈ recovered.grants, Reaches settings transferID r grant := by
  unfold TypeScript.staged at h
  simp only [ProviderDestinationConfig.s3Settings?, stagingKey_typescript,
    stagingBelow_typescript] at h
  obtain ⟨-, h⟩ := guard_eq_ok.mp h
  split at h
  · exact reaches_listed (Except.ok.inj h).symm
  · split at h
    · exact reaches_removed (Except.ok.inj h).symm
    · exact reaches_staged (Except.ok.inj h).symm

theorem go_staged_reaches
    (h : Go.staged (.s3Compatible settings) transferID r request = .ok recovered) :
    ∀ grant ∈ recovered.grants, Reaches settings transferID r grant := by
  unfold Go.staged at h
  simp only [ProviderDestinationConfig.s3Settings?, stagingKey_go, stagingBelow_go] at h
  obtain ⟨-, h⟩ := guard_eq_ok.mp h
  obtain ⟨-, h⟩ := guard_eq_ok.mp h
  split at h
  · exact reaches_listed (Except.ok.inj h).symm
  · split at h
    · exact reaches_removed (Except.ok.inj h).symm
    · split at h
      · cases h
      · exact reaches_staged (Except.ok.inj h).symm

theorem rust_staged_reaches {operation : Rust.MultipartRecoveryOperation}
    (h : Rust.staged (.s3Compatible settings) transferID r request operation = .ok recovered) :
    ∀ grant ∈ recovered.grants, Reaches settings transferID r grant := by
  unfold Rust.staged at h
  simp only [ProviderDestinationConfig.s3Settings?] at h
  obtain ⟨-, h⟩ := guard_eq_ok.mp h
  obtain ⟨-, h⟩ := guard_eq_ok.mp h
  cases operation with
  | list => exact reaches_listed (Except.ok.inj h).symm
  | delete => exact reaches_removed (Except.ok.inj h).symm
  | upload | controls | renew => exact reaches_staged (Except.ok.inj h).symm

theorem python_staged_reaches {unicode : Char → Char}
    (h : Python.staged unicode (.s3Compatible settings) transferID r request = .ok recovered) :
    ∀ grant ∈ recovered.grants, Reaches settings transferID r grant := by
  unfold Python.staged at h
  simp only [ProviderDestinationConfig.s3Settings?] at h
  obtain ⟨-, h⟩ := guard_eq_ok.mp h
  obtain ⟨-, h⟩ := guard_eq_ok.mp h
  obtain ⟨-, h⟩ := guard_eq_ok.mp h
  split at h
  · exact reaches_listed (Except.ok.inj h).symm
  · split at h
    · exact reaches_removed (Except.ok.inj h).symm
    · exact reaches_staged (Except.ok.inj h).symm

theorem reaches_unchanged (h : (pure .unchanged : Except String Recovered) = .ok recovered) :
    ∀ grant ∈ recovered.grants, Reaches settings transferID r grant := by
  obtain rfl := Except.ok.inj h
  exact fun grant hgrant => absurd hgrant List.not_mem_nil

/-- Whatever a directive asks for, what it is granted is at the final object key or among its
staging objects. -/
theorem signMultipartRecovery_reaches {unicode : Char → Char} {implementation : Implementation}
    (h : implementation.signMultipartRecovery unicode
      (.s3Compatible settings) transferID r expectedPartCount
      = .ok recovered) : ∀ grant ∈ recovered.grants, Reaches settings transferID r grant := by
  cases implementation with
  | go =>
    change Go.signMultipartRecovery _ _ _ _ = _ at h
    unfold Go.signMultipartRecovery at h
    split at h
    · exact reaches_unchanged h
    · split at h
      · exact go_renewal_reaches h
      · split at h
        · exact reaches_unchanged h
        · exact go_staged_reaches h
  | typescript =>
    change TypeScript.signMultipartRecovery _ _ _ _ = _ at h
    unfold TypeScript.signMultipartRecovery at h
    split at h
    · exact reaches_unchanged h
    · split at h
      · exact typescript_renewal_reaches h
      · split at h
        · exact reaches_unchanged h
        · exact typescript_staged_reaches h
  | rust =>
    change Rust.signMultipartRecovery _ _ _ _ = _ at h
    unfold Rust.signMultipartRecovery at h
    obtain ⟨-, h⟩ := guard_eq_ok.mp h
    split at h
    · exact reaches_unchanged h
    · split at h
      · split at h
        · split at h
          · exact rust_renewal_reaches h
          · split at h
            · exact reaches_unchanged h
            · exact rust_staged_reaches h
        · cases h
      · cases h
  | python =>
    change Python.signMultipartRecovery unicode _ _ _ _ = _ at h
    unfold Python.signMultipartRecovery at h
    split at h
    · exact reaches_unchanged h
    · split at h
      · exact python_renewal_reaches h
      · split at h
        · exact reaches_unchanged h
        · exact python_staged_reaches h

end

namespace Implementation

def deliveryIndex (implementation : Implementation) (descriptor : CompactTransferPlanDescriptor)
    (chunkIndex : ℤ)
    (destination : CompactTransferPlanDestination) : ℤ :=
  implementation.sdk.number
    (implementation.sdk.number (chunkIndex * descriptor.destinations.length) +
      destination.destinationIndex)

/-- The final object key the plan holds for the source and the destination of a request. -/
def plannedKey (implementation : Implementation) (session : ProviderSession)
    (requested : RouteRecoverySignChunk) :
    Option String :=
  (session.descriptor.destinations.find? fun destination =>
    destination.destinationID = requested.destinationID
      && implementation.deliveryIndex session.descriptor requested.chunkIndex destination =
        requested.deliveryIndex).bind
    fun destination => destination.finalObjectKeys.get requested.sourceID

end Implementation

theorem find?_of_mapM {ε α β : Type} {f : α → Except ε β} {p : α → Bool} {q : β → Bool}
    (hpq : ∀ x y, f x = .ok y → p x = q y) {xs : List α} {ys : List β}
    (h : xs.mapM f = .ok ys) {y : β}
    (hfind : ys.find? q = some y) : ∃ x, xs.find? p = some x ∧ f x = .ok y := by
  induction xs generalizing ys with
  | nil =>
    obtain rfl : ys = [] := (Except.ok.inj h).symm
    cases hfind
  | cons x xs ih =>
    rw [List.mapM_cons] at h
    obtain ⟨z, hz, h⟩ := bind_eq_ok.mp h
    obtain ⟨zs, hzs, h⟩ := bind_eq_ok.mp h
    obtain rfl : ys = z :: zs := (Except.ok.inj h).symm
    cases hq : q z with
    | true =>
      rw [List.find?_cons_of_pos hq] at hfind
      obtain rfl := Option.some.inj hfind
      exact ⟨x, List.find?_cons_of_pos ((hpq x z hz).trans hq), hz⟩
    | false =>
      rw [List.find?_cons_of_neg (by simp [hq])] at hfind
      obtain ⟨w, hw, hwy⟩ := ih hzs hfind
      exact ⟨w, by rw [List.find?_cons_of_neg (by simp [hpq x z hz, hq]), hw], hwy⟩

section
variable {implementation : Implementation} {session : ProviderSession}
    {requested : RouteRecoverySignChunk}

theorem target_fields {sdk : Sdk} {descriptor : CompactTransferPlanDescriptor} {sourceID : String}
    {chunkIndex sourceChunkIndex : ℤ} {destination : CompactTransferPlanDestination}
    {target : ChunkDestinationSigningTarget}
    (h : sdk.target descriptor sourceID chunkIndex sourceChunkIndex destination = .ok target) :
    ∃ finalObjectKey partNumber, destination.finalObjectKeys.get sourceID = some finalObjectKey
      ∧ target = chunkTarget sdk.isHippius descriptor.planNonce chunkIndex sourceChunkIndex
        (sdk.number (sdk.number (chunkIndex * descriptor.destinations.length) +
          destination.destinationIndex))
        partNumber finalObjectKey destination := by
  unfold Sdk.target at h
  cases hkey : destination.finalObjectKeys.get sourceID with
  | none =>
    simp only [hkey] at h
    cases h
  | some finalObjectKey =>
    simp only [hkey] at h
    obtain ⟨-, h⟩ := guard_eq_ok.mp h
    obtain ⟨partNumber, -, h⟩ := bind_eq_ok.mp h
    exact ⟨finalObjectKey, partNumber, rfl, (Except.ok.inj h).symm⟩

theorem materialize_destinations {sdk : Sdk} {descriptor : CompactTransferPlanDescriptor}
    {sourceID : String}
    {chunkIndex : ℤ} {chunk : ChunkSigningPlanItem}
    (h : sdk.materializePlanChunk descriptor sourceID chunkIndex = .ok chunk) :
    descriptor.destinations.mapM (sdk.target descriptor sourceID chunkIndex chunk.sourceChunkIndex)
      = .ok chunk.destinations := by
  unfold Sdk.materializePlanChunk at h
  cases hsource : descriptor.sources.find? fun candidate => candidate.sourceID = sourceID with
  | none =>
    simp only [hsource] at h
    cases h
  | some source =>
    simp only [hsource] at h
    obtain ⟨-, h⟩ := guard_eq_ok.mp h
    have hrest : ∃ destinations,
        descriptor.destinations.mapM (sdk.target descriptor sourceID chunkIndex
        (sdk.difference (chunkIndex - source.globalChunkStart))) = .ok destinations
        ∧ chunk.sourceChunkIndex = sdk.difference (chunkIndex - source.globalChunkStart)
        ∧ chunk.destinations = destinations := by
      split at h
      · obtain ⟨_, -, h⟩ := bind_eq_ok.mp h
        obtain ⟨destinations, hdestinations, h⟩ := bind_eq_ok.mp h
        obtain rfl := Except.ok.inj h
        exact ⟨destinations, hdestinations, rfl, rfl⟩
      · obtain ⟨destinations, hdestinations, h⟩ := bind_eq_ok.mp h
        obtain rfl := Except.ok.inj h
        exact ⟨destinations, hdestinations, rfl, rfl⟩
    obtain ⟨destinations, hdestinations, hindex, rfl⟩ := hrest
    rw [hindex, hdestinations]

theorem hasDeliveryIndex_chunkTarget (isHippius : String → Bool) (planNonce : String)
    (chunkIndex sourceChunkIndex deliveryIndex partNumber : ℤ) (finalObjectKey : String)
    (destination : CompactTransferPlanDestination) (n : ℤ) :
    Implementation.hasDeliveryIndex
      (chunkTarget isHippius planNonce chunkIndex sourceChunkIndex deliveryIndex partNumber
      finalObjectKey destination) n = decide (deliveryIndex = n) := by
  simp only [Implementation.hasDeliveryIndex, chunkTarget, OrderedMap.get_set_self]
  norm_cast

theorem plannedKey_exists {generation : String} {chunk : ChunkSigningPlanItem}
    {target : ChunkDestinationSigningTarget}
    (h : implementation.plannedTarget session generation requested = .ok (chunk, target)) :
    ∃ key, implementation.plannedKey session requested = some key := by
  unfold Implementation.plannedTarget at h
  obtain ⟨-, h⟩ := guard_eq_ok.mp h
  obtain ⟨_, -, h⟩ := bind_eq_ok.mp h
  obtain ⟨-, h⟩ := guard_eq_ok.mp h
  obtain ⟨planned, hplanned, h⟩ := bind_eq_ok.mp h
  obtain ⟨_, -, h⟩ := bind_eq_ok.mp h
  obtain ⟨-, h⟩ := guard_eq_ok.mp h
  obtain ⟨-, h⟩ := guard_eq_ok.mp h
  obtain ⟨_, -, h⟩ := bind_eq_ok.mp h
  obtain ⟨-, h⟩ := guard_eq_ok.mp h
  split at h
  · rename_i found hfind
    cases hmaterialized :
      implementation.sdk.materializePlanChunk session.descriptor requested.sourceID
        requested.chunkIndex with
    | error failure =>
      rw [hmaterialized] at hplanned
      cases hplanned
    | ok item =>
      rw [hmaterialized] at hplanned
      obtain rfl : item = planned := Except.ok.inj hplanned
      obtain ⟨destination, hdestination, htarget⟩ := find?_of_mapM (p := fun destination =>
        decide (destination.destinationID = requested.destinationID)
          && decide
            (implementation.deliveryIndex session.descriptor requested.chunkIndex destination
            = requested.deliveryIndex))
        (fun destination target htarget => by
          obtain ⟨key, partNumber, -, rfl⟩ := target_fields htarget
          rw [hasDeliveryIndex_chunkTarget]
          rfl) (materialize_destinations hmaterialized) hfind
      obtain ⟨key, _, hkey, -⟩ := target_fields htarget
      refine ⟨key, ?_⟩
      rw [Implementation.plannedKey, hdestination, Option.bind_some, hkey]
  · cases h

end

structure Sound (session : ProviderSession) (entry : String × MultipartUploadState) : Prop where
  name : entry.1 =
    multipartGroupStateKey session.transferID entry.2.manifest.destinationID
      entry.2.manifest.sourceID
    entry.2.objectKey
  controls : ∀ settings, session.destinations entry.2.manifest.destinationID =
    some (.s3Compatible settings) →
    entry.2.manifest.completeURL = settings.sign entry.2.objectKey
      (.completeMultipartUpload entry.2.uploadID)
      ∧ ∀ (transferID : String) (r : MultipartCoordinates), r.finalObjectKey = entry.2.objectKey →
        ∀ grant ∈ entry.2.manifest.grants, Reaches settings transferID r grant

section
variable {implementation : Implementation} {session : ProviderSession}

theorem signMultipartGroupState_sound {source : CompactTransferPlanSource} {destinationID : String}
    {destination : ProviderDestinationConfig} {finalObjectKey uploadID : String}
    {state : MultipartUploadState}
    (hdestination : session.destinations destinationID = some destination)
    (h : implementation.signMultipartGroupState session.transferID
      (multipartGroupStateKey session.transferID destinationID source.sourceID finalObjectKey)
        source destinationID
      destination finalObjectKey uploadID = .ok state) :
    Sound session
      (multipartGroupStateKey session.transferID destinationID source.sourceID finalObjectKey,
        state)
      ∧ state.objectKey = finalObjectKey ∧ state.manifest.sourceID = source.sourceID
      ∧ state.manifest.destinationID = destinationID := by
  unfold Implementation.signMultipartGroupState at h
  obtain ⟨-, h⟩ := guard_eq_ok.mp h
  obtain ⟨maxPartNumber, -, h⟩ := bind_eq_ok.mp h
  cases hsettings : destination.s3Settings? with
  | none =>
    simp only [hsettings] at h
    cases h
  | some settings =>
    simp only [hsettings] at h
    obtain rfl := (Except.ok.inj h).symm
    refine ⟨⟨rfl, ?_⟩, rfl, rfl, rfl⟩
    intro settings' hsettings'
    have hsame : settings' = settings := by
      rw [show session.destinations destinationID = some (.s3Compatible settings') from hsettings']
        at hdestination
      obtain rfl := Option.some.inj hdestination
      exact Option.some.inj hsettings
    subst hsame
    refine ⟨rfl, ?_⟩
    intro transferID r hkey grant hgrant
    obtain rfl : r.finalObjectKey = finalObjectKey := hkey
    simp only [MultipartGroupManifest.grants, List.mem_cons, List.mem_map] at hgrant
    rcases hgrant with rfl | rfl | rfl | ⟨start, -, rfl⟩
    all_goals exact reaches_final (by simp)

end

/-- The uploads that recovery finds, and those that requests have built and not stored yet. -/
structure Cache where
  stored : Uploads
  inFlight : List (String × MultipartUploadState)

def Cache.keep (cache : Cache) (name : String) (state : MultipartUploadState) : Cache :=
  { cache with stored := cache.stored.set name state }

inductive Event
  | ready (source : CompactTransferPlanSource) (destination : CompactTransferPlanDestination)
      (uploadID : String)
  | request (generation : String) (requested : RouteRecoverySignChunk)
  | store (entry : String × MultipartUploadState)

section
variable (unicode : Char → Char) (implementation : Implementation) (session : ProviderSession)

/-- The foreground stream, or what was saved of it, gives the plan's groups at the plan's keys;
requests are served at any time, and what one builds is stored at some later time. -/
inductive Step (cache : Cache) : Event → Cache → Prop
  | ready {source : CompactTransferPlanSource} {destination : CompactTransferPlanDestination}
      {uploadID : String}
      {config : ProviderDestinationConfig} {finalObjectKey : String}
        {state : MultipartUploadState} :
      source ∈ session.descriptor.sources → destination ∈ session.descriptor.destinations →
      session.destinations destination.destinationID = some config →
      destination.finalObjectKeys.get source.sourceID = some finalObjectKey →
      implementation.signMultipartGroupState session.transferID
        (multipartGroupStateKey session.transferID destination.destinationID source.sourceID
          finalObjectKey) source
        destination.destinationID config finalObjectKey uploadID = .ok state →
      Step cache (.ready source destination uploadID) (cache.keep
        (multipartGroupStateKey session.transferID destination.destinationID source.sourceID
          finalObjectKey) state)
  | request {generation : String} {requested : RouteRecoverySignChunk} :
      Step cache (.request generation requested) { cache with inFlight :=
        (implementation.signRecoveryRoute unicode session cache.stored generation
          requested).2.toList ++ cache.inFlight }
  | store {before after : List (String × MultipartUploadState)}
      {entry : String × MultipartUploadState} :
      cache.inFlight = before ++ entry :: after →
      Step cache (.store entry) ({ cache with inFlight := before ++ after }.keep entry.1 entry.2)

def signer : System Cache Event where
  init cache := cache = ⟨[], []⟩
  step := Step unicode implementation session

end

section
variable {unicode : Char → Char} {implementation : Implementation} {session : ProviderSession}

theorem recoveryMultipartUploadState_spec {uploads : Uploads}
    {destination : ProviderDestinationConfig}
    {requested : RouteRecoverySignChunk} {upload : MultipartUploadState}
    {built : Option (String × MultipartUploadState)}
    (hstored : ∀ entry ∈ uploads, Sound session entry)
    (hdestination : session.destinations requested.destinationID = some destination)
    (h : implementation.recoveryMultipartUploadState session uploads destination requested =
      .ok (upload, built)) :
    Sound session (requested.multipartGroupID, upload) ∧ upload.objectKey = requested.finalObjectKey
      ∧ upload.manifest.sourceID = requested.sourceID ∧
        upload.manifest.destinationID = requested.destinationID
      ∧ ∀ entry ∈ built.toList, Sound session entry := by
  unfold Implementation.recoveryMultipartUploadState at h
  cases hget : uploads.get requested.multipartGroupID with
  | some existing =>
    simp only [hget] at h
    obtain ⟨hidentity, h⟩ := guard_eq_ok.mp h
    obtain ⟨rfl, rfl⟩ := Prod.mk.inj (Except.ok.inj h)
    simp only [not_or, ne_eq, not_not] at hidentity
    obtain ⟨-, hkey, hsource, hdest⟩ := hidentity
    exact ⟨hstored _ (OrderedMap.mem_of_get hget), hkey, hsource, hdest, fun entry hentry =>
      by cases hentry⟩
  | none =>
    simp only [hget] at h
    obtain ⟨-, h⟩ := guard_eq_ok.mp h
    cases hfind : session.descriptor.sources.find? fun candidate =>
      candidate.sourceID = requested.sourceID with
    | none =>
      simp only [hfind] at h
      cases h
    | some source =>
      simp only [hfind] at h
      obtain ⟨hgroup, h⟩ := guard_eq_ok.mp h
      obtain ⟨state, hstate, h⟩ := bind_eq_ok.mp h
      obtain ⟨_, -, h⟩ := bind_eq_ok.mp h
      obtain ⟨rfl, rfl⟩ := Prod.mk.inj (Except.ok.inj h)
      have hsource : source.sourceID = requested.sourceID := by simpa using List.find?_some hfind
      rw [not_not, ← hsource] at hgroup
      rw [hgroup] at hstate
      obtain ⟨hsound, hkey, hsourceID, hdest⟩ := signMultipartGroupState_sound hdestination hstate
      rw [hgroup]
      refine ⟨hsound, hkey, hsourceID.trans hsource, hdest, ?_⟩
      intro entry hentry
      obtain rfl := List.mem_singleton.mp hentry
      exact hsound

variable (unicode implementation session) in
/-- An answer comes from a planned target and, where parts are uploaded, from a group of the
request's coordinates. -/
theorem signRecoveryRoute_cases (uploads : Uploads) (generation : String)
    (requested : RouteRecoverySignChunk) :
    (∃ text, implementation.signRecoveryRoute unicode session uploads generation requested =
      (.error text, none))
    ∨ ∃ chunk target source destination,
      implementation.plannedTarget session generation requested = .ok (chunk, target)
      ∧ session.sources requested.sourceID = some source ∧
        session.destinations requested.destinationID = some destination
      ∧ (destination.isDirectPutDestination = true
          ∧ implementation.signRecoveryRoute unicode session uploads generation requested
            = (implementation.signRequested unicode session chunk target source destination
              requested none, none)
        ∨ destination.isDirectPutDestination = false ∧ ∃ upload built,
          implementation.recoveryMultipartUploadState session uploads destination requested =
            .ok (upload, built)
          ∧ implementation.signRecoveryRoute unicode session uploads generation requested
            = (implementation.signRequested unicode session chunk target source destination
              requested (some upload),
              built)) := by
  unfold Implementation.signRecoveryRoute
  simp only
  split
  · exact .inl ⟨_, rfl⟩
  · rename_i chunk target source destination hchecked
    obtain ⟨_, -, hchecked⟩ := bind_eq_ok.mp hchecked
    obtain ⟨-, hchecked⟩ := guard_eq_ok.mp hchecked
    obtain ⟨planned, hplanned, hchecked⟩ := bind_eq_ok.mp hchecked
    have hconfig : planned = (chunk, target) ∧ session.sources requested.sourceID = some source
        ∧ session.destinations requested.destinationID = some destination := by
      split at hchecked
      · rename_i source' destination' hsource hdestination
        have hparts := Except.ok.inj hchecked
        simp only [Prod.mk.injEq] at hparts
        obtain ⟨rfl, rfl, rfl, rfl⟩ := hparts
        exact ⟨rfl, hsource, hdestination⟩
      · cases hchecked
    obtain ⟨rfl, hsource, hdestination⟩ := hconfig
    by_cases hdirect : destination.isDirectPutDestination = true
    · rw [if_pos hdirect]
      exact .inr ⟨chunk, target, source, destination, hplanned, hsource, hdestination,
        .inl ⟨hdirect, rfl⟩⟩
    · rw [if_neg hdirect]
      split
      · exact .inl ⟨_, rfl⟩
      · rename_i upload built hstate
        exact .inr ⟨chunk, target, source, destination, hplanned, hsource, hdestination,
          .inr ⟨by simpa using hdirect, upload, built, hstate, rfl⟩⟩

theorem built_sound {uploads : Uploads} {generation : String} {requested : RouteRecoverySignChunk}
    (hstored : ∀ entry ∈ uploads, Sound session entry) :
    ∀ entry ∈
      (implementation.signRecoveryRoute unicode session uploads generation requested).2.toList,
      Sound session entry := by
  intro entry hentry
  rcases signRecoveryRoute_cases unicode implementation session uploads generation requested with
    ⟨text, hresult⟩ |
      ⟨_, _, _, _, -, -, hdestination, ⟨-, hresult⟩ | ⟨-, upload, built, hstate, hresult⟩⟩
  · rw [hresult] at hentry
    cases hentry
  · rw [hresult] at hentry
    cases hentry
  · rw [hresult] at hentry
    exact (recoveryMultipartUploadState_spec hstored hdestination hstate).2.2.2.2 entry hentry

theorem step_sound {cache cache' : Cache} {event : Event}
    (h : Step unicode implementation session cache event cache')
    (hcache : (∀ entry ∈ cache.stored, Sound session entry) ∧
      ∀ entry ∈ cache.inFlight, Sound session entry) :
    (∀ entry ∈ cache'.stored, Sound session entry) ∧ ∀ entry ∈ cache'.inFlight,
      Sound session entry := by
  obtain ⟨hstored, hflight⟩ := hcache
  have hkeep : ∀ name state, Sound session (name, state) →
      ∀ entry ∈ cache.stored.set name state, Sound session entry := by
    intro name state hsound entry hentry
    rcases OrderedMap.mem_set hentry with hold | hnew
    · exact hold ▸ hsound
    · exact hstored entry hnew
  cases h with
  | ready _ _ hconfig _ hstate =>
    exact ⟨hkeep _ _ (signMultipartGroupState_sound hconfig hstate).1, hflight⟩
  | request =>
    refine ⟨hstored, fun entry hentry => ?_⟩
    rcases List.mem_append.mp hentry with hbuilt | hold
    · exact built_sound hstored entry hbuilt
    · exact hflight entry hold
  | store hparts =>
    have hsound := hflight _ (by rw [hparts]; exact List.mem_append_right _ List.mem_cons_self)
    refine ⟨hkeep _ _ hsound, fun entry hentry => hflight entry ?_⟩
    rw [hparts]
    rcases List.mem_append.mp hentry with hbefore | hafter
    · exact List.mem_append_left _ hbefore
    · exact List.mem_append_right _ (List.mem_cons_of_mem _ hafter)

theorem reachable_sound {cache : Cache}
    (h : (signer unicode implementation session).Reachable cache) :
    ∀ entry ∈ cache.stored, Sound session entry := by
  have hall : (∀ entry ∈ cache.stored, Sound session entry) ∧
      ∀ entry ∈ cache.inFlight, Sound session entry := by
    apply h.invariant (I := fun cache => (∀ entry ∈ cache.stored, Sound session entry)
      ∧ ∀ entry ∈ cache.inFlight, Sound session entry)
    · rintro _ rfl
      constructor <;>
        intro entry hentry <;>
        cases hentry
    · exact fun _ _ _ hcache hstep => step_sound hstep hcache
  exact hall.1

/-- An upload to the final object, or an action on what lies below a group's staging objects. -/
def Inside (bucket key below : String) (grant : Grant) : Prop :=
  grant.bucket = bucket ∧
    match grant.operation with
    | .listObjectsV2 listed _ _ => grant.objectKey = "" ∧ below.toList <+: listed.toList
    | _ => grant.objectKey = key ∨ below.toList <+: grant.objectKey.toList

/-- `<key>.beam-recovery/<transfer id>/<encoded group id>/` of the plan's own group. -/
def plannedBelow (transferID destinationID sourceID key : String) : String :=
  key ++ ".beam-recovery/" ++ transferID ++ "/"
    ++ Rust.encodeGroup (multipartGroupStateKey transferID destinationID sourceID key) ++ "/"

/-- The key a request names is the plan's, or lies among the plan's staging objects itself. -/
def NamesPlannedKey (transferID key : String) (requested : RouteRecoverySignChunk) : Prop :=
  requested.finalObjectKey = key
    ∨ (plannedBelow transferID requested.destinationID requested.sourceID key).toList <+:
      requested.finalObjectKey.toList

theorem signRequested_s3 {chunk : ChunkSigningPlanItem} {target : ChunkDestinationSigningTarget}
    {source : ProviderSourceConfig} {settings : S3Settings} {requested : RouteRecoverySignChunk}
    {upload : MultipartUploadState} {recovery : RecoveryRoute}
    (h : implementation.signRequested unicode session chunk target source
      (.s3Compatible settings) requested (some upload)
      = .ok recovery) :
    recovery.upload = some upload
      ∧ (∃ operation, (∀ below token keys, operation ≠ .listObjectsV2 below token keys)
        ∧ recovery.route.destURL = .s3 (settings.sign requested.finalObjectKey operation))
      ∧ ∀ grant ∈ recovery.recovered.grants,
        Reaches settings session.transferID requested.toMultipartCoordinates grant := by
  unfold Implementation.signRequested at h
  obtain ⟨grant, -, h⟩ := bind_eq_ok.mp h
  obtain ⟨route, hroute, h⟩ := bind_eq_ok.mp h
  obtain ⟨recovered, hrecovered, h⟩ := bind_eq_ok.mp h
  obtain rfl := (Except.ok.inj h).symm
  refine ⟨rfl, ?_, signMultipartRecovery_reaches hrecovered⟩
  unfold Implementation.signProviderRoute at hroute
  simp only [ProviderDestinationConfig.s3Settings?] at hroute
  obtain ⟨-, hroute⟩ := guard_eq_ok.mp hroute
  obtain ⟨-, hroute⟩ := guard_eq_ok.mp hroute
  obtain ⟨-, hroute⟩ := guard_eq_ok.mp hroute
  obtain ⟨-, hroute⟩ := guard_eq_ok.mp hroute
  obtain ⟨-, hroute⟩ := guard_eq_ok.mp hroute
  obtain rfl := (Except.ok.inj hroute).symm
  refine ⟨_, ?_, rfl⟩
  split <;> simp

theorem Reaches.inside {settings : S3Settings} {requested : RouteRecoverySignChunk} {key : String}
    {grant : Grant}
    (h : Reaches settings session.transferID requested.toMultipartCoordinates grant)
    (hgroup : requested.multipartGroupID =
      multipartGroupStateKey session.transferID requested.destinationID
      requested.sourceID requested.finalObjectKey)
        (hfits : NamesPlannedKey session.transferID key requested) :
    Inside settings.bucket key
      (plannedBelow session.transferID requested.destinationID requested.sourceID key) grant := by
  have hbelow :
      (plannedBelow session.transferID requested.destinationID requested.sourceID key).toList
      <+: (Rust.multipartRecoveryPrefix session.transferID
        requested.toMultipartCoordinates).toList := by
    rcases hfits with hkey | hkey
    · rw [Rust.multipartRecoveryPrefix, hgroup, hkey]
      exact List.prefix_rfl
    · refine hkey.trans ?_
      simp only [Rust.multipartRecoveryPrefix, String.toList_append, List.append_assoc]
      exact List.prefix_append _ _
  obtain ⟨hbucket, hobject⟩ := h
  refine ⟨hbucket, ?_⟩
  have hplain : (grant.objectKey = requested.finalObjectKey ∨ ∃ attemptID,
      grant.objectKey =
        Rust.stagingKey session.transferID requested.toMultipartCoordinates attemptID) →
      grant.objectKey = key
        ∨ (plannedBelow session.transferID requested.destinationID requested.sourceID key).toList
          <+: grant.objectKey.toList := by
    rintro (hfinal | ⟨attemptID, hstaging⟩)
    · rw [hfinal]
      exact hfits
    · right
      rw [hstaging, Rust.stagingKey]
      simp only [String.toList_append, List.append_assoc]
      exact hbelow.trans (List.prefix_append _ _)
  cases hoperation : grant.operation with
  | listObjectsV2 listed token keys =>
    rw [hoperation] at hobject
    exact ⟨hobject.1, hobject.2 ▸ hbelow⟩
  | putObject | headObject | deleteObject | uploadPart | uploadPartCopy | completeMultipartUpload |
      abortMultipartUpload
  | listParts =>
    rw [hoperation] at hobject
    exact hplain hobject

/-- In every reachable state, what an accepted request for a multipart destination is granted stays
inside the plan exactly where the key it names fits it. -/
theorem signRecoveryRoute_inside {cache : Cache}
    (hreachable : (signer unicode implementation session).Reachable cache)
    {generation : String} {requested : RouteRecoverySignChunk} {settings : S3Settings}
    (hdestination : session.destinations requested.destinationID = some (.s3Compatible settings))
    {recovery : RecoveryRoute}
    (haccepted : (implementation.signRecoveryRoute unicode session cache.stored generation
      requested).1 = .ok recovery) :
    ∃ key, implementation.plannedKey session requested = some key
      ∧ ((∀ grant ∈ recovery.grants, Inside settings.bucket key
          (plannedBelow session.transferID requested.destinationID requested.sourceID key) grant)
        ↔ NamesPlannedKey session.transferID key requested) := by
  rcases signRecoveryRoute_cases unicode implementation session cache.stored generation
    requested with
    ⟨text, hresult⟩ | ⟨chunk, target, source, destination, hplanned, -, hconfig, hcases⟩
  · rw [hresult] at haccepted
    cases haccepted
  rw [hdestination] at hconfig
  obtain rfl := Option.some.inj hconfig
  rcases hcases with ⟨hdirect, -⟩ | ⟨-, upload, built, hstate, hresult⟩
  · cases hdirect
  obtain ⟨key, hkey⟩ := plannedKey_exists hplanned
  obtain ⟨hsound, hobject, hsourceID, hdestinationID, -⟩ :=
    recoveryMultipartUploadState_spec (reachable_sound hreachable) hdestination hstate
  rw [hresult] at haccepted
  obtain ⟨hupload, ⟨operation, hnolist, hdest⟩, hrecovered⟩ := signRequested_s3 haccepted
  have hgroup : requested.multipartGroupID =
      multipartGroupStateKey session.transferID requested.destinationID
      requested.sourceID requested.finalObjectKey := by
    have hname := hsound.name
    simp only [hsourceID, hdestinationID, hobject] at hname
    exact hname
  obtain ⟨hcomplete, hcontrols⟩ :=
    hsound.controls settings (by simpa [hdestinationID] using hdestination)
  have hgrants : recovery.grants
      = upload.manifest.grants ++ [settings.sign requested.finalObjectKey operation] ++
        recovery.recovered.grants := by
    simp only [RecoveryRoute.grants, hupload, hdest, Option.map_some, Option.getD_some]
  refine ⟨key, hkey, ?_⟩
  constructor
  · intro hinside
    have hfirst :=
      hinside upload.manifest.completeURL (by rw [hgrants]; simp [MultipartGroupManifest.grants])
    change upload.manifest.completeURL = _ at hcomplete
    rw [hcomplete, hobject] at hfirst
    exact hfirst.2
  · intro hfits grant hgrant
    rw [hgrants] at hgrant
    rcases List.mem_append.mp hgrant with hroute | hadded
    · rcases List.mem_append.mp hroute with hcontrol | hpart
      · exact (hcontrols session.transferID requested.toMultipartCoordinates hobject.symm grant
          hcontrol).inside hgroup
          hfits
      · obtain rfl := List.mem_singleton.mp hpart
        exact (reaches_final hnolist).inside hgroup hfits
    · exact (hrecovered grant hadded).inside hgroup hfits

end

def sampleSession : ProviderSession where
  transferID := "t1"
  descriptor := {
    planNonce := "n1"
    chunkSize := 10
    sources := [⟨"s1", "https://source", 10, 0, 1⟩]
    destinations := [⟨"d1", "s3", [], 0, [("s1", "key")]⟩] }
  sources _ := some (.s3Compatible "source" "file")
  destinations _ := some (.s3Compatible ⟨"s3", "bucket"⟩)
  huggingFace _ := none
  signSourceChunk _ _ := .ok ⟨.getObject "source" "file" none none, 0, 9, none⟩

def sampleRequested (finalObjectKey : String) : RouteRecoverySignChunk where
  partNumber := 1
  multipartGroupID := multipartGroupStateKey "t1" "d1" "s1" finalObjectKey
  finalObjectKey := finalObjectKey
  uploadID := "u1"
  recovery := none
  sourceID := "s1"
  destinationID := "d1"
  chunkIndex := 0
  deliveryIndex := 0
  sourceOffset := 0
  chunkSize := 10
  logicalAttemptIndex := 0
  attemptSlot := 0
  routeGenerationID := "g1"
  destinationMetadata := []

def sampleAnswer (implementation : Implementation) (finalObjectKey : String) :
    Except String RecoveryRoute :=
  (implementation.signRecoveryRoute id sampleSession [] "g1" (sampleRequested finalObjectKey)).1

theorem sample_reachable (implementation : Implementation) :
    (signer id implementation sampleSession).Reachable ⟨[], []⟩ :=
  ⟨⟨[], []⟩, rfl, .refl _⟩

theorem sample_inside : ∃ recovery, sampleAnswer .go "key" = .ok recovery ∧ ∃ key,
    Implementation.go.plannedKey sampleSession (sampleRequested "key") = some key
      ∧ ∀ grant ∈ recovery.grants, Inside "bucket" key (plannedBelow "t1" "d1" "s1" key) grant := by
  have hok : ((sampleAnswer .go "key").toOption).isSome = true := by decide +kernel
  have hkey : Implementation.go.plannedKey sampleSession (sampleRequested "key") = some "key" := by
    decide +kernel
  cases hanswer : sampleAnswer .go "key" with
  | error text =>
    rw [hanswer] at hok
    cases hok
  | ok recovery =>
    obtain ⟨key, hplanned, hiff⟩ := signRecoveryRoute_inside (sample_reachable .go) rfl hanswer
    rw [hkey] at hplanned
    obtain rfl := Option.some.inj hplanned
    exact ⟨recovery, rfl, "key", hkey, hiff.mpr (.inl rfl)⟩

/-- All four sign for a key that is not the plan's. -/
theorem sample_outside :
    (∀ implementation : Implementation,
      implementation.plannedKey sampleSession (sampleRequested "other") = some "key")
      ∧ ∀ implementation : Implementation, ∃ recovery,
        sampleAnswer implementation "other" = .ok recovery
        ∧ ∃ grant ∈ recovery.grants,
          ¬ Inside "bucket" "key" (plannedBelow "t1" "d1" "s1" "key") grant := by
  have hsigned : ∀ implementation : Implementation,
      implementation.plannedKey sampleSession (sampleRequested "other") = some "key"
        ∧ ((sampleAnswer implementation "other").toOption.any fun recovery =>
          recovery.grants.any fun grant => grant.objectKey = "other") = true := by
    intro implementation
    cases implementation <;> exact ⟨by decide +kernel, by decide +kernel⟩
  refine ⟨fun implementation => (hsigned implementation).1, fun implementation => ?_⟩
  have hany := (hsigned implementation).2
  cases hanswer : sampleAnswer implementation "other" with
  | error text =>
    rw [hanswer] at hany
    cases hany
  | ok recovery =>
    rw [hanswer] at hany
    obtain ⟨grant, hgrant, hobject⟩ := List.any_eq_true.mp hany
    refine ⟨recovery, rfl, grant, hgrant, ?_⟩
    have hobject : grant.objectKey = "other" := of_decide_eq_true hobject
    rintro ⟨-, hinside⟩
    split at hinside
    · exact absurd (hobject.symm.trans hinside.1) (by decide)
    · rw [hobject] at hinside
      exact absurd hinside (by decide +kernel)

end Beam.Signing
