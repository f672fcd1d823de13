import BeamSdk.Signing.Staging
import BeamSdk.Signing.Texts

/-! Where the four SDKs sign the same for a recovery directive. -/

namespace Beam.Signing

/-- What a request does, however its parameters are spelled: a copy source is the octets it stands
for, and a listing of parts without a marker starts after part 0. -/
inductive Action
  | put
  | head
  | delete
  | uploadPart (uploadID : String) (partNumber : ℤ)
  | copyPart (uploadID : String) (partNumber : ℤ) (source : List ℕ) (condition : Option String)
  | complete (uploadID : String)
  | abort (uploadID : String)
  | listParts (uploadID : String) (after : ℤ)
  | listObjects (below : String)

def S3Operation.action : S3Operation → Action
  | putObject => .put
  | headObject => .head
  | deleteObject => .delete
  | uploadPart uploadID partNumber => .uploadPart uploadID partNumber
  | uploadPartCopy uploadID partNumber copySource copySourceIfMatch =>
    .copyPart uploadID partNumber (Uri.decodeOctets copySource.toList) copySourceIfMatch
  | completeMultipartUpload uploadID => .complete uploadID
  | abortMultipartUpload uploadID => .abort uploadID
  | listParts uploadID _ partNumberMarker => .listParts uploadID (partNumberMarker.getD 0)
  | listObjectsV2 below _ _ => .listObjects below

structure Permission where
  bucket : String
  objectKey : String
  action : Action

def Grant.permission (grant : Grant) : Permission :=
    ⟨grant.bucket, grant.objectKey, grant.operation.action⟩

def signed : Except String Recovered → Option (Set Permission)
  | .error _ => none
  | .ok recovered => some {permission | permission ∈ recovered.grants.map Grant.permission}

@[simp] theorem signed_error (text : String) : signed (.error text) = none := rfl

@[simp] theorem signed_throw (text : String) : signed (throw text) = none := rfl

inductive Implementation
  | go
  | typescript
  | rust
  | python

namespace Implementation

def signMultipartRecovery (unicode : Char → Char) : Implementation →
    ProviderDestinationConfig → String →
    MultipartCoordinates → Option ℤ → Except String Recovered
  | go => Go.signMultipartRecovery
  | typescript => TypeScript.signMultipartRecovery
  | rust => Rust.signMultipartRecovery
  | python => Python.signMultipartRecovery unicode

def stagingKey : Implementation → String → MultipartCoordinates → String → String
  | go => Go.stagingKey
  | typescript => TypeScript.stagingKey
  | rust => Rust.stagingKey
  | python => Python.stagingKey

theorem stagingKey_eq (implementation : Implementation) (transferID : String)
    (r : MultipartCoordinates)
    (attemptID : String) : implementation.stagingKey transferID r attemptID =
      Rust.stagingKey transferID r attemptID := by
  cases implementation with
  | go => exact stagingKey_go transferID r attemptID
  | typescript => exact stagingKey_typescript transferID r attemptID
  | rust => rfl
  | python => rfl

end Implementation

def Alike (unicode : Char → Char) (settings : S3Settings) (transferID : String)
    (r : MultipartCoordinates)
    (expectedPartCount : Option ℤ) : Prop :=
  ∀ one other : Implementation,
    signed (one.signMultipartRecovery unicode (.s3Compatible settings)
      transferID r expectedPartCount)
      = signed (other.signMultipartRecovery unicode
        (.s3Compatible settings) transferID r expectedPartCount)

def ValidCount (expectedPartCount : Option ℤ) : Prop :=
    ∃ count, expectedPartCount = some count ∧ 1 ≤ count ∧ count ≤ 10000

def renewedPermissions (settings : S3Settings) (r : MultipartCoordinates) (count : ℤ) :
    Set Permission :=
  {permission | permission ∈ [⟨settings.bucket, r.finalObjectKey, .complete r.uploadID⟩,
    ⟨settings.bucket, r.finalObjectKey, .abort r.uploadID⟩,
      ⟨settings.bucket, r.finalObjectKey, .head⟩]
    ++ (pageMarkers count).map fun marker =>
      ⟨settings.bucket, r.finalObjectKey, .listParts r.uploadID marker⟩}

theorem pageMarkers_length (count : ℤ) : (pageMarkers count).length =
    ((count + 999) / 1000).toNat := by
  simp [pageMarkers]

theorem pageMarkers_nonneg {count marker : ℤ} (h : marker ∈ pageMarkers count) : 0 ≤ marker := by
  obtain ⟨page, _, rfl⟩ := List.mem_map.mp h
  omega

section
variable (settings : S3Settings) (r : MultipartCoordinates)

theorem signed_renewed (count : ℤ) (page : Option Grant) (marker : ℤ → Option ℤ)
    (hmarker : ∀ start, 0 ≤ start → (marker start).getD 0 = start) :
    signed (.ok (.renewed {
      completeURL := settings.sign r.finalObjectKey (.completeMultipartUpload r.uploadID)
      abortURL := settings.sign r.finalObjectKey (.abortMultipartUpload r.uploadID)
      finalHeadURL := settings.sign r.finalObjectKey .headObject
      listPageURLs := (pageMarkers count).map fun start =>
        settings.sign r.finalObjectKey (.listParts r.uploadID 1000 (marker start))
      listPageURL := page })) = some (renewedPermissions settings r count) := by
  have hpages : ((pageMarkers count).map fun start =>
      (settings.sign r.finalObjectKey (.listParts r.uploadID 1000 (marker start))).permission)
      = (pageMarkers count).map fun start =>
        ⟨settings.bucket, r.finalObjectKey, .listParts r.uploadID start⟩ := by
    apply List.map_congr_left
    intro start hstart
    simp only [Grant.permission, S3Settings.sign, S3Operation.action,
      hmarker start (pageMarkers_nonneg hstart)]
  simp only [signed, Recovered.grants, List.map_cons, List.map_map, Function.comp_def, hpages,
    renewedPermissions,
    List.cons_append, List.nil_append]
  rfl

theorem go_marker (start : ℤ) (h : 0 ≤ start) : (Go.partNumberMarker start).getD 0 = start := by
  unfold Go.partNumberMarker
  split
  · rfl
  · simp only [Option.getD_none]
    omega

theorem page_exists {count partNumber : ℤ} (hcount : partNumber ≤ count)
    (hpart : 1 ≤ partNumber) {α : Type*}
    (page : ℤ → α) : ∃ item, ((pageMarkers count).map page)[((partNumber - 1) / 1000).toNat]? =
      some item := by
  have hlt : ((partNumber - 1) / 1000).toNat < ((pageMarkers count).map page).length := by
    rw [List.length_map, pageMarkers_length]
    omega
  exact ⟨_, List.getElem?_eq_getElem hlt⟩

/-- What all four do on renewal: they check the count, and sign the same where the part is one of
them. -/
structure Renews (renewal : Option ℤ → Except String Recovered) : Prop where
  invalid : ∀ expectedPartCount, ¬ ValidCount expectedPartCount →
    signed (renewal expectedPartCount) = none
  valid : ∀ count, 1 ≤ count → count ≤ 10000 → 1 ≤ r.partNumber → r.partNumber ≤ count →
    signed (renewal (some count)) = some (renewedPermissions settings r count)

theorem range_of_invalid {count : ℤ} (h : ¬ ValidCount (some count)) : count < 1 ∨
    10000 < count := by
  by_contra hrange
  push Not at hrange
  exact h ⟨count, rfl, hrange⟩

theorem signed_typescript_renewal (count : ℤ) (hone : 1 ≤ count) (hmax : count ≤ 10000) :
    signed (TypeScript.renewal (.s3Compatible settings) r (some count)) =
      some (renewedPermissions settings r count) := by
  have hrange : ¬ (count < 1 ∨ 10000 < count) := by omega
  simp only [TypeScript.renewal, ProviderDestinationConfig.s3Settings?, if_neg hrange]
  exact signed_renewed settings r count _ some fun _ _ => rfl

theorem typescript_renews : Renews settings r (TypeScript.renewal (.s3Compatible settings) r) where
  invalid expectedPartCount hinvalid := by
    cases expectedPartCount with
    | none => rfl
    | some count =>
      simp only [TypeScript.renewal, if_pos (range_of_invalid hinvalid)]
      rfl
  valid count hone hmax _ _ := signed_typescript_renewal settings r count hone hmax

theorem go_renews : Renews settings r (Go.renewal (.s3Compatible settings) r) where
  invalid expectedPartCount hinvalid := by
    have hrange : expectedPartCount.getD 0 < 1 ∨
        Plan.multipartMaxPartNumber < expectedPartCount.getD 0 := by
      cases expectedPartCount with
      | none => exact .inl (by decide)
      | some count => exact range_of_invalid hinvalid
    simp only [Go.renewal, if_pos hrange]
    rfl
  valid count hone hmax hpart hcount := by
    have hrange : ¬ (count < 1 ∨ Plan.multipartMaxPartNumber < count) := by
      simp only [Plan.multipartMaxPartNumber]
      omega
    have hparts : ¬ (r.partNumber < 1 ∨ count < r.partNumber) := by omega
    simp only [Go.renewal, Option.getD_some, if_neg hrange, if_neg hparts,
      ProviderDestinationConfig.s3Settings?]
    exact signed_renewed settings r count _ Go.partNumberMarker go_marker

theorem go_outside (count : ℤ) (h : ¬ (1 ≤ r.partNumber ∧ r.partNumber ≤ count)) :
    signed (Go.renewal (.s3Compatible settings) r (some count)) = none := by
  have hparts : r.partNumber < 1 ∨ count < r.partNumber := by omega
  by_cases hrange : count < 1 ∨ Plan.multipartMaxPartNumber < count
  · simp only [Go.renewal, Option.getD_some, if_pos hrange]
    rfl
  · simp only [Go.renewal, Option.getD_some, if_neg hrange, if_pos hparts]
    rfl

theorem rust_renews : Renews settings r (Rust.renewal (.s3Compatible settings) r) where
  invalid expectedPartCount hinvalid := by
    have hfilter : (expectedPartCount.filter fun count => 1 ≤ count ∧
        count ≤ Plan.multipartMaxPartNumber) = none := by
      cases expectedPartCount with
      | none => rfl
      | some count =>
        have hrange := range_of_invalid hinvalid
        apply Option.filter_eq_none_iff.mpr
        rintro _ ⟨⟩ hkept
        have hkept : 1 ≤ count ∧ count ≤ 10000 := of_decide_eq_true hkept
        omega
    simp only [Rust.renewal, ProviderDestinationConfig.s3Settings?, hfilter]
    rfl
  valid count hone hmax hpart hcount := by
    have hfilter : ((some count).filter fun count => 1 ≤ count ∧
        count ≤ Plan.multipartMaxPartNumber) = some count := by
      simp [Plan.multipartMaxPartNumber, hone, hmax]
    obtain ⟨page, hpage⟩ := page_exists hcount hpart fun marker =>
      settings.sign r.finalObjectKey (.listParts r.uploadID 1000 (some marker))
    simp only [Rust.renewal, ProviderDestinationConfig.s3Settings?, hfilter, if_pos hpart, hpage]
    exact signed_renewed settings r count _ some fun _ _ => rfl

theorem python_renews : Renews settings r (Python.renewal (.s3Compatible settings) r) where
  invalid expectedPartCount hinvalid := by
    cases expectedPartCount with
    | none => rfl
    | some count =>
      simp only [Python.renewal, if_pos (range_of_invalid hinvalid)]
      rfl
  valid count hone hmax hpart hcount := by
    have hrange : ¬ (count < 1 ∨ 10000 < count) := by omega
    have hindex : 0 ≤ (r.partNumber - 1) / 1000 := by omega
    obtain ⟨page, hpage⟩ := page_exists hcount hpart fun marker =>
      settings.sign r.finalObjectKey (.listParts r.uploadID 1000 (some marker))
    simp only [Python.renewal, ProviderDestinationConfig.s3Settings?, if_neg hrange, Python.item,
      if_pos hindex, hpage]
    exact signed_renewed settings r count _ some fun _ _ => rfl

end

def operations : List String := ["upload", "controls", "list", "delete"]

def Named (objectKey : Option String) (key : String) : Prop :=
    objectKey.getD "" = "" ∨ objectKey = some key

def copyCondition (settings : S3Settings) (strip : String → String) (etag : Option String) :
    Option String :=
  if settings.provider = "s3" ∧
    etag.getD "" ≠ "" then some ("\"" ++ strip (etag.getD "") ++ "\"") else none

section
variable (settings : S3Settings) (transferID : String) (r : MultipartCoordinates)
    (request : MultipartRecoveryRequest)

def stagedPermissions (condition : Option String) : List Permission :=
  let key := Rust.stagingKey transferID r request.attemptID
  if request.operation = "list" then
    [⟨settings.bucket, "", .listObjects (Rust.multipartRecoveryPrefix transferID r)⟩]
  else if request.operation = "delete" then [⟨settings.bucket, key, .delete⟩]
  else
    [⟨settings.bucket, key, .head⟩,
      ⟨settings.bucket, r.finalObjectKey,
        .copyPart r.uploadID r.partNumber
          (Uri.octets (settings.bucket ++ "/" ++ key).toList) condition⟩,
      ⟨settings.bucket, key, .delete⟩] ++ if request.operation =
        "upload" then [⟨settings.bucket, key, .put⟩] else []

def stagedSet (condition : Option String) : Set Permission :=
  {permission | permission ∈ stagedPermissions settings transferID r request condition}

section
variable {settings transferID r request} {condition : Option String}

theorem signed_listed (hlist : request.operation = "list") (token : Option String) :
    signed (.ok (.listed ⟨Rust.multipartRecoveryPrefix transferID r,
      settings.sign "" (.listObjectsV2 (Rust.multipartRecoveryPrefix transferID r) token 1000)⟩))
      = some (stagedSet settings transferID r request condition) := by
  simp only [stagedSet, stagedPermissions, if_pos hlist]
  rfl

theorem signed_removed (hdelete : request.operation = "delete") :
    signed (.ok (.removed ⟨Rust.stagingKey transferID r request.attemptID,
      settings.sign (Rust.stagingKey transferID r request.attemptID) .deleteObject⟩))
      = some (stagedSet settings transferID r request condition) := by
  have hlist : request.operation ≠ "list" := by simp [hdelete]
  simp only [stagedSet, stagedPermissions, if_neg hlist, if_pos hdelete]
  rfl

theorem signed_staged (hlist : request.operation ≠ "list") (hdelete : request.operation ≠ "delete")
    {copySource : String} (hsource : Uri.decodeOctets copySource.toList
      = Uri.octets
        (settings.bucket ++ "/" ++ Rust.stagingKey transferID r request.attemptID).toList)
    {destURL : Option Grant} (hupload : destURL = if request.operation = "upload" then
      some (settings.sign (Rust.stagingKey transferID r request.attemptID) .putObject) else none) :
    signed (.ok (.staged {
      objectKey := Rust.stagingKey transferID r request.attemptID
      attemptID := request.attemptID
      headURL := settings.sign (Rust.stagingKey transferID r request.attemptID) .headObject
      copyURL :=
        settings.sign r.finalObjectKey
          (.uploadPartCopy r.uploadID r.partNumber copySource condition)
      deleteURL := settings.sign (Rust.stagingKey transferID r request.attemptID) .deleteObject
      copySource
      copySourceIfMatch := condition } destURL)) =
        some (stagedSet settings transferID r request condition) := by
  simp only [stagedSet, stagedPermissions, if_neg hlist, if_neg hdelete, ← hsource, hupload]
  split <;> rfl

theorem stagedSet_inj (hlist : request.operation ≠ "list") (hdelete : request.operation ≠ "delete")
    {condition' : Option String} (h : stagedSet settings transferID r request condition
      = stagedSet settings transferID r request condition') : condition = condition' := by
  have hcopy : (⟨settings.bucket, r.finalObjectKey, .copyPart r.uploadID r.partNumber
      (Uri.octets (settings.bucket ++ "/" ++ Rust.stagingKey transferID r request.attemptID).toList)
        condition⟩
        : Permission) ∈ stagedSet settings transferID r request condition := by
    simp [stagedSet, stagedPermissions, hlist, hdelete]
  rw [h] at hcopy
  simp only [stagedSet, stagedPermissions, if_neg hlist, if_neg hdelete, Set.mem_ofPred_eq] at hcopy
  split at hcopy
  all_goals simpa using hcopy

end

theorem stagingKey_ne (transferID : String) (r : MultipartCoordinates) (attemptID : String) :
    Rust.stagingKey transferID r attemptID ≠ "" := by
  intro hempty
  have htext := congrArg String.toList hempty
  rw [stagingKey_toList] at htext
  simp at htext

/-- What all four do with a staging directive that they accept, each with a condition of its own. -/
structure Stages (condition : Option String) (accepts : Prop)
    (staged : Except String Recovered) : Prop where
  rejected : ¬ accepts → signed staged = none
  accepted : accepts → signed staged = some (stagedSet settings transferID r request condition)

theorem typescript_stages : Stages settings transferID r request
    (copyCondition settings stripQuotes request.etag)
    (Named request.objectKey (Rust.stagingKey transferID r request.attemptID))
    (TypeScript.staged (.s3Compatible settings) transferID r request) where
  rejected hnamed := by
    simp only [Named, not_or] at hnamed
    simp only [TypeScript.staged, ProviderDestinationConfig.s3Settings?, stagingKey_typescript]
    rw [if_pos hnamed]
    rfl
  accepted hnamed := by
    have hnot := not_not_intro hnamed
    simp only [Named, not_or] at hnot
    simp only [TypeScript.staged, ProviderDestinationConfig.s3Settings?, stagingKey_typescript,
      stagingBelow_typescript]
    rw [if_neg hnot]
    by_cases hlist : request.operation = "list"
    · simp only [if_pos hlist]
      exact signed_listed hlist request.continuationToken
    by_cases hdelete : request.operation = "delete"
    · simp only [if_neg hlist, if_pos hdelete]
      exact signed_removed hdelete
    · simp only [if_neg hlist, if_neg hdelete]
      exact signed_staged hlist hdelete (decode_copySourceOf _ _) rfl

theorem named_iff {objectKey : Option String} {key : String} :
    Named objectKey key ↔ ¬ (objectKey.getD "" ≠ "" ∧ objectKey.getD "" ≠ key) := by
  cases objectKey with
  | none => simp [Named]
  | some objectKey =>
    simp only [Named, Option.getD_some, Option.some.injEq]
    tauto

theorem go_stages : Stages settings transferID r request
    (copyCondition settings trimQuotes request.etag)
    (request.mode = "staged" ∧ Go.recoveryAttemptIDPattern request.attemptID = true
      ∧ Named request.objectKey (Rust.stagingKey transferID r request.attemptID) ∧
        request.operation ∈ operations)
    (Go.staged (.s3Compatible settings) transferID r request) where
  rejected hrejected := by
    simp only [Go.staged, ProviderDestinationConfig.s3Settings?, stagingKey_go]
    by_cases hmode : request.mode ≠ "staged" ∨ Go.recoveryAttemptIDPattern request.attemptID = false
    · rw [if_pos hmode]
      rfl
    rw [if_neg hmode]
    by_cases hkey : request.objectKey.getD "" ≠ "" ∧
      request.objectKey.getD "" ≠ Rust.stagingKey transferID r request.attemptID
    · simp only [if_pos hkey]
      rfl
    push Not at hmode
    have hattempt : Go.recoveryAttemptIDPattern request.attemptID = true := by simpa using hmode.2
    have hoperation : request.operation ∉ operations := fun hoperation =>
      hrejected ⟨hmode.1, hattempt, named_iff.mpr hkey, hoperation⟩
    simp only [operations, List.mem_cons, List.not_mem_nil, or_false, not_or] at hoperation
    obtain ⟨hupload, hcontrols, hlist, hdelete⟩ := hoperation
    simp only [if_neg hkey, if_neg hlist, if_neg hdelete, if_pos (And.intro hupload hcontrols)]
    rfl
  accepted := by
    rintro ⟨hmode, hattempt, hnamed, hoperation⟩
    have hnot :
        ¬ (request.mode ≠ "staged" ∨ Go.recoveryAttemptIDPattern request.attemptID = false) := by
      simp [hmode, hattempt]
    have hkey := named_iff.mp hnamed
    simp only [Go.staged, ProviderDestinationConfig.s3Settings?, stagingKey_go, stagingBelow_go]
    rw [if_neg hnot]
    by_cases hlist : request.operation = "list"
    · simp only [if_neg hkey, if_pos hlist]
      exact signed_listed hlist _
    by_cases hdelete : request.operation = "delete"
    · simp only [if_neg hkey, if_neg hlist, if_pos hdelete]
      exact signed_removed hdelete
    · have hsupported : ¬ (request.operation ≠ "upload" ∧ request.operation ≠ "controls") := by
        rintro ⟨hupload, hcontrols⟩
        simp [operations, hlist, hdelete, hupload, hcontrols] at hoperation
      simp only [if_neg hkey, if_neg hlist, if_neg hdelete, if_neg hsupported]
      exact signed_staged hlist hdelete (decode_escapeS3Key _ _) rfl

theorem python_stages (unicode : Char → Char) :
    Stages settings transferID r request (copyCondition settings trimQuotes request.etag)
      (Python.acceptsUUID unicode request.attemptID = true ∧ request.operation ∈ operations
        ∧ request.objectKey.getD (Rust.stagingKey transferID r request.attemptID)
          = Rust.stagingKey transferID r request.attemptID)
      (Python.staged unicode (.s3Compatible settings) transferID r request) where
  rejected hrejected := by
    change ¬ (_ ∧ _ ∧ request.objectKey.getD (Python.stagingKey transferID r request.attemptID)
      = Python.stagingKey transferID r request.attemptID) at hrejected
    simp only [Python.staged, ProviderDestinationConfig.s3Settings?]
    by_cases hattempt : Python.acceptsUUID unicode request.attemptID = false
    · rw [if_pos hattempt]
      rfl
    rw [if_neg hattempt]
    by_cases hoperation : request.operation ∉ ["upload", "controls", "list", "delete"]
    · rw [if_pos hoperation]
      rfl
    rw [if_neg hoperation]
    have hkey : request.objectKey.getD (Python.stagingKey transferID r request.attemptID)
        ≠ Python.stagingKey transferID r request.attemptID := fun hkey =>
      hrejected ⟨by simpa using hattempt, not_not.mp hoperation, hkey⟩
    simp only [if_pos hkey]
    rfl
  accepted := by
    rintro ⟨hattempt, hoperation, hkey⟩
    have hnot : ¬ Python.acceptsUUID unicode request.attemptID = false := by simp [hattempt]
    have hsupported : ¬ request.operation ∉ ["upload", "controls", "list", "delete"] :=
      not_not_intro hoperation
    simp only [Python.staged, ProviderDestinationConfig.s3Settings?]
    rw [if_neg hnot, if_neg hsupported]
    change request.objectKey.getD (Python.stagingKey transferID r request.attemptID)
      = Python.stagingKey transferID r request.attemptID at hkey
    by_cases hlist : request.operation = "list"
    · simp only [hkey, ne_eq, not_true_eq_false, if_false, if_pos hlist]
      exact signed_listed hlist _
    by_cases hdelete : request.operation = "delete"
    · simp only [hkey, ne_eq, not_true_eq_false, if_false, if_neg hlist, if_pos hdelete]
      exact signed_removed hdelete
    · simp only [hkey, ne_eq, not_true_eq_false, if_false, if_neg hlist, if_neg hdelete]
      exact signed_staged hlist hdelete (decode_quotePath _ _) rfl

theorem rust_condition :
    ((request.etag.filter fun etag => settings.provider = "s3" ∧ etag ≠ "").map fun etag =>
    "\"" ++ stripQuotes etag ++ "\"") = copyCondition settings stripQuotes request.etag := by
  cases request.etag with
  | none => simp [copyCondition]
  | some etag =>
    by_cases h : settings.provider = "s3" ∧ etag ≠ ""
    · simp [copyCondition, h]
    · simp only [copyCondition, Option.getD_some, if_neg h, Option.filter_some, decide_eq_true_eq]
      rfl

def operationName : Rust.MultipartRecoveryOperation → String
  | .upload => "upload"
  | .controls => "controls"
  | .list => "list"
  | .delete => "delete"
  | .renew => "renew"

theorem decodeOperation_iff {text : String} {operation : Rust.MultipartRecoveryOperation} :
    Rust.decodeOperation text = some operation ↔ text = operationName operation := by
  constructor
  · intro h
    unfold Rust.decodeOperation at h
    split at h <;> simp_all [operationName, eq_comm]
  · rintro rfl
    cases operation <;> rfl

theorem rust_stages {operation : Rust.MultipartRecoveryOperation}
    (hdecoded : Rust.decodeOperation request.operation = some operation) :
    Stages settings transferID r request (copyCondition settings stripQuotes request.etag)
      (Rust.isHyphenatedUUID request.attemptID = true
        ∧ Named request.objectKey (Rust.stagingKey transferID r request.attemptID))
      (Rust.staged (.s3Compatible settings) transferID r request operation) where
  rejected hrejected := by
    simp only [Rust.staged, ProviderDestinationConfig.s3Settings?]
    by_cases hattempt : Rust.isHyphenatedUUID request.attemptID = false
    · rw [if_pos hattempt]
      rfl
    rw [if_neg hattempt]
    have hkey := not_not.mp fun hkey => hrejected ⟨by simpa using hattempt, named_iff.mpr hkey⟩
    simp only [if_pos hkey]
    rfl
  accepted := by
    rintro ⟨hattempt, hnamed⟩
    have hnot : ¬ Rust.isHyphenatedUUID request.attemptID = false := by simp [hattempt]
    have hkey := named_iff.mp hnamed
    simp only [Rust.staged, ProviderDestinationConfig.s3Settings?, rust_condition]
    rw [if_neg hnot]
    have hname := decodeOperation_iff.mp hdecoded
    have hsource :=
      decode_copySourceOf settings.bucket (Rust.stagingKey transferID r request.attemptID)
    cases operation with
    | list =>
      simp only [if_neg hkey]
      exact signed_listed hname _
    | delete =>
      simp only [if_neg hkey]
      exact signed_removed hname
    | upload | controls | renew =>
      have hlist : request.operation ≠ "list" := by simp [hname, operationName]
      have hdelete : request.operation ≠ "delete" := by simp [hname, operationName]
      simp only [if_neg hkey]
      exact signed_staged hlist hdelete hsource (by simp [hname, operationName])

theorem copyCondition_eq_iff : copyCondition settings stripQuotes request.etag
      = copyCondition settings trimQuotes request.etag
    ↔ (settings.provider = "s3" → QuotedOnce (request.etag.getD "").toList) := by
  by_cases hprovider : settings.provider = "s3"
  · by_cases hetag : request.etag.getD "" = ""
    · simp [copyCondition, hetag, QuotedOnce]
    · simp only [copyCondition, hprovider, ne_eq, hetag, not_false_eq_true, and_self, if_true,
        Option.some.injEq,
        forall_true_left, ← strip_eq_trim_iff]
      rw [← String.toList_inj]
      simp only [String.toList_append, List.append_cancel_right_eq, List.append_cancel_left_eq,
        stripQuotes, trimQuotes,
        String.toList_ofList]
  · simp [copyCondition, hprovider]

end

def modeName : Rust.MultipartRecoveryMode → String
  | .staged => "staged"
  | .direct => "direct"

theorem decodeMode_iff {text : String} {mode : Rust.MultipartRecoveryMode} :
    Rust.decodeMode text = some mode ↔ text = modeName mode := by
  constructor
  · intro h
    unfold Rust.decodeMode at h
    split at h <;> simp_all [modeName, eq_comm]
  · rintro rfl
    cases mode <;> rfl

theorem decodeMode_exists {text : String} : (∃ mode, Rust.decodeMode text = some mode) ↔
    text ∈ ["staged", "direct"] := by
  simp only [decodeMode_iff, List.mem_cons, List.not_mem_nil, or_false]
  constructor
  · rintro ⟨mode, rfl⟩
    cases mode <;> simp [modeName]
  · rintro (rfl | rfl)
    · exact ⟨.staged, rfl⟩
    · exact ⟨.direct, rfl⟩

theorem decodeOperation_exists {text : String} (hrenew : text ≠ "renew") :
    (∃ operation, Rust.decodeOperation text = some operation) ↔ text ∈ operations := by
  simp only [decodeOperation_iff, operations, List.mem_cons, List.not_mem_nil, or_false]
  constructor
  · rintro ⟨operation, rfl⟩
    cases operation <;> simp_all [operationName]
  · rintro (rfl | rfl | rfl | rfl)
    · exact ⟨.upload, rfl⟩
    · exact ⟨.controls, rfl⟩
    · exact ⟨.list, rfl⟩
    · exact ⟨.delete, rfl⟩

section
variable {settings : S3Settings} {transferID : String} {r : MultipartCoordinates}
    {request : MultipartRecoveryRequest}
  {expectedPartCount : Option ℤ} (hrecovery : r.recovery = some request)
include hrecovery

theorem rust_undecoded (h : r.partNumber < 0 ∨ Rust.decodeOperation request.operation = none
      ∨ Rust.decodeMode request.mode = none) :
    signed (Rust.signMultipartRecovery (.s3Compatible settings) transferID r expectedPartCount) =
      none := by
  simp only [Rust.signMultipartRecovery, hrecovery]
  by_cases hpart : r.partNumber < 0
  · rw [if_pos hpart]
    rfl
  rw [if_neg hpart]
  rcases h.resolve_left hpart with hoperation | hmode
  · simp only [hoperation]
    rfl
  · cases hoperation : Rust.decodeOperation request.operation with
    | none => rfl
    | some operation =>
      simp only [hmode]
      rfl

theorem rust_decoded (hpart : 0 ≤ r.partNumber) {operation : Rust.MultipartRecoveryOperation}
    {mode : Rust.MultipartRecoveryMode}
    (hoperation : Rust.decodeOperation request.operation = some operation)
    (hmode : Rust.decodeMode request.mode = some mode) :
    Rust.signMultipartRecovery (.s3Compatible settings) transferID r expectedPartCount
      = if operation = .renew then Rust.renewal (.s3Compatible settings) r expectedPartCount
        else if mode = .direct then pure .unchanged
        else Rust.staged (.s3Compatible settings) transferID r request operation := by
  have hnot : ¬ r.partNumber < 0 := by omega
  simp only [Rust.signMultipartRecovery, hrecovery, hoperation, hmode]
  rw [if_neg hnot]

end

/-- The operations and modes are known ones, and where parts of a group or of a staging key are
compared they fit. -/
def AgreesOn (settings : S3Settings) (transferID : String) (r : MultipartCoordinates)
    (expectedPartCount : Option ℤ) : Prop :=
  match r.recovery with
  | none => 0 ≤ r.partNumber
  | some request =>
    if request.operation = "renew" then
      ∀ count, expectedPartCount = some count → 1 ≤ count → count ≤ 10000 →
        1 ≤ r.partNumber ∧ r.partNumber ≤ count ∧ request.mode ∈ ["staged", "direct"]
    else if request.mode = "direct" then request.operation ∈ operations ∧ 0 ≤ r.partNumber
    else
      ¬ Named request.objectKey (Rust.stagingKey transferID r request.attemptID) ∨
        (request.mode = "staged" ∧ request.operation ∈ operations
          ∧ hexRuns [8, 4, 4, 4, 12] request.attemptID.toList = true
          ∧ request.objectKey ≠ some "" ∧ 0 ≤ r.partNumber
          ∧ (request.operation ∈ ["upload", "controls"] → settings.provider = "s3" →
            QuotedOnce (request.etag.getD "").toList))

section
variable {unicode : Char → Char} {settings : S3Settings} {transferID : String}
    {r : MultipartCoordinates}
  {request : MultipartRecoveryRequest} {expectedPartCount : Option ℤ}

theorem Stages.accepts_of {condition : Option String} {accepts : Prop}
    {staged : Except String Recovered}
    (h : Stages settings transferID r request condition accepts staged)
    {permissions : Set Permission}
    (hsigned : signed staged = some permissions) : accepts := by
  by_contra hrejected
  rw [h.rejected hrejected] at hsigned
  cases hsigned

theorem alike_of {v : Option (Set Permission)}
    (hgo : signed
      (Go.signMultipartRecovery (.s3Compatible settings) transferID r expectedPartCount) = v)
    (htypescript : signed
      (TypeScript.signMultipartRecovery (.s3Compatible settings) transferID r expectedPartCount) =
        v)
    (hrust : signed
      (Rust.signMultipartRecovery (.s3Compatible settings) transferID r expectedPartCount) = v)
    (hpython : signed
      (Python.signMultipartRecovery unicode (.s3Compatible settings) transferID r expectedPartCount)
      = v) : Alike unicode settings transferID r expectedPartCount := by
  have hall : ∀ implementation : Implementation,
      signed (implementation.signMultipartRecovery unicode
      (.s3Compatible settings) transferID r expectedPartCount) = v := by
    intro implementation
    cases implementation with
    | go => exact hgo
    | typescript => exact htypescript
    | rust => exact hrust
    | python => exact hpython
  exact fun one other => (hall one).trans (hall other).symm

theorem alike_without (hrecovery : r.recovery = none) :
    Alike unicode settings transferID r expectedPartCount ↔ 0 ≤ r.partNumber := by
  constructor
  · intro halike
    by_contra hpart
    have hsame := halike .rust .go
    simp only [Implementation.signMultipartRecovery, Rust.signMultipartRecovery,
      Go.signMultipartRecovery,
      hrecovery] at hsame
    rw [if_pos (by omega)] at hsame
    cases hsame
  · intro hpart
    have hnot : ¬ r.partNumber < 0 := by omega
    apply alike_of (v := signed (pure .unchanged))
    · simp only [Go.signMultipartRecovery, hrecovery]
    · simp only [TypeScript.signMultipartRecovery, hrecovery]
    · simp only [Rust.signMultipartRecovery, hrecovery, if_neg hnot]
    · simp only [Python.signMultipartRecovery, hrecovery]

theorem alike_renewal (hrecovery : r.recovery = some request)
    (hrenew : request.operation = "renew") :
    Alike unicode settings transferID r expectedPartCount ↔
      ∀ count, expectedPartCount = some count → 1 ≤ count → count ≤ 10000 →
        1 ≤ r.partNumber ∧ r.partNumber ≤ count ∧ request.mode ∈ ["staged", "direct"] := by
  have htypescript : TypeScript.signMultipartRecovery
      (.s3Compatible settings) transferID r expectedPartCount
      = TypeScript.renewal (.s3Compatible settings) r expectedPartCount := by
    simp only [TypeScript.signMultipartRecovery, hrecovery, if_pos hrenew]
  have hgo : Go.signMultipartRecovery (.s3Compatible settings) transferID r expectedPartCount
      = Go.renewal (.s3Compatible settings) r expectedPartCount := by
    simp only [Go.signMultipartRecovery, hrecovery, if_pos hrenew]
  have hpython : Python.signMultipartRecovery unicode
      (.s3Compatible settings) transferID r expectedPartCount
      = Python.renewal (.s3Compatible settings) r expectedPartCount := by
    simp only [Python.signMultipartRecovery, hrecovery, if_pos hrenew]
  have hoperation : Rust.decodeOperation request.operation = some .renew :=
    decodeOperation_iff.mpr hrenew
  constructor
  · rintro halike count rfl hone hmax
    have haccepted := signed_typescript_renewal settings r count hone hmax
    have hparts : 1 ≤ r.partNumber ∧ r.partNumber ≤ count := by
      by_contra hparts
      have hsame := halike .go .typescript
      simp only [Implementation.signMultipartRecovery, htypescript, hgo, haccepted,
        go_outside settings r count hparts]
        at hsame
      cases hsame
    refine ⟨hparts.1, hparts.2, decodeMode_exists.mp ?_⟩
    cases hmode : Rust.decodeMode request.mode with
    | some mode => exact ⟨mode, rfl⟩
    | none =>
      have hsame := halike .rust .typescript
      simp only [Implementation.signMultipartRecovery, htypescript, haccepted,
        rust_undecoded hrecovery (.inr (.inr hmode))] at hsame
      cases hsame
  · intro hagrees
    by_cases hvalid : ValidCount expectedPartCount
    · obtain ⟨count, rfl, hone, hmax⟩ := hvalid
      obtain ⟨hpart, hcount, hmodes⟩ := hagrees count rfl hone hmax
      obtain ⟨mode, hmode⟩ := decodeMode_exists.mpr hmodes
      have hrust : Rust.signMultipartRecovery (.s3Compatible settings) transferID r (some count)
          = Rust.renewal (.s3Compatible settings) r (some count) := by
        rw [rust_decoded hrecovery (by omega) hoperation hmode, if_pos rfl]
      have hrenewed := fun {renewal} (hrenews : Renews settings r renewal) =>
        hrenews.valid count hone hmax hpart hcount
      exact alike_of (by rw [hgo, hrenewed (go_renews settings r)])
        (by rw [htypescript, hrenewed (typescript_renews settings r)])
          (by rw [hrust, hrenewed (rust_renews settings r)])
        (by rw [hpython, hrenewed (python_renews settings r)])
    · have hrust :
          signed (Rust.signMultipartRecovery (.s3Compatible settings)
            transferID r expectedPartCount) = none := by
        by_cases hpart : r.partNumber < 0
        · exact rust_undecoded hrecovery (.inl hpart)
        cases hmode : Rust.decodeMode request.mode with
        | none => exact rust_undecoded hrecovery (.inr (.inr hmode))
        | some mode =>
          rw [rust_decoded hrecovery (by omega) hoperation hmode, if_pos rfl]
          exact (rust_renews settings r).invalid expectedPartCount hvalid
      have hinvalid := fun {renewal} (hrenews : Renews settings r renewal) =>
        hrenews.invalid expectedPartCount hvalid
      exact alike_of (by rw [hgo, hinvalid (go_renews settings r)])
        (by rw [htypescript, hinvalid (typescript_renews settings r)]) hrust
        (by rw [hpython, hinvalid (python_renews settings r)])

theorem alike_direct (hrecovery : r.recovery = some request) (hrenew : request.operation ≠ "renew")
    (hdirect : request.mode = "direct") :
    Alike unicode settings transferID r expectedPartCount ↔ request.operation ∈ operations ∧
      0 ≤ r.partNumber := by
  have hgo : Go.signMultipartRecovery (.s3Compatible settings) transferID r expectedPartCount =
      pure .unchanged := by
    simp only [Go.signMultipartRecovery, hrecovery, if_neg hrenew, if_pos hdirect]
  have htypescript : TypeScript.signMultipartRecovery
      (.s3Compatible settings) transferID r expectedPartCount
      = pure .unchanged := by
    simp only [TypeScript.signMultipartRecovery, hrecovery, if_neg hrenew, if_pos hdirect]
  have hpython : Python.signMultipartRecovery unicode
      (.s3Compatible settings) transferID r expectedPartCount
      = pure .unchanged := by
    simp only [Python.signMultipartRecovery, hrecovery, if_neg hrenew, if_pos hdirect]
  constructor
  · intro halike
    by_contra hfit
    have hundecoded : r.partNumber < 0 ∨ Rust.decodeOperation request.operation = none
        ∨ Rust.decodeMode request.mode = none := by
      by_cases hpart : r.partNumber < 0
      · exact .inl hpart
      refine .inr (.inl (Option.eq_none_iff_forall_not_mem.mpr fun operation hoperation => ?_))
      exact hfit ⟨(decodeOperation_exists hrenew).mp ⟨operation, hoperation⟩, by omega⟩
    have hsame := halike .rust .go
    simp only [Implementation.signMultipartRecovery, rust_undecoded hrecovery hundecoded,
      hgo] at hsame
    cases hsame
  · rintro ⟨hoperation, hpart⟩
    obtain ⟨operation, hoperation⟩ := (decodeOperation_exists hrenew).mpr hoperation
    have hnot : operation ≠ .renew := by
      rintro rfl
      exact hrenew (decodeOperation_iff.mp hoperation)
    have hmode : Rust.decodeMode request.mode = some .direct := decodeMode_iff.mpr hdirect
    have hrust : Rust.signMultipartRecovery (.s3Compatible settings)
        transferID r expectedPartCount = pure .unchanged := by
      rw [rust_decoded hrecovery hpart hoperation hmode, if_neg hnot, if_pos rfl]
    exact alike_of rfl (by rw [htypescript, hgo]) (by rw [hrust, hgo]) (by rw [hpython, hgo])

theorem alike_staged (hrecovery : r.recovery = some request) (hrenew : request.operation ≠ "renew")
    (hdirect : request.mode ≠ "direct") :
    Alike unicode settings transferID r expectedPartCount ↔
      ¬ Named request.objectKey (Rust.stagingKey transferID r request.attemptID) ∨
        (request.mode = "staged" ∧ request.operation ∈ operations
          ∧ hexRuns [8, 4, 4, 4, 12] request.attemptID.toList = true
          ∧ request.objectKey ≠ some "" ∧ 0 ≤ r.partNumber
          ∧ (request.operation ∈ ["upload", "controls"] → settings.provider = "s3" →
            QuotedOnce (request.etag.getD "").toList)) := by
  have hgo : Go.signMultipartRecovery (.s3Compatible settings) transferID r expectedPartCount
      = Go.staged (.s3Compatible settings) transferID r request := by
    simp only [Go.signMultipartRecovery, hrecovery, if_neg hrenew, if_neg hdirect]
  have htypescript : TypeScript.signMultipartRecovery
      (.s3Compatible settings) transferID r expectedPartCount
      = TypeScript.staged (.s3Compatible settings) transferID r request := by
    simp only [TypeScript.signMultipartRecovery, hrecovery, if_neg hrenew, if_neg hdirect]
  have hpython : Python.signMultipartRecovery unicode
      (.s3Compatible settings) transferID r expectedPartCount
      = Python.staged unicode (.s3Compatible settings) transferID r request := by
    simp only [Python.signMultipartRecovery, hrecovery, if_neg hrenew, if_neg hdirect]
  have hgoes := go_stages settings transferID r request
  have htypes := typescript_stages settings transferID r request
  have hpythons := python_stages settings transferID r request unicode
  have hrust : ∀ operation, Rust.decodeOperation request.operation = some operation →
      request.mode = "staged" →
      0 ≤ r.partNumber →
        Rust.signMultipartRecovery (.s3Compatible settings) transferID r expectedPartCount
        = Rust.staged (.s3Compatible settings) transferID r request operation := by
    intro operation hoperation hmode hpart
    have hnot : operation ≠ .renew := by
      rintro rfl
      exact hrenew (decodeOperation_iff.mp hoperation)
    have hdecoded : Rust.decodeMode request.mode = some .staged := decodeMode_iff.mpr hmode
    rw [rust_decoded hrecovery hpart hoperation hdecoded, if_neg hnot, if_neg (by decide)]
  by_cases hnamed : Named request.objectKey (Rust.stagingKey transferID r request.attemptID)
  · have haccepted := htypes.accepted hnamed
    have hsame : ∀ implementation : Implementation,
        Alike unicode settings transferID r expectedPartCount →
        signed (implementation.signMultipartRecovery unicode
          (.s3Compatible settings) transferID r expectedPartCount)
          = some (stagedSet settings transferID r request
            (copyCondition settings stripQuotes request.etag)) := by
      intro implementation halike
      rw [← haccepted, ← htypescript]
      exact halike implementation .typescript
    constructor
    · intro halike
      have hgoSame := hsame .go halike
      have hpythonSame := hsame .python halike
      have hrustSame := hsame .rust halike
      simp only [Implementation.signMultipartRecovery, hgo, hpython]
        at hgoSame hpythonSame hrustSame
      obtain ⟨hmode, hattempt, -, hoperation⟩ := hgoes.accepts_of hgoSame
      obtain ⟨-, -, hkey⟩ := hpythons.accepts_of hpythonSame
      refine .inr ⟨hmode, hoperation, hattempt, ?_, ?_, ?_⟩
      · intro hempty
        rw [hempty, Option.getD_some] at hkey
        exact stagingKey_ne _ _ _ hkey.symm
      · by_contra hpart
        rw [rust_undecoded hrecovery (.inl (by omega))] at hrustSame
        cases hrustSame
      · intro hcopies
        apply (copyCondition_eq_iff settings request).mp
        rw [hgoes.accepted (hgoes.accepts_of hgoSame)] at hgoSame
        refine (stagedSet_inj ?_ ?_ (Option.some.inj hgoSame)).symm
        all_goals
          intro heq
          simp [heq] at hcopies
    · rintro (hnot | ⟨hmode, hoperation, hattempt, hempty, hpart, hcopies⟩)
      · exact absurd hnamed hnot
      have hsets : stagedSet settings transferID r request
          (copyCondition settings trimQuotes request.etag)
          = stagedSet settings transferID r request
            (copyCondition settings stripQuotes request.etag) := by
        by_cases hcopy : request.operation ∈ ["upload", "controls"]
        · rw [(copyCondition_eq_iff settings request).mpr (hcopies hcopy)]
        · have hrest : request.operation = "list" ∨ request.operation = "delete" := by
            simp only [operations, List.mem_cons, List.not_mem_nil, or_false] at hoperation hcopy
            tauto
          rcases hrest with hlist | hdelete
          · simp only [stagedSet, stagedPermissions, if_pos hlist]
          · simp [stagedSet, stagedPermissions, hdelete]
      have hkey : request.objectKey.getD (Rust.stagingKey transferID r request.attemptID)
          = Rust.stagingKey transferID r request.attemptID := by
        rcases hnamed with hnone | hkey
        · cases hobject : request.objectKey with
          | none => rfl
          | some objectKey =>
            rw [hobject, Option.getD_some] at hnone
            exact absurd (hobject.trans (congrArg some hnone)) hempty
        · rw [hkey, Option.getD_some]
      obtain ⟨operation, hdecoded⟩ := (decodeOperation_exists hrenew).mpr hoperation
      apply alike_of
      · rw [hgo, hgoes.accepted ⟨hmode, hattempt, hnamed, hoperation⟩, hsets]
      · rw [htypescript, haccepted]
      · rw [hrust operation hdecoded hmode hpart]
        exact (rust_stages settings transferID r request hdecoded).accepted ⟨hattempt, hnamed⟩
      · rw [hpython, hpythons.accepted ⟨acceptsUUID_of_hexRuns unicode hattempt, hoperation, hkey⟩,
          hsets]
  · have hrejected : Alike unicode settings transferID r expectedPartCount := by
      apply alike_of
      · rw [hgo, hgoes.rejected fun haccepts => hnamed haccepts.2.2.1]
      · rw [htypescript, htypes.rejected hnamed]
      · by_cases hpart : r.partNumber < 0
        · exact rust_undecoded hrecovery (.inl hpart)
        cases hdecoded : Rust.decodeOperation request.operation with
        | none => exact rust_undecoded hrecovery (.inr (.inl hdecoded))
        | some operation =>
          cases hmode : Rust.decodeMode request.mode with
          | none => exact rust_undecoded hrecovery (.inr (.inr hmode))
          | some mode =>
            cases mode with
            | direct => exact absurd (decodeMode_iff.mp hmode) hdirect
            | staged =>
              rw [hrust operation hdecoded (decodeMode_iff.mp hmode) (by omega)]
              exact (rust_stages settings transferID r request hdecoded).rejected fun haccepts =>
                hnamed haccepts.2
      · rw [hpython, hpythons.rejected]
        rintro ⟨-, -, hkey⟩
        cases hobject : request.objectKey with
        | none => exact hnamed (.inl (by rw [hobject, Option.getD_none]))
        | some objectKey =>
          rw [hobject, Option.getD_some] at hkey
          exact hnamed (.inr (hobject.trans (congrArg some hkey)))
    exact iff_of_true hrejected (.inl hnamed)

theorem alike_iff_agreesOn : Alike unicode settings transferID r expectedPartCount
    ↔ AgreesOn settings transferID r expectedPartCount := by
  unfold AgreesOn
  cases hrecovery : r.recovery with
  | none => exact alike_without hrecovery
  | some request =>
    simp only
    split
    · exact alike_renewal hrecovery ‹_›
    · split
      · exact alike_direct hrecovery ‹_› ‹_›
      · exact alike_staged hrecovery ‹_› ‹_›

end

/-- The four SDKs treat a directive alike exactly where `AgreesOn` holds, and no two attempts share
a staging object. -/
theorem signMultipartRecovery_agree (unicode : Char → Char) :
    (∀ (settings : S3Settings) (transferID : String) (r : MultipartCoordinates)
      (expectedPartCount : Option ℤ),
      Alike unicode settings transferID r expectedPartCount ↔
        AgreesOn settings transferID r expectedPartCount)
    ∧ ∀ (one other : Implementation) (transferID transferID' : String) (r r' : MultipartCoordinates)
        (attemptID attemptID' : String),
      '/' ∉ transferID.toList → '/' ∉ transferID'.toList → '/' ∉ attemptID.toList →
        '/' ∉ attemptID'.toList →
      one.stagingKey transferID r attemptID = other.stagingKey transferID' r' attemptID' →
      (r.finalObjectKey, transferID, r.multipartGroupID, r.partNumber, attemptID)
        = (r'.finalObjectKey, transferID', r'.multipartGroupID, r'.partNumber, attemptID') := by
  refine ⟨fun settings transferID r expectedPartCount => alike_iff_agreesOn, ?_⟩
  intro one other transferID transferID' r r' attemptID attemptID' htransfer htransfer' hattempt
    hattempt' hkey
  rw [one.stagingKey_eq, other.stagingKey_eq] at hkey
  exact stagingKey_injective htransfer htransfer' hattempt hattempt' hkey

def sampleCoordinates (attemptID : String) : MultipartCoordinates where
  partNumber := 1
  multipartGroupID := "t1:d1:s1:key"
  finalObjectKey := "key"
  uploadID := "u1"
  recovery := some ⟨"upload", "staged", attemptID, none, some "\"5d41\"", none⟩

theorem sample_alike :
    Alike id ⟨"s3", "bucket"⟩ "t1" (sampleCoordinates "123e4567-e89b-12d3-a456-426614174000")
      (some 1) := by
  apply ((signMultipartRecovery_agree id).1 ⟨"s3", "bucket"⟩ "t1" _ (some 1)).mpr
  refine .inr ⟨rfl, by decide, by decide +kernel, by decide, by decide, fun _ _ => .inr ⟨?_, ?_⟩⟩
  all_goals decide +kernel

/-- An attempt identifier that is no UUID: TypeScript signs for it, and the others refuse. -/
theorem sample_unlike : ¬ Alike id ⟨"s3", "bucket"⟩ "t1" (sampleCoordinates "attempt-1")
    (some 1) := by
  intro halike
  rcases alike_iff_agreesOn.mp halike with hnamed | ⟨-, -, hattempt, -⟩
  · exact hnamed (.inl rfl)
  · exact absurd hattempt (by decide +kernel)

end Beam.Signing
