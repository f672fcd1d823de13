import Mathlib
import BeamSdk.Signing.Directives

/-! The staging object of a recovery attempt: the four SDKs give it one key, another one for every
attempt, and name the same object in the source of its copy. -/

namespace Beam.Signing

theorem keeps_component : Uri.Keeps keptInComponent where
  ascii n h := by
    simp only [keptInComponent, isUnreserved, isAlphanumeric, isSubDelimiter, Bool.or_eq_true,
      Bool.and_eq_true,
      decide_eq_true_eq, beq_iff_eq] at h
    omega
  percent := rfl

theorem keeps_path : Uri.Keeps keptInPath where
  ascii n h := by
    simp only [keptInPath, isUnreserved, isAlphanumeric, Bool.or_eq_true, Bool.and_eq_true,
      decide_eq_true_eq,
      beq_iff_eq] at h
    omega
  percent := rfl

theorem keeps_segment : Uri.Keeps Go.keptInSegment where
  ascii n h := by
    simp only [Go.keptInSegment, isUnreserved, isAlphanumeric, Bool.or_eq_true, Bool.and_eq_true,
      decide_eq_true_eq,
      beq_iff_eq] at h
    omega
  percent := rfl

theorem keeps_unreserved : Uri.Keeps isUnreserved where
  ascii n h := keeps_path.ascii n (by simp [keptInPath, h])
  percent := rfl

theorem flatMap_encode {keep : ℕ → Bool} {write : ℕ → List Char} {change : Char → List Char}
    (h : ∀ n < 256, (write n).flatMap change = Uri.encodeOctet keep n) (text : List Char) :
    ((Uri.octets text).flatMap write).flatMap change = Uri.encode keep text := by
  rw [List.flatMap_assoc, Uri.encode]
  exact List.flatMap_congr fun n hn => h n (Uri.octets_lt hn)

theorem encodeGroup_typescript (multipartGroupID : String) :
    TypeScript.encodeGroup multipartGroupID = Rust.encodeGroup multipartGroupID := by
  have hall : ∀ n < 256, (Uri.encodeOctet keptInComponent n).flatMap TypeScript.escapeStrictly
      = Uri.encodeOctet isUnreserved n := by decide +kernel
  simp only [TypeScript.encodeGroup, Rust.encodeGroup, encodeURIComponent,
    String.toList_ofList, Uri.encode]
  exact congrArg String.ofList (flatMap_encode hall multipartGroupID.toList)

theorem encodeGroup_go (multipartGroupID : String) :
    Go.encodeGroup multipartGroupID = Rust.encodeGroup multipartGroupID := by
  have hall : ∀ n < 256, (Go.queryEscapeOctet n).flatMap Go.plusToSpace =
      Uri.encodeOctet isUnreserved n := by
    decide +kernel
  exact congrArg String.ofList (flatMap_encode hall multipartGroupID.toList)

theorem stagingKey_typescript (transferID : String) (r : MultipartCoordinates)
    (attemptID : String) :
    TypeScript.stagingKey transferID r attemptID = Rust.stagingKey transferID r attemptID := by
  simp only [TypeScript.stagingKey, TypeScript.stagingBelow, encodeGroup_typescript]
  rfl

theorem stagingBelow_typescript (transferID : String) (r : MultipartCoordinates) :
    TypeScript.stagingBelow transferID r = Rust.multipartRecoveryPrefix transferID r := by
  simp only [TypeScript.stagingBelow, encodeGroup_typescript]
  rfl

theorem stagingKey_go (transferID : String) (r : MultipartCoordinates) (attemptID : String) :
    Go.stagingKey transferID r attemptID = Rust.stagingKey transferID r attemptID := by
  simp only [Go.stagingKey, Go.stagingBelow, encodeGroup_go]
  rfl

theorem stagingBelow_go (transferID : String) (r : MultipartCoordinates) :
    Go.stagingBelow transferID r = Rust.multipartRecoveryPrefix transferID r := by
  simp only [Go.stagingBelow, encodeGroup_go]
  rfl

theorem split_last {α : Type*} {c : α} {left left' right right' : List α}
    (h : left ++ c :: right = left' ++ c :: right')
    (hright : c ∉ right) (hright' : c ∉ right') : left = left' ∧ right = right' := by
  rcases List.append_eq_append_iff.mp h with ⟨rest, rfl, hrest⟩ | ⟨rest, rfl, hrest⟩
  · cases rest with
    | nil => simpa using hrest
    | cons _ rest =>
      obtain ⟨rfl, rfl⟩ := List.cons.inj hrest
      exact absurd (List.mem_append_right rest List.mem_cons_self) hright
  · cases rest with
    | nil => simpa [eq_comm] using hrest
    | cons _ rest =>
      obtain ⟨rfl, rfl⟩ := List.cons.inj hrest
      exact absurd (List.mem_append_right rest List.mem_cons_self) hright'

theorem notMem_repr_nat (n : ℕ) : '/' ∉ n.repr.toList := by
  intro h
  rw [Nat.repr, String.toList_ofList] at h
  exact absurd (Nat.isDigit_of_mem_toDigits (by decide) (by decide) h) (by decide)

theorem notMem_toString (n : ℤ) : '/' ∉ (toString n).toList := by
  cases n with
  | ofNat n => exact notMem_repr_nat n
  | negSucc n =>
    change '/' ∉ ("-" ++ (n + 1).repr).toList
    rw [String.toList_append, List.mem_append]
    rintro (h | h)
    · exact absurd h (by decide)
    · exact notMem_repr_nat (n + 1) h

theorem notMem_encodeGroup (multipartGroupID : String) :
    '/' ∉ (Rust.encodeGroup multipartGroupID).toList := by
  rw [Rust.encodeGroup, String.toList_ofList]
  refine Uri.notMem_encode (by decide) (by decide) ?_ multipartGroupID.toList
  intro n hn hslash
  have hall : ∀ n < 128, isUnreserved n = true → Char.ofNat n ≠ '/' := by decide
  exact hall n (keeps_unreserved.ascii n hn) hn hslash

theorem encodeGroup_injective {left right : String}
    (h : Rust.encodeGroup left = Rust.encodeGroup right) :
    left = right := by
  have htext := congrArg String.toList h
  simp only [Rust.encodeGroup, String.toList_ofList] at htext
  exact String.toList_injective (Uri.encode_injective keeps_unreserved htext)

theorem stagingKey_toList (transferID : String) (r : MultipartCoordinates) (attemptID : String) :
    (Rust.stagingKey transferID r attemptID).toList
      = ((((r.finalObjectKey.toList ++ ".beam-recovery".toList) ++ '/' :: transferID.toList)
        ++ '/' :: (Rust.encodeGroup r.multipartGroupID).toList) ++ '/' ::
          (toString r.partNumber).toList)
        ++ '/' :: attemptID.toList := by
  simp [Rust.stagingKey, Rust.multipartRecoveryPrefix, String.toList_append]

theorem stagingKey_injective {transferID transferID' : String} {r r' : MultipartCoordinates}
    {attemptID attemptID' : String} (htransfer : '/' ∉ transferID.toList)
    (htransfer' : '/' ∉ transferID'.toList)
    (hattempt : '/' ∉ attemptID.toList) (hattempt' : '/' ∉ attemptID'.toList)
    (h : Rust.stagingKey transferID r attemptID = Rust.stagingKey transferID' r' attemptID') :
    (r.finalObjectKey, transferID, r.multipartGroupID, r.partNumber, attemptID)
      = (r'.finalObjectKey, transferID', r'.multipartGroupID, r'.partNumber, attemptID') := by
  have hkey := congrArg String.toList h
  rw [stagingKey_toList, stagingKey_toList] at hkey
  obtain ⟨hkey, hattempts⟩ := split_last hkey hattempt hattempt'
  obtain ⟨hkey, hparts⟩ := split_last hkey (notMem_toString _) (notMem_toString _)
  obtain ⟨hkey, hgroups⟩ := split_last hkey (notMem_encodeGroup _) (notMem_encodeGroup _)
  obtain ⟨hkey, htransfers⟩ := split_last hkey htransfer htransfer'
  have hparts : r.partNumber = r'.partNumber := Int.repr_injective (String.toList_injective hparts)
  have hgroups := encodeGroup_injective (String.toList_injective hgroups)
  have hkeys := String.toList_injective (List.append_cancel_right hkey)
  rw [hkeys, String.toList_injective htransfers, hgroups, hparts, String.toList_injective hattempts]

theorem decode_component (text : String) (rest : List Char) :
    Uri.decodeOctets ((encodeURIComponent text).toList ++ rest) = Uri.octets text.toList ++
      Uri.decodeOctets rest := by
  rw [encodeURIComponent, String.toList_ofList, Uri.decodeOctets_encode keeps_component]

theorem octets_path (bucket objectKey : String) :
    Uri.octets (bucket ++ "/" ++ objectKey).toList
      = Uri.octets bucket.toList ++ (Uri.octets ['/'] ++ Uri.octets objectKey.toList) := by
  simp only [String.toList_append, Uri.octets_append, List.append_assoc]
  rfl

theorem decode_slash (rest : List Char) :
    Uri.decodeOctets ("/".toList ++ rest) = Uri.octets ['/'] ++ Uri.decodeOctets rest :=
  Uri.decodeOctets_cons (by decide) rest

theorem decode_copySourceOf (bucket objectKey : String) :
    Uri.decodeOctets (copySourceOf bucket objectKey).toList =
      Uri.octets (bucket ++ "/" ++ objectKey).toList := by
  have hsegments := Uri.decodeOctets_intercalate keeps_component (show '/' ≠ '%' by decide)
    (objectKey.toList.splitOn '/') []
  rw [List.intercalate_splitOn, List.append_nil] at hsegments
  rw [copySourceOf, String.toList_append, String.toList_append, List.append_assoc, decode_component,
    octets_path,
    decode_slash, String.toList_ofList, hsegments]
  simp [Uri.decodeOctets]

theorem decode_quotePath (bucket objectKey : String) :
    Uri.decodeOctets (Python.quotePath (bucket ++ "/" ++ objectKey)).toList
      = Uri.octets (bucket ++ "/" ++ objectKey).toList := by
  rw [Python.quotePath, String.toList_ofList, Uri.decodeOctets_encode_self keeps_path]

theorem decode_escapeS3Key (bucket objectKey : String) :
    Uri.decodeOctets (Go.pathEscape bucket ++ "/" ++ Go.escapeS3Key objectKey).toList
      = Uri.octets (bucket ++ "/" ++ objectKey).toList := by
  have hkey := Uri.decodeOctets_encode_self keeps_path objectKey.toList
  rw [String.toList_append, String.toList_append, List.append_assoc, Go.pathEscape,
    String.toList_ofList,
    Uri.decodeOctets_encode keeps_segment, octets_path, decode_slash, Go.escapeS3Key,
      String.toList_ofList, hkey]

end Beam.Signing
