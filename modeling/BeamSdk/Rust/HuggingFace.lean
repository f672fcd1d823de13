import Mathlib.Algebra.Order.Floor.Div
import Mathlib.Data.List.Sort
import BeamSdk.Library.OrderedMap
import BeamSdk.Library.Result

/-! The upload plan that the Rust SDK reads out of the Hub's answer to an LFS batch, and the URL of
each part in it. -/

namespace Beam.Rust.HuggingFace

/-- What a JSON text says. The members of an object come in the order in which the map has them. -/
inductive Value
  | null
  | bool (value : Bool)
  | unsigned (value : ℕ)
  -- any other number, as it is written
  | number (value : String)
  | string (value : String)
  | array (items : List Value)
  | object (members : List (String × Value))

namespace Value

def get : Value → String → Option Value
  | .object members, key => OrderedMap.get members key
  | _, _ => none

def asStr : Value → Option String
  | .string value => some value
  | _ => none

def asU64 : Value → Option ℕ
  | .unsigned value => some value
  | _ => none

def asArray : Value → Option (List Value)
  | .array items => some items
  | _ => none

def asObject : Value → Option (List (String × Value))
  | .object members => some members
  | _ => none

end Value

def parseDigits (max : ℕ) (digits : List Char) : Option ℕ :=
  if digits.isEmpty then none
  else if digits.all Char.isDigit then
    let value := digits.foldl (fun value digit => 10 * value + (digit.toNat - 48)) 0
    if value ≤ max then some value else none
  else none

/-- `str::parse` for the unsigned integers up to a bound. -/
def parse (max : ℕ) (text : String) : Option ℕ :=
  parseDigits max (match text.toList with
    | '+' :: digits => digits
    | digits => digits)

def maxU32 : ℕ := 2 ^ 32 - 1

def maxU64 : ℕ := 2 ^ 64 - 1

structure HuggingFaceConfig where
  repoType : String
  repoId : String
  revision : String
  path : String

def HuggingFaceConfig.describe (config : HuggingFaceConfig) : String :=
  s!"{config.repoType} {config.repoId}@{config.revision}/{config.path}"

structure HuggingFaceUploadPlan where
  oid : String
  size : ℕ
  uploadHref : Option String
  chunkSize : Option ℕ
  partUrls : List String
  verifyHref : Option String
  deriving DecidableEq

structure Upload where
  href : String
  header : Option (List (String × Value))

/-- The object of the answer with its oid, and what is to be uploaded of it. Without actions the
Hub has it already. -/
def batchObject (config : HuggingFaceConfig) (payload : Value) :
    Except String (Value × String × Option Upload) := do
  let malformed := s!"Hugging Face LFS batch returned a malformed response for {config.describe}"
  let some object := ((payload.get "objects").bind Value.asArray).bind List.head? | throw malformed
  if let some error := object.get "error" then
    let message := ((error.get "message").bind Value.asStr).getD "unknown error"
    throw s!"Hugging Face LFS batch rejected {config.describe}: {message}"
  let some oid := (object.get "oid").bind Value.asStr | throw malformed
  match (object.get "actions").bind fun actions => actions.get "upload" with
  | none => return (object, oid, none)
  | some upload =>
    let some href := (upload.get "href").bind Value.asStr
      | throw s!"Hugging Face LFS batch returned no upload href for {config.describe}"
    return (object, oid, some ⟨href, (upload.get "header").bind Value.asObject⟩)

def chunkSize (display : Value → String) (config : HuggingFaceConfig)
    (header : Option (List (String × Value))) :
    Except String (Option ℕ) :=
  match header.bind fun header => OrderedMap.get header "chunk_size" with
  | some raw =>
    match ((raw.asStr.bind (parse maxU64)).or raw.asU64).filter (0 < ·) with
    | some parsed => .ok (some parsed)
    | none => .error
        s!"Hugging Face LFS batch returned a malformed chunk_size '{display raw}' for {config.describe}"
  | none => .ok none

def number (entry : String × Value) : Option ℕ := parse maxU32 entry.1

def part (entry : String × Value) : Option (ℕ × String) :=
    do return (← number entry, ← entry.2.asStr)

def parts (header : Option (List (String × Value))) : List (ℕ × String) :=
    (header.getD []).filterMap part

def sortedParts (header : Option (List (String × Value))) : List (ℕ × String) :=
  (parts header).insertionSort fun part part' => part.1 ≤ part'.1

def partUrls (header : Option (List (String × Value))) : List String :=
    (sortedParts header).map Prod.snd

def countParts (config : HuggingFaceConfig) (chunkSize : Option ℕ) (count size : ℕ) :
    Except String Unit :=
  match chunkSize with
  | none => .ok ()
  | some chunkSize =>
    let expected := size ⌈/⌉ chunkSize
    if count ≠ expected then
      .error (s!"Hugging Face returned {count} part URLs for {config.describe}, expected {expected}" ++
        s!" at chunk_size {chunkSize}")
    else .ok ()

def verifyHref (object : Value) : Option String :=
  (((object.get "actions").bind fun actions => actions.get "verify").bind fun verify =>
    verify.get "href").bind Value.asStr

def uploadPlanFromBatch (display : Value → String) (config : HuggingFaceConfig) (payload : Value)
    (size : ℕ) :
    Except String HuggingFaceUploadPlan := do
  match ← batchObject config payload with
  | (_, oid, none) => return ⟨oid, size, none, none, [], none⟩
  | (object, oid, some upload) =>
    let chunkSize ← chunkSize display config upload.header
    let partUrls := partUrls upload.header
    countParts config chunkSize partUrls.length size
    return ⟨oid, size, some upload.href, chunkSize, partUrls, verifyHref object⟩

def destUrl (plan : HuggingFaceUploadPlan) (sourceChunkIndex : ℕ) : Option String :=
  match plan.chunkSize with
  | none => plan.uploadHref
  | some _ => plan.partUrls[sourceChunkIndex]?

def numbers (header : Option (List (String × Value))) : List ℕ := (header.getD []).filterMap number

def Numbered (header : Option (List (String × Value))) (count : ℕ) : Prop :=
    (numbers header).Perm (List.range' 1 count)

def Issued (header : Option (List (String × Value))) (number : ℕ) (url : String) : Prop :=
  ∃ key, (key, .string url) ∈ header.getD [] ∧ parse maxU32 key = some number

/-- An answer is taken only with the parts that the size needs, one URL for each and the right one.
-/
def PartsMatch (display : Value → String) (config : HuggingFaceConfig) (payload : Value)
    (size : ℕ) : Prop :=
  ∀ plan chunk, uploadPlanFromBatch display config payload size = .ok plan →
    plan.chunkSize = some chunk →
    ∀ object oid upload, batchObject config payload = .ok (object, oid, some upload) →
      Numbered upload.header (size ⌈/⌉ chunk) ∧ plan.partUrls.length = size ⌈/⌉ chunk ∧
        (∀ i (hi : i < plan.partUrls.length), Issued upload.header (i + 1) plan.partUrls[i]) ∧
        ∀ n < size ⌈/⌉ chunk, ∃ url, destUrl plan n = some url ∧ Issued upload.header (n + 1) url

def NumberedOrRefused (display : Value → String) (config : HuggingFaceConfig) (payload : Value)
    (size : ℕ) : Prop :=
  ∀ object oid upload chunk, batchObject config payload = .ok (object, oid, some upload) →
    chunkSize display config upload.header = .ok (some chunk) →
    Numbered upload.header (size ⌈/⌉ chunk) ∨ (partUrls upload.header).length ≠ size ⌈/⌉ chunk

variable {display : Value → String} {config : HuggingFaceConfig} {payload : Value} {size : ℕ}

theorem accepted {plan : HuggingFaceUploadPlan} {chunk : ℕ}
    (h : uploadPlanFromBatch display config payload size = .ok plan)
    (hchunk : plan.chunkSize = some chunk) :
    ∃ object oid upload, batchObject config payload = .ok (object, oid, some upload) ∧
      chunkSize display config upload.header = .ok (some chunk) ∧
        plan.partUrls = partUrls upload.header ∧
      plan.partUrls.length = size ⌈/⌉ chunk := by
  obtain ⟨⟨object, oid, upload⟩, hobject, h⟩ := bind_eq_ok.mp h
  cases upload with
  | none =>
    cases h
    cases hchunk
  | some upload =>
    obtain ⟨chunk', hsize, h⟩ := bind_eq_ok.mp h
    obtain ⟨_, hcount, h⟩ := bind_eq_ok.mp h
    cases h
    obtain rfl : chunk' = some chunk := hchunk
    refine ⟨object, oid, upload, hobject, hsize, rfl, ?_⟩
    unfold countParts at hcount
    simp only at hcount
    split at hcount
    · cases hcount
    · rename_i heq
      exact Classical.not_not.mp heq

theorem taken {object : Value} {oid : String} {upload : Upload} {chunk : ℕ}
    (hobject : batchObject config payload = .ok (object, oid, some upload))
    (hsize : chunkSize display config upload.header = .ok (some chunk))
    (hcount : (partUrls upload.header).length = size ⌈/⌉ chunk) :
    uploadPlanFromBatch display config payload size =
      .ok ⟨oid, size, some upload.href, some chunk, partUrls upload.header, verifyHref object⟩ := by
  have hcheck : countParts config (some chunk) (partUrls upload.header).length size = .ok () := by
    unfold countParts
    rw [hcount]
    exact if_neg (not_not_intro rfl)
  unfold uploadPlanFromBatch
  rw [hobject]
  refine bind_eq_ok.mpr ⟨_, rfl, bind_eq_ok.mpr ⟨_, hsize, bind_eq_ok.mpr ⟨_, hcheck, rfl⟩⟩⟩

theorem part_eq_some {entry : String × Value} {n : ℕ} {url : String} :
    part entry = some (n, url) ↔ number entry = some n ∧ entry.2 = .string url := by
  obtain ⟨key, value⟩ := entry
  constructor
  · intro h
    obtain ⟨number', hnumber, h⟩ := Option.bind_eq_some_iff.mp h
    obtain ⟨url', hurl, h⟩ := Option.bind_eq_some_iff.mp h
    cases h
    cases value with
    | string text =>
      cases hurl
      exact ⟨hnumber, rfl⟩
    | _ => cases hurl
  · rintro ⟨hnumber, hurl⟩
    simp only at hurl
    subst hurl
    simp [part, hnumber, Value.asStr]

theorem numbers_sublist (header : List (String × Value)) :
    ((parts (some header)).map Prod.fst).Sublist (numbers (some header)) := by
  unfold parts numbers
  rw [Option.getD_some]
  induction header with
  | nil => exact List.Sublist.refl _
  | cons entry header ih =>
    cases hpart : part entry with
    | none =>
      rw [List.filterMap_cons_none hpart]
      cases hnumber : number entry with
      | none => rwa [List.filterMap_cons_none hnumber]
      | some n =>
        rw [List.filterMap_cons_some hnumber]
        exact ih.cons n
    | some numbered =>
      obtain ⟨n, url⟩ := numbered
      rw [List.filterMap_cons_some hpart, List.filterMap_cons_some (part_eq_some.mp hpart).1]
      exact ih.cons_cons n

theorem issued_of_mem {header : Option (List (String × Value))} {part : ℕ × String}
    (h : part ∈ parts header) :
    Issued header part.1 part.2 := by
  obtain ⟨⟨key, value⟩, hmem, hpart⟩ := List.mem_filterMap.mp h
  obtain ⟨hnumber, hurl⟩ := part_eq_some.mp hpart
  simp only at hurl
  exact ⟨key, hurl ▸ hmem, hnumber⟩

/-- With as many URLs as there are part keys, which are the numbers from 1 on, the URLs are in
their places. -/
theorem partUrls_issued {header : Option (List (String × Value))} {count : ℕ}
    (h : Numbered header count)
    (hcount : (partUrls header).length = count) (i : ℕ) (hi : i < (partUrls header).length) :
    Issued header (i + 1) (partUrls header)[i] := by
  have hperm : (sortedParts header).Perm (parts header) := List.perm_insertionSort _ _
  have hlength : (parts header).length = count := by
    rw [← hcount, partUrls, List.length_map, hperm.length_eq]
  have hnumbers : (parts header).map Prod.fst = numbers header := by
    cases header with
    | none => rfl
    | some header =>
      refine (numbers_sublist header).eq_of_length ?_
      rw [List.length_map, hlength, h.length_eq, List.length_range']
  have hsorted : (sortedParts header).map Prod.fst = List.range' 1 count := by
    have htotal : Std.Total fun part part' : ℕ × String => part.1 ≤ part'.1 :=
      ⟨fun part part' => Nat.le_total _ _⟩
    have htrans : IsTrans (ℕ × String) fun part part' => part.1 ≤ part'.1 :=
      ⟨fun _ _ _ => Nat.le_trans⟩
    refine List.Perm.eq_of_pairwise' (r := (· ≤ ·)) ?_ List.pairwise_le_range' ?_
    · exact List.pairwise_map.mpr (List.pairwise_insertionSort _ _)
    · exact (hperm.map Prod.fst).trans (hnumbers ▸ h)
  have hi' : i < (sortedParts header).length := by rwa [partUrls, List.length_map] at hi
  have hnumber : (sortedParts header)[i].1 = i + 1 := by
    have hget : ((sortedParts header).map Prod.fst)[i]? = some (sortedParts header)[i].1 := by
      rw [List.getElem?_map, List.getElem?_eq_getElem hi']
      rfl
    rw [hsorted, List.getElem?_range' (by rwa [hcount] at hi)] at hget
    have heq := Option.some.inj hget
    omega
  have hissued := issued_of_mem (hperm.mem_iff.mp (List.getElem_mem hi'))
  rw [hnumber] at hissued
  simpa only [partUrls, List.getElem_map] using hissued

/-- An answer that is taken has every part in its place exactly where its part keys are the numbers
from 1 on. -/
theorem partsMatch_iff : PartsMatch display config payload size ↔
    NumberedOrRefused display config payload size := by
  constructor
  · intro h object oid upload chunk hobject hsize
    refine Classical.or_iff_not_imp_right.mpr fun hcount => ?_
    have htaken := taken hobject hsize (Classical.not_not.mp hcount)
    exact (h _ chunk htaken rfl object oid upload hobject).1
  · intro h plan chunk haccepted hchunk object oid upload hobject
    obtain ⟨object', oid', upload', hobject', hsize, hurls, hcount⟩ := accepted haccepted hchunk
    cases hobject.symm.trans hobject'
    have hnumbered :=
      (h object oid upload chunk hobject hsize).resolve_right (fun hne => hne (hurls ▸ hcount))
    have hissued : ∀ i (hi : i < plan.partUrls.length),
        Issued upload.header (i + 1) plan.partUrls[i] := by
      simp only [hurls] at hcount ⊢
      exact partUrls_issued hnumbered hcount
    refine ⟨hnumbered, hcount, hissued, fun n hn => ⟨plan.partUrls[n], ?_, hissued n (hcount ▸ hn)⟩⟩
    unfold destUrl
    rw [hchunk]
    exact List.getElem?_eq_getElem _

/-- An answer with a chunk size of 10 and these part keys, for an object of 20 bytes. -/
def answer (keys : List (String × String)) : Value :=
  .object [("objects", .array [.object [("actions", .object [("upload", .object [
    ("header", .object (("chunk_size", .string "10") :: keys.map fun (key, url) =>
      (key, .string url))),
    ("href", .string "complete")])]), ("oid", .string "oid")]])]

/-- The parts 2 and 3, and two spellings of part 1, are taken as the parts 1 and 2. -/
theorem shifted_accepted :
    (∃ plan, uploadPlanFromBatch (fun _ => "") ⟨"model", "owner/repo", "main", "file"⟩
        (answer [("2", "second"), ("3", "third")]) 20 = .ok plan ∧ plan.chunkSize = some 10 ∧
          destUrl plan 0 = some "second") ∧
      ∃ plan, uploadPlanFromBatch (fun _ => "") ⟨"model", "owner/repo", "main", "file"⟩
        (answer [("01", "first"), ("1", "again")]) 20 = .ok plan ∧ plan.chunkSize = some 10 ∧
          destUrl plan 1 = some "again" :=
  ⟨⟨_, rfl, rfl, rfl⟩, ⟨_, rfl, rfl, rfl⟩⟩

end Beam.Rust.HuggingFace
