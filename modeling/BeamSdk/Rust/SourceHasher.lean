import BeamSdk.Library.Hex
import BeamSdk.Library.Md5
import BeamSdk.Library.Windows
import BeamSdk.Rust.HuggingFace

/-! What the Rust SDK computes of a source that it reads once for the Hub: the digest of the whole
body and one of every part. -/

namespace Beam.Rust
open Windows
variable (sha256 md5 : Incremental UInt8 (List UInt8))

def hex (bytes : List UInt8) : String :=
    String.ofList (bytes.flatMap fun byte => Hex.digits 2 byte.toNat)

structure SourceHasher where
  whole : Option sha256.State
  partSize : Option ℕ
  part : md5.State
  partBytes : ℕ
  partEtags : List String

namespace SourceHasher
variable {sha256 md5}

def new (partSize : Option ℕ) (wholeSha256 : Bool) : SourceHasher sha256 md5 :=
  ⟨if wholeSha256 then some sha256.init else none, partSize, md5.init, 0, []⟩

def parts (partSize : ℕ) : ℕ → SourceHasher sha256 md5 → List UInt8 →
    Option (SourceHasher sha256 md5)
  | 0, _, _ => none
  | turns + 1, h, chunk =>
    if chunk.isEmpty then some h
    else
      let room := partSize - h.partBytes
      if chunk.length < room then
        some { h with part := md5.update h.part chunk, partBytes := h.partBytes + chunk.length }
      else
        parts partSize turns
          { h with
            part := md5.init
            partBytes := 0
            partEtags := h.partEtags ++ [hex (md5.finalize (md5.update h.part (chunk.take room)))] }
          (chunk.drop room)

/-- `none`: the loop does not end. Every turn but the last takes a byte where parts have any. -/
def update (h : SourceHasher sha256 md5) (chunk : List UInt8) : Option (SourceHasher sha256 md5) :=
  let h := { h with whole := h.whole.map fun whole => sha256.update whole chunk }
  match h.partSize with
  | none => some h
  | some partSize => parts partSize (chunk.length + 1) h chunk

def finish (h : SourceHasher sha256 md5) : Option String × List String :=
  (h.whole.map fun whole => hex (sha256.finalize whole),
    if h.partSize.isSome ∧ 0 < h.partBytes then h.partEtags ++ [hex (md5.finalize h.part)]
      else h.partEtags)

/-- The loop of `hash_source`, over the chunks in which the body arrives. -/
def hashSource (partSize : Option ℕ) (wholeSha256 : Bool) (chunks : List (List UInt8)) :
    Option (SourceHasher sha256 md5) :=
  chunks.foldlM update (new partSize wholeSha256)

def countEtags (config : HuggingFace.HuggingFaceConfig) (etags partUrls : List String) :
    Except String Unit :=
  if etags.length ≠ partUrls.length then
    .error s!"computed {etags.length} part ETags for {config.describe}, expected {partUrls.length}"
  else .ok ()

/-- What is known after the bytes of `body`, of the parts. -/
structure Parted (size : ℕ) (body : List UInt8) (h : SourceHasher sha256 md5) : Prop where
  part : h.part = md5.update md5.init (rest size body)
  partBytes : h.partBytes = (rest size body).length
  partEtags : h.partEtags = (full size body).map fun part => hex (md5.digest part)

variable {size : ℕ} {body : List UInt8} {h : SourceHasher sha256 md5}

theorem parts_parted (hsize : 0 < size) {turns : ℕ} {chunk : List UInt8}
    (hturns : chunk.length < turns)
    (hparted : Parted size body h) :
    ∃ h', parts size turns h chunk = some h' ∧ Parted size (body ++ chunk) h' ∧ h'.whole = h.whole ∧
      h'.partSize = h.partSize := by
  induction turns generalizing h chunk body with
  | zero => exact absurd hturns (Nat.not_lt_zero _)
  | succ turns ih =>
    have hroom : h.partBytes < size := by
      rw [hparted.partBytes, rest_length]
      exact Nat.mod_lt _ hsize
    unfold parts
    split
    · rename_i hempty
      obtain rfl := List.isEmpty_iff.mp hempty
      exact ⟨h, rfl, (List.append_nil body).symm ▸ hparted, rfl, rfl⟩
    · simp only
      split
      · rename_i hshort
        have hopen : (rest size body).length + chunk.length < size := by
          rw [← hparted.partBytes]
          omega
        obtain ⟨hfull, hrest⟩ := append_short hopen
        refine ⟨_, rfl, ⟨?_, ?_, ?_⟩, rfl, rfl⟩
        · rw [hrest, ← md5.update_append, ← hparted.part]
        · rw [hrest, List.length_append, ← hparted.partBytes]
        · rw [hfull, ← hparted.partEtags]
      · rename_i hlong
        have hlength : (chunk.take (size - h.partBytes)).length = size - h.partBytes :=
          List.length_take_of_le (Nat.le_of_not_lt hlong)
        have hfills : (rest size body).length +
            (chunk.take (size - h.partBytes)).length = size := by
          rw [← hparted.partBytes, hlength]
          omega
        obtain ⟨hfull, hrest⟩ := append_full hsize hfills
        have hnext : Parted size (body ++ chunk.take (size - h.partBytes))
            { h with
              part := md5.init
              partBytes := 0
              partEtags :=
                h.partEtags ++
                  [hex (md5.finalize (md5.update h.part (chunk.take (size - h.partBytes))))] } := by
          refine ⟨?_, ?_, ?_⟩
          · rw [hrest, md5.update_nil]
          · rw [hrest, List.length_nil]
          · rw [hfull, List.map_append, ← hparted.partEtags, hparted.part, md5.update_append]
            rfl
        have hless : (chunk.drop (size - h.partBytes)).length < turns := by
          rw [List.length_drop]
          omega
        obtain ⟨h', hparts, hparted', hwhole, hpartSize⟩ := ih hless hnext
        refine ⟨h', hparts, ?_, hwhole, hpartSize⟩
        rwa [List.append_assoc, List.take_append_drop] at hparted'

structure Hashed (size : ℕ) (wholeSha256 : Bool) (body : List UInt8)
    (h : SourceHasher sha256 md5) : Prop where
  whole : h.whole = if wholeSha256 then some (sha256.update sha256.init body) else none
  partSize : h.partSize = some size
  parted : Parted size body h

variable {wholeSha256 : Bool}

theorem new_hashed : Hashed size wholeSha256 []
    (new (some size) wholeSha256 : SourceHasher sha256 md5) := by
  have hrest : rest size ([] : List UInt8) = [] := List.drop_nil
  refine ⟨?_, rfl, ?_, ?_, ?_⟩
  · rw [sha256.update_nil]
    rfl
  · rw [hrest, md5.update_nil]
    rfl
  · rw [hrest]
    rfl
  · simp [full, new]

theorem update_hashed (hsize : 0 < size)
    (chunk : List UInt8) (hhashed : Hashed size wholeSha256 body h) :
    ∃ h', h.update chunk = some h' ∧ Hashed size wholeSha256 (body ++ chunk) h' := by
  have hparted :
      Parted size body { h with whole := h.whole.map fun whole => sha256.update whole chunk } :=
    ⟨hhashed.parted.part, hhashed.parted.partBytes, hhashed.parted.partEtags⟩
  obtain ⟨h', hparts, hparted', hwhole, hpartSize⟩ :=
    parts_parted hsize (Nat.lt_succ_self chunk.length) hparted
  refine ⟨h', ?_, ?_, hpartSize.trans hhashed.partSize, hparted'⟩
  · unfold update
    simp only [hhashed.partSize] at hparts ⊢
    exact hparts
  · rw [hwhole]
    simp only [hhashed.whole]
    cases wholeSha256 with
    | false => rfl
    | true => exact congrArg some (sha256.update_append _ _ _)

theorem updates_hashed (hsize : 0 < size) (chunks : List (List UInt8))
    (hhashed : Hashed size wholeSha256 body h) :
    ∃ h', chunks.foldlM update h = some h' ∧
      Hashed size wholeSha256 (body ++ chunks.flatten) h' := by
  induction chunks generalizing h body with
  | nil =>
    refine ⟨h, rfl, ?_⟩
    rwa [List.flatten_nil, List.append_nil]
  | cons chunk chunks ih =>
    obtain ⟨next, hupdate, hnext⟩ := update_hashed hsize chunk hhashed
    obtain ⟨h', hrest, hhashed'⟩ := ih hnext
    refine ⟨h', ?_, ?_⟩
    · rw [List.foldlM_cons, hupdate]
      exact hrest
    · rwa [List.flatten_cons, ← List.append_assoc]

theorem finish_eq (hsize : 0 < size) (hhashed : Hashed size wholeSha256 body h) :
    h.finish = (if wholeSha256 then some (hex (sha256.digest body)) else none,
      (windows size body).map fun part => hex (md5.digest part)) := by
  unfold finish
  refine Prod.ext ?_ ?_
  · simp only [hhashed.whole]
    cases wholeSha256 with
    | false => rfl
    | true => rfl
  · simp only [hhashed.partSize, Option.isSome_some, true_and]
    rw [windows_eq hsize, List.map_append, ← hhashed.parted.partEtags, hhashed.parted.partBytes]
    split
    · rw [hhashed.parted.part]
      rfl
    · rw [List.map_nil, List.append_nil]

/-- However a body comes, its digest is that of the whole of it, its ETags are those of its
consecutive parts, every byte is in one, and an upload plan for as many bytes in such parts asks
for as many. -/
theorem source_hashed (hsize : 0 < size) (wholeSha256 : Bool) (chunks : List (List UInt8)) :
    ∃ h : SourceHasher sha256 md5, hashSource (some size) wholeSha256 chunks = some h ∧
      h.finish = (if wholeSha256 then some (hex (sha256.digest chunks.flatten)) else none,
        (windows size chunks.flatten).map fun part => hex (md5.digest part)) ∧
      h.finish.2.length = chunks.flatten.length ⌈/⌉ size ∧
      h.partEtags.length * size + h.partBytes = chunks.flatten.length ∧
      ∀ display config payload plan,
        HuggingFace.uploadPlanFromBatch display config payload chunks.flatten.length = .ok plan →
        plan.chunkSize = some size → countEtags config h.finish.2 plan.partUrls = .ok () := by
  have hnew : Hashed size wholeSha256 [] (new (some size) wholeSha256 : SourceHasher sha256 md5) :=
    new_hashed
  obtain ⟨h, hhash, hhashed⟩ := updates_hashed hsize chunks hnew
  rw [List.nil_append] at hhashed
  have hfinish := finish_eq hsize hhashed
  have hcount : h.finish.2.length = chunks.flatten.length ⌈/⌉ size := by
    rw [hfinish, List.length_map, windows_length]
  refine ⟨h, hhash, hfinish, hcount, ?_, fun display config payload plan hplan hchunk => ?_⟩
  · rw [hhashed.parted.partEtags, hhashed.parted.partBytes, List.length_map, full_length,
      rest_length]
    exact Nat.div_add_mod' _ _
  · obtain ⟨_, _, _, _, _, _, hparts⟩ := HuggingFace.accepted hplan hchunk
    unfold countEtags
    rw [hcount, hparts]
    exact if_neg (not_not_intro rfl)

/-- Five bytes in parts of two, in pieces that end before, on and after the boundaries. -/
theorem pieces_hashed :
    ∃ h : SourceHasher (Incremental.ofDigest Sha256.digest) (Incremental.ofDigest Md5.digest),
      hashSource (some 2) true [[1], [], [2, 3, 4], [5]] = some h ∧
        h.finish = (some "74f81fe167d99b4cb41d6d0ccda82278caee9f3e2f25d5e5a3936ff3dcec60d0",
          ["0cb988d042a7f28dd5fe2b55b3f5ac7a", "c58cea7ef6e89ca39f9401edb12d241d",
            "8bb6c17838643f9691cc6a4de6c51709"]) := by
  obtain ⟨h, hhash, hfinish, -⟩ := source_hashed (by decide : 0 < 2) true [[1], [], [2, 3, 4], [5]]
  exact ⟨h, hhash, hfinish.trans (by decide +kernel)⟩

end SourceHasher
end Beam.Rust
