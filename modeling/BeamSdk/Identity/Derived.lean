import BeamSdk.Library.Hex
import BeamSdk.Library.Sha256
import BeamSdk.Library.Trim
import BeamSdk.Library.Utf16

/-! The identities that the SDKs derive: a transfer's id and a lifecycle request's id from an
idempotency key, and the shard of a transfer id. A derivation without a key ends in a random id,
which is `none` here. -/

namespace Beam.Identity

def utf8 (text : String) : List UInt8 := text.toUTF8.data.toList

def hex (bytes : List UInt8) : List Char := bytes.flatMap fun byte => Hex.digits 2 byte.toNat

def trim (isSpace : Char → Bool) (text : String) : String :=
    String.ofList (Trim.trim isSpace text.toList)

def isBlank (c : Char) : Bool :=
  (9 ≤ c.toNat && c.toNat ≤ 13) || (0x2000 ≤ c.toNat && c.toNat ≤ 0x200a) ||
    [0x20, 0xa0, 0x1680, 0x2028, 0x2029, 0x202f, 0x205f, 0x3000].contains c.toNat

def fnv1a (units : List UInt32) : UInt32 :=
    units.foldl (fun hash unit => (hash ^^^ unit) * 16777619) 2166136261

def utf16 (text : String) : List UInt32 := (Utf16.encode text).map UInt16.toUInt32

def codePoints (text : String) : List UInt32 := text.toList.map Char.val

section Derivations
variable (sha256 : List UInt8 → List UInt8)

def stableUuidFromIdentity (identity : String) : String :=
  let bytes := (sha256 (utf8 identity)).take 16
  let bytes := (bytes.modify 6 fun byte => (byte &&& 0x0f) ||| 0x50).modify 8 fun byte =>
    (byte &&& 0x3f) ||| 0x80
  String.ofList (Hex.join [8, 4, 4, 4, 12] (hex bytes))

def derived (isSpace : Char → Bool) (label key : String) : Option String :=
  let key := trim isSpace key
  if key = "" then none else some (stableUuidFromIdentity sha256 (label ++ key))

namespace TypeScript

def isSpace (c : Char) : Bool := isBlank c || c.toNat = 0xfeff

def transferIdForIdempotencyKey (idempotencyKey : Option String) : Option String :=
  idempotencyKey.bind (derived sha256 isSpace "beam-transfer:")

def stableRequestId (identity : String) : String :=
    "idempotent-" ++ String.ofList (hex (sha256 (utf8 identity)))

/-- As `request` has it; the key is not trimmed. -/
def requestId (messageType idempotencyKey : String) : Option String :=
  if idempotencyKey = "" then none
    else some (stableRequestId sha256 (messageType ++ ":" ++ idempotencyKey))

def transferShardId (transferId : String) (shardCount : ℕ) : ℕ :=
    (fnv1a (utf16 transferId)).toNat % shardCount

end TypeScript

namespace Go

def isSpace (c : Char) : Bool := isBlank c || c.toNat = 0x85

def transferIDForIdempotencyKey (clientID key : String) : Option String :=
  derived sha256 isSpace ("beam-transfer:" ++ clientID ++ ":") key

def lifecycleRequestID (messageType idempotencyKey : String) : Option String :=
  derived sha256 isSpace ("beam:" ++ messageType ++ ":") idempotencyKey

/-- No shard where the count is a multiple of `2 ^ 32`: the division panics. -/
def transferShardID (transferID : String) (shardCount : ℕ) : Option ℕ :=
  if shardCount.toUInt32 = 0 then none
    else some (fnv1a (codePoints transferID) % shardCount.toUInt32).toNat

end Go

namespace Python

def isSpace (c : Char) : Bool := isBlank c || (0x1c ≤ c.toNat && c.toNat ≤ 0x1f) || c.toNat = 0x85

def transferIdForIdempotencyKey (idempotencyKey : Option String) : Option String :=
  idempotencyKey.bind (derived sha256 isSpace "beam-transfer:")

def lifecycleRequestId (messageType : String) (idempotencyKey : Option String) : Option String :=
  idempotencyKey.bind (derived sha256 isSpace ("beam:" ++ messageType ++ ":"))

def transferShardId (transferId : String) (shardCount : ℕ) : ℕ :=
    (fnv1a (codePoints transferId)).toNat % shardCount

end Python

namespace Rust

def isSpace (c : Char) : Bool := isBlank c || c.toNat = 0x85

def transferIdForIdempotencyKey (idempotencyKey : Option String) : Option String :=
  idempotencyKey.bind (derived sha256 isSpace "beam-transfer:")

def lifecycleRequestId (messageType : String) (idempotencyKey : Option String) : Option String :=
  idempotencyKey.bind (derived sha256 isSpace ("beam:" ++ messageType ++ ":"))

def transferShardId (transferId : String) (shardCount : ℕ) : ℕ :=
    (fnv1a (utf16 transferId)).toNat % max shardCount 1

end Rust

end Derivations

def disputed (c : Char) : Bool :=
    (0x1c ≤ c.toNat && c.toNat ≤ 0x1f) || c.toNat = 0x85 || c.toNat = 0xfeff

/-- Without the white space that all languages know, the key does not begin or end with a disputed
character. -/
structure Undisputed (key : String) : Prop where
  first : ∀ c ∈ (trim isBlank key).toList.head?, disputed c = false
  last : ∀ c ∈ (trim isBlank key).toList.getLast?, disputed c = false

theorem trim_eq_blank {isSpace : Char → Bool} (hblank : ∀ c, isBlank c = true → isSpace c = true)
    (hspace : ∀ c, isSpace c = true → isBlank c = true ∨ disputed c = true) {key : String}
    (hkey : Undisputed key) :
    trim isSpace key = trim isBlank key := by
  have hlist : (trim isBlank key).toList = Trim.trim isBlank key.toList := String.toList_ofList
  have hfirst := hkey.first
  have hlast := hkey.last
  rw [hlist] at hfirst hlast
  have hagree : ∀ c, disputed c = false → isSpace c = true → isBlank c = true := fun c hc hs =>
    (hspace c hs).resolve_right (by simp [hc])
  exact congrArg String.ofList (Trim.trim_eq_trim hblank (fun c hc => hagree c (hfirst c hc))
    fun c hc => hagree c (hlast c hc))

theorem trim_eq {key : String} (hkey : Undisputed key) :
    trim TypeScript.isSpace key = trim isBlank key
    ∧ trim Go.isSpace key = trim isBlank key ∧ trim Python.isSpace key = trim isBlank key
    ∧ trim Rust.isSpace key = trim isBlank key := by
  refine ⟨trim_eq_blank ?_ ?_ hkey, trim_eq_blank ?_ ?_ hkey, trim_eq_blank ?_ ?_ hkey,
    trim_eq_blank ?_ ?_ hkey⟩
  all_goals
    intro c
    simp only [TypeScript.isSpace, Go.isSpace, Python.isSpace, Rust.isSpace, disputed,
      Bool.or_eq_true]
    tauto

theorem derived_congr (sha256 : List UInt8 → List UInt8) {isSpace isSpace' : Char → Bool}
    {label key : String}
    (h : trim isSpace key = trim isSpace' key) : derived sha256 isSpace label key =
      derived sha256 isSpace' label key := by
  unfold derived
  rw [h]

theorem derived_eq_none {sha256 : List UInt8 → List UInt8} {isSpace : Char → Bool}
    {label key : String} :
    derived sha256 isSpace label key = none ↔ trim isSpace key = "" := by
  unfold derived
  simp only
  split <;> simp_all

theorem unit_toUInt32 {c : Char} (h : c.toNat < 0x10000) : c.toNat.toUInt16.toUInt32 = c.val := by
  apply UInt32.toNat_inj.mp
  rw [UInt16.toNat_toUInt32, Nat.toUInt16_eq, UInt16.toNat_ofNat', Nat.mod_eq_of_lt h]
  rfl

theorem utf16_eq_codePoints {text : String} (h : ∀ c ∈ text.toList, c.toNat < 0x10000) :
    utf16 text = codePoints text := by
  have hunits : ∀ c ∈ text.toList, (Utf16.encodeChar c).map UInt16.toUInt32 = [c.val] := by
    intro c hc
    rw [Utf16.encodeChar, if_pos (h c hc), List.map_singleton, unit_toUInt32 (h c hc)]
  unfold utf16 codePoints Utf16.encode
  rw [List.map_flatMap, List.flatMap_congr hunits, List.map_eq_flatMap]

theorem toNat_mod_toUInt32 (hash : UInt32) {n : ℕ} (hn : n < 2 ^ 32) :
    (hash % n.toUInt32).toNat = hash.toNat % n := by
  rw [UInt32.toNat_mod, Nat.toUInt32_eq, UInt32.toNat_ofNat', Nat.mod_eq_of_lt hn]

theorem toUInt32_ne_zero {n : ℕ} (hpos : 0 < n) (hn : n < 2 ^ 32) : n.toUInt32 ≠ 0 := by
  intro hzero
  have hnat := congrArg UInt32.toNat hzero
  rw [Nat.toUInt32_eq, UInt32.toNat_ofNat', Nat.mod_eq_of_lt hn] at hnat
  exact absurd hnat (Nat.pos_iff_ne_zero.mp hpos)

theorem shards_agree {transferId : String} (hid : ∀ c ∈ transferId.toList, c.toNat < 0x10000)
    {n : ℕ} (hpos : 0 < n)
    (hn : n < 2 ^ 32) : Go.transferShardID transferId n =
      some (TypeScript.transferShardId transferId n)
      ∧ Python.transferShardId transferId n = TypeScript.transferShardId transferId n
      ∧ Rust.transferShardId transferId n = TypeScript.transferShardId transferId n := by
  have hunits := utf16_eq_codePoints hid
  unfold Go.transferShardID Python.transferShardId Rust.transferShardId TypeScript.transferShardId
  rw [hunits, if_neg (toUInt32_ne_zero hpos hn), toNat_mod_toUInt32 _ hn, Nat.max_eq_left hpos]
  exact ⟨rfl, rfl, rfl⟩

theorem identities_agree (sha256 : List UInt8 → List UInt8) {key : String} (hkey : Undisputed key)
    {transferId : String} (hid : ∀ c ∈ transferId.toList, c.toNat < 0x10000) {shardCount : ℕ}
    (hpos : 0 < shardCount)
    (hcount : shardCount < 2 ^ 32) (clientID messageType : String) :
    (TypeScript.transferIdForIdempotencyKey sha256 (some key) =
      Python.transferIdForIdempotencyKey sha256 (some key)
      ∧ TypeScript.transferIdForIdempotencyKey sha256 (some key) =
        Rust.transferIdForIdempotencyKey sha256 (some key))
    ∧ (TypeScript.transferIdForIdempotencyKey sha256 (some key) = none
      ↔ Go.transferIDForIdempotencyKey sha256 clientID key = none)
    ∧ (Go.lifecycleRequestID sha256 messageType key =
      Python.lifecycleRequestId sha256 messageType (some key)
      ∧ Go.lifecycleRequestID sha256 messageType key =
        Rust.lifecycleRequestId sha256 messageType (some key)
      ∧ TypeScript.requestId sha256 messageType key = if key = "" then none
        else some
          ("idempotent-" ++ String.ofList (hex (sha256 (utf8 (messageType ++ ":" ++ key))))))
    ∧ Go.transferShardID transferId shardCount =
      some (TypeScript.transferShardId transferId shardCount)
    ∧ Python.transferShardId transferId shardCount =
      TypeScript.transferShardId transferId shardCount
    ∧ Rust.transferShardId transferId shardCount =
      TypeScript.transferShardId transferId shardCount := by
  obtain ⟨hts, hgo, hpython, hrust⟩ := trim_eq hkey
  refine ⟨⟨?_, ?_⟩, ?_, ⟨?_, ?_, rfl⟩, shards_agree hid hpos hcount⟩
  · rw [TypeScript.transferIdForIdempotencyKey, Python.transferIdForIdempotencyKey,
      Option.bind_some, Option.bind_some]
    exact derived_congr sha256 (hts.trans hpython.symm)
  · rw [TypeScript.transferIdForIdempotencyKey, Rust.transferIdForIdempotencyKey, Option.bind_some,
      Option.bind_some]
    exact derived_congr sha256 (hts.trans hrust.symm)
  · rw [TypeScript.transferIdForIdempotencyKey, Go.transferIDForIdempotencyKey, Option.bind_some,
      derived_eq_none,
      derived_eq_none, hts, hgo]
  · rw [Go.lifecycleRequestID, Python.lifecycleRequestId, Option.bind_some]
    exact derived_congr sha256 (hgo.trans hpython.symm)
  · rw [Go.lifecycleRequestID, Rust.lifecycleRequestId, Option.bind_some]
    exact derived_congr sha256 (hgo.trans hrust.symm)

theorem demo_agrees :
    (TypeScript.transferIdForIdempotencyKey Sha256.digest (some " demo-key\n")
        = Python.transferIdForIdempotencyKey Sha256.digest (some " demo-key\n")
      ∧ TypeScript.transferIdForIdempotencyKey Sha256.digest (some " demo-key\n")
        = Rust.transferIdForIdempotencyKey Sha256.digest (some " demo-key\n"))
    ∧ Go.transferShardID "4affd9a5-09db-5139-b7ea-6c141867cc96" 16
      = some (TypeScript.transferShardId "4affd9a5-09db-5139-b7ea-6c141867cc96" 16) := by
  have hfirst : (trim isBlank " demo-key\n").toList.head? = some 'd' := by decide +kernel
  have hlast : (trim isBlank " demo-key\n").toList.getLast? = some 'y' := by decide +kernel
  have hkey : Undisputed " demo-key\n" := by
    refine ⟨fun c hc => ?_, fun c hc => ?_⟩
    · obtain rfl : 'd' = c := Option.some_inj.mp (hfirst.symm.trans hc)
      decide
    · obtain rfl : 'y' = c := Option.some_inj.mp (hlast.symm.trans hc)
      decide
  have hplain : ("4affd9a5-09db-5139-b7ea-6c141867cc96".toList.all fun c => c.toNat < 0x10000) =
      true := by decide +kernel
  have hid : ∀ c ∈ "4affd9a5-09db-5139-b7ea-6c141867cc96".toList, c.toNat < 0x10000 := fun c hc =>
    of_decide_eq_true (List.all_eq_true.mp hplain c hc)
  have hpos : 0 < 16 := by decide
  have hagree := identities_agree Sha256.digest hkey hid hpos (by decide) "" ""
  exact ⟨hagree.1, hagree.2.2.2.1⟩

/-- Go scopes the id to the client, TypeScript writes request ids its own way, a key may be empty
for one SDK only, and a character past the first plane is one number or two. -/
theorem identities_differ :
    Go.transferIDForIdempotencyKey Sha256.digest "11111111-1111-4111-8111-111111111111" "demo-key"
      = some "4affd9a5-09db-5139-b7ea-6c141867cc96"
    ∧ TypeScript.transferIdForIdempotencyKey Sha256.digest (some "demo-key") ≠
      some "4affd9a5-09db-5139-b7ea-6c141867cc96"
    ∧ TypeScript.requestId Sha256.digest "transfer.cancel" "demo-key"
      ≠ Go.lifecycleRequestID Sha256.digest "transfer.cancel" "demo-key"
    ∧ TypeScript.transferIdForIdempotencyKey Sha256.digest (some "\ufeff") = none
    ∧ Go.transferIDForIdempotencyKey Sha256.digest "11111111-1111-4111-8111-111111111111" "\ufeff" ≠
      none
    ∧ Go.transferShardID "😀" 16 ≠ some (TypeScript.transferShardId "😀" 16)
    ∧ Go.transferShardID "abc" (2 ^ 32 + 1) ≠
      some (TypeScript.transferShardId "abc" (2 ^ 32 + 1)) := by
  decide +kernel

end Beam.Identity
