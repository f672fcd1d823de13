import BeamSdk.Rust.Recomputed
import BeamSdk.Rust.S3

/-! What a client and a server make of a presigned URL: whether reading it leaves it as it is, and
whether it is still signed and still names its object then. -/

namespace Beam.Rust.S3
open SigV4
open Signing (isUnreserved keptInPath)

/-- How URLs are read: by the standard, with what a URL of another scheme is read as. -/
structure Urls where
  rules : Url.Rules
  other : Text → Text → Option (Text × Option ℕ × Text)
  isIp : Text → Bool
  debug : Text → Text

namespace Urls
variable (urls : Urls)

def parse (text : Text) : Option ParsedUrl :=
  match Url.cutScheme (Url.strip text) with
  | none => none
  | some (scheme, rest) =>
    if Url.isHttp scheme then (Url.readRest urls.rules scheme rest).map fun u =>
      ⟨u.scheme, u.host, u.port, u.pathText⟩
    else (urls.other scheme rest).map fun (host, port, path) => ⟨scheme, host, port, path⟩

def platform : Platform := ⟨urls.parse, urls.isIp, urls.debug⟩

end Urls

structure Store where
  scheme : Text
  host : Text
  port : Option ℕ
  basePath : Text
  virtualHosted : Bool
  deriving DecidableEq

def S3Settings.store (s : S3Settings) (platform : Platform) : Except Text Store := do
  let endpoint ← s.endpoint
  let (scheme, host, port, basePath, isIp) ← s.base platform endpoint
  return ⟨scheme, host, port, basePath, s.pathStyle endpoint != some true && !isIp &&
    isVirtualHostableBucket platform s.bucket (scheme == "http".toList)⟩

namespace Store
variable (store : Store)

def hostOf (bucket : Text) : Text :=
  if store.virtualHosted then bucket ++ '.' :: store.host else store.host

def pathOf (bucket objectKey : Text) : Text :=
  if store.virtualHosted then store.basePath ++ '/' :: uriEncode objectKey true
  else store.basePath ++ '/' :: uriEncode bucket false ++ '/' :: uriEncode objectKey true

/-- A URL that is sent to the store for a bucket and a key of it. -/
structure Addresses (u : Url) (bucket objectKey : Text) : Prop where
  authority : u.authority = store.hostOf bucket ++ Url.portText store.port
  path : ∃ names, u.pathText = store.basePath ++ '/' :: names ∧
    if store.virtualHosted then Uri.decodeOctets names = Uri.octets objectKey
    else ∃ first rest, names = first ++ '/' :: rest ∧ '/' ∉ first ∧
      Uri.decodeOctets first = Uri.octets bucket ∧ Uri.decodeOctets rest = Uri.octets objectKey

end Store

/-- A URL that is the same once it is read, of which a server recomputes what was signed, and which
is sent for the object. -/
def Verifies (urls : Urls) (crypto : Crypto) (s : S3Settings) (operation : S3Operation)
    (objectKey : Text) (expiresIn : ℕ) (now : ℤ) (url : Text) : Prop :=
  ∃ request store u, s.request urls.platform operation objectKey = .ok request ∧
    s.store urls.platform = .ok store ∧ Url.read urls.rules url = some u ∧ u.text = url ∧
    (serverFor crypto s.credentials (s.scopeAt now)).recompute (request.sentTo u) =
      some (Uri.octets (signedText request s.credentials (s.scopeAt now) expiresIn true),
        Uri.octets (stringToSign crypto request s.credentials (s.scopeAt now) expiresIn true)) ∧
    store.Addresses u s.bucket objectKey

/-- Settings whose host and path are read as they are written, and a bucket that is one segment of
a path. -/
structure Store.ReadAsWritten (rules : Url.Rules) (store : Store) (bucket : Text) : Prop where
  http : Url.isHttp store.scheme = true
  host : rules.host (store.hostOf bucket) = some (store.hostOf bucket)
  base : Server.canonicalPath store.basePath = store.basePath
  bucket : store.virtualHosted = false → bucket ≠ ['.'] ∧ bucket ≠ ['.', '.'] ∧ '/' ∉ bucket

/-- Names of metadata that no list of names is cut at, and that differ in lower case. -/
def S3Operation.NamesApart : S3Operation → Prop
  | .createMultipartUpload metadata =>
    (metadata.map fun entry => entry.1.map Char.toLower).Nodup ∧ ∀ entry ∈ metadata, ';' ∉ entry.1
  | _ => True

section Operations
variable {operation : S3Operation}

theorem map_toLower_twice (text : Text) :
    (text.map Char.toLower).map Char.toLower = text.map Char.toLower := by
  rw [List.map_map]
  exact List.map_congr_left fun c _ => Char.toLower_toLower_eq_toLower c

theorem parts_lower (operation : S3Operation) :
    ∀ header ∈ operation.parts.2.2,
      header.1.map Char.toLower = header.1 ∧ header.1 ≠ "host".toList := by
  let P (name : Text) : Prop := name.map Char.toLower = name ∧ name ≠ "host".toList
  have hnone : ∀ header ∈ ([] : List QueryString.Pair), P header.1 :=
    fun _ hnone => absurd hnone List.not_mem_nil
  cases operation with
  | getObject range ifMatch versionId =>
    exact List.forall_mem_append.mpr ⟨forall_option (P := P) (by decide) ifMatch id,
      forall_option (P := P) (by decide) range id⟩
  | putObject contentMd5 => exact forall_option (P := P) (by decide) contentMd5 id
  | uploadPart uploadId partNumber contentMd5 =>
    exact forall_option (P := P) (by decide) contentMd5 id
  | createMultipartUpload metadata =>
    intro header hheader
    obtain ⟨entry, -, rfl⟩ := List.mem_map.mp ((sort_perm _).mem_iff.mp hheader)
    refine ⟨?_, fun he => absurd (List.cons.inj he).1 (by decide)⟩
    have hstart : "x-amz-meta-".toList.map Char.toLower = "x-amz-meta-".toList := by decide
    rw [List.map_append, hstart, map_toLower_twice]
  | completeMultipartUpload uploadId => exact forall_pair (P := P) (by decide)
  | uploadPartCopy uploadId partNumber copySource copySourceIfMatch =>
    exact List.forall_mem_append.mpr ⟨forall_pair (P := P) (by decide),
      forall_option (P := P) (by decide) copySourceIfMatch id⟩
  | headObject => exact hnone
  | abortMultipartUpload => exact hnone
  | listParts => exact hnone
  | deleteObject => exact hnone
  | listObjectsV2 => exact hnone

theorem apart_metadata (metadata : List QueryString.Pair) :
    (S3Operation.createMultipartUpload metadata).NamesApart ↔
      ((S3Operation.createMultipartUpload metadata).parts.2.2.map Prod.fst).Nodup ∧
        ∀ header ∈ (S3Operation.createMultipartUpload metadata).parts.2.2, ';' ∉ header.1 := by
  have hstart : ';' ∉ "x-amz-meta-".toList := by decide
  have hfree : ∀ name : Text, ';' ∉ "x-amz-meta-".toList ++ name.map Char.toLower ↔ ';' ∉ name := by
    intro name
    rw [List.mem_append, not_or, and_iff_right hstart]
    exact not_congr ⟨mem_of_mem_map_toLower (by decide), fun h => List.mem_map.mpr ⟨';', h, rfl⟩⟩
  let signed := metadata.map fun entry =>
    ("x-amz-meta-".toList ++ entry.1.map Char.toLower, entry.2)
  have hparts : (S3Operation.createMultipartUpload metadata).parts.2.2 = sort signed := rfl
  have hperm := sort_perm signed
  rw [hparts]
  refine and_congr ?_ ?_
  · have hinjective := List.append_right_injective "x-amz-meta-".toList
    have hnames : signed.map Prod.fst =
        (metadata.map fun entry => entry.1.map Char.toLower).map ("x-amz-meta-".toList ++ ·) := by
      rw [List.map_map, List.map_map]
      rfl
    rw [(hperm.map Prod.fst).nodup_iff, hnames, List.nodup_map_iff hinjective]
  · simp only [hperm.mem_iff, signed, List.forall_mem_map]
    exact forall₂_congr fun entry _ => (hfree entry.1).symm

theorem apart_iff : operation.NamesApart ↔ (operation.parts.2.2.map Prod.fst).Nodup ∧
    ∀ header ∈ operation.parts.2.2, ';' ∉ header.1 := by
  let P (name : Text) : Prop := ';' ∉ name
  have hnone : ∀ header ∈ ([] : List QueryString.Pair), P header.1 :=
    fun _ hnone => absurd hnone List.not_mem_nil
  have hone : ∀ (key : String) (given : Option Text),
      ((given.map (pair key)).toList.map Prod.fst).Nodup := by
    intro key given
    cases given with
    | none => exact List.nodup_nil
    | some value => exact List.nodup_singleton _
  cases operation with
  | createMultipartUpload metadata => exact apart_metadata metadata
  | getObject range ifMatch versionId =>
    refine iff_of_true trivial ⟨?_, List.forall_mem_append.mpr
      ⟨forall_option (P := P) (by decide) ifMatch id,
        forall_option (P := P) (by decide) range id⟩⟩
    have hboth : ["if-match".toList, "range".toList].Nodup := by decide
    cases ifMatch with
    | none => exact hone "range" range
    | some etag =>
      cases range with
      | none => exact List.nodup_singleton _
      | some range => exact hboth
  | putObject contentMd5 =>
    exact iff_of_true trivial ⟨hone _ _, forall_option (P := P) (by decide) contentMd5 id⟩
  | uploadPart uploadId partNumber contentMd5 =>
    exact iff_of_true trivial ⟨hone _ _, forall_option (P := P) (by decide) contentMd5 id⟩
  | completeMultipartUpload uploadId =>
    exact iff_of_true trivial ⟨List.nodup_singleton _, forall_pair (P := P) (by decide)⟩
  | uploadPartCopy uploadId partNumber copySource copySourceIfMatch =>
    refine iff_of_true trivial ⟨?_, List.forall_mem_append.mpr
      ⟨forall_pair (P := P) (by decide),
        forall_option (P := P) (by decide) copySourceIfMatch id⟩⟩
    have hboth : ["x-amz-copy-source".toList, "x-amz-copy-source-if-match".toList].Nodup := by
      decide
    cases copySourceIfMatch with
    | none => exact List.nodup_singleton _
    | some etag => exact hboth
  | headObject => exact iff_of_true trivial ⟨List.nodup_nil, hnone⟩
  | abortMultipartUpload => exact iff_of_true trivial ⟨List.nodup_nil, hnone⟩
  | listParts => exact iff_of_true trivial ⟨List.nodup_nil, hnone⟩
  | deleteObject => exact iff_of_true trivial ⟨List.nodup_nil, hnone⟩
  | listObjectsV2 => exact iff_of_true trivial ⟨List.nodup_nil, hnone⟩

end Operations

section Stores
variable {urls : Urls} {s : S3Settings} {store : Store} {objectKey : Text} {rules : Url.Rules}

/-- What the base of a store is: its path has been read, and its host has no port of its own. -/
structure Store.BaseRead (rules : Url.Rules) (store : Store) : Prop where
  colon : ':' ∉ store.scheme
  host : Url.isHttp store.scheme = true → Url.PortFree store.host
  port : Url.isHttp store.scheme = true →
    ∀ n ∈ store.port, n ≤ 65535 ∧ n ≠ Url.defaultPort store.scheme
  path : Url.isHttp store.scheme = true → ∃ segments, store.basePath = segments.flatMap ('/' :: ·) ∧
    (∀ segment ∈ segments, Url.Segment rules segment) ∧ Url.NoDots segments

theorem colon_notMem_scheme {text scheme rest : Text}
    (h : Url.cutScheme text = some (scheme, rest)) : ':' ∉ scheme := by
  unfold Url.cutScheme at h
  split at h
  · split_ifs at h
    cases h
    intro hmem
    have hin := List.mem_takeWhile_imp (mem_of_mem_map_toLower (by decide) hmem)
    exact absurd hin (by decide)
  · cases h

theorem parse_based (hrules : urls.rules.Lawful) {text : Text} {url : ParsedUrl}
    (h : urls.parse text = some url) (virtualHosted : Bool) :
    Store.BaseRead urls.rules ⟨url.scheme, url.host, url.port, url.path.rdropWhile (· == '/'),
      virtualHosted⟩ := by
  unfold Urls.parse at h
  cases hcut : Url.cutScheme (Url.strip text) with
  | none =>
    rw [hcut] at h
    cases h
  | some cut =>
    rw [hcut] at h
    simp only at h
    have hcolon := colon_notMem_scheme hcut
    by_cases hhttp : Url.isHttp cut.1 = true
    · rw [if_pos hhttp] at h
      obtain ⟨u, hu, rfl⟩ := Option.map_eq_some_iff.mp h
      have hread : Url.read urls.rules text = some u := by
        rw [Url.read, hcut, Option.bind_some]
        exact (if_pos hhttp).trans hu
      have hspec := Url.read_spec hrules hread
      obtain ⟨written, hhost⟩ := hspec.host
      have hslash : ∀ segment ∈ u.path, '/' ∉ segment :=
        fun segment hsegment => (hspec.path segment hsegment).slash_notMem
      have hsub : ∀ segment ∈ u.path.rdropWhile List.isEmpty, segment ∈ u.path :=
        fun segment hsegment => (List.rdropWhile_prefix _ _).subset hsegment
      refine ⟨?_, fun _ => (hrules.host _ _ hhost).2.portFree, fun _ => hspec.port, fun _ =>
        ⟨_, Url.rdropWhile_slashes hslash, fun segment hsegment =>
          hspec.path segment (hsub segment hsegment), fun segment hsegment =>
          hspec.noDots segment (hsub segment hsegment)⟩⟩
      exact Url.colon_notMem_of_isHttp hspec.scheme
    · rw [if_neg hhttp] at h
      obtain ⟨⟨host, port, path⟩, -, rfl⟩ := Option.map_eq_some_iff.mp h
      exact ⟨hcolon, fun h => absurd h hhttp, fun h => absurd h hhttp, fun h => absurd h hhttp⟩

theorem store_based (hrules : urls.rules.Lawful) (h : s.store urls.platform = .ok store) :
    store.BaseRead urls.rules := by
  obtain ⟨endpoint, -, h⟩ := bind_eq_ok.mp h
  obtain ⟨⟨scheme, host, port, basePath, isIp⟩, hbase, h⟩ := bind_eq_ok.mp h
  cases h
  unfold S3Settings.base at hbase
  cases endpoint with
  | none =>
    cases hbase
    have hhttps : Url.isHttp "https".toList = true := by decide
    refine ⟨Url.colon_notMem_of_isHttp hhttps, fun _ => ?_, fun _ => ?_, fun _ =>
      ⟨[], rfl, ?_, ?_⟩⟩
    · refine Url.PortFree.append ?_ (by decide) (by decide) _
      split_ifs
      · exact Url.portFree_of_getLast (c := 'n') (by decide) (by decide) (by decide)
      · exact Url.portFree_of_getLast (c := 'm') (by decide) (by decide) (by decide)
    · rintro n ⟨⟩
    · exact fun _ hnone => absurd hnone List.not_mem_nil
    · exact fun _ hnone => absurd hnone List.not_mem_nil
  | some endpoint =>
    simp only at hbase
    cases hurl : urls.platform.parseUrl endpoint with
    | none =>
      rw [hurl] at hbase
      cases hbase
    | some url =>
      rw [hurl] at hbase
      cases hbase
      exact parse_based hrules hurl _

theorem objectLocation_store {platform : Platform} {origin host path : Text}
    (h : s.objectLocation platform objectKey = .ok (origin, host, path)) :
    (∀ segment ∈ objectKey.splitOn '/', segment ≠ ['.'] ∧ segment ≠ ['.', '.']) ∧
      ∃ store, s.store platform = .ok store ∧
        host = store.hostOf s.bucket ++ Url.portText store.port ∧
        origin = store.scheme ++ "://".toList ++ host ∧
        path = store.pathOf s.bucket objectKey := by
  obtain ⟨hdots, h⟩ := guard_eq_ok.mp h
  obtain ⟨endpoint, hendpoint, h⟩ := bind_eq_ok.mp h
  obtain ⟨⟨scheme, name, port, basePath, isIp⟩, hbase, h⟩ := bind_eq_ok.mp h
  cases h
  refine ⟨fun segment hsegment => ?_, ⟨scheme, name, port, basePath, _⟩, ?_, ?_, rfl, rfl⟩
  · have hno : ¬ (segment == ['.'] || segment == ['.', '.']) = true :=
      fun hdot => hdots (List.any_eq_true.mpr ⟨segment, hsegment, hdot⟩)
    rw [Bool.or_eq_true, not_or, beq_iff_eq, beq_iff_eq] at hno
    exact hno
  · rw [S3Settings.store, hendpoint]
    simp only [bind, Except.bind, hbase]
    rfl
  · cases port with
    | none => exact (List.append_nil _).symm
    | some port =>
      have hnumber : number port = Nat.toDigits 10 port := Nat.toList_repr
      exact congrArg (fun digits => Store.hostOf ⟨scheme, name, port, basePath, _⟩ s.bucket ++
        ':' :: digits) hnumber

end Stores

section Paths
variable {rules : Url.Rules} {store : Store} {bucket objectKey : Text}

theorem mem_uriEncode {text : Text} {c : Char} (h : c ∈ uriEncode text false) :
    c.isAlphanum = true ∨ c ∈ "-._~%".toList := by
  obtain ⟨n, hn, hmem⟩ := List.mem_flatMap.mp h
  have hall : ∀ n < 128, isUnreserved n = true →
      (Char.ofNat n).isAlphanum = true ∨ Char.ofNat n ∈ "-._~%".toList := by
    decide +kernel
  rcases Uri.mem_encodeOctet (Uri.octets_lt hn) hmem with ⟨hk, rfl⟩ | rfl | halnum
  · exact hall n (separates_unreserved.ascii n hk) hk
  · exact .inr (by decide)
  · exact .inl halnum

theorem segment_uriEncode (hrules : rules.Lawful) (text : Text) :
    Url.Segment rules (uriEncode text false) := by
  intro c hc
  have hplain := mem_uriEncode hc
  refine ⟨hrules.plain .path c hplain, ?_⟩
  rcases hplain with halnum | hmem
  · exact Url.isSlash_of_isAlphanum (.inr halnum)
  · have hall : "-._~%".toList.all (fun c => !Url.isSlash c && !Url.endsPath c) = true := by decide
    have hc := List.all_eq_true.mp hall c hmem
    rwa [Bool.and_eq_true, Bool.not_eq_true', Bool.not_eq_true'] at hc

theorem dots_uriEncode (text : Text) :
    (Url.singleDot (uriEncode text false) = false ∧ Url.doubleDot (uriEncode text false) = false) ↔
      text ≠ ['.'] ∧ text ≠ ['.', '.'] := by
  have hdot : ∀ dots : Text, (Uri.octets text == Uri.octets dots) = false ↔ text ≠ dots :=
    fun dots => by
      rw [beq_eq_false_iff_ne]
      exact not_congr ⟨fun h => Uri.octets_injective h, congrArg Uri.octets⟩
  rw [Url.singleDot, Url.doubleDot, decodeOctets_uriEncode, hdot, hdot]

def Store.names (store : Store) (bucket objectKey : Text) : List Text :=
  if store.virtualHosted then objectKey.splitOn '/' else bucket :: objectKey.splitOn '/'

theorem pathOf_eq {segments : List Text} (hbase : store.basePath = segments.flatMap ('/' :: ·)) :
    store.pathOf bucket objectKey = (segments ++ (store.names bucket objectKey).map fun name =>
      uriEncode name false).flatMap ('/' :: ·) := by
  have hkey : '/' :: uriEncode objectKey true =
      ((objectKey.splitOn '/').map fun name => uriEncode name false).flatMap ('/' :: ·) := by
    have hjoined : ['/'].intercalate ((uriEncode objectKey true).splitOn '/') =
        uriEncode objectKey true := List.intercalate_splitOn '/'
    rw [← splitOn_uriEncode, Url.flatMap_slash_of_ne_nil (List.splitOn_ne_nil _ _), hjoined]
  rw [List.flatMap_append, Store.pathOf, Store.names, hbase]
  split_ifs
  · rw [hkey]
  · rw [List.map_cons, List.flatMap_cons, ← hkey, List.append_assoc]

end Paths
section Verified
variable {urls : Urls} {s : S3Settings} {store : Store} {bucket objectKey : Text}

theorem canonicalPath_slash (left right : Text) :
    Server.canonicalPath (left ++ '/' :: right) = left ++ '/' :: right ↔
      Server.canonicalPath left = left ∧ Server.canonicalPath right = right :=
  Uri.reencode_stop Signing.keeps_path (by decide) (by decide)

theorem canonicalPath_uriEncode (text : Text) (keepSlash : Bool) :
    Server.canonicalPath (uriEncode text keepSlash) = uriEncode text true := by
  rw [Server.canonicalPath, Uri.reencode, decodeOctets_uriEncode]
  rfl

theorem slash_notMem_uriEncode (text : Text) : '/' ∉ uriEncode text false := by
  have hall : '/' ∉ "-._~%".toList := by decide
  intro hmem
  rcases mem_uriEncode hmem with halnum | hmem
  · exact absurd halnum (by decide)
  · exact hall hmem

theorem uriEncode_eq_iff {text : Text} :
    uriEncode text true = uriEncode text false ↔ '/' ∉ text := by
  refine ⟨fun h hmem => ?_, uriEncode_of_notMem⟩
  obtain ⟨left, right, rfl⟩ := List.append_of_mem hmem
  have hslash : '/' ∈ uriEncode (left ++ '/' :: right) true := by
    have hoctet : 47 ∈ Uri.octets (left ++ '/' :: right) :=
      (Uri.mem_octets_iff (c := '/') (by decide)).mpr (by simp)
    exact List.mem_flatMap.mpr ⟨47, hoctet, by decide⟩
  exact slash_notMem_uriEncode _ (h ▸ hslash)

theorem canonicalPath_pathOf :
    Server.canonicalPath (store.pathOf bucket objectKey) = store.pathOf bucket objectKey ↔
      Server.canonicalPath store.basePath = store.basePath ∧
        (store.virtualHosted = false → '/' ∉ bucket) := by
  have hkey := canonicalPath_uriEncode objectKey true
  rw [Store.pathOf]
  cases store.virtualHosted with
  | true => simp [canonicalPath_slash, hkey]
  | false =>
    simp only [Bool.false_eq_true, if_false, List.append_assoc, List.cons_append,
      canonicalPath_slash, hkey, and_true, canonicalPath_uriEncode, uriEncode_eq_iff, forall_const]

theorem noDots_names {segments : List Text} (hsegments : Url.NoDots segments)
    (hkey : ∀ segment ∈ objectKey.splitOn '/', segment ≠ ['.'] ∧ segment ≠ ['.', '.']) :
    Url.NoDots (segments ++ (store.names bucket objectKey).map fun name => uriEncode name false) ↔
      (store.virtualHosted = false → bucket ≠ ['.'] ∧ bucket ≠ ['.', '.']) := by
  have hkeys : Url.NoDots ((objectKey.splitOn '/').map fun name => uriEncode name false) :=
    List.forall_mem_map.mpr fun name hname => (dots_uriEncode name).mpr (hkey name hname)
  refine (List.forall_mem_append.trans (and_iff_right hsegments)).trans ?_
  rw [Store.names]
  cases store.virtualHosted with
  | true =>
    rw [if_pos rfl]
    exact iff_of_true hkeys fun h => absurd h (by decide)
  | false =>
    simp only [Bool.false_eq_true, if_false, List.map_cons, List.forall_mem_cons, dots_uriEncode,
      forall_const]
    exact and_iff_left hkeys

theorem mem_renderQuery {pairs : List QueryString.Pair} {c : Char} (h : c ∈ renderQuery pairs) :
    (c.isAlphanum = true ∨ c ∈ "-._~%".toList) ∨ c ∈ "&=".toList := by
  rcases mem_intercalate h with rfl | ⟨part, hpart, hmem⟩
  · exact .inr (by decide)
  · obtain ⟨pair, -, rfl⟩ := List.mem_map.mp hpart
    unfold QueryString.renderPair at hmem
    split_ifs at hmem
    · exact .inl (mem_uriEncode hmem)
    · rcases List.mem_append.mp hmem with hmem | hmem
      · exact .inl (mem_uriEncode hmem)
      · rcases List.mem_cons.mp hmem with rfl | hmem
        · exact .inr (by decide)
        · exact .inl (mem_uriEncode hmem)

theorem kept_renderQuery {rules : Url.Rules} (hrules : rules.Lawful)
    (pairs : List QueryString.Pair) :
    ∀ c ∈ renderQuery pairs, rules.kept .query c.toNat = true ∧ c ≠ '#' := by
  intro c hc
  have hplain := mem_renderQuery hc
  constructor
  · rcases hplain with hplain | hmem
    · exact hrules.plain .query c hplain
    · exact hrules.query c hmem
  · rintro rfl
    have hnone : '#' ∉ "-._~%".toList ∧ '#' ∉ "&=".toList := by decide
    rcases hplain with (halnum | hmem) | hmem
    · exact absurd halnum (by decide)
    · exact hnone.1 hmem
    · exact hnone.2 hmem

variable {crypto : Crypto} {operation : S3Operation} {expiresIn : ℕ} {now : ℤ}

/-- A URL that was presigned: its parts, and what was signed with it. -/
structure Presigned (s : S3Settings) (platform : Platform) (operation : S3Operation)
    (objectKey : Text) (expiresIn : ℕ) (now : ℤ) (request : SignableRequest) (store : Store)
    (query url : Text) : Prop where
  asked : s.request platform operation objectKey = .ok request
  found : s.store platform = .ok store
  key : ∀ segment ∈ objectKey.splitOn '/', segment ≠ ['.'] ∧ segment ≠ ['.', '.']
  host : request.host = store.hostOf s.bucket ++ Url.portText store.port
  path : request.path = store.pathOf s.bucket objectKey
  parts : request.query = operation.parts.2.1 ∧ request.headers = operation.parts.2.2
  signed : ∃ signature, query = renderQuery (presignedQuery request s.credentials (s.scopeAt now)
    expiresIn true ++ [("X-Amz-Signature".toList, signature)])
  url : url = store.scheme ++ ':' ::
    ("//".toList ++ (request.host ++ (request.path ++ '?' :: query)))

theorem request_location {platform : Platform} {request : SignableRequest}
    (h : s.request platform operation objectKey = .ok request) :
    s.objectLocation platform objectKey = .ok (request.origin, request.host, request.path) ∧
      request.query = operation.parts.2.1 ∧ request.headers = operation.parts.2.2 := by
  obtain ⟨⟨origin, host, path⟩, hlocation, h⟩ := bind_eq_ok.mp h
  cases h
  exact ⟨hlocation, rfl, rfl⟩

theorem presignAt_presigned {platform : Platform} {url : Text}
    (h : s.presignAt platform crypto operation objectKey expiresIn now = .ok url) :
    ∃ request store query,
      Presigned s platform operation objectKey expiresIn now request store query url := by
  obtain ⟨request, hrequest, h⟩ := bind_eq_ok.mp h
  cases hsigned : presign crypto request s.credentials (s.scopeAt now) expiresIn true with
  | error error =>
    rw [hsigned] at h
    cases h
  | ok signed =>
    rw [hsigned] at h
    cases h
    obtain ⟨-, hurl⟩ := presign_eq_ok hsigned
    obtain ⟨hlocation, hparts⟩ := request_location hrequest
    obtain ⟨hkey, store, hstore, hhost, horigin, hpath⟩ := objectLocation_store hlocation
    refine ⟨request, store, _, hrequest, hstore, hkey, hhost, hpath, hparts,
      ⟨presignSignature crypto request s.credentials (s.scopeAt now) expiresIn true, rfl⟩, ?_⟩
    rw [hurl, horigin]
    simp only [List.append_assoc]
    rfl

section Read
variable {request : SignableRequest} {query url : Text} {segments : List Text}
variable (h : Presigned s urls.platform operation objectKey expiresIn now request store query url)
include h

theorem Presigned.lower : request.Lower := by
  rw [SignableRequest.Lower, h.parts.2]
  exact parts_lower operation

theorem Presigned.locator_text
    (hpath : store.pathOf s.bucket objectKey = segments.flatMap ('/' :: ·)) :
    (Url.locator store.scheme (store.hostOf s.bucket) store.port segments query).text = url := by
  rw [h.url, Url.locator_text, h.host, h.path, hpath]

theorem Presigned.read (hrules : urls.rules.Lawful) (hhttp : Url.isHttp store.scheme = true)
    (hhost : urls.rules.host (store.hostOf s.bucket) = some (store.hostOf s.bucket))
    (hpath : store.pathOf s.bucket objectKey = segments.flatMap ('/' :: ·))
    (hsegments : ∀ segment ∈ segments, Url.Segment urls.rules segment) (hne : segments ≠ []) :
    Url.read urls.rules url = some (Url.locator store.scheme (store.hostOf s.bucket) store.port
      (Url.walk [] segments) query) := by
  have hquery : ∀ c ∈ query, urls.rules.kept .query c.toNat = true ∧ c ≠ '#' := by
    obtain ⟨signature, rfl⟩ := h.signed
    exact kept_renderQuery hrules _
  have hport := (store_based hrules h.found).port hhttp
  rw [← h.locator_text hpath]
  exact Url.read_locator hrules hhttp hhost hport hsegments hne hquery

theorem Presigned.recompute_iff (hrules : urls.rules.Lawful)
    (hhost : urls.rules.host (store.hostOf s.bucket) = some (store.hostOf s.bucket))
    (hpath : store.pathOf s.bucket objectKey = segments.flatMap ('/' :: ·))
    (hsegments : ∀ segment ∈ segments, Url.Segment urls.rules segment) :
    (serverFor crypto s.credentials (s.scopeAt now)).recompute (request.sentTo
        (Url.locator store.scheme (store.hostOf s.bucket) store.port segments query)) =
      some (Uri.octets (signedText request s.credentials (s.scopeAt now) expiresIn true),
        Uri.octets (stringToSign crypto request s.credentials (s.scopeAt now) expiresIn true)) ↔
      Server.canonicalPath (store.pathOf s.bucket objectKey) = store.pathOf s.bucket objectKey ∧
        operation.NamesApart := by
  have hvisible : Url.Visible request.host := by
    rw [h.host]
    exact (hrules.host _ _ hhost).2.visible.append (Url.visible_portText store.port)
  have hspaceless : Spaceless request.host := fun c hc =>
    isWhitespace_of_printable (hvisible c hc).1 (hvisible c hc).2
  have hnewline : ∀ {text : Text}, Url.Visible text → '\n' ∉ text := fun htext hmem =>
    absurd (htext _ hmem).1 (by decide)
  have hauthority : (Url.locator store.scheme (store.hostOf s.bucket) store.port segments
      query).authority = request.host := h.host.symm
  have hpathText : (Url.locator store.scheme (store.hostOf s.bucket) store.port segments
      query).pathText = store.pathOf s.bucket objectKey := hpath.symm
  have hplain : Plain request.query := h.parts.1 ▸ parts_query operation
  obtain ⟨signature, hquery⟩ := h.signed
  have hline : '\n' ∉ request.path := by
    rw [h.path, hpath]
    exact hnewline (Url.visible_slashes hrules hsegments)
  rw [SigV4.recompute_iff hplain rfl hline hquery,
    sentTo_headers_iff h.lower (hnewline hvisible)
      (by rw [hauthority]; exact normalizeHeaderValue_spaceless hspaceless)]
  rw [apart_iff, ← h.parts.2, ← h.path]
  refine and_congr (iff_of_eq (congrArg (Server.canonicalPath · = request.path) ?_))
    (and_iff_right hauthority)
  exact hpathText.trans h.path.symm

end Read

theorem pathOf_names {u : Url} (hpath : store.pathOf bucket objectKey = u.pathText) :
    ∃ names, u.pathText = store.basePath ++ '/' :: names ∧
      if store.virtualHosted then Uri.decodeOctets names = Uri.octets objectKey
      else ∃ first rest, names = first ++ '/' :: rest ∧ '/' ∉ first ∧
        Uri.decodeOctets first = Uri.octets bucket ∧
        Uri.decodeOctets rest = Uri.octets objectKey := by
  rw [← hpath, Store.pathOf]
  cases store.virtualHosted with
  | true => exact ⟨_, rfl, decodeOctets_uriEncode objectKey true⟩
  | false =>
    refine ⟨uriEncode bucket false ++ '/' :: uriEncode objectKey true, by simp, _, _, rfl,
      slash_notMem_uriEncode bucket, ?_, ?_⟩
    · exact decodeOctets_uriEncode bucket false
    · exact decodeOctets_uriEncode objectKey true

theorem verifies_iff {request : SignableRequest} {query url : Text} (hrules : urls.rules.Lawful)
    (h : Presigned s urls.platform operation objectKey expiresIn now request store query url) :
    Verifies urls crypto s operation objectKey expiresIn now url ↔
      store.ReadAsWritten urls.rules s.bucket ∧ operation.NamesApart := by
  have hbased := store_based hrules h.found
  have hsegmentsOf : ∀ {base : List Text}, (∀ segment ∈ base, Url.Segment urls.rules segment) →
      ∀ segment ∈ base ++ (store.names s.bucket objectKey).map fun name => uriEncode name false,
        Url.Segment urls.rules segment := fun hbase =>
    List.forall_mem_append.mpr ⟨hbase, List.forall_mem_map.mpr fun name _ =>
      segment_uriEncode hrules name⟩
  have hpathOf : ∀ {base : List Text}, store.basePath = base.flatMap ('/' :: ·) →
      store.pathOf s.bucket objectKey = (base ++ (store.names s.bucket objectKey).map fun name =>
        uriEncode name false).flatMap ('/' :: ·) := pathOf_eq
  have hne : ∀ base : List Text,
      base ++ (store.names s.bucket objectKey).map (fun name => uriEncode name false) ≠ [] := by
    refine fun base => List.append_ne_nil_of_right_ne_nil _ ?_
    rw [Store.names]
    split_ifs <;> simp [List.splitOn_ne_nil]
  constructor
  · rintro ⟨request', store', u, hasked, hfound, hread, htext, hrecompute, haddresses⟩
    obtain rfl : request = request' := Except.ok.inj (h.asked.symm.trans hasked)
    obtain rfl : store = store' := Except.ok.inj (h.found.symm.trans hfound)
    have hspec := Url.read_spec hrules hread
    -- The scheme is the one that is read, and so is the host.
    have hscheme : u.scheme = store.scheme := by
      have hcolon := Url.colon_notMem_of_isHttp hspec.scheme
      have hboth : u.scheme ++ ':' :: ("//".toList ++ u.userinfo ++ u.authority ++ u.pathText ++
          u.tailText) = store.scheme ++ ':' :: ("//".toList ++ (request.host ++ (request.path ++
            '?' :: query))) := by
        rw [← h.url, ← htext, Url.text]
        simp
      exact (Cut.append_cons_inj_left hcolon hbased.colon hboth).1
    have hhttp : Url.isHttp store.scheme = true := hscheme ▸ hspec.scheme
    obtain ⟨written, hwritten⟩ := hspec.host
    obtain ⟨hagain, hhostText⟩ := hrules.host _ _ hwritten
    have hportFree : Url.PortFree (store.hostOf s.bucket) := by
      rw [Store.hostOf]
      split_ifs
      · exact (hbased.host hhttp).append (by decide) (by decide) _
      · exact hbased.host hhttp
    obtain ⟨hhost, -⟩ := Url.authority_injective hhostText.portFree hportFree haddresses.authority
    rw [hhost] at hagain
    obtain ⟨base, hbase, hbaseSegments, hbaseDots⟩ := hbased.path hhttp
    have hpath := hpathOf hbase
    have hsegments := hsegmentsOf hbaseSegments
    have hlocated := h.read hrules hhttp hagain hpath hsegments (hne base)
    obtain rfl := Option.some.inj (hread.symm.trans hlocated)
    -- What is read is what was written, so that no dots were taken out of the path.
    have hdots := Url.noDots_of_text (fun segment hsegment =>
      (hsegments segment hsegment).slash_notMem) (htext.trans (h.locator_text hpath).symm)
    rw [Url.walk_eq_self.mpr hdots] at hrecompute
    obtain ⟨hcanonical, hapart⟩ := (h.recompute_iff hrules hagain hpath hsegments).mp hrecompute
    obtain ⟨hbasePath, hslash⟩ := canonicalPath_pathOf.mp hcanonical
    have hbucket := (noDots_names hbaseDots h.key).mp hdots
    exact ⟨⟨hhttp, hagain, hbasePath, fun hhosted =>
      ⟨(hbucket hhosted).1, (hbucket hhosted).2, hslash hhosted⟩⟩, hapart⟩
  · rintro ⟨hplain, hapart⟩
    obtain ⟨base, hbase, hbaseSegments, hbaseDots⟩ := hbased.path hplain.http
    have hpath := hpathOf hbase
    have hsegments := hsegmentsOf hbaseSegments
    have hbucket : store.virtualHosted = false → s.bucket ≠ ['.'] ∧ s.bucket ≠ ['.', '.'] :=
      fun hhosted => ⟨(hplain.bucket hhosted).1, (hplain.bucket hhosted).2.1⟩
    have hdots := (noDots_names hbaseDots h.key).mpr hbucket
    have hread := h.read hrules hplain.http hplain.host hpath hsegments (hne base)
    rw [Url.walk_eq_self.mpr hdots] at hread
    refine ⟨request, store, _, h.asked, h.found, hread, h.locator_text hpath,
      (h.recompute_iff hrules hplain.host hpath hsegments).mpr
        ⟨canonicalPath_pathOf.mpr ⟨hplain.base, fun hhosted => (hplain.bucket hhosted).2.2⟩,
          hapart⟩,
      ⟨rfl, ?_⟩⟩
    exact pathOf_names hpath

end Verified

/-- A host of letters in lower case, digits, hyphens and dots, which is read as itself. -/
def plainHost (text : Text) : Option Text :=
  if text ≠ [] ∧ text.all (fun c => c.isLower || c.isDigit || c == '-' || c == '.') = true then
    some text
  else none

theorem lawful_plainHost : Url.Rules.Lawful ⟨plainHost, Url.kept⟩ := by
  refine Url.lawful_kept fun text written h => ?_
  obtain ⟨⟨hne, hplain⟩, rfl⟩ := Option.ite_none_right_eq_some.mp h |>.imp_right Option.some.inj
  have hchar : ∀ c ∈ text, c.isAlphanum = true ∨ c = '-' ∨ c = '.' := by
    intro c hc
    have hkind := List.all_eq_true.mp hplain c hc
    simp only [Bool.or_eq_true, beq_iff_eq] at hkind
    rcases hkind with ((hlower | hdigit) | rfl) | rfl
    · exact .inl (by simp [Char.isAlphanum, Char.isAlpha, hlower])
    · exact .inl (by simp [Char.isAlphanum, hdigit])
    · exact .inr (.inl rfl)
    · exact .inr (.inr rfl)
  refine ⟨h, hne, fun c hc => ?_, fun c hc => ?_, .inl ⟨fun hmem => ?_, fun hmem => ?_⟩⟩
  · rcases hchar c hc with halnum | rfl | rfl
    · have hrange := Url.toNat_of_isAlphanum halnum
      exact ⟨Nat.le_trans (by decide) hrange.1, Nat.le_trans hrange.2 (by decide)⟩
    · decide
    · decide
  · rcases hchar c hc with halnum | rfl | rfl
    · have hslash := Url.isSlash_of_isAlphanum (.inr halnum)
      refine ⟨hslash.1, hslash.2, ?_⟩
      rintro rfl
      exact absurd halnum (by decide)
    · decide
    · decide
  · exact absurd (hchar _ hmem) (by decide)
  · exact absurd (hchar _ hmem) (by decide)

def localUrls : Urls :=
  ⟨⟨plainHost, Url.kept⟩, fun _ _ => none, fun _ => false, fun text => '"' :: text ++ ['"']⟩

theorem minio_store : minio.store localUrls.platform =
    .ok ⟨"http".toList, "localhost".toList, some 9000, [], false⟩ := rfl

/-- A bucket that clients take for the segment above. -/
def parent : S3Settings := { minio with bucket := "..".toList }

theorem parent_store : parent.store localUrls.platform =
    .ok ⟨"http".toList, "localhost".toList, some 9000, [], false⟩ := rfl

end Beam.Rust.S3
