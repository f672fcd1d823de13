import BeamSdk.Library.UrlRead
import BeamSdk.Rust.Presigned
import BeamSdk.Signing.Staging

/-! What a server recomputes of a presigned URL: the canonical request and the string to sign. -/

namespace Beam.Rust.SigV4
open QueryString (Pair)
open Signing (isUnreserved keptInPath)

def Received.onPath (received : Received) (path : Text) : Received := { received with path := path }

namespace Server
variable (server : Server)

def canonicalPath (path : Text) : Text := Uri.reencode keptInPath path

def stringToSign (amzDate request : List ℕ) : List ℕ :=
  lines [Uri.octets "AWS4-HMAC-SHA256".toList, amzDate, server.scope (dayOf amzDate),
    Uri.octets (Identity.hex (server.crypto.sha256 (bytesOf request)))]

theorem sign_stringToSign (amzDate request : List ℕ) :
    server.sign amzDate (dayOf amzDate) request =
      Uri.octets (Identity.hex (server.crypto.hmac (server.key (dayOf amzDate))
        (bytesOf (server.stringToSign amzDate request)))) := rfl

/-- The canonical request of a path that is escaped once and a query that is sorted, and the string
that a signature of it signs. -/
def recompute (received : Received) : Option (List ℕ × List ℕ) :=
  let pairs := QueryString.read received.query
  match single pairs "X-Amz-Credential".toList, single pairs "X-Amz-Date".toList,
    single pairs "X-Amz-SignedHeaders".toList with
  | some credential, some amzDate, some names =>
    if credential = Uri.octets server.accessKeyId ++ 47 :: server.scope (dayOf amzDate) then
      let request := request (received.onPath (canonicalPath received.path))
        (pairs.filter fun pair => pair.1 ≠ Uri.octets "X-Amz-Signature".toList) names
        (Uri.octets unsignedPayload)
      some (request, server.stringToSign amzDate request)
    else none
  | _, _, _ => none

end Server

section
variable (crypto : Crypto) (request : SignableRequest) (credentials : Credentials) (scope : Scope)

def signedText (expiresIn : ℕ) (includeContentSha256 : Bool) : Text :=
  canonicalRequest request.method request.path
    (canonicalQuery (presignedQuery request credentials scope expiresIn includeContentSha256))
    (canonicalHeaders request).1 (canonicalHeaders request).2 unsignedPayload

def stringToSign (expiresIn : ℕ) (includeContentSha256 : Bool) : Text :=
  "AWS4-HMAC-SHA256\n".toList ++ (amzDates scope.time).1.toList ++ '\n' ::
    credentialScope scope (amzDates scope.time).2.toList ++ '\n' ::
      Identity.hex (crypto.sha256
        (utf8 (signedText request credentials scope expiresIn includeContentSha256)))

def signingKey (date : Text) : Bytes :=
  crypto.hmac (crypto.hmac (crypto.hmac
    (crypto.hmac (utf8 ("AWS4".toList ++ credentials.secretAccessKey)) (utf8 date))
      (utf8 scope.region)) (utf8 scope.service)) (utf8 "aws4_request".toList)

theorem presignSignature_eq (expiresIn : ℕ) (includeContentSha256 : Bool) :
    presignSignature crypto request credentials scope expiresIn includeContentSha256 =
      Identity.hex (crypto.hmac (signingKey crypto credentials scope (amzDates scope.time).2.toList)
        (utf8 (stringToSign crypto request credentials scope expiresIn
          includeContentSha256))) := rfl

theorem key_octets (date : Text) :
    (serverFor crypto credentials scope).key (Uri.octets date) =
      signingKey crypto credentials scope date := by
  simp only [Server.key, List.foldl_cons, List.foldl_nil, bytesOf_octets]
  rfl

/-- A server that recomputes the string to sign computes the signature of the URL. -/
theorem sign_of_stringToSign {recomputed : List ℕ} {expiresIn : ℕ} {includeContentSha256 : Bool}
    (h : (serverFor crypto credentials scope).stringToSign
        (Uri.octets (amzDates scope.time).1.toList) recomputed =
      Uri.octets (stringToSign crypto request credentials scope expiresIn
        includeContentSha256)) :
    (serverFor crypto credentials scope).sign (Uri.octets (amzDates scope.time).1.toList)
        (Server.dayOf (Uri.octets (amzDates scope.time).1.toList)) recomputed =
      Uri.octets (presignSignature crypto request credentials scope expiresIn
        includeContentSha256) := by
  rw [Server.sign_stringToSign, h, bytesOf_octets, dayOf_amzDates, key_octets, presignSignature_eq]
  rfl

end

section Headers
variable {lines : List (List ℕ × List ℕ)} {values : List ℕ → List ℕ}

def headerLine (name value : List ℕ) : List ℕ := name ++ 58 :: value ++ [10]

theorem headerLine_append_inj {name value value' rest rest' : List ℕ} (hvalue : 10 ∉ value)
    (hvalue' : 10 ∉ value') :
    headerLine name value ++ rest = headerLine name value' ++ rest' ↔
      value = value' ∧ rest = rest' := by
  have hform : ∀ value rest : List ℕ,
      headerLine name value ++ rest = name ++ 58 :: (value ++ 10 :: rest) := fun _ _ => by
    simp [headerLine]
  rw [hform, hform]
  constructor
  · intro h
    exact Cut.append_cons_inj_left hvalue hvalue' (List.cons.inj (List.append_cancel_left h)).2
  · rintro ⟨rfl, rfl⟩
    rfl

theorem intercalate_cons (name : List ℕ) (names : List (List ℕ)) :
    [59].intercalate (name :: names) = name ++ if names = [] then []
      else 59 :: [59].intercalate names := by
  cases names with
  | nil => simp
  | cons next names => simp [List.intercalate_cons_cons]

/-- The lines for a list of names are those that were signed exactly when the list is cut into the
names that were signed, and each of them has the value that was. -/
theorem headers_iff (hlines : ∀ line ∈ lines, 10 ∉ line.2) (hvalues : ∀ name, 10 ∉ values name)
    (hne : lines ≠ []) :
    (([59].intercalate (lines.map Prod.fst)).splitOn 59).flatMap
        (fun name => headerLine name (values name)) =
      (lines.flatMap fun line => headerLine line.1 line.2) ↔
        ∀ line ∈ lines, 59 ∉ line.1 ∧ values line.1 = line.2 := by
  induction lines with
  | nil => exact absurd rfl hne
  | cons line lines ih =>
    obtain ⟨hline, hlines⟩ := List.forall_mem_cons.mp hlines
    rw [List.map_cons, intercalate_cons, List.flatMap_cons, List.forall_mem_cons]
    by_cases hmem : 59 ∈ line.1
    · -- A name that is cut is not the one that was signed.
      obtain ⟨before, after, hname, hbefore⟩ := List.eq_append_cons_of_mem hmem
      refine iff_of_false (fun h => ?_) fun h => h.1.1 hmem
      rw [hname, List.append_assoc, List.cons_append,
        List.splitOn_append_cons_self_of_not_mem hbefore, List.flatMap_cons] at h
      simp only [headerLine, List.append_assoc, List.cons_append] at h
      exact absurd (List.cons.inj (List.append_cancel_left h)).1 (by decide)
    · by_cases hnil : lines = []
      · subst hnil
        rw [List.map_nil, if_pos rfl, List.append_nil, List.splitOn_eq_singleton hmem,
          List.flatMap_singleton, ← List.append_nil (headerLine line.1 (values line.1)),
          List.flatMap_nil, headerLine_append_inj (hvalues line.1) hline]
        simp [hmem]
      · rw [if_neg (by simpa using hnil), List.splitOn_append_cons_self_of_not_mem hmem,
          List.flatMap_cons, headerLine_append_inj (hvalues line.1) hline, ih hlines hnil]
        exact and_congr_left fun _ => ⟨fun h => ⟨hmem, h⟩, And.right⟩

end Headers

section Sent
variable {request : SignableRequest} {received : Received}

def Received.value (received : Received) (name : List ℕ) : Text :=
  [','].intercalate ((received.values name).map normalizeHeaderValue)

theorem newline_notMem_normalize (value : Text) : '\n' ∉ normalizeHeaderValue value := by
  intro hmem
  rcases mem_intercalate hmem with h | ⟨word, hword, h⟩
  · exact absurd h (by decide)
  · have hblank := Cut.not_of_mem_splitOnP (List.mem_of_mem_filter hword) '\n' h
    exact absurd hblank (by decide)

theorem newline_notMem_value (name : List ℕ) : 10 ∉ Uri.octets (received.value name) := by
  intro hmem
  have hchar : '\n' ∈ received.value name := (Uri.mem_octets_iff (by decide)).mp hmem
  rcases mem_intercalate hchar with h | ⟨value, hvalue, h⟩
  · exact absurd h (by decide)
  · obtain ⟨raw, -, rfl⟩ := List.mem_map.mp hvalue
    exact newline_notMem_normalize raw h

/-- A server reads the headers that were signed exactly when no name is cut, and each has the one
value that was signed. -/
theorem canonicalHeaders_iff (hhost : '\n' ∉ request.host) :
    ((Uri.octets (canonicalHeaders request).2).splitOn 59).flatMap received.header =
        Uri.octets (canonicalHeaders request).1 ↔
      ∀ pair ∈ signedPairs request, ';' ∉ pair.1 ∧ received.value (Uri.octets pair.1) = pair.2 := by
  have hsemicolon : (';' : Char).toNat < 128 := by decide
  have hnewline : ('\n' : Char).toNat < 128 := by decide
  have hline : ∀ name value, Uri.octets (name ++ ':' :: value ++ ['\n']) =
      headerLine (Uri.octets name) (Uri.octets value) := by
    intro name value
    rw [Uri.octets_append, Uri.octets_append, Uri.octets_cons_ascii (by decide)]
    rfl
  have hvalues : ∀ pair ∈ signedPairs request, '\n' ∉ pair.2 := by
    intro pair hpair
    rcases mem_signedPairs.mp hpair with ⟨-, header, -, rfl⟩ | rfl
    · exact newline_notMem_normalize header.2
    · exact hhost
  have hlines : ∀ line ∈ (signedPairs request).map QueryString.octets, 10 ∉ line.2 := by
    intro line hmem
    obtain ⟨pair, hpair, rfl⟩ := List.mem_map.mp hmem
    exact fun h => hvalues pair hpair ((Uri.mem_octets_iff hnewline).mp h)
  have hne : (signedPairs request).map QueryString.octets ≠ [] := by
    have hfull : ("host".toList, request.host) ∈ signedPairs request :=
      mem_signedPairs.mpr (.inr rfl)
    exact List.ne_nil_of_mem (List.mem_map_of_mem hfull)
  have hiff := headers_iff hlines (@newline_notMem_value received) hne
  have hnames : [59].intercalate (((signedPairs request).map QueryString.octets).map Prod.fst) =
      Uri.octets (canonicalHeaders request).2 := by
    rw [canonicalHeaders, Uri.octets_intercalate hsemicolon, List.map_map, List.map_map]
    rfl
  have hblock : (((signedPairs request).map QueryString.octets).flatMap fun line =>
      headerLine line.1 line.2) = Uri.octets (canonicalHeaders request).1 := by
    rw [List.flatMap_map, canonicalHeaders, Uri.octets, List.flatMap_assoc]
    exact List.flatMap_congr fun pair _ => (hline pair.1 pair.2).symm
  rw [hnames, hblock] at hiff
  refine hiff.trans (List.forall_mem_map.trans (forall₂_congr fun pair _ => ?_))
  exact and_congr (not_congr (Uri.mem_octets_iff hsemicolon))
    ⟨fun h => Uri.octets_injective h, congrArg Uri.octets⟩

end Sent
/-- What arrives when a URL is requested with the headers that were signed for it. -/
def SignableRequest.sentTo (request : SignableRequest) (u : Url) : Received :=
  ⟨request.method, u.pathText, u.query.getD [], ("host".toList, u.authority) :: request.headers⟩

/-- Headers whose names are written as they are signed, the host not among them. -/
def SignableRequest.Lower (request : SignableRequest) : Prop :=
  ∀ header ∈ request.headers, header.1.map Char.toLower = header.1 ∧ header.1 ≠ "host".toList

section Sent
variable {request : SignableRequest} {u : Url}

theorem value_host (hlower : request.Lower) :
    (request.sentTo u).value (Uri.octets "host".toList) = normalizeHeaderValue u.authority := by
  have hself : Uri.octets ("host".toList.map Char.toLower) = Uri.octets "host".toList := by decide
  have hnone : request.headers.filter (fun header =>
      Uri.octets (header.1.map Char.toLower) = Uri.octets "host".toList) = [] := by
    refine List.filter_eq_nil_iff.mpr fun header hheader h => ?_
    obtain ⟨hname, hother⟩ := hlower header hheader
    rw [hname] at h
    exact hother (Uri.octets_injective (of_decide_eq_true h))
  rw [Received.value, Received.values, SignableRequest.sentTo]
  simp only [List.filter_cons, hself, decide_true, if_true, hnone]
  simp

theorem value_header (hlower : request.Lower) {name : Text} (hname : name ≠ "host".toList) :
    (request.sentTo u).value (Uri.octets name) = [','].intercalate
      ((request.headers.filter fun header => header.1 = name).map fun header =>
        normalizeHeaderValue header.2) := by
  have hhost : "host".toList.map Char.toLower = "host".toList := by decide
  have hfirst :
      ¬ decide (Uri.octets ("host".toList.map Char.toLower) = Uri.octets name) = true := by
    rw [hhost]
    exact fun h => hname (Uri.octets_injective (of_decide_eq_true h)).symm
  have hrest : request.headers.filter (fun header =>
      Uri.octets (header.1.map Char.toLower) = Uri.octets name) =
        request.headers.filter fun header => header.1 = name := by
    refine List.filter_congr fun header hheader => ?_
    rw [(hlower header hheader).1]
    exact decide_eq_decide.mpr ⟨fun h => Uri.octets_injective h, congrArg Uri.octets⟩
  rw [Received.value, Received.values, SignableRequest.sentTo]
  simp only [List.filter_cons, hfirst, hrest, List.map_map]
  rfl

theorem length_intercalate (c : Char) {texts : List Text} (hne : texts ≠ []) :
    ([c].intercalate texts).length + 1 = (texts.map fun text => text.length + 1).sum := by
  induction texts with
  | nil => exact absurd rfl hne
  | cons text texts ih =>
    cases texts with
    | nil => simp
    | cons next texts =>
      have hrest := ih (List.cons_ne_nil _ _)
      rw [List.intercalate_cons_cons, List.map_cons, List.sum_cons, ← hrest]
      simp only [List.length_append, List.length_singleton]
      omega

theorem nodup_of_values (hvalues : ∀ header ∈ request.headers, [','].intercalate
    ((request.headers.filter fun other => other.1 = header.1).map fun other =>
      normalizeHeaderValue other.2) = normalizeHeaderValue header.2) :
    (request.headers.map Prod.fst).Nodup := by
  rw [List.nodup_iff_sublist]
  intro name hsub
  obtain ⟨twice, htwice, hnames⟩ := List.sublist_map_iff.mp hsub
  obtain ⟨first, second, rfl⟩ : ∃ first second, twice = [first, second] := by
    have hlength := congrArg List.length hnames
    rw [List.length_map] at hlength
    exact List.length_eq_two.mp hlength.symm
  simp only [List.map_cons, List.map_nil, List.cons.injEq, and_true] at hnames
  obtain ⟨hfirst, hsecond⟩ := hnames
  have hboth : [first, second].Sublist (request.headers.filter fun other => other.1 = first.1) := by
    have hfilter := htwice.filter fun other : Pair => other.1 = first.1
    simpa [← hfirst, ← hsecond] using hfilter
  have hmem : first ∈ request.headers := htwice.subset (by simp)
  have htexts := hboth.map fun other => normalizeHeaderValue other.2
  have hsum := (htexts.map fun text => text.length + 1).sum_le_sum fun n _ => Nat.zero_le n
  have hfull : (request.headers.filter fun other => other.1 = first.1).map
      (fun other => normalizeHeaderValue other.2) ≠ [] :=
    List.ne_nil_of_mem (htexts.subset List.mem_cons_self)
  rw [← length_intercalate ',' hfull, hvalues first hmem] at hsum
  simp only [List.map_cons, List.map_nil, List.sum_cons, List.sum_nil] at hsum
  omega

/-- The headers of a request are read as they were signed exactly when the host is the one that was
signed, and no name is cut or shared. -/
theorem sentTo_headers_iff (hlower : request.Lower) (hhost : '\n' ∉ request.host)
    (hauthority : normalizeHeaderValue u.authority = u.authority) :
    ((Uri.octets (canonicalHeaders request).2).splitOn 59).flatMap (request.sentTo u).header =
        Uri.octets (canonicalHeaders request).1 ↔
      u.authority = request.host ∧ (request.headers.map Prod.fst).Nodup ∧
        ∀ header ∈ request.headers, ';' ∉ header.1 := by
  have hsigned : ∀ header ∈ request.headers,
      (header.1, normalizeHeaderValue header.2) ∈ signedPairs request := by
    intro header hheader
    obtain ⟨hname, hother⟩ := hlower header hheader
    exact mem_signedPairs.mpr (.inl ⟨hother, header, hheader, by rw [hname]⟩)
  rw [canonicalHeaders_iff hhost]
  constructor
  · intro h
    have hfirst := (h _ (mem_signedPairs.mpr (.inr rfl))).2
    rw [value_host hlower, hauthority] at hfirst
    refine ⟨hfirst, nodup_of_values fun header hheader => ?_, fun header hheader =>
      (h _ (hsigned header hheader)).1⟩
    rw [← value_header (u := u) hlower (hlower header hheader).2]
    exact (h _ (hsigned header hheader)).2
  · rintro ⟨hfirst, hnodup, hnames⟩ pair hpair
    rcases mem_signedPairs.mp hpair with ⟨hother, header, hheader, rfl⟩ | rfl
    · have hname := (hlower header hheader).1
      simp only [hname] at hother ⊢
      refine ⟨hnames header hheader, ?_⟩
      have hmem : (header.1, header.2) ∈ request.headers := hheader
      rw [value_header hlower hother, filter_of_nodup hnodup hmem]
      simp
    · have hfree : ';' ∉ "host".toList := by decide
      refine ⟨hfree, ?_⟩
      rw [value_host hlower, hauthority, hfirst]

end Sent

section Recomputed
variable {crypto : Crypto} {request : SignableRequest} {credentials : Credentials} {scope : Scope}
variable {received : Received} {expiresIn : ℕ} {includeContentSha256 : Bool} {signature : Text}

theorem newline_notMem_canonicalPath (path : Text) :
    10 ∉ Uri.octets (Server.canonicalPath path) := by
  intro hmem
  exact Uri.notMem_encodeOctets (by decide) (by decide)
    (fun _ hn => Signing.keeps_path.ofNat_ne (by decide) hn) (Uri.decodeOctets_lt path)
    ((Uri.mem_octets_iff (c := '\n') (by decide)).mp hmem)

theorem request_onPath (path : Text) (pairs : List (List ℕ × List ℕ)) (names payload : List ℕ) :
    Server.request (received.onPath path) pairs names payload =
      Server.lines [Uri.octets received.method, Uri.octets path, Uri.octets (Server.query pairs),
        (names.splitOn 59).flatMap received.header, names, payload] := rfl

theorem request_octets_iff (hmethod : received.method = request.method)
    (hpath : '\n' ∉ request.path) (query : List Pair) {pairs : List (List ℕ × List ℕ)}
    (hpairs : pairs.Perm (query.map QueryString.octets)) (block names payload : Text) :
    Server.request (received.onPath (Server.canonicalPath received.path)) pairs
        (Uri.octets names) (Uri.octets payload) =
      Uri.octets (canonicalRequest request.method request.path (canonicalQuery query) block names
        payload) ↔
      Server.canonicalPath received.path = request.path ∧
        ((Uri.octets names).splitOn 59).flatMap received.header = Uri.octets block := by
  have hnewline : ∀ text, Uri.octets ('\n' :: text) = 10 :: Uri.octets text :=
    Uri.octets_cons_ascii (by decide)
  simp only [request_onPath, Server.lines, canonicalRequest, query_octets query hpairs, hmethod,
    List.intercalate_cons_cons, List.intercalate_singleton, Uri.octets_append, hnewline,
    List.append_assoc, List.cons_append, List.nil_append]
  constructor
  · intro h
    have hrest := (List.cons.inj (List.append_cancel_left h)).2
    obtain ⟨hsame, hrest⟩ := Cut.append_cons_inj_left (newline_notMem_canonicalPath _)
      (fun hmem => hpath ((Uri.mem_octets_iff (by decide)).mp hmem)) hrest
    refine ⟨Uri.octets_injective hsame, ?_⟩
    exact List.append_cancel_right (List.cons.inj (List.append_cancel_left hrest)).2
  · rintro ⟨hsame, hblock⟩
    rw [hsame, hblock]

theorem stringToSign_octets (request : SignableRequest) (credentials : Credentials)
    (expiresIn : ℕ) (includeContentSha256 : Bool) :
    (serverFor crypto credentials scope).stringToSign (Uri.octets (amzDates scope.time).1.toList)
        (Uri.octets (signedText request credentials scope expiresIn includeContentSha256)) =
      Uri.octets (stringToSign crypto request credentials scope expiresIn
        includeContentSha256) := by
  rw [Server.stringToSign, dayOf_amzDates, scope_octets, bytesOf_octets]
  exact lines_octets _ _ _

theorem recompute_iff (hplain : Plain request.query) (hmethod : received.method = request.method)
    (hpath : '\n' ∉ request.path)
    (hquery : received.query = renderQuery
      (presignedQuery request credentials scope expiresIn includeContentSha256 ++
        [("X-Amz-Signature".toList, signature)])) :
    (serverFor crypto credentials scope).recompute received =
        some (Uri.octets (signedText request credentials scope expiresIn includeContentSha256),
          Uri.octets (stringToSign crypto request credentials scope expiresIn
            includeContentSha256)) ↔
      Server.canonicalPath received.path = request.path ∧
        ((Uri.octets (canonicalHeaders request).2).splitOn 59).flatMap received.header =
          Uri.octets (canonicalHeaders request).1 := by
  have hread : QueryString.read (renderQuery
      (presignedQuery request credentials scope expiresIn includeContentSha256 ++
        [("X-Amz-Signature".toList, signature)])) =
      (presignedQuery request credentials scope expiresIn includeContentSha256 ++
        [("X-Amz-Signature".toList, signature)]).map QueryString.octets :=
    read_presigned hplain expiresIn includeContentSha256 signature
  obtain ⟨-, hcredential, hdate, -, hnames, -⟩ := single_presigned hplain
    (List.Perm.of_eq hread)
  have hpairs := unsigned_perm hplain (List.Perm.of_eq hread)
  have hslash : ∀ text, Uri.octets ('/' :: text) = 47 :: Uri.octets text :=
    Uri.octets_cons_ascii (by decide)
  have hkey : Uri.octets (credential credentials scope (amzDates scope.time).2.toList) =
      Uri.octets (serverFor crypto credentials scope).accessKeyId ++ 47 ::
        (serverFor crypto credentials scope).scope
          (Server.dayOf (Uri.octets (amzDates scope.time).1.toList)) := by
    rw [dayOf_amzDates, scope_octets, credential, Uri.octets_append, hslash]
    rfl
  rw [← hquery] at hcredential hdate hnames hpairs
  rw [Server.recompute]
  simp only [hcredential, hdate, hnames]
  rw [if_pos hkey, ← request_octets_iff hmethod hpath _ hpairs _ _ unsignedPayload]
  constructor
  · intro h
    exact (Prod.mk.inj (Option.some.inj h)).1
  · intro h
    have htext : Uri.octets (canonicalRequest request.method request.path
        (canonicalQuery (presignedQuery request credentials scope expiresIn includeContentSha256))
        (canonicalHeaders request).1 (canonicalHeaders request).2 unsignedPayload) =
        Uri.octets (signedText request credentials scope expiresIn includeContentSha256) := rfl
    rw [h, htext, stringToSign_octets]

end Recomputed
end Beam.Rust.SigV4
