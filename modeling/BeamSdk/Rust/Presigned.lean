import BeamSdk.Rust.PartsXml
import BeamSdk.Rust.SigV4

/-! What the Rust SDK signs is accepted by a server that has the secret, whatever else carries it
there. -/

namespace Beam.Rust.SigV4
open QueryString (Pair)
open Signing (isUnreserved)

theorem separates_unreserved : QueryString.Separates isUnreserved where
  ascii n h := by
    simp only [isUnreserved, Signing.isAlphanumeric, Bool.or_eq_true, Bool.and_eq_true,
      decide_eq_true_eq, beq_iff_eq] at h
    omega
  percent := by decide
  ampersand := by decide
  equals := by decide

theorem bytesOf_octets (text : Text) : bytesOf (Uri.octets text) = utf8 text := by
  rw [Uri.octets_eq, bytesOf, List.map_map]
  exact (List.map_congr_left fun b _ => UInt8.ofNat_toNat).trans (List.map_id _)

theorem sortKey_injective {a b : Pair} (h : sortKey a = sortKey b) : a = b := by
  obtain ⟨hname, hvalue⟩ := Prod.mk.inj (toLex.injective h)
  exact Prod.ext (Uri.octets_injective hname) (Uri.octets_injective hvalue)

instance : Std.Total fun a b : Pair => sortKey a ≤ sortKey b :=
    ⟨fun a b => le_total (sortKey a) (sortKey b)⟩

instance : IsTrans Pair fun a b => sortKey a ≤ sortKey b := ⟨fun _ _ _ => le_trans⟩

theorem sort_perm (pairs : List Pair) : (sort pairs).Perm pairs := List.perm_insertionSort _ pairs

theorem sort_eq_sort {pairs pairs' : List Pair} (h : pairs.Perm pairs') :
    sort pairs = sort pairs' := by
  have hsorted : ∀ pairs : List Pair, (sort pairs).Pairwise fun a b => sortKey a ≤ sortKey b :=
    fun pairs => List.pairwise_insertionSort _ pairs
  exact List.Perm.eq_of_pairwise (fun a b _ _ hab hba => sortKey_injective (le_antisymm hab hba))
    (hsorted pairs)
    (hsorted pairs') ((sort_perm pairs).trans (h.trans (sort_perm pairs').symm))

def serverFor (crypto : Crypto) (credentials : Credentials) (scope : Scope) : Server :=
  ⟨crypto, credentials.accessKeyId, credentials.secretAccessKey, scope.region, scope.service⟩

theorem query_octets (query : List Pair) {pairs : List (List ℕ × List ℕ)}
    (h : pairs.Perm (query.map QueryString.octets)) :
    Server.query pairs = canonicalQuery query := by
  have hescaped : (pairs.map fun pair =>
      (pair.1.flatMap (Uri.encodeOctet isUnreserved),
        pair.2.flatMap (Uri.encodeOctet isUnreserved))).Perm
      (query.map fun pair => (uriEncode pair.1 false, uriEncode pair.2 false)) := by
    refine (h.map _).trans (List.Perm.of_eq ?_)
    rw [List.map_map]
    rfl
  rw [Server.query, canonicalQuery, sort_eq_sort hescaped]

section
variable {crypto : Crypto} {credentials : Credentials} {scope : Scope}

theorem scope_octets (date : Text) :
    (serverFor crypto credentials scope).scope (Uri.octets date) =
      Uri.octets (credentialScope scope date) := by
  have hslash : ∀ text, Uri.octets ('/' :: text) = 47 :: Uri.octets text :=
    Uri.octets_cons_ascii (by decide)
  have hlast : Uri.octets "/aws4_request".toList = 47 :: Uri.octets "aws4_request".toList := by
    decide
  simp only [Server.scope, serverFor, credentialScope, List.intercalate_cons_cons,
    List.intercalate_singleton, Uri.octets_append,
    hslash, hlast, List.append_assoc, List.nil_append, List.cons_append]

theorem lines_octets (amzDate date request : Text) :
    Server.lines [Uri.octets "AWS4-HMAC-SHA256".toList, Uri.octets amzDate,
        Uri.octets (credentialScope scope date),
        Uri.octets (Identity.hex (crypto.sha256 (utf8 request)))] =
      Uri.octets ("AWS4-HMAC-SHA256\n".toList ++ amzDate ++ '\n' :: credentialScope scope date ++
        '\n' :: Identity.hex (crypto.sha256 (utf8 request))) := by
  have hnewline : ∀ text, Uri.octets ('\n' :: text) = 10 :: Uri.octets text :=
    Uri.octets_cons_ascii (by decide)
  have hfirst : Uri.octets "AWS4-HMAC-SHA256\n".toList = Uri.octets "AWS4-HMAC-SHA256".toList ++
      [10] := by decide
  simp only [Server.lines, List.intercalate_cons_cons, List.intercalate_singleton,
    Uri.octets_append, hnewline, hfirst, List.append_assoc, List.nil_append, List.cons_append]

theorem sign_octets (amzDate date request : Text) :
    (serverFor crypto credentials scope).sign (Uri.octets amzDate) (Uri.octets date)
    (Uri.octets request) =
      Uri.octets (signature crypto credentials scope amzDate date request) := by
  simp only [Server.sign, Server.key, signature, scope_octets, List.foldl_cons, List.foldl_nil,
    bytesOf_octets]
  rw [show (serverFor crypto credentials scope).crypto = crypto from rfl, lines_octets,
    bytesOf_octets]
  rfl

end

def SeparableName (name : Text) : Prop :=
  name.map Char.toLower ≠ "host".toList ∧ ';' ∉ name.map Char.toLower ∧ ',' ∉ name.map Char.toLower

instance (name : Text) : Decidable (SeparableName name) := inferInstanceAs (Decidable (_ ∧ _ ∧ _))

structure SignableRequest.HeadersApart (request : SignableRequest) : Prop where
  host : normalizeHeaderValue request.host = request.host
  named : ∀ header ∈ request.headers, SeparableName header.1

/-- A request that arrives: perhaps with other headers besides, and in another order. -/
structure Carries (received : Received) (request : SignableRequest) : Prop where
  method : received.method = request.method
  path : received.path = request.path
  host : received.values (Uri.octets "host".toList) = [request.host]
  headers : ∀ header ∈ request.headers,
    received.values (Uri.octets (header.1.map Char.toLower)) = [header.2]

theorem mem_intercalate {c separator : Char} {texts : List Text}
    (h : c ∈ [separator].intercalate texts) :
    c = separator ∨ ∃ text ∈ texts, c ∈ text := by
  induction texts with
  | nil => exact absurd h List.not_mem_nil
  | cons text texts ih =>
    cases texts with
    | nil => exact .inr ⟨text, List.mem_cons_self, by simpa using h⟩
    | cons next texts =>
      rw [List.intercalate_cons_cons, List.mem_append, List.mem_append, List.mem_singleton] at h
      rcases h with (h | h) | h
      · exact .inr ⟨text, List.mem_cons_self, h⟩
      · exact .inl h
      · rcases ih h with he | ⟨found, hfound, hmem⟩
        · exact .inl he
        · exact .inr ⟨found, List.mem_cons_of_mem _ hfound, hmem⟩

section
variable {request : SignableRequest} {received : Received}

theorem mem_signedPairs {pair : Pair} : pair ∈ signedPairs request ↔
    (pair.1 ≠ "host".toList ∧ ∃ header ∈ request.headers,
      pair = (header.1.map Char.toLower, normalizeHeaderValue header.2)) ∨
      pair = ("host".toList, request.host) := by
  rw [signedPairs, (sort_perm _).mem_iff, List.mem_append, List.mem_filter, List.mem_map,
    List.mem_singleton, decide_eq_true_eq]
  refine or_congr ⟨fun h => ?_, fun h => ?_⟩ Iff.rfl
  · obtain ⟨⟨header, hheader, rfl⟩, hname⟩ := h
    exact ⟨hname, header, hheader, rfl⟩
  · obtain ⟨hname, header, hheader, rfl⟩ := h
    exact ⟨⟨header, hheader, rfl⟩, hname⟩

theorem received_header (hproper : request.HeadersApart) (hcarries : Carries received request)
    {pair : Pair}
    (h : pair ∈ signedPairs request) :
    received.header (Uri.octets pair.1) = Uri.octets (pair.1 ++ ':' :: pair.2 ++ ['\n']) := by
  have hcolon : ∀ text, Uri.octets (':' :: text) = 58 :: Uri.octets text :=
    Uri.octets_cons_ascii (by decide)
  have hnewline : Uri.octets ['\n'] = [10] := by decide
  have hvalue : [','].intercalate ((received.values (Uri.octets pair.1)).map normalizeHeaderValue) =
      pair.2 := by
    rcases mem_signedPairs.mp h with ⟨-, header, hheader, rfl⟩ | rfl
    · rw [hcarries.headers header hheader]
      simp
    · rw [hcarries.host, List.map_singleton, hproper.host]
      simp
  rw [Received.header, hvalue, Uri.octets_append, Uri.octets_append, hcolon, hnewline]

theorem splitOn_names (hproper : request.HeadersApart) :
    (Uri.octets (canonicalHeaders request).2).splitOn 59 = (signedPairs request).map fun pair =>
      Uri.octets pair.1 := by
  have hsemicolon : (';' : Char).toNat < 128 := by decide
  have hhost : ("host".toList, request.host) ∈ signedPairs request := mem_signedPairs.mpr (.inr rfl)
  have hfree : ∀ name ∈ (signedPairs request).map (Uri.octets ∘ Prod.fst), 59 ∉ name := by
    intro name hname
    obtain ⟨pair, hpair, rfl⟩ := List.mem_map.mp hname
    intro hmem
    have hin : ';' ∈ pair.1 := (Uri.mem_octets_iff hsemicolon).mp hmem
    rcases mem_signedPairs.mp hpair with ⟨-, header, hheader, rfl⟩ | rfl
    · exact (hproper.named header hheader).2.1 hin
    · have hnone : ';' ∉ "host".toList := by decide
      exact hnone hin
  rw [canonicalHeaders, Uri.octets_intercalate hsemicolon, List.map_map]
  refine List.splitOn_intercalate _ hfree ?_
  exact List.ne_nil_of_mem (List.mem_map_of_mem hhost)

theorem flatMap_header (hproper : request.HeadersApart) (hcarries : Carries received request) :
    ((Uri.octets (canonicalHeaders request).2).splitOn 59).flatMap received.header =
      Uri.octets (canonicalHeaders request).1 := by
  rw [splitOn_names hproper, List.flatMap_map, canonicalHeaders, Uri.octets, List.flatMap_assoc]
  exact List.flatMap_congr fun pair hpair => received_header hproper hcarries hpair

theorem request_octets (hproper : request.HeadersApart) (hcarries : Carries received request)
    (query : List Pair)
    {pairs : List (List ℕ × List ℕ)} (hpairs : pairs.Perm (query.map QueryString.octets))
    (payload : Text) :
    Server.request received pairs (Uri.octets (canonicalHeaders request).2) (Uri.octets payload) =
      Uri.octets (canonicalRequest request.method request.path (canonicalQuery query)
        (canonicalHeaders request).1
        (canonicalHeaders request).2 payload) := by
  have hnewline : ∀ text, Uri.octets ('\n' :: text) = 10 :: Uri.octets text :=
    Uri.octets_cons_ascii (by decide)
  simp only [Server.request, Server.lines, canonicalRequest, query_octets query hpairs,
    flatMap_header hproper hcarries,
    hcarries.method, hcarries.path, List.intercalate_cons_cons, List.intercalate_singleton,
      Uri.octets_append, hnewline,
    List.append_assoc, List.nil_append, List.cons_append]

end

theorem notMem_padded {c : Char} (hsign : c ≠ '-') (hdigit : c.isDigit = false) (width : ℕ)
    (value : ℤ) :
    c ∉ (padded width value).toList := by
  have hzeros : ∀ n, c ∉ List.replicate n '0' := by
    intro n hmem
    have heq := List.eq_of_mem_replicate hmem
    subst heq
    exact absurd hdigit (by decide)
  have hdigits : c ∉ (toString value.natAbs).toList := by
    intro hmem
    have htext : (toString value.natAbs).toList = Nat.toDigits 10 value.natAbs := Nat.toList_repr
    rw [htext] at hmem
    rw [Nat.isDigit_of_mem_toDigits (by decide) (by decide) hmem] at hdigit
    cases hdigit
  have hminus : c ∉ (if value < 0 then "-" else "").toList := by
    split_ifs
    · exact fun h => hsign (List.mem_singleton.mp h)
    · exact List.not_mem_nil
  simp only [padded, String.toList_append, String.toList_ofList, List.mem_append, not_or]
  exact ⟨⟨hminus, hzeros _⟩, hdigits⟩

theorem toList_amzDate (time : CivilTime) : time.amzDate.toList = time.date.toList ++
    'T' :: ((padded 2 time.hour).toList ++
      ((padded 2 time.minute).toList ++ ((padded 2 time.second).toList ++ ['Z']))) := by
  have hform : time.amzDate =
      time.date ++ "T" ++ padded 2 time.hour ++ padded 2 time.minute ++
        padded 2 time.second ++ "Z" := rfl
  have hT : "T".toList = ['T'] := by decide
  have hZ : "Z".toList = ['Z'] := by decide
  simp only [hform, String.toList_append, hT, hZ, List.append_assoc, List.cons_append,
    List.nil_append]

theorem notMem_date {c : Char} (hsign : c ≠ '-') (hdigit : c.isDigit = false) (instant : ℤ) :
    c ∉ (amzDates instant).2.toList := by
  simp only [amzDates, CivilTime.date, String.toList_append, List.mem_append, not_or]
  refine ⟨⟨?_, ?_⟩, ?_⟩ <;> exact notMem_padded hsign hdigit _ _

theorem dayOf_amzDates (instant : ℤ) :
    Server.dayOf (Uri.octets (amzDates instant).1.toList) =
      Uri.octets (amzDates instant).2.toList := by
  have hT : ('T' : Char).toNat < 128 := by decide
  have hfree : 'T' ∉ (amzDates instant).2.toList := notMem_date (by decide) (by decide) instant
  have hpass : ∀ n ∈ Uri.octets (amzDates instant).2.toList, decide (n ≠ 84) = true := by
    intro n hn
    refine decide_eq_true fun he => hfree ?_
    subst he
    exact (Uri.mem_octets_iff hT).mp hn
  have hform := toList_amzDate (civilTime (sinceEpoch instant / Expiry.secondNanos))
  rw [show (amzDates instant).1 =
    (civilTime (sinceEpoch instant / Expiry.secondNanos)).amzDate from rfl, hform,
    Uri.octets_append, Uri.octets_cons_ascii hT, Server.dayOf]
  exact (List.takeWhile_append_of_pos hpass).trans
    (by rw [List.takeWhile_cons_of_neg (by decide), List.append_nil])

theorem padded_natCast (width n : ℕ) : (padded width (n : ℤ)).toList =
    List.replicate (width - (Nat.toDigits 10 n).length) '0' ++ Nat.toDigits 10 n := by
  have hdigits : (toString n).toList = Nat.toDigits 10 n := Nat.toList_repr
  have hcount : (toString n).length = (Nat.toDigits 10 n).length := by
    rw [← String.length_toList, hdigits]
  have hsign : ¬ (n : ℤ) < 0 := Int.not_lt.mpr (Int.natCast_nonneg n)
  have hnone : "".length = 0 ∧ "".toList = [] := by decide
  simp only [padded, if_neg hsign, Int.natAbs_natCast, String.toList_append, String.toList_ofList,
    hdigits, hcount, hnone.1,
    hnone.2, Nat.sub_zero, List.nil_append]

theorem isDigit_padded {width n : ℕ} {c : Char} (hc : c ∈ (padded width (n : ℤ)).toList) :
    c.isDigit = true := by
  rw [padded_natCast, List.mem_append] at hc
  rcases hc with hc | hc
  · rw [List.eq_of_mem_replicate hc]
    decide
  · exact Nat.isDigit_of_mem_toDigits (by decide) (by decide) hc

theorem octets_digits {text : Text} (h : ∀ c ∈ text, c.isDigit = true) :
    Uri.octets text = text.map Char.toNat := by
  induction text with
  | nil => rfl
  | cons c text ih =>
    have hrange := Char.isDigit_iff_toNat.mp (h c List.mem_cons_self)
    have hhigh : c.toNat ≤ 57 := hrange.2
    rw [Uri.octets_cons_ascii (by omega), ih fun d hd =>
      h d (List.mem_cons_of_mem c hd), List.map_cons]

theorem decimal_digits {text : Text} (hne : text ≠ []) (h : ∀ c ∈ text, c.isDigit = true) :
    Server.decimal (Uri.octets text) = some (Nat.ofDigitChars 10 text 0) := by
  have hread : (Uri.octets text).map Char.ofNat = text := by
    rw [octets_digits h, List.map_map]
    exact (List.map_congr_left fun c _ => Char.ofNat_toNat c).trans (List.map_id _)
  rw [Server.decimal, hread]
  exact if_pos ⟨List.isEmpty_eq_false_iff.mpr hne, List.all_eq_true.mpr h⟩

theorem decimal_padded (width n : ℕ) : Server.decimal (Uri.octets (padded width (n : ℤ)).toList) =
    some n := by
  have hne : (padded width (n : ℤ)).toList ≠ [] := by
    rw [padded_natCast]
    exact List.append_ne_nil_of_right_ne_nil _ Nat.toDigits_ne_nil
  rw [decimal_digits hne fun c => isDigit_padded, padded_natCast, Nat.ofDigitChars_append,
    Nat.ofDigitChars_replicate_zero,
    Nat.mul_zero, Nat.ofDigitChars_ten_toDigits]

theorem length_padded {width n : ℕ} (hwidth : 0 < width) (h : n < 10 ^ width) :
    (Uri.octets (padded width (n : ℤ)).toList).length = width := by
  have hlength : (Nat.toDigits 10 n).length ≤ width :=
    (Nat.length_toDigits_le_iff (by decide) hwidth).mpr h
  rw [octets_digits fun c => isDigit_padded, List.length_map, padded_natCast, List.length_append,
    List.length_replicate]
  omega

theorem twoDigits_padded {n : ℕ} (h : n < 100) (rest : List ℕ) :
    Server.twoDigits (Uri.octets (padded 2 (n : ℤ)).toList ++ rest) = some (n, rest) := by
  have hlength := length_padded (by decide : 0 < 2) h
  rw [Server.twoDigits, List.take_left' hlength, List.drop_left' hlength, decimal_padded]
  rfl

theorem year_nonneg {time : CivilTime} (h : time.Valid) (hseconds : 0 ≤ time.seconds) :
    0 ≤ time.year := by
  by_contra hearly
  have hbegin : Calendar.Valid 1970 1 1 := by decide
  have hzero : Calendar.dayNumber 1970 1 1 = 0 := by decide
  have hday := h.date.dayNumber_lt hbegin (.inl (by omega))
  obtain ⟨-, hhour, hminute, hsecond⟩ := h
  unfold CivilTime.seconds at hseconds
  omega

theorem readDate_amzDate {time : CivilTime} (h : time.Valid) (hseconds : 0 ≤ time.seconds)
    (hday : Server.dayOf (Uri.octets time.amzDate.toList) = Uri.octets time.date.toList) :
    Server.readDate (Uri.octets time.amzDate.toList) = some time.seconds := by
  have hyear := year_nonneg h hseconds
  have hmonth : time.month ≤ 12 := h.date.inYear.2
  have hlast : time.day ≤ 31 := by
    refine le_trans h.date.inMonth.2 ?_
    unfold Calendar.monthLength
    split
    · split <;> omega
    all_goals omega
  obtain ⟨hfirstMonth, hfirstDay, hhour, hminute, hsecond⟩ :
      1 ≤ time.month ∧ 1 ≤ time.day ∧ time.hour ≤ 23 ∧ time.minute ≤ 59 ∧ time.second ≤ 59 :=
    ⟨h.date.inYear.1, h.date.inMonth.1, h.hour.2, h.minute.2, h.second.2⟩
  have hhour0 := h.hour.1
  have hminute0 := h.minute.1
  have hsecond0 := h.second.1
  obtain ⟨year, month, day, hour, minute, second⟩ := time
  simp only at hyear hmonth hlast hfirstMonth hfirstDay
  simp only at hhour hminute hsecond hhour0 hminute0 hsecond0
  lift year to ℕ using hyear
  lift month to ℕ using by omega
  lift day to ℕ using by omega
  lift hour to ℕ using hhour0
  lift minute to ℕ using hminute0
  lift second to ℕ using hsecond0
  have hT : ('T' : Char).toNat < 128 := by decide
  have hdate : Uri.octets (CivilTime.date ⟨year, month, day, hour, minute, second⟩).toList =
      Uri.octets (padded 4 year).toList ++
        (Uri.octets (padded 2 month).toList ++ Uri.octets (padded 2 day).toList) := by
    simp only [CivilTime.date, String.toList_append, Uri.octets_append, List.append_assoc]
  have htext : Uri.octets (CivilTime.amzDate ⟨year, month, day, hour, minute, second⟩).toList =
      Uri.octets (padded 4 year).toList ++
        (Uri.octets (padded 2 month).toList ++ (Uri.octets (padded 2 day).toList ++
        84 :: (Uri.octets (padded 2 hour).toList ++ (Uri.octets (padded 2 minute).toList ++
          (Uri.octets (padded 2 second).toList ++ [90]))))) := by
    rw [toList_amzDate, Uri.octets_append, Uri.octets_cons_ascii hT, hdate]
    simp only [Uri.octets_append, List.append_assoc]
    rfl
  have hdigits :
      (Server.dayOf
        (Uri.octets (CivilTime.amzDate ⟨year, month, day, hour, minute, second⟩).toList)).length -
        4 =
      (Uri.octets (padded 4 year).toList).length := by
    have hmonthLength := length_padded (by decide : 0 < 2) (show month < 10 ^ 2 by omega)
    have hdayLength := length_padded (by decide : 0 < 2) (show day < 10 ^ 2 by omega)
    rw [hday, hdate, List.length_append, List.length_append, hmonthLength, hdayLength]
    omega
  rw [Server.readDate, hdigits, htext, List.take_left, List.drop_left, decimal_padded]
  simp only [Option.bind_eq_bind, Option.bind_some, twoDigits_padded (show month < 100 by omega),
    twoDigits_padded (show day < 100 by omega), List.drop_succ_cons, List.drop_zero,
    twoDigits_padded (show hour < 100 by omega), twoDigits_padded (show minute < 100 by omega),
    twoDigits_padded (show second < 100 by omega), true_and]
  exact if_pos h

theorem readDate_amzDates (instant : ℤ) :
    Server.readDate (Uri.octets (amzDates instant).1.toList) =
      some (sinceEpoch instant / Expiry.secondNanos) := by
  have hnonneg : 0 ≤ sinceEpoch instant / Expiry.secondNanos :=
    Int.ediv_nonneg (le_max_right _ _) (Int.natCast_nonneg _)
  have hseconds := seconds_civilTime hnonneg
  have hread := readDate_amzDate (civilTime_valid hnonneg) (hnonneg.trans_eq hseconds.symm)
    (dayOf_amzDates instant)
  rwa [hseconds] at hread

theorem holds_presigned {instant clock : ℤ} {expiresIn : ℕ} (hweek : expiresIn ≤ maxPresignExpires)
    (hstart : sinceEpoch instant / Expiry.secondNanos ≤ clock)
    (hend : clock < sinceEpoch instant / Expiry.secondNanos +
      max (expiresIn / Expiry.secondNanos) 1) :
    Server.holds (Uri.octets (amzDates instant).1.toList)
      (Uri.octets (toString (max (expiresIn / Expiry.secondNanos) 1)).toList) clock = true := by
  have hlong : max (expiresIn / Expiry.secondNanos) 1 ≤ 7 * 86400 := by
    have hdiv := Nat.div_le_div_right (c := Expiry.secondNanos) hweek
    unfold maxPresignExpires at hdiv
    rw [Nat.mul_div_cancel _ (by decide)] at hdiv
    omega
  have hdecimal :
      Server.decimal (Uri.octets (toString (max (expiresIn / Expiry.secondNanos) 1)).toList) =
      some (max (expiresIn / Expiry.secondNanos) 1) := by
    have htext : (toString (max (expiresIn / Expiry.secondNanos) 1)).toList =
        Nat.toDigits 10 (max (expiresIn / Expiry.secondNanos) 1) := Nat.toList_repr
    rw [htext, decimal_digits Nat.toDigits_ne_nil fun c =>
      Nat.isDigit_of_mem_toDigits (by decide) (by decide),
      Nat.ofDigitChars_ten_toDigits]
  have hsome : 1 ≤ max (expiresIn / Expiry.secondNanos) 1 := le_max_right _ _
  rw [Server.holds, readDate_amzDates, hdecimal]
  simp only [Bool.and_eq_true, decide_eq_true_eq]
  exact ⟨⟨⟨hsome, hlong⟩, hstart⟩, hend⟩

theorem single_eq {pairs : List (List ℕ × List ℕ)} {query : List Pair}
    (h : pairs.Perm (query.map QueryString.octets))
    {name value : Text} (honly : query.filter (fun pair => pair.1 = name) = [(name, value)]) :
    single pairs name = some (Uri.octets value) := by
  have hread : (query.map QueryString.octets).filter (fun pair => pair.1 = Uri.octets name) =
      (query.filter fun pair => pair.1 = name).map QueryString.octets := by
    rw [List.filter_map]
    refine congrArg _ (List.filter_congr fun pair _ => ?_)
    exact decide_eq_decide.mpr ⟨Uri.octets_injective, fun he => congrArg Uri.octets he⟩
  have hvalues :
      ((pairs.filter fun pair => pair.1 = Uri.octets name).map Prod.snd).Perm [Uri.octets
        value] := by
    refine ((h.filter _).map _).trans (List.Perm.of_eq ?_)
    rw [hread, honly]
    rfl
  rw [single, List.perm_singleton.mp hvalues]

section
variable {crypto : Crypto} {credentials : Credentials} {scope : Scope} {request : SignableRequest}
    {received : Received}

theorem checks_signature (crypto : Crypto) (credentials : Credentials) (scope : Scope)
    (hproper : request.HeadersApart)
    (hcarries : Carries received request) (query : List Pair) {pairs : List (List ℕ × List ℕ)}
    (hpairs : pairs.Perm (query.map QueryString.octets)) (payload : Text) :
    (serverFor crypto credentials scope).checks received pairs
      (Uri.octets (credential credentials scope (amzDates scope.time).2.toList))
        (Uri.octets (amzDates scope.time).1.toList)
      (Uri.octets (canonicalHeaders request).2) (Uri.octets payload)
      (Uri.octets
        (signature crypto credentials scope (amzDates scope.time).1.toList
          (amzDates scope.time).2.toList
        (canonicalRequest request.method request.path (canonicalQuery query)
          (canonicalHeaders request).1
          (canonicalHeaders request).2 payload))) = true := by
  have hslash : ∀ text, Uri.octets ('/' :: text) = 47 :: Uri.octets text :=
    Uri.octets_cons_ascii (by decide)
  have hhost : ("host".toList, request.host) ∈ signedPairs request := mem_signedPairs.mpr (.inr rfl)
  have hnamed : Uri.octets "host".toList ∈
      (Uri.octets (canonicalHeaders request).2).splitOn 59 := by
    rw [splitOn_names hproper]
    exact List.mem_map.mpr ⟨_, hhost, rfl⟩
  rw [Server.checks, dayOf_amzDates, request_octets hproper hcarries query hpairs, sign_octets,
    scope_octets, credential,
    Uri.octets_append, hslash]
  simp only [serverFor, beq_self_eq_true, Bool.true_and, Bool.and_true, List.contains_iff_mem]
  exact hnamed

def authenticationNames : List Text :=
  ["X-Amz-Algorithm".toList, "X-Amz-Credential".toList, "X-Amz-Date".toList, "X-Amz-Expires".toList,
    "X-Amz-SignedHeaders".toList, "X-Amz-Signature".toList]

def PlainName (name : Text) : Prop := name ≠ [] ∧ name ∉ authenticationNames

instance (name : Text) : Decidable (PlainName name) := inferInstanceAs (Decidable (_ ∧ _))

def Plain (query : List Pair) : Prop := ∀ pair ∈ query, PlainName pair.1

theorem filter_plain {query : List Pair} (h : Plain query) {name : Text}
    (hname : name ∈ authenticationNames) :
    query.filter (fun pair => pair.1 = name) = [] := by
  refine List.filter_eq_nil_iff.mpr fun pair hpair hdecide => ?_
  exact (h pair hpair).2 (of_decide_eq_true hdecide ▸ hname)

def addedQuery (request : SignableRequest) (credentials : Credentials) (scope : Scope)
    (expiresIn : ℕ)
    (includeContentSha256 : Bool) (signature : Text) : List Pair :=
  presignedQuery { request with query := [] } credentials scope expiresIn includeContentSha256 ++
    [("X-Amz-Signature".toList, signature)]

theorem presignedQuery_eq (expiresIn : ℕ) (includeContentSha256 : Bool) :
    presignedQuery request credentials scope expiresIn includeContentSha256 =
      request.query ++ presignedQuery { request with query := [] }
        credentials scope expiresIn includeContentSha256 := by
  simp only [presignedQuery, List.append_assoc, List.nil_append]
  rfl

theorem presignedQuery_append (expiresIn : ℕ) (includeContentSha256 : Bool) (signature : Text) :
    presignedQuery request credentials scope expiresIn includeContentSha256 ++
      [("X-Amz-Signature".toList, signature)] =
      request.query ++
        addedQuery request credentials scope expiresIn includeContentSha256 signature := by
  rw [presignedQuery_eq, List.append_assoc, addedQuery]

def addedNames (includeContentSha256 token : Bool) : List Text :=
  ["X-Amz-Algorithm".toList] ++
    (if includeContentSha256 then ["X-Amz-Content-Sha256".toList] else []) ++
    ["X-Amz-Credential".toList, "X-Amz-Date".toList, "X-Amz-Expires".toList] ++
    (if token then ["X-Amz-Security-Token".toList] else []) ++
      ["X-Amz-SignedHeaders".toList, "X-Amz-Signature".toList]

theorem addedNames_distinct : ∀ includeContentSha256 token,
    (addedNames includeContentSha256 token).Nodup ∧
      [] ∉ addedNames includeContentSha256 token := by decide

theorem map_fst_addedQuery (expiresIn : ℕ) (includeContentSha256 : Bool) (signature : Text) :
    (addedQuery request credentials scope expiresIn includeContentSha256 signature).map Prod.fst =
      addedNames includeContentSha256 credentials.token.isSome := by
  unfold addedQuery presignedQuery addedNames
  cases includeContentSha256 <;> cases credentials.token <;> rfl

theorem filter_of_nodup {pairs : List Pair} (hnodup : (pairs.map Prod.fst).Nodup)
    {name value : Text}
    (hmem : (name, value) ∈ pairs) : pairs.filter (fun pair => pair.1 = name) =
      [(name, value)] := by
  induction pairs with
  | nil => exact absurd hmem List.not_mem_nil
  | cons pair pairs ih =>
    rw [List.map_cons, List.nodup_cons] at hnodup
    rcases List.mem_cons.mp hmem with rfl | hmem
    · have hrest : pairs.filter (fun pair => pair.1 = name) = [] := by
        refine List.filter_eq_nil_iff.mpr fun other hother hdecide => hnodup.1 ?_
        exact List.mem_map.mpr ⟨other, hother, of_decide_eq_true hdecide⟩
      rw [List.filter_cons, if_pos (decide_eq_true rfl), hrest]
    · have hne : pair.1 ≠ name := fun he => hnodup.1 (he ▸ List.mem_map.mpr ⟨_, hmem, rfl⟩)
      rw [List.filter_cons, if_neg (fun h => hne (of_decide_eq_true h)), ih hnodup.2 hmem]

theorem filter_signed (hplain : Plain request.query) (expiresIn : ℕ) (includeContentSha256 : Bool)
    (signature : Text)
    {name value : Text} (hname : name ∈ authenticationNames)
    (hmem : (name, value) ∈
      addedQuery request credentials scope expiresIn includeContentSha256 signature) :
    (presignedQuery request credentials scope expiresIn includeContentSha256 ++
      [("X-Amz-Signature".toList, signature)]).filter (fun pair => pair.1 = name) =
        [(name, value)] := by
  rw [presignedQuery_append, List.filter_append, filter_plain hplain hname, List.nil_append]
  refine filter_of_nodup ?_ hmem
  rw [map_fst_addedQuery]
  exact (addedNames_distinct _ _).1

theorem read_presigned (hplain : Plain request.query) (expiresIn : ℕ) (includeContentSha256 : Bool)
    (signature : Text) :
    QueryString.read
      (renderQuery (presignedQuery request credentials scope expiresIn includeContentSha256 ++
      [("X-Amz-Signature".toList, signature)])) =
      (presignedQuery request credentials scope expiresIn includeContentSha256 ++
        [("X-Amz-Signature".toList, signature)]).map QueryString.octets := by
  refine QueryString.read_render separates_unreserved fun pair hpair => ?_
  rw [presignedQuery_append] at hpair
  rcases List.mem_append.mp hpair with h | h
  · exact (hplain pair h).1
  · intro hempty
    have hmem := List.mem_map_of_mem (f := Prod.fst) h
    rw [map_fst_addedQuery, hempty] at hmem
    exact (addedNames_distinct _ _).2 hmem

theorem unsigned_perm (hplain : Plain request.query) {expiresIn : ℕ} {includeContentSha256 : Bool}
    {signature : Text}
    {pairs : List (List ℕ × List ℕ)}
    (h : pairs.Perm ((presignedQuery request credentials scope expiresIn includeContentSha256 ++
      [("X-Amz-Signature".toList, signature)]).map QueryString.octets)) :
    (pairs.filter fun pair => pair.1 ≠ Uri.octets "X-Amz-Signature".toList).Perm
      ((presignedQuery request credentials scope expiresIn includeContentSha256).map
        QueryString.octets) := by
  have hkeep : ∀ pair ∈ presignedQuery request credentials scope expiresIn includeContentSha256,
      pair.1 ≠ "X-Amz-Signature".toList := by
    intro pair hpair he
    rw [presignedQuery_eq] at hpair
    rcases List.mem_append.mp hpair with hpair | hpair
    · refine (hplain pair hpair).2 (he ▸ ?_)
      decide
    · have hnodup :
          ((addedQuery request credentials scope expiresIn includeContentSha256 signature).map
            Prod.fst).Nodup := by
        rw [map_fst_addedQuery]
        exact (addedNames_distinct _ _).1
      rw [addedQuery, List.map_append] at hnodup
      exact List.disjoint_of_nodup_append hnodup (List.mem_map_of_mem hpair)
        (List.mem_singleton.mpr he)
  refine (h.filter _).trans (List.Perm.of_eq ?_)
  -- All of what was signed stays, and of the signature nothing.
  rw [List.map_append, List.filter_append]
  have hall :
      ((presignedQuery request credentials scope expiresIn includeContentSha256).map
        QueryString.octets).filter
      (fun pair => pair.1 ≠ Uri.octets "X-Amz-Signature".toList) =
        (presignedQuery request credentials scope expiresIn includeContentSha256).map
          QueryString.octets := by
    refine List.filter_eq_self.mpr fun octets hoctets => ?_
    obtain ⟨pair, hpair, rfl⟩ := List.mem_map.mp hoctets
    exact decide_eq_true fun he => hkeep pair hpair (Uri.octets_injective he)
  have hnone : [("X-Amz-Signature".toList, signature)].map QueryString.octets =
      [(Uri.octets "X-Amz-Signature".toList, Uri.octets signature)] := rfl
  have hdrop : ¬ decide ((Uri.octets "X-Amz-Signature".toList, Uri.octets signature).1 ≠
      Uri.octets "X-Amz-Signature".toList) = true := fun hdecide => (of_decide_eq_true hdecide) rfl
  rw [hall, hnone, List.filter_cons, if_neg hdrop, List.filter_nil, List.append_nil]

theorem mem_addedQuery (expiresIn : ℕ) (includeContentSha256 : Bool) (signature : Text)
    {pair : Pair}
    (h : pair ∈ [("X-Amz-Algorithm".toList, "AWS4-HMAC-SHA256".toList),
      ("X-Amz-Credential".toList, credential credentials scope (amzDates scope.time).2.toList),
      ("X-Amz-Date".toList, (amzDates scope.time).1.toList),
      ("X-Amz-Expires".toList, (toString (max (expiresIn / Expiry.secondNanos) 1)).toList),
      ("X-Amz-SignedHeaders".toList, (canonicalHeaders request).2),
        ("X-Amz-Signature".toList, signature)]) :
    pair ∈ addedQuery request credentials scope expiresIn includeContentSha256 signature := by
  have hheaders : canonicalHeaders { request with query := [] } = canonicalHeaders request := rfl
  simp only [List.mem_cons, List.not_mem_nil, or_false] at h
  simp only [addedQuery, presignedQuery, hheaders, List.mem_append, List.mem_cons,
    List.not_mem_nil, or_false]
  rcases h with h | h | h | h | h | h <;> simp only [h, true_or, or_true]

theorem single_presigned (hplain : Plain request.query) {expiresIn : ℕ}
    {includeContentSha256 : Bool} {signature : Text}
    {pairs : List (List ℕ × List ℕ)}
    (h : pairs.Perm ((presignedQuery request credentials scope expiresIn includeContentSha256 ++
      [("X-Amz-Signature".toList, signature)]).map QueryString.octets)) :
    single pairs "X-Amz-Algorithm".toList = some (Uri.octets "AWS4-HMAC-SHA256".toList) ∧
      single pairs "X-Amz-Credential".toList =
        some (Uri.octets (credential credentials scope (amzDates scope.time).2.toList)) ∧
      single pairs "X-Amz-Date".toList = some (Uri.octets (amzDates scope.time).1.toList) ∧
      single pairs "X-Amz-Expires".toList =
        some (Uri.octets (toString (max (expiresIn / Expiry.secondNanos) 1)).toList) ∧
      single pairs "X-Amz-SignedHeaders".toList = some (Uri.octets (canonicalHeaders request).2) ∧
      single pairs "X-Amz-Signature".toList = some (Uri.octets signature) := by
  have hread : ∀ {name value}, name ∈ authenticationNames →
      (name, value) ∈ addedQuery request credentials scope expiresIn
      includeContentSha256 signature → single pairs name = some (Uri.octets value) :=
    fun hname hmem =>
      single_eq h (filter_signed hplain expiresIn includeContentSha256 signature hname hmem)
  refine ⟨hread ?_ (mem_addedQuery _ _ _ (.head _)),
    hread ?_ (mem_addedQuery _ _ _ (.tail _ (.head _))),
    hread ?_ (mem_addedQuery _ _ _ (.tail _ (.tail _ (.head _)))),
    hread ?_ (mem_addedQuery _ _ _ (.tail _ (.tail _ (.tail _ (.head _))))),
    hread ?_ (mem_addedQuery _ _ _ (.tail _ (.tail _ (.tail _ (.tail _ (.head _)))))),
    hread ?_ (mem_addedQuery _ _ _ (.tail _ (.tail _ (.tail _ (.tail _ (.tail _ (.head _)))))))⟩ <;>
      decide

def presignSignature (crypto : Crypto) (request : SignableRequest) (credentials : Credentials)
    (scope : Scope) (expiresIn : ℕ)
    (includeContentSha256 : Bool) : Text :=
  signature crypto credentials scope (amzDates scope.time).1.toList (amzDates scope.time).2.toList
    (canonicalRequest request.method request.path
      (canonicalQuery (presignedQuery request credentials scope expiresIn includeContentSha256))
      (canonicalHeaders request).1 (canonicalHeaders request).2 unsignedPayload)

theorem presign_eq_ok {expiresIn : ℕ} {includeContentSha256 : Bool} {url : Text}
    (h : presign crypto request credentials scope expiresIn includeContentSha256 = .ok url) :
    expiresIn ≤ maxPresignExpires ∧ url = request.origin ++ request.path ++ '?' ::
      renderQuery (presignedQuery request credentials scope expiresIn includeContentSha256 ++
        [("X-Amz-Signature".toList,
          presignSignature crypto request credentials scope expiresIn includeContentSha256)]) := by
  unfold presign at h
  split_ifs at h with hlong
  cases h
  exact ⟨Nat.le_of_not_lt hlong, rfl⟩

/-- A presigned URL is accepted until it expires, in whatever order its parameters and the headers
arrive and whatever other headers do. -/
theorem presign_accepted {expiresIn : ℕ} {includeContentSha256 : Bool} {url : Text}
    (hproper : request.HeadersApart)
    (hplain : Plain request.query)
    (h : presign crypto request credentials scope expiresIn includeContentSha256 = .ok url) :
    ∃ query, url = request.origin ++ request.path ++ '?' :: query ∧
      ∀ received clock, Carries received request →
      (QueryString.read received.query).Perm (QueryString.read query) →
        sinceEpoch scope.time / Expiry.secondNanos ≤ clock →
          clock < sinceEpoch scope.time / Expiry.secondNanos +
            max (expiresIn / Expiry.secondNanos) 1 →
            (serverFor crypto credentials scope).acceptsQuery received clock = true := by
  obtain ⟨hweek, rfl⟩ := presign_eq_ok h
  refine ⟨_, rfl, fun received clock hcarries hperm hstart hend => ?_⟩
  -- What is read of the query is what was put into it, and the rest of it is what was signed.
  rw [read_presigned hplain] at hperm
  have hchecks := checks_signature crypto credentials scope hproper hcarries _
    (unsigned_perm hplain hperm) unsignedPayload
  obtain ⟨halgorithm, hcredential, hdate, hexpires, hnames, hsignature⟩ :=
    single_presigned hplain hperm
  rw [Server.acceptsQuery, halgorithm, hcredential, hdate, hexpires, hnames, hsignature]
  simp only [beq_self_eq_true, holds_presigned hweek hstart hend, Bool.true_and]
  exact hchecks

theorem SignableRequest.HeadersApart.signed (h : request.HeadersApart) (credentials : Credentials)
    (scope : Scope) (payloadSha256 : Text) :
    (signedRequest request credentials scope payloadSha256).HeadersApart := by
  refine ⟨h.host, fun header hheader => ?_⟩
  have hdate : SeparableName "x-amz-date".toList := by decide
  have hpayload : SeparableName "x-amz-content-sha256".toList := by decide
  have htoken : SeparableName "x-amz-security-token".toList := by decide
  simp only [signedRequest, List.mem_append, List.mem_cons, List.not_mem_nil, or_false,
    Option.mem_toList,
    Option.map_eq_some_iff] at hheader
  rcases hheader with (hheader | rfl | rfl) | ⟨token, -, rfl⟩
  · exact h.named header hheader
  · exact hdate
  · exact hpayload
  · exact htoken

theorem readAuthorization_eq {credential names : Text} (hcredential : ',' ∉ credential)
    (hnames : ',' ∉ names) (signature : Text) :
    Server.readAuthorization
      ("AWS4-HMAC-SHA256 Credential=".toList ++ credential ++ ", SignedHeaders=".toList ++ names ++
      ", Signature=".toList ++ signature) = some (credential, names, signature) := by
  have hfirst : "AWS4-HMAC-SHA256 Credential=".toList ≠ [] := by decide
  have hheaders : ", SignedHeaders=".toList = ',' :: " SignedHeaders=".toList := by decide
  have hlast : ", Signature=".toList = ',' :: " Signature=".toList := by decide
  have hstart :=
    Cut.cut_self hfirst
      (credential ++ (", SignedHeaders=".toList ++ (names ++ (", Signature=".toList ++ signature))))
  have hmiddle := (Cut.passes_of_notMem (w := " SignedHeaders=".toList) hcredential).cut (by simp)
    (names ++ (", Signature=".toList ++ signature))
  have hend := (Cut.passes_of_notMem (w := " Signature=".toList) hnames).cut (by simp) signature
  rw [← hheaders] at hmiddle
  rw [← hlast] at hend
  simp only [List.append_assoc]
  rw [Server.readAuthorization, hstart]
  simp only [Option.bind_eq_bind, Option.bind_some, ne_eq, not_true_eq_false, if_false,
    hmiddle, hend]
  rfl

theorem comma_notMem_names (hproper : request.HeadersApart) :
    ',' ∉ (canonicalHeaders request).2 := by
  intro hmem
  rcases mem_intercalate hmem with h | ⟨name, hname, h⟩
  · exact absurd h (by decide)
  · obtain ⟨pair, hpair, rfl⟩ := List.mem_map.mp hname
    rcases mem_signedPairs.mp hpair with ⟨-, header, hheader, rfl⟩ | rfl
    · exact (hproper.named header hheader).2.2 h
    · have hnone : ',' ∉ "host".toList := by decide
      exact hnone h

def Readable (credentials : Credentials) (scope : Scope) : Prop :=
  ',' ∉ credentials.accessKeyId ∧ ',' ∉ scope.region ∧ ',' ∉ scope.service

theorem comma_notMem_credential (h : Readable credentials scope) :
    ',' ∉ credential credentials scope (amzDates scope.time).2.toList := by
  obtain ⟨hkey, hregion, hservice⟩ := h
  have hdate : ',' ∉ (amzDates scope.time).2.toList :=
    notMem_date (by decide) (by decide) scope.time
  have hlast : ',' ∉ "/aws4_request".toList := by decide
  have hslash : ',' ≠ '/' := by decide
  simp only [credential, credentialScope, List.mem_append, List.mem_cons, not_or]
  exact ⟨hkey, hslash, ⟨⟨hdate, hslash, hregion⟩, hslash, hservice⟩, hlast⟩

/-- What `signHeaders` authorizes a request with. -/
def authorization (crypto : Crypto) (request : SignableRequest) (credentials : Credentials)
    (scope : Scope)
    (payloadSha256 : Text) : Text :=
  let signed := signedRequest request credentials scope payloadSha256
  "AWS4-HMAC-SHA256 Credential=".toList ++ credential credentials scope
    (amzDates scope.time).2.toList ++
    ", SignedHeaders=".toList ++ (canonicalHeaders signed).2 ++ ", Signature=".toList ++
    signature crypto credentials scope (amzDates scope.time).1.toList (amzDates scope.time).2.toList
      (canonicalRequest signed.method signed.path (canonicalQuery request.query)
        (canonicalHeaders signed).1
        (canonicalHeaders signed).2 payloadSha256)

theorem signHeaders_accepted (crypto : Crypto) (hproper : request.HeadersApart)
    (hnames : ∀ pair ∈ request.query, pair.1 ≠ [])
    (hreadable : Readable credentials scope) (payloadSha256 : Text) :
    ∃ query, (signHeaders crypto request credentials scope payloadSha256).1 =
        request.origin ++ request.path ++ (if request.query.isEmpty then [] else '?' :: query) ∧
      ∀ received,
        Carries received { request with
          headers := (signHeaders crypto request credentials scope payloadSha256).2 } →
        (QueryString.read received.query).Perm (QueryString.read query) →
          (serverFor crypto credentials scope).acceptsHeaders received = true := by
  refine ⟨renderQuery request.query, rfl, fun received hcarries hperm => ?_⟩
  rw [renderQuery, QueryString.read_render separates_unreserved hnames] at hperm
  -- The authorization itself is sent, but is none of what is signed.
  have hsigned : Carries received (signedRequest request credentials scope payloadSha256) :=
    ⟨hcarries.method, hcarries.path, hcarries.host, fun header hheader =>
      hcarries.headers header (List.mem_append_left _ hheader)⟩
  have hchecks := checks_signature crypto credentials scope
    (hproper.signed credentials scope payloadSha256) hsigned _ hperm payloadSha256
  have hlower : "x-amz-date".toList.map Char.toLower = "x-amz-date".toList ∧
      "x-amz-content-sha256".toList.map Char.toLower = "x-amz-content-sha256".toList ∧
      "authorization".toList.map Char.toLower = "authorization".toList := by decide
  have hdate := hsigned.headers ("x-amz-date".toList, (amzDates scope.time).1.toList)
    (by simp [signedRequest])
  have hpayload := hsigned.headers ("x-amz-content-sha256".toList, payloadSha256)
    (by simp [signedRequest])
  have hauthorization :=
    hcarries.headers ("authorization".toList,
      authorization crypto request credentials scope payloadSha256)
    (List.mem_append_right _ (List.mem_singleton_self _))
  simp only [hlower.1] at hdate
  simp only [hlower.2.1] at hpayload
  simp only [hlower.2.2] at hauthorization
  have hread : Server.readAuthorization
      (authorization crypto request credentials scope payloadSha256) = some _ :=
    readAuthorization_eq (comma_notMem_credential hreadable)
      (comma_notMem_names (hproper.signed credentials scope payloadSha256)) _
  rw [Server.acceptsHeaders, hauthorization, hdate, hpayload]
  simp only [hread]
  exact hchecks

end

end Beam.Rust.SigV4
