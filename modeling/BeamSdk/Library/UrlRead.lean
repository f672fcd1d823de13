import BeamSdk.Library.Url

/-! What is read of a text that a URL is written as, and what every URL is that has been read. -/

namespace Beam.Url

section Escapes
variable {rules : Rules} {part : Part} {text : Text} {segments : List Text}

theorem kept_of_mem_encode (hrules : rules.Lawful) {c : Char}
    (h : c ∈ Uri.encode (rules.kept part) text) :
    rules.kept part c.toNat = true ∧ (c ∈ text ∨ c = '%' ∨ c.isAlphanum = true) := by
  obtain ⟨n, hn, hmem⟩ := List.mem_flatMap.mp h
  rcases Uri.mem_encodeOctet (Uri.octets_lt hn) hmem with ⟨hk, rfl⟩ | rfl | halnum
  · have hsmall : n < 128 := Nat.lt_of_le_of_lt (hrules.visible part n hk).2 (by decide)
    have hvalue := Uri.toNat_ofNat_of_lt hsmall
    refine ⟨by rwa [hvalue], .inl ((Uri.mem_octets_iff (by rwa [hvalue])).mp ?_)⟩
    rwa [hvalue]
  · exact ⟨hrules.plain part _ (.inr (by decide)), .inr (.inl rfl)⟩
  · exact ⟨hrules.plain part _ (.inl halnum), .inr (.inr halnum)⟩

theorem encode_eq_self (hrules : rules.Lawful)
    (h : ∀ c ∈ text, rules.kept part c.toNat = true) :
    Uri.encode (rules.kept part) text = text := by
  induction text with
  | nil => rfl
  | cons c text ih =>
    obtain ⟨hc, htext⟩ := List.forall_mem_cons.mp h
    have hascii : c.toNat < 128 :=
      Nat.lt_of_le_of_lt (hrules.visible part _ hc).2 (by decide)
    have hrest : (Uri.octets text).flatMap (Uri.encodeOctet (rules.kept part)) = text := ih htext
    rw [Uri.encode, Uri.octets_cons_ascii hascii, List.flatMap_cons, hrest, Uri.encodeOctet,
      if_pos hc, Char.ofNat_toNat, List.singleton_append]

/-- A segment of a path that has been read. -/
def Segment (rules : Rules) (segment : Text) : Prop :=
  ∀ c ∈ segment, rules.kept .path c.toNat = true ∧ isSlash c = false ∧ endsPath c = false

theorem segment_nil : Segment rules [] := fun _ hnone => absurd hnone List.not_mem_nil

theorem Segment.slash_notMem {segment : Text} (h : Segment rules segment) : '/' ∉ segment :=
  fun hmem => absurd (h _ hmem).2.1 (by decide)

theorem isSlash_of_isAlphanum {c : Char} (h : c = '%' ∨ c.isAlphanum = true) :
    isSlash c = false ∧ endsPath c = false := by
  simp only [isSlash, endsPath, Bool.or_eq_false_iff, beq_eq_false_iff_ne]
  refine ⟨⟨?_, ?_⟩, ?_, ?_⟩ <;>
  · rintro rfl
    revert h
    decide

theorem segment_encode (hrules : rules.Lawful)
    (h : ∀ c ∈ text, isSlash c = false ∧ endsPath c = false) :
    Segment rules (Uri.encode (rules.kept .path) text) := by
  intro c hc
  obtain ⟨hkept, hmem | hplain⟩ := kept_of_mem_encode hrules hc
  · exact ⟨hkept, h c hmem⟩
  · exact ⟨hkept, isSlash_of_isAlphanum hplain⟩

theorem readPath_slashes (hrules : rules.Lawful)
    (h : ∀ segment ∈ segments, Segment rules segment) (hne : segments ≠ []) :
    readPath rules (segments.flatMap ('/' :: ·)) = walk [] segments := by
  have hslash : ∀ c ∈ (segments.flatMap ('/' :: ·)).drop 1,
      (if isSlash c then '/' else c) = c := by
    intro c hc
    obtain ⟨segment, hsegment, hmem⟩ := List.mem_flatMap.mp (List.mem_of_mem_drop hc)
    rcases List.mem_cons.mp hmem with rfl | hmem
    · rfl
    · rw [(h segment hsegment c hmem).2.1, if_neg Bool.false_ne_true]
  have hself : segments.map (Uri.encode (rules.kept .path)) = segments :=
    (List.map_congr_left fun segment hsegment =>
      encode_eq_self hrules fun c hc => (h segment hsegment c hc).1).trans (List.map_id _)
  rw [readPath, (List.map_congr_left hslash).trans (List.map_id _),
    splitOn_drop_slash (fun segment hsegment => (h segment hsegment).slash_notMem) hne, hself]

theorem readPath_spec (hrules : rules.Lawful) (h : ∀ c ∈ text, endsPath c = false) :
    (∀ segment ∈ readPath rules text, Segment rules segment) ∧ NoDots (readPath rules text) := by
  refine ⟨fun segment hsegment => ?_, noDots_walk fun _ hnone => absurd hnone List.not_mem_nil⟩
  rcases mem_walk hsegment with hnone | hmem | rfl
  · cases hnone
  · obtain ⟨piece, hpiece, rfl⟩ := List.mem_map.mp hmem
    refine segment_encode hrules fun c hc => ?_
    have hin : c ∈ (text.drop 1).map fun c => if isSlash c then '/' else c := by
      rw [← @List.intercalate_splitOn _ ((text.drop 1).map _) _ _ '/']
      exact subset_intercalate hpiece hc
    obtain ⟨d, hd, hdc⟩ := List.mem_map.mp hin
    have hne : c ≠ '/' := fun he => Cut.notMem_of_mem_splitOn hpiece (he ▸ hc)
    cases hslash : isSlash d with
    | true =>
      rw [hslash, if_pos rfl] at hdc
      exact absurd hdc.symm hne
    | false =>
      rw [hslash, if_neg Bool.false_ne_true] at hdc
      exact hdc ▸ ⟨hslash, h d (List.mem_of_mem_drop hd)⟩
  · exact segment_nil

end Escapes

section Cuts
variable {host : Text} {port : Option ℕ} {scheme : Text}

theorem cutPort_plain {text : Text} (hcolon : ':' ∉ text) (hbracket : '[' ∉ text) (rest : Text) :
    cutPort false (text ++ rest) = (text ++ (cutPort false rest).1, (cutPort false rest).2) := by
  induction text with
  | nil => rfl
  | cons c text ih =>
    obtain ⟨hc, hcolon⟩ := not_or.mp (fun h => hcolon (List.mem_cons.mpr h))
    obtain ⟨hb, hbracket⟩ := not_or.mp (fun h => hbracket (List.mem_cons.mpr h))
    have hopen : (if c = '[' then true else if c = ']' then false else false) = false := by
      rw [if_neg fun he => hb he.symm, ite_self]
    rw [List.cons_append, cutPort, if_neg fun h => hc h.1.symm, hopen, ih hcolon hbracket]
    rfl

theorem cutPort_bracketed {text : Text} (h : ']' ∉ text) (rest : Text) :
    cutPort true (text ++ ']' :: rest) =
      (text ++ ']' :: (cutPort false rest).1, (cutPort false rest).2) := by
  induction text with
  | nil =>
    rw [List.nil_append, cutPort, if_neg fun h => absurd h.1 (by decide)]
    rfl
  | cons c text ih =>
    obtain ⟨hc, htext⟩ := not_or.mp (fun hmem => h (List.mem_cons.mpr hmem))
    have hopen : (if c = '[' then true else if c = ']' then false else true) = true := by
      rw [if_neg (c := c = ']') fun he => hc he.symm, ite_self]
    rw [List.cons_append, cutPort, if_neg fun h => absurd h.2 (by decide), hopen, ih htext]
    rfl

theorem cutPort_authority (h : HostText host) (port : Option ℕ) :
    cutPort false (host ++ portText port) = (host, port.map (Nat.toDigits 10)) := by
  have hport : cutPort false (portText port) = ([], port.map (Nat.toDigits 10)) := by
    cases port <;> rfl
  rcases h.colons with ⟨hcolon, hbracket⟩ | ⟨address, rfl, haddress⟩
  · rw [cutPort_plain hcolon hbracket, hport, List.append_nil]
  · have hopen : cutPort false ('[' :: (address ++ ']' :: portText port)) =
        ('[' :: (cutPort true (address ++ ']' :: portText port)).1,
          (cutPort true (address ++ ']' :: portText port)).2) := rfl
    rw [List.append_assoc, List.cons_append, List.singleton_append, hopen,
      cutPort_bracketed haddress, hport]
    rfl

theorem readPort_toDigits (h : ∀ n ∈ port, n ≤ 65535 ∧ n ≠ defaultPort scheme) :
    readPort scheme (port.map (Nat.toDigits 10)) = some port := by
  cases port with
  | none => rfl
  | some n =>
    obtain ⟨hsmall, hdefault⟩ := h n rfl
    have hdigits : (Nat.toDigits 10 n).all Char.isDigit = true :=
      List.all_eq_true.mpr fun c hc => isDigit_toDigits hc
    have hread : Nat.ofDigitChars 10 (Nat.toDigits 10 n) 0 = n :=
      Nat.ofDigitChars_toDigits (by decide) (by decide)
    rw [Option.map_some, readPort, hdigits, hread]
    simp only [Bool.true_eq_false, false_or, Nat.not_lt.mpr hsmall, if_false,
      Nat.toDigits_ne_nil, hdefault]

theorem readPort_spec {digits : Option Text} (h : readPort scheme digits = some port) :
    ∀ n ∈ port, n ≤ 65535 ∧ n ≠ defaultPort scheme := by
  rintro n rfl
  cases digits with
  | none => cases h
  | some digits =>
    rw [readPort] at h
    split_ifs at h with hbad hdefault
    · cases h
    obtain rfl := Option.some.inj (Option.some.inj h)
    exact ⟨Nat.not_lt.mp fun hlarge => hbad (.inr hlarge), fun he => hdefault (.inr he)⟩

theorem cutScheme_http (h : isHttp scheme = true) (rest : Text) :
    cutScheme (scheme ++ ':' :: rest) = some (scheme, rest) := by
  have hcases : scheme = "http".toList ∨ scheme = "https".toList := by
    rwa [isHttp, Bool.or_eq_true, beq_iff_eq, beq_iff_eq] at h
  rcases hcases with rfl | rfl <;> rfl

end Cuts

section Reading
variable {rules : Rules} {scheme host query : Text} {port : Option ℕ} {segments : List Text}

/-- A URL of a path and a query, without a user or a fragment. -/
def locator (scheme host : Text) (port : Option ℕ) (segments : List Text) (query : Text) : Url :=
  ⟨scheme, [], host, port, segments, some query, none⟩

theorem locator_text : (locator scheme host port segments query).text =
    scheme ++ ':' :: ("//".toList ++ (host ++ portText port ++
      (segments.flatMap ('/' :: ·) ++ '?' :: query))) := by
  simp [text, locator, authority, pathText, tailText]

theorem visible_portText (port : Option ℕ) : Visible (portText port) := by
  cases port with
  | none => exact visible_nil
  | some n =>
    refine Visible.cons (by decide) fun c hc => ?_
    have hdigit := Char.isDigit_iff_toNat.mp (isDigit_toDigits hc)
    exact ⟨Nat.le_trans (by decide) hdigit.1, Nat.le_trans hdigit.2 (by decide)⟩

theorem visible_slashes (hrules : rules.Lawful) (h : ∀ segment ∈ segments, Segment rules segment) :
    Visible (segments.flatMap ('/' :: ·)) := by
  intro c hc
  obtain ⟨segment, hsegment, hmem⟩ := List.mem_flatMap.mp hc
  rcases List.mem_cons.mp hmem with rfl | hmem
  · decide
  · exact hrules.visible .path _ (h segment hsegment c hmem).1

theorem colon_notMem_of_isHttp (h : isHttp scheme = true) : ':' ∉ scheme := by
  have hcases : scheme = "http".toList ∨ scheme = "https".toList := by
    rwa [isHttp, Bool.or_eq_true, beq_iff_eq, beq_iff_eq] at h
  rcases hcases with rfl | rfl <;> decide

theorem visible_scheme (h : isHttp scheme = true) : Visible scheme := by
  have hcases : scheme = "http".toList ∨ scheme = "https".toList := by
    rwa [isHttp, Bool.or_eq_true, beq_iff_eq, beq_iff_eq] at h
  rcases hcases with rfl | rfl <;> exact visible_of_all (by decide)

theorem isDigit_plain {c : Char} (h : c.isDigit = true) :
    isSlash c = false ∧ endsPath c = false ∧ c ≠ '@' := by
  have hplain := isSlash_of_isAlphanum (c := c) (.inr (by rw [Char.isAlphanum, h, Bool.or_true]))
  refine ⟨hplain.1, hplain.2, ?_⟩
  rintro rfl
  exact absurd h (by decide)

theorem authority_plain (h : HostText host) : ∀ c ∈ host ++ portText port,
    isSlash c = false ∧ endsPath c = false ∧ c ≠ '@' := by
  refine List.forall_mem_append.mpr ⟨h.free, ?_⟩
  cases port with
  | none => exact fun _ hnone => absurd hnone List.not_mem_nil
  | some n => exact List.forall_mem_cons.mpr ⟨by decide, fun c hc =>
      isDigit_plain (isDigit_toDigits hc)⟩

theorem readRest_locator (hrules : rules.Lawful) (hhost : rules.host host = some host)
    (hport : ∀ n ∈ port, n ≤ 65535 ∧ n ≠ defaultPort scheme)
    (hsegments : ∀ segment ∈ segments, Segment rules segment) (hne : segments ≠ [])
    (hquery : ∀ c ∈ query, rules.kept .query c.toNat = true ∧ c ≠ '#') :
    readRest rules scheme ("//".toList ++ (host ++ portText port ++
      (segments.flatMap ('/' :: ·) ++ '?' :: query))) =
      some (locator scheme host port (walk [] segments) query) := by
  have htext : HostText host := (hrules.host _ _ hhost).2
  have hauthority : ∀ c ∈ host ++ portText port,
      isSlash c = false ∧ endsPath c = false ∧ c ≠ '@' := authority_plain htext
  have hfull : host ++ portText port ≠ [] := List.append_ne_nil_of_left_ne_nil htext.ne_nil _
  -- The authority begins behind the slashes and ends where the path begins, and the path where the
  -- query does.
  have hslashes : ("//".toList ++ (host ++ portText port ++
      (segments.flatMap ('/' :: ·) ++ '?' :: query))).dropWhile isSlash =
        host ++ portText port ++ (segments.flatMap ('/' :: ·) ++ '?' :: query) := by
    have hall : "//".toList.all isSlash = true := by decide
    refine (Cut.takeWhile_stop (List.all_eq_true.mp hall) fun c hc => ?_).2
    rw [List.head?_append_of_ne_nil _ hfull] at hc
    exact (hauthority c (List.mem_of_mem_head? hc)).1
  have hends : ∀ c ∈ (segments.flatMap ('/' :: ·) ++ '?' :: query).head?,
      (!isSlash c && !endsPath c) = false := by
    cases segments with
    | nil => exact absurd rfl hne
    | cons first rest =>
      rintro c hc
      obtain rfl : '/' = c := Option.some.inj hc
      rfl
  have hinside : ∀ c ∈ host ++ portText port, (!isSlash c && !endsPath c) = true := by
    intro c hc
    rw [(hauthority c hc).1, (hauthority c hc).2.1]
    rfl
  have hcut := Cut.takeWhile_stop hinside hends
  have huser : (host ++ portText port).rtakeWhile (· ≠ '@') = host ++ portText port :=
    List.rtakeWhile_eq_self_iff.mpr fun c hc => decide_eq_true (hauthority c hc).2.2
  have hnone : (host ++ portText port).rdropWhile (· ≠ '@') = [] :=
    List.rdropWhile_eq_nil_iff.mpr fun c hc => decide_eq_true (hauthority c hc).2.2
  have hopen : ∀ c ∈ segments.flatMap ('/' :: ·), (!endsPath c) = true := by
    intro c hc
    obtain ⟨segment, hsegment, hmem⟩ := List.mem_flatMap.mp hc
    rcases List.mem_cons.mp hmem with rfl | hmem
    · rfl
    · rw [(hsegments segment hsegment c hmem).2.2]
      rfl
  have hmark : ∀ c ∈ ('?' :: query).head?, (!endsPath c) = false := by
    intro c hc
    obtain rfl : '?' = c := Option.some.inj hc
    rfl
  have hpath := Cut.takeWhile_stop hopen hmark
  have hread : readQuery rules ('?' :: query) = some query := by
    have hall : query.takeWhile (· ≠ '#') = query :=
      List.takeWhile_eq_self_iff.mpr fun c hc => decide_eq_true (hquery c hc).2
    rw [readQuery, List.head?_cons, if_pos rfl, List.drop_succ_cons, List.drop_zero, hall,
      encode_eq_self hrules fun c hc => (hquery c hc).1]
  have hfragment : readFragment rules ('?' :: query) = none := by
    have hall : ('?' :: query).dropWhile (· ≠ '#') = [] :=
      List.dropWhile_eq_nil_iff.mpr fun c hc => decide_eq_true
        ((List.mem_cons.mp hc).elim (fun he => he ▸ by decide) fun hc => (hquery c hc).2)
    rw [readFragment, hall]
  have hfree : readHost rules host = some host := by
    rw [readHost, List.isEmpty_eq_false_iff.mpr htext.ne_nil, if_neg Bool.false_ne_true, hhost]
  have huserinfo : readUserinfo rules (List.dropLast []) = [] := rfl
  simp only [readRest, hslashes, hcut, huser, hnone, cutPort_authority htext, hfree,
    readPort_toDigits hport, hpath, hread, hfragment, readPath_slashes hrules hsegments hne,
    huserinfo, Option.bind_eq_bind, Option.bind_some]
  rfl

/-- A URL is read as it is written, but for the dots in its path. -/
theorem read_locator (hrules : rules.Lawful) (hscheme : isHttp scheme = true)
    (hhost : rules.host host = some host)
    (hport : ∀ n ∈ port, n ≤ 65535 ∧ n ≠ defaultPort scheme)
    (hsegments : ∀ segment ∈ segments, Segment rules segment) (hne : segments ≠ [])
    (hquery : ∀ c ∈ query, rules.kept .query c.toNat = true ∧ c ≠ '#') :
    read rules (locator scheme host port segments query).text =
      some (locator scheme host port (walk [] segments) query) := by
  have htext : HostText host := (hrules.host _ _ hhost).2
  have hvisible : Visible (locator scheme host port segments query).text := by
    rw [locator_text]
    have hslashes : Visible "//".toList := visible_of_all (by decide)
    refine (visible_scheme hscheme).append (.cons (by decide) (hslashes.append ?_))
    refine (htext.visible.append (visible_portText port)).append ?_
    refine (visible_slashes hrules hsegments).append (.cons (by decide) fun c hc => ?_)
    exact hrules.visible .query _ (hquery c hc).1
  rw [read, strip_visible hvisible, locator_text, cutScheme_http hscheme, Option.bind_some]
  exact (if_pos hscheme).trans (readRest_locator hrules hhost hport hsegments hne hquery)

theorem noDots_of_text (h : ∀ segment ∈ segments, '/' ∉ segment)
    (htext : (locator scheme host port (walk [] segments) query).text =
      (locator scheme host port segments query).text) : NoDots segments := by
  rw [locator_text, locator_text] at htext
  have hrest := List.append_cancel_left (List.cons.inj (List.append_cancel_left htext)).2
  have hpath := List.append_cancel_right (List.append_cancel_left hrest)
  refine walk_eq_self.mp (slashes_injective (fun segment hsegment => ?_) h hpath)
  rcases mem_walk hsegment with hnone | hmem | rfl
  · cases hnone
  · exact h segment hmem
  · exact List.not_mem_nil

structure Read (rules : Rules) (u : Url) : Prop where
  scheme : isHttp u.scheme = true
  host : ∃ text, rules.host text = some u.host
  port : ∀ n ∈ u.port, n ≤ 65535 ∧ n ≠ defaultPort u.scheme
  path : ∀ segment ∈ u.path, Segment rules segment
  noDots : NoDots u.path

theorem read_spec (hrules : rules.Lawful) {text : Text} {u : Url} (h : read rules text = some u) :
    Read rules u := by
  obtain ⟨⟨scheme, rest⟩, -, h⟩ := Option.bind_eq_some_iff.mp h
  simp only [Option.ite_none_right_eq_some] at h
  obtain ⟨hscheme, h⟩ := h
  simp only [readRest, Option.bind_eq_bind] at h
  obtain ⟨host, hhost, h⟩ := Option.bind_eq_some_iff.mp h
  obtain ⟨port, hport, h⟩ := Option.bind_eq_some_iff.mp h
  obtain ⟨-, hhost⟩ := Option.ite_none_left_eq_some.mp hhost
  have hstop : ∀ text : Text, ∀ c ∈ text.takeWhile fun c => !endsPath c, endsPath c = false := by
    intro text c hc
    have hpass := List.mem_takeWhile_imp hc
    rwa [Bool.not_eq_true'] at hpass
  obtain ⟨hpath, hdots⟩ := readPath_spec hrules
    (hstop ((rest.dropWhile isSlash).dropWhile fun c => !isSlash c && !endsPath c))
  cases h
  exact ⟨hscheme, ⟨_, hhost⟩, readPort_spec hport, hpath, hdots⟩

end Reading

section Kept

/-- The octets that the standard has no part escape. -/
def kept (part : Part) (n : ℕ) : Bool :=
  let escaped := match part with
    | .fragment => " \"<>`"
    | .query => " \"#<>'"
    | .path => " \"#<>?^`\x7b\x7d"
    | .userinfo => " \"#<>?^`\x7b\x7d/:;=@[\\]|"
  33 ≤ n && n ≤ 126 && !escaped.toList.contains (Char.ofNat n)

theorem toNat_of_isAlphanum {c : Char} (h : c.isAlphanum = true) :
    48 ≤ c.toNat ∧ c.toNat ≤ 122 := by
  have hkind : ((c.isUpper || c.isLower) || c.isDigit) = true := h
  rw [Bool.or_eq_true, Bool.or_eq_true] at hkind
  rcases hkind with (hupper | hlower) | hdigit
  · have hrange : c.val ≥ 'A'.val ∧ c.val ≤ 'Z'.val := of_decide_eq_true hupper
    have hlow : 65 ≤ c.toNat := hrange.1
    have hhigh : c.toNat ≤ 90 := hrange.2
    exact ⟨Nat.le_trans (by decide) hlow, Nat.le_trans hhigh (by decide)⟩
  · have hboth : (c.val ≥ 'a'.val && c.val ≤ 'z'.val) = true := hlower
    have hrange := Bool.and_eq_true_iff.mp hboth
    have hlow : 97 ≤ c.toNat := of_decide_eq_true hrange.1
    have hhigh : c.toNat ≤ 122 := of_decide_eq_true hrange.2
    exact ⟨Nat.le_trans (by decide) hlow, hhigh⟩
  · have hrange := Char.isDigit_iff_toNat.mp hdigit
    exact ⟨hrange.1, Nat.le_trans hrange.2 (by decide)⟩

theorem kept_plain (part : Part) {c : Char} (hc : c.isAlphanum = true ∨ c ∈ "-._~%".toList) :
    kept part c.toNat = true := by
  have hall : ∀ n < 128, (Char.ofNat n).isAlphanum = true ∨ Char.ofNat n ∈ "-._~%".toList →
      kept .userinfo n = true ∧ kept .path n = true ∧ kept .query n = true ∧
        kept .fragment n = true := by
    decide +kernel
  have hascii : c.toNat < 128 := by
    rcases hc with halnum | hmem
    · exact Nat.lt_of_le_of_lt (toNat_of_isAlphanum halnum).2 (by decide)
    · have hascii : "-._~%".toList.all (fun c => c.toNat < 128) = true := by decide
      exact of_decide_eq_true (List.all_eq_true.mp hascii c hmem)
  have hself : Char.ofNat c.toNat = c := Char.ofNat_toNat c
  obtain ⟨huserinfo, hpath, hquery, hfragment⟩ := hall c.toNat hascii (by rwa [hself])
  cases part <;> assumption

theorem lawful_kept {host : Text → Option Text}
    (hhost : ∀ text written, host text = some written → host written = some written ∧
      HostText written) : Rules.Lawful ⟨host, kept⟩ where
  host := hhost
  visible part n h := by
    simp only [kept, Bool.and_eq_true, decide_eq_true_eq] at h
    exact h.1
  plain part c hc := kept_plain part hc
  query := by
    have hall : "&=".toList.all (fun c => kept .query c.toNat) = true := by decide
    exact List.all_eq_true.mp hall

end Kept

end Beam.Url
