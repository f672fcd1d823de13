import Mathlib.Algebra.GroupWithZero.Nat
import BeamSdk.Signing.Directives

/-! The texts a recovery directive carries: the identifier of an attempt, in hexadecimal runs, and
an entity tag in its quotes. -/

namespace Beam.Signing

theorem ne_of_hex {c d : Char} (h : isHexDigit c = true) (hd : isHexDigit d = false) : c ≠ d := by
  rintro rfl
  simp [h] at hd

theorem filter_hyphen {text : List Char} (h : ∀ c ∈ text, isHexDigit c = true) :
    (text.filter fun c => c ≠ '-') = text := by
  apply List.filter_eq_self.mpr
  intro c hc
  simpa using ne_of_hex (h c hc) (show isHexDigit '-' = false by decide)

theorem hexRuns_chars : ∀ (lengths : List ℕ) (text : List Char), hexRuns lengths text = true →
    (∀ c ∈ text, c = '-' ∨ isHexDigit c = true) ∧
      (text.filter fun c => c ≠ '-').length = lengths.sum
  | [], text, h => by
    have htext : text = [] := by simpa [hexRuns] using h
    simp [htext]
  | [length], text, h => by
    simp only [hexRuns, Bool.and_eq_true, beq_iff_eq, List.all_eq_true] at h
    obtain ⟨hlength, hdigits⟩ := h
    refine ⟨fun c hc => .inr (hdigits c hc), ?_⟩
    rw [filter_hyphen hdigits, hlength, List.sum_singleton]
  | length :: next :: lengths, text, h => by
    simp only [hexRuns, Bool.and_eq_true, beq_iff_eq, List.all_eq_true] at h
    obtain ⟨⟨⟨hlength, hdigits⟩, hhyphen⟩, hrest⟩ := h
    obtain ⟨hchars, hkept⟩ := hexRuns_chars (next :: lengths) (text.drop (length + 1)) hrest
    have hsplit : text = text.take length ++ '-' :: text.drop (length + 1) := by
      obtain ⟨rest, hdrop⟩ : ∃ rest, text.drop length = '-' :: rest := by
        cases hdrop : text.drop length with
        | nil => simp [hdrop] at hhyphen
        | cons c rest => exact ⟨rest, by simp_all⟩
      have htail : text.drop (length + 1) = rest := by
        rw [← List.tail_drop, hdrop, List.tail_cons]
      rw [htail, ← hdrop, List.take_append_drop]
    constructor
    · intro c hc
      rw [hsplit, List.mem_append, List.mem_cons] at hc
      rcases hc with hc | rfl | hc
      · exact .inr (hdigits c hc)
      · exact .inl rfl
      · exact hchars c hc
    · rw [hsplit, List.filter_append, filter_hyphen hdigits, List.length_append, hlength,
        List.filter_cons_of_neg (by simp), hkept, List.sum_cons (a := length)]

theorem hexDigits_of_all {text : List Char} (h : ∀ c ∈ text, isHexDigit c = true)
    (afterDigit : Bool)
    (hsome : afterDigit = true ∨ text ≠ []) : Python.hexDigits afterDigit text = true := by
  induction text generalizing afterDigit with
  | nil => simpa [Python.hexDigits] using hsome
  | cons c rest ih =>
    rw [Python.hexDigits, if_pos (h c List.mem_cons_self)]
    exact ih (fun d hd => h d (List.mem_cons_of_mem c hd)) true (.inl rfl)

theorem isHexDigit_ascii {c : Char} (h : isHexDigit c = true) : c.toNat < 128 := by
  by_contra hc
  simp only [isHexDigit, Uri.hexValue] at h
  split_ifs at h <;> first | omega | simp at h

theorem isSpace_of_hex {c : Char} (h : isHexDigit c = true) : Python.isSpace c = false := by
  by_contra hspace
  simp only [Python.isSpace, Bool.not_eq_false, Bool.or_eq_true, Bool.and_eq_true,
    decide_eq_true_eq] at hspace
  rcases hspace with rfl | ⟨hlow, hhigh⟩
  · exact absurd h (by decide)
  · simp only [isHexDigit, Uri.hexValue] at h
    split_ifs at h <;> first | omega | simp at h

theorem dropSign_of_hex {c : Char} (h : isHexDigit c = true) (rest : List Char) :
    Python.dropSign (c :: rest) = c :: rest := by
  unfold Python.dropSign
  split
  · rename_i heq
    exact absurd (List.cons.inj heq).1 (ne_of_hex h (by decide))
  · rename_i heq
    exact absurd (List.cons.inj heq).1 (ne_of_hex h (by decide))
  · rfl

theorem dropRadix_of_hex {c d : Char} (h : isHexDigit d = true) (rest : List Char) :
    Python.dropRadix (c :: d :: rest) = c :: d :: rest := by
  unfold Python.dropRadix
  split
  all_goals first
    | rfl
    | rename_i heq
      exact absurd (List.cons.inj (List.cons.inj heq).2).1 (ne_of_hex h (by decide))

theorem readsHex_of_all (unicode : Char → Char) {c d : Char} {rest : List Char}
    (h : ∀ e ∈ c :: d :: rest, isHexDigit e = true) :
      Python.readsHex unicode (c :: d :: rest) = true := by
  have hmap : ((c :: d :: rest).map fun e => if e.toNat < 128 then e else unicode e) = c ::
      d :: rest := by
    have hself : ∀ e ∈ c :: d :: rest, (if e.toNat < 128 then e else unicode e) = id e :=
      fun e he =>
      if_pos (isHexDigit_ascii (h e he))
    rw [List.map_congr_left hself, List.map_id]
  have hspace := isSpace_of_hex (h c List.mem_cons_self)
  have hd := h d (List.mem_cons_of_mem c List.mem_cons_self)
  simp only [Python.readsHex, hmap, List.dropWhile_cons, hspace, Bool.false_eq_true, if_false]
  rw [dropSign_of_hex (h c List.mem_cons_self), dropRadix_of_hex hd]
  exact hexDigits_of_all h false (.inr (List.cons_ne_nil c _))

theorem removeAll_of_notMem {c : Char} {pattern text : List Char} (h : c ∉ text) :
    Python.removeAll (c :: pattern) 0 text = text := by
  induction text with
  | nil => rfl
  | cons d rest ih =>
    have hne : c ≠ d := fun heq => h (heq ▸ List.mem_cons_self)
    rw [Python.removeAll, if_neg (by simp [hne]), ih fun hmem => h (List.mem_cons_of_mem d hmem)]

theorem dropWhile_of_none {text : List Char} {drops : Char → Bool}
    (h : ∀ c ∈ text, drops c = false) :
    text.dropWhile drops = text := by
  cases text with
  | nil => rfl
  | cons c rest => rw [List.dropWhile_cons, h c List.mem_cons_self, if_neg Bool.false_ne_true]

theorem acceptsUUID_of_hexRuns (unicode : Char → Char) {attemptID : String}
    (h : hexRuns [8, 4, 4, 4, 12] attemptID.toList = true) :
      Python.acceptsUUID unicode attemptID = true := by
  obtain ⟨hchars, hlength⟩ := hexRuns_chars _ _ h
  have hnot : ∀ c : Char, c ≠ '-' → isHexDigit c = false → c ∉ attemptID.toList := by
    intro c hhyphen hhex hmem
    rcases hchars c hmem with heq | hdigit
    · exact hhyphen heq
    · simp [hhex] at hdigit
  have hurn : Python.removeAll "urn:".toList 0 attemptID.toList = attemptID.toList :=
    removeAll_of_notMem (hnot 'u' (by decide) (by decide))
  have huuid : Python.removeAll "uuid:".toList 0 attemptID.toList = attemptID.toList :=
    removeAll_of_notMem (hnot 'u' (by decide) (by decide))
  have hbraces : ∀ c ∈ attemptID.toList, (c = '{' || c = '}') = false := by
    intro c hc
    rcases hchars c hc with rfl | hdigit
    · rfl
    · simp [ne_of_hex hdigit (show isHexDigit '{' = false by decide),
        ne_of_hex hdigit (show isHexDigit '}' = false by decide)]
  have hstrip : Python.strip (fun c => c = '{' || c = '}') attemptID.toList = attemptID.toList := by
    rw [Python.strip, dropWhile_of_none hbraces,
      dropWhile_of_none fun c hc => hbraces c (List.mem_reverse.mp hc), List.reverse_reverse]
  have hdigits : ∀ c ∈ attemptID.toList.filter fun c => c ≠ '-', isHexDigit c = true := by
    intro c hc
    obtain ⟨hmem, hne⟩ := List.mem_filter.mp hc
    exact (hchars c hmem).resolve_left (by simpa using hne)
  simp only [Python.acceptsUUID, hurn, huuid, hstrip, hlength]
  cases htext : attemptID.toList.filter fun c => c ≠ '-' with
  | nil =>
    rw [htext] at hlength
    cases hlength
  | cons c rest =>
    rw [htext] at hdigits hlength
    cases rest with
    | nil => cases hlength
    | cons d rest => simp [readsHex_of_all unicode hdigits]

def QuotedOnce (etag : List Char) : Prop := etag = ['"', '"'] ∨ ¬ ['"', '"'] <+: etag ∧
    ¬ ['"', '"'] <:+ etag

theorem dropQuote_eq {text : List Char} (h : ¬ ['"', '"'] <+: text) :
    dropQuote text = text.dropWhile (· == '"') := by
  unfold dropQuote
  split
  · rename_i rest
    cases rest with
    | nil => rfl
    | cons c rest =>
      have hc : c ≠ '"' := by
        rintro rfl
        exact h (List.prefix_append _ rest)
      simp [hc]
  · rename_i hquote
    cases text with
    | nil => rfl
    | cons c rest =>
      have hc : c ≠ '"' := by
        rintro rfl
        exact hquote rest rfl
      simp [hc]

theorem dropQuote_suffix (text : List Char) : dropQuote text <:+ text := by
  unfold dropQuote
  split
  · exact List.suffix_cons _ _
  · exact List.suffix_rfl

theorem dropQuote_append {text : List Char} (h : text ≠ []) (rest : List Char) :
    dropQuote (text ++ rest) = dropQuote text ++ rest := by
  cases text with
  | nil => exact absurd rfl h
  | cons c text =>
    by_cases hc : c = '"'
    · subst hc
      rfl
    · rw [List.cons_append]
      unfold dropQuote
      split
      · exact absurd (List.cons.inj ‹_›).1 hc
      · split
        · exact absurd (List.cons.inj ‹_›).1 hc
        · rfl

theorem dropWhile_quote_ne (text rest : List Char) : text.dropWhile (· == '"') ≠ '"' :: rest := by
  induction text with
  | nil => simp
  | cons c text ih =>
    rw [List.dropWhile_cons]
    split
    · exact ih
    · rintro heq
      obtain ⟨rfl, -⟩ := List.cons.inj heq
      simp_all

theorem strip_eq_trim_iff (etag : List Char) :
    (dropQuote (dropQuote etag).reverse).reverse
        = ((etag.dropWhile (· == '"')).reverse.dropWhile (· == '"')).reverse ↔ QuotedOnce etag := by
  rw [List.reverse_inj]
  constructor
  · intro heq
    by_cases htwo : etag = ['"', '"']
    · exact .inl htwo
    refine .inr ⟨?_, ?_⟩
    · rintro ⟨rest, rfl⟩
      have hrest : rest ≠ [] := by
        rintro rfl
        exact htwo rfl
      have hreverse : rest.reverse ≠ [] := by simpa using hrest
      have hlast : ['"'] <:+ dropQuote (dropQuote (['"', '"'] ++ rest)).reverse := by
        change ['"'] <:+ dropQuote ('"' :: rest).reverse
        rw [List.reverse_cons, dropQuote_append hreverse]
        exact List.suffix_append _ _
      rw [heq] at hlast
      have hstart : ['"'].reverse <:+ ((['"', '"'] ++ rest).dropWhile (· == '"')).reverse :=
        hlast.trans (List.dropWhile_suffix _)
      obtain ⟨_, htext⟩ := List.reverse_suffix.mp hstart
      exact dropWhile_quote_ne _ _ htext.symm
    · rintro ⟨front, rfl⟩
      have hfront : front ≠ [] := by
        rintro rfl
        exact htwo rfl
      rw [dropQuote_append hfront, List.reverse_append] at heq
      exact dropWhile_quote_ne _ _ heq.symm
  · rintro (rfl | ⟨hfirst, hlast⟩)
    · rfl
    · have hstart := dropQuote_eq hfirst
      have hend : ¬ ['"', '"'] <+: (dropQuote etag).reverse := by
        intro hend
        have hsuffix : ['"', '"'] <:+ dropQuote etag := by simpa using List.reverse_suffix.mpr hend
        exact hlast (hsuffix.trans (dropQuote_suffix etag))
      rw [dropQuote_eq hend, hstart]

end Beam.Signing
