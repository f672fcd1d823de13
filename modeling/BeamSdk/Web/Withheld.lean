import BeamSdk.Web.RedactedUrl

/-! Texts that differ only in what redaction is there to hide, and what it makes of them. -/

namespace Beam.Web.Logger

open List (Forall₂)

variable (u : Urls)

def AlikeSegment (segment other : List Char) : Prop :=
  segment = other ∨
    nameOf segment = nameOf other ∧ u.sensitive segment = true ∧ u.sensitive other = true

/-- Two texts are one, or one URL with other values for the parameters whose names are sensitive. -/
def AlikeText (text other : List Char) : Prop :=
  text = other ∨ (u.parse (withoutQuery text)).isSome = true ∧ left text = left other ∧
    hash text = hash other ∧ Forall₂ (AlikeSegment u) (segments text) (segments other)

def Carries (text : List Char) : Prop :=
  (u.parse (withoutQuery text)).isSome = true ∧ ∃ segment ∈ segments text,
    u.sensitive segment = true

def mark : List Char := "://".toList

def lasting (segment : List Char) : List Char :=
  if u.sensitive segment then nameOf segment else segment

def Marked (text : List Char) : Prop :=
  mark <:+: left text ∨ mark <:+: hash text ∨
    ∃ segment ∈ segments text, mark <:+: lasting u segment

variable {u}

theorem mark_assemble {l : List Char} {parts : List (List Char)} {h : List Char}
    (hhash : ∀ c ∈ h.head?, c = '#') : mark <:+: assemble l parts h ↔
      mark <:+: l ∨ mark <:+: h ∨ ∃ part ∈ parts, mark <:+: part := by
  have hmark : mark ≠ [] := by decide
  have hquery : mark <:+: l ++ (if parts = [] then [] else '?' :: ['&'].intercalate parts) ↔
      mark <:+: l ∨ ∃ part ∈ parts, mark <:+: part := by
    split
    · rename_i hparts
      rw [hparts, List.append_nil]
      simp
    · rw [Cut.infix_append_cons (by decide), Cut.infix_intercalate hmark (by decide)]
  rw [assemble]
  cases h with
  | nil =>
    rw [List.append_nil, hquery, List.infix_nil]
    exact or_congr_right (or_iff_right hmark).symm
  | cons c h =>
    obtain rfl := hhash c rfl
    rw [Cut.infix_append_cons (by decide), hquery, Cut.infix_cons_stop hmark (by decide), or_assoc]
    exact or_congr_right or_comm

theorem mark_iff (text : List Char) : mark <:+: text ↔
    mark <:+: left text ∨ mark <:+: hash text ∨ ∃ segment ∈ segments text, mark <:+: segment := by
  conv_lhs => rw [← assemble_self text]
  exact mark_assemble (hash_head text)

theorem lasting_occurs (segment : List Char) : lasting u segment <:+: segment := by
  unfold lasting
  split
  · exact (List.takeWhile_prefix _).isInfix
  · exact List.infix_rfl

theorem Marked.occurs {text : List Char} (h : Marked u text) : mark <:+: text := by
  rw [mark_iff]
  rcases h with h | h | ⟨segment, hsegment, h⟩
  · exact .inl h
  · exact .inr (.inl h)
  · exact .inr (.inr ⟨segment, hsegment, h.trans (lasting_occurs segment)⟩)

theorem AlikeSegment.lasting_eq {segment other : List Char} (h : AlikeSegment u segment other) :
    lasting u segment = lasting u other := by
  rcases h with rfl | ⟨hname, hsegment, hother⟩
  · rfl
  · rw [lasting, lasting, if_pos hsegment, if_pos hother, hname]

theorem AlikeText.marked {text other : List Char} (h : AlikeText u text other)
    (hmarked : Marked u text) :
    Marked u other := by
  rcases h with rfl | ⟨-, hleft, hhash, hsegments⟩
  · exact hmarked
  · rcases hmarked with hmark | hmark | ⟨segment, hsegment, hmark⟩
    · exact .inl (hleft ▸ hmark)
    · exact .inr (.inl (hhash ▸ hmark))
    · have hmem : lasting u segment ∈ (segments text).map (lasting u) :=
        List.mem_map_of_mem hsegment
      rw [map_eq_of_forall₂ (hsegments.imp fun _ _ => AlikeSegment.lasting_eq)] at hmem
      obtain ⟨segment', hsegment', heq⟩ := List.mem_map.mp hmem
      exact .inr (.inr ⟨segment', hsegment', heq ▸ hmark⟩)

/-- A text that has no value to hide is like no other. -/
theorem AlikeText.eq {text other : List Char} (h : AlikeText u text other)
    (hnone : ¬ Carries u text) :
    text = other := by
  rcases h with rfl | ⟨hparse, hleft, hhash, hsegments⟩
  · rfl
  · have hsame : segments text = segments other := by
      rw [← List.forall₂_eq_eq_eq]
      have hplain : ∀ segment ∈ segments text, u.sensitive segment ≠ true :=
        fun segment hsegment h => hnone ⟨hparse, segment, hsegment, h⟩
      refine ((List.forall₂_and_left _ _).mpr ⟨hplain, hsegments⟩).imp fun segment segment' h => ?_
      exact h.2.resolve_right fun hdiffer => h.1 hdiffer.2.1
    rw [← assemble_self text, ← assemble_self other, hleft, hhash, hsame]

theorem AlikeText.withoutQuery_eq {text other : List Char} (h : AlikeText u text other) :
    withoutQuery text = withoutQuery other := by
  rcases h with rfl | ⟨-, hleft, hhash, hsegments⟩
  · rfl
  · have hnil : segments text = [] ↔ segments other = [] := by
      rw [← List.length_eq_zero_iff, hsegments.length_eq, List.length_eq_zero_iff]
    have hmark : (search text).take 1 = (search other).take 1 := by
      rw [search_eq, search_eq]
      by_cases hnone : segments text = []
      · rw [if_pos hnone, if_pos (hnil.mp hnone)]
      · rw [if_neg hnone, if_neg fun h => hnone (hnil.mpr h)]
        rfl
    rw [withoutQuery, withoutQuery, hleft, hhash, hmark]

theorem AlikeSegment.masked_param {segment other : List Char} (h : AlikeSegment u segment other)
    (ends : Bool) :
    (u.param (plain ends segment)).map masked = (u.param (plain ends other)).map masked := by
  rcases h with rfl | ⟨hname, hsegment, hother⟩
  · rfl
  · rw [param_plain ends (mem_of_sensitive hsegment),
      param_plain ends (mem_of_sensitive hother), ← hname]
    rw [Urls.sensitive, Bool.and_eq_true] at hsegment
    rw [Option.map_some, Option.map_some, masked, masked, if_pos hsegment.2, if_pos hsegment.2]

theorem masked_params {segments others : List (List Char)} (ends : Bool)
    (h : Forall₂ (AlikeSegment u) segments others) :
    ((plains ends segments).filterMap u.param).map masked =
      ((plains ends others).filterMap u.param).map masked := by
  rw [List.map_filterMap, List.map_filterMap]
  induction h with
  | nil => rfl
  | cons hfirst hrest ih =>
    cases hrest with
    | nil => rw [plains, plains, List.filterMap_cons, List.filterMap_cons, hfirst.masked_param]
    | @cons next next' segments others hnext hrest =>
      have hplains : ∀ first next segments,
          plains ends (first :: next :: segments) = plain false first ::
            plains ends (next :: segments) :=
        fun _ _ _ => rfl
      rw [hplains, hplains, List.filterMap_cons, List.filterMap_cons, hfirst.masked_param, ih]

theorem AlikeText.masked_searchParams {text other : List Char} (h : AlikeText u text other) :
    (u.searchParams text).map masked = (u.searchParams other).map masked := by
  rcases h with rfl | ⟨-, -, hhash, hsegments⟩
  · rfl
  · rw [Urls.searchParams, Urls.searchParams, hhash]
    exact masked_params _ hsegments

theorem any_masked (params : Params) :
    (params.map masked).any (fun param => sensitiveKey param.1) = params.any fun param =>
      sensitiveKey param.1 := by
  rw [List.any_map]
  congr 1
  funext param
  rw [Function.comp_apply, masked_fst]

theorem mem_plains (ends : Bool) {segments : List (List Char)} {segment : List Char}
    (h : segment ∈ segments) :
    ∃ ends', plain ends' segment ∈ plains ends segments := by
  induction segments with
  | nil => cases h
  | cons first segments ih =>
    cases segments with
    | nil =>
      obtain rfl := List.mem_singleton.mp h
      exact ⟨ends, List.mem_singleton_self _⟩
    | cons next segments =>
      have hplains : plains ends (first :: next :: segments) = plain false first ::
          plains ends (next :: segments) := rfl
      rw [hplains]
      rcases List.mem_cons.mp h with rfl | h
      · exact ⟨false, List.mem_cons_self⟩
      · obtain ⟨ends', hmem⟩ := ih h
        exact ⟨ends', List.mem_cons_of_mem _ hmem⟩

theorem Carries.any {text : List Char} (h : Carries u text) :
    (u.searchParams text).any (fun param => sensitiveKey param.1) = true := by
  obtain ⟨-, segment, hsegment, hsensitive⟩ := h
  obtain ⟨ends, hplain⟩ := mem_plains (hash text).isEmpty hsegment
  rw [List.any_eq_true]
  refine ⟨_, List.mem_filterMap.mpr ⟨_, hplain, param_plain ends (mem_of_sensitive hsensitive)⟩, ?_⟩
  rw [Urls.sensitive, Bool.and_eq_true] at hsensitive
  exact hsensitive.2

/-- A URL whose mark stands outside the values that are to be hidden is shown without them. -/
theorem AlikeText.redactText_eq {text other : List Char} (h : AlikeText u text other)
    (hmarked : Carries u text → Marked u text) : redactText u text = redactText u other := by
  by_cases hcarries : Carries u text
  · have hmark := hmarked hcarries
    have hany := hcarries.any
    have hany' : (u.searchParams other).any (fun param => sensitiveKey param.1) = true := by
      rw [← any_masked, ← h.masked_searchParams, any_masked]
      exact hany
    have htext : "://".toList <:+: text := hmark.occurs
    have hother : "://".toList <:+: other := (h.marked hmark).occurs
    obtain ⟨address, haddress⟩ := Option.isSome_iff_exists.mp hcarries.1
    have hparse : u.parse (withoutQuery other) = some address := by
      rw [← h.withoutQuery_eq, haddress]
    rw [redactText, redactText, if_pos htext, if_pos hother, redactUrl, redactUrl, haddress, hparse]
    simp only
    rw [if_pos hany, if_pos hany', hidden_masked, h.masked_searchParams, ← hidden_masked]
  · rw [h.eq hcarries]

section Blanked

def blank (u : Urls) (value : Char) (segment : List Char) : List Char :=
  if u.sensitive segment then nameOf segment ++ '=' :: [value] else segment

def blankText (u : Urls) (value : Char) (text : List Char) : List Char :=
  assemble (left text) ((segments text).map (blank u value)) (hash text)

variable {value : Char} (hvalue : value ≠ '&' ∧ value ≠ '#')

theorem blank_alike (value : Char) (segment : List Char) :
    AlikeSegment u segment (blank u value segment) := by
  unfold blank
  split
  · rename_i hsensitive
    obtain ⟨hname, -⟩ := nameOf_cut (cut_segment (mem_of_sensitive hsensitive)).2 [value]
    refine .inr ⟨hname.symm, hsensitive, ?_⟩
    rw [Urls.sensitive, Bool.and_eq_true] at hsensitive ⊢
    rw [hname]
    exact ⟨by simp, hsensitive.2⟩
  · exact .inl rfl

include hvalue in
theorem blank_cuts (text : List Char) : Cuts (left text) ((segments text).map (blank u value))
    (hash text) := by
  have hcuts := cuts_self text
  have hsubset : ∀ c, c ≠ '=' → c ≠ value → ∀ segment ∈ segments text, c ∉ segment →
      c ∉ blank u value segment := by
    intro c hequals hother segment _ hnot
    unfold blank
    split
    · intro hmem
      rcases List.mem_append.mp hmem with hmem | hmem
      · exact hnot ((List.takeWhile_prefix _).subset hmem)
      · simp [hequals, hother] at hmem
    · exact hnot
  refine ⟨hcuts.left_query, hcuts.left_hash, ?_, ?_, hcuts.hash_head⟩
  · intro segment' hsegment'
    obtain ⟨segment, hsegment, rfl⟩ := List.mem_map.mp hsegment'
    exact hsubset '&' (by decide) hvalue.1.symm segment hsegment
      (hcuts.segment_next segment hsegment)
  · intro segment' hsegment'
    obtain ⟨segment, hsegment, rfl⟩ := List.mem_map.mp hsegment'
    exact hsubset '#' (by decide) hvalue.2.symm segment hsegment
      (hcuts.segment_hash segment hsegment)

include hvalue in
theorem blankText_alike {text : List Char} (hparse : (u.parse (withoutQuery text)).isSome = true) :
    AlikeText u text (blankText u value text) := by
  have hcuts := blank_cuts (u := u) hvalue text
  refine .inr ⟨hparse, (left_assemble hcuts).1.symm, (front_assemble hcuts).2.symm, ?_⟩
  rw [blankText, segments_assemble hcuts, List.forall₂_map_right_iff, List.forall₂_same]
  exact fun segment _ => blank_alike value segment

theorem blank_mark (segment : List Char) : mark <:+: blank u value segment ↔
    mark <:+: lasting u segment := by
  unfold blank lasting
  split
  · rw [Cut.infix_append_cons (by decide)]
    refine or_iff_left fun h => ?_
    have hlong : 3 ≤ 1 := h.length_le
    exact absurd hlong (by decide)
  · rfl

theorem blankText_mark (text : List Char) : mark <:+: blankText u value text ↔ Marked u text := by
  rw [blankText, mark_assemble (hash_head text), Marked]
  simp only [List.mem_map, exists_exists_and_eq_and, blank_mark]

end Blanked
end Beam.Web.Logger
