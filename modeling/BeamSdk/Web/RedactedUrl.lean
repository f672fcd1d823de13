import Mathlib.Data.List.Forall2
import Mathlib.Tactic.Tauto
import BeamSdk.Library.Cut
import BeamSdk.Library.Lists
import BeamSdk.Web.Redaction

/-! What redaction makes of a text that is a URL. -/

namespace Beam.Web.Logger

open List (Forall₂)

def assemble (left : List Char) (segments : List (List Char)) (hash : List Char) : List Char :=
  left ++ (if segments = [] then [] else '?' :: ['&'].intercalate segments) ++ hash

theorem hash_head (text : List Char) : ∀ c ∈ (hash text).head?, c = '#' := by
  intro c hc
  have hhead := List.head?_dropWhile_not (· ≠ '#') text
  rw [hash] at hc
  rw [Option.mem_def.mp hc] at hhead
  simpa using hhead

theorem search_head (text : List Char) : ∀ c ∈ (search text).head?, c = '?' := by
  intro c hc
  have hhead := List.head?_dropWhile_not (· ≠ '?') (front text)
  rw [search] at hc
  rw [Option.mem_def.mp hc] at hhead
  simpa using hhead

theorem cut_text (text : List Char) : left text ++ search text ++ hash text = text := by
  rw [left, search, List.takeWhile_append_dropWhile, front, hash, List.takeWhile_append_dropWhile]

theorem search_eq (text : List Char) :
    search text = if segments text = [] then [] else '?' :: ['&'].intercalate (segments text) := by
  have hhead := search_head text
  rw [segments]
  cases hsearch : search text with
  | nil => rfl
  | cons c query =>
    obtain rfl := hhead c (by rw [hsearch]; rfl)
    simp only
    rw [if_neg (List.splitOn_ne_nil '&' query), List.intercalate_splitOn]

theorem assemble_self (text : List Char) : assemble (left text) (segments text)
    (hash text) = text := by
  rw [assemble, ← search_eq, cut_text]

/-- The parts of a text that is cut there and nowhere else. -/
structure Cuts (left : List Char) (segments : List (List Char)) (hash : List Char) : Prop where
  left_query : '?' ∉ left
  left_hash : '#' ∉ left
  segment_next : ∀ segment ∈ segments, '&' ∉ segment
  segment_hash : ∀ segment ∈ segments, '#' ∉ segment
  hash_head : ∀ c ∈ hash.head?, c = '#'

theorem cuts_self (text : List Char) : Cuts (left text) (segments text) (hash text) := by
  have hfront : '#' ∉ front text := fun h => by simpa using List.mem_takeWhile_imp h
  have hcut : left text ++ search text = front text := List.takeWhile_append_dropWhile
  refine ⟨fun h =>
    by simpa using List.mem_takeWhile_imp h, fun h => hfront ?_, ?_, ?_, hash_head text⟩
  · rw [← hcut]
    exact List.mem_append_left _ h
  · intro segment hsegment
    rw [segments] at hsegment
    split at hsegment
    · cases hsegment
    · exact Cut.notMem_of_mem_splitOn hsegment
  · intro segment hsegment hmem
    apply hfront
    rw [← hcut, search_eq, if_neg (List.ne_nil_of_mem hsegment)]
    exact List.mem_append_right _ (List.mem_cons_of_mem _ (subset_intercalate hsegment hmem))

section Assembled
variable {l : List Char} {parts : List (List Char)} {h : List Char} (hcuts : Cuts l parts h)
include hcuts

theorem front_assemble : front (assemble l parts h) =
    l ++ (if parts = [] then [] else '?' :: ['&'].intercalate parts) ∧
      hash (assemble l parts h) = h := by
  apply Cut.takeWhile_stop
  · intro c hc
    rw [decide_eq_true_eq]
    rintro rfl
    rcases List.mem_append.mp hc with hc | hc
    · exact hcuts.left_hash hc
    · split at hc
      · cases hc
      · rcases List.mem_cons.mp hc with hc | hc
        · exact absurd hc (by decide)
        · obtain ⟨part, hpart, hmem⟩ := exists_of_mem_intercalate hc
          rcases hmem with hmem | hmem
          · exact hcuts.segment_hash part hpart hmem
          · exact absurd hmem (by decide)
  · intro c hc
    simp [hcuts.hash_head c hc]

theorem left_assemble : left (assemble l parts h) = l ∧
    search (assemble l parts h) = if parts = [] then [] else '?' :: ['&'].intercalate parts := by
  rw [left, search, (front_assemble hcuts).1]
  apply Cut.takeWhile_stop
  · intro c hc
    rw [decide_eq_true_eq]
    rintro rfl
    exact hcuts.left_query hc
  · intro c hc
    split at hc
    · cases hc
    · obtain rfl := Option.some.inj hc
      rfl

theorem segments_assemble : segments (assemble l parts h) = parts := by
  rw [segments, (left_assemble hcuts).2]
  by_cases hparts : parts = []
  · rw [if_pos hparts, hparts]
  · rw [if_neg hparts]
    exact List.splitOn_intercalate '&' hcuts.segment_next hparts

end Assembled

section Params
variable (u : Urls)

theorem cut_segment {segment : List Char} (h : '=' ∈ segment) :
    segment = nameOf segment ++ '=' :: valueOf segment ∧ '=' ∉ nameOf segment := by
  have hname : '=' ∉ nameOf segment := fun hmem => by simpa using List.mem_takeWhile_imp hmem
  refine ⟨?_, hname⟩
  have hcut : nameOf segment ++ segment.dropWhile (· ≠ '=') = segment :=
    List.takeWhile_append_dropWhile
  have hhead := List.head?_dropWhile_not (· ≠ '=') segment
  rw [valueOf]
  cases hrest : segment.dropWhile (· ≠ '=') with
  | nil =>
    rw [hrest, List.append_nil] at hcut
    exact absurd (hcut.symm ▸ h) hname
  | cons c rest =>
    rw [hrest] at hhead hcut
    obtain rfl : c = '=' := by simpa using hhead
    exact hcut.symm

theorem nameOf_cut {name : List Char} (h : '=' ∉ name) (value : List Char) :
    nameOf (name ++ '=' :: value) = name ∧ valueOf (name ++ '=' :: value) = value := by
  have hname : ∀ c ∈ name, decide (c ≠ '=') = true := by
    intro c hc
    rw [decide_eq_true_eq]
    rintro rfl
    exact h hc
  have hvalue : ∀ c ∈ ('=' :: value).head?, decide (c ≠ '=') = false := by
    intro c hc
    obtain rfl := Option.some.inj hc
    rfl
  obtain ⟨htake, hdrop⟩ := Cut.takeWhile_stop hname hvalue
  rw [nameOf, valueOf, htake, hdrop]
  exact ⟨rfl, rfl⟩

theorem rdropWhile_cut (name value : List Char) :
    (name ++ '=' :: value).rdropWhile (· ≤ ' ') = name ++ '=' :: value.rdropWhile (· ≤ ' ') := by
  induction value using List.reverseRecOn with
  | nil => exact List.rdropWhile_concat_neg _ _ _ (by decide)
  | append_singleton value c ih =>
    rw [List.rdropWhile_concat, ← List.cons_append, ← List.append_assoc, List.rdropWhile_concat, ih]
    split
    · rfl
    · rw [List.append_assoc, List.cons_append]

theorem plain_cut (ends : Bool) (name value : List Char) :
    plain ends (name ++ '=' :: value) = plain false name ++ '=' :: plain ends value := by
  cases ends with
  | false => simp [plain]
  | true => simp [plain, rdropWhile_cut]

theorem notMem_plain {c : Char} {name : List Char} (h : c ∉ name) : c ∉ plain false name :=
  fun hc => h (List.mem_of_mem_filter hc)

def Urls.sensitive (segment : List Char) : Bool :=
  segment.contains '=' && sensitiveKey (u.decode (plain false (nameOf segment)))

variable {u}

theorem mem_of_sensitive {segment : List Char} (h : u.sensitive segment = true) :
    '=' ∈ segment := by
  rw [Urls.sensitive, Bool.and_eq_true] at h
  simpa using h.1

theorem param_plain (ends : Bool) {segment : List Char} (h : '=' ∈ segment) :
    u.param (plain ends segment) =
    some (u.decode (plain false (nameOf segment)), u.decode (plain ends (valueOf segment))) := by
  obtain ⟨hsegment, hname⟩ := cut_segment h
  have hplain : plain ends segment = plain false (nameOf segment) ++ '=' ::
      plain ends (valueOf segment) := by
    conv_lhs => rw [hsegment]
    exact plain_cut ends _ _
  obtain ⟨hnameOf, hvalueOf⟩ := nameOf_cut (notMem_plain hname) (plain ends (valueOf segment))
  rw [hplain, Urls.param, if_neg (by simp), hnameOf, hvalueOf]

end Params

section Hidden

def masked (param : List Char × List Char) : List Char × List Char :=
  if sensitiveKey param.1 then (param.1, redacted) else param

theorem masked_fst (param : List Char × List Char) : (masked param).1 = param.1 := by
  unfold masked
  split
  · rfl
  · rfl

theorem mem_setParam {name value : List Char} {params : Params} {param : List Char × List Char} :
    param ∈ setParam name value params ↔ param = (name, value) ∨ param.1 ≠ name ∧
      param ∈ params := by
  induction params with
  | nil => simp [setParam]
  | cons first params ih =>
    rw [setParam]
    by_cases hfirst : first.1 = name
    · rw [if_pos hfirst, List.mem_cons, List.mem_cons, List.mem_filter, decide_eq_true_eq]
      constructor
      · rintro (h | ⟨hmem, hne⟩)
        · exact .inl h
        · exact .inr ⟨hne, .inr hmem⟩
      · rintro (h | ⟨hne, rfl | hmem⟩)
        · exact .inl h
        · exact absurd hfirst hne
        · exact .inr ⟨hmem, hne⟩
    · rw [if_neg hfirst, List.mem_cons, List.mem_cons, ih]
      constructor
      · rintro (rfl | h | ⟨hne, hmem⟩)
        · exact .inr ⟨hfirst, .inl rfl⟩
        · exact .inl h
        · exact .inr ⟨hne, .inr hmem⟩
      · rintro (h | ⟨hne, rfl | hmem⟩)
        · exact .inr (.inl h)
        · exact .inl rfl
        · exact .inr (.inr ⟨hne, hmem⟩)

theorem map_masked_setParam {name : List Char} (h : sensitiveKey name = true) (params : Params) :
    (setParam name redacted params).map masked = setParam name redacted (params.map masked) := by
  have hname : masked (name, redacted) = (name, redacted) := if_pos h
  induction params with
  | nil => rw [setParam, List.map_cons, hname]; rfl
  | cons first params ih =>
    rw [setParam, List.map_cons, setParam, masked_fst]
    split
    · rw [List.map_cons, hname, List.filter_map]
      congr 2
      apply List.filter_congr
      intro param _
      rw [Function.comp_apply, masked_fst]
    · rw [List.map_cons, ih]

/-- What `redactUrl` does with the names it has listed. -/
def hideAll (keys : List (List Char)) (params : Params) : Params :=
  keys.foldl (fun params key => if sensitiveKey key then setParam key redacted params
    else params) params

theorem mem_hideAll {keys : List (List Char)} {params : Params} {param : List Char × List Char} :
    param ∈ hideAll keys params ↔
      (param.1 ∈ keys ∧ sensitiveKey param.1 = true ∧ param.2 = redacted) ∨
      (¬ (param.1 ∈ keys ∧ sensitiveKey param.1 = true) ∧ param ∈ params) := by
  induction keys generalizing params with
  | nil => simp [hideAll]
  | cons key keys ih =>
    have hstep : hideAll (key :: keys) params =
        hideAll keys (if sensitiveKey key then setParam key redacted params else params) := rfl
    rw [hstep, ih]
    by_cases hkey : sensitiveKey key = true
    · rw [if_pos hkey, mem_setParam]
      by_cases hname : param.1 = key
      · have hpair : param = (key, redacted) ↔ param.2 = redacted := by
          rw [← hname]
          exact ⟨fun h => by rw [h], fun h => by rw [← h]⟩
        simp only [hname, hkey, hpair, List.mem_cons_self]
        tauto
      · have hpair : param ≠ (key, redacted) := fun h => hname (by rw [h])
        simp only [hname, hpair, List.mem_cons]
        tauto
    · rw [if_neg hkey]
      by_cases hname : param.1 = key
      · rw [← hname] at hkey
        simp only [hkey]
        tauto
      · simp only [hname, List.mem_cons]
        tauto

theorem mem_hidden {params : Params} {param : List Char × List Char} : param ∈ hidden params ↔
    (param.1 ∈ params.map Prod.fst ∧ sensitiveKey param.1 = true ∧ param.2 = redacted) ∨
    (sensitiveKey param.1 ≠ true ∧ param ∈ params) := by
  have hall : hidden params = hideAll (params.map Prod.fst) params := rfl
  have hname : param ∈ params → param.1 ∈ params.map Prod.fst := fun h => List.mem_map_of_mem h
  rw [hall, mem_hideAll]
  tauto

theorem map_masked_hideAll (keys : List (List Char)) (params : Params) :
    (hideAll keys params).map masked = hideAll keys (params.map masked) := by
  induction keys generalizing params with
  | nil => rfl
  | cons key keys ih =>
    have hstep : ∀ params, hideAll (key :: keys) params =
        hideAll keys (if sensitiveKey key then setParam key redacted params else params) :=
          fun _ => rfl
    rw [hstep, hstep, ih]
    split
    · rename_i hkey
      rw [map_masked_setParam hkey]
    · rfl

/-- What is left of the parameters does not depend on the values that are hidden. -/
theorem hidden_masked (params : Params) : hidden params = hidden (params.map masked) := by
  have hself : (hidden params).map masked = hidden params := by
    refine (List.map_congr_left fun param hparam => ?_).trans (List.map_id _)
    rcases mem_hidden.mp hparam with ⟨_, hsensitive, hvalue⟩ | ⟨hplain, _⟩
    · rw [masked, if_pos hsensitive, ← hvalue]
      rfl
    · rw [masked, if_neg hplain]
      rfl
  have hnames : (params.map masked).map Prod.fst = params.map Prod.fst := by
    rw [List.map_map]
    exact List.map_congr_left fun param _ => masked_fst param
  have hall : ∀ params, hidden params = hideAll (params.map Prod.fst) params := fun _ => rfl
  rw [← hself, hall params, map_masked_hideAll, hall (params.map masked), hnames]

end Hidden
end Beam.Web.Logger
