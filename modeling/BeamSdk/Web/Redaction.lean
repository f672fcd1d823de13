import BeamSdk.Web.Logger

/-! What redaction leaves of a string. -/

namespace Beam.Web.Logger

open Pattern

def run (text : List Char) : List Char := text.takeWhile body

def Credential (before : Option Char) (text : List Char) : Prop :=
  before.any word ≠ text.head?.any word ∧ ∃ w ∈ heads, w <+: text ∧ w.length + 8 ≤ (run text).length

instance (before : Option Char) (text : List Char) : Decidable (Credential before text) :=
  inferInstanceAs (Decidable (_ ∧ ∃ _ ∈ _, _))

theorem run_cons (c : Char) (text : List Char) : run (c :: text) = if body c then c ::
    run text else [] :=
  List.takeWhile_cons

theorem heads_body {w : List Char} (hw : w ∈ heads) : ∀ c ∈ w, body c = true := by
  have hall : heads.all (fun w => w.all body) = true := by decide
  exact List.all_eq_true.mp (List.all_eq_true.mp hall w hw)

theorem heads_long {w : List Char} (hw : w ∈ heads) : 3 ≤ w.length := by
  revert w
  decide

theorem run_append {taken : List Char} (htaken : ∀ c ∈ taken, body c = true) (text : List Char) :
    run (taken ++ text) = taken ++ run text := List.takeWhile_append_of_pos htaken

theorem exec_rest (before : Option Char) (text : List Char) :
    (seq (.optional (one (· == '_'))) (many body 8)).exec before text =
      if 8 ≤ (run text).length then some (run text) else none := by
  have hmany : ∀ before text, (many body 8).exec before text =
      if 8 ≤ (run text).length then some (run text) else none := exec_many body 8
  rw [exec_optional, exec_one, hmany]
  cases text with
  | nil => rfl
  | cons c text =>
    simp only
    split
    · rename_i hc
      obtain rfl : c = '_' := by simpa using hc
      have hrun : run ('_' :: text) = '_' :: run text := by
        rw [run_cons, if_pos (by decide)]
      rw [hmany, hrun]
      split
      · rename_i hlong
        have hlonger : 8 ≤ ('_' :: run text).length := Nat.le_succ_of_le hlong
        rw [if_pos hlonger]
        rfl
      · rfl
    · rfl

theorem exec_head {w : List Char} (hw : w ∈ heads) (before : Option Char) (text : List Char) :
    (if w <+: text then ((seq (.optional (one (· == '_'))) (many body 8)).exec (last before w)
      (text.drop w.length)).map
      (w ++ ·) else none) = if w <+: text ∧ w.length + 8 ≤ (run text).length then some (run text)
        else none := by
  by_cases hprefix : w <+: text
  · obtain ⟨rest, rfl⟩ := hprefix
    rw [if_pos (List.prefix_append w rest), List.drop_left, exec_rest, run_append (heads_body hw),
      List.length_append]
    by_cases hlong : 8 ≤ (run rest).length
    · rw [if_pos hlong, if_pos ⟨List.prefix_append w rest, Nat.add_le_add_left hlong _⟩]
      rfl
    · rw [if_neg hlong, if_neg fun h => hlong (Nat.le_of_add_le_add_left h.2)]
      rfl
  · rw [if_neg hprefix, if_neg fun h => hprefix h.1]

theorem exec_eq (before : Option Char) (text : List Char) :
    sensitiveValuePattern.exec before text = if Credential before text then some (run text)
      else none := by
  rw [sensitiveValuePattern, exec_boundary, exec_anyOf_literals]
  by_cases hboundary : before.any word = text.head?.any word
  · rw [if_pos hboundary, if_neg fun h => h.1 hboundary]
  · rw [if_neg hboundary]
    split
    · rename_i hfound
      obtain ⟨-, w, hw, hstarts⟩ := hfound
      have hhead := exec_head hw before text
      rw [if_pos hstarts] at hhead
      cases hsome : heads.findSome? _ with
      | none => exact absurd (hhead.symm.trans (List.findSome?_eq_none_iff.mp hsome w hw)) (by simp)
      | some taken =>
        obtain ⟨w', hw', htaken⟩ := List.exists_of_findSome?_eq_some hsome
        rw [exec_head hw'] at htaken
        split at htaken
        · exact htaken.symm
        · cases htaken
    · rename_i hnone
      rw [List.findSome?_eq_none_iff]
      intro w hw
      rw [exec_head hw, if_neg fun hstarts => hnone ⟨hboundary, w, hw, hstarts⟩]

def redactFrom (before : Option Char) (text : List Char) : List Char :=
  sensitiveValuePattern.replaceFrom (fun found => found.take 6 ++ '…' :: redacted) 0 before text

theorem redactString_eq (text : List Char) : redactString text = redactFrom none text := rfl

theorem not_credential_nil (before : Option Char) : ¬ Credential before [] := by
  rintro ⟨-, w, hw, hprefix, -⟩
  have hlong := heads_long hw
  rw [List.prefix_nil.mp hprefix] at hlong
  exact absurd hlong (by decide)

theorem redactFrom_nil (before : Option Char) : redactFrom before [] = [] := by
  unfold redactFrom replaceFrom
  rw [exec_eq, if_neg (not_credential_nil before)]
  rfl

theorem redactFrom_cons {before : Option Char} {c : Char} {text : List Char}
    (h : ¬ Credential before (c :: text)) :
    redactFrom before (c :: text) = c :: redactFrom (some c) text := by
  apply replaceFrom_none
  rw [exec_eq, if_neg h]

theorem run_split (text : List Char) :
    ∃ rest, text = run text ++ rest ∧ ∀ c ∈ rest.head?, body c = false := by
  refine ⟨text.dropWhile body, List.takeWhile_append_dropWhile.symm, fun c hc => ?_⟩
  have hhead := List.head?_dropWhile_not body text
  rw [Option.mem_def.mp hc] at hhead
  simpa using hhead

theorem run_long {before : Option Char} {text : List Char} (h : Credential before text) :
    11 ≤ (run text).length := by
  obtain ⟨-, w, hw, -, hlong⟩ := h
  have hhead := heads_long hw
  omega

theorem redactFrom_credential {before : Option Char} {c : Char} {taken rest : List Char}
    (h : Credential before (c :: (taken ++ rest)))
    (hrun : run (c :: (taken ++ rest)) = c :: taken) :
    redactFrom before (c :: (taken ++ rest)) =
      (c :: taken).take 6 ++ '…' :: redacted ++ redactFrom (last (some c) taken) rest := by
  apply replaceFrom_some
  rw [exec_eq, if_pos h, hrun]

theorem redactFrom_induction {motive : Option Char → List Char → Prop}
    (nil : ∀ before, motive before [])
    (kept : ∀ before c text, ¬ Credential before (c :: text) → motive (some c) text →
      motive before (c :: text))
    (credential : ∀ before c taken rest, Credential before (c :: (taken ++ rest)) →
      run (c :: (taken ++ rest)) = c :: taken →
      (∀ d ∈ rest.head?, body d = false) → motive (last (some c) taken) rest →
        motive before (c :: (taken ++ rest)))
    (before : Option Char) (text : List Char) : motive before text := by
  induction hlength : text.length using Nat.strongRecOn generalizing before text with
  | _ length ih =>
    subst hlength
    cases text with
    | nil => exact nil before
    | cons c text =>
      by_cases hcredential : Credential before (c :: text)
      · obtain ⟨rest, hsplit, hrest⟩ := run_split (c :: text)
        have hlong := run_long hcredential
        cases hrun : run (c :: text) with
        | nil =>
          rw [hrun] at hlong
          exact absurd hlong (by decide)
        | cons d taken =>
          rw [hrun, List.cons_append] at hsplit
          obtain ⟨rfl, rfl⟩ := List.cons.inj hsplit
          have hshorter : rest.length < (c :: (taken ++ rest)).length := by
            rw [List.length_cons, List.length_append]
            omega
          exact credential before c taken rest hcredential hrun hrest
            (ih rest.length hshorter _ rest rfl)
      · exact kept before c text hcredential (ih text.length (Nat.lt_succ_self _) _ text rfl)

theorem run_mark (text : List Char) : run ('…' :: text) = [] := by
  rw [run_cons, if_neg (by decide)]

theorem run_redactFrom (before : Option Char) (text : List Char) :
    run (redactFrom before text) <+: run text := by
  induction before, text using redactFrom_induction with
  | nil before => simp only [redactFrom_nil, List.prefix_rfl]
  | kept before c text hcredential ih =>
    rw [redactFrom_cons hcredential, run_cons, run_cons]
    by_cases hc : body c = true
    · rw [if_pos hc, if_pos hc]
      exact (List.cons_prefix_cons).mpr ⟨rfl, ih⟩
    · simp only [if_neg hc, List.prefix_rfl]
  | credential before c taken rest hcredential hrun _ _ =>
    have hbody : ∀ d ∈ (c :: taken).take 6, body d = true := fun d hd => by
      have hd : d ∈ run (c :: (taken ++ rest)) := hrun ▸ List.mem_of_mem_take hd
      exact List.mem_takeWhile_imp hd
    rw [redactFrom_credential hcredential hrun, List.append_assoc, run_append hbody, hrun,
      List.cons_append, run_mark,
      List.append_nil]
    exact List.take_prefix 6 _

theorem not_credential_short {before : Option Char} {text : List Char}
    (h : (run text).length < 11) : ¬ Credential before text :=
  fun hcredential => Nat.not_lt.mpr (run_long hcredential) h

/-- A text that has the same first character and no longer a run holds no credential that the other
does not. -/
theorem Credential.of_run {before : Option Char} {text text' : List Char}
    (hhead : text.head? = text'.head?)
    (hrun : run text <+: run text') (h : Credential before text) : Credential before text' := by
  obtain ⟨hboundary, w, hw, hstarts, hlong⟩ := h
  refine ⟨hhead ▸ hboundary, w, hw, ?_, Nat.le_trans hlong hrun.length_le⟩
  obtain ⟨rest, rfl⟩ := hstarts
  have hword : w <+: run (w ++ rest) := by
    rw [run_append (heads_body hw)]
    exact List.prefix_append w _
  exact (hword.trans hrun).trans (List.takeWhile_prefix body)

theorem found_of_not {before : Option Char} {c : Char} {text : List Char}
    (h : ¬ Credential before (c :: text)) :
    sensitiveValuePattern.found before (c :: text) = sensitiveValuePattern.found (some c) text := by
  rw [found_cons, exec_eq, if_neg h]
  rfl

theorem found_kept {kept rest : List Char} (before : Option Char)
    (hbody : ∀ d ∈ kept, body d = true) (hshort : kept.length < 11) :
    sensitiveValuePattern.found before (kept ++ '…' :: rest) =
      sensitiveValuePattern.found (some '…') rest := by
  induction kept generalizing before with
  | nil =>
    refine found_of_not (not_credential_short ?_)
    rw [run_mark]
    decide
  | cons c kept ih =>
    obtain ⟨hc, hkept⟩ := List.forall_mem_cons.mp hbody
    rw [List.length_cons] at hshort
    have hrun : (run (c :: (kept ++ '…' :: rest))).length < 11 := by
      rw [← List.cons_append, run_append hbody, run_mark, List.append_nil, List.length_cons]
      exact hshort
    rw [List.cons_append, found_of_not (not_credential_short hrun)]
    exact ih (some c) hkept (Nat.lt_of_succ_lt hshort)

theorem word_body {c : Char} (h : body c = false) : word c = false := by
  simp only [body, Bool.or_eq_false_iff] at h
  rw [word, h.1.1.1, h.1.2]
  rfl

theorem not_credential_stop {before : Option Char} {stop : Char} (hstop : body stop = false)
    (text : List Char) : ¬ Credential before (stop :: text) := by
  apply not_credential_short
  rw [run_cons, if_neg (by rw [hstop]; decide)]
  decide

theorem credential_context {before before' : Option Char} (h : before.any word = before'.any word)
    (text : List Char) : Credential before text ↔ Credential before' text := by
  rw [Credential, Credential, h]

theorem run_stop {stop : Char} (hstop : body stop = false) (text rest : List Char) :
    run (text ++ stop :: rest) = run text := by
  induction text with
  | nil => rw [List.nil_append, run_cons, hstop]; rfl
  | cons c text ih => rw [List.cons_append, run_cons, run_cons, ih]

theorem credential_stop {before : Option Char} {stop : Char} (hstop : body stop = false) (c : Char)
    (text rest : List Char) :
    Credential before (c :: (text ++ stop :: rest)) ↔ Credential before (c :: text) := by
  have hrun : run (c :: (text ++ stop :: rest)) = run (c :: text) := run_stop hstop (c :: text) rest
  constructor
  · exact Credential.of_run rfl (hrun ▸ List.prefix_rfl)
  · exact Credential.of_run rfl (hrun ▸ List.prefix_rfl)

theorem found_nil (before : Option Char) : sensitiveValuePattern.found before [] = false := by
  rw [found, exec_eq, if_neg (not_credential_nil before)]
  rfl

theorem found_eq_false_cons {before : Option Char} {c : Char} {text : List Char} :
    sensitiveValuePattern.found before (c :: text) = false ↔
      ¬ Credential before (c :: text) ∧ sensitiveValuePattern.found (some c) text = false := by
  rw [found_cons, Bool.or_eq_false_iff, exec_eq]
  apply and_congr_left'
  by_cases h : Credential before (c :: text)
  · simp [h]
  · simp [h]

theorem found_context {before before' : Option Char} (h : before.any word = before'.any word)
    (text : List Char) : sensitiveValuePattern.found before text =
      sensitiveValuePattern.found before' text := by
  cases text with
  | nil => rw [found_nil, found_nil]
  | cons c text =>
    rw [Bool.eq_iff_iff, ← not_iff_not, Bool.not_eq_true, Bool.not_eq_true, found_eq_false_cons,
      found_eq_false_cons, credential_context h]

theorem found_stop {before : Option Char} {stop : Char} (hstop : body stop = false)
    (text : List Char) :
    sensitiveValuePattern.found before (stop :: text) = sensitiveValuePattern.found none text := by
  rw [found_of_not (not_credential_stop hstop text)]
  apply found_context
  rw [Option.any_some, word_body hstop, Option.any_none]

/-- A character that no credential has keeps what stands before it and what stands after apart. -/
theorem found_append {before : Option Char} {stop : Char} (hstop : body stop = false)
    (text rest : List Char) : sensitiveValuePattern.found before (text ++ stop :: rest) = false ↔
      sensitiveValuePattern.found before text = false ∧
        sensitiveValuePattern.found none rest = false := by
  induction text generalizing before with
  | nil =>
    rw [List.nil_append, found_stop hstop, found_nil]
    exact (and_iff_right rfl).symm
  | cons c text ih =>
    rw [List.cons_append, found_eq_false_cons, found_eq_false_cons, credential_stop hstop,
      ih, and_assoc]

theorem redactFrom_context {before before' : Option Char} (h : before.any word = before'.any word)
    (text : List Char) : redactFrom before text = redactFrom before' text := by
  cases text with
  | nil => rw [redactFrom_nil, redactFrom_nil]
  | cons c text =>
    have hexec : sensitiveValuePattern.exec before (c :: text) =
        sensitiveValuePattern.exec before' (c :: text) := by
      rw [exec_eq, exec_eq]
      exact if_congr (credential_context h _) rfl rfl
    rw [redactFrom, redactFrom, replaceFrom, replaceFrom, hexec]

theorem redactFrom_stop {before : Option Char} {stop : Char} (hstop : body stop = false)
    (text : List Char) :
    redactFrom before (stop :: text) = stop :: redactFrom none text := by
  rw [redactFrom_cons (not_credential_stop hstop text)]
  congr 1
  apply redactFrom_context
  rw [Option.any_some, word_body hstop, Option.any_none]

theorem redactFrom_append {stop : Char} (hstop : body stop = false) (rest : List Char)
    (before : Option Char)
    (text : List Char) :
    redactFrom before (text ++ stop :: rest) = redactFrom before text ++ stop ::
      redactFrom none rest := by
  induction before, text using redactFrom_induction with
  | nil before => rw [List.nil_append, redactFrom_stop hstop, redactFrom_nil, List.nil_append]
  | kept before c text hcredential ih =>
    have hkept : ¬ Credential before (c :: (text ++ stop :: rest)) :=
      fun h => hcredential ((credential_stop hstop c text rest).mp h)
    rw [List.cons_append, redactFrom_cons hkept, redactFrom_cons hcredential, ih, List.cons_append]
  | credential before c taken text hcredential hrun _ ih =>
    have hfound : Credential before (c :: (taken ++ (text ++ stop :: rest))) := by
      rw [← List.append_assoc]
      exact (credential_stop hstop c _ rest).mpr hcredential
    have hlonger : run (c :: (taken ++ (text ++ stop :: rest))) = c :: taken := by
      rw [← hrun, ← List.append_assoc]
      exact run_stop hstop (c :: (taken ++ text)) rest
    rw [List.cons_append, List.append_assoc, redactFrom_credential hfound hlonger,
      redactFrom_credential hcredential hrun, ih, List.append_assoc, List.append_assoc,
        List.append_assoc]

theorem found_redactFrom (before : Option Char) (text : List Char) :
    sensitiveValuePattern.found before (redactFrom before text) = false := by
  induction before, text using redactFrom_induction with
  | nil before => rw [redactFrom_nil, found_nil]
  | kept before c text hcredential ih =>
    rw [redactFrom_cons hcredential, found_eq_false_cons]
    have hhead : (c :: redactFrom (some c) text).head? = (c :: text).head? := rfl
    have hrun : run (c :: redactFrom (some c) text) <+: run (c :: text) := by
      rw [run_cons, run_cons]
      split
      · exact List.cons_prefix_cons.mpr ⟨rfl, run_redactFrom (some c) text⟩
      · exact List.prefix_rfl
    exact ⟨fun h => hcredential (Credential.of_run hhead hrun h), ih⟩
  | credential before c taken rest hcredential hrun hrest ih =>
    have hbody : ∀ d ∈ (c :: taken).take 6, body d = true := fun d hd => by
      have hd : d ∈ run (c :: (taken ++ rest)) := hrun ▸ List.mem_of_mem_take hd
      exact List.mem_takeWhile_imp hd
    have hshort : ((c :: taken).take 6).length < 11 :=
      Nat.lt_of_le_of_lt (List.length_take_le 6 _) (by decide)
    have hmark : redacted ++ redactFrom (last (some c) taken) rest =
        "[redacted".toList ++ ']' :: redactFrom (last (some c) taken) rest := rfl
    rw [redactFrom_credential hcredential hrun, List.append_assoc, List.cons_append,
      found_kept before hbody hshort, hmark, found_append (by decide)]
    refine ⟨by decide, ?_⟩
    -- What follows a credential starts with a character that no credential has.
    cases rest with
    | nil => rw [redactFrom_nil, found_nil]
    | cons stop rest =>
      have hstop := hrest stop rfl
      rw [redactFrom_stop hstop, found_stop hstop] at ih ⊢
      exact ih

def Clean (text : List Char) : Prop := sensitiveValuePattern.test text = false

instance (text : List Char) : Decidable (Clean text) := inferInstanceAs (Decidable (_ = _))

theorem clean_append {stop : Char} (hstop : body stop = false) {text rest : List Char} :
    Clean (text ++ stop :: rest) ↔ Clean text ∧ Clean rest := found_append hstop text rest

theorem clean_nil : Clean [] := found_nil none

theorem redactString_clean (text : List Char) : Clean (redactString text) :=
    found_redactFrom none text

theorem redactString_append {stop : Char} (hstop : body stop = false) (text rest : List Char) :
    redactString (text ++ stop :: rest) = redactString text ++ stop :: redactString rest :=
  redactFrom_append hstop rest none text

theorem clean_intercalate {stop : Char} (hstop : body stop = false) (parts : List (List Char)) :
    Clean ([stop].intercalate parts) ↔ ∀ part ∈ parts, Clean part := by
  induction parts with
  | nil => simpa using clean_nil
  | cons part parts ih =>
    cases parts with
    | nil => simp
    | cons next parts =>
      rw [List.intercalate_cons_cons, List.append_assoc, List.singleton_append,
        clean_append hstop, ih]
      simp only [List.forall_mem_cons]

end Beam.Web.Logger
