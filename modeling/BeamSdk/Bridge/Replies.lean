import BeamSdk.Bridge.Steps

/-! The attested replies of the bridge over whole runs, with its handlers interleaved where they
wait: each is made of a report that the registry's signers stand behind, and stays as it is. Two
promises are kept only on some runs: that an answer asked for on chain was sent for there, and that
a report carries one subject. -/

namespace Beam.Bridge
open Contract (Address Bytes Bytes32)

section Definitions
variable (viem : Viem) (answers : CreAnswers)

structure Submission.Checked (submission : Submission) : Prop where
  header : parseHeader submission.signed.rawReport = some submission.header
  decoded : decodeReport viem (reportBody submission.signed.rawReport) = some submission.decoded
  workflowId : submission.header.workflowId = answers.workflowId
  workflowOwner : submission.header.workflowOwner = answers.workflowOwner

/-- A reply that at least `f + 1` signers stand behind, of a set the registry returned for the
report's DON. -/
structure Authentic (returned : List (ℕ × SignerSet)) (attestation : Attestation)
    (r : AttestedReply) : Prop where
  header : parseHeader r.report.rawReport = some r.header
  workflowId : r.header.workflowId = answers.workflowId
  workflowOwner : r.header.workflowOwner = answers.workflowOwner
  signed : ∃ set, (r.header.donId, set) ∈ returned ∧ set.f + 1 ≤ r.signers.length ∧
    Accepted viem (reportDigest viem r.report.rawReport r.report.context)
      set r.report.signatures r.signers
  answer : ∃ decoded, decodeReport viem (reportBody r.report.rawReport) = some decoded ∧
    answerFor viem.hashes attestation decoded = some r.answer ∧ r.answer.entry ∈ decoded.entries

def Task.Checked (returned : List (ℕ × SignerSet)) : Task → Prop
  | .signers submission cached _ =>
    submission.Checked viem answers ∧ ∀ set, cached = some set →
      (submission.header.donId, set) ∈ returned
  | .verify submission set _ =>
      submission.Checked viem answers ∧ (submission.header.donId, set) ∈ returned
  | .forward _ _ => True

def Taken.reply (t : Taken) (attestation : Attestation) (answer : AttestationAnswer) :
    AttestedReply :=
  ⟨attestation, answer, t.set.map SignerSet.f, t.accepted, t.submission.header, t.submission.signed⟩

structure Sound (w : World) : Prop where
  tasks : ∀ task ∈ w.tasks, task.Checked viem answers w.returned
  cache : ∀ donId set readAt, (donId, (set, readAt)) ∈ w.signerCache → (donId, set) ∈ w.returned

end Definitions

variable {viem : Viem} {host : Host} {secrets : List String} {policy : AttestationPolicy}
    {answers : CreAnswers}
  {w w' : World} {p p' : BridgeRequest} {i : Step}

theorem Task.Checked.mono {returned returned' : List (ℕ × SignerSet)} (hsub : returned ⊆ returned')
    {task : Task}
    (h : task.Checked viem answers returned) : task.Checked viem answers returned' := by
  cases task with
  | signers submission cached refresh => exact ⟨h.1, fun set hset => hsub (h.2 set hset)⟩
  | verify submission set refresh => exact ⟨h.1, hsub h.2⟩
  | forward batch now => trivial

theorem Sound.congr (h : Sound viem answers w) (htasks : w'.tasks = w.tasks)
    (hcache : w'.signerCache = w.signerCache)
    (hreturned : w'.returned = w.returned) : Sound viem answers w' where
  tasks := by
    rw [htasks, hreturned]
    exact h.tasks
  cache := by
    rw [hcache, hreturned]
    exact h.cache

theorem Sound.drop (h : Sound viem answers w) (task : ℕ) : Sound viem answers (w.drop task) where
  tasks t ht := h.tasks t (List.mem_of_mem_eraseIdx ht)
  cache := h.cache

theorem Sound.await (h : Sound viem answers w) (task : Task)
    (htask : task.Checked viem answers w.returned) :
    Sound viem answers (w.await task) where
  tasks t ht := by
    rcases List.mem_append.mp ht with ht | ht
    · exact h.tasks t ht
    · exact List.mem_singleton.mp ht ▸ htask
  cache := h.cache

theorem Sound.cachedSigners (h : Sound viem answers w) {donId : ℕ} {refresh : Bool} {now : ℤ}
    {set : SignerSet}
    (hset : w.cachedSigners donId refresh now = some set) : (donId, set) ∈ w.returned := by
  unfold World.cachedSigners at hset
  split at hset
  · rename_i held readAt hget
    split at hset
    · cases hset
      exact h.cache donId _ readAt (OrderedMap.mem_of_get hget)
    · cases hset
  · cases hset

theorem checkSubmission_checked {signed : SignedReport} {submission : Submission}
    (h : checkSubmission viem answers w signed = .ok submission) :
      submission.Checked viem answers := by
  unfold checkSubmission at h
  dsimp only at h
  split at h
  · cases h
  · split at h
    · rename_i header decoded hheader hdecoded
      split at h
      · cases h
      · rename_i hworkflow
        cases h
        rw [not_or, not_not, not_not] at hworkflow
        exact ⟨hheader, hdecoded, hworkflow.1, hworkflow.2⟩
    · cases h

theorem Sound.afterSigners (h : Sound viem answers w) {submission : Submission}
    {cached : Option SignerSet}
    {refresh : Bool}
    (htask : (Task.signers submission cached refresh).Checked viem answers w.returned) (now : ℤ)
    (answer : Except Relay.Thrown SignerSet) :
    Sound viem answers (afterSigners viem answers w now submission cached refresh answer).1 ∧
      w.returned <+:
        (Bridge.afterSigners viem answers w now submission cached refresh answer).1.returned := by
  unfold Bridge.afterSigners
  split
  · exact ⟨h.congr rfl rfl rfl, List.prefix_rfl⟩
  · split
    · exact ⟨h.await (.verify submission _ refresh) ⟨htask.1, htask.2 _ rfl⟩, List.prefix_rfl⟩
    · exact ⟨h, List.prefix_rfl⟩
    · rename_i set
      have hgrown : w.returned ⊆ w.returned ++ [(submission.header.donId, set)] :=
        List.subset_append_left ..
      have hset : (submission.header.donId, set) ∈ w.returned ++ [(submission.header.donId, set)] :=
        List.mem_append_right _ (List.mem_singleton_self _)
      refine ⟨?_, List.prefix_append ..⟩
      apply Sound.await _ _
        (show (Task.verify submission set refresh).Checked viem answers _ from ⟨htask.1, hset⟩)
      refine ⟨fun task ht => (h.tasks task ht).mono hgrown, fun donId held readAt hmem => ?_⟩
      rcases OrderedMap.mem_set hmem with heq | hmem
      · cases heq
        exact hset
      · exact hgrown (h.cache donId held readAt hmem)

theorem Sound.afterVerify (h : Sound viem answers w) {submission : Submission}
    (hchecked : submission.Checked viem answers)
    (set : SignerSet) (refresh : Bool) (now : ℤ) :
    Sound viem answers (afterVerify viem w now submission set refresh).1 := by
  unfold Bridge.afterVerify
  split
  · exact h.congr rfl rfl rfl
  · split
    · exact h
    · exact h.await (.signers submission _ true) ⟨hchecked, fun _ hset => h.cachedSigners hset⟩

theorem afterVerify_returned {now : ℤ} {submission : Submission} {set : SignerSet}
    {refresh : Bool} :
    (afterVerify viem w now submission set refresh).1.returned = w.returned := by
  unfold afterVerify
  split
  · rfl
  · split <;> rfl

theorem pumpCre_returned {now : ℤ} : (pumpCre answers w now).returned = w.returned := by
  unfold pumpCre
  dsimp only
  split <;> rfl

theorem Sound.pumpCre (h : Sound viem answers w) (now : ℤ) :
    Sound viem answers (pumpCre answers w now) := by
  unfold Bridge.pumpCre
  dsimp only
  split
  · exact h.congr rfl rfl rfl
  · apply Sound.await
    · exact h.congr rfl rfl rfl
    · trivial

theorem step_sound (hw : Sound viem answers w)
    (h : step viem host secrets policy answers w i = some w') :
    Sound viem answers w' ∧ w.returned <+: w'.returned := by
  have hidle : Sound viem answers w ∧ w.returned <+: w.returned := ⟨hw, List.prefix_rfl⟩
  cases i with
  | deliver now delivery =>
    cases hdelivery : handleDelivery host secrets policy w now delivery with
    | error thrown =>
      simp only [step, hdelivery] at h
      cases h
      exact hidle
    | ok result =>
      simp only [step, hdelivery] at h
      cases h
      rcases handleDelivery_cases hdelivery with heq | ⟨request, -, -, heq⟩
      · rw [heq]
        exact hidle
      · rw [heq]
        exact ⟨hw.congr rfl rfl rfl, List.prefix_rfl⟩
  | poll now id poll =>
    cases h
    rw [handlePoll_world]
    exact hidle
  | submit now submitted =>
    cases h
    unfold handleResult
    split
    · exact hidle
    · unfold handleSigned
      split
      · exact hidle
      · rename_i submission hsubmission
        exact ⟨hw.await (.signers submission _ false)
          ⟨checkSubmission_checked hsubmission, fun _ hset => hw.cachedSigners hset⟩,
            List.prefix_rfl⟩
  | signers task now answer =>
    simp only [step] at h
    split at h
    · rename_i htask
      cases h
      exact (hw.drop task).afterSigners (hw.tasks _ (List.mem_of_getElem? htask)) now answer
    · cases h
  | verified task now =>
    simp only [step] at h
    split at h
    · rename_i htask
      cases h
      have hchecked := hw.tasks _ (List.mem_of_getElem? htask)
      refine ⟨(hw.drop task).afterVerify hchecked.1 _ _ now, ?_⟩
      rw [afterVerify_returned]
      exact List.prefix_rfl
    · cases h
  | pump now =>
    cases h
    refine ⟨hw.pumpCre now, ?_⟩
    simp only [pumpCre_returned, List.prefix_rfl]
  | outcome task outcome =>
    simp only [step] at h
    split at h
    · cases h
      cases outcome with
      | error thrown => exact ⟨hw.drop task, List.prefix_rfl⟩
      | ok accepted => exact ⟨(hw.drop task).congr rfl rfl rfl, List.prefix_rfl⟩
    · cases h

theorem taken_checked (hw : Sound viem answers w) {t : Taken}
    (h : taken viem answers w i = some t) :
    t.submission.Checked viem answers ∧ (answers.registry → ∃ set, t.set = some set ∧
      (t.submission.header.donId, set) ∈ w.returned ∧
      verifyReportSignatures viem t.submission.signed set = some t.accepted) := by
  unfold taken at h
  split at h
  · split at h
    · rename_i htask
      have hchecked := hw.tasks _ (List.mem_of_getElem? htask)
      split at h
      · cases h
      · rename_i hregistry
        cases h
        exact ⟨hchecked.1, fun hregistry' => absurd hregistry' hregistry⟩
    · cases h
  · split at h
    · rename_i submission set refresh htask
      have hchecked := hw.tasks _ (List.mem_of_getElem? htask)
      obtain ⟨accepted, haccepted, rfl⟩ := Option.map_eq_some_iff.mp h
      exact ⟨hchecked.1, fun _ => ⟨set, rfl, hchecked.2, haccepted⟩⟩
    · cases h
  · cases h

theorem attests_parts {r : AttestedReply} (h : attests viem answers w i p = some r) :
    ∃ t, taken viem answers w i = some t ∧ p.reply = none ∧ r.fits ∧
      answerFor viem.hashes p.attestation t.submission.decoded = some r.answer ∧
      r = t.reply p.attestation r.answer := by
  obtain ⟨t, ht, h⟩ := Option.bind_eq_some_iff.mp h
  obtain ⟨hreply, hfits⟩ := Option.filter_eq_some_iff.mp h
  have hwaits := attestedReply_waits hreply
  unfold attestedReply at hreply
  rw [if_neg (by simp [hwaits])] at hreply
  obtain ⟨answer, hanswer, rfl⟩ := Option.map_eq_some_iff.mp hreply
  exact ⟨t, ht, hwaits, hfits, hanswer, rfl⟩

theorem attests_authentic (hregistry : answers.registry) (hw : Sound viem answers w)
    {r : AttestedReply}
    (h : attests viem answers w i p = some r) :
      Authentic viem answers w.returned p.attestation r := by
  obtain ⟨t, ht, -, -, hanswer, hr⟩ := attests_parts h
  obtain ⟨hchecked, hsigned⟩ := taken_checked hw ht
  obtain ⟨set, -, hset, hverify⟩ := hsigned hregistry
  rw [hr]
  refine ⟨hchecked.header, hchecked.workflowId, hchecked.workflowOwner, ⟨set, hset, ?_⟩,
    ⟨t.submission.decoded, hchecked.decoded, hanswer, answerFor_mem hanswer⟩⟩
  exact verifyReportSignatures_accepted hverify

theorem Authentic.mono {returned returned' : List (ℕ × SignerSet)} (hsub : returned ⊆ returned')
    {attestation : Attestation} {r : AttestedReply}
    (h : Authentic viem answers returned attestation r) :
    Authentic viem answers returned' attestation r := by
  obtain ⟨set, hset, haccepted⟩ := h.signed
  exact ⟨h.header, h.workflowId, h.workflowOwner, ⟨set, hsub hset, haccepted⟩, h.answer⟩

structure Genuine (viem : Viem) (answers : CreAnswers) (w : World) : Prop where
  sound : Sound viem answers w
  authentic : Replies (fun p r => Authentic viem answers w.returned p.attestation r) w

theorem step_genuine (hregistry : answers.registry) (hw : Genuine viem answers w)
    (h : step viem host secrets policy answers w i = some w') : Genuine viem answers w' := by
  obtain ⟨hsound, hgrown⟩ := step_sound hw.sound h
  have hold : Replies (fun p r => Authentic viem answers w'.returned p.attestation r) w :=
    fun p hp r hr => (hw.authentic p hp r hr).mono hgrown.subset
  refine ⟨hsound, (step_replies (fun _ _ _ _ hfollows => ?_) hold h).mpr fun p _ r hr => ?_⟩
  · rw [hfollows.attestation]
  · exact (attests_authentic hregistry hw.sound hr).mono hgrown.subset

theorem not_kept_start : p ∉ World.start.kept := by
  rw [show World.start.kept = [] from rfl]
  exact List.not_mem_nil

theorem start_sound : Sound viem answers World.start :=
    ⟨fun _ h => (nomatch h), fun _ _ _ h => (nomatch h)⟩

structure Distinct (w : World) : Prop where
  fresh : ∀ p ∈ w.kept, p.ref < w.nextRef
  unique : ∀ p ∈ w.kept, ∀ q ∈ w.kept, q.ref = p.ref → q = p

theorem step_distinct (hw : Distinct w) (h : step viem host secrets policy answers w i = some w') :
    Distinct w' := by
  obtain ⟨f, new, hmoves⟩ := step_moves h
  have hf : ∀ p ∈ w.kept, (f p).ref < w.nextRef := fun p hp => by
    rw [(hmoves.follows p).ref]
    exact hw.fresh p hp
  constructor
  · intro p' hp'
    rcases hmoves.kept p' hp' with ⟨p, hp, rfl⟩ | hnew
    · exact Nat.lt_of_lt_of_le (hf p hp) hmoves.nextRef
    · obtain ⟨href, hnext, -⟩ := hmoves.waits p' hnew
      rw [href, hnext]
      exact Nat.lt_succ_self _
  · intro p' hp' q' hq' heq
    rcases hmoves.kept p' hp' with ⟨p, hp, rfl⟩ | hp'
    · rcases hmoves.kept q' hq' with ⟨q, hq, rfl⟩ | hq'
      · rw [(hmoves.follows q).ref, (hmoves.follows p).ref] at heq
        rw [hw.unique p hp q hq heq]
      · rw [(hmoves.waits q' hq').1] at heq
        exact absurd heq.symm (Nat.ne_of_lt (hf p hp))
    · rcases hmoves.kept q' hq' with ⟨q, hq, rfl⟩ | hq'
      · rw [(hmoves.waits p' hp').1] at heq
        exact absurd heq (Nat.ne_of_lt (hf q hq))
      · exact Option.some.inj (hq'.symm.trans hp')

/-- What became of the requests kept earlier: one that has a reply keeps it, and no new one passes
for it. -/
structure Evolves (u w : World) : Prop where
  nextRef : u.nextRef ≤ w.nextRef
  kept : ∀ q ∈ w.kept, u.nextRef ≤ q.ref ∨
    ∃ p ∈ u.kept, q.ref = p.ref ∧ q.id = p.id ∧ q.attestation = p.attestation ∧
      (p.reply.isSome → q.reply = p.reply)

theorem Evolves.step {u : World} (hu : Evolves u w)
    (h : step viem host secrets policy answers w i = some w') :
    Evolves u w' := by
  obtain ⟨f, new, hmoves⟩ := step_moves h
  refine ⟨Nat.le_trans hu.nextRef hmoves.nextRef, fun q' hq' => ?_⟩
  rcases hmoves.kept q' hq' with ⟨q, hq, rfl⟩ | hnew
  · have hfollows := hmoves.follows q
    rcases hu.kept q hq with hlater | ⟨p, hp, href, hid, hattestation, hreply⟩
    · exact .inl (hfollows.ref ▸ hlater)
    · refine .inr ⟨p, hp, hfollows.ref.trans href, hfollows.id.trans hid,
        hfollows.attestation.trans hattestation, ?_⟩
      intro hsome
      have hq := hreply hsome
      rw [hfollows.final (hq ▸ hsome), hq]
  · exact .inl ((hmoves.waits q' hnew).1 ▸ hu.nextRef)

/-- With answers from a workflow and the registry's signers, every attested reply that is kept is
authentic, and a request that has a reply keeps that one. -/
theorem run_authentic_final {earlier later : List Step} {u : World}
    (hregistry : answers.registry = true)
    (hu : Run.after (step viem host secrets policy answers) World.start earlier = some u)
    (hw : Run.after (step viem host secrets policy answers) u later = some w) :
    (∀ p ∈ w.kept, ∀ r, p.reply = some (.attested r) →
      Authentic viem answers w.returned p.attestation r) ∧
      ∀ p ∈ u.kept, p.reply.isSome → ∀ q ∈ w.kept, q.ref = p.ref →
        q.id = p.id ∧ q.attestation = p.attestation ∧ q.reply = p.reply := by
  have hgenuine : ∀ v i v', Genuine viem answers v →
      step viem host secrets policy answers v i = some v' →
      Genuine viem answers v' := fun _ _ _ hv h => step_genuine hregistry hv h
  have hstart : Genuine viem answers World.start :=
    ⟨start_sound, fun _ hp => absurd hp not_kept_start⟩
  have hreplies :=
    (Run.after_invariant hgenuine (Run.after_invariant hgenuine hstart hu) hw).authentic
  have hdistinct : Distinct u := Run.after_invariant (fun _ _ _ hv h => step_distinct hv h)
    ⟨fun _ hp => absurd hp not_kept_start, fun _ hp => absurd hp not_kept_start⟩ hu
  have hself : Evolves u u :=
    ⟨Nat.le_refl _, fun q hq => .inr ⟨q, hq, rfl, rfl, rfl, fun _ => rfl⟩⟩
  have hevolves : Evolves u w := Run.after_invariant (fun _ _ _ hv h => hv.step h) hself hw
  refine ⟨hreplies, fun p hp hsome q hq href => ?_⟩
  rcases hevolves.kept q hq with hlater | ⟨p₀, hp₀, href₀, hid, hattestation, hreply⟩
  · exact absurd (hdistinct.fresh p hp) (Nat.not_lt.mpr (href ▸ hlater))
  · obtain rfl := hdistinct.unique p hp p₀ hp₀ (href₀.symm.trans href)
    exact ⟨hid, hattestation, hreply hsome⟩

section Definitions
variable (viem : Viem) (answers : CreAnswers)

/-- A request that waits, and that an entry of the report answers within the size of a Room reply.
-/
def Taken.Reaches (t : Taken) (p : BridgeRequest) : Prop :=
  p.reply = none ∧ ∃ answer, answerFor viem.hashes p.attestation t.submission.decoded =
    some answer ∧
    (t.reply p.attestation answer).fits

def World.SentOnchain (w : World) (p : BridgeRequest) : Prop :=
  ∃ sent ∈ w.forwarded, sent.publishOnchain = true ∧ p.ref ∈ sent.batch

def Honoured : World → Prop :=
  fun w => Replies (fun p _ => p.publishOnchain = true → w.SentOnchain p) w

def AnswersUnsent (w : World) (i : Step) : Prop :=
  ∃ t, taken viem answers w i = some t ∧ ∃ p ∈ w.kept, p.publishOnchain = true ∧ ¬ w.SentOnchain p ∧
    t.Reaches viem p

def Alone : World → Prop :=
  Replies fun _ r => (decodeReport viem (reportBody r.report.rawReport)).map DecodedReport.entries =
    some [r.answer.entry]

def AnswersSeveral (w : World) (i : Step) : Prop :=
  ∃ t, taken viem answers w i = some t ∧ 1 < t.submission.decoded.entries.length ∧
    ∃ p ∈ w.kept, t.Reaches viem p

end Definitions

theorem attests_of_reaches {t : Taken} (ht : taken viem answers w i = some t)
    (h : t.Reaches viem p) :
    ∃ r, attests viem answers w i p = some r := by
  obtain ⟨hwaits, answer, hanswer, hfits⟩ := h
  have hreply : attestedReply viem t.submission t.set t.accepted p =
      some (t.reply p.attestation answer) := by
    rw [attestedReply, if_neg (by simp [hwaits]), hanswer]
    rfl
  refine ⟨t.reply p.attestation answer, ?_⟩
  rw [attests_of_some ht, hreply]
  exact Option.filter_eq_some_iff.mpr ⟨rfl, hfits⟩

theorem reaches_of_attests {r : AttestedReply} (h : attests viem answers w i p = some r) :
    ∃ t, taken viem answers w i = some t ∧ t.Reaches viem p ∧
      r = t.reply p.attestation r.answer := by
  obtain ⟨t, ht, hwaits, hfits, hanswer, hr⟩ := attests_parts h
  refine ⟨t, ht, ⟨hwaits, r.answer, hanswer, ?_⟩, hr⟩
  rw [← hr]
  exact hfits

theorem step_honoured (hw : Honoured w) (h : step viem host secrets policy answers w i = some w') :
    Honoured w' ↔ ¬ AnswersUnsent viem answers w i := by
  have hgrown : ∀ p, w.SentOnchain p → w'.SentOnchain p :=
    fun p ⟨sent, hsent, hbatch⟩ => ⟨sent, (step_forwarded h).subset hsent, hbatch⟩
  have hold : Replies (fun p _ => p.publishOnchain = true → w'.SentOnchain p) w :=
    fun p hp r hr honchain => hgrown p (hw p hp r hr honchain)
  have hinvariant : ∀ new p p' r, Follows new p p' →
      ((fun p (_ : AttestedReply) => p.publishOnchain = true → w'.SentOnchain p) p' r ↔
        (fun p (_ : AttestedReply) => p.publishOnchain = true → w'.SentOnchain p) p r) := by
    intro new p p' r hfollows
    simp only [World.SentOnchain, hfollows.publishOnchain, hfollows.ref]
  refine (step_replies hinvariant hold h).trans ⟨?_, ?_⟩
  · rintro hnew ⟨t, ht, p, hp, honchain, hunsent, hreaches⟩
    obtain ⟨r, hr⟩ := attests_of_reaches ht hreaches
    obtain ⟨sent, hsent, hbatch⟩ := hnew p hp r hr honchain
    rw [(step_attests h hp hr).2] at hsent
    exact hunsent ⟨sent, hsent, hbatch⟩
  · intro hnever p hp r hr honchain
    obtain ⟨t, ht, hreaches, -⟩ := reaches_of_attests hr
    by_contra hunsent
    exact hnever ⟨t, ht, p, hp, honchain, fun hsent => hunsent (hgrown p hsent), hreaches⟩

/-- Over a run, every attested answer asked for on chain was sent for there exactly when no report
came for a request still waiting to be. -/
theorem publishOnchain_honoured_iff {is : List Step}
    (h : Run.after (step viem host secrets policy answers) World.start is = some w) :
    Run.Always (step viem host secrets policy answers) World.start is Honoured ↔
      Run.Never (step viem host secrets policy answers)
        World.start is (AnswersUnsent viem answers) := by
  have hstart : Honoured World.start := fun _ hp => absurd hp not_kept_start
  have hstep : ∀ u i v, True → Honoured u → step viem host secrets policy answers u i = some v →
      True ∧ (Honoured v ↔ ¬ AnswersUnsent viem answers u i) :=
    fun _ _ _ _ hu hstep => ⟨trivial, step_honoured hu hstep⟩
  exact Run.always_iff_never hstep trivial hstart h

theorem reply_alone (hw : Sound viem answers w) {t : Taken} (ht : taken viem answers w i = some t)
    {answer : AttestationAnswer}
    (hanswer : answerFor viem.hashes p.attestation t.submission.decoded = some answer) :
    (decodeReport viem (reportBody t.submission.signed.rawReport)).map DecodedReport.entries =
      some [answer.entry] ↔
      ¬ 1 < t.submission.decoded.entries.length := by
  have hmem := answerFor_mem hanswer
  rw [(taken_checked hw ht).1.decoded, Option.map_some, Option.some_inj]
  constructor
  · intro hentries
    rw [hentries]
    exact Nat.lt_irrefl 1
  · intro hlength
    have hone : t.submission.decoded.entries.length = 1 :=
      Nat.le_antisymm (Nat.not_lt.mp hlength) (List.length_pos_of_mem hmem)
    obtain ⟨entry, hentry⟩ := List.length_eq_one_iff.mp hone
    rw [hentry] at hmem ⊢
    rw [List.mem_singleton.mp hmem]

theorem step_alone (hsound : Sound viem answers w) (hw : Alone viem w)
    (h : step viem host secrets policy answers w i = some w') :
    Alone viem w' ↔ ¬ AnswersSeveral viem answers w i := by
  refine (step_replies (fun _ _ _ _ _ => Iff.rfl) hw h).trans ⟨?_, ?_⟩
  · rintro hnew ⟨t, ht, hseveral, p, hp, hreaches⟩
    obtain ⟨r, hr⟩ := attests_of_reaches ht hreaches
    obtain ⟨t', ht', -, -, hanswer, hparts⟩ := attests_parts hr
    obtain rfl : t = t' := Option.some.inj (ht.symm.trans ht')
    have halone := hnew p hp r hr
    rw [hparts] at halone
    exact (reply_alone hsound ht hanswer).mp halone hseveral
  · intro hnever p hp r hr
    obtain ⟨t, ht, hreaches, hreply⟩ := reaches_of_attests hr
    obtain ⟨t', ht', -, -, hanswer, -⟩ := attests_parts hr
    obtain rfl : t = t' := Option.some.inj (ht.symm.trans ht')
    rw [hreply]
    exact (reply_alone hsound ht hanswer).mpr fun hseveral =>
      hnever ⟨t, ht, hseveral, p, hp, hreaches⟩

/-- Over a run, no attested reply carries an entry besides its own exactly when no report of
several entries came for a request that waited. -/
theorem replies_alone_iff {is : List Step}
    (h : Run.after (step viem host secrets policy answers) World.start is = some w) :
    Run.Always (step viem host secrets policy answers) World.start is (Alone viem) ↔
      Run.Never (step viem host secrets policy answers)
        World.start is (AnswersSeveral viem answers) := by
  have hstart : Alone viem World.start := fun _ hp => absurd hp not_kept_start
  have hstep : ∀ u i v, Sound viem answers u → Alone viem u →
      step viem host secrets policy answers u i = some v →
      Sound viem answers v ∧ (Alone viem v ↔ ¬ AnswersSeveral viem answers u i) :=
    fun _ _ _ hsound hu hstep => ⟨(step_sound hsound hstep).1, step_alone hsound hu hstep⟩
  exact Run.always_iff_never hstep start_sound hstart h

theorem utf16Length_append (a b : List Char) : Text.utf16Length (a ++ b) = Text.utf16Length a +
    Text.utf16Length b := by
  rw [Text.utf16Length, List.map_append, List.sum_append]
  rfl

theorem utf16Length_cons (c : Char) (text : List Char) :
    Text.utf16Length (c :: text) = Text.utf16Length [c] + Text.utf16Length text :=
  utf16Length_append [c] text

theorem utf16Length_joined (pieces : List (List Char)) :
    Text.utf16Length (pieces.intersperse [',']).flatten ≤
      (pieces.map fun piece => Text.utf16Length piece + 1).sum := by
  induction pieces with
  | nil => exact Nat.le_refl 0
  | cons piece pieces ih =>
    cases pieces with
    | nil =>
      simp only [List.intersperse_singleton, List.flatten_cons, List.flatten_nil, List.append_nil]
      exact Nat.le_succ _
    | cons next pieces =>
      rw [List.intersperse_cons_cons, List.flatten_cons, List.flatten_cons, utf16Length_append,
        utf16Length_append, List.map_cons,
        List.sum_cons]
      have hcomma : Text.utf16Length [','] = 1 := by decide
      omega

theorem utf16Length_array (items : List (List Char)) :
    Text.utf16Length (Json.Write.array items) ≤ 2 +
      (items.map fun item => Text.utf16Length item + 1).sum := by
  have hjoined := utf16Length_joined items
  have hopen : Text.utf16Length ['['] = 1 := by decide
  have hclose : Text.utf16Length [']'] = 1 := by decide
  rw [Json.Write.array, utf16Length_append, utf16Length_cons]
  omega

theorem utf16Length_object (members : List (String × List Char)) :
    Text.utf16Length (Json.Write.object members) ≤
    2 + (members.map fun member => Text.utf16Length (Json.Write.text member.1) +
      Text.utf16Length member.2 + 2).sum := by
  have hjoined :=
    utf16Length_joined (members.map fun member => Json.Write.text member.1 ++ ':' :: member.2)
  have hopen : Text.utf16Length ['\x7b'] = 1 := by decide
  have hclose : Text.utf16Length ['\x7d'] = 1 := by decide
  have hmembers : (members.map fun member => Json.Write.text member.1 ++ ':' :: member.2).map
        (fun piece => Text.utf16Length piece + 1) =
      members.map fun member => Text.utf16Length (Json.Write.text member.1) +
        Text.utf16Length member.2 + 2 := by
    rw [List.map_map]
    apply List.map_congr_left
    intro member _
    have hcolon : Text.utf16Length [':'] = 1 := by decide
    show Text.utf16Length (_ ++ _) + 1 = _
    rw [utf16Length_append, utf16Length_cons, hcolon]
    omega
  rw [hmembers] at hjoined
  rw [Json.Write.object, utf16Length_append, utf16Length_cons]
  omega

theorem utf16Length_le (text : List Char) : Text.utf16Length text ≤ 2 * text.length := by
  induction text with
  | nil => exact Nat.le_refl 0
  | cons c text ih =>
    have hone : Text.utf16Length [c] ≤ 2 := by
      unfold Text.utf16Length
      simp only [List.map_cons, List.map_nil, List.sum_cons, List.sum_nil]
      split_ifs <;> omega
    rw [utf16Length_cons, List.length_cons]
    omega

theorem utf16Length_hexText (bytes : Contract.Bytes) :
    Text.utf16Length (hexText bytes) ≤ 4 * bytes.length + 4 := by
  have hlength : (hexOf bytes).length = 2 * bytes.length := by
    induction bytes with
    | nil => rfl
    | cons byte bytes ih =>
      rw [hexOf, List.flatMap_cons, List.length_append, Hex.length_digits]
      rw [hexOf] at ih
      rw [ih, List.length_cons]
      omega
  have hle := utf16Length_le (hexText bytes)
  have htext : (hexText bytes).length = (hexOf bytes).length + 2 := by
    rw [hexText, List.length_append]; rfl
  omega

deriving instance DecidableEq for Envelope, RoomRequest

theorem step_deliver {timestamp signature : Option String} {body : Bytes} {now : ℤ}
    {envelope : Envelope}
    {attestation : Attestation} {publishOnchain : Bool}
    (hverify : verifyWebhookSignature host secrets timestamp signature body now = true)
    (henvelope : parseEnvelope host body = some envelope)
    (hrequest : parseRoomRequest envelope policy host = .ok (.attest attestation publishOnchain))
    (w : World) :
    step viem host secrets policy answers w
      (.deliver now ⟨timestamp, signature, some "application/json", body⟩) =
      some (if w.knows envelope.publication_id then w
        else w.store (newRequest w now envelope attestation publishOnchain)) := by
  have htype : ¬ ((some "application/json").getD "").toList.take 16 ≠
      "application/json".toList := by decide +kernel
  unfold step handleDelivery
  simp only [hverify, not_true, if_false, htype, henvelope, hrequest]
  rfl

def sampleTransfer : Contract.Bytes16 := 0x11111111111141118111111111111111

def sampleOther : Contract.Bytes16 := 0x22222222222242228222222222222222

def sampleEntry (transferId : Contract.Bytes16) (requestId : Bytes32) :
    Contract.StandardReceiptReport :=
  ⟨transferId, requestId, 1, 1024, 1024, 1700000000000, 5, 6, 5⟩

def sampleDecoded : DecodedReport :=
    ⟨[sampleEntry sampleTransfer 7, sampleEntry sampleOther 8], [], [], []⟩

def sampleWords (entry : Contract.StandardReceiptReport) : List ℕ :=
  [entry.transferId.toNat * 2 ^ 128, entry.requestId.toNat, entry.status.toNat,
    entry.totalBytes.toNat,
    entry.bytesTransferred.toNat, entry.completedAtMs.toNat, entry.planFingerprint.toNat,
      entry.coordinateChecksum.toNat,
    entry.level.toNat]

/-- The report's ABI encoding: its version, where its four arrays are, and the arrays. -/
def sampleBody : Bytes :=
  ([2, 160, 768, 800, 832, 2] ++ sampleDecoded.standard.flatMap sampleWords ++
    [0, 0, 0]).flatMap fun word =>
    wordBytes (BitVec.ofNat 256 word)

def sampleAnswers : CreAnswers := ⟨List.replicate 32 0x11, List.replicate 20 0x22, true, 30, 120, 3⟩

def sampleReport : Bytes :=
  1 :: List.replicate 32 0x44 ++ [0x65, 0x53, 0xf1, 0x00] ++ [0, 0, 0, 1] ++ [0, 0, 0, 1] ++
    sampleAnswers.workflowId ++
    List.replicate 10 0x33 ++ sampleAnswers.workflowOwner ++ [0, 1] ++ sampleBody

def sampleSigned : SignedReport where
  rawReport := sampleReport
  context := List.replicate 96 0x66
  signatures := [
    wordBytes 0x6547c1217e9ffdbb111957fb5761f9f701c10bfec30b6d75cc450c4f3477c056 ++
      wordBytes 0x44e8b7aa1813bce93aaee63a89b7dc42a4c1d882095e1f995116e4b6aeab6991 ++ [1],
    wordBytes 0xd7187d72480cf1b1768e39e78e6bf99c138fcaf86c7b4d7f08bd959985b3f8db ++
      wordBytes 0x0a30482a2a00d1d2ca9e4815b59ea2f5d27b81bfbb2b81aae83c27022bde8d55 ++ [1]]

def sampleSet : SignerSet where
  f := 1
  signers :=
    [0x7e5f4552091a69125d5dfcb7b8c2659029395bdf, 0x2b5ad5c4795c026514f8317c7a215e218dccd6cf,
    0x6813eb9362372eef6200f3b1dbc3f819671cba69, 0x1eff47bc3a10a45d4b230b5d10e37751fe6aa718]

def sampleViem : Viem where
  hashes := ⟨fun _ => 0, fun _ => 0⟩
  keccak256 bytes :=
    if bytes = sampleReport then 0x0b8c16abd737486a19e2199f92ee3216661f37c27a0a967e22ce81cf1f85519b
    else 0x28c188b4bbd4436c285657cfe707c122928893dc02630e62d0bff46312c53f04
  recoverAddress _ signature :=
    if signature = sampleSigned.signatures.head? then sampleSet.signers[0]?
    else if signature = sampleSigned.signatures.getLast? then sampleSet.signers[1]?
    else none
  decodeAbiParameters report := if report = sampleBody then some (2, sampleDecoded) else none

def sampleTransferId : String := "11111111-1111-4111-8111-111111111111"

def sampleText (publishOnchain : Bool) : String :=
  "\x7b\"op\":\"attest_transfer\",\"transfer_id\":\"" ++ sampleTransferId ++
    "\",\"publish_onchain\":" ++
    (if publishOnchain then "true" else "false") ++ "\x7d"

def sampleMessage (publication : String) (publishOnchain : Bool) : Bytes :=
  Relay.utf8
    ("\x7b\"type\":\"message\",\"room_id\":\"room\",\"channel_id\":\"channel\",\"publication_id\":\"" ++ publication ++
    "\",\"publisher_member_id\":\"member\",\"webhook_member_id\":\"webhook\",\"hop\":0,\"text\":\"" ++
    "\x7b\\\"op\\\":\\\"attest_transfer\\\",\\\"transfer_id\\\":\\\"" ++ sampleTransferId ++
    "\\\",\\\"publish_onchain\\\":" ++ (if publishOnchain then "true" else "false") ++ "\x7d\"\x7d")

def sampleParsed (publication : String) (publishOnchain : Bool) : Json :=
  .object [("type", .string "message"), ("room_id", .string "room"),
    ("channel_id", .string "channel"),
    ("publication_id", .string publication), ("publisher_member_id", .string "member"),
    ("webhook_member_id", .string "webhook"), ("hop", .number 0),
      ("text", .string (sampleText publishOnchain))]

def sampleTextParsed (publishOnchain : Bool) : Json :=
  .object [("op", .string "attest_transfer"), ("transfer_id", .string sampleTransferId),
    ("publish_onchain", .bool publishOnchain)]

def sampleHost : Host where
  parseBody body :=
    if body = sampleMessage "first" false then some (sampleParsed "first" false)
    else if body = sampleMessage "second" true then some (sampleParsed "second" true)
    else none
  parseText text :=
    if text = sampleText false then some (sampleTextParsed false)
    else if text = sampleText true then some (sampleTextParsed true)
    else none
  hmac _ bytes :=
    if bytes = Relay.utf8 "v1:1000:" ++ sampleMessage "first" false then
      wordBytes 0x0ae47d613555ade985045a429dbe8e30885e06d8d0659ba1f4ed694d2c6d239f
    else wordBytes 0xce6211209ebc283426d53410f38a633be3b1bc2c5c5e7914f3f065b227dea48b

def sampleDelivery (publication signature : String) (publishOnchain : Bool) : Delivery :=
  ⟨some "1000", some ("v1=" ++ signature), some "application/json",
    sampleMessage publication publishOnchain⟩

def sampleSteps : List Step :=
  [.deliver 1000
    (sampleDelivery "first" "0ae47d613555ade985045a429dbe8e30885e06d8d0659ba1f4ed694d2c6d239f" false),
    .pump 1000, .outcome 0 (.ok true),
    .deliver 1010
      (sampleDelivery "second" "ce6211209ebc283426d53410f38a633be3b1bc2c5c5e7914f3f065b227dea48b" true),
    .submit 1020 (some (reportSubmission sampleSigned)), .signers 0 1021 (.ok sampleSet),
      .verified 0 1022]

def sampleStep : World → Step → Option World :=
  step sampleViem sampleHost ["secret"] ⟨[], true⟩ sampleAnswers

theorem sampleStep_submit (w : World) (now : ℤ) :
    sampleStep w (.submit now (some (reportSubmission sampleSigned))) =
    some (handleSigned sampleViem sampleAnswers w now sampleSigned).1 := by
  have hparse : parseSubmission (reportSubmission sampleSigned) = some sampleSigned :=
    parseSubmission_reportSubmission (by decide)
  rw [sampleStep, step, handleResult, Option.bind_some, hparse]

def sampleEnvelope (publication : String) (publishOnchain : Bool) : Envelope :=
  ⟨"message", "room", "channel", publication, "member", "webhook", 0,
    some (sampleText publishOnchain)⟩

theorem text_append (a b : String) :
    Json.Write.text (a ++ b) = '"' ::
      (a.toList ++ b.toList).flatMap Json.Write.escaped ++ ['"'] := by
  rw [Json.Write.text, String.toList_append]

theorem utf16Length_claim : Text.utf16Length (Json.Write.text ATTESTATION_CLAIM) ≤ 200 := by
  unfold ATTESTATION_CLAIM
  rw [text_append, String.toList_ofList, String.toList_ofList]
  decide +kernel

theorem utf16Length_three (key key' key'' : String) (value value' value'' : List Char) :
    Text.utf16Length (Json.Write.object [(key, value), (key', value'), (key'', value'')]) ≤
      8 + Text.utf16Length (Json.Write.text key) + Text.utf16Length (Json.Write.text key') +
        Text.utf16Length (Json.Write.text key'') + Text.utf16Length value +
          Text.utf16Length value' + Text.utf16Length value'' := by
  refine Nat.le_trans (utf16Length_object _) ?_
  simp only [List.map_cons, List.map_nil, List.sum_cons, List.sum_nil]
  omega

theorem utf16Length_report :
    Text.utf16Length (Json.Write.object [("report", hexText sampleSigned.rawReport),
    ("context", hexText sampleSigned.context),
      ("signatures", Json.Write.array (sampleSigned.signatures.map hexText))]) ≤ 6000 := by
  have hraw := utf16Length_hexText sampleSigned.rawReport
  have hcontext := utf16Length_hexText sampleSigned.context
  have hsignatures :
      Text.utf16Length (Json.Write.array (sampleSigned.signatures.map hexText)) ≤ 600 := by
    refine Nat.le_trans (utf16Length_array _) ?_
    have hlengths : ∀ signature ∈ sampleSigned.signatures, signature.length = 65 := by
      decide +kernel
    have hone : ∀ signature ∈ sampleSigned.signatures, Text.utf16Length (hexText signature) ≤ 264 :=
      fun signature hmem =>
      Nat.le_trans (utf16Length_hexText signature) (by rw [hlengths signature hmem])
    rw [sampleSigned, List.forall_mem_cons, List.forall_mem_singleton] at hone
    simp only [sampleSigned, List.map_cons, List.map_nil, List.sum_cons, List.sum_nil]
    omega
  have hkeys : Text.utf16Length (Json.Write.text "report") +
      Text.utf16Length (Json.Write.text "context") +
      Text.utf16Length (Json.Write.text "signatures") = 29 := by
    simp only [Json.Write.text]
    rw [String.toList_ofList, String.toList_ofList, String.toList_ofList]
    decide +kernel
  have hlength : sampleSigned.rawReport.length = 973 := by decide +kernel
  have hlength' : sampleSigned.context.length = 96 := by decide +kernel
  rw [hlength] at hraw
  rw [hlength'] at hcontext
  have hreport := utf16Length_three "report" "context" "signatures" (hexText sampleSigned.rawReport)
    (hexText sampleSigned.context)
    (Json.Write.array (sampleSigned.signatures.map hexText))
  -- so that nothing reads the texts
  generalize Text.utf16Length (hexText sampleSigned.rawReport) = raw at hraw hreport
  generalize Text.utf16Length (hexText sampleSigned.context) = context at hcontext hreport
  generalize Text.utf16Length (Json.Write.array _) = signatures at hsignatures hreport
  generalize Text.utf16Length (Json.Write.object _) = report at hreport ⊢
  omega

theorem utf16Length_answer :
    Text.utf16Length (answerView (.standard (sampleEntry sampleTransfer 7))) ≤ 600 := by
  decide +kernel

theorem utf16Length_reply (request answer signatures workflow report claim : List Char) :
    Text.utf16Length
      (Json.Write.object [("type", Json.Write.text "beam.cre.attestation.v1"),
        ("outcome", Json.Write.text "attested"),
      ("request", request), ("answer", answer), ("signatures", signatures), ("workflow", workflow),
        ("report", report),
      ("claim", claim)]) ≤ 150 + Text.utf16Length request + Text.utf16Length answer +
        Text.utf16Length signatures +
        Text.utf16Length workflow + Text.utf16Length report + Text.utf16Length claim := by
  have hkeys : ∀ key ∈ ["type", "outcome", "request", "answer", "signatures", "workflow",
      "report", "claim"],
      Text.utf16Length (Json.Write.text key) ≤ 12 := by decide +kernel
  have hvalues : Text.utf16Length (Json.Write.text "beam.cre.attestation.v1") ≤ 25 ∧
      Text.utf16Length (Json.Write.text "attested") ≤ 10 := by decide +kernel
  simp only [List.forall_mem_cons] at hkeys
  obtain ⟨h1, h2, h3, h4, h5, h6, h7, h8, -⟩ := hkeys
  refine Nat.le_trans (utf16Length_object _) ?_
  simp only [List.map_cons, List.map_nil, List.sum_cons, List.sum_nil]
  generalize Json.Write.text _ = k1 at h1 ⊢
  omega

def sampleAccepted : List Contract.Address := sampleSet.signers.take 2

def sampleHeader : ReportHeader := (parseHeader sampleReport).get (by decide +kernel)

def sampleReply (transferId : TransferId) : AttestedReply :=
  ⟨.transfer transferId, .standard (sampleEntry sampleTransfer 7), some 1, sampleAccepted,
    sampleHeader, sampleSigned⟩

theorem sampleReply_fits {transferId : TransferId} (htext : transferId.text = sampleTransferId) :
    (sampleReply transferId).fits = true := by
  have hrequest : Text.utf16Length (requestView (.transfer transferId)) ≤ 200 := by
    rw [requestView, htext]
    decide +kernel
  have hsignatures : Text.utf16Length (Json.Write.object [("verified", Json.Write.bool true),
      ("source", Json.Write.text "registry"), ("f", Json.Write.nat 1),
      ("signers", Json.Write.array (sampleAccepted.map fun signer =>
        prefixed (Hex.digits 40 signer.toNat)))]) ≤ 400 := by
    decide +kernel
  have hworkflow : Text.utf16Length (Json.Write.object [("id", hexText sampleHeader.workflowId),
      ("owner", prefixed (hexOf sampleHeader.workflowOwner)),
        ("name", hexText sampleHeader.workflowName),
      ("execution_id", hexText sampleHeader.executionId),
        ("don_id", Json.Write.nat sampleHeader.donId),
      ("timestamp", Json.Write.nat sampleHeader.timestamp)]) ≤ 1000 := by
    decide +kernel
  refine decide_eq_true (Nat.le_trans (utf16Length_reply _ _ _ _ _ _) ?_)
  have hanswer := utf16Length_answer
  have hreport := utf16Length_report
  have hclaim := utf16Length_claim
  have hall :=
    Nat.add_le_add
      (Nat.add_le_add
      (Nat.add_le_add (Nat.add_le_add (Nat.add_le_add (Nat.add_le_add_left hrequest 150)
    hanswer) hsignatures) hworkflow) hreport) hclaim
  exact Nat.le_trans hall (by decide)

theorem sampleTimestamp : 1 ≤ "1000".toList.length ∧ "1000".toList.length ≤ 12 ∧
    "1000".toList.all Text.isDecimal := by
  rw [String.toList_ofList]
  decide

theorem sampleTimestamp_signed : Relay.utf8 ("v1:" ++ "1000" ++ ":") = Relay.utf8 "v1:1000:" := by
  decide +kernel

theorem sampleMessage_ne : sampleMessage "second" true ≠ sampleMessage "first" false := by
  decide +kernel

def sampleTransferIdText : TransferId := ⟨sampleTransferId, sampleTransfer, by decide +kernel⟩

theorem sampleStep_first (w : World) : sampleStep w
    (.deliver 1000
      (sampleDelivery "first" "0ae47d613555ade985045a429dbe8e30885e06d8d0659ba1f4ed694d2c6d239f" false)) =
      some (if w.knows "first" then w
        else w.store (newRequest w 1000 (sampleEnvelope "first" false)
          (.transfer sampleTransferIdText) false)) := by
  have hverify : verifyWebhookSignature sampleHost ["secret"] (some "1000")
      (some ("v1=" ++ "0ae47d613555ade985045a429dbe8e30885e06d8d0659ba1f4ed694d2c6d239f"))
        (sampleMessage "first" false) 1000 = true := by
    have hgiven : wordBytes 0x0ae47d613555ade985045a429dbe8e30885e06d8d0659ba1f4ed694d2c6d239f ∈
        List.filterMap signaturePart
          (("v1=" ++ "0ae47d613555ade985045a429dbe8e30885e06d8d0659ba1f4ed694d2c6d239f").toList.splitOn ',') := by
      rw [String.toList_append, String.toList_ofList, String.toList_ofList, funext signaturePart_eq]
      decide +kernel
    refine verifyWebhookSignature_signed _ sampleTimestamp (by decide +kernel) hgiven ?_
    rw [sampleTimestamp_signed]
    simp only [sampleHost, if_true]
  have henvelope : parseEnvelope sampleHost (sampleMessage "first" false) =
      some (sampleEnvelope "first" false) := by
    have hparse : sampleHost.parseBody (sampleMessage "first" false) =
        some (sampleParsed "first" false) := by
      simp only [sampleHost, if_true]
    rw [parseEnvelope, hparse]
    decide +kernel
  have hrequest : parseRoomRequest (sampleEnvelope "first" false) ⟨[], true⟩ sampleHost =
      .ok (.attest (.transfer sampleTransferIdText) false) := by
    decide +kernel
  exact step_deliver hverify henvelope hrequest w

theorem sampleStep_second (w : World) : sampleStep w
    (.deliver 1010
      (sampleDelivery "second" "ce6211209ebc283426d53410f38a633be3b1bc2c5c5e7914f3f065b227dea48b" true)) =
      some (if w.knows "second" then w
        else w.store (newRequest w 1010 (sampleEnvelope "second" true)
          (.transfer sampleTransferIdText) true)) := by
  have hverify : verifyWebhookSignature sampleHost ["secret"] (some "1000")
      (some ("v1=" ++ "ce6211209ebc283426d53410f38a633be3b1bc2c5c5e7914f3f065b227dea48b"))
        (sampleMessage "second" true) 1010 = true := by
    have hgiven : wordBytes 0xce6211209ebc283426d53410f38a633be3b1bc2c5c5e7914f3f065b227dea48b ∈
        List.filterMap signaturePart
          (("v1=" ++ "ce6211209ebc283426d53410f38a633be3b1bc2c5c5e7914f3f065b227dea48b").toList.splitOn ',') := by
      rw [String.toList_append, String.toList_ofList, String.toList_ofList, funext signaturePart_eq]
      decide +kernel
    refine verifyWebhookSignature_signed _ sampleTimestamp (by decide +kernel) hgiven ?_
    rw [sampleTimestamp_signed]
    simp only [sampleHost, List.append_cancel_left_eq, sampleMessage_ne, if_false]
  have henvelope : parseEnvelope sampleHost (sampleMessage "second" true) =
      some (sampleEnvelope "second" true) := by
    have hparse : sampleHost.parseBody (sampleMessage "second" true) =
        some (sampleParsed "second" true) := by
      simp only [sampleHost, sampleMessage_ne, if_false, if_true]
    rw [parseEnvelope, hparse]
    decide +kernel
  have hrequest : parseRoomRequest (sampleEnvelope "second" true) ⟨[], true⟩ sampleHost =
      .ok (.attest (.transfer sampleTransferIdText) true) := by
    decide +kernel
  exact step_deliver hverify henvelope hrequest w

instance (w : World) (p : BridgeRequest) : Decidable (w.SentOnchain p) :=
  inferInstanceAs (Decidable (∃ sent ∈ w.forwarded, _))

def sampleWaits (w : World) (p : BridgeRequest) : Bool :=
  match w.tasks[0]? with
  | some (Task.verify submission set _) =>
    submission.signed = sampleSigned ∧ set = sampleSet ∧ p.publishOnchain = true ∧
      ¬ w.SentOnchain p ∧
      attestedReply sampleViem submission (some set) sampleAccepted p =
        some (sampleReply sampleTransferIdText)
  | _ => false

theorem sample_waits : ∃ w, Run.after sampleStep World.start (sampleSteps.take 6) = some w ∧
    ∃ p ∈ w.kept,
    sampleWaits w p = true := by
  have hrun : (Run.after sampleStep World.start (sampleSteps.take 6)).any
      (fun w => w.kept.any (sampleWaits w)) = true := by
    simp only [Run.after, sampleSteps, List.take, List.foldlM_cons, sampleStep_first,
      sampleStep_second, sampleStep_submit]
    decide +kernel
  obtain ⟨w, hw, hkept⟩ := (Option.any_eq_true _ _).mp hrun
  exact ⟨w, hw, List.any_eq_true.mp hkept⟩

theorem sample_verified : verifyReportSignatures sampleViem sampleSigned
    sampleSet = some sampleAccepted := by decide +kernel

theorem sample_replies : ∃ w, Run.after sampleStep World.start sampleSteps = some w ∧ ∃ p ∈ w.kept,
    (p.publishOnchain = true ∧ ¬ w.SentOnchain p) ∧ ∃ r, p.reply = some (.attested r) ∧ r.report =
      sampleSigned := by
  obtain ⟨w, hw, p, hp, hwaits⟩ := sample_waits
  unfold sampleWaits at hwaits
  split at hwaits
  · rename_i submission set refresh htask
    obtain ⟨hsigned, rfl, honchain, hunsent, hreply⟩ := of_decide_eq_true hwaits
    have hstep : sampleStep w (.verified 0 1022) =
        some (takeReport sampleViem (w.drop 0) 1022
          submission (some sampleSet) sampleAccepted).1 := by
      rw [sampleStep, step, htask]
      simp only [afterVerify, hsigned, sample_verified]
    have hsplit : sampleSteps = sampleSteps.take 6 ++ [.verified 0 1022] := rfl
    have hrun : Run.after sampleStep World.start sampleSteps =
        some (takeReport sampleViem (w.drop 0) 1022
          submission (some sampleSet) sampleAccepted).1 := by
      rw [hsplit]
      exact Run.after_snoc.mpr ⟨w, hw, hstep⟩
    have hmem : answerPending sampleViem 1022 submission (some sampleSet) sampleAccepted p ∈
        ((w.drop 0).mapRequests (answerPending sampleViem 1022
          submission (some sampleSet) sampleAccepted)).kept :=
      mem_mapRequests.mpr ⟨p, hp, rfl⟩
    have hkept : (takeReport sampleViem
        (w.drop 0) 1022 submission (some sampleSet) sampleAccepted).1.kept =
        ((w.drop 0).mapRequests (answerPending sampleViem 1022
          submission (some sampleSet) sampleAccepted)).kept := by
      simp only [takeReport, World.kept]
    rw [← hkept] at hmem
    refine ⟨_, hrun, _, hmem, ?_⟩
    have hanswered : answerPending sampleViem 1022 submission (some sampleSet) sampleAccepted p =
        { p with
          reply := some (.attested (sampleReply sampleTransferIdText)), answeredAt :=
            some 1022 } := by
      have hfits : (sampleReply sampleTransferIdText).fits = true := sampleReply_fits rfl
      rw [answerPending, hreply]
      simp only [if_pos hfits]
    rw [hanswered]
    exact ⟨⟨honchain, hunsent⟩, _, rfl, rfl⟩
  · cases hwaits

/-- The second answer was never sent for on chain. -/
theorem sample_not_honoured : ∃ w, Run.after sampleStep World.start sampleSteps = some w ∧
    ¬ Honoured w := by
  obtain ⟨w, hw, p, hp, ⟨honchain, hunsent⟩, r, hr, -⟩ := sample_replies
  exact ⟨w, hw, fun h => hunsent (h p hp r hr honchain)⟩

theorem sample_honoured_iff : ∃ w, Run.after sampleStep World.start sampleSteps = some w ∧
    (Run.Always sampleStep World.start sampleSteps Honoured ↔
      Run.Never sampleStep World.start sampleSteps (AnswersUnsent sampleViem sampleAnswers)) := by
  obtain ⟨w, hw, -⟩ := sample_replies
  exact ⟨w, hw, publishOnchain_honoured_iff hw⟩

/-- The replies carry the receipt of a transfer that nobody asked about. -/
theorem sample_not_alone : ∃ w, Run.after sampleStep World.start sampleSteps = some w ∧
    ¬ Alone sampleViem w := by
  obtain ⟨w, hw, p, hp, -, r, hr, hreport⟩ := sample_replies
  refine ⟨w, hw, fun h => ?_⟩
  have halone :
      (decodeReport sampleViem (reportBody r.report.rawReport)).map DecodedReport.entries =
      some [r.answer.entry] := h p hp r hr
  have hentries :
      (decodeReport sampleViem (reportBody sampleSigned.rawReport)).map DecodedReport.entries =
      some sampleDecoded.entries := by decide +kernel
  rw [hreport, hentries, Option.some_inj] at halone
  have hlength := congrArg List.length halone
  rw [List.length_singleton] at hlength
  exact absurd hlength (by decide)

theorem sample_alone_iff : ∃ w, Run.after sampleStep World.start sampleSteps = some w ∧
    (Run.Always sampleStep World.start sampleSteps (Alone sampleViem) ↔
      Run.Never sampleStep World.start sampleSteps (AnswersSeveral sampleViem sampleAnswers)) := by
  obtain ⟨w, hw, -⟩ := sample_replies
  exact ⟨w, hw, replies_alone_iff hw⟩

theorem sample_authentic_final : ∃ u w, Run.after sampleStep World.start sampleSteps = some u ∧
    Run.after sampleStep u [.pump 1100] = some w ∧
    (∃ p ∈ u.kept, ∃ r, p.reply = some (.attested r)) ∧
    (∀ p ∈ w.kept, ∀ r, p.reply = some (.attested r) →
      Authentic sampleViem sampleAnswers w.returned p.attestation r) ∧
    ∀ p ∈ u.kept, p.reply.isSome → ∀ q ∈ w.kept, q.ref = p.ref →
      q.id = p.id ∧ q.attestation = p.attestation ∧ q.reply = p.reply := by
  obtain ⟨u, hu, p, hp, -, r, hr, -⟩ := sample_replies
  have hw : Run.after sampleStep u [.pump 1100] = some (pumpCre sampleAnswers u 1100) := rfl
  exact ⟨u, _, hu, hw, ⟨p, hp, r, hr⟩, run_authentic_final rfl hu hw⟩

end Beam.Bridge
