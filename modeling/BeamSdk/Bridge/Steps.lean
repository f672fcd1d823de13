import BeamSdk.Bridge.Bridge
import BeamSdk.Library.Result

/-! What one step does to the requests that are kept: which report it takes, whom that report
answers, and what becomes of every other request. -/

namespace Beam.Bridge
open Contract (Address)

/-- A report whose checks passed, with the signer set they were made against, where one was asked
for. -/
structure Taken where
  submission : Submission
  set : Option SignerSet
  accepted : List Address

section Definitions
variable (viem : Viem) (answers : CreAnswers)

def taken (w : World) : Step → Option Taken
  | .signers i _ _ =>
    match w.tasks[i]? with
    | some (.signers submission _ _) =>
        if answers.registry then none else some ⟨submission, none, []⟩
    | _ => none
  | .verified i _ =>
    match w.tasks[i]? with
    | some (.verify submission set _) =>
      (verifyReportSignatures viem submission.signed set).map fun accepted =>
        ⟨submission, some set, accepted⟩
    | _ => none
  | _ => none

def attests (w : World) (i : Step) (pending : BridgeRequest) : Option AttestedReply :=
  (taken viem answers w i).bind fun t =>
    (attestedReply viem t.submission t.set t.accepted pending).filter AttestedReply.fits

structure Follows (reply : Option AttestedReply) (p p' : BridgeRequest) : Prop where
  ref : p'.ref = p.ref
  id : p'.id = p.id
  attestation : p'.attestation = p.attestation
  publishOnchain : p'.publishOnchain = p.publishOnchain
  final : p.reply.isSome → p'.reply = p.reply
  attested : ∀ r, p'.reply = some (.attested r) ↔ p.reply = some (.attested r) ∨ reply = some r

def counted (batch : List ℕ) (now : ℤ) (pending : BridgeRequest) : BridgeRequest :=
  if batch.contains pending.ref then
    { pending with attempts := pending.attempts + 1, forwardedAt := some now }
  else pending

inductive Effect (w : World) (i : Step) : World → Prop
  | idle (w' : World) (hstate : w'.state = w.state) (hnext : w'.nextRef = w.nextRef)
      (hforwarded : w'.forwarded = w.forwarded) (htaken : taken viem answers w i = none) :
        Effect w i w'
  | stored (request : BridgeRequest) (hnew : request.ref = w.nextRef)
      (hwaits : request.reply = none)
      (htaken : taken viem answers w i = none) : Effect w i (w.store request)
  | answered (task : ℕ) (now : ℤ) (t : Taken) (htaken : taken viem answers w i = some t) :
      Effect w i (takeReport viem (w.drop task) now t.submission t.set t.accepted).1
  | pumped (now : ℤ) (htaken : taken viem answers w i = none) : Effect w i (pumpCre answers w now)
  | forwarded (task : ℕ) (batch : List ℕ) (now : ℤ) (htaken : taken viem answers w i = none) :
      Effect w i ((w.drop task).mapRequests (counted batch now))

end Definitions

variable {viem : Viem} {host : Host} {secrets : List String} {policy : AttestationPolicy}
    {answers : CreAnswers}
  {w w' : World} {p p' : BridgeRequest} {i : Step}

theorem handleDelivery_cases {now : ℤ} {delivery : Delivery} {response : Response}
    (h : handleDelivery host secrets policy w now delivery = .ok (w', response)) :
    w' = w ∨ ∃ request : BridgeRequest, request.ref = w.nextRef ∧ request.reply = none ∧
      w' = w.store request := by
  unfold handleDelivery at h
  split at h
  · cases h
    exact .inl rfl
  · split at h
    · cases h
      exact .inl rfl
    · cases henvelope : parseEnvelope host delivery.body with
      | none =>
        simp only [henvelope] at h
        cases h
        exact .inl rfl
      | some envelope =>
        simp only [henvelope] at h
        obtain ⟨request, -, h⟩ := bind_eq_ok.mp h
        cases request with
        | ignore =>
          cases h
          exact .inl rfl
        | refuse reason message =>
          cases h
          exact .inl rfl
        | attest attestation publishOnchain =>
          cases h
          by_cases hknown : w.knows envelope.publication_id
          · exact .inl (if_pos hknown)
          · exact .inr ⟨newRequest w now envelope attestation publishOnchain, rfl, rfl,
              if_neg hknown⟩

theorem handleResult_effect {now : ℤ} {submitted : Option Json} :
    Effect viem answers w (.submit now submitted)
      (handleResult viem answers w now submitted).1 := by
  unfold handleResult
  split
  · exact .idle w rfl rfl rfl rfl
  · unfold handleSigned
    split
    · exact .idle w rfl rfl rfl rfl
    · exact .idle _ rfl rfl rfl rfl

theorem afterSigners_effect {task : ℕ} {now : ℤ} {submission : Submission}
    {cached : Option SignerSet} {refresh : Bool}
    {answer : Except Relay.Thrown SignerSet}
    (htask : w.tasks[task]? = some (.signers submission cached refresh)) :
    Effect viem answers w (.signers task now answer)
      (afterSigners viem answers (w.drop task) now submission cached refresh answer).1 := by
  by_cases hregistry : answers.registry
  · have htaken : taken viem answers w (.signers task now answer) = none := by
      simp only [taken, htask, if_pos hregistry]
    unfold afterSigners
    rw [if_neg (not_not_intro hregistry)]
    split <;> exact .idle _ rfl rfl rfl htaken
  · have htaken : taken viem answers w (.signers task now answer) =
        some ⟨submission, none, []⟩ := by
      simp only [taken, htask, if_neg hregistry]
    unfold afterSigners
    rw [if_pos hregistry]
    exact .answered task now _ htaken

theorem afterVerify_effect {task : ℕ} {now : ℤ} {submission : Submission} {set : SignerSet}
    {refresh : Bool}
    (htask : w.tasks[task]? = some (.verify submission set refresh)) :
    Effect viem answers w (.verified task now)
      (afterVerify viem (w.drop task) now submission set refresh).1 := by
  have htaken : taken viem answers w (.verified task now) =
      (verifyReportSignatures viem submission.signed set).map fun accepted =>
        ⟨submission, some set, accepted⟩ := by
    simp only [taken, htask]
  unfold afterVerify
  cases hverify : verifyReportSignatures viem submission.signed set with
  | none =>
    rw [hverify] at htaken
    dsimp only
    split <;> exact .idle _ rfl rfl rfl htaken
  | some accepted =>
    rw [hverify] at htaken
    exact .answered task now _ htaken

theorem step_effect (h : step viem host secrets policy answers w i = some w') : Effect viem answers
    w i w' := by
  cases i with
  | deliver now delivery =>
    cases hdelivery : handleDelivery host secrets policy w now delivery with
    | error thrown =>
      simp only [step, hdelivery] at h
      cases h
      exact .idle w rfl rfl rfl rfl
    | ok result =>
      simp only [step, hdelivery] at h
      cases h
      rcases handleDelivery_cases hdelivery with heq | ⟨request, hnew, hwaits, heq⟩
      · rw [heq]
        exact .idle w rfl rfl rfl rfl
      · rw [heq]
        exact .stored request hnew hwaits rfl
  | poll now id poll =>
    cases h
    rw [handlePoll_world]
    exact .idle w rfl rfl rfl rfl
  | submit now submitted =>
    cases h
    exact handleResult_effect
  | signers task now answer =>
    simp only [step] at h
    split at h
    · cases h
      exact afterSigners_effect ‹_›
    · cases h
  | verified task now =>
    simp only [step] at h
    split at h
    · cases h
      exact afterVerify_effect ‹_›
    · cases h
  | pump now =>
    cases h
    exact .pumped now rfl
  | outcome task outcome =>
    simp only [step] at h
    split at h
    · cases h
      cases outcome with
      | error thrown => exact .idle _ rfl rfl rfl rfl
      | ok accepted => exact .forwarded task _ _ rfl
    · cases h

theorem mem_kept : p ∈ w.kept ↔ ∃ key, (key, p) ∈ w.state.requests := mem_objectValues

@[simp] theorem mem_mapRequests {f : BridgeRequest → BridgeRequest} :
    p' ∈ (w.mapRequests f).kept ↔ ∃ p ∈ w.kept, f p = p' := by
  simp only [mem_kept, World.mapRequests, List.mem_map, Prod.mk.injEq]
  constructor
  · rintro ⟨key, entry, hmem, rfl, hf⟩
    exact ⟨entry.2, ⟨entry.1, hmem⟩, hf⟩
  · rintro ⟨p, ⟨key, hmem⟩, hf⟩
    exact ⟨key, (key, p), hmem, rfl, hf⟩

@[simp] theorem kept_drop (task : ℕ) : (w.drop task).kept = w.kept := rfl

theorem mem_store {request : BridgeRequest} (h : p' ∈ (w.store request).kept) : p' = request ∨
    p' ∈ w.kept := by
  obtain ⟨key, hmem⟩ := mem_kept.mp h
  rcases OrderedMap.mem_set hmem with heq | hmem
  · exact .inl (Prod.mk.inj heq).2
  · exact .inr (mem_kept.mpr ⟨key, hmem⟩)

theorem mem_dropExpired {now : ℤ} (h : p ∈ (dropExpired w now).kept) : p ∈ w.kept := by
  obtain ⟨key, hmem⟩ := mem_kept.mp h
  exact mem_kept.mpr ⟨key, (List.mem_filter.mp hmem).1⟩

theorem kept_takeReport {now : ℤ} {t : Taken} :
    (takeReport viem w now t.submission t.set t.accepted).1.kept =
    (w.mapRequests (answerPending viem now t.submission t.set t.accepted)).kept := by
  simp only [takeReport, World.kept]

theorem pumpCre_state {now : ℤ} :
    (pumpCre answers w now).state =
      ((dropExpired w now).mapRequests (timeOut answers now)).state := by
  unfold pumpCre
  dsimp only
  split <;> rfl

theorem pumpCre_nextRef {now : ℤ} : (pumpCre answers w now).nextRef = w.nextRef := by
  unfold pumpCre
  dsimp only
  split <;> rfl

theorem follows_rfl : Follows none p p where
  ref := rfl
  id := rfl
  attestation := rfl
  publishOnchain := rfl
  final _ := rfl
  attested _ := by simp

theorem follows_counted {batch : List ℕ} {now : ℤ} : Follows none p (counted batch now p) := by
  unfold counted
  split
  · exact ⟨rfl, rfl, rfl, rfl, fun _ => rfl, fun _ => by simp⟩
  · exact follows_rfl

theorem follows_timeOut {now : ℤ} : Follows none p (timeOut answers now p) := by
  unfold timeOut
  split
  · rename_i hdue
    have hwaits : p.reply = none := Option.isNone_iff_eq_none.mp hdue.1
    refine ⟨rfl, rfl, rfl, rfl, fun hreply => ?_, fun r => ?_⟩
    · rw [hwaits] at hreply
      cases hreply
    · simp [hwaits]
  · exact follows_rfl

theorem attestedReply_waits {submission : Submission} {set : Option SignerSet}
    {accepted : List Address}
    {r : AttestedReply} (h : attestedReply viem submission set accepted p = some r) :
      p.reply = none := by
  unfold attestedReply at h
  split at h
  · cases h
  · rename_i hreply
    exact Option.not_isSome_iff_eq_none.mp hreply

theorem follows_answerPending {now : ℤ} {submission : Submission} {set : Option SignerSet}
    {accepted : List Address} :
    Follows ((attestedReply viem submission set accepted p).filter AttestedReply.fits) p
      (answerPending viem now submission set accepted p) := by
  unfold answerPending
  cases hreply : attestedReply viem submission set accepted p with
  | none => exact follows_rfl
  | some attested =>
    have hwaits : p.reply = none := attestedReply_waits hreply
    have hfinal : ∀ reply, p.reply.isSome → reply = p.reply :=
      fun _ h => by rw [hwaits] at h; cases h
    by_cases hfits : attested.fits
    · have hattests : (some attested).filter AttestedReply.fits = some attested :=
        Option.filter_eq_some_iff.mpr ⟨rfl, hfits⟩
      rw [hattests]
      refine ⟨rfl, rfl, rfl, rfl, hfinal _, fun r => ?_⟩
      simp [hwaits, hfits]
    · have hattests : (some attested).filter AttestedReply.fits = none :=
        Option.filter_eq_none_iff.mpr fun _ h => Option.some.inj h ▸ hfits
      rw [hattests]
      refine ⟨rfl, rfl, rfl, rfl, hfinal _, fun r => ?_⟩
      simp [hwaits, hfits]

theorem attests_of_none (h : taken viem answers w i = none) :
    attests viem answers w i p = none := by
  rw [attests, h, Option.bind_none]

theorem attests_of_some {t : Taken} (h : taken viem answers w i = some t) :
    attests viem answers w i p =
    (attestedReply viem t.submission t.set t.accepted p).filter AttestedReply.fits := by
  rw [attests, h, Option.bind_some]

/-- Every request kept after a step is what `f` makes of one kept before it, or the new one, which
waits. -/
structure Moves (w w' : World) (attested : BridgeRequest → Option AttestedReply)
    (f : BridgeRequest → BridgeRequest)
    (new : Option BridgeRequest) : Prop where
  follows : ∀ p, Follows (attested p) p (f p)
  kept : ∀ p' ∈ w'.kept, (∃ p ∈ w.kept, f p = p') ∨ new = some p'
  waits : ∀ p', new = some p' → p'.ref = w.nextRef ∧ w'.nextRef = w.nextRef + 1 ∧ p'.reply = none
  nextRef : w.nextRef ≤ w'.nextRef

theorem step_moves (h : step viem host secrets policy answers w i = some w') :
    ∃ f new, Moves w w' (attests viem answers w i) f new := by
  have hnone : ∀ f : BridgeRequest → BridgeRequest, (∀ p, Follows none p (f p)) →
      taken viem answers w i = none →
      ∀ p, Follows (attests viem answers w i p) p (f p) := by
    intro f hf htaken p
    rw [attests_of_none htaken]
    exact hf p
  cases step_effect h with
  | idle _ hstate hnext hforwarded htaken =>
    refine ⟨id, none, hnone id (fun _ => follows_rfl) htaken, fun p' hp' => ?_, fun _ h =>
      (nomatch h), ?_⟩
    · rw [World.kept, hstate] at hp'
      exact .inl ⟨p', hp', rfl⟩
    · exact Nat.le_of_eq hnext.symm
  | stored request hnew hwaits htaken =>
    refine ⟨id, some request, hnone id (fun _ => follows_rfl) htaken, fun p' hp' => ?_,
      fun p' h => ?_, Nat.le_succ _⟩
    · rcases mem_store hp' with rfl | hp
      · exact .inr rfl
      · exact .inl ⟨p', hp, rfl⟩
    · cases h
      exact ⟨hnew, rfl, hwaits⟩
  | answered task now t htaken =>
    refine ⟨answerPending viem now t.submission t.set t.accepted, none,
      fun p => ?_, fun p' hp' => ?_,
      fun _ h => (nomatch h), Nat.le_refl _⟩
    · rw [attests_of_some htaken]
      exact follows_answerPending
    · rw [kept_takeReport] at hp'
      exact .inl (mem_mapRequests.mp hp')
  | pumped now htaken =>
    refine ⟨timeOut answers now, none, hnone _ (fun _ => follows_timeOut) htaken, fun p' hp' => ?_,
      fun _ h => (nomatch h), Nat.le_of_eq pumpCre_nextRef.symm⟩
    rw [World.kept, pumpCre_state] at hp'
    obtain ⟨p, hp, hf⟩ := mem_mapRequests.mp hp'
    exact .inl ⟨p, mem_dropExpired hp, hf⟩
  | forwarded task batch now htaken =>
    refine ⟨counted batch now, none, hnone _ (fun _ => follows_counted) htaken, fun p' hp' => ?_,
      fun _ h => (nomatch h), Nat.le_refl _⟩
    exact .inl (mem_mapRequests.mp hp')

theorem step_attests (h : step viem host secrets policy answers w i = some w') (hp : p ∈ w.kept)
    {r : AttestedReply}
    (hr : attests viem answers w i p = some r) :
    (∃ p' ∈ w'.kept, Follows (some r) p p') ∧ w'.forwarded = w.forwarded := by
  have hnone : ∀ {P : Prop}, taken viem answers w i = none → P := fun htaken => by
    rw [attests_of_none htaken] at hr
    cases hr
  cases step_effect h with
  | idle _ hstate hnext hforwarded htaken => exact hnone htaken
  | stored request hnew hwaits htaken => exact hnone htaken
  | answered task now t htaken =>
    rw [kept_takeReport]
    refine ⟨⟨_, mem_mapRequests.mpr ⟨p, hp, rfl⟩, ?_⟩, rfl⟩
    rw [← hr, attests_of_some htaken]
    exact follows_answerPending
  | pumped now htaken => exact hnone htaken
  | forwarded task batch now htaken => exact hnone htaken

theorem step_forwarded (h : step viem host secrets policy answers w i = some w') :
    w.forwarded <+: w'.forwarded := by
  cases step_effect h with
  | idle _ hstate hnext hforwarded htaken => exact hforwarded ▸ List.prefix_rfl
  | stored request hnew hwaits htaken => exact List.prefix_rfl
  | answered task now t htaken => exact List.prefix_rfl
  | pumped now htaken =>
    unfold pumpCre
    dsimp only
    split
    · exact List.prefix_rfl
    · exact List.prefix_append ..
  | forwarded task batch now htaken => exact List.prefix_rfl

/-- A property of a request and its attested reply, at every request that has one. -/
def Replies (Q : BridgeRequest → AttestedReply → Prop) (w : World) : Prop :=
  ∀ p ∈ w.kept, ∀ r, p.reply = some (.attested r) → Q p r

/-- A property that only looks at what a request asks is kept by a step exactly when the replies it
gives have it. -/
theorem step_replies {Q : BridgeRequest → AttestedReply → Prop}
    (hQ : ∀ new p p' r, Follows new p p' → (Q p' r ↔ Q p r)) (hw : Replies Q w)
    (h : step viem host secrets policy answers w i = some w') :
    Replies Q w' ↔ ∀ p ∈ w.kept, ∀ r, attests viem answers w i p = some r → Q p r := by
  constructor
  · intro hw' p hp r hr
    obtain ⟨⟨p', hp', hfollows⟩, -⟩ := step_attests h hp hr
    have hreply : p'.reply = some (.attested r) := (hfollows.attested r).mpr (.inr rfl)
    exact (hQ _ _ _ r hfollows).mp (hw' p' hp' r hreply)
  · intro hnew p' hp' r hr
    obtain ⟨f, new, hmoves⟩ := step_moves h
    rcases hmoves.kept p' hp' with ⟨p, hp, rfl⟩ | hp'
    · have hfollows := hmoves.follows p
      refine (hQ _ _ _ r hfollows).mpr ?_
      rcases (hfollows.attested r).mp hr with hold | hattests
      · exact hw p hp r hold
      · exact hnew p hp r hattests
    · rw [(hmoves.waits p' hp').2.2] at hr
      cases hr

end Beam.Bridge
