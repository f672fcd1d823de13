import BeamSdk.Bridge.Chain
import BeamSdk.Bridge.Replies

/-! What a batch forwards for the requests it counts. Requests are told apart by a text, which two
subjects may share. -/

namespace Beam.Bridge
open Contract (Bytes)

section Batch

def firsts (count : ℕ) (keys : List String) : List String := keys.eraseDups.take count

theorem firsts_snoc {count : ℕ} {keys : List String} {key : String} : firsts count (keys ++ [key]) =
    if key ∈ firsts count keys ∨ (firsts count keys).length = count then firsts count keys
    else firsts count keys ++ [key] := by
  unfold firsts
  have hmem : key ∈ keys ↔ key ∈ keys.eraseDups := List.mem_eraseDups.symm
  rw [List.eraseDups_append]
  by_cases hkey : key ∈ keys
  · have hnone : [key].removeAll keys = [] := by simp [List.removeAll, hkey]
    have hin : key ∈ keys.eraseDups.take count ∨ (keys.eraseDups.take count).length = count := by
      rcases Nat.le_total keys.eraseDups.length count with hle | hle
      · rw [List.take_of_length_le hle]
        exact .inl (hmem.mp hkey)
      · exact .inr (List.length_take_of_le hle)
    rw [hnone, List.eraseDups_nil, List.append_nil, if_pos hin]
  · have hone : [key].removeAll keys = [key] := by simp [List.removeAll, hkey]
    rw [hone, show [key].eraseDups = [key] from rfl]
    have hnot : key ∉ keys.eraseDups := fun h => hkey (hmem.mpr h)
    rcases Nat.lt_or_ge keys.eraseDups.length count with hlt | hge
    · have hcond : ¬ (key ∈ keys.eraseDups.take count ∨
          (keys.eraseDups.take count).length = count) := by
        rw [List.take_of_length_le hlt.le]
        exact not_or.mpr ⟨hnot, hlt.ne⟩
      rw [if_neg hcond, List.take_of_length_le hlt.le]
      exact List.take_of_length_le (by rw [List.length_append, List.length_singleton]; exact hlt)
    · rw [if_pos (.inr (List.length_take_of_le hge)), List.take_append_of_le_length hge]

def subjects (requests : List BridgeRequest) : List String :=
  firsts MAX_ATTESTATIONS (requests.map fun p => describe p.attestation)

def joined (requests : List BridgeRequest) : List BridgeRequest :=
  requests.filter fun p => describe p.attestation ∈ subjects requests

variable {requests : List BridgeRequest} {p q : BridgeRequest} {publishOnchain : Bool}

/-- What `addToBatch` has gathered of requests that all ask for its `publishOnchain`. -/
structure Gathers (requests : List BridgeRequest)
    (gathered : OrderedMap String Attestation × List BridgeRequest) :
    Prop where
  keys : gathered.1.map Prod.fst = subjects requests
  nodup : (gathered.1.map Prod.fst).Nodup
  batch : gathered.2 = joined requests
  described : ∀ key attestation, gathered.1.get key = some attestation →
    describe attestation = key ∧ ∃ p ∈ gathered.2, p.attestation = attestation

theorem subjects_length : (subjects requests).length ≤ MAX_ATTESTATIONS := List.length_take_le ..

theorem subjects_snoc : subjects (requests ++ [p]) =
    if describe p.attestation ∈ subjects requests ∨
      (subjects requests).length = MAX_ATTESTATIONS then subjects requests
    else subjects requests ++ [describe p.attestation] := by
  unfold subjects
  rw [List.map_append, List.map_singleton, firsts_snoc]

theorem mem_subjects (h : (subjects requests).length < MAX_ATTESTATIONS) (hq : q ∈ requests) :
    describe q.attestation ∈ subjects requests := by
  unfold subjects firsts at h ⊢
  have hall : (requests.map fun p => describe p.attestation).eraseDups.length ≤
      MAX_ATTESTATIONS := by
    rw [List.length_take] at h
    omega
  rw [List.take_of_length_le hall, List.mem_eraseDups]
  exact List.mem_map.mpr ⟨q, hq, rfl⟩

theorem joined_snoc : joined (requests ++ [p]) =
    if describe p.attestation ∈ subjects requests ∨
      (subjects requests).length < MAX_ATTESTATIONS then
      joined requests ++ [p]
    else joined requests := by
  have hle : (subjects requests).length ≤ MAX_ATTESTATIONS := subjects_length
  unfold joined
  rw [List.filter_append, subjects_snoc]
  by_cases hin : describe p.attestation ∈ subjects requests
  · rw [if_pos (.inl hin), if_pos (.inl hin)]
    simp [hin]
  · rcases Nat.lt_or_eq_of_le hle with hlt | hfull
    · rw [if_neg (not_or.mpr ⟨hin, hlt.ne⟩), if_pos (.inr hlt)]
      have hbefore : ∀ q ∈ requests, describe q.attestation ∈ subjects requests :=
        fun q hq => mem_subjects hlt hq
      congr 1
      · refine List.filter_congr fun q hq => ?_
        simp [hbefore q hq]
      · simp
    · rw [if_pos (.inr hfull), if_neg (not_or.mpr ⟨hin, hfull.not_lt⟩)]
      simp [hin]

theorem addToBatch_gathers {gathered : OrderedMap String Attestation × List BridgeRequest}
    (h : Gathers requests gathered) (hp : p.publishOnchain = publishOnchain) :
    Gathers (requests ++ [p]) (addToBatch publishOnchain gathered p) := by
  have hsome : (gathered.1.get (describe p.attestation)).isNone ↔
      describe p.attestation ∉ subjects requests := by
    rw [Option.isNone_iff_eq_none, OrderedMap.get_eq_none, ← h.keys]
    simp
  have hlength : gathered.1.length = (subjects requests).length := by rw [← h.keys, List.length_map]
  unfold addToBatch
  rw [if_neg (not_not.mpr hp)]
  simp only [hsome, hlength]
  by_cases hfull : describe p.attestation ∉ subjects requests ∧
    (subjects requests).length = MAX_ATTESTATIONS
  · obtain ⟨hnew, hlen⟩ := hfull
    rw [if_pos ⟨hnew, hlen⟩]
    refine ⟨?_, h.nodup, ?_, h.described⟩
    · rw [subjects_snoc, if_pos (.inr hlen)]
      exact h.keys
    · rw [joined_snoc, if_neg (not_or.mpr ⟨hnew, hlen.not_lt⟩)]
      exact h.batch
  · rw [if_neg hfull]
    have hjoins : describe p.attestation ∈ subjects requests ∨
        (subjects requests).length < MAX_ATTESTATIONS := by
      by_cases hin : describe p.attestation ∈ subjects requests
      · exact .inl hin
      · exact .inr (Nat.lt_of_le_of_ne subjects_length fun hlen => hfull ⟨hin, hlen⟩)
    refine ⟨?_, OrderedMap.nodup_set h.nodup _ _, ?_, fun key attestation hget => ?_⟩
    · rw [OrderedMap.keys_set, h.keys, subjects_snoc]
      by_cases hin : describe p.attestation ∈ subjects requests
      · rw [if_pos hin, if_pos (.inl hin)]
      · rw [if_neg hin, if_neg fun hor => hfull ⟨hin, hor.resolve_left hin⟩]
    · rw [joined_snoc, if_pos hjoins, h.batch]
    · by_cases hkey : key = describe p.attestation
      · subst hkey
        rw [OrderedMap.get_set_self] at hget
        cases hget
        exact ⟨rfl, p, List.mem_append_right _ (List.mem_singleton_self p), rfl⟩
      · rw [OrderedMap.get_set_of_ne _ hkey] at hget
        obtain ⟨hdescribe, q, hq, hattestation⟩ := h.described key attestation hget
        exact ⟨hdescribe, q, List.mem_append_left _ hq, hattestation⟩

theorem addToBatch_skips {gathered : OrderedMap String Attestation × List BridgeRequest}
    (hp : p.publishOnchain ≠ publishOnchain) : addToBatch publishOnchain gathered p = gathered :=
      if_pos hp

/-- The requests of a list that ask for this `publishOnchain`. -/
def asking (publishOnchain : Bool) (requests : List BridgeRequest) : List BridgeRequest :=
  requests.filter fun p => p.publishOnchain = publishOnchain

theorem gathers (requests : List BridgeRequest) :
    Gathers (asking publishOnchain requests)
      (requests.foldl (addToBatch publishOnchain) ([], [])) := by
  induction requests using List.reverseRecOn with
  | nil => exact ⟨rfl, List.nodup_nil, rfl, fun _ _ h => (nomatch h)⟩
  | append_singleton requests p ih =>
    rw [List.foldl_append, List.foldl_cons, List.foldl_nil, asking, List.filter_append]
    by_cases hp : p.publishOnchain = publishOnchain
    · rw [List.filter_singleton, decide_eq_true hp]
      exact addToBatch_gathers ih hp
    · rw [List.filter_singleton, decide_eq_false hp, addToBatch_skips hp]
      simpa [asking] using ih

/-- Whoever is in the batch is asked about, exactly where the batch does not hold two subjects with
one description. -/
theorem Gathers.asked_iff {gathered : OrderedMap String Attestation × List BridgeRequest}
    (h : Gathers requests gathered) :
    (∀ p ∈ gathered.2, p.attestation ∈ gathered.1.map Prod.snd) ↔
      Apart ((joined requests).map BridgeRequest.attestation) := by
  have hvalue : ∀ attestation ∈ gathered.1.map Prod.snd,
      gathered.1.get (describe attestation) = some attestation := by
    intro attestation hmem
    obtain ⟨⟨key, _⟩, hin, rfl⟩ := List.mem_map.mp hmem
    have hget := (OrderedMap.get_eq_some h.nodup).mpr hin
    rw [(h.described key _ hget).1]
    exact hget
  rw [h.batch]
  constructor
  · intro hasked a ha b hb hsame
    obtain ⟨p, hp, rfl⟩ := List.mem_map.mp ha
    obtain ⟨q, hq, rfl⟩ := List.mem_map.mp hb
    have hpget := hvalue _ (hasked p hp)
    rw [hsame, hvalue _ (hasked q hq)] at hpget
    exact (Option.some.inj hpget).symm
  · intro hapart p hp
    have hkey : describe p.attestation ∈ gathered.1.map Prod.fst := by
      rw [h.keys]
      exact of_decide_eq_true (List.mem_filter.mp hp).2
    obtain ⟨⟨key, attestation⟩, hin, hdescribed⟩ := List.mem_map.mp hkey
    have hget := (OrderedMap.get_eq_some h.nodup).mpr hin
    obtain ⟨hdescribe, q, hq, rfl⟩ := h.described _ _ hget
    rw [h.batch] at hq
    have hsame :=
      hapart p.attestation (List.mem_map_of_mem hp) q.attestation (List.mem_map_of_mem hq)
      (hdescribed.symm.trans hdescribe.symm)
    exact List.mem_map.mpr ⟨_, hin, hsame.symm⟩

theorem head_mem_joined (oldest : BridgeRequest) (rest : List BridgeRequest) :
    oldest ∈ joined (oldest :: rest) := by
  have hkey : describe oldest.attestation ∈ subjects (oldest :: rest) := by
    rw [subjects, firsts, List.map_cons, List.eraseDups_cons]
    exact List.mem_cons_self ..
  exact List.mem_filter.mpr ⟨List.mem_cons_self .., decide_eq_true hkey⟩

end Batch

section Pump
variable (viem : Viem) (host : Host) (secrets : List String) (policy : AttestationPolicy)
    (answers : CreAnswers) (w : World)
  (now : ℤ)

/-- The requests as a pump finds them, those past retention dropped and those it gives up on
answered. -/
def sweep : World := (dropExpired w now).mapRequests (timeOut answers now)

/-- The batch as it is promised: small, of one flag, with the oldest due request in it, and with
every request asked about whose attempts it will count, whenever its outcome comes. -/
structure Promised (f : Forwarded) : Prop where
  small : f.attest.length ≤ MAX_ATTESTATIONS
  flag : ∀ p ∈ (pumpCre answers w now).kept, p.ref ∈ f.batch → p.publishOnchain = f.publishOnchain
  oldest : ∀ oldest, ((sweep answers w now).due answers now).head? = some oldest →
    oldest.attestation ∈ f.attest
  counted : ∀ steps v, Run.after (step viem host secrets policy answers)
    (pumpCre answers w now) steps = some v →
    ∀ at' : ℤ, ∀ p ∈ v.kept, (counted f.batch at' p).attempts ≠ p.attempts →
      p.attestation ∈ f.attest

/-- Due requests of the oldest's flag that have one description, and a place in the batch, ask for
one thing. -/
def DueApart : Prop := ∀ oldest, ((sweep answers w now).due answers now).head? = some oldest →
  Apart ((joined (asking oldest.publishOnchain ((sweep answers w now).due answers now))).map
    BridgeRequest.attestation)

variable {viem host secrets policy answers w now}

theorem counted_attempts {batch : List ℕ} {at' : ℤ} {p : BridgeRequest} :
    (counted batch at' p).attempts ≠ p.attempts ↔ p.ref ∈ batch := by
  unfold counted
  by_cases hp : p.ref ∈ batch
  · rw [if_pos (List.contains_iff_mem.mpr hp)]
    exact ⟨fun _ => hp, fun _ => Nat.succ_ne_self _⟩
  · rw [if_neg fun h => hp (List.contains_iff_mem.mp h)]
    exact ⟨fun h => absurd rfl h, fun h => absurd h hp⟩

theorem mem_due {p : BridgeRequest} (h : p ∈ w.due answers now) : p ∈ w.kept := by
  unfold World.due at h
  split_ifs at h
  · cases h
  · exact (List.mem_filter.mp ((List.mem_insertionSort _).mp (List.mem_filter.mp h).1)).1

theorem pumpCre_kept : (pumpCre answers w now).kept = (sweep answers w now).kept := by
  rw [World.kept, pumpCre_state]
  rfl

theorem pumpCre_forwarded {f : Forwarded}
    (h : (pumpCre answers w now).forwarded = w.forwarded ++ [f]) :
    ∃ oldest rest, (sweep answers w now).due answers now = oldest :: rest ∧
      f = ⟨((oldest :: rest).foldl (addToBatch oldest.publishOnchain)
        ([], [])).2.map BridgeRequest.ref,
        ((oldest :: rest).foldl (addToBatch oldest.publishOnchain) ([], [])).1.map Prod.snd,
          oldest.publishOnchain⟩ := by
  unfold pumpCre at h
  dsimp only at h
  split at h
  · have hlength := congrArg List.length h
    rw [List.length_append, List.length_singleton] at hlength
    exact absurd hlength (Nat.ne_of_lt (Nat.lt_succ_self _))
  · rename_i oldest rest hdue
    exact ⟨oldest, rest, hdue, (List.singleton_inj.mp (List.append_cancel_left h)).symm⟩

theorem pump_promised_iff (hw : Distinct w) :
    (∀ f, (pumpCre answers w now).forwarded = w.forwarded ++ [f] →
      Promised viem host secrets policy answers w now f) ↔
      DueApart answers w now := by
  have hstep : step viem host secrets policy answers w (.pump now) = some (pumpCre answers w now) :=
    rfl
  have hdistinct : Distinct (pumpCre answers w now) := step_distinct hw hstep
  constructor
  · intro h oldest holdest
    obtain ⟨rest, hdue⟩ : ∃ rest, (sweep answers w now).due answers now = oldest :: rest := by
      cases hlist : (sweep answers w now).due answers now with
      | nil =>
        rw [hlist] at holdest
        cases holdest
      | cons first rest =>
        rw [hlist] at holdest
        cases holdest
        exact ⟨rest, rfl⟩
    have hforwarded : (pumpCre answers w now).forwarded = w.forwarded ++
        [⟨((oldest :: rest).foldl (addToBatch oldest.publishOnchain)
          ([], [])).2.map BridgeRequest.ref,
          ((oldest :: rest).foldl (addToBatch oldest.publishOnchain) ([], [])).1.map Prod.snd,
            oldest.publishOnchain⟩] := by
      unfold pumpCre
      have hdue' := hdue
      unfold sweep at hdue'
      simp only [hdue']
      rfl
    have hgathers : Gathers (asking oldest.publishOnchain (oldest :: rest)) _ :=
      gathers (oldest :: rest)
    rw [hdue]
    refine hgathers.asked_iff.mp fun p hp => ?_
    have hmem : p ∈ (pumpCre answers w now).kept := by
      rw [hgathers.batch] at hp
      have hin := (List.mem_filter.mp (List.mem_filter.mp hp).1).1
      rw [pumpCre_kept]
      exact mem_due (hdue ▸ hin)
    exact (h _ hforwarded).counted [] _ rfl 0 p hmem (counted_attempts.mpr (List.mem_map_of_mem hp))
  · intro hapart f hf
    obtain ⟨oldest, rest, hdue, rfl⟩ := pumpCre_forwarded hf
    have hgathers : Gathers (asking oldest.publishOnchain (oldest :: rest)) _ :=
      gathers (oldest :: rest)
    have hhead : ((sweep answers w now).due answers now).head? = some oldest := by
      rw [hdue]
      rfl
    have hasked := hgathers.asked_iff.mpr (by
      have hdues := hapart oldest hhead
      rwa [hdue] at hdues)
    have hkept : ∀ p ∈ ((oldest :: rest).foldl (addToBatch oldest.publishOnchain) ([], [])).2,
        p ∈ (pumpCre answers w now).kept ∧ p.publishOnchain = oldest.publishOnchain := by
      intro p hp
      rw [hgathers.batch] at hp
      obtain ⟨hin, hflag⟩ := List.mem_filter.mp (List.mem_filter.mp hp).1
      refine ⟨?_, of_decide_eq_true hflag⟩
      rw [pumpCre_kept]
      exact mem_due (hdue ▸ hin)
    refine ⟨?_, fun p hp href => ?_,
      fun oldest' holdest' => ?_, fun steps v hv at' p hp hcounted => ?_⟩
    · show (List.map Prod.snd _).length ≤ MAX_ATTESTATIONS
      rw [List.length_map, ← List.length_map (f := Prod.fst), hgathers.keys]
      exact subjects_length
    · obtain ⟨q, hq, hsame⟩ := List.mem_map.mp href
      obtain ⟨hqkept, hflag⟩ := hkept q hq
      rw [hdistinct.unique q hqkept p hp hsame.symm]
      exact hflag
    · cases hhead.symm.trans holdest'
      have hfirst : asking oldest.publishOnchain (oldest :: rest) = oldest ::
          asking oldest.publishOnchain rest :=
        List.filter_cons_of_pos (by simp)
      refine hasked oldest ?_
      rw [hgathers.batch, hfirst]
      exact head_mem_joined oldest _
    · obtain ⟨q, hq, hsame⟩ := List.mem_map.mp (counted_attempts.mp hcounted)
      have hqkept := (hkept q hq).1
      have hself : Evolves (pumpCre answers w now) (pumpCre answers w now) :=
        ⟨Nat.le_refl _, fun q hq => .inr ⟨q, hq, rfl, rfl, rfl, fun _ => rfl⟩⟩
      have hevolves : Evolves (pumpCre answers w now) v :=
        Run.after_invariant (fun _ _ _ hv h => hv.step h) hself hv
      rcases hevolves.kept p hp with hlater | ⟨p₀, hp₀, href, -, hattestation, -⟩
      · exact absurd (hdistinct.fresh q hqkept) (Nat.not_lt.mpr (hsame ▸ hlater))
      · rw [hattestation, hdistinct.unique q hqkept p₀ hp₀ (href.symm.trans hsame.symm)]
        exact hasked q hq

end Pump

section Samples

def samplePublication : String := "btr_pub_aaaaaaaaaaaaaaaaaaaaaaaaaa"

def sampleAsk (channel : String) : String :=
  "\x7b\"op\":\"attest_room_publication\",\"channel\":\"" ++ channel ++ "\",\"publication\":\"" ++
    samplePublication ++
    "\"\x7d"

def sampleAskParsed (channel : String) : Json :=
  .object [("op", .string "attest_room_publication"), ("channel", .string channel),
    ("publication", .string samplePublication)]

def sampleAskMessage (room publication channel : String) : Bytes :=
  Relay.utf8 ("\x7b\"type\":\"message\",\"room_id\":\"" ++ room ++
    "\",\"channel_id\":\"chat\",\"publication_id\":\"" ++
    publication ++
      "\",\"publisher_member_id\":\"member\",\"webhook_member_id\":\"webhook\",\"hop\":0,\"text\":\"" ++
    "\x7b\\\"op\\\":\\\"attest_room_publication\\\",\\\"channel\\\":\\\"" ++ channel ++
    "\\\",\\\"publication\\\":\\\"" ++ samplePublication ++ "\\\"\x7d\"\x7d")

def sampleAskEnvelope (room publication channel : String) : Json :=
  .object [("type", .string "message"), ("room_id", .string room), ("channel_id", .string "chat"),
    ("publication_id", .string publication), ("publisher_member_id", .string "member"),
    ("webhook_member_id", .string "webhook"), ("hop", .number 0),
      ("text", .string (sampleAsk channel))]

def sampleAskHost : Host where
  parseBody body :=
    if body = sampleAskMessage "a/b" "first" "c" then some (sampleAskEnvelope "a/b" "first" "c")
    else if body = sampleAskMessage "a" "second" "b/c" then
      some (sampleAskEnvelope "a" "second" "b/c")
    else none
  parseText text :=
    if text = sampleAsk "c" then some (sampleAskParsed "c")
    else if text = sampleAsk "b/c" then some (sampleAskParsed "b/c")
    else none
  hmac _ bytes :=
    if bytes = Relay.utf8 "v1:1000:" ++ sampleAskMessage "a/b" "first" "c" then
      wordBytes 0x10644850a582b5e84d297b552d20014baeeede18ecbc755a098cfc1a2be36115
    else wordBytes 0x4f93f2f9139dca55937bf33cbe4bf90d8cabb2ee69a63e14f70182b4204e049f

def sampleAskDelivery (room publication channel signature : String) : Delivery :=
  ⟨some "1000", some ("v1=" ++ signature), some "application/json",
    sampleAskMessage room publication channel⟩

def sampleFirst : Step := .deliver 1000
  (sampleAskDelivery "a/b" "first" "c" "10644850a582b5e84d297b552d20014baeeede18ecbc755a098cfc1a2be36115")

def sampleSecond : Step := .deliver 1000
  (sampleAskDelivery "a" "second" "b/c" "4f93f2f9139dca55937bf33cbe4bf90d8cabb2ee69a63e14f70182b4204e049f")

def samplePolicy : AttestationPolicy := ⟨[("a/b", ["c"]), ("a", ["b/c"])], false⟩

def sampleAskStep : World → Step → Option World :=
    step sampleViem sampleAskHost ["secret"] samplePolicy sampleAnswers

def sampleChainRequest (ref : ℕ) (id room channel : String) : ChainRequest :=
  ⟨ref, id, room, "chat", "member", 1000, .roomPublication room channel samplePublication, false, 0,
    none, none, none, none⟩

def sampleChain (requests : List ChainRequest) : ChainWorld := ⟨requests.map fun p => (p.id, p), 0⟩

theorem sampleChain_distinct (room channel room' channel' : String) :
    (sampleChain [sampleChainRequest 0 "first" room channel,
      sampleChainRequest 1 "second" room' channel']).Distinct := by
  have hkept : ∀ p ∈ (sampleChain [sampleChainRequest 0 "first" room channel,
      sampleChainRequest 1 "second" room' channel']).kept,
        p = sampleChainRequest 0 "first" room channel ∨
          p = sampleChainRequest 1 "second" room' channel' := by
    intro p hp
    obtain ⟨key, hmem⟩ := mem_objectValues.mp hp
    rcases List.mem_cons.mp hmem with heq | hmem
    · exact .inl (Prod.mk.inj heq).2
    · exact .inr (Prod.mk.inj (List.mem_singleton.mp hmem)).2
  intro p hp q hq href
  rcases hkept p hp with rfl | rfl <;> rcases hkept q hq with rfl | rfl
  · rfl
  · cases href
  · cases href
  · rfl

def sampleAsked (room publication channel : String) : Envelope :=
  ⟨"message", room, "chat", publication, "member", "webhook", 0, some (sampleAsk channel)⟩

theorem sampleAskMessage_ne : sampleAskMessage "a" "second" "b/c" ≠
    sampleAskMessage "a/b" "first" "c" := by
  decide +kernel

theorem sampleAskStep_first (w : World) : sampleAskStep w sampleFirst =
    some (if w.knows "first" then w
      else w.store (newRequest w 1000 (sampleAsked "a/b" "first" "c")
        (.roomPublication "a/b" "c" samplePublication) false)) := by
  have hverify : verifyWebhookSignature sampleAskHost ["secret"] (some "1000")
      (some ("v1=" ++ "10644850a582b5e84d297b552d20014baeeede18ecbc755a098cfc1a2be36115"))
        (sampleAskMessage "a/b" "first" "c") 1000 = true := by
    have hgiven : wordBytes 0x10644850a582b5e84d297b552d20014baeeede18ecbc755a098cfc1a2be36115 ∈
        List.filterMap signaturePart
          (("v1=" ++ "10644850a582b5e84d297b552d20014baeeede18ecbc755a098cfc1a2be36115").toList.splitOn ',') := by
      rw [String.toList_append, String.toList_ofList, String.toList_ofList, funext signaturePart_eq]
      decide +kernel
    refine verifyWebhookSignature_signed _ sampleTimestamp (by decide +kernel) hgiven ?_
    rw [sampleTimestamp_signed]
    simp only [sampleAskHost, if_true]
  have henvelope : parseEnvelope sampleAskHost (sampleAskMessage "a/b" "first" "c") =
      some (sampleAsked "a/b" "first" "c") := by
    have hparse : sampleAskHost.parseBody (sampleAskMessage "a/b" "first" "c") =
        some (sampleAskEnvelope "a/b" "first" "c") := by
      simp only [sampleAskHost, if_true]
    rw [parseEnvelope, hparse]
    decide +kernel
  have hrequest : parseRoomRequest (sampleAsked "a/b" "first" "c") samplePolicy sampleAskHost =
      .ok (.attest (.roomPublication "a/b" "c" samplePublication) false) := by
    decide +kernel
  exact step_deliver hverify henvelope hrequest w

theorem sampleAskStep_second (w : World) : sampleAskStep w sampleSecond =
    some (if w.knows "second" then w
      else w.store (newRequest w 1000 (sampleAsked "a" "second" "b/c")
        (.roomPublication "a" "b/c" samplePublication) false)) := by
  have hverify : verifyWebhookSignature sampleAskHost ["secret"] (some "1000")
      (some ("v1=" ++ "4f93f2f9139dca55937bf33cbe4bf90d8cabb2ee69a63e14f70182b4204e049f"))
        (sampleAskMessage "a" "second" "b/c") 1000 = true := by
    have hgiven : wordBytes 0x4f93f2f9139dca55937bf33cbe4bf90d8cabb2ee69a63e14f70182b4204e049f ∈
        List.filterMap signaturePart
          (("v1=" ++ "4f93f2f9139dca55937bf33cbe4bf90d8cabb2ee69a63e14f70182b4204e049f").toList.splitOn ',') := by
      rw [String.toList_append, String.toList_ofList, String.toList_ofList, funext signaturePart_eq]
      decide +kernel
    refine verifyWebhookSignature_signed _ sampleTimestamp (by decide +kernel) hgiven ?_
    rw [sampleTimestamp_signed]
    simp only [sampleAskHost, List.append_cancel_left_eq, sampleAskMessage_ne, if_false]
  have henvelope : parseEnvelope sampleAskHost (sampleAskMessage "a" "second" "b/c") =
      some (sampleAsked "a" "second" "b/c") := by
    have hparse : sampleAskHost.parseBody (sampleAskMessage "a" "second" "b/c") =
        some (sampleAskEnvelope "a" "second" "b/c") := by
      simp only [sampleAskHost, sampleAskMessage_ne, if_false, if_true]
    rw [parseEnvelope, hparse]
    decide +kernel
  have hrequest : parseRoomRequest (sampleAsked "a" "second" "b/c") samplePolicy sampleAskHost =
      .ok (.attest (.roomPublication "a" "b/c" samplePublication) false) := by
    decide +kernel
  exact step_deliver hverify henvelope hrequest w

theorem start_distinct : Distinct World.start :=
    ⟨fun _ hp => absurd hp not_kept_start, fun _ hp => absurd hp not_kept_start⟩

end Samples

/-- Two members ask about two publications: the first is counted as asked about and is not, in
either bridge. -/
theorem sample_swallowed :
    (∃ w, Run.after sampleAskStep World.start [sampleFirst, sampleSecond] = some w ∧ Distinct w ∧
      ¬ ∀ f, (pumpCre sampleAnswers w 1000).forwarded = w.forwarded ++ [f] →
        Promised sampleViem sampleAskHost ["secret"] samplePolicy sampleAnswers w 1000 f) ∧
    ∃ w, w = sampleChain [sampleChainRequest 0 "first" "a/b" "c",
      sampleChainRequest 1 "second" "a" "b/c"] ∧ w.Distinct ∧
      ¬ ∀ log w', (pumpContract ⟨1, 1, false⟩ ⟨2, 60⟩ 1000 w).Trace log (.ok w') →
        ∀ p ∈ w.kept, ∀ p' ∈ w'.kept,
        p'.ref = p.ref → p.forwardedAt = none → p'.forwardedAt ≠ none →
          Opens log p.attestation := by
  constructor
  · have hrun : (Run.after sampleAskStep World.start [sampleFirst, sampleSecond]).any (fun w =>
        ((sweep sampleAnswers w 1000).due sampleAnswers 1000).head?.any fun oldest =>
          (joined (asking oldest.publishOnchain
            ((sweep sampleAnswers w 1000).due sampleAnswers 1000))).map
            BridgeRequest.attestation = [.roomPublication "a/b" "c" samplePublication,
              .roomPublication "a" "b/c" samplePublication]) = true := by
      simp only [Run.after, List.foldlM_cons, sampleAskStep_first, sampleAskStep_second]
      decide +kernel
    obtain ⟨w, hw, hdue⟩ := (Option.any_eq_true _ _).mp hrun
    obtain ⟨oldest, holdest, hjoined⟩ := (Option.any_eq_true _ _).mp hdue
    have hdistinct : Distinct w :=
      Run.after_invariant (fun _ _ _ hv h => step_distinct hv h) start_distinct hw
    refine ⟨w, hw, hdistinct, fun h => ?_⟩
    have hapart := (pump_promised_iff hdistinct).mp h oldest holdest
    rw [of_decide_eq_true hjoined] at hapart
    have hsame :=
      hapart _ (List.mem_cons_self ..) _ (List.mem_cons_of_mem _ (List.mem_singleton_self _))
        (by decide +kernel)
    exact absurd hsame (by decide)
  · have hdistinct :
        (sampleChain [sampleChainRequest 0 "first" "a/b" "c",
          sampleChainRequest 1 "second" "a" "b/c"]).Distinct :=
      sampleChain_distinct "a/b" "c" "a" "b/c"
    refine ⟨_, rfl, hdistinct, fun h => ?_⟩
    have hapart := (pump_opened_iff hdistinct).mp h (by decide)
    have hwaiting : (waiting ⟨2, 60⟩ 1000 (sampleChain [sampleChainRequest 0 "first" "a/b" "c",
        sampleChainRequest 1 "second" "a" "b/c"])).map ChainRequest.attestation =
          [.roomPublication "a/b" "c" samplePublication,
            .roomPublication "a" "b/c" samplePublication] := by
      decide +kernel
    rw [hwaiting] at hapart
    have hsame :=
      hapart _ (List.mem_cons_self ..) _ (List.mem_cons_of_mem _ (List.mem_singleton_self _))
        (by decide +kernel)
    exact absurd hsame (by decide)

/-- Every request that a pump counts is asked about, in a batch as it is promised or by a request
of its own on the contract, whatever is answered, exactly where no two that the pump takes up have
one description and are not one. -/
theorem counted_asked_iff {viem : Viem} {host : Host} {secrets : List String}
    {policy : AttestationPolicy}
    {creAnswers : CreAnswers} {w : World} (hw : Distinct w) {deployment : Deployment}
    {contractAnswers : ContractAnswers}
    {v : ChainWorld} (hv : v.Distinct) (now : ℤ) :
    ((∀ f, (pumpCre creAnswers w now).forwarded = w.forwarded ++ [f] →
        Promised viem host secrets policy creAnswers w now f) ↔ DueApart creAnswers w now) ∧
      ((∀ log v', (pumpContract deployment contractAnswers now v).Trace log (.ok v') →
        ∀ p ∈ v.kept, ∀ p' ∈ v'.kept,
        p'.ref = p.ref → p.forwardedAt = none → p'.forwardedAt ≠ none → Opens log p.attestation) ↔
      (¬ now < v.nextRunAt →
        Apart ((waiting contractAnswers now v).map ChainRequest.attestation))) :=
  ⟨pump_promised_iff hw, pump_opened_iff hv⟩

/-- Two Rooms without such names. -/
theorem sample_asked : ∃ w, Run.after sampleAskStep World.start [sampleSecond] = some w ∧
    ((∀ f, (pumpCre sampleAnswers w 1000).forwarded = w.forwarded ++ [f] →
        Promised sampleViem sampleAskHost ["secret"] samplePolicy sampleAnswers w 1000 f) ↔
          DueApart sampleAnswers w 1000) ∧
    ∀ log v', (pumpContract ⟨1, 1, false⟩ ⟨2, 60⟩ 1000
        (sampleChain [sampleChainRequest 0 "first" "a" "c",
          sampleChainRequest 1 "second" "b" "c"])).Trace log (.ok v') →
      ∀ p ∈ (sampleChain [sampleChainRequest 0 "first" "a" "c",
        sampleChainRequest 1 "second" "b" "c"]).kept,
        ∀ p' ∈ v'.kept, p'.ref = p.ref → p.forwardedAt = none → p'.forwardedAt ≠ none →
          Opens log p.attestation := by
  have hrun : (Run.after sampleAskStep World.start [sampleSecond]).isSome = true := by
    simp only [Run.after, List.foldlM_cons, sampleAskStep_second]
    decide +kernel
  obtain ⟨w, hw⟩ := Option.isSome_iff_exists.mp hrun
  have hdistinct : Distinct w :=
    Run.after_invariant (fun _ _ _ hv h => step_distinct hv h) start_distinct hw
  obtain ⟨hpromised, hopened⟩ :=
    counted_asked_iff hdistinct (sampleChain_distinct "a" "c" "b" "c") 1000
  refine ⟨w, hw, hpromised, hopened.mpr fun _ => ?_⟩
  have hwaiting : (waiting ⟨2, 60⟩ 1000 (sampleChain [sampleChainRequest 0 "first" "a" "c",
      sampleChainRequest 1 "second" "b" "c"])).map ChainRequest.attestation =
        [.roomPublication "a" "c" samplePublication,
          .roomPublication "b" "c" samplePublication] := by
    decide +kernel
  rw [hwaiting]
  intro a ha b hb hsame
  have hboth : ∀ a ∈ [Attestation.roomPublication "a" "c" samplePublication,
      .roomPublication "b" "c" samplePublication],
      ∀ b ∈ [Attestation.roomPublication "a" "c" samplePublication,
        .roomPublication "b" "c" samplePublication],
        describe a = describe b → a = b := by
    decide +kernel
  exact hboth a ha b hb hsame

end Beam.Bridge
