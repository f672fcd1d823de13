import BeamSdk.Library.OrderedMap
import BeamSdk.Library.Run
import Mathlib.Data.List.Perm.Subperm

/-! Uploads to the Hugging Face Hub, which a client publishes with commits once their transfer is
complete. The Go and the TypeScript client do it alike: a call takes the transfer's uploads and
finalizes one after the other. -/

namespace Beam.HuggingFace

inductive Sdk
  | go
  | typescript
  deriving DecidableEq

/-- An absent link is empty; a chunk size is absent where the Hub issued a single-part upload. -/
structure HuggingFaceUploadState where
  destination : String
  destinationID : String
  chunkSize : Option ℕ
  partURLs : List String
  uploadHref : String
  verifyHref : String
  deriving DecidableEq

/-- Whether the Hub is told that the parts of an upload are complete. Go writes an absent chunk
size as 0. -/
def Sdk.multipart (state : HuggingFaceUploadState) : Sdk → Bool
  | .go => state.uploadHref ≠ "" ∧ 0 < state.chunkSize.getD 0
  | .typescript => state.uploadHref ≠ "" ∧ state.chunkSize ≠ none

/-- Where a call is: at the status requests of a wait, at its look-up, or at the requests for its
first upload. -/
inductive Phase
  | polling
  | taking
  | hashing (state : HuggingFaceUploadState) (rest : List HuggingFaceUploadState)
  | completing (state : HuggingFaceUploadState) (rest : List HuggingFaceUploadState)
  | verifying (state : HuggingFaceUploadState) (rest : List HuggingFaceUploadState)
  | committing (state : HuggingFaceUploadState) (rest : List HuggingFaceUploadState)
  | returned (outcome : Except String Unit)
  deriving DecidableEq

def Phase.remaining : Phase → Option (List HuggingFaceUploadState)
  | .hashing state rest | .completing state rest | .verifying state rest | .committing state rest =>
      some (state :: rest)
  | _ => none

structure Call where
  transferID : String
  phase : Phase
  -- the uploads that it looked up
  states : List HuggingFaceUploadState

structure Client where
  huggingFaceUploads : OrderedMap String (List HuggingFaceUploadState)
  calls : List Call
  -- uploads of a transfer for which a commit request has succeeded
  committed : List (String × HuggingFaceUploadState)

namespace Client
variable (sdk : Sdk) (c : Client)

def start (huggingFaceUploads : OrderedMap String (List HuggingFaceUploadState)) : Client :=
    ⟨huggingFaceUploads, [], []⟩

def setCall (k : ℕ) (call : Call) : Client := { c with calls := c.calls.set k call }

def states (transferID : String) : List HuggingFaceUploadState :=
    (c.huggingFaceUploads.get transferID).getD []

def take (transferID : String) : Client :=
  match sdk, c.states transferID with
  | .typescript, [] => c
  | _, _ => { c with huggingFaceUploads := c.huggingFaceUploads.delete transferID }

def commit (transferID : String) (state : HuggingFaceUploadState) : Client :=
  { c with committed := c.committed ++ [(transferID, state)] }

def afterCompletion (state : HuggingFaceUploadState) (rest : List HuggingFaceUploadState) : Phase :=
  if state.verifyHref ≠ "" then .verifying state rest else .committing state rest

def next : List HuggingFaceUploadState → Phase
  | [] => .returned (.ok ())
  | state :: rest => if sdk.multipart state then .hashing state rest else afterCompletion state rest

def hashed (state : HuggingFaceUploadState) (rest : List HuggingFaceUploadState) :
    Except String ℕ → Phase
  | .error error => .returned (.error error)
  | .ok etags =>
    if etags ≠ state.partURLs.length then
      .returned
        (.error s!"computed {etags} part ETags for {state.destination}, expected {state.partURLs.length}")
    else .completing state rest

/-- What a call goes on with: a status, the number of ETags computed, or the answer to a request. -/
inductive Input
  | status (status : String)
  | failed (error : String)
  | proceed
  | hashed (etags : Except String ℕ)
  | answered (answer : Except String Unit)

/-- One step of `FinalizeHuggingFaceUploads`, or of the wait before it. -/
def finalizeHuggingFaceUploads (k : ℕ) (call : Call) (input : Input) : Option Client :=
  match call.phase, input with
  -- a wait asks again until the transfer is over; it fails where the transfer did, and when its
  -- time is up
  | .polling, .status status =>
    if status = "completed" then some (c.setCall k { call with phase := .taking })
    else if status = "failed" ∨ status = "cancelled" then none
    else some c
  | .polling, .failed error => some (c.setCall k { call with phase := .returned (.error error) })
  | .taking, .proceed =>
    let states := c.states call.transferID
    some ((c.take sdk call.transferID).setCall k { call with
      phase := next sdk states, states := states })
  | .hashing state rest, .hashed etags =>
      some (c.setCall k { call with phase := hashed state rest etags })
  | .completing state rest, .answered (.ok ()) =>
      some (c.setCall k { call with phase := afterCompletion state rest })
  | .verifying state rest, .answered (.ok ()) =>
      some (c.setCall k { call with phase := .committing state rest })
  | .committing state rest, .answered (.ok ()) =>
    some ((c.commit call.transferID state).setCall k { call with phase := next sdk rest })
  | .completing _ _, .answered (.error error) | .verifying _ _, .answered (.error error)
  | .committing _ _, .answered (.error error) =>
      some (c.setCall k { call with phase := .returned (.error error) })
  | _, _ => none

inductive Step
  | finalizeHuggingFaceUploads (transferID : String)
  | waitForTransfer (transferID : String)
  | call (k : ℕ) (input : Input)

def addCall (transferID : String) (phase : Phase) : Client :=
    { c with calls := c.calls ++ [⟨transferID, phase, []⟩] }

def step : Step → Option Client
  | .finalizeHuggingFaceUploads transferID => some (c.addCall transferID .taking)
  | .waitForTransfer transferID => some (c.addCall transferID .polling)
  | .call k input => (c.calls[k]?).bind fun call => c.finalizeHuggingFaceUploads sdk k call input

variable {sdk} {c} {c' : Client} {k : ℕ} {call : Call} {i : Step} {transferID : String}
  {state : HuggingFaceUploadState} {rest : List HuggingFaceUploadState}
  {registered : OrderedMap String (List HuggingFaceUploadState)}

def committedFor (c : Client) (transferID : String) : List HuggingFaceUploadState :=
  (c.committed.filter (·.1 = transferID)).map Prod.snd

def Published (registered : OrderedMap String (List HuggingFaceUploadState)) (c : Client)
    (transferID : String) : Prop :=
  ((registered.get transferID).getD []).Subperm (c.committedFor transferID)

def Truthful (registered : OrderedMap String (List HuggingFaceUploadState)) (c : Client) : Prop :=
  ∀ call ∈ c.calls, call.phase = .returned (.ok ()) → Published registered c call.transferID

/-- A call looks its transfer up when another has taken the uploads and has not returned with
success. -/
def LooksUpTaken (c : Client) (i : Step) : Prop :=
  ∃ k call, i = .call k .proceed ∧ c.calls[k]? = some call ∧ call.phase = .taking ∧
    ∃ other ∈ c.calls, other.transferID = call.transferID ∧ other.states ≠ [] ∧
      other.phase ≠ .returned (.ok ())

structure Leaves (phase : Phase) (left : List HuggingFaceUploadState) : Prop where
  begun : phase ≠ .polling ∧ phase ≠ .taking
  working : ∀ states, phase.remaining = some states → left = states
  done : left = [] ↔ phase = .returned (.ok ())

/-- A call that took what was registered: its commits are all that there are, in order, up to what
it has left. -/
structure Taker (registered : OrderedMap String (List HuggingFaceUploadState)) (c : Client)
    (call : Call)
    (left : List HuggingFaceUploadState) : Prop where
  registered : registered.get call.transferID = some call.states
  gone : c.huggingFaceUploads.get call.transferID = none
  committed : c.committedFor call.transferID ++ left = call.states
  leaves : Leaves call.phase left

structure Sound (registered : OrderedMap String (List HuggingFaceUploadState))
    (c : Client) : Prop where
  uploads : ∀ transferID states, c.huggingFaceUploads.get transferID = some states →
    registered.get transferID = some states ∧ c.committedFor transferID = []
  kept : ∀ transferID first rest, registered.get transferID = some (first :: rest) →
    c.huggingFaceUploads.get transferID = some (first :: rest) ∨
      ∃ call ∈ c.calls, call.transferID = transferID ∧ call.states ≠ []
  idle : ∀ call ∈ c.calls, call.states = [] → call.phase.remaining = none
  takers : ∀ call ∈ c.calls, call.states ≠ [] → ∃ left, Taker registered c call left
  single : ∀ (k k' : ℕ) (call call' : Call), c.calls[k]? = some call → c.calls[k']? = some call' →
    call.transferID = call'.transferID → call.states ≠ [] → call'.states ≠ [] → k = k'

theorem remaining_afterCompletion : (afterCompletion state rest).remaining =
    some (state :: rest) := by
  unfold afterCompletion
  split <;> rfl

theorem remaining_next (sdk : Sdk) (state : HuggingFaceUploadState)
    (rest : List HuggingFaceUploadState) :
    (next sdk (state :: rest)).remaining = some (state :: rest) := by
  rw [next]
  split
  · rfl
  · exact remaining_afterCompletion

theorem committedFor_commit (state : HuggingFaceUploadState) :
    (c.commit transferID state).committedFor transferID = c.committedFor transferID ++ [state] := by
  simp [committedFor, commit, List.filter_append]

theorem committedFor_commit_of_ne {other : String} (h : transferID ≠ other)
    (state : HuggingFaceUploadState) :
    (c.commit transferID state).committedFor other = c.committedFor other := by
  simp [committedFor, commit, List.filter_append, h]

theorem setCall_getElem? {call' other : Call} {j : ℕ}
    (h : (c.setCall k call').calls[j]? = some other) :
    (j = k ∧ other = call') ∨ (j ≠ k ∧ c.calls[j]? = some other) := by
  rw [setCall, List.getElem?_set] at h
  split at h
  · rename_i heq
    split at h
    · exact .inl ⟨heq.symm, (Option.some.inj h).symm⟩
    · cases h
  · rename_i hne
    exact .inr ⟨Ne.symm hne, h⟩

theorem mem_setCall {call' other : Call} (h : other ∈ (c.setCall k call').calls) :
    other = call' ∨ ∃ j, j ≠ k ∧ c.calls[j]? = some other := by
  obtain ⟨j, hj⟩ := List.getElem?_of_mem h
  exact (setCall_getElem? hj).imp And.right fun h => ⟨j, h⟩

theorem setCall_mem {call' : Call} (hcall : c.calls[k]? = some call) :
    call' ∈ (c.setCall k call').calls :=
  List.mem_set (List.getElem?_eq_some_iff.mp hcall).1 call'

variable {d : Client} {call' : Call} {phase : Phase} {left : List HuggingFaceUploadState}

theorem Taker.of_eq (h : Taker registered c call left)
    (hgone : c.huggingFaceUploads.get call.transferID = none →
    d.huggingFaceUploads.get call.transferID = none)
      (hcommitted : d.committedFor call.transferID = c.committedFor call.transferID) :
    Taker registered d call left :=
  ⟨h.registered, hgone h.gone, by rw [hcommitted, h.committed], h.leaves⟩

/-- A call goes on with what it has looked up, and touches the uploads and the commits of no other.
-/
structure Goes (registered : OrderedMap String (List HuggingFaceUploadState)) (c : Client)
    (call : Call) (d : Client)
    (call' : Call) : Prop where
  transferID : call'.transferID = call.transferID
  states : call'.states = call.states
  calls : d.calls = c.calls
  uploads : ∀ transferID, d.huggingFaceUploads.get transferID =
    c.huggingFaceUploads.get transferID ∨
    (c.states transferID = [] ∧ d.huggingFaceUploads.get transferID = none)
  committed : ∀ transferID, (transferID = call.transferID → call.states = []) →
    d.committedFor transferID = c.committedFor transferID
  idle : call.states = [] → call'.phase.remaining = none
  taker : call.states ≠ [] → ∃ left, Taker registered d call' left

theorem Goes.get_none (h : Goes registered c call d call') {id : String}
    (hnone : c.huggingFaceUploads.get id = none) :
    d.huggingFaceUploads.get id = none :=
  (h.uploads id).elim (fun heq => heq.trans hnone) And.right

theorem Goes.get_some (h : Goes registered c call d call') {id : String}
    {states : List HuggingFaceUploadState}
    (hsome : d.huggingFaceUploads.get id = some states) :
      c.huggingFaceUploads.get id = some states := by
  rcases h.uploads id with heq | ⟨-, hnone⟩
  · exact heq.symm.trans hsome
  · cases hnone.symm.trans hsome

theorem Goes.sound (h : Goes registered c call d call') (hsound : Sound registered c)
    (hcall : c.calls[k]? = some call) :
    Sound registered (d.setCall k call') := by
  have hmember := List.mem_of_getElem? hcall
  have hcalls : ∀ {j : ℕ} {other : Call}, (d.setCall k call').calls[j]? = some other →
      (j = k ∧ other = call') ∨ (j ≠ k ∧ c.calls[j]? = some other) := by
    intro j other hother
    have hset := setCall_getElem? hother
    rwa [h.calls] at hset
  refine ⟨fun id states hget => ?_, fun id first rest hregistered => ?_,
    fun other hother hnone => ?_, fun other hother hsome => ?_,
    fun j j' other other' hother hother' hid hsome hsome' => ?_⟩
  · obtain ⟨hregistered, hnone⟩ := hsound.uploads id states (h.get_some hget)
    refine ⟨hregistered, (h.committed id fun heq => ?_).trans hnone⟩
    by_contra hsome
    obtain ⟨left, htaker⟩ := hsound.takers call hmember hsome
    cases htaker.gone.symm.trans (heq ▸ h.get_some hget)
  · rcases hsound.kept id first rest hregistered with hget | ⟨other, hother, hid, hsome⟩
    · refine .inl ((h.uploads id).elim (fun heq => heq.trans hget) fun hlost => ?_)
      have hstates := hlost.1
      rw [Client.states, hget] at hstates
      cases hstates
    · obtain ⟨j, hj⟩ := List.getElem?_of_mem hother
      by_cases hjk : j = k
      · obtain rfl := Option.some.inj (hcall.symm.trans (hjk ▸ hj))
        exact .inr ⟨call', setCall_mem (h.calls.symm ▸ hcall), h.transferID.trans hid,
          h.states ▸ hsome⟩
      · refine .inr ⟨other, List.mem_of_getElem? (i := j) ?_, hid, hsome⟩
        rw [setCall, List.getElem?_set_ne (Ne.symm hjk), h.calls]
        exact hj
  · obtain ⟨j, hj⟩ := List.getElem?_of_mem hother
    rcases hcalls hj with ⟨-, rfl⟩ | ⟨-, hj⟩
    · exact h.idle (h.states ▸ hnone)
    · exact hsound.idle other (List.mem_of_getElem? hj) hnone
  · obtain ⟨j, hj⟩ := List.getElem?_of_mem hother
    rcases hcalls hj with ⟨-, rfl⟩ | ⟨hjk, hj⟩
    · obtain ⟨left, htaker⟩ := h.taker (h.states ▸ hsome)
      exact ⟨left, htaker.of_eq id rfl⟩
    · obtain ⟨left, htaker⟩ := hsound.takers other (List.mem_of_getElem? hj) hsome
      refine ⟨left, htaker.of_eq h.get_none (h.committed _ fun hid => ?_)⟩
      by_contra htook
      exact hjk (hsound.single j k other call hj hcall hid hsome htook)
  · rcases hcalls hother with ⟨rfl, rfl⟩ | ⟨-, hj⟩ <;> rcases hcalls hother' with
      ⟨rfl, rfl⟩ | ⟨-, hj'⟩
    · rfl
    · exact hsound.single _ _ call other' hcall hj' (h.transferID ▸ hid) (h.states ▸ hsome) hsome'
    · exact hsound.single _ _ other call hj hcall (h.transferID ▸ hid) hsome (h.states ▸ hsome')
    · exact hsound.single _ _ other other' hj hj' hid hsome hsome'

theorem setCall_truthful (hcalls : d.calls = c.calls) (htruthful : Truthful registered c)
    (hcall : c.calls[k]? = some call)
    (hgrows : ∀ id, (c.committedFor id).Subperm (d.committedFor id)) :
    Truthful registered (d.setCall k call') ↔
      (call'.phase = .returned (.ok ()) → Published registered d call'.transferID) := by
  constructor
  · intro h hphase
    exact h call' (setCall_mem (hcalls.symm ▸ hcall)) hphase
  · intro h other hother hphase
    rcases mem_setCall hother with rfl | ⟨j, -, hj⟩
    · exact h hphase
    · exact List.Subperm.trans (htruthful other (List.mem_of_getElem? (hcalls ▸ hj)) hphase)
        (hgrows _)

theorem leaves_of_remaining (h : phase.remaining = some (state :: rest)) :
    Leaves phase (state :: rest) := by
  refine ⟨⟨?_, ?_⟩, fun states hstates => Option.some.inj (h.symm.trans hstates), nofun, ?_⟩ <;>
    rintro rfl <;> cases h

theorem leaves_error (hleft : left ≠ []) (error : String) :
    Leaves (.returned (.error error)) left :=
  ⟨⟨nofun, nofun⟩, nofun, fun h => absurd h hleft, nofun⟩

theorem leaves_next (sdk : Sdk) (states : List HuggingFaceUploadState) :
    Leaves (next sdk states) states := by
  cases states with
  | nil => exact ⟨⟨nofun, nofun⟩, nofun, fun _ => rfl, fun _ => rfl⟩
  | cons state rest => exact leaves_of_remaining (remaining_next sdk state rest)

theorem working_goes (hsound : Sound registered c) (hcall : c.calls[k]? = some call)
    (hremaining : call.phase.remaining = some (state :: rest))
    (hd : (d = c ∧ left = state :: rest) ∨ (d = c.commit call.transferID state ∧ left = rest))
    (hleaves : Leaves phase left) :
    Goes registered c call d { call with phase := phase } ∧
      (phase = .returned (.ok ()) → Published registered d call.transferID) := by
  have hmember := List.mem_of_getElem? hcall
  have htook : call.states ≠ [] := by
    intro hnone
    cases hremaining.symm.trans (hsound.idle call hmember hnone)
  obtain ⟨before, htaker⟩ := hsound.takers call hmember htook
  obtain rfl := htaker.leaves.working _ hremaining
  have hcommitted : d.committedFor call.transferID ++ left = call.states := by
    rw [← htaker.committed]
    rcases hd with ⟨rfl, rfl⟩ | ⟨rfl, rfl⟩
    · rfl
    · rw [committedFor_commit, List.append_assoc, List.singleton_append]
  have huploads : d.huggingFaceUploads = c.huggingFaceUploads := by
    rcases hd with ⟨rfl, -⟩ | ⟨rfl, -⟩ <;> rfl
  have htaker' : Taker registered d { call with phase := phase } left :=
    ⟨htaker.registered, huploads ▸ htaker.gone, hcommitted, hleaves⟩
  refine ⟨⟨rfl, rfl, ?_, fun id => .inl (huploads ▸ rfl), fun id hid => ?_, fun hnone =>
    absurd hnone htook,
    fun _ => ⟨left, htaker'⟩⟩, fun hphase => ?_⟩
  · rcases hd with ⟨rfl, -⟩ | ⟨rfl, -⟩ <;> rfl
  · rcases hd with ⟨rfl, -⟩ | ⟨rfl, -⟩
    · rfl
    · exact committedFor_commit_of_ne (fun heq => htook (hid heq.symm)) state
  · obtain rfl := hleaves.done.mpr hphase
    rw [Published, htaker.registered, Option.getD_some, ← hcommitted, List.append_nil]

theorem idle_goes (hnone : call.states = []) (hphase : phase.remaining = none)
    (huploads : ∀ id, d.huggingFaceUploads.get id = c.huggingFaceUploads.get id ∨
      (c.states id = [] ∧ d.huggingFaceUploads.get id = none)) (hcalls : d.calls = c.calls)
    (hcommitted : d.committed = c.committed) :
    Goes registered c call d { call with phase := phase } :=
  ⟨rfl, rfl, hcalls, huploads, fun id _ =>
    by rw [committedFor, committedFor, hcommitted], fun _ => hphase,
    fun hsome => absurd hnone hsome⟩

theorem Sound.states_nil (hsound : Sound registered c) (hcall : c.calls[k]? = some call)
    (hphase : call.phase = .polling ∨ call.phase = .taking) : call.states = [] := by
  by_contra hsome
  obtain ⟨left, htaker⟩ := hsound.takers call (List.mem_of_getElem? hcall) hsome
  exact hphase.elim htaker.leaves.begun.1 htaker.leaves.begun.2

theorem take_calls : (c.take sdk transferID).calls = c.calls := by
  unfold take
  split <;> rfl

theorem take_committed : (c.take sdk transferID).committed = c.committed := by
  unfold take
  split <;> rfl

theorem take_nothing (h : c.states transferID = []) (id : String) :
    (c.take sdk transferID).huggingFaceUploads.get id = c.huggingFaceUploads.get id ∨
      (c.states id = [] ∧ (c.take sdk transferID).huggingFaceUploads.get id = none) := by
  unfold take
  split
  · exact .inl rfl
  · by_cases hid : id = transferID
    · subst hid
      exact .inr ⟨h, OrderedMap.get_delete_self _ _⟩
    · exact .inl (OrderedMap.get_delete_of_ne _ hid)

theorem take_uploads (h : c.states transferID ≠ []) :
    c.take sdk transferID =
      { c with huggingFaceUploads := c.huggingFaceUploads.delete transferID } := by
  unfold take
  split
  · contradiction
  · rfl

theorem taking_sound (hsound : Sound registered c) (hcall : c.calls[k]? = some call)
    (hnone : call.states = [])
    (hstates : c.states call.transferID = state :: rest) :
    Sound registered ((c.take sdk call.transferID).setCall k
      { call with phase := next sdk (state :: rest), states := state :: rest }) := by
  have hget : c.huggingFaceUploads.get call.transferID = some (state :: rest) := by
    unfold Client.states at hstates
    cases hget : c.huggingFaceUploads.get call.transferID with
    | none =>
      rw [hget] at hstates
      cases hstates
    | some states =>
      rw [hget, Option.getD_some] at hstates
      rw [hstates]
  rw [take_uploads (hstates ▸ List.cons_ne_nil _ _)]
  obtain ⟨hregistered, hcommitted⟩ := hsound.uploads _ _ hget
  -- nobody else has taken them
  have hfirst : ∀ other ∈ c.calls, other.transferID = call.transferID → other.states = [] := by
    intro other hother hid
    by_contra hsome
    obtain ⟨left, htaker⟩ := hsound.takers other hother hsome
    cases htaker.gone.symm.trans (hid.symm ▸ hget)
  refine ⟨fun id states h => ?_, fun id first rest' h => ?_,
    fun other hother hnil => ?_, fun other hother hsome => ?_,
    fun j j' other other' hother hother' hid hsome hsome' => ?_⟩
  · by_cases hid : id = call.transferID
    · subst hid
      cases (OrderedMap.get_delete_self _ _).symm.trans h
    · exact hsound.uploads id states ((OrderedMap.get_delete_of_ne _ hid).symm.trans h)
  · by_cases hid : id = call.transferID
    · exact .inr ⟨_, setCall_mem hcall, hid.symm, List.cons_ne_nil _ _⟩
    · rcases hsound.kept id first rest' h with hkept | ⟨other, hother, hother', hsome⟩
      · exact .inl ((OrderedMap.get_delete_of_ne _ hid).trans hkept)
      · obtain ⟨j, hj⟩ := List.getElem?_of_mem hother
        have hjk : k ≠ j := by
          rintro rfl
          obtain rfl := Option.some.inj (hcall.symm.trans hj)
          exact hsome hnone
        exact .inr ⟨other, List.mem_of_getElem? ((List.getElem?_set_ne hjk).trans hj),
          hother', hsome⟩
  · rcases mem_setCall hother with rfl | ⟨j, -, hj⟩
    · cases hnil
    · exact hsound.idle other (List.mem_of_getElem? hj) hnil
  · rcases mem_setCall hother with rfl | ⟨j, -, hj⟩
    · refine ⟨state :: rest, hregistered, OrderedMap.get_delete_self _ _, ?_,
        leaves_next sdk (state :: rest)⟩
      exact congrArg (· ++ state :: rest) hcommitted
    · obtain ⟨left, htaker⟩ := hsound.takers other (List.mem_of_getElem? hj) hsome
      refine ⟨left, htaker.of_eq (fun hgone => ?_) rfl⟩
      exact (OrderedMap.get_delete_of_ne _ fun hid =>
        hsome (hfirst other (List.mem_of_getElem? hj) hid)).trans hgone
  · rcases setCall_getElem? hother with ⟨rfl, rfl⟩ | ⟨-, hj⟩ <;>
      rcases setCall_getElem? hother' with ⟨rfl, rfl⟩ | ⟨-, hj'⟩
    · rfl
    · exact absurd (hfirst other' (List.mem_of_getElem? hj') hid.symm) hsome'
    · exact absurd (hfirst other (List.mem_of_getElem? hj) hid) hsome
    · exact hsound.single _ _ other other' hj hj' hid hsome hsome'

/-- A look-up is truthful unless another call has taken the uploads and has not returned with
success. -/
theorem taking_truthful (hsound : Sound registered c) (hcall : c.calls[k]? = some call)
    (hphase : call.phase = .taking) :
    (next sdk (c.states call.transferID) = .returned (.ok ()) →
      Published registered c call.transferID) ↔
      ¬ LooksUpTaken c (.call k .proceed) := by
  constructor
  · rintro h ⟨k', call', hi, hcall', -, other, hother, hid, hsome, hunfinished⟩
    cases hi
    obtain rfl := Option.some.inj (hcall.symm.trans hcall')
    obtain ⟨left, htaker⟩ := hsound.takers other hother hsome
    have hstates : c.states call.transferID = [] := by
      rw [Client.states, ← hid, htaker.gone, Option.getD_none]
    have hpublished := h (by rw [hstates, next])
    rw [Published, ← hid, htaker.registered, Option.getD_some, ← htaker.committed] at hpublished
    have hlength := hpublished.length_le
    rw [List.length_append] at hlength
    exact hunfinished (htaker.leaves.done.mp (List.length_eq_zero_iff.mp (by omega)))
  · intro hnever hreturned
    rw [Published]
    cases hget : registered.get call.transferID with
    | none => exact List.nil_subperm
    | some states =>
      cases states with
      | nil => exact List.nil_subperm
      | cons first rest =>
        rcases hsound.kept _ _ _ hget with hkept | ⟨other, hother, hid, hsome⟩
        · have hleaves := leaves_next sdk (c.states call.transferID)
          have hnil := hleaves.done.mpr hreturned
          rw [Client.states, hkept] at hnil
          cases hnil
        · obtain ⟨left, htaker⟩ := hsound.takers other hother hsome
          have hdone : other.phase = .returned (.ok ()) := by
            by_contra hunfinished
            exact hnever ⟨k, call, rfl, hcall, hphase, other, hother, hid, hsome, hunfinished⟩
          have hcommitted := htaker.committed
          rw [htaker.leaves.done.mpr hdone, List.append_nil, hid] at hcommitted
          have hregistered := htaker.registered
          rw [hid, hget] at hregistered
          rw [Option.some.inj hregistered, Option.getD_some, hcommitted]

theorem hashed_leaves (state : HuggingFaceUploadState) (rest : List HuggingFaceUploadState)
    (etags : Except String ℕ) :
    Leaves (hashed state rest etags) (state :: rest) := by
  cases etags with
  | error error => exact leaves_error (List.cons_ne_nil _ _) error
  | ok etags =>
    simp only [hashed]
    split
    · exact leaves_error (List.cons_ne_nil _ _) _
    · exact leaves_of_remaining rfl

theorem call_step {input : Input} (hsound : Sound registered c) (htruthful : Truthful registered c)
    (hcall : c.calls[k]? =
      some call) (h : c.finalizeHuggingFaceUploads sdk k call input = some c') :
    Sound registered c' ∧ (Truthful registered c' ↔ ¬ LooksUpTaken c (.call k input)) := by
  have hother : call.phase ≠ .taking → ¬ LooksUpTaken c (.call k input) := by
    rintro hne ⟨k', call', hi, hcall', hphase, -⟩
    cases hi
    obtain rfl := Option.some.inj (hcall.symm.trans hcall')
    exact hne hphase
  have hidle : ∀ {phase : Phase}, call.phase = .polling →
      phase.remaining = none → phase ≠ .returned (.ok ()) →
      Sound registered (c.setCall k { call with phase := phase }) ∧
        (Truthful registered (c.setCall k { call with phase := phase }) ↔ ¬ LooksUpTaken c
          (.call k input)) := by
    intro phase hpolling hremaining hok
    have hgoes : Goes registered c call c { call with phase := phase } :=
      idle_goes (hsound.states_nil hcall (.inl hpolling)) hremaining (fun _ => .inl rfl) rfl rfl
    refine ⟨hgoes.sound hsound hcall, fun _ => hother (hpolling ▸ nofun), fun _ => ?_⟩
    exact (setCall_truthful rfl htruthful hcall fun _ =>
      List.Subperm.refl _).mpr fun h => absurd h hok
  -- a call at its requests has committed all where it succeeds
  have hworking : ∀ {state : HuggingFaceUploadState}
      {rest left : List HuggingFaceUploadState} {d : Client} {phase : Phase},
      call.phase.remaining = some (state :: rest) →
      (d = c ∧ left = state :: rest) ∨
        (d = c.commit call.transferID state ∧ left = rest) → Leaves phase left →
      Sound registered (d.setCall k { call with phase := phase }) ∧
        (Truthful registered (d.setCall k { call with phase := phase }) ↔ ¬ LooksUpTaken c
          (.call k input)) := by
    intro state rest left d phase hremaining hd hleaves
    obtain ⟨hgoes, hpublished⟩ := working_goes hsound hcall hremaining hd hleaves
    refine ⟨hgoes.sound hsound hcall, fun _ => hother fun htaking => ?_, fun _ => ?_⟩
    · rw [htaking] at hremaining
      cases hremaining
    · refine (setCall_truthful hgoes.calls htruthful hcall fun id => ?_).mpr hpublished
      rcases hd with ⟨rfl, -⟩ | ⟨rfl, -⟩
      · exact List.Subperm.refl _
      · by_cases hid : call.transferID = id
        · subst hid
          rw [committedFor_commit]
          exact (List.sublist_append_left _ _).subperm
        · rw [committedFor_commit_of_ne hid]
  unfold finalizeHuggingFaceUploads at h
  split at h
  · rename_i hphase
    split at h
    · cases h
      exact hidle hphase rfl nofun
    · split at h
      · cases h
      · cases h
        exact ⟨hsound, fun _ => hother (hphase ▸ nofun), fun _ => htruthful⟩
  · rename_i hphase
    cases h
    exact hidle hphase rfl nofun
  · rename_i hphase
    cases h
    have hnone := hsound.states_nil hcall (.inr hphase)
    have hsame : ∀ id, (c.take sdk call.transferID).committedFor id =
        c.committedFor id := fun id => by
      rw [committedFor, committedFor, take_committed]
    refine ⟨?_,
      (setCall_truthful take_calls htruthful hcall fun id =>
        hsame id ▸ List.Subperm.refl _).trans ?_⟩
    · cases hstates : c.states call.transferID with
      | nil =>
        have hgoes :
            Goes registered c call (c.take sdk call.transferID)
              { call with phase := next sdk [] } :=
          idle_goes hnone rfl (take_nothing hstates) take_calls take_committed
        have hsound' := hgoes.sound hsound hcall
        rwa [hnone] at hsound'
      | cons state rest => exact taking_sound hsound hcall hnone hstates
    · rw [Published, hsame]
      exact taking_truthful hsound hcall hphase
  · rename_i hphase
    cases h
    exact hworking (hphase ▸ rfl) (.inl ⟨rfl, rfl⟩) (hashed_leaves _ _ _)
  · rename_i hphase
    cases h
    exact hworking (hphase ▸ rfl) (.inl ⟨rfl, rfl⟩) (leaves_of_remaining remaining_afterCompletion)
  · rename_i hphase
    cases h
    exact hworking (hphase ▸ rfl) (.inl ⟨rfl, rfl⟩) (leaves_of_remaining rfl)
  · rename_i hphase
    cases h
    exact hworking (hphase ▸ rfl) (.inr ⟨rfl, rfl⟩) (leaves_next sdk _)
  · rename_i hphase
    have hremaining := congrArg Phase.remaining hphase
    cases h
    exact hworking hremaining (.inl ⟨rfl, rfl⟩) (leaves_error (List.cons_ne_nil _ _) _)
  · rename_i hphase
    have hremaining := congrArg Phase.remaining hphase
    cases h
    exact hworking hremaining (.inl ⟨rfl, rfl⟩) (leaves_error (List.cons_ne_nil _ _) _)
  · rename_i hphase
    have hremaining := congrArg Phase.remaining hphase
    cases h
    exact hworking hremaining (.inl ⟨rfl, rfl⟩) (leaves_error (List.cons_ne_nil _ _) _)
  · cases h

theorem addCall_step {phase : Phase} (hphase : phase = .taking ∨ phase = .polling)
    (hsound : Sound registered c)
    (htruthful : Truthful registered c) :
    Sound registered (c.addCall transferID phase) ∧
      Truthful registered (c.addCall transferID phase) := by
  have hcalls : ∀ other ∈ (c.addCall transferID phase).calls, other ∈ c.calls ∨
      other = ⟨transferID, phase, []⟩ :=
    fun other hother => (List.mem_append.mp hother).imp_right List.mem_singleton.mp
  have hplace : ∀ (j : ℕ) (other : Call), (c.addCall transferID phase).calls[j]? = some other →
      other.states ≠ [] →
      c.calls[j]? = some other := by
    intro j other hother hsome
    rw [addCall, List.getElem?_append] at hother
    split at hother
    · exact hother
    · obtain rfl := List.mem_singleton.mp (List.mem_of_getElem? hother)
      exact absurd rfl hsome
  refine ⟨⟨hsound.uploads, fun id first rest h => ?_,
    fun other hother hnil => ?_, fun other hother hsome => ?_,
    fun j j' other other' hj hj' hid hsome hsome' => ?_⟩, fun other hother => ?_⟩
  · exact (hsound.kept id first rest h).imp_right fun ⟨other, hother, hid, hsome⟩ =>
      ⟨other, List.mem_append_left _ hother, hid, hsome⟩
  · rcases hcalls other hother with hold | rfl
    · exact hsound.idle other hold hnil
    · rcases hphase with rfl | rfl <;> rfl
  · rcases hcalls other hother with hold | rfl
    · obtain ⟨left, htaker⟩ := hsound.takers other hold hsome
      exact ⟨left, htaker.of_eq id rfl⟩
    · exact absurd rfl hsome
  · exact hsound.single j j' other other' (hplace j other hj hsome)
      (hplace j' other' hj' hsome') hid hsome hsome'
  · rcases hcalls other hother with hold | rfl
    · exact htruthful other hold
    · rcases hphase with rfl | rfl <;> nofun

theorem step_truthful (hsound : Sound registered c) (htruthful : Truthful registered c)
    (h : c.step sdk i = some c') : Sound registered c' ∧
      (Truthful registered c' ↔ ¬ LooksUpTaken c i) := by
  cases i with
  | finalizeHuggingFaceUploads transferID =>
    cases h
    obtain ⟨hsound', htruthful'⟩ := addCall_step (.inl rfl) hsound htruthful
    exact ⟨hsound', fun _ => nofun, fun _ => htruthful'⟩
  | waitForTransfer transferID =>
    cases h
    obtain ⟨hsound', htruthful'⟩ := addCall_step (.inr rfl) hsound htruthful
    exact ⟨hsound', fun _ => nofun, fun _ => htruthful'⟩
  | call k input =>
    obtain ⟨call, hcall, h⟩ := Option.bind_eq_some_iff.mp h
    exact call_step hsound htruthful hcall h

theorem start_sound (registered : OrderedMap String (List HuggingFaceUploadState)) :
    Sound registered (start registered) where
  uploads _ _ h := ⟨h, rfl⟩
  kept _ _ _ h := .inl h
  idle _ := nofun
  takers _ := nofun
  single _ _ _ _ := nofun

/-- All along a run, every call that has succeeded finds its transfer's uploads committed, if and
only if no call ever looks up uploads that another has taken while that has not returned with
success. -/
theorem truthful_iff {is : List Step} (h : Run.after (step sdk) (start registered) is = some c) :
    Run.Always (step sdk) (start registered) is (Truthful registered) ↔
      Run.Never (step sdk) (start registered) is LooksUpTaken :=
  Run.always_iff_never (I := Sound registered)
    (fun _ _ _ hsound htruthful h => step_truthful hsound htruthful h)
    (start_sound registered) nofun h

def sampleState : HuggingFaceUploadState :=
    ⟨"model org/repo@main/weights.bin", "destination", none, [], "", ""⟩

def sampleRegistered : OrderedMap String (List HuggingFaceUploadState) :=
    [("transfer", [sampleState])]

def sampleFails : List Step :=
  [.finalizeHuggingFaceUploads "transfer", .call 0 .proceed,
    .call 0 (.answered (.error "commit failed")),
    .waitForTransfer "transfer", .call 1 (.status "completed"), .call 1 .proceed]

instance : DecidablePred (Truthful registered) :=
    fun c => inferInstanceAs (Decidable (∀ call ∈ c.calls, _ → List.Subperm _ _))

/-- The wait succeeds, and nothing was committed. -/
theorem sample_unpublished :
    (∃ c, Run.after (step .go) (start sampleRegistered) sampleFails =
      some c ∧ ¬ Truthful sampleRegistered c) ∧
      ∃ c, Run.after (step .typescript) (start sampleRegistered) sampleFails = some c ∧
        ¬ Truthful sampleRegistered c := by
  exact ⟨⟨_, rfl, by decide⟩, _, rfl, by decide⟩

def samplePublishes : List Step :=
  [.finalizeHuggingFaceUploads "transfer", .call 0 .proceed, .call 0 (.answered (.ok ())),
    .waitForTransfer "transfer",
    .call 1 (.status "completed"), .call 1 .proceed]

theorem sample_published : Run.Never (step .go)
    (start sampleRegistered) samplePublishes LooksUpTaken := by
  obtain ⟨c, hc⟩ : ∃ c, Run.after (step .go) (start sampleRegistered) samplePublishes =
      some c := ⟨_, rfl⟩
  exact (truthful_iff hc).mp (Run.always_of_check (by decide))

end Client
end Beam.HuggingFace
