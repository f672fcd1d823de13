import Mathlib.Algebra.Order.BigOperators.Group.List
import Mathlib.Algebra.Order.Monoid.Prod
import BeamSdk.Contract.Guarantees
import BeamSdk.Contract.Paging
import BeamSdk.Library.Spending
import BeamSdk.Workflow.Handlers

/-! What one execution of the workflow may spend: HTTP requests, reports, and the entries of a
report. -/

namespace Beam.Workflow
open Contract (Bytes Hashes)
open Relay
  (DeploymentRoutes JobSubject Observation OpenRequest ReportEntry RoomRequestSubject Subject
    SubjectKey Thrown
  entriesOf subjectKey)

def HTTP_LIMIT : ℕ := 15

def Call.isHttp : Call → Bool
  | .observeTransfer _ | .observeRoomReceipt _ | .observeClientId _ | .observePublicationByKey _ |
      .deliverReport _ _ => true
  | _ => false

def Call.isWrite : Call → Bool
  | .writeReport _ _ _ _ => true
  | _ => false

def Call.entries : Call → List ReportEntry
  | .writeReport _ _ _ body => entriesOf body
  | _ => []

/-- An open request as it is decoded, `text` being the decoding of a `string`. -/
def openRequestOf (text : Bytes → String) (request : Contract.OpenRequest) : OpenRequest where
  key := request.key
  kind := request.kind.code
  transferKind := request.transferKind.code
  requester := request.requester
  openedAt := request.openedAt
  requestId := request.requestId
  transferId := request.transferId
  room := text request.room
  channel := text request.channel
  publication := text request.publication

def PagesOf (text : Bytes → String) : (c : Call) → c.Answer → Prop
  | .openRequests _ _ offset limit, answer => ∀ page, answer = some page →
    ∃ s : Contract.State, page = (s.openRequestsPage offset.toNat limit.toNat).map
      (openRequestOf text)
  | _, _ => True

/-- Any answer but for the pages, and any exception that is none of the workflow's own. -/
def Environment (text : Bytes → String) (c : Call) : Except Failure c.Answer → Prop
  | .ok answer => PagesOf text c answer
  | .error e => ∃ message, e = .thrown message

def price (c : Call) : ℕ × ℕ := (if c.isHttp then 1 else 0, if c.isWrite then 1 else 0)

/-- A program that makes so many HTTP requests and writes so many reports at most, none of more than
`MAX_SUBJECTS` entries, and never fails with `tooManyLookups`. -/
def Spent {α : Type} (text : Bytes → String) (P : α → Prop) (p : Program α)
    (http writes : ℕ) : Prop :=
  p.Spends (Environment text) price (fun c => c.entries.length ≤ MAX_SUBJECTS)
    (· ≠ .tooManyLookups) P (http, writes)

section Rules
variable {text : Bytes → String} {α β γ : Type} {P Q : α → Prop} {p : Program α}
    {http http' writes writes' : ℕ}

theorem Spent.mono (h : Spent text P p http writes) (hhttp : http ≤ http')
    (hwrites : writes ≤ writes')
    (hP : ∀ a, P a → Q a) : Spent text Q p http' writes' :=
  Script.Spends.mono h ⟨hhttp, hwrites⟩ hP

theorem Spent.bind {R : β → Prop} {f : α → Program β} (h : Spent text P p http writes)
    (hf : ∀ a, P a → Spent text R (f a) http' writes') :
      Spent text R (p >>= f) (http + http') (writes + writes') :=
  Script.Spends.bind h hf

theorem Spent.after {R : β → Prop} {f : α → Program β} (h : Spent text P p 0 0)
    (hf : ∀ a, P a → Spent text R (f a) http writes) : Spent text R (p >>= f) http writes := by
  have hbind := Spent.bind h hf
  rwa [Nat.zero_add, Nat.zero_add] at hbind

theorem Spent.afterOne {R : β → Prop} {f : α → Program β} (h : Spent text P p 1 0)
    (hf : ∀ a, P a → Spent text R (f a) http writes) : Spent text R (p >>= f)
    (http + 1) writes := by
  have hbind := Spent.bind h hf
  rwa [Nat.add_comm 1 http, Nat.zero_add] at hbind

theorem Spent.thenWrite {R : β → Prop} {f : α → Program β} (h : Spent text P p http 0)
    (hf : ∀ a, P a → Spent text R (f a) 0 writes) : Spent text R (p >>= f) http writes := by
  have hbind := Spent.bind h hf
  rwa [Nat.add_zero, Nat.zero_add] at hbind

theorem Spent.pure {a : α} (h : P a) : Spent text P (Pure.pure a : Program α) http writes := h

theorem Spent.fail {e : Failure} (h : e ≠ .tooManyLookups) : Spent text P (.fail e) http writes := h

theorem Spent.ask {c : Call} {P : c.Answer → Prop} (h : c.entries.length ≤ MAX_SUBJECTS)
    (hP : ∀ answer, PagesOf text c answer → P answer) :
    Spent text P (Workflow.io c) (if c.isHttp then 1 else 0) (if c.isWrite then 1 else 0) := by
  apply Script.Spends.io
  · exact h
  · exact hP
  · rintro e ⟨message, rfl⟩
    exact nofun

theorem Spent.io {c : Call} (h : c.entries = []) :
    Spent text (fun _ => True) (io c) (if c.isHttp then 1 else 0) (if c.isWrite then 1 else 0) := by
  have hlength : c.entries.length ≤ MAX_SUBJECTS := by
    rw [h]
    exact Nat.zero_le _
  exact Spent.ask hlength fun _ _ => trivial

theorem Spent.throwing {x : Except Thrown α} (h : ∀ a, x = .ok a → P a) :
    Spent text P (throwing x) http writes := by
  apply Script.Spends.ofExcept
  · intro a ha
    cases x with
    | ok b =>
      cases ha
      exact h _ rfl
    | error e => cases ha
  · intro e he
    cases x with
    | ok b => cases he
    | error e =>
      cases he
      exact nofun

theorem Spent.throwing_any (x : Except Thrown α) : Spent text (fun _ => True)
    (Workflow.throwing x) http writes :=
  Spent.throwing fun _ _ => trivial

theorem Spent.foldlM {f : α → γ → Program α} {xs : List γ} {cost : γ → ℕ} {size : α → ℕ} {a : α}
    (hf : ∀ x ∈ xs, ∀ b, Spent text (fun b' => size b' ≤ size b + cost x) (f b x) (cost x) 0) :
    Spent text (fun b => size b ≤ size a + (xs.map cost).sum) (xs.foldlM f a)
      (xs.map cost).sum 0 := by
  have hsum : (xs.map fun x => ((cost x, 0) : ℕ × ℕ)).sum = ((xs.map cost).sum, 0) := by
    induction xs with
    | nil => rfl
    | cons x xs ih =>
      rw [List.map_cons, List.sum_cons, ih fun y hy => hf y (List.mem_cons_of_mem _ hy)]
      rfl
  have h : (xs.foldlM f a).Spends (Environment text) price
      (fun c => c.entries.length ≤ MAX_SUBJECTS)
      (· ≠ .tooManyLookups) (fun b => size b ≤ size a + (xs.map cost).sum)
        (xs.map fun x => ((cost x, 0) : ℕ × ℕ)).sum :=
    Script.Spends.foldlM hf
  rwa [hsum] at h

end Rules

section Programs
variable {text : Bytes → String} {H : Hashes} {config : Config} {credentials : Credentials}
    {entries : List ReportEntry}

theorem evmClientFor_spent (name : String) : Spent text (fun _ => True)
    (evmClientFor name) 0 0 := by
  refine (Spent.io rfl).after fun chain _ => ?_
  cases chain with
  | some chain => exact Spent.pure trivial
  | none => exact Spent.fail nofun

theorem secretOf_spent (secrets : OrderedMap String String) (id : String) :
    Spent text (fun _ => True) (secretOf secrets id) 0 0 := by
  unfold secretOf
  cases secrets.get id with
  | some value => exact Spent.pure trivial
  | none => exact Spent.fail nofun

theorem credentialsFor_spent (needsRoom : Bool) : Spent text (fun _ => True)
    (credentialsFor needsRoom) 0 0 := by
  refine (Spent.io rfl).after fun secrets _ => (secretOf_spent secrets _).after fun apiKey _ => ?_
  have horganization : Spent text (fun _ => True)
      (if needsRoom then secretOf secrets ORG_ID_SECRET else pure "") 0 0 := by
    split_ifs
    · exact secretOf_spent secrets _
    · exact Spent.pure trivial
  exact horganization.after fun organizationId _ => Spent.pure trivial

theorem length_entriesOf (entries : List ReportEntry) :
    (entriesOf (encodeEntries entries)).length = entries.length := by
  induction entries with
  | nil => rfl
  | cons entry entries ih =>
    simp only [entriesOf, encodeEntries, List.length_append, List.length_map] at ih ⊢
    cases entry <;> simp only [List.filterMap_cons, List.length_cons] <;> omega

theorem writeReceiptReport_spent (h : entries.length ≤ MAX_SUBJECTS) :
    Spent text (fun _ => True) (writeReceiptReport config (encodeEntries entries)) 0 1 := by
  refine (Spent.io rfl).after fun _ _ => (evmClientFor_spent _).after fun chain _ => ?_
  have hwrite : Spent text (fun _ => True)
      (io (.writeReport chain config.evm.receiptsAddress config.evm.gasLimit
        (encodeEntries entries))) 0 1 :=
    Spent.ask ((length_entriesOf entries).trans_le h) fun _ _ => trivial
  refine Spent.bind hwrite fun reply _ => (?_ : Spent text _ _ 0 0)
  split_ifs
  · exact Spent.fail nofun
  · exact Spent.fail nofun
  · exact Spent.pure trivial

theorem confirmClientId_spent : Spent text (fun _ => True)
    (confirmClientId config credentials) 1 0 :=
  Spent.afterOne (Spent.io rfl) fun _ _ => Spent.pure trivial

theorem observeSubject_spent (subject : Subject) :
    Spent text (fun _ => True) (observeSubject config credentials subject) 1 0 := by
  cases subject with
  | transfer subject => exact Spent.io rfl
  | room subject => exact Spent.io rfl
  | roomRequest subject => exact Spent.fail nofun
  | job subject => exact Spent.fail nofun

theorem lookUp_spent (lookup : RoomRequestSubject) :
    Spent text (fun _ => True) (lookUp config credentials lookup) 1 0 := by
  exact (Spent.throwing_any _).after fun key _ => Spent.io rfl

theorem recordObserved_spent (subject : Subject) :
    Spent text (fun added => added.length ≤ entries.length + 1)
      (recordObserved H config credentials entries subject) 1 0 := by
  refine (observeSubject_spent subject).afterOne fun observation _ =>
    (Spent.throwing_any _).after fun entry _ => ?_
  refine Spent.pure ?_
  rw [List.length_append]
  cases entry <;> simp

theorem recordRoomRequest_spent (subject : RoomRequestSubject) :
    Spent text (fun added => added.length ≤ entries.length + 2)
      (recordRoomRequest H config credentials entries subject) 2 0 := by
  refine (lookUp_spent subject).afterOne fun lookup _ => ?_
  cases Relay.roomSubjectForLookup subject lookup with
  | some found =>
      exact (recordObserved_spent _).mono (le_refl 1) (le_refl 0) fun _ h => h.trans (by omega)
  | none => exact Spent.pure (Nat.le_add_right _ 2)

theorem length_jobEntriesFor {subject : JobSubject} {inputPublication outputPublication : String}
    {inputObservation outputObservation : Observation} {levels : Relay.ReceiptLevels}
    {jobEntries : List ReportEntry}
    (h : Relay.jobEntriesFor H subject inputPublication outputPublication inputObservation
      outputObservation levels =
      .ok (some jobEntries)) : jobEntries.length = 3 := by
  obtain ⟨inputEntry, _, h⟩ := bind_eq_ok.mp h
  obtain ⟨outputEntry, _, h⟩ := bind_eq_ok.mp h
  split at h
  · cases h
    rfl
  · cases h

theorem recordJob_spent (subject : JobSubject) :
    Spent text (fun added => added.length ≤ entries.length + 4)
      (recordJob H config credentials entries subject) 4 0 := by
  refine (lookUp_spent _).afterOne fun input _ => ?_
  have hnothing (http : ℕ) : Spent text (fun added => added.length ≤ entries.length + 4)
      (pure entries) http 0 :=
    Spent.pure (Nat.le_add_right _ 4)
  cases input with
  | found inputPublication =>
    refine (lookUp_spent _).afterOne fun output _ => ?_
    cases output with
    | found outputPublication =>
      refine (observeSubject_spent _).afterOne fun inputObservation _ => ?_
      refine (observeSubject_spent _).afterOne fun outputObservation _ => ?_
      refine (Spent.throwing fun jobEntries hjob => hjob).after fun jobEntries hjob => Spent.pure ?_
      rw [List.length_append]
      cases jobEntries with
      | some jobEntries =>
        have hlength := length_jobEntriesFor hjob
        rw [Option.getD_some]
        omega
      | none => exact Nat.le_add_right _ 4
    | absent | error | invalid | unavailable => exact hnothing 2
  | absent | error | invalid | unavailable => exact hnothing 3

theorem recordSubject_spent (clientIdConfirmed : Bool) (subject : Subject) :
    Spent text (fun added => added.length ≤ entries.length + subjectCost subject)
      (recordSubject H config credentials clientIdConfirmed entries subject)
        (subjectCost subject) 0 := by
  cases subject with
  | transfer subject =>
    rw [recordSubject]
    split_ifs
    · exact Spent.pure (Nat.le_add_right _ _)
    · exact recordObserved_spent _
  | room subject => exact recordObserved_spent _
  | roomRequest subject => exact recordRoomRequest_spent subject
  | job subject => exact recordJob_spent subject

theorem recordReceipts_spent {requested : List Subject} {source : String}
    (hcost : ((uniqueSubjects requested).map subjectCost).sum ≤ MAX_SUBJECTS) :
    Spent text (fun _ => True) (recordReceipts H config requested source) (MAX_SUBJECTS + 1) 1 := by
  unfold recordReceipts
  simp only
  rw [if_neg (by omega)]
  refine (credentialsFor_spent _).after fun credentials _ => ?_
  have hconfirm : Spent text (fun _ => True)
      (if (uniqueSubjects requested).any derivesIds then confirmClientId config credentials
        else pure false) 1 0 := by
    split_ifs
    · exact confirmClientId_spent
    · exact Spent.pure trivial
  refine hconfirm.afterOne fun confirmed _ => ?_
  have hloop :
      Spent text (fun entries => entries.length ≤ [].length +
        ((uniqueSubjects requested).map subjectCost).sum)
      ((uniqueSubjects requested).foldlM (recordSubject H config credentials confirmed) [])
      ((uniqueSubjects requested).map subjectCost).sum 0 :=
    Spent.foldlM fun subject _ entries => recordSubject_spent confirmed subject
  refine (hloop.mono hcost (le_refl 0) fun _ h => h).thenWrite fun entries hlength => ?_
  split_ifs
  · exact Spent.pure trivial
  · have hentries : entries.length ≤ MAX_SUBJECTS := hlength.trans (by simpa using hcost)
    exact Spent.bind (writeReceiptReport_spent hentries) fun _ _ =>
      (Spent.pure trivial : Spent text _ _ 0 0)

end Programs

section Unique

structure KeyedSubjects (requested : List Subject)
    (subjects : OrderedMap SubjectKey Subject) : Prop where
  nodup : (subjects.map Prod.fst).Nodup
  own : ∀ e ∈ subjects, e.1 = subjectKey e.2 ∧ e.2 ∈ requested

variable {requested : List Subject} {subjects : OrderedMap SubjectKey Subject} {subject : Subject}

theorem KeyedSubjects.set (h : KeyedSubjects requested subjects) (hmem : subject ∈ requested) :
    KeyedSubjects requested (subjects.set (subjectKey subject) subject) where
  nodup := OrderedMap.nodup_set h.nodup _ _
  own e he := by
    rcases OrderedMap.mem_set he with rfl | he
    · exact ⟨rfl, hmem⟩
    · exact h.own e he

theorem KeyedSubjects.unique (h : KeyedSubjects requested subjects) (hmem : subject ∈ requested) :
    KeyedSubjects requested (unique subjects subject) := by
  unfold Workflow.unique
  split
  · exact h.set hmem
  · split_ifs
    · exact h.set hmem
    · exact h

theorem keyed_foldl_unique {more : List Subject} (h : KeyedSubjects requested subjects)
    (hmore : more ⊆ requested) :
    KeyedSubjects requested (more.foldl unique subjects) := by
  induction more generalizing subjects with
  | nil => exact h
  | cons subject more ih =>
    obtain ⟨hsubject, hmore⟩ := List.cons_subset.mp hmore
    exact ih (h.unique hsubject) hmore

theorem uniqueSubjects_subperm (requested : List Subject) :
    (uniqueSubjects requested).Subperm requested := by
  have hkeyed : KeyedSubjects requested (requested.foldl unique []) :=
    keyed_foldl_unique ⟨List.nodup_nil, fun _ he => absurd he List.not_mem_nil⟩ (List.Subset.refl _)
  have hkeys : (uniqueSubjects requested).map subjectKey =
      (requested.foldl unique []).map Prod.fst := by
    rw [uniqueSubjects, List.map_map]
    exact List.map_congr_left fun e he => (hkeyed.own e he).1.symm
  apply List.subperm_of_subset
  · exact List.Nodup.of_map subjectKey (hkeys ▸ hkeyed.nodup)
  · intro subject hsubject
    obtain ⟨e, he, rfl⟩ := List.mem_map.mp hsubject
    exact (hkeyed.own e he).2

theorem sum_cost_uniqueSubjects_le (requested : List Subject) :
    ((uniqueSubjects requested).map subjectCost).sum ≤ (requested.map subjectCost).sum := by
  obtain ⟨kept, hperm, hsublist⟩ := uniqueSubjects_subperm requested
  rw [← (hperm.map subjectCost).sum_eq]
  exact (hsublist.map subjectCost).sum_le_sum fun _ _ => Nat.zero_le _

theorem sum_cost_le {bound : ℕ} (h : ∀ subject ∈ requested, subjectCost subject ≤ bound) :
    (requested.map subjectCost).sum ≤ requested.length * bound := by
  have hsum := List.sum_le_card_nsmul (requested.map subjectCost) bound (by simpa using h)
  rwa [List.length_map, nsmul_eq_mul, Nat.cast_id] at hsum

end Unique

section Handlers
variable {text : Bytes → String} {H : Hashes} {config : Config}

theorem subjectForOpenRequest_cost {clientId : String} {routes : DeploymentRoutes}
    {request : OpenRequest}
    {subject : Subject}
    (h : Relay.subjectForOpenRequest H clientId routes request = .ok (some subject)) :
    subjectCost subject ≤ requestCost routes := by
  have hone := requestCost_pos routes
  unfold Relay.subjectForOpenRequest at h
  split_ifs at h
  · -- a Room delivery has a subject only with its route
    obtain ⟨route, hroute, rfl⟩ := Option.map_eq_some_iff.mp (Except.ok.inj h)
    unfold requestCost
    rw [hroute]
    split_ifs
    · exact (by decide : SUBJECT_COSTS.roomRequest ≤ SUBJECT_COSTS.job)
    · exact le_refl SUBJECT_COSTS.roomRequest
    · contradiction
  · -- a job has one only with both
    split at h
    · rename_i houtput
      cases h
      unfold requestCost
      rw [houtput, if_pos Option.isSome_some]
      exact le_refl SUBJECT_COSTS.job
    · cases h
  · cases h
  · obtain ⟨transferId, _, hsubject⟩ := bind_eq_ok.mp h
    cases hsubject
    exact hone
  · cases h
    exact hone
  · cases h
    exact hone

theorem toUint256_spent (value : ℤ) : Spent text (fun word => (word.toNat : ℤ) = value)
    (toUint256 value) 0 0 := by
  unfold toUint256
  split_ifs with hrange
  · refine Spent.pure ?_
    rw [BitVec.toNat_ofInt]
    omega
  · exact Spent.fail nofun

theorem readOpenRequests_spent (receipts : Receipts) (offset limit : ℤ) :
    Spent text (fun page => (page.length : ℤ) ≤ limit)
      (readOpenRequests receipts offset limit) 0 0 := by
  refine (toUint256_spent offset).after fun start _ =>
    (toUint256_spent limit).after fun size hsize => ?_
  have hpage : Spent text (fun answer => ∀ page, answer = some page → (page.length : ℤ) ≤ limit)
      (io (.openRequests receipts.chain receipts.address start size)) 0 0 := by
    refine Spent.ask (Nat.zero_le _) fun answer hanswer page hpage => ?_
    obtain ⟨s, rfl⟩ := hanswer page hpage
    have hlength := Contract.length_openRequestsPage_le s start.toNat size.toNat
    rw [List.length_map]
    omega
  refine hpage.after fun answer hanswer => ?_
  cases answer with
  | some page => exact Spent.pure (hanswer page rfl)
  | none => exact Spent.fail nofun

theorem readWindow_spent (receipts : Receipts) (total : BitVec 256) (scheduledSeconds : ℤ) :
    Spent text (fun page => page.length ≤ config.reconcileBatchSize)
      (readWindow config receipts total scheduledSeconds) 0 0 := by
  unfold readWindow
  simp only
  refine (readOpenRequests_spent _ _ _).after fun page hpage => ?_
  split_ifs at hpage ⊢
  all_goals try
    refine (readOpenRequests_spent _ _ _).after fun wrapped hwrapped => Spent.pure ?_
    rw [List.length_append]
    omega
  all_goals exact Spent.pure (by omega)

theorem scheduledSecondsOf_spent (scheduledExecutionTime : Option ℤ) :
    Spent text (fun _ => True) (scheduledSecondsOf scheduledExecutionTime) 0 0 := by
  cases scheduledExecutionTime with
  | some scheduledSeconds => exact Spent.pure trivial
  | none => exact (Spent.io rfl).after fun _ _ => Spent.pure trivial

theorem sum_cost_of_window {page : List OpenRequest} {subjects : List (Option Subject)}
    (hlength : page.length ≤ config.reconcileBatchSize)
    (h : page.mapM (Relay.subjectForOpenRequest H config.beamClientId config.routes) =
      .ok subjects) :
    ((subjects.filterMap id).map subjectCost).sum ≤ MAX_SUBJECTS := by
  obtain ⟨hcount, hall⟩ := mapM_eq_ok h
  have hcost : ∀ subject ∈ subjects.filterMap id,
      subjectCost subject ≤ requestCost config.routes := by
    intro subject hsubject
    obtain ⟨some?, hmem, hsome⟩ := List.mem_filterMap.mp hsubject
    subst hsome
    obtain ⟨request, -, hrequest⟩ := hall _ hmem
    exact subjectForOpenRequest_cost hrequest
  calc ((subjects.filterMap id).map subjectCost).sum
      ≤ (subjects.filterMap id).length * requestCost config.routes := sum_cost_le hcost
    _ ≤ config.reconcileBatchSize * requestCost config.routes := by
        apply Nat.mul_le_mul_right
        exact (List.length_filterMap_le _ _).trans (hcount ▸ hlength)
    _ ≤ MAX_SUBJECTS := config.batch_cost

theorem onReconcile_spent (scheduledExecutionTime : Option ℤ) :
    Spent text (fun _ => True) (onReconcile H config scheduledExecutionTime)
      (MAX_SUBJECTS + 1) 1 := by
  refine (evmClientFor_spent _).after fun chain _ => ?_
  have hcount : Spent text (fun _ => True)
      (readOpenRequestCount ⟨chain, config.evm.receiptsAddress⟩) 0 0 := by
    refine (Spent.io rfl).after fun count _ => ?_
    cases count with
    | some count => exact Spent.pure trivial
    | none => exact Spent.fail nofun
  refine hcount.after fun total _ => ?_
  split_ifs
  · exact Spent.pure trivial
  refine (scheduledSecondsOf_spent _).after fun scheduledSeconds _ => ?_
  refine (readWindow_spent _ _ _).after fun page hpage => ?_
  refine (Spent.throwing fun subjects hsubjects => hsubjects).after fun subjects hsubjects => ?_
  exact recordReceipts_spent
    ((sum_cost_uniqueSubjects_le _).trans (sum_cost_of_window hpage hsubjects))

def Single (subject : Subject) : Prop := subjectCost subject = 1

theorem transferSubjectOf_single {pushed : PushedTransfer} {subject : Subject}
    (h : transferSubjectOf H config pushed = .ok subject) : Single subject := by
  cases pushed with
  | requestId text =>
    obtain ⟨requestId, _, h⟩ := bind_eq_ok.mp h
    obtain ⟨transferId, _, h⟩ := bind_eq_ok.mp h
    cases h
    rfl
  | transferId text =>
    obtain ⟨transferId, _, h⟩ := bind_eq_ok.mp h
    cases h
    rfl

theorem roomSubjectOf_single {pushed : PushedRoom} {subject : Subject}
    (h : roomSubjectOf pushed = .ok subject) :
    Single subject := by
  obtain ⟨requestId, _, h⟩ := bind_eq_ok.mp h
  cases h
  rfl

theorem pushedSubjects_single {push : List PushedTransfer × List PushedRoom}
    {subjects : List Subject}
    (h : pushedSubjects H config push = .ok subjects) : ∀ subject ∈ subjects, Single subject := by
  obtain ⟨transfers, htransfers, h⟩ := bind_eq_ok.mp h
  obtain ⟨rooms, hrooms, h⟩ := bind_eq_ok.mp h
  cases h
  intro subject hsubject
  rcases List.mem_append.mp hsubject with hsubject | hsubject
  · obtain ⟨pushed, -, hpushed⟩ := (mapM_eq_ok htransfers).2 subject hsubject
    exact transferSubjectOf_single hpushed
  · obtain ⟨pushed, -, hpushed⟩ := (mapM_eq_ok hrooms).2 subject hsubject
    exact roomSubjectOf_single hpushed

theorem sum_cost_of_single {subjects : List Subject} (h : ∀ subject ∈ subjects, Single subject) :
    (subjects.map subjectCost).sum ≤ subjects.length := by
  have hsum : (subjects.map subjectCost).sum ≤ subjects.length * 1 :=
    sum_cost_le fun subject hsubject => (h subject hsubject).le
  rwa [Nat.mul_one] at hsum

theorem answerSubject_spent {credentials : Credentials} {replyUrl : String} (sofar : Answered)
    (subject : Subject) :
    Spent text (fun result => result.answered.length ≤ sofar.answered.length + 2)
      (answerSubject H config credentials replyUrl sofar subject) 2 0 := by
  refine (observeSubject_spent subject).afterOne fun observation _ =>
    (Spent.throwing_any _).after fun entry _ => ?_
  cases entry with
  | none => exact Spent.pure (Nat.le_add_right _ 2)
  | some entry =>
    refine (Spent.io rfl).after fun _ _ => (Spent.io rfl).afterOne fun status _ => Spent.pure ?_
    rw [List.length_append, List.length_singleton]
    omega

theorem attestSchema_length {body : Json} {request : AttestationRequest}
    (h : attestSchema body = some request) :
    request.attest.length ≤ MAX_ATTESTATIONS := by
  unfold attestSchema at h
  obtain ⟨members, _, h⟩ := Option.bind_eq_some_iff.mp h
  split at h
  · obtain ⟨attest, _, h⟩ := Option.bind_eq_some_iff.mp h
    obtain ⟨publishOnchain, _, h⟩ := Option.bind_eq_some_iff.mp h
    split_ifs at h with hlength
    cases h
    exact hlength.2
  · cases h

theorem answerAttestations_spent {request : AttestationRequest}
    (h : request.attest.length ≤ MAX_ATTESTATIONS) :
    Spent text (fun _ => True) (answerAttestations H config request) MAX_SUBJECTS 1 := by
  unfold answerAttestations
  cases config.attestationReplyUrl with
  | none => exact Spent.fail nofun
  | some replyUrl =>
    refine (Spent.throwing fun attested hattested => hattested).after fun attested hattested => ?_
    refine (credentialsFor_spent _).after fun credentials _ => ?_
    have hlength : (uniqueSubjects attested).length ≤ MAX_ATTESTATIONS := by
      calc (uniqueSubjects attested).length ≤ attested.length :=
        (uniqueSubjects_subperm attested).length_le
        _ = request.attest.length := (mapM_eq_ok hattested).1
        _ ≤ MAX_ATTESTATIONS := h
    have hsum : ((uniqueSubjects attested).map fun _ => 2).sum ≤ MAX_SUBJECTS := by
      rw [List.map_const', List.sum_replicate_nat]
      exact Nat.mul_le_mul_right 2 hlength
    have hloop : Spent text
        (fun result => result.answered.length ≤
          (Answered.mk [] 0).answered.length + ((uniqueSubjects attested).map fun _ => 2).sum)
        ((uniqueSubjects attested).foldlM (answerSubject H config credentials replyUrl) ⟨[], 0⟩)
        ((uniqueSubjects attested).map fun _ => 2).sum 0 :=
      Spent.foldlM fun subject _ sofar => answerSubject_spent sofar subject
    refine (hloop.mono hsum (le_refl 0) fun _ h => h).thenWrite fun result hresult => ?_
    split_ifs
    · exact Spent.pure trivial
    · have hentries : result.answered.length ≤ MAX_SUBJECTS := hresult.trans (by simpa using hsum)
      exact Spent.bind (writeReceiptReport_spent hentries) fun _ _ =>
        (Spent.pure trivial : Spent text _ _ 0 0)

theorem parsed_spent {α : Type} (body : Option α) : Spent text (fun value => body = some value)
    (parsed body) 0 0 := by
  cases body with
  | some value => exact Spent.pure rfl
  | none => exact Spent.fail nofun

theorem onReceiptPush_spent (body : Json) :
    Spent text (fun _ => True) (onReceiptPush H config body) (MAX_SUBJECTS + 1) 1 := by
  unfold onReceiptPush
  split_ifs
  · refine (parsed_spent _).after fun request hrequest => ?_
    exact (answerAttestations_spent (attestSchema_length hrequest)).mono (by omega)
      (le_refl 1) fun _ h => h
  refine (parsed_spent _).after fun push _ => ?_
  refine (Spent.throwing fun subjects hsubjects => hsubjects).after fun subjects hsubjects => ?_
  split_ifs with hnone hmany
  · exact Spent.fail nofun
  · exact Spent.fail nofun
  · have hcost :=
      (sum_cost_uniqueSubjects_le subjects).trans
        (sum_cost_of_single (pushedSubjects_single hsubjects))
    exact recordReceipts_spent (by omega)

end Handlers

theorem Spent.within {α : Type} {text : Bytes → String} {P : α → Prop} {p : Program α}
    {http writes : ℕ}
    (h : Spent text P p http writes) {calls : List Call} {x : Except Failure α}
    (hrun : Script.Runs (Environment text) p calls x) :
    x ≠ .error .tooManyLookups ∧ calls.countP Call.isHttp ≤ http ∧
      calls.countP Call.isWrite ≤ writes ∧
      ∀ c ∈ calls, c.entries.length ≤ MAX_SUBJECTS := by
  obtain ⟨hsum, hallowed, -, hfailure⟩ := Script.Spends.runs h hrun
  have hcount : (calls.map price).sum = (calls.countP Call.isHttp, calls.countP Call.isWrite) := by
    clear hsum hallowed hrun
    induction calls with
    | nil => rfl
    | cons c calls ih =>
      rw [List.map_cons, List.sum_cons, ih, List.countP_cons, List.countP_cons, price,
        Prod.mk_add_mk, Nat.add_comm,
        Nat.add_comm (if c.isWrite then 1 else 0)]
  rw [hcount] at hsum
  refine ⟨fun hx => hfailure _ hx rfl, hsum.1, hsum.2, hallowed⟩

/-- Whatever a window of open requests holds and Beam answers, an execution stays within CRE's
limits; so does one that a push or an attestation request starts. -/
theorem executions_within_limits (H : Hashes) (text : Bytes → String) (config : Config) :
    (∀ (scheduledExecutionTime : Option ℤ) (calls : List Call) (x : Except Failure String),
      Script.Runs (Environment text) (onReconcile H config scheduledExecutionTime) calls x →
        x ≠ .error .tooManyLookups ∧ calls.countP Call.isHttp ≤ HTTP_LIMIT ∧
          calls.countP Call.isWrite ≤ 1 ∧
          ∀ c ∈ calls, c.entries.length ≤ MAX_SUBJECTS) ∧
      ∀ (body : Json) (calls : List Call) (x : Except Failure String),
        Script.Runs (Environment text) (onReceiptPush H config body) calls x →
          calls.countP Call.isHttp ≤ HTTP_LIMIT := by
  refine ⟨fun scheduledExecutionTime calls x hrun => ?_, fun body calls x hrun => ?_⟩
  · exact (onReconcile_spent scheduledExecutionTime).within hrun
  · exact ((onReceiptPush_spent body).within hrun).2.1

section Sample

def sampleConfig : Config where
  evm := ⟨"ethereum-testnet-sepolia", "0x00000000000000000000000000000000000000aa", "900000"⟩
  beamApiBaseUrl := "https://beam"
  roomApiBaseUrl := "https://rooms"
  beamClientId := "c"
  reconcileIntervalMinutes := 10
  reconcileBatchSize := 3
  httpTriggerAuthorizedKeys := []
  routes :=
    ⟨some ⟨"r", "c", "btr_member_aaaaaaaaaaaaaaaaaaaaaaaaaa"⟩,
      some ⟨"o", "btr_member_bbbbbbbbbbbbbbbbbbbbbbbbbb"⟩⟩
  attestationReplyUrl := none
  interval_pos := by decide
  interval_divides := by decide
  batch_pos := by decide
  route_of_output := by decide
  batch_cost := by decide

def sampleText (bytes : Bytes) : String :=
    String.ofList (bytes.map fun byte => Char.ofNat byte.toNat)

/-- A contract with three open requests, one of them a job, and a Beam that has finished
everything. -/
def sampleAnswers : (c : Call) → Except Failure c.Answer
  | .getNetwork _ => .ok (some 1)
  | .now => .ok 0
  | .openRequestCount _ _ => .ok (some 3)
  | .openRequests _ _ offset limit =>
    .ok (some ((Contract.sampleRequested.openRequestsPage offset.toNat limit.toNat).map
      (openRequestOf sampleText)))
  | .getSecrets _ => .ok [(API_KEY_SECRET, "k"), (ORG_ID_SECRET, "o")]
  | .observeTransfer _ => .ok (.transfer 1 10 10 1000 1 2)
  | .observeRoomReceipt _ => .ok (.room 1 10 1 1 true 2 3 1)
  | .observeClientId _ => .ok (some "c")
  | .observePublicationByKey _ => .ok (.found "p")
  | .report _ => .ok ()
  | .deliverReport _ _ => .ok 200
  | .writeReport _ _ _ _ => .ok ⟨"SUCCESS", false, none, none⟩

theorem sampleAnswers_environment (c : Call) : Environment sampleText c (sampleAnswers c) := by
  cases c with
  | openRequests chain receipts offset limit =>
    rintro page h
    cases h
    exact ⟨Contract.sampleRequested, rfl⟩
  | _ => trivial

theorem sample_within_limits :
    ((onReconcile Contract.sampleHashes sampleConfig (some 0)).run sampleAnswers).2.countP
      Call.isHttp ≤ HTTP_LIMIT ∧
      ((onReceiptPush Contract.sampleHashes sampleConfig (.object [("rooms", .array [])])).run
        sampleAnswers).2.countP Call.isHttp ≤ HTTP_LIMIT := by
  obtain ⟨hreconcile, hpush⟩ :=
    executions_within_limits Contract.sampleHashes sampleText sampleConfig
  exact ⟨(hreconcile _ _ _ (.of_run sampleAnswers_environment _)).2.1,
    hpush _ _ _ (.of_run sampleAnswers_environment _)⟩

end Sample
end Beam.Workflow
