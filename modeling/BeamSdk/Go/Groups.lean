import Mathlib.Data.List.Forall2
import Mathlib.Data.List.Nodup
import Mathlib.Data.List.Perm.Subperm
import BeamSdk.Identity.Derived
import BeamSdk.Library.OrderedMap
import BeamSdk.Library.Result
import BeamSdk.Library.Run

/-! The identities of the multipart groups of a plan: the futures that the workers close, one for
each group, and the saved identities that a transfer is resumed with. -/

namespace Beam.Go.Groups
variable {δ : Type}

structure CompactTransferPlanSource where
  sourceID : String
  size : ℤ
  chunkCount : ℤ
  deriving DecidableEq

structure PlanDestination where
  destinationID : String
  finalObjectKeys : OrderedMap String String

structure TransferPrepareResponse where
  transferID : String
  sources : List CompactTransferPlanSource
  destinations : List PlanDestination

structure Group (δ : Type) where
  source : CompactTransferPlanSource
  destinationID : String
  destination : δ
  objectKey : String

structure ProviderMultipartGroupIdentity where
  transferID : String
  multipartGroupID : String
  sourceID : String
  destinationID : String
  objectKey : String
  uploadID : String
  expectedObjectSize : ℤ
  expectedPartCount : ℤ

structure MultipartUploadState (δ : Type) where
  destination : δ
  objectKey : String
  uploadID : String

def multipartGroupStateKey (transferID destinationID sourceID finalObjectKey : String) : String :=
  s!"{transferID}:{destinationID}:{sourceID}:{finalObjectKey}"

def Group.key (transferID : String) (group : Group δ) : String :=
  multipartGroupStateKey transferID group.destinationID group.source.sourceID group.objectKey

section
variable (isDirectPut : δ → Bool) (destinations : String → Option δ)
    (prepared : TransferPrepareResponse)

def cells : List (CompactTransferPlanSource × PlanDestination) :=
  prepared.sources.flatMap fun source => prepared.destinations.map fun target => (source, target)

def objectKey (source : CompactTransferPlanSource) (target : PlanDestination) : String :=
  (target.finalObjectKeys.get source.sourceID).getD ""

def addGroup (unknown : PlanDestination → String)
    (missing : CompactTransferPlanSource → PlanDestination → String)
    (groups : List (Group δ)) (cell : CompactTransferPlanSource × PlanDestination) :
      Except String (List (Group δ)) :=
  match destinations cell.2.destinationID with
  | none => .error (unknown cell.2)
  | some destination =>
    if isDirectPut destination then .ok groups
    else if objectKey cell.1 cell.2 = "" then .error (missing cell.1 cell.2)
    else .ok (groups ++ [⟨cell.1, cell.2.destinationID, destination, objectKey cell.1 cell.2⟩])

/-- The multipart groups of the plan, with the errors of the one or the other caller. -/
def planGroups (unknown : PlanDestination → String)
    (missing : CompactTransferPlanSource → PlanDestination → String) :
    Except String (List (Group δ)) :=
  (cells prepared).foldlM (addGroup isDirectPut destinations unknown missing) []

/-- The jobs of `startMultipartGroupManifest`. -/
def startMultipartGroupManifest : Except String (List (Group δ)) :=
  planGroups isDirectPut destinations prepared
    (fun target => s!"BeamCore returned unknown destination_id: {target.destinationID}")
    (fun source target =>
      s!"plan final object key not found: {source.sourceID}:{target.destinationID}")

def Matches (identity : ProviderMultipartGroupIdentity) (group : Group δ) : Prop :=
  identity.transferID = prepared.transferID ∧ identity.sourceID = group.source.sourceID ∧
    identity.destinationID = group.destinationID ∧ identity.objectKey = group.objectKey ∧
    identity.expectedObjectSize = group.source.size ∧
      identity.expectedPartCount = group.source.chunkCount ∧
    Identity.trim Identity.Go.isSpace identity.uploadID ≠ ""

instance (identity : ProviderMultipartGroupIdentity) (group : Group δ) :
    Decidable (Matches prepared identity group) :=
  inferInstanceAs (Decidable (_ ∧ _ ∧ _ ∧ _ ∧ _ ∧ _ ∧ _))

def addIdentity (expected : OrderedMap String (Group δ))
    (uploads : OrderedMap String (MultipartUploadState δ))
    (identity : ProviderMultipartGroupIdentity) :
      Except String (OrderedMap String (MultipartUploadState δ)) :=
  match expected.get identity.multipartGroupID, uploads.get identity.multipartGroupID with
  | some group, none =>
    if Matches prepared identity group then
      .ok (uploads.set identity.multipartGroupID
        ⟨group.destination, group.objectKey, identity.uploadID⟩)
    else .error "provider_multipart_recovery_identity_invalid"
  | _, _ => .error "provider_multipart_recovery_identity_invalid"

def restoreProviderMultipartIdentities (identities : List ProviderMultipartGroupIdentity) :
    Except String (OrderedMap String (MultipartUploadState δ)) := do
  let groups ← planGroups isDirectPut destinations prepared
    (fun _ => "provider_multipart_recovery_destination_invalid")
    (fun _ _ => "provider_multipart_recovery_object_invalid")
  let expected : OrderedMap String (Group δ) :=
    groups.foldl (fun expected group => expected.set (group.key prepared.transferID) group) []
  if expected.length ≠ identities.length then throw "provider_multipart_recovery_incomplete"
  identities.foldlM (addIdentity prepared expected) []

end

/-- `closed`: the channels that were closed, the last first. -/
structure Pool (δ : Type) where
  queue : List (Group δ)
  running : List (Group δ)
  closed : List String

inductive PoolStep
  | take
  -- one of the running jobs is over, however it went, and the channel of its future is closed
  | close (job : ℕ)

namespace Pool

def start (jobs : List (Group δ)) : Pool δ := ⟨jobs, [], []⟩

def step (transferID : String) (workers : ℕ) (s : Pool δ) : PoolStep → Option (Pool δ)
  | .take =>
    match s.queue with
    | [] => none
    | job :: queue =>
        if s.running.length < workers then
          some { s with queue := queue, running := job :: s.running } else none
  | .close i =>
    (s.running[i]?).map fun job =>
      { s with running := s.running.eraseIdx i, closed := job.key transferID :: s.closed }

end Pool

section
variable (isDirectPut : δ → Bool) (destinations : String → Option δ)
    (prepared : TransferPrepareResponse)

def groupOf (cell : CompactTransferPlanSource × PlanDestination) : Option (Group δ) :=
  (destinations cell.2.destinationID).bind fun destination =>
    if isDirectPut destination then none
      else some ⟨cell.1, cell.2.destinationID, destination, objectKey cell.1 cell.2⟩

def pairs : List (Group δ) := (cells prepared).filterMap (groupOf isDirectPut destinations)

/-- The destination is known, and has an object key for the source where it takes it in parts. -/
def Listed (cell : CompactTransferPlanSource × PlanDestination) : Prop :=
  ∃ destination, destinations cell.2.destinationID = some destination ∧
    (isDirectPut destination = false → objectKey cell.1 cell.2 ≠ "")

def Planned : Prop := ∀ cell ∈ cells prepared, Listed isDirectPut destinations cell

def Covers (identities : List ProviderMultipartGroupIdentity) : Prop :=
  ∃ groups, groups.Perm (pairs isDirectPut destinations prepared) ∧
    List.Forall₂ (fun identity group => identity.multipartGroupID = group.key prepared.transferID ∧
      Matches prepared identity group) identities groups

structure KeptApart : Prop where
  distinct : ∀ group ∈ pairs isDirectPut destinations prepared,
    ∀ group' ∈ pairs isDirectPut destinations prepared,
    (group.source.sourceID, group.destinationID) ≠ (group'.source.sourceID, group'.destinationID) →
      group.key prepared.transferID ≠ group'.key prepared.transferID
  closed : ∀ jobs, startMultipartGroupManifest isDirectPut destinations prepared = .ok jobs →
    ∀ workers steps pool,
    Run.after (Pool.step prepared.transferID workers) (Pool.start jobs) steps = some pool →
      pool.closed.Nodup ∧
        (pool.queue = [] → pool.running = [] → ∀ job ∈ jobs,
          pool.closed.count (job.key prepared.transferID) = 1)
  restored : ∀ identities,
    (∃ uploads, restoreProviderMultipartIdentities isDirectPut destinations prepared identities =
      .ok uploads) ↔
      Planned isDirectPut destinations prepared ∧
        Covers isDirectPut destinations prepared identities

end

/-- What the colons of one group's ids leave open: a destination's id that goes on with what
another one's source id begins with, or, at one destination, a source's id that goes on with what
another one's object key begins with. -/
def Clash (group group' : Group δ) : Prop :=
  (∃ more, group'.destinationID = group.destinationID ++ ":" ++ more ∧
    group.source.sourceID ++ ":" ++ group.objectKey = more ++ ":" ++ group'.source.sourceID ++
      ":" ++ group'.objectKey) ∨
    (group'.destinationID = group.destinationID ∧ ∃ more,
      group'.source.sourceID = group.source.sourceID ++ ":" ++ more ∧
      group.objectKey = more ++ ":" ++ group'.objectKey)

theorem split_at {α : Type} {a b a' b' : List α} {c : α} (h : a ++ c :: b = a' ++ c :: b') :
    (a = a' ∧ b = b') ∨ (∃ more, a' = a ++ c :: more ∧ b = more ++ c :: b') ∨
      ∃ more, a = a' ++ c :: more ∧ b' = more ++ c :: b := by
  rcases List.append_eq_append_iff.mp h with ⟨between, hleft, hright⟩ | ⟨between, hleft, hright⟩
  · cases between with
    | nil =>
      rw [List.append_nil] at hleft
      exact .inl ⟨hleft.symm, (List.cons.inj hright).2⟩
    | cons x more =>
      obtain ⟨rfl, hrest⟩ := List.cons.inj hright
      exact .inr (.inl ⟨more, hleft, hrest⟩)
  · cases between with
    | nil =>
      rw [List.append_nil] at hleft
      exact .inl ⟨hleft, (List.cons.inj hright).2.symm⟩
    | cons x more =>
      obtain ⟨rfl, hrest⟩ := List.cons.inj hright
      exact .inr (.inr ⟨more, hleft, hrest⟩)

theorem toList_colon (a b : String) : (a ++ ":" ++ b).toList = a.toList ++ ':' :: b.toList := by
  rw [String.toList_append, String.toList_append, List.append_assoc]
  rfl

theorem eq_colon {a b : String} {more : List Char} (h : a.toList = b.toList ++ ':' :: more) :
    a = b ++ ":" ++ String.ofList more := by
  rw [← String.toList_inj, toList_colon, String.toList_ofList]
  exact h

theorem colon_inj {a b a' b' : String} (h : a ++ ":" ++ b = a' ++ ":" ++ b') :
    (a = a' ∧ b = b') ∨ (∃ more, a' = a ++ ":" ++ more ∧ b = more ++ ":" ++ b') ∨
      ∃ more, a = a' ++ ":" ++ more ∧ b' = more ++ ":" ++ b := by
  have hlist := congrArg String.toList h
  rw [toList_colon, toList_colon] at hlist
  have hmore : ∀ {text text' : String} {more : List Char},
      text.toList = more ++ ':' :: text'.toList →
      text = String.ofList more ++ ":" ++ text' := fun heq => by
    rw [← String.toList_inj, toList_colon, String.toList_ofList]
    exact heq
  obtain ⟨hleft, hright⟩ | ⟨more, hleft, hright⟩ | ⟨more, hleft, hright⟩ := split_at hlist
  · exact .inl ⟨String.toList_inj.mp hleft, String.toList_inj.mp hright⟩
  · exact .inr (.inl ⟨String.ofList more, eq_colon hleft, hmore hright⟩)
  · exact .inr (.inr ⟨String.ofList more, eq_colon hleft, hmore hright⟩)

theorem colon_ne (a b : String) : a ++ ":" ++ b ≠ a := by
  intro h
  have hlength := congrArg (List.length ∘ String.toList) h
  simp only [Function.comp_apply, toList_colon, List.length_append, List.length_cons] at hlength
  omega

theorem key_eq {transferID : String} {group group' : Group δ} :
    group.key transferID = group'.key transferID ↔
      group.destinationID ++ ":" ++ (group.source.sourceID ++ ":" ++ group.objectKey) =
        group'.destinationID ++ ":" ++ (group'.source.sourceID ++ ":" ++ group'.objectKey) := by
  have hkey : ∀ group : Group δ, group.key transferID =
      transferID ++
        (":" ++ (group.destinationID ++ ":" ++
          (group.source.sourceID ++ ":" ++ group.objectKey))) := by
    intro group
    show transferID ++ ":" ++ group.destinationID ++ ":" ++ group.source.sourceID ++ ":" ++
      group.objectKey = _
    simp only [String.append_assoc]
  rw [hkey, hkey, String.append_right_inj, String.append_right_inj]

theorem key_eq_iff {transferID : String} {group group' : Group δ} :
    group.key transferID = group'.key transferID ↔
      (group.destinationID = group'.destinationID ∧ group.source.sourceID = group'.source.sourceID ∧
        group.objectKey = group'.objectKey) ∨ Clash group group' ∨ Clash group' group := by
  rw [key_eq]
  constructor
  · intro h
    obtain ⟨hdest, hrest⟩ | ⟨more, hdest, hrest⟩ | ⟨more, hdest, hrest⟩ := colon_inj h
    · obtain ⟨hsource, hkey⟩ | ⟨more, hsource, hkey⟩ | ⟨more, hsource, hkey⟩ := colon_inj hrest
      · exact .inl ⟨hdest, hsource, hkey⟩
      · exact .inr (.inl (.inr ⟨hdest.symm, more, hsource, hkey⟩))
      · exact .inr (.inr (.inr ⟨hdest, more, hsource, hkey⟩))
    · rw [← String.append_assoc, ← String.append_assoc] at hrest
      exact .inr (.inl (.inl ⟨more, hdest, hrest⟩))
    · rw [← String.append_assoc, ← String.append_assoc] at hrest
      exact .inr (.inr (.inl ⟨more, hdest, hrest⟩))
  · have hclash : ∀ {group group' : Group δ}, Clash group group' →
        group.destinationID ++ ":" ++ (group.source.sourceID ++ ":" ++ group.objectKey) =
          group'.destinationID ++ ":" ++ (group'.source.sourceID ++ ":" ++ group'.objectKey) := by
      rintro group group' (⟨more, hdest, hrest⟩ | ⟨hdest, more, hsource, hkey⟩)
      · rw [hdest, hrest]
        simp only [String.append_assoc]
      · rw [hdest, hsource, hkey]
        simp only [String.append_assoc]
    rintro (⟨hdest, hsource, hkey⟩ | h | h)
    · rw [hdest, hsource, hkey]
    · exact hclash h
    · exact (hclash h).symm

theorem Clash.ne {group group' : Group δ} (h : Clash group group') :
    (group.source.sourceID, group.destinationID) ≠
      (group'.source.sourceID, group'.destinationID) := by
  intro heq
  obtain ⟨hsource, hdest⟩ := Prod.mk.inj heq
  obtain ⟨more, hmore, -⟩ | ⟨-, more, hmore, -⟩ := h
  · exact colon_ne _ _ (hmore.symm.trans hdest.symm)
  · exact colon_ne _ _ (hmore.symm.trans hsource.symm)

theorem Clash.colon {group group' : Group δ} (h : Clash group group') :
    ':' ∈ group'.destinationID.toList ∨ ':' ∈ group'.source.sourceID.toList := by
  have hmem : ∀ a b : String, ':' ∈ (a ++ ":" ++ b).toList := fun a b => by
    rw [toList_colon]
    exact List.mem_append_right _ (List.mem_cons_self ..)
  obtain ⟨more, hmore, -⟩ | ⟨-, more, hmore, -⟩ := h
  · exact .inl (hmore ▸ hmem _ _)
  · exact .inr (hmore ▸ hmem _ _)

section
variable {isDirectPut : δ → Bool} {destinations : String → Option δ}
    {prepared : TransferPrepareResponse}

theorem cells_pairwise (hsources : (prepared.sources.map CompactTransferPlanSource.sourceID).Nodup)
    (hdestinations : (prepared.destinations.map PlanDestination.destinationID).Nodup) :
    (cells prepared).Pairwise fun cell cell' =>
      (cell.1.sourceID, cell.2.destinationID) ≠ (cell'.1.sourceID, cell'.2.destinationID) := by
  refine List.pairwise_flatMap.mpr ⟨fun source _ => ?_, ?_⟩
  · refine List.pairwise_map.mpr ((List.pairwise_map.mp hdestinations).imp fun hne heq => ?_)
    exact hne (Prod.mk.inj heq).2
  · refine (List.pairwise_map.mp hsources).imp fun hne cell hcell cell' hcell' heq => ?_
    obtain ⟨target, -, rfl⟩ := List.mem_map.mp hcell
    obtain ⟨target', -, rfl⟩ := List.mem_map.mp hcell'
    exact hne (Prod.mk.inj heq).1

theorem groupOf_ids {cell : CompactTransferPlanSource × PlanDestination} {group : Group δ}
    (h : groupOf isDirectPut destinations cell = some group) :
    group.source = cell.1 ∧ group.destinationID = cell.2.destinationID := by
  obtain ⟨destination, -, h⟩ := Option.bind_eq_some_iff.mp h
  obtain ⟨-, h⟩ := Option.ite_none_left_eq_some.mp h
  cases h
  exact ⟨rfl, rfl⟩

theorem pairs_pairwise (hsources : (prepared.sources.map CompactTransferPlanSource.sourceID).Nodup)
    (hdestinations : (prepared.destinations.map PlanDestination.destinationID).Nodup) :
    (pairs isDirectPut destinations prepared).Pairwise fun group group' =>
      (group.source.sourceID, group.destinationID) ≠
        (group'.source.sourceID, group'.destinationID) := by
  refine (cells_pairwise hsources hdestinations).filterMap _ fun cell cell' hne group hgroup group'
    hgroup' => ?_
  obtain ⟨hsource, hdest⟩ := groupOf_ids hgroup
  obtain ⟨hsource', hdest'⟩ := groupOf_ids hgroup'
  rwa [hsource, hdest, hsource', hdest']

theorem keys_nodup (hsources : (prepared.sources.map CompactTransferPlanSource.sourceID).Nodup)
    (hdestinations : (prepared.destinations.map PlanDestination.destinationID).Nodup)
    (hclash : ∀ group ∈ pairs isDirectPut destinations prepared,
      ∀ group' ∈ pairs isDirectPut destinations prepared,
      ¬ Clash group group') :
    ((pairs isDirectPut destinations prepared).map (Group.key prepared.transferID)).Nodup := by
  refine List.pairwise_map.mpr
    ((pairs_pairwise hsources hdestinations).imp_of_mem fun hmem hmem' hne heq => ?_)
  obtain ⟨hdest, hsource, -⟩ | h | h := key_eq_iff.mp heq
  · exact hne (Prod.ext hsource hdest)
  · exact hclash _ hmem _ hmem' h
  · exact hclash _ hmem' _ hmem h

variable {unknown : PlanDestination → String}
    {missing : CompactTransferPlanSource → PlanDestination → String}

theorem addGroup_eq_ok {before groups : List (Group δ)}
    {cell : CompactTransferPlanSource × PlanDestination} :
    addGroup isDirectPut destinations unknown missing before cell = .ok groups ↔
      Listed isDirectPut destinations cell ∧
        groups = before ++ (groupOf isDirectPut destinations cell).toList := by
  unfold addGroup Listed groupOf
  cases destinations cell.2.destinationID with
  | none => simp
  | some destination =>
    cases hdirect : isDirectPut destination with
    | true =>
      simp only [hdirect, if_true, Except.ok.injEq, Option.some.injEq, exists_eq_left',
        reduceCtorEq, false_imp_iff, true_and,
        Option.bind_some, Option.toList_none, List.append_nil]
      exact eq_comm
    | false =>
      by_cases hkey : objectKey cell.1 cell.2 = ""
      · simp [hdirect, hkey]
      · simp only [hdirect, hkey, if_false, Except.ok.injEq, Option.some.injEq, exists_eq_left',
          forall_const, ne_eq,
          not_false_eq_true, true_and, Option.bind_some, Option.toList_some, Bool.false_eq_true]
        exact eq_comm

theorem addGroup_fold {cells : List (CompactTransferPlanSource × PlanDestination)}
    {before groups : List (Group δ)} :
    cells.foldlM (addGroup isDirectPut destinations unknown missing) before = .ok groups ↔
      (∀ cell ∈ cells, Listed isDirectPut destinations cell) ∧
        groups = before ++ cells.filterMap (groupOf isDirectPut destinations) := by
  induction cells generalizing before with
  | nil =>
    rw [List.foldlM_nil, List.filterMap_nil, List.append_nil]
    constructor
    · intro h
      cases h
      exact ⟨fun _ => nofun, rfl⟩
    · rintro ⟨-, rfl⟩
      rfl
  | cons cell cells ih =>
    have hcons : (cell :: cells).filterMap (groupOf isDirectPut destinations) =
        (groupOf isDirectPut destinations cell).toList ++
          cells.filterMap (groupOf isDirectPut destinations) := by
      cases hgroup : groupOf isDirectPut destinations cell with
      | none => rw [List.filterMap_cons_none hgroup, Option.toList_none, List.nil_append]
      | some group =>
          rw [List.filterMap_cons_some hgroup, Option.toList_some, List.singleton_append]
    rw [List.foldlM_cons, bind_eq_ok, List.forall_mem_cons, hcons, ← List.append_assoc]
    constructor
    · rintro ⟨next, hnext, hrest⟩
      obtain ⟨hlisted, rfl⟩ := addGroup_eq_ok.mp hnext
      obtain ⟨hall, hgroups⟩ := ih.mp hrest
      exact ⟨⟨hlisted, hall⟩, hgroups⟩
    · rintro ⟨⟨hlisted, hall⟩, hgroups⟩
      exact ⟨_, addGroup_eq_ok.mpr ⟨hlisted, rfl⟩, ih.mpr ⟨hall, hgroups⟩⟩

theorem planGroups_eq_ok {groups : List (Group δ)} :
    planGroups isDirectPut destinations prepared unknown missing = .ok groups ↔
      Planned isDirectPut destinations prepared ∧
        groups = pairs isDirectPut destinations prepared := by
  unfold planGroups
  rw [addGroup_fold, List.nil_append]
  rfl

theorem pool_perm {transferID : String} {workers : ℕ} {jobs : List (Group δ)}
    {steps : List PoolStep} {pool : Pool δ}
    (h : Run.after (Pool.step transferID workers) (Pool.start jobs) steps = some pool) :
    (pool.closed ++ (pool.running ++ pool.queue).map (Group.key transferID)).Perm
      (jobs.map (Group.key transferID)) := by
  refine Run.after_invariant (I := fun pool =>
    (pool.closed ++ (pool.running ++ pool.queue).map (Group.key transferID)).Perm
    (jobs.map (Group.key transferID))) (fun s i s' hs hstep => ?_) (List.Perm.refl _) h
  refine List.Perm.trans ?_ hs
  cases i with
  | take =>
    unfold Pool.step at hstep
    simp only at hstep
    split at hstep
    · cases hstep
    · rename_i job queue hqueue
      obtain ⟨-, heq⟩ := Option.ite_none_right_eq_some.mp hstep
      cases heq
      rw [hqueue]
      exact (List.perm_middle.symm.map _).append_left _
  | close i =>
    obtain ⟨job, hjob, rfl⟩ := Option.map_eq_some_iff.mp hstep
    obtain ⟨hlt, hget⟩ := List.getElem?_eq_some_iff.mp hjob
    have hrunning : (job :: s.running.eraseIdx i).Perm s.running :=
      hget ▸ List.getElem_cons_eraseIdx_perm hlt
    have hmoved := ((hrunning.append_right s.queue).map (Group.key transferID)).append_left s.closed
    refine List.Perm.trans ?_ hmoved
    exact List.perm_middle.symm

theorem pool_closes {transferID : String} {workers : ℕ} {jobs : List (Group δ)}
    {steps : List PoolStep} {pool : Pool δ}
    (hkeys : (jobs.map (Group.key transferID)).Nodup)
    (h : Run.after (Pool.step transferID workers) (Pool.start jobs) steps = some pool) :
    pool.closed.Nodup ∧
      (pool.queue = [] → pool.running = [] → ∀ job ∈ jobs,
        pool.closed.count (job.key transferID) = 1) := by
  have hperm := pool_perm h
  have hclosed : pool.closed.Nodup := (List.nodup_append.mp (hperm.nodup_iff.mpr hkeys)).1
  refine ⟨hclosed, fun hqueue hrunning job hjob => ?_⟩
  rw [hqueue, hrunning] at hperm
  simp only [List.append_nil, List.map_nil] at hperm
  exact List.nodup_iff_count_eq_one.mp hclosed _ (hperm.mem_iff.mpr (List.mem_map_of_mem hjob))

theorem addIdentity_eq_ok {expected : OrderedMap String (Group δ)}
    {uploads uploads' : OrderedMap String (MultipartUploadState δ)}
    {identity : ProviderMultipartGroupIdentity}
    (h : addIdentity prepared expected uploads identity = .ok uploads') :
    (∃ group, expected.get identity.multipartGroupID = some group ∧
      Matches prepared identity group) ∧
      uploads.get identity.multipartGroupID = none ∧
      ∃ state, uploads' = uploads.set identity.multipartGroupID state := by
  unfold addIdentity at h
  split at h
  · rename_i group hknown hnew
    split_ifs at h with hmatches
    cases h
    exact ⟨⟨group, hknown, hmatches⟩, hnew, _, rfl⟩
  · cases h

theorem addIdentity_new {expected : OrderedMap String (Group δ)}
    {uploads : OrderedMap String (MultipartUploadState δ)}
    {identity : ProviderMultipartGroupIdentity} {group : Group δ}
    (hknown : expected.get identity.multipartGroupID = some group)
    (hmatches : Matches prepared identity group)
    (hnew : uploads.get identity.multipartGroupID = none) :
    ∃ state, addIdentity prepared expected uploads identity =
      .ok (uploads.set identity.multipartGroupID state) := by
  refine ⟨⟨group.destination, group.objectKey, identity.uploadID⟩, ?_⟩
  unfold addIdentity
  rw [hknown, hnew]
  exact if_pos hmatches

theorem addIdentity_fold {expected : OrderedMap String (Group δ)}
    {identities : List ProviderMultipartGroupIdentity}
    {uploads : OrderedMap String (MultipartUploadState δ)} :
    (∃ uploads', identities.foldlM (addIdentity prepared expected) uploads = .ok uploads') ↔
      (∀ identity ∈ identities, ∃ group, expected.get identity.multipartGroupID = some group ∧
        Matches prepared identity group) ∧
        (identities.map ProviderMultipartGroupIdentity.multipartGroupID).Nodup ∧
        ∀ identity ∈ identities, uploads.get identity.multipartGroupID = none := by
  induction identities generalizing uploads with
  | nil => exact ⟨fun _ => ⟨fun _ => nofun, List.nodup_nil, fun _ => nofun⟩, fun _ =>
      ⟨uploads, rfl⟩⟩
  | cons identity identities ih =>
    rw [List.forall_mem_cons, List.forall_mem_cons, List.map_cons, List.nodup_cons]
    constructor
    · rintro ⟨uploads', h⟩
      obtain ⟨next, hnext, hrest⟩ := foldlM_cons_eq_ok.mp h
      obtain ⟨hknown, hnew, state, rfl⟩ := addIdentity_eq_ok hnext
      obtain ⟨hall, hnodup, hnone⟩ := ih.mp ⟨uploads', hrest⟩
      have hne : ∀ identity' ∈ identities, identity'.multipartGroupID ≠
          identity.multipartGroupID := by
        intro identity' hmem heq
        have hget := hnone identity' hmem
        rw [heq, OrderedMap.get_set_self] at hget
        cases hget
      refine ⟨⟨hknown, hall⟩, ⟨fun hmem => ?_, hnodup⟩, hnew, fun identity' hmem => ?_⟩
      · obtain ⟨identity', hmem, heq⟩ := List.mem_map.mp hmem
        exact hne identity' hmem heq
      · rw [← hnone identity' hmem, OrderedMap.get_set_of_ne _ (hne identity' hmem)]
    · rintro ⟨⟨⟨group, hknown, hmatches⟩, hall⟩, ⟨hnotin, hnodup⟩, hnew, hnone⟩
      obtain ⟨state, hstate⟩ := addIdentity_new hknown hmatches hnew
      have hother : ∀ identity' ∈ identities,
          (uploads.set identity.multipartGroupID state).get identity'.multipartGroupID = none := by
        intro identity' hmem
        have hne : identity'.multipartGroupID ≠ identity.multipartGroupID := fun heq =>
          hnotin (List.mem_map.mpr ⟨identity', hmem, heq⟩)
        rw [OrderedMap.get_set_of_ne _ hne, hnone identity' hmem]
      obtain ⟨uploads', hrest⟩ := ih.mpr ⟨hall, hnodup, hother⟩
      exact ⟨uploads', foldlM_cons_eq_ok.mpr ⟨_, hstate, hrest⟩⟩

theorem ids_eq {transferID : String} {P : ProviderMultipartGroupIdentity → Group δ → Prop}
    {identities : List ProviderMultipartGroupIdentity} {groups : List (Group δ)}
    (h : List.Forall₂ (fun identity group => identity.multipartGroupID = group.key transferID ∧
      P identity group) identities groups) :
    identities.map ProviderMultipartGroupIdentity.multipartGroupID =
      groups.map (Group.key transferID) := by
  induction h with
  | nil => rfl
  | cons hfirst _ ih => rw [List.map_cons, List.map_cons, hfirst.1, ih]

theorem forall₂_of_exists {α β : Type} {R : α → β → Prop} {xs : List α} {ys : List β}
    (h : ∀ x ∈ xs, ∃ y ∈ ys, R x y) :
    ∃ zs, (∀ z ∈ zs, z ∈ ys) ∧ List.Forall₂ R xs zs := by
  induction xs with
  | nil => exact ⟨[], fun _ => nofun, .nil⟩
  | cons x xs ih =>
    obtain ⟨⟨y, hmem, hy⟩, hrest⟩ := List.forall_mem_cons.mp h
    obtain ⟨zs, hzs, hall⟩ := ih hrest
    exact ⟨y :: zs, List.forall_mem_cons.mpr ⟨hmem, hzs⟩, .cons hy hall⟩

theorem exists_of_forall₂ {α β : Type} {R : α → β → Prop} {xs : List α} {ys : List β}
    (h : List.Forall₂ R xs ys) :
    ∀ x ∈ xs, ∃ y ∈ ys, R x y := by
  induction h with
  | nil => exact fun _ => nofun
  | cons hfirst _ ih =>
    refine List.forall_mem_cons.mpr ⟨⟨_, List.mem_cons_self .., hfirst⟩, fun x hx => ?_⟩
    obtain ⟨y, hy, hR⟩ := ih x hx
    exact ⟨y, List.mem_cons_of_mem _ hy, hR⟩

theorem covers_iff {identities : List ProviderMultipartGroupIdentity}
    (hkeys : ((pairs isDirectPut destinations prepared).map
      (Group.key prepared.transferID)).Nodup) :
    Covers isDirectPut destinations prepared identities ↔
      (pairs isDirectPut destinations prepared).length = identities.length ∧
        (∀ identity ∈ identities, ∃ group ∈ pairs isDirectPut destinations prepared,
          identity.multipartGroupID = group.key prepared.transferID ∧
            Matches prepared identity group) ∧
        (identities.map ProviderMultipartGroupIdentity.multipartGroupID).Nodup := by
  constructor
  · rintro ⟨groups, hperm, hall⟩
    refine ⟨hperm.length_eq.symm.trans hall.length_eq.symm, fun identity hmem => ?_, ?_⟩
    · obtain ⟨group, hgroup, hmatches⟩ := exists_of_forall₂ hall identity hmem
      exact ⟨group, hperm.mem_iff.mp hgroup, hmatches⟩
    · rw [ids_eq hall, (hperm.map _).nodup_iff]
      exact hkeys
  · rintro ⟨hlength, hall, hnodup⟩
    obtain ⟨groups, hsub, hgroups⟩ := forall₂_of_exists hall
    have hdistinct : groups.Nodup := by
      rw [ids_eq hgroups] at hnodup
      exact hnodup.of_map _
    refine ⟨groups, (hdistinct.subperm hsub).perm_of_length_le ?_, hgroups⟩
    rw [hlength, hgroups.length_eq]

theorem restored_iff {identities : List ProviderMultipartGroupIdentity}
    (hkeys : ((pairs isDirectPut destinations prepared).map
      (Group.key prepared.transferID)).Nodup) :
    (∃ uploads, restoreProviderMultipartIdentities isDirectPut destinations prepared identities =
      .ok uploads) ↔
      Planned isDirectPut destinations prepared ∧
        Covers isDirectPut destinations prepared identities := by
  have hexpected := OrderedMap.foldl_set_new (m := ([] : OrderedMap String (Group δ))) hkeys
  rw [List.nil_append] at hexpected
  have hlookup : ∀ {key : String} {group : Group δ},
      OrderedMap.get ((pairs isDirectPut destinations prepared).map fun group =>
        (group.key prepared.transferID, group)) key =
        some group ↔ group ∈ pairs isDirectPut destinations prepared ∧
          key = group.key prepared.transferID := by
    intro key group
    rw [OrderedMap.get_eq_some (by rw [List.map_map]; exact hkeys), List.mem_map]
    constructor
    · rintro ⟨group', hmem, heq⟩
      cases heq
      exact ⟨hmem, rfl⟩
    · rintro ⟨hmem, rfl⟩
      exact ⟨group, hmem, rfl⟩
  have hfold :
      (∃ uploads,
        identities.foldlM
        (addIdentity prepared ((pairs isDirectPut destinations prepared).map fun group =>
      (group.key prepared.transferID, group))) [] = .ok uploads) ↔ _ := addIdentity_fold
  simp only [hlookup] at hfold
  rw [← hexpected] at hfold
  rw [covers_iff hkeys]
  unfold restoreProviderMultipartIdentities
  constructor
  · rintro ⟨uploads, h⟩
    obtain ⟨groups, hgroups, h⟩ := bind_eq_ok.mp h
    obtain ⟨hplanned, rfl⟩ := planGroups_eq_ok.mp hgroups
    obtain ⟨hlength, h⟩ := guard_eq_ok.mp h
    obtain ⟨hall, hnodup, -⟩ := hfold.mp ⟨uploads, h⟩
    rw [not_not, hexpected, List.length_map] at hlength
    refine ⟨hplanned, hlength, fun identity hmem => ?_, hnodup⟩
    obtain ⟨group, ⟨hgroup, hkey⟩, hmatches⟩ := hall identity hmem
    exact ⟨group, hgroup, hkey, hmatches⟩
  · rintro ⟨hplanned, hlength, hall, hnodup⟩
    obtain ⟨uploads, huploads⟩ := hfold.mpr ⟨fun identity hmem => by
      obtain ⟨group, hgroup, hkey, hmatches⟩ := hall identity hmem
      exact ⟨group, ⟨hgroup, hkey⟩, hmatches⟩, hnodup, fun _ _ => rfl⟩
    refine ⟨uploads,
      bind_eq_ok.mpr ⟨_, planGroups_eq_ok.mpr ⟨hplanned, rfl⟩, guard_eq_ok.mpr ⟨?_, huploads⟩⟩⟩
    rw [not_not, hexpected, List.length_map]
    exact hlength

end

section
variable {isDirectPut : δ → Bool} {destinations : String → Option δ}
    {prepared : TransferPrepareResponse}

theorem groups_apart_iff
    (hsources : (prepared.sources.map CompactTransferPlanSource.sourceID).Nodup)
    (hdestinations : (prepared.destinations.map PlanDestination.destinationID).Nodup) :
    KeptApart isDirectPut destinations prepared ↔
      ∀ group ∈ pairs isDirectPut destinations prepared,
        ∀ group' ∈ pairs isDirectPut destinations prepared,
        ¬ Clash group group' := by
  constructor
  · intro h group hgroup group' hgroup' hclash
    exact h.distinct group hgroup group' hgroup' hclash.ne (key_eq_iff.mpr (.inr (.inl hclash)))
  · intro hclash
    have hkeys := keys_nodup hsources hdestinations hclash
    constructor
    · intro group hgroup group' hgroup' hne heq
      obtain ⟨hdest, hsource, -⟩ | h | h := key_eq_iff.mp heq
      · exact hne (Prod.ext hsource hdest)
      · exact hclash group hgroup group' hgroup' h
      · exact hclash group' hgroup' group hgroup h
    · intro jobs hjobs workers steps pool hrun
      obtain ⟨-, rfl⟩ := planGroups_eq_ok.mp hjobs
      exact pool_closes hkeys hrun
    · exact fun identities => restored_iff hkeys

end

def atTwo (near far first second : String) : TransferPrepareResponse where
  transferID := "transfer-1"
  sources := [⟨first, 1, 1⟩, ⟨second, 1, 1⟩]
  destinations :=
    [⟨near, [(first, "data"), (second, "data")]⟩, ⟨far, [(first, "data"), (second, "data")]⟩]

def inParts : Unit → Bool := fun _ => false

theorem plain_apart : KeptApart inParts (fun _ => some ())
    (atTwo "dest-1" "dest-2" "source-1" "source-2") :=
  (groups_apart_iff (by decide) (by decide)).mpr fun group _ group' hgroup' hclash => by
    have hplain : ∀ group ∈ pairs inParts (fun _ => some ())
        (atTwo "dest-1" "dest-2" "source-1" "source-2"),
        ':' ∉ group.destinationID.toList ∧ ':' ∉ group.source.sourceID.toList := by decide
    obtain ⟨hdest, hsource⟩ := hplain group' hgroup'
    exact hclash.colon.elim hdest hsource

/-- The source `b:c` at the destination `a` is the source `c` at the destination `a:b`: the workers
close one channel twice. -/
theorem groups_collide :
    ((atTwo "a" "a:b" "c" "b:c").sources.map CompactTransferPlanSource.sourceID).Nodup ∧
    ((atTwo "a" "a:b" "c" "b:c").destinations.map PlanDestination.destinationID).Nodup ∧
    ¬ KeptApart inParts (fun _ => some ()) (atTwo "a" "a:b" "c" "b:c") := by
  refine ⟨by decide, by decide, fun h => ?_⟩
  have hclosed :=
    h.closed _
      (show _ = Except.ok [⟨⟨"c", 1, 1⟩, "a", (), "data"⟩, ⟨⟨"c", 1, 1⟩, "a:b", (), "data"⟩,
    ⟨⟨"b:c", 1, 1⟩, "a", (), "data"⟩, ⟨⟨"b:c", 1, 1⟩, "a:b", (), "data"⟩] from rfl)
    1 [.take, .close 0, .take, .close 0, .take, .close 0] _ rfl
  exact absurd hclosed.1 (by decide)

end Beam.Go.Groups
