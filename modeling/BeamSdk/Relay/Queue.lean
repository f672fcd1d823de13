import BeamSdk.Relay.Receipts

/-! What a pass looks up: the items its open requests and its listings ask for one after another, of
which one stays for each key. -/

namespace Beam.Relay
open Contract (Hashes RequestKind)

def prefer (existing : Option Pending) (item : Pending) : Pending :=
  match existing with
  | none => item
  | some existing => if existing.subject.requestId = none ∧
      item.subject.requestId ≠ none then item else existing

def pendingOf (items : List Pending) : PendingMap := items.foldl addPending []

section Keys
variable {pending pending' : PendingMap} {items before after : List Pending} {item x : Pending}
    {key : SubjectKey}

theorem get_addPending (pending : PendingMap) (item : Pending) (key : SubjectKey) :
    (addPending pending item).get key =
      if subjectKey item.subject = key then some (prefer (pending.get key) item)
        else pending.get key := by
  simp only [addPending]
  by_cases hkey : subjectKey item.subject = key
  · subst hkey
    rw [if_pos rfl]
    cases hget : pending.get (subjectKey item.subject) with
    | none => exact OrderedMap.get_set_self _ _ _
    | some existing =>
      simp only [prefer]
      split_ifs with hprefer
      · exact OrderedMap.get_set_self _ _ _
      · exact hget
  · rw [if_neg hkey]
    have hset := OrderedMap.get_set_of_ne pending (Ne.symm hkey) item
    split
    · exact hset
    · split_ifs
      · exact hset
      · rfl

structure Keyed (pending : PendingMap) : Prop where
  nodup : (pending.map Prod.fst).Nodup
  key : ∀ e ∈ pending, e.1 = subjectKey e.2.subject

theorem Keyed.addPending (h : Keyed pending) (item : Pending) :
    Keyed (addPending pending item) := by
  have hset : Keyed (pending.set (subjectKey item.subject) item) := by
    refine ⟨OrderedMap.nodup_set h.nodup _ _, fun e he => ?_⟩
    rcases OrderedMap.mem_set he with rfl | he
    · rfl
    · exact h.key e he
  simp only [Relay.addPending]
  split
  · exact hset
  · split_ifs
    · exact hset
    · exact h

theorem keyed_pendingOf (items : List Pending) : Keyed (pendingOf items) := by
  have hrun : ∀ pending, Keyed pending → Keyed (items.foldl addPending pending) := by
    induction items with
    | nil => exact fun _ h => h
    | cons item items ih => exact fun pending h => ih _ (h.addPending item)
  exact hrun [] ⟨List.nodup_nil, fun e he => absurd he List.not_mem_nil⟩

theorem mem_pendingOf : item ∈ (pendingOf items).map Prod.snd ↔
    (pendingOf items).get (subjectKey item.subject) = some item := by
  have h := keyed_pendingOf items
  rw [OrderedMap.get_eq_some h.nodup]
  constructor
  · intro hitem
    obtain ⟨e, he, rfl⟩ := List.mem_map.mp hitem
    rw [← h.key e he]
    exact he
  · exact fun he => List.mem_map.mpr ⟨_, he, rfl⟩

theorem subset_of_pendingOf (hitem : item ∈ (pendingOf items).map Prod.snd) : item ∈ items := by
  have hrun : ∀ pending, ∀ e ∈ items.foldl addPending pending, e.2 ∈ items ∨ e ∈ pending := by
    clear hitem
    induction items with
    | nil => exact fun _ _ he => .inr he
    | cons first items ih =>
      intro pending e he
      rcases ih _ e he with he | he
      · exact .inl (List.mem_cons_of_mem _ he)
      · rcases mem_addPending he with rfl | he
        · exact .inl (List.mem_cons_self ..)
        · exact .inr he
  obtain ⟨e, he, rfl⟩ := List.mem_map.mp hitem
  exact (hrun [] e he).resolve_right List.not_mem_nil

theorem get_foldl_eq_none : (items.foldl addPending pending).get key = none ↔
    pending.get key = none ∧ ∀ item ∈ items, subjectKey item.subject ≠ key := by
  induction items generalizing pending with
  | nil => simp
  | cons item items ih =>
    rw [List.foldl_cons, ih, get_addPending]
    by_cases hkey : subjectKey item.subject = key
    · simp [hkey]
    · simp [hkey]

theorem get_pendingOf_eq_none : (pendingOf items).get key = none ↔
    ∀ item ∈ items, subjectKey item.subject ≠ key := by
  rw [pendingOf, get_foldl_eq_none]
  exact and_iff_right rfl

theorem get_foldl_congr (h : ∀ key, pending'.get key = pending.get key) (items : List Pending)
    (key : SubjectKey) :
    (items.foldl addPending pending').get key = (items.foldl addPending pending).get key := by
  induction items generalizing pending pending' with
  | nil => exact h key
  | cons item items ih => exact ih fun key => by rw [get_addPending, get_addPending, h]

theorem addPending_of_claimed (hx : x.subject.requestId = none) {existing : Pending}
    (h : pending.get (subjectKey x.subject) = some existing) : addPending pending x = pending := by
  simp only [addPending, h, hx, ne_eq, not_true_eq_false, and_false, if_false]

/-- The key of `x` stays with `x`, and would else stay with nothing or with what names no request
id. -/
structure Displaces (x : Pending) (pending pending' : PendingMap) : Prop where
  others : ∀ key, key ≠ subjectKey x.subject → pending'.get key = pending.get key
  own : pending'.get (subjectKey x.subject) = some x
  plain : ∀ existing, pending.get (subjectKey x.subject) = some existing →
    existing.subject.requestId = none

theorem Displaces.first (h : pending.get (subjectKey x.subject) = none) :
    Displaces x pending (addPending pending x) where
  others key hkey := by rw [get_addPending, if_neg hkey.symm]
  own := by rw [get_addPending, if_pos rfl, h, prefer]
  plain existing he := by
    rw [h] at he
    cases he

theorem Displaces.add (h : Displaces x pending pending') (hx : x.subject.requestId = none)
    (hitem : subjectKey item.subject = subjectKey x.subject → item.subject.requestId = none) :
    Displaces x (addPending pending item) (addPending pending' item) := by
  refine ⟨fun key hkey => ?_, ?_, fun existing he => ?_⟩
  · rw [get_addPending, get_addPending, h.others key hkey]
  · rw [get_addPending, h.own]
    split_ifs with hkey
    · simp only [prefer, hx, hitem hkey, ne_eq, not_true_eq_false, and_false, if_false]
    · rfl
  · rw [get_addPending] at he
    split_ifs at he with hkey
    · cases hget : pending.get (subjectKey x.subject) with
      | none =>
        rw [hget] at he
        cases he
        exact hitem hkey
      | some first =>
        rw [hget] at he
        simp only [prefer, h.plain first hget, hitem hkey, ne_eq, not_true_eq_false, and_false,
          if_false] at he
        cases he
        exact h.plain _ hget
    · exact h.plain existing he

theorem Displaces.reclaimed (h : Displaces x pending pending') (hx : x.subject.requestId = none)
    (hkey : subjectKey item.subject = subjectKey x.subject) (hitem : item.subject.requestId ≠ none)
    (key : SubjectKey) :
    (addPending pending' item).get key = (addPending pending item).get key := by
  rw [get_addPending, get_addPending]
  split_ifs with hown
  · obtain rfl := hkey.symm.trans hown
    rw [h.own]
    cases hget : pending.get (subjectKey x.subject) with
    | none => simp only [prefer, hx, hitem, ne_eq, not_false_eq_true, and_self, if_true]
    | some first =>
        simp only [prefer, hx, h.plain first hget, hitem, ne_eq, not_false_eq_true,
          and_self, if_true]
  · exact h.others key fun heq => hown (hkey.trans heq.symm)

theorem get_pendingOf_claimed (hx : x.subject.requestId = none)
    (h : (∃ item ∈ before, subjectKey item.subject = subjectKey x.subject) ∨
      ∃ item ∈ after, subjectKey item.subject = subjectKey x.subject ∧
        item.subject.requestId ≠ none)
    (key : SubjectKey) : (pendingOf (before ++ x :: after)).get key =
      (pendingOf (before ++ after)).get key := by
  simp only [pendingOf, List.foldl_append, List.foldl_cons]
  cases hget : (before.foldl addPending []).get (subjectKey x.subject) with
  | some existing => rw [addPending_of_claimed hx hget]
  | none =>
    have hnone : ¬ ∃ item ∈ before, subjectKey item.subject = subjectKey x.subject := by
      rintro ⟨item, hitem, hkey⟩
      exact get_pendingOf_eq_none.mp hget item hitem hkey
    have hafter := h.resolve_left hnone
    have hrun : ∀ pending pending', Displaces x pending pending' →
        (after.foldl addPending pending').get key = (after.foldl addPending pending).get key := by
      clear h hget hnone
      induction after with
      | nil =>
        obtain ⟨_, hmem, -⟩ := hafter
        exact absurd hmem List.not_mem_nil
      | cons item after ih =>
        intro pending pending' hdisplaces
        rw [List.foldl_cons, List.foldl_cons]
        by_cases hclaims : subjectKey item.subject = subjectKey x.subject ∧
          item.subject.requestId ≠ none
        · exact get_foldl_congr (hdisplaces.reclaimed hx hclaims.1 hclaims.2) after key
        · refine ih ?_ _ _ (hdisplaces.add hx fun hkey => by_contra fun hid => hclaims ⟨hkey, hid⟩)
          obtain ⟨claiming, hmem, hclaiming⟩ := hafter
          rcases List.mem_cons.mp hmem with rfl | hmem
          · exact (hclaims hclaiming).elim
          · exact ⟨claiming, hmem, hclaiming⟩
    exact hrun _ _ (.first hget)

variable (before after) in
theorem displaces_pendingOf (hx : x.subject.requestId = none)
    (hbefore : ∀ item ∈ before, subjectKey item.subject ≠ subjectKey x.subject)
    (hafter : ∀ item ∈ after, subjectKey item.subject = subjectKey x.subject →
      item.subject.requestId = none) :
    Displaces x (pendingOf (before ++ after)) (pendingOf (before ++ x :: after)) := by
  simp only [pendingOf, List.foldl_append, List.foldl_cons]
  have hrun : ∀ pending pending', Displaces x pending pending' →
      Displaces x (after.foldl addPending pending) (after.foldl addPending pending') := by
    induction after with
    | nil => exact fun _ _ h => h
    | cons item after ih =>
      exact fun pending pending' h =>
        ih (fun item hitem => hafter item (List.mem_cons_of_mem _ hitem)) _ _
        (h.add hx (hafter item (List.mem_cons_self ..)))
  exact hrun _ _ (.first (get_pendingOf_eq_none.mpr hbefore))

end Keys

section Requests
variable (H : Hashes) (settings : RelaySettings) (customers : List Customer)

def requestItems (request : OpenRequest) : List Pending :=
  match openerOf settings customers request with
  | .owner owner =>
    match subjectForOpenRequest H settings.clientId settings.routes request with
    | .ok (some subject) => [⟨subject, owner, none, if owner = .beam then none else some request⟩]
    | _ => []
  | _ => []

def Gatherable (request : OpenRequest) : Prop :=
  ∀ owner, openerOf settings customers request = .owner owner →
    ∃ subject, subjectForOpenRequest H settings.clientId settings.routes request = .ok subject

variable {H settings customers} {request : OpenRequest} {requests : List OpenRequest}
    {gathered gathered' : Gathered}

theorem addRequest_pending (h : addRequest H settings customers gathered request = .ok gathered') :
    gathered'.pending =
      (requestItems H settings customers request).foldl addPending gathered.pending := by
  unfold addRequest at h
  unfold requestItems
  cases hopener : openerOf settings customers request with
  | stranger =>
    rw [hopener] at h
    cases h
    rfl
  | unanswerable organizationId =>
    rw [hopener] at h
    cases h
    rfl
  | owner owner =>
    rw [hopener] at h
    obtain ⟨subject, hsubject, h⟩ := bind_eq_ok.mp h
    simp only [hsubject]
    cases subject with
    | none =>
      cases h
      rfl
    | some subject =>
      cases h
      rfl

theorem gatherRequests_pending (h : gatherRequests H settings customers requests = .ok gathered) :
    gathered.pending = pendingOf (requests.flatMap (requestItems H settings customers)) := by
  have hrun : ∀ start, requests.foldlM (addRequest H settings customers) start = .ok gathered →
      gathered.pending =
        (requests.flatMap (requestItems H settings customers)).foldl addPending start.pending := by
    clear h
    induction requests with
    | nil =>
      intro start h
      cases h
      rfl
    | cons request requests ih =>
      intro start h
      obtain ⟨next, hnext, hrest⟩ := foldlM_cons_eq_ok.mp h
      rw [ih next hrest, addRequest_pending hnext, List.flatMap_cons, List.foldl_append]
  exact hrun _ h

theorem addRequest_ok_iff :
    (∃ gathered', addRequest H settings customers gathered request = .ok gathered') ↔
      Gatherable H settings customers request := by
  unfold addRequest Gatherable
  cases openerOf settings customers request with
  | stranger => exact ⟨fun _ => nofun, fun _ => ⟨_, rfl⟩⟩
  | unanswerable organizationId => exact ⟨fun _ => nofun, fun _ => ⟨_, rfl⟩⟩
  | owner owner =>
    constructor
    · rintro ⟨gathered', h⟩ _ -
      obtain ⟨subject, hsubject, -⟩ := bind_eq_ok.mp h
      exact ⟨subject, hsubject⟩
    · intro h
      obtain ⟨subject, hsubject⟩ := h owner rfl
      cases subject with
      | none => exact ⟨_, bind_eq_ok.mpr ⟨none, hsubject, rfl⟩⟩
      | some subject => exact ⟨_, bind_eq_ok.mpr ⟨some subject, hsubject, rfl⟩⟩

theorem gatherRequests_ok_iff :
    (∃ gathered, gatherRequests H settings customers requests = .ok gathered) ↔
      ∀ request ∈ requests, Gatherable H settings customers request := by
  have hrun : ∀ start,
      (∃ gathered, requests.foldlM (addRequest H settings customers) start = .ok gathered) ↔
      ∀ request ∈ requests, Gatherable H settings customers request := by
    induction requests with
    | nil => exact fun start => ⟨fun _ => nofun, fun _ => ⟨start, rfl⟩⟩
    | cons request requests ih =>
      intro start
      rw [List.forall_mem_cons]
      constructor
      · rintro ⟨gathered, h⟩
        obtain ⟨next, hnext, hrest⟩ := foldlM_cons_eq_ok.mp h
        exact ⟨addRequest_ok_iff.mp ⟨next, hnext⟩, (ih next).mp ⟨gathered, hrest⟩⟩
      · rintro ⟨hrequest, hrest⟩
        obtain ⟨next, hnext⟩ := addRequest_ok_iff.mpr hrequest
        obtain ⟨gathered, h⟩ := (ih next).mpr hrest
        exact ⟨gathered, foldlM_cons_eq_ok.mpr ⟨next, hnext, h⟩⟩
  exact hrun _

end Requests

def Listing.items (listing : Listing) : List Pending :=
  (listing.transfers.filter Prod.snd).map fun transfer => listedPending listing.customer transfer.1

theorem addListed_eq (listing : Listing) (pending : PendingMap) :
    addListed listing.customer pending listing.transfers =
      listing.items.foldl addPending pending := by
  unfold Listing.items addListed
  generalize listing.transfers = transfers
  induction transfers generalizing pending with
  | nil => rfl
  | cons transfer transfers ih =>
    obtain ⟨transfer, owed⟩ := transfer
    rw [List.foldl_cons, ih]
    cases owed <;> rfl

theorem mem_listing_items {listing : Listing} {item : Pending} (h : item ∈ listing.items) :
    ∃ transfer, (transfer, true) ∈ listing.transfers ∧
      item = listedPending listing.customer transfer := by
  obtain ⟨⟨transfer, owed⟩, htransfer, rfl⟩ := List.mem_map.mp h
  obtain ⟨hmem, howed⟩ := List.mem_filter.mp htransfer
  cases howed
  exact ⟨transfer, hmem, rfl⟩

end Beam.Relay
