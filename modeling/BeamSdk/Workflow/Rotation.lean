import Mathlib.Data.List.Rotate
import BeamSdk.Workflow.Budget

/-! The rotation of the cron handler: which open requests one slot reads, and how many slots read
them all. -/

namespace Beam.Workflow
open Contract (Bytes Bytes32 Hashes OpenOk)
open Relay (OpenRequest ReportEntry RoomRequestSubject Subject subjectForOpenRequest)

def cyclicWindow {α : Type} (xs : List α) (start size : ℕ) : List α := (xs.rotate start).take size

section Windows
variable {α : Type} {xs : List α} {size : ℕ}

theorem cyclicWindow_eq_pages (start : ℕ) (hstart : start ≤ xs.length) (hsize : size ≤ xs.length) :
    cyclicWindow xs start size =
      (xs.drop start).take size ++ (xs.drop 0).take
        (size - ((xs.drop start).take size).length) := by
  rw [cyclicWindow, List.rotate_eq_drop_append_take hstart, List.take_append, List.drop_zero,
    List.take_take, List.length_take,
    List.length_drop]
  congr 2
  omega

theorem mem_cyclicWindow {start i distance : ℕ} (hi : i < xs.length) (hdistance : distance < size)
    (hreach : (distance + start) % xs.length = i) : xs[i] ∈ cyclicWindow xs start size := by
  by_cases hlength : distance < xs.length
  · have hrotated : distance < (xs.rotate start).length := by rwa [List.length_rotate]
    have hget : (xs.rotate start)[distance] = xs[i] := by
      rw [List.getElem_rotate]
      simp only [hreach]
    rw [← hget]
    exact List.mem_take_iff_getElem.mpr ⟨distance, by omega, rfl⟩
  · have hall : (xs.rotate start).take size = xs.rotate start := by
      apply List.take_of_length_le
      rw [List.length_rotate]
      omega
    rw [cyclicWindow, hall, List.mem_rotate]
    exact List.getElem_mem hi

theorem exists_window (first : ℕ) {i : ℕ} (hsize : 0 < size) (hi : i < xs.length) :
    ∃ turn < (xs.length + size - 1) / size,
      xs[i] ∈ cyclicWindow xs ((first + turn) * size) size := by
  let away := (i + xs.length - first * size % xs.length) % xs.length
  have haway : away < xs.length := Nat.mod_lt _ (by omega)
  have hreach : (away + first * size) % xs.length = i := by
    have hmod : first * size % xs.length < xs.length := Nat.mod_lt _ (by omega)
    calc (away + first * size) % xs.length
        = ((i + xs.length - first * size % xs.length) + first * size % xs.length) % xs.length := by
          rw [Nat.mod_add_mod, Nat.add_mod_mod]
      _ = (i + xs.length) % xs.length := by congr 1; omega
      _ = i := by rw [Nat.add_mod_right, Nat.mod_eq_of_lt hi]
  have hturn : away / size < (xs.length + size - 1) / size := by
    rw [Nat.div_lt_iff_lt_mul hsize]
    have hceil : xs.length + size - 1 < (xs.length + size - 1) / size * size + size :=
      Nat.lt_div_mul_add hsize
    omega
  refine ⟨away / size, hturn, mem_cyclicWindow hi (Nat.mod_lt away hsize) ?_⟩
  have hsplit : away % size + (first + away / size) * size = away + first * size := by
    have hdiv := Nat.mod_add_div' away size
    rw [Nat.add_mul]
    omega
  rw [hsplit, hreach]

theorem cyclicWindow_normal (start : ℕ) :
    cyclicWindow xs (start % xs.length) (min xs.length size) = cyclicWindow xs start size := by
  have hlength : (xs.rotate start).length = xs.length := List.length_rotate xs start
  rw [cyclicWindow, List.rotate_mod, cyclicWindow, Nat.min_comm, ← hlength, ← List.take_eq_take_min]

theorem length_cyclicWindow (start : ℕ) : (cyclicWindow xs start size).length =
    min xs.length size := by
  rw [cyclicWindow, List.length_take, List.length_rotate, Nat.min_comm]

theorem nodup_cyclicWindow (h : xs.Nodup) (start : ℕ) : (cyclicWindow xs start size).Nodup :=
  (List.nodup_rotate.mpr h).sublist (List.take_sublist _ _)

end Windows

section Chain
variable {H : Hashes} {s : Contract.State} {config : Config} {text : Bytes → String}
  {answers : (c : Call) → Except Failure c.Answer}

def openSet (s : Contract.State) (text : Bytes → String) : List OpenRequest :=
  (s.openKeys.map s.openRequests).map (openRequestOf text)

/-- The contract answers the views, from a state that does not change; the rest is answered anyhow.
-/
def onChain (s : Contract.State) (text : Bytes → String)
    (answers : (c : Call) → Except Failure c.Answer) :
    (c : Call) → Except Failure c.Answer
  | .openRequestCount _ _ => .ok (some (BitVec.ofNat 256 s.openRequestCount))
  | .openRequests _ _ offset limit =>
    .ok (some ((s.openRequestsPage offset.toNat limit.toNat).map (openRequestOf text)))
  | c => answers c

def Call.isPage : Call → Bool
  | .openRequests _ _ _ _ => true
  | _ => false

def Call.page : (c : Call) → Except Failure c.Answer → List OpenRequest
  | .openRequests _ _ _ _, .ok (some page) => page
  | _, _ => []

def pagesRead (answers : (c : Call) → Except Failure c.Answer) (calls : List Call) :
    List OpenRequest :=
  calls.flatMap fun c => c.page (answers c)

theorem length_openSet (s : Contract.State) (text : Bytes → String) :
    (openSet s text).length = s.openRequestCount := by
  rw [openSet, List.length_map, List.length_map, Contract.State.openRequestCount]

theorem nodup_openSet (h : OpenOk H s) : (openSet s text).Nodup := by
  have hkeys : (openSet s text).map OpenRequest.key = s.openKeys := by
    rw [openSet, List.map_map, List.map_map]
    exact (List.map_congr_left fun k hk => (h.listed k hk).1).trans (List.map_id _)
  apply List.Nodup.of_map OpenRequest.key
  rw [hkeys]
  exact h.slots.nodup

theorem readOpenRequests_run (receipts : Receipts) {offset limit : ℕ} (hoffset : offset < 2 ^ 256)
    (hlimit : limit < 2 ^ 256) :
    ∃ calls, (readOpenRequests receipts offset limit).run (onChain s text answers) =
        (.ok (((openSet s text).drop offset).take limit), calls) ∧
      calls.countP Call.isPage = 1 ∧
      pagesRead (onChain s text answers) calls = ((openSet s text).drop offset).take limit := by
  have hword {n : ℕ} (hn : n < 2 ^ 256) : toUint256 (n : ℤ) = pure (BitVec.ofNat 256 n) := by
    unfold toUint256
    rw [if_pos (by omega), BitVec.ofInt_natCast]
  have hpage :
      (s.openRequestsPage (BitVec.ofNat 256 offset).toNat (BitVec.ofNat 256 limit).toNat).map
        (openRequestOf text) =
      ((openSet s text).drop offset).take limit := by
    rw [BitVec.toNat_ofNat, BitVec.toNat_ofNat, Nat.mod_eq_of_lt hoffset, Nat.mod_eq_of_lt hlimit,
      Contract.openRequestsPage_eq, openSet]
    simp only [List.map_take, List.map_drop]
  rw [readOpenRequests, hword hoffset, hword hlimit, ← hpage]
  simp only [Script.pure_bind']
  refine ⟨[.openRequests receipts.chain receipts.address (BitVec.ofNat 256 offset)
    (BitVec.ofNat 256 limit)], rfl, rfl, ?_⟩
  exact List.flatMap_singleton _ _

theorem pagesRead_append (calls calls' : List Call) :
    pagesRead answers (calls ++ calls') = pagesRead answers calls ++ pagesRead answers calls' :=
      List.flatMap_append

theorem readWindow_run (h : OpenOk H s) (hopen : s.openRequestCount ≠ 0) (receipts : Receipts)
    {scheduledSeconds : ℤ}
    {slot : ℕ} (hslot : slotOf config scheduledSeconds = slot) :
    ∃ calls, (readWindow config receipts (BitVec.ofNat 256 s.openRequestCount) scheduledSeconds).run
      (onChain s text answers) =
        (.ok (cyclicWindow (openSet s text) (slot * config.reconcileBatchSize % s.openRequestCount)
          (min s.openRequestCount config.reconcileBatchSize)), calls) ∧
      calls.countP Call.isPage ≤ 2 ∧
      pagesRead (onChain s text answers) calls =
        cyclicWindow (openSet s text) (slot * config.reconcileBatchSize % s.openRequestCount)
          (min s.openRequestCount config.reconcileBatchSize) := by
  have hcount : s.openRequestCount < 2 ^ 256 := lt_of_le_of_lt h.bounded (by decide)
  have htotal : (BitVec.ofNat 256 s.openRequestCount).toNat = s.openRequestCount := by
    rw [BitVec.toNat_ofNat, Nat.mod_eq_of_lt hcount]
  have hsize : (if s.openRequestCount < config.reconcileBatchSize then s.openRequestCount
      else config.reconcileBatchSize) =
      min s.openRequestCount config.reconcileBatchSize := by
    split_ifs <;> omega
  have hstart :
      (slotOf config scheduledSeconds * config.reconcileBatchSize).tmod s.openRequestCount =
      ((slot * config.reconcileBatchSize % s.openRequestCount : ℕ) : ℤ) := by
    rw [hslot, ← Nat.cast_mul, Int.ofNat_tmod]
  have hlt : slot * config.reconcileBatchSize % s.openRequestCount < s.openRequestCount :=
    Nat.mod_lt _ (by omega)
  unfold readWindow
  simp only [htotal, hsize, hstart]
  generalize slot * config.reconcileBatchSize % s.openRequestCount = start at hlt ⊢
  generalize hmin : min s.openRequestCount config.reconcileBatchSize = size
  have hsizele : size ≤ s.openRequestCount := by omega
  have hlength := length_openSet s text
  have hpages : cyclicWindow (openSet s text) start size =
      ((openSet s text).drop start).take size ++
      ((openSet s text).drop 0).take (size - (((openSet s text).drop start).take size).length) :=
    cyclicWindow_eq_pages start (by omega) (by omega)
  obtain ⟨first, hfirst, hone, hread⟩ := @readOpenRequests_run s text answers receipts _ _
    (hlt.trans hcount) (hsizele.trans_lt hcount)
  rw [Script.run_bind hfirst, hpages]
  generalize ((openSet s text).drop start).take size = page at hpages hread ⊢
  by_cases hshort : page.length < size
  · have hrest : ((size : ℤ) - page.length) = ((size - page.length : ℕ) : ℤ) := by omega
    obtain ⟨second, hsecond, hone', hread'⟩ := @readOpenRequests_run s text answers receipts _ _
      (by decide : (0 : ℕ) < 2 ^ 256) (by omega : size - page.length < 2 ^ 256)
    rw [if_pos hshort, hrest, ← Nat.cast_zero, Script.run_bind hsecond]
    refine ⟨first ++ (second ++ []), rfl, ?_, ?_⟩
    · rw [List.append_nil, List.countP_append, hone, hone']
    · rw [List.append_nil, pagesRead_append, hread, hread']
  · rw [if_neg hshort, Nat.sub_eq_zero_of_le (by omega), List.take_zero, List.append_nil]
    refine ⟨first ++ [], rfl, ?_, ?_⟩
    · rw [List.append_nil, hone]
      exact Nat.le_succ 1
    · rw [List.append_nil, hread]

def Pageless {α : Type} (program : Program α) : Prop :=
    program.Uses fun c : Call => c.isPage = false

theorem Pageless.pagesRead {α : Type} {program : Program α} (h : Pageless program)
    (answers : (c : Call) → Except Failure c.Answer) :
    (program.run answers).2.countP Call.isPage = 0 ∧
      pagesRead answers (program.run answers).2 = [] := by
  have hcalls : ∀ c ∈ (program.run answers).2, c.isPage = false := fun c hc =>
    (show program.Uses fun c : Call => c.isPage = false from h).of_mem_run hc
  refine ⟨List.countP_eq_zero.mpr fun c hc => by rw [hcalls c hc]; exact Bool.false_ne_true, ?_⟩
  refine List.flatMap_eq_nil_iff.mpr fun c hc => ?_
  have hpage := hcalls c hc
  cases c with
  | openRequests chain receipts offset limit => cases hpage
  | _ => rfl

theorem evmClientFor_pageless (name : String) : Pageless (evmClientFor name) := by
  refine Script.Uses.bind (.io rfl) fun chain => ?_
  cases chain <;> trivial

theorem scheduledSecondsOf_pageless (scheduledExecutionTime : Option ℤ) :
    Pageless (scheduledSecondsOf scheduledExecutionTime) := by
  cases scheduledExecutionTime with
  | some seconds => trivial
  | none => exact Script.Uses.bind (.io rfl) fun _ => trivial

theorem secretOf_pageless (secrets : OrderedMap String String) (id : String) :
    Pageless (secretOf secrets id) := by
  unfold secretOf
  split <;> trivial

theorem credentialsFor_pageless (needsRoom : Bool) : Pageless (credentialsFor needsRoom) := by
  refine Script.Uses.bind (.io rfl) fun secrets =>
    Script.Uses.bind (secretOf_pageless _ _) fun apiKey => ?_
  refine Script.Uses.bind ?_ fun _ => trivial
  split
  · exact secretOf_pageless _ _
  · trivial

variable {credentials : Credentials}

theorem observeSubject_pageless (subject : Subject) :
    Pageless (observeSubject config credentials subject) := by
  cases subject with
  | transfer subject => exact .io rfl
  | room subject => exact .io rfl
  | roomRequest subject => trivial
  | job subject => trivial

theorem lookUp_pageless (lookup : RoomRequestSubject) :
    Pageless (lookUp config credentials lookup) :=
  Script.Uses.bind (.ofExcept _) fun _ => .io rfl

theorem recordObserved_pageless (entries : List ReportEntry) (subject : Subject) :
    Pageless (recordObserved H config credentials entries subject) :=
  Script.Uses.bind (observeSubject_pageless subject) fun _ =>
    Script.Uses.bind (.ofExcept _) fun _ => trivial

theorem recordSubject_pageless (confirmed : Bool) (entries : List ReportEntry) (subject : Subject) :
    Pageless (recordSubject H config credentials confirmed entries subject) := by
  cases subject with
  | transfer subject =>
    rw [recordSubject]
    split
    · trivial
    · exact recordObserved_pageless entries _
  | room subject => exact recordObserved_pageless entries _
  | roomRequest subject =>
    refine Script.Uses.bind (lookUp_pageless subject) fun lookup => ?_
    split
    · exact recordObserved_pageless entries _
    · trivial
  | job subject =>
    refine Script.Uses.bind (lookUp_pageless _) fun input => ?_
    split
    · refine Script.Uses.bind (lookUp_pageless _) fun output => ?_
      split
      · exact Script.Uses.bind (observeSubject_pageless _) fun _ =>
          Script.Uses.bind (observeSubject_pageless _) fun _ =>
            Script.Uses.bind (.ofExcept _) fun _ => trivial
      · trivial
    · trivial

theorem writeReceiptReport_pageless (body : Contract.Report) :
    Pageless (writeReceiptReport config body) := by
  refine Script.Uses.bind (.io rfl) fun _ =>
    Script.Uses.bind (evmClientFor_pageless _) fun chain => ?_
  refine Script.Uses.bind (.io rfl) fun reply => ?_
  split
  · trivial
  · split <;> trivial

theorem recordReceipts_pageless (requested : List Subject) (source : String) :
    Pageless (recordReceipts H config requested source) := by
  unfold recordReceipts
  simp only
  split
  · trivial
  · refine Script.Uses.bind (credentialsFor_pageless _) fun credentials =>
      Script.Uses.bind ?_ fun confirmed => ?_
    · split
      · exact Script.Uses.bind (.io rfl) fun _ => trivial
      · trivial
    · refine Script.Uses.bind (.foldlM _ fun subject _ entries =>
        recordSubject_pageless confirmed entries subject) fun entries => ?_
      split
      · trivial
      · exact Script.Uses.bind (writeReceiptReport_pageless _) fun _ => trivial

theorem onReconcile_run (h : OpenOk H s) (hopen : s.openRequestCount ≠ 0)
    {scheduledExecutionTime : Option ℤ} {chain : ℕ}
    {scheduledSeconds : ℤ} {slot : ℕ}
    (hchain : answers (.getNetwork config.evm.chainSelectorName) = .ok (some chain))
    (hseconds : ((scheduledSecondsOf scheduledExecutionTime).run answers).1 = .ok scheduledSeconds)
    (hslot : slotOf config scheduledSeconds = slot) :
    ((onReconcile H config scheduledExecutionTime).run (onChain s text answers)).2.countP
      Call.isPage ≤ 2 ∧
      pagesRead (onChain s text answers)
        ((onReconcile H config scheduledExecutionTime).run (onChain s text answers)).2 =
        cyclicWindow (openSet s text) (slot * config.reconcileBatchSize % s.openRequestCount)
          (min s.openRequestCount config.reconcileBatchSize) := by
  have hnetwork : (evmClientFor config.evm.chainSelectorName).run (onChain s text answers) =
      (.ok chain, [.getNetwork config.evm.chainSelectorName]) := by
    have hanswer : (io (.getNetwork config.evm.chainSelectorName)).run (onChain s text answers) =
        (.ok (some chain), [.getNetwork config.evm.chainSelectorName]) := Script.run_io hchain
    rw [evmClientFor, Script.run_bind hanswer]
    rfl
  have htotal : (readOpenRequestCount ⟨chain, config.evm.receiptsAddress⟩).run
      (onChain s text answers) =
      (.ok (BitVec.ofNat 256 s.openRequestCount),
        [.openRequestCount chain config.evm.receiptsAddress]) := rfl
  have hsome : ¬ BitVec.ofNat 256 s.openRequestCount = 0 := by
    intro hzero
    have hcount : s.openRequestCount < 2 ^ 256 := lt_of_le_of_lt h.bounded (by decide)
    have htoNat := congrArg BitVec.toNat hzero
    rw [BitVec.toNat_ofNat, Nat.mod_eq_of_lt hcount] at htoNat
    exact hopen htoNat
  have hscheduled : ((scheduledSecondsOf scheduledExecutionTime).run (onChain s text answers)).1 =
      .ok scheduledSeconds := by
    rw [← hseconds]
    cases scheduledExecutionTime with
    | some seconds => rfl
    | none =>
      rw [scheduledSecondsOf, Script.run_bind_fst, Script.run_bind_fst, io, Script.run_io_eq,
        Script.run_io_eq]
      rfl
  obtain ⟨calls, hwindow, htwo, hpages⟩ := @readWindow_run H s config text answers h hopen
    ⟨chain, config.evm.receiptsAddress⟩ _ _ hslot
  obtain ⟨hfew, hnone⟩ :=
    (scheduledSecondsOf_pageless scheduledExecutionTime).pagesRead (onChain s text answers)
  rw [onReconcile, Script.run_bind hnetwork, Script.run_bind htotal, if_neg hsome,
    Script.run_bind (Prod.ext hscheduled rfl),
    Script.run_bind hwindow]
  generalize cyclicWindow (openSet s text) _ _ = window at hpages ⊢
  have hrest :
      Pageless (throwing
        (window.mapM (subjectForOpenRequest H config.beamClientId config.routes)) >>=
        fun subjects =>
      recordReceipts H config (subjects.filterMap id) "reconcile") :=
    Script.Uses.bind (.ofExcept _) fun _ => recordReceipts_pageless _ _
  obtain ⟨hnoMore, hnothing⟩ := hrest.pagesRead (onChain s text answers)
  simp only [pagesRead_append, List.countP_append]
  refine ⟨?_, ?_⟩
  · rw [hfew, hnoMore]
    show 0 + (0 + (0 + (calls.countP Call.isPage + 0))) ≤ 2
    omega
  · rw [hnone, hnothing, hpages, List.append_nil]
    rfl

end Chain

/-- The page reads of a run of the cron handler, two at most, give the slot's window of the open
set, without repeats; the windows of enough slots in a row give all of the set; and the view
computes every page without overflow. -/
theorem reconcile_rotates {H : Hashes} {s : Contract.State} (h : (Contract.contract H).Reachable s)
    (config : Config)
    (text : Bytes → String) :
    (∀ (answers : (c : Call) → Except Failure c.Answer) (scheduledExecutionTime : Option ℤ)
      (chain : ℕ) (scheduledSeconds : ℤ)
      (slot : ℕ), answers (.getNetwork config.evm.chainSelectorName) = .ok (some chain) →
        ((scheduledSecondsOf scheduledExecutionTime).run answers).1 = .ok scheduledSeconds →
          slotOf config scheduledSeconds = slot → s.openRequestCount ≠ 0 →
            ((onReconcile H config scheduledExecutionTime).run (onChain s text answers)).2.countP
              Call.isPage ≤ 2 ∧
              pagesRead (onChain s text answers)
                  ((onReconcile H config scheduledExecutionTime).run (onChain s text answers)).2 =
                cyclicWindow (openSet s text)
                  (slot * config.reconcileBatchSize % s.openRequestCount)
                  (min s.openRequestCount config.reconcileBatchSize)) ∧
      (∀ (answers : (c : Call) → Except Failure c.Answer) (receipts : Receipts)
        (scheduledSeconds : ℤ) (slot : ℕ),
        slotOf config scheduledSeconds = slot → s.openRequestCount ≠ 0 →
          ((readWindow config receipts (BitVec.ofNat 256 s.openRequestCount) scheduledSeconds).run
            (onChain s text answers)).1 =
              .ok (cyclicWindow (openSet s text)
                (slot * config.reconcileBatchSize % s.openRequestCount)
                (min s.openRequestCount config.reconcileBatchSize))) ∧
      (∀ start,
        (cyclicWindow (openSet s text) start
          (min s.openRequestCount config.reconcileBatchSize)).Nodup ∧
        (cyclicWindow (openSet s text) start
          (min s.openRequestCount config.reconcileBatchSize)).length =
          min s.openRequestCount config.reconcileBatchSize) ∧
      (∀ first request, request ∈ openSet s text ↔
        ∃ turn < (s.openRequestCount + config.reconcileBatchSize - 1) / config.reconcileBatchSize,
          request ∈ cyclicWindow (openSet s text)
            ((first + turn) * config.reconcileBatchSize % s.openRequestCount)
            (min s.openRequestCount config.reconcileBatchSize)) ∧
      ∀ offset limit : BitVec 256,
        s.checkedOpenRequests offset.toNat limit.toNat =
          some (s.openRequestsPage offset.toNat limit.toNat) := by
  have hok : OpenOk H s := (Contract.reachable_refines h).1
  refine ⟨fun answers scheduledExecutionTime chain scheduledSeconds slot hchain hseconds
    hslot hopen =>
      onReconcile_run hok hopen hchain hseconds hslot,
    fun answers receipts scheduledSeconds slot hslot hopen => ?_,
    fun start => ⟨nodup_cyclicWindow (nodup_openSet hok) start, ?_⟩, fun first request =>
      ⟨fun hrequest => ?_, ?_⟩,
    fun offset limit => ?_⟩
  · obtain ⟨calls, hrun, -⟩ := @readWindow_run H s config text answers hok hopen receipts _ _ hslot
    rw [hrun]
  · rw [length_cyclicWindow, length_openSet]
    omega
  · obtain ⟨i, hi, rfl⟩ := List.getElem_of_mem hrequest
    obtain ⟨turn, hturn, hmem⟩ := exists_window first config.batch_pos hi
    rw [length_openSet] at hturn
    refine ⟨turn, hturn, ?_⟩
    rw [← length_openSet s text, cyclicWindow_normal]
    exact hmem
  · rintro ⟨turn, -, hmem⟩
    exact List.mem_rotate.mp (List.mem_of_mem_take hmem)
  · exact Contract.checkedOpenRequests_eq (lt_of_le_of_lt hok.bounded (by decide)) _ _

section Sample

def rotatingConfig : Config :=
  { sampleConfig with reconcileBatchSize := 2, batch_pos := by decide, batch_cost := by decide }

/-- Three open requests, two at a time: the second slot wraps. -/
theorem sample_rotates :
    pagesRead (onChain Contract.sampleRequested sampleText sampleAnswers)
        ((onReconcile Contract.sampleHashes rotatingConfig (some 600)).run
          (onChain Contract.sampleRequested sampleText sampleAnswers)).2 =
      cyclicWindow (openSet Contract.sampleRequested sampleText)
        (1 * 2 % Contract.sampleRequested.openRequestCount)
        (min Contract.sampleRequested.openRequestCount 2) := by
  have h := reconcile_rotates Contract.sampleRequested_reachable rotatingConfig sampleText
  exact (h.1 sampleAnswers (some 600) 1 600 1 rfl rfl (by decide) (by decide +kernel)).2

end Sample
end Beam.Workflow
