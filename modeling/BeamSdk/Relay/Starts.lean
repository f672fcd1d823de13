import Mathlib.Data.List.Sort
import BeamSdk.Relay.Interface

/-! Starts: delivering the `TransferRequested` logs up to the finalized block to Studio, and the
cursor that says which blocks are done. -/

namespace Beam.Relay
open Contract (TransferKind)

def TransferRequestLog.before (a b : TransferRequestLog) : Prop :=
  a.blockNumber < b.blockNumber ∨ (a.blockNumber = b.blockNumber ∧ a.logIndex ≤ b.logIndex)

instance (a b : TransferRequestLog) : Decidable (a.before b) := inferInstanceAs (Decidable (_ ∨ _))

instance : Std.Total TransferRequestLog.before where
  total a b := by
    unfold TransferRequestLog.before
    omega

instance : IsTrans TransferRequestLog TransferRequestLog.before where
  trans a b c := by
    unfold TransferRequestLog.before
    omega

/-- The workflow a kind is delivered to; `none` is a kind this deployment does not start. -/
def workflowFor (routes : DeploymentRoutes) (kind : UInt8) : Option Workflow :=
  if kind = TransferKind.standard.code then some .transfer
  else if (kind = TransferKind.roomDelivery.code ∧ routes.roomDelivery.isSome) ∨
      (kind = TransferKind.job.code ∧ routes.roomDelivery.isSome ∧ routes.jobOutput.isSome)
        then some .room
  else none

/-- The logs of one window: whether Studio became unavailable, and how many were accepted so far. -/
def deliverLogs (settings : RelaySettings) : List TransferRequestLog → ℕ → Program (Bool × ℕ)
  | [], delivered => pure (false, delivered)
  | request :: rest, delivered =>
    match workflowFor settings.routes request.kind with
    | none => deliverLogs settings rest delivered
    | some workflow => io (.deliver request workflow) >>= fun
      | .unavailable _ => do
        io (.saveCursor request.blockNumber)
        pure (true, delivered)
      | .refused _ _ => deliverLogs settings rest delivered
      | .accepted _ => deliverLogs settings rest (delivered + 1)

/-- The last block of the window that starts at `next`. -/
def windowEnd (settings : RelaySettings) (finalized next : ℕ) : ℕ :=
  if next + settings.logRangeBlocks - 1 < finalized then next + settings.logRangeBlocks - 1
    else finalized

theorem le_windowEnd (settings : RelaySettings) {finalized next : ℕ} (h : next ≤ finalized) :
    next ≤ windowEnd settings finalized next := by
  have := settings.logRangeBlocks_pos
  unfold windowEnd
  split_ifs <;> omega

theorem windowEnd_le (settings : RelaySettings) (finalized next : ℕ) :
    windowEnd settings finalized next ≤ finalized := by
  unfold windowEnd
  split_ifs <;> omega

def runWindows (settings : RelaySettings) (finalized next delivered : ℕ) : Program ℕ :=
  if h : next ≤ finalized then
    let toBlock := windowEnd settings finalized next
    have : next ≤ toBlock := le_windowEnd settings h
    io (.transferRequests next toBlock) >>= fun logs =>
      deliverLogs settings (logs.insertionSort TransferRequestLog.before) delivered >>=
        fun result =>
        if result.1 then pure result.2
        else io (.saveCursor (toBlock + 1)) >>= fun _ =>
          runWindows settings finalized (toBlock + 1) result.2
  else pure delivered
termination_by finalized + 1 - next

def runStarts (settings : RelaySettings) (finalized : ℕ) : Program ℕ :=
  io .readCursor >>= fun cursor => runWindows settings finalized (cursor.getD settings.startBlock) 0

/-- The cursor file, the finalized head the current run works up to, every delivery that was
answered and those of the current run, oldest first. -/
structure StartsWorld where
  cursor : Option ℕ
  finalized : ℕ
  deliveries : List (TransferRequestLog × StudioOutcome)
  run : List (TransferRequestLog × StudioOutcome)

def StudioOutcome.settled : StudioOutcome → Prop
  | .accepted _ | .refused _ _ => True
  | .unavailable _ => False

def StartsWorld.delivered (w : StartsWorld) (request : TransferRequestLog)
    (outcome : StudioOutcome) : StartsWorld :=
  { w with deliveries := w.deliveries ++ [(request, outcome)], run := w.run ++
    [(request, outcome)] }

def StartsWorld.saved (w : StartsWorld) (nextBlock : ℕ) : StartsWorld :=
    { w with cursor := some nextBlock }

/-- Any call may throw. A save that throws may have replaced the file, and the logs of finalized
blocks are those of the chain, in any order. -/
def startsEnv (chain : TransferRequestLog → Prop) (w : StartsWorld) :
    (c : RelayCall) → Except Thrown c.Answer → StartsWorld → Prop
  | .readCursor, .ok cursor, w' => cursor = w.cursor ∧ w' = w
  | .transferRequests fromBlock toBlock, .ok logs, w' => w' = w ∧ (toBlock ≤ w.finalized →
      ∀ x, x ∈ logs ↔ chain x ∧ fromBlock ≤ x.blockNumber ∧ x.blockNumber ≤ toBlock)
  | .deliver request _, .ok outcome, w' => w' = w.delivered request outcome
  | .saveCursor nextBlock, .ok _, w' => w' = w.saved nextBlock
  | .saveCursor nextBlock, .error _, w' => w' = w ∨ w' = w.saved nextBlock
  | _, _, w' => w' = w

/-- A relay that is started, stopped and crashed at will, the finalized head never moving back. -/
def startsMachine (settings : RelaySettings) (chain : TransferRequestLog → Prop) :
    Machine StartsWorld RelayCall RelayCall.Answer Thrown ℕ where
  init w := w.cursor = none ∧ w.deliveries = [] ∧ w.run = []
  env := startsEnv chain
  starts w s w' := ∃ finalized ≥ w.finalized,
    s = runStarts settings finalized ∧ w' = { w with finalized := finalized, run := [] }
  stops w w' := w' = w

section Runs
variable {settings : RelaySettings} {chain : TransferRequestLog → Prop} {w : StartsWorld}

def StartsWorld.Answered (w : StartsWorld) (log : TransferRequestLog) : Prop :=
  ∃ outcome, (log, outcome) ∈ w.deliveries ∧ outcome.settled

variable (settings chain) in
/-- Every log this deployment starts, from the first block up to `n`, was answered. -/
def StartsWorld.Covered (w : StartsWorld) (n : ℕ) : Prop :=
  ∀ log, chain log → settings.startBlock ≤ log.blockNumber → log.blockNumber < n →
    (workflowFor settings.routes log.kind).isSome → w.Answered log

variable (settings chain) in
structure StartsOk (w : StartsWorld) : Prop where
  covered : ∀ n, w.cursor = some n → w.Covered settings chain n
  bounded : ∀ n, w.cursor = some n → n ≤ w.finalized + 1
  ordered : (w.run.map Prod.fst).Pairwise TransferRequestLog.before

def StartsGuard (w : StartsWorld) : RelayCall → Prop
  | .saveCursor nextBlock => ∀ n, w.cursor = some n → n ≤ nextBlock
  | _ => True

variable (settings) in
def StartsWorld.Finished (w : StartsWorld) : Prop :=
  (∃ d ∈ w.run, ¬ d.2.settled) ∨ w.cursor.getD settings.startBlock = w.finalized + 1 ∨
    (w.cursor = none ∧ w.finalized + 1 < settings.startBlock)

theorem StartsWorld.Answered.delivered {log : TransferRequestLog} (h : w.Answered log)
    (request : TransferRequestLog) (outcome : StudioOutcome) :
      (w.delivered request outcome).Answered log := by
  obtain ⟨o, hmem, hset⟩ := h
  exact ⟨o, List.mem_append_left _ hmem, hset⟩

theorem StartsOk.delivered (h : StartsOk settings chain w) {request : TransferRequestLog}
    (hb : ∀ d ∈ w.run, d.1.before request) (outcome : StudioOutcome) :
    StartsOk settings chain (w.delivered request outcome) where
  covered n hn log hlog hstart hlt hkind := (h.covered n hn log hlog hstart hlt hkind).delivered _ _
  bounded := h.bounded
  ordered := by
    rw [StartsWorld.delivered, List.map_append, List.pairwise_append]
    refine ⟨h.ordered, List.pairwise_singleton _ _, ?_⟩
    rintro _ hmem _ hr
    obtain ⟨d, hd, rfl⟩ := List.mem_map.mp hmem
    rw [List.mem_singleton.mp hr]
    exact hb d hd

theorem StartsOk.saved (h : StartsOk settings chain w) {n : ℕ} (hc : w.Covered settings chain n)
    (hn : n ≤ w.finalized + 1) : StartsOk settings chain (w.saved n) where
  covered _ hm := Option.some.inj hm ▸ hc
  bounded _ hm := Option.some.inj hm ▸ hn
  ordered := h.ordered

variable (settings chain) in
/-- Where a run stands before the window that starts at `next`. -/
structure AtWindow (next : ℕ) (w : StartsWorld) : Prop where
  cursor : w.cursor = some next ∨ (w.cursor = none ∧ next = settings.startBlock)
  covered : w.Covered settings chain next
  available : ∀ d ∈ w.run, d.2.settled
  earlier : ∀ d ∈ w.run, d.1.blockNumber < next

variable (settings chain) in
/-- Where a run stands inside a window, with the logs `rest` to go. -/
structure InWindow (finalized next toBlock : ℕ) (passed rest : List TransferRequestLog)
    (w : StartsWorld) : Prop where
  cursor : w.cursor = some next ∨ (w.cursor = none ∧ next = settings.startBlock)
  covered : w.Covered settings chain next
  available : ∀ d ∈ w.run, d.2.settled
  within : ∀ d ∈ w.run, d.1.blockNumber ≤ toBlock
  head : w.finalized = finalized
  answered : ∀ log ∈ passed, (workflowFor settings.routes log.kind).isSome → w.Answered log
  before : ∀ d ∈ w.run, ∀ log ∈ rest, d.1.before log

variable {finalized next toBlock : ℕ} {passed rest : List TransferRequestLog}
    {request : TransferRequestLog}

theorem InWindow.guard (h : InWindow settings chain finalized next toBlock passed rest w)
    {nextBlock : ℕ}
    (hle : next ≤ nextBlock) : StartsGuard w (.saveCursor nextBlock) := by
  intro n hn
  rcases h.cursor with hc | ⟨hc, -⟩
  · rw [hc] at hn
    exact Option.some.inj hn ▸ hle
  · rw [hc] at hn
    cases hn

theorem InWindow.covered_block
    (h : InWindow settings chain finalized next toBlock passed (request :: rest) w)
    (hlogs : ∀ x, x ∈ passed ++ request :: rest ↔ chain x ∧ next ≤ x.blockNumber ∧
      x.blockNumber ≤ toBlock)
    (hsorted : (passed ++ request :: rest).Pairwise TransferRequestLog.before) :
    w.Covered settings chain request.blockNumber := by
  intro log hlog hstart hlt hkind
  by_cases hnext : log.blockNumber < next
  · exact h.covered log hlog hstart hnext hkind
  · have hreq := (hlogs request).mp (List.mem_append_right _ (List.mem_cons_self ..))
    have hmem := (hlogs log).mpr ⟨hlog, by omega, by omega⟩
    rcases List.mem_append.mp hmem with hp | hr
    · exact h.answered log hp hkind
    -- a log at or after the request in the order is in no earlier block
    · have hle : request.before log := by
        rcases List.mem_cons.mp hr with rfl | hr
        · exact .inr ⟨rfl, Nat.le_refl _⟩
        · exact (List.pairwise_cons.mp (List.pairwise_append.mp hsorted).2.1).1 log hr
      unfold TransferRequestLog.before at hle
      omega

theorem InWindow.skip
    (h : InWindow settings chain finalized next toBlock passed (request :: rest) w)
    (hkind : workflowFor settings.routes request.kind = none) :
    InWindow settings chain finalized next toBlock (passed ++ [request]) rest w where
  cursor := h.cursor
  covered := h.covered
  available := h.available
  within := h.within
  head := h.head
  answered log hlog hsome := by
    rcases List.mem_append.mp hlog with hp | hr
    · exact h.answered log hp hsome
    · rw [List.mem_singleton.mp hr, hkind] at hsome
      cases hsome
  before d hd log hlog := h.before d hd log (List.mem_cons_of_mem _ hlog)

theorem InWindow.delivered (h : InWindow settings chain finalized next toBlock passed
    (request :: rest) w)
    (hto : request.blockNumber ≤ toBlock)
    (hrest : ∀ log ∈ rest, request.before log) {outcome : StudioOutcome}
    (hset : outcome.settled) :
    InWindow settings chain finalized next toBlock
      (passed ++ [request]) rest (w.delivered request outcome) where
  cursor := h.cursor
  covered log hlog hstart hlt hkind := (h.covered log hlog hstart hlt hkind).delivered _ _
  available d hd := by
    rcases List.mem_append.mp hd with hd | hd
    · exact h.available d hd
    · rw [List.mem_singleton.mp hd]
      exact hset
  within d hd := by
    rcases List.mem_append.mp hd with hd | hd
    · exact h.within d hd
    · rw [List.mem_singleton.mp hd]
      exact hto
  head := h.head
  answered log hlog hsome := by
    rcases List.mem_append.mp hlog with hp | hr
    · exact (h.answered log hp hsome).delivered _ _
    · rw [List.mem_singleton.mp hr]
      exact ⟨outcome, List.mem_append_right _ (List.mem_singleton.mpr rfl), hset⟩
  before d hd log hlog := by
    rcases List.mem_append.mp hd with hd | hd
    · exact h.before d hd log (List.mem_cons_of_mem _ hlog)
    · rw [List.mem_singleton.mp hd]
      exact hrest log hlog

theorem deliverLogs_safe (delivered : ℕ) (hok : StartsOk settings chain w)
    (h : InWindow settings chain finalized next toBlock passed rest w) (hto : toBlock ≤ finalized)
    (hlogs : ∀ x, x ∈ passed ++ rest ↔ chain x ∧ next ≤ x.blockNumber ∧ x.blockNumber ≤ toBlock)
    (hsorted : (passed ++ rest).Pairwise TransferRequestLog.before) :
    (deliverLogs settings rest delivered).Safe
      (startsEnv chain) (StartsOk settings chain) StartsGuard
      (fun result w => if result.1 then ∃ d ∈ w.run, ¬ d.2.settled
        else InWindow settings chain finalized next toBlock (passed ++ rest) [] w) w := by
  induction rest generalizing passed delivered w with
  | nil =>
    rw [List.append_nil]
    exact ⟨hok, h⟩
  | cons request rest ih =>
    have hreq := (hlogs request).mp (List.mem_append_right _ (List.mem_cons_self ..))
    have hrest := (List.pairwise_cons.mp (List.pairwise_append.mp hsorted).2.1).1
    have happend : passed ++ request :: rest = (passed ++ [request]) ++ rest := by
      rw [List.append_assoc, List.singleton_append]
    have hnext : ∀ (delivered : ℕ) (w : StartsWorld), StartsOk settings chain w →
        InWindow settings chain finalized next toBlock (passed ++ [request]) rest w →
          _ := fun delivered w hok h =>
      happend ▸ ih delivered hok h (happend ▸ hlogs) (happend ▸ hsorted)
    unfold deliverLogs
    split
    · rename_i hkind
      exact hnext delivered w hok (h.skip hkind)
    · refine ⟨hok, trivial, fun r w' henv => ?_⟩
      have hbefore : ∀ d ∈ w.run, d.1.before request := fun d hd =>
        h.before d hd request (List.mem_cons_self ..)
      cases r with
      | error e =>
        cases henv
        exact hok
      | ok outcome =>
        cases henv
        have hok' := hok.delivered hbefore outcome
        cases outcome with
        | accepted runId => exact hnext _ _ hok' (h.delivered hreq.2.2 hrest trivial)
        | refused status reason => exact hnext _ _ hok' (h.delivered hreq.2.2 hrest trivial)
        | unavailable status =>
          have hcovered : (w.delivered request (.unavailable status)).Covered settings chain
              request.blockNumber :=
            fun log hlog hstart hlt hkind =>
              (h.covered_block hlogs hsorted log hlog hstart hlt hkind).delivered _ _
          have hbound : request.blockNumber ≤ w.finalized + 1 := by
            have := h.head
            omega
          have hsaved := hok'.saved hcovered hbound
          refine ⟨hok', h.guard hreq.2.1, fun r w'' henv => ?_⟩
          cases r with
          | error e =>
            rcases henv with rfl | rfl
            · exact hok'
            · exact hsaved
          | ok _ =>
            cases henv
            exact ⟨hsaved, _, List.mem_append_right _ (List.mem_singleton.mpr rfl), not_false⟩

theorem InWindow.next_window (h : InWindow settings chain finalized next toBlock passed [] w)
    (hlogs : ∀ x, x ∈ passed ↔ chain x ∧ next ≤ x.blockNumber ∧ x.blockNumber ≤ toBlock) :
    AtWindow settings chain (toBlock + 1) (w.saved (toBlock + 1)) where
  cursor := .inl rfl
  covered log hlog hstart hlt hkind := by
    by_cases hnext : log.blockNumber < next
    · exact h.covered log hlog hstart hnext hkind
    · exact h.answered log ((hlogs log).mpr ⟨hlog, by omega, by omega⟩) hkind
  available := h.available
  earlier d hd := Nat.lt_succ_of_le (h.within d hd)

theorem runWindows_safe (delivered : ℕ) (hhead : w.finalized = finalized)
    (hok : StartsOk settings chain w)
    (h : AtWindow settings chain next w) :
    (runWindows settings finalized next delivered).Safe (startsEnv chain)
    (StartsOk settings chain) StartsGuard
      (fun _ w => w.Finished settings) w := by
  induction hn : finalized + 1 -
    next using Nat.strong_induction_on generalizing next delivered w with
  | _ n ih =>
    unfold runWindows
    split_ifs with hle
    · have hto := le_windowEnd settings hle
      have hend := windowEnd_le settings finalized next
      refine ⟨hok, trivial, fun r w' henv => ?_⟩
      cases r with
      | error e =>
        cases henv
        exact hok
      | ok logs =>
        obtain ⟨rfl, hlogs⟩ := henv
        have hmem : ∀ x, x ∈ [] ++ logs.insertionSort TransferRequestLog.before ↔
            chain x ∧ next ≤ x.blockNumber ∧ x.blockNumber ≤ windowEnd settings finalized next := by
          intro x
          rw [List.nil_append, List.mem_insertionSort]
          exact hlogs (hhead ▸ hend) x
        have hin : InWindow settings chain finalized next (windowEnd settings finalized next) []
            (logs.insertionSort TransferRequestLog.before) w' := by
          refine ⟨h.cursor, h.covered, h.available, fun d hd => ?_, hhead, fun _ =>
            nofun, fun d hd log hlog => ?_⟩
          · have := h.earlier d hd
            omega
          · have hlog' := (hmem log).mp hlog
            have := h.earlier d hd
            exact .inl (by omega)
        have hsafe := deliverLogs_safe delivered hok hin hend hmem (List.pairwise_insertionSort _ _)
        refine hsafe.bind fun result w hok hresult => ?_
        split_ifs at hresult ⊢ with hstop
        · exact ⟨hok, .inl hresult⟩
        · have hnext := hresult.next_window hmem
          have hsaved := hok.saved hnext.covered (by have := hresult.head; omega)
          refine ⟨hok, hresult.guard (by omega), fun r w' henv => ?_⟩
          cases r with
          | error e =>
            rcases henv with rfl | rfl
            · exact hok
            · exact hsaved
          | ok _ =>
            cases henv
            exact ih _ (by omega) _ hresult.head hsaved hnext rfl
    · refine ⟨hok, .inr ?_⟩
      rcases h.cursor with hc | ⟨hc, hstart⟩
      · have := hok.bounded next hc
        exact .inl (by rw [hc, Option.getD_some]; omega)
      · by_cases heq : next = finalized + 1
        · exact .inl (by rw [hc, Option.getD_none]; omega)
        · exact .inr ⟨hc, by omega⟩

theorem runStarts_safe (hhead : w.finalized = finalized) (hok : StartsOk settings chain w)
    (hrun : w.run = []) :
    (runStarts settings finalized).Safe (startsEnv chain) (StartsOk settings chain) StartsGuard
      (fun _ w => w.Finished settings) w := by
  refine ⟨hok, trivial, fun r w' henv => ?_⟩
  cases r with
  | error e =>
    cases henv
    exact hok
  | ok cursor =>
    obtain ⟨rfl, rfl⟩ := henv
    refine runWindows_safe 0 hhead hok
      ⟨?_, ?_, by rw [hrun]; exact fun _ => nofun, by rw [hrun]; exact fun _ => nofun⟩
    · cases hc : w'.cursor with
      | none => exact .inr ⟨rfl, rfl⟩
      | some n => exact .inl rfl
    · cases hc : w'.cursor with
      | none =>
        intro log _ hstart hlt
        exact absurd hlt (Nat.not_lt.mpr hstart)
      | some n => exact hok.covered n hc

theorem startsMachine_secure (settings : RelaySettings) (chain : TransferRequestLog → Prop) :
    (startsMachine settings chain).Secure (StartsOk settings chain) StartsGuard
      (fun _ w => w.Finished settings) where
  init w := by
    rintro ⟨hcursor, hdeliveries, hrun⟩
    refine ⟨fun n hn => ?_, fun n hn => ?_, ?_⟩
    · rw [hcursor] at hn
      cases hn
    · rw [hcursor] at hn
      cases hn
    · rw [hrun]
      exact List.Pairwise.nil
  starts w s w' hok := by
    rintro ⟨finalized, hge, rfl, rfl⟩
    refine runStarts_safe rfl ⟨hok.covered, fun n hn => ?_, List.Pairwise.nil⟩ rfl
    have := hok.bounded n hn
    show n ≤ finalized + 1
    omega
  stops w w' hok := by
    rintro rfl
    exact hok

theorem startsEnv_cursor {c : RelayCall} {r : Except Thrown c.Answer} {w' : StartsWorld}
    (h : startsEnv chain w c r w') : w'.cursor = w.cursor ∨ ∃ n, c = .saveCursor n ∧
      w'.cursor = some n := by
  cases c with
  | saveCursor n =>
    cases r with
    | error e =>
      rcases h with rfl | rfl
      · exact .inl rfl
      · exact .inr ⟨n, rfl, rfl⟩
    | ok _ =>
      cases h
      exact .inr ⟨n, rfl, rfl⟩
  | readCursor =>
    cases r with
    | error e => exact .inl (congrArg _ h)
    | ok _ => exact .inl (congrArg _ h.2)
  | transferRequests fromBlock toBlock =>
    cases r with
    | error e => exact .inl (congrArg _ h)
    | ok _ => exact .inl (congrArg _ h.1)
  | deliver request workflow =>
    cases r with
    | error e => exact .inl (congrArg _ h)
    | ok _ =>
      cases h
      exact .inl rfl
  | _ =>
    have hw : w' = w := by cases r <;> exact h
    exact .inl (congrArg _ hw)

def CursorLe (x y : StartsWorld × Option (Program ℕ)) : Prop :=
  ∀ n, x.1.cursor = some n → ∃ m, y.1.cursor = some m ∧ n ≤ m

theorem step_cursor_le {x y : StartsWorld × Option (Program ℕ)}
    (hx : (startsMachine settings chain).system.Reachable x)
    (hstep : (startsMachine settings chain).Step x y) :
    CursorLe x y := by
  intro n hn
  cases hstep with
  | start hs =>
    obtain ⟨_, _, rfl, rfl⟩ := hs
    exact ⟨n, hn, Nat.le_refl n⟩
  | stop _ hs =>
    cases hs
    exact ⟨n, hn, Nat.le_refl n⟩
  | reply henv =>
    have hguard := (startsMachine_secure settings chain).guard hx
    rcases startsEnv_cursor henv with he | ⟨m, rfl, hm⟩
    · exact ⟨n, he.trans hn, Nat.le_refl n⟩
    · exact ⟨m, hm, hguard n hn⟩

theorem later_cursor_le {x y : StartsWorld × Option (Program ℕ)}
    (hx : (startsMachine settings chain).system.Reachable x)
    (h : (startsMachine settings chain).system.Later x y) : CursorLe x y := by
  refine h.relates (I := (startsMachine settings chain).system.Reachable) ?_ ?_ ?_ ?_ hx
  · exact fun _ _ _ hs hstep => hs.later (.single hstep)
  · exact fun _ n hn => ⟨n, hn, Nat.le_refl n⟩
  · intro x y z hxy hyz n hn
    obtain ⟨m, hm, hnm⟩ := hxy n hn
    obtain ⟨k, hk, hmk⟩ := hyz m hm
    exact ⟨k, hk, Nat.le_trans hnm hmk⟩
  · exact fun _ _ _ hs hstep => step_cursor_le hs hstep

end Runs

section Samples

def sampleSettings (startBlock : ℕ) : RelaySettings where
  startBlock := startBlock
  logRangeBlocks := 10
  logRangeBlocks_pos := by decide
  clientId := "client"
  levels := ⟨1, 1, 3⟩
  routes := ⟨none, none⟩
  starts := true
  relayAccount := 9
  customers := none

def sampleLog : TransferRequestLog := ⟨7, 1, 1, "{}", 2, 0, 70⟩

def sampleStart : StartsWorld := ⟨none, 0, [], []⟩

theorem reads_no_cursor (startBlock finalized : ℕ) (chain : TransferRequestLog → Prop) :
    (startsMachine (sampleSettings startBlock) chain).system.Reachable
      ({ sampleStart with finalized := finalized },
        some (runWindows (sampleSettings startBlock) finalized startBlock 0)) := by
  have hinit : (startsMachine (sampleSettings startBlock) chain).system.Reachable
      (sampleStart, none) :=
    ⟨_, ⟨⟨rfl, rfl, rfl⟩, rfl⟩, .refl _⟩
  have hstart := Machine.reachable_start hinit ⟨finalized, Nat.zero_le _, rfl, rfl⟩
  exact Machine.reachable_reply hstart (.ok none) ⟨rfl, rfl⟩

end Samples

/-- A run whose first block lies beyond the finalized head saves nothing, though Studio was there
all along. -/
theorem runStarts_before_startBlock :
    ∃ x, (startsMachine (sampleSettings 5) fun _ => False).system.Reachable x ∧
      x.2 = some (.done 0) ∧
      x.1.run = [] ∧ x.1.finalized = 3 ∧ x.1.cursor ≠ some (x.1.finalized + 1) ∧
      x.1.cursor.getD (sampleSettings 5).startBlock ≠ x.1.finalized + 1 := by
  have hdone : runWindows (sampleSettings 5) 3 5 0 = .done 0 := by
    unfold runWindows
    exact dif_neg (by decide)
  exact ⟨_, reads_no_cursor 5 3 _, congrArg some hdone, rfl, rfl, nofun, by decide⟩

/-- What every run of starts guarantees: whatever lies before the saved cursor was answered,
deliveries of a run are in order, the cursor never moves back, and a run ends, with the cursor past
the finalized head unless Studio was unavailable or the first block to scan lies beyond it. -/
theorem runStarts_guarantees (settings : RelaySettings) (chain : TransferRequestLog → Prop)
    {x : StartsWorld × Option (Program ℕ)}
    (hx : (startsMachine settings chain).system.Reachable x) :
    (∀ n, x.1.cursor = some n → ∀ log, chain log → settings.startBlock ≤ log.blockNumber →
      log.blockNumber < n → (workflowFor settings.routes log.kind).isSome →
      ∃ outcome, (log, outcome) ∈ x.1.deliveries ∧ outcome.settled) ∧
    (x.1.run.map Prod.fst).Pairwise TransferRequestLog.before ∧
    (∀ y, (startsMachine settings chain).system.Later x y → ∀ n, x.1.cursor = some n →
      ∃ m, y.1.cursor = some m ∧ n ≤ m) ∧
    (∀ delivered, x.2 = some (.done delivered) → (∃ d ∈ x.1.run, ¬ d.2.settled) ∨
      x.1.cursor.getD settings.startBlock = x.1.finalized + 1 ∨
      (x.1.cursor = none ∧ x.1.finalized + 1 < settings.startBlock)) ∧
    ∀ s, x.2 = some s → Acc (fun z y => Script.Turn (startsEnv chain) y z) (s, x.1) := by
  have hsecure := startsMachine_secure settings chain
  have hok := (hsecure.reachable hx).1
  refine ⟨hok.covered, hok.ordered, fun y hy => later_cursor_le hx hy, ?_, fun s _ =>
    Script.terminates _ s _⟩
  obtain ⟨w, s⟩ := x
  rintro delivered rfl
  exact hsecure.result hx

/-- A run that delivers its one log and saves the cursor past it. -/
theorem runStarts_guarantees_sample :
    ∃ x, (startsMachine (sampleSettings 1) (· = sampleLog)).system.Reachable x ∧
      x.2 = some (.done 1) ∧
      x.1.cursor = some 4 ∧ ∃ outcome, (sampleLog, outcome) ∈ x.1.deliveries ∧ outcome.settled := by
  let w : StartsWorld := { sampleStart with finalized := 3 }
  let w' : StartsWorld := w.delivered sampleLog (.accepted none)
  have hwindow : runWindows (sampleSettings 1) 3 1 0 = (io (.transferRequests 1 3) >>= fun logs =>
      deliverLogs (sampleSettings 1) (logs.insertionSort TransferRequestLog.before) 0 >>=
        fun result =>
        if result.1 then pure result.2
        else io (.saveCursor 4) >>= fun _ => runWindows (sampleSettings 1) 3 4 result.2) := by
    rw [runWindows]
    exact dif_pos (by decide)
  have hdone : runWindows (sampleSettings 1) 3 4 1 = .done 1 := by
    unfold runWindows
    exact dif_neg (by decide)
  have hread := reads_no_cursor 1 3 (· = sampleLog)
  rw [hwindow] at hread
  have hlogs : startsEnv (· = sampleLog) w (.transferRequests 1 3) (.ok [sampleLog]) w := by
    refine ⟨rfl, fun _ x => ?_⟩
    rw [List.mem_singleton]
    constructor
    · rintro rfl
      exact ⟨rfl, by decide, by decide⟩
    · exact And.left
  have hdeliver : startsEnv (· = sampleLog) w (.deliver sampleLog .transfer)
      (.ok (.accepted none)) w' := rfl
  have hsave : startsEnv (· = sampleLog) w' (.saveCursor 4) (.ok ()) (w'.saved 4) := rfl
  have hdelivering := Machine.reachable_reply hread (.ok [sampleLog]) hlogs
  have hsaving := Machine.reachable_reply hdelivering (.ok (.accepted none)) hdeliver
  have hx := Machine.reachable_reply hsaving (.ok ()) hsave
  have hcovered :=
    (runStarts_guarantees (sampleSettings 1) (· = sampleLog) hx).1 4 rfl sampleLog rfl (by decide)
    (by decide) (by decide)
  exact ⟨_, hx, congrArg some hdone, rfl, hcovered⟩

end Beam.Relay
