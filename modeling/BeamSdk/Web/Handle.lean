import BeamSdk.Library.Run
import BeamSdk.Web.Transport

/-! A handle of the browser SDK on one transfer: its event stream, which reconnects, the polling it
falls back to, and what it tells its listeners and the promise behind `done()`. -/

namespace Beam.Web

inductive TransferStatus
  | pending
  | preparing
  | running
  | completed
  | failed
  | cancelled
deriving DecidableEq

def TERMINAL_STATUSES : List TransferStatus := [.completed, .failed, .cancelled]

def toStatus : Option String → TransferStatus
  | some "pending" => .pending
  | some "preparing" => .preparing
  | some "completed" => .completed
  | some "failed" => .failed
  | some "cancelled" => .cancelled
  | _ => .running

structure TransferError where
  code : String
  message : String
deriving DecidableEq

structure WireTransfer (π : Type*) where
  status : Option String
  progress : Option π
  error : Option (Option String × Option String)

structure Transfer (π : Type*) where
  status : TransferStatus
  progress : Option π
  error : Option TransferError
deriving DecidableEq

def toTransfer {π : Type*} (wire : WireTransfer π) : Transfer π where
  status := toStatus wire.status
  progress := wire.progress
  error := wire.error.map fun (code, message) =>
    ⟨code.getD "internal", message.getD "The transfer failed."⟩

inductive HandleEvent (π : Type*)
  | progress (progress : π)
  | status (status : TransferStatus)
  | completed (transfer : Transfer π)
  | error
deriving DecidableEq

inductive EventName
  | progress
  | status
  | completed
  | error
deriving DecidableEq

def HandleEvent.name {π : Type*} : HandleEvent π → EventName
  | .progress _ => .progress
  | .status _ => .status
  | .completed _ => .completed
  | .error => .error

inductive Settlement (π : Type*)
  | fulfilled (transfer : Transfer π)
  | rejected (code : BeamErrorCode) (message : String)
deriving DecidableEq

def rejection {π : Type*} (transfer : Transfer π) : Settlement π :=
  let cancelled := transfer.status = .cancelled
  .rejected
    (if cancelled then .aborted
      else ((transfer.error.map TransferError.code).bind asRemoteErrorCode).getD .internal)
    ((transfer.error.map TransferError.message).getD
      (if cancelled then "The transfer was cancelled." else "The transfer failed."))

/-- A call of `emit`, with whether anybody listens and whether `close()` has been called. -/
structure Emission (π : Type*) where
  event : HandleEvent π
  heard : Bool
  afterClose : Bool
deriving DecidableEq

/-- Where `start()` of the stream stands. A handle on a finished transfer has none. -/
inductive StreamPhase
  | none
  | connecting
  | reading
  | waiting
  -- `start()` has rejected, and its handler is to run
  | rejected
  -- `start()` has resolved, or its handler has run
  | finished
deriving DecidableEq

inductive PollPhase (π : Type*)
  | none
  | asleep
  | asking
  -- the answer has come and is to be applied
  | answered (transfer : Transfer π)
  | finished
deriving DecidableEq

structure Handle (π : Type*) where
  transfer : Transfer π
  closed : Bool
  settlement : Option (Settlement π)
  stream : StreamPhase
  -- `#attempt` of the reconnector, and how many attempts have ended in all
  attempt : ℕ
  ended : ℕ
  poll : PollPhase π
  -- the events that somebody listens to
  listeners : List EventName
  emitted : List (Emission π)
  -- whether `close()` has been called, and whether it was before the status was terminal
  closeCalled : Bool
  closedFirst : Bool

inductive ConnectFailure
  -- an error of the class `BeamAbortError`
  | abort
  | error (retryable : Bool)
deriving DecidableEq

/-- The data of an event of the stream, after `JSON.parse`. -/
inductive EventData (π : Type*)
  | malformed
  | null
  | transfer (wire : WireTransfer π)

/-- Where listeners are called, `closes` says on which events one of them calls `close()`. -/
inductive Happening (π : Type*)
  | connected
  | refused (failure : ConnectFailure)
  | event (data : EventData π) (closes : HandleEvent π → Bool)
  | streamEnded
  | interrupted
  | delayElapsed
  | streamRejected (closes : HandleEvent π → Bool)
  | pollDue
  | pollAnswered (wire : WireTransfer π)
  | pollFailed
  | pollApplied (closes : HandleEvent π → Bool)
  | refreshed (wire : WireTransfer π)
  | cancelled
  | closeCalled
  | listened (name : EventName)

namespace Handle
variable {π : Type*}

def terminal (h : Handle π) : Prop := h.transfer.status ∈ TERMINAL_STATUSES

instance (h : Handle π) : Decidable h.terminal :=
    inferInstanceAs (Decidable (_ ∈ TERMINAL_STATUSES))

def watch (h : Handle π) : StreamPhase × ℕ × ℕ × PollPhase π :=
    (h.stream, h.attempt, h.ended, h.poll)

def close (h : Handle π) : Handle π :=
  if h.closed then { h with closeCalled := true }
  else { h with closed := true, listeners := [], closeCalled := true, closedFirst := !decide h.terminal }

def emit (h : Handle π) (event : HandleEvent π) (closes : HandleEvent π → Bool) : Handle π :=
  let heard := decide (event.name ∈ h.listeners)
  let told := { h with emitted := h.emitted ++ [⟨event, heard, h.closeCalled⟩] }
  if heard && closes event then told.close else told

def settle (h : Handle π) (transfer : Transfer π) (closes : HandleEvent π → Bool) : Handle π :=
  if h.closed then h
  else
    let h := { h with closed := true }
    if transfer.status = .completed then
      { h.emit (.completed transfer) closes with settlement := some (.fulfilled transfer) }
    else { h with settlement := some (rejection transfer) }

theorem close_watch (h : Handle π) : h.close.watch = h.watch := by
  unfold close
  split <;> rfl

theorem close_closed (h : Handle π) : h.close.closed = true := by
  unfold close
  split
  · assumption
  · rfl

theorem emit_watch (h : Handle π) (event : HandleEvent π) (closes : HandleEvent π → Bool) :
    (h.emit event closes).watch = h.watch := by
  unfold emit
  simp only
  split
  · exact close_watch _
  · rfl

theorem emit_settlement (h : Handle π) (event : HandleEvent π) (closes : HandleEvent π → Bool) :
    (h.emit event closes).settlement = h.settlement := by
  unfold emit close
  simp only
  split
  · split <;> rfl
  · rfl

theorem emit_closed {h : Handle π} (event : HandleEvent π) (closes : HandleEvent π → Bool)
    (hclosed : h.closed = true) :
    (h.emit event closes).closed = true := by
  unfold emit
  simp only
  split
  · exact close_closed _
  · exact hclosed

theorem settle_watch (h : Handle π) (transfer : Transfer π) (closes : HandleEvent π → Bool) :
    (h.settle transfer closes).watch = h.watch := by
  unfold settle
  simp only
  split
  · rfl
  · split
    · exact emit_watch _ _ _
    · rfl

theorem settle_closed (h : Handle π) (transfer : Transfer π) (closes : HandleEvent π → Bool) :
    (h.settle transfer closes).closed = true := by
  unfold settle
  simp only
  split
  · assumption
  · split
    · exact emit_closed _ _ rfl
    · rfl

def emitProgress (h : Handle π) (transfer : Transfer π)
    (closes : HandleEvent π → Bool) : Handle π :=
  match transfer.progress with
  | some progress => h.emit (.progress progress) closes
  | none => h

def apply (h : Handle π) (next : Transfer π) (closes : HandleEvent π → Bool) : Handle π :=
  let statusChanged := next.status ≠ h.transfer.status
  let h := { h with transfer := next }.emitProgress next closes
  let h := if statusChanged then h.emit (.status next.status) closes else h
  if next.status ∈ TERMINAL_STATUSES then h.settle next closes else h

def tell (h : Handle π) (next : Transfer π) (closes : HandleEvent π → Bool) : Handle π :=
  let told := { h with transfer := next }.emitProgress next closes
  if next.status ≠ h.transfer.status then told.emit (.status next.status) closes else told

theorem apply_eq (h : Handle π) (next : Transfer π) (closes : HandleEvent π → Bool) :
    h.apply next closes =
    if next.status ∈ TERMINAL_STATUSES then (h.tell next closes).settle next closes
      else h.tell next closes := rfl

theorem emitProgress_watch (h : Handle π) (next : Transfer π) (closes : HandleEvent π → Bool) :
    (h.emitProgress next closes).watch = h.watch := by
  unfold emitProgress
  split
  · exact emit_watch _ _ _
  · rfl

theorem tell_watch (h : Handle π) (next : Transfer π) (closes : HandleEvent π → Bool) :
    (h.tell next closes).watch = h.watch := by
  unfold tell
  simp only
  split
  · exact (emit_watch _ _ _).trans (emitProgress_watch _ _ _)
  · exact emitProgress_watch _ _ _

theorem apply_watch (h : Handle π) (next : Transfer π) (closes : HandleEvent π → Bool) :
    (h.apply next closes).watch = h.watch := by
  rw [apply_eq]
  split
  · exact (settle_watch _ _ _).trans (tell_watch _ _ _)
  · exact tell_watch _ _ _

theorem emitProgress_settlement (h : Handle π) (next : Transfer π) (closes : HandleEvent π → Bool) :
    (h.emitProgress next closes).settlement = h.settlement := by
  unfold emitProgress
  split
  · exact emit_settlement _ _ _
  · rfl

theorem tell_settlement (h : Handle π) (next : Transfer π) (closes : HandleEvent π → Bool) :
    (h.tell next closes).settlement = h.settlement := by
  unfold tell
  simp only
  split
  · exact (emit_settlement _ _ _).trans (emitProgress_settlement _ _ _)
  · exact emitProgress_settlement _ _ _

theorem tell_closed {h : Handle π} (next : Transfer π) (closes : HandleEvent π → Bool)
    (hclosed : h.closed = true) :
    (h.tell next closes).closed = true := by
  have hprogress : ({ h with transfer := next }.emitProgress next closes).closed = true := by
    unfold emitProgress
    split
    · exact emit_closed _ _ hclosed
    · exact hclosed
  unfold tell
  simp only
  split
  · exact emit_closed _ _ hprogress
  · exact hprogress

/-- A handle that is open after a transfer was applied was open before, and its promise is what it
was. -/
theorem apply_open {h : Handle π} {next : Transfer π} {closes : HandleEvent π → Bool}
    (hopen : (h.apply next closes).closed = false) :
    h.closed = false ∧ (h.apply next closes).settlement = h.settlement := by
  rw [apply_eq] at hopen ⊢
  split at hopen
  · simp [settle_closed] at hopen
  · rw [if_neg (by assumption)]
    refine ⟨?_, tell_settlement h next closes⟩
    by_contra hclosed
    simp [tell_closed next closes (Bool.not_eq_false _ ▸ hclosed)] at hopen

def start (transfer : Transfer π) : Handle π :=
  let h : Handle π := ⟨transfer, false, none, .none, 0, 0, .none, [], [], false, false⟩
  if transfer.status ∈ TERMINAL_STATUSES then h.settle transfer fun _ => false
  else { h with stream := .connecting }

/-- From the end of an attempt on, and what it has failed with. The signal is aborted where the
handle is closed. -/
def attemptEnded (maxAttempts : ℕ) (h : Handle π) (failure : Option ConnectFailure) : Handle π :=
  let h := { h with ended := h.ended + 1 }
  if h.closed ∨ failure = some .abort then { h with stream := .finished }
  else if failure = some (.error false) then { h with stream := .rejected }
  else
    let h := { h with attempt := h.attempt + 1 }
    if maxAttempts ≤ h.attempt then { h with stream := if failure.isSome then .rejected
      else .finished }
    else { h with stream := .waiting }

/-- The step of a handle whose stream makes at most `maxAttempts` attempts. -/
def step (maxAttempts : ℕ) (h : Handle π) : Happening π → Option (Handle π)
  | .connected =>
      if h.stream = .connecting then some { h with stream := .reading, attempt := 0 } else none
  | .refused failure =>
      if h.stream = .connecting then some (h.attemptEnded maxAttempts (some failure)) else none
  | .event data closes =>
    if h.stream = .reading then
      match data with
      | .malformed => some h
      -- The error thrown breaks off the reading.
      | .null => some (h.attemptEnded maxAttempts (some (.error true)))
      | .transfer wire => some (h.apply (toTransfer wire) closes)
    else none
  | .streamEnded => if h.stream = .reading then some (h.attemptEnded maxAttempts none) else none
  | .interrupted =>
      if h.stream = .reading then some (h.attemptEnded maxAttempts (some (.error true))) else none
  | .delayElapsed =>
    if h.stream = .waiting then some { h with stream := if h.closed then .finished
      else .connecting } else none
  | .streamRejected closes =>
    if h.stream = .rejected then
      let h := { h with stream := .finished }
      if h.closed then some h
      else
        let h := h.emit .error closes
        some { h with poll := if h.closed then .finished else .asleep }
    else none
  | .pollDue =>
    match h.poll with
    | .asleep => some { h with poll := if h.closed then .finished else .asking }
    | _ => none
  | .pollAnswered wire =>
    match h.poll with
    | .asking => some { h with transfer := toTransfer wire, poll := .answered (toTransfer wire) }
    | _ => none
  | .pollFailed =>
    match h.poll with
    | .asking => some { h with poll := if h.closed then .finished else .asleep }
    | _ => none
  | .pollApplied closes =>
    match h.poll with
    | .answered next =>
      let h := h.apply next closes
      some { h with poll := if h.closed then .finished else .asleep }
    | _ => none
  | .refreshed wire => some { h with transfer := toTransfer wire }
  | .cancelled => some h
  | .closeCalled => some h.close
  | .listened name => some { h with listeners := name :: h.listeners }

end Handle
end Beam.Web
