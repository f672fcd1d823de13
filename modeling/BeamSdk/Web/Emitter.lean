import BeamSdk.Library.OrderedMap
import BeamSdk.Library.Run

/-! The emitter of typed events: what an `emit` calls while the listeners register, leave and emit
themselves. -/

namespace Beam.Web.Emitter
variable {α π : Type}

/-- A listener in the set of its event, itself or, where it is `once`, in a wrapper of its own.
`made` tells the registrations apart and orders them. -/
structure Registration (α : Type) where
  event : String
  listener : α
  once : Bool
  made : ℕ
  deriving DecidableEq

/-- An `emit`: its snapshot, as far as it was called and as it is to be called, and whether
`onError` runs in place of the listener that was called last. -/
structure Emit (α π : Type) where
  event : String
  payload : π
  begun : ℕ
  registered : List (Registration α)
  called : List (Registration α)
  remaining : List (Registration α)
  handling : Bool

/-- `stack` are the emits that are under way, the innermost first, and `finished` those that have
returned or thrown. `offs` are the calls of `off`, by when they were made. -/
structure EventEmitter (α π : Type) where
  reports : Bool
  listeners : OrderedMap String (List (Registration α))
  stack : List (Emit α π)
  finished : List (Emit α π)
  offs : List (String × α × ℕ)
  clock : ℕ

inductive Step (α π : Type)
  | on (event : String) (listener : α)
  | once (event : String) (listener : α)
  -- by the listener, or by the function that `on` returned
  | off (event : String) (listener : α)
  -- by the function that `once` returned
  | offOnce (event : String) (made : ℕ)
  | removeAllListeners
  | emit (event : String) (payload : π)
  | returns
  | throws

namespace EventEmitter

def initial (reports : Bool) : EventEmitter α π := ⟨reports, [], [], [], [], 0⟩

def registered (s : EventEmitter α π) (event : String) : List (Registration α) :=
    (s.listeners.get event).getD []

def put (s : EventEmitter α π) (event : String) (set : List (Registration α)) : EventEmitter α π :=
  { s with listeners := if set.isEmpty then s.listeners.delete event
    else s.listeners.set event set }

section
variable [DecidableEq α]

def same (r r' : Registration α) : Bool :=
  if r.once || r'.once then r.once && r'.once && r.made == r'.made else r.listener == r'.listener

def add (s : EventEmitter α π) (r : Registration α) : EventEmitter α π :=
  if (s.registered r.event).any (same r) then s else s.put r.event (s.registered r.event ++ [r])

def remove (s : EventEmitter α π) (r : Registration α) : EventEmitter α π :=
  s.put r.event ((s.registered r.event).filter fun r' => !same r r')

def advance (s : EventEmitter α π) : EventEmitter α π :=
  match s.stack with
  | [] => s
  | emit :: stack =>
    match emit.remaining with
    | [] => { s with stack := stack, finished := emit :: s.finished }
    | r :: rest =>
      let s := { s with
        stack := { emit with called := emit.called ++ [r], remaining := rest, handling := false } ::
          stack }
      if r.once then s.remove r else s

def tick (s : EventEmitter α π) : EventEmitter α π := { s with clock := s.clock + 1 }

def act (s : EventEmitter α π) : Step α π → Option (EventEmitter α π)
  | .on event listener => some (s.add ⟨event, listener, false, s.clock⟩)
  | .once event listener => some (s.add ⟨event, listener, true, s.clock⟩)
  | .off event listener =>
    some { s.remove ⟨event, listener, false, s.clock⟩ with
      offs := (event, listener, s.clock) :: s.offs }
  | .offOnce event made =>
      some (s.put event ((s.registered event).filter fun r => !(r.once && r.made == made)))
  | .removeAllListeners => some { s with listeners := [] }
  | .emit event payload =>
    let set := s.registered event
    if set.isEmpty then some s
    else some
      (advance { s with stack := ⟨event, payload, s.clock, set, [], set, false⟩ :: s.stack })
  | .returns => if s.stack.isEmpty then none else some s.advance
  | .throws =>
    match s.stack with
    | [] => none
    | emit :: stack =>
      -- what `onError` throws leaves the emit
      if emit.handling then some { s with stack := stack, finished := emit :: s.finished }
      else if s.reports then some { s with stack := { emit with handling := true } :: stack }
      else some s.advance

def step (s : EventEmitter α π) (i : Step α π) : Option (EventEmitter α π) := (s.act i).map tick

end

def emits (s : EventEmitter α π) : List (Emit α π) := s.stack ++ s.finished

/-- The calls of listeners that were registered by `once`. -/
def used (s : EventEmitter α π) : List (Registration α) :=
    s.emits.flatMap fun emit => emit.called.filter Registration.once

structure Delivers (s : EventEmitter α π) : Prop where
  ordered : ∀ emit ∈ s.emits, emit.registered.Pairwise fun r r' => r.made < r'.made
  delivered : ∀ emit ∈ s.emits, emit.called <+: emit.registered
  complete : ∀ emit ∈ s.finished, emit.called = emit.registered
  once : s.used.Nodup
  -- what was registered before `off` is not called by an emit that begins after it
  off : ∀ emit ∈ s.emits, ∀ r ∈ emit.called, ∀ t, (emit.event, r.listener, t) ∈ s.offs →
    r.made < t → emit.begun ≤ t

def Begins (s : EventEmitter α π) : Step α π → EventEmitter α π → Prop
  | .emit event payload, s' => (s.registered event = [] ∧ s'.stack = s.stack) ∨
      ∃ emit, s'.stack = emit :: s.stack ∧ emit.event = event ∧ emit.payload = payload ∧
        emit.begun = s.clock ∧
        emit.registered = s.registered event
  | _, _ => True

/-- An emit that begins while another one of its event has a `once` listener before it that is
still registered; `off` with a listener that is registered by `once`; or `onError` throws, with
listeners left to call. -/
def Misdelivers (s : EventEmitter α π) : Step α π → Prop
  | .emit event _ => ∃ emit ∈ s.stack, emit.event = event ∧ ∃ r ∈ emit.remaining, r.once = true ∧
      r ∈ s.registered event
  | .off event listener => ∃ r ∈ s.registered event, r.once = true ∧ r.listener = listener
  | .throws => ∃ emit ∈ s.stack.head?, emit.handling = true ∧ emit.remaining ≠ []
  | _ => False

/-- The listeners by `once` that are yet to be called. -/
def pending (s : EventEmitter α π) : List (Registration α) :=
  s.stack.flatMap fun emit => emit.remaining.filter Registration.once

def Ordered (rs : List (Registration α)) : Prop := rs.Pairwise fun r r' => r.made < r'.made

structure Runs (clock : ℕ) (offs : List (String × α × ℕ)) (emit : Emit α π) : Prop where
  begun : emit.begun < clock
  ordered : Ordered emit.registered
  split : emit.registered = emit.called ++ emit.remaining
  made : ∀ r ∈ emit.registered, r.event = emit.event ∧ r.made < clock
  off : ∀ r ∈ emit.registered, ∀ t, (emit.event, r.listener, t) ∈ offs → r.made < t → emit.begun ≤ t

structure Sound (s : EventEmitter α π) : Prop where
  made : ∀ event, ∀ r ∈ s.registered event, r.event = event ∧ r.made < s.clock
  ordered : ∀ event, Ordered (s.registered event)
  runs : ∀ emit ∈ s.emits, Runs s.clock s.offs emit
  done : ∀ emit ∈ s.finished, emit.remaining = []
  fresh : (s.pending ++ s.used).Nodup
  gone : ∀ r ∈ s.used, ∀ event, r ∉ s.registered event
  after : ∀ event, ∀ r ∈ s.registered event, ∀ t, (event, r.listener, t) ∈ s.offs → t < r.made
  times : ∀ off ∈ s.offs, off.2.2 < s.clock

theorem Sound.delivers {s : EventEmitter α π} (h : Sound s) : Delivers s where
  ordered emit hemit := (h.runs emit hemit).ordered
  delivered emit hemit := ⟨emit.remaining, (h.runs emit hemit).split.symm⟩
  complete emit hemit := by
    have hsplit := (h.runs emit (List.mem_append_right _ hemit)).split
    rw [h.done emit hemit, List.append_nil] at hsplit
    exact hsplit.symm
  once := (List.nodup_append.mp h.fresh).2.1
  off emit hemit r hr := by
    have hruns := h.runs emit hemit
    exact hruns.off r (hruns.split ▸ List.mem_append_left _ hr)

theorem Runs.later {clock : ℕ} {offs : List (String × α × ℕ)} {emit : Emit α π}
    (h : Runs clock offs emit) :
    Runs (clock + 1) offs emit where
  begun := Nat.lt_succ_of_lt h.begun
  ordered := h.ordered
  split := h.split
  made r hr := ⟨(h.made r hr).1, Nat.lt_succ_of_lt (h.made r hr).2⟩
  off := h.off

variable {s s' : EventEmitter α π}

theorem initial_sound (reports : Bool) : Sound (initial reports : EventEmitter α π) where
  made _ _ := nofun
  ordered _ := List.Pairwise.nil
  runs _ := nofun
  done _ := nofun
  fresh := List.nodup_nil
  gone _ := nofun
  after _ _ := nofun
  times _ := nofun

theorem registered_put (s : EventEmitter α π) (event : String) (set : List (Registration α))
    (event' : String) :
    (s.put event set).registered event' = if event' = event then set else s.registered event' := by
  unfold registered put
  simp only
  split
  · rename_i hempty
    obtain rfl := List.isEmpty_iff.mp hempty
    split
    · rename_i heq
      rw [heq, OrderedMap.get_delete_self]
      rfl
    · rename_i hne
      rw [OrderedMap.get_delete_of_ne _ hne]
  · split
    · rename_i heq
      rw [heq, OrderedMap.get_set_self]
      rfl
    · rename_i hne
      rw [OrderedMap.get_set_of_ne _ hne]

theorem tick_sound (h : Sound s) : Sound s.tick where
  made event r hr := by
    obtain ⟨hevent, hmade⟩ := h.made event r hr
    exact ⟨hevent, Nat.lt_succ_of_lt hmade⟩
  ordered := h.ordered
  runs emit hemit := (h.runs emit hemit).later
  done := h.done
  fresh := h.fresh
  gone := h.gone
  after := h.after
  times off hoff := Nat.lt_succ_of_lt (h.times off hoff)

theorem shrink_sound (h : Sound s) {listeners : OrderedMap String (List (Registration α))}
    (hsub : ∀ event,
      (({ s with listeners := listeners } : EventEmitter α π).registered event).Sublist
        (s.registered event)) :
    Sound { s with listeners := listeners } where
  made event r hr := h.made event r ((hsub event).subset hr)
  ordered event := (h.ordered event).sublist (hsub event)
  runs := h.runs
  done := h.done
  fresh := h.fresh
  gone r hr event hmem := h.gone r hr event ((hsub event).subset hmem)
  after event r hr := h.after event r ((hsub event).subset hr)
  times := h.times

theorem put_sound (h : Sound s) {event : String} {set : List (Registration α)}
    (hsub : set.Sublist (s.registered event)) :
    Sound (s.put event set) := by
  refine shrink_sound h fun event' => ?_
  have hput := registered_put s event set event'
  unfold put at hput
  rw [hput]
  split
  · rename_i heq
    exact heq ▸ hsub
  · exact List.Sublist.refl _

theorem mem_pending {r : Registration α} (hr : r ∈ s.pending) : ∃ emit ∈ s.stack,
    r ∈ emit.remaining ∧ r.once = true := by
  obtain ⟨emit, hemit, hr⟩ := List.mem_flatMap.mp hr
  obtain ⟨hremaining, honce⟩ := List.mem_filter.mp hr
  exact ⟨emit, hemit, hremaining, honce⟩

theorem ordered_nodup {rs : List (Registration α)} (h : Ordered rs) : rs.Nodup := by
  refine List.Pairwise.imp (fun hlt heq => ?_) h
  rw [heq] at hlt
  exact Nat.lt_irrefl _ hlt

theorem push_sound (h : Sound s) {event : String} {payload : π}
    (hgood : ¬ Misdelivers s (.emit event payload : Step α π)) :
    Sound (tick { s with
      stack := ⟨event, payload, s.clock, s.registered event, [], s.registered event, false⟩ ::
        s.stack }) := by
  have htick := tick_sound h
  refine ⟨htick.made, h.ordered, fun emit hemit => ?_, h.done, ?_, h.gone, h.after, htick.times⟩
  · rcases List.mem_cons.mp hemit with rfl | hold
    · refine ⟨Nat.lt_succ_self _, h.ordered event, rfl, htick.made event, fun r hr t ht hlt => ?_⟩
      exact absurd hlt (Nat.lt_asymm (h.after event r hr t ht))
    · exact htick.runs emit hold
  · show (((s.registered event).filter Registration.once ++ s.pending) ++ s.used).Nodup
    rw [List.append_assoc]
    refine List.nodup_append.mpr ⟨(ordered_nodup (h.ordered event)).filter _, h.fresh, ?_⟩
    rintro r hr r' hr' rfl
    obtain ⟨hin, honce⟩ := List.mem_filter.mp hr
    rcases List.mem_append.mp hr' with hpending | hused
    · obtain ⟨emit, hemit, hremaining, -⟩ := mem_pending hpending
      have hruns := h.runs emit (List.mem_append_left _ hemit)
      have hevent := (hruns.made r (hruns.split ▸ List.mem_append_right _ hremaining)).1
      exact hgood ⟨emit, hemit, hevent.symm.trans (h.made event r hin).1, r, hremaining, honce, hin⟩
    · exact h.gone r hused event hin

theorem pop_sound (h : Sound s) {emit : Emit α π} {stack : List (Emit α π)}
    (hstack : s.stack = emit :: stack)
    (hdone : emit.remaining = []) :
      Sound { s with stack := stack, finished := emit :: s.finished } := by
  have hemits : (stack ++ emit :: s.finished).Perm s.emits := by
    rw [emits, hstack]
    exact List.perm_middle
  have hused :
      ({ s with stack := stack, finished := emit :: s.finished } : EventEmitter α π).used.Perm
        s.used := hemits.flatMap_right _
  have hpending : s.pending = stack.flatMap fun emit =>
      emit.remaining.filter Registration.once := by
    rw [pending, hstack, List.flatMap_cons, hdone]
    rfl
  refine ⟨h.made, h.ordered, fun emit' hemit => h.runs emit' (hemits.mem_iff.mp hemit),
    fun emit' hemit => ?_, ?_,
    fun r hr => h.gone r (hused.mem_iff.mp hr), h.after, h.times⟩
  · rcases List.mem_cons.mp hemit with rfl | hold
    · exact hdone
    · exact h.done emit' hold
  · have hfresh := h.fresh
    rw [hpending] at hfresh
    exact ((hused.append_left _).nodup_iff).mpr hfresh

section
variable [DecidableEq α]

theorem remove_sound (h : Sound s) (r : Registration α) : Sound (s.remove r) :=
    put_sound h List.filter_sublist

theorem same_self (r : Registration α) : same r r = true := by
  unfold same
  cases hr : r.once <;> simp

theorem not_mem_remove (s : EventEmitter α π) (r : Registration α) :
    r ∉ (s.remove r).registered r.event := by
  rw [remove, registered_put, if_pos rfl, List.mem_filter]
  rintro ⟨-, hnot⟩
  rw [same_self] at hnot
  cases hnot

theorem add_sound (h : Sound s) {r : Registration α} (hmade : r.made = s.clock) :
    Sound (s.add r).tick := by
  unfold add
  split
  · exact tick_sound h
  · have hnew := registered_put s r.event (s.registered r.event ++ [r])
    have hmem : ∀ event, ∀ r' ∈ (s.put r.event (s.registered r.event ++ [r])).registered event,
        r' ∈ s.registered event ∨ r' = r ∧ event = r.event := by
      intro event r' hr'
      rw [hnew] at hr'
      split at hr'
      · rename_i heq
        rcases List.mem_append.mp hr' with hold | hlast
        · exact .inl (heq ▸ hold)
        · exact .inr ⟨List.mem_singleton.mp hlast, heq⟩
      · exact .inl hr'
    refine ⟨fun event r' hr' => ?_, fun event => ?_, fun emit hemit =>
      (h.runs emit hemit).later, h.done, h.fresh,
      fun r' hr' event hin => ?_, fun event r' hr' t ht => ?_, fun off hoff =>
        Nat.lt_succ_of_lt (h.times off hoff)⟩
    · rcases hmem event r' hr' with hold | ⟨rfl, rfl⟩
      · obtain ⟨hevent, hlt⟩ := h.made event r' hold
        exact ⟨hevent, Nat.lt_succ_of_lt hlt⟩
      · exact ⟨rfl, hmade ▸ Nat.lt_succ_self _⟩
    · show Ordered ((s.put r.event (s.registered r.event ++ [r])).registered event)
      rw [hnew]
      split
      · refine List.pairwise_append.mpr ⟨h.ordered r.event, List.pairwise_singleton _ _,
          fun r' hr' last hlast => ?_⟩
        obtain rfl := List.mem_singleton.mp hlast
        exact hmade ▸ (h.made _ r' hr').2
      · exact h.ordered event
    · rcases hmem event r' hin with hold | ⟨rfl, rfl⟩
      · exact h.gone r' hr' event hold
      · obtain ⟨emit, hemit, hcalled⟩ := List.mem_flatMap.mp hr'
        have hruns := h.runs emit hemit
        have hlt :=
          (hruns.made r' (hruns.split ▸ List.mem_append_left _ (List.mem_of_mem_filter hcalled))).2
        exact Nat.lt_irrefl _ (hmade ▸ hlt)
    · rcases hmem event r' hr' with hold | ⟨rfl, rfl⟩
      · exact h.after event r' hold t ht
      · exact hmade ▸ h.times _ ht

theorem off_sound (h : Sound s) {event : String} {listener : α}
    (hgood : ¬ Misdelivers s (.off event listener : Step α π)) :
    Sound (tick { s.remove ⟨event, listener, false, s.clock⟩ with
      offs := (event, listener, s.clock) :: s.offs }) := by
  have hleft := remove_sound h ⟨event, listener, false, s.clock⟩
  refine ⟨(tick_sound hleft).made, hleft.ordered,
    fun emit hemit => ?_, h.done, h.fresh, hleft.gone, fun event' r hr t ht => ?_,
    fun off hoff => ?_⟩
  · have hruns := h.runs emit hemit
    refine ⟨hruns.later.begun, hruns.ordered, hruns.split, hruns.later.made,
      fun r hr t ht hlt => ?_⟩
    rcases List.mem_cons.mp ht with hnew | hold
    · cases hnew
      exact Nat.le_of_lt hruns.begun
    · exact hruns.off r hr t hold hlt
  · rcases List.mem_cons.mp ht with hnew | hold
    · cases hnew
      have hmem := hr
      change r ∈ (s.remove _).registered event at hmem
      rw [remove, registered_put, if_pos rfl, List.mem_filter] at hmem
      obtain ⟨hin, hnot⟩ := hmem
      -- the one it is by `on` would have left
      cases honce : r.once with
      | true => exact absurd ⟨r, hin, honce, rfl⟩ hgood
      | false => simp [same, honce] at hnot
    · exact hleft.after event' r hr t hold
  · rcases List.mem_cons.mp hoff with rfl | hold
    · exact Nat.lt_succ_self _
    · exact Nat.lt_succ_of_lt (h.times off hold)

end

theorem handle_sound (h : Sound s) {emit : Emit α π} {stack : List (Emit α π)}
    (hstack : s.stack = emit :: stack) :
    Sound { s with stack := { emit with handling := true } :: stack } := by
  have hemits : s.emits = emit :: (stack ++ s.finished) := by rw [emits, hstack, List.cons_append]
  have hused :
      ({ s with stack := { emit with handling := true } :: stack } : EventEmitter α π).used =
        s.used := by
    rw [used, used, hemits]
    rfl
  have hpending :
      ({ s with stack := { emit with handling := true } :: stack } : EventEmitter α π).pending =
        s.pending := by
    rw [pending, pending, hstack]
    rfl
  refine ⟨h.made, h.ordered, fun emit' hemit => ?_, h.done, ?_, fun r hr =>
    h.gone r (hused ▸ hr), h.after, h.times⟩
  · rcases List.mem_cons.mp hemit with rfl | hold
    · have hruns := h.runs emit (hemits ▸ List.mem_cons_self)
      exact ⟨hruns.begun, hruns.ordered, hruns.split, hruns.made, hruns.off⟩
    · exact h.runs emit' (hemits ▸ List.mem_cons_of_mem _ hold)
  · rw [hused, hpending]
    exact h.fresh

theorem enter_sound (h : Sound s) {emit : Emit α π} {stack : List (Emit α π)} {r : Registration α}
    {rest : List (Registration α)} (hstack : s.stack = emit :: stack)
    (hremaining : emit.remaining = r :: rest)
    {listeners : OrderedMap String (List (Registration α))}
    (hleft : Sound { s with listeners := listeners })
    (hgone : r.once = true → ∀ event,
      r ∉ ({ s with listeners := listeners } : EventEmitter α π).registered event) :
    Sound { s with
      listeners := listeners
      stack := { emit with called := emit.called ++ [r], remaining := rest, handling := false } ::
        stack } := by
  have hemits : s.emits = emit :: (stack ++ s.finished) := by rw [emits, hstack, List.cons_append]
  have hused : s.used = emit.called.filter Registration.once ++
      (stack ++ s.finished).flatMap fun emit => emit.called.filter Registration.once := by
    rw [used, hemits, List.flatMap_cons]
  have hpending : s.pending = (r :: rest).filter Registration.once ++
      stack.flatMap fun emit => emit.remaining.filter Registration.once := by
    rw [pending, hstack, List.flatMap_cons, hremaining]
  refine ⟨hleft.made, hleft.ordered, fun emit' hemit => ?_, h.done, ?_,
    fun r' hr event hin => ?_, hleft.after, hleft.times⟩
  · rcases List.mem_cons.mp hemit with rfl | hold
    · have hruns := h.runs emit (hemits ▸ List.mem_cons_self)
      refine ⟨hruns.begun, hruns.ordered, ?_, hruns.made, hruns.off⟩
      rw [List.append_assoc, List.singleton_append, ← hremaining]
      exact hruns.split
    · exact h.runs emit' (hemits ▸ List.mem_cons_of_mem _ hold)
  · have hfresh := h.fresh
    rw [hused, hpending] at hfresh
    refine (List.Perm.nodup_iff ?_).mp hfresh
    show List.Perm _
      ((rest.filter Registration.once ++ stack.flatMap fun emit =>
        emit.remaining.filter Registration.once) ++
      ((emit.called ++ [r]).filter Registration.once ++
        (stack ++ s.finished).flatMap fun emit => emit.called.filter Registration.once))
    rw [List.filter_append]
    cases honce : r.once with
    | true =>
      rw [List.filter_cons_of_pos honce, List.filter_cons_of_pos honce, List.filter_nil,
        List.cons_append, List.cons_append]
      -- the one listener moves from what is pending to what is used
      simp only [← List.append_assoc]
      rw [List.append_assoc _ [r], List.singleton_append]
      exact List.perm_middle.symm
    | false =>
      rw [List.filter_cons_of_neg (by simp [honce]), List.filter_cons_of_neg (by simp [honce]),
        List.filter_nil, List.append_nil]
  · obtain ⟨emit', hemit, hr⟩ := List.mem_flatMap.mp hr
    rcases List.mem_cons.mp hemit with rfl | hold
    · obtain ⟨hcalled, honce⟩ := List.mem_filter.mp hr
      rcases List.mem_append.mp hcalled with hbefore | hlast
      · refine hleft.gone r'
          (List.mem_flatMap.mpr ⟨emit, ?_, List.mem_filter.mpr ⟨hbefore, honce⟩⟩) event hin
        exact hemits ▸ List.mem_cons_self
      · obtain rfl := List.mem_singleton.mp hlast
        exact hgone honce event hin
    · exact hleft.gone r'
        (List.mem_flatMap.mpr ⟨emit', hemits ▸ List.mem_cons_of_mem _ hold, hr⟩) event hin

variable [DecidableEq α]

theorem advance_sound (h : Sound s) : Sound s.advance := by
  unfold advance
  split
  · exact h
  · rename_i emit stack hstack
    split
    · rename_i hdone
      exact pop_sound h hstack hdone
    · rename_i r rest hremaining
      split
      · rename_i honce
        refine enter_sound h hstack hremaining (remove_sound h r) fun _ event hin => ?_
        have hevent := ((remove_sound h r).made event r hin).1
        exact not_mem_remove s r (hevent ▸ hin)
      · rename_i hnot
        exact enter_sound h hstack hremaining h fun honce => absurd honce hnot

theorem advance_tick (s : EventEmitter α π) : s.advance.tick = s.tick.advance := by
  unfold advance
  rw [show s.tick.stack = s.stack from rfl]
  split
  · rfl
  · split
    · rfl
    · split
      · rfl
      · rfl

theorem step_sound {i : Step α π} (h : Sound s) (hstep : step s i = some s')
    (hgood : ¬ Misdelivers s i) : Sound s' := by
  obtain ⟨u, hact, rfl⟩ := Option.map_eq_some_iff.mp hstep
  cases i with
  | on event listener =>
    cases hact
    exact add_sound h rfl
  | once event listener =>
    cases hact
    exact add_sound h rfl
  | off event listener =>
    cases hact
    exact off_sound h hgood
  | offOnce event made =>
    cases hact
    exact tick_sound (put_sound h List.filter_sublist)
  | removeAllListeners =>
    cases hact
    exact tick_sound (shrink_sound h fun event => List.nil_sublist _)
  | emit event payload =>
    unfold act at hact
    simp only at hact
    split at hact
    · cases hact
      exact tick_sound h
    · cases hact
      rw [advance_tick]
      exact advance_sound (push_sound h hgood)
  | returns =>
    unfold act at hact
    simp only at hact
    split at hact
    · cases hact
    · cases hact
      exact tick_sound (advance_sound h)
  | throws =>
    unfold act at hact
    simp only at hact
    split at hact
    · cases hact
    · rename_i emit stack hstack
      split at hact
      · rename_i hhandling
        cases hact
        refine tick_sound (pop_sound h hstack (Classical.byContradiction fun hleft => hgood ?_))
        exact ⟨emit, by rw [hstack]; rfl, hhandling, hleft⟩
      · split at hact
        · cases hact
          exact tick_sound (handle_sound h hstack)
        · cases hact
          exact tick_sound (advance_sound h)

theorem step_begins {i : Step α π} (hstep : step s i = some s') : Begins s i s' := by
  obtain ⟨u, hact, rfl⟩ := Option.map_eq_some_iff.mp hstep
  cases i with
  | emit event payload =>
    unfold act at hact
    simp only at hact
    split at hact
    · rename_i hempty
      cases hact
      exact .inl ⟨List.isEmpty_iff.mp hempty, rfl⟩
    · rename_i hset
      obtain ⟨r, rest, hcons⟩ := List.exists_cons_of_ne_nil (List.isEmpty_iff.not.mp hset)
      cases hact
      refine .inr
        ⟨⟨event, payload, s.clock, s.registered event, [r], rest, false⟩, ?_, rfl, rfl, rfl, rfl⟩
      unfold advance
      simp only [hcons]
      split
      · rfl
      · rfl
  | _ => trivial

instance (s : EventEmitter α π) : (i : Step α π) → Decidable (Misdelivers s i)
  | .emit event _ => inferInstanceAs (Decidable (∃ emit ∈ s.stack, emit.event = event ∧
      ∃ r ∈ emit.remaining, r.once = true ∧ r ∈ s.registered event))
  | .off event listener =>
      inferInstanceAs (Decidable (∃ r ∈ s.registered event, r.once = true ∧ r.listener = listener))
  | .throws =>
      inferInstanceAs
        (Decidable (∃ emit ∈ s.stack.head?, emit.handling = true ∧ emit.remaining ≠ []))
  | .on .. | .once .. | .offOnce .. | .removeAllListeners | .returns => isFalse id

/-- Every emit calls what was registered when it began, in that order, a `once` listener is called
once and `off` holds, along every run without the three steps that break it. -/
theorem listeners_called {reports : Bool} {is : List (Step α π)}
    (hrun : Run.after step (initial reports) is = some s)
    (hgood : Run.Never step (initial reports) is Misdelivers) :
    Run.Always step (initial reports) is Delivers ∧ Run.Each step (initial reports) is Begins := by
  have hfits := Run.always_of_never (fun u i v hu hstep hgood => step_sound hu hstep hgood)
    (initial_sound reports) hgood
  have hbegins := Run.each_of_never (R := Begins)
    (fun u i v hu hstep hgood => ⟨step_sound hu hstep hgood, step_begins hstep⟩)
      (initial_sound reports) hrun hgood
  exact ⟨fun earlier later u hsplit hu => (hfits earlier later u hsplit hu).delivers, hbegins.1⟩

/-- A listener that throws, one that emits and one that is `once`. -/
def party : List (Step String Unit) :=
  [.on "ended" "throws", .on "ended" "emits", .once "ended" "greets", .emit "ended" (), .throws,
    .emit "closed" (), .returns,
    .returns, .off "ended" "throws", .emit "ended" (), .returns]

theorem party_called : Run.Always step (initial false)
    party Delivers ∧ Run.Each step (initial false) party Begins :=
  listeners_called rfl (Run.never_of_check (by decide +kernel))

/-- The inner emit has used up the `once` listener that the outer one calls again. -/
def nested : List (Step String Unit) :=
  [.on "ended" "emits", .once "ended" "greets", .emit "ended" (), .emit "ended" (), .returns,
    .returns, .returns]

/-- What `once` registered is not what `off` is given. -/
def kept : List (Step String Unit) :=
    [.once "ended" "greets", .off "ended" "greets", .emit "ended" ()]

def aborted : List (Step String Unit) :=
    [.on "ended" "throws", .on "ended" "greets", .emit "ended" (), .throws, .throws]

theorem listeners_miscalled :
    (∃ s, Run.after step (initial false) nested = some s ∧ ¬ s.used.Nodup) ∧
      (∃ s, Run.after step (initial false) kept = some s ∧ ∃ emit ∈ s.emits, ∃ r ∈ emit.called,
        (emit.event, r.listener, 1) ∈ s.offs ∧ r.made < 1 ∧ 1 < emit.begun) ∧
      ∃ s, Run.after step (initial true) aborted = some s ∧ ∃ emit ∈
        s.finished, emit.called ≠ emit.registered :=
  ⟨⟨_, rfl, by decide⟩, ⟨_, rfl, by decide⟩, ⟨_, rfl, by decide⟩⟩

end EventEmitter
end Beam.Web.Emitter
