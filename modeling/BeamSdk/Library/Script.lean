import Mathlib.Algebra.GroupWithZero.Nat
import Mathlib.Data.Nat.Notation
import BeamSdk.Library.Transition

/-! Programs that do their work through calls to an environment which may answer anything, throw, or
change between calls: what they look like, the machine that runs them with crashes anywhere, and the
rules for what holds at every call of every run. -/

namespace Beam

/-- A program over the calls `C`, where `c : C` is answered in `A c` or throws an `ε`. -/
inductive Script (C : Type) (A : C → Type) (ε α : Type)
  | done (a : α)
  | fail (e : ε)
  | call (c : C) (k : Except ε (A c) → Script C A ε α)

namespace Script
variable {C : Type} {A : C → Type} {ε α β σ : Type}

def bind : Script C A ε α → (α → Script C A ε β) → Script C A ε β
  | done a, f => f a
  | fail e, _ => fail e
  | call c k, f => call c fun r => (k r).bind f

instance : Monad (Script C A ε) where
  pure := done
  bind := bind

def io (c : C) : Script C A ε (A c) := call c fun
  | .ok a => done a
  | .error e => fail e

def attempt : Script C A ε α → Script C A ε (Except ε α)
  | done a => done (.ok a)
  | fail e => done (.error e)
  | call c k => call c fun r => (k r).attempt

def ofExcept : Except ε α → Script C A ε α
  | .ok a => done a
  | .error e => fail e

@[simp] theorem done_bind (a : α) (f : α → Script C A ε β) : (done a >>= f) = f a := rfl
@[simp] theorem pure_bind' (a : α) (f : α → Script C A ε β) :
    ((pure a : Script C A ε α) >>= f) = f a := rfl
@[simp] theorem fail_bind (e : ε) (f : α → Script C A ε β) : (fail e >>= f) = fail e := rfl
@[simp] theorem call_bind (c : C) (k : Except ε (A c) → Script C A ε α) (f : α → Script C A ε β) :
    (call c k >>= f) = call c fun r => k r >>= f := rfl

theorem bind_assoc (s : Script C A ε α) (f : α → Script C A ε β) {γ : Type}
    (g : β → Script C A ε γ) :
    (s >>= f >>= g) = (s >>= fun a => f a >>= g) := by
  induction s with
  | done a => rfl
  | fail e => rfl
  | call c k ih =>
    rw [call_bind, call_bind, call_bind]
    congr 1
    funext r
    exact ih r

section Safe
variable (env : σ → (c : C) → Except ε (A c) → σ → Prop) (I : σ → Prop) (G : σ → C → Prop)

def Safe (Q : α → σ → Prop) : Script C A ε α → σ → Prop
  | done a, w => I w ∧ Q a w
  | fail _, w => I w
  | call c k, w => I w ∧ G w c ∧ ∀ r w', env w c r w' → Safe Q (k r) w'

variable {env I G} {P : α → σ → Prop} {Q : β → σ → Prop} {s : Script C A ε α} {w : σ}

theorem Safe.inv (h : s.Safe env I G P w) : I w := by
  cases s with
  | done a => exact h.1
  | fail e => exact h
  | call c k => exact h.1

theorem Safe.mono {P' : α → σ → Prop} (h : s.Safe env I G P w) (hP : ∀ a w, I w → P a w → P' a w) :
    s.Safe env I G P' w := by
  induction s generalizing w with
  | done a => exact ⟨h.1, hP a w h.1 h.2⟩
  | fail e => exact h
  | call c k ih => exact ⟨h.1, h.2.1, fun r w' henv => ih r (h.2.2 r w' henv)⟩

theorem Safe.remember {R : σ → σ → Prop} (hrefl : ∀ w, R w w)
    (htrans : ∀ u v w, R u v → R v w → R u w)
    (henv : ∀ w c r w', I w → G w c → env w c r w' → R w w') (h : s.Safe env I G P w) :
    s.Safe env I G (fun a w' => R w w' ∧ P a w') w := by
  induction s generalizing w with
  | done a => exact ⟨h.1, hrefl w, h.2⟩
  | fail e => exact h
  | call c k ih =>
    refine ⟨h.1, h.2.1, fun r w' hr => ?_⟩
    exact (ih r (h.2.2 r w' hr)).mono fun a v _ hv =>
      ⟨htrans _ _ _ (henv w c r w' h.1 h.2.1 hr) hv.1, hv.2⟩

theorem Safe.weaken {G' : σ → C → Prop} (hG : ∀ w c, I w → G w c → G' w c)
    (h : s.Safe env I G P w) :
    s.Safe env I G' P w := by
  induction s generalizing w with
  | done a => exact h
  | fail e => exact h
  | call c k ih => exact ⟨h.1, hG w c h.1 h.2.1, fun r w' hr => ih r (h.2.2 r w' hr)⟩

theorem Safe.bind {f : α → Script C A ε β} (h : s.Safe env I G P w)
    (hf : ∀ a w, I w → P a w → (f a).Safe env I G Q w) : (s >>= f).Safe env I G Q w := by
  induction s generalizing w with
  | done a => exact hf a w h.1 h.2
  | fail e => exact h
  | call c k ih => exact ⟨h.1, h.2.1, fun r w' henv => ih r (h.2.2 r w' henv)⟩

theorem Safe.io {c : C} {P : A c → σ → Prop} (hI : I w) (hG : G w c)
    (hok : ∀ a w', env w c (.ok a) w' → I w' ∧ P a w')
    (herr : ∀ e w', env w c (.error e) w' → I w') :
    (Script.io c : Script C A ε (A c)).Safe env I G P w := by
  refine ⟨hI, hG, fun r w' henv => ?_⟩
  cases r with
  | ok a => exact hok a w' henv
  | error e => exact herr e w' henv

theorem Safe.attempt {P : Except ε α → σ → Prop} (h : s.Safe env I G (fun a w => P (.ok a) w) w)
    (herr : ∀ e w, I w → P (.error e) w) : s.attempt.Safe env I G P w := by
  induction s generalizing w with
  | done a => exact h
  | fail e => exact ⟨h, herr e w h⟩
  | call c k ih => exact ⟨h.1, h.2.1, fun r w' henv => ih r (h.2.2 r w' henv)⟩

theorem Safe.attempt_io {c : C} {P : Except ε (A c) → σ → Prop} (hI : I w) (hG : G w c)
    (h : ∀ r w', env w c r w' → I w' ∧ P r w') :
    (Script.io c : Script C A ε (A c)).attempt.Safe env I G P w := by
  refine ⟨hI, hG, fun r w' henv => ?_⟩
  cases r with
  | ok a => exact h _ w' henv
  | error e => exact h _ w' henv

theorem Safe.ofExcept {x : Except ε α} (hI : I w) (h : ∀ a, x = .ok a → P a w) :
    (Script.ofExcept x : Script C A ε α).Safe env I G P w := by
  cases x with
  | ok a => exact ⟨hI, h a rfl⟩
  | error e => exact hI

theorem Safe.foldlM {γ : Type} {f : α → γ → Script C A ε α} {xs : List γ} {a : α} (hI : I w)
    (hP : P a w)
    (hf : ∀ x ∈ xs, ∀ a w, I w → P a w → (f a x).Safe env I G P w) :
    (xs.foldlM f a).Safe env I G P w := by
  induction xs generalizing a w with
  | nil => exact ⟨hI, hP⟩
  | cons x xs ih =>
    rw [List.foldlM_cons]
    refine (hf x (List.mem_cons_self ..) a w hI hP).bind fun b v hIv hPv => ?_
    exact ih hIv hPv fun y hy => hf y (List.mem_cons_of_mem _ hy)

end Safe

def Uses (allowed : C → Prop) : Script C A ε α → Prop
  | done _ => True
  | fail _ => True
  | call c k => allowed c ∧ ∀ r, Uses allowed (k r)

section Uses
variable {allowed : C → Prop} {s : Script C A ε α}

theorem Uses.bind {f : α → Script C A ε β} (h : s.Uses allowed) (hf : ∀ a, (f a).Uses allowed) :
    (s >>= f).Uses allowed := by
  induction s with
  | done a => exact hf a
  | fail e => trivial
  | call c k ih => exact ⟨h.1, fun r => ih r (h.2 r)⟩

theorem Uses.ofExcept_bind {x : Except ε α} {f : α → Script C A ε β}
    (h : ∀ a, x = .ok a → (f a).Uses allowed) :
    (Script.ofExcept x >>= f).Uses allowed := by
  cases x with
  | ok a => exact h a rfl
  | error e => trivial

theorem Uses.ofExcept (x : Except ε α) : (Script.ofExcept x : Script C A ε α).Uses allowed := by
  cases x <;> trivial

theorem Uses.io {c : C} (h : allowed c) : (Script.io c : Script C A ε (A c)).Uses allowed := by
  refine ⟨h, fun r => ?_⟩
  cases r <;> trivial

theorem Uses.attempt (h : s.Uses allowed) : s.attempt.Uses allowed := by
  induction s with
  | done a => trivial
  | fail e => trivial
  | call c k ih => exact ⟨h.1, fun r => ih r (h.2 r)⟩

theorem Uses.foldlM {γ : Type} {f : α → γ → Script C A ε α} {xs : List γ} (a : α)
    (hf : ∀ x ∈ xs, ∀ a, (f a x).Uses allowed) : (xs.foldlM f a).Uses allowed := by
  induction xs generalizing a with
  | nil => trivial
  | cons x xs ih =>
    rw [List.foldlM_cons]
    exact (hf x (List.mem_cons_self ..) a).bind fun b => ih b fun y hy =>
      hf y (List.mem_cons_of_mem _ hy)

theorem Uses.safe {env : σ → (c : C) → Except ε (A c) → σ → Prop} {I : σ → Prop}
    {G : σ → C → Prop} {w : σ}
    (h : s.Uses allowed) (hG : ∀ w c, I w → allowed c → G w c)
    (henv : ∀ w c r w', I w → allowed c → env w c r w' → I w') (hI : I w) :
    s.Safe env I G (fun _ _ => True) w := by
  induction s generalizing w with
  | done a => exact ⟨hI, trivial⟩
  | fail e => exact hI
  | call c k ih => exact ⟨hI, hG w c hI h.1, fun r w' hr => ih r (h.2 r) (henv w c r w' hI h.1 hr)⟩

end Uses

def AtMost (kind : C → Bool) : Script C A ε α → ℕ → Prop
  | done _, _ => True
  | fail _, _ => True
  | call c k, n => if kind c then ∃ m, n = m + 1 ∧ ∀ r, AtMost kind (k r) m else ∀ r,
      AtMost kind (k r) n

section AtMost
variable {kind : C → Bool} {s : Script C A ε α} {n m : ℕ}

theorem atMost_call {c : C} {k : Except ε (A c) → Script C A ε α} : (call c k).AtMost kind n ↔
    if kind c then ∃ m, n = m + 1 ∧ ∀ r, (k r).AtMost kind m else ∀ r,
      (k r).AtMost kind n := Iff.rfl

theorem AtMost.mono (h : s.AtMost kind n) (hnm : n ≤ m) : s.AtMost kind m := by
  induction s generalizing n m with
  | done a => trivial
  | fail e => trivial
  | call c k ih =>
    rw [atMost_call] at h ⊢
    split at h
    · obtain ⟨n', rfl, hk⟩ := h
      rw [if_pos ‹_›]
      exact ⟨m - 1, by omega, fun r => ih r (hk r) (by omega)⟩
    · rw [if_neg ‹_›]
      exact fun r => ih r (h r) hnm

theorem AtMost.bind {f : α → Script C A ε β} (h : s.AtMost kind n) (hf : ∀ a, (f a).AtMost kind m) :
    (s >>= f).AtMost kind (n + m) := by
  induction s generalizing n with
  | done a => exact (hf a).mono (Nat.le_add_left m n)
  | fail e => trivial
  | call c k ih =>
    rw [call_bind, atMost_call]
    rw [atMost_call] at h
    split at h
    · obtain ⟨n', rfl, hk⟩ := h
      rw [if_pos ‹_›]
      exact ⟨n' + m, by omega, fun r => ih r (hk r)⟩
    · rw [if_neg ‹_›]
      exact fun r => ih r (h r)

theorem AtMost.attempt (h : s.AtMost kind n) : s.attempt.AtMost kind n := by
  induction s generalizing n with
  | done a => trivial
  | fail e => trivial
  | call c k ih =>
    show (call c fun r => (k r).attempt).AtMost kind n
    rw [atMost_call] at h ⊢
    split at h
    · obtain ⟨n', rfl, hk⟩ := h
      rw [if_pos ‹_›]
      exact ⟨n', rfl, fun r => ih r (hk r)⟩
    · rw [if_neg ‹_›]
      exact fun r => ih r (h r)

theorem AtMost.ofExcept (x : Except ε α) (n : ℕ) :
    (Script.ofExcept x : Script C A ε α).AtMost kind n := by
  cases x <;> trivial

theorem AtMost.io (c : C) : (Script.io c : Script C A ε (A c)).AtMost kind 1 := by
  show (call c _).AtMost kind 1
  rw [atMost_call]
  split
  · exact ⟨0, rfl, fun r => by cases r <;> trivial⟩
  · exact fun r => by cases r <;> trivial

theorem AtMost.io_other {c : C} (hc : kind c = false) (n : ℕ) :
    (Script.io c : Script C A ε (A c)).AtMost kind n := by
  show (call c _).AtMost kind n
  rw [atMost_call, hc]
  exact fun r => by cases r <;> trivial

end AtMost

/-- The program and the state after at most `n` answers. -/
def turns (handler : σ → (c : C) → Except ε (A c) × σ) : ℕ → Script C A ε α × σ → Script C A ε α × σ
  | n + 1, (call c k, w) => turns handler n (k (handler w c).1, (handler w c).2)
  | _, x => x

def next : Script C A ε α → Option C
  | done _ => none
  | fail _ => none
  | call c _ => some c

theorem next_eq_some {s : Script C A ε α} {c : C} (h : s.next = some c) : ∃ k, s = call c k := by
  cases s with
  | done a => cases h
  | fail e => cases h
  | call d k =>
    cases h
    exact ⟨k, rfl⟩

inductive Turn (env : σ → (c : C) → Except ε (A c) → σ → Prop) :
    Script C A ε α × σ → Script C A ε α × σ → Prop
  | reply {c : C} {k : Except ε (A c) → Script C A ε α} {r : Except ε (A c)} {w w' : σ} :
      env w c r w' → Turn env (call c k, w) (k r, w')

theorem terminates (env : σ → (c : C) → Except ε (A c) → σ → Prop) (s : Script C A ε α) (w : σ) :
    Acc (fun y x => Turn env x y) (s, w) := by
  induction s generalizing w with
  | done a => exact ⟨_, fun y hy => by cases hy⟩
  | fail e => exact ⟨_, fun y hy => by cases hy⟩
  | call c k ih =>
    refine ⟨_, fun y hy => ?_⟩
    cases hy with
    | reply henv => exact ih _ _

section Run
variable (answers : (c : C) → Except ε (A c))

def run : Script C A ε α → Except ε α × List C
  | done a => (.ok a, [])
  | fail e => (.error e, [])
  | call c k => (((k (answers c)).run).1, c :: ((k (answers c)).run).2)

variable {answers} {s : Script C A ε α}

theorem run_bind {a : α} {calls : List C} (h : s.run answers = (.ok a, calls))
    (f : α → Script C A ε β) :
    (s >>= f).run answers = (((f a).run answers).1, calls ++ ((f a).run answers).2) := by
  induction s generalizing calls with
  | done b =>
    cases h
    rfl
  | fail e => cases h
  | call c k ih =>
    obtain ⟨hresult, hcalls⟩ := Prod.ext_iff.mp h
    have hrest : (k (answers c)).run answers = (.ok a, ((k (answers c)).run answers).2) :=
      Prod.ext hresult rfl
    rw [call_bind, run, ih (answers c) hrest]
    exact Prod.ext rfl (congrArg (· ++ ((f a).run answers).2) hcalls)

theorem run_bind_error {e : ε} {calls : List C} (h : s.run answers = (.error e, calls))
    (f : α → Script C A ε β) :
    (s >>= f).run answers = (.error e, calls) := by
  induction s generalizing calls with
  | done b => cases h
  | fail e' =>
    cases h
    rfl
  | call c k ih =>
    obtain ⟨hresult, hcalls⟩ := Prod.ext_iff.mp h
    have hrest : (k (answers c)).run answers = (.error e, ((k (answers c)).run answers).2) :=
      Prod.ext hresult rfl
    rw [call_bind, run, ih (answers c) hrest]
    exact Prod.ext rfl hcalls

theorem run_bind_eq_ok {f : α → Script C A ε β} {b : β} :
    ((s >>= f).run answers).1 = .ok b ↔ ∃ a, (s.run answers).1 = .ok a ∧
      ((f a).run answers).1 = .ok b := by
  cases hs : s.run answers with
  | mk x calls =>
    cases x with
    | ok a =>
      rw [run_bind hs]
      exact ⟨fun hb => ⟨a, rfl, hb⟩, fun ⟨_, ha, hb⟩ => Except.ok.inj ha ▸ hb⟩
    | error e =>
      rw [run_bind_error hs]
      exact ⟨fun hb => (nomatch hb), fun ⟨_, ha, _⟩ => (nomatch ha)⟩

theorem foldlM_run_keeps {γ : Type} {I : α → Prop} {f : α → γ → Script C A ε α}
    {xs : List γ} {a b : α}
    (hf : ∀ x ∈ xs, ∀ a b, I a → ((f a x).run answers).1 = .ok b → I b)
    (h : ((xs.foldlM f a).run answers).1 = .ok b) (ha : I a) : I b := by
  induction xs generalizing a with
  | nil =>
    cases h
    exact ha
  | cons x xs ih =>
    rw [List.foldlM_cons] at h
    obtain ⟨a', hround, hrest⟩ := run_bind_eq_ok.mp h
    exact ih (fun y hy => hf y (List.mem_cons_of_mem _ hy)) hrest
      (hf x (List.mem_cons_self ..) a a' ha hround)

theorem run_io_eq (c : C) : (Script.io c : Script C A ε (A c)).run answers = (answers c, [c]) := by
  rw [Script.io, run]
  cases answers c <;> rfl

theorem run_io {c : C} {a : A c} (h : answers c = .ok a) :
    (Script.io c : Script C A ε (A c)).run answers = (.ok a, [c]) := by
  rw [run_io_eq, h]

theorem run_attempt (s : Script C A ε α) : s.attempt.run answers =
    (.ok (s.run answers).1, (s.run answers).2) := by
  induction s with
  | done a => rfl
  | fail e => rfl
  | call c k ih => rw [attempt, run, ih, run]

theorem run_foldlM {γ : Type} {f : α → γ → Script C A ε α} {g : α → γ → α} {t : γ → List C}
    {xs : List γ} (a : α)
    (hf : ∀ x ∈ xs, ∀ a, (f a x).run answers = (.ok (g a x), t x)) :
    (xs.foldlM f a).run answers = (.ok (xs.foldl g a), xs.flatMap t) := by
  induction xs generalizing a with
  | nil => rfl
  | cons x xs ih =>
    rw [List.foldlM_cons, run_bind (hf x (List.mem_cons_self ..) a),
      ih _ fun y hy => hf y (List.mem_cons_of_mem _ hy)]
    rfl

theorem Uses.of_mem_run {allowed : C → Prop} {c : C} (h : s.Uses allowed)
    (hc : c ∈ (s.run answers).2) : allowed c := by
  induction s with
  | done a => cases hc
  | fail e => cases hc
  | call d k ih =>
    rcases List.mem_cons.mp hc with rfl | hc
    · exact h.1
    · exact ih _ (h.2 _) hc

theorem AtMost.countP_run {kind : C → Bool} {n : ℕ} (h : s.AtMost kind n) :
    (s.run answers).2.countP kind ≤ n := by
  induction s generalizing n with
  | done a => exact Nat.zero_le n
  | fail e => exact Nat.zero_le n
  | call c k ih =>
    rw [run, List.countP_cons]
    rw [AtMost] at h
    split at h
    · obtain ⟨m, rfl, hk⟩ := h
      rw [if_pos ‹_›]
      exact Nat.succ_le_succ (ih _ (hk _))
    · rw [if_neg ‹_›]
      exact ih _ (h _)

theorem run_ofExcept (x : Except ε α) : (Script.ofExcept x : Script C A ε α).run answers =
    (x, []) := by
  cases x <;> rfl

end Run

section Yields
variable {Q : β → Prop} {answers : (c : C) → Except ε (A c)}

def Yields (Q : α → Prop) : Script C A ε α → Prop
  | done a => Q a
  | fail _ => True
  | call _ k => ∀ r, Yields Q (k r)

theorem Yields.run {s : Script C A ε β} {b : β} (h : s.Yields Q)
    (hb : (s.run answers).1 = .ok b) : Q b := by
  induction s with
  | done a =>
    cases hb
    exact h
  | fail e => cases hb
  | call c k ih => exact ih _ (h _) hb

theorem Yields.bind {P : α → Prop} {s : Script C A ε α} {f : α → Script C A ε β} (h : s.Yields P)
    (hf : ∀ a, P a → (f a).Yields Q) : (s >>= f).Yields Q := by
  induction s with
  | done a => exact hf a h
  | fail e => trivial
  | call c k ih => exact fun r => ih r (h r)

theorem Yields.last (s : Script C A ε α) {f : α → Script C A ε β} (hf : ∀ a, (f a).Yields Q) :
    (s >>= f).Yields Q := by
  induction s with
  | done a => exact hf a
  | fail e => trivial
  | call c k ih => exact fun r => ih r

theorem Yields.ofExcept {x : Except ε β} (h : ∀ b, x = .ok b → Q b) :
    (Script.ofExcept x : Script C A ε β).Yields Q := by
  cases x with
  | ok b => exact h b rfl
  | error e => trivial

end Yields

section Raises
variable {own : ε → Prop} {answers : (c : C) → Except ε (A c)} {s : Script C A ε α} {e : ε}

def Raises (own : ε → Prop) : Script C A ε α → Prop
  | done _ => True
  | fail e => own e
  | call _ k => ∀ r, Raises own (k r)

theorem Raises.run (h : s.Raises own) (he : (s.run answers).1 = .error e) : own e := by
  induction s with
  | done a => cases he
  | fail e' =>
    cases he
    exact h
  | call c k ih => exact ih _ (h _) he

theorem Raises.bind {f : α → Script C A ε β} (h : s.Raises own) (hf : ∀ a, (f a).Raises own) :
    (s >>= f).Raises own := by
  induction s with
  | done a => exact hf a
  | fail e => exact h
  | call c k ih => exact fun r => ih r (h r)

theorem Raises.attempt (s : Script C A ε α) : s.attempt.Raises own := by
  induction s with
  | done a => trivial
  | fail e => trivial
  | call c k ih => exact fun r => ih r

theorem Raises.ofExcept {x : Except ε α} (h : ∀ e, x = .error e → own e) :
    (Script.ofExcept x : Script C A ε α).Raises own := by
  cases x with
  | ok a => trivial
  | error e => exact h e rfl

/-- It passes on the exception of its first call, unless it catches it, and fails otherwise only
with its own. -/
def Passes (own : ε → Prop) (caught : C → Prop) : Script C A ε α → Prop
  | done _ => True
  | fail e => own e
  | call c k =>
    (caught c ∧ ∀ r, (k r).Raises own) ∨
      (¬ caught c ∧ (∀ a, (k (.ok a)).Raises own) ∧ ∀ e, k (.error e) = fail e)

variable {caught : C → Prop}

theorem Passes.ofExcept_bind {x : Except ε α} {f : α → Script C A ε β}
    (h : ∀ e, x = .error e → own e)
    (hf : ∀ a, x = .ok a → (f a).Passes own caught) :
      (Script.ofExcept x >>= f).Passes own caught := by
  cases x with
  | ok a => exact hf a rfl
  | error e => exact h e rfl

theorem Passes.io_bind {c : C} {f : A c → Script C A ε β} (hc : ¬ caught c)
    (hf : ∀ a, (f a).Raises own) :
    (Script.io c >>= f : Script C A ε β).Passes own caught :=
  .inr ⟨hc, hf, fun _ => rfl⟩

theorem Passes.attempt_io_bind {c : C} {f : Except ε (A c) → Script C A ε β} (hc : caught c)
    (hf : ∀ x, (f x).Raises own) :
      ((Script.io c).attempt >>= f : Script C A ε β).Passes own caught := by
  refine .inl ⟨hc, fun r => ?_⟩
  cases r with
  | ok a => exact hf (.ok a)
  | error e => exact hf (.error e)

theorem Passes.bind {f : α → Script C A ε β} (h : s.Passes own caught) (hf : ∀ a, (f a).Raises own)
    (hs : s.next ≠ none) : (s >>= f).Passes own caught := by
  cases s with
  | done a => exact absurd rfl hs
  | fail e => exact h
  | call c k =>
    rcases h with ⟨hc, hk⟩ | ⟨hc, hok, herror⟩
    · exact .inl ⟨hc, fun r => (hk r).bind hf⟩
    · refine .inr ⟨hc, fun a => (hok a).bind hf, fun e => ?_⟩
      show (k (.error e)).bind f = fail e
      rw [herror e]
      rfl

theorem Passes.run (h : s.Passes own caught) (he : (s.run answers).1 = .error e) :
    own e ∨ ∃ c, s.next = some c ∧ ¬ caught c ∧ answers c = .error e := by
  cases s with
  | done a => cases he
  | fail e' =>
    cases he
    exact .inl h
  | call c k =>
    rcases h with ⟨-, hk⟩ | ⟨hc, hok, herror⟩
    · exact .inl ((hk _).run he)
    · cases hanswer : answers c with
      | ok a =>
        rw [Script.run, hanswer] at he
        exact .inl ((hok a).run he)
      | error e' =>
        rw [Script.run, hanswer, herror e'] at he
        cases he
        exact .inr ⟨c, rfl, hc, hanswer⟩

theorem Passes.run_next {c : C} (h : s.Passes own caught) (hnext : s.next = some c)
    (hc : ¬ caught c)
    (hanswer : answers c = .error e) : (s.run answers).1 = .error e := by
  obtain ⟨k, rfl⟩ := next_eq_some hnext
  rcases h with ⟨hcaught, -⟩ | ⟨-, -, herror⟩
  · exact absurd hcaught hc
  · rw [Script.run, hanswer, herror e]
    rfl

end Raises

section Agree
variable {answers answers' : (c : C) → Except ε (A c)}

inductive Matches (E : ε → ε → Prop) : Except ε α → Except ε α → Prop
  | ok (a : α) : Matches E (.ok a) (.ok a)
  | error {e e' : ε} : E e e' → Matches E (.error e) (.error e')

variable {E : ε → ε → Prop}

theorem Matches.refl (hE : ∀ e, E e e) (x : Except ε α) : Matches E x x := by
  cases x with
  | ok a => exact .ok a
  | error e => exact .error (hE e)

def Agree (answers answers' : (c : C) → Except ε (A c)) (E : ε → ε → Prop)
    (s s' : Script C A ε α) : Prop :=
  Matches E (s.run answers).1 (s'.run answers').1

theorem run_bind_fst (s : Script C A ε α) (f : α → Script C A ε β) :
    ((s >>= f).run answers).1 = (s.run answers).1.bind fun a => ((f a).run answers).1 := by
  cases h : (s.run answers).1 with
  | ok a => rw [run_bind (Prod.ext h rfl)]; rfl
  | error e => rw [run_bind_error (Prod.ext h rfl)]; rfl

theorem Agree.bind {s s' : Script C A ε α} {f f' : α → Script C A ε β}
    (h : Agree answers answers' E s s')
    (hf : ∀ a, Agree answers answers' E (f a) (f' a)) :
      Agree answers answers' E (s >>= f) (s' >>= f') := by
  rw [Agree, run_bind_fst, run_bind_fst]
  cases hs : (s.run answers).1 with
  | ok a =>
    cases hs' : (s'.run answers').1 with
    | ok a' =>
      rw [Agree, hs, hs'] at h
      cases h
      exact hf a
    | error e =>
      rw [Agree, hs, hs'] at h
      cases h
  | error e =>
    cases hs' : (s'.run answers').1 with
    | ok a' =>
      rw [Agree, hs, hs'] at h
      cases h
    | error e' =>
      rw [Agree, hs, hs'] at h
      cases h with
      | error he => exact .error he

theorem Agree.ofExcept (hE : ∀ e, E e e) (x : Except ε α) :
    Agree answers answers' E (Script.ofExcept x) (Script.ofExcept x) := by
  rw [Agree, run_ofExcept, run_ofExcept]
  exact .refl hE x

theorem Agree.io {c : C} (h : Matches E (answers c) (answers' c)) :
    Agree answers answers' E (Script.io c) (Script.io c) := by
  rw [Agree, run_io_eq, run_io_eq]
  exact h

theorem Agree.attempt_bind {s s' : Script C A ε α} {f f' : Except ε α → Script C A ε β}
    (h : Agree answers answers' E s s')
    (hf : ∀ x x', Matches E x x' → Agree answers answers' E (f x) (f' x')) :
    Agree answers answers' E (s.attempt >>= f) (s'.attempt >>= f') := by
  rw [Agree, run_bind_fst, run_bind_fst, run_attempt, run_attempt]
  exact hf _ _ h

end Agree
end Script

/-- A process that starts programs over and over and may stop at any point, with the world moving on
its own meanwhile. -/
structure Machine (σ C : Type) (A : C → Type) (ε α : Type) where
  init : σ → Prop
  env : σ → (c : C) → Except ε (A c) → σ → Prop
  starts : σ → Script C A ε α → σ → Prop
  stops : σ → σ → Prop

namespace Machine
variable {σ C : Type} {A : C → Type} {ε α : Type} (M : Machine σ C A ε α)

inductive Step : σ × Option (Script C A ε α) → σ × Option (Script C A ε α) → Prop
  | start {w w' : σ} {s : Script C A ε α} : M.starts w s w' → Step (w, none) (w', some s)
  | reply {c : C} {k : Except ε (A c) → Script C A ε α} {r : Except ε (A c)} {w w' : σ} :
      M.env w c r w' → Step (w, some (.call c k)) (w', some (k r))
  | stop {w w' : σ} (s : Option (Script C A ε α)) : M.stops w w' → Step (w, s) (w', none)

def system : System (σ × Option (Script C A ε α)) Unit where
  init x := M.init x.1 ∧ x.2 = none
  step x _ y := M.Step x y

variable {M} in
theorem reachable_start {w w' : σ} {s : Script C A ε α} (h : M.system.Reachable (w, none))
    (hs : M.starts w s w') : M.system.Reachable (w', some s) :=
  h.later (.single (i := ()) (.start hs))

variable {M} in
theorem reachable_reply {c : C} {k : Except ε (A c) → Script C A ε α} {w w' : σ}
    (h : M.system.Reachable (w, some (.call c k))) (r : Except ε (A c)) (henv : M.env w c r w') :
    M.system.Reachable (w', some (k r)) :=
  h.later (.single (i := ()) (.reply henv))

variable {M} in
theorem reachable_turns {handler : σ → (c : C) → Except ε (A c) × σ}
    (hh : ∀ w c, M.env w c (handler w c).1 (handler w c).2) (n : ℕ) {x : Script C A ε α × σ}
    (h : M.system.Reachable (x.2, some x.1)) :
    M.system.Reachable ((Script.turns handler n x).2, some (Script.turns handler n x).1) := by
  induction n generalizing x with
  | zero => exact h
  | succ n ih =>
    obtain ⟨s, w⟩ := x
    cases s with
    | done a => exact h
    | fail e => exact h
    | call c k => exact ih (reachable_reply h (handler w c).1 (hh w c))

/-- What has to be shown of a machine once: every program it starts is safe in the world it starts
in. -/
structure Secure (I : σ → Prop) (G : σ → C → Prop) (Q : α → σ → Prop) : Prop where
  init : ∀ w, M.init w → I w
  starts : ∀ w s w', I w → M.starts w s w' → s.Safe M.env I G Q w'
  stops : ∀ w w', I w → M.stops w w' → I w'

variable {M} {I : σ → Prop} {G : σ → C → Prop} {Q : α → σ → Prop}
  {x : σ × Option (Script C A ε α)} {w : σ}

theorem Secure.reachable (h : M.Secure I G Q) (hx : M.system.Reachable x) :
    I x.1 ∧ ∀ s, x.2 = some s → s.Safe M.env I G Q x.1 := by
  refine hx.invariant (I := fun x => I x.1 ∧ ∀ s, x.2 = some s → s.Safe M.env I G Q x.1) ?_ ?_
  · rintro ⟨w, _⟩ ⟨hinit, rfl⟩
    exact ⟨h.init w hinit, fun _ => nofun⟩
  · rintro x i y ⟨hI, hsafe⟩ (hstep : M.Step x y)
    cases hstep with
    | start hs =>
      have hnew := h.starts _ _ _ hI hs
      exact ⟨hnew.inv, by rintro _ ⟨⟩; exact hnew⟩
    | reply henv =>
      have hnew := (hsafe _ rfl).2.2 _ _ henv
      exact ⟨hnew.inv, by rintro _ ⟨⟩; exact hnew⟩
    | stop _ hs => exact ⟨h.stops _ _ hI hs, fun _ => nofun⟩

theorem Secure.guard (h : M.Secure I G Q) {c : C} {k : Except ε (A c) → Script C A ε α}
    (hx : M.system.Reachable (w, some (.call c k))) : G w c := ((h.reachable hx).2 _ rfl).2.1

theorem Secure.result (h : M.Secure I G Q) {a : α}
    (hx : M.system.Reachable (w, some (.done a))) : Q a w :=
  ((h.reachable hx).2 _ rfl).2

end Machine
end Beam
