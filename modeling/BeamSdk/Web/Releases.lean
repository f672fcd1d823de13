import BeamSdk.Web.Answers
import BeamSdk.Web.Resources

/-! What becomes of the subscriptions and media sessions that a Web Agent has allocated. -/

namespace Beam.Web.Agent

namespace Transport

/-- `t'` goes on with the session of `t` or has ended it. -/
structure Stays (t t' : Transport) : Prop where
  ended : ∀ s ∈ t.ended, s ∈ t'.ended
  session : ∀ s, t.connected = true → t.socket = some s →
    t'.connected = true ∧ t'.socket = some s ∨ s ∈ t'.ended

theorem Stays.trans {t u v : Transport} (h : Stays t u) (h' : Stays u v) : Stays t v where
  ended _ hs := h'.ended _ (h.ended _ hs)
  session s hconnected hsocket := by
    rcases h.session s hconnected hsocket with ⟨hu, hs⟩ | hs
    · exact h'.session s hu hs
    · exact .inr (h'.ended s hs)

theorem stays_of_same {t t' : Transport} (hended : t'.ended = t.ended)
    (hconnected : t'.connected = t.connected)
    (hsocket : t'.socket = t.socket) : Stays t t' where
  ended _ hs := hended ▸ hs
  session _ h hs := .inl ⟨hconnected.trans h, hsocket.trans hs⟩

theorem Stays.refl (t : Transport) : Stays t t := stays_of_same rfl rfl rfl

theorem stays_of_ended {t t' : Transport} (hended : ∀ s ∈ t.ended, s ∈ t'.ended)
    (hsocket : ∀ s, t.socket = some s → s ∈ t'.ended) : Stays t t' where
  ended := hended
  session s _ hs := .inr (hsocket s hs)

theorem sever_fields (t : Transport) (socket : Option ℕ) :
    (t.sever socket).ended =
      socket.toList ++ t.ended ∧ (t.sever socket).connected = t.connected := by
  obtain ⟨pending, hstops⟩ := stops_eq t.pending { t with
    attempt := none, opening := none, ended := socket.toList ++ t.ended }
  unfold sever
  simp only
  rw [hstops]
  exact ⟨rfl, rfl⟩

theorem connect_stays (t : Transport) : Stays t t.connect ∧ t.connect.connected = t.connected := by
  unfold connect
  split
  · exact ⟨.refl t, rfl⟩
  · split <;> exact ⟨stays_of_same rfl rfl rfl, rfl⟩

theorem calls_fields (inner : List Inner) {t : Transport} (hconnected : t.connected = false) :
    (inner.foldl call t).connected = false ∧ ∀ s ∈ t.ended, s ∈ (inner.foldl call t).ended := by
  induction inner generalizing t with
  | nil => exact ⟨hconnected, fun _ hs => hs⟩
  | cons one rest ih =>
    have hone : (t.call one).connected = false ∧ ∀ s ∈ t.ended, s ∈ (t.call one).ended := by
      cases one with
      | connect =>
        obtain ⟨hstays, hsame⟩ := connect_stays t
        exact ⟨hsame.trans hconnected, hstays.ended⟩
      | disconnect =>
        obtain ⟨hended, hfalse⟩ := sever_fields t.abort t.socket
        refine ⟨hfalse, fun s hs => ?_⟩
        show s ∈ (t.abort.sever t.socket).ended
        rw [hended]
        exact List.mem_append_right _ hs
    obtain ⟨hfalse, hended⟩ := ih hone.1
    exact ⟨hfalse, fun s hs => hended s (hone.2 s hs)⟩

theorem disconnect_stays (t : Transport) (inner : List Inner) :
    (t.disconnect inner).connected = false ∧ Stays t (t.disconnect inner) := by
  have hcalls : ∀ u : Transport,
      u = (if t.attempt.isSome then inner.foldl call t.abort else t.abort) →
      u.connected = false ∧ ∀ s ∈ t.ended, s ∈ u.ended := by
    rintro u rfl
    split
    · exact calls_fields inner rfl
    · exact ⟨rfl, fun _ hs => hs⟩
  obtain ⟨hfalse, hended⟩ := hcalls _ rfl
  obtain ⟨hsevered, hstill⟩ :=
    sever_fields (if t.attempt.isSome then inner.foldl call t.abort else t.abort) t.socket
  have hconnected : (t.disconnect inner).connected = false := hstill.trans hfalse
  refine ⟨hconnected, stays_of_ended (fun s hs => ?_) fun s hs => ?_⟩
  · show s ∈ (sever _ t.socket).ended
    rw [hsevered]
    exact List.mem_append_right _ (hended s hs)
  · show s ∈ (sever _ t.socket).ended
    rw [hsevered, hs]
    exact List.mem_cons_self ..

theorem control_stays (t : Transport) (sends : Bool) (inner : List Inner) :
    Stays t (t.control sends inner) := by
  unfold control
  split
  · exact .refl t
  · split
    · exact (disconnect_stays t inner).2
    · simp only
      split
      · exact stays_of_same rfl rfl rfl
      · have hcounted : Stays t { t with counter := t.counter + 1 } := stays_of_same rfl rfl rfl
        exact hcounted.trans (disconnect_stays _ inner).2

theorem modify_stays (t : Transport) (r : ℕ) (f : Call → Call) : Stays t (t.modify r f) :=
    stays_of_same rfl rfl rfl

theorem cancel_stays (t : Transport) (r : ℕ) (outcome : Outcome) (sends : Bool)
    (inner : List Inner) :
    Stays t (t.cancel r outcome sends inner) :=
  (modify_stays t r _).trans (control_stays _ sends inner)

theorem cleanup_stays (t : Transport) (r : ℕ) : Stays t (t.cleanup r) := by
  unfold cleanup
  simp only
  split <;> exact stays_of_same rfl rfl rfl

theorem request_stays (t : Transport) (aborted sends : Bool) :
    Stays t (t.request aborted sends) ∧ (t.request aborted sends).connected = t.connected ∧
      (t.request aborted sends).socket = t.socket := by
  unfold request
  split
  · exact ⟨stays_of_same rfl rfl rfl, rfl, rfl⟩
  · simp only
    split
    · exact ⟨stays_of_same rfl rfl rfl, rfl, rfl⟩
    · obtain ⟨pending, hstop⟩ := stop_eq { t with
        counter := t.counter + 1
        calls := t.calls ++ [⟨some (t.socket, toString (t.counter + 1)), true, false, none⟩]
        pending := setPending t.pending (toString (t.counter + 1)) t.calls.length } t.calls.length
      rw [hstop]
      exact ⟨stays_of_same rfl rfl rfl, rfl, rfl⟩

theorem perhapsControl_stays (t : Transport) (sends : Option Bool) (inner : List Inner) :
    Stays t (t.perhapsControl sends inner) := by
  cases sends with
  | none => exact .refl t
  | some sends => exact control_stays t sends inner

theorem receive_stays (t : Transport) (r : ℕ) (reply : Reply) (inner : List Inner) :
    Stays t (t.receive r reply inner) := by
  refine (cleanup_stays t r).trans ?_
  unfold receive
  simp only
  split
  · cases reply with
    | error => exact .refl _
    | invalidError => exact .refl _
    | value sends => exact perhapsControl_stays _ sends inner
    | invalid sends => exact (perhapsControl_stays _ sends inner).trans (disconnect_stays _ inner).2
  · cases reply with
    | error => exact modify_stays ..
    | invalidError => exact (modify_stays ..).trans (disconnect_stays _ inner).2
    | value sends => exact (perhapsControl_stays _ sends inner).trans (modify_stays ..)
    | invalid sends =>
      exact ((perhapsControl_stays _ sends inner).trans (modify_stays ..)).trans
        (disconnect_stays _ inner).2

theorem onmessage_stays (t : Transport) (s : ℕ) (wire : Wire) (inner : List Inner) :
    Stays t (t.onmessage s wire inner) := by
  unfold onmessage
  split
  · exact .refl t
  · split
    · rename_i hconnected
      have hfalse : t.connected = false := by simpa using hconnected
      split
      · exact ⟨fun _ hs => hs, fun _ htrue => absurd (hfalse.symm.trans htrue) (by decide)⟩
      · exact (disconnect_stays t inner).2
    · split
      · exact (disconnect_stays t inner).2
      · exact .refl t
      · split
        · exact receive_stays ..
        · exact .refl t
      · split
        · exact (disconnect_stays t inner).2
        · exact .refl t

theorem step_stays {t t' : Transport} {happening : Happening} (hsound : Sound none t)
    (hstep : t.step happening = some t') (htame : ¬ t.Escapes happening) : Stays t t' := by
  cases happening with
  | connect =>
    obtain rfl := Option.some.inj hstep
    exact (connect_stays t).1
  | credential a provision inner =>
    simp only [step, Option.ite_none_right_eq_some] at hstep
    obtain ⟨ha, hstep⟩ := hstep
    have hprovided : Stays t { t with waiting := t.waiting.erase a } := stays_of_same rfl rfl rfl
    cases provision with
    | failed =>
      obtain rfl := Option.some.inj hstep
      exact hprovided.trans (disconnect_stays _ inner).2
    | opened =>
      obtain rfl := Option.some.inj hstep
      refine ⟨fun _ hs => hs, fun s _ hsocket => ?_⟩
      obtain ⟨hattempt, hnot⟩ := hsound.owns s hsocket
      exact absurd (Option.some.inj (hattempt.symm.trans (hsound.waits a ha)) ▸ ha) hnot
    | hungUp => exact absurd trivial htame
  | openingSettled =>
    simp only [step, Option.ite_none_right_eq_some, Option.some.injEq] at hstep
    obtain ⟨-, rfl⟩ := hstep
    exact stays_of_same rfl rfl rfl
  | message s wire inner =>
    obtain rfl := Option.some.inj hstep
    exact onmessage_stays t s wire inner
  | closed s inner =>
    simp only [step, Option.ite_none_right_eq_some, Option.some.injEq] at hstep
    obtain ⟨-, rfl⟩ := hstep
    have hended : Stays t { t with ended := s :: t.ended } :=
      ⟨fun _ hs => List.mem_cons_of_mem s hs, fun _ hconnected hsocket =>
        .inl ⟨hconnected, hsocket⟩⟩
    split
    · exact hended.trans (disconnect_stays _ inner).2
    · exact hended
  | disconnect inner =>
    obtain rfl := Option.some.inj hstep
    exact (disconnect_stays t inner).2
  | request aborted sends =>
    obtain rfl := Option.some.inj hstep
    exact (request_stays t aborted sends).1
  | control sends inner =>
    obtain rfl := Option.some.inj hstep
    exact control_stays t sends inner
  | timedOut r sends inner =>
    simp only [step, Option.ite_none_right_eq_some, Option.some.injEq] at hstep
    obtain ⟨-, rfl⟩ := hstep
    split
    · exact (disconnect_stays t inner).2
    · exact cancel_stays ..
  | aborted r sends inner =>
    simp only [step, Option.ite_none_right_eq_some, Option.some.injEq] at hstep
    obtain ⟨-, rfl⟩ := hstep
    exact cancel_stays ..

/-- Between the messages of one step: the invariant, and listeners that leave nothing behind. -/
structure Steady (inner : List Inner) (t : Transport) : Prop where
  sound : Sound none t
  tame : t.Tame inner

theorem Steady.disconnect {t : Transport} {inner : List Inner} (h : Steady inner t) :
    Steady inner (t.disconnect inner) := by
  obtain ⟨hsound, -, htame⟩ := disconnect_sound h.sound h.tame
  exact ⟨hsound, htame⟩

theorem Steady.control {t : Transport} {inner : List Inner} (h : Steady inner t) (sends : Bool) :
    Steady inner (t.control sends inner) := by
  obtain ⟨hsound, -, htame⟩ := control_sound sends h.sound h.tame
  exact ⟨hsound, htame⟩

theorem Steady.cancel {t : Transport} {inner : List Inner} (h : Steady inner t) (r : ℕ)
    (sends : Bool) :
    Steady inner (t.cancel r .aborted sends inner) := by
  have hmodified : Sound none (t.modify r fun c => { c.settle .aborted with cancelled := true }) :=
    settle_sound h.sound (fun _ => rfl) (fun _ => rfl) (fun _ => rfl) (.inl rfl)
  exact Steady.control ⟨hmodified, h.tame⟩ sends

theorem Steady.request {t : Transport} {inner : List Inner} (h : Steady inner t)
    (aborted sends : Bool) :
    Steady inner (t.request aborted sends) := by
  refine ⟨(request_sound aborted sends h.sound).1, ?_⟩
  have htame := h.tame
  unfold Transport.request
  split
  · exact htame
  · simp only
    split
    · exact htame
    · obtain ⟨pending, hstop⟩ := stop_eq { t with
        counter := t.counter + 1
        calls := t.calls ++ [⟨some (t.socket, toString (t.counter + 1)), true, false, none⟩]
        pending := setPending t.pending (toString (t.counter + 1)) t.calls.length } t.calls.length
      rw [hstop]
      exact htame

theorem control_drops {t : Transport} {sends : Bool} {inner : List Inner}
    (h : (t.control sends inner).connected = true) :
    t.connected = true := by
  by_contra hconnected
  rw [control, if_pos hconnected] at h
  exact hconnected h

end Transport

namespace WebAgent

def Holds (a : WebAgent) : Remote → Prop
  | .subscription id => ∃ s ∈ a.subscriptions, s.id = id ∧ s.state ≠ .closed
  | .media id => ∃ s ∈ a.media, s.id = some id ∧ s.ended = false

/-- Of everything that was allocated on a socket: its session has ended, or it was released there,
or that is the session that goes on, and an object can still release it. -/
def Accounts (a : WebAgent) : Prop :=
  ∀ s remote, (s, remote) ∈ a.created → s ∈ a.transport.ended ∨ (s, remote) ∈ a.sent ∨
    (a.transport.connected = true ∧ a.transport.socket = some s ∧ a.Holds remote)

instance (a : WebAgent) (remote : Remote) : Decidable (a.Holds remote) := by
  unfold Holds
  split <;> infer_instance

instance (a : WebAgent) : Decidable a.Accounts :=
  decidable_of_iff (∀ x ∈ a.created, x.1 ∈ a.transport.ended ∨ x ∈ a.sent ∨
    (a.transport.connected = true ∧ a.transport.socket = some x.1 ∧ a.Holds x.2))
    ⟨fun h s remote hmem => h (s, remote) hmem, fun h x hmem => h x.1 x.2 hmem⟩

/-- Media sessions are of subscriptions that have been ready, and one that is bound has an offer
that is answered. -/
structure Begun (a : WebAgent) : Prop where
  parent : ∀ (m : ℕ) (s : MediaSession) (j : ℕ), a.media[m]? = some s → s.parent = some j →
    ∃ s', a.subscriptions[j]? = some s' ∧ s'.state ≠ .preparing
  offered : ∀ r m, a.purpose r = .offer m → ∃ s, a.media[m]? = some s ∧
    s.offer = some r ∧ s.id = none
  unoffered : ∀ (m : ℕ) (s : MediaSession), a.media[m]? = some s → s.offer = none → s.id = none

structure Ends (s s' : MediaSession) : Prop where
  id : s'.id = s.id
  parent : s'.parent = s.parent
  offer : s'.offer = s.offer
  ended : s'.ended = false → s.ended = false

theorem Ends.refl (s : MediaSession) : Ends s s := ⟨rfl, rfl, rfl, fun hlive => hlive⟩

theorem Ends.trans {s s' s'' : MediaSession} (h : Ends s s') (h' : Ends s' s'') : Ends s s'' :=
  ⟨h'.id.trans h.id, h'.parent.trans h.parent, h'.offer.trans h.offer, fun hlive =>
    h.ended (h'.ended hlive)⟩

/-- From `a` to `a'` nothing is allocated, and nothing but `lost` loses its objects. -/
structure Spares (lost : Remote → Prop) (a a' : WebAgent) : Prop where
  created : a'.created = a.created
  sent : ∀ x ∈ a.sent, x ∈ a'.sent
  drops : a'.transport.connected = true → a.transport.connected = true
  stays : a.transport.Stays a'.transport
  holds : a'.transport.connected = true → ∀ remote, a.Holds remote → ¬ lost remote → a'.Holds remote
  media : ∀ (m : ℕ) (s : MediaSession), a.media[m]? = some s →
    ∃ s', a'.media[m]? = some s' ∧ Ends s s'
  length : a'.media.length = a.media.length
  purposes : ∀ r m, a'.purpose r = .offer m → a.purpose r = .offer m
  subscriptions : ∀ (j : ℕ) (s : Subscription), a.subscriptions[j]? = some s →
    ∃ s', a'.subscriptions[j]? = some s' ∧ (s.state ≠ .preparing → s'.state ≠ .preparing)

def nothing (_ : Remote) : Prop := False

variable {lost lost' : Remote → Prop} {a b c : WebAgent}

theorem Spares.trans (h : Spares lost a b) (h' : Spares lost' b c) :
    Spares (fun remote => lost remote ∨ lost' remote) a c where
  created := h'.created.trans h.created
  sent x hx := h'.sent x (h.sent x hx)
  drops hc := h.drops (h'.drops hc)
  stays := h.stays.trans h'.stays
  holds hc remote hremote hlost := by
    obtain ⟨hfirst, hsecond⟩ := not_or.mp hlost
    exact h'.holds hc remote (h.holds (h'.drops hc) remote hremote hfirst) hsecond
  media m s hs := by
    obtain ⟨s₀, hs₀, hends₀⟩ := h.media m s hs
    obtain ⟨s', hs', hends⟩ := h'.media m s₀ hs₀
    exact ⟨s', hs', hends₀.trans hends⟩
  length := h'.length.trans h.length
  purposes r m hr := h.purposes r m (h'.purposes r m hr)
  subscriptions j s hs := by
    obtain ⟨s₀, hs₀, hstate₀⟩ := h.subscriptions j s hs
    obtain ⟨s', hs', hstate⟩ := h'.subscriptions j s₀ hs₀
    exact ⟨s', hs', fun hne => hstate (hstate₀ hne)⟩

theorem Spares.mono (h : Spares lost a b) (hlost : ∀ remote, lost remote → lost' remote) :
    Spares lost' a b :=
  { h with holds := fun hb remote hremote hnot =>
    h.holds hb remote hremote fun hl => hnot (hlost remote hl) }

theorem Spares.then (h : Spares lost a b) (h' : Spares nothing b c) : Spares lost a c :=
  (h.trans h').mono fun _ hremote => hremote.elim id False.elim

theorem spares_of_same (hcreated : b.created = a.created) (hsent : ∀ x ∈ a.sent, x ∈ b.sent)
    (hdrops : b.transport.connected = true → a.transport.connected = true)
    (hstays : a.transport.Stays b.transport)
    (hmedia : b.media = a.media) (hsubscriptions : b.subscriptions = a.subscriptions)
    (hpurposes : ∀ r m, b.purpose r = .offer m → a.purpose r = .offer m) : Spares nothing a b where
  created := hcreated
  sent := hsent
  drops := hdrops
  stays := hstays
  holds _ remote hremote _ := by
    cases remote with
    | subscription id => rwa [Holds, hsubscriptions]
    | media id => rwa [Holds, hmedia]
  media m s hs := ⟨s, hmedia ▸ hs, .refl s⟩
  length := congrArg List.length hmedia
  purposes := hpurposes
  subscriptions j s hs := ⟨s, hsubscriptions ▸ hs, id⟩

theorem Spares.refl (a : WebAgent) : Spares nothing a a :=
  spares_of_same rfl (fun _ hx => hx) id (.refl _) rfl rfl fun _ _ h => h

theorem media_before
    (hmedia : ∀ (m : ℕ) (s : MediaSession), a.media[m]? = some s →
      ∃ s', b.media[m]? = some s' ∧ Ends s s')
    (hlength : b.media.length = a.media.length) {m : ℕ} {s' : MediaSession}
    (hs' : b.media[m]? = some s') :
    ∃ s, a.media[m]? = some s ∧ Ends s s' := by
  obtain ⟨hlt, -⟩ := List.getElem?_eq_some_iff.mp hs'
  rw [hlength] at hlt
  obtain ⟨s'', hs'', hends⟩ := hmedia m a.media[m] (List.getElem?_eq_getElem hlt)
  cases hs'.symm.trans hs''
  exact ⟨_, List.getElem?_eq_getElem hlt, hends⟩

theorem Begun.of_ends (h : a.Begun)
    (hmedia : ∀ (m : ℕ) (s : MediaSession), a.media[m]? = some s →
      ∃ s', b.media[m]? = some s' ∧ Ends s s')
    (hlength : b.media.length = a.media.length)
    (hpurposes : ∀ r m, b.purpose r = .offer m → a.purpose r = .offer m)
    (hsubscriptions : ∀ (j : ℕ) (s : Subscription), a.subscriptions[j]? = some s →
      ∃ s', b.subscriptions[j]? = some s' ∧
        (s.state ≠ .preparing → s'.state ≠ .preparing)) : b.Begun where
  parent m s' j hs' hparent := by
    obtain ⟨s, hs, hends⟩ := media_before hmedia hlength hs'
    obtain ⟨sub, hsub, hstate⟩ := h.parent m s j hs (hends.parent ▸ hparent)
    obtain ⟨sub', hsub', hstate'⟩ := hsubscriptions j sub hsub
    exact ⟨sub', hsub', hstate' hstate⟩
  offered r m hr := by
    obtain ⟨s, hs, hoffer, hid⟩ := h.offered r m (hpurposes r m hr)
    obtain ⟨s', hs', hends⟩ := hmedia m s hs
    exact ⟨s', hs', hends.offer.trans hoffer, hends.id.trans hid⟩
  unoffered m s' hs' hoffer := by
    obtain ⟨s, hs, hends⟩ := media_before hmedia hlength hs'
    exact hends.id.trans (h.unoffered m s hs (hends.offer ▸ hoffer))

theorem Spares.begun (h : Spares lost a b) (hbegun : a.Begun) : b.Begun :=
  hbegun.of_ends h.media h.length h.purposes h.subscriptions

theorem Spares.accounts (h : Spares lost a b) (haccounts : a.Accounts)
    (hreleased : ∀ s remote, lost remote → b.transport.connected = true →
      b.transport.socket = some s → (s, remote) ∈ b.sent) :
    b.Accounts := by
  intro s remote hmem
  rw [h.created] at hmem
  rcases haccounts s remote hmem with hended | hsent | ⟨hconnected, hsocket, hholds⟩
  · exact .inl (h.stays.ended s hended)
  · exact .inr (.inl (h.sent _ hsent))
  · rcases h.stays.session s hconnected hsocket with ⟨hconnected', hsocket'⟩ | hended
    · by_cases hlost : lost remote
      · exact .inr (.inl (hreleased s remote hlost hconnected' hsocket'))
      · exact .inr (.inr ⟨hconnected', hsocket', h.holds hconnected' remote hholds hlost⟩)
    · exact .inl hended

@[simp] theorem settle_transport (a : WebAgent) (t : Transport) : (a.settle t).transport = t := by
  unfold settle
  simp only
  split <;> rfl

@[simp] theorem settle_sent (a : WebAgent) (t : Transport) : (a.settle t).sent = a.sent := by
  unfold settle
  simp only
  split <;> rfl

@[simp] theorem settle_created (a : WebAgent) (t : Transport) :
    (a.settle t).created = a.created := by
  unfold settle
  simp only
  split <;> rfl

theorem settle_eq {t : Transport} (ht : t.connected = true) :
    a.settle t = { a with transport := t } := by
  unfold settle
  rw [ht]
  simp

@[simp] theorem settle_purpose (a : WebAgent) (t : Transport) (r : ℕ) :
    (a.settle t).purpose r = a.purpose r := by
  unfold settle
  simp only
  split <;> rfl

theorem settle_length (a : WebAgent) (t : Transport) :
    (a.settle t).media.length = a.media.length := by
  unfold settle
  simp only
  split
  · exact List.length_mapIdx
  · rfl

theorem settle_media (t : Transport) {m : ℕ} {s : MediaSession} (h : a.media[m]? = some s) :
    ∃ s', (a.settle t).media[m]? = some s' ∧ Ends s s' := by
  unfold settle
  simp only
  split
  · refine ⟨_, by rw [List.getElem?_mapIdx, h]; rfl, ?_⟩
    simp only
    split
    · exact ⟨rfl, rfl, rfl, nofun⟩
    · exact .refl s
  · exact ⟨s, h, .refl s⟩

theorem settle_subscriptions (t : Transport) {j : ℕ} {s : Subscription}
    (h : a.subscriptions[j]? = some s) :
    ∃ s', (a.settle t).subscriptions[j]? = some s' ∧
      (s.state ≠ .preparing → s'.state ≠ .preparing) := by
  unfold settle
  simp only
  split
  · refine ⟨_, by rw [List.getElem?_mapIdx, h]; rfl, fun hstate => ?_⟩
    split
    · exact nofun
    · exact hstate
  · exact ⟨s, h, id⟩

theorem settle_spares {t : Transport} (hdrops : t.connected = true → a.transport.connected = true)
    (hstays : a.transport.Stays t) : Spares nothing a (a.settle t) where
  created := settle_created a t
  sent x hx := (settle_sent a t).symm ▸ hx
  drops h := hdrops (by rwa [settle_transport] at h)
  stays := (settle_transport a t).symm ▸ hstays
  holds h remote hremote _ := by
    rw [settle_transport] at h
    rw [settle_eq h]
    cases remote <;> exact hremote
  media m s h := settle_media t h
  length := settle_length a t
  purposes r m h := (settle_purpose a t r) ▸ h
  subscriptions j s h := settle_subscriptions t h

theorem log_spares (a : WebAgent) (remote : Remote) : Spares nothing a (a.log remote) :=
  spares_of_same rfl (fun _ hx => List.mem_append_right _ hx) id (.refl _) rfl rfl fun _ _ h => h

theorem mem_log {s : ℕ} {remote : Remote} (h : a.transport.socket = some s) :
    (s, remote) ∈ (a.log remote).sent := by
  rw [log, h]
  exact List.mem_cons_self ..

theorem control_spares (a : WebAgent) (remote : Remote) (sends : ℕ → Bool) (inner : List Inner) :
    Spares nothing a (a.control remote sends inner) := by
  have hsettled :
      Spares nothing a (a.settle (a.transport.control (sends (a.transport.counter + 1)) inner)) :=
    settle_spares Transport.control_drops (Transport.control_stays ..)
  unfold control
  simp only
  split
  · exact hsettled.then (log_spares _ remote)
  · exact hsettled

theorem control_sent {remote : Remote} {sends : ℕ → Bool} {inner : List Inner} {s : ℕ}
    (hconnected : (a.control remote sends inner).transport.connected = true)
    (hsocket : (a.control remote sends inner).transport.socket = some s) :
    (s, remote) ∈ (a.control remote sends inner).sent := by
  unfold control at *
  simp only at *
  split
  · rename_i hstill
    rw [if_pos hstill] at hsocket
    exact mem_log hsocket
  · rename_i hended
    rw [if_neg hended] at hconnected
    exact absurd hconnected hended

theorem cancel_spares (a : WebAgent) (r : ℕ) (sends : ℕ → Bool) (inner : List Inner) :
    Spares nothing a (a.cancel r sends inner) := by
  apply settle_spares
  · exact Transport.control_drops
  · exact Transport.cancel_stays ..

theorem purpose_snoc {purposes : List Purpose} {purpose : Purpose} {r m : ℕ}
    (h : (purposes ++ [purpose]).getD r .other = .offer m) :
    purposes.getD r .other = .offer m ∨ r = purposes.length ∧ purpose = .offer m := by
  rw [List.getD_eq_getElem?_getD] at h ⊢
  rcases Nat.lt_trichotomy r purposes.length with hlt | rfl | hgt
  · rw [List.getElem?_append_left hlt] at h
    exact .inl h
  · rw [List.getElem?_concat_length] at h
    exact .inr ⟨rfl, h⟩
  · rw [List.getElem?_eq_none (by rw [List.length_append, List.length_singleton]; exact hgt)] at h
    cases h

theorem request_spares (a : WebAgent) {purpose : Purpose} (hpurpose : ∀ m, purpose ≠ .offer m)
    (aborted sends : Bool) :
    Spares nothing a (a.request purpose aborted sends) := by
  obtain ⟨hstays, hconnected, -⟩ := Transport.request_stays a.transport aborted sends
  refine spares_of_same rfl (fun _ hx => hx)
    (fun h => hconnected ▸ h) hstays rfl rfl fun r m h => ?_
  rcases purpose_snoc h with hr | ⟨-, hoffer⟩
  · exact hr
  · exact absurd hoffer (hpurpose m)

theorem release_spares (a : WebAgent) (remote : Remote) (sends : ℕ → Bool) :
    Spares nothing a (a.release remote sends) := by
  have hother : ∀ m, Purpose.other ≠ .offer m := fun _ => nofun
  unfold release
  split
  · simp only
    split
    · exact request_spares a hother ..
    · exact (request_spares a hother ..).then (log_spares _ remote)
  · exact .refl a

theorem release_sent {remote : Remote} {sends : ℕ → Bool} {s : ℕ}
    (hrefuses : a.transport.connected = true → ¬ a.Refuses sends)
    (hconnected : (a.release remote sends).transport.connected = true)
    (hsocket : (a.release remote sends).transport.socket = some s) :
      (s, remote) ∈ (a.release remote sends).sent := by
  unfold release at *
  split at hconnected
  · rename_i htrue
    simp only [if_pos htrue, if_neg (hrefuses htrue)] at hsocket ⊢
    exact mem_log hsocket
  · rename_i hfalse
    exact absurd hconnected hfalse

def Bound (a : WebAgent) (m : ℕ) (remote : Remote) : Prop :=
  ∃ s id, a.media[m]? = some s ∧ s.ended = false ∧ s.id = some id ∧ remote = .media id

theorem ended_spares (a : WebAgent) (m : ℕ) (resources : OrderedMap String Resource) :
    Spares (a.Bound m) a { a with
    media := a.media.modify m fun s => { s with ended := true }
    resources := resources } where
  created := rfl
  sent _ hx := hx
  drops := id
  stays := .refl _
  holds _ remote hremote hbound := by
    cases remote with
    | subscription id => exact hremote
    | media id =>
      obtain ⟨s', hmem, hid, hlive⟩ := hremote
      obtain ⟨i, hi⟩ := List.getElem?_of_mem hmem
      have hne : m ≠ i := by
        rintro rfl
        exact hbound ⟨s', id, hi, hlive, hid, rfl⟩
      refine ⟨s', List.mem_of_getElem? (i := i) ?_, hid, hlive⟩
      rw [List.getElem?_modify, hi, Option.map_eq_map, Option.map_some, if_neg hne]
  media i s hi := by
    refine ⟨_, by rw [List.getElem?_modify, hi]; rfl, ?_⟩
    simp only
    split
    · exact ⟨rfl, rfl, rfl, nofun⟩
    · exact .refl s
  length := List.length_modify ..
  purposes _ _ h := h
  subscriptions j s h := ⟨s, h, id⟩

theorem mediaDisconnected_spares (a : WebAgent) (m : ℕ) (sends : ℕ → Bool) (inner : List Inner) :
    Spares (a.Bound m) a (a.mediaDisconnected m sends inner) := by
  have hsame : Spares (a.Bound m) a a := (Spares.refl a).mono fun _ => False.elim
  unfold mediaDisconnected
  split
  · exact hsame
  · rename_i s hs
    split
    · exact hsame
    · have hover := ended_spares a m (s.id.elim a.resources a.resources.delete)
      simp only
      split
      · exact hover
      · split
        · exact hover.then (cancel_spares ..)
        · exact hover

def BoundTo (a : WebAgent) (ms : List ℕ) (remote : Remote) : Prop := ∃ m ∈ ms, a.Bound m remote

theorem children_spares (ms : List ℕ) (a : WebAgent) (sends : ℕ → Bool) (inner : List Inner) :
    Spares (a.BoundTo ms) a (ms.foldl (fun a m => a.mediaDisconnected m sends inner) a) := by
  induction ms generalizing a with
  | nil => exact (Spares.refl a).mono fun _ => False.elim
  | cons m ms ih =>
    have hfirst := mediaDisconnected_spares a m sends inner
    rw [List.foldl_cons]
    refine (hfirst.trans (ih _)).mono fun remote hlost => ?_
    rcases hlost with hbound | ⟨i, hi, s', id, hs', hlive, hid, hremote⟩
    · exact ⟨m, List.mem_cons_self .., hbound⟩
    · obtain ⟨s, hs, hends⟩ := media_before hfirst.media hfirst.length hs'
      exact ⟨i, List.mem_cons_of_mem m hi, s, id, hs, hends.ended hlive, hends.id ▸ hid, hremote⟩

/-- What a subscription that is not over stands for, and what is bound to the media sessions under
it. -/
def Covers (a : WebAgent) (j : ℕ) (remote : Remote) : Prop :=
  (∃ s, a.subscriptions[j]? = some s ∧ s.state ≠ .closed ∧ remote = .subscription s.id) ∨
    a.BoundTo (a.children j) remote

theorem closed_spares {j : ℕ} {s : Subscription} (hs : a.subscriptions[j]? = some s)
    (resources : OrderedMap String Resource) : Spares (· = .subscription s.id) a { a with
      subscriptions := a.subscriptions.modify j fun s => { s with state := .closed }
      resources := resources } where
  created := rfl
  sent _ hx := hx
  drops := id
  stays := .refl _
  holds _ remote hremote hnot := by
    cases remote with
    | media id => exact hremote
    | subscription id =>
      obtain ⟨s', hmem, hid, hlive⟩ := hremote
      obtain ⟨i, hi⟩ := List.getElem?_of_mem hmem
      have hne : j ≠ i := by
        rintro rfl
        obtain rfl := Option.some.inj (hs.symm.trans hi)
        exact hnot (congrArg Remote.subscription hid.symm)
      refine ⟨s', List.mem_of_getElem? (i := i) ?_, hid, hlive⟩
      rw [List.getElem?_modify, hi, Option.map_eq_map, Option.map_some, if_neg hne]
  media m s h := ⟨s, h, .refl s⟩
  length := rfl
  purposes _ _ h := h
  subscriptions i s' hi := by
    refine ⟨_, by rw [List.getElem?_modify, hi]; rfl, fun hne => ?_⟩
    by_cases hij : j = i
    · simp [hij]
    · simpa [hij] using hne

theorem subscriptionDisconnected_spares (a : WebAgent) (j : ℕ) (sends : ℕ → Bool)
    (inner : List Inner) :
    Spares (a.Covers j) a (a.subscriptionDisconnected j sends inner) := by
  have hsame : Spares (a.Covers j) a a := (Spares.refl a).mono fun _ => False.elim
  unfold subscriptionDisconnected
  split
  · exact hsame
  · rename_i s hs
    split
    · exact hsame
    · rename_i hstate
      refine ((closed_spares hs _).trans
        (children_spares (a.children j) _ sends inner)).mono fun remote hlost => ?_
      rcases hlost with hremote | hbound
      · exact .inl ⟨s, hs, hstate, hremote⟩
      · exact .inr hbound

variable {inner : List Inner}

theorem control_steady (h : a.transport.Steady inner) (remote : Remote) (sends : ℕ → Bool) :
    (a.control remote sends inner).transport.Steady inner := by
  have hcontrol := h.control (sends (a.transport.counter + 1))
  unfold control
  simp only
  split
  · rwa [log, settle_transport]
  · rwa [settle_transport]

theorem release_steady (h : a.transport.Steady inner) (remote : Remote) (sends : ℕ → Bool) :
    (a.release remote sends).transport.Steady inner := by
  have hrequest := h.request false (sends (a.transport.counter + 1))
  unfold release
  split
  · simp only
    split
    · exact hrequest
    · exact hrequest
  · exact h

theorem mediaDisconnected_steady (h : a.transport.Steady inner) (m : ℕ) (sends : ℕ → Bool) :
    (a.mediaDisconnected m sends inner).transport.Steady inner := by
  unfold mediaDisconnected
  split
  · exact h
  · split
    · exact h
    · simp only
      split
      · exact h
      · split
        · rw [cancel, settle_transport]
          exact h.cancel _ _
        · exact h

theorem children_steady (ms : List ℕ) (h : a.transport.Steady inner) (sends : ℕ → Bool) :
    (ms.foldl (fun a m => a.mediaDisconnected m sends inner) a).transport.Steady inner := by
  induction ms generalizing a with
  | nil => exact h
  | cons m ms ih => exact ih (mediaDisconnected_steady h m sends)

theorem subscriptionDisconnected_steady (h : a.transport.Steady inner) (j : ℕ) (sends : ℕ → Bool) :
    (a.subscriptionDisconnected j sends inner).transport.Steady inner := by
  unfold subscriptionDisconnected
  split
  · exact h
  · split
    · exact h
    · apply children_steady
      exact h

theorem failMedia_steady (h : a.transport.Steady inner) (m : ℕ) (sends : ℕ → Bool) :
    (a.failMedia m sends inner).transport.Steady inner := by
  have hover := mediaDisconnected_steady h m sends
  unfold failMedia
  split
  · exact h
  · rename_i s _
    split
    · exact h
    · cases s.id with
      | none => exact hover
      | some id => exact control_steady hover (.media id) sends

def Viewed (a : WebAgent) (j : ℕ) : Prop :=
    ∃ m ∈ a.children j, ∃ s ∈ a.media[m]?, s.id.isSome = true

instance (a : WebAgent) (j : ℕ) : Decidable (a.Viewed j) :=
    inferInstanceAs (Decidable (∃ _ ∈ _, ∃ _ ∈ _, _))

/-- `close()` comes to ask for the release while connected, and the transport turns it down. -/
def TurnsDown (a : WebAgent) (sends : ℕ → Bool) : Prop :=
    a.transport.connected = true ∧ a.Refuses sends

instance (a : WebAgent) (sends : ℕ → Bool) : Decidable (a.TurnsDown sends) :=
    inferInstanceAs (Decidable (_ ∧ _))

instance (t : Transport) (inner : List Inner) : Decidable (t.Tame inner) :=
    inferInstanceAs (Decidable (¬ (_ ∧ _)))

/-- A step that may lose a resource: `close()` of a bound object is turned down; a subscription
ends that still has a view, or is told of an error; or an attempt escapes. -/
def Loses (a : WebAgent) : Step → Prop
  | .transport happening => a.transport.Escapes happening
  | .answer _ _ _ _ inner | .unready _ _ inner | .failMedia _ _ inner => ¬ a.transport.Tame inner
  | .notice _ id notice _ inner => ¬ a.transport.Tame inner ∨
      ((a.resources.get id).any fun | .subscription _ => true | .media _ => false) = true ∧
        (match notice with | .error true => true | _ => false) = true
  | .closeSubscription j sends inner => ¬ a.transport.Tame inner ∨
      ∃ s ∈ a.subscriptions[j]?, s.state ≠ .closed ∧ a.transport.connected = true ∧
        (a.Viewed j ∨ (a.subscriptionDisconnected j sends inner).TurnsDown sends)
  | .closeMedia m sends inner => ¬ a.transport.Tame inner ∨
      ∃ s ∈ a.media[m]?, s.ended = false ∧ s.id.isSome = true ∧
        (a.mediaDisconnected m sends inner).TurnsDown sends
  | _ => False

instance (a : WebAgent) (i : Step) : Decidable (a.Loses i) := by
  unfold Loses
  split <;> infer_instance

structure Accounted (a : WebAgent) : Prop where
  sound : Transport.Sound none a.transport
  begun : a.Begun
  accounts : a.Accounts

theorem Accounted.of_spares (h : a.Accounted) (hspares : Spares lost a b)
    (hsound : Transport.Sound none b.transport)
    (hreleased : ∀ s remote, lost remote → b.transport.connected = true →
      b.transport.socket = some s → (s, remote) ∈ b.sent) :
    b.Accounted :=
  ⟨hsound, hspares.begun h.begun, hspares.accounts h.accounts hreleased⟩

theorem Accounted.of_quiet (h : a.Accounted) (hspares : Spares nothing a b)
    (hsound : Transport.Sound none b.transport) : b.Accounted :=
  h.of_spares hspares hsound fun _ _ => False.elim

theorem failMedia_accounted (h : a.Accounted) (htame : a.transport.Tame inner) (m : ℕ)
    (sends : ℕ → Bool) :
    (a.failMedia m sends inner).Accounted := by
  have hsteady := failMedia_steady ⟨h.sound, htame⟩ m sends
  have hover := mediaDisconnected_spares a m sends inner
  unfold failMedia at *
  split
  · exact h
  · rename_i s hs
    split
    · exact h
    · rename_i hended
      rw [hs] at hsteady
      simp only [if_neg hended] at hsteady ⊢
      cases hid : s.id with
      | none =>
        rw [hid] at hsteady
        refine h.of_spares hover hsteady.sound ?_
        rintro _ _ ⟨s', id, hs', -, hid', -⟩
        cases hs.symm.trans hs'
        cases hid.symm.trans hid'
      | some id =>
        rw [hid] at hsteady
        refine h.of_spares (hover.then (control_spares _ (.media id) sends inner)) hsteady.sound ?_
        rintro socket remote ⟨s', id', hs', -, hid', rfl⟩ hconnected hsocket
        cases hs.symm.trans hs'
        cases hid.symm.trans hid'
        exact control_sent hconnected hsocket

theorem closeMedia_accounted (h : a.Accounted) {m : ℕ} {sends : ℕ → Bool}
    (hkeeps : ¬ a.Loses (.closeMedia m sends inner)) :
    (a.closeMedia m sends inner).Accounted := by
  obtain ⟨htame, hasked⟩ := not_or.mp hkeeps
  have hsteady := mediaDisconnected_steady ⟨h.sound, not_not.mp htame⟩ m sends
  have hover := mediaDisconnected_spares a m sends inner
  unfold closeMedia
  split
  · exact h
  · rename_i s hs
    split
    · exact h
    · rename_i hended
      simp only
      cases hid : s.id with
      | none =>
        refine h.of_spares hover hsteady.sound ?_
        rintro _ _ ⟨s', id, hs', -, hid', -⟩
        cases hs.symm.trans hs'
        cases hid.symm.trans hid'
      | some id =>
        have htaken : (a.mediaDisconnected m sends inner).transport.connected = true →
            ¬ (a.mediaDisconnected m sends inner).Refuses sends := by
          intro hconnected hrefuses
          exact hasked ⟨s, hs, by simpa using hended, (by rw [hid]; rfl), hconnected, hrefuses⟩
        refine h.of_spares (hover.then (release_spares _ (.media id) sends))
          (release_steady hsteady _ sends).sound ?_
        rintro socket remote ⟨s', id', hs', -, hid', rfl⟩ hconnected hsocket
        cases hs.symm.trans hs'
        cases hid.symm.trans hid'
        exact release_sent htaken hconnected hsocket

theorem covers_of_unviewed {j : ℕ} {remote : Remote} (hviewed : ¬ a.Viewed j)
    (hcovers : a.Covers j remote) :
    ∃ s, a.subscriptions[j]? = some s ∧ s.state ≠ .closed ∧ remote = .subscription s.id := by
  rcases hcovers with hself | ⟨m, hm, s, id, hs, -, hid, -⟩
  · exact hself
  · exact absurd ⟨m, hm, s, hs, (by rw [hid]; rfl)⟩ hviewed

theorem unready_accounted (h : a.Accounted) (htame : a.transport.Tame inner) {j : ℕ}
    (hpreparing : a.subscriptions[j]?.any (·.state = .preparing) = true) (sends : ℕ → Bool) :
    (a.unready j sends inner).Accounted := by
  obtain ⟨s, hs, hstate⟩ := (Option.any_eq_true _ _).mp hpreparing
  have hstate : s.state = .preparing := by simpa using hstate
  have hsteady := subscriptionDisconnected_steady ⟨h.sound, htame⟩ j sends
  have hover := subscriptionDisconnected_spares a j sends inner
  have hviewed : ¬ a.Viewed j := by
    rintro ⟨m, hm, s', hs', -⟩
    obtain ⟨-, hchild⟩ := List.mem_filter.mp hm
    rw [Option.mem_def.mp hs', Option.any_some, Bool.and_eq_true, beq_iff_eq] at hchild
    obtain ⟨sub, hsub, hbegun⟩ := h.begun.parent m s' j hs' hchild.1
    cases hs.symm.trans hsub
    exact hbegun hstate
  unfold unready
  rw [hs]
  refine h.of_spares (hover.then (control_spares _ (.subscription s.id) sends inner))
    (control_steady hsteady _ sends).sound ?_
  intro socket remote hcovers hconnected hsocket
  obtain ⟨s', hs', -, rfl⟩ := covers_of_unviewed hviewed hcovers
  cases hs.symm.trans hs'
  exact control_sent hconnected hsocket

theorem closeSubscription_accounted (h : a.Accounted) {j : ℕ} {sends : ℕ → Bool}
    (hkeeps : ¬ a.Loses (.closeSubscription j sends inner)) :
      (a.closeSubscription j sends inner).Accounted := by
  obtain ⟨htame, hasked⟩ := not_or.mp hkeeps
  have hsteady := subscriptionDisconnected_steady ⟨h.sound, not_not.mp htame⟩ j sends
  have hover := subscriptionDisconnected_spares a j sends inner
  unfold closeSubscription
  split
  · exact h
  · rename_i s hs
    split
    · exact h
    · rename_i hstate
      have hconnects : (a.subscriptionDisconnected j sends inner).transport.connected = true →
          ¬ a.Viewed j ∧ ¬ (a.subscriptionDisconnected j sends inner).Refuses sends := by
        intro hconnected
        have hgood := fun hbad => hasked ⟨s, hs, hstate, hover.drops hconnected, hbad⟩
        exact ⟨fun hviewed => hgood (.inl hviewed), fun hrefuses =>
          hgood (.inr ⟨hconnected, hrefuses⟩)⟩
      have hreleased := release_spares (a.subscriptionDisconnected j sends inner)
        (.subscription s.id) sends
      refine h.of_spares (hover.then hreleased) (release_steady hsteady _ sends).sound ?_
      intro socket remote hcovers hconnected hsocket
      obtain ⟨hviewed, htaken⟩ := hconnects (hreleased.drops hconnected)
      obtain ⟨s', hs', -, rfl⟩ := covers_of_unviewed hviewed hcovers
      cases hs.symm.trans hs'
      exact release_sent (fun _ => htaken) hconnected hsocket

theorem hangUp_accounted (h : a.Accounted) (htame : a.transport.Tame inner) :
    (a.hangUp inner).Accounted := by
  obtain ⟨hover, hstays⟩ := Transport.disconnect_stays a.transport inner
  have hspares : Spares nothing a (a.hangUp inner) :=
    settle_spares (fun hbad => absurd (hover.symm.trans hbad) (by decide)) hstays
  refine h.of_quiet hspares ?_
  rw [hangUp, settle_transport]
  exact (Transport.Steady.disconnect ⟨h.sound, htame⟩).sound

theorem ready_spares (a : WebAgent) (j : ℕ) : Spares nothing a { a with
    subscriptions := a.subscriptions.modify j fun s =>
      if s.state = .preparing then { s with state := .ready } else s } where
  created := rfl
  sent _ hx := hx
  drops := id
  stays := .refl _
  holds _ remote hremote _ := by
    cases remote with
    | media id => exact hremote
    | subscription id =>
      obtain ⟨s, hmem, hid, hlive⟩ := hremote
      obtain ⟨i, hi⟩ := List.getElem?_of_mem hmem
      refine ⟨_, List.mem_of_getElem? (i := i) (by rw [List.getElem?_modify, hi]; rfl), ?_⟩
      simp only
      split
      · split
        · exact ⟨hid, nofun⟩
        · exact ⟨hid, hlive⟩
      · exact ⟨hid, hlive⟩
  media m s h := ⟨s, h, .refl s⟩
  length := rfl
  purposes _ _ h := h
  subscriptions i s hi := by
    refine ⟨_, by rw [List.getElem?_modify, hi]; rfl, fun hne => ?_⟩
    simp only
    split
    · exact hne
    · exact hne

theorem noticed_accounted (h : a.Accounted) {resource : Resource} {notice : Notice}
    {sends : ℕ → Bool} (htame : a.transport.Tame inner)
    (hkeeps : ∀ j, resource = .subscription j → notice ≠ .error true) :
      (a.noticed resource notice sends inner).Accounted := by
  unfold noticed
  split
  · exact hangUp_accounted h htame
  · exact hangUp_accounted h htame
  · exact absurd rfl (hkeeps _ rfl)
  · exact h.of_quiet (ready_spares a _) h.sound
  · exact failMedia_accounted h htame _ sends
  · exact failMedia_accounted h htame _ sends
  · exact h

theorem receive_invalid (t : Transport) (r : ℕ) (control : Option Bool) (inner : List Inner) :
    (t.receive r (.invalid control) inner).connected = false := by
  unfold Transport.receive
  simp only
  split
  · exact (Transport.disconnect_stays _ inner).1
  · exact (Transport.disconnect_stays _ inner).1

/-- Objects that are there stay, and an offer that is answered is of a media session that is not
bound. -/
theorem take_holds (h : a.Begun) (r : ℕ) (answer : Answer) {remote : Remote}
    (hholds : a.Holds remote) :
    (a.take r answer).Holds remote := by
  unfold take
  split
  · rename_i id valid
    split
    · split
      · cases remote with
        | subscription other =>
          obtain ⟨s, hmem, hs⟩ := hholds
          exact ⟨s, List.mem_append_left _ hmem, hs⟩
        | media other => exact hholds
      · exact hholds
    · rename_i m hpurpose
      obtain ⟨s₀, hs₀, -, hunbound⟩ := h.offered r m hpurpose
      cases remote with
      | subscription other => exact hholds
      | media other =>
        obtain ⟨s, hmem, hid, hlive⟩ := hholds
        obtain ⟨i, hi⟩ := List.getElem?_of_mem hmem
        have hne : m ≠ i := by
          rintro rfl
          cases hs₀.symm.trans hi
          cases hunbound.symm.trans hid
        refine ⟨s, List.mem_of_getElem? (i := i) ?_, hid, hlive⟩
        rw [List.getElem?_modify, hi, Option.map_eq_map, Option.map_some, if_neg hne]
    · exact hholds
  · exact hholds

theorem take_allocated {r : ℕ} {id : String} {valid : Bool} {remote : Remote}
    (hlate : a.late r = false)
    (hvalid : ∀ media, a.purpose r = .subscribe media → valid = true)
    (hallocated : a.allocated r (.value (some id) valid) = some remote) :
    (a.take r (.value (some id) valid)).Holds remote := by
  obtain ⟨-, hlive⟩ := Bool.or_eq_false_iff.mp hlate
  unfold allocated at hallocated
  unfold take
  cases hpurpose : a.purpose r with
  | subscribe media =>
    simp only [hpurpose, Option.some.injEq] at hallocated ⊢
    rw [if_pos (hvalid media hpurpose)]
    subst hallocated
    exact ⟨_, List.mem_append_right _ (List.mem_singleton_self _), rfl, nofun⟩
  | offer m =>
    simp only [hpurpose, Option.some.injEq] at hallocated hlive ⊢
    subst hallocated
    unfold finished at hlive
    cases hs : a.media[m]? with
    | none =>
      rw [hs] at hlive
      cases hlive
    | some s =>
      rw [hs] at hlive
      refine ⟨{ s with id := some id }, List.mem_of_getElem? (i := m) ?_, rfl, hlive⟩
      rw [List.getElem?_modify, hs, Option.map_eq_map, Option.map_some, if_pos rfl]
  | other =>
    simp only [hpurpose] at hallocated
    cases hallocated

theorem purpose_set {purposes : List Purpose} {r i m : ℕ}
    (h : (purposes.set r .other).getD i .other = .offer m) :
    i ≠ r ∧ purposes.getD i .other = .offer m := by
  rw [List.getD_eq_getElem?_getD, List.getElem?_set] at h
  split at h
  · split at h <;> cases h
  · rename_i hne
    rw [List.getD_eq_getElem?_getD]
    exact ⟨fun heq => hne heq.symm, h⟩

theorem answered_begun (h : a.Begun) (r : ℕ) (created : List (ℕ × Remote)) :
    Begun { a with purposes := a.purposes.set r .other, created := created } where
  parent := h.parent
  offered i m hi := h.offered i m (purpose_set hi).2
  unoffered := h.unoffered

theorem take_begun (h : a.Begun) (r : ℕ) (answer : Answer) (created : List (ℕ × Remote)) :
    Begun { a.take r answer with purposes := a.purposes.set r .other, created := created } := by
  have hsame := answered_begun h r created
  unfold take
  split
  · rename_i id valid
    split
    · split
      · refine ⟨fun m s j hs hparent => ?_, hsame.offered, h.unoffered⟩
        obtain ⟨sub, hsub, hstate⟩ := h.parent m s j hs hparent
        obtain ⟨hlt, -⟩ := List.getElem?_eq_some_iff.mp hsub
        exact ⟨sub, (List.getElem?_append_left hlt).trans hsub, hstate⟩
      · exact hsame
    · rename_i m hpurpose
      obtain ⟨s₀, hs₀, hoffer₀, -⟩ := h.offered r m hpurpose
      constructor
      · intro i s j hs hparent
        simp only [List.getElem?_modify, Option.map_eq_map, Option.map_eq_some_iff] at hs
        obtain ⟨s', hs', rfl⟩ := hs
        refine h.parent i s' j hs' ?_
        split at hparent
        · exact hparent
        · exact hparent
      · intro i k hi
        obtain ⟨hne, hi⟩ := purpose_set hi
        obtain ⟨s, hs, hoffer, hid⟩ := h.offered i k hi
        have hmk : m ≠ k := by
          rintro rfl
          cases hs₀.symm.trans hs
          exact hne (Option.some.inj (hoffer.symm.trans hoffer₀))
        refine ⟨s, ?_, hoffer, hid⟩
        simp only [List.getElem?_modify, hs, Option.map_eq_map, Option.map_some, if_neg hmk]
      · intro i s hs hoffer
        simp only [List.getElem?_modify, Option.map_eq_map, Option.map_eq_some_iff] at hs
        obtain ⟨s', hs', rfl⟩ := hs
        split at hoffer
        · rename_i hmi
          subst hmi
          cases hs₀.symm.trans hs'
          exact nomatch hoffer₀.symm.trans hoffer
        · rename_i hmi
          simp only [if_neg hmi]
          exact h.unoffered i s' hs' hoffer
    · exact hsame
  · exact hsame

theorem settle_begun (h : a.Begun) (t : Transport) : (a.settle t).Begun :=
  h.of_ends (fun _ _ => settle_media t) (settle_length a t)
    (fun r _ hr => settle_purpose a t r ▸ hr)
    fun _ _ => settle_subscriptions t

theorem valid_of_connected {s r : ℕ} {id resourceId : String} {entry : String × ℕ}
    {valid sends : Bool}
    (hconnected : a.transport.connected = true) (hsocket : a.transport.socket = some s)
    (hfound : a.transport.pending.find? (·.1 = id) = some entry) (hentry : entry.2 = r)
    (hlate : a.late r = false)
    (hstill : (a.transport.onmessage s
      (.response id (a.reply r (.value (some resourceId) valid) sends)) inner).connected = true)
    {media : Bool} (hpurpose : a.purpose r = .subscribe media) : valid = true := by
  obtain ⟨hcancelled, -⟩ := Bool.or_eq_false_iff.mp hlate
  by_contra hinvalid
  have hreply : a.reply r (.value (some resourceId) valid) sends = .invalid none := by
    unfold reply
    simp only [hpurpose, hcancelled]
    simp [hinvalid]
  have hreceived : a.transport.onmessage s (.response id (.invalid none)) inner =
      a.transport.receive r (.invalid none) inner := by
    unfold Transport.onmessage
    rw [if_neg (not_not.mpr hsocket), if_neg (not_not.mpr hconnected)]
    simp only [hfound]
    rw [← hentry]
  rw [hreply, hreceived, receive_invalid] at hstill
  cases hstill

def taken (a : WebAgent) (r : ℕ) (answer : Answer) : WebAgent :=
  if a.transport.calls[r]?.any Call.cancelled then a else a.take r answer

theorem taken_fields (a : WebAgent) (r : ℕ) (answer : Answer) :
    (a.taken r answer).transport = a.transport ∧ (a.taken r answer).sent = a.sent := by
  unfold taken
  split
  · exact ⟨rfl, rfl⟩
  · unfold take
    split
    · split
      · split <;> exact ⟨rfl, rfl⟩
      · exact ⟨rfl, rfl⟩
      · exact ⟨rfl, rfl⟩
    · exact ⟨rfl, rfl⟩

theorem taken_holds (h : a.Begun) (r : ℕ) (answer : Answer) {remote : Remote}
    (hholds : a.Holds remote) :
    (a.taken r answer).Holds remote := by
  unfold taken
  split
  · exact hholds
  · exact take_holds h r answer hholds

theorem taken_begun (h : a.Begun) (r : ℕ) (answer : Answer) (created : List (ℕ × Remote)) :
    Begun { a.taken r answer with purposes := a.purposes.set r .other, created := created } := by
  unfold taken
  split
  · exact answered_begun h r created
  · exact take_begun h r answer created

theorem taken_allocated {s r : ℕ} {id : String} {answer : Answer} {sends : Bool} {remote : Remote}
    {key : String}
    (hconnected : a.transport.connected = true) (hsocket : a.transport.socket = some s)
    (hfound : a.transport.pending.find? (·.1 = id) = some (key, r)) (hlate : a.late r = false)
    (hstill : (a.transport.onmessage s (.response id (a.reply r answer sends)) inner).connected =
      true)
    (hallocated : a.allocated r answer = some remote) : (a.taken r answer).Holds remote := by
  obtain ⟨hcancelled, -⟩ := Bool.or_eq_false_iff.mp hlate
  unfold taken
  rw [hcancelled, if_neg (by decide)]
  cases answer with
  | error readable => cases hallocated
  | value resourceId valid =>
    cases resourceId with
    | none => cases hallocated
    | some resourceId =>
      refine take_allocated hlate (fun media hpurpose => ?_) hallocated
      exact valid_of_connected hconnected hsocket hfound rfl hlate hstill hpurpose

def settled (a : WebAgent) (s r : ℕ) (answer : Answer) (t : Transport) : WebAgent :=
  { a.taken r answer with
    purposes := a.purposes.set r .other
    created := (a.allocated r answer).toList.map (s, ·) ++ a.created }.settle t

theorem settled_begun (h : a.Begun) (s r : ℕ) (answer : Answer) (t : Transport) :
    (a.settled s r answer t).Begun :=
  settle_begun (taken_begun h r answer _) t

theorem settled_holds {t : Transport} (ht : t.connected = true) {s r : ℕ} {answer : Answer}
    {remote : Remote}
    (hholds : (a.taken r answer).Holds remote) : (a.settled s r answer t).Holds remote := by
  rw [settled, settle_eq ht]
  cases remote with
  | subscription id => exact hholds
  | media id => exact hholds

theorem answered_accounted (h : a.Accounted) (htame : a.transport.Tame inner) {s : ℕ} {id : String}
    {entry : String × ℕ}
    (hconnected : a.transport.connected = true) (hsocket : a.transport.socket = some s)
    (hfound : a.transport.pending.find? (·.1 = id) = some entry) (answer : Answer)
    (sends : ℕ → Bool) :
    (a.answered s id entry.2 answer sends inner).Accounted := by
  obtain ⟨key, r⟩ := entry
  let reply := a.reply r answer (sends (a.transport.counter + 1))
  let t := a.transport.onmessage s (.response id reply) inner
  let a' := a.settled s r answer t
  have hsound : Transport.Sound none t := (Transport.onmessage_sound h.sound htame).1
  have hstays : a.transport.Stays t := Transport.onmessage_stays ..
  have htransport : a'.transport = t := settle_transport ..
  have hcreated : a'.created = (a.allocated r answer).toList.map (s, ·) ++ a.created :=
    settle_created ..
  have hbegun : a'.Begun := settled_begun h.begun s r answer t
  have hsent : a'.sent = a.sent := (settle_sent _ t).trans (taken_fields a r answer).2
  have hsession : s ∈ t.ended ∨ t.connected = true ∧ t.socket = some s :=
    (hstays.session s hconnected hsocket).symm
  have hearlier : ∀ x remote, (x, remote) ∈ a.created → x ∈ t.ended ∨ (x, remote) ∈ a'.sent ∨
      (t.connected = true ∧ t.socket = some x ∧ a'.Holds remote) := by
    intro x remote hmem
    rcases h.accounts x remote hmem with hended | hx | ⟨hwas, hx, hholds⟩
    · exact .inl (hstays.ended x hended)
    · exact .inr (.inl (hsent ▸ hx))
    · rcases hstays.session x hwas hx with ⟨ht, hx⟩ | hended
      · exact .inr (.inr ⟨ht, hx, settled_holds ht (taken_holds h.begun r answer hholds)⟩)
      · exact .inl hended
  show Accounted (if a.late r && a'.transport.connected then
    (a.allocated r answer).elim a' a'.log else a')
  cases hallocated : a.allocated r answer with
  | none =>
    have hsame : a'.created = a.created := by
      rw [hcreated, hallocated]
      rfl
    rw [Option.elim_none, ite_self]
    refine ⟨htransport ▸ hsound, hbegun, fun x remote hmem => ?_⟩
    rw [htransport]
    exact hearlier x remote (hsame ▸ hmem)
  | some remote =>
    have hmem_created : ∀ x other, (x, other) ∈ a'.created → x = s ∧ other = remote ∨
        (x, other) ∈ a.created := by
      intro x other hmem
      rw [hcreated, hallocated] at hmem
      rcases List.mem_cons.mp hmem with hnew | hold
      · exact .inl (Prod.mk.inj hnew)
      · exact .inr hold
    rw [Option.elim_some, htransport]
    split
    · rename_i hlate
      have ht : t.connected = true := (Bool.and_eq_true_iff.mp hlate).2
      have hlogged := log_spares a' remote
      refine ⟨htransport ▸ hsound, hlogged.begun hbegun, fun x other hmem => ?_⟩
      show x ∈ a'.transport.ended ∨ (x, other) ∈ (a'.log remote).sent ∨
        (a'.transport.connected = true ∧ a'.transport.socket = some x ∧ (a'.log remote).Holds other)
      rw [htransport]
      rcases hmem_created x other (hlogged.created ▸ hmem) with ⟨rfl, rfl⟩ | hold
      · rcases hsession with hended | ⟨-, hs⟩
        · exact .inl hended
        · exact .inr (.inl (mem_log (htransport.symm ▸ hs)))
      · rcases hearlier x other hold with hended | hx | ⟨ht, hx, hholds⟩
        · exact .inl hended
        · exact .inr (.inl (hlogged.sent _ hx))
        · exact .inr (.inr ⟨ht, hx, hlogged.holds (htransport.symm ▸ ht) other hholds nofun⟩)
    · rename_i hkept
      refine ⟨htransport ▸ hsound, hbegun, fun x other hmem => ?_⟩
      rw [htransport]
      rcases hmem_created x other hmem with ⟨rfl, rfl⟩ | hold
      · rcases hsession with hended | ⟨ht, hs⟩
        · exact .inl hended
        · have hlate : a.late r = false := by
            rw [ht, Bool.and_true, Bool.not_eq_true] at hkept
            exact hkept
          exact .inr
            (.inr ⟨ht, hs,
              settled_holds ht (taken_allocated hconnected hsocket hfound hlate ht hallocated)⟩)
      · exact hearlier x other hold

theorem Accounts.mono (h : a.Accounts) (hcreated : b.created = a.created)
    (hsent : ∀ x ∈ a.sent, x ∈ b.sent)
    (hstays : a.transport.Stays b.transport)
    (hholds : b.transport.connected = true → ∀ remote, a.Holds remote → b.Holds remote) :
      b.Accounts := by
  intro s remote hmem
  rcases h s remote (hcreated ▸ hmem) with hended | hs | ⟨hconnected, hsocket, hremote⟩
  · exact .inl (hstays.ended s hended)
  · exact .inr (.inl (hsent _ hs))
  · rcases hstays.session s hconnected hsocket with ⟨hconnected', hsocket'⟩ | hended
    · exact .inr (.inr ⟨hconnected', hsocket', hholds hconnected' remote hremote⟩)
    · exact .inl hended

theorem settle_accounted (h : a.Accounted) {t : Transport} (hstays : a.transport.Stays t)
    (hsound : Transport.Sound none t) :
    (a.settle t).Accounted := by
  have htransport := settle_transport a t
  refine ⟨htransport.symm ▸ hsound, settle_begun h.begun t, ?_⟩
  refine h.accounts.mono (settle_created a t) (fun x hx => (settle_sent a t).symm ▸ hx)
    (htransport.symm ▸ hstays) ?_
  intro ht remote hremote
  rw [htransport] at ht
  rw [settle_eq ht]
  cases remote with
  | subscription id => exact hremote
  | media id => exact hremote

theorem transport_accounted (h : a.Accounted) {happening : Happening} {t : Transport}
    (hstep : a.transport.step happening = some t)
    (htame : ¬ a.transport.Escapes happening) : (a.settle t).Accounted :=
  settle_accounted h (Transport.step_stays h.sound hstep htame)
    (Transport.step_sound h.sound hstep htame).1

theorem request_accounted (h : a.Accounted) {purpose : Purpose} (hpurpose : ∀ m, purpose ≠ .offer m)
    (aborted sends : Bool) :
    (a.request purpose aborted sends).Accounted :=
  h.of_quiet (request_spares a hpurpose aborted sends)
    (Transport.request_sound aborted sends h.sound).1

theorem snoc_media {s s' : MediaSession} {m : ℕ} (h : (a.media ++ [s])[m]? = some s') :
    a.media[m]? = some s' ∨ s' = s := by
  rcases Nat.lt_or_ge m a.media.length with hlt | hge
  · rw [List.getElem?_append_left hlt] at h
    exact .inl h
  · rw [List.getElem?_append_right hge] at h
    exact .inr (List.mem_singleton.mp (List.mem_of_getElem? h))

theorem added_accounted (h : a.Accounted) {s : MediaSession} (hid : s.id = none)
    (hparent : ∀ j, s.parent = some j →
    ∃ s', a.subscriptions[j]? = some s' ∧ s'.state ≠ .preparing) : Accounted { a with media :=
      a.media ++ [s] } := by
  refine ⟨h.sound, ⟨fun m s' j hs' hj => ?_, fun r m hr => ?_, fun m s' hs' hoffer => ?_⟩, ?_⟩
  · rcases snoc_media hs' with hold | rfl
    · exact h.begun.parent m s' j hold hj
    · exact hparent j hj
  · obtain ⟨s', hs', hoffered⟩ := h.begun.offered r m hr
    obtain ⟨hlt, -⟩ := List.getElem?_eq_some_iff.mp hs'
    exact ⟨s', (List.getElem?_append_left hlt).trans hs', hoffered⟩
  · rcases snoc_media hs' with hold | rfl
    · exact h.begun.unoffered m s' hold hoffer
    · exact hid
  · refine h.accounts.mono rfl (fun _ hx => hx) (.refl _) fun _ remote hremote => ?_
    cases remote with
    | subscription id => exact hremote
    | media id =>
      obtain ⟨s', hmem, hs'⟩ := hremote
      exact ⟨s', List.mem_append_left _ hmem, hs'⟩

theorem modify_holds {f : MediaSession → MediaSession} {m : ℕ} {remote : Remote}
    (h : a.Holds remote)
    (hsubscriptions : b.subscriptions = a.subscriptions) (hmedia : b.media = a.media.modify m f)
    (hid : ∀ s, (f s).id = s.id) (hended : ∀ s, (f s).ended = s.ended) : b.Holds remote := by
  cases remote with
  | subscription id => rwa [Holds, hsubscriptions]
  | media id =>
    obtain ⟨s, hmem, hs, hlive⟩ := h
    obtain ⟨i, hi⟩ := List.getElem?_of_mem hmem
    refine ⟨_, List.mem_of_getElem? (i := i) (by rw [hmedia, List.getElem?_modify, hi]; rfl), ?_⟩
    simp only
    split
    · exact ⟨(hid s).trans hs, (hended s).trans hlive⟩
    · exact ⟨hs, hlive⟩

theorem offer_accounted (h : a.Accounted) {m : ℕ} {s : MediaSession} (hs : a.media[m]? = some s)
    (hoffer : s.offer = none)
    (sends : Bool) : Accounted { a.request (.offer m) false sends with
      media := a.media.modify m fun s => { s with offer := some a.purposes.length } } := by
  obtain ⟨hstays, -, -⟩ := Transport.request_stays a.transport false sends
  refine ⟨(Transport.request_sound false sends h.sound).1,
    ⟨fun i s' j hs' hj => ?_, fun r i hr => ?_, fun i s' hs' hnone => ?_⟩,
    ?_⟩
  · simp only [List.getElem?_modify, Option.map_eq_map, Option.map_eq_some_iff] at hs'
    obtain ⟨s₀, hs₀, rfl⟩ := hs'
    refine h.begun.parent i s₀ j hs₀ ?_
    split at hj
    · exact hj
    · exact hj
  · rcases purpose_snoc hr with hold | ⟨rfl, hnew⟩
    · obtain ⟨s', hs', hoffered, hid⟩ := h.begun.offered r i hold
      have hne : m ≠ i := by
        rintro rfl
        cases hs.symm.trans hs'
        exact nomatch hoffer.symm.trans hoffered
      refine ⟨s', ?_, hoffered, hid⟩
      simp only [List.getElem?_modify, hs', Option.map_eq_map, Option.map_some, if_neg hne]
    · obtain rfl : m = i := Purpose.offer.inj hnew
      refine ⟨{ s with offer := some a.purposes.length }, ?_, rfl, h.begun.unoffered m s hs hoffer⟩
      simp only [List.getElem?_modify, hs, Option.map_eq_map, Option.map_some, if_pos]
  · simp only [List.getElem?_modify, Option.map_eq_map, Option.map_eq_some_iff] at hs'
    obtain ⟨s₀, hs₀, rfl⟩ := hs'
    split at hnone
    · cases hnone
    · rename_i hne
      simp only [if_neg hne]
      exact h.begun.unoffered i s₀ hs₀ hnone
  · exact h.accounts.mono rfl (fun _ hx => hx) hstays fun _ _ hremote =>
      modify_holds hremote rfl rfl (fun _ => rfl) fun _ => rfl

theorem negotiated_accounted (h : a.Accounted) (m : ℕ) :
    Accounted { a with media := a.media.modify m fun s => { s with negotiating := false } } := by
  refine h.of_quiet ⟨rfl, fun _ hx => hx, id, .refl _, fun _ _ hremote _ => ?_,
    fun i s hi => ?_, ?_, fun _ _ hr => hr,
    fun j s hs => ⟨s, hs, id⟩⟩ h.sound
  · exact modify_holds hremote rfl rfl (fun _ => rfl) fun _ => rfl
  · refine ⟨_, by rw [List.getElem?_modify, hi]; rfl, ?_⟩
    simp only
    split
    · exact ⟨rfl, rfl, rfl, id⟩
    · exact .refl s
  · exact List.length_modify ..

theorem step_accounted {i : Step} (h : a.Accounted) (hstep : a.step i = some b)
    (hkeeps : ¬ a.Loses i) : b.Accounted := by
  cases i with
  | transport happening =>
    simp only [step, Option.ite_none_right_eq_some, Option.map_eq_some_iff] at hstep
    obtain ⟨-, t, ht, rfl⟩ := hstep
    exact transport_accounted h ht hkeeps
  | answer s id answer sends inner =>
    simp only [step, Option.ite_none_right_eq_some] at hstep
    obtain ⟨⟨hsocket, hconnected⟩, hstep⟩ := hstep
    split at hstep
    · rename_i key r hfound
      obtain rfl := Option.some.inj hstep
      exact answered_accounted h (not_not.mp hkeeps) hconnected hsocket hfound answer sends
    · obtain rfl := Option.some.inj hstep
      exact h
  | notice s id notice sends inner =>
    simp only [step, Option.ite_none_right_eq_some] at hstep
    obtain ⟨-, hstep⟩ := hstep
    obtain ⟨htame, hquiet⟩ := not_or.mp hkeeps
    split at hstep
    · rename_i resource hfound
      obtain rfl := Option.some.inj hstep
      refine noticed_accounted h (not_not.mp htame) ?_
      rintro j rfl rfl
      exact hquiet ⟨by rw [hfound]; rfl, rfl⟩
    · obtain rfl := Option.some.inj hstep
      exact h
  | subscribe media aborted sends =>
    obtain rfl := Option.some.inj hstep
    have hpurpose : ∀ m, Purpose.subscribe media ≠ .offer m := fun _ => Purpose.noConfusion
    exact request_accounted h hpurpose aborted sends
  | otherRequest aborted sends =>
    obtain rfl := Option.some.inj hstep
    have hpurpose : ∀ m, Purpose.other ≠ .offer m := fun _ => Purpose.noConfusion
    exact request_accounted h hpurpose aborted sends
  | unready j sends inner =>
    simp only [step, Option.ite_none_right_eq_some, Option.some.injEq] at hstep
    obtain ⟨hpreparing, rfl⟩ := hstep
    exact unready_accounted h (not_not.mp hkeeps) hpreparing sends
  | closeSubscription j sends inner =>
    obtain rfl := Option.some.inj hstep
    exact closeSubscription_accounted h hkeeps
  | publishMedia =>
    simp only [step, Option.ite_none_right_eq_some, Option.some.injEq] at hstep
    obtain ⟨-, rfl⟩ := hstep
    exact added_accounted h rfl fun _ hwatch => by cases hwatch
  | watchMedia j =>
    simp only [step, Option.ite_none_right_eq_some, Option.some.injEq, Bool.and_eq_true] at hstep
    obtain ⟨⟨-, hready⟩, rfl⟩ := hstep
    obtain ⟨s, hs, hstate⟩ := (Option.any_eq_true _ _).mp hready
    refine added_accounted h rfl ?_
    intro j' hj
    cases hj
    refine ⟨s, hs, fun hpreparing => ?_⟩
    simp [hpreparing] at hstate
  | offer m sends =>
    simp only [step, Option.ite_none_right_eq_some, Option.some.injEq] at hstep
    obtain ⟨hany, rfl⟩ := hstep
    obtain ⟨s, hs, hopen⟩ := (Option.any_eq_true _ _).mp hany
    simp only [Bool.and_eq_true, Option.isNone_iff_eq_none] at hopen
    exact offer_accounted h hs hopen.2 sends
  | negotiated m =>
    simp only [step, Option.ite_none_right_eq_some, Option.some.injEq] at hstep
    obtain ⟨-, rfl⟩ := hstep
    exact negotiated_accounted h m
  | failMedia m sends inner =>
    obtain rfl := Option.some.inj hstep
    exact failMedia_accounted h (not_not.mp hkeeps) m sends
  | closeMedia m sends inner =>
    obtain rfl := Option.some.inj hstep
    exact closeMedia_accounted h hkeeps

theorem initial_accounted : initial.Accounted :=
  ⟨Transport.initial_sound, ⟨nofun, nofun, nofun⟩, nofun⟩

/-- All along a run in which no step loses a resource, whatever the agent has allocated on a
session is released there or can be, until the session ends. -/
theorem resources_accounted {steps : List Step} (hkeeps : Run.Never step initial steps Loses) :
    Run.Always step initial steps Accounts := by
  have hgood :=
    Run.always_of_never (fun _ _ _ hu hstep hkept => step_accounted hu hstep hkept)
      initial_accounted hkeeps
  exact fun earlier later u hsplit hu => (hgood earlier later u hsplit hu).accounts

def watched : List Step :=
  [.transport .connect, .transport (.credential 0 .opened []), .transport (.message 0 .ready []),
    .transport .openingSettled,
    .subscribe true false true, .answer 0 "1" (.value (some "s") true) (fun _ => true) [],
    .notice 0 "s" .ready (fun _ => true) [], .watchMedia 0, .offer 0 true,
    .answer 0 "2" (.value (some "m") true) (fun _ => true) [], .negotiated 0,
      .subscribe false false true,
    .transport (.aborted 2 true []), .answer 0 "3" (.value (some "t") true) (fun _ => true) [],
    .closeMedia 0 (fun _ => true) [], .closeSubscription 0 (fun _ => true) [],
      .transport (.disconnect [])]

theorem watched_accounted : (Run.after step initial watched).any
    (fun a => a.sent.length = 3 ∧ a.created.length = 3)
    ∧ Run.Always step initial watched Accounts := by
  have hsent : (Run.after step initial watched).any
      (fun a => a.sent.length = 3 ∧ a.created.length = 3) := by decide
  exact ⟨hsent, resources_accounted (Run.never_of_check (by decide))⟩

def subscribed : List Step :=
  [.transport .connect, .transport (.credential 0 .opened []), .transport (.message 0 .ready []),
    .transport .openingSettled,
    .subscribe true false true, .answer 0 "1" (.value (some "s") true) (fun _ => true) []]

/-- It is not released where `close()` is turned down, where the agent tells of an error, or, of a
session that watches it, where the subscription itself is closed. -/
theorem unaccounted :
    (∃ a, Run.after step initial (subscribed ++ List.replicate 28 (.otherRequest false true)
      ++ [.closeSubscription 0 (fun _ => true) []]) = some a ∧ ¬ a.Accounts)
    ∧ (∃ a, Run.after step initial
      (subscribed ++ [.notice 0 "s" (.error true) (fun _ => true) []]) = some a ∧ ¬ a.Accounts)
    ∧ ∃ a, Run.after step initial
      (subscribed ++ [.notice 0 "s" .ready (fun _ => true) [], .watchMedia 0, .offer 0 true,
      .answer 0 "2" (.value (some "m") true) (fun _ => true) [],
        .closeSubscription 0 (fun _ => true) []]) = some a
        ∧ ¬ a.Accounts := by
  exact ⟨⟨_, rfl, by decide +kernel⟩, ⟨_, rfl, by decide⟩, ⟨_, rfl, by decide⟩⟩

end WebAgent
end Beam.Web.Agent
