/-
  UdpSpeed.Proxy.Destroy

  Which ids the proxy tells the server to destroy.  There are three senders of
  `CMD_DESTROY_SESSION`: a closed connection, an answer nobody waits for, and a
  data datagram whose conv is not in the map.  The first two name an id whose
  response has been handled.  The third cannot tell an id that is dead from one
  whose response is still on its way.
-/

import UdpSpeed.Proxy.Table

namespace UdpSpeed

open Kcp Control Muduo Std

namespace Proxy

theorem KcpDataSession.recvFromTunnel_id {s s' : KcpDataSession} {input : List Byte} {ret : Int}
    {msg : Option (List Byte)} (h : s.recvFromTunnel input = .ok (ret, s', msg)) :
    s'.id = s.id := by
  cases hkcp : s.kcp with
  | none =>
      simp only [KcpDataSession.recvFromTunnel, hkcp] at h
      cases h
  | some kcp =>
      obtain ⟨_, _, hrecv⟩ := KcpDataSession.recvFromTunnel_kcp hkcp input
      rw [hrecv] at h
      obtain ⟨-, rfl, -⟩ := Except.ok.inj h
      rfl

theorem KcpDataSession.update_id {s s' : KcpDataSession} {clock : IUINT32}
    {out : List (List Byte)} (h : s.update clock = .ok (s', out)) : s'.id = s.id := by
  unfold KcpDataSession.update at h
  split at h
  · cases h
  · obtain ⟨rfl, -⟩ := Prod.mk.inj (Except.ok.inj h)
    rfl

namespace KcpProxy

/-! ## Sessions and their ids -/

/-- Every destroy message sent names an id whose response was handled. -/
def DestroysAnswered (p : KcpProxy) : Prop :=
  ∀ id, destroyMsg id ∈ p.hist.ctlSent → id ∈ p.hist.rspSeen

/-- Every session with an id got it from a response. -/
def IdsAnswered (p : KcpProxy) : Prop :=
  ∀ c sess, p.lockSess c = some sess → sess.id ≠ 0 → sess.id ∈ p.hist.rspSeen

/-- Every session of `p'` was there in `p` with the same id, and the proxy has
    neither sent nor handled a control message in between. -/
structure SameIds (p p' : KcpProxy) : Prop where
  ctlSent : p'.hist.ctlSent = p.hist.ctlSent
  rspSeen : p'.hist.rspSeen = p.hist.rspSeen
  ids : ∀ c sess', p'.lockSess c = some sess' → ∃ sess, p.lockSess c = some sess ∧
    sess'.id = sess.id

theorem SameIds.refl (p : KcpProxy) : SameIds p p := ⟨rfl, rfl, fun _ sess' h => ⟨sess', h, rfl⟩⟩

theorem SameIds.trans {p p₁ p₂ : KcpProxy} (h : SameIds p p₁) (h' : SameIds p₁ p₂) :
    SameIds p p₂ := by
  refine ⟨h'.ctlSent.trans h.ctlSent, h'.rspSeen.trans h.rspSeen, ?_⟩
  intro c sess₂ hs₂
  obtain ⟨sess₁, hs₁, hid₁⟩ := h'.ids c sess₂ hs₂
  obtain ⟨sess, hs, hid⟩ := h.ids c sess₁ hs₁
  exact ⟨sess, hs, hid₁.trans hid⟩

theorem SameIds.idsAnswered {p p' : KcpProxy} (h : SameIds p p') (hp : IdsAnswered p) :
    IdsAnswered p' := by
  intro c sess' hs' hne
  obtain ⟨sess, hs, hid⟩ := h.ids c sess' hs'
  rw [h.rspSeen, hid]
  exact hp c sess hs (hid ▸ hne)

theorem sameIds_setSess {p : KcpProxy} {ref : ConnId} {sess sess' : KcpDataSession}
    (hs : p.lockSess ref = some sess) (hid : sess'.id = sess.id) :
    SameIds p (p.setSess ref sess') := by
  refine ⟨rfl, rfl, ?_⟩
  intro c x hx
  rw [lockSess_setSess] at hx
  split_ifs at hx with hc
  · obtain ⟨_, -, rfl⟩ := Option.map_eq_some_iff.mp hx
    exact ⟨sess, hc ▸ hs, hid⟩
  · exact ⟨x, hx, rfl⟩

/-- Ids do not depend on what else the history records. -/
theorem sameIds_hist {p : KcpProxy} {hist : Hist} (hctl : hist.ctlSent = p.hist.ctlSent)
    (hrsp : hist.rspSeen = p.hist.rspSeen) : SameIds p { p with hist := hist } :=
  ⟨hctl, hrsp, fun _ sess' hs => ⟨sess', hs, rfl⟩⟩

/-! ## One event -/

theorem sameIds_updateSessions {p p' : KcpProxy} {clock : IUINT32} {refs : List ConnId}
    (h : p.updateSessions clock refs = .ok p') : SameIds p p' := by
  induction refs generalizing p with
  | nil =>
      obtain rfl := Except.ok.inj h
      exact .refl p
  | cons ref rest ih =>
      rw [updateSessions, updateSession] at h
      cases hs : p.lockSess ref with
      | none => simp [hs] at h
      | some sess =>
          cases hupd : sess.update clock with
          | error e => simp [hs, hupd] at h
          | ok r =>
              simp only [hs, hupd] at h
              have h₁ := sameIds_setSess hs (KcpDataSession.update_id hupd)
              have h₂ : SameIds (p.setSess ref r.1) ((p.setSess ref r.1).output r.2) :=
                sameIds_hist rfl rfl
              exact (h₁.trans h₂).trans (ih h)

theorem sameIds_onDataDatagram {p p' : KcpProxy} {sessId : IUINT32} {ref : ConnId}
    {buf : List Byte} (hmap : p.sessionMap[sessId]? = some ref)
    (h : p.onDataDatagram sessId buf = .ok p') : SameIds p p' := by
  rw [onDataDatagram, hmap] at h
  cases hs : p.lockSess ref with
  | none => simp [hs] at h
  | some sess =>
      simp only [hs] at h
      split at h
      · cases h
      · next hrecv =>
          obtain rfl := Except.ok.inj h
          exact sameIds_setSess hs (KcpDataSession.recvFromTunnel_id hrecv)
      · next hrecv =>
          unfold sendToConn at h
          split at h
          · cases h
          · obtain rfl := Except.ok.inj h
            have h₁ := sameIds_setSess hs (KcpDataSession.recvFromTunnel_id hrecv)
            exact h₁.trans (sameIds_hist rfl rfl)

theorem sameIds_onControlDatagram {p p' : KcpProxy} {buf : List Byte}
    (h : p.onControlDatagram buf = .ok p') : SameIds p p' := by
  unfold onControlDatagram at h
  obtain ⟨ret, ctl, hparse⟩ | ⟨e, hparse⟩ := p.controlSess.parseMsg_cases buf
  · simp only [hparse, handleControlMessages, Except.ok.injEq] at h
    subst h
    exact ⟨rfl, rfl, fun _ sess' hs => ⟨sess', hs, rfl⟩⟩
  · simp only [hparse] at h
    cases h

/-- The event is a data datagram whose conv is not in the map. -/
def UnknownConv (p : KcpProxy) (e : Event) (id : IUINT32) : Prop :=
  ∃ bytes, e = .datagram bytes ∧ ikcpGetconv (bytes.take 4096) = id ∧ id ≠ 0 ∧
    p.sessionMap[id]? = none

/-- Only datagrams have a conv. -/
theorem not_unknownConv {p : KcpProxy} {e : Event} (h : ∀ bytes, e ≠ .datagram bytes) :
    ∀ id, ¬ UnknownConv p e id := by
  rintro id ⟨bytes, he, -⟩
  exact h bytes he

/-- What a completed handler may have done to the control traffic, that case
    apart: nothing, sent a CREATE for a new session, sent a DESTROY for a
    session of its own, or handled a response. -/
inductive CtlEffect (p p' : KcpProxy) : Prop where
  | same (h : SameIds p p')
  | create (hctl : p'.hist.ctlSent = p.hist.ctlSent ++ [createMsg])
      (hrsp : p'.hist.rspSeen = p.hist.rspSeen)
      (hids : ∀ c sess', p'.lockSess c = some sess' → sess'.id = 0 ∨ p.lockSess c = some sess')
  | closed (c : ConnId) (sess : KcpDataSession) (hs : p.lockSess c = some sess)
      (hid : sess.id ≠ 0) (hctl : p'.hist.ctlSent = p.hist.ctlSent ++ [destroyMsg sess.id])
      (hrsp : p'.hist.rspSeen = p.hist.rspSeen) (hids : ∀ c, p'.lockSess c = p.lockSess c)
  | response (id : IUINT32)
      (hctl : p'.hist.ctlSent = p.hist.ctlSent ∨
        p'.hist.ctlSent = p.hist.ctlSent ++ [destroyMsg id])
      (hrsp : p'.hist.rspSeen = p.hist.rspSeen ++ [id])
      (hids : ∀ c sess', p'.lockSess c = some sess' → sess'.id = id ∨ p.lockSess c = some sess')

theorem ctlEffect_connUp (p : KcpProxy) :
    CtlEffect p (p.newConnection.onConnected p.nextConnId) := by
  refine .create rfl rfl ?_
  intro c sess' hs'
  change (p.newConnection.setSess p.nextConnId (.create p.nextConnId)).lockSess c = _ at hs'
  rw [lockSess_setSess] at hs'
  split_ifs at hs' with hc
  · obtain ⟨_, -, rfl⟩ := Option.map_eq_some_iff.mp hs'
    exact Or.inl rfl
  -- the sessions of other connections are untouched
  · refine Or.inr ?_
    simpa [lockSess, newConnection, TreeMap.getElem?_insert, hc] using hs'

theorem ctlEffect_connDown {p p' : KcpProxy} {c : ConnId}
    (h : (p.setConnState c (fun _ => .kDisconnected)).onConnection c false = .ok p') :
    CtlEffect p p' := by
  simp only [onConnection, Bool.false_eq_true, if_false, lockSess_setConnState] at h
  cases hs : p.lockSess c with
  | none => simp [hs] at h
  | some sess =>
      have hlock := fun x => lockSess_setConnState p c x (fun _ => .kDisconnected)
      simp only [hs, Except.ok.injEq] at h
      subst h
      unfold onDisconnected
      dsimp only
      -- a DESTROY only for a session that got an id
      split_ifs with hid
      · exact .closed c sess hs hid rfl rfl hlock
      · exact .same ⟨rfl, rfl, fun x sess' hs' => ⟨sess', (hlock x).symm.trans hs', rfl⟩⟩

theorem ctlEffect_handleRsp {p p' : KcpProxy} {id : IUINT32} (h : p.handleRsp id = .ok p') :
    CtlEffect p p' := by
  unfold handleRsp at h
  dsimp only at h
  split at h
  -- nobody waits: the id goes straight back
  · obtain rfl := Except.ok.inj h
    exact .response id (Or.inr rfl) rfl (fun _ _ hs => Or.inr hs)
  · split at h
    · cases h
    · split at h
      · cases h
      -- the front of the waiting list takes the id
      · next _ ref rest hlist _ sess hs _ sess' accepted hinit =>
          obtain rfl := Except.ok.inj h
          refine .response id (Or.inl rfl) rfl ?_
          intro c x hx
          change ((p.noteRsp id).setSess ref sess').lockSess c = some x at hx
          rw [lockSess_setSess] at hx
          split_ifs at hx with hc
          · obtain ⟨_, -, rfl⟩ := Option.map_eq_some_iff.mp hx
            exact Or.inl (KcpDataSession.init_id hinit)
          · exact Or.inr hx

theorem ctlEffect_control {p p' : KcpProxy} {msg : List Byte}
    (h : p.handleControlMessage msg = .ok p') : CtlEffect p p' := by
  unfold handleControlMessage at h
  split_ifs at h
  · exact ctlEffect_handleRsp h
  · unfold handleDestroy at h
    split at h
    · obtain rfl := Except.ok.inj h
      exact .same (.refl p)
    · split at h
      · cases h
      · unfold forceConnClose at h
        split at h
        · cases h
        · obtain rfl := Except.ok.inj h
          refine .same ⟨rfl, rfl, ?_⟩
          intro c sess' hs'
          exact ⟨sess', (lockSess_setConnState p _ c _).symm.trans hs', rfl⟩
  · obtain rfl := Except.ok.inj h
    exact .same (.refl p)

/-- Every completed handler: either the unknown-conv branch, or one of the
    effects above. -/
theorem handle_ctl {p p' : KcpProxy} {e : Event} (h : p.handle e = .ok p') :
    (∃ id, UnknownConv p e id ∧ p' = p.notifyDeadSessionId id) ∨
      (CtlEffect p p' ∧ ∀ id, ¬ UnknownConv p e id) := by
  cases e with
  | connUp =>
      obtain rfl := Except.ok.inj h
      exact Or.inr ⟨ctlEffect_connUp p, not_unknownConv (by intro _ he; cases he)⟩
  | connDown c => exact Or.inr ⟨ctlEffect_connDown h, not_unknownConv (by intro _ he; cases he)⟩
  | connDestroyed c =>
      obtain rfl := Except.ok.inj h
      refine Or.inr ⟨.same ⟨rfl, rfl, ?_⟩, not_unknownConv (by intro _ he; cases he)⟩
      intro x sess' hs'
      refine ⟨sess', ?_, rfl⟩
      -- the session goes with its connection object
      by_cases hx : c = x
      · simp [lockSess, onConnDestroyed, output, hx] at hs'
      · simpa [lockSess, onConnDestroyed, output, TreeMap.getElem?_erase, hx] using hs'
  | message c data =>
      refine Or.inr ⟨?_, not_unknownConv (by intro _ he; cases he)⟩
      simp only [handle, onMessage] at h
      cases hs : p.lockSess c with
      | none => simp [hs] at h
      | some sess =>
          simp only [hs, Except.ok.injEq] at h
          subst h
          have h₁ := sameIds_setSess hs (KcpDataSession.sendToTunnel_id sess data)
          exact .same (h₁.trans (sameIds_hist rfl rfl))
  | datagram bytes =>
      simp only [handle, onKcpTunnelMessage] at h
      split_ifs at h with hconv
      · refine Or.inr ⟨.same (sameIds_onControlDatagram h), ?_⟩
        rintro id ⟨_, he, rfl, hne, -⟩
        cases he
        exact hne hconv
      · cases hmap : p.sessionMap[ikcpGetconv (bytes.take 4096)]? with
        -- the branch that takes an unknown conv for a dead session
        | none =>
            rw [onDataDatagram, hmap] at h
            exact Or.inl ⟨_, ⟨bytes, rfl, rfl, hconv, hmap⟩, (Except.ok.inj h).symm⟩
        | some ref =>
            refine Or.inr ⟨.same (sameIds_onDataDatagram hmap h), ?_⟩
            rintro id ⟨_, he, rfl, -, hnone⟩
            cases he
            rw [hmap] at hnone
            cases hnone
  | timer clock =>
      exact Or.inr ⟨.same (sameIds_updateSessions h), not_unknownConv (by intro _ he; cases he)⟩
  | control msg => exact Or.inr ⟨ctlEffect_control h, not_unknownConv (by intro _ he; cases he)⟩

/-! ## Along a run -/

theorem IdsAnswered.handle {p p' : KcpProxy} {e : Event} (hp : IdsAnswered p)
    (h : p.handle e = .ok p') : IdsAnswered p' := by
  rcases handle_ctl h with ⟨id, -, rfl⟩ | ⟨heff, -⟩
  · exact hp
  cases heff with
  | same hsame => exact hsame.idsAnswered hp
  | create hctl hrsp hids =>
      intro c sess' hs' hne
      rw [hrsp]
      rcases hids c sess' hs' with h0 | hs
      · exact absurd h0 hne
      · exact hp c sess' hs hne
  | closed c₀ sess hs hid hctl hrsp hids =>
      intro c sess' hs' hne
      rw [hrsp]
      exact hp c sess' ((hids c).symm.trans hs') hne
  | response id hctl hrsp hids =>
      intro c sess' hs' hne
      rw [hrsp, List.mem_append, List.mem_singleton]
      rcases hids c sess' hs' with heq | hs
      · exact Or.inr heq
      · exact Or.inl (hp c sess' hs hne)

/-- The conv of a data datagram is in the map, or its response has been
    handled. -/
def ConvAnswered (p : KcpProxy) (e : Event) : Prop :=
  ∀ id, UnknownConv p e id → id ∈ p.hist.rspSeen

/-- One event keeps destroys answered exactly if it is not a datagram that
    overtook the response for its conv. -/
theorem destroysAnswered_handle {p p' : KcpProxy} {e : Event} (hids : IdsAnswered p)
    (hp : DestroysAnswered p) (h : p.handle e = .ok p') :
    DestroysAnswered p' ↔ ConvAnswered p e := by
  rcases handle_ctl h with ⟨id, hunk, rfl⟩ | ⟨heff, hnone⟩
  -- the unknown-conv branch sends the one DESTROY that may come too early
  · constructor
    · intro hp' id' hunk'
      obtain ⟨bytes, rfl, rfl, -⟩ := hunk
      obtain ⟨bytes', he, rfl, -⟩ := hunk'
      cases he
      exact hp' _ (List.mem_append_right _ (List.mem_singleton_self _))
    · intro hans id' hid'
      rcases List.mem_append.mp hid' with hold | hnew
      · exact hp id' hold
      · rw [destroyMsg_injective (List.mem_singleton.mp hnew)]
        exact hans id hunk
  · refine iff_of_true ?_ (fun id hunk => absurd hunk (hnone id))
    cases heff with
    | same hsame =>
        intro id hid
        rw [hsame.ctlSent] at hid
        rw [hsame.rspSeen]
        exact hp id hid
    | create hctl hrsp _ =>
        intro id hid
        rw [hctl, List.mem_append, List.mem_singleton] at hid
        rw [hrsp]
        exact hp id (hid.resolve_right (createMsg_ne_destroyMsg id).symm)
    -- the id of a session of its own came from a response
    | closed c sess hs hne hctl hrsp _ =>
        intro id hid
        rw [hctl, List.mem_append, List.mem_singleton] at hid
        rw [hrsp]
        rcases hid with hold | hnew
        · exact hp id hold
        · rw [destroyMsg_injective hnew]
          exact hids c sess hs hne
    | response id₀ hctl hrsp _ =>
        intro id hid
        rw [hrsp, List.mem_append, List.mem_singleton]
        rcases hctl with hctl | hctl
        · rw [hctl] at hid
          exact Or.inl (hp id hid)
        -- sent while handling the response itself
        · rw [hctl, List.mem_append, List.mem_singleton] at hid
          rcases hid with hold | hnew
          · exact Or.inl (hp id hold)
          · exact Or.inr (destroyMsg_injective hnew)

/-- **No premature destroy, and exactly when.**  Along any run, control
    messages and datagrams arriving in any order, the proxy destroys only ids
    whose response it has handled exactly if no data datagram reaches it before
    the response for its conv. -/
theorem destroysAnswered_iff (es : List Event) :
    EventSystem.Always step DestroysAnswered create es ↔
      EventSystem.EachStep step ConvAnswered create es := by
  refine EventSystem.always_iff_eachStep (I := IdsAnswered) ?_ ?_ ?_ ?_ es
  · intro s e s' hI hstep
    exact hI.handle (step_eq_some.mp hstep).2
  · intro s e s' hI hP hstep
    exact destroysAnswered_handle hI hP (step_eq_some.mp hstep).2
  · intro c sess hs
    simp [lockSess, create] at hs
  · intro id hid
    simp [create] at hid

end KcpProxy
end Proxy
end UdpSpeed
