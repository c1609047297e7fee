/-
  UdpSpeed.Proxy.Effect

  What one event can do to the proxy, said once: `Effect p e p'` lists the
  possible outcomes with their exact post-states, and `RefInv.handle_spec`
  shows that while the references are sound every event has one of these
  outcomes.  All invariants of the proxy are case analyses on `Effect`.
-/

import UdpSpeed.Proxy.Table

namespace UdpSpeed

open Kcp Control Muduo Std

namespace Proxy

/-! ## Changes inside KCP objects only -/

/-- A session without its KCP object. -/
def KcpDataSession.face (s : KcpDataSession) : IUINT32 × ConnId × List (List Byte) :=
  (s.id, s.conn, s.payloadList)

/-- A connection object without the KCP object of its session. -/
def Conn.face (conn : Conn) : StateE × Option (IUINT32 × ConnId × List (List Byte)) :=
  (conn.state, conn.context.map KcpDataSession.face)

namespace KcpProxy

/-- `p'` differs from `p` inside KCP objects and in the datagrams sent. -/
structure Touch (p p' : KcpProxy) : Prop where
  controlSess : p'.controlSess = p.controlSess
  sessionMap : p'.sessionMap = p.sessionMap
  uninitedSessList : p'.uninitedSessList = p.uninitedSessList
  nextConnId : p'.nextConnId = p.nextConnId
  hist : p'.hist = { p.hist with datagrams := p'.hist.datagrams }
  face : ∀ c : ConnId, p'.conns[c]?.map Conn.face = p.conns[c]?.map Conn.face
  phase : ∀ (c : ConnId) (sess' : KcpDataSession), p'.lockSess c = some sess' →
    (∀ sess, p.lockSess c = some sess → sess.Phase) → sess'.Phase

theorem Touch.refl (p : KcpProxy) : Touch p p where
  controlSess := rfl
  sessionMap := rfl
  uninitedSessList := rfl
  nextConnId := rfl
  hist := rfl
  face := fun _ => rfl
  phase := fun _ sess' h hp => hp sess' h

theorem Touch.trans {p p₁ p₂ : KcpProxy} (h : Touch p p₁) (h' : Touch p₁ p₂) : Touch p p₂ where
  controlSess := h'.controlSess.trans h.controlSess
  sessionMap := h'.sessionMap.trans h.sessionMap
  uninitedSessList := h'.uninitedSessList.trans h.uninitedSessList
  nextConnId := h'.nextConnId.trans h.nextConnId
  hist := by rw [h'.hist, h.hist]
  face := fun c => (h'.face c).trans (h.face c)
  phase := fun c sess' hs hp => h'.phase c sess' hs (fun sess hs₁ => h.phase c sess hs₁ hp)

/-- What a live connection shows, its KCP object apart. -/
theorem map_face_liveSess (p : KcpProxy) (c : ConnId) :
    (p.liveSess c).map KcpDataSession.face =
      (p.conns[c]?.map Conn.face).bind (fun f => if f.1.live then f.2 else none) := by
  unfold liveSess
  cases p.conns[c]? with
  | none => rfl
  | some conn =>
      simp only [Conn.face, Option.map_some, Option.bind_some]
      split_ifs <;> rfl

theorem Touch.map_liveSess {p p' : KcpProxy} (h : Touch p p') (c : ConnId) :
    (p'.liveSess c).map KcpDataSession.face = (p.liveSess c).map KcpDataSession.face := by
  rw [map_face_liveSess, map_face_liveSess, h.face]

/-- A live session seen after the change was there before, with the same id,
    connection and queue. -/
theorem Touch.liveSess {p p' : KcpProxy} (h : Touch p p') {c : ConnId} {sess' : KcpDataSession}
    (hs : p'.liveSess c = some sess') :
    ∃ sess, p.liveSess c = some sess ∧ sess'.id = sess.id ∧ sess'.conn = sess.conn ∧
      sess'.payloadList = sess.payloadList := by
  have heq := h.map_liveSess c
  rw [hs] at heq
  obtain ⟨sess, hsess, hface⟩ := Option.map_eq_some_iff.mp heq.symm
  have hf := Prod.mk.inj hface
  have hf' := Prod.mk.inj hf.2
  exact ⟨sess, hsess, hf.1.symm, hf'.1.symm, hf'.2.symm⟩

theorem Touch.symm_liveSess {p p' : KcpProxy} (h : Touch p p') {c : ConnId}
    {sess : KcpDataSession} (hs : p.liveSess c = some sess) :
    ∃ sess', p'.liveSess c = some sess' ∧ sess'.id = sess.id ∧ sess'.conn = sess.conn ∧
      sess'.payloadList = sess.payloadList := by
  have heq := h.map_liveSess c
  rw [hs] at heq
  obtain ⟨sess', hsess, hface⟩ := Option.map_eq_some_iff.mp heq
  have hf := Prod.mk.inj hface
  have hf' := Prod.mk.inj hf.2
  exact ⟨sess', hsess, hf.1, hf'.1, hf'.2⟩

/-- Writing a session back with only its KCP object changed. -/
theorem touch_setSess {p : KcpProxy} {ref : ConnId} {sess sess' : KcpDataSession}
    (hlock : p.lockSess ref = some sess) (hface : sess'.face = sess.face)
    (hphase : sess'.Phase) : Touch p (p.setSess ref sess') where
  controlSess := rfl
  sessionMap := rfl
  uninitedSessList := rfl
  nextConnId := rfl
  hist := rfl
  face := by
    intro c
    rw [conns_setSess]
    -- the written session shows the same face as the one that was there
    split_ifs with hc
    · subst hc
      unfold lockSess at hlock
      cases hobj : p.conns[ref]? with
      | none => rfl
      | some conn =>
          rw [hobj] at hlock
          simp [Conn.face, hlock, hface]
    · rfl
  phase := by
    intro c sess₁ hs hp
    unfold lockSess at hs
    rw [conns_setSess] at hs
    by_cases hc : ref = c
    · rw [if_pos hc] at hs
      cases hobj : p.conns[c]? with
      | none => rw [hobj] at hs; cases hs
      | some conn =>
          rw [hobj] at hs
          obtain rfl := Option.some.inj hs
          exact hphase
    · rw [if_neg hc] at hs
      exact hp sess₁ hs

theorem touch_output (p : KcpProxy) (out : List (List Byte)) : Touch p (p.output out) where
  controlSess := rfl
  sessionMap := rfl
  uninitedSessList := rfl
  nextConnId := rfl
  hist := rfl
  face := fun _ => rfl
  phase := fun _ sess' h hp => hp sess' h

/-- Which live sessions have which id is the same. -/
theorem Touch.exists_id {p p' : KcpProxy} (h : Touch p p') (c : ConnId) (id : IUINT32) :
    (∃ x, p'.liveSess c = some x ∧ x.id = id) ↔ ∃ x, p.liveSess c = some x ∧ x.id = id := by
  constructor
  · rintro ⟨x, hx, rfl⟩
    obtain ⟨y, hy, hid, -⟩ := h.liveSess hx
    exact ⟨y, hy, hid.symm⟩
  · rintro ⟨x, hx, rfl⟩
    obtain ⟨y, hy, hid, -⟩ := h.symm_liveSess hx
    exact ⟨y, hy, hid⟩

/-- The invariant does not look inside KCP objects. -/
theorem RefInv.touch {p p' : KcpProxy} (h : RefInv p) (ht : Touch p p') : RefInv p' := by
  -- the same connection objects exist
  have hnone : ∀ c : ConnId, p'.conns[c]? = none ↔ p.conns[c]? = none := by
    intro c
    rw [← Option.map_eq_none_iff (f := Conn.face), ht.face, Option.map_eq_none_iff]
  refine ⟨?_, ?_, ?_, ?_, ?_⟩
  · intro c hc
    rw [hnone]
    exact h.fresh c (ht.nextConnId ▸ hc)
  -- each context still holds a session of that connection, in one of its phases
  · intro c conn' hc
    have hface := ht.face c
    rw [hc, Option.map_some] at hface
    obtain ⟨conn, hconn, hf⟩ := Option.map_eq_some_iff.mp hface.symm
    obtain ⟨sess, hctx, hsc, hsp⟩ := h.context c conn hconn
    have hctx' := (Prod.mk.inj hf).2
    rw [hctx, Option.map_some] at hctx'
    obtain ⟨sess', hs', hsf⟩ := Option.map_eq_some_iff.mp hctx'.symm
    have hlock' : p'.lockSess c = some sess' := by simp [lockSess, hc, hs']
    refine ⟨sess', hs', ?_, ht.phase c sess' hlock' ?_⟩
    · rw [← hsc]
      exact (Prod.mk.inj (Prod.mk.inj hsf).2).1
    · intro x hx
      simp only [lockSess, hconn, hctx, Option.some.injEq] at hx
      exact hx ▸ hsp
  · intro c
    rw [ht.uninitedSessList, ht.exists_id c 0]
    exact h.waiting c
  · rw [ht.uninitedSessList]
    exact h.nodup
  · intro id c hc
    rw [ht.exists_id c id]
    exact h.held id c (ht.sessionMap ▸ hc)

/-! ## The outcomes of an event -/

/-- The conv `onKcpTunnelMessage` reads from a datagram. -/
def datagramConv (bytes : List Byte) : IUINT32 := ikcpGetconv (bytes.take 4096)

/-- Some live session has this id. -/
def heldByLive (p : KcpProxy) (id : IUINT32) : Bool :=
  p.conns.toList.any (fun entry =>
    entry.2.state.live && entry.2.context.any (fun sess => sess.id = id))

theorem heldByLive_eq_false_iff {p : KcpProxy} {id : IUINT32} :
    p.heldByLive id = false ↔ ∀ c sess, p.liveSess c = some sess → sess.id ≠ id := by
  unfold heldByLive
  rw [List.any_eq_false]
  constructor
  · intro h c sess hs hid
    obtain ⟨hlive, hlock⟩ := liveSess_eq_some_iff.mp hs
    unfold live at hlive
    unfold lockSess at hlock
    cases hobj : p.conns[c]? with
    | none => rw [hobj] at hlock; cases hlock
    | some conn =>
        rw [hobj] at hlive hlock
        refine h (c, conn) (TreeMap.mem_toList_iff_getElem?_eq_some.mpr hobj) ?_
        simp_all
  · rintro h ⟨c, conn⟩ hmem hany
    have hobj := TreeMap.mem_toList_iff_getElem?_eq_some.mp hmem
    simp only [Bool.and_eq_true, Option.any_eq_true_iff_get, decide_eq_true_eq] at hany
    obtain ⟨hlive, hsome, hid⟩ := hany
    refine h c (conn.context.get hsome) ?_ hid
    rw [liveSess, hobj]
    simp [hlive]

/-- A `RSP_CREATE_SESSION` names a non-zero id that no live session holds. -/
def rspFresh (p : KcpProxy) : Event → Bool
  | .control msg =>
      readCmd msg ≠ rspCreateSession || (readId msg ≠ 0 && !p.heldByLive (readId msg))
  | _ => true

theorem rspFresh_eq_true {p : KcpProxy} {msg : List Byte} (h : p.rspFresh (.control msg))
    (hcmd : readCmd msg = rspCreateSession) :
    readId msg ≠ 0 ∧ ∀ c sess, p.liveSess c = some sess → sess.id ≠ readId msg := by
  simp only [rspFresh, hcmd, ne_eq, not_true_eq_false, decide_false, Bool.false_or,
    Bool.and_eq_true, decide_eq_true_eq, Bool.not_eq_true'] at h
  exact ⟨h.1, heldByLive_eq_false_iff.mp h.2⟩

theorem rspFresh_ne_zero {p : KcpProxy} {e : Event} (h : p.rspFresh e) :
    ∀ msg, e = .control msg → readCmd msg = rspCreateSession → readId msg ≠ 0 := by
  rintro msg rfl hcmd
  exact (rspFresh_eq_true h hcmd).1

/-- Every outcome of an event, with its exact post-state. -/
inductive Effect (p : KcpProxy) : Event → KcpProxy → Prop where
  | connUp : Effect p .connUp (p.newConnection.onConnected p.nextConnId)
  | connDown {c : ConnId} {sess : KcpDataSession} (hs : p.liveSess c = some sess) :
      Effect p (.connDown c)
        ((p.setConnState c (fun _ => .kDisconnected)).onDisconnected c sess)
  | connDestroyed {c : ConnId} (hdead : p.live c = false) :
      Effect p (.connDestroyed c) (p.onConnDestroyed c)
  | message {c : ConnId} {sess : KcpDataSession} {data : List Byte}
      (hs : p.liveSess c = some sess) (hne : data ≠ []) :
      Effect p (.message c data) (p.tunnelSend c sess data)
  | controlDatagram {bytes : List Byte} {ret : Int} {ctl : ControlSession}
      (hconv : datagramConv bytes = 0)
      (hparse : p.controlSess.parseMsg (bytes.take 4096) = .ok (ret, [], ctl)) :
      Effect p (.datagram bytes) { p with controlSess := ctl }
  | unknownConv {bytes : List Byte} (hconv : datagramConv bytes ≠ 0)
      (hmap : p.sessionMap[datagramConv bytes]? = none) :
      Effect p (.datagram bytes) (p.notifyDeadSessionId (datagramConv bytes))
  | quiet {bytes : List Byte} {p' : KcpProxy} (hconv : datagramConv bytes ≠ 0)
      (hmap : p.sessionMap[datagramConv bytes]? ≠ none) (ht : Touch p p') :
      Effect p (.datagram bytes) p'
  | deliver {bytes msg : List Byte} {p' : KcpProxy} {ref : ConnId} {sess : KcpDataSession}
      (hconv : datagramConv bytes ≠ 0)
      (hmap : p.sessionMap[datagramConv bytes]? = some ref) (ht : Touch p p')
      (hs : p'.liveSess ref = some sess) (hid : sess.id = datagramConv bytes) :
      Effect p (.datagram bytes) (p'.connSend sess msg)
  | timer {clock : IUINT32} {p' : KcpProxy} (ht : Touch p p') : Effect p (.timer clock) p'
  | rspUnused {msg : List Byte} (hcmd : readCmd msg = rspCreateSession)
      (hempty : p.uninitedSessList = []) :
      Effect p (.control msg) ((p.noteRsp (readId msg)).notifyDeadSessionId (readId msg))
  | rspGiven {msg : List Byte} {ref : ConnId} {rest : List ConnId} {sess sess' : KcpDataSession}
      {accepted : List (List Byte)} (hcmd : readCmd msg = rspCreateSession)
      (hlist : p.uninitedSessList = ref :: rest) (hs : p.liveSess ref = some sess)
      (hinit : sess.init (readId msg) = .ok (sess', accepted)) :
      Effect p (.control msg) ((p.noteRsp (readId msg)).giveId (readId msg) ref rest sess' accepted)
  | destroyHeld {msg : List Byte} {c : ConnId} (hcmd : readCmd msg = cmdDestroySession)
      (hmap : p.sessionMap[readId msg]? = some c) :
      Effect p (.control msg) (p.setConnState c StateE.forceClose)
  | ignored {msg : List Byte} (hcmd : readCmd msg ≠ rspCreateSession) :
      Effect p (.control msg) p

/-- What an event does to the control session: nothing, one CREATE or DESTROY
    sent, or a datagram parsed. -/
theorem Effect.control_cases {p p' : KcpProxy} {e : Event} (heff : Effect p e p') :
    (p'.controlSess = p.controlSess ∧ p'.hist.ctlSent = p.hist.ctlSent) ∨
      (∃ msg, (msg = createMsg ∨ ∃ id, msg = destroyMsg id) ∧
        p'.controlSess = p.controlSess.sendMsg msg ∧
        p'.hist.ctlSent = p.hist.ctlSent ++ [msg]) ∨
      ∃ packet ret, p.controlSess.parseMsg packet = .ok (ret, [], p'.controlSess) ∧
        p'.hist.ctlSent = p.hist.ctlSent := by
  cases heff with
  | connUp => exact Or.inr (Or.inl ⟨_, Or.inl rfl, rfl, rfl⟩)
  | @connDown c sess hs =>
      unfold onDisconnected
      dsimp only
      split_ifs
      · exact Or.inr (Or.inl ⟨_, Or.inr ⟨sess.id, rfl⟩, rfl, rfl⟩)
      · exact Or.inl ⟨rfl, rfl⟩
  | controlDatagram hconv hparse => exact Or.inr (Or.inr ⟨_, _, hparse, rfl⟩)
  | unknownConv hconv hmap => exact Or.inr (Or.inl ⟨_, Or.inr ⟨_, rfl⟩, rfl, rfl⟩)
  | quiet hconv hmap ht =>
      rw [ht.hist]
      exact Or.inl ⟨ht.controlSess, rfl⟩
  | @deliver _ _ p₁ _ _ hconv hmap ht hs hid =>
      change (p₁.controlSess = _ ∧ p₁.hist.ctlSent = _) ∨ _
      rw [ht.hist]
      exact Or.inl ⟨ht.controlSess, rfl⟩
  | timer ht =>
      rw [ht.hist]
      exact Or.inl ⟨ht.controlSess, rfl⟩
  | rspUnused hcmd hempty => exact Or.inr (Or.inl ⟨_, Or.inr ⟨_, rfl⟩, rfl, rfl⟩)
  | _ => exact Or.inl ⟨rfl, rfl⟩

/-- The proxy only appends to the control traffic, and only CREATE and
    DESTROY. -/
theorem Effect.ctlSent {p p' : KcpProxy} {e : Event} (heff : Effect p e p') :
    ∃ new, p'.hist.ctlSent = p.hist.ctlSent ++ new ∧
      ∀ msg ∈ new, msg = createMsg ∨ ∃ id, msg = destroyMsg id := by
  rcases heff.control_cases with ⟨-, hsame⟩ | ⟨msg, hmsg, -, hsent⟩ | ⟨-, -, -, hsame⟩
  · exact ⟨[], by rw [hsame, List.append_nil], by simp⟩
  · exact ⟨[msg], hsent, by simpa using hmsg⟩
  · exact ⟨[], by rw [hsame, List.append_nil], by simp⟩

/-- Outside `handleControlMessage` no response is handled and no id given. -/
theorem Effect.local_hist {p p' : KcpProxy} {e : Event} (heff : Effect p e p')
    (hloc : ∀ msg, e ≠ .control msg) :
    p'.hist.rspSeen = p.hist.rspSeen ∧ p'.hist.assigned = p.hist.assigned := by
  cases heff with
  | connDown hs =>
      rw [hist_onDisconnected]
      exact ⟨rfl, rfl⟩
  | quiet hconv hmap ht => rw [ht.hist]; exact ⟨rfl, rfl⟩
  | timer ht => rw [ht.hist]; exact ⟨rfl, rfl⟩
  | @deliver _ _ p₁ _ _ hconv hmap ht hs hid =>
      change p₁.hist.rspSeen = _ ∧ p₁.hist.assigned = _
      rw [ht.hist]
      exact ⟨rfl, rfl⟩
  | rspUnused hcmd hempty => exact absurd rfl (hloc _)
  | rspGiven hcmd hlist hs hinit => exact absurd rfl (hloc _)
  | destroyHeld hcmd hmap => exact absurd rfl (hloc _)
  | ignored hcmd => exact absurd rfl (hloc _)
  | _ => exact ⟨rfl, rfl⟩

/-- The two outcomes of a response. -/
theorem Effect.response {p p' : KcpProxy} {id : IUINT32}
    (heff : Effect p (.control (rspMsg id)) p') :
    (p.uninitedSessList = [] ∧ p' = (p.noteRsp id).notifyDeadSessionId id) ∨
      ∃ ref rest sess sess' accepted, p.uninitedSessList = ref :: rest ∧
        p.liveSess ref = some sess ∧ sess.init id = .ok (sess', accepted) ∧
        p' = (p.noteRsp id).giveId id ref rest sess' accepted := by
  have hid := readId_rspMsg id
  generalize hmsg : rspMsg id = msg at heff hid
  have hrsp : readCmd msg = rspCreateSession := by rw [← hmsg]; exact readCmd_rspMsg id
  cases heff with
  | rspUnused hcmd hempty =>
      rw [hid]
      exact Or.inl ⟨hempty, rfl⟩
  | rspGiven hcmd hlist hs hinit =>
      rw [hid] at hinit ⊢
      exact Or.inr ⟨_, _, _, _, _, hlist, hs, hinit, rfl⟩
  | destroyHeld hcmd hmap =>
      rw [hrsp] at hcmd
      cases hcmd
  | ignored hcmd => exact absurd hrsp hcmd

namespace RefInv

variable {p : KcpProxy}

theorem updateSessions_touch (h : RefInv p) (clock : IUINT32) (refs : List ConnId)
    (hrefs : ∀ ref ∈ refs, ∃ id : IUINT32, p.sessionMap[id]? = some ref) :
    ∃ p', p.updateSessions clock refs = .ok p' ∧ Touch p p' := by
  induction refs generalizing p with
  | nil => exact ⟨p, rfl, .refl p⟩
  | cons ref rest ih =>
      obtain ⟨id, hid⟩ := hrefs ref (List.mem_cons_self ..)
      -- a session in the map is initialised, so `update` has an object to drive
      obtain ⟨sess, -, hlock, -, hne, -, hphase⟩ := h.of_held hid
      obtain ⟨sess', out, hupd, hphase', hid', hconn', hlist'⟩ :=
        KcpDataSession.update_of_ready hphase hne clock
      have hface : sess'.face = sess.face := by
        simp only [KcpDataSession.face, hid', hconn', hlist']
      have hstep : p.updateSession ref clock = .ok ((p.setSess ref sess').output out) := by
        simp only [KcpProxy.updateSession, hlock, hupd]
      have ht := (touch_setSess hlock hface hphase').trans (touch_output _ out)
      obtain ⟨p', hp', ht'⟩ := ih (h.touch ht)
        (fun r hr => ht.sessionMap ▸ hrefs r (List.mem_cons_of_mem _ hr))
      refine ⟨p', ?_, ht.trans ht'⟩
      rw [KcpProxy.updateSessions, hstep]
      exact hp'

theorem timer_spec (h : RefInv p) (clock : IUINT32) :
    ∃ p', p.onUpdateTunnelTimer clock = .ok p' ∧ Touch p p' := by
  refine h.updateSessions_touch clock _ ?_
  intro ref href
  obtain ⟨⟨id, c⟩, hmem, rfl⟩ := List.mem_map.mp href
  exact ⟨id, TreeMap.mem_toList_iff_getElem?_eq_some.mp hmem⟩

/-- A datagram for a known id: `recvFromTunnel` runs, and if it reads a message
    the connection is there to take it. -/
theorem onDataDatagram_held (h : RefInv p) {sessId : IUINT32} {ref : ConnId}
    (hmap : p.sessionMap[sessId]? = some ref) (buf : List Byte) :
    ∃ p₁ sess, Touch p p₁ ∧ p₁.liveSess ref = some sess ∧ sess.id = sessId ∧
      (p.onDataDatagram sessId buf = .ok p₁ ∨
        ∃ msg, p.onDataDatagram sessId buf = .ok (p₁.connSend sess msg)) := by
  obtain ⟨sess, hs, hlock, hid, hne, hconn, hphase⟩ := h.of_held hmap
  obtain ⟨ret, sess', msg, hrecv, hphase', hid', hconn', hlist'⟩ :=
    KcpDataSession.recvFromTunnel_of_ready hphase hne buf
  have hface : sess'.face = sess.face := by
    simp only [KcpDataSession.face, hid', hconn', hlist']
  have hlive := (liveSess_eq_some_iff.mp hs).1
  have hs' : (p.setSess ref sess').liveSess ref = some sess' := by
    rw [liveSess_setSess, if_pos rfl, if_pos hlive]
  refine ⟨p.setSess ref sess', sess', touch_setSess hlock hface hphase', hs', hid'.trans hid, ?_⟩
  -- `assert(connPtr)` holds: the session's connection is live
  cases msg with
  | none => exact Or.inl (by simp only [KcpProxy.onDataDatagram, hmap, hlock, hrecv])
  | some msg =>
      obtain ⟨conn, hobj⟩ := conn_exists hs'
      refine Or.inr ⟨msg, ?_⟩
      simp only [KcpProxy.onDataDatagram, hmap, hlock, hrecv, KcpProxy.sendToConn]
      rw [hconn', hconn, hobj]

/-- A datagram, on conv 0 as far as `parseMsg` returns. -/
theorem datagram_spec (h : RefInv p) (bytes : List Byte)
    (hctl : datagramConv bytes = 0 →
      ∃ ret ctl, p.controlSess.parseMsg (bytes.take 4096) = .ok (ret, [], ctl)) :
    ∃ p', p.handle (.datagram bytes) = .ok p' ∧ Effect p (.datagram bytes) p' := by
  have hhandle : p.handle (.datagram bytes) =
      if datagramConv bytes = 0 then p.onControlDatagram (bytes.take 4096)
      else p.onDataDatagram (datagramConv bytes) (bytes.take 4096) := rfl
  rw [hhandle]
  by_cases hconv : datagramConv bytes = 0
  -- `parseMsg` hands over no message, so only the control session changes
  · obtain ⟨ret, ctl, hparse⟩ := hctl hconv
    refine ⟨_, ?_, .controlDatagram hconv hparse⟩
    rw [if_pos hconv]
    simp only [onControlDatagram, hparse, handleControlMessages]
  · rw [if_neg hconv]
    cases hmap : p.sessionMap[datagramConv bytes]? with
    | none =>
        refine ⟨_, ?_, .unknownConv hconv hmap⟩
        simp only [KcpProxy.onDataDatagram, hmap]
    | some ref =>
        obtain ⟨p₁, sess, ht, hs, hid, hok | ⟨msg, hok⟩⟩ :=
          h.onDataDatagram_held hmap (bytes.take 4096)
        · exact ⟨_, hok, .quiet hconv (by simp [hmap]) ht⟩
        · exact ⟨_, hok, .deliver hconv hmap ht hs hid⟩

/-- A control message that is not empty. -/
theorem control_spec (h : RefInv p) {msg : List Byte} (hne : msg ≠ []) :
    ∃ p', p.handle (.control msg) = .ok p' ∧ Effect p (.control msg) p' := by
  have hhandle : p.handle (.control msg) =
      if readCmd msg = rspCreateSession then p.handleRsp (readId msg)
      else if readCmd msg = cmdDestroySession then p.handleDestroy (readId msg)
      else .ok p := by
    simp only [KcpProxy.handle, handleControlMessage, if_neg hne]
  rw [hhandle]
  by_cases hrsp : readCmd msg = rspCreateSession
  · rw [if_pos hrsp]
    -- `assert(sess)` and `assert(!kcp_)` hold of the front of the waiting list
    cases hlist : p.uninitedSessList with
    | nil =>
        refine ⟨_, ?_, .rspUnused hrsp hlist⟩
        simp only [handleRsp, noteRsp, hlist]
    | cons ref rest =>
        obtain ⟨sess, hs, hlock, hid, -, hphase⟩ :=
          h.of_waiting (c := ref) (by rw [hlist]; exact List.mem_cons_self ..)
        have hinit := KcpDataSession.init_eq (hphase.kcp_of_eq_zero hid) (readId msg)
        refine ⟨_, ?_, .rspGiven hrsp hlist hs hinit⟩
        have hlock' : (p.noteRsp (readId msg)).lockSess ref = some sess := hlock
        have hlist' : (p.noteRsp (readId msg)).uninitedSessList = ref :: rest := hlist
        simp only [handleRsp, hlist', hlock', hinit]
  · rw [if_neg hrsp]
    by_cases hdes : readCmd msg = cmdDestroySession
    · rw [if_pos hdes]
      -- a DESTROY for an id that is not held is only logged
      cases hmap : p.sessionMap[readId msg]? with
      | none =>
          refine ⟨_, ?_, .ignored hrsp⟩
          simp only [KcpProxy.handleDestroy, hmap]
      | some c =>
          obtain ⟨sess, hs, hlock, -, -, hconn, -⟩ := h.of_held hmap
          obtain ⟨conn, hobj⟩ := conn_exists hs
          refine ⟨_, ?_, .destroyHeld hdes hmap⟩
          simp only [KcpProxy.handleDestroy, hmap, hlock, KcpProxy.forceConnClose, hconn,
            hobj]
    · rw [if_neg hdes]
      exact ⟨_, rfl, .ignored hrsp⟩

/-- **Every event has one of the listed outcomes** while the references
    are sound: no reference fails to lock and no assertion fails.  Left out are an
    empty control message, and a conv-0 datagram on which `parseMsg` itself
    aborts. -/
theorem handle_spec (h : RefInv p) {e : Event} (hen : p.enabled e)
    (hmsg : e ≠ .control [])
    (hctl : ∀ bytes, e = .datagram bytes → datagramConv bytes = 0 →
      ∃ ret ctl, p.controlSess.parseMsg (bytes.take 4096) = .ok (ret, [], ctl)) :
    ∃ p', p.handle e = .ok p' ∧ Effect p e p' := by
  cases e with
  | connUp => exact ⟨_, rfl, .connUp⟩
  | connDown c =>
      obtain ⟨sess, hs, -⟩ := h.of_live (c := c) hen
      have hlock : (p.setConnState c (fun _ => .kDisconnected)).lockSess c = some sess := by
        rw [lockSess_setConnState]
        exact (liveSess_eq_some_iff.mp hs).2
      refine ⟨_, ?_, .connDown hs⟩
      simp only [KcpProxy.handle, KcpProxy.onConnection, hlock]
      rfl
  | connDestroyed c =>
      have hdead : p.live c = false := by
        simp only [enabled, Bool.and_eq_true, Bool.not_eq_true'] at hen
        exact hen.2
      exact ⟨_, rfl, .connDestroyed hdead⟩
  | message c data =>
      simp only [enabled, Bool.and_eq_true, decide_eq_true_eq] at hen
      obtain ⟨sess, hs, -⟩ := h.of_live hen.1
      refine ⟨_, ?_, .message hs hen.2⟩
      simp only [KcpProxy.handle, KcpProxy.onMessage, (liveSess_eq_some_iff.mp hs).2]
  | datagram bytes => exact h.datagram_spec bytes (hctl bytes rfl)
  | timer clock =>
      obtain ⟨p', hp', ht⟩ := h.timer_spec clock
      exact ⟨p', hp', .timer ht⟩
  | control msg => exact h.control_spec (fun hnil => hmsg (by rw [hnil]))

/-- Every handler that returns has one of the listed outcomes. -/
theorem handle_effect (h : RefInv p) {e : Event} {p' : KcpProxy} (hen : p.enabled e)
    (hok : p.handle e = .ok p') : Effect p e p' := by
  have hmsg : e ≠ .control [] := by
    rintro rfl
    cases hok
  -- a handler that returns was not stopped by `parseMsg`
  obtain ⟨p₁, hp₁, heff⟩ := h.handle_spec hen hmsg (by
    rintro bytes rfl hconv
    obtain hret | ⟨a, hparse⟩ := p.controlSess.parseMsg_cases (bytes.take 4096)
    · exact hret
    · have habort : p.handle (.datagram bytes) = .error a := by
        change (if datagramConv bytes = 0 then p.onControlDatagram (bytes.take 4096) else _) = _
        rw [if_pos hconv]
        simp only [onControlDatagram, hparse]
      rw [habort] at hok
      cases hok)
  obtain rfl := Except.ok.inj (hok.symm.trans hp₁)
  exact heff

/-! ## Preservation -/

theorem fresh_setSess (h : RefInv p) (ref : ConnId) (sess : KcpDataSession) (c : ConnId)
    (hc : p.nextConnId ≤ c) : (p.setSess ref sess).conns[c]? = none := by
  rw [conns_setSess, h.fresh c hc]
  split_ifs <;> rfl

theorem fresh_setConnState (h : RefInv p) (ref : ConnId) (f : StateE → StateE) (c : ConnId)
    (hc : p.nextConnId ≤ c) : (p.setConnState ref f).conns[c]? = none := by
  rw [conns_setConnState, h.fresh c hc]
  split_ifs <;> rfl

theorem context_setSess (h : RefInv p) {ref : ConnId} {sess : KcpDataSession}
    (hconn : sess.conn = ref) (hphase : sess.Phase) (c : ConnId) (conn : Conn)
    (hc : (p.setSess ref sess).conns[c]? = some conn) :
    ∃ sess : KcpDataSession, conn.context = some sess ∧ sess.conn = c ∧ sess.Phase := by
  rw [conns_setSess] at hc
  by_cases hr : ref = c
  · rw [if_pos hr, Option.map_eq_some_iff] at hc
    obtain ⟨_, -, rfl⟩ := hc
    exact ⟨sess, rfl, hconn.trans hr, hphase⟩
  · rw [if_neg hr] at hc
    exact h.context c conn hc

theorem context_setConnState (h : RefInv p) (ref : ConnId) (f : StateE → StateE) (c : ConnId)
    (conn : Conn) (hc : (p.setConnState ref f).conns[c]? = some conn) :
    ∃ sess : KcpDataSession, conn.context = some sess ∧ sess.conn = c ∧ sess.Phase := by
  rw [conns_setConnState] at hc
  by_cases hr : ref = c
  · rw [if_pos hr, Option.map_eq_some_iff] at hc
    obtain ⟨conn₀, hc₀, rfl⟩ := hc
    exact h.context c conn₀ hc₀
  · rw [if_neg hr] at hc
    exact h.context c conn hc

/-- The object of the next connection does not exist yet. -/
theorem liveSess_next (h : RefInv p) : p.liveSess p.nextConnId = none := by
  simp [liveSess, h.fresh p.nextConnId le_rfl]

theorem connUp (h : RefInv p) : RefInv (p.newConnection.onConnected p.nextConnId) := by
  have hview := liveSess_connUp p
  refine ⟨?_, ?_, ?_, ?_, ?_⟩
  · intro c hc
    -- numbers not yet used
    have hlt : p.nextConnId < c := Nat.lt_of_succ_le hc
    rw [conns_connUp, if_neg (Nat.ne_of_lt hlt)]
    exact h.fresh c hlt.le
  · intro c conn hc
    rw [conns_connUp] at hc
    split_ifs at hc with hcc
    · obtain rfl := Option.some.inj hc
      exact ⟨_, rfl, hcc, KcpDataSession.phase_create _⟩
    · exact h.context c conn hc
  · intro c
    change c ∈ p.uninitedSessList ++ [p.nextConnId] ↔ _
    rw [hview, List.mem_append, List.mem_singleton]
    -- the new connection waits, the others do as before
    split_ifs with hcc
    · subst hcc
      simp [KcpDataSession.create]
    · rw [h.waiting c]
      exact ⟨fun hor => hor.resolve_right (fun heq => hcc heq.symm), Or.inl⟩
  · change (p.uninitedSessList ++ [p.nextConnId]).Nodup
    refine List.Nodup.append h.nodup (List.nodup_singleton _) ?_
    -- the new number is not in the list: it belonged to nobody
    intro c hc hc'
    rw [List.mem_singleton] at hc'
    obtain ⟨sess, hs, -⟩ := (h.waiting c).mp hc
    rw [hc', h.liveSess_next] at hs
    cases hs
  · intro id c hc
    obtain ⟨hne, sess, hs, hid⟩ := h.held id c hc
    refine ⟨hne, sess, ?_, hid⟩
    rw [hview, if_neg]
    · exact hs
    · rintro rfl
      rw [h.liveSess_next] at hs
      cases hs

theorem connDown (h : RefInv p) {c₀ : ConnId} {sess₀ : KcpDataSession}
    (hs₀ : p.liveSess c₀ = some sess₀) :
    RefInv ((p.setConnState c₀ (fun _ => .kDisconnected)).onDisconnected c₀ sess₀) := by
  have hview := liveSess_onDisconnected p c₀ sess₀
  refine ⟨?_, ?_, ?_, ?_, ?_⟩
  · intro c hc
    rw [conns_onDisconnected]
    exact h.fresh_setConnState c₀ _ c (by rwa [nextConnId_onDisconnected] at hc)
  · intro c conn hc
    rw [conns_onDisconnected] at hc
    exact h.context_setConnState c₀ _ c conn hc
  · intro c
    rw [uninitedSessList_onDisconnected, hview]
    change c ∈ p.uninitedSessList.erase c₀ ↔ _
    -- erasing the first occurrence erases the only one
    rw [h.nodup.mem_erase_iff, h.waiting c]
    split_ifs with hcc
    · simp [hcc]
    · exact ⟨fun hx => hx.2, fun hx => ⟨fun heq => hcc heq.symm, hx⟩⟩
  · rw [uninitedSessList_onDisconnected]
    exact h.nodup.erase _
  · intro id c hc
    rw [sessionMap_onDisconnected] at hc
    split_ifs at hc with hid
    obtain ⟨hne, sess, hs, hsid⟩ := h.held id c hc
    refine ⟨hne, sess, ?_, hsid⟩
    rw [hview, if_neg]
    · exact hs
    · -- the entry of the closed connection is the one that was erased
      rintro rfl
      obtain rfl := Option.some.inj (hs₀.symm.trans hs)
      exact hid ⟨hsid ▸ hne, hsid⟩

theorem connDestroyed (h : RefInv p) {c₀ : ConnId} (hdead : p.live c₀ = false) :
    RefInv (p.onConnDestroyed c₀) := by
  have hview := liveSess_onConnDestroyed hdead
  refine ⟨?_, ?_, ?_, h.nodup, ?_⟩
  · intro c hc
    rw [conns_onConnDestroyed]
    split_ifs
    · rfl
    · exact h.fresh c hc
  · intro c conn hc
    rw [conns_onConnDestroyed] at hc
    split_ifs at hc
    exact h.context c conn hc
  · intro c
    rw [hview]
    exact h.waiting c
  · intro id c hc
    rw [hview]
    exact h.held id c hc

/-- A session that keeps its id keeps its place. -/
theorem setSess (h : RefInv p) {c : ConnId} {sess sess' : KcpDataSession}
    (hs : p.liveSess c = some sess) (hid : sess'.id = sess.id) (hconn : sess'.conn = sess.conn)
    (hphase : sess'.Phase) : RefInv (p.setSess c sess') := by
  refine ⟨h.fresh_setSess c _, h.context_setSess (hconn.trans (h.of_liveSess hs).1) hphase, ?_,
    h.nodup, ?_⟩
  · intro x
    rw [exists_id_setSess hs hid]
    exact h.waiting x
  · intro id x hx
    rw [exists_id_setSess hs hid]
    exact h.held id x hx

theorem tunnelSend (h : RefInv p) {c : ConnId} {sess : KcpDataSession}
    (hs : p.liveSess c = some sess) (data : List Byte) : RefInv (p.tunnelSend c sess data) := by
  have h' : RefInv (p.setSess c (sess.sendToTunnel data).1) :=
    h.setSess hs (KcpDataSession.sendToTunnel_id sess data)
      (KcpDataSession.sendToTunnel_conn sess data)
      (KcpDataSession.sendToTunnel_phase (h.of_liveSess hs).2 data)
  exact h'.congr rfl rfl rfl rfl

/-- `init` on the front of the waiting list. -/
theorem init_front (h : RefInv p) {newSessId : IUINT32} {ref : ConnId} {rest : List ConnId}
    {sess sess' : KcpDataSession} {accepted : List (List Byte)}
    (hlist : p.uninitedSessList = ref :: rest) (hs : p.liveSess ref = some sess)
    (hinit : sess.init newSessId = .ok (sess', accepted)) (hne : newSessId ≠ 0) :
    sess.id = 0 ∧ sess'.Phase ∧ sess'.id = newSessId ∧ sess'.conn = ref := by
  obtain ⟨sess₀, hs₀, -, hid₀, hconn₀, hphase₀⟩ :=
    h.of_waiting (c := ref) (by rw [hlist]; exact List.mem_cons_self ..)
  obtain rfl := Option.some.inj (hs.symm.trans hs₀)
  obtain ⟨y, acc, hy, hphase', hid', hconn'⟩ := KcpDataSession.init_of_waiting hphase₀ hid₀ hne
  obtain ⟨rfl, -⟩ := Prod.mk.inj (Except.ok.inj (hinit.symm.trans hy))
  exact ⟨hid₀, hphase', hid', hconn'.trans hconn₀⟩

theorem giveId (h : RefInv p) {newSessId : IUINT32} {ref : ConnId} {rest : List ConnId}
    {sess sess' : KcpDataSession} {accepted : List (List Byte)}
    (hlist : p.uninitedSessList = ref :: rest) (hs : p.liveSess ref = some sess)
    (hinit : sess.init newSessId = .ok (sess', accepted)) (hne : newSessId ≠ 0) :
    RefInv ((p.noteRsp newSessId).giveId newSessId ref rest sess' accepted) := by
  obtain ⟨hid₀, hphase', hid', hconn'⟩ := h.init_front hlist hs hinit hne
  have hview := liveSess_giveId hs newSessId rest sess' accepted
  have hnodup : ref ∉ rest ∧ rest.Nodup := by
    have := h.nodup
    rwa [hlist, List.nodup_cons] at this
  refine ⟨?_, ?_, ?_, hnodup.2, ?_⟩
  · exact fun c hc => h.fresh_setSess ref sess' c hc
  · exact fun c conn hc => h.context_setSess hconn' hphase' c conn hc
  · intro c
    change c ∈ rest ↔ _
    rw [hview]
    -- the front session has an id now, so it has to be off the list
    by_cases hc : ref = c
    · subst hc
      rw [if_pos rfl]
      simp only [Option.some.injEq, exists_eq_left', hid']
      exact ⟨fun hin => absurd hin hnodup.1, fun h0 => absurd h0 hne⟩
    · rw [if_neg hc, ← h.waiting c, hlist, List.mem_cons]
      exact ⟨Or.inr, fun hor => hor.resolve_left (fun heq => hc heq.symm)⟩
  · intro id c hmap
    rw [sessionMap_giveId] at hmap
    rw [hview]
    split_ifs at hmap with hin
    · obtain rfl := Option.some.inj hmap
      rw [if_pos rfl]
      exact ⟨hin ▸ hne, sess', rfl, hid'.trans hin⟩
    · obtain ⟨hne', x, hx, hxid⟩ := h.held id c hmap
      refine ⟨hne', x, ?_, hxid⟩
      rw [if_neg]
      · exact hx
      · -- the waiting connection had no entry before
        rintro rfl
        obtain rfl := Option.some.inj (hs.symm.trans hx)
        exact hne' (hxid.symm.trans hid₀)

theorem forceClose (h : RefInv p) (c₀ : ConnId) :
    RefInv (p.setConnState c₀ StateE.forceClose) := by
  have hview := fun c => liveSess_setConnState StateE.live_forceClose p c₀ c
  refine ⟨h.fresh_setConnState c₀ _, h.context_setConnState c₀ _, ?_, h.nodup, ?_⟩
  · intro c
    rw [hview]
    exact h.waiting c
  · intro id c hc
    rw [hview]
    exact h.held id c hc

/-- **Every outcome keeps the references sound**, as long as responses name
    non-zero ids. -/
theorem effect (h : RefInv p) {e : Event} {p' : KcpProxy}
    (hrsp : ∀ msg, e = .control msg → readCmd msg = rspCreateSession → readId msg ≠ 0)
    (heff : Effect p e p') : RefInv p' := by
  cases heff with
  | connUp => exact h.connUp
  | connDown hs => exact h.connDown hs
  | connDestroyed hdead => exact h.connDestroyed hdead
  | message hs hne => exact h.tunnelSend hs _
  | controlDatagram hconv hparse => exact h.congr rfl rfl rfl rfl
  | unknownConv hconv hmap => exact h.congr rfl rfl rfl rfl
  | quiet hconv hmap ht => exact h.touch ht
  | deliver hconv hmap ht hs hid => exact (h.touch ht).congr rfl rfl rfl rfl
  | timer ht => exact h.touch ht
  | rspUnused hcmd hempty => exact h.congr rfl rfl rfl rfl
  | rspGiven hcmd hlist hs hinit => exact h.giveId hlist hs hinit (hrsp _ rfl hcmd)
  | destroyHeld hcmd hmap => exact h.forceClose _
  | ignored hcmd => exact h

end RefInv

namespace TableInv

variable {p : KcpProxy}

theorem listed_touch (h : TableInv p) {p' : KcpProxy} (ht : Touch p p') (c : ConnId)
    (sess : KcpDataSession) (hs : p'.liveSess c = some sess) (hid : sess.id ≠ 0) :
    p'.sessionMap[sess.id]? = some c := by
  obtain ⟨x, hx, hxid, -⟩ := ht.liveSess hs
  rw [ht.sessionMap, hxid]
  exact h.listed c x hx (hxid ▸ hid)

/-- **Every outcome keeps the tables complete**, as long as responses name
    fresh ids. -/
theorem effect (h : TableInv p) {e : Event} {p' : KcpProxy} (hrsp : p.rspFresh e)
    (heff : Effect p e p') : TableInv p' := by
  refine ⟨h.toRefInv.effect (rspFresh_ne_zero hrsp) heff, ?_⟩
  cases heff with
  | connUp =>
      intro c sess hs hid
      rw [liveSess_connUp] at hs
      split_ifs at hs with hc
      · obtain rfl := Option.some.inj hs
        exact absurd rfl hid
      · exact h.listed c sess hs hid
  | connDown hs₀ =>
      intro c sess hs hid
      rw [liveSess_onDisconnected] at hs
      split_ifs at hs with hc
      rw [sessionMap_onDisconnected, if_neg]
      · exact h.listed c sess hs hid
      · -- no other live session has the id of the closed one
        rintro ⟨hne, heq⟩
        exact hc (h.id_injective hs₀ hs hne heq)
  | connDestroyed hdead =>
      intro c sess hs hid
      rw [liveSess_onConnDestroyed hdead] at hs
      exact h.listed c sess hs hid
  | message hs₀ hne =>
      intro c sess hs hid
      have hsame := (exists_id_setSess hs₀ (KcpDataSession.sendToTunnel_id _ _) c sess.id).mp
        ⟨sess, hs, rfl⟩
      obtain ⟨x, hx, hxid⟩ := hsame
      exact hxid ▸ h.listed c x hx (hxid ▸ hid)
  | controlDatagram hconv hparse => exact h.listed
  | unknownConv hconv hmap => exact h.listed
  | quiet hconv hmap ht => exact h.listed_touch ht
  | deliver hconv hmap ht hs₀ hid₀ => exact fun c sess hs hid => h.listed_touch ht c sess hs hid
  | timer ht => exact h.listed_touch ht
  | rspUnused hcmd hempty => exact h.listed
  | rspGiven hcmd hlist hs₀ hinit =>
      intro c sess hs hid
      obtain ⟨-, hfresh⟩ := rspFresh_eq_true hrsp hcmd
      rw [liveSess_giveId hs₀] at hs
      rw [sessionMap_giveId]
      split_ifs at hs with hc
      · obtain rfl := Option.some.inj hs
        rw [if_pos (KcpDataSession.init_id hinit).symm, hc]
      · rw [if_neg (fun heq => hfresh c sess hs heq.symm)]
        exact h.listed c sess hs hid
  | destroyHeld hcmd hmap =>
      intro c sess hs hid
      rw [liveSess_setConnState StateE.live_forceClose] at hs
      exact h.listed c sess hs hid
  | ignored hcmd => exact h.listed

end TableInv
end KcpProxy
end Proxy
end UdpSpeed
