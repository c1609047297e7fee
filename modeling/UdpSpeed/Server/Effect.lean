/-
  UdpSpeed.Server.Effect

  What one event can do to the server, said once.  `HeapInv` holds of every
  reachable state; under it a handler that returns has one of the outcomes of
  `Effect`.  The down callback of a D connection is not among them: the empty
  `connLostCb_` makes it throw.
-/

import UdpSpeed.Server.KcpServer

namespace UdpSpeed

open Kcp Control Muduo Std

namespace Server
namespace KcpServer

/-! ## Session objects -/

theorem sessions_setSess (s : KcpServer) (ref r : SessRef) (sess : KcpServerSession) :
    (s.setSess ref sess).sessions[r]? = if ref = r then some sess else s.sessions[r]? := by
  simp [setSess, TreeMap.getElem?_insert]

/-- The session objects are sound, and the map points to the object of each
    id. -/
structure HeapInv (s : KcpServer) : Prop where
  fresh : ∀ ref : SessRef, s.nextRef ≤ ref → s.sessions[ref]? = none
  stored : ∀ (id : IUINT32) (ref : SessRef), s.sessionMap[id]? = some ref →
    ∃ sess : KcpServerSession, s.sessions[ref]? = some sess ∧ sess.conv = id
  sound : ∀ (ref : SessRef) (sess : KcpServerSession), s.sessions[ref]? = some sess → sess.Sound

theorem HeapInv.create (id : IUINT32) : HeapInv (KcpServer.create id) := by
  refine ⟨?_, ?_, ?_⟩
  · intro ref _
    simp [KcpServer.create]
  · intro i ref h
    simp [KcpServer.create] at h
  · intro ref sess h
    simp [KcpServer.create] at h

/-- Writing back an object with the same id. -/
theorem HeapInv.setSess {s : KcpServer} (h : HeapInv s) {ref : SessRef}
    {sess sess' : KcpServerSession} (hs : s.sessions[ref]? = some sess)
    (hconv : sess'.conv = sess.conv) (hsound : sess'.Sound) : HeapInv (s.setSess ref sess') := by
  refine ⟨?_, ?_, ?_⟩
  · intro r hr
    rw [sessions_setSess, if_neg]
    · exact h.fresh r hr
    · rintro rfl
      rw [h.fresh ref hr] at hs
      cases hs
  · intro id r hmap
    obtain ⟨x, hx, hid⟩ := h.stored id r hmap
    rw [sessions_setSess]
    split_ifs with hr
    · subst hr
      obtain rfl := Option.some.inj (hs.symm.trans hx)
      exact ⟨sess', rfl, hconv.trans hid⟩
    · exact ⟨x, hx, hid⟩
  · intro r x hx
    rw [sessions_setSess] at hx
    split_ifs at hx with hr
    · obtain rfl := Option.some.inj hx
      exact hsound
    · exact h.sound r x hx

/-- The invariant reads the objects and the map. -/
theorem HeapInv.congr {s s' : KcpServer} (h : HeapInv s) (hsess : s'.sessions = s.sessions)
    (hnext : s'.nextRef = s.nextRef)
    (hmap : ∀ (id : IUINT32) (ref : SessRef), s'.sessionMap[id]? = some ref →
      s.sessionMap[id]? = some ref) : HeapInv s' := by
  refine ⟨?_, ?_, ?_⟩
  · intro ref hr
    rw [hsess]
    exact h.fresh ref (hnext ▸ hr)
  · intro id ref hid
    rw [hsess]
    exact h.stored id ref (hmap id ref hid)
  · intro ref sess hs
    exact h.sound ref sess (hsess ▸ hs)

/-! ## The update timer -/

/-- `s'` differs from `s` inside KCP objects and in the datagrams sent. -/
structure Touch (s s' : KcpServer) : Prop where
  controlSess : s'.controlSess = s.controlSess
  sessionMap : s'.sessionMap = s.sessionMap
  id : s'.id = s.id
  nextRef : s'.nextRef = s.nextRef
  hist : s'.hist = { s.hist with datagrams := s'.hist.datagrams }
  sessions : ∀ ref : SessRef, ∃ kcp : KcpServerSession → IKCPCB,
    s'.sessions[ref]? = s.sessions[ref]?.map (fun sess => { sess with kcp := kcp sess }) ∧
      ∀ sess, (kcp sess).cfg = sess.kcp.cfg

theorem Touch.refl (s : KcpServer) : Touch s s := by
  refine ⟨rfl, rfl, rfl, rfl, rfl, fun ref => ⟨fun sess => sess.kcp, ?_, fun _ => rfl⟩⟩
  cases s.sessions[ref]? <;> rfl

theorem Touch.trans {s s₁ s₂ : KcpServer} (h : Touch s s₁) (h' : Touch s₁ s₂) : Touch s s₂ := by
  refine ⟨h'.controlSess.trans h.controlSess, h'.sessionMap.trans h.sessionMap,
    h'.id.trans h.id, h'.nextRef.trans h.nextRef, by rw [h'.hist, h.hist], ?_⟩
  intro ref
  obtain ⟨kcp, hk, hcfg⟩ := h.sessions ref
  obtain ⟨kcp', hk', hcfg'⟩ := h'.sessions ref
  refine ⟨fun sess => kcp' { sess with kcp := kcp sess }, ?_, ?_⟩
  · rw [hk', hk, Option.map_map]
    rfl
  · intro sess
    rw [hcfg']
    exact hcfg sess

/-- An object seen after the change was there before. -/
theorem Touch.of_sessions {s s' : KcpServer} (h : Touch s s') {ref : SessRef}
    {sess' : KcpServerSession} (hs' : s'.sessions[ref]? = some sess') :
    ∃ sess kcp, s.sessions[ref]? = some sess ∧ sess' = { sess with kcp := kcp } ∧
      kcp.cfg = sess.kcp.cfg := by
  obtain ⟨kcp, hk, hcfg⟩ := h.sessions ref
  rw [hk, Option.map_eq_some_iff] at hs'
  obtain ⟨sess, hs, rfl⟩ := hs'
  exact ⟨sess, kcp sess, hs, rfl, hcfg sess⟩

theorem Touch.to_sessions {s s' : KcpServer} (h : Touch s s') {ref : SessRef}
    {sess : KcpServerSession} (hs : s.sessions[ref]? = some sess) :
    ∃ kcp : IKCPCB, s'.sessions[ref]? = some { sess with kcp := kcp } ∧
      kcp.cfg = sess.kcp.cfg := by
  obtain ⟨kcp, hk, hcfg⟩ := h.sessions ref
  exact ⟨kcp sess, by rw [hk, hs]; rfl, hcfg sess⟩

theorem HeapInv.touch {s s' : KcpServer} (h : HeapInv s) (ht : Touch s s') : HeapInv s' := by
  refine ⟨?_, ?_, ?_⟩
  · intro ref hr
    obtain ⟨kcp, hk, -⟩ := ht.sessions ref
    rw [hk, h.fresh ref (ht.nextRef ▸ hr)]
    rfl
  · intro id ref hmap
    obtain ⟨sess, hs, hid⟩ := h.stored id ref (ht.sessionMap ▸ hmap)
    obtain ⟨kcp, hk, hcfg⟩ := ht.to_sessions hs
    exact ⟨_, hk, (KcpServerSession.conv_withKcp hcfg).trans hid⟩
  · intro ref sess' hs'
    obtain ⟨sess, kcp, hs, rfl, hcfg⟩ := ht.of_sessions hs'
    exact (h.sound ref sess hs).withKcp hcfg

theorem touch_updateSessions (s : KcpServer) (clock : IUINT32) (refs : List SessRef) :
    Touch s (s.updateSessions clock refs) := by
  induction refs generalizing s with
  | nil => exact .refl s
  | cons ref rest ih =>
      rw [updateSessions]
      cases hs : s.sessions[ref]? with
      | none => exact ih s
      | some sess =>
          -- one turn of the loop, then the rest by induction
          have hone : Touch s ((s.setSess ref (sess.updateKcp clock).1).output sess.remoteAddr
              (sess.updateKcp clock).2) := by
            refine ⟨rfl, rfl, rfl, rfl, rfl, fun r => ?_⟩
            change ∃ kcp : KcpServerSession → IKCPCB,
              (s.setSess ref (sess.updateKcp clock).1).sessions[r]? = _ ∧ _
            rw [sessions_setSess]
            split_ifs with hr
            · subst hr
              refine ⟨fun x => (ikcpUpdate x.kcp clock).1, ?_, fun x => ikcpUpdate_cfg _ _⟩
              rw [hs]
              rfl
            · refine ⟨fun x => x.kcp, ?_, fun _ => rfl⟩
              cases s.sessions[r]? <;> rfl
          exact hone.trans (ih _)

/-! ## The outcomes of an event -/

/-- The server after the session at `ref` read a payload from the tunnel. -/
def received (s : KcpServer) (ref : SessRef) (sess : KcpServerSession) (payload : List Byte)
    (now : Int) : KcpServer :=
  { s.setSess ref (sess.takePayload payload now).1 with
    hist := { s.hist with
      received := Function.update s.hist.received sess.conv
        (s.hist.received sess.conv ++ [payload])
      sentToD := Function.update s.hist.sentToD sess.conv
        (s.hist.sentToD sess.conv ++ (sess.takePayload payload now).2) } }

/-- The server after the session at `ref` read `data` from D. -/
def accepted (s : KcpServer) (ref : SessRef) (sess : KcpServerSession) (kcp : IKCPCB)
    (data : List Byte) : KcpServer :=
  { s.setSess ref { sess with kcp := kcp } with
    hist := { s.hist with
      readFromD := Function.update s.hist.readFromD sess.conv
        (s.hist.readFromD sess.conv ++ data)
      accepted := Function.update s.hist.accepted sess.conv
        (s.hist.accepted sess.conv ++ [data]) } }

/-- Every outcome of an event whose handler returns. -/
inductive Effect (s : KcpServer) : Event → KcpServer → Prop where
  | ignored {bytes : List Byte} {remote : SockAddr} {now : Int} :
      Effect s (.datagram bytes remote now) s
  | controlDatagram {bytes : List Byte} {remote : SockAddr} {now : Int} {ret : Int}
      {ctl : ControlSession}
      (hparse : s.controlSess.parseMsg (bytes.take 4096) = .ok (ret, [], ctl)) :
      Effect s (.datagram bytes remote now) { s with controlSess := ctl }
  | quiet {bytes : List Byte} {remote : SockAddr} {now : Int} {ref : SessRef}
      {sess : KcpServerSession} {kcp : IKCPCB} (hmap : s.sessionMap[sess.conv]? = some ref)
      (hs : s.sessions[ref]? = some sess) (hcfg : kcp.cfg = sess.kcp.cfg) :
      Effect s (.datagram bytes remote now) (s.setSess ref { sess with kcp := kcp })
  | recv {bytes payload : List Byte} {remote : SockAddr} {now : Int} {ref : SessRef}
      {sess : KcpServerSession} {kcp : IKCPCB} (hmap : s.sessionMap[sess.conv]? = some ref)
      (hs : s.sessions[ref]? = some sess) (hcfg : kcp.cfg = sess.kcp.cfg)
      (hne : payload ≠ []) :
      Effect s (.datagram bytes remote now) (s.received ref { sess with kcp := kcp } payload now)
  | create {msg : List Byte} {remote : SockAddr} {now : Int}
      (hcmd : readCmd msg = cmdCreateSession) :
      Effect s (.control msg remote now) (s.handleCreate remote now)
  | destroy {msg : List Byte} {remote : SockAddr} {now : Int}
      (hcmd : readCmd msg = cmdDestroySession) :
      Effect s (.control msg remote now) (s.handleDestroy (readId msg))
  | connected {ref : SessRef} {sess : KcpServerSession} (hs : s.sessions[ref]? = some sess)
      (hclient : sess.client = some .connecting) :
      Effect s (.connected ref) (s.onConnectionUp ref sess)
  | connectFailed {ref : SessRef} {sess : KcpServerSession} (hs : s.sessions[ref]? = some sess)
      (hclient : sess.client = some .connecting) :
      Effect s (.connectFailed ref) (s.setSess ref { sess with client := some .idle })
  | message {ref : SessRef} {sess : KcpServerSession} {kcp : IKCPCB} {data : List Byte}
      (hs : s.sessions[ref]? = some sess) (hcfg : kcp.cfg = sess.kcp.cfg) :
      Effect s (.message ref data) (s.accepted ref sess kcp data)
  | checked {ref : SessRef} {sess : KcpServerSession} (hs : s.sessions[ref]? = some sess)
      (hclient : sess.client = none ∨ sess.client = some .connected) :
      Effect s (.checkConnection ref) (s.setSess ref { sess with checkPending := false })
  | updateTimer {clock : IUINT32} {s' : KcpServer} (ht : Touch s s') :
      Effect s (.updateTimer clock) s'
  | deadSessionTimer {now : Int} :
      Effect s (.deadSessionTimer now) (s.onCheckDeadSessionTimer now)
  | released {ref : SessRef} {sess : KcpServerSession} (hs : s.sessions[ref]? = some sess)
      (hfree : s.unreferenced ref sess) : Effect s (.released ref) (s.onReleased ref sess)

theorem onSession_eq_ok {s s' : KcpServer} {ref : SessRef}
    {f : KcpServerSession → Except Abort KcpServer} {q : KcpServerSession → Bool}
    (hen : s.sessions[ref]?.any q) (h : s.onSession ref f = .ok s') :
    ∃ sess, s.sessions[ref]? = some sess ∧ q sess ∧ f sess = .ok s' := by
  unfold onSession at h
  cases hs : s.sessions[ref]? with
  | none => simp [hs] at hen
  | some sess =>
      rw [hs] at hen h
      exact ⟨sess, rfl, hen, h⟩

/-- Reading nothing leaves the history as it was. -/
theorem tunnelRecv_quiet {s : KcpServer} {ref : SessRef} {sess sess' : KcpServerSession}
    {packet : List Byte} {now : Int} (h : sess.recvFromTunnel packet now = (sess', [], [])) :
    s.tunnelRecv ref sess packet now = s.setSess ref sess' := by
  simp only [tunnelRecv, h, List.append_nil, Function.update_eq_self]
  rfl

theorem dispatch_effect {s s' : KcpServer} (h : HeapInv s) {bytes : List Byte}
    {remote : SockAddr} {now : Int} (hok : s.onUdpTunnelReadable bytes remote now = .ok s') :
    Effect s (.datagram bytes remote now) s' := by
  unfold onUdpTunnelReadable dispatchKcpPacket at hok
  split_ifs at hok with hsn hconv
  · obtain rfl := Except.ok.inj hok
    exact .ignored
  -- `parseMsg` hands over no message, or throws
  · obtain ⟨ret, ctl, hparse⟩ | ⟨e, hparse⟩ := s.controlSess.parseMsg_cases (bytes.take 4096)
    · simp only [hparse, handleControlMessages, Except.ok.injEq] at hok
      subst hok
      exact .controlDatagram hparse
    · simp only [hparse] at hok
      cases hok
  · cases hmap : s.sessionMap[ikcpGetconv (bytes.take 4096)]? with
    | none =>
        simp only [hmap, Except.ok.injEq] at hok
        subst hok
        exact .ignored
    | some ref =>
        obtain ⟨sess, hs, hid⟩ := h.stored _ _ hmap
        simp only [hmap, hs, Except.ok.injEq] at hok
        subst hok
        have hcfg := receiveOnce_cfg sess.kcp (bytes.take 4096)
        -- nothing to read, or a payload for D
        obtain hrecv | ⟨payload, hne, hrecv⟩ := sess.recvFromTunnel_spec (bytes.take 4096) now
        · rw [tunnelRecv_quiet hrecv]
          exact .quiet (hid ▸ hmap) hs hcfg
        · have heq : s.tunnelRecv ref sess (bytes.take 4096) now =
              s.received ref { sess with kcp := receiveOnce sess.kcp (bytes.take 4096) }
                payload now := by
            simp only [tunnelRecv, hrecv, received, KcpServerSession.conv_withKcp hcfg]
          rw [heq]
          exact .recv (hid ▸ hmap) hs hcfg hne

/-- Losing the D connection, or finding it not there after three seconds,
    calls the empty callback. -/
theorem HeapInv.onConnectionDown {s : KcpServer} (h : HeapInv s) {ref : SessRef}
    {sess : KcpServerSession} (hs : s.sessions[ref]? = some sess) :
    s.onConnectionDown ref sess = .error .badFunctionCall := by
  simp only [KcpServer.onConnectionDown, callConnLost, (h.sound ref sess hs).noCallback]

theorem HeapInv.onCheckConnection {s : KcpServer} (h : HeapInv s) {ref : SessRef}
    {sess : KcpServerSession} (hs : s.sessions[ref]? = some sess) {client : TcpClient}
    (hclient : sess.client = some client) (hconn : client.hasConnection = false) :
    s.onCheckConnection ref sess = .error .badFunctionCall := by
  simp only [KcpServer.onCheckConnection, hclient, hconn, Bool.false_eq_true, if_false,
    callConnLost, KcpServerSession.resetClient, (h.sound ref sess hs).noCallback]

/-- **Every handler that returns has one of the listed outcomes.** -/
theorem HeapInv.handle_effect {s s' : KcpServer} (h : HeapInv s) {e : Event} (hen : s.enabled e)
    (hok : s.handle e = .ok s') : Effect s e s' := by
  cases e with
  | datagram bytes remote now => exact dispatch_effect h hok
  | control msg remote now =>
      simp only [handle, handleControlMessage] at hok
      split_ifs at hok with hnil hcreate hdestroy
      · obtain rfl := Except.ok.inj hok
        exact .create hcreate
      · obtain rfl := Except.ok.inj hok
        exact .destroy hdestroy
  | connected ref =>
      obtain ⟨sess, hs, hq, hf⟩ := onSession_eq_ok hen hok
      obtain rfl := Except.ok.inj hf
      exact .connected hs (of_decide_eq_true hq)
  | connectFailed ref =>
      obtain ⟨sess, hs, hq, hf⟩ := onSession_eq_ok hen hok
      obtain rfl := Except.ok.inj hf
      exact .connectFailed hs (of_decide_eq_true hq)
  | closed ref =>
      obtain ⟨sess, hs, -, hf⟩ := onSession_eq_ok hen hok
      -- the empty callback is called, so this never returns
      rw [h.onConnectionDown hs] at hf
      cases hf
  | message ref data =>
      simp only [enabled, Bool.and_eq_true] at hen
      obtain ⟨sess, hs, -, hf⟩ := onSession_eq_ok hen.1 hok
      unfold KcpServer.onMessage KcpServerSession.onMessage at hf
      dsimp only at hf
      -- `assert(sendRet == 0)` held
      split_ifs at hf
      obtain rfl := Except.ok.inj hf
      exact .message hs (ikcpSend_cfg _ _)
  | checkConnection ref =>
      obtain ⟨sess, hs, -, hf⟩ := onSession_eq_ok hen hok
      unfold KcpServer.onCheckConnection at hf
      dsimp only at hf
      split at hf
      · next hclient =>
          obtain rfl := Except.ok.inj hf
          exact .checked hs (Or.inl hclient)
      · next client hclient =>
          split_ifs at hf with hconn
          · obtain rfl := Except.ok.inj hf
            exact .checked hs (Or.inr (by rw [hclient, of_decide_eq_true hconn]))
          · -- the empty callback is called
            simp only [callConnLost, KcpServerSession.resetClient,
              (h.sound ref sess hs).noCallback] at hf
            cases hf
  | updateTimer clock =>
      obtain rfl := Except.ok.inj hok
      exact .updateTimer (touch_updateSessions s clock _)
  | deadSessionTimer now =>
      obtain rfl := Except.ok.inj hok
      exact .deadSessionTimer
  | released ref =>
      obtain ⟨sess, hs, hq, hf⟩ := onSession_eq_ok hen hok
      obtain rfl := Except.ok.inj hf
      exact .released hs hq

/-- What an event does to the control session: nothing, one response sent, or a
    datagram parsed. -/
theorem Effect.control_cases {s s' : KcpServer} {e : Event} (heff : Effect s e s') :
    (s'.controlSess = s.controlSess ∧ s'.hist.ctlSent = s.hist.ctlSent) ∨
      (∃ id, s'.controlSess = s.controlSess.sendMsg (rspMsg id) ∧
        s'.hist.ctlSent = s.hist.ctlSent ++ [rspMsg id]) ∨
      ∃ bytes remote now ret, e = .datagram bytes remote now ∧
        s.controlSess.parseMsg (bytes.take 4096) = .ok (ret, [], s'.controlSess) ∧
        s'.hist.ctlSent = s.hist.ctlSent := by
  cases heff with
  | controlDatagram hparse => exact Or.inr (Or.inr ⟨_, _, _, _, rfl, hparse, rfl⟩)
  | create hcmd => exact Or.inr (Or.inl ⟨_, rfl, rfl⟩)
  | destroy hcmd =>
      unfold handleDestroy
      split <;> exact Or.inl ⟨rfl, rfl⟩
  | updateTimer ht =>
      rw [ht.hist]
      exact Or.inl ⟨ht.controlSess, rfl⟩
  | _ => exact Or.inl ⟨rfl, rfl⟩

/-- Outside `handleControlMessage` nothing is issued and no control message
    sent. -/
theorem Effect.local_hist {s s' : KcpServer} {e : Event} (heff : Effect s e s')
    (hloc : ∀ msg remote now, e ≠ .control msg remote now) :
    s'.hist.ctlSent = s.hist.ctlSent ∧ s'.hist.issued = s.hist.issued ∧ s'.id = s.id := by
  cases heff with
  | create hcmd => exact absurd rfl (hloc _ _ _)
  | destroy hcmd => exact absurd rfl (hloc _ _ _)
  | updateTimer ht =>
      rw [ht.hist]
      exact ⟨rfl, rfl, ht.id⟩
  | _ => exact ⟨rfl, rfl, rfl⟩

/-! ## Preservation -/

theorem sessions_handleCreate (s : KcpServer) (remote : SockAddr) (now : Int) (r : SessRef) :
    (s.handleCreate remote now).sessions[r]? =
      if s.nextRef = r then
        some ((KcpServerSession.create (newId s.id).1 remote now).connectSvr
          .onSessionConnectionLost)
      else s.sessions[r]? := by
  change (s.sessions.insert s.nextRef ((KcpServerSession.create (newId s.id).1 remote
    now).connectSvr .onSessionConnectionLost))[r]? = _
  simp [TreeMap.getElem?_insert]

theorem sessionMap_handleCreate (s : KcpServer) (remote : SockAddr) (now : Int) (id : IUINT32) :
    (s.handleCreate remote now).sessionMap[id]? =
      if (newId s.id).1 = id then some s.nextRef else s.sessionMap[id]? := by
  change (s.sessionMap.insert (newId s.id).1 s.nextRef)[id]? = _
  simp [TreeMap.getElem?_insert]

theorem sessions_handleDestroy (s : KcpServer) (id : IUINT32) (r : SessRef) :
    (s.handleDestroy id).sessions[r]? =
      if s.sessionMap[id]? = some r then s.sessions[r]?.map KcpServerSession.disconnectSvr
      else s.sessions[r]? := by
  unfold handleDestroy
  cases hmap : s.sessionMap[id]? with
  | none => simp
  | some ref =>
      by_cases hr : ref = r
      · subst hr
        simp
      · simp [TreeMap.getElem?_modify, hr]

theorem handleDestroy_frame (s : KcpServer) (id : IUINT32) :
    (s.handleDestroy id).sessionMap = s.sessionMap ∧ (s.handleDestroy id).nextRef = s.nextRef ∧
      (s.handleDestroy id).hist = s.hist ∧ (s.handleDestroy id).id = s.id := by
  unfold handleDestroy
  split <;> exact ⟨rfl, rfl, rfl, rfl⟩

theorem sessionMap_deadSessionTimer (s : KcpServer) (now : Int) (id : IUINT32) (ref : SessRef) :
    (s.onCheckDeadSessionTimer now).sessionMap[id]? = some ref ↔
      s.sessionMap[id]? = some ref ∧ s.idleRef now ref = false := by
  simp only [onCheckDeadSessionTimer, TreeMap.getElem?_filter]
  cases h : s.sessionMap[id]? with
  | none => simp
  | some r =>
      by_cases hidle : s.idleRef now r <;> grind

theorem HeapInv.handleCreate {s : KcpServer} (h : HeapInv s) (remote : SockAddr) (now : Int) :
    HeapInv (s.handleCreate remote now) := by
  refine ⟨?_, ?_, ?_⟩
  · intro r hr
    have hlt : s.nextRef < r := Nat.lt_of_succ_le hr
    rw [sessions_handleCreate, if_neg (Nat.ne_of_lt hlt)]
    exact h.fresh r hlt.le
  · intro id r hmap
    rw [sessionMap_handleCreate] at hmap
    rw [sessions_handleCreate]
    split_ifs at hmap with hid
    · rw [if_pos (Option.some.inj hmap)]
      exact ⟨_, rfl, hid⟩
    · obtain ⟨sess, hs, hconv⟩ := h.stored id r hmap
      rw [if_neg]
      · exact ⟨sess, hs, hconv⟩
      · rintro rfl
        rw [h.fresh s.nextRef le_rfl] at hs
        cases hs
  · intro r sess hs
    rw [sessions_handleCreate] at hs
    split_ifs at hs
    · obtain rfl := Option.some.inj hs
      exact KcpServerSession.sound_create _ _ _ _
    · exact h.sound r sess hs

theorem HeapInv.handleDestroy {s : KcpServer} (h : HeapInv s) (id : IUINT32) :
    HeapInv (s.handleDestroy id) := by
  obtain ⟨hmap, hnext, -⟩ := handleDestroy_frame s id
  refine ⟨?_, ?_, ?_⟩
  · intro r hr
    rw [sessions_handleDestroy, h.fresh r (hnext ▸ hr)]
    split_ifs <;> rfl
  · intro i r hi
    rw [hmap] at hi
    obtain ⟨sess, hs, hconv⟩ := h.stored i r hi
    rw [sessions_handleDestroy, hs]
    split_ifs
    · exact ⟨_, rfl, hconv⟩
    · exact ⟨sess, rfl, hconv⟩
  · intro r sess hs
    rw [sessions_handleDestroy] at hs
    split_ifs at hs
    · obtain ⟨sess₀, hs₀, rfl⟩ := Option.map_eq_some_iff.mp hs
      exact (h.sound r sess₀ hs₀).resetClient
    · exact h.sound r sess hs

theorem HeapInv.onReleased {s : KcpServer} (h : HeapInv s) {ref : SessRef}
    {sess : KcpServerSession} (hfree : s.unreferenced ref sess) :
    HeapInv (s.onReleased ref sess) := by
  have hsess : ∀ r, (s.onReleased ref sess).sessions[r]? =
      if ref = r then none else s.sessions[r]? := by
    intro r
    change (s.sessions.erase ref)[r]? = _
    simp [TreeMap.getElem?_erase]
  refine ⟨?_, ?_, ?_⟩
  · intro r hr
    rw [hsess, h.fresh r hr]
    split_ifs <;> rfl
  · intro id r hmap
    obtain ⟨x, hx, hconv⟩ := h.stored id r hmap
    rw [hsess, if_neg]
    · exact ⟨x, hx, hconv⟩
    · -- an entry of the map is a reference
      rintro rfl
      have hmem := TreeMap.mem_toList_iff_getElem?_eq_some.mpr hmap
      simp only [unreferenced, Bool.and_eq_true, Bool.not_eq_true', List.any_eq_false] at hfree
      exact hfree.1.1.1 _ hmem (by simp)
  · intro r x hx
    rw [hsess] at hx
    split_ifs at hx
    exact h.sound r x hx

theorem HeapInv.effect {s s' : KcpServer} (h : HeapInv s) {e : Event} (heff : Effect s e s') :
    HeapInv s' := by
  cases heff with
  | ignored => exact h
  | controlDatagram hparse => exact h.congr rfl rfl (fun _ _ hm => hm)
  | quiet hmap hs hcfg =>
      exact h.setSess hs (KcpServerSession.conv_withKcp hcfg) ((h.sound _ _ hs).withKcp hcfg)
  | @recv _ payload _ now ref sess kcp hmap hs hcfg hne =>
      have hsound := ((h.sound _ _ hs).withKcp hcfg).takePayload payload now
      have hconv := (KcpServerSession.takePayload_conv { sess with kcp := kcp } payload now).trans
        (KcpServerSession.conv_withKcp hcfg)
      exact (h.setSess hs hconv hsound).congr rfl rfl (fun _ _ hm => hm)
  | create hcmd => exact h.handleCreate _ _
  | destroy hcmd => exact h.handleDestroy _
  | @connected ref sess hs hclient =>
      have hsound : sess.onConnected.1.Sound :=
        ⟨(h.sound _ _ hs).cfg, (h.sound _ _ hs).noCallback, .connected⟩
      have hinv : HeapInv (s.setSess ref sess.onConnected.1) := h.setSess hs rfl hsound
      exact hinv.congr rfl rfl (fun _ _ hm => hm)
  | @connectFailed ref sess hs hclient =>
      have hlink := (h.sound _ _ hs).link
      rw [hclient] at hlink
      refine h.setSess hs rfl ⟨(h.sound _ _ hs).cfg, (h.sound _ _ hs).noCallback, ?_⟩
      dsimp only
      generalize sess.conn = conn at hlink
      generalize sess.payloadList = payloads at hlink
      cases hlink
      exact .idle _
  | @message ref sess kcp data hs hcfg =>
      have hinv : HeapInv (s.setSess ref { sess with kcp := kcp }) :=
        h.setSess hs (KcpServerSession.conv_withKcp hcfg) ((h.sound _ _ hs).withKcp hcfg)
      exact hinv.congr rfl rfl (fun _ _ hm => hm)
  | checked hs hclient =>
      exact h.setSess hs rfl
        ⟨(h.sound _ _ hs).cfg, (h.sound _ _ hs).noCallback, (h.sound _ _ hs).link⟩
  | updateTimer ht => exact h.touch ht
  | deadSessionTimer =>
      exact h.congr rfl rfl (fun id ref hm => ((sessionMap_deadSessionTimer s _ id ref).mp hm).1)
  | released hs hfree => exact h.onReleased hfree

theorem HeapInv.step {s s' : KcpServer} {e : Event} (h : HeapInv s) (hstep : s.step e = some s') :
    HeapInv s' := by
  obtain ⟨hen, hok⟩ := step_eq_some.mp hstep
  exact h.effect (h.handle_effect hen hok)

end KcpServer
end Server
end UdpSpeed
