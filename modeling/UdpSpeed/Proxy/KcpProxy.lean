/-
  UdpSpeed.Proxy.KcpProxy

  `KcpProxy` (KcpProxy/KcpProxy.cpp) as an event-driven process: the handlers,
  the events that call them and the step function.

  A session object belongs to the context of its `TcpConnection`; both tables
  hold weak references, so a reference here is the connection's identity and
  `lock()` looks the object up.  `Hist` records what the process has done so
  far (messages given to `sendMsg`, bytes read and written, ...); no handler
  reads it.
-/

import UdpSpeed.Lib.EventSystem
import UdpSpeed.Muduo.Tcp
import UdpSpeed.Proxy.DataSession
import UdpSpeed.Control.ControlSession

namespace UdpSpeed

open Kcp Control Muduo Std

namespace Proxy

/-! ## State -/

/-- A `TcpConnection` object of the proxy; `context` owns the session. -/
structure Conn where
  state : StateE
  context : Option KcpDataSession
deriving DecidableEq, Repr

/-- What the proxy has done so far. -/
structure Hist where
  /-- messages given to `controlSess_.sendMsg` -/
  ctlSent : List (List Byte) := []
  /-- ids of the `RSP_CREATE_SESSION` messages handled -/
  rspSeen : List IUINT32 := []
  /-- ids given to a connection's session, with the connection -/
  assigned : List (IUINT32 × ConnId) := []
  /-- bytes read from each connection -/
  readFromA : ConnId → List Byte := fun _ => []
  /-- bytes passed to `send` on each connection -/
  sentToA : ConnId → List Byte := fun _ => []
  /-- messages accepted by `ikcp_send`, per conv -/
  accepted : IUINT32 → List (List Byte) := fun _ => []
  /-- messages returned by `ikcp_recv`, per conv -/
  received : IUINT32 → List (List Byte) := fun _ => []
  /-- datagrams passed to the output callback -/
  datagrams : List (List Byte) := []

/-- `class KcpProxy`, with the connection objects of its `TcpServer`. -/
structure KcpProxy where
  controlSess : ControlSession
  sessionMap : TreeMap IUINT32 ConnId
  uninitedSessList : List ConnId
  conns : TreeMap ConnId Conn
  nextConnId : ConnId
  hist : Hist

namespace KcpProxy

/-- The process after its constructor and `run`. -/
def create : KcpProxy where
  controlSess := .create
  sessionMap := ∅
  uninitedSessList := []
  conns := ∅
  nextConnId := 1
  hist := {}

/-- `lock()` on a `KcpDataSessionRef`. -/
def lockSess (p : KcpProxy) (ref : ConnId) : Option KcpDataSession :=
  match p.conns[ref]? with
  | none => none
  | some conn => conn.context

/-- Write a session object back. -/
def setSess (p : KcpProxy) (ref : ConnId) (sess : KcpDataSession) : KcpProxy :=
  { p with conns := p.conns.modify ref (fun conn => { conn with context := some sess }) }

/-- Change the state of a connection object. -/
def setConnState (p : KcpProxy) (ref : ConnId) (f : StateE → StateE) : KcpProxy :=
  { p with conns := p.conns.modify ref (fun conn => { conn with state := f conn.state }) }

/-- `controlSess_.sendMsg`. -/
def sendMsg (p : KcpProxy) (msg : List Byte) : KcpProxy :=
  { p with
    controlSess := p.controlSess.sendMsg msg
    hist := { p.hist with ctlSent := p.hist.ctlSent ++ [msg] } }

/-! ## Handlers -/

/-- `KcpProxy::notifyDeadSessionId`. -/
def notifyDeadSessionId (p : KcpProxy) (id : IUINT32) : KcpProxy := p.sendMsg (destroyMsg id)

/-- The connected branch of `KcpProxy::onConnection`. -/
def onConnected (p : KcpProxy) (c : ConnId) : KcpProxy :=
  -- the session is owned by the connection's context, the list only refers to it
  let p := p.setSess c (.create c)
  let p := { p with uninitedSessList := p.uninitedSessList ++ [c] }
  p.sendMsg createMsg

/-- The disconnected branch of `KcpProxy::onConnection`.  The loop compares
    `it->lock()` with the live session, so it erases the first reference to
    that very session. -/
def onDisconnected (p : KcpProxy) (c : ConnId) (sess : KcpDataSession) : KcpProxy :=
  let p := { p with uninitedSessList := p.uninitedSessList.erase c }
  if sess.id ≠ 0 then
    -- no timer will drive the session's KCP object after this
    let p := { p with sessionMap := p.sessionMap.erase sess.id }
    p.notifyDeadSessionId sess.id
  else p

/-- `KcpProxy::onConnection`. -/
def onConnection (p : KcpProxy) (c : ConnId) (connected : Bool) : Except Abort KcpProxy :=
  if connected then .ok (p.onConnected c)
  else
    match p.lockSess c with
    | none => .error .badAnyCast
    | some sess => .ok (p.onDisconnected c sess)

/-- The proxy after `sess->sendToTunnel(data)` on the session of `c`. -/
def tunnelSend (p : KcpProxy) (c : ConnId) (sess : KcpDataSession) (data : List Byte) : KcpProxy :=
  { p.setSess c (sess.sendToTunnel data).1 with
    hist := { p.hist with
      readFromA := Function.update p.hist.readFromA c (p.hist.readFromA c ++ data)
      accepted := Function.update p.hist.accepted sess.id
        (p.hist.accepted sess.id ++ (sess.sendToTunnel data).2) } }

/-- `KcpProxy::onMessage`. -/
def onMessage (p : KcpProxy) (c : ConnId) (data : List Byte) : Except Abort KcpProxy :=
  match p.lockSess c with
  | none => .error .badAnyCast
  | some sess => .ok (p.tunnelSend c sess data)

/-- `KcpDataSession::forceConnClose`. -/
def forceConnClose (p : KcpProxy) (sess : KcpDataSession) : Except Abort KcpProxy :=
  match p.conns[sess.conn]? with
  | none => .error .assertConnPtr
  | some _ => .ok (p.setConnState sess.conn StateE.forceClose)

/-- Note that a `RSP_CREATE_SESSION` has been handled. -/
def noteRsp (p : KcpProxy) (newSessId : IUINT32) : KcpProxy :=
  { p with hist := { p.hist with rspSeen := p.hist.rspSeen ++ [newSessId] } }

/-- The proxy after the front session of the waiting list took the new id;
    `sess` is the session `init` left and `accepted` what it gave to KCP. -/
def giveId (p : KcpProxy) (newSessId : IUINT32) (ref : ConnId) (rest : List ConnId)
    (sess : KcpDataSession) (accepted : List (List Byte)) : KcpProxy :=
  { p.setSess ref sess with
    uninitedSessList := rest
    sessionMap := p.sessionMap.insert newSessId ref
    hist := { p.hist with
      assigned := p.hist.assigned ++ [(newSessId, ref)]
      accepted := Function.update p.hist.accepted newSessId
        (p.hist.accepted newSessId ++ accepted) } }

/-- The `RSP_CREATE_SESSION` branch of `KcpProxy::handleControlMessage`. -/
def handleRsp (p : KcpProxy) (newSessId : IUINT32) (returns : FreedRead := fun _ => true) :
    Except Abort KcpProxy :=
  let p := p.noteRsp newSessId
  match p.uninitedSessList with
  -- the connection the id was made for has closed, and nobody else waits
  | [] => .ok (p.notifyDeadSessionId newSessId)
  | ref :: rest =>
      match p.lockSess ref with
      | none => .error .assertSess
      | some sess =>
          match sess.init newSessId returns with
          | .error e => .error e
          | .ok (sess, accepted) => .ok (p.giveId newSessId ref rest sess accepted)

/-- The `CMD_DESTROY_SESSION` branch of `KcpProxy::handleControlMessage`. -/
def handleDestroy (p : KcpProxy) (sessId : IUINT32) : Except Abort KcpProxy :=
  match p.sessionMap[sessId]? with
  | none => .ok p
  | some ref =>
      match p.lockSess ref with
      | none => .error .assertSess
      | some sess => p.forceConnClose sess

/-- `KcpProxy::handleControlMessage`. -/
def handleControlMessage (p : KcpProxy) (controlMsg : List Byte)
    (returns : FreedRead := fun _ => true) : Except Abort KcpProxy :=
  if controlMsg = [] then .error .assertNonempty
  else if readCmd controlMsg = rspCreateSession then p.handleRsp (readId controlMsg) returns
  else if readCmd controlMsg = cmdDestroySession then p.handleDestroy (readId controlMsg)
  else .ok p

/-- The loop `for (auto msg : aryMsg)`. -/
def handleControlMessages (p : KcpProxy) (msgs : List (List Byte))
    (returns : FreedRead := fun _ => true) : Except Abort KcpProxy :=
  match msgs with
  | [] => .ok p
  | msg :: rest =>
      match p.handleControlMessage msg returns with
      | .error e => .error e
      | .ok p => p.handleControlMessages rest returns

/-- The proxy after `connPtr->send(msg)` on the connection of `sess`. -/
def connSend (p : KcpProxy) (sess : KcpDataSession) (msg : List Byte) : KcpProxy :=
  { p with
    hist := { p.hist with
      received := Function.update p.hist.received sess.id (p.hist.received sess.id ++ [msg])
      sentToA := Function.update p.hist.sentToA sess.conn (p.hist.sentToA sess.conn ++ msg) } }

/-- The tail of `KcpDataSession::recvFromTunnel`: lock the connection and send
    it the message. -/
def sendToConn (p : KcpProxy) (sess : KcpDataSession) (msg : List Byte) : Except Abort KcpProxy :=
  match p.conns[sess.conn]? with
  | none => .error .assertConnPtr
  | some _ => .ok (p.connSend sess msg)

/-- The data branch of `KcpProxy::onKcpTunnelMessage`. -/
def onDataDatagram (p : KcpProxy) (sessId : IUINT32) (buf : List Byte) : Except Abort KcpProxy :=
  match p.sessionMap[sessId]? with
  -- an id that is not in the map counts as dead, even if its response is still to come
  | none => .ok (p.notifyDeadSessionId sessId)
  | some ref =>
      match p.lockSess ref with
      | none => .error .assertSess
      | some sess =>
          match sess.recvFromTunnel buf with
          | .error e => .error e
          -- the return code is only logged
          | .ok (_, sess, none) => .ok (p.setSess ref sess)
          | .ok (_, sess, some msg) => (p.setSess ref sess).sendToConn sess msg

/-- The control branch of `KcpProxy::onKcpTunnelMessage`. -/
def onControlDatagram (p : KcpProxy) (buf : List Byte) (returns : FreedRead := fun _ => true) :
    Except Abort KcpProxy :=
  match p.controlSess.parseMsg buf with
  | .error e => .error e
  -- the return code is ignored; the messages are handled in order
  | .ok (_, aryMsg, controlSess) =>
      { p with controlSess := controlSess }.handleControlMessages aryMsg returns

/-- `KcpProxy::onKcpTunnelMessage` on a datagram; `read` keeps its first 4096
    bytes. -/
def onKcpTunnelMessage (p : KcpProxy) (datagram : List Byte)
    (returns : FreedRead := fun _ => true) : Except Abort KcpProxy :=
  let buf := datagram.take 4096
  -- conv 0 is the control session
  if ikcpGetconv buf = 0 then p.onControlDatagram buf returns
  else p.onDataDatagram (ikcpGetconv buf) buf

/-- Datagrams passed to `KcpTunnel::output`. -/
def output (p : KcpProxy) (out : List (List Byte)) : KcpProxy :=
  { p with hist := { p.hist with datagrams := p.hist.datagrams ++ out } }

/-- One turn of the loop of `KcpProxy::onUpdateTunnelTimer`. -/
def updateSession (p : KcpProxy) (ref : ConnId) (clock : IUINT32) : Except Abort KcpProxy :=
  match p.lockSess ref with
  | none => .error .assertSess
  | some sess =>
      match sess.update clock with
      | .error e => .error e
      | .ok (sess, out) => .ok ((p.setSess ref sess).output out)

/-- The loop of `KcpProxy::onUpdateTunnelTimer` over the references left. -/
def updateSessions (p : KcpProxy) (clock : IUINT32) : List ConnId → Except Abort KcpProxy
  | [] => .ok p
  | ref :: rest =>
      match p.updateSession ref clock with
      | .error e => .error e
      | .ok p => p.updateSessions clock rest

/-- `KcpProxy::onUpdateTunnelTimer`. -/
def onUpdateTunnelTimer (p : KcpProxy) (clock : IUINT32) : Except Abort KcpProxy :=
  p.updateSessions clock (p.sessionMap.toList.map Prod.snd)

/-- The last reference to a closed connection goes: its session is destroyed
    with it. -/
def onConnDestroyed (p : KcpProxy) (c : ConnId) : KcpProxy :=
  let out :=
    match p.lockSess c with
    | none => []
    | some sess => sess.destroy
  { p with conns := p.conns.erase c }.output out

end KcpProxy

/-! ## Events -/

/-- The events of the proxy's event loop.  `control` is a control message
    reaching `handleControlMessage` by whatever channel. -/
inductive Event where
  | connUp
  | connDown (c : ConnId)
  | connDestroyed (c : ConnId)
  | message (c : ConnId) (data : List Byte)
  | datagram (bytes : List Byte)
  | timer (clock : IUINT32)
  | control (msg : List Byte)
deriving DecidableEq, Repr

namespace KcpProxy

/-- `c` is between its up and its down callback. -/
def live (p : KcpProxy) (c : ConnId) : Bool :=
  match p.conns[c]? with
  | none => false
  | some conn => conn.state.live

/-- What muduo guarantees about the callbacks: data and the down callback only
    on a live connection, destruction only after the down callback. -/
def enabled (p : KcpProxy) : Event → Bool
  | .connDown c => p.live c
  | .connDestroyed c => p.conns[c]?.isSome && !p.live c
  | .message c data => p.live c && data ≠ []
  | _ => true

/-- `TcpServer::newConnection`: a fresh connection object. -/
def newConnection (p : KcpProxy) : KcpProxy :=
  { p with
    conns := p.conns.insert p.nextConnId { state := .kConnected, context := none }
    nextConnId := p.nextConnId + 1 }

/-- Run the handler of an event. -/
def handle (p : KcpProxy) (e : Event) (returns : FreedRead := fun _ => true) :
    Except Abort KcpProxy :=
  match e with
  -- muduo makes the connection object, then calls back
  | .connUp => p.newConnection.onConnection p.nextConnId true
  | .connDown c => (p.setConnState c (fun _ => .kDisconnected)).onConnection c false
  -- the context, and with it the session, dies with the object
  | .connDestroyed c => .ok (p.onConnDestroyed c)
  | .message c data => p.onMessage c data
  | .datagram bytes => p.onKcpTunnelMessage bytes returns
  | .timer clock => p.onUpdateTunnelTimer clock
  | .control msg => p.handleControlMessage msg returns

/-- The step function: an event muduo cannot deliver, or a handler that aborts,
    leads nowhere.  A read of freed memory returns here; where one does not, the
    run ends (`handle_freed`). -/
def step (p : KcpProxy) (e : Event) : Option KcpProxy :=
  if p.enabled e then (p.handle e).toOption else none

theorem step_eq_some {p p' : KcpProxy} {e : Event} :
    p.step e = some p' ↔ p.enabled e ∧ p.handle e = .ok p' := by
  unfold step
  split_ifs with h
  · cases hh : p.handle e <;> simp [h, Except.toOption]
  · simp [h]

/-! ## Reads of freed memory -/

theorem handleRsp_freed (p : KcpProxy) (id : IUINT32) (returns : FreedRead) :
    p.handleRsp id returns = p.handleRsp id ∨ p.handleRsp id returns = .error .freedRead := by
  unfold handleRsp
  dsimp only
  cases (p.noteRsp id).uninitedSessList with
  | nil => exact Or.inl rfl
  | cons ref rest =>
      dsimp only
      cases (p.noteRsp id).lockSess ref with
      | none => exact Or.inl rfl
      | some sess =>
          rcases sess.init_freed id returns with hsame | hdies
          · left
            simp only [hsame]
          · right
            simp only [hdies]

theorem handleControlMessage_freed (p : KcpProxy) (msg : List Byte) (returns : FreedRead) :
    p.handleControlMessage msg returns = p.handleControlMessage msg ∨
      p.handleControlMessage msg returns = .error .freedRead := by
  unfold handleControlMessage
  split_ifs
  · exact Or.inl rfl
  · exact p.handleRsp_freed _ _
  · exact Or.inl rfl
  · exact Or.inl rfl

theorem handleControlMessages_freed (p : KcpProxy) (msgs : List (List Byte))
    (returns : FreedRead) :
    p.handleControlMessages msgs returns = p.handleControlMessages msgs ∨
      p.handleControlMessages msgs returns = .error .freedRead := by
  induction msgs generalizing p with
  | nil => exact Or.inl rfl
  | cons msg rest ih =>
      unfold handleControlMessages
      rcases p.handleControlMessage_freed msg returns with hsame | hdies
      · rw [hsame]
        cases p.handleControlMessage msg with
        | error e => exact Or.inl rfl
        | ok p₁ => exact ih p₁
      · right
        rw [hdies]

theorem onKcpTunnelMessage_freed (p : KcpProxy) (datagram : List Byte) (returns : FreedRead) :
    p.onKcpTunnelMessage datagram returns = p.onKcpTunnelMessage datagram ∨
      p.onKcpTunnelMessage datagram returns = .error .freedRead := by
  unfold onKcpTunnelMessage onControlDatagram
  dsimp only
  split_ifs
  · cases p.controlSess.parseMsg (datagram.take 4096) with
    | error e => exact Or.inl rfl
    | ok r => exact handleControlMessages_freed _ _ _
  · exact Or.inl rfl

/-- **A read of freed memory can only end the run**: a handler does what it does
    when every such read returns, or dies of one. -/
theorem handle_freed (p : KcpProxy) (e : Event) (returns : FreedRead) :
    p.handle e returns = p.handle e ∨ p.handle e returns = .error .freedRead := by
  cases e with
  | datagram bytes => exact p.onKcpTunnelMessage_freed bytes returns
  | control msg => exact p.handleControlMessage_freed msg returns
  | connUp => exact Or.inl rfl
  | connDown c => exact Or.inl rfl
  | connDestroyed c => exact Or.inl rfl
  | message c data => exact Or.inl rfl
  | timer clock => exact Or.inl rfl

theorem handle_returns {p p' : KcpProxy} {e : Event} {returns : FreedRead}
    (h : p.handle e returns = .ok p') : p.handle e = .ok p' := by
  rcases p.handle_freed e returns with hsame | hdies
  · exact hsame ▸ h
  · cases hdies.symm.trans h

end KcpProxy
end Proxy
end UdpSpeed
