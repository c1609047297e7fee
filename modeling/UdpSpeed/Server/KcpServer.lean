/-
  UdpSpeed.Server.KcpServer

  `KcpServer` (KcpServer/KcpServer.cpp) as an event-driven process: the
  handlers, the events that call them and the step function.

  Session objects are shared: by `sessionMap_`, by the callbacks of their
  client and connection, and by the pending 3-second timer.  They live in
  `sessions`, and a reference is a key of it.
-/

import UdpSpeed.Lib.EventSystem
import UdpSpeed.Server.ServerSession
import UdpSpeed.Control.ControlSession

namespace UdpSpeed

open Kcp Control Muduo Std

namespace Server

/-! ## State -/

/-- Identity of a `KcpServerSession` object. -/
abbrev SessRef := Nat

/-- What the server has done so far; no handler reads it. -/
structure Hist where
  /-- messages given to `controlSess_.sendMsg` -/
  ctlSent : List (List Byte) := []
  /-- ids issued, in order -/
  issued : List IUINT32 := []
  /-- messages accepted by `ikcp_send`, per conv -/
  accepted : IUINT32 → List (List Byte) := fun _ => []
  /-- messages returned by `ikcp_recv`, per conv -/
  received : IUINT32 → List (List Byte) := fun _ => []
  /-- bytes passed to `send` on the D connection, per conv -/
  sentToD : IUINT32 → List Byte := fun _ => []
  /-- bytes read from the D connection, per conv -/
  readFromD : IUINT32 → List Byte := fun _ => []
  /-- datagrams passed to `sendto` -/
  datagrams : List (SockAddr × List Byte) := []

/-- `class KcpServer`, with the session objects. -/
structure KcpServer where
  controlSess : ControlSession
  sessionMap : TreeMap IUINT32 SessRef
  id : IUINT32
  sessions : TreeMap SessRef KcpServerSession
  nextRef : SessRef
  hist : Hist

namespace KcpServer

/-- The process after its constructor and `run`; `id` is the clock's value. -/
def create (id : IUINT32) : KcpServer where
  controlSess := .create
  sessionMap := ∅
  id := id
  sessions := ∅
  nextRef := 1
  hist := {}

/-- Write a session object back. -/
def setSess (s : KcpServer) (ref : SessRef) (sess : KcpServerSession) : KcpServer :=
  { s with sessions := s.sessions.insert ref sess }

/-- Datagrams passed to `KcpServerSession::output`. -/
def output (s : KcpServer) (peer : SockAddr) (out : List (List Byte)) : KcpServer :=
  { s with hist := { s.hist with datagrams := s.hist.datagrams ++ out.map (peer, ·) } }

/-- `controlSess_.sendMsg`. -/
def sendMsg (s : KcpServer) (msg : List Byte) : KcpServer :=
  { s with
    controlSess := s.controlSess.sendMsg msg
    hist := { s.hist with ctlSent := s.hist.ctlSent ++ [msg] } }

/-! ## Handlers -/

/-- `id_++`, once more if that gave `0`: the id and the counter afterwards. -/
def newId (counter : IUINT32) : IUINT32 × IUINT32 :=
  if counter = 0 then (counter + 1, counter + 2) else (counter, counter + 1)

/-- The `CMD_CREATE_SESSION` branch of `KcpServer::handleControlMessage`. -/
def handleCreate (s : KcpServer) (remote : SockAddr) (now : Int) : KcpServer :=
  let (id, counter) := newId s.id
  -- the callback passed here is the one `connectSvr` forgets
  let sess := (KcpServerSession.create id remote now).connectSvr .onSessionConnectionLost
  let s :=
    { s with
      id := counter
      sessions := s.sessions.insert s.nextRef sess
      nextRef := s.nextRef + 1
      sessionMap := s.sessionMap.insert id s.nextRef
      hist := { s.hist with issued := s.hist.issued ++ [id] } }
  s.sendMsg (rspMsg id)

/-- The `CMD_DESTROY_SESSION` branch of `KcpServer::handleControlMessage`: the
    entry stays in the map. -/
def handleDestroy (s : KcpServer) (id : IUINT32) : KcpServer :=
  match s.sessionMap[id]? with
  | none => s
  | some ref => { s with sessions := s.sessions.modify ref KcpServerSession.disconnectSvr }

/-- `KcpServer::handleControlMessage`. -/
def handleControlMessage (s : KcpServer) (controlMsg : List Byte) (remote : SockAddr)
    (now : Int) : Except Abort KcpServer :=
  if controlMsg = [] then .error .assertNonempty
  else if readCmd controlMsg = cmdCreateSession then .ok (s.handleCreate remote now)
  else if readCmd controlMsg = cmdDestroySession then .ok (s.handleDestroy (readId controlMsg))
  else .error .assertUnknownCmd

/-- The loop `for (auto msg : aryMsg)`. -/
def handleControlMessages (s : KcpServer) (remote : SockAddr) (now : Int) :
    List (List Byte) → Except Abort KcpServer
  | [] => .ok s
  | msg :: rest =>
      match s.handleControlMessage msg remote now with
      | .error e => .error e
      | .ok s => s.handleControlMessages remote now rest

/-- The server after `recvFromTunnel` on the session `sess` at `ref`. -/
def tunnelRecv (s : KcpServer) (ref : SessRef) (sess : KcpServerSession) (packet : List Byte)
    (now : Int) : KcpServer :=
  let r := sess.recvFromTunnel packet now
  { s.setSess ref r.1 with
    hist := { s.hist with
      received := Function.update s.hist.received sess.conv
        (s.hist.received sess.conv ++ r.2.1)
      sentToD := Function.update s.hist.sentToD sess.conv
        (s.hist.sentToD sess.conv ++ r.2.2) } }

/-- `KcpServer::dispatchKcpPacket`. -/
def dispatchKcpPacket (s : KcpServer) (packet : List Byte) (remote : SockAddr) (now : Int) :
    Except Abort KcpServer :=
  -- too short for a header, but also a header with that very number
  if ikcpGetsn packet = -1 then .ok s
  else if ikcpGetconv packet = 0 then
    match s.controlSess.parseMsg packet with
    | .error e => .error e
    | .ok (_, aryMsg, controlSess) =>
        { s with controlSess := controlSess }.handleControlMessages remote now aryMsg
  else
    match s.sessionMap[ikcpGetconv packet]? with
    | none => .ok s
    | some ref =>
        match s.sessions[ref]? with
        | none => .ok s
        -- a first datagram for a live session is only logged
        | some sess => .ok (s.tunnelRecv ref sess packet now)

/-- `KcpServer::onUdpTunnelReadable` on a datagram; `recvfrom` keeps its first
    4096 bytes. -/
def onUdpTunnelReadable (s : KcpServer) (datagram : List Byte) (remote : SockAddr) (now : Int) :
    Except Abort KcpServer :=
  s.dispatchKcpPacket (datagram.take 4096) remote now

/-- `KcpServer::onSessionConnectionLost`. -/
def onSessionConnectionLost (s : KcpServer) (sessId : IUINT32) : KcpServer :=
  { s with sessionMap := s.sessionMap.erase sessId }

/-- `connLostCb_(kcp_->conv)`: calling an empty `std::function` throws. -/
def callConnLost (s : KcpServer) (sess : KcpServerSession) : Except Abort KcpServer :=
  match sess.connLostCb with
  | none => .error .badFunctionCall
  | some .onSessionConnectionLost => .ok (s.onSessionConnectionLost sess.conv)

/-- `KcpServerSession::onConnection` when the connection is up. -/
def onConnectionUp (s : KcpServer) (ref : SessRef) (sess : KcpServerSession) : KcpServer :=
  { s.setSess ref sess.onConnected.1 with
    hist := { s.hist with
      sentToD := Function.update s.hist.sentToD sess.conv
        (s.hist.sentToD sess.conv ++ sess.onConnected.2) } }

/-- `TcpConnection::handleClose`: the connection callback
    (`KcpServerSession::onConnection`), then the close callback, which clears
    the client's `connection_`. -/
def onConnectionDown (s : KcpServer) (ref : SessRef) (sess : KcpServerSession) :
    Except Abort KcpServer :=
  let sess := { sess with conn := some .kDisconnected }
  match (s.setSess ref sess).callConnLost sess with
  | .error e => .error e
  | .ok s => .ok (s.setSess ref { sess with client := sess.client.map (fun _ => .idle) })

/-- `KcpServerSession::onCheckConnection`. -/
def onCheckConnection (s : KcpServer) (ref : SessRef) (sess : KcpServerSession) :
    Except Abort KcpServer :=
  let sess := { sess with checkPending := false }
  match sess.client with
  | none => .ok (s.setSess ref sess)
  | some client =>
      if client.hasConnection then .ok (s.setSess ref sess)
      -- "give up": the client goes before the callback is called
      else (s.setSess ref sess.resetClient).callConnLost sess.resetClient

/-- `KcpServerSession::onMessage` at the session `ref`. -/
def onMessage (s : KcpServer) (ref : SessRef) (sess : KcpServerSession) (data : List Byte) :
    Except Abort KcpServer :=
  match sess.onMessage data with
  | .error e => .error e
  | .ok sess' =>
      .ok { s.setSess ref sess' with
        hist := { s.hist with
          readFromD := Function.update s.hist.readFromD sess.conv
            (s.hist.readFromD sess.conv ++ data)
          accepted := Function.update s.hist.accepted sess.conv
            (s.hist.accepted sess.conv ++ [data]) } }

/-- The loop of `KcpServer::onUpdateKcpTimer` over the references left. -/
def updateSessions (s : KcpServer) (clock : IUINT32) : List SessRef → KcpServer
  | [] => s
  | ref :: rest =>
      match s.sessions[ref]? with
      | none => s.updateSessions clock rest
      | some sess =>
          ((s.setSess ref (sess.updateKcp clock).1).output sess.remoteAddr
            (sess.updateKcp clock).2).updateSessions clock rest

/-- `KcpServer::onUpdateKcpTimer`. -/
def onUpdateKcpTimer (s : KcpServer) (clock : IUINT32) : KcpServer :=
  s.updateSessions clock (s.sessionMap.toList.map Prod.snd)

/-- The session at `ref` is idle. -/
def idleRef (s : KcpServer) (now : Int) (ref : SessRef) : Bool :=
  s.sessions[ref]?.any (fun sess => sess.isIdle now)

/-- `KcpServer::onCheckDeadSessionTimer`.  The call that would release the
    client is commented out in the source. -/
def onCheckDeadSessionTimer (s : KcpServer) (now : Int) : KcpServer :=
  { s with sessionMap := s.sessionMap.filter (fun _ ref => !s.idleRef now ref) }

/-- The last reference to a session goes. -/
def onReleased (s : KcpServer) (ref : SessRef) (sess : KcpServerSession) : KcpServer :=
  { s with sessions := s.sessions.erase ref }.output sess.remoteAddr sess.destroy

end KcpServer

/-! ## Events -/

/-- The events of the server's event loop.  `control` is a control message
    reaching `handleControlMessage` by whatever channel. -/
inductive Event where
  | datagram (bytes : List Byte) (remote : SockAddr) (now : Int)
  | control (msg : List Byte) (remote : SockAddr) (now : Int)
  | connected (ref : SessRef)
  | connectFailed (ref : SessRef)
  | closed (ref : SessRef)
  | message (ref : SessRef) (data : List Byte)
  | checkConnection (ref : SessRef)
  | updateTimer (clock : IUINT32)
  | deadSessionTimer (now : Int)
  | released (ref : SessRef)
deriving DecidableEq, Repr

namespace KcpServer

/-- Nothing refers to the session any more. -/
def unreferenced (s : KcpServer) (ref : SessRef) (sess : KcpServerSession) : Bool :=
  !(s.sessionMap.toList.any (fun entry => entry.2 = ref)) && sess.client.isNone &&
    !(sess.conn.any StateE.live) && !sess.checkPending

/-- What muduo guarantees about the callbacks: the up callback once, from a
    client that is connecting; data and the down callback on a live connection;
    the 3-second timer once. -/
def enabled (s : KcpServer) : Event → Bool
  | .connected ref => s.sessions[ref]?.any (fun sess => sess.client = some .connecting)
  | .connectFailed ref => s.sessions[ref]?.any (fun sess => sess.client = some .connecting)
  | .closed ref => s.sessions[ref]?.any (fun sess => sess.conn.any StateE.live)
  | .message ref data => s.sessions[ref]?.any (fun sess => sess.conn.any StateE.live) && data ≠ []
  | .checkConnection ref => s.sessions[ref]?.any (fun sess => sess.checkPending)
  | .released ref => s.sessions[ref]?.any (fun sess => s.unreferenced ref sess)
  | _ => true

/-- Run a handler on the session object at `ref`. -/
def onSession (s : KcpServer) (ref : SessRef)
    (f : KcpServerSession → Except Abort KcpServer) : Except Abort KcpServer :=
  match s.sessions[ref]? with
  | none => .ok s
  | some sess => f sess

/-- Run the handler of an event. -/
def handle (s : KcpServer) : Event → Except Abort KcpServer
  | .datagram bytes remote now => s.onUdpTunnelReadable bytes remote now
  | .control msg remote now => s.handleControlMessage msg remote now
  | .connected ref => s.onSession ref (fun sess => .ok (s.onConnectionUp ref sess))
  | .connectFailed ref =>
      s.onSession ref (fun sess => .ok (s.setSess ref { sess with client := some .idle }))
  -- a bound callback keeps the session alive, so these find it even after it left the map
  | .closed ref => s.onSession ref (s.onConnectionDown ref)
  | .message ref data => s.onSession ref (fun sess => s.onMessage ref sess data)
  | .checkConnection ref => s.onSession ref (s.onCheckConnection ref)
  | .updateTimer clock => .ok (s.onUpdateKcpTimer clock)
  | .deadSessionTimer now => .ok (s.onCheckDeadSessionTimer now)
  | .released ref => s.onSession ref (fun sess => .ok (s.onReleased ref sess))

/-- The step function: an event muduo cannot deliver, or a handler that aborts,
    leads nowhere. -/
def step (s : KcpServer) (e : Event) : Option KcpServer :=
  if s.enabled e then (s.handle e).toOption else none

theorem step_eq_some {s s' : KcpServer} {e : Event} :
    s.step e = some s' ↔ s.enabled e ∧ s.handle e = .ok s' := by
  unfold step
  split_ifs with h
  · cases hh : s.handle e <;> simp [h, Except.toOption]
  · simp [h]

end KcpServer
end Server
end UdpSpeed
