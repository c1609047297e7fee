/-
  UdpSpeed.Server.ServerSession

  `KcpServerSession` (KcpServer/KcpServerSession.cpp): the server's end of one
  tunnelled connection, between the KCP object of its id and a `TcpClient` to
  the destination D.
-/

import UdpSpeed.Muduo.Tcp
import UdpSpeed.Control.Message
import UdpSpeed.Kcp.Send
import UdpSpeed.Kcp.Backlog

namespace UdpSpeed

open Kcp Muduo

namespace Server

/-- `sockaddr_in` of the tunnel peer. -/
structure SockAddr where
  addr : BitVec 32
  port : BitVec 16
deriving DecidableEq, Repr

/-- `SessionConnectionLostCallback`, by the one function the program binds. -/
inductive SessionConnectionLostCallback where
  | onSessionConnectionLost
deriving DecidableEq, Repr

/-- `class KcpServerSession`.  `conn` is the connection object its client made
    (which can outlive the client) and `checkPending` the 3-second timer of
    `connectSvr`; both have callbacks bound to the session. -/
structure KcpServerSession where
  kcp : IKCPCB
  client : Option TcpClient
  remoteAddr : SockAddr
  payloadList : List (List Byte)
  /-- microseconds since the epoch -/
  lastTunnelActiveTime : Int
  connLostCb : Option SessionConnectionLostCallback
  conn : Option StateE
  checkPending : Bool
deriving DecidableEq, Repr

namespace KcpServerSession

/-- The constructor. -/
def create (id : IUINT32) (remote : SockAddr) (now : Int) : KcpServerSession where
  kcp := freshKcp id
  client := some .idle
  remoteAddr := remote
  payloadList := []
  lastTunnelActiveTime := now
  connLostCb := none
  conn := none
  checkPending := false

/-- `kcp_->conv`. -/
def conv (s : KcpServerSession) : IUINT32 := s.kcp.conv

/-- `KcpServerSession::connectSvr`.  The body never mentions `cb`. -/
def connectSvr (s : KcpServerSession) (_cb : SessionConnectionLostCallback) : KcpServerSession :=
  { s with client := some .connecting, checkPending := true }

/-- `client_.reset()`: `~TcpClient` stops the connector, or force-closes the
    connection; the close callback runs later. -/
def resetClient (s : KcpServerSession) : KcpServerSession :=
  { s with
    client := none
    conn := if s.client.any TcpClient.hasConnection then s.conn.map StateE.forceClose
      else s.conn }

/-- `KcpServerSession::disconnectSvr`. -/
def disconnectSvr (s : KcpServerSession) : KcpServerSession := s.resetClient

/-- `KcpServerSession::extractTunnelPayload`: the session and `output`. -/
def extractTunnelPayload (s : KcpServerSession) (input : List Byte) :
    KcpServerSession × List Byte :=
  let input := ikcpInput s.kcp input
  let peekSize := ikcpPeeksize input.2
  let recv := ikcpRecv input.2 peekSize
  if input.1 < 0 then ({ s with kcp := input.2 }, [])
  else if peekSize ≤ 0 then ({ s with kcp := input.2 }, [])
  -- `output` has already been resized here
  else if recv.1 ≤ 0 then ({ s with kcp := recv.2.2 }, List.replicate peekSize.toNat 0)
  else ({ s with kcp := recv.2.2 }, recv.2.1)

/-- What `recvFromTunnel` does with a payload: the session and the bytes passed
    to `conn->send`. -/
def takePayload (s : KcpServerSession) (payload : List Byte) (now : Int) :
    KcpServerSession × List Byte :=
  let s := { s with lastTunnelActiveTime := now }
  match s.client with
  | none => (s, [])
  | some client =>
      -- connected: straight to D; connecting: kept for `onConnected`
      if client.hasConnection then (s, payload)
      else ({ s with payloadList := s.payloadList ++ [payload] }, [])

/-- `KcpServerSession::recvFromTunnel`: the session, the payloads read from KCP
    (at most one) and the bytes passed to `conn->send`. -/
def recvFromTunnel (s : KcpServerSession) (packet : List Byte) (now : Int) :
    KcpServerSession × List (List Byte) × List Byte :=
  let (s, payload) := s.extractTunnelPayload packet
  -- `payload.empty()`: rejected, incomplete, or an empty message
  if payload = [] then (s, [], [])
  else
    let (s, sent) := s.takePayload payload now
    (s, [payload], sent)

/-- The connected branch of `KcpServerSession::onConnection`: the session and
    the bytes passed to `conn->send`, the cached payloads in order. -/
def onConnected (s : KcpServerSession) : KcpServerSession × List Byte :=
  ({ s with client := some .connected, conn := some .kConnected, payloadList := [] },
    s.payloadList.flatten)

/-- `KcpServerSession::onMessage`: the session and the message KCP accepted. -/
def onMessage (s : KcpServerSession) (data : List Byte) : Except Abort KcpServerSession :=
  let send := ikcpSend s.kcp data
  if send.1 ≠ 0 then .error .assertSendRet
  else .ok { s with kcp := send.2 }

/-- `KcpServerSession::updateKcp`, with the datagrams it sends. -/
def updateKcp (s : KcpServerSession) (clock : IUINT32) : KcpServerSession × List (List Byte) :=
  let update := ikcpUpdate s.kcp clock
  ({ s with kcp := update.1 }, update.2)

/-- `KcpServerSession::isIdle`: no payload for more than an hour. -/
def isIdle (s : KcpServerSession) (now : Int) : Bool :=
  3600 * 1000000 < now - s.lastTunnelActiveTime

/-- The datagrams of the destructor's single `ikcp_flush`. -/
def destroy (s : KcpServerSession) : List (List Byte) := (ikcpFlush s.kcp).2

/-- The client is still connecting to D or connected to D. -/
def clientActive (s : KcpServerSession) : Bool := s.client.any TcpClient.active

/-! ## What holds of every session object -/

/-- The client and its connection go together: no connection before it is up,
    both while it is, and after a reset at most a connection being closed. -/
inductive Link : Option TcpClient → Option StateE → List (List Byte) → Prop where
  | idle (payloads : List (List Byte)) : Link (some .idle) none payloads
  | connecting (payloads : List (List Byte)) : Link (some .connecting) none payloads
  | connected : Link (some .connected) (some .kConnected) []
  | reset (payloads : List (List Byte)) : Link none none payloads
  | closing (payloads : List (List Byte)) : Link none (some .kDisconnecting) payloads

/-- A session object as the program makes and keeps it.  The callback is empty:
    no code ever stores one. -/
structure Sound (s : KcpServerSession) : Prop where
  cfg : s.kcp.cfg = tunnelCfg s.conv
  noCallback : s.connLostCb = none
  link : Link s.client s.conn s.payloadList

theorem sound_create (id : IUINT32) (remote : SockAddr) (now : Int)
    (cb : SessionConnectionLostCallback) : ((create id remote now).connectSvr cb).Sound where
  cfg := rfl
  noCallback := rfl
  link := .connecting []

/-- Only the KCP object changed, and not its configuration. -/
theorem Sound.withKcp {s : KcpServerSession} (h : s.Sound) {kcp : IKCPCB}
    (hcfg : kcp.cfg = s.kcp.cfg) : { s with kcp := kcp }.Sound where
  cfg := by
    change kcp.cfg = tunnelCfg kcp.cfg.conv
    rw [hcfg]
    exact h.cfg
  noCallback := h.noCallback
  link := h.link

theorem conv_withKcp {s : KcpServerSession} {kcp : IKCPCB} (hcfg : kcp.cfg = s.kcp.cfg) :
    { s with kcp := kcp }.conv = s.conv := by
  change kcp.cfg.conv = s.kcp.cfg.conv
  rw [hcfg]

theorem Sound.resetClient {s : KcpServerSession} (h : s.Sound) : s.resetClient.Sound where
  cfg := h.cfg
  noCallback := h.noCallback
  link := by
    have hlink := h.link
    cases hclient : s.client with
    | none =>
        rw [hclient] at hlink
        simpa [KcpServerSession.resetClient, hclient] using hlink
    | some client =>
        rw [hclient] at hlink
        -- a connection that was up is being closed, any other client had none
        generalize hconn : s.conn = conn at hlink
        generalize hlist : s.payloadList = payloads at hlink
        cases hlink <;>
          simp only [KcpServerSession.resetClient, hclient, hconn, hlist, Option.any_some,
            TcpClient.hasConnection] <;>
          constructor

/-- `takePayload` stamps the session and may queue the payload, no more. -/
theorem takePayload_frame (s : KcpServerSession) (payload : List Byte) (now : Int) :
    ∃ payloads, (s.takePayload payload now).1 =
      { s with lastTunnelActiveTime := now, payloadList := payloads } := by
  unfold takePayload
  dsimp only
  split
  · exact ⟨_, rfl⟩
  · split_ifs
    · exact ⟨_, rfl⟩
    · exact ⟨_, rfl⟩

theorem takePayload_conv (s : KcpServerSession) (payload : List Byte) (now : Int) :
    (s.takePayload payload now).1.conv = s.conv := by
  obtain ⟨payloads, htake⟩ := s.takePayload_frame payload now
  rw [htake]
  rfl

theorem Sound.takePayload {s : KcpServerSession} (h : s.Sound) (payload : List Byte) (now : Int) :
    (s.takePayload payload now).1.Sound := by
  have hlink := h.link
  unfold KcpServerSession.takePayload
  dsimp only
  split
  · exact ⟨h.cfg, h.noCallback, hlink⟩
  · next client hclient =>
      split_ifs with hc
      · exact ⟨h.cfg, h.noCallback, hlink⟩
      · refine ⟨h.cfg, h.noCallback, ?_⟩
        dsimp only
        generalize s.client = cl at hlink hclient
        generalize s.conn = conn at hlink
        generalize s.payloadList = payloads at hlink
        subst hclient
        -- only a client without a connection caches
        cases hlink with
        | idle => exact .idle _
        | connecting => exact .connecting _
        | connected => simp [TcpClient.hasConnection] at hc

/-- What `extractTunnelPayload` can do: give the KCP object the datagram, and
    return a message if one is complete. -/
theorem extractTunnelPayload_spec (s : KcpServerSession) (input : List Byte) :
    ∃ payload, s.extractTunnelPayload input =
      ({ s with kcp := receiveOnce s.kcp input }, payload) := by
  unfold extractTunnelPayload receiveOnce
  dsimp only
  -- rejected, nothing to read, or a message
  by_cases h1 : (ikcpInput s.kcp input).1 < 0
  · rw [if_pos h1, if_pos h1]
    exact ⟨_, rfl⟩
  rw [if_neg h1, if_neg h1]
  by_cases h2 : ikcpPeeksize (ikcpInput s.kcp input).2 ≤ 0
  · rw [if_pos h2, if_pos h2]
    exact ⟨_, rfl⟩
  rw [if_neg h2, if_neg h2]
  split_ifs
  · exact ⟨_, rfl⟩
  · exact ⟨_, rfl⟩

/-- The two ways `recvFromTunnel` can end. -/
theorem recvFromTunnel_spec (s : KcpServerSession) (packet : List Byte) (now : Int) :
    s.recvFromTunnel packet now = ({ s with kcp := receiveOnce s.kcp packet }, [], []) ∨
      ∃ payload, payload ≠ [] ∧ s.recvFromTunnel packet now =
        (({ s with kcp := receiveOnce s.kcp packet }.takePayload payload now).1, [payload],
          ({ s with kcp := receiveOnce s.kcp packet }.takePayload payload now).2) := by
  obtain ⟨payload, hext⟩ := s.extractTunnelPayload_spec packet
  simp only [recvFromTunnel, hext]
  by_cases hp : payload = []
  · rw [if_pos hp]
    exact Or.inl rfl
  · rw [if_neg hp]
    exact Or.inr ⟨payload, hp, rfl⟩

/-- What `recvFromTunnel` does to the KCP object. -/
theorem recvFromTunnel_kcp (s : KcpServerSession) (packet : List Byte) (now : Int) :
    (s.recvFromTunnel packet now).1.kcp = receiveOnce s.kcp packet := by
  rcases s.recvFromTunnel_spec packet now with hrecv | ⟨payload, -, hrecv⟩
  · rw [hrecv]
  · obtain ⟨payloads, htake⟩ :=
      { s with kcp := receiveOnce s.kcp packet }.takePayload_frame payload now
    rw [hrecv, htake]

end KcpServerSession
end Server
end UdpSpeed
