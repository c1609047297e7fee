/-
  UdpSpeed.Tunnel.Blocking

  Whether a message can block those behind it.  `ikcp_recv` and `ikcp_peeksize`
  are below zero when there is nothing to read, but the three receive routines
  take a peeked length of `0` for that as well.  An empty message at the head of
  the queue is then never read, and nothing behind it either.
-/

import UdpSpeed.Kcp.Head
import UdpSpeed.Control.Datagram
import UdpSpeed.Tunnel.Handover

namespace UdpSpeed

open Kcp

/-! ## The control session -/

namespace Control
namespace ControlSession

/-- The calls both programs make on their control session. -/
inductive Call where
  | sendMsg (cmd : List Byte)
  | parseMsg (packet : List Byte)
deriving DecidableEq, Repr

/-- The session after a call; `none` is a call that does not return. -/
def step (s : ControlSession) : Call → Option ControlSession
  | .sendMsg cmd => some (s.sendMsg cmd)
  | .parseMsg packet => (s.parseMsg packet).toOption.map (fun r => r.2.2)

theorem Ready.step {s s' : ControlSession} {c : Call} (h : s.Ready)
    (hstep : s.step c = some s') : s'.Ready := by
  cases c with
  | sendMsg cmd =>
      obtain rfl := Option.some.inj hstep
      exact h.sendMsg cmd
  | parseMsg packet =>
      obtain ⟨⟨ret, aryMsg, t⟩, hparse, rfl⟩ := Option.map_eq_some_iff.mp hstep
      cases hcall : s.parseMsg packet with
      | error e =>
          rw [hcall] at hparse
          cases hparse
      | ok r =>
          rw [hcall] at hparse
          obtain rfl := Option.some.inj hparse
          exact h.parseMsg hcall

end ControlSession
end Control

namespace Tunnel

/-! ## Receivers -/

/-- An object that receives: `packet` is the datagram a call hands to the receive
    routine.  Whenever the datagram is accepted and a message is announced then,
    the routine returns and has read at most that message. -/
structure Receiver (σ ε : Type) where
  step : σ → ε → Option σ
  kcp : σ → Option IKCPCB
  packet : ε → Option (List Byte)
  Inv : σ → Prop
  inv_step : ∀ {s e s'}, Inv s → step s e = some s' → Inv s'
  rcvInv : ∀ {s kcp'}, Inv s → kcp s = some kcp' → RcvInv kcp'
  receives : ∀ {s e kcp' data}, kcp s = some kcp' → packet e = some data →
    0 ≤ (ikcpInput kcp' data).1 → 0 ≤ ikcpPeeksize (ikcpInput kcp' data).2 →
    ∃ s', step s e = some s' ∧ kcp s' = some (receiveOnce kcp' data)

namespace Receiver

variable {σ ε : Type} (r : Receiver σ ε)

/-- If the call brings a datagram that is accepted, and the head of the queue is
    one of `heads`, the call returns and has removed the message at the head. -/
def TakesHeads (heads : IKCPCB → Prop) (s : σ) (e : ε) : Prop :=
  ∀ kcp data, r.kcp s = some kcp → r.packet e = some data → 0 ≤ (ikcpInput kcp data).1 →
    heads kcp → ∃ s' kcp', r.step s e = some s' ∧ r.kcp s' = some kcp' ∧ kcp.TakesHead kcp'

/-- Under the same conditions, the message at the head is not empty. -/
def FullHeads (heads : IKCPCB → Prop) (s : σ) (e : ε) : Prop :=
  ∀ kcp data, r.kcp s = some kcp → r.packet e = some data → 0 ≤ (ikcpInput kcp data).1 →
    heads kcp → ikcpPeeksize kcp ≠ 0

variable {r}

/-- The call on an announced message, in terms of its KCP object. -/
theorem receives_announced {s : σ} {e : ε} {kcp : IKCPCB} {data : List Byte}
    (hkcp : r.kcp s = some kcp) (hpacket : r.packet e = some data)
    (hok : 0 ≤ (ikcpInput kcp data).1) (hann : kcp.Announced) :
    ∃ s', r.step s e = some s' ∧ r.kcp s' = some (receiveOnce kcp data) := by
  apply r.receives hkcp hpacket hok
  exact hann.trans ((queueGrows_ikcpInput kcp data).ikcpPeeksize_le hann)

/-- A message that is announced and not empty is taken. -/
theorem TakesHeads.of_full {heads : IKCPCB → Prop} (hheads : ∀ kcp, heads kcp → kcp.Announced)
    {s : σ} {e : ε} (h : r.Inv s) (hfull : r.FullHeads heads s e) : r.TakesHeads heads s e := by
  intro kcp data hkcp hpacket hok hhead
  have hann := hheads kcp hhead
  have hne := hfull kcp data hkcp hpacket hok hhead
  have hpos : 0 < ikcpPeeksize kcp := lt_of_le_of_ne hann hne.symm
  obtain ⟨s', hstep, hkcp'⟩ := receives_announced hkcp hpacket hok hann
  exact ⟨s', _, hstep, hkcp', (r.rcvInv h hkcp).takesHead_receiveOnce hok hpos⟩

theorem takesHeads_iff {s : σ} {e : ε} (h : r.Inv s) :
    r.TakesHeads IKCPCB.Delimited s e ↔ r.FullHeads IKCPCB.Delimited s e := by
  constructor
  · intro htakes kcp data hkcp hpacket hok hdel hzero
    obtain ⟨s', kcp', hstep, hkcp', htake⟩ := htakes kcp data hkcp hpacket hok hdel
    -- there is one state after the call, and in it the empty message is still there
    obtain ⟨t, hstep', hkcp''⟩ := receives_announced hkcp hpacket hok hdel.1
    obtain rfl := Option.some.inj (hstep.symm.trans hstep')
    obtain rfl := Option.some.inj (hkcp'.symm.trans hkcp'')
    exact not_takesHead_receiveOnce hdel hzero data htake
  · intro hfull
    apply TakesHeads.of_full _ h hfull
    intro kcp hdel
    exact hdel.1

/-- **When nothing blocks, along a run.**  Without an empty message at the head
    every message that is announced is taken; and an empty one whose last fragment
    is there is never taken. -/
theorem unblocked_iff (r : Receiver σ ε) {s₀ : σ} (h₀ : r.Inv s₀) (es : List ε) :
    (EventSystem.EachEvent r.step (r.FullHeads IKCPCB.Announced) s₀ es →
      EventSystem.EachEvent r.step (r.TakesHeads IKCPCB.Announced) s₀ es) ∧
    (EventSystem.EachEvent r.step (r.TakesHeads IKCPCB.Delimited) s₀ es ↔
      EventSystem.EachEvent r.step (r.FullHeads IKCPCB.Delimited) s₀ es) := by
  have hinv : ∀ s e s', r.Inv s → r.step s e = some s' → r.Inv s' :=
    fun _ _ _ h hstep => r.inv_step h hstep
  constructor
  · intro hfull k s e hrun he
    apply TakesHeads.of_full (fun _ hann => hann) (EventSystem.run_invariant hinv h₀ hrun)
    exact hfull k s e hrun he
  · apply EventSystem.eachEvent_congr hinv _ h₀ es
    intro s e h
    exact takesHeads_iff h

/-- A run in which the call at `k` brings an accepted datagram while the message at
    the head is empty. -/
def meetsEmpty (r : Receiver σ ε) (s₀ : σ) (es : List ε) (k : Nat) : Bool :=
  (EventSystem.run r.step s₀ (es.take k)).any (fun s =>
    (r.kcp s).any (fun kcp => (es[k]?.bind r.packet).any (fun data =>
      0 ≤ (ikcpInput kcp data).1 ∧ kcp.Delimited ∧ ikcpPeeksize kcp = 0)))

/-- In such a run the message blocks those behind it. -/
theorem blocked_of_meetsEmpty {r : Receiver σ ε} {s₀ : σ} (h₀ : r.Inv s₀) {es : List ε} {k : Nat}
    (hmeets : r.meetsEmpty s₀ es k) :
    ¬ EventSystem.EachEvent r.step (r.TakesHeads IKCPCB.Delimited) s₀ es := by
  intro htakes
  have hfull := (r.unblocked_iff h₀ es).2.mp htakes
  obtain ⟨s, hrun, hs⟩ := (Option.any_eq_true _ _).mp hmeets
  obtain ⟨kcp, hkcp, hk⟩ := (Option.any_eq_true _ _).mp hs
  obtain ⟨data, hdata, hd⟩ := (Option.any_eq_true _ _).mp hk
  obtain ⟨hok, hdel, hzero⟩ := of_decide_eq_true hd
  obtain ⟨e, he, hpacket⟩ := Option.bind_eq_some_iff.mp hdata
  exact hfull k s e hrun he kcp data hkcp hpacket hok hdel hzero

end Receiver

/-! ## The three receive routines -/

open Proxy Server Control

/-- `KcpDataSession::recvFromTunnel`. -/
def dataReceiver : Receiver KcpDataSession KcpDataSession.Call where
  step := KcpDataSession.step
  kcp := fun s => s.kcp
  packet := fun c =>
    match c with
    | .recvFromTunnel input => some input
    | _ => none
  Inv := fun s => ∀ kcp, s.kcp = some kcp → RcvInv kcp
  inv_step := by
    intro s c s' h hstep
    apply KcpDataSession.step_kcp rcvInv_freshKcp RcvInv.congr h _ hstep
    intro kcp input hkcp _
    exact (h kcp hkcp).receiveOnce input
  rcvInv := fun h hkcp => h _ hkcp
  receives := by
    intro s c kcp data hkcp hpacket _ _
    cases c with
    | recvFromTunnel input =>
        obtain rfl := Option.some.inj hpacket
        obtain ⟨ret, msg, hrecv⟩ := KcpDataSession.recvFromTunnel_kcp hkcp input
        refine ⟨{ s with kcp := some (receiveOnce kcp input) }, ?_, rfl⟩
        simp only [KcpDataSession.step, hrecv]
        rfl
    | _ => cases hpacket

/-- `KcpServerSession::recvFromTunnel` and `extractTunnelPayload`. -/
def serverReceiver : Receiver KcpServerSession KcpServerSession.Call where
  step := KcpServerSession.step
  kcp := fun s => some s.kcp
  packet := fun c =>
    match c with
    | .recvFromTunnel packet _ => some packet
    | _ => none
  Inv := fun s => RcvInv s.kcp
  inv_step := by
    intro s c s' h hstep
    apply KcpServerSession.step_kcp RcvInv.congr h _ hstep
    intro packet now _
    exact h.receiveOnce packet
  rcvInv := by
    intro s kcp h hkcp
    obtain rfl := Option.some.inj hkcp
    exact h
  receives := by
    intro s c kcp data hkcp hpacket _ _
    obtain rfl := Option.some.inj hkcp
    cases c with
    | recvFromTunnel packet now =>
        obtain rfl := Option.some.inj hpacket
        exact ⟨_, rfl, congrArg some (s.recvFromTunnel_kcp packet now)⟩
    | _ => cases hpacket

/-- `ControlSession::parseMsg`. -/
def controlReceiver : Receiver ControlSession ControlSession.Call where
  step := ControlSession.step
  kcp := fun s => some s.kcp
  packet := fun c =>
    match c with
    | .parseMsg packet => some packet
    | _ => none
  Inv := ControlSession.Ready
  inv_step := ControlSession.Ready.step
  rcvInv := by
    intro s kcp h hkcp
    obtain rfl := Option.some.inj hkcp
    exact h.rcv
  receives := by
    intro s c kcp data hkcp hpacket hok hsome
    obtain rfl := Option.some.inj hkcp
    cases c with
    | parseMsg packet =>
        obtain rfl := Option.some.inj hpacket
        obtain ⟨ret, aryMsg, s', hparse, hkcp'⟩ := s.parseMsg_kcp hok hsome
        refine ⟨s', ?_, congrArg some hkcp'⟩
        simp only [ControlSession.step, hparse]
        rfl
    | _ => cases hpacket

/-- **No message blocks those behind it, except an empty one.**  Along any run of
    a session of the proxy, a session of the server or a control session: if no
    accepted datagram finds an empty message at the head of the queue, each takes
    the message it finds there; and for messages whose last fragment is in the
    queue this is exact. -/
theorem unblocked_run_iff (conn : ConnId) (dataCalls : List KcpDataSession.Call) (id : IUINT32)
    (remote : SockAddr) (now : Int) (serverCalls : List KcpServerSession.Call)
    (controlCalls : List ControlSession.Call) :
    ((EventSystem.EachEvent dataReceiver.step (dataReceiver.FullHeads IKCPCB.Announced)
          (.create conn) dataCalls →
        EventSystem.EachEvent dataReceiver.step (dataReceiver.TakesHeads IKCPCB.Announced)
          (.create conn) dataCalls) ∧
      (EventSystem.EachEvent dataReceiver.step (dataReceiver.TakesHeads IKCPCB.Delimited)
          (.create conn) dataCalls ↔
        EventSystem.EachEvent dataReceiver.step (dataReceiver.FullHeads IKCPCB.Delimited)
          (.create conn) dataCalls)) ∧
    ((EventSystem.EachEvent serverReceiver.step (serverReceiver.FullHeads IKCPCB.Announced)
          (.create id remote now) serverCalls →
        EventSystem.EachEvent serverReceiver.step (serverReceiver.TakesHeads IKCPCB.Announced)
          (.create id remote now) serverCalls) ∧
      (EventSystem.EachEvent serverReceiver.step (serverReceiver.TakesHeads IKCPCB.Delimited)
          (.create id remote now) serverCalls ↔
        EventSystem.EachEvent serverReceiver.step (serverReceiver.FullHeads IKCPCB.Delimited)
          (.create id remote now) serverCalls)) ∧
    ((EventSystem.EachEvent controlReceiver.step (controlReceiver.FullHeads IKCPCB.Announced)
          .create controlCalls →
        EventSystem.EachEvent controlReceiver.step (controlReceiver.TakesHeads IKCPCB.Announced)
          .create controlCalls) ∧
      (EventSystem.EachEvent controlReceiver.step (controlReceiver.TakesHeads IKCPCB.Delimited)
          .create controlCalls ↔
        EventSystem.EachEvent controlReceiver.step (controlReceiver.FullHeads IKCPCB.Delimited)
          .create controlCalls)) := by
  refine ⟨?_, ?_, ?_⟩
  · apply dataReceiver.unblocked_iff
    -- a new session has no KCP object yet
    intro kcp hkcp
    cases hkcp
  · apply serverReceiver.unblocked_iff
    exact rcvInv_freshKcp id
  · exact controlReceiver.unblocked_iff ControlSession.ready_create controlCalls

/-- A datagram with one PUSH segment, which is a message of its own. -/
def oneMessage (conv sn : IUINT32) (data : List Byte) : List Byte :=
  wireAll [{ conv := conv, cmd := ikcpCmdPush, wnd := 128, sn := sn, data := data }]

/-- An empty message first, then one of a byte: neither is ever read. -/
theorem emptyMessage_blocks :
    ¬ EventSystem.EachEvent dataReceiver.step (dataReceiver.TakesHeads IKCPCB.Delimited)
        (.create 1) [.init 5, .recvFromTunnel (oneMessage 5 0 []),
          .recvFromTunnel (oneMessage 5 1 [1])] ∧
    ¬ EventSystem.EachEvent serverReceiver.step (serverReceiver.TakesHeads IKCPCB.Delimited)
        (.create 5 ⟨0x7f000001, 40000⟩ 0) [.recvFromTunnel (oneMessage 5 0 []) 0,
          .recvFromTunnel (oneMessage 5 1 [1]) 0] ∧
    ¬ EventSystem.EachEvent controlReceiver.step (controlReceiver.TakesHeads IKCPCB.Delimited)
        .create [.parseMsg (oneMessage 0 0 []), .parseMsg (oneMessage 0 1 [1])] := by
  refine ⟨?_, ?_, ?_⟩
  · have hmeets : dataReceiver.meetsEmpty (.create 1) [.init 5,
        .recvFromTunnel (oneMessage 5 0 []), .recvFromTunnel (oneMessage 5 1 [1])] 2 := by
      decide +kernel
    apply Receiver.blocked_of_meetsEmpty _ hmeets
    intro kcp hkcp
    cases hkcp
  · have hmeets : serverReceiver.meetsEmpty (.create 5 ⟨0x7f000001, 40000⟩ 0)
        [.recvFromTunnel (oneMessage 5 0 []) 0, .recvFromTunnel (oneMessage 5 1 [1]) 0] 1 := by
      decide +kernel
    apply Receiver.blocked_of_meetsEmpty _ hmeets
    exact rcvInv_freshKcp 5
  · have hmeets : controlReceiver.meetsEmpty .create
        [.parseMsg (oneMessage 0 0 []), .parseMsg (oneMessage 0 1 [1])] 1 := by
      decide +kernel
    exact Receiver.blocked_of_meetsEmpty ControlSession.ready_create hmeets

end Tunnel
end UdpSpeed
