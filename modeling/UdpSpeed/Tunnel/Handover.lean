/-
  UdpSpeed.Tunnel.Handover

  Whether a session hands on what it receives.  `recvFromTunnel` reads at most
  one message for each datagram, and none when `ikcp_input` rejects it; so a
  datagram that completes several messages leaves the others in the KCP queue.
  (The receiver in KcpTest/KcpSvr.cpp reads in a loop.)
-/

import UdpSpeed.Lib.EventSystem
import UdpSpeed.Kcp.Wire
import UdpSpeed.Kcp.Backlog
import UdpSpeed.Proxy.DataSession
import UdpSpeed.Server.ServerSession

namespace UdpSpeed

open Kcp Muduo

/-! ## The proxy's session -/

namespace Proxy
namespace KcpDataSession

/-- The calls the proxy makes on a session. -/
inductive Call where
  | init (id : IUINT32)
  | sendToTunnel (data : List Byte)
  | recvFromTunnel (input : List Byte)
  | update (clock : IUINT32)
deriving DecidableEq, Repr

/-- The session after a call; `none` is a call that does not return. -/
def step (s : KcpDataSession) : Call → Option KcpDataSession
  | .init id => (s.init id).toOption.map Prod.fst
  | .sendToTunnel data => some (s.sendToTunnel data).1
  | .recvFromTunnel input => (s.recvFromTunnel input).toOption.map (fun r => r.2.1)
  | .update clock => (s.update clock).toOption.map Prod.fst

/-- The peer sends no empty message: no PUSH segment is empty. -/
def peerFull (s : KcpDataSession) : Call → Bool
  | .recvFromTunnel input => s.kcp.all (fun kcp => fullSegments kcp.conv input)
  | _ => true

/-- After `recvFromTunnel` no complete message is left in the KCP object. -/
def HandsOn (s : KcpDataSession) : Call → Prop
  | .recvFromTunnel input => ∃ ret s' msg kcp, s.recvFromTunnel input = .ok (ret, s', msg) ∧
      s'.kcp = some kcp ∧ ikcpPeeksize kcp < 0
  | _ => True

/-- The datagram completes at most the message at the read position, and none if
    `ikcp_input` rejects it. -/
def OneAtATime (s : KcpDataSession) : Call → Prop
  | .recvFromTunnel input => ∀ kcp, s.kcp = some kcp → kcp.AtMostOne input
  | _ => True

/-- The KCP object, if there is one, has no empty segment. -/
def Full (s : KcpDataSession) : Prop := ∀ kcp, s.kcp = some kcp → FullInv kcp

theorem drain_sameRcv (kcp : IKCPCB) (payloads : List (List Byte)) :
    SameRcv kcp (drain kcp payloads).1 := by
  induction payloads generalizing kcp with
  | nil => exact .refl kcp
  | cons payload rest ih =>
      simp only [drain]
      split_ifs
      · exact sameRcv_ikcpSend kcp payload
      · exact (sameRcv_ikcpSend kcp payload).trans (ih _)

/-- What holds of a fresh KCP object and only depends on the receive side holds
    after every call if it does after `recvFromTunnel`. -/
theorem step_kcp {P : IKCPCB → Prop} (hfresh : ∀ id, P (freshKcp id))
    (hsame : ∀ {kcp kcp'}, P kcp → SameRcv kcp kcp' → P kcp') {s s' : KcpDataSession} {c : Call}
    (h : ∀ kcp, s.kcp = some kcp → P kcp)
    (hrecv : ∀ kcp input, s.kcp = some kcp → c = .recvFromTunnel input →
      P (receiveOnce kcp input))
    (hstep : s.step c = some s') : ∀ kcp', s'.kcp = some kcp' → P kcp' := by
  intro kcp' hkcp'
  cases c with
  | init id =>
      simp only [KcpDataSession.step] at hstep
      cases hinit : s.init id with
      | error e =>
          rw [hinit] at hstep
          cases hstep
      | ok r =>
          rw [hinit] at hstep
          obtain rfl := Option.some.inj hstep
          obtain ⟨hr, -⟩ := init_ok hinit
          rw [hr] at hkcp'
          obtain rfl := Option.some.inj hkcp'
          exact hsame (hfresh id) (drain_sameRcv _ _)
  | sendToTunnel data =>
      obtain rfl := Option.some.inj hstep
      unfold KcpDataSession.sendToTunnel at hkcp'
      cases hkcp : s.kcp with
      | none =>
          simp only [hkcp] at hkcp'
          cases hkcp'
      | some kcp =>
          simp only [hkcp, Option.some.injEq] at hkcp'
          rw [← hkcp']
          exact hsame (h kcp hkcp) (sameRcv_ikcpSend kcp data)
  | recvFromTunnel input =>
      cases hkcp : s.kcp with
      | none =>
          simp only [KcpDataSession.step, KcpDataSession.recvFromTunnel, hkcp] at hstep
          cases hstep
      | some kcp =>
          obtain ⟨ret, msg, hret⟩ := recvFromTunnel_kcp hkcp input
          simp only [KcpDataSession.step, hret] at hstep
          obtain rfl := Option.some.inj hstep
          obtain rfl := Option.some.inj hkcp'
          exact hrecv kcp input hkcp rfl
  | update clock =>
      cases hkcp : s.kcp with
      | none =>
          simp only [KcpDataSession.step, KcpDataSession.update, hkcp] at hstep
          cases hstep
      | some kcp =>
          simp only [KcpDataSession.step, KcpDataSession.update, hkcp] at hstep
          obtain rfl := Option.some.inj hstep
          obtain rfl := Option.some.inj hkcp'
          exact hsame (h kcp hkcp) (sameRcv_ikcpUpdate kcp clock)

theorem Full.step {s s' : KcpDataSession} {c : Call} (h : s.Full) (hpeer : s.peerFull c)
    (hstep : s.step c = some s') : s'.Full := by
  apply step_kcp fullInv_freshKcp FullInv.congr h _ hstep
  rintro kcp input hkcp rfl
  apply (h kcp hkcp).receiveOnce
  simpa [peerFull, hkcp] using hpeer

theorem Full.handsOn_iff {s s' : KcpDataSession} {c : Call} (h : s.Full) (hpeer : s.peerFull c)
    (hstep : s.step c = some s') : s.HandsOn c ↔ s.OneAtATime c := by
  cases c with
  | recvFromTunnel input =>
      cases hkcp : s.kcp with
      | none =>
          simp only [KcpDataSession.step, KcpDataSession.recvFromTunnel, hkcp] at hstep
          cases hstep
      | some kcp =>
          obtain ⟨ret, msg, hrecv⟩ := recvFromTunnel_kcp hkcp input
          have hfull : fullSegments kcp.conv input := by
            simpa [peerFull, hkcp] using hpeer
          have hiff := (h kcp hkcp).peeksize_receiveOnce_iff hfull
          constructor
          · rintro ⟨_, _, _, _, hret, hk, hneg⟩ k hk'
            rw [hrecv] at hret
            obtain ⟨-, rfl, -⟩ := hret
            obtain rfl := Option.some.inj hk
            obtain rfl := Option.some.inj (hkcp.symm.trans hk')
            exact hiff.mp hneg
          · intro hone
            exact ⟨_, _, _, _, hrecv, rfl, hiff.mpr (hone kcp hkcp)⟩
  | _ => exact Iff.rfl

end KcpDataSession
end Proxy

/-! ## The server's session -/

namespace Server
namespace KcpServerSession

/-- The calls made on a session of the server, by the server and by its client. -/
inductive Call where
  | connectSvr (cb : SessionConnectionLostCallback)
  | disconnectSvr
  | recvFromTunnel (packet : List Byte) (now : Int)
  | onConnected
  | onMessage (data : List Byte)
  | updateKcp (clock : IUINT32)
deriving DecidableEq, Repr

/-- The session after a call; `none` is a call that does not return. -/
def step (s : KcpServerSession) : Call → Option KcpServerSession
  | .connectSvr cb => some (s.connectSvr cb)
  | .disconnectSvr => some s.disconnectSvr
  | .recvFromTunnel packet now => some (s.recvFromTunnel packet now).1
  | .onConnected => some s.onConnected.1
  | .onMessage data => (s.onMessage data).toOption
  | .updateKcp clock => some (s.updateKcp clock).1

/-- The peer sends no empty message: no PUSH segment is empty. -/
def peerFull (s : KcpServerSession) : Call → Bool
  | .recvFromTunnel packet _ => fullSegments s.kcp.conv packet
  | _ => true

/-- After `recvFromTunnel` no complete message is left in the KCP object. -/
def HandsOn (s : KcpServerSession) : Call → Prop
  | .recvFromTunnel packet now => ikcpPeeksize (s.recvFromTunnel packet now).1.kcp < 0
  | _ => True

/-- The datagram completes at most the message at the read position, and none if
    `ikcp_input` rejects it. -/
def OneAtATime (s : KcpServerSession) : Call → Prop
  | .recvFromTunnel packet _ => s.kcp.AtMostOne packet
  | _ => True

/-- The same for the server's session, which has its KCP object from the start. -/
theorem step_kcp {P : IKCPCB → Prop} (hsame : ∀ {kcp kcp'}, P kcp → SameRcv kcp kcp' → P kcp')
    {s s' : KcpServerSession} {c : Call} (h : P s.kcp)
    (hrecv : ∀ packet now, c = .recvFromTunnel packet now → P (receiveOnce s.kcp packet))
    (hstep : s.step c = some s') : P s'.kcp := by
  cases c with
  | recvFromTunnel packet now =>
      obtain rfl := Option.some.inj hstep
      rw [recvFromTunnel_kcp]
      exact hrecv packet now rfl
  | onMessage data =>
      simp only [step, onMessage] at hstep
      split_ifs at hstep
      · cases hstep
      · obtain rfl := Option.some.inj hstep
        exact hsame h (sameRcv_ikcpSend s.kcp data)
  | updateKcp clock =>
      obtain rfl := Option.some.inj hstep
      exact hsame h (sameRcv_ikcpUpdate s.kcp clock)
  | _ =>
      obtain rfl := Option.some.inj hstep
      exact h

theorem fullInv_step {s s' : KcpServerSession} {c : Call} (h : FullInv s.kcp)
    (hpeer : s.peerFull c) (hstep : s.step c = some s') : FullInv s'.kcp := by
  apply step_kcp FullInv.congr h _ hstep
  rintro packet now rfl
  exact h.receiveOnce hpeer

theorem handsOn_iff {s : KcpServerSession} {c : Call} (h : FullInv s.kcp) (hpeer : s.peerFull c) :
    s.HandsOn c ↔ s.OneAtATime c := by
  cases c with
  | recvFromTunnel packet now =>
      change ikcpPeeksize (s.recvFromTunnel packet now).1.kcp < 0 ↔ _
      rw [recvFromTunnel_kcp]
      exact h.peeksize_receiveOnce_iff hpeer
  | _ => exact Iff.rfl

end KcpServerSession
end Server

/-! ## Both ends -/

namespace Tunnel

open Proxy Server

/-- **When every received message is handed on at once.**  Along any run of
    either session in which the peer sends no empty message, every
    `recvFromTunnel` leaves no complete message behind if and only if every
    datagram completes at most the next message, and none if it is rejected. -/
theorem handsOn_run_iff (conn : ConnId) (proxyCalls : List KcpDataSession.Call) (id : IUINT32)
    (remote : SockAddr) (now : Int) (serverCalls : List KcpServerSession.Call) :
    (EventSystem.EachStep (EventSystem.restrict KcpDataSession.step KcpDataSession.peerFull)
        KcpDataSession.HandsOn (.create conn) proxyCalls ↔
      EventSystem.EachStep (EventSystem.restrict KcpDataSession.step KcpDataSession.peerFull)
        KcpDataSession.OneAtATime (.create conn) proxyCalls) ∧
    (EventSystem.EachStep (EventSystem.restrict KcpServerSession.step KcpServerSession.peerFull)
        KcpServerSession.HandsOn (.create id remote now) serverCalls ↔
      EventSystem.EachStep (EventSystem.restrict KcpServerSession.step KcpServerSession.peerFull)
        KcpServerSession.OneAtATime (.create id remote now) serverCalls) := by
  constructor
  · refine EventSystem.eachStep_congr (I := KcpDataSession.Full) ?_ ?_ ?_ proxyCalls
    · intro s c s' h hstep
      obtain ⟨hpeer, hs⟩ := EventSystem.restrict_eq_some.mp hstep
      exact h.step hpeer hs
    · intro s c s' h hstep
      obtain ⟨hpeer, hs⟩ := EventSystem.restrict_eq_some.mp hstep
      exact h.handsOn_iff hpeer hs
    · intro kcp hkcp
      cases hkcp
  · refine EventSystem.eachStep_congr (I := fun s => FullInv s.kcp) ?_ ?_ ?_ serverCalls
    · intro s c s' h hstep
      obtain ⟨hpeer, hs⟩ := EventSystem.restrict_eq_some.mp hstep
      exact KcpServerSession.fullInv_step h hpeer hs
    · intro s c s' h hstep
      exact KcpServerSession.handsOn_iff h (EventSystem.restrict_eq_some.mp hstep).1
    · exact fullInv_freshKcp id

/-- Two messages of one byte each, as one flush sends them. -/
def twoMessages : List Byte :=
  wireAll [{ conv := 5, cmd := ikcpCmdPush, wnd := 128, sn := 0, data := [1] },
    { conv := 5, cmd := ikcpCmdPush, wnd := 128, sn := 1, data := [2] }]

/-- The proxy's session right after `init(5)`. -/
def freshSession : KcpDataSession where
  kcp := some (freshKcp 5)
  id := 5
  conn := 1
  payloadList := []

/-- The second message stays behind, at either end. -/
theorem twoMessages_left :
    ¬ EventSystem.EachStep (EventSystem.restrict KcpDataSession.step KcpDataSession.peerFull)
        KcpDataSession.HandsOn (.create 1) [.init 5, .recvFromTunnel twoMessages] ∧
    ¬ EventSystem.EachStep (EventSystem.restrict KcpServerSession.step KcpServerSession.peerFull)
        KcpServerSession.HandsOn (.create 5 ⟨0x7f000001, 40000⟩ 0)
        [.recvFromTunnel twoMessages 0] := by
  constructor
  · intro hall
    have hinit : (KcpDataSession.create 1).step (.init 5) = some freshSession := by
      decide +kernel
    have hrun : EventSystem.run (EventSystem.restrict KcpDataSession.step KcpDataSession.peerFull)
        (KcpDataSession.create 1) [.init 5] = some freshSession := by
      simp only [EventSystem.run, EventSystem.restrict, KcpDataSession.peerFull, if_true, hinit]
      rfl
    obtain ⟨ret, msg, hrecv⟩ := @KcpDataSession.recvFromTunnel_kcp freshSession _ rfl twoMessages
    have hstep : freshSession.step (.recvFromTunnel twoMessages) =
        some { freshSession with kcp := some (receiveOnce (freshKcp 5) twoMessages) } := by
      simp only [KcpDataSession.step, hrecv]
      rfl
    have hnext := EventSystem.restrict_eq_some.mpr
      ⟨(by decide +kernel : freshSession.peerFull (.recvFromTunnel twoMessages) = true), hstep⟩
    obtain ⟨_, _, _, kcp, hret, hkcp, hneg⟩ := hall 1 _ _ _ hrun rfl hnext
    rw [hrecv] at hret
    obtain ⟨-, rfl, -⟩ := hret
    obtain rfl := Option.some.inj hkcp
    exact absurd hneg (by decide +kernel)
  · intro hall
    have hneg : ikcpPeeksize ((KcpServerSession.create 5 ⟨0x7f000001, 40000⟩ 0).recvFromTunnel
        twoMessages 0).1.kcp < 0 := hall 0 _ _ _ rfl rfl (if_pos (by decide +kernel))
    exact absurd hneg (by decide +kernel)

end Tunnel
end UdpSpeed
