/-
  UdpSpeed.Control.Datagram

  The control session against datagrams from anywhere.  `parseMsg` tests the
  peeked length for `0` only, and `ikcp_peeksize` says `-1` when no message is
  complete; so the call returns exactly if KCP rejects the datagram or the
  datagram leaves a complete message at the read position.
-/

import UdpSpeed.Kcp.Datagram
import UdpSpeed.Control.ControlSession

namespace UdpSpeed

open Kcp

namespace Control
namespace ControlSession

/-- The KCP object of the control session between two calls. -/
structure Ready (s : ControlSession) : Prop where
  conv : s.kcp.conv = 0
  rcv : RcvInv s.kcp

/-- KCP rejects the datagram, or with its PUSH segments the message at the read
    position is complete. -/
def Digests (s : ControlSession) (packet : List Byte) : Prop :=
  ∀ headers, datagramSegments 0 packet = some headers →
    Completes s.kcp.readPos (s.kcp.held ++ pushed headers)

theorem ready_create : create.Ready where
  conv := rfl
  rcv := rcvInv_freshKcp 0

/-- **When `parseMsg` returns.** -/
theorem Ready.parseMsg_returns_iff {s : ControlSession} (h : s.Ready) (packet : List Byte) :
    (∃ ret, s.parseMsg packet = .ok ret) ↔ s.Digests packet := by
  obtain ⟨hinv, hinput⟩ := ikcpInput_filed h.rcv packet
  rw [h.conv] at hinput
  rw [parseMsg_eq]
  dsimp only
  unfold Digests
  -- rejected: `parseMsg` returns `-1` before it peeks
  cases hseg : datagramSegments 0 packet with
  | none =>
      rw [hseg] at hinput
      have hneg : (ikcpInput s.kcp packet).1 < 0 := hinput
      rw [if_pos hneg]
      exact iff_of_true ⟨_, rfl⟩ (fun headers hh => by cases hh)
  | some headers =>
      rw [hseg] at hinput
      obtain ⟨hcode, hfiled⟩ := hinput
      rw [if_neg (by omega)]
      -- accepted: the peeked length is negative exactly if the message is incomplete
      have hpeek := ikcpPeeksize_nonneg_iff hinv
      rw [hfiled.completes_iff] at hpeek
      have hsame : (∀ hs, some headers = some hs →
          Completes s.kcp.readPos (s.kcp.held ++ pushed hs)) ↔
          0 ≤ ikcpPeeksize (ikcpInput s.kcp packet).2 := by
        rw [hpeek]
        exact ⟨fun hall => hall headers rfl, fun hc hs heq => Option.some.inj heq ▸ hc⟩
      rw [hsame]
      -- an empty message, no message, a message
      split_ifs with hzero hneg
      · exact iff_of_true ⟨_, rfl⟩ (by omega)
      · refine iff_of_false ?_ (by omega)
        rintro ⟨_, hok⟩
        cases hok
      · exact iff_of_true ⟨_, rfl⟩ (by omega)

/-- What the programs do with their control session in one event. -/
inductive Used (s : ControlSession) : ControlSession → Prop where
  | same : Used s s
  | sent (msg : List Byte) : Used s (s.sendMsg msg)
  | parsed {packet : List Byte} {ret : Int} {aryMsg : List (List Byte)} {s' : ControlSession}
      (hparse : s.parseMsg packet = .ok (ret, aryMsg, s')) : Used s s'

theorem Ready.sendMsg {s : ControlSession} (h : s.Ready) (msg : List Byte) :
    (s.sendMsg msg).Ready where
  conv := (congrArg IKCPCFG.conv (ikcpSend_cfg s.kcp msg)).trans h.conv
  rcv := h.rcv.congr (sameRcv_ikcpSend s.kcp msg)

theorem Ready.parseMsg {s s' : ControlSession} (h : s.Ready) {packet : List Byte} {ret : Int}
    {aryMsg : List (List Byte)} (hparse : s.parseMsg packet = .ok (ret, aryMsg, s')) :
    s'.Ready := by
  obtain ⟨hinv, -⟩ := ikcpInput_filed h.rcv packet
  have hconv : (ikcpInput s.kcp packet).2.conv = 0 :=
    (congrArg IKCPCFG.conv (ikcpInput_cfg s.kcp packet)).trans h.conv
  rw [parseMsg_eq] at hparse
  dsimp only at hparse
  split_ifs at hparse
  · obtain ⟨-, -, rfl⟩ := hparse
    exact ⟨hconv, hinv⟩
  · obtain ⟨-, -, rfl⟩ := hparse
    exact ⟨hconv, hinv⟩
  · obtain ⟨-, -, rfl⟩ := hparse
    exact ⟨(congrArg IKCPCFG.conv (ikcpRecv_cfg _ _)).trans hconv, hinv.ikcpRecv _⟩

theorem Used.ready {s s' : ControlSession} (hused : Used s s') (h : s.Ready) : s'.Ready := by
  cases hused with
  | same => exact h
  | sent msg => exact h.sendMsg msg
  | parsed hparse => exact h.parseMsg hparse

end ControlSession
end Control
end UdpSpeed
