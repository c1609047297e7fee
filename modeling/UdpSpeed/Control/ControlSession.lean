/-
  UdpSpeed.Control.ControlSession

  `ControlSession` (kcp/ControlSession.cpp): the conv-0 KCP object both
  programs use for signalling, with the framer `parseMsg` behind it.
-/

import UdpSpeed.Control.Message
import UdpSpeed.Kcp.Send
import UdpSpeed.Kcp.Backlog

namespace UdpSpeed

open Kcp

namespace Control

/-- `class ControlSession`. -/
structure ControlSession where
  kcp : IKCPCB
  recvBuffer : List Byte
deriving DecidableEq, Repr

namespace ControlSession

/-- The constructor. -/
def create : ControlSession where
  kcp := freshKcp 0
  recvBuffer := []

/-- `ControlSession::sendMsg`: a refusal by `ikcp_send` is only logged. -/
def sendMsg (s : ControlSession) (cmd : List Byte) : ControlSession :=
  { s with kcp := (ikcpSend s.kcp cmd).2 }

end ControlSession

/-- The framing loop of `parseMsg`, guarded as the source guards it
    (`while (recvBuffer_.empty())`); `recvBuffer_[0]` of an empty string is its
    terminator.  Returns `aryMsg` and `recvBuffer_`.  A turn that comes back
    has erased bytes, so `fuel = recvBuffer.length + 1` is enough. -/
def parseLoop : Nat → List Byte → List (List Byte) → Except Abort (List (List Byte) × List Byte)
  | 0, recvBuffer, aryMsg => .ok (aryMsg, recvBuffer)
  | fuel + 1, recvBuffer, aryMsg =>
      if recvBuffer = [] then
        -- only reached with an empty buffer: the guard is the wrong way round
        let cmdLength := getMsgLength (byteAt recvBuffer 0)
        if cmdLength = 0 then .error .assertCmdLength
        else if recvBuffer.length < cmdLength then .ok (aryMsg, recvBuffer)
        else parseLoop fuel (recvBuffer.drop cmdLength) (aryMsg ++ [recvBuffer.take cmdLength])
      else .ok (aryMsg, recvBuffer)

/-- `ControlSession::parseMsg`: the return code, `aryMsg` and the session
    afterwards.  Both callers pass an empty `aryMsg`. -/
def ControlSession.parseMsg (s : ControlSession) (packet : List Byte) :
    Except Abort (Int × List (List Byte) × ControlSession) :=
  let input := ikcpInput s.kcp packet
  let len := ikcpPeeksize input.2
  let recv := ikcpRecv input.2 len
  let buffer := s.recvBuffer ++ recv.2.1
  -- a rejected datagram may have been processed in part: the object has changed
  if input.1 < 0 then .ok (-1, [], { s with kcp := input.2 })
  else if len = 0 then .ok (0, [], { s with kcp := input.2 })
  -- payload.resize((size_t)len): a negative length becomes one beyond max_size
  else if len < 0 then .error .lengthError
  else if recv.1 < 0 then .error .assertRet
  else
    match parseLoop (buffer.length + 1) buffer [] with
    | .error e => .error e
    | .ok (aryMsg, rest) => .ok (1, aryMsg, { kcp := recv.2.2, recvBuffer := rest })

/-! ## What one call does -/

/-- With bytes in the buffer the loop guard is false at once. -/
theorem parseLoop_of_ne_nil (fuel : Nat) {recvBuffer : List Byte} (h : recvBuffer ≠ [])
    (aryMsg : List (List Byte)) :
    parseLoop fuel recvBuffer aryMsg = .ok (aryMsg, recvBuffer) := by
  cases fuel with
  | zero => rfl
  | succ fuel => rw [parseLoop, if_neg h]

/-- Every way a call of `parseMsg` can end. -/
theorem parseMsg_eq (s : ControlSession) (packet : List Byte) :
    s.parseMsg packet =
      let input := ikcpInput s.kcp packet
      let len := ikcpPeeksize input.2
      if input.1 < 0 then .ok (-1, [], { s with kcp := input.2 })
      else if len = 0 then .ok (0, [], { s with kcp := input.2 })
      else if len < 0 then .error .lengthError
      else .ok (1, [],
        { kcp := (ikcpRecv input.2 len).2.2
          recvBuffer := s.recvBuffer ++ segBytes (headMessage input.2.rcvQueue) }) := by
  dsimp only [ControlSession.parseMsg]
  by_cases h1 : (ikcpInput s.kcp packet).1 < 0
  · rw [if_pos h1, if_pos h1]
  rw [if_neg h1, if_neg h1]
  by_cases h2 : ikcpPeeksize (ikcpInput s.kcp packet).2 = 0
  · rw [if_pos h2, if_pos h2]
  rw [if_neg h2, if_neg h2]
  by_cases h3 : ikcpPeeksize (ikcpInput s.kcp packet).2 < 0
  · rw [if_pos h3, if_pos h3]
  rw [if_neg h3, if_neg h3]
  -- a message is there: `ikcp_recv` returns its bytes, and they are not empty
  have hpos : 0 < ikcpPeeksize (ikcpInput s.kcp packet).2 := by omega
  obtain ⟨hret, hdata⟩ := ikcpRecv_peeksize hpos.le
  have hlen := ikcpPeeksize_eq_merged hpos.le
  have hne : s.recvBuffer ++ segBytes (headMessage (ikcpInput s.kcp packet).2.rcvQueue) ≠ [] := by
    intro hnil
    rw [(List.append_eq_nil_iff.mp hnil).2] at hlen
    simp only [List.length_nil, Nat.cast_zero] at hlen
    exact h2 hlen
  rw [if_neg (by rw [hret]; exact h3), hdata, parseLoop_of_ne_nil _ hne]

/-- When the datagram is accepted and a message is announced then, the call returns
    and does with the KCP object what `recvFromTunnel` does. -/
theorem ControlSession.parseMsg_kcp (s : ControlSession) {packet : List Byte}
    (hok : 0 ≤ (ikcpInput s.kcp packet).1) (hsome : 0 ≤ ikcpPeeksize (ikcpInput s.kcp packet).2) :
    ∃ ret aryMsg s', s.parseMsg packet = .ok (ret, aryMsg, s') ∧
      s'.kcp = receiveOnce s.kcp packet := by
  rw [parseMsg_eq]
  unfold receiveOnce
  dsimp only
  rw [if_neg (not_lt.mpr hok), if_neg (not_lt.mpr hok)]
  -- an empty message is not read
  by_cases hzero : ikcpPeeksize (ikcpInput s.kcp packet).2 = 0
  · rw [if_pos hzero, if_pos hzero.le]
    exact ⟨_, _, _, rfl, rfl⟩
  · rw [if_neg hzero, if_neg (not_lt.mpr hsome), if_neg (by omega)]
    exact ⟨_, _, _, rfl, rfl⟩

/-- A call that returns has output nothing. -/
theorem ControlSession.parseMsg_cases (s : ControlSession) (packet : List Byte) :
    (∃ ret ctl, s.parseMsg packet = .ok (ret, [], ctl)) ∨ ∃ e, s.parseMsg packet = .error e := by
  rw [parseMsg_eq]
  dsimp only
  split_ifs
  · exact Or.inl ⟨_, _, rfl⟩
  · exact Or.inl ⟨_, _, rfl⟩
  · exact Or.inr ⟨_, rfl⟩
  · exact Or.inl ⟨_, _, rfl⟩

end Control
end UdpSpeed
