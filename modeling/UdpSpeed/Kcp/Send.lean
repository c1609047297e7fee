/-
  UdpSpeed.Kcp.Send

  `ikcp_send`: cutting a user message into fragments of at most `mss` bytes
  and appending them to the send queue.
-/

import UdpSpeed.Kcp.ControlBlock

namespace UdpSpeed
namespace Kcp

/-- The fragment loop of `ikcp_send` with `n` fragments still to make: each
    takes up to `mss` bytes and carries the number of fragments behind it. -/
def fragment (cfg : IKCPCFG) : Nat → List Byte → List IKCPSEG
  | 0, _ => []
  | n + 1, buffer =>
      { frg := if cfg.stream then 0 else BitVec.ofNat 8 n, data := buffer.take cfg.mss }
        :: fragment cfg n (buffer.drop cfg.mss)

/-- The streaming prologue of `ikcp_send`: top up the last queued segment.
    Returns the queue and the bytes that did not fit. -/
def extendLast (cfg : IKCPCFG) (sndQueue : List IKCPSEG) (buffer : List Byte) :
    List IKCPSEG × List Byte :=
  match sndQueue.getLast? with
  | none => (sndQueue, buffer)
  | some old =>
      -- streaming mode only: no session of either program turns it on
      if old.len < cfg.mss then
        let extend := min buffer.length (cfg.mss - old.len)
        (sndQueue.dropLast ++ [{ old with data := old.data ++ buffer.take extend, frg := 0 }],
          buffer.drop extend)
      else (sndQueue, buffer)

/-- Number of fragments `ikcp_send` cuts a message into. -/
def fragmentCount (cfg : IKCPCFG) (len : Nat) : Nat :=
  if len ≤ cfg.mss then 1 else (len + cfg.mss - 1) / cfg.mss

/-- `ikcp_send`: the return code and the object afterwards.  Allocation is
    taken to succeed; a message of `IKCP_WND_RCV` fragments or more is refused. -/
def ikcpSend (kcp : IKCPCB) (buffer : List Byte) : Int × IKCPCB :=
  let (queue, buffer) :=
    if kcp.cfg.stream then extendLast kcp.cfg kcp.sndQueue buffer else (kcp.sndQueue, buffer)
  if kcp.cfg.stream ∧ buffer = [] then (0, { kcp with sndQueue := queue })
  else
    let count := fragmentCount kcp.cfg buffer.length
    -- the 8-bit fragment number and the peer's window bound the message
    if ikcpWndRcv.toNat ≤ count then (-2, { kcp with sndQueue := queue })
    else (0, { kcp with sndQueue := queue ++ fragment kcp.cfg count buffer })

/-! ## What a send does to a session's object -/

/-- Outside streaming mode `ikcp_send` is the fragment loop behind the size
    check. -/
theorem ikcpSend_eq {kcp : IKCPCB} (hs : kcp.cfg.stream = false) (buffer : List Byte) :
    ikcpSend kcp buffer =
      if ikcpWndRcv.toNat ≤ fragmentCount kcp.cfg buffer.length then (-2, kcp)
      else (0, { kcp with
        sndQueue := kcp.sndQueue
          ++ fragment kcp.cfg (fragmentCount kcp.cfg buffer.length) buffer }) := by
  simp [ikcpSend, hs]

/-- A send leaves everything but the send queue alone. -/
theorem ikcpSend_frame (kcp : IKCPCB) (buffer : List Byte) :
    ∃ queue, (ikcpSend kcp buffer).2 = { kcp with sndQueue := queue } := by
  unfold ikcpSend
  dsimp only
  generalize (if kcp.cfg.stream then extendLast kcp.cfg kcp.sndQueue buffer
    else (kcp.sndQueue, buffer)) = prepared
  split_ifs
  · exact ⟨_, rfl⟩
  · exact ⟨_, rfl⟩
  · exact ⟨_, rfl⟩

@[simp] theorem ikcpSend_cfg (kcp : IKCPCB) (buffer : List Byte) :
    (ikcpSend kcp buffer).2.cfg = kcp.cfg := by
  obtain ⟨queue, h⟩ := ikcpSend_frame kcp buffer
  rw [h]

/-- One muduo read (at most 131071 bytes) is fewer than 128 fragments. -/
theorem fragmentCount_lt (conv : IUINT32) {len : Nat} (hlen : len ≤ 131071) :
    fragmentCount (tunnelCfg conv) len < ikcpWndRcv.toNat := by
  change (if len ≤ 1376 then 1 else (len + 1376 - 1) / 1376) < 128
  split_ifs <;> omega

/-- Every session's object accepts one muduo read. -/
theorem ikcpSend_accepts {kcp : IKCPCB} {conv : IUINT32} (hcfg : kcp.cfg = tunnelCfg conv)
    {buffer : List Byte} (hlen : buffer.length ≤ 131071) :
    (ikcpSend kcp buffer).1 = 0 := by
  have hs : kcp.cfg.stream = false := by rw [hcfg]; rfl
  have hcount := fragmentCount_lt conv hlen
  rw [← hcfg] at hcount
  rw [ikcpSend_eq hs, if_neg (by omega)]

end Kcp
end UdpSpeed
