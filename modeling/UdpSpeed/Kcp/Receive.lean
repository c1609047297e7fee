/-
  UdpSpeed.Kcp.Receive

  The receive side of KCP above the wire: `ikcp_peeksize`, `ikcp_recv` and
  `ikcp_parse_data`, which files one PUSH segment in `rcv_buf` and moves the
  in-order run into `rcv_queue`.
-/

import UdpSpeed.Kcp.ControlBlock

namespace UdpSpeed
namespace Kcp

/-! ## Reading the queue -/

/-- The segments of the message at the head of the queue: up to and including
    the first with `frg == 0` (the loops of `ikcp_peeksize` and `ikcp_recv`). -/
def headMessage : List IKCPSEG → List IKCPSEG
  | [] => []
  | seg :: rest => if seg.frg = 0 then [seg] else seg :: headMessage rest

/-- What the two loops leave in the queue behind that message. -/
def afterMessage : List IKCPSEG → List IKCPSEG
  | [] => []
  | seg :: rest => if seg.frg = 0 then rest else afterMessage rest

/-- The bytes of a run of segments. -/
def segBytes (segs : List IKCPSEG) : List Byte := segs.flatMap (·.data)

/-- `ikcp_peeksize`: `-1` unless the first fragment's count says the whole
    message is in the queue. -/
def ikcpPeeksize (kcp : IKCPCB) : Int :=
  match kcp.rcvQueue with
  | [] => -1
  | seg :: _ =>
      -- a message of one fragment is there as soon as it is in the queue
      if seg.frg = 0 then seg.len
      else if kcp.nrcvQue < seg.frg.toNat + 1 then -1
      else (segBytes (headMessage kcp.rcvQueue)).length

/-- The loop "move available data from rcv_buf -> rcv_queue" shared by
    `ikcp_recv` and `ikcp_parse_data`; returns the rest of `rcv_buf`, the queue
    and `rcv_nxt`. -/
def moveAvailable (rcvWnd : IUINT32) :
    List IKCPSEG → List IKCPSEG → IUINT32 → List IKCPSEG × List IKCPSEG × IUINT32
  | [], queue, rcvNxt => ([], queue, rcvNxt)
  | seg :: rest, queue, rcvNxt =>
      if seg.sn = rcvNxt ∧ queue.length < rcvWnd.toNat then
        moveAvailable rcvWnd rest (queue ++ [seg]) (rcvNxt + 1)
      else (seg :: rest, queue, rcvNxt)

/-- Run `moveAvailable` on the object's own queues. -/
def IKCPCB.moveAvailable (kcp : IKCPCB) : IKCPCB :=
  let (buf, queue, nxt) := Kcp.moveAvailable kcp.cfg.rcvWnd kcp.rcvBuf kcp.rcvQueue kcp.rcvNxt
  { kcp with rcvBuf := buf, rcvQueue := queue, rcvNxt := nxt }

/-- `ikcp_recv`: the return code, the bytes copied out and the object
    afterwards.  A negative `len` peeks. -/
def ikcpRecv (kcp : IKCPCB) (len : Int) : Int × List Byte × IKCPCB :=
  let peeksize := ikcpPeeksize kcp
  if kcp.rcvQueue = [] then (-1, [], kcp)
  else if peeksize < 0 then (-2, [], kcp)
  else if (len.natAbs : Int) < peeksize then (-3, [], kcp)
  else
    -- the queue was full: the peer has to be told that there is room again
    let recover := decide (kcp.cfg.rcvWnd.toNat ≤ kcp.nrcvQue)
    let data := segBytes (headMessage kcp.rcvQueue)
    let kcp := if len < 0 then kcp else { kcp with rcvQueue := afterMessage kcp.rcvQueue }
    let kcp := kcp.moveAvailable
    let kcp :=
      if kcp.nrcvQue < kcp.cfg.rcvWnd.toNat ∧ recover then
        { kcp with probe := kcp.probe ||| ikcpAskTell }
      else kcp
    (data.length, data, kcp)

/-! ## Filing a segment -/

/-- The backward scan of `ikcp_parse_data` over `rcv_buf` (tail first): `none`
    is `repeat = 1`, otherwise the buffer with the segment linked in. -/
def insertBackward (newseg : IKCPSEG) : List IKCPSEG → Option (List IKCPSEG)
  | [] => some [newseg]
  | seg :: prev =>
      if seg.sn = newseg.sn then none
      -- signed difference: the scan works across the wrap of the counter
      else if 0 < itimediff newseg.sn seg.sn then some (newseg :: seg :: prev)
      else (insertBackward newseg prev).map (seg :: ·)

/-- `ikcp_parse_data`. -/
def ikcpParseData (kcp : IKCPCB) (newseg : IKCPSEG) : IKCPCB :=
  if 0 ≤ itimediff newseg.sn (kcp.rcvNxt + kcp.cfg.rcvWnd) ∨
      itimediff newseg.sn kcp.rcvNxt < 0 then kcp
  else
    let kcp :=
      match insertBackward newseg kcp.rcvBuf.reverse with
      | none => kcp
      | some buf => { kcp with rcvBuf := buf.reverse }
    -- even after a duplicate the buffer is looked through again
    kcp.moveAvailable

/-! ## Elementary facts -/

theorem headMessage_append_afterMessage (queue : List IKCPSEG) :
    headMessage queue ++ afterMessage queue = queue := by
  induction queue with
  | nil => rfl
  | cons seg rest ih =>
      simp only [headMessage, afterMessage]
      split_ifs with h
      · rfl
      · rw [List.cons_append, ih]

/-- A reported message is never larger or smaller than what `ikcp_recv`
    merges: the source's `assert(len == peeksize)`. -/
theorem ikcpPeeksize_eq_merged {kcp : IKCPCB} (h : 0 ≤ ikcpPeeksize kcp) :
    ikcpPeeksize kcp = (segBytes (headMessage kcp.rcvQueue)).length := by
  unfold ikcpPeeksize at h ⊢
  cases hq : kcp.rcvQueue with
  | nil => rw [hq] at h; simp at h
  | cons seg rest =>
      simp only [hq] at h ⊢
      -- one fragment, an incomplete message, and the general case
      split_ifs at h ⊢ with h1 h2
      · simp [headMessage, h1, segBytes, IKCPSEG.len]
      · omega
      · rfl

@[simp] theorem IKCPCB.moveAvailable_cfg (kcp : IKCPCB) : kcp.moveAvailable.cfg = kcp.cfg := rfl

@[simp] theorem ikcpParseData_cfg (kcp : IKCPCB) (newseg : IKCPSEG) :
    (ikcpParseData kcp newseg).cfg = kcp.cfg := by
  unfold ikcpParseData
  split_ifs
  · rfl
  · cases insertBackward newseg kcp.rcvBuf.reverse <;> rfl

@[simp] theorem ikcpRecv_cfg (kcp : IKCPCB) (len : Int) :
    (ikcpRecv kcp len).2.2.cfg = kcp.cfg := by
  unfold ikcpRecv
  dsimp only
  split_ifs <;> rfl

/-- Reading out the message `ikcp_peeksize` announced succeeds, returns exactly
    its bytes, and takes it from the queue. -/
theorem ikcpRecv_eq {kcp : IKCPCB} (h : 0 ≤ ikcpPeeksize kcp) :
    ∃ probe, ikcpRecv kcp (ikcpPeeksize kcp) =
      (ikcpPeeksize kcp, segBytes (headMessage kcp.rcvQueue),
        { { kcp with rcvQueue := afterMessage kcp.rcvQueue }.moveAvailable with
          probe := probe }) := by
  have hne : kcp.rcvQueue ≠ [] := by
    intro hq
    simp [ikcpPeeksize, hq] at h
  have hlen : ¬ ((ikcpPeeksize kcp).natAbs : Int) < ikcpPeeksize kcp := by omega
  -- none of the three error returns applies, and this is no peek
  unfold ikcpRecv
  simp only [hne, if_false, if_neg (not_lt.mpr h), if_neg hlen]
  rw [← ikcpPeeksize_eq_merged h]
  split_ifs
  · exact ⟨_, rfl⟩
  · exact ⟨_, rfl⟩

theorem ikcpRecv_peeksize {kcp : IKCPCB} (h : 0 ≤ ikcpPeeksize kcp) :
    (ikcpRecv kcp (ikcpPeeksize kcp)).1 = ikcpPeeksize kcp ∧
      (ikcpRecv kcp (ikcpPeeksize kcp)).2.1 = segBytes (headMessage kcp.rcvQueue) := by
  obtain ⟨probe, hrecv⟩ := ikcpRecv_eq h
  rw [hrecv]
  exact ⟨rfl, rfl⟩

end Kcp
end UdpSpeed
