/-
  UdpSpeed.Kcp.Backlog

  Messages left behind.  Both ends give a datagram to `ikcp_input` and then
  read at most one message.  The table of received segments says when a second
  complete message is waiting behind the one that was read.
-/

import UdpSpeed.Kcp.Datagram
import UdpSpeed.Kcp.Flush

namespace UdpSpeed
namespace Kcp

open SerialNumber

/-! ## The end of a message -/

/-- The number behind the message at `pos`: its fragments end with the first one
    numbered `0`. -/
def messageEnd (segs : List (IUINT32 × Byte)) : Nat → IUINT32 → IUINT32
  | 0, pos => pos
  | fuel + 1, pos =>
      if segs.lookup pos = none then pos
      else if segs.lookup pos = some 0 then pos + 1
      else messageEnd segs fuel (pos + 1)

theorem SameTable.messageEnd {segs segs' : List (IUINT32 × Byte)} (h : SameTable segs segs')
    (fuel : Nat) (pos : IUINT32) :
    Kcp.messageEnd segs' fuel pos = Kcp.messageEnd segs fuel pos := by
  induction fuel generalizing pos with
  | zero => rfl
  | succ fuel ih => rw [Kcp.messageEnd, Kcp.messageEnd, h pos, ih]

/-- A run of segments with consecutive numbers from `pos` on. -/
def Consecutive (pos : IUINT32) (queue : List IKCPSEG) : Prop :=
  ∀ i seg, queue[i]? = some seg → seg.sn = pos + BitVec.ofNat 32 i

theorem Consecutive.head {pos : IUINT32} {seg : IKCPSEG} {rest : List IKCPSEG}
    (h : Consecutive pos (seg :: rest)) : seg.sn = pos := by
  have hzero := h 0 seg rfl
  rwa [BitVec.add_zero] at hzero

theorem Consecutive.tail {pos : IUINT32} {seg : IKCPSEG} {rest : List IKCPSEG}
    (h : Consecutive pos (seg :: rest)) : Consecutive (pos + 1) rest := by
  intro i x hx
  rw [← add_ofNat_succ]
  exact h (i + 1) x hx

theorem add_ofNat_ne {pos : IUINT32} {i : Nat} (hpos : 0 < i) (hlt : i < 2 ^ 32) :
    pos + BitVec.ofNat 32 i ≠ pos := by
  intro heq
  have hoff := offset_add pos hlt
  rw [heq, offset_eq_zero_iff.mpr rfl] at hoff
  omega

/-- The entries of a run, whatever comes behind it. -/
theorem Consecutive.lookup {pos : IUINT32} {queue : List IKCPSEG} (h : Consecutive pos queue)
    (hlen : queue.length ≤ 128) (rest : List (IUINT32 × Byte)) {i : Nat} {seg : IKCPSEG}
    (hi : queue[i]? = some seg) :
    (queue.map IKCPSEG.key ++ rest).lookup (pos + BitVec.ofNat 32 i) = some seg.frg := by
  induction queue generalizing pos i with
  | nil => cases hi
  | cons first queue ih =>
      have hsn := h.head
      cases i with
      | zero =>
          obtain rfl := Option.some.inj hi
          rw [BitVec.add_zero, ← hsn]
          simp [IKCPSEG.key]
      | succ i =>
          have hin := (List.getElem?_eq_some_iff.mp hi).1
          rw [List.length_cons] at hlen hin
          have hne : (pos + BitVec.ofNat 32 (i + 1) == first.sn) = false := by
            rw [beq_eq_false_iff_ne, hsn]
            exact add_ofNat_ne (Nat.succ_pos i) (by omega)
          have hrest := ih h.tail (by omega) hi
          rw [List.map_cons, List.cons_append, List.lookup_cons, IKCPSEG.key]
          dsimp only
          rw [hne, add_ofNat_succ]
          exact hrest

/-- The walk of `messageEnd` is the loop of `ikcp_recv`. -/
theorem messageEnd_eq {segs : List (IUINT32 × Byte)} {queue : List IKCPSEG} {fuel : Nat}
    {pos : IUINT32}
    (hall : ∀ i seg, queue[i]? = some seg →
      segs.lookup (pos + BitVec.ofNat 32 i) = some seg.frg)
    (hle : queue.length ≤ fuel)
    (hend : queue.length < fuel → segs.lookup (pos + BitVec.ofNat 32 queue.length) = none) :
    messageEnd segs fuel pos = pos + BitVec.ofNat 32 (headMessage queue).length := by
  induction queue generalizing fuel pos with
  | nil =>
      rw [headMessage, List.length_nil, BitVec.add_zero]
      cases fuel with
      | zero => rfl
      | succ fuel =>
          have hnone := hend (Nat.succ_pos fuel)
          rw [List.length_nil, BitVec.add_zero] at hnone
          rw [messageEnd, if_pos hnone]
  | cons seg rest ih =>
      rw [List.length_cons] at hle hend
      cases fuel with
      | zero => omega
      | succ fuel =>
          have hhead := hall 0 seg rfl
          rw [BitVec.add_zero] at hhead
          rw [messageEnd, headMessage, hhead, if_neg (by simp)]
          by_cases hlast : seg.frg = 0
          · rw [if_pos (by rw [hlast]), if_pos hlast]
            rfl
          · rw [if_neg (fun heq => hlast (Option.some.inj heq)), if_neg hlast,
              List.length_cons, add_ofNat_succ]
            refine ih ?_ (by omega) ?_
            · intro i x hx
              rw [← add_ofNat_succ]
              exact hall (i + 1) x hx
            · intro hlt
              rw [← add_ofNat_succ]
              exact hend (by omega)

theorem RcvInv.consecutive {kcp : IKCPCB} (h : RcvInv kcp) :
    Consecutive kcp.readPos kcp.rcvQueue := h.shape.queue

/-- The message `ikcp_recv` would read ends where the table says. -/
theorem RcvInv.messageEnd_held {kcp : IKCPCB} (h : RcvInv kcp) :
    messageEnd kcp.held 128 kcp.readPos =
      kcp.readPos + BitVec.ofNat 32 (headMessage kcp.rcvQueue).length := by
  refine messageEnd_eq ?_ h.shape.room h.lookup_next
  intro i seg hi
  rw [IKCPCB.held, List.map_append]
  exact h.consecutive.lookup h.shape.room _ hi

/-! ## Reading one message -/

/-- **What `ikcp_recv` does** when `ikcp_peeksize` has announced a message: it
    takes that message from the front and refills the queue. -/
theorem RcvInv.ikcpRecv_spec {kcp : IKCPCB} (h : RcvInv kcp) (hsome : 0 ≤ ikcpPeeksize kcp) :
    RcvInv (Kcp.ikcpRecv kcp (ikcpPeeksize kcp)).2.2 ∧
      (Kcp.ikcpRecv kcp (ikcpPeeksize kcp)).2.2.rcvQueue ++
          (Kcp.ikcpRecv kcp (ikcpPeeksize kcp)).2.2.rcvBuf =
        afterMessage kcp.rcvQueue ++ kcp.rcvBuf ∧
      (Kcp.ikcpRecv kcp (ikcpPeeksize kcp)).2.2.readPos =
        kcp.readPos + BitVec.ofNat 32 (headMessage kcp.rcvQueue).length := by
  obtain ⟨probe, hrecv⟩ := ikcpRecv_eq hsome
  have hsplit := headMessage_append_afterMessage kcp.rcvQueue
  have hshape : Shape kcp.rcvBuf (afterMessage kcp.rcvQueue) kcp.rcvNxt := by
    have hwhole := h.shape
    rw [← hsplit] at hwhole
    exact hwhole.drop
  obtain ⟨hinv, happ, hpos⟩ :=
    @rcvInv_moveAvailable { kcp with rcvQueue := afterMessage kcp.rcvQueue } h.wnd hshape
  rw [hrecv]
  refine ⟨hinv.congr ⟨rfl, rfl, rfl, rfl⟩, happ, ?_⟩
  refine hpos.trans ?_
  -- `rcv_nxt` stays, the queue in front of it is shorter by the message
  have hlen : kcp.rcvQueue.length =
      (headMessage kcp.rcvQueue).length + (afterMessage kcp.rcvQueue).length := by
    rw [← List.length_append, hsplit]
  rw [IKCPCB.readPos, IKCPCB.readPos, hlen, BitVec.ofNat_add]
  dsimp only
  abel

/-- Behind the message that is read, the table stays what it was. -/
theorem RcvInv.completes_ikcpRecv_iff {kcp : IKCPCB} (h : RcvInv kcp)
    (hsome : 0 ≤ ikcpPeeksize kcp) :
    Completes (Kcp.ikcpRecv kcp (ikcpPeeksize kcp)).2.2.readPos
        (Kcp.ikcpRecv kcp (ikcpPeeksize kcp)).2.2.held ↔
      Completes (messageEnd kcp.held 128 kcp.readPos) kcp.held := by
  obtain ⟨-, happ, hpos⟩ := h.ikcpRecv_spec hsome
  have hsplit := headMessage_append_afterMessage kcp.rcvQueue
  have hlen : (headMessage kcp.rcvQueue).length ≤ 128 := by
    have hroom := h.shape.room
    rw [← hsplit, List.length_append] at hroom
    omega
  have hheld : kcp.held = (headMessage kcp.rcvQueue).map IKCPSEG.key ++
      (afterMessage kcp.rcvQueue ++ kcp.rcvBuf).map IKCPSEG.key := by
    rw [← List.map_append, ← List.append_assoc, hsplit]
    rfl
  rw [h.messageEnd_held, hpos]
  refine completes_congr ?_
  intro i hi
  rw [IKCPCB.held, happ, hheld, List.lookup_append]
  -- the message read has smaller numbers
  have hnone : ((headMessage kcp.rcvQueue).map IKCPSEG.key).lookup
      (kcp.readPos + BitVec.ofNat 32 (headMessage kcp.rcvQueue).length + BitVec.ofNat 32 i) =
        none := by
    refine lookup_eq_none_of_forall_ne ?_
    intro seg hin heq
    obtain ⟨j, hj, rfl⟩ := List.getElem_of_mem hin
    have hat : kcp.rcvQueue[j]? = some (headMessage kcp.rcvQueue)[j] := by
      conv_lhs => rw [← hsplit]
      rw [List.getElem?_append_left hj, List.getElem?_eq_getElem hj]
    have hoff := congrArg (offset kcp.readPos) (heq.symm.trans (h.consecutive j _ hat))
    rw [add_assoc, ← BitVec.ofNat_add, offset_add _ (by omega), offset_add _ (by omega)] at hoff
    omega
  rw [hnone, Option.none_or]

/-! ## Segments with data -/

/-- The receive side, with no empty segment in it. -/
structure FullInv (kcp : IKCPCB) : Prop where
  rcv : RcvInv kcp
  full : ∀ seg ∈ kcp.rcvQueue ++ kcp.rcvBuf, seg.data ≠ []

/-- Every PUSH segment that is processed carries data. -/
def fullSegments (conv : IUINT32) (data : List Byte) : Bool :=
  (datagramWalk conv data).1.all (fun h => h.cmd ≠ ikcpCmdPush || h.len ≠ 0)

theorem FullInv.congr {kcp kcp' : IKCPCB} (h : FullInv kcp) (hsame : SameRcv kcp kcp') :
    FullInv kcp' := by
  refine ⟨h.rcv.congr hsame, ?_⟩
  obtain ⟨-, hqueue, hbuf, -⟩ := hsame
  rw [hqueue, hbuf]
  exact h.full

theorem fullInv_freshKcp (conv : IUINT32) : FullInv (freshKcp conv) where
  rcv := rcvInv_freshKcp conv
  full := by
    intro seg hin
    cases hin

theorem FullInv.ikcpParseData {kcp : IKCPCB} (h : FullInv kcp) {newseg : IKCPSEG}
    (hdata : newseg.data ≠ []) : FullInv (Kcp.ikcpParseData kcp newseg) := by
  obtain ⟨hinv, -, hcases⟩ := ikcpParseData_spec h.rcv newseg
  refine ⟨hinv, ?_⟩
  rcases hcases with ⟨-, before, after, hold, hnew⟩ | ⟨-, hsame⟩
  · intro seg hin
    have hfull := h.full
    rw [hold] at hfull
    rw [hnew, List.mem_append, List.mem_cons] at hin
    rcases hin with hb | rfl | ha
    · exact hfull seg (List.mem_append_left _ hb)
    · exact hdata
    · exact hfull seg (List.mem_append_right _ ha)
  · rw [hsame]
    exact h.full

theorem FullInv.inputSegment {kcp : IKCPCB} (hinv : FullInv kcp) (maxack : Option IUINT32)
    {h : SegHeader} {payload : List Byte} (hdata : h.cmd = ikcpCmdPush → payload ≠ []) :
    FullInv (Kcp.inputSegment kcp maxack h payload).1 := by
  unfold Kcp.inputSegment
  dsimp only
  generalize hk : ikcpShrinkBuf
    (ikcpParseUna { kcp with rmtWnd := h.wnd.setWidth 32 } h.una) = kcp₁
  have hfull : FullInv kcp₁ := by
    refine hinv.congr ?_
    rw [← hk]
    exact SameRcv.trans ⟨rfl, rfl, rfl, rfl⟩ (sameRcv_ikcpShrinkBuf _)
  split_ifs with hack hpush hwask
  · exact hfull.congr (sameRcv_inputAck kcp₁ h)
  · unfold inputPush
    dsimp only
    have hpushed : FullInv (ikcpAckPush kcp₁ h.sn h.ts) := hfull.congr ⟨rfl, rfl, rfl, rfl⟩
    split_ifs
    · exact hpushed.ikcpParseData (hdata hpush)
    · exact hpushed
    · exact hfull
  · exact hfull.congr ⟨rfl, rfl, rfl, rfl⟩
  · exact hfull

/-- By induction along the segment loop. -/
theorem FullInv.inputLoop (fuel : Nat) {kcp : IKCPCB} (hinv : FullInv kcp)
    (maxack : Option IUINT32) {data : List Byte}
    (hfull : ∀ h ∈ (walkSegments kcp.conv fuel data).1, h.cmd = ikcpCmdPush → h.len ≠ 0) :
    FullInv (Kcp.inputLoop fuel kcp maxack data).2.1 := by
  induction fuel generalizing kcp maxack data with
  | zero => exact hinv
  | succ fuel ih =>
      unfold Kcp.inputLoop
      unfold walkSegments at hfull
      by_cases hshort : data.length < ikcpOverhead
      · rw [if_pos hshort]
        exact hinv
      rw [if_neg hshort] at hfull ⊢
      dsimp only at hfull ⊢
      generalize decodeHeader data = h at hfull ⊢
      generalize data.drop ikcpOverhead = body at hfull ⊢
      split_ifs with hconv hlen hcmd
      · exact hinv
      · exact hinv
      · exact hinv
      rw [if_pos ⟨not_ne_iff.mp hconv, by omega, by omega, by simpa using hcmd⟩] at hfull
      have hseg : FullInv (Kcp.inputSegment kcp maxack h (body.take h.len.toNat)).1 := by
        refine hinv.inputSegment maxack ?_
        intro hpush hnil
        -- the length is at least one, and that many bytes are there
        have hpos : h.len.toNat ≠ 0 := by
          intro hzero
          exact hfull h (List.mem_cons_self ..) hpush (BitVec.eq_of_toNat_eq hzero)
        have hcount := congrArg List.length hnil
        rw [List.length_take, List.length_nil] at hcount
        omega
      refine ih hseg _ ?_
      rw [IKCPCB.conv, inputSegment_cfg]
      intro x hx
      exact hfull x (List.mem_cons_of_mem _ hx)

theorem FullInv.ikcpInput {kcp : IKCPCB} (hinv : FullInv kcp) {data : List Byte}
    (hfull : fullSegments kcp.conv data) : FullInv (Kcp.ikcpInput kcp data).2 := by
  have hall : ∀ h ∈ (datagramWalk kcp.conv data).1, h.cmd = ikcpCmdPush → h.len ≠ 0 := by
    intro h hin hpush
    have hone := List.all_eq_true.mp hfull h hin
    simpa [hpush] using hone
  unfold Kcp.ikcpInput
  unfold datagramWalk at hall
  by_cases hshort : data.length < ikcpOverhead
  · rw [if_pos hshort]
    exact hinv
  rw [if_neg hshort] at hall ⊢
  have hloop := FullInv.inputLoop data.length hinv none hall
  dsimp only
  split_ifs
  · exact hloop
  · exact hloop.congr ((sameRcv_parseMaxack _ _).trans (sameRcv_growCwnd _ kcp.sndUna))

theorem FullInv.ikcpRecv {kcp : IKCPCB} (h : FullInv kcp) (hsome : 0 ≤ ikcpPeeksize kcp) :
    FullInv (Kcp.ikcpRecv kcp (ikcpPeeksize kcp)).2.2 := by
  obtain ⟨hinv, happ, -⟩ := h.rcv.ikcpRecv_spec hsome
  refine ⟨hinv, ?_⟩
  rw [happ]
  intro seg hin
  apply h.full
  rw [← headMessage_append_afterMessage kcp.rcvQueue, List.append_assoc]
  exact List.mem_append_right _ hin

/-- Without empty segments there is no empty message. -/
theorem FullInv.ikcpPeeksize_pos {kcp : IKCPCB} (h : FullInv kcp) (hsome : 0 ≤ ikcpPeeksize kcp) :
    0 < ikcpPeeksize kcp := by
  rw [ikcpPeeksize_eq_merged hsome]
  cases hq : kcp.rcvQueue with
  | nil =>
      rw [ikcpPeeksize, hq] at hsome
      exact absurd hsome (show ¬ (0 : Int) ≤ -1 by decide)
  | cons seg rest =>
      have hne : seg.data ≠ [] := h.full seg (by rw [hq]; exact List.mem_cons_self ..)
      have hpos := List.length_pos_iff.mpr hne
      unfold headMessage
      split_ifs <;> simp only [segBytes, List.flatMap_cons, List.length_append] <;> omega

/-! ## A flush leaves the receive side alone -/

theorem sameRcv_probeWindow (kcp : IKCPCB) : SameRcv kcp (probeWindow kcp) := by
  unfold probeWindow
  dsimp only
  split_ifs <;> exact ⟨rfl, rfl, rfl, rfl⟩

theorem sameRcv_updateSsthresh (kcp : IKCPCB) (st : FlushState) (cwnd : IUINT32) :
    SameRcv kcp (updateSsthresh kcp st cwnd) := by
  unfold updateSsthresh
  dsimp only
  split_ifs <;> exact ⟨rfl, rfl, rfl, rfl⟩

theorem sameRcv_ikcpFlush (kcp : IKCPCB) : SameRcv kcp (ikcpFlush kcp).1 := by
  unfold ikcpFlush
  split
  · exact .refl kcp
  · dsimp only
    refine SameRcv.trans ?_ (sameRcv_updateSsthresh _ _ _)
    exact (sameRcv_probeWindow kcp).trans ⟨rfl, rfl, rfl, rfl⟩

theorem sameRcv_ikcpUpdate (kcp : IKCPCB) (current : IUINT32) :
    SameRcv kcp (ikcpUpdate kcp current).1 := by
  rw [ikcpUpdate_eq]
  split_ifs
  · exact ⟨rfl, rfl, rfl, rfl⟩
  · exact SameRcv.trans ⟨rfl, rfl, rfl, rfl⟩ (sameRcv_ikcpFlush _)

/-! ## One read for each datagram -/

/-- What both `recvFromTunnel` functions do with the KCP object: input, and one
    read unless the datagram was rejected or there is nothing to read. -/
def receiveOnce (kcp : IKCPCB) (data : List Byte) : IKCPCB :=
  let input := ikcpInput kcp data
  if input.1 < 0 then input.2
  else if ikcpPeeksize input.2 ≤ 0 then input.2
  else (ikcpRecv input.2 (ikcpPeeksize input.2)).2.2

@[simp] theorem receiveOnce_cfg (kcp : IKCPCB) (data : List Byte) :
    (receiveOnce kcp data).cfg = kcp.cfg := by
  unfold receiveOnce
  dsimp only
  split_ifs
  · exact ikcpInput_cfg kcp data
  · exact ikcpInput_cfg kcp data
  · rw [ikcpRecv_cfg, ikcpInput_cfg]

/-- The table with what the datagram brings. -/
def IKCPCB.heldAfter (kcp : IKCPCB) (data : List Byte) : List (IUINT32 × Byte) :=
  fileAll kcp.readPos kcp.held (pushed (datagramWalk kcp.conv data).1)

/-- With the datagram no message is complete behind the one at the read
    position, or none at all if the datagram is rejected. -/
def IKCPCB.AtMostOne (kcp : IKCPCB) (data : List Byte) : Prop :=
  Completes kcp.readPos (kcp.heldAfter data) →
    (datagramWalk kcp.conv data).2 = true ∧
      ¬ Completes (messageEnd (kcp.heldAfter data) 128 kcp.readPos) (kcp.heldAfter data)

theorem FullInv.receiveOnce {kcp : IKCPCB} (h : FullInv kcp) {data : List Byte}
    (hfull : fullSegments kcp.conv data) : FullInv (Kcp.receiveOnce kcp data) := by
  have hinput := h.ikcpInput hfull
  unfold Kcp.receiveOnce
  dsimp only
  split_ifs with hneg hle
  · exact hinput
  · exact hinput
  · exact hinput.ikcpRecv (by omega)

/-- **When nothing complete stays behind.** -/
theorem FullInv.peeksize_receiveOnce_iff {kcp : IKCPCB} (h : FullInv kcp) {data : List Byte}
    (hfull : fullSegments kcp.conv data) :
    ikcpPeeksize (Kcp.receiveOnce kcp data) < 0 ↔ kcp.AtMostOne data := by
  have hinput := h.ikcpInput hfull
  have hread := h.receiveOnce hfull
  have hwalk := ikcpInput_walked h.rcv data
  have hpos := hwalk.filed.pos
  have htable : SameTable (kcp.heldAfter data) (Kcp.ikcpInput kcp data).2.held := hwalk.filed.table
  have hpeek := ikcpPeeksize_nonneg_iff hinput.rcv
  rw [hpos, htable.completes_iff] at hpeek
  rw [← not_le, ikcpPeeksize_nonneg_iff hread.rcv]
  unfold IKCPCB.AtMostOne
  rw [← hpeek]
  unfold Kcp.receiveOnce at hread ⊢
  dsimp only at hread ⊢
  by_cases hneg : (Kcp.ikcpInput kcp data).1 < 0
  · -- rejected: whatever is complete stays
    have hbad : (datagramWalk kcp.conv data).2 ≠ true := by
      intro hok
      have hzero := hwalk.ok hok
      omega
    rw [if_pos hneg, ← ikcpPeeksize_nonneg_iff hinput.rcv]
    exact ⟨fun hnone hsome => absurd hsome hnone, fun hone hsome => hbad (hone hsome).1⟩
  have hok : (datagramWalk kcp.conv data).2 = true := by
    by_contra hbad
    exact hneg (hwalk.failed (Bool.eq_false_iff.mpr hbad))
  rw [if_neg hneg]
  by_cases hle : ikcpPeeksize (Kcp.ikcpInput kcp data).2 ≤ 0
  · -- nothing to read
    have hnone : ¬ 0 ≤ ikcpPeeksize (Kcp.ikcpInput kcp data).2 := by
      intro hsome
      exact absurd (hinput.ikcpPeeksize_pos hsome) (by omega)
    rw [if_pos hle, ← ikcpPeeksize_nonneg_iff hinput.rcv]
    exact iff_of_true hnone (fun hsome => absurd hsome hnone)
  · -- one message read: what is left is behind it
    have hsome : 0 ≤ ikcpPeeksize (Kcp.ikcpInput kcp data).2 := by omega
    rw [if_neg hle, hinput.rcv.completes_ikcpRecv_iff hsome, hpos, htable.messageEnd,
      htable.completes_iff]
    exact ⟨fun hnot _ => ⟨hok, hnot⟩, fun hone => (hone hsome).2⟩

end Kcp
end UdpSpeed
