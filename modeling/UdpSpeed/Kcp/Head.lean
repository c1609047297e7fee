/-
  UdpSpeed.Kcp.Head

  The message at the head of `rcv_queue`.  Input only adds segments behind it, so
  once `ikcp_peeksize` announces it, it stays announced.  A receive routine that
  reads once for each datagram takes it from the queue if it is not empty; an
  empty one looks to the routine like no message at all and stays where it is.
-/

import UdpSpeed.Kcp.Backlog

namespace UdpSpeed
namespace Kcp

open SerialNumber

/-! ## Input adds at the end -/

/-- Segments have only been added behind those in the queue. -/
def QueueGrows (kcp kcp' : IKCPCB) : Prop := kcp.rcvQueue <+: kcp'.rcvQueue

theorem SameRcv.queueGrows {kcp kcp' : IKCPCB} (h : SameRcv kcp kcp') : QueueGrows kcp kcp' := by
  unfold QueueGrows
  rw [h.2.1]

theorem prefix_moveAvailable (rcvWnd : IUINT32) (buf queue : List IKCPSEG) (nxt : IUINT32) :
    queue <+: (moveAvailable rcvWnd buf queue nxt).2.1 := by
  induction buf generalizing queue nxt with
  | nil => exact List.prefix_rfl
  | cons seg rest ih =>
      unfold moveAvailable
      split_ifs
      · exact (List.prefix_append queue [seg]).trans (ih _ _)
      · exact List.prefix_rfl

theorem queueGrows_moveAvailable (kcp : IKCPCB) : QueueGrows kcp kcp.moveAvailable :=
  prefix_moveAvailable _ _ _ _

theorem queueGrows_ikcpParseData (kcp : IKCPCB) (newseg : IKCPSEG) :
    QueueGrows kcp (ikcpParseData kcp newseg) := by
  unfold ikcpParseData
  split_ifs
  · exact List.prefix_rfl
  · cases insertBackward newseg kcp.rcvBuf.reverse with
    | none => exact queueGrows_moveAvailable kcp
    | some buf => exact queueGrows_moveAvailable { kcp with rcvBuf := buf.reverse }

theorem queueGrows_inputSegment (kcp : IKCPCB) (maxack : Option IUINT32) (h : SegHeader)
    (payload : List Byte) : QueueGrows kcp (inputSegment kcp maxack h payload).1 := by
  unfold inputSegment
  dsimp only
  generalize hk : ikcpShrinkBuf
    (ikcpParseUna { kcp with rmtWnd := h.wnd.setWidth 32 } h.una) = kcp₁
  have hsame : SameRcv kcp kcp₁ := by
    rw [← hk]
    exact SameRcv.trans ⟨rfl, rfl, rfl, rfl⟩ (sameRcv_ikcpShrinkBuf _)
  split_ifs
  · exact (hsame.trans (sameRcv_inputAck kcp₁ h)).queueGrows
  · -- the PUSH branch: nothing but `ikcp_parse_data` touches the queue
    apply hsame.queueGrows.trans
    unfold inputPush
    dsimp only
    split_ifs
    · exact queueGrows_ikcpParseData (ikcpAckPush kcp₁ h.sn h.ts) _
    · exact List.prefix_rfl
    · exact List.prefix_rfl
  · exact hsame.queueGrows
  · exact hsame.queueGrows

theorem inputFrame_queueGrows : InputFrame QueueGrows where
  refl := fun _ => List.prefix_rfl
  trans := List.IsPrefix.trans
  segment := queueGrows_inputSegment
  maxack := fun kcp maxack => (sameRcv_parseMaxack kcp maxack).queueGrows
  cwnd := fun kcp una => (sameRcv_growCwnd kcp una).queueGrows

theorem queueGrows_ikcpInput (kcp : IKCPCB) (data : List Byte) :
    QueueGrows kcp (ikcpInput kcp data).2 := inputFrame_queueGrows.ikcpInput kcp data

/-! ## The head of a longer queue -/

/-- Fragments that come later can only lengthen a message that has no last
    fragment yet. -/
theorem headMessage_append (queue more : List IKCPSEG) :
    headMessage queue <+: headMessage (queue ++ more) := by
  induction queue with
  | nil => exact List.nil_prefix
  | cons seg rest ih =>
      rw [List.cons_append, headMessage, headMessage]
      split_ifs
      · exact List.prefix_rfl
      · exact (List.cons_prefix_cons).mpr ⟨rfl, ih⟩

theorem headMessage_append_of_last {queue : List IKCPSEG} (hlast : ∃ seg ∈ queue, seg.frg = 0)
    (more : List IKCPSEG) : headMessage (queue ++ more) = headMessage queue := by
  induction queue with
  | nil =>
      obtain ⟨seg, hin, -⟩ := hlast
      cases hin
  | cons seg rest ih =>
      rw [List.cons_append, headMessage, headMessage]
      split_ifs with hfrg
      · rfl
      · obtain ⟨last, hin, hzero⟩ := hlast
        rcases List.mem_cons.mp hin with rfl | hrest
        · exact absurd hzero hfrg
        · rw [ih ⟨last, hrest, hzero⟩]

theorem afterMessage_append (queue more : List IKCPSEG) :
    afterMessage queue <+: afterMessage (queue ++ more) := by
  induction queue with
  | nil => exact List.nil_prefix
  | cons seg rest ih =>
      rw [List.cons_append, afterMessage, afterMessage]
      split_ifs
      · exact List.prefix_append rest more
      · exact ih

/-- `ikcp_peeksize` announces a message. -/
def IKCPCB.Announced (kcp : IKCPCB) : Prop := 0 ≤ ikcpPeeksize kcp

/-- It announces one, and the last fragment of it is in the queue.  A peer that
    numbers the fragments as `ikcp_send` does sends no other. -/
def IKCPCB.Delimited (kcp : IKCPCB) : Prop := kcp.Announced ∧ ∃ seg ∈ kcp.rcvQueue, seg.frg = 0

instance (kcp : IKCPCB) : Decidable kcp.Announced := inferInstanceAs (Decidable (0 ≤ _))

instance (kcp : IKCPCB) : Decidable kcp.Delimited := inferInstanceAs (Decidable (_ ∧ _))

/-- The message at the head has left the queue; what was behind it is in front
    now. -/
def IKCPCB.TakesHead (kcp kcp' : IKCPCB) : Prop :=
  afterMessage kcp.rcvQueue <+: kcp'.rcvQueue ∧
    ∀ seg ∈ headMessage kcp.rcvQueue, ∀ seg' ∈ kcp'.rcvQueue, seg'.sn ≠ seg.sn

theorem IKCPCB.Announced.ne_nil {kcp : IKCPCB} (h : kcp.Announced) : kcp.rcvQueue ≠ [] := by
  intro hnil
  unfold IKCPCB.Announced ikcpPeeksize at h
  rw [hnil] at h
  exact absurd h (show ¬ (0 : Int) ≤ -1 by decide)

/-- What is announced stays announced, at least at its length. -/
theorem QueueGrows.ikcpPeeksize_le {kcp kcp' : IKCPCB} (h : QueueGrows kcp kcp')
    (hann : kcp.Announced) : ikcpPeeksize kcp ≤ ikcpPeeksize kcp' := by
  obtain ⟨more, hmore⟩ := h
  have hann' : kcp'.Announced := by
    have hne := hann.ne_nil
    unfold IKCPCB.Announced ikcpPeeksize IKCPCB.nrcvQue at hann ⊢
    rw [← hmore]
    cases hq : kcp.rcvQueue with
    | nil => exact absurd hq hne
    | cons seg rest =>
        rw [hq] at hann
        simp only [List.cons_append, List.length_cons, List.length_append] at hann ⊢
        split_ifs at hann ⊢ <;> omega
  obtain ⟨tail, htail⟩ := headMessage_append kcp.rcvQueue more
  rw [ikcpPeeksize_eq_merged hann, ikcpPeeksize_eq_merged hann', ← hmore, ← htail, segBytes,
    segBytes, List.flatMap_append, List.length_append]
  omega

/-! ## One read for each datagram -/

/-- **A message that is not empty leaves the queue with the next datagram that is
    accepted.** -/
theorem RcvInv.takesHead_receiveOnce {kcp : IKCPCB} (h : RcvInv kcp) {data : List Byte}
    (hok : 0 ≤ (Kcp.ikcpInput kcp data).1) (hpos : 0 < ikcpPeeksize kcp) :
    kcp.TakesHead (receiveOnce kcp data) := by
  have hwalk := ikcpInput_walked h data
  obtain ⟨more, hmore⟩ := queueGrows_ikcpInput kcp data
  have hle := (queueGrows_ikcpInput kcp data).ikcpPeeksize_le (le_of_lt hpos)
  have hread : receiveOnce kcp data = (Kcp.ikcpRecv (Kcp.ikcpInput kcp data).2
      (ikcpPeeksize (Kcp.ikcpInput kcp data).2)).2.2 := by
    unfold receiveOnce
    dsimp only
    rw [if_neg (not_lt.mpr hok), if_neg (by omega)]
  have hinv₁ := hwalk.filed.inv
  have hpos₁ := hwalk.filed.pos
  rw [hread]
  generalize (Kcp.ikcpInput kcp data).2 = kcp₁ at *
  have hsome : 0 ≤ ikcpPeeksize kcp₁ := by omega
  constructor
  · -- the queue is refilled behind what the read has left
    obtain ⟨probe, hrecv⟩ := ikcpRecv_eq hsome
    rw [hrecv]
    apply List.IsPrefix.trans _ (prefix_moveAvailable ..)
    rw [← hmore]
    exact afterMessage_append _ _
  · obtain ⟨hinv₂, -, hpos₂⟩ := hinv₁.ikcpRecv_spec hsome
    have hroom₁ := hinv₁.shape.room
    have hroom₂ := hinv₂.shape.room
    have hheads := (headMessage_append kcp.rcvQueue more).length_le
    have hhead := congrArg List.length (headMessage_append_afterMessage kcp₁.rcvQueue)
    rw [List.length_append] at hhead
    rw [hmore] at hheads
    intro seg hseg seg' hseg' heq
    obtain ⟨j, hj, rfl⟩ := List.getElem_of_mem hseg
    obtain ⟨i, hi, rfl⟩ := List.getElem_of_mem hseg'
    have hat : kcp.rcvQueue[j]? = some (headMessage kcp.rcvQueue)[j] := by
      conv_lhs => rw [← headMessage_append_afterMessage kcp.rcvQueue]
      rw [List.getElem?_append_left hj, List.getElem?_eq_getElem hj]
    -- both numbers, counted from the old read position
    have hold := h.consecutive j _ hat
    have hnew := hinv₂.consecutive i _ (List.getElem?_eq_getElem hi)
    rw [hnew, hpos₂, hpos₁, hold, add_assoc, ← BitVec.ofNat_add] at heq
    have hoff := congrArg (offset kcp.readPos) heq
    rw [offset_add _ (by omega), offset_add _ (by omega)] at hoff
    omega

/-- **An empty message stays**: the peeked length `0` is taken for no message. -/
theorem not_takesHead_receiveOnce {kcp : IKCPCB} (hdel : kcp.Delimited)
    (hzero : ikcpPeeksize kcp = 0) (data : List Byte) :
    ¬ kcp.TakesHead (receiveOnce kcp data) := by
  obtain ⟨hann, hlast⟩ := hdel
  obtain ⟨more, hmore⟩ := queueGrows_ikcpInput kcp data
  have hle := (queueGrows_ikcpInput kcp data).ikcpPeeksize_le hann
  have hstays : receiveOnce kcp data = (ikcpInput kcp data).2 := by
    have hpeek : ikcpPeeksize (ikcpInput kcp data).2 = ikcpPeeksize kcp := by
      rw [ikcpPeeksize_eq_merged hann, ikcpPeeksize_eq_merged (by omega), ← hmore,
        headMessage_append_of_last hlast]
    unfold receiveOnce
    dsimp only
    rw [hpeek, hzero, if_pos le_rfl, ite_self]
  rintro ⟨-, hgone⟩
  rw [hstays] at hgone
  cases hq : kcp.rcvQueue with
  | nil => exact hann.ne_nil hq
  | cons seg rest =>
      have hhead : seg ∈ headMessage kcp.rcvQueue := by
        rw [hq, headMessage]
        split_ifs
        · exact List.mem_singleton_self seg
        · exact List.mem_cons_self ..
      have hqueue : seg ∈ (ikcpInput kcp data).2.rcvQueue := by
        rw [← hmore, hq]
        exact List.mem_append_left _ (List.mem_cons_self ..)
      exact hgone seg hhead seg hqueue rfl

theorem RcvInv.receiveOnce {kcp : IKCPCB} (h : RcvInv kcp) (data : List Byte) :
    RcvInv (Kcp.receiveOnce kcp data) := by
  have hinput := (ikcpInput_filed h data).1
  unfold Kcp.receiveOnce
  dsimp only
  split_ifs
  · exact hinput
  · exact hinput
  · exact hinput.ikcpRecv _

end Kcp
end UdpSpeed
