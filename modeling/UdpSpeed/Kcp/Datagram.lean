/-
  UdpSpeed.Kcp.Datagram

  What one datagram does to the receive side of a KCP object, in terms of the
  segments it is made of: `ikcp_input` either rejects the datagram or files its
  PUSH segments, and `ikcp_peeksize` then reports a message exactly if the one
  at the read position is complete.
-/

import UdpSpeed.Kcp.Send
import UdpSpeed.Kcp.Filing

namespace UdpSpeed
namespace Kcp

open SerialNumber

/-! ## Cutting a datagram -/

/-- The headers of the segments in a datagram; `none` is one that `ikcp_input`
    rejects. -/
def cutSegments (conv : IUINT32) : Nat → List Byte → Option (List SegHeader)
  | 0, _ => some []
  | fuel + 1, data =>
      if data.length < ikcpOverhead then some []
      else
        let h := decodeHeader data
        let body := data.drop ikcpOverhead
        if h.conv = conv ∧ h.len.toNat ≤ body.length ∧ 0 ≤ h.len.toInt ∧ validCmd h.cmd then
          (cutSegments conv fuel (body.drop h.len.toNat)).map (h :: ·)
        else none

/-- The segments of a datagram for an object of this `conv`. -/
def datagramSegments (conv : IUINT32) (data : List Byte) : Option (List SegHeader) :=
  if data.length < ikcpOverhead then none else cutSegments conv data.length data

/-- The segments `ikcp_input` gets through, and whether it gets through all of
    them. -/
def walkSegments (conv : IUINT32) : Nat → List Byte → List SegHeader × Bool
  | 0, _ => ([], true)
  | fuel + 1, data =>
      if data.length < ikcpOverhead then ([], true)
      else
        let h := decodeHeader data
        let body := data.drop ikcpOverhead
        if h.conv = conv ∧ h.len.toNat ≤ body.length ∧ 0 ≤ h.len.toInt ∧ validCmd h.cmd then
          let rest := walkSegments conv fuel (body.drop h.len.toNat)
          (h :: rest.1, rest.2)
        -- the segments before this one have been processed
        else ([], false)

/-- The segments of a datagram that are processed, and whether all are. -/
def datagramWalk (conv : IUINT32) (data : List Byte) : List SegHeader × Bool :=
  if data.length < ikcpOverhead then ([], false) else walkSegments conv data.length data

theorem cutSegments_eq_walk (conv : IUINT32) (fuel : Nat) (data : List Byte) :
    cutSegments conv fuel data =
      if (walkSegments conv fuel data).2 then some (walkSegments conv fuel data).1 else none := by
  induction fuel generalizing data with
  | zero => rfl
  | succ fuel ih =>
      unfold cutSegments walkSegments
      dsimp only
      by_cases hshort : data.length < ikcpOverhead
      · rw [if_pos hshort, if_pos hshort]
        rfl
      rw [if_neg hshort, if_neg hshort]
      generalize decodeHeader data = h
      by_cases hok : h.conv = conv ∧ h.len.toNat ≤ (data.drop ikcpOverhead).length ∧
          0 ≤ h.len.toInt ∧ validCmd h.cmd
      · rw [if_pos hok, if_pos hok, ih]
        cases (walkSegments conv fuel ((data.drop ikcpOverhead).drop h.len.toNat)).2 <;> rfl
      · rw [if_neg hok, if_neg hok]
        rfl

theorem datagramSegments_eq_walk (conv : IUINT32) (data : List Byte) :
    datagramSegments conv data =
      if (datagramWalk conv data).2 then some (datagramWalk conv data).1 else none := by
  unfold datagramSegments datagramWalk
  by_cases hshort : data.length < ikcpOverhead
  · rw [if_pos hshort, if_pos hshort]
    rfl
  · rw [if_neg hshort, if_neg hshort, cutSegments_eq_walk]

/-- Sequence and fragment numbers of the PUSH segments. -/
def pushed (headers : List SegHeader) : List (IUINT32 × Byte) :=
  (headers.filter (fun h => h.cmd = ikcpCmdPush)).map (fun h => (h.sn, h.frg))

theorem pushed_cons (h : SegHeader) (headers : List SegHeader) :
    pushed (h :: headers) = pushed [h] ++ pushed headers := by
  rw [pushed, pushed, pushed, ← List.map_append, ← List.filter_append]
  rfl

/-! ## Acknowledgements leave the receive side alone -/

theorem SameRcv.refl (kcp : IKCPCB) : SameRcv kcp kcp := ⟨rfl, rfl, rfl, rfl⟩

theorem SameRcv.trans {kcp kcp₁ kcp₂ : IKCPCB} (h : SameRcv kcp kcp₁) (h' : SameRcv kcp₁ kcp₂) :
    SameRcv kcp kcp₂ :=
  ⟨h'.1.trans h.1, h'.2.1.trans h.2.1, h'.2.2.1.trans h.2.2.1, h'.2.2.2.trans h.2.2.2⟩

theorem sameRcv_ikcpUpdateAck (kcp : IKCPCB) (rtt : IUINT32) :
    SameRcv kcp (ikcpUpdateAck kcp rtt) := by
  unfold ikcpUpdateAck
  dsimp only
  split_ifs <;> exact ⟨rfl, rfl, rfl, rfl⟩

theorem sameRcv_ikcpShrinkBuf (kcp : IKCPCB) : SameRcv kcp (ikcpShrinkBuf kcp) := by
  unfold ikcpShrinkBuf
  split <;> exact ⟨rfl, rfl, rfl, rfl⟩

theorem sameRcv_ikcpParseAck (kcp : IKCPCB) (sn : IUINT32) :
    SameRcv kcp (ikcpParseAck kcp sn) := by
  unfold ikcpParseAck
  split_ifs <;> exact ⟨rfl, rfl, rfl, rfl⟩

theorem sameRcv_parseMaxack (kcp : IKCPCB) (maxack : Option IUINT32) :
    SameRcv kcp (parseMaxack kcp maxack) := by
  cases maxack with
  | none => exact .refl kcp
  | some maxack =>
      change SameRcv kcp (ikcpParseFastack kcp maxack)
      unfold ikcpParseFastack
      split_ifs <;> exact ⟨rfl, rfl, rfl, rfl⟩

theorem sameRcv_inputAck (kcp : IKCPCB) (h : SegHeader) : SameRcv kcp (inputAck kcp h) := by
  unfold inputAck
  dsimp only
  refine SameRcv.trans ?_ ((sameRcv_ikcpParseAck _ h.sn).trans (sameRcv_ikcpShrinkBuf _))
  split_ifs
  · exact sameRcv_ikcpUpdateAck kcp _
  · exact .refl kcp

theorem sameRcv_growCwnd (kcp : IKCPCB) (una : IUINT32) : SameRcv kcp (growCwnd kcp una) := by
  unfold growCwnd
  dsimp only
  split_ifs <;> exact ⟨rfl, rfl, rfl, rfl⟩

theorem sameRcv_ikcpSend (kcp : IKCPCB) (buffer : List Byte) :
    SameRcv kcp (ikcpSend kcp buffer).2 := by
  obtain ⟨queue, h⟩ := ikcpSend_frame kcp buffer
  rw [h]
  exact ⟨rfl, rfl, rfl, rfl⟩

/-! ## One segment -/

/-- The PUSH branch files the segment; its own window checks drop nothing that
    `ikcp_parse_data` would keep. -/
theorem inputPush_filedAs {kcp : IKCPCB} (hinv : RcvInv kcp) (h : SegHeader)
    (payload : List Byte) : FiledAs kcp (inputPush kcp h payload) [(h.sn, h.frg)] := by
  have hsame : SameRcv kcp (ikcpAckPush kcp h.sn h.ts) := ⟨rfl, rfl, rfl, rfl⟩
  have hack := FiledAs.of_same hinv hsame
  unfold inputPush
  rw [hinv.wnd]
  dsimp only
  -- beyond the window, behind it, or handed to `ikcp_parse_data`
  by_cases hbelow : itimediff h.sn (kcp.rcvNxt + 128) < 0
  · rw [if_pos hbelow]
    by_cases habove : 0 ≤ itimediff h.sn (ikcpAckPush kcp h.sn h.ts).rcvNxt
    · rw [if_pos habove]
      exact hack.trans (ikcpParseData_filedAs (hinv.congr hsame) _)
    · rw [if_neg habove]
      have hout := (outside_window_iff h.sn kcp.rcvNxt).mp (Or.inr (not_le.mp habove))
      exact hack.trans ((hinv.congr hsame).filedAs_outside hout h.frg)
  · rw [if_neg hbelow]
    have hout := (outside_window_iff h.sn kcp.rcvNxt).mp (Or.inl (not_lt.mp hbelow))
    exact hinv.filedAs_outside hout h.frg

theorem inputSegment_filedAs {kcp : IKCPCB} (hinv : RcvInv kcp) (maxack : Option IUINT32)
    (h : SegHeader) (payload : List Byte) :
    FiledAs kcp (inputSegment kcp maxack h payload).1 (pushed [h]) := by
  unfold inputSegment
  dsimp only
  generalize hk : ikcpShrinkBuf
    (ikcpParseUna { kcp with rmtWnd := h.wnd.setWidth 32 } h.una) = kcp₁
  have hsame : SameRcv kcp kcp₁ := by
    rw [← hk]
    exact SameRcv.trans ⟨rfl, rfl, rfl, rfl⟩ (sameRcv_ikcpShrinkBuf _)
  have hrest : h.cmd ≠ ikcpCmdPush → pushed [h] = [] := by
    intro hcmd
    simp [pushed, hcmd]
  -- one case for each command
  by_cases hackCmd : h.cmd = ikcpCmdAck
  · rw [if_pos hackCmd, hrest (by rw [hackCmd]; decide)]
    exact FiledAs.of_same hinv (hsame.trans (sameRcv_inputAck kcp₁ h))
  rw [if_neg hackCmd]
  by_cases hpush : h.cmd = ikcpCmdPush
  · rw [if_pos hpush]
    have hone : pushed [h] = [(h.sn, h.frg)] := by simp [pushed, hpush]
    rw [hone]
    exact (FiledAs.of_same hinv hsame).trans (inputPush_filedAs (hinv.congr hsame) h payload)
  rw [if_neg hpush, hrest hpush]
  by_cases hwask : h.cmd = ikcpCmdWask
  · rw [if_pos hwask]
    exact FiledAs.of_same hinv (hsame.trans ⟨rfl, rfl, rfl, rfl⟩)
  · rw [if_neg hwask]
    exact FiledAs.of_same hinv hsame

/-! ## The whole datagram -/

/-- The return code and the object afterwards, against the segments cut out of
    the datagram: rejected with a negative code, or filed. -/
def Takes (kcp kcp' : IKCPCB) (code : Int) : Option (List SegHeader) → Prop
  | none => code < 0
  | some headers => code = 0 ∧ Filed kcp kcp' (pushed headers)

/-- The return code says whether all segments were processed, and those that were
    have been filed. -/
structure Walked (kcp kcp' : IKCPCB) (code : Int) (walk : List SegHeader × Bool) : Prop where
  filed : FiledAs kcp kcp' (pushed walk.1)
  ok : walk.2 = true → code = 0
  failed : walk.2 = false → code < 0

theorem Walked.stop {kcp : IKCPCB} (hinv : RcvInv kcp) : Walked kcp kcp 0 ([], true) where
  filed := FiledAs.of_same hinv (.refl kcp)
  ok := fun _ => rfl
  failed := fun h => absurd h (by decide)

theorem Walked.reject {kcp : IKCPCB} (hinv : RcvInv kcp) {code : Int} (hcode : code < 0) :
    Walked kcp kcp code ([], false) where
  filed := FiledAs.of_same hinv (.refl kcp)
  ok := fun h => absurd h (by decide)
  failed := fun _ => hcode

/-- The segment loop and the walk agree, turn by turn. -/
theorem inputLoop_walked (fuel : Nat) {kcp : IKCPCB} (hinv : RcvInv kcp)
    (maxack : Option IUINT32) (data : List Byte) :
    Walked kcp (inputLoop fuel kcp maxack data).2.1 (inputLoop fuel kcp maxack data).1
      (walkSegments kcp.conv fuel data) := by
  induction fuel generalizing kcp maxack data with
  | zero => exact .stop hinv
  | succ fuel ih =>
      unfold inputLoop walkSegments
      by_cases hshort : data.length < ikcpOverhead
      · rw [if_pos hshort, if_pos hshort]
        exact .stop hinv
      rw [if_neg hshort, if_neg hshort]
      dsimp only
      generalize decodeHeader data = h
      generalize data.drop ikcpOverhead = body
      -- the three checks of the loop, in the order the source makes them
      by_cases hconv : h.conv ≠ kcp.conv
      · rw [if_pos hconv, if_neg (fun hall => hconv hall.1)]
        exact .reject hinv (show (-1 : Int) < 0 by decide)
      rw [if_neg hconv]
      by_cases hlen : body.length < h.len.toNat ∨ h.len.toInt < 0
      · rw [if_pos hlen, if_neg (fun hall => by omega)]
        exact .reject hinv (show (-2 : Int) < 0 by decide)
      rw [if_neg hlen]
      by_cases hcmd : (!validCmd h.cmd) = true
      · rw [if_pos hcmd, if_neg (fun hall => by simp [hall.2.2.2] at hcmd)]
        exact .reject hinv (show (-3 : Int) < 0 by decide)
      rw [if_neg hcmd, if_pos ⟨not_ne_iff.mp hconv, by omega, by omega, by simpa using hcmd⟩]
      -- this segment is filed, then the induction hypothesis files the rest
      have hseg := inputSegment_filedAs hinv maxack h (body.take h.len.toNat)
      have hconv' : (inputSegment kcp maxack h (body.take h.len.toNat)).1.conv = kcp.conv :=
        congrArg IKCPCFG.conv (inputSegment_cfg kcp maxack h _)
      have hrest := ih hseg.inv
        (inputSegment kcp maxack h (body.take h.len.toNat)).2 (body.drop h.len.toNat)
      rw [hconv'] at hrest
      refine ⟨?_, hrest.ok, hrest.failed⟩
      rw [pushed_cons]
      exact hseg.trans hrest.filed

/-- **What `ikcp_input` does to the receive side**: it files the PUSH segments
    it gets to, also those in front of one it rejects the datagram for. -/
theorem ikcpInput_walked {kcp : IKCPCB} (hinv : RcvInv kcp) (data : List Byte) :
    Walked kcp (ikcpInput kcp data).2 (ikcpInput kcp data).1 (datagramWalk kcp.conv data) := by
  unfold ikcpInput datagramWalk
  by_cases hshort : data.length < ikcpOverhead
  · rw [if_pos hshort, if_pos hshort]
    exact .reject hinv (show (-1 : Int) < 0 by decide)
  rw [if_neg hshort, if_neg hshort]
  have hloop := inputLoop_walked data.length hinv none data
  dsimp only
  by_cases hneg : (inputLoop data.length kcp none data).1 < 0
  · rw [if_pos hneg]
    exact hloop
  · rw [if_neg hneg]
    -- what follows the loop only touches the send side
    have hsame := (sameRcv_parseMaxack (inputLoop data.length kcp none data).2.1
      (inputLoop data.length kcp none data).2.2).trans (sameRcv_growCwnd _ kcp.sndUna)
    have hall := hloop.filed.trans (FiledAs.of_same hloop.filed.inv hsame)
    rw [List.append_nil] at hall
    exact ⟨hall, fun _ => rfl, fun h => absurd (hloop.failed h) hneg⟩

/-- **`ikcp_input` rejects a datagram or files its PUSH segments.**  Either way
    the receive side stays in shape. -/
theorem ikcpInput_filed {kcp : IKCPCB} (hinv : RcvInv kcp) (data : List Byte) :
    RcvInv (ikcpInput kcp data).2 ∧
      Takes kcp (ikcpInput kcp data).2 (ikcpInput kcp data).1
        (datagramSegments kcp.conv data) := by
  have hwalk := ikcpInput_walked hinv data
  refine ⟨hwalk.filed.inv, ?_⟩
  rw [datagramSegments_eq_walk]
  cases hok : (datagramWalk kcp.conv data).2 with
  | false => exact hwalk.failed hok
  | true => exact ⟨hwalk.ok hok, hwalk.filed.filed⟩

/-! ## Reading -/

/-- **`ikcp_peeksize` reports a message exactly if the one at the read position
    is complete.** -/
theorem ikcpPeeksize_nonneg_iff {kcp : IKCPCB} (h : RcvInv kcp) :
    0 ≤ ikcpPeeksize kcp ↔ Completes kcp.readPos kcp.held := by
  have hzero : kcp.readPos + BitVec.ofNat 32 0 = kcp.readPos := BitVec.add_zero _
  unfold ikcpPeeksize
  cases hq : kcp.rcvQueue with
  | nil =>
      -- an empty queue: the number to be read is missing
      have hnone := h.lookup_next (by rw [hq]; decide)
      rw [hq, List.length_nil, hzero] at hnone
      refine iff_of_false (show ¬ (0 : Int) ≤ -1 by decide) ?_
      rintro ⟨frg, hfrg, -⟩
      rw [hnone] at hfrg
      cases hfrg
  | cons seg rest =>
      have hsn : seg.sn = kcp.readPos := by
        have := h.shape.queue 0 seg (by rw [hq]; rfl)
        rw [this]
        exact hzero
      have hhead : kcp.held.lookup kcp.readPos = some seg.frg := by
        rw [IKCPCB.held, hq, ← hsn]
        simp [IKCPSEG.key]
      dsimp only
      -- the first fragment is the head of the queue and says how many follow
      by_cases hfrg : seg.frg = 0
      · rw [if_pos hfrg]
        refine iff_of_true (Int.natCast_nonneg _) ⟨seg.frg, hhead, by rw [hfrg]; decide, ?_⟩
        intro i hi
        rw [hfrg] at hi
        obtain rfl : i = 0 := by simpa using hi
        rw [hzero, hhead]
        rfl
      rw [if_neg hfrg]
      have hlen : kcp.nrcvQue = kcp.rcvQueue.length := rfl
      by_cases hfew : kcp.nrcvQue < seg.frg.toNat + 1
      · rw [if_pos hfew]
        refine iff_of_false (by decide) ?_
        rintro ⟨frg, hlook, hlt, hall⟩
        obtain rfl := Option.some.inj (hhead.symm.trans hlook)
        -- too few in the queue, which has room: the number behind them is missing
        have hsome := hall kcp.rcvQueue.length (by omega)
        rw [h.lookup_next (by omega)] at hsome
        cases hsome
      · rw [if_neg hfew]
        have hroom := h.shape.room
        refine iff_of_true (Int.natCast_nonneg _) ⟨seg.frg, hhead, by omega, ?_⟩
        -- all of them are in the queue
        intro i hi
        exact h.lookup_queue (by omega)

/-- Dropping a run from the front of the queue. -/
theorem Shape.drop {buf front queue : List IKCPSEG} {nxt : IUINT32}
    (h : Shape buf (front ++ queue) nxt) : Shape buf queue nxt := by
  refine ⟨?_, ?_, h.near, h.sorted⟩
  · have := h.room
    rw [List.length_append] at this
    omega
  · intro i seg hi
    have hat : (front ++ queue)[front.length + i]? = some seg := by
      rw [List.getElem?_append_right (Nat.le_add_right _ _), Nat.add_sub_cancel_left]
      exact hi
    rw [h.queue _ seg hat, List.length_append, BitVec.ofNat_add, BitVec.ofNat_add]
    abel

/-- `ikcp_recv` leaves the receive side in shape. -/
theorem RcvInv.ikcpRecv {kcp : IKCPCB} (h : RcvInv kcp) (len : Int) :
    RcvInv (Kcp.ikcpRecv kcp len).2.2 := by
  have hmoved : ∀ kcp' : IKCPCB, kcp'.cfg = kcp.cfg → kcp'.rcvBuf = kcp.rcvBuf →
      kcp'.rcvNxt = kcp.rcvNxt → Shape kcp.rcvBuf kcp'.rcvQueue kcp.rcvNxt →
      RcvInv kcp'.moveAvailable := by
    intro kcp' hcfg hbuf hnxt hshape
    refine (rcvInv_moveAvailable (by rw [hcfg]; exact h.wnd) ?_).1
    rw [hbuf, hnxt]
    exact hshape
  have hafter : Shape kcp.rcvBuf (afterMessage kcp.rcvQueue) kcp.rcvNxt := by
    have hshape := h.shape
    rw [← headMessage_append_afterMessage kcp.rcvQueue] at hshape
    exact hshape.drop
  -- peeking or reading, `ikcp_recv` then refills the queue from the buffer
  have hread : RcvInv (if len < 0 then kcp
      else { kcp with rcvQueue := afterMessage kcp.rcvQueue }).moveAvailable := by
    split_ifs
    · exact hmoved kcp rfl rfl rfl h.shape
    · exact hmoved _ rfl rfl rfl hafter
  unfold Kcp.ikcpRecv
  dsimp only
  -- the three error returns leave the object alone
  by_cases h1 : kcp.rcvQueue = []
  · rw [if_pos h1]
    exact h
  rw [if_neg h1]
  by_cases h2 : ikcpPeeksize kcp < 0
  · rw [if_pos h2]
    exact h
  rw [if_neg h2]
  by_cases h3 : (len.natAbs : Int) < ikcpPeeksize kcp
  · rw [if_pos h3]
    exact h
  rw [if_neg h3]
  generalize (if len < 0 then kcp
    else { kcp with rcvQueue := afterMessage kcp.rcvQueue }) = read at hread ⊢
  split_ifs
  · exact hread.congr ⟨rfl, rfl, rfl, rfl⟩
  · exact hread

end Kcp
end UdpSpeed
