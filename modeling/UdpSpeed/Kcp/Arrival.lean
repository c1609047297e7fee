/-
  UdpSpeed.Kcp.Arrival

  A datagram of whole segments at the receiver.  `ikcp_input` takes them one by
  one; a PUSH segment below the upper edge of the window is acknowledged, and
  its number decides whether it goes to its place among those received or is
  dropped.
-/

import UdpSpeed.Kcp.Wire
import UdpSpeed.Kcp.Backlog

namespace UdpSpeed
namespace Kcp

open SerialNumber

/-! ## Reading what a flush wrote -/

/-- The header of a segment on the wire, as `ikcp_input` decodes it. -/
def IKCPSEG.header (seg : IKCPSEG) : SegHeader where
  conv := seg.conv
  cmd := seg.cmd
  frg := seg.frg
  wnd := seg.wnd.setWidth 16
  ts := seg.ts
  sn := seg.sn
  una := seg.una
  len := BitVec.ofNat 32 seg.len

/-- A segment that passes the checks of `ikcp_input`. -/
def IKCPSEG.readable (conv : IUINT32) (seg : IKCPSEG) : Bool :=
  seg.conv = conv && validCmd seg.cmd && seg.len < 2 ^ 31

theorem IKCPSEG.readable_iff {conv : IUINT32} {seg : IKCPSEG} :
    seg.readable conv ↔ seg.conv = conv ∧ validCmd seg.cmd ∧ seg.data.length < 2 ^ 31 := by
  rw [readable, Bool.and_eq_true, Bool.and_eq_true, decide_eq_true_eq, decide_eq_true_eq, and_assoc]
  rfl

/-- The body of the segment loop over the segments of a datagram. -/
def inputSegments (kcp : IKCPCB) (maxack : Option IUINT32) : List IKCPSEG → IKCPCB × Option IUINT32
  | [] => (kcp, maxack)
  | seg :: rest =>
      let r := inputSegment kcp maxack seg.header seg.data
      inputSegments r.1 r.2 rest

/-- The segment loop on a datagram of whole segments, by induction on them. -/
theorem inputLoop_wireAll {segs : List IKCPSEG} {kcp : IKCPCB}
    (hread : ∀ seg ∈ segs, seg.readable kcp.conv) {fuel : Nat}
    (hfuel : (wireAll segs).length ≤ fuel) (maxack : Option IUINT32) :
    inputLoop fuel kcp maxack (wireAll segs) = (0, inputSegments kcp maxack segs) := by
  induction segs generalizing fuel kcp maxack with
  | nil => cases fuel <;> rfl
  | cons seg rest ih =>
      obtain ⟨hconv, hcmd, hlen⟩ := IKCPSEG.readable_iff.mp (hread seg (List.mem_cons_self ..))
      have hover : (ikcpEncodeSeg seg).length = 24 := ikcpEncodeSeg_length seg
      have hlenNat : (BitVec.ofNat 32 seg.len).toNat = seg.data.length := by
        rw [BitVec.toNat_ofNat, IKCPSEG.len]
        omega
      have hlenInt : ¬ (BitVec.ofNat 32 seg.len).toInt < 0 := by
        rw [BitVec.toInt_eq_toNat_cond, hlenNat, if_pos (by omega)]
        omega
      have hheader : decodeHeader (wireAll (seg :: rest)) = seg.header := by
        rw [wireAll_cons]
        exact decodeHeader_encodeSeg seg _
      have hbody : (wireAll (seg :: rest)).drop ikcpOverhead = seg.data ++ wireAll rest := by
        rw [wireAll_cons]
        exact List.drop_left' hover
      have htotal : (wireAll (seg :: rest)).length =
          24 + (seg.data.length + (wireAll rest).length) := by
        rw [wireAll_cons, List.length_append, List.length_append, hover]
      cases fuel with
      | zero => omega
      | succ fuel =>
          rw [inputLoop, if_neg (by rw [htotal, ikcpOverhead]; omega), hheader, hbody]
          dsimp only [IKCPSEG.header]
          rw [if_neg (not_not.mpr hconv), hlenNat, if_neg, if_neg (by rw [hcmd]; decide),
            List.take_left, List.drop_left]
          · refine ih ?_ (by omega) _
            rw [IKCPCB.conv, inputSegment_cfg]
            exact fun x hx => hread x (List.mem_cons_of_mem _ hx)
          · rw [List.length_append]
            rintro (hshort | hneg)
            · omega
            · exact hlenInt hneg

/-- `ikcp_input` takes the datagram; what follows the loop touches neither the
    receive side nor the acknowledgements. -/
theorem ikcpInput_wireAll {segs : List IKCPSEG} (hne : segs ≠ []) {kcp : IKCPCB}
    (hread : ∀ seg ∈ segs, seg.readable kcp.conv) :
    (ikcpInput kcp (wireAll segs)).1 = 0 ∧
      SameRcv (inputSegments kcp none segs).1 (ikcpInput kcp (wireAll segs)).2 := by
  have hlong : ¬ (wireAll segs).length < ikcpOverhead := by
    obtain ⟨seg, rest, rfl⟩ := List.exists_cons_of_ne_nil hne
    rw [wireAll_cons, List.length_append, ikcpEncodeSeg_length]
    omega
  unfold ikcpInput
  rw [if_neg hlong, inputLoop_wireAll hread le_rfl none]
  dsimp only
  rw [if_neg (by decide)]
  exact ⟨rfl, (sameRcv_parseMaxack _ _).trans (sameRcv_growCwnd _ _)⟩

/-! ## The order of the numbers -/

/-- The queue ends at `rcv_nxt`, so the window starts there. -/
theorem RcvInv.offset_readPos {kcp : IKCPCB} (h : RcvInv kcp) {sn : IUINT32}
    (hnear : offset kcp.rcvNxt sn < 128) :
    offset kcp.readPos sn = kcp.rcvQueue.length + offset kcp.rcvNxt sn := by
  have hroom := h.shape.room
  have hsn : sn = kcp.readPos +
      BitVec.ofNat 32 (kcp.rcvQueue.length + offset kcp.rcvNxt sn) := by
    rw [BitVec.ofNat_add, ← add_assoc, IKCPCB.readPos, sub_add_cancel, add_offset]
  conv_lhs => rw [hsn]
  rw [offset_add _ (by omega)]

theorem RcvInv.offset_queue {kcp : IKCPCB} (h : RcvInv kcp) {i : Nat} {seg : IKCPSEG}
    (hi : kcp.rcvQueue[i]? = some seg) : offset kcp.readPos seg.sn = i := by
  have hroom := h.shape.room
  have hlt := (List.getElem?_eq_some_iff.mp hi).1
  rw [h.consecutive i seg hi, offset_add _ (by omega)]

/-- Everything received stands in the order of its distance from the read
    position. -/
theorem RcvInv.sorted {kcp : IKCPCB} (h : RcvInv kcp) :
    (kcp.rcvQueue ++ kcp.rcvBuf).Pairwise
      (fun a b => offset kcp.readPos a.sn < offset kcp.readPos b.sn) := by
  have hqueue : ∀ i (hi : i < kcp.rcvQueue.length),
      offset kcp.readPos kcp.rcvQueue[i].sn = i :=
    fun i hi => h.offset_queue (List.getElem?_eq_getElem hi)
  have hbuf : ∀ seg ∈ kcp.rcvBuf,
      offset kcp.readPos seg.sn = kcp.rcvQueue.length + offset kcp.rcvNxt seg.sn :=
    fun seg hin => h.offset_readPos (h.shape.near seg hin)
  refine List.pairwise_append.mpr ⟨?_, ?_, ?_⟩
  · rw [List.pairwise_iff_getElem]
    intro i j hi hj hij
    rw [hqueue i hi, hqueue j hj]
    exact hij
  · refine h.shape.sorted.imp_of_mem ?_
    intro a b ha hb hab
    rw [hbuf a ha, hbuf b hb]
    omega
  · intro a ha b hb
    obtain ⟨i, hi, rfl⟩ := List.getElem_of_mem ha
    rw [hqueue i hi, hbuf b hb]
    omega

/-! ## One segment -/

/-- Everything received and not yet read. -/
def IKCPCB.waiting (kcp : IKCPCB) : List IKCPSEG := kcp.rcvQueue ++ kcp.rcvBuf

/-- A PUSH segment with this number is acknowledged: it is below the upper edge
    of the window, also when it is a duplicate. -/
def IKCPCB.acknowledges (kcp : IKCPCB) (sn : IUINT32) : Bool :=
  itimediff sn (kcp.rcvNxt + kcp.cfg.rcvWnd) < 0

/-- What is taken is acknowledged. -/
theorem RcvInv.acknowledges_of_admits {kcp : IKCPCB} (h : RcvInv kcp) {sn : IUINT32}
    (hadm : kcp.Admits sn) : kcp.acknowledges sn := by
  unfold IKCPCB.acknowledges
  rw [h.wnd, decide_eq_true_eq]
  by_contra hge
  have hfar := (outside_window_iff sn kcp.rcvNxt).mp (Or.inl (not_lt.mp hge))
  have hnear := hadm.1
  omega

/-- The segment went to its place, between those with smaller and those with
    larger numbers. -/
def Placed (kcp kcp' : IKCPCB) (seg : IKCPSEG) : Prop :=
  ∃ before after seg', kcp.waiting = before ++ after ∧ kcp'.waiting = before ++ seg' :: after ∧
    seg'.sn = seg.sn ∧ seg'.frg = seg.frg ∧ seg'.data = seg.data ∧
    (∀ x ∈ before, offset kcp.readPos x.sn < offset kcp.readPos seg.sn) ∧
    ∀ x ∈ after, offset kcp.readPos seg.sn < offset kcp.readPos x.sn

theorem Placed.length_lt {kcp kcp' : IKCPCB} {seg : IKCPSEG} (h : Placed kcp kcp' seg) :
    kcp.waiting.length < kcp'.waiting.length := by
  obtain ⟨before, after, seg', hold, hnew, -⟩ := h
  rw [hold, hnew, List.length_append, List.length_append, List.length_cons]
  omega

/-- Its number is none of those that were waiting. -/
theorem Placed.sn_ne {kcp kcp' : IKCPCB} {seg : IKCPSEG} (h : Placed kcp kcp' seg) {x : IKCPSEG}
    (hx : x ∈ kcp.waiting) : x.sn ≠ seg.sn := by
  obtain ⟨before, after, seg', hold, -, -, -, -, hbefore, hafter⟩ := h
  rw [hold] at hx
  intro heq
  rcases List.mem_append.mp hx with hb | ha
  · have hlt := hbefore x hb
    rw [heq] at hlt
    omega
  · have hlt := hafter x ha
    rw [heq] at hlt
    omega

/-- What waits after that was there before, or is the segment. -/
theorem Placed.mem_waiting {kcp kcp' : IKCPCB} {seg : IKCPSEG} (h : Placed kcp kcp' seg)
    {x : IKCPSEG} (hx : x ∈ kcp'.waiting) :
    x ∈ kcp.waiting ∨ x.sn = seg.sn ∧ x.data = seg.data := by
  obtain ⟨before, after, seg', hold, hnew, hsn, -, hdata, -⟩ := h
  rw [hnew, List.mem_append, List.mem_cons] at hx
  rw [hold, List.mem_append]
  rcases hx with hb | rfl | ha
  · exact Or.inl (Or.inl hb)
  · exact Or.inr ⟨hsn, hdata⟩
  · exact Or.inl (Or.inr ha)

/-- What one segment does to the receive side. -/
structure Arrived (kcp kcp' : IKCPCB) (seg : IKCPSEG) : Prop where
  inv : RcvInv kcp'
  cfg : kcp'.cfg = kcp.cfg
  pos : kcp'.readPos = kcp.readPos
  acks : kcp'.acklist.length = kcp.acklist.length +
    if seg.cmd = ikcpCmdPush ∧ kcp.acknowledges seg.sn then 1 else 0
  placed : seg.cmd = ikcpCmdPush → kcp.Admits seg.sn → Placed kcp kcp' seg
  dropped : ¬ (seg.cmd = ikcpCmdPush ∧ kcp.Admits seg.sn) → kcp'.waiting = kcp.waiting

/-- Anything but a PUSH segment. -/
theorem Arrived.of_same {kcp kcp' : IKCPCB} (h : RcvInv kcp) (hsame : SameRcv kcp kcp')
    (hacks : kcp'.acklist = kcp.acklist) {seg : IKCPSEG} (hcmd : seg.cmd ≠ ikcpCmdPush) :
    Arrived kcp kcp' seg where
  inv := h.congr hsame
  cfg := hsame.1
  pos := (FiledAs.of_same h hsame).pos
  acks := by
    rw [hacks, if_neg (fun hc => hcmd hc.1)]
    rfl
  placed := fun hpush _ => absurd hpush hcmd
  dropped := fun _ => by rw [IKCPCB.waiting, hsame.2.1, hsame.2.2.1]; rfl

@[simp] theorem ikcpShrinkBuf_acklist (kcp : IKCPCB) :
    (ikcpShrinkBuf kcp).acklist = kcp.acklist := by
  unfold ikcpShrinkBuf
  split <;> rfl

@[simp] theorem ikcpParseAck_acklist (kcp : IKCPCB) (sn : IUINT32) :
    (ikcpParseAck kcp sn).acklist = kcp.acklist := by
  unfold ikcpParseAck
  split_ifs <;> rfl

@[simp] theorem inputAck_acklist (kcp : IKCPCB) (h : SegHeader) :
    (inputAck kcp h).acklist = kcp.acklist := by
  have hupdate : ∀ rtt, (ikcpUpdateAck kcp rtt).acklist = kcp.acklist := by
    intro rtt
    unfold ikcpUpdateAck
    dsimp only
    split_ifs <;> rfl
  unfold inputAck
  rw [ikcpShrinkBuf_acklist, ikcpParseAck_acklist]
  split_ifs
  · exact hupdate _
  · rfl

@[simp] theorem ikcpParseData_acklist (kcp : IKCPCB) (newseg : IKCPSEG) :
    (ikcpParseData kcp newseg).acklist = kcp.acklist := by
  unfold ikcpParseData
  split_ifs
  · rfl
  · cases insertBackward newseg kcp.rcvBuf.reverse <;> rfl

/-- A segment that `ikcp_parse_data` takes goes to its place. -/
theorem placed_ikcpParseData {kcp : IKCPCB} (h : RcvInv kcp) {newseg : IKCPSEG}
    (hadm : kcp.Admits newseg.sn) : Placed kcp (ikcpParseData kcp newseg) newseg := by
  obtain ⟨hinv, hpos, ⟨-, before, after, hold, hnew⟩ | ⟨hnot, -⟩⟩ := ikcpParseData_spec h newseg
  · -- the list stays sorted, so the two parts are the smaller and the larger numbers
    have hsorted := hinv.sorted
    rw [hpos, hnew] at hsorted
    obtain ⟨-, hafter, hbefore⟩ := List.pairwise_append.mp hsorted
    refine ⟨before, after, newseg, hold, hnew, rfl, rfl, rfl, ?_, ?_⟩
    · intro x hx
      exact hbefore x hx newseg (List.mem_cons_self ..)
    · intro x hx
      exact (List.pairwise_cons.mp hafter).1 x hx
  · exact absurd hadm hnot

/-- The segment `ikcp_input` builds from what it read: without the sender's
    timers, the window cut to its 16 bits. -/
def IKCPSEG.arriving (seg : IKCPSEG) : IKCPSEG where
  conv := seg.conv
  cmd := seg.cmd
  frg := seg.frg
  wnd := (seg.wnd.setWidth 16).setWidth 32
  ts := seg.ts
  sn := seg.sn
  una := seg.una
  data := seg.data

theorem inputPush_eq (kcp : IKCPCB) (seg : IKCPSEG) :
    inputPush kcp seg.header seg.data =
      if kcp.acknowledges seg.sn then
        if 0 ≤ itimediff seg.sn kcp.rcvNxt then
          ikcpParseData (ikcpAckPush kcp seg.sn seg.ts) seg.arriving
        else ikcpAckPush kcp seg.sn seg.ts
      else kcp := by
  simp only [IKCPCB.acknowledges, decide_eq_true_eq]
  rfl

/-- The PUSH branch: acknowledged and placed, acknowledged and dropped, or
    ignored. -/
theorem inputPush_arrived {kcp : IKCPCB} (h : RcvInv kcp) {seg : IKCPSEG}
    (hpush : seg.cmd = ikcpCmdPush) :
    Arrived kcp (inputPush kcp seg.header seg.data) seg := by
  have hsame : SameRcv kcp (ikcpAckPush kcp seg.sn seg.ts) := ⟨rfl, rfl, rfl, rfl⟩
  have hacked : (ikcpAckPush kcp seg.sn seg.ts).acklist.length = kcp.acklist.length + 1 := by
    rw [ikcpAckPush, List.length_append, List.length_singleton]
  rw [inputPush_eq]
  by_cases hack : kcp.acknowledges seg.sn
  · have hone : (if seg.cmd = ikcpCmdPush ∧ kcp.acknowledges seg.sn then 1 else 0) = 1 :=
      if_pos ⟨hpush, hack⟩
    rw [if_pos hack]
    by_cases hahead : 0 ≤ itimediff seg.sn kcp.rcvNxt
    · rw [if_pos hahead]
      obtain ⟨hinv, hpos, hspec⟩ := ikcpParseData_spec (h.congr hsame) seg.arriving
      refine ⟨hinv, ikcpParseData_cfg _ _, hpos, ?_, ?_, ?_⟩
      · rw [ikcpParseData_acklist, hone, hacked]
      · intro _ hadm
        have hadm' : (ikcpAckPush kcp seg.sn seg.ts).Admits seg.arriving.sn := hadm
        exact placed_ikcpParseData (h.congr hsame) hadm'
      · intro hnot
        rcases hspec with ⟨hadm, -⟩ | ⟨-, hwaiting⟩
        · exact absurd ⟨hpush, hadm⟩ hnot
        · exact hwaiting
    · -- behind the window: an old duplicate, as far as KCP can tell
      rw [if_neg hahead]
      have hfar := (outside_window_iff seg.sn kcp.rcvNxt).mp (Or.inr (not_le.mp hahead))
      refine ⟨h.congr hsame, rfl, rfl, ?_, ?_, fun _ => rfl⟩
      · rw [hone, hacked]
      · intro _ hadm
        have hnear := hadm.1
        omega
  · rw [if_neg hack]
    refine ⟨h, rfl, rfl, ?_, ?_, fun _ => rfl⟩
    · rw [if_neg (fun hc => hack hc.2)]
      rfl
    · intro _ hadm
      exact absurd (h.acknowledges_of_admits hadm) hack

theorem inputSegment_arrived {kcp : IKCPCB} (h : RcvInv kcp) (maxack : Option IUINT32)
    (seg : IKCPSEG) : Arrived kcp (inputSegment kcp maxack seg.header seg.data).1 seg := by
  unfold inputSegment
  dsimp only
  generalize hk : ikcpShrinkBuf
    (ikcpParseUna { kcp with rmtWnd := seg.header.wnd.setWidth 32 } seg.header.una) = kcp₁
  have hsame : SameRcv kcp kcp₁ := by
    rw [← hk]
    exact SameRcv.trans ⟨rfl, rfl, rfl, rfl⟩ (sameRcv_ikcpShrinkBuf _)
  have hacks : kcp₁.acklist = kcp.acklist := by
    rw [← hk, ikcpShrinkBuf_acklist]
    rfl
  split_ifs with hack hpush hwask
  · have hcmd : seg.cmd ≠ ikcpCmdPush := by
      rw [show seg.cmd = ikcpCmdAck from hack]
      decide
    exact .of_same h (hsame.trans (sameRcv_inputAck kcp₁ _))
      ((inputAck_acklist kcp₁ _).trans hacks) hcmd
  · -- window and `una` have been read, which changes nothing the PUSH branch looks at
    obtain ⟨hcfg, hqueue, hbuf, hnxt⟩ := hsame
    have hone := inputPush_arrived (h.congr ⟨hcfg, hqueue, hbuf, hnxt⟩) hpush
    have hadm : kcp₁.Admits seg.sn ↔ kcp.Admits seg.sn := by
      rw [IKCPCB.Admits, hnxt, hbuf]
      rfl
    have hackn : kcp₁.acknowledges seg.sn = kcp.acknowledges seg.sn := by
      rw [IKCPCB.acknowledges, hnxt, hcfg]
      rfl
    have hwaiting : kcp₁.waiting = kcp.waiting := by
      rw [IKCPCB.waiting, hqueue, hbuf]
      rfl
    have hpos : kcp₁.readPos = kcp.readPos := by
      rw [IKCPCB.readPos, hnxt, hqueue]
      rfl
    refine ⟨hone.inv, hone.cfg.trans hcfg, hone.pos.trans hpos, ?_, ?_, ?_⟩
    · rw [hone.acks, hacks, hackn]
    · intro hcmd hin
      have hplaced := hone.placed hcmd (hadm.mpr hin)
      rwa [Placed, hwaiting, hpos] at hplaced
    · intro hnot
      rw [hone.dropped (by rwa [hadm]), hwaiting]
  · have hprobe : SameRcv kcp { kcp₁ with probe := kcp₁.probe ||| ikcpAskTell } :=
      hsame.trans ⟨rfl, rfl, rfl, rfl⟩
    exact .of_same h hprobe hacks hpush
  · exact .of_same h hsame hacks hpush

end Kcp
end UdpSpeed
