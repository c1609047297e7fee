/-
  UdpSpeed.Kcp.SendBuffer

  The send buffer as a set of numbers.  Its segments stand in the order of their
  numbers between `snd_una` and `snd_nxt`; a flush adds the next ones at the end,
  a segment that arrives takes away those it acknowledges, and nothing else
  changes it.  All of this before the numbers reach half their range.
-/

import UdpSpeed.Kcp.Arrival
import UdpSpeed.Kcp.Output

namespace UdpSpeed
namespace Kcp

open SerialNumber

/-! ## Numbers in the lower half -/

/-- In the lower half of the range the signed difference is the difference. -/
theorem itimediff_small {a b : IUINT32} (ha : a.toNat < 2 ^ 31) (hb : b.toNat < 2 ^ 31) :
    itimediff a b = (a.toNat : Int) - (b.toNat : Int) := by
  have hbase : ∀ x : IUINT32, offset 0 x = x.toNat := by
    intro x
    rw [offset, sub_zero]
  have hdiff := @toInt_sub_eq 32 0 a b (by rw [hbase]; omega) (by rw [hbase]; omega)
  rw [hbase, hbase] at hdiff
  exact hdiff

theorem toNat_add_ofNat {a : IUINT32} {n : Nat} (h : a.toNat + n < 2 ^ 32) :
    (a + BitVec.ofNat 32 n).toNat = a.toNat + n := by
  rw [BitVec.toNat_add, BitVec.toNat_ofNat]
  omega

/-! ## The numbers in the buffer -/

/-- The numbers of the segments sent and not yet acknowledged. -/
def IKCPCB.unacked (kcp : IKCPCB) : List Nat := kcp.sndBuf.map (fun seg => seg.sn.toNat)

theorem IKCPCB.mem_unacked {kcp : IKCPCB} {i : Nat} :
    i ∈ kcp.unacked ↔ ∃ seg ∈ kcp.sndBuf, seg.sn.toNat = i := List.mem_map

/-- The send buffer is in order, `snd_una` is its first number, and the window
    is no larger than `IKCP_WND_SND`. -/
structure SendOrder (kcp : IKCPCB) : Prop where
  sorted : kcp.unacked.Pairwise (· < ·)
  below : ∀ i ∈ kcp.unacked, i < kcp.sndNxt.toNat
  una : kcp.sndUna.toNat = kcp.unacked.head?.getD kcp.sndNxt.toNat
  window : kcp.sndNxt.toNat ≤ kcp.sndUna.toNat + 32

theorem sendOrder_freshKcp (conv : IUINT32) : SendOrder (freshKcp conv) where
  sorted := .nil
  below := fun _ hin => absurd hin List.not_mem_nil
  una := rfl
  window := Nat.zero_le _

/-- Everything in the buffer comes after `snd_una`. -/
theorem SendOrder.una_le {kcp : IKCPCB} (h : SendOrder kcp) {i : Nat} (hin : i ∈ kcp.unacked) :
    kcp.sndUna.toNat ≤ i := by
  have hsorted := h.sorted
  rw [h.una]
  cases hlist : kcp.unacked with
  | nil =>
      rw [hlist] at hin
      cases hin
  | cons first rest =>
      rw [hlist] at hin hsorted
      rcases List.mem_cons.mp hin with rfl | htail
      · exact le_rfl
      · exact Nat.le_of_lt ((List.pairwise_cons.mp hsorted).1 i htail)

theorem SendOrder.una_le_nxt {kcp : IKCPCB} (h : SendOrder kcp) :
    kcp.sndUna.toNat ≤ kcp.sndNxt.toNat := by
  rw [h.una]
  cases hlist : kcp.unacked with
  | nil => exact le_rfl
  | cons first rest =>
      have hbelow := h.below first (by rw [hlist]; exact List.mem_cons_self ..)
      exact Nat.le_of_lt hbelow

/-- The order is a matter of the numbers only. -/
theorem SendOrder.congr {kcp kcp' : IKCPCB} (h : SendOrder kcp)
    (hbuf : kcp'.unacked = kcp.unacked) (huna : kcp'.sndUna = kcp.sndUna)
    (hnxt : kcp'.sndNxt = kcp.sndNxt) : SendOrder kcp' := by
  obtain ⟨hsorted, hbelow, hhead, hwindow⟩ := h
  rw [← hbuf] at hsorted hbelow hhead
  rw [← hnxt] at hbelow hhead hwindow
  rw [← huna] at hhead hwindow
  exact ⟨hsorted, hbelow, hhead, hwindow⟩

theorem unacked_ikcpShrinkBuf (kcp : IKCPCB) : (ikcpShrinkBuf kcp).unacked = kcp.unacked := by
  unfold ikcpShrinkBuf
  split <;> rfl

theorem sndUna_ikcpShrinkBuf (kcp : IKCPCB) :
    (ikcpShrinkBuf kcp).sndUna.toNat = kcp.unacked.head?.getD kcp.sndNxt.toNat := by
  unfold ikcpShrinkBuf IKCPCB.unacked
  cases kcp.sndBuf with
  | nil => rfl
  | cons seg rest => rfl

/-- **Taking segments out and `ikcp_shrink_buf` behind it keep the order.** -/
theorem SendOrder.shrink {kcp kcp' : IKCPCB} (h : SendOrder kcp)
    (hsub : kcp'.unacked.Sublist kcp.unacked) (hnxt : kcp'.sndNxt = kcp.sndNxt) :
    SendOrder (ikcpShrinkBuf kcp') := by
  have hnxt' : (ikcpShrinkBuf kcp').sndNxt = kcp.sndNxt :=
    (sndFrame_ikcpShrinkBuf kcp').sndNxt.trans hnxt
  have huna : kcp.sndUna.toNat ≤ (ikcpShrinkBuf kcp').sndUna.toNat := by
    rw [sndUna_ikcpShrinkBuf, hnxt]
    cases hlist : kcp'.unacked with
    | nil => exact h.una_le_nxt
    | cons first rest =>
        apply h.una_le
        apply hsub.subset
        rw [hlist]
        exact List.mem_cons_self ..
  have hwindow := h.window
  refine ⟨?_, ?_, ?_, ?_⟩
  · rw [unacked_ikcpShrinkBuf]
    exact h.sorted.sublist hsub
  · rw [unacked_ikcpShrinkBuf, hnxt']
    intro i hin
    exact h.below i (hsub.subset hin)
  · rw [sndUna_ikcpShrinkBuf, unacked_ikcpShrinkBuf, hnxt', hnxt]
  · rw [hnxt']
    omega

/-! ## Acknowledgements -/

/-- Only numbers satisfying `P` have left the buffer. -/
structure Acked (kcp kcp' : IKCPCB) (P : Nat → Prop) : Prop where
  sublist : kcp'.unacked.Sublist kcp.unacked
  removed : ∀ i ∈ kcp.unacked, i ∈ kcp'.unacked ∨ P i
  sndNxt : kcp'.sndNxt = kcp.sndNxt

theorem Acked.of_same {kcp kcp' : IKCPCB} (hbuf : kcp'.unacked = kcp.unacked)
    (hnxt : kcp'.sndNxt = kcp.sndNxt) (P : Nat → Prop) : Acked kcp kcp' P := by
  refine ⟨?_, ?_, hnxt⟩
  · rw [hbuf]
  · rw [hbuf]
    exact fun _ hin => Or.inl hin

theorem Acked.trans {kcp kcp₁ kcp₂ : IKCPCB} {P Q : Nat → Prop} (h : Acked kcp kcp₁ P)
    (h' : Acked kcp₁ kcp₂ Q) : Acked kcp kcp₂ (fun i => P i ∨ Q i) where
  sublist := h'.sublist.trans h.sublist
  removed := by
    intro i hin
    rcases h.removed i hin with hkept | hp
    · exact (h'.removed i hkept).imp id Or.inr
    · exact Or.inr (Or.inl hp)
  sndNxt := h'.sndNxt.trans h.sndNxt

/-- `ikcp_parse_una` drops the numbers below `una`, and no others. -/
theorem acked_ikcpParseUna {kcp : IKCPCB} (h : SendOrder kcp) (hnxt : kcp.sndNxt.toNat < 2 ^ 31)
    {una : IUINT32} (huna : una.toNat < 2 ^ 31) :
    Acked kcp (ikcpParseUna kcp una) (fun i => i < una.toNat) ∧
      ∀ i ∈ (ikcpParseUna kcp una).unacked, una.toNat ≤ i := by
  have hsmall : ∀ seg ∈ kcp.sndBuf,
      decide (0 < itimediff una seg.sn) = decide (seg.sn.toNat < una.toNat) := by
    intro seg hin
    have hbelow := h.below _ (IKCPCB.mem_unacked.mpr ⟨seg, hin, rfl⟩)
    rw [itimediff_small huna (by omega)]
    apply decide_eq_decide.mpr
    omega
  have hsorted := h.sorted
  have hnum : (ikcpParseUna kcp una).unacked =
      kcp.unacked.dropWhile (fun i => decide (i < una.toNat)) := by
    change (kcp.sndBuf.dropWhile _).map _ = _
    rw [IKCPCB.unacked, List.dropWhile_map]
    congr 1
    generalize kcp.sndBuf = buf at hsmall
    induction buf with
    | nil => rfl
    | cons seg rest ih =>
        have hseg := hsmall seg (List.mem_cons_self ..)
        have hrest := ih (fun x hx => hsmall x (List.mem_cons_of_mem _ hx))
        simp only [List.dropWhile_cons, Function.comp_apply, hseg]
        split
        · exact hrest
        · rfl
  rw [hnum]
  refine ⟨⟨?_, ?_, rfl⟩, ?_⟩
  · rw [hnum]
    exact List.dropWhile_sublist _
  · intro i hin
    rw [hnum]
    rw [← List.takeWhile_append_dropWhile (p := fun i => decide (i < una.toNat))
      (l := kcp.unacked)] at hin
    rcases List.mem_append.mp hin with htaken | hleft
    · have htake := List.all_eq_true.mp List.all_takeWhile i htaken
      exact Or.inr (of_decide_eq_true htake)
    · exact Or.inl hleft
  · -- the first number that stays is at least `una`, and the others are larger
    generalize kcp.unacked = nums at hsorted
    induction nums with
    | nil => exact fun _ hin => absurd hin List.not_mem_nil
    | cons first rest ih =>
        obtain ⟨hfirst, hrest⟩ := List.pairwise_cons.mp hsorted
        rw [List.dropWhile_cons]
        split_ifs with hlt
        · exact ih hrest
        · have hge : una.toNat ≤ first := by simpa using hlt
          intro i hin
          rcases List.mem_cons.mp hin with rfl | htail
          · exact hge
          · exact hge.trans (Nat.le_of_lt (hfirst i htail))

theorem dropAcked_spec (sn : IUINT32) (buf : List IKCPSEG) :
    (dropAcked sn buf).Sublist buf ∧ ∀ seg ∈ buf, seg ∈ dropAcked sn buf ∨ seg.sn = sn := by
  induction buf with
  | nil => exact ⟨.slnil, fun _ hin => absurd hin List.not_mem_nil⟩
  | cons seg rest ih =>
      obtain ⟨hsub, hremoved⟩ := ih
      unfold dropAcked
      split_ifs with heq hpast
      · refine ⟨List.sublist_cons_self seg rest, ?_⟩
        intro x hx
        rcases List.mem_cons.mp hx with rfl | hin
        · exact Or.inr heq.symm
        · exact Or.inl hin
      · exact ⟨List.Sublist.refl _, fun _ hin => Or.inl hin⟩
      · refine ⟨hsub.cons_cons seg, ?_⟩
        intro x hx
        rcases List.mem_cons.mp hx with rfl | hin
        · exact Or.inl (List.mem_cons_self ..)
        · exact (hremoved x hin).imp (List.mem_cons_of_mem _) id

/-- `ikcp_parse_ack` drops one number at most. -/
theorem acked_ikcpParseAck (kcp : IKCPCB) (sn : IUINT32) :
    Acked kcp (ikcpParseAck kcp sn) (fun i => i = sn.toNat) := by
  unfold ikcpParseAck
  split_ifs
  · exact .of_same rfl rfl _
  · obtain ⟨hsub, hremoved⟩ := dropAcked_spec sn kcp.sndBuf
    refine ⟨hsub.map _, ?_, rfl⟩
    intro i hin
    obtain ⟨seg, hseg, rfl⟩ := IKCPCB.mem_unacked.mp hin
    rcases hremoved seg hseg with hkept | heq
    · exact Or.inl (List.mem_map_of_mem hkept)
    · exact Or.inr (by rw [heq])

/-- `ikcp_parse_fastack` counts, and leaves the numbers alone. -/
theorem unacked_parseMaxack (kcp : IKCPCB) (maxack : Option IUINT32) :
    (parseMaxack kcp maxack).unacked = kcp.unacked ∧
      (parseMaxack kcp maxack).sndUna = kcp.sndUna := by
  have hbump : ∀ (sn : IUINT32) (buf : List IKCPSEG),
      (bumpFastack sn buf).map (fun seg => seg.sn.toNat) = buf.map (fun seg => seg.sn.toNat) := by
    intro sn buf
    induction buf with
    | nil => rfl
    | cons seg rest ih =>
        unfold bumpFastack
        split_ifs
        · rfl
        · rw [List.map_cons, List.map_cons, ih]
        · rw [List.map_cons, List.map_cons, ih]
  cases maxack with
  | none => exact ⟨rfl, rfl⟩
  | some sn =>
      change (ikcpParseFastack kcp sn).unacked = _ ∧ (ikcpParseFastack kcp sn).sndUna = _
      unfold ikcpParseFastack
      split_ifs
      · exact ⟨rfl, rfl⟩
      · exact ⟨hbump sn kcp.sndBuf, rfl⟩

theorem unacked_ikcpUpdateAck (kcp : IKCPCB) (rtt : IUINT32) :
    (ikcpUpdateAck kcp rtt).unacked = kcp.unacked := by
  unfold ikcpUpdateAck
  dsimp only
  split_ifs <;> rfl

theorem sndBuf_inputPush (kcp : IKCPCB) (h : SegHeader) (payload : List Byte) :
    (inputPush kcp h payload).sndBuf = kcp.sndBuf ∧
      (inputPush kcp h payload).sndUna = kcp.sndUna := by
  have hdata : ∀ (kcp : IKCPCB) (newseg : IKCPSEG),
      (ikcpParseData kcp newseg).sndBuf = kcp.sndBuf ∧
        (ikcpParseData kcp newseg).sndUna = kcp.sndUna := by
    intro kcp newseg
    unfold ikcpParseData
    split_ifs
    · exact ⟨rfl, rfl⟩
    · cases insertBackward newseg kcp.rcvBuf.reverse <;> exact ⟨rfl, rfl⟩
  unfold inputPush
  dsimp only
  split_ifs
  · exact hdata _ _
  · exact ⟨rfl, rfl⟩
  · exact ⟨rfl, rfl⟩

/-- What every segment does first: it tells the window and `una` of the peer. -/
def readHeader (kcp : IKCPCB) (h : SegHeader) : IKCPCB :=
  ikcpShrinkBuf (ikcpParseUna { kcp with rmtWnd := h.wnd.setWidth 32 } h.una)

theorem inputSegment_eq (kcp : IKCPCB) (maxack : Option IUINT32) (h : SegHeader)
    (payload : List Byte) :
    inputSegment kcp maxack h payload =
      if h.cmd = ikcpCmdAck then (inputAck (readHeader kcp h) h, nextMaxack maxack h.sn)
      else if h.cmd = ikcpCmdPush then (inputPush (readHeader kcp h) h payload, maxack)
      else if h.cmd = ikcpCmdWask then
        ({ readHeader kcp h with probe := (readHeader kcp h).probe ||| ikcpAskTell }, maxack)
      else (readHeader kcp h, maxack) := rfl

theorem readHeader_frame (kcp : IKCPCB) (h : SegHeader) :
    SameRcv kcp (readHeader kcp h) ∧ SndFrame kcp (readHeader kcp h) ∧
      (readHeader kcp h).acklist = kcp.acklist := by
  refine ⟨?_, ?_, ikcpShrinkBuf_acklist _⟩
  · exact SameRcv.trans ⟨rfl, rfl, rfl, rfl⟩ (sameRcv_ikcpShrinkBuf _)
  · have hwnd : SndFrame kcp { kcp with rmtWnd := h.wnd.setWidth 32 } :=
      .of_same rfl rfl rfl rfl rfl rfl rfl
    exact hwnd.trans ((sndFrame_ikcpParseUna _ h.una).trans (sndFrame_ikcpShrinkBuf _))

theorem readHeader_acked {kcp : IKCPCB} (h : SendOrder kcp) (hnxt : kcp.sndNxt.toNat < 2 ^ 31)
    {hd : SegHeader} (huna : hd.una.toNat < 2 ^ 31) :
    SendOrder (readHeader kcp hd) ∧ Acked kcp (readHeader kcp hd) (fun i => i < hd.una.toNat) ∧
      ∀ i ∈ (readHeader kcp hd).unacked, hd.una.toNat ≤ i := by
  have hwnd : SendOrder { kcp with rmtWnd := hd.wnd.setWidth 32 } := h.congr rfl rfl rfl
  obtain ⟨hacked, hleft⟩ := acked_ikcpParseUna hwnd hnxt huna
  refine ⟨hwnd.shrink hacked.sublist hacked.sndNxt, ⟨?_, ?_, ?_⟩, ?_⟩
  · rw [readHeader, unacked_ikcpShrinkBuf]
    exact hacked.sublist
  · rw [readHeader, unacked_ikcpShrinkBuf]
    exact hacked.removed
  · exact (readHeader_frame kcp hd).2.1.sndNxt
  · rw [readHeader, unacked_ikcpShrinkBuf]
    exact hleft

/-- An acknowledgement takes one number more. -/
theorem inputAck_acked {kcp : IKCPCB} (h : SendOrder kcp) (hd : SegHeader) :
    SendOrder (inputAck kcp hd) ∧ Acked kcp (inputAck kcp hd) (fun i => i = hd.sn.toNat) := by
  have hone : ∀ {kcp₁ : IKCPCB}, kcp₁.unacked = kcp.unacked → kcp₁.sndNxt = kcp.sndNxt →
      SendOrder (ikcpShrinkBuf (ikcpParseAck kcp₁ hd.sn)) ∧
        Acked kcp (ikcpShrinkBuf (ikcpParseAck kcp₁ hd.sn)) (fun i => i = hd.sn.toNat) := by
    intro kcp₁ hbuf hnxt
    obtain ⟨hsub, hremoved, hsame⟩ := acked_ikcpParseAck kcp₁ hd.sn
    rw [hbuf] at hsub hremoved
    refine ⟨h.shrink hsub (hsame.trans hnxt), ?_, ?_, ?_⟩
    · rw [unacked_ikcpShrinkBuf]
      exact hsub
    · rw [unacked_ikcpShrinkBuf]
      exact hremoved
    · exact ((sndFrame_ikcpShrinkBuf _).sndNxt.trans hsame).trans hnxt
  unfold inputAck
  dsimp only
  split_ifs
  · exact hone (unacked_ikcpUpdateAck _ _) (sndFrame_ikcpUpdateAck _ _).sndNxt
  · exact hone rfl rfl

/-- **What a segment takes out of the send buffer**: the numbers below its
    `una`, and its own number if it is an acknowledgement. -/
theorem inputSegment_acked {kcp : IKCPCB} (h : SendOrder kcp)
    (hnxt : kcp.sndNxt.toNat < 2 ^ 31) (maxack : Option IUINT32) {seg : IKCPSEG}
    (huna : seg.una.toNat < 2 ^ 31) :
    SendOrder (inputSegment kcp maxack seg.header seg.data).1 ∧
      Acked kcp (inputSegment kcp maxack seg.header seg.data).1
        (fun i => i < seg.una.toNat ∨ seg.cmd = ikcpCmdAck ∧ i = seg.sn.toNat) ∧
      ∀ i ∈ (inputSegment kcp maxack seg.header seg.data).1.unacked, seg.una.toNat ≤ i := by
  have huna' : seg.header.una.toNat < 2 ^ 31 := huna
  obtain ⟨horder, hacked, hleft⟩ := readHeader_acked h hnxt huna'
  have hrest : ∀ {kcp' : IKCPCB}, kcp'.unacked = (readHeader kcp seg.header).unacked →
      kcp'.sndUna = (readHeader kcp seg.header).sndUna →
      kcp'.sndNxt = (readHeader kcp seg.header).sndNxt →
      SendOrder kcp' ∧ Acked kcp kcp'
        (fun i => i < seg.una.toNat ∨ seg.cmd = ikcpCmdAck ∧ i = seg.sn.toNat) ∧
        ∀ i ∈ kcp'.unacked, seg.una.toNat ≤ i := by
    intro kcp' hbuf hself hsame
    refine ⟨horder.congr hbuf hself hsame, ⟨?_, ?_, hsame.trans hacked.sndNxt⟩, ?_⟩
    · rw [hbuf]
      exact hacked.sublist
    · rw [hbuf]
      exact fun i hin => (hacked.removed i hin).imp id Or.inl
    · rw [hbuf]
      exact hleft
  rw [inputSegment_eq]
  split_ifs with hack hpush hwask
  · obtain ⟨horder', hone⟩ := inputAck_acked horder seg.header
    obtain ⟨hsub, hremoved, hsame⟩ := hacked.trans hone
    refine ⟨horder', ⟨hsub, ?_, hsame⟩, ?_⟩
    · intro i hin
      exact (hremoved i hin).imp id (Or.imp id (fun heq => ⟨hack, heq⟩))
    · intro i hin
      exact hleft i (hone.sublist.subset hin)
  · obtain ⟨hbuf, hself⟩ := sndBuf_inputPush (readHeader kcp seg.header) seg.header seg.data
    apply hrest
    · exact congrArg (List.map _) hbuf
    · exact hself
    · exact (sndFrame_inputPush _ _ _).sndNxt
  · exact hrest rfl rfl rfl
  · exact hrest rfl rfl rfl

/-- **The acknowledgements a segment calls for**: one for a PUSH segment below
    the upper edge of the window, none for any other. -/
theorem inputSegment_acklist (kcp : IKCPCB) (maxack : Option IUINT32) (seg : IKCPSEG) :
    (inputSegment kcp maxack seg.header seg.data).1.acklist = kcp.acklist ++
      if seg.cmd = ikcpCmdPush ∧ kcp.acknowledges seg.sn then [(seg.sn, seg.ts)] else [] := by
  obtain ⟨⟨hcfg, -, -, hnxt⟩, -, hacks⟩ := readHeader_frame kcp seg.header
  have hself : (readHeader kcp seg.header).acknowledges seg.sn = kcp.acknowledges seg.sn := by
    rw [IKCPCB.acknowledges, IKCPCB.acknowledges, hnxt, hcfg]
  have hnone : seg.cmd ≠ ikcpCmdPush →
      (if seg.cmd = ikcpCmdPush ∧ kcp.acknowledges seg.sn then [(seg.sn, seg.ts)] else []) =
        [] := fun hne => if_neg (fun hboth => hne hboth.1)
  rw [inputSegment_eq]
  by_cases hack : seg.header.cmd = ikcpCmdAck
  · have hne : seg.cmd ≠ ikcpCmdPush := by
      rw [show seg.cmd = ikcpCmdAck from hack]
      decide
    rw [if_pos hack, hnone hne, inputAck_acklist, hacks, List.append_nil]
  rw [if_neg hack]
  by_cases hpush : seg.header.cmd = ikcpCmdPush
  · rw [if_pos hpush]
    have hcmd : seg.cmd = ikcpCmdPush := hpush
    dsimp only
    rw [inputPush_eq, hself]
    by_cases hin : kcp.acknowledges seg.sn
    · have hboth : seg.cmd = ikcpCmdPush ∧ kcp.acknowledges seg.sn := ⟨hcmd, hin⟩
      rw [if_pos hin, if_pos hboth, ← hacks]
      split_ifs
      · exact ikcpParseData_acklist _ _
      · rfl
    · rw [if_neg hin, if_neg (fun hboth => hin hboth.2), hacks, List.append_nil]
  · rw [if_neg hpush, hnone hpush, List.append_nil]
    split_ifs
    · exact hacks
    · exact hacks

/-! ## A flush -/

/-- **A flush puts the next numbers behind those in the buffer**, as far as the
    window goes. -/
theorem Flushed.unacked {kcp kcp' : IKCPCB} {n : Nat} (h : Flushed kcp kcp' n)
    (hlen : kcp.sndNxt.toNat + kcp.sndQueue.length < 2 ^ 32) :
    kcp'.unacked = kcp.unacked ++ List.range' kcp.sndNxt.toNat n := by
  have hmoved := h.moved
  have hstamped : ((kcp.sndQueue.take n).mapIdx
      (fun i seg => stampSegment kcp (kcp.sndNxt + BitVec.ofNat 32 i) seg)).map
        (fun seg => seg.sn.toNat) = List.range' kcp.sndNxt.toNat n := by
    apply List.ext_getElem
    · simp only [List.length_map, List.length_mapIdx, List.length_take, List.length_range']
      omega
    · intro i hi _
      simp only [List.length_map, List.length_mapIdx, List.length_take] at hi
      rw [List.getElem_map, List.getElem_mapIdx, List.getElem_range', one_mul]
      exact toNat_add_ofNat (by omega)
  have hkept : ∀ seg : IKCPSEG,
      ((dueSegment (afterMove kcp) seg).getD seg).sn = seg.sn := by
    intro seg
    exact (sameContent_getD_dueSegment (afterMove kcp) seg).2.2.2.1
  rw [IKCPCB.unacked, h.sndBuf, List.map_map]
  simp only [Function.comp_def, hkept]
  rw [h.buffer, List.map_append, hstamped]
  rfl

theorem sendWindow_le {kcp : IKCPCB} (hcfg : kcp.cfg = tunnelCfg kcp.conv) :
    (sendWindow kcp).toNat ≤ 32 ∧ (kcp.rmtWnd ≠ 0 → sendWindow kcp ≠ 0) := by
  have hwindow : sendWindow kcp = imin 32 kcp.rmtWnd := by
    rw [sendWindow, hcfg]
    rfl
  rw [hwindow, imin]
  split_ifs with hle
  · exact ⟨by decide, fun _ => by decide⟩
  · have hlt : kcp.rmtWnd < 32 := BitVec.not_le.mp hle
    exact ⟨Nat.le_of_lt (BitVec.lt_def.mp hlt), id⟩

theorem SendOrder.flushed {kcp kcp' : IKCPCB} {n : Nat} (h : SendOrder kcp)
    (hcfg : kcp.cfg = tunnelCfg kcp.conv) (hflush : Flushed kcp kcp' n)
    (hlen : kcp.sndNxt.toNat + kcp.sndQueue.length + 32 < 2 ^ 31) : SendOrder kcp' := by
  have hmoved := hflush.moved
  have hnums := hflush.unacked (by omega)
  have hnxt : kcp'.sndNxt.toNat = kcp.sndNxt.toNat + n := by
    rw [hflush.sndNxt]
    exact toNat_add_ofNat (by omega)
  have huna : kcp'.sndUna = kcp.sndUna := hflush.frame.sndUna
  have hle := h.una_le_nxt
  refine ⟨?_, ?_, ?_, ?_⟩
  · rw [hnums]
    refine List.pairwise_append.mpr ⟨h.sorted, List.pairwise_lt_range' .., ?_⟩
    intro a ha b hb
    exact (h.below a ha).trans_le (List.mem_range'_1.mp hb).1
  · rw [hnums, hnxt]
    intro i hin
    rcases List.mem_append.mp hin with hold | hnew
    · have hbelow := h.below i hold
      omega
    · exact (List.mem_range'_1.mp hnew).2
  · rw [huna, h.una, hnums, hnxt]
    cases hlist : kcp.unacked with
    | cons first rest => rfl
    | nil =>
        cases n with
        | zero => rfl
        | succ n => rfl
  · rw [huna, hnxt]
    have hwindow := h.window
    cases n with
    | zero => omega
    | succ n =>
        -- the last number moved was inside the window
        have hlast := hflush.within n (Nat.lt_succ_self n)
        have hsmall := (sendWindow_le hcfg).1
        have hend : (kcp.sndUna + sendWindow kcp).toNat =
            kcp.sndUna.toNat + (sendWindow kcp).toNat := by
          rw [BitVec.toNat_add]
          omega
        rw [itimediff_small (by rw [toNat_add_ofNat (by omega)]; omega) (by omega), hend,
          toNat_add_ofNat (by omega)] at hlast
        omega

end Kcp
end UdpSpeed
