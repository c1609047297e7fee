/-
  UdpSpeed.Kcp.Exchange

  The moves that bring a connection forward: a segment that is due goes out with
  the next flush, a datagram does at the other end what each of its segments
  asks for, and an end that is driven every ten milliseconds comes to any point
  of its clock.
-/

import UdpSpeed.Lib.LeadsTo
import UdpSpeed.Kcp.Head
import UdpSpeed.Kcp.Delivery

namespace UdpSpeed
namespace Kcp

open Endpoint SerialNumber

/-! ## What a segment leaves in the other fields -/

theorem probe_readHeader (kcp : IKCPCB) (h : SegHeader) :
    (readHeader kcp h).probe = kcp.probe ∧
      (readHeader kcp h).rmtWnd = h.wnd.setWidth 32 := by
  unfold readHeader ikcpShrinkBuf
  split <;> exact ⟨rfl, rfl⟩

theorem probe_inputAck (kcp : IKCPCB) (h : SegHeader) :
    (inputAck kcp h).probe = kcp.probe ∧ (inputAck kcp h).rmtWnd = kcp.rmtWnd := by
  have hshrink : ∀ kcp : IKCPCB, (ikcpShrinkBuf kcp).probe = kcp.probe ∧
      (ikcpShrinkBuf kcp).rmtWnd = kcp.rmtWnd := by
    intro kcp
    unfold ikcpShrinkBuf
    split <;> exact ⟨rfl, rfl⟩
  have hack : ∀ (kcp : IKCPCB) (sn : IUINT32), (ikcpParseAck kcp sn).probe = kcp.probe ∧
      (ikcpParseAck kcp sn).rmtWnd = kcp.rmtWnd := by
    intro kcp sn
    unfold ikcpParseAck
    split_ifs <;> exact ⟨rfl, rfl⟩
  have hupdate : ∀ (kcp : IKCPCB) (rtt : IUINT32), (ikcpUpdateAck kcp rtt).probe = kcp.probe ∧
      (ikcpUpdateAck kcp rtt).rmtWnd = kcp.rmtWnd := by
    intro kcp rtt
    unfold ikcpUpdateAck
    dsimp only
    split_ifs <;> exact ⟨rfl, rfl⟩
  unfold inputAck
  dsimp only
  rw [(hshrink _).1, (hshrink _).2, (hack _ _).1, (hack _ _).2]
  split_ifs
  · exact hupdate kcp _
  · exact ⟨rfl, rfl⟩

theorem probe_inputPush (kcp : IKCPCB) (h : SegHeader) (payload : List Byte) :
    (inputPush kcp h payload).probe = kcp.probe ∧
      (inputPush kcp h payload).rmtWnd = kcp.rmtWnd := by
  have hdata : ∀ (kcp : IKCPCB) (newseg : IKCPSEG),
      (ikcpParseData kcp newseg).probe = kcp.probe ∧
        (ikcpParseData kcp newseg).rmtWnd = kcp.rmtWnd := by
    intro kcp newseg
    unfold ikcpParseData
    split_ifs
    · exact ⟨rfl, rfl⟩
    · cases insertBackward newseg kcp.rcvBuf.reverse <;> exact ⟨rfl, rfl⟩
  unfold inputPush
  dsimp only
  split_ifs
  · exact hdata _ _
  · exact ⟨rfl, rfl⟩
  · exact ⟨rfl, rfl⟩

/-- **What a segment tells about the peer's window, and the answer it asks for.** -/
theorem inputSegment_probe (kcp : IKCPCB) (maxack : Option IUINT32) (seg : IKCPSEG) :
    (inputSegment kcp maxack seg.header seg.data).1.probe =
        (if seg.cmd = ikcpCmdWask then kcp.probe ||| ikcpAskTell else kcp.probe) ∧
      (inputSegment kcp maxack seg.header seg.data).1.rmtWnd =
        (seg.wnd.setWidth 16).setWidth 32 := by
  obtain ⟨hprobe, hwnd⟩ := probe_readHeader kcp seg.header
  have hcmd : seg.header.cmd = seg.cmd := rfl
  rw [inputSegment_eq, hcmd]
  by_cases hack : seg.cmd = ikcpCmdAck
  · have hne : seg.cmd ≠ ikcpCmdWask := by
      rw [hack]
      decide
    rw [if_pos hack, if_neg hne, (probe_inputAck _ _).1, (probe_inputAck _ _).2]
    exact ⟨hprobe, hwnd⟩
  rw [if_neg hack]
  by_cases hpush : seg.cmd = ikcpCmdPush
  · have hne : seg.cmd ≠ ikcpCmdWask := by
      rw [hpush]
      decide
    rw [if_pos hpush, if_neg hne, (probe_inputPush _ _ _).1, (probe_inputPush _ _ _).2]
    exact ⟨hprobe, hwnd⟩
  rw [if_neg hpush]
  by_cases hwask : seg.cmd = ikcpCmdWask
  · rw [if_pos hwask, if_pos hwask]
    dsimp only
    rw [hprobe]
    exact ⟨rfl, hwnd⟩
  · rw [if_neg hwask, if_neg hwask]
    exact ⟨hprobe, hwnd⟩

/-! ## A datagram at the other end -/

/-- Two ends in order, before their numbers leave the lower half. -/
structure Live (e o : Endpoint) : Prop where
  pair : Paired e o
  short : e.Short
  short' : o.Short

namespace Live

variable {e o : Endpoint}

theorem symm (h : Live e o) : Live o e := ⟨h.pair.symm, h.short', h.short⟩

theorem early (h : Live e o) : e.kcp.Early := h.pair.early h.short'

theorem segment (h : Live e o) (maxack : Option IUINT32) {seg : IKCPSEG} (hg : o.Genuine seg) :
    Live { e with kcp := (inputSegment e.kcp maxack seg.header seg.data).1 } o := by
  refine ⟨h.pair.segment h.short h.short' maxack hg, ?_, h.short'⟩
  have hs := h.short
  unfold Endpoint.Short fragments at hs ⊢
  dsimp only
  rw [IKCPCB.conv, inputSegment_cfg]
  exact hs

/-- What a segment of the datagram achieves is there when the datagram has been
    processed, if those before it do not get in the way and those behind it
    leave it. -/
theorem segments_reach (Pre Post : IKCPCB → Prop) {seg : IKCPSEG}
    (hpre : ∀ (e : Endpoint) maxack (x : IKCPSEG), Live e o → o.Genuine x → Pre e.kcp →
      Pre (inputSegment e.kcp maxack x.header x.data).1)
    (hhit : ∀ (e : Endpoint) maxack, Live e o → Pre e.kcp →
      Post (inputSegment e.kcp maxack seg.header seg.data).1)
    (hpost : ∀ (e : Endpoint) maxack (x : IKCPSEG), Live e o → o.Genuine x → Post e.kcp →
      Post (inputSegment e.kcp maxack x.header x.data).1)
    (h : Live e o) {group : List IKCPSEG} (hin : seg ∈ group) (hg : ∀ x ∈ group, o.Genuine x)
    (maxack : Option IUINT32) (hstart : Pre e.kcp) :
    Post (inputSegments e.kcp maxack group).1 := by
  have hkeep : ∀ (rest : List IKCPSEG) (e : Endpoint) (maxack : Option IUINT32), Live e o →
      (∀ x ∈ rest, o.Genuine x) → Post e.kcp → Post (inputSegments e.kcp maxack rest).1 := by
    intro rest
    induction rest with
    | nil => exact fun _ _ _ _ hp => hp
    | cons x rest ih =>
        intro e maxack h hg hp
        have hx := hg x (List.mem_cons_self ..)
        have hone := hpost e maxack x h hx hp
        exact ih { e with kcp := (inputSegment e.kcp maxack x.header x.data).1 } _
          (h.segment maxack hx) (fun y hy => hg y (List.mem_cons_of_mem _ hy)) hone
  induction group generalizing e maxack with
  | nil => cases hin
  | cons x rest ih =>
      have hx := hg x (List.mem_cons_self ..)
      have hrest : ∀ y ∈ rest, o.Genuine y := fun y hy => hg y (List.mem_cons_of_mem _ hy)
      rcases List.mem_cons.mp hin with rfl | htail
      · exact hkeep rest { e with kcp := (inputSegment e.kcp maxack seg.header seg.data).1 } _
          (h.segment maxack hx) hrest (hhit e maxack h hstart)
      · have hone := hpre e maxack x h hx hstart
        exact @ih { e with kcp := (inputSegment e.kcp maxack x.header x.data).1 }
          (h.segment maxack hx) htail hrest _ hone

/-- `ikcp_input` on a datagram of the other end. -/
theorem input_eq (h : Live e o) {group : List IKCPSEG} (hne : group ≠ [])
    (hg : ∀ x ∈ group, o.Genuine x) :
    e.input (wireAll group) =
      { e with
        kcp := growCwnd (parseMaxack (inputSegments e.kcp none group).1
          (inputSegments e.kcp none group).2) e.kcp.sndUna } := by
  have hread : ∀ seg ∈ group, seg.readable e.kcp.conv := by
    intro seg hin
    rw [← h.pair.out.conv]
    exact (hg seg hin).readable
  rw [Endpoint.input, ikcpInput_wireAll_eq hne hread]

/-- By induction on the segments. -/
theorem later_segments (h : Live e o) {group : List IKCPSEG} (hg : ∀ x ∈ group, o.Genuine x)
    (maxack : Option IUINT32) :
    Later e { e with kcp := (inputSegments e.kcp maxack group).1 } := by
  induction group generalizing e maxack with
  | nil => exact .refl e
  | cons x rest ih =>
      have hx := hg x (List.mem_cons_self ..)
      have hone := h.segment maxack hx
      have harr := inputSegment_arrived h.pair.here.rcv maxack x
      have hframe := sndFrame_inputSegment e.kcp maxack x.header x.data
      have hstep : Later e
          { e with kcp := (inputSegment e.kcp maxack x.header x.data).1 } := by
        refine ⟨congrArg IKCPCFG.conv hframe.cfg, List.prefix_rfl, ?_, ?_⟩
        · dsimp only
          rw [hframe.sndNxt]
        · exact fun i hi => (harr.has_iff i).mpr (Or.inl hi)
      exact hstep.trans (ih hone (fun y hy => hg y (List.mem_cons_of_mem _ hy)) _)

theorem input (h : Live e o) {group : List IKCPSEG} (hne : group ≠ [])
    (hg : ∀ x ∈ group, o.Genuine x) :
    Live (e.input (wireAll group)) o ∧ Later e (e.input (wireAll group)) := by
  have hemits : o.Emits (wireAll group) := ⟨group, hne, rfl, hg⟩
  have hpair := h.pair.input h.short h.short' hemits
  have hsegs := h.pair.segments h.short h.short' none hg
  have hlater := (h.later_segments hg none).trans
    (hsegs.here.afterSegments (inputSegments e.kcp none group).2 e.kcp.sndUna).2
  refine ⟨⟨hpair, ?_, h.short'⟩, ?_⟩
  · have hs := h.short
    unfold Endpoint.Short fragments at hs ⊢
    rw [Endpoint.input]
    dsimp only
    rw [IKCPCB.conv, ikcpInput_cfg]
    exact hs
  · rw [h.input_eq hne hg]
    exact hlater

/-- A number up to `rcv_nxt` is below the upper edge of the window. -/
theorem acknowledges (h : Live e o) {sn : IUINT32} (hle : sn.toNat ≤ e.kcp.rcvNxt.toNat) :
    e.kcp.acknowledges sn := by
  have hnxt := h.pair.here.rcv.rcvNxt_toNat h.early
  have hroom := h.pair.here.rcv.shape.room
  have hbound : e.kcp.readPos.toNat + 512 < 2 ^ 31 := h.early
  have hend : (e.kcp.rcvNxt + 128).toNat = e.kcp.rcvNxt.toNat + 128 :=
    @toNat_add_ofNat e.kcp.rcvNxt 128 (by omega)
  rw [IKCPCB.acknowledges, h.pair.here.rcv.wnd, decide_eq_true_eq,
    itimediff_small (by omega) (by omega), hend]
  omega

theorem rcvNxt_segment (h : Live e o) (maxack : Option IUINT32) {seg : IKCPSEG}
    (hg : o.Genuine seg) :
    e.kcp.rcvNxt.toNat ≤ (inputSegment e.kcp maxack seg.header seg.data).1.rcvNxt.toNat := by
  have hnxt := h.pair.here.rcv.rcvNxt_toNat h.early
  have hnxt' := (h.segment maxack hg).pair.here.rcv.rcvNxt_toNat (h.segment maxack hg).early
  have hpos := (inputSegment_arrived h.pair.here.rcv maxack seg).pos
  have hlen := (queueGrows_inputSegment e.kcp maxack seg.header seg.data).length_le
  dsimp only at hnxt'
  rw [hnxt, hnxt', hpos]
  omega

/-- **A PUSH segment up to `rcv_nxt` has arrived once its datagram has.** -/
theorem has_of_input (h : Live e o) {group : List IKCPSEG} {seg : IKCPSEG} (hin : seg ∈ group)
    (hg : ∀ x ∈ group, o.Genuine x) (hpush : seg.cmd = ikcpCmdPush)
    (hle : seg.sn.toNat ≤ e.kcp.rcvNxt.toNat) :
    (e.input (wireAll group)).kcp.Has seg.sn.toNat := by
  rw [h.input_eq (List.ne_nil_of_mem hin) hg]
  have hsame := (sameRcv_parseMaxack (inputSegments e.kcp none group).1
    (inputSegments e.kcp none group).2).trans (sameRcv_growCwnd _ e.kcp.sndUna)
  refine (hsame.has_iff _).mpr ?_
  refine segments_reach (fun kcp => seg.sn.toNat ≤ kcp.rcvNxt.toNat)
    (fun kcp => kcp.Has seg.sn.toNat) ?_ ?_ ?_ h hin hg none hle
  · intro e' maxack x h' hx hpre
    exact hpre.trans (h'.rcvNxt_segment maxack hx)
  · intro e' maxack h' hpre
    have hnxt := h'.pair.here.rcv.rcvNxt_toNat h'.early
    have hroom := h'.pair.here.rcv.shape.room
    have hbound : e'.kcp.readPos.toNat + 512 < 2 ^ 31 := h'.early
    exact (inputSegment_arrived h'.pair.here.rcv maxack seg).has_of_acknowledges
      h'.pair.here.rcv h'.early hpush (by omega) (h'.acknowledges hpre)
  · intro e' maxack x h' _ hpost
    exact ((inputSegment_arrived h'.pair.here.rcv maxack x).has_iff _).mpr (Or.inl hpost)

/-- It is acknowledged, whether or not it is new. -/
theorem acklist_of_input (h : Live e o) {group : List IKCPSEG} {seg : IKCPSEG} (hin : seg ∈ group)
    (hg : ∀ x ∈ group, o.Genuine x) (hpush : seg.cmd = ikcpCmdPush)
    (hle : seg.sn.toNat ≤ e.kcp.rcvNxt.toNat) : (e.input (wireAll group)).kcp.acklist ≠ [] := by
  rw [h.input_eq (List.ne_nil_of_mem hin) hg]
  dsimp only
  rw [(afterSegments_rest _ _ _).2.1]
  refine segments_reach (fun kcp => seg.sn.toNat ≤ kcp.rcvNxt.toNat)
    (fun kcp => kcp.acklist ≠ []) ?_ ?_ ?_ h hin hg none hle
  · intro e' maxack x h' hx hpre
    exact hpre.trans (h'.rcvNxt_segment maxack hx)
  · intro e' maxack h' hpre
    rw [inputSegment_acklist, if_pos ⟨hpush, h'.acknowledges hpre⟩]
    simp
  · intro e' maxack x _ _ hpost
    rw [inputSegment_acklist]
    simp [hpost]

theorem probe_or_tell (probe : IUINT32) : (probe ||| ikcpAskTell) &&& ikcpAskTell ≠ 0 := by
  have habsorb : (probe ||| ikcpAskTell) &&& ikcpAskTell = ikcpAskTell := by
    ext i hi
    simp only [BitVec.getElem_and, BitVec.getElem_or]
    cases ikcpAskTell[i] <;> simp
  rw [habsorb]
  decide

/-- A window probe is answered. -/
theorem probe_of_input (h : Live e o) {group : List IKCPSEG} {seg : IKCPSEG} (hin : seg ∈ group)
    (hg : ∀ x ∈ group, o.Genuine x) (hwask : seg.cmd = ikcpCmdWask) :
    (e.input (wireAll group)).kcp.probe &&& ikcpAskTell ≠ 0 := by
  rw [h.input_eq (List.ne_nil_of_mem hin) hg]
  dsimp only
  rw [(afterSegments_rest _ _ _).2.2.1]
  refine segments_reach (fun _ => True)
    (fun kcp => kcp.probe &&& ikcpAskTell ≠ 0) ?_ ?_ ?_ h hin hg none trivial
  · exact fun _ _ _ _ _ _ => trivial
  · intro e' maxack _ _
    rw [(inputSegment_probe e'.kcp maxack seg).1, if_pos hwask]
    exact probe_or_tell e'.kcp.probe
  · intro e' maxack x _ _ hpost
    rw [(inputSegment_probe e'.kcp maxack x).1]
    split_ifs
    · exact probe_or_tell e'.kcp.probe
    · exact hpost

/-- **A datagram with one window and one `una`** leaves the end with that window
    and nothing unacknowledged before `una`. -/
theorem window_of_input (h : Live e o) {group : List IKCPSEG} (hne : group ≠ [])
    (hg : ∀ x ∈ group, o.Genuine x) {una wnd : IUINT32}
    (hhead : ∀ x ∈ group, x.una = una ∧ x.wnd = wnd) :
    (e.input (wireAll group)).kcp.rmtWnd = (wnd.setWidth 16).setWidth 32 ∧
      ∀ i ∈ (e.input (wireAll group)).kcp.unacked, una.toNat ≤ i := by
  have hloop : ∀ (group : List IKCPSEG) (e : Endpoint) (maxack : Option IUINT32), Live e o →
      group ≠ [] → (∀ x ∈ group, o.Genuine x) → (∀ x ∈ group, x.una = una ∧ x.wnd = wnd) →
      (inputSegments e.kcp maxack group).1.rmtWnd = (wnd.setWidth 16).setWidth 32 ∧
        ∀ i ∈ (inputSegments e.kcp maxack group).1.unacked, una.toNat ≤ i := by
    intro group
    induction group with
    | nil => exact fun _ _ _ hne => absurd rfl hne
    | cons x rest ih =>
        intro e maxack h _ hg hhead
        have hx := hg x (List.mem_cons_self ..)
        obtain ⟨hxuna, hxwnd⟩ := hhead x (List.mem_cons_self ..)
        cases rest with
        | nil =>
            have hadd := h.pair.here.sndNxt_add h.short
            have hshort : e.fragments.length + 1024 < 2 ^ 31 := h.short
            have hle := h.pair.out.una_le hx
            obtain ⟨-, -, hleft⟩ := inputSegment_acked h.pair.here.order (by omega) maxack
              (show x.una.toNat < 2 ^ 31 by omega)
            rw [hxuna] at hleft
            refine ⟨?_, hleft⟩
            rw [← hxwnd]
            exact (inputSegment_probe e.kcp maxack x).2
        | cons y rest =>
            exact ih { e with kcp := (inputSegment e.kcp maxack x.header x.data).1 } _
              (h.segment maxack hx) (List.cons_ne_nil y rest)
              (fun z hz => hg z (List.mem_cons_of_mem _ hz))
              (fun z hz => hhead z (List.mem_cons_of_mem _ hz))
  rw [h.input_eq hne hg]
  dsimp only
  rw [(afterSegments_rest _ _ _).2.2.2, (afterSegments_unacked _ _ _).1]
  exact hloop group e none h hne hg hhead

end Live

/-! ## The clock -/

namespace Endpoint

/-- The clock and the schedule are set; what an update that flushes does first. -/
def ticked (e : Endpoint) (clock ts : IUINT32) : Endpoint :=
  { e with kcp := { e.kcp with current := clock, updated := true, tsFlush := ts } }

/-- The next flush is due within ten milliseconds. -/
structure Near (e : Endpoint) : Prop where
  updated : e.kcp.updated = true
  later : 1 ≤ offset e.kcp.current e.kcp.tsFlush
  soon : offset e.kcp.current e.kcp.tsFlush ≤ 10

theorem offset_clock_ten (clock : IUINT32) : offset clock (clock + 10) = 10 :=
  offset_add clock (n := 10) (by decide)

theorem itimediff_clock_ten (clock : IUINT32) :
    itimediff clock (clock + 10) = -10 ∧ itimediff (clock + 10) clock = 10 := by
  have hself : offset clock clock = 0 := offset_eq_zero_iff.mpr rfl
  have hten := offset_clock_ten clock
  constructor
  · rw [@itimediff_from clock clock (clock + 10) (by omega) (by omega), hself, hten]
    rfl
  · rw [@itimediff_from clock (clock + 10) clock (by omega) (by omega), hself, hten]
    rfl

/-- After a flush the next one is at most ten milliseconds away. -/
theorem nextFlush_soon {clock due : IUINT32}
    (htime : ¬ (itimediff clock due < 0 ∧ -10000 ≤ itimediff clock due)) :
    1 ≤ offset clock (nextFlush 10 clock due) ∧ offset clock (nextFlush 10 clock due) ≤ 10 := by
  have hten := offset_clock_ten clock
  unfold nextFlush
  dsimp only
  by_cases hjump : 10000 ≤ itimediff clock due ∨ itimediff clock due < -10000
  · rw [if_pos hjump, (itimediff_clock_ten clock).1, if_neg (by decide), hten]
    exact ⟨by decide, le_rfl⟩
  · -- the schedule goes on: `due` is less than ten seconds ago
    have hpast : 0 ≤ itimediff clock due := by omega
    obtain ⟨hhalf, hdiff⟩ := offset_of_itimediff_nonneg hpast
    have hnext := offset_clock_ten due
    rw [if_neg hjump, @itimediff_from due clock (due + 10) hhalf (by omega), hnext]
    split_ifs with hlate
    · rw [hten]
      exact ⟨by decide, le_rfl⟩
    · have hoff := @offset_from due clock (due + 10) (10 - offset due clock) (by omega) (by omega)
      rw [hoff]
      omega

theorem Near.of_flush {e : Endpoint} {clock ts : IUINT32} (hlater : 1 ≤ offset clock ts)
    (hsoon : offset clock ts ≤ 10) : Near (e.ticked clock ts).flush := by
  obtain ⟨n, hflush⟩ := @ikcpFlush_flushed (e.ticked clock ts).kcp rfl
  have hcurrent : (e.ticked clock ts).flush.kcp.current = clock := hflush.current
  have hts : (e.ticked clock ts).flush.kcp.tsFlush = ts := hflush.frame.tsFlush
  refine ⟨hflush.frame.updated, ?_, ?_⟩
  · rw [hcurrent, hts]
    exact hlater
  · rw [hcurrent, hts]
    exact hsoon

/-- At some time from now on an update flushes. -/
theorem wake (e : Endpoint) (hcfg : e.kcp.cfg.interval = 10) :
    ∃ clock ts, 0 ≤ itimediff clock e.kcp.current ∧
      e.update clock = (e.ticked clock ts).flush ∧ 1 ≤ offset clock ts ∧ offset clock ts ≤ 10 := by
  have hzero : ∀ x : IUINT32, itimediff x x = 0 := by
    intro x
    rw [itimediff, sub_self]
    rfl
  have hgo : ∀ clock, 0 ≤ itimediff clock e.kcp.current →
      ¬ (itimediff clock (scheduled e.kcp clock) < 0 ∧
        -10000 ≤ itimediff clock (scheduled e.kcp clock)) →
      ∃ clock ts, 0 ≤ itimediff clock e.kcp.current ∧
        e.update clock = (e.ticked clock ts).flush ∧ 1 ≤ offset clock ts ∧
          offset clock ts ≤ 10 := by
    intro clock hforward htime
    refine ⟨clock, nextFlush 10 clock (scheduled e.kcp clock), hforward, ?_, nextFlush_soon htime⟩
    rw [update_eq, if_neg htime, hcfg]
    rfl
  by_cases htime : itimediff e.kcp.current (scheduled e.kcp e.kcp.current) < 0 ∧
      -10000 ≤ itimediff e.kcp.current (scheduled e.kcp e.kcp.current)
  · -- scheduled for later, by less than ten seconds: wait for it
    have hupd : e.kcp.updated = true := by
      by_contra hnot
      rw [scheduled, if_neg hnot, hzero] at htime
      omega
    have hsched : ∀ clock, scheduled e.kcp clock = e.kcp.tsFlush := by
      intro clock
      rw [scheduled, if_pos hupd]
    rw [hsched] at htime
    refine hgo e.kcp.tsFlush ?_ ?_
    · have hneg : itimediff e.kcp.tsFlush e.kcp.current =
          -itimediff e.kcp.current e.kcp.tsFlush := by
        have hsub : e.kcp.tsFlush - e.kcp.current = -(e.kcp.current - e.kcp.tsFlush) := by
          rw [neg_sub]
        rw [itimediff, itimediff, hsub]
        apply BitVec.toInt_neg_of_ne_intMin
        intro hmin
        rw [itimediff, hmin] at htime
        exact absurd htime.2 (by decide)
      omega
    · rw [hsched, hzero]
      omega
  · refine hgo e.kcp.current ?_ htime
    rw [hzero]

/-- Ten milliseconds later it flushes again. -/
theorem Near.tick {e : Endpoint} (h : Near e) (hcfg : e.kcp.cfg.interval = 10) :
    ∃ ts, e.update (e.kcp.current + 10) = (e.ticked (e.kcp.current + 10) ts).flush ∧
      1 ≤ offset (e.kcp.current + 10) ts ∧ offset (e.kcp.current + 10) ts ≤ 10 := by
  have hlater := h.later
  have hsoon := h.soon
  have hten := offset_clock_ten e.kcp.current
  have hsched : scheduled e.kcp (e.kcp.current + 10) = e.kcp.tsFlush := by
    rw [scheduled, if_pos h.updated]
  have htime : ¬ (itimediff (e.kcp.current + 10) e.kcp.tsFlush < 0 ∧
      -10000 ≤ itimediff (e.kcp.current + 10) e.kcp.tsFlush) := by
    rw [@itimediff_from e.kcp.current (e.kcp.current + 10) e.kcp.tsFlush (by omega) (by omega),
      hten]
    omega
  refine ⟨nextFlush 10 (e.kcp.current + 10) e.kcp.tsFlush, ?_, nextFlush_soon htime⟩
  rw [update_eq, hsched, if_neg htime, hcfg]
  rfl

/-- The end is driven, with a clock that does not run backwards. -/
def Driven (e e' : Endpoint) : Prop :=
  ∃ clock, 0 ≤ itimediff clock e.kcp.current ∧ e' = e.update clock

/-- **Driven every ten milliseconds, an end gets to any point of its clock.**  By
    induction on the time that is left. -/
theorem driven_until {I P : Endpoint → Prop} (due : IUINT32)
    (hcfg : ∀ e, I e → e.kcp.cfg.interval = 10)
    (hstep : ∀ e ts, I e → Near e → 1 ≤ offset (e.kcp.current + 10) ts →
      offset (e.kcp.current + 10) ts ≤ 10 →
      P (e.ticked (e.kcp.current + 10) ts).flush ∨
        I (e.ticked (e.kcp.current + 10) ts).flush ∧ itimediff (e.kcp.current + 10) due < 0) :
    LeadsTo Driven (fun e => I e ∧ Near e) P := by
  apply LeadsTo.of_measure (fun e => offset e.kcp.current due)
  rintro d e ⟨⟨h, hnear⟩, hd⟩
  obtain ⟨ts, hupdate, hlater, hsoon⟩ := hnear.tick (hcfg e h)
  have hten := offset_clock_ten e.kcp.current
  have hone : Driven e (e.ticked (e.kcp.current + 10) ts).flush :=
    ⟨e.kcp.current + 10, by rw [(itimediff_clock_ten _).2]; decide, hupdate.symm⟩
  refine ⟨_, .single hone, ?_⟩
  refine (hstep e ts h hnear hlater hsoon).imp id ?_
  rintro ⟨hi, hnot⟩
  have hmore : 10 < d := by
    by_contra hle
    rw [@itimediff_from e.kcp.current (e.kcp.current + 10) due (by omega) (by omega), hten,
      hd] at hnot
    omega
  have hcurrent : (e.ticked (e.kcp.current + 10) ts).flush.kcp.current = e.kcp.current + 10 := by
    obtain ⟨n, hflush⟩ := @ikcpFlush_flushed (e.ticked (e.kcp.current + 10) ts).kcp rfl
    exact hflush.current
  have hleft : offset (e.kcp.current + 10) due = offset e.kcp.current due - 10 :=
    @offset_add_base 32 e.kcp.current due 10 (by omega)
  refine ⟨⟨hi, .of_flush hlater hsoon⟩, ?_⟩
  rw [hcurrent, hleft]
  omega

end Endpoint

end Kcp
end UdpSpeed
