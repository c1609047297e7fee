/-
  UdpSpeed.Kcp.Link

  Two KCP objects of one conversation and a network between them that loses,
  repeats, delays and reorders datagrams at will.  Every segment on the wire is
  genuine, so a fragment that arrives is the one that was sent under its number,
  and one that leaves a send buffer has arrived.
-/

import UdpSpeed.Lib.EventSystem
import UdpSpeed.Kcp.Endpoint

namespace UdpSpeed
namespace Kcp

open Endpoint

/-! ## The system -/

inductive Side where
  | left
  | right
deriving DecidableEq, Repr

def Side.other : Side → Side
  | .left => .right
  | .right => .left

@[simp] theorem Side.other_other (side : Side) : side.other.other = side := by
  cases side <;> rfl

theorem Side.other_ne (side : Side) : side.other ≠ side := by
  cases side <;> decide

theorem Side.eq_or_other (side x : Side) : x = side ∨ x = side.other := by
  cases side <;> cases x <;> decide

/-- The two ends. -/
abbrev Link := Side → Endpoint

/-- A call at one end, or a datagram that reaches it: number `k` of those the
    other end has ever put out. -/
inductive LinkEvent where
  | send (side : Side) (msg : List Byte)
  | recv (side : Side) (len : Nat)
  | update (side : Side) (clock : IUINT32)
  | flush (side : Side)
  | deliver (side : Side) (k : Nat)
deriving DecidableEq, Repr

namespace Link

def create (conv : IUINT32) : Link := fun _ => .create conv

def step (l : Link) : LinkEvent → Option Link
  | .send side msg => some (Function.update l side ((l side).send msg))
  | .recv side len => some (Function.update l side ((l side).recv len))
  | .update side clock => some (Function.update l side ((l side).update clock))
  | .flush side => some (Function.update l side (l side).flush)
  | .deliver side k =>
      ((l side.other).output[k]?).map
        (fun datagram => Function.update l side ((l side).input datagram))

/-- Neither end has accepted so much that its numbers leave the lower half. -/
def Short (l : Link) : Prop := ∀ side, (l side).Short

end Link

/-! ## One direction -/

namespace Endpoint

/-- What holds between the sender `s` and the receiver `r` of a direction. -/
structure Carries (s r : Endpoint) : Prop where
  conv : r.kcp.conv = s.kcp.conv
  received : r.received <+: s.accepted
  copies : ∀ seg ∈ r.kcp.waiting, IsFragment s.fragments seg
  within : ∀ i, r.kcp.Has i → i < s.kcp.sndNxt.toNat
  kept : ∀ i < s.kcp.sndNxt.toNat, r.kcp.Has i ∨ i ∈ s.kcp.unacked

theorem carries_create (conv : IUINT32) : Carries (create conv) (create conv) where
  conv := rfl
  received := List.prefix_rfl
  copies := fun _ hin => absurd hin List.not_mem_nil
  within := by
    have hzero : (create conv).kcp.readPos = 0 :=
      show (0 : IUINT32) - BitVec.ofNat 32 0 = 0 by decide
    rintro i (hlt | ⟨seg, hin, -⟩)
    · rw [hzero] at hlt
      exact absurd hlt (Nat.not_lt_zero i)
    · exact absurd hin List.not_mem_nil
  kept := fun _ hlt => absurd hlt (Nat.not_lt_zero _)

variable {s s' r r' : Endpoint}

/-- The sender goes on. -/
theorem Carries.sender (h : Carries s r) (hlater : Later s s')
    (hkept : ∀ i < s'.kcp.sndNxt.toNat, r.kcp.Has i ∨ i ∈ s'.kcp.unacked) : Carries s' r where
  conv := h.conv.trans hlater.conv.symm
  received := h.received.trans hlater.accepted
  copies := by
    intro seg hin
    obtain ⟨more, hmore⟩ := hlater.fragments
    rw [← hmore]
    exact (h.copies seg hin).append more
  within := fun i hi => (h.within i hi).trans_le hlater.sndNxt
  kept := hkept

/-- The sender has the same segments in its buffer. -/
theorem Carries.sender_same (h : Carries s r) (hlater : Later s s')
    (hnxt : s'.kcp.sndNxt = s.kcp.sndNxt) (hbuf : s'.kcp.unacked = s.kcp.unacked) :
    Carries s' r := by
  apply h.sender hlater
  rw [hnxt, hbuf]
  exact h.kept

/-- The receive side is the same. -/
theorem Carries.receiver_same (h : Carries s r) (hsame : SameRcv r.kcp r'.kcp)
    (hrec : r'.received = r.received) : Carries s r' where
  conv := (congrArg IKCPCFG.conv hsame.1).trans h.conv
  received := by
    rw [hrec]
    exact h.received
  copies := by
    obtain ⟨-, hqueue, hbuf, -⟩ := hsame
    rw [IKCPCB.waiting, hqueue, hbuf]
    exact h.copies
  within := fun i hi => h.within i ((hsame.has_iff i).mp hi)
  kept := fun i hi => (h.kept i hi).imp (hsame.has_iff i).mpr id

/-- The receiver has read no further than the sender has numbered. -/
theorem Carries.readPos_le (h : Carries s r) :
    r.kcp.readPos.toNat ≤ s.kcp.sndNxt.toNat := by
  rcases Nat.eq_zero_or_pos r.kcp.readPos.toNat with hzero | hpos
  · omega
  · have hlast := h.within (r.kcp.readPos.toNat - 1) (Or.inl (by omega))
    omega

theorem Carries.early (h : Carries s r) (hinv : Inv s) (hs : s.Short) : r.kcp.Early := by
  have hread := h.readPos_le
  have hadd := hinv.sndNxt_add hs
  unfold Short at hs
  unfold IKCPCB.Early
  omega

/-- Nothing genuine acknowledges what has not been sent. -/
theorem Carries.una_le (h : Carries s r) {seg : IKCPSEG} (hg : r.Genuine seg) :
    seg.una.toNat ≤ s.kcp.sndNxt.toNat := by
  rcases Nat.eq_zero_or_pos seg.una.toNat with hzero | hpos
  · omega
  · have hlast := h.within _ (hg.una (seg.una.toNat - 1) (by omega))
    omega

/-- **What the receiver reads next is the next message.** -/
theorem Carries.next (h : Carries s r) (hs : Inv s) (hr : Inv r) (hshort : s.Short)
    (hne : r.kcp.rcvQueue ≠ []) :
    ∃ msg rest, s.accepted = r.received ++ msg :: rest ∧
      (0 ≤ ikcpPeeksize r.kcp ↔
        (fragmentsOfMsg s.kcp.conv msg).length ≤ r.kcp.rcvQueue.length) ∧
      (0 ≤ ikcpPeeksize r.kcp →
        (headMessage r.kcp.rcvQueue).length = (fragmentsOfMsg s.kcp.conv msg).length ∧
          segBytes (headMessage r.kcp.rcvQueue) = msg) := by
  have hearly := h.early hs hshort
  obtain ⟨more, hmore⟩ := h.received
  have hpos : r.kcp.readPos.toNat = (fragmentsOf s.kcp.conv r.received).length := by
    have hlen := congrArg List.length (congrArg (fragmentsOf s.kcp.conv) hmore)
    rw [fragmentsOf_append, List.length_append] at hlen
    unfold Short fragments at hshort
    rw [hr.readPos, h.conv, BitVec.toNat_ofNat]
    omega
  have hfrags : s.fragments = fragmentsOf s.kcp.conv r.received ++ fragmentsOf s.kcp.conv more := by
    rw [fragments, ← hmore, fragmentsOf_append]
  -- the queue holds the fragments behind those read
  have hat : ∀ (i : Nat) (seg : IKCPSEG), r.kcp.rcvQueue[i]? = some seg →
      ∃ frag : IKCPSEG, (fragmentsOf s.kcp.conv more)[i]? = some frag ∧
        seg.content = frag.content := by
    intro i seg hi
    obtain ⟨frag, hfrag, hcontent⟩ :=
      h.copies seg (List.mem_append_left _ (List.mem_of_getElem? hi))
    refine ⟨frag, ?_, hcontent⟩
    rw [hr.rcv.queue_toNat hearly hi, hpos, hfrags,
      List.getElem?_append_right (Nat.le_add_right _ _), Nat.add_sub_cancel_left] at hfrag
    exact hfrag
  have hprefix : r.kcp.rcvQueue.map IKCPSEG.content <+:
      (fragmentsOf s.kcp.conv more).map IKCPSEG.content := by
    rw [List.prefix_iff_getElem?]
    intro i hi
    rw [List.length_map] at hi
    obtain ⟨frag, hfrag, hcontent⟩ := hat i _ (List.getElem?_eq_getElem hi)
    rw [List.getElem?_map, hfrag, List.getElem_map, hcontent]
    rfl
  cases more with
  | nil =>
      rw [fragmentsOf, List.flatMap_nil, List.map_nil, List.prefix_nil,
        List.map_eq_nil_iff] at hprefix
      exact absurd hprefix hne
  | cons msg rest =>
      rw [fragmentsOf_cons] at hprefix
      have hsend := hs.sendable msg (by rw [← hmore]; simp)
      obtain ⟨hiff, hhead⟩ := headMessage_next hsend hne hprefix
      refine ⟨msg, rest, hmore.symm, ?_, ?_⟩
      · rw [ikcpPeeksize_nonneg, hiff]
      · intro hsome
        exact hhead (hiff.mp (ikcpPeeksize_nonneg.mp hsome))

end Endpoint

/-! ## Both directions -/

/-- What holds of two ends, seen from `e`. -/
structure Paired (e o : Endpoint) : Prop where
  here : e.Inv
  there : o.Inv
  out : Carries e o
  back : Carries o e

namespace Paired

variable {e o : Endpoint}

theorem symm (h : Paired e o) : Paired o e := ⟨h.there, h.here, h.back, h.out⟩

theorem early (h : Paired e o) (ho : o.Short) : e.kcp.Early := h.back.early h.there ho

theorem send (h : Paired e o) (msg : List Byte) : Paired (e.send msg) o := by
  obtain ⟨queue, hq⟩ := ikcpSend_frame e.kcp msg
  have hlater := later_send e msg
  refine ⟨h.here.send msg, h.there, ?_, ?_⟩
  · apply h.out.sender_same hlater
    · change (ikcpSend e.kcp msg).2.sndNxt = _
      rw [hq]
    · change (ikcpSend e.kcp msg).2.unacked = _
      rw [hq]
      rfl
  · exact h.back.receiver_same (sameRcv_ikcpSend e.kcp msg) rfl

/-- The message at the front of the queue. -/
theorem head_length (h : Paired e o) (ho : o.Short) (hsome : 0 ≤ ikcpPeeksize e.kcp) :
    ∃ rest, o.accepted = e.received ++ segBytes (headMessage e.kcp.rcvQueue) :: rest ∧
      (headMessage e.kcp.rcvQueue).length =
        (fragmentsOfMsg e.kcp.conv (segBytes (headMessage e.kcp.rcvQueue))).length := by
  have hne : e.kcp.rcvQueue ≠ [] := by
    intro hnil
    rw [ikcpPeeksize, hnil] at hsome
    exact absurd hsome (show ¬ (0 : Int) ≤ -1 by decide)
  obtain ⟨msg, rest, hacc, -, hhead⟩ := h.back.next h.there h.here ho hne
  obtain ⟨hlen, hbytes⟩ := hhead hsome
  refine ⟨rest, ?_, ?_⟩
  · rw [hbytes]
    exact hacc
  · rw [hlen, hbytes, h.back.conv]

theorem recv (h : Paired e o) (ho : o.Short) (len : Nat) : Paired (e.recv len) o := by
  have hearly := h.early ho
  obtain ⟨hinv, hlater⟩ := @Inv.recv e h.here hearly len
    (fun hsome => by obtain ⟨-, -, hlen⟩ := h.head_length ho hsome; exact hlen)
  by_cases hcan : 0 ≤ ikcpPeeksize e.kcp ∧ ikcpPeeksize e.kcp ≤ len
  · obtain ⟨hsome, -⟩ := id hcan
    obtain ⟨rest, hacc, -⟩ := h.head_length ho hsome
    obtain ⟨-, huna, hbuf⟩ := ikcpRecv_sendSide hsome
    have hhas := h.here.rcv.has_ikcpRecv_iff hearly hsome
    obtain ⟨-, hwaiting, -⟩ := h.here.rcv.ikcpRecv_spec hsome
    have hframe := sndFrame_ikcpRecv hsome
    rw [recv_of_can hcan] at hinv hlater ⊢
    refine ⟨hinv, h.there, ?_, ?_⟩
    · exact h.out.sender_same hlater hframe.sndNxt (congrArg (List.map _) hbuf)
    · refine ⟨hlater.conv.trans h.back.conv, ?_, ?_, ?_, ?_⟩
      · rw [hacc]
        refine ⟨rest, ?_⟩
        rw [List.append_assoc, List.singleton_append]
      · intro seg hin
        apply h.back.copies
        rw [IKCPCB.waiting, ← headMessage_append_afterMessage e.kcp.rcvQueue, List.append_assoc]
        refine List.mem_append_right _ ?_
        rw [← hwaiting]
        exact hin
      · exact fun i hi => h.back.within i ((hhas i).mp hi)
      · exact fun i hi => (h.back.kept i hi).imp (hhas i).mpr id
  · rw [recv_of_not hcan]
    exact h

theorem flush (h : Paired e o) (he : e.Short) (ho : o.Short) : Paired e.flush o := by
  obtain ⟨hinv, hlater⟩ := h.here.flush he (h.early ho)
  refine ⟨hinv, h.there, ?_, h.back.receiver_same (sameRcv_ikcpFlush e.kcp) rfl⟩
  cases hupd : e.kcp.updated with
  | false =>
      have hsame : (ikcpFlush e.kcp).1 = e.kcp := by rw [ikcpFlush, hupd]; rfl
      apply h.out.sender_same hlater
      · exact congrArg IKCPCB.sndNxt hsame
      · exact congrArg IKCPCB.unacked hsame
  | true =>
      obtain ⟨n, hflush⟩ := ikcpFlush_flushed hupd
      have hadd := h.here.sndNxt_add he
      have hshort : e.fragments.length + 1024 < 2 ^ 31 := he
      have hmoved := hflush.moved
      apply h.out.sender hlater
      change ∀ i < (ikcpFlush e.kcp).1.sndNxt.toNat, _ ∨ i ∈ (ikcpFlush e.kcp).1.unacked
      rw [hflush.unacked (by omega), hflush.sndNxt, toNat_add_ofNat (by omega)]
      intro i hi
      -- in the buffer before, or numbered now
      rcases Nat.lt_or_ge i e.kcp.sndNxt.toNat with hold | hnew
      · exact (h.out.kept i hold).imp id (List.mem_append_left _)
      · exact Or.inr (List.mem_append_right _ (List.mem_range'_1.mpr ⟨hnew, hi⟩))

theorem start (h : Paired e o) (clock ts : IUINT32) :
    Paired { e with kcp := { e.kcp with current := clock, updated := true, tsFlush := ts } } o := by
  obtain ⟨hinv, hlater⟩ := h.here.start clock ts
  refine ⟨hinv, h.there, h.out.sender_same hlater rfl rfl, ?_⟩
  exact h.back.receiver_same ⟨rfl, rfl, rfl, rfl⟩ rfl

theorem update (h : Paired e o) (he : e.Short) (ho : o.Short) (clock : IUINT32) :
    Paired (e.update clock) o := by
  rw [update_eq]
  split_ifs
  · exact h.start clock _
  · have hstart := h.start clock (nextFlush e.kcp.cfg.interval clock (scheduled e.kcp clock))
    exact hstart.flush he ho

/-- **One genuine segment.** -/
theorem segment (h : Paired e o) (he : e.Short) (ho : o.Short) (maxack : Option IUINT32)
    {seg : IKCPSEG} (hg : o.Genuine seg) :
    Paired { e with kcp := (inputSegment e.kcp maxack seg.header seg.data).1 } o := by
  have hadd := h.here.sndNxt_add he
  have hadd' := h.there.sndNxt_add ho
  have hshort : e.fragments.length + 1024 < 2 ^ 31 := he
  have hshort' : o.fragments.length + 1024 < 2 ^ 31 := ho
  have huna := h.out.una_le hg
  have hsn : seg.cmd = ikcpCmdPush → seg.sn.toNat < 2 ^ 31 := by
    intro hpush
    obtain ⟨-, hlt⟩ := hg.push hpush
    omega
  obtain ⟨hinv, hlater⟩ := h.here.segment he (h.early ho) maxack (by omega) hsn
  obtain ⟨-, hacked, -⟩ := inputSegment_acked h.here.order (by omega) maxack
    (show seg.una.toNat < 2 ^ 31 by omega)
  have harr := inputSegment_arrived h.here.rcv maxack seg
  refine ⟨hinv, h.there, ?_, ?_⟩
  · -- what leaves the buffer has arrived on the other side
    apply h.out.sender hlater
    dsimp only
    rw [hacked.sndNxt]
    intro i hi
    rcases h.out.kept i hi with hhas | hbuf
    · exact Or.inl hhas
    · rcases hacked.removed i hbuf with hleft | hlt | ⟨hcmd, hself⟩
      · exact Or.inr hleft
      · exact Or.inl (hg.una i hlt)
      · refine Or.inl ?_
        rw [hself]
        exact hg.ack hcmd
  · -- what comes in is what was sent under its number
    refine ⟨hlater.conv.trans h.back.conv, h.back.received, ?_, ?_, ?_⟩
    · intro x hx
      by_cases hadm : seg.cmd = ikcpCmdPush ∧ e.kcp.Admits seg.sn
      · obtain ⟨before, after, seg', hold, hnew, hnum, hfrg, hdata, -⟩ := harr.placed hadm.1 hadm.2
        have hwas : ∀ y, y ∈ before ∨ y ∈ after → y ∈ e.kcp.waiting := by
          intro y hy
          rw [hold]
          exact List.mem_append.mpr hy
        dsimp only at hx
        rw [hnew, List.mem_append, List.mem_cons] at hx
        rcases hx with hb | rfl | ha
        · exact h.back.copies x (hwas x (Or.inl hb))
        · obtain ⟨⟨frag, hfrag, hcontent⟩, -⟩ := hg.push hadm.1
          refine ⟨frag, ?_, ?_⟩
          · rw [hnum]
            exact hfrag
          · rw [← hcontent, IKCPSEG.content, IKCPSEG.content, hfrg, hdata]
        · exact h.back.copies x (hwas x (Or.inr ha))
      · dsimp only at hx
        rw [harr.dropped hadm] at hx
        exact h.back.copies x hx
    · intro i hi
      rcases (harr.has_iff i).mp hi with hold | ⟨hpush, -, rfl⟩
      · exact h.back.within i hold
      · exact (hg.push hpush).2
    · exact fun i hi => (h.back.kept i hi).imp (hlater.has i) id

/-- All segments of a datagram, by induction on them. -/
theorem segments (h : Paired e o) (he : e.Short) (ho : o.Short) (maxack : Option IUINT32)
    {group : List IKCPSEG} (hg : ∀ seg ∈ group, o.Genuine seg) :
    Paired { e with kcp := (inputSegments e.kcp maxack group).1 } o := by
  induction group generalizing e maxack with
  | nil => exact h
  | cons seg rest ih =>
      have hone := h.segment he ho maxack (hg seg (List.mem_cons_self ..))
      have hfrags : ({ e with
          kcp := (inputSegment e.kcp maxack seg.header seg.data).1 } : Endpoint).Short := by
        unfold Short fragments
        dsimp only
        rw [IKCPCB.conv, inputSegment_cfg]
        exact he
      exact ih hone hfrags (inputSegment e.kcp maxack seg.header seg.data).2
        (fun x hx => hg x (List.mem_cons_of_mem _ hx))

end Paired

/-- `ikcp_input` on a datagram of whole segments. -/
theorem ikcpInput_wireAll_eq {segs : List IKCPSEG} (hne : segs ≠ []) {kcp : IKCPCB}
    (hread : ∀ seg ∈ segs, seg.readable kcp.conv) :
    ikcpInput kcp (wireAll segs) =
      (0, growCwnd (parseMaxack (inputSegments kcp none segs).1 (inputSegments kcp none segs).2)
        kcp.sndUna) := by
  have hlong : ¬ (wireAll segs).length < ikcpOverhead := by
    obtain ⟨seg, rest, rfl⟩ := List.exists_cons_of_ne_nil hne
    rw [wireAll_cons, List.length_append, ikcpEncodeSeg_length]
    omega
  rw [ikcpInput, if_neg hlong, inputLoop_wireAll hread le_rfl none]
  rfl

/-- **A datagram of the other end, whenever and as often as it comes.** -/
theorem Paired.input {e o : Endpoint} (h : Paired e o) (he : e.Short) (ho : o.Short)
    {datagram : List Byte} (hd : o.Emits datagram) : Paired (e.input datagram) o := by
  obtain ⟨group, hne, rfl, hg⟩ := hd
  have hread : ∀ seg ∈ group, seg.readable e.kcp.conv := by
    intro seg hin
    rw [← h.out.conv]
    exact (hg seg hin).readable
  rw [Endpoint.input, ikcpInput_wireAll_eq hne hread]
  have hsegs := h.segments he ho none hg
  obtain ⟨hinv, hlater⟩ := hsegs.here.afterSegments (inputSegments e.kcp none group).2 e.kcp.sndUna
  have hsame := (sameRcv_parseMaxack (inputSegments e.kcp none group).1
    (inputSegments e.kcp none group).2).trans (sameRcv_growCwnd _ e.kcp.sndUna)
  obtain ⟨hnums, hnxt⟩ := afterSegments_unacked (inputSegments e.kcp none group).1
    (inputSegments e.kcp none group).2 e.kcp.sndUna
  exact ⟨hinv, h.there, hsegs.out.sender_same hlater hnxt hnums,
    hsegs.back.receiver_same hsame rfl⟩

namespace Link

/-- What holds of a connection between two events. -/
def Inv (l : Link) : Prop := ∀ side, Paired (l side) (l side.other)

theorem inv_create (conv : IUINT32) : Inv (create conv) :=
  fun _ => ⟨Endpoint.inv_create conv, Endpoint.inv_create conv, carries_create conv,
    carries_create conv⟩

theorem inv_update {l : Link} {side : Side} {e : Endpoint} (h : Paired e (l side.other)) :
    Inv (Function.update l side e) := by
  intro x
  rcases Side.eq_or_other side x with rfl | rfl
  · rw [Function.update_self, Function.update_of_ne (Side.other_ne x)]
    exact h
  · rw [Side.other_other, Function.update_self, Function.update_of_ne (Side.other_ne side)]
    exact h.symm

/-- A step only adds to what an end has accepted. -/
theorem later_step {l l' : Link} {ev : LinkEvent} (h : l.step ev = some l') (side : Side) :
    (l' side).kcp.conv = (l side).kcp.conv ∧ (l side).accepted <+: (l' side).accepted := by
  have hone : ∀ {x : Side} {e : Endpoint}, e.kcp.conv = (l x).kcp.conv →
      (l x).accepted <+: e.accepted →
      (Function.update l x e side).kcp.conv = (l side).kcp.conv ∧
        (l side).accepted <+: (Function.update l x e side).accepted := by
    intro x e hconv hacc
    by_cases hx : side = x
    · subst hx
      rw [Function.update_self]
      exact ⟨hconv, hacc⟩
    · rw [Function.update_of_ne hx]
      exact ⟨rfl, List.prefix_rfl⟩
  cases ev with
  | send x msg =>
      obtain rfl := Option.some.inj h
      exact hone (later_send (l x) msg).conv (later_send (l x) msg).accepted
  | recv x len =>
      obtain rfl := Option.some.inj h
      exact hone (congrArg IKCPCFG.conv (ikcpRecv_cfg (l x).kcp len)) List.prefix_rfl
  | update x clock =>
      obtain rfl := Option.some.inj h
      exact hone (congrArg IKCPCFG.conv (ikcpUpdate_cfg (l x).kcp clock)) List.prefix_rfl
  | flush x =>
      obtain rfl := Option.some.inj h
      exact hone (congrArg IKCPCFG.conv (ikcpFlush_cfg (l x).kcp)) List.prefix_rfl
  | deliver x k =>
      obtain ⟨datagram, -, rfl⟩ := Option.map_eq_some_iff.mp h
      exact hone (congrArg IKCPCFG.conv (ikcpInput_cfg (l x).kcp datagram)) List.prefix_rfl

theorem short_of_step {l l' : Link} {ev : LinkEvent} (h : l.step ev = some l') (hs : l'.Short) :
    l.Short := by
  intro side
  obtain ⟨hconv, more, hmore⟩ := later_step h side
  have hside := hs side
  unfold Endpoint.Short fragments at hside ⊢
  rw [hconv, ← hmore, fragmentsOf_append, List.length_append] at hside
  omega

/-- **Every event keeps both directions in order.** -/
theorem Inv.step {l l' : Link} {ev : LinkEvent} (h : Inv l) (hs : l.Short)
    (hstep : l.step ev = some l') : Inv l' := by
  cases ev with
  | send x msg =>
      obtain rfl := Option.some.inj hstep
      exact inv_update ((h x).send msg)
  | recv x len =>
      obtain rfl := Option.some.inj hstep
      exact inv_update ((h x).recv (hs x.other) len)
  | update x clock =>
      obtain rfl := Option.some.inj hstep
      exact inv_update ((h x).update (hs x) (hs x.other) clock)
  | flush x =>
      obtain rfl := Option.some.inj hstep
      exact inv_update ((h x).flush (hs x) (hs x.other))
  | deliver x k =>
      obtain ⟨datagram, hk, rfl⟩ := Option.map_eq_some_iff.mp hstep
      have hd := (h x).there.emitted datagram (List.mem_of_getElem? hk)
      exact inv_update ((h x).input (hs x) (hs x.other) hd)

end Link

end Kcp
end UdpSpeed
