/-
  UdpSpeed.Kcp.Reassembly

  What the receive side of a KCP object is for: put the fragments of messages
  back in order.  The abstract view is a table from sequence numbers to
  fragment numbers (`held`) and the number of the next segment to be read
  (`readPos`); filing a segment adds an entry unless its number is taken, and
  `ikcp_peeksize` finds a message exactly if all its fragments are in the table.
-/

import UdpSpeed.Lib.SerialNumber
import UdpSpeed.Kcp.Input

namespace UdpSpeed
namespace Kcp

open SerialNumber

/-! ## The abstract view -/

/-- Sequence and fragment number of a segment. -/
def IKCPSEG.key (seg : IKCPSEG) : IUINT32 × Byte := (seg.sn, seg.frg)

/-- The segments received and not yet read out. -/
def IKCPCB.held (kcp : IKCPCB) : List (IUINT32 × Byte) :=
  (kcp.rcvQueue ++ kcp.rcvBuf).map IKCPSEG.key

/-- The sequence number of the next segment to be read out. -/
def IKCPCB.readPos (kcp : IKCPCB) : IUINT32 :=
  kcp.rcvNxt - BitVec.ofNat 32 kcp.rcvQueue.length

/-- All fragments of the message starting at `pos` are there.  The first one
    says how many follow it; 128 is all the receive queue takes. -/
def Completes (pos : IUINT32) (segs : List (IUINT32 × Byte)) : Prop :=
  ∃ frg, segs.lookup pos = some frg ∧ frg.toNat < 128 ∧
    ∀ i ≤ frg.toNat, (segs.lookup (pos + BitVec.ofNat 32 i)).isSome

/-- Only the 128 numbers from `pos` on matter. -/
theorem completes_congr {pos : IUINT32} {segs segs' : List (IUINT32 × Byte)}
    (h : ∀ i < 128,
      segs'.lookup (pos + BitVec.ofNat 32 i) = segs.lookup (pos + BitVec.ofNat 32 i)) :
    Completes pos segs' ↔ Completes pos segs := by
  have h0 : segs'.lookup pos = segs.lookup pos := by
    have := h 0 (by decide)
    rwa [BitVec.add_zero] at this
  unfold Completes
  rw [h0]
  refine exists_congr fun frg => and_congr_right fun _ => and_congr_right fun hlt => ?_
  -- a message spans at most 128 numbers
  refine forall₂_congr fun i hi => ?_
  rw [h i (by omega)]

/-! ## The window -/

/-- The receive queue is the run of numbers before `nxt`, the buffer is sorted
    and within 128 of it. -/
structure Shape (buf queue : List IKCPSEG) (nxt : IUINT32) : Prop where
  room : queue.length ≤ 128
  queue : ∀ i seg, queue[i]? = some seg →
    seg.sn = nxt - BitVec.ofNat 32 queue.length + BitVec.ofNat 32 i
  near : ∀ seg ∈ buf, offset nxt seg.sn < 128
  sorted : buf.Pairwise (fun a b => offset nxt a.sn < offset nxt b.sn)

/-- Nothing in the buffer could be moved to the queue. -/
def Settled (buf queue : List IKCPSEG) (nxt : IUINT32) : Prop :=
  queue.length < 128 → ∀ seg ∈ buf, seg.sn ≠ nxt

theorem pos_succ (nxt : IUINT32) (n : Nat) :
    nxt + 1 - BitVec.ofNat 32 (n + 1) = nxt - BitVec.ofNat 32 n := by
  rw [BitVec.ofNat_add]
  exact add_sub_add_right_eq_sub nxt (BitVec.ofNat 32 n) 1

/-- The segment at `nxt` moves to the end of the queue. -/
theorem Shape.advance {seg : IKCPSEG} {rest queue : List IKCPSEG} {nxt : IUINT32}
    (h : Shape (seg :: rest) queue nxt) (hsn : seg.sn = nxt) (hroom : queue.length < 128) :
    Shape rest (queue ++ [seg]) (nxt + 1) := by
  have hsorted := List.pairwise_cons.mp h.sorted
  -- the rest of the buffer is strictly past `nxt`, so one step forward wraps nothing
  have hpos : ∀ x ∈ rest, 0 < offset nxt x.sn := by
    intro x hx
    have := hsorted.1 x hx
    omega
  refine ⟨?_, ?_, ?_, ?_⟩
  · rw [List.length_append, List.length_singleton]
    omega
  · intro i x hx
    rw [List.length_append, List.length_singleton, pos_succ]
    -- an old place in the queue, or the new last one
    rcases Nat.lt_or_ge i queue.length with hlt | hge
    · rw [List.getElem?_append_left hlt] at hx
      exact h.queue i x hx
    · rw [List.getElem?_append_right hge] at hx
      obtain ⟨hi, heq⟩ := List.getElem?_eq_some_iff.mp hx
      have hi' : i = queue.length := by
        rw [List.length_singleton] at hi
        omega
      subst hi'
      rw [sub_add_cancel, ← hsn, ← heq]
      simp
  · intro x hx
    rw [offset_succ (hpos x hx)]
    have := h.near x (List.mem_cons_of_mem _ hx)
    omega
  · refine hsorted.2.imp_of_mem ?_
    intro a b ha hb hab
    rw [offset_succ (hpos a ha), offset_succ (hpos b hb)]
    have := hpos a ha
    omega

/-- A sorted buffer whose first number is not `nxt` does not have `nxt`. -/
theorem Shape.head_ne {seg : IKCPSEG} {rest queue : List IKCPSEG} {nxt : IUINT32}
    (h : Shape (seg :: rest) queue nxt) (hsn : seg.sn ≠ nxt) :
    ∀ x ∈ seg :: rest, x.sn ≠ nxt := by
  intro x hx heq
  rcases List.mem_cons.mp hx with rfl | hin
  · exact hsn heq
  -- `nxt` is the smallest number there is, so only the head could have it
  · have hlt := (List.pairwise_cons.mp h.sorted).1 x hin
    rw [offset_eq_zero_iff.mpr heq] at hlt
    omega

/-- Moving segments from the buffer to the queue changes neither the segments
    nor the read position, and leaves nothing to move. -/
theorem Shape.moveAvailable {buf queue : List IKCPSEG} {nxt : IUINT32}
    (h : Shape buf queue nxt) :
    Shape (Kcp.moveAvailable 128 buf queue nxt).1 (Kcp.moveAvailable 128 buf queue nxt).2.1
        (Kcp.moveAvailable 128 buf queue nxt).2.2 ∧
      Settled (Kcp.moveAvailable 128 buf queue nxt).1 (Kcp.moveAvailable 128 buf queue nxt).2.1
        (Kcp.moveAvailable 128 buf queue nxt).2.2 ∧
      (Kcp.moveAvailable 128 buf queue nxt).2.1 ++ (Kcp.moveAvailable 128 buf queue nxt).1 =
        queue ++ buf ∧
      (Kcp.moveAvailable 128 buf queue nxt).2.2 -
          BitVec.ofNat 32 (Kcp.moveAvailable 128 buf queue nxt).2.1.length =
        nxt - BitVec.ofNat 32 queue.length := by
  induction buf generalizing queue nxt with
  | nil => exact ⟨h, fun _ _ hin => absurd hin List.not_mem_nil, rfl, rfl⟩
  | cons seg rest ih =>
      unfold Kcp.moveAvailable
      -- the head moves, or the loop stops with nothing else to move
      by_cases hcond : seg.sn = nxt ∧ queue.length < (128 : IUINT32).toNat
      · rw [if_pos hcond]
        obtain ⟨hshape, hsettled, happ, hpos⟩ := ih (h.advance hcond.1 hcond.2)
        refine ⟨hshape, hsettled, ?_, ?_⟩
        · rw [happ, List.append_assoc, List.singleton_append]
        · rw [hpos, List.length_append, List.length_singleton, pos_succ]
      · rw [if_neg hcond]
        refine ⟨h, ?_, rfl, rfl⟩
        intro hroom
        exact h.head_ne (fun hsn => hcond ⟨hsn, hroom⟩)

/-! ## Inserting a segment -/

/-- Within the window the signed comparison of `ikcp_parse_data` compares
    offsets. -/
theorem itimediff_eq {nxt a b : IUINT32} (ha : offset nxt a < 128) (hb : offset nxt b < 128) :
    itimediff a b = (offset nxt a : Int) - (offset nxt b : Int) :=
  toInt_sub_eq (by omega) (by omega)

/-- `insertBackward` on a sorted buffer (tail first): either the number is taken,
    or the segment goes to its place. -/
theorem insertBackward_spec {nxt : IUINT32} {newseg : IKCPSEG} {rev : List IKCPSEG}
    (hnew : offset nxt newseg.sn < 128) (hnear : ∀ seg ∈ rev, offset nxt seg.sn < 128)
    (hsorted : rev.Pairwise (fun a b => offset nxt b.sn < offset nxt a.sn)) :
    (insertBackward newseg rev = none ∧ ∃ seg ∈ rev, seg.sn = newseg.sn) ∨
      ∃ after before, rev = after ++ before ∧
        insertBackward newseg rev = some (after ++ newseg :: before) ∧
        (∀ seg ∈ rev, seg.sn ≠ newseg.sn) ∧
        (∀ seg ∈ after, offset nxt newseg.sn < offset nxt seg.sn) ∧
        ∀ seg ∈ before, offset nxt seg.sn < offset nxt newseg.sn := by
  induction rev with
  | nil => exact Or.inr ⟨[], [], rfl, rfl, by simp, by simp, by simp⟩
  | cons seg prev ih =>
      obtain ⟨hbelow, hsorted'⟩ := List.pairwise_cons.mp hsorted
      have hseg := hnear seg (List.mem_cons_self ..)
      unfold insertBackward
      -- a duplicate of `seg`, behind `seg`, or further down
      by_cases heq : seg.sn = newseg.sn
      · rw [if_pos heq]
        exact Or.inl ⟨rfl, seg, List.mem_cons_self .., heq⟩
      rw [if_neg heq, itimediff_eq hnew hseg]
      by_cases hgt : 0 < (offset nxt newseg.sn : Int) - (offset nxt seg.sn : Int)
      · -- the place is right behind `seg`: everything further down is smaller still
        rw [if_pos hgt]
        have hlt : offset nxt seg.sn < offset nxt newseg.sn := by omega
        have hall : ∀ x ∈ seg :: prev, offset nxt x.sn < offset nxt newseg.sn := by
          intro x hx
          rcases List.mem_cons.mp hx with rfl | hin
          · exact hlt
          · exact (hbelow x hin).trans hlt
        refine Or.inr ⟨[], seg :: prev, rfl, rfl, ?_, by simp, hall⟩
        intro x hx hxe
        have := hall x hx
        rw [hxe] at this
        omega
      · rw [if_neg hgt]
        have hne : offset nxt seg.sn ≠ offset nxt newseg.sn := fun ho => heq (offset_inj.mp ho)
        have hlt : offset nxt newseg.sn < offset nxt seg.sn := by omega
        rcases ih (fun x hx => hnear x (List.mem_cons_of_mem _ hx)) hsorted' with
          ⟨hnone, x, hx, hxe⟩ | ⟨after, before, hrev, hsome, hfresh, hafter, hbefore⟩
        · exact Or.inl ⟨by rw [hnone]; rfl, x, List.mem_cons_of_mem _ hx, hxe⟩
        · refine Or.inr ⟨seg :: after, before, by rw [hrev]; rfl, by rw [hsome]; rfl, ?_, ?_,
            hbefore⟩
          · intro x hx
            rcases List.mem_cons.mp hx with rfl | hin
            · exact heq
            · exact hfresh x hin
          · intro x hx
            rcases List.mem_cons.mp hx with rfl | hin
            · exact hlt
            · exact hafter x hin

/-! ## The receive side of an object -/

/-- The receive side of a session's object between two calls. -/
structure RcvInv (kcp : IKCPCB) : Prop where
  wnd : kcp.cfg.rcvWnd = 128
  shape : Shape kcp.rcvBuf kcp.rcvQueue kcp.rcvNxt
  settled : Settled kcp.rcvBuf kcp.rcvQueue kcp.rcvNxt

/-- Two objects with the same receive side. -/
def SameRcv (kcp kcp' : IKCPCB) : Prop :=
  kcp'.cfg = kcp.cfg ∧ kcp'.rcvQueue = kcp.rcvQueue ∧ kcp'.rcvBuf = kcp.rcvBuf ∧
    kcp'.rcvNxt = kcp.rcvNxt

theorem RcvInv.congr {kcp kcp' : IKCPCB} (h : RcvInv kcp) (hsame : SameRcv kcp kcp') :
    RcvInv kcp' := by
  obtain ⟨hcfg, hqueue, hbuf, hnxt⟩ := hsame
  refine ⟨?_, ?_, ?_⟩
  · rw [hcfg]
    exact h.wnd
  · rw [hqueue, hbuf, hnxt]
    exact h.shape
  · rw [hqueue, hbuf, hnxt]
    exact h.settled

theorem rcvInv_freshKcp (conv : IUINT32) : RcvInv (freshKcp conv) where
  wnd := rfl
  shape :=
    { room := Nat.zero_le _
      queue := by
        intro i seg hseg
        cases hseg
      near := by
        intro seg hin
        cases hin
      sorted := List.Pairwise.nil }
  settled := by
    intro _ seg hin
    cases hin

theorem rcvInv_moveAvailable {kcp : IKCPCB} (hwnd : kcp.cfg.rcvWnd = 128)
    (hshape : Shape kcp.rcvBuf kcp.rcvQueue kcp.rcvNxt) :
    RcvInv kcp.moveAvailable ∧
      kcp.moveAvailable.rcvQueue ++ kcp.moveAvailable.rcvBuf = kcp.rcvQueue ++ kcp.rcvBuf ∧
      kcp.moveAvailable.readPos = kcp.readPos := by
  obtain ⟨hshape', hsettled, happ, hpos⟩ := hshape.moveAvailable
  rw [← hwnd] at hshape' hsettled happ hpos
  exact ⟨⟨hwnd, hshape', hsettled⟩, happ, hpos⟩

/-- The window check of `ikcp_parse_data`. -/
theorem outside_window_iff (sn nxt : IUINT32) :
    (0 ≤ itimediff sn (nxt + 128) ∨ itimediff sn nxt < 0) ↔ 128 ≤ offset nxt sn := by
  have hlt := offset_lt nxt sn
  -- less than half the number space ahead: the signed differences are offsets
  by_cases hhalf : 2 * offset nxt sn < 2 ^ 32
  · have hself : offset nxt nxt = 0 := offset_eq_zero_iff.mpr rfl
    have hend : offset nxt (nxt + 128) = 128 := offset_add nxt (n := 128) (by decide)
    have h1 : itimediff sn (nxt + 128) = (offset nxt sn : Int) - (offset nxt (nxt + 128) : Int) :=
      toInt_sub_eq hhalf (by rw [hend]; decide)
    have h2 : itimediff sn nxt = (offset nxt sn : Int) - (offset nxt nxt : Int) :=
      toInt_sub_eq hhalf (by rw [hself]; decide)
    rw [h1, h2, hend, hself]
    omega
  -- the other half counts as behind `nxt`
  · have hneg : itimediff sn nxt < 0 := toInt_sub_base_neg hhalf
    exact iff_of_true (Or.inr hneg) (by omega)

/-- Linking a new number into the sorted buffer. -/
theorem Shape.insert {after before queue : List IKCPSEG} {nxt : IUINT32} {newseg : IKCPSEG}
    (h : Shape (before.reverse ++ after.reverse) queue nxt) (hnew : offset nxt newseg.sn < 128)
    (hafter : ∀ seg ∈ after, offset nxt newseg.sn < offset nxt seg.sn)
    (hbefore : ∀ seg ∈ before, offset nxt seg.sn < offset nxt newseg.sn) :
    Shape (before.reverse ++ newseg :: after.reverse) queue nxt := by
  obtain ⟨hsb, hsa, hcross⟩ := List.pairwise_append.mp h.sorted
  refine ⟨h.room, h.queue, ?_, ?_⟩
  · intro seg hin
    rcases List.mem_append.mp hin with hb | ha
    · exact h.near seg (List.mem_append_left _ hb)
    · rcases List.mem_cons.mp ha with rfl | ha'
      · exact hnew
      · exact h.near seg (List.mem_append_right _ ha')
  · refine List.pairwise_append.mpr ⟨hsb, List.pairwise_cons.mpr ⟨?_, hsa⟩, ?_⟩
    · intro seg hin
      exact hafter seg (List.mem_reverse.mp hin)
    · intro a ha b hb
      rcases List.mem_cons.mp hb with rfl | hb'
      · exact hbefore a (List.mem_reverse.mp ha)
      · exact hcross a ha b hb'

/-- The queue holds numbers behind `rcv_nxt`. -/
theorem RcvInv.queue_outside {kcp : IKCPCB} (h : RcvInv kcp) {seg : IKCPSEG}
    (hin : seg ∈ kcp.rcvQueue) : 128 ≤ offset kcp.rcvNxt seg.sn := by
  obtain ⟨i, hi, rfl⟩ := List.getElem_of_mem hin
  have hroom := h.shape.room
  have hback : kcp.rcvQueue[i].sn =
      kcp.rcvNxt + BitVec.ofNat 32 (2 ^ 32 - (kcp.rcvQueue.length - i)) := by
    rw [h.shape.queue i _ (List.getElem?_eq_getElem hi)]
    have hsum : BitVec.ofNat 32 kcp.rcvQueue.length +
        BitVec.ofNat 32 (2 ^ 32 - (kcp.rcvQueue.length - i)) = BitVec.ofNat 32 i := by
      rw [← BitVec.ofNat_add]
      apply BitVec.eq_of_toNat_eq
      rw [BitVec.toNat_ofNat, BitVec.toNat_ofNat]
      omega
    rw [← hsum]
    abel
  rw [hback, offset_add _ (by omega)]
  omega

/-- A segment with this number would be taken: it is inside the window and not in
    the buffer. -/
def IKCPCB.Admits (kcp : IKCPCB) (sn : IUINT32) : Prop :=
  offset kcp.rcvNxt sn < 128 ∧ ∀ seg ∈ kcp.rcvBuf, seg.sn ≠ sn

/-- A number that would be taken is not there yet. -/
theorem IKCPCB.Admits.fresh {kcp : IKCPCB} {sn : IUINT32} (hadm : kcp.Admits sn)
    (h : RcvInv kcp) : ∀ seg ∈ kcp.rcvQueue ++ kcp.rcvBuf, seg.sn ≠ sn := by
  intro seg hin heq
  rcases List.mem_append.mp hin with hq | hb
  · have hout := h.queue_outside hq
    rw [heq] at hout
    exact absurd hadm.1 (by omega)
  · exact hadm.2 seg hb heq

/-- **What `ikcp_parse_data` does**: a segment that is admitted goes to its place
    among those received, any other is dropped. -/
theorem ikcpParseData_spec {kcp : IKCPCB} (h : RcvInv kcp) (newseg : IKCPSEG) :
    RcvInv (ikcpParseData kcp newseg) ∧ (ikcpParseData kcp newseg).readPos = kcp.readPos ∧
      ((kcp.Admits newseg.sn ∧ ∃ before after, kcp.rcvQueue ++ kcp.rcvBuf = before ++ after ∧
          (ikcpParseData kcp newseg).rcvQueue ++ (ikcpParseData kcp newseg).rcvBuf =
            before ++ newseg :: after) ∨
        (¬ kcp.Admits newseg.sn ∧
          (ikcpParseData kcp newseg).rcvQueue ++ (ikcpParseData kcp newseg).rcvBuf =
            kcp.rcvQueue ++ kcp.rcvBuf)) := by
  unfold ikcpParseData
  rw [h.wnd]
  by_cases hout : 0 ≤ itimediff newseg.sn (kcp.rcvNxt + 128) ∨ itimediff newseg.sn kcp.rcvNxt < 0
  · rw [if_pos hout]
    have hfar := (outside_window_iff _ _).mp hout
    exact ⟨h, rfl, Or.inr ⟨fun hadm => absurd hadm.1 (by omega), rfl⟩⟩
  rw [if_neg hout]
  rw [outside_window_iff, not_le] at hout
  have hnear : ∀ seg ∈ kcp.rcvBuf.reverse, offset kcp.rcvNxt seg.sn < 128 :=
    fun seg hin => h.shape.near seg (List.mem_reverse.mp hin)
  have hsorted : kcp.rcvBuf.reverse.Pairwise
      (fun a b => offset kcp.rcvNxt b.sn < offset kcp.rcvNxt a.sn) :=
    List.pairwise_reverse.mpr h.shape.sorted
  rcases insertBackward_spec hout hnear hsorted with
    ⟨hnone, seg, hin, hsn⟩ | ⟨after, before, hrev, hsome, hfresh, hafter, hbefore⟩
  · -- a duplicate
    rw [hnone]
    obtain ⟨hinv, happ, hpos⟩ := rcvInv_moveAvailable h.wnd h.shape
    refine ⟨hinv, hpos, Or.inr ⟨?_, happ⟩⟩
    intro hadm
    exact hadm.2 seg (List.mem_reverse.mp hin) hsn
  · rw [hsome]
    have hbuf : kcp.rcvBuf = before.reverse ++ after.reverse := by
      rw [← List.reverse_append, ← hrev, List.reverse_reverse]
    have hbuf' : (after ++ newseg :: before).reverse =
        before.reverse ++ newseg :: after.reverse := by simp
    have hshape := h.shape
    rw [hbuf] at hshape
    have hshape' := hshape.insert hout hafter hbefore
    rw [← hbuf'] at hshape'
    have hmoved := @rcvInv_moveAvailable
      { kcp with rcvBuf := (after ++ newseg :: before).reverse } h.wnd hshape'
    obtain ⟨hinv, happ, hpos⟩ := hmoved
    refine ⟨hinv, hpos, Or.inl ⟨⟨hout, ?_⟩, kcp.rcvQueue ++ before.reverse, after.reverse, ?_, ?_⟩⟩
    · intro seg hin
      exact hfresh seg (List.mem_reverse.mpr hin)
    · rw [hbuf, List.append_assoc]
    · rw [List.append_assoc]
      dsimp only at happ ⊢
      rw [happ, hbuf']

end Kcp
end UdpSpeed
