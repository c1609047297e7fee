/-
  UdpSpeed.Kcp.Delivery

  What a KCP connection is for.  Over a network that loses, repeats and reorders
  datagrams, two objects are two reliable FIFO channels of messages; what one
  end has let go of has arrived at the other; and neither end holds more than
  its window.
-/

import UdpSpeed.Lib.Simulation
import UdpSpeed.Lib.Channel
import UdpSpeed.Kcp.Link

namespace UdpSpeed
namespace Kcp

open Endpoint

namespace Link

/-! ## Runs -/

/-- The invariant holds throughout a run that ends before the numbers leave the
    lower half. -/
theorem always_inv {conv : IUINT32} {es : List LinkEvent} {l : Link}
    (hrun : EventSystem.run step (create conv) es = some l) (hs : l.Short) :
    EventSystem.Always step (fun l => Inv l ∧ l.Short) (create conv) es := by
  have hfirst : (create conv).Short :=
    EventSystem.run_backward (fun _ _ _ => short_of_step) hrun hs
  refine EventSystem.always_within (G := Short) (fun _ _ _ => short_of_step) ?_
    ⟨inv_create conv, hfirst⟩ hrun hs
  rintro l ev l' ⟨hinv, hshort⟩ hs' hstep
  exact ⟨hinv.step hshort hstep, hs'⟩

theorem inv_of_run {conv : IUINT32} {es : List LinkEvent} {l : Link}
    (hrun : EventSystem.run step (create conv) es = some l) (hs : l.Short) : Inv l := by
  have hend := always_inv hrun hs es.length l
  rw [List.take_length] at hend
  exact (hend hrun).1

/-! ## Two channels -/

/-- What the applications see of an event: a message that is accepted goes into
    the channel of its side, one that is returned comes out of the other's. -/
def shows (l : Link) : LinkEvent → List (Channel.Event Side (List Byte))
  | .send side msg => if (ikcpSend (l side).kcp msg).1 ≠ 0 then [] else [.push side msg]
  | .recv side len =>
      let r := ikcpRecv (l side).kcp len
      if r.1 < 0 then [] else [.pop side.other r.2.1]
  | _ => []

/-- The messages accepted and not yet returned. -/
def inTransit (l : Link) (side : Side) : List (List Byte) :=
  (l side).accepted.drop (l side.other).received.length

theorem inTransit_update (l : Link) {side : Side} {e : Endpoint}
    (hacc : e.accepted = (l side).accepted) (hrec : e.received = (l side).received) :
    inTransit (Function.update l side e) = inTransit l := by
  funext x
  rw [inTransit, inTransit]
  rcases Side.eq_or_other side x with rfl | rfl
  · rw [Function.update_self, Function.update_of_ne (Side.other_ne x), hacc]
  · rw [Side.other_other, Function.update_self, Function.update_of_ne (Side.other_ne side), hrec]

/-- **A KCP connection simulates two FIFO channels.** -/
theorem simulates_channel : EventSystem.Simulates step shows
    (Channel.step : (Side → List (List Byte)) → _ → _) (fun l => Inv l ∧ l.Short) inTransit := by
  rintro l ev l' ⟨hinv, hs⟩ hstep
  cases ev with
  | send side msg =>
      obtain rfl := Option.some.inj hstep
      rw [shows]
      have hle := (hinv side).out.received.length_le
      by_cases hok : (ikcpSend (l side).kcp msg).1 ≠ 0
      · rw [if_pos hok, inTransit_update l]
        · rfl
        · change (l side).accepted ++ _ = _
          rw [if_pos hok, List.append_nil]
        · rfl
      · rw [if_neg hok]
        refine congrArg some ?_
        funext x
        rcases Side.eq_or_other side x with rfl | rfl
        · rw [Function.update_self, inTransit, inTransit, Function.update_self,
            Function.update_of_ne (Side.other_ne x)]
          change _ = ((l x).accepted ++ _).drop _
          rw [if_neg hok, List.drop_append_of_le_length hle]
        · rw [Function.update_of_ne (Side.other_ne side), inTransit, inTransit, Side.other_other,
            Function.update_self, Function.update_of_ne (Side.other_ne side)]
          rfl
  | recv side len =>
      obtain rfl := Option.some.inj hstep
      have hpair := hinv side
      rw [shows]
      by_cases hcan : 0 ≤ ikcpPeeksize (l side).kcp ∧ ikcpPeeksize (l side).kcp ≤ len
      · obtain ⟨rest, hacc, -⟩ := hpair.head_length (hs side.other) hcan.1
        obtain ⟨hcode, hdata⟩ := ikcpRecv_peeksize hcan.1
        rw [(ikcpRecv_len _ len).1 hcan, hcode, if_neg (not_lt.mpr hcan.1), hdata,
          recv_of_can hcan]
        -- the message read is the first in transit
        have hfront : inTransit l side.other =
            segBytes (headMessage (l side).kcp.rcvQueue) :: rest := by
          rw [inTransit, Side.other_other, hacc, List.drop_left]
        have hone : Channel.step (inTransit l)
            (.pop side.other (segBytes (headMessage (l side).kcp.rcvQueue))) =
              some (Function.update (inTransit l) side.other rest) := by
          rw [Channel.step, hfront, List.head?_cons, if_pos rfl, List.tail_cons]
        rw [EventSystem.run, hone]
        refine congrArg some ?_
        funext x
        rcases Side.eq_or_other side x with rfl | rfl
        · rw [Function.update_of_ne (Ne.symm (Side.other_ne x)), inTransit, inTransit,
            Function.update_self, Function.update_of_ne (Side.other_ne x)]
        · rw [Function.update_self, inTransit, Side.other_other, Function.update_self,
            Function.update_of_ne (Side.other_ne side), hacc, List.length_append,
            List.length_singleton]
          rw [← List.drop_drop, List.drop_left, List.drop_succ_cons, List.drop_zero]
      · obtain ⟨hneg, -⟩ := (ikcpRecv_len (l side).kcp len).2 hcan
        rw [if_pos hneg, recv_of_not hcan, inTransit_update l rfl rfl]
        rfl
  | update side clock =>
      obtain rfl := Option.some.inj hstep
      rw [@inTransit_update l side ((l side).update clock) rfl rfl]
      rfl
  | flush side =>
      obtain rfl := Option.some.inj hstep
      rw [@inTransit_update l side (l side).flush rfl rfl]
      rfl
  | deliver side k =>
      obtain ⟨datagram, -, rfl⟩ := Option.map_eq_some_iff.mp hstep
      rw [@inTransit_update l side ((l side).input datagram) rfl rfl]
      rfl

/-- **Reliable delivery over an unreliable network.**  Whatever the network
    loses, repeats or reorders: seen by the applications, every run is a run of
    two FIFO channels.  The messages one end has taken are, in order and once
    each, those the other has returned, and behind them those on their way. -/
theorem reliable_delivery {conv : IUINT32} {es : List LinkEvent} {l : Link}
    (hrun : EventSystem.run step (create conv) es = some l) (hs : l.Short) :
    let trace := EventSystem.traceOf step shows (create conv) es
    EventSystem.run Channel.step (fun _ => []) trace = some l.inTransit ∧
      ∀ side, Channel.pushed side trace = Channel.popped side trace ++ l.inTransit side := by
  have hchannel := simulates_channel.run (always_inv hrun hs) hrun
  exact ⟨hchannel, fun side => Channel.run_balance hchannel side⟩

/-- Two messages, of which the second is put on the wire twice and arrives first. -/
def reordered : List LinkEvent :=
  [.send .left [1, 2], .update .left 0, .send .left [3], .update .left 10, .update .left 300,
    .deliver .right 1, .recv .right 64, .deliver .right 2, .deliver .right 0, .deliver .right 2,
    .recv .right 64, .update .right 300, .deliver .left 0, .send .left [4]]

theorem reordered_run : ∃ l, EventSystem.run step (create 7) reordered = some l ∧ l.Short ∧
    (l .right).received = [[1, 2]] ∧ l.inTransit .left = [[3], [4]] := by
  have hrun : (EventSystem.run step (create 7) reordered).map
      (fun l => ((l .right).received, l.inTransit .left, (l .left).fragments.length,
        (l .right).fragments.length)) = some ([[1, 2]], [[3], [4]], 3, 0) := by
    decide +kernel
  obtain ⟨l, hl, heq⟩ := Option.map_eq_some_iff.mp hrun
  simp only [Prod.mk.injEq] at heq
  obtain ⟨hrec, htransit, hleft, hright⟩ := heq
  have hs : l.Short := by
    intro side
    cases side with
    | left =>
        rw [Endpoint.Short, hleft]
        decide
    | right =>
        rw [Endpoint.Short, hright]
        decide
  exact ⟨l, hl, hs, hrec, htransit⟩

theorem reliable_delivery_reordered :
    let trace := EventSystem.traceOf step shows (create 7) reordered
    Channel.pushed .left trace = Channel.popped .left trace ++ [[3], [4]] := by
  obtain ⟨l, hl, hs, -, htransit⟩ := reordered_run
  have hbalance := (reliable_delivery hl hs).2 .left
  rw [htransit] at hbalance
  exact hbalance

/-! ## Nothing is lost -/

end Link

/-- The receiver waits for the next fragment, and has room for it. -/
structure Waits (s r : Endpoint) : Prop where
  room : r.kcp.rcvQueue.length < 128
  more : r.kcp.rcvNxt.toNat < s.fragments.length

theorem Paired.rcvNxt_eq {e o : Endpoint} (h : Paired e o) (ho : o.Short) :
    e.kcp.rcvNxt.toNat =
      (fragmentsOf o.kcp.conv e.received).length + e.kcp.rcvQueue.length := by
  have hnxt := h.here.rcv.rcvNxt_toNat (h.early ho)
  obtain ⟨more, hmore⟩ := h.back.received
  have hlen := congrArg (fun msgs => (fragmentsOf o.kcp.conv msgs).length) hmore
  rw [fragmentsOf_append, List.length_append] at hlen
  have hpos : e.kcp.readPos.toNat = (fragmentsOf o.kcp.conv e.received).length := by
    unfold Short fragments at ho
    rw [h.here.readPos, h.back.conv, BitVec.toNat_ofNat]
    omega
  rw [hnxt, hpos]

/-- **A reader that finds nothing waits for a fragment**, or has read everything:
    no message is longer than the window. -/
theorem Paired.waits {e o : Endpoint} (h : Paired e o) (he : e.Short)
    (hnone : ikcpPeeksize o.kcp < 0) (hmissing : o.received ≠ e.accepted) : Waits e o := by
  obtain ⟨more, hmore⟩ := h.out.received
  cases more with
  | nil =>
      rw [List.append_nil] at hmore
      exact absurd hmore hmissing
  | cons msg rest =>
      have hnxt := h.symm.rcvNxt_eq he
      have hfrags : e.fragments.length = (fragmentsOf e.kcp.conv o.received).length +
          ((fragmentsOfMsg e.kcp.conv msg).length + (fragmentsOf e.kcp.conv rest).length) := by
        rw [fragments, ← hmore, fragmentsOf_append, fragmentsOf_cons, List.length_append,
          List.length_append]
      have hcount := (fragmentCount_spec e.kcp.conv msg.length).1
      have hlen : (fragmentsOfMsg e.kcp.conv msg).length =
          fragmentCount (tunnelCfg e.kcp.conv) msg.length := fragment_length ..
      have hsend : fragmentCount (tunnelCfg e.kcp.conv) msg.length < 128 :=
        h.here.sendable msg (by rw [← hmore]; simp)
      -- the queue does not hold the message
      have hshort : o.kcp.rcvQueue.length < (fragmentsOfMsg e.kcp.conv msg).length := by
        by_cases hnil : o.kcp.rcvQueue = []
        · rw [hnil, List.length_nil]
          omega
        · obtain ⟨msg', rest', hacc, hiff, -⟩ := h.out.next h.here h.there he hnil
          rw [← hmore, List.append_cancel_left_eq, List.cons.injEq] at hacc
          rw [← hacc.1] at hiff
          by_contra hlong
          exact absurd (hiff.mpr (not_lt.mp hlong)) (not_le.mpr hnone)
      exact ⟨by omega, by omega⟩

/-- With nothing left in the buffer and nothing to read, everything has been
    read. -/
theorem Paired.received_all {e o : Endpoint} (h : Paired e o) (he : e.Short)
    (hwait : ikcpWaitsnd e.kcp = 0) (hnone : ikcpPeeksize o.kcp < 0) :
    o.received = e.accepted := by
  by_contra hmissing
  obtain ⟨hroom, hmore⟩ := h.waits he hnone hmissing
  have hearly := h.out.early h.here he
  have hadd := h.here.sndNxt_add he
  have hbuf : e.kcp.sndBuf = [] := List.eq_nil_of_length_eq_zero
    (show e.kcp.sndBuf.length = 0 by unfold ikcpWaitsnd IKCPCB.nsndBuf at hwait; omega)
  have hqueue : e.kcp.sndQueue.length = 0 := by
    unfold ikcpWaitsnd IKCPCB.nsndQue at hwait
    omega
  -- the fragment it waits for is nowhere else
  rcases h.out.kept o.kcp.rcvNxt.toNat (by omega) with hhas | hin
  · exact h.there.rcv.not_has_rcvNxt hearly hroom hhas
  · rw [IKCPCB.unacked, hbuf] at hin
    cases hin

/-! ## Windows -/

/-- Numbers in order within `n` of `a` are at most `n`. -/
theorem length_le_of_sorted {nums : List Nat} {a n : Nat} (hsorted : nums.Pairwise (· < ·))
    (hin : ∀ i ∈ nums, a ≤ i ∧ i < a + n) : nums.length ≤ n := by
  have hsub : nums ⊆ List.range' a n := fun i hi => List.mem_range'_1.mpr (hin i hi)
  have hnodup : nums.Nodup := hsorted.imp Nat.ne_of_lt
  have hlen := (hnodup.subperm hsub).length_le
  rwa [List.length_range'] at hlen

/-- How much of a direction is held, and where. -/
structure Bounded (s r : Endpoint) : Prop where
  inFlight : s.kcp.nsndBuf ≤ 32
  queued : r.kcp.rcvQueue.length ≤ 128
  buffered : r.kcp.rcvBuf.length ≤ 128
  /-- the sender is at most a receive window and a send window ahead -/
  ahead : s.kcp.sndNxt.toNat ≤ r.kcp.rcvNxt.toNat + 160
  /-- and never behind -/
  behind : r.kcp.rcvNxt.toNat ≤ s.kcp.sndNxt.toNat

theorem Paired.bounded {e o : Endpoint} (h : Paired e o) (he : e.Short) : Bounded e o := by
  have hearly := h.out.early h.here he
  have hnxt := h.there.rcv.rcvNxt_toNat hearly
  have hwindow := h.here.order.window
  have hbehind : o.kcp.rcvNxt.toNat ≤ e.kcp.sndNxt.toNat := by
    rcases Nat.eq_zero_or_pos o.kcp.rcvNxt.toNat with hzero | hpos
    · omega
    · have hlast := h.out.within _ (h.there.rcv.has_of_lt hearly
        (show o.kcp.rcvNxt.toNat - 1 < o.kcp.rcvNxt.toNat by omega))
      omega
  refine ⟨?_, h.there.rcv.shape.room, ?_, ?_, hbehind⟩
  · have hlen := length_le_of_sorted (a := e.kcp.sndUna.toNat) (n := 32) h.here.order.sorted
      (fun i hi => ⟨h.here.order.una_le hi, (h.here.order.below i hi).trans_le hwindow⟩)
    rwa [IKCPCB.unacked, List.length_map] at hlen
  · -- the numbers in the buffer are distinct and less than a window from `rcv_nxt`
    have hsorted : (o.kcp.rcvBuf.map (fun seg => seg.sn.toNat)).Pairwise (· < ·) := by
      rw [List.pairwise_map]
      refine h.there.rcv.shape.sorted.imp_of_mem ?_
      intro a b ha hb hab
      have hbound : o.kcp.readPos.toNat + 512 < 2 ^ 31 := hearly
      have hroom := h.there.rcv.shape.room
      have hna := h.there.rcv.shape.near a ha
      have hnb := h.there.rcv.shape.near b hb
      rw [← SerialNumber.add_offset o.kcp.rcvNxt a.sn, ← SerialNumber.add_offset o.kcp.rcvNxt b.sn,
        toNat_add_ofNat (by omega), toNat_add_ofNat (by omega)]
      omega
    have hlen := length_le_of_sorted (a := o.kcp.rcvNxt.toNat) (n := 128) hsorted ?_
    · rwa [List.length_map] at hlen
    · intro i hi
      obtain ⟨seg, hseg, rfl⟩ := List.mem_map.mp hi
      exact h.there.rcv.buf_toNat hearly hseg
  · -- whatever is before `snd_una` has arrived
    have huna : e.kcp.sndUna.toNat ≤ o.kcp.rcvNxt.toNat + 128 := by
      rcases Nat.eq_zero_or_pos e.kcp.sndUna.toNat with hzero | hpos
      · omega
      · have hle := h.here.order.una_le_nxt
        rcases h.out.kept (e.kcp.sndUna.toNat - 1) (by omega) with hhas | hin
        · have hlt := h.there.rcv.lt_of_has hearly hhas
          omega
        · have hge := h.here.order.una_le hin
          omega
    omega

namespace Link

/-- **What an end lets go of has arrived.**  An end that waits for no
    acknowledgement, with a peer that has nothing to read, has got everything
    through. -/
theorem nothing_lost {conv : IUINT32} {es : List LinkEvent} {l : Link}
    (hrun : EventSystem.run step (create conv) es = some l) (hs : l.Short) (side : Side) :
    (∀ i < (l side).kcp.sndNxt.toNat,
      (l side.other).kcp.Has i ∨ ∃ seg ∈ (l side).kcp.sndBuf, seg.sn.toNat = i) ∧
    (ikcpWaitsnd (l side).kcp = 0 → ikcpPeeksize (l side.other).kcp < 0 →
      (l side.other).received = (l side).accepted) := by
  have hpair := inv_of_run hrun hs side
  refine ⟨?_, hpair.received_all (hs side)⟩
  intro i hi
  exact (hpair.out.kept i hi).imp id IKCPCB.mem_unacked.mp

/-- A message is lost, sent again, read and acknowledged. -/
def acknowledged : List LinkEvent :=
  [.send .left [1, 2], .update .left 0, .update .left 300, .deliver .right 1, .recv .right 64,
    .update .right 300, .deliver .left 0]

theorem nothing_lost_acknowledged :
    ∃ l, EventSystem.run step (create 7) acknowledged = some l ∧
      (l .right).received = (l .left).accepted := by
  have hrun : (EventSystem.run step (create 7) acknowledged).map
      (fun l => (ikcpWaitsnd (l .left).kcp, decide (ikcpPeeksize (l .right).kcp < 0),
        (l .left).fragments.length, (l .right).fragments.length)) = some (0, true, 1, 0) := by
    decide +kernel
  obtain ⟨l, hl, heq⟩ := Option.map_eq_some_iff.mp hrun
  simp only [Prod.mk.injEq, decide_eq_true_eq] at heq
  obtain ⟨hwait, hnone, hleft, hright⟩ := heq
  have hs : l.Short := by
    intro side
    cases side with
    | left =>
        rw [Endpoint.Short, hleft]
        decide
    | right =>
        rw [Endpoint.Short, hright]
        decide
  exact ⟨l, hl, (nothing_lost hl hs .left).2 hwait hnone⟩

/-- **Neither end holds more than its window**, in any order of events: at most
    32 segments wait for an acknowledgement and at most 256 for the reader, and
    the sender is never more than 160 fragments ahead of the receiver. -/
theorem windows_bounded {conv : IUINT32} {es : List LinkEvent} {l : Link}
    (hrun : EventSystem.run step (create conv) es = some l) (hs : l.Short) (side : Side) :
    Bounded (l side) (l side.other) := (inv_of_run hrun hs side).bounded (hs side)

theorem windows_bounded_reordered :
    ∃ l, EventSystem.run step (create 7) reordered = some l ∧
      (l .left).kcp.sndNxt.toNat ≤ (l .right).kcp.rcvNxt.toNat + 160 := by
  obtain ⟨l, hl, hs, -⟩ := reordered_run
  exact ⟨l, hl, (windows_bounded hl hs .left).ahead⟩

end Link

end Kcp
end UdpSpeed
