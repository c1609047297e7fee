/-
  UdpSpeed.Control.RoundTrip

  What a sequence of `parseMsg` calls makes of a control byte stream that
  arrives in arbitrary pieces.

  The specification is `RoundTrip`: after `k` calls the outputs are the
  maximal list of complete messages in the bytes received so far, the buffer
  is the incomplete tail, and each output reads back as the message that was
  sent.  The framing loop is guarded by `recvBuffer_.empty()` where it should
  run while the buffer is *not* empty, so no call ever outputs a message; the
  specification is met exactly as long as there is none to output.
-/

import UdpSpeed.Lib.Framing
import UdpSpeed.Control.ControlSession

namespace UdpSpeed

open Kcp

namespace Control

/-! ## Feeding datagrams -/

/-- `packet` is accepted by KCP and makes `payload` available to `ikcp_recv`. -/
def Delivers (kcp : IKCPCB) (packet payload : List Byte) : Prop :=
  0 ≤ (ikcpInput kcp packet).1 ∧
    ikcpPeeksize (ikcpInput kcp packet).2 = payload.length ∧
    (ikcpRecv (ikcpInput kcp packet).2 payload.length).2.1 = payload

instance (kcp : IKCPCB) (packet payload : List Byte) : Decidable (Delivers kcp packet payload) :=
  inferInstanceAs (Decidable (_ ∧ _))

/-- The KCP object after `packet` came in and its message was read. -/
def afterDelivery (kcp : IKCPCB) (packet : List Byte) : IKCPCB :=
  (ikcpRecv (ikcpInput kcp packet).2 (ikcpPeeksize (ikcpInput kcp packet).2)).2.2

/-- The datagrams, fed one after the other, deliver the payloads one each. -/
def Feeds : IKCPCB → List (List Byte) → List (List Byte) → Prop
  | _, [], [] => True
  | kcp, packet :: packets, payload :: payloads =>
      Delivers kcp packet payload ∧ Feeds (afterDelivery kcp packet) packets payloads
  | _, _, _ => False

/-- Successive `parseMsg` calls: all `aryMsg` outputs and the session
    afterwards. -/
def parseAll : ControlSession → List (List Byte) →
    Except Abort (List (List Byte) × ControlSession)
  | s, [] => .ok ([], s)
  | s, packet :: packets =>
      match s.parseMsg packet with
      | .error e => .error e
      | .ok (_, aryMsg, s) =>
          match parseAll s packets with
          | .error e => .error e
          | .ok (rest, s) => .ok (aryMsg ++ rest, s)

/-- The control codec works up to call `k`. -/
def RoundTrip (s : ControlSession) (msgs : List ControlMsg) (packets payloads : List (List Byte))
    (k : Nat) : Prop :=
  ∃ out s', parseAll s (packets.take k) = .ok (out, s') ∧
    Framing.Split getMsgLength (payloads.take k).flatten out s'.recvBuffer ∧
    List.Forall₂ ControlMsg.ReadsBack out (msgs.take out.length)

/-! ## What the calls do -/

theorem Feeds.take {kcp : IKCPCB} {packets payloads : List (List Byte)}
    (h : Feeds kcp packets payloads) (k : Nat) :
    Feeds kcp (packets.take k) (payloads.take k) := by
  induction k generalizing kcp packets payloads with
  | zero => simp [Feeds]
  | succ k ih =>
      cases packets with
      | nil =>
          cases payloads with
          | nil => simp [Feeds]
          | cons => exact h.elim
      | cons packet packets =>
          cases payloads with
          | nil => exact h.elim
          | cons payload payloads => exact ⟨h.1, ih h.2⟩

/-- A call whose datagram delivers a non-empty payload outputs nothing and
    appends the payload to `recvBuffer_`. -/
theorem parseMsg_of_delivers {s : ControlSession} {packet payload : List Byte}
    (h : Delivers s.kcp packet payload) (hne : payload ≠ []) :
    s.parseMsg packet = .ok (1, [],
      { kcp := afterDelivery s.kcp packet, recvBuffer := s.recvBuffer ++ payload }) := by
  obtain ⟨hin, hpeek, hrecv⟩ := h
  have hpos : 0 < payload.length := List.length_pos_iff.mpr hne
  have hsome : 0 ≤ ikcpPeeksize (ikcpInput s.kcp packet).2 := by omega
  have hdata := (ikcpRecv_peeksize hsome).2
  rw [hpeek, hrecv] at hdata
  rw [parseMsg_eq]
  dsimp only
  rw [if_neg (by omega), if_neg (by omega), if_neg (by omega), ← hdata]
  rfl

/-- All the calls together: no output, every byte kept. -/
theorem parseAll_of_feeds {s : ControlSession} {packets payloads : List (List Byte)}
    (h : Feeds s.kcp packets payloads) (hne : ∀ p ∈ payloads, p ≠ []) :
    ∃ kcp, parseAll s packets =
      .ok ([], { kcp := kcp, recvBuffer := s.recvBuffer ++ payloads.flatten }) := by
  induction packets generalizing s payloads with
  | nil =>
      cases payloads with
      | nil => exact ⟨s.kcp, by simp [parseAll]⟩
      | cons => exact h.elim
  | cons packet packets ih =>
      cases payloads with
      | nil => exact h.elim
      | cons payload payloads =>
          have hcall := parseMsg_of_delivers h.1 (hne payload (List.mem_cons_self ..))
          obtain ⟨kcp, hrest⟩ := ih (s := ⟨afterDelivery s.kcp packet, s.recvBuffer ++ payload⟩)
            h.2 (fun p hp => hne p (List.mem_cons_of_mem _ hp))
          -- the first call keeps its payload, the others follow by induction
          refine ⟨kcp, ?_⟩
          simp only [parseAll, hcall, hrest, List.flatten_cons, List.append_assoc,
            List.nil_append]

/-- The codec works up to call `k` exactly when the bytes received by then
    hold no complete message. -/
theorem roundTrip_iff_incomplete {s : ControlSession} (hempty : s.recvBuffer = [])
    (msgs : List ControlMsg) {packets payloads : List (List Byte)}
    (hfeed : Feeds s.kcp packets payloads) (hne : ∀ p ∈ payloads, p ≠ []) (k : Nat) :
    RoundTrip s msgs packets payloads k ↔
      Framing.Incomplete getMsgLength (payloads.take k).flatten := by
  obtain ⟨kcp, hparse⟩ := parseAll_of_feeds (hfeed.take k)
    (fun p hp => hne p (List.mem_of_mem_take hp))
  rw [hempty, List.nil_append] at hparse
  constructor
  · rintro ⟨out, s', hout, hsplit, -⟩
    -- the calls output nothing, so a split can only be the trivial one
    obtain ⟨rfl, rfl⟩ := Prod.mk.inj (Except.ok.inj (hparse.symm.trans hout))
    exact (Framing.split_nil_iff.mp hsplit).2
  · intro hinc
    exact ⟨[], _, hparse, Framing.split_nil_iff.mpr ⟨rfl, hinc⟩, List.Forall₂.nil⟩

theorem encode_complete (m : ControlMsg) : Framing.Complete getMsgLength m.encode := by
  obtain ⟨a, rest, h⟩ := List.exists_cons_of_ne_nil m.encode_ne_nil
  refine ⟨a, rest, h, ?_⟩
  rw [m.encode_length, h]
  rfl

/-- **The control codec under any cutting.**  After call `k` the codec has done
    its work exactly when the bytes received by then are shorter than the first
    message; over a whole delivery it does so only for the empty list. -/
theorem control_roundTrip_iff (s : ControlSession) (hempty : s.recvBuffer = [])
    (msgs : List ControlMsg) (packets payloads : List (List Byte))
    (hcut : payloads.flatten = (msgs.map ControlMsg.encode).flatten)
    (hne : ∀ p ∈ payloads, p ≠ []) (hfeed : Feeds s.kcp packets payloads) :
    (∀ k, RoundTrip s msgs packets payloads k ↔
      ∀ m ∈ msgs.head?, (payloads.take k).flatten.length < m.encode.length) ∧
    ((∀ k, RoundTrip s msgs packets payloads k) ↔ msgs = []) := by
  have hcall : ∀ k, RoundTrip s msgs packets payloads k ↔
      ∀ m ∈ msgs.head?, (payloads.take k).flatten.length < m.encode.length := by
    intro k
    rw [roundTrip_iff_incomplete hempty msgs hfeed hne k]
    have happ : (payloads.take k).flatten ++ (payloads.drop k).flatten = payloads.flatten := by
      rw [← List.flatten_append, List.take_append_drop]
    -- without a message there are no bytes; otherwise the first message decides
    cases msgs with
    | nil =>
        rw [hcut] at happ
        have hnil : (payloads.take k).flatten = [] := (List.append_eq_nil_iff.mp happ).1
        rw [hnil]
        simp [Framing.incomplete_nil]
    | cons m rest =>
        rw [hcut, List.map_cons, List.flatten_cons] at happ
        rw [Framing.incomplete_prefix_iff (encode_complete m) happ]
        simp
  refine ⟨hcall, ?_⟩
  constructor
  · intro hall
    -- after the last call all the bytes are there, the first message included
    cases msgs with
    | nil => rfl
    | cons m rest =>
        have hlast := (hcall payloads.length).mp (hall payloads.length) m rfl
        rw [List.take_length, hcut] at hlast
        simp at hlast
  · rintro rfl k
    rw [hcall k]
    simp

/-- The datagram a fresh peer sends for its first control message. -/
def firstPush (sn : IUINT32) (payload : List Byte) : List Byte :=
  ikcpEncodeSeg { conv := 0, cmd := ikcpCmdPush, wnd := 128, sn := sn, data := payload }
    ++ payload

/-- A response cut inside its id, and the request behind it in the same
    payload: the codec works after the first call and not after the second. -/
theorem control_roundTrip_iff_cut :
    RoundTrip .create [.rspCreateSession 7, .createSession]
      [firstPush 0 [3, 0, 0], firstPush 1 [0, 7, 1]] [[3, 0, 0], [0, 7, 1]] 1 ∧
    ¬ RoundTrip .create [.rspCreateSession 7, .createSession]
      [firstPush 0 [3, 0, 0], firstPush 1 [0, 7, 1]] [[3, 0, 0], [0, 7, 1]] 2 := by
  have h := control_roundTrip_iff .create rfl [.rspCreateSession 7, .createSession]
    [firstPush 0 [3, 0, 0], firstPush 1 [0, 7, 1]] [[3, 0, 0], [0, 7, 1]]
    (by decide) (by decide) ⟨by decide, by decide, trivial⟩
  refine ⟨(h.1 1).mpr (by decide), fun h2 => ?_⟩
  exact absurd ((h.1 2).mp h2) (by decide)

/-- One `CMD_CREATE_SESSION` in one payload: the call returns normally, and
    outputs nothing. -/
theorem control_roundTrip_lost :
    [[1]].flatten = ([ControlMsg.createSession].map ControlMsg.encode).flatten ∧
    Feeds ControlSession.create.kcp [firstPush 0 [1]] [[1]] ∧
      ¬ RoundTrip .create [.createSession] [firstPush 0 [1]] [[1]] 1 := by
  have hfeed : Feeds ControlSession.create.kcp [firstPush 0 [1]] [[1]] := ⟨by decide, trivial⟩
  refine ⟨rfl, hfeed, ?_⟩
  rw [roundTrip_iff_incomplete rfl _ hfeed (by decide)]
  intro hinc
  exact absurd (hinc 1 [] rfl) (by decide)

end Control
end UdpSpeed
