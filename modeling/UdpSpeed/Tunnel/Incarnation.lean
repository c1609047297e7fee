/-
  UdpSpeed.Tunnel.Incarnation

  One run of a proxy process, as far as the control session is concerned.  Its
  messages are numbered from `0` on in the order `sendMsg` was called, and the
  datagrams it puts on the wire carry nothing else.
-/

import UdpSpeed.Kcp.Arrival
import UdpSpeed.Kcp.Transmit
import UdpSpeed.Control.Datagram
import UdpSpeed.Tunnel.ProxyTimer

namespace UdpSpeed

open Kcp Control

namespace Tunnel

/-! ## Control datagrams -/

/-- A segment of a control datagram; a PUSH segment carries the message at
    `index`. -/
structure Piece where
  seg : IKCPSEG
  index : Nat
deriving DecidableEq, Repr

/-- A segment of the control session of a proxy that has sent these messages:
    every message is one fragment, and they are numbered in order. -/
def Piece.genuine (sent : List ControlMsg) (p : Piece) : Bool :=
  p.seg.readable 0 && (p.seg.cmd ≠ ikcpCmdPush ||
    (sent[p.index]?).any (fun msg =>
      p.seg.frg = 0 && p.seg.sn = BitVec.ofNat 32 p.index && p.seg.data = msg.encode))

/-- The bytes of a control datagram. -/
def datagramOf (pieces : List Piece) : List Byte := wireAll (pieces.map Piece.seg)

/-- More messages make no difference to the segments of those before. -/
theorem Piece.genuine_append {sent : List ControlMsg} {p : Piece} (h : p.genuine sent)
    (more : List ControlMsg) : p.genuine (sent ++ more) := by
  simp only [Piece.genuine, Bool.and_eq_true, Bool.or_eq_true] at h ⊢
  refine ⟨h.1, h.2.imp id ?_⟩
  intro hany
  obtain ⟨msg, hmsg, hseg⟩ := (Option.any_eq_true _ _).mp hany
  refine (Option.any_eq_true _ _).mpr ⟨msg, ?_, hseg⟩
  rw [List.getElem?_append_left (List.getElem?_eq_some_iff.mp hmsg).1, hmsg]

/-! ## The process -/

/-- The control session of a process, the messages it has sent, and its datagrams
    so far. -/
structure Incarnation where
  sess : ControlSession
  sent : List ControlMsg
  datagrams : List (List Byte)

/-- What happens to the control session.  The proxy itself never updates the KCP
    object; whoever does finds a clock. -/
inductive ControlCall where
  | sendMsg (msg : ControlMsg)
  | parseMsg (packet : List Byte)
  | update (clock : IUINT32)

namespace Incarnation

def create : Incarnation where
  sess := .create
  sent := []
  datagrams := []

def step (p : Incarnation) : ControlCall → Option Incarnation
  | .sendMsg msg =>
      some { p with sess := p.sess.sendMsg msg.encode, sent := p.sent ++ [msg] }
  -- an abort is the end of the process
  | .parseMsg packet =>
      (p.sess.parseMsg packet).toOption.map (fun r => { p with sess := r.2.2 })
  | .update clock =>
      some { p with
        sess := { p.sess with kcp := (ikcpUpdate p.sess.kcp clock).1 }
        datagrams := p.datagrams ++ (ikcpUpdate p.sess.kcp clock).2 }

/-- A datagram that the server can take for what it is. -/
def Sendable (sent : List ControlMsg) (datagram : List Byte) : Prop :=
  ∃ pieces, datagram = datagramOf pieces ∧ (∀ p ∈ pieces, p.genuine sent) ∧
    datagram.length ≤ 4096

/-- What holds between two calls. -/
structure Inv (p : Incarnation) : Prop where
  conv : p.sess.kcp.conv = 0
  account : SendInv p.sess.kcp (p.sent.map ControlMsg.encode) p.datagrams
  sendable : ∀ datagram ∈ p.datagrams, Sendable p.sent datagram

theorem Inv.create : Inv Incarnation.create where
  conv := rfl
  account := sendInv_freshKcp 0 []
  sendable := by
    intro datagram hin
    cases hin

theorem encode_length_le (msg : ControlMsg) : msg.encode.length ≤ 5 := by
  cases msg <;> simp [ControlMsg.encode, createMsg, destroyMsg, rspMsg, htonlBytes]

/-- A control message is one fragment. -/
theorem fragmentsOf_encode (sent : List ControlMsg) :
    fragmentsOf 0 (sent.map ControlMsg.encode) =
      sent.map (fun msg => { frg := 0, data := msg.encode }) := by
  rw [fragmentsOf, List.flatMap_map]
  induction sent with
  | nil => rfl
  | cons msg rest ih =>
      have hlen := encode_length_le msg
      have hone : fragmentCount (tunnelCfg 0) msg.encode.length = 1 :=
        if_pos (show msg.encode.length ≤ 1376 by omega)
      have hwhole : msg.encode.take (tunnelCfg 0).mss = msg.encode :=
        List.take_of_length_le (show msg.encode.length ≤ 1376 by omega)
      rw [List.flatMap_cons, ih, hone, fragment, fragment, hwhole]
      rfl

/-- A copy of a fragment is the segment of a message. -/
theorem genuine_of_copy {sent : List ControlMsg} {seg : IKCPSEG}
    (h : CopyOf 0 (fragmentsOf 0 (sent.map ControlMsg.encode)) seg) :
    ∃ index, Piece.genuine sent ⟨seg, index⟩ := by
  have hsmall := h.data_length
  obtain ⟨index, frag, hfrag, hconv, hcmd, hfrg, hsn, hdata⟩ := h
  rw [fragmentsOf_encode, List.getElem?_map, Option.map_eq_some_iff] at hfrag
  obtain ⟨msg, hmsg, rfl⟩ := hfrag
  have hread : seg.readable 0 := by
    refine IKCPSEG.readable_iff.mpr ⟨hconv, ?_, by omega⟩
    rw [hcmd]
    decide
  refine ⟨index, ?_⟩
  simp only [Piece.genuine, hread, hmsg, hfrg, hsn, hdata, Option.any_some, decide_true,
    Bool.and_self, Bool.or_true]

theorem genuine_of_signal (sent : List ControlMsg) {seg : IKCPSEG} (h : seg.Signal 0) :
    Piece.genuine sent ⟨seg, 0⟩ := by
  obtain ⟨hconv, hcmd, hdata⟩ := h
  have hkind : ∀ cmd ∈ [ikcpCmdAck, ikcpCmdWask, ikcpCmdWins],
      validCmd cmd ∧ cmd ≠ ikcpCmdPush := by decide
  obtain ⟨hvalid, hpush⟩ := hkind seg.cmd hcmd
  have hread : seg.readable 0 := by
    refine IKCPSEG.readable_iff.mpr ⟨hconv, hvalid, ?_⟩
    rw [hdata, List.length_nil]
    omega
  simp only [Piece.genuine, hread, hpush, ne_eq, not_false_eq_true, decide_true, Bool.true_or,
    Bool.and_self]

/-- What an update puts on the wire. -/
theorem Inv.update_sendable {p : Incarnation} (h : Inv p) {clock : IUINT32} {datagram : List Byte}
    (hin : datagram ∈ (ikcpUpdate p.sess.kcp clock).2) : Sendable p.sent datagram := by
  obtain ⟨hlen, group, rfl, hgroup⟩ := h.account.update_contents hin
  rw [h.conv] at hgroup
  have htag : ∀ seg ∈ group, ∃ index, Piece.genuine p.sent ⟨seg, index⟩ := by
    intro seg hseg
    rcases hgroup seg hseg with hsig | hcopy
    · exact ⟨0, genuine_of_signal p.sent hsig⟩
    · exact genuine_of_copy hcopy
  choose! index hgenuine using htag
  have hsegs : (group.map (fun seg => (⟨seg, index seg⟩ : Piece))).map Piece.seg = group := by
    rw [List.map_map]
    exact List.map_id group
  refine ⟨group.map (fun seg => ⟨seg, index seg⟩), ?_, ?_, by omega⟩
  · rw [datagramOf, hsegs]
  · intro x hx
    obtain ⟨seg, hseg, rfl⟩ := List.mem_map.mp hx
    exact hgenuine seg hseg

theorem Inv.step {p p' : Incarnation} {c : ControlCall} (h : Inv p)
    (hstep : p.step c = some p') : Inv p' := by
  cases c with
  | sendMsg msg =>
      obtain rfl := Option.some.inj hstep
      have hlen := encode_length_le msg
      have hok : (ikcpSend p.sess.kcp msg.encode).1 = 0 :=
        ikcpSend_accepts h.account.cfg (by omega)
      have haccount := h.account.ikcpSend msg.encode
      rw [if_neg (not_not.mpr hok)] at haccount
      refine ⟨?_, ?_, ?_⟩
      · exact (congrArg IKCPCFG.conv (ikcpSend_cfg p.sess.kcp msg.encode)).trans h.conv
      · rw [List.map_append]
        exact haccount
      · intro datagram hin
        obtain ⟨pieces, hbytes, hgen, hlen⟩ := h.sendable datagram hin
        exact ⟨pieces, hbytes, fun x hx => Piece.genuine_append (hgen x hx) [msg], hlen⟩
  | parseMsg packet =>
      obtain ⟨r, hr, rfl⟩ := Option.map_eq_some_iff.mp hstep
      cases hparse : p.sess.parseMsg packet with
      | error e =>
          rw [hparse] at hr
          cases hr
      | ok r' =>
          rw [hparse] at hr
          obtain rfl := Option.some.inj hr
          have hframe := ControlSession.parseMsg_sndFrame hparse
          have hconv := (congrArg IKCPCFG.conv hframe.cfg).trans h.conv
          exact ⟨hconv, h.account.frame hframe, h.sendable⟩
  | update clock =>
      obtain rfl := Option.some.inj hstep
      refine ⟨?_, h.account.ikcpUpdate clock, ?_⟩
      · exact (congrArg IKCPCFG.conv (ikcpUpdate_cfg p.sess.kcp clock)).trans h.conv
      · intro datagram hin
        rcases List.mem_append.mp hin with hold | hnew
        · exact h.sendable datagram hold
        · exact h.update_sendable hnew

/-- A process takes no message back. -/
theorem sent_step {p p' : Incarnation} {c : ControlCall} (hstep : p.step c = some p') :
    ∃ more, p'.sent = p.sent ++ more := by
  cases c with
  | sendMsg msg =>
      obtain rfl := Option.some.inj hstep
      exact ⟨[msg], rfl⟩
  | parseMsg packet =>
      obtain ⟨r, -, rfl⟩ := Option.map_eq_some_iff.mp hstep
      exact ⟨[], (List.append_nil _).symm⟩
  | update clock =>
      obtain rfl := Option.some.inj hstep
      exact ⟨[], (List.append_nil _).symm⟩

end Incarnation
end Tunnel
end UdpSpeed
