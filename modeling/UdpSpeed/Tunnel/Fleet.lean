/-
  UdpSpeed.Tunnel.Fleet

  Any number of proxies and one server.  Each proxy process, and each restart of
  one, numbers its control messages from `0` on, but the server has a single
  KCP object for the control datagrams of all of them.  A number that one
  process has used is used up for the others: their segments are acknowledged
  as old duplicates and dropped.
-/

import UdpSpeed.Tunnel.Incarnation
import UdpSpeed.Server.Routing

namespace UdpSpeed

open Kcp Control Muduo Server SerialNumber

namespace Tunnel

/-- A control message: which incarnation of a proxy sent it, and its place among
    the messages of that incarnation. -/
abbrev MsgId := Nat × Nat

/-! ## The ledger -/

/-- What became of the messages: those whose segment was put on the
    acknowledgement list, whose message was taken under a number, and those
    appended to the byte stream of `parseMsg`, in order. -/
structure Ledger where
  acked : List MsgId
  owner : IUINT32 → MsgId
  stream : List MsgId

namespace Ledger

def create : Ledger where
  acked := []
  owner := fun _ => (0, 0)
  stream := []

/-- The messages held in the receive queue and the receive buffer. -/
def held (l : Ledger) (kcp : IKCPCB) : List MsgId := kcp.waiting.map (fun seg => l.owner seg.sn)

/-- The messages in the stream and those held behind it. -/
def received (l : Ledger) (kcp : IKCPCB) : List MsgId := l.stream ++ l.held kcp

/-- After a segment of message `id` has turned `kcp` into `kcp'`: whether it was
    acknowledged and taken is seen from the object. -/
def segment (l : Ledger) (kcp kcp' : IKCPCB) (id : MsgId) (sn : IUINT32) : Ledger where
  acked := if kcp.acklist.length < kcp'.acklist.length then l.acked ++ [id] else l.acked
  owner := if kcp.waiting.length < kcp'.waiting.length then Function.update l.owner sn id
    else l.owner
  stream := l.stream

/-- After the segments of a datagram. -/
def segments (inc : Nat) : List Piece → Option IUINT32 → IKCPCB → Ledger → Ledger
  | [], _, _, l => l
  | p :: rest, maxack, kcp, l =>
      let r := inputSegment kcp maxack p.seg.header p.seg.data
      segments inc rest r.2 r.1 (l.segment kcp r.1 (inc, p.index) p.seg.sn)

/-- After `ikcp_recv` has read the message at the head of the queue. -/
def read (l : Ledger) (kcp : IKCPCB) : Ledger :=
  { l with stream := l.stream ++ (headMessage kcp.rcvQueue).map (fun seg => l.owner seg.sn) }

/-- After `parseMsg` on a datagram; it returns a positive code if it has read a
    message. -/
def parsed (l : Ledger) (s : ControlSession) (inc : Nat) (pieces : List Piece) : Ledger :=
  let l' := l.segments inc pieces none s.kcp
  match s.parseMsg (datagramOf pieces) with
  | .error _ => l'
  | .ok r => if 0 < r.1 then l'.read (ikcpInput s.kcp (datagramOf pieces)).2 else l'

end Ledger

/-! ## The fleet -/

/-- The server, the proxies in all their incarnations, and the ledger. -/
structure Fleet where
  server : KcpServer
  proxies : Nat → Incarnation
  ledger : Ledger

/-- Something happens to the control session of an incarnation; a datagram it has
    sent reaches the server, as often and as late as the network likes; anything
    else happens at the server. -/
inductive FleetEvent where
  | call (inc : Nat) (c : ControlCall)
  | datagram (inc : Nat) (pieces : List Piece) (remote : SockAddr) (now : Int)
  | server (e : Server.Event)

namespace Fleet

def create (id : IUINT32) : Fleet where
  server := .create id
  proxies := fun _ => .create
  ledger := .create

/-- The messages an incarnation has sent. -/
def sent (f : Fleet) (inc : Nat) : List ControlMsg := (f.proxies inc).sent

/-- A datagram for the control session. -/
def isControl (s : KcpServer) : Server.Event → Bool
  | .datagram bytes _ _ => s.route (bytes.take 4096) = .control
  | _ => false

/-- Every control datagram is one that an incarnation has sent; its segments are
    tagged with the messages they carry. -/
def step (f : Fleet) : FleetEvent → Option Fleet
  | .call inc c =>
      ((f.proxies inc).step c).map (fun p =>
        { f with proxies := Function.update f.proxies inc p })
  | .datagram inc pieces remote now =>
      if datagramOf pieces ∈ (f.proxies inc).datagrams ∧
          pieces.all (Piece.genuine (f.sent inc)) then
        (f.server.step (.datagram (datagramOf pieces) remote now)).map (fun s =>
          { f with
            server := s
            ledger :=
              if f.server.route (datagramOf pieces) = .control then
                f.ledger.parsed f.server.controlSess inc pieces
              else f.ledger })
      else none
  | .server e =>
      if isControl f.server e then none
      else (f.server.step e).map (fun s => { f with server := s })

/-- The bytes of a message. -/
def bytesOf (sent : Nat → List ControlMsg) (id : MsgId) : List Byte :=
  ((sent id.1)[id.2]?).elim [] ControlMsg.encode

/-- An earlier message of the same incarnation. -/
def InOrder (a b : MsgId) : Prop := a.1 = b.1 → a.2 < b.2

/-- Acknowledged messages are held or delivered exactly once, each incarnation's
    in the order it sent them; the ledger says what the bytes are. -/
structure Delivered (f : Fleet) : Prop where
  once : ∀ id ∈ f.ledger.acked, (f.ledger.received f.server.controlSess.kcp).count id = 1
  order : f.ledger.stream.Pairwise InOrder
  stream : f.server.controlSess.recvBuffer = f.ledger.stream.flatMap (bytesOf f.sent)
  held : ∀ seg ∈ f.server.controlSess.kcp.waiting, seg.data = bytesOf f.sent (f.ledger.owner seg.sn)

end Fleet

/-! ## No contention for numbers -/

namespace Ledger

/-- The place of the number among those received is the place of the message
    among those of its incarnation. -/
def InPlace (l : Ledger) (kcp : IKCPCB) (id : MsgId) (sn : IUINT32) : Prop :=
  (∀ a ∈ l.stream, Fleet.InOrder a id) ∧
    ∀ seg ∈ kcp.waiting,
      (offset kcp.readPos seg.sn < offset kcp.readPos sn → Fleet.InOrder (l.owner seg.sn) id) ∧
      (offset kcp.readPos sn < offset kcp.readPos seg.sn → Fleet.InOrder id (l.owner seg.sn))

/-- A segment that would be acknowledged: if its number is free it comes in
    place, and otherwise it repeats a message that was taken before. -/
def Fits (l : Ledger) (kcp : IKCPCB) (inc : Nat) (p : Piece) : Prop :=
  p.seg.cmd = ikcpCmdPush → kcp.acknowledges p.seg.sn →
    (kcp.Admits p.seg.sn → l.InPlace kcp (inc, p.index) p.seg.sn) ∧
      (¬ kcp.Admits p.seg.sn → (inc, p.index) ∈ l.received kcp)

/-- Each segment of a datagram fits when its turn comes. -/
def FitsAll (inc : Nat) : List Piece → Option IUINT32 → IKCPCB → Ledger → Prop
  | [], _, _, _ => True
  | p :: rest, maxack, kcp, l =>
      l.Fits kcp inc p ∧
        let r := inputSegment kcp maxack p.seg.header p.seg.data
        FitsAll inc rest r.2 r.1 (l.segment kcp r.1 (inc, p.index) p.seg.sn)

end Ledger

instance (a b : MsgId) : Decidable (Fleet.InOrder a b) :=
  inferInstanceAs (Decidable (a.1 = b.1 → a.2 < b.2))

instance (kcp : IKCPCB) (sn : IUINT32) : Decidable (kcp.Admits sn) :=
  inferInstanceAs (Decidable (_ ∧ ∀ seg ∈ kcp.rcvBuf, seg.sn ≠ sn))

instance (l : Ledger) (kcp : IKCPCB) (id : MsgId) (sn : IUINT32) :
    Decidable (l.InPlace kcp id sn) :=
  inferInstanceAs (Decidable (_ ∧ ∀ seg ∈ kcp.waiting, _))

instance (l : Ledger) (kcp : IKCPCB) (inc : Nat) (p : Piece) : Decidable (l.Fits kcp inc p) :=
  inferInstanceAs (Decidable (_ → _ → _ ∧ _))

instance decidableFitsAll (inc : Nat) : ∀ (pieces : List Piece) (maxack : Option IUINT32)
    (kcp : IKCPCB) (l : Ledger), Decidable (Ledger.FitsAll inc pieces maxack kcp l)
  | [], _, _, _ => .isTrue trivial
  | p :: rest, _, kcp, l =>
      have := decidableFitsAll inc rest
      inferInstanceAs (Decidable (l.Fits kcp inc p ∧ Ledger.FitsAll inc rest _ _ _))

/-- Each control datagram fits. -/
def Fleet.Fits (f : Fleet) : FleetEvent → Prop
  | .datagram inc pieces _ _ => f.server.route (datagramOf pieces) = .control →
      Ledger.FitsAll inc pieces none f.server.controlSess.kcp f.ledger
  | _ => True

instance (f : Fleet) (e : FleetEvent) : Decidable (f.Fits e) :=
  match e with
  | .datagram _ _ _ _ => inferInstanceAs (Decidable (_ → _))
  | .call _ _ => .isTrue trivial
  | .server _ => .isTrue trivial

/-! ## One datagram -/

/-- What holds of the ledger and the KCP object of the server. -/
structure LedgerInv (sent : Nat → List ControlMsg) (l : Ledger) (kcp : IKCPCB) : Prop where
  rcv : RcvInv kcp
  acked : ∀ id ∈ l.acked, id ∈ l.received kcp
  order : (l.received kcp).Pairwise Fleet.InOrder
  known : ∀ id ∈ l.received kcp, id.2 < (sent id.1).length
  held : ∀ seg ∈ kcp.waiting, seg.data = Fleet.bytesOf sent (l.owner seg.sn)

theorem ledgerInv_create (sent : Nat → List ControlMsg) :
    LedgerInv sent .create (freshKcp 0) where
  rcv := rcvInv_freshKcp 0
  acked := by
    intro id hin
    cases hin
  order := List.Pairwise.nil
  known := by
    intro id hin
    cases hin
  held := by
    intro seg hin
    cases hin

/-- The ledger only reads the receive side. -/
theorem LedgerInv.congr {sent : Nat → List ControlMsg} {l : Ledger} {kcp kcp' : IKCPCB}
    (h : LedgerInv sent l kcp) (hsame : SameRcv kcp kcp') : LedgerInv sent l kcp' := by
  have hwaiting : kcp'.waiting = kcp.waiting := by
    rw [IKCPCB.waiting, hsame.2.1, hsame.2.2.1]
    rfl
  have hreceived : l.received kcp' = l.received kcp := by
    rw [Ledger.received, Ledger.held, hwaiting]
    rfl
  refine ⟨h.rcv.congr hsame, ?_, ?_, ?_, ?_⟩
  · rw [hreceived]
    exact h.acked
  · rw [hreceived]
    exact h.order
  · rw [hreceived]
    exact h.known
  · rw [hwaiting]
    exact h.held

/-- A PUSH segment carries the message it is tagged with. -/
theorem Piece.genuine_push {sent : List ControlMsg} {p : Piece} (h : p.genuine sent)
    (hpush : p.seg.cmd = ikcpCmdPush) :
    ∃ msg, sent[p.index]? = some msg ∧ p.seg.sn = BitVec.ofNat 32 p.index ∧
      p.seg.data = msg.encode := by
  simp only [Piece.genuine, hpush, Bool.and_eq_true, Bool.or_eq_true, ne_eq,
    not_true_eq_false, decide_false, Bool.false_eq_true, false_or] at h
  obtain ⟨msg, hmsg, hseg⟩ := (Option.any_eq_true _ _).mp h.2
  simp only [Bool.and_eq_true, decide_eq_true_eq] at hseg
  exact ⟨msg, hmsg, hseg.1.2, hseg.2⟩

/-- Putting an element between two parts of an ordered list. -/
theorem pairwise_insert {xs ys : List MsgId} {id : MsgId} (h : (xs ++ ys).Pairwise Fleet.InOrder)
    (hxs : ∀ a ∈ xs, Fleet.InOrder a id) (hys : ∀ a ∈ ys, Fleet.InOrder id a) :
    (xs ++ id :: ys).Pairwise Fleet.InOrder := by
  obtain ⟨hx, hy, hxy⟩ := List.pairwise_append.mp h
  refine List.pairwise_append.mpr ⟨hx, List.pairwise_cons.mpr ⟨hys, hy⟩, ?_⟩
  intro a ha b hb
  rcases List.mem_cons.mp hb with rfl | hb'
  · exact hxs a ha
  · exact hxy a ha b hb'

/-- The message of a segment goes to its place among those received. -/
theorem Ledger.received_placed {l : Ledger} {kcp kcp' : IKCPCB} {seg : IKCPSEG} {id : MsgId}
    (hplaced : Placed kcp kcp' seg) (hplace : l.InPlace kcp id seg.sn) (acked : List MsgId) :
    ∃ front back, l.received kcp = front ++ back ∧
      Ledger.received ⟨acked, Function.update l.owner seg.sn id, l.stream⟩ kcp' =
        front ++ id :: back ∧
      (∀ a ∈ front, Fleet.InOrder a id) ∧ ∀ a ∈ back, Fleet.InOrder id a := by
  have hne := fun x hx => hplaced.sn_ne (x := x) hx
  obtain ⟨before, after, seg', hold, hnew, hsn', -, -, hbefore, hafter⟩ := hplaced
  obtain ⟨hstream, hwaiting⟩ := hplace
  rw [hold] at hne hwaiting
  -- the others keep their owners
  have howner : ∀ segs : List IKCPSEG, (∀ x ∈ segs, x ∈ before ++ after) →
      segs.map (fun x => Function.update l.owner seg.sn id x.sn) =
        segs.map (fun x => l.owner x.sn) := by
    intro segs hsub
    apply List.map_congr_left
    intro x hx
    exact Function.update_of_ne (hne x (hsub x hx)) _ _
  refine ⟨l.stream ++ before.map (fun x => l.owner x.sn), after.map (fun x => l.owner x.sn),
    ?_, ?_, ?_, ?_⟩
  · rw [Ledger.received, Ledger.held, hold, List.map_append, List.append_assoc]
  · rw [Ledger.received, Ledger.held, hnew, List.map_append, List.map_cons,
      howner before (fun _ hx => List.mem_append_left _ hx),
      howner after (fun _ hx => List.mem_append_right _ hx), hsn']
    dsimp only
    rw [Function.update_self, List.append_assoc]
  · intro a ha
    rcases List.mem_append.mp ha with hs | hb
    · exact hstream a hs
    · obtain ⟨x, hx, rfl⟩ := List.mem_map.mp hb
      exact (hwaiting x (List.mem_append_left _ hx)).1 (hbefore x hx)
  · intro a ha
    obtain ⟨x, hx, rfl⟩ := List.mem_map.mp ha
    exact (hwaiting x (List.mem_append_right _ hx)).2 (hafter x hx)

/-- The segment is taken: its message goes to its place. -/
theorem LedgerInv.taken {sent : Nat → List ControlMsg} {l : Ledger} {kcp kcp' : IKCPCB}
    (h : LedgerInv sent l kcp) (hinv : RcvInv kcp') {seg : IKCPSEG} {id : MsgId} {msg : ControlMsg}
    (hplaced : Placed kcp kcp' seg) (hplace : l.InPlace kcp id seg.sn)
    (hmsg : (sent id.1)[id.2]? = some msg) (hdata : seg.data = msg.encode) :
    LedgerInv sent
      { acked := l.acked ++ [id], owner := Function.update l.owner seg.sn id, stream := l.stream }
      kcp' := by
  obtain ⟨front, back, hold, hnew, hfront, hback⟩ :=
    Ledger.received_placed hplaced hplace (l.acked ++ [id])
  have horder := h.order
  have hknown := h.known
  have hacked := h.acked
  rw [hold] at horder hknown hacked
  refine ⟨hinv, ?_, ?_, ?_, ?_⟩
  · rw [hnew]
    intro a ha
    rw [List.mem_append, List.mem_cons]
    rcases List.mem_append.mp ha with hprev | hself
    · rcases List.mem_append.mp (hacked a hprev) with hb | hc
      · exact Or.inl hb
      · exact Or.inr (Or.inr hc)
    · exact Or.inr (Or.inl (List.mem_singleton.mp hself))
  · rw [hnew]
    exact pairwise_insert horder hfront hback
  · rw [hnew]
    intro a ha
    rw [List.mem_append, List.mem_cons] at ha
    rcases ha with hb | rfl | hc
    · exact hknown a (List.mem_append_left _ hb)
    · exact (List.getElem?_eq_some_iff.mp hmsg).1
    · exact hknown a (List.mem_append_right _ hc)
  · intro x hx
    dsimp only
    rcases hplaced.mem_waiting hx with hin | ⟨hsn, hd⟩
    · rw [Function.update_of_ne (hplaced.sn_ne hin)]
      exact h.held x hin
    · rw [hd, hsn, Function.update_self, hdata, Fleet.bytesOf, hmsg, Option.elim_some]

/-- One segment of a datagram. -/
theorem LedgerInv.segment {sent : Nat → List ControlMsg} {l : Ledger} {kcp kcp' : IKCPCB}
    (h : LedgerInv sent l kcp) {inc : Nat} {p : Piece} (hgen : p.genuine (sent inc))
    (hfits : l.Fits kcp inc p) (harr : Arrived kcp kcp' p.seg) :
    LedgerInv sent (l.segment kcp kcp' (inc, p.index) p.seg.sn) kcp' := by
  have hacks := harr.acks
  unfold Ledger.segment
  by_cases htaken : p.seg.cmd = ikcpCmdPush ∧ kcp.Admits p.seg.sn
  · obtain ⟨hpush, hadm⟩ := htaken
    have hack := h.rcv.acknowledges_of_admits hadm
    have hplaced := harr.placed hpush hadm
    rw [if_pos ⟨hpush, hack⟩] at hacks
    rw [if_pos (by omega), if_pos hplaced.length_lt]
    obtain ⟨msg, hmsg, -, hdata⟩ := Piece.genuine_push hgen hpush
    exact h.taken harr.inv hplaced ((hfits hpush hack).1 hadm) hmsg hdata
  · -- dropped: whoever is acknowledged has been received before
    have hwaiting := harr.dropped htaken
    have hsame : ∀ acked, Ledger.received ⟨acked, l.owner, l.stream⟩ kcp' = l.received kcp := by
      intro acked
      rw [Ledger.received, Ledger.held, hwaiting]
      rfl
    rw [hwaiting, if_neg (lt_irrefl _)]
    refine ⟨harr.inv, ?_, ?_, ?_, ?_⟩
    · rw [hsame]
      by_cases hack : p.seg.cmd = ikcpCmdPush ∧ kcp.acknowledges p.seg.sn
      · rw [if_pos hack] at hacks
        rw [if_pos (by omega)]
        intro id hid
        rcases List.mem_append.mp hid with hprev | hself
        · exact h.acked id hprev
        · rw [List.mem_singleton.mp hself]
          exact (hfits hack.1 hack.2).2 (fun hadm => htaken ⟨hack.1, hadm⟩)
      · rw [if_neg hack] at hacks
        rw [if_neg (by omega)]
        exact h.acked
    · rw [hsame]
      exact h.order
    · rw [hsame]
      exact h.known
    · rw [hwaiting]
      exact h.held

/-- The segments of a datagram, by induction on them. -/
theorem LedgerInv.segments {sent : Nat → List ControlMsg} {inc : Nat} {pieces : List Piece}
    (hgen : ∀ p ∈ pieces, p.genuine (sent inc)) {l : Ledger} {kcp : IKCPCB}
    (h : LedgerInv sent l kcp) {maxack : Option IUINT32}
    (hfits : Ledger.FitsAll inc pieces maxack kcp l) :
    LedgerInv sent (Ledger.segments inc pieces maxack kcp l)
      (inputSegments kcp maxack (pieces.map Piece.seg)).1 := by
  induction pieces generalizing l kcp maxack with
  | nil => exact h
  | cons p rest ih =>
      obtain ⟨hone, hrest⟩ := hfits
      refine ih (fun x hx => hgen x (List.mem_cons_of_mem _ hx)) ?_ hrest
      exact h.segment (hgen p (List.mem_cons_self ..)) hone
        (inputSegment_arrived h.rcv maxack p.seg)

/-! ## Reading -/

/-- A message that is read moves from the queue to the stream; together they stay
    what they are. -/
theorem LedgerInv.read {sent : Nat → List ControlMsg} {l : Ledger} {kcp : IKCPCB}
    (h : LedgerInv sent l kcp) (hsome : 0 ≤ ikcpPeeksize kcp) :
    LedgerInv sent (l.read kcp) (ikcpRecv kcp (ikcpPeeksize kcp)).2.2 := by
  obtain ⟨hinv, hwaiting, -⟩ := h.rcv.ikcpRecv_spec hsome
  have hsplit : kcp.waiting = headMessage kcp.rcvQueue ++
      (ikcpRecv kcp (ikcpPeeksize kcp)).2.2.waiting := by
    conv_lhs => rw [IKCPCB.waiting, ← headMessage_append_afterMessage kcp.rcvQueue]
    rw [IKCPCB.waiting, hwaiting, List.append_assoc]
  have hsame : (l.read kcp).received (ikcpRecv kcp (ikcpPeeksize kcp)).2.2 = l.received kcp := by
    rw [Ledger.received, Ledger.received, Ledger.held, Ledger.held, hsplit, List.map_append,
      ← List.append_assoc]
    rfl
  refine ⟨hinv, ?_, ?_, ?_, ?_⟩
  · rw [hsame]
    exact h.acked
  · rw [hsame]
    exact h.order
  · rw [hsame]
    exact h.known
  · intro seg hin
    refine h.held seg ?_
    rw [hsplit]
    exact List.mem_append_right _ hin

/-- The bytes read are those of the messages the ledger says. -/
theorem LedgerInv.read_bytes {sent : Nat → List ControlMsg} {l : Ledger} {kcp : IKCPCB}
    (h : LedgerInv sent l kcp) :
    (l.read kcp).stream.flatMap (Fleet.bytesOf sent) =
      l.stream.flatMap (Fleet.bytesOf sent) ++ segBytes (headMessage kcp.rcvQueue) := by
  have hhead : ∀ seg ∈ headMessage kcp.rcvQueue, seg ∈ kcp.waiting := by
    intro seg hin
    rw [IKCPCB.waiting, ← headMessage_append_afterMessage kcp.rcvQueue]
    exact List.mem_append_left _ (List.mem_append_left _ hin)
  rw [Ledger.read, List.flatMap_append, List.flatMap_map, segBytes]
  congr 1
  refine List.flatMap_congr ?_
  intro seg hin
  exact (h.held seg (hhead seg hin)).symm

@[simp] theorem Ledger.segments_stream (inc : Nat) (pieces : List Piece) (maxack : Option IUINT32)
    (kcp : IKCPCB) (l : Ledger) : (Ledger.segments inc pieces maxack kcp l).stream = l.stream := by
  induction pieces generalizing maxack kcp l with
  | nil => rfl
  | cons p rest ih =>
      rw [Ledger.segments, ih]
      rfl

/-- What `parseMsg` does with a datagram of whole segments: it takes all of them,
    and then reads one message or none. -/
theorem Ledger.parsed_cases {sent : List ControlMsg} {l : Ledger} {s s' : ControlSession}
    (hready : s.Ready) {inc : Nat} {pieces : List Piece} (hne : pieces ≠ [])
    (hgen : ∀ p ∈ pieces, p.genuine sent) {ret : Int} {aryMsg : List (List Byte)}
    (hparse : s.parseMsg (datagramOf pieces) = .ok (ret, aryMsg, s')) :
    ∃ kcp, SameRcv (inputSegments s.kcp none (pieces.map Piece.seg)).1 kcp ∧
      ((s' = { s with kcp := kcp } ∧
          l.parsed s inc pieces = Ledger.segments inc pieces none s.kcp l) ∨
        (0 ≤ ikcpPeeksize kcp ∧
          s' = { kcp := (ikcpRecv kcp (ikcpPeeksize kcp)).2.2
                 recvBuffer := s.recvBuffer ++ segBytes (headMessage kcp.rcvQueue) } ∧
          l.parsed s inc pieces = (Ledger.segments inc pieces none s.kcp l).read kcp)) := by
  have hread : ∀ seg ∈ pieces.map Piece.seg, seg.readable s.kcp.conv := by
    intro seg hin
    obtain ⟨p, hp, rfl⟩ := List.mem_map.mp hin
    have hone := hgen p hp
    rw [Piece.genuine, Bool.and_eq_true] at hone
    rw [hready.conv]
    exact hone.1
  have hsegs : pieces.map Piece.seg ≠ [] := by rwa [ne_eq, List.map_eq_nil_iff]
  obtain ⟨hcode, hsame⟩ := ikcpInput_wireAll hsegs hread
  refine ⟨_, hsame, ?_⟩
  unfold Ledger.parsed
  rw [hparse]
  dsimp only
  rw [parseMsg_eq] at hparse
  dsimp only at hparse
  rw [if_neg (by rw [datagramOf, hcode]; decide)] at hparse
  split_ifs at hparse with hzero hneg
  · -- an empty message is not read
    obtain ⟨rfl, -, rfl⟩ := hparse
    exact Or.inl ⟨rfl, if_neg (lt_irrefl _)⟩
  · obtain ⟨rfl, -, rfl⟩ := hparse
    exact Or.inr ⟨not_lt.mp hneg, rfl, if_pos (by decide)⟩

/-- **One control datagram.** -/
theorem LedgerInv.parsed {sent : Nat → List ControlMsg} {l : Ledger} {s s' : ControlSession}
    (h : LedgerInv sent l s.kcp) (hready : s.Ready)
    (hbytes : s.recvBuffer = l.stream.flatMap (Fleet.bytesOf sent)) {inc : Nat}
    {pieces : List Piece} (hne : pieces ≠ []) (hgen : ∀ p ∈ pieces, p.genuine (sent inc))
    (hfits : Ledger.FitsAll inc pieces none s.kcp l) {ret : Int} {aryMsg : List (List Byte)}
    (hparse : s.parseMsg (datagramOf pieces) = .ok (ret, aryMsg, s')) :
    LedgerInv sent (l.parsed s inc pieces) s'.kcp ∧
      s'.recvBuffer = (l.parsed s inc pieces).stream.flatMap (Fleet.bytesOf sent) := by
  obtain ⟨kcp, hsame, ⟨rfl, hledger⟩ | ⟨hsome, rfl, hledger⟩⟩ :=
    @Ledger.parsed_cases _ l _ _ hready inc _ hne hgen _ _ hparse
  · have hinput := (h.segments hgen hfits).congr hsame
    rw [hledger, Ledger.segments_stream]
    exact ⟨hinput, hbytes⟩
  · have hinput := (h.segments hgen hfits).congr hsame
    rw [hledger, hinput.read_bytes, Ledger.segments_stream, ← hbytes]
    exact ⟨hinput.read hsome, rfl⟩

/-! ## The run -/

namespace Fleet

/-- What holds between two events. -/
structure Inv (f : Fleet) : Prop where
  proxies : ∀ inc, (f.proxies inc).Inv
  heap : KcpServer.HeapInv f.server
  ready : f.server.controlSess.Ready
  ledger : LedgerInv f.sent f.ledger f.server.controlSess.kcp
  stream : f.server.controlSess.recvBuffer = f.ledger.stream.flatMap (bytesOf f.sent)

theorem Inv.create (id : IUINT32) : Inv (Fleet.create id) where
  proxies := fun _ => .create
  heap := .create id
  ready := ControlSession.ready_create
  ledger := ledgerInv_create _
  stream := rfl

/-- In order, no message comes twice. -/
theorem nodup_of_inOrder {ids : List MsgId} (h : ids.Pairwise InOrder) : ids.Nodup := by
  refine h.imp ?_
  rintro a b hab rfl
  exact lt_irrefl _ (hab rfl)

theorem Inv.delivered {f : Fleet} (h : Inv f) : Delivered f where
  once := by
    intro id hid
    exact List.count_eq_one_of_mem (nodup_of_inOrder h.ledger.order) (h.ledger.acked id hid)
  order := (List.pairwise_append.mp h.ledger.order).1
  stream := h.stream
  held := h.ledger.held

/-- The bytes of a message that has been sent do not change. -/
theorem bytesOf_append {sent sent' : Nat → List ControlMsg}
    (hmore : ∀ inc, ∃ more, sent' inc = sent inc ++ more) {id : MsgId}
    (hknown : id.2 < (sent id.1).length) : bytesOf sent' id = bytesOf sent id := by
  obtain ⟨more, heq⟩ := hmore id.1
  rw [bytesOf, bytesOf, heq, List.getElem?_append_left hknown]

/-- Something happens at a proxy. -/
theorem Inv.call {f : Fleet} (h : Inv f) {inc : Nat} {c : ControlCall} {p : Incarnation}
    (hstep : (f.proxies inc).step c = some p) :
    Inv { f with proxies := Function.update f.proxies inc p } := by
  -- no incarnation takes a message back
  have hmore : ∀ i, ∃ more, (Function.update f.proxies inc p i).sent = f.sent i ++ more := by
    intro i
    by_cases hi : i = inc
    · subst hi
      rw [Function.update_self]
      exact Incarnation.sent_step hstep
    · rw [Function.update_of_ne hi]
      exact ⟨[], (List.append_nil _).symm⟩
  have hbytes : ∀ id ∈ f.ledger.received f.server.controlSess.kcp,
      bytesOf (fun i => (Function.update f.proxies inc p i).sent) id = bytesOf f.sent id :=
    fun id hid => bytesOf_append hmore (h.ledger.known id hid)
  refine ⟨?_, h.heap, h.ready, ⟨h.ledger.rcv, h.ledger.acked, h.ledger.order, ?_, ?_⟩, ?_⟩
  · intro i
    by_cases hi : i = inc
    · subst hi
      change (Function.update f.proxies i p i).Inv
      rw [Function.update_self]
      exact (h.proxies i).step hstep
    · change (Function.update f.proxies inc p i).Inv
      rw [Function.update_of_ne hi]
      exact h.proxies i
  · intro id hid
    obtain ⟨more, heq⟩ := hmore id.1
    have hlt := h.ledger.known id hid
    change id.2 < (Function.update f.proxies inc p id.1).sent.length
    rw [heq, List.length_append]
    omega
  · intro seg hin
    exact (h.ledger.held seg hin).trans
      (hbytes _ (List.mem_append_right _ (List.mem_map_of_mem hin))).symm
  · refine h.stream.trans (List.flatMap_congr ?_)
    intro id hid
    exact (hbytes id (List.mem_append_left _ hid)).symm

/-- An event that leaves the receive side of the control session alone. -/
theorem Inv.server {f : Fleet} (h : Inv f) {s' : KcpServer} (hheap : KcpServer.HeapInv s')
    (hctl : s'.controlSess = f.server.controlSess ∨
      ∃ msg, s'.controlSess = f.server.controlSess.sendMsg msg) :
    Inv { f with server := s' } := by
  rcases hctl with hsame | ⟨msg, hsent⟩
  · refine ⟨h.proxies, hheap, ?_, ?_, ?_⟩
    · rw [hsame]
      exact h.ready
    · rw [hsame]
      exact h.ledger
    · rw [hsame]
      exact h.stream
  · refine ⟨h.proxies, hheap, ?_, ?_, ?_⟩
    · rw [hsent]
      exact h.ready.sendMsg msg
    · rw [hsent]
      exact h.ledger.congr (sameRcv_ikcpSend _ _)
    · rw [hsent]
      exact h.stream

/-- What an event does to the fleet. -/
inductive Moved (f : Fleet) : FleetEvent → Fleet → Prop where
  | call {inc : Nat} {c : ControlCall} {p : Incarnation}
      (hp : (f.proxies inc).step c = some p) :
      Moved f (.call inc c) { f with proxies := Function.update f.proxies inc p }
  | parsed {inc : Nat} {pieces : List Piece} {remote : SockAddr} {now : Int} {s' : KcpServer}
      {ret : Int} (hheap : KcpServer.HeapInv s')
      (hroute : f.server.route (datagramOf pieces) = .control) (hne : pieces ≠ [])
      (hgen : ∀ p ∈ pieces, p.genuine (f.sent inc))
      (hparse : f.server.controlSess.parseMsg (datagramOf pieces) =
        .ok (ret, [], s'.controlSess)) :
      Moved f (.datagram inc pieces remote now)
        { f with
          server := s', ledger := f.ledger.parsed f.server.controlSess inc pieces }
  | dropped {inc : Nat} {pieces : List Piece} {remote : SockAddr} {now : Int} {s' : KcpServer}
      (hheap : KcpServer.HeapInv s') (hroute : f.server.route (datagramOf pieces) ≠ .control)
      (hctl : s'.controlSess = f.server.controlSess) :
      Moved f (.datagram inc pieces remote now) { f with server := s' }
  | server {e : Server.Event} {s' : KcpServer} (hheap : KcpServer.HeapInv s')
      (hctl : s'.controlSess = f.server.controlSess ∨
        ∃ msg, s'.controlSess = f.server.controlSess.sendMsg msg) :
      Moved f (.server e) { f with server := s' }

theorem Inv.moved {f f' : Fleet} {e : FleetEvent} (h : Inv f) (hstep : f.step e = some f') :
    Moved f e f' := by
  cases e with
  | call inc c =>
      obtain ⟨p, hp, rfl⟩ := Option.map_eq_some_iff.mp hstep
      exact .call hp
  | datagram inc pieces remote now =>
      simp only [Fleet.step] at hstep
      by_cases hgen : datagramOf pieces ∈ (f.proxies inc).datagrams ∧
          pieces.all (Piece.genuine (f.sent inc))
      · rw [if_pos hgen] at hstep
        obtain ⟨s', hs', rfl⟩ := Option.map_eq_some_iff.mp hstep
        obtain ⟨hen, hok⟩ := KcpServer.step_eq_some.mp hs'
        have hheap := h.heap.effect (h.heap.handle_effect hen hok)
        -- a datagram of KCP is received whole
        obtain ⟨-, -, -, hlen⟩ := (h.proxies inc).sendable _ hgen.1
        obtain ⟨hcontrol, hrest⟩ := KcpServer.controlSess_of_datagram hok
        rw [List.take_of_length_le hlen] at hcontrol hrest
        by_cases hroute : f.server.route (datagramOf pieces) = .control
        · rw [if_pos hroute]
          obtain ⟨ret, hparse⟩ := hcontrol hroute
          have hne : pieces ≠ [] := by
            rintro rfl
            rw [KcpServer.route_short (by decide)] at hroute
            cases hroute
          exact .parsed hheap hroute hne (List.all_eq_true.mp hgen.2) hparse
        · rw [if_neg hroute]
          exact .dropped hheap hroute (hrest hroute)
      · rw [if_neg hgen] at hstep
        cases hstep
  | server e =>
      simp only [Fleet.step] at hstep
      split_ifs at hstep with hctl
      obtain ⟨s', hs', rfl⟩ := Option.map_eq_some_iff.mp hstep
      obtain ⟨hen, hok⟩ := KcpServer.step_eq_some.mp hs'
      have heff := h.heap.handle_effect hen hok
      refine .server (h.heap.effect heff) ?_
      rcases heff.control_cases with ⟨hsame, -⟩ | ⟨id, hsent, -⟩ | ⟨bytes, remote, now, _, rfl, -⟩
      · exact Or.inl hsame
      · exact Or.inr ⟨rspMsg id, hsent⟩
      · have hroute : f.server.route (bytes.take 4096) ≠ .control := by
          intro hroute
          exact hctl (decide_eq_true hroute)
        exact Or.inl ((KcpServer.controlSess_of_datagram hok).2 hroute)

theorem Inv.step {f f' : Fleet} {e : FleetEvent} (h : Inv f) (hfits : f.Fits e)
    (hstep : f.step e = some f') : Inv f' := by
  cases h.moved hstep with
  | call hp => exact h.call hp
  | parsed hheap hroute hne hgen hparse =>
      obtain ⟨hledger, hstream⟩ := h.ledger.parsed h.ready h.stream hne hgen (hfits hroute) hparse
      exact ⟨h.proxies, hheap, h.ready.parseMsg hparse, hledger, hstream⟩
  | dropped hheap hroute hctl => exact h.server hheap (Or.inl hctl)
  | server hheap hctl => exact h.server hheap hctl

end Fleet

/-- **When acknowledged control messages are delivered.**  As long as no two
    messages contend for a number, in every state of a run each acknowledged
    message is held or has been delivered exactly once, and each incarnation's
    messages enter the stream in the order it sent them. -/
theorem delivered_of_fits (id : IUINT32) (events : List FleetEvent)
    (hfits : EventSystem.EachStep Fleet.step Fleet.Fits (Fleet.create id) events) :
    EventSystem.Always Fleet.step Fleet.Delivered (Fleet.create id) events := by
  have hinv : EventSystem.Always Fleet.step Fleet.Inv (Fleet.create id) events :=
    EventSystem.always_of_eachStep (fun _ _ _ h hone hstep => h.step hone hstep) (.create id) hfits
  intro k f hrun
  exact (hinv k f hrun).delivered

/-- The PUSH segment of a message in a flush at `clock`. -/
def pushOf (clock : IUINT32) (index : Nat) (msg : ControlMsg) : Piece where
  seg := { conv := 0, cmd := ikcpCmdPush, wnd := 128, ts := clock, sn := BitVec.ofNat 32 index,
           data := msg.encode }
  index := index

/-- One proxy: a first message, then a second one together with a retransmission
    of the first. -/
def oneProxy : List FleetEvent :=
  [.call 0 (.sendMsg .createSession), .call 0 (.update 0),
    .datagram 0 [pushOf 0 0 .createSession] ⟨0x7f000001, 40000⟩ 0,
    .call 0 (.sendMsg (.destroySession 1)), .call 0 (.update 300),
    .datagram 0 [pushOf 300 0 .createSession, pushOf 300 1 (.destroySession 1)]
      ⟨0x7f000001, 40000⟩ 1]

theorem delivered_of_fits_oneProxy :
    EventSystem.EachStep Fleet.step Fleet.Fits (Fleet.create 0) oneProxy ∧
      EventSystem.Always Fleet.step Fleet.Delivered (Fleet.create 0) oneProxy ∧
      (EventSystem.run Fleet.step (Fleet.create 0) oneProxy).any (fun f =>
        f.ledger.stream = [(0, 0), (0, 1)] ∧ f.ledger.acked = [(0, 0), (0, 0), (0, 1)]) :=
  have hfits : EventSystem.EachStep Fleet.step Fleet.Fits (Fleet.create 0) oneProxy := by
    decide +kernel
  ⟨hfits, delivered_of_fits 0 oneProxy hfits, by decide +kernel⟩

/-- The proxy is restarted and gets two connections before its control session is
    flushed. -/
def restarted : List FleetEvent :=
  [.call 0 (.sendMsg .createSession), .call 0 (.update 0),
    .datagram 0 [pushOf 0 0 .createSession] ⟨0x7f000001, 40000⟩ 0,
    .call 1 (.sendMsg .createSession), .call 1 (.sendMsg .createSession), .call 1 (.update 0),
    .datagram 1 [pushOf 0 0 .createSession, pushOf 0 1 .createSession] ⟨0x7f000001, 40001⟩ 10]

/-- The first message of the new process is acknowledged as a duplicate of the
    old one's and dropped. -/
theorem restarted_lost :
    ¬ EventSystem.Always Fleet.step Fleet.Delivered (Fleet.create 0) restarted := by
  intro hall
  have hlost : (EventSystem.run Fleet.step (Fleet.create 0) restarted).any (fun f =>
      (1, 0) ∈ f.ledger.acked ∧
        (f.ledger.received f.server.controlSess.kcp).count (1, 0) = 0) := by
    decide +kernel
  obtain ⟨f, hrun, hlost⟩ := (Option.any_eq_true _ _).mp hlost
  obtain ⟨hacked, hzero⟩ := of_decide_eq_true hlost
  have hone := (hall 7 f hrun).once (1, 0) hacked
  omega

end Tunnel
end UdpSpeed
