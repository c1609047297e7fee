/-
  UdpSpeed.Tunnel.OneSender

  The case the shared control session is made for: the server hears one proxy
  process, which is never restarted.  Then the numbers of the conversation are
  the places of the messages, every segment fits, and what is acknowledged is
  delivered.
-/

import UdpSpeed.Tunnel.Fleet

namespace UdpSpeed

open Kcp Control Muduo Server SerialNumber

namespace Tunnel

/-! ## Numbers and places -/

/-- The server is in step with the sender: the stream is its messages from the
    first on, and each held segment has the message of its number. -/
structure InStep (inc : Nat) (l : Ledger) (kcp : IKCPCB) : Prop where
  pos : kcp.readPos = BitVec.ofNat 32 l.stream.length
  stream : ∀ (i : Nat) (id : MsgId), l.stream[i]? = some id → id = (inc, i)
  held : ∀ seg ∈ kcp.waiting,
    l.owner seg.sn = (inc, l.stream.length + offset kcp.readPos seg.sn)

theorem inStep_create (inc : Nat) : InStep inc .create (freshKcp 0) where
  pos := rfl
  stream := by
    intro i id hid
    cases hid
  held := by
    intro seg hin
    cases hin

theorem InStep.congr {inc : Nat} {l : Ledger} {kcp kcp' : IKCPCB} (h : InStep inc l kcp)
    (hsame : SameRcv kcp kcp') : InStep inc l kcp' := by
  obtain ⟨-, hqueue, hbuf, hnxt⟩ := hsame
  have hwaiting : kcp'.waiting = kcp.waiting := by
    rw [IKCPCB.waiting, hqueue, hbuf]
    rfl
  have hpos : kcp'.readPos = kcp.readPos := by
    rw [IKCPCB.readPos, hnxt, hqueue]
    rfl
  refine ⟨hpos.trans h.pos, h.stream, ?_⟩
  rw [hwaiting, hpos]
  exact h.held

/-- A message of the stream. -/
theorem InStep.mem_stream {inc : Nat} {l : Ledger} {kcp : IKCPCB} (h : InStep inc l kcp)
    {id : MsgId} (hin : id ∈ l.stream) : id.1 = inc ∧ id.2 < l.stream.length := by
  obtain ⟨i, hi, rfl⟩ := List.getElem_of_mem hin
  rw [h.stream i _ (List.getElem?_eq_getElem hi)]
  exact ⟨rfl, hi⟩

/-- A free number is the place of its message. -/
theorem InStep.index_of_admits {inc : Nat} {l : Ledger} {kcp : IKCPCB} (h : InStep inc l kcp)
    (hrcv : RcvInv kcp) {index : Nat} (hindex : index < 2 ^ 31)
    (hstream : l.stream.length ≤ 2 ^ 31) (hadm : kcp.Admits (BitVec.ofNat 32 index)) :
    index = l.stream.length + offset kcp.readPos (BitVec.ofNat 32 index) := by
  have hroom := hrcv.shape.room
  have hnear := hadm.1
  have hoff := hrcv.offset_readPos hnear
  rcases Nat.lt_or_ge index l.stream.length with hlt | hge
  · -- a number that has been read is far from the window
    have hbehind := @offset_ofNat_behind 32 _ _ hlt (by omega)
    rw [← h.pos] at hbehind
    omega
  · have hahead := @offset_ofNat 32 _ _ hge (by omega)
    rw [← h.pos] at hahead
    omega

/-- A used number that is acknowledged has been taken with this very message. -/
theorem InStep.received_of_used {inc : Nat} {l : Ledger} {kcp : IKCPCB} (h : InStep inc l kcp)
    (hrcv : RcvInv kcp) {index : Nat} (hindex : index < 2 ^ 31)
    (hack : kcp.acknowledges (BitVec.ofNat 32 index))
    (hused : ¬ kcp.Admits (BitVec.ofNat 32 index)) : (inc, index) ∈ l.received kcp := by
  rcases Nat.lt_or_ge index l.stream.length with hlt | hge
  · refine List.mem_append_left _ ?_
    rw [← h.stream index _ (List.getElem?_eq_getElem hlt)]
    exact List.getElem_mem hlt
  have hroom := hrcv.shape.room
  have hahead := @offset_ofNat 32 _ _ hge (by omega)
  rw [← h.pos] at hahead
  -- the upper edge of the window
  have hedge : offset kcp.readPos (kcp.rcvNxt + 128) = kcp.rcvQueue.length + 128 := by
    have hsum : kcp.rcvNxt + 128 =
        kcp.readPos + BitVec.ofNat 32 (kcp.rcvQueue.length + 128) := by
      rw [BitVec.ofNat_add, ← add_assoc, IKCPCB.readPos, sub_add_cancel]
      rfl
    rw [hsum, offset_add _ (by omega)]
  have hdiff : itimediff (BitVec.ofNat 32 index) (kcp.rcvNxt + 128) =
      (offset kcp.readPos (BitVec.ofNat 32 index) : Int) -
        (offset kcp.readPos (kcp.rcvNxt + 128) : Int) :=
    toInt_sub_eq (by omega) (by omega)
  have hbelow : itimediff (BitVec.ofNat 32 index) (kcp.rcvNxt + 128) < 0 := by
    rw [IKCPCB.acknowledges, hrcv.wnd, decide_eq_true_eq] at hack
    exact hack
  have hplace : BitVec.ofNat 32 index =
      kcp.readPos + BitVec.ofNat 32 (index - l.stream.length) := by
    rw [← hahead, add_offset]
  -- some segment that is held has the number
  have hseg : ∃ seg ∈ kcp.waiting, seg.sn = BitVec.ofNat 32 index := by
    rcases Nat.lt_or_ge (index - l.stream.length) kcp.rcvQueue.length with hin | hout
    · have hget := List.getElem?_eq_getElem hin
      refine ⟨_, List.mem_append_left _ (List.getElem_mem hin), ?_⟩
      rw [hrcv.consecutive _ _ hget, hplace]
    · have hnear : offset kcp.rcvNxt (BitVec.ofNat 32 index) < 128 := by
        have hnxt : kcp.rcvNxt = kcp.readPos + BitVec.ofNat 32 kcp.rcvQueue.length := by
          rw [IKCPCB.readPos, sub_add_cancel]
        rw [hnxt, offset_add_base (by omega)]
        omega
      by_contra hnone
      refine hused ⟨hnear, ?_⟩
      intro seg hin hsn
      exact hnone ⟨seg, List.mem_append_right _ hin, hsn⟩
  obtain ⟨seg, hin, hsn⟩ := hseg
  refine List.mem_append_right _ (List.mem_map.mpr ⟨seg, hin, ?_⟩)
  rw [h.held seg hin, hsn, hahead, Nat.add_sub_cancel' hge]

/-- **In step, every segment of the sender fits.** -/
theorem InStep.fits {inc : Nat} {l : Ledger} {kcp : IKCPCB} (h : InStep inc l kcp)
    (hrcv : RcvInv kcp) {sent : List ControlMsg} (hfew : sent.length ≤ 2 ^ 31)
    (hstream : l.stream.length ≤ 2 ^ 31) {p : Piece} (hgen : p.genuine sent) :
    l.Fits kcp inc p := by
  intro hpush hack
  obtain ⟨msg, hmsg, hsn, -⟩ := Piece.genuine_push hgen hpush
  have hindex : p.index < 2 ^ 31 := by
    have hlt := (List.getElem?_eq_some_iff.mp hmsg).1
    omega
  rw [hsn] at hack ⊢
  refine ⟨fun hadm => ⟨?_, ?_⟩, h.received_of_used hrcv hindex hack⟩
  · intro a ha
    have hplace := h.index_of_admits hrcv hindex hstream hadm
    have hold := (h.mem_stream ha).2
    intro _
    show a.2 < p.index
    omega
  · intro seg hin
    have hplace := h.index_of_admits hrcv hindex hstream hadm
    rw [h.held seg hin]
    constructor
    · intro hlt _
      show l.stream.length + offset kcp.readPos seg.sn < p.index
      omega
    · intro hlt _
      show p.index < l.stream.length + offset kcp.readPos seg.sn
      omega

/-! ## One datagram -/

/-- One segment of the sender keeps the server in step. -/
theorem InStep.segment {inc : Nat} {l : Ledger} {kcp kcp' : IKCPCB} (h : InStep inc l kcp)
    (hrcv : RcvInv kcp) {sent : List ControlMsg} (hfew : sent.length ≤ 2 ^ 31)
    (hstream : l.stream.length ≤ 2 ^ 31) {p : Piece} (hgen : p.genuine sent)
    (harr : Arrived kcp kcp' p.seg) :
    InStep inc (l.segment kcp kcp' (inc, p.index) p.seg.sn) kcp' := by
  refine ⟨harr.pos.trans h.pos, h.stream, ?_⟩
  rw [harr.pos]
  unfold Ledger.segment
  dsimp only
  by_cases htaken : p.seg.cmd = ikcpCmdPush ∧ kcp.Admits p.seg.sn
  · obtain ⟨hpush, hadm⟩ := htaken
    obtain ⟨msg, hmsg, hsn, -⟩ := Piece.genuine_push hgen hpush
    have hindex : p.index < 2 ^ 31 := by
      have hlt := (List.getElem?_eq_some_iff.mp hmsg).1
      omega
    have hplace := h.index_of_admits hrcv hindex hstream (hsn ▸ hadm)
    rw [← hsn] at hplace
    have hplaced := harr.placed hpush hadm
    rw [if_pos hplaced.length_lt]
    intro x hx
    -- the new segment has its own message, the others keep theirs
    rcases hplaced.mem_waiting hx with hin | ⟨hself, -⟩
    · rw [Function.update_of_ne (hplaced.sn_ne hin)]
      exact h.held x hin
    · rw [hself, Function.update_self, ← hplace]
  · rw [harr.dropped htaken, if_neg (lt_irrefl _)]
    exact h.held

/-- The segments of a datagram, by induction on them. -/
theorem InStep.segments {sent : Nat → List ControlMsg} {inc : Nat} {pieces : List Piece}
    (hgen : ∀ p ∈ pieces, p.genuine (sent inc)) (hfew : (sent inc).length ≤ 2 ^ 31) {l : Ledger}
    {kcp : IKCPCB} (hstream : l.stream.length ≤ 2 ^ 31) (hinv : LedgerInv sent l kcp)
    (h : InStep inc l kcp) (maxack : Option IUINT32) :
    Ledger.FitsAll inc pieces maxack kcp l ∧
      InStep inc (Ledger.segments inc pieces maxack kcp l)
        (inputSegments kcp maxack (pieces.map Piece.seg)).1 := by
  induction pieces generalizing l kcp maxack with
  | nil => exact ⟨trivial, h⟩
  | cons p rest ih =>
      have hone := hgen p (List.mem_cons_self ..)
      have hfits := h.fits hinv.rcv hfew hstream hone
      have harr := inputSegment_arrived hinv.rcv maxack p.seg
      obtain ⟨hall, hlast⟩ := ih (fun x hx => hgen x (List.mem_cons_of_mem _ hx)) (by exact hstream)
        (hinv.segment hone hfits harr) (h.segment hinv.rcv hfew hstream hone harr)
        (inputSegment kcp maxack p.seg.header p.seg.data).2
      exact ⟨⟨hfits, hall⟩, hlast⟩

/-- Reading moves the position behind the messages read. -/
theorem InStep.read {inc : Nat} {l : Ledger} {kcp : IKCPCB} (h : InStep inc l kcp)
    (hrcv : RcvInv kcp) (hsome : 0 ≤ ikcpPeeksize kcp) :
    InStep inc (l.read kcp) (ikcpRecv kcp (ikcpPeeksize kcp)).2.2 := by
  obtain ⟨-, hwaiting, hpos⟩ := hrcv.ikcpRecv_spec hsome
  have hsplit := headMessage_append_afterMessage kcp.rcvQueue
  have hlen : (l.read kcp).stream.length =
      l.stream.length + (headMessage kcp.rcvQueue).length := by
    rw [Ledger.read, List.length_append, List.length_map]
  refine ⟨?_, ?_, ?_⟩
  · rw [hpos, h.pos, hlen, BitVec.ofNat_add]
  · intro i id hid
    rcases Nat.lt_or_ge i l.stream.length with hold | hnew
    · rw [Ledger.read, List.getElem?_append_left hold] at hid
      exact h.stream i id hid
    · rw [Ledger.read, List.getElem?_append_right hnew, List.getElem?_map,
        Option.map_eq_some_iff] at hid
      obtain ⟨seg, hseg, rfl⟩ := hid
      have hqueue : kcp.rcvQueue[i - l.stream.length]? = some seg := by
        rw [← hsplit, List.getElem?_append_left (List.getElem?_eq_some_iff.mp hseg).1]
        exact hseg
      rw [h.held seg (List.mem_append_left _ (List.mem_of_getElem? hqueue)),
        hrcv.offset_queue hqueue, Nat.add_sub_cancel' hnew]
  · intro seg hin
    rw [IKCPCB.waiting, hwaiting] at hin
    have hmem : seg ∈ kcp.waiting := by
      rw [IKCPCB.waiting, ← hsplit, List.append_assoc]
      exact List.mem_append_right _ hin
    -- what is left is behind everything that was read
    have hsorted := hrcv.sorted
    rw [← hsplit, List.append_assoc] at hsorted
    have hbehind : (headMessage kcp.rcvQueue).length ≤ offset kcp.readPos seg.sn := by
      by_contra hlt
      have hlt' : offset kcp.readPos seg.sn < (headMessage kcp.rcvQueue).length :=
        Nat.not_le.mp hlt
      have hread := List.getElem?_eq_getElem hlt'
      have hqueue : kcp.rcvQueue[offset kcp.readPos seg.sn]? =
          some (headMessage kcp.rcvQueue)[offset kcp.readPos seg.sn] := by
        conv_lhs => rw [← hsplit]
        rw [List.getElem?_append_left hlt', hread]
      have hless := (List.pairwise_append.mp hsorted).2.2 _ (List.getElem_mem hlt') seg hin
      rw [hrcv.offset_queue hqueue] at hless
      exact lt_irrefl _ hless
    rw [hpos, hlen, offset_add_base hbehind]
    have hplace := h.held seg hmem
    change l.owner seg.sn = _
    rw [hplace]
    congr 1
    omega

/-- **One control datagram of the sender** fits and keeps the server in step. -/
theorem InStep.parsed {sent : Nat → List ControlMsg} {l : Ledger} {s s' : ControlSession}
    {inc : Nat} (h : InStep inc l s.kcp) (hinv : LedgerInv sent l s.kcp) (hready : s.Ready)
    (hfew : (sent inc).length ≤ 2 ^ 31) (hstream : l.stream.length ≤ 2 ^ 31)
    {pieces : List Piece} (hne : pieces ≠ []) (hgen : ∀ p ∈ pieces, p.genuine (sent inc))
    {ret : Int} {aryMsg : List (List Byte)}
    (hparse : s.parseMsg (datagramOf pieces) = .ok (ret, aryMsg, s')) :
    Ledger.FitsAll inc pieces none s.kcp l ∧ InStep inc (l.parsed s inc pieces) s'.kcp := by
  obtain ⟨hfits, hsegs⟩ := h.segments hgen hfew hstream hinv none
  refine ⟨hfits, ?_⟩
  obtain ⟨kcp, hsame, ⟨rfl, hledger⟩ | ⟨hsome, rfl, hledger⟩⟩ :=
    @Ledger.parsed_cases _ l _ _ hready inc _ hne hgen _ _ hparse
  · rw [hledger]
    exact hsegs.congr hsame
  · have hrcv := ((hinv.segments hgen hfits).congr hsame).rcv
    rw [hledger]
    exact (hsegs.congr hsame).read hrcv hsome

/-! ## The run -/

namespace Fleet

/-- All control datagrams come from this incarnation, which has sent at most
    `2 ^ 31` messages. -/
def OneSender (inc : Nat) (f : Fleet) : FleetEvent → Prop
  | .datagram i _ _ _ => i = inc ∧ (f.sent inc).length ≤ 2 ^ 31
  | _ => True

instance (inc : Nat) (f : Fleet) : ∀ e, Decidable (OneSender inc f e)
  | .datagram i _ _ _ => inferInstanceAs (Decidable (i = inc ∧ (f.sent inc).length ≤ 2 ^ 31))
  | .call _ _ => .isTrue trivial
  | .server _ => .isTrue trivial

/-- What holds between two events. -/
structure StepInv (inc : Nat) (f : Fleet) : Prop where
  inv : Inv f
  inStep : InStep inc f.ledger f.server.controlSess.kcp

theorem StepInv.create (inc : Nat) (id : IUINT32) : StepInv inc (Fleet.create id) where
  inv := .create id
  inStep := inStep_create inc

/-- The stream is no longer than what has been sent. -/
theorem StepInv.stream_length {inc : Nat} {f : Fleet} (h : StepInv inc f) :
    f.ledger.stream.length ≤ (f.sent inc).length := by
  rcases Nat.eq_zero_or_pos f.ledger.stream.length with hzero | hpos
  · omega
  · have hlast : f.ledger.stream.length - 1 < f.ledger.stream.length := by omega
    have hget := List.getElem?_eq_getElem hlast
    have hid := h.inStep.stream _ _ hget
    have hknown := h.inv.ledger.known _
      (List.mem_append_left _ (List.mem_of_getElem? hget))
    rw [hid] at hknown
    change f.ledger.stream.length - 1 < (f.sent inc).length at hknown
    omega

/-- With one sender every event fits and keeps the server in step. -/
theorem StepInv.step {inc : Nat} {f f' : Fleet} {e : FleetEvent} (h : StepInv inc f)
    (hone : f.OneSender inc e) (hstep : f.step e = some f') : f.Fits e ∧ StepInv inc f' := by
  have hlen := h.stream_length
  cases h.inv.moved hstep with
  | call hp => exact ⟨trivial, h.inv.call hp, h.inStep⟩
  | parsed hheap hroute hne hgen hparse =>
      obtain ⟨rfl, hfew⟩ := hone
      obtain ⟨hfits, hinStep⟩ := h.inStep.parsed h.inv.ledger h.inv.ready hfew
        (hlen.trans hfew) hne hgen hparse
      exact ⟨fun _ => hfits, h.inv.step (by exact fun _ => hfits) hstep, hinStep⟩
  | dropped hheap hroute hctl =>
      refine ⟨fun hc => absurd hc hroute, h.inv.server hheap (Or.inl hctl), ?_⟩
      rw [hctl]
      exact h.inStep
  | server hheap hctl =>
      refine ⟨trivial, h.inv.server hheap hctl, ?_⟩
      rcases hctl with hsame | ⟨msg, hsent⟩
      · rw [hsame]
        exact h.inStep
      · rw [hsent]
        exact h.inStep.congr (sameRcv_ikcpSend _ _)

end Fleet

/-- **One proxy that is not restarted**: whatever the network does to its
    datagrams, each acknowledged message is held or delivered exactly once, in
    the order of sending. -/
theorem delivered_oneSender (inc : Nat) (id : IUINT32) (events : List FleetEvent)
    (hone : EventSystem.EachStep Fleet.step (Fleet.OneSender inc) (Fleet.create id) events) :
    EventSystem.Always Fleet.step Fleet.Delivered (Fleet.create id) events := by
  have hinv : EventSystem.Always Fleet.step (Fleet.StepInv inc) (Fleet.create id) events :=
    EventSystem.always_of_eachStep (fun _ _ _ h hc hstep => (h.step hc hstep).2)
      (.create inc id) hone
  intro k f hrun
  exact (hinv k f hrun).inv.delivered

theorem delivered_oneSender_oneProxy :
    EventSystem.Always Fleet.step Fleet.Delivered (Fleet.create 0) oneProxy :=
  delivered_oneSender 0 0 oneProxy (by decide +kernel)

end Tunnel
end UdpSpeed
