/-
  UdpSpeed.Kcp.Endpoint

  One end of a KCP connection between two calls: the object, the messages it has
  accepted and returned so far, and the datagrams it has put out.  What holds of
  one end alone is stated here, and what each call does to it.
-/

import UdpSpeed.Kcp.SendBuffer
import UdpSpeed.Kcp.Messages

namespace UdpSpeed
namespace Kcp

open SerialNumber

/-! ## The calls of an application -/

/-- A KCP object with the history of its use. -/
structure Endpoint where
  kcp : IKCPCB
  /-- the messages `ikcp_send` took -/
  accepted : List (List Byte)
  /-- the messages `ikcp_recv` returned -/
  received : List (List Byte)
  /-- the datagrams given to the output callback -/
  output : List (List Byte)
deriving DecidableEq, Repr

namespace Endpoint

def create (conv : IUINT32) : Endpoint where
  kcp := freshKcp conv
  accepted := []
  received := []
  output := []

def send (e : Endpoint) (msg : List Byte) : Endpoint :=
  let r := ikcpSend e.kcp msg
  { e with kcp := r.2, accepted := e.accepted ++ if r.1 ≠ 0 then [] else [msg] }

/-- `ikcp_recv` into a buffer of `len` bytes. -/
def recv (e : Endpoint) (len : Nat) : Endpoint :=
  let r := ikcpRecv e.kcp len
  { e with kcp := r.2.2, received := e.received ++ if r.1 < 0 then [] else [r.2.1] }

def update (e : Endpoint) (clock : IUINT32) : Endpoint :=
  let r := ikcpUpdate e.kcp clock
  { e with kcp := r.1, output := e.output ++ r.2 }

def flush (e : Endpoint) : Endpoint :=
  let r := ikcpFlush e.kcp
  { e with kcp := r.1, output := e.output ++ r.2 }

def input (e : Endpoint) (datagram : List Byte) : Endpoint :=
  { e with kcp := (ikcpInput e.kcp datagram).2 }

end Endpoint

/-! ## The numbers that have arrived -/

/-- Fragment `i` has been read or is waiting. -/
def IKCPCB.Has (kcp : IKCPCB) (i : Nat) : Prop :=
  i < kcp.readPos.toNat ∨ ∃ seg ∈ kcp.waiting, seg.sn.toNat = i

instance (kcp : IKCPCB) (i : Nat) : Decidable (kcp.Has i) :=
  inferInstanceAs (Decidable (_ ∨ ∃ seg ∈ kcp.waiting, seg.sn.toNat = i))

/-- `rcv_nxt` is so far from the wrap that the window does not reach it. -/
def IKCPCB.Early (kcp : IKCPCB) : Prop := kcp.readPos.toNat + 512 < 2 ^ 31

theorem SameRcv.has_iff {kcp kcp' : IKCPCB} (h : SameRcv kcp kcp') (i : Nat) :
    kcp'.Has i ↔ kcp.Has i := by
  obtain ⟨-, hqueue, hbuf, hnxt⟩ := h
  rw [IKCPCB.Has, IKCPCB.Has, IKCPCB.readPos, IKCPCB.readPos, IKCPCB.waiting, IKCPCB.waiting,
    hqueue, hbuf, hnxt]

theorem RcvInv.rcvNxt_toNat {kcp : IKCPCB} (h : RcvInv kcp) (hearly : kcp.Early) :
    kcp.rcvNxt.toNat = kcp.readPos.toNat + kcp.rcvQueue.length := by
  have hroom := h.shape.room
  have hnxt : kcp.rcvNxt = kcp.readPos + BitVec.ofNat 32 kcp.rcvQueue.length := by
    rw [IKCPCB.readPos, sub_add_cancel]
  rw [IKCPCB.Early] at hearly
  rw [hnxt, toNat_add_ofNat (by omega)]

/-- What waits in the queue are the numbers from the read position on. -/
theorem RcvInv.queue_toNat {kcp : IKCPCB} (h : RcvInv kcp) (hearly : kcp.Early) {i : Nat}
    {seg : IKCPSEG} (hi : kcp.rcvQueue[i]? = some seg) :
    seg.sn.toNat = kcp.readPos.toNat + i := by
  have hroom := h.shape.room
  have hlt := (List.getElem?_eq_some_iff.mp hi).1
  rw [IKCPCB.Early] at hearly
  rw [h.consecutive i seg hi, toNat_add_ofNat (by omega)]

/-- What waits in the buffer comes later, by less than a window. -/
theorem RcvInv.buf_toNat {kcp : IKCPCB} (h : RcvInv kcp) (hearly : kcp.Early) {seg : IKCPSEG}
    (hin : seg ∈ kcp.rcvBuf) :
    kcp.rcvNxt.toNat ≤ seg.sn.toNat ∧ seg.sn.toNat < kcp.rcvNxt.toNat + 128 := by
  have hroom := h.shape.room
  have hnear := h.shape.near seg hin
  have hnxt := h.rcvNxt_toNat hearly
  rw [IKCPCB.Early] at hearly
  rw [← add_offset kcp.rcvNxt seg.sn, toNat_add_ofNat (by omega)]
  omega

/-- Everything before `rcv_nxt` has arrived. -/
theorem RcvInv.has_of_lt {kcp : IKCPCB} (h : RcvInv kcp) (hearly : kcp.Early) {i : Nat}
    (hi : i < kcp.rcvNxt.toNat) : kcp.Has i := by
  rw [h.rcvNxt_toNat hearly] at hi
  rcases Nat.lt_or_ge i kcp.readPos.toNat with hread | hqueue
  · exact Or.inl hread
  · have hlt : i - kcp.readPos.toNat < kcp.rcvQueue.length := by omega
    have hat := List.getElem?_eq_getElem hlt
    refine Or.inr ⟨_, List.mem_append_left _ (List.mem_of_getElem? hat), ?_⟩
    rw [h.queue_toNat hearly hat]
    omega

/-- A queue with room ends where the next number is missing. -/
theorem RcvInv.not_has_rcvNxt {kcp : IKCPCB} (h : RcvInv kcp) (hearly : kcp.Early)
    (hroom : kcp.rcvQueue.length < 128) : ¬ kcp.Has kcp.rcvNxt.toNat := by
  have hnxt := h.rcvNxt_toNat hearly
  rintro (hread | ⟨seg, hin, hsn⟩)
  · omega
  · rcases List.mem_append.mp hin with hqueue | hbuf
    · obtain ⟨i, hi, rfl⟩ := List.getElem_of_mem hqueue
      have hat := h.queue_toNat hearly (List.getElem?_eq_getElem hi)
      omega
    · exact h.settled hroom seg hbuf (BitVec.eq_of_toNat_eq hsn)

/-- No number that has arrived is further than a window past `rcv_nxt`. -/
theorem RcvInv.lt_of_has {kcp : IKCPCB} (h : RcvInv kcp) (hearly : kcp.Early) {i : Nat}
    (hi : kcp.Has i) : i < kcp.rcvNxt.toNat + 128 := by
  have hnxt := h.rcvNxt_toNat hearly
  rcases hi with hread | ⟨seg, hin, hsn⟩
  · omega
  · rcases List.mem_append.mp hin with hqueue | hbuf
    · obtain ⟨j, hj, rfl⟩ := List.getElem_of_mem hqueue
      have hat := h.queue_toNat hearly (List.getElem?_eq_getElem hj)
      omega
    · have hnear := h.buf_toNat hearly hbuf
      omega

/-! ## One segment at the receiver -/

/-- What has arrived stays; a segment brings at most its own number, and that
    one if it is acknowledged. -/
theorem Arrived.has_iff {kcp kcp' : IKCPCB} {seg : IKCPSEG} (h : Arrived kcp kcp' seg) (i : Nat) :
    kcp'.Has i ↔
      kcp.Has i ∨ seg.cmd = ikcpCmdPush ∧ kcp.Admits seg.sn ∧ seg.sn.toNat = i := by
  rw [IKCPCB.Has, h.pos]
  by_cases hadm : seg.cmd = ikcpCmdPush ∧ kcp.Admits seg.sn
  · obtain ⟨before, after, seg', hold, hnew, hsn, -⟩ := h.placed hadm.1 hadm.2
    rw [IKCPCB.Has, hold, hnew]
    simp only [List.mem_append, List.mem_cons, hadm, true_and]
    constructor
    · rintro (hread | ⟨x, hb | rfl | ha, hx⟩)
      · exact Or.inl (Or.inl hread)
      · exact Or.inl (Or.inr ⟨x, Or.inl hb, hx⟩)
      · rw [hsn] at hx
        exact Or.inr hx
      · exact Or.inl (Or.inr ⟨x, Or.inr ha, hx⟩)
    · rintro ((hread | ⟨x, hb | ha, hx⟩) | hself)
      · exact Or.inl hread
      · exact Or.inr ⟨x, Or.inl hb, hx⟩
      · exact Or.inr ⟨x, Or.inr (Or.inr ha), hx⟩
      · exact Or.inr ⟨seg', Or.inr (Or.inl rfl), by rw [hsn, hself]⟩
  · rw [h.dropped hadm]
    constructor
    · exact Or.inl
    · rintro (hhas | ⟨hpush, hin, -⟩)
      · exact hhas
      · exact absurd ⟨hpush, hin⟩ hadm

/-- **What is acknowledged has arrived.** -/
theorem Arrived.has_of_acknowledges {kcp kcp' : IKCPCB} {seg : IKCPSEG}
    (h : Arrived kcp kcp' seg) (hinv : RcvInv kcp) (hearly : kcp.Early)
    (hpush : seg.cmd = ikcpCmdPush) (hsn : seg.sn.toNat < 2 ^ 31)
    (hack : kcp.acknowledges seg.sn) : kcp'.Has seg.sn.toNat := by
  have hroom := hinv.shape.room
  have hnxt := hinv.rcvNxt_toNat hearly
  have hbound : kcp.readPos.toNat + 512 < 2 ^ 31 := hearly
  rw [IKCPCB.acknowledges, hinv.wnd, decide_eq_true_eq] at hack
  have hend : (kcp.rcvNxt + 128).toNat = kcp.rcvNxt.toNat + 128 :=
    toNat_add_ofNat (n := 128) (by omega)
  rw [itimediff_small hsn (by omega), hend] at hack
  rw [h.has_iff]
  -- behind the window, in the buffer already, or taken now
  rcases Nat.lt_or_ge seg.sn.toNat kcp.rcvNxt.toNat with hold | hnew
  · exact Or.inl (hinv.has_of_lt hearly hold)
  · by_cases hin : ∃ x ∈ kcp.rcvBuf, x.sn = seg.sn
    · obtain ⟨x, hx, hxsn⟩ := hin
      exact Or.inl (Or.inr ⟨x, List.mem_append_right _ hx, by rw [hxsn]⟩)
    · refine Or.inr ⟨hpush, ⟨?_, ?_⟩, rfl⟩
      · rw [offset, BitVec.toNat_sub_of_le (BitVec.le_def.mpr hnew)]
        omega
      · exact fun x hx hxsn => hin ⟨x, hx, hxsn⟩

/-! ## Reading -/

/-- With a buffer that is large enough `ikcp_recv` does what it does with one of
    the size `ikcp_peeksize` tells; otherwise it does nothing. -/
theorem ikcpRecv_len (kcp : IKCPCB) (len : Nat) :
    (0 ≤ ikcpPeeksize kcp ∧ ikcpPeeksize kcp ≤ len →
      ikcpRecv kcp len = ikcpRecv kcp (ikcpPeeksize kcp)) ∧
    (¬ (0 ≤ ikcpPeeksize kcp ∧ ikcpPeeksize kcp ≤ len) →
      (ikcpRecv kcp len).1 < 0 ∧ (ikcpRecv kcp len).2.2 = kcp) := by
  have habs : ((len : Int).natAbs : Int) = len := by omega
  constructor
  · rintro ⟨hsome, hroom⟩
    have hself : ((ikcpPeeksize kcp).natAbs : Int) = ikcpPeeksize kcp := by omega
    unfold ikcpRecv
    dsimp only
    rw [habs, hself]
    simp only [if_neg (not_lt.mpr hsome), if_neg (not_lt.mpr hroom), lt_irrefl, if_false,
      if_neg (not_lt.mpr (Int.natCast_nonneg len))]
  · intro hnot
    unfold ikcpRecv
    dsimp only
    rw [habs]
    by_cases hnil : kcp.rcvQueue = []
    · rw [if_pos hnil]
      exact ⟨show (-1 : Int) < 0 by decide, rfl⟩
    rw [if_neg hnil]
    by_cases hnone : ikcpPeeksize kcp < 0
    · rw [if_pos hnone]
      exact ⟨show (-2 : Int) < 0 by decide, rfl⟩
    rw [if_neg hnone, if_pos (by omega)]
    exact ⟨show (-3 : Int) < 0 by decide, rfl⟩

/-- Reading a message takes its fragments from the waiting ones to those read. -/
theorem RcvInv.has_ikcpRecv_iff {kcp : IKCPCB} (h : RcvInv kcp) (hearly : kcp.Early)
    (hsome : 0 ≤ ikcpPeeksize kcp) (i : Nat) :
    (Kcp.ikcpRecv kcp (ikcpPeeksize kcp)).2.2.Has i ↔ kcp.Has i := by
  obtain ⟨-, hwaiting, hpos⟩ := h.ikcpRecv_spec hsome
  have hsplit := headMessage_append_afterMessage kcp.rcvQueue
  have hlen := congrArg List.length hsplit
  rw [List.length_append] at hlen
  have hroom := h.shape.room
  have hbound : kcp.readPos.toNat + 512 < 2 ^ 31 := hearly
  have hread : (Kcp.ikcpRecv kcp (ikcpPeeksize kcp)).2.2.readPos.toNat =
      kcp.readPos.toNat + (headMessage kcp.rcvQueue).length := by
    rw [hpos, toNat_add_ofNat (by omega)]
  have hold : kcp.waiting =
      headMessage kcp.rcvQueue ++ (afterMessage kcp.rcvQueue ++ kcp.rcvBuf) := by
    rw [← List.append_assoc, hsplit]
    rfl
  have hat : ∀ j seg, (headMessage kcp.rcvQueue)[j]? = some seg →
      seg.sn.toNat = kcp.readPos.toNat + j := by
    intro j seg hj
    apply h.queue_toNat hearly
    rw [← hsplit, List.getElem?_append_left (List.getElem?_eq_some_iff.mp hj).1, hj]
  rw [IKCPCB.Has, IKCPCB.Has, IKCPCB.waiting, hwaiting, hread, hold]
  simp only [List.mem_append (s := headMessage kcp.rcvQueue)]
  constructor
  · rintro (hlt | ⟨seg, hin, hsn⟩)
    · rcases Nat.lt_or_ge i kcp.readPos.toNat with hbefore | hnow
      · exact Or.inl hbefore
      · have hj := List.getElem?_eq_getElem
          (show i - kcp.readPos.toNat < (headMessage kcp.rcvQueue).length by omega)
        refine Or.inr ⟨_, Or.inl (List.mem_of_getElem? hj), ?_⟩
        rw [hat _ _ hj]
        omega
    · exact Or.inr ⟨seg, Or.inr hin, hsn⟩
  · rintro (hlt | ⟨seg, hhead | hin, hsn⟩)
    · exact Or.inl (by omega)
    · obtain ⟨j, hj, rfl⟩ := List.getElem_of_mem hhead
      have hnum := hat j _ (List.getElem?_eq_getElem hj)
      exact Or.inl (by omega)
    · exact Or.inr ⟨seg, hin, hsn⟩

/-! ## One end -/

/-- The segment has the content of the fragment whose number it carries. -/
def IsFragment (frags : List IKCPSEG) (seg : IKCPSEG) : Prop :=
  ∃ frag, frags[seg.sn.toNat]? = some frag ∧ seg.content = frag.content

theorem IsFragment.append {frags : List IKCPSEG} {seg : IKCPSEG} (h : IsFragment frags seg)
    (more : List IKCPSEG) : IsFragment (frags ++ more) seg := by
  obtain ⟨frag, hfrag, hcontent⟩ := h
  refine ⟨frag, ?_, hcontent⟩
  rw [List.getElem?_append_left (List.getElem?_eq_some_iff.mp hfrag).1, hfrag]

namespace Endpoint

/-- The fragments of the messages accepted so far. -/
def fragments (e : Endpoint) : List IKCPSEG := fragmentsOf e.kcp.conv e.accepted

/-- The numbers stay in the lower half of their range. -/
def Short (e : Endpoint) : Prop := e.fragments.length + 1024 < 2 ^ 31

/-- A segment that says nothing but what is so at `e`: its data is the fragment
    of its number, and what it acknowledges has arrived. -/
structure Genuine (e : Endpoint) (seg : IKCPSEG) : Prop where
  readable : seg.readable e.kcp.conv
  una : ∀ i < seg.una.toNat, e.kcp.Has i
  ack : seg.cmd = ikcpCmdAck → e.kcp.Has seg.sn.toNat
  push : seg.cmd = ikcpCmdPush →
    IsFragment e.fragments seg ∧ seg.sn.toNat < e.kcp.sndNxt.toNat

/-- A datagram of genuine segments. -/
def Emits (e : Endpoint) (datagram : List Byte) : Prop :=
  ∃ group, group ≠ [] ∧ datagram = wireAll group ∧ ∀ seg ∈ group, e.Genuine seg

/-- What holds of one end between two calls. -/
structure Inv (e : Endpoint) : Prop where
  account : SendInv e.kcp e.accepted e.output
  order : SendOrder e.kcp
  sendable : ∀ msg ∈ e.accepted, Sendable msg
  rcv : RcvInv e.kcp
  readPos : e.kcp.readPos = BitVec.ofNat 32 (fragmentsOf e.kcp.conv e.received).length
  acks : ∀ ack ∈ e.kcp.acklist, e.kcp.Has ack.1.toNat
  emitted : ∀ datagram ∈ e.output, e.Emits datagram

/-- What is said of `e` is still so of `e'`. -/
structure Later (e e' : Endpoint) : Prop where
  conv : e'.kcp.conv = e.kcp.conv
  accepted : e.accepted <+: e'.accepted
  sndNxt : e.kcp.sndNxt.toNat ≤ e'.kcp.sndNxt.toNat
  has : ∀ i, e.kcp.Has i → e'.kcp.Has i

theorem Later.refl (e : Endpoint) : Later e e := ⟨rfl, List.prefix_rfl, le_rfl, fun _ h => h⟩

theorem Later.trans {e e₁ e₂ : Endpoint} (h : Later e e₁) (h' : Later e₁ e₂) : Later e e₂ where
  conv := h'.conv.trans h.conv
  accepted := h.accepted.trans h'.accepted
  sndNxt := h.sndNxt.trans h'.sndNxt
  has := fun i hi => h'.has i (h.has i hi)

theorem Later.fragments {e e' : Endpoint} (h : Later e e') : e.fragments <+: e'.fragments := by
  obtain ⟨more, hmore⟩ := h.accepted
  refine ⟨fragmentsOf e.kcp.conv more, ?_⟩
  rw [Endpoint.fragments, Endpoint.fragments, h.conv, ← hmore, fragmentsOf_append]

theorem Later.genuine {e e' : Endpoint} (h : Later e e') {seg : IKCPSEG} (hg : e.Genuine seg) :
    e'.Genuine seg where
  readable := by
    rw [h.conv]
    exact hg.readable
  una := fun i hi => h.has i (hg.una i hi)
  ack := fun hcmd => h.has _ (hg.ack hcmd)
  push := by
    intro hcmd
    obtain ⟨hfrag, hlt⟩ := hg.push hcmd
    obtain ⟨more, hmore⟩ := h.fragments
    rw [← hmore]
    exact ⟨hfrag.append more, hlt.trans_le h.sndNxt⟩

theorem Later.emits {e e' : Endpoint} (h : Later e e') {datagram : List Byte}
    (hd : e.Emits datagram) : e'.Emits datagram := by
  obtain ⟨group, hne, heq, hall⟩ := hd
  exact ⟨group, hne, heq, fun seg hin => h.genuine (hall seg hin)⟩

theorem inv_create (conv : IUINT32) : Inv (create conv) where
  account := sendInv_freshKcp conv []
  order := sendOrder_freshKcp conv
  sendable := fun _ hin => absurd hin List.not_mem_nil
  rcv := rcvInv_freshKcp conv
  readPos := show (0 : IUINT32) - BitVec.ofNat 32 0 = BitVec.ofNat 32 0 by decide
  acks := fun _ hin => absurd hin List.not_mem_nil
  emitted := fun _ hin => absurd hin List.not_mem_nil

variable {e : Endpoint}

/-- The next number is the count of the fragments that have left the queue. -/
theorem Inv.sndNxt_add (h : Inv e) (hs : e.Short) :
    e.kcp.sndNxt.toNat + e.kcp.sndQueue.length = e.fragments.length := by
  obtain ⟨moved, hsplit, hnxt, -, -⟩ := h.account.moved
  have hlen := congrArg List.length hsplit
  rw [List.length_append] at hlen
  unfold Short fragments at hs
  rw [fragments, hnxt, BitVec.toNat_ofNat, hlen]
  omega

/-- The fragments in the send buffer are those of their numbers. -/
theorem isFragment_of_copy (hs : e.Short) {seg : IKCPSEG} {moved : List IKCPSEG}
    (hmoved : moved <+: e.fragments) (hcopy : CopyOf e.kcp.conv moved seg) :
    IsFragment e.fragments seg ∧ seg.sn.toNat < moved.length := by
  obtain ⟨i, frag, hfrag, -, -, hfrg, hsn, hdata⟩ := hcopy
  have hlt := (List.getElem?_eq_some_iff.mp hfrag).1
  have hlen := hmoved.length_le
  unfold Short at hs
  have hnat : seg.sn.toNat = i := by
    rw [hsn, BitVec.toNat_ofNat]
    omega
  obtain ⟨more, hmore⟩ := hmoved
  refine ⟨⟨frag, ?_, ?_⟩, by omega⟩
  · rw [← hmore, hnat, List.getElem?_append_left hlt, hfrag]
  · rw [IKCPSEG.content, IKCPSEG.content, hfrg, hdata]

/-! ### Sending -/

theorem later_send (e : Endpoint) (msg : List Byte) : Later e (e.send msg) := by
  obtain ⟨queue, hq⟩ := ikcpSend_frame e.kcp msg
  refine ⟨?_, List.prefix_append _ _, ?_, ?_⟩
  · exact congrArg IKCPCFG.conv (ikcpSend_cfg e.kcp msg)
  · change _ ≤ (ikcpSend e.kcp msg).2.sndNxt.toNat
    rw [hq]
  · intro i hi
    exact ((sameRcv_ikcpSend e.kcp msg).has_iff i).mpr hi

theorem Inv.send (h : Inv e) (msg : List Byte) : Inv (e.send msg) := by
  have hlater := later_send e msg
  have hsame := sameRcv_ikcpSend e.kcp msg
  obtain ⟨queue, hq⟩ := ikcpSend_frame e.kcp msg
  have hconv : (ikcpSend e.kcp msg).2.conv = e.kcp.conv := hlater.conv
  have hacks : (ikcpSend e.kcp msg).2.acklist = e.kcp.acklist := by rw [hq]
  have hpos : (ikcpSend e.kcp msg).2.readPos = e.kcp.readPos := by rw [hq]; rfl
  refine ⟨h.account.ikcpSend msg, ?_, ?_, h.rcv.congr hsame, ?_, ?_, ?_⟩
  · change SendOrder (ikcpSend e.kcp msg).2
    rw [hq]
    exact h.order.congr rfl rfl rfl
  · intro m hm
    rcases List.mem_append.mp hm with hold | hnew
    · exact h.sendable m hold
    · split_ifs at hnew with hok
      · cases hnew
      · rw [List.mem_singleton.mp hnew]
        exact (ikcpSend_ok_iff h.account.cfg msg).mp (not_ne_iff.mp hok)
  · change (ikcpSend e.kcp msg).2.readPos = BitVec.ofNat 32
      (fragmentsOf (ikcpSend e.kcp msg).2.conv e.received).length
    rw [hconv, hpos]
    exact h.readPos
  · change ∀ ack ∈ (ikcpSend e.kcp msg).2.acklist, _
    rw [hacks]
    exact fun ack hin => hlater.has _ (h.acks ack hin)
  · exact fun datagram hin => hlater.emits (h.emitted datagram hin)

/-! ### A change of the object -/

/-- The calls that neither accept nor return a message: it is enough to look at
    the object. -/
theorem Inv.withKcp (h : Inv e) {kcp' : IKCPCB} (hframe : SndFrame e.kcp kcp')
    (horder : SendOrder kcp') (hrcv : RcvInv kcp') (hpos : kcp'.readPos = e.kcp.readPos)
    (hhas : ∀ i, e.kcp.Has i → kcp'.Has i) (hacks : ∀ ack ∈ kcp'.acklist, kcp'.Has ack.1.toNat) :
    Inv { e with kcp := kcp' } ∧ Later e { e with kcp := kcp' } := by
  have hconv : kcp'.conv = e.kcp.conv := congrArg IKCPCFG.conv hframe.cfg
  have hlater : Later e { e with kcp := kcp' } := by
    refine ⟨hconv, List.prefix_rfl, ?_, hhas⟩
    dsimp only
    rw [hframe.sndNxt]
  refine ⟨⟨h.account.frame hframe, horder, h.sendable, hrcv, ?_, hacks, ?_⟩, hlater⟩
  · dsimp only
    rw [hpos, hconv]
    exact h.readPos
  · exact fun datagram hin => hlater.emits (h.emitted datagram hin)

/-! ### Reading -/

/-- Reading leaves the send side alone. -/
theorem ikcpRecv_sendSide {kcp : IKCPCB} (hsome : 0 ≤ ikcpPeeksize kcp) :
    (ikcpRecv kcp (ikcpPeeksize kcp)).2.2.acklist = kcp.acklist ∧
      (ikcpRecv kcp (ikcpPeeksize kcp)).2.2.sndUna = kcp.sndUna ∧
      (ikcpRecv kcp (ikcpPeeksize kcp)).2.2.sndBuf = kcp.sndBuf := by
  obtain ⟨probe, hrecv⟩ := ikcpRecv_eq hsome
  rw [hrecv]
  exact ⟨rfl, rfl, rfl⟩

theorem recv_of_not {len : Nat}
    (hnot : ¬ (0 ≤ ikcpPeeksize e.kcp ∧ ikcpPeeksize e.kcp ≤ len)) : e.recv len = e := by
  obtain ⟨hneg, hsame⟩ := (ikcpRecv_len e.kcp len).2 hnot
  rw [recv, if_pos hneg, hsame, List.append_nil]

/-- A message is read, all of it and nothing more. -/
theorem recv_of_can {len : Nat}
    (hcan : 0 ≤ ikcpPeeksize e.kcp ∧ ikcpPeeksize e.kcp ≤ len) :
    e.recv len =
      { e with
        kcp := (ikcpRecv e.kcp (ikcpPeeksize e.kcp)).2.2
        received := e.received ++ [segBytes (headMessage e.kcp.rcvQueue)] } := by
  have hsome := hcan.1
  obtain ⟨hcode, hdata⟩ := ikcpRecv_peeksize hsome
  rw [recv, (ikcpRecv_len e.kcp len).1 hcan, hcode, if_neg (not_lt.mpr hsome), hdata]

/-- What has been read is whole messages, as long as what is at the front of the
    queue is one. -/
theorem Inv.recv (h : Inv e) (hearly : e.kcp.Early) {len : Nat}
    (hmsg : 0 ≤ ikcpPeeksize e.kcp → (headMessage e.kcp.rcvQueue).length =
      (fragmentsOfMsg e.kcp.conv (segBytes (headMessage e.kcp.rcvQueue))).length) :
    Inv (e.recv len) ∧ Later e (e.recv len) := by
  by_cases hcan : 0 ≤ ikcpPeeksize e.kcp ∧ ikcpPeeksize e.kcp ≤ len
  · rw [recv_of_can hcan]
    obtain ⟨hsome, -⟩ := hcan
    obtain ⟨hinv, -, hpos⟩ := h.rcv.ikcpRecv_spec hsome
    obtain ⟨hacks, huna, hbuf⟩ := ikcpRecv_sendSide hsome
    have hhas := h.rcv.has_ikcpRecv_iff hearly hsome
    have hframe := sndFrame_ikcpRecv hsome
    have hconv : (ikcpRecv e.kcp (ikcpPeeksize e.kcp)).2.2.conv = e.kcp.conv :=
      congrArg IKCPCFG.conv hframe.cfg
    have hlater : Later e { e with
        kcp := (ikcpRecv e.kcp (ikcpPeeksize e.kcp)).2.2
        received := e.received ++ [segBytes (headMessage e.kcp.rcvQueue)] } := by
      refine ⟨hconv, List.prefix_rfl, ?_, fun i hi => (hhas i).mpr hi⟩
      dsimp only
      rw [hframe.sndNxt]
    refine ⟨⟨h.account.frame hframe, ?_, h.sendable, hinv, ?_, ?_, ?_⟩, hlater⟩
    · exact h.order.congr (congrArg (List.map _) hbuf) huna hframe.sndNxt
    · dsimp only
      rw [hpos, hconv, fragmentsOf_concat, List.length_append, BitVec.ofNat_add, ← hmsg hsome,
        h.readPos]
    · dsimp only
      rw [hacks]
      exact fun ack hin => (hhas _).mpr (h.acks ack hin)
    · exact fun datagram hin => hlater.emits (h.emitted datagram hin)
  · rw [recv_of_not hcan]
    exact ⟨h, .refl e⟩

/-! ### Flushing -/

/-- **A flush puts out genuine datagrams.** -/
theorem Inv.flushed_genuine (h : Inv e) (hs : e.Short) (hearly : e.kcp.Early)
    (hupd : e.kcp.updated = true) {seg : IKCPSEG} (hin : seg ∈ flushedSegments e.kcp) :
    e.flush.Genuine seg := by
  obtain ⟨n, hflush⟩ := ikcpFlush_flushed hupd
  have hconv : (ikcpFlush e.kcp).1.conv = e.kcp.conv := congrArg IKCPCFG.conv hflush.frame.cfg
  have hhas : ∀ i, e.kcp.Has i → e.flush.kcp.Has i := fun i hi => (hflush.rcv.has_iff i).mpr hi
  have hheader := flushedSegments_header hin
  have huna : ∀ i < seg.una.toNat, e.flush.kcp.Has i := by
    rw [hheader.1]
    exact fun i hi => hhas i (h.rcv.has_of_lt hearly hi)
  have hsignal : seg.Signal e.kcp.conv → (seg.cmd = ikcpCmdAck → e.kcp.Has seg.sn.toNat) →
      e.flush.Genuine seg := by
    rintro ⟨hc, hcmd, hdata⟩ hack
    have hkind : ∀ cmd ∈ [ikcpCmdAck, ikcpCmdWask, ikcpCmdWins],
        validCmd cmd ∧ cmd ≠ ikcpCmdPush := by decide
    refine ⟨IKCPSEG.readable_iff.mpr ⟨?_, (hkind _ hcmd).1, ?_⟩, huna, ?_, ?_⟩
    · exact hc.trans hconv.symm
    · rw [hdata]
      decide
    · exact fun hcmd' => hhas _ (hack hcmd')
    · exact fun hpush => absurd hpush (hkind _ hcmd).2
  rw [flushedSegments, List.mem_append, List.mem_append] at hin
  rcases hin with (hacks | hprobe) | hdata
  · -- an acknowledgement of something on the list
    obtain ⟨ack, hack, rfl⟩ := List.mem_map.mp hacks
    exact hsignal (flushHeader_signal e.kcp (by simp) _ _) (fun _ => h.acks ack hack)
  · obtain ⟨cmd, hcmd, sn, ts, rfl⟩ := mem_probeSegments hprobe
    have hkind : ∀ cmd ∈ [ikcpCmdWask, ikcpCmdWins],
        cmd ∈ [ikcpCmdAck, ikcpCmdWask, ikcpCmdWins] ∧ cmd ≠ ikcpCmdAck := by decide
    obtain ⟨hmem, hne⟩ := hkind cmd hcmd
    have hsig := flushHeader_signal (probeWindow e.kcp) hmem sn ts
    have hprobeconv : (probeWindow e.kcp).conv = e.kcp.conv :=
      congrArg IKCPCFG.conv (probeWindow_cfg e.kcp)
    rw [hprobeconv] at hsig
    exact hsignal hsig (fun hack => absurd hack hne)
  · -- a segment of the buffer, old or just numbered
    obtain ⟨segment, hbuf, hdue⟩ := List.mem_filterMap.mp hdata
    obtain ⟨moved, hsplit, hnxt, -, hcopies⟩ := h.account.moved
    have hcopy : CopyOf e.kcp.conv (moved ++ e.kcp.sndQueue.take n) segment := by
      refine copyOf_afterMove hnxt hcopies ?_
      rw [hflush.buffer] at hbuf
      rcases List.mem_append.mp hbuf with hold | hnew
      · exact Or.inl hold
      · obtain ⟨i, hi, heq⟩ := List.mem_mapIdx.mp hnew
        exact Or.inr ⟨i, _, List.getElem?_eq_getElem hi, heq.symm⟩
    have hseg := hcopy.sameContent (dueSegment_sameContent hdue)
    have hmoved : moved ++ e.kcp.sndQueue.take n <+: e.fragments := by
      refine ⟨e.kcp.sndQueue.drop n, ?_⟩
      rw [List.append_assoc, List.take_append_drop, fragments, hsplit]
    obtain ⟨hfrag, hlt⟩ := isFragment_of_copy hs hmoved hseg
    have hlen := hmoved.length_le
    have hshort : e.fragments.length + 1024 < 2 ^ 31 := hs
    have hnext : e.flush.kcp.sndNxt.toNat = (moved ++ e.kcp.sndQueue.take n).length := by
      change (ikcpFlush e.kcp).1.sndNxt.toNat = _
      have htake : (e.kcp.sndQueue.take n).length = n := by
        rw [List.length_take, Nat.min_eq_left hflush.moved]
      rw [List.length_append, htake] at hlen ⊢
      rw [hflush.sndNxt, hnxt, ← BitVec.ofNat_add, BitVec.toNat_ofNat]
      omega
    have hcmd : seg.cmd = ikcpCmdPush := by
      obtain ⟨i, frag, -, -, hcmd, -⟩ := hseg
      exact hcmd
    have hdatalen : seg.data.length ≤ 1376 := by
      obtain ⟨i, frag, hfrag', -, -, -, -, hdata'⟩ := hseg
      obtain ⟨more, hmore⟩ := hmoved
      have hin' : frag ∈ e.fragments := by
        rw [← hmore]
        exact List.mem_append_left _ (List.mem_of_getElem? hfrag')
      obtain ⟨msg, -, hpart⟩ := List.mem_flatMap.mp hin'
      rw [hdata']
      exact fragment_data_length _ _ _ frag hpart
    refine ⟨IKCPSEG.readable_iff.mpr ⟨?_, ?_, by omega⟩, huna, ?_, ?_⟩
    · obtain ⟨i, frag, -, hc, -⟩ := hseg
      exact hc.trans hconv.symm
    · rw [hcmd]
      decide
    · intro hack
      rw [hcmd] at hack
      exact absurd hack (by decide)
    · intro _
      have hsame : e.flush.fragments = e.fragments := by
        rw [fragments, fragments, show e.flush.kcp.conv = e.kcp.conv from hconv]
        rfl
      rw [hsame, hnext]
      exact ⟨hfrag, hlt⟩

theorem Inv.flush (h : Inv e) (hs : e.Short) (hearly : e.kcp.Early) :
    Inv e.flush ∧ Later e e.flush := by
  cases hupd : e.kcp.updated with
  | false =>
      have hsame : e.flush = e := by
        rw [Endpoint.flush, ikcpFlush, hupd]
        exact congrArg (fun out => { e with output := out }) (List.append_nil _)
      rw [hsame]
      exact ⟨h, .refl e⟩
  | true =>
      obtain ⟨n, hflush⟩ := ikcpFlush_flushed hupd
      have hconv : (ikcpFlush e.kcp).1.conv = e.kcp.conv := congrArg IKCPCFG.conv hflush.frame.cfg
      have hadd := h.sndNxt_add hs
      have hshort : e.fragments.length + 1024 < 2 ^ 31 := hs
      have hmoved := hflush.moved
      have hlater : Later e e.flush := by
        refine ⟨hconv, List.prefix_rfl, ?_, fun i hi => (hflush.rcv.has_iff i).mpr hi⟩
        change _ ≤ (ikcpFlush e.kcp).1.sndNxt.toNat
        rw [hflush.sndNxt, toNat_add_ofNat (by omega)]
        omega
      have haccount : SendInv e.flush.kcp e.flush.accepted e.flush.output :=
        h.account.ikcpFlush hupd
      have hpos : (ikcpFlush e.kcp).1.readPos = e.kcp.readPos := by
        obtain ⟨-, hqueue, -, hnxt⟩ := hflush.rcv
        rw [IKCPCB.readPos, IKCPCB.readPos, hqueue, hnxt]
      refine ⟨⟨haccount, ?_, h.sendable, h.rcv.congr hflush.rcv, ?_, ?_, ?_⟩, hlater⟩
      · exact h.order.flushed h.account.cfg hflush (by omega)
      · change (ikcpFlush e.kcp).1.readPos =
          BitVec.ofNat 32 (fragmentsOf (ikcpFlush e.kcp).1.conv e.received).length
        rw [hpos, hconv]
        exact h.readPos
      · change ∀ ack ∈ (ikcpFlush e.kcp).1.acklist, _
        rw [hflush.acklist]
        exact fun _ hin => absurd hin List.not_mem_nil
      · intro datagram hin
        rcases List.mem_append.mp hin with hold | hnew
        · exact hlater.emits (h.emitted datagram hold)
        · obtain ⟨groups, hsent, hflat, hne⟩ := ikcpFlush_segments hupd
          have hnew' : datagram ∈ (ikcpFlush e.kcp).2 := hnew
          rw [hsent] at hnew'
          obtain ⟨group, hgroup, rfl⟩ := List.mem_map.mp hnew'
          refine ⟨group, hne group hgroup, rfl, ?_⟩
          intro seg hseg
          apply h.flushed_genuine hs hearly hupd
          rw [← hflat]
          exact List.mem_flatten_of_mem hgroup hseg

/-- The clock and the schedule do not matter to what holds of an end. -/
theorem Inv.start (h : Inv e) (clock ts : IUINT32) :
    Inv { e with kcp := { e.kcp with current := clock, updated := true, tsFlush := ts } } ∧
      Later e { e with
        kcp := { e.kcp with current := clock, updated := true, tsFlush := ts } } := by
  have hlater : Later e { e with
      kcp := { e.kcp with current := clock, updated := true, tsFlush := ts } } :=
    ⟨rfl, List.prefix_rfl, le_rfl, fun _ hi => hi⟩
  refine ⟨⟨h.account.start clock ts, h.order.congr rfl rfl rfl, h.sendable,
    h.rcv.congr ⟨rfl, rfl, rfl, rfl⟩, h.readPos, h.acks, ?_⟩, hlater⟩
  exact fun datagram hin => hlater.emits (h.emitted datagram hin)

theorem update_eq (e : Endpoint) (clock : IUINT32) :
    e.update clock =
      if itimediff clock (scheduled e.kcp clock) < 0 ∧
          -10000 ≤ itimediff clock (scheduled e.kcp clock) then
        { e with
          kcp := { e.kcp with
            current := clock, updated := true, tsFlush := scheduled e.kcp clock } }
      else
        Endpoint.flush { e with
          kcp := { e.kcp with
            current := clock, updated := true,
            tsFlush := nextFlush e.kcp.cfg.interval clock (scheduled e.kcp clock) } } := by
  rw [update, ikcpUpdate_eq]
  split_ifs
  · exact congrArg (fun out => ({ e with
      kcp := { e.kcp with
        current := clock, updated := true, tsFlush := scheduled e.kcp clock },
      output := out } : Endpoint)) (List.append_nil _)
  · rfl

/-! ### A segment comes in -/

/-- **One segment at one end**: the end stays in order, and what has arrived
    stays. -/
theorem Inv.segment (h : Inv e) (hs : e.Short) (hearly : e.kcp.Early) (maxack : Option IUINT32)
    {seg : IKCPSEG} (huna : seg.una.toNat < 2 ^ 31)
    (hsn : seg.cmd = ikcpCmdPush → seg.sn.toNat < 2 ^ 31) :
    Inv { e with kcp := (inputSegment e.kcp maxack seg.header seg.data).1 } ∧
      Later e { e with kcp := (inputSegment e.kcp maxack seg.header seg.data).1 } := by
  have hadd := h.sndNxt_add hs
  have hshort : e.fragments.length + 1024 < 2 ^ 31 := hs
  have harr := inputSegment_arrived h.rcv maxack seg
  obtain ⟨horder, -, -⟩ := inputSegment_acked h.order (by omega) maxack huna
  have hhas : ∀ i, e.kcp.Has i →
      (inputSegment e.kcp maxack seg.header seg.data).1.Has i :=
    fun i hi => (harr.has_iff i).mpr (Or.inl hi)
  refine h.withKcp (sndFrame_inputSegment _ _ _ _) horder harr.inv harr.pos hhas ?_
  rw [inputSegment_acklist]
  intro ack hin
  rcases List.mem_append.mp hin with hold | hnew
  · exact hhas _ (h.acks ack hold)
  · split_ifs at hnew with hpush
    · rw [List.mem_singleton.mp hnew]
      exact harr.has_of_acknowledges h.rcv hearly hpush.1 (hsn hpush.1) hpush.2
    · cases hnew

/-- What follows the segments in `ikcp_input` counts and grows the window. -/
theorem afterSegments_unacked (kcp : IKCPCB) (maxack : Option IUINT32) (una : IUINT32) :
    (growCwnd (parseMaxack kcp maxack) una).unacked = kcp.unacked ∧
      (growCwnd (parseMaxack kcp maxack) una).sndNxt = kcp.sndNxt := by
  refine ⟨?_, ((sndFrame_parseMaxack kcp maxack).trans (sndFrame_growCwnd _ una)).sndNxt⟩
  rw [← (unacked_parseMaxack kcp maxack).1]
  unfold growCwnd
  dsimp only
  split_ifs <;> rfl

theorem afterSegments_rest (kcp : IKCPCB) (maxack : Option IUINT32) (una : IUINT32) :
    (growCwnd (parseMaxack kcp maxack) una).sndUna = kcp.sndUna ∧
      (growCwnd (parseMaxack kcp maxack) una).acklist = kcp.acklist ∧
      (growCwnd (parseMaxack kcp maxack) una).probe = kcp.probe ∧
      (growCwnd (parseMaxack kcp maxack) una).rmtWnd = kcp.rmtWnd := by
  have hgrow : ∀ kcp : IKCPCB, (growCwnd kcp una).sndUna = kcp.sndUna ∧
      (growCwnd kcp una).acklist = kcp.acklist ∧ (growCwnd kcp una).probe = kcp.probe ∧
      (growCwnd kcp una).rmtWnd = kcp.rmtWnd := by
    intro kcp
    unfold growCwnd
    dsimp only
    split_ifs <;> exact ⟨rfl, rfl, rfl, rfl⟩
  have hmaxack : (parseMaxack kcp maxack).acklist = kcp.acklist ∧
      (parseMaxack kcp maxack).probe = kcp.probe ∧
      (parseMaxack kcp maxack).rmtWnd = kcp.rmtWnd := by
    cases maxack with
    | none => exact ⟨rfl, rfl, rfl⟩
    | some sn =>
        change (ikcpParseFastack kcp sn).acklist = _ ∧ (ikcpParseFastack kcp sn).probe = _ ∧
          (ikcpParseFastack kcp sn).rmtWnd = _
        unfold ikcpParseFastack
        split_ifs <;> exact ⟨rfl, rfl, rfl⟩
  obtain ⟨huna, hacks, hprobe, hwnd⟩ := hgrow (parseMaxack kcp maxack)
  exact ⟨huna.trans (unacked_parseMaxack kcp maxack).2, hacks.trans hmaxack.1,
    hprobe.trans hmaxack.2.1, hwnd.trans hmaxack.2.2⟩

theorem Inv.afterSegments (h : Inv e) (maxack : Option IUINT32) (una : IUINT32) :
    Inv { e with kcp := growCwnd (parseMaxack e.kcp maxack) una } ∧
      Later e { e with kcp := growCwnd (parseMaxack e.kcp maxack) una } := by
  have hsame := (sameRcv_parseMaxack e.kcp maxack).trans (sameRcv_growCwnd _ una)
  have hframe := (sndFrame_parseMaxack e.kcp maxack).trans (sndFrame_growCwnd _ una)
  obtain ⟨hnums, hnxt⟩ := afterSegments_unacked e.kcp maxack una
  obtain ⟨hself, hacks, -⟩ := afterSegments_rest e.kcp maxack una
  have hpos : (growCwnd (parseMaxack e.kcp maxack) una).readPos = e.kcp.readPos := by
    obtain ⟨-, hqueue, -, hrcv⟩ := hsame
    rw [IKCPCB.readPos, IKCPCB.readPos, hqueue, hrcv]
  refine h.withKcp hframe (h.order.congr hnums hself hnxt) (h.rcv.congr hsame) hpos
    (fun i hi => (hsame.has_iff i).mpr hi) ?_
  rw [hacks]
  exact fun ack hin => (hsame.has_iff _).mpr (h.acks ack hin)

end Endpoint

end Kcp
end UdpSpeed
