/-
  UdpSpeed.Kcp.Transmit

  From `ikcp_send` to the wire.  The fragments of the accepted messages are the
  ones already sent, each with its own sequence number, followed by those still
  in the send queue; a flush empties the queue as far as the send window goes,
  and an update one interval after the last one flushes.
-/

import UdpSpeed.Lib.SerialNumber
import UdpSpeed.Kcp.Wire
import UdpSpeed.Kcp.Send
import UdpSpeed.Kcp.Backlog

namespace UdpSpeed
namespace Kcp

open SerialNumber

/-! ## What has been sent -/

/-- The fragments of the messages `ikcp_send` accepted, in order. -/
def fragmentsOf (conv : IUINT32) (accepted : List (List Byte)) : List IKCPSEG :=
  accepted.flatMap (fun msg =>
    fragment (tunnelCfg conv) (fragmentCount (tunnelCfg conv) msg.length) msg)

/-- Fragment number `n` is in one of the datagrams. -/
def Carried (conv : IUINT32) (datagrams : List (List Byte)) (n : Nat) (seg : IKCPSEG) : Prop :=
  ∃ group, wireAll group ∈ datagrams ∧ ∃ seg' ∈ group, seg'.conv = conv ∧
    seg'.cmd = ikcpCmdPush ∧ seg'.frg = seg.frg ∧ seg'.sn = BitVec.ofNat 32 n ∧
    seg'.data = seg.data

/-- No further segment fits the send window. -/
def IKCPCB.WindowFull (kcp : IKCPCB) : Prop :=
  0 ≤ itimediff kcp.sndNxt (kcp.sndUna + sendWindow kcp)

/-- Only the window holds a segment back. -/
def IKCPCB.QueueSent (kcp : IKCPCB) : Prop := kcp.sndQueue = [] ∨ kcp.WindowFull

/-- Of the accepted messages everything is in the datagrams except the fragments
    still queued, and those are only held back by the window. -/
def Transmitted (kcp : IKCPCB) (accepted datagrams : List (List Byte)) : Prop :=
  ∃ moved, fragmentsOf kcp.conv accepted = moved ++ kcp.sndQueue ∧
    (∀ i seg, moved[i]? = some seg → Carried kcp.conv datagrams i seg) ∧ kcp.QueueSent

theorem fragmentsOf_append (conv : IUINT32) (accepted more : List (List Byte)) :
    fragmentsOf conv (accepted ++ more) = fragmentsOf conv accepted ++ fragmentsOf conv more := by
  simp [fragmentsOf]

theorem Carried.mono {conv : IUINT32} {datagrams more : List (List Byte)} {n : Nat}
    {seg : IKCPSEG} (h : Carried conv datagrams n seg) :
    Carried conv (datagrams ++ more) n seg := by
  obtain ⟨group, hin, hseg⟩ := h
  exact ⟨group, List.mem_append_left _ hin, hseg⟩

/-- A PUSH segment with one of the fragments, under the number of its place. -/
def CopyOf (conv : IUINT32) (moved : List IKCPSEG) (seg : IKCPSEG) : Prop :=
  ∃ i frag, moved[i]? = some frag ∧ seg.conv = conv ∧ seg.cmd = ikcpCmdPush ∧
    seg.frg = frag.frg ∧ seg.sn = BitVec.ofNat 32 i ∧ seg.data = frag.data

theorem CopyOf.append {conv : IUINT32} {moved : List IKCPSEG} {seg : IKCPSEG}
    (h : CopyOf conv moved seg) (more : List IKCPSEG) : CopyOf conv (moved ++ more) seg := by
  obtain ⟨i, frag, hfrag, hcopy⟩ := h
  refine ⟨i, frag, ?_, hcopy⟩
  rw [List.getElem?_append_left (List.getElem?_eq_some_iff.mp hfrag).1, hfrag]

theorem CopyOf.sameContent {conv : IUINT32} {moved : List IKCPSEG} {seg seg' : IKCPSEG}
    (h : CopyOf conv moved seg) (hsame : seg.SameContent seg') : CopyOf conv moved seg' := by
  obtain ⟨i, frag, hfrag, hconv, hcmd, hfrg, hsn, hdata⟩ := h
  obtain ⟨hconv', hcmd', hfrg', hsn', hdata'⟩ := hsame
  exact ⟨i, frag, hfrag, hconv'.trans hconv, hcmd'.trans hcmd, hfrg'.trans hfrg, hsn'.trans hsn,
    hdata'.trans hdata⟩

/-- The send side of an object between two calls. -/
structure SendInv (kcp : IKCPCB) (accepted datagrams : List (List Byte)) : Prop where
  cfg : kcp.cfg = tunnelCfg kcp.conv
  moved : ∃ moved, fragmentsOf kcp.conv accepted = moved ++ kcp.sndQueue ∧
    kcp.sndNxt = BitVec.ofNat 32 moved.length ∧
    (∀ i seg, moved[i]? = some seg → Carried kcp.conv datagrams i seg) ∧
    ∀ seg ∈ kcp.sndBuf, CopyOf kcp.conv moved seg

theorem sendInv_freshKcp (conv : IUINT32) (datagrams : List (List Byte)) :
    SendInv (freshKcp conv) [] datagrams where
  cfg := freshKcp_cfg conv
  moved := by
    refine ⟨[], rfl, rfl, ?_, ?_⟩
    · intro i seg hseg
      cases hseg
    · intro seg hin
      cases hin

theorem SendInv.mono {kcp : IKCPCB} {accepted datagrams : List (List Byte)}
    (h : SendInv kcp accepted datagrams) (more : List (List Byte)) :
    SendInv kcp accepted (datagrams ++ more) := by
  obtain ⟨moved, hsplit, hnxt, hcarried, hbuf⟩ := h.moved
  exact ⟨h.cfg, moved, hsplit, hnxt, fun i seg hseg => (hcarried i seg hseg).mono, hbuf⟩

theorem SendInv.transmitted {kcp : IKCPCB} {accepted datagrams : List (List Byte)}
    (h : SendInv kcp accepted datagrams) (hdone : kcp.QueueSent) :
    Transmitted kcp accepted datagrams := by
  obtain ⟨moved, hsplit, -, hcarried, -⟩ := h.moved
  exact ⟨moved, hsplit, hcarried, hdone⟩

/-! ## Sending -/

/-- An accepted message goes to the end of the queue. -/
theorem ikcpSend_sndQueue {kcp : IKCPCB} (hcfg : kcp.cfg = tunnelCfg kcp.conv) {msg : List Byte}
    (hok : (ikcpSend kcp msg).1 = 0) :
    (ikcpSend kcp msg).2 = { kcp with sndQueue := kcp.sndQueue ++ fragmentsOf kcp.conv [msg] } := by
  have hstream : kcp.cfg.stream = false := by
    rw [hcfg]
    rfl
  rw [ikcpSend_eq hstream] at hok ⊢
  split_ifs at hok ⊢ with hbig
  · cases hok
  · rw [fragmentsOf, List.flatMap_singleton, ← hcfg]

/-- A refused one changes nothing. -/
theorem ikcpSend_refused {kcp : IKCPCB} (hcfg : kcp.cfg = tunnelCfg kcp.conv) {msg : List Byte}
    (hne : (ikcpSend kcp msg).1 ≠ 0) : (ikcpSend kcp msg).2 = kcp := by
  have hstream : kcp.cfg.stream = false := by
    rw [hcfg]
    rfl
  rw [ikcpSend_eq hstream] at hne ⊢
  split_ifs at hne ⊢ with hbig
  · rfl
  · exact absurd rfl hne

theorem SendInv.ikcpSend {kcp : IKCPCB} {accepted datagrams : List (List Byte)}
    (h : SendInv kcp accepted datagrams) (msg : List Byte) :
    SendInv (Kcp.ikcpSend kcp msg).2
      (accepted ++ if (Kcp.ikcpSend kcp msg).1 ≠ 0 then [] else [msg]) datagrams := by
  by_cases hne : (Kcp.ikcpSend kcp msg).1 ≠ 0
  · rw [if_pos hne, List.append_nil, ikcpSend_refused h.cfg hne]
    exact h
  · rw [if_neg hne, ikcpSend_sndQueue h.cfg (not_ne_iff.mp hne)]
    obtain ⟨moved, hsplit, hnxt, hcarried, hbuf⟩ := h.moved
    refine ⟨h.cfg, moved, ?_, hnxt, hcarried, hbuf⟩
    change fragmentsOf kcp.conv (accepted ++ [msg]) = _
    rw [fragmentsOf_append, hsplit, List.append_assoc]

/-! ## Receiving leaves the send queue alone -/

/-- Every segment of `buf'` is one of `buf`, up to its timers. -/
def Kept (buf buf' : List IKCPSEG) : Prop :=
  ∀ seg' ∈ buf', ∃ seg ∈ buf, seg.SameContent seg'

theorem Kept.of_subset {buf buf' : List IKCPSEG} (h : buf' ⊆ buf) : Kept buf buf' :=
  fun seg hin => ⟨seg, h hin, .refl seg⟩

theorem Kept.trans {buf buf₁ buf₂ : List IKCPSEG} (h : Kept buf buf₁) (h' : Kept buf₁ buf₂) :
    Kept buf buf₂ := by
  intro seg₂ hin
  obtain ⟨seg₁, hin₁, hsame⟩ := h' seg₂ hin
  obtain ⟨seg, hseg, hsame₁⟩ := h seg₁ hin₁
  exact ⟨seg, hseg, hsame₁.trans hsame⟩

/-- Acknowledgements only remove segments. -/
theorem dropAcked_subset (sn : IUINT32) (buf : List IKCPSEG) : dropAcked sn buf ⊆ buf := by
  induction buf with
  | nil => exact fun _ hin => hin
  | cons seg rest ih =>
      unfold dropAcked
      split_ifs
      · exact List.subset_cons_self seg rest
      · exact fun _ hin => hin
      · exact List.cons_subset_cons seg ih

theorem kept_bumpFastack (sn : IUINT32) (buf : List IKCPSEG) : Kept buf (bumpFastack sn buf) := by
  induction buf with
  | nil => exact .of_subset (fun _ hin => hin)
  | cons seg rest ih =>
      have hrest : ∀ seg' ∈ bumpFastack sn rest, ∃ x ∈ seg :: rest, x.SameContent seg' := by
        intro seg' hin
        obtain ⟨x, hx, hsame⟩ := ih seg' hin
        exact ⟨x, List.mem_cons_of_mem _ hx, hsame⟩
      unfold bumpFastack
      intro seg' hin
      split_ifs at hin
      · exact ⟨seg', hin, .refl seg'⟩
      · rcases List.mem_cons.mp hin with rfl | htail
        · exact ⟨seg, List.mem_cons_self .., rfl, rfl, rfl, rfl, rfl⟩
        · exact hrest seg' htail
      · rcases List.mem_cons.mp hin with rfl | htail
        · exact ⟨seg', List.mem_cons_self .., .refl seg'⟩
        · exact hrest seg' htail

/-- `kcp'` is `kcp` after some input: the queue, the next number and the flush
    schedule are as they were, and nothing can be unacknowledged that was not. -/
structure SndFrame (kcp kcp' : IKCPCB) : Prop where
  cfg : kcp'.cfg = kcp.cfg
  sndQueue : kcp'.sndQueue = kcp.sndQueue
  sndNxt : kcp'.sndNxt = kcp.sndNxt
  updated : kcp'.updated = kcp.updated
  tsFlush : kcp'.tsFlush = kcp.tsFlush
  idle : kcp.sndBuf = [] ∧ kcp.sndUna = kcp.sndNxt → kcp'.sndBuf = [] ∧ kcp'.sndUna = kcp'.sndNxt
  sndBuf : Kept kcp.sndBuf kcp'.sndBuf

/-- The whole send side is as it was. -/
theorem SndFrame.of_same {kcp kcp' : IKCPCB} (hcfg : kcp'.cfg = kcp.cfg)
    (hqueue : kcp'.sndQueue = kcp.sndQueue) (hnxt : kcp'.sndNxt = kcp.sndNxt)
    (hupd : kcp'.updated = kcp.updated) (hts : kcp'.tsFlush = kcp.tsFlush)
    (hbuf : kcp'.sndBuf = kcp.sndBuf) (huna : kcp'.sndUna = kcp.sndUna) : SndFrame kcp kcp' := by
  refine ⟨hcfg, hqueue, hnxt, hupd, hts, ?_, ?_⟩
  · rw [hbuf, huna, hnxt]
    exact id
  · rw [hbuf]
    exact .of_subset (fun _ hin => hin)

theorem SndFrame.refl (kcp : IKCPCB) : SndFrame kcp kcp := .of_same rfl rfl rfl rfl rfl rfl rfl

theorem SndFrame.trans {kcp kcp₁ kcp₂ : IKCPCB} (h : SndFrame kcp kcp₁) (h' : SndFrame kcp₁ kcp₂) :
    SndFrame kcp kcp₂ where
  cfg := h'.cfg.trans h.cfg
  sndQueue := h'.sndQueue.trans h.sndQueue
  sndNxt := h'.sndNxt.trans h.sndNxt
  updated := h'.updated.trans h.updated
  tsFlush := h'.tsFlush.trans h.tsFlush
  idle := fun hidle => h'.idle (h.idle hidle)
  sndBuf := h.sndBuf.trans h'.sndBuf

/-- Only the buffer has changed, and an empty one is still empty. -/
theorem SndFrame.of_buf {kcp : IKCPCB} {buf : List IKCPSEG} (hkept : Kept kcp.sndBuf buf) :
    SndFrame kcp { kcp with sndBuf := buf } := by
  refine ⟨rfl, rfl, rfl, rfl, rfl, ?_, hkept⟩
  rintro ⟨hnil, huna⟩
  refine ⟨?_, huna⟩
  rw [List.eq_nil_iff_forall_not_mem]
  intro seg' hin
  obtain ⟨seg, hseg, -⟩ := hkept seg' hin
  rw [hnil] at hseg
  cases hseg

theorem sndFrame_ikcpUpdateAck (kcp : IKCPCB) (rtt : IUINT32) :
    SndFrame kcp (ikcpUpdateAck kcp rtt) := by
  unfold ikcpUpdateAck
  dsimp only
  split_ifs <;> exact .of_same rfl rfl rfl rfl rfl rfl rfl

theorem sndFrame_ikcpShrinkBuf (kcp : IKCPCB) : SndFrame kcp (ikcpShrinkBuf kcp) := by
  have hkept : ∀ {buf}, kcp.sndBuf = buf → Kept kcp.sndBuf buf := by
    rintro buf rfl
    exact .of_subset (fun _ hin => hin)
  unfold ikcpShrinkBuf
  cases hbuf : kcp.sndBuf with
  | nil => exact ⟨rfl, rfl, rfl, rfl, rfl, fun _ => ⟨rfl, rfl⟩, hkept hbuf⟩
  | cons seg rest =>
      refine ⟨rfl, rfl, rfl, rfl, rfl, ?_, hkept hbuf⟩
      rintro ⟨hnil, -⟩
      rw [hbuf] at hnil
      cases hnil

theorem sndFrame_ikcpParseAck (kcp : IKCPCB) (sn : IUINT32) :
    SndFrame kcp (ikcpParseAck kcp sn) := by
  unfold ikcpParseAck
  split_ifs
  · exact .refl kcp
  · exact .of_buf (.of_subset (dropAcked_subset sn kcp.sndBuf))

theorem sndFrame_ikcpParseUna (kcp : IKCPCB) (una : IUINT32) :
    SndFrame kcp (ikcpParseUna kcp una) :=
  .of_buf (.of_subset (List.dropWhile_sublist _).subset)

theorem sndFrame_parseMaxack (kcp : IKCPCB) (maxack : Option IUINT32) :
    SndFrame kcp (parseMaxack kcp maxack) := by
  cases maxack with
  | none => exact .refl kcp
  | some maxack =>
      change SndFrame kcp (ikcpParseFastack kcp maxack)
      unfold ikcpParseFastack
      split_ifs
      · exact .refl kcp
      · exact .of_buf (kept_bumpFastack maxack kcp.sndBuf)

theorem sndFrame_growCwnd (kcp : IKCPCB) (una : IUINT32) : SndFrame kcp (growCwnd kcp una) := by
  unfold growCwnd
  dsimp only
  split_ifs <;> exact .of_same rfl rfl rfl rfl rfl rfl rfl

theorem sndFrame_inputAck (kcp : IKCPCB) (h : SegHeader) : SndFrame kcp (inputAck kcp h) := by
  unfold inputAck
  dsimp only
  refine SndFrame.trans ?_ ((sndFrame_ikcpParseAck _ h.sn).trans (sndFrame_ikcpShrinkBuf _))
  split_ifs
  · exact sndFrame_ikcpUpdateAck kcp _
  · exact .refl kcp

theorem sndFrame_ikcpParseData (kcp : IKCPCB) (newseg : IKCPSEG) :
    SndFrame kcp (ikcpParseData kcp newseg) := by
  unfold ikcpParseData
  split_ifs
  · exact .refl kcp
  · cases insertBackward newseg kcp.rcvBuf.reverse <;> exact .of_same rfl rfl rfl rfl rfl rfl rfl

theorem sndFrame_inputPush (kcp : IKCPCB) (h : SegHeader) (payload : List Byte) :
    SndFrame kcp (inputPush kcp h payload) := by
  have hack : SndFrame kcp (ikcpAckPush kcp h.sn h.ts) := .of_same rfl rfl rfl rfl rfl rfl rfl
  unfold inputPush
  dsimp only
  split_ifs
  · exact hack.trans (sndFrame_ikcpParseData _ _)
  · exact hack
  · exact .refl kcp

theorem sndFrame_inputSegment (kcp : IKCPCB) (maxack : Option IUINT32) (h : SegHeader)
    (payload : List Byte) : SndFrame kcp (inputSegment kcp maxack h payload).1 := by
  have hwnd : SndFrame kcp { kcp with rmtWnd := h.wnd.setWidth 32 } :=
    .of_same rfl rfl rfl rfl rfl rfl rfl
  have hhead := hwnd.trans ((sndFrame_ikcpParseUna _ h.una).trans (sndFrame_ikcpShrinkBuf _))
  unfold inputSegment
  dsimp only
  split_ifs
  · exact hhead.trans (sndFrame_inputAck _ h)
  · exact hhead.trans (sndFrame_inputPush _ h payload)
  · exact hhead.trans (.of_same rfl rfl rfl rfl rfl rfl rfl)
  · exact hhead

theorem inputFrame_sndFrame : InputFrame SndFrame where
  refl := .refl
  trans := .trans
  segment := sndFrame_inputSegment
  maxack := sndFrame_parseMaxack
  cwnd := sndFrame_growCwnd

theorem sndFrame_ikcpInput (kcp : IKCPCB) (data : List Byte) :
    SndFrame kcp (ikcpInput kcp data).2 := inputFrame_sndFrame.ikcpInput kcp data

theorem sndFrame_ikcpRecv {kcp : IKCPCB} (hsome : 0 ≤ ikcpPeeksize kcp) :
    SndFrame kcp (ikcpRecv kcp (ikcpPeeksize kcp)).2.2 := by
  obtain ⟨probe, hrecv⟩ := ikcpRecv_eq hsome
  rw [hrecv]
  exact .of_same rfl rfl rfl rfl rfl rfl rfl

theorem sndFrame_receiveOnce (kcp : IKCPCB) (data : List Byte) :
    SndFrame kcp (receiveOnce kcp data) := by
  have hinput := sndFrame_ikcpInput kcp data
  unfold receiveOnce
  dsimp only
  split_ifs with hneg hle
  · exact hinput
  · exact hinput
  · exact hinput.trans (sndFrame_ikcpRecv (by omega))

/-- The account only reads the queue, the buffer and the next number. -/
theorem SendInv.congr {kcp kcp' : IKCPCB} {accepted datagrams : List (List Byte)}
    (h : SendInv kcp accepted datagrams) (hcfg : kcp'.cfg = kcp.cfg)
    (hqueue : kcp'.sndQueue = kcp.sndQueue) (hsndNxt : kcp'.sndNxt = kcp.sndNxt)
    (hkept : Kept kcp.sndBuf kcp'.sndBuf) : SendInv kcp' accepted datagrams := by
  have hconv : kcp'.conv = kcp.conv := congrArg IKCPCFG.conv hcfg
  obtain ⟨moved, hsplit, hnxt, hcarried, hbuf⟩ := h.moved
  refine ⟨?_, moved, ?_, ?_, ?_, ?_⟩
  · rw [hcfg, hconv]
    exact h.cfg
  · rw [hconv, hqueue]
    exact hsplit
  · rw [hsndNxt]
    exact hnxt
  · rw [hconv]
    exact hcarried
  · rw [hconv]
    intro seg' hin
    obtain ⟨seg, hseg, hsame⟩ := hkept seg' hin
    exact (hbuf seg hseg).sameContent hsame

theorem SendInv.frame {kcp kcp' : IKCPCB} {accepted datagrams : List (List Byte)}
    (h : SendInv kcp accepted datagrams) (hframe : SndFrame kcp kcp') :
    SendInv kcp' accepted datagrams :=
  h.congr hframe.cfg hframe.sndQueue hframe.sndNxt hframe.sndBuf

/-! ## Flushing -/

/-- The move from `snd_queue` to `snd_buf` takes a front part of the queue,
    numbers it, and stops at the end of the queue or of the window. -/
theorem moveToSndBuf_spec (limit : IUINT32) (stamp : IUINT32 → IKCPSEG → IKCPSEG)
    (queue buf : List IKCPSEG) (nxt : IUINT32) :
    ∃ moved, queue = moved ++ (moveToSndBuf limit stamp queue buf nxt).1 ∧
      (moveToSndBuf limit stamp queue buf nxt).2.2 = nxt + BitVec.ofNat 32 moved.length ∧
      (∀ seg ∈ buf, seg ∈ (moveToSndBuf limit stamp queue buf nxt).2.1) ∧
      (∀ i seg, moved[i]? = some seg →
        stamp (nxt + BitVec.ofNat 32 i) seg ∈ (moveToSndBuf limit stamp queue buf nxt).2.1) ∧
      (∀ seg ∈ (moveToSndBuf limit stamp queue buf nxt).2.1, seg ∈ buf ∨
        ∃ i x, moved[i]? = some x ∧ seg = stamp (nxt + BitVec.ofNat 32 i) x) ∧
      ((moveToSndBuf limit stamp queue buf nxt).1 = [] ∨
        0 ≤ itimediff (moveToSndBuf limit stamp queue buf nxt).2.2 limit) := by
  induction queue generalizing buf nxt with
  | nil =>
      refine ⟨[], rfl, ?_, fun _ hin => hin, ?_, fun _ hin => Or.inl hin, Or.inl rfl⟩
      · rw [List.length_nil, BitVec.add_zero]
        rfl
      · intro i seg hseg
        cases hseg
  | cons seg rest ih =>
      unfold moveToSndBuf
      by_cases hopen : itimediff nxt limit < 0
      · rw [if_pos hopen]
        obtain ⟨moved, hsplit, hnxt, hbuf, hstamped, hfrom, hdone⟩ :=
          ih (buf ++ [stamp nxt seg]) (nxt + 1)
        refine ⟨seg :: moved, ?_, ?_, ?_, ?_, ?_, hdone⟩
        · rw [List.cons_append, ← hsplit]
        · rw [hnxt, List.length_cons, add_ofNat_succ]
        · intro x hx
          exact hbuf x (List.mem_append_left _ hx)
        · intro i x hx
          cases i with
          | zero =>
              obtain rfl := Option.some.inj hx
              rw [BitVec.add_zero]
              exact hbuf _ (List.mem_append_right _ (List.mem_singleton_self _))
          | succ i =>
              rw [add_ofNat_succ]
              exact hstamped i x hx
        · intro x hx
          rcases hfrom x hx with hold | ⟨i, y, hy, rfl⟩
          · rcases List.mem_append.mp hold with hprev | hself
            · exact Or.inl hprev
            · refine Or.inr ⟨0, seg, rfl, ?_⟩
              rw [BitVec.add_zero]
              exact List.mem_singleton.mp hself
          · refine Or.inr ⟨i + 1, y, hy, ?_⟩
            rw [add_ofNat_succ]
      · rw [if_neg hopen]
        refine ⟨[], rfl, ?_, fun _ hin => hin, ?_, fun _ hin => Or.inl hin,
          Or.inr (not_lt.mp hopen)⟩
        · rw [List.length_nil, BitVec.add_zero]
        · intro i x hx
          cases hx

/-- The object once the acknowledgements and probes have been written. -/
def afterProbes (kcp : IKCPCB) : IKCPCB := { probeWindow kcp with acklist := [], probe := 0 }

/-- The object once the queue has been moved. -/
def afterMove (kcp : IKCPCB) : IKCPCB :=
  let base := afterProbes kcp
  let m := moveToSndBuf (base.sndUna + sendWindow base) (stampSegment base) base.sndQueue
    base.sndBuf base.sndNxt
  { base with sndQueue := m.1, sndBuf := m.2.1, sndNxt := m.2.2 }

/-- The data loop behind them. -/
def dataLoop (kcp : IKCPCB) : FlushState × List IKCPSEG :=
  flushSegments (afterMove kcp)
    { out := flushProbes (probeWindow kcp) (flushAcks kcp), xmit := (afterMove kcp).xmit,
      state := (afterMove kcp).state }
    (afterMove kcp).sndBuf

theorem ikcpFlush_eq {kcp : IKCPCB} (hupd : kcp.updated = true) :
    ikcpFlush kcp =
      (updateSsthresh
        { afterMove kcp with
          sndBuf := (dataLoop kcp).2, xmit := (dataLoop kcp).1.xmit,
          state := (dataLoop kcp).1.state }
        (dataLoop kcp).1 (sendWindow (afterProbes kcp)), (dataLoop kcp).1.out.output.sent) := by
  unfold ikcpFlush
  rw [if_neg (by simp [hupd])]
  rfl

/-- What a flush leaves as it was. -/
structure FlushFrame (kcp kcp' : IKCPCB) : Prop where
  cfg : kcp'.cfg = kcp.cfg
  sndUna : kcp'.sndUna = kcp.sndUna
  rmtWnd : kcp'.rmtWnd = kcp.rmtWnd
  updated : kcp'.updated = kcp.updated
  tsFlush : kcp'.tsFlush = kcp.tsFlush

theorem afterProbes_frame (kcp : IKCPCB) : ∃ wait ts,
    afterProbes kcp =
      { kcp with probeWait := wait, tsProbe := ts, acklist := [], probe := 0 } := by
  unfold afterProbes probeWindow
  dsimp only
  split_ifs <;> exact ⟨_, _, rfl⟩

/-- The move takes what fits the window as it was before the flush. -/
theorem afterMove_spec (kcp : IKCPCB) :
    FlushFrame kcp (afterMove kcp) ∧
      ∃ moved, kcp.sndQueue = moved ++ (afterMove kcp).sndQueue ∧
        (afterMove kcp).sndNxt = kcp.sndNxt + BitVec.ofNat 32 moved.length ∧
        (∀ i seg, moved[i]? = some seg →
          stampSegment kcp (kcp.sndNxt + BitVec.ofNat 32 i) seg ∈ (afterMove kcp).sndBuf) ∧
        (∀ seg ∈ (afterMove kcp).sndBuf, seg ∈ kcp.sndBuf ∨
          ∃ i x, moved[i]? = some x ∧
            seg = stampSegment kcp (kcp.sndNxt + BitVec.ofNat 32 i) x) ∧
        ((afterMove kcp).sndQueue = [] ∨
          0 ≤ itimediff (afterMove kcp).sndNxt (kcp.sndUna + sendWindow kcp)) := by
  obtain ⟨wait, ts, hbase⟩ := afterProbes_frame kcp
  obtain ⟨moved, hsplit, hnxt, -, hstamped, hfrom, hdone⟩ := moveToSndBuf_spec
    (kcp.sndUna + sendWindow kcp) (stampSegment kcp) kcp.sndQueue kcp.sndBuf kcp.sndNxt
  unfold afterMove
  rw [hbase]
  exact ⟨⟨rfl, rfl, rfl, rfl, rfl⟩, moved, hsplit, hnxt, hstamped, hfrom, hdone⟩

/-- What the datagrams of a flush are made of: acknowledgements, probes and the
    segments in the buffer, among them every one that was never sent. -/
theorem dataLoop_spec (kcp : IKCPCB) :
    ∃ groups : List (List IKCPSEG), (dataLoop kcp).1.out.output.sent = groups.map wireAll ∧
      (∀ segment ∈ (afterMove kcp).sndBuf, segment.xmit = 0 →
        ∃ group ∈ groups, ∃ seg' ∈ group, segment.SameContent seg') ∧
      (∀ group ∈ groups, ∀ seg' ∈ group, seg'.Signal kcp.conv ∨
        ∃ segment ∈ (afterMove kcp).sndBuf, segment.SameContent seg') ∧
      Kept (afterMove kcp).sndBuf (dataLoop kcp).2 := by
  have hconv : (probeWindow kcp).conv = kcp.conv := congrArg IKCPCFG.conv (probeWindow_cfg kcp)
  obtain ⟨acks, hacks, hacksig⟩ := flushAcks_packs kcp
  obtain ⟨probes, hprobes, hprobesig⟩ := flushProbes_packs (probeWindow kcp) hacks
  obtain ⟨more, hmore, hput, hfrom, hbuf⟩ := @flushSegments_packs (afterMove kcp)
    (afterMove kcp).sndBuf
    { out := flushProbes (probeWindow kcp) (flushAcks kcp), xmit := (afterMove kcp).xmit,
      state := (afterMove kcp).state } _ hprobes
  obtain ⟨groups, hsegs, hsent, -, -⟩ := hmore.output
  refine ⟨groups, hsent, ?_, ?_, hbuf⟩
  · intro segment hin hfirst
    obtain ⟨seg', hseg', hsame⟩ := hput segment hin hfirst
    have hflat : seg' ∈ groups.flatten := by
      rw [← hsegs]
      exact List.mem_append_right _ hseg'
    obtain ⟨group, hgroup, hmem⟩ := List.mem_flatten.mp hflat
    exact ⟨group, hgroup, seg', hmem, hsame⟩
  · intro group hgroup seg' hmem
    have hflat : seg' ∈ groups.flatten := List.mem_flatten.mpr ⟨group, hgroup, hmem⟩
    rw [← hsegs, List.mem_append, List.mem_append] at hflat
    rcases hflat with (hack | hprobe) | hdata
    · exact Or.inl (hacksig seg' hack)
    · have hsig := hprobesig seg' hprobe
      rw [hconv] at hsig
      exact Or.inl hsig
    · exact Or.inr (hfrom seg' hdata)

/-- No datagram of a flush is larger than the `mtu`, if no segment is. -/
theorem dataLoop_within {kcp : IKCPCB} (hmtu : 24 ≤ kcp.cfg.mtu)
    (hbuf : ∀ segment ∈ (afterMove kcp).sndBuf, 24 + segment.data.length ≤ kcp.cfg.mtu) :
    ∀ datagram ∈ (dataLoop kcp).1.out.output.sent, datagram.length ≤ kcp.cfg.mtu := by
  have hprobe : (probeWindow kcp).cfg.mtu = kcp.cfg.mtu := by rw [probeWindow_cfg]
  have hmove : (afterMove kcp).cfg.mtu = kcp.cfg.mtu := by rw [(afterMove_spec kcp).1.cfg]
  have hstart := flushAcks_within hmtu
  rw [← hprobe] at hstart hmtu
  have hprobes := flushProbes_within hmtu hstart
  rw [hprobe, ← hmove] at hprobes
  rw [← hmove] at hbuf ⊢
  exact (@flushSegments_within (afterMove kcp) _ hbuf
    { out := flushProbes (probeWindow kcp) (flushAcks kcp), xmit := (afterMove kcp).xmit,
      state := (afterMove kcp).state } hprobes).output.2

theorem updateSsthresh_frame (kcp : IKCPCB) (st : FlushState) (window : IUINT32) :
    ∃ ssthresh cwnd incr, updateSsthresh kcp st window =
      { kcp with ssthresh := ssthresh, cwnd := cwnd, incr := incr } := by
  unfold updateSsthresh
  dsimp only
  split_ifs <;> exact ⟨_, _, _, rfl⟩

/-- **What a flush does to the send queue**: the front part that fits the window
    is numbered and put into the datagrams, and the rest stays. -/
theorem ikcpFlush_spec {kcp : IKCPCB} (hupd : kcp.updated = true)
    (hnocwnd : kcp.cfg.nocwnd = true) :
    FlushFrame kcp (ikcpFlush kcp).1 ∧ (ikcpFlush kcp).1.QueueSent ∧
      ∃ moved, kcp.sndQueue = moved ++ (ikcpFlush kcp).1.sndQueue ∧
        (ikcpFlush kcp).1.sndNxt = kcp.sndNxt + BitVec.ofNat 32 moved.length ∧
        (∀ i seg, moved[i]? = some seg → ∃ group, wireAll group ∈ (ikcpFlush kcp).2 ∧
          ∃ seg' ∈ group,
            (stampSegment kcp (kcp.sndNxt + BitVec.ofNat 32 i) seg).SameContent seg') ∧
        Kept (afterMove kcp).sndBuf (ikcpFlush kcp).1.sndBuf ∧
        ∀ seg ∈ (afterMove kcp).sndBuf, seg ∈ kcp.sndBuf ∨
          ∃ i x, moved[i]? = some x ∧
            seg = stampSegment kcp (kcp.sndNxt + BitVec.ofNat 32 i) x := by
  obtain ⟨hframe, moved, hsplit, hnxt, hstamped, hfrom, hdone⟩ := afterMove_spec kcp
  obtain ⟨groups, hsent, hput, -, hkept⟩ := dataLoop_spec kcp
  rw [ikcpFlush_eq hupd]
  obtain ⟨ssthresh, cwnd, incr, hss⟩ := updateSsthresh_frame
    { afterMove kcp with
      sndBuf := (dataLoop kcp).2, xmit := (dataLoop kcp).1.xmit, state := (dataLoop kcp).1.state }
    (dataLoop kcp).1 (sendWindow (afterProbes kcp))
  rw [hss]
  refine ⟨⟨hframe.cfg, hframe.sndUna, hframe.rmtWnd, hframe.updated, hframe.tsFlush⟩, ?_, moved,
    hsplit, hnxt, ?_, hkept, hfrom⟩
  · refine hdone.imp id ?_
    intro hfull
    -- without congestion control the window is the smaller of the two ends'
    unfold IKCPCB.WindowFull sendWindow
    unfold sendWindow at hfull
    dsimp only
    rw [hframe.cfg, hframe.sndUna, hframe.rmtWnd, if_pos hnocwnd]
    rwa [if_pos hnocwnd] at hfull
  · intro i seg hseg
    obtain ⟨group, hgroup, seg', hmem, hsame⟩ := hput _ (hstamped i seg hseg) rfl
    refine ⟨group, ?_, seg', hmem, hsame⟩
    rw [hsent]
    exact List.mem_map_of_mem hgroup

/-- A segment in the buffer was there already, or has just been numbered. -/
theorem copyOf_afterMove {kcp : IKCPCB} {moved now : List IKCPSEG} {seg : IKCPSEG}
    (hnxt : kcp.sndNxt = BitVec.ofNat 32 moved.length)
    (hbuf : ∀ seg ∈ kcp.sndBuf, CopyOf kcp.conv moved seg)
    (hfrom : seg ∈ kcp.sndBuf ∨ ∃ i x, now[i]? = some x ∧
      seg = stampSegment kcp (kcp.sndNxt + BitVec.ofNat 32 i) x) :
    CopyOf kcp.conv (moved ++ now) seg := by
  rcases hfrom with hold | ⟨i, x, hx, rfl⟩
  · exact (hbuf seg hold).append now
  · refine ⟨moved.length + i, x, ?_, rfl, rfl, rfl, ?_, rfl⟩
    · rw [List.getElem?_append_right (Nat.le_add_right _ _), Nat.add_sub_cancel_left, hx]
    · change kcp.sndNxt + BitVec.ofNat 32 i = BitVec.ofNat 32 (moved.length + i)
      rw [hnxt, BitVec.ofNat_add]

/-- A flush keeps the account of what was sent. -/
theorem SendInv.ikcpFlush {kcp : IKCPCB} {accepted datagrams : List (List Byte)}
    (h : SendInv kcp accepted datagrams) (hupd : kcp.updated = true) :
    SendInv (Kcp.ikcpFlush kcp).1 accepted (datagrams ++ (Kcp.ikcpFlush kcp).2) := by
  have hnocwnd : kcp.cfg.nocwnd = true := by
    rw [h.cfg]
    rfl
  obtain ⟨hframe, -, now, hqueue, hnxt', hput, hkept, hfrom⟩ := ikcpFlush_spec hupd hnocwnd
  have hconv : (Kcp.ikcpFlush kcp).1.conv = kcp.conv := congrArg IKCPCFG.conv hframe.cfg
  obtain ⟨moved, hsplit, hnxt, hcarried, hbuf⟩ := h.moved
  refine ⟨?_, moved ++ now, ?_, ?_, ?_, ?_⟩
  · rw [hframe.cfg, hconv]
    exact h.cfg
  · rw [hconv, hsplit, List.append_assoc, ← hqueue]
  · rw [hnxt', hnxt, List.length_append, BitVec.ofNat_add]
  · rw [hconv]
    intro i seg hseg
    -- sent by an earlier flush, or by this one
    rcases Nat.lt_or_ge i moved.length with hold | hnew
    · rw [List.getElem?_append_left hold] at hseg
      exact (hcarried i seg hseg).mono
    · rw [List.getElem?_append_right hnew] at hseg
      obtain ⟨group, hgroup, seg', hmem, hcontent⟩ := hput _ seg hseg
      obtain ⟨hc, hcmd, hfrg, hsn, hdata⟩ := hcontent
      refine ⟨group, List.mem_append_right _ hgroup, seg', hmem, hc, hcmd, hfrg, ?_, hdata⟩
      refine hsn.trans ?_
      change kcp.sndNxt + BitVec.ofNat 32 (i - moved.length) = BitVec.ofNat 32 i
      rw [hnxt, ← BitVec.ofNat_add, Nat.add_sub_cancel' hnew]
  · rw [hconv]
    intro seg' hin
    obtain ⟨seg, hseg, hsame⟩ := hkept seg' hin
    exact (copyOf_afterMove hnxt hbuf (hfrom seg hseg)).sameContent hsame

/-- A fragment has at most `mss` bytes. -/
theorem fragment_data_length (cfg : IKCPCFG) (n : Nat) (buffer : List Byte) :
    ∀ seg ∈ fragment cfg n buffer, seg.data.length ≤ cfg.mss := by
  induction n generalizing buffer with
  | zero => exact fun _ hin => absurd hin List.not_mem_nil
  | succ n ih =>
      intro seg hin
      rcases List.mem_cons.mp hin with rfl | hrest
      · exact List.length_take_le ..
      · exact ih _ seg hrest

theorem CopyOf.data_length {conv : IUINT32} {accepted : List (List Byte)} {seg : IKCPSEG}
    (h : CopyOf conv (fragmentsOf conv accepted) seg) : seg.data.length ≤ 1376 := by
  obtain ⟨i, frag, hfrag, -, -, -, -, hdata⟩ := h
  obtain ⟨msg, -, hin⟩ := List.mem_flatMap.mp (List.mem_of_getElem? hfrag)
  rw [hdata]
  exact fragment_data_length _ _ _ frag hin

/-- **What a flush puts on the wire**: acknowledgements, probes and copies of
    accepted fragments, each under the number of its place. -/
theorem SendInv.flush_contents {kcp : IKCPCB} {accepted datagrams : List (List Byte)}
    (h : SendInv kcp accepted datagrams) {datagram : List Byte}
    (hin : datagram ∈ (Kcp.ikcpFlush kcp).2) :
    datagram.length ≤ 1400 ∧ ∃ group, datagram = wireAll group ∧
      ∀ seg ∈ group, seg.Signal kcp.conv ∨
        CopyOf kcp.conv (fragmentsOf kcp.conv accepted) seg := by
  have hupd : kcp.updated = true := by
    by_contra hnot
    rw [Kcp.ikcpFlush, if_pos (by simpa using hnot)] at hin
    cases hin
  obtain ⟨moved, hsplit, hnxt, -, hbuf⟩ := h.moved
  obtain ⟨-, now, hqueue, -, -, hfrom, -⟩ := afterMove_spec kcp
  have hcopy : ∀ seg ∈ (afterMove kcp).sndBuf,
      CopyOf kcp.conv (fragmentsOf kcp.conv accepted) seg := by
    intro seg hseg
    rw [hsplit, hqueue, ← List.append_assoc]
    exact (copyOf_afterMove hnxt hbuf (hfrom seg hseg)).append _
  obtain ⟨groups, hsent, -, hgroups, -⟩ := dataLoop_spec kcp
  rw [ikcpFlush_eq hupd] at hin
  constructor
  · have hmtu : kcp.cfg.mtu = 1400 := by
      rw [h.cfg]
      rfl
    rw [← hmtu]
    refine dataLoop_within (by omega) ?_ datagram hin
    intro seg hseg
    have hdata := (hcopy seg hseg).data_length
    omega
  · rw [hsent] at hin
    obtain ⟨group, hgroup, rfl⟩ := List.mem_map.mp hin
    refine ⟨group, rfl, ?_⟩
    intro seg' hmem
    refine (hgroups group hgroup seg' hmem).imp id ?_
    rintro ⟨seg, hseg, hsame⟩
    exact (hcopy seg hseg).sameContent hsame

/-! ## The schedule -/

/-- An object that has been updated at all flushes again within ten milliseconds
    of the update at `last`. -/
def Paced (last : Option IUINT32) (kcp : IKCPCB) : Prop :=
  kcp.updated = true → ∃ t, last = some t ∧ 1 ≤ offset t kcp.tsFlush ∧ offset t kcp.tsFlush ≤ 10

/-- The clock does not run backwards. -/
def notBefore (last : Option IUINT32) (clock : IUINT32) : Bool :=
  last.all (fun t => 0 ≤ itimediff clock t)

/-- At least one interval has passed. -/
def intervalPassed (last : Option IUINT32) (clock : IUINT32) : Bool :=
  last.all (fun t => 10 ≤ itimediff clock t)

/-- A clock that has not gone back is less than half its range ahead. -/
theorem offset_of_itimediff_nonneg {clock t : IUINT32} (h : 0 ≤ itimediff clock t) :
    2 * offset t clock < 2 ^ 32 ∧ itimediff clock t = offset t clock := by
  have hlt : 2 * offset t clock < 2 ^ 32 := by
    by_contra hge
    exact absurd h (not_le.mpr (toInt_sub_base_neg hge))
  exact ⟨hlt, toInt_sub_base hlt⟩

/-- The schedule in milliseconds from the last update: `due` for the flush, `now`
    for the clock. -/
theorem itimediff_from {t clock due : IUINT32} (hclock : 2 * offset t clock < 2 ^ 32)
    (hdue : 2 * offset t due < 2 ^ 32) :
    itimediff clock due = (offset t clock : Int) - (offset t due : Int) :=
  toInt_sub_eq hclock hdue

/-- `due` comes `n` behind the clock. -/
theorem offset_from {t clock due : IUINT32} {n : Nat} (hn : n < 2 ^ 32)
    (hdue : offset t due = offset t clock + n) : offset clock due = n := by
  have hx : due = clock + BitVec.ofNat 32 n := by
    rw [← add_offset t due, hdue, BitVec.ofNat_add, ← add_assoc, add_offset]
  rw [hx, offset_add clock hn]

/-- The flush after one that was `due` at most ten milliseconds past the last
    update comes at most ten milliseconds past this one. -/
theorem nextFlush_near {t clock due : IUINT32} (hclock : 2 * offset t clock < 2 ^ 32)
    (hlate : offset t due ≤ 10) (htime : offset t due ≤ offset t clock) :
    1 ≤ offset clock (nextFlush 10 clock due) ∧ offset clock (nextFlush 10 clock due) ≤ 10 := by
  have hten : offset clock (clock + 10) = 10 := offset_add clock (n := 10) (by decide)
  have hdue : 2 * offset t due < 2 ^ 32 := by omega
  have hbehind : offset t (due + 10) = offset t due + 10 := by
    have hx : due + 10 = t + BitVec.ofNat 32 (offset t due + 10) := by
      rw [BitVec.ofNat_add, ← add_assoc, add_offset]
      rfl
    rw [hx, offset_add t (by omega)]
  have hdue' : 2 * offset t (due + 10) < 2 ^ 32 := by omega
  unfold nextFlush
  dsimp only
  rw [itimediff_from hclock hdue]
  split_ifs with hjump hreset hpast
  · omega
  · omega
  · omega
  · -- the old schedule goes on
    rw [itimediff_from hclock hdue'] at hpast
    have hoff := @offset_from t clock (due + 10) (offset t due + 10 - offset t clock) (by omega)
      (by omega)
    omega

theorem Paced.frame {last : Option IUINT32} {kcp kcp' : IKCPCB} (h : Paced last kcp)
    (hframe : SndFrame kcp kcp') : Paced last kcp' := by
  unfold Paced
  rw [hframe.updated, hframe.tsFlush]
  exact h

/-- An update that flushes. -/
theorem flush_paced {kcp : IKCPCB} {clock ts : IUINT32} (hnocwnd : kcp.cfg.nocwnd = true)
    (hnear : 1 ≤ offset clock ts ∧ offset clock ts ≤ 10) :
    Paced (some clock)
        (ikcpFlush { kcp with current := clock, updated := true, tsFlush := ts }).1 ∧
      (ikcpFlush { kcp with current := clock, updated := true, tsFlush := ts }).1.QueueSent := by
  obtain ⟨hframe, hsent, -⟩ := @ikcpFlush_spec
    { kcp with current := clock, updated := true, tsFlush := ts } rfl hnocwnd
  refine ⟨fun _ => ⟨clock, rfl, ?_⟩, hsent⟩
  rw [hframe.tsFlush]
  exact hnear

/-- The clock and the schedule do not enter the account. -/
theorem SendInv.start {kcp : IKCPCB} {accepted datagrams : List (List Byte)}
    (h : SendInv kcp accepted datagrams) (clock ts : IUINT32) :
    SendInv { kcp with current := clock, updated := true, tsFlush := ts } accepted datagrams :=
  h.congr rfl rfl rfl (.of_subset (fun _ hin => hin))

/-- An update keeps the account. -/
theorem SendInv.ikcpUpdate {kcp : IKCPCB} {accepted datagrams : List (List Byte)}
    (h : SendInv kcp accepted datagrams) (clock : IUINT32) :
    SendInv (Kcp.ikcpUpdate kcp clock).1 accepted (datagrams ++ (Kcp.ikcpUpdate kcp clock).2) := by
  rw [ikcpUpdate_eq]
  split_ifs
  · rw [List.append_nil]
    exact h.start clock _
  · exact (h.start clock _).ikcpFlush rfl

/-- What an update puts on the wire. -/
theorem SendInv.update_contents {kcp : IKCPCB} {accepted datagrams : List (List Byte)}
    (h : SendInv kcp accepted datagrams) {clock : IUINT32} {datagram : List Byte}
    (hin : datagram ∈ (Kcp.ikcpUpdate kcp clock).2) :
    datagram.length ≤ 1400 ∧ ∃ group, datagram = wireAll group ∧
      ∀ seg ∈ group, seg.Signal kcp.conv ∨
        CopyOf kcp.conv (fragmentsOf kcp.conv accepted) seg := by
  rw [ikcpUpdate_eq] at hin
  split_ifs at hin
  · cases hin
  · exact (h.start clock _).flush_contents hin

/-- **An update keeps the pace**, and once an interval has passed only the window
    holds a segment back. -/
theorem Paced.ikcpUpdate {last : Option IUINT32} {kcp : IKCPCB} (hp : Paced last kcp)
    (hcfg : kcp.cfg = tunnelCfg kcp.conv) {clock : IUINT32} (hclock : notBefore last clock) :
    Paced (some clock) (Kcp.ikcpUpdate kcp clock).1 ∧
      (intervalPassed last clock ∨ kcp.QueueSent → (Kcp.ikcpUpdate kcp clock).1.QueueSent) := by
  have hnocwnd : kcp.cfg.nocwnd = true := by
    rw [hcfg]
    rfl
  have hinterval : kcp.cfg.interval = 10 := by
    rw [hcfg]
    rfl
  rw [ikcpUpdate_eq, hinterval]
  cases hupd : kcp.updated with
  | false =>
      -- the first update: it is time at once
      have hsched : scheduled kcp clock = clock := by
        rw [scheduled, hupd]
        rfl
      have hzero : itimediff clock clock = 0 := by
        rw [itimediff, sub_self]
        rfl
      rw [hsched, hzero, if_neg (by decide)]
      have hself : offset clock clock = 0 := offset_eq_zero_iff.mpr rfl
      obtain ⟨hpace, hsent⟩ := @flush_paced kcp clock (nextFlush 10 clock clock) hnocwnd
        (nextFlush_near (t := clock) (by omega) (by omega) le_rfl)
      exact ⟨hpace, fun _ => hsent⟩
  | true =>
      obtain ⟨t, rfl, hlow, hhigh⟩ := hp hupd
      have hsched : scheduled kcp clock = kcp.tsFlush := by
        rw [scheduled, hupd]
        rfl
      have hforward : 0 ≤ itimediff clock t := by simpa [notBefore] using hclock
      obtain ⟨hhalf, hdiff⟩ := offset_of_itimediff_nonneg hforward
      have hslap := itimediff_from hhalf (show 2 * offset t kcp.tsFlush < 2 ^ 32 by omega)
      rw [hsched, hslap]
      by_cases hwait : offset t clock < offset t kcp.tsFlush
      · -- not yet
        rw [if_pos (by omega)]
        refine ⟨?_, ?_⟩
        · intro _
          have hoff := @offset_from t clock kcp.tsFlush
            (offset t kcp.tsFlush - offset t clock) (by omega) (by omega)
          refine ⟨clock, rfl, ?_⟩
          dsimp only
          omega
        · rintro (hpassed | hsent)
          · have hten : 10 ≤ itimediff clock t := by simpa [intervalPassed] using hpassed
            omega
          · exact hsent
      · rw [if_neg (by omega)]
        obtain ⟨hpace, hsent⟩ := @flush_paced kcp clock (nextFlush 10 clock kcp.tsFlush) hnocwnd
          (nextFlush_near hhalf hhigh (by omega))
        exact ⟨hpace, fun _ => hsent⟩

/-- Right after an update nothing is due. -/
theorem notBefore_self (clock : IUINT32) : notBefore (some clock) clock := by
  have hzero : itimediff clock clock = 0 := by
    rw [itimediff, sub_self]
    rfl
  simp [notBefore, hzero]

/-! ## An object nobody updates -/

/-- An object that has never been updated: all it accepted is in its queue. -/
structure Silent (kcp : IKCPCB) (accepted : List (List Byte)) : Prop where
  cfg : kcp.cfg = tunnelCfg kcp.conv
  updated : kcp.updated = false
  idle : kcp.sndBuf = [] ∧ kcp.sndUna = kcp.sndNxt
  queue : kcp.sndQueue = fragmentsOf kcp.conv accepted

theorem silent_freshKcp (conv : IUINT32) : Silent (freshKcp conv) [] where
  cfg := freshKcp_cfg conv
  updated := rfl
  idle := ⟨rfl, rfl⟩
  queue := rfl

theorem Silent.frame {kcp kcp' : IKCPCB} {accepted : List (List Byte)} (h : Silent kcp accepted)
    (hframe : SndFrame kcp kcp') : Silent kcp' accepted := by
  have hconv : kcp'.conv = kcp.conv := congrArg IKCPCFG.conv hframe.cfg
  refine ⟨?_, ?_, hframe.idle h.idle, ?_⟩
  · rw [hframe.cfg, hconv]
    exact h.cfg
  · rw [hframe.updated]
    exact h.updated
  · rw [hframe.sndQueue, hconv]
    exact h.queue

theorem Silent.ikcpSend {kcp : IKCPCB} {accepted : List (List Byte)} (h : Silent kcp accepted)
    {msg : List Byte} (hlen : msg.length ≤ 131071) :
    Silent (Kcp.ikcpSend kcp msg).2 (accepted ++ [msg]) := by
  rw [ikcpSend_sndQueue h.cfg (ikcpSend_accepts h.cfg hlen)]
  refine ⟨h.cfg, h.updated, h.idle, ?_⟩
  change kcp.sndQueue ++ fragmentsOf kcp.conv [msg] = fragmentsOf kcp.conv (accepted ++ [msg])
  rw [fragmentsOf_append, h.queue]

theorem fragmentsOf_eq_nil_iff (conv : IUINT32) (accepted : List (List Byte)) :
    fragmentsOf conv accepted = [] ↔ accepted = [] := by
  constructor
  · intro hnil
    cases accepted with
    | nil => rfl
    | cons msg rest =>
        -- every message has at least one fragment
        have hcount : 1 ≤ fragmentCount (tunnelCfg conv) msg.length := by
          change 1 ≤ if msg.length ≤ 1376 then 1 else (msg.length + 1376 - 1) / 1376
          split_ifs <;> omega
        obtain ⟨n, hn⟩ := Nat.exists_eq_add_of_le' hcount
        rw [fragmentsOf, List.flatMap_cons, hn] at hnil
        cases hnil
  · rintro rfl
    rfl

/-- With everything acknowledged the window is full exactly if the peer
    advertises none. -/
theorem windowFull_idle_iff {kcp : IKCPCB} (hcfg : kcp.cfg = tunnelCfg kcp.conv)
    (hidle : kcp.sndUna = kcp.sndNxt) : kcp.WindowFull ↔ kcp.rmtWnd = 0 := by
  have hwindow : sendWindow kcp = imin 32 kcp.rmtWnd := by
    rw [sendWindow, hcfg]
    rfl
  have hsmall : (imin 32 kcp.rmtWnd).toNat ≤ 32 := by
    unfold imin
    split_ifs with hle
    · decide
    · have hlt : kcp.rmtWnd < 32 := BitVec.not_le.mp hle
      exact Nat.le_of_lt (BitVec.lt_def.mp hlt)
  have hself : offset kcp.sndNxt kcp.sndNxt = 0 := offset_eq_zero_iff.mpr rfl
  have hend : offset kcp.sndNxt (kcp.sndNxt + imin 32 kcp.rmtWnd) =
      (imin 32 kcp.rmtWnd).toNat := by
    rw [offset, add_sub_cancel_left]
  have hdiff := @itimediff_from kcp.sndNxt kcp.sndNxt (kcp.sndNxt + imin 32 kcp.rmtWnd)
    (by omega) (by omega)
  rw [IKCPCB.WindowFull, hidle, hwindow, hdiff, hself, hend]
  constructor
  · intro hle
    have hzero : imin 32 kcp.rmtWnd = 0 := BitVec.eq_of_toNat_eq (show _ = 0 by omega)
    unfold imin at hzero
    split_ifs at hzero with hle
    · exact absurd hzero (by decide)
    · exact hzero
  · intro hzero
    rw [hzero]
    decide

/-- **Nothing goes out of an object nobody updates.** -/
theorem Silent.transmitted_iff {kcp : IKCPCB} {accepted : List (List Byte)}
    (h : Silent kcp accepted) (datagrams : List (List Byte)) :
    Transmitted kcp accepted datagrams ↔ accepted = [] ∨ kcp.rmtWnd = 0 := by
  have hsent : kcp.QueueSent ↔ accepted = [] ∨ kcp.rmtWnd = 0 := by
    rw [IKCPCB.QueueSent, h.queue, fragmentsOf_eq_nil_iff, windowFull_idle_iff h.cfg h.idle.2]
  rw [← hsent]
  constructor
  · rintro ⟨moved, -, -, hdone⟩
    exact hdone
  · intro hdone
    refine ⟨[], ?_, ?_, hdone⟩
    · rw [h.queue, List.nil_append]
    · intro i seg hseg
      cases hseg

end Kcp
end UdpSpeed
