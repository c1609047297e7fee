/-
  UdpSpeed.Kcp.Input

  `ikcp_input`: the segment loop over one datagram, with the acknowledgement
  handling it calls (`ikcp_update_ack`, `ikcp_shrink_buf`, `ikcp_parse_ack`,
  `ikcp_parse_una`, `ikcp_parse_fastack`, `ikcp_ack_push`).

  A datagram may fail in a later segment: the segments before it have then
  already been processed, and the return code is negative.
-/

import UdpSpeed.Kcp.Receive

namespace UdpSpeed
namespace Kcp

/-! ## Acknowledgements -/

/-- `ikcp_update_ack`.  The round-trip fields are `IINT32`; the products and
    the quotients follow the C conversions (`int` products, `long` sums,
    division rounding towards zero). -/
def ikcpUpdateAck (kcp : IKCPCB) (rtt : IUINT32) : IKCPCB :=
  let kcp :=
    if kcp.rxSrtt = 0 then
      { kcp with rxSrtt := rtt, rxRttval := BitVec.ofInt 32 (rtt.toInt.tdiv 2) }
    else
      -- the usual smoothed estimate, in 32-bit arithmetic
      let delta : Int := ((rtt - kcp.rxSrtt).toInt.natAbs : Int)
      let rttval := BitVec.ofInt 32 (((3 * kcp.rxRttval).toInt + delta).tdiv 4)
      let srtt := BitVec.ofInt 32 ((7 * kcp.rxSrtt + rtt).toInt.tdiv 8)
      { kcp with rxRttval := rttval, rxSrtt := if srtt.toInt < 1 then 1 else srtt }
  let rto := kcp.rxSrtt + imax kcp.cfg.interval (4 * kcp.rxRttval)
  { kcp with rxRto := ibound kcp.cfg.rxMinrto rto ikcpRtoMax }

/-- `ikcp_shrink_buf`. -/
def ikcpShrinkBuf (kcp : IKCPCB) : IKCPCB :=
  match kcp.sndBuf with
  | seg :: _ => { kcp with sndUna := seg.sn }
  | [] => { kcp with sndUna := kcp.sndNxt }

/-- The loop of `ikcp_parse_ack`: drop the acknowledged segment, stop past its
    place. -/
def dropAcked (sn : IUINT32) : List IKCPSEG → List IKCPSEG
  | [] => []
  | seg :: rest =>
      if sn = seg.sn then rest
      else if itimediff sn seg.sn < 0 then seg :: rest
      else seg :: dropAcked sn rest

/-- `ikcp_parse_ack`. -/
def ikcpParseAck (kcp : IKCPCB) (sn : IUINT32) : IKCPCB :=
  if itimediff sn kcp.sndUna < 0 ∨ 0 ≤ itimediff sn kcp.sndNxt then kcp
  else { kcp with sndBuf := dropAcked sn kcp.sndBuf }

/-- `ikcp_parse_una`. -/
def ikcpParseUna (kcp : IKCPCB) (una : IUINT32) : IKCPCB :=
  { kcp with sndBuf := kcp.sndBuf.dropWhile (fun seg => decide (0 < itimediff una seg.sn)) }

/-- The loop of `ikcp_parse_fastack`. -/
def bumpFastack (sn : IUINT32) : List IKCPSEG → List IKCPSEG
  | [] => []
  | seg :: rest =>
      if itimediff sn seg.sn < 0 then seg :: rest
      else if sn ≠ seg.sn then
        { seg with fastack := seg.fastack + 1 } :: bumpFastack sn rest
      else seg :: bumpFastack sn rest

/-- `ikcp_parse_fastack`. -/
def ikcpParseFastack (kcp : IKCPCB) (sn : IUINT32) : IKCPCB :=
  if itimediff sn kcp.sndUna < 0 ∨ 0 ≤ itimediff sn kcp.sndNxt then kcp
  else { kcp with sndBuf := bumpFastack sn kcp.sndBuf }

/-- `ikcp_ack_push`. -/
def ikcpAckPush (kcp : IKCPCB) (sn ts : IUINT32) : IKCPCB :=
  { kcp with acklist := kcp.acklist ++ [(sn, ts)] }

/-! ## One segment -/

/-- The four commands `ikcp_input` accepts. -/
def validCmd (cmd : Byte) : Bool :=
  cmd = ikcpCmdPush || cmd = ikcpCmdAck || cmd = ikcpCmdWask || cmd = ikcpCmdWins

/-- The PUSH branch of `ikcp_input`. -/
def inputPush (kcp : IKCPCB) (h : SegHeader) (payload : List Byte) : IKCPCB :=
  if itimediff h.sn (kcp.rcvNxt + kcp.cfg.rcvWnd) < 0 then
    -- acknowledged even when it is a duplicate, so that the peer stops resending
    let kcp := ikcpAckPush kcp h.sn h.ts
    if 0 ≤ itimediff h.sn kcp.rcvNxt then
      ikcpParseData kcp
        { conv := h.conv, cmd := h.cmd, frg := h.frg, wnd := h.wnd.setWidth 32, ts := h.ts,
          sn := h.sn, una := h.una, data := payload }
    else kcp
  else kcp

/-- The ACK branch of `ikcp_input`. -/
def inputAck (kcp : IKCPCB) (h : SegHeader) : IKCPCB :=
  let kcp :=
    if 0 ≤ itimediff kcp.current h.ts then ikcpUpdateAck kcp (kcp.current - h.ts) else kcp
  ikcpShrinkBuf (ikcpParseAck kcp h.sn)

/-- `flag`/`maxack` of `ikcp_input`: `none` is `flag == 0`. -/
def nextMaxack (maxack : Option IUINT32) (sn : IUINT32) : Option IUINT32 :=
  match maxack with
  | none => some sn
  | some m => if 0 < itimediff sn m then some sn else some m

/-- The body of the segment loop once the header has passed its checks. -/
def inputSegment (kcp : IKCPCB) (maxack : Option IUINT32) (h : SegHeader)
    (payload : List Byte) : IKCPCB × Option IUINT32 :=
  -- every command carries the peer's window and its `una`
  let kcp := { kcp with rmtWnd := h.wnd.setWidth 32 }
  let kcp := ikcpShrinkBuf (ikcpParseUna kcp h.una)
  if h.cmd = ikcpCmdAck then (inputAck kcp h, nextMaxack maxack h.sn)
  else if h.cmd = ikcpCmdPush then (inputPush kcp h payload, maxack)
  else if h.cmd = ikcpCmdWask then ({ kcp with probe := kcp.probe ||| ikcpAskTell }, maxack)
  -- `IKCP_CMD_WINS`: the window has been read above
  else (kcp, maxack)

/-! ## The datagram -/

/-- The `while (1)` loop of `ikcp_input`: return code, object, `maxack`.  Every
    turn consumes a header, so `fuel = data.length` is never used up
    (`inputLoop_fuel`). -/
def inputLoop : Nat → IKCPCB → Option IUINT32 → List Byte → Int × IKCPCB × Option IUINT32
  | 0, kcp, maxack, _ => (0, kcp, maxack)
  | fuel + 1, kcp, maxack, data =>
      if data.length < ikcpOverhead then (0, kcp, maxack)
      else
        let h := decodeHeader data
        let body := data.drop ikcpOverhead
        -- the segments before this one have been processed already
        if h.conv ≠ kcp.conv then (-1, kcp, maxack)
        else if body.length < h.len.toNat ∨ h.len.toInt < 0 then (-2, kcp, maxack)
        else if !validCmd h.cmd then (-3, kcp, maxack)
        else
          let (kcp, maxack) := inputSegment kcp maxack h (body.take h.len.toNat)
          inputLoop fuel kcp maxack (body.drop h.len.toNat)

/-- Fuel beyond the length of the datagram changes nothing: the loop has come to
    its own end by then. -/
theorem inputLoop_fuel {fuel fuel' : Nat} {data : List Byte} (hle : data.length ≤ fuel)
    (hle' : data.length ≤ fuel') (kcp : IKCPCB) (maxack : Option IUINT32) :
    inputLoop fuel kcp maxack data = inputLoop fuel' kcp maxack data := by
  induction fuel generalizing fuel' kcp maxack data with
  | zero =>
      obtain rfl := List.eq_nil_of_length_eq_zero (Nat.le_zero.mp hle)
      cases fuel' <;> rfl
  | succ fuel ih =>
      cases fuel' with
      | zero =>
          obtain rfl := List.eq_nil_of_length_eq_zero (Nat.le_zero.mp hle')
          rfl
      | succ fuel' =>
          unfold inputLoop
          by_cases hshort : data.length < ikcpOverhead
          · rw [if_pos hshort, if_pos hshort]
          rw [if_neg hshort, if_neg hshort]
          -- a turn takes the 24 bytes of a header
          have hover : ikcpOverhead = 24 := rfl
          dsimp only
          split_ifs
          · rfl
          · rfl
          · rfl
          · refine ih ?_ ?_ _ _ <;>
              (rw [List.length_drop, List.length_drop]; omega)

/-- The congestion-window update at the end of `ikcp_input`; `una` is
    `snd_una` as it was on entry. -/
def growCwnd (kcp : IKCPCB) (una : IUINT32) : IKCPCB :=
  if 0 < itimediff kcp.sndUna una ∧ kcp.cwnd < kcp.rmtWnd then
    let mss : IUINT32 := BitVec.ofNat 32 kcp.cfg.mss
    let kcp : IKCPCB :=
      if kcp.cwnd < kcp.ssthresh then
        -- slow start
        { kcp with cwnd := kcp.cwnd + 1, incr := kcp.incr + mss }
      else
        -- congestion avoidance: about one segment for each window of bytes
        let incr := if kcp.incr < mss then mss else kcp.incr
        let incr := incr + ((mss * mss) / incr + mss / 16)
        { kcp with
          incr := incr
          cwnd := if (kcp.cwnd + 1) * mss ≤ incr then kcp.cwnd + 1 else kcp.cwnd }
    if kcp.rmtWnd < kcp.cwnd then
      { kcp with cwnd := kcp.rmtWnd, incr := kcp.rmtWnd * mss }
    else kcp
  else kcp

/-- `if (flag != 0) ikcp_parse_fastack(kcp, maxack)`. -/
def parseMaxack (kcp : IKCPCB) : Option IUINT32 → IKCPCB
  | none => kcp
  | some maxack => ikcpParseFastack kcp maxack

/-- `ikcp_input`: the return code and the object afterwards. -/
def ikcpInput (kcp : IKCPCB) (data : List Byte) : Int × IKCPCB :=
  if data.length < ikcpOverhead then (-1, kcp)
  else
    let r := inputLoop data.length kcp none data
    -- an early return: no fast acknowledgement, no window update
    if r.1 < 0 then (r.1, r.2.1) else (0, growCwnd (parseMaxack r.2.1 r.2.2) kcp.sndUna)

/-! ## What all of the input keeps -/

/-- A relation between an object and a later one that holds across each part of
    `ikcp_input`. -/
structure InputFrame (R : IKCPCB → IKCPCB → Prop) : Prop where
  refl : ∀ kcp, R kcp kcp
  trans : ∀ {kcp kcp₁ kcp₂}, R kcp kcp₁ → R kcp₁ kcp₂ → R kcp kcp₂
  segment : ∀ kcp maxack h payload, R kcp (inputSegment kcp maxack h payload).1
  maxack : ∀ kcp maxack, R kcp (parseMaxack kcp maxack)
  cwnd : ∀ kcp una, R kcp (growCwnd kcp una)

/-- By induction along the segment loop. -/
theorem InputFrame.inputLoop {R : IKCPCB → IKCPCB → Prop} (hR : InputFrame R) (fuel : Nat)
    (kcp : IKCPCB) (maxack : Option IUINT32) (data : List Byte) :
    R kcp (Kcp.inputLoop fuel kcp maxack data).2.1 := by
  induction fuel generalizing kcp maxack data with
  | zero => exact hR.refl kcp
  | succ fuel ih =>
      unfold Kcp.inputLoop
      dsimp only
      split_ifs
      · exact hR.refl kcp
      · exact hR.refl kcp
      · exact hR.refl kcp
      · exact hR.refl kcp
      · exact hR.trans (hR.segment kcp maxack _ _) (ih _ _ _)

/-- **A relation that holds across each part holds across `ikcp_input`**, whether
    the datagram is accepted or not. -/
theorem InputFrame.ikcpInput {R : IKCPCB → IKCPCB → Prop} (hR : InputFrame R) (kcp : IKCPCB)
    (data : List Byte) : R kcp (Kcp.ikcpInput kcp data).2 := by
  have hloop := hR.inputLoop data.length kcp none data
  unfold Kcp.ikcpInput
  dsimp only
  split_ifs
  · exact hR.refl kcp
  · exact hloop
  · exact hR.trans hloop (hR.trans (hR.maxack _ _) (hR.cwnd _ kcp.sndUna))

/-! ## Configuration frame -/

@[simp] theorem ikcpUpdateAck_cfg (kcp : IKCPCB) (rtt : IUINT32) :
    (ikcpUpdateAck kcp rtt).cfg = kcp.cfg := by
  unfold ikcpUpdateAck
  dsimp only
  split_ifs <;> rfl

@[simp] theorem ikcpShrinkBuf_cfg (kcp : IKCPCB) : (ikcpShrinkBuf kcp).cfg = kcp.cfg := by
  unfold ikcpShrinkBuf
  split <;> rfl

@[simp] theorem ikcpParseAck_cfg (kcp : IKCPCB) (sn : IUINT32) :
    (ikcpParseAck kcp sn).cfg = kcp.cfg := by
  unfold ikcpParseAck
  split_ifs <;> rfl

@[simp] theorem ikcpParseUna_cfg (kcp : IKCPCB) (una : IUINT32) :
    (ikcpParseUna kcp una).cfg = kcp.cfg := rfl

@[simp] theorem ikcpParseFastack_cfg (kcp : IKCPCB) (sn : IUINT32) :
    (ikcpParseFastack kcp sn).cfg = kcp.cfg := by
  unfold ikcpParseFastack
  split_ifs <;> rfl

@[simp] theorem inputPush_cfg (kcp : IKCPCB) (h : SegHeader) (payload : List Byte) :
    (inputPush kcp h payload).cfg = kcp.cfg := by
  unfold inputPush
  dsimp only
  split_ifs
  · rw [ikcpParseData_cfg]; rfl
  · rfl
  · rfl

@[simp] theorem inputAck_cfg (kcp : IKCPCB) (h : SegHeader) : (inputAck kcp h).cfg = kcp.cfg := by
  unfold inputAck
  dsimp only
  split_ifs <;> simp

@[simp] theorem inputSegment_cfg (kcp : IKCPCB) (maxack : Option IUINT32) (h : SegHeader)
    (payload : List Byte) : (inputSegment kcp maxack h payload).1.cfg = kcp.cfg := by
  unfold inputSegment
  dsimp only
  split_ifs <;> simp

@[simp] theorem growCwnd_cfg (kcp : IKCPCB) (una : IUINT32) : (growCwnd kcp una).cfg = kcp.cfg := by
  unfold growCwnd
  dsimp only
  split_ifs <;> rfl

@[simp] theorem parseMaxack_cfg (kcp : IKCPCB) (maxack : Option IUINT32) :
    (parseMaxack kcp maxack).cfg = kcp.cfg := by
  cases maxack with
  | none => rfl
  | some maxack => exact ikcpParseFastack_cfg kcp maxack

theorem inputFrame_cfg : InputFrame (fun kcp kcp' => kcp'.cfg = kcp.cfg) where
  refl := fun _ => rfl
  trans := fun h h' => h'.trans h
  segment := inputSegment_cfg
  maxack := parseMaxack_cfg
  cwnd := growCwnd_cfg

@[simp] theorem ikcpInput_cfg (kcp : IKCPCB) (data : List Byte) :
    (ikcpInput kcp data).2.cfg = kcp.cfg := inputFrame_cfg.ikcpInput kcp data

end Kcp
end UdpSpeed
