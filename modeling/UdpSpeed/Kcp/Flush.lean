/-
  UdpSpeed.Kcp.Flush

  `ikcp_flush` and `ikcp_update`: acknowledgements, window probes, the move
  from `snd_queue` to `snd_buf`, first transmissions and retransmissions.
  Both return the object and the datagrams handed to the output callback, in
  order.
-/

import UdpSpeed.Kcp.ControlBlock

namespace UdpSpeed
namespace Kcp

/-! ## The output buffer -/

/-- `kcp->buffer` up to `ptr`, and the datagrams already handed to the output
    callback. -/
structure OutBuf where
  buf : List Byte := []
  sent : List (List Byte) := []
deriving DecidableEq, Repr, Inhabited

namespace OutBuf

/-- `ikcp_output(kcp, buffer, size); ptr = buffer`: an empty buffer is not
    sent. -/
def output (o : OutBuf) : OutBuf :=
  if o.buf = [] then o else { buf := [], sent := o.sent ++ [o.buf] }

/-- Append the `need` bytes of `piece`, flushing first when they do not fit
    the `mtu`. -/
def put (mtu : Nat) (o : OutBuf) (piece : List Byte) : OutBuf :=
  let o := if mtu < o.buf.length + piece.length then o.output else o
  { o with buf := o.buf ++ piece }

end OutBuf

/-! ## The stages of a flush -/

/-- `ikcp_wnd_unused`. -/
def ikcpWndUnused (kcp : IKCPCB) : IUINT32 :=
  if kcp.nrcvQue < kcp.cfg.rcvWnd.toNat then kcp.cfg.rcvWnd - BitVec.ofNat 32 kcp.nrcvQue
  else 0

/-- The header template `seg` of `ikcp_flush`. -/
def flushHeader (kcp : IKCPCB) (cmd : Byte) (sn ts : IUINT32) : IKCPSEG :=
  { conv := kcp.conv, cmd := cmd, wnd := ikcpWndUnused kcp, una := kcp.rcvNxt,
    sn := sn, ts := ts }

/-- "flush acknowledges". -/
def flushAcks (kcp : IKCPCB) : OutBuf :=
  kcp.acklist.foldl
    (fun o ack => o.put kcp.cfg.mtu (ikcpEncodeSeg (flushHeader kcp ikcpCmdAck ack.1 ack.2))) {}

/-- "probe window size (if remote window size equals zero)". -/
def probeWindow (kcp : IKCPCB) : IKCPCB :=
  if kcp.rmtWnd = 0 then
    if kcp.probeWait = 0 then
      { kcp with probeWait := ikcpProbeInit, tsProbe := kcp.current + ikcpProbeInit }
    else if 0 ≤ itimediff kcp.current kcp.tsProbe then
      -- the probe interval grows by half each time, up to two minutes
      let wait := if kcp.probeWait < ikcpProbeInit then ikcpProbeInit else kcp.probeWait
      let wait := wait + wait / 2
      let wait := if ikcpProbeLimit < wait then ikcpProbeLimit else wait
      { kcp with
        probeWait := wait, tsProbe := kcp.current + wait, probe := kcp.probe ||| ikcpAskSend }
    else kcp
  else { kcp with tsProbe := 0, probeWait := 0 }

/-- "flush window probing commands"; the template still carries the `sn` and
    `ts` of the last acknowledgement. -/
def flushProbes (kcp : IKCPCB) (o : OutBuf) : OutBuf :=
  let last := kcp.acklist.getLast?.getD (0, 0)
  let o :=
    if kcp.probe &&& ikcpAskSend ≠ 0 then
      o.put kcp.cfg.mtu (ikcpEncodeSeg (flushHeader kcp ikcpCmdWask last.1 last.2))
    else o
  if kcp.probe &&& ikcpAskTell ≠ 0 then
    o.put kcp.cfg.mtu (ikcpEncodeSeg (flushHeader kcp ikcpCmdWins last.1 last.2))
  else o

/-- "calculate window size". -/
def sendWindow (kcp : IKCPCB) : IUINT32 :=
  let cwnd := imin kcp.cfg.sndWnd kcp.rmtWnd
  if kcp.cfg.nocwnd then cwnd else imin kcp.cwnd cwnd

/-- "move data from snd_queue to snd_buf" while `snd_nxt` is inside the
    window; `stamp` fills in the header of a segment given its `sn`. -/
def moveToSndBuf (limit : IUINT32) (stamp : IUINT32 → IKCPSEG → IKCPSEG) :
    List IKCPSEG → List IKCPSEG → IUINT32 → List IKCPSEG × List IKCPSEG × IUINT32
  | [], buf, nxt => ([], buf, nxt)
  | seg :: rest, buf, nxt =>
      if itimediff nxt limit < 0 then
        moveToSndBuf limit stamp rest (buf ++ [stamp nxt seg]) (nxt + 1)
      else (seg :: rest, buf, nxt)

/-- The header a segment gets when it enters `snd_buf`. -/
def stampSegment (kcp : IKCPCB) (sn : IUINT32) (seg : IKCPSEG) : IKCPSEG :=
  { seg with
    conv := kcp.conv, cmd := ikcpCmdPush, wnd := ikcpWndUnused kcp, ts := kcp.current,
    sn := sn, una := kcp.rcvNxt, resendts := kcp.current, rto := kcp.rxRto,
    fastack := 0, xmit := 0 }

/-- What the "flush data segments" loop carries besides the segments. -/
structure FlushState where
  out : OutBuf
  xmit : IUINT32
  state : IUINT32
  change : Bool := false
  lost : Bool := false
deriving DecidableEq, Repr, Inhabited

/-- The transmission decision for one segment of `snd_buf`: the segment with
    its timers updated if it has to be sent, and the loop's bookkeeping. -/
def scheduleSegment (kcp : IKCPCB) (st : FlushState) (segment : IKCPSEG) :
    FlushState × Option IKCPSEG :=
  let resent : IUINT32 := if 0 < kcp.cfg.fastresend then kcp.cfg.fastresend else 0xffffffff
  let rtomin : IUINT32 := if kcp.cfg.nodelay = 0 then kcp.rxRto.sshiftRight 3 else 0
  if segment.xmit = 0 then
    -- first transmission
    (st, some { segment with
      xmit := segment.xmit + 1, rto := kcp.rxRto,
      resendts := kcp.current + kcp.rxRto + rtomin })
  else if 0 ≤ itimediff kcp.current segment.resendts then
    -- timeout: back off, and remember the loss for the window update
    let rto :=
      segment.rto + (if kcp.cfg.nodelay = 0 then kcp.rxRto else BitVec.sdiv kcp.rxRto 2)
    ({ st with xmit := st.xmit + 1, lost := true },
      some { segment with
        xmit := segment.xmit + 1, rto := rto, resendts := kcp.current + rto })
  else if resent ≤ segment.fastack then
    -- skipped by enough later acknowledgements: fast retransmission
    ({ st with change := true },
      some { segment with
        xmit := segment.xmit + 1, fastack := 0, resendts := kcp.current + segment.rto })
  else (st, none)

/-- One turn of the "flush data segments" loop. -/
def flushSegment (kcp : IKCPCB) (st : FlushState) (segment : IKCPSEG) : FlushState × IKCPSEG :=
  match scheduleSegment kcp st segment with
  | (st, none) => (st, segment)
  | (st, some segment) =>
      let segment :=
        { segment with ts := kcp.current, wnd := ikcpWndUnused kcp, una := kcp.rcvNxt }
      ({ st with
          out := st.out.put kcp.cfg.mtu (ikcpEncodeSeg segment ++ segment.data)
          -- nothing in either program reads `state`
          state := if kcp.cfg.deadLink ≤ segment.xmit then -1 else st.state },
        segment)

/-- The whole "flush data segments" loop. -/
def flushSegments (kcp : IKCPCB) (st : FlushState) : List IKCPSEG → FlushState × List IKCPSEG
  | [] => (st, [])
  | segment :: rest =>
      let (st, segment) := flushSegment kcp st segment
      let (st, rest) := flushSegments kcp st rest
      (st, segment :: rest)

/-- "update ssthresh" and the two window resets at the end of a flush; `cwnd`
    is the window the flush worked with. -/
def updateSsthresh (kcp : IKCPCB) (st : FlushState) (cwnd : IUINT32) : IKCPCB :=
  let mss : IUINT32 := BitVec.ofNat 32 kcp.cfg.mss
  let resent : IUINT32 := if 0 < kcp.cfg.fastresend then kcp.cfg.fastresend else 0xffffffff
  let kcp : IKCPCB :=
    if st.change then
      let half := (kcp.sndNxt - kcp.sndUna) / 2
      let ssthresh := if half < ikcpThreshMin then ikcpThreshMin else half
      { kcp with
        ssthresh := ssthresh, cwnd := ssthresh + resent, incr := (ssthresh + resent) * mss }
    else kcp
  let kcp : IKCPCB :=
    if st.lost then
      let half := cwnd / 2
      { kcp with
        ssthresh := if half < ikcpThreshMin then ikcpThreshMin else half
        cwnd := 1
        incr := mss }
    else kcp
  if kcp.cwnd < 1 then { kcp with cwnd := 1, incr := mss } else kcp

/-! ## `ikcp_flush` and `ikcp_update` -/

/-- `ikcp_flush`: nothing happens before the first `ikcp_update`. -/
def ikcpFlush (kcp : IKCPCB) : IKCPCB × List (List Byte) :=
  if !kcp.updated then (kcp, [])
  else
    -- acknowledgements and probes go out with the window as it is now
    let acks := flushAcks kcp
    let kcp := probeWindow kcp
    let probes := flushProbes kcp acks
    let kcp := { kcp with acklist := [], probe := 0 }
    let cwnd := sendWindow kcp
    -- new segments enter `snd_buf` first, then the whole of it is scanned
    let (queue, buf, nxt) :=
      moveToSndBuf (kcp.sndUna + cwnd) (stampSegment kcp) kcp.sndQueue kcp.sndBuf kcp.sndNxt
    let kcp := { kcp with sndQueue := queue, sndBuf := buf, sndNxt := nxt }
    let (st, buf) :=
      flushSegments kcp { out := probes, xmit := kcp.xmit, state := kcp.state } kcp.sndBuf
    let kcp := { kcp with sndBuf := buf, xmit := st.xmit, state := st.state }
    -- what is left in the buffer is sent as the last datagram
    (updateSsthresh kcp st cwnd, st.out.output.sent)

/-- `ikcp_update`. -/
def ikcpUpdate (kcp : IKCPCB) (current : IUINT32) : IKCPCB × List (List Byte) :=
  let kcp := { kcp with current := current }
  let kcp := if kcp.updated then kcp else { kcp with updated := true, tsFlush := current }
  -- a clock that jumped by ten seconds or more starts a new schedule
  let slap := itimediff kcp.current kcp.tsFlush
  let reset := decide (10000 ≤ slap ∨ slap < -10000)
  let kcp := if reset then { kcp with tsFlush := kcp.current } else kcp
  if reset ∨ 0 ≤ slap then
    let tsFlush := kcp.tsFlush + kcp.cfg.interval
    let tsFlush :=
      if 0 ≤ itimediff kcp.current tsFlush then kcp.current + kcp.cfg.interval else tsFlush
    ikcpFlush { kcp with tsFlush := tsFlush }
  else (kcp, [])

/-- The time of the next flush, as an update at `current` finds it: the first
    update flushes at once. -/
def scheduled (kcp : IKCPCB) (current : IUINT32) : IUINT32 :=
  if kcp.updated then kcp.tsFlush else current

/-- The time of the flush after one at `current` that was scheduled for `due`. -/
def nextFlush (interval current due : IUINT32) : IUINT32 :=
  let slap := itimediff current due
  let base := if 10000 ≤ slap ∨ slap < -10000 then current else due
  if 0 ≤ itimediff current (base + interval) then current + interval else base + interval

/-- An update sets the clock and the schedule, and flushes if it is time. -/
theorem ikcpUpdate_eq (kcp : IKCPCB) (current : IUINT32) :
    ikcpUpdate kcp current =
      if itimediff current (scheduled kcp current) < 0 ∧
          -10000 ≤ itimediff current (scheduled kcp current) then
        ({ kcp with current := current, updated := true, tsFlush := scheduled kcp current }, [])
      else
        ikcpFlush { kcp with
          current := current, updated := true,
          tsFlush := nextFlush kcp.cfg.interval current (scheduled kcp current) } := by
  have hstart : (if kcp.updated then { kcp with current := current }
      else { kcp with current := current, updated := true, tsFlush := current }) =
        { kcp with
          current := current, updated := true, tsFlush := scheduled kcp current } := by
    unfold scheduled
    cases kcp.updated with
    | true => simp
    | false => simp
  unfold ikcpUpdate nextFlush
  dsimp only
  rw [hstart]
  generalize scheduled kcp current = due
  dsimp only
  by_cases hjump : 10000 ≤ itimediff current due ∨ itimediff current due < -10000
  · -- a new schedule, and then it is time
    have htime : ¬ (itimediff current due < 0 ∧ -10000 ≤ itimediff current due) := by omega
    simp only [hjump, htime, decide_true, true_or, if_true, if_false]
  · by_cases htime : 0 ≤ itimediff current due
    · have hnot : ¬ (itimediff current due < 0 ∧ -10000 ≤ itimediff current due) := by omega
      simp only [hjump, htime, hnot, decide_false, or_true, if_true, if_false,
        Bool.false_eq_true]
    · have hwait : itimediff current due < 0 ∧ -10000 ≤ itimediff current due := by omega
      simp only [hjump, htime, hwait, and_self, decide_false, or_false, if_true, if_false,
        Bool.false_eq_true]

/-! ## Configuration frame -/

@[simp] theorem probeWindow_cfg (kcp : IKCPCB) : (probeWindow kcp).cfg = kcp.cfg := by
  unfold probeWindow
  dsimp only
  split_ifs <;> rfl

@[simp] theorem updateSsthresh_cfg (kcp : IKCPCB) (st : FlushState) (cwnd : IUINT32) :
    (updateSsthresh kcp st cwnd).cfg = kcp.cfg := by
  unfold updateSsthresh
  dsimp only
  split_ifs <;> rfl

@[simp] theorem ikcpFlush_cfg (kcp : IKCPCB) : (ikcpFlush kcp).1.cfg = kcp.cfg := by
  unfold ikcpFlush
  split
  · rfl
  · dsimp only
    -- the stages in between only change the queues
    rw [updateSsthresh_cfg]
    exact probeWindow_cfg kcp

@[simp] theorem ikcpUpdate_cfg (kcp : IKCPCB) (current : IUINT32) :
    (ikcpUpdate kcp current).1.cfg = kcp.cfg := by
  rw [ikcpUpdate_eq]
  split_ifs
  · rfl
  · rw [ikcpFlush_cfg]

end Kcp
end UdpSpeed
