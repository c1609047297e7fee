/-
  UdpSpeed.Kcp.Output

  The content of a flush, segment by segment: one acknowledgement for each
  entry of the list, the window probes, and those segments of the send buffer
  that are due.  All of them carry the window and the `una` the object has at
  that moment, and nothing else goes out.
-/

import UdpSpeed.Kcp.Transmit

namespace UdpSpeed
namespace Kcp

/-! ## What a flush writes -/

/-- "flush acknowledges". -/
def ackSegments (kcp : IKCPCB) : List IKCPSEG :=
  kcp.acklist.map (fun ack => flushHeader kcp ikcpCmdAck ack.1 ack.2)

/-- "flush window probing commands". -/
def probeSegments (kcp : IKCPCB) : List IKCPSEG :=
  let last := kcp.acklist.getLast?.getD (0, 0)
  (if kcp.probe &&& ikcpAskSend ≠ 0 then [flushHeader kcp ikcpCmdWask last.1 last.2] else []) ++
    if kcp.probe &&& ikcpAskTell ≠ 0 then [flushHeader kcp ikcpCmdWins last.1 last.2] else []

/-- A segment of the send buffer as it goes out, if it is due. -/
def dueSegment (kcp : IKCPCB) (segment : IKCPSEG) : Option IKCPSEG :=
  (scheduleSegment kcp default segment).2.map (fun seg =>
    { seg with ts := kcp.current, wnd := ikcpWndUnused kcp, una := kcp.rcvNxt })

/-- The segments of a flush, in order. -/
def flushedSegments (kcp : IKCPCB) : List IKCPSEG :=
  ackSegments kcp ++ probeSegments (probeWindow kcp) ++
    (afterMove kcp).sndBuf.filterMap (dueSegment (afterMove kcp))

theorem flushAcks_eq (kcp : IKCPCB) : (flushAcks kcp).Packs (ackSegments kcp) := by
  have hfold : ∀ (acks : List (IUINT32 × IUINT32)) (o : OutBuf) (segs : List IKCPSEG),
      o.Packs segs →
      (acks.foldl (fun o ack =>
        o.put kcp.cfg.mtu (ikcpEncodeSeg (flushHeader kcp ikcpCmdAck ack.1 ack.2))) o).Packs
          (segs ++ acks.map (fun ack => flushHeader kcp ikcpCmdAck ack.1 ack.2)) := by
    intro acks
    induction acks with
    | nil =>
        intro o segs h
        rw [List.map_nil, List.append_nil]
        exact h
    | cons ack rest ih =>
        intro o segs h
        have hput := ih _ _ (h.putHeader kcp.cfg.mtu
          (show (flushHeader kcp ikcpCmdAck ack.1 ack.2).data = [] from rfl))
        rw [List.append_assoc, List.singleton_append] at hput
        exact hput
  exact hfold kcp.acklist {} [] .nil

theorem flushProbes_eq (kcp : IKCPCB) {o : OutBuf} {segs : List IKCPSEG} (h : o.Packs segs) :
    (flushProbes kcp o).Packs (segs ++ probeSegments kcp) := by
  unfold flushProbes probeSegments
  dsimp only
  generalize kcp.acklist.getLast?.getD (0, 0) = last
  have hask : (flushHeader kcp ikcpCmdWask last.1 last.2).data = [] := rfl
  have htell : (flushHeader kcp ikcpCmdWins last.1 last.2).data = [] := rfl
  generalize flushHeader kcp ikcpCmdWask last.1 last.2 = ask at hask ⊢
  generalize flushHeader kcp ikcpCmdWins last.1 last.2 = tell at htell ⊢
  split_ifs
  · have hboth := (h.putHeader kcp.cfg.mtu hask).putHeader kcp.cfg.mtu htell
    rw [List.append_assoc] at hboth
    exact hboth
  · exact h.putHeader _ htell
  · exact h.putHeader _ hask
  · rw [List.append_nil, List.append_nil]
    exact h

/-- Whether a segment is due does not depend on what the loop has counted. -/
theorem scheduleSegment_due (kcp : IKCPCB) (st st' : FlushState) (segment : IKCPSEG) :
    (scheduleSegment kcp st segment).2 = (scheduleSegment kcp st' segment).2 := by
  unfold scheduleSegment
  dsimp only
  split_ifs <;> rfl

/-- One turn of the data loop. -/
theorem flushSegment_eq (kcp : IKCPCB) {st : FlushState} {segs : List IKCPSEG}
    (h : st.out.Packs segs) (segment : IKCPSEG) :
    (flushSegment kcp st segment).1.out.Packs (segs ++ (dueSegment kcp segment).toList) ∧
      (flushSegment kcp st segment).2 = (dueSegment kcp segment).getD segment := by
  obtain ⟨hout, -, -⟩ := scheduleSegment_spec kcp st segment
  unfold flushSegment dueSegment
  rw [scheduleSegment_due kcp default st]
  cases hsched : scheduleSegment kcp st segment with
  | mk st' due =>
      rw [hsched] at hout
      have hpacks : st'.out.Packs segs := by
        rw [show st'.out = st.out from hout]
        exact h
      cases due with
      | none =>
          refine ⟨?_, rfl⟩
          rw [Option.map_none, Option.toList_none, List.append_nil]
          exact hpacks
      | some seg => exact ⟨hpacks.put kcp.cfg.mtu _, rfl⟩

/-- The whole data loop, by induction on the buffer. -/
theorem flushSegments_eq (kcp : IKCPCB) (buf : List IKCPSEG) {st : FlushState}
    {segs : List IKCPSEG} (h : st.out.Packs segs) :
    (flushSegments kcp st buf).1.out.Packs (segs ++ buf.filterMap (dueSegment kcp)) ∧
      (flushSegments kcp st buf).2 = buf.map (fun seg => (dueSegment kcp seg).getD seg) := by
  induction buf generalizing st segs with
  | nil =>
      refine ⟨?_, rfl⟩
      rw [List.filterMap_nil, List.append_nil]
      exact h
  | cons segment rest ih =>
      obtain ⟨hone, hself⟩ := flushSegment_eq kcp h segment
      obtain ⟨hrest, hbuf⟩ := ih hone
      have hsplit : (segment :: rest).filterMap (dueSegment kcp) =
          (dueSegment kcp segment).toList ++ rest.filterMap (dueSegment kcp) := by
        rw [List.filterMap_cons]
        cases dueSegment kcp segment <;> rfl
      rw [hsplit, ← List.append_assoc]
      refine ⟨hrest, ?_⟩
      rw [List.map_cons, ← hself, ← hbuf]
      rfl

/-- The data loop of a flush. -/
theorem dataLoop_eq (kcp : IKCPCB) :
    (dataLoop kcp).1.out.Packs (flushedSegments kcp) ∧
      (dataLoop kcp).2 =
        (afterMove kcp).sndBuf.map (fun seg => (dueSegment (afterMove kcp) seg).getD seg) :=
  flushSegments_eq (afterMove kcp) (afterMove kcp).sndBuf
    (flushProbes_eq (probeWindow kcp) (flushAcks_eq kcp))

/-- **The datagrams of a flush, taken apart, are exactly its segments**: each
    datagram holds at least one, and none is cut in two, repeated or left out. -/
theorem ikcpFlush_segments {kcp : IKCPCB} (hupd : kcp.updated = true) :
    ∃ groups : List (List IKCPSEG), (ikcpFlush kcp).2 = groups.map wireAll ∧
      groups.flatten = flushedSegments kcp ∧ ∀ group ∈ groups, group ≠ [] := by
  obtain ⟨groups, hsegs, hsent, -, hne⟩ := (dataLoop_eq kcp).1.output
  refine ⟨groups, ?_, hsegs.symm, hne⟩
  rw [ikcpFlush_eq hupd]
  exact hsent

/-! ## What a flush does to the object -/

/-- The move from the queue to the buffer numbers the front `n` segments of the
    queue; it stops at the end of the queue or of the window. -/
theorem moveToSndBuf_eq (limit : IUINT32) (stamp : IUINT32 → IKCPSEG → IKCPSEG)
    (queue buf : List IKCPSEG) (nxt : IUINT32) :
    ∃ n ≤ queue.length,
      moveToSndBuf limit stamp queue buf nxt =
        (queue.drop n,
          buf ++ (queue.take n).mapIdx (fun i seg => stamp (nxt + BitVec.ofNat 32 i) seg),
          nxt + BitVec.ofNat 32 n) ∧
      (∀ i < n, itimediff (nxt + BitVec.ofNat 32 i) limit < 0) ∧
      (n = queue.length ∨ 0 ≤ itimediff (nxt + BitVec.ofNat 32 n) limit) := by
  induction queue generalizing buf nxt with
  | nil =>
      refine ⟨0, le_rfl, ?_, fun i hi => absurd hi (Nat.not_lt_zero i), Or.inl rfl⟩
      rw [BitVec.add_zero]
      simp [moveToSndBuf]
  | cons seg rest ih =>
      unfold moveToSndBuf
      by_cases hopen : itimediff nxt limit < 0
      · rw [if_pos hopen]
        obtain ⟨n, hle, heq, hbelow, hdone⟩ := ih (buf ++ [stamp nxt seg]) (nxt + 1)
        refine ⟨n + 1, Nat.succ_le_succ hle, ?_, ?_, ?_⟩
        · rw [heq, add_ofNat_succ, List.drop_succ_cons, List.take_succ_cons, List.mapIdx_cons,
            BitVec.add_zero, List.append_assoc, List.singleton_append]
          simp only [add_ofNat_succ]
        · intro i hi
          cases i with
          | zero =>
              rw [BitVec.add_zero]
              exact hopen
          | succ i =>
              rw [add_ofNat_succ]
              exact hbelow i (Nat.lt_of_succ_lt_succ hi)
        · rw [add_ofNat_succ, List.length_cons]
          exact hdone.imp (congrArg (· + 1)) id
      · rw [if_neg hopen]
        refine ⟨0, Nat.zero_le _, ?_, fun i hi => absurd hi (Nat.not_lt_zero i), Or.inr ?_⟩
        · rw [BitVec.add_zero]
          simp
        · rw [BitVec.add_zero]
          exact not_lt.mp hopen

/-- What a flush leaves of the object: the acknowledgements and probes are out,
    the front `n` segments of the queue are in the buffer. -/
structure Flushed (kcp kcp' : IKCPCB) (n : Nat) : Prop where
  frame : FlushFrame kcp kcp'
  rcv : SameRcv kcp kcp'
  acklist : kcp'.acklist = []
  probe : kcp'.probe = 0
  probeWait : kcp'.probeWait = (probeWindow kcp).probeWait
  tsProbe : kcp'.tsProbe = (probeWindow kcp).tsProbe
  current : kcp'.current = kcp.current
  moved : n ≤ kcp.sndQueue.length
  sndQueue : kcp'.sndQueue = kcp.sndQueue.drop n
  sndNxt : kcp'.sndNxt = kcp.sndNxt + BitVec.ofNat 32 n
  buffer : (afterMove kcp).sndBuf = kcp.sndBuf ++
    (kcp.sndQueue.take n).mapIdx
      (fun i seg => stampSegment kcp (kcp.sndNxt + BitVec.ofNat 32 i) seg)
  sndBuf : kcp'.sndBuf =
    (afterMove kcp).sndBuf.map (fun seg => (dueSegment (afterMove kcp) seg).getD seg)
  within : ∀ i < n,
    itimediff (kcp.sndNxt + BitVec.ofNat 32 i) (kcp.sndUna + sendWindow kcp) < 0
  full : n = kcp.sndQueue.length ∨
    0 ≤ itimediff (kcp.sndNxt + BitVec.ofNat 32 n) (kcp.sndUna + sendWindow kcp)

theorem ikcpFlush_flushed {kcp : IKCPCB} (hupd : kcp.updated = true) :
    ∃ n, Flushed kcp (ikcpFlush kcp).1 n := by
  obtain ⟨wait, ts, hbase⟩ := afterProbes_frame kcp
  have hwait : (probeWindow kcp).probeWait = wait := congrArg IKCPCB.probeWait hbase
  have hts : (probeWindow kcp).tsProbe = ts := congrArg IKCPCB.tsProbe hbase
  obtain ⟨n, hle, hmove, hwithin, hfull⟩ := moveToSndBuf_eq (kcp.sndUna + sendWindow kcp)
    (stampSegment kcp) kcp.sndQueue kcp.sndBuf kcp.sndNxt
  have hafter : afterMove kcp =
      { kcp with
        probeWait := wait, tsProbe := ts, acklist := [], probe := 0
        sndQueue := kcp.sndQueue.drop n
        sndBuf := kcp.sndBuf ++ (kcp.sndQueue.take n).mapIdx
          (fun i seg => stampSegment kcp (kcp.sndNxt + BitVec.ofNat 32 i) seg)
        sndNxt := kcp.sndNxt + BitVec.ofNat 32 n } := by
    unfold afterMove
    rw [hbase]
    change { kcp with
      probeWait := wait, tsProbe := ts, acklist := [], probe := 0
      sndQueue := (moveToSndBuf (kcp.sndUna + sendWindow kcp) (stampSegment kcp) kcp.sndQueue
        kcp.sndBuf kcp.sndNxt).1
      sndBuf := (moveToSndBuf (kcp.sndUna + sendWindow kcp) (stampSegment kcp) kcp.sndQueue
        kcp.sndBuf kcp.sndNxt).2.1
      sndNxt := (moveToSndBuf (kcp.sndUna + sendWindow kcp) (stampSegment kcp) kcp.sndQueue
        kcp.sndBuf kcp.sndNxt).2.2 } = _
    rw [hmove]
  obtain ⟨ssthresh, cwnd, incr, hss⟩ := updateSsthresh_frame
    { afterMove kcp with
      sndBuf := (dataLoop kcp).2, xmit := (dataLoop kcp).1.xmit, state := (dataLoop kcp).1.state }
    (dataLoop kcp).1 (sendWindow (afterProbes kcp))
  have hdata := (dataLoop_eq kcp).2
  refine ⟨n, ?_⟩
  rw [ikcpFlush_eq hupd, hss]
  exact {
    frame := by rw [hafter]; exact ⟨rfl, rfl, rfl, rfl, rfl⟩
    rcv := by rw [hafter]; exact ⟨rfl, rfl, rfl, rfl⟩
    acklist := by rw [hafter]
    probe := by rw [hafter]
    probeWait := by rw [hafter, hwait]
    tsProbe := by rw [hafter, hts]
    current := by rw [hafter]
    moved := hle
    sndQueue := by rw [hafter]
    sndNxt := by rw [hafter]
    buffer := by rw [hafter]
    sndBuf := hdata
    within := hwithin
    full := hfull }

/-- The clock, the window and the next number expected stay the same while the
    flush fills in the headers. -/
theorem afterMove_header (kcp : IKCPCB) :
    (afterMove kcp).current = kcp.current ∧ (afterMove kcp).rcvNxt = kcp.rcvNxt ∧
      ikcpWndUnused (afterMove kcp) = ikcpWndUnused kcp := by
  obtain ⟨wait, ts, hbase⟩ := afterProbes_frame kcp
  unfold afterMove
  rw [hbase]
  exact ⟨rfl, rfl, rfl⟩

/-- Only the timers of a segment change when it goes out. -/
theorem dueSegment_sameContent {kcp : IKCPCB} {segment seg : IKCPSEG}
    (h : dueSegment kcp segment = some seg) : segment.SameContent seg := by
  obtain ⟨due, hdue, rfl⟩ := Option.map_eq_some_iff.mp h
  exact (scheduleSegment_spec kcp default segment).2.1 due hdue

theorem sameContent_getD_dueSegment (kcp : IKCPCB) (segment : IKCPSEG) :
    segment.SameContent ((dueSegment kcp segment).getD segment) := by
  cases h : dueSegment kcp segment with
  | none => exact .refl segment
  | some seg => exact dueSegment_sameContent h

theorem mem_probeSegments {kcp : IKCPCB} {seg : IKCPSEG} (h : seg ∈ probeSegments kcp) :
    ∃ cmd ∈ [ikcpCmdWask, ikcpCmdWins], ∃ sn ts, seg = flushHeader kcp cmd sn ts := by
  rw [probeSegments, List.mem_append] at h
  rcases h with hask | htell
  · split_ifs at hask
    · exact ⟨ikcpCmdWask, by simp, _, _, List.mem_singleton.mp hask⟩
    · cases hask
  · split_ifs at htell
    · exact ⟨ikcpCmdWins, by simp, _, _, List.mem_singleton.mp htell⟩
    · cases htell

/-- **Every segment of a flush shows the receiver where its peer stands**: the
    free room of the receive queue and the next number expected. -/
theorem flushedSegments_header {kcp : IKCPCB} {seg : IKCPSEG} (h : seg ∈ flushedSegments kcp) :
    seg.una = kcp.rcvNxt ∧ seg.wnd = ikcpWndUnused kcp := by
  obtain ⟨-, hnxt, hwnd⟩ := afterMove_header kcp
  have hprobe : (probeWindow kcp).rcvNxt = kcp.rcvNxt ∧
      ikcpWndUnused (probeWindow kcp) = ikcpWndUnused kcp := by
    obtain ⟨hcfg, hqueue, -, hrcv⟩ := sameRcv_probeWindow kcp
    refine ⟨hrcv, ?_⟩
    unfold ikcpWndUnused IKCPCB.nrcvQue
    rw [hcfg, hqueue]
  rw [flushedSegments, List.mem_append, List.mem_append] at h
  rcases h with (hack | hp) | hdata
  · obtain ⟨ack, -, rfl⟩ := List.mem_map.mp hack
    exact ⟨rfl, rfl⟩
  · obtain ⟨cmd, -, sn, ts, rfl⟩ := mem_probeSegments hp
    exact hprobe
  · obtain ⟨segment, -, hdue⟩ := List.mem_filterMap.mp hdata
    obtain ⟨due, -, rfl⟩ := Option.map_eq_some_iff.mp hdue
    exact ⟨hnxt, hwnd⟩

end Kcp
end UdpSpeed
