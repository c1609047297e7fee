/-
  UdpSpeed.Kcp.Wire

  The datagrams of a flush as sequences of encoded segments: nothing is cut in
  two, nothing put into the output buffer is left out, and every datagram
  starts with a segment header.
-/

import UdpSpeed.Kcp.Flush

namespace UdpSpeed
namespace Kcp

/-! ## Encoded segments -/

/-- A segment on the wire: `ikcp_encode_seg` and the data behind it. -/
def IKCPSEG.wire (seg : IKCPSEG) : List Byte := ikcpEncodeSeg seg ++ seg.data

/-- The segments of a datagram, one behind the other. -/
def wireAll (segs : List IKCPSEG) : List Byte := segs.flatMap IKCPSEG.wire

theorem wireAll_cons (seg : IKCPSEG) (segs : List IKCPSEG) :
    wireAll (seg :: segs) = ikcpEncodeSeg seg ++ (seg.data ++ wireAll segs) := by
  rw [wireAll, List.flatMap_cons, IKCPSEG.wire, List.append_assoc]
  rfl

theorem wireAll_concat (segs : List IKCPSEG) (seg : IKCPSEG) :
    wireAll (segs ++ [seg]) = wireAll segs ++ seg.wire := by
  simp [wireAll]

theorem wireAll_ne_nil {segs : List IKCPSEG} (h : segs ≠ []) : wireAll segs ≠ [] := by
  obtain ⟨seg, rest, rfl⟩ := List.exists_cons_of_ne_nil h
  rw [wireAll_cons]
  intro hnil
  have hlen := congrArg List.length (List.append_eq_nil_iff.mp hnil).1
  cases hlen

/-- `ikcp_getsn` reads the number of the first segment. -/
theorem ikcpGetsn_encodeSeg (seg : IKCPSEG) (rest : List Byte) :
    ikcpGetsn (ikcpEncodeSeg seg ++ rest) = seg.sn := by
  have hlen : ¬ (ikcpEncodeSeg seg ++ rest).length < ikcpOverhead := by
    rw [List.length_append, ikcpEncodeSeg_length]
    omega
  rw [ikcpGetsn, if_neg hlen]
  exact congrArg SegHeader.sn (decodeHeader_encodeSeg seg rest)

theorem ikcpGetconv_encodeSeg (seg : IKCPSEG) (rest : List Byte) :
    ikcpGetconv (ikcpEncodeSeg seg ++ rest) = seg.conv :=
  congrArg SegHeader.conv (decodeHeader_encodeSeg seg rest)

/-! ## The output buffer -/

/-- The buffer and the datagrams sent before hold exactly the segments `segs`,
    in order, with none cut in two. -/
def OutBuf.Packs (o : OutBuf) (segs : List IKCPSEG) : Prop :=
  ∃ (groups : List (List IKCPSEG)) (cur : List IKCPSEG), segs = groups.flatten ++ cur ∧
    o.sent = groups.map wireAll ∧ o.buf = wireAll cur ∧ ∀ group ∈ groups, group ≠ []

theorem OutBuf.Packs.nil : OutBuf.Packs {} [] :=
  ⟨[], [], rfl, rfl, rfl, fun _ hin => absurd hin List.not_mem_nil⟩

/-- `ikcp_output` closes the current group. -/
theorem OutBuf.Packs.output {o : OutBuf} {segs : List IKCPSEG} (h : o.Packs segs) :
    ∃ groups : List (List IKCPSEG), segs = groups.flatten ∧ o.output.sent = groups.map wireAll ∧
      o.output.buf = [] ∧ ∀ group ∈ groups, group ≠ [] := by
  obtain ⟨groups, cur, hsegs, hsent, hbuf, hne⟩ := h
  unfold OutBuf.output
  by_cases hcur : cur = []
  · -- an empty buffer is not sent
    subst hcur
    have hnil : o.buf = [] := hbuf
    rw [if_pos hnil]
    exact ⟨groups, by rw [hsegs, List.append_nil], hsent, hnil, hne⟩
  · rw [if_neg (by rw [hbuf]; exact wireAll_ne_nil hcur)]
    refine ⟨groups ++ [cur], by simp [hsegs], by simp [hsent, hbuf], rfl, ?_⟩
    intro group hin
    rcases List.mem_append.mp hin with hold | hnew
    · exact hne group hold
    · rw [List.mem_singleton.mp hnew]
      exact hcur

/-- Putting one more segment into the buffer. -/
theorem OutBuf.Packs.put {o : OutBuf} {segs : List IKCPSEG} (h : o.Packs segs) (mtu : Nat)
    (seg : IKCPSEG) : (o.put mtu seg.wire).Packs (segs ++ [seg]) := by
  unfold OutBuf.put
  dsimp only
  split_ifs with hfull
  · obtain ⟨groups, hsegs, hsent, hbuf, hne⟩ := h.output
    refine ⟨groups, [seg], by rw [hsegs], hsent, ?_, hne⟩
    rw [hbuf]
    simp [wireAll]
  · obtain ⟨groups, cur, hsegs, hsent, hbuf, hne⟩ := h
    refine ⟨groups, cur ++ [seg], by rw [hsegs, List.append_assoc], hsent, ?_, hne⟩
    rw [hbuf, wireAll_concat]

/-- A segment without data is its header. -/
theorem OutBuf.Packs.putHeader {o : OutBuf} {segs : List IKCPSEG} (h : o.Packs segs) (mtu : Nat)
    {seg : IKCPSEG} (hdata : seg.data = []) :
    (o.put mtu (ikcpEncodeSeg seg)).Packs (segs ++ [seg]) := by
  have hwire : ikcpEncodeSeg seg = seg.wire := by rw [IKCPSEG.wire, hdata, List.append_nil]
  rw [hwire]
  exact h.put mtu seg

/-! ## The stages of a flush -/

/-- An acknowledgement or a window probe: a header without data. -/
def IKCPSEG.Signal (conv : IUINT32) (seg : IKCPSEG) : Prop :=
  seg.conv = conv ∧ seg.cmd ∈ [ikcpCmdAck, ikcpCmdWask, ikcpCmdWins] ∧ seg.data = []

theorem flushHeader_signal (kcp : IKCPCB) {cmd : Byte}
    (hcmd : cmd ∈ [ikcpCmdAck, ikcpCmdWask, ikcpCmdWins]) (sn ts : IUINT32) :
    (flushHeader kcp cmd sn ts).Signal kcp.conv := ⟨rfl, hcmd, rfl⟩

theorem flushAcks_packs (kcp : IKCPCB) :
    ∃ segs, (flushAcks kcp).Packs segs ∧ ∀ seg ∈ segs, seg.Signal kcp.conv := by
  have hfold : ∀ (acks : List (IUINT32 × IUINT32)) (o : OutBuf) (segs : List IKCPSEG),
      o.Packs segs → (∀ seg ∈ segs, seg.Signal kcp.conv) →
      ∃ segs', (acks.foldl (fun o ack =>
        o.put kcp.cfg.mtu (ikcpEncodeSeg (flushHeader kcp ikcpCmdAck ack.1 ack.2))) o).Packs
          segs' ∧ ∀ seg ∈ segs', seg.Signal kcp.conv := by
    intro acks
    induction acks with
    | nil => exact fun o segs h hall => ⟨segs, h, hall⟩
    | cons ack rest ih =>
        intro o segs h hall
        refine ih _ _ (h.putHeader kcp.cfg.mtu rfl) ?_
        intro seg hin
        rcases List.mem_append.mp hin with hold | hnew
        · exact hall seg hold
        · rw [List.mem_singleton.mp hnew]
          exact flushHeader_signal kcp (by simp) ack.1 ack.2
  exact hfold kcp.acklist {} [] .nil (fun _ hin => absurd hin List.not_mem_nil)

theorem flushProbes_packs (kcp : IKCPCB) {o : OutBuf} {segs : List IKCPSEG} (h : o.Packs segs) :
    ∃ more, (flushProbes kcp o).Packs (segs ++ more) ∧ ∀ seg ∈ more, seg.Signal kcp.conv := by
  unfold flushProbes
  dsimp only
  generalize kcp.acklist.getLast?.getD (0, 0) = last
  have hask := @flushHeader_signal kcp ikcpCmdWask (by simp) last.1 last.2
  have htell := @flushHeader_signal kcp ikcpCmdWins (by simp) last.1 last.2
  generalize flushHeader kcp ikcpCmdWask last.1 last.2 = ask at hask ⊢
  generalize flushHeader kcp ikcpCmdWins last.1 last.2 = tell at htell ⊢
  split_ifs
  · refine ⟨[ask, tell], ?_, by simp [hask, htell]⟩
    have hboth := (h.putHeader kcp.cfg.mtu hask.2.2).putHeader kcp.cfg.mtu htell.2.2
    rw [List.append_assoc] at hboth
    exact hboth
  · exact ⟨[tell], h.putHeader _ htell.2.2, by simp [htell]⟩
  · exact ⟨[ask], h.putHeader _ hask.2.2, by simp [hask]⟩
  · exact ⟨[], by rw [List.append_nil]; exact h, by simp⟩

/-- Two segments with the same number, fragment and data, as far as the
    receiver of a PUSH is concerned. -/
def IKCPSEG.SameContent (seg seg' : IKCPSEG) : Prop :=
  seg'.conv = seg.conv ∧ seg'.cmd = seg.cmd ∧ seg'.frg = seg.frg ∧ seg'.sn = seg.sn ∧
    seg'.data = seg.data

/-- Whatever timer made it due, a scheduled segment keeps its content, and one
    that has never been sent is due. -/
theorem scheduleSegment_spec (kcp : IKCPCB) (st : FlushState) (segment : IKCPSEG) :
    (scheduleSegment kcp st segment).1.out = st.out ∧
      (∀ seg', (scheduleSegment kcp st segment).2 = some seg' → segment.SameContent seg') ∧
      (segment.xmit = 0 → (scheduleSegment kcp st segment).2.isSome) := by
  have hdue : ∀ {due : IKCPSEG}, segment.SameContent due →
      ∀ seg', some due = some seg' → segment.SameContent seg' := by
    intro due hcontent seg' h
    rwa [← Option.some.inj h]
  unfold scheduleSegment
  dsimp only
  generalize (if 0 < kcp.cfg.fastresend then kcp.cfg.fastresend else 0xffffffff) = resent
  -- the first transmission, the two retransmissions, and nothing to do
  by_cases h1 : segment.xmit = 0
  · rw [if_pos h1]
    exact ⟨rfl, hdue ⟨rfl, rfl, rfl, rfl, rfl⟩, fun _ => rfl⟩
  rw [if_neg h1]
  by_cases h2 : 0 ≤ itimediff kcp.current segment.resendts
  · rw [if_pos h2]
    exact ⟨rfl, hdue ⟨rfl, rfl, rfl, rfl, rfl⟩, fun _ => rfl⟩
  rw [if_neg h2]
  by_cases h3 : resent ≤ segment.fastack
  · rw [if_pos h3]
    exact ⟨rfl, hdue ⟨rfl, rfl, rfl, rfl, rfl⟩, fun _ => rfl⟩
  · rw [if_neg h3]
    refine ⟨rfl, ?_, fun h => absurd h h1⟩
    intro seg' h
    cases h

theorem IKCPSEG.SameContent.refl (seg : IKCPSEG) : seg.SameContent seg := ⟨rfl, rfl, rfl, rfl, rfl⟩

theorem IKCPSEG.SameContent.trans {a b c : IKCPSEG} (h : a.SameContent b) (h' : b.SameContent c) :
    a.SameContent c :=
  ⟨h'.1.trans h.1, h'.2.1.trans h.2.1, h'.2.2.1.trans h.2.2.1, h'.2.2.2.1.trans h.2.2.2.1,
    h'.2.2.2.2.trans h.2.2.2.2⟩

/-- One turn of the data loop puts the segment into the buffer or leaves the
    buffer alone; a segment never sent before is put. -/
theorem flushSegment_packs (kcp : IKCPCB) {st : FlushState} {segs : List IKCPSEG}
    (h : st.out.Packs segs) (segment : IKCPSEG) :
    ∃ more, (flushSegment kcp st segment).1.out.Packs (segs ++ more) ∧
      (segment.xmit = 0 → ∃ seg' ∈ more, segment.SameContent seg') ∧
      (∀ seg' ∈ more, segment.SameContent seg') ∧
      segment.SameContent (flushSegment kcp st segment).2 := by
  obtain ⟨hout, hsame, hfirst⟩ := scheduleSegment_spec kcp st segment
  unfold flushSegment
  cases hsched : scheduleSegment kcp st segment with
  | mk st' due =>
      rw [hsched] at hout hsame hfirst
      have hpacks : st'.out.Packs segs := by
        rw [show st'.out = st.out from hout]
        exact h
      cases due with
      | none =>
          refine ⟨[], by rw [List.append_nil]; exact hpacks, ?_, by simp, .refl segment⟩
          intro h0
          cases hfirst h0
      | some seg' =>
          have hcontent := hsame seg' rfl
          refine ⟨_, hpacks.put kcp.cfg.mtu _, ?_, ?_, hcontent⟩
          · intro _
            exact ⟨_, List.mem_singleton_self _, hcontent⟩
          · intro x hx
            rw [List.mem_singleton.mp hx]
            exact hcontent

theorem flushSegments_packs (kcp : IKCPCB) (buf : List IKCPSEG) {st : FlushState}
    {segs : List IKCPSEG} (h : st.out.Packs segs) :
    ∃ more, (flushSegments kcp st buf).1.out.Packs (segs ++ more) ∧
      (∀ segment ∈ buf, segment.xmit = 0 → ∃ seg' ∈ more, segment.SameContent seg') ∧
      (∀ seg' ∈ more, ∃ segment ∈ buf, segment.SameContent seg') ∧
      ∀ seg' ∈ (flushSegments kcp st buf).2, ∃ segment ∈ buf, segment.SameContent seg' := by
  induction buf generalizing st segs with
  | nil =>
      refine ⟨[], by rw [List.append_nil]; exact h, ?_, ?_, ?_⟩
      · exact fun _ hin => absurd hin List.not_mem_nil
      · exact fun _ hin => absurd hin List.not_mem_nil
      · exact fun _ hin => absurd hin List.not_mem_nil
  | cons segment rest ih =>
      obtain ⟨one, hone, hfirst, hsame, hself⟩ := flushSegment_packs kcp h segment
      obtain ⟨more, hmore, hrest, hfrom, hbuf⟩ := ih hone
      refine ⟨one ++ more, by rw [← List.append_assoc]; exact hmore, ?_, ?_, ?_⟩
      · intro seg hin h0
        rcases List.mem_cons.mp hin with rfl | htail
        · obtain ⟨seg', hseg', hcontent⟩ := hfirst h0
          exact ⟨seg', List.mem_append_left _ hseg', hcontent⟩
        · obtain ⟨seg', hseg', hcontent⟩ := hrest seg htail h0
          exact ⟨seg', List.mem_append_right _ hseg', hcontent⟩
      · intro seg' hin
        rcases List.mem_append.mp hin with hhere | hlater
        · exact ⟨segment, List.mem_cons_self .., hsame seg' hhere⟩
        · obtain ⟨x, hx, hcontent⟩ := hfrom seg' hlater
          exact ⟨x, List.mem_cons_of_mem _ hx, hcontent⟩
      · intro seg' hin
        rcases List.mem_cons.mp hin with rfl | hlater
        · exact ⟨segment, List.mem_cons_self .., hself⟩
        · obtain ⟨x, hx, hcontent⟩ := hbuf seg' hlater
          exact ⟨x, List.mem_cons_of_mem _ hx, hcontent⟩

/-- **The datagrams of a flush are whole segments**, at least one in each. -/
theorem ikcpFlush_packs (kcp : IKCPCB) :
    ∃ groups : List (List IKCPSEG), (ikcpFlush kcp).2 = groups.map wireAll ∧
      ∀ group ∈ groups, group ≠ [] := by
  unfold ikcpFlush
  split
  · exact ⟨[], rfl, fun _ hin => absurd hin List.not_mem_nil⟩
  · dsimp only
    obtain ⟨acks, hacks, -⟩ := flushAcks_packs kcp
    obtain ⟨probes, hprobes, -⟩ := flushProbes_packs (probeWindow kcp) hacks
    obtain ⟨more, hmore, -, -⟩ :=
      @flushSegments_packs _ _ { out := _, xmit := _, state := _ } _ hprobes
    obtain ⟨groups, -, hsent, -, hne⟩ := hmore.output
    exact ⟨groups, hsent, hne⟩

/-! ## The size of a datagram -/

/-- Neither the buffer nor a datagram sent before exceeds the `mtu`. -/
def OutBuf.Within (mtu : Nat) (o : OutBuf) : Prop :=
  o.buf.length ≤ mtu ∧ ∀ datagram ∈ o.sent, datagram.length ≤ mtu

theorem OutBuf.Within.output {mtu : Nat} {o : OutBuf} (h : o.Within mtu) :
    o.output.Within mtu := by
  unfold OutBuf.output
  split_ifs
  · exact h
  · refine ⟨Nat.zero_le _, ?_⟩
    intro datagram hin
    rcases List.mem_append.mp hin with hold | hnew
    · exact h.2 datagram hold
    · rw [List.mem_singleton.mp hnew]
      exact h.1

theorem OutBuf.output_buf (o : OutBuf) : o.output.buf = [] := by
  unfold OutBuf.output
  split_ifs with hnil
  · exact hnil
  · rfl

theorem OutBuf.Within.put {mtu : Nat} {o : OutBuf} (h : o.Within mtu) {piece : List Byte}
    (hpiece : piece.length ≤ mtu) : (o.put mtu piece).Within mtu := by
  unfold OutBuf.put
  dsimp only
  split_ifs with hfull
  · refine ⟨?_, h.output.2⟩
    rw [OutBuf.output_buf, List.nil_append]
    exact hpiece
  · refine ⟨?_, h.2⟩
    rw [List.length_append]
    omega

theorem OutBuf.Within.putHeader {mtu : Nat} {o : OutBuf} (h : o.Within mtu) (hmtu : 24 ≤ mtu)
    (seg : IKCPSEG) : (o.put mtu (ikcpEncodeSeg seg)).Within mtu :=
  h.put (show (ikcpEncodeSeg seg).length ≤ mtu from hmtu)

theorem flushAcks_within {kcp : IKCPCB} (hmtu : 24 ≤ kcp.cfg.mtu) :
    (flushAcks kcp).Within kcp.cfg.mtu := by
  have hfold : ∀ (acks : List (IUINT32 × IUINT32)) (o : OutBuf), o.Within kcp.cfg.mtu →
      (acks.foldl (fun o ack =>
        o.put kcp.cfg.mtu (ikcpEncodeSeg (flushHeader kcp ikcpCmdAck ack.1 ack.2))) o).Within
          kcp.cfg.mtu := by
    intro acks
    induction acks with
    | nil => exact fun o h => h
    | cons ack rest ih => exact fun o h => ih _ (h.putHeader hmtu _)
  exact hfold kcp.acklist {} ⟨Nat.zero_le _, fun _ hin => absurd hin List.not_mem_nil⟩

theorem flushProbes_within {kcp : IKCPCB} (hmtu : 24 ≤ kcp.cfg.mtu) {o : OutBuf}
    (h : o.Within kcp.cfg.mtu) : (flushProbes kcp o).Within kcp.cfg.mtu := by
  unfold flushProbes
  dsimp only
  split_ifs
  · exact (h.putHeader hmtu _).putHeader hmtu _
  · exact h.putHeader hmtu _
  · exact h.putHeader hmtu _
  · exact h

theorem flushSegments_within {kcp : IKCPCB} {buf : List IKCPSEG}
    (hbuf : ∀ segment ∈ buf, 24 + segment.data.length ≤ kcp.cfg.mtu) {st : FlushState}
    (h : st.out.Within kcp.cfg.mtu) : (flushSegments kcp st buf).1.out.Within kcp.cfg.mtu := by
  induction buf generalizing st with
  | nil => exact h
  | cons segment rest ih =>
      refine ih (fun x hx => hbuf x (List.mem_cons_of_mem _ hx)) ?_
      obtain ⟨hout, hsame, -⟩ := scheduleSegment_spec kcp st segment
      change (flushSegment kcp st segment).1.out.Within kcp.cfg.mtu
      unfold flushSegment
      cases hsched : scheduleSegment kcp st segment with
      | mk st' due =>
          rw [hsched] at hout hsame
          have hkept : st'.out.Within kcp.cfg.mtu := by
            rw [show st'.out = st.out from hout]
            exact h
          cases due with
          | none => exact hkept
          | some seg' =>
              refine hkept.put ?_
              have hsize := hbuf segment (List.mem_cons_self ..)
              rw [← (hsame seg' rfl).2.2.2.2] at hsize
              rw [List.length_append]
              exact hsize

end Kcp
end UdpSpeed
