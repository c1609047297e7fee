/-
  UdpSpeed.Kcp.Progress

  A KCP connection does not get stuck.  From every state it can reach, driving
  the two ends every ten milliseconds and letting some of the datagrams through
  is enough for everything accepted to arrive: a fragment that is missing is
  sent again, a full window is opened by an acknowledgement, and a window that
  was closed altogether by the answer to a probe.
-/

import UdpSpeed.Kcp.Exchange

namespace UdpSpeed
namespace Kcp

open Endpoint SerialNumber

/-! ## One flush -/

namespace Endpoint

/-- A datagram of genuine segments is on the wire, one of them with `P`. -/
def Shows (e : Endpoint) (P : IKCPSEG → Prop) : Prop :=
  ∃ group, wireAll group ∈ e.output ∧ (∀ x ∈ group, e.Genuine x) ∧ ∃ seg ∈ group, P seg

/-- What an end keeps while it is only driven: the receive side, the window it
    works with, and a full window stays full. -/
structure Stays (e e' : Endpoint) : Prop where
  rcv : SameRcv e.kcp e'.kcp
  accepted : e'.accepted = e.accepted
  received : e'.received = e.received
  sndUna : e'.kcp.sndUna = e.kcp.sndUna
  rmtWnd : e'.kcp.rmtWnd = e.kcp.rmtWnd
  full : e.kcp.WindowFull → e'.kcp.sndNxt = e.kcp.sndNxt

theorem windowFull_congr {kcp kcp' : IKCPCB} (hcfg : kcp'.cfg = kcp.cfg)
    (hnocwnd : kcp.cfg.nocwnd = true) (hnxt : kcp'.sndNxt = kcp.sndNxt)
    (huna : kcp'.sndUna = kcp.sndUna) (hwnd : kcp'.rmtWnd = kcp.rmtWnd) :
    kcp'.WindowFull ↔ kcp.WindowFull := by
  unfold IKCPCB.WindowFull sendWindow
  dsimp only
  rw [hcfg, hnxt, huna, hwnd, if_pos hnocwnd, if_pos hnocwnd]

theorem Stays.refl (e : Endpoint) : Stays e e := ⟨.refl _, rfl, rfl, rfl, rfl, fun _ => rfl⟩

theorem Stays.trans {e e₁ e₂ : Endpoint} (hnocwnd : e.kcp.cfg.nocwnd = true) (h : Stays e e₁)
    (h' : Stays e₁ e₂) : Stays e e₂ where
  rcv := h.rcv.trans h'.rcv
  accepted := h'.accepted.trans h.accepted
  received := h'.received.trans h.received
  sndUna := h'.sndUna.trans h.sndUna
  rmtWnd := h'.rmtWnd.trans h.rmtWnd
  full := by
    intro hfull
    have hfirst := h.full hfull
    have hstill := (windowFull_congr h.rcv.1 hnocwnd hfirst h.sndUna h.rmtWnd).mpr hfull
    exact (h'.full hstill).trans hfirst

theorem stays_flush (e : Endpoint) (clock ts : IUINT32) : Stays e (e.ticked clock ts).flush := by
  obtain ⟨n, hflush⟩ := @ikcpFlush_flushed (e.ticked clock ts).kcp rfl
  refine ⟨hflush.rcv, rfl, rfl, hflush.frame.sndUna, hflush.frame.rmtWnd, ?_⟩
  intro hfull
  have hnxt : (e.ticked clock ts).flush.kcp.sndNxt = e.kcp.sndNxt + BitVec.ofNat 32 n :=
    hflush.sndNxt
  cases n with
  | zero =>
      rw [hnxt]
      exact BitVec.add_zero _
  | succ n =>
      -- nothing moves past the end of the window
      have hfirst := hflush.within 0 (Nat.succ_pos n)
      rw [BitVec.add_zero] at hfirst
      exact absurd hfull (not_le.mpr hfirst)

end Endpoint

namespace Live

variable {e o : Endpoint}

theorem cfg (h : Live e o) : e.kcp.cfg = tunnelCfg e.kcp.conv := h.pair.here.account.cfg

theorem interval (h : Live e o) : e.kcp.cfg.interval = 10 := by
  rw [h.cfg]
  rfl

theorem nocwnd (h : Live e o) : e.kcp.cfg.nocwnd = true := by
  rw [h.cfg]
  rfl

theorem ticked (h : Live e o) (clock ts : IUINT32) : Live (e.ticked clock ts) o :=
  ⟨h.pair.start clock ts, h.short, h.short'⟩

theorem flush (h : Live e o) (clock ts : IUINT32) :
    Live (e.ticked clock ts).flush o ∧ Later e (e.ticked clock ts).flush := by
  have hstart := h.ticked clock ts
  have hlater := (hstart.pair.here.flush h.short hstart.early).2
  refine ⟨⟨hstart.pair.flush h.short h.short', ?_, h.short'⟩, ?_⟩
  · have hs := h.short
    unfold Endpoint.Short fragments at hs ⊢
    rw [hlater.conv]
    exact hs
  · exact (h.pair.here.start clock ts).2.trans hlater

/-- A segment of a flush is in one of its datagrams. -/
theorem flush_group (h : Live e o) (clock ts : IUINT32) {seg : IKCPSEG}
    (hin : seg ∈ flushedSegments (e.ticked clock ts).kcp) :
    ∃ group, wireAll group ∈ (e.ticked clock ts).flush.output ∧ seg ∈ group ∧
      ∀ x ∈ group, x ∈ flushedSegments (e.ticked clock ts).kcp ∧
        (e.ticked clock ts).flush.Genuine x := by
  have hstart := h.ticked clock ts
  obtain ⟨groups, hsent, hflat, -⟩ := @ikcpFlush_segments (e.ticked clock ts).kcp rfl
  rw [← hflat] at hin
  obtain ⟨group, hgroup, hseg⟩ := List.mem_flatten.mp hin
  refine ⟨group, ?_, hseg, ?_⟩
  · change wireAll group ∈ (e.ticked clock ts).output ++ (ikcpFlush (e.ticked clock ts).kcp).2
    rw [hsent]
    exact List.mem_append_right _ (List.mem_map_of_mem hgroup)
  · intro x hx
    have hmem : x ∈ flushedSegments (e.ticked clock ts).kcp := by
      rw [← hflat]
      exact List.mem_flatten_of_mem hgroup hx
    exact ⟨hmem, hstart.pair.here.flushed_genuine h.short hstart.early rfl hmem⟩

theorem flush_shows (h : Live e o) (clock ts : IUINT32) {seg : IKCPSEG}
    (hin : seg ∈ flushedSegments (e.ticked clock ts).kcp) {P : IKCPSEG → Prop} (hp : P seg) :
    (e.ticked clock ts).flush.Shows P := by
  obtain ⟨group, hsent, hseg, hall⟩ := h.flush_group clock ts hin
  exact ⟨group, hsent, fun x hx => (hall x hx).2, seg, hseg, hp⟩

/-- Only a segment whose time has not come is left out. -/
theorem notDue {kcp : IKCPCB} {seg : IKCPSEG} (hnone : dueSegment kcp seg = none) :
    seg.xmit ≠ 0 ∧ itimediff kcp.current seg.resendts < 0 := by
  unfold dueSegment at hnone
  rw [Option.map_eq_none_iff] at hnone
  unfold scheduleSegment at hnone
  dsimp only at hnone
  by_cases hfirst : seg.xmit = 0
  · rw [if_pos hfirst] at hnone
    cases hnone
  rw [if_neg hfirst] at hnone
  by_cases htime : 0 ≤ itimediff kcp.current seg.resendts
  · rw [if_pos htime] at hnone
    cases hnone
  · exact ⟨hfirst, not_le.mp htime⟩

/-- A segment of the send buffer goes out in a flush, or stays as it is because
    its time has not come. -/
theorem flush_segment (h : Live e o) (clock ts : IUINT32) {seg : IKCPSEG}
    (hin : seg ∈ (afterMove (e.ticked clock ts).kcp).sndBuf) (hcmd : seg.cmd = ikcpCmdPush) :
    (e.ticked clock ts).flush.Shows
        (fun x => x.cmd = ikcpCmdPush ∧ x.sn.toNat = seg.sn.toNat) ∨
      seg ∈ (e.ticked clock ts).flush.kcp.sndBuf ∧ seg.xmit ≠ 0 ∧
        itimediff clock seg.resendts < 0 := by
  obtain ⟨n, hflush⟩ := @ikcpFlush_flushed (e.ticked clock ts).kcp rfl
  cases hdue : dueSegment (afterMove (e.ticked clock ts).kcp) seg with
  | some due =>
      left
      obtain ⟨-, hkind, -, hsn, -⟩ := dueSegment_sameContent hdue
      refine @flush_shows _ _ h clock ts due ?_ _ ⟨hkind.trans hcmd, by rw [hsn]⟩
      exact List.mem_append_right _ (List.mem_filterMap.mpr ⟨seg, hin, hdue⟩)
  | none =>
      right
      obtain ⟨hxmit, htime⟩ := notDue hdue
      have hcurrent := (afterMove_header (e.ticked clock ts).kcp).1
      rw [hcurrent] at htime
      refine ⟨?_, hxmit, htime⟩
      change seg ∈ (ikcpFlush (e.ticked clock ts).kcp).1.sndBuf
      rw [hflush.sndBuf]
      refine List.mem_map.mpr ⟨seg, hin, ?_⟩
      rw [hdue]
      rfl

/-! ## An unacknowledged fragment is sent again -/

theorem cmd_of_mem (h : Live e o) {seg : IKCPSEG} (hin : seg ∈ e.kcp.sndBuf) :
    seg.cmd = ikcpCmdPush := by
  obtain ⟨moved, -, -, -, hcopies⟩ := h.pair.here.account.moved
  obtain ⟨i, frag, -, -, hcmd, -⟩ := hcopies seg hin
  exact hcmd

theorem resend (h : Live e o) {i : Nat} (hi : i ∈ e.kcp.unacked) :
    ∃ e', Relation.ReflTransGen Driven e e' ∧ (Live e' o ∧ Later e e' ∧ Stays e e') ∧
      e'.Shows (fun x => x.cmd = ikcpCmdPush ∧ x.sn.toNat = i) := by
  obtain ⟨seg, hseg, rfl⟩ := IKCPCB.mem_unacked.mp hi
  have hcmd := h.cmd_of_mem hseg
  -- one flush: the segment goes out, or the buffer keeps it as it is
  have hone : ∀ (e' : Endpoint) (clock ts : IUINT32), Live e' o → Later e e' → Stays e e' →
      seg ∈ e'.kcp.sndBuf →
      (Live (e'.ticked clock ts).flush o ∧ Later e (e'.ticked clock ts).flush ∧
        Stays e (e'.ticked clock ts).flush) ∧
      ((e'.ticked clock ts).flush.Shows
          (fun x => x.cmd = ikcpCmdPush ∧ x.sn.toNat = seg.sn.toNat) ∨
        seg ∈ (e'.ticked clock ts).flush.kcp.sndBuf ∧ itimediff clock seg.resendts < 0) := by
    intro e' clock ts h' hlater hstays hin
    obtain ⟨hlive, hlater'⟩ := h'.flush clock ts
    have hstays' := hstays.trans h.nocwnd (stays_flush e' clock ts)
    refine ⟨⟨hlive, hlater.trans hlater', hstays'⟩, ?_⟩
    have hmem : seg ∈ (afterMove (e'.ticked clock ts).kcp).sndBuf := by
      obtain ⟨n, hflush⟩ := @ikcpFlush_flushed (e'.ticked clock ts).kcp rfl
      rw [hflush.buffer]
      exact List.mem_append_left _ hin
    exact (h'.flush_segment clock ts hmem hcmd).imp id (fun hleft => ⟨hleft.1, hleft.2.2⟩)
  obtain ⟨clock, ts, hforward, hupdate, hlater, hsoon⟩ := Endpoint.wake e h.interval
  have hfirst : Driven e (e.ticked clock ts).flush := ⟨clock, hforward, hupdate.symm⟩
  obtain ⟨hall, hshows | ⟨hleft, -⟩⟩ := hone e clock ts h (.refl e) (.refl e) hseg
  · exact ⟨_, .single hfirst, hall, hshows⟩
  · have hdriven := driven_until
      (I := fun e' => (Live e' o ∧ Later e e' ∧ Stays e e') ∧ seg ∈ e'.kcp.sndBuf)
      (P := fun e' => (Live e' o ∧ Later e e' ∧ Stays e e') ∧
        e'.Shows (fun x => x.cmd = ikcpCmdPush ∧ x.sn.toNat = seg.sn.toNat))
      seg.resendts (fun e' h' => h'.1.1.interval) ?_ _ ⟨⟨hall, hleft⟩, .of_flush hlater hsoon⟩
    · obtain ⟨e', hruns, hlast⟩ := hdriven
      exact ⟨e', .head hfirst hruns, hlast⟩
    · rintro e' ts' ⟨⟨h', hlater', hstays'⟩, hin⟩ - - -
      obtain ⟨hall', hshows | hleft'⟩ := hone e' (e'.kcp.current + 10) ts' h' hlater' hstays' hin
      · exact Or.inl ⟨hall', hshows⟩
      · exact Or.inr ⟨⟨hall', hleft'.1⟩, hleft'.2⟩

/-! ## A closed window is probed -/

theorem probe_or_send (probe : IUINT32) : (probe ||| ikcpAskSend) &&& ikcpAskSend ≠ 0 := by
  have habsorb : (probe ||| ikcpAskSend) &&& ikcpAskSend = ikcpAskSend := by
    ext i hi
    simp only [BitVec.getElem_and, BitVec.getElem_or]
    cases ikcpAskSend[i] <;> simp
  rw [habsorb]
  decide

/-- A flush with no window to send into asks for one, or its time has not come. -/
theorem flush_probe (h : Live e o) (hzero : e.kcp.rmtWnd = 0) (clock ts : IUINT32) :
    (e.ticked clock ts).flush.Shows (fun x => x.cmd = ikcpCmdWask) ∨
      (e.ticked clock ts).flush.kcp.probeWait ≠ 0 ∧
        (e.kcp.probeWait ≠ 0 → (e.ticked clock ts).flush.kcp.tsProbe = e.kcp.tsProbe ∧
          itimediff clock e.kcp.tsProbe < 0) := by
  obtain ⟨n, hflush⟩ := @ikcpFlush_flushed (e.ticked clock ts).kcp rfl
  have hwait : (e.ticked clock ts).flush.kcp.probeWait =
      (probeWindow (e.ticked clock ts).kcp).probeWait := hflush.probeWait
  have hts : (e.ticked clock ts).flush.kcp.tsProbe =
      (probeWindow (e.ticked clock ts).kcp).tsProbe := hflush.tsProbe
  have hwnd : (e.ticked clock ts).kcp.rmtWnd = 0 := hzero
  have hwait₀ : (e.ticked clock ts).kcp.probeWait = e.kcp.probeWait := rfl
  by_cases hfirst : e.kcp.probeWait = 0
  · -- the first flush with the window closed sets the timer
    right
    rw [hwait, probeWindow, if_pos hwnd, hwait₀, if_pos hfirst]
    exact ⟨show ikcpProbeInit ≠ 0 by decide, fun hne => absurd hfirst hne⟩
  · by_cases htime : 0 ≤ itimediff clock e.kcp.tsProbe
    · left
      have hask : (probeWindow (e.ticked clock ts).kcp).probe &&& ikcpAskSend ≠ 0 := by
        rw [probeWindow, if_pos hwnd, hwait₀, if_neg hfirst]
        rw [if_pos (show 0 ≤ itimediff (e.ticked clock ts).kcp.current
          (e.ticked clock ts).kcp.tsProbe from htime)]
        exact probe_or_send _
      have hin : flushHeader (probeWindow (e.ticked clock ts).kcp) ikcpCmdWask
          ((probeWindow (e.ticked clock ts).kcp).acklist.getLast?.getD (0, 0)).1
          ((probeWindow (e.ticked clock ts).kcp).acklist.getLast?.getD (0, 0)).2 ∈
            flushedSegments (e.ticked clock ts).kcp := ?_
      · exact h.flush_shows clock ts hin rfl
      rw [flushedSegments, List.mem_append, List.mem_append]
      refine Or.inl (Or.inr ?_)
      rw [probeSegments, if_pos hask]
      exact List.mem_append_left _ (List.mem_singleton_self _)
    · right
      have hsame : probeWindow (e.ticked clock ts).kcp = (e.ticked clock ts).kcp := by
        rw [probeWindow, if_pos hwnd, hwait₀, if_neg hfirst]
        rw [if_neg (show ¬ 0 ≤ itimediff (e.ticked clock ts).kcp.current
          (e.ticked clock ts).kcp.tsProbe from htime)]
      rw [hwait, hts, hsame]
      exact ⟨hfirst, fun _ => ⟨rfl, not_le.mp htime⟩⟩

theorem probe (h : Live e o) (hzero : e.kcp.rmtWnd = 0) :
    ∃ e', Relation.ReflTransGen Driven e e' ∧ (Live e' o ∧ Later e e' ∧ Stays e e') ∧
      e'.Shows (fun x => x.cmd = ikcpCmdWask) := by
  have hone : ∀ (e' : Endpoint) (clock ts : IUINT32), Live e' o → Later e e' → Stays e e' →
      Live (e'.ticked clock ts).flush o ∧ Later e (e'.ticked clock ts).flush ∧
        Stays e (e'.ticked clock ts).flush := by
    intro e' clock ts h' hlater hstays
    obtain ⟨hlive, hlater'⟩ := h'.flush clock ts
    exact ⟨hlive, hlater.trans hlater', hstays.trans h.nocwnd (stays_flush e' clock ts)⟩
  obtain ⟨clock, ts, hforward, hupdate, hlater, hsoon⟩ := Endpoint.wake e h.interval
  have hfirst : Driven e (e.ticked clock ts).flush := ⟨clock, hforward, hupdate.symm⟩
  have hall := hone e clock ts h (.refl e) (.refl e)
  rcases h.flush_probe hzero clock ts with hshows | ⟨hwait, -⟩
  · exact ⟨_, .single hfirst, hall, hshows⟩
  · have hdriven := driven_until
      (I := fun e' => (Live e' o ∧ Later e e' ∧ Stays e e') ∧ e'.kcp.probeWait ≠ 0 ∧
        e'.kcp.tsProbe = (e.ticked clock ts).flush.kcp.tsProbe)
      (P := fun e' => (Live e' o ∧ Later e e' ∧ Stays e e') ∧
        e'.Shows (fun x => x.cmd = ikcpCmdWask))
      (e.ticked clock ts).flush.kcp.tsProbe (fun e' h' => h'.1.1.interval) ?_ _
      ⟨⟨hall, hwait, rfl⟩, .of_flush hlater hsoon⟩
    · obtain ⟨e', hruns, hlast⟩ := hdriven
      exact ⟨e', .head hfirst hruns, hlast⟩
    · rintro e' ts' ⟨⟨h', hlater', hstays'⟩, hwait', hsame⟩ - - -
      have hall' := hone e' (e'.kcp.current + 10) ts' h' hlater' hstays'
      have hzero' : e'.kcp.rmtWnd = 0 := hstays'.rmtWnd.trans hzero
      rcases h'.flush_probe hzero' (e'.kcp.current + 10) ts' with hshows | ⟨hwait'', hrest⟩
      · exact Or.inl ⟨hall', hshows⟩
      · obtain ⟨hts, htime⟩ := hrest hwait'
        rw [hsame] at hts htime
        exact Or.inr ⟨⟨hall', hwait'', hts⟩, htime⟩

/-! ## What is asked for is answered, what fits is sent -/

theorem probe_probeWindow (kcp : IKCPCB) :
    (probeWindow kcp).probe = kcp.probe ∨ (probeWindow kcp).probe = kcp.probe ||| ikcpAskSend := by
  unfold probeWindow
  by_cases hzero : kcp.rmtWnd = 0
  · rw [if_pos hzero]
    by_cases hfirst : kcp.probeWait = 0
    · rw [if_pos hfirst]
      exact Or.inl rfl
    rw [if_neg hfirst]
    by_cases hdue : 0 ≤ itimediff kcp.current kcp.tsProbe
    · rw [if_pos hdue]
      exact Or.inr rfl
    · rw [if_neg hdue]
      exact Or.inl rfl
  · rw [if_neg hzero]
    exact Or.inl rfl

theorem or_send_tell (probe : IUINT32) :
    (probe ||| ikcpAskSend) &&& ikcpAskTell = probe &&& ikcpAskTell := by
  have hmasks : ikcpAskTell &&& ikcpAskSend = 0#32 := by decide
  rw [BitVec.and_comm, BitVec.and_or_distrib_left, hmasks, BitVec.or_zero, BitVec.and_comm]

/-- A flush with something to acknowledge, or asked for its window. -/
theorem answer_segment {kcp : IKCPCB}
    (hask : kcp.acklist ≠ [] ∨ kcp.probe &&& ikcpAskTell ≠ 0) :
    ∃ seg, seg ∈ flushedSegments kcp := by
  rcases hask with hacks | htell
  · obtain ⟨ack, rest, hlist⟩ := List.exists_cons_of_ne_nil hacks
    refine ⟨flushHeader kcp ikcpCmdAck ack.1 ack.2, ?_⟩
    rw [flushedSegments, ackSegments, hlist, List.map_cons]
    simp
  · -- asking for the peer's window does not take back the answer
    have hkeep : (probeWindow kcp).probe &&& ikcpAskTell ≠ 0 := by
      rcases probe_probeWindow kcp with hsame | hask
      · rw [hsame]
        exact htell
      · rw [hask, or_send_tell]
        exact htell
    refine ⟨flushHeader (probeWindow kcp) ikcpCmdWins
      ((probeWindow kcp).acklist.getLast?.getD (0, 0)).1
      ((probeWindow kcp).acklist.getLast?.getD (0, 0)).2, ?_⟩
    rw [flushedSegments, probeSegments, if_pos hkeep]
    simp

/-- **The answer shows the window and what is expected next.** -/
theorem answer (h : Live e o)
    (hask : e.kcp.acklist ≠ [] ∨ e.kcp.probe &&& ikcpAskTell ≠ 0) :
    ∃ e', Relation.ReflTransGen Driven e e' ∧ (Live e' o ∧ Later e e' ∧ Stays e e') ∧
      ∃ group, group ≠ [] ∧ wireAll group ∈ e'.output ∧ (∀ x ∈ group, e'.Genuine x) ∧
        ∀ x ∈ group, x.una = e.kcp.rcvNxt ∧ x.wnd = ikcpWndUnused e.kcp := by
  obtain ⟨clock, ts, hforward, hupdate, -, -⟩ := Endpoint.wake e h.interval
  obtain ⟨hlive, hlater⟩ := h.flush clock ts
  obtain ⟨seg, hin⟩ := answer_segment (show (e.ticked clock ts).kcp.acklist ≠ [] ∨
    (e.ticked clock ts).kcp.probe &&& ikcpAskTell ≠ 0 from hask)
  obtain ⟨group, hsent, hseg, hall⟩ := h.flush_group clock ts hin
  refine ⟨_, .single ⟨clock, hforward, hupdate.symm⟩, ⟨hlive, hlater, stays_flush e clock ts⟩,
    group, List.ne_nil_of_mem hseg, hsent, fun x hx => (hall x hx).2, ?_⟩
  intro x hx
  obtain ⟨huna, hwnd⟩ := flushedSegments_header (hall x hx).1
  have hsame : ikcpWndUnused (e.ticked clock ts).kcp = ikcpWndUnused e.kcp := by
    unfold ikcpWndUnused
    rfl
  exact ⟨huna, hwnd.trans hsame⟩

/-- **A segment the window has room for goes out.** -/
theorem sendNext (h : Live e o) (hmore : e.kcp.sndQueue ≠ []) (hopen : ¬ e.kcp.WindowFull) :
    ∃ e', Relation.ReflTransGen Driven e e' ∧ (Live e' o ∧ Later e e' ∧ Stays e e') ∧
      e'.Shows (fun x => x.cmd = ikcpCmdPush ∧ x.sn.toNat = e.kcp.sndNxt.toNat) := by
  obtain ⟨clock, ts, hforward, hupdate, -, -⟩ := Endpoint.wake e h.interval
  obtain ⟨hlive, hlater⟩ := h.flush clock ts
  refine ⟨_, .single ⟨clock, hforward, hupdate.symm⟩, ⟨hlive, hlater, stays_flush e clock ts⟩, ?_⟩
  obtain ⟨n, hflush⟩ := @ikcpFlush_flushed (e.ticked clock ts).kcp rfl
  obtain ⟨seg, rest, hqueue⟩ := List.exists_cons_of_ne_nil hmore
  have hqueue' : (e.ticked clock ts).kcp.sndQueue = seg :: rest := hqueue
  -- at least the first segment of the queue moves to the buffer
  obtain ⟨k, rfl⟩ : ∃ k, n = k + 1 := by
    cases n with
    | succ k => exact ⟨k, rfl⟩
    | zero =>
        exfalso
        rcases hflush.full with hzero | hfull
        · rw [hqueue', List.length_cons] at hzero
          omega
        · rw [BitVec.add_zero] at hfull
          exact hopen hfull
  have hin : stampSegment (e.ticked clock ts).kcp e.kcp.sndNxt seg ∈
      (afterMove (e.ticked clock ts).kcp).sndBuf := by
    rw [hflush.buffer, hqueue', List.take_succ_cons, List.mapIdx_cons, BitVec.add_zero]
    exact List.mem_append_right _ (List.mem_cons_self ..)
  rcases h.flush_segment clock ts hin rfl with hshows | ⟨-, hxmit, -⟩
  · exact hshows
  · exact absurd rfl hxmit

end Live

end Kcp
end UdpSpeed
