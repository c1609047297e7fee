/-
  UdpSpeed.Server.Idle

  Which sessions `onCheckDeadSessionTimer` reaps.  `lastTunnelActiveTime_` is
  written when a payload comes out of the tunnel; what the session has heard
  from its peer is more than that: every datagram its KCP object accepts, also
  one with acknowledgements only.
-/

import UdpSpeed.Server.Routing

namespace UdpSpeed

open Kcp Control Muduo Std

namespace Server

/-! ## When a session was last heard of -/

/-- The server, and for each session object the latest of its creation and the
    datagrams its KCP object accepted. -/
structure Watched where
  server : KcpServer
  seen : SessRef → Int

namespace Watched

/-- The session whose KCP object accepts the datagram: `ikcp_input` returns
    `0`. -/
def acceptedBy (s : KcpServer) (packet : List Byte) (ref : SessRef) : Bool :=
  s.route packet = .session ref &&
    s.sessions[ref]?.any (fun sess => (ikcpInput sess.kcp packet).1 = 0)

/-- The times after an event. -/
def note (w : Watched) : Event → SessRef → Int
  | .datagram bytes _ now => fun ref =>
      if acceptedBy w.server (bytes.take 4096) ref then max (w.seen ref) now else w.seen ref
  | .control msg _ now => fun ref =>
      if readCmd msg = cmdCreateSession ∧ ref = w.server.nextRef then now else w.seen ref
  | _ => w.seen

/-- The server's step, with the times. -/
def step (w : Watched) (e : Event) : Option Watched :=
  (w.server.step e).map (fun s => { server := s, seen := w.note e })

/-- A server that has just started. -/
def create (id : IUINT32) : Watched where
  server := .create id
  seen := fun _ => 0

/-- More than an hour. -/
def overdue (now since : Int) : Bool := 3600 * 1000000 < now - since

/-- The idle timer takes exactly the sessions out of the map that have not been
    heard of for more than an hour, and changes no session. -/
def ReapsSilent (w : Watched) : Event → Prop
  | .deadSessionTimer now => ∃ s', w.server.handle (.deadSessionTimer now) = .ok s' ∧
      (∀ id : IUINT32, s'.sessionMap[id]? =
        (w.server.sessionMap[id]?).filter (fun ref => !overdue now (w.seen ref))) ∧
      ∀ ref : SessRef, s'.sessions[ref]? = w.server.sessions[ref]?
  | _ => True

/-- No session in the map has gone an hour without a payload while its KCP
    object accepted a datagram. -/
def PayloadsKeepUp (w : Watched) : Event → Prop
  | .deadSessionTimer now => ∀ (id : IUINT32) (ref : SessRef) (sess : KcpServerSession),
      w.server.sessionMap[id]? = some ref → w.server.sessions[ref]? = some sess →
        overdue now sess.lastTunnelActiveTime → overdue now (w.seen ref)
  | _ => True

/-! ## The stamp is never ahead -/

/-- The activity stamp of a session is one of the times it was heard of. -/
structure StampInv (w : Watched) : Prop where
  heap : KcpServer.HeapInv w.server
  stamp : ∀ (ref : SessRef) (sess : KcpServerSession), w.server.sessions[ref]? = some sess →
    sess.lastTunnelActiveTime ≤ w.seen ref

theorem StampInv.create (id : IUINT32) : StampInv (Watched.create id) := by
  refine ⟨.create id, ?_⟩
  intro ref sess hs
  simp [Watched.create, KcpServer.create] at hs

theorem ikcpInput_code (kcp : IKCPCB) (data : List Byte) :
    (ikcpInput kcp data).1 < 0 ∨ (ikcpInput kcp data).1 = 0 := by
  unfold ikcpInput
  dsimp only
  split_ifs with hshort hneg
  · exact Or.inl (show (-1 : Int) < 0 by decide)
  · exact Or.inl hneg
  · exact Or.inr rfl

/-- A payload only comes out of a datagram that was accepted. -/
theorem extractTunnelPayload_code {s : KcpServerSession} {input : List Byte}
    (h : (s.extractTunnelPayload input).2 ≠ []) : (ikcpInput s.kcp input).1 = 0 := by
  rcases ikcpInput_code s.kcp input with hneg | hzero
  · unfold KcpServerSession.extractTunnelPayload at h
    dsimp only at h
    rw [if_pos hneg] at h
    exact absurd rfl h
  · exact hzero

/-- `recvFromTunnel` sets the stamp to the present or leaves it. -/
theorem recvFromTunnel_stamp (s : KcpServerSession) (packet : List Byte) (now : Int) :
    (s.recvFromTunnel packet now).1.lastTunnelActiveTime = s.lastTunnelActiveTime ∨
      ((s.recvFromTunnel packet now).1.lastTunnelActiveTime = now ∧
        (ikcpInput s.kcp packet).1 = 0) := by
  obtain ⟨payload, hext⟩ := s.extractTunnelPayload_spec packet
  have hcode := @extractTunnelPayload_code s packet
  simp only [KcpServerSession.recvFromTunnel, hext] at hcode ⊢
  by_cases hnil : payload = []
  · rw [if_pos hnil]
    exact Or.inl rfl
  · rw [if_neg hnil]
    refine Or.inr ⟨?_, hcode hnil⟩
    -- the stamp comes before the question what to do with the payload
    obtain ⟨payloads, htake⟩ :=
      { s with kcp := receiveOnce s.kcp packet }.takePayload_frame payload now
    rw [htake]

/-- A datagram moves a stamp only when it is noted. -/
theorem StampInv.datagram {w : Watched} (h : StampInv w) {bytes : List Byte} {remote : SockAddr}
    {now : Int} {s' : KcpServer}
    (hok : w.server.onUdpTunnelReadable bytes remote now = .ok s') (ref : SessRef)
    (sess' : KcpServerSession) (hs' : s'.sessions[ref]? = some sess') :
    sess'.lastTunnelActiveTime ≤ w.note (.datagram bytes remote now) ref := by
  have hmono : w.seen ref ≤ w.note (.datagram bytes remote now) ref := by
    simp only [note]
    split_ifs
    · exact le_max_left _ _
    · exact le_rfl
  rw [KcpServer.onUdpTunnelReadable, KcpServer.dispatchKcpPacket_eq] at hok
  cases hroute : w.server.route (bytes.take 4096) with
  | dropped =>
      rw [hroute] at hok
      obtain rfl := Except.ok.inj hok
      exact (h.stamp ref sess' hs').trans hmono
  | control =>
      -- whatever `parseMsg` returns, there is no command to handle
      rw [hroute, KcpServer.deliver] at hok
      obtain ⟨ret, ctl, hparse⟩ | ⟨e, hparse⟩ :=
        w.server.controlSess.parseMsg_cases (bytes.take 4096)
      · rw [hparse] at hok
        obtain rfl := Except.ok.inj hok
        exact (h.stamp ref sess' hs').trans hmono
      · rw [hparse] at hok
        cases hok
  | session r =>
      rw [hroute, KcpServer.deliver, KcpServer.onSession] at hok
      cases hs : w.server.sessions[r]? with
      | none =>
          rw [hs] at hok
          obtain rfl := Except.ok.inj hok
          exact (h.stamp ref sess' hs').trans hmono
      | some sess =>
          rw [hs] at hok
          obtain rfl := Except.ok.inj hok
          change (w.server.setSess r (sess.recvFromTunnel (bytes.take 4096) now).1).sessions[ref]?
            = some sess' at hs'
          rw [KcpServer.sessions_setSess] at hs'
          split_ifs at hs' with hr
          · subst hr
            obtain rfl := Option.some.inj hs'
            rcases recvFromTunnel_stamp sess (bytes.take 4096) now with hsame | ⟨hnow, hcode⟩
            · rw [hsame]
              exact (h.stamp r sess hs).trans hmono
            · -- the new stamp is the time just noted
              have haccepted : acceptedBy w.server (bytes.take 4096) r = true := by
                simp [acceptedBy, hroute, hs, hcode]
              rw [hnow]
              simp only [note, haccepted, if_true]
              exact le_max_right _ _
          · exact (h.stamp ref sess' hs').trans hmono

/-- Every other event leaves the stamps alone, or stamps a new session. -/
theorem StampInv.effect {w : Watched} (h : StampInv w) {e : Event} {s' : KcpServer}
    (hloc : ∀ bytes remote now, e ≠ .datagram bytes remote now)
    (heff : KcpServer.Effect w.server e s') (ref : SessRef) (sess' : KcpServerSession)
    (hs' : s'.sessions[ref]? = some sess') : sess'.lastTunnelActiveTime ≤ w.note e ref := by
  -- an object written back with the stamp it had
  have hset : ∀ {r : SessRef} {sess new : KcpServerSession}, w.server.sessions[r]? = some sess →
      (w.server.setSess r new).sessions[ref]? = some sess' →
      new.lastTunnelActiveTime = sess.lastTunnelActiveTime →
      sess'.lastTunnelActiveTime ≤ w.seen ref := by
    intro r sess new hs hx hstamp
    rw [KcpServer.sessions_setSess] at hx
    split_ifs at hx with hr
    · obtain rfl := Option.some.inj hx
      rw [hstamp]
      exact h.stamp ref sess (hr ▸ hs)
    · exact h.stamp ref sess' hx
  cases heff with
  | ignored => exact absurd rfl (hloc _ _ _)
  | controlDatagram hparse => exact absurd rfl (hloc _ _ _)
  | quiet hmap hs hcfg => exact absurd rfl (hloc _ _ _)
  | recv hmap hs hcfg hne => exact absurd rfl (hloc _ _ _)
  | create hcmd =>
      rw [KcpServer.sessions_handleCreate] at hs'
      simp only [note, hcmd, true_and]
      split_ifs at hs' with hr
      · obtain rfl := Option.some.inj hs'
        rw [if_pos hr.symm]
        exact le_rfl
      · rw [if_neg (fun heq => hr heq.symm)]
        exact h.stamp ref sess' hs'
  | @destroy msg _ _ hcmd =>
      have hne : readCmd msg ≠ cmdCreateSession := by
        rw [hcmd]
        decide
      simp only [note, hne, false_and, if_false]
      rw [KcpServer.sessions_handleDestroy] at hs'
      split_ifs at hs'
      · obtain ⟨sess, hs, rfl⟩ := Option.map_eq_some_iff.mp hs'
        exact h.stamp ref sess hs
      · exact h.stamp ref sess' hs'
  | connected hs hclient => exact hset hs hs' rfl
  | connectFailed hs hclient => exact hset hs hs' rfl
  | message hs hcfg => exact hset hs hs' rfl
  | checked hs hclient => exact hset hs hs' rfl
  | updateTimer ht =>
      obtain ⟨sess, kcp, hs, rfl, -⟩ := ht.of_sessions hs'
      exact h.stamp ref sess hs
  | deadSessionTimer => exact h.stamp ref sess' hs'
  | @released r sess₀ hs₀ hfree =>
      change (w.server.sessions.erase r)[ref]? = some sess' at hs'
      rw [TreeMap.getElem?_erase] at hs'
      split_ifs at hs'
      exact h.stamp ref sess' hs'

theorem StampInv.step {w w' : Watched} {e : Event} (h : StampInv w) (hstep : w.step e = some w') :
    StampInv w' := by
  obtain ⟨s', hs', rfl⟩ := Option.map_eq_some_iff.mp hstep
  obtain ⟨hen, hok⟩ := KcpServer.step_eq_some.mp hs'
  refine ⟨h.heap.step hs', ?_⟩
  intro ref sess hs
  by_cases hdatagram : ∃ bytes remote now, e = .datagram bytes remote now
  · obtain ⟨bytes, remote, now, rfl⟩ := hdatagram
    exact h.datagram hok ref sess hs
  · refine h.effect ?_ (h.heap.handle_effect hen hok) ref sess hs
    intro bytes remote now he
    exact hdatagram ⟨bytes, remote, now, he⟩

/-! ## The idle timer -/

theorem isIdle_eq_overdue (sess : KcpServerSession) (now : Int) :
    sess.isIdle now = overdue now sess.lastTunnelActiveTime := rfl

/-- An earlier time is overdue as soon as a later one is. -/
theorem overdue_mono {now since since' : Int} (hle : since ≤ since') (h : overdue now since') :
    overdue now since := by
  have hlt : 3600 * 1000000 < now - since' := of_decide_eq_true h
  exact decide_eq_true (by omega)

theorem StampInv.reapsSilent_iff {w : Watched} (h : StampInv w) (e : Event) :
    ReapsSilent w e ↔ PayloadsKeepUp w e := by
  cases e with
  | deadSessionTimer now =>
      constructor
      · rintro ⟨s', hok, hmap, -⟩ id ref sess hid hs hidle
        obtain rfl := Except.ok.inj hok
        by_contra hnot
        have hkeep := hmap id
        rw [hid, Option.filter_some, if_pos (by simpa using hnot)] at hkeep
        have hspared := ((KcpServer.sessionMap_deadSessionTimer w.server now id ref).mp hkeep).2
        rw [KcpServer.idleRef, hs, Option.any_some, isIdle_eq_overdue, hidle] at hspared
        cases hspared
      · intro hkeep
        refine ⟨_, rfl, ?_, fun _ => rfl⟩
        intro id
        apply Option.ext
        intro ref
        rw [KcpServer.sessionMap_deadSessionTimer, Option.filter_eq_some_iff]
        refine and_congr_right fun hid => ?_
        obtain ⟨sess, hs, -⟩ := h.heap.stored id ref hid
        have hidle : w.server.idleRef now ref = overdue now sess.lastTunnelActiveTime := by
          rw [KcpServer.idleRef, hs, Option.any_some, isIdle_eq_overdue]
        -- the stamp and the time last seen give the same answer
        have hsame : overdue now sess.lastTunnelActiveTime = overdue now (w.seen ref) := by
          rw [Bool.eq_iff_iff]
          exact ⟨hkeep id ref sess hid hs, overdue_mono (h.stamp ref sess hs)⟩
        rw [hidle, hsame, Bool.not_eq_true']
  | _ => exact Iff.rfl

/-- **Only silent sessions are reaped, and exactly when.**  Along any run, every
    idle timer reaps exactly the sessions not heard of for more than an hour if
    and only if at each of them no session in the map has gone that long without
    a payload while its KCP object accepted datagrams. -/
theorem reapsSilent_run_iff (id : IUINT32) (es : List Event) :
    EventSystem.EachEvent step ReapsSilent (create id) es ↔
      EventSystem.EachEvent step PayloadsKeepUp (create id) es := by
  refine EventSystem.eachEvent_congr (I := StampInv) ?_ ?_ (.create id) es
  · exact fun w e w' h hstep => h.step hstep
  · exact fun w e h => h.reapsSilent_iff e

/-- An acknowledgement and nothing else. -/
def ackOnly : IKCPSEG := { conv := 5, cmd := ikcpCmdAck, wnd := 128 }

/-- Session 5 is connected to D and only downloads: its peer acknowledges after
    50 minutes, and ten minutes later the session is gone. -/
theorem ackOnly_reaped :
    ∃ w, EventSystem.run step (create 5)
        (KcpServer.connectedRun ++ [.checkConnection 1,
          .datagram ackOnly.wire ⟨0x7f000001, 40000⟩ 3000000000]) = some w ∧
      w.server.sessionMap[(5 : IUINT32)]? = some 1 ∧ w.seen 1 = 3000000000 ∧
      (w.server.onCheckDeadSessionTimer 3600000001).sessionMap[(5 : IUINT32)]? = none ∧
      ¬ ReapsSilent w (.deadSessionTimer 3600000001) := by
  have hrun : (EventSystem.run step (create 5)
      (KcpServer.connectedRun ++ [.checkConnection 1,
        .datagram ackOnly.wire ⟨0x7f000001, 40000⟩ 3000000000])).map
        (fun w => (w.server.sessionMap[(5 : IUINT32)]?, w.seen 1,
          (w.server.onCheckDeadSessionTimer 3600000001).sessionMap[(5 : IUINT32)]?))
      = some (some 1, 3000000000, none) := by
    decide +kernel
  obtain ⟨w, hw, heq⟩ := Option.map_eq_some_iff.mp hrun
  obtain ⟨hmap, heq'⟩ := Prod.mk.inj heq
  obtain ⟨hseen, hgone⟩ := Prod.mk.inj heq'
  refine ⟨w, hw, hmap, hseen, hgone, ?_⟩
  rintro ⟨s', hok, hkeep, -⟩
  obtain rfl := Except.ok.inj hok
  have hstill := hkeep 5
  rw [hmap, Option.filter_some, hseen, if_pos (by decide)] at hstill
  rw [hgone] at hstill
  cases hstill

end Watched
end Server
end UdpSpeed
