/-
  UdpSpeed.Tunnel.ServerTimer

  What `onUpdateKcpTimer` drives: the sessions in the map, and not the control
  session, whose responses stay in the queue of its KCP object.
-/

import UdpSpeed.Server.Routing
import UdpSpeed.Tunnel.ProxyTimer

namespace UdpSpeed

open Kcp Control Muduo Std

/-! ## The record of a run -/

namespace Server

/-- The server, with the clock of its last tick and the messages `ikcp_send`
    accepted on each session object. -/
structure Timed where
  server : KcpServer
  last : Option IUINT32
  accepted : SessRef → List (List Byte)

namespace Timed

/-- The messages accepted so far, after an event: `onMessage` asserts that KCP
    takes what it is given. -/
def note (t : Timed) : Event → SessRef → List (List Byte)
  | .message c data => fun ref => if ref = c then t.accepted ref ++ [data] else t.accepted ref
  | .control msg _ _ => fun ref =>
      if readCmd msg = cmdCreateSession ∧ ref = t.server.nextRef then [] else t.accepted ref
  | _ => t.accepted

/-- The clock of the last tick, after an event. -/
def tick (t : Timed) : Event → Option IUINT32
  | .updateTimer clock => some clock
  | _ => t.last

/-- `CLOCK_MONOTONIC` does not go back. -/
def admissible (t : Timed) : Event → Bool
  | .updateTimer clock => notBefore t.last clock
  | _ => true

/-- The server's step, with the records. -/
def step (t : Timed) (e : Event) : Option Timed :=
  (t.server.step e).map (fun s => { server := s, last := t.tick e, accepted := t.note e })

/-- A server that has just started. -/
def create (id : IUINT32) : Timed where
  server := .create id
  last := none
  accepted := fun _ => []

/-- The datagrams passed to `sendto`, without their addresses. -/
def wires (s : KcpServer) : List (List Byte) := s.hist.datagrams.map Prod.snd

/-- A tick one interval after the last one leaves everything sent that the
    windows allow, on the control session and on every session in the map. -/
def DrivesAll (t : Timed) : Event → Prop
  | .updateTimer clock => intervalPassed t.last clock →
      Transmitted (t.server.onUpdateKcpTimer clock).controlSess.kcp t.server.hist.ctlSent
          (wires (t.server.onUpdateKcpTimer clock)) ∧
        ∀ (id : IUINT32) (ref : SessRef) (sess : KcpServerSession),
          (t.server.onUpdateKcpTimer clock).sessionMap[id]? = some ref →
          (t.server.onUpdateKcpTimer clock).sessions[ref]? = some sess →
            Transmitted sess.kcp (t.accepted ref) (wires (t.server.onUpdateKcpTimer clock))
  | _ => True

/-- At a tick no control message has been given to `sendMsg`, or the peer has
    closed the control session's window. -/
def ControlIdle (t : Timed) : Event → Prop
  | .updateTimer clock => intervalPassed t.last clock →
      t.server.hist.ctlSent = [] ∨ t.server.controlSess.kcp.rmtWnd = 0
  | _ => True

/-- What the account says of each session object; those in the map keep the
    pace of the timer. -/
def Accounts (s : KcpServer) (accepted : SessRef → List (List Byte)) (last : Option IUINT32) :
    Prop :=
  ∀ (ref : SessRef) (sess : KcpServerSession), s.sessions[ref]? = some sess →
    SendInv sess.kcp (accepted ref) (wires s) ∧
      (s.sessionMap[sess.conv]? = some ref → Paced last sess.kcp)

/-- What holds between two events. -/
structure TimedInv (t : Timed) : Prop where
  heap : KcpServer.HeapInv t.server
  control : Silent t.server.controlSess.kcp t.server.hist.ctlSent
  sessions : Accounts t.server t.accepted t.last

theorem TimedInv.create (id : IUINT32) : TimedInv (Timed.create id) where
  heap := .create id
  control := silent_freshKcp 0
  sessions := by
    intro ref sess hs
    simp [Timed.create, KcpServer.create] at hs

/-! ## The other events -/

/-- An event that touches no KCP object of a session. -/
theorem Accounts.same {s s' : KcpServer} {accepted : SessRef → List (List Byte)}
    {last : Option IUINT32} (h : Accounts s accepted last)
    (hsess : ∀ (ref : SessRef) (sess' : KcpServerSession), s'.sessions[ref]? = some sess' →
      ∃ sess, s.sessions[ref]? = some sess ∧ sess'.kcp = sess.kcp)
    (hmap : ∀ (id : IUINT32) (ref : SessRef), s'.sessionMap[id]? = some ref →
      s.sessionMap[id]? = some ref)
    (hsent : ∃ more, wires s' = wires s ++ more) : Accounts s' accepted last := by
  intro ref sess' hs'
  obtain ⟨sess, hs, hkcp⟩ := hsess ref sess' hs'
  obtain ⟨hinv, hpaced⟩ := h ref sess hs
  obtain ⟨more, hmore⟩ := hsent
  rw [KcpServerSession.conv, hkcp, hmore]
  exact ⟨hinv.mono more, fun hin => hpaced (hmap _ _ hin)⟩

/-- An event that changes the session at `c`. -/
theorem Accounts.write {s s' : KcpServer} {accepted accepted' : SessRef → List (List Byte)}
    {last : Option IUINT32} (h : Accounts s accepted last) {c : SessRef} {sess₁ : KcpServerSession}
    (hsess : ∀ ref : SessRef, s'.sessions[ref]? = (s.setSess c sess₁).sessions[ref]?)
    (hmap : ∀ (id : IUINT32) (ref : SessRef), ref ≠ c → s'.sessionMap[id]? = some ref →
      s.sessionMap[id]? = some ref)
    (hsent : wires s' = wires s) (hrest : ∀ ref, ref ≠ c → accepted' ref = accepted ref)
    (hnew : SendInv sess₁.kcp (accepted' c) (wires s) ∧
      (s'.sessionMap[sess₁.conv]? = some c → Paced last sess₁.kcp)) :
    Accounts s' accepted' last := by
  intro ref sess' hs'
  rw [hsess, KcpServer.sessions_setSess] at hs'
  rw [hsent]
  split_ifs at hs' with hc
  · subst hc
    obtain rfl := Option.some.inj hs'
    exact hnew
  · have hne : ref ≠ c := fun heq => hc heq.symm
    obtain ⟨hinv, hpaced⟩ := h ref sess' hs'
    rw [hrest ref hne]
    exact ⟨hinv, fun hin => hpaced (hmap _ _ hne hin)⟩

/-- A session written back with the same KCP object. -/
theorem Accounts.rewrite {s s' : KcpServer} {accepted : SessRef → List (List Byte)}
    {last : Option IUINT32} (h : Accounts s accepted last) {c : SessRef}
    {sess sess₁ : KcpServerSession} (hs : s.sessions[c]? = some sess)
    (hkcp : sess₁.kcp = sess.kcp)
    (hsess : ∀ ref : SessRef, s'.sessions[ref]? = (s.setSess c sess₁).sessions[ref]?)
    (hmap : s'.sessionMap = s.sessionMap) (hsent : wires s' = wires s) :
    Accounts s' accepted last := by
  refine h.write hsess (fun _ _ _ hin => hmap ▸ hin) hsent (fun _ _ => rfl) ?_
  obtain ⟨hinv, hpaced⟩ := h c sess hs
  rw [KcpServerSession.conv, hkcp, hmap]
  exact ⟨hinv, hpaced⟩

theorem Accounts.datagram {s s' : KcpServer} {accepted : SessRef → List (List Byte)}
    {last : Option IUINT32} (h : Accounts s accepted last) {bytes : List Byte} {remote : SockAddr}
    {now : Int} (hok : s.onUdpTunnelReadable bytes remote now = .ok s') :
    Accounts s' accepted last := by
  rw [KcpServer.onUdpTunnelReadable, KcpServer.dispatchKcpPacket_eq] at hok
  cases hroute : s.route (bytes.take 4096) with
  | dropped =>
      rw [hroute] at hok
      obtain rfl := Except.ok.inj hok
      exact h
  | control =>
      -- whatever `parseMsg` returns, there is no command to handle
      rw [hroute, KcpServer.deliver] at hok
      obtain ⟨ret, ctl, hparse⟩ | ⟨e, hparse⟩ := s.controlSess.parseMsg_cases (bytes.take 4096)
      · rw [hparse] at hok
        obtain rfl := Except.ok.inj hok
        exact h
      · rw [hparse] at hok
        cases hok
  | session c =>
      rw [hroute, KcpServer.deliver, KcpServer.onSession] at hok
      cases hs : s.sessions[c]? with
      | none =>
          rw [hs] at hok
          obtain rfl := Except.ok.inj hok
          exact h
      | some sess =>
          rw [hs] at hok
          obtain rfl := Except.ok.inj hok
          refine h.write (fun _ => rfl) (fun _ _ _ hin => hin) rfl (fun _ _ => rfl) ?_
          obtain ⟨hinv, hpaced⟩ := h c sess hs
          have hframe := sndFrame_receiveOnce sess.kcp (bytes.take 4096)
          rw [KcpServerSession.conv, KcpServerSession.recvFromTunnel_kcp, IKCPCB.conv, hframe.cfg]
          exact ⟨hinv.frame hframe, fun hin => (hpaced hin).frame hframe⟩

theorem Accounts.message {s s' : KcpServer} {accepted accepted' : SessRef → List (List Byte)}
    {last : Option IUINT32} (h : Accounts s accepted last) {c : SessRef} {data : List Byte}
    (hacc : accepted' c = accepted c ++ [data])
    (hrest : ∀ ref, ref ≠ c → accepted' ref = accepted ref)
    {sess : KcpServerSession} (hs : s.sessions[c]? = some sess)
    (hok : s.onMessage c sess data = .ok s') : Accounts s' accepted' last := by
  unfold KcpServer.onMessage KcpServerSession.onMessage at hok
  dsimp only at hok
  -- `assert(sendRet == 0)` held
  split_ifs at hok with hret
  obtain rfl := Except.ok.inj hok
  refine h.write (fun _ => rfl) (fun _ _ _ hin => hin) rfl hrest ?_
  obtain ⟨hinv, hpaced⟩ := h c sess hs
  have hsend := hinv.ikcpSend data
  rw [if_neg hret, ← hacc] at hsend
  obtain ⟨queue, hframe⟩ := ikcpSend_frame sess.kcp data
  dsimp only [KcpServerSession.conv]
  rw [hframe] at hsend ⊢
  exact ⟨hsend, hpaced⟩

theorem Accounts.handleCreate {s : KcpServer} {accepted accepted' : SessRef → List (List Byte)}
    {last : Option IUINT32} (h : Accounts s accepted last) (remote : SockAddr) (now : Int)
    (hacc : accepted' s.nextRef = [])
    (hrest : ∀ ref, ref ≠ s.nextRef → accepted' ref = accepted ref) :
    Accounts (s.handleCreate remote now) accepted' last := by
  have hsess : ∀ ref : SessRef, (s.handleCreate remote now).sessions[ref]? =
      (s.setSess s.nextRef ((KcpServerSession.create (KcpServer.newId s.id).1 remote
        now).connectSvr .onSessionConnectionLost)).sessions[ref]? := by
    intro ref
    rw [KcpServer.sessions_handleCreate, KcpServer.sessions_setSess]
  refine h.write hsess ?_ rfl hrest ?_
  · intro id ref hne hin
    rw [KcpServer.sessionMap_handleCreate] at hin
    split_ifs at hin
    · exact absurd (Option.some.inj hin).symm hne
    · exact hin
  · rw [hacc]
    refine ⟨sendInv_freshKcp _ _, fun _ hup => ?_⟩
    -- a new object has not been updated yet
    cases hup

/-- Any event but a tick. -/
theorem TimedInv.accounts_local {t : Timed} (h : TimedInv t) {e : Event} {s' : KcpServer}
    (hen : t.server.enabled e) (hok : t.server.handle e = .ok s')
    (hnot : ∀ clock, e ≠ .updateTimer clock) : Accounts s' (t.note e) t.last := by
  have hsess := h.sessions
  -- the two kinds of event that reach a KCP object
  by_cases hdatagram : ∃ bytes remote now, e = .datagram bytes remote now
  · obtain ⟨bytes, remote, now, rfl⟩ := hdatagram
    exact hsess.datagram hok
  by_cases hmessage : ∃ c data, e = .message c data
  · obtain ⟨c, data, rfl⟩ := hmessage
    simp only [KcpServer.enabled, Bool.and_eq_true] at hen
    obtain ⟨sess, hs, -, hf⟩ := KcpServer.onSession_eq_ok hen.1 hok
    refine hsess.message ?_ ?_ hs hf
    · simp only [note, if_true]
    · intro ref href
      simp only [note, if_neg href]
  have heff := h.heap.handle_effect hen hok
  cases heff with
  | ignored => exact absurd ⟨_, _, _, rfl⟩ hdatagram
  | controlDatagram hparse => exact absurd ⟨_, _, _, rfl⟩ hdatagram
  | quiet hmap hs hcfg => exact absurd ⟨_, _, _, rfl⟩ hdatagram
  | recv hmap hs hcfg hne => exact absurd ⟨_, _, _, rfl⟩ hdatagram
  | message hs hcfg => exact absurd ⟨_, _, rfl⟩ hmessage
  | create hcmd =>
      refine hsess.handleCreate _ _ ?_ ?_
      · simp [note, hcmd]
      · intro ref href
        simp [note, href]
  | @destroy msg remote now hcmd =>
      have hne : readCmd msg ≠ cmdCreateSession := by
        rw [hcmd]
        decide
      have hnote : t.note (.control msg remote now) = t.accepted := by
        funext ref
        simp only [note, hne, false_and, if_false]
      rw [hnote]
      obtain ⟨hmap, -, hhist, -⟩ := KcpServer.handleDestroy_frame t.server (readId msg)
      refine hsess.same ?_ (fun _ _ hin => hmap ▸ hin) ⟨[], ?_⟩
      · intro ref sess' hs'
        rw [KcpServer.sessions_handleDestroy] at hs'
        split_ifs at hs'
        · obtain ⟨sess, hs, rfl⟩ := Option.map_eq_some_iff.mp hs'
          exact ⟨sess, hs, rfl⟩
        · exact ⟨sess', hs', rfl⟩
      · rw [wires, hhist, List.append_nil]
        rfl
  | @connected c sess hs hclient =>
      have hkcp : sess.onConnected.1.kcp = sess.kcp := rfl
      exact hsess.rewrite hs hkcp (fun _ => rfl) rfl rfl
  | @connectFailed c sess hs hclient =>
      have hkcp : { sess with client := some .idle }.kcp = sess.kcp := rfl
      exact hsess.rewrite hs hkcp (fun _ => rfl) rfl rfl
  | @checked c sess hs hclient =>
      have hkcp : { sess with checkPending := false }.kcp = sess.kcp := rfl
      exact hsess.rewrite hs hkcp (fun _ => rfl) rfl rfl
  | updateTimer ht => exact absurd rfl (hnot _)
  | deadSessionTimer =>
      refine hsess.same (fun _ sess' hs' => ⟨sess', hs', rfl⟩) ?_ ⟨[], (List.append_nil _).symm⟩
      intro id ref hin
      exact ((KcpServer.sessionMap_deadSessionTimer _ _ id ref).mp hin).1
  | @released c sess hs hfree =>
      refine hsess.same ?_ (fun _ _ hin => hin) ⟨_, List.map_append ..⟩
      intro ref sess' hs'
      change (t.server.sessions.erase c)[ref]? = some sess' at hs'
      rw [TreeMap.getElem?_erase] at hs'
      split_ifs at hs'
      exact ⟨sess', hs', rfl⟩

/-! ## A tick -/

/-- In the middle of a tick: each session in the map is still to be updated, or
    has been and keeps the pace of the new clock. -/
def Ticking (s : KcpServer) (accepted : SessRef → List (List Byte)) (last : Option IUINT32)
    (clock : IUINT32) (rest : List SessRef) : Prop :=
  ∀ (ref : SessRef) (sess : KcpServerSession), s.sessions[ref]? = some sess →
    SendInv sess.kcp (accepted ref) (wires s) ∧
      (s.sessionMap[sess.conv]? = some ref →
        (ref ∈ rest ∧ Paced last sess.kcp) ∨
          (Paced (some clock) sess.kcp ∧ (intervalPassed last clock → sess.kcp.QueueSent)))

/-- One turn of the loop. -/
theorem Ticking.updateKcp {s : KcpServer} {accepted : SessRef → List (List Byte)}
    {last : Option IUINT32} {clock : IUINT32} {c : SessRef} {rest : List SessRef}
    (h : Ticking s accepted last clock (c :: rest)) (hclock : notBefore last clock)
    {sess : KcpServerSession} (hs : s.sessions[c]? = some sess) :
    Ticking ((s.setSess c (sess.updateKcp clock).1).output sess.remoteAddr
      (sess.updateKcp clock).2) accepted last clock rest := by
  have hsent : wires ((s.setSess c (sess.updateKcp clock).1).output sess.remoteAddr
      (sess.updateKcp clock).2) = wires s ++ (ikcpUpdate sess.kcp clock).2 := by
    have hpeer : Prod.snd ∘ (sess.remoteAddr, ·) = (id : List Byte → List Byte) := rfl
    change (s.hist.datagrams ++ (ikcpUpdate sess.kcp clock).2.map (sess.remoteAddr, ·)).map
      Prod.snd = _
    rw [List.map_append, List.map_map, hpeer, List.map_id]
    rfl
  intro ref sess' hs'
  change (s.setSess c (sess.updateKcp clock).1).sessions[ref]? = some sess' at hs'
  rw [hsent]
  change _ ∧ (s.sessionMap[sess'.conv]? = some ref → _)
  rw [KcpServer.sessions_setSess] at hs'
  split_ifs at hs' with hc
  · subst hc
    obtain rfl := Option.some.inj hs'
    obtain ⟨hinv, hpace⟩ := h c sess hs
    have hconv : (sess.updateKcp clock).1.conv = sess.conv :=
      congrArg IKCPCFG.conv (ikcpUpdate_cfg sess.kcp clock)
    rw [hconv]
    refine ⟨hinv.ikcpUpdate clock, fun hin => Or.inr ?_⟩
    -- its turn now, or its second turn
    rcases hpace hin with ⟨-, hold⟩ | ⟨hnew, hdone⟩
    · obtain ⟨hpaced, hflushed⟩ := hold.ikcpUpdate hinv.cfg hclock
      exact ⟨hpaced, fun hpassed => hflushed (Or.inl hpassed)⟩
    · obtain ⟨hpaced, hflushed⟩ := hnew.ikcpUpdate hinv.cfg (notBefore_self clock)
      exact ⟨hpaced, fun hpassed => hflushed (Or.inr (hdone hpassed))⟩
  · obtain ⟨hinv, hpace⟩ := h ref sess' hs'
    refine ⟨hinv.mono _, fun hin => ?_⟩
    rcases hpace hin with ⟨hmem, hold⟩ | hnew
    · exact Or.inl ⟨(List.mem_cons.mp hmem).resolve_left (fun heq => hc heq.symm), hold⟩
    · exact Or.inr hnew

/-- The whole loop, by induction on the references left; every reference in the
    map has its object. -/
theorem Ticking.updateSessions {s : KcpServer} {accepted : SessRef → List (List Byte)}
    {last : Option IUINT32} {clock : IUINT32} {refs : List SessRef}
    (h : Ticking s accepted last clock refs) (hclock : notBefore last clock) :
    Ticking (s.updateSessions clock refs) accepted last clock [] := by
  induction refs generalizing s with
  | nil => exact h
  | cons c rest ih =>
      unfold KcpServer.updateSessions
      cases hs : s.sessions[c]? with
      | none =>
          refine ih ?_
          intro ref sess hsess
          obtain ⟨hinv, hpace⟩ := h ref sess hsess
          refine ⟨hinv, fun hin => ?_⟩
          rcases hpace hin with ⟨hmem, hold⟩ | hnew
          · refine Or.inl ⟨(List.mem_cons.mp hmem).resolve_left ?_, hold⟩
            rintro rfl
            rw [hs] at hsess
            cases hsess
          · exact Or.inr hnew
      | some sess => exact ih (h.updateKcp hclock hs)

/-- **After a tick** every session in the map keeps the pace of the new clock,
    and if an interval has passed only its window holds a segment back. -/
theorem TimedInv.ticked {t : Timed} (h : TimedInv t) {clock : IUINT32}
    (hclock : notBefore t.last clock) :
    Ticking (t.server.onUpdateKcpTimer clock) t.accepted t.last clock [] := by
  refine Ticking.updateSessions ?_ hclock
  intro ref sess hs
  obtain ⟨hinv, hpaced⟩ := h.sessions ref sess hs
  refine ⟨hinv, fun hin => Or.inl ⟨?_, hpaced hin⟩⟩
  exact List.mem_map.mpr ⟨(sess.conv, ref), TreeMap.mem_toList_iff_getElem?_eq_some.mpr hin, rfl⟩

theorem TimedInv.step {t t' : Timed} {e : Event} (h : TimedInv t)
    (hstep : EventSystem.restrict Timed.step admissible t e = some t') : TimedInv t' := by
  obtain ⟨hadm, hstep⟩ := EventSystem.restrict_eq_some.mp hstep
  obtain ⟨s', hs', rfl⟩ := Option.map_eq_some_iff.mp hstep
  obtain ⟨hen, hok⟩ := KcpServer.step_eq_some.mp hs'
  have heff := h.heap.handle_effect hen hok
  refine ⟨h.heap.effect heff, ?_, ?_⟩
  · have hsilent := h.control
    rcases heff.control_cases with ⟨hctl, hsent⟩ | ⟨id, hctl, hsent⟩ |
      ⟨_, _, _, _, -, hparse, hsent⟩
    · rw [hctl, hsent]
      exact hsilent
    · rw [hctl, hsent]
      exact hsilent.ikcpSend (by simp [rspMsg, htonlBytes])
    · rw [hsent]
      exact hsilent.frame (ControlSession.parseMsg_sndFrame hparse)
  · by_cases htimer : ∃ clock, e = .updateTimer clock
    · obtain ⟨clock, rfl⟩ := htimer
      obtain rfl := Except.ok.inj hok
      intro ref sess hs
      obtain ⟨hinv, hpace⟩ := h.ticked hadm ref sess hs
      refine ⟨hinv, fun hin => ?_⟩
      rcases hpace hin with ⟨hmem, -⟩ | ⟨hpaced, -⟩
      · cases hmem
      · exact hpaced
    · have hlast : t.tick e = t.last := by
        cases e with
        | updateTimer clock => exact absurd ⟨clock, rfl⟩ htimer
        | _ => rfl
      rw [hlast]
      exact h.accounts_local hen hok (fun clock heq => htimer ⟨clock, heq⟩)

theorem TimedInv.drivesAll_iff {t t' : Timed} {e : Event} (h : TimedInv t)
    (hstep : EventSystem.restrict Timed.step admissible t e = some t') :
    DrivesAll t e ↔ ControlIdle t e := by
  obtain ⟨hadm, -⟩ := EventSystem.restrict_eq_some.mp hstep
  cases e with
  | updateTimer clock =>
      have htouch := KcpServer.touch_updateSessions t.server clock
        (t.server.sessionMap.toList.map Prod.snd)
      change KcpServer.Touch t.server (t.server.onUpdateKcpTimer clock) at htouch
      refine forall_congr' fun hpassed => ?_
      rw [htouch.controlSess, h.control.transmitted_iff]
      refine and_iff_left ?_
      intro id ref sess hin hs
      obtain ⟨hinv, hpace⟩ := h.ticked hadm ref sess hs
      -- the map has the session under its own id
      have hid : (t.server.onUpdateKcpTimer clock).sessionMap[sess.conv]? = some ref := by
        obtain ⟨sess₀, hs₀, hid⟩ := (h.heap.touch htouch).stored id ref hin
        obtain rfl := Option.some.inj (hs.symm.trans hs₀)
        rwa [hid]
      rcases hpace hid with ⟨hmem, -⟩ | ⟨-, hsent⟩
      · cases hmem
      · exact hinv.transmitted (hsent hpassed)
  | _ => exact Iff.rfl

end Timed
end Server

/-! ## Both processes -/

namespace Tunnel

/-- **When the timers drive every KCP object.**  Along any run of either process
    with a clock that does not go back, every tick at least one interval after
    the last one leaves everything sent that the windows allow, if and only if at
    each such tick no control message has been given to `sendMsg` or the control
    session's window is closed. -/
theorem drivesAll_run_iff (proxyEvents : List Proxy.Event) (id : IUINT32)
    (serverEvents : List Server.Event) :
    (EventSystem.EachStep (EventSystem.restrict Proxy.Timed.step Proxy.Timed.admissible)
        Proxy.Timed.DrivesAll Proxy.Timed.create proxyEvents ↔
      EventSystem.EachStep (EventSystem.restrict Proxy.Timed.step Proxy.Timed.admissible)
        Proxy.Timed.ControlIdle Proxy.Timed.create proxyEvents) ∧
    (EventSystem.EachStep (EventSystem.restrict Server.Timed.step Server.Timed.admissible)
        Server.Timed.DrivesAll (Server.Timed.create id) serverEvents ↔
      EventSystem.EachStep (EventSystem.restrict Server.Timed.step Server.Timed.admissible)
        Server.Timed.ControlIdle (Server.Timed.create id) serverEvents) := by
  constructor
  · exact EventSystem.eachStep_congr (fun _ _ _ h hstep => h.step hstep)
      (fun _ _ _ h hstep => h.drivesAll_iff hstep) Proxy.Timed.TimedInv.create proxyEvents
  · exact EventSystem.eachStep_congr (fun _ _ _ h hstep => h.step hstep)
      (fun _ _ _ h hstep => h.drivesAll_iff hstep) (Server.Timed.TimedInv.create id) serverEvents

/-- The first connection of a proxy and the first response of a server are still
    in the queue after the next tick. -/
theorem firstControlMsg_unsent :
    ¬ EventSystem.EachStep (EventSystem.restrict Proxy.Timed.step Proxy.Timed.admissible)
        Proxy.Timed.DrivesAll Proxy.Timed.create [.connUp, .timer 100] ∧
    ¬ EventSystem.EachStep (EventSystem.restrict Server.Timed.step Server.Timed.admissible)
        Server.Timed.DrivesAll (Server.Timed.create 0)
        [.control createMsg ⟨0x7f000001, 40000⟩ 0, .updateTimer 100] := by
  constructor
  · intro hall
    have hopen : ((EventSystem.run (EventSystem.restrict Proxy.Timed.step
        Proxy.Timed.admissible) Proxy.Timed.create [.connUp]).any (fun t =>
          (EventSystem.restrict Proxy.Timed.step Proxy.Timed.admissible t (.timer 100)).isSome ∧
            t.last = none ∧ t.proxy.hist.ctlSent ≠ [] ∧ t.proxy.controlSess.kcp.rmtWnd ≠ 0)) := by
      decide +kernel
    obtain ⟨t, hrun, hopen⟩ := (Option.any_eq_true _ _).mp hopen
    obtain ⟨htick, hlast, hsent, hwnd⟩ := of_decide_eq_true hopen
    obtain ⟨t', ht'⟩ := Option.isSome_iff_exists.mp htick
    have hinv : t.TimedInv :=
      EventSystem.run_invariant (fun _ _ _ h hstep => h.step hstep) .create hrun
    have hidle := (hinv.drivesAll_iff ht').mp (hall 1 t _ t' hrun rfl ht')
    rcases hidle (by rw [hlast]; rfl) with hnone | hclosed
    · exact hsent hnone
    · exact hwnd hclosed
  · intro hall
    have hopen : ((EventSystem.run (EventSystem.restrict Server.Timed.step
        Server.Timed.admissible) (Server.Timed.create 0)
          [.control createMsg ⟨0x7f000001, 40000⟩ 0]).any (fun t =>
            (EventSystem.restrict Server.Timed.step Server.Timed.admissible t
              (.updateTimer 100)).isSome ∧
            t.last = none ∧ t.server.hist.ctlSent ≠ [] ∧
              t.server.controlSess.kcp.rmtWnd ≠ 0)) := by
      decide +kernel
    obtain ⟨t, hrun, hopen⟩ := (Option.any_eq_true _ _).mp hopen
    obtain ⟨htick, hlast, hsent, hwnd⟩ := of_decide_eq_true hopen
    obtain ⟨t', ht'⟩ := Option.isSome_iff_exists.mp htick
    have hinv : t.TimedInv :=
      EventSystem.run_invariant (fun _ _ _ h hstep => h.step hstep) (.create 0) hrun
    have hidle := (hinv.drivesAll_iff ht').mp (hall 1 t _ t' hrun rfl ht')
    rcases hidle (by rw [hlast]; rfl) with hnone | hclosed
    · exact hsent hnone
    · exact hwnd hclosed

end Tunnel
end UdpSpeed
