/-
  UdpSpeed.Server.Objects

  The KCP objects of the server.  As on the proxy's side, every handler that
  touches one does so through the calls of the KCP interface, on the object of
  a single id.
-/

import UdpSpeed.Kcp.Calls
import UdpSpeed.Server.Streams

namespace UdpSpeed

open Kcp Control Muduo Std

namespace Server

/-! ## The calls of a session -/

namespace KcpServerSession

/-- What `recvFromTunnel` returns is what was read from KCP: a message it reads
    is not empty. -/
theorem recvFromTunnel_read (s : KcpServerSession) (packet : List Byte) (now : Int) :
    (s.recvFromTunnel packet now).2.1 = readOnce s.kcp packet := by
  unfold recvFromTunnel extractTunnelPayload readOnce
  dsimp only
  by_cases hbad : (ikcpInput s.kcp packet).1 < 0
  · rw [if_pos hbad, if_pos hbad]
    rfl
  rw [if_neg hbad, if_neg hbad]
  by_cases hnone : ikcpPeeksize (ikcpInput s.kcp packet).2 ≤ 0
  · rw [if_pos hnone, if_pos hnone]
    rfl
  rw [if_neg hnone, if_neg hnone]
  have hsome : 0 ≤ ikcpPeeksize (ikcpInput s.kcp packet).2 := by omega
  obtain ⟨hret, hread⟩ := ikcpRecv_peeksize hsome
  have hlen := ikcpPeeksize_eq_merged hsome
  rw [hret, if_neg hnone, hread]
  rw [if_neg]
  intro hempty
  have hzero : segBytes (headMessage (ikcpInput s.kcp packet).2.rcvQueue) = [] := hempty
  rw [hzero] at hlen
  exact hnone hlen.le

end KcpServerSession

namespace KcpServer

/-! ## The view -/

/-- The objects of the sessions, those that left the map included until they
    are released. -/
def view (s : KcpServer) : KcpView where
  holds id kcp := ∃ (ref : SessRef) (sess : KcpServerSession),
    s.sessions[ref]? = some sess ∧ sess.conv = id ∧ sess.kcp = kcp
  used id := id ∈ s.hist.issued
  accepted := s.hist.accepted
  received := s.hist.received
  datagrams := s.hist.datagrams.map Prod.snd

theorem datagrams_output (s : KcpServer) (peer : SockAddr) (out : List (List Byte)) :
    (s.output peer out).view.datagrams = s.view.datagrams ++ out := by
  change (s.hist.datagrams ++ out.map (peer, ·)).map Prod.snd = _
  rw [List.map_append, List.map_map]
  exact congrArg (s.view.datagrams ++ ·) (List.map_id out)

theorem hosts_create (id : IUINT32) : Hosts (KcpServer.create id).view Endpoint.create where
  held := by
    rintro id kcp - ⟨ref, sess, hs, -⟩
    simp [KcpServer.create] at hs
  unused := fun _ _ _ => rfl
  accepted := fun _ _ => rfl
  received := fun _ _ => rfl
  output := fun _ hin => absurd hin List.not_mem_nil
  sound := fun id _ => Endpoint.sound_create id

variable {s s' : KcpServer} {E : IUINT32 → Endpoint}

/-- The objects are those that were there, or fewer. -/
theorem noCall_of (hsess : ∀ (ref : SessRef) (sess' : KcpServerSession),
      s'.sessions[ref]? = some sess' →
        ∃ sess : KcpServerSession, s.sessions[ref]? = some sess ∧ sess'.kcp = sess.kcp)
    (hissued : s'.hist.issued = s.hist.issued) (hacc : s'.hist.accepted = s.hist.accepted)
    (hrec : s'.hist.received = s.hist.received)
    (hsent : s'.hist.datagrams = s.hist.datagrams) : NoCall s.view s'.view where
  held := by
    rintro id kcp - ⟨ref, sess', hs', hid, hkcp⟩
    obtain ⟨sess, hs, hsame⟩ := hsess ref sess' hs'
    refine ⟨ref, sess, hs, ?_, hsame.symm.trans hkcp⟩
    rw [← hid, KcpServerSession.conv, KcpServerSession.conv, hsame]
  keeps := by
    intro i hi
    change i ∈ s'.hist.issued
    rw [hissued]
    exact hi
  accepted := hacc
  received := hrec
  datagrams := congrArg (List.map Prod.snd) hsent

/-- Only objects of `id` are new, and they are that of `e'`. -/
theorem change_of {id : IUINT32} {e e' : Endpoint} (hused : id ∈ s'.hist.issued)
    (hissued : ∀ i ∈ s.hist.issued, i ∈ s'.hist.issued)
    (hsess : ∀ (ref : SessRef) (x : KcpServerSession), s'.sessions[ref]? = some x →
      (x.conv = id ∧ x.kcp = e'.kcp) ∨ (x.conv ≠ id ∧ s.sessions[ref]? = some x))
    (hacc : s'.hist.accepted = Function.update s.hist.accepted id e'.accepted)
    (hrec : s'.hist.received = Function.update s.hist.received id e'.received)
    (hsent : ∃ out, e'.output = e.output ++ out ∧
      s'.view.datagrams = s.view.datagrams ++ out) : Change s.view s'.view id e e' where
  used := hused
  keeps := hissued
  held := by
    rintro kcp ⟨ref, x, hx, hxid, hxkcp⟩
    rcases hsess ref x hx with ⟨-, hnew⟩ | ⟨hother, -⟩
    · exact hxkcp.symm.trans hnew
    · exact absurd hxid hother
  accepted := by
    change s'.hist.accepted id = _
    rw [hacc, Function.update_self]
  received := by
    change s'.hist.received id = _
    rw [hrec, Function.update_self]
  others := by
    intro i hi
    refine ⟨?_, ?_, ?_⟩
    · rintro kcp ⟨ref, x, hx, hxid, hxkcp⟩
      rcases hsess ref x hx with ⟨hnew, -⟩ | ⟨-, hold⟩
      · exact absurd (hxid.symm.trans hnew) hi
      · exact ⟨ref, x, hold, hxid, hxkcp⟩
    · change s'.hist.accepted i = _
      rw [hacc, Function.update_of_ne hi]
      rfl
    · change s'.hist.received i = _
      rw [hrec, Function.update_of_ne hi]
      rfl
  sent := hsent

/-! ## The events -/

/-- What an event may put into the objects: the datagram that came, at its id. -/
def taken (ev : Event) (id : IUINT32) (datagram : List Byte) : Prop :=
  ∃ bytes remote now, ev = .datagram bytes remote now ∧ datagram = bytes.take 4096 ∧
    ikcpGetconv datagram = id

variable {net : IUINT32 → List Byte → Prop}

/-- The object of a session is that of its id. -/
theorem object_of_sessions (hh : Hosts s.view E) {ref : SessRef} {sess : KcpServerSession}
    (hs : s.sessions[ref]? = some sess) (hne : sess.conv ≠ 0) : sess.kcp = (E sess.conv).kcp :=
  hh.held sess.conv sess.kcp hne ⟨ref, sess, hs, rfl, rfl⟩

/-- The object of the session at `ref` is called. -/
theorem serves_setSess (hstream : StreamInv s) (hh : Hosts s.view E) {ref : SessRef}
    {sess sess' : KcpServerSession} (hs : s.sessions[ref]? = some sess) (hne : sess.conv ≠ 0)
    (cs : List Call) (hin : ∀ datagram, .input datagram ∈ cs → net sess.conv datagram)
    (hkcp : sess'.kcp = ((E sess.conv).calls cs).kcp)
    (hview : ∀ r : SessRef, s'.sessions[r]? = (s.setSess ref sess').sessions[r]?)
    (hissued : s'.hist.issued = s.hist.issued)
    (hacc : s'.hist.accepted =
      Function.update s.hist.accepted sess.conv ((E sess.conv).calls cs).accepted)
    (hrec : s'.hist.received =
      Function.update s.hist.received sess.conv ((E sess.conv).calls cs).received)
    (hsent : ∃ out, ((E sess.conv).calls cs).output = (E sess.conv).output ++ out ∧
      s'.view.datagrams = s.view.datagrams ++ out) :
    ∃ E', Serves net E E' ∧ Hosts s'.view E' := by
  refine hh.serve hne cs hin (change_of ?_ ?_ ?_ hacc hrec hsent)
  · rw [hissued]
    exact hstream.issued ref sess hs
  · rw [hissued]
    exact fun _ h => h
  · intro r x hx
    rw [hview, sessions_setSess] at hx
    split_ifs at hx with hr
    · obtain rfl := Option.some.inj hx
      refine Or.inl ⟨?_, hkcp⟩
      rw [KcpServerSession.conv, hkcp]
      exact ((hh.sound sess.conv hne).calls cs).conv
    · exact Or.inr ⟨fun hc => hr (hstream.unique ref r sess x hs hx hc.symm), hx⟩

/-- A datagram for a session in the map. -/
theorem serves_tunnelRecv (hstream : StreamInv s) (hh : Hosts s.view E) {ref : SessRef}
    {sess : KcpServerSession} (hs : s.sessions[ref]? = some sess) (hne : sess.conv ≠ 0)
    {packet : List Byte} (hnet : net sess.conv packet) (now : Int) :
    ∃ E', Serves net E E' ∧ Hosts (s.tunnelRecv ref sess packet now).view E' := by
  have hkcp := object_of_sessions hh hs hne
  have hacc : s.hist.accepted sess.conv = (E sess.conv).accepted := hh.accepted sess.conv hne
  have hrec : s.hist.received sess.conv = (E sess.conv).received := hh.received sess.conv hne
  obtain ⟨cs, hin, hcalls⟩ := (E sess.conv).calls_receiveOnce packet
  refine serves_setSess hstream hh hs hne cs (fun datagram h => hin datagram h ▸ hnet) ?_
    (fun _ => rfl) rfl ?_ ?_ ⟨[], ?_, (List.append_nil _).symm⟩
  · rw [KcpServerSession.recvFromTunnel_kcp, hcalls, hkcp]
  · rw [hcalls, ← hacc, Function.update_eq_self]
    rfl
  · rw [hcalls, ← hrec, ← hkcp, ← KcpServerSession.recvFromTunnel_read sess packet now]
    rfl
  · rw [hcalls, List.append_nil]

theorem serves_datagram (hheap : HeapInv s) (hstream : StreamInv s) (hh : Hosts s.view E)
    {bytes : List Byte} {remote : SockAddr} {now : Int}
    (hok : s.onUdpTunnelReadable bytes remote now = .ok s') :
    ∃ E', Serves (taken (.datagram bytes remote now)) E E' ∧ Hosts s'.view E' := by
  unfold onUdpTunnelReadable dispatchKcpPacket at hok
  split_ifs at hok with hsn hconv
  · obtain rfl := Except.ok.inj hok
    exact ⟨E, .refl, hh⟩
  · obtain ⟨ret, ctl, hparse⟩ | ⟨e, hparse⟩ := s.controlSess.parseMsg_cases (bytes.take 4096)
    · simp only [hparse, handleControlMessages, Except.ok.injEq] at hok
      subst hok
      exact ⟨E, .refl, hh.noCall (noCall_of (fun r x hx => ⟨x, hx, rfl⟩) rfl rfl rfl rfl)⟩
    · simp only [hparse] at hok
      cases hok
  · cases hmap : s.sessionMap[ikcpGetconv (bytes.take 4096)]? with
    | none =>
        simp only [hmap, Except.ok.injEq] at hok
        subst hok
        exact ⟨E, .refl, hh⟩
    | some ref =>
        obtain ⟨sess, hs, hid⟩ := hheap.stored _ _ hmap
        simp only [hmap, hs, Except.ok.injEq] at hok
        subst hok
        have hne : sess.conv ≠ 0 := by
          rw [hid]
          exact hconv
        exact serves_tunnelRecv hstream hh hs hne ⟨bytes, remote, now, rfl, rfl, hid.symm⟩ now

/-- By induction on the references. -/
theorem serves_updateSessions (hheap : HeapInv s) (hstream : StreamInv s) (hh : Hosts s.view E)
    (hnz : ∀ id ∈ s.hist.issued, id ≠ 0) (clock : IUINT32) (refs : List SessRef) :
    ∃ E', Serves net E E' ∧ Hosts (s.updateSessions clock refs).view E' := by
  induction refs generalizing s E with
  | nil => exact ⟨E, .refl, hh⟩
  | cons ref rest ih =>
      rw [updateSessions]
      cases hs : s.sessions[ref]? with
      | none => exact ih hheap hstream hh hnz
      | some sess =>
          have hne := hnz sess.conv (hstream.issued ref sess hs)
          have hkcp := object_of_sessions hh hs hne
          have hacc : s.hist.accepted sess.conv = (E sess.conv).accepted :=
            hh.accepted sess.conv hne
          have hrec : s.hist.received sess.conv = (E sess.conv).received :=
            hh.received sess.conv hne
          -- one turn of the loop, then the rest by induction
          have hturn : s.updateSessions clock [ref] =
              (s.setSess ref (sess.updateKcp clock).1).output sess.remoteAddr
                (sess.updateKcp clock).2 := by
            simp only [updateSessions, hs]
          have ht := touch_updateSessions s clock [ref]
          rw [hturn] at ht
          obtain ⟨E₁, hserves, hh₁⟩ : ∃ E₁, Serves net E E₁ ∧
              Hosts ((s.setSess ref (sess.updateKcp clock).1).output sess.remoteAddr
                (sess.updateKcp clock).2).view E₁ := by
            refine serves_setSess hstream hh hs hne [.update clock] (fun _ h => by simp at h) ?_
              (fun _ => rfl) rfl ?_ ?_ ⟨(sess.updateKcp clock).2, ?_, ?_⟩
            · rw [KcpServerSession.updateKcp, hkcp]
              rfl
            · change s.hist.accepted =
                Function.update s.hist.accepted sess.conv (E sess.conv).accepted
              rw [← hacc, Function.update_eq_self]
            · change s.hist.received =
                Function.update s.hist.received sess.conv (E sess.conv).received
              rw [← hrec, Function.update_eq_self]
            · rw [KcpServerSession.updateKcp, hkcp]
              rfl
            · exact datagrams_output _ _ _
          have heff : Effect s (.updateTimer clock) _ := .updateTimer ht
          have hstream₁ := hstream.local_effect heff (fun _ _ _ h => by cases h)
          obtain ⟨E', hserves', hh'⟩ := ih (hheap.touch ht) hstream₁ hh₁ (by
            rw [ht.hist]
            exact hnz)
          exact ⟨E', hserves.trans hserves', hh'⟩

theorem serves_message (hstream : StreamInv s) (hh : Hosts s.view E)
    (hnz : ∀ id ∈ s.hist.issued, id ≠ 0) {ref : SessRef} {sess : KcpServerSession}
    (hs : s.sessions[ref]? = some sess) {data : List Byte}
    (hok : s.onMessage ref sess data = .ok s') :
    ∃ E', Serves net E E' ∧ Hosts s'.view E' := by
  have hne := hnz sess.conv (hstream.issued ref sess hs)
  have hkcp := object_of_sessions hh hs hne
  have hacc : s.hist.accepted sess.conv = (E sess.conv).accepted := hh.accepted sess.conv hne
  have hrec : s.hist.received sess.conv = (E sess.conv).received := hh.received sess.conv hne
  unfold onMessage KcpServerSession.onMessage at hok
  dsimp only at hok
  -- `assert(sendRet == 0)` held
  split_ifs at hok with hret
  obtain rfl := Except.ok.inj hok
  have hsend : (E sess.conv).send data = { E sess.conv with
      kcp := (ikcpSend sess.kcp data).2, accepted := (E sess.conv).accepted ++ [data] } := by
    rw [hkcp] at hret ⊢
    rw [Endpoint.send, if_neg hret]
  refine serves_setSess hstream hh hs hne [.send data] (fun _ h => by simp at h) ?_
    (fun _ => rfl) rfl ?_ ?_ ⟨[], ?_, (List.append_nil _).symm⟩
  · change _ = ((E sess.conv).send data).kcp
    rw [hsend]
  · change _ = Function.update s.hist.accepted sess.conv ((E sess.conv).send data).accepted
    rw [hsend, ← hacc]
  · change s.hist.received = Function.update s.hist.received sess.conv (E sess.conv).received
    rw [← hrec, Function.update_eq_self]
  · exact (List.append_nil _).symm

theorem serves_released (hstream : StreamInv s) (hh : Hosts s.view E)
    (hnz : ∀ id ∈ s.hist.issued, id ≠ 0) {ref : SessRef} {sess : KcpServerSession}
    (hs : s.sessions[ref]? = some sess) :
    ∃ E', Serves net E E' ∧ Hosts (s.onReleased ref sess).view E' := by
  have hne := hnz sess.conv (hstream.issued ref sess hs)
  have hkcp := object_of_sessions hh hs hne
  have hacc : s.hist.accepted sess.conv = (E sess.conv).accepted := hh.accepted sess.conv hne
  have hrec : s.hist.received sess.conv = (E sess.conv).received := hh.received sess.conv hne
  refine hh.serve hne [.flush] (fun _ h => by simp at h) (change_of ?_ ?_ ?_ ?_ ?_ ?_)
  · exact hstream.issued ref sess hs
  · exact fun _ h => h
  · intro r x hx
    change (s.sessions.erase ref)[r]? = some x at hx
    rw [TreeMap.getElem?_erase] at hx
    split_ifs at hx with hr
    refine Or.inr ⟨?_, hx⟩
    intro hconv
    exact hr (by simp [hstream.unique ref r sess x hs hx hconv.symm])
  · change s.hist.accepted = Function.update s.hist.accepted sess.conv (E sess.conv).accepted
    rw [← hacc, Function.update_eq_self]
  · change s.hist.received = Function.update s.hist.received sess.conv (E sess.conv).received
    rw [← hrec, Function.update_eq_self]
  · refine ⟨(ikcpFlush sess.kcp).2, ?_, datagrams_output _ _ _⟩
    rw [hkcp]
    rfl

/-- A new id gets a new object. -/
theorem serves_handleCreate (hh : Hosts s.view E) (hne : (newId s.id).1 ≠ 0)
    (hstream : StreamInv s) (hnew : (newId s.id).1 ∉ s.hist.issued) (remote : SockAddr)
    (now : Int) : ∃ E', Serves net E E' ∧ Hosts (s.handleCreate remote now).view E' := by
  have hcreate : E (newId s.id).1 = Endpoint.create (newId s.id).1 := hh.unused _ hne hnew
  have hacc : s.hist.accepted (newId s.id).1 = (E (newId s.id).1).accepted := hh.accepted _ hne
  have hrec : s.hist.received (newId s.id).1 = (E (newId s.id).1).received := hh.received _ hne
  refine hh.serve hne [] (fun _ h => by simp at h) (change_of ?_ ?_ ?_ ?_ ?_
    ⟨[], (List.append_nil _).symm, (List.append_nil _).symm⟩)
  · exact List.mem_append_right _ (List.mem_singleton_self _)
  · exact fun i hi => List.mem_append_left _ hi
  · intro r x hx
    rw [sessions_handleCreate] at hx
    split_ifs at hx
    · obtain rfl := Option.some.inj hx
      refine Or.inl ⟨rfl, ?_⟩
      rw [hcreate]
      rfl
    · refine Or.inr ⟨?_, hx⟩
      rintro hid
      exact hnew (hid ▸ hstream.issued r x hx)
  · change s.hist.accepted =
      Function.update s.hist.accepted (newId s.id).1 (E (newId s.id).1).accepted
    rw [← hacc, Function.update_eq_self]
  · change s.hist.received =
      Function.update s.hist.received (newId s.id).1 (E (newId s.id).1).received
    rw [← hrec, Function.update_eq_self]

/-- A DESTROY calls no object. -/
theorem hosts_handleDestroy (hh : Hosts s.view E) (id : IUINT32) :
    Hosts (s.handleDestroy id).view E := by
  obtain ⟨-, -, hhist, -⟩ := handleDestroy_frame s id
  refine hh.noCall (noCall_of ?_ ?_ ?_ ?_ ?_)
  · intro r x hx
    rw [sessions_handleDestroy] at hx
    split_ifs at hx
    · obtain ⟨y, hy, rfl⟩ := Option.map_eq_some_iff.mp hx
      exact ⟨y, hy, rfl⟩
    · exact ⟨x, hx, rfl⟩
  all_goals rw [hhist]

/-- **What an event does to the objects is calls of the KCP interface**, on the
    object of one id after another, as long as a new session gets a new id. -/
theorem serves_effect (hheap : HeapInv s) (hstream : StreamInv s) (hh : Hosts s.view E)
    (hnz : ∀ id ∈ s.hist.issued, id ≠ 0) {ev : Event} (hok : s.handle ev = .ok s')
    (heff : Effect s ev s')
    (hnew : ∀ msg remote now, ev = .control msg remote now → readCmd msg = cmdCreateSession →
      (newId s.id).1 ≠ 0 ∧ (newId s.id).1 ∉ s.hist.issued) :
    ∃ E', Serves (taken ev) E E' ∧ Hosts s'.view E' := by
  have hsame : ∀ {q : KcpServer}, (∀ (r : SessRef) (x : KcpServerSession),
      q.sessions[r]? = some x → ∃ y : KcpServerSession, s.sessions[r]? = some y ∧ x.kcp = y.kcp) →
      q.hist.issued = s.hist.issued → q.hist.accepted = s.hist.accepted →
      q.hist.received = s.hist.received → q.hist.datagrams = s.hist.datagrams →
      ∃ E', Serves (taken ev) E E' ∧ Hosts q.view E' := by
    intro q hsess hissued hacc hrec hsent
    exact ⟨E, .refl, hh.noCall (noCall_of hsess hissued hacc hrec hsent)⟩
  have hset : ∀ {ref : SessRef} {sess sess' : KcpServerSession}, s.sessions[ref]? = some sess →
      sess'.kcp = sess.kcp → ∀ (r : SessRef) (x : KcpServerSession),
        (s.setSess ref sess').sessions[r]? = some x →
          ∃ y : KcpServerSession, s.sessions[r]? = some y ∧ x.kcp = y.kcp := by
    intro ref sess sess' hs hkcp r x hx
    rw [sessions_setSess] at hx
    split_ifs at hx with hr
    · obtain rfl := Option.some.inj hx
      exact ⟨sess, hr ▸ hs, hkcp⟩
    · exact ⟨x, hx, rfl⟩
  cases heff with
  | ignored => exact serves_datagram hheap hstream hh hok
  | controlDatagram hparse => exact serves_datagram hheap hstream hh hok
  | quiet hmap hs hcfg => exact serves_datagram hheap hstream hh hok
  | recv hmap hs hcfg hne => exact serves_datagram hheap hstream hh hok
  | create hcmd =>
      obtain ⟨hne, hnot⟩ := hnew _ _ _ rfl hcmd
      exact serves_handleCreate hh hne hstream hnot _ _
  | destroy hcmd => exact ⟨E, .refl, hosts_handleDestroy hh _⟩
  | connected hs hclient => exact hsame (hset hs rfl) rfl rfl rfl rfl
  | connectFailed hs hclient => exact hsame (hset hs rfl) rfl rfl rfl rfl
  | @message ref sess kcp data hs hcfg =>
      have hmsg : s.onMessage ref sess data = .ok (s.accepted ref sess kcp data) := by
        simpa only [handle, onSession, hs] using hok
      exact serves_message hstream hh hnz hs hmsg
  | checked hs hclient => exact hsame (hset hs rfl) rfl rfl rfl rfl
  | updateTimer ht =>
      obtain rfl := Except.ok.inj hok
      exact serves_updateSessions hheap hstream hh hnz _ _
  | deadSessionTimer => exact hsame (fun r x hx => ⟨x, hx, rfl⟩) rfl rfl rfl rfl
  | released hs hfree => exact serves_released hstream hh hnz hs

end KcpServer
end Server
end UdpSpeed
