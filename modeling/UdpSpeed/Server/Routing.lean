/-
  UdpSpeed.Server.Routing

  Where datagrams go on the server: `dispatchKcpPacket` on the way in, the
  output callback shared by the control object and the sessions on the way
  out.
-/

import UdpSpeed.Kcp.Wire
import UdpSpeed.Server.Safety

namespace UdpSpeed

open Kcp Control Muduo Std

namespace Server

/-- Where `dispatchKcpPacket` takes a datagram. -/
inductive Route where
  | dropped
  | control
  | session (ref : SessRef)
deriving DecidableEq, Repr

/-- The KCP objects the output callback serves. -/
inductive KcpObject where
  | control
  | session (ref : SessRef)
deriving DecidableEq, Repr

/-- The `user` pointer given to `ikcp_create`: `nullptr` by `ControlSession`, the
    session itself by `KcpServerSession`. -/
def KcpObject.user : KcpObject → Option SessRef
  | .control => none
  | .session ref => some ref

namespace KcpServer

/-! ## Incoming datagrams -/

/-- The checks of `dispatchKcpPacket`, in its order. -/
def route (s : KcpServer) (packet : List Byte) : Route :=
  if ikcpGetsn packet = -1 then .dropped
  else if ikcpGetconv packet = 0 then .control
  else (s.sessionMap[ikcpGetconv packet]?).elim .dropped .session

/-- What `dispatchKcpPacket` does with a datagram on its route. -/
def deliver (s : KcpServer) (packet : List Byte) (remote : SockAddr) (now : Int) :
    Route → Except Abort KcpServer
  | .dropped => .ok s
  | .control => (s.controlSess.parseMsg packet).bind (fun parsed =>
      { s with controlSess := parsed.2.2 }.handleControlMessages remote now parsed.2.1)
  | .session ref => s.onSession ref (fun sess => .ok (s.tunnelRecv ref sess packet now))

theorem dispatchKcpPacket_eq (s : KcpServer) (packet : List Byte) (remote : SockAddr)
    (now : Int) :
    s.dispatchKcpPacket packet remote now = s.deliver packet remote now (s.route packet) := by
  unfold dispatchKcpPacket route
  by_cases hsn : ikcpGetsn packet = -1
  · rw [if_pos hsn, if_pos hsn]
    rfl
  rw [if_neg hsn, if_neg hsn]
  by_cases hconv : ikcpGetconv packet = 0
  · rw [if_pos hconv, if_pos hconv, deliver]
    cases s.controlSess.parseMsg packet <;> rfl
  rw [if_neg hconv, if_neg hconv]
  cases s.sessionMap[ikcpGetconv packet]? with
  | none => rfl
  | some ref =>
      simp only [Option.elim_some, deliver, onSession]

/-- A datagram changes the control session only if that is its route, and then
    it is what `parseMsg` leaves. -/
theorem controlSess_of_datagram {s s' : KcpServer} {bytes : List Byte} {remote : SockAddr}
    {now : Int} (hok : s.onUdpTunnelReadable bytes remote now = .ok s') :
    (s.route (bytes.take 4096) = .control →
      ∃ ret, s.controlSess.parseMsg (bytes.take 4096) = .ok (ret, [], s'.controlSess)) ∧
    (s.route (bytes.take 4096) ≠ .control → s'.controlSess = s.controlSess) := by
  rw [onUdpTunnelReadable, dispatchKcpPacket_eq] at hok
  cases hroute : s.route (bytes.take 4096) with
  | dropped =>
      rw [hroute] at hok
      obtain rfl := Except.ok.inj hok
      exact ⟨fun h => (by cases h), fun _ => rfl⟩
  | control =>
      rw [hroute, deliver] at hok
      refine ⟨fun _ => ?_, fun h => absurd rfl h⟩
      obtain ⟨ret, ctl, hparse⟩ | ⟨e, hparse⟩ := s.controlSess.parseMsg_cases (bytes.take 4096)
      · rw [hparse] at hok
        obtain rfl := Except.ok.inj hok
        exact ⟨ret, hparse⟩
      · rw [hparse] at hok
        cases hok
  | session ref =>
      rw [hroute, deliver, onSession] at hok
      refine ⟨fun h => (by cases h), fun _ => ?_⟩
      split at hok <;> (obtain rfl := Except.ok.inj hok; rfl)

/-- The whole datagram goes to the session at `ref` and nothing else changes. -/
structure PassedTo (s : KcpServer) (packet : List Byte) (ref : SessRef) : Prop where
  route : s.route packet = .session ref
  dispatch : ∀ remote now, s.dispatchKcpPacket packet remote now =
    s.onSession ref (fun sess => .ok (s.tunnelRecv ref sess packet now))
  frame : ∀ remote now s', s.dispatchKcpPacket packet remote now = .ok s' →
    s'.controlSess = s.controlSess ∧ s'.sessionMap = s.sessionMap ∧
      ∀ r : SessRef, r ≠ ref → s'.sessions[r]? = s.sessions[r]?

theorem passedTo_iff (s : KcpServer) (packet : List Byte) (ref : SessRef) :
    PassedTo s packet ref ↔ s.route packet = .session ref := by
  refine ⟨fun h => h.route, fun hroute => ?_⟩
  have hdispatch : ∀ remote now, s.dispatchKcpPacket packet remote now =
      s.onSession ref (fun sess => .ok (s.tunnelRecv ref sess packet now)) := by
    intro remote now
    rw [dispatchKcpPacket_eq, hroute, deliver]
  refine ⟨hroute, hdispatch, ?_⟩
  intro remote now s' hok
  rw [hdispatch, onSession] at hok
  split at hok
  · obtain rfl := Except.ok.inj hok
    exact ⟨rfl, rfl, fun _ _ => rfl⟩
  · next sess _ =>
      obtain rfl := Except.ok.inj hok
      refine ⟨rfl, rfl, fun r hr => ?_⟩
      change (s.setSess ref (sess.recvFromTunnel packet now).1).sessions[r]? = _
      rw [sessions_setSess, if_neg hr.symm]

/-- Routing looks at the length and the conv only: a datagram with a header for
    a session in the map reaches that session, one that is too short or for
    nobody changes nothing, and the number `ikcp_getsn` reads from a peer's
    datagram is that of its first segment. -/
def RoutesByConv (s : KcpServer) (packet : List Byte) : Prop :=
  (24 ≤ packet.length → ikcpGetconv packet ≠ 0 → ∀ ref : SessRef,
    s.sessionMap[ikcpGetconv packet]? = some ref → PassedTo s packet ref) ∧
  (packet.length < 24 ∨ (ikcpGetconv packet ≠ 0 ∧ s.sessionMap[ikcpGetconv packet]? = none) →
    ∀ remote now, s.dispatchKcpPacket packet remote now = .ok s) ∧
  ∀ peer : IKCPCB, packet ∈ (ikcpFlush peer).2 →
    ∃ (seg : IKCPSEG) (rest : List Byte), packet = ikcpEncodeSeg seg ++ rest ∧
      ikcpGetsn packet = seg.sn

/-- A datagram of a flush starts with a segment. -/
theorem getsn_of_flush {peer : IKCPCB} {packet : List Byte} (hin : packet ∈ (ikcpFlush peer).2) :
    ∃ (seg : IKCPSEG) (rest : List Byte), packet = ikcpEncodeSeg seg ++ rest ∧
      ikcpGetsn packet = seg.sn := by
  obtain ⟨groups, hgroups, hne⟩ := ikcpFlush_packs peer
  rw [hgroups] at hin
  obtain ⟨group, hgroup, rfl⟩ := List.mem_map.mp hin
  obtain ⟨seg, segs, rfl⟩ := List.exists_cons_of_ne_nil (hne group hgroup)
  rw [wireAll_cons]
  exact ⟨seg, _, rfl, ikcpGetsn_encodeSeg seg _⟩

theorem route_short {s : KcpServer} {packet : List Byte} (hlen : packet.length < 24) :
    s.route packet = .dropped := by
  rw [route, if_pos]
  rw [ikcpGetsn, if_pos (show packet.length < ikcpOverhead from hlen)]

theorem route_none {s : KcpServer} {packet : List Byte} (hconv : ikcpGetconv packet ≠ 0)
    (hmap : s.sessionMap[ikcpGetconv packet]? = none) : s.route packet = .dropped := by
  rw [route, if_neg hconv, hmap, Option.elim_none, ite_self]

/-- A datagram with a header for a session in the map: the in-band "too short"
    decides. -/
theorem route_some_iff {s : KcpServer} {packet : List Byte} {ref : SessRef}
    (hlen : 24 ≤ packet.length) (hconv : ikcpGetconv packet ≠ 0)
    (hmap : s.sessionMap[ikcpGetconv packet]? = some ref) :
    s.route packet = .session ref ↔ ikcpDecode32u (packet.drop 12) ≠ 0xffffffff := by
  have hsn : ikcpGetsn packet = ikcpDecode32u (packet.drop 12) := by
    rw [ikcpGetsn, if_neg (show ¬ packet.length < ikcpOverhead from Nat.not_lt.mpr hlen)]
  rw [route, hsn, if_neg hconv, hmap, Option.elim_some]
  by_cases hmax : ikcpDecode32u (packet.drop 12) = 0xffffffff
  · rw [if_pos (show ikcpDecode32u (packet.drop 12) = -1 from hmax)]
    refine iff_of_false ?_ (fun hne => hne hmax)
    intro h
    cases h
  · rw [if_neg (show ¬ ikcpDecode32u (packet.drop 12) = -1 from hmax)]
    exact iff_of_true rfl hmax

/-- **Routing depends on length and conv, and exactly when.**  It fails for the
    datagrams to a live session that carry the number `0xffffffff`, which
    `ikcp_getsn` also returns for "too short". -/
theorem routesByConv_iff (s : KcpServer) (packet : List Byte) :
    RoutesByConv s packet ↔
      ¬ (24 ≤ packet.length ∧ ikcpGetconv packet ≠ 0 ∧
        (s.sessionMap[ikcpGetconv packet]?).isSome ∧
        ikcpDecode32u (packet.drop 12) = 0xffffffff) := by
  constructor
  · rintro ⟨hpass, -, -⟩ ⟨hlen, hconv, hsome, hmax⟩
    obtain ⟨ref, hmap⟩ := Option.isSome_iff_exists.mp hsome
    exact (route_some_iff hlen hconv hmap).mp (hpass hlen hconv ref hmap).route hmax
  · intro hnot
    refine ⟨?_, ?_, fun peer hin => getsn_of_flush hin⟩
    · intro hlen hconv ref hmap
      rw [passedTo_iff, route_some_iff hlen hconv hmap]
      intro hmax
      exact hnot ⟨hlen, hconv, by rw [hmap]; rfl, hmax⟩
    · intro hcase remote now
      have hroute : s.route packet = .dropped := by
        rcases hcase with hlen | ⟨hconv, hmap⟩
        · exact route_short hlen
        · exact route_none hconv hmap
      rw [dispatchKcpPacket_eq, hroute, deliver]

/-- The last segment before the numbers wrap. -/
def lastBeforeWrap : IKCPSEG :=
  { conv := 5, cmd := ikcpCmdPush, wnd := 128, sn := 0xffffffff, data := [7] }

/-- The session the segment is for is in the map, and never sees it. -/
theorem lastBeforeWrap_dropped :
    ∃ s, EventSystem.run step (create 5) connectedRun = some s ∧
      s.sessionMap[(5 : IUINT32)]? = some 1 ∧ 24 ≤ lastBeforeWrap.wire.length ∧
      ikcpGetconv lastBeforeWrap.wire = 5 ∧ s.route lastBeforeWrap.wire = .dropped ∧
      ¬ RoutesByConv s lastBeforeWrap.wire := by
  obtain ⟨s, -, hrun, hmap, -, -⟩ := connectedRun_state
  have hconv : ikcpGetconv lastBeforeWrap.wire = 5 := by decide
  have hmax : ikcpDecode32u (lastBeforeWrap.wire.drop 12) = 0xffffffff := by decide
  have hroute : s.route lastBeforeWrap.wire = .dropped := by
    rw [route, if_pos]
    decide
  refine ⟨s, hrun, hmap, by decide, hconv, hroute, ?_⟩
  rintro ⟨hpass, -, -⟩
  have hto := (hpass (by decide) (by decide) 1 (by rw [hconv]; exact hmap)).route
  rw [hroute] at hto
  cases hto

/-! ## Outgoing datagrams -/

/-- `KcpServerSession::output`: destination and contents of the datagram it
    passes to `sendto`, which returns `bytes` in the end. -/
def sessionOutput (s : KcpServer) (buf : List Byte) (user : Option SessRef) (bytes : Int) :
    Except Abort (SockAddr × List Byte) :=
  (user.bind (fun ref => s.sessions[ref]?)).elim (.error .assertSess) (fun sess =>
    if buf = [] then .error .assertNonempty
    else if bytes ≠ buf.length then .error .assertSendRet
    else .ok (sess.remoteAddr, buf))

/-- A datagram of the control object with `RSP_CREATE_SESSION(id)` in one of its
    segments. -/
def CarriesReply (id : IUINT32) (datagram : List Byte) : Prop :=
  ∃ segs : List IKCPSEG, datagram = wireAll segs ∧
    ∃ seg ∈ segs, seg.conv = 0 ∧ seg.cmd = ikcpCmdPush ∧ seg.data = rspMsg id

/-- The callback of the control object sends every reply for `id` to `remote`,
    which is also the tunnel peer of the session at `ref`. -/
def RepliesTo (s : KcpServer) (id : IUINT32) (ref : SessRef) (remote : SockAddr) : Prop :=
  (∀ datagram, CarriesReply id datagram →
    s.sessionOutput datagram KcpObject.control.user datagram.length = .ok (remote, datagram)) ∧
  ∀ sess : KcpServerSession, s.sessions[ref]? = some sess → sess.remoteAddr = remote

/-- The object at `ref`, as long as it exists, is the session `id` of `remote`. -/
def Belongs (ref : SessRef) (id : IUINT32) (remote : SockAddr) (s : KcpServer) : Prop :=
  ref < s.nextRef ∧ ∀ sess : KcpServerSession, s.sessions[ref]? = some sess →
    sess.conv = id ∧ sess.remoteAddr = remote

theorem Belongs.setSess {ref r : SessRef} {id : IUINT32} {remote : SockAddr} {s : KcpServer}
    (h : Belongs ref id remote s) {sess sess' : KcpServerSession}
    (hs : s.sessions[r]? = some sess) (hconv : sess'.conv = sess.conv)
    (haddr : sess'.remoteAddr = sess.remoteAddr) : Belongs ref id remote (s.setSess r sess') := by
  refine ⟨h.1, ?_⟩
  intro x hx
  rw [sessions_setSess] at hx
  split_ifs at hx with hr
  · obtain rfl := Option.some.inj hx
    rw [hconv, haddr]
    exact h.2 sess (hr ▸ hs)
  · exact h.2 x hx

theorem takePayload_remoteAddr (sess : KcpServerSession) (payload : List Byte) (now : Int) :
    (sess.takePayload payload now).1.remoteAddr = sess.remoteAddr := by
  obtain ⟨payloads, htake⟩ := sess.takePayload_frame payload now
  rw [htake]

/-- No event gives an object another id or another peer. -/
theorem Belongs.effect {ref : SessRef} {id : IUINT32} {remote : SockAddr} {s s' : KcpServer}
    {e : Event} (h : Belongs ref id remote s) (heff : Effect s e s') :
    Belongs ref id remote s' := by
  cases heff with
  | ignored => exact h
  | controlDatagram hparse => exact h
  | quiet hmap hs hcfg => exact h.setSess hs (KcpServerSession.conv_withKcp hcfg) rfl
  | @recv _ payload _ now r sess kcp hmap hs hcfg hne =>
      have hconv := (KcpServerSession.takePayload_conv { sess with kcp := kcp } payload now).trans
        (KcpServerSession.conv_withKcp hcfg)
      exact h.setSess hs hconv (takePayload_remoteAddr { sess with kcp := kcp } payload now)
  | create hcmd =>
      -- the new object has a reference of its own
      refine ⟨Nat.lt_succ_of_lt h.1, ?_⟩
      intro sess hs
      rw [sessions_handleCreate, if_neg (Nat.ne_of_gt h.1)] at hs
      exact h.2 sess hs
  | destroy hcmd =>
      refine ⟨by rw [(handleDestroy_frame s _).2.1]; exact h.1, ?_⟩
      intro sess hs
      rw [sessions_handleDestroy] at hs
      split_ifs at hs
      · obtain ⟨sess₀, hs₀, rfl⟩ := Option.map_eq_some_iff.mp hs
        exact h.2 sess₀ hs₀
      · exact h.2 sess hs
  | connected hs hclient => exact h.setSess hs rfl rfl
  | connectFailed hs hclient => exact h.setSess hs rfl rfl
  | message hs hcfg => exact h.setSess hs (KcpServerSession.conv_withKcp hcfg) rfl
  | checked hs hclient => exact h.setSess hs rfl rfl
  | updateTimer ht =>
      refine ⟨by rw [ht.nextRef]; exact h.1, ?_⟩
      intro sess' hs'
      obtain ⟨sess, kcp, hs, rfl, hcfg⟩ := ht.of_sessions hs'
      rw [KcpServerSession.conv_withKcp hcfg]
      exact h.2 sess hs
  | deadSessionTimer => exact h
  | @released r sess₀ hs₀ hfree =>
      refine ⟨h.1, ?_⟩
      intro sess hs
      change (s.sessions.erase r)[ref]? = some sess at hs
      rw [TreeMap.getElem?_erase] at hs
      split_ifs at hs
      exact h.2 sess hs

theorem Belongs.run {ref : SessRef} {id : IUINT32} {remote : SockAddr} {s s' : KcpServer}
    (hinv : HeapInv s) (h : Belongs ref id remote s) {es : List Event}
    (hrun : EventSystem.run step s es = some s') : Belongs ref id remote s' := by
  have hboth : HeapInv s' ∧ Belongs ref id remote s' := by
    refine EventSystem.run_invariant (I := fun s => HeapInv s ∧ Belongs ref id remote s) ?_
      ⟨hinv, h⟩ hrun
    rintro s₁ e s₂ ⟨hi, hb⟩ hstep
    obtain ⟨hen, hok⟩ := step_eq_some.mp hstep
    exact ⟨hi.step hstep, hb.effect (hi.handle_effect hen hok)⟩
  exact hboth.2

/-- The control object has no session behind its `user` pointer. -/
theorem sessionOutput_control (s : KcpServer) (buf : List Byte) (bytes : Int) :
    s.sessionOutput buf KcpObject.control.user bytes = .error .assertSess := rfl

/-- A reply on the wire. -/
theorem carriesReply_wire (id : IUINT32) :
    CarriesReply id (wireAll [{ cmd := ikcpCmdPush, data := rspMsg id }]) :=
  ⟨_, rfl, _, List.mem_singleton_self _, rfl, rfl, rfl⟩

theorem not_repliesTo (s : KcpServer) (id : IUINT32) (ref : SessRef) (remote : SockAddr) :
    ¬ RepliesTo s id ref remote := by
  rintro ⟨hsend, -⟩
  have hok := hsend _ (carriesReply_wire id)
  rw [sessionOutput_control] at hok
  cases hok

/-- **A control reply never gets out.**  After any CREATE in any reachable state
    and any further events, the callback of the control object fails its
    `assert(sess)` on whatever it is handed.  The session itself keeps the
    address its CREATE came from, and its own datagrams do go there. -/
theorem controlReply_never_sent {s₁ s₂ s : KcpServer} (h : ServerReachable s₁)
    {msg : List Byte} {remote : SockAddr} {now : Int} (hcmd : readCmd msg = cmdCreateSession)
    (hstep : s₁.step (.control msg remote now) = some s₂) {es : List Event}
    (hrun : EventSystem.run step s₂ es = some s) :
    ¬ RepliesTo s (newId s₁.id).1 s₁.nextRef remote ∧
      (∀ datagram bytes,
        s.sessionOutput datagram KcpObject.control.user bytes = .error .assertSess) ∧
      ∀ sess : KcpServerSession, s.sessions[s₁.nextRef]? = some sess →
        sess.conv = (newId s₁.id).1 ∧ sess.remoteAddr = remote ∧
        ∀ datagram, datagram ≠ [] →
          s.sessionOutput datagram (KcpObject.session s₁.nextRef).user datagram.length =
            .ok (remote, datagram) := by
  have hinv₂ : HeapInv s₂ := h.heapInv.step hstep
  have hcreate : s₂ = s₁.handleCreate remote now := by
    obtain ⟨hen, hok⟩ := step_eq_some.mp hstep
    cases h.heapInv.handle_effect hen hok with
    | create _ => rfl
    | destroy hdestroy => exact absurd (hcmd.symm.trans hdestroy) (by decide)
  have hbelongs : Belongs s₁.nextRef (newId s₁.id).1 remote s₂ := by
    subst hcreate
    refine ⟨Nat.lt_succ_self _, ?_⟩
    intro sess hs
    rw [sessions_handleCreate, if_pos rfl] at hs
    obtain rfl := Option.some.inj hs
    exact ⟨rfl, rfl⟩
  refine ⟨not_repliesTo _ _ _ _, fun d b => sessionOutput_control s d b, ?_⟩
  intro sess hs
  obtain ⟨hconv, haddr⟩ := (hbelongs.run hinv₂ hrun).2 sess hs
  refine ⟨hconv, haddr, ?_⟩
  intro datagram hne
  simp only [sessionOutput, KcpObject.user, Option.bind_some, hs, Option.elim_some, if_neg hne,
    haddr, ne_eq, not_true, if_false]

theorem controlReply_never_sent_connected :
    ∃ s₂ s sess, (create 5).step (.control createMsg ⟨0x7f000001, 40000⟩ 0) = some s₂ ∧
      EventSystem.run step s₂ [.connected 1] = some s ∧ s.sessions[(1 : SessRef)]? = some sess ∧
      sess.remoteAddr = ⟨0x7f000001, 40000⟩ ∧ ¬ RepliesTo s 5 1 ⟨0x7f000001, 40000⟩ := by
  obtain ⟨s, sess, hrun, -, hs, -⟩ := connectedRun_state
  rw [connectedRun, EventSystem.run, Option.bind_eq_some_iff] at hrun
  obtain ⟨s₂, hstep, hrest⟩ := hrun
  have h := controlReply_never_sent ⟨create 5, [], ⟨5, rfl⟩, rfl⟩ readCmd_createMsg hstep hrest
  exact ⟨s₂, s, sess, hstep, hrest, hs, (h.2.2 sess hs).2.1, h.1⟩

/-- Two proxies ask for a session each; the reply to the first one. -/
theorem controlReply_not_sent :
    ∃ s, EventSystem.run step (create 5)
        [.control createMsg ⟨0x7f000001, 40000⟩ 0, .control createMsg ⟨0x7f000002, 40001⟩ 0]
          = some s ∧
      s.sessionMap[(5 : IUINT32)]? = some 1 ∧
      CarriesReply 5 (wireAll [{ cmd := ikcpCmdPush, data := rspMsg 5 }]) ∧
      s.sessionOutput (wireAll [{ cmd := ikcpCmdPush, data := rspMsg 5 }])
        KcpObject.control.user 29 = .error .assertSess ∧
      ¬ RepliesTo s 5 1 ⟨0x7f000001, 40000⟩ := by
  have hrun : (EventSystem.run step (create 5)
      [.control createMsg ⟨0x7f000001, 40000⟩ 0, .control createMsg ⟨0x7f000002, 40001⟩ 0]).map
        (fun s => s.sessionMap[(5 : IUINT32)]?) = some (some 1) := by
    decide +kernel
  obtain ⟨s, hs, hmap⟩ := Option.map_eq_some_iff.mp hrun
  exact ⟨s, hs, hmap, carriesReply_wire 5, rfl, not_repliesTo _ _ _ _⟩

end KcpServer
end Server
end UdpSpeed
