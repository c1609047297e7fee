/-
  UdpSpeed.Server.Destroy

  `CMD_DESTROY_SESSION` on the server, followed until the event loop has run
  what handling it queued.  The handler only resets `client_`; taking the entry
  out of the map is left to the connection-down callback.
-/

import UdpSpeed.Server.Safety

namespace UdpSpeed

open Kcp Control Muduo Std

namespace Server
namespace KcpServer

/-! ## A command and the functors it queues -/

/-- What `client_.reset()` queues for the session at `ref`: `~TcpClient`
    force-closes a connection, and its `handleClose` runs in the loop.  Without
    a connection it stops the connector, which calls nobody back. -/
def queuedByReset (s : KcpServer) (ref : SessRef) : List Event :=
  if s.sessions[ref]?.any (fun sess => sess.client.any TcpClient.hasConnection) then
    [.closed ref]
  else []

/-- What `handleControlMessage` queues; a CREATE only starts to connect. -/
def queuedByControl (s : KcpServer) (controlMsg : List Byte) : List Event :=
  if readCmd controlMsg = cmdDestroySession then
    match s.sessionMap[readId controlMsg]? with
    | none => []
    | some ref => s.queuedByReset ref
  else []

/-- Run handlers one after the other. -/
def handleAll (s : KcpServer) : List Event → Except Abort KcpServer
  | [] => .ok s
  | e :: rest =>
      match s.handle e with
      | .error err => .error err
      | .ok s => s.handleAll rest

/-- `handleControlMessage`, then the functors it queued. -/
def controlThenLoop (s : KcpServer) (controlMsg : List Byte) (remote : SockAddr) (now : Int) :
    Except Abort KcpServer :=
  match s.handleControlMessage controlMsg remote now with
  | .error e => .error e
  | .ok s' => s'.handleAll (s.queuedByControl controlMsg)

/-- The two states agree in everything the server can look at. -/
structure Unchanged (s s' : KcpServer) : Prop where
  controlSess : s'.controlSess = s.controlSess
  sessionMap : ∀ id : IUINT32, s'.sessionMap[id]? = s.sessionMap[id]?
  id : s'.id = s.id
  sessions : ∀ ref : SessRef, s'.sessions[ref]? = s.sessions[ref]?
  nextRef : s'.nextRef = s.nextRef
  hist : s'.hist = s.hist

/-- A DESTROY releases its session: the id leaves the map, its D connection is
    closed and not attempted any more, the other sessions are as they were, and
    neither the same command again nor one for an id not in the map changes
    anything. -/
def DestroyReleases (s : KcpServer) (controlMsg : List Byte) (remote : SockAddr) (now : Int) :
    Prop :=
  ∃ s', s.controlThenLoop controlMsg remote now = .ok s' ∧
    s'.sessionMap[readId controlMsg]? = none ∧
    (∀ (ref : SessRef) (sess : KcpServerSession), s.sessionMap[readId controlMsg]? = some ref →
      s'.sessions[ref]? = some sess →
        sess.clientActive = false ∧ sess.conn.any StateE.live = false) ∧
    (∀ id : IUINT32, id ≠ readId controlMsg → s'.sessionMap[id]? = s.sessionMap[id]?) ∧
    (∀ ref : SessRef, s.sessionMap[readId controlMsg]? ≠ some ref →
      s'.sessions[ref]? = s.sessions[ref]?) ∧
    (s.sessionMap[readId controlMsg]? = none → Unchanged s s') ∧
    ∃ s'', s'.controlThenLoop controlMsg remote now = .ok s'' ∧ Unchanged s' s''

/-! ## What the handler leads to -/

theorem handleControlMessage_destroy {controlMsg : List Byte}
    (hcmd : readCmd controlMsg = cmdDestroySession) (s : KcpServer) (remote : SockAddr)
    (now : Int) :
    s.handleControlMessage controlMsg remote now = .ok (s.handleDestroy (readId controlMsg)) := by
  have hne : controlMsg ≠ [] := by
    rintro rfl
    exact absurd hcmd (by decide)
  have hcreate : readCmd controlMsg ≠ cmdCreateSession := by
    rw [hcmd]
    decide
  rw [handleControlMessage, if_neg hne, if_neg hcreate, if_pos hcmd]

theorem controlThenLoop_destroy {controlMsg : List Byte}
    (hcmd : readCmd controlMsg = cmdDestroySession) (s : KcpServer) (remote : SockAddr)
    (now : Int) :
    s.controlThenLoop controlMsg remote now =
      (s.handleDestroy (readId controlMsg)).handleAll (s.queuedByControl controlMsg) := by
  simp only [controlThenLoop, handleControlMessage_destroy hcmd]

/-- An id that is not in the map. -/
theorem controlThenLoop_unknown {controlMsg : List Byte}
    (hcmd : readCmd controlMsg = cmdDestroySession) {s : KcpServer}
    (hmap : s.sessionMap[readId controlMsg]? = none) (remote : SockAddr) (now : Int) :
    s.controlThenLoop controlMsg remote now = .ok s := by
  rw [controlThenLoop_destroy hcmd]
  simp only [handleDestroy, queuedByControl, hcmd, if_true, hmap, handleAll]

theorem queuedByControl_destroy {controlMsg : List Byte}
    (hcmd : readCmd controlMsg = cmdDestroySession) {s : KcpServer} {ref : SessRef}
    {sess : KcpServerSession} (hmap : s.sessionMap[readId controlMsg]? = some ref)
    (hs : s.sessions[ref]? = some sess) :
    s.queuedByControl controlMsg =
      if sess.client.any TcpClient.hasConnection then [.closed ref] else [] := by
  simp only [queuedByControl, hcmd, if_true, hmap, queuedByReset, hs, Option.any_some]

/-- The connection was up: its close reaches the callback nobody stored. -/
theorem HeapInv.destroy_connected {s : KcpServer} (h : HeapInv s) {controlMsg : List Byte}
    (hcmd : readCmd controlMsg = cmdDestroySession) {ref : SessRef} {sess : KcpServerSession}
    (hmap : s.sessionMap[readId controlMsg]? = some ref) (hs : s.sessions[ref]? = some sess)
    (hconn : sess.client.any TcpClient.hasConnection) (remote : SockAddr) (now : Int) :
    s.controlThenLoop controlMsg remote now = .error .badFunctionCall := by
  have hs' : (s.handleDestroy (readId controlMsg)).sessions[ref]? = some sess.disconnectSvr := by
    rw [sessions_handleDestroy, if_pos hmap, hs]
    rfl
  have hdown := (h.handleDestroy (readId controlMsg)).onConnectionDown hs'
  rw [controlThenLoop_destroy hcmd, queuedByControl_destroy hcmd hmap hs, if_pos hconn]
  simp only [handleAll, handle, onSession, hs', hdown]

/-- In every other phase nothing is queued, and the map stays as it is. -/
theorem destroy_unconnected {s : KcpServer} {controlMsg : List Byte}
    (hcmd : readCmd controlMsg = cmdDestroySession) {ref : SessRef} {sess : KcpServerSession}
    (hmap : s.sessionMap[readId controlMsg]? = some ref) (hs : s.sessions[ref]? = some sess)
    (hconn : sess.client.any TcpClient.hasConnection = false) (remote : SockAddr) (now : Int) :
    s.controlThenLoop controlMsg remote now = .ok (s.handleDestroy (readId controlMsg)) := by
  rw [controlThenLoop_destroy hcmd, queuedByControl_destroy hcmd hmap hs,
    if_neg (by rw [hconn]; decide), handleAll]

/-- The entry of a session that a DESTROY finds in the map is still there
    afterwards, or there is no afterwards. -/
theorem HeapInv.not_destroyReleases {s : KcpServer} (h : HeapInv s) {controlMsg : List Byte}
    (hcmd : readCmd controlMsg = cmdDestroySession) {ref : SessRef}
    (hmap : s.sessionMap[readId controlMsg]? = some ref) (remote : SockAddr) (now : Int) :
    ¬ DestroyReleases s controlMsg remote now := by
  rintro ⟨s', hok, hgone, -⟩
  obtain ⟨sess, hs, -⟩ := h.stored _ _ hmap
  cases hconn : sess.client.any TcpClient.hasConnection with
  | true =>
      rw [h.destroy_connected hcmd hmap hs hconn] at hok
      cases hok
  | false =>
      rw [destroy_unconnected hcmd hmap hs hconn] at hok
      obtain rfl := Except.ok.inj hok
      rw [(handleDestroy_frame s _).1, hmap] at hgone
      cases hgone

/-- **A DESTROY never releases a session.**  In every reachable state the
    command does what it is for exactly if its id is not in the map, that is if
    there is nothing to do.  For an id in the map, whatever the phase of its D
    connection: the close of a connection that was up brings the process down in
    the empty callback; in any other phase the attempt is given up, no callback
    is ever queued, and the entry stays. -/
theorem destroy_releases_iff {s : KcpServer} (h : ServerReachable s) {controlMsg : List Byte}
    (hcmd : readCmd controlMsg = cmdDestroySession) (remote : SockAddr) (now : Int) :
    (DestroyReleases s controlMsg remote now ↔ s.sessionMap[readId controlMsg]? = none) ∧
      ∀ (ref : SessRef) (sess : KcpServerSession), s.sessionMap[readId controlMsg]? = some ref →
        s.sessions[ref]? = some sess →
        if sess.client = some .connected then
          s.controlThenLoop controlMsg remote now = .error .badFunctionCall
        else ∃ s', s.controlThenLoop controlMsg remote now = .ok s' ∧
          s'.sessionMap = s.sessionMap ∧ s'.sessions[ref]? = some sess.disconnectSvr ∧
          ∀ r : SessRef, r ≠ ref → s'.sessions[r]? = s.sessions[r]? := by
  refine ⟨⟨?_, ?_⟩, ?_⟩
  · intro hrel
    by_contra hsome
    obtain ⟨ref, hmap⟩ := Option.ne_none_iff_exists'.mp hsome
    exact h.heapInv.not_destroyReleases hcmd hmap remote now hrel
  · -- nothing to do, and nothing done
    intro hnone
    have hsame := controlThenLoop_unknown hcmd hnone remote now
    have hrefl : Unchanged s s := ⟨rfl, fun _ => rfl, rfl, fun _ => rfl, rfl, rfl⟩
    refine ⟨s, hsame, hnone, ?_, fun _ _ => rfl, fun _ _ => rfl, fun _ => hrefl, s, hsame, hrefl⟩
    intro ref sess hmap
    rw [hnone] at hmap
    cases hmap
  · intro ref sess hmap hs
    split_ifs with hclient
    · exact h.heapInv.destroy_connected hcmd hmap hs (by rw [hclient]; rfl) remote now
    · have hconn : sess.client.any TcpClient.hasConnection = false := by
        cases hc : sess.client with
        | none => rfl
        | some client =>
            rw [hc, Option.some.injEq] at hclient
            exact decide_eq_false hclient
      refine ⟨_, destroy_unconnected hcmd hmap hs hconn remote now, (handleDestroy_frame s _).1,
        ?_, ?_⟩
      · rw [sessions_handleDestroy, if_pos hmap, hs]
        rfl
      · intro r hr
        rw [sessions_handleDestroy, if_neg]
        rw [hmap, Option.some.injEq]
        exact hr.symm

theorem destroy_releases_iff_connected :
    ∃ s, EventSystem.run step (create 5) connectedRun = some s ∧
      ¬ DestroyReleases s (destroyMsg 5) ⟨0x7f000001, 40000⟩ 0 := by
  obtain ⟨s, sess, hrun, hmap, -, -⟩ := connectedRun_state
  refine ⟨s, hrun, ?_⟩
  have hiff := (@destroy_releases_iff s ⟨_, _, ⟨5, rfl⟩, hrun⟩ (destroyMsg 5) rfl
    ⟨0x7f000001, 40000⟩ 0).1
  rw [hiff, readId_destroyMsg, hmap]
  exact Option.some_ne_none 1

/-- The session is still connecting to D when its DESTROY arrives. -/
theorem destroy_connecting_stays :
    ∃ s s', EventSystem.run step (create 5) [.control createMsg ⟨0x7f000001, 40000⟩ 0] = some s ∧
      s.sessionMap[(5 : IUINT32)]? = some 1 ∧
      s.controlThenLoop (destroyMsg 5) ⟨0x7f000001, 40000⟩ 0 = .ok s' ∧
      s'.sessionMap[(5 : IUINT32)]? = some 1 ∧
      ¬ DestroyReleases s (destroyMsg 5) ⟨0x7f000001, 40000⟩ 0 := by
  have hrun : (EventSystem.run step (create 5) [.control createMsg ⟨0x7f000001, 40000⟩ 0]).map
      (fun s => (s.sessionMap[(5 : IUINT32)]?,
        (s.controlThenLoop (destroyMsg 5) ⟨0x7f000001, 40000⟩ 0).toOption.map
          (fun s' => s'.sessionMap[(5 : IUINT32)]?)))
      = some (some 1, some (some 1)) := by
    decide +kernel
  obtain ⟨s, hs, heq⟩ := Option.map_eq_some_iff.mp hrun
  obtain ⟨hmap, hloop⟩ := Prod.mk.inj heq
  obtain ⟨s', hok, hmap'⟩ := Option.map_eq_some_iff.mp hloop
  have hok' : s.controlThenLoop (destroyMsg 5) ⟨0x7f000001, 40000⟩ 0 = .ok s' := by
    cases hc : s.controlThenLoop (destroyMsg 5) ⟨0x7f000001, 40000⟩ 0 with
    | error e =>
        rw [hc] at hok
        cases hok
    | ok x =>
        rw [hc] at hok
        rw [Option.some.inj hok]
  refine ⟨s, s', hs, hmap, hok', hmap', ?_⟩
  have hinv : HeapInv s := EventSystem.run_invariant (fun _ _ _ hI hstep => hI.step hstep)
    (.create 5) hs
  exact hinv.not_destroyReleases rfl (by rw [readId_destroyMsg]; exact hmap) _ _

end KcpServer
end Server
end UdpSpeed
