/-
  UdpSpeed.Server.Safety

  Sessions and their destination connections along whole runs of the server:
  what happens when the D connection of a session is lost, and which sessions
  go on holding a D connection after they left the map.
-/

import UdpSpeed.Server.Effect

namespace UdpSpeed

open Kcp Control Muduo Std

namespace Server
namespace KcpServer

/-- A state of a server that started with some value of the clock. -/
def ServerReachable (s : KcpServer) : Prop :=
  EventSystem.Reachable step (fun s₀ => ∃ id, s₀ = create id) s

theorem ServerReachable.heapInv {s : KcpServer} (h : ServerReachable s) : HeapInv s := by
  refine EventSystem.Reachable.invariant ?_ (fun _ _ _ hinv hstep => hinv.step hstep) h
  rintro _ ⟨id, rfl⟩
  exact .create id

/-! ## Loss of the D connection -/

/-- The two notices that the D connection of the session at `ref` is gone: it
    goes down after having been up, or the 3-second check finds it not
    connected. -/
inductive LossNotice (ref : SessRef) (sess : KcpServerSession) : Event → Prop where
  | down (hlive : sess.conn.any StateE.live) : LossNotice ref sess (.closed ref)
  | check (hpending : sess.checkPending)
      (hconn : sess.client.any TcpClient.hasConnection = false) :
      LossNotice ref sess (.checkConnection ref)

/-- The handler of `e` returns, takes exactly `id` out of the map, and a further
    notice for the same session changes nothing. -/
def Retires (s : KcpServer) (e : Event) (id : IUINT32) (ref : SessRef) : Prop :=
  ∃ s', s.handle e = .ok s' ∧ s'.sessionMap[id]? = none ∧
    (∀ id', id' ≠ id → s'.sessionMap[id']? = s.sessionMap[id']?) ∧
    ∀ e', e' = .closed ref ∨ e' = .checkConnection ref → s'.enabled e' →
      ∃ s'', s'.handle e' = .ok s'' ∧ ∀ id' : IUINT32, s''.sessionMap[id']? = s'.sessionMap[id']?

/-- Either notice calls the callback nobody stored, unless a DESTROY has taken
    the client before the check: then the check does nothing. -/
theorem HeapInv.lossNotice {s : KcpServer} (h : HeapInv s) {ref : SessRef}
    {sess : KcpServerSession} {e : Event} (hs : s.sessions[ref]? = some sess)
    (hloss : LossNotice ref sess e) :
    s.handle e = .error .badFunctionCall ∨
      (e = .checkConnection ref ∧ sess.client = none ∧
        s.handle e = .ok (s.setSess ref { sess with checkPending := false })) := by
  cases hloss with
  | down hlive =>
      simp only [handle, onSession, hs]
      exact Or.inl (h.onConnectionDown hs)
  | check hpending hconn =>
      have hhandle : s.handle (.checkConnection ref) = s.onCheckConnection ref sess := by
        simp only [handle, onSession, hs]
      rw [hhandle]
      cases hclient : sess.client with
      | none => exact Or.inr ⟨rfl, rfl, by simp only [KcpServer.onCheckConnection, hclient]⟩
      | some client =>
          rw [hclient, Option.any_some] at hconn
          exact Or.inl (h.onCheckConnection hs hclient hconn)

theorem HeapInv.not_retires {s : KcpServer} (h : HeapInv s) {id : IUINT32} {ref : SessRef}
    {sess : KcpServerSession} {e : Event} (hmap : s.sessionMap[id]? = some ref)
    (hs : s.sessions[ref]? = some sess) (hloss : LossNotice ref sess e) :
    ¬ Retires s e id ref := by
  rintro ⟨s', hok, hgone, -⟩
  rcases h.lossNotice hs hloss with hthrow | ⟨-, -, hsame⟩
  · rw [hthrow] at hok
    cases hok
  · obtain rfl := Except.ok.inj (hsame.symm.trans hok)
    change s.sessionMap[id]? = none at hgone
    rw [hmap] at hgone
    cases hgone

/-- **The loss of a D connection never retires its session.**  In every
    reachable state, for every session in the map: `connectSvr` drops the
    callback it is given, so both notices end in `std::bad_function_call`; only
    a check that finds no client returns, and it leaves the map alone. -/
theorem connectionLost_never_retires {s : KcpServer} (h : ServerReachable s) {id : IUINT32}
    {ref : SessRef} {sess : KcpServerSession} {e : Event} (hmap : s.sessionMap[id]? = some ref)
    (hs : s.sessions[ref]? = some sess) (hloss : LossNotice ref sess e) :
    sess.conv = id ∧ ¬ Retires s e id ref ∧
      (e = .closed ref ∨ sess.client ≠ none → s.handle e = .error .badFunctionCall) := by
  obtain ⟨sess', hs', hid⟩ := h.heapInv.stored id ref hmap
  obtain rfl := Option.some.inj (hs.symm.trans hs')
  refine ⟨hid, h.heapInv.not_retires hmap hs hloss, ?_⟩
  intro hcase
  rcases h.heapInv.lossNotice hs hloss with hthrow | ⟨rfl, hclient, -⟩
  · exact hthrow
  · rcases hcase with he | hne
    · cases he
    · exact absurd hclient hne

/-- One session is created and connects to D. -/
def connectedRun : List Event :=
  [.control createMsg ⟨0x7f000001, 40000⟩ 0, .connected 1]

theorem connectedRun_state :
    ∃ s sess, EventSystem.run step (create 5) connectedRun = some s ∧
      s.sessionMap[(5 : IUINT32)]? = some 1 ∧ s.sessions[(1 : SessRef)]? = some sess ∧
      LossNotice 1 sess (.closed 1) := by
  have hrun : (EventSystem.run step (create 5) connectedRun).map
      (fun s => (s.sessionMap[(5 : IUINT32)]?, s.sessions[(1 : SessRef)]?.map (·.conn)))
        = some (some 1, some (some .kConnected)) := by
    decide +kernel
  obtain ⟨s, hs, heq⟩ := Option.map_eq_some_iff.mp hrun
  obtain ⟨hmap, hconn⟩ := Prod.mk.inj heq
  obtain ⟨sess, hsess, hst⟩ := Option.map_eq_some_iff.mp hconn
  exact ⟨s, sess, hs, hmap, hsess, .down (by rw [hst]; rfl)⟩

theorem connectionLost_never_retires_connected :
    ∃ s sess, EventSystem.run step (create 5) connectedRun = some s ∧
      s.sessions[(1 : SessRef)]? = some sess ∧ sess.conv = 5 ∧
      s.handle (.closed 1) = .error .badFunctionCall := by
  obtain ⟨s, sess, hrun, hmap, hs, hloss⟩ := connectedRun_state
  have h := connectionLost_never_retires ⟨_, _, ⟨5, rfl⟩, hrun⟩ hmap hs hloss
  exact ⟨s, sess, hrun, hs, h.1, h.2.2 (Or.inl rfl)⟩

/-- D closes the connection of the only session. -/
theorem connectionLost_not_retired :
    ∃ s sess, EventSystem.run step (create 5) connectedRun = some s ∧
      s.sessionMap[(5 : IUINT32)]? = some 1 ∧ s.sessions[(1 : SessRef)]? = some sess ∧
      LossNotice 1 sess (.closed 1) ∧ ¬ Retires s (.closed 1) 5 1 := by
  obtain ⟨s, sess, hrun, hmap, hs, hloss⟩ := connectedRun_state
  have hinv : HeapInv s := EventSystem.run_invariant (fun _ _ _ hI hstep => hI.step hstep)
    (.create 5) hrun
  exact ⟨s, sess, hrun, hmap, hs, hloss, hinv.not_retires hmap hs hloss⟩

/-! ## Orphans -/

/-- Every session whose client is connecting or connected is in the map under
    its own id. -/
def NoOrphans (s : KcpServer) : Prop :=
  ∀ (ref : SessRef) (sess : KcpServerSession), s.sessions[ref]? = some sess →
    sess.clientActive → s.sessionMap[sess.conv]? = some ref

/-- The event takes no session with an active client out of the map: the idle
    timer finds none that is idle, and a CREATE does not reuse the key of
    one. -/
def SparesActive (s : KcpServer) : Event → Prop
  | .deadSessionTimer now => ∀ (id : IUINT32) (ref : SessRef) (sess : KcpServerSession),
      s.sessionMap[id]? = some ref → s.sessions[ref]? = some sess → sess.clientActive →
        sess.isIdle now = false
  | .control msg _ _ => readCmd msg = cmdCreateSession →
      ∀ (ref : SessRef) (sess : KcpServerSession), s.sessionMap[(newId s.id).1]? = some ref →
        s.sessions[ref]? = some sess → sess.clientActive = false
  | _ => True

/-- Writing back an object that does not become active. -/
theorem NoOrphans.setSess {s : KcpServer} (h : NoOrphans s) {ref : SessRef}
    {sess sess' : KcpServerSession} (hs : s.sessions[ref]? = some sess)
    (hconv : sess'.conv = sess.conv) (hact : sess'.clientActive → sess.clientActive) :
    NoOrphans (s.setSess ref sess') := by
  intro r x hx hxact
  rw [sessions_setSess] at hx
  split_ifs at hx with hr
  · subst hr
    obtain rfl := Option.some.inj hx
    rw [hconv]
    exact h ref sess hs (hact hxact)
  · exact h r x hx hxact

theorem clientActive_takePayload (sess : KcpServerSession) (payload : List Byte) (now : Int) :
    (sess.takePayload payload now).1.clientActive = sess.clientActive := by
  obtain ⟨payloads, htake⟩ := sess.takePayload_frame payload now
  rw [htake]
  rfl

theorem noOrphans_handleCreate {s : KcpServer} (h : HeapInv s) (hp : NoOrphans s)
    (remote : SockAddr) (now : Int) :
    NoOrphans (s.handleCreate remote now) ↔
      ∀ (ref : SessRef) (sess : KcpServerSession), s.sessionMap[(newId s.id).1]? = some ref →
        s.sessions[ref]? = some sess → sess.clientActive = false := by
  -- the old session under the new key would lose its place in the map
  constructor
  · intro hp' ref sess hmap hs
    by_contra hact
    rw [Bool.not_eq_false] at hact
    obtain ⟨sess', hs', hconv⟩ := h.stored _ _ hmap
    obtain rfl := Option.some.inj (hs.symm.trans hs')
    have hne : s.nextRef ≠ ref := by
      rintro rfl
      rw [h.fresh s.nextRef le_rfl] at hs
      cases hs
    have hmap' := hp' ref sess (by rw [sessions_handleCreate, if_neg hne, hs]) hact
    rw [sessionMap_handleCreate, if_pos hconv.symm] at hmap'
    exact hne (Option.some.inj hmap')
  · intro hfree ref sess hs hact
    rw [sessions_handleCreate] at hs
    rw [sessionMap_handleCreate]
    -- the new session is in the map, the others have kept their places
    split_ifs at hs with hr
    · obtain rfl := Option.some.inj hs
      exact (if_pos rfl).trans (congrArg some hr)
    · have hmap := hp ref sess hs hact
      rw [if_neg]
      · exact hmap
      · intro hid
        rw [hfree ref sess (hid ▸ hmap) hs] at hact
        cases hact

theorem noOrphans_deadSessionTimer {s : KcpServer} (hp : NoOrphans s) (now : Int) :
    NoOrphans (s.onCheckDeadSessionTimer now) ↔ SparesActive s (.deadSessionTimer now) := by
  constructor
  · intro hp' id ref sess hmap hs hact
    have hmap' := ((sessionMap_deadSessionTimer s now sess.conv ref).mp (hp' ref sess hs hact)).2
    simpa [idleRef, hs] using hmap'
  -- the filter only takes out idle sessions
  · intro hspare ref sess hs hact
    have hs₀ : s.sessions[ref]? = some sess := hs
    have hmap := hp ref sess hs hact
    refine (sessionMap_deadSessionTimer s now sess.conv ref).mpr ⟨hmap, ?_⟩
    simp [idleRef, hs₀, hspare sess.conv ref sess hmap hs₀ hact]

theorem noOrphans_effect {s s' : KcpServer} {e : Event} (h : HeapInv s) (hp : NoOrphans s)
    (heff : Effect s e s') : NoOrphans s' ↔ SparesActive s e := by
  cases heff with
  | create hcmd =>
      rw [noOrphans_handleCreate h hp]
      exact ⟨fun hfree _ => hfree, fun hfree => hfree hcmd⟩
  | deadSessionTimer => exact noOrphans_deadSessionTimer hp _
  | destroy hcmd =>
      refine iff_of_true ?_ (fun hcreate => absurd (hcmd.symm.trans hcreate) (by decide))
      intro ref sess hs hact
      rw [sessions_handleDestroy] at hs
      rw [(handleDestroy_frame s _).1]
      -- a DESTROY releases the client and leaves the map alone
      split_ifs at hs
      · obtain ⟨sess₀, hs₀, rfl⟩ := Option.map_eq_some_iff.mp hs
        cases hact
      · exact hp ref sess hs hact
  | ignored => exact iff_of_true hp trivial
  | controlDatagram hparse => exact iff_of_true hp trivial
  | quiet hmap hs hcfg =>
      exact iff_of_true (hp.setSess hs (KcpServerSession.conv_withKcp hcfg) (fun hact => hact))
        trivial
  | @recv _ payload _ now ref sess kcp hmap hs hcfg hne =>
      have hconv := (KcpServerSession.takePayload_conv { sess with kcp := kcp } payload now).trans
        (KcpServerSession.conv_withKcp hcfg)
      have hact := clientActive_takePayload { sess with kcp := kcp } payload now
      exact iff_of_true (hp.setSess hs hconv (fun hx => hact ▸ hx)) trivial
  | @connected ref sess hs hclient =>
      -- connecting becomes connected: active before and after
      have hact : sess.clientActive := by rw [KcpServerSession.clientActive, hclient]; rfl
      have hp' : NoOrphans (s.setSess ref sess.onConnected.1) := hp.setSess hs rfl (fun _ => hact)
      exact iff_of_true hp' trivial
  | connectFailed hs hclient =>
      exact iff_of_true (hp.setSess hs rfl (fun hact => by cases hact)) trivial
  | @message ref sess kcp data hs hcfg =>
      have hp' : NoOrphans (s.setSess ref { sess with kcp := kcp }) :=
        hp.setSess hs (KcpServerSession.conv_withKcp hcfg) (fun hact => hact)
      exact iff_of_true hp' trivial
  | checked hs hclient => exact iff_of_true (hp.setSess hs rfl (fun hact => hact)) trivial
  | updateTimer ht =>
      refine iff_of_true ?_ trivial
      intro ref sess' hs' hact
      obtain ⟨sess, kcp, hs, rfl, hcfg⟩ := ht.of_sessions hs'
      rw [ht.sessionMap, KcpServerSession.conv_withKcp hcfg]
      exact hp ref sess hs hact
  | @released ref₀ sess₀ hs₀ hfree =>
      refine iff_of_true ?_ trivial
      intro ref sess hs hact
      refine hp ref sess ?_ hact
      change (s.sessions.erase ref₀)[ref]? = some sess at hs
      rw [TreeMap.getElem?_erase] at hs
      split_ifs at hs
      exact hs

/-- **No orphan destination connections, and exactly when.**  Along any run,
    every session with an active client is in the map under its own id exactly
    if no step takes such a session out of the map: no idle timer that finds
    one idle, no CREATE that reuses the key of one. -/
theorem noOrphans_iff (id : IUINT32) (es : List Event) :
    EventSystem.Always step NoOrphans (create id) es ↔
      EventSystem.EachStep step SparesActive (create id) es := by
  refine EventSystem.always_iff_eachStep (I := HeapInv) ?_ ?_ (.create id) ?_ es
  · exact fun s e s' hI hstep => hI.step hstep
  · intro s e s' hI hP hstep
    obtain ⟨hen, hok⟩ := step_eq_some.mp hstep
    exact noOrphans_effect hI hP (hI.handle_effect hen hok)
  · intro ref sess hs
    simp [create] at hs

/-- After an hour without a payload from the tunnel the idle timer drops the
    session of `connectedRun`; its client stays connected. -/
theorem noOrphans_idle :
    ∃ s sess, EventSystem.run step (create 5)
        (connectedRun ++ [.checkConnection 1, .deadSessionTimer 3600000001]) = some s ∧
      s.sessions[(1 : SessRef)]? = some sess ∧ sess.client = some .connected ∧
      s.sessionMap[sess.conv]? = none ∧ ¬ NoOrphans s := by
  have hrun : (EventSystem.run step (create 5)
      (connectedRun ++ [.checkConnection 1, .deadSessionTimer 3600000001])).map
        (fun s => s.sessions[(1 : SessRef)]?.map
          (fun sess => (sess.client, s.sessionMap[sess.conv]?)))
      = some (some (some .connected, none)) := by
    decide +kernel
  obtain ⟨s, hs, heq⟩ := Option.map_eq_some_iff.mp hrun
  obtain ⟨sess, hsess, hpair⟩ := Option.map_eq_some_iff.mp heq
  obtain ⟨hclient, hmap⟩ := Prod.mk.inj hpair
  refine ⟨s, sess, hs, hsess, hclient, hmap, ?_⟩
  intro hno
  have hin := hno 1 sess hsess (by rw [KcpServerSession.clientActive, hclient]; rfl)
  rw [hmap] at hin
  cases hin

end KcpServer
end Server
end UdpSpeed
