/-
  UdpSpeed.Proxy.Callbacks

  The proxy on top of muduo's `TcpServer`.  The step function of the proxy takes
  for granted what muduo guarantees about its callbacks, and that a read of freed
  memory returns; here the callbacks are those of a run of the server, and neither
  need be.
-/

import UdpSpeed.Muduo.Lifecycle
import UdpSpeed.Proxy.Safety

namespace UdpSpeed

open Kcp Control Muduo Std

namespace Proxy

/-- The event a callback of muduo is. -/
def Event.ofCallback : TcpConnectionPtr × Callback → Event
  | (_, .up) => .connUp
  | (c, .message data) => .message c data
  | (c, .down) => .connDown c
  | (c, .destroyed) => .connDestroyed c

/-- The event is a callback of muduo. -/
def Event.isCallback : Event → Bool
  | .connUp => true
  | .connDown _ => true
  | .connDestroyed _ => true
  | .message _ _ => true
  | _ => false

namespace KcpProxy

variable {p p' : KcpProxy} {returns : FreedRead}

/-- The handlers alone: no event is ruled out, and a read of freed memory does
    what it does. -/
def handled (returns : FreedRead) (p : KcpProxy) (e : Event) : Option KcpProxy :=
  (p.handle e returns).toOption

theorem handled_eq_some {e : Event} :
    handled returns p e = some p' ↔ p.handle e returns = .ok p' := by
  unfold handled
  cases p.handle e returns <;> simp [Except.toOption]

/-- An id comes before its connection has sent anything: the session that would
    take it has nothing queued. -/
def prompt (p : KcpProxy) : Event → Bool
  | .control msg =>
      readCmd msg ≠ rspCreateSession ||
        (p.uninitedSessList.head?.bind p.lockSess).all (fun sess => sess.payloadList = [])
  | _ => true

/-! ## The contract as the proxy sees it -/

/-- The stage of a connection. -/
def stage (p : KcpProxy) (c : ConnId) : Option Bool := p.conns[c]?.map (fun conn => conn.state.live)

/-- What the proxy's connection objects say of the contract. -/
def contract (p : KcpProxy) : Contract where
  next := p.nextConnId
  stage := p.stage

theorem contract_create : create.contract = Contract.create := by
  have hstage : create.stage = fun _ => none := by
    funext c
    simp [stage, create]
  unfold contract
  rw [hstage]
  rfl

theorem live_iff_stage (c : ConnId) : p.live c = true ↔ p.stage c = some true := by
  unfold live stage
  cases p.conns[c]? with
  | none => simp
  | some conn => simp

/-- What the contract allows is enabled. -/
theorem enabled_of_contract {entry : TcpConnectionPtr × Callback} {k : Contract}
    (h : Contract.step p.contract entry = some k) : p.enabled (.ofCallback entry) := by
  obtain ⟨c, cb⟩ := entry
  rcases Contract.step_cases h with ⟨rfl, -, -⟩ | ⟨data, rfl, hstage, hne, -, -⟩ |
    ⟨rfl, hstage, -⟩ | ⟨rfl, hstage, -⟩
  · rfl
  · show (p.live c && decide (data ≠ [])) = true
    rw [(live_iff_stage c).mpr hstage, decide_eq_true hne]
    rfl
  · exact (live_iff_stage c).mpr hstage
  · change p.stage c = some false at hstage
    show (p.conns[c]?.isSome && !p.live c) = true
    have hdead : p.live c = false := by
      rw [← Bool.not_eq_true, live_iff_stage, hstage]
      simp
    have hsome : p.conns[c]?.isSome = true := by
      rw [← Option.isSome_map (f := fun conn => conn.state.live)]
      exact congrArg Option.isSome hstage
    rw [hdead, hsome]
    rfl

/-- A connection object has gone from one stage to another. -/
theorem contract_update {c : ConnId} {st : Option Bool} (hnext : p'.nextConnId = p.nextConnId)
    (hstage : ∀ d, p'.stage d = if c = d then st else p.stage d) :
    p'.contract = { p.contract with stage := Function.update p.contract.stage c st } := by
  have hfun : p'.stage = Function.update p.stage c st := by
    funext d
    rw [hstage d]
    by_cases hd : c = d
    · subst hd
      rw [if_pos rfl, Function.update_self]
    · rw [if_neg hd, Function.update_of_ne (Ne.symm hd)]
  unfold contract
  rw [hnext, hfun]

theorem contract_congr (hnext : p'.nextConnId = p.nextConnId)
    (hstage : ∀ d, p'.stage d = p.stage d) : p'.contract = p.contract := by
  unfold contract
  rw [hnext, funext hstage]

theorem stage_setSess (ref : ConnId) (sess : KcpDataSession) (d : ConnId) :
    (p.setSess ref sess).stage d = p.stage d := by
  unfold stage
  rw [conns_setSess]
  split_ifs
  · cases p.conns[d]? <;> rfl
  · rfl

theorem stage_setConnState (ref : ConnId) (f : StateE → StateE) (d : ConnId) :
    (p.setConnState ref f).stage d =
      if ref = d then p.conns[d]?.map (fun conn => (f conn.state).live) else p.stage d := by
  unfold stage
  rw [conns_setConnState]
  split_ifs
  · cases p.conns[d]? <;> rfl
  · rfl

theorem Touch.contract (h : Touch p p') : p'.contract = p.contract := by
  apply contract_congr h.nextConnId
  intro d
  have hface := congrArg (Option.map (fun face => StateE.live face.1)) (h.face d)
  rw [Option.map_map, Option.map_map] at hface
  exact hface

/-- What is no callback leaves the stages alone. -/
theorem Effect.contract_other {e : Event} (heff : Effect p e p') (h : e.isCallback = false) :
    p'.contract = p.contract := by
  cases heff with
  | connUp => cases h
  | connDown hs => cases h
  | connDestroyed hdead => cases h
  | message hs hne => cases h
  | controlDatagram hconv hparse => rfl
  | unknownConv hconv hmap => rfl
  | quiet hconv hmap ht => exact ht.contract
  | deliver hconv hmap ht hs hid => exact ht.contract
  | timer ht => exact ht.contract
  | rspUnused hcmd hempty => rfl
  | @rspGiven msg ref rest sess sess' accepted hcmd hlist hs hinit =>
      exact contract_congr rfl (stage_setSess ref sess')
  | @destroyHeld msg c hcmd hmap =>
      refine @contract_congr p (p.setConnState c StateE.forceClose) rfl (fun d => ?_)
      rw [stage_setConnState]
      simp only [StateE.live_forceClose]
      exact ite_id _
  | ignored hcmd => rfl

/-- A callback moves the stages as the contract says. -/
theorem Effect.contract_callback {entry : TcpConnectionPtr × Callback} {k : Contract}
    (heff : Effect p (.ofCallback entry) p') (h : Contract.step p.contract entry = some k) :
    p'.contract = k := by
  obtain ⟨c, cb⟩ := entry
  rcases Contract.step_cases h with ⟨rfl, hnext, rfl⟩ | ⟨data, rfl, -, -, -, rfl⟩ |
    ⟨rfl, hstage, rfl⟩ | ⟨rfl, hstage, rfl⟩
  · change c = p.nextConnId at hnext
    subst hnext
    cases heff with
    | connUp =>
        have hstage : (p.newConnection.onConnected p.nextConnId).stage =
            Function.update p.stage p.nextConnId (some true) := by
          funext d
          unfold stage
          rw [conns_connUp]
          by_cases hd : p.nextConnId = d
          · subst hd
            rw [if_pos rfl, Function.update_self]
            rfl
          · rw [if_neg hd, Function.update_of_ne (Ne.symm hd)]
        show Contract.mk _ _ = Contract.mk _ _
        rw [hstage]
        rfl
  · cases heff with
    | @message _ sess _ hs hne =>
        exact contract_congr rfl (stage_setSess c (sess.sendToTunnel data).1)
  · change p.stage c = some true at hstage
    cases heff with
    | @connDown _ sess hs =>
        refine @contract_update p _ c (some false)
          (nextConnId_onDisconnected (p.setConnState c (fun _ => .kDisconnected)) c sess)
          (fun d => ?_)
        rw [stage, conns_onDisconnected]
        change (p.setConnState c (fun _ => .kDisconnected)).stage d = _
        rw [stage_setConnState]
        split_ifs with hd
        · subst hd
          obtain ⟨conn, hconn, -⟩ := Option.map_eq_some_iff.mp hstage
          rw [hconn]
          rfl
        · rfl
  · cases heff with
    | connDestroyed hdead =>
        refine @contract_update p (p.onConnDestroyed c) c none rfl (fun d => ?_)
        unfold stage
        rw [conns_onConnDestroyed]
        split_ifs <;> rfl

/-! ## Runs -/

/-- Nothing that was freed is read in a prompt event, unless it is a control
    datagram. -/
theorem handle_prompt {e : Event} (hadm : p.admissible e) (h : p.prompt e) :
    p.handle e returns = p.handle e := by
  cases e with
  | connUp => rfl
  | connDown c => rfl
  | connDestroyed c => rfl
  | message c data => rfl
  | timer clock => rfl
  | datagram bytes =>
      unfold admissible at hadm
      rw [Bool.and_eq_true, decide_eq_true_eq] at hadm
      show (if datagramConv bytes = 0 then _ else _) = (if datagramConv bytes = 0 then _ else _)
      rw [if_neg hadm.2, if_neg hadm.2]
  | control msg =>
      show p.handleControlMessage msg returns = p.handleControlMessage msg
      unfold handleControlMessage
      split_ifs with hempty hrsp
      · rfl
      · unfold handleRsp
        dsimp only
        cases hlist : p.uninitedSessList with
        | nil => rw [show (p.noteRsp (readId msg)).uninitedSessList = [] from hlist]
        | cons ref rest =>
            rw [show (p.noteRsp (readId msg)).uninitedSessList = ref :: rest from hlist]
            dsimp only
            rw [show (p.noteRsp (readId msg)).lockSess ref = p.lockSess ref from rfl]
            cases hlock : p.lockSess ref with
            | none => rfl
            | some sess =>
                have hnil : sess.payloadList = [] := by
                  unfold prompt at h
                  simpa [hlist, hlock, hrsp] using h
                dsimp only
                rw [KcpDataSession.init_of_nil hnil]
      · rfl
      · rfl

/-- One event on top of a server: a callback is in its turn, anything else may
    come at any time. -/
theorem TableInv.handled (h : TableInv p) {e : Event} (hen : p.enabled e)
    (hadm : p.admissible e) :
    ∃ p', p.handle e = .ok p' ∧ EventSystem.restrict step admissible p e = some p' ∧
      TableInv p' ∧ Effect p e p' := by
  obtain ⟨p', hok, heff⟩ := h.handle_admissible hen hadm
  have hstep : EventSystem.restrict step admissible p e = some p' :=
    EventSystem.restrict_eq_some.mpr ⟨hadm, step_eq_some.mpr ⟨hen, hok⟩⟩
  exact ⟨p', hok, hstep, h.step_admissible hstep, heff⟩

/-- How the handler of an event ends: it does what the step function does, or it
    dies in the log line of `init`, with something queued. -/
def Handles (returns : FreedRead) (p : KcpProxy) (e : Event) : Prop :=
  (∃ p', p.handle e returns = .ok p' ∧
    EventSystem.restrict step admissible p e = some p') ∨
      (p.prompt e = false ∧ p.handle e returns = .error .freedRead)

/-- The handlers alone, event by event, from any state with sound tables. -/
theorem handles_run (h : TableInv p) {cbs : List (TcpConnectionPtr × Callback)} {k : Contract}
    (hrun : EventSystem.run Contract.step p.contract cbs = some k) {es : List Event}
    (hes : es.filter Event.isCallback = cbs.map Event.ofCallback)
    (hadm : EventSystem.EachEvent (handled returns) (fun p e => p.admissible e = true) p es) :
    EventSystem.EachEvent (handled returns) (Handles returns) p es := by
  induction es generalizing p cbs with
  | nil => exact EventSystem.eachEvent_nil _ _
  | cons e rest ih =>
      obtain ⟨hhead, hrest⟩ := EventSystem.eachEvent_cons.mp hadm
      -- the event is due, and the callbacks left are those of the contract left
      obtain ⟨hen, cbs', hes', hleft⟩ : p.enabled e = true ∧ ∃ cbs',
          rest.filter Event.isCallback = cbs'.map Event.ofCallback ∧
          ∀ p', Effect p e p' → EventSystem.run Contract.step p'.contract cbs' = some k := by
        by_cases he : e.isCallback
        · rw [List.filter_cons_of_pos he] at hes
          cases cbs with
          | nil => cases hes
          | cons entry cbs =>
              rw [List.map_cons, List.cons.injEq] at hes
              obtain ⟨rfl, hes⟩ := hes
              rw [EventSystem.run, Option.bind_eq_some_iff] at hrun
              obtain ⟨k₁, hk₁, hk⟩ := hrun
              refine ⟨enabled_of_contract hk₁, cbs, hes, fun p' heff => ?_⟩
              rw [heff.contract_callback hk₁]
              exact hk
        · rw [List.filter_cons_of_neg he] at hes
          have hen : p.enabled e = true := by
            cases e <;> first | rfl | exact absurd rfl he
          refine ⟨hen, cbs, hes, fun p' heff => ?_⟩
          rw [heff.contract_other (Bool.not_eq_true _ ▸ he)]
          exact hrun
      obtain ⟨p₁, hok, hstep, hinv, heff⟩ := h.handled hen hhead
      refine EventSystem.eachEvent_cons.mpr ⟨?_, fun p' hp' => ?_⟩
      · by_cases hprompt : p.prompt e
        · exact Or.inl ⟨p₁, (handle_prompt hhead hprompt).trans hok, hstep⟩
        · rcases p.handle_freed e returns with hsame | hdies
          · exact Or.inl ⟨p₁, hsame.trans hok, hstep⟩
          · exact Or.inr ⟨Bool.eq_false_of_not_eq_true hprompt, hdies⟩
      · have hok' := handle_returns (handled_eq_some.mp hp')
        obtain rfl := Except.ok.inj (hok.symm.trans hok')
        exact ih hinv (hleft p₁ heff) hes' (hrest p₁ hp')

/-- With every id given before its connection has sent anything no handler dies. -/
theorem run_of_handles {es : List Event}
    (hall : EventSystem.EachEvent (handled returns) (Handles returns) p es)
    (hprompt : EventSystem.EachEvent (handled returns) (fun p e => p.prompt e = true) p es) :
    ∃ p', EventSystem.run (handled returns) p es = some p' ∧
      EventSystem.run (EventSystem.restrict step admissible) p es = some p' := by
  induction es generalizing p with
  | nil => exact ⟨p, rfl, rfl⟩
  | cons e rest ih =>
      obtain ⟨hhead, hrest⟩ := EventSystem.eachEvent_cons.mp hall
      obtain ⟨hfirst, hlater⟩ := EventSystem.eachEvent_cons.mp hprompt
      rcases hhead with ⟨p₁, hok, hstep⟩ | ⟨hnot, -⟩
      · have hp₁ := handled_eq_some.mpr hok
        rw [EventSystem.run, EventSystem.run, hp₁, hstep]
        exact ih (hrest p₁ hp₁) (hlater p₁ hp₁)
      · rw [hfirst] at hnot
        cases hnot

/-- **The proxy on top of muduo**: let the callbacks of a run of the server mix in
    any way with datagrams, timers and control messages.  Each handler does what the
    step function does, unless an id has come for a connection that has something
    queued and the log line of `init` dies of what it has freed.  If no id comes so
    late no handler aborts. -/
theorem survives_on_muduo {s : TcpServer} (h : s.Reachable) (returns : FreedRead)
    {es : List Event} (hes : es.filter Event.isCallback = s.callbacks.map Event.ofCallback)
    (hadm : EventSystem.EachEvent (handled returns) (fun p e => p.admissible e = true) create
      es) :
    EventSystem.EachEvent (handled returns) (Handles returns) create es ∧
      (EventSystem.EachEvent (handled returns) (fun p e => p.prompt e = true) create es →
        ∃ p, EventSystem.run (handled returns) create es = some p ∧
          EventSystem.run (EventSystem.restrict step admissible) create es = some p) := by
  obtain ⟨cbs, hcbs, hrun⟩ := h.inv.2
  rw [hcbs] at hes
  have hstart : EventSystem.run Contract.step create.contract cbs = some s.contract := by
    rw [contract_create]
    exact hrun
  have hall := handles_run .create hstart hes hadm
  exact ⟨hall, run_of_handles hall⟩

/-- A connection is given an id, sends and is closed, with a timer and a late
    datagram in between. -/
theorem survives_on_muduo_session :
    ∃ p, EventSystem.run (handled fun _ => false) create
        [.connUp, .control (rspMsg 7), .message 1 [71, 69, 84], .timer 20, .connDown 1,
          .datagram [7, 0, 0, 0], .connDestroyed 1] = some p ∧
      EventSystem.run (EventSystem.restrict step admissible) create
        [.connUp, .control (rspMsg 7), .message 1 [71, 69, 84], .timer 20, .connDown 1,
          .datagram [7, 0, 0, 0], .connDestroyed 1] = some p :=
  (survives_on_muduo (TcpServer.sessionAt_reachable (k := 6) (by decide +kernel))
    (fun _ => false) (by decide +kernel) (by decide +kernel)).2 (by decide +kernel)

end KcpProxy
end Proxy
end UdpSpeed
