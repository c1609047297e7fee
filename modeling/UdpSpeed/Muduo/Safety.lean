/-
  UdpSpeed.Muduo.Safety

  The invariant of a `TcpServer` in its loop: who holds a connection object, and
  which functors still refer to it.  With it every handler gets past its asserts,
  makes its callbacks within the contract, and collects what is closed.
-/

import UdpSpeed.Muduo.TcpServer

namespace UdpSpeed
namespace Muduo

open EventSystem

namespace TcpServer

variable {s s' : TcpServer} {busy : Option TcpConnectionPtr} {left : List PendingFunctor}
variable {c d : TcpConnectionPtr}

/-- The contract as far as it has been used up. -/
def contract (s : TcpServer) : Contract where
  next := s.nextConnId
  stage := fun c => (s.objects c).map (fun conn => conn.state.live)

/-! ## The invariant -/

/-- The functors that refer to `c` and are still to be called: `left` of those being
    called, then the pending ones. -/
def queue (s : TcpServer) (left : List PendingFunctor) (c : TcpConnectionPtr) :
    List PendingFunctor :=
  (left ++ s.pendingFunctors).filter (fun f => f.conn = c)

/-- What holds of each connection between two steps.  The one `busy` names is in
    `handleClose`, between its two callbacks. -/
inductive Phase (s : TcpServer) (busy : Option TcpConnectionPtr) (left : List PendingFunctor)
    (c : TcpConnectionPtr) : Prop
  | absent (hobj : s.objects c = none) (hheld : c ∉ s.connections) (hqueue : s.queue left c = [])
  | live (conn : TcpConnection) (hobj : s.objects c = some conn) (hconn : conn.Inv)
      (hadded : conn.addedToLoop) (hlive : conn.state.live = true) (hheld : c ∈ s.connections)
      (n : Nat) (hqueue : s.queue left c = List.replicate n (.forceCloseInLoop c))
  | closing (hbusy : busy = some c) (conn : TcpConnection) (hobj : s.objects c = some conn)
      (hconn : conn.Inv) (hadded : conn.addedToLoop) (hdead : conn.state.live = false)
      (hheld : c ∈ s.connections) (n : Nat)
      (hqueue : s.queue left c = List.replicate n (.forceCloseInLoop c))
  | closed (conn : TcpConnection) (hobj : s.objects c = some conn) (hconn : conn.Inv)
      (hadded : conn.addedToLoop) (hdead : conn.state.live = false) (hheld : c ∉ s.connections)
      (n : Nat)
      (hqueue : s.queue left c =
        List.replicate n (.forceCloseInLoop c) ++ [.connectDestroyed c])
  | removed (conn : TcpConnection) (hobj : s.objects c = some conn) (hconn : conn.Inv)
      (hadded : conn.addedToLoop = false) (hdead : conn.state.live = false)
      (hheld : c ∉ s.connections) (hqueue : s.queue left c = [])
      (hkept : c ∈ s.functors.map PendingFunctor.conn)

/-- The invariant. -/
structure Inv (s : TcpServer) (busy : Option TcpConnectionPtr) (left : List PendingFunctor) :
    Prop where
  phase : ∀ c, Phase s busy left c
  fresh : ∀ c, s.nextConnId ≤ c → s.objects c = none

theorem inv_create : create.Inv none [] where
  phase := fun _ => .absent rfl (Finset.notMem_empty _) rfl
  fresh := fun _ _ => rfl

/-- A step that does not concern `d`. -/
theorem Phase.other (h : s.Phase busy left d) {busy' : Option TcpConnectionPtr}
    {left' : List PendingFunctor} (hbusy : busy = some d → busy' = some d)
    (hobj : s'.objects d = s.objects d) (hheld : d ∈ s'.connections ↔ d ∈ s.connections)
    (hqueue : s'.queue left' d = s.queue left d)
    (hkept : d ∈ s.functors.map PendingFunctor.conn → d ∈ s'.functors.map PendingFunctor.conn) :
    s'.Phase busy' left' d := by
  cases h with
  | absent h₁ h₂ h₃ => exact .absent (hobj.trans h₁) (hheld.not.mpr h₂) (hqueue.trans h₃)
  | live conn h₁ hconn hadded hlive h₂ n h₃ =>
      exact .live conn (hobj.trans h₁) hconn hadded hlive (hheld.mpr h₂) n (hqueue.trans h₃)
  | closing hb conn h₁ hconn hadded hdead h₂ n h₃ =>
      exact .closing (hbusy hb) conn (hobj.trans h₁) hconn hadded hdead (hheld.mpr h₂) n
        (hqueue.trans h₃)
  | closed conn h₁ hconn hadded hdead h₂ n h₃ =>
      exact .closed conn (hobj.trans h₁) hconn hadded hdead (hheld.not.mpr h₂) n
        (hqueue.trans h₃)
  | removed conn h₁ hconn hadded hdead h₂ h₃ h₄ =>
      exact .removed conn (hobj.trans h₁) hconn hadded hdead (hheld.not.mpr h₂)
        (hqueue.trans h₃) (hkept h₄)

theorem queue_queueInLoop (f : PendingFunctor) :
    (s.queueInLoop f).queue left c = s.queue left c ++ if f.conn = c then [f] else [] := by
  unfold queue queueInLoop
  rw [← List.append_assoc, List.filter_append]
  congr 1
  split_ifs with h
  · simp [h]
  · simp [h]

theorem objects_setConn_other (hne : d ≠ c) (conn : TcpConnection) :
    (s.setConn c conn).objects d = s.objects d := Function.update_of_ne hne _ _

theorem objects_setConn_self (conn : TcpConnection) :
    (s.setConn c conn).objects c = some conn := Function.update_self _ _ _

theorem onConn_none (hobj : s.objects c = none) (f : TcpConnection → Except Failed TcpServer) :
    s.onConn c f = .ok s := by
  unfold onConn
  rw [hobj]

theorem onConn_some {conn : TcpConnection} (hobj : s.objects c = some conn)
    (f : TcpConnection → Except Failed TcpServer) : s.onConn c f = f conn := by
  unfold onConn
  rw [hobj]

/-- The log is nothing but a log. -/
theorem Inv.callback (h : s.Inv busy left) (c : TcpConnectionPtr) (cb : Callback) :
    (s.callback c cb).Inv busy left where
  phase := fun d => (h.phase d).other id rfl Iff.rfl rfl id
  fresh := h.fresh

/-! ## What the handlers do to a connection -/

variable {conn conn' : TcpConnection}

/-- The state of a connection changes, not whether it is open. -/
theorem Inv.setConn (h : s.Inv busy left) (hobj : s.objects c = some conn)
    (hconn : conn.Inv → conn'.Inv) (hlive : conn'.state.live = conn.state.live)
    (hadded : conn'.addedToLoop = conn.addedToLoop) : (s.setConn c conn').Inv busy left where
  phase := fun d => by
    by_cases hd : d = c
    · subst hd
      have hself : (s.setConn d conn').objects d = some conn' := objects_setConn_self conn'
      cases h.phase d with
      | absent h₁ => cases hobj.symm.trans h₁
      | live _ h₁ hinv hadd hl h₂ n h₃ =>
          obtain rfl := Option.some.inj (h₁.symm.trans hobj)
          exact .live conn' hself (hconn hinv) (hadded.trans hadd) (hlive.trans hl) h₂ n h₃
      | closing hb _ h₁ hinv hadd hdead h₂ n h₃ =>
          obtain rfl := Option.some.inj (h₁.symm.trans hobj)
          exact .closing hb conn' hself (hconn hinv) (hadded.trans hadd) (hlive.trans hdead) h₂ n
            h₃
      | closed _ h₁ hinv hadd hdead h₂ n h₃ =>
          obtain rfl := Option.some.inj (h₁.symm.trans hobj)
          exact .closed conn' hself (hconn hinv) (hadded.trans hadd) (hlive.trans hdead) h₂ n h₃
      | removed _ h₁ hinv hadd hdead h₂ h₃ h₄ =>
          obtain rfl := Option.some.inj (h₁.symm.trans hobj)
          exact .removed conn' hself (hconn hinv) (hadded.trans hadd) (hlive.trans hdead) h₂ h₃ h₄
    · exact (h.phase d).other id (objects_setConn_other hd conn') Iff.rfl rfl id
  fresh := fun d hd => by
    by_cases hdc : d = c
    · subst hdc
      cases hobj.symm.trans (h.fresh d hd)
    · rw [objects_setConn_other hdc]
      exact h.fresh d hd

/-- One connection object has changed. -/
theorem contract_update {o : Option TcpConnection}
    (hobjects : s'.objects = Function.update s.objects c o) :
    s'.contract =
      { next := s'.nextConnId
        stage := Function.update s.contract.stage c (o.map (fun conn => conn.state.live)) } := by
  show Contract.mk _ _ = Contract.mk _ _
  congr 1
  funext d
  show (s'.objects d).map _ = _
  rw [hobjects]
  by_cases hd : d = c
  · subst hd
    rw [Function.update_self, Function.update_self]
  · rw [Function.update_of_ne hd, Function.update_of_ne hd]
    rfl

theorem stage_of (hobj : s.objects c = some conn) :
    s.contract.stage c = some conn.state.live := by
  show (s.objects c).map _ = _
  rw [hobj]
  rfl

theorem contract_setConn (hobj : s.objects c = some conn)
    (hlive : conn'.state.live = conn.state.live) :
    (s.setConn c conn').contract = s.contract := by
  have hupdate := @contract_update s (s.setConn c conn') c (some conn') rfl
  rw [Option.map_some, hlive, ← stage_of hobj, Function.update_eq_self] at hupdate
  exact hupdate

/-- An open connection is held by the server, and waits for no end. -/
theorem Inv.ofLive (h : s.Inv busy left) (hobj : s.objects c = some conn)
    (hlive : conn.state.live = true) :
    conn.Inv ∧ conn.addedToLoop ∧ c ∈ s.connections ∧
      ∃ n, s.queue left c = List.replicate n (.forceCloseInLoop c) := by
  have hopen : ∀ {conn'}, s.objects c = some conn' → conn'.state.live ≠ false := by
    intro conn' h₁ hdead
    obtain rfl := Option.some.inj (h₁.symm.trans hobj)
    cases hlive.symm.trans hdead
  cases h.phase c with
  | absent h₁ => cases hobj.symm.trans h₁
  | live _ h₁ hinv hadd _ h₂ n h₃ =>
      obtain rfl := Option.some.inj (h₁.symm.trans hobj)
      exact ⟨hinv, hadd, h₂, n, h₃⟩
  | closing _ _ h₁ _ _ hdead => exact absurd hdead (hopen h₁)
  | closed _ h₁ _ _ hdead => exact absurd hdead (hopen h₁)
  | removed _ h₁ _ _ hdead => exact absurd hdead (hopen h₁)

/-- An open connection may queue its close any number of times. -/
theorem Inv.queueForceClose (h : s.Inv busy left) (hobj : s.objects c = some conn)
    (hlive : conn.state.live = true) :
    (s.queueInLoop (.forceCloseInLoop c)).Inv busy left where
  phase := fun d => by
    have hqueue := @queue_queueInLoop s left d (.forceCloseInLoop c)
    by_cases hd : d = c
    · subst hd
      rw [show (PendingFunctor.forceCloseInLoop d).conn = d from rfl, if_pos rfl] at hqueue
      obtain ⟨hinv, hadd, hheld, n, hsame⟩ := h.ofLive hobj hlive
      refine .live conn hobj hinv hadd hlive hheld (n + 1) ?_
      rw [hqueue, hsame, List.replicate_succ']
    · rw [show (PendingFunctor.forceCloseInLoop c).conn = c from rfl, if_neg (Ne.symm hd),
        List.append_nil] at hqueue
      exact (h.phase d).other id rfl Iff.rfl hqueue id
  fresh := h.fresh

/-- The connection has been open and is so no longer. -/
def Past (s : TcpServer) (c : TcpConnectionPtr) : Prop :=
  c < s.nextConnId ∧ s.contract.stage c ≠ some true

/-- What the user may call changes nothing the contract speaks of, and queues
    nothing for a connection that is not open. -/
structure Quiet (s s' : TcpServer) : Prop where
  contract : s'.contract = s.contract
  connections : s'.connections = s.connections
  callbacks : s'.callbacks = s.callbacks
  functors : s'.functors = s.functors
  queue : ∀ c, s.contract.stage c ≠ some true → s'.queue [] c = s.queue [] c

theorem Quiet.refl (s : TcpServer) : Quiet s s := ⟨rfl, rfl, rfl, rfl, fun _ _ => rfl⟩

theorem Quiet.trans {s₁ s₂ s₃ : TcpServer} (h : Quiet s₁ s₂) (h' : Quiet s₂ s₃) :
    Quiet s₁ s₃ where
  contract := h'.contract.trans h.contract
  connections := h'.connections.trans h.connections
  callbacks := h'.callbacks.trans h.callbacks
  functors := h'.functors.trans h.functors
  queue := fun c hc => (h'.queue c (h.contract ▸ hc)).trans (h.queue c hc)

theorem quiet_setConn (hobj : s.objects c = some conn)
    (hlive : conn'.state.live = conn.state.live) : Quiet s (s.setConn c conn') where
  contract := contract_setConn hobj hlive
  connections := rfl
  callbacks := rfl
  functors := rfl
  queue := fun _ _ => rfl

theorem Inv.call (h : s.Inv busy left) (c : TcpConnectionPtr) (cl : ConnCall) :
    (s.call c cl).Inv busy left ∧ Quiet s (s.call c cl) := by
  unfold TcpServer.call
  cases hobj : s.objects c with
  | none => exact ⟨h, .refl s⟩
  | some conn =>
      dsimp only
      have hset := @Inv.setConn s busy left c conn (conn.call cl).1 h hobj
        (fun hinv => hinv.call cl) (by simp) (by simp)
      have hquiet : Quiet s (s.setConn c (conn.call cl).1) := quiet_setConn hobj (by simp)
      split_ifs with hqueues
      · have hlive : conn.state.live = true := TcpConnection.call_queues hqueues
        refine ⟨hset.queueForceClose (objects_setConn_self _) ?_, hquiet.contract, rfl, rfl, rfl,
          fun d hd => ?_⟩
        · rw [TcpConnection.call_live]
          exact hlive
        · have hne : c ≠ d := by
            rintro rfl
            exact hd ((stage_of hobj).trans (congrArg some hlive))
          rw [queue_queueInLoop, show (PendingFunctor.forceCloseInLoop c).conn = c from rfl,
            if_neg hne, List.append_nil]
          rfl
      · exact ⟨hset, hquiet⟩

theorem Inv.calls (h : s.Inv busy left) (cs : Calls) :
    (s.calls cs).Inv busy left ∧ Quiet s (s.calls cs) := by
  induction cs generalizing s with
  | nil => exact ⟨h, .refl s⟩
  | cons entry rest ih =>
      obtain ⟨c, cl⟩ := entry
      obtain ⟨hcall, hquiet⟩ := h.call c cl
      obtain ⟨hrest, hquiet'⟩ := ih hcall
      exact ⟨hrest, hquiet.trans hquiet'⟩

/-! ## Closing -/

/-- The callbacks made from `s` to `s'` are within the contract. -/
def Shows (s s' : TcpServer) : Prop :=
  ∃ cbs, s'.callbacks = s.callbacks ++ cbs ∧ run Contract.step s.contract cbs = some s'.contract

theorem Quiet.shows (h : Quiet s s') : Shows s s' :=
  ⟨[], by rw [h.callbacks, List.append_nil], by rw [h.contract]; rfl⟩

theorem Shows.trans {s₁ s₂ s₃ : TcpServer} (h : Shows s₁ s₂) (h' : Shows s₂ s₃) :
    Shows s₁ s₃ := by
  obtain ⟨cbs, hcbs, hrun⟩ := h
  obtain ⟨cbs', hcbs', hrun'⟩ := h'
  refine ⟨cbs ++ cbs', ?_, ?_⟩
  · rw [hcbs', hcbs, List.append_assoc]
  · rw [run_append, hrun, Option.bind_some]
    exact hrun'

/-- One callback. -/
theorem shows_one {cb : Callback} (hcb : s'.callbacks = s.callbacks ++ [(c, cb)])
    (hstep : Contract.step s.contract (c, cb) = some s'.contract) : Shows s s' := by
  refine ⟨[(c, cb)], hcb, ?_⟩
  rw [run, hstep]
  rfl

/-- What is past stays so. -/
theorem Shows.past (h : Shows s s') (hc : s.Past c) : s'.Past c := by
  obtain ⟨cbs, -, hrun⟩ := h
  exact Contract.stays (fun st => st ≠ some true) (fun hst => hst rfl) (fun _ => nofun) hrun hc

/-- What a handler leaves alone: the functors being called, and the queue of what is
    past. -/
structure Stays (s s' : TcpServer) : Prop where
  functors : s'.functors = s.functors
  queue : ∀ c, s.Past c → s'.queue [] c = s.queue [] c

theorem Quiet.stays (h : Quiet s s') : Stays s s' := ⟨h.functors, fun c hc => h.queue c hc.2⟩

theorem Stays.trans {s₁ s₂ s₃ : TcpServer} (h : Stays s₁ s₂) (hshows : Shows s₁ s₂)
    (h' : Stays s₂ s₃) : Stays s₁ s₃ where
  functors := h'.functors.trans h.functors
  queue := fun c hc => (h'.queue c (hshows.past hc)).trans (h.queue c hc)

/-- A handler that ends well: no assert failed, the invariant holds again, and the
    callbacks were within the contract. -/
def Keeps (s : TcpServer) (left : List PendingFunctor) (r : Except Failed TcpServer) : Prop :=
  ∃ s', r = .ok s' ∧ s'.Inv none left ∧ Shows s s' ∧ Stays s s'

/-- The rest of a handler. -/
theorem Keeps.bind {left' : List PendingFunctor} {r : Except Failed TcpServer}
    {f : TcpServer → Except Failed TcpServer} (h : Keeps s left r)
    (hrest : ∀ s', s'.Inv none left → Stays s s' → Keeps s' left' (f s')) :
    Keeps s left' (match r with
      | .error e => .error e
      | .ok s => f s) := by
  obtain ⟨s₁, hr, hinv, hshows, hstays⟩ := h
  obtain ⟨s₂, hf, hinv', hshows', hstays'⟩ := hrest s₁ hinv hstays
  subst hr
  exact ⟨s₂, hf, hinv', hshows.trans hshows', hstays.trans hshows hstays'⟩

/-- What comes before a handler. -/
theorem Shows.keeps {s₁ : TcpServer} {r : Except Failed TcpServer} (h : Shows s s₁)
    (hstays : Stays s s₁) (hr : Keeps s₁ left r) : Keeps s left r := by
  obtain ⟨s', hok, hinv, hshows, hstays'⟩ := hr
  exact ⟨s', hok, hinv, h.trans hshows, hstays.trans h hstays'⟩

theorem Inv.keeps (h : s.Inv none left) : Keeps s left (.ok s) :=
  ⟨s, rfl, h, (Quiet.refl s).shows, (Quiet.refl s).stays⟩

/-- After `handleClose` has made its first callback. -/
theorem Inv.down (h : s.Inv none left) (hobj : s.objects c = some conn)
    (hlive : conn.state.live = true) :
    ((s.setConn c conn.disconnect).callback c .down).Inv (some c) left where
  phase := fun d => by
    by_cases hd : d = c
    · subst hd
      have hself : (s.setConn d conn.disconnect).objects d = some conn.disconnect :=
        objects_setConn_self _
      obtain ⟨hinv, hadd, hheld, n, hqueue⟩ := h.ofLive hobj hlive
      exact .closing rfl conn.disconnect hself hinv.disconnect hadd rfl hheld n hqueue
    · apply (h.phase d).other
      · intro hnone
        cases hnone
      · exact objects_setConn_other hd _
      · exact Iff.rfl
      · rfl
      · exact id
  fresh := fun d hd => by
    have hdc : d ≠ c := by
      rintro rfl
      cases hobj.symm.trans (h.fresh d hd)
    exact (objects_setConn_other hdc _).trans (h.fresh d hd)

theorem shows_down (hobj : s.objects c = some conn) (hlive : conn.state.live = true) :
    Shows s ((s.setConn c conn.disconnect).callback c .down) := by
  apply shows_one rfl
  have hstage : s.contract.stage c = some true := by
    rw [stage_of hobj, hlive]
  rw [Contract.step, if_pos hstage]
  have hupdate := @contract_update s ((s.setConn c conn.disconnect).callback c .down) c
    (some conn.disconnect) rfl
  exact congrArg some hupdate.symm

/-- The second callback of `handleClose`: the server lets go of the connection. -/
theorem Inv.removeConnectionInLoop (h : s.Inv (some c) left) (hheld : c ∈ s.connections)
    (hstage : s.contract.stage c = some false) :
    ∃ s', s.removeConnectionInLoop c = .ok s' ∧ s'.Inv none left ∧ Shows s s' ∧
      s'.functors = s.functors ∧ ∀ d, d ≠ c → s'.queue [] d = s.queue [] d := by
  refine ⟨_, if_pos hheld, ⟨fun d => ?_, h.fresh⟩, ⟨[], (List.append_nil _).symm, rfl⟩, rfl,
    fun d hd => ?_⟩
  · have hqueue := @queue_queueInLoop { s with connections := s.connections.erase c } left d
      (.connectDestroyed c)
    rw [show (PendingFunctor.connectDestroyed c).conn = c from rfl] at hqueue
    by_cases hd : d = c
    · subst hd
      rw [if_pos rfl] at hqueue
      cases h.phase d with
      | absent h₁ =>
          have hnone : s.contract.stage d = none := by
            show (s.objects d).map _ = _
            rw [h₁]
            rfl
          cases hnone.symm.trans hstage
      | live conn h₁ _ _ hlive =>
          rw [stage_of h₁, hlive] at hstage
          cases hstage
      | closing _ conn h₁ hinv hadd hdead _ n h₃ =>
          refine .closed conn h₁ hinv hadd hdead (Finset.notMem_erase d _) n ?_
          rw [hqueue]
          congr 1
      | closed _ _ _ _ _ h₂ => exact absurd hheld h₂
      | removed _ _ _ _ _ h₂ => exact absurd hheld h₂
    · rw [if_neg (Ne.symm hd), List.append_nil] at hqueue
      apply (h.phase d).other
      · intro hsome
        exact absurd (Option.some.inj hsome).symm hd
      · rfl
      · show d ∈ s.connections.erase c ↔ _
        rw [Finset.mem_erase]
        exact and_iff_right hd
      · exact hqueue
      · exact id
  · rw [queue_queueInLoop, show (PendingFunctor.connectDestroyed c).conn = c from rfl,
      if_neg (Ne.symm hd), List.append_nil]
    rfl

/-- **`handleClose` keeps its asserts**: the connection is open, and the server
    still holds it after whatever the user did in the down callback. -/
theorem Inv.handleClose (h : s.Inv none left) (hobj : s.objects c = some conn)
    (hlive : conn.state.live = true) (cs : Calls) : Keeps s left (s.handleClose c conn cs) := by
  obtain ⟨hcalls, hquiet⟩ := (h.down hobj hlive).calls cs
  obtain ⟨-, -, hheld, -⟩ := h.ofLive hobj hlive
  have hshows := (shows_down hobj hlive).trans hquiet.shows
  obtain ⟨s', hok, hinv, hshows', hfunctors, hqueue⟩ := hcalls.removeConnectionInLoop
    (hquiet.connections ▸ hheld) (by
      rw [hquiet.contract]
      exact stage_of (objects_setConn_self conn.disconnect))
  unfold TcpServer.handleClose
  rw [if_pos ((TcpConnection.live_iff _).mp hlive)]
  refine ⟨s', hok, hinv, hshows.trans hshows', hfunctors.trans hquiet.functors, fun d hd => ?_⟩
  have hne : d ≠ c := by
    rintro rfl
    exact hd.2 ((stage_of hobj).trans (congrArg some hlive))
  have hpast := (shows_down hobj hlive).past hd
  exact (hqueue d hne).trans (hquiet.queue d hpast.2)

/-! ## Events of a channel -/

theorem Inv.ofConn (h : s.Inv none left) (hobj : s.objects c = some conn) : conn.Inv := by
  cases h.phase c with
  | absent h₁ => cases hobj.symm.trans h₁
  | live _ h₁ hinv => exact Option.some.inj (hobj.symm.trans h₁) ▸ hinv
  | closing hb => cases hb
  | closed _ h₁ hinv => exact Option.some.inj (hobj.symm.trans h₁) ▸ hinv
  | removed _ h₁ hinv => exact Option.some.inj (hobj.symm.trans h₁) ▸ hinv

/-- **What the message callback is given**: what `readv` stored, at least one byte
    and at most `maxRead`. -/
theorem peek_readInput (h : conn.Inv) {bytes : List Byte} (hfinds : conn.finds (.data bytes)) :
    (conn.inputBuffer.readFd bytes).peek = bytes ∧ bytes ≠ [] ∧ bytes.length ≤ maxRead := by
  unfold TcpConnection.finds at hfinds
  rw [Bool.and_eq_true, decide_eq_true_eq, decide_eq_true_eq] at hfinds
  obtain ⟨hpos, hlen⟩ := hfinds
  refine ⟨?_, List.length_pos_iff.mp hpos, hlen.trans h.input.offered_le⟩
  rw [Buffer.peek_readFd, h.input.peek_eq, List.nil_append]

theorem Inv.handleRead (h : s.Inv none left) (hobj : s.objects c = some conn)
    (hlive : conn.state.live = true) {incoming : Incoming} (hfinds : conn.finds incoming)
    (cs : Calls) : Keeps s left (s.handleRead c conn incoming cs) := by
  cases incoming with
  | data bytes =>
      have hconn := h.ofConn hobj
      obtain ⟨hpeek, hne, hmax⟩ := peek_readInput hconn hfinds
      have hlen : bytes.length ≤ conn.inputBuffer.offered := by
        unfold TcpConnection.finds at hfinds
        rw [Bool.and_eq_true, decide_eq_true_eq, decide_eq_true_eq] at hfinds
        exact hfinds.2
      have hset := @Inv.setConn s none left c conn (conn.readInput bytes) h hobj
        (fun hinv => hinv.readInput hlen) rfl rfl
      have hcontract : (s.setConn c (conn.readInput bytes)).contract = s.contract :=
        contract_setConn hobj rfl
      generalize hs₁ : (s.setConn c (conn.readInput bytes)).callback c
        (.message (conn.inputBuffer.readFd bytes).peek) = s₁
      have hinv₁ : s₁.Inv none left := by
        rw [← hs₁]
        exact hset.callback _ _
      have hstays : Stays s s₁ := by
        rw [← hs₁]
        exact ⟨rfl, fun _ _ => rfl⟩
      have hshows : Shows s s₁ := by
        rw [← hs₁, hpeek]
        apply shows_one rfl
        have hstage : s.contract.stage c = some true := by
          rw [stage_of hobj, hlive]
        rw [Contract.step, if_pos ⟨hstage, hne, hmax⟩]
        exact congrArg some hcontract.symm
      obtain ⟨hcalls, hquiet⟩ := hinv₁.calls cs
      show Keeps s left (.ok (((s.setConn c (conn.readInput bytes)).callback c
        (.message (conn.inputBuffer.readFd bytes).peek)).calls cs))
      rw [hs₁]
      exact hshows.keeps hstays (hquiet.shows.keeps hquiet.stays hcalls.keeps)
  | eof => exact h.handleClose hobj hlive cs
  | error => exact h.keeps

theorem Inv.handleWrite (h : s.Inv none left) (c : TcpConnectionPtr) (room : Room) :
    Keeps s left (s.onConn c (fun conn => .ok (s.setConn c (conn.handleWrite room)))) := by
  cases hobj : s.objects c with
  | none =>
      rw [onConn_none hobj]
      exact h.keeps
  | some conn =>
      rw [onConn_some hobj]
      have hset := @Inv.setConn s none left c conn (conn.handleWrite room) h hobj
        (fun hinv => hinv.handleWrite room) (by simp) (by simp)
      have hquiet : Quiet s (s.setConn c (conn.handleWrite room)) :=
        quiet_setConn hobj (by simp)
      exact ⟨_, rfl, hset, hquiet.shows, hquiet.stays⟩

/-- A channel is registered as long as its connection is open. -/
theorem live_of_registered (h : conn.Inv) (hreg : (conn.reading || conn.writing) = true) :
    conn.state.live = true := by
  rw [← Bool.not_eq_false]
  intro hdead
  rw [h.reading, hdead, h.closed hdead] at hreg
  cases hreg

theorem Inv.handleEvent (h : s.Inv none left) (hobj : s.objects c = some conn)
    (hlive : conn.state.live = true) {revents : Revents} (hreported : revents.reported)
    {incoming : Incoming} (hfinds : conn.finds incoming) (cs : Calls) (room : Room) :
    Keeps s left (s.handleEvent c revents incoming cs room) := by
  have hwrite : ∀ s', s'.Inv none left → Keeps s' left (if revents.pollout then
      s'.onConn c (fun conn => .ok (s'.setConn c (conn.handleWrite room))) else .ok s') := by
    intro s' hinv
    split_ifs
    · exact hinv.handleWrite c room
    · exact hinv.keeps
  unfold Revents.reported at hreported
  unfold TcpServer.handleEvent
  by_cases hhup : (revents.pollhup && !revents.pollin) = true
  · -- hung up: no read comes after the close
    have hnoread : (revents.pollin || revents.pollpri || revents.pollrdhup) = false := by
      revert hreported hhup
      cases revents.pollin <;> cases revents.pollpri <;> cases revents.pollrdhup <;>
        cases revents.pollhup <;> simp
    rw [if_pos hhup]
    apply Keeps.bind
    · rw [onConn_some hobj]
      exact h.handleClose hobj hlive cs
    · intro s' hinv _
      rw [if_neg (by rw [hnoread]; decide)]
      exact hwrite s' hinv
  · rw [if_neg hhup]
    dsimp only
    apply Keeps.bind
    · split_ifs
      · rw [onConn_some hobj]
        exact h.handleRead hobj hlive hfinds cs
      · exact h.keeps
    · exact fun s' hinv _ => hwrite s' hinv

/-! ## Functors -/

/-- The front of the functors that are being called. -/
theorem queue_cons (f : PendingFunctor) (c : TcpConnectionPtr) :
    s.queue (f :: left) c = (if f.conn = c then [f] else []) ++ s.queue left c := by
  unfold queue
  rw [List.cons_append, List.filter_cons]
  split_ifs with h₁ h₂ h₂
  · rfl
  · exact absurd (of_decide_eq_true h₁) h₂
  · exact absurd (decide_eq_true h₂) h₁
  · rfl

/-- With a `forceCloseInLoop` taken the invariant still holds. -/
theorem Inv.popForceClose (h : s.Inv none (.forceCloseInLoop c :: left)) : s.Inv none left where
  phase := fun d => by
    have hqueue := @queue_cons s left (.forceCloseInLoop c) d
    rw [show (PendingFunctor.forceCloseInLoop c).conn = c from rfl] at hqueue
    by_cases hd : d = c
    · subst hd
      rw [if_pos rfl] at hqueue
      cases h.phase d with
      | absent _ _ h₃ =>
          rw [h₃] at hqueue
          cases hqueue
      | live conn h₁ hinv hadd hl h₂ n h₃ =>
          rw [h₃] at hqueue
          cases n with
          | zero => cases hqueue
          | succ n => exact .live conn h₁ hinv hadd hl h₂ n (List.cons.inj hqueue).2.symm
      | closing hb => cases hb
      | closed conn h₁ hinv hadd hdead h₂ n h₃ =>
          rw [h₃] at hqueue
          cases n with
          | zero => cases hqueue
          | succ n => exact .closed conn h₁ hinv hadd hdead h₂ n (List.cons.inj hqueue).2.symm
      | removed _ _ _ _ _ _ h₃ =>
          rw [h₃] at hqueue
          cases hqueue
    · rw [if_neg (Ne.symm hd), List.nil_append] at hqueue
      exact (h.phase d).other id rfl Iff.rfl hqueue.symm id
  fresh := h.fresh

/-- `forceCloseInLoop` closes a connection that is still open. -/
theorem Inv.callForceClose (h : s.Inv none left) (c : TcpConnectionPtr) (cs : Calls) :
    Keeps s left (s.callFunctor (.forceCloseInLoop c) cs) := by
  show Keeps s left (s.onConn c (fun conn => s.forceCloseInLoop c conn cs))
  cases hobj : s.objects c with
  | none =>
      rw [onConn_none hobj]
      exact h.keeps
  | some conn =>
      rw [onConn_some hobj]
      unfold TcpServer.forceCloseInLoop
      split_ifs with hstate
      · exact h.handleClose hobj ((TcpConnection.live_iff _).mpr hstate) cs
      · exact h.keeps

/-- A `connectDestroyed` at the front belongs to a closed connection, and no functor
    for that connection comes after it. -/
theorem Inv.frontDestroyed (h : s.Inv none (.connectDestroyed c :: left)) :
    ∃ conn, s.objects c = some conn ∧ conn.Inv ∧ conn.state.live = false ∧ c ∉ s.connections ∧
      s.queue left c = [] := by
  have hqueue := @queue_cons s left (.connectDestroyed c) c
  rw [show (PendingFunctor.connectDestroyed c).conn = c from rfl, if_pos rfl] at hqueue
  cases h.phase c with
  | absent _ _ h₃ =>
      rw [h₃] at hqueue
      cases hqueue
  | live _ _ _ _ _ _ n h₃ =>
      rw [h₃] at hqueue
      cases n <;> cases hqueue
  | closing hb => cases hb
  | closed conn h₁ hinv _ hdead h₂ n h₃ =>
      rw [h₃] at hqueue
      cases n with
      | zero => exact ⟨conn, h₁, hinv, hdead, h₂, (List.cons.inj hqueue).2.symm⟩
      | succ n => cases hqueue
  | removed _ _ _ _ _ _ h₃ =>
      rw [h₃] at hqueue
      cases hqueue

/-- **`connectDestroyed` keeps its asserts**: the channel leaves the loop, while the
    functor's reference keeps the object. -/
theorem Inv.callDestroyed (h : s.Inv none (.connectDestroyed c :: left))
    (hkept : c ∈ s.functors.map PendingFunctor.conn) (cs : Calls) :
    Keeps s left (s.callFunctor (.connectDestroyed c) cs) := by
  obtain ⟨conn, hobj, hinv, hdead, hheld, hempty⟩ := h.frontDestroyed
  have hstate := StateE.eq_kDisconnected hdead
  have hnone : (conn.reading || conn.writing) = false := by
    rw [hinv.reading, hinv.closed hdead, hdead]
    rfl
  have hok : s.callFunctor (.connectDestroyed c) cs =
      .ok (s.setConn c { conn with addedToLoop := false }) := by
    show s.onConn c (fun conn => s.connectDestroyed c conn cs) = _
    rw [onConn_some hobj]
    unfold TcpServer.connectDestroyed TcpServer.removeChannel
    rw [if_neg (by rw [hstate]; decide), if_neg (by rw [hnone]; decide)]
  have hquiet : Quiet s (s.setConn c { conn with addedToLoop := false }) :=
    quiet_setConn hobj rfl
  refine ⟨_, hok, ⟨fun d => ?_, fun d hd => ?_⟩, hquiet.shows, hquiet.stays⟩
  · by_cases hdc : d = c
    · subst hdc
      exact .removed { conn with addedToLoop := false } (objects_setConn_self _)
        ⟨hinv.reading, hinv.writing, hinv.closed, hinv.input, hinv.stream, hinv.fin⟩ rfl hdead
        hheld hempty hkept
    · have hqueue := @queue_cons s left (.connectDestroyed c) d
      rw [show (PendingFunctor.connectDestroyed c).conn = c from rfl, if_neg (Ne.symm hdc),
        List.nil_append] at hqueue
      exact (h.phase d).other id (objects_setConn_other hdc _) Iff.rfl hqueue.symm id
  · have hdc : d ≠ c := by
      rintro rfl
      cases hobj.symm.trans (h.fresh d hd)
    exact (objects_setConn_other hdc _).trans (h.fresh d hd)

/-- **The loop of `doPendingFunctors` keeps the asserts** of all it calls. -/
theorem Inv.callFunctors (h : s.Inv none left) (hleft : ∀ f ∈ left, f ∈ s.functors)
    (css : List Calls) : Keeps s [] (s.callFunctors left css) := by
  induction left generalizing s css with
  | nil => exact h.keeps
  | cons f rest ih =>
      have hcall : Keeps s rest (s.callFunctor f (css.headD [])) := by
        cases f with
        | forceCloseInLoop c => exact h.popForceClose.callForceClose c _
        | connectDestroyed c =>
            exact h.callDestroyed (List.mem_map_of_mem (hleft _ List.mem_cons_self)) _
      unfold TcpServer.callFunctors
      apply hcall.bind
      intro s' hinv hstays
      apply ih hinv
      intro g hg
      rw [hstays.functors]
      exact hleft g (List.mem_cons_of_mem _ hg)

/-- With a functor destroyed that was not the last reference to a connection. -/
theorem Inv.dropFunctor (h : s.Inv none []) {f : PendingFunctor} {rest : List PendingFunctor}
    (hfunctors : s.functors = f :: rest)
    (hlast : ∀ conn, s.objects f.conn = some conn → conn.addedToLoop = false →
      f.conn ∈ rest.map PendingFunctor.conn) :
    { s with functors := rest }.Inv none [] where
  phase := fun d => by
    by_cases hd : d = f.conn
    · subst hd
      cases h.phase f.conn with
      | absent h₁ h₂ h₃ => exact .absent h₁ h₂ h₃
      | live conn h₁ hinv hadd hl h₂ n h₃ => exact .live conn h₁ hinv hadd hl h₂ n h₃
      | closing hb => cases hb
      | closed conn h₁ hinv hadd hdead h₂ n h₃ => exact .closed conn h₁ hinv hadd hdead h₂ n h₃
      | removed conn h₁ hinv hadd hdead h₂ h₃ _ =>
          exact .removed conn h₁ hinv hadd hdead h₂ h₃ (hlast conn h₁ hadd)
    · refine (h.phase d).other id rfl Iff.rfl rfl (fun hin => ?_)
      rw [hfunctors, List.map_cons, List.mem_cons] at hin
      exact hin.resolve_left hd
  fresh := h.fresh

theorem Inv.dropAdded (h : s.Inv none []) {f : PendingFunctor} {rest : List PendingFunctor}
    (hfunctors : s.functors = f :: rest) (hobj : s.objects f.conn = some conn)
    (hadded : conn.addedToLoop) : { s with functors := rest }.Inv none [] := by
  apply h.dropFunctor hfunctors
  intro conn' hobj' hadded'
  obtain rfl := Option.some.inj (hobj.symm.trans hobj')
  rw [hadded'] at hadded
  cases hadded

/-- The object of a connection goes with the last functor. -/
theorem Inv.lastFunctor (h : s.Inv none []) {f : PendingFunctor} {rest : List PendingFunctor}
    (hfunctors : s.functors = f :: rest) (hheld : f.conn ∉ s.connections)
    (hqueue : s.queue [] f.conn = []) :
    ({ s with functors := rest, objects := Function.update s.objects f.conn none }.callback f.conn
      .destroyed).Inv none [] := by
  apply Inv.callback
  refine ⟨fun d => ?_, fun d hd => ?_⟩
  · by_cases hdc : d = f.conn
    · subst hdc
      exact .absent (Function.update_self _ _ _) hheld hqueue
    · refine (h.phase d).other id (Function.update_of_ne hdc _ _) Iff.rfl rfl (fun hin => ?_)
      rw [hfunctors, List.map_cons, List.mem_cons] at hin
      exact hin.resolve_left hdc
  · by_cases hdc : d = f.conn
    · subst hdc
      exact Function.update_self _ _ _
    · exact (Function.update_of_ne hdc _ _).trans (h.fresh d hd)

/-- What the destructors of the functors leave. -/
structure Destroys (s s' : TcpServer) : Prop where
  inv : s'.Inv none []
  functors : s'.functors = []
  shows : Shows s s'
  pending : s'.pendingFunctors = s.pendingFunctors

/-- One reference goes. -/
theorem Inv.release (h : s.Inv none []) {f : PendingFunctor} {rest : List PendingFunctor}
    (hfunctors : s.functors = f :: rest) :
    ∃ s', { s with functors := rest }.release f.conn = .ok s' ∧ s'.Inv none [] ∧
      s'.functors = rest ∧ Shows s s' ∧ s'.pendingFunctors = s.pendingFunctors := by
  have hsame : Shows s { s with functors := rest } := ⟨[], (List.append_nil _).symm, rfl⟩
  unfold TcpServer.release
  cases h.phase f.conn with
  | absent h₁ =>
      rw [onConn_none (s := { s with functors := rest }) h₁]
      refine ⟨_, rfl, h.dropFunctor hfunctors fun conn h₁' => ?_, rfl, hsame, rfl⟩
      cases h₁.symm.trans h₁'
  | live conn h₁ _ hadd _ h₂ =>
      rw [onConn_some (s := { s with functors := rest }) h₁, if_pos (Or.inl h₂)]
      exact ⟨_, rfl, h.dropAdded hfunctors h₁ hadd, rfl, hsame, rfl⟩
  | closing hb => cases hb
  | closed conn h₁ _ hadd _ _ n h₃ =>
      -- `connectDestroyed` is still to come
      have hmem : .connectDestroyed f.conn ∈ s.queue [] f.conn := by
        rw [h₃]
        exact List.mem_append_right _ List.mem_cons_self
      have hin : f.conn ∈ (rest ++ s.pendingFunctors).map PendingFunctor.conn :=
        List.mem_map.mpr ⟨_, List.mem_append_right _ (List.mem_filter.mp hmem).1, rfl⟩
      rw [onConn_some (s := { s with functors := rest }) h₁, if_pos (Or.inr hin)]
      exact ⟨_, rfl, h.dropAdded hfunctors h₁ hadd, rfl, hsame, rfl⟩
  | removed conn h₁ _ hadd hdead h₂ h₃ _ =>
      rw [onConn_some (s := { s with functors := rest }) h₁]
      by_cases hin : f.conn ∈ rest.map PendingFunctor.conn
      · have hin' : f.conn ∈ (rest ++ s.pendingFunctors).map PendingFunctor.conn := by
          rw [List.map_append]
          exact List.mem_append_left _ hin
        rw [if_pos (Or.inr hin')]
        exact ⟨_, rfl, h.dropFunctor hfunctors fun _ _ _ => hin, rfl, hsame, rfl⟩
      · have hout : f.conn ∉ (rest ++ s.pendingFunctors).map PendingFunctor.conn := by
          intro hin'
          rw [List.map_append, List.mem_append] at hin'
          obtain ⟨g, hg, hconn⟩ := List.mem_map.mp (hin'.resolve_left hin)
          have hmem : g ∈ s.queue [] f.conn := List.mem_filter.mpr ⟨hg, decide_eq_true hconn⟩
          rw [h₃] at hmem
          cases hmem
        have hstate := StateE.eq_kDisconnected hdead
        rw [if_neg (not_or.mpr ⟨h₂, hout⟩), if_neg (not_not.mpr hstate),
          if_neg (by rw [hadd]; decide)]
        refine ⟨_, rfl, h.lastFunctor hfunctors h₂ h₃, rfl, ?_, rfl⟩
        apply shows_one rfl
        have hstage : s.contract.stage f.conn = some false := by
          rw [stage_of h₁, hdead]
        rw [Contract.step, if_pos hstage]
        have hupdate := @contract_update s ({ s with
          functors := rest
          objects := Function.update s.objects f.conn none }.callback f.conn .destroyed) f.conn
            none rfl
        exact congrArg some hupdate.symm

/-- **No object is destroyed too early**: each is disconnected and out of the loop. -/
theorem Inv.destroyFunctors (h : s.Inv none []) :
    ∃ s', s.destroyFunctors s.functors = .ok s' ∧ Destroys s s' := by
  generalize hfunctors : s.functors = functors
  induction functors generalizing s with
  | nil => exact ⟨s, rfl, h, hfunctors, (Quiet.refl s).shows, rfl⟩
  | cons f rest ih =>
      obtain ⟨s₁, hok, hinv, hrest, hshows, hpending⟩ := h.release hfunctors
      obtain ⟨s₂, hok', hdestroys⟩ := ih hinv hrest
      refine ⟨s₂, ?_, hdestroys.inv, hdestroys.functors, hshows.trans hdestroys.shows,
        hdestroys.pending.trans hpending⟩
      unfold TcpServer.destroyFunctors
      rw [hok]
      exact hok'

/-- **`doPendingFunctors`**: no assert fails, and when it returns every connection
    that was closed has been collected. -/
theorem Inv.doPendingFunctors (h : s.Inv none []) (hidle : s.functors = []) (css : List Calls) :
    ∃ s', s.doPendingFunctors css = .ok s' ∧ s'.Inv none [] ∧ s'.functors = [] ∧ Shows s s' ∧
      ∀ c, s.Past c → s'.objects c = none := by
  generalize hs₁ : { s with functors := s.pendingFunctors, pendingFunctors := [] } = s₁
  have hinv₁ : s₁.Inv none s.pendingFunctors := by
    subst hs₁
    refine ⟨fun c => (h.phase c).other id rfl Iff.rfl ?_ ?_, h.fresh⟩
    · unfold queue
      rw [List.append_nil, List.nil_append]
    · rw [hidle]
      exact fun hin => absurd hin List.not_mem_nil
  have hshows₁ : Shows s s₁ := by
    subst hs₁
    exact ⟨[], (List.append_nil _).symm, rfl⟩
  obtain ⟨s₂, hok₂, hinv₂, hshows₂, hstays₂⟩ := hinv₁.callFunctors
    (fun f hf => hs₁ ▸ hf) css
  have hfunctors : s₂.functors = s.pendingFunctors := hstays₂.functors.trans (hs₁ ▸ rfl)
  obtain ⟨s₃, hok₃, hdestroys⟩ := hinv₂.destroyFunctors
  rw [hfunctors] at hok₃
  refine ⟨s₃, ?_, hdestroys.inv, hdestroys.functors,
    hshows₁.trans (hshows₂.trans hdestroys.shows), fun c hpast => ?_⟩
  · unfold TcpServer.doPendingFunctors
    dsimp only
    rw [hs₁, hok₂]
    exact hok₃
  · -- nothing was queued for it, so nothing keeps it
    have hempty : s₃.queue [] c = [] := by
      have hqueue₂ := hstays₂.queue c (hshows₁.past hpast)
      unfold queue at hqueue₂ ⊢
      rw [hdestroys.pending, hqueue₂, ← hs₁]
      rfl
    have hpast₃ := hdestroys.shows.past (hshows₂.past (hshows₁.past hpast))
    cases hdestroys.inv.phase c with
    | absent h₁ => exact h₁
    | live conn h₁ _ _ hlive => exact absurd ((stage_of h₁).trans (congrArg some hlive)) hpast₃.2
    | closing hb => cases hb
    | closed _ _ _ _ _ _ n h₃ =>
        rw [hempty] at h₃
        cases n <;> cases h₃
    | removed _ _ _ _ _ _ _ h₄ =>
        rw [hdestroys.functors] at h₄
        cases h₄

/-! ## Steps -/

/-- Nothing refers to a connection before it is made. -/
theorem Inv.next (h : s.Inv none left) :
    s.nextConnId ∉ s.connections ∧ s.queue left s.nextConnId = [] := by
  have hnone := h.fresh s.nextConnId (Nat.le_refl _)
  cases h.phase s.nextConnId with
  | absent _ h₂ h₃ => exact ⟨h₂, h₃⟩
  | live _ h₁ => cases hnone.symm.trans h₁
  | closing hb => cases hb
  | closed _ h₁ => cases hnone.symm.trans h₁
  | removed _ h₁ => cases hnone.symm.trans h₁

theorem Inv.accept (h : s.Inv none left) (hroom : s.nextConnId ≠ 2 ^ 31 - 1) (cs : Calls) :
    Keeps s left (s.newConnection cs) := by
  generalize hs₁ : ({ s.setConn s.nextConnId .connectEstablished with
    nextConnId := s.nextConnId + 1
    connections := insert s.nextConnId s.connections } : TcpServer).callback s.nextConnId .up = s₁
  have hobjects : s₁.objects = Function.update s.objects s.nextConnId (some .connectEstablished) :=
    hs₁ ▸ rfl
  have hinv : s₁.Inv none left := by
    refine ⟨fun d => ?_, fun d hd => ?_⟩
    · by_cases hdn : d = s.nextConnId
      · subst hdn
        refine .live .connectEstablished ?_ TcpConnection.inv_connectEstablished rfl rfl ?_ 0 ?_
        · rw [hobjects, Function.update_self]
        · subst hs₁
          exact Finset.mem_insert_self _ _
        · subst hs₁
          exact h.next.2
      · apply (h.phase d).other id
        · rw [hobjects, Function.update_of_ne hdn]
        · subst hs₁
          show d ∈ insert s.nextConnId s.connections ↔ _
          rw [Finset.mem_insert]
          exact or_iff_right hdn
        · subst hs₁
          rfl
        · subst hs₁
          exact id
    · have hnext : s.nextConnId + 1 ≤ d := by
        subst hs₁
        exact hd
      have hdn : d ≠ s.nextConnId := (Nat.lt_of_succ_le hnext).ne'
      rw [hobjects, Function.update_of_ne hdn]
      exact h.fresh d (Nat.le_of_succ_le hnext)
  have hshows : Shows s s₁ := by
    have hcallbacks : s₁.callbacks = s.callbacks ++ [(s.nextConnId, .up)] := hs₁ ▸ rfl
    apply shows_one hcallbacks
    rw [Contract.step, if_pos (show s.nextConnId = s.contract.next from rfl)]
    have hnext : s₁.nextConnId = s.nextConnId + 1 := hs₁ ▸ rfl
    rw [contract_update hobjects, hnext]
    rfl
  have hstays : Stays s s₁ := by
    subst hs₁
    exact ⟨rfl, fun _ _ => rfl⟩
  obtain ⟨hcalls, hquiet⟩ := hinv.calls cs
  unfold newConnection
  dsimp only
  rw [if_neg hroom, hs₁]
  exact hshows.keeps hstays (hquiet.shows.keeps hquiet.stays hcalls.keeps)

end TcpServer

/-- A connection is accepted. -/
def LoopEvent.isAccept : LoopEvent → Bool
  | .accept _ => true
  | _ => false

/-- The loop calls its pending functors. -/
def LoopEvent.callsFunctors : LoopEvent → Bool
  | .doPendingFunctors _ => true
  | _ => false

namespace TcpServer

variable {s s' : TcpServer}

/-- Between two events the loop calls no functor. -/
structure Idle (s : TcpServer) : Prop where
  inv : s.Inv none []
  functors : s.functors = []

/-- A handler that ends well. -/
theorem Keeps.idle {r : Except Failed TcpServer} (h : Keeps s [] r) (hidle : s.Idle) :
    ∃ s', r = .ok s' ∧ s'.Idle ∧ Shows s s' := by
  obtain ⟨s', hok, hinv, hshows, hstays⟩ := h
  exact ⟨s', hok, ⟨hinv, hstays.functors.trans hidle.functors⟩, hshows⟩

/-- **One step**: whatever can happen in the loop, its handler ends well, and
    `doPendingFunctors` leaves nothing of a closed connection. -/
theorem Idle.handle (h : s.Idle) {e : LoopEvent} (hen : s.enabled e)
    (hroom : e.isAccept → s.nextConnId ≠ 2 ^ 31 - 1) :
    ∃ s', s.handle e = .ok s' ∧ s'.Idle ∧ Shows s s' ∧
      (e.callsFunctors → ∀ c, s.Past c → s'.objects c = none) := by
  have hother : ∀ {r : Except Failed TcpServer}, Keeps s [] r → e.callsFunctors = false →
      ∃ s', r = .ok s' ∧ s'.Idle ∧ Shows s s' ∧
        (e.callsFunctors → ∀ c, s.Past c → s'.objects c = none) := by
    intro r hkeeps he
    obtain ⟨s', hok, hidle, hshows⟩ := hkeeps.idle h
    refine ⟨s', hok, hidle, hshows, fun hcalls => ?_⟩
    rw [he] at hcalls
    cases hcalls
  cases e with
  | accept cs => exact hother (h.inv.accept (hroom rfl) cs) rfl
  | call c cl =>
      obtain ⟨hinv, hquiet⟩ := h.inv.call c cl
      exact hother (hquiet.shows.keeps hquiet.stays hinv.keeps) rfl
  | poll c revents incoming cs room =>
      change (s.objects c).any _ = true at hen
      cases hobj : s.objects c with
      | none =>
          rw [hobj] at hen
          cases hen
      | some conn =>
          rw [hobj, Option.any_some, Bool.and_eq_true, Bool.and_eq_true] at hen
          obtain ⟨⟨hreg, hreported⟩, hfinds⟩ := hen
          have hlive := live_of_registered (h.inv.ofConn hobj) hreg
          exact hother (h.inv.handleEvent hobj hlive hreported hfinds cs room) rfl
  | doPendingFunctors css =>
      obtain ⟨s', hok, hinv, hfunctors, hshows, hgone⟩ := h.inv.doPendingFunctors h.functors css
      exact ⟨s', hok, ⟨hinv, hfunctors⟩, hshows, fun _ => hgone⟩

end TcpServer
end Muduo
end UdpSpeed
