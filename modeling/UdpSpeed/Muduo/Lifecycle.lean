/-
  UdpSpeed.Muduo.Lifecycle

  Whole runs of a `TcpServer`: what its user is told of each connection, what
  becomes of the bytes given to `send`, and when a connection object goes.
-/

import UdpSpeed.Muduo.Safety

namespace UdpSpeed
namespace Muduo

open EventSystem

/-! ## The history of a connection -/

/-- The callbacks made for `c`, in order. -/
def callbacksOf (cbs : List (TcpConnectionPtr × Callback)) (c : TcpConnectionPtr) :
    List Callback :=
  (cbs.filter (fun entry => entry.1 = c)).map Prod.snd

theorem callbacksOf_concat (cbs : List (TcpConnectionPtr × Callback)) (c d : TcpConnectionPtr)
    (cb : Callback) :
    callbacksOf (cbs ++ [(c, cb)]) d = callbacksOf cbs d ++ if c = d then [cb] else [] := by
  unfold callbacksOf
  rw [List.filter_append, List.map_append]
  congr 1
  split_ifs with h
  · simp [h]
  · simp [h]

/-- The end of a history: `stage` is that of the contract. -/
def closingOf : Option Bool → List Callback
  | some true => []
  | some false => [.down]
  | none => [.down, .destroyed]

/-- One connection from up to the end of the object, with messages in between. -/
def Lifecycle (stage : Option Bool) (history : List Callback) : Prop :=
  ∃ msgs : List (List Byte), (∀ data ∈ msgs, data ≠ [] ∧ data.length ≤ maxRead) ∧
    history = .up :: msgs.map .message ++ closingOf stage

namespace Contract

/-- Histories belong to the ids given so far. -/
structure Told (k : Contract) (cbs : List (TcpConnectionPtr × Callback)) : Prop where
  pos : 1 ≤ k.next
  used : ∀ c, k.stage c ≠ none → 1 ≤ c ∧ c < k.next
  fresh : ∀ c, ¬ (1 ≤ c ∧ c < k.next) → callbacksOf cbs c = []
  history : ∀ c, 1 ≤ c ∧ c < k.next → Lifecycle (k.stage c) (callbacksOf cbs c)

theorem told_create : create.Told [] where
  pos := Nat.le_refl _
  used := fun _ h => absurd rfl h
  fresh := fun _ _ => rfl
  history := fun _ h => absurd h.2 (Nat.not_lt.mpr h.1)

variable {k k' : Contract} {cbs : List (TcpConnectionPtr × Callback)} {c : TcpConnectionPtr}

/-- A callback for a connection that has been up. -/
theorem Told.extend (h : k.Told cbs) {stage : Option Bool} (hlive : k.stage c ≠ none)
    {cb : Callback} (hhist : ∀ history, Lifecycle (k.stage c) history →
      Lifecycle stage (history ++ [cb])) :
    ({ k with stage := Function.update k.stage c stage } : Contract).Told (cbs ++ [(c, cb)]) where
  pos := h.pos
  used := fun d hd => by
    change Function.update k.stage c stage d ≠ none at hd
    by_cases hdc : d = c
    · subst hdc
      exact h.used d hlive
    · rw [Function.update_of_ne hdc] at hd
      exact h.used d hd
  fresh := fun d hd => by
    have hdc : c ≠ d := by
      rintro rfl
      exact hd (h.used c hlive)
    rw [callbacksOf_concat, if_neg hdc, List.append_nil]
    exact h.fresh d hd
  history := fun d hd => by
    show Lifecycle (Function.update k.stage c stage d) _
    rw [callbacksOf_concat]
    by_cases hdc : d = c
    · subst hdc
      rw [Function.update_self, if_pos rfl]
      exact hhist _ (h.history d hd)
    · rw [Function.update_of_ne hdc, if_neg (Ne.symm hdc), List.append_nil]
      exact h.history d hd

/-- **What one callback adds to the histories.** -/
theorem Told.step (h : k.Told cbs) {cb : Callback} (hstep : k.step (c, cb) = some k') :
    k'.Told (cbs ++ [(c, cb)]) := by
  rcases step_cases hstep with ⟨rfl, rfl, rfl⟩ | ⟨data, rfl, hstage, hne, hmax, rfl⟩ |
    ⟨rfl, hstage, rfl⟩ | ⟨rfl, hstage, rfl⟩
  · -- up: the history of a new id
    refine ⟨Nat.le_succ_of_le h.pos, fun d hd => ?_, fun d hd => ?_, fun d hd => ?_⟩
    · by_cases hdn : d = k.next
      · rw [hdn]
        exact ⟨h.pos, Nat.lt_succ_self _⟩
      · change Function.update k.stage k.next (some true) d ≠ none at hd
        rw [Function.update_of_ne hdn] at hd
        exact ⟨(h.used d hd).1, Nat.lt_succ_of_lt (h.used d hd).2⟩
    · change ¬ (1 ≤ d ∧ d < k.next + 1) at hd
      have hdn : k.next ≠ d := by
        rintro rfl
        exact hd ⟨h.pos, Nat.lt_succ_self _⟩
      rw [callbacksOf_concat, if_neg hdn, List.append_nil]
      exact h.fresh d (fun hin => hd ⟨hin.1, Nat.lt_succ_of_lt hin.2⟩)
    · show Lifecycle (Function.update k.stage k.next (some true) d) _
      rw [callbacksOf_concat]
      by_cases hdn : d = k.next
      · subst hdn
        rw [Function.update_self, if_pos rfl, h.fresh _ (fun hin => Nat.lt_irrefl _ hin.2)]
        exact ⟨[], fun _ hin => absurd hin List.not_mem_nil, rfl⟩
      · rw [Function.update_of_ne hdn, if_neg (Ne.symm hdn), List.append_nil]
        apply h.history d
        exact ⟨hd.1, Nat.lt_of_le_of_ne (Nat.le_of_lt_succ hd.2) hdn⟩
  · -- a message: the stage stays
    have hext := @Told.extend k' cbs c h (some true) (by rw [hstage]; simp) (.message data) (by
      rw [hstage]
      rintro history ⟨msgs, hmsgs, rfl⟩
      refine ⟨msgs ++ [data], ?_, ?_⟩
      · intro x hx
        rcases List.mem_append.mp hx with hold | hnew
        · exact hmsgs x hold
        · rw [List.mem_singleton.mp hnew]
          exact ⟨hne, hmax⟩
      · simp [closingOf])
    rw [← hstage, Function.update_eq_self] at hext
    exact hext
  · -- down
    apply h.extend (by rw [hstage]; simp)
    rw [hstage]
    rintro history ⟨msgs, hmsgs, rfl⟩
    exact ⟨msgs, hmsgs, by simp [closingOf]⟩
  · -- the end of the object
    apply h.extend (by rw [hstage]; simp)
    rw [hstage]
    rintro history ⟨msgs, hmsgs, rfl⟩
    exact ⟨msgs, hmsgs, by simp [closingOf]⟩

/-- A run of callbacks. -/
theorem Told.run (h : k.Told cbs) {more : List (TcpConnectionPtr × Callback)}
    (hrun : EventSystem.run Contract.step k more = some k') : k'.Told (cbs ++ more) := by
  induction more generalizing k cbs with
  | nil =>
      obtain rfl := Option.some.inj hrun
      rw [List.append_nil]
      exact h
  | cons entry rest ih =>
      rw [EventSystem.run, Option.bind_eq_some_iff] at hrun
      obtain ⟨k₁, hk₁, hrest⟩ := hrun
      have htail := ih (h.step hk₁) hrest
      rw [List.append_assoc] at htail
      exact htail

end Contract

namespace TcpServer

variable {s s' : TcpServer} {c : TcpConnectionPtr} {conn : TcpConnection}

/-- A state some run of the loop leads to. -/
def Reachable (s : TcpServer) : Prop := EventSystem.Reachable step (fun s₀ => s₀ = create) s

theorem Idle.step (h : s.Idle) {e : LoopEvent} (hstep : s.step e = some s') :
    s'.Idle ∧ Shows s s' ∧ (e.callsFunctors → ∀ c, s.Past c → s'.objects c = none) := by
  obtain ⟨hen, hok⟩ := step_eq_some.mp hstep
  have hroom : e.isAccept → s.nextConnId ≠ 2 ^ 31 - 1 := by
    intro haccept hmax
    cases e with
    | accept cs =>
        have herror : s.handle (.accept cs) = .error .overflow := if_pos hmax
        cases herror.symm.trans hok
    | call c cl => cases haccept
    | poll c revents incoming cs room => cases haccept
    | doPendingFunctors css => cases haccept
  obtain ⟨s₁, hok₁, hidle, hshows, hgone⟩ := h.handle hen hroom
  obtain rfl := Except.ok.inj (hok.symm.trans hok₁)
  exact ⟨hidle, hshows, hgone⟩

/-- The invariant along runs. -/
theorem Reachable.inv (h : s.Reachable) : s.Idle ∧ Shows create s := by
  refine EventSystem.Reachable.invariant (I := fun s => s.Idle ∧ Shows create s) ?_ ?_ h
  · rintro _ rfl
    exact ⟨⟨inv_create, rfl⟩, [], rfl, rfl⟩
  · rintro s e s' ⟨hidle, hshows⟩ hstep
    obtain ⟨hidle', hshows', -⟩ := hidle.step hstep
    exact ⟨hidle', hshows.trans hshows'⟩

theorem Reachable.told (h : s.Reachable) : s.contract.Told s.callbacks := by
  obtain ⟨cbs, hcbs, hrun⟩ := h.inv.2
  rw [hcbs]
  exact Contract.told_create.run hrun

/-! ## The end of a connection -/

/-- An id that was given away and has no object. -/
def Gone (s : TcpServer) (c : TcpConnectionPtr) : Prop :=
  c < s.nextConnId ∧ s.contract.stage c = none

theorem Gone.shows (h : s.Gone c) (hshows : Shows s s') : s'.Gone c := by
  obtain ⟨cbs, -, hrun⟩ := hshows
  exact Contract.stays (fun st => st = none) nofun nofun hrun h

theorem gone_iff : s.Gone c ↔ c < s.nextConnId ∧ s.objects c = none := by
  unfold Gone
  rw [show s.contract.stage c = (s.objects c).map (fun conn => conn.state.live) from rfl,
    Option.map_eq_none_iff]

theorem Gone.run (h : s.Gone c) (hidle : s.Idle) {es : List LoopEvent}
    (hrun : EventSystem.run TcpServer.step s es = some s') : s'.Gone c := by
  refine (run_invariant (I := fun s => s.Idle ∧ s.Gone c) ?_ ⟨hidle, h⟩ hrun).2
  rintro s₁ e s₂ ⟨hidle₁, hgone₁⟩ hstep
  obtain ⟨hidle₂, hshows, -⟩ := hidle₁.step hstep
  exact ⟨hidle₂, hgone₁.shows hshows⟩

/-- A run in which `doPendingFunctors` is called collects what was closed. -/
theorem gone_run (hidle : s.Idle) (hpast : s.Past c) {es : List LoopEvent}
    (hrun : run step s es = some s') (hcalls : es.any LoopEvent.callsFunctors) : s'.Gone c := by
  induction es generalizing s with
  | nil => cases hcalls
  | cons e rest ih =>
      rw [run, Option.bind_eq_some_iff] at hrun
      obtain ⟨s₁, hstep, hrest⟩ := hrun
      obtain ⟨hidle₁, hshows, hcollects⟩ := hidle.step hstep
      have hpast₁ := hshows.past hpast
      by_cases he : e.callsFunctors
      · have hgone : s₁.Gone c := gone_iff.mpr ⟨hpast₁.1, hcollects he c hpast⟩
        exact hgone.run hidle₁ hrest
      · rw [List.any_cons, Bool.eq_false_of_not_eq_true he, Bool.false_or] at hcalls
        exact ih hidle₁ hpast₁ hrest hcalls

/-! ## What a user can rely on -/

/-- **No assert of the server fails**, whatever comes, is reported and is called,
    in any order and from inside any callback; only the number of the connections
    has to stay an `int`. -/
theorem no_assert_fails (h : s.Reachable) {e : LoopEvent} (hen : s.enabled e)
    (hroom : e.isAccept → s.nextConnId < 2 ^ 31 - 1) : ∃ s', s.handle e = .ok s' := by
  obtain ⟨s', hok, -⟩ := h.inv.1.handle hen (fun he => Nat.ne_of_lt (hroom he))
  exact ⟨s', hok⟩

/-- **The callbacks of each connection**: up, then messages of one read each, then
    down, then the end of the object; none out of turn, twice or left out. -/
theorem callbacks_in_turn (h : s.Reachable) (c : TcpConnectionPtr) :
    if 1 ≤ c ∧ c < s.nextConnId then
      Lifecycle ((s.objects c).map (fun conn => conn.state.live)) (callbacksOf s.callbacks c)
    else callbacksOf s.callbacks c = [] := by
  split_ifs with hused
  · exact h.told.history c hused
  · exact h.told.fresh c hused

/-- **A closed connection is collected** the next time `doPendingFunctors` is called,
    whatever else happens before and after. -/
theorem closed_collected (h : s.Reachable) (hobj : s.objects c = some conn)
    (hdown : conn.state = .kDisconnected) {es : List LoopEvent}
    (hrun : run step s es = some s') (hcalls : es.any LoopEvent.callsFunctors) :
    s'.objects c = none := by
  have hpast : s.Past c := by
    refine ⟨?_, ?_⟩
    · rw [← Nat.not_le]
      intro hfresh
      cases hobj.symm.trans (h.inv.1.inv.fresh c hfresh)
    · rw [stage_of hobj, hdown]
      decide
  exact (gone_iff.mp (gone_run h.inv.1 hpast hrun hcalls)).2

/-- **The output of a connection**: what has left is the first part of what was
    given, what is missing waits, the write side is not shut down while something
    waits, and a socket with room takes all of it. -/
theorem output_whole (h : s.Reachable) (hobj : s.objects c = some conn) :
    conn.socket.written <+: conn.given ∧
      (conn.socket.broken = false →
        conn.socket.written ++ conn.outputBuffer.peek = conn.given) ∧
      (conn.socket.fin → conn.outputBuffer.peek = []) ∧
      (conn.state.live → conn.socket.broken = false → conn.outputBuffer.peek ≠ [] →
        ∀ n, conn.outputBuffer.peek.length ≤ n →
          ∃ s' conn', s.step (.poll c { pollout := true } .error [] (.upTo n)) = some s' ∧
            s'.objects c = some conn' ∧ conn'.socket.written = conn.given ∧
            (conn.state = .kDisconnecting → conn'.socket.fin = true)) := by
  have hinv := h.inv.1.inv.ofConn hobj
  refine ⟨hinv.written_prefix, hinv.whole, fun hfin => (hinv.fin hfin).2, ?_⟩
  intro hlive hsound hwaits n hn
  obtain ⟨hall, hfin⟩ := hinv.handleWrite_all hlive hsound hwaits hn
  refine ⟨s.setConn c (conn.handleWrite (.upTo n)), conn.handleWrite (.upTo n),
    step_eq_some.mpr ⟨?_, ?_⟩, objects_setConn_self _, hall, hfin⟩
  · show (s.objects c).any _ = true
    rw [hobj, Option.any_some, hinv.reading, hlive]
    rfl
  · show s.handleEvent c { pollout := true } .error [] (.upTo n) = _
    unfold handleEvent
    simp [onConn_some hobj]

/-! ## A run -/

/-- A connection sends six bytes of which the socket takes two, is shut down, and
    the peer closes while the user closes too; then the loop calls its functors. -/
def session : List LoopEvent :=
  [.accept [],
    .poll 1 { pollin := true } (.data [71, 69, 84]) [(1, .send [1, 2, 3, 4, 5, 6] (.upTo 2))] .full,
    .call 1 .shutdown,
    .call 1 .forceClose,
    .poll 1 { pollin := true } .eof [(1, .forceClose)] .full,
    .doPendingFunctors []]

/-- The server after the first `k` events of the session. -/
def sessionAt (k : Nat) : TcpServer := (run step create (session.take k)).getD create

theorem sessionAt_reachable {k : Nat} (h : (run step create (session.take k)).isSome) :
    (sessionAt k).Reachable := by
  refine ⟨create, session.take k, rfl, ?_⟩
  obtain ⟨s, hs⟩ := Option.isSome_iff_exists.mp h
  rw [sessionAt, hs]
  rfl

theorem no_assert_fails_session :
    ∃ s', (sessionAt 5).handle (.doPendingFunctors [[(1, .forceClose)]]) = .ok s' :=
  no_assert_fails (sessionAt_reachable (by decide +kernel)) (by decide +kernel) (by decide)

theorem callbacks_in_turn_session :
    Lifecycle (some false) (callbacksOf (sessionAt 5).callbacks 1) := by
  have hturn : ∀ s : TcpServer, s.Reachable → 1 < s.nextConnId →
      (s.objects 1).map (fun conn => conn.state.live) = some false →
      Lifecycle (some false) (callbacksOf s.callbacks 1) := by
    intro s hs hused hstage
    have h := callbacks_in_turn hs 1
    rw [if_pos ⟨Nat.le_refl 1, hused⟩, hstage] at h
    exact h
  exact hturn _ (sessionAt_reachable (by decide +kernel)) (by decide +kernel)
    (by decide +kernel)

theorem closed_collected_session :
    ((run step (sessionAt 5) [.accept [], .doPendingFunctors [], .accept []]).bind
      (fun s' => s'.objects 1)) = none := by
  have hsome : (run step (sessionAt 5)
      [.accept [], .doPendingFunctors [], .accept []]).isSome := by
    decide +kernel
  obtain ⟨s', hs'⟩ := Option.isSome_iff_exists.mp hsome
  have hobj : ((sessionAt 5).objects 1).isSome := by decide +kernel
  obtain ⟨conn, hconn⟩ := Option.isSome_iff_exists.mp hobj
  have hdown : ((sessionAt 5).objects 1).map (fun conn => conn.state) = some .kDisconnected := by
    decide +kernel
  rw [hconn, Option.map_some, Option.some.injEq] at hdown
  rw [hs']
  exact closed_collected (sessionAt_reachable (by decide +kernel)) hconn hdown hs' (by decide)

theorem output_whole_session :
    ∃ s' conn', (sessionAt 3).step (.poll 1 { pollout := true } .error [] (.upTo 9)) = some s' ∧
      s'.objects 1 = some conn' ∧ conn'.socket.written = [1, 2, 3, 4, 5, 6] ∧
      conn'.socket.fin = true := by
  have hobj : ((sessionAt 3).objects 1).isSome := by decide +kernel
  obtain ⟨conn, hconn⟩ := Option.isSome_iff_exists.mp hobj
  have hfacts : ((sessionAt 3).objects 1).map (fun conn => (conn.state, conn.socket.broken,
      conn.outputBuffer.peek, conn.given)) =
        some (.kDisconnecting, false, [3, 4, 5, 6], [1, 2, 3, 4, 5, 6]) := by
    decide +kernel
  rw [hconn, Option.map_some, Option.some.injEq, Prod.mk.injEq, Prod.mk.injEq,
    Prod.mk.injEq] at hfacts
  obtain ⟨hstate, hsound, hpeek, hgiven⟩ := hfacts
  have hwhole := output_whole (sessionAt_reachable (by decide +kernel)) hconn
  obtain ⟨s', conn', hstep, hobj', hwritten, hfin⟩ := hwhole.2.2.2 (by rw [hstate]; rfl) hsound
    (by rw [hpeek]; decide) 9 (by rw [hpeek]; decide)
  exact ⟨s', conn', hstep, hobj', hwritten.trans hgiven, hfin hstate⟩

end TcpServer
end Muduo
end UdpSpeed
