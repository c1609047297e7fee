/-
  UdpSpeed.Proxy.Safety

  The tables of the proxy along whole runs: under muduo's callback discipline
  and with responses that name fresh ids, every session is in exactly one of
  the two containers, every reference locks and no handler aborts.
-/

import UdpSpeed.Proxy.Effect

namespace UdpSpeed

open Kcp Control Muduo Std

namespace Proxy
namespace KcpProxy

/-- The events the tables are built for: tunnel datagrams of a non-zero conv,
    and non-empty control messages whose responses name a fresh id. -/
def admissible (p : KcpProxy) (e : Event) : Bool :=
  p.rspFresh e &&
    match e with
    | .datagram bytes => datagramConv bytes ≠ 0
    | .control msg => msg ≠ []
    | _ => true

/-- The state of a proxy that has only seen such events. -/
def TablesReachable (p : KcpProxy) : Prop :=
  EventSystem.Reachable (EventSystem.restrict step admissible) (· = create) p

/-- The session of a live connection waits: it is once in the list, has no id
    and no KCP object, and is not in the map. -/
def Waits (p : KcpProxy) (c : ConnId) (sess : KcpDataSession) : Prop :=
  p.uninitedSessList.count c = 1 ∧ sess.id = 0 ∧ sess.kcp = none ∧
    ∀ id : IUINT32, p.sessionMap[id]? ≠ some c

/-- The session of a live connection is initialised: it is in the map under its
    own non-zero id and nowhere else, and has a KCP object. -/
def Initialised (p : KcpProxy) (c : ConnId) (sess : KcpDataSession) : Prop :=
  p.uninitedSessList.count c = 0 ∧ sess.id ≠ 0 ∧ sess.kcp.isSome ∧
    ∀ id : IUINT32, p.sessionMap[id]? = some c ↔ id = sess.id

namespace TableInv

variable {p : KcpProxy}

/-- An admissible event runs to its end with one of the listed outcomes. -/
theorem handle_admissible (h : TableInv p) {e : Event} (hen : p.enabled e)
    (hadm : p.admissible e) : ∃ p', p.handle e = .ok p' ∧ Effect p e p' := by
  unfold admissible at hadm
  rw [Bool.and_eq_true] at hadm
  refine h.handle_spec hen ?_ ?_
  · rintro rfl
    simp at hadm
  · rintro bytes rfl hconv
    simp [hconv] at hadm

theorem step_admissible {e : Event} {p' : KcpProxy} (h : TableInv p)
    (hstep : EventSystem.restrict step admissible p e = some p') : TableInv p' := by
  obtain ⟨hadm, hstep⟩ := EventSystem.restrict_eq_some.mp hstep
  obtain ⟨hen, hok⟩ := step_eq_some.mp hstep
  obtain ⟨p₁, hp₁, heff⟩ := h.handle_admissible hen hadm
  obtain rfl := Except.ok.inj (hok.symm.trans hp₁)
  unfold admissible at hadm
  rw [Bool.and_eq_true] at hadm
  exact h.effect hadm.1 heff

/-- Where the session of a live connection is. -/
theorem place (h : TableInv p) {c : ConnId} {sess : KcpDataSession}
    (hs : p.liveSess c = some sess) : p.Waits c sess ∨ p.Initialised c sess := by
  obtain ⟨-, hphase⟩ := h.of_liveSess hs
  -- what the map says of this connection is what its session's id says
  have hheld : ∀ id : IUINT32, p.sessionMap[id]? = some c ↔ id ≠ 0 ∧ sess.id = id := by
    intro id
    constructor
    · intro hmap
      obtain ⟨hne, x, hx, hxid⟩ := h.held id c hmap
      obtain rfl := Option.some.inj (hs.symm.trans hx)
      exact ⟨hne, hxid⟩
    · rintro ⟨hne, rfl⟩
      exact h.listed c sess hs hne
  have hlist : c ∈ p.uninitedSessList ↔ sess.id = 0 := by
    rw [h.waiting c, hs]
    simp
  -- the id tells the two phases apart
  by_cases hid : sess.id = 0
  · refine Or.inl ⟨List.count_eq_one_of_mem h.nodup (hlist.mpr hid), hid,
      hphase.kcp_of_eq_zero hid, ?_⟩
    intro id hmap
    obtain ⟨hne, heq⟩ := (hheld id).mp hmap
    exact hne (heq.symm.trans hid)
  · obtain ⟨kcp, hkcp, -⟩ := hphase.kcp_of_ne_zero hid
    refine Or.inr ⟨List.count_eq_zero_of_not_mem (fun hin => hid (hlist.mp hin)), hid, ?_, ?_⟩
    · rw [hkcp]
      rfl
    · intro id
      rw [hheld id]
      exact ⟨fun hx => hx.2.symm, fun hx => ⟨hx ▸ hid, hx.symm⟩⟩

end TableInv

theorem TablesReachable.tableInv {p : KcpProxy} (h : TablesReachable p) : TableInv p :=
  EventSystem.Reachable.invariant (fun _ hp => hp ▸ TableInv.create)
    (fun _ _ _ hinv hstep => hinv.step_admissible hstep) h

/-- **Proxy table invariant.**  In every reachable state the session of each
    live connection waits or is initialised, the two containers hold nothing
    else, and the handler of every further event returns. -/
theorem proxy_tables {p : KcpProxy} (h : TablesReachable p) :
    (∀ c, p.live c → ∃ sess, p.lockSess c = some sess ∧ sess.conn = c ∧
      (p.Waits c sess ∨ p.Initialised c sess)) ∧
    (∀ c ∈ p.uninitedSessList, p.live c) ∧
    (∀ (id : IUINT32) c, p.sessionMap[id]? = some c → p.live c) ∧
    (∀ e, p.enabled e → p.admissible e → ∃ p', p.handle e = .ok p') := by
  have hinv := h.tableInv
  refine ⟨?_, ?_, ?_, ?_⟩
  · intro c hc
    obtain ⟨sess, hs, hconn, -⟩ := hinv.of_live hc
    exact ⟨sess, (liveSess_eq_some_iff.mp hs).2, hconn, hinv.place hs⟩
  · intro c hc
    obtain ⟨sess, hs, -⟩ := hinv.of_waiting hc
    exact (liveSess_eq_some_iff.mp hs).1
  · intro id c hc
    obtain ⟨sess, hs, -⟩ := hinv.of_held hc
    exact (liveSess_eq_some_iff.mp hs).1
  · intro e hen hadm
    obtain ⟨p', hp', -⟩ := hinv.handle_admissible hen hadm
    exact ⟨p', hp'⟩

/-- Two connections open and one is answered, gets data both ways and is asked
    to close. -/
theorem proxy_tables_run :
    ∃ p, EventSystem.run (EventSystem.restrict step admissible) create
        [.connUp, .message 1 [104, 105], .connUp, .control (rspMsg 7), .timer 20,
          .datagram [7, 0, 0, 0], .control (destroyMsg 7)] = some p ∧
      p.uninitedSessList = [2] ∧ p.sessionMap.toList = [(7, 1)] ∧
      (∀ c ∈ p.uninitedSessList, p.live c) := by
  have hrun : ((EventSystem.run (EventSystem.restrict step admissible) create
      [.connUp, .message 1 [104, 105], .connUp, .control (rspMsg 7), .timer 20,
        .datagram [7, 0, 0, 0], .control (destroyMsg 7)]).map
          (fun p => (p.uninitedSessList, p.sessionMap.toList))) = some ([2], [(7, 1)]) := by
    decide +kernel
  obtain ⟨p, hp, htabs⟩ := Option.map_eq_some_iff.mp hrun
  obtain ⟨hlist, hmap⟩ := Prod.mk.inj htabs
  exact ⟨p, hp, hlist, hmap, (proxy_tables ⟨_, _, rfl, hp⟩).2.1⟩

end KcpProxy
end Proxy
end UdpSpeed
