/-
  UdpSpeed.Proxy.Table

  The session tables of the proxy.  `RefInv` says that the references in the
  two containers are sound: the waiting list holds exactly the live connections
  whose session has no id, and an entry of the map is a live connection whose
  session has that id.  While it holds no weak reference is dangling and no
  assertion fails.  `TableInv` adds that every live session with an id is in
  the map; this needs the server to hand out fresh ids.
-/

import UdpSpeed.Proxy.KcpProxy

namespace UdpSpeed

open Kcp Control Muduo Std

namespace Proxy
namespace KcpProxy

/-! ## Reading the connection objects -/

/-- The session of a live connection. -/
def liveSess (p : KcpProxy) (c : ConnId) : Option KcpDataSession :=
  match p.conns[c]? with
  | none => none
  | some conn => if conn.state.live then conn.context else none

theorem conns_setSess (p : KcpProxy) (ref c : ConnId) (sess : KcpDataSession) :
    (p.setSess ref sess).conns[c]? =
      if ref = c then p.conns[c]?.map (fun conn => { conn with context := some sess })
      else p.conns[c]? := by
  by_cases h : ref = c
  · subst h
    simp [setSess]
  · simp [setSess, TreeMap.getElem?_modify, h]

theorem conns_setConnState (p : KcpProxy) (ref c : ConnId) (f : StateE → StateE) :
    (p.setConnState ref f).conns[c]? =
      if ref = c then p.conns[c]?.map (fun conn => { conn with state := f conn.state })
      else p.conns[c]? := by
  by_cases h : ref = c
  · subst h
    simp [setConnState]
  · simp [setConnState, TreeMap.getElem?_modify, h]

theorem lockSess_setSess (p : KcpProxy) (ref c : ConnId) (sess : KcpDataSession) :
    (p.setSess ref sess).lockSess c =
      if ref = c then p.conns[c]?.map (fun _ => sess) else p.lockSess c := by
  unfold lockSess
  rw [conns_setSess]
  by_cases h : ref = c
  · rw [if_pos h, if_pos h]
    cases p.conns[c]? <;> rfl
  · rw [if_neg h, if_neg h]

/-- Changing the state of a connection object leaves its session in place. -/
@[simp] theorem lockSess_setConnState (p : KcpProxy) (ref c : ConnId) (f : StateE → StateE) :
    (p.setConnState ref f).lockSess c = p.lockSess c := by
  unfold lockSess
  rw [conns_setConnState]
  split_ifs
  · cases p.conns[c]? <;> rfl
  · rfl

/-- `live` and `lockSess` together are `liveSess`. -/
theorem liveSess_eq_some_iff {p : KcpProxy} {c : ConnId} {sess : KcpDataSession} :
    p.liveSess c = some sess ↔ p.live c ∧ p.lockSess c = some sess := by
  unfold liveSess live lockSess
  cases p.conns[c]? with
  | none => simp
  | some conn =>
      by_cases h : conn.state.live
      · simp [h]
      · simp [h]

/-- Writing a session back changes what one live connection shows. -/
theorem liveSess_setSess (p : KcpProxy) (ref c : ConnId) (sess : KcpDataSession) :
    (p.setSess ref sess).liveSess c =
      if ref = c then (if p.live c then some sess else none) else p.liveSess c := by
  unfold liveSess live
  rw [conns_setSess]
  by_cases hc : ref = c
  · rw [if_pos hc, if_pos hc]
    cases p.conns[c]? with
    | none => rfl
    | some conn => rfl
  · rw [if_neg hc, if_neg hc]

/-- A state change that keeps the connection live keeps its session. -/
theorem liveSess_setConnState {f : StateE → StateE} (hf : ∀ st, (f st).live = st.live)
    (p : KcpProxy) (ref c : ConnId) :
    (p.setConnState ref f).liveSess c = p.liveSess c := by
  unfold liveSess
  rw [conns_setConnState]
  by_cases hc : ref = c
  · rw [if_pos hc]
    cases p.conns[c]? with
    | none => rfl
    | some conn =>
        change (if (f conn.state).live then conn.context else none) = _
        rw [hf]
  · rw [if_neg hc]

/-- Going down takes exactly that connection's session out of view. -/
theorem liveSess_down (p : KcpProxy) (ref c : ConnId) :
    (p.setConnState ref (fun _ => .kDisconnected)).liveSess c =
      if ref = c then none else p.liveSess c := by
  unfold liveSess
  rw [conns_setConnState]
  by_cases hc : ref = c
  · rw [if_pos hc, if_pos hc]
    cases p.conns[c]? with
    | none => rfl
    | some conn => rfl
  · rw [if_neg hc, if_neg hc]

/-! ## What the handlers do to the tables -/

theorem conns_connUp (p : KcpProxy) (c : ConnId) :
    (p.newConnection.onConnected p.nextConnId).conns[c]? =
      if p.nextConnId = c then some { state := .kConnected, context := some (.create p.nextConnId) }
      else p.conns[c]? := by
  change (p.newConnection.setSess p.nextConnId (.create p.nextConnId)).conns[c]? = _
  rw [conns_setSess]
  by_cases hc : p.nextConnId = c
  · subst hc
    simp [newConnection]
  · simp [newConnection, hc, TreeMap.getElem?_insert]

/-- The new connection waits. -/
theorem liveSess_connUp (p : KcpProxy) (c : ConnId) :
    (p.newConnection.onConnected p.nextConnId).liveSess c =
      if p.nextConnId = c then some (.create p.nextConnId) else p.liveSess c := by
  unfold liveSess
  rw [conns_connUp]
  split_ifs <;> rfl

theorem lockSess_connUp (p : KcpProxy) (c : ConnId) :
    (p.newConnection.onConnected p.nextConnId).lockSess c =
      if p.nextConnId = c then some (.create p.nextConnId) else p.lockSess c := by
  unfold lockSess
  rw [conns_connUp]
  split_ifs <;> rfl

theorem conns_onDisconnected (p : KcpProxy) (c : ConnId) (sess : KcpDataSession) :
    (p.onDisconnected c sess).conns = p.conns := by
  unfold onDisconnected
  dsimp only
  split_ifs <;> rfl

/-- The object of a closed connection is there until it is destroyed. -/
theorem lockSess_onDisconnected (p : KcpProxy) (ref : ConnId) (sess : KcpDataSession) (c : ConnId) :
    ((p.setConnState ref (fun _ => .kDisconnected)).onDisconnected ref sess).lockSess c =
      p.lockSess c := by
  rw [← lockSess_setConnState p ref c (fun _ => .kDisconnected)]
  simp only [lockSess, conns_onDisconnected]

theorem nextConnId_onDisconnected (p : KcpProxy) (c : ConnId) (sess : KcpDataSession) :
    (p.onDisconnected c sess).nextConnId = p.nextConnId := by
  unfold onDisconnected
  dsimp only
  split_ifs <;> rfl

theorem uninitedSessList_onDisconnected (p : KcpProxy) (c : ConnId) (sess : KcpDataSession) :
    (p.onDisconnected c sess).uninitedSessList = p.uninitedSessList.erase c := by
  unfold onDisconnected
  dsimp only
  split_ifs <;> rfl

theorem sessionMap_onDisconnected (p : KcpProxy) (c : ConnId) (sess : KcpDataSession)
    (id : IUINT32) :
    (p.onDisconnected c sess).sessionMap[id]? =
      if sess.id ≠ 0 ∧ sess.id = id then none else p.sessionMap[id]? := by
  unfold onDisconnected
  by_cases hid : sess.id = 0
  · simp only [hid, ne_eq, not_true_eq_false, if_false, false_and]
  · simp only [hid, ne_eq, not_false_eq_true, if_true, true_and]
    change (p.sessionMap.erase sess.id)[id]? = _
    simp [TreeMap.getElem?_erase]

theorem hist_onDisconnected (p : KcpProxy) (c : ConnId) (sess : KcpDataSession) :
    (p.onDisconnected c sess).hist =
      { p.hist with
        ctlSent := p.hist.ctlSent ++ if sess.id ≠ 0 then [destroyMsg sess.id] else [] } := by
  unfold onDisconnected
  dsimp only
  split_ifs
  · rfl
  · rw [List.append_nil]

theorem liveSess_onDisconnected (p : KcpProxy) (ref : ConnId) (sess : KcpDataSession) (c : ConnId) :
    ((p.setConnState ref (fun _ => .kDisconnected)).onDisconnected ref sess).liveSess c =
      if ref = c then none else p.liveSess c := by
  rw [← liveSess_down p ref c]
  simp only [liveSess, conns_onDisconnected]

theorem conns_onConnDestroyed (p : KcpProxy) (ref c : ConnId) :
    (p.onConnDestroyed ref).conns[c]? = if ref = c then none else p.conns[c]? := by
  change (p.conns.erase ref)[c]? = _
  simp [TreeMap.getElem?_erase]

theorem lockSess_onConnDestroyed (p : KcpProxy) (ref c : ConnId) :
    (p.onConnDestroyed ref).lockSess c = if ref = c then none else p.lockSess c := by
  unfold lockSess
  rw [conns_onConnDestroyed]
  split_ifs <;> rfl

/-- Destroying the object of a closed connection shows nowhere. -/
theorem liveSess_onConnDestroyed {p : KcpProxy} {ref : ConnId} (hdead : p.live ref = false)
    (c : ConnId) : (p.onConnDestroyed ref).liveSess c = p.liveSess c := by
  have hnone : p.liveSess ref = none := by
    cases hs : p.liveSess ref with
    | none => rfl
    | some sess =>
        have := (liveSess_eq_some_iff.mp hs).1
        rw [hdead] at this
        cases this
  by_cases hc : ref = c
  · subst hc
    rw [hnone]
    simp [liveSess, conns_onConnDestroyed]
  · simp [liveSess, conns_onConnDestroyed, hc]

/-- Writing back a session with the same id. -/
theorem exists_id_setSess {p : KcpProxy} {ref : ConnId} {sess sess' : KcpDataSession}
    (hs : p.liveSess ref = some sess) (hid : sess'.id = sess.id) (c : ConnId) (id : IUINT32) :
    (∃ x, (p.setSess ref sess').liveSess c = some x ∧ x.id = id) ↔
      ∃ x, p.liveSess c = some x ∧ x.id = id := by
  rw [liveSess_setSess]
  by_cases hc : ref = c
  · subst hc
    rw [if_pos rfl, if_pos (liveSess_eq_some_iff.mp hs).1, hs]
    simp [hid]
  · rw [if_neg hc]

theorem liveSess_giveId {p : KcpProxy} {ref : ConnId} {sess : KcpDataSession}
    (hs : p.liveSess ref = some sess) (newSessId : IUINT32) (rest : List ConnId)
    (sess' : KcpDataSession) (accepted : List (List Byte)) (c : ConnId) :
    ((p.noteRsp newSessId).giveId newSessId ref rest sess' accepted).liveSess c =
      if ref = c then some sess' else p.liveSess c := by
  change ((p.noteRsp newSessId).setSess ref sess').liveSess c = _
  rw [liveSess_setSess]
  by_cases hc : ref = c
  · subst hc
    have hlive : (p.noteRsp newSessId).live ref := (liveSess_eq_some_iff.mp hs).1
    rw [if_pos rfl, if_pos rfl, if_pos hlive]
  · rw [if_neg hc, if_neg hc]
    rfl

theorem sessionMap_giveId (p : KcpProxy) (newSessId : IUINT32) (ref : ConnId)
    (rest : List ConnId) (sess' : KcpDataSession) (accepted : List (List Byte)) (id : IUINT32) :
    (p.giveId newSessId ref rest sess' accepted).sessionMap[id]? =
      if newSessId = id then some ref else p.sessionMap[id]? := by
  change (p.sessionMap.insert newSessId ref)[id]? = _
  simp [TreeMap.getElem?_insert]

/-! ## The two invariants -/

/-- The references in the containers are sound. -/
structure RefInv (p : KcpProxy) : Prop where
  fresh : ∀ c : ConnId, p.nextConnId ≤ c → p.conns[c]? = none
  context : ∀ (c : ConnId) (conn : Conn), p.conns[c]? = some conn →
    ∃ sess : KcpDataSession, conn.context = some sess ∧ sess.conn = c ∧ sess.Phase
  waiting : ∀ c, c ∈ p.uninitedSessList ↔ ∃ sess, p.liveSess c = some sess ∧ sess.id = 0
  nodup : p.uninitedSessList.Nodup
  held : ∀ (id : IUINT32) (c : ConnId), p.sessionMap[id]? = some c →
    id ≠ 0 ∧ ∃ sess, p.liveSess c = some sess ∧ sess.id = id

/-- The tables are sound and complete. -/
structure TableInv (p : KcpProxy) : Prop extends RefInv p where
  listed : ∀ c sess, p.liveSess c = some sess → sess.id ≠ 0 → p.sessionMap[sess.id]? = some c

namespace RefInv

variable {p : KcpProxy}

theorem of_live (h : RefInv p) {c : ConnId} (hc : p.live c) :
    ∃ sess, p.liveSess c = some sess ∧ sess.conn = c ∧ sess.Phase := by
  cases hconn : p.conns[c]? with
  | none => simp [live, hconn] at hc
  | some conn =>
      obtain ⟨sess, hctx, hconn', hphase⟩ := h.context c conn hconn
      have hlock : p.lockSess c = some sess := by simp [lockSess, hconn, hctx]
      exact ⟨sess, liveSess_eq_some_iff.mpr ⟨hc, hlock⟩, hconn', hphase⟩

theorem of_liveSess (h : RefInv p) {c : ConnId} {sess : KcpDataSession}
    (hs : p.liveSess c = some sess) : sess.conn = c ∧ sess.Phase := by
  obtain ⟨sess', hs', hconn, hphase⟩ := h.of_live (liveSess_eq_some_iff.mp hs).1
  obtain rfl := Option.some.inj (hs.symm.trans hs')
  exact ⟨hconn, hphase⟩

/-- A reference in the waiting list locks to a session without an id. -/
theorem of_waiting (h : RefInv p) {c : ConnId} (hc : c ∈ p.uninitedSessList) :
    ∃ sess, p.liveSess c = some sess ∧ p.lockSess c = some sess ∧ sess.id = 0 ∧
      sess.conn = c ∧ sess.Phase := by
  obtain ⟨sess, hs, hid⟩ := (h.waiting c).mp hc
  exact ⟨sess, hs, (liveSess_eq_some_iff.mp hs).2, hid, h.of_liveSess hs⟩

/-- A reference in the map locks to a session with that id. -/
theorem of_held (h : RefInv p) {id : IUINT32} {c : ConnId} (hc : p.sessionMap[id]? = some c) :
    ∃ sess, p.liveSess c = some sess ∧ p.lockSess c = some sess ∧ sess.id = id ∧ sess.id ≠ 0 ∧
      sess.conn = c ∧ sess.Phase := by
  obtain ⟨hne, sess, hs, hid⟩ := h.held id c hc
  exact ⟨sess, hs, (liveSess_eq_some_iff.mp hs).2, hid, hid ▸ hne, h.of_liveSess hs⟩

/-- The connection object behind a live session exists. -/
theorem conn_exists {c : ConnId} {sess : KcpDataSession} (hs : p.liveSess c = some sess) :
    ∃ conn, p.conns[c]? = some conn := by
  have hl := (liveSess_eq_some_iff.mp hs).1
  cases hconn : p.conns[c]? with
  | none => simp [live, hconn] at hl
  | some conn => exact ⟨conn, rfl⟩

/-- A live connection was numbered before the next one. -/
theorem lt_next (h : RefInv p) {c : ConnId} {sess : KcpDataSession}
    (hs : p.liveSess c = some sess) : c < p.nextConnId := by
  obtain ⟨conn, hconn⟩ := conn_exists hs
  by_contra hge
  rw [h.fresh c (Nat.le_of_not_lt hge)] at hconn
  cases hconn

/-- The invariant reads only the tables and the connection objects. -/
theorem congr (h : RefInv p) {p' : KcpProxy} (hconns : p'.conns = p.conns)
    (hnext : p'.nextConnId = p.nextConnId) (hlist : p'.uninitedSessList = p.uninitedSessList)
    (hmap : p'.sessionMap = p.sessionMap) : RefInv p' := by
  have hlive : ∀ c, p'.liveSess c = p.liveSess c := by
    intro c
    simp only [liveSess, hconns]
  refine ⟨?_, ?_, ?_, ?_, ?_⟩
  · intro c hc
    rw [hconns]
    exact h.fresh c (hnext ▸ hc)
  · intro c conn hc
    exact h.context c conn (hconns ▸ hc)
  · intro c
    rw [hlist, hlive]
    exact h.waiting c
  · rw [hlist]
    exact h.nodup
  · intro id c hc
    rw [hlive]
    exact h.held id c (hmap ▸ hc)

theorem create : RefInv KcpProxy.create := by
  refine ⟨?_, ?_, ?_, List.nodup_nil, ?_⟩
  · intro c _
    simp [KcpProxy.create]
  · intro c conn hc
    simp [KcpProxy.create] at hc
  · intro c
    simp [KcpProxy.create, liveSess]
  · intro id c hc
    simp [KcpProxy.create] at hc

end RefInv

namespace TableInv

variable {p : KcpProxy}

/-- Two live sessions with the same non-zero id are one. -/
theorem id_injective (h : TableInv p) {c c' : ConnId} {sess sess' : KcpDataSession}
    (hs : p.liveSess c = some sess) (hs' : p.liveSess c' = some sess') (hid : sess.id ≠ 0)
    (heq : sess.id = sess'.id) : c = c' := by
  have h1 := h.listed c sess hs hid
  have h2 := h.listed c' sess' hs' (heq ▸ hid)
  rw [← heq] at h2
  exact Option.some.inj (h1.symm.trans h2)

theorem create : TableInv KcpProxy.create where
  toRefInv := RefInv.create
  listed := by
    intro c sess hs
    simp [KcpProxy.create, liveSess] at hs

end TableInv
end KcpProxy
end Proxy
end UdpSpeed
