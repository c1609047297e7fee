/-
  UdpSpeed.Proxy.Sessions

  The handlers of the proxy touch a session object only through the session's own
  calls.  So what those calls keep is kept by every event, and holds of all
  session objects along a run.
-/

import UdpSpeed.Proxy.Table

namespace UdpSpeed

open Kcp Control Muduo Std

namespace Proxy

/-- A property of session objects that the constructor establishes and every call
    keeps, if the chunks given to `sendToTunnel` are `ok`. -/
structure SessRule (ok : List Byte → Prop) (P : KcpDataSession → Prop) : Prop where
  create : ∀ c, P (.create c)
  init : ∀ {s s' : KcpDataSession} {id : IUINT32} {accepted : List (List Byte)}, P s →
    s.init id = .ok (s', accepted) → P s'
  sendToTunnel : ∀ {s : KcpDataSession} {data : List Byte}, P s → ok data →
    P (s.sendToTunnel data).1
  recvFromTunnel : ∀ {s s' : KcpDataSession} {input : List Byte} {ret : Int}
    {msg : Option (List Byte)}, P s → s.recvFromTunnel input = .ok (ret, s', msg) → P s'
  update : ∀ {s s' : KcpDataSession} {clock : IUINT32} {out : List (List Byte)}, P s →
    s.update clock = .ok (s', out) → P s'

namespace KcpProxy

/-- `P` holds of every session object of the process. -/
def AllSess (P : KcpDataSession → Prop) (p : KcpProxy) : Prop :=
  ∀ c sess, p.lockSess c = some sess → P sess

variable {ok : List Byte → Prop} {P : KcpDataSession → Prop} {p p' : KcpProxy}

theorem allSess_create : AllSess P KcpProxy.create := by
  intro c sess hs
  simp [KcpProxy.create, lockSess] at hs

/-- Where the connection objects are the same, so are the sessions. -/
theorem AllSess.of_conns (h : AllSess P p) (hconns : p'.conns = p.conns) : AllSess P p' := by
  intro c sess hs
  unfold lockSess at hs
  rw [hconns] at hs
  exact h c sess hs

theorem AllSess.setSess (h : AllSess P p) (ref : ConnId) {sess : KcpDataSession} (hP : P sess) :
    AllSess P (p.setSess ref sess) := by
  intro c sess' hs
  rw [lockSess_setSess] at hs
  split_ifs at hs with hc
  · obtain ⟨_, -, rfl⟩ := Option.map_eq_some_iff.mp hs
    exact hP
  · exact h c sess' hs

theorem AllSess.setConnState (h : AllSess P p) (ref : ConnId) (f : StateE → StateE) :
    AllSess P (p.setConnState ref f) := by
  intro c sess hs
  rw [lockSess_setConnState] at hs
  exact h c sess hs

theorem AllSess.connUp (hr : SessRule ok P) (h : AllSess P p) :
    AllSess P (p.newConnection.onConnected p.nextConnId) := by
  intro c sess hs
  rw [lockSess_connUp] at hs
  split_ifs at hs
  · obtain rfl := Option.some.inj hs
    exact hr.create p.nextConnId
  · exact h c sess hs

theorem AllSess.onConnDestroyed (h : AllSess P p) (ref : ConnId) :
    AllSess P (p.onConnDestroyed ref) := by
  intro c sess hs
  rw [lockSess_onConnDestroyed] at hs
  exact h c sess (Option.ite_none_left_eq_some.mp hs).2

/-! ## Control messages -/

theorem AllSess.handleRsp (hr : SessRule ok P) (h : AllSess P p) {id : IUINT32}
    (hok : p.handleRsp id = .ok p') : AllSess P p' := by
  have hnoted : AllSess P (p.noteRsp id) := h.of_conns rfl
  unfold KcpProxy.handleRsp at hok
  dsimp only at hok
  split at hok
  · obtain rfl := Except.ok.inj hok
    exact hnoted.of_conns rfl
  · next ref rest hlist =>
      cases hlock : (p.noteRsp id).lockSess ref with
      | none =>
          rw [hlock] at hok
          cases hok
      | some sess =>
          simp only [hlock] at hok
          cases hinit : sess.init id with
          | error e =>
              simp only [hinit] at hok
              cases hok
          | ok r =>
              simp only [hinit] at hok
              obtain rfl := Except.ok.inj hok
              have hsess : P r.1 := hr.init (hnoted ref sess hlock) hinit
              exact (hnoted.setSess ref hsess).of_conns rfl

theorem AllSess.handleDestroy (h : AllSess P p) {id : IUINT32}
    (hok : p.handleDestroy id = .ok p') : AllSess P p' := by
  unfold KcpProxy.handleDestroy forceConnClose at hok
  split at hok
  · obtain rfl := Except.ok.inj hok
    exact h
  · split at hok
    · cases hok
    · split at hok
      · cases hok
      · obtain rfl := Except.ok.inj hok
        exact h.setConnState _ _

theorem AllSess.handleControlMessage (hr : SessRule ok P) (h : AllSess P p) {msg : List Byte}
    (hok : p.handleControlMessage msg = .ok p') : AllSess P p' := by
  unfold KcpProxy.handleControlMessage at hok
  split_ifs at hok
  · exact h.handleRsp hr hok
  · exact h.handleDestroy hok
  · obtain rfl := Except.ok.inj hok
    exact h

theorem AllSess.handleControlMessages (hr : SessRule ok P) {msgs : List (List Byte)}
    (h : AllSess P p) (hok : p.handleControlMessages msgs = .ok p') : AllSess P p' := by
  induction msgs generalizing p with
  | nil =>
      obtain rfl := Except.ok.inj hok
      exact h
  | cons msg rest ih =>
      unfold KcpProxy.handleControlMessages at hok
      cases hmsg : p.handleControlMessage msg with
      | error e =>
          rw [hmsg] at hok
          cases hok
      | ok p₁ =>
          rw [hmsg] at hok
          exact ih (h.handleControlMessage hr hmsg) hok

/-! ## Datagrams and the timer -/

theorem conns_sendToConn {sess : KcpDataSession} {msg : List Byte}
    (hok : p.sendToConn sess msg = .ok p') : p'.conns = p.conns := by
  unfold sendToConn at hok
  split at hok
  · cases hok
  · obtain rfl := Except.ok.inj hok
    rfl

theorem AllSess.onDataDatagram (hr : SessRule ok P) (h : AllSess P p) {id : IUINT32}
    {buf : List Byte} (hok : p.onDataDatagram id buf = .ok p') : AllSess P p' := by
  unfold KcpProxy.onDataDatagram at hok
  split at hok
  · obtain rfl := Except.ok.inj hok
    exact h.of_conns rfl
  · next ref hmap =>
      cases hlock : p.lockSess ref with
      | none =>
          rw [hlock] at hok
          cases hok
      | some sess =>
          simp only [hlock] at hok
          cases hrecv : sess.recvFromTunnel buf with
          | error e =>
              simp only [hrecv] at hok
              cases hok
          | ok r =>
              obtain ⟨ret, sess', msg⟩ := r
              simp only [hrecv] at hok
              have hset := h.setSess ref (hr.recvFromTunnel (h ref sess hlock) hrecv)
              cases msg with
              | none =>
                  obtain rfl := Except.ok.inj hok
                  exact hset
              | some msg =>
                  change (p.setSess ref sess').sendToConn sess' msg = .ok p' at hok
                  exact hset.of_conns (conns_sendToConn hok)

theorem AllSess.onKcpTunnelMessage (hr : SessRule ok P) (h : AllSess P p) {bytes : List Byte}
    (hok : p.onKcpTunnelMessage bytes = .ok p') : AllSess P p' := by
  unfold KcpProxy.onKcpTunnelMessage at hok
  dsimp only at hok
  split_ifs at hok
  · unfold onControlDatagram at hok
    split at hok
    · cases hok
    · next ret aryMsg controlSess hparse =>
        have hctl : AllSess P { p with controlSess := controlSess } := h.of_conns rfl
        exact AllSess.handleControlMessages hr hctl hok
  · exact h.onDataDatagram hr hok

theorem AllSess.updateSession (hr : SessRule ok P) (h : AllSess P p) {ref : ConnId}
    {clock : IUINT32} (hok : p.updateSession ref clock = .ok p') : AllSess P p' := by
  unfold KcpProxy.updateSession at hok
  cases hlock : p.lockSess ref with
  | none =>
      rw [hlock] at hok
      cases hok
  | some sess =>
      simp only [hlock] at hok
      cases hupd : sess.update clock with
      | error e =>
          simp only [hupd] at hok
          cases hok
      | ok r =>
          simp only [hupd] at hok
          obtain rfl := Except.ok.inj hok
          exact (h.setSess ref (hr.update (h ref sess hlock) hupd)).of_conns rfl

theorem AllSess.updateSessions (hr : SessRule ok P) {refs : List ConnId} {clock : IUINT32}
    (h : AllSess P p) (hok : p.updateSessions clock refs = .ok p') : AllSess P p' := by
  induction refs generalizing p with
  | nil =>
      obtain rfl := Except.ok.inj hok
      exact h
  | cons ref rest ih =>
      unfold KcpProxy.updateSessions at hok
      cases hupd : p.updateSession ref clock with
      | error e =>
          rw [hupd] at hok
          cases hok
      | ok p₁ =>
          rw [hupd] at hok
          exact ih (h.updateSession hr hupd) hok

/-! ## Events -/

/-- **Every event keeps what the calls keep.** -/
theorem AllSess.step (hr : SessRule ok P) (h : AllSess P p) {e : Event}
    (hdata : ∀ c data, e = .message c data → ok data) (hstep : p.step e = some p') :
    AllSess P p' := by
  obtain ⟨-, hok⟩ := step_eq_some.mp hstep
  cases e with
  | connUp =>
      obtain rfl := Except.ok.inj hok
      exact h.connUp hr
  | connDown c =>
      have hdown : AllSess P (p.setConnState c (fun _ => .kDisconnected)) := h.setConnState c _
      change (p.setConnState c _).onConnection c false = .ok p' at hok
      rw [KcpProxy.onConnection, if_neg Bool.false_ne_true] at hok
      split at hok
      · cases hok
      · obtain rfl := Except.ok.inj hok
        exact hdown.of_conns (conns_onDisconnected _ _ _)
  | connDestroyed c =>
      obtain rfl := Except.ok.inj hok
      exact h.onConnDestroyed c
  | message c data =>
      change p.onMessage c data = .ok p' at hok
      unfold KcpProxy.onMessage at hok
      cases hlock : p.lockSess c with
      | none =>
          simp only [hlock] at hok
          cases hok
      | some sess =>
          simp only [hlock] at hok
          obtain rfl := Except.ok.inj hok
          have hsess := hr.sendToTunnel (h c sess hlock) (hdata c data rfl)
          exact (h.setSess c hsess).of_conns rfl
  | datagram bytes => exact h.onKcpTunnelMessage hr hok
  | timer clock => exact AllSess.updateSessions hr h hok
  | control msg => exact h.handleControlMessage hr hok

end KcpProxy
end Proxy
end UdpSpeed
