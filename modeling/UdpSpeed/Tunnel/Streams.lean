/-
  UdpSpeed.Tunnel.Streams

  The byte streams end to end.  Given that each pair of KCP objects delivers, in
  order and once each, a prefix of the messages accepted on the other side,
  what reaches D is a prefix of what was read from the one connection the id
  was given to, and the other way round.
-/

import UdpSpeed.Tunnel.Ids
import UdpSpeed.Proxy.Streams
import UdpSpeed.Server.Streams

namespace UdpSpeed

open Kcp Control Muduo Std

namespace Tunnel

open Proxy (KcpProxy ConnId KcpDataSession)
open Server (KcpServer SockAddr KcpServerSession)

namespace System

/-- The streams of both processes are accounted for while ids are fresh. -/
def StreamsInv (t : System) : Prop :=
  t.server.hist.issued.length < 2 ^ 32 - 1 → t.proxy.StreamInv ∧ t.server.StreamInv

theorem StreamsInv.create (id : IUINT32) : StreamsInv (System.create id) :=
  fun _ => ⟨.create, .create id⟩

theorem StreamsInv.outcome {id₀ : IUINT32} {t t' : System} {e : Event} (h : StreamsInv t)
    (hlink : LinkInv t) (hfresh : FreshInv id₀ t) (hout : Outcome t e t') : StreamsInv t' := by
  intro hbound
  cases hout with
  | @proxy e p' hloc hok heff =>
      obtain ⟨hp, hs⟩ := h hbound
      refine ⟨hp.local_effect hlink.refs heff (by rintro msg rfl; cases hloc) ?_, hs⟩
      rintro c data rfl
      exact of_decide_eq_true hloc
  | @server e s' hloc heff =>
      have hctl : ∀ msg remote now, e ≠ .control msg remote now := by
        rintro msg r n rfl
        cases hloc
      change s'.hist.issued.length < 2 ^ 32 - 1 at hbound
      rw [(heff.local_hist hctl).2.1] at hbound
      obtain ⟨hp, hs⟩ := h hbound
      exact ⟨hp, hs.local_effect heff hctl⟩
  | abort herr => exact h hbound
  | @request remote now rest hctl =>
      change (t.server.hist.issued ++ [_]).length < 2 ^ 32 - 1 at hbound
      rw [List.length_append, List.length_singleton] at hbound
      obtain ⟨hp, hs⟩ := h (by omega)
      have hnodup := ((hfresh (by omega)).1.next hbound).nodup
      refine ⟨hp, hs.handleCreate ?_ remote now⟩
      intro hin
      exact (List.disjoint_of_nodup_append hnodup) hin (List.mem_singleton_self _)
  | @destroy remote now id rest hctl =>
      change (t.server.handleDestroy id).hist.issued.length < 2 ^ 32 - 1 at hbound
      rw [(KcpServer.handleDestroy_frame t.server id).2.2.1] at hbound
      obtain ⟨hp, hs⟩ := h hbound
      exact ⟨hp, hs.handleDestroy id⟩
  | @response id p' hnext hok heff =>
      obtain ⟨hp, hs⟩ := h hbound
      have hne := hlink.nonzero id (List.mem_of_getElem? hnext)
      -- ids are not issued twice, so the response names a new one
      have hnew := next_not_seen hlink (hfresh hbound).1.nodup hnext
      exact ⟨hp.response hlink.refs heff hne hnew, hs⟩

theorem run_streams {id₀ : IUINT32} {es : List Event} {t : System}
    (hrun : EventSystem.run step (create id₀) es = some t) :
    LinkInv t ∧ FreshInv id₀ t ∧ StreamsInv t := by
  refine EventSystem.run_invariant (I := fun t => LinkInv t ∧ FreshInv id₀ t ∧ StreamsInv t) ?_
    ⟨.create id₀, .create id₀, .create id₀⟩ hrun
  rintro t e t' ⟨hlink, hfresh, hstreams⟩ hstep
  have hout := hlink.outcome hstep
  exact ⟨hlink.outcome_inv hout, hfresh.outcome hlink hout, hstreams.outcome hlink hfresh hout⟩

/-! ## End to end -/

/-- What the KCP pair of each conv is relied on for: each side has received, in
    order and once each, a prefix of the messages accepted on the other. -/
def KcpReliable (t : System) : Prop :=
  ∀ id, t.server.hist.received id <+: t.proxy.hist.accepted id ∧
    t.proxy.hist.received id <+: t.server.hist.accepted id

/-- What was sent to D under `id` came from the connection `id` was given to. -/
theorem sentToD_readFromA {t : System} (hp : t.proxy.StreamInv) (hs : t.server.StreamInv)
    {id : IUINT32} (hkcp : t.server.hist.received id <+: t.proxy.hist.accepted id) {c : ConnId}
    (hin : (id, c) ∈ t.proxy.hist.assigned) :
    t.server.hist.sentToD id <+: t.proxy.hist.readFromA c := by
  calc t.server.hist.sentToD id
      <+: (t.server.hist.received id).flatten := hs.sent id
    _ <+: (t.proxy.hist.accepted id).flatten := hkcp.flatten
    _ = t.proxy.hist.readFromA c := (hp.carried id c hin).1

/-- What was sent to that connection came from the D connection of `id`. -/
theorem sentToA_readFromD {t : System} (hp : t.proxy.StreamInv) (hs : t.server.StreamInv)
    {id : IUINT32} (hkcp : t.proxy.hist.received id <+: t.server.hist.accepted id) {c : ConnId}
    (hin : (id, c) ∈ t.proxy.hist.assigned) :
    t.proxy.hist.sentToA c <+: t.server.hist.readFromD id := by
  calc t.proxy.hist.sentToA c
      = (t.proxy.hist.received id).flatten := (hp.carried id c hin).2
    _ <+: (t.server.hist.accepted id).flatten := hkcp.flatten
    _ = t.server.hist.readFromD id := hs.read id

/-- **End-to-end stream safety and isolation.**  Every id is given to at most
    one connection and every connection has at most one id; the bytes sent to D
    under an id are a prefix of those read from its connection, and the bytes
    sent to the connection a prefix of those read from D.  Under an id given to
    nobody, and to a connection without an id, nothing is sent. -/
theorem streams_safe {t : System} (h : SystemReachable t)
    (hbound : t.server.hist.issued.length < 2 ^ 32 - 1) (hkcp : KcpReliable t) :
    (∀ id c, (id, c) ∈ t.proxy.hist.assigned →
      t.server.hist.sentToD id <+: t.proxy.hist.readFromA c ∧
        t.proxy.hist.sentToA c <+: t.server.hist.readFromD id) ∧
    (∀ id id' c c', (id, c) ∈ t.proxy.hist.assigned → (id', c') ∈ t.proxy.hist.assigned →
      (id = id' ↔ c = c')) ∧
    (∀ id, (∀ c, (id, c) ∉ t.proxy.hist.assigned) → t.server.hist.sentToD id = []) ∧
    (∀ c, (∀ id, (id, c) ∉ t.proxy.hist.assigned) → t.proxy.hist.sentToA c = []) := by
  obtain ⟨_, es, ⟨id₀, rfl⟩, hrun⟩ := h
  obtain ⟨-, -, hstreams⟩ := run_streams hrun
  obtain ⟨hp, hs⟩ := hstreams hbound
  refine ⟨?_, hp.oneToOne, ?_, hp.noConn⟩
  · intro id c hin
    exact ⟨sentToD_readFromA hp hs (hkcp id).1 hin, sentToA_readFromD hp hs (hkcp id).2 hin⟩
  · intro id hnone
    -- nothing was accepted under the id, so nothing can have arrived
    have hrecv : t.server.hist.received id = [] := by
      have := (hkcp id).1
      rw [(hp.noId id hnone).1] at this
      exact List.prefix_nil.mp this
    have hsent := hs.sent id
    rw [hrecv] at hsent
    exact List.prefix_nil.mp hsent

/-- Two bytes from A to D and one back. -/
def exchange : List Event :=
  [.proxy .connUp, .proxy (.message 1 [1, 2]), .deliverToServer ⟨0x7f000001, 40000⟩ 0,
    .deliverToProxy, .proxy (.timer 1000),
    .server (.datagram [7, 0, 0, 0, 81, 0, 128, 0, 232, 3, 0, 0, 0, 0, 0, 0, 0, 0, 0, 0,
      2, 0, 0, 0, 1, 2] ⟨0x7f000001, 40000⟩ 20),
    .server (.connected 1), .server (.message 1 [9]), .server (.updateTimer 1000),
    .proxy (.datagram [7, 0, 0, 0, 82, 0, 128, 0, 232, 3, 0, 0, 0, 0, 0, 0, 1, 0, 0, 0,
      0, 0, 0, 0, 7, 0, 0, 0, 81, 0, 128, 0, 232, 3, 0, 0, 0, 0, 0, 0, 1, 0, 0, 0, 1, 0, 0, 0, 9])]

theorem streams_safe_exchange :
    ∃ t, EventSystem.run step (create 7) exchange = some t ∧
      t.server.hist.sentToD 7 = [1, 2] ∧ t.proxy.hist.sentToA 1 = [9] ∧
      t.server.hist.sentToD 7 <+: t.proxy.hist.readFromA 1 ∧
      t.proxy.hist.sentToA 1 <+: t.server.hist.readFromD 7 := by
  have hrun : (EventSystem.run step (create 7) exchange).map
      (fun t => (t.server.hist.sentToD 7, t.proxy.hist.sentToA 1, t.server.hist.issued,
        t.proxy.hist.assigned)) = some ([1, 2], [9], [7], [(7, 1)]) := by
    decide +kernel
  have hmsgs : (EventSystem.run step (create 7) exchange).map
      (fun t => (t.server.hist.received 7, t.proxy.hist.accepted 7, t.proxy.hist.received 7,
        t.server.hist.accepted 7)) = some ([[1, 2]], [[1, 2]], [[9]], [[9]]) := by
    decide +kernel
  obtain ⟨t, ht, heq⟩ := Option.map_eq_some_iff.mp hrun
  simp only [Prod.mk.injEq] at heq
  obtain ⟨hD, hA, hissued, hassigned⟩ := heq
  rw [ht, Option.map_some, Option.some.injEq] at hmsgs
  simp only [Prod.mk.injEq] at hmsgs
  obtain ⟨hsr, hpa, hpr, hsa⟩ := hmsgs
  have hbound : t.server.hist.issued.length < 2 ^ 32 - 1 := by rw [hissued]; decide
  obtain ⟨hp, hs⟩ := (run_streams ht).2.2 hbound
  have hkcp : KcpReliable t := by
    intro id
    by_cases hid : id = 7
    · subst hid
      rw [hsr, hpa, hpr, hsa]
      exact ⟨List.prefix_rfl, List.prefix_rfl⟩
    · -- no other id was issued or given to a connection
      rw [(hs.noId id (by simpa [hissued] using hid)).2,
        (hp.noId id (by simpa [hassigned] using hid)).2]
      exact ⟨List.nil_prefix, List.nil_prefix⟩
  have hsafe := (streams_safe ⟨_, _, ⟨7, rfl⟩, ht⟩ hbound hkcp).1 7 1 (by simp [hassigned])
  exact ⟨t, ht, hD, hA, hsafe.1, hsafe.2⟩

/-! ## Closing -/

/-- Nothing is left behind in a session that is dropped: its queue is empty and
    its KCP object has no segment that is not acknowledged. -/
def Drained (sess : KcpDataSession) : Prop :=
  sess.payloadList = [] ∧ ∀ kcp, sess.kcp = some kcp → ikcpWaitsnd kcp = 0

/-- What is left of a connection's bytes when it closes: all of them in the
    queue if the session never got an id, none if it did, where KCP has
    accepted them all. -/
def Accounted (t : System) (c : ConnId) (sess : KcpDataSession) : Prop :=
  (sess.id = 0 ∧ sess.kcp = none ∧ sess.payloadList.flatten = t.proxy.hist.readFromA c) ∨
    (sess.id ≠ 0 ∧ sess.payloadList = [] ∧
      (t.proxy.hist.accepted sess.id).flatten = t.proxy.hist.readFromA c)

theorem accounted {t : System} (hlink : LinkInv t) (hp : t.proxy.StreamInv) {c : ConnId}
    {sess : KcpDataSession} (hs : t.proxy.liveSess c = some sess) : Accounted t c sess := by
  obtain ⟨-, hphase⟩ := hlink.refs.of_liveSess hs
  have hlock := (KcpProxy.liveSess_eq_some_iff.mp hs).2
  by_cases h0 : sess.id = 0
  · exact Or.inl ⟨h0, hphase.kcp_of_eq_zero h0, (hp.waiting c sess hlock h0).1⟩
  · obtain ⟨hin, hlist⟩ := hp.initialised c sess hlock h0
    exact Or.inr ⟨h0, hlist, (hp.carried sess.id c hin).1⟩

/-- A closed connection leaves both tables at once; only a session with an id
    is reported to the server. -/
theorem connDown_drops {t : System} (hlink : LinkInv t) {c : ConnId} {sess : KcpDataSession}
    (hs : t.proxy.liveSess c = some sess) :
    ∃ p', t.proxy.step (.connDown c) = some p' ∧ c ∉ p'.uninitedSessList ∧
      (∀ id : IUINT32, p'.sessionMap[id]? ≠ some c) ∧
      p'.hist.ctlSent = t.proxy.hist.ctlSent ++
        if sess.id ≠ 0 then [destroyMsg sess.id] else [] := by
  have hlive := (KcpProxy.liveSess_eq_some_iff.mp hs).1
  obtain ⟨p', hok, heff⟩ := hlink.refs.handle_spec (e := .connDown c) hlive
    (by intro he; cases he) (by intro _ he; cases he)
  have hrefs := hlink.refs.effect (by intro _ he; cases he) heff
  refine ⟨p', KcpProxy.step_eq_some.mpr ⟨hlive, hok⟩, ?_⟩
  cases heff with
  | @connDown _ sess₀ hs₀ =>
      -- afterwards no live session belongs to `c`, so neither table can name it
      obtain rfl := Option.some.inj (hs.symm.trans hs₀)
      have hgone := KcpProxy.liveSess_onDisconnected t.proxy c sess c
      rw [if_pos rfl] at hgone
      refine ⟨?_, ?_, ?_⟩
      · intro hin
        obtain ⟨_, hx, -⟩ := (hrefs.waiting c).mp hin
        rw [hgone] at hx
        cases hx
      · intro id hmap
        obtain ⟨-, _, hx, -⟩ := hrefs.held id c hmap
        rw [hgone] at hx
        cases hx
      · rw [KcpProxy.hist_onDisconnected]
        rfl

/-- What a DESTROY does to the session of its id: the client goes at once. -/
theorem destroy_releases {t : System} (hup : t.serverUp) {id : IUINT32}
    {rest : List (List Byte)} (hctl : t.ctlToServer = destroyMsg id :: rest) (remote : SockAddr)
    (now : Int) :
    ∃ t', t.step (.deliverToServer remote now) = some t' ∧
      (∀ ref sess, t.server.sessionMap[id]? = some ref → t'.server.sessions[ref]? = some sess →
        sess.client = none) ∧
      t'.server.hist.sentToD = t.server.hist.sentToD := by
  have hhandle : t.server.handle (.control (destroyMsg id) remote now) =
      .ok (t.server.handleDestroy id) := by
    change Except.ok (t.server.handleDestroy (readId (destroyMsg id))) = _
    rw [readId_destroyMsg]
  refine ⟨{ t with server := t.server.handleDestroy id, toServer := t.toServer + 1 }, ?_, ?_, ?_⟩
  · simp only [System.step, hctl, hup, if_true, hhandle]
    rfl
  · intro ref sess hmap hsess
    change (t.server.handleDestroy id).sessions[ref]? = some sess at hsess
    rw [KcpServer.sessions_handleDestroy, if_pos hmap] at hsess
    obtain ⟨_, -, rfl⟩ := Option.map_eq_some_iff.mp hsess
    rfl
  · change (t.server.handleDestroy id).hist.sentToD = _
    rw [(KcpServer.handleDestroy_frame t.server id).2.2.1]

/-- **What a close does to the bytes in transit.**  In every reachable state
    with fewer than `2 ^ 32 - 1` creations: when a connection closes, its
    session leaves the proxy's tables at once, whatever KCP still has to send;
    if the session never got an id all bytes read are in its queue, otherwise
    the queue is empty and KCP has accepted them all.  When the server handles
    the DESTROY it releases D's client at once, and what it has passed to D is a
    prefix of what was read; it is all of it if KCP had delivered every message
    and D was connected. -/
theorem close_immediate {t : System} (h : SystemReachable t)
    (hbound : t.server.hist.issued.length < 2 ^ 32 - 1) :
    (∀ c sess, t.proxy.liveSess c = some sess → Accounted t c sess ∧
      ∃ p', t.proxy.step (.connDown c) = some p' ∧ c ∉ p'.uninitedSessList ∧
        (∀ id : IUINT32, p'.sessionMap[id]? ≠ some c) ∧
        p'.hist.ctlSent = t.proxy.hist.ctlSent ++
          if sess.id ≠ 0 then [destroyMsg sess.id] else []) ∧
    (∀ id c rest remote now, KcpReliable t → t.serverUp → (id, c) ∈ t.proxy.hist.assigned →
      t.ctlToServer = destroyMsg id :: rest →
      ∃ t', t.step (.deliverToServer remote now) = some t' ∧
        (∀ ref sess, t.server.sessionMap[id]? = some ref → t'.server.sessions[ref]? = some sess →
          sess.client = none) ∧
        t'.server.hist.sentToD id <+: t.proxy.hist.readFromA c ∧
        ∀ ref sess, t.server.sessionMap[id]? = some ref → t.server.sessions[ref]? = some sess →
          sess.client = some .connected → t.server.hist.received id = t.proxy.hist.accepted id →
            t'.server.hist.sentToD id = t.proxy.hist.readFromA c) := by
  obtain ⟨_, es, ⟨id₀, rfl⟩, hrun⟩ := h
  obtain ⟨hlink, -, hstreams⟩ := run_streams hrun
  obtain ⟨hp, hs⟩ := hstreams hbound
  refine ⟨?_, ?_⟩
  · intro c sess hsess
    exact ⟨accounted hlink hp hsess, connDown_drops hlink hsess⟩
  · intro id c rest remote now hkcp hup hin hctl
    -- the DESTROY moves no bytes: what D has is what it had
    obtain ⟨t', hstep, hclient, hsame⟩ := destroy_releases hup hctl remote now
    refine ⟨t', hstep, hclient, ?_, ?_⟩
    · rw [hsame]
      exact sentToD_readFromA hp hs (hkcp id).1 hin
    · intro ref sess hmap hsess hconn hall
      obtain ⟨sess', hsess', hconv⟩ := hlink.heap.stored id ref hmap
      obtain rfl := Option.some.inj (hsess.symm.trans hsess')
      -- a connected D has got everything received so far
      have hfwd := hs.forwarded ref sess hsess
      rw [KcpServer.Forwarded, hconn, hconv] at hfwd
      rw [hsame, ← (hp.carried id c hin).1, ← hall]
      exact hfwd

/-- After `exchange` the connection closes with nothing in its queue. -/
theorem close_immediate_exchange :
    ∃ t sess, EventSystem.run step (create 7) exchange = some t ∧
      t.proxy.liveSess 1 = some sess ∧ sess.id = 7 ∧ Accounted t 1 sess ∧
      ∃ p', t.proxy.step (.connDown 1) = some p' ∧
        p'.hist.ctlSent = t.proxy.hist.ctlSent ++ [destroyMsg 7] := by
  have hrun : (EventSystem.run step (create 7) exchange).map
      (fun t => ((t.proxy.liveSess 1).map (·.id), t.server.hist.issued)) =
        some (some 7, [7]) := by
    decide +kernel
  obtain ⟨t, ht, heq⟩ := Option.map_eq_some_iff.mp hrun
  obtain ⟨hsess, hissued⟩ := Prod.mk.inj heq
  obtain ⟨sess, hs, hid⟩ := Option.map_eq_some_iff.mp hsess
  have hclose := (close_immediate ⟨_, _, ⟨7, rfl⟩, ht⟩ (by rw [hissued]; decide)).1 1 sess hs
  obtain ⟨hacc, p', hstep, -, -, hctl⟩ := hclose
  refine ⟨t, sess, ht, hs, hid, hacc, p', hstep, ?_⟩
  rw [hctl, hid]
  rfl

/-- A connection that closes right after its data: its session is dropped with
    an unacknowledged segment, and the server lets go of a connected D without
    having passed on a byte. -/
theorem close_loses_data :
    ∃ t t', EventSystem.run step (create 7)
        [.proxy .connUp, .proxy (.message 1 [104, 105]), .deliverToServer ⟨0x7f000001, 40000⟩ 0,
          .server (.connected 1), .deliverToProxy] = some t ∧
      (∃ sess, t.proxy.liveSess 1 = some sess ∧ ¬ Drained sess) ∧
      EventSystem.run step t [.proxy (.connDown 1), .deliverToServer ⟨0x7f000001, 40000⟩ 9] =
        some t' ∧
      (t'.server.sessions[(1 : Server.SessRef)]?.map (·.client)) = some none ∧
      t'.proxy.hist.readFromA 1 = [104, 105] ∧ t'.server.hist.sentToD 7 = [] := by
  have hrun : (EventSystem.run step (create 7)
      [.proxy .connUp, .proxy (.message 1 [104, 105]), .deliverToServer ⟨0x7f000001, 40000⟩ 0,
        .server (.connected 1), .deliverToProxy]).map
        (fun t => (t.proxy.liveSess 1).map (fun sess => sess.kcp.map ikcpWaitsnd)) =
      some (some (some 1)) := by
    decide +kernel
  have hrun' : ((EventSystem.run step (create 7)
      [.proxy .connUp, .proxy (.message 1 [104, 105]), .deliverToServer ⟨0x7f000001, 40000⟩ 0,
        .server (.connected 1), .deliverToProxy]).bind (fun t => EventSystem.run step t
        [.proxy (.connDown 1), .deliverToServer ⟨0x7f000001, 40000⟩ 9])).map
        (fun t => (t.server.sessions[(1 : Server.SessRef)]?.map (·.client),
          t.proxy.hist.readFromA 1, t.server.hist.sentToD 7)) =
      some (some none, [104, 105], []) := by
    decide +kernel
  obtain ⟨t, ht, hsess⟩ := Option.map_eq_some_iff.mp hrun
  obtain ⟨sess, hs, hkcp⟩ := Option.map_eq_some_iff.mp hsess
  obtain ⟨kcp, hk, hwait⟩ := Option.map_eq_some_iff.mp hkcp
  rw [ht, Option.bind_some] at hrun'
  obtain ⟨t', ht', heq⟩ := Option.map_eq_some_iff.mp hrun'
  simp only [Prod.mk.injEq] at heq
  refine ⟨t, t', ht, ⟨sess, hs, ?_⟩, ht', heq⟩
  rintro ⟨-, hzero⟩
  rw [hzero kcp hk] at hwait
  cases hwait

end System
end Tunnel
end UdpSpeed
