/-
  UdpSpeed.Tunnel.EndToEnd

  The tunnel over a network that loses, repeats, delays and reorders datagrams
  but makes none up.  Behind the two processes stands one pair of KCP objects
  for each conv: every run of the tunnel is a run of all these connections at
  once, so what is proved of a connection holds of every session.
-/

import UdpSpeed.Proxy.Objects
import UdpSpeed.Server.Objects
import UdpSpeed.Tunnel.Streams

namespace UdpSpeed

open Kcp Control Muduo Std

namespace Tunnel

open Proxy (KcpProxy ConnId KcpDataSession)
open Server (KcpServer SockAddr KcpServerSession)

namespace System

/-! ## The network -/

/-- The KCP objects of either process; the proxy has the left ends. -/
def view (t : System) : Side → KcpView
  | .left => t.proxy.view
  | .right => t.server.view

/-- A datagram that reaches a process was sent by the other one. -/
def honest (t : System) : Event → Bool
  | .proxy (.datagram bytes) => t.server.view.datagrams.any (· = bytes)
  | .server (.datagram bytes _ _) => t.proxy.view.datagrams.any (· = bytes)
  | _ => true

/-- A state of a system on such a network. -/
def HonestReachable (t : System) : Prop :=
  EventSystem.Reachable (EventSystem.restrict step honest) (fun t₀ => ∃ id, t₀ = create id) t

/-- `L id` is the connection behind the conv `id`. -/
structure Tracks (t : System) (L : IUINT32 → Link) : Prop where
  reached : ∀ id, id ≠ 0 → Link.Reached id (L id)
  hosts : ∀ side, Hosts (t.view side) (fun id => L id side)

theorem tracks_create (id : IUINT32) : Tracks (create id) Link.create where
  reached := fun id _ => ⟨Link.create id, [], rfl, rfl⟩
  hosts := by
    intro side
    cases side with
    | left => exact KcpProxy.hosts_create
    | right => exact KcpServer.hosts_create id

variable {t t' : System} {L : IUINT32 → Link}

theorem issued_le (hlink : LinkInv t) {e : Event} (hstep : t.step e = some t') :
    t.server.hist.issued.length ≤ t'.server.hist.issued.length := by
  cases hlink.outcome hstep with
  | @server e s' hloc heff =>
      have hctl : ∀ msg remote now, e ≠ .control msg remote now := by
        rintro msg r n rfl
        cases hloc
      exact (congrArg List.length (heff.local_hist hctl).2.1).ge
  | request hctl =>
      change _ ≤ (t.server.hist.issued ++ [_]).length
      rw [List.length_append]
      exact Nat.le_add_right _ _
  | @destroy remote now id rest hctl =>
      change _ ≤ (t.server.handleDestroy id).hist.issued.length
      rw [(KcpServer.handleDestroy_frame t.server id).2.2.1]
  | _ => exact le_rfl

theorem mem_of_any {datagrams : List (List Byte)} {bytes : List Byte}
    (h : datagrams.any (· = bytes)) : bytes ∈ datagrams := by
  obtain ⟨x, hx, heq⟩ := List.any_eq_true.mp h
  rwa [← of_decide_eq_true heq]

/-- Calls of one process are steps of the connections. -/
theorem Tracks.calls (h : Tracks t L) (side : Side) {net : IUINT32 → List Byte → Prop}
    (hserves : ∃ E', Serves net (fun id => L id side) E' ∧ Hosts (t'.view side) E')
    (hother : t'.view side.other = t.view side.other)
    (hnet : ∀ id datagram, id ≠ 0 → net id datagram → datagram ∈ (L id side.other).output) :
    ∃ L', Tracks t' L' := by
  obtain ⟨E', hserves, hnow⟩ := hserves
  obtain ⟨L', hends, hreached⟩ := hserves.links hnet h.reached
  refine ⟨L', hreached, ?_⟩
  intro x
  rcases side.eq_or_other x with rfl | rfl
  · have hsame : (fun id => L' id x) = E' := funext fun id => (hends id).1
    rw [hsame]
    exact hnow
  · have hsame : (fun id => L' id side.other) = fun id => L id side.other :=
      funext fun id => (hends id).2
    rw [hsame, hother]
    exact h.hosts side.other

/-- An event of the server's own. -/
theorem Tracks.server_event (h : Tracks t L) (hlink : LinkInv t) (hs : t.server.StreamInv)
    {e : Server.Event} {s' : KcpServer} (hloc : serverLocal e) (hen : t.server.enabled e)
    (hhonest : t.honest (.server e)) (hok : t.server.handle e = .ok s') :
    ∃ L', Tracks { t with server := s' } L' := by
  have heff := hlink.heap.handle_effect hen hok
  refine h.calls .right (KcpServer.serves_effect hlink.heap hs (h.hosts .right) hlink.nonzero hok
    heff ?_) rfl ?_
  · rintro msg remote now rfl
    cases hloc
  · rintro id datagram hid ⟨bytes, remote, now, rfl, rfl, rfl⟩
    exact (h.hosts .left).arrives (mem_of_any hhonest) hid

/-- **Every step of the tunnel is steps of the connections.** -/
theorem Tracks.step (h : Tracks t L) {id₀ : IUINT32} (hlink : LinkInv t) (hfresh : FreshInv id₀ t)
    (hstreams : StreamsInv t) {e : Event} (hhonest : t.honest e) (hstep : t.step e = some t')
    (hbound : t'.server.hist.issued.length < 2 ^ 32 - 1) : ∃ L', Tracks t' L' := by
  have hissued := issued_le hlink hstep
  obtain ⟨hp, hs⟩ := hstreams (hissued.trans_lt hbound)
  cases e with
  | server e =>
      simp only [System.step] at hstep
      split_ifs at hstep with hcond
      simp only [Bool.and_eq_true] at hcond
      obtain rfl := Option.some.inj hstep
      cases hok : t.server.handle e with
      | error a => exact ⟨L, h.reached, h.hosts⟩
      | ok s' => exact h.server_event hlink hs hcond.1.1 hcond.2 hhonest hok
  | proxy e =>
      cases hlink.outcome hstep with
      | proxy hloc hok heff =>
          refine h.calls .left (KcpProxy.serves_effect hlink.refs hp (h.hosts .left) hok heff ?_)
            rfl ?_
          · rintro msg rfl
            cases hloc
          · rintro id datagram hid ⟨bytes, rfl, rfl, rfl⟩
            exact (h.hosts .right).arrives (mem_of_any hhonest) hid
  | deliverToServer remote now =>
      cases hlink.outcome hstep with
      | request hctl =>
          change (t.server.hist.issued ++ [_]).length < 2 ^ 32 - 1 at hbound
          rw [List.length_append, List.length_singleton] at hbound
          have hnodup := ((hfresh (by omega)).1.next hbound).nodup
          have hne : (KcpServer.newId t.server.id).1 ≠ 0 :=
            FreshCounter.next_ne_zero (by decide) t.server.id
          have hnew : (KcpServer.newId t.server.id).1 ∉ t.server.hist.issued := fun hin =>
            List.disjoint_of_nodup_append hnodup hin (List.mem_singleton_self _)
          have hserves : ∃ E', Serves (fun _ _ => False) (fun id => L id .right) E' ∧
              Hosts (t.server.handleCreate remote now).view E' :=
            KcpServer.serves_handleCreate (h.hosts .right) hne hs hnew remote now
          exact h.calls .right hserves rfl (fun _ _ _ hfalse => hfalse.elim)
      | @destroy _ _ id rest hctl =>
          refine ⟨L, h.reached, ?_⟩
          intro side
          cases side with
          | left => exact h.hosts .left
          | right => exact KcpServer.hosts_handleDestroy (h.hosts .right) id
  | deliverToProxy =>
      cases hlink.outcome hstep with
      | @response id p' hnext hok heff =>
          have hne := hlink.nonzero id (List.mem_of_getElem? hnext)
          have hnew := next_not_seen hlink (hfresh hbound).1.nodup hnext
          refine h.calls .left (KcpProxy.serves_effect hlink.refs hp (h.hosts .left) hok heff ?_)
            rfl ?_
          · rintro msg hmsg -
            obtain rfl := Proxy.Event.control.inj hmsg
            rw [readId_rspMsg]
            exact ⟨hne, hnew⟩
          · rintro _ datagram - ⟨bytes, hev, -⟩
            cases hev

/-! ## Runs -/

/-- What holds after any run on such a network. -/
structure Carried (id₀ : IUINT32) (t : System) : Prop where
  link : LinkInv t
  fresh : FreshInv id₀ t
  streams : StreamsInv t
  tracked : t.server.hist.issued.length < 2 ^ 32 - 1 → ∃ L, Tracks t L

theorem HonestReachable.carried (h : HonestReachable t) : ∃ id₀, Carried id₀ t := by
  obtain ⟨_, es, ⟨id₀, rfl⟩, hrun⟩ := h
  refine ⟨id₀, EventSystem.run_invariant ?_
    ⟨.create id₀, .create id₀, .create id₀, fun _ => ⟨_, tracks_create id₀⟩⟩ hrun⟩
  intro t e t' hc hstep
  obtain ⟨hhonest, hstep⟩ := EventSystem.restrict_eq_some.mp hstep
  have hout := hc.link.outcome hstep
  refine ⟨hc.link.outcome_inv hout, hc.fresh.outcome hc.link hout,
    hc.streams.outcome hc.link hc.fresh hout, ?_⟩
  intro hbound
  obtain ⟨L, hL⟩ := hc.tracked ((issued_le hc.link hstep).trans_lt hbound)
  exact hL.step hc.link hc.fresh hc.streams hhonest hstep hbound

/-- Under no id have so many fragments been accepted that their numbers leave
    the lower half. -/
def Short (t : System) : Prop :=
  ∀ id, id ≠ 0 → (fragmentsOf id (t.proxy.hist.accepted id)).length + 1024 < 2 ^ 31 ∧
    (fragmentsOf id (t.server.hist.accepted id)).length + 1024 < 2 ^ 31

theorem Tracks.short (h : Tracks t L) (hs : t.Short) {id : IUINT32} (hne : id ≠ 0) :
    (L id).Short := by
  have hfrags : ∀ side, (L id side).fragments = fragmentsOf id ((t.view side).accepted id) := by
    intro side
    have hconv : (L id side).kcp.conv = id := ((h.hosts side).sound id hne).conv
    rw [Endpoint.fragments, hconv, (h.hosts side).accepted id hne]
  intro side
  rw [Endpoint.Short, hfrags]
  cases side with
  | left => exact (hs id hne).1
  | right => exact (hs id hne).2

/-- The ends of a connection are paired. -/
theorem Tracks.paired (h : Tracks t L) (hs : t.Short) {id : IUINT32} (hne : id ≠ 0) (side : Side) :
    Paired (L id side) (L id side.other) := by
  obtain ⟨_, es, rfl, hrun⟩ := h.reached id hne
  exact Link.inv_of_run hrun (h.short hs hne) side

theorem Tracks.received_prefix (h : Tracks t L) (hs : t.Short) {id : IUINT32} (hne : id ≠ 0)
    (side : Side) : (t.view side.other).received id <+: (t.view side).accepted id := by
  rw [(h.hosts side.other).received id hne, (h.hosts side).accepted id hne]
  exact (h.paired hs hne side).out.received

/-- KCP is as reliable as the streams take it to be. -/
theorem Tracks.reliable (h : Tracks t L) (hlink : LinkInv t) (hp : t.proxy.StreamInv)
    (hsv : t.server.StreamInv) (hs : t.Short) : KcpReliable t := by
  intro id
  by_cases hne : id = 0
  · -- 0 is no session's id
    subst hne
    have hunissued : (0 : IUINT32) ∉ t.server.hist.issued := fun hin => hlink.nonzero 0 hin rfl
    have hungiven : ∀ c, ((0 : IUINT32), c) ∉ t.proxy.hist.assigned := by
      intro c hin
      have hseen := hp.answered 0 c hin
      rw [hlink.seen] at hseen
      exact hunissued (List.mem_of_mem_take hseen)
    rw [(hsv.noId 0 hunissued).2, (hp.noId 0 hungiven).2]
    exact ⟨List.nil_prefix, List.nil_prefix⟩
  · exact ⟨h.received_prefix hs hne .left, h.received_prefix hs hne .right⟩

/-- The exchange of two bytes and one on such a network: each datagram in it is
    one that was sent. -/
theorem exchange_honest :
    ∃ t, EventSystem.run (EventSystem.restrict step honest) (create 7) exchange = some t ∧
      HonestReachable t ∧ t.server.hist.issued = [7] ∧ t.Short ∧ (7, 1) ∈ t.proxy.hist.assigned := by
  have hrun : (EventSystem.run (EventSystem.restrict step honest) (create 7) exchange).map
      (fun t => (t.server.hist.issued, t.proxy.hist.assigned,
        (fragmentsOf 7 (t.proxy.hist.accepted 7)).length,
        (fragmentsOf 7 (t.server.hist.accepted 7)).length)) = some ([7], [(7, 1)], 1, 1) := by
    decide +kernel
  obtain ⟨t, ht, heq⟩ := Option.map_eq_some_iff.mp hrun
  simp only [Prod.mk.injEq] at heq
  obtain ⟨hissued, hassigned, hleft, hright⟩ := heq
  have hreach : HonestReachable t := ⟨_, _, ⟨7, rfl⟩, ht⟩
  refine ⟨t, ht, hreach, hissued, ?_, by rw [hassigned]; exact List.mem_singleton_self _⟩
  intro id hne
  by_cases hid : id = 7
  · subst hid
    rw [hleft, hright]
    exact ⟨by decide, by decide⟩
  · -- no object of another id was ever made
    obtain ⟨id₀, hc⟩ := hreach.carried
    obtain ⟨L, hL⟩ := hc.tracked (by rw [hissued]; decide)
    have hnone : ∀ side, ¬ (t.view side).used id → (t.view side).accepted id = [] := by
      intro side hunused
      rw [(hL.hosts side).accepted id hne, (hL.hosts side).unused id hne hunused]
      rfl
    have hp : t.proxy.hist.accepted id = [] := by
      apply hnone .left
      rintro ⟨c, hin⟩
      rw [hassigned, List.mem_singleton, Prod.mk.injEq] at hin
      exact hid hin.1
    have hs : t.server.hist.accepted id = [] := by
      apply hnone .right
      intro hin
      change id ∈ t.server.hist.issued at hin
      rw [hissued, List.mem_singleton] at hin
      exact hid hin
    have hnothing : (fragmentsOf id []).length + 1024 < 2 ^ 31 := show 0 + 1024 < _ by decide
    rw [hp, hs]
    exact ⟨hnothing, hnothing⟩

/-- **The tunnel refines its connections.**  Whatever the two processes have
    accepted, returned and sent under a conv is what the two ends of one
    connection have, and their objects are those of its ends. -/
theorem tunnel_refines (h : HonestReachable t)
    (hbound : t.server.hist.issued.length < 2 ^ 32 - 1) : ∃ L, Tracks t L := by
  obtain ⟨id₀, hc⟩ := h.carried
  exact hc.tracked hbound

theorem tunnel_refines_exchange :
    ∃ t L, EventSystem.run (EventSystem.restrict step honest) (create 7) exchange = some t ∧
      Tracks t L ∧ Link.Reached 7 (L 7) ∧ (L 7 .right).received = t.server.hist.received 7 := by
  obtain ⟨t, ht, hreach, hissued, -, -⟩ := exchange_honest
  obtain ⟨L, hL⟩ := tunnel_refines hreach (by rw [hissued]; decide)
  exact ⟨t, L, ht, hL, hL.reached 7 (by decide),
    ((hL.hosts .right).received 7 (by decide)).symm⟩

/-- **The tunnel is a pair of byte streams for each connection**, whatever the
    network does to the datagrams. -/
theorem tunnel_reliable (h : HonestReachable t)
    (hbound : t.server.hist.issued.length < 2 ^ 32 - 1) (hs : t.Short) :
    (∀ id c, (id, c) ∈ t.proxy.hist.assigned →
      t.server.hist.sentToD id <+: t.proxy.hist.readFromA c ∧
        t.proxy.hist.sentToA c <+: t.server.hist.readFromD id) ∧
    (∀ id, (∀ c, (id, c) ∉ t.proxy.hist.assigned) → t.server.hist.sentToD id = []) ∧
    (∀ c, (∀ id, (id, c) ∉ t.proxy.hist.assigned) → t.proxy.hist.sentToA c = []) := by
  obtain ⟨id₀, hc⟩ := h.carried
  obtain ⟨L, hL⟩ := hc.tracked hbound
  obtain ⟨hp, hsv⟩ := hc.streams hbound
  have hkcp := hL.reliable hc.link hp hsv hs
  refine ⟨?_, ?_, hp.noConn⟩
  · intro id c hin
    exact ⟨sentToD_readFromA hp hsv (hkcp id).1 hin, sentToA_readFromD hp hsv (hkcp id).2 hin⟩
  · intro id hnone
    have hrecv := (hkcp id).1
    rw [(hp.noId id hnone).1, List.prefix_nil] at hrecv
    have hsent := hsv.sent id
    rw [hrecv] at hsent
    exact List.prefix_nil.mp hsent

theorem tunnel_reliable_exchange :
    ∃ t, EventSystem.run (EventSystem.restrict step honest) (create 7) exchange = some t ∧
      t.server.hist.sentToD 7 <+: t.proxy.hist.readFromA 1 ∧
      t.proxy.hist.sentToA 1 <+: t.server.hist.readFromD 7 := by
  obtain ⟨t, ht, hreach, hissued, hs, hin⟩ := exchange_honest
  obtain ⟨hstreams, -, -⟩ := tunnel_reliable hreach (by rw [hissued]; decide) hs
  exact ⟨t, ht, hstreams 7 1 hin⟩

/-- With nothing unacknowledged at one end and nothing to read at the other,
    all that was accepted has been returned. -/
theorem Tracks.received_all (h : Tracks t L) (hs : t.Short) {id : IUINT32} (hne : id ≠ 0)
    {side : Side} {kcp kcp' : IKCPCB} (hkcp : (t.view side).holds id kcp)
    (hkcp' : (t.view side.other).holds id kcp') (hwait : ikcpWaitsnd kcp = 0)
    (hnone : ikcpPeeksize kcp' < 0) :
    (t.view side.other).received id = (t.view side).accepted id := by
  have hhere := (h.hosts side).held id kcp hne hkcp
  have hthere := (h.hosts side.other).held id kcp' hne hkcp'
  rw [(h.hosts side.other).received id hne, (h.hosts side).accepted id hne]
  rw [hhere] at hwait
  rw [hthere] at hnone
  exact (h.paired hs hne side).received_all (h.short hs hne side) hwait hnone

/-- **What KCP has let go of has been delivered.**  Under an id whose proxy
    object waits for no acknowledgement and whose server object has nothing to
    read, all bytes read from A have been passed to D, if D is connected; and the
    other way round. -/
theorem acknowledged_delivered (h : HonestReachable t)
    (hbound : t.server.hist.issued.length < 2 ^ 32 - 1) (hs : t.Short) {c : ConnId}
    {sess : KcpDataSession} {kcp : IKCPCB} (hsess : t.proxy.lockSess c = some sess)
    (hkcp : sess.kcp = some kcp) {ref : Server.SessRef} {peer : KcpServerSession}
    (hpeer : t.server.sessions[ref]? = some peer) (hconv : peer.conv = sess.id) :
    (ikcpWaitsnd kcp = 0 → ikcpPeeksize peer.kcp < 0 → peer.client = some .connected →
      t.server.hist.sentToD sess.id = t.proxy.hist.readFromA c) ∧
    (ikcpWaitsnd peer.kcp = 0 → ikcpPeeksize kcp < 0 →
      t.proxy.hist.sentToA c = t.server.hist.readFromD sess.id) := by
  obtain ⟨id₀, hc⟩ := h.carried
  obtain ⟨L, hL⟩ := hc.tracked hbound
  obtain ⟨hp, hsv⟩ := hc.streams hbound
  have hne : sess.id ≠ 0 := by
    rw [← hconv]
    exact hc.link.nonzero _ (hsv.issued ref peer hpeer)
  have hleft : (t.view .left).holds sess.id kcp := ⟨c, sess, hsess, rfl, hkcp⟩
  have hright : (t.view .right).holds sess.id peer.kcp := ⟨ref, peer, hpeer, hconv, rfl⟩
  obtain ⟨hread, hsent⟩ := hp.carried sess.id c (hp.initialised c sess hsess hne).1
  refine ⟨?_, ?_⟩
  · intro hwait hnone hD
    have hall : t.server.hist.received sess.id = t.proxy.hist.accepted sess.id :=
      hL.received_all hs hne hleft hright hwait hnone
    -- a connected D has got everything received
    have hfwd := hsv.forwarded ref peer hpeer
    rw [KcpServer.Forwarded, hD] at hfwd
    have hout : t.server.hist.sentToD peer.conv = (t.server.hist.received peer.conv).flatten := hfwd
    rw [hconv] at hout
    rw [hout, hall, hread]
  · intro hwait hnone
    have hall : t.proxy.hist.received sess.id = t.server.hist.accepted sess.id :=
      hL.received_all hs hne hright hleft hwait hnone
    rw [hsent, hall, hsv.read]

/-- The objects of id 7 after the exchange. -/
theorem exchange_objects {t : System}
    (ht : EventSystem.run (EventSystem.restrict step honest) (create 7) exchange = some t) :
    ∃ sess kcp peer, t.proxy.lockSess 1 = some sess ∧ sess.id = 7 ∧ sess.kcp = some kcp ∧
      ikcpWaitsnd kcp = 0 ∧ t.server.sessions[1]? = some peer ∧ peer.conv = 7 ∧
      ikcpPeeksize peer.kcp < 0 ∧ peer.client = some .connected := by
  have hrun : (EventSystem.run (EventSystem.restrict step honest) (create 7) exchange).map
      (fun t => ((t.proxy.lockSess 1).map (fun sess => (sess.id, sess.kcp.map ikcpWaitsnd)),
        (t.server.sessions[1]?).map (fun peer =>
          (peer.conv, decide (ikcpPeeksize peer.kcp < 0), peer.client)))) =
      some (some (7, some 0), some (7, true, some .connected)) := by
    decide +kernel
  rw [ht, Option.map_some, Option.some.injEq, Prod.mk.injEq] at hrun
  obtain ⟨hproxy, hserver⟩ := hrun
  obtain ⟨sess, hlock, hsess⟩ := Option.map_eq_some_iff.mp hproxy
  obtain ⟨peer, hpeer, hstate⟩ := Option.map_eq_some_iff.mp hserver
  simp only [Prod.mk.injEq, decide_eq_true_eq] at hsess hstate
  obtain ⟨kcp, hkcp, hwait⟩ := Option.map_eq_some_iff.mp hsess.2
  exact ⟨sess, kcp, peer, hlock, hsess.1, hkcp, hwait, hpeer, hstate⟩

theorem acknowledged_delivered_exchange :
    ∃ t, EventSystem.run (EventSystem.restrict step honest) (create 7) exchange = some t ∧
      t.server.hist.sentToD 7 = t.proxy.hist.readFromA 1 := by
  obtain ⟨t, ht, hreach, hissued, hs, -⟩ := exchange_honest
  obtain ⟨sess, kcp, peer, hlock, hid, hkcp, hwait, hpeer, hconv, hnone, hD⟩ := exchange_objects ht
  have hall := acknowledged_delivered hreach (by rw [hissued]; decide) hs hlock hkcp hpeer
    (hconv.trans hid.symm)
  have hsent := hall.1 hwait hnone hD
  rw [hid] at hsent
  exact ⟨t, ht, hsent⟩

/-! ## The objects and the datagrams -/

/-- No object has id 0. -/
theorem holds_ne_zero (hlink : LinkInv t) (hsv : t.server.StreamInv) {side : Side} {id : IUINT32}
    {kcp : IKCPCB} (hkcp : (t.view side).holds id kcp) : id ≠ 0 := by
  cases side with
  | left =>
      obtain ⟨c, sess, hlock, rfl, hkcp⟩ := hkcp
      intro h0
      rw [(hlink.refs.phase hlock).kcp_of_eq_zero h0] at hkcp
      cases hkcp
  | right =>
      obtain ⟨ref, sess, hs, rfl, -⟩ := hkcp
      exact hlink.nonzero _ (hsv.issued ref sess hs)

/-- **The objects of both processes are bounded**, the send queue apart: at most
    32 segments wait for an acknowledgement, 128 for the reader and 128 for a
    gap to close.  Of two objects of one id neither is more than 160 fragments
    ahead of the other. -/
theorem objects_bounded (h : HonestReachable t)
    (hbound : t.server.hist.issued.length < 2 ^ 32 - 1) (hs : t.Short) {side : Side}
    {id : IUINT32} {kcp : IKCPCB} (hkcp : (t.view side).holds id kcp) :
    kcp.nsndBuf ≤ 32 ∧ kcp.rcvQueue.length ≤ 128 ∧ kcp.rcvBuf.length ≤ 128 ∧
      ∀ kcp', (t.view side.other).holds id kcp' →
        kcp'.rcvNxt.toNat ≤ kcp.sndNxt.toNat ∧ kcp.sndNxt.toNat ≤ kcp'.rcvNxt.toNat + 160 := by
  obtain ⟨id₀, hc⟩ := h.carried
  obtain ⟨L, hL⟩ := hc.tracked hbound
  have hne := holds_ne_zero hc.link (hc.streams hbound).2 hkcp
  have hhere := (hL.hosts side).held id kcp hne hkcp
  have hpair := hL.paired hs hne side
  have hout := hpair.bounded (hL.short hs hne side)
  have hback := hpair.symm.bounded (hL.short hs hne side.other)
  rw [hhere]
  refine ⟨hout.inFlight, hback.queued, hback.buffered, ?_⟩
  intro kcp' hkcp'
  rw [(hL.hosts side.other).held id kcp' hne hkcp']
  exact ⟨hout.behind, hout.ahead⟩

theorem objects_bounded_exchange :
    ∃ t kcp, EventSystem.run (EventSystem.restrict step honest) (create 7) exchange = some t ∧
      (t.view .left).holds 7 kcp ∧ kcp.nsndBuf ≤ 32 := by
  obtain ⟨t, ht, hreach, hissued, hs, -⟩ := exchange_honest
  obtain ⟨sess, kcp, -, hlock, hid, hkcp, -⟩ := exchange_objects ht
  have hholds : (t.view .left).holds 7 kcp := ⟨1, sess, hlock, hid, hkcp⟩
  exact ⟨t, kcp, ht, hholds, (objects_bounded hreach (by rw [hissued]; decide) hs hholds).1⟩

/-- **What goes over the wire is true.**  Each datagram either process has sent
    fits the MTU, is taken by any object of its conv at the other, and consists
    of whole segments: a PUSH is the fragment of its number of the messages
    accepted, and what an ACK or a `una` acknowledges has arrived. -/
theorem datagrams_genuine (h : HonestReachable t)
    (hbound : t.server.hist.issued.length < 2 ^ 32 - 1) (hs : t.Short) {side : Side}
    {bytes : List Byte} (hin : bytes ∈ (t.view side).datagrams) {id : IUINT32}
    (hid : ikcpGetconv bytes = id) (hne : id ≠ 0) :
    bytes.length ≤ 1400 ∧
    (∀ kcp, (t.view side.other).holds id kcp → (ikcpInput kcp bytes).1 = 0) ∧
    ∃ group, group ≠ [] ∧ bytes = wireAll group ∧ ∀ seg ∈ group,
      (seg.cmd = ikcpCmdPush → IsFragment (fragmentsOf id ((t.view side).accepted id)) seg) ∧
      ∀ kcp, (t.view side).holds id kcp → (∀ i < seg.una.toNat, kcp.Has i) ∧
        (seg.cmd = ikcpCmdAck → kcp.Has seg.sn.toNat) := by
  obtain ⟨id₀, hc⟩ := h.carried
  obtain ⟨L, hL⟩ := hc.tracked hbound
  have hsound := (hL.hosts side).sound id hne
  have hout : bytes ∈ (L id side).output := by
    have hany := (hL.hosts side).output bytes hin
    rw [hid] at hany
    exact hany hne
  obtain ⟨group, hsome, hwire, hgenuine⟩ := (hL.paired hs hne side).here.emitted bytes hout
  refine ⟨(hsound.wire bytes hout).1, ?_, group, hsome, hwire, ?_⟩
  · intro kcp hkcp
    have hconv : kcp.conv = (L id side).kcp.conv := by
      rw [(hL.hosts side.other).held id kcp hne hkcp, hsound.conv]
      exact ((hL.hosts side.other).sound id hne).conv
    rw [hwire]
    refine (ikcpInput_wireAll hsome ?_).1
    rw [hconv]
    exact fun seg hseg => (hgenuine seg hseg).readable
  · intro seg hseg
    have hg := hgenuine seg hseg
    refine ⟨?_, ?_⟩
    · intro hpush
      have hfrag := (hg.push hpush).1
      rw [Endpoint.fragments, hsound.conv, ← (hL.hosts side).accepted id hne] at hfrag
      exact hfrag
    · intro kcp hkcp
      rw [(hL.hosts side).held id kcp hne hkcp]
      exact ⟨hg.una, hg.ack⟩

theorem datagrams_genuine_exchange :
    ∃ t bytes, EventSystem.run (EventSystem.restrict step honest) (create 7) exchange = some t ∧
      bytes ∈ (t.view .left).datagrams ∧ ikcpGetconv bytes = 7 ∧
      ∀ kcp, (t.view .right).holds 7 kcp → (ikcpInput kcp bytes).1 = 0 := by
  have hrun : (EventSystem.run (EventSystem.restrict step honest) (create 7) exchange).map
      (fun t => t.proxy.hist.datagrams.head?.map ikcpGetconv) = some (some 7) := by
    decide +kernel
  obtain ⟨t, ht, hreach, hissued, hs, -⟩ := exchange_honest
  rw [ht, Option.map_some, Option.some.injEq] at hrun
  obtain ⟨bytes, hhead, hconv⟩ := Option.map_eq_some_iff.mp hrun
  have hin : bytes ∈ (t.view .left).datagrams := List.mem_of_head? hhead
  exact ⟨t, bytes, ht, hin, hconv,
    (datagrams_genuine hreach (by rw [hissued]; decide) hs hin hconv (by decide)).2.1⟩

end System
end Tunnel
end UdpSpeed
