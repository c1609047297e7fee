/-
  UdpSpeed.Tunnel.Ids

  Where the session ids are.  A response carries no request identifier and goes
  to whichever connection waits first, so it may answer a connection other than
  the one that asked.  What is kept is the count of answers outstanding, and a
  place for every id the server has issued.
-/

import UdpSpeed.Tunnel.System

namespace UdpSpeed

open Kcp Control Muduo Std

namespace Proxy.KcpProxy

/-- An event outside `handleControlMessage`: a new waiting connection comes
    with a CREATE, and an id that leaves the map with a DESTROY. -/
theorem Effect.local_ids {p p' : KcpProxy} {e : Event} (heff : Effect p e p')
    (hloc : ∀ msg, e ≠ .control msg) :
    ∃ new, p'.hist.ctlSent = p.hist.ctlSent ++ new ∧
      p'.uninitedSessList.length ≤ p.uninitedSessList.length + new.count createMsg ∧
      ∀ (id : IUINT32) (c : ConnId), p.sessionMap[id]? = some c →
        p'.sessionMap[id]? = some c ∨ destroyMsg id ∈ new := by
  cases heff with
  | connUp =>
      refine ⟨[createMsg], rfl, ?_, fun id c hc => Or.inl hc⟩
      change (p.uninitedSessList ++ [p.nextConnId]).length ≤ _
      simp
  | @connDown c₀ sess hs =>
      rw [hist_onDisconnected]
      refine ⟨_, rfl, ?_, ?_⟩
      · rw [uninitedSessList_onDisconnected]
        exact (List.length_erase_le).trans (Nat.le_add_right _ _)
      · intro id c hc
        rw [sessionMap_onDisconnected]
        -- the entry that goes is reported, the others stay
        by_cases hid : sess.id ≠ 0 ∧ sess.id = id
        · right
          rw [if_pos hid.1, hid.2]
          exact List.mem_singleton_self _
        · left
          rw [if_neg hid]
          exact hc
  | unknownConv hconv hmap =>
      exact ⟨[destroyMsg _], rfl, Nat.le_add_right _ _, fun id c hc => Or.inl hc⟩
  | quiet hconv hmap ht =>
      refine ⟨[], by rw [ht.hist, List.append_nil], by rw [ht.uninitedSessList]; exact le_rfl, ?_⟩
      intro id c hc
      exact Or.inl (by rw [ht.sessionMap]; exact hc)
  | timer ht =>
      refine ⟨[], by rw [ht.hist, List.append_nil], by rw [ht.uninitedSessList]; exact le_rfl, ?_⟩
      intro id c hc
      exact Or.inl (by rw [ht.sessionMap]; exact hc)
  | @deliver _ _ p₁ _ _ hconv hmap ht hs hid =>
      refine ⟨[], ?_, ?_, ?_⟩
      · change p₁.hist.ctlSent = _
        rw [ht.hist, List.append_nil]
      · change p₁.uninitedSessList.length ≤ _
        rw [ht.uninitedSessList]
        exact le_rfl
      · intro id c hc
        left
        change p₁.sessionMap[id]? = some c
        rw [ht.sessionMap]
        exact hc
  | connDestroyed hdead =>
      exact ⟨[], (List.append_nil _).symm, le_rfl, fun id c hc => Or.inl hc⟩
  | message hs hne => exact ⟨[], (List.append_nil _).symm, le_rfl, fun id c hc => Or.inl hc⟩
  | controlDatagram hconv hparse =>
      exact ⟨[], (List.append_nil _).symm, le_rfl, fun id c hc => Or.inl hc⟩
  | rspUnused hcmd hempty => exact absurd rfl (hloc _)
  | rspGiven hcmd hlist hs hinit => exact absurd rfl (hloc _)
  | destroyHeld hcmd hmap => exact absurd rfl (hloc _)
  | ignored hcmd => exact absurd rfl (hloc _)

end Proxy.KcpProxy

namespace Tunnel

open Proxy (KcpProxy ConnId KcpDataSession)
open Server (KcpServer SockAddr)

namespace System

/-! ## Counting answers and placing ids -/

/-- `CMD_CREATE_SESSION` messages on their way to the server. -/
def createsInFlight (t : System) : Nat := t.ctlToServer.count createMsg

/-- `RSP_CREATE_SESSION` messages on their way to the proxy. -/
def rspsInFlight (t : System) : Nat :=
  t.ctlToProxy.countP (fun msg => readCmd msg = rspCreateSession)

/-- Enough answers are outstanding, and every issued id is on its way, held, or
    given back. -/
structure IdInv (t : System) : Prop where
  waiting : t.proxy.uninitedSessList.length ≤ t.createsInFlight + t.ctlToProxy.length
  placed : ∀ id ∈ t.server.hist.issued, rspMsg id ∈ t.ctlToProxy ∨
    (∃ c : ConnId, t.proxy.sessionMap[id]? = some c) ∨ destroyMsg id ∈ t.proxy.hist.ctlSent

theorem LinkInv.rspsInFlight_eq {t : System} (h : LinkInv t) :
    t.rspsInFlight = t.ctlToProxy.length := by
  unfold rspsInFlight ctlToProxy
  rw [List.countP_eq_length, h.responses]
  intro msg hmsg
  obtain ⟨id, -, rfl⟩ := List.mem_map.mp (List.mem_of_mem_drop hmsg)
  simp

theorem IdInv.create (id : IUINT32) : IdInv (System.create id) where
  waiting := Nat.zero_le _
  placed := by
    intro i hi
    simp [System.create, KcpServer.create] at hi

/-- The proxy moved on its own. -/
theorem IdInv.proxy {t : System} (h : IdInv t) (hlink : LinkInv t) {e : Proxy.Event}
    {p' : KcpProxy} (hloc : proxyLocal e) (heff : t.proxy.Effect e p') :
    IdInv { t with proxy := p' } := by
  obtain ⟨new, hnew, hwait, hkeep⟩ := heff.local_ids (by rintro msg rfl; cases hloc)
  refine ⟨?_, ?_⟩
  -- a connection that starts to wait has sent its CREATE
  · have hcreates : createsInFlight { t with proxy := p' } =
        t.createsInFlight + new.count createMsg := by
      simp only [createsInFlight, ctlToServer, hnew, List.drop_append_of_le_length hlink.requested,
        List.count_append]
    rw [hcreates]
    change p'.uninitedSessList.length ≤ _ + t.ctlToProxy.length
    have := h.waiting
    omega
  · intro id hid
    -- an id that leaves the map has its DESTROY sent
    rcases h.placed id hid with hfly | ⟨c, hc⟩ | hdead
    · exact Or.inl hfly
    · rcases hkeep id c hc with hc' | hgone
      · exact Or.inr (Or.inl ⟨c, hc'⟩)
      · refine Or.inr (Or.inr ?_)
        change destroyMsg id ∈ p'.hist.ctlSent
        rw [hnew]
        exact List.mem_append_right _ hgone
    · refine Or.inr (Or.inr ?_)
      change destroyMsg id ∈ p'.hist.ctlSent
      rw [hnew]
      exact List.mem_append_left _ hdead

/-- What is left on its way to the server behind the next message. -/
theorem tail_of_ctlToServer {t : System} {msg : List Byte} {rest : List (List Byte)}
    (hctl : t.ctlToServer = msg :: rest) :
    t.proxy.hist.ctlSent.drop (t.toServer + 1) = rest := by
  rw [← List.tail_drop]
  exact congrArg List.tail hctl

/-- The server answered a CREATE. -/
theorem IdInv.request {t : System} (h : IdInv t) (hlink : LinkInv t) {rest : List (List Byte)}
    (hctl : t.ctlToServer = createMsg :: rest) (remote : SockAddr) (now : Int) :
    IdInv { t with server := t.server.handleCreate remote now, toServer := t.toServer + 1 } := by
  have hle : t.toProxy ≤ t.server.hist.ctlSent.length := by
    rw [hlink.responses, List.length_map]
    exact hlink.delivered
  have hfly : (t.server.handleCreate remote now).hist.ctlSent.drop t.toProxy =
      t.ctlToProxy ++ [rspMsg (KcpServer.newId t.server.id).1] :=
    List.drop_append_of_le_length hle
  have hrest := tail_of_ctlToServer hctl
  refine ⟨?_, ?_⟩
  · -- one CREATE less and one response more on their way
    have hwait := h.waiting
    simp only [createsInFlight, hctl, List.count_cons_self, ctlToProxy] at hwait
    simp only [createsInFlight, ctlToServer, ctlToProxy, hrest, hfly, List.length_append,
      List.length_singleton]
    omega
  · intro id hid
    rcases List.mem_append.mp hid with hold | hnew
    · rcases h.placed id hold with hin | hplace
      · refine Or.inl ?_
        change rspMsg id ∈ (t.server.handleCreate remote now).hist.ctlSent.drop t.toProxy
        rw [hfly]
        exact List.mem_append_left _ hin
      · exact Or.inr hplace
    -- the new id is in the response just sent
    · refine Or.inl ?_
      change rspMsg id ∈ (t.server.handleCreate remote now).hist.ctlSent.drop t.toProxy
      rw [hfly, List.mem_singleton.mp hnew]
      exact List.mem_append_right _ (List.mem_singleton_self _)

/-- The proxy handled a response: it goes to the front of the waiting list, or
    its id is given back. -/
theorem IdInv.response {t : System} (h : IdInv t) (hlink : LinkInv t) {id : IUINT32}
    {p' : KcpProxy} (hnext : t.server.hist.issued[t.toProxy]? = some id)
    (heff : t.proxy.Effect (.control (rspMsg id)) p') :
    IdInv { t with proxy := p', toProxy := t.toProxy + 1 } := by
  -- the message delivered is the response for `id`
  have hctl : t.ctlToProxy = rspMsg id :: t.server.hist.ctlSent.drop (t.toProxy + 1) := by
    have hget : t.server.hist.ctlSent[t.toProxy]? = some (rspMsg id) := by
      rw [hlink.responses, List.getElem?_map, hnext]
      rfl
    obtain ⟨hlt, heq⟩ := List.getElem?_eq_some_iff.mp hget
    rw [ctlToProxy, List.drop_eq_getElem_cons hlt, heq]
  have hwait := h.waiting
  rw [hctl, List.length_cons] at hwait
  -- an id other than the delivered one keeps its place
  have hother : ∀ i ∈ t.server.hist.issued, i ≠ id →
      rspMsg i ∈ t.server.hist.ctlSent.drop (t.toProxy + 1) ∨
        (∃ c : ConnId, t.proxy.sessionMap[i]? = some c) ∨ destroyMsg i ∈ t.proxy.hist.ctlSent := by
    intro i hi hne
    have hplace := h.placed i hi
    rw [hctl, List.mem_cons] at hplace
    rcases hplace with (heq | hfly) | hplace
    · exact absurd (rspMsg_injective heq) hne
    · exact Or.inl hfly
    · exact Or.inr hplace
  rcases heff.response with ⟨hempty, rfl⟩ | ⟨ref, rest, sess, sess', accepted, hlist, -, -, rfl⟩
  -- nobody waits: the id goes back
  · refine ⟨?_, ?_⟩
    · change t.proxy.uninitedSessList.length ≤ _
      rw [hempty]
      exact Nat.zero_le _
    · intro i hi
      by_cases hne : i = id
      · exact Or.inr (Or.inr (hne ▸ List.mem_append_right _ (List.mem_singleton_self _)))
      · rcases hother i hi hne with hfly | hheld | hdead
        · exact Or.inl hfly
        · exact Or.inr (Or.inl hheld)
        · exact Or.inr (Or.inr (List.mem_append_left _ hdead))
  -- the front of the waiting list takes it: one less waiting, one answer less
  · refine ⟨?_, ?_⟩
    · rw [hlist, List.length_cons] at hwait
      exact Nat.le_of_succ_le_succ hwait
    · intro i hi
      rcases Classical.em (id = i) with rfl | hne
      · refine Or.inr (Or.inl ⟨ref, ?_⟩)
        exact (KcpProxy.sessionMap_giveId _ _ _ _ _ _ _).trans (if_pos rfl)
      · rcases hother i hi (Ne.symm hne) with hfly | ⟨c, hc⟩ | hdead
        · exact Or.inl hfly
        · refine Or.inr (Or.inl ⟨c, ?_⟩)
          exact ((KcpProxy.sessionMap_giveId _ _ _ _ _ _ _).trans (if_neg hne)).trans hc
        · exact Or.inr (Or.inr hdead)

theorem IdInv.outcome {t t' : System} {e : Event} (h : IdInv t) (hlink : LinkInv t)
    (hout : Outcome t e t') : IdInv t' := by
  cases hout with
  | proxy hloc hok heff => exact h.proxy hlink hloc heff
  | @server e s' hloc heff =>
      obtain ⟨hctl, hissued, -⟩ := heff.local_hist (by rintro msg r n rfl; cases hloc)
      refine ⟨?_, ?_⟩
      · have hwait := h.waiting
        unfold ctlToProxy at hwait ⊢
        rw [← hctl] at hwait
        exact hwait
      · have hplaced := h.placed
        unfold ctlToProxy at hplaced ⊢
        rw [← hctl, ← hissued] at hplaced
        exact hplaced
  | abort herr => exact ⟨h.waiting, h.placed⟩
  | request hctl => exact h.request hlink hctl _ _
  | @destroy remote now id rest hctl =>
      obtain ⟨-, -, hhist, -⟩ := KcpServer.handleDestroy_frame t.server id
      have hrest := tail_of_ctlToServer hctl
      refine ⟨?_, ?_⟩
      · have hwait := h.waiting
        simp only [createsInFlight, hctl, List.count_cons_of_ne (createMsg_ne_destroyMsg id).symm,
          ctlToProxy] at hwait
        simpa only [createsInFlight, ctlToServer, ctlToProxy, hrest, hhist] using hwait
      · have hplaced := h.placed
        unfold ctlToProxy at hplaced ⊢
        rw [← hhist] at hplaced
        exact hplaced
  | response hnext hok heff => exact h.response hlink hnext heff

/-! ## Fresh ids -/

/-- While fewer than `2 ^ 32 - 1` ids have been issued, they are distinct and
    the proxy's tables are complete. -/
def FreshInv (id₀ : IUINT32) (t : System) : Prop :=
  t.server.hist.issued.length < 2 ^ 32 - 1 →
    FreshCounter.Issued id₀ t.server.id t.server.hist.issued ∧ t.proxy.TableInv

theorem FreshInv.create (id : IUINT32) : FreshInv id (System.create id) :=
  fun _ => ⟨.nil id, .create⟩

/-- The id of the next response is new to the proxy: it comes later in the list
    of issued ids than all those it has seen. -/
theorem next_not_seen {t : System} (hlink : LinkInv t) (hnodup : t.server.hist.issued.Nodup)
    {id : IUINT32} (hnext : t.server.hist.issued[t.toProxy]? = some id) :
    id ∉ t.proxy.hist.rspSeen := by
  intro hseen
  rw [hlink.seen, List.mem_take_iff_getElem] at hseen
  obtain ⟨i, hi, heq⟩ := hseen
  -- distinct ids stand at distinct places
  obtain ⟨hlt, hget⟩ := List.getElem?_eq_some_iff.mp hnext
  have := (List.Nodup.getElem_inj_iff hnodup).mp (heq.trans hget.symm)
  omega

/-- So no live session holds it. -/
theorem rspFresh_next {t : System} (hlink : LinkInv t) (hnodup : t.server.hist.issued.Nodup)
    {id : IUINT32} (hnext : t.server.hist.issued[t.toProxy]? = some id) :
    t.proxy.rspFresh (.control (rspMsg id)) := by
  have hne : id ≠ 0 := hlink.nonzero id (List.mem_of_getElem? hnext)
  have hfree : t.proxy.heldByLive id = false := by
    rw [KcpProxy.heldByLive_eq_false_iff]
    rintro c sess hs rfl
    exact next_not_seen hlink hnodup hnext
      (hlink.answered c sess (KcpProxy.liveSess_eq_some_iff.mp hs).2 hne)
  simpa [KcpProxy.rspFresh, hfree] using hne

theorem FreshInv.outcome {id₀ : IUINT32} {t t' : System} {e : Event} (h : FreshInv id₀ t)
    (hlink : LinkInv t) (hout : Outcome t e t') : FreshInv id₀ t' := by
  intro hbound
  cases hout with
  | @proxy e p' hloc hok heff =>
      obtain ⟨hissued, htab⟩ := h hbound
      refine ⟨hissued, htab.effect ?_ heff⟩
      -- events outside the channel carry no response
      cases e with
      | control msg => cases hloc
      | _ => rfl
  | @server e s' hloc heff =>
      obtain ⟨-, hsame, hid⟩ := heff.local_hist (by rintro msg r n rfl; cases hloc)
      change s'.hist.issued.length < 2 ^ 32 - 1 at hbound
      change FreshCounter.Issued id₀ s'.id s'.hist.issued ∧ t.proxy.TableInv
      rw [hsame, hid]
      exact h (hsame ▸ hbound)
  | abort herr => exact h hbound
  | @request remote now rest hctl =>
      change (t.server.hist.issued ++ [_]).length < 2 ^ 32 - 1 at hbound
      rw [List.length_append, List.length_singleton] at hbound
      obtain ⟨hissued, htab⟩ := h (by omega)
      exact ⟨hissued.next hbound, htab⟩
  | @destroy remote now id rest hctl =>
      obtain ⟨-, -, hhist, hid⟩ := KcpServer.handleDestroy_frame t.server id
      change (t.server.handleDestroy id).hist.issued.length < 2 ^ 32 - 1 at hbound
      change FreshCounter.Issued id₀ (t.server.handleDestroy id).id
        (t.server.handleDestroy id).hist.issued ∧ t.proxy.TableInv
      rw [hhist] at hbound ⊢
      rw [hid]
      exact h hbound
  | response hnext hok heff =>
      obtain ⟨hissued, htab⟩ := h hbound
      exact ⟨hissued, htab.effect (rspFresh_next hlink hissued.nodup hnext) heff⟩

/-! ## Along a run -/

theorem run_ids {id₀ : IUINT32} {es : List Event} {t : System}
    (hrun : EventSystem.run step (create id₀) es = some t) :
    LinkInv t ∧ IdInv t ∧ FreshInv id₀ t := by
  refine EventSystem.run_invariant (I := fun t => LinkInv t ∧ IdInv t ∧ FreshInv id₀ t) ?_
    ⟨.create id₀, .create id₀, .create id₀⟩ hrun
  -- the channel invariant tells what each step can be
  rintro t e t' ⟨hlink, hid, hfresh⟩ hstep
  have hout := hlink.outcome hstep
  exact ⟨hlink.outcome_inv hout, hid.outcome hlink hout, hfresh.outcome hlink hout⟩

/-- **Session ids are neither leaked, starved nor shared.**  In every reachable
    state, with fewer than `2 ^ 32 - 1` creations: there are at least as many
    CREATEs and responses in flight as connections waiting; every id issued is
    in a response in flight, or held by a live connection, or given back; and
    no two live connections hold the same id. -/
theorem ids_accounted {t : System} (h : SystemReachable t)
    (hbound : t.server.hist.issued.length < 2 ^ 32 - 1) :
    t.proxy.uninitedSessList.length ≤ t.createsInFlight + t.rspsInFlight ∧
    (∀ id ∈ t.server.hist.issued, rspMsg id ∈ t.ctlToProxy ∨
      (∃ c sess, t.proxy.sessionMap[id]? = some c ∧ t.proxy.live c ∧
        t.proxy.lockSess c = some sess ∧ sess.id = id) ∨
      destroyMsg id ∈ t.proxy.hist.ctlSent) ∧
    (∀ c c' sess sess', t.proxy.live c → t.proxy.lockSess c = some sess →
      t.proxy.live c' → t.proxy.lockSess c' = some sess' → sess.id ≠ 0 →
        sess.id = sess'.id → c = c') := by
  obtain ⟨_, es, ⟨id₀, rfl⟩, hrun⟩ := h
  obtain ⟨hlink, hid, hfresh⟩ := run_ids hrun
  refine ⟨?_, ?_, ?_⟩
  · rw [hlink.rspsInFlight_eq]
    exact hid.waiting
  · intro id hissued
    rcases hid.placed id hissued with hfly | ⟨c, hc⟩ | hdead
    · exact Or.inl hfly
    · obtain ⟨sess, hs, hlock, hsid, -⟩ := hlink.refs.of_held hc
      exact Or.inr (Or.inl ⟨c, sess, hc, (KcpProxy.liveSess_eq_some_iff.mp hs).1, hlock, hsid⟩)
    · exact Or.inr (Or.inr hdead)
  · intro c c' sess sess' hc hs hc' hs' hne heq
    exact (hfresh hbound).2.id_injective (KcpProxy.liveSess_eq_some_iff.mpr ⟨hc, hs⟩)
      (KcpProxy.liveSess_eq_some_iff.mpr ⟨hc', hs'⟩) hne heq

/-- Two connections open, the first closes before it is answered: the second
    takes the id made for the first, and the second id is still on its way. -/
theorem ids_accounted_swap :
    ∃ t, EventSystem.run step (create 7)
        [.proxy .connUp, .proxy .connUp, .deliverToServer ⟨0x7f000001, 40000⟩ 0,
          .proxy (.connDown 1), .deliverToProxy, .deliverToServer ⟨0x7f000001, 40000⟩ 0] = some t ∧
      t.server.hist.issued = [7, 8] ∧ t.proxy.sessionMap.toList = [(7, 2)] ∧
      t.proxy.uninitedSessList = [] ∧
      t.proxy.uninitedSessList.length ≤ t.createsInFlight + t.rspsInFlight := by
  have hrun : (EventSystem.run step (create 7)
      [.proxy .connUp, .proxy .connUp, .deliverToServer ⟨0x7f000001, 40000⟩ 0,
        .proxy (.connDown 1), .deliverToProxy, .deliverToServer ⟨0x7f000001, 40000⟩ 0]).map
        (fun t => (t.server.hist.issued, t.proxy.sessionMap.toList, t.proxy.uninitedSessList))
      = some ([7, 8], [(7, 2)], []) := by
    decide +kernel
  obtain ⟨t, ht, heq⟩ := Option.map_eq_some_iff.mp hrun
  obtain ⟨hissued, hrest⟩ := Prod.mk.inj heq
  obtain ⟨hmap, hlist⟩ := Prod.mk.inj hrest
  refine ⟨t, ht, hissued, hmap, hlist, ?_⟩
  exact (ids_accounted ⟨_, _, ⟨7, rfl⟩, ht⟩ (by rw [hissued]; decide)).1

end System
end Tunnel
end UdpSpeed
