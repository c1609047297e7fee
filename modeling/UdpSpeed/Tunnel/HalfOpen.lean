/-
  UdpSpeed.Tunnel.HalfOpen

  Ids the proxy still holds after the server has dropped them.  The proxy has a
  handler for a DESTROY from the server, but the server never sends one: the
  idle timer drops a session without a word.
-/

import UdpSpeed.Tunnel.System

namespace UdpSpeed

open Kcp Control Muduo Std

namespace Proxy.KcpProxy

/-- The proxy has asked the connection to close. -/
def askedToClose (p : KcpProxy) (c : ConnId) : Prop :=
  p.conns[c]?.map (·.state) = some .kDisconnecting

theorem askedToClose_setSess (p : KcpProxy) (ref c : ConnId) (sess : KcpDataSession) :
    (p.setSess ref sess).askedToClose c ↔ p.askedToClose c := by
  unfold askedToClose
  rw [conns_setSess]
  split_ifs
  · rw [Option.map_map]
    rfl
  · rfl

theorem Touch.askedToClose {p p' : KcpProxy} (h : Touch p p') (c : ConnId) :
    p'.askedToClose c ↔ p.askedToClose c := by
  have hface := congrArg (Option.map Prod.fst) (h.face c)
  rw [Option.map_map, Option.map_map] at hface
  unfold KcpProxy.askedToClose
  exact iff_of_eq (congrArg (· = some StateE.kDisconnecting) hface)

/-- Outside `handleControlMessage` no entry is added to the map, and an entry
    that stays keeps its connection's state. -/
theorem Effect.local_held {p p' : KcpProxy} {e : Event} (h : RefInv p) (heff : Effect p e p')
    (hloc : ∀ msg, e ≠ .control msg) {id : IUINT32} {c : ConnId}
    (hc : p'.sessionMap[id]? = some c) :
    p.sessionMap[id]? = some c ∧ (p.askedToClose c → p'.askedToClose c) := by
  cases heff with
  | connUp =>
      refine ⟨hc, ?_⟩
      obtain ⟨-, sess, hs, -⟩ := h.held id c hc
      -- a connection in the map existed before
      have hne : p.nextConnId ≠ c := by
        rintro rfl
        rw [h.liveSess_next] at hs
        cases hs
      unfold askedToClose
      rw [conns_connUp, if_neg hne]
      exact fun hask => hask
  | @connDown c₀ sess₀ hs₀ =>
      rw [sessionMap_onDisconnected] at hc
      split_ifs at hc with hid
      refine ⟨hc, ?_⟩
      obtain ⟨hne, sess, hs, hsid⟩ := h.held id c hc
      -- the entry of the closed connection has just been erased
      have hcc : c₀ ≠ c := by
        rintro rfl
        obtain rfl := Option.some.inj (hs₀.symm.trans hs)
        exact hid ⟨hsid ▸ hne, hsid⟩
      unfold askedToClose
      rw [conns_onDisconnected, conns_setConnState, if_neg hcc]
      exact fun hask => hask
  | @connDestroyed c₀ hdead =>
      refine ⟨hc, ?_⟩
      obtain ⟨-, sess, hs, -⟩ := h.held id c hc
      -- a connection in the map is live
      have hcc : c₀ ≠ c := by
        rintro rfl
        rw [(liveSess_eq_some_iff.mp hs).1] at hdead
        cases hdead
      unfold askedToClose
      rw [conns_onConnDestroyed, if_neg hcc]
      exact fun hask => hask
  | message hs hne => exact ⟨hc, (askedToClose_setSess p _ c _).mpr⟩
  | controlDatagram hconv hparse => exact ⟨hc, fun hask => hask⟩
  | unknownConv hconv hmap => exact ⟨hc, fun hask => hask⟩
  | quiet hconv hmap ht => exact ⟨ht.sessionMap ▸ hc, (ht.askedToClose c).mpr⟩
  | deliver hconv hmap ht hs hid =>
      exact ⟨ht.sessionMap ▸ hc, fun hask => (ht.askedToClose c).mpr hask⟩
  | timer ht => exact ⟨ht.sessionMap ▸ hc, (ht.askedToClose c).mpr⟩
  | rspUnused hcmd hempty => exact absurd rfl (hloc _)
  | rspGiven hcmd hlist hs hinit => exact absurd rfl (hloc _)
  | destroyHeld hcmd hmap => exact absurd rfl (hloc _)
  | ignored hcmd => exact absurd rfl (hloc _)

end Proxy.KcpProxy

namespace Server.KcpServer

/-- Only the idle timer and a CREATE touch the map. -/
theorem Effect.local_sessionMap {s s' : KcpServer} {e : Event} (heff : Effect s e s')
    (hctl : ∀ msg remote now, e ≠ .control msg remote now)
    (hidle : ∀ now, e ≠ .deadSessionTimer now) : s'.sessionMap = s.sessionMap := by
  cases heff with
  | create hcmd => exact absurd rfl (hctl _ _ _)
  | destroy hcmd => exact absurd rfl (hctl _ _ _)
  | updateTimer ht => exact ht.sessionMap
  | deadSessionTimer => exact absurd rfl (hidle _)
  | _ => rfl

end Server.KcpServer

namespace Tunnel

open Proxy (KcpProxy ConnId KcpDataSession)
open Server (KcpServer SockAddr)

namespace System

/-- The proxy already knows that the connection behind `id` has to go. -/
def Covered (t : System) (id : IUINT32) (c : ConnId) : Prop :=
  t.proxy.askedToClose c ∨ destroyMsg id ∈ t.proxy.hist.ctlSent

/-- Every issued id that the proxy holds and the server has dropped: a DESTROY
    for it is on its way to the proxy, or the proxy knows. -/
def NoHalfOpen (t : System) : Prop :=
  ∀ (id : IUINT32) (c : ConnId), t.proxy.sessionMap[id]? = some c →
    id ∈ t.server.hist.issued → t.server.sessionMap[id]? = none →
      destroyMsg id ∈ t.ctlToProxy ∨ t.Covered id c

/-- The step makes no half-open session: the idle timer drops no id the proxy
    holds, and a waiting connection is not given an id already dropped. -/
def Mirrored (t : System) : Event → Prop
  | .server (.deadSessionTimer now) =>
      ∀ (id : IUINT32) (c : ConnId) (ref : Server.SessRef), t.proxy.sessionMap[id]? = some c →
        t.server.sessionMap[id]? = some ref → t.server.idleRef now ref → t.Covered id c
  | .deliverToProxy =>
      ∀ (id : IUINT32) (c : ConnId) (rest : List ConnId),
        t.server.hist.issued[t.toProxy]? = some id → t.proxy.uninitedSessList = c :: rest →
          t.server.sessionMap[id]? = none → t.Covered id c
  | _ => True

namespace LinkInv

variable {t : System}

/-- The server never sends a DESTROY. -/
theorem destroy_not_in_flight (h : LinkInv t) (id : IUINT32) : destroyMsg id ∉ t.ctlToProxy := by
  intro hin
  have hmem := List.mem_of_mem_drop hin
  rw [h.responses] at hmem
  obtain ⟨i, -, hi⟩ := List.mem_map.mp hmem
  have hcmd := congrArg readCmd hi
  rw [readCmd_rspMsg, readCmd_destroyMsg] at hcmd
  cases hcmd

/-- An id the proxy holds was issued. -/
theorem held_issued (h : LinkInv t) {id : IUINT32} {c : ConnId}
    (hc : t.proxy.sessionMap[id]? = some c) : id ∈ t.server.hist.issued := by
  obtain ⟨sess, -, hlock, hid, hne, -⟩ := h.refs.of_held hc
  have hseen := h.answered c sess hlock hne
  rw [h.seen, hid] at hseen
  exact List.mem_of_mem_take hseen

end LinkInv

/-! ## One step -/

theorem noHalfOpen_deadSessionTimer {t : System} (hlink : LinkInv t) (hp : NoHalfOpen t)
    (now : Int) :
    NoHalfOpen { t with server := t.server.onCheckDeadSessionTimer now } ↔
      Mirrored t (.server (.deadSessionTimer now)) := by
  constructor
  · intro hp' id c ref hc href hidle
    -- an idle id is dropped, and no DESTROY is ever on its way to the proxy
    have hgone : (t.server.onCheckDeadSessionTimer now).sessionMap[id]? = none := by
      rw [Option.eq_none_iff_forall_not_mem]
      intro r hr
      obtain ⟨hr', hnot⟩ := (KcpServer.sessionMap_deadSessionTimer t.server now id r).mp hr
      obtain rfl := Option.some.inj (href.symm.trans hr')
      rw [hidle] at hnot
      cases hnot
    rcases hp' id c hc (hlink.held_issued hc) hgone with hfly | hcov
    · exact absurd hfly (hlink.destroy_not_in_flight id)
    · exact hcov
  · intro hmirror id c hc hissued hgone
    -- dropped before, or by this run of the timer
    cases href : t.server.sessionMap[id]? with
    | none => exact hp id c hc hissued href
    | some ref =>
        right
        refine hmirror id c ref hc href ?_
        by_contra hidle
        rw [Bool.not_eq_true] at hidle
        have hin := (KcpServer.sessionMap_deadSessionTimer t.server now id ref).mpr ⟨href, hidle⟩
        change (t.server.onCheckDeadSessionTimer now).sessionMap[id]? = none at hgone
        rw [hgone] at hin
        cases hin

theorem noHalfOpen_response {t : System} (hlink : LinkInv t) (hp : NoHalfOpen t) {id : IUINT32}
    {p' : KcpProxy} (hnext : t.server.hist.issued[t.toProxy]? = some id)
    (heff : t.proxy.Effect (.control (rspMsg id)) p') :
    NoHalfOpen { t with proxy := p', toProxy := t.toProxy + 1 } ↔ Mirrored t .deliverToProxy := by
  have hnone : ∀ i, destroyMsg i ∉ t.server.hist.ctlSent.drop (t.toProxy + 1) := by
    intro i hin
    rw [← List.drop_drop] at hin
    exact hlink.destroy_not_in_flight i (List.mem_of_mem_drop hin)
  have hold : ∀ (i : IUINT32) (c : ConnId), t.proxy.sessionMap[i]? = some c →
      t.server.sessionMap[i]? = none → t.Covered i c := by
    intro i c hc hgone
    exact (hp i c hc (hlink.held_issued hc) hgone).resolve_left (hlink.destroy_not_in_flight i)
  rcases heff.response with ⟨hempty, rfl⟩ | ⟨ref, rest, sess, sess', accepted, hlist, -, -, rfl⟩
  -- nobody waits: the map stays as it is
  · refine iff_of_true ?_ ?_
    · intro i c hc _ hgone
      refine Or.inr ((hold i c hc hgone).imp_right ?_)
      exact fun hin => List.mem_append_left _ hin
    · intro i c rest _ hlist
      rw [hempty] at hlist
      cases hlist
  · have hask : ∀ c, ((t.proxy.noteRsp id).giveId id ref rest sess' accepted).askedToClose c ↔
        t.proxy.askedToClose c := fun c => KcpProxy.askedToClose_setSess _ ref c sess'
    constructor
    · intro hp' i c rest' hi hlist' hgone
      obtain rfl := Option.some.inj (hnext.symm.trans hi)
      obtain ⟨rfl, -⟩ := List.cons.inj (hlist.symm.trans hlist')
      -- the connection now holds an id; if the server has dropped it, it has to be covered
      have hc : ((t.proxy.noteRsp id).giveId id ref rest sess' accepted).sessionMap[id]? =
          some ref := (KcpProxy.sessionMap_giveId _ _ _ _ _ _ _).trans (if_pos rfl)
      rcases hp' id ref hc (List.mem_of_getElem? hnext) hgone with hfly | hcov
      · exact absurd hfly (hnone id)
      · exact hcov.imp_left (hask ref).mp
    · intro hmirror i c hc _ hgone
      right
      have hmap := (KcpProxy.sessionMap_giveId (t.proxy.noteRsp id) id ref rest sess' accepted
        i).symm.trans hc
      -- the new entry, or one that was there before
      split_ifs at hmap with hid
      · obtain rfl := Option.some.inj hmap
        subst hid
        exact (hmirror id ref rest hnext hlist hgone).imp_left (hask ref).mpr
      · exact (hold i c hmap hgone).imp_left (hask c).mpr

theorem noHalfOpen_outcome {t t' : System} {e : Event} (hlink : LinkInv t) (hp : NoHalfOpen t)
    (hout : Outcome t e t') : NoHalfOpen t' ↔ Mirrored t e := by
  cases hout with
  | @proxy e p' hloc hok heff =>
      refine iff_of_true ?_ trivial
      obtain ⟨new, hnew, -⟩ := heff.ctlSent
      intro id c hc hissued hgone
      obtain ⟨hc₀, hask⟩ := heff.local_held hlink.refs (by rintro msg rfl; cases hloc) hc
      refine (hp id c hc₀ hissued hgone).imp_right (Or.imp hask ?_)
      intro hin
      change destroyMsg id ∈ p'.hist.ctlSent
      rw [hnew]
      exact List.mem_append_left _ hin
  | @server e s' hloc heff =>
      have hctl : ∀ msg remote now, e ≠ .control msg remote now := by
        rintro msg r n rfl
        cases hloc
      -- of the server's own events only the idle timer takes ids out
      by_cases hidle : ∃ now, e = .deadSessionTimer now
      · obtain ⟨now, rfl⟩ := hidle
        cases heff
        exact noHalfOpen_deadSessionTimer hlink hp now
      · have hmap := heff.local_sessionMap hctl (fun now he => hidle ⟨now, he⟩)
        obtain ⟨hsent, hissued, -⟩ := heff.local_hist hctl
        have hmirror : Mirrored t (.server e) := by
          cases e with
          | deadSessionTimer now => exact absurd ⟨now, rfl⟩ hidle
          | _ => trivial
        refine iff_of_true ?_ hmirror
        intro id c hc hin hgone
        unfold ctlToProxy
        change _ ∈ s'.hist.ctlSent.drop t.toProxy ∨ _
        rw [hsent]
        refine hp id c hc ?_ ?_
        · rw [← hissued]
          exact hin
        · rw [← hmap]
          exact hgone
  | @abort e a herr =>
      refine iff_of_true hp ?_
      cases e with
      | deadSessionTimer now => cases herr
      | _ => trivial
  | @request remote now rest hctl =>
      refine iff_of_true ?_ trivial
      intro id c hc _ hgone
      change (t.server.handleCreate remote now).sessionMap[id]? = none at hgone
      rw [KcpServer.sessionMap_handleCreate] at hgone
      -- the id just issued is in the map; any other was gone before
      split_ifs at hgone with hid
      have hold := hp id c hc (hlink.held_issued hc) hgone
      exact Or.inr (hold.resolve_left (hlink.destroy_not_in_flight id))
  | @destroy remote now id rest hctl =>
      refine iff_of_true ?_ trivial
      obtain ⟨hmap, -, hhist, -⟩ := KcpServer.handleDestroy_frame t.server id
      intro i c hc _ hgone
      change (t.server.handleDestroy id).sessionMap[i]? = none at hgone
      rw [hmap] at hgone
      have hold := hp i c hc (hlink.held_issued hc) hgone
      exact Or.inr (hold.resolve_left (hlink.destroy_not_in_flight i))
  | response hnext hok heff => exact noHalfOpen_response hlink hp hnext heff

/-! ## Along a run -/

/-- **No half-open sessions, and exactly when.**  Along any run of the composed
    system, the proxy learns of every id the server has dropped exactly if the
    idle timer never drops an id the proxy holds and no response for a dropped
    id reaches a waiting connection. -/
theorem noHalfOpen_iff (id₀ : IUINT32) (es : List Event) :
    EventSystem.Always step NoHalfOpen (create id₀) es ↔
      EventSystem.EachStep step Mirrored (create id₀) es := by
  refine EventSystem.always_iff_eachStep (I := LinkInv) ?_ ?_ (.create id₀) ?_ es
  · exact fun t e t' hlink hstep => hlink.step hstep
  · intro t e t' hlink hp hstep
    exact noHalfOpen_outcome hlink hp (hlink.outcome hstep)
  · intro id c hc
    simp [create, KcpProxy.create] at hc

/-- One session, connected on both sides and silent for an hour: the idle timer
    drops it at the server, and nothing tells the proxy. -/
theorem noHalfOpen_idle :
    ∃ t, EventSystem.run step (create 7)
        [.proxy .connUp, .deliverToServer ⟨0x7f000001, 40000⟩ 0, .deliverToProxy,
          .server (.connected 1), .server (.checkConnection 1),
          .server (.deadSessionTimer 3600000001)] = some t ∧
      t.proxy.sessionMap[(7 : IUINT32)]? = some 1 ∧ t.server.sessionMap[(7 : IUINT32)]? = none ∧
      t.proxy.hist.ctlSent = [createMsg] ∧ ¬ NoHalfOpen t := by
  have hrun : (EventSystem.run step (create 7)
      [.proxy .connUp, .deliverToServer ⟨0x7f000001, 40000⟩ 0, .deliverToProxy,
        .server (.connected 1), .server (.checkConnection 1),
        .server (.deadSessionTimer 3600000001)]).map
        (fun t => (t.proxy.sessionMap[(7 : IUINT32)]?, t.server.sessionMap[(7 : IUINT32)]?,
          t.proxy.hist.ctlSent, t.proxy.conns[(1 : ConnId)]?.map (·.state)))
      = some (some 1, none, [createMsg], some .kConnected) := by
    decide +kernel
  obtain ⟨t, ht, heq⟩ := Option.map_eq_some_iff.mp hrun
  simp only [Prod.mk.injEq] at heq
  obtain ⟨hheld, hgone, hsent, hstate⟩ := heq
  have hlink : LinkInv t := EventSystem.run_invariant (fun _ _ _ hI hstep => hI.step hstep)
    (.create 7) ht
  refine ⟨t, ht, hheld, hgone, hsent, ?_⟩
  intro hno
  rcases hno 7 1 hheld (hlink.held_issued hheld) hgone with hfly | hask | hdead
  · exact hlink.destroy_not_in_flight 7 hfly
  · rw [KcpProxy.askedToClose, hstate] at hask
    cases hask
  · rw [hsent, List.mem_singleton] at hdead
    exact createMsg_ne_destroyMsg 7 hdead.symm

end System
end Tunnel
end UdpSpeed
