/-
  UdpSpeed.Tunnel.ProxyTimer

  What `onUpdateTunnelTimer` drives.  It updates the sessions in the map, and an
  updated object sends what it has accepted as far as its window goes.  Nothing
  updates the object of the control session, so what `sendMsg` accepted stays in
  its queue.
-/

import UdpSpeed.Kcp.Transmit
import UdpSpeed.Tunnel.Datagrams
import UdpSpeed.Tunnel.Handover

namespace UdpSpeed

open Kcp Control Muduo Std

/-! ## The control session -/

namespace Control.ControlSession

/-- Receiving leaves the send side alone. -/
theorem parseMsg_sndFrame {s s' : ControlSession} {packet : List Byte} {ret : Int}
    {aryMsg : List (List Byte)} (hparse : s.parseMsg packet = .ok (ret, aryMsg, s')) :
    SndFrame s.kcp s'.kcp := by
  have hinput := sndFrame_ikcpInput s.kcp packet
  rw [parseMsg_eq] at hparse
  dsimp only at hparse
  split_ifs at hparse with hneg hzero hnone
  · obtain ⟨-, -, rfl⟩ := hparse
    exact hinput
  · obtain ⟨-, -, rfl⟩ := hparse
    exact hinput
  · obtain ⟨-, -, rfl⟩ := hparse
    exact hinput.trans (sndFrame_ikcpRecv (by omega))

end Control.ControlSession

/-! ## The record of a run -/

namespace Proxy

/-- The proxy, with the clock of its last tick and the messages `ikcp_send`
    accepted on each session object. -/
structure Timed where
  proxy : KcpProxy
  last : Option IUINT32
  accepted : ConnId → List (List Byte)

namespace Timed

/-- The payload, if the session at `c` has a KCP object that accepts it. -/
def sendAccepted (p : KcpProxy) (data : List Byte) (c : ConnId) : List (List Byte) :=
  match p.lockSess c with
  | none => []
  | some sess => (sess.sendToTunnel data).2

/-- The queued payloads `init(id)` hands to the new KCP object of `c`. -/
def initAccepted (p : KcpProxy) (id : IUINT32) (c : ConnId) : List (List Byte) :=
  match p.lockSess c with
  | none => []
  | some sess =>
      match sess.init id with
      | .error _ => []
      | .ok r => r.2

/-- The messages accepted so far, after an event. -/
def note (t : Timed) : Event → ConnId → List (List Byte)
  | .message c data => fun ref =>
      if ref = c then t.accepted ref ++ sendAccepted t.proxy data ref else t.accepted ref
  | .control msg => fun ref =>
      if readCmd msg = rspCreateSession ∧ t.proxy.uninitedSessList.head? = some ref then
        initAccepted t.proxy (readId msg) ref
      else t.accepted ref
  | _ => t.accepted

/-- The clock of the last tick, after an event. -/
def tick (t : Timed) : Event → Option IUINT32
  | .timer clock => some clock
  | _ => t.last

/-- `CLOCK_MONOTONIC` does not go back, and no response names the id `0`. -/
def admissible (t : Timed) : Event → Bool
  | .timer clock => notBefore t.last clock
  | e => t.proxy.rspNonzero e

/-- The proxy's step, with the records. -/
def step (t : Timed) (e : Event) : Option Timed :=
  (t.proxy.step e).map (fun p => { proxy := p, last := t.tick e, accepted := t.note e })

/-- A proxy that has just started. -/
def create : Timed where
  proxy := .create
  last := none
  accepted := fun _ => []

/-- A tick one interval after the last one leaves everything sent that the
    windows allow, on the control session and on every session in the map. -/
def DrivesAll (t : Timed) : Event → Prop
  | .timer clock => intervalPassed t.last clock →
      ∃ p', t.proxy.onUpdateTunnelTimer clock = .ok p' ∧
        Transmitted p'.controlSess.kcp t.proxy.hist.ctlSent p'.hist.datagrams ∧
        ∀ (id : IUINT32) (ref : ConnId) (sess : KcpDataSession) (kcp : IKCPCB),
          p'.sessionMap[id]? = some ref → p'.lockSess ref = some sess → sess.kcp = some kcp →
            Transmitted kcp (t.accepted ref) p'.hist.datagrams
  | _ => True

/-- At a tick no control message has been given to `sendMsg`, or the peer has
    closed the control session's window. -/
def ControlIdle (t : Timed) : Event → Prop
  | .timer clock => intervalPassed t.last clock →
      t.proxy.hist.ctlSent = [] ∨ t.proxy.controlSess.kcp.rmtWnd = 0
  | _ => True

/-- What the account says of each session object; those in the map keep the
    pace of the timer. -/
def Accounts (p : KcpProxy) (accepted : ConnId → List (List Byte)) (last : Option IUINT32) :
    Prop :=
  ∀ (ref : ConnId) (sess : KcpDataSession) (kcp : IKCPCB), p.lockSess ref = some sess →
    sess.kcp = some kcp → SendInv kcp (accepted ref) p.hist.datagrams ∧
      (p.sessionMap[sess.id]? = some ref → Paced last kcp)

/-- What holds between two events. -/
structure TimedInv (t : Timed) : Prop where
  refs : KcpProxy.RefInv t.proxy
  control : Silent t.proxy.controlSess.kcp t.proxy.hist.ctlSent
  sessions : Accounts t.proxy t.accepted t.last

theorem TimedInv.create : TimedInv Timed.create where
  refs := .create
  control := silent_freshKcp 0
  sessions := by
    intro ref sess kcp hs
    simp [Timed.create, KcpProxy.create, KcpProxy.lockSess] at hs

/-! ## The other events -/

/-- An event that touches no KCP object of a session. -/
theorem Accounts.same {p p' : KcpProxy} {accepted accepted' : ConnId → List (List Byte)}
    {last : Option IUINT32} (h : Accounts p accepted last)
    (hsess : ∀ ref sess', p'.lockSess ref = some sess' →
      sess'.kcp = none ∨ p.lockSess ref = some sess')
    (hmap : ∀ (id : IUINT32) (ref : ConnId), p'.sessionMap[id]? = some ref →
      p.sessionMap[id]? = some ref)
    (hsent : ∃ more, p'.hist.datagrams = p.hist.datagrams ++ more)
    (hacc : ∀ ref, accepted' ref = accepted ref) : Accounts p' accepted' last := by
  intro ref sess' kcp hs' hkcp
  rcases hsess ref sess' hs' with hnone | hs
  · rw [hnone] at hkcp
    cases hkcp
  obtain ⟨hinv, hpaced⟩ := h ref sess' kcp hs hkcp
  obtain ⟨more, hmore⟩ := hsent
  rw [hacc, hmore]
  exact ⟨hinv.mono more, fun hin => hpaced (hmap _ _ hin)⟩

/-- An event that leaves sessions, map and network as they are. -/
theorem Accounts.unchanged {p p' : KcpProxy} {accepted accepted' : ConnId → List (List Byte)}
    {last : Option IUINT32} (h : Accounts p accepted last)
    (hlock : ∀ ref, p'.lockSess ref = p.lockSess ref) (hmap : p'.sessionMap = p.sessionMap)
    (hsent : p'.hist.datagrams = p.hist.datagrams) (hacc : ∀ ref, accepted' ref = accepted ref) :
    Accounts p' accepted' last := by
  apply h.same _ _ ⟨[], _⟩ hacc
  · intro ref sess' hs'
    exact Or.inr ((hlock ref).symm.trans hs')
  · intro id ref hin
    rw [← hmap]
    exact hin
  · rw [List.append_nil]
    exact hsent

/-- The draining loop hands its payloads to KCP. -/
theorem drain_account {kcp : IKCPCB} {accepted datagrams : List (List Byte)}
    (h : SendInv kcp accepted datagrams) (payloads : List (List Byte)) :
    SendInv (KcpDataSession.drain kcp payloads).1
        (accepted ++ (KcpDataSession.drain kcp payloads).2.2) datagrams ∧
      (KcpDataSession.drain kcp payloads).1.updated = kcp.updated := by
  induction payloads generalizing kcp accepted with
  | nil =>
      refine ⟨?_, rfl⟩
      rw [KcpDataSession.drain, List.append_nil]
      exact h
  | cons payload rest ih =>
      have hupd : (ikcpSend kcp payload).2.updated = kcp.updated := by
        obtain ⟨queue, hframe⟩ := ikcpSend_frame kcp payload
        rw [hframe]
      have hsend := h.ikcpSend payload
      simp only [KcpDataSession.drain]
      split_ifs at hsend ⊢ with hret
      · exact ⟨hsend, hupd⟩
      · obtain ⟨hrest, hupd'⟩ := ih hsend
        refine ⟨?_, hupd'.trans hupd⟩
        rw [List.append_assoc, List.singleton_append] at hrest
        exact hrest

theorem lockSess_setSess_cases {p : KcpProxy} {c ref : ConnId} {sess sess' : KcpDataSession}
    (hs' : (p.setSess c sess).lockSess ref = some sess') :
    (ref = c ∧ sess' = sess) ∨ (ref ≠ c ∧ p.lockSess ref = some sess') := by
  rw [KcpProxy.lockSess_setSess] at hs'
  split_ifs at hs' with hc
  · obtain ⟨-, -, rfl⟩ := Option.map_eq_some_iff.mp hs'
    exact Or.inl ⟨hc.symm, rfl⟩
  · exact Or.inr ⟨fun heq => hc heq.symm, hs'⟩

/-- An event that changes the session at `c`. -/
theorem Accounts.write {p p' : KcpProxy} {accepted accepted' : ConnId → List (List Byte)}
    {last : Option IUINT32} (h : Accounts p accepted last) {c : ConnId} {sess₁ : KcpDataSession}
    (hlock : ∀ ref, p'.lockSess ref = (p.setSess c sess₁).lockSess ref)
    (hmap : ∀ (id : IUINT32) (ref : ConnId), ref ≠ c → p'.sessionMap[id]? = some ref →
      p.sessionMap[id]? = some ref)
    (hsent : p'.hist.datagrams = p.hist.datagrams)
    (hrest : ∀ ref, ref ≠ c → accepted' ref = accepted ref)
    (hnew : ∀ kcp', sess₁.kcp = some kcp' → SendInv kcp' (accepted' c) p.hist.datagrams ∧
      (p'.sessionMap[sess₁.id]? = some c → Paced last kcp')) : Accounts p' accepted' last := by
  intro ref sess' kcp' hs' hkcp'
  rw [hlock] at hs'
  rw [hsent]
  rcases lockSess_setSess_cases hs' with ⟨rfl, rfl⟩ | ⟨hne, hs⟩
  · exact hnew kcp' hkcp'
  · obtain ⟨hinv, hpaced⟩ := h ref sess' kcp' hs hkcp'
    rw [hrest ref hne]
    exact ⟨hinv, fun hin => hpaced (hmap _ _ hne hin)⟩

theorem Accounts.message {p : KcpProxy} {accepted accepted' : ConnId → List (List Byte)}
    {last : Option IUINT32} (h : Accounts p accepted last) {c : ConnId} {sess : KcpDataSession}
    (hs : p.lockSess c = some sess) (data : List Byte)
    (hacc : accepted' c = accepted c ++ (sess.sendToTunnel data).2)
    (hrest : ∀ ref, ref ≠ c → accepted' ref = accepted ref) :
    Accounts (p.tunnelSend c sess data) accepted' last := by
  have hlock : ∀ ref, (p.tunnelSend c sess data).lockSess ref =
      (p.setSess c (sess.sendToTunnel data).1).lockSess ref := fun _ => rfl
  refine h.write hlock (fun _ _ _ hin => hin) rfl hrest ?_
  intro kcp' hkcp'
  rw [hacc, KcpDataSession.sendToTunnel_id]
  change _ ∧ (p.sessionMap[sess.id]? = some c → _)
  cases hkcp : sess.kcp with
  | none =>
      rw [KcpDataSession.sendToTunnel_of_none hkcp] at hkcp'
      change sess.kcp = some kcp' at hkcp'
      rw [hkcp] at hkcp'
      cases hkcp'
  | some kcp =>
      obtain ⟨hinv, hpaced⟩ := h c sess kcp hs hkcp
      simp only [KcpDataSession.sendToTunnel, hkcp, Option.some.injEq] at hkcp' ⊢
      rw [← hkcp']
      refine ⟨hinv.ikcpSend data, ?_⟩
      intro hin
      obtain ⟨queue, hframe⟩ := ikcpSend_frame kcp data
      rw [hframe]
      exact hpaced hin

theorem Accounts.received {p : KcpProxy} {accepted : ConnId → List (List Byte)}
    {last : Option IUINT32} (h : Accounts p accepted last) {c : ConnId} {sess : KcpDataSession}
    {kcp : IKCPCB} (hs : p.lockSess c = some sess) (hkcp : sess.kcp = some kcp)
    (data : List Byte) :
    Accounts (p.setSess c { sess with kcp := some (receiveOnce kcp data) }) accepted last := by
  refine h.write (fun _ => rfl) (fun _ _ _ hin => hin) rfl (fun _ _ => rfl) ?_
  intro kcp' hkcp'
  obtain rfl := Option.some.inj hkcp'
  obtain ⟨hinv, hpaced⟩ := h c sess kcp hs hkcp
  have hframe := sndFrame_receiveOnce kcp data
  exact ⟨hinv.frame hframe, fun hin => (hpaced hin).frame hframe⟩

theorem Accounts.inited {p : KcpProxy} {accepted accepted' : ConnId → List (List Byte)}
    {last : Option IUINT32} (h : Accounts p accepted last) {id : IUINT32} {c : ConnId}
    {rest : List ConnId} {sess sess' : KcpDataSession} {initial : List (List Byte)}
    (hkcp : sess.kcp = none) (hinit : sess.init id = .ok (sess', initial))
    (hacc : accepted' c = initial) (hrest : ∀ ref, ref ≠ c → accepted' ref = accepted ref) :
    Accounts ((p.noteRsp id).giveId id c rest sess' initial) accepted' last := by
  rw [KcpDataSession.init_eq hkcp] at hinit
  obtain ⟨rfl, rfl⟩ := hinit
  refine h.write (fun _ => rfl) ?_ rfl hrest ?_
  · intro i ref hne hin
    rw [KcpProxy.sessionMap_giveId] at hin
    split_ifs at hin
    · exact absurd (Option.some.inj hin).symm hne
    · exact hin
  · intro kcp' hkcp'
    obtain rfl := Option.some.inj hkcp'
    obtain ⟨hinv, hupd⟩ := drain_account (sendInv_freshKcp id p.hist.datagrams) sess.payloadList
    rw [hacc]
    refine ⟨hinv, fun _ hup => ?_⟩
    -- a new object has not been updated yet
    rw [hupd] at hup
    cases hup

theorem Accounts.datagram {p p' : KcpProxy} {accepted : ConnId → List (List Byte)}
    {last : Option IUINT32} (h : Accounts p accepted last) (hrefs : KcpProxy.RefInv p)
    {id : IUINT32} {ref : ConnId} (hmap : p.sessionMap[id]? = some ref) {buf : List Byte}
    (hok : p.onDataDatagram id buf = .ok p') : Accounts p' accepted last := by
  obtain ⟨sess, -, hlock, -, hne, -, hphase⟩ := hrefs.of_held hmap
  obtain ⟨kcp, hkcp, -⟩ := hphase.kcp_of_ne_zero hne
  obtain ⟨ret, msg, hrecv⟩ := KcpDataSession.recvFromTunnel_kcp hkcp buf
  have hnew := h.received hlock hkcp buf
  simp only [KcpProxy.onDataDatagram, hmap, hlock, hrecv] at hok
  -- with or without a message for the connection
  cases msg with
  | none =>
      obtain rfl := Except.ok.inj hok
      exact hnew
  | some msg =>
      simp only [KcpProxy.sendToConn] at hok
      split at hok
      · cases hok
      · obtain rfl := Except.ok.inj hok
        exact hnew

/-- Any event but a tick. -/
theorem TimedInv.accounts_local {t : Timed} (h : TimedInv t) {e : Event} {p' : KcpProxy}
    (hen : t.proxy.enabled e) (hok : t.proxy.handle e = .ok p')
    (hnot : ∀ clock, e ≠ .timer clock) : Accounts p' (t.note e) t.last := by
  have hsess := h.sessions
  have hdata : ∀ bytes, e = .datagram bytes → KcpProxy.datagramConv bytes ≠ 0 →
      t.proxy.sessionMap[KcpProxy.datagramConv bytes]? ≠ none →
      Accounts p' t.accepted t.last := by
    rintro bytes rfl hconv hmap
    obtain ⟨ref, href⟩ := Option.ne_none_iff_exists'.mp hmap
    change (if KcpProxy.datagramConv bytes = 0 then _
      else t.proxy.onDataDatagram (KcpProxy.datagramConv bytes) (bytes.take 4096)) = .ok p' at hok
    rw [if_neg hconv] at hok
    exact hsess.datagram h.refs href hok
  have heff := h.refs.handle_effect hen hok
  cases heff with
  | connUp =>
      refine hsess.same ?_ (fun _ _ hin => hin) ⟨[], (List.append_nil _).symm⟩ (fun _ => rfl)
      intro ref sess' hs'
      rw [KcpProxy.lockSess_connUp] at hs'
      split_ifs at hs'
      · obtain rfl := Option.some.inj hs'
        exact Or.inl rfl
      · exact Or.inr hs'
  | @connDown c sess hs =>
      refine hsess.same ?_ ?_ ⟨[], ?_⟩ (fun _ => rfl)
      · intro ref sess' hs'
        rw [KcpProxy.lockSess_onDisconnected] at hs'
        exact Or.inr hs'
      · intro id ref hin
        rw [KcpProxy.sessionMap_onDisconnected] at hin
        split_ifs at hin
        exact hin
      · rw [KcpProxy.hist_onDisconnected, List.append_nil]
        rfl
  | @connDestroyed c hdead =>
      refine hsess.same ?_ (fun _ _ hin => hin) ⟨_, rfl⟩ (fun _ => rfl)
      intro ref sess' hs'
      rw [KcpProxy.lockSess_onConnDestroyed] at hs'
      exact Or.inr (Option.ite_none_left_eq_some.mp hs').2
  | @message c sess data hs hne =>
      have hlock := (KcpProxy.liveSess_eq_some_iff.mp hs).2
      refine hsess.message hlock data ?_ ?_
      · simp only [note, if_true, sendAccepted, hlock]
      · intro ref href
        simp only [note, if_neg href]
  | controlDatagram hconv hparse => exact hsess.unchanged (fun _ => rfl) rfl rfl (fun _ => rfl)
  | unknownConv hconv hmap => exact hsess.unchanged (fun _ => rfl) rfl rfl (fun _ => rfl)
  | quiet hconv hmap ht => exact hdata _ rfl hconv hmap
  | deliver hconv hmap ht hs hid =>
      refine hdata _ rfl hconv ?_
      rw [hmap]
      exact Option.some_ne_none _
  | timer ht => exact absurd rfl (hnot _)
  | rspUnused hcmd hempty =>
      apply hsess.unchanged (fun _ => rfl) rfl rfl
      intro ref
      simp [note, hempty]
  | @rspGiven msg ref rest sess sess' initial hcmd hlist hs hinit =>
      have hlock := (KcpProxy.liveSess_eq_some_iff.mp hs).2
      obtain ⟨sess₀, hs₀, -, hid, -, hphase⟩ := h.refs.of_waiting (c := ref)
        (by rw [hlist]; exact List.mem_cons_self ..)
      obtain rfl := Option.some.inj (hs.symm.trans hs₀)
      refine hsess.inited (hphase.kcp_of_eq_zero hid) hinit ?_ ?_
      · simp [note, hcmd, hlist, initAccepted, hlock, hinit]
      · intro ref' href
        simp [note, hlist, Ne.symm href]
  | destroyHeld hcmd hmap =>
      apply hsess.unchanged (fun ref => KcpProxy.lockSess_setConnState _ _ ref _) rfl rfl
      intro ref
      simp only [note, hcmd]
      rw [if_neg]
      rintro ⟨heq, -⟩
      cases heq
  | ignored hcmd =>
      apply hsess.unchanged (fun _ => rfl) rfl rfl
      intro ref
      simp only [note]
      rw [if_neg (fun hc => hcmd hc.1)]

/-! ## A tick -/

/-- In the middle of a tick: each session in the map is still to be updated, or
    has been and keeps the pace of the new clock. -/
def Ticking (p : KcpProxy) (accepted : ConnId → List (List Byte)) (last : Option IUINT32)
    (clock : IUINT32) (rest : List ConnId) : Prop :=
  ∀ (ref : ConnId) (sess : KcpDataSession) (kcp : IKCPCB), p.lockSess ref = some sess →
    sess.kcp = some kcp → SendInv kcp (accepted ref) p.hist.datagrams ∧
      (p.sessionMap[sess.id]? = some ref →
        (ref ∈ rest ∧ Paced last kcp) ∨
          (Paced (some clock) kcp ∧ (intervalPassed last clock → kcp.QueueSent)))

/-- One turn of the loop. -/
theorem Ticking.updateSession {p p' : KcpProxy} {accepted : ConnId → List (List Byte)}
    {last : Option IUINT32} {clock : IUINT32} {c : ConnId} {rest : List ConnId}
    (h : Ticking p accepted last clock (c :: rest)) (hclock : notBefore last clock)
    (hok : p.updateSession c clock = .ok p') : Ticking p' accepted last clock rest := by
  unfold KcpProxy.updateSession KcpDataSession.update at hok
  cases hs : p.lockSess c with
  | none =>
      simp only [hs] at hok
      cases hok
  | some sess =>
      cases hkcp : sess.kcp with
      | none =>
          simp only [hs, hkcp] at hok
          cases hok
      | some kcp =>
          simp only [hs, hkcp] at hok
          obtain rfl := Except.ok.inj hok
          intro ref sess' kcp' hs' hkcp'
          change SendInv kcp' (accepted ref)
            (p.hist.datagrams ++ (ikcpUpdate kcp clock).2) ∧
              (p.sessionMap[sess'.id]? = some ref → _)
          rcases lockSess_setSess_cases hs' with ⟨rfl, rfl⟩ | ⟨hne, hs₀⟩
          · obtain rfl := Option.some.inj hkcp'
            obtain ⟨hinv, hpace⟩ := h ref sess kcp hs hkcp
            refine ⟨hinv.ikcpUpdate clock, fun hin => Or.inr ?_⟩
            -- its turn now, or its second turn
            rcases hpace hin with ⟨-, hold⟩ | ⟨hnew, hsent⟩
            · obtain ⟨hpaced, hdone⟩ := hold.ikcpUpdate hinv.cfg hclock
              exact ⟨hpaced, fun hpassed => hdone (Or.inl hpassed)⟩
            · obtain ⟨hpaced, hdone⟩ := hnew.ikcpUpdate hinv.cfg (notBefore_self clock)
              exact ⟨hpaced, fun hpassed => hdone (Or.inr (hsent hpassed))⟩
          · obtain ⟨hinv, hpace⟩ := h ref sess' kcp' hs₀ hkcp'
            refine ⟨hinv.mono _, fun hin => ?_⟩
            rcases hpace hin with ⟨hmem, hold⟩ | hnew
            · exact Or.inl ⟨(List.mem_cons.mp hmem).resolve_left hne, hold⟩
            · exact Or.inr hnew

/-- The whole loop, by induction on the references left. -/
theorem Ticking.updateSessions {p p' : KcpProxy} {accepted : ConnId → List (List Byte)}
    {last : Option IUINT32} {clock : IUINT32} {refs : List ConnId}
    (h : Ticking p accepted last clock refs) (hclock : notBefore last clock)
    (hok : p.updateSessions clock refs = .ok p') : Ticking p' accepted last clock [] := by
  induction refs generalizing p with
  | nil =>
      obtain rfl := Except.ok.inj hok
      exact h
  | cons c rest ih =>
      unfold KcpProxy.updateSessions at hok
      cases hturn : p.updateSession c clock with
      | error e =>
          simp only [hturn] at hok
          cases hok
      | ok p₁ =>
          simp only [hturn] at hok
          exact ih (h.updateSession hclock hturn) hok

/-- **After a tick** every session in the map keeps the pace of the new clock,
    and if an interval has passed only its window holds a segment back. -/
theorem TimedInv.ticked {t : Timed} (h : TimedInv t) {clock : IUINT32} {p' : KcpProxy}
    (hclock : notBefore t.last clock) (hok : t.proxy.onUpdateTunnelTimer clock = .ok p') :
    Ticking p' t.accepted t.last clock [] := by
  refine Ticking.updateSessions ?_ hclock hok
  intro ref sess kcp hs hkcp
  obtain ⟨hinv, hpaced⟩ := h.sessions ref sess kcp hs hkcp
  refine ⟨hinv, fun hin => Or.inl ⟨?_, hpaced hin⟩⟩
  exact List.mem_map.mpr ⟨(sess.id, ref), TreeMap.mem_toList_iff_getElem?_eq_some.mpr hin, rfl⟩

theorem TimedInv.step {t t' : Timed} {e : Event} (h : TimedInv t)
    (hstep : EventSystem.restrict Timed.step admissible t e = some t') : TimedInv t' := by
  obtain ⟨hadm, hstep⟩ := EventSystem.restrict_eq_some.mp hstep
  obtain ⟨p', hp', rfl⟩ := Option.map_eq_some_iff.mp hstep
  obtain ⟨hen, hok⟩ := KcpProxy.step_eq_some.mp hp'
  have heff := h.refs.handle_effect hen hok
  refine ⟨?_, ?_, ?_⟩
  · refine h.refs.effect ?_ heff
    rintro msg rfl hcmd hid
    simp [admissible, KcpProxy.rspNonzero, hcmd, hid] at hadm
  · have hsilent := h.control
    rcases heff.control_cases with ⟨hctl, hsent⟩ | ⟨msg, hmsg, hctl, hsent⟩ | ⟨_, _, hparse, hsent⟩
    · rw [hctl, hsent]
      exact hsilent
    · rw [hctl, hsent]
      refine hsilent.ikcpSend ?_
      rcases hmsg with rfl | ⟨id, rfl⟩ <;> simp [createMsg, destroyMsg, htonlBytes]
    · rw [hsent]
      exact hsilent.frame (ControlSession.parseMsg_sndFrame hparse)
  · by_cases htimer : ∃ clock, e = .timer clock
    · obtain ⟨clock, rfl⟩ := htimer
      intro ref sess kcp hs hkcp
      obtain ⟨hinv, hpace⟩ := h.ticked hadm hok ref sess kcp hs hkcp
      refine ⟨hinv, fun hin => ?_⟩
      rcases hpace hin with ⟨hmem, -⟩ | ⟨hpaced, -⟩
      · cases hmem
      · exact hpaced
    · have hlast : t.tick e = t.last := by
        cases e with
        | timer clock => exact absurd ⟨clock, rfl⟩ htimer
        | _ => rfl
      rw [hlast]
      exact h.accounts_local hen hok (fun clock heq => htimer ⟨clock, heq⟩)

theorem TimedInv.drivesAll_iff {t t' : Timed} {e : Event} (h : TimedInv t)
    (hstep : EventSystem.restrict Timed.step admissible t e = some t') :
    DrivesAll t e ↔ ControlIdle t e := by
  obtain ⟨hadm, hstep⟩ := EventSystem.restrict_eq_some.mp hstep
  obtain ⟨p', hp', rfl⟩ := Option.map_eq_some_iff.mp hstep
  obtain ⟨hen, hok⟩ := KcpProxy.step_eq_some.mp hp'
  cases e with
  | timer clock =>
      obtain ⟨p₁, hp₁, htouch⟩ := h.refs.timer_spec clock
      obtain rfl := Except.ok.inj (hok.symm.trans hp₁)
      refine forall_congr' fun hpassed => ?_
      rw [← h.control.transmitted_iff p'.hist.datagrams]
      constructor
      · rintro ⟨p₂, hp₂, hctl, -⟩
        obtain rfl := Except.ok.inj (hok.symm.trans hp₂)
        rwa [htouch.controlSess] at hctl
      · intro hctl
        refine ⟨p', hok, ?_, ?_⟩
        · rw [htouch.controlSess]
          exact hctl
        · intro id ref sess kcp hin hs hkcp
          obtain ⟨hinv, hpace⟩ := h.ticked hadm hok ref sess kcp hs hkcp
          -- the map has the session under its own id
          have hid : p'.sessionMap[sess.id]? = some ref := by
            obtain ⟨sess₀, -, hlock, hid, -⟩ := (h.refs.touch htouch).of_held hin
            obtain rfl := Option.some.inj (hs.symm.trans hlock)
            rwa [hid]
          rcases hpace hid with ⟨hmem, -⟩ | ⟨-, hsent⟩
          · cases hmem
          · exact hinv.transmitted (hsent hpassed)
  | _ => exact Iff.rfl

end Timed
end Proxy
end UdpSpeed
