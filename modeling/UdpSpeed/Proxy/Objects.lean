/-
  UdpSpeed.Proxy.Objects

  The KCP objects of the proxy.  Every handler that touches one does so through
  the calls of the KCP interface, on the object of a single id; the objects of
  all other ids stay as they are.
-/

import UdpSpeed.Kcp.Calls
import UdpSpeed.Proxy.Streams

namespace UdpSpeed

open Kcp Control Muduo Std

namespace Proxy

/-! ## The calls of a session -/

namespace KcpDataSession

/-- The draining loop of `init` is a row of `ikcp_send`. -/
theorem drain_calls (e : Endpoint) (payloads : List (List Byte)) :
    ∃ cs : List Call, (∀ datagram, .input datagram ∉ cs) ∧
      e.calls cs = { e with
        kcp := (drain e.kcp payloads).1
        accepted := e.accepted ++ (drain e.kcp payloads).2.2 } := by
  induction payloads generalizing e with
  | nil =>
      refine ⟨[], fun _ hin => absurd hin List.not_mem_nil, ?_⟩
      rw [drain, List.append_nil]
      rfl
  | cons payload rest ih =>
      obtain ⟨cs, hin, hcalls⟩ := ih (e.send payload)
      rw [drain]
      dsimp only
      by_cases hret : (ikcpSend e.kcp payload).1 ≠ 0
      · -- refused: the loop ends
        refine ⟨[.send payload], fun _ h => by simp at h, ?_⟩
        rw [if_pos hret]
        change e.send payload = _
        rw [Endpoint.send, if_pos hret]
      · refine ⟨.send payload :: cs, fun datagram h => ?_, ?_⟩
        · rcases List.mem_cons.mp h with hself | htail
          · cases hself
          · exact hin datagram htail
        · rw [if_neg hret]
          change (e.send payload).calls cs = _
          rw [hcalls, Endpoint.send, if_neg hret, List.append_assoc]
          rfl

/-- What `recvFromTunnel` returns is what was read from KCP. -/
theorem recvFromTunnel_eq {s : KcpDataSession} {kcp : IKCPCB} (hkcp : s.kcp = some kcp)
    (input : List Byte) :
    ∃ ret, s.recvFromTunnel input =
      .ok (ret, { s with kcp := some (receiveOnce kcp input) }, (readOnce kcp input).head?) := by
  unfold recvFromTunnel receiveOnce readOnce
  simp only [hkcp]
  by_cases hbad : (ikcpInput kcp input).1 < 0
  · rw [if_pos hbad, if_pos hbad, if_pos hbad]
    exact ⟨_, rfl⟩
  rw [if_neg hbad, if_neg hbad, if_neg hbad]
  by_cases hnone : ikcpPeeksize (ikcpInput kcp input).2 ≤ 0
  · rw [if_pos hnone, if_pos hnone, if_pos hnone]
    exact ⟨_, rfl⟩
  rw [if_neg hnone, if_neg hnone, if_neg hnone]
  have hsome : 0 ≤ ikcpPeeksize (ikcpInput kcp input).2 := by omega
  rw [(ikcpRecv_peeksize hsome).1, if_neg (by omega)]
  exact ⟨_, rfl⟩

end KcpDataSession

namespace KcpProxy

/-! ## The view -/

/-- The objects of the sessions, those of closed connections included until the
    connection object is destroyed. -/
def view (p : KcpProxy) : KcpView where
  holds id kcp := ∃ c sess, p.lockSess c = some sess ∧ sess.id = id ∧ sess.kcp = some kcp
  used id := ∃ c, (id, c) ∈ p.hist.assigned
  accepted := p.hist.accepted
  received := p.hist.received
  datagrams := p.hist.datagrams

theorem hosts_create : Hosts KcpProxy.create.view Endpoint.create where
  held := by
    rintro id kcp - ⟨c, sess, hs, -⟩
    simp [KcpProxy.create, lockSess] at hs
  unused := fun _ _ _ => rfl
  accepted := fun _ _ => rfl
  received := fun _ _ => rfl
  output := fun _ hin => absurd hin List.not_mem_nil
  sound := fun id _ => Endpoint.sound_create id

variable {p p' : KcpProxy} {E : IUINT32 → Endpoint}

/-- One session object for each id. -/
theorem StreamInv.unique (h : StreamInv p) {c c' : ConnId} {sess sess' : KcpDataSession}
    (hs : p.lockSess c = some sess) (hs' : p.lockSess c' = some sess') (hne : sess.id ≠ 0)
    (hid : sess'.id = sess.id) : c' = c := by
  have hin := (h.initialised c sess hs hne).1
  have hin' := (h.initialised c' sess' hs' (hid ▸ hne)).1
  exact (h.oneToOne _ _ _ _ hin' hin).mp hid

/-- The session objects are the same, or have no KCP object. -/
theorem noCall_of (hlock : ∀ c sess', p'.lockSess c = some sess' →
      sess'.kcp = none ∨ ∃ x, p.lockSess x = some sess')
    (hassigned : p'.hist.assigned = p.hist.assigned)
    (hacc : p'.hist.accepted = p.hist.accepted) (hrec : p'.hist.received = p.hist.received)
    (hsent : p'.hist.datagrams = p.hist.datagrams) : NoCall p.view p'.view where
  held := by
    rintro id kcp - ⟨c, sess', hs', hid, hkcp⟩
    rcases hlock c sess' hs' with hnone | ⟨x, hs⟩
    · rw [hnone] at hkcp
      cases hkcp
    · exact ⟨x, sess', hs, hid, hkcp⟩
  keeps := by
    rintro i ⟨c, hin⟩
    refine ⟨c, ?_⟩
    rw [hassigned]
    exact hin
  accepted := hacc
  received := hrec
  datagrams := hsent

/-- Only sessions of `id` are new, and their object is that of `e'`. -/
theorem change_of {id : IUINT32} {e e' : Endpoint} (hused : ∃ c, (id, c) ∈ p'.hist.assigned)
    (hassigned : ∀ entry ∈ p.hist.assigned, entry ∈ p'.hist.assigned)
    (hlock : ∀ c x, p'.lockSess c = some x →
      (x.id = id ∧ x.kcp = some e'.kcp) ∨ (x.id ≠ id ∧ p.lockSess c = some x))
    (hacc : p'.hist.accepted = Function.update p.hist.accepted id e'.accepted)
    (hrec : p'.hist.received = Function.update p.hist.received id e'.received)
    (hsent : ∃ out, e'.output = e.output ++ out ∧
      p'.hist.datagrams = p.hist.datagrams ++ out) : Change p.view p'.view id e e' where
  used := hused
  keeps := fun i ⟨c, hin⟩ => ⟨c, hassigned (i, c) hin⟩
  held := by
    rintro kcp ⟨c, x, hx, hxid, hxkcp⟩
    rcases hlock c x hx with ⟨-, hnew⟩ | ⟨hother, -⟩
    · exact Option.some.inj (hxkcp.symm.trans hnew)
    · exact absurd hxid hother
  accepted := by
    change p'.hist.accepted id = _
    rw [hacc, Function.update_self]
  received := by
    change p'.hist.received id = _
    rw [hrec, Function.update_self]
  others := by
    intro i hi
    refine ⟨?_, ?_, ?_⟩
    · rintro kcp ⟨c, x, hx, hxid, hxkcp⟩
      rcases hlock c x hx with ⟨hnew, -⟩ | ⟨-, hold⟩
      · exact absurd (hxid.symm.trans hnew) hi
      · exact ⟨c, x, hold, hxid, hxkcp⟩
    · change p'.hist.accepted i = _
      rw [hacc, Function.update_of_ne hi]
      rfl
    · change p'.hist.received i = _
      rw [hrec, Function.update_of_ne hi]
      rfl
  sent := hsent

/-- The sessions of other connections have other ids. -/
theorem StreamInv.id_ne (h : StreamInv p) {ref c : ConnId} {sess x : KcpDataSession}
    (hs : p.lockSess ref = some sess) (hne : sess.id ≠ 0) (hx : p.lockSess c = some x)
    (hc : c ≠ ref) : x.id ≠ sess.id := fun hid => hc (h.unique hs hx hne hid)

/-- The session at `ref` is written back with its object changed to that of
    `e'`. -/
theorem change_setSess (hstream : StreamInv p) {ref : ConnId} {sess sess' : KcpDataSession}
    (hlock : p.lockSess ref = some sess) (hne : sess.id ≠ 0) (hid : sess'.id = sess.id)
    {e e' : Endpoint} (hkcp : sess'.kcp = some e'.kcp)
    (hview : ∀ c, p'.lockSess c = (p.setSess ref sess').lockSess c)
    (hassigned : p'.hist.assigned = p.hist.assigned)
    (hacc : p'.hist.accepted = Function.update p.hist.accepted sess.id e'.accepted)
    (hrec : p'.hist.received = Function.update p.hist.received sess.id e'.received)
    (hsent : ∃ out, e'.output = e.output ++ out ∧
      p'.hist.datagrams = p.hist.datagrams ++ out) : Change p.view p'.view sess.id e e' := by
  refine change_of ?_ ?_ ?_ hacc hrec hsent
  · rw [hassigned]
    exact ⟨ref, (hstream.initialised ref sess hlock hne).1⟩
  · rw [hassigned]
    exact fun _ hin => hin
  · intro c x hx
    rw [hview, lockSess_setSess] at hx
    split_ifs at hx with hc
    · obtain ⟨-, -, rfl⟩ := Option.map_eq_some_iff.mp hx
      exact Or.inl ⟨hid, hkcp⟩
    · exact Or.inr ⟨hstream.id_ne hlock hne hx (Ne.symm hc), hx⟩

/-! ## The events -/

/-- What an event may put into the objects: the datagram that came, at its id. -/
def taken (ev : Event) (id : IUINT32) (datagram : List Byte) : Prop :=
  ∃ bytes, ev = .datagram bytes ∧ datagram = bytes.take 4096 ∧ datagramConv bytes = id

variable {net : IUINT32 → List Byte → Prop}

theorem RefInv.phase (hrefs : RefInv p) {ref : ConnId} {sess : KcpDataSession}
    (hlock : p.lockSess ref = some sess) : sess.Phase := by
  obtain ⟨conn, hobj, hctx⟩ : ∃ conn, p.conns[ref]? = some conn ∧ conn.context = some sess := by
    unfold lockSess at hlock
    cases hobj : p.conns[ref]? with
    | none =>
        rw [hobj] at hlock
        cases hlock
    | some conn =>
        rw [hobj] at hlock
        exact ⟨conn, rfl, hlock⟩
  obtain ⟨sess', hctx', -, hphase⟩ := hrefs.context ref conn hobj
  obtain rfl := Option.some.inj (hctx.symm.trans hctx')
  exact hphase

/-- A session with an id has the object of that id. -/
theorem object_of_lockSess (hrefs : RefInv p) (hh : Hosts p.view E) {ref : ConnId}
    {sess : KcpDataSession} (hlock : p.lockSess ref = some sess) (hne : sess.id ≠ 0) :
    sess.kcp = some (E sess.id).kcp := by
  obtain ⟨kcp, hkcp, -⟩ := (hrefs.phase hlock).kcp_of_ne_zero hne
  rw [hkcp, hh.held sess.id kcp hne ⟨ref, sess, hlock, rfl, hkcp⟩]

/-- The object of the session at `ref` is called. -/
theorem serves_setSess (hstream : StreamInv p) (hh : Hosts p.view E)
    {ref : ConnId} {sess : KcpDataSession} (hlock : p.lockSess ref = some sess)
    (hne : sess.id ≠ 0) (cs : List Call) (hin : ∀ datagram, .input datagram ∈ cs →
      net sess.id datagram)
    (hview : ∀ c, p'.lockSess c =
      (p.setSess ref { sess with kcp := some ((E sess.id).calls cs).kcp }).lockSess c)
    (hassigned : p'.hist.assigned = p.hist.assigned)
    (hacc : p'.hist.accepted =
      Function.update p.hist.accepted sess.id ((E sess.id).calls cs).accepted)
    (hrec : p'.hist.received =
      Function.update p.hist.received sess.id ((E sess.id).calls cs).received)
    (hsent : ∃ out, ((E sess.id).calls cs).output = (E sess.id).output ++ out ∧
      p'.hist.datagrams = p.hist.datagrams ++ out) :
    ∃ E', Serves net E E' ∧ Hosts p'.view E' := by
  have hch : Change p.view p'.view sess.id (E sess.id) ((E sess.id).calls cs) := by
    refine change_setSess hstream hlock hne ?_ ?_ hview hassigned hacc hrec hsent
    · rfl
    · rfl
  exact hh.serve hne cs hin hch

theorem serves_message (hrefs : RefInv p) (hstream : StreamInv p) (hh : Hosts p.view E)
    {c : ConnId} {sess : KcpDataSession} (hs : p.liveSess c = some sess) (data : List Byte) :
    ∃ E', Serves net E E' ∧ Hosts (p.tunnelSend c sess data).view E' := by
  have hlock := (liveSess_eq_some_iff.mp hs).2
  obtain ⟨-, hphase⟩ := hrefs.of_liveSess hs
  by_cases h0 : sess.id = 0
  · -- without an object the chunk is queued
    have hkcp := hphase.kcp_of_eq_zero h0
    have hsend := KcpDataSession.sendToTunnel_of_none hkcp data
    refine ⟨E, .refl, hh.noCall (noCall_of ?_ rfl ?_ rfl rfl)⟩
    · intro x sess' hs'
      have hview : (p.tunnelSend c sess data).lockSess x =
          (p.setSess c (sess.sendToTunnel data).1).lockSess x := rfl
      rw [hview, lockSess_setSess, hsend] at hs'
      split_ifs at hs' with hx
      · obtain ⟨-, -, rfl⟩ := Option.map_eq_some_iff.mp hs'
        exact Or.inl hkcp
      · exact Or.inr ⟨x, hs'⟩
    · change Function.update p.hist.accepted sess.id _ = _
      rw [hsend, List.append_nil, Function.update_eq_self]
  · have hkcp := object_of_lockSess hrefs hh hlock h0
    have hacc : p.hist.accepted sess.id = (E sess.id).accepted := hh.accepted sess.id h0
    have hrec : p.hist.received sess.id = (E sess.id).received := hh.received sess.id h0
    refine serves_setSess hstream hh hlock h0 [.send data]
      (fun _ h => by simp at h) ?_ rfl ?_ ?_ ⟨[], (List.append_nil _).symm, ?_⟩
    · intro x
      change (p.setSess c (sess.sendToTunnel data).1).lockSess x = _
      rw [KcpDataSession.sendToTunnel, hkcp]
      rfl
    · change Function.update p.hist.accepted sess.id _ = _
      rw [KcpDataSession.sendToTunnel, hkcp, hacc]
      rfl
    · change p.hist.received = Function.update p.hist.received sess.id (E sess.id).received
      rw [← hrec, Function.update_eq_self]
    · exact (List.append_nil _).symm

theorem serves_datagram (hrefs : RefInv p) (hstream : StreamInv p) (hh : Hosts p.view E)
    {bytes : List Byte}
    (hok : p.onDataDatagram (datagramConv bytes) (bytes.take 4096) = .ok p') :
    ∃ E', Serves (taken (.datagram bytes)) E E' ∧ Hosts p'.view E' := by
  cases hmap : p.sessionMap[datagramConv bytes]? with
  | none =>
      -- the id is reported dead, no object is called
      simp only [onDataDatagram, hmap] at hok
      obtain rfl := Except.ok.inj hok
      exact ⟨E, .refl, hh.noCall (noCall_of (fun c x hx => Or.inr ⟨c, hx⟩) rfl rfl rfl rfl)⟩
  | some ref =>
      obtain ⟨sess, -, hlock, hid, hne, -, -⟩ := hrefs.of_held hmap
      have hkcp := object_of_lockSess hrefs hh hlock hne
      have hacc : p.hist.accepted sess.id = (E sess.id).accepted := hh.accepted sess.id hne
      have hrec : p.hist.received sess.id = (E sess.id).received := hh.received sess.id hne
      obtain ⟨ret, hrecv⟩ := KcpDataSession.recvFromTunnel_eq hkcp (bytes.take 4096)
      obtain ⟨cs, hin, hcalls⟩ := (E sess.id).calls_receiveOnce (bytes.take 4096)
      have hgive : ∀ datagram, Call.input datagram ∈ cs →
          taken (.datagram bytes) sess.id datagram := by
        intro datagram h
        exact ⟨bytes, rfl, hin datagram h, hid.symm⟩
      have hsame : p.hist.accepted =
          Function.update p.hist.accepted sess.id ((E sess.id).calls cs).accepted := by
        rw [hcalls, ← hacc, Function.update_eq_self]
      simp only [onDataDatagram, hmap, hlock, hrecv] at hok
      rcases readOnce_cases (E sess.id).kcp (bytes.take 4096) with hread | ⟨msg, hread⟩
      · -- nothing to read
        rw [hread] at hok
        obtain rfl := Except.ok.inj hok
        refine serves_setSess hstream hh hlock hne cs hgive ?_ rfl hsame ?_ ?_
        · intro c
          rw [hcalls]
        · rw [hcalls, hread, ← hrec, List.append_nil, Function.update_eq_self]
          rfl
        · rw [hcalls]
          exact ⟨[], (List.append_nil _).symm, (List.append_nil _).symm⟩
      · -- the message goes to the connection
        rw [hread] at hok
        simp only [List.head?_cons, sendToConn] at hok
        split at hok
        · cases hok
        · obtain rfl := Except.ok.inj hok
          refine serves_setSess hstream hh hlock hne cs hgive ?_ rfl hsame ?_ ?_
          · intro c
            rw [hcalls]
            rfl
          · rw [hcalls, hread, ← hrec]
            rfl
          · rw [hcalls]
            exact ⟨[], (List.append_nil _).symm, (List.append_nil _).symm⟩

/-- By induction on the references, each of them to a session in the map. -/
theorem serves_updateSessions (hrefs : RefInv p) (hstream : StreamInv p) (hh : Hosts p.view E)
    (clock : IUINT32) (refs : List ConnId)
    (hheld : ∀ ref ∈ refs, ∃ id : IUINT32, p.sessionMap[id]? = some ref)
    (hok : p.updateSessions clock refs = .ok p') :
    ∃ E', Serves net E E' ∧ Hosts p'.view E' := by
  induction refs generalizing p E with
  | nil =>
      obtain rfl := Except.ok.inj hok
      exact ⟨E, .refl, hh⟩
  | cons ref rest ih =>
      obtain ⟨id, hid⟩ := hheld ref (List.mem_cons_self ..)
      obtain ⟨sess, -, hlock, -, hne, -, hphase⟩ := hrefs.of_held hid
      have hkcp := object_of_lockSess hrefs hh hlock hne
      have hacc : p.hist.accepted sess.id = (E sess.id).accepted := hh.accepted sess.id hne
      have hrec : p.hist.received sess.id = (E sess.id).received := hh.received sess.id hne
      obtain ⟨sess', out, hupd, hphase', hid', hconn', hlist'⟩ :=
        KcpDataSession.update_of_ready hphase hne clock
      have hface : sess'.face = sess.face := by
        simp only [KcpDataSession.face, hid', hconn', hlist']
      have ht := (touch_setSess hlock hface hphase').trans (touch_output _ out)
      simp only [updateSessions, updateSession, hlock, hupd] at hok
      obtain ⟨hsess', hout⟩ : sess' = { sess with kcp := some ((E sess.id).update clock).kcp } ∧
          out = (ikcpUpdate (E sess.id).kcp clock).2 := by
        simp only [KcpDataSession.update, hkcp] at hupd
        obtain ⟨rfl, rfl⟩ := Prod.mk.inj (Except.ok.inj hupd)
        exact ⟨rfl, rfl⟩
      obtain ⟨E₁, hserves, hh₁⟩ : ∃ E₁, Serves net E E₁ ∧
          Hosts ((p.setSess ref sess').output out).view E₁ := by
        refine serves_setSess hstream hh hlock hne [.update clock] (fun _ h => by simp at h) ?_ rfl
          ?_ ?_ ⟨out, ?_, rfl⟩
        · intro c
          rw [hsess']
          rfl
        · change p.hist.accepted = Function.update p.hist.accepted sess.id (E sess.id).accepted
          rw [← hacc, Function.update_eq_self]
        · change p.hist.received = Function.update p.hist.received sess.id (E sess.id).received
          rw [← hrec, Function.update_eq_self]
        · rw [hout]
          rfl
      obtain ⟨E', hserves', hh'⟩ := ih (hrefs.touch ht) (hstream.touch ht) hh₁
        (fun r hr => ht.sessionMap ▸ hheld r (List.mem_cons_of_mem _ hr)) hok
      exact ⟨E', hserves.trans hserves', hh'⟩

theorem serves_connDestroyed (hrefs : RefInv p) (hstream : StreamInv p) (hh : Hosts p.view E)
    (ref : ConnId) : ∃ E', Serves net E E' ∧ Hosts (p.onConnDestroyed ref).view E' := by
  have hlocks := lockSess_onConnDestroyed p ref
  by_cases hnone : ∀ sess, p.lockSess ref = some sess → sess.id = 0
  · -- the session has no object to flush
    refine ⟨E, .refl, hh.noCall (noCall_of ?_ rfl rfl rfl ?_)⟩
    · intro c x hx
      rw [hlocks] at hx
      exact Or.inr ⟨c, (Option.ite_none_left_eq_some.mp hx).2⟩
    · change p.hist.datagrams ++ _ = _
      cases hlock : p.lockSess ref with
      | none => exact List.append_nil _
      | some sess =>
          have hkcp := (hrefs.phase hlock).kcp_of_eq_zero (hnone sess hlock)
          simp only [KcpDataSession.destroy, hkcp, List.append_nil]
  · simp only [not_forall] at hnone
    obtain ⟨sess, hlock, hne⟩ := hnone
    have hkcp := object_of_lockSess hrefs hh hlock hne
    have hacc : p.hist.accepted sess.id = (E sess.id).accepted := hh.accepted sess.id hne
    have hrec : p.hist.received sess.id = (E sess.id).received := hh.received sess.id hne
    refine hh.serve hne [.flush] (fun _ h => by simp at h) (change_of ?_ ?_ ?_ ?_ ?_ ?_)
    · exact ⟨ref, (hstream.initialised ref sess hlock hne).1⟩
    · exact fun _ hin => hin
    · intro c x hx
      rw [hlocks] at hx
      obtain ⟨hc, hx⟩ := Option.ite_none_left_eq_some.mp hx
      exact Or.inr ⟨hstream.id_ne hlock hne hx (Ne.symm hc), hx⟩
    · change p.hist.accepted = Function.update p.hist.accepted sess.id (E sess.id).accepted
      rw [← hacc, Function.update_eq_self]
    · change p.hist.received = Function.update p.hist.received sess.id (E sess.id).received
      rw [← hrec, Function.update_eq_self]
    · refine ⟨_, rfl, ?_⟩
      change p.hist.datagrams ++ _ = _
      simp only [hlock, KcpDataSession.destroy, hkcp]

theorem serves_giveId (hrefs : RefInv p) (hstream : StreamInv p) (hh : Hosts p.view E)
    {id : IUINT32} {ref : ConnId} {rest : List ConnId} {sess sess' : KcpDataSession}
    {accepted : List (List Byte)} (hlist : p.uninitedSessList = ref :: rest)
    (hs : p.liveSess ref = some sess) (hinit : sess.init id = .ok (sess', accepted))
    (hne : id ≠ 0) (hnew : id ∉ p.hist.rspSeen) :
    ∃ E', Serves net E E' ∧
      Hosts ((p.noteRsp id).giveId id ref rest sess' accepted).view E' := by
  obtain ⟨h0, -, hid', -⟩ := hrefs.init_front hlist hs hinit hne
  have hkcp := (hrefs.of_liveSess hs).2.kcp_of_eq_zero h0
  have hunused : ∀ c, (id, c) ∉ p.hist.assigned := fun c hin => hnew (hstream.answered id c hin)
  have hcreate : E id = Endpoint.create id := by
    apply hh.unused id hne
    rintro ⟨c, hin⟩
    exact hunused c hin
  obtain ⟨cs, hin, hcalls⟩ := KcpDataSession.drain_calls (E id) sess.payloadList
  rw [KcpDataSession.init_eq hkcp] at hinit
  obtain ⟨rfl, rfl⟩ := Prod.mk.inj (Except.ok.inj hinit)
  have hacc : p.hist.accepted id = (E id).accepted := hh.accepted id hne
  have hrec : p.hist.received id = (E id).received := hh.received id hne
  have hfresh : (E id).kcp = freshKcp id := by
    rw [hcreate]
    rfl
  refine hh.serve hne cs (fun datagram h => absurd h (hin datagram))
    (change_of ?_ ?_ ?_ ?_ ?_ ⟨[], ?_, ?_⟩)
  · exact ⟨ref, List.mem_append_right _ (List.mem_singleton_self _)⟩
  · exact fun entry h => List.mem_append_left _ h
  · intro c x hx
    change ((p.noteRsp id).setSess ref _).lockSess c = some x at hx
    rw [lockSess_setSess] at hx
    split_ifs at hx with hc
    · obtain ⟨-, -, rfl⟩ := Option.map_eq_some_iff.mp hx
      refine Or.inl ⟨rfl, ?_⟩
      rw [hcalls, hfresh]
    · refine Or.inr ⟨?_, hx⟩
      rintro rfl
      exact hunused c (hstream.initialised c x hx hne).1
  · rw [hcalls, hfresh, ← hacc]
    rfl
  · rw [hcalls, ← hrec, Function.update_eq_self]
    rfl
  · rw [hcalls, List.append_nil]
  · exact (List.append_nil _).symm

/-- **What an event does to the objects is calls of the KCP interface**, on the
    object of one id after another, as long as a response names a new id. -/
theorem serves_effect (hrefs : RefInv p) (hstream : StreamInv p) (hh : Hosts p.view E) {ev : Event}
    (hok : p.handle ev = .ok p') (heff : Effect p ev p')
    (hnew : ∀ msg, ev = .control msg → readCmd msg = rspCreateSession →
      readId msg ≠ 0 ∧ readId msg ∉ p.hist.rspSeen) :
    ∃ E', Serves (taken ev) E E' ∧ Hosts p'.view E' := by
  have hsame : ∀ {q : KcpProxy}, (∀ c x, q.lockSess c = some x → p.lockSess c = some x) →
      q.hist.assigned = p.hist.assigned → q.hist.accepted = p.hist.accepted →
      q.hist.received = p.hist.received → q.hist.datagrams = p.hist.datagrams →
      ∃ E', Serves (taken ev) E E' ∧ Hosts q.view E' := by
    intro q hlock hassigned hacc hrec hsent
    exact ⟨E, .refl, hh.noCall
      (noCall_of (fun c x hx => Or.inr ⟨c, hlock c x hx⟩) hassigned hacc hrec hsent)⟩
  have hdatagram : ∀ bytes, ev = .datagram bytes → datagramConv bytes ≠ 0 →
      ∃ E', Serves (taken ev) E E' ∧ Hosts p'.view E' := by
    rintro bytes rfl hconv
    apply serves_datagram hrefs hstream hh
    change (if datagramConv bytes = 0 then p.onControlDatagram (bytes.take 4096)
      else p.onDataDatagram (datagramConv bytes) (bytes.take 4096)) = _ at hok
    rw [if_neg hconv] at hok
    exact hok
  cases heff with
  | connUp =>
      refine ⟨E, .refl, hh.noCall (noCall_of ?_ rfl rfl rfl rfl)⟩
      intro c x hx
      rw [lockSess_connUp] at hx
      split_ifs at hx
      · obtain rfl := Option.some.inj hx
        exact Or.inl rfl
      · exact Or.inr ⟨c, hx⟩
  | @connDown c sess hs =>
      apply hsame
      · intro x sess' hx
        exact (lockSess_onDisconnected p c sess x).symm.trans hx
      all_goals rw [hist_onDisconnected]; rfl
  | connDestroyed hdead => exact serves_connDestroyed hrefs hstream hh _
  | message hs hne => exact serves_message hrefs hstream hh hs _
  | controlDatagram hconv hparse => exact hsame (fun _ _ hx => hx) rfl rfl rfl rfl
  | unknownConv hconv hmap => exact hdatagram _ rfl hconv
  | quiet hconv hmap ht => exact hdatagram _ rfl hconv
  | deliver hconv hmap ht hs hid => exact hdatagram _ rfl hconv
  | @timer clock _ ht =>
      refine serves_updateSessions hrefs hstream hh clock _ ?_ hok
      intro ref href
      obtain ⟨⟨id, c⟩, hmem, rfl⟩ := List.mem_map.mp href
      exact ⟨id, TreeMap.mem_toList_iff_getElem?_eq_some.mp hmem⟩
  | rspUnused hcmd hempty => exact hsame (fun _ _ hx => hx) rfl rfl rfl rfl
  | rspGiven hcmd hlist hs hinit =>
      obtain ⟨hne, hnot⟩ := hnew _ rfl hcmd
      exact serves_giveId hrefs hstream hh hlist hs hinit hne hnot
  | @destroyHeld msg c hcmd hmap =>
      apply hsame
      · intro x sess' hx
        rw [lockSess_setConnState] at hx
        exact hx
      all_goals rfl
  | ignored hcmd => exact ⟨E, .refl, hh⟩

end KcpProxy
end Proxy
end UdpSpeed
