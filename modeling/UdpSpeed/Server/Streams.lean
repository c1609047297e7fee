/-
  UdpSpeed.Server.Streams

  What the server does to the byte streams.  The bytes of the messages received
  under an id are in the session's cache until D is connected, and have been
  passed to the D connection from then on; the bytes read from D are those of
  the messages accepted by KCP under the id.
-/

import UdpSpeed.Server.Effect

namespace UdpSpeed

open Kcp Control Muduo Std

namespace Server
namespace KcpServer

/-- Where the bytes received under the id of `sess` are: in the cache while the
    client has no connection, passed on to D once it has.  After the client was
    reset they are dropped. -/
def Forwarded (hist : Hist) (sess : KcpServerSession) : Prop :=
  match sess.client with
  | none => True
  | some client =>
      if client.hasConnection then hist.sentToD sess.conv = (hist.received sess.conv).flatten
      else hist.sentToD sess.conv = [] ∧
        sess.payloadList.flatten = (hist.received sess.conv).flatten

/-- The account of the byte streams. -/
structure StreamInv (s : KcpServer) : Prop where
  issued : ∀ (ref : SessRef) (sess : KcpServerSession), s.sessions[ref]? = some sess →
    sess.conv ∈ s.hist.issued
  unique : ∀ (ref ref' : SessRef) (sess sess' : KcpServerSession), s.sessions[ref]? = some sess →
    s.sessions[ref']? = some sess' → sess.conv = sess'.conv → ref = ref'
  forwarded : ∀ (ref : SessRef) (sess : KcpServerSession), s.sessions[ref]? = some sess →
    Forwarded s.hist sess
  sent : ∀ id, s.hist.sentToD id <+: (s.hist.received id).flatten
  read : ∀ id, (s.hist.accepted id).flatten = s.hist.readFromD id
  noId : ∀ id, id ∉ s.hist.issued → s.hist.sentToD id = [] ∧ s.hist.received id = []

namespace StreamInv

variable {s : KcpServer}

theorem create (id : IUINT32) : StreamInv (KcpServer.create id) := by
  have hnone : ∀ ref : SessRef, (KcpServer.create id).sessions[ref]? = none := by
    intro ref
    simp [KcpServer.create]
  refine ⟨?_, ?_, ?_, fun _ => List.prefix_rfl, fun _ => rfl, fun _ _ => ⟨rfl, rfl⟩⟩
  · intro ref sess hs
    rw [hnone] at hs
    cases hs
  · intro ref ref' sess sess' hs
    rw [hnone] at hs
    cases hs
  · intro ref sess hs
    rw [hnone] at hs
    cases hs

/-- Steps that move no bytes: `s'` has only objects that `s` had, with the same
    id, and what was forwarded stays so. -/
theorem frame (h : StreamInv s) {s' : KcpServer}
    (hsess : ∀ (ref : SessRef) (sess' : KcpServerSession), s'.sessions[ref]? = some sess' →
      ∃ sess, s.sessions[ref]? = some sess ∧ sess'.conv = sess.conv ∧
        (Forwarded s.hist sess → Forwarded s.hist sess'))
    (hhist : s'.hist = { s.hist with datagrams := s'.hist.datagrams }) : StreamInv s' := by
  refine ⟨?_, ?_, ?_, ?_, ?_, ?_⟩
  · intro ref sess' hs'
    obtain ⟨sess, hs, hconv, -⟩ := hsess ref sess' hs'
    rw [hhist, hconv]
    exact h.issued ref sess hs
  · intro ref ref' x x' hx hx' heq
    obtain ⟨y, hy, hc, -⟩ := hsess ref x hx
    obtain ⟨y', hy', hc', -⟩ := hsess ref' x' hx'
    exact h.unique ref ref' y y' hy hy' (hc.symm.trans (heq.trans hc'))
  · intro ref sess' hs'
    obtain ⟨sess, hs, -, hfwd⟩ := hsess ref sess' hs'
    rw [hhist]
    exact hfwd (h.forwarded ref sess hs)
  · rw [hhist]
    exact h.sent
  · rw [hhist]
    exact h.read
  · rw [hhist]
    exact h.noId

/-- An object written back over itself. -/
theorem setSess (h : StreamInv s) {ref : SessRef} {sess sess' : KcpServerSession}
    (hs : s.sessions[ref]? = some sess) (hconv : sess'.conv = sess.conv)
    (hfwd : Forwarded s.hist sess → Forwarded s.hist sess') : StreamInv (s.setSess ref sess') := by
  refine h.frame ?_ rfl
  intro r x hx
  rw [sessions_setSess] at hx
  split_ifs at hx with hr
  · obtain rfl := Option.some.inj hx
    exact ⟨sess, hr ▸ hs, hconv, hfwd⟩
  · exact ⟨x, hx, rfl, fun hf => hf⟩

/-- Only the KCP object changed. -/
theorem forwarded_withKcp {hist : Hist} {sess : KcpServerSession} {kcp : IKCPCB}
    (hcfg : kcp.cfg = sess.kcp.cfg) (h : Forwarded hist sess) :
    Forwarded hist { sess with kcp := kcp } := by
  unfold Forwarded
  rw [KcpServerSession.conv_withKcp hcfg]
  exact h

/-- Two histories that agree on an id. -/
theorem forwarded_congr {hist hist' : Hist} {sess : KcpServerSession}
    (hsent : hist'.sentToD sess.conv = hist.sentToD sess.conv)
    (hrecv : hist'.received sess.conv = hist.received sess.conv) (h : Forwarded hist sess) :
    Forwarded hist' sess := by
  unfold Forwarded
  rw [hsent, hrecv]
  exact h

theorem handleCreate (h : StreamInv s) (hnew : (newId s.id).1 ∉ s.hist.issued)
    (remote : SockAddr) (now : Int) : StreamInv (s.handleCreate remote now) := by
  obtain ⟨hsent, hrecv⟩ := h.noId _ hnew
  refine ⟨?_, ?_, ?_, h.sent, h.read, ?_⟩
  · intro ref sess hs
    rw [sessions_handleCreate] at hs
    split_ifs at hs
    · obtain rfl := Option.some.inj hs
      exact List.mem_append_right _ (List.mem_singleton_self _)
    · exact List.mem_append_left _ (h.issued ref sess hs)
  · intro ref ref' x x' hx hx' heq
    rw [sessions_handleCreate] at hx hx'
    split_ifs at hx hx' with hr hr' hr'
    · exact hr.symm.trans hr'
    -- the new object has an id that no other object has
    · obtain rfl := Option.some.inj hx
      have hid : (newId s.id).1 = x'.conv := heq
      exact absurd (hid ▸ h.issued ref' x' hx') hnew
    · obtain rfl := Option.some.inj hx'
      have hid : x.conv = (newId s.id).1 := heq
      exact absurd (hid ▸ h.issued ref x hx) hnew
    · exact h.unique ref ref' x x' hx hx' heq
  · intro ref sess hs
    rw [sessions_handleCreate] at hs
    split_ifs at hs
    -- nothing was ever received under an id not yet issued
    · obtain rfl := Option.some.inj hs
      refine ⟨hsent, ?_⟩
      change [] = (s.hist.received (newId s.id).1).flatten
      rw [hrecv]
      rfl
    · exact h.forwarded ref sess hs
  · intro id hid
    exact h.noId id (fun hin => hid (List.mem_append_left _ hin))

theorem handleDestroy (h : StreamInv s) (id : IUINT32) : StreamInv (s.handleDestroy id) := by
  refine h.frame ?_ (by rw [(handleDestroy_frame s id).2.2.1])
  intro ref x hx
  rw [sessions_handleDestroy] at hx
  split_ifs at hx
  · obtain ⟨sess, hs, rfl⟩ := Option.map_eq_some_iff.mp hx
    exact ⟨sess, hs, rfl, fun _ => trivial⟩
  · exact ⟨x, hx, rfl, fun hf => hf⟩

/-- Steps that move bytes under the id of one object: everything under other ids
    is as it was, and the object's own bytes are accounted for. -/
theorem forward (h : StreamInv s) {s' : KcpServer} {ref : SessRef} {sess sess' : KcpServerSession}
    (hs : s.sessions[ref]? = some sess) (hconv : sess'.conv = sess.conv)
    (hsess : ∀ r, s'.sessions[r]? = if ref = r then some sess' else s.sessions[r]?)
    (hissued : s'.hist.issued = s.hist.issued)
    (hread : ∀ id, (s'.hist.accepted id).flatten = s'.hist.readFromD id)
    (hother : ∀ id, id ≠ sess.conv → s'.hist.sentToD id = s.hist.sentToD id ∧
      s'.hist.received id = s.hist.received id)
    (hfwd : Forwarded s'.hist sess')
    (hsent : s'.hist.sentToD sess.conv <+: (s'.hist.received sess.conv).flatten) :
    StreamInv s' := by
  refine ⟨?_, ?_, ?_, ?_, hread, ?_⟩
  · intro r x hx
    rw [hissued]
    rw [hsess] at hx
    split_ifs at hx
    · obtain rfl := Option.some.inj hx
      rw [hconv]
      exact h.issued ref sess hs
    · exact h.issued r x hx
  · -- the object has kept its id, so ids still tell objects apart
    intro r r' x x' hx hx' heq
    rw [hsess] at hx hx'
    split_ifs at hx hx' with hr hr' hr'
    · exact hr.symm.trans hr'
    · obtain rfl := Option.some.inj hx
      exact hr.symm.trans (h.unique ref r' sess x' hs hx' (hconv.symm.trans heq))
    · obtain rfl := Option.some.inj hx'
      exact (h.unique r ref x sess hx hs (heq.trans hconv)).trans hr'
    · exact h.unique r r' x x' hx hx' heq
  · intro r x hx
    rw [hsess] at hx
    split_ifs at hx with hr
    · obtain rfl := Option.some.inj hx
      exact hfwd
    · -- another object has another id
      have hne : x.conv ≠ sess.conv := fun heq => hr (h.unique ref r sess x hs hx heq.symm)
      obtain ⟨hsent', hrecv'⟩ := hother x.conv hne
      exact forwarded_congr hsent' hrecv' (h.forwarded r x hx)
  · intro id
    by_cases hid : id = sess.conv
    · rw [hid]
      exact hsent
    · rw [(hother id hid).1, (hother id hid).2]
      exact h.sent id
  · intro id hid
    rw [hissued] at hid
    have hne : id ≠ sess.conv := by
      rintro rfl
      exact hid (h.issued ref sess hs)
    rw [(hother id hne).1, (hother id hne).2]
    exact h.noId id hid

/-- What `takePayload` does with a payload of an object that has forwarded
    everything before it: pass it on, cache it, or drop it after the client was
    reset. -/
theorem forwarded_takePayload {hist hist' : Hist} {sess : KcpServerSession} {payload : List Byte}
    {now : Int} (h : Forwarded hist sess)
    (hsent : hist.sentToD sess.conv <+: (hist.received sess.conv).flatten)
    (hrecv' : hist'.received sess.conv = hist.received sess.conv ++ [payload])
    (hsent' : hist'.sentToD sess.conv =
      hist.sentToD sess.conv ++ (sess.takePayload payload now).2) :
    Forwarded hist' (sess.takePayload payload now).1 ∧
      hist'.sentToD sess.conv <+: (hist'.received sess.conv).flatten := by
  have hflat : (hist'.received sess.conv).flatten =
      (hist.received sess.conv).flatten ++ payload := by
    rw [hrecv', List.flatten_append]
    simp
  unfold Forwarded at h ⊢
  rw [KcpServerSession.takePayload_conv, hflat, hsent']
  unfold KcpServerSession.takePayload
  dsimp only
  cases hclient : sess.client with
  | none =>
      refine ⟨trivial, ?_⟩
      rw [List.append_nil]
      exact hsent.trans (List.prefix_append _ _)
  | some client =>
      rw [hclient] at h
      dsimp only at h ⊢
      by_cases hconn : client.hasConnection
      · rw [if_pos hconn] at h
        simp only [hconn, if_true, h]
        exact ⟨trivial, List.prefix_rfl⟩
      · rw [if_neg hconn] at h
        refine ⟨by simp [hconn, h], ?_⟩
        rw [if_neg hconn, List.append_nil]
        exact hsent.trans (List.prefix_append _ _)

/-- A payload read from the tunnel. -/
theorem received (h : StreamInv s) {ref : SessRef} {sess : KcpServerSession} (payload : List Byte)
    (now : Int) (hs : s.sessions[ref]? = some sess) :
    StreamInv (s.received ref sess payload now) := by
  have hrecv : (s.received ref sess payload now).hist.received sess.conv =
      s.hist.received sess.conv ++ [payload] := Function.update_self ..
  have hsent : (s.received ref sess payload now).hist.sentToD sess.conv =
      s.hist.sentToD sess.conv ++ (sess.takePayload payload now).2 := Function.update_self ..
  obtain ⟨hfwd, hprefix⟩ := forwarded_takePayload (h.forwarded ref sess hs) (h.sent sess.conv)
    hrecv hsent
  refine h.forward hs (KcpServerSession.takePayload_conv sess payload now)
    (fun r => sessions_setSess s ref r _) rfl h.read ?_ hfwd hprefix
  intro id hid
  exact ⟨Function.update_of_ne hid _ _, Function.update_of_ne hid _ _⟩

/-- The cache goes to D when the connection comes up. -/
theorem onConnectionUp (h : StreamInv s) {ref : SessRef} {sess : KcpServerSession}
    (hs : s.sessions[ref]? = some sess) (hclient : sess.client = some .connecting) :
    StreamInv (s.onConnectionUp ref sess) := by
  have hfwd := h.forwarded ref sess hs
  rw [Forwarded, hclient] at hfwd
  obtain ⟨hempty, hcache⟩ : s.hist.sentToD sess.conv = [] ∧
    sess.payloadList.flatten = (s.hist.received sess.conv).flatten := hfwd
  have hsent : (s.onConnectionUp ref sess).hist.sentToD sess.conv =
      (s.hist.received sess.conv).flatten := by
    rw [← hcache, ← List.nil_append sess.payloadList.flatten, ← hempty]
    exact Function.update_self ..
  have hconv : sess.onConnected.1.conv = sess.conv := rfl
  refine h.forward hs hconv (fun r => sessions_setSess s ref r _) rfl h.read ?_ hsent ?_
  · intro id hid
    exact ⟨Function.update_of_ne hid _ _, rfl⟩
  · rw [hsent]
    exact List.prefix_rfl

/-- Bytes read from D are accepted by KCP as one message. -/
theorem accepted (h : StreamInv s) {ref : SessRef} {sess : KcpServerSession} {kcp : IKCPCB}
    (data : List Byte) (hs : s.sessions[ref]? = some sess) (hcfg : kcp.cfg = sess.kcp.cfg) :
    StreamInv (s.accepted ref sess kcp data) := by
  have hset : StreamInv (s.setSess ref { sess with kcp := kcp }) :=
    h.setSess hs (KcpServerSession.conv_withKcp hcfg) (forwarded_withKcp hcfg)
  refine ⟨hset.issued, hset.unique, ?_, hset.sent, ?_, hset.noId⟩
  · exact fun r x hx => forwarded_congr rfl rfl (hset.forwarded r x hx)
  · intro id
    change (Function.update s.hist.accepted sess.conv _ id).flatten =
      Function.update s.hist.readFromD sess.conv _ id
    by_cases hid : id = sess.conv
    · subst hid
      rw [Function.update_self, Function.update_self, List.flatten_append, h.read]
      simp
    · rw [Function.update_of_ne hid, Function.update_of_ne hid]
      exact h.read id

/-- **The account survives every event outside `handleControlMessage`.** -/
theorem local_effect (h : StreamInv s) {e : Event} {s' : KcpServer} (heff : Effect s e s')
    (hloc : ∀ msg remote now, e ≠ .control msg remote now) : StreamInv s' := by
  cases heff with
  | ignored => exact h
  | controlDatagram hparse =>
      exact h.frame (fun ref sess hs => ⟨sess, hs, rfl, fun hf => hf⟩) rfl
  | quiet hmap hs hcfg =>
      exact h.setSess hs (KcpServerSession.conv_withKcp hcfg) (forwarded_withKcp hcfg)
  | @recv _ payload _ now ref sess kcp hmap hs hcfg hne =>
      have hset : StreamInv (s.setSess ref { sess with kcp := kcp }) :=
        h.setSess hs (KcpServerSession.conv_withKcp hcfg) (forwarded_withKcp hcfg)
      have hat : (s.setSess ref { sess with kcp := kcp }).sessions[ref]? =
          some { sess with kcp := kcp } := by
        rw [sessions_setSess, if_pos rfl]
      have hrecv := hset.received payload now hat
      refine hrecv.frame ?_ rfl
      intro r x hx
      refine ⟨x, ?_, rfl, fun hf => hf⟩
      rw [KcpServer.received, sessions_setSess] at hx ⊢
      rw [sessions_setSess]
      split_ifs at hx ⊢ <;> exact hx
  | create hcmd => exact absurd rfl (hloc _ _ _)
  | destroy hcmd => exact absurd rfl (hloc _ _ _)
  | connected hs hclient => exact h.onConnectionUp hs hclient
  | connectFailed hs hclient =>
      refine h.setSess hs rfl ?_
      unfold Forwarded
      rw [hclient]
      exact fun hf => hf
  | message hs hcfg => exact h.accepted _ hs hcfg
  | checked hs hclient => exact h.setSess hs rfl (fun hf => hf)
  | updateTimer ht =>
      refine h.frame ?_ ht.hist
      intro ref x hx
      obtain ⟨sess, kcp, hs, rfl, hcfg⟩ := ht.of_sessions hx
      exact ⟨sess, hs, KcpServerSession.conv_withKcp hcfg, forwarded_withKcp hcfg⟩
  | deadSessionTimer => exact h.frame (fun ref sess hs => ⟨sess, hs, rfl, fun hf => hf⟩) rfl
  | @released ref₀ sess₀ hs₀ hfree =>
      refine h.frame ?_ rfl
      intro ref x hx
      refine ⟨x, ?_, rfl, fun hf => hf⟩
      change (s.sessions.erase ref₀)[ref]? = some x at hx
      rw [TreeMap.getElem?_erase] at hx
      split_ifs at hx
      exact hx

end StreamInv
end KcpServer
end Server
end UdpSpeed
