/-
  UdpSpeed.Proxy.Streams

  What the proxy does to the byte streams.  The bytes read from a connection
  are in its queue until the session has an id, and in the messages accepted by
  KCP under that id from then on; the bytes sent to it are those of the
  messages received under its id.
-/

import UdpSpeed.Proxy.Effect

namespace UdpSpeed

open Kcp Control Muduo Std

namespace Proxy
namespace KcpProxy

theorem Touch.lockSess {p p' : KcpProxy} (h : Touch p p') {c : ConnId} {sess' : KcpDataSession}
    (hs : p'.lockSess c = some sess') :
    ∃ sess, p.lockSess c = some sess ∧ sess'.id = sess.id ∧
      sess'.payloadList = sess.payloadList := by
  unfold KcpProxy.lockSess at hs ⊢
  have hface := h.face c
  cases hobj' : p'.conns[c]? with
  | none => rw [hobj'] at hs; cases hs
  | some conn' =>
      rw [hobj'] at hs hface
      obtain ⟨conn, hobj, hf⟩ := Option.map_eq_some_iff.mp hface.symm
      rw [hobj]
      change conn'.context = some sess' at hs
      have hctx := (Prod.mk.inj hf).2
      rw [hs] at hctx
      obtain ⟨sess, hsess, hsf⟩ := Option.map_eq_some_iff.mp hctx
      exact ⟨sess, hsess, (Prod.mk.inj hsf).1.symm, (Prod.mk.inj (Prod.mk.inj hsf).2).2.symm⟩

/-- The assignment of ids to connections is one-to-one. -/
def OneToOne (assigned : List (IUINT32 × ConnId)) : Prop :=
  ∀ id id' c c', (id, c) ∈ assigned → (id', c') ∈ assigned → (id = id' ↔ c = c')

/-- A new pair joins a one-to-one assignment if neither part has a partner. -/
theorem OneToOne.concat {assigned : List (IUINT32 × ConnId)} (h : OneToOne assigned)
    {id : IUINT32} {c : ConnId} (hid : ∀ x, (id, x) ∉ assigned) (hc : ∀ i, (i, c) ∉ assigned) :
    OneToOne (assigned ++ [(id, c)]) := by
  intro i i' x x' hin hin'
  rcases List.mem_append.mp hin with hold | hnew <;>
    rcases List.mem_append.mp hin' with hold' | hnew'
  · exact h i i' x x' hold hold'
  · obtain ⟨rfl, rfl⟩ := Prod.mk.inj (List.mem_singleton.mp hnew')
    refine iff_of_false ?_ ?_
    · rintro rfl
      exact hid x hold
    · rintro rfl
      exact hc i hold
  · obtain ⟨rfl, rfl⟩ := Prod.mk.inj (List.mem_singleton.mp hnew)
    refine iff_of_false ?_ ?_
    · rintro rfl
      exact hid x' hold'
    · rintro rfl
      exact hc i' hold'
  · obtain ⟨rfl, rfl⟩ := Prod.mk.inj (List.mem_singleton.mp hnew)
    obtain ⟨rfl, rfl⟩ := Prod.mk.inj (List.mem_singleton.mp hnew')
    exact iff_of_true rfl rfl

/-- The account of the byte streams: what is true of the sessions, of the
    assignment of ids, and of the bytes under each id. -/
structure StreamInv (p : KcpProxy) : Prop where
  initialised : ∀ c sess, p.lockSess c = some sess → sess.id ≠ 0 →
    (sess.id, c) ∈ p.hist.assigned ∧ sess.payloadList = []
  waiting : ∀ c sess, p.lockSess c = some sess → sess.id = 0 →
    sess.payloadList.flatten = p.hist.readFromA c ∧
      (∀ payload ∈ sess.payloadList, payload.length ≤ maxRead) ∧
      ∀ id, (id, c) ∉ p.hist.assigned
  oneToOne : OneToOne p.hist.assigned
  answered : ∀ id c, (id, c) ∈ p.hist.assigned → id ∈ p.hist.rspSeen
  known : ∀ id c, (id, c) ∈ p.hist.assigned → c < p.nextConnId
  carried : ∀ id c, (id, c) ∈ p.hist.assigned →
    (p.hist.accepted id).flatten = p.hist.readFromA c ∧
      p.hist.sentToA c = (p.hist.received id).flatten
  noId : ∀ id, (∀ c, (id, c) ∉ p.hist.assigned) → p.hist.accepted id = [] ∧ p.hist.received id = []
  noConn : ∀ c, (∀ id, (id, c) ∉ p.hist.assigned) → p.hist.sentToA c = []
  noData : ∀ c, p.nextConnId ≤ c → p.hist.readFromA c = []

namespace StreamInv

variable {p : KcpProxy}

theorem create : StreamInv KcpProxy.create := by
  have hlock : ∀ c, KcpProxy.create.lockSess c = none := by
    intro c
    simp [KcpProxy.create, KcpProxy.lockSess]
  refine ⟨?_, ?_, ?_, ?_, ?_, ?_, fun _ _ => ⟨rfl, rfl⟩, fun _ _ => rfl, fun _ _ => rfl⟩
  · intro c sess hs
    rw [hlock] at hs
    cases hs
  · intro c sess hs
    rw [hlock] at hs
    cases hs
  · intro id id' c c' hin
    cases hin
  · intro id c hin
    cases hin
  · intro id c hin
    cases hin
  · intro id c hin
    cases hin

/-- Steps that touch neither queues nor ids: `p'` has only sessions that `p` had,
    and the streams are as they were. -/
theorem frame (h : StreamInv p) {p' : KcpProxy}
    (hlock : ∀ c sess', p'.lockSess c = some sess' → ∃ sess, p.lockSess c = some sess ∧
      sess'.id = sess.id ∧ sess'.payloadList = sess.payloadList)
    (hnext : p'.nextConnId = p.nextConnId) (hassigned : p'.hist.assigned = p.hist.assigned)
    (hrsp : ∀ id ∈ p.hist.rspSeen, id ∈ p'.hist.rspSeen)
    (hread : p'.hist.readFromA = p.hist.readFromA) (hsent : p'.hist.sentToA = p.hist.sentToA)
    (hacc : p'.hist.accepted = p.hist.accepted) (hrecv : p'.hist.received = p.hist.received) :
    StreamInv p' := by
  refine ⟨?_, ?_, ?_, ?_, ?_, ?_, ?_, ?_, ?_⟩
  · intro c sess' hs' hne
    obtain ⟨sess, hs, hid, hlist⟩ := hlock c sess' hs'
    rw [hassigned, hid, hlist]
    exact h.initialised c sess hs (hid ▸ hne)
  · intro c sess' hs' h0
    obtain ⟨sess, hs, hid, hlist⟩ := hlock c sess' hs'
    rw [hassigned, hlist, hread]
    exact h.waiting c sess hs (hid ▸ h0)
  · rw [hassigned]
    exact h.oneToOne
  · rw [hassigned]
    exact fun id c hin => hrsp id (h.answered id c hin)
  · rw [hassigned, hnext]
    exact h.known
  · rw [hassigned, hread, hsent, hacc, hrecv]
    exact h.carried
  · rw [hassigned, hacc, hrecv]
    exact h.noId
  · rw [hassigned, hsent]
    exact h.noConn
  · rw [hnext, hread]
    exact h.noData

theorem touch (h : StreamInv p) {p' : KcpProxy} (ht : Touch p p') : StreamInv p' := by
  refine h.frame (fun c sess' hs' => ht.lockSess hs') ht.nextConnId ?_ ?_ ?_ ?_ ?_ ?_ <;>
    rw [ht.hist]
  exact fun id hid => hid

theorem connUp (h : StreamInv p) :
    StreamInv (p.newConnection.onConnected p.nextConnId) := by
  have hlock := lockSess_connUp p
  refine ⟨?_, ?_, h.oneToOne, h.answered, ?_, h.carried, h.noId, h.noConn, ?_⟩
  · intro c sess hs hne
    rw [hlock] at hs
    split_ifs at hs
    · obtain rfl := Option.some.inj hs
      exact absurd rfl hne
    · exact h.initialised c sess hs hne
  · intro c sess hs h0
    rw [hlock] at hs
    split_ifs at hs with hc
    · -- nothing was ever recorded under a connection number not yet used
      obtain rfl := Option.some.inj hs
      subst hc
      refine ⟨(h.noData _ le_rfl).symm, by simp [KcpDataSession.create], ?_⟩
      intro id hin
      exact Nat.lt_irrefl _ (h.known id _ hin)
    · exact h.waiting c sess hs h0
  · intro id c hin
    exact Nat.lt_succ_of_lt (h.known id c hin)
  · intro c hc
    exact h.noData c (Nat.le_of_succ_le hc)

/-- A chunk read before the session has an id. -/
theorem message_waiting (h : StreamInv p) {c : ConnId} {sess : KcpDataSession} {data : List Byte}
    (hlock : p.lockSess c = some sess) (h0 : sess.id = 0) (hkcp : sess.kcp = none)
    (hc : c < p.nextConnId) (hlen : data.length ≤ maxRead) :
    StreamInv (p.tunnelSend c sess data) := by
  obtain ⟨hread, hlens, hnone⟩ := h.waiting c sess hlock h0
  have hsend := KcpDataSession.sendToTunnel_of_none hkcp data
  have hacc : (p.tunnelSend c sess data).hist.accepted = p.hist.accepted := by
    simp only [tunnelSend, hsend, List.append_nil, Function.update_eq_self]
  have hview : ∀ x, (p.tunnelSend c sess data).lockSess x =
      (p.setSess c { sess with payloadList := sess.payloadList ++ [data] }).lockSess x := by
    intro x
    simp only [tunnelSend, hsend]
    rfl
  have hother : ∀ x, x ≠ c → (p.tunnelSend c sess data).hist.readFromA x = p.hist.readFromA x :=
    fun x hx => Function.update_of_ne hx _ _
  refine ⟨?_, ?_, h.oneToOne, h.answered, h.known, ?_, ?_, h.noConn, ?_⟩
  · intro x s hs hne
    rw [hview, lockSess_setSess] at hs
    split_ifs at hs with hx
    · obtain ⟨_, -, rfl⟩ := Option.map_eq_some_iff.mp hs
      exact absurd h0 hne
    · exact h.initialised x s hs hne
  · intro x s hs hx0
    rw [hview, lockSess_setSess] at hs
    split_ifs at hs with hx
    · -- the session that queues the chunk
      obtain ⟨_, -, rfl⟩ := Option.map_eq_some_iff.mp hs
      subst hx
      refine ⟨?_, ?_, hnone⟩
      · change (sess.payloadList ++ [data]).flatten = Function.update p.hist.readFromA c _ c
        rw [List.flatten_append, hread, Function.update_self]
        simp
      · intro payload hin
        rcases List.mem_append.mp hin with hold | hnew
        · exact hlens payload hold
        · rw [List.mem_singleton.mp hnew]
          exact hlen
    · rw [hother x (Ne.symm hx)]
      exact h.waiting x s hs hx0
  · -- a stream with an id is another connection's
    intro id x hin
    have hx : x ≠ c := by
      rintro rfl
      exact hnone id hin
    rw [hacc, hother x hx]
    exact h.carried id x hin
  · rw [hacc]
    exact h.noId
  · intro x hx
    rw [hother x (Nat.ne_of_gt (Nat.lt_of_lt_of_le hc hx))]
    exact h.noData x hx

/-- A chunk read after the session got its id. -/
theorem message_initialised (h : StreamInv p) {c : ConnId} {sess : KcpDataSession} {kcp : IKCPCB}
    {data : List Byte} (hlock : p.lockSess c = some sess) (hne : sess.id ≠ 0)
    (hkcp : sess.kcp = some kcp) (hcfg : kcp.cfg = tunnelCfg sess.id) (hc : c < p.nextConnId)
    (hlen : data.length ≤ maxRead) : StreamInv (p.tunnelSend c sess data) := by
  obtain ⟨hassigned, hlist⟩ := h.initialised c sess hlock hne
  have hsend := KcpDataSession.sendToTunnel_of_some hkcp hcfg hlen
  have hview : ∀ x s, (p.tunnelSend c sess data).lockSess x = some s →
      ∃ s₀, p.lockSess x = some s₀ ∧ s.id = s₀.id ∧ s.payloadList = s₀.payloadList := by
    intro x s hs
    simp only [tunnelSend, hsend] at hs
    change (p.setSess c _).lockSess x = some s at hs
    rw [lockSess_setSess] at hs
    split_ifs at hs with hx
    · obtain ⟨_, -, rfl⟩ := Option.map_eq_some_iff.mp hs
      exact ⟨sess, hx ▸ hlock, rfl, rfl⟩
    · exact ⟨s, hs, rfl, rfl⟩
  have hread : ∀ x, x ≠ c → (p.tunnelSend c sess data).hist.readFromA x = p.hist.readFromA x :=
    fun x hx => Function.update_of_ne hx _ _
  have hacc : ∀ id, id ≠ sess.id →
      (p.tunnelSend c sess data).hist.accepted id = p.hist.accepted id :=
    fun id hid => Function.update_of_ne hid _ _
  refine ⟨?_, ?_, h.oneToOne, h.answered, h.known, ?_, ?_, h.noConn, ?_⟩
  · intro x s hs hs0
    obtain ⟨s₀, hs₀, hid, hl⟩ := hview x s hs
    rw [hid, hl]
    exact h.initialised x s₀ hs₀ (hid ▸ hs0)
  · intro x s hs hs0
    obtain ⟨s₀, hs₀, hid, hl⟩ := hview x s hs
    -- a waiting session is not the one that read the chunk
    have hx : x ≠ c := by
      rintro rfl
      obtain rfl := Option.some.inj (hlock.symm.trans hs₀)
      exact hne (hid ▸ hs0)
    rw [hl, hread x hx]
    exact h.waiting x s₀ hs₀ (hid ▸ hs0)
  · intro id x hin
    by_cases hid : id = sess.id
    · -- the stream the chunk belongs to
      subst hid
      obtain rfl := (h.oneToOne _ _ _ _ hin hassigned).mp rfl
      obtain ⟨hflat, hsent⟩ := h.carried _ _ hin
      refine ⟨?_, hsent⟩
      change (Function.update p.hist.accepted sess.id
          (p.hist.accepted sess.id ++ (sess.sendToTunnel data).2) sess.id).flatten =
        Function.update p.hist.readFromA x (p.hist.readFromA x ++ data) x
      rw [Function.update_self, Function.update_self, hsend, List.flatten_append, hflat]
      simp
    · have hx : x ≠ c := fun hx => hid ((h.oneToOne _ _ _ _ hin hassigned).mpr hx)
      rw [hacc id hid, hread x hx]
      exact h.carried id x hin
  · intro id hnone
    rw [hacc id]
    · exact h.noId id hnone
    · rintro rfl
      exact hnone c hassigned
  · intro x hx
    rw [hread x (Nat.ne_of_gt (Nat.lt_of_lt_of_le hc hx))]
    exact h.noData x hx

/-- A message received from the tunnel goes to the connection its id was given
    to. -/
theorem connSend (h : StreamInv p) {c : ConnId} {sess : KcpDataSession} (msg : List Byte)
    (hlock : p.lockSess c = some sess) (hne : sess.id ≠ 0) (hconn : sess.conn = c) :
    StreamInv (p.connSend sess msg) := by
  obtain ⟨hassigned, -⟩ := h.initialised c sess hlock hne
  rw [← hconn] at hassigned
  have hsent : ∀ x, x ≠ sess.conn → (p.connSend sess msg).hist.sentToA x = p.hist.sentToA x :=
    fun x hx => Function.update_of_ne hx _ _
  have hrecv : ∀ id, id ≠ sess.id → (p.connSend sess msg).hist.received id = p.hist.received id :=
    fun id hid => Function.update_of_ne hid _ _
  refine ⟨h.initialised, h.waiting, h.oneToOne, h.answered, h.known, ?_, ?_, ?_, h.noData⟩
  · intro id x hin
    by_cases hid : id = sess.id
    · -- the stream the message belongs to
      subst hid
      obtain rfl := (h.oneToOne _ _ _ _ hin hassigned).mp rfl
      obtain ⟨hflat, hs⟩ := h.carried _ _ hin
      refine ⟨hflat, ?_⟩
      change Function.update p.hist.sentToA sess.conn (p.hist.sentToA sess.conn ++ msg) sess.conn =
        (Function.update p.hist.received sess.id (p.hist.received sess.id ++ [msg])
          sess.id).flatten
      rw [Function.update_self, Function.update_self, List.flatten_append, hs]
      simp
    · have hx : x ≠ sess.conn := fun hx => hid ((h.oneToOne _ _ _ _ hin hassigned).mpr hx)
      rw [hrecv id hid, hsent x hx]
      exact h.carried id x hin
  · intro id hnone
    rw [hrecv id]
    · exact h.noId id hnone
    · rintro rfl
      exact hnone _ hassigned
  · intro x hnone
    rw [hsent x]
    · exact h.noConn x hnone
    · rintro rfl
      exact hnone _ hassigned

/-- `init` on the front of the waiting list moves its whole queue into KCP. -/
theorem giveId (h : StreamInv p) {id : IUINT32} {ref : ConnId} {rest : List ConnId}
    {sess sess' : KcpDataSession} {accepted : List (List Byte)}
    (hlock : p.lockSess ref = some sess) (h0 : sess.id = 0) (hkcp : sess.kcp = none)
    (hinit : sess.init id = .ok (sess', accepted)) (href : ref < p.nextConnId) (hne : id ≠ 0)
    (hnew : id ∉ p.hist.rspSeen) :
    StreamInv ((p.noteRsp id).giveId id ref rest sess' accepted) := by
  obtain ⟨hread, hlens, hnone⟩ := h.waiting ref sess hlock h0
  have hfresh : ∀ c, (id, c) ∉ p.hist.assigned := fun c hin => hnew (h.answered id c hin)
  -- every chunk in the queue is small enough for `ikcp_send`, so the queue empties
  obtain ⟨kcp', hdrain⟩ : ∃ kcp', KcpDataSession.drain (freshKcp id) sess.payloadList =
      (kcp', [], sess.payloadList) := ⟨_, KcpDataSession.drain_eq (freshKcp_cfg id) hlens⟩
  rw [KcpDataSession.init_eq hkcp, hdrain] at hinit
  obtain ⟨rfl, rfl⟩ := Prod.mk.inj (Except.ok.inj hinit)
  have hview : ∀ x s, ((p.noteRsp id).giveId id ref rest
      { sess with kcp := some kcp', id := id, payloadList := [] } sess.payloadList).lockSess x =
        some s → (x = ref ∧ s.id = id ∧ s.payloadList = []) ∨
          (x ≠ ref ∧ p.lockSess x = some s) := by
    intro x s hs
    change ((p.noteRsp id).setSess ref _).lockSess x = some s at hs
    rw [lockSess_setSess] at hs
    split_ifs at hs with hx
    · obtain ⟨_, -, rfl⟩ := Option.map_eq_some_iff.mp hs
      exact Or.inl ⟨hx.symm, rfl, rfl⟩
    · exact Or.inr ⟨Ne.symm hx, hs⟩
  have hacc : ∀ i, i ≠ id → Function.update p.hist.accepted id
      (p.hist.accepted id ++ sess.payloadList) i = p.hist.accepted i :=
    fun i hi => Function.update_of_ne hi _ _
  have hcases : ∀ i c, (i, c) ∈ p.hist.assigned ++ [(id, ref)] →
      (i, c) ∈ p.hist.assigned ∨ i = id ∧ c = ref := by
    intro i c hin
    rw [List.mem_append, List.mem_singleton, Prod.mk.injEq] at hin
    exact hin
  refine ⟨?_, ?_, ?_, ?_, ?_, ?_, ?_, ?_, h.noData⟩
  · -- the front session is initialised now, the others are as they were
    intro x s hs hs0
    rcases hview x s hs with ⟨rfl, hid, hl⟩ | ⟨-, hs₀⟩
    · rw [hid]
      exact ⟨List.mem_append_right _ (List.mem_singleton_self _), hl⟩
    · obtain ⟨hin, hl⟩ := h.initialised x s hs₀ hs0
      exact ⟨List.mem_append_left _ hin, hl⟩
  · intro x s hs hs0
    rcases hview x s hs with ⟨rfl, hid, -⟩ | ⟨hx, hs₀⟩
    · exact absurd (hid.symm.trans hs0) hne
    · obtain ⟨hr, hl, hn⟩ := h.waiting x s hs₀ hs0
      refine ⟨hr, hl, ?_⟩
      intro i hin
      rcases hcases i x hin with hold | ⟨-, hx'⟩
      · exact hn i hold
      · exact hx hx'
  · exact h.oneToOne.concat hfresh hnone
  · intro i c hin
    rcases hcases i c hin with hold | ⟨rfl, -⟩
    · exact List.mem_append_left _ (h.answered i c hold)
    · exact List.mem_append_right _ (List.mem_singleton_self _)
  · intro i c hin
    rcases hcases i c hin with hold | ⟨-, rfl⟩
    · exact h.known i c hold
    · exact href
  · -- the stream under the new id is what was waiting in the queue
    intro i c hin
    change (Function.update p.hist.accepted id (p.hist.accepted id ++ sess.payloadList) i).flatten =
      p.hist.readFromA c ∧ p.hist.sentToA c = (p.hist.received i).flatten
    rcases hcases i c hin with hold | ⟨rfl, rfl⟩
    · have hi : i ≠ id := by
        rintro rfl
        exact hfresh c hold
      rw [hacc i hi]
      exact h.carried i c hold
    · obtain ⟨ha, hr⟩ := h.noId i hfresh
      rw [Function.update_self, ha, hr, List.nil_append, hread, h.noConn c hnone]
      exact ⟨rfl, rfl⟩
  · intro i hn
    have hi : i ≠ id := by
      rintro rfl
      exact hn ref (List.mem_append_right _ (List.mem_singleton_self _))
    change Function.update p.hist.accepted id (p.hist.accepted id ++ sess.payloadList) i = [] ∧
      p.hist.received i = []
    rw [hacc i hi]
    exact h.noId i (fun c hin => hn c (List.mem_append_left _ hin))
  · intro c hn
    exact h.noConn c (fun i hin => hn i (List.mem_append_left _ hin))

/-- **The account survives every event outside `handleControlMessage`.** -/
theorem local_effect (h : StreamInv p) (hrefs : RefInv p) {e : Event} {p' : KcpProxy}
    (heff : Effect p e p') (hloc : ∀ msg, e ≠ .control msg)
    (hlen : ∀ c data, e = .message c data → data.length ≤ maxRead) : StreamInv p' := by
  cases heff with
  | connUp => exact h.connUp
  | @connDown c₀ sess hs =>
      have hview := lockSess_onDisconnected p c₀ sess
      -- of the history only the control traffic changes
      refine h.frame (fun c sess' hs' => ⟨sess', (hview c).symm.trans hs', rfl, rfl⟩)
        (nextConnId_onDisconnected _ _ _) ?_ ?_ ?_ ?_ ?_ ?_
      all_goals rw [hist_onDisconnected]
      all_goals first | rfl | exact fun id hid => hid
  | @connDestroyed c₀ hdead =>
      refine h.frame ?_ rfl rfl (fun id hid => hid) rfl rfl rfl rfl
      intro c sess' hs'
      rw [lockSess_onConnDestroyed] at hs'
      exact ⟨sess', (Option.ite_none_left_eq_some.mp hs').2, rfl, rfl⟩
  | @message c sess data hs hne =>
      obtain ⟨-, hphase⟩ := hrefs.of_liveSess hs
      have hlock := (liveSess_eq_some_iff.mp hs).2
      have hc := hrefs.lt_next hs
      have hdata := hlen c data rfl
      by_cases h0 : sess.id = 0
      · exact h.message_waiting hlock h0 (hphase.kcp_of_eq_zero h0) hc hdata
      · obtain ⟨kcp, hkcp, hcfg⟩ := hphase.kcp_of_ne_zero h0
        exact h.message_initialised hlock h0 hkcp hcfg hc hdata
  | controlDatagram hconv hparse =>
      exact h.frame (fun c s hs => ⟨s, hs, rfl, rfl⟩) rfl rfl (fun id hid => hid) rfl rfl rfl rfl
  | unknownConv hconv hmap =>
      exact h.frame (fun c s hs => ⟨s, hs, rfl, rfl⟩) rfl rfl (fun id hid => hid) rfl rfl rfl rfl
  | quiet hconv hmap ht => exact h.touch ht
  | deliver hconv hmap ht hs hid =>
      exact (h.touch ht).connSend _ (liveSess_eq_some_iff.mp hs).2 (hid ▸ hconv)
        ((hrefs.touch ht).of_liveSess hs).1
  | timer ht => exact h.touch ht
  | rspUnused hcmd hempty => exact absurd rfl (hloc _)
  | rspGiven hcmd hlist hs hinit => exact absurd rfl (hloc _)
  | destroyHeld hcmd hmap => exact absurd rfl (hloc _)
  | ignored hcmd => exact absurd rfl (hloc _)

/-- **The account survives a response** that names a new id. -/
theorem response (h : StreamInv p) (hrefs : RefInv p) {id : IUINT32} {p' : KcpProxy}
    (heff : Effect p (.control (rspMsg id)) p') (hne : id ≠ 0) (hnew : id ∉ p.hist.rspSeen) :
    StreamInv p' := by
  rcases heff.response with ⟨-, rfl⟩ | ⟨ref, rest, sess, sess', accepted, hlist, hs, hinit, rfl⟩
  · exact h.frame (fun c s hs => ⟨s, hs, rfl, rfl⟩) rfl rfl
      (fun id hid => List.mem_append_left _ hid) rfl rfl rfl rfl
  · have h0 := (hrefs.init_front hlist hs hinit hne).1
    exact h.giveId (liveSess_eq_some_iff.mp hs).2 h0
      ((hrefs.of_liveSess hs).2.kcp_of_eq_zero h0) hinit (hrefs.lt_next hs) hne hnew

end StreamInv
end KcpProxy
end Proxy
end UdpSpeed
