/-
  UdpSpeed.Proxy.DataSession

  `KcpDataSession` (KcpProxy/KcpDataSession.cpp): the proxy's end of one
  tunnelled connection.  Before the server has answered it has no KCP object
  and queues what it is given; `init` creates the object and drains the queue.
-/

import UdpSpeed.Control.Message
import UdpSpeed.Muduo.Tcp
import UdpSpeed.Kcp.Send
import UdpSpeed.Kcp.Backlog

namespace UdpSpeed

open Kcp

namespace Proxy

/-- Identity of a `TcpConnection` object accepted by the proxy. -/
abbrev ConnId := Nat

/-- Whether a read of a payload returns once the payload has been freed.  C++
    leaves it undefined: a short one is mostly still there, the pages of a long
    one are gone. -/
abbrev FreedRead := List Byte → Bool

/-- `class KcpDataSession`; `conn_` is a weak reference to the connection. -/
structure KcpDataSession where
  kcp : Option IKCPCB
  id : IUINT32
  conn : ConnId
  payloadList : List (List Byte)
deriving DecidableEq, Repr

namespace KcpDataSession

/-- The constructor. -/
def create (conn : ConnId) : KcpDataSession where
  kcp := none
  id := 0
  conn := conn
  payloadList := []

/-- The draining loop of `init`: the object, what is left of the queue and the
    payloads `ikcp_send` accepted.  A refused payload stays at the front and
    ends the loop. -/
def drain : IKCPCB → List (List Byte) → IKCPCB × List (List Byte) × List (List Byte)
  | kcp, [] => (kcp, [], [])
  | kcp, payload :: rest =>
      let send := ikcpSend kcp payload
      -- `break`: what is left stays queued for good
      if send.1 ≠ 0 then (send.2, payload :: rest, [])
      else
        let (kcp, left, accepted) := drain send.2 rest
        (kcp, left, payload :: accepted)

/-- `KcpDataSession::init`, with the payloads it handed to KCP.  The log line of
    the loop reads each of these after `pop_front` has freed it; unless told
    otherwise the reads return. -/
def init (s : KcpDataSession) (id : IUINT32) (returns : FreedRead := fun _ => true) :
    Except Abort (KcpDataSession × List (List Byte)) :=
  if s.kcp.isSome then .error .assertNoKcp
  else
    let (kcp, left, accepted) := drain (freshKcp id) s.payloadList
    -- where in the loop the process dies makes no difference
    if accepted.all returns then
      .ok ({ s with kcp := some kcp, id := id, payloadList := left }, accepted)
    else .error .freedRead

/-- `KcpDataSession::sendToTunnel`, with the payload if KCP accepted it. -/
def sendToTunnel (s : KcpDataSession) (data : List Byte) :
    KcpDataSession × List (List Byte) :=
  match s.kcp with
  | none => ({ s with payloadList := s.payloadList ++ [data] }, [])
  | some kcp =>
      let send := ikcpSend kcp data
      ({ s with kcp := some send.2 }, if send.1 ≠ 0 then [] else [data])

/-- `KcpDataSession::recvFromTunnel` up to the point where the connection is
    locked: the return code, the session and the message read from KCP, if
    any. -/
def recvFromTunnel (s : KcpDataSession) (input : List Byte) :
    Except Abort (Int × KcpDataSession × Option (List Byte)) :=
  match s.kcp with
  | none => .error .nullKcp
  | some kcp =>
      let input := ikcpInput kcp input
      let len := ikcpPeeksize input.2
      let recv := ikcpRecv input.2 len
      -- unlike `parseMsg`, this tests for every length that is not positive
      if input.1 < 0 then .ok (-1, { s with kcp := some input.2 }, none)
      else if len ≤ 0 then .ok (0, { s with kcp := some input.2 }, none)
      else if recv.1 < 0 then .error .assertRet
      else .ok (1, { s with kcp := some recv.2.2 }, some recv.2.1)

/-- `KcpDataSession::update`, with the datagrams it sends. -/
def update (s : KcpDataSession) (clock : IUINT32) :
    Except Abort (KcpDataSession × List (List Byte)) :=
  match s.kcp with
  | none => .error .nullKcp
  | some kcp =>
      let update := ikcpUpdate kcp clock
      .ok ({ s with kcp := some update.1 }, update.2)

/-- The datagrams of the destructor's single `ikcp_flush`. -/
def destroy (s : KcpDataSession) : List (List Byte) :=
  match s.kcp with
  | none => []
  | some kcp => (ikcpFlush kcp).2

/-! ## The two phases of a session -/

/-- What holds of a session in either phase: waiting (no id, no KCP object),
    or initialised with a KCP object of its own id. -/
def Phase (s : KcpDataSession) : Prop :=
  (s.id = 0 ∧ s.kcp = none) ∨ (s.id ≠ 0 ∧ ∃ kcp, s.kcp = some kcp ∧ kcp.cfg = tunnelCfg s.id)

theorem phase_create (conn : ConnId) : (create conn).Phase := Or.inl ⟨rfl, rfl⟩

theorem Phase.kcp_of_ne_zero {s : KcpDataSession} (h : s.Phase) (hid : s.id ≠ 0) :
    ∃ kcp, s.kcp = some kcp ∧ kcp.cfg = tunnelCfg s.id := by
  rcases h with ⟨h0, -⟩ | ⟨-, hkcp⟩
  · exact absurd h0 hid
  · exact hkcp

theorem Phase.kcp_of_eq_zero {s : KcpDataSession} (h : s.Phase) (hid : s.id = 0) :
    s.kcp = none := by
  rcases h with ⟨-, hkcp⟩ | ⟨hne, -⟩
  · exact hkcp
  · exact absurd hid hne

theorem drain_cfg (kcp : IKCPCB) (payloads : List (List Byte)) :
    (drain kcp payloads).1.cfg = kcp.cfg := by
  induction payloads generalizing kcp with
  | nil => rfl
  | cons payload rest ih =>
      simp only [drain]
      split_ifs
      · exact ikcpSend_cfg kcp payload
      · rw [ih, ikcpSend_cfg]

/-- `init` of a session without a KCP object. -/
theorem init_eq {s : KcpDataSession} (hkcp : s.kcp = none) (id : IUINT32) :
    s.init id = .ok
      ({ s with
          kcp := some (drain (freshKcp id) s.payloadList).1
          id := id
          payloadList := (drain (freshKcp id) s.payloadList).2.1 },
        (drain (freshKcp id) s.payloadList).2.2) := by
  simp [init, hkcp]

/-- A read that does not return is all that can be different. -/
theorem init_freed (s : KcpDataSession) (id : IUINT32) (returns : FreedRead) :
    s.init id returns = s.init id ∨ s.init id returns = .error .freedRead := by
  cases hkcp : s.kcp with
  | some kcp =>
      left
      simp only [init, hkcp]
      rfl
  | none =>
      rw [init_eq hkcp]
      unfold init
      rw [if_neg (by rw [hkcp]; decide)]
      dsimp only
      split_ifs
      · exact Or.inl rfl
      · exact Or.inr rfl

/-- Nothing is read after it was freed if nothing was queued. -/
theorem init_of_nil {s : KcpDataSession} (h : s.payloadList = []) (id : IUINT32)
    (returns : FreedRead) : s.init id returns = s.init id := by
  unfold init
  rw [h]
  rfl

/-- `init` on a waiting session succeeds and starts the second phase. -/
theorem init_of_waiting {s : KcpDataSession} (h : s.Phase) (h0 : s.id = 0) {id : IUINT32}
    (hid : id ≠ 0) :
    ∃ s' accepted, s.init id = .ok (s', accepted) ∧ s'.Phase ∧ s'.id = id ∧ s'.conn = s.conn := by
  -- `assert(!kcp_)` holds: a waiting session has no object
  refine ⟨_, _, init_eq (h.kcp_of_eq_zero h0) id, ?_, rfl, rfl⟩
  exact Or.inr ⟨hid, _, rfl, by rw [drain_cfg, freshKcp_cfg]⟩

/-- What `init` leaves when it returns. -/
theorem init_ok {s s' : KcpDataSession} {id : IUINT32} {accepted : List (List Byte)}
    (h : s.init id = .ok (s', accepted)) :
    s' = { s with
        kcp := some (drain (freshKcp id) s.payloadList).1
        id := id
        payloadList := (drain (freshKcp id) s.payloadList).2.1 } ∧
      accepted = (drain (freshKcp id) s.payloadList).2.2 := by
  cases hkcp : s.kcp with
  | some kcp =>
      simp only [init, hkcp] at h
      cases h
  | none =>
      rw [init_eq hkcp] at h
      obtain ⟨hs, haccepted⟩ := Prod.mk.inj (Except.ok.inj h)
      exact ⟨hs.symm, haccepted.symm⟩

theorem init_id {s s' : KcpDataSession} {id : IUINT32}
    {accepted : List (List Byte)} (h : s.init id = .ok (s', accepted)) : s'.id = id := by
  obtain ⟨rfl, -⟩ := init_ok h
  rfl

@[simp] theorem sendToTunnel_id (s : KcpDataSession) (data : List Byte) :
    (s.sendToTunnel data).1.id = s.id := by
  unfold sendToTunnel
  split <;> rfl

@[simp] theorem sendToTunnel_conn (s : KcpDataSession) (data : List Byte) :
    (s.sendToTunnel data).1.conn = s.conn := by
  unfold sendToTunnel
  split <;> rfl

theorem sendToTunnel_phase {s : KcpDataSession} (h : s.Phase) (data : List Byte) :
    (s.sendToTunnel data).1.Phase := by
  rcases h with ⟨hid, hkcp⟩ | ⟨hid, kcp, hkcp, hcfg⟩
  · exact Or.inl ⟨by simpa using hid, by simp [sendToTunnel, hkcp]⟩
  · refine Or.inr ⟨by simpa using hid, _, by simp [sendToTunnel, hkcp]; rfl, ?_⟩
    simp [sendToTunnel_id, hcfg]

/-- Before `init` a chunk is queued. -/
theorem sendToTunnel_of_none {s : KcpDataSession} (hkcp : s.kcp = none) (data : List Byte) :
    s.sendToTunnel data = ({ s with payloadList := s.payloadList ++ [data] }, []) := by
  simp only [sendToTunnel, hkcp]

/-- After `init` KCP takes every chunk muduo can deliver. -/
theorem sendToTunnel_of_some {s : KcpDataSession} {kcp : IKCPCB} (hkcp : s.kcp = some kcp)
    (hcfg : kcp.cfg = tunnelCfg s.id) {data : List Byte} (hlen : data.length ≤ Muduo.maxRead) :
    s.sendToTunnel data = ({ s with kcp := some (ikcpSend kcp data).2 }, [data]) := by
  simp only [sendToTunnel, hkcp, ikcpSend_accepts hcfg hlen, ne_eq, not_true_eq_false, if_false]

/-- `init` hands the whole queue to KCP: its early return is never taken. -/
theorem drain_eq {kcp : IKCPCB} {conv : IUINT32} (hcfg : kcp.cfg = tunnelCfg conv)
    {payloads : List (List Byte)} (hlen : ∀ payload ∈ payloads, payload.length ≤ Muduo.maxRead) :
    drain kcp payloads =
      (payloads.foldl (fun kcp payload => (ikcpSend kcp payload).2) kcp, [], payloads) := by
  induction payloads generalizing kcp with
  | nil => rfl
  | cons payload rest ih =>
      -- one muduo read is never too long for `ikcp_send`
      have hsend := ikcpSend_accepts hcfg (hlen payload (List.mem_cons_self ..))
      have hrest := ih ((ikcpSend_cfg kcp payload).trans hcfg)
        (fun x hx => hlen x (List.mem_cons_of_mem _ hx))
      simp only [drain, hsend, ne_eq, not_true_eq_false, if_false, hrest, List.foldl_cons]

/-- What `recvFromTunnel` does to the KCP object.  It returns whatever the bytes:
    the `assert(ret >= 0)` holds because the length was just peeked. -/
theorem recvFromTunnel_kcp {s : KcpDataSession} {kcp : IKCPCB} (hkcp : s.kcp = some kcp)
    (input : List Byte) :
    ∃ ret msg, s.recvFromTunnel input = .ok (ret, { s with kcp := some (receiveOnce kcp input) },
      msg) := by
  unfold recvFromTunnel receiveOnce
  simp only [hkcp]
  -- rejected, nothing to read, or a message
  by_cases h1 : (ikcpInput kcp input).1 < 0
  · rw [if_pos h1, if_pos h1]
    exact ⟨_, _, rfl⟩
  rw [if_neg h1, if_neg h1]
  by_cases h2 : ikcpPeeksize (ikcpInput kcp input).2 ≤ 0
  · rw [if_pos h2, if_pos h2]
    exact ⟨_, _, rfl⟩
  rw [if_neg h2, if_neg h2]
  have hsome : 0 ≤ ikcpPeeksize (ikcpInput kcp input).2 := by omega
  rw [(ikcpRecv_peeksize hsome).1, if_neg (by omega)]
  exact ⟨_, _, rfl⟩

/-- On an initialised session it keeps everything else. -/
theorem recvFromTunnel_of_ready {s : KcpDataSession} (h : s.Phase) (hid : s.id ≠ 0)
    (input : List Byte) :
    ∃ ret s' msg, s.recvFromTunnel input = .ok (ret, s', msg) ∧ s'.Phase ∧ s'.id = s.id ∧
      s'.conn = s.conn ∧ s'.payloadList = s.payloadList := by
  obtain ⟨kcp, hkcp, hcfg⟩ := h.kcp_of_ne_zero hid
  obtain ⟨ret, msg, hrecv⟩ := recvFromTunnel_kcp hkcp input
  have hcfg' := (receiveOnce_cfg kcp input).trans hcfg
  exact ⟨ret, _, msg, hrecv, Or.inr ⟨hid, _, rfl, hcfg'⟩, rfl, rfl, rfl⟩

theorem update_of_ready {s : KcpDataSession} (h : s.Phase) (hid : s.id ≠ 0) (clock : IUINT32) :
    ∃ s' out, s.update clock = .ok (s', out) ∧ s'.Phase ∧ s'.id = s.id ∧ s'.conn = s.conn ∧
      s'.payloadList = s.payloadList := by
  obtain ⟨kcp, hkcp, hcfg⟩ := h.kcp_of_ne_zero hid
  have hupd : s.update clock =
      .ok ({ s with kcp := some (ikcpUpdate kcp clock).1 }, (ikcpUpdate kcp clock).2) := by
    simp only [update, hkcp]
  refine ⟨_, _, hupd, Or.inr ⟨hid, _, rfl, ?_⟩, rfl, rfl, rfl⟩
  rw [ikcpUpdate_cfg]
  exact hcfg

end KcpDataSession
end Proxy
end UdpSpeed
