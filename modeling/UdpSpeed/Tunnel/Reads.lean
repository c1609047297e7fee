/-
  UdpSpeed.Tunnel.Reads

  What one TCP read brings is never too much for `ikcp_send`: an input buffer
  that is emptied in every message callback holds at most 131071 bytes, which are
  96 fragments.  So no chunk is refused, neither at once nor when a session
  hands over what it has queued.
-/

import UdpSpeed.Muduo.Reading
import UdpSpeed.Proxy.Sessions
import UdpSpeed.Server.Effect

namespace UdpSpeed

open Kcp Muduo

namespace Kcp

/-- `ikcp_send` cuts the message into fewer than 128 fragments and returns `0`. -/
def IKCPCB.SendsWhole (kcp : IKCPCB) (data : List Byte) : Prop :=
  kcp.cfg.mss = 1376 ∧ fragmentCount kcp.cfg data.length < 128 ∧ (ikcpSend kcp data).1 = 0

theorem sendsWhole_of_le {kcp : IKCPCB} {conv : IUINT32} (hcfg : kcp.cfg = tunnelCfg conv)
    {data : List Byte} (hlen : data.length ≤ maxRead) : kcp.SendsWhole data := by
  refine ⟨?_, ?_, ikcpSend_accepts hcfg hlen⟩
  · rw [hcfg]
    rfl
  · rw [hcfg]
    exact fragmentCount_lt conv hlen

end Kcp

/-! ## One connection -/

namespace Muduo
namespace Buffer

/-- A read that stays within what is offered, and `retrieveAll` in the callback. -/
def handleRead (b : Buffer) (data : List Byte) : Option Buffer :=
  if 0 < data.length ∧ data.length ≤ b.offered then some (b.readFd data).retrieveAll else none

/-- At the callback at most 131071 bytes are readable. -/
def SmallCallback (b : Buffer) (data : List Byte) : Prop :=
  0 < data.length → data.length ≤ b.offered → (b.readFd data).readableBytes ≤ 131071

theorem Drained.handleRead {b b' : Buffer} {data : List Byte} (h : b.Drained)
    (hread : b.handleRead data = some b') : b'.Drained := by
  obtain ⟨⟨-, hlen⟩, heq⟩ := Option.ite_none_right_eq_some.mp hread
  obtain rfl := Option.some.inj heq
  exact h.readFd hlen

theorem Drained.smallCallback {b : Buffer} (h : b.Drained) (data : List Byte) :
    b.SmallCallback data := by
  intro _ hlen
  rw [← length_peek, peek_readFd, h.peek_eq, List.nil_append]
  exact hlen.trans h.offered_le

end Buffer
end Muduo

/-! ## The proxy -/

namespace Proxy

/-- The KCP object is configured as all are, and what is queued was read. -/
structure KcpDataSession.Accepting (s : KcpDataSession) : Prop where
  cfg : ∀ kcp, s.kcp = some kcp → ∃ conv, kcp.cfg = tunnelCfg conv
  queued : ∀ payload ∈ s.payloadList, payload.length ≤ maxRead

namespace KcpDataSession

/-- Only the KCP object changed, and not its configuration. -/
theorem Accepting.withKcp {s : KcpDataSession} (h : s.Accepting) {kcp kcp' : IKCPCB}
    (hkcp : s.kcp = some kcp) (hcfg : kcp'.cfg = kcp.cfg) :
    { s with kcp := some kcp' }.Accepting where
  cfg := by
    intro k hk
    obtain rfl := Option.some.inj hk
    rw [hcfg]
    exact h.cfg kcp hkcp
  queued := h.queued

/-- Every call of a session keeps it, one read at a time. -/
theorem accepting_rule : SessRule (fun data => data.length ≤ maxRead) Accepting where
  create := by
    intro c
    refine ⟨?_, ?_⟩
    · intro kcp hkcp
      cases hkcp
    · intro payload hin
      cases hin
  init := by
    intro s s' id accepted h hinit
    obtain ⟨hs', -⟩ := init_ok hinit
    rw [drain_eq (freshKcp_cfg id) h.queued] at hs'
    subst hs'
    refine ⟨?_, ?_⟩
    · intro kcp hkcp
      obtain rfl := Option.some.inj hkcp
      refine ⟨id, ?_⟩
      have hcfg := drain_cfg (freshKcp id) s.payloadList
      rw [drain_eq (freshKcp_cfg id) h.queued, freshKcp_cfg] at hcfg
      exact hcfg
    · intro payload hin
      cases hin
  sendToTunnel := by
    intro s data h hlen
    cases hkcp : s.kcp with
    | none =>
        rw [sendToTunnel_of_none hkcp]
        refine ⟨h.cfg, ?_⟩
        intro payload hin
        rcases List.mem_append.mp hin with hold | hnew
        · exact h.queued payload hold
        · rw [List.mem_singleton.mp hnew]
          exact hlen
    | some kcp =>
        simp only [KcpDataSession.sendToTunnel, hkcp]
        exact h.withKcp hkcp (ikcpSend_cfg kcp data)
  recvFromTunnel := by
    intro s s' input ret msg h hrecv
    cases hkcp : s.kcp with
    | none =>
        simp only [KcpDataSession.recvFromTunnel, hkcp] at hrecv
        cases hrecv
    | some kcp =>
        obtain ⟨_, _, heq⟩ := recvFromTunnel_kcp hkcp input
        rw [heq] at hrecv
        obtain ⟨-, rfl, -⟩ := Except.ok.inj hrecv
        exact h.withKcp hkcp (receiveOnce_cfg kcp input)
  update := by
    intro s s' clock out h hupd
    cases hkcp : s.kcp with
    | none =>
        simp only [KcpDataSession.update, hkcp] at hupd
        cases hupd
    | some kcp =>
        simp only [KcpDataSession.update, hkcp] at hupd
        obtain ⟨rfl, -⟩ := Prod.mk.inj (Except.ok.inj hupd)
        exact h.withKcp hkcp (ikcpUpdate_cfg kcp clock)

end KcpDataSession

namespace KcpProxy

/-- The proxy and the reads of its connections. -/
def reader : Reader KcpProxy Event ConnId where
  step := step
  message := .message
  isMessage := fun e =>
    match e with
    | .message .. => true
    | _ => false
  isMessage_message := fun _ _ => rfl
  data_eq := fun heq => (Event.message.inj heq).2

/-- No call of `ikcp_send` on a session's object fails: not the one for the bytes
    that a read has put into the buffer, and, whenever `init` may come, none of
    its loop over the queue. -/
def NoneRefused (s : Buffered KcpProxy ConnId) (e : BufferedEvent Event ConnId) : Prop :=
  (∀ c data, e = .handleRead c data → s.reads c data →
    ((s.inputBuffer c).readFd data).readableBytes ≤ 131071 ∧
      ∀ sess kcp, s.proc.lockSess c = some sess → sess.kcp = some kcp →
        kcp.SendsWhole ((s.inputBuffer c).readFd data).peek) ∧
    ∀ c sess id, s.proc.lockSess c = some sess →
      (KcpDataSession.drain (freshKcp id) sess.payloadList).2 = ([], sess.payloadList)

/-- What holds between two events. -/
structure ReadInv (s : Buffered KcpProxy ConnId) : Prop where
  drained : s.AllDrained
  sess : AllSess KcpDataSession.Accepting s.proc

theorem ReadInv.create : ReadInv (.create .create) where
  drained := Buffered.allDrained_create _
  sess := allSess_create

theorem ReadInv.step {s s' : Buffered KcpProxy ConnId} {e : BufferedEvent Event ConnId}
    (h : ReadInv s) (hstep : reader.bufferedStep s e = some s') : ReadInv s' where
  drained := reader.drained_step h.drained hstep
  sess := by
    apply h.sess.step KcpDataSession.accepting_rule
    · intro c data heq
      exact reader.data_le h.drained hstep heq
    · exact reader.plain_step h.drained hstep

theorem ReadInv.noneRefused {s : Buffered KcpProxy ConnId} (h : ReadInv s)
    (e : BufferedEvent Event ConnId) : NoneRefused s e := by
  constructor
  · intro c data _ hreads
    obtain ⟨hpeek, -, hlen⟩ := h.drained.callback hreads
    rw [← Buffer.length_peek, hpeek]
    refine ⟨hlen, ?_⟩
    intro sess kcp hlock hkcp
    obtain ⟨conv, hcfg⟩ := (h.sess c sess hlock).cfg kcp hkcp
    exact sendsWhole_of_le hcfg hlen
  · intro c sess id hlock
    rw [KcpDataSession.drain_eq (freshKcp_cfg id) (h.sess c sess hlock).queued]

end KcpProxy
end Proxy

/-! ## The server -/

namespace Server
namespace KcpServer

/-- The server and the reads of its connections to D, which belong to the
    sessions. -/
def reader : Reader KcpServer Event SessRef where
  step := step
  message := .message
  isMessage := fun e =>
    match e with
    | .message .. => true
    | _ => false
  isMessage_message := fun _ _ => rfl
  data_eq := fun heq => (Event.message.inj heq).2

/-- `ikcp_send` takes the bytes that a read has put into the buffer, so that
    `assert(sendRet == 0)` of `onMessage` holds. -/
def NoneRefused (s : Buffered KcpServer SessRef) (e : BufferedEvent Event SessRef) : Prop :=
  ∀ ref data, e = .handleRead ref data → s.reads ref data →
    ((s.inputBuffer ref).readFd data).readableBytes ≤ 131071 ∧
      ∀ sess, s.proc.sessions[ref]? = some sess →
        sess.kcp.SendsWhole ((s.inputBuffer ref).readFd data).peek ∧
          ∃ sess', sess.onMessage ((s.inputBuffer ref).readFd data).peek = .ok sess'

/-- What holds between two events. -/
structure ReadInv (s : Buffered KcpServer SessRef) : Prop where
  drained : s.AllDrained
  heap : HeapInv s.proc

theorem ReadInv.create (id : IUINT32) : ReadInv (.create (.create id)) where
  drained := Buffered.allDrained_create _
  heap := .create id

theorem ReadInv.step {s s' : Buffered KcpServer SessRef} {e : BufferedEvent Event SessRef}
    (h : ReadInv s) (hstep : reader.bufferedStep s e = some s') : ReadInv s' where
  drained := reader.drained_step h.drained hstep
  heap := h.heap.step (reader.plain_step h.drained hstep)

theorem ReadInv.noneRefused {s : Buffered KcpServer SessRef} (h : ReadInv s)
    (e : BufferedEvent Event SessRef) : NoneRefused s e := by
  intro ref data _ hreads
  obtain ⟨hpeek, -, hlen⟩ := h.drained.callback hreads
  rw [← Buffer.length_peek, hpeek]
  refine ⟨hlen, ?_⟩
  intro sess hs
  have hwhole := sendsWhole_of_le (h.heap.sound ref sess hs).cfg hlen
  refine ⟨hwhole, ?_⟩
  unfold KcpServerSession.onMessage
  exact ⟨_, if_neg (not_not.mpr hwhole.2.2)⟩

end KcpServer
end Server

namespace Tunnel

open Proxy Server

/-- **A read never exceeds what KCP accepts**: not on a connection by itself,
    whatever the reads before it, and not in either process, whatever else
    happens between them. -/
theorem reads_accepted :
    (∀ reads : List (List Byte),
      EventSystem.EachEvent Buffer.handleRead Buffer.SmallCallback .create reads) ∧
    (∀ events : List (BufferedEvent Proxy.Event ConnId),
      EventSystem.EachEvent KcpProxy.reader.bufferedStep KcpProxy.NoneRefused
        (.create .create) events) ∧
    (∀ (id : IUINT32) (events : List (BufferedEvent Server.Event SessRef)),
      EventSystem.EachEvent KcpServer.reader.bufferedStep KcpServer.NoneRefused
        (.create (.create id)) events) := by
  refine ⟨?_, ?_, ?_⟩
  · intro reads k b data hrun _
    have hdrained : b.Drained :=
      EventSystem.run_invariant (fun _ _ _ h hread => h.handleRead hread) Buffer.drained_create hrun
    exact hdrained.smallCallback data
  · intro events k s e hrun _
    have hinv : KcpProxy.ReadInv s :=
      EventSystem.run_invariant (fun _ _ _ h hstep => h.step hstep) .create hrun
    exact hinv.noneRefused e
  · intro id events k s e hrun _
    have hinv : KcpServer.ReadInv s :=
      EventSystem.run_invariant (fun _ _ _ h hstep => h.step hstep) (.create id) hrun
    exact hinv.noneRefused e

end Tunnel
end UdpSpeed
