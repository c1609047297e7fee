/-
  UdpSpeed.Tunnel.Datagrams

  Whether a datagram can bring an endpoint down.  Datagrams of a session's conv
  cannot: `recvFromTunnel` and `extractTunnelPayload` treat every negative
  length as "nothing to read".  On conv 0 the calls return exactly as long as
  every datagram is one that `parseMsg` digests.
-/

import UdpSpeed.Control.Datagram
import UdpSpeed.Proxy.Effect
import UdpSpeed.Server.Effect

namespace UdpSpeed

open Kcp Control Muduo Std

/-! ## The proxy -/

namespace Proxy.KcpProxy

/-- No response names the id `0`; no server issues it.  (As the code stands no
    control message gets through `parseMsg`; the runs below may hold them all
    the same.) -/
def rspNonzero (_ : KcpProxy) : Event → Bool
  | .control msg => readCmd msg ≠ rspCreateSession || readId msg ≠ 0
  | _ => true

/-- The call of `onKcpTunnelMessage` for this event, if it is one, returns. -/
def DatagramReturns (p : KcpProxy) : Event → Prop
  | .datagram bytes => ∃ p', p.onKcpTunnelMessage bytes = .ok p'
  | _ => True

/-- The event is no conv-0 datagram, or the control session digests it. -/
def DatagramDigested (p : KcpProxy) : Event → Prop
  | .datagram bytes => datagramConv bytes = 0 → p.controlSess.Digests (bytes.take 4096)
  | _ => True

theorem Effect.usesControl {p p' : KcpProxy} {e : Event} (heff : Effect p e p') :
    p.controlSess.Used p'.controlSess := by
  rcases heff.control_cases with ⟨hsame, -⟩ | ⟨msg, -, hsent, -⟩ | ⟨_, _, hparse, -⟩
  · rw [hsame]
    exact .same
  · rw [hsent]
    exact .sent msg
  · exact .parsed hparse

/-- What the calls rely on: references that lock, and a control session in
    shape. -/
structure ReceiveInv (p : KcpProxy) : Prop where
  refs : RefInv p
  control : p.controlSess.Ready

theorem ReceiveInv.create : ReceiveInv KcpProxy.create where
  refs := .create
  control := ControlSession.ready_create

theorem ReceiveInv.step {p p' : KcpProxy} {e : Event} (h : ReceiveInv p)
    (hstep : EventSystem.restrict KcpProxy.step rspNonzero p e = some p') : ReceiveInv p' := by
  obtain ⟨hrsp, hstep⟩ := EventSystem.restrict_eq_some.mp hstep
  obtain ⟨hen, hok⟩ := step_eq_some.mp hstep
  have heff := h.refs.handle_effect hen hok
  -- a response for id `0` would leave a session that looks as if it still waited
  refine ⟨h.refs.effect ?_ heff, heff.usesControl.ready h.control⟩
  rintro msg rfl hcmd hid
  simp [rspNonzero, hcmd, hid] at hrsp

/-- One call of `onKcpTunnelMessage`. -/
theorem ReceiveInv.returns_iff_digested {p : KcpProxy} (h : ReceiveInv p) (e : Event) :
    p.DatagramReturns e ↔ p.DatagramDigested e := by
  cases e with
  | datagram bytes =>
      change (∃ p', p.handle (.datagram bytes) = .ok p') ↔
        (datagramConv bytes = 0 → p.controlSess.Digests (bytes.take 4096))
      rw [← h.control.parseMsg_returns_iff]
      constructor
      · rintro ⟨p', hok⟩ hconv
        -- a handler that returns on conv 0 has parsed the datagram
        cases h.refs.handle_effect rfl hok with
        | controlDatagram _ hparse => exact ⟨_, hparse⟩
        | unknownConv hne => exact absurd hconv hne
        | quiet hne => exact absurd hconv hne
        | deliver hne => exact absurd hconv hne
      · intro hparse
        obtain ⟨p', hok, -⟩ := h.refs.datagram_spec bytes (by
          intro hconv
          obtain hret | ⟨a, herr⟩ := p.controlSess.parseMsg_cases (bytes.take 4096)
          · exact hret
          · obtain ⟨r, hr⟩ := hparse hconv
            rw [herr] at hr
            cases hr)
        exact ⟨p', hok⟩
  | _ => exact Iff.rfl

end Proxy.KcpProxy

/-! ## The server -/

namespace Server.KcpServer

/-- The call of `dispatchKcpPacket` for this event, if it is one, returns. -/
def DatagramReturns (s : KcpServer) : Event → Prop
  | .datagram bytes remote now => ∃ s', s.dispatchKcpPacket (bytes.take 4096) remote now = .ok s'
  | _ => True

/-- The event is no conv-0 datagram with a sequence number, or the control
    session digests it. -/
def DatagramDigested (s : KcpServer) : Event → Prop
  | .datagram bytes _ _ => ikcpGetsn (bytes.take 4096) ≠ -1 → ikcpGetconv (bytes.take 4096) = 0 →
      s.controlSess.Digests (bytes.take 4096)
  | _ => True

theorem Effect.usesControl {s s' : KcpServer} {e : Event} (heff : Effect s e s') :
    s.controlSess.Used s'.controlSess := by
  rcases heff.control_cases with ⟨hsame, -⟩ | ⟨id, hsent, -⟩ | ⟨_, _, _, _, -, hparse, -⟩
  · rw [hsame]
    exact .same
  · rw [hsent]
    exact .sent (rspMsg id)
  · exact .parsed hparse

/-- What the calls rely on: a sound heap, and a control session in shape. -/
structure ReceiveInv (s : KcpServer) : Prop where
  heap : HeapInv s
  control : s.controlSess.Ready

theorem ReceiveInv.create (id : IUINT32) : ReceiveInv (KcpServer.create id) where
  heap := .create id
  control := ControlSession.ready_create

theorem ReceiveInv.step {s s' : KcpServer} {e : Event} (h : ReceiveInv s)
    (hstep : s.step e = some s') : ReceiveInv s' := by
  obtain ⟨hen, hok⟩ := step_eq_some.mp hstep
  have heff := h.heap.handle_effect hen hok
  exact ⟨h.heap.effect heff, heff.usesControl.ready h.control⟩

/-- One call of `dispatchKcpPacket`. -/
theorem ReceiveInv.returns_iff_digested {s : KcpServer} (h : ReceiveInv s) (e : Event) :
    s.DatagramReturns e ↔ s.DatagramDigested e := by
  cases e with
  | datagram bytes remote now =>
      change (∃ s', s.dispatchKcpPacket (bytes.take 4096) remote now = .ok s') ↔
        (ikcpGetsn (bytes.take 4096) ≠ -1 → ikcpGetconv (bytes.take 4096) = 0 →
          s.controlSess.Digests (bytes.take 4096))
      rw [← h.control.parseMsg_returns_iff]
      unfold dispatchKcpPacket
      split_ifs with hsn hconv
      · exact iff_of_true ⟨s, rfl⟩ (fun hne => absurd hsn hne)
      · obtain ⟨ret, ctl, hparse⟩ | ⟨a, hparse⟩ := s.controlSess.parseMsg_cases (bytes.take 4096)
        · simp only [hparse, handleControlMessages]
          exact iff_of_true ⟨_, rfl⟩ (fun _ _ => ⟨_, rfl⟩)
        · simp only [hparse]
          refine iff_of_false ?_ ?_
          · rintro ⟨_, hok⟩
            cases hok
          · intro hall
            obtain ⟨_, hok⟩ := hall hsn hconv
            cases hok
      · -- a session's own conv: nothing in `recvFromTunnel` can fail
        refine iff_of_true ?_ (fun _ hzero => absurd hzero hconv)
        split
        · exact ⟨_, rfl⟩
        · split <;> exact ⟨_, rfl⟩
  | _ => exact Iff.rfl

end Server.KcpServer

/-! ## Whole runs -/

namespace Tunnel

open Proxy Server

/-- **When datagrams bring no endpoint down.**  In every run, every call of
    `onKcpTunnelMessage` and of `dispatchKcpPacket` returns exactly if every
    conv-0 datagram is digested by the control session that gets it. -/
theorem datagramReturns_iff (proxyEvents : List Proxy.Event) (id : IUINT32)
    (serverEvents : List Server.Event) :
    (EventSystem.EachEvent (EventSystem.restrict KcpProxy.step KcpProxy.rspNonzero)
        KcpProxy.DatagramReturns KcpProxy.create proxyEvents ↔
      EventSystem.EachEvent (EventSystem.restrict KcpProxy.step KcpProxy.rspNonzero)
        KcpProxy.DatagramDigested KcpProxy.create proxyEvents) ∧
    (EventSystem.EachEvent KcpServer.step
        KcpServer.DatagramReturns (KcpServer.create id) serverEvents ↔
      EventSystem.EachEvent KcpServer.step
        KcpServer.DatagramDigested (KcpServer.create id) serverEvents) := by
  constructor
  · exact EventSystem.eachEvent_congr (fun _ _ _ hI hstep => hI.step hstep)
      (fun _ e hI => hI.returns_iff_digested e) KcpProxy.ReceiveInv.create proxyEvents
  · exact EventSystem.eachEvent_congr (fun _ _ _ hI hstep => hI.step hstep)
      (fun _ e hI => hI.returns_iff_digested e) (KcpServer.ReceiveInv.create id) serverEvents

/-- A window probe on conv 0. -/
def probeDatagram : List Byte := ikcpEncodeSeg { conv := 0, cmd := ikcpCmdWask, wnd := 128 }

/-- 24 bytes from anywhere bring down either endpoint: they are well-formed KCP
    and carry no message. -/
theorem datagram_aborts :
    ¬ EventSystem.EachEvent (EventSystem.restrict KcpProxy.step KcpProxy.rspNonzero)
        KcpProxy.DatagramReturns KcpProxy.create [.datagram probeDatagram] ∧
    ¬ EventSystem.EachEvent KcpServer.step
        KcpServer.DatagramReturns (KcpServer.create 1)
        [.datagram probeDatagram ⟨0x7f000001, 9000⟩ 0] := by
  constructor
  · intro hall
    obtain ⟨p', hok⟩ := hall 0 _ _ rfl rfl
    have hnone : (KcpProxy.create.onKcpTunnelMessage probeDatagram).toOption.isNone := by
      decide +kernel
    rw [hok] at hnone
    cases hnone
  · intro hall
    obtain ⟨s', hok⟩ := hall 0 _ _ rfl rfl
    have hnone : ((KcpServer.create 1).dispatchKcpPacket (probeDatagram.take 4096)
        ⟨0x7f000001, 9000⟩ 0).toOption.isNone := by
      decide +kernel
    rw [hok] at hnone
    cases hnone

end Tunnel
end UdpSpeed
