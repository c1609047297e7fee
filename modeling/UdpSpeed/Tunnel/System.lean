/-
  UdpSpeed.Tunnel.System

  One proxy and one server together.  The two control directions are reliable
  FIFO channels into the peer's `handleControlMessage`: a channel is what the
  sender has given to `sendMsg`, less what the receiver has already handled.
  Data datagrams arrive with any bytes, in any order, any number of times.

  A server handler that aborts takes the server down; the proxy goes on.
-/

import UdpSpeed.Lib.FreshCounter
import UdpSpeed.Proxy.Effect
import UdpSpeed.Proxy.Destroy
import UdpSpeed.Server.Effect

namespace UdpSpeed

open Kcp Control Muduo Std

namespace Tunnel

open Proxy (KcpProxy ConnId KcpDataSession)
open Server (KcpServer SockAddr)

/-! ## State and events -/

/-- The two processes and the state of the control channels. -/
structure System where
  proxy : KcpProxy
  server : KcpServer
  serverUp : Bool
  /-- control messages of the proxy that the server has handled -/
  toServer : Nat
  /-- control messages of the server that the proxy has handled -/
  toProxy : Nat

inductive Event where
  | proxy (e : Proxy.Event)
  | server (e : Server.Event)
  | deliverToServer (remote : SockAddr) (now : Int)
  | deliverToProxy
deriving DecidableEq, Repr

namespace System

/-- Both processes have just started; `id` is the server's clock. -/
def create (id : IUINT32) : System where
  proxy := .create
  server := .create id
  serverUp := true
  toServer := 0
  toProxy := 0

/-- The control messages on their way to the server. -/
def ctlToServer (t : System) : List (List Byte) := t.proxy.hist.ctlSent.drop t.toServer

/-- The control messages on their way to the proxy. -/
def ctlToProxy (t : System) : List (List Byte) := t.server.hist.ctlSent.drop t.toProxy

/-- The proxy's own events; control traffic goes through the channel. -/
def proxyLocal : Proxy.Event → Bool
  | .datagram bytes => KcpProxy.datagramConv bytes ≠ 0
  | .message _ data => data.length ≤ maxRead
  | .control _ => false
  | _ => true

/-- The server's own events; control traffic goes through the channel. -/
def serverLocal : Server.Event → Bool
  | .datagram bytes _ _ => ikcpGetconv (bytes.take 4096) ≠ 0
  | .message _ data => data.length ≤ maxRead
  | .control .. => false
  | _ => true

/-- The system after a server handler. -/
def serverDone (t : System) : Except Abort KcpServer → System
  | .ok server => { t with server := server }
  | .error _ => { t with serverUp := false }

/-- The step function. -/
def step (t : System) : Event → Option System
  | .proxy e =>
      if proxyLocal e then (t.proxy.step e).map (fun p => { t with proxy := p }) else none
  | .server e =>
      if serverLocal e && t.serverUp && t.server.enabled e then
        some (t.serverDone (t.server.handle e))
      else none
  | .deliverToServer remote now =>
      match t.ctlToServer with
      | [] => none
      | msg :: _ =>
          if t.serverUp then
            some ({ t with toServer := t.toServer + 1 }.serverDone
              (t.server.handle (.control msg remote now)))
          else none
  | .deliverToProxy =>
      match t.ctlToProxy with
      | [] => none
      | msg :: _ =>
          (t.proxy.step (.control msg)).map
            (fun p => { t with proxy := p, toProxy := t.toProxy + 1 })

/-- A state of a system whose server started with some value of the clock. -/
def SystemReachable (t : System) : Prop :=
  EventSystem.Reachable step (fun t₀ => ∃ id, t₀ = create id) t

/-! ## The channels -/

/-- What holds of the processes and the channels in every reachable state: the
    server answers each CREATE with the id it issued, and the proxy has handled
    the first `toProxy` answers. -/
structure LinkInv (t : System) : Prop where
  refs : t.proxy.RefInv
  heap : t.server.HeapInv
  requests : ∀ msg ∈ t.proxy.hist.ctlSent, msg = createMsg ∨ ∃ id, msg = destroyMsg id
  requested : t.toServer ≤ t.proxy.hist.ctlSent.length
  responses : t.server.hist.ctlSent = t.server.hist.issued.map rspMsg
  nonzero : ∀ id ∈ t.server.hist.issued, id ≠ 0
  delivered : t.toProxy ≤ t.server.hist.issued.length
  seen : t.proxy.hist.rspSeen = t.server.hist.issued.take t.toProxy
  answered : t.proxy.IdsAnswered

/-- Every outcome of an event. -/
inductive Outcome (t : System) : Event → System → Prop where
  | proxy {e : Proxy.Event} {p' : KcpProxy} (hloc : proxyLocal e)
      (hok : t.proxy.handle e = .ok p') (heff : t.proxy.Effect e p') :
      Outcome t (.proxy e) { t with proxy := p' }
  | server {e : Server.Event} {s' : KcpServer} (hloc : serverLocal e)
      (heff : t.server.Effect e s') : Outcome t (.server e) { t with server := s' }
  | abort {e : Server.Event} {a : Abort} (herr : t.server.handle e = .error a) :
      Outcome t (.server e) { t with serverUp := false }
  | request {remote : SockAddr} {now : Int} {rest : List (List Byte)}
      (hctl : t.ctlToServer = createMsg :: rest) :
      Outcome t (.deliverToServer remote now)
        { t with server := t.server.handleCreate remote now, toServer := t.toServer + 1 }
  | destroy {remote : SockAddr} {now : Int} {id : IUINT32} {rest : List (List Byte)}
      (hctl : t.ctlToServer = destroyMsg id :: rest) :
      Outcome t (.deliverToServer remote now)
        { t with server := t.server.handleDestroy id, toServer := t.toServer + 1 }
  | response {id : IUINT32} {p' : KcpProxy} (hnext : t.server.hist.issued[t.toProxy]? = some id)
      (hok : t.proxy.handle (.control (rspMsg id)) = .ok p')
      (heff : t.proxy.Effect (.control (rspMsg id)) p') :
      Outcome t .deliverToProxy { t with proxy := p', toProxy := t.toProxy + 1 }

namespace LinkInv

variable {t : System}

theorem create (id : IUINT32) : LinkInv (System.create id) where
  refs := .create
  heap := .create id
  requests := by
    intro msg hmsg
    simp [System.create, KcpProxy.create] at hmsg
  requested := le_rfl
  responses := rfl
  nonzero := by
    intro i hi
    simp [System.create, KcpServer.create] at hi
  delivered := le_rfl
  seen := rfl
  answered := by
    intro c sess hs
    simp [System.create, KcpProxy.create, KcpProxy.lockSess] at hs

/-- The next answer on its way. -/
theorem ctlToProxy_cons (h : LinkInv t) {msg : List Byte} {rest : List (List Byte)}
    (hctl : t.ctlToProxy = msg :: rest) :
    ∃ id, t.server.hist.issued[t.toProxy]? = some id ∧ msg = rspMsg id := by
  have hget : t.server.hist.ctlSent[t.toProxy]? = some msg := by
    have hhead := congrArg List.head? hctl
    rwa [ctlToProxy, List.head?_drop, List.head?_cons] at hhead
  rw [h.responses, List.getElem?_map, Option.map_eq_some_iff] at hget
  obtain ⟨id, hid, hmsg⟩ := hget
  exact ⟨id, hid, hmsg.symm⟩

theorem ctlToServer_cons (h : LinkInv t) {msg : List Byte} {rest : List (List Byte)}
    (hctl : t.ctlToServer = msg :: rest) : msg = createMsg ∨ ∃ id, msg = destroyMsg id := by
  refine h.requests msg (List.mem_of_mem_drop (i := t.toServer) ?_)
  change msg ∈ t.ctlToServer
  rw [hctl]
  exact List.mem_cons_self ..

theorem requested_of_cons {msg : List Byte} {rest : List (List Byte)}
    (hctl : t.ctlToServer = msg :: rest) : t.toServer + 1 ≤ t.proxy.hist.ctlSent.length := by
  have hlen := congrArg List.length hctl
  rw [ctlToServer, List.length_drop, List.length_cons] at hlen
  omega

/-- **Every step has one of the listed outcomes.** -/
theorem outcome (h : LinkInv t) {e : Event} {t' : System} (hstep : t.step e = some t') :
    Outcome t e t' := by
  cases e with
  | proxy e =>
      simp only [System.step] at hstep
      split_ifs at hstep with hloc
      obtain ⟨p', hp', rfl⟩ := Option.map_eq_some_iff.mp hstep
      obtain ⟨hen, hok⟩ := KcpProxy.step_eq_some.mp hp'
      exact .proxy hloc hok (h.refs.handle_effect hen hok)
  | server e =>
      simp only [System.step] at hstep
      split_ifs at hstep with hcond
      simp only [Bool.and_eq_true] at hcond
      obtain rfl := Option.some.inj hstep
      -- a handler that throws takes the server down, and with it its side of the channels
      cases hok : t.server.handle e with
      | error a => exact .abort hok
      | ok s' => exact .server hcond.1.1 (h.heap.handle_effect hcond.2 hok)
  | deliverToServer remote now =>
      simp only [System.step] at hstep
      split at hstep
      · cases hstep
      · next msg rest hctl =>
          split_ifs at hstep
          obtain rfl := Option.some.inj hstep
          -- only requests are on their way to the server: its `assert(0)` is out of reach
          rcases h.ctlToServer_cons hctl with rfl | ⟨id, rfl⟩
          · exact .request hctl
          · have hhandle : t.server.handle (.control (destroyMsg id) remote now) =
                .ok (t.server.handleDestroy id) := by
              change Except.ok (t.server.handleDestroy (readId (destroyMsg id))) = _
              rw [readId_destroyMsg]
            rw [hhandle]
            exact .destroy hctl
  | deliverToProxy =>
      simp only [System.step] at hstep
      split at hstep
      · cases hstep
      · next msg rest hctl =>
          obtain ⟨p', hp', rfl⟩ := Option.map_eq_some_iff.mp hstep
          obtain ⟨id, hnext, rfl⟩ := h.ctlToProxy_cons hctl
          obtain ⟨hen, hok⟩ := KcpProxy.step_eq_some.mp hp'
          exact .response hnext hok (h.refs.handle_effect hen hok)

/-- What the proxy sends in one event is requests. -/
theorem requests_effect (h : LinkInv t) {e : Proxy.Event} {p' : KcpProxy}
    (heff : t.proxy.Effect e p') :
    (∀ msg ∈ p'.hist.ctlSent, msg = createMsg ∨ ∃ id, msg = destroyMsg id) ∧
      t.toServer ≤ p'.hist.ctlSent.length := by
  obtain ⟨new, hnew, hcmds⟩ := heff.ctlSent
  rw [hnew, List.length_append]
  refine ⟨?_, Nat.le_add_right_of_le h.requested⟩
  intro msg hmsg
  exact (List.mem_append.mp hmsg).elim (h.requests msg) (hcmds msg)

/-- A server event that issues nothing and answers nothing. -/
theorem withServer (h : LinkInv t) {s' : KcpServer} {n : Nat} (hheap : s'.HeapInv)
    (hctl : s'.hist.ctlSent = t.server.hist.ctlSent)
    (hissued : s'.hist.issued = t.server.hist.issued)
    (hn : n ≤ t.proxy.hist.ctlSent.length) :
    LinkInv { t with server := s', toServer := n } := by
  refine ⟨h.refs, hheap, h.requests, hn, ?_, ?_, ?_, ?_, h.answered⟩
  · change s'.hist.ctlSent = s'.hist.issued.map rspMsg
    rw [hctl, hissued]
    exact h.responses
  · change ∀ id ∈ s'.hist.issued, id ≠ 0
    rw [hissued]
    exact h.nonzero
  · change t.toProxy ≤ s'.hist.issued.length
    rw [hissued]
    exact h.delivered
  · change _ = s'.hist.issued.take t.toProxy
    rw [hissued]
    exact h.seen

/-- **The channel invariant survives every step.** -/
theorem outcome_inv (h : LinkInv t) {e : Event} {t' : System} (hout : Outcome t e t') :
    LinkInv t' := by
  cases hout with
  | @proxy e p' hloc hok heff =>
      have hctl : ∀ msg, e ≠ .control msg := by
        rintro msg rfl
        cases hloc
      obtain ⟨hreqs, hreq⟩ := h.requests_effect heff
      refine ⟨h.refs.effect (fun msg he => absurd he (hctl msg)) heff, h.heap, hreqs, hreq,
        h.responses, h.nonzero, h.delivered, ?_, h.answered.handle hok⟩
      change p'.hist.rspSeen = _
      rw [(heff.local_hist hctl).1]
      exact h.seen
  | @server e s' hloc heff =>
      obtain ⟨hctl, hissued, -⟩ := heff.local_hist (by rintro msg r n rfl; cases hloc)
      exact h.withServer (h.heap.effect heff) hctl hissued h.requested
  | abort herr =>
      exact ⟨h.refs, h.heap, h.requests, h.requested, h.responses, h.nonzero, h.delivered, h.seen,
        h.answered⟩
  | @request remote now rest hctl =>
      -- one more id issued, and the response that carries it
      refine ⟨h.refs, h.heap.handleCreate remote now, h.requests, requested_of_cons hctl, ?_, ?_,
        ?_, ?_, h.answered⟩
      · change t.server.hist.ctlSent ++ [rspMsg (KcpServer.newId t.server.id).1] =
          (t.server.hist.issued ++ [(KcpServer.newId t.server.id).1]).map rspMsg
        rw [List.map_append, h.responses]
        rfl
      · intro id hid
        rcases List.mem_append.mp hid with hold | hnew
        · exact h.nonzero id hold
        · rw [List.mem_singleton.mp hnew]
          exact FreshCounter.next_ne_zero (by decide) t.server.id
      · change t.toProxy ≤ (t.server.hist.issued ++ [_]).length
        rw [List.length_append]
        exact Nat.le_add_right_of_le h.delivered
      · change t.proxy.hist.rspSeen = (t.server.hist.issued ++ [_]).take t.toProxy
        rw [List.take_append_of_le_length h.delivered]
        exact h.seen
  | @destroy remote now id rest hctl =>
      obtain ⟨-, -, hhist, -⟩ := KcpServer.handleDestroy_frame t.server id
      exact h.withServer (h.heap.handleDestroy id) (by rw [hhist]) (by rw [hhist])
        (requested_of_cons hctl)
  | @response id p' hnext hok heff =>
      have hmem : id ∈ t.server.hist.issued := List.mem_of_getElem? hnext
      have hlt : t.toProxy < t.server.hist.issued.length := by
        rw [List.getElem?_eq_some_iff] at hnext
        exact hnext.1
      have hrefs : KcpProxy.RefInv p' := by
        refine h.refs.effect ?_ heff
        rintro msg he -
        obtain rfl := Proxy.Event.control.inj he
        rw [readId_rspMsg]
        exact h.nonzero id hmem
      -- the response is the next of the answers in order
      have hseen : p'.hist.rspSeen = t.proxy.hist.rspSeen ++ [id] := by
        rcases heff.response with ⟨-, rfl⟩ | ⟨_, _, _, _, _, -, -, -, rfl⟩ <;> rfl
      obtain ⟨hreqs, hreq⟩ := h.requests_effect heff
      refine ⟨hrefs, h.heap, hreqs, hreq, h.responses, h.nonzero, hlt, ?_, h.answered.handle hok⟩
      change p'.hist.rspSeen = t.server.hist.issued.take (t.toProxy + 1)
      rw [hseen, List.take_add_one, hnext, h.seen]
      rfl

theorem step (h : LinkInv t) {e : Event} {t' : System} (hstep : t.step e = some t') :
    LinkInv t' := h.outcome_inv (h.outcome hstep)

end LinkInv

/-! ## A race the proxy loses -/

/-- D speaks first: the server forwards its two bytes in a datagram of conv 7,
    and the datagram reaches the proxy before the response for 7.  The proxy
    takes the id for a dead one and destroys it. -/
theorem destroys_unanswered :
    ∃ t, EventSystem.run step (create 7)
        [.proxy .connUp, .deliverToServer ⟨0x7f000001, 40000⟩ 0, .server (.connected 1),
          .server (.message 1 [104, 105]), .server (.updateTimer 1000),
          .proxy (.datagram [7, 0, 0, 0, 81, 0, 128, 0, 232, 3, 0, 0, 0, 0, 0, 0, 0, 0, 0, 0,
            2, 0, 0, 0, 104, 105])] = some t ∧
      t.server.hist.datagrams = [(⟨0x7f000001, 40000⟩,
        [7, 0, 0, 0, 81, 0, 128, 0, 232, 3, 0, 0, 0, 0, 0, 0, 0, 0, 0, 0,
          2, 0, 0, 0, 104, 105])] ∧
      t.ctlToProxy = [rspMsg 7] ∧ t.proxy.hist.ctlSent = [createMsg, destroyMsg 7] ∧
      t.proxy.hist.rspSeen = [] ∧ ¬ t.proxy.DestroysAnswered := by
  have hrun : (EventSystem.run step (create 7)
      [.proxy .connUp, .deliverToServer ⟨0x7f000001, 40000⟩ 0, .server (.connected 1),
        .server (.message 1 [104, 105]), .server (.updateTimer 1000),
        .proxy (.datagram [7, 0, 0, 0, 81, 0, 128, 0, 232, 3, 0, 0, 0, 0, 0, 0, 0, 0, 0, 0,
          2, 0, 0, 0, 104, 105])]).map
        (fun t => (t.server.hist.datagrams, t.ctlToProxy, t.proxy.hist.ctlSent,
          t.proxy.hist.rspSeen))
      = some ([(⟨0x7f000001, 40000⟩, [7, 0, 0, 0, 81, 0, 128, 0, 232, 3, 0, 0, 0, 0, 0, 0, 0, 0,
          0, 0, 2, 0, 0, 0, 104, 105])], [rspMsg 7], [createMsg, destroyMsg 7], []) := by
    decide +kernel
  obtain ⟨t, ht, heq⟩ := Option.map_eq_some_iff.mp hrun
  obtain ⟨hdgram, hrest⟩ := Prod.mk.inj heq
  obtain ⟨hctl, hrest'⟩ := Prod.mk.inj hrest
  obtain ⟨hsent, hseen⟩ := Prod.mk.inj hrest'
  refine ⟨t, ht, hdgram, hctl, hsent, hseen, ?_⟩
  intro hans
  have hin := hans 7 (by rw [hsent]; simp)
  rw [hseen] at hin
  cases hin

end System
end Tunnel
end UdpSpeed
