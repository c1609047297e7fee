/-
  UdpSpeed.Muduo.TcpServer

  `TcpServer` (muduo/net/TcpServer.cc) and its connections in the event loop
  (muduo/net/EventLoop.cc, muduo/net/Channel.cc): connections come, epoll reports
  events, the user calls, and `doPendingFunctors` calls the functors that were
  queued, in their order.

  The server is told apart from its user by the callbacks it makes, which follow
  a contract: for each connection up, then messages, then down, then the end of
  the object.
-/

import UdpSpeed.Lib.Simulation
import UdpSpeed.Muduo.Connection

namespace UdpSpeed
namespace Muduo

open EventSystem

/-! ## State -/

/-- A `TcpConnectionPtr`: the identity of a connection object. -/
abbrev TcpConnectionPtr := Nat

/-- The callbacks made to the user of a connection; `destroyed` is the end of its
    context. -/
inductive Callback where
  | up
  | message (data : List Byte)
  | down
  | destroyed
deriving DecidableEq, Repr

/-- A functor in `pendingFunctors_`, with the reference bound to it. -/
inductive PendingFunctor where
  | forceCloseInLoop (c : TcpConnectionPtr)
  | connectDestroyed (c : TcpConnectionPtr)
deriving DecidableEq, Repr

/-- The connection the functor is bound to. -/
def PendingFunctor.conn : PendingFunctor → TcpConnectionPtr
  | .forceCloseInLoop c => c
  | .connectDestroyed c => c

/-- An assert of muduo that failed, or a number that grew too large. -/
inductive Failed where
  /-- `newConnection`: `++nextConnId_`, an `int` -/
  | overflow
  /-- `handleClose`: the connection is connected or disconnecting -/
  | assertState
  /-- `removeConnectionInLoop`: `n == 1` -/
  | assertErased
  /-- `Channel::remove`: `isNoneEvent()` -/
  | assertNoneEvent
  /-- `~TcpConnection`: `state_ == kDisconnected` -/
  | assertDisconnected
  /-- `~Channel`: `!addedToLoop_` -/
  | assertRemoved
deriving DecidableEq, Repr

/-- `class TcpServer` and the loop it runs in. -/
structure TcpServer where
  /-- the connection objects on the heap -/
  objects : TcpConnectionPtr → Option TcpConnection
  connections : Finset TcpConnectionPtr
  nextConnId : TcpConnectionPtr
  pendingFunctors : List PendingFunctor
  /-- `functors` of `doPendingFunctors` while it runs; empty otherwise -/
  functors : List PendingFunctor
  /-- the callbacks made so far; nothing reads it -/
  callbacks : List (TcpConnectionPtr × Callback)

/-- What the user does inside a callback: calls on any connections. -/
abbrev Calls := List (TcpConnectionPtr × ConnCall)

/-- `revents_`. -/
structure Revents where
  pollin : Bool := false
  pollpri : Bool := false
  pollrdhup : Bool := false
  pollhup : Bool := false
  pollerr : Bool := false
  pollnval : Bool := false
  pollout : Bool := false
deriving DecidableEq, Repr

/-- What `readv` finds: bytes, the end of the stream or an error. -/
inductive Incoming where
  | data (bytes : List Byte)
  | eof
  | error
deriving DecidableEq, Repr

namespace TcpServer

/-- After the constructor and `start`. -/
def create : TcpServer where
  objects := fun _ => none
  connections := ∅
  nextConnId := 1
  pendingFunctors := []
  functors := []
  callbacks := []

/-- Write a connection object back. -/
def setConn (s : TcpServer) (c : TcpConnectionPtr) (conn : TcpConnection) : TcpServer :=
  { s with objects := Function.update s.objects c (some conn) }

/-- Make a callback. -/
def callback (s : TcpServer) (c : TcpConnectionPtr) (cb : Callback) : TcpServer :=
  { s with callbacks := s.callbacks ++ [(c, cb)] }

/-- `EventLoop::queueInLoop`. -/
def queueInLoop (s : TcpServer) (cb : PendingFunctor) : TcpServer :=
  { s with pendingFunctors := s.pendingFunctors ++ [cb] }

/-- A call of the user through a weak reference. -/
def call (s : TcpServer) (c : TcpConnectionPtr) (cl : ConnCall) : TcpServer :=
  match s.objects c with
  | none => s
  | some conn =>
      let s := s.setConn c (conn.call cl).1
      if (conn.call cl).2 then s.queueInLoop (.forceCloseInLoop c) else s

/-- The calls inside a callback. -/
def calls (s : TcpServer) : Calls → TcpServer
  | [] => s
  | (c, cl) :: rest => (s.call c cl).calls rest

/-! ## Handlers -/

/-- `TcpServer::newConnection`; `connectEstablished` runs at once, in the one
    loop there is.  The key in `connections_` is a name that ends in the number:
    as long as that does not overflow no two connections have one key. -/
def newConnection (s : TcpServer) (cs : Calls) : Except Failed TcpServer :=
  let c := s.nextConnId
  if c = 2 ^ 31 - 1 then .error .overflow
  else
    let s :=
      { s.setConn c .connectEstablished with
        nextConnId := s.nextConnId + 1
        connections := insert c s.connections }
    .ok ((s.callback c .up).calls cs)

/-- `TcpServer::removeConnectionInLoop`, which `removeConnection` runs at once. -/
def removeConnectionInLoop (s : TcpServer) (c : TcpConnectionPtr) : Except Failed TcpServer :=
  if c ∈ s.connections then
    .ok ({ s with connections := s.connections.erase c }.queueInLoop (.connectDestroyed c))
  else .error .assertErased

/-- `TcpConnection::handleClose`. -/
def handleClose (s : TcpServer) (c : TcpConnectionPtr) (conn : TcpConnection) (cs : Calls) :
    Except Failed TcpServer :=
  if conn.state = .kConnected ∨ conn.state = .kDisconnecting then
    (((s.setConn c conn.disconnect).callback c .down).calls cs).removeConnectionInLoop c
  else .error .assertState

/-- `TcpConnection::handleRead`. -/
def handleRead (s : TcpServer) (c : TcpConnectionPtr) (conn : TcpConnection)
    (incoming : Incoming) (cs : Calls) : Except Failed TcpServer :=
  match incoming with
  | .data bytes =>
      .ok (((s.setConn c (conn.readInput bytes)).callback c
        (.message (conn.inputBuffer.readFd bytes).peek)).calls cs)
  | .eof => s.handleClose c conn cs
  -- `handleError` logs
  | .error => .ok s

/-- Run a handler on the object `c`. -/
def onConn (s : TcpServer) (c : TcpConnectionPtr)
    (f : TcpConnection → Except Failed TcpServer) : Except Failed TcpServer :=
  match s.objects c with
  | none => .ok s
  | some conn => f conn

/-- `Channel::handleEventWithGuard`.  The two callbacks do not both come: `cs` are
    the calls inside the one that does. -/
def handleEvent (s : TcpServer) (c : TcpConnectionPtr) (revents : Revents) (incoming : Incoming)
    (cs : Calls) (room : Room) : Except Failed TcpServer :=
  match if revents.pollhup && !revents.pollin then s.onConn c (s.handleClose c · cs) else .ok s with
  | .error e => .error e
  | .ok s =>
      -- `errorCallback_` logs
      match if revents.pollin || revents.pollpri || revents.pollrdhup then
          s.onConn c (s.handleRead c · incoming cs) else .ok s with
      | .error e => .error e
      | .ok s =>
          if revents.pollout then s.onConn c (fun conn => .ok (s.setConn c (conn.handleWrite room)))
          else .ok s

/-- `TcpConnection::forceCloseInLoop`. -/
def forceCloseInLoop (s : TcpServer) (c : TcpConnectionPtr) (conn : TcpConnection) (cs : Calls) :
    Except Failed TcpServer :=
  if conn.state = .kConnected ∨ conn.state = .kDisconnecting then s.handleClose c conn cs
  else .ok s

/-- `Channel::remove`. -/
def removeChannel (s : TcpServer) (c : TcpConnectionPtr) (conn : TcpConnection) :
    Except Failed TcpServer :=
  if conn.reading || conn.writing then .error .assertNoneEvent
  else .ok (s.setConn c { conn with addedToLoop := false })

/-- `TcpConnection::connectDestroyed`. -/
def connectDestroyed (s : TcpServer) (c : TcpConnectionPtr) (conn : TcpConnection) (cs : Calls) :
    Except Failed TcpServer :=
  if conn.state = .kConnected then
    let s := ((s.setConn c conn.disconnect).callback c .down).calls cs
    s.onConn c (s.removeChannel c)
  else s.removeChannel c conn

/-- A reference to `c` has gone.  With the last one the object is destroyed. -/
def release (s : TcpServer) (c : TcpConnectionPtr) : Except Failed TcpServer :=
  s.onConn c (fun conn =>
    if c ∈ s.connections ∨ c ∈ (s.functors ++ s.pendingFunctors).map PendingFunctor.conn then .ok s
    else if conn.state ≠ .kDisconnected then .error .assertDisconnected
    else if conn.addedToLoop then .error .assertRemoved
    else .ok ({ s with objects := Function.update s.objects c none }.callback c .destroyed))

/-- Call a functor. -/
def callFunctor (s : TcpServer) (f : PendingFunctor) (cs : Calls) : Except Failed TcpServer :=
  s.onConn f.conn (fun conn =>
    match f with
    | .forceCloseInLoop c => s.forceCloseInLoop c conn cs
    | .connectDestroyed c => s.connectDestroyed c conn cs)

/-- The loop of `doPendingFunctors`, with the calls inside each functor. -/
def callFunctors (s : TcpServer) : List PendingFunctor → List Calls → Except Failed TcpServer
  | [], _ => .ok s
  | f :: rest, css =>
      match s.callFunctor f (css.headD []) with
      | .error e => .error e
      | .ok s => s.callFunctors rest css.tail

/-- The vector `functors` goes, and the references bound to its elements with it. -/
def destroyFunctors (s : TcpServer) : List PendingFunctor → Except Failed TcpServer
  | [] => .ok s
  | f :: rest =>
      match { s with functors := rest }.release f.conn with
      | .error e => .error e
      | .ok s => s.destroyFunctors rest

/-- `EventLoop::doPendingFunctors`: what is queued from here on waits for the next
    call. -/
def doPendingFunctors (s : TcpServer) (css : List Calls) : Except Failed TcpServer :=
  let functors := s.pendingFunctors
  match { s with functors := functors, pendingFunctors := [] }.callFunctors functors css with
  | .error e => .error e
  | .ok s => s.destroyFunctors functors

/-! ## Events -/

end TcpServer

/-- What happens in the loop: a connection is accepted, the handler of something
    else calls, epoll reports a channel, or the pending functors are called. -/
inductive LoopEvent where
  | accept (cs : Calls)
  | call (c : TcpConnectionPtr) (cl : ConnCall)
  | poll (c : TcpConnectionPtr) (revents : Revents) (incoming : Incoming) (cs : Calls)
      (room : Room)
  | doPendingFunctors (css : List Calls)
deriving DecidableEq, Repr

/-- What epoll can report: `EPOLLRDHUP` is not asked for, `POLLNVAL` is not an
    event of epoll, and a socket that hung up is readable. -/
def Revents.reported (r : Revents) : Bool :=
  !r.pollrdhup && !r.pollnval && !(r.pollhup && !r.pollin && r.pollpri)

/-- What `readv` can find: with bytes, at least one and at most what it was
    offered. -/
def TcpConnection.finds (conn : TcpConnection) : Incoming → Bool
  | .data bytes => 0 < bytes.length && bytes.length ≤ conn.inputBuffer.offered
  | _ => true

namespace TcpServer

/-- What the kernel and the loop can do: epoll reports channels that are
    registered. -/
def enabled (s : TcpServer) : LoopEvent → Bool
  | .poll c revents incoming _ _ =>
      (s.objects c).any (fun conn =>
        (conn.reading || conn.writing) && revents.reported && conn.finds incoming)
  | _ => true

/-- Run the handler of an event. -/
def handle (s : TcpServer) : LoopEvent → Except Failed TcpServer
  | .accept cs => s.newConnection cs
  | .call c cl => .ok (s.call c cl)
  | .poll c revents incoming cs room => s.handleEvent c revents incoming cs room
  | .doPendingFunctors css => s.doPendingFunctors css

/-- The step function: an event that cannot happen, or a handler that fails, leads
    nowhere. -/
def step (s : TcpServer) (e : LoopEvent) : Option TcpServer :=
  if s.enabled e then (s.handle e).toOption else none

theorem step_eq_some {s s' : TcpServer} {e : LoopEvent} :
    s.step e = some s' ↔ s.enabled e ∧ s.handle e = .ok s' := by
  unfold step
  split_ifs with h
  · cases hh : s.handle e <;> simp [h, Except.toOption]
  · simp [h]

end TcpServer

/-! ## The contract -/

/-- What the user of a server is promised: `stage c` is `true` between the up and
    the down callback of `c`, then `false` up to the end of the object. -/
structure Contract where
  next : TcpConnectionPtr
  stage : TcpConnectionPtr → Option Bool

namespace Contract

/-- Nothing has been called yet. -/
def create : Contract where
  next := 1
  stage := fun _ => none

/-- Connections are numbered in their order; a message is not empty and at most
    as long as one read. -/
def step (k : Contract) : TcpConnectionPtr × Callback → Option Contract
  | (c, .up) =>
      if c = k.next then
        some { next := k.next + 1, stage := Function.update k.stage c (some true) }
      else none
  | (c, .message data) =>
      if k.stage c = some true ∧ data ≠ [] ∧ data.length ≤ maxRead then some k else none
  | (c, .down) =>
      if k.stage c = some true then
        some { k with stage := Function.update k.stage c (some false) }
      else none
  | (c, .destroyed) =>
      if k.stage c = some false then some { k with stage := Function.update k.stage c none }
      else none

/-- What a callback within the contract can be. -/
theorem step_cases {k k' : Contract} {c : TcpConnectionPtr} {cb : Callback}
    (h : k.step (c, cb) = some k') :
    (cb = .up ∧ c = k.next ∧
        k' = { next := k.next + 1, stage := Function.update k.stage c (some true) }) ∨
      (∃ data, cb = .message data ∧ k.stage c = some true ∧ data ≠ [] ∧ data.length ≤ maxRead ∧
        k' = k) ∨
      (cb = .down ∧ k.stage c = some true ∧
        k' = { k with stage := Function.update k.stage c (some false) }) ∨
      (cb = .destroyed ∧ k.stage c = some false ∧
        k' = { k with stage := Function.update k.stage c none }) := by
  unfold step at h
  cases cb with
  | up =>
      dsimp only at h
      split_ifs at h with hnext
      exact Or.inl ⟨rfl, hnext, (Option.some.inj h).symm⟩
  | message data =>
      dsimp only at h
      split_ifs at h with hcan
      exact Or.inr (Or.inl ⟨data, rfl, hcan.1, hcan.2.1, hcan.2.2, (Option.some.inj h).symm⟩)
  | down =>
      dsimp only at h
      split_ifs at h with hstage
      exact Or.inr (Or.inr (Or.inl ⟨rfl, hstage, (Option.some.inj h).symm⟩))
  | destroyed =>
      dsimp only at h
      split_ifs at h with hstage
      exact Or.inr (Or.inr (Or.inr ⟨rfl, hstage, (Option.some.inj h).symm⟩))

/-- Ids are not used again: what the end of a connection keeps stays true of it. -/
theorem stays (Q : Option Bool → Prop) (hlive : ¬ Q (some true)) (hend : Q (some false) → Q none)
    {k k' : Contract} {cbs : List (TcpConnectionPtr × Callback)} {c : TcpConnectionPtr}
    (hrun : run step k cbs = some k') (h : c < k.next ∧ Q (k.stage c)) :
    c < k'.next ∧ Q (k'.stage c) := by
  refine run_invariant (I := fun k => c < k.next ∧ Q (k.stage c)) ?_ h hrun
  rintro k ⟨d, cb⟩ k' ⟨hlt, hQ⟩ hstep
  rcases step_cases hstep with ⟨-, rfl, rfl⟩ | ⟨-, -, -, -, -, rfl⟩ | ⟨-, hstage, rfl⟩ |
    ⟨-, hstage, rfl⟩
  · refine ⟨Nat.lt_succ_of_lt hlt, ?_⟩
    show Q (Function.update k.stage k.next (some true) c)
    rw [Function.update_of_ne (Nat.ne_of_lt hlt)]
    exact hQ
  · exact ⟨hlt, hQ⟩
  · have hne : c ≠ d := by
      rintro rfl
      exact hlive (hstage ▸ hQ)
    refine ⟨hlt, ?_⟩
    show Q (Function.update k.stage d (some false) c)
    rw [Function.update_of_ne hne]
    exact hQ
  · refine ⟨hlt, ?_⟩
    show Q (Function.update k.stage d none c)
    by_cases hcd : c = d
    · subst hcd
      rw [Function.update_self]
      exact hend (hstage ▸ hQ)
    · rw [Function.update_of_ne hcd]
      exact hQ

end Contract
end Muduo
end UdpSpeed
