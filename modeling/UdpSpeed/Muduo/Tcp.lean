/-
  UdpSpeed.Muduo.Tcp

  The part of muduo's TCP classes the tunnel code looks at: the state of a
  `TcpConnection` (muduo/net/TcpConnection.cc) and what a `TcpClient` is
  doing (muduo/net/TcpClient.cc, muduo/net/Connector.cc).
-/

import Mathlib.Tactic

namespace UdpSpeed
namespace Muduo

/-- `TcpConnection::StateE`, from `connectEstablished` on. -/
inductive StateE where
  | kConnected
  | kDisconnecting
  | kDisconnected
deriving DecidableEq, Repr

namespace StateE

/-- `TcpConnection::connected`. -/
def connected (st : StateE) : Bool := st = kConnected

/-- Between the up and the down callback. -/
def live (st : StateE) : Bool := st ≠ kDisconnected

/-- `TcpConnection::forceClose`; the close itself is queued in the loop and
    runs as a later event. -/
def forceClose (st : StateE) : StateE :=
  if st = kConnected ∨ st = kDisconnecting then kDisconnecting else st

@[simp] theorem live_forceClose (st : StateE) : st.forceClose.live = st.live := by
  cases st <;> rfl

end StateE

/-- A `TcpClient`: its connector is still at it (a failed attempt is retried),
    neither connecting nor connected (before `connect`, after an error the
    connector does not retry, after the connection went: `retry_` is false), or
    `connection_` is set. -/
inductive TcpClient where
  | connecting
  | idle
  | connected
deriving DecidableEq, Repr

namespace TcpClient

/-- `TcpClient::connection` is non-null. -/
def hasConnection (c : TcpClient) : Bool := c = connected

/-- Still connecting or connected. -/
def active (c : TcpClient) : Bool := c ≠ idle

end TcpClient

/-- The most one read delivers to the message callback: the largest buffer that
    still takes the 65536 bytes of `extrabuf` (`Buffer::readFd`), and these. -/
def maxRead : Nat := 65535 + 65536

end Muduo
end UdpSpeed
