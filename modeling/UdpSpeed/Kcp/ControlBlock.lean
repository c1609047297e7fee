/-
  UdpSpeed.Kcp.ControlBlock

  `struct IKCPCB` and the functions that build one (`ikcp_create`,
  `ikcp_nodelay`), with `ikcp_waitsnd`.

  The fields that nothing writes once an object is configured sit in
  `IKCPCFG`, so that "this call leaves the configuration alone" is one
  equation per operation.  The four queues are lists, head first; the
  counters `nrcv_buf`, `nsnd_buf`, `nrcv_que`, `nsnd_que` that the source
  keeps in step with them are their lengths.
-/

import UdpSpeed.Kcp.Segment

namespace UdpSpeed
namespace Kcp

/-- The configuration part of `struct IKCPCB`. -/
structure IKCPCFG where
  conv : IUINT32
  mtu : Nat
  mss : Nat
  sndWnd : IUINT32
  rcvWnd : IUINT32
  rxMinrto : IUINT32
  interval : IUINT32
  nodelay : IUINT32
  deadLink : IUINT32
  fastresend : IUINT32
  nocwnd : Bool
  stream : Bool
deriving DecidableEq, Repr, Inhabited

/-- `struct IKCPCB`. `acklist` holds the `(sn, ts)` pairs still to be
    acknowledged, oldest first. -/
structure IKCPCB where
  cfg : IKCPCFG
  sndUna : IUINT32
  sndNxt : IUINT32
  rcvNxt : IUINT32
  ssthresh : IUINT32
  rxRttval : IUINT32
  rxSrtt : IUINT32
  rxRto : IUINT32
  rmtWnd : IUINT32
  cwnd : IUINT32
  incr : IUINT32
  probe : IUINT32
  tsProbe : IUINT32
  probeWait : IUINT32
  current : IUINT32
  tsFlush : IUINT32
  updated : Bool
  xmit : IUINT32
  state : IUINT32
  sndQueue : List IKCPSEG
  rcvQueue : List IKCPSEG
  sndBuf : List IKCPSEG
  rcvBuf : List IKCPSEG
  acklist : List (IUINT32 × IUINT32)
deriving DecidableEq, Repr, Inhabited

namespace IKCPCB

def conv (kcp : IKCPCB) : IUINT32 := kcp.cfg.conv
def nrcvQue (kcp : IKCPCB) : Nat := kcp.rcvQueue.length
def nsndQue (kcp : IKCPCB) : Nat := kcp.sndQueue.length
def nsndBuf (kcp : IKCPCB) : Nat := kcp.sndBuf.length

end IKCPCB

def ikcpCreate (conv : IUINT32) : IKCPCB where
  cfg :=
    { conv := conv, mtu := ikcpMtuDef, mss := ikcpMtuDef - ikcpOverhead,
      sndWnd := ikcpWndSnd, rcvWnd := ikcpWndRcv, rxMinrto := ikcpRtoMin,
      interval := ikcpInterval, nodelay := 0, deadLink := ikcpDeadlink,
      fastresend := 0, nocwnd := false, stream := false }
  sndUna := 0
  sndNxt := 0
  rcvNxt := 0
  ssthresh := ikcpThreshInit
  rxRttval := 0
  rxSrtt := 0
  rxRto := ikcpRtoDef
  rmtWnd := ikcpWndRcv
  cwnd := 0
  incr := 0
  probe := 0
  tsProbe := 0
  probeWait := 0
  current := 0
  tsFlush := ikcpInterval
  updated := false
  xmit := 0
  state := 0
  sndQueue := []
  rcvQueue := []
  sndBuf := []
  rcvBuf := []
  acklist := []

/-- `ikcp_nodelay`; a negative argument leaves its setting alone. -/
def ikcpNodelay (kcp : IKCPCB) (nodelay interval resend nc : Int) : IKCPCB :=
  { kcp with
    cfg :=
      { kcp.cfg with
        nodelay := if 0 ≤ nodelay then BitVec.ofInt 32 nodelay else kcp.cfg.nodelay
        rxMinrto :=
          if 0 ≤ nodelay then (if nodelay ≠ 0 then ikcpRtoNdl else ikcpRtoMin)
          else kcp.cfg.rxMinrto
        -- between 10 and 5000 milliseconds
        interval :=
          if 0 ≤ interval then BitVec.ofInt 32 (max 10 (min interval 5000))
          else kcp.cfg.interval
        fastresend := if 0 ≤ resend then BitVec.ofInt 32 resend else kcp.cfg.fastresend
        nocwnd := if 0 ≤ nc then decide (nc ≠ 0) else kcp.cfg.nocwnd } }

/-- The object every session of both programs builds:
    `ikcp_create(conv, ..)` followed by `ikcp_nodelay(kcp_, 1, 10, 1, 1)`. -/
def freshKcp (conv : IUINT32) : IKCPCB := ikcpNodelay (ikcpCreate conv) 1 10 1 1

/-- `ikcp_waitsnd`: segments accepted and not yet acknowledged. -/
def ikcpWaitsnd (kcp : IKCPCB) : Nat := kcp.nsndBuf + kcp.nsndQue

/-- The configuration every session object keeps for life. -/
def tunnelCfg (conv : IUINT32) : IKCPCFG where
  conv := conv
  mtu := 1400
  mss := 1376
  sndWnd := 32
  rcvWnd := 128
  rxMinrto := 30
  interval := 10
  nodelay := 1
  deadLink := 20
  fastresend := 1
  nocwnd := true
  stream := false

theorem freshKcp_cfg (conv : IUINT32) : (freshKcp conv).cfg = tunnelCfg conv := rfl

end Kcp
end UdpSpeed
