/-
  UdpSpeed.Tunnel.LateInit

  Both ends start to take data before they can pass it on: the proxy's session
  before the server has answered (`init`), the server's session before its
  connection to D is up (`onConnection`).  Neither the order nor the cutting of
  the data depends on when that happens; but `init` reads each queued chunk once
  more after it has freed it.
-/

import UdpSpeed.Kcp.Transmit
import UdpSpeed.Proxy.DataSession
import UdpSpeed.Server.ServerSession

namespace UdpSpeed

open Kcp Muduo

/-! ## The proxy's session -/

namespace Proxy
namespace KcpDataSession

/-- Chunks through `sendToTunnel`, one after the other. -/
def sendAll (s : KcpDataSession) (chunks : List (List Byte)) : KcpDataSession :=
  chunks.foldl (fun s chunk => (s.sendToTunnel chunk).1) s

/-- A new session that takes the chunks `before`, then `init(id)`, then the
    chunks `after`. -/
def initBetween (conn : ConnId) (id : IUINT32) (before after : List (List Byte))
    (returns : FreedRead := fun _ => true) : Except Abort KcpDataSession :=
  (((create conn).sendAll before).init id returns).map (fun r => r.1.sendAll after)

/-- `ikcp_send` of one chunk after the other. -/
def sendEach (kcp : IKCPCB) (chunks : List (List Byte)) : IKCPCB :=
  chunks.foldl (fun kcp chunk => (ikcpSend kcp chunk).2) kcp

theorem sendEach_cfg (kcp : IKCPCB) (chunks : List (List Byte)) :
    (sendEach kcp chunks).cfg = kcp.cfg := by
  induction chunks generalizing kcp with
  | nil => rfl
  | cons chunk rest ih =>
      change (sendEach (ikcpSend kcp chunk).2 rest).cfg = kcp.cfg
      rw [ih, ikcpSend_cfg]

/-- Before `init` the chunks pile up. -/
theorem sendAll_of_none {s : KcpDataSession} (hkcp : s.kcp = none) (chunks : List (List Byte)) :
    s.sendAll chunks = { s with payloadList := s.payloadList ++ chunks } := by
  induction chunks generalizing s with
  | nil =>
      rw [List.append_nil]
      rfl
  | cons chunk rest ih =>
      have hrest := @ih { s with payloadList := s.payloadList ++ [chunk] } hkcp
      change (s.sendToTunnel chunk).1.sendAll rest = _
      rw [sendToTunnel_of_none hkcp, hrest, List.append_assoc, List.singleton_append]

/-- After `init` each goes to the KCP object. -/
theorem sendAll_of_some {s : KcpDataSession} {kcp : IKCPCB} (hkcp : s.kcp = some kcp)
    (hcfg : kcp.cfg = tunnelCfg s.id) {chunks : List (List Byte)}
    (hlen : ∀ chunk ∈ chunks, chunk.length ≤ maxRead) :
    s.sendAll chunks = { s with kcp := some (sendEach kcp chunks) } := by
  induction chunks generalizing s kcp with
  | nil =>
      change s = { s with kcp := some kcp }
      rw [← hkcp]
  | cons chunk rest ih =>
      have hchunk := hlen chunk (List.mem_cons_self ..)
      have hcfg' : (ikcpSend kcp chunk).2.cfg = tunnelCfg s.id := by
        rw [ikcpSend_cfg, hcfg]
      have hrest := @ih { s with kcp := some (ikcpSend kcp chunk).2 } _ rfl hcfg'
        (fun x hx => hlen x (List.mem_cons_of_mem _ hx))
      change (s.sendToTunnel chunk).1.sendAll rest = _
      rw [sendToTunnel_of_some hkcp hcfg hchunk, hrest]
      rfl

/-- A session initialised with `id` whose queue is empty. -/
def inited (conn : ConnId) (id : IUINT32) (kcp : IKCPCB) : KcpDataSession where
  kcp := some kcp
  id := id
  conn := conn
  payloadList := []

/-- Wherever `init` comes, all chunks end up in the KCP object in order. -/
theorem initBetween_eq (conn : ConnId) (id : IUINT32) {before after : List (List Byte)}
    (hlen : ∀ chunk ∈ before ++ after, chunk.length ≤ maxRead) :
    initBetween conn id before after =
      .ok (inited conn id (sendEach (freshKcp id) (before ++ after))) := by
  have hbefore : ∀ chunk ∈ before, chunk.length ≤ maxRead :=
    fun chunk hin => hlen chunk (List.mem_append_left _ hin)
  have hafter : ∀ chunk ∈ after, chunk.length ≤ maxRead :=
    fun chunk hin => hlen chunk (List.mem_append_right _ hin)
  have hqueued : (create conn).sendAll before =
      { kcp := none, id := 0, conn := conn, payloadList := before } :=
    sendAll_of_none rfl before
  have hinit : ((create conn).sendAll before).init id =
      .ok (inited conn id (sendEach (freshKcp id) before), before) := by
    rw [hqueued, init_eq rfl]
    dsimp only
    rw [drain_eq (freshKcp_cfg id) hbefore]
    rfl
  have hcfg : (sendEach (freshKcp id) before).cfg = tunnelCfg id := by
    rw [sendEach_cfg, freshKcp_cfg]
  have hdirect := @sendAll_of_some (inited conn id (sendEach (freshKcp id) before)) _ rfl hcfg
    after hafter
  rw [initBetween, hinit]
  change Except.ok (sendAll (inited conn id (sendEach (freshKcp id) before)) after) = _
  rw [hdirect]
  -- two runs of `ikcp_send`, one behind the other
  have happ : sendEach (freshKcp id) (before ++ after) =
      sendEach (sendEach (freshKcp id) before) after := by
    simp only [sendEach, List.foldl_append]
  rw [happ]
  rfl

/-- With nothing queued nothing is read that was freed. -/
theorem initBetween_nil (conn : ConnId) (id : IUINT32) (after : List (List Byte))
    (returns : FreedRead) :
    initBetween conn id [] after returns = initBetween conn id [] after := by
  have hinit := @init_of_nil ((create conn).sendAll []) rfl id returns
  rw [initBetween, hinit]
  rfl

/-- With a chunk queued `init` can die. -/
theorem initBetween_freed (conn : ConnId) (id : IUINT32) {before : List (List Byte)}
    (hne : before ≠ []) (hlen : ∀ chunk ∈ before, chunk.length ≤ maxRead)
    (after : List (List Byte)) :
    initBetween conn id before after (fun _ => false) = .error .freedRead := by
  have hqueued : (create conn).sendAll before =
      { kcp := none, id := 0, conn := conn, payloadList := before } :=
    sendAll_of_none rfl before
  have hinit : ((create conn).sendAll before).init id (fun _ => false) = .error .freedRead := by
    rw [hqueued]
    simp only [init, drain_eq (freshKcp_cfg id) hlen]
    obtain ⟨chunk, rest, rfl⟩ := List.exists_cons_of_ne_nil hne
    rfl
  rw [initBetween, hinit]
  rfl

/-- The fragments of the chunks, in order. -/
theorem sendEach_sndQueue {kcp : IKCPCB} {conv : IUINT32} (hcfg : kcp.cfg = tunnelCfg conv)
    {chunks : List (List Byte)} (hlen : ∀ chunk ∈ chunks, chunk.length ≤ maxRead) :
    (sendEach kcp chunks).sndQueue = kcp.sndQueue ++ fragmentsOf conv chunks := by
  induction chunks generalizing kcp with
  | nil => exact (List.append_nil _).symm
  | cons chunk rest ih =>
      obtain rfl : kcp.conv = conv := congrArg IKCPCFG.conv hcfg
      have haccept := ikcpSend_accepts hcfg (hlen chunk (List.mem_cons_self ..))
      have hrest := ih ((ikcpSend_cfg kcp chunk).trans hcfg)
        (fun x hx => hlen x (List.mem_cons_of_mem _ hx))
      change (sendEach (ikcpSend kcp chunk).2 rest).sndQueue = _
      rw [hrest, ikcpSend_sndQueue hcfg haccept, List.append_assoc, ← fragmentsOf_append]
      rfl

end KcpDataSession
end Proxy

/-! ## The server's session -/

namespace Server
namespace KcpServerSession

/-- Datagrams through `recvFromTunnel` (each with the time it arrives): the
    session and the bytes passed to the D connection. -/
def recvAll (s : KcpServerSession) : List (List Byte × Int) → KcpServerSession × List Byte
  | [] => (s, [])
  | packet :: rest =>
      let r := s.recvFromTunnel packet.1 packet.2
      let all := r.1.recvAll rest
      (all.1, r.2.2 ++ all.2)

/-- Payloads already read from KCP, likewise. -/
def takeAll (s : KcpServerSession) : List (List Byte × Int) → KcpServerSession × List Byte
  | [] => (s, [])
  | payload :: rest =>
      let r := s.takePayload payload.1 payload.2
      let all := r.1.takeAll rest
      (all.1, r.2 ++ all.2)

/-- The D connection comes up between two runs of `feed`: the session and the
    bytes passed to it. -/
def connectBetween (feed : KcpServerSession → List (List Byte × Int) → KcpServerSession × List Byte)
    (s : KcpServerSession) (before after : List (List Byte × Int)) :
    KcpServerSession × List Byte :=
  let early := feed s before
  let up := early.1.onConnected
  let late := feed up.1 after
  (late.1, early.2 ++ up.2 ++ late.2)

/-- One input to a connecting session is cached and would be sent by the same
    session once connected. -/
structure Cached (s s' : KcpServerSession) (sent sentUp : List Byte) (up : KcpServerSession) :
    Prop where
  connecting : s'.client = some .connecting
  quiet : sent = []
  cached : s'.payloadList.flatten = s.payloadList.flatten ++ sentUp
  same : up = s'.onConnected.1

theorem takePayload_cached {s : KcpServerSession} (h : s.client = some .connecting)
    (payload : List Byte) (now : Int) :
    Cached s (s.takePayload payload now).1 (s.takePayload payload now).2
      (s.onConnected.1.takePayload payload now).2 (s.onConnected.1.takePayload payload now).1 := by
  have hwait : s.takePayload payload now =
      ({ s with lastTunnelActiveTime := now, payloadList := s.payloadList ++ [payload] }, []) := by
    simp [takePayload, h, TcpClient.hasConnection]
  have hup : s.onConnected.1.takePayload payload now =
      ({ s.onConnected.1 with lastTunnelActiveTime := now }, payload) := by
    simp [takePayload, onConnected, TcpClient.hasConnection]
  rw [hwait, hup]
  exact ⟨h, rfl, by simp, rfl⟩

theorem recvFromTunnel_cached {s : KcpServerSession} (h : s.client = some .connecting)
    (packet : List Byte) (now : Int) :
    Cached s (s.recvFromTunnel packet now).1 (s.recvFromTunnel packet now).2.2
      (s.onConnected.1.recvFromTunnel packet now).2.2
      (s.onConnected.1.recvFromTunnel packet now).1 := by
  -- what KCP makes of the datagram does not depend on the client
  obtain ⟨payload, hext⟩ := s.extractTunnelPayload_spec packet
  have hext' : s.onConnected.1.extractTunnelPayload packet =
      ({ s.onConnected.1 with kcp := receiveOnce s.kcp packet }, payload) := by
    have hkcp : (s.extractTunnelPayload packet).1.kcp = receiveOnce s.kcp packet := by rw [hext]
    have hpay : (s.extractTunnelPayload packet).2 = payload := by rw [hext]
    rw [← hkcp, ← hpay]
    unfold extractTunnelPayload onConnected
    dsimp only
    split_ifs <;> rfl
  simp only [recvFromTunnel, hext, hext']
  by_cases hnil : payload = []
  · rw [if_pos hnil, if_pos hnil]
    exact ⟨h, rfl, by simp, rfl⟩
  · rw [if_neg hnil, if_neg hnil]
    obtain ⟨hconn, hquiet, hcached, hsame⟩ :=
      @takePayload_cached { s with kcp := receiveOnce s.kcp packet } h payload now
    exact ⟨hconn, hquiet, hcached, hsame⟩

/-- Any number of inputs before the connection is up: by induction on them. -/
theorem connectBetween_eq_of_cached
    {feed : KcpServerSession → List (List Byte × Int) → KcpServerSession × List Byte}
    {one : KcpServerSession → List Byte × Int → KcpServerSession × List Byte}
    (hnil : ∀ s, feed s [] = (s, []))
    (hcons : ∀ s x xs, feed s (x :: xs) =
      ((feed (one s x).1 xs).1, (one s x).2 ++ (feed (one s x).1 xs).2))
    (hone : ∀ s x, s.client = some .connecting →
      Cached s (one s x).1 (one s x).2 (one s.onConnected.1 x).2 (one s.onConnected.1 x).1)
    {s : KcpServerSession} (h : s.client = some .connecting)
    (before after : List (List Byte × Int)) :
    connectBetween feed s before after = connectBetween feed s [] (before ++ after) := by
  induction before generalizing s with
  | nil => rfl
  | cons x xs ih =>
      obtain ⟨hconn, hquiet, hcached, hsame⟩ := hone s x h
      have hrest := ih hconn
      simp only [connectBetween, hnil, hcons, List.cons_append, List.nil_append] at hrest ⊢
      obtain ⟨hsess, hbytes⟩ := Prod.mk.inj hrest
      rw [hquiet, List.nil_append, hsame]
      refine Prod.ext hsess ?_
      dsimp only
      rw [hbytes]
      -- the cached bytes come out in front, as they would have gone straight through
      change (one s x).1.payloadList.flatten ++ _ = s.payloadList.flatten ++ _
      rw [hcached, List.append_assoc]

theorem recvAll_lateConnect {s : KcpServerSession} (h : s.client = some .connecting)
    (before after : List (List Byte × Int)) :
    connectBetween recvAll s before after = connectBetween recvAll s [] (before ++ after) :=
  @connectBetween_eq_of_cached recvAll
    (fun s x => ((s.recvFromTunnel x.1 x.2).1, (s.recvFromTunnel x.1 x.2).2.2))
    (fun _ => rfl) (fun _ _ _ => rfl) (fun _ x hs => recvFromTunnel_cached hs x.1 x.2) s h
    before after

theorem takeAll_lateConnect {s : KcpServerSession} (h : s.client = some .connecting)
    (before after : List (List Byte × Int)) :
    connectBetween takeAll s before after = connectBetween takeAll s [] (before ++ after) :=
  @connectBetween_eq_of_cached takeAll (fun s x => s.takePayload x.1 x.2)
    (fun _ => rfl) (fun _ _ _ => rfl) (fun _ x hs => takePayload_cached hs x.1 x.2) s h
    before after

/-- A connected session passes every payload straight on. -/
theorem takeAll_connected {s : KcpServerSession} (h : s.client = some .connected)
    (payloads : List (List Byte × Int)) :
    (s.takeAll payloads).2 = (payloads.map Prod.fst).flatten := by
  induction payloads generalizing s with
  | nil => rfl
  | cons payload rest ih =>
      have hone : s.takePayload payload.1 payload.2 =
          ({ s with lastTunnelActiveTime := payload.2 }, payload.1) := by
        simp [takePayload, h, TcpClient.hasConnection]
      have hrest := @ih { s with lastTunnelActiveTime := payload.2 } h
      simp only [takeAll, hone, hrest, List.map_cons, List.flatten_cons]

end KcpServerSession
end Server

/-! ## Both ends -/

namespace Tunnel

open Proxy.KcpDataSession Server.KcpServerSession

/-- What one initialisation among the chunks and one in front of them come to, the
    same session: nothing queued, and the fragments of all chunks in the KCP send
    queue. -/
def SameSession (conn : Proxy.ConnId) (id : IUINT32) (before after : List (List Byte))
    (returns : Proxy.FreedRead) : Prop :=
  ∃ s kcp, initBetween conn id before after returns = .ok s ∧
    initBetween conn id [] (before ++ after) returns = .ok s ∧ s.payloadList = [] ∧
    s.kcp = some kcp ∧ kcp.sndQueue = (before ++ after).flatMap (fun chunk =>
      fragment (tunnelCfg id) (fragmentCount (tunnelCfg id) chunk.length) chunk)

/-- Where the reads return. -/
theorem sameSession_returns (conn : Proxy.ConnId) (id : IUINT32) {before after : List (List Byte)}
    (hmax : ∀ chunk ∈ before ++ after, chunk.length ≤ maxRead) :
    SameSession conn id before after (fun _ => true) := by
  refine ⟨inited conn id (sendEach (freshKcp id) (before ++ after)),
    sendEach (freshKcp id) (before ++ after), initBetween_eq conn id hmax,
    initBetween_eq conn id hmax, rfl, rfl, ?_⟩
  rw [sendEach_sndQueue (freshKcp_cfg id) hmax]
  rfl

/-- **Late initialisation is transparent** as far as it is defined.  The proxy's
    session ends the same whatever a read of freed memory does if and only if no
    chunk was queued before `init`; where the reads return, it does so wherever
    `init` comes among the chunks.  Wherever the D connection comes up among the
    datagrams (or among the payloads read from them), the server's session ends
    the same and has passed the same bytes to D. -/
theorem lateInit_transparent_iff {chunks : List (List Byte)}
    (hlen : ∀ chunk ∈ chunks, 1 ≤ chunk.length ∧ chunk.length ≤ 131071) (conn : Proxy.ConnId)
    (id : IUINT32) (k : Nat) (remote : Server.SockAddr) (now : Int)
    (cb : Server.SessionConnectionLostCallback) (packets payloads : List (List Byte × Int)) :
    ((∀ returns, SameSession conn id (chunks.take k) (chunks.drop k) returns) ↔
        chunks.take k = []) ∧
      SameSession conn id (chunks.take k) (chunks.drop k) (fun _ => true) ∧
      (connectBetween recvAll ((create id remote now).connectSvr cb) (packets.take k)
          (packets.drop k) =
        connectBetween recvAll ((create id remote now).connectSvr cb) [] packets) ∧
      (connectBetween takeAll ((create id remote now).connectSvr cb) (payloads.take k)
          (payloads.drop k) =
        connectBetween takeAll ((create id remote now).connectSvr cb) [] payloads) ∧
      (connectBetween takeAll ((create id remote now).connectSvr cb) [] payloads).2 =
        (payloads.map Prod.fst).flatten := by
  have hmax : ∀ chunk ∈ chunks.take k ++ chunks.drop k, chunk.length ≤ maxRead := by
    rw [List.take_append_drop]
    exact fun chunk hin => (hlen chunk hin).2
  have hreturn := sameSession_returns conn id hmax
  refine ⟨⟨fun hall => ?_, fun hnil returns => ?_⟩, hreturn, ?_, ?_, ?_⟩
  · -- a read that does not return
    by_contra hne
    obtain ⟨s, kcp, hs, -⟩ := hall (fun _ => false)
    rw [initBetween_freed conn id hne (fun chunk hin => hmax chunk (List.mem_append_left _ hin))]
      at hs
    cases hs
  · rw [hnil] at hreturn ⊢
    obtain ⟨s, kcp, hs, hfirst, hrest⟩ := hreturn
    rw [SameSession, initBetween_nil, initBetween_nil]
    exact ⟨s, kcp, hs, hfirst, hrest⟩
  · rw [recvAll_lateConnect rfl, List.take_append_drop]
  · rw [takeAll_lateConnect rfl, List.take_append_drop]
  · exact takeAll_connected rfl payloads

theorem lateInit_transparent_iff_two :
    ((∀ returns, SameSession 1 7 [[1]] [[2, 3]] returns) ↔ ([[1]] : List (List Byte)) = []) ∧
      (connectBetween takeAll ((create 7 ⟨0x7f000001, 40000⟩ 0).connectSvr .onSessionConnectionLost)
        [([4, 5], 0)] [([6], 1)]).2 = [4, 5, 6] := by
  have h := @lateInit_transparent_iff [[1], [2, 3]] (by decide) 1 7 1 ⟨0x7f000001, 40000⟩ 0
    .onSessionConnectionLost [] [([4, 5], 0), ([6], 1)]
  obtain ⟨hproxy, -, -, hserver, hbytes⟩ := h
  refine ⟨hproxy, ?_⟩
  have heq := congrArg Prod.snd hserver
  exact heq.trans hbytes

/-- One chunk of the largest size waits when the id comes. -/
theorem lateInit_reads_freed :
    ¬ ∀ returns, SameSession 1 7 [List.replicate 131071 71] [] returns := by
  intro hall
  obtain ⟨s, kcp, hs, -⟩ := hall (fun _ => false)
  have hlen : ∀ chunk ∈ [List.replicate 131071 (71 : Byte)], chunk.length ≤ maxRead := by
    intro chunk hin
    rw [List.mem_singleton.mp hin, List.length_replicate]
    exact Nat.le_refl _
  rw [initBetween_freed 1 7 (List.cons_ne_nil _ _) hlen] at hs
  cases hs

end Tunnel
end UdpSpeed
