/-
  UdpSpeed.Muduo.Connection

  `TcpConnection` (muduo/net/TcpConnection.cc) from `connectEstablished` on, with
  the interest of its `Channel` (muduo/net/Channel.cc) and the socket below: what
  reaches the socket, and when its write side is shut down.

  The write-complete and high-water-mark callbacks are left out: the tunnel sets
  neither.
-/

import UdpSpeed.Muduo.Buffer

namespace UdpSpeed
namespace Muduo

/-! ## Retrieving a part of a buffer -/

namespace Buffer

/-- `retrieve`; the argument is its assert. -/
def retrieve (b : Buffer) (len : Nat) (h : len ≤ b.readableBytes) : Buffer :=
  if len < b.readableBytes then
    { b with
      readerIndex := b.readerIndex + len
      reader_le := by
        have hreader := b.reader_le
        unfold readableBytes at h
        omega }
  else b.retrieveAll

@[simp] theorem peek_retrieveAll (b : Buffer) : b.retrieveAll.peek = [] := by
  apply List.eq_nil_of_length_eq_zero
  rw [length_peek, readableBytes]
  exact Nat.sub_self _

/-- What is left is what comes behind the bytes taken. -/
@[simp] theorem peek_retrieve (b : Buffer) {len : Nat} (h : len ≤ b.readableBytes) :
    (b.retrieve len h).peek = b.peek.drop len := by
  unfold retrieve
  split_ifs with hlt
  · simp only [peek, readableBytes]
    rw [List.drop_take, List.drop_drop, Nat.sub_sub]
  · rw [peek_retrieveAll, List.drop_of_length_le]
    rw [length_peek]
    omega

theorem readableBytes_eq_zero_iff (b : Buffer) : b.readableBytes = 0 ↔ b.peek = [] := by
  rw [← length_peek, List.length_eq_zero_iff]

end Buffer

/-! ## The socket -/

/-- What the kernel makes of a `write`: room for some bytes, none just now, or
    the connection is broken (`EPIPE`, `ECONNRESET`). -/
inductive Room where
  | upTo (n : Nat)
  | full
  | broken
deriving DecidableEq, Repr

/-- The write side of a socket. -/
structure Socket where
  /-- bytes taken by `write`, in order -/
  written : List Byte := []
  /-- a write has failed for good; all later ones do -/
  broken : Bool := false
  /-- `shutdownWrite` has been called -/
  fin : Bool := false
deriving DecidableEq, Repr

/-- `sockets::write`: the number of bytes taken, or `none` for an error. -/
def Socket.write (s : Socket) (data : List Byte) (room : Room) : Option Nat × Socket :=
  if s.broken || s.fin then (none, { s with broken := true })
  else
    match room with
    | .upTo n => (some (min n data.length), { s with written := s.written ++ data.take n })
    | .full => (none, s)
    | .broken => (none, { s with broken := true })

/-! ## The connection -/

/-- `class TcpConnection`; `reading`, `writing` and `addedToLoop` are those of its
    channel. -/
structure TcpConnection where
  state : StateE
  reading : Bool
  writing : Bool
  addedToLoop : Bool
  inputBuffer : Buffer
  outputBuffer : Buffer
  socket : Socket
  /-- bytes `send` has taken while the connection was connected; nothing reads it -/
  given : List Byte
deriving DecidableEq, Repr

/-- A call of the user on a connection; `room` is for the `write` it may make. -/
inductive ConnCall where
  | send (data : List Byte) (room : Room)
  | shutdown
  | forceClose
deriving DecidableEq, Repr

namespace TcpConnection

/-- After `connectEstablished`. -/
def connectEstablished : TcpConnection where
  state := .kConnected
  reading := true
  writing := false
  addedToLoop := true
  inputBuffer := .create
  outputBuffer := .create
  socket := {}
  given := []

/-- `sendInLoop`. -/
def sendInLoop (c : TcpConnection) (data : List Byte) (room : Room) : TcpConnection :=
  if c.state = .kDisconnected then c
  else
    -- nothing in the output queue: try writing directly
    let write :=
      if !c.writing && c.outputBuffer.readableBytes = 0 then c.socket.write data room
      else (some 0, c.socket)
    let nwrote := write.1.getD 0
    -- `EPIPE` and `ECONNRESET` only
    let faultError := write.1.isNone && write.2.broken
    if !faultError && 0 < data.length - nwrote then
      { c with
        socket := write.2
        outputBuffer := c.outputBuffer.append (data.drop nwrote)
        writing := true }
    else { c with socket := write.2 }

/-- `send`, always in the loop's thread. -/
def send (c : TcpConnection) (data : List Byte) (room : Room) : TcpConnection :=
  if c.state = .kConnected then { c with given := c.given ++ data }.sendInLoop data room else c

/-- `shutdownInLoop`. -/
def shutdownInLoop (c : TcpConnection) : TcpConnection :=
  if c.writing then c else { c with socket := { c.socket with fin := true } }

/-- `shutdown`. -/
def shutdown (c : TcpConnection) : TcpConnection :=
  if c.state = .kConnected then { c with state := .kDisconnecting }.shutdownInLoop else c

/-- `forceClose`, and whether it queues `forceCloseInLoop`. -/
def forceClose (c : TcpConnection) : TcpConnection × Bool :=
  if c.state = .kConnected ∨ c.state = .kDisconnecting then
    ({ c with state := .kDisconnecting }, true)
  else (c, false)

/-- A call, and whether it queues `forceCloseInLoop`. -/
def call (c : TcpConnection) : ConnCall → TcpConnection × Bool
  | .send data room => (c.send data room, false)
  | .shutdown => (c.shutdown, false)
  | .forceClose => c.forceClose

/-- `handleRead` up to the message callback, which takes all that is readable and
    calls `retrieveAll`. -/
def readInput (c : TcpConnection) (data : List Byte) : TcpConnection :=
  { c with inputBuffer := (c.inputBuffer.readFd data).retrieveAll }

/-- `handleWrite`. -/
def handleWrite (c : TcpConnection) (room : Room) : TcpConnection :=
  if c.writing then
    let write := c.socket.write c.outputBuffer.peek room
    let c := { c with socket := write.2 }
    let n := write.1.getD 0
    if h : 0 < n ∧ n ≤ c.outputBuffer.readableBytes then
      let c := { c with outputBuffer := c.outputBuffer.retrieve n h.2 }
      if c.outputBuffer.readableBytes = 0 then
        let c := { c with writing := false }
        -- a `shutdown` came while bytes were waiting
        if c.state = .kDisconnecting then c.shutdownInLoop else c
      else c
    else c
  else c

/-- `setState(kDisconnected)` and `channel_->disableAll()`. -/
def disconnect (c : TcpConnection) : TcpConnection :=
  { c with state := .kDisconnected, reading := false, writing := false }

/-! ## The invariant -/

/-- What holds of a connection between two callbacks. -/
structure Inv (c : TcpConnection) : Prop where
  reading : c.reading = c.state.live
  /-- it waits for `POLLOUT` exactly while bytes are waiting -/
  writing : c.state.live → (c.writing = true ↔ c.outputBuffer.peek ≠ [])
  closed : c.state.live = false → c.writing = false
  input : c.inputBuffer.Drained
  /-- no byte is lost, doubled or moved, unless the peer has gone -/
  stream : c.socket.written ++ c.outputBuffer.peek = c.given ∨
    (c.socket.broken ∧ c.outputBuffer.peek = [] ∧ c.socket.written <+: c.given)
  /-- the write side is shut down behind the last byte -/
  fin : c.socket.fin → c.state ≠ .kConnected ∧ c.outputBuffer.peek = []

end TcpConnection

theorem StateE.eq_kDisconnected {st : StateE} (h : st.live = false) : st = .kDisconnected := by
  cases st with
  | kConnected => cases h
  | kDisconnecting => cases h
  | kDisconnected => rfl

/-- What `write` can do. -/
theorem Socket.write_cases (s : Socket) (data : List Byte) (room : Room) :
    (s.broken = false ∧ ∃ n ≤ data.length,
        s.write data room = (some n, { s with written := s.written ++ data.take n })) ∨
      (s.broken = false ∧ s.write data room = (none, s)) ∨
      s.write data room = (none, { s with broken := true }) := by
  unfold Socket.write
  split_ifs with hgone
  · exact Or.inr (Or.inr rfl)
  rw [Bool.or_eq_true, not_or, Bool.not_eq_true, Bool.not_eq_true] at hgone
  cases room with
  | upTo n =>
      refine Or.inl ⟨hgone.1, min n data.length, Nat.min_le_right _ _, ?_⟩
      show (some (min n data.length), { s with written := s.written ++ data.take n }) = _
      rw [← List.take_eq_take_min]
  | full => exact Or.inr (Or.inl ⟨hgone.1, rfl⟩)
  | broken => exact Or.inr (Or.inr rfl)

namespace TcpConnection

variable {c : TcpConnection}

theorem inv_connectEstablished : connectEstablished.Inv where
  reading := rfl
  writing := fun _ => by
    show (false = true ↔ Buffer.create.peek ≠ [])
    rw [Buffer.drained_create.peek_eq]
    simp
  closed := fun _ => rfl
  input := Buffer.drained_create
  stream := Or.inl (by
    show [] ++ Buffer.create.peek = []
    rw [Buffer.drained_create.peek_eq, List.append_nil])
  fin := fun h => absurd h (by decide)

/-- The bytes that have left are the first ones given. -/
theorem Inv.written_prefix (h : c.Inv) : c.socket.written <+: c.given := by
  rcases h.stream with hall | ⟨-, -, hpre⟩
  · rw [← hall]
    exact List.prefix_append _ _
  · exact hpre

theorem Inv.whole (h : c.Inv) (hsound : c.socket.broken = false) :
    c.socket.written ++ c.outputBuffer.peek = c.given := by
  rcases h.stream with hall | ⟨hbroken, -, -⟩
  · exact hall
  · rw [hsound] at hbroken
    cases hbroken

/-- Bytes given that go behind those waiting, the last of them after a direct
    write of some. -/
theorem Inv.enqueue (h : c.Inv) (hstate : c.state = .kConnected) {data : List Byte} {n : Nat}
    (hn : n < data.length) (hwhole : c.socket.written ++ c.outputBuffer.peek = c.given)
    (hdirect : 0 < n → c.outputBuffer.peek = []) :
    ({ c with
        given := c.given ++ data
        socket := { c.socket with written := c.socket.written ++ data.take n }
        outputBuffer := c.outputBuffer.append (data.drop n)
        writing := true } : TcpConnection).Inv where
  reading := h.reading
  writing := fun _ => by
    show (true = true ↔ (c.outputBuffer.append (data.drop n)).peek ≠ [])
    rw [Buffer.peek_append]
    simp only [true_iff, ne_eq, List.append_eq_nil_iff, List.drop_eq_nil_iff]
    omega
  closed := fun hdead => by
    change c.state.live = false at hdead
    rw [hstate] at hdead
    cases hdead
  input := h.input
  stream := Or.inl (by
    show c.socket.written ++ data.take n ++ (c.outputBuffer.append (data.drop n)).peek =
      c.given ++ data
    rw [Buffer.peek_append, ← hwhole]
    rcases Nat.eq_zero_or_pos n with rfl | hpos
    · simp
    · rw [hdirect hpos]
      simp)
  fin := fun hfin => absurd hstate (h.fin hfin).1

/-- Bytes given of which none has to wait. -/
theorem Inv.pass (h : c.Inv) (hstate : c.state = .kConnected) {data : List Byte}
    {socket : Socket} (hfin : socket.fin = c.socket.fin)
    (hstream : socket.written ++ c.outputBuffer.peek = c.given ++ data ∨
      (socket.broken ∧ c.outputBuffer.peek = [] ∧ socket.written <+: c.given ++ data)) :
    ({ c with given := c.given ++ data, socket := socket } : TcpConnection).Inv where
  reading := h.reading
  writing := h.writing
  closed := h.closed
  input := h.input
  stream := hstream
  fin := fun hset => absurd hstate (h.fin (hfin ▸ hset)).1

/-- What `sendInLoop` does with the bytes a write has left over. -/
theorem Inv.leftOver (h : c.Inv) (hstate : c.state = .kConnected) {data : List Byte} {n : Nat}
    {socket : Socket} (hsocket : { c.socket with written := c.socket.written ++ data.take n } =
      socket) (hn : n ≤ data.length)
    (hwhole : c.socket.written ++ c.outputBuffer.peek = c.given)
    (hdirect : 0 < n → c.outputBuffer.peek = []) :
    (if 0 < data.length - n then
        ({ c with
            given := c.given ++ data
            socket := socket
            outputBuffer := c.outputBuffer.append (data.drop n)
            writing := true } : TcpConnection)
      else { c with given := c.given ++ data, socket := socket }).Inv := by
  subst hsocket
  split_ifs with hmore
  · exact h.enqueue hstate (by omega) hwhole hdirect
  · apply h.pass hstate
    · rfl
    left
    show c.socket.written ++ data.take n ++ c.outputBuffer.peek = c.given ++ data
    rw [List.take_of_length_le (by omega), ← hwhole]
    rcases Nat.eq_zero_or_pos n with hzero | hpos
    · have hnil : data = [] := List.eq_nil_of_length_eq_zero (by omega)
      rw [hnil, List.append_nil, List.append_nil]
    · rw [hdirect hpos, List.append_nil, List.append_nil]

/-- `send` on a connected connection. -/
theorem Inv.sendInLoop (h : c.Inv) (hstate : c.state = .kConnected) (data : List Byte)
    (room : Room) :
    (({ c with given := c.given ++ data } : TcpConnection).sendInLoop data room).Inv := by
  have hlive : c.state.live = true := by
    rw [hstate]
    rfl
  have hopen : c.state ≠ .kDisconnected := by
    rw [hstate]
    decide
  have hnone : { c.socket with written := c.socket.written ++ data.take 0 } = c.socket := by
    rw [List.take_zero, List.append_nil]
  unfold TcpConnection.sendInLoop
  rw [if_neg hopen]
  dsimp only
  by_cases hempty : c.outputBuffer.peek = []
  · -- straight to the socket
    have hidle : c.writing = false := by
      rw [← Bool.not_eq_true, h.writing hlive]
      exact not_not.mpr hempty
    rw [hidle, decide_eq_true ((Buffer.readableBytes_eq_zero_iff _).mpr hempty)]
    simp only [Bool.not_false, Bool.and_self, ↓reduceIte]
    rcases c.socket.write_cases data room with
      ⟨hsound, n, hn, hwrite⟩ | ⟨hsound, hwrite⟩ | hwrite
    · simpa [hwrite, hidle] using
        h.leftOver hstate rfl hn (h.whole hsound) (fun _ => hempty)
    · simpa [hwrite, hsound, hidle] using
        h.leftOver hstate hnone (Nat.zero_le _) (h.whole hsound) (fun _ => hempty)
    · -- a broken connection: the bytes are dropped
      have hdrop : ({ c with
          given := c.given ++ data
          socket := { c.socket with broken := true } } : TcpConnection).Inv := by
        apply h.pass hstate
        · rfl
        · exact Or.inr ⟨rfl, hempty, h.written_prefix.trans (List.prefix_append _ _)⟩
      simpa [hwrite, hidle] using hdrop
  · -- behind the bytes that wait
    have hbusy : c.writing = true := (h.writing hlive).mpr hempty
    have hwhole : c.socket.written ++ c.outputBuffer.peek = c.given := by
      rcases h.stream with hall | ⟨-, hnil, -⟩
      · exact hall
      · exact absurd hnil hempty
    simpa [hbusy] using
      h.leftOver hstate hnone (Nat.zero_le _) hwhole (fun h => absurd h (lt_irrefl 0))

theorem Inv.send (h : c.Inv) (data : List Byte) (room : Room) : (c.send data room).Inv := by
  unfold TcpConnection.send
  split_ifs with hstate
  · exact h.sendInLoop hstate data room
  · exact h

/-- The write side is shut down only when nothing waits. -/
theorem Inv.shutdownInLoop (h : c.Inv) (hstate : c.state = .kDisconnecting) :
    c.shutdownInLoop.Inv := by
  have hlive : c.state.live = true := by
    rw [hstate]
    rfl
  unfold TcpConnection.shutdownInLoop
  split_ifs with hwriting
  · exact h
  · have hempty : c.outputBuffer.peek = [] := by
      rw [h.writing hlive, not_not] at hwriting
      exact hwriting
    exact
      { reading := h.reading
        writing := h.writing
        closed := h.closed
        input := h.input
        stream := h.stream
        fin := fun _ => ⟨by rw [hstate]; decide, hempty⟩ }

/-- A connection that is closing, but not closed. -/
theorem Inv.disconnecting (h : c.Inv) (hlive : c.state.live) :
    ({ c with state := .kDisconnecting } : TcpConnection).Inv where
  reading := h.reading.trans hlive
  writing := fun _ => h.writing hlive
  closed := fun hdead => by
    change StateE.live .kDisconnecting = false at hdead
    exact absurd hdead (by decide)
  input := h.input
  stream := h.stream
  fin := fun hfin => by
    refine ⟨?_, (h.fin hfin).2⟩
    show StateE.kDisconnecting ≠ .kConnected
    decide

theorem Inv.shutdown (h : c.Inv) : c.shutdown.Inv := by
  unfold TcpConnection.shutdown
  split_ifs with hstate
  · apply (h.disconnecting _).shutdownInLoop rfl
    rw [hstate]
    rfl
  · exact h

theorem live_iff (st : StateE) : st.live = true ↔ st = .kConnected ∨ st = .kDisconnecting := by
  cases st <;> decide

theorem Inv.forceClose (h : c.Inv) : c.forceClose.1.Inv := by
  unfold TcpConnection.forceClose
  split_ifs with hstate
  · exact h.disconnecting ((live_iff _).mpr hstate)
  · exact h

/-- Whatever the user calls. -/
theorem Inv.call (h : c.Inv) (cl : ConnCall) : (c.call cl).1.Inv := by
  cases cl with
  | send data room => exact h.send data room
  | shutdown => exact h.shutdown
  | forceClose => exact h.forceClose

theorem Inv.readInput (h : c.Inv) {data : List Byte} (hlen : data.length ≤ c.inputBuffer.offered) :
    (c.readInput data).Inv where
  reading := h.reading
  writing := h.writing
  closed := h.closed
  input := h.input.readFd hlen
  stream := h.stream
  fin := h.fin

theorem Inv.disconnect (h : c.Inv) : c.disconnect.Inv where
  reading := rfl
  writing := fun hlive => by
    change StateE.live .kDisconnected = true at hlive
    exact absurd hlive (by decide)
  closed := fun _ => rfl
  input := h.input
  stream := h.stream
  fin := fun hfin => by
    refine ⟨?_, (h.fin hfin).2⟩
    show StateE.kDisconnected ≠ .kConnected
    decide

/-- The first `n` waiting bytes have been written. -/
theorem Inv.drain (h : c.Inv) (hlive : c.state.live) (hsound : c.socket.broken = false) {n : Nat}
    (hpos : 0 < n) (hn : n ≤ c.outputBuffer.readableBytes) {writing : Bool}
    (hwriting : writing = true ↔ n < c.outputBuffer.readableBytes) :
    ({ c with
        socket := { c.socket with
          written := c.socket.written ++ c.outputBuffer.peek.take n }
        outputBuffer := c.outputBuffer.retrieve n hn
        writing := writing } : TcpConnection).Inv where
  reading := h.reading
  writing := fun _ => by
    show writing = true ↔ (c.outputBuffer.retrieve n hn).peek ≠ []
    rw [Buffer.peek_retrieve, Ne, List.drop_eq_nil_iff, Buffer.length_peek, not_le]
    exact hwriting
  closed := fun hdead => by
    change c.state.live = false at hdead
    rw [hlive] at hdead
    cases hdead
  input := h.input
  stream := Or.inl (by
    show c.socket.written ++ c.outputBuffer.peek.take n ++ (c.outputBuffer.retrieve n hn).peek =
      c.given
    rw [Buffer.peek_retrieve, List.append_assoc, List.take_append_drop]
    exact h.whole hsound)
  fin := fun hfin => by
    have hnil := (h.fin hfin).2
    rw [← Buffer.readableBytes_eq_zero_iff] at hnil
    omega

/-- A write that failed for good. -/
theorem Inv.breaks (h : c.Inv) :
    ({ c with socket := { c.socket with broken := true } } : TcpConnection).Inv where
  reading := h.reading
  writing := h.writing
  closed := h.closed
  input := h.input
  stream := by
    rcases h.stream with hall | ⟨-, hempty, hpre⟩
    · exact Or.inl hall
    · exact Or.inr ⟨rfl, hempty, hpre⟩
  fin := h.fin

theorem Inv.handleWrite (h : c.Inv) (room : Room) : (c.handleWrite room).Inv := by
  unfold TcpConnection.handleWrite
  split_ifs with hwriting
  · have hlive : c.state.live = true := by
      rw [← Bool.not_eq_false]
      intro hdead
      rw [h.closed hdead] at hwriting
      cases hwriting
    rcases c.socket.write_cases c.outputBuffer.peek room with
      ⟨hsound, n, hn, hwrite⟩ | ⟨-, hwrite⟩ | hwrite
    · simp only [hwrite, Option.getD_some]
      have hle : n ≤ c.outputBuffer.readableBytes := by
        rw [← Buffer.length_peek]
        exact hn
      by_cases hpos : 0 < n
      · rw [dif_pos ⟨hpos, hle⟩]
        have hleft : (c.outputBuffer.retrieve n hle).readableBytes =
            c.outputBuffer.readableBytes - n := by
          rw [← Buffer.length_peek, Buffer.peek_retrieve, List.length_drop, Buffer.length_peek]
        by_cases hdone : (c.outputBuffer.retrieve n hle).readableBytes = 0
        · rw [if_pos hdone]
          have hdrain := @Inv.drain c h hlive hsound n hpos hle false (by
            simp only [Bool.false_eq_true, false_iff, not_lt]
            omega)
          split_ifs with hstate
          · exact hdrain.shutdownInLoop hstate
          · exact hdrain
        · rw [if_neg hdone]
          apply h.drain hlive hsound hpos hle
          simp only [hwriting, true_iff]
          omega
      · rw [dif_neg (fun hboth => hpos hboth.1)]
        obtain rfl : n = 0 := by omega
        rw [List.take_zero, List.append_nil]
        exact h
    · simpa [hwrite] using h
    · simpa [hwrite] using h.breaks
  · exact h

/-- **Nothing is withheld**: a socket with room for all that waits takes it, and a
    shutdown that had to wait follows. -/
theorem Inv.handleWrite_all (h : c.Inv) (hlive : c.state.live) (hsound : c.socket.broken = false)
    (hwaits : c.outputBuffer.peek ≠ []) {n : Nat} (hn : c.outputBuffer.peek.length ≤ n) :
    (c.handleWrite (.upTo n)).socket.written = c.given ∧
      (c.state = .kDisconnecting → (c.handleWrite (.upTo n)).socket.fin = true) := by
  have hwriting : c.writing = true := (h.writing hlive).mpr hwaits
  have hopen : c.socket.fin = false := by
    rw [← Bool.not_eq_true]
    intro hfin
    exact hwaits (h.fin hfin).2
  have hwrite : c.socket.write c.outputBuffer.peek (.upTo n) =
      (some c.outputBuffer.readableBytes,
        { c.socket with written := c.socket.written ++ c.outputBuffer.peek }) := by
    unfold Socket.write
    rw [if_neg (by rw [hsound, hopen]; decide)]
    show (some (min n c.outputBuffer.peek.length),
      { c.socket with written := c.socket.written ++ c.outputBuffer.peek.take n }) = _
    rw [Nat.min_eq_right hn, List.take_of_length_le hn, Buffer.length_peek]
  have hpos : 0 < c.outputBuffer.readableBytes := by
    rw [← Buffer.length_peek]
    exact List.length_pos_iff.mpr hwaits
  have hempty : (c.outputBuffer.retrieve c.outputBuffer.readableBytes
      (Nat.le_refl _)).readableBytes = 0 := by
    rw [← Buffer.length_peek, Buffer.peek_retrieve, List.length_drop, Buffer.length_peek,
      Nat.sub_self]
  have hall := h.whole hsound
  unfold TcpConnection.handleWrite
  rw [if_pos hwriting]
  simp only [hwrite, Option.getD_some]
  rw [dif_pos ⟨hpos, Nat.le_refl _⟩, if_pos hempty]
  split_ifs with hstate
  · exact ⟨hall, fun _ => rfl⟩
  · exact ⟨hall, fun hstop => absurd hstop hstate⟩

/-! ## What stays as it is -/

@[simp] theorem call_live (cl : ConnCall) : (c.call cl).1.state.live = c.state.live := by
  cases cl with
  | send data room =>
      show (c.send data room).state.live = _
      unfold TcpConnection.send TcpConnection.sendInLoop
      dsimp only
      split_ifs <;> rfl
  | shutdown =>
      show c.shutdown.state.live = _
      unfold TcpConnection.shutdown TcpConnection.shutdownInLoop
      split_ifs with hstate
      · rw [hstate]
        rfl
      · rw [hstate]
        rfl
      · rfl
  | forceClose =>
      show c.forceClose.1.state.live = _
      unfold TcpConnection.forceClose
      split_ifs with hstate
      · rw [(live_iff _).mpr hstate]
        rfl
      · rfl

@[simp] theorem call_addedToLoop (cl : ConnCall) :
    (c.call cl).1.addedToLoop = c.addedToLoop := by
  cases cl with
  | send data room =>
      show (c.send data room).addedToLoop = _
      unfold TcpConnection.send TcpConnection.sendInLoop
      dsimp only
      split_ifs <;> rfl
  | shutdown =>
      show c.shutdown.addedToLoop = _
      unfold TcpConnection.shutdown TcpConnection.shutdownInLoop
      split_ifs <;> rfl
  | forceClose =>
      show c.forceClose.1.addedToLoop = _
      unfold TcpConnection.forceClose
      split_ifs <;> rfl

/-- Only a connection that is still open queues its close. -/
theorem call_queues {cl : ConnCall} (h : (c.call cl).2 = true) : c.state.live := by
  cases cl with
  | send data room => cases h
  | shutdown => cases h
  | forceClose =>
      change c.forceClose.2 = true at h
      unfold TcpConnection.forceClose at h
      split_ifs at h with hstate
      exact (live_iff _).mpr hstate

@[simp] theorem handleWrite_live (room : Room) :
    (c.handleWrite room).state.live = c.state.live := by
  unfold TcpConnection.handleWrite TcpConnection.shutdownInLoop
  dsimp only
  split_ifs <;> rfl

@[simp] theorem handleWrite_addedToLoop (room : Room) :
    (c.handleWrite room).addedToLoop = c.addedToLoop := by
  unfold TcpConnection.handleWrite TcpConnection.shutdownInLoop
  dsimp only
  split_ifs <;> rfl

end TcpConnection
end Muduo
end UdpSpeed
