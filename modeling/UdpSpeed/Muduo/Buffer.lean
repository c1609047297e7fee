/-
  UdpSpeed.Muduo.Buffer

  `Buffer` (muduo/net/Buffer.h, Buffer.cc), the input buffer of a
  `TcpConnection`: the readable bytes are those between the two indices.
  `readFd` reads into the free space behind them and, where that is small, into
  64 KiB more on the stack, which `append` then makes room for.

  The class keeps `kCheapPrepend <= size` and `0 <= readerIndex <= writerIndex
  <= size`; here these are fields, and its asserts on them hold by construction.
-/

import Mathlib.Tactic
import UdpSpeed.Kcp.Segment
import UdpSpeed.Muduo.Tcp

namespace UdpSpeed
namespace Muduo

def kCheapPrepend : Nat := 8
def kInitialSize : Nat := 1024

/-- `sizeof extrabuf` in `Buffer::readFd`. -/
def extrabufSize : Nat := 65536

/-- `class Buffer`; `buffer` is the `std::vector`, its length the vector's size. -/
structure Buffer where
  buffer : List Byte
  readerIndex : Nat
  writerIndex : Nat
  cheap_le : kCheapPrepend ≤ buffer.length
  reader_le : readerIndex ≤ writerIndex
  writer_le : writerIndex ≤ buffer.length
deriving DecidableEq, Repr

namespace Buffer

/-- The constructor, with the default size. -/
def create : Buffer where
  buffer := List.replicate (kCheapPrepend + kInitialSize) 0
  readerIndex := kCheapPrepend
  writerIndex := kCheapPrepend
  cheap_le := by
    rw [List.length_replicate]
    omega
  reader_le := le_rfl
  writer_le := by
    rw [List.length_replicate]
    omega

def readableBytes (b : Buffer) : Nat := b.writerIndex - b.readerIndex

def writableBytes (b : Buffer) : Nat := b.buffer.length - b.writerIndex

def prependableBytes (b : Buffer) : Nat := b.readerIndex

/-- The bytes from `peek()` on, as many as `readableBytes()` says. -/
def peek (b : Buffer) : List Byte := (b.buffer.drop b.readerIndex).take b.readableBytes

/-- `retrieveAll`. -/
def retrieveAll (b : Buffer) : Buffer where
  buffer := b.buffer
  readerIndex := kCheapPrepend
  writerIndex := kCheapPrepend
  cheap_le := b.cheap_le
  reader_le := le_rfl
  writer_le := b.cheap_le

/-- The bytes are copied to `beginWrite()` and `writerIndex_` moves behind them
    (`hasWritten`, whose assert is the argument). -/
def write (b : Buffer) (data : List Byte) (h : data.length ≤ b.writableBytes) : Buffer where
  buffer := b.buffer.take b.writerIndex ++ data ++ b.buffer.drop (b.writerIndex + data.length)
  readerIndex := b.readerIndex
  writerIndex := b.writerIndex + data.length
  cheap_le := by
    have hcheap := b.cheap_le
    have hwriter := b.writer_le
    have hroom : data.length ≤ b.buffer.length - b.writerIndex := h
    simp only [List.length_append, List.length_take, List.length_drop]
    omega
  reader_le := Nat.le_add_right_of_le b.reader_le
  writer_le := by
    have hwriter := b.writer_le
    have hroom : data.length ≤ b.buffer.length - b.writerIndex := h
    simp only [List.length_append, List.length_take, List.length_drop]
    omega

/-- `buffer_.resize(writerIndex_+len)`, for a `len` beyond the free space. -/
def resize (b : Buffer) (len : Nat) : Buffer where
  buffer := b.buffer ++ List.replicate (b.writerIndex + len - b.buffer.length) 0
  readerIndex := b.readerIndex
  writerIndex := b.writerIndex
  cheap_le := by
    have hcheap := b.cheap_le
    rw [List.length_append]
    omega
  reader_le := b.reader_le
  writer_le := by
    have hwriter := b.writer_le
    rw [List.length_append]
    omega

/-- Move the readable bytes to the front; the argument is the source's
    `assert(kCheapPrepend < readerIndex_)`. -/
def moveToFront (b : Buffer) (h : kCheapPrepend < b.readerIndex) : Buffer where
  buffer := b.buffer.take kCheapPrepend ++ b.peek ++
    b.buffer.drop (kCheapPrepend + b.readableBytes)
  readerIndex := kCheapPrepend
  writerIndex := kCheapPrepend + b.readableBytes
  cheap_le := by
    have hcheap := b.cheap_le
    simp only [List.length_append, List.length_take]
    omega
  reader_le := Nat.le_add_right _ _
  writer_le := by
    have hcheap := b.cheap_le
    have hreader := b.reader_le
    have hwriter := b.writer_le
    simp only [peek, readableBytes, List.length_append, List.length_take, List.length_drop]
    omega

/-- `makeSpace`, which is only called when the free space is too small. -/
def makeSpace (b : Buffer) (len : Nat) (h : b.writableBytes < len) : Buffer :=
  if hroom : b.writableBytes + b.prependableBytes < len + kCheapPrepend then b.resize len
  else b.moveToFront (by
    unfold prependableBytes at hroom
    omega)

/-- `ensureWritableBytes`. -/
def ensureWritableBytes (b : Buffer) (len : Nat) : Buffer :=
  if h : b.writableBytes < len then b.makeSpace len h else b

/-! ## Making room -/

theorem length_peek (b : Buffer) : b.peek.length = b.readableBytes := by
  have hreader := b.reader_le
  have hwriter := b.writer_le
  simp only [peek, readableBytes, List.length_take, List.length_drop]
  omega

@[simp] theorem writableBytes_resize (b : Buffer) {len : Nat} (h : b.writableBytes < len) :
    (b.resize len).writableBytes = len := by
  have hwriter := b.writer_le
  unfold writableBytes at h
  simp only [resize, writableBytes, List.length_append, List.length_replicate]
  omega

@[simp] theorem peek_resize (b : Buffer) (len : Nat) : (b.resize len).peek = b.peek := by
  have hreader := b.reader_le
  have hwriter := b.writer_le
  simp only [resize, peek, readableBytes]
  rw [List.drop_append_of_le_length (by omega), List.take_append_of_le_length]
  rw [List.length_drop]
  omega

@[simp] theorem peek_moveToFront (b : Buffer) (h : kCheapPrepend < b.readerIndex) :
    (b.moveToFront h).peek = b.peek := by
  have hcheap : (b.buffer.take kCheapPrepend).length = kCheapPrepend :=
    List.length_take_of_le b.cheap_le
  have hreadable : (b.moveToFront h).readableBytes = b.peek.length := by
    rw [length_peek]
    simp only [moveToFront, readableBytes]
    omega
  rw [peek, hreadable]
  simp only [moveToFront]
  rw [List.append_assoc, List.drop_left' hcheap, List.take_left]

/-- The free space after the move is what there was, and the space in front of
    the readable bytes but for `kCheapPrepend`. -/
theorem writableBytes_moveToFront (b : Buffer) (h : kCheapPrepend < b.readerIndex) :
    (b.moveToFront h).writableBytes = b.writableBytes + b.prependableBytes - kCheapPrepend := by
  have hreader := b.reader_le
  have hwriter := b.writer_le
  have hcheap : (b.buffer.take kCheapPrepend).length = kCheapPrepend :=
    List.length_take_of_le b.cheap_le
  have hpeek := b.length_peek
  simp only [moveToFront, writableBytes, prependableBytes, List.length_append, List.length_drop]
  unfold readableBytes at hpeek ⊢
  omega

@[simp] theorem peek_ensureWritableBytes (b : Buffer) (len : Nat) :
    (b.ensureWritableBytes len).peek = b.peek := by
  unfold ensureWritableBytes
  split_ifs with h
  · unfold makeSpace
    split_ifs with hroom
    · exact b.peek_resize len
    · exact b.peek_moveToFront _
  · rfl

/-- The assert at the end of `ensureWritableBytes`. -/
theorem le_writableBytes_ensureWritableBytes (b : Buffer) (len : Nat) :
    len ≤ (b.ensureWritableBytes len).writableBytes := by
  unfold ensureWritableBytes
  split_ifs with h
  · unfold makeSpace
    split_ifs with hroom
    · rw [b.writableBytes_resize h]
    · rw [writableBytes_moveToFront]
      omega
  · omega

/-! ## Writing -/

/-- `append`. -/
def append (b : Buffer) (data : List Byte) : Buffer :=
  (b.ensureWritableBytes data.length).write data (b.le_writableBytes_ensureWritableBytes _)

theorem length_write (b : Buffer) {data : List Byte} (h : data.length ≤ b.writableBytes) :
    (b.write data h).buffer.length = b.buffer.length := by
  have hwriter := b.writer_le
  unfold writableBytes at h
  simp only [write, List.length_append, List.length_take, List.length_drop]
  omega

/-- What is written comes behind what was readable. -/
@[simp] theorem peek_write (b : Buffer) {data : List Byte} (h : data.length ≤ b.writableBytes) :
    (b.write data h).peek = b.peek ++ data := by
  have hreader := b.reader_le
  have hwriter := b.writer_le
  have htake : (b.buffer.take b.writerIndex).length = b.writerIndex :=
    List.length_take_of_le hwriter
  have hreadable : (b.write data h).readableBytes = (b.peek ++ data).length := by
    rw [List.length_append, length_peek]
    simp only [write, readableBytes]
    omega
  have hpeek : (b.buffer.take b.writerIndex).drop b.readerIndex = b.peek := by
    rw [List.drop_take]
    rfl
  rw [peek, hreadable]
  simp only [write]
  rw [List.append_assoc, List.drop_append_of_le_length (by omega), hpeek, ← List.append_assoc,
    List.take_left]

@[simp] theorem peek_append (b : Buffer) (data : List Byte) :
    (b.append data).peek = b.peek ++ data := by
  rw [append, peek_write, peek_ensureWritableBytes]

/-! ## Reading from the socket -/

/-- The total length of the iovecs that `readFd` offers to `readv`. -/
def offered (b : Buffer) : Nat :=
  if b.writableBytes < extrabufSize then b.writableBytes + extrabufSize else b.writableBytes

/-- `readFd` when `readv` has stored `data` in the iovecs. -/
def readFd (b : Buffer) (data : List Byte) : Buffer :=
  if h : data.length ≤ b.writableBytes then b.write data h
  else
    -- the buffer is full now, the rest is in `extrabuf`
    (b.write (data.take b.writableBytes) (List.length_take_le _ _)).append
      (data.drop b.writableBytes)

/-- No byte is lost on the way through `extrabuf`. -/
@[simp] theorem peek_readFd (b : Buffer) (data : List Byte) :
    (b.readFd data).peek = b.peek ++ data := by
  unfold readFd
  split_ifs with h
  · exact b.peek_write h
  · rw [peek_append, peek_write, List.append_assoc, List.take_append_drop]

/-! ## A buffer that is emptied after each read -/

/-- The buffer between two callbacks: empty, and never larger than the largest
    read has made it. -/
structure Drained (b : Buffer) : Prop where
  reader : b.readerIndex = kCheapPrepend
  writer : b.writerIndex = kCheapPrepend
  size : b.buffer.length ≤ kCheapPrepend + maxRead

theorem drained_create : create.Drained where
  reader := rfl
  writer := rfl
  size := by
    show (List.replicate (kCheapPrepend + kInitialSize) (0 : Byte)).length ≤ _
    rw [List.length_replicate]
    decide

theorem Drained.peek_eq {b : Buffer} (h : b.Drained) : b.peek = [] := by
  apply List.eq_nil_of_length_eq_zero
  rw [length_peek, readableBytes, h.reader, h.writer, Nat.sub_self]

/-- **One read brings at most `maxRead` bytes.**  With less than 64 KiB free there
    are 64 KiB more on the stack, and with more only the free space is offered. -/
theorem Drained.offered_le {b : Buffer} (h : b.Drained) : b.offered ≤ maxRead := by
  have hsize := h.size
  unfold offered writableBytes
  rw [h.writer]
  unfold maxRead extrabufSize at *
  split_ifs <;> omega

/-- A read that needs `extrabuf` leaves the buffer just large enough for its
    bytes, any other leaves the size alone. -/
theorem Drained.length_readFd {b : Buffer} (h : b.Drained) (data : List Byte) :
    (b.readFd data).buffer.length = max b.buffer.length (kCheapPrepend + data.length) := by
  have hcheap := b.cheap_le
  have hwritable : b.writableBytes = b.buffer.length - kCheapPrepend := by
    rw [writableBytes, h.writer]
  unfold readFd
  split_ifs with hfit
  · rw [b.length_write hfit]
    omega
  · -- full: nothing is writable, and only the cheap prepend is in front
    have hlen : (data.take b.writableBytes).length = b.writableBytes :=
      List.length_take_of_le (by omega)
    generalize hfull : b.write (data.take b.writableBytes) (List.length_take_le _ _) = full
    have hsize : full.buffer.length = b.buffer.length := by
      rw [← hfull, length_write]
    have hwriter : full.writerIndex = b.buffer.length := by
      rw [← hfull]
      show b.writerIndex + (data.take b.writableBytes).length = _
      rw [hlen, h.writer]
      omega
    have hreader : full.readerIndex = kCheapPrepend := by
      rw [← hfull]
      exact h.reader
    have hnone : full.writableBytes = 0 := by
      rw [writableBytes, hsize, hwriter, Nat.sub_self]
    have hsome : full.writableBytes < (data.drop b.writableBytes).length := by
      rw [hnone, List.length_drop]
      omega
    have hspace : full.ensureWritableBytes (data.drop b.writableBytes).length =
        full.resize (data.drop b.writableBytes).length := by
      have hroom : full.writableBytes + full.prependableBytes <
          (data.drop b.writableBytes).length + kCheapPrepend := by
        rw [prependableBytes, hreader]
        omega
      rw [ensureWritableBytes, dif_pos hsome, makeSpace, dif_pos hroom]
    rw [append, length_write, hspace]
    simp only [resize, List.length_append, List.length_replicate, List.length_drop]
    rw [hsize, hwriter, hwritable]
    omega

/-- **The invariant of the whole history of a buffer**: a read within what is
    offered, and `retrieveAll` after it. -/
theorem Drained.readFd {b : Buffer} (h : b.Drained) {data : List Byte}
    (hlen : data.length ≤ b.offered) : (b.readFd data).retrieveAll.Drained where
  reader := rfl
  writer := rfl
  size := by
    have hsize := h.size
    have hoffered := h.offered_le
    show (b.readFd data).buffer.length ≤ _
    rw [h.length_readFd]
    omega

end Buffer
end Muduo
end UdpSpeed
