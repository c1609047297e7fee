/-
  UdpSpeed.Muduo.Reading

  `TcpConnection::handleRead` (muduo/net/TcpConnection.cc) in front of a process:
  each connection has an input buffer, a read goes into it, and the message
  callback takes what is readable and calls `retrieveAll`.

  The process itself only sees message events.  It never sees one of more than
  `maxRead` bytes, and its bytes are the ones `readv` stored.
-/

import UdpSpeed.Lib.EventSystem
import UdpSpeed.Muduo.Buffer

namespace UdpSpeed
namespace Muduo

variable {σ ε κ : Type*}

/-- A process as far as reading goes: `message c data` is its message callback on
    the connection `c`. -/
structure Reader (σ ε κ : Type*) where
  step : σ → ε → Option σ
  message : κ → List Byte → ε
  isMessage : ε → Bool
  isMessage_message : ∀ c data, isMessage (message c data) = true
  data_eq : ∀ {c c' data data'}, message c data = message c' data' → data = data'

/-- The process and the `inputBuffer_` of each of its connections. -/
structure Buffered (σ κ : Type*) where
  proc : σ
  inputBuffer : κ → Buffer

/-- A connection object starts with an empty buffer. -/
def Buffered.create (proc : σ) : Buffered σ κ where
  proc := proc
  inputBuffer := fun _ => .create

/-- What happens: `readv` stores some bytes, or anything but a message. -/
inductive BufferedEvent (ε κ : Type*) where
  | handleRead (c : κ) (data : List Byte)
  | other (e : ε)

/-- `readv` has stored at least one byte and at most what it was offered. -/
def Buffered.reads (s : Buffered σ κ) (c : κ) (data : List Byte) : Bool :=
  0 < data.length && data.length ≤ (s.inputBuffer c).offered

/-- All buffers are empty between two events. -/
def Buffered.AllDrained (s : Buffered σ κ) : Prop := ∀ c, (s.inputBuffer c).Drained

theorem Buffered.allDrained_create (proc : σ) : (Buffered.create proc : Buffered σ κ).AllDrained :=
  fun _ => Buffer.drained_create

/-- What the message callback finds is what `readv` stored, at most `maxRead`
    bytes. -/
theorem Buffered.AllDrained.callback {s : Buffered σ κ} (h : s.AllDrained) {c : κ}
    {data : List Byte} (hreads : s.reads c data) :
    ((s.inputBuffer c).readFd data).peek = data ∧ data ≠ [] ∧ data.length ≤ maxRead := by
  unfold Buffered.reads at hreads
  rw [Bool.and_eq_true, decide_eq_true_eq, decide_eq_true_eq] at hreads
  obtain ⟨hpos, hlen⟩ := hreads
  refine ⟨?_, List.length_pos_iff.mp hpos, hlen.trans (h c).offered_le⟩
  rw [Buffer.peek_readFd, (h c).peek_eq, List.nil_append]

namespace Reader

variable [DecidableEq κ] (r : Reader σ ε κ)

/-- `handleRead`: `readFd`, then the message callback with all that is readable. -/
def handleRead (s : Buffered σ κ) (c : κ) (data : List Byte) : Option (Buffered σ κ) :=
  let buf := (s.inputBuffer c).readFd data
  (r.step s.proc (r.message c buf.peek)).map (fun proc =>
    { proc := proc, inputBuffer := Function.update s.inputBuffer c buf.retrieveAll })

/-- The step function. -/
def bufferedStep (s : Buffered σ κ) : BufferedEvent ε κ → Option (Buffered σ κ)
  | .handleRead c data => if s.reads c data then r.handleRead s c data else none
  | .other e =>
      if r.isMessage e then none else (r.step s.proc e).map (fun proc => { s with proc := proc })

/-- The event as the process sees it. -/
def plain : BufferedEvent ε κ → ε
  | .handleRead c data => r.message c data
  | .other e => e

theorem drained_step {s s' : Buffered σ κ} {e : BufferedEvent ε κ} (h : s.AllDrained)
    (hstep : r.bufferedStep s e = some s') : s'.AllDrained := by
  cases e with
  | handleRead c data =>
      obtain ⟨hreads, hread⟩ := Option.ite_none_right_eq_some.mp hstep
      obtain ⟨proc, -, rfl⟩ := Option.map_eq_some_iff.mp hread
      unfold Buffered.reads at hreads
      rw [Bool.and_eq_true, decide_eq_true_eq, decide_eq_true_eq] at hreads
      intro k
      show (Function.update s.inputBuffer c _ k).Drained
      -- the buffer that was read into has been emptied again
      by_cases hk : k = c
      · subst hk
        rw [Function.update_self]
        exact (h k).readFd hreads.2
      · rw [Function.update_of_ne hk]
        exact h k
  | other e =>
      obtain ⟨-, hother⟩ := Option.ite_none_left_eq_some.mp hstep
      obtain ⟨proc, -, rfl⟩ := Option.map_eq_some_iff.mp hother
      exact h

/-- Seen from the process, a step is its own step with the bytes read. -/
theorem plain_step {s s' : Buffered σ κ} {e : BufferedEvent ε κ} (h : s.AllDrained)
    (hstep : r.bufferedStep s e = some s') : r.step s.proc (r.plain e) = some s'.proc := by
  cases e with
  | handleRead c data =>
      obtain ⟨hreads, hread⟩ := Option.ite_none_right_eq_some.mp hstep
      obtain ⟨proc, hproc, rfl⟩ := Option.map_eq_some_iff.mp hread
      rw [(h.callback hreads).1] at hproc
      exact hproc
  | other e =>
      obtain ⟨-, hother⟩ := Option.ite_none_left_eq_some.mp hstep
      obtain ⟨proc, hproc, rfl⟩ := Option.map_eq_some_iff.mp hother
      exact hproc

/-- No message is longer than one read. -/
theorem data_le {s s' : Buffered σ κ} {e : BufferedEvent ε κ} (h : s.AllDrained)
    (hstep : r.bufferedStep s e = some s') {c : κ} {data : List Byte}
    (heq : r.plain e = r.message c data) : data.length ≤ maxRead := by
  cases e with
  | handleRead k bytes =>
      obtain ⟨hreads, -⟩ := Option.ite_none_right_eq_some.mp hstep
      obtain rfl := r.data_eq heq
      exact (h.callback hreads).2.2
  | other e =>
      -- a message only comes from a read
      obtain ⟨hno, -⟩ := Option.ite_none_left_eq_some.mp hstep
      obtain rfl : e = r.message c data := heq
      exact absurd (r.isMessage_message c data) hno

end Reader
end Muduo
end UdpSpeed
