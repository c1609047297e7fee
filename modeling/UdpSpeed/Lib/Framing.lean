/-
  UdpSpeed.Lib.Framing

  Self-delimiting frames in a byte stream: the first symbol of a frame fixes
  its length.  `Split lenOf stream frames tail` says that `frames` is the
  maximal list of complete frames at the front of `stream` and `tail` what is
  left over.  Nothing here mentions a particular protocol: the symbols and the
  length function are arbitrary.
-/

import Mathlib.Data.List.Basic
import Mathlib.Tactic

namespace UdpSpeed
namespace Framing

variable {α : Type*} (lenOf : α → Nat)

/-- A complete frame: its first symbol announces exactly its length. -/
def Complete (frame : List α) : Prop := ∃ a rest, frame = a :: rest ∧ frame.length = lenOf a

/-- No complete frame stands at the front. -/
def Incomplete (stream : List α) : Prop := ∀ a rest, stream = a :: rest → stream.length < lenOf a

/-- `frames` are the complete frames at the front of `stream`, and `tail` is
    the incomplete remainder. -/
structure Split (stream : List α) (frames : List (List α)) (tail : List α) : Prop where
  append : stream = frames.flatten ++ tail
  complete : ∀ frame ∈ frames, Complete lenOf frame
  incomplete : Incomplete lenOf tail

variable {lenOf}

theorem incomplete_nil : Incomplete lenOf ([] : List α) := by
  intro a rest h
  cases h

/-- Nothing has been split off exactly when the stream itself is incomplete. -/
theorem split_nil_iff {stream tail : List α} :
    Split lenOf stream [] tail ↔ tail = stream ∧ Incomplete lenOf stream := by
  constructor
  · rintro ⟨happ, -, hinc⟩
    have htail : tail = stream := by simpa using happ.symm
    exact ⟨htail, htail ▸ hinc⟩
  · rintro ⟨rfl, hinc⟩
    exact ⟨by simp, by simp, hinc⟩

/-- A prefix of a stream that starts with a complete frame is incomplete
    exactly when it is shorter than that frame. -/
theorem incomplete_prefix_iff {frame pre suf rest : List α} (hframe : Complete lenOf frame)
    (h : pre ++ suf = frame ++ rest) :
    Incomplete lenOf pre ↔ pre.length < frame.length := by
  obtain ⟨a, body, rfl, hlen⟩ := hframe
  cases pre with
  | nil => simp [incomplete_nil]
  | cons b pre =>
      -- the two streams share their first symbol, hence the announced length
      have hb : b = a := by simpa using congrArg List.head? h
      subst hb
      rw [hlen]
      constructor
      · intro hinc
        exact hinc b pre rfl
      · rintro hlt c rest' heq
        obtain ⟨rfl, rfl⟩ := List.cons.inj heq
        exact hlt

end Framing
end UdpSpeed
