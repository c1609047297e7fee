/-
  UdpSpeed.Lib.Channel

  Reliable FIFO channels, one for each index: what is pushed into a channel is
  popped from it once and in order.  The state is what is on its way.
-/

import UdpSpeed.Lib.EventSystem

namespace UdpSpeed
namespace Channel

open EventSystem

variable {ι α : Type*}

inductive Event (ι α : Type*) where
  | push (i : ι) (a : α)
  | pop (i : ι) (a : α)
deriving DecidableEq, Repr

/-- Only the front of a channel can be popped. -/
def step [DecidableEq ι] [DecidableEq α] (q : ι → List α) : Event ι α → Option (ι → List α)
  | .push i a => some (Function.update q i (q i ++ [a]))
  | .pop i a =>
      if (q i).head? = some a then some (Function.update q i (q i).tail) else none

/-- What a list of events pushes into channel `i`. -/
def pushed [DecidableEq ι] (i : ι) (es : List (Event ι α)) : List α :=
  es.filterMap (fun e => match e with
    | .push j a => if j = i then some a else none
    | .pop .. => none)

/-- What it pops from there. -/
def popped [DecidableEq ι] (i : ι) (es : List (Event ι α)) : List α :=
  es.filterMap (fun e => match e with
    | .push .. => none
    | .pop j a => if j = i then some a else none)

variable [DecidableEq ι] [DecidableEq α]

/-- One event keeps the balance of every channel. -/
theorem step_balance {q q' : ι → List α} {e : Event ι α} (h : step q e = some q') (i : ι) :
    q i ++ pushed i [e] = popped i [e] ++ q' i := by
  cases e with
  | push j a =>
      obtain rfl := Option.some.inj h
      by_cases hj : j = i
      · subst hj
        simp [pushed, popped]
      · rw [Function.update_of_ne (Ne.symm hj)]
        simp [pushed, popped, hj]
  | pop j a =>
      rw [step] at h
      split_ifs at h with hhead
      obtain rfl := Option.some.inj h
      by_cases hj : j = i
      · subst hj
        rw [Function.update_self]
        simp only [pushed, popped, List.filterMap_cons, List.filterMap_nil, if_true,
          List.append_nil, List.singleton_append]
        exact (List.cons_head?_tail hhead).symm
      · rw [Function.update_of_ne (Ne.symm hj)]
        simp [pushed, popped, hj]

/-- **A channel delivers what was put into it, in order and once each**; the rest
    is on its way. -/
theorem run_balance {q q' : ι → List α} {es : List (Event ι α)} (h : run step q es = some q')
    (i : ι) : q i ++ pushed i es = popped i es ++ q' i := by
  induction es generalizing q with
  | nil =>
      obtain rfl := Option.some.inj h
      simp [pushed, popped]
  | cons e es ih =>
      rw [run, Option.bind_eq_some_iff] at h
      obtain ⟨q₁, hstep, hrest⟩ := h
      have hone := step_balance hstep i
      have hpush : pushed i (e :: es) = pushed i [e] ++ pushed i es :=
        List.filterMap_append (l := [e])
      have hpop : popped i (e :: es) = popped i [e] ++ popped i es :=
        List.filterMap_append (l := [e])
      rw [hpush, hpop, ← List.append_assoc, hone, List.append_assoc, ih hrest, List.append_assoc]

end Channel
end UdpSpeed
