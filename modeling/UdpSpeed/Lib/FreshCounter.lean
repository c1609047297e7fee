/-
  UdpSpeed.Lib.FreshCounter

  A wrapping counter that hands out non-zero numbers: while fewer than
  `2 ^ w - 1` have been handed out, no number is handed out twice, and from then
  on they come back in the same order.
-/

import UdpSpeed.Lib.SerialNumber
import Mathlib.Data.List.Nodup
import Mathlib.Data.Nat.ModEq

namespace UdpSpeed
namespace FreshCounter

open SerialNumber

variable {w : Nat}

/-- Take the counter's value, or the one after it if that is `0`: the number
    handed out and the counter afterwards. -/
def next (counter : BitVec w) : BitVec w × BitVec w :=
  if counter = 0 then (counter + 1, counter + 2) else (counter, counter + 1)

/-- The numbers handed out since `start`: the counter has moved `n` places,
    all numbers are behind it, and at most one place (that of `0`) was
    skipped. -/
def Issued (start counter : BitVec w) (issued : List (BitVec w)) : Prop :=
  ∃ n : Nat, n < 2 ^ w ∧ counter = start + BitVec.ofNat w n ∧
    n ≤ issued.length + (if offset start 0 < n then 1 else 0) ∧
    (∀ x ∈ issued, offset start x < n) ∧ issued.Nodup

theorem Issued.nil (start : BitVec w) : Issued start start [] := by
  refine ⟨0, Nat.two_pow_pos w, ?_, Nat.zero_le _, ?_, List.nodup_nil⟩
  · simp
  · intro x hx
    cases hx

theorem Issued.nodup {start counter : BitVec w} {issued : List (BitVec w)}
    (h : Issued start counter issued) : issued.Nodup := by
  obtain ⟨n, -, -, -, -, hnodup⟩ := h
  exact hnodup

/-- One number more, at place `m` not behind the old counter. -/
theorem nodup_concat {start : BitVec w} {issued : List (BitVec w)} {n m : Nat}
    (hlt : ∀ x ∈ issued, offset start x < n) (hnodup : issued.Nodup) (hnm : n ≤ m)
    (hm : m < 2 ^ w) : (issued ++ [start + BitVec.ofNat w m]).Nodup := by
  refine hnodup.append (List.nodup_singleton _) ?_
  intro x hx hx'
  rw [List.mem_singleton] at hx'
  have hoff := hlt x hx
  rw [hx', offset_add start hm] at hoff
  omega

theorem offset_lt_concat {start : BitVec w} {issued : List (BitVec w)} {n m : Nat}
    (hlt : ∀ x ∈ issued, offset start x < n) (hnm : n ≤ m) (hm : m < 2 ^ w) :
    ∀ x ∈ issued ++ [start + BitVec.ofNat w m], offset start x < m + 1 := by
  intro x hx
  rcases List.mem_append.mp hx with hold | hnew
  · have := hlt x hold
    omega
  · rw [List.mem_singleton.mp hnew, offset_add start hm]
    omega

/-- **Handing out one more number keeps the account**, as long as fewer than
    `2 ^ w - 1` are out afterwards. -/
theorem Issued.next {start counter : BitVec w} {issued : List (BitVec w)}
    (h : Issued start counter issued) (hbound : issued.length + 1 < 2 ^ w - 1) :
    Issued start (next counter).2 (issued ++ [(next counter).1]) := by
  obtain ⟨n, hn, hcounter, hcount, hlt, hnodup⟩ := h
  have hsucc : ∀ k : Nat, counter + BitVec.ofNat w k = start + BitVec.ofNat w (n + k) := by
    intro k
    rw [hcounter, add_assoc, BitVec.ofNat_add]
  unfold FreshCounter.next
  by_cases h0 : counter = 0
  · -- the skipped place is `n` itself, so nothing has been skipped before
    rw [if_pos h0]
    have hzero : offset start 0 = n := by
      rw [← h0, hcounter, offset_add start hn]
    rw [hzero, if_neg (lt_irrefl n)] at hcount
    -- the bound leaves room for the skipped place as well
    have hm : n + 1 < 2 ^ w := by omega
    have h1 : counter + 1 = start + BitVec.ofNat w (n + 1) := hsucc 1
    refine ⟨n + 2, by omega, hsucc 2, ?_, ?_, ?_⟩
    · rw [hzero, if_pos (by omega), List.length_append, List.length_singleton]
      omega
    · rw [h1]
      exact offset_lt_concat hlt (by omega) hm
    · rw [h1]
      exact nodup_concat hlt hnodup (by omega) hm
  -- the counter's own value is handed out
  · rw [if_neg h0]
    have hle : n ≤ issued.length + 1 := by
      split_ifs at hcount <;> omega
    refine ⟨n + 1, by omega, hsucc 1, ?_, ?_, ?_⟩
    · rw [List.length_append, List.length_singleton]
      -- whether `0` lies behind the counter already does not change in this step
      split_ifs at hcount ⊢ <;> omega
    · rw [hcounter]
      exact offset_lt_concat hlt le_rfl hn
    · rw [hcounter]
      exact nodup_concat hlt hnodup le_rfl hn

theorem next_ne_zero (hw : 0 < w) (counter : BitVec w) : (next counter).1 ≠ 0 := by
  unfold next
  split_ifs with h0
  · rw [h0, zero_add]
    -- `1` is not `0` as soon as there is a bit
    intro h1
    have := congrArg BitVec.toNat h1
    simp [Nat.mod_eq_of_lt (Nat.one_lt_two_pow hw.ne')] at this
  · exact h0

/-! ## The sequence of numbers -/

/-- The counter after `n` numbers. -/
def after (start : BitVec w) : Nat → BitVec w
  | 0 => start
  | n + 1 => (next (after start n)).2

/-- The number handed out after `n` others. -/
def nth (start : BitVec w) (n : Nat) : BitVec w := (next (after start n)).1

/-- The place of a non-zero number in the cycle `1, 2, .., 2 ^ w - 1`. -/
def place (x : BitVec w) : Nat := x.toNat - 1

theorem next_snd (counter : BitVec w) : (next counter).2 = (next counter).1 + 1 := by
  unfold next
  split_ifs
  · rw [add_assoc]
    have htwo : (2 : BitVec w) = 1 + 1 := by
      apply BitVec.eq_of_toNat_eq
      simp
    rw [htwo]
  · rfl

/-- A start value other than `0` is the first number. -/
theorem nth_zero_of_ne {start : BitVec w} (h : start ≠ 0) : nth start 0 = start := by
  rw [nth, after, next, if_neg h]

theorem toNat_nth_pos (hw : 0 < w) (start : BitVec w) (n : Nat) : 0 < (nth start n).toNat := by
  rw [Nat.pos_iff_ne_zero]
  intro hzero
  have heq : nth start n = 0 := BitVec.eq_of_toNat_eq (by simpa using hzero)
  exact next_ne_zero hw (after start n) heq

/-- One number further: the next one up, or `1` after the largest. -/
theorem toNat_nth_succ (hw : 0 < w) (start : BitVec w) (n : Nat) :
    (nth start (n + 1)).toNat =
      if (nth start n).toNat + 1 = 2 ^ w then 1 else (nth start n).toNat + 1 := by
  have hone : (1 : BitVec w).toNat = 1 := by
    simp [Nat.mod_eq_of_lt (Nat.one_lt_two_pow hw.ne')]
  have hlt := (nth start n).isLt
  have hcounter : after start (n + 1) = nth start n + 1 := next_snd (after start n)
  have hsum : (nth start n + 1).toNat = ((nth start n).toNat + 1) % 2 ^ w := by
    rw [BitVec.toNat_add, hone]
  change (next (after start (n + 1))).1.toNat = _
  rw [hcounter, next]
  by_cases hwrap : (nth start n).toNat + 1 = 2 ^ w
  · -- the counter is at `0`, which is skipped
    have hzero : nth start n + 1 = 0 := by
      apply BitVec.eq_of_toNat_eq
      rw [hsum, hwrap, Nat.mod_self]
      simp
    rw [if_pos hzero, if_pos hwrap, hzero, zero_add, hone]
  · have hval : (nth start n + 1).toNat = (nth start n).toNat + 1 := by
      rw [hsum, Nat.mod_eq_of_lt (by omega)]
    have hne : nth start n + 1 ≠ 0 := by
      intro h0
      rw [h0] at hval
      simp at hval
    rw [if_neg hne, if_neg hwrap, hval]

/-- **The numbers go round in a cycle of length `2 ^ w - 1`.** -/
theorem place_nth (hw : 0 < w) (start : BitVec w) (n : Nat) :
    place (nth start n) = (place (nth start 0) + n) % (2 ^ w - 1) := by
  induction n with
  | zero =>
      have hpos := toNat_nth_pos hw start 0
      have hlt := (nth start 0).isLt
      rw [Nat.add_zero, Nat.mod_eq_of_lt]
      unfold place
      omega
  | succ n ih =>
      have hpos := toNat_nth_pos hw start n
      have hlt := (nth start n).isLt
      have hsucc := toNat_nth_succ hw start n
      have hmod : (place (nth start 0) + (n + 1)) % (2 ^ w - 1) =
          (place (nth start n) + 1) % (2 ^ w - 1) := by
        rw [ih, Nat.mod_add_mod, Nat.add_assoc]
      rw [hmod]
      unfold place
      -- at the largest number the place goes back to `0`
      split_ifs at hsucc with hwrap
      · rw [hsucc, show (nth start n).toNat - 1 + 1 = 2 ^ w - 1 by omega, Nat.mod_self]
      · rw [hsucc, Nat.mod_eq_of_lt (by omega)]
        omega

theorem nth_eq_iff_place (hw : 0 < w) (a b : BitVec w) (i j : Nat) :
    nth a i = nth b j ↔ place (nth a 0) + i ≡ place (nth b 0) + j [MOD 2 ^ w - 1] := by
  have ha := toNat_nth_pos hw a i
  have hb := toNat_nth_pos hw b j
  rw [Nat.ModEq, ← place_nth hw, ← place_nth hw, ← BitVec.toNat_inj]
  unfold place
  omega

theorem nth_eq_iff (hw : 0 < w) (start : BitVec w) (i j : Nat) :
    nth start i = nth start j ↔ i ≡ j [MOD 2 ^ w - 1] := by
  rw [nth_eq_iff_place hw]
  exact ⟨Nat.ModEq.add_left_cancel' _, Nat.ModEq.add_left _⟩

/-- Among fewer than `2 ^ w - 1` numbers in a row no two are equal. -/
theorem nth_ne (hw : 0 < w) (start : BitVec w) {i j : Nat} (hij : i < j)
    (hnear : j - i < 2 ^ w - 1) : nth start i ≠ nth start j := by
  intro heq
  have hmod := (nth_eq_iff hw start i j).mp heq
  have hdvd := (Nat.modEq_iff_dvd' hij.le).mp hmod
  exact absurd (Nat.le_of_dvd (by omega) hdvd) (by omega)

/-- After a whole cycle the number comes back. -/
theorem nth_add_cycle (hw : 0 < w) (start : BitVec w) (n : Nat) :
    nth start (n + (2 ^ w - 1)) = nth start n := by
  rw [nth_eq_iff hw]
  exact Nat.add_modEq_right

/-! ## Two counters -/

/-- How many numbers the counter `a` hands out before it gets to the first of
    the counter `b`. -/
def gap (a b : BitVec w) : Nat :=
  (place (nth b 0) + (2 ^ w - 1) - place (nth a 0)) % (2 ^ w - 1)

theorem gap_spec (hw : 0 < w) (a b : BitVec w) :
    place (nth a 0) + gap a b ≡ place (nth b 0) [MOD 2 ^ w - 1] := by
  have hlt := (nth a 0).isLt
  have hpos := toNat_nth_pos hw a 0
  have hle : place (nth a 0) ≤ place (nth b 0) + (2 ^ w - 1) := by
    unfold place
    omega
  have hgap : gap a b ≡ place (nth b 0) + (2 ^ w - 1) - place (nth a 0) [MOD 2 ^ w - 1] :=
    Nat.mod_modEq _ _
  calc place (nth a 0) + gap a b
      ≡ place (nth a 0) + (place (nth b 0) + (2 ^ w - 1) - place (nth a 0)) [MOD 2 ^ w - 1] :=
        hgap.add_left _
    _ = place (nth b 0) + (2 ^ w - 1) := Nat.add_sub_cancel' hle
    _ ≡ place (nth b 0) [MOD 2 ^ w - 1] := Nat.add_modEq_right

theorem gap_lt (hw : 0 < w) (a b : BitVec w) : gap a b < 2 ^ w - 1 := by
  have htwo := Nat.one_lt_two_pow hw.ne'
  exact Nat.mod_lt _ (by omega)

/-- **Two counters hand out different numbers exactly as long as neither has
    come to the other's first number.** -/
theorem disjoint_iff (hw : 0 < w) (a b : BitVec w) (n m : Nat) :
    (∀ i < n, ∀ j < m, nth a i ≠ nth b j) ↔
      n = 0 ∨ m = 0 ∨ (n ≤ gap a b ∧ m + gap a b ≤ 2 ^ w - 1) := by
  have hspec := gap_spec hw a b
  have hgap := gap_lt hw a b
  constructor
  · intro hall
    by_contra hnot
    push Not at hnot
    obtain ⟨hn, hm, hfar⟩ := hnot
    rcases Nat.lt_or_ge (gap a b) n with hlt | hge
    · -- the first counter has reached the second's first number
      exact hall (gap a b) hlt 0 (by omega) ((nth_eq_iff_place hw a b _ _).mpr hspec)
    · -- the second one has gone round to the first's
      have hm' := hfar hge
      refine hall 0 (by omega) (2 ^ w - 1 - gap a b) (by omega)
        ((nth_eq_iff_place hw a b _ _).mpr ?_)
      have hround : place (nth a 0) + gap a b + (2 ^ w - 1 - gap a b) ≡
          place (nth b 0) + (2 ^ w - 1 - gap a b) [MOD 2 ^ w - 1] := hspec.add_right _
      have hsum : place (nth a 0) + gap a b + (2 ^ w - 1 - gap a b) =
          place (nth a 0) + 0 + (2 ^ w - 1) := by omega
      rw [hsum] at hround
      exact Nat.add_modEq_right.symm.trans hround
  · rintro (rfl | rfl | ⟨hn, hm⟩) i hi j hj heq
    · omega
    · omega
    · -- both numbers, counted from the first counter's start, lie within one cycle
      have hplaces := (nth_eq_iff_place hw a b i j).mp heq
      have hshift : place (nth a 0) + i ≡ place (nth a 0) + (gap a b + j) [MOD 2 ^ w - 1] := by
        rw [← Nat.add_assoc]
        exact hplaces.trans (hspec.symm.add_right j)
      have hsame := Nat.ModEq.add_left_cancel' _ hshift
      have heq' : i = gap a b + j := Nat.ModEq.eq_of_lt_of_lt hsame (by omega) (by omega)
      omega

end FreshCounter
end UdpSpeed
