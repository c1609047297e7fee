/-
  UdpSpeed.Lib.EventSystem

  Runs of an event-driven process: `step s e` is the state after event `e`, or
  `none` when the event cannot happen in `s` or the process does not survive
  it.  Invariants of whole runs are derived from what one step does.
-/

import Mathlib.Data.List.Basic
import Mathlib.Tactic

namespace UdpSpeed
namespace EventSystem

variable {σ ε : Type*} (step : σ → ε → Option σ)

/-- The state after a list of events. -/
def run : σ → List ε → Option σ
  | s, [] => some s
  | s, e :: es => (step s e).bind (fun s' => run s' es)

/-- `s` is reached from a state satisfying `init`. -/
def Reachable (init : σ → Prop) (s : σ) : Prop :=
  ∃ s₀ es, init s₀ ∧ run step s₀ es = some s

/-- `P` holds in every state of the run of `es` from `s₀`. -/
def Always (P : σ → Prop) (s₀ : σ) (es : List ε) : Prop :=
  ∀ k s, run step s₀ (es.take k) = some s → P s

/-- `C` holds of every step of the run of `es` from `s₀`: of the event and the
    state it finds. -/
def EachStep (C : σ → ε → Prop) (s₀ : σ) (es : List ε) : Prop :=
  ∀ k s e s', run step s₀ (es.take k) = some s → es[k]? = some e → step s e = some s' → C s e

/-- `C` holds of every event of the run of `es` from `s₀` and the state it
    finds, the last one included even if the process does not survive it. -/
def EachEvent (C : σ → ε → Prop) (s₀ : σ) (es : List ε) : Prop :=
  ∀ k s e, run step s₀ (es.take k) = some s → es[k]? = some e → C s e

/-- The process with only the events that `ok` admits. -/
def restrict (ok : σ → ε → Bool) (s : σ) (e : ε) : Option σ := if ok s e then step s e else none

variable {step}

theorem restrict_eq_some {ok : σ → ε → Bool} {s s' : σ} {e : ε} :
    restrict step ok s e = some s' ↔ ok s e ∧ step s e = some s' := by
  unfold restrict
  split_ifs with h
  · simp [h]
  · simp [h]

theorem run_append (s : σ) (es es' : List ε) :
    run step s (es ++ es') = (run step s es).bind (fun s' => run step s' es') := by
  induction es generalizing s with
  | nil => rfl
  | cons e es ih =>
      simp only [List.cons_append, run]
      cases step s e with
      | none => rfl
      | some s' => exact ih s'

/-- The invariant rule: what holds at the start and survives each step holds
    after any run. -/
theorem run_invariant {I : σ → Prop} (hstep : ∀ s e s', I s → step s e = some s' → I s')
    {s₀ s : σ} {es : List ε} (h₀ : I s₀) (hrun : run step s₀ es = some s) : I s := by
  induction es generalizing s₀ with
  | nil =>
      simp only [run, Option.some.injEq] at hrun
      exact hrun ▸ h₀
  | cons e es ih =>
      simp only [run, Option.bind_eq_some_iff] at hrun
      obtain ⟨s₁, hs₁, hrest⟩ := hrun
      exact ih (hstep s₀ e s₁ h₀ hs₁) hrest

theorem Reachable.invariant {init I : σ → Prop} (hinit : ∀ s, init s → I s)
    (hstep : ∀ s e s', I s → step s e = some s' → I s') {s : σ}
    (h : Reachable step init s) : I s := by
  obtain ⟨s₀, es, h₀, hrun⟩ := h
  exact run_invariant hstep (hinit s₀ h₀) hrun

/-- The state one step further along a run. -/
theorem run_take_succ {s₀ s s' : σ} {es : List ε} {k : Nat} {e : ε}
    (hrun : run step s₀ (es.take k) = some s) (he : es[k]? = some e) (hs : step s e = some s') :
    run step s₀ (es.take (k + 1)) = some s' := by
  rw [List.take_add_one, he, run_append, hrun]
  simp [run, hs]

/-- The step a run made to get past its first `k` events. -/
theorem run_take_succ_inv {s₀ s' : σ} {es : List ε} {k : Nat}
    (hrun : run step s₀ (es.take (k + 1)) = some s') :
    run step s₀ (es.take k) = some s' ∨
      ∃ s e, run step s₀ (es.take k) = some s ∧ es[k]? = some e ∧ step s e = some s' := by
  rw [List.take_add_one, run_append, Option.bind_eq_some_iff] at hrun
  obtain ⟨s, hs, hlast⟩ := hrun
  -- past the end of the list nothing more happens
  cases he : es[k]? with
  | none =>
      rw [he] at hlast
      simp only [Option.toList_none, run, Option.some.injEq] at hlast
      exact Or.inl (hlast ▸ hs)
  | some e =>
      rw [he] at hlast
      simp only [Option.toList_some, run, Option.bind_eq_some_iff] at hlast
      obtain ⟨s₁, hs₁, hs₁'⟩ := hlast
      obtain rfl := Option.some.inj hs₁'
      exact Or.inr ⟨s, e, hs, rfl, hs₁⟩

theorem eachEvent_nil (C : σ → ε → Prop) (s : σ) : EachEvent step C s [] := by
  intro k s' e _ he
  cases he

/-- The first event, then those of the rest of the run. -/
theorem eachEvent_cons {C : σ → ε → Prop} {s : σ} {e : ε} {es : List ε} :
    EachEvent step C s (e :: es) ↔ C s e ∧ ∀ s', step s e = some s' → EachEvent step C s' es := by
  constructor
  · intro hall
    refine ⟨hall 0 s e rfl rfl, ?_⟩
    intro s' hs k s₁ e₁ hrun he
    refine hall (k + 1) s₁ e₁ ?_ he
    rw [List.take_succ_cons, run, hs]
    exact hrun
  · rintro ⟨hfirst, hrest⟩ k s₁ e₁ hrun he
    cases k with
    | zero =>
        obtain rfl := Option.some.inj hrun
        obtain rfl := Option.some.inj he
        exact hfirst
    | succ k =>
        rw [List.take_succ_cons, run, Option.bind_eq_some_iff] at hrun
        obtain ⟨s', hs, hrun⟩ := hrun
        exact hrest s' hs k s₁ e₁ hrun he

/-- A condition that can be tested can be tested on the events of a run. -/
instance decidableEachEvent {C : σ → ε → Prop} [∀ s e, Decidable (C s e)] :
    ∀ (es : List ε) (s : σ), Decidable (EachEvent step C s es)
  | [], s => .isTrue (eachEvent_nil C s)
  | e :: es, s =>
      match hs : step s e with
      | none => decidable_of_iff (C s e) (by
          rw [eachEvent_cons, hs]
          exact ⟨fun h => ⟨h, fun s' hs' => by cases hs'⟩, fun h => h.1⟩)
      | some s' =>
          have := decidableEachEvent (C := C) es s'
          decidable_of_iff (C s e ∧ EachEvent step C s' es) (by
            rw [eachEvent_cons, hs]
            exact ⟨fun h => ⟨h.1, fun _ heq => Option.some.inj heq ▸ h.2⟩,
              fun h => ⟨h.1, h.2 s' rfl⟩⟩)

/-- A condition on the steps of a run is one on its events. -/
theorem eachStep_iff {C : σ → ε → Prop} {s : σ} {es : List ε} :
    EachStep step C s es ↔ EachEvent step (fun s e => (step s e).isSome → C s e) s es := by
  constructor
  · intro h k s₁ e hrun he hsome
    obtain ⟨s₂, hs⟩ := Option.isSome_iff_exists.mp hsome
    exact h k s₁ e s₂ hrun he hs
  · intro h k s₁ e s₂ hrun he hs
    exact h k s₁ e hrun he (Option.isSome_iff_exists.mpr ⟨s₂, hs⟩)

/-- And on its steps. -/
instance decidableEachStep {C : σ → ε → Prop} [∀ s e, Decidable (C s e)] (es : List ε) (s : σ) :
    Decidable (EachStep step C s es) :=
  decidable_of_iff _ eachStep_iff.symm

/-- What holds at the start and survives each step that satisfies `C` holds
    throughout a run of such steps. -/
theorem always_of_eachStep {P : σ → Prop} {C : σ → ε → Prop}
    (hP : ∀ s e s', P s → C s e → step s e = some s' → P s') {s₀ : σ} (hP₀ : P s₀) {es : List ε}
    (heach : EachStep step C s₀ es) : Always step P s₀ es := by
  intro k
  induction k with
  | zero =>
      intro s hrun
      simp only [List.take_zero, run, Option.some.injEq] at hrun
      exact hrun ▸ hP₀
  | succ k ih =>
      intro s' hrun
      rcases run_take_succ_inv hrun with hsame | ⟨s, e, hs, he, hstep⟩
      · exact ih s' hsame
      · exact hP s e s' (ih s hs) (heach k s e s' hs he hstep) hstep

/-- When, in states satisfying `I`, a step keeps `P` exactly if it satisfies
    `C`, then `P` holds throughout a run exactly if every step of it satisfies
    `C`. -/
theorem always_iff_eachStep {I P : σ → Prop} {C : σ → ε → Prop}
    (hI : ∀ s e s', I s → step s e = some s' → I s')
    (hP : ∀ s e s', I s → P s → step s e = some s' → (P s' ↔ C s e))
    {s₀ : σ} (hI₀ : I s₀) (hP₀ : P s₀) (es : List ε) :
    Always step P s₀ es ↔ EachStep step C s₀ es := by
  have hinv : ∀ k s, run step s₀ (es.take k) = some s → I s :=
    fun k s hrun => run_invariant hI hI₀ hrun
  -- each step is read off the two states around it
  constructor
  · intro hall k s e s' hrun he hs
    exact (hP s e s' (hinv k s hrun) (hall k s hrun) hs).mp
      (hall (k + 1) s' (run_take_succ hrun he hs))
  · intro heach k s hrun
    have hboth : Always step (fun s => I s ∧ P s) s₀ es := by
      refine always_of_eachStep ?_ ⟨hI₀, hP₀⟩ heach
      rintro s e s' ⟨hi, hp⟩ hc hs
      exact ⟨hI s e s' hi hs, (hP s e s' hi hp hs).mpr hc⟩
    exact (hboth k s hrun).2

/-- Two conditions that agree under an invariant agree along runs. -/
theorem eachEvent_congr {I : σ → Prop} {C C' : σ → ε → Prop}
    (hI : ∀ s e s', I s → step s e = some s' → I s') (hC : ∀ s e, I s → (C s e ↔ C' s e))
    {s₀ : σ} (hI₀ : I s₀) (es : List ε) :
    EachEvent step C s₀ es ↔ EachEvent step C' s₀ es := by
  refine forall₃_congr fun k s e => forall₂_congr fun hrun _ => ?_
  exact hC s e (run_invariant hI hI₀ hrun)

theorem eachStep_congr {I : σ → Prop} {C C' : σ → ε → Prop}
    (hI : ∀ s e s', I s → step s e = some s' → I s')
    (hC : ∀ s e s', I s → step s e = some s' → (C s e ↔ C' s e))
    {s₀ : σ} (hI₀ : I s₀) (es : List ε) :
    EachStep step C s₀ es ↔ EachStep step C' s₀ es := by
  refine forall₄_congr fun k s e s' => forall₃_congr fun hrun _ hs => ?_
  exact hC s e s' (run_invariant hI hI₀ hrun) hs

end EventSystem
end UdpSpeed
