/-
  UdpSpeed.Lib.Simulation

  Forward simulation between event-driven processes.  A step of the concrete
  process shows some events to the outside, possibly none; the abstract process
  takes exactly those.  A run of the concrete process then is, from outside, a
  run of the abstract one.
-/

import UdpSpeed.Lib.EventSystem

namespace UdpSpeed
namespace EventSystem

variable {σ ε τ δ : Type*} (step : σ → ε → Option σ) (emit : σ → ε → List δ)

/-- The events a run shows to the outside. -/
def traceOf : σ → List ε → List δ
  | _, [] => []
  | s, e :: es => emit s e ++ ((step s e).elim [] (fun s' => traceOf s' es))

/-- In states satisfying `I` a step of the concrete process is a run of the
    abstract one over the events it shows. -/
def Simulates (step' : τ → δ → Option τ) (I : σ → Prop) (abs : σ → τ) : Prop :=
  ∀ s e s', I s → step s e = some s' → run step' (abs s) (emit s e) = some (abs s')

variable {step emit}

/-- What holds throughout a run holds at its start and throughout what is left
    after the first step. -/
theorem always_cons {P : σ → Prop} {s : σ} {e : ε} {es : List ε}
    (h : Always step P s (e :: es)) :
    P s ∧ ∀ s', step s e = some s' → Always step P s' es := by
  refine ⟨h 0 s rfl, ?_⟩
  intro s' hs k s'' hrun
  apply h (k + 1) s''
  rw [List.take_succ_cons, run, hs]
  exact hrun

/-- **A simulation lifts to runs.** -/
theorem Simulates.run {step' : τ → δ → Option τ} {I : σ → Prop} {abs : σ → τ}
    (hsim : Simulates step emit step' I abs) {s s' : σ} {es : List ε}
    (hall : Always step I s es) (hrun : EventSystem.run step s es = some s') :
    EventSystem.run step' (abs s) (traceOf step emit s es) = some (abs s') := by
  induction es generalizing s with
  | nil =>
      obtain rfl := Option.some.inj hrun
      rfl
  | cons e es ih =>
      obtain ⟨hs, htail⟩ := always_cons hall
      rw [EventSystem.run, Option.bind_eq_some_iff] at hrun
      obtain ⟨s₁, hstep, hrest⟩ := hrun
      have hhead := hsim s e s₁ hs hstep
      rw [traceOf, hstep, Option.elim_some, run_append, hhead, Option.bind_some]
      exact ih (htail s₁ hstep) hrest

/-- A condition that a later state can only have if the earlier one had it. -/
theorem run_backward {G : σ → Prop} (hG : ∀ s e s', step s e = some s' → G s' → G s) {s s' : σ}
    {es : List ε} (hrun : EventSystem.run step s es = some s') (h : G s') : G s := by
  induction es generalizing s with
  | nil =>
      obtain rfl := Option.some.inj hrun
      exact h
  | cons e es ih =>
      rw [EventSystem.run, Option.bind_eq_some_iff] at hrun
      obtain ⟨s₁, hstep, hrest⟩ := hrun
      exact hG s e s₁ hstep (ih hrest)

/-- The invariant rule with a bound that is met at the end, and so all along:
    what survives each step within the bound holds throughout. -/
theorem always_within {I G : σ → Prop} (hG : ∀ s e s', step s e = some s' → G s' → G s)
    (hI : ∀ s e s', I s → G s' → step s e = some s' → I s') {s₀ s : σ} (h₀ : I s₀)
    {es : List ε} (hrun : EventSystem.run step s₀ es = some s) (hs : G s) :
    Always step I s₀ es := by
  intro k s₁ htake
  have hsplit : run step s₀ (es.take k ++ es.drop k) = _ := run_append s₀ _ _
  rw [List.take_append_drop, htake, Option.bind_some, hrun] at hsplit
  -- the bound holds at `s₁`, and before it
  have hbound : G s₁ := run_backward hG hsplit.symm hs
  have hguard : G s₁ → I s₁ := by
    refine run_invariant (I := fun s => G s → I s) ?_ (fun _ => h₀) htake
    intro s e s' hinv hstep hg'
    exact hI s e s' (hinv (hG s e s' hstep hg')) hg' hstep
  exact hguard hbound

end EventSystem
end UdpSpeed
