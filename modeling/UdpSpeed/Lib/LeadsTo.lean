/-
  UdpSpeed.Lib.LeadsTo

  What a system can be brought to, one step after the other: from every state
  with `P` there are steps to a state with `Q`.  A number that the steps bring
  down while `P` lasts is enough.
-/

import Mathlib.Data.Nat.Init
import Mathlib.Logic.Relation

namespace UdpSpeed

variable {σ : Type*} {R : σ → σ → Prop} {P Q : σ → Prop}

/-- From every state with `P` some steps lead to one with `Q`. -/
def LeadsTo (R : σ → σ → Prop) (P Q : σ → Prop) : Prop :=
  ∀ s, P s → ∃ s', Relation.ReflTransGen R s s' ∧ Q s'

namespace LeadsTo

/-- By induction on the measure. -/
theorem of_measure (μ : σ → Nat)
    (h : ∀ n, LeadsTo R (fun s => P s ∧ μ s = n) (fun s => Q s ∨ P s ∧ μ s < n)) :
    LeadsTo R P Q := by
  intro s hs
  generalize hn : μ s = n
  induction n using Nat.strongRecOn generalizing s with
  | _ n ih =>
      obtain ⟨s₁, hruns, hq | ⟨hp, hlt⟩⟩ := h n s ⟨hs, hn⟩
      · exact ⟨s₁, hruns, hq⟩
      · obtain ⟨s₂, hruns', hq⟩ := ih (μ s₁) hlt s₁ hp rfl
        exact ⟨s₂, hruns.trans hruns', hq⟩

end LeadsTo
end UdpSpeed
