import Mathlib.Data.List.Basic

/-!
# Runs

A run takes labelled steps from one state to another, and `Run` keeps, for
each step, the state it started from and its label.

Where a step keeps a property exactly when a condition on its label and the
state before is met, the property holds all along a run exactly when every step
meets the condition (`Run.forall_iff`). The steps may rely on an invariant, and
the invariant on the property.
-/

variable {σ ι : Type} {step : σ → ι → σ → Prop}

/-- **The runs of a step relation**, by the steps taken. -/
inductive Run (step : σ → ι → σ → Prop) (s : σ) : List (σ × ι) → σ → Prop
  | nil : Run step s [] s
  | snoc {s₁ s' : σ} {xs : List (σ × ι)} {i : ι} (h : Run step s xs s₁)
      (hstep : step s₁ i s') : Run step s (xs ++ [(s₁, i)]) s'

namespace Run

variable {I P : σ → Prop} {C : σ → ι → Prop} {s s' : σ} {xs : List (σ × ι)}

/-- **An invariant** of the steps from states with the property holds at the
end of a run through such states. -/
theorem invariant (hI : ∀ s i s', step s i s' → P s → I s → I s') (h : Run step s xs s')
    (hall : ∀ x ∈ xs, P x.1) (hs : I s) : I s' := by
  induction h with
  | nil => exact hs
  | snoc h hstep ih =>
    obtain ⟨hxs, hlast⟩ := List.forall_mem_append.mp hall
    exact hI _ _ _ hstep (hlast _ (List.mem_singleton_self _)) (ih hxs)

/-- **A property that each step keeps exactly under a condition** holds all
along a run exactly when every step meets the condition. -/
theorem forall_iff (hI : ∀ s i s', step s i s' → P s → I s → I s')
    (hP : ∀ s i s', step s i s' → I s → P s → (P s' ↔ C s i)) (h : Run step s xs s')
    (hs : I s) (hPs : P s) :
    ((∀ x ∈ xs, P x.1) ∧ P s') ↔ ∀ x ∈ xs, C x.1 x.2 := by
  induction h with
  | nil => exact ⟨fun _ _ => nofun, fun _ => ⟨fun _ => nofun, hPs⟩⟩
  | @snoc s₁ s' xs i h hstep ih =>
    have hlast : (∀ x ∈ xs, P x.1) → P s₁ → (P s' ↔ C s₁ i) := fun hall hs₁ =>
      hP _ _ _ hstep (h.invariant hI hall hs) hs₁
    have hmem : ∀ {Q : σ × ι → Prop},
        (∀ x ∈ xs ++ [(s₁, i)], Q x) ↔ (∀ x ∈ xs, Q x) ∧ Q (s₁, i) := by
      intro Q
      rw [List.forall_mem_append, List.forall_mem_singleton]
    rw [hmem, hmem, ← ih]
    constructor
    · rintro ⟨⟨hall, hs₁⟩, hs'⟩
      exact ⟨⟨hall, hs₁⟩, (hlast hall hs₁).mp hs'⟩
    · rintro ⟨⟨hall, hs₁⟩, hc⟩
      exact ⟨⟨hall, hs₁⟩, (hlast hall hs₁).mpr hc⟩

end Run
