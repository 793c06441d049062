import Miaouchat.Lib.Threads

/-!
# Code that keeps to a partial function

What code does to a state may be said of something simpler than the state, by a
partial function that is defined where the code succeeds. `Tracks R x g` says so
of an action and a function, for states and values that `R` relates, and such
statements compose as the actions do (`Tracks.bind`, `Tracks.forM`).
-/

variable {σ τ μ ε ι α β : Type}

/-- **An outcome and a value agree**: there is neither, or both and they are
related. -/
inductive Agree (R : σ → τ → Prop) : Except ε (α × σ) → Option τ → Prop
  | ok {a : α} {s : σ} {c : τ} (h : R s c) : Agree R (.ok (a, s)) (some c)
  | error (e : ε) : Agree R (.error e) none

/-- **The action does what the partial function says.** -/
def Tracks (R : σ → τ → Prop) (x : StateT σ (Except ε) α) (g : τ → Option τ) : Prop :=
  ∀ s c, R s c → Agree R (x s) (g c)

namespace Agree

variable {R : σ → τ → Prop}

/-- **What comes after** agrees if it does from all that is related. -/
theorem bind {r : Except ε (α × σ)} {o : Option τ} {f : α × σ → Except ε (β × σ)}
    {g : τ → Option τ} (h : Agree R r o) (hf : ∀ a s c, R s c → Agree R (f (a, s)) (g c)) :
    Agree R (r >>= f) (o.bind g) := by
  cases h with
  | ok h => exact hf _ _ _ h
  | error e => exact .error e

/-- Whatever is made of the result. -/
theorem map {r : Except ε (α × σ)} {o : Option τ} (h : Agree R r o) (f : α → β) :
    Agree R (r.map fun r => (f r.1, r.2)) o := by
  cases h with
  | ok h => exact .ok h
  | error e => exact .error e

end Agree

namespace Tracks

variable {R : σ → τ → Prop}

theorem pure (a : α) : Tracks R (pure a : StateT σ (Except ε) α) some :=
  fun _ _ h => .ok h

/-- **One action after the other.** -/
theorem bind {x : StateT σ (Except ε) α} {f : α → StateT σ (Except ε) β}
    {g g' : τ → Option τ} (hx : Tracks R x g) (hf : ∀ a, Tracks R (f a) g') :
    Tracks R (x >>= f) fun c => (g c).bind g' :=
  fun s c h => (hx s c h).bind fun a s c h => hf a s c h

/-- **An action for each item of a list.** -/
theorem forM {x : ι → StateT σ (Except ε) Unit} {g : ι → τ → Option τ}
    (h : ∀ i, Tracks R (x i) (g i)) (is : List ι) :
    Tracks R (is.forM x) fun c => is.foldlM (fun c i => g i c) c := by
  induction is with
  | nil => exact pure ()
  | cons i is ih => exact (h i).bind fun _ => ih

end Tracks
