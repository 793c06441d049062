import Miaouchat.Lib.Threads

/-!
# What an action may do to the state

`Moves R x` says of an action `x` that may fail: whenever it succeeds, the
state it leaves stands in the relation `R` to the state it found. Where `R` is
reflexive and transitive such statements compose, and a program built from
actions that obey the relation obeys it (`moves_bind`, `moves_call`).

Two relations are common: that some parts of the state stay as they are, and
that an invariant is kept, `Keeps`.
-/

variable {σ μ ε α β : Type}

/-- **Every success of the action is allowed by the relation.** -/
structure Moves (R : σ → σ → Prop) (x : StateT σ (Except ε) α) : Prop where
  rel : ∀ s a s', x s = .ok (a, s') → R s s'

/-- The relation that asks for an invariant to be kept. -/
def Keep (I : σ → Prop) (s s' : σ) : Prop := I s → I s'

instance (I : σ → Prop) : Std.Refl (Keep I) := ⟨fun _ h => h⟩

instance (I : σ → Prop) : IsTrans σ (Keep I) := ⟨fun _ _ _ h h' hs => h' (h hs)⟩

/-- **The action keeps the invariant.** -/
def Keeps (I : σ → Prop) (x : StateT σ (Except ε) α) : Prop := Moves (Keep I) x

namespace Moves

variable {R : σ → σ → Prop}

theorem mono {R' : σ → σ → Prop} {x : StateT σ (Except ε) α} (h : Moves R x)
    (hR : ∀ s s', R s s' → R' s s') : Moves R' x :=
  ⟨fun s a s' hrun => hR s s' (h.rel s a s' hrun)⟩

/-! ## Actions -/

/-- An action that never succeeds does nothing. -/
theorem throw (e : ε) : Moves R (throw e : StateT σ (Except ε) α) :=
  ⟨fun _ _ _ => nofun⟩

/-- An action that computes its result from the state. -/
theorem modify {f : σ → σ} (h : ∀ s, R s (f s)) :
    Moves R (modify f : StateT σ (Except ε) PUnit) := by
  refine ⟨fun s a s' hrun => ?_⟩
  cases hrun
  exact h s

section Refl

variable [Std.Refl R]

theorem pure (a : α) : Moves R (pure a : StateT σ (Except ε) α) := by
  refine ⟨fun s b s' hrun => ?_⟩
  cases hrun
  exact Std.Refl.refl s

/-- Reading the state does nothing to it. -/
theorem get : Moves R (get : StateT σ (Except ε) σ) := by
  refine ⟨fun s a s' hrun => ?_⟩
  cases hrun
  exact Std.Refl.refl s

theorem lift (x : Except ε α) : Moves R (StateT.lift x : StateT σ (Except ε) α) := by
  refine ⟨fun s a s' hrun => ?_⟩
  cases x with
  | ok b =>
    cases hrun
    exact Std.Refl.refl s
  | error e => cases hrun

end Refl

/-- **One action after the other.** -/
theorem bind [IsTrans σ R] {x : StateT σ (Except ε) α} {f : α → StateT σ (Except ε) β}
    (hx : Moves R x) (hf : ∀ a, Moves R (f a)) : Moves R (x >>= f) := by
  refine ⟨fun s b s' hrun => ?_⟩
  change (x s).bind (fun r => f r.1 r.2) = _ at hrun
  cases hxs : x s with
  | ok r =>
    rw [hxs] at hrun
    exact IsTrans.trans _ _ _ (hx.rel s r.1 r.2 hxs) ((hf r.1).rel r.2 b s' hrun)
  | error e =>
    rw [hxs] at hrun
    cases hrun

theorem ite {x y : StateT σ (Except ε) α} {P : Prop} [Decidable P] (hx : Moves R x)
    (hy : Moves R y) : Moves R (if P then x else y) := by
  split
  · exact hx
  · exact hy

/-! ## Programs -/

theorem exec_pure [Std.Refl R] (a : α) : Moves R (Pure.pure a : Prog σ μ ε α).exec :=
  pure a

/-- **One program after the other.** -/
theorem exec_bind [IsTrans σ R] {p : Prog σ μ ε α} {q : α → Prog σ μ ε β}
    (hp : Moves R p.exec) (hq : ∀ a, Moves R (q a).exec) : Moves R (p >>= q).exec := by
  rw [Prog.exec_seq]
  exact hp.bind hq

theorem take [Std.Refl R] (m : μ) : Moves R (Prog.take m : Prog σ μ ε Unit).exec :=
  pure ()

theorem give [Std.Refl R] (m : μ) : Moves R (Prog.give m : Prog σ μ ε Unit).exec :=
  pure ()

theorem call {x : StateT σ (Except ε) α} (hx : Moves R x) :
    Moves R (Prog.call x : Prog σ μ ε α).exec :=
  ⟨fun s a s' hrun => hx.rel s a s' ((Prog.exec_call x s).symm.trans hrun)⟩

theorem exec_ite {p q : Prog σ μ ε α} {P : Prop} [Decidable P] (hp : Moves R p.exec)
    (hq : Moves R q.exec) : Moves R (if P then p else q).exec := by
  split
  · exact hp
  · exact hq

end Moves
