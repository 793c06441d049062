import Miaouchat.Lib.Guards

/-!
# Rules for code that takes mutexes

`Derives` are the derivations in a system of rules for the code of a thread: one
rule for each way code is built. What an action may do with the mutexes of `H`
held is left open, as `C`; so is which mutexes it may ask for, as `T`. A
postcondition speaks of the result and of the mutexes held at the end.

The code is gone through once, with `C` and `T` as they come, and what it means
depends on what they say (`Derives.obeys`, `Derives.within`, `Derives.guarded`).
-/

variable {σ μ ε α : Type}

namespace Prog

section Rule

variable [DecidableEq μ]

/-- **The rules.** After a mutex is taken that is held, there is no more of the
code. What is read of the state is read through a view, so that it can be said
what is looked at. -/
inductive Derives (I : σ → Prop) (T : Finset μ → μ → Prop)
    (C : Finset μ → ∀ {γ : Type}, StateT σ (Except ε) γ → Prop) :
    ∀ {α : Type}, (α → Finset μ → Prop) → Prog σ μ ε α → Finset μ → Prop
  | done {α : Type} {Q : α → Finset μ → Prop} {a : α} {H : Finset μ} (h : Q a H) :
      Derives I T C Q (pure a) H
  | bind {α β : Type} {P : α → Finset μ → Prop} {Q : β → Finset μ → Prop}
      {p : Prog σ μ ε α} {q : α → Prog σ μ ε β} {H : Finset μ} (hp : Derives I T C P p H)
      (hq : ∀ a H', P a H' → Derives I T C Q (q a) H') : Derives I T C Q (p >>= q) H
  | take {Q : Unit → Finset μ → Prop} {m : μ} {H : Finset μ} (hok : T H m)
      (h : m ∉ H → Q () (insert m H)) : Derives I T C Q (Prog.take m) H
  | give {Q : Unit → Finset μ → Prop} {m : μ} {H : Finset μ} (hm : m ∈ H)
      (h : Q () (H.erase m)) : Derives I T C Q (Prog.give m) H
  | call {α : Type} {Q : α → Finset μ → Prop} {x : StateT σ (Except ε) α} {H : Finset μ}
      (hx : C H x) (h : ∀ s, I s → ∀ a s', x s = .ok (a, s') → Q a H) :
      Derives I T C Q (Prog.call x) H
  | look {α γ : Type} {Q : α → Finset μ → Prop} {v : σ → γ} {q : γ → Prog σ μ ε α}
      {H : Finset μ} (hv : C H (fun s => .ok (v s, s)))
      (h : ∀ s, I s → Derives I T C Q (q (v s)) H) :
      Derives I T C Q (Prog.call get >>= fun s => q (v s)) H

namespace Derives

variable {I : σ → Prop} {T : Finset μ → μ → Prop}
  {C : Finset μ → ∀ {γ : Type}, StateT σ (Except ε) γ → Prop} {Q : α → Finset μ → Prop}
  {p : Prog σ μ ε α} {H : Finset μ}

theorem mono {Q' : α → Finset μ → Prop} (h : Derives I T C Q p H)
    (hQ : ∀ a H, Q a H → Q' a H) : Derives I T C Q' p H := by
  induction h with
  | done h => exact .done (hQ _ _ h)
  | bind hp _ _ ihq => exact .bind hp fun a H' ha => ihq a H' ha hQ
  | take hok h => exact .take hok fun hm => hQ _ _ (h hm)
  | give hm h => exact .give hm (hQ _ _ h)
  | call hx h => exact .call hx fun s hs a s' hrun => hQ _ _ (h s hs a s' hrun)
  | look hv _ ih => exact .look hv fun s hs => ih s hs hQ

/-! ### Rules for what comes before the rest -/

section First

variable {β : Type} {m : μ}

theorem take_bind {q : Unit → Prog σ μ ε α} (hok : T H m)
    (hq : m ∉ H → Derives I T C Q (q ()) (insert m H)) :
    Derives I T C Q (Prog.take m >>= q) H :=
  .bind (P := fun _ H' => m ∉ H ∧ H' = insert m H) (.take hok fun hm => ⟨hm, rfl⟩)
    fun _ _ ⟨hm, hH'⟩ => hH' ▸ hq hm

/-- **After a mutex that is held there is nothing more.** -/
theorem take_held {q : Unit → Prog σ μ ε α} (hok : T H m) (hm : m ∈ H) :
    Derives I T C Q (Prog.take m >>= q) H :=
  take_bind hok fun hnot => absurd hm hnot

theorem give_bind {q : Unit → Prog σ μ ε α} (hm : m ∈ H)
    (hq : Derives I T C Q (q ()) (H.erase m)) : Derives I T C Q (Prog.give m >>= q) H :=
  .bind (P := fun _ H' => H' = H.erase m) (.give hm rfl) fun _ _ hH' => hH' ▸ hq

theorem call_bind {x : StateT σ (Except ε) β} {q : β → Prog σ μ ε α} (hx : C H x)
    (hq : ∀ s, I s → ∀ b s', x s = .ok (b, s') → Derives I T C Q (q b) H) :
    Derives I T C Q (Prog.call x >>= q) H := by
  refine .bind (P := fun b H' => Derives I T C Q (q b) H ∧ H' = H)
    (.call hx fun s hs b s' hrun => ⟨hq s hs b s' hrun, rfl⟩) fun b H' hb => ?_
  exact hb.2 ▸ hb.1

end First

/-! ### What a derivation says -/

/-- **The code obeys**, where the actions keep the invariant. -/
theorem obeys (hC : ∀ H {γ : Type} (x : StateT σ (Except ε) γ), C H x → Keeps I x)
    (h : Derives I T C Q p H) : p.Obeys I T Q H := by
  induction h with
  | done h => exact h
  | bind _ _ ihp ihq => exact ihp.bind ihq
  | take hok h => exact ⟨hok, h⟩
  | give hm h => exact ⟨hm, h⟩
  | call hx h => exact obeys_call fun s hs a s' hrun =>
      ⟨(hC _ _ hx).rel s a s' hrun hs, h s hs a s' hrun⟩
  | look hv h ih => exact fun s hs => ⟨hs, ih s hs⟩

/-- **The code acts only while it holds `m`**, where that is what the actions
ask for. -/
theorem within {m : μ} (hC : ∀ H {γ : Type} (x : StateT σ (Except ε) γ), C H x → m ∈ H)
    (h : Derives I T C Q p H) : p.Within I m Q H := by
  induction h with
  | done h => exact h
  | bind _ _ ihp ihq => exact ihp.bind ihq
  | take hok h => exact h
  | give hm h => exact h
  | call hx h => exact within_call (hC _ _ hx) h
  | look hv h ih => exact ⟨hC _ _ hv, ih⟩

/-- **The code is guarded**, where the actions spare what is not held. -/
theorem guarded {G : Guards μ σ}
    (hC : ∀ H {γ : Type} (x : StateT σ (Except ε) γ), C H x → ∀ m, m ∉ H → Spares G m x)
    (h : Derives I T C Q p H) : p.Guarded I G Q H := by
  induction h with
  | done h => exact h
  | bind _ _ ihp ihq => exact ihp.bind ihq
  | take hok h => exact h
  | give hm h => exact h
  | call hx h => exact guarded_call (hC _ _ hx) h
  | look hv h ih =>
    refine guarded_look (fun m hm s s' hrest => ?_) ih
    obtain ⟨_, hs', -⟩ := ((hC _ _ hv m hm).reads s s' hrest).1 _ _ rfl
    exact (Prod.mk.inj (Except.ok.inj hs')).1.symm

end Derives

end Rule

end Prog
