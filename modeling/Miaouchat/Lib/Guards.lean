import Miaouchat.Lib.Mutexes

/-!
# What mutexes protect

A mutex protects a part of the shared state when only those who hold it touch
that part. `Guards` says of two states whether they agree on the part of a mutex,
and whether they agree on all the rest; an action leaves a part alone when it
does not write it, and nothing it does depends on it (`Alone`).

`Guarded` code touches a part only while it holds the mutex. Where the code of
all threads is guarded, a thread that is about to touch a part holds its mutex
(`Disciplined.touches_holds`), so that no two threads are about to touch the
same part.
-/

variable {ι σ μ ε α β : Type}

namespace Prog

section Guard

variable [DecidableEq μ]

/-- **What each mutex protects**: two states may agree on it, and on all the
rest. -/
structure Guards (μ σ : Type) where
  same : μ → σ → σ → Prop
  rest : μ → σ → σ → Prop
  same_refl : ∀ m s, same m s s
  same_trans : ∀ {m s s' s''}, same m s s' → same m s' s'' → same m s s''

variable {G : Guards μ σ}

/-- **The action leaves alone what `m` protects**: it does not write it, and
nothing else depends on it. -/
structure Alone (G : Guards μ σ) (m : μ) (f : σ → σ) (k : σ → Prog σ μ ε α) : Prop where
  writes : ∀ s, G.same m s (f s)
  reads : ∀ s s', G.rest m s s' → G.rest m (f s) (f s') ∧ k s = k s'

/-- **What a mutex protects is touched only by one who holds it.** -/
def Guarded (I : σ → Prop) (G : Guards μ σ) (Q : α → Finset μ → Prop) :
    Prog σ μ ε α → Finset μ → Prop
  | .ret a, H => Q a H
  | .fail _, _ => True
  | .act f k, H => (∀ m, m ∉ H → Alone G m f k) ∧ ∀ s, I s → Guarded I G Q (k s) H
  | .lock m k, H => m ∉ H → Guarded I G Q k (insert m H)
  | .unlock m k, H => Guarded I G Q k (H.erase m)

/-- An action on the state leaves alone what `m` protects. -/
structure Spares (G : Guards μ σ) (m : μ) (x : StateT σ (Except ε) α) : Prop where
  writes : ∀ s a s', x s = .ok (a, s') → G.same m s s'
  reads : ∀ s s', G.rest m s s' →
    (∀ a t, x s = .ok (a, t) → ∃ t', x s' = .ok (a, t') ∧ G.rest m t t')
      ∧ ∀ e, x s = .error e → x s' = .error e

namespace Spares

variable {m : μ}

omit [DecidableEq μ]

/-- An action that never fails. -/
theorem total {f : σ → σ} {g : σ → α} (hwrites : ∀ s, G.same m s (f s))
    (hreads : ∀ s s', G.rest m s s' → G.rest m (f s) (f s') ∧ g s = g s') :
    Spares G m (fun s => .ok (g s, f s) : StateT σ (Except ε) α) := by
  refine ⟨fun s a s' hrun => ?_, fun s s' hrest => ⟨fun a t hrun => ?_, fun _ => nofun⟩⟩
  · cases hrun
    exact hwrites s
  · cases hrun
    obtain ⟨hf, hg⟩ := hreads s s' hrest
    exact ⟨f s', by rw [hg], hf⟩

theorem lift (x : Except ε α) : Spares G m (StateT.lift x : StateT σ (Except ε) α) := by
  refine ⟨fun s a s' hrun => ?_, fun s s' hrest => ⟨fun a t hrun => ?_, fun e hrun => ?_⟩⟩
  · cases x <;> cases hrun
    exact G.same_refl m s
  · cases x <;> cases hrun
    exact ⟨s', rfl, hrest⟩
  · cases x <;> cases hrun
    rfl

theorem pure (a : α) : Spares G m (Pure.pure a : StateT σ (Except ε) α) := lift (.ok a)

theorem throw (e : ε) : Spares G m (MonadExcept.throw e : StateT σ (Except ε) α) :=
  lift (.error e)

/-- **One action after the other.** -/
theorem bind {x : StateT σ (Except ε) α} {f : α → StateT σ (Except ε) β} (hx : Spares G m x)
    (hf : ∀ a, Spares G m (f a)) : Spares G m (x >>= f) := by
  have hok : ∀ {s a t}, x s = .ok (a, t) → (x >>= f) s = f a t := fun {s a t} h => by
    show (x s).bind (fun r => f r.1 r.2) = _
    rw [h]
    rfl
  have herr : ∀ {s e}, x s = .error e → (x >>= f) s = .error e := fun {s e} h => by
    show (x s).bind (fun r => f r.1 r.2) = _
    rw [h]
    rfl
  refine ⟨fun s b s' hrun => ?_, fun s s' hrest => ?_⟩
  · cases hxs : x s with
    | ok r =>
      exact G.same_trans (hx.writes s r.1 r.2 hxs)
        ((hf r.1).writes r.2 b s' ((hok hxs).symm.trans hrun))
    | error e => cases (herr hxs).symm.trans hrun
  · obtain ⟨hxok, hxerr⟩ := hx.reads s s' hrest
    cases hxs : x s with
    | ok r =>
      obtain ⟨t', hxs', hrest'⟩ := hxok r.1 r.2 hxs
      rw [hok hxs, hok hxs']
      exact (hf r.1).reads r.2 t' hrest'
    | error e =>
      rw [herr hxs, herr (hxerr e hxs)]
      exact ⟨fun _ _ => nofun, fun _ => id⟩

/-- **Looking at what is not protected by `m`**, before the rest. -/
theorem look {γ : Type} {v : σ → γ} {f : γ → StateT σ (Except ε) β}
    (hv : ∀ s s', G.rest m s s' → v s = v s') (hf : ∀ c, Spares G m (f c)) :
    Spares G m (MonadState.get >>= fun s => f (v s)) := by
  have hview : Spares G m (fun s => .ok (v s, s) : StateT σ (Except ε) γ) :=
    total (G.same_refl m) fun s s' hrest => ⟨hrest, hv s s' hrest⟩
  exact hview.bind hf

theorem ite {x y : StateT σ (Except ε) α} {P : Prop} [Decidable P] (hx : Spares G m x)
    (hy : Spares G m y) : Spares G m (if P then x else y) := by
  split
  · exact hx
  · exact hy

end Spares

section Rules

variable {I : σ → Prop} {Q : β → Finset μ → Prop}

/-- **A sequence is guarded when its parts are.** -/
theorem Guarded.bind {P : α → Finset μ → Prop} {p : Prog σ μ ε α} {q : α → Prog σ μ ε β}
    {H : Finset μ} (hp : Guarded I G P p H)
    (hq : ∀ a H', P a H' → Guarded I G Q (q a) H') : Guarded I G Q (p >>= q) H := by
  show Guarded I G Q (p.bind q) H
  induction p generalizing H with
  | ret a => exact hq a H hp
  | fail e => trivial
  | act f k ih =>
    refine ⟨fun m hm => ⟨(hp.1 m hm).writes, fun s s' hrest => ?_⟩,
      fun s hs => ih s (hp.2 s hs)⟩
    obtain ⟨hf, hk⟩ := (hp.1 m hm).reads s s' hrest
    exact ⟨hf, congrArg (fun p => Prog.bind p q) hk⟩
  | lock m k ih => exact fun hm => ih (hp hm)
  | unlock m k ih => exact ih hp

/-- **An action that spares all that is not held is guarded.** -/
theorem guarded_call {x : StateT σ (Except ε) β} {H : Finset μ}
    (hx : ∀ m, m ∉ H → Spares G m x) (hQ : ∀ s, I s → ∀ a s', x s = .ok (a, s') → Q a H) :
    Guarded I G Q (call x : Prog σ μ ε β) H := by
  refine ⟨fun m hm => ⟨fun s => ?_, fun s s' hrest => ?_⟩, fun s hs => ?_⟩
  · have hw := (hx m hm).writes s
    cases hxs : x s with
    | ok r => exact hw r.1 r.2 hxs
    | error e => exact G.same_refl m s
  · obtain ⟨hok, herr⟩ := (hx m hm).reads s s' hrest
    cases hxs : x s with
    | ok r =>
      obtain ⟨t', hxs', hrest'⟩ := hok r.1 r.2 hxs
      rw [hxs']
      exact ⟨hrest', rfl⟩
    | error e =>
      rw [herr e hxs]
      exact ⟨hrest, rfl⟩
  · dsimp only
    cases hxs : x s with
    | ok r => exact hQ s hs r.1 r.2 hxs
    | error e => trivial

/-- **Looking at the state is guarded** where the view spares what is not
held. -/
theorem guarded_look {γ : Type} {v : σ → γ} {q : γ → Prog σ μ ε β} {H : Finset μ}
    (hv : ∀ m, m ∉ H → ∀ s s', G.rest m s s' → v s = v s')
    (hq : ∀ s, I s → Guarded I G Q (q (v s)) H) :
    Guarded I G Q (Prog.call MonadState.get >>= fun s => q (v s)) H :=
  ⟨fun m hm => ⟨fun s => G.same_refl m s, fun s s' hrest =>
    ⟨hrest, congrArg q (hv m hm s s' hrest)⟩⟩, hq⟩

end Rules

end Guard

end Prog

namespace Threads

section Steps

variable [DecidableEq μ] {S : Threads ι σ μ ε} {I : σ → Prop}

/-- **The next action of the thread touches what `m` protects.** -/
def Touches (G : Prog.Guards μ σ) (S : Threads ι σ μ ε) (t : ι) (m : μ) : Prop :=
  ∃ f k, S.code t = some (.act f k) ∧ ¬ Prog.Alone G m f k

/-- **Guarded code is a discipline**, where it gives up what it has taken. -/
theorem discipline_guarded (G : Prog.Guards μ σ) {Q : Unit → Finset μ → Prop}
    (hQ : ∀ H, Q () H → H = ∅) :
    Discipline (ε := ε) (fun _ => True) fun p H => p.Guarded (fun _ => True) G Q H where
  ret H h := hQ H h
  act _ _ _ s h _ := ⟨trivial, h.2 s trivial⟩
  lock _ _ _ h hm := h hm
  unlock _ _ _ h := h

/-- **Where all code is guarded, a thread touches only what it holds the mutex
of.** -/
theorem Disciplined.touches_holds {G : Prog.Guards μ σ} {Q : Unit → Finset μ → Prop}
    (hS : Disciplined I (fun _ p H => p.Guarded I G Q H) S) {t : ι} {m : μ}
    (h : S.Touches G t m) : S.holder m = some t := by
  obtain ⟨-, H, hheld, hcodes⟩ := hS
  obtain ⟨f, k, hcode, htouch⟩ := h
  have ht := hcodes t
  rw [hcode] at ht
  by_contra hnot
  exact htouch (ht.1 m fun hm => hnot ((hheld m t).mpr hm))

end Steps

end Threads
