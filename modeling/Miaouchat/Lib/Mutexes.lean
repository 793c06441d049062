import Mathlib.Data.Set.Finite.Lattice
import Miaouchat.Lib.Moves

/-!
# Threads on default mutexes

A default mutex is not recursive: a thread that takes one it holds waits for
itself, and for ever. Giving up a mutex that one does not hold is not defined.
`DefaultStep` has a step for neither, and every run it has is a run of
`Threads.Step`, where both are allowed (`DefaultReach.reach`).

What a thread does is followed with the set of mutexes it holds. A property of
code and such a set is a `Discipline` when each step of the thread keeps it, and
then it holds of every thread in every state reached (`Disciplined.reach`).
`Obeys` is about what the code asks of the mutexes: it never gives up
one it does not hold, and takes one only where that is allowed. `Within m` says
that it acts only while it holds `m`.

From these follow that threads which take mutexes in a fixed order always have
one among them that can go on (`Disciplined.progress`), and that a thread which
waits for itself stops all those that need the mutex (`Disciplined.frozen`).
-/

variable {ι σ μ ε α β : Type}

namespace Prog

/-! ## What code asks of the mutexes -/

section Obey

variable [DecidableEq μ]

/-- **On default mutexes the program keeps `I`**, takes a mutex only where `ok`
allows it to one who holds the set given, and gives up only what it holds. What
it returns with satisfies `Q`. Where it takes a mutex that it holds there is no
more of it. -/
def Obeys (I : σ → Prop) (ok : Finset μ → μ → Prop) (Q : α → Finset μ → Prop) :
    Prog σ μ ε α → Finset μ → Prop
  | .ret a, H => Q a H
  | .fail _, _ => True
  | .act f k, H => ∀ s, I s → I (f s) ∧ Obeys I ok Q (k s) H
  | .lock m k, H => ok H m ∧ (m ∉ H → Obeys I ok Q k (insert m H))
  | .unlock m k, H => m ∈ H ∧ Obeys I ok Q k (H.erase m)

variable {I : σ → Prop} {ok : Finset μ → μ → Prop} {Q : β → Finset μ → Prop}

theorem Obeys.mono {Q' : β → Finset μ → Prop} {p : Prog σ μ ε β} {H : Finset μ}
    (h : Obeys I ok Q p H) (hQ : ∀ a H, Q a H → Q' a H) : Obeys I ok Q' p H := by
  induction p generalizing H with
  | ret a => exact hQ a H h
  | fail e => trivial
  | act f k ih => exact fun s hs => ⟨(h s hs).1, ih s (h s hs).2⟩
  | lock m k ih => exact ⟨h.1, fun hm => ih (h.2 hm)⟩
  | unlock m k ih => exact ⟨h.1, ih h.2⟩

/-- An action obeys if it keeps the invariant. -/
theorem obeys_call {x : StateT σ (Except ε) β} {H : Finset μ}
    (h : ∀ s, I s → ∀ a s', x s = .ok (a, s') → I s' ∧ Q a H) :
    Obeys I ok Q (call x : Prog σ μ ε β) H := by
  intro s hs
  have h' := h s hs
  dsimp only
  revert h'
  cases x s with
  | ok r => exact fun h' => h' r.1 r.2 rfl
  | error e => exact fun _ => ⟨hs, trivial⟩

/-- **A sequence obeys when its parts do.** -/
theorem Obeys.bind {P : α → Finset μ → Prop} {p : Prog σ μ ε α} {q : α → Prog σ μ ε β}
    {H : Finset μ} (hp : Obeys I ok P p H) (hq : ∀ a H', P a H' → Obeys I ok Q (q a) H') :
    Obeys I ok Q (p >>= q) H := by
  show Obeys I ok Q (p.bind q) H
  induction p generalizing H with
  | ret a => exact hq a H hp
  | fail e => trivial
  | act f k ih => exact fun s hs => ⟨(hp s hs).1, ih s (hp s hs).2⟩
  | lock m k ih => exact ⟨hp.1, fun hm => ih (hp.2 hm)⟩
  | unlock m k ih => exact ⟨hp.1, ih hp.2⟩

end Obey

/-- **Above all that is held**, in a fixed order. -/
def Above (rank : μ → ℕ) (H : Finset μ) (m : μ) : Prop := ∀ m' ∈ H, rank m' < rank m

instance (rank : μ → ℕ) (H : Finset μ) (m : μ) : Decidable (Above rank H m) :=
  inferInstanceAs (Decidable (∀ m' ∈ H, rank m' < rank m))

/-! ## Acting only while a mutex is held -/

section Hold

variable [DecidableEq μ]

/-- **The program acts only while it holds `m`.** -/
def Within (I : σ → Prop) (m : μ) (Q : α → Finset μ → Prop) :
    Prog σ μ ε α → Finset μ → Prop
  | .ret a, H => Q a H
  | .fail _, _ => True
  | .act _ k, H => m ∈ H ∧ ∀ s, I s → Within I m Q (k s) H
  | .lock m' k, H => m' ∉ H → Within I m Q k (insert m' H)
  | .unlock m' k, H => Within I m Q k (H.erase m')

theorem Within.bind {I : σ → Prop} {m : μ} {P : α → Finset μ → Prop}
    {Q : β → Finset μ → Prop} {p : Prog σ μ ε α} {q : α → Prog σ μ ε β} {H : Finset μ}
    (hp : Within I m P p H) (hq : ∀ a H', P a H' → Within I m Q (q a) H') :
    Within I m Q (p >>= q) H := by
  show Within I m Q (p.bind q) H
  induction p generalizing H with
  | ret a => exact hq a H hp
  | fail e => trivial
  | act f k ih => exact ⟨hp.1, fun s hs => ih s (hp.2 s hs)⟩
  | lock m' k ih => exact fun hm => ih (hp hm)
  | unlock m' k ih => exact ih hp

theorem within_call {I : σ → Prop} {m : μ} {Q : β → Finset μ → Prop}
    {x : StateT σ (Except ε) β} {H : Finset μ} (hm : m ∈ H)
    (h : ∀ s, I s → ∀ a s', x s = .ok (a, s') → Q a H) :
    Within I m Q (call x : Prog σ μ ε β) H := by
  refine ⟨hm, fun s hs => ?_⟩
  have h' := h s hs
  dsimp only
  revert h'
  cases x s with
  | ok r => exact fun h' => h' r.1 r.2 rfl
  | error e => exact fun _ => trivial

end Hold

end Prog

/-! ## Steps on default mutexes -/

namespace Threads

section Steps

variable [DecidableEq ι] [DecidableEq μ]

/-- **One step on default mutexes**: a mutex is taken when it is free, and given
up by the one who holds it. -/
inductive DefaultStep (jobs : ι → σ → Prog σ μ ε Unit → Prop) :
    Threads ι σ μ ε → Threads ι σ μ ε → Prop
  | start {S : Threads ι σ μ ε} {t : ι} {p : Prog σ μ ε Unit} (hidle : S.code t = none)
      (hjob : jobs t S.shared p) : DefaultStep jobs S (S.begin t p)
  | finish {S : Threads ι σ μ ε} {t : ι} (hcode : S.code t = some (.ret ())) :
      DefaultStep jobs S { S with code := Function.update S.code t none }
  | act {S : Threads ι σ μ ε} {t : ι} {f : σ → σ} {k : σ → Prog σ μ ε Unit}
      (hcode : S.code t = some (.act f k)) :
      DefaultStep jobs S { S with
        shared := f S.shared, code := Function.update S.code t (some (k S.shared)) }
  | lock {S : Threads ι σ μ ε} {t : ι} {m : μ} {k : Prog σ μ ε Unit}
      (hcode : S.code t = some (.lock m k)) (hfree : S.holder m = none) :
      DefaultStep jobs S { S with
        holder := Function.update S.holder m (some t)
        code := Function.update S.code t (some k) }
  | unlock {S : Threads ι σ μ ε} {t : ι} {m : μ} {k : Prog σ μ ε Unit}
      (hcode : S.code t = some (.unlock m k)) (hheld : S.holder m = some t) :
      DefaultStep jobs S { S with
        holder := Function.update S.holder m none
        code := Function.update S.code t (some k) }

/-- The states threads reach by such steps. -/
def DefaultReach (jobs : ι → σ → Prog σ μ ε Unit → Prop) (S S' : Threads ι σ μ ε) : Prop :=
  Relation.ReflTransGen (DefaultStep jobs) S S'

variable {jobs : ι → σ → Prog σ μ ε Unit → Prop} {S S' : Threads ι σ μ ε}

theorem DefaultStep.step (h : DefaultStep jobs S S') : Step jobs S S' := by
  cases h with
  | start hidle hjob => exact .start hidle hjob
  | finish hcode => exact .finish hcode
  | act hcode => exact .act hcode
  | lock hcode hfree => exact .lock hcode (.inl hfree)
  | @unlock t m k hcode hheld =>
    have h : Step jobs S _ := .unlock hcode
    rwa [if_pos hheld] at h

theorem DefaultStep.mono {jobs' : ι → σ → Prog σ μ ε Unit → Prop}
    (hjobs : ∀ t s p, jobs t s p → jobs' t s p) (h : DefaultStep jobs S S') :
    DefaultStep jobs' S S' := by
  cases h with
  | start hidle hjob => exact .start hidle (hjobs _ _ _ hjob)
  | finish hcode => exact .finish hcode
  | act hcode => exact .act hcode
  | lock hcode hfree => exact .lock hcode hfree
  | unlock hcode hheld => exact .unlock hcode hheld

/-- **A run on default mutexes is a run** where they promise more. -/
theorem DefaultReach.reach (h : DefaultReach jobs S S') : Reach jobs S S' :=
  Relation.ReflTransGen.mono (fun _ _ hstep => DefaultStep.step hstep) S S' h

/-- One step of a thread that has code, computed. -/
def goOn (S : Threads ι σ μ ε) (t : ι) : Option (Threads ι σ μ ε) :=
  match S.code t with
  | none => none
  | some (.fail _) => none
  | some (.ret ()) => some { S with code := Function.update S.code t none }
  | some (.act f k) => some { S with
      shared := f S.shared, code := Function.update S.code t (some (k S.shared)) }
  | some (.lock m k) =>
    if S.holder m = none then
      some { S with
        holder := Function.update S.holder m (some t)
        code := Function.update S.code t (some k) }
    else none
  | some (.unlock m k) =>
    if S.holder m = some t then
      some { S with
        holder := Function.update S.holder m none
        code := Function.update S.code t (some k) }
    else none

theorem defaultStep_of_goOn {t : ι} (h : S.goOn t = some S') : DefaultStep jobs S S' := by
  unfold goOn at h
  split at h
  · cases h
  · cases h
  · rename_i hcode
    cases h
    exact .finish hcode
  · rename_i hcode
    cases h
    exact .act hcode
  · rename_i hcode
    split at h
    · rename_i hfree
      cases h
      exact .lock hcode hfree
    · cases h
  · rename_i hcode
    split at h
    · rename_i hheld
      cases h
      exact .unlock hcode hheld
    · cases h

/-- The steps of a schedule, one thread after the other. -/
def goAlong : Threads ι σ μ ε → List ι → Option (Threads ι σ μ ε)
  | S, [] => some S
  | S, t :: ts => (S.goOn t).bind fun S' => goAlong S' ts

/-- **A schedule is a run.** -/
theorem defaultReach_of_goAlong {ts : List ι} (h : S.goAlong ts = some S') :
    DefaultReach jobs S S' := by
  induction ts generalizing S with
  | nil =>
    cases h
    exact .refl
  | cons t ts ih =>
    obtain ⟨S₁, hstep, hrest⟩ := Option.bind_eq_some_iff.mp h
    exact .head (defaultStep_of_goOn hstep) (ih hrest)

/-! ## Disciplines -/

/-- **A property of code, and of the mutexes held, that each step keeps.** Code
that has come to its end holds nothing. -/
structure Discipline (I : σ → Prop) (P : Prog σ μ ε Unit → Finset μ → Prop) : Prop where
  ret : ∀ H, P (.ret ()) H → H = ∅
  act : ∀ f k H s, P (.act f k) H → I s → I (f s) ∧ P (k s) H
  lock : ∀ m k H, P (.lock m k) H → m ∉ H → P k (insert m H)
  unlock : ∀ m k H, P (.unlock m k) H → P k (H.erase m)

/-- **Every thread keeps to its discipline**, and what protects the shared state
holds. -/
def Disciplined (I : σ → Prop) (P : ι → Prog σ μ ε Unit → Finset μ → Prop)
    (S : Threads ι σ μ ε) : Prop :=
  I S.shared ∧ ∃ H : ι → Finset μ, Held S.holder H
    ∧ ∀ t, match S.code t with
      | none => H t = ∅
      | some p => P t p (H t)

variable {I : σ → Prop} {P : ι → Prog σ μ ε Unit → Finset μ → Prop}

omit [DecidableEq ι] [DecidableEq μ] in
theorem disciplined_idle {s : σ} (hs : I s) :
    Disciplined I P (idle s : Threads ι σ μ ε) :=
  ⟨hs, fun _ => ∅, fun _ _ => by simp [idle], fun _ => rfl⟩

namespace Disciplined

omit [DecidableEq ι] [DecidableEq μ] in
/-- What the code of each thread is said to keep to may be said otherwise. -/
theorem imp {P' : ι → Prog σ μ ε Unit → Finset μ → Prop} (hS : Disciplined I P S)
    (h : ∀ u p H, S.code u = some p → P u p H → P' u p H) : Disciplined I P' S := by
  obtain ⟨hI, H, hheld, hcodes⟩ := hS
  refine ⟨hI, H, hheld, fun u => ?_⟩
  have hu := hcodes u
  cases hcode : S.code u with
  | none =>
    rw [hcode] at hu
    exact hu
  | some p =>
    rw [hcode] at hu
    exact h u p (H u) hcode hu

omit [DecidableEq μ] in
/-- A thread that did not move keeps to its discipline. -/
theorem moved {H H' : ι → Finset μ} {t : ι} {c : Option (Prog σ μ ε Unit)}
    (hcodes : ∀ u, match S.code u with
      | none => H u = ∅
      | some p => P u p (H u))
    (hsame : ∀ u, u ≠ t → H' u = H u)
    (ht : match c with
      | none => H' t = ∅
      | some p => P t p (H' t)) :
    ∀ u, match Function.update S.code t c u with
      | none => H' u = ∅
      | some p => P u p (H' u) := by
  intro u
  by_cases hu : u = t
  · subst hu
    rwa [Function.update_self]
  · rw [Function.update_of_ne hu, hsame u hu]
    exact hcodes u

omit [DecidableEq μ] in
/-- **A new job that keeps to the discipline.** -/
theorem start (hS : Disciplined I P S) {t : ι} {p : Prog σ μ ε Unit}
    (hidle : S.code t = none) (hp : P t p ∅) : Disciplined I P (S.begin t p) := by
  obtain ⟨hI, H, hheld, hcodes⟩ := hS
  have ht := hcodes t
  rw [hidle] at ht
  exact ⟨hI, H, hheld, moved hcodes (fun _ _ => rfl) (ht.symm ▸ hp)⟩

/-- **One step keeps it**, where the jobs of threads that are idle do. -/
theorem step (hP : ∀ t, Discipline I (P t)) (hS : Disciplined I P S)
    (hjobs : ∀ t p, S.code t = none → jobs t S.shared p → P t p ∅)
    (h : DefaultStep jobs S S') : Disciplined I P S' := by
  cases h with
  | start hidle hjob => exact hS.start hidle (hjobs _ _ hidle hjob)
  | @finish t hcode =>
    obtain ⟨hI, H, hheld, hcodes⟩ := hS
    have ht := hcodes t
    rw [hcode] at ht
    exact ⟨hI, H, hheld, moved hcodes (fun _ _ => rfl) ((hP t).ret _ ht)⟩
  | @act t f k hcode =>
    obtain ⟨hI, H, hheld, hcodes⟩ := hS
    have ht := hcodes t
    rw [hcode] at ht
    obtain ⟨hf, hk⟩ := (hP t).act _ _ _ _ ht hI
    exact ⟨hf, H, hheld, moved hcodes (fun _ _ => rfl) hk⟩
  | @lock t m k hcode hfree =>
    obtain ⟨hI, H, hheld, hcodes⟩ := hS
    have ht := hcodes t
    rw [hcode] at ht
    have hm : m ∉ H t := fun hm => by cases hfree.symm.trans ((hheld m t).mpr hm)
    refine ⟨hI, Function.update H t (insert m (H t)), hheld.lock (.inl hfree),
      moved hcodes (fun u hu => Function.update_of_ne hu ..) ?_⟩
    show P t k (Function.update H t (insert m (H t)) t)
    rw [Function.update_self]
    exact (hP t).lock _ _ _ ht hm
  | @unlock t m k hcode hown =>
    obtain ⟨hI, H, hheld, hcodes⟩ := hS
    have ht := hcodes t
    rw [hcode] at ht
    have hunlock := hheld.unlock m t
    rw [if_pos hown] at hunlock
    refine ⟨hI, Function.update H t ((H t).erase m), hunlock,
      moved hcodes (fun u hu => Function.update_of_ne hu ..) ?_⟩
    show P t k (Function.update H t ((H t).erase m) t)
    rw [Function.update_self]
    exact (hP t).unlock _ _ _ ht

/-- **Every state reached is disciplined**, where the jobs are. -/
theorem reach (hP : ∀ t, Discipline I (P t)) (hjobs : ∀ t s p, I s → jobs t s p → P t p ∅)
    (hS : Disciplined I P S) (h : DefaultReach jobs S S') : Disciplined I P S' := by
  induction h with
  | refl => exact hS
  | tail _ hstep ih => exact ih.step hP (fun t p _ => hjobs t _ p ih.1) hstep

omit [DecidableEq μ] in
/-- A thread comes to its end with nothing left to do. -/
theorem idle_of_finish {t u : ι} (hne : S.code t ≠ none)
    (hidle : Function.update S.code u none t = none) : t = u := by
  by_contra hu
  rw [Function.update_of_ne hu] at hidle
  exact hne hidle

/-- **A thread whose code may not come to its end stays busy**, and the others
are disciplined. -/
theorem busy (hP : ∀ t, Discipline I (P t)) {t : ι} (hret : ∀ H, ¬ P t (.ret ()) H)
    (hjobs : ∀ u s p, u ≠ t → I s → jobs u s p → P u p ∅) (hS : Disciplined I P S)
    (ht : S.code t ≠ none) (h : DefaultReach jobs S S') :
    Disciplined I P S' ∧ S'.code t ≠ none := by
  induction h with
  | refl => exact ⟨hS, ht⟩
  | @tail S₁ S₂ hreach hstep ih =>
    obtain ⟨hS₁, ht₁⟩ := ih
    refine ⟨hS₁.step hP (fun u p hidle => hjobs u _ p (fun hu => ht₁ (hu ▸ hidle)) hS₁.1) hstep,
      ?_⟩
    have hmoved : ∀ {u : ι} {p : Prog σ μ ε Unit},
        Function.update S₁.code u (some p) t ≠ none := by
      intro u p
      by_cases hu : t = u
      · subst hu
        rw [Function.update_self]
        exact Option.some_ne_none p
      · rwa [Function.update_of_ne hu]
    cases hstep with
    | start => exact hmoved
    | @finish u hcode =>
      -- it is another thread that has finished
      refine fun hidle => ?_
      obtain rfl := idle_of_finish ht₁ hidle
      obtain ⟨-, H, -, hcodes⟩ := hS₁
      have hdisc := hcodes t
      rw [hcode] at hdisc
      exact hret _ hdisc
    | act => exact hmoved
    | lock => exact hmoved
    | unlock => exact hmoved

omit [DecidableEq ι] in
/-- **What a thread gives up it holds.** -/
theorem gives {Q : Unit → Finset μ → Prop} {ok : Finset μ → μ → Prop}
    (hS : Disciplined I (fun _ p H => p.Obeys I ok Q H) S) {t : ι} {m : μ}
    {k : Prog σ μ ε Unit} (hcode : S.code t = some (.unlock m k)) : S.holder m = some t := by
  obtain ⟨-, H, hheld, hcodes⟩ := hS
  have ht := hcodes t
  rw [hcode] at ht
  exact (hheld m t).mpr ht.1

end Disciplined

/-- **What a program asks of the mutexes is a discipline**, where it gives up what
it has taken. -/
theorem discipline_obeys (I : σ → Prop) (ok : Finset μ → μ → Prop)
    {Q : Unit → Finset μ → Prop} (hQ : ∀ H, Q () H → H = ∅) :
    Discipline (ε := ε) I fun p H => p.Obeys I ok Q H where
  ret H h := hQ H h
  act _ _ _ s h hs := h s hs
  lock _ _ _ h hm := h.2 hm
  unlock _ _ _ h := h.2

/-! ## Progress -/

/-- **The code of a thread has failed.** -/
def Failed (S : Threads ι σ μ ε) (t : ι) : Prop := ∃ e, S.code t = some (.fail e)

/-- A step of a thread that goes on with the code it has. -/
def GoesOn (S S' : Threads ι σ μ ε) : Prop := DefaultStep (fun _ _ _ => False) S S'

/-- **Threads that take the mutexes in order do not all wait**: where one has
code, one can go on, or has failed. -/
theorem Disciplined.progress [Finite μ] {rank : μ → ℕ}
    (hS : Disciplined I (fun _ p H => p.Obeys I (Prog.Above rank) (fun _ H' => H' = ∅) H) S)
    {t : ι} (ht : S.code t ≠ none) : (∃ u, S.Failed u) ∨ ∃ S', S.GoesOn S' := by
  obtain ⟨-, H, hheld, hcodes⟩ := hS
  obtain ⟨n, hn⟩ := (Set.finite_range rank).bddAbove
  have hrank : ∀ m, rank m ≤ n := fun m => hn (Set.mem_range_self m)
  -- Whoever holds something goes on, has failed, or waits for a mutex of a higher rank.
  have hbusy : ∀ u p, S.code u = some p →
      ((∃ u, S.Failed u) ∨ ∃ S', S.GoesOn S')
        ∨ ∃ m k, p = .lock m k ∧ ∀ m' ∈ H u, rank m' < rank m := by
    intro u p hcode
    have hu := hcodes u
    rw [hcode] at hu
    cases p with
    | ret _ => exact .inl (.inr ⟨_, .finish hcode⟩)
    | fail e => exact .inl (.inl ⟨u, e, hcode⟩)
    | act f k => exact .inl (.inr ⟨_, .act hcode⟩)
    | lock m k => exact .inr ⟨m, k, rfl, hu.1⟩
    | unlock m k => exact .inl (.inr ⟨_, .unlock hcode ((hheld m u).mpr hu.1)⟩)
  have hwaits : ∀ d u m k, S.code u = some (.lock m k) → n < rank m + d →
      (∃ u, S.Failed u) ∨ ∃ S', S.GoesOn S' := by
    intro d
    induction d with
    | zero => exact fun u m k _ hlt => absurd (hrank m) hlt.not_ge
    | succ d ih =>
      intro u m k hcode hlt
      cases hholder : S.holder m with
      | none => exact .inr ⟨_, .lock hcode hholder⟩
      | some v =>
        have hmem : m ∈ H v := (hheld m v).mp hholder
        cases hv : S.code v with
        | none =>
          have hempty := hcodes v
          rw [hv] at hempty
          exact absurd (hempty ▸ hmem) (Finset.notMem_empty m)
        | some p =>
          rcases hbusy v p hv with h | ⟨m', k', rfl, habove⟩
          · exact h
          · exact ih v m' k' hv (by have := habove m hmem; omega)
  obtain ⟨p, hp⟩ := Option.ne_none_iff_exists'.mp ht
  rcases hbusy t p hp with h | ⟨m, k, rfl, -⟩
  · exact h
  · exact hwaits (n + 1) t m k hp (by omega)

/-! ## A thread that waits for itself -/

/-- **The thread waits for a mutex that it holds.** -/
def SelfLocked (S : Threads ι σ μ ε) (t : ι) (m : μ) : Prop :=
  (∃ k, S.code t = some (.lock m k)) ∧ S.holder m = some t

section Frozen

variable {t : ι} {m : μ}

/-- It makes no more steps, and the others do not act while they do not hold the
mutex. -/
theorem SelfLocked.step (hself : S.SelfLocked t m) (hS : Disciplined I P S)
    (hW : ∀ u, u ≠ t → ∀ p H, P u p H → p.Within I m (fun _ _ => True) H)
    (h : DefaultStep jobs S S') : S'.SelfLocked t m ∧ S'.shared = S.shared := by
  obtain ⟨⟨k, ht⟩, hown⟩ := hself
  obtain ⟨-, H, hheld, hcodes⟩ := hS
  -- a thread that moves is another one
  have hne : ∀ {u : ι} {c : Option (Prog σ μ ε Unit)}, S.code u = c →
      (∀ k, c ≠ some (.lock m k)) → u ≠ t := by
    rintro u c hu hc rfl
    exact hc k (hu.symm.trans ht)
  have hcode : ∀ {u : ι} (c : Option (Prog σ μ ε Unit)), u ≠ t →
      ∃ k, Function.update S.code u c t = some (.lock m k) := fun c hu =>
    ⟨k, by rwa [Function.update_of_ne hu.symm]⟩
  cases h with
  | start hidle hjob => exact ⟨⟨hcode _ (hne hidle fun _ => nofun), hown⟩, rfl⟩
  | finish hfin => exact ⟨⟨hcode _ (hne hfin fun _ => nofun), hown⟩, rfl⟩
  | @act u f k' hact =>
    have hu : u ≠ t := hne hact fun _ => nofun
    have hdisc := hcodes u
    rw [hact] at hdisc
    have hmem : m ∈ H u := (hW u hu _ _ hdisc).1
    exact absurd (Option.some.inj (((hheld m u).mpr hmem).symm.trans hown)) hu
  | @lock u m' k' hlock hfree =>
    have hm : m ≠ m' := by
      rintro rfl
      cases hfree.symm.trans hown
    have hu : u ≠ t := hne hlock fun k'' h => by
      cases h
      exact hm rfl
    exact ⟨⟨hcode _ hu, (Function.update_of_ne hm ..).trans hown⟩, rfl⟩
  | @unlock u m' k' hunlock hheld' =>
    have hu : u ≠ t := hne hunlock fun _ => nofun
    have hm : m ≠ m' := by
      rintro rfl
      exact hu (Option.some.inj (hheld'.symm.trans hown))
    exact ⟨⟨hcode _ hu, (Function.update_of_ne hm ..).trans hown⟩, rfl⟩

/-- **Once a thread waits for itself, nothing changes any more**, where the
others act only while they hold the mutex. -/
theorem Disciplined.frozen (hP : ∀ t, Discipline I (P t))
    (hjobs : ∀ t s p, I s → jobs t s p → P t p ∅) (hS : Disciplined I P S)
    (hW : ∀ u, u ≠ t → ∀ p H, P u p H → p.Within I m (fun _ _ => True) H)
    (hself : S.SelfLocked t m) (h : DefaultReach jobs S S') :
    S'.SelfLocked t m ∧ S'.shared = S.shared := by
  induction h with
  | refl => exact ⟨hself, rfl⟩
  | tail hreach hstep ih =>
    obtain ⟨hself', hsame⟩ := ih.1.step (hS.reach hP hjobs hreach) hW hstep
    exact ⟨hself', hsame.trans ih.2⟩

end Frozen

end Steps

end Threads
