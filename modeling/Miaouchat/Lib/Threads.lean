import Mathlib

/-!
# Programs that take mutexes

A thread's code is a `Prog`: a tree of actions on the state shared with the
other threads, each of them atomic, with the locking and unlocking of mutexes
between them. The same code is read in three ways.

`exec` runs it alone, the mutexes left aside: what the program computes.

`Balanced` follows it from a given state and keeps the set of mutexes the
thread holds: it never takes one it holds, and never gives up one it does not
hold. This is about one run, of a thread alone.

`Respects` is about all the states the other threads may produce between two
actions, as far as an invariant describes them: the actions keep the invariant,
and a mutex is taken only where that is allowed. With `InOrder` for what is
allowed – a mutex that comes after those held, in a fixed order – the
consequence for threads that run side by side is `no_deadlock`: no two of them
wait for each other.

A thread that waits for a mutex waits while *another* thread holds it, and
giving up a mutex one does not hold does nothing. Both are more than a default
mutex promises, so a run of threads on such mutexes is a run here.
-/

variable {ι σ μ ε α β γ : Type}

/-- The code of a thread over shared states `σ` and mutexes `μ`, which ends in
a value or fails with `ε`. An action `act f k` changes the state from `s` to
`f s` and goes on as `k s`. -/
inductive Prog (σ μ ε α : Type) : Type
  | ret (a : α)
  | fail (e : ε)
  | act (f : σ → σ) (k : σ → Prog σ μ ε α)
  | lock (m : μ) (k : Prog σ μ ε α)
  | unlock (m : μ) (k : Prog σ μ ε α)

namespace Prog

/-- One program after the other. -/
def bind (p : Prog σ μ ε α) (q : α → Prog σ μ ε β) : Prog σ μ ε β :=
  match p with
  | .ret a => q a
  | .fail e => .fail e
  | .act f k => .act f (fun s => (k s).bind q)
  | .lock m k => .lock m (k.bind q)
  | .unlock m k => .unlock m (k.bind q)

instance : Monad (Prog σ μ ε) where
  pure := .ret
  bind := bind

/-- Take a mutex. -/
def take (m : μ) : Prog σ μ ε Unit := .lock m (.ret ())

/-- Give up a mutex. -/
def give (m : μ) : Prog σ μ ε Unit := .unlock m (.ret ())

/-- An atomic action given as a function on the state that may fail. -/
def call (x : StateT σ (Except ε) α) : Prog σ μ ε α :=
  .act
    (fun s => match x s with
      | .ok (_, s') => s'
      | .error _ => s)
    (fun s => match x s with
      | .ok (a, _) => .ret a
      | .error e => .fail e)

/-! ## Running a program alone -/

/-- **What a program computes**, the mutexes left aside. -/
def exec : Prog σ μ ε α → StateT σ (Except ε) α
  | .ret a => fun s => .ok (a, s)
  | .fail e => fun _ => .error e
  | .act f k => fun s => (k s).exec (f s)
  | .lock _ k => k.exec
  | .unlock _ k => k.exec

@[simp] theorem exec_pure (a : α) (s : σ) :
    (pure a : Prog σ μ ε α).exec s = .ok (a, s) := rfl

/-- **A sequence computes what its parts compute in sequence.** -/
@[simp] theorem exec_bind (p : Prog σ μ ε α) (q : α → Prog σ μ ε β) (s : σ) :
    (p >>= q).exec s = p.exec s >>= fun r => (q r.1).exec r.2 := by
  show (p.bind q).exec s = _
  induction p generalizing s with
  | ret a => rfl
  | fail e => rfl
  | act f k ih => exact ih s (f s)
  | lock m k ih => exact ih s
  | unlock m k ih => exact ih s

@[simp] theorem exec_call (x : StateT σ (Except ε) α) (s : σ) :
    (call x : Prog σ μ ε α).exec s = x s := by
  simp only [call, exec]
  cases x s <;> rfl

/-- The same, of the programs as actions. -/
theorem exec_seq (p : Prog σ μ ε α) (q : α → Prog σ μ ε β) :
    (p >>= q).exec = p.exec >>= fun a => (q a).exec :=
  funext fun s => exec_bind p q s

theorem exec_action (x : StateT σ (Except ε) α) : (call x : Prog σ μ ε α).exec = x :=
  funext (exec_call x)

/-- The rest of a program, once its first part has run. -/
theorem exec_bind_ok {p : Prog σ μ ε α} {q : α → Prog σ μ ε β} {s s' : σ} {a : α}
    (h : p.exec s = .ok (a, s')) : (p >>= q).exec s = (q a).exec s' := by
  rw [exec_bind, h]
  rfl

/-- A program that returns is one whose parts do. -/
theorem exec_bind_eq_ok {p : Prog σ μ ε α} {q : α → Prog σ μ ε β} {s s' : σ} {b : β}
    (h : (p >>= q).exec s = .ok (b, s')) :
    ∃ a s₁, p.exec s = .ok (a, s₁) ∧ (q a).exec s₁ = .ok (b, s') := by
  rw [exec_bind] at h
  cases hp : p.exec s with
  | ok r => exact ⟨r.1, r.2, rfl, by rwa [hp] at h⟩
  | error e =>
    rw [hp] at h
    cases h

theorem exec_bind_error {p : Prog σ μ ε α} {q : α → Prog σ μ ε β} {s : σ} {e : ε}
    (h : p.exec s = .error e) : (p >>= q).exec s = .error e := by
  rw [exec_bind, h]
  rfl

/-- The mutexes are passed over. -/
@[simp] theorem exec_take_bind (m : μ) (q : Unit → Prog σ μ ε β) (s : σ) :
    (take m >>= q).exec s = (q ()).exec s := rfl

theorem exec_call_bind {x : StateT σ (Except ε) α} {q : α → Prog σ μ ε β} {s s' : σ} {a : α}
    (h : x s = .ok (a, s')) : (call x >>= q).exec s = (q a).exec s' :=
  exec_bind_ok ((exec_call x s).trans h)

@[simp] theorem exec_get_bind (q : σ → Prog σ μ ε β) (s : σ) :
    (call get >>= q).exec s = (q s).exec s := rfl

theorem exec_call_bind_error {x : StateT σ (Except ε) α} {q : α → Prog σ μ ε β} {s : σ}
    {e : ε} (h : x s = .error e) : (call x >>= q).exec s = .error e :=
  exec_bind_error ((exec_call x s).trans h)

/-- **What a program comes to when it runs alone, and the state it leaves**, also where
it fails. -/
def outcome : Prog σ μ ε α → σ → Except ε α × σ
  | .ret a, s => (.ok a, s)
  | .fail e, s => (.error e, s)
  | .act f k, s => (k s).outcome (f s)
  | .lock _ k, s => k.outcome s
  | .unlock _ k, s => k.outcome s

/-- A program that fails computes nothing. -/
theorem exec_of_outcome {p : Prog σ μ ε α} {s s' : σ} {e : ε}
    (h : p.outcome s = (.error e, s')) : p.exec s = .error e := by
  induction p generalizing s with
  | ret a => cases h
  | fail e' =>
    cases h
    rfl
  | act f k ih => exact ih s h
  | lock m k ih => exact ih h
  | unlock m k ih => exact ih h

/-- **An action that fails leaves the state as it was.** -/
theorem outcome_call_error {x : StateT σ (Except ε) α} {s : σ} {e : ε} (h : x s = .error e) :
    (call x : Prog σ μ ε α).outcome s = (.error e, s) := by
  simp only [call, outcome, h]

/-- There is nothing after a program that fails. -/
theorem outcome_bind_error {p : Prog σ μ ε α} {q : α → Prog σ μ ε β} {s s' : σ} {e : ε}
    (h : p.outcome s = (.error e, s')) : (p >>= q).outcome s = (.error e, s') := by
  show (p.bind q).outcome s = _
  induction p generalizing s with
  | ret a => cases h
  | fail e' =>
    cases h
    rfl
  | act f k ih => exact ih s h
  | lock m k ih => exact ih h
  | unlock m k ih => exact ih h

theorem outcome_call_bind {x : StateT σ (Except ε) α} {q : α → Prog σ μ ε β} {s s' : σ}
    {a : α} (h : x s = .ok (a, s')) : (call x >>= q).outcome s = (q a).outcome s' := by
  show ((call x).bind q).outcome s = _
  simp only [call, bind, outcome, h]

/-! ## Balanced locking -/

section Balance

variable [DecidableEq μ]

/-- **From the state `s`, holding `H`, the program takes only mutexes it does
not hold and gives up only ones it holds**, and what it returns with satisfies
`Q`. Nothing is asked of a program that fails. -/
def Balanced (Q : α → σ → Finset μ → Prop) : Prog σ μ ε α → σ → Finset μ → Prop
  | .ret a, s, H => Q a s H
  | .fail _, _, _ => True
  | .act f k, s, H => Balanced Q (k s) (f s) H
  | .lock m k, s, H => m ∉ H ∧ Balanced Q k s (insert m H)
  | .unlock m k, s, H => m ∈ H ∧ Balanced Q k s (H.erase m)

variable {Q : β → σ → Finset μ → Prop}

/-- **A sequence is balanced when its parts are.** -/
theorem balanced_bind (p : Prog σ μ ε α) (q : α → Prog σ μ ε β) (s : σ) (H : Finset μ) :
    Balanced Q (p >>= q) s H
      ↔ Balanced (fun a s' H' => Balanced Q (q a) s' H') p s H := by
  show Balanced Q (p.bind q) s H ↔ _
  induction p generalizing s H with
  | ret a => rfl
  | fail e => rfl
  | act f k ih => exact ih s (f s) H
  | lock m k ih => exact and_congr_right fun _ => ih s _
  | unlock m k ih => exact and_congr_right fun _ => ih s _

/-- An action takes and gives up nothing. -/
theorem balanced_call (x : StateT σ (Except ε) β) (s : σ) (H : Finset μ) :
    Balanced Q (call x : Prog σ μ ε β) s H ↔ ∀ a s', x s = .ok (a, s') → Q a s' H := by
  simp only [call, Balanced]
  cases x s with
  | ok r =>
    constructor
    · intro h a s' heq
      cases heq
      exact h
    · exact fun h => h r.1 r.2 rfl
  | error e => exact ⟨fun _ _ _ => nofun, fun _ => trivial⟩

theorem Balanced.mono {Q' : β → σ → Finset μ → Prop} {p : Prog σ μ ε β} {s : σ}
    {H : Finset μ} (h : Balanced Q p s H) (hQ : ∀ a s H, Q a s H → Q' a s H) :
    Balanced Q' p s H := by
  induction p generalizing s H with
  | ret a => exact hQ a s H h
  | fail e => trivial
  | act f k ih => exact ih s h
  | lock m k ih => exact ⟨h.1, ih h.2⟩
  | unlock m k ih => exact ⟨h.1, ih h.2⟩

/-- **Once it is known what a program holds when it returns**, the rest is what
it computes. -/
theorem Balanced.iff_exec {p : Prog σ μ ε β} {s : σ} {H K : Finset μ}
    (h : Balanced (fun _ _ H' => H' = K) p s H) :
    Balanced Q p s H ↔ ∀ b s', p.exec s = .ok (b, s') → Q b s' K := by
  induction p generalizing s H with
  | ret b =>
    cases h
    constructor
    · intro hQ b s' hrun
      cases hrun
      exact hQ
    · exact fun hQ => hQ b s rfl
  | fail e => exact iff_of_true trivial (fun _ _ => nofun)
  | act f k ih => exact ih s h
  | lock m k ih => exact (and_iff_right h.1).trans (ih h.2)
  | unlock m k ih => exact (and_iff_right h.1).trans (ih h.2)

theorem balanced_bind_iff_exec {p : Prog σ μ ε α} {q : α → Prog σ μ ε β} {s : σ}
    {H K : Finset μ} (h : Balanced (fun _ _ H' => H' = K) p s H) :
    Balanced Q (p >>= q) s H ↔ ∀ a s', p.exec s = .ok (a, s') → Balanced Q (q a) s' K := by
  rw [balanced_bind, h.iff_exec]

theorem balanced_take_bind (m : μ) (q : Unit → Prog σ μ ε β) (s : σ) (H : Finset μ) :
    Balanced Q (take m >>= q) s H ↔ m ∉ H ∧ Balanced Q (q ()) s (insert m H) := Iff.rfl

/-- An action that succeeds, before the rest. -/
theorem balanced_call_bind {x : StateT σ (Except ε) α} {q : α → Prog σ μ ε β} {s s' : σ}
    {a : α} (h : x s = .ok (a, s')) (H : Finset μ) :
    Balanced Q (call x >>= q) s H ↔ Balanced Q (q a) s' H := by
  rw [balanced_bind, balanced_call]
  constructor
  · exact fun hq => hq a s' h
  · intro hq a' s'' h'
    cases h.symm.trans h'
    exact hq

/-- Reading the state. -/
theorem balanced_get_bind (q : σ → Prog σ μ ε β) (s : σ) (H : Finset μ) :
    Balanced Q (call get >>= q) s H ↔ Balanced Q (q s) s H := Iff.rfl

namespace Balanced

theorem take {m : μ} {q : Unit → Prog σ μ ε β} {s : σ} {H : Finset μ} (h : m ∉ H)
    (hq : Balanced Q (q ()) s (insert m H)) : Balanced Q (Prog.take m >>= q) s H :=
  ⟨h, hq⟩

theorem give {m : μ} {q : Unit → Prog σ μ ε β} {s : σ} {H : Finset μ} (h : m ∈ H)
    (hq : Balanced Q (q ()) s (H.erase m)) : Balanced Q (Prog.give m >>= q) s H :=
  ⟨h, hq⟩

/-- An action that may also fail, before the rest. -/
theorem call {x : StateT σ (Except ε) α} {q : α → Prog σ μ ε β} {s : σ} {H : Finset μ}
    (hq : ∀ a s', x s = .ok (a, s') → Balanced Q (q a) s' H) :
    Balanced Q (Prog.call x >>= q) s H :=
  (balanced_bind _ _ _ _).mpr ((balanced_call _ _ _).mpr hq)

/-- The end of a program that holds what it should. -/
theorem done {b : β} {s : σ} {H K : Finset μ} (h : H = K) :
    Balanced (fun _ _ H' => H' = K) (pure b : Prog σ μ ε β) s H := h

theorem give_done {m : μ} {s : σ} {H K : Finset μ} (h : m ∈ H) (hK : H.erase m = K) :
    Balanced (fun _ _ H' => H' = K) (Prog.give m : Prog σ μ ε Unit) s H := ⟨h, hK⟩

end Balanced

end Balance

/-! ## Actions among those of other threads -/

section Respect

variable [DecidableEq μ]

/-- **Whatever state its actions find, as long as it satisfies `I`**, the
program keeps `I`, and takes a mutex only where `ok` allows it to one who holds
the set given. -/
def Respects (I : σ → Prop) (ok : Finset μ → μ → Prop) (Q : α → Finset μ → Prop) :
    Prog σ μ ε α → Finset μ → Prop
  | .ret a, H => Q a H
  | .fail _, _ => True
  | .act f k, H => ∀ s, I s → I (f s) ∧ Respects I ok Q (k s) H
  | .lock m k, H => ok H m ∧ Respects I ok Q k (insert m H)
  | .unlock m k, H => Respects I ok Q k (H.erase m)

variable {I : σ → Prop} {ok : Finset μ → μ → Prop} {Q : β → Finset μ → Prop}

/-- **A sequence respects them when its parts do.** -/
theorem respects_bind (p : Prog σ μ ε α) (q : α → Prog σ μ ε β) (H : Finset μ) :
    Respects I ok Q (p >>= q) H
      ↔ Respects I ok (fun a H' => Respects I ok Q (q a) H') p H := by
  show Respects I ok Q (p.bind q) H ↔ _
  induction p generalizing H with
  | ret a => rfl
  | fail e => rfl
  | act f k ih =>
    exact forall_congr' fun s => imp_congr_right fun _ => and_congr_right fun _ => ih s H
  | lock m k ih => exact and_congr_right fun _ => ih _
  | unlock m k ih => exact ih _

/-- An action respects them if it keeps the invariant. -/
theorem respects_call {x : StateT σ (Except ε) β} {H : Finset μ}
    (h : ∀ s, I s → ∀ a s', x s = .ok (a, s') → I s' ∧ Q a H) :
    Respects I ok Q (call x : Prog σ μ ε β) H := by
  intro s hs
  have h' := h s hs
  dsimp only
  revert h'
  cases x s with
  | ok r => exact fun h' => h' r.1 r.2 rfl
  | error e => exact fun _ => ⟨hs, trivial⟩

theorem Respects.mono {Q' : β → Finset μ → Prop} {p : Prog σ μ ε β} {H : Finset μ}
    (h : Respects I ok Q p H) (hQ : ∀ a H, Q a H → Q' a H) :
    Respects I ok Q' p H := by
  induction p generalizing H with
  | ret a => exact hQ a H h
  | fail e => trivial
  | act f k ih => exact fun s hs => ⟨(h s hs).1, ih s (h s hs).2⟩
  | lock m k ih => exact ⟨h.1, ih h.2⟩
  | unlock m k ih => exact ih h

namespace Respects

theorem bind {P : α → Finset μ → Prop} {p : Prog σ μ ε α} {q : α → Prog σ μ ε β}
    {H : Finset μ} (hp : Respects I ok P p H)
    (hq : ∀ a H', P a H' → Respects I ok Q (q a) H') : Respects I ok Q (p >>= q) H :=
  (respects_bind _ _ _).mpr (hp.mono hq)

theorem take {m : μ} {q : Unit → Prog σ μ ε β} {H : Finset μ} (h : ok H m)
    (hq : Respects I ok Q (q ()) (insert m H)) : Respects I ok Q (Prog.take m >>= q) H :=
  ⟨h, hq⟩

theorem give {m : μ} {q : Unit → Prog σ μ ε β} {H : Finset μ}
    (hq : Respects I ok Q (q ()) (H.erase m)) : Respects I ok Q (Prog.give m >>= q) H :=
  hq

/-- An action that may also fail, before the rest. -/
theorem call {x : StateT σ (Except ε) α} {q : α → Prog σ μ ε β} {H : Finset μ}
    (h : ∀ s, I s → ∀ a s', x s = .ok (a, s') → I s' ∧ Respects I ok Q (q a) H) :
    Respects I ok Q (Prog.call x >>= q) H :=
  (respects_bind _ _ _).mpr (respects_call h)

/-- The end of a program that holds what it should. -/
theorem done {b : β} {H : Finset μ} (h : Q b H) :
    Respects I ok Q (pure b : Prog σ μ ε β) H := h

theorem give_done {m : μ} {Q : Unit → Finset μ → Prop} {H : Finset μ}
    (h : Q () (H.erase m)) : Respects I ok Q (Prog.give m : Prog σ μ ε Unit) H := h

end Respects

/-- **A program that keeps an invariant keeps it when it runs alone.** -/
theorem Respects.exec {p : Prog σ μ ε β} {H : Finset μ} (h : Respects I ok Q p H) {s s' : σ}
    {a : β} (hs : I s) (hrun : p.exec s = .ok (a, s')) : I s' := by
  induction p generalizing s H with
  | ret b =>
    cases hrun
    exact hs
  | fail e => cases hrun
  | act f k ih => exact ih s (h s hs).2 (h s hs).1 hrun
  | lock m k ih => exact ih h.2 hs hrun
  | unlock m k ih => exact ih h hs hrun

end Respect

/-- **Locking in order**: a mutex may be taken by one who holds it, and by one
who holds only mutexes that rank below it. -/
def InOrder (rank : μ → ℕ) (H : Finset μ) (m : μ) : Prop :=
  m ∈ H ∨ ∀ m' ∈ H, rank m' < rank m

instance [DecidableEq μ] (rank : μ → ℕ) (H : Finset μ) (m : μ) :
    Decidable (InOrder rank H m) :=
  inferInstanceAs (Decidable (m ∈ H ∨ ∀ m' ∈ H, rank m' < rank m))

end Prog

/-! ## Threads side by side -/

/-- The threads `ι` over a shared state: which thread holds a mutex, and what
is left of the code of a thread that is not idle. -/
structure Threads (ι σ μ ε : Type) where
  shared : σ
  holder : μ → Option ι
  code : ι → Option (Prog σ μ ε Unit)

namespace Threads

/-- No thread runs and no mutex is held. -/
def idle (s : σ) : Threads ι σ μ ε := ⟨s, fun _ => none, fun _ => none⟩

/-- The mutex a thread is about to take. -/
def wants (S : Threads ι σ μ ε) (t : ι) : Option μ :=
  match S.code t with
  | some (.lock m _) => some m
  | _ => none

/-- A thread waits for a mutex that another one holds. -/
def Waits (S : Threads ι σ μ ε) (t t' : ι) : Prop :=
  ∃ m, S.wants t = some m ∧ S.holder m = some t' ∧ t' ≠ t

/-- **Two threads wait for each other.** -/
def Deadlocked (S : Threads ι σ μ ε) (t t' : ι) : Prop := S.Waits t t' ∧ S.Waits t' t

section Steps

variable [DecidableEq ι] [DecidableEq μ]

/-- A thread starts on a piece of code. -/
def begin (S : Threads ι σ μ ε) (t : ι) (p : Prog σ μ ε Unit) : Threads ι σ μ ε :=
  { S with code := Function.update S.code t (some p) }

/-- One step of a thread: start a job that `jobs` allows it in the present
state, end one, act, take a mutex no other thread holds, or give one up. A
thread whose code has failed makes no more steps. -/
inductive Step (jobs : ι → σ → Prog σ μ ε Unit → Prop) :
    Threads ι σ μ ε → Threads ι σ μ ε → Prop
  | start {S : Threads ι σ μ ε} {t : ι} {p : Prog σ μ ε Unit} (hidle : S.code t = none)
      (hjob : jobs t S.shared p) :
      Step jobs S (S.begin t p)
  | finish {S : Threads ι σ μ ε} {t : ι} (hcode : S.code t = some (.ret ())) :
      Step jobs S { S with code := Function.update S.code t none }
  | act {S : Threads ι σ μ ε} {t : ι} {f : σ → σ} {k : σ → Prog σ μ ε Unit}
      (hcode : S.code t = some (.act f k)) :
      Step jobs S { S with
        shared := f S.shared, code := Function.update S.code t (some (k S.shared)) }
  | lock {S : Threads ι σ μ ε} {t : ι} {m : μ} {k : Prog σ μ ε Unit}
      (hcode : S.code t = some (.lock m k))
      (hfree : S.holder m = none ∨ S.holder m = some t) :
      Step jobs S { S with
        holder := Function.update S.holder m (some t)
        code := Function.update S.code t (some k) }
  | unlock {S : Threads ι σ μ ε} {t : ι} {m : μ} {k : Prog σ μ ε Unit}
      (hcode : S.code t = some (.unlock m k)) :
      Step jobs S { S with
        holder := if S.holder m = some t then Function.update S.holder m none else S.holder
        code := Function.update S.code t (some k) }

/-- The states threads reach by such steps. -/
def Reach (jobs : ι → σ → Prog σ μ ε Unit → Prop) (S S' : Threads ι σ μ ε) : Prop :=
  Relation.ReflTransGen (Step jobs) S S'

/-- One step of a thread that has code, computed. -/
def advance (S : Threads ι σ μ ε) (t : ι) : Option (Threads ι σ μ ε) :=
  match S.code t with
  | none => none
  | some (.fail _) => none
  | some (.ret ()) => some { S with code := Function.update S.code t none }
  | some (.act f k) => some { S with
      shared := f S.shared, code := Function.update S.code t (some (k S.shared)) }
  | some (.lock m k) =>
    if S.holder m = none ∨ S.holder m = some t then
      some { S with
        holder := Function.update S.holder m (some t)
        code := Function.update S.code t (some k) }
    else none
  | some (.unlock m k) => some { S with
      holder := if S.holder m = some t then Function.update S.holder m none else S.holder
      code := Function.update S.code t (some k) }

theorem step_of_advance {jobs : ι → σ → Prog σ μ ε Unit → Prop} {S S' : Threads ι σ μ ε}
    {t : ι} (h : S.advance t = some S') : Step jobs S S' := by
  unfold advance at h
  split at h
  · cases h
  · cases h
  · rename_i hcode
    cases h
    exact .finish hcode
  · rename_i hcode
    cases h
    exact .act hcode
  · rename_i hcode
    split at h
    · rename_i hfree
      cases h
      exact .lock hcode hfree
    · cases h
  · rename_i hcode
    cases h
    exact .unlock hcode

/-- The steps of a schedule, one thread after the other. -/
def follow : Threads ι σ μ ε → List ι → Option (Threads ι σ μ ε)
  | S, [] => some S
  | S, t :: ts => (S.advance t).bind (fun S' => follow S' ts)

/-- **A schedule is a run.** -/
theorem reach_of_follow {jobs : ι → σ → Prog σ μ ε Unit → Prop} {ts : List ι}
    {S S' : Threads ι σ μ ε} (h : S.follow ts = some S') : Reach jobs S S' := by
  induction ts generalizing S with
  | nil =>
    cases h
    exact .refl
  | cons t ts ih =>
    obtain ⟨S₁, hadvance, hfollow⟩ := Option.bind_eq_some_iff.mp h
    exact .head (step_of_advance hadvance) (ih hfollow)

/-! ## No deadlock -/

/-- The thread that a mutex has for its holder is the one whose set it is in. -/
def Held (holder : μ → Option ι) (H : ι → Finset μ) : Prop :=
  ∀ m t, holder m = some t ↔ m ∈ H t

theorem Held.lock {holder : μ → Option ι} {H : ι → Finset μ} (h : Held holder H) {m : μ}
    {t : ι} (hfree : holder m = none ∨ holder m = some t) :
    Held (Function.update holder m (some t)) (Function.update H t (insert m (H t))) := by
  intro m' u
  by_cases hut : u = t
  · subst hut
    rw [Function.update_self, Finset.mem_insert]
    by_cases hmm : m' = m
    · subst hmm
      simp
    · rw [Function.update_of_ne hmm, or_iff_right hmm]
      exact h m' u
  · rw [Function.update_of_ne hut]
    by_cases hmm : m' = m
    · subst hmm
      rw [Function.update_self]
      refine iff_of_false (fun heq => hut (Option.some.inj heq).symm) fun hmem => ?_
      rw [← h m' u] at hmem
      rcases hfree with hfree | hfree
      · cases hfree.symm.trans hmem
      · exact hut (Option.some.inj (hfree.symm.trans hmem)).symm
    · rw [Function.update_of_ne hmm]
      exact h m' u

theorem Held.unlock {holder : μ → Option ι} {H : ι → Finset μ} (h : Held holder H) (m : μ)
    (t : ι) :
    Held (if holder m = some t then Function.update holder m none else holder)
      (Function.update H t ((H t).erase m)) := by
  intro m' u
  by_cases hut : u = t
  · subst hut
    rw [Function.update_self, Finset.mem_erase, ← h m' u]
    split
    · by_cases hmm : m' = m
      · subst hmm
        simp
      · rw [Function.update_of_ne hmm, and_iff_right hmm]
    · rename_i hother
      exact ⟨fun heq => ⟨fun hmm => hother (hmm ▸ heq), heq⟩, And.right⟩
  · rw [Function.update_of_ne hut, ← h m' u]
    split
    · rename_i hheld
      by_cases hmm : m' = m
      · subst hmm
        rw [Function.update_self]
        refine iff_of_false nofun fun heq => hut ?_
        exact (Option.some.inj (hheld.symm.trans heq)).symm
      · rw [Function.update_of_ne hmm]
    · exact Iff.rfl

/-- **What the order gives in every state reached**: each thread holds a set of
mutexes from which the rest of its code keeps the order. -/
def Sorted (I : σ → Prop) (rank : μ → ℕ) (S : Threads ι σ μ ε) : Prop :=
  I S.shared ∧ ∃ H : ι → Finset μ, Held S.holder H
    ∧ ∀ t, match S.code t with
      | none => H t = ∅
      | some p => p.Respects I (Prog.InOrder rank) (fun _ H' => H' = ∅) (H t)

variable {I : σ → Prop} {rank : μ → ℕ} {jobs : ι → σ → Prog σ μ ε Unit → Prop}

omit [DecidableEq ι] in
theorem sorted_idle {s : σ} (hs : I s) : Sorted I rank (idle s : Threads ι σ μ ε) :=
  ⟨hs, fun _ => ∅, fun _ _ => by simp [idle], fun _ => rfl⟩

/-- One step keeps it, where the jobs started keep the order. -/
theorem Sorted.step (hjobs : ∀ t s p, I s → jobs t s p →
      p.Respects I (Prog.InOrder rank) (fun _ H => H = ∅) ∅)
    {S S' : Threads ι σ μ ε} (hS : Sorted I rank S) (h : Step jobs S S') :
    Sorted I rank S' := by
  obtain ⟨hI, H, hholder, hcodes⟩ := hS
  -- the code of a thread that did not move is the one it had
  have hmoved : ∀ {t : ι} {c : Option (Prog σ μ ε Unit)} {H' : ι → Finset μ},
      (∀ u, u ≠ t → H' u = H u) →
      (match c with
        | none => H' t = ∅
        | some p => p.Respects I (Prog.InOrder rank) (fun _ H => H = ∅) (H' t)) →
      ∀ u, match Function.update S.code t c u with
        | none => H' u = ∅
        | some p => p.Respects I (Prog.InOrder rank) (fun _ H => H = ∅) (H' u) := by
    intro t c H' hsame ht u
    by_cases hu : u = t
    · subst hu
      rwa [Function.update_self]
    · rw [Function.update_of_ne hu, hsame u hu]
      exact hcodes u
  cases h with
  | @start t p hidle hjob =>
    refine ⟨hI, H, hholder, hmoved (fun _ _ => rfl) ?_⟩
    have ht := hcodes t
    rw [hidle] at ht
    show p.Respects I _ _ (H t)
    rw [show H t = ∅ from ht]
    exact hjobs t S.shared p hI hjob
  | @finish t hcode =>
    refine ⟨hI, H, hholder, hmoved (fun _ _ => rfl) ?_⟩
    have ht := hcodes t
    rw [hcode] at ht
    exact ht
  | @act t f k hcode =>
    have ht := hcodes t
    rw [hcode] at ht
    obtain ⟨hf, hk⟩ := ht S.shared hI
    exact ⟨hf, H, hholder, hmoved (fun _ _ => rfl) hk⟩
  | @lock t m k hcode hfree =>
    have ht := hcodes t
    rw [hcode] at ht
    refine ⟨hI, Function.update H t (insert m (H t)), hholder.lock hfree,
      hmoved (fun u hu => Function.update_of_ne hu ..) ?_⟩
    show k.Respects I _ _ (Function.update H t (insert m (H t)) t)
    rw [Function.update_self]
    exact ht.2
  | @unlock t m k hcode =>
    have ht := hcodes t
    rw [hcode] at ht
    refine ⟨hI, Function.update H t ((H t).erase m), hholder.unlock m t,
      hmoved (fun u hu => Function.update_of_ne hu ..) ?_⟩
    show k.Respects I _ _ (Function.update H t ((H t).erase m) t)
    rw [Function.update_self]
    exact ht

omit [DecidableEq ι] in
/-- Of two threads that wait for each other, one takes a mutex out of order. -/
theorem Sorted.not_deadlocked {S : Threads ι σ μ ε} (hS : Sorted I rank S) (t t' : ι) :
    ¬ S.Deadlocked t t' := by
  obtain ⟨-, H, hholder, hcodes⟩ := hS
  -- a thread that waits for a mutex ranks it above all it holds
  have habove : ∀ {u u' : ι} {m : μ}, S.wants u = some m → S.holder m = some u' → u' ≠ u →
      m ∈ H u' ∧ ∀ m' ∈ H u, rank m' < rank m := by
    intro u u' m hwants hheld hne
    refine ⟨(hholder m u').mp hheld, ?_⟩
    unfold wants at hwants
    split at hwants
    · rename_i k hcode
      cases hwants
      have hu := hcodes u
      rw [hcode] at hu
      refine hu.1.resolve_left fun hmem => hne ?_
      exact Option.some.inj (hheld.symm.trans ((hholder m u).mpr hmem))
    · cases hwants
  rintro ⟨⟨m, hwants, hheld, hne⟩, ⟨m', hwants', hheld', hne'⟩⟩
  obtain ⟨hm, hbelow⟩ := habove hwants hheld hne
  obtain ⟨hm', hbelow'⟩ := habove hwants' hheld' hne'
  exact lt_asymm (hbelow m' hm') (hbelow' m hm)

/-- **Threads whose jobs take the mutexes in order never wait for each
other.** -/
theorem no_deadlock (hjobs : ∀ t s p, I s → jobs t s p →
      p.Respects I (Prog.InOrder rank) (fun _ H => H = ∅) ∅)
    {s : σ} (hs : I s) {S : Threads ι σ μ ε} (h : Reach jobs (idle s) S) (t t' : ι) :
    ¬ S.Deadlocked t t' := by
  have hS : Sorted I rank S := by
    induction h with
    | refl => exact sorted_idle hs
    | tail _ hstep ih => exact ih.step hjobs hstep
  exact hS.not_deadlocked t t'

end Steps

end Threads
