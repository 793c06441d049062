import Miaouchat.Lib.Cells

/-!
# Blocks of memory

What `malloc` gives out and `free` takes back, block by block. What the blocks
contain plays no part: a program in `Mem` says which blocks it asks for, where it
keeps their addresses, and which it frees. To free anything but a block in use is
a `wild` access.

`Turns A p P` says what `p` does to the blocks `A` that are its business: it
returns, and leaves blocks of which `P` holds. Whatever else is in use stays as it
is, so the rule of frame is built in (`Turns.frame`), and the rules for `malloc`
and `free` speak of one block only. `Breaks A p` says that `p` comes to a wild
access.
-/

variable {α β : Type}

/-- What a pointer points to. -/
inductive Pointer
  | null
  /-- A block that `malloc` has returned. -/
  | block (a : ℕ)
  /-- Memory of another kind, such as an array of a function. -/
  | other
  deriving DecidableEq, Repr

/-- The blocks in use, and the number of those given out so far. -/
structure Blocks where
  live : Finset ℕ
  used : ℕ
  /-- Only blocks that were given out are in use. -/
  below : ∀ a ∈ live, a < used

/-- Programs that ask for blocks and free them. -/
abbrev Mem (α : Type) : Type := StateT Blocks (Except Fault) α

/-- `malloc`, which is taken to succeed. -/
def malloc : Mem Pointer := fun m =>
  .ok (.block m.used, {
    live := insert m.used m.live
    used := m.used + 1
    below := fun a ha => by
      rcases Finset.mem_insert.mp ha with rfl | ha
      · exact Nat.lt_succ_self _
      · exact Nat.lt_succ_of_lt (m.below a ha) })

/-- `free`. -/
def free : Pointer → Mem Unit
  | .null => pure ()
  | .block a => fun m =>
    if a ∈ m.live then
      .ok ((), { m with
        live := m.live.erase a
        below := fun b hb => m.below b (Finset.mem_of_mem_erase hb) })
    else .error .wild
  | .other => throw .wild

/-- The block a pointer points to, if it does. -/
def Pointer.held : Pointer → Multiset ℕ
  | .block a => {a}
  | .null | .other => 0

/-! ## Rules -/

/-- **The blocks `A` are turned into some of which `P` holds**, together with the
value returned. -/
def Turns (A : Multiset ℕ) (p : Mem α) (P : α → Multiset ℕ → Prop) : Prop :=
  ∀ (m : Blocks) (F : Multiset ℕ), m.live.val = A + F →
    ∃ v m' B, p m = .ok (v, m') ∧ m'.live.val = B + F ∧ P v B

/-- **A wild access is come to**, where the blocks `A` are in use. -/
def Breaks (A : Multiset ℕ) (p : Mem α) : Prop :=
  ∀ (m : Blocks) (F : Multiset ℕ), m.live.val = A + F → p m = .error .wild

namespace Turns

variable {A R C : Multiset ℕ} {p : Mem α} {P P' : α → Multiset ℕ → Prop}

theorem pure {v : α} (h : P v A) : Turns A (Pure.pure v : Mem α) P := fun m _ hm =>
  ⟨v, m, A, rfl, hm, h⟩

theorem mono (h : Turns A p P) (hP : ∀ v B, P v B → P' v B) : Turns A p P' := by
  intro m F hm
  obtain ⟨v, m', B, hrun, hm', hB⟩ := h m F hm
  exact ⟨v, m', B, hrun, hm', hP v B hB⟩

/-- **The rule of frame.** -/
theorem frame (h : Turns A p P) (R : Multiset ℕ) :
    Turns (A + R) p fun v B => ∃ B', B = B' + R ∧ P v B' := by
  intro m F hm
  rw [add_assoc] at hm
  obtain ⟨v, m', B, hrun, hm', hB⟩ := h m (R + F) hm
  exact ⟨v, m', B + R, hrun, by rw [hm', add_assoc], B, rfl, hB⟩

theorem bind {q : α → Mem β} {Q : β → Multiset ℕ → Prop} (hp : Turns A p P)
    (hq : ∀ v B, P v B → Turns B (q v) Q) : Turns A (p >>= q) Q := by
  intro m F hm
  obtain ⟨v, m₁, B, hrun, hm₁, hB⟩ := hp m F hm
  obtain ⟨w, m', B', hrun', hm', hB'⟩ := hq v B hB m₁ F hm₁
  refine ⟨w, m', B', ?_, hm', hB'⟩
  show (p m).bind _ = _
  rw [hrun]
  exact hrun'

/-- A step that needs the blocks `A` only. -/
theorem step {q : α → Mem β} {Q : β → Multiset ℕ → Prop} (hp : Turns A p P) (hC : C = A + R)
    (hq : ∀ v B, P v B → Turns (B + R) (q v) Q) : Turns C (p >>= q) Q := by
  rw [hC]
  refine (hp.frame R).bind fun v B hB => ?_
  obtain ⟨B', rfl, hB'⟩ := hB
  exact hq v B' hB'

end Turns

namespace Breaks

variable {A C R : Multiset ℕ} {p : Mem α}

theorem frame (h : Breaks A p) (R : Multiset ℕ) : Breaks (A + R) p := fun m F hm =>
  h m (R + F) (by rw [hm, add_assoc])

theorem bind_left (h : Breaks A p) (q : α → Mem β) : Breaks A (p >>= q) := by
  intro m F hm
  show (p m).bind _ = _
  rw [h m F hm]
  rfl

theorem bind {q : α → Mem β} {P : α → Multiset ℕ → Prop} (hp : Turns A p P)
    (hq : ∀ v B, P v B → Breaks B (q v)) : Breaks A (p >>= q) := by
  intro m F hm
  obtain ⟨v, m₁, B, hrun, hm₁, hB⟩ := hp m F hm
  show (p m).bind _ = _
  rw [hrun]
  exact hq v B hB m₁ F hm₁

theorem step {q : α → Mem β} {P : α → Multiset ℕ → Prop} (hp : Turns A p P) (hC : C = A + R)
    (hq : ∀ v B, P v B → Breaks (B + R) (q v)) : Breaks C (p >>= q) := by
  rw [hC]
  refine bind (hp.frame R) fun v B hB => ?_
  obtain ⟨B', rfl, hB'⟩ := hB
  exact hq v B' hB'

end Breaks

/-- **`malloc` returns a block that was not in use.** -/
theorem turns_malloc : Turns 0 malloc fun p B => B = p.held ∧ ∃ a, p = .block a := by
  intro m F hm
  have hfresh : m.used ∉ m.live := fun h => (m.below _ h).false
  refine ⟨_, _, {m.used}, rfl, ?_, rfl, _, rfl⟩
  show (insert m.used m.live).val = {m.used} + F
  rw [Finset.insert_val_of_notMem hfresh, hm, zero_add]
  rfl

/-- **`free` of a block**, or of a null pointer. -/
theorem turns_free {p : Pointer} (hp : p ≠ .other) :
    Turns p.held (free p) fun _ B => B = 0 := by
  intro m F hm
  cases p with
  | null => exact ⟨(), m, 0, rfl, hm, rfl⟩
  | other => exact absurd rfl hp
  | block a =>
    have hval : m.live.val = a ::ₘ F := hm
    have ha : a ∈ m.live := by
      rw [← Finset.mem_val, hval]
      exact Multiset.mem_cons_self a F
    refine ⟨(), _, 0, if_pos ha, ?_, rfl⟩
    show (m.live.erase a).val = 0 + F
    rw [Finset.erase_val, hval, Multiset.erase_cons_head, zero_add]

/-- **`free` of anything else.** -/
theorem breaks_free_other (A : Multiset ℕ) : Breaks A (free .other) := fun _ _ _ => rfl

namespace Turns

variable {A C R : Multiset ℕ} {p : Pointer}

/-- A program that begins with a `malloc`. -/
theorem malloc_bind {q : Pointer → Mem β} {Q : β → Multiset ℕ → Prop}
    (hq : ∀ a, Turns ({a} + A) (q (.block a)) Q) : Turns A (malloc >>= q) Q := by
  refine turns_malloc.step (zero_add A).symm fun v B hB => ?_
  obtain ⟨rfl, a, rfl⟩ := hB
  exact hq a

/-- A `free` that leaves `R`. -/
theorem freed (hp : p ≠ .other) (hC : C = p.held + R) : Turns C (free p) fun _ B => B = R := by
  rw [hC]
  refine ((turns_free hp).frame R).mono fun _ B hB => ?_
  obtain ⟨B', rfl, rfl⟩ := hB
  exact zero_add R

/-- A program that begins with a `free` that leaves `R`. -/
theorem freed_bind {q : Unit → Mem β} {Q : β → Multiset ℕ → Prop} (hp : p ≠ .other)
    (hC : C = p.held + R) (hq : Turns R (q ()) Q) : Turns C (free p >>= q) Q :=
  (freed hp hC).bind fun _ _ hB => hB ▸ hq

end Turns

namespace Breaks

variable {A C R : Multiset ℕ}

theorem malloc_bind {q : Pointer → Mem β} (hq : ∀ a, Breaks ({a} + A) (q (.block a))) :
    Breaks A (malloc >>= q) := by
  refine step turns_malloc (zero_add A).symm fun v B hB => ?_
  obtain ⟨rfl, a, rfl⟩ := hB
  exact hq a

theorem freed_bind {p : Pointer} {q : Unit → Mem β} (hp : p ≠ .other) (hC : C = p.held + R)
    (hq : Breaks R (q ())) : Breaks C (free p >>= q) :=
  bind (Turns.freed hp hC) fun _ _ hB => hB ▸ hq

end Breaks
