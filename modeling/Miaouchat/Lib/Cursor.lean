import Miaouchat.Lib.Bytes

/-!
# Readers over a cursor

A decoder walks a cursor over data that is already in memory. It reads some
elements, moves the cursor past them, and goes on; a read that would go past
the end of the data has no value. `Reader β α` is such a decoder, and `none`
is the only way it fails.

Most readers of a wire format take a number of elements that is known before
they start, and their value is a function of the elements taken. `Takes r n v`
says that of `r`: it reads exactly `n` elements, fails exactly when fewer are
left, and otherwise has the value `v` of the elements read. The rules below
compose it, so the extent and the value of a long reader come from those of
its parts.
-/

variable {β α γ : Type}

/-- A cursor over data in memory: the first `next` elements have been read. -/
structure Cursor (β : Type) where
  /-- The data. -/
  data : List β
  /-- The position of the next element to read. -/
  next : ℕ
  deriving DecidableEq, Repr

namespace Cursor

/-- What is left to read. -/
def rest (c : Cursor β) : List β := c.data.drop c.next

/-- The cursor moved `n` elements on. -/
def skip (c : Cursor β) (n : ℕ) : Cursor β := { c with next := c.next + n }

@[simp] theorem data_skip (c : Cursor β) (n : ℕ) : (c.skip n).data = c.data := rfl

@[simp] theorem next_skip (c : Cursor β) (n : ℕ) :
    (c.skip n).next = c.next + n := rfl

@[simp] theorem rest_skip (c : Cursor β) (n : ℕ) :
    (c.skip n).rest = c.rest.drop n := by
  simp [rest, skip, List.drop_drop]

@[simp] theorem skip_zero (c : Cursor β) : c.skip 0 = c := rfl

@[simp] theorem skip_skip (c : Cursor β) (n m : ℕ) :
    (c.skip n).skip m = c.skip (n + m) := by
  simp [skip, Nat.add_assoc]

theorem length_rest (c : Cursor β) : c.rest.length = c.data.length - c.next :=
  List.length_drop

end Cursor

/-- A decoder of a value of type `α` from elements of type `β`. -/
abbrev Reader (β α : Type) : Type := StateT (Cursor β) Option α

namespace Reader

/-- Read the next `n` elements. -/
def take (n : ℕ) : Reader β (List β) := fun c =>
  if n ≤ c.rest.length then some (c.rest.take n, c.skip n) else none

/-- **The reader takes exactly `n` elements**, and its value is the function
`v` of the elements taken. -/
def Takes (r : Reader β α) (n : ℕ) (v : List β → α) : Prop :=
  ∀ c, r c = if n ≤ c.rest.length then some (v (c.rest.take n), c.skip n) else none

theorem takes_take (n : ℕ) : Takes (take n : Reader β (List β)) n id :=
  fun _ => rfl

theorem takes_pure (a : α) : Takes (pure a : Reader β α) 0 (fun _ => a) :=
  fun _ => by simp [pure, StateT.pure]

/-- Readers one after the other take their elements one after the other. -/
theorem Takes.bind {r : Reader β α} {f : α → Reader β γ} {n m : ℕ}
    {v : List β → α} {w : α → List β → γ}
    (hr : Takes r n v) (hf : ∀ a, Takes (f a) m (w a)) :
    Takes (r >>= f) (n + m) (fun bs => w (v (bs.take n)) (bs.drop n)) := by
  intro c
  have hc : (r >>= f) c = (r c).bind (fun p => f p.1 p.2) := rfl
  rw [hc, hr c]
  by_cases hn : n ≤ c.rest.length
  · rw [if_pos hn, Option.bind_some, hf, Cursor.rest_skip, List.length_drop]
    by_cases hm : n + m ≤ c.rest.length
    · rw [if_pos hm, if_pos (by omega), Cursor.skip_skip]
      dsimp only
      rw [List.take_take, min_eq_left (Nat.le_add_right n m), List.drop_take,
        Nat.add_sub_cancel_left]
    · rw [if_neg hm, if_neg (by omega)]
  · rw [if_neg hn, if_neg (by omega), Option.bind_none]

theorem Takes.map {r : Reader β α} {n : ℕ} {v : List β → α} (hr : Takes r n v)
    (g : α → γ) : Takes (r >>= fun a => pure (g a)) n (fun bs => g (v bs)) := by
  have h := hr.bind (f := fun a => pure (g a)) (fun a => takes_pure (g a))
  intro c
  rw [h c, Nat.add_zero]
  dsimp only
  rw [List.take_take, min_self]

/-- Two value functions that agree on strings of the right length will do. -/
theorem Takes.congr {r : Reader β α} {n : ℕ} {v w : List β → α} (hr : Takes r n v)
    (h : ∀ bs, bs.length = n → v bs = w bs) : Takes r n w := by
  intro c
  rw [hr c]
  split
  · rename_i hn
    rw [h _ (by rw [List.length_take, min_eq_left hn])]
  · rfl

/-- A reader that takes `n` elements has its value on any data that starts
with them. -/
theorem Takes.eq_some {r : Reader β α} {n : ℕ} {v : List β → α} (hr : Takes r n v)
    (bs : List β) {c : Cursor β} {more : List β} (hc : c.rest = bs ++ more)
    (hn : bs.length = n) : r c = some (v bs, c.skip n) := by
  have hle : n ≤ c.rest.length := by rw [hc, List.length_append]; omega
  rw [hr c, if_pos hle, hc, List.take_left' hn]

end Reader
