import Mathlib

/-!
# Strings in memory

A pointer to a string is a place in memory, and the string is what stands there
up to the first NUL. Nothing else marks its end: what is read from a place where
no NUL was written goes on into whatever comes after.

`Memory.Holds` says which bytes stand at a place, and cuts like the list of them
(`holds_append`). `Memory.print` is what `snprintf` makes of a `%s` with a text
after it; `print_holds` takes it along bytes that are no NUL, and `print_string`
to the end of a string.
-/

/-- The bytes in memory, from an address on. -/
abbrev Memory : Type := ℕ → UInt8

namespace Memory

/-- A block of bytes, and what comes after it. -/
def block (bs : List UInt8) (rest : Memory) : Memory :=
  fun i => bs.getD i (rest (i - bs.length))

/-- **The bytes `bs` stand at the offset `i`.** -/
def Holds (mem : Memory) : ℕ → List UInt8 → Prop
  | _, [] => True
  | i, b :: bs => mem i = b ∧ Holds mem (i + 1) bs

/-- The `n` bytes at the offset `i`. -/
def read (mem : Memory) (i n : ℕ) : List UInt8 := (List.range' i n).map mem

/-- What `snprintf` writes of the string at the offset `i` and the text after
it, when it has room for `n` bytes and a NUL. -/
def print (mem : Memory) (text : List UInt8) : ℕ → ℕ → List UInt8
  | 0, _ => []
  | n + 1, i => if mem i = 0 then text.take (n + 1) else mem i :: print mem text n (i + 1)

variable {mem : Memory} {bs cs : List UInt8} {i n : ℕ}

/-- **What stands in memory can be cut anywhere.** -/
theorem holds_append :
    Holds mem i (bs ++ cs) ↔ Holds mem i bs ∧ Holds mem (i + bs.length) cs := by
  induction bs generalizing i with
  | nil => simp [Holds]
  | cons b bs ih =>
    rw [List.cons_append, Holds, Holds, ih, and_assoc, List.length_cons, Nat.add_right_comm,
      Nat.add_assoc i]

/-- A block holds its bytes. -/
theorem holds_block (bs : List UInt8) (rest : Memory) : Holds (block bs rest) 0 bs := by
  have hpart : ∀ as cs, Holds (block (as ++ cs) rest) as.length cs := by
    intro as cs
    induction cs generalizing as with
    | nil => trivial
    | cons c cs ih =>
      refine ⟨by simp [block], ?_⟩
      have h := ih (as ++ [c])
      rwa [List.append_assoc, List.length_append] at h
  exact hpart [] bs

/-- After a block comes the rest. -/
theorem block_length (bs : List UInt8) (rest : Memory) : block bs rest bs.length = rest 0 := by
  simp [block]

/-- **A copy of what stands in memory.** -/
theorem read_holds (h : Holds mem i bs) : read mem i bs.length = bs := by
  induction bs generalizing i with
  | nil => rfl
  | cons b bs ih =>
    rw [read, List.length_cons, List.range'_succ, List.map_cons, h.1]
    exact congrArg (b :: ·) (ih h.2)

/-- **`%s` goes along bytes that are no NUL.** -/
theorem print_holds (text : List UInt8) (h : Holds mem i bs) (hnul : 0 ∉ bs) :
    print mem text (bs.length + n) i = bs ++ print mem text n (i + bs.length) := by
  induction bs generalizing i with
  | nil => simp
  | cons b bs ih =>
    obtain ⟨hb, hbs⟩ := not_or.mp (List.mem_cons.not.mp hnul)
    have hlen : (b :: bs).length + n = bs.length + n + 1 := by
      rw [List.length_cons]
      omega
    rw [hlen, print, h.1, if_neg (Ne.symm hb), ih h.2 hbs, List.length_cons, Nat.add_assoc i,
      Nat.add_comm 1]
    rfl

/-- **`%s` prints a string, and then the text after it.** -/
theorem print_string (text : List UInt8) (h : Holds mem i (bs ++ [0])) (hnul : 0 ∉ bs) :
    print mem text (bs.length + n) i = bs ++ text.take n := by
  obtain ⟨hbs, hend, -⟩ := holds_append.mp h
  rw [print_holds text hbs hnul]
  cases n with
  | zero => rfl
  | succ n => rw [print, if_pos hend]

end Memory
