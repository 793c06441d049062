import Mathlib.Data.List.Induction
import Mathlib.Data.List.Nodup

/-!
# The first of each key

`firsts f xs` is `xs` without the elements whose key, by `f`, an element before
them has: what is kept of a sequence by someone who drops what he has seen.
-/

variable {α κ : Type} [DecidableEq κ] {f : α → κ}

/-- The elements of a list with a key that no element before has. -/
def firsts (f : α → κ) (xs : List α) : List α :=
  xs.foldl (fun acc x => if f x ∈ acc.map f then acc else acc ++ [x]) []

@[simp] theorem firsts_nil (f : α → κ) : firsts f [] = [] := rfl

/-- One element more. -/
theorem firsts_concat (f : α → κ) (xs : List α) (x : α) :
    firsts f (xs ++ [x])
      = if f x ∈ (firsts f xs).map f then firsts f xs else firsts f xs ++ [x] :=
  List.foldl_concat ..
