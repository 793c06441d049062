import Miaouchat.Dllist

/-!
# Emptying a list

`dllist_empty` looks at the node after the one it is about to free, and stops
when that one is the last. With one node there is none to look at. With more
the last node is never freed. In neither case are `first`, `last` and `size`
set: the list still has its length, and its first node has been freed
(`dllistEmpty_more`). Whatever goes to the first node next, a search, a push to
the front or another call of `dllist_empty`, follows a pointer to nothing
(`emptied_wild`).
-/

namespace Miaouchat

variable {α : Type}

/-- **Emptying leaves a list like a new one**: the call returns, no node is
left, and the list has no first or last node and the size 0. -/
def EmptiesToNew (l : Dllist α) : Prop :=
  dllistEmpty l = .ok { newDllist l.type l.junk with used := l.used }

/-! ## The loop -/

/-- **The loop frees every node but the last** of two or more. -/
theorem emptyLoop_linked {h : Heap α} {p : Option ℕ} {x y : ℕ × α} {zs : List (ℕ × α)}
    (hl : Linked h p (x :: y :: zs) none) (hnodup : ((x :: y :: zs).map Prod.fst).Nodup)
    {k : ℕ} (hk : zs.length < k) :
    ∃ h', emptyLoop k h (some x.1) = .ok h'
      ∧ ∀ a, h' a = if a ∈ (x :: y :: zs).dropLast.map Prod.fst then none else h a := by
  induction zs generalizing h p x y k with
  | nil =>
    obtain ⟨k, rfl⟩ := Nat.exists_eq_add_of_lt hk
    obtain ⟨hx, hy, -⟩ := hl
    have hyx : y.1 ≠ x.1 := fun h => (List.nodup_cons.mp hnodup).1 (by simp [h])
    refine ⟨h.set x.1 none, ?_, fun a => ?_⟩
    · rw [emptyLoop, Heap.deref_some hx]
      show (dllistFreeNode h (some x.1) >>= fun h => _) = _
      rw [dllistFreeNode_some hx]
      show ((h.set x.1 none).deref (some y.1) >>= fun n => _) = _
      rw [Heap.deref_some ((Heap.set_of_ne hyx).trans hy)]
      rfl
    · by_cases ha : a = x.1
      · simp [ha]
      · simp [ha, Heap.set_of_ne ha]
  | cons z zs ih =>
    obtain ⟨k, rfl⟩ := Nat.exists_eq_add_of_lt (Nat.zero_lt_of_lt hk)
    obtain ⟨hx, hrest⟩ := hl
    obtain ⟨hxmem, hnodup'⟩ := List.nodup_cons.mp hnodup
    have hyx : y.1 ≠ x.1 := fun h => hxmem (by simp [h])
    have hrest' : Linked (h.set x.1 none) (some x.1) (y :: z :: zs) none := hrest.set hxmem none
    obtain ⟨h', hrun, hh'⟩ := ih hrest' hnodup' (k := 0 + k) (by
      rw [List.length_cons] at hk
      omega)
    refine ⟨h', ?_, fun a => ?_⟩
    · rw [emptyLoop, Heap.deref_some hx]
      show (dllistFreeNode h (some x.1) >>= fun h => _) = _
      rw [dllistFreeNode_some hx]
      show ((h.set x.1 none).deref (some y.1) >>= fun n => _) = _
      rw [Heap.deref_some hrest'.1]
      exact hrun
    · rw [hh']
      by_cases ha : a = x.1
      · simp [ha]
      · simp [ha, Heap.set_of_ne ha]

section Empty

variable {l : Dllist α} {xs zs : List (ℕ × α)} {x y : ℕ × α} {p : Option ℕ}

/-- **With one node** the loop follows the `NULL` after it. -/
theorem Shape.dllistEmpty_one (hs : Shape l [x] p none) : dllistEmpty l = .error .null := by
  have hfirst : l.first = some x.1 := hs.first_eq
  rw [dllistEmpty, hs.isEmpty_eq_false (by simp), if_neg Bool.false_ne_true, hfirst, emptyLoop,
    Heap.deref_some hs.linked.1]
  show ((dllistFreeNode l.heap (some x.1) >>= fun h => _) >>= fun h => _) = _
  rw [dllistFreeNode_some hs.linked.1]
  rfl

/-- **With more** it frees all but the last, and leaves the list as it was
otherwise. -/
theorem Shape.dllistEmpty_more (hs : Shape l (x :: y :: zs) p none) :
    ∃ h, dllistEmpty l = .ok { l with heap := h }
      ∧ (∀ w ∈ (x :: y :: zs).dropLast, h w.1 = none)
      ∧ ∀ w, (x :: y :: zs).getLast? = some w → h w.1 = l.heap w.1 := by
  have hfirst : l.first = some x.1 := hs.first_eq
  have hk : zs.length < l.used + 1 := by
    have hle := hs.length_le_used
    simp only [List.length_cons] at hle
    omega
  obtain ⟨h, hrun, hh⟩ := emptyLoop_linked hs.linked hs.nodup hk
  refine ⟨h, ?_, fun w hw => ?_, fun w hw => ?_⟩
  · rw [dllistEmpty, hs.isEmpty_eq_false (by simp), if_neg Bool.false_ne_true, hfirst, hrun]
    rfl
  · rw [hh, if_pos (List.mem_map_of_mem hw)]
  · rw [hh, if_neg fun hmem => ?_]
    -- the last node is none of those before it
    have hsplit : (x :: y :: zs).dropLast ++ [w] = x :: y :: zs :=
      List.dropLast_append_getLast? w hw
    have hnodup := hs.nodup
    rw [← hsplit, List.map_append, List.nodup_append] at hnodup
    exact hnodup.2.2 _ hmem _ (List.mem_singleton_self _) rfl

/-- **What goes to the first node after that** finds it freed. -/
theorem Shape.emptied_wild {l' : Dllist α} (hs : Shape l (x :: y :: zs) p none)
    (hrun : dllistEmpty l = .ok l') (test : α → Bool) (d : α) :
    dllistSearch l' test = .error .wild ∧ dllistPushFront l' l'.type (some d) = .error .wild
      ∧ dllistPopFront l' = .error .wild ∧ dllistEmpty l' = .error .wild := by
  obtain ⟨h, hempty, hfreed, -⟩ := hs.dllistEmpty_more
  cases hempty.symm.trans hrun
  have hfirst : l.first = some x.1 := hs.first_eq
  have hderef : h.deref l.first = .error .wild := by
    rw [hfirst, Heap.deref, hfreed x (by simp)]
  have hused : x.1 ≠ l.used := fun h => hs.used_notMem (by simp [h])
  have hnotEmpty : dllistIsEmpty { l with heap := h } = false := hs.isEmpty_eq_false (by simp)
  refine ⟨?_, ?_, ?_, ?_⟩
  · show h.walk test (l.used + 1) l.first = _
    rw [hfirst] at hderef ⊢
    rw [Heap.walk, hderef]
    rfl
  · have hne : ¬ (l.first = none ∧ l.last = none) := fun h => hs.first_ne_none (by simp) h.1
    have hset : ∀ c, (h.set l.used c).setPrev l.first (some l.used) = .error .wild := by
      intro c
      rw [hfirst, Heap.setPrev, Heap.set_of_ne hused, hfreed x (by simp)]
    simp only [dllistPushFront, ne_eq, not_true_eq_false, if_false]
    refine (if_neg hne).trans ?_
    show ((h.set l.used _).setPrev l.first (some l.used) >>= fun h => _) = _
    rw [hset]
    rfl
  · rw [dllistPopFront, hnotEmpty, if_neg Bool.false_ne_true]
    show (h.deref l.first >>= fun n => _) = _
    rw [hderef]
    rfl
  · rw [dllistEmpty, hnotEmpty, if_neg Bool.false_ne_true]
    show (emptyLoop (l.used + 1) h l.first >>= fun h => _) = _
    rw [emptyLoop, hderef]
    rfl

/-- **Only an empty list is emptied to a new one.** -/
theorem emptiesToNew_iff (hs : Shape l xs p none) : EmptiesToNew l ↔ xs = [] := by
  constructor
  · intro h
    by_contra hne
    have hempty := hs.isEmpty_eq_false hne
    rw [EmptiesToNew, dllistEmpty, hempty, if_neg Bool.false_ne_true] at h
    cases hloop : emptyLoop (l.used + 1) l.heap l.first with
    | error e =>
      rw [hloop] at h
      cases h
    | ok h' =>
      rw [hloop] at h
      injection h with h
      exact hs.first_ne_none hne (congrArg Dllist.first h)
  · rintro rfl
    rw [EmptiesToNew, dllistEmpty_of_isEmpty (hs.isEmpty_iff.mpr rfl)]
    have hheap : l.heap = fun _ => none := by
      funext a
      cases ha : l.heap a with
      | none => rfl
      | some c => cases hs.only a c ha
    obtain ⟨first, last, size, type, heap, used, junk⟩ := l
    cases hs.first_eq
    cases hs.last_eq
    cases hs.size_eq
    cases hheap
    rfl

end Empty

/-- A new list. -/
theorem emptiesToNew_iff_new : EmptiesToNew (newDllist .msg fun _ => (none, none) : Dllist ℕ) :=
  (emptiesToNew_iff (shape_newDllist .msg _ none none)).mpr rfl

/-- A list of one, in memory where `malloc` leaves `NULL`. -/
theorem not_emptiesToNew :
    ¬ ∀ (l : Dllist ℕ) (xs : List (ℕ × ℕ)) (p : Option ℕ), Shape l xs p none →
        EmptiesToNew l := by
  intro hall
  obtain ⟨l, -, hs, -⟩ :=
    (shape_newDllist .msg (fun _ => (none, none)) none none).pushBack 1
  have h := hall l _ _ hs
  rw [EmptiesToNew, hs.dllistEmpty_one] at h
  cases h

end Miaouchat
