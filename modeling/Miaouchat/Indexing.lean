import Miaouchat.Dllist

/-!
# Reading by index

`dllist_get` and `dllist_remove` make the same tests of an index, each in its
own copy, and after the second comparison `dllist_remove` takes the first node
where `dllist_get` reads the last. So the index 0 of a list of two or more
reads the last datum. The other index that passes the comparison,
`2⁶⁴ + 1 - size`, is one of a list only where this is longer than 2⁶³; both
functions are wrong about it (`indexAgrees_iff`).

The walks count in an `int`, and here in a number, so what is said is about the code
where the list has fewer than 2³¹ nodes.
-/

namespace Miaouchat

variable {α : Type}

/-- **Reading and removing agree** on the datum at the index of the sequence
`ds`, and reading leaves the list alone. -/
def IndexAgrees (l : Dllist α) (ds : List α) (index : UInt64) : Prop :=
  dllistGet l index = .ok (ds[index.toNat]?, l)
    ∧ ∃ l', dllistRemove l index = .ok (ds[index.toNat]?, l')

/-- An index below the last that passes the second comparison. -/
def Shortcut (n : ℕ) (index : UInt64) : Prop :=
  index.toNat + 1 < n ∧ (index = 0 ∨ index.toNat + n = 2 ^ 64 + 1)

/-- The index that `dllist_get` reads in a list of `n`. -/
def getPos (l : Dllist α) (index : UInt64) (n : ℕ) : ℕ :=
  if index + 1 = l.size then n - 1
  else if index = 0 ∨ -(index - 1) = l.size then n - 1
  else index.toNat

section Index

variable {l : Dllist α} {xs : List (ℕ × α)} {p q : Option ℕ} {index : UInt64}

/-- The last node of a list that has one. -/
theorem Shape.deref_last (hs : Shape l xs p q) (hne : xs ≠ []) :
    ∃ n, l.heap.deref l.last = .ok n ∧ some n.data = xs[xs.length - 1]?.map Prod.snd := by
  obtain ⟨ys, y, rfl⟩ := xs.eq_nil_or_concat'.resolve_left hne
  have hlast : l.last = some y.1 := hs.last_eq.trans (lastAddr_concat none ys y)
  have hcell : l.heap y.1 = some ⟨q, lastAddr p ys, y.2⟩ := (linked_append.mp hs.linked).2.1
  rw [hlast, Heap.deref_some hcell]
  exact ⟨_, rfl, by simp⟩

/-- The node at an index of a list. -/
theorem Shape.deref_advance (hs : Shape l xs p q) {i : ℕ} (hi : i < xs.length) :
    ∃ c n, l.heap.advance i l.first = .ok c ∧ l.heap.deref c = .ok n
      ∧ some n.data = xs[i]?.map Prod.snd := by
  have hne : xs ≠ [] := List.ne_nil_of_length_pos (Nat.zero_lt_of_lt hi)
  have hadvance := advance_linked hs.linked hi.le
  rw [← hs.first_eq_headAddr hne, List.drop_eq_getElem_cons hi] at hadvance
  obtain ⟨c, hc, hdata⟩ := hs.linked.get (List.getElem_mem hi)
  refine ⟨_, c, hadvance, Heap.deref_some hc, ?_⟩
  rw [List.getElem?_eq_getElem hi, hdata]
  rfl

/-- **`dllist_get`** reads the datum at `getPos`. -/
theorem Shape.get (hs : Shape l xs p q) (hne : xs ≠ []) (hin : ¬ (index > 0 ∧ index ≥ l.size)) :
    dllistGet l index = .ok (xs[getPos l index xs.length]?.map Prod.snd, l) := by
  obtain ⟨last, hlast, hdata⟩ := hs.deref_last hne
  unfold dllistGet getPos
  rw [hs.isEmpty_eq_false hne, if_neg Bool.false_ne_true, if_neg hin, hlast]
  by_cases hback : index + 1 = l.size
  · rw [if_pos hback, if_pos hback, ← hdata]
    rfl
  · rw [if_neg hback, if_neg hback]
    by_cases hfront : index = 0 ∨ -(index - 1) = l.size
    · rw [if_pos hfront, if_pos hfront, ← hdata]
      rfl
    · rw [if_neg hfront, if_neg hfront]
      have hpos : index > 0 := UInt64.pos_iff_ne_zero.mpr (not_or.mp hfront).1
      have hlt : index.toNat < l.size.toNat :=
        UInt64.lt_iff_toNat_lt.mp (UInt64.not_le.mp fun h => hin ⟨hpos, h⟩)
      obtain ⟨c, n, hc, hn, hdata⟩ := hs.deref_advance (hlt.trans_le hs.toNat_size_le)
      rw [hc, ← hdata]
      show (l.heap.deref c >>= fun n => _) = _
      rw [hn]
      rfl

/-- **Both comparisons, in numbers.** -/
theorem add_one_eq_size_iff (hsize : l.size.toNat = xs.length) (hlt : index.toNat < xs.length) :
    index + 1 = l.size ↔ index.toNat + 1 = xs.length := by
  have hbound := l.size.toNat_lt
  rw [← UInt64.toNat_inj, UInt64.toNat_add, hsize]
  show (index.toNat + 1) % 2 ^ 64 = _ ↔ _
  omega

theorem neg_eq_size_iff (hsize : l.size.toNat = xs.length) (hlt : index.toNat < xs.length) :
    (index = 0 ∨ -(index - 1) = l.size)
      ↔ (index = 0 ∨ index.toNat + xs.length = 2 ^ 64 + 1) := by
  have hbound := l.size.toNat_lt
  refine or_congr_right' fun hne => ?_
  have hpos : index.toNat ≠ 0 := fun h => hne (UInt64.toNat_inj.mp h)
  rw [← UInt64.toNat_inj, UInt64.toNat_neg, UInt64.toNat_sub, hsize]
  show (2 ^ 64 - (2 ^ 64 - 1 + index.toNat) % 2 ^ 64) % 2 ^ 64 = _ ↔ _
  omega

/-- Outside the list both find nothing. -/
theorem Shape.indexAgrees_past (hs : Shape l xs p q) (hsize : l.size.toNat = xs.length)
    (h : xs.length ≤ index.toNat) : IndexAgrees l (xs.map Prod.snd) index := by
  have hnone : (xs.map Prod.snd)[index.toNat]? = none :=
    List.getElem?_eq_none (by rwa [List.length_map])
  rw [IndexAgrees, hnone]
  cases xs with
  | nil =>
    have hempty := hs.isEmpty_iff.mpr rfl
    refine ⟨?_, l, dllistRemove_of_isEmpty hempty index⟩
    rw [dllistGet, if_pos hempty]
    rfl
  | cons x xs =>
    have hpast : index > 0 ∧ index ≥ l.size :=
      ⟨UInt64.lt_iff_toNat_lt.mpr (Nat.lt_of_lt_of_le (Nat.succ_pos _) h),
        UInt64.le_iff_toNat_le.mpr (hsize.trans_le h)⟩
    refine ⟨?_, l, dllistRemove_past hpast⟩
    rw [dllistGet, hs.isEmpty_eq_false (List.cons_ne_nil _ _), if_neg Bool.false_ne_true,
      if_pos hpast]
    rfl

/-- **Inside it** each has the datum of its own position. -/
theorem Shape.indexAgrees_iff_pos (hs : Shape l xs p q) (hsize : l.size.toNat = xs.length)
    (h : index.toNat < xs.length) :
    IndexAgrees l (xs.map Prod.snd) index
      ↔ (xs.map Prod.snd)[getPos l index xs.length]? = (xs.map Prod.snd)[index.toNat]?
        ∧ (xs.map Prod.snd)[removePos l index xs.length]? = (xs.map Prod.snd)[index.toNat]? := by
  have hne : xs ≠ [] := List.ne_nil_of_length_pos (Nat.zero_lt_of_lt h)
  have hin : ¬ (index > 0 ∧ index ≥ l.size) := fun hpast =>
    absurd (UInt64.le_iff_toNat_le.mp hpast.2) (by omega)
  obtain ⟨l', -, -, hremove, -⟩ := hs.removeIdx hne hin
  rw [IndexAgrees, hs.get hne hin, hremove, List.getElem?_map, List.getElem?_map,
    List.getElem?_map]
  constructor
  · rintro ⟨hget, l'', hrem⟩
    injection hget with hget
    injection hrem with hrem
    exact ⟨congrArg Prod.fst hget, congrArg Prod.fst hrem⟩
  · rintro ⟨hget, hrem⟩
    exact ⟨by rw [hget], l', by rw [hrem]⟩

/-- The positions where the second comparison decides. -/
theorem pos_of_shortcut (hsize : l.size.toNat = xs.length) (h : Shortcut xs.length index) :
    getPos l index xs.length = xs.length - 1 ∧ removePos l index xs.length = 0 := by
  obtain ⟨hlt, hcut⟩ := h
  have hlt' : index.toNat < xs.length := Nat.lt_of_succ_lt hlt
  have hback : ¬ index + 1 = l.size := fun h =>
    absurd ((add_one_eq_size_iff hsize hlt').mp h) (by omega)
  have hfront := (neg_eq_size_iff hsize hlt').mpr hcut
  rw [getPos, removePos, if_neg hback, if_neg hback, if_pos hfront, if_pos hfront]
  exact ⟨rfl, rfl⟩

/-- Elsewhere both positions are the index. -/
theorem pos_of_not_shortcut (hsize : l.size.toNat = xs.length) (hlt : index.toNat < xs.length)
    (h : ¬ Shortcut xs.length index) :
    getPos l index xs.length = index.toNat ∧ removePos l index xs.length = index.toNat := by
  unfold getPos removePos
  by_cases hback : index + 1 = l.size
  · have hlast := (add_one_eq_size_iff hsize hlt).mp hback
    rw [if_pos hback, if_pos hback]
    omega
  · have hnotLast : index.toNat + 1 ≠ xs.length := fun h =>
      hback ((add_one_eq_size_iff hsize hlt).mpr h)
    have hfront : ¬ (index = 0 ∨ -(index - 1) = l.size) := fun hfront =>
      h ⟨by omega, (neg_eq_size_iff hsize hlt).mp hfront⟩
    rw [if_neg hback, if_neg hback, if_neg hfront, if_neg hfront]
    exact ⟨rfl, rfl⟩

/-- **When reading and removing by index agree**: where the second comparison
decides, the first and the last datum have to be the one at the index. -/
theorem indexAgrees_iff (hs : Shape l xs p q) (hsize : l.size.toNat = xs.length)
    (index : UInt64) :
    IndexAgrees l (xs.map Prod.snd) index
      ↔ (Shortcut xs.length index →
        (xs.map Prod.snd).head? = (xs.map Prod.snd)[index.toNat]?
          ∧ (xs.map Prod.snd).getLast? = (xs.map Prod.snd)[index.toNat]?) := by
  rcases Nat.lt_or_ge index.toNat xs.length with hlt | hge
  · rw [hs.indexAgrees_iff_pos hsize hlt]
    by_cases hcut : Shortcut xs.length index
    · obtain ⟨hget, hremove⟩ := pos_of_shortcut hsize hcut
      rw [hget, hremove, List.head?_eq_getElem?, List.getLast?_eq_getElem?, List.length_map]
      exact ⟨fun h _ => h.symm, fun h => (h hcut).symm⟩
    · obtain ⟨hget, hremove⟩ := pos_of_not_shortcut hsize hlt hcut
      rw [hget, hremove]
      exact ⟨fun _ h => absurd h hcut, fun _ => ⟨rfl, rfl⟩⟩
  · exact iff_of_true (hs.indexAgrees_past hsize hge) fun h => absurd h.1 (by omega)

end Index

/-- A list of two. -/
theorem exists_shape_two :
    ∃ (l : Dllist ℕ) (xs : List (ℕ × ℕ)) (p q : Option ℕ),
      Shape l xs p q ∧ l.size.toNat = xs.length ∧ xs.length = 2
        ∧ xs.map Prod.snd = [1, 2] := by
  obtain ⟨l₁, -, hs₁, -⟩ :=
    (shape_newDllist .int (fun _ => (none, none)) none none).pushBack 1
  obtain ⟨l, -, hs, -⟩ := hs₁.pushBack 2
  exact ⟨l, _, _, _, hs, hs.toNat_size (by simp), rfl, rfl⟩

/-- The second of two. -/
theorem indexAgrees_iff_two : ∃ l : Dllist ℕ, IndexAgrees l [1, 2] 1 := by
  obtain ⟨l, xs, p, q, hs, hsize, hlen, hxs⟩ := exists_shape_two
  refine ⟨l, hxs ▸ (indexAgrees_iff hs hsize 1).mpr ?_⟩
  rintro ⟨hlt, -⟩
  rw [hlen] at hlt
  exact absurd hlt (by decide)

/-- The first of two. -/
theorem not_indexAgrees :
    ¬ ∀ (l : Dllist ℕ) (xs : List (ℕ × ℕ)) (p q : Option ℕ) (index : UInt64),
        Shape l xs p q → l.size.toNat = xs.length →
        IndexAgrees l (xs.map Prod.snd) index := by
  intro hall
  obtain ⟨l, xs, p, q, hs, hsize, hlen, hxs⟩ := exists_shape_two
  have hcut : Shortcut xs.length 0 := by
    rw [hlen]
    exact ⟨by decide, .inl rfl⟩
  have h := (hs.indexAgrees_iff_pos hsize (by rw [hlen]; decide)).mp (hall l xs p q 0 hs hsize)
  rw [(pos_of_shortcut hsize hcut).1, hlen, hxs] at h
  exact absurd h.1 (by decide)

end Miaouchat
