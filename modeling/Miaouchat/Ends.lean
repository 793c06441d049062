import Miaouchat.Lib.Runs
import Miaouchat.Sequence

/-!
# The ends of a list

The searches of `is_in_msg_list` and `rm_nbr_msg` and the loop of
`worker_iter_msg` go through a list until they meet a `NULL`. The functions of
`dllist.c` write a `NULL` at an end only when they take the node there away. A
node put first keeps in its `prev` what `malloc` left there, a node put last
keeps it in its `next`, and the first node of a list keeps both. So a list ends
in `NULL` all along exactly where the memory of each of these nodes happened to
hold it (`nullEnds_iff_linksNull`).
-/

namespace Miaouchat

variable {α : Type}

/-- **The list ends in `NULL` at both ends**, and following `next` to the `NULL`
visits as many nodes as it has. -/
structure NullEnds (l : Dllist α) : Prop where
  prev_first : ∀ a c, l.first = some a → l.heap a = some c → c.prev = none
  next_last : ∀ a c, l.last = some a → l.heap a = some c → c.next = none
  traversal : ∃ ds, l.heap.dataToNull (l.used + 1) l.first = .ok ds
    ∧ l.size = UInt64.ofNat ds.length

namespace DllOp

/-- The call puts a new node in the list. -/
def Adds (l : Dllist α) : DllOp α → Prop
  | pushBack t data | pushFront t data | insert _ t data => data ≠ none ∧ t = l.type
  | popBack | popFront | remove _ => False

/-- The new node is put before the others. -/
def PutsFirst : DllOp α → Prop
  | pushFront _ _ => True
  | insert index _ _ => index = 0
  | pushBack _ _ | popBack | popFront | remove _ => False

/-- The new node is put after the others. -/
def PutsLast (l : Dllist α) : DllOp α → Prop
  | pushBack _ _ => True
  | insert index _ _ => index > 0 ∧ index ≥ l.size
  | pushFront _ _ | popBack | popFront | remove _ => False

/-- **The links that the call leaves unset are `NULL`** in the memory of the new
node: `prev` of a node that comes first, and `next` of one that comes last. -/
def LinksNull (l : Dllist α) (op : DllOp α) : Prop :=
  op.Adds l →
    (op.PutsFirst ∨ dllistIsEmpty l → (l.junk l.used).2 = none)
      ∧ (op.PutsLast l ∨ dllistIsEmpty l → (l.junk l.used).1 = none)

end DllOp

/-- A call that returns. -/
def DllStep (l : Dllist α) (op : DllOp α) (l' : Dllist α) : Prop :=
  ∃ r, op.run l = .ok (r, l')

/-! ## A call -/

section Call

variable {l l' : Dllist α} {xs xs' : List (ℕ × α)} {p q p' q' : Option ℕ}

/-- **Where a list has `NULL` at its ends.** -/
theorem Shape.nullEnds_iff (hs : Shape l xs p q) :
    NullEnds l ↔ xs = [] ∨ p = none ∧ q = none := by
  constructor
  · intro h
    refine or_iff_not_imp_left.mpr fun hne => ⟨?_, ?_⟩
    · obtain ⟨x, xs, rfl⟩ := List.exists_cons_of_ne_nil hne
      exact h.prev_first x.1 _ hs.first_eq hs.linked.1
    · exact (hs.nullTerminated_iff.mp h.next_last).resolve_left hne
  · intro h
    refine ⟨fun a c ha hc => ?_, hs.nullTerminated_iff.mpr (h.imp_right And.right),
      xs.map Prod.snd, ?_, by rw [hs.size_eq, List.length_map]⟩
    · rcases h with rfl | ⟨rfl, -⟩
      · cases hs.first_eq.symm.trans ha
      · cases xs with
        | nil => cases hs.first_eq.symm.trans ha
        | cons x xs =>
          cases hs.first_eq.symm.trans ha
          cases hs.linked.1.symm.trans hc
          rfl
    · rw [hs.first_eq]
      rcases h with rfl | ⟨-, rfl⟩
      · rfl
      · exact dataToNull_linked hs.linked (hs.length_le_used.trans (Nat.le_succ _))

/-- **What a new node does to the ends.** It has its own links at those it is
put at. -/
theorem Shape.nullEnds_added (hs : Shape l xs p q) {F L : Prop} [Decidable F] [Decidable L]
    {j k : Option ℕ}
    (hs' : Shape l' xs' (if F ∨ xs.isEmpty then j else p) (if L ∨ xs.isEmpty then k else q))
    (hne : xs' ≠ []) (hnull : NullEnds l) :
    NullEnds l' ↔ (F ∨ dllistIsEmpty l → j = none) ∧ (L ∨ dllistIsEmpty l → k = none) := by
  have hempty : dllistIsEmpty l = xs.isEmpty := by
    rw [Bool.eq_iff_iff, hs.isEmpty_iff, List.isEmpty_iff]
  have hold : ¬ xs.isEmpty → p = none ∧ q = none := fun h =>
    (hs.nullEnds_iff.mp hnull).resolve_left fun hnil => h (List.isEmpty_iff.mpr hnil)
  have hpart : ∀ {G : Prop} [Decidable G] {m r : Option ℕ}, (¬ xs.isEmpty → r = none) →
      ((if G ∨ xs.isEmpty then m else r) = none ↔ (G ∨ xs.isEmpty → m = none)) := by
    intro G _ m r hr
    split
    · next h => exact ⟨fun hm _ => hm, fun hm => hm h⟩
    · next h => exact iff_of_true (hr fun h' => h (.inr h')) fun h' => absurd h' h
  rw [hs'.nullEnds_iff, or_iff_right hne, hempty, hpart fun h => (hold h).1,
    hpart fun h => (hold h).2]

/-- A call that takes a node away leaves the `NULL`s. -/
theorem Shape.nullEnds_taken (hs : Shape l xs p q) (hs' : Shape l' xs' p' q')
    (hne : xs ≠ []) (hp : p = none → p' = none) (hq : q = none → q' = none)
    (hnull : NullEnds l) : NullEnds l' := by
  obtain ⟨hpn, hqn⟩ := (hs.nullEnds_iff.mp hnull).resolve_left hne
  exact hs'.nullEnds_iff.mpr (.inr ⟨hp hpn, hq hqn⟩)

/-- A call that adds nothing puts no condition on the links. -/
theorem linksNull_of_not_adds {op : DllOp α} (h : ¬ op.Adds l) : op.LinksNull l :=
  fun hadds => absurd hadds h

theorem not_adds_of_idle {t : DllNodeType} {data : Option α} (h : data = none ∨ t ≠ l.type) :
    ¬ (data ≠ none ∧ t = l.type) := fun hadds => h.elim hadds.1 fun ht => ht hadds.2

/-- **Every call returns**, and keeps the `NULL`s exactly where the links it
leaves unset hold one. -/
theorem Shape.run_nullEnds (hs : Shape l xs p q) (op : DllOp α) :
    ∃ r l' xs' p' q', op.run l = .ok (r, l') ∧ Shape l' xs' p' q'
      ∧ (NullEnds l → (NullEnds l' ↔ op.LinksNull l)) := by
  have hidle : ¬ op.Adds l → NullEnds l → (NullEnds l ↔ op.LinksNull l) := fun h hnull =>
    iff_of_true hnull (linksNull_of_not_adds h)
  cases op with
  | pushBack t data =>
    by_cases h : data = none ∨ t ≠ l.type
    · exact ⟨_, l, xs, p, q, (run_idle_add h 0).1, hs, hidle (not_adds_of_idle h)⟩
    · obtain ⟨d, rfl, rfl⟩ := exists_of_not_idle h
      obtain ⟨l', hpush, hs', -⟩ := hs.pushBack d
      refine ⟨.flag true, l', _, _, _, by rw [DllOp.run, hpush]; rfl, hs', fun hnull => ?_⟩
      exact (hs.nullEnds_added (F := False) (L := True) (by simpa using hs') (by simp)
        hnull).trans (imp_iff_right ⟨Option.some_ne_none d, rfl⟩).symm
  | pushFront t data =>
    by_cases h : data = none ∨ t ≠ l.type
    · exact ⟨_, l, xs, p, q, (run_idle_add h 0).2.1, hs, hidle (not_adds_of_idle h)⟩
    · obtain ⟨d, rfl, rfl⟩ := exists_of_not_idle h
      obtain ⟨l', hpush, hs', -⟩ := hs.pushFront d
      refine ⟨.flag true, l', _, _, _, by rw [DllOp.run, hpush]; rfl, hs', fun hnull => ?_⟩
      exact (hs.nullEnds_added (F := True) (L := False) (by simpa using hs') (by simp)
        hnull).trans (imp_iff_right ⟨Option.some_ne_none d, rfl⟩).symm
  | insert index t data =>
    by_cases h : data = none ∨ t ≠ l.type
    · exact ⟨_, l, xs, p, q, (run_idle_add h index).2.2, hs, hidle (not_adds_of_idle h)⟩
    · obtain ⟨d, rfl, rfl⟩ := exists_of_not_idle h
      obtain ⟨l', hinsert, hs', -⟩ := hs.insertAt index d
      refine ⟨.flag true, l', _, _, _, by rw [DllOp.run, hinsert]; rfl, hs', fun hnull => ?_⟩
      have hne : xs.insertIdx (insertPos l index xs.length) (l.used, d) ≠ [] :=
        List.ne_nil_of_length_pos (by
          rw [List.length_insertIdx_of_le_length (hs.insertPos_le index)]
          exact Nat.succ_pos _)
      exact (hs.nullEnds_added hs' hne hnull).trans
        (imp_iff_right ⟨Option.some_ne_none d, rfl⟩).symm
  | popBack =>
    rcases xs.eq_nil_or_concat' with rfl | ⟨ys, y, rfl⟩
    · rw [DllOp.run, dllistPopBack_of_isEmpty (hs.isEmpty_iff.mpr rfl)]
      exact ⟨_, l, [], p, q, rfl, hs, hidle id⟩
    · obtain ⟨l', hpop, hs', -⟩ := hs.popBack
      refine ⟨_, l', ys, p, none, by rw [DllOp.run, hpop]; rfl, hs', fun hnull => ?_⟩
      exact iff_of_true (hs.nullEnds_taken hs' (by simp) id (fun _ => rfl) hnull)
        (linksNull_of_not_adds id)
  | popFront =>
    cases xs with
    | nil =>
      rw [DllOp.run, dllistPopFront_of_isEmpty (hs.isEmpty_iff.mpr rfl)]
      exact ⟨_, l, [], p, q, rfl, hs, hidle id⟩
    | cons x xs =>
      obtain ⟨l', hpop, hs', -⟩ := hs.popFront
      refine ⟨_, l', xs, none, q, by rw [DllOp.run, hpop]; rfl, hs', fun hnull => ?_⟩
      exact iff_of_true (hs.nullEnds_taken hs' (by simp) (fun _ => rfl) id hnull)
        (linksNull_of_not_adds id)
  | remove index =>
    by_cases hidx : xs = [] ∨ index > 0 ∧ index ≥ l.size
    · have hrun : dllistRemove l index = .ok (none, l) :=
        hidx.elim (fun h => dllistRemove_of_isEmpty (hs.isEmpty_iff.mpr h) index)
          dllistRemove_past
      rw [DllOp.run, hrun]
      exact ⟨_, l, xs, p, q, rfl, hs, hidle id⟩
    · obtain ⟨hne, hin⟩ := not_or.mp hidx
      obtain ⟨l', p', q', hremove, hs', hp, hq, -⟩ := hs.removeIdx hne hin
      refine ⟨_, l', _, p', q', by rw [DllOp.run, hremove]; rfl, hs', fun hnull => ?_⟩
      exact iff_of_true (hs.nullEnds_taken hs' hne hp hq hnull) (linksNull_of_not_adds id)

end Call

/-! ## Calls -/

/-- **Calls one after the other return**, and go through lists with a shape. -/
theorem Shape.exists_run {l : Dllist α} {xs : List (ℕ × α)} {p q : Option ℕ}
    (hs : Shape l xs p q) (ops : List (DllOp α)) :
    ∃ steps l' xs' p' q', Run DllStep l steps l' ∧ steps.map Prod.snd = ops
      ∧ Shape l' xs' p' q' := by
  induction ops using List.reverseRecOn with
  | nil => exact ⟨[], l, xs, p, q, .nil, rfl, hs⟩
  | append_singleton ops op ih =>
    obtain ⟨steps, l₁, xs₁, p₁, q₁, hrun, rfl, hs₁⟩ := ih
    obtain ⟨r, l', xs', p', q', hop, hs', -⟩ := hs₁.run_nullEnds op
    exact ⟨_, l', xs', p', q', .snoc hrun ⟨r, hop⟩, List.map_append, hs'⟩

/-- **When a list ends in `NULL` all along**: every call on it from `new_dllist`
on leaves unset only links in which `malloc` had left `NULL`. -/
theorem nullEnds_iff_linksNull (type : DllNodeType) (junk : ℕ → Option ℕ × Option ℕ)
    (ops : List (DllOp α)) :
    ∃ steps l, Run DllStep (newDllist type junk) steps l ∧ steps.map Prod.snd = ops
      ∧ (((∀ x ∈ steps, NullEnds x.1) ∧ NullEnds l) ↔ ∀ x ∈ steps, x.2.LinksNull x.1) := by
  have hnew := shape_newDllist (α := α) type junk none none
  obtain ⟨steps, l, -, -, -, hrun, hops, -⟩ := hnew.exists_run ops
  -- What a step does is known of a list with a shape, and the run has only such lists.
  have hstep : ∀ (l : Dllist α) (op : DllOp α) (l' : Dllist α), DllStep l op l' →
      (∃ xs p q, Shape l xs p q) →
      (∃ xs p q, Shape l' xs p q) ∧ (NullEnds l → (NullEnds l' ↔ op.LinksNull l)) := by
    rintro l op l' ⟨r, hop⟩ ⟨xs, p, q, hs⟩
    obtain ⟨r', l'', xs', p', q', hop', hs', hnull⟩ := hs.run_nullEnds op
    cases hop.symm.trans hop'
    exact ⟨⟨xs', p', q', hs'⟩, hnull⟩
  exact ⟨steps, l, hrun, hops, hrun.forall_iff
    (fun l op l' h _ hs => (hstep l op l' h hs).1)
    (fun l op l' h hs hnull => (hstep l op l' h hs).2 hnull) ⟨[], none, none, hnew⟩
    (hnew.nullEnds_iff.mpr (.inl rfl))⟩

/-- One push, where `malloc` leaves two addresses in the node. -/
theorem not_nullEnds :
    ¬ ∀ (type : DllNodeType) (junk : ℕ → Option ℕ × Option ℕ)
        (steps : List (Dllist ℕ × DllOp ℕ)) (l : Dllist ℕ),
        Run DllStep (newDllist type junk) steps l → NullEnds l := by
  intro hall
  obtain ⟨l, hpush, hs, -⟩ :=
    (shape_newDllist .int (fun _ => (some 7, some 8)) none none).pushBack 1
  have hstep : DllStep (newDllist .int fun _ => (some 7, some 8)) (.pushBack .int (some 1)) l := by
    refine ⟨.flag true, ?_⟩
    rw [DllOp.run]
    exact congrArg (Except.map _) hpush
  have hends := hall _ _ _ l (.snoc .nil hstep)
  rcases hs.nullEnds_iff.mp hends with h | ⟨h, -⟩
  · cases h
  · cases h

end Miaouchat
