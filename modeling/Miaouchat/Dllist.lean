import Miaouchat.Lib.Cells

/-!
# The doubly linked list

`dllist.c` keeps a sequence in doubly linked nodes, with pointers to the first
and the last and a count. Two things about it are easy to overlook.

`new_dllist_node` does not set the links of the node it allocates, and the
functions that put the node in the list set only some of them: the first node
of a list keeps whatever `malloc` left in both. `Dllist.junk` is that content,
arbitrary in every theorem unless it says otherwise, and the walks that wait
for a `NULL` may therefore run off the end of a list.

`dllist_empty` frees the nodes and leaves the pointers to them.

`Shape` relates a list to the sequence of its nodes and to the two links at
its ends, which it does not promise to be `NULL`. There is one rule over
`Shape` for each function that keeps it.

A list's nodes have a memory of their own, which shows no other list; an
address is never used twice, so a pointer to a freed node leads to no node.
-/

namespace Miaouchat

variable {α : Type}

/-- The tags of the lists. -/
inductive DllNodeType
  | neighbour
  | int
  | string
  | msg
  deriving DecidableEq, Repr

/-- A list, and the memory of its nodes: `used` nodes have been allocated, at
the addresses below it, and `junk` is what `malloc` leaves in the `next` and
`prev` links of each. -/
structure Dllist (α : Type) where
  first : Option ℕ
  last : Option ℕ
  size : UInt64
  type : DllNodeType
  heap : Heap α
  used : ℕ
  junk : ℕ → Option ℕ × Option ℕ

/-- `new_dllist`. -/
def newDllist (type : DllNodeType) (junk : ℕ → Option ℕ × Option ℕ) : Dllist α :=
  ⟨none, none, 0, type, fun _ => none, 0, junk⟩

/-- `new_dllist_node`, at the address `used`. -/
def newDllistNode (l : Dllist α) (data : α) : Dllist α :=
  { l with
    heap := l.heap.set l.used (some ⟨(l.junk l.used).1, (l.junk l.used).2, data⟩)
    used := l.used + 1 }

def dllistIsEmpty (l : Dllist α) : Bool := l.first = none ∨ l.last = none

/-- `dllist_first_node`, where the list has no node yet. -/
def dllistFirstNode (l : Dllist α) (node : ℕ) : Dllist α :=
  { l with first := some node, last := some node, size := l.size + 1 }

def dllistLastNode (l : Dllist α) : Bool := l.first = l.last

/-- `dllist_free_node`, the data kept. -/
def dllistFreeNode (h : Heap α) (node : Option ℕ) : Except Fault (Heap α) := do
  let h ← h.setNext node none
  let h ← h.setPrev node none
  h.free node

/-- `dllist_push_back`. -/
def dllistPushBack (l : Dllist α) (type : DllNodeType) (data : Option α) :
    Except Fault (Bool × Dllist α) :=
  match data with
  | none => return (false, l)
  | some d =>
    if type ≠ l.type then return (false, l)
    else
      let node := l.used
      let l := newDllistNode l d
      if l.first = none ∧ l.last = none then return (true, dllistFirstNode l node)
      else do
        let h ← l.heap.setNext l.last (some node)
        let h ← h.setPrev (some node) l.last
        return (true, { l with heap := h, last := some node, size := l.size + 1 })

/-- `dllist_push_front`. -/
def dllistPushFront (l : Dllist α) (type : DllNodeType) (data : Option α) :
    Except Fault (Bool × Dllist α) :=
  match data with
  | none => return (false, l)
  | some d =>
    if type ≠ l.type then return (false, l)
    else
      let node := l.used
      let l := newDllistNode l d
      if l.first = none ∧ l.last = none then return (true, dllistFirstNode l node)
      else do
        let h ← l.heap.setPrev l.first (some node)
        let h ← h.setNext (some node) l.first
        return (true, { l with heap := h, first := some node, size := l.size + 1 })

/-- `dllist_pop_back`. -/
def dllistPopBack (l : Dllist α) : Except Fault (Option α × Dllist α) :=
  if dllistIsEmpty l then return (none, l)
  else do
    let n ← l.heap.deref l.last
    if dllistLastNode l then
      let h ← dllistFreeNode l.heap l.last
      return (some n.data, { l with first := none, last := none, heap := h, size := l.size - 1 })
    else
      let h ← l.heap.setNext n.prev none
      let h ← dllistFreeNode h l.last
      return (some n.data, { l with last := n.prev, heap := h, size := l.size - 1 })

/-- `dllist_pop_front`. -/
def dllistPopFront (l : Dllist α) : Except Fault (Option α × Dllist α) :=
  if dllistIsEmpty l then return (none, l)
  else do
    let n ← l.heap.deref l.first
    if dllistLastNode l then
      let h ← dllistFreeNode l.heap l.first
      return (some n.data, { l with first := none, last := none, heap := h, size := l.size - 1 })
    else
      let h ← l.heap.setPrev n.next none
      let h ← dllistFreeNode h l.first
      return (some n.data, { l with first := n.next, heap := h, size := l.size - 1 })

/-- The last part of `dllist_insert`: go to the node at the index, and link a new
node before it. -/
def linkAt (l : Dllist α) (index : ℕ) (data : α) : Except Fault (Bool × Dllist α) := do
  let n := l.used
  let l := newDllistNode l data
  let node ← l.heap.advance index l.first
  let c ← l.heap.deref node
  let h ← l.heap.setNext c.prev (some n)
  let h ← h.setPrev (some n) c.prev
  let h ← h.setPrev node (some n)
  let h ← h.setNext (some n) node
  return (true, { l with heap := h, size := l.size + 1 })

/-- `dllist_insert`. The index is a `size_t`, so it is never negative and the
branch for a negative one is not taken. -/
def dllistInsert (l : Dllist α) (index : UInt64) (type : DllNodeType) (data : Option α) :
    Except Fault (Bool × Dllist α) :=
  match data with
  | none => return (false, l)
  | some d =>
    if type ≠ l.type then return (false, l)
    else if index > 0 then
      if index ≥ l.size then dllistPushBack l type (some d)
      else linkAt l index.toNat d
    else dllistPushFront l type (some d)

/-- The last part of `dllist_remove`: go to the node, and take it out from
between its neighbours. -/
def unlinkAt (l : Dllist α) (index : ℕ) : Except Fault (Option α × Dllist α) := do
  let c ← l.heap.advance index l.first
  let n ← l.heap.deref c
  let h ← l.heap.setPrev n.next n.prev
  let h ← h.setNext n.prev n.next
  let h ← dllistFreeNode h c
  return (some n.data, { l with heap := h, size := l.size - 1 })

/-- `dllist_remove`. The index is a `size_t`, so it is never negative and the
branches for a negative one are not taken; the comparison with `-(index - 1)`
is made, modulo 2⁶⁴. -/
def dllistRemove (l : Dllist α) (index : UInt64) : Except Fault (Option α × Dllist α) :=
  if dllistIsEmpty l then return (none, l)
  else if index > 0 ∧ index ≥ l.size then return (none, l)
  else if index + 1 = l.size then dllistPopBack l
  else if index = 0 ∨ -(index - 1) = l.size then dllistPopFront l
  else unlinkAt l index.toNat

/-- `dllist_get`. Its tests are those of `dllist_remove`, and it reads the last
node after either of the two comparisons. -/
def dllistGet (l : Dllist α) (index : UInt64) : Except Fault (Option α × Dllist α) :=
  if dllistIsEmpty l then return (none, l)
  else if index > 0 ∧ index ≥ l.size then return (none, l)
  else if index + 1 = l.size then do
    let n ← l.heap.deref l.last
    return (some n.data, l)
  else if index = 0 ∨ -(index - 1) = l.size then do
    let n ← l.heap.deref l.last
    return (some n.data, l)
  else do
    let c ← l.heap.advance index.toNat l.first
    let n ← l.heap.deref c
    return (some n.data, l)

/-- Where `dllist_insert` puts a node in a list of `n`. -/
def insertPos (l : Dllist α) (index : UInt64) (n : ℕ) : ℕ :=
  if index > 0 ∧ index ≥ l.size then n else index.toNat

/-- Which node `dllist_remove` takes out of a list of `n`. -/
def removePos (l : Dllist α) (index : UInt64) (n : ℕ) : ℕ :=
  if index + 1 = l.size then n - 1
  else if index = 0 ∨ -(index - 1) = l.size then 0
  else index.toNat

/-- The loop of `dllist_empty`, with a bound on its rounds. It looks one node
ahead of the one it is about to free. -/
def emptyLoop : ℕ → Heap α → Option ℕ → Except Fault (Heap α)
  | 0, _, _ => .error .loop
  | k + 1, h, tmp => do
    let c ← h.deref tmp
    let h ← dllistFreeNode h tmp
    let n ← h.deref c.next
    if n.next = none then return h else emptyLoop k h c.next

/-- `dllist_empty`, the data kept. The pointers and the size stay. -/
def dllistEmpty (l : Dllist α) : Except Fault (Dllist α) :=
  if dllistIsEmpty l then return l
  else do
    let h ← emptyLoop (l.used + 1) l.heap l.first
    return { l with heap := h }

/-- A loop that follows `next` from the first node to one that passes a test,
or to a `NULL`: the searches of `is_in_msg_list` and `rm_nbr_msg`. Visiting
more nodes than were ever allocated is going round for ever. -/
def dllistSearch (l : Dllist α) (test : α → Bool) : Except Fault (Option ℕ) :=
  l.heap.walk test (l.used + 1) l.first

/-- What a list holds, from the first node to the last: `next` is followed up to
the node that `last` points to, whatever the link after it. -/
def contentsFrom (l : Dllist α) : ℕ → Option ℕ → List α
  | 0, _ => []
  | _, none => []
  | n + 1, some a =>
    match l.heap a with
    | none => []
    | some c => if l.last = some a then [c.data] else c.data :: contentsFrom l n c.next

def dllistContents (l : Dllist α) : List α := contentsFrom l l.used l.first

/-- The last node, if there is one, points to no node after it. -/
def NullTerminated (l : Dllist α) : Prop :=
  ∀ a c, l.last = some a → l.heap a = some c → c.next = none

/-! ## The shape of a list -/

/-- A list parted before an index that is neither its first nor past its end. -/
theorem exists_middle {β : Type} {xs : List β} {i : ℕ} (hzero : i ≠ 0) (hi : i < xs.length) :
    ∃ ys w zs, xs = (ys ++ [w]) ++ xs[i] :: zs ∧ (ys ++ [w]).length = i := by
  have hsplit : xs = xs.take i ++ xs[i] :: xs.drop (i + 1) := by
    rw [List.getElem_cons_drop, List.take_append_drop]
  have htake : (xs.take i).length = i := List.length_take_of_le hi.le
  obtain ⟨ys, w, hw⟩ := (xs.take i).eq_nil_or_concat'.resolve_left fun h => by
    rw [h] at htake
    exact hzero htake.symm
  rw [hw] at hsplit htake
  exact ⟨ys, w, _, hsplit, htake⟩

theorem insertIdx_length_append {β : Type} (ys zs : List β) (b : β) :
    (ys ++ zs).insertIdx ys.length b = ys ++ b :: zs := by
  induction ys with
  | nil => rfl
  | cons y ys ih => exact congrArg (y :: ·) ih

/-- Freeing a node takes it out of memory. -/
theorem dllistFreeNode_some {h : Heap α} {a : ℕ} {c : Cell α} (hc : h a = some c) :
    dllistFreeNode h (some a) = .ok (h.set a none) := by
  unfold dllistFreeNode
  rw [Heap.setNext_some hc]
  show ((h.set a _).setPrev (some a) none >>= fun h => h.free (some a)) = _
  rw [Heap.setPrev_some (Heap.set_same ..)]
  show ((h.set a _).set a _).free (some a) = _
  rw [Heap.free_some (Heap.set_same ..), Heap.set_set, Heap.set_set]

/-- **The nodes of the list are `xs`, in this order**, with the link `p` before
them and the link `q` after them. -/
structure Shape (l : Dllist α) (xs : List (ℕ × α)) (p q : Option ℕ) : Prop where
  /-- The nodes are chained. -/
  linked : Linked l.heap p xs q
  first_eq : l.first = headAddr none xs
  last_eq : l.last = lastAddr none xs
  /-- No node occurs twice. -/
  nodup : (xs.map Prod.fst).Nodup
  /-- There is no other node in the memory of the list. -/
  only : ∀ a c, l.heap a = some c → a ∈ xs.map Prod.fst
  /-- The addresses above are free. -/
  lt_used : ∀ a ∈ xs.map Prod.fst, a < l.used
  size_eq : l.size = UInt64.ofNat xs.length

theorem shape_newDllist (type : DllNodeType) (junk : ℕ → Option ℕ × Option ℕ)
    (p q : Option ℕ) : Shape (newDllist type junk : Dllist α) [] p q :=
  ⟨trivial, rfl, rfl, List.nodup_nil, fun _ _ => nofun, fun _ => nofun, rfl⟩

namespace Shape

variable {l : Dllist α} {xs : List (ℕ × α)} {x : ℕ × α} {p q : Option ℕ}

/-- `dllist_is_empty` is right. -/
theorem isEmpty_iff (hs : Shape l xs p q) : dllistIsEmpty l = true ↔ xs = [] := by
  unfold dllistIsEmpty
  rw [hs.first_eq, hs.last_eq]
  rcases xs.eq_nil_or_concat' with rfl | ⟨ys, y, rfl⟩
  · simp
  · cases ys <;> simp

theorem isEmpty_eq_false (hs : Shape l xs p q) (hne : xs ≠ []) : dllistIsEmpty l = false := by
  rw [← Bool.not_eq_true, hs.isEmpty_iff]
  exact hne

/-- The chain of a list that is not empty starts at `first`. -/
theorem first_eq_headAddr (hs : Shape l xs p q) (hne : xs ≠ []) : l.first = headAddr q xs := by
  rw [hs.first_eq]
  cases xs with
  | nil => exact absurd rfl hne
  | cons x xs => rfl

theorem first_ne_none (hs : Shape l xs p q) (hne : xs ≠ []) : l.first ≠ none := by
  rw [hs.first_eq]
  cases xs with
  | nil => exact absurd rfl hne
  | cons x xs => exact Option.some_ne_none _

/-- The address for the next node is free. -/
theorem used_notMem (hs : Shape l xs p q) : l.used ∉ xs.map Prod.fst :=
  fun h => lt_irrefl _ (hs.lt_used _ h)

/-- The nodes are at most as many as were allocated. -/
theorem length_le_used (hs : Shape l xs p q) : xs.length ≤ l.used := by
  have hsub : (xs.map Prod.fst).toFinset ⊆ Finset.range l.used := by
    intro a ha
    exact Finset.mem_range.mpr (hs.lt_used a (List.mem_toFinset.mp ha))
  have hcard := Finset.card_le_card hsub
  rwa [List.toFinset_card_of_nodup hs.nodup, Finset.card_range, List.length_map] at hcard

/-- A write to the data of the first node. -/
theorem setFirst (hs : Shape l (x :: xs) p q) (d : α) :
    Shape { l with heap := l.heap.set x.1 (some ⟨headAddr q xs, p, d⟩) } ((x.1, d) :: xs)
      p q where
  linked := ⟨Heap.set_same .., hs.linked.2.frame fun a ha =>
    Heap.set_of_ne fun h => (List.nodup_cons.mp hs.nodup).1 (h ▸ ha)⟩
  first_eq := hs.first_eq
  last_eq := hs.last_eq
  nodup := hs.nodup
  only := fun a c hc => by
    by_cases ha : a = x.1
    · exact ha ▸ List.mem_cons_self
    · replace hc : (l.heap.set x.1 _) a = some c := hc
      rw [Heap.set_of_ne ha] at hc
      exact hs.only a c hc
  lt_used := hs.lt_used
  size_eq := hs.size_eq

/-- What becomes of a list when a new node has been put in its chain. -/
theorem link (ys : List (ℕ × α)) {zs : List (ℕ × α)} (hs : Shape l (ys ++ zs) p q) {d : α}
    {l' : Dllist α} {p' q' : Option ℕ}
    (hlinked : Linked l'.heap p' (ys ++ (l.used, d) :: zs) q')
    (hfirst : l'.first = headAddr none (ys ++ (l.used, d) :: zs))
    (hlast : l'.last = lastAddr none (ys ++ (l.used, d) :: zs))
    (honly : ∀ a, a ≠ l.used → l.heap a = none → l'.heap a = none)
    (hused : l'.used = l.used + 1) (hsize : l'.size = l.size + 1) :
    Shape l' (ys ++ (l.used, d) :: zs) p' q' := by
  have hperm : (ys ++ (l.used, d) :: zs).Perm ((l.used, d) :: (ys ++ zs)) := List.perm_middle
  have hmem : ∀ a, a ∈ (ys ++ (l.used, d) :: zs).map Prod.fst
      ↔ a = l.used ∨ a ∈ (ys ++ zs).map Prod.fst := fun a =>
    (hperm.map Prod.fst).mem_iff.trans List.mem_cons
  refine ⟨hlinked, hfirst, hlast, ?_, fun a c hc => ?_, fun a ha => ?_, ?_⟩
  · exact (hperm.map Prod.fst).nodup_iff.mpr (List.nodup_cons.mpr ⟨hs.used_notMem, hs.nodup⟩)
  · refine (hmem a).mpr (or_iff_not_imp_left.mpr fun ha => ?_)
    cases hca : l.heap a with
    | none =>
      rw [honly a ha hca] at hc
      cases hc
    | some c' => exact hs.only a c' hca
  · rw [hused]
    rcases (hmem a).mp ha with rfl | ha
    · exact Nat.lt_succ_self _
    · exact Nat.lt_succ_of_lt (hs.lt_used a ha)
  · rw [hsize, hs.size_eq, hperm.length_eq, List.length_cons, UInt64.ofNat_add]
    rfl

/-- A new node beside the chain. -/
theorem linked_newDllistNode (hs : Shape l xs p q) (d : α) :
    Linked (newDllistNode l d).heap p xs q :=
  hs.linked.set hs.used_notMem _

/-- The first node of a list. Both its links are junk. -/
theorem firstNode (hs : Shape l [] p q) (d : α) :
    Shape (dllistFirstNode (newDllistNode l d) l.used) [(l.used, d)] (l.junk l.used).2
      (l.junk l.used).1 :=
  link [] hs ⟨Heap.set_same .., trivial⟩ rfl rfl
    (fun _ ha hnone => (Heap.set_of_ne ha).trans hnone) rfl rfl

/-- **`dllist_push_front`** with the tag of the list puts a new node first. If
it is the only node, both its links are junk; otherwise its `prev` is. -/
theorem pushFront (hs : Shape l xs p q) (d : α) :
    ∃ l', dllistPushFront l l.type (some d) = .ok (true, l')
      ∧ Shape l' ((l.used, d) :: xs) (l.junk l.used).2
          (if xs.isEmpty then (l.junk l.used).1 else q)
      ∧ l'.type = l.type ∧ l'.junk = l.junk := by
  have hfresh := hs.used_notMem
  cases xs with
  | nil =>
    have hnone : l.first = none ∧ l.last = none := ⟨hs.first_eq, hs.last_eq⟩
    refine ⟨dllistFirstNode (newDllistNode l d) l.used, ?_, hs.firstNode d, rfl, rfl⟩
    simp only [dllistPushFront, ne_eq, not_true_eq_false, if_false]
    exact if_pos hnone
  | cons x xs =>
    have hfirst : l.first = some x.1 := hs.first_eq
    obtain ⟨h₁, hset, hl₁, hsame₁, hnone₁⟩ :=
      setPrev_linked (hs.linked_newDllistNode d) hs.nodup (some l.used)
    have hne : l.used ≠ x.1 := fun h => hfresh (h ▸ List.mem_cons_self)
    have hcell : h₁ l.used = some ⟨(l.junk l.used).1, (l.junk l.used).2, d⟩ := by
      rw [hsame₁ _ hne]
      exact Heap.set_same ..
    refine ⟨{ newDllistNode l d with
      heap := h₁.set l.used (some ⟨some x.1, (l.junk l.used).2, d⟩)
      first := some l.used, size := l.size + 1 }, ?_, ?_, rfl, rfl⟩
    · have hne' : ¬ ((newDllistNode l d).first = none ∧ (newDllistNode l d).last = none) := by
        rintro ⟨h, -⟩
        cases hfirst.symm.trans h
      simp only [dllistPushFront, ne_eq, not_true_eq_false, if_false]
      rw [if_neg hne']
      show ((newDllistNode l d).heap.setPrev l.first (some l.used) >>= fun h =>
        h.setNext (some l.used) l.first >>= fun h => _) = _
      rw [hfirst, hset]
      show (h₁.setNext (some l.used) (some x.1) >>= fun h => _) = _
      rw [Heap.setNext_some hcell]
      rfl
    · refine link [] hs ⟨Heap.set_same .., hl₁.set hfresh _⟩ rfl hs.last_eq
        (fun a ha hnone => ?_) rfl rfl
      exact (Heap.set_of_ne ha).trans (hnone₁ a ((Heap.set_of_ne ha).trans hnone))

/-- **`dllist_push_back`** with the tag of the list puts a new node last. If it
is the only node, both its links are junk; otherwise its `next` is. -/
theorem pushBack (hs : Shape l xs p q) (d : α) :
    ∃ l', dllistPushBack l l.type (some d) = .ok (true, l')
      ∧ Shape l' (xs ++ [(l.used, d)]) (if xs.isEmpty then (l.junk l.used).2 else p)
          (l.junk l.used).1
      ∧ l'.type = l.type ∧ l'.junk = l.junk := by
  have hfresh := hs.used_notMem
  rcases xs.eq_nil_or_concat' with rfl | ⟨ys, y, rfl⟩
  · have hnone : l.first = none ∧ l.last = none := ⟨hs.first_eq, hs.last_eq⟩
    refine ⟨dllistFirstNode (newDllistNode l d) l.used, ?_, hs.firstNode d, rfl, rfl⟩
    simp only [dllistPushBack, ne_eq, not_true_eq_false, if_false]
    exact if_pos hnone
  · have hlast : l.last = some y.1 := hs.last_eq.trans (lastAddr_concat none ys y)
    obtain ⟨h₁, hset, hl₁, hsame₁, hnone₁⟩ :=
      setNext_linked (hs.linked_newDllistNode d) hs.nodup (some l.used)
    have hne : l.used ≠ y.1 := fun h => hfresh (by simp [h])
    have hcell : h₁ l.used = some ⟨(l.junk l.used).1, (l.junk l.used).2, d⟩ := by
      rw [hsame₁ _ hne]
      exact Heap.set_same ..
    refine ⟨{ newDllistNode l d with
      heap := h₁.set l.used (some ⟨(l.junk l.used).1, some y.1, d⟩)
      last := some l.used, size := l.size + 1 }, ?_, ?_, rfl, rfl⟩
    · have hne' : ¬ ((newDllistNode l d).first = none ∧ (newDllistNode l d).last = none) := by
        rintro ⟨-, h⟩
        cases hlast.symm.trans h
      simp only [dllistPushBack, ne_eq, not_true_eq_false, if_false]
      rw [if_neg hne']
      show ((newDllistNode l d).heap.setNext l.last (some l.used) >>= fun h =>
        h.setPrev (some l.used) l.last >>= fun h => _) = _
      rw [hlast, hset]
      show (h₁.setPrev (some l.used) (some y.1) >>= fun h => _) = _
      rw [Heap.setPrev_some hcell]
      rfl
    · rw [if_neg (by simp)]
      have hs' : Shape l ((ys ++ [y]) ++ []) p q := (List.append_nil _).symm ▸ hs
      refine link _ hs' (linked_append.mpr ⟨hl₁.set hfresh _, ?_⟩) ?_ ?_
        (fun a ha hnone => ?_) rfl rfl
      · rw [lastAddr_concat]
        exact ⟨Heap.set_same .., trivial⟩
      · show l.first = _
        rw [hs.first_eq]
        cases ys <;> rfl
      · exact (lastAddr_concat none (ys ++ [y]) (l.used, d)).symm
      · exact (Heap.set_of_ne ha).trans (hnone₁ a ((Heap.set_of_ne ha).trans hnone))

/-- **Putting a node in between two** links each of these to it. -/
theorem linkAt_middle {w y : ℕ × α} {ys zs : List (ℕ × α)}
    (hs : Shape l ((ys ++ [w]) ++ y :: zs) p q) (d : α) :
    ∃ l', linkAt l (ys ++ [w]).length d = .ok (true, l')
      ∧ Shape l' ((ys ++ [w]) ++ (l.used, d) :: y :: zs) p q
      ∧ l'.type = l.type ∧ l'.junk = l.junk := by
  have hfresh := hs.used_notMem
  rw [List.map_append, List.mem_append, not_or] at hfresh
  obtain ⟨hfreshPre, hfreshPost⟩ := hfresh
  have hnodup := hs.nodup
  rw [List.map_append, List.nodup_append] at hnodup
  obtain ⟨hnodupPre, hnodupPost, hdisj⟩ := hnodup
  have hyPre : y.1 ∉ (ys ++ [w]).map Prod.fst := fun h =>
    hdisj _ h _ List.mem_cons_self rfl
  have hwPost : w.1 ∉ (y :: zs).map Prod.fst := fun h => hdisj w.1 (by simp) _ h rfl
  have hnw : l.used ≠ w.1 := fun h => hfreshPre (by simp [h])
  have hny : l.used ≠ y.1 := fun h => hfreshPost (h ▸ List.mem_cons_self)
  -- the walk stops at `y`
  have hlinked := hs.linked_newDllistNode d
  have hadvance : (newDllistNode l d).heap.advance (ys ++ [w]).length l.first
      = .ok (some y.1) := by
    rw [hs.first_eq_headAddr (by simp), advance_linked hlinked (by simp), List.drop_left]
    rfl
  obtain ⟨hpre, hpost⟩ := linked_append.mp hlinked
  rw [lastAddr_concat] at hpost
  -- the node before is linked to the new one, and then the node after
  obtain ⟨h₁, hset₁, hl₁, hsame₁, hnone₁⟩ := setNext_linked hpre hnodupPre (some l.used)
  have hcell₁ : h₁ l.used = some ⟨(l.junk l.used).1, (l.junk l.used).2, d⟩ := by
    rw [hsame₁ _ hnw]
    exact Heap.set_same ..
  have hpost₂ : Linked (h₁.set l.used (some ⟨(l.junk l.used).1, some w.1, d⟩)) (some w.1)
      (y :: zs) q :=
    (hpost.frame fun a ha => hsame₁ a fun h => hwPost (h ▸ ha)).set hfreshPost _
  obtain ⟨h₃, hset₃, hl₃, hsame₃, hnone₃⟩ := setPrev_linked hpost₂ hnodupPost (some l.used)
  have hcell₃ : h₃ l.used = some ⟨(l.junk l.used).1, some w.1, d⟩ := by
    rw [hsame₃ _ hny]
    exact Heap.set_same ..
  have hpre₃ : Linked h₃ p (ys ++ [w]) (some l.used) :=
    (hl₁.set hfreshPre _).frame fun a ha => hsame₃ a fun h => hyPre (h ▸ ha)
  refine ⟨{ newDllistNode l d with
    heap := h₃.set l.used (some ⟨some y.1, some w.1, d⟩), size := l.size + 1 }, ?_, ?_, rfl, rfl⟩
  · unfold linkAt
    show ((newDllistNode l d).heap.advance _ l.first >>= fun node => _) = _
    rw [hadvance]
    show ((newDllistNode l d).heap.deref (some y.1) >>= fun c => _) = _
    rw [deref_headAddr hpost]
    show ((newDllistNode l d).heap.setNext (some w.1) (some l.used) >>= fun h => _) = _
    rw [hset₁]
    show (h₁.setPrev (some l.used) (some w.1) >>= fun h => _) = _
    rw [Heap.setPrev_some hcell₁]
    show ((h₁.set l.used _).setPrev (some y.1) (some l.used) >>= fun h => _) = _
    rw [hset₃]
    show (h₃.setNext (some l.used) (some y.1) >>= fun h => _) = _
    rw [Heap.setNext_some hcell₃]
    rfl
  · refine link _ hs (linked_append.mpr ⟨hpre₃.set hfreshPre _, ?_⟩) ?_ ?_
      (fun a ha hnone => ?_) rfl rfl
    · rw [lastAddr_concat]
      exact ⟨Heap.set_same .., hl₃.set hfreshPost _⟩
    · show l.first = _
      rw [hs.first_eq]
      cases ys <;> rfl
    · show l.last = _
      rw [hs.last_eq, lastAddr_append, lastAddr_append none (ys ++ [w])]
      rfl
    · refine (Heap.set_of_ne ha).trans (hnone₃ a ((Heap.set_of_ne ha).trans (hnone₁ a ?_)))
      exact (Heap.set_of_ne ha).trans hnone

/-- What is left of a list when the node `x` has been taken out of its chain
and freed. -/
theorem unlink (ys : List (ℕ × α)) {zs : List (ℕ × α)} (hs : Shape l (ys ++ x :: zs) p q)
    {l' : Dllist α} {p' q' : Option ℕ} (hlinked : Linked l'.heap p' (ys ++ zs) q')
    (hfirst : l'.first = headAddr none (ys ++ zs))
    (hlast : l'.last = lastAddr none (ys ++ zs)) (hx : l'.heap x.1 = none)
    (honly : ∀ a, l.heap a = none → l'.heap a = none) (hused : l'.used = l.used)
    (hsize : l'.size = l.size - 1) : Shape l' (ys ++ zs) p' q' := by
  have hperm : (ys ++ x :: zs).Perm (x :: (ys ++ zs)) := List.perm_middle
  have hmem : ∀ a, a ∈ (ys ++ x :: zs).map Prod.fst
      ↔ a = x.1 ∨ a ∈ (ys ++ zs).map Prod.fst := fun a =>
    (hperm.map Prod.fst).mem_iff.trans List.mem_cons
  refine ⟨hlinked, hfirst, hlast, ?_, fun a c hc => ?_, fun a ha => ?_, ?_⟩
  · exact (List.nodup_cons.mp ((hperm.map Prod.fst).nodup_iff.mp hs.nodup)).2
  · cases hca : l.heap a with
    | none =>
      rw [honly a hca] at hc
      cases hc
    | some c' =>
      refine ((hmem a).mp (hs.only a c' hca)).resolve_left fun ha => ?_
      rw [ha, hx] at hc
      cases hc
  · rw [hused]
    exact hs.lt_used a ((hmem a).mpr (.inr ha))
  · rw [hsize, hs.size_eq, hperm.length_eq, List.length_cons, UInt64.ofNat_add]
    exact UInt64.add_sub_cancel ..

/-- **`dllist_pop_back`** on a list that is not empty takes its last node
away, and sets the `next` link of the one before to `NULL`. -/
theorem popBack (hs : Shape l (xs ++ [x]) p q) :
    ∃ l', dllistPopBack l = .ok (some x.2, l') ∧ Shape l' xs p none
      ∧ l'.type = l.type ∧ l'.junk = l.junk := by
  have hempty := hs.isEmpty_eq_false (by simp)
  have hlast : l.last = some x.1 := hs.last_eq.trans (lastAddr_concat none xs x)
  obtain ⟨hpre, hx⟩ := linked_append.mp hs.linked
  have hcell : l.heap x.1 = some ⟨q, lastAddr p xs, x.2⟩ := hx.1
  have hnodup := hs.nodup
  rw [List.map_append, List.nodup_append] at hnodup
  have hnotMem : x.1 ∉ xs.map Prod.fst := fun h =>
    hnodup.2.2 _ h _ (List.mem_singleton_self _) rfl
  rcases xs.eq_nil_or_concat' with rfl | ⟨ys, y, rfl⟩
  · have hone : dllistLastNode l = true :=
      decide_eq_true (hs.first_eq.trans hlast.symm)
    refine ⟨{ l with
      first := none, last := none, heap := l.heap.set x.1 none, size := l.size - 1 },
      ?_, ?_, rfl, rfl⟩
    · simp only [dllistPopBack, hempty, hone, hlast, Bool.false_eq_true, if_false, if_true]
      rw [Heap.deref_some hcell]
      show (dllistFreeNode l.heap (some x.1) >>= fun h => _) = _
      rw [dllistFreeNode_some hcell]
      rfl
    · refine unlink [] hs trivial rfl rfl (Heap.set_same ..) (fun a ha => ?_) rfl rfl
      by_cases hax : a = x.1
      · exact hax ▸ Heap.set_same ..
      · exact (Heap.set_of_ne hax).trans ha
  · rw [lastAddr_concat] at hcell
    have hmore : dllistLastNode l = false := by
      refine decide_eq_false fun heq => ?_
      rw [hs.first_eq, hlast, headAddr_append] at heq
      cases ys with
      | nil =>
        have h : y.1 = x.1 := Option.some.inj heq
        exact hnotMem (by simp [h])
      | cons w ws =>
        have h : w.1 = x.1 := Option.some.inj heq
        exact hnotMem (by simp [h])
    obtain ⟨h₁, hset, hl₁, hsame₁, hnone₁⟩ := setNext_linked hpre hnodup.1 none
    have hne : x.1 ≠ y.1 := fun h => hnotMem (by simp [h])
    have hcell₁ : h₁ x.1 = some ⟨q, some y.1, x.2⟩ := (hsame₁ _ hne).trans hcell
    refine ⟨{ l with last := some y.1, heap := h₁.set x.1 none, size := l.size - 1 },
      ?_, ?_, rfl, rfl⟩
    · simp only [dllistPopBack, hempty, hmore, hlast, Bool.false_eq_true, if_false]
      rw [Heap.deref_some hcell]
      show (l.heap.setNext (some y.1) none >>= fun h => _) = _
      rw [hset]
      show (dllistFreeNode h₁ (some x.1) >>= fun h => _) = _
      rw [dllistFreeNode_some hcell₁]
      rfl
    · have hlinked := hl₁.set hnotMem none
      have hfirst : l.first = headAddr none (ys ++ [y]) := by
        rw [hs.first_eq, headAddr_append]
        cases ys <;> rfl
      have hnone : ∀ a, l.heap a = none → h₁.set x.1 none a = none := fun a ha =>
        Heap.set_of_none hcell₁ (hnone₁ a ha)
      rw [← List.append_nil (ys ++ [y])] at hlinked hfirst ⊢
      refine unlink _ hs hlinked hfirst ?_ (Heap.set_same ..) hnone rfl rfl
      rw [List.append_nil, lastAddr_concat]

/-- **`dllist_pop_front`** on a list that is not empty takes its first node
away, and sets the `prev` link of the one after to `NULL`. -/
theorem popFront (hs : Shape l (x :: xs) p q) :
    ∃ l', dllistPopFront l = .ok (some x.2, l') ∧ Shape l' xs none q
      ∧ l'.type = l.type ∧ l'.junk = l.junk := by
  have hempty := hs.isEmpty_eq_false (by simp)
  have hfirst : l.first = some x.1 := hs.first_eq
  obtain ⟨hcell, hrest⟩ := hs.linked
  obtain ⟨hnotMem, hnodup⟩ := List.nodup_cons.mp hs.nodup
  cases xs with
  | nil =>
    have hone : dllistLastNode l = true := decide_eq_true (hfirst.trans hs.last_eq.symm)
    refine ⟨{ l with
      first := none, last := none, heap := l.heap.set x.1 none, size := l.size - 1 },
      ?_, ?_, rfl, rfl⟩
    · simp only [dllistPopFront, hempty, hone, hfirst, Bool.false_eq_true, if_false, if_true]
      rw [Heap.deref_some hcell]
      show (dllistFreeNode l.heap (some x.1) >>= fun h => _) = _
      rw [dllistFreeNode_some hcell]
      rfl
    · exact unlink [] hs trivial rfl rfl (Heap.set_same ..)
        (fun a ha => Heap.set_of_none hcell ha) rfl rfl
  | cons y ys =>
    have hmore : dllistLastNode l = false := by
      refine decide_eq_false fun heq => ?_
      obtain ⟨zs, z, hz⟩ := List.eq_nil_or_concat' (y :: ys) |>.resolve_left (by simp)
      rw [hfirst, hs.last_eq, lastAddr_cons, hz, lastAddr_concat] at heq
      have h : x.1 = z.1 := Option.some.inj heq
      exact hnotMem (by rw [hz, h]; simp)
    obtain ⟨h₁, hset, hl₁, hsame₁, hnone₁⟩ := setPrev_linked hrest hnodup none
    have hne : x.1 ≠ y.1 := fun h => hnotMem (by simp [h])
    have hcell₁ : h₁ x.1 = some ⟨some y.1, p, x.2⟩ := (hsame₁ _ hne).trans hcell
    refine ⟨{ l with first := some y.1, heap := h₁.set x.1 none, size := l.size - 1 },
      ?_, ?_, rfl, rfl⟩
    · simp only [dllistPopFront, hempty, hmore, hfirst, Bool.false_eq_true, if_false]
      rw [Heap.deref_some hcell]
      show (l.heap.setPrev (some y.1) none >>= fun h => _) = _
      rw [hset]
      show (dllistFreeNode h₁ (some x.1) >>= fun h => _) = _
      rw [dllistFreeNode_some hcell₁]
      rfl
    · exact unlink [] hs (hl₁.set hnotMem none) rfl hs.last_eq (Heap.set_same ..)
        (fun a ha => Heap.set_of_none hcell₁ (hnone₁ a ha)) rfl rfl

/-- **Taking out a node with one on either side** links these to each other. -/
theorem unlinkAt_middle {w y : ℕ × α} {ys zs : List (ℕ × α)}
    (hs : Shape l ((ys ++ [w]) ++ x :: y :: zs) p q) :
    ∃ l', unlinkAt l (ys ++ [w]).length = .ok (some x.2, l')
      ∧ Shape l' ((ys ++ [w]) ++ y :: zs) p q ∧ l'.type = l.type ∧ l'.junk = l.junk := by
  obtain ⟨hpre, hx⟩ := linked_append.mp hs.linked
  obtain ⟨hcell, hpost⟩ := hx
  rw [lastAddr_concat] at hcell
  have hnodup := hs.nodup
  rw [List.map_append, List.nodup_append, List.map_cons, List.nodup_cons] at hnodup
  obtain ⟨hnodupPre, ⟨hxPost, hnodupPost⟩, hdisj⟩ := hnodup
  have hxPre : x.1 ∉ (ys ++ [w]).map Prod.fst := fun h =>
    hdisj _ h _ List.mem_cons_self rfl
  have hyPre : y.1 ∉ (ys ++ [w]).map Prod.fst := fun h =>
    hdisj _ h _ (List.mem_cons_of_mem _ List.mem_cons_self) rfl
  have hwPost : w.1 ∉ (y :: zs).map Prod.fst := fun h =>
    hdisj w.1 (by simp) _ (List.mem_cons_of_mem _ h) rfl
  have hxw : x.1 ≠ w.1 := fun h => hxPre (by simp [h])
  have hxy : x.1 ≠ y.1 := fun h => hxPost (by simp [h])
  -- the walk stops at `x`
  have hadvance : l.heap.advance (ys ++ [w]).length l.first = .ok (some x.1) := by
    rw [hs.first_eq_headAddr (by simp), advance_linked hs.linked (by simp), List.drop_left]
    rfl
  -- then its neighbours are linked to each other, the one after it first
  obtain ⟨h₁, hset₁, hl₁, hsame₁, hnone₁⟩ := setPrev_linked hpost hnodupPost (some w.1)
  have hpre₁ : Linked h₁ p (ys ++ [w]) (some x.1) :=
    hpre.frame fun a ha => hsame₁ a (fun h => hyPre (h ▸ ha))
  obtain ⟨h₂, hset₂, hl₂, hsame₂, hnone₂⟩ := setNext_linked hpre₁ hnodupPre (some y.1)
  have hpost₂ : Linked h₂ (some w.1) (y :: zs) q :=
    hl₁.frame fun a ha => hsame₂ a (fun h => hwPost (h ▸ ha))
  have hcell₂ : h₂ x.1 = some ⟨some y.1, some w.1, x.2⟩ := by
    rw [hsame₂ _ hxw, hsame₁ _ hxy]
    exact hcell
  refine ⟨{ l with heap := h₂.set x.1 none, size := l.size - 1 }, ?_, ?_, rfl, rfl⟩
  · unfold unlinkAt
    rw [hadvance]
    show (l.heap.deref (some x.1) >>= fun n => _) = _
    rw [Heap.deref_some hcell]
    show (l.heap.setPrev (some y.1) (some w.1) >>= fun h => _) = _
    rw [hset₁]
    show (h₁.setNext (some w.1) (some y.1) >>= fun h => _) = _
    rw [hset₂]
    show (dllistFreeNode h₂ (some x.1) >>= fun h => _) = _
    rw [dllistFreeNode_some hcell₂]
    rfl
  · refine unlink _ hs (linked_append.mpr ⟨hl₂.set hxPre none, ?_⟩) ?_ ?_ (Heap.set_same ..)
      (fun a ha => Heap.set_of_none hcell₂ (hnone₂ a (hnone₁ a ha))) rfl rfl
    · rw [lastAddr_concat]
      exact hpost₂.set hxPost none
    · rw [hs.first_eq]
      cases ys <;> rfl
    · rw [hs.last_eq, lastAddr_append, lastAddr_append none (ys ++ [w])]
      rfl

theorem toNat_size (hs : Shape l xs p q) (hlen : xs.length < 2 ^ 31) :
    l.size.toNat = xs.length := by
  rw [hs.size_eq, UInt64.toNat_ofNat']
  omega

/-- The size of a list counts its nodes modulo 2⁶⁴. -/
theorem toNat_size_le (hs : Shape l xs p q) : l.size.toNat ≤ xs.length := by
  rw [hs.size_eq, UInt64.toNat_ofNat']
  exact Nat.mod_le ..

theorem insertPos_le (hs : Shape l xs p q) (index : UInt64) :
    insertPos l index xs.length ≤ xs.length := by
  unfold insertPos
  split
  · exact le_rfl
  · next h =>
    rcases Nat.eq_zero_or_pos index.toNat with hzero | hpos
    · exact hzero ▸ Nat.zero_le _
    · have hlt : index < l.size :=
        UInt64.not_le.mp fun hge => h ⟨UInt64.lt_iff_toNat_lt.mpr hpos, hge⟩
      exact (UInt64.lt_iff_toNat_lt.mp hlt).le.trans hs.toNat_size_le

/-- **`dllist_insert`** with the tag of the list puts a new node at
`insertPos`, however long the list is. A node put first keeps the junk in its
`prev`, and one put last that in its `next`. -/
theorem insertAt (hs : Shape l xs p q) (index : UInt64) (d : α) :
    ∃ l', dllistInsert l index l.type (some d) = .ok (true, l')
      ∧ Shape l' (xs.insertIdx (insertPos l index xs.length) (l.used, d))
          (if index = 0 ∨ xs.isEmpty then (l.junk l.used).2 else p)
          (if (index > 0 ∧ index ≥ l.size) ∨ xs.isEmpty then (l.junk l.used).1 else q)
      ∧ l'.type = l.type ∧ l'.junk = l.junk := by
  unfold dllistInsert insertPos
  dsimp only
  rw [if_neg (not_not.mpr rfl)]
  by_cases hpos : index > 0
  · have hne : index ≠ 0 := fun h => absurd (h ▸ hpos) (by decide)
    simp only [hpos, hne, true_and, false_or, if_true]
    by_cases hback : index ≥ l.size
    · obtain ⟨l', hpush, hs', htype, hjunk⟩ := hs.pushBack d
      simp only [hback, true_or, if_true, List.insertIdx_length_self]
      exact ⟨l', hpush, hs', htype, hjunk⟩
    · have hzero : index.toNat ≠ 0 := Nat.ne_of_gt (UInt64.lt_iff_toNat_lt.mp hpos)
      have hlt : index.toNat < xs.length :=
        (UInt64.lt_iff_toNat_lt.mp (UInt64.not_le.mp hback)).trans_le hs.toNat_size_le
      have hnil : xs.isEmpty = false := List.isEmpty_eq_false_iff.mpr
        (List.ne_nil_of_length_pos (Nat.zero_lt_of_lt hlt))
      simp only [hback, hnil, Bool.false_eq_true, or_self, if_false]
      obtain ⟨ys, w, zs, hsplit, hi⟩ := exists_middle hzero hlt
      have hs' := hs
      rw [hsplit] at hs'
      obtain ⟨l', hlink, hs'', htype, hjunk⟩ := hs'.linkAt_middle d
      rw [hi] at hlink
      have hinsert := insertIdx_length_append (ys ++ [w]) (xs[index.toNat] :: zs) (l.used, d)
      rw [hi, ← hsplit] at hinsert
      exact ⟨l', hlink, hinsert ▸ hs'', htype, hjunk⟩
  · have hzero : index = 0 := by
      by_contra h
      exact hpos (UInt64.pos_iff_ne_zero.mpr h)
    subst hzero
    obtain ⟨l', hpush, hs', htype, hjunk⟩ := hs.pushFront d
    simp only [hpos, false_and, false_or, true_or, if_true, if_false]
    exact ⟨l', hpush, hs', htype, hjunk⟩

/-- The same where the size is exact. -/
theorem insert (hs : Shape l xs p q) (hlen : xs.length < 2 ^ 31) (index : UInt64) (d : α) :
    ∃ l' p' q', dllistInsert l index l.type (some d) = .ok (true, l')
      ∧ Shape l' (xs.insertIdx (min index.toNat xs.length) (l.used, d)) p' q'
      ∧ l'.type = l.type ∧ l'.junk = l.junk := by
  have hpos : insertPos l index xs.length = min index.toNat xs.length := by
    have hsize := hs.toNat_size hlen
    have hgt : index > 0 ↔ 0 < index.toNat := UInt64.lt_iff_toNat_lt
    have hge : index ≥ l.size ↔ xs.length ≤ index.toNat := by
      rw [ge_iff_le, UInt64.le_iff_toNat_le, hsize]
    simp only [insertPos, hgt, hge]
    split <;> omega
  obtain ⟨l', hrun, hs', htype, hjunk⟩ := hs.insertAt index d
  exact ⟨l', _, _, hrun, hpos ▸ hs', htype, hjunk⟩

/-- **`dllist_remove`** takes out the node at `removePos`, however long the list
is, and leaves a `NULL` at the ends where one was. -/
theorem removeIdx (hs : Shape l xs p q) (hne : xs ≠ []) {index : UInt64}
    (hin : ¬ (index > 0 ∧ index ≥ l.size)) :
    ∃ l' p' q', dllistRemove l index
        = .ok (xs[removePos l index xs.length]?.map Prod.snd, l')
      ∧ Shape l' (xs.eraseIdx (removePos l index xs.length)) p' q'
      ∧ (p = none → p' = none) ∧ (q = none → q' = none)
      ∧ l'.type = l.type ∧ l'.junk = l.junk := by
  have hempty := hs.isEmpty_eq_false hne
  unfold dllistRemove removePos
  rw [hempty, if_neg Bool.false_ne_true, if_neg hin]
  by_cases hback : index + 1 = l.size
  · rw [if_pos hback, if_pos hback]
    obtain ⟨ys, y, rfl⟩ := xs.eq_nil_or_concat'.resolve_left hne
    obtain ⟨l', hpop, hs', htype, hjunk⟩ := hs.popBack
    refine ⟨l', p, none, ?_, ?_, id, fun _ => rfl, htype, hjunk⟩
    · rw [hpop]
      simp
    · simpa [List.eraseIdx_append_of_length_le] using hs'
  · rw [if_neg hback, if_neg hback]
    by_cases hfront : index = 0 ∨ -(index - 1) = l.size
    · rw [if_pos hfront, if_pos hfront]
      obtain ⟨y, ys, rfl⟩ := List.exists_cons_of_ne_nil hne
      obtain ⟨l', hpop, hs', htype, hjunk⟩ := hs.popFront
      exact ⟨l', none, q, hpop, hs', fun _ => rfl, id, htype, hjunk⟩
    · rw [if_neg hfront, if_neg hfront]
      obtain ⟨hindex, -⟩ := not_or.mp hfront
      have hzero : index.toNat ≠ 0 := fun h => hindex (UInt64.toNat_inj.mp h)
      have hlt : index.toNat < l.size.toNat := by
        refine UInt64.lt_iff_toNat_lt.mp (UInt64.not_le.mp fun h => hin ⟨?_, h⟩)
        exact UInt64.pos_iff_ne_zero.mpr hindex
      have hnext : index.toNat + 1 ≠ l.size.toNat := fun h => by
        refine hback (UInt64.toNat_inj.mp ?_)
        have hbound := l.size.toNat_lt
        rw [UInt64.toNat_add, ← h]
        exact Nat.mod_eq_of_lt (h ▸ hbound)
      have hle := hs.toNat_size_le
      obtain ⟨ys, w, post, hsplit, hlength⟩ := exists_middle hzero (hlt.trans_le hle)
      obtain ⟨y, zs, rfl⟩ := List.exists_cons_of_ne_nil (l := post) fun h => by
        rw [h] at hsplit
        have := congrArg List.length hsplit
        simp only [List.length_append, List.length_cons, List.length_nil] at this hlength
        omega
      have hs' := hs
      rw [hsplit] at hs'
      obtain ⟨l', hrun, hshape, htype, hjunk⟩ := hs'.unlinkAt_middle
      rw [hlength] at hrun
      refine ⟨l', p, q, ?_, ?_, id, id, htype, hjunk⟩
      · rw [hrun, List.getElem?_eq_getElem (hlt.trans_le hle)]
        rfl
      · have herase := List.eraseIdx_append_of_length_le hlength.le
          (xs[index.toNat] :: y :: zs)
        rw [← hsplit, hlength, Nat.sub_self] at herase
        rwa [herase]

/-- **`dllist_remove`** at an index of the list takes that node away. -/
theorem removeAt (hs : Shape l xs p q) (hlen : xs.length < 2 ^ 31) {i : ℕ}
    (hi : i < xs.length) :
    ∃ l' p' q', dllistRemove l (UInt64.ofNat i) = .ok (some xs[i].2, l')
      ∧ Shape l' (xs.eraseIdx i) p' q' ∧ (q = none → q' = none)
      ∧ l'.type = l.type ∧ l'.junk = l.junk := by
  have hsize := hs.toNat_size hlen
  have hindex : (UInt64.ofNat i).toNat = i := by
    rw [UInt64.toNat_ofNat']
    omega
  have hne : xs ≠ [] := List.ne_nil_of_length_pos (Nat.zero_lt_of_lt hi)
  have hin : ¬ (UInt64.ofNat i > 0 ∧ UInt64.ofNat i ≥ l.size) := by
    rintro ⟨-, h⟩
    rw [ge_iff_le, UInt64.le_iff_toNat_le, hsize, hindex] at h
    omega
  have hpos : removePos l (UInt64.ofNat i) xs.length = i := by
    have hlast : UInt64.ofNat i + 1 = l.size ↔ i + 1 = xs.length := by
      rw [← UInt64.toNat_inj, UInt64.toNat_add, hsize, hindex]
      show (i + 1) % 2 ^ 64 = _ ↔ _
      omega
    -- no index below the size makes the comparison with a negative one come true
    have hfront : (UInt64.ofNat i = 0 ∨ -(UInt64.ofNat i - 1) = l.size) ↔ i = 0 := by
      rw [← UInt64.toNat_inj, ← UInt64.toNat_inj, hindex, hsize, UInt64.toNat_neg,
        UInt64.toNat_sub, hindex]
      show i = 0 ∨ (2 ^ 64 - (2 ^ 64 - 1 + i) % 2 ^ 64) % 2 ^ 64 = _ ↔ _
      omega
    simp only [removePos, hlast, hfront, hindex]
    split
    · omega
    · split <;> omega
  obtain ⟨l', p', q', hrun, hs', -, hq, htype, hjunk⟩ := hs.removeIdx hne hin
  rw [hpos] at hrun hs'
  rw [List.getElem?_eq_getElem hi] at hrun
  exact ⟨l', p', q', hrun, hs', hq, htype, hjunk⟩

/-- The same of a list that ends in `NULL`, which it still does. -/
theorem remove (hs : Shape l xs p none) (hlen : xs.length < 2 ^ 31) {i : ℕ}
    (hi : i < xs.length) :
    ∃ l' p', dllistRemove l (UInt64.ofNat i) = .ok (some xs[i].2, l')
      ∧ Shape l' (xs.eraseIdx i) p' none ∧ l'.type = l.type ∧ l'.junk = l.junk := by
  obtain ⟨l', p', q', hrun, hs', hq, htype, hjunk⟩ := hs.removeAt hlen hi
  exact ⟨l', p', hrun, hq rfl ▸ hs', htype, hjunk⟩

/-- **A search that finds something** has found the first datum of the sequence
that passes. -/
theorem search_some (hs : Shape l xs p q) {test : α → Bool} {i : ℕ}
    (hi : (xs.map Prod.snd).findIdx? test = some i) :
    dllistSearch l test = .ok (some i) := by
  have hle : xs.length ≤ l.used + 1 := hs.length_le_used.trans (Nat.le_succ _)
  have hne : xs ≠ [] := by
    rintro rfl
    cases hi
  rw [dllistSearch, hs.first_eq_headAddr hne, walk_linked_some hs.linked hle hi]

/-- **A search in a list that ends in `NULL`** is the search in the sequence. -/
theorem search_none (hs : Shape l xs p none) (test : α → Bool) :
    dllistSearch l test = .ok ((xs.map Prod.snd).findIdx? test) := by
  have hle : xs.length ≤ l.used + 1 := hs.length_le_used.trans (Nat.le_succ _)
  rw [dllistSearch, hs.first_eq, walk_linked_none hs.linked test hle]

/-- **A search that finds nothing in a list that does not end in `NULL`** runs
off the end and never returns. -/
theorem search_runs_off (hs : Shape l xs p q) (hne : xs ≠ []) (hq : q ≠ none)
    (test : α → Bool) (hno : ∀ x ∈ xs, test x.2 = false) :
    ∃ e, dllistSearch l test = .error e := by
  refine walk_no_exit (fun a c hc => ?_) _ (hs.first_ne_none hne)
  obtain ⟨y, hy, rfl⟩ := List.mem_map.mp (hs.only a c hc)
  obtain ⟨c', hc', hdata⟩ := hs.linked.get hy
  cases hc.symm.trans hc'
  exact ⟨hdata ▸ hno y hy, hs.linked.next_ne_none hq hy hc⟩

/-- **What a list holds is the data of its nodes.** -/
theorem contents_eq (hs : Shape l xs p q) : dllistContents l = xs.map Prod.snd := by
  -- along the chain, for any part of it that reaches to the last node
  have hpart : ∀ (ys : List (ℕ × α)) (r : Option ℕ) (n : ℕ), Linked l.heap r ys q →
      (ys.map Prod.fst).Nodup → ys ≠ [] → l.last = lastAddr none ys → ys.length ≤ n →
      contentsFrom l n (headAddr q ys) = ys.map Prod.snd := by
    intro ys
    induction ys with
    | nil => exact fun _ _ _ _ hne => absurd rfl hne
    | cons y ys ih =>
      intro r n hl hnodup _ hlast hn
      obtain ⟨n, rfl⟩ := Nat.exists_eq_add_one.mpr (Nat.lt_of_lt_of_le (Nat.succ_pos _) hn)
      rw [headAddr_cons, contentsFrom, hl.1]
      rcases ys.eq_nil_or_concat' with rfl | ⟨zs, z, hz⟩
      · rw [hlast]
        exact if_pos rfl
      · obtain ⟨hnotMem, hnodup'⟩ := List.nodup_cons.mp hnodup
        have hlast' : l.last = lastAddr none ys := by
          rw [hlast, lastAddr_cons, hz, lastAddr_concat, lastAddr_concat]
        have hne : l.last ≠ some y.1 := by
          rw [hlast', hz, lastAddr_concat]
          intro h
          have hzy : z.1 = y.1 := Option.some.inj h
          exact hnotMem (by simp [hz, ← hzy])
        rw [List.length_cons] at hn
        dsimp only
        rw [if_neg hne, List.map_cons, ih _ n hl.2 hnodup' (by simp [hz]) hlast' (by omega)]
  cases xs with
  | nil =>
    rw [dllistContents, hs.first_eq]
    cases l.used <;> rfl
  | cons x xs =>
    rw [dllistContents, hs.first_eq_headAddr (List.cons_ne_nil _ _)]
    exact hpart _ p _ hs.linked hs.nodup (List.cons_ne_nil _ _) hs.last_eq hs.length_le_used

/-- A list ends in `NULL` when the link after its nodes is null. -/
theorem nullTerminated_iff (hs : Shape l xs p q) : NullTerminated l ↔ xs = [] ∨ q = none := by
  rcases xs.eq_nil_or_concat' with rfl | ⟨ys, y, rfl⟩
  · refine iff_of_true (fun a c ha => ?_) (.inl rfl)
    rw [hs.last_eq] at ha
    cases ha
  · have hlast : l.last = some y.1 := hs.last_eq.trans (lastAddr_concat none ys y)
    have hcell : l.heap y.1 = some ⟨q, lastAddr p ys, y.2⟩ := (linked_append.mp hs.linked).2.1
    constructor
    · exact fun h => .inr (h y.1 _ hlast hcell)
    · rintro (h | rfl) a c ha hc
      · exact absurd h (by simp)
      · cases hlast.symm.trans ha
        cases hcell.symm.trans hc
        rfl

end Shape

/-- Nothing happens to an empty list. -/
theorem dllistEmpty_of_isEmpty {l : Dllist α} (h : dllistIsEmpty l = true) :
    dllistEmpty l = .ok l := by
  rw [dllistEmpty, if_pos h]
  rfl

theorem dllistPopBack_of_isEmpty {l : Dllist α} (h : dllistIsEmpty l = true) :
    dllistPopBack l = .ok (none, l) := by
  rw [dllistPopBack, if_pos h]
  rfl

theorem dllistPopFront_of_isEmpty {l : Dllist α} (h : dllistIsEmpty l = true) :
    dllistPopFront l = .ok (none, l) := by
  rw [dllistPopFront, if_pos h]
  rfl

theorem dllistRemove_of_isEmpty {l : Dllist α} (h : dllistIsEmpty l = true) (index : UInt64) :
    dllistRemove l index = .ok (none, l) := by
  rw [dllistRemove, if_pos h]
  rfl

/-- **Nothing is taken out past the end.** -/
theorem dllistRemove_past {l : Dllist α} {index : UInt64} (h : index > 0 ∧ index ≥ l.size) :
    dllistRemove l index = .ok (none, l) := by
  by_cases hempty : dllistIsEmpty l = true
  · exact dllistRemove_of_isEmpty hempty index
  · rw [dllistRemove, if_neg hempty, if_pos h]
    rfl

/-- A list that is not empty gives a datum. -/
theorem dllistPopBack_ne_none {l l' : Dllist α} (h : dllistIsEmpty l = false) :
    dllistPopBack l ≠ .ok (none, l') := by
  unfold dllistPopBack
  rw [h, if_neg Bool.false_ne_true]
  cases l.heap.deref l.last with
  | error e => exact nofun
  | ok n =>
    dsimp only [bind, Except.bind]
    split
    · cases dllistFreeNode l.heap l.last <;> exact nofun
    · cases l.heap.setNext n.prev none with
      | error e => exact nofun
      | ok h => dsimp only; cases dllistFreeNode h l.last <;> exact nofun

/-- **A push with another tag than the list's does nothing.** -/
theorem dllistPushFront_of_ne {l : Dllist α} {type : DllNodeType} (h : type ≠ l.type)
    (data : Option α) : dllistPushFront l type data = .ok (false, l) := by
  unfold dllistPushFront
  cases data with
  | none => rfl
  | some d =>
    dsimp only
    rw [if_pos h]
    rfl

end Miaouchat
