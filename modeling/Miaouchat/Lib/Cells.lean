import Mathlib

/-!
# Doubly linked cells

Memory that holds cells with a link in each direction, and chains of such
cells. A pointer is `none` for a null pointer and `some a` for the address
`a`; an address with no cell is one that was never allocated or that was
freed, and following a pointer to it is a `wild` access.

`Linked h p xs q` says the cells of `xs`, a list of addresses and data, are
chained in this order in the memory `h`: the `prev` link of the first is `p`,
the `next` link of the last is `q`, and between them each cell points to its
neighbours. Nothing is said about where `p` and `q` lead, so a chain whose end
was left uninitialised is a chain as well.

Programs on such cells either follow links (`advance`, `dataAlong`,
`dataToNull`, `walk`) or rewrite them (`setNext`, `setPrev`); there is one rule
for each over `Linked`.
-/

variable {α : Type}

/-- How following pointers goes wrong. -/
inductive Fault
  /-- A null pointer was followed. -/
  | null
  /-- A pointer to no cell was followed. -/
  | wild
  /-- The links were followed for ever. -/
  | loop
  deriving DecidableEq, Repr

/-- A cell with its two links. -/
structure Cell (α : Type) where
  next : Option ℕ
  prev : Option ℕ
  data : α
  deriving DecidableEq, Repr

/-- The cells in memory, by address. -/
abbrev Heap (α : Type) : Type := ℕ → Option (Cell α)

namespace Heap

/-- Follow a pointer. -/
def deref (h : Heap α) : Option ℕ → Except Fault (Cell α)
  | none => .error .null
  | some a =>
    match h a with
    | none => .error .wild
    | some c => .ok c

/-- Put a cell, or no cell, at an address. -/
def set (h : Heap α) (a : ℕ) (c : Option (Cell α)) : Heap α := Function.update h a c

@[simp] theorem set_same (h : Heap α) (a : ℕ) (c : Option (Cell α)) :
    h.set a c a = c :=
  Function.update_self ..

theorem set_of_ne {h : Heap α} {a b : ℕ} {c : Option (Cell α)} (hab : b ≠ a) :
    h.set a c b = h b :=
  Function.update_of_ne hab ..

@[simp] theorem set_set (h : Heap α) (a : ℕ) (c c' : Option (Cell α)) :
    (h.set a c).set a c' = h.set a c' :=
  Function.update_idem ..

/-- A write to a cell that is there leaves the free addresses free. -/
theorem set_of_none {h : Heap α} {a b : ℕ} {c : Cell α} {c' : Option (Cell α)}
    (ha : h a = some c) (hb : h b = none) : h.set a c' b = none := by
  rw [set_of_ne (by rintro rfl; cases ha.symm.trans hb), hb]

/-- Write the `next` link of the cell a pointer points to. -/
def setNext (h : Heap α) (p q : Option ℕ) : Except Fault (Heap α) :=
  match p with
  | none => .error .null
  | some a =>
    match h a with
    | none => .error .wild
    | some c => .ok (h.set a (some { c with next := q }))

/-- Write the `prev` link of the cell a pointer points to. -/
def setPrev (h : Heap α) (p q : Option ℕ) : Except Fault (Heap α) :=
  match p with
  | none => .error .null
  | some a =>
    match h a with
    | none => .error .wild
    | some c => .ok (h.set a (some { c with prev := q }))

/-- Free the cell a pointer points to. -/
def free (h : Heap α) (p : Option ℕ) : Except Fault (Heap α) :=
  match p with
  | none => .error .null
  | some a =>
    match h a with
    | none => .error .wild
    | some _ => .ok (h.set a none)

theorem deref_some {h : Heap α} {a : ℕ} {c : Cell α} (hc : h a = some c) :
    h.deref (some a) = .ok c := by
  simp only [deref, hc]

theorem setNext_some {h : Heap α} {a : ℕ} {c : Cell α} (hc : h a = some c)
    (q : Option ℕ) : h.setNext (some a) q = .ok (h.set a (some { c with next := q })) := by
  simp only [setNext, hc]

theorem setPrev_some {h : Heap α} {a : ℕ} {c : Cell α} (hc : h a = some c)
    (q : Option ℕ) : h.setPrev (some a) q = .ok (h.set a (some { c with prev := q })) := by
  simp only [setPrev, hc]

theorem free_some {h : Heap α} {a : ℕ} {c : Cell α} (hc : h a = some c) :
    h.free (some a) = .ok (h.set a none) := by
  simp only [free, hc]

/-- Follow `next` a number of times. -/
def advance (h : Heap α) : ℕ → Option ℕ → Except Fault (Option ℕ)
  | 0, p => .ok p
  | n + 1, p => do
    let c ← h.deref p
    advance h n c.next

/-- The data of `n` cells, from the first one along a link. -/
def dataAlong (link : Cell α → Option ℕ) (h : Heap α) : ℕ → Option ℕ → Except Fault (List α)
  | 0, _ => .ok []
  | n + 1, p => do
    let c ← h.deref p
    let ds ← dataAlong link h n (link c)
    return c.data :: ds

/-- The data of the cells from the first along `next` to a null pointer. The
first argument bounds the cells visited. -/
def dataToNull (h : Heap α) : ℕ → Option ℕ → Except Fault (List α)
  | _, none => .ok []
  | 0, some _ => .error .loop
  | n + 1, some a => do
    let c ← h.deref (some a)
    let ds ← dataToNull h n c.next
    return c.data :: ds

/-- Follow `next` to the first cell whose data pass a test, and count the
cells before it; `none` if a null pointer comes first. The bound on the cells
visited is the first argument after the test. -/
def walk (h : Heap α) (test : α → Bool) : ℕ → Option ℕ → Except Fault (Option ℕ)
  | _, none => .ok none
  | 0, some _ => .error .loop
  | n + 1, some a => do
    let c ← h.deref (some a)
    if test c.data then
      return some 0
    else
      let i ← walk h test n c.next
      return i.map (· + 1)

end Heap

/-! ## Chains -/

/-- The address of the first cell, or `q` if there is none. -/
def headAddr (q : Option ℕ) : List (ℕ × α) → Option ℕ
  | [] => q
  | x :: _ => some x.1

/-- The address of the last cell, or `p` if there is none. -/
def lastAddr (p : Option ℕ) : List (ℕ × α) → Option ℕ
  | [] => p
  | x :: xs => lastAddr (some x.1) xs

/-- **The cells of `xs` are chained in this order**, from the link `p` before
them to the link `q` after them. -/
def Linked (h : Heap α) : Option ℕ → List (ℕ × α) → Option ℕ → Prop
  | _, [], _ => True
  | p, x :: xs, q => h x.1 = some ⟨headAddr q xs, p, x.2⟩ ∧ Linked h (some x.1) xs q

@[simp] theorem headAddr_nil (q : Option ℕ) : headAddr q ([] : List (ℕ × α)) = q := rfl

@[simp] theorem headAddr_cons (q : Option ℕ) (x : ℕ × α) (xs : List (ℕ × α)) :
    headAddr q (x :: xs) = some x.1 := rfl

@[simp] theorem lastAddr_nil (p : Option ℕ) : lastAddr p ([] : List (ℕ × α)) = p := rfl

@[simp] theorem lastAddr_cons (p : Option ℕ) (x : ℕ × α) (xs : List (ℕ × α)) :
    lastAddr p (x :: xs) = lastAddr (some x.1) xs := rfl

theorem headAddr_append (q : Option ℕ) (xs ys : List (ℕ × α)) :
    headAddr q (xs ++ ys) = headAddr (headAddr q ys) xs := by
  cases xs <;> rfl

theorem lastAddr_append (p : Option ℕ) (xs ys : List (ℕ × α)) :
    lastAddr p (xs ++ ys) = lastAddr (lastAddr p xs) ys := by
  induction xs generalizing p with
  | nil => rfl
  | cons x xs ih => exact ih (some x.1)

@[simp] theorem lastAddr_concat (p : Option ℕ) (xs : List (ℕ × α)) (x : ℕ × α) :
    lastAddr p (xs ++ [x]) = some x.1 := by
  rw [lastAddr_append]
  rfl

@[simp] theorem linked_nil (h : Heap α) (p q : Option ℕ) : Linked h p [] q := trivial

theorem linked_cons {h : Heap α} {p q : Option ℕ} {x : ℕ × α} {xs : List (ℕ × α)} :
    Linked h p (x :: xs) q
      ↔ h x.1 = some ⟨headAddr q xs, p, x.2⟩ ∧ Linked h (some x.1) xs q :=
  Iff.rfl

/-- **A chain can be cut anywhere.** -/
theorem linked_append {h : Heap α} {p q : Option ℕ} {xs ys : List (ℕ × α)} :
    Linked h p (xs ++ ys) q
      ↔ Linked h p xs (headAddr q ys) ∧ Linked h (lastAddr p xs) ys q := by
  induction xs generalizing p with
  | nil => simp
  | cons x xs ih =>
    rw [List.cons_append, linked_cons, ih, headAddr_append, linked_cons, lastAddr_cons,
      and_assoc]

/-- A chain stays where memory does not change. -/
theorem Linked.frame {h h' : Heap α} {p q : Option ℕ} {xs : List (ℕ × α)}
    (hl : Linked h p xs q) (hsame : ∀ a ∈ xs.map Prod.fst, h' a = h a) :
    Linked h' p xs q := by
  induction xs generalizing p with
  | nil => trivial
  | cons x xs ih =>
    rw [List.map_cons] at hsame
    exact ⟨(hsame x.1 List.mem_cons_self).trans hl.1,
      ih hl.2 (fun a ha => hsame a (List.mem_cons_of_mem _ ha))⟩

/-- A write beside a chain does not touch it. -/
theorem Linked.set {h : Heap α} {p q : Option ℕ} {xs : List (ℕ × α)}
    (hl : Linked h p xs q) {a : ℕ} (ha : a ∉ xs.map Prod.fst) (c : Option (Cell α)) :
    Linked (h.set a c) p xs q :=
  hl.frame fun _ hb => Heap.set_of_ne fun hba => ha (hba ▸ hb)

/-- The cell of a member of a chain. -/
theorem Linked.get {h : Heap α} {p q : Option ℕ} {xs : List (ℕ × α)}
    (hl : Linked h p xs q) {x : ℕ × α} (hx : x ∈ xs) :
    ∃ c, h x.1 = some c ∧ c.data = x.2 := by
  induction xs generalizing p with
  | nil => cases hx
  | cons y xs ih =>
    rcases List.mem_cons.mp hx with rfl | hx
    · exact ⟨_, hl.1, rfl⟩
    · exact ih hl.2 hx

/-- Where the chain does not end in a null pointer, no cell of it has a null
`next` link. -/
theorem Linked.next_ne_none {h : Heap α} {p q : Option ℕ} {xs : List (ℕ × α)}
    (hl : Linked h p xs q) (hq : q ≠ none) {x : ℕ × α} (hx : x ∈ xs) {c : Cell α}
    (hc : h x.1 = some c) : c.next ≠ none := by
  induction xs generalizing p with
  | nil => cases hx
  | cons y xs ih =>
    rcases List.mem_cons.mp hx with rfl | hx
    · rw [hl.1] at hc
      cases hc
      cases xs with
      | nil => exact hq
      | cons z xs => exact Option.some_ne_none _
    · exact ih hl.2 hx

/-! ## Following links -/

theorem deref_headAddr {h : Heap α} {p q : Option ℕ} {x : ℕ × α} {xs : List (ℕ × α)}
    (hl : Linked h p (x :: xs) q) : h.deref (some x.1) = .ok ⟨headAddr q xs, p, x.2⟩ := by
  exact Heap.deref_some hl.1

/-- **Following `next` along a chain.** -/
theorem advance_linked {h : Heap α} {p q : Option ℕ} {xs : List (ℕ × α)}
    (hl : Linked h p xs q) {n : ℕ} (hn : n ≤ xs.length) :
    h.advance n (headAddr q xs) = .ok (headAddr q (xs.drop n)) := by
  induction n generalizing p xs with
  | zero => rfl
  | succ n ih =>
    cases xs with
    | nil => cases hn
    | cons x xs =>
      rw [headAddr_cons, Heap.advance, deref_headAddr hl, List.drop_succ_cons]
      exact ih hl.2 (Nat.le_of_succ_le_succ hn)

/-- **Following `next` gives a chain's data in order.** -/
theorem dataAlong_next_linked {h : Heap α} {p q : Option ℕ} {xs : List (ℕ × α)}
    (hl : Linked h p xs q) :
    h.dataAlong Cell.next xs.length (headAddr q xs) = .ok (xs.map Prod.snd) := by
  induction xs generalizing p with
  | nil => rfl
  | cons x xs ih =>
    rw [headAddr_cons, List.length_cons, Heap.dataAlong, deref_headAddr hl]
    show (h.dataAlong Cell.next xs.length (headAddr q xs) >>= fun ds => _) = _
    rw [ih hl.2]
    rfl

/-- **Following `prev` gives them reversed.** -/
theorem dataAlong_prev_linked {h : Heap α} {p q : Option ℕ} {xs : List (ℕ × α)}
    (hl : Linked h p xs q) :
    h.dataAlong Cell.prev xs.length (lastAddr p xs) = .ok (xs.map Prod.snd).reverse := by
  induction xs using List.reverseRecOn generalizing q with
  | nil => rfl
  | append_singleton xs x ih =>
    obtain ⟨hxs, hx⟩ := linked_append.mp hl
    rw [lastAddr_concat, List.length_append, List.length_singleton, Heap.dataAlong,
      Heap.deref_some hx.1]
    show (h.dataAlong Cell.prev xs.length (lastAddr p xs) >>= fun ds => _) = _
    rw [ih hxs, List.map_append, List.map_singleton, List.reverse_append]
    rfl

/-- **Following `next` to a null pointer** gives them all where the chain ends in
one. -/
theorem dataToNull_linked {h : Heap α} {p : Option ℕ} {xs : List (ℕ × α)}
    (hl : Linked h p xs none) {n : ℕ} (hn : xs.length ≤ n) :
    h.dataToNull n (headAddr none xs) = .ok (xs.map Prod.snd) := by
  induction xs generalizing p n with
  | nil => cases n <;> rfl
  | cons x xs ih =>
    obtain ⟨k, rfl⟩ := Nat.exists_eq_add_of_le' (Nat.lt_of_lt_of_le (Nat.succ_pos _) hn)
    rw [headAddr_cons, Heap.dataToNull, deref_headAddr hl]
    show (h.dataToNull k (headAddr none xs) >>= fun ds => _) = _
    rw [ih hl.2 (Nat.le_of_succ_le_succ hn)]
    rfl

/-- **A search along a chain** stops at the first datum that passes, and goes
on from the end of the chain where none does. -/
theorem walk_linked {h : Heap α} {p q : Option ℕ} {xs : List (ℕ × α)}
    (hl : Linked h p xs q) (test : α → Bool) (n : ℕ) :
    h.walk test (xs.length + n) (headAddr q xs)
      = match (xs.map Prod.snd).findIdx? test with
        | some i => .ok (some i)
        | none => (h.walk test n q).map (Option.map (· + xs.length)) := by
  induction xs generalizing p with
  | nil =>
    have hid : Option.map (fun i : ℕ => i + 0) = id := by
      funext o
      cases o <;> rfl
    simp only [List.length_nil, Nat.zero_add, headAddr_nil, List.map_nil,
      List.findIdx?_nil, hid]
    cases h.walk test n q <;> rfl
  | cons x xs ih =>
    have hlen : (x :: xs).length + n = (xs.length + n) + 1 := by
      rw [List.length_cons]
      omega
    rw [hlen, headAddr_cons, Heap.walk, deref_headAddr hl, List.map_cons,
      List.findIdx?_cons]
    show (if test x.2 then Except.ok (some 0) else _) = _
    by_cases ht : test x.2
    · rw [if_pos ht, if_pos ht]
    · rw [if_neg ht, if_neg ht, ih hl.2]
      cases (xs.map Prod.snd).findIdx? test with
      | some i => rfl
      | none =>
        cases h.walk test n q with
        | error e => rfl
        | ok o => cases o <;> rfl

/-- **A search along a chain that ends in a null pointer** is the search in its
data. -/
theorem walk_linked_none {h : Heap α} {p : Option ℕ} {xs : List (ℕ × α)}
    (hl : Linked h p xs none) (test : α → Bool) {n : ℕ} (hn : xs.length ≤ n) :
    h.walk test n (headAddr none xs) = .ok ((xs.map Prod.snd).findIdx? test) := by
  obtain ⟨k, rfl⟩ := Nat.exists_eq_add_of_le hn
  rw [walk_linked hl]
  cases (xs.map Prod.snd).findIdx? test with
  | some i => rfl
  | none => cases k <;> rfl

/-- A search that succeeds does not look at the end of the chain. -/
theorem walk_linked_some {h : Heap α} {p q : Option ℕ} {xs : List (ℕ × α)}
    (hl : Linked h p xs q) {test : α → Bool} {n i : ℕ} (hn : xs.length ≤ n)
    (hi : (xs.map Prod.snd).findIdx? test = some i) :
    h.walk test n (headAddr q xs) = .ok (some i) := by
  obtain ⟨k, rfl⟩ := Nat.exists_eq_add_of_le hn
  rw [walk_linked hl, hi]

/-- **A search with no way out goes wrong**: where no cell in memory passes the
test and none has a null `next` link, it never returns. -/
theorem walk_no_exit {h : Heap α} {test : α → Bool}
    (hno : ∀ a c, h a = some c → test c.data = false ∧ c.next ≠ none) (n : ℕ)
    {p : Option ℕ} (hp : p ≠ none) : ∃ e, h.walk test n p = .error e := by
  induction n generalizing p with
  | zero =>
    cases p with
    | none => exact absurd rfl hp
    | some a => exact ⟨_, rfl⟩
  | succ n ih =>
    cases p with
    | none => exact absurd rfl hp
    | some a =>
      rw [Heap.walk, Heap.deref]
      cases hc : h a with
      | none => exact ⟨_, rfl⟩
      | some c =>
        obtain ⟨htest, hnext⟩ := hno a c hc
        obtain ⟨e, he⟩ := ih hnext
        refine ⟨e, ?_⟩
        show (if test c.data then _ else (h.walk test n c.next >>= _)) = _
        rw [htest, he]
        rfl

/-! ## Rewriting links -/

/-- **A new link before a chain.** -/
theorem setPrev_linked {h : Heap α} {p q : Option ℕ} {x : ℕ × α} {xs : List (ℕ × α)}
    (hl : Linked h p (x :: xs) q) (hnodup : ((x :: xs).map Prod.fst).Nodup)
    (p' : Option ℕ) :
    ∃ h', h.setPrev (some x.1) p' = .ok h' ∧ Linked h' p' (x :: xs) q
      ∧ (∀ a, a ≠ x.1 → h' a = h a) ∧ ∀ a, h a = none → h' a = none := by
  refine ⟨h.set x.1 (some ⟨headAddr q xs, p', x.2⟩), ?_, ⟨Heap.set_same .., ?_⟩,
    fun a ha => Heap.set_of_ne ha, fun a ha => Heap.set_of_none hl.1 ha⟩
  · exact Heap.setPrev_some hl.1 p'
  · exact hl.2.set (List.nodup_cons.mp hnodup).1 _

/-- **A new link after a chain.** -/
theorem setNext_linked {h : Heap α} {p q : Option ℕ} {xs : List (ℕ × α)} {x : ℕ × α}
    (hl : Linked h p (xs ++ [x]) q) (hnodup : ((xs ++ [x]).map Prod.fst).Nodup)
    (q' : Option ℕ) :
    ∃ h', h.setNext (some x.1) q' = .ok h' ∧ Linked h' p (xs ++ [x]) q'
      ∧ (∀ a, a ≠ x.1 → h' a = h a) ∧ ∀ a, h a = none → h' a = none := by
  obtain ⟨hxs, hx⟩ := linked_append.mp hl
  rw [List.map_append, List.map_singleton, List.nodup_append] at hnodup
  refine ⟨h.set x.1 (some ⟨q', lastAddr p xs, x.2⟩), ?_, linked_append.mpr ⟨?_, ?_⟩,
    fun a ha => Heap.set_of_ne ha, fun a ha => Heap.set_of_none hx.1 ha⟩
  · exact Heap.setNext_some hx.1 q'
  · exact hxs.set (fun hmem => hnodup.2.2 _ hmem _ (List.mem_singleton_self _) rfl) _
  · exact ⟨Heap.set_same .., trivial⟩
