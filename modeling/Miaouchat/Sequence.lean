import Miaouchat.Dllist

/-!
# The list as a sequence

What `dllist.c` is for is a sequence with two ends, and `DllOp.onSeq` says what
each of its functions does with one. A list `Represents` a sequence when its
links give it from either end.

The functions refine the sequence: along any calls on a new list, as long as it
holds fewer elements than an `int` counts, each call returns what it returns of
the sequence, and the list represents it. The links at the two ends of the list
may be junk all along, and no function follows them.
-/

namespace Miaouchat

variable {α : Type}

/-- The calls on a list. The datum `none` is `NULL`. -/
inductive DllOp (α : Type)
  | pushBack (type : DllNodeType) (data : Option α)
  | pushFront (type : DllNodeType) (data : Option α)
  | popBack
  | popFront
  | insert (index : UInt64) (type : DllNodeType) (data : Option α)
  | remove (index : UInt64)

/-- What a call returns: one or zero, or a datum or `NULL`. -/
inductive DllResult (α : Type)
  | flag (done : Bool)
  | datum (data : Option α)
  deriving DecidableEq, Repr

namespace DllOp

/-- The code of a call. -/
def run : DllOp α → Dllist α → Except Fault (DllResult α × Dllist α)
  | pushBack type data, l => (dllistPushBack l type data).map fun r => (.flag r.1, r.2)
  | pushFront type data, l => (dllistPushFront l type data).map fun r => (.flag r.1, r.2)
  | popBack, l => (dllistPopBack l).map fun r => (.datum r.1, r.2)
  | popFront, l => (dllistPopFront l).map fun r => (.datum r.1, r.2)
  | insert index type data, l =>
    (dllistInsert l index type data).map fun r => (.flag r.1, r.2)
  | remove index, l => (dllistRemove l index).map fun r => (.datum r.1, r.2)

/-- Calls one after the other. -/
def runAll : List (DllOp α) → Dllist α → Except Fault (List (DllResult α) × Dllist α)
  | [], l => .ok ([], l)
  | op :: ops, l => do
    let (r, l) ← op.run l
    let (rs, l) ← runAll ops l
    return (r :: rs, l)

/-! ## The sequence -/

/-- A datum is added to a sequence of the tag `type`, unless it is `NULL` or has
another tag. -/
def addSeq (type t : DllNodeType) (data : Option α) (add : α → List α) (xs : List α) :
    DllResult α × List α :=
  match data with
  | none => (.flag false, xs)
  | some d => if t = type then (.flag true, add d) else (.flag false, xs)

/-- **What a call does with a sequence** of the tag `type`. -/
def onSeq (type : DllNodeType) : DllOp α → List α → DllResult α × List α
  | pushBack t data, xs => addSeq type t data (fun d => xs ++ [d]) xs
  | pushFront t data, xs => addSeq type t data (fun d => d :: xs) xs
  | popBack, xs => (.datum xs.getLast?, xs.dropLast)
  | popFront, xs => (.datum xs.head?, xs.tail)
  | insert index t data, xs =>
    addSeq type t data (fun d => xs.insertIdx (min index.toNat xs.length) d) xs
  | remove index, xs => (.datum xs[index.toNat]?, xs.eraseIdx index.toNat)

/-- Calls one after the other. -/
def onSeqAll (type : DllNodeType) : List (DllOp α) → List α → List (DllResult α) × List α
  | [], xs => ([], xs)
  | op :: ops, xs =>
    let (r, xs) := op.onSeq type xs
    let (rs, xs) := onSeqAll type ops xs
    (r :: rs, xs)

/-- **The calls that are to do nothing**: with a `NULL` datum or another tag,
from an empty sequence, or at an index past its end. -/
def Idle (type : DllNodeType) (xs : List α) : DllOp α → Prop
  | pushBack t data | pushFront t data | insert _ t data => data = none ∨ t ≠ type
  | popBack | popFront => xs = []
  | remove index => xs.length ≤ index.toNat

end DllOp

/-- **The list represents a sequence**: `size` is its length, the nodes from
`first` along `next` hold it in order, those from `last` along `prev` hold it
reversed, and either pointer is `NULL` exactly where it is empty. -/
structure Represents (l : Dllist α) (xs : List α) : Prop where
  size_eq : l.size.toNat = xs.length
  forward : l.heap.dataAlong Cell.next l.size.toNat l.first = .ok xs
  backward : l.heap.dataAlong Cell.prev l.size.toNat l.last = .ok xs.reverse
  first_iff : l.first = none ↔ xs = []
  last_iff : l.last = none ↔ xs = []

/-! ## A call -/

section Call

variable {l : Dllist α} {xs : List (ℕ × α)} {p q : Option ℕ}

theorem Shape.represents (hs : Shape l xs p q) (hlen : xs.length < 2 ^ 31) :
    Represents l (xs.map Prod.snd) := by
  have hsize := hs.toNat_size hlen
  rcases xs.eq_nil_or_concat' with rfl | ⟨ys, y, rfl⟩
  · exact ⟨hsize, by rw [hsize]; rfl, by rw [hsize]; rfl, iff_of_true hs.first_eq rfl,
      iff_of_true hs.last_eq rfl⟩
  · have hne : ys ++ [y] ≠ [] := by simp
    have hlast : l.last = lastAddr p (ys ++ [y]) := by
      rw [hs.last_eq, lastAddr_concat, lastAddr_concat]
    have hmap : (ys ++ [y]).map Prod.snd ≠ [] := by simp
    refine ⟨by rw [hsize, List.length_map], ?_, ?_, iff_of_false (hs.first_ne_none hne) hmap,
      iff_of_false ?_ hmap⟩
    · rw [hsize, hs.first_eq_headAddr hne]
      exact dataAlong_next_linked hs.linked
    · rw [hsize, hlast]
      exact dataAlong_prev_linked hs.linked
    · rw [hlast, lastAddr_concat]
      exact Option.some_ne_none _

/-- An added datum of the right tag. -/
theorem addSeq_some (type : DllNodeType) (d : α) (add : α → List α) (ds : List α) :
    DllOp.addSeq type type (some d) add ds = (.flag true, add d) := if_pos rfl

theorem addSeq_idle {type t : DllNodeType} {data : Option α} (h : data = none ∨ t ≠ type)
    (add : α → List α) (ds : List α) :
    DllOp.addSeq type t data add ds = (.flag false, ds) := by
  cases data with
  | none => rfl
  | some d => exact if_neg (h.resolve_left (Option.some_ne_none d))

/-- What is added otherwise is a datum of the list's tag. -/
theorem exists_of_not_idle {type t : DllNodeType} {data : Option α}
    (h : ¬ (data = none ∨ t ≠ type)) : ∃ d, data = some d ∧ t = type := by
  obtain ⟨hdata, htype⟩ := not_or.mp h
  obtain ⟨d, hd⟩ := Option.ne_none_iff_exists'.mp hdata
  exact ⟨d, hd, not_not.mp htype⟩

/-- Without a datum of the list's tag nothing is added. -/
theorem run_idle_add {t : DllNodeType} {data : Option α} (h : data = none ∨ t ≠ l.type)
    (index : UInt64) :
    (DllOp.pushBack t data).run l = .ok (.flag false, l)
      ∧ (DllOp.pushFront t data).run l = .ok (.flag false, l)
      ∧ (DllOp.insert index t data).run l = .ok (.flag false, l) := by
  cases data with
  | none => exact ⟨rfl, rfl, rfl⟩
  | some d =>
    have htag : t ≠ l.type := h.resolve_left (Option.some_ne_none d)
    simp only [DllOp.run, dllistPushBack, dllistPushFront, dllistInsert, if_pos htag]
    exact ⟨rfl, rfl, rfl⟩

/-- **A call that is to do nothing does nothing.** -/
theorem Shape.run_idle (hs : Shape l xs p q) (hlen : xs.length < 2 ^ 31) {op : DllOp α}
    (h : op.Idle l.type (xs.map Prod.snd)) :
    op.run l = .ok ((op.onSeq l.type (xs.map Prod.snd)).1, l)
      ∧ (op.onSeq l.type (xs.map Prod.snd)).2 = xs.map Prod.snd := by
  cases op with
  | pushBack t data =>
    rw [DllOp.onSeq, addSeq_idle h]
    exact ⟨(run_idle_add h 0).1, rfl⟩
  | pushFront t data =>
    rw [DllOp.onSeq, addSeq_idle h]
    exact ⟨(run_idle_add h 0).2.1, rfl⟩
  | insert index t data =>
    rw [DllOp.onSeq, addSeq_idle h]
    exact ⟨(run_idle_add h index).2.2, rfl⟩
  | popBack =>
    have hnil : xs = [] := List.map_eq_nil_iff.mp h
    rw [DllOp.run, dllistPopBack_of_isEmpty (hs.isEmpty_iff.mpr hnil), hnil]
    exact ⟨rfl, rfl⟩
  | popFront =>
    have hnil : xs = [] := List.map_eq_nil_iff.mp h
    rw [DllOp.run, dllistPopFront_of_isEmpty (hs.isEmpty_iff.mpr hnil), hnil]
    exact ⟨rfl, rfl⟩
  | remove index =>
    replace h : (xs.map Prod.snd).length ≤ index.toNat := h
    rw [DllOp.onSeq, List.getElem?_eq_none h, List.eraseIdx_of_length_le h]
    refine ⟨?_, rfl⟩
    rw [List.length_map] at h
    rw [DllOp.run]
    cases xs with
    | nil =>
      rw [dllistRemove_of_isEmpty (hs.isEmpty_iff.mpr rfl)]
      rfl
    | cons x xs =>
      have hsize := hs.toNat_size hlen
      have hpos : index > 0 := UInt64.lt_iff_toNat_lt.mpr (Nat.lt_of_lt_of_le (Nat.succ_pos _) h)
      have hge : index ≥ l.size := UInt64.le_iff_toNat_le.mpr (hsize.trans_le h)
      rw [dllistRemove_past ⟨hpos, hge⟩]
      rfl

/-- **A call returns what it returns of the sequence, and leaves the list of
the new sequence.** -/
theorem Shape.run_onSeq (hs : Shape l xs p q) (hlen : xs.length < 2 ^ 31) (op : DllOp α) :
    ∃ l' xs' p' q', op.run l = .ok ((op.onSeq l.type (xs.map Prod.snd)).1, l')
      ∧ Shape l' xs' p' q' ∧ xs'.map Prod.snd = (op.onSeq l.type (xs.map Prod.snd)).2
      ∧ l'.type = l.type := by
  by_cases hidle : op.Idle l.type (xs.map Prod.snd)
  · obtain ⟨hrun, hsame⟩ := hs.run_idle hlen hidle
    exact ⟨l, xs, p, q, hrun, hs, hsame.symm, rfl⟩
  · cases op with
    | pushBack t data =>
      obtain ⟨d, rfl, rfl⟩ := exists_of_not_idle hidle
      obtain ⟨l', hpush, hs', htype', -⟩ := hs.pushBack d
      rw [DllOp.run, hpush, DllOp.onSeq, addSeq_some]
      exact ⟨l', _, _, _, rfl, hs', List.map_append, htype'⟩
    | pushFront t data =>
      obtain ⟨d, rfl, rfl⟩ := exists_of_not_idle hidle
      obtain ⟨l', hpush, hs', htype', -⟩ := hs.pushFront d
      rw [DllOp.run, hpush, DllOp.onSeq, addSeq_some]
      exact ⟨l', _, _, _, rfl, hs', rfl, htype'⟩
    | insert index t data =>
      obtain ⟨d, rfl, rfl⟩ := exists_of_not_idle hidle
      obtain ⟨l', p', q', hinsert, hs', htype', -⟩ := hs.insert hlen index d
      rw [DllOp.run, hinsert, DllOp.onSeq, addSeq_some]
      refine ⟨l', _, p', q', rfl, hs', ?_, htype'⟩
      rw [List.map_insertIdx, List.length_map]
    | popBack =>
      obtain ⟨ys, y, rfl⟩ := xs.eq_nil_or_concat'.resolve_left
        fun h => hidle (h ▸ rfl)
      obtain ⟨l', hpop, hs', htype', -⟩ := hs.popBack
      rw [DllOp.run, hpop]
      refine ⟨l', ys, p, none, ?_, hs', ?_, htype'⟩
      · simp [DllOp.onSeq, Except.map]
      · simp [DllOp.onSeq]
    | popFront =>
      cases xs with
      | nil => exact absurd rfl hidle
      | cons x xs =>
        obtain ⟨l', hpop, hs', htype', -⟩ := hs.popFront
        rw [DllOp.run, hpop]
        exact ⟨l', xs, none, q, rfl, hs', rfl, htype'⟩
    | remove index =>
      have hlt : index.toNat < xs.length := by
        rw [← List.length_map (f := Prod.snd)]
        exact Nat.lt_of_not_le hidle
      obtain ⟨l', p', q', hremove, hs', -, htype', -⟩ := hs.removeAt hlen hlt
      rw [UInt64.ofNat_toNat] at hremove
      rw [DllOp.run, hremove]
      refine ⟨l', _, p', q', ?_, hs', ?_, htype'⟩
      · simp [DllOp.onSeq, Except.map, hlt]
      · exact (List.eraseIdx_map _ _ _).symm

end Call

/-! ## Calls -/

/-- **Calls on a list are calls on its sequence**, where this stays shorter than
`2 ^ 31`. -/
theorem Shape.runAll_onSeqAll {l : Dllist α} {xs : List (ℕ × α)} {p q : Option ℕ}
    (hs : Shape l xs p q) (ops : List (DllOp α))
    (hlen : ∀ k ≤ ops.length,
      (DllOp.onSeqAll l.type (ops.take k) (xs.map Prod.snd)).2.length < 2 ^ 31) :
    ∃ l' xs' p' q',
      DllOp.runAll ops l = .ok ((DllOp.onSeqAll l.type ops (xs.map Prod.snd)).1, l')
      ∧ Shape l' xs' p' q' ∧ xs'.map Prod.snd = (DllOp.onSeqAll l.type ops (xs.map Prod.snd)).2
      ∧ l'.type = l.type := by
  induction ops generalizing l xs p q with
  | nil => exact ⟨l, xs, p, q, rfl, hs, rfl, rfl⟩
  | cons op ops ih =>
    have hlen₀ : xs.length < 2 ^ 31 := by
      have h := hlen 0 (Nat.zero_le _)
      rwa [List.take_zero, DllOp.onSeqAll, List.length_map] at h
    obtain ⟨l₁, xs₁, p₁, q₁, hrun, hs₁, hxs₁, htype₁⟩ := hs.run_onSeq hlen₀ op
    obtain ⟨l', xs', p', q', hrunAll, hs', hxs', htype'⟩ := ih hs₁ fun k hk => by
      rw [htype₁, hxs₁]
      exact hlen (k + 1) (Nat.succ_le_succ hk)
    rw [htype₁, hxs₁] at hrunAll hxs'
    refine ⟨l', xs', p', q', ?_, hs', hxs', htype'.trans htype₁⟩
    rw [DllOp.runAll, hrun]
    show (DllOp.runAll ops l₁ >>= fun x => _) = _
    rw [hrunAll]
    rfl

/-- **The list refines a sequence.** After any calls on a new list, along which
the sequence is shorter than `2 ^ 31`, the results are those of the sequence,
the list represents it, and a further call that is to do nothing does nothing. -/
theorem runAll_refines (type : DllNodeType) (junk : ℕ → Option ℕ × Option ℕ)
    (ops : List (DllOp α))
    (hlen : ∀ k ≤ ops.length, (DllOp.onSeqAll type (ops.take k) []).2.length < 2 ^ 31) :
    ∃ l, DllOp.runAll ops (newDllist type junk) = .ok ((DllOp.onSeqAll type ops []).1, l)
      ∧ Represents l (DllOp.onSeqAll type ops []).2
      ∧ ∀ op : DllOp α, op.Idle type (DllOp.onSeqAll type ops []).2 →
        op.run l = .ok ((op.onSeq type (DllOp.onSeqAll type ops []).2).1, l) := by
  obtain ⟨l, xs, p, q, hrun, hs, hxs, htype⟩ :=
    (shape_newDllist type junk none none).runAll_onSeqAll ops hlen
  replace htype : l.type = type := htype
  have hsmall : xs.length < 2 ^ 31 := by
    have h := hlen ops.length le_rfl
    rw [List.take_length] at h
    rw [← List.length_map (f := Prod.snd), hxs]
    exact h
  refine ⟨l, hrun, ?_, fun op hidle => ?_⟩
  · have hrep := hs.represents hsmall
    rwa [hxs] at hrep
  · have hidle' : op.Idle l.type (xs.map Prod.snd) := by
      rw [hxs, htype]
      exact hidle
    have hrun' := (hs.run_idle hsmall hidle').1
    rwa [hxs, htype] at hrun'

/-- Four are put in, one of them in between, and it is taken out again. -/
theorem runAll_refines_five :
    ∃ l, DllOp.runAll [.pushBack .int (some 1), .pushBack .int (some 2),
        .pushFront .int (some 3), .insert 2 .int (some 4), .remove 2]
        (newDllist .int fun _ => (some 7, some 8))
        = .ok ([.flag true, .flag true, .flag true, .flag true, .datum (some 4)], l)
      ∧ Represents l [3, 1, 2] := by
  obtain ⟨l, hrun, hrep, -⟩ := runAll_refines .int (fun _ => (some 7, some 8))
    [.pushBack .int (some 1), .pushBack .int (some 2), .pushFront .int (some 3),
      .insert 2 .int (some 4), .remove 2] (by decide)
  exact ⟨l, hrun, hrep⟩

end Miaouchat
