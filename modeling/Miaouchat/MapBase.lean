import Miaouchat.Lib.Links
import Miaouchat.Map

/-!
# The hash map in memory

`map.c` as it goes about its pointers: an array of links to the first node of
each bucket, nodes in memory that `malloc` gives out and `free` takes back, and
links that `map_getref` returns pointers to. Following a link to a node that is
not there, or writing to one, is a fault.

`Laid` says how the nodes lie in memory: the chain of each bucket, by the
addresses of its nodes. `Mirrors` is `Laid` for a map, where these nodes are
all there is; so a node that had left its chain and was not freed would be seen.

Each operation does in memory what the operation of `Miaouchat.Map` of the same
name does to the buckets. That is shown here of `map_get` and `map_remove`
(`get_refines`, `remove_refines`).
-/

namespace Miaouchat

variable {β : Type}

/-- `map_base_t`, and the memory that the nodes are in. `malloc` gives out the
address `used`, and leaves `junk` in the link of the node. -/
structure MapBase (β : Type) where
  buckets : List (Option ℕ)
  nnodes : ℕ
  heap : Links (MapNode β)
  used : ℕ
  junk : ℕ → Option ℕ

/-- A `map_node_t **`: the link in a bucket, or in the node at an address. -/
inductive LinkRef
  | bucket (i : ℕ)
  | next (a : ℕ)
  deriving DecidableEq, Repr

namespace MapBase

/-- `map_init`, in a memory with no nodes. -/
def init (junk : ℕ → Option ℕ) : MapBase β where
  buckets := []
  nnodes := 0
  heap := fun _ => none
  used := 0
  junk := junk

/-- Read the link a reference points to. -/
def load (m : MapBase β) : LinkRef → Except Fault (Option ℕ)
  | .bucket i =>
    match m.buckets[i]? with
    | none => .error .wild
    | some p => .ok p
  | .next a => do
    let c ← m.heap.deref (some a)
    return c.next

/-- Write the link a reference points to. -/
def store (m : MapBase β) (p : Option ℕ) : LinkRef → Except Fault (MapBase β)
  | .bucket i =>
    if i < m.buckets.length then .ok { m with buckets := m.buckets.set i p }
    else .error .wild
  | .next a => do
    let h ← m.heap.setNext (some a) p
    return { m with heap := h }

/-- The loop of `map_getref`, from the link `r`, with a bound on its rounds. -/
def getrefLoop (m : MapBase β) (key : List Char) : ℕ → LinkRef → Except Fault (Option LinkRef)
  | 0, _ => .error .loop
  | n + 1, r => do
    let p ← m.load r
    match p with
    | none => return none
    | some a =>
      let c ← m.heap.deref (some a)
      if c.data.hasKey key then return some r
      else getrefLoop m key n (.next a)

/-- `map_getref`. No more nodes can be gone through than addresses were given
out. -/
def getref (m : MapBase β) (key : List Char) : Except Fault (Option LinkRef) :=
  if m.buckets.length > 0 then
    m.getrefLoop key (m.used + 1) (.bucket (mapBucketidx m.buckets.length (mapHash key)))
  else .ok none

/-- `map_get`. -/
def get (m : MapBase β) (key : List Char) : Except Fault (Option β) := do
  let ref ← m.getref key
  match ref with
  | none => return none
  | some r =>
    let p ← m.load r
    let c ← m.heap.deref p
    return some c.data.value

/-- `map_newnode`: a pointer to a new node of the key, if `malloc` gives one. -/
def newnode (m : MapBase β) (key : List Char) (value : β) (malloc : Bool) :
    Option ℕ × MapBase β :=
  if malloc then
    (some m.used, { m with
      heap := m.heap.set m.used (some ⟨m.junk m.used, ⟨mapHash key, key, value⟩⟩)
      used := m.used + 1 })
  else (none, m)

/-- `map_addnode`. -/
def addnode (a : ℕ) (m : MapBase β) : Except Fault (MapBase β) := do
  let c ← m.heap.deref (some a)
  let n := mapBucketidx m.buckets.length c.data.hash
  let p ← m.load (.bucket n)
  let h ← m.heap.setNext (some a) p
  { m with heap := h }.store (some a) (.bucket n)

/-- A round of the first loop of `map_resize`: the node at `a` is chained before
those chained so far. -/
def chainNode (a : ℕ) (s : Option ℕ × Links (MapNode β)) :
    Except Fault (Option ℕ × Links (MapNode β)) := do
  let h ← s.2.setNext (some a) s.1
  return (some a, h)

/-- The rounds for one bucket. -/
def chainBucket (used : ℕ) (s : Option ℕ × Links (MapNode β)) (node : Option ℕ) :
    Except Fault (Option ℕ × Links (MapNode β)) :=
  whileNode Prod.snd chainNode used node s

/-- `map_resize`: `0`, or `-1` where `realloc` fails. The buckets are gone
through from the last to the first. There is an array of buckets when there is a
bucket. -/
def resize (m : MapBase β) (nbuckets : ℕ) (realloc : Bool) : Except Fault (ℤ × MapBase β) := do
  let (nodes, h) ← m.buckets.reverse.foldlM (chainBucket m.used) (none, m.heap)
  let nbuckets := if realloc then nbuckets else m.buckets.length
  let m ←
    if nbuckets > 0 then
      whileNode MapBase.heap addnode m.used nodes
        { m with heap := h, buckets := List.replicate nbuckets none }
    else pure { m with heap := h }
  return (if realloc then 0 else -1, m)

/-- The room `map_set` makes before it adds a node. -/
def makeRoom (m : MapBase β) (realloc : Bool) : Except Fault (ℤ × MapBase β) :=
  if m.nnodes ≥ m.buckets.length then
    m.resize (if m.buckets.length > 0 then m.buckets.length <<< 1 else 1) realloc
  else .ok (0, m)

/-- `map_set`: `0`, or `-1` where there is no memory for the key. -/
def set (m : MapBase β) (key : List Char) (value : β) (malloc realloc : Bool) :
    Except Fault (ℤ × MapBase β) := do
  let ref ← m.getref key
  match ref with
  | some r =>
    let p ← m.load r
    let h ← m.heap.write p fun c => { c with data := { c.data with value := value } }
    return (0, { m with heap := h })
  | none =>
    let (node, m) := m.newnode key value malloc
    match node with
    | none => return (-1, m)
    | some a =>
      let (err, m) ← m.makeRoom realloc
      if err ≠ 0 then
        let h ← m.heap.free (some a)
        return (-1, { m with heap := h })
      else
        let m ← m.addnode a
        return (0, { m with nnodes := m.nnodes + 1 })

/-- `map_remove`. -/
def remove (m : MapBase β) (key : List Char) : Except Fault (MapBase β) := do
  let ref ← m.getref key
  match ref with
  | none => return m
  | some r =>
    let node ← m.load r
    let c ← m.heap.deref node
    let m ← m.store c.next r
    let h ← m.heap.free node
    return { m with heap := h, nnodes := m.nnodes - 1 }

/-- The rounds of `map_deinit` for one bucket. -/
def freeBucket (used : ℕ) (h : Links (MapNode β)) (node : Option ℕ) :
    Except Fault (Links (MapNode β)) :=
  whileNode id (fun a h => h.free (some a)) used node h

/-- `map_deinit`: what is left in memory. -/
def deinit (m : MapBase β) : Except Fault (Links (MapNode β)) :=
  m.buckets.reverse.foldlM (freeBucket m.used) m.heap

end MapBase

/-! ## How the nodes lie in memory -/

/-- **The chain of each bucket** is in memory, and no node is in two places. -/
structure Laid (h : Links (MapNode β)) (buckets : List (Option ℕ))
    (xss : List (List (ℕ × MapNode β))) : Prop where
  heads : buckets = xss.map (headAddr none)
  chained : ∀ xs ∈ xss, Chained h xs none
  nodup : (xss.flatten.map Prod.fst).Nodup

/-- **The nodes of a map**: there are no others, and the addresses not given out
yet are free. -/
structure Mirrors (m : MapBase β) (xss : List (List (ℕ × MapNode β))) : Prop where
  laid : Laid m.heap m.buckets xss
  live : ∀ a, m.heap a ≠ none ↔ a ∈ xss.flatten.map Prod.fst
  fresh : ∀ a, m.used ≤ a → m.heap a = none

/-- **The map in memory is the map `M`.** -/
def Refines (m : MapBase β) (M : Map β) : Prop :=
  ∃ xss, Mirrors m xss ∧ xss.map (List.map Prod.snd) = M.buckets ∧ m.nnodes = M.nnodes

theorem refines_init (junk : ℕ → Option ℕ) : Refines (MapBase.init junk : MapBase β) mapInit :=
  ⟨[], ⟨⟨rfl, fun _ => nofun, List.nodup_nil⟩, fun a => by simp [MapBase.init], fun _ _ => rfl⟩,
    rfl, rfl⟩

/-- The key of the node at an address. -/
def MapBase.keyOf (m : MapBase β) (a : ℕ) : Option (List Char) :=
  (m.heap a).map fun c => c.data.key

/-- Where a node is, and its key. -/
def tagOf (x : ℕ × MapNode β) : ℕ × List Char := (x.1, x.2.key)

/-- **The nodes in memory are those of the map**, as far as keys go. -/
theorem Mirrors.keyOf_eq_some {m : MapBase β} {xss : List (List (ℕ × MapNode β))}
    (hm : Mirrors m xss) {a : ℕ} {key : List Char} :
    m.keyOf a = some key ↔ (a, key) ∈ xss.flatten.map tagOf := by
  have hget : ∀ x ∈ xss.flatten, ∃ c, m.heap x.1 = some c ∧ c.data = x.2 := fun x hx => by
    obtain ⟨xs, hxs, hmem⟩ := List.mem_flatten.mp hx
    exact (hm.laid.chained xs hxs).get hmem
  rw [MapBase.keyOf, Option.map_eq_some_iff, List.mem_map]
  constructor
  · rintro ⟨c, hc, rfl⟩
    have hlive : m.heap a ≠ none := by
      rw [hc]
      exact nofun
    obtain ⟨x, hx, rfl⟩ := List.mem_map.mp ((hm.live a).mp hlive)
    obtain ⟨c', hc', hdata⟩ := hget x hx
    obtain rfl : c' = c := Option.some.inj (hc'.symm.trans hc)
    exact ⟨x, hx, by rw [tagOf, ← hdata]⟩
  · rintro ⟨x, hx, htag⟩
    obtain ⟨rfl, rfl⟩ := Prod.mk.inj htag
    obtain ⟨c, hc, hdata⟩ := hget x hx
    exact ⟨c, hc, by rw [hdata]⟩

/-- The reference to the link after the nodes of `us` in the bucket `i`. -/
def refOf (i : ℕ) (us : List (ℕ × MapNode β)) : LinkRef :=
  match us.getLast? with
  | none => .bucket i
  | some x => .next x.1

@[simp] theorem refOf_concat (i : ℕ) (us : List (ℕ × MapNode β)) (x : ℕ × MapNode β) :
    refOf i (us ++ [x]) = .next x.1 := by
  rw [refOf, List.getLast?_concat]

section Reading

variable {m : MapBase β} {xss : List (List (ℕ × MapNode β))} {i : ℕ}

/-- A chain is no longer than the addresses given out. -/
theorem Mirrors.length_le (hm : Mirrors m xss) {xs : List (ℕ × MapNode β)}
    (hxs : xs.Sublist xss.flatten) : xs.length ≤ m.used := by
  have hlt : ∀ a ∈ xs.map Prod.fst, a < m.used := by
    intro a ha
    by_contra hge
    exact (hm.live a).mpr ((hxs.map Prod.fst).subset ha) (hm.fresh a (not_lt.mp hge))
  have hcard := List.toFinset_card_of_nodup (hm.laid.nodup.sublist (hxs.map Prod.fst))
  rw [List.length_map] at hcard
  rw [← hcard, ← Finset.card_range m.used]
  exact Finset.card_le_card fun a ha => Finset.mem_range.mpr (hlt a (List.mem_toFinset.mp ha))

/-- **Reading a link** gives the first node after it. -/
theorem Laid.load (hm : Laid m.heap m.buckets xss) {us zs : List (ℕ × MapNode β)}
    (hi : xss[i]? = some (us ++ zs)) : m.load (refOf i us) = .ok (headAddr none zs) := by
  rcases us.eq_nil_or_concat' with rfl | ⟨us, x, rfl⟩
  · have hbucket : m.buckets[i]? = some (headAddr none zs) := by
      rw [hm.heads, List.getElem?_map, hi]
      rfl
    show (match m.buckets[i]? with
      | none => Except.error Fault.wild
      | some p => .ok p) = _
    rw [hbucket]
  · have hus := (chained_append.mp (hm.chained _ (List.mem_of_getElem? hi))).1
    have hx := (chained_append.mp hus).2.1
    rw [refOf_concat]
    show (m.heap.deref (some x.1) >>= fun c => pure c.next) = _
    rw [Links.deref_some hx]
    rfl

/-- The node a link leads to. -/
theorem Laid.deref (hm : Laid m.heap m.buckets xss) {us zs : List (ℕ × MapNode β)}
    {x : ℕ × MapNode β} (hi : xss[i]? = some (us ++ x :: zs)) :
    m.heap x.1 = some ⟨headAddr none zs, x.2⟩ :=
  (chained_append.mp (hm.chained _ (List.mem_of_getElem? hi))).2.1

/-- **The loop of `map_getref`** stops at the link to the first node of the key,
or at the end of the chain. -/
theorem Laid.getrefLoop (hm : Laid m.heap m.buckets xss) (key : List Char)
    {us zs : List (ℕ × MapNode β)} (hi : xss[i]? = some (us ++ zs)) {n : ℕ}
    (hn : zs.length < n) :
    (∃ vs x ws, zs = vs ++ x :: ws ∧ (∀ v ∈ vs, v.2.hasKey key = false) ∧ x.2.hasKey key = true
        ∧ m.getrefLoop key n (refOf i us) = .ok (some (refOf i (us ++ vs))))
      ∨ ((∀ z ∈ zs, z.2.hasKey key = false)
        ∧ m.getrefLoop key n (refOf i us) = .ok none) := by
  induction zs generalizing us n with
  | nil =>
    cases n with
    | zero => cases hn
    | succ n =>
      refine .inr ⟨fun _ => nofun, ?_⟩
      show (m.load (refOf i us)).bind _ = _
      rw [hm.load hi]
      rfl
  | cons z zs ih =>
    cases n with
    | zero => cases hn
    | succ n =>
      have hrun : m.getrefLoop key (n + 1) (refOf i us)
          = if z.2.hasKey key then .ok (some (refOf i us))
            else m.getrefLoop key n (.next z.1) := by
        show (m.load (refOf i us)).bind _ = _
        rw [hm.load hi]
        show (m.heap.deref (some z.1)).bind _ = _
        rw [Links.deref_some (hm.deref hi)]
        rfl
      rw [hrun]
      cases hz : z.2.hasKey key with
      | true => exact .inl ⟨[], z, zs, rfl, fun _ => nofun, hz, by rw [List.append_nil]; rfl⟩
      | false =>
        have hi' : xss[i]? = some ((us ++ [z]) ++ zs) := by rw [hi, List.append_assoc]; rfl
        have hrest := ih hi' (Nat.lt_of_succ_lt_succ hn)
        rw [refOf_concat] at hrest
        rcases hrest with ⟨vs, x, ws, rfl, hvs, hx, hloop⟩ | ⟨hzs, hloop⟩
        · refine .inl ⟨z :: vs, x, ws, rfl, fun v hv => ?_, hx, ?_⟩
          · rcases List.mem_cons.mp hv with rfl | hv
            · exact hz
            · exact hvs v hv
          · rw [List.append_assoc] at hloop
            exact hloop
        · refine .inr ⟨fun v hv => ?_, hloop⟩
          rcases List.mem_cons.mp hv with rfl | hv
          · exact hz
          · exact hzs v hv

end Reading

/-! ## Looking keys up -/

section Lookup

variable {m : MapBase β} {xss : List (List (ℕ × MapNode β))} {M : Map β}

/-- The nodes of the map are those in memory. -/
theorem nodes_eq (hM : xss.map (List.map Prod.snd) = M.buckets) :
    M.nodes = xss.flatten.map Prod.snd := by
  rw [Map.nodes, ← hM, List.map_flatten]

theorem mem_nodes_of_chain (hM : xss.map (List.map Prod.snd) = M.buckets) {i : ℕ}
    {us ws : List (ℕ × MapNode β)} {x : ℕ × MapNode β}
    (hi : xss[i]? = some (us ++ x :: ws)) : x.2 ∈ M.nodes := by
  rw [nodes_eq hM]
  exact List.mem_map_of_mem (List.mem_flatten.mpr ⟨_, List.mem_of_getElem? hi, by simp⟩)

/-- **`map_getref`** returns a pointer to the link to the node of the key. -/
theorem Mirrors.getref (hm : Mirrors m xss) (hM : xss.map (List.map Prod.snd) = M.buckets)
    (key : List Char) :
    (∃ i us x ws, xss[i]? = some (us ++ x :: ws) ∧ x.2.key = key
        ∧ m.getref key = .ok (some (refOf i us)))
      ∨ (mapGetref M key = none ∧ m.getref key = .ok none) := by
  have hlength : m.buckets.length = M.buckets.length := by
    rw [hm.laid.heads, ← hM, List.length_map, List.length_map]
  by_cases hpos : 0 < m.buckets.length
  · have hlt := mapBucketidx_lt hpos (mapHash key)
    rw [hm.laid.heads, List.length_map] at hlt
    obtain ⟨xs, hi⟩ : ∃ xs, xss[mapBucketidx xss.length (mapHash key)]? = some xs :=
      ⟨_, List.getElem?_eq_getElem hlt⟩
    have hlen : xss.length = m.buckets.length := by rw [hm.laid.heads, List.length_map]
    have hxs := hm.length_le (List.sublist_flatten_of_mem (List.mem_of_getElem? hi))
    have hrun : m.getref key = m.getrefLoop key (m.used + 1)
        (refOf (mapBucketidx xss.length (mapHash key)) ([] : List (ℕ × MapNode β))) := by
      rw [hlen]
      exact if_pos hpos
    rw [hrun]
    rcases hm.laid.getrefLoop key (show xss[_]? = some ([] ++ xs) from hi)
      (Nat.lt_succ_of_le hxs) with
      ⟨us, x, ws, rfl, -, hx, hloop⟩ | ⟨hnone, hloop⟩
    · exact .inl ⟨_, us, x, ws, hi, (MapNode.hasKey_iff.mp hx).2, hloop⟩
    · refine .inr ⟨?_, hloop⟩
      have hchain : M.chain key = xs.map Prod.snd := by
        rw [Map.chain, Map.nbuckets, ← hlength, ← hlen, ← hM,
          List.getD_eq_getElem?_getD, List.getElem?_map, hi]
        rfl
      unfold mapGetref
      rw [hchain]
      split
      · rw [List.find?_eq_none]
        intro nd hnd
        obtain ⟨x, hx, rfl⟩ := List.mem_map.mp hnd
        rw [hnone x hx]
        exact Bool.false_ne_true
      · rfl
  · refine .inr ⟨if_neg ?_, if_neg hpos⟩
    rwa [Map.nbuckets, ← hlength]

/-- **`map_get` in memory** returns what is bound to the key. -/
theorem get_refines (hm : Refines m M) (key : List Char) : m.get key = .ok (mapGet M key) := by
  obtain ⟨xss, hrep, hM, -⟩ := hm
  rcases hrep.getref hM key with ⟨i, us, x, ws, hi, hkey, hrun⟩ | ⟨hnone, hrun⟩
  · have hget : mapGet M key = some x.2.value :=
      (mapGet_eq_some_iff M key _).mpr ⟨x.2, mem_nodes_of_chain hM hi, hkey, rfl⟩
    rw [hget]
    show (m.getref key).bind _ = _
    rw [hrun]
    show (m.load (refOf i us)).bind _ = _
    rw [hrep.laid.load hi]
    show (m.heap.deref (some x.1)).bind _ = _
    rw [Links.deref_some (hrep.laid.deref hi)]
    rfl
  · have hget : mapGet M key = none := by rw [mapGet, hnone]; rfl
    rw [hget]
    show (m.getref key).bind _ = _
    rw [hrun]
    rfl

end Lookup

/-! ## One node among the others -/

section Split

variable {A B : List (List (ℕ × MapNode β))} {us ws : List (ℕ × MapNode β)}
  {x : ℕ × MapNode β}

/-- A node, and the others. -/
theorem flatten_split_perm :
    (A ++ (us ++ x :: ws) :: B).flatten.Perm (x :: (us ++ ws ++ (A ++ B).flatten)) :=
  (List.perm_middle.flatten).trans (List.perm_middle.append_right _)

theorem flatten_rest_perm :
    (A ++ (us ++ ws) :: B).flatten.Perm (us ++ ws ++ (A ++ B).flatten) :=
  List.perm_middle.flatten

/-- A bucket is in its place. -/
theorem exists_split {xss : List (List (ℕ × MapNode β))} {i : ℕ} {xs : List (ℕ × MapNode β)}
    (hi : xss[i]? = some xs) : ∃ A B, xss = A ++ xs :: B ∧ A.length = i := by
  obtain ⟨hlt, rfl⟩ := List.getElem?_eq_some_iff.mp hi
  refine ⟨xss.take i, xss.drop (i + 1), ?_, List.length_take_of_le hlt.le⟩
  rw [List.getElem_cons_drop, List.take_append_drop]

/-- **No other node has its key**, in a map. -/
theorem key_ne_of_split {M : Map β}
    (hM : (A ++ (us ++ x :: ws) :: B).map (List.map Prod.snd) = M.buckets)
    {y : ℕ × MapNode β} (hy : y ∈ us ++ ws ++ (A ++ B).flatten) : y.2.key ≠ x.2.key := by
  have hnodup := M.nodup_keys
  rw [Map.keys, nodes_eq hM, List.map_map,
    (flatten_split_perm.map (MapNode.key ∘ Prod.snd)).nodup_iff, List.map_cons,
    List.nodup_cons] at hnodup
  exact fun h => hnodup.1 (List.mem_map.mpr ⟨y, hy, h⟩)

/-- What is done to the node of a key, in each bucket of a map. -/
theorem buckets_map_split {M : Map β}
    (hM : (A ++ (us ++ x :: ws) :: B).map (List.map Prod.snd) = M.buckets)
    {f : List (MapNode β) → List (MapNode β)}
    (hf : ∀ ys ys', f (ys ++ ys') = f ys ++ f ys')
    (hid : ∀ ys : List (ℕ × MapNode β), (∀ y ∈ ys, y.2.key ≠ x.2.key) →
      f (ys.map Prod.snd) = ys.map Prod.snd) :
    M.buckets.map f
      = A.map (List.map Prod.snd)
        ++ (us.map Prod.snd ++ f [x.2] ++ ws.map Prod.snd) :: B.map (List.map Prod.snd) := by
  have hne := fun {y} => key_ne_of_split (y := y) hM
  have hus : ∀ y ∈ us, y.2.key ≠ x.2.key := fun y hy => hne (by simp [hy])
  have hws : ∀ y ∈ ws, y.2.key ≠ x.2.key := fun y hy => hne (by simp [hy])
  have hothers : ∀ C : List (List (ℕ × MapNode β)), C ⊆ A ++ B →
      (C.map (List.map Prod.snd)).map f = C.map (List.map Prod.snd) := by
    intro C hC
    rw [List.map_map]
    refine List.map_congr_left fun ys hys => hid ys fun y hy => hne ?_
    exact List.mem_append_right _ (List.mem_flatten.mpr ⟨ys, hC hys, hy⟩)
  have hbucket : f ((us ++ x :: ws).map Prod.snd)
      = us.map Prod.snd ++ f [x.2] ++ ws.map Prod.snd := by
    rw [List.map_append, List.map_cons, ← List.singleton_append, hf, hf, hid us hus,
      hid ws hws, List.append_assoc]
  rw [← hM, List.map_append, List.map_append, List.map_cons, List.map_cons,
    hothers A (List.subset_append_left A B), hothers B (List.subset_append_right A B), hbucket]

end Split

/-! ## Writing -/

section Writing

variable {A B : List (List (ℕ × MapNode β))} {us ws xs xs' : List (ℕ × MapNode β)}
  {x : ℕ × MapNode β} {h h' : Links (MapNode β)} {buckets : List (Option ℕ)}

/-- **One bucket is changed**, and memory only beside the others. -/
theorem Laid.change (hl : Laid h buckets (A ++ xs :: B)) (hxs' : Chained h' xs' none)
    (hsame : ∀ a ∈ (A ++ B).flatten.map Prod.fst, h' a = h a)
    (hnodup : ((xs' ++ (A ++ B).flatten).map Prod.fst).Nodup) :
    Laid h' ((A ++ xs' :: B).map (headAddr none)) (A ++ xs' :: B) where
  heads := rfl
  chained ys hys := by
    rw [List.perm_middle.mem_iff] at hys
    rcases List.mem_cons.mp hys with rfl | hys
    · exact hxs'
    · refine (hl.chained ys (List.perm_middle.mem_iff.mpr (List.mem_cons_of_mem _ hys))).frame
        fun a ha => hsame a ?_
      obtain ⟨y, hy, rfl⟩ := List.mem_map.mp ha
      exact List.mem_map_of_mem (List.mem_flatten.mpr ⟨ys, hys, hy⟩)
  nodup := (List.perm_middle.flatten.map Prod.fst).nodup_iff.mpr hnodup

/-- The addresses of the nodes are distinct, one node before the others. -/
theorem Laid.nodup_split (hl : Laid h buckets (A ++ (us ++ x :: ws) :: B)) :
    x.1 ∉ (us ++ ws ++ (A ++ B).flatten).map Prod.fst
      ∧ ((us ++ ws ++ (A ++ B).flatten).map Prod.fst).Nodup := by
  have hnodup := (flatten_split_perm.map Prod.fst).nodup_iff.mp hl.nodup
  rw [List.map_cons] at hnodup
  exact List.nodup_cons.mp hnodup

/-- **The `memcpy` over the value of a node.** -/
theorem Laid.write (hl : Laid h buckets (A ++ (us ++ x :: ws) :: B)) (d : MapNode β) :
    Laid (h.set x.1 (some ⟨headAddr none ws, d⟩)) buckets
      (A ++ (us ++ (x.1, d) :: ws) :: B) := by
  obtain ⟨hx, hnodup⟩ := hl.nodup_split
  have hnot : ∀ ys : List (ℕ × MapNode β), ys ⊆ us ++ ws ++ (A ++ B).flatten →
      x.1 ∉ ys.map Prod.fst := fun ys hys hmem => hx ((List.map_subset _ hys) hmem)
  have hus := hnot us fun y hy => by simp [hy]
  have hws := hnot ws fun y hy => by simp [hy]
  have hAB := hnot (A ++ B).flatten (List.subset_append_right _ _)
  obtain ⟨hcus, hcx⟩ := chained_append.mp (hl.chained (us ++ x :: ws) (by simp))
  have hheads : buckets = (A ++ (us ++ (x.1, d) :: ws) :: B).map (headAddr none) := by
    rw [hl.heads, List.map_append, List.map_append, List.map_cons, List.map_cons,
      headAddr_append, headAddr_append]
    rfl
  rw [hheads]
  refine hl.change (chained_append.mpr ⟨hcus.set hus _, hcx.2.push hws d⟩)
    (fun a ha => Links.set_of_ne fun heq => hAB (heq ▸ ha)) ?_
  have hperm : ((us ++ (x.1, d) :: ws) ++ (A ++ B).flatten).Perm
      ((x.1, d) :: (us ++ ws ++ (A ++ B).flatten)) := List.perm_middle.append_right _
  rw [(hperm.map Prod.fst).nodup_iff, List.map_cons]
  exact List.nodup_cons.mpr ⟨hx, hnodup⟩

theorem Laid.frame {xss : List (List (ℕ × MapNode β))} (hl : Laid h buckets xss)
    (hsame : ∀ a ∈ xss.flatten.map Prod.fst, h' a = h a) : Laid h' buckets xss :=
  ⟨hl.heads, fun ys hys => (hl.chained ys hys).frame fun a ha => hsame a
    (((List.sublist_flatten_of_mem hys).map Prod.fst).subset ha), hl.nodup⟩

/-- **The node after `us` leaves its chain**: the link to it is made to lead past
it. -/
theorem Laid.store {m : MapBase β} (hl : Laid m.heap m.buckets (A ++ (us ++ x :: ws) :: B)) :
    ∃ h bs, m.store (headAddr none ws) (refOf A.length us)
        = .ok { m with heap := h, buckets := bs }
      ∧ Laid h bs (A ++ (us ++ ws) :: B) ∧ ∀ a, h a = none ↔ m.heap a = none := by
  obtain ⟨-, hnodup⟩ := hl.nodup_split
  have hchain := hl.chained (us ++ x :: ws) (by simp)
  rcases us.eq_nil_or_concat' with rfl | ⟨us, y, rfl⟩
  · refine ⟨m.heap, m.buckets.set A.length (headAddr none ws), if_pos ?_, ?_, fun _ => Iff.rfl⟩
    · rw [hl.heads]
      simp
    · have hheads : m.buckets.set A.length (headAddr none ws)
          = (A ++ ([] ++ ws) :: B).map (headAddr none) := by
        rw [hl.heads]
        simp
      rw [hheads]
      exact hl.change hchain.2 (fun _ _ => rfl) hnodup
  · have hy : m.heap y.1 = some ⟨some x.1, y.2⟩ := by
      rw [List.append_assoc] at hchain
      exact (chained_append.mp hchain).2.1
    refine ⟨m.heap.set y.1 (some ⟨headAddr none ws, y.2⟩), m.buckets, ?_, ?_, fun a => ?_⟩
    · rw [refOf_concat]
      show (m.heap.setNext (some y.1) _).bind _ = _
      rw [Links.setNext_some hy]
      rfl
    · have hl' : Laid m.heap m.buckets (A ++ (us ++ y :: (x :: ws)) :: B) := by
        rwa [List.append_assoc] at hl
      have hnodup' : ((us ++ y :: ws ++ (A ++ B).flatten).map Prod.fst).Nodup := by
        rwa [List.append_assoc us [y] ws] at hnodup
      have hperm : (us ++ y :: ws ++ (A ++ B).flatten).Perm
          (y :: (us ++ ws ++ (A ++ B).flatten)) := List.perm_middle.append_right _
      have hynot := (hperm.map Prod.fst).nodup_iff.mp hnodup'
      rw [List.map_cons, List.nodup_cons] at hynot
      have hnot : ∀ ys : List (ℕ × MapNode β), ys ⊆ us ++ ws ++ (A ++ B).flatten →
          y.1 ∉ ys.map Prod.fst := fun ys hys hmem => hynot.1 ((List.map_subset _ hys) hmem)
      obtain ⟨hcus, hcy⟩ := chained_append.mp (hl'.chained (us ++ y :: (x :: ws)) (by simp))
      have hheads : m.buckets = (A ++ (us ++ [y] ++ ws) :: B).map (headAddr none) := by
        rw [hl'.heads, List.map_append, List.map_append, List.map_cons, List.map_cons,
          List.append_assoc, headAddr_append, headAddr_append]
        rfl
      rw [hheads]
      refine hl'.change ?_ (fun a ha => Links.set_of_ne fun heq =>
        hnot (A ++ B).flatten (List.subset_append_right _ _) (heq ▸ ha)) hnodup
      rw [List.append_assoc]
      exact chained_append.mpr ⟨hcus.set (hnot us fun z hz => by simp [hz]) _,
        hcy.2.2.push (hnot ws fun z hz => by simp [hz]) y.2⟩
    · by_cases hay : a = y.1
      · subst hay
        rw [Links.set_same, hy]
        exact ⟨nofun, nofun⟩
      · rw [Links.set_of_ne hay]

end Writing

/-! ## Removing a key -/

section Removing

variable {m : MapBase β} {M : Map β} {A B : List (List (ℕ × MapNode β))}
  {us ws : List (ℕ × MapNode β)} {x : ℕ × MapNode β}

/-- What `map_remove` does to the buckets, where the node of the key is `x`. -/
theorem mapRemove_split
    (hM : (A ++ (us ++ x :: ws) :: B).map (List.map Prod.snd) = M.buckets) :
    (mapRemove M x.2.key).buckets = (A ++ (us ++ ws) :: B).map (List.map Prod.snd)
      ∧ (mapRemove M x.2.key).nnodes = M.nnodes - 1 := by
  have hnode : x.2 ∈ M.nodes := by
    rw [nodes_eq hM]
    exact List.mem_map_of_mem (flatten_split_perm.mem_iff.mpr List.mem_cons_self)
  have hsome : (mapGetref M x.2.key).isSome := by
    rw [(mapGetref_eq_some_iff M x.2.key x.2).mpr ⟨hnode, rfl⟩]
    rfl
  have hx : x.2.hasKey x.2.key = true := MapNode.hasKey_iff.mpr ⟨M.placed.hash_eq x.2 hnode, rfl⟩
  have hgone : [x.2].filter (fun nd => !nd.hasKey x.2.key) = [] :=
    List.filter_cons_of_neg (by rw [hx]; exact Bool.false_ne_true)
  have hfilter := buckets_map_split hM (f := List.filter fun nd => !nd.hasKey x.2.key)
    (fun _ _ => List.filter_append ..) fun ys hys => by
      rw [List.filter_eq_self]
      intro nd hnd
      obtain ⟨y, hy, rfl⟩ := List.mem_map.mp hnd
      have hno : y.2.hasKey x.2.key = false :=
        Bool.eq_false_iff.mpr fun ht => hys y hy (MapNode.hasKey_iff.mp ht).2
      rw [hno]
      rfl
  unfold mapRemove
  rw [if_pos hsome]
  refine ⟨?_, rfl⟩
  show M.buckets.map (List.filter fun nd => !nd.hasKey x.2.key) = _
  rw [hfilter, hgone, List.map_append, List.map_cons, List.map_append, List.append_nil]

/-- **A node that has left its chain is freed.** -/
theorem Mirrors.free (hrep : Mirrors m (A ++ (us ++ x :: ws) :: B)) {h : Links (MapNode β)}
    {buckets : List (Option ℕ)} (hl : Laid h buckets (A ++ (us ++ ws) :: B))
    (hsame : ∀ a, h a = none ↔ m.heap a = none) (n : ℕ) :
    Mirrors { m with heap := h.set x.1 none, buckets := buckets, nnodes := n }
      (A ++ (us ++ ws) :: B) := by
  have hx : x.1 ∉ (A ++ (us ++ ws) :: B).flatten.map Prod.fst := fun hmem =>
    hrep.laid.nodup_split.1 ((flatten_rest_perm.map Prod.fst).mem_iff.mp hmem)
  refine ⟨hl.frame fun a ha => Links.set_of_ne fun heq => hx (heq ▸ ha), fun a => ?_,
    fun a ha => ?_⟩
  · show h.set x.1 none a ≠ none ↔ _
    by_cases hax : a = x.1
    · subst hax
      rw [Links.set_same]
      exact iff_of_false (fun h => h rfl) hx
    · rw [Links.set_of_ne hax, ne_eq, hsame a, ← ne_eq, hrep.live a,
        (flatten_split_perm.map Prod.fst).mem_iff, (flatten_rest_perm.map Prod.fst).mem_iff,
        List.map_cons, List.mem_cons, or_iff_right hax]
  · show h.set x.1 none a = none
    by_cases hax : a = x.1
    · subst hax
      exact Links.set_same ..
    · exact (Links.set_of_ne hax).trans ((hsame a).mpr (hrep.fresh a ha))

/-- **The other nodes stay where they are.** -/
theorem keyOf_removed {m' : MapBase β} (hrep : Mirrors m (A ++ (us ++ x :: ws) :: B))
    (hrep' : Mirrors m' (A ++ (us ++ ws) :: B))
    (hM : (A ++ (us ++ x :: ws) :: B).map (List.map Prod.snd) = M.buckets) (a : ℕ) :
    m'.keyOf a = if m.keyOf a = some x.2.key then none else m.keyOf a := by
  have hothers : x.2.key ∉ ((A ++ (us ++ ws) :: B).flatten.map tagOf).map Prod.snd := by
    intro hmem
    rw [List.map_map, List.mem_map] at hmem
    obtain ⟨y, hy, hkey⟩ := hmem
    exact key_ne_of_split hM (flatten_rest_perm.mem_iff.mp hy) hkey
  have htags : ((A ++ (us ++ x :: ws) :: B).flatten.map tagOf).Perm
      (tagOf x :: (A ++ (us ++ ws) :: B).flatten.map tagOf) :=
    (flatten_split_perm.trans (flatten_rest_perm.symm.cons x)).map tagOf
  refine Option.ext fun key => ?_
  rw [hrep'.keyOf_eq_some]
  by_cases hkey : m.keyOf a = some x.2.key
  · rw [if_pos hkey]
    refine iff_of_false (fun hmem => ?_) nofun
    have hboth := hrep.keyOf_eq_some.mpr (htags.mem_iff.mpr (List.mem_cons_of_mem _ hmem))
    obtain rfl : x.2.key = key := Option.some.inj (hkey.symm.trans hboth)
    exact hothers (List.mem_map_of_mem hmem)
  · rw [if_neg hkey, hrep.keyOf_eq_some, htags.mem_iff, List.mem_cons, or_iff_right]
    rintro ⟨rfl, rfl⟩
    exact hkey (hrep.keyOf_eq_some.mpr (htags.mem_iff.mpr List.mem_cons_self))

/-- **`map_remove` in memory** unbinds the key, and frees its node. -/
theorem remove_refines (hm : Refines m M) (key : List Char) :
    ∃ m', m.remove key = .ok m' ∧ Refines m' (mapRemove M key) ∧ m'.used = m.used
      ∧ ∀ a, m'.keyOf a = if m.keyOf a = some key then none else m.keyOf a := by
  obtain ⟨xss, hrep, hM, hnnodes⟩ := hm
  rcases hrep.getref hM key with ⟨i, us, x, ws, hi, rfl, hrun⟩ | ⟨hnone, hrun⟩
  · have hload := hrep.laid.load hi
    have hderef := hrep.laid.deref hi
    obtain ⟨A, B, rfl, rfl⟩ := exists_split hi
    obtain ⟨h, buckets, hstore, hl, hsame⟩ := hrep.laid.store
    obtain ⟨c, hc⟩ : ∃ c, h x.1 = some c := by
      refine Option.ne_none_iff_exists'.mp fun hnone => ?_
      cases hderef.symm.trans ((hsame x.1).mp hnone)
    obtain ⟨hbuckets, hcount⟩ := mapRemove_split hM
    have hrep' := hrep.free hl hsame (m.nnodes - 1)
    refine ⟨_, ?_, ⟨_, hrep', hbuckets.symm, ?_⟩, rfl, keyOf_removed hrep hrep' hM⟩
    · show (m.getref x.2.key).bind _ = _
      rw [hrun]
      show (m.load (refOf A.length us)).bind _ = _
      rw [hload]
      show (m.heap.deref (some x.1)).bind _ = _
      rw [Links.deref_some hderef]
      show (m.store (headAddr none ws) (refOf A.length us)).bind _ = _
      rw [hstore]
      show (h.free (some x.1)).bind _ = _
      rw [Links.free_some hc]
      rfl
    · rw [hcount, ← hnnodes]
  · have hsame : mapRemove M key = M := by
      unfold mapRemove
      rw [if_neg (by rw [hnone]; exact Bool.false_ne_true)]
    refine ⟨m, ?_, hsame.symm ▸ ⟨xss, hrep, hM, hnnodes⟩, rfl, fun a => ?_⟩
    · show (m.getref key).bind _ = _
      rw [hrun]
      rfl
    · rw [if_neg]
      intro hkey
      obtain ⟨x, hx, htag⟩ := List.mem_map.mp (hrep.keyOf_eq_some.mp hkey)
      refine (mapGetref_eq_none_iff M key).mp hnone (List.mem_map.mpr ⟨x.2, ?_, ?_⟩)
      · rw [nodes_eq hM]
        exact List.mem_map_of_mem hx
      · exact (Prod.mk.inj htag).2

end Removing

end Miaouchat
