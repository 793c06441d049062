import Miaouchat.MapSetting

/-!
# Any calls of the hash map

What a program sees of `map.c` that sets and removes keys as it likes, with an
allocator that answers as it likes. Nothing faults (`calls_refines`); the map is
the finite function of the calls that succeeded (`map_is_function`); `map_next`
goes through the keys bound, each once (`map_iterates`); the buckets are a power
of two, as the mask of `map_bucketidx` needs (`map_power_of_two`); and memory
holds a node for each key and, after `map_deinit`, none (`map_memory`).
-/

namespace Miaouchat

variable {β : Type}

/-! ## Going through the keys -/

/-- `map_iter_t`, with `opened` as in `MapIter` and the address of the node. -/
structure NodeIter where
  opened : ℕ
  node : Option ℕ
  deriving DecidableEq, Repr

namespace MapBase

/-- `map_iter`. -/
def iter : NodeIter := ⟨0, none⟩

/-- The part of `map_next` after `nextBucket`, over the buckets not yet opened. -/
def nextNode : List (Option ℕ) → ℕ → NodeIter
  | [], i => ⟨i + 1, none⟩
  | none :: rest, i => nextNode rest (i + 1)
  | some a :: _, i => ⟨i + 1, some a⟩

/-- The `next` link of the node an iterator stands on, if it stands on one. -/
def nextLink (m : MapBase β) (iter : NodeIter) : Except Fault (Option ℕ) :=
  match iter.node with
  | none => .ok none
  | some a => do
    let c ← m.heap.deref (some a)
    return c.next

/-- The key of the node an iterator stands on, which `map_next` returns a pointer
to. -/
def keyAt (m : MapBase β) (iter : NodeIter) : Except Fault (Option (List Char) × NodeIter) :=
  match iter.node with
  | none => .ok (none, iter)
  | some a => do
    let c ← m.heap.deref (some a)
    return (some c.data.key, iter)

/-- `map_next`. -/
def next (m : MapBase β) (iter : NodeIter) : Except Fault (Option (List Char) × NodeIter) := do
  let p ← m.nextLink iter
  match p with
  | some a => m.keyAt { iter with node := some a }
  | none => m.keyAt (nextNode (m.buckets.drop iter.opened) iter.opened)

/-- `while ((key = map_next(&m, &iter)))`, with a bound on its rounds: the keys it
goes through. -/
def keysFrom (m : MapBase β) : ℕ → NodeIter → Except Fault (List (List Char))
  | 0, _ => .error .loop
  | n + 1, iter => do
    let (key, iter) ← m.next iter
    match key with
    | none => return []
    | some key =>
      let keys ← keysFrom m n iter
      return key :: keys

end MapBase

/-- **The nodes an iterator still has to visit.** -/
inductive NodeIterAt (xss : List (List (ℕ × MapNode β))) :
    NodeIter → List (ℕ × MapNode β) → Prop
  | between (i : ℕ) : NodeIterAt xss ⟨i, none⟩ (xss.drop i).flatten
  | inside (i : ℕ) (us zs : List (ℕ × MapNode β)) (x : ℕ × MapNode β)
      (hi : xss[i]? = some (us ++ x :: zs)) :
      NodeIterAt xss ⟨i + 1, some x.1⟩ (zs ++ (xss.drop (i + 1)).flatten)

section Iterating

variable {m : MapBase β} {xss : List (List (ℕ × MapNode β))}

theorem nextNode_at (hl : Laid m.heap m.buckets xss) (i : ℕ) :
    ∃ iter, MapBase.nextNode (m.buckets.drop i) i = iter
      ∧ iter.node = (xss.drop i).flatten.head?.map Prod.fst
      ∧ ((xss.drop i).flatten ≠ [] → NodeIterAt xss iter (xss.drop i).flatten.tail) := by
  rw [hl.heads, ← List.map_drop]
  generalize hrest : xss.drop i = rest
  induction rest generalizing i with
  | nil => exact ⟨_, rfl, rfl, fun h => absurd rfl h⟩
  | cons ys rest ih =>
    have hdrop : xss.drop (i + 1) = rest := by rw [← List.tail_drop, hrest, List.tail_cons]
    cases ys with
    | nil => exact ih (i + 1) hdrop
    | cons x zs =>
      have hi : xss[i]? = some ([] ++ x :: zs) := by
        rw [← List.head?_drop, hrest]
        rfl
      refine ⟨_, rfl, rfl, fun _ => ?_⟩
      have h := NodeIterAt.inside i [] zs x hi
      rw [hdrop] at h
      exact h

/-- Reading the key of the first node to visit. -/
theorem keyAt_head (hl : Laid m.heap m.buckets xss) {nodes : List (ℕ × MapNode β)}
    (hsub : nodes ⊆ xss.flatten) {iter : NodeIter}
    (hiter : iter.node = nodes.head?.map Prod.fst) :
    m.keyAt iter = .ok (nodes.head?.map fun x => x.2.key, iter) := by
  rw [MapBase.keyAt, hiter]
  cases nodes with
  | nil => rfl
  | cons x nodes =>
    obtain ⟨xs, hxs, hx⟩ := List.mem_flatten.mp (hsub List.mem_cons_self)
    obtain ⟨c, hc, hdata⟩ := (hl.chained xs hxs).get hx
    show (m.heap.deref (some x.1)).bind _ = _
    rw [Links.deref_some hc]
    show Except.ok (some c.data.key, iter) = _
    rw [hdata]
    rfl

/-- **One call of `map_next` in memory** returns the key of the first node still to
visit. -/
theorem next_at (hl : Laid m.heap m.buckets xss) {iter : NodeIter}
    {nodes : List (ℕ × MapNode β)} (hat : NodeIterAt xss iter nodes) :
    ∃ iter', m.next iter = .ok (nodes.head?.map fun x => x.2.key, iter')
      ∧ (nodes ≠ [] → NodeIterAt xss iter' nodes.tail) := by
  have hdrop : ∀ i, (xss.drop i).flatten ⊆ xss.flatten := fun i =>
    (List.drop_sublist i xss).flatten.subset
  cases hat with
  | between i =>
    obtain ⟨iter', hnext, hnode, hat'⟩ := nextNode_at hl i
    refine ⟨iter', ?_, hat'⟩
    show m.keyAt (MapBase.nextNode (m.buckets.drop i) i) = _
    rw [hnext, keyAt_head hl (hdrop i) hnode]
  | inside i us zs x hi =>
    have hlink : m.nextLink ⟨i + 1, some x.1⟩ = .ok (headAddr none zs) := by
      show (m.heap.deref (some x.1)).bind _ = _
      rw [Links.deref_some (hl.deref hi)]
      rfl
    cases zs with
    | nil =>
      obtain ⟨iter', hnext, hnode, hat'⟩ := nextNode_at hl (i + 1)
      refine ⟨iter', ?_, hat'⟩
      show (m.nextLink ⟨i + 1, some x.1⟩).bind _ = _
      rw [hlink]
      show m.keyAt (MapBase.nextNode (m.buckets.drop (i + 1)) (i + 1)) = _
      rw [hnext, keyAt_head hl (hdrop (i + 1)) hnode]
      rfl
    | cons z zs =>
      have hi' : xss[i]? = some ((us ++ [x]) ++ z :: zs) := by rw [hi, List.append_assoc]; rfl
      have hsub : [z] ⊆ xss.flatten := by
        rintro y hy
        rw [List.mem_singleton.mp hy]
        exact List.mem_flatten.mpr ⟨_, List.mem_of_getElem? hi, by simp⟩
      refine ⟨⟨i + 1, some z.1⟩, ?_, fun _ => .inside i (us ++ [x]) zs z hi'⟩
      show (m.nextLink ⟨i + 1, some x.1⟩).bind _ = _
      rw [hlink]
      show m.keyAt ⟨i + 1, some z.1⟩ = _
      rw [keyAt_head hl hsub rfl]
      rfl

/-- **The loop over `map_next`** goes through them all. -/
theorem keysFrom_at (hl : Laid m.heap m.buckets xss) {iter : NodeIter}
    {nodes : List (ℕ × MapNode β)} (hat : NodeIterAt xss iter nodes) {n : ℕ}
    (hn : nodes.length < n) : m.keysFrom n iter = .ok (nodes.map fun x => x.2.key) := by
  induction nodes generalizing iter n with
  | nil =>
    obtain ⟨iter', hnext, -⟩ := next_at hl hat
    cases n with
    | zero => cases hn
    | succ n =>
      show (m.next iter).bind _ = _
      rw [hnext]
      rfl
  | cons x nodes ih =>
    obtain ⟨iter', hnext, hat'⟩ := next_at hl hat
    cases n with
    | zero => cases hn
    | succ n =>
      show (m.next iter).bind _ = _
      rw [hnext]
      show (m.keysFrom n iter').bind _ = _
      rw [ih (hat' nofun) (Nat.lt_of_succ_lt_succ hn)]
      rfl

end Iterating

/-! ## Freeing everything -/

section Freeing

variable {xss : List (List (ℕ × MapNode β))} {h : Links (MapNode β)} {used : ℕ}

/-- The rounds of `map_deinit` for one bucket free its nodes and no others. -/
theorem freeBucket_chained {xs : List (ℕ × MapNode β)} (hxs : Chained h xs none)
    (hnodup : (xs.map Prod.fst).Nodup) (hlen : xs.length ≤ used) :
    ∃ h', MapBase.freeBucket used h (headAddr none xs) = .ok h'
      ∧ Freed h h' (xs.map Prod.fst) := by
  let P : List (ℕ × MapNode β) → Links (MapNode β) → Prop := fun ys h' =>
    Freed h h' (ys.map Prod.fst)
  have hround : ∀ ys x zs h₁, xs = ys ++ x :: zs → Chained h₁ (x :: zs) none → P ys h₁ →
      ∃ h', h₁.free (some x.1) = .ok h' ∧ Chained h' zs none ∧ P (ys ++ [x]) h' := by
    rintro ys x zs h₁ rfl hx hys
    rw [List.map_append, List.map_cons, List.nodup_append, List.nodup_cons] at hnodup
    refine ⟨_, Links.free_some hx.1, hx.2.set hnodup.2.1.1 _, ?_⟩
    show Freed h _ ((ys ++ [x]).map Prod.fst)
    rw [List.map_append]
    exact Freed.append hys (.single h₁ x.1)
  exact whileNode_chained (P := P) hround hlen hxs (Freed.nil h)

/-- The rounds for several buckets. -/
theorem freeBuckets_chained {yss : List (List (ℕ × MapNode β))}
    (hyss : ∀ ys ∈ yss, Chained h ys none) (hnodup : (yss.flatten.map Prod.fst).Nodup)
    (hlen : ∀ ys ∈ yss, ys.length ≤ used) :
    ∃ h', (yss.map (headAddr none)).foldlM (MapBase.freeBucket used) h = .ok h'
      ∧ Freed h h' (yss.flatten.map Prod.fst) := by
  induction yss generalizing h with
  | nil => exact ⟨h, rfl, Freed.nil h⟩
  | cons ys yss ih =>
    rw [List.flatten_cons, List.map_append, List.nodup_append] at hnodup
    obtain ⟨h₁, hrun₁, hfreed₁⟩ := freeBucket_chained (hyss ys List.mem_cons_self) hnodup.1
      (hlen ys List.mem_cons_self)
    have hothers : ∀ zs ∈ yss, Chained h₁ zs none := by
      intro zs hzs
      refine (hyss zs (List.mem_cons_of_mem _ hzs)).frame fun a ha => hfreed₁.same a fun hmem => ?_
      exact hnodup.2.2 a hmem a
        (((List.sublist_flatten_of_mem hzs).map Prod.fst).subset ha) rfl
    obtain ⟨h', hrun, hfreed⟩ := ih hothers hnodup.2.1 fun zs hzs =>
      hlen zs (List.mem_cons_of_mem _ hzs)
    refine ⟨h', ?_, ?_⟩
    · rw [List.map_cons, List.foldlM_cons, hrun₁]
      exact hrun
    · rw [List.flatten_cons, List.map_append]
      exact hfreed₁.append hfreed

/-- **`map_deinit` frees each node once.** -/
theorem deinit_frees {m : MapBase β} (hm : Mirrors m xss) :
    m.deinit = .ok fun _ => none := by
  have hperm := (xss.reverse_perm.flatten).map Prod.fst
  obtain ⟨h', hrun, hfreed⟩ := freeBuckets_chained
    (fun ys hys => hm.laid.chained ys (List.mem_reverse.mp hys))
    (hperm.nodup_iff.mpr hm.laid.nodup)
    (fun ys hys => hm.length_le (List.sublist_flatten_of_mem (List.mem_reverse.mp hys)))
  rw [List.map_reverse, ← hm.laid.heads] at hrun
  refine hrun.trans (congrArg Except.ok (funext fun a => ?_))
  by_cases ha : a ∈ xss.reverse.flatten.map Prod.fst
  · exact hfreed.gone a ha
  · rw [hfreed.same a ha]
    by_contra hlive
    exact ha (hperm.mem_iff.mpr ((hm.live a).mp hlive))

end Freeing

/-! ## Sizes -/

/-- **The size of a map**: no more nodes than buckets, of which there are none or a
power of two. -/
structure Sized (M : Map β) : Prop where
  nnodes_eq : M.nnodes = M.keys.length
  nnodes_le : M.nnodes ≤ M.nbuckets
  pow : M.nbuckets = 0 ∨ ∃ e, M.nbuckets = 2 ^ e

section Sizes

variable {M : Map β}

theorem sized_mapInit : Sized (mapInit : Map β) := ⟨rfl, le_rfl, .inl rfl⟩

theorem keys_rebucket_perm (M : Map β) (nbuckets : ℕ) :
    (rebucket M nbuckets).keys.Perm M.keys :=
  (nodes_rebucket_perm M nbuckets).map MapNode.key

theorem Sized.rebucket_self (hM : Sized M) : Sized (rebucket M M.nbuckets) := by
  have hsame : (rebucket M M.nbuckets).nbuckets = M.nbuckets := nbuckets_rebucket id
  refine ⟨?_, ?_, ?_⟩
  · rw [nnodes_rebucket, (keys_rebucket_perm M _).length_eq, hM.nnodes_eq]
  · rw [nnodes_rebucket, hsame]
    exact hM.nnodes_le
  · rw [hsame]
    exact hM.pow

/-- **There is room for one more node** where `map_set` adds one. -/
theorem Sized.makeRoom (hM : Sized M) :
    (makeRoom M).nnodes < (makeRoom M).nbuckets
      ∧ ∃ e, (makeRoom M).nbuckets = 2 ^ e := by
  rw [nnodes_makeRoom, makeRoom_eq]
  by_cases hfull : M.nnodes ≥ M.nbuckets
  · rw [if_pos hfull]
    rcases hM.pow with hzero | ⟨e, he⟩
    · have hle := hM.nnodes_le
      rw [hzero, if_neg (lt_irrefl 0), nbuckets_rebucket (fun h => absurd h one_ne_zero)]
      exact ⟨by omega, 0, rfl⟩
    · have hpos : 0 < M.nbuckets := he ▸ Nat.two_pow_pos e
      have hle := hM.nnodes_le
      rw [if_pos hpos, nbuckets_rebucket, Nat.shiftLeft_eq]
      · exact ⟨by omega, e + 1, by rw [he, ← pow_add]⟩
      · rw [Nat.shiftLeft_eq]
        omega
  · rw [if_neg hfull]
    refine ⟨not_le.mp hfull, hM.pow.resolve_left fun hzero => ?_⟩
    rw [hzero] at hfull
    exact hfull (Nat.zero_le _)

/-- The keys after `map_set` of a key that is not bound. -/
theorem keys_mapSet_perm {key : List Char} (hkey : key ∉ M.keys) (value : β) :
    (mapSet M key value).keys.Perm (key :: M.keys) := by
  refine (List.perm_ext_iff_of_nodup (Map.nodup_keys _)
    (List.nodup_cons.mpr ⟨hkey, M.nodup_keys⟩)).mpr fun k => ?_
  rw [mem_keys_mapSet, List.mem_cons]

/-- The keys after `map_remove` of a key that is bound. -/
theorem keys_mapRemove_perm {key : List Char} (hkey : key ∈ M.keys) :
    (key :: (mapRemove M key).keys).Perm M.keys := by
  have hgone : key ∉ (mapRemove M key).keys := fun h =>
    ((mem_keys_mapRemove M key key).mp h).1 rfl
  refine (List.perm_ext_iff_of_nodup (List.nodup_cons.mpr ⟨hgone, Map.nodup_keys _⟩)
    M.nodup_keys).mpr fun k => ?_
  rw [List.mem_cons, mem_keys_mapRemove]
  by_cases hk : k = key
  · exact iff_of_true (.inl hk) (hk ▸ hkey)
  · simp [hk]

theorem Sized.mapSet (hM : Sized M) (key : List Char) (value : β) :
    Sized (mapSet M key value) := by
  cases href : mapGetref M key with
  | some nd =>
    obtain ⟨hbuckets, hcount⟩ := mapSet_of_some href value
    have hkeys : (Miaouchat.mapSet M key value).keys.length = M.keys.length := by
      rw [Map.keys, Map.keys, List.length_map, List.length_map, Map.nodes, hbuckets,
        ← List.map_flatten, List.length_map]
      rfl
    have hsame : (Miaouchat.mapSet M key value).nbuckets = M.nbuckets := by
      rw [Map.nbuckets, hbuckets, List.length_map]
      rfl
    exact ⟨by rw [hcount, hkeys, hM.nnodes_eq], by rw [hcount, hsame]; exact hM.nnodes_le,
      by rw [hsame]; exact hM.pow⟩
  | none =>
    obtain ⟨hbuckets, hcount⟩ := mapSet_of_none href value
    obtain ⟨hroom, hpow⟩ := hM.makeRoom
    have hsame : (Miaouchat.mapSet M key value).nbuckets = (Miaouchat.makeRoom M).nbuckets := by
      rw [Map.nbuckets, hbuckets, length_addNode]
      rfl
    have hkeys := keys_mapSet_perm ((mapGetref_eq_none_iff M key).mp href) value
    refine ⟨?_, ?_, .inr ?_⟩
    · rw [hcount, nnodes_makeRoom, hkeys.length_eq, List.length_cons, hM.nnodes_eq]
    · rw [hcount, hsame]
      exact hroom
    · rw [hsame]
      exact hpow

theorem Sized.mapTrySet (hM : Sized M) (key : List Char) (value : β) (malloc realloc : Bool) :
    Sized (mapTrySet M key value malloc realloc).2 := by
  unfold Miaouchat.mapTrySet
  split
  · exact hM.mapSet key value
  · split
    · exact hM
    · split
      · exact hM.rebucket_self
      · exact hM.mapSet key value

theorem Sized.mapRemove (hM : Sized M) (key : List Char) : Sized (mapRemove M key) := by
  by_cases hkey : key ∈ M.keys
  · have hsome : (mapGetref M key).isSome := by
      rw [Option.isSome_iff_ne_none, ne_eq, mapGetref_eq_none_iff, not_not]
      exact hkey
    have hcount : (Miaouchat.mapRemove M key).nnodes = M.nnodes - 1 := by
      unfold Miaouchat.mapRemove
      rw [if_pos hsome]
    have hsame : (Miaouchat.mapRemove M key).nbuckets = M.nbuckets := by
      unfold Miaouchat.mapRemove
      rw [if_pos hsome]
      exact List.length_map ..
    have hlen := (keys_mapRemove_perm hkey).length_eq
    have hle := hM.nnodes_le
    rw [List.length_cons, ← hM.nnodes_eq] at hlen
    exact ⟨by omega, by omega, by rw [hsame]; exact hM.pow⟩
  · have hsame : Miaouchat.mapRemove M key = M := by
      unfold Miaouchat.mapRemove
      rw [if_neg]
      rw [(mapGetref_eq_none_iff M key).mpr hkey]
      exact Bool.false_ne_true
    rwa [hsame]

end Sizes

/-! ## Calls -/

/-- A call that changes a map. `malloc` and `realloc` are what the allocator answers
should the call ask it. -/
inductive MapCall (β : Type)
  | set (key : List Char) (value : β) (malloc realloc : Bool)
  | remove (key : List Char)

namespace MapCall

/-- What the call returns, and the map after it. -/
def run : MapCall β → MapBase β → Except Fault (ℤ × MapBase β)
  | .set key value malloc realloc, m => m.set key value malloc realloc
  | .remove key, m => do
    let m ← m.remove key
    return (0, m)

/-- What is bound after a call that returned `err`, if `f` was before it. -/
def bound : MapCall β → ℤ → (List Char → Option β) → List Char → Option β
  | .set key value _ _, err, f => if err = 0 then Function.update f key (some value) else f
  | .remove key, _, f => Function.update f key none

/-- The call on a map. -/
def onMap : MapCall β → Map β → ℤ × Map β
  | .set key value malloc realloc, M => mapTrySet M key value malloc realloc
  | .remove key, M => (0, mapRemove M key)

end MapCall

/-- Some calls one after the other. What is bound is noted beside the map, from what
the calls return. -/
def runMapCalls (calls : List (MapCall β)) (s : MapBase β × (List Char → Option β)) :
    Except Fault (MapBase β × (List Char → Option β)) :=
  calls.foldlM (fun s call => do
    let (err, m) ← call.run s.1
    return (m, call.bound err s.2)) s

section Calls

variable {m : MapBase β} {M : Map β}

theorem mapGet_rebucket (M : Map β) (nbuckets : ℕ) (key : List Char) :
    mapGet (rebucket M nbuckets) key = mapGet M key := by
  refine Option.ext fun v => ?_
  simp only [mapGet_eq_some_iff, (nodes_rebucket_perm M nbuckets).mem_iff]

/-- What is at an address that was given out, after a call. -/
def MapCall.keyAfter : MapCall β → Option (List Char) → Option (List Char)
  | .set .., k => k
  | .remove key, k => if k = some key then none else k

/-- **A call in memory is the call on the map.** It frees the node of the key it
removes, and moves no other. -/
theorem call_refines (hm : Refines m M) (call : MapCall β) :
    ∃ m', call.run m = .ok ((call.onMap M).1, m') ∧ Refines m' (call.onMap M).2
      ∧ m.used ≤ m'.used ∧ ∀ a < m.used, m'.keyOf a = call.keyAfter (m.keyOf a) := by
  cases call with
  | set key value malloc realloc =>
    obtain ⟨m', hrun, hm', hkept⟩ := set_refines hm key value malloc realloc
    exact ⟨m', hrun, hm', hkept.used_le, hkept.keyOf_eq⟩
  | remove key =>
    obtain ⟨m', hrun, hm', hused, hkeys⟩ := remove_refines hm key
    refine ⟨m', ?_, hm', hused.ge, fun a _ => hkeys a⟩
    show (m.remove key).bind _ = _
    rw [hrun]
    rfl

theorem Sized.onMap (hM : Sized M) (call : MapCall β) : Sized (call.onMap M).2 := by
  cases call with
  | set key value malloc realloc => exact hM.mapTrySet key value malloc realloc
  | remove key => exact hM.mapRemove key

/-- What is bound after a call. -/
theorem mapGet_onMap (M : Map β) (call : MapCall β) (key : List Char) :
    mapGet (call.onMap M).2 key = call.bound (call.onMap M).1 (mapGet M) key := by
  cases call with
  | set key' value malloc realloc =>
    show mapGet (mapTrySet M key' value malloc realloc).2 key
      = (if (mapTrySet M key' value malloc realloc).1 = 0 then
          Function.update (mapGet M) key' (some value) else mapGet M) key
    have hset : mapGet (mapSet M key' value) key
        = Function.update (mapGet M) key' (some value) key := by
      rw [mapGet_mapSet, Function.update_apply]
    unfold mapTrySet
    split
    · exact hset
    · split
      · rfl
      · split
        · exact mapGet_rebucket ..
        · exact hset
  | remove key' =>
    show mapGet (mapRemove M key') key = Function.update (mapGet M) key' none key
    rw [mapGet_mapRemove, Function.update_apply]

/-- **The calls in memory are the calls on the map**, one after the other. -/
theorem calls_refines (calls : List (MapCall β)) (hm : Refines m M) (hM : Sized M) :
    ∃ m' M', runMapCalls calls (m, mapGet M) = .ok (m', mapGet M') ∧ Refines m' M' ∧ Sized M' := by
  induction calls generalizing m M with
  | nil => exact ⟨m, M, rfl, hm, hM⟩
  | cons call calls ih =>
    obtain ⟨m₁, hrun₁, hm₁, -⟩ := call_refines hm call
    obtain ⟨m', M', hrun, hm', hM'⟩ := ih hm₁ (hM.onMap call)
    refine ⟨m', M', ?_, hm', hM'⟩
    have hbound : call.bound (call.onMap M).1 (mapGet M) = mapGet (call.onMap M).2 :=
      funext fun key => (mapGet_onMap M call key).symm
    show ((call.run m).bind fun r => .ok (r.2, call.bound r.1 (mapGet M))).bind (runMapCalls calls)
      = _
    rw [hrun₁]
    show runMapCalls calls (m₁, call.bound (call.onMap M).1 (mapGet M)) = _
    rw [hbound, hrun]

/-- The map after any calls from `map_init` on. -/
theorem calls_from_init (junk : ℕ → Option ℕ) (calls : List (MapCall β)) :
    ∃ m M, runMapCalls calls (MapBase.init junk, fun _ => none) = .ok (m, mapGet M)
      ∧ Refines m M ∧ Sized M :=
  calls_refines calls (refines_init junk) sized_mapInit

end Calls

/-! ## What a program sees -/

/-- **The map is the finite function of the calls that succeeded.** No call faults,
`map_get` returns what was last bound to the key, and `map_set` succeeds exactly
when the key is bound or there is memory for it. -/
theorem map_is_function (junk : ℕ → Option ℕ) (calls : List (MapCall β)) :
    ∃ m f, runMapCalls calls (MapBase.init junk, fun _ => none) = .ok (m, f)
      ∧ (∀ key, m.get key = .ok (f key))
      ∧ ∀ key value malloc realloc, ∃ err m', m.set key value malloc realloc = .ok (err, m')
        ∧ (err = 0 ↔ f key ≠ none
          ∨ malloc = true ∧ (realloc = true ∨ m.nnodes < m.buckets.length)) := by
  obtain ⟨m, M, hrun, hm, -⟩ := calls_from_init junk calls
  refine ⟨m, mapGet M, hrun, get_refines hm, fun key value malloc realloc => ?_⟩
  obtain ⟨m', hset, -⟩ := set_refines hm key value malloc realloc
  obtain ⟨xss, hrep, hbuckets, hnnodes⟩ := hm
  have hlength : m.buckets.length = M.nbuckets := by
    rw [hrep.laid.heads, Map.nbuckets, ← hbuckets, List.length_map, List.length_map]
  refine ⟨_, m', hset, ?_⟩
  rw [hnnodes, hlength, mapGet, ne_eq, Option.map_eq_none_iff, ← ne_eq,
    ← Option.isSome_iff_ne_none]
  unfold mapTrySet
  split
  · rename_i hsome
    exact iff_of_true rfl (.inl hsome)
  · rename_i hnone
    have hrefused : (-1 : ℤ) ≠ 0 := by decide
    rw [or_iff_right hnone]
    split
    · rename_i hmalloc
      exact iff_of_false hrefused fun h => Bool.false_ne_true (hmalloc.symm.trans h.1)
    · rename_i hmalloc
      rw [Bool.not_eq_false] at hmalloc
      split
      · rename_i hfail
        refine iff_of_false hrefused fun h => ?_
        rcases h.2 with hrealloc | hroom
        · exact Bool.false_ne_true (hfail.2.symm.trans hrealloc)
        · exact absurd hfail.1 (not_le.mpr hroom)
      · rename_i hserved
        refine iff_of_true rfl ⟨hmalloc, ?_⟩
        by_cases hrealloc : realloc = true
        · exact .inl hrealloc
        · exact .inr (not_le.mp fun hle => hserved ⟨hle, Bool.not_eq_true _ ▸ hrealloc⟩)

/-- **A loop over `map_next`** that leaves the map alone goes through the keys bound,
each once, and there are `nnodes`. -/
theorem map_iterates (junk : ℕ → Option ℕ) (calls : List (MapCall β)) :
    ∃ m f keys, runMapCalls calls (MapBase.init junk, fun _ => none) = .ok (m, f)
      ∧ m.keysFrom (m.nnodes + 1) MapBase.iter = .ok keys
      ∧ keys.Nodup ∧ (∀ key, key ∈ keys ↔ f key ≠ none) ∧ keys.length = m.nnodes := by
  obtain ⟨m, M, hrun, ⟨xss, hrep, hbuckets, hnnodes⟩, hM⟩ := calls_from_init junk calls
  have hkeys : xss.flatten.map (fun x => x.2.key) = M.keys := by
    rw [Map.keys, nodes_eq hbuckets, List.map_map]
    rfl
  have hlen : xss.flatten.length = m.nnodes := by
    rw [hnnodes, hM.nnodes_eq, ← hkeys, List.length_map]
  refine ⟨m, mapGet M, M.keys, hrun, ?_, M.nodup_keys, fun key => ?_, ?_⟩
  · rw [← hkeys]
    exact keysFrom_at hrep.laid (.between 0) (Nat.lt_succ_of_le hlen.le)
  · rw [ne_eq, mapGet_eq_none_iff, not_not]
  · rw [hnnodes, hM.nnodes_eq]

/-- **The mask of `map_bucketidx` is the remainder**: the number of buckets is a power
of two as soon as there is a node, and there are no more nodes than buckets. -/
theorem map_power_of_two (junk : ℕ → Option ℕ) (calls : List (MapCall β)) :
    ∃ m f, runMapCalls calls (MapBase.init junk, fun _ => none) = .ok (m, f)
      ∧ m.nnodes ≤ m.buckets.length
      ∧ (m.buckets = [] ∨ (∃ e, m.buckets.length = 2 ^ e)
        ∧ ∀ hash, mapBucketidx m.buckets.length hash = hash.toNat % m.buckets.length) := by
  obtain ⟨m, M, hrun, ⟨xss, hrep, hbuckets, hnnodes⟩, hM⟩ := calls_from_init junk calls
  have hlength : m.buckets.length = M.nbuckets := by
    rw [hrep.laid.heads, Map.nbuckets, ← hbuckets, List.length_map, List.length_map]
  refine ⟨m, mapGet M, hrun, by rw [hnnodes, hlength]; exact hM.nnodes_le, ?_⟩
  rw [← List.length_eq_zero_iff, hlength]
  rcases hM.pow with hzero | ⟨e, he⟩
  · exact .inl hzero
  · refine .inr ⟨⟨e, he⟩, fun hash => ?_⟩
    rw [he, mapBucketidx, Nat.and_two_pow_sub_one_eq_mod]

/-- **Memory holds a node for each key**, whatever was replaced, removed or refused;
after `map_deinit` it holds none. -/
theorem map_memory (junk : ℕ → Option ℕ) (calls : List (MapCall β)) :
    ∃ m f, runMapCalls calls (MapBase.init junk, fun _ => none) = .ok (m, f)
      ∧ Set.ncard {a | m.heap a ≠ none} = m.nnodes
      ∧ (∀ key, (∃ a c, m.heap a = some c ∧ c.data.key = key) ↔ f key ≠ none)
      ∧ m.deinit = .ok fun _ => none := by
  obtain ⟨m, M, hrun, ⟨xss, hrep, hbuckets, hnnodes⟩, hM⟩ := calls_from_init junk calls
  refine ⟨m, mapGet M, hrun, ?_, fun key => ?_, deinit_frees hrep⟩
  · have hset : {a | m.heap a ≠ none} = ((xss.flatten.map Prod.fst).toFinset : Set ℕ) := by
      ext a
      show m.heap a ≠ none ↔ _
      rw [hrep.live a, Finset.mem_coe, List.mem_toFinset]
    rw [hset, Set.ncard_coe_finset, List.toFinset_card_of_nodup hrep.laid.nodup,
      List.length_map, hnnodes, hM.nnodes_eq, Map.keys, nodes_eq hbuckets, List.length_map,
      List.length_map]
  · have htag : ∀ a, (∃ c, m.heap a = some c ∧ c.data.key = key)
        ↔ (a, key) ∈ xss.flatten.map tagOf := fun a =>
      Option.map_eq_some_iff.symm.trans hrep.keyOf_eq_some
    have hkeys : M.keys = (xss.flatten.map tagOf).map Prod.snd := by
      rw [Map.keys, nodes_eq hbuckets, List.map_map, List.map_map]
      rfl
    rw [exists_congr htag, ne_eq, mapGet_eq_none_iff, not_not, hkeys, List.mem_map]
    constructor
    · rintro ⟨a, h⟩
      exact ⟨(a, key), h, rfl⟩
    · rintro ⟨⟨a, _⟩, h, rfl⟩
      exact ⟨a, h⟩

end Miaouchat
