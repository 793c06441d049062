import Miaouchat.Lib.Cells

/-!
# The hash map

`map.c` keeps the bindings of a map in buckets: arrays of chains, the chain of
a key chosen by the low bits of its hash. A new binding goes to the head of
its chain, and the array doubles when the nodes are as many as the buckets.

The model keeps the buckets and the order in each chain, because `map_next`
shows them to its caller. What makes the lookup right is the invariant
`Placed`, which every map carries: each node is in the bucket of its key, and
no key has two nodes. From it follow the two equations every caller reasons
with, `mapGet_mapSet` and `mapGet_mapRemove`. A loop over `map_next` goes
through the keys bucket by bucket (`mapNext_at`), as long as the node it stands
on stays in the map.

Keys are C strings; they are the list of their characters here, all of them
digits, letters or punctuation of addresses, for which `char` is not negative.
`malloc` and `realloc` are taken to succeed.
-/

namespace Miaouchat

variable {β : Type}

/-- A node of a chain. -/
structure MapNode (β : Type) where
  hash : UInt32
  key : List Char
  value : β

/-- `map_hash`. -/
def mapHash (str : List Char) : UInt32 :=
  str.foldl (fun hash c => ((hash <<< 5) + hash) ^^^ UInt32.ofNat c.toNat) 5381

/-- `map_bucketidx`, on an array of `nbuckets` buckets. -/
def mapBucketidx (nbuckets : ℕ) (hash : UInt32) : ℕ := hash.toNat &&& (nbuckets - 1)

theorem mapBucketidx_lt {nbuckets : ℕ} (h : 0 < nbuckets) (hash : UInt32) :
    mapBucketidx nbuckets hash < nbuckets :=
  Nat.and_le_right.trans_lt (Nat.sub_lt h one_pos)

/-- **Every node is where its key is looked for**, and no key has two nodes. -/
structure Placed (buckets : List (List (MapNode β))) : Prop where
  /-- A node has the hash of its key. -/
  hash_eq : ∀ nd ∈ buckets.flatten, nd.hash = mapHash nd.key
  /-- It is in the bucket of its hash. -/
  idx_eq : ∀ i, ∀ nd ∈ buckets.getD i [], mapBucketidx buckets.length nd.hash = i
  /-- No key has two nodes. -/
  nodup : (buckets.flatten.map MapNode.key).Nodup

/-- A map: `nbuckets` is the length of the array of buckets. -/
structure Map (β : Type) where
  buckets : List (List (MapNode β))
  nnodes : ℕ
  /-- The nodes are where they are looked for. -/
  placed : Placed buckets

namespace Map

def nbuckets (m : Map β) : ℕ := m.buckets.length

/-- The nodes of a map, in the order of the buckets. -/
def nodes (m : Map β) : List (MapNode β) := m.buckets.flatten

/-- The keys bound, in the order of the buckets. -/
def keys (m : Map β) : List (List Char) := m.nodes.map MapNode.key

/-- The chain a key is looked for in. -/
def chain (m : Map β) (key : List Char) : List (MapNode β) :=
  m.buckets.getD (mapBucketidx m.nbuckets (mapHash key)) []

end Map

/-- `map_init`. -/
def mapInit : Map β where
  buckets := []
  nnodes := 0
  placed := ⟨by simp, by simp, by simp⟩

/-! ## Chains -/

theorem mem_flatten_iff {buckets : List (List (MapNode β))} {nd : MapNode β} :
    nd ∈ buckets.flatten ↔ ∃ i, nd ∈ buckets.getD i [] := by
  rw [List.mem_flatten]
  constructor
  · rintro ⟨b, hb, hnd⟩
    obtain ⟨i, hi, rfl⟩ := List.getElem_of_mem hb
    exact ⟨i, by rwa [List.getD_eq_getElem _ _ hi]⟩
  · rintro ⟨i, hi⟩
    by_cases h : i < buckets.length
    · rw [List.getD_eq_getElem _ _ h] at hi
      exact ⟨_, List.getElem_mem h, hi⟩
    · rw [List.getD_eq_default _ _ (not_lt.mp h)] at hi
      cases hi

/-- A node of a map is in the chain of its key. -/
theorem Map.mem_nodes_iff (m : Map β) (nd : MapNode β) :
    nd ∈ m.nodes ↔ nd ∈ m.chain nd.key := by
  constructor
  · intro h
    obtain ⟨i, hi⟩ := mem_flatten_iff.mp h
    have hidx := m.placed.idx_eq i nd hi
    rw [m.placed.hash_eq nd h] at hidx
    rw [chain, nbuckets, hidx]
    exact hi
  · exact fun h => mem_flatten_iff.mpr ⟨_, h⟩

theorem Map.nodup_keys (m : Map β) : m.keys.Nodup := m.placed.nodup

/-- Two nodes of a map with the same key are the same node. -/
theorem Map.eq_of_key_eq (m : Map β) {nd nd' : MapNode β} (h : nd ∈ m.nodes)
    (h' : nd' ∈ m.nodes) (hkey : nd.key = nd'.key) : nd = nd' :=
  List.inj_on_of_nodup_map m.placed.nodup h h' hkey

/-! ## Lookup -/

/-- The test `map_getref` makes of a node. -/
def MapNode.hasKey (key : List Char) (nd : MapNode β) : Bool :=
  nd.hash = mapHash key ∧ nd.key = key

theorem MapNode.hasKey_iff {key : List Char} {nd : MapNode β} :
    nd.hasKey key = true ↔ nd.hash = mapHash key ∧ nd.key = key :=
  decide_eq_true_iff

/-- `map_getref`: the node the returned link points to. -/
def mapGetref (m : Map β) (key : List Char) : Option (MapNode β) :=
  if m.nbuckets > 0 then (m.chain key).find? (MapNode.hasKey key) else none

/-- `map_get`, a pointer to the value or `NULL`. -/
def mapGet (m : Map β) (key : List Char) : Option β :=
  (mapGetref m key).map MapNode.value

/-- **`map_getref` finds the node of the key**, and nothing else. -/
theorem mapGetref_eq_some_iff (m : Map β) (key : List Char) (nd : MapNode β) :
    mapGetref m key = some nd ↔ nd ∈ m.nodes ∧ nd.key = key := by
  have hchain : (m.chain key).find? (MapNode.hasKey key) = mapGetref m key := by
    unfold mapGetref
    split
    · rfl
    · rename_i h
      have hnil : m.buckets = [] := List.length_eq_zero_iff.mp (Nat.le_zero.mp (not_lt.mp h))
      rw [Map.chain, hnil]
      rfl
  rw [← hchain]
  constructor
  · intro h
    have hkey : nd.key = key := (MapNode.hasKey_iff.mp (List.find?_some h)).2
    exact ⟨(m.mem_nodes_iff nd).mpr (hkey ▸ List.mem_of_find?_eq_some h), hkey⟩
  · rintro ⟨hnd, rfl⟩
    have htest : nd.hasKey nd.key = true :=
      MapNode.hasKey_iff.mpr ⟨m.placed.hash_eq nd hnd, rfl⟩
    have hsome : ((m.chain nd.key).find? (MapNode.hasKey nd.key)).isSome :=
      List.find?_isSome.mpr ⟨nd, (m.mem_nodes_iff nd).mp hnd, htest⟩
    obtain ⟨nd', hnd'⟩ := Option.isSome_iff_exists.mp hsome
    have hkey : nd'.key = nd.key := (MapNode.hasKey_iff.mp (List.find?_some hnd')).2
    have hmem : nd' ∈ m.nodes :=
      (m.mem_nodes_iff nd').mpr (hkey ▸ List.mem_of_find?_eq_some hnd')
    rw [hnd', m.eq_of_key_eq hmem hnd hkey]

theorem mapGetref_eq_none_iff (m : Map β) (key : List Char) :
    mapGetref m key = none ↔ key ∉ m.keys := by
  rw [Option.eq_none_iff_forall_ne_some]
  simp only [ne_eq, mapGetref_eq_some_iff, Map.keys, List.mem_map]
  grind

/-- A lookup gives a value exactly when a node holds it under the key. -/
theorem mapGet_eq_some_iff (m : Map β) (key : List Char) (v : β) :
    mapGet m key = some v ↔ ∃ nd ∈ m.nodes, nd.key = key ∧ nd.value = v := by
  simp only [mapGet, Option.map_eq_some_iff, mapGetref_eq_some_iff, and_assoc]

theorem mapGet_eq_none_iff (m : Map β) (key : List Char) :
    mapGet m key = none ↔ key ∉ m.keys := by
  rw [mapGet, Option.map_eq_none_iff, mapGetref_eq_none_iff]

/-- **The keys are the ones bound.** -/
theorem Map.mem_keys_iff (m : Map β) (key : List Char) :
    key ∈ m.keys ↔ ∃ v, mapGet m key = some v := by
  rw [← not_iff_not, ← mapGet_eq_none_iff, Option.eq_none_iff_forall_ne_some]
  simp

@[simp] theorem mapGet_mapInit (key : List Char) : mapGet (mapInit : Map β) key = none :=
  rfl

@[simp] theorem keys_mapInit : (mapInit : Map β).keys = [] := rfl

/-! ## Adding a node -/

/-- `map_addnode`: the node goes to the head of its chain. -/
def addNode (buckets : List (List (MapNode β))) (nd : MapNode β) :
    List (List (MapNode β)) :=
  buckets.modify (mapBucketidx buckets.length nd.hash) (nd :: ·)

@[simp] theorem length_addNode (buckets : List (List (MapNode β))) (nd : MapNode β) :
    (addNode buckets nd).length = buckets.length :=
  List.length_modify ..

theorem flatten_addNode_perm {buckets : List (List (MapNode β))} (nd : MapNode β)
    (h : 0 < buckets.length) :
    (addNode buckets nd).flatten.Perm (nd :: buckets.flatten) := by
  have hi := mapBucketidx_lt h nd.hash
  set i := mapBucketidx buckets.length nd.hash with hi'
  have hsplit : buckets = buckets.take i ++ buckets[i] :: buckets.drop (i + 1) := by
    rw [List.getElem_cons_drop, List.take_append_drop]
  have hadd : addNode buckets nd
      = buckets.take i ++ (nd :: buckets[i]) :: buckets.drop (i + 1) := by
    rw [addNode, ← hi', List.modify_eq_take_cons_drop hi]
  rw [hadd]
  conv_rhs => rw [hsplit]
  simp only [List.flatten_append, List.flatten_cons, List.cons_append]
  exact List.perm_middle

theorem getD_addNode {buckets : List (List (MapNode β))} (nd : MapNode β)
    (h : 0 < buckets.length) (i : ℕ) :
    (addNode buckets nd).getD i []
      = if mapBucketidx buckets.length nd.hash = i then nd :: buckets.getD i []
        else buckets.getD i [] := by
  have hlt := mapBucketidx_lt h nd.hash
  simp only [addNode, List.getD_eq_getElem?_getD, List.getElem?_modify]
  split
  · rename_i hi
    rw [← hi, List.getElem?_eq_getElem hlt]
    rfl
  · cases buckets[i]? <;> rfl

/-- Adding a node of a new key keeps every node where it is looked for. -/
theorem Placed.addNode {buckets : List (List (MapNode β))} (hp : Placed buckets)
    (hlen : 0 < buckets.length) {nd : MapNode β} (hhash : nd.hash = mapHash nd.key)
    (hfresh : nd.key ∉ buckets.flatten.map MapNode.key) :
    Placed (addNode buckets nd) := by
  have hperm := flatten_addNode_perm nd hlen
  refine ⟨fun x hx => ?_, fun i x hx => ?_, ?_⟩
  · rcases List.mem_cons.mp (hperm.mem_iff.mp hx) with rfl | hx
    · exact hhash
    · exact hp.hash_eq x hx
  · rw [length_addNode]
    rw [getD_addNode nd hlen] at hx
    split at hx
    · rename_i hi
      rcases List.mem_cons.mp hx with rfl | hx
      · exact hi
      · exact hp.idx_eq i x hx
    · exact hp.idx_eq i x hx
  · rw [(hperm.map MapNode.key).nodup_iff, List.map_cons, List.nodup_cons]
    exact ⟨hfresh, hp.nodup⟩

/-- `map_addnode`, for a node of a key the map has no node of. -/
def mapAddnode (m : Map β) (nd : MapNode β) (hpos : 0 < m.nbuckets)
    (hhash : nd.hash = mapHash nd.key) (hfresh : nd.key ∉ m.keys) : Map β where
  buckets := addNode m.buckets nd
  nnodes := m.nnodes
  placed := m.placed.addNode hpos hhash hfresh

/-! ## Growing -/

/-- The second half of `map_resize`: the nodes are added again, one after the
other, to an array of empty buckets. -/
def rechain (nbuckets : ℕ) (nodes : List (MapNode β)) : List (List (MapNode β)) :=
  nodes.foldl addNode (List.replicate nbuckets [])

/-- What the re-chaining does to the nodes of a map, which have their own
hashes and distinct keys. -/
theorem rechain_spec (nbuckets : ℕ) (hpos : 0 < nbuckets) (nodes : List (MapNode β))
    (hhash : ∀ nd ∈ nodes, nd.hash = mapHash nd.key)
    (hnodup : (nodes.map MapNode.key).Nodup) :
    (rechain nbuckets nodes).length = nbuckets
      ∧ (rechain nbuckets nodes).flatten.Perm nodes ∧ Placed (rechain nbuckets nodes) := by
  -- from the right, so that the node added last is the one peeled off
  induction nodes using List.reverseRecOn with
  | nil =>
    have hflat : (rechain nbuckets ([] : List (MapNode β))).flatten = [] := by
      simp [rechain]
    refine ⟨List.length_replicate, hflat.symm ▸ .nil, ?_, fun i nd hnd => ?_, ?_⟩
    · simp [hflat]
    · have h := mem_flatten_iff.mpr ⟨i, hnd⟩
      rw [hflat] at h
      cases h
    · simp [hflat]
  | append_singleton nodes nd ih =>
    rw [List.map_append, List.map_singleton, List.nodup_append] at hnodup
    obtain ⟨hlen, hperm, hplaced⟩ := ih (fun x hx => hhash x (by simp [hx])) hnodup.1
    have hadd : rechain nbuckets (nodes ++ [nd]) = addNode (rechain nbuckets nodes) nd :=
      List.foldl_concat ..
    have hlen' : 0 < (rechain nbuckets nodes).length := hlen.symm ▸ hpos
    rw [hadd]
    refine ⟨(length_addNode _ _).trans hlen, ?_, hplaced.addNode hlen' (hhash nd (by simp))
      fun h => ?_⟩
    · refine (flatten_addNode_perm nd hlen').trans ((hperm.cons nd).trans ?_)
      exact (List.perm_append_singleton nd nodes).symm
    · exact hnodup.2.2 _ ((hperm.map MapNode.key).mem_iff.mp h) _ (by simp) rfl

/-- The first half: the nodes are chained together from the last bucket to the
first, each put before those already there. -/
def Map.chained (m : Map β) : List (MapNode β) := m.buckets.reverse.flatten.reverse

theorem Map.chained_perm (m : Map β) : m.chained.Perm m.nodes :=
  (List.reverse_perm _).trans (List.reverse_perm m.buckets).flatten

theorem Map.rechain_chained (m : Map β) {nbuckets : ℕ} (hpos : 0 < nbuckets) :
    (rechain nbuckets m.chained).length = nbuckets
      ∧ (rechain nbuckets m.chained).flatten.Perm m.chained
      ∧ Placed (rechain nbuckets m.chained) :=
  rechain_spec nbuckets hpos m.chained
    (fun nd hnd => m.placed.hash_eq nd (m.chained_perm.mem_iff.mp hnd))
    ((m.chained_perm.map MapNode.key).nodup_iff.mpr m.placed.nodup)

/-- `map_resize`. -/
def mapResize (m : Map β) (nbuckets : ℕ) (hpos : 0 < nbuckets) : Map β where
  buckets := rechain nbuckets m.chained
  nnodes := m.nnodes
  placed := (m.rechain_chained hpos).2.2

/-- **Growing a map** moves its nodes and keeps them all. -/
theorem nodes_mapResize_perm (m : Map β) {nbuckets : ℕ} (hpos : 0 < nbuckets) :
    (mapResize m nbuckets hpos).nodes.Perm m.nodes :=
  (m.rechain_chained hpos).2.1.trans m.chained_perm

@[simp] theorem nbuckets_mapResize (m : Map β) {nbuckets : ℕ} (hpos : 0 < nbuckets) :
    (mapResize m nbuckets hpos).nbuckets = nbuckets :=
  (m.rechain_chained hpos).1

/-! ## Setting a value -/

/-- The room `map_set` makes before it adds a node. -/
def makeRoom (m : Map β) : Map β :=
  if m.nnodes ≥ m.nbuckets then
    if h : m.nbuckets > 0 then mapResize m (m.nbuckets <<< 1) (by
      rw [Nat.shiftLeft_eq]
      omega)
    else mapResize m 1 one_pos
  else m

theorem nodes_makeRoom_perm (m : Map β) : (makeRoom m).nodes.Perm m.nodes := by
  unfold makeRoom
  split
  · split
    · exact nodes_mapResize_perm m _
    · exact nodes_mapResize_perm m _
  · exact .refl _

theorem nbuckets_makeRoom_pos (m : Map β) : 0 < (makeRoom m).nbuckets := by
  unfold makeRoom
  split
  · split
    · rw [nbuckets_mapResize, Nat.shiftLeft_eq]
      omega
    · rw [nbuckets_mapResize]
      exact one_pos
  · omega

/-- The `memcpy` over the value of the node of the key. No other node has the
key, so it does not matter that all nodes of the chain are tried here. -/
def MapNode.replace (key : List Char) (v : β) (nd : MapNode β) : MapNode β :=
  if nd.hasKey key then { nd with value := v } else nd

@[simp] theorem MapNode.key_replace (key : List Char) (v : β) (nd : MapNode β) :
    (nd.replace key v).key = nd.key := by
  unfold replace
  split <;> rfl

@[simp] theorem MapNode.hash_replace (key : List Char) (v : β) (nd : MapNode β) :
    (nd.replace key v).hash = nd.hash := by
  unfold replace
  split <;> rfl

/-- Replacing values keeps every node where it is looked for. -/
theorem Placed.replace {buckets : List (List (MapNode β))} (hp : Placed buckets)
    (key : List Char) (v : β) :
    Placed (buckets.map (List.map (MapNode.replace key v))) := by
  have hflat : (buckets.map (List.map (MapNode.replace key v))).flatten
      = buckets.flatten.map (MapNode.replace key v) := List.map_flatten.symm
  refine ⟨fun nd hnd => ?_, fun i nd hnd => ?_, ?_⟩
  · rw [hflat] at hnd
    obtain ⟨nd', hnd', rfl⟩ := List.mem_map.mp hnd
    rw [MapNode.hash_replace, MapNode.key_replace]
    exact hp.hash_eq nd' hnd'
  · have hget : (buckets.map (List.map (MapNode.replace key v))).getD i []
        = (buckets.getD i []).map (MapNode.replace key v) :=
      List.getD_map buckets [] (List.map (MapNode.replace key v))
    rw [hget] at hnd
    obtain ⟨nd', hnd', rfl⟩ := List.mem_map.mp hnd
    rw [List.length_map, MapNode.hash_replace]
    exact hp.idx_eq i nd' hnd'
  · rw [hflat, List.map_map]
    have hkey : MapNode.key ∘ MapNode.replace key v = MapNode.key :=
      funext fun nd => MapNode.key_replace key v nd
    rw [hkey]
    exact hp.nodup

/-- `map_set`. -/
def mapSet (m : Map β) (key : List Char) (value : β) : Map β :=
  match h : mapGetref m key with
  | some _ =>
    { buckets := m.buckets.map (List.map (MapNode.replace key value))
      nnodes := m.nnodes
      placed := m.placed.replace key value }
  | none =>
    let m' := mapAddnode (makeRoom m) ⟨mapHash key, key, value⟩ (nbuckets_makeRoom_pos m)
      rfl (fun hmem => (mapGetref_eq_none_iff m key).mp h
        (((nodes_makeRoom_perm m).map MapNode.key).mem_iff.mp hmem))
    { m' with nnodes := m'.nnodes + 1 }

/-- The nodes after `map_set` are the old ones, except for the node of the key,
which is new or has a new value. -/
theorem mem_nodes_mapSet (m : Map β) (key : List Char) (value : β) (nd : MapNode β) :
    nd ∈ (mapSet m key value).nodes
      ↔ nd = ⟨mapHash key, key, value⟩ ∨ nd ∈ m.nodes ∧ nd.key ≠ key := by
  unfold mapSet
  split
  · rename_i nd₀ h
    obtain ⟨hmem, hkey⟩ := (mapGetref_eq_some_iff m key nd₀).mp h
    have hflat : (m.buckets.map (List.map (MapNode.replace key value))).flatten
        = m.nodes.map (MapNode.replace key value) := List.map_flatten.symm
    show nd ∈ (m.buckets.map (List.map (MapNode.replace key value))).flatten ↔ _
    have hrep : ∀ x ∈ m.nodes, x.replace key value
        = if x.key = key then ⟨mapHash key, key, value⟩ else x := by
      intro x hx
      have htest : x.hasKey key = true ↔ x.key = key :=
        MapNode.hasKey_iff.trans ⟨And.right, fun hk => ⟨hk ▸ m.placed.hash_eq x hx, hk⟩⟩
      by_cases hk : x.key = key
      · rw [MapNode.replace, if_pos (htest.mpr hk), if_pos hk, m.placed.hash_eq x hx, hk]
      · rw [MapNode.replace, if_neg (fun ht => hk (htest.mp ht)), if_neg hk]
    rw [hflat, List.mem_map]
    constructor
    · rintro ⟨x, hx, rfl⟩
      rw [hrep x hx]
      by_cases hk : x.key = key
      · rw [if_pos hk]
        exact .inl rfl
      · rw [if_neg hk]
        exact .inr ⟨hx, hk⟩
    · rintro (rfl | ⟨hnd, hk⟩)
      · exact ⟨nd₀, hmem, by rw [hrep nd₀ hmem, if_pos hkey]⟩
      · exact ⟨nd, hnd, by rw [hrep nd hnd, if_neg hk]⟩
  · rename_i h
    have hperm : (addNode (makeRoom m).buckets ⟨mapHash key, key, value⟩).flatten.Perm
        (⟨mapHash key, key, value⟩ :: m.nodes) :=
      (flatten_addNode_perm _ (nbuckets_makeRoom_pos m)).trans
        ((nodes_makeRoom_perm m).cons _)
    have hfresh : ∀ x ∈ m.nodes, x.key ≠ key := fun x hx hk =>
      (mapGetref_eq_none_iff m key).mp h (List.mem_map.mpr ⟨x, hx, hk⟩)
    show nd ∈ (addNode (makeRoom m).buckets ⟨mapHash key, key, value⟩).flatten ↔ _
    rw [hperm.mem_iff, List.mem_cons]
    exact or_congr_right ⟨fun hnd => ⟨hnd, hfresh nd hnd⟩, And.left⟩

/-- **`map_get` after `map_set`.** -/
theorem mapGet_mapSet (m : Map β) (key key' : List Char) (value : β) :
    mapGet (mapSet m key value) key'
      = if key' = key then some value else mapGet m key' := by
  refine Option.ext fun v => ?_
  rw [mapGet_eq_some_iff]
  simp only [mem_nodes_mapSet]
  split
  · rename_i hkey
    rw [Option.some.injEq]
    constructor
    · rintro ⟨nd, rfl | ⟨-, hne⟩, hnd, hv⟩
      · exact hv
      · exact absurd (hnd.trans hkey) hne
    · intro hv
      exact ⟨_, .inl rfl, hkey.symm, hv⟩
  · rename_i hkey
    rw [mapGet_eq_some_iff]
    grind

/-- The keys bound after `map_set`. -/
theorem mem_keys_mapSet (m : Map β) (key key' : List Char) (value : β) :
    key' ∈ (mapSet m key value).keys ↔ key' = key ∨ key' ∈ m.keys := by
  rw [Map.mem_keys_iff, Map.mem_keys_iff, mapGet_mapSet]
  split <;> simp_all

/-! ## Removing a key -/

/-- Removing nodes keeps the others where they are looked for. -/
theorem Placed.filter {buckets : List (List (MapNode β))} (hp : Placed buckets)
    (p : MapNode β → Bool) : Placed (buckets.map (List.filter p)) := by
  have hflat : (buckets.map (List.filter p)).flatten = buckets.flatten.filter p :=
    List.filter_flatten.symm
  refine ⟨fun nd hnd => ?_, fun i nd hnd => ?_, ?_⟩
  · rw [hflat] at hnd
    exact hp.hash_eq nd (List.mem_of_mem_filter hnd)
  · have hget : (buckets.map (List.filter p)).getD i [] = (buckets.getD i []).filter p :=
      List.getD_map buckets [] (List.filter p)
    rw [hget] at hnd
    rw [List.length_map]
    exact hp.idx_eq i nd (List.mem_of_mem_filter hnd)
  · rw [hflat]
    exact hp.nodup.sublist ((List.filter_sublist).map MapNode.key)

/-- `map_remove`: the node of the key leaves its chain. -/
def mapRemove (m : Map β) (key : List Char) : Map β :=
  if (mapGetref m key).isSome then
    { buckets := m.buckets.map (List.filter (fun nd => !nd.hasKey key))
      nnodes := m.nnodes - 1
      placed := m.placed.filter _ }
  else m

theorem mem_nodes_mapRemove (m : Map β) (key : List Char) (nd : MapNode β) :
    nd ∈ (mapRemove m key).nodes ↔ nd ∈ m.nodes ∧ nd.key ≠ key := by
  unfold mapRemove
  split
  · have hflat : (m.buckets.map (List.filter (fun nd => !nd.hasKey key))).flatten
        = m.nodes.filter (fun nd => !nd.hasKey key) := List.filter_flatten.symm
    show nd ∈ (m.buckets.map (List.filter (fun nd => !nd.hasKey key))).flatten ↔ _
    rw [hflat, List.mem_filter]
    refine and_congr_right fun hnd => ?_
    rw [Bool.not_eq_true', ← Bool.not_eq_true, MapNode.hasKey_iff]
    exact not_congr ⟨And.right, fun hk => ⟨hk ▸ m.placed.hash_eq nd hnd, hk⟩⟩
  · rename_i h
    have hnone : mapGetref m key = none := Option.not_isSome_iff_eq_none.mp h
    exact ⟨fun hnd => ⟨hnd, fun hk => (mapGetref_eq_none_iff m key).mp hnone
      (List.mem_map.mpr ⟨nd, hnd, hk⟩)⟩, And.left⟩

/-- **`map_get` after `map_remove`.** -/
theorem mapGet_mapRemove (m : Map β) (key key' : List Char) :
    mapGet (mapRemove m key) key' = if key' = key then none else mapGet m key' := by
  refine Option.ext fun v => ?_
  rw [mapGet_eq_some_iff]
  simp only [mem_nodes_mapRemove]
  split
  · grind
  · rw [mapGet_eq_some_iff]
    grind

theorem mem_keys_mapRemove (m : Map β) (key key' : List Char) :
    key' ∈ (mapRemove m key).keys ↔ key' ≠ key ∧ key' ∈ m.keys := by
  rw [Map.mem_keys_iff, Map.mem_keys_iff, mapGet_mapRemove]
  split <;> simp_all

/-! ## Iteration -/

/-- An iterator: `opened` is `bucketidx + 1`, so that it is `0` where
`bucketidx` is `-1`, and `node` is the key of the node pointed to. -/
structure MapIter where
  opened : ℕ
  node : Option (List Char)

/-- `map_iter`. -/
def mapIter : MapIter := ⟨0, none⟩

/-- The part of `map_next` after `nextBucket`, over the buckets not yet
opened. -/
def nextBucket : List (List (MapNode β)) → ℕ → Option (List Char) × MapIter
  | [], i => (none, ⟨i + 1, none⟩)
  | [] :: rest, i => nextBucket rest (i + 1)
  | (nd :: _) :: _, i => (some nd.key, ⟨i + 1, some nd.key⟩)

/-- `map_next`. It follows the `next` link of the node the iterator stands on,
which is wild once the node has been removed and freed. -/
def mapNext (m : Map β) (iter : MapIter) : Except Fault (Option (List Char) × MapIter) :=
  match iter.node with
  | none => .ok (nextBucket (m.buckets.drop iter.opened) iter.opened)
  | some key =>
    match (m.chain key).dropWhile (fun nd => nd.key ≠ key) with
    | [] => .error .wild
    | [_] => .ok (nextBucket (m.buckets.drop iter.opened) iter.opened)
    | _ :: nd :: _ => .ok (some nd.key, { iter with node := some nd.key })

/-- **What an iterator still has to visit**: the rest of the chain it stands
in, then the buckets it has not opened. -/
inductive IterAt (m : Map β) : MapIter → List (List Char) → Prop
  | between (i : ℕ) : IterAt m ⟨i, none⟩ ((m.buckets.drop i).flatten.map MapNode.key)
  | inside (i : ℕ) (pre post : List (MapNode β)) (nd : MapNode β)
      (hchain : m.buckets[i]? = some (pre ++ nd :: post)) :
      IterAt m ⟨i + 1, some nd.key⟩
        (post.map MapNode.key ++ (m.buckets.drop (i + 1)).flatten.map MapNode.key)

theorem iterAt_mapIter (m : Map β) : IterAt m mapIter m.keys := .between 0

theorem nextBucket_at (m : Map β) (i : ℕ) {keys : List (List Char)}
    (hkeys : keys = (m.buckets.drop i).flatten.map MapNode.key) :
    ∃ iter, nextBucket (m.buckets.drop i) i = (keys.head?, iter)
      ∧ (keys ≠ [] → IterAt m iter keys.tail) := by
  generalize hrest : m.buckets.drop i = rest at hkeys ⊢
  induction rest generalizing i with
  | nil =>
    subst hkeys
    exact ⟨_, rfl, fun h => absurd rfl h⟩
  | cons b rest ih =>
    have hdrop : m.buckets.drop (i + 1) = rest := by
      rw [← List.tail_drop, hrest, List.tail_cons]
    cases b with
    | nil => exact ih (i + 1) hdrop hkeys
    | cons nd post =>
      subst hkeys
      have hget : m.buckets[i]? = some ([] ++ nd :: post) := by
        rw [← List.head?_drop, hrest]
        rfl
      refine ⟨_, rfl, fun _ => ?_⟩
      have h := IterAt.inside i [] post nd hget
      rw [hdrop, ← List.map_append] at h
      exact h

/-- The chain of a key is the bucket its node is in. -/
theorem Map.chain_eq (m : Map β) {i : ℕ} {b : List (MapNode β)} {nd : MapNode β}
    (hb : m.buckets[i]? = some b) (hnd : nd ∈ b) : m.chain nd.key = b := by
  have hget : m.buckets.getD i [] = b := by rw [List.getD_eq_getElem?_getD, hb]; rfl
  have hmem : nd ∈ m.nodes := mem_flatten_iff.mpr ⟨i, hget ▸ hnd⟩
  have hidx := m.placed.idx_eq i nd (hget ▸ hnd)
  rw [m.placed.hash_eq nd hmem] at hidx
  rw [Map.chain, Map.nbuckets, hidx, hget]

/-- **One call of `map_next`** returns the first key still to visit, and leaves
the others. -/
theorem mapNext_at {m : Map β} {iter : MapIter} {keys : List (List Char)}
    (h : IterAt m iter keys) :
    ∃ iter', mapNext m iter = .ok (keys.head?, iter')
      ∧ (keys ≠ [] → IterAt m iter' keys.tail) := by
  cases h with
  | between i =>
    obtain ⟨iter', hnext, hat⟩ := nextBucket_at m i rfl
    exact ⟨iter', congrArg Except.ok hnext, hat⟩
  | inside i pre post nd hchain =>
    have hb : m.chain nd.key = pre ++ nd :: post := m.chain_eq hchain (by simp)
    -- no node before it in the chain has its key
    have hpre : ∀ x ∈ pre, x.key ≠ nd.key := by
      have hsub : (pre ++ nd :: post).Sublist m.nodes :=
        List.sublist_flatten_of_mem (List.mem_of_getElem? hchain)
      have hnodup := m.placed.nodup.sublist (hsub.map MapNode.key)
      rw [List.map_append, List.map_cons, List.nodup_append] at hnodup
      exact fun x hx => hnodup.2.2 _ (List.mem_map_of_mem hx) _ List.mem_cons_self
    have hdrop : (m.chain nd.key).dropWhile (fun x => decide (x.key ≠ nd.key))
        = nd :: post := by
      rw [hb, List.dropWhile_append_of_pos (by simpa using hpre), List.dropWhile_cons_of_neg]
      simp
    cases post with
    | nil =>
      obtain ⟨iter', hnext, hat⟩ := nextBucket_at m (i + 1) rfl
      refine ⟨iter', ?_, hat⟩
      simp only [mapNext, hdrop]
      exact congrArg Except.ok hnext
    | cons nd' post =>
      refine ⟨⟨i + 1, some nd'.key⟩, ?_, fun _ => ?_⟩
      · simp only [mapNext, hdrop]
        rfl
      · have hchain' : m.buckets[i]? = some ((pre ++ [nd]) ++ nd' :: post) := by
          rw [hchain, List.append_assoc]
          rfl
        exact .inside i (pre ++ [nd]) post nd' hchain'

/-- The iterator is left on the node whose key is returned. -/
theorem mapNext_node {m : Map β} {iter iter' : MapIter} {key : List Char}
    (h : mapNext m iter = .ok (some key, iter')) : iter'.node = some key := by
  have hbucket : ∀ (bs : List (List (MapNode β))) (i : ℕ),
      nextBucket bs i = (some key, iter') → iter'.node = some key := by
    intro bs
    induction bs with
    | nil => exact fun i h => by cases h
    | cons b bs ih =>
      intro i h
      cases b with
      | nil => exact ih (i + 1) h
      | cons nd post =>
        cases h
        rfl
  unfold mapNext at h
  split at h
  · exact hbucket _ _ (Except.ok.inj h)
  · split at h
    · cases h
    · exact hbucket _ _ (Except.ok.inj h)
    · cases h
      rfl

/-- **`map_next` is wild on a node that has left the map.** -/
theorem mapNext_of_unbound {m : Map β} {iter : MapIter} {key : List Char}
    (hnode : iter.node = some key) (h : mapGet m key = none) :
    mapNext m iter = .error .wild := by
  have hkeys := (mapGet_eq_none_iff m key).mp h
  have hchain : ∀ nd ∈ m.chain key, nd.key ≠ key := by
    intro nd hnd hkey
    refine hkeys (hkey ▸ List.mem_map_of_mem (mem_flatten_iff.mpr ⟨_, hnd⟩))
  have hdrop : (m.chain key).dropWhile (fun nd => decide (nd.key ≠ key)) = [] := by
    rw [List.dropWhile_eq_nil_iff]
    exact fun nd hnd => decide_eq_true (hchain nd hnd)
  unfold mapNext
  rw [hnode]
  dsimp only
  rw [hdrop]

end Miaouchat
