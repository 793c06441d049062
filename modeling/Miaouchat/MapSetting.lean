import Miaouchat.MapBase

/-!
# Setting values in memory

`map_set` is the one operation of `map.c` that asks for memory: a node for a key
that is not bound, and now and then a larger array of buckets. Both requests may
be refused, and `map_set` then returns `-1`. By that time `map_resize` may have
taken all chains apart; it has put the nodes back into as many buckets as before,
not always in the same order.

`mapTrySet` is what `map_set` does to a map whatever the allocator answers, and
`set_refines` says that in memory it does just that.
-/

namespace Miaouchat

variable {β : Type}

/-! ## Adding a node -/

section Adding

/-- `addNode`, with the addresses. -/
def addAt (xss : List (List (ℕ × MapNode β))) (x : ℕ × MapNode β) :
    List (List (ℕ × MapNode β)) :=
  xss.modify (mapBucketidx xss.length x.2.hash) (x :: ·)

variable {xss : List (List (ℕ × MapNode β))} {x : ℕ × MapNode β}

theorem addAt_split (hpos : 0 < xss.length) (x : ℕ × MapNode β) :
    ∃ A xs B, xss = A ++ xs :: B ∧ A.length = mapBucketidx xss.length x.2.hash
      ∧ addAt xss x = A ++ (x :: xs) :: B := by
  have hlt := mapBucketidx_lt hpos x.2.hash
  refine ⟨xss.take (mapBucketidx xss.length x.2.hash), xss[mapBucketidx xss.length x.2.hash],
    xss.drop (mapBucketidx xss.length x.2.hash + 1), ?_, List.length_take_of_le hlt.le, ?_⟩
  · rw [List.getElem_cons_drop, List.take_append_drop]
  · rw [addAt, List.modify_eq_take_cons_drop hlt]

@[simp] theorem length_addAt (xss : List (List (ℕ × MapNode β))) (x : ℕ × MapNode β) :
    (addAt xss x).length = xss.length :=
  List.length_modify ..

theorem flatten_addAt_perm (hpos : 0 < xss.length) (x : ℕ × MapNode β) :
    (addAt xss x).flatten.Perm (x :: xss.flatten) := by
  obtain ⟨A, xs, B, rfl, -, hadd⟩ := addAt_split hpos x
  rw [hadd]
  exact (List.perm_middle.flatten).trans ((List.perm_middle.flatten).symm.cons x)

/-- The addresses aside, it is `addNode`. -/
theorem map_addAt (hpos : 0 < xss.length) (x : ℕ × MapNode β) :
    (addAt xss x).map (List.map Prod.snd) = addNode (xss.map (List.map Prod.snd)) x.2 := by
  have hlt := mapBucketidx_lt hpos x.2.hash
  rw [addAt, addNode, List.length_map, List.modify_eq_take_cons_drop hlt,
    List.modify_eq_take_cons_drop (by rwa [List.length_map]), List.map_append, List.map_cons,
    List.map_take, List.map_drop, List.getElem_map]
  rfl

/-- **`map_addnode`** puts a node that is in no chain at the head of the chain of
its hash. -/
theorem Laid.addnode {m : MapBase β} (hl : Laid m.heap m.buckets xss) {p : Option ℕ}
    (hx : m.heap x.1 = some ⟨p, x.2⟩) (hnew : x.1 ∉ xss.flatten.map Prod.fst)
    (hpos : 0 < xss.length) :
    ∃ q, m.addnode x.1 = .ok { m with
          heap := m.heap.set x.1 (some ⟨q, x.2⟩)
          buckets := (addAt xss x).map (headAddr none) }
      ∧ Laid (m.heap.set x.1 (some ⟨q, x.2⟩)) ((addAt xss x).map (headAddr none))
        (addAt xss x) := by
  obtain ⟨A, xs, B, rfl, hlen, hadd⟩ := addAt_split hpos x
  rw [hadd]
  have hload : m.load (refOf A.length ([] : List (ℕ × MapNode β))) = .ok (headAddr none xs) :=
    hl.load (by simp)
  have hidx : mapBucketidx m.buckets.length x.2.hash = A.length := by
    rw [hl.heads, List.length_map]
    exact hlen.symm
  have hset : m.buckets.set A.length (some x.1)
      = (A ++ (x :: xs) :: B).map (headAddr none) := by
    rw [hl.heads]
    simp
  have hlt : A.length < m.buckets.length := by
    rw [hl.heads]
    simp
  have hnot : ∀ ys : List (ℕ × MapNode β), ys.Sublist (A ++ xs :: B).flatten →
      x.1 ∉ ys.map Prod.fst := fun ys hys hmem => hnew ((hys.map Prod.fst).subset hmem)
  have hxs : xs.Sublist (A ++ xs :: B).flatten := List.sublist_flatten_of_mem (by simp)
  have hAB : (A ++ B).flatten.Sublist (A ++ xs :: B).flatten :=
    ((List.sublist_cons_self xs B).append_left A).flatten
  refine ⟨headAddr none xs, ?_, hl.change ((hl.chained xs (by simp)).push (hnot xs hxs) x.2)
    (fun a ha => Links.set_of_ne fun heq => hnot _ hAB (heq ▸ ha)) ?_⟩
  · show (m.heap.deref (some x.1)).bind _ = _
    rw [Links.deref_some hx]
    show (m.load (.bucket (mapBucketidx m.buckets.length x.2.hash))).bind _ = _
    rw [hidx]
    show (m.load (refOf A.length ([] : List (ℕ × MapNode β)))).bind _ = _
    rw [hload]
    show (m.heap.setNext (some x.1) (headAddr none xs)).bind _ = _
    rw [Links.setNext_some hx]
    show (if A.length < m.buckets.length then _ else _) = _
    rw [if_pos hlt, hset]
  · have hperm : ((x :: xs) ++ (A ++ B).flatten).Perm (x :: (A ++ xs :: B).flatten) :=
      (List.perm_middle.flatten.symm).cons x
    rw [(hperm.map Prod.fst).nodup_iff, List.map_cons]
    exact List.nodup_cons.mpr ⟨hnew, hl.nodup⟩

end Adding

/-! ## Growing -/

section Growing

variable {xss : List (List (ℕ × MapNode β))} {h : Links (MapNode β)}

/-- `rechain`, with the addresses. -/
def rechainAt (nbuckets : ℕ) (xs : List (ℕ × MapNode β)) : List (List (ℕ × MapNode β)) :=
  xs.foldl addAt (List.replicate nbuckets [])

theorem rechainAt_concat (nbuckets : ℕ) (xs : List (ℕ × MapNode β)) (x : ℕ × MapNode β) :
    rechainAt nbuckets (xs ++ [x]) = addAt (rechainAt nbuckets xs) x :=
  List.foldl_concat ..

@[simp] theorem length_rechainAt (nbuckets : ℕ) (xs : List (ℕ × MapNode β)) :
    (rechainAt nbuckets xs).length = nbuckets := by
  induction xs using List.reverseRecOn with
  | nil => exact List.length_replicate
  | append_singleton xs x ih => rw [rechainAt_concat, length_addAt, ih]

theorem flatten_rechainAt_perm {nbuckets : ℕ} (hpos : 0 < nbuckets)
    (xs : List (ℕ × MapNode β)) : (rechainAt nbuckets xs).flatten.Perm xs := by
  induction xs using List.reverseRecOn with
  | nil => simp [rechainAt]
  | append_singleton xs x ih =>
    rw [rechainAt_concat]
    refine (flatten_addAt_perm (by rwa [length_rechainAt]) x).trans ((ih.cons x).trans ?_)
    exact (List.perm_append_singleton x xs).symm

/-- The addresses aside, it is `rechain`. -/
theorem map_rechainAt {nbuckets : ℕ} (hpos : 0 < nbuckets) (xs : List (ℕ × MapNode β)) :
    (rechainAt nbuckets xs).map (List.map Prod.snd) = rechain nbuckets (xs.map Prod.snd) := by
  induction xs using List.reverseRecOn with
  | nil => simp [rechainAt, rechain]
  | append_singleton xs x ih =>
    rw [rechainAt_concat, map_addAt (by rwa [length_rechainAt]), ih, List.map_append, rechain,
      rechain, List.map_singleton, List.foldl_concat]

/-- **The nodes of one bucket** are chained before those chained so far. -/
theorem chainBucket_chained {used : ℕ} {xs acc : List (ℕ × MapNode β)}
    (hxs : Chained h xs none) (hacc : Chained h acc none)
    (hnodup : ((xs ++ acc).map Prod.fst).Nodup) (hlen : xs.length ≤ used) :
    ∃ h', MapBase.chainBucket used (headAddr none acc, h) (headAddr none xs)
        = .ok (headAddr none (xs.reverse ++ acc), h')
      ∧ Chained h' (xs.reverse ++ acc) none ∧ Relinked h h' (xs.map Prod.fst) := by
  let P : List (ℕ × MapNode β) → Option ℕ × Links (MapNode β) → Prop := fun ys s =>
    s.1 = headAddr none (ys.reverse ++ acc) ∧ Chained s.2 (ys.reverse ++ acc) none
      ∧ Relinked h s.2 (ys.map Prod.fst)
  have hround : ∀ ys x zs s, xs = ys ++ x :: zs → Chained s.2 (x :: zs) none → P ys s →
      ∃ s', MapBase.chainNode x.1 s = .ok s' ∧ Chained s'.2 zs none ∧ P (ys ++ [x]) s' := by
    rintro ys x zs ⟨p, h₁⟩ rfl hx ⟨rfl, hys, hre⟩
    have hperm : ((ys ++ x :: zs) ++ acc).Perm (x :: (ys.reverse ++ acc ++ zs)) := by
      refine (List.perm_middle.append_right acc).trans (.cons x ?_)
      show (ys ++ zs ++ acc).Perm _
      rw [List.append_assoc, List.append_assoc]
      exact (ys.reverse_perm.symm).append List.perm_append_comm
    rw [(hperm.map Prod.fst).nodup_iff, List.map_cons, List.nodup_cons, List.map_append,
      List.mem_append, not_or] at hnodup
    have hrev : (ys ++ [x]).reverse ++ acc = x :: (ys.reverse ++ acc) := by simp
    refine ⟨(some x.1, h₁.set x.1 (some ⟨headAddr none (ys.reverse ++ acc), x.2⟩)), ?_,
      hx.2.set hnodup.1.2 _, by rw [hrev]; rfl, by rw [hrev]; exact hys.push hnodup.1.1 x.2, ?_⟩
    · show (h₁.setNext (some x.1) _).bind _ = _
      rw [Links.setNext_some hx.1]
      rfl
    · rw [List.map_append]
      exact hre.trans (.set hx.1 _)
  have hloop : ∃ s', MapBase.chainBucket used (headAddr none acc, h) (headAddr none xs) = .ok s'
      ∧ P xs s' := whileNode_chained hround hlen hxs ⟨rfl, hacc, .refl _ _⟩
  obtain ⟨⟨p, h'⟩, hrun, rfl, hchain, hre⟩ := hloop
  exact ⟨h', hrun, hchain, hre⟩

/-- **The first half of `map_resize`**: all nodes in one chain. -/
theorem chainBuckets_chained {used : ℕ} {yss : List (List (ℕ × MapNode β))}
    {acc : List (ℕ × MapNode β)} (hyss : ∀ ys ∈ yss, Chained h ys none)
    (hacc : Chained h acc none) (hnodup : ((yss.flatten ++ acc).map Prod.fst).Nodup)
    (hlen : ∀ ys ∈ yss, ys.length ≤ used) :
    ∃ h', (yss.map (headAddr none)).foldlM (MapBase.chainBucket used) (headAddr none acc, h)
        = .ok (headAddr none (yss.flatten.reverse ++ acc), h')
      ∧ Chained h' (yss.flatten.reverse ++ acc) none
      ∧ Relinked h h' (yss.flatten.map Prod.fst) := by
  induction yss generalizing acc h with
  | nil => exact ⟨h, rfl, hacc, .refl _ _⟩
  | cons ys yss ih =>
    rw [List.flatten_cons, List.append_assoc] at hnodup
    have hperm : (ys ++ (yss.flatten ++ acc)).Perm (yss.flatten ++ (ys.reverse ++ acc)) := by
      rw [← List.append_assoc, ← List.append_assoc]
      refine (List.perm_append_comm.append_right acc).trans ?_
      exact ((ys.reverse_perm.symm).append_left _).append_right acc
    have hys : ((ys ++ acc).map Prod.fst).Nodup := by
      refine hnodup.sublist (List.Sublist.map _ ?_)
      exact (List.sublist_append_right yss.flatten acc).append_left ys
    obtain ⟨h₁, hrun₁, hchain₁, hre₁⟩ := chainBucket_chained (hyss ys List.mem_cons_self) hacc hys
      (hlen ys List.mem_cons_self)
    have hothers : ∀ zs ∈ yss, Chained h₁ zs none := by
      intro zs hzs
      refine (hyss zs (List.mem_cons_of_mem _ hzs)).frame fun a ha => hre₁.same a fun hmem => ?_
      rw [List.map_append] at hnodup
      refine (List.nodup_append.mp hnodup).2.2 a hmem a ?_ rfl
      rw [List.map_append]
      exact List.mem_append_left _ (((List.sublist_flatten_of_mem hzs).map Prod.fst).subset ha)
    obtain ⟨h', hrun, hchain, hre⟩ := ih hothers hchain₁
      ((hperm.map Prod.fst).nodup_iff.mp hnodup) fun zs hzs => hlen zs (List.mem_cons_of_mem _ hzs)
    have hrev : (ys :: yss).flatten.reverse ++ acc
        = yss.flatten.reverse ++ (ys.reverse ++ acc) := by
      rw [List.flatten_cons, List.reverse_append, List.append_assoc]
    rw [hrev]
    refine ⟨h', ?_, hchain, ?_⟩
    · rw [List.map_cons, List.foldlM_cons, hrun₁]
      exact hrun
    · rw [List.flatten_cons, List.map_append]
      exact hre₁.trans hre

/-- **The second half of `map_resize`**: the nodes of the chain are put into
empty buckets. -/
theorem readd_laid {m : MapBase β} {xs : List (ℕ × MapNode β)} (hxs : Chained m.heap xs none)
    (hnodup : (xs.map Prod.fst).Nodup) (hlen : xs.length ≤ m.used) {nbuckets : ℕ}
    (hpos : 0 < nbuckets) :
    ∃ h, whileNode MapBase.heap MapBase.addnode m.used (headAddr none xs)
          { m with buckets := List.replicate nbuckets none }
        = .ok { m with heap := h, buckets := (rechainAt nbuckets xs).map (headAddr none) }
      ∧ Laid h ((rechainAt nbuckets xs).map (headAddr none)) (rechainAt nbuckets xs)
      ∧ Relinked m.heap h (xs.map Prod.fst) := by
  let P : List (ℕ × MapNode β) → MapBase β → Prop := fun ys m' =>
    m' = { m with heap := m'.heap, buckets := (rechainAt nbuckets ys).map (headAddr none) }
      ∧ Laid m'.heap m'.buckets (rechainAt nbuckets ys)
      ∧ Relinked m.heap m'.heap (ys.map Prod.fst)
  have hempty : (rechainAt nbuckets []).map (headAddr none)
      = List.replicate nbuckets none :=
    List.map_replicate (f := headAddr (α := MapNode β) none)
  have hnone : Laid m.heap (List.replicate nbuckets none) (rechainAt nbuckets []) := by
    refine ⟨hempty.symm, fun ys hys => ?_, ?_⟩
    · rw [List.eq_of_mem_replicate hys]
      trivial
    · simp [rechainAt]
  have hround : ∀ ys x zs m', xs = ys ++ x :: zs → Chained m'.heap (x :: zs) none → P ys m' →
      ∃ m'', MapBase.addnode x.1 m' = .ok m'' ∧ Chained m''.heap zs none ∧ P (ys ++ [x]) m'' := by
    rintro ys x zs m₁ rfl hx ⟨hm₁, hlaid, hre⟩
    have hperm : (ys ++ x :: zs).Perm (x :: (ys ++ zs)) := List.perm_middle
    rw [(hperm.map Prod.fst).nodup_iff, List.map_cons, List.nodup_cons, List.map_append,
      List.mem_append, not_or] at hnodup
    have hnew : x.1 ∉ (rechainAt nbuckets ys).flatten.map Prod.fst := fun hmem =>
      hnodup.1.1 (((flatten_rechainAt_perm hpos ys).map Prod.fst).mem_iff.mp hmem)
    obtain ⟨q, hadd, hlaid'⟩ := hlaid.addnode hx.1 hnew (by rwa [length_rechainAt])
    rw [← rechainAt_concat] at hadd hlaid'
    refine ⟨_, hadd, hx.2.set hnodup.1.2 _, ?_, hlaid', ?_⟩
    · rw [hm₁]
    · rw [List.map_append]
      exact hre.trans (.set hx.1 _)
  have hloop : ∃ m', whileNode MapBase.heap MapBase.addnode m.used (headAddr none xs)
      { m with buckets := List.replicate nbuckets none } = .ok m' ∧ P xs m' :=
    whileNode_chained hround hlen hxs ⟨by rw [hempty], hnone, .refl _ _⟩
  obtain ⟨m', hrun, hm', hlaid, hre⟩ := hloop
  rw [hm'] at hlaid
  exact ⟨m'.heap, hrun.trans (congrArg Except.ok hm'), hlaid, hre⟩

/-- A map whose nodes are put again into `nbuckets` buckets, where there is one. -/
def rebucket (M : Map β) (nbuckets : ℕ) : Map β :=
  if h : 0 < nbuckets then mapResize M nbuckets h else M

theorem nodes_rebucket_perm (M : Map β) (nbuckets : ℕ) :
    (rebucket M nbuckets).nodes.Perm M.nodes := by
  unfold rebucket
  split
  · exact nodes_mapResize_perm M _
  · exact .refl _

theorem nnodes_rebucket (M : Map β) (nbuckets : ℕ) :
    (rebucket M nbuckets).nnodes = M.nnodes := by
  unfold rebucket
  split <;> rfl

theorem nbuckets_rebucket {M : Map β} {nbuckets : ℕ} (h : nbuckets = 0 → M.nbuckets = 0) :
    (rebucket M nbuckets).nbuckets = nbuckets := by
  unfold rebucket
  split
  · exact nbuckets_mapResize M _
  · rename_i hzero
    have hn : nbuckets = 0 := Nat.eq_zero_of_not_pos hzero
    rw [hn, h hn]

/-- **`map_resize`**: the nodes of the map are in the new buckets or, where
`realloc` fails, again in as many as there were. Nothing else in memory is written
to. -/
theorem Laid.resize {m : MapBase β} {M : Map β} (hl : Laid m.heap m.buckets xss)
    (hM : xss.map (List.map Prod.snd) = M.buckets) (hlen : xss.flatten.length ≤ m.used)
    {nbuckets : ℕ} (hpos : 0 < nbuckets) (realloc : Bool) :
    ∃ h xss', m.resize nbuckets realloc
        = .ok (if realloc then 0 else -1,
          { m with heap := h, buckets := xss'.map (headAddr none) })
      ∧ Laid h (xss'.map (headAddr none)) xss'
      ∧ xss'.map (List.map Prod.snd)
        = (rebucket M (if realloc then nbuckets else M.nbuckets)).buckets
      ∧ xss'.flatten.Perm xss.flatten ∧ Relinked m.heap h (xss.flatten.map Prod.fst) := by
  have hlength : m.buckets.length = M.nbuckets := by
    rw [hl.heads, Map.nbuckets, ← hM, List.length_map, List.length_map]
  have hrev : (xss.reverse.flatten.reverse).Perm xss.flatten :=
    (List.reverse_perm _).trans xss.reverse_perm.flatten
  have hchains : ∀ ys ∈ xss.reverse, Chained m.heap ys none := fun ys hys =>
    hl.chained ys (List.mem_reverse.mp hys)
  have hnone : Chained m.heap ([] : List (ℕ × MapNode β)) none := trivial
  have hnodup : ((xss.reverse.flatten ++ []).map Prod.fst).Nodup := by
    rw [List.append_nil, (xss.reverse_perm.flatten.map Prod.fst).nodup_iff]
    exact hl.nodup
  obtain ⟨h₁, hrun₁, hchain₁, hre₁⟩ := chainBuckets_chained hchains hnone hnodup fun ys hys =>
    (List.sublist_flatten_of_mem (List.mem_reverse.mp hys)).length_le.trans hlen
  rw [List.append_nil] at hrun₁ hchain₁
  rw [List.map_reverse, ← hl.heads, headAddr_nil] at hrun₁
  have hre₁' := hre₁.mono ((xss.reverse_perm.flatten.map Prod.fst).subset)
  rw [← hlength]
  generalize hn : (if realloc then nbuckets else m.buckets.length) = n
  have hrun : m.resize nbuckets realloc = (do
      let m' ←
        if n > 0 then
          whileNode MapBase.heap MapBase.addnode m.used
            (headAddr none xss.reverse.flatten.reverse)
            { m with heap := h₁, buckets := List.replicate n none }
        else pure { m with heap := h₁ }
      return (if realloc then 0 else -1, m')) := by
    rw [← hn]
    show (m.buckets.reverse.foldlM (MapBase.chainBucket m.used) (none, m.heap)).bind _ = _
    rw [hrun₁]
    rfl
  rw [hrun]
  by_cases hnpos : 0 < n
  · obtain ⟨h, hloop, hlaid, hre⟩ := readd_laid (m := { m with heap := h₁ }) hchain₁
      ((hrev.map Prod.fst).nodup_iff.mpr hl.nodup) (hrev.length_eq.trans_le hlen) hnpos
    refine ⟨h, rechainAt n xss.reverse.flatten.reverse, ?_, hlaid, ?_,
      (flatten_rechainAt_perm hnpos _).trans hrev,
      (hre₁'.trans (hre.mono (hrev.map Prod.fst).subset)).mono fun a ha =>
        (List.mem_append.mp ha).elim id id⟩
    · rw [if_pos hnpos]
      exact congrArg (Except.map fun m' => (if realloc then 0 else -1, m')) hloop
    · rw [map_rechainAt hnpos, rebucket, dif_pos hnpos]
      show _ = rechain n M.chained
      rw [Map.chained, ← hM, List.map_reverse, List.map_flatten, List.map_reverse]
  · -- no bucket, and so no node
    have hno : m.buckets.length = 0 := by
      by_contra hne
      apply hnpos
      rw [← hn]
      split
      · exact hpos
      · exact Nat.pos_of_ne_zero hne
    have hnil : xss = [] := by
      rw [hl.heads, List.length_map] at hno
      exact List.length_eq_zero_iff.mp hno
    have hbuckets : m.buckets = xss.map (headAddr none) := hl.heads
    refine ⟨h₁, xss, ?_, ⟨rfl, ?_, hl.nodup⟩, ?_, .refl _, hre₁'⟩
    · rw [if_neg hnpos, ← hbuckets]
      rfl
    · rw [hnil]
      exact fun _ h => absurd h List.not_mem_nil
    · rw [rebucket, dif_neg hnpos, hM]

end Growing

/-! ## Setting a value -/

section Setting

variable {m : MapBase β} {M : Map β} {xss xss' : List (List (ℕ × MapNode β))}
  {h : Links (MapNode β)} {buckets : List (Option ℕ)}

/-- `map_set` where `malloc` and `realloc` may fail. -/
def mapTrySet (M : Map β) (key : List Char) (value : β) (malloc realloc : Bool) : ℤ × Map β :=
  if (mapGetref M key).isSome then (0, mapSet M key value)
  else if malloc = false then (-1, M)
  else if M.nnodes ≥ M.nbuckets ∧ realloc = false then (-1, rebucket M M.nbuckets)
  else (0, mapSet M key value)

theorem mapSet_of_some {key : List Char} {nd : MapNode β} (hkey : mapGetref M key = some nd)
    (value : β) :
    (mapSet M key value).buckets = M.buckets.map (List.map (MapNode.replace key value))
      ∧ (mapSet M key value).nnodes = M.nnodes := by
  unfold mapSet
  split
  · exact ⟨rfl, rfl⟩
  · rename_i hnone
    cases hkey.symm.trans hnone

theorem mapSet_of_none {key : List Char} (hkey : mapGetref M key = none) (value : β) :
    (mapSet M key value).buckets = addNode (makeRoom M).buckets ⟨mapHash key, key, value⟩
      ∧ (mapSet M key value).nnodes = (makeRoom M).nnodes + 1 := by
  unfold mapSet
  split
  · rename_i hsome
    cases hkey.symm.trans hsome
  · exact ⟨rfl, rfl⟩

theorem makeRoom_eq (M : Map β) :
    makeRoom M = if M.nnodes ≥ M.nbuckets then
        rebucket M (if M.nbuckets > 0 then M.nbuckets <<< 1 else 1) else M := by
  unfold makeRoom
  split
  · split
    · rw [rebucket, dif_pos]
    · rfl
  · rfl

theorem nnodes_makeRoom (M : Map β) : (makeRoom M).nnodes = M.nnodes := by
  rw [makeRoom_eq]
  split
  · exact nnodes_rebucket ..
  · rfl

/-- **`map_set` makes room**, or puts the nodes back. -/
theorem Laid.makeRoom (hl : Laid m.heap m.buckets xss)
    (hM : xss.map (List.map Prod.snd) = M.buckets) (hlen : xss.flatten.length ≤ m.used)
    (hnnodes : m.nnodes = M.nnodes) (realloc : Bool) :
    ∃ h xss', m.makeRoom realloc
        = .ok (if M.nnodes ≥ M.nbuckets ∧ realloc = false then -1 else 0,
          { m with heap := h, buckets := xss'.map (headAddr none) })
      ∧ Laid h (xss'.map (headAddr none)) xss'
      ∧ xss'.map (List.map Prod.snd)
        = (if M.nnodes ≥ M.nbuckets ∧ realloc = false then rebucket M M.nbuckets
          else makeRoom M).buckets
      ∧ xss'.flatten.Perm xss.flatten ∧ Relinked m.heap h (xss.flatten.map Prod.fst) := by
  have hlength : m.buckets.length = M.nbuckets := by
    rw [hl.heads, Map.nbuckets, ← hM, List.length_map, List.length_map]
  have hroom : m.makeRoom realloc = if M.nnodes ≥ M.nbuckets then
      m.resize (if M.nbuckets > 0 then M.nbuckets <<< 1 else 1) realloc else .ok (0, m) := by
    rw [MapBase.makeRoom, hnnodes, hlength]
  rw [hroom]
  by_cases hfull : M.nnodes ≥ M.nbuckets
  · have hpos : 0 < if M.nbuckets > 0 then M.nbuckets <<< 1 else 1 := by
      split
      · rw [Nat.shiftLeft_eq]
        omega
      · exact one_pos
    obtain ⟨h, xss', hrun, hlaid, hM', hperm, hre⟩ := hl.resize hM hlen hpos realloc
    refine ⟨h, xss', ?_, hlaid, ?_, hperm, hre⟩
    · rw [if_pos hfull, hrun]
      cases realloc <;> simp [hfull]
    · rw [hM', makeRoom_eq, if_pos hfull]
      cases realloc <;> simp [hfull]
  · refine ⟨m.heap, xss, ?_, hl.heads ▸ hl, ?_, .refl _, .refl _ _⟩
    · rw [if_neg hfull, if_neg (fun h => hfull h.1), ← hl.heads]
    · rw [if_neg (fun h => hfull h.1), makeRoom_eq, if_neg hfull, hM]

/-- **The addresses given out** keep their nodes, or stay free. -/
structure KeysKept (m m' : MapBase β) : Prop where
  used_le : m.used ≤ m'.used
  keyOf_eq : ∀ a < m.used, m'.keyOf a = m.keyOf a

theorem KeysKept.refl (m : MapBase β) : KeysKept m m := ⟨le_rfl, fun _ _ => rfl⟩

/-- The nodes at these addresses are the same before and after. -/
theorem Mirrors.keysKept {m' : MapBase β} (hrep : Mirrors m xss) (hrep' : Mirrors m' xss')
    (hused : m.used ≤ m'.used)
    (htags : ∀ t : ℕ × List Char, t.1 < m.used →
      (t ∈ xss'.flatten.map tagOf ↔ t ∈ xss.flatten.map tagOf)) : KeysKept m m' :=
  ⟨hused, fun a ha => Option.ext fun key => by
    rw [hrep'.keyOf_eq_some, hrep.keyOf_eq_some, htags (a, key) ha]⟩

/-- **A new node is in the map.** -/
theorem Mirrors.added (hrep : Mirrors m xss) {x : ℕ × MapNode β} (hx : x.1 = m.used)
    (hl : Laid h buckets xss') (hperm : xss'.flatten.Perm (x :: xss.flatten))
    (hlive : ∀ a, a ≠ m.used → (h a = none ↔ m.heap a = none)) (hnew : h m.used ≠ none) (n : ℕ) :
    Mirrors { m with heap := h, buckets := buckets, used := m.used + 1, nnodes := n } xss' := by
  refine ⟨hl, fun a => ?_, fun a ha => ?_⟩
  · rw [(hperm.map Prod.fst).mem_iff, List.map_cons, List.mem_cons, hx, ← hrep.live a]
    show h a ≠ none ↔ _
    by_cases hau : a = m.used
    · rw [hau]
      exact iff_of_true hnew (.inl rfl)
    · rw [ne_eq, hlive a hau, or_iff_right hau]
  · exact (hlive a (Nat.ne_of_gt ha)).mpr (hrep.fresh a (Nat.le_of_lt ha))

/-- **A new node is freed again.** -/
theorem Mirrors.dropped (hrep : Mirrors m xss) (hl : Laid h buckets xss')
    (hperm : xss'.flatten.Perm xss.flatten)
    (hlive : ∀ a, a ≠ m.used → (h a = none ↔ m.heap a = none)) :
    Mirrors { m with heap := h.set m.used none, buckets := buckets, used := m.used + 1 }
      xss' := by
  have hused : m.used ∉ xss'.flatten.map Prod.fst := fun hmem =>
    (hrep.live m.used).mpr ((hperm.map Prod.fst).mem_iff.mp hmem) (hrep.fresh _ le_rfl)
  refine ⟨hl.frame fun a ha => Links.set_of_ne fun heq => hused (heq ▸ ha), fun a => ?_,
    fun a ha => ?_⟩
  · show h.set m.used none a ≠ none ↔ _
    by_cases hau : a = m.used
    · subst hau
      rw [Links.set_same]
      exact iff_of_false (fun h => h rfl) hused
    · rw [Links.set_of_ne hau, ne_eq, hlive a hau, ← ne_eq, hrep.live a,
        (hperm.map Prod.fst).mem_iff]
  · exact (Links.set_of_ne (Nat.ne_of_gt ha)).trans
      ((hlive a (Nat.ne_of_gt ha)).mpr (hrep.fresh a (Nat.le_of_lt ha)))

/-- What `map_set` does to the buckets, where the node of the key is `x`. -/
theorem mapSet_split {A B : List (List (ℕ × MapNode β))} {us ws : List (ℕ × MapNode β)}
    {x : ℕ × MapNode β} (hM : (A ++ (us ++ x :: ws) :: B).map (List.map Prod.snd) = M.buckets)
    (value : β) :
    (mapSet M x.2.key value).buckets
        = (A ++ (us ++ (x.1, { x.2 with value := value }) :: ws) :: B).map (List.map Prod.snd)
      ∧ (mapSet M x.2.key value).nnodes = M.nnodes := by
  have hnode : x.2 ∈ M.nodes := by
    rw [nodes_eq hM]
    exact List.mem_map_of_mem (flatten_split_perm.mem_iff.mpr List.mem_cons_self)
  obtain ⟨hbuckets, hcount⟩ :=
    mapSet_of_some ((mapGetref_eq_some_iff M x.2.key x.2).mpr ⟨hnode, rfl⟩) value
  have hx : x.2.hasKey x.2.key = true := MapNode.hasKey_iff.mpr ⟨M.placed.hash_eq x.2 hnode, rfl⟩
  have hreplace : [x.2].map (MapNode.replace x.2.key value) = [{ x.2 with value := value }] := by
    rw [List.map_singleton, MapNode.replace, if_pos hx]
  refine ⟨?_, hcount⟩
  rw [hbuckets, buckets_map_split hM (f := List.map (MapNode.replace x.2.key value))
    (fun _ _ => List.map_append ..) fun ys hys => ?_, hreplace, List.map_append, List.map_cons,
    List.map_append, List.map_cons, List.append_assoc]
  · rfl
  · rw [List.map_map]
    refine List.map_congr_left fun y hy => ?_
    exact if_neg fun ht => hys y hy (MapNode.hasKey_iff.mp ht).2

theorem set_of_getref {key : List Char} (hrun : m.getref key = .ok none) (value : β)
    (malloc realloc : Bool) :
    m.set key value malloc realloc = (do
      let (node, m) := m.newnode key value malloc
      match node with
      | none => return (-1, m)
      | some a =>
        let (err, m) ← m.makeRoom realloc
        if err ≠ 0 then
          let h ← m.heap.free (some a)
          return (-1, { m with heap := h })
        else
          let m ← m.addnode a
          return (0, { m with nnodes := m.nnodes + 1 })) := by
  show (m.getref key).bind _ = _
  rw [hrun]
  rfl

/-- `map_set` where the key has no node and `malloc` gives one. -/
theorem Mirrors.set_new (hrep : Mirrors m xss)
    (hM : xss.map (List.map Prod.snd) = M.buckets) (hnnodes : m.nnodes = M.nnodes)
    {key : List Char} (hnone : mapGetref M key = none) (hrun : m.getref key = .ok none)
    (value : β) (realloc : Bool) :
    ∃ m', m.set key value true realloc = .ok ((mapTrySet M key value true realloc).1, m')
      ∧ Refines m' (mapTrySet M key value true realloc).2 ∧ KeysKept m m' := by
  have hfresh := hrep.fresh m.used le_rfl
  have hnew : m.used ∉ xss.flatten.map Prod.fst := fun hmem =>
    (hrep.live m.used).mpr hmem hfresh
  -- the map with the new node loose
  let nd : MapNode β := ⟨mapHash key, key, value⟩
  let m₀ : MapBase β := (m.newnode key value true).2
  have hsame : ∀ a, a ≠ m.used → m₀.heap a = m.heap a := fun a ha => Links.set_of_ne ha
  have hl₀ : Laid m₀.heap m₀.buckets xss := hrep.laid.frame fun a ha =>
    hsame a fun heq => hnew (heq ▸ ha)
  have hlen : xss.flatten.length ≤ m₀.used :=
    (hrep.length_le (List.Sublist.refl _)).trans (Nat.le_succ _)
  obtain ⟨h, xss', hroom, hlaid, hM', hperm, hre⟩ := hl₀.makeRoom hM hlen hnnodes realloc
  have hnd : h m.used = some ⟨m.junk m.used, nd⟩ := by
    rw [hre.same m.used hnew]
    exact Links.set_same ..
  have hlive : ∀ a, a ≠ m.used → (h a = none ↔ m.heap a = none) := fun a ha => by
    rw [hre.live a, hsame a ha]
  have hset : m.set key value true realloc = (m₀.makeRoom realloc).bind fun r =>
      if r.1 ≠ 0 then (do
        let h ← r.2.heap.free (some m.used)
        return (-1, { r.2 with heap := h }))
      else (do
        let m ← r.2.addnode m.used
        return (0, { m with nnodes := m.nnodes + 1 })) :=
    set_of_getref hrun value true realloc
  have htry : mapTrySet M key value true realloc
      = if M.nnodes ≥ M.nbuckets ∧ realloc = false then (-1, rebucket M M.nbuckets)
        else (0, mapSet M key value) := by
    rw [mapTrySet, hnone]
    rfl
  rw [hset, hroom, htry]
  by_cases hfail : M.nnodes ≥ M.nbuckets ∧ realloc = false
  · rw [if_pos hfail] at hM'
    rw [if_pos hfail, if_pos hfail]
    have hrep' := hrep.dropped hlaid hperm hlive
    refine ⟨_, ?_, ⟨xss', hrep', hM', hnnodes.trans (nnodes_rebucket ..).symm⟩,
      hrep.keysKept hrep' (Nat.le_succ _) fun t _ => (hperm.map tagOf).mem_iff⟩
    show (h.free (some m.used)).bind _ = _
    rw [Links.free_some hnd]
    rfl
  · obtain ⟨hbuckets, hcount⟩ := mapSet_of_none hnone value
    have hnew' : m.used ∉ xss'.flatten.map Prod.fst := fun hmem =>
      hnew ((hperm.map Prod.fst).mem_iff.mp hmem)
    rw [if_neg hfail] at hM'
    have hpos : 0 < xss'.length := by
      have h := nbuckets_makeRoom_pos M
      rwa [Map.nbuckets, ← hM', List.length_map] at h
    rw [if_neg hfail, if_neg hfail]
    obtain ⟨q, hadd, hlaid'⟩ := Laid.addnode (x := (m.used, nd))
      (m := { m₀ with heap := h, buckets := xss'.map (headAddr none) }) hlaid hnd hnew' hpos
    have hperm' := (flatten_addAt_perm hpos (m.used, nd)).trans (hperm.cons _)
    have hrep' := hrep.added (n := m.nnodes + 1) rfl hlaid' hperm'
      (fun a ha => by rw [Links.set_of_ne ha, hlive a ha])
      (by rw [Links.set_same]; exact Option.some_ne_none _)
    refine ⟨_, ?_, ⟨addAt xss' (m.used, nd), hrep', ?_, ?_⟩,
      hrep.keysKept hrep' (Nat.le_succ _) fun t ht => ?_⟩
    · show (MapBase.addnode m.used
        { m₀ with heap := h, buckets := xss'.map (headAddr none) }).bind _ = _
      rw [hadd]
      rfl
    · rw [map_addAt hpos, hM']
      exact hbuckets.symm
    · exact (congrArg (· + 1) (hnnodes.trans (nnodes_makeRoom M).symm)).trans hcount.symm
    · rw [(hperm'.map tagOf).mem_iff, List.map_cons, List.mem_cons, or_iff_right]
      rintro rfl
      exact ht.false

/-- **`map_set` in memory** binds the key, or says that it cannot. -/
theorem set_refines (hm : Refines m M) (key : List Char) (value : β) (malloc realloc : Bool) :
    ∃ m', m.set key value malloc realloc = .ok ((mapTrySet M key value malloc realloc).1, m')
      ∧ Refines m' (mapTrySet M key value malloc realloc).2 ∧ KeysKept m m' := by
  obtain ⟨xss, hrep, hM, hnnodes⟩ := hm
  rcases hrep.getref hM key with ⟨i, us, x, ws, hi, rfl, hrun⟩ | ⟨hnone, hrun⟩
  · have hload := hrep.laid.load hi
    have hderef := hrep.laid.deref hi
    have hnode := mem_nodes_of_chain hM hi
    obtain ⟨A, B, rfl, rfl⟩ := exists_split hi
    obtain ⟨hbuckets, hcount⟩ := mapSet_split hM value
    have htry : mapTrySet M x.2.key value malloc realloc = (0, mapSet M x.2.key value) := by
      rw [mapTrySet, (mapGetref_eq_some_iff M x.2.key x.2).mpr ⟨hnode, rfl⟩]
      rfl
    set nd : MapNode β := { x.2 with value := value }
    have hre : Relinked m.heap _ [x.1] := .set hderef ⟨headAddr none ws, nd⟩
    have hrep' : Mirrors { m with heap := m.heap.set x.1 (some ⟨headAddr none ws, nd⟩) }
        (A ++ (us ++ (x.1, nd) :: ws) :: B) := by
      refine ⟨hrep.laid.write nd, fun a => ?_, fun a ha => (hre.live a).mpr (hrep.fresh a ha)⟩
      rw [ne_eq, hre.live a, ← ne_eq, hrep.live a, (flatten_split_perm.map Prod.fst).mem_iff,
        (flatten_split_perm.map Prod.fst).mem_iff, List.map_cons, List.map_cons]
    rw [htry]
    refine ⟨_, ?_, ⟨_, hrep', hbuckets.symm, hnnodes.trans hcount.symm⟩,
      hrep.keysKept hrep' le_rfl fun t _ => ?_⟩
    · show (m.getref x.2.key).bind _ = _
      rw [hrun]
      show (m.load (refOf A.length us)).bind _ = _
      rw [hload]
      show (m.heap.write (some x.1) _).bind _ = _
      rw [Links.write_some hderef]
      rfl
    · rw [(flatten_split_perm.map tagOf).mem_iff, (flatten_split_perm.map tagOf).mem_iff]
      rfl
  · cases malloc with
    | false =>
      refine ⟨m, ?_, ?_, .refl m⟩
      · rw [set_of_getref hrun, mapTrySet, hnone]
        rfl
      · rw [mapTrySet, hnone]
        exact ⟨xss, hrep, hM, hnnodes⟩
    | true => exact hrep.set_new hM hnnodes hnone hrun value realloc

end Setting

end Miaouchat
