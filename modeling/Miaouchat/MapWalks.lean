import Miaouchat.MapCalls

/-!
# Going through a map that changes

`map_next` keeps a pointer to a node. A program that sets and removes keys between
two calls of it may have had the node put into another bucket by `map_resize`, or
freed. `Miaouchat.Map` has the key of the node in place of the pointer (`MapIter`),
and the loops over the maps of neighbours are modelled with it.

Here the two are run side by side, on any calls. They return the same keys
(`walk_refines`), where beside the key it is noted whether its node is still there.
And so a program comes to a wild access exactly when it calls `map_next` after it has
removed the key returned last, even if it has bound that key again (`walk_wild_iff`).
-/

namespace Miaouchat

variable {β : Type}

/-! ## Walks -/

/-- What a program does with a map and an iterator. -/
inductive MapStep (β : Type)
  | call (c : MapCall β)
  | start
  | next

/-- A map, an iterator, and what `map_next` has returned so far. -/
structure Walk (β : Type) where
  map : MapBase β
  iter : NodeIter
  keys : List (Option (List Char))

/-- A walk over a new map. -/
def Walk.init (junk : ℕ → Option ℕ) : Walk β := ⟨MapBase.init junk, MapBase.iter, []⟩

/-- A step of a walk in memory. -/
def MapStep.run : MapStep β → Walk β → Except Fault (Walk β)
  | .call c, w => do
    let (_, m) ← c.run w.map
    return { w with map := m }
  | .start, w => return { w with iter := MapBase.iter }
  | .next, w => do
    let (key, iter) ← w.map.next w.iter
    return { w with iter := iter, keys := w.keys ++ [key] }

/-- Some steps one after the other. -/
def runWalk (steps : List (MapStep β)) (w : Walk β) : Except Fault (Walk β) :=
  steps.foldlM (fun w step => step.run w) w

/-- A walk that knows keys in place of pointers, and whether the node it stands on
is `gone`. -/
structure KeyWalk (β : Type) where
  map : Map β
  iter : MapIter
  gone : Bool
  keys : List (Option (List Char))

/-- Such a walk over a new map. -/
def KeyWalk.init : KeyWalk β := ⟨mapInit, mapIter, false, []⟩

/-- The call removes the key that an iterator stands on. -/
def MapCall.removes (node : Option (List Char)) : MapCall β → Bool
  | .set .. => false
  | .remove key => node = some key

/-- A step of such a walk. -/
def MapStep.onKeys : MapStep β → KeyWalk β → Except Fault (KeyWalk β)
  | .call c, W =>
    return { W with map := (c.onMap W.map).2, gone := W.gone || c.removes W.iter.node }
  | .start, W => return { W with iter := mapIter, gone := false }
  | .next, W =>
    if W.gone then .error .wild
    else do
      let (key, iter) ← mapNext W.map W.iter
      return { W with iter := iter, keys := W.keys ++ [key] }

/-- Some steps one after the other. -/
def runKeyWalk (steps : List (MapStep β)) (W : KeyWalk β) : Except Fault (KeyWalk β) :=
  steps.foldlM (fun W step => step.onKeys W) W

/-! ## What an iterator stands on -/

/-- **The pointer of an iterator**, and the key it stands for: nothing, a node with
this key, or the address of a node that was freed. -/
inductive StandsOn (m : MapBase β) : Option ℕ → Option (List Char) → Bool → Prop
  | nothing : StandsOn m none none false
  | node {a : ℕ} {key : List Char} (h : m.keyOf a = some key) :
      StandsOn m (some a) (some key) false
  | freed {a : ℕ} {key : List Char} (ha : a < m.used) (h : m.keyOf a = none) :
      StandsOn m (some a) (some key) true

/-- **The two walks are in the same place.** -/
structure WalkRefines (w : Walk β) (W : KeyWalk β) : Prop where
  map : Refines w.map W.map
  opened : w.iter.opened = W.iter.opened
  node : StandsOn w.map w.iter.node W.iter.node W.gone
  keys : w.keys = W.keys

theorem walkRefines_init (junk : ℕ → Option ℕ) :
    WalkRefines (Walk.init junk : Walk β) KeyWalk.init :=
  ⟨refines_init junk, rfl, .nothing, rfl⟩

section Standing

variable {m m' : MapBase β} {M : Map β} {xss : List (List (ℕ × MapNode β))}

theorem Mirrors.lt_used (hm : Mirrors m xss) {a : ℕ} {key : List Char}
    (ha : m.keyOf a = some key) : a < m.used := by
  by_contra hle
  rw [MapBase.keyOf, hm.fresh a (not_lt.mp hle)] at ha
  cases ha

/-- **A call leaves an iterator on its node**, unless it frees it. -/
theorem StandsOn.call (hm : Refines m M) {p : Option ℕ} {k : Option (List Char)} {gone : Bool}
    (h : StandsOn m p k gone) {c : MapCall β} (hused : m.used ≤ m'.used)
    (hkeys : ∀ a < m.used, m'.keyOf a = c.keyAfter (m.keyOf a)) :
    StandsOn m' p k (gone || c.removes k) := by
  obtain ⟨xss, hrep, -, -⟩ := hm
  cases h with
  | nothing =>
    cases c with
    | set | remove => exact .nothing
  | @node a key h =>
    have ha := hrep.lt_used h
    have hafter := hkeys a ha
    rw [h] at hafter
    cases c with
    | set => exact .node hafter
    | remove key' =>
      by_cases hkey : key = key'
      · subst hkey
        have hremoves : (MapCall.remove key : MapCall β).removes (some key) = true :=
          decide_eq_true rfl
        rw [hremoves]
        exact .freed (ha.trans_le hused) (hafter.trans (if_pos rfl))
      · have hne : (some key : Option (List Char)) ≠ some key' := fun h => hkey (Option.some.inj h)
        have hremoves : (MapCall.remove key' : MapCall β).removes (some key) = false :=
          decide_eq_false hne
        rw [hremoves]
        exact .node (hafter.trans (if_neg hne))
  | @freed a key ha h =>
    refine .freed (ha.trans_le hused) ((hkeys a ha).trans ?_)
    rw [h]
    cases c with
    | set => rfl
    | remove key' =>
      show (if none = some key' then none else none) = none
      exact ite_self none

/-- Reading the key an iterator stands on. -/
theorem StandsOn.keyAt {iter : NodeIter} {key : Option (List Char)}
    (h : StandsOn m iter.node key false) : m.keyAt iter = .ok (key, iter) := by
  obtain ⟨opened, node⟩ := iter
  cases h with
  | nothing => rfl
  | @node a key h =>
    obtain ⟨c, hc, rfl⟩ := Option.map_eq_some_iff.mp h
    show (m.heap.deref (some a)).bind _ = _
    rw [Links.deref_some hc]
    rfl

/-- **The search for a bucket with a node**, in memory and in the map. -/
theorem nextNode_stands (hm : Mirrors m xss) {rest : List (List (ℕ × MapNode β))}
    (hrest : rest ⊆ xss) (i : ℕ) :
    ∃ iter it, MapBase.nextNode (rest.map (headAddr none)) i = iter
      ∧ nextBucket (rest.map (List.map Prod.snd)) i = (it.node, it)
      ∧ iter.opened = it.opened ∧ StandsOn m iter.node it.node false := by
  induction rest generalizing i with
  | nil => exact ⟨_, ⟨i + 1, none⟩, rfl, rfl, rfl, .nothing⟩
  | cons xs rest ih =>
    cases xs with
    | nil => exact ih (List.cons_subset.mp hrest).2 (i + 1)
    | cons x xs =>
      have hxs := (List.cons_subset.mp hrest).1
      refine ⟨_, ⟨i + 1, some x.2.key⟩, rfl, rfl, rfl, .node (hm.keyOf_eq_some.mpr ?_)⟩
      exact List.mem_map_of_mem (List.mem_flatten.mpr ⟨_, hxs, List.mem_cons_self⟩)

/-- **`map_next` from a node that was freed.** -/
theorem StandsOn.next_wild {iter : NodeIter} {key : Option (List Char)}
    (h : StandsOn m iter.node key true) : m.next iter = .error .wild := by
  obtain ⟨opened, node⟩ := iter
  cases h with
  | @freed a key ha hfree =>
    have hderef : m.heap.deref (some a) = .error .wild := by
      simp only [Links.deref, Option.map_eq_none_iff.mp hfree]
    show ((m.heap.deref (some a)).bind _).bind _ = _
    rw [hderef]
    rfl

/-- The rest of a chain from the node of a key on. -/
theorem dropWhile_chain {i : ℕ} {pre post : List (MapNode β)} {nd : MapNode β}
    (hi : M.buckets[i]? = some (pre ++ nd :: post)) :
    (M.chain nd.key).dropWhile (fun x => decide (x.key ≠ nd.key)) = nd :: post := by
  have hpre : ∀ x ∈ pre, x.key ≠ nd.key := by
    have hsub : (pre ++ nd :: post).Sublist M.nodes :=
      List.sublist_flatten_of_mem (List.mem_of_getElem? hi)
    have hnodup := M.placed.nodup.sublist (hsub.map MapNode.key)
    rw [List.map_append, List.map_cons, List.nodup_append] at hnodup
    exact fun x hx => hnodup.2.2 _ (List.mem_map_of_mem hx) _ List.mem_cons_self
  rw [M.chain_eq hi (by simp), List.dropWhile_append_of_pos (by simpa using hpre),
    List.dropWhile_cons_of_neg]
  simp

/-- **One call of `map_next`**, in memory and on the map. -/
theorem next_refines (hm : Refines m M) {iter : NodeIter} {it : MapIter}
    (hopened : iter.opened = it.opened) (hnode : StandsOn m iter.node it.node false) :
    ∃ iter' it', m.next iter = .ok (it'.node, iter') ∧ mapNext M it = .ok (it'.node, it')
      ∧ iter'.opened = it'.opened ∧ StandsOn m iter'.node it'.node false := by
  obtain ⟨xss, hrep, hM, -⟩ := hm
  -- the search goes on in the next bucket
  obtain ⟨iter₁, it₁, hsearch, hsearch', hopened₁, hnode₁⟩ :=
    nextNode_stands hrep (List.drop_subset it.opened xss) it.opened
  rw [List.map_drop, ← hrep.laid.heads, ← hopened] at hsearch
  rw [List.map_drop, hM] at hsearch'
  obtain ⟨opened, node⟩ := iter
  obtain ⟨opened', node'⟩ := it
  cases hnode with
  | nothing =>
    refine ⟨iter₁, it₁, ?_, congrArg Except.ok hsearch', hopened₁, hnode₁⟩
    show m.keyAt (MapBase.nextNode (m.buckets.drop opened) opened) = _
    rw [hsearch, hnode₁.keyAt]
  | @node a key h =>
    obtain ⟨x, hx, htag⟩ := List.mem_map.mp (hrep.keyOf_eq_some.mp h)
    obtain ⟨rfl, rfl⟩ := Prod.mk.inj htag
    obtain ⟨xs, hxs, hmem⟩ := List.mem_flatten.mp hx
    obtain ⟨i, hi⟩ := List.mem_iff_getElem?.mp hxs
    obtain ⟨us, zs, rfl⟩ := List.append_of_mem hmem
    have hlink : m.nextLink ⟨opened, some x.1⟩ = .ok (headAddr none zs) := by
      show (m.heap.deref (some x.1)).bind _ = _
      rw [Links.deref_some (hrep.laid.deref hi)]
      rfl
    have hbucket : M.buckets[i]? = some (us.map Prod.snd ++ x.2 :: zs.map Prod.snd) := by
      rw [← hM, List.getElem?_map, hi]
      exact congrArg some List.map_append
    have hchain := dropWhile_chain hbucket
    cases zs with
    | nil =>
      refine ⟨iter₁, it₁, ?_, ?_, hopened₁, hnode₁⟩
      · show (m.nextLink ⟨opened, some x.1⟩).bind _ = _
        rw [hlink]
        show m.keyAt (MapBase.nextNode (m.buckets.drop opened) opened) = _
        rw [hsearch, hnode₁.keyAt]
      · simp only [mapNext, hchain]
        exact congrArg Except.ok hsearch'
    | cons z zs =>
      have hz : StandsOn m (some z.1) (some z.2.key) false := by
        refine .node (hrep.keyOf_eq_some.mpr (List.mem_map_of_mem ?_))
        exact List.mem_flatten.mpr ⟨_, hxs, by simp⟩
      refine ⟨⟨opened, some z.1⟩, ⟨opened', some z.2.key⟩, ?_, ?_, hopened, hz⟩
      · show (m.nextLink ⟨opened, some x.1⟩).bind _ = _
        rw [hlink]
        exact (show StandsOn m (NodeIter.mk opened (some z.1)).node _ false from hz).keyAt
      · simp only [mapNext, hchain]
        rfl

end Standing

/-! ## Runs -/

section Running

variable {w : Walk β} {W : KeyWalk β}

/-- **A step in memory is the step on the map.** The one fault is to go on from a node
that was freed. -/
theorem step_refines (h : WalkRefines w W) (step : MapStep β) :
    (∃ w' W', step.run w = .ok w' ∧ step.onKeys W = .ok W' ∧ WalkRefines w' W')
      ∨ step = .next ∧ W.gone = true ∧ step.run w = .error .wild
        ∧ step.onKeys W = .error .wild := by
  obtain ⟨m, iter, keys⟩ := w
  obtain ⟨M, it, gone, keys'⟩ := W
  obtain ⟨hm, hopened, hnode, rfl⟩ := h
  cases step with
  | call c =>
    obtain ⟨m', hrun, hm', hused, hkeys⟩ := call_refines hm c
    refine .inl ⟨⟨m', iter, keys⟩, _, ?_, rfl, hm', hopened, hnode.call hm hused hkeys, rfl⟩
    show (c.run m).bind _ = _
    rw [hrun]
    rfl
  | start => exact .inl ⟨_, _, rfl, rfl, hm, rfl, .nothing, rfl⟩
  | next =>
    cases gone with
    | false =>
      obtain ⟨iter', it', hrun, hrun', hopened', hnode'⟩ := next_refines hm hopened hnode
      refine .inl ⟨⟨m, iter', keys ++ [it'.node]⟩, ⟨M, it', false, keys ++ [it'.node]⟩, ?_, ?_,
        hm, hopened', hnode', rfl⟩
      · show (m.next iter).bind _ = _
        rw [hrun]
        rfl
      · show (mapNext M it).bind _ = _
        rw [hrun']
        rfl
    | true =>
      refine .inr ⟨rfl, rfl, ?_, rfl⟩
      show (m.next iter).bind _ = _
      rw [hnode.next_wild]
      rfl

theorem runWalk_cons_ok {step : MapStep β} {w' : Walk β} (h : step.run w = .ok w')
    (steps : List (MapStep β)) : runWalk (step :: steps) w = runWalk steps w' := by
  rw [runWalk, List.foldlM_cons, h]
  rfl

theorem runKeyWalk_cons_ok {step : MapStep β} {W' : KeyWalk β} (h : step.onKeys W = .ok W')
    (steps : List (MapStep β)) : runKeyWalk (step :: steps) W = runKeyWalk steps W' := by
  rw [runKeyWalk, List.foldlM_cons, h]
  rfl

/-- **Any steps in memory are the steps on the map**, up to one from a node that is
gone. -/
theorem steps_refine (h : WalkRefines w W) (steps : List (MapStep β)) :
    (∃ w' W', runWalk steps w = .ok w' ∧ runKeyWalk steps W = .ok W' ∧ WalkRefines w' W')
      ∨ runWalk steps w = .error .wild ∧ runKeyWalk steps W = .error .wild
        ∧ ∃ pre post W', steps = pre ++ .next :: post ∧ runKeyWalk pre W = .ok W'
          ∧ W'.gone = true := by
  induction steps generalizing w W with
  | nil => exact .inl ⟨w, W, rfl, rfl, h⟩
  | cons step steps ih =>
    rcases step_refines h step with ⟨w', W', hrun, hrun', h'⟩ | ⟨rfl, hgone, hrun, hrun'⟩
    · rw [runWalk_cons_ok hrun, runKeyWalk_cons_ok hrun']
      refine (ih h').imp_right fun ⟨hwild, hwild', pre, post, W'', hsteps, hpre, hgone⟩ => ?_
      refine ⟨hwild, hwild', step :: pre, post, W'', by rw [hsteps, List.cons_append], ?_, hgone⟩
      rw [runKeyWalk_cons_ok hrun', hpre]
    · refine .inr ⟨?_, ?_, [], steps, W, rfl, rfl, hgone⟩
      · rw [runWalk, List.foldlM_cons, hrun]
        rfl
      · rw [runKeyWalk, List.foldlM_cons, hrun']
        rfl

/-- **A walk in memory is a walk that knows keys only**, and whether the node it
stands on is gone: the same keys are returned and bound, or both fail. -/
theorem walk_refines (junk : ℕ → Option ℕ) (steps : List (MapStep β)) :
    (∃ w W, runWalk steps (Walk.init junk) = .ok w ∧ runKeyWalk steps KeyWalk.init = .ok W
        ∧ w.keys = W.keys ∧ ∀ key, w.map.get key = .ok (mapGet W.map key))
      ∨ runWalk steps (Walk.init junk) = .error .wild
        ∧ runKeyWalk steps KeyWalk.init = .error .wild :=
  (steps_refine (walkRefines_init junk) steps).imp
    (fun ⟨w, W, hrun, hrun', h⟩ => ⟨w, W, hrun, hrun', h.keys, get_refines h.map⟩)
    fun ⟨hrun, hrun', _⟩ => ⟨hrun, hrun'⟩

end Running

/-! ## When a walk fails -/

section Failing

variable {W W' : KeyWalk β}

/-- Some steps and then some others. -/
theorem runKeyWalk_append {steps steps' : List (MapStep β)} :
    runKeyWalk (steps ++ steps') W = .ok W'
      ↔ ∃ W₁, runKeyWalk steps W = .ok W₁ ∧ runKeyWalk steps' W₁ = .ok W' := by
  have happend : runKeyWalk (steps ++ steps') W = (runKeyWalk steps W).bind (runKeyWalk steps') :=
    List.foldlM_append
  rw [happend]
  cases runKeyWalk steps W with
  | error f => exact iff_of_false nofun (fun ⟨_, h, _⟩ => by cases h)
  | ok W₁ => exact ⟨fun h => ⟨W₁, rfl, h⟩, fun ⟨_, h, h'⟩ => Except.ok.inj h ▸ h'⟩

theorem runKeyWalk_singleton (step : MapStep β) (W : KeyWalk β) :
    runKeyWalk [step] W = step.onKeys W := by
  rw [runKeyWalk, List.foldlM_cons]
  exact bind_pure _

theorem node_nextBucket (rest : List (List (MapNode β))) (i : ℕ) :
    (nextBucket rest i).2.node = (nextBucket rest i).1 := by
  induction rest generalizing i with
  | nil => rfl
  | cons b rest ih =>
    cases b with
    | nil => exact ih (i + 1)
    | cons nd b => rfl

/-- **The iterator stands on what `map_next` returns.** -/
theorem node_mapNext {M : Map β} {it it' : MapIter} {key : Option (List Char)}
    (h : mapNext M it = .ok (key, it')) : it'.node = key := by
  have hsearch : (Except.ok (nextBucket (M.buckets.drop it.opened) it.opened) : Except Fault _)
      = .ok (key, it') → it'.node = key := fun h => by
    obtain ⟨rfl, rfl⟩ := Prod.mk.inj (Except.ok.inj h)
    exact node_nextBucket _ _
  unfold mapNext at h
  split at h
  · exact hsearch h
  · split at h
    · cases h
    · exact hsearch h
    · cases h
      rfl

theorem onKeys_next (h : MapStep.next.onKeys W = .ok W') :
    W.gone = false ∧ W'.gone = false ∧ W'.keys = W.keys ++ [W'.iter.node] := by
  obtain ⟨M, it, gone, keys⟩ := W
  cases gone with
  | true => cases h
  | false =>
    cases hnext : mapNext M it with
    | error f =>
      have hrun : (Except.error f : Except Fault (KeyWalk β)) = .ok W' := by
        rw [← h]
        show _ = (mapNext M it).bind _
        rw [hnext]
        rfl
      cases hrun
    | ok r =>
      have hrun : Except.ok ⟨M, r.2, false, keys ++ [r.1]⟩ = (Except.ok W' : Except Fault _) := by
        rw [← h]
        show _ = (mapNext M it).bind _
        rw [hnext]
        rfl
      obtain rfl := Except.ok.inj hrun
      exact ⟨rfl, rfl, by rw [node_mapNext hnext]⟩

/-- **Calls alone** do not fail, and leave the iterator where it is. -/
theorem runKeyWalk_calls (calls : List (MapCall β)) (W : KeyWalk β) :
    ∃ M, runKeyWalk (calls.map .call) W = .ok { W with
      map := M, gone := W.gone || calls.any (MapCall.removes W.iter.node) } := by
  induction calls generalizing W with
  | nil => exact ⟨W.map, by rw [List.any_nil, Bool.or_false]; rfl⟩
  | cons c calls ih =>
    obtain ⟨M, hM⟩ := ih { W with
      map := (c.onMap W.map).2, gone := W.gone || c.removes W.iter.node }
    refine ⟨M, ?_⟩
    rw [List.map_cons, runKeyWalk_cons_ok rfl, hM, List.any_cons, ← Bool.or_assoc]

theorem any_removes_iff {calls : List (MapCall β)} {key : List Char} :
    calls.any (MapCall.removes (some key)) = true ↔ .remove key ∈ calls := by
  rw [List.any_eq_true]
  constructor
  · rintro ⟨c, hc, hremoves⟩
    cases c with
    | set => cases hremoves
    | remove key' =>
      obtain rfl : key = key' := Option.some.inj (of_decide_eq_true hremoves)
      exact hc
  · exact fun h => ⟨_, h, decide_eq_true rfl⟩

/-- The key returned last, where it is removed by the calls after it. -/
structure LastRemoved (steps : List (MapStep β)) (pre : List (MapStep β))
    (calls : List (MapCall β)) (key : List Char) : Prop where
  split : steps = pre ++ .next :: calls.map .call
  last : ∃ W, runKeyWalk (pre ++ [.next]) KeyWalk.init = .ok W ∧ W.iter.node = some key
  removed : .remove key ∈ calls

/-- The calls at the end of some steps. -/
theorem exists_calls_last (steps : List (MapStep β)) :
    (∃ calls : List (MapCall β), steps = calls.map .call)
      ∨ ∃ pre step, ∃ calls : List (MapCall β), steps = pre ++ step :: calls.map .call
        ∧ (step = .start ∨ step = .next) := by
  induction steps using List.reverseRecOn with
  | nil => exact .inl ⟨[], rfl⟩
  | append_singleton steps step ih =>
    cases step with
    | start => exact .inr ⟨steps, .start, [], rfl, .inl rfl⟩
    | next => exact .inr ⟨steps, .next, [], rfl, .inr rfl⟩
    | call c =>
      rcases ih with ⟨calls, rfl⟩ | ⟨pre, step, calls, rfl, hstep⟩
      · exact .inl ⟨calls ++ [c], by rw [List.map_append]; rfl⟩
      · refine .inr ⟨pre, step, calls ++ [c], ?_, hstep⟩
        rw [List.map_append, List.append_assoc]
        rfl

theorem any_removes_none (calls : List (MapCall β)) :
    calls.any (MapCall.removes none) = false := by
  rw [List.any_eq_false]
  intro c _
  cases c with
  | set => exact Bool.false_ne_true
  | remove key => exact of_decide_eq_false rfl

/-- **The node is gone** only if the key returned last was removed. -/
theorem exists_lastRemoved {steps : List (MapStep β)}
    (hrun : runKeyWalk steps KeyWalk.init = .ok W) (hgone : W.gone = true) :
    ∃ pre calls key, LastRemoved steps pre calls key := by
  rcases exists_calls_last steps with ⟨calls, rfl⟩ | ⟨pre, step, calls, rfl, hstep⟩
  · obtain ⟨M, hcalls⟩ := runKeyWalk_calls calls (KeyWalk.init : KeyWalk β)
    obtain rfl := Except.ok.inj (hcalls.symm.trans hrun)
    cases (any_removes_none calls).symm.trans hgone
  · rw [List.append_cons, runKeyWalk_append] at hrun
    obtain ⟨W₁, hpre, hrun⟩ := hrun
    obtain ⟨M, hcalls⟩ := runKeyWalk_calls calls W₁
    obtain rfl := Except.ok.inj (hcalls.symm.trans hrun)
    obtain ⟨W₀, -, hlast⟩ := runKeyWalk_append.mp hpre
    rw [runKeyWalk_singleton] at hlast
    rcases hstep with rfl | rfl
    · obtain rfl := Except.ok.inj hlast
      cases (any_removes_none calls).symm.trans hgone
    · have hkept := (onKeys_next hlast).2.1
      have hremoves : calls.any (MapCall.removes W₁.iter.node) = true := by
        rw [← hgone, hkept, Bool.false_or]
      cases hnode : W₁.iter.node with
      | none =>
        rw [hnode] at hremoves
        cases (any_removes_none calls).symm.trans hremoves
      | some key =>
        rw [hnode] at hremoves
        exact ⟨pre, calls, key, rfl, ⟨W₁, hpre, hnode⟩, any_removes_iff.mp hremoves⟩

/-- **Going on after the key returned last was removed.** -/
theorem LastRemoved.fails {steps pre : List (MapStep β)} {calls : List (MapCall β)}
    {key : List Char} (h : LastRemoved steps pre calls key) (post : List (MapStep β)) :
    ∀ W, runKeyWalk (steps ++ .next :: post) KeyWalk.init ≠ .ok W := by
  intro W hrun
  obtain ⟨W₁, hpre, hnode⟩ := h.last
  obtain ⟨W₃, hsteps, hrun⟩ := runKeyWalk_append.mp hrun
  rw [h.split, List.append_cons] at hsteps
  obtain ⟨W₂, hpre', hcalls'⟩ := runKeyWalk_append.mp hsteps
  obtain rfl := Except.ok.inj (hpre.symm.trans hpre')
  obtain ⟨M, hcalls⟩ := runKeyWalk_calls calls W₁
  obtain rfl := Except.ok.inj (hcalls.symm.trans hcalls')
  rw [← List.singleton_append] at hrun
  obtain ⟨W₄, hnext, -⟩ := runKeyWalk_append.mp hrun
  rw [runKeyWalk_singleton] at hnext
  have hkept := (onKeys_next hnext).1
  rw [hnode, any_removes_iff.mpr h.removed, Bool.or_true] at hkept
  cases hkept

/-- **A walk fails exactly when `map_next` is called after the key it returned last was
removed**, whether or not the key has been bound again. -/
theorem walk_wild_iff (junk : ℕ → Option ℕ) (steps : List (MapStep β)) :
    runWalk steps (Walk.init junk) = .error .wild
      ↔ ∃ pre post w key, ∃ calls : List (MapCall β),
        steps = pre ++ .next :: (calls.map .call ++ .next :: post)
          ∧ runWalk (pre ++ [.next]) (Walk.init junk) = .ok w
          ∧ w.keys.getLast? = some (some key) ∧ .remove key ∈ calls := by
  have hinit := walkRefines_init (β := β) junk
  -- a walk that ends in `map_next` has returned the key it stands on
  have hlast : ∀ {pre : List (MapStep β)} {w W}, WalkRefines w W →
      runKeyWalk (pre ++ [.next]) KeyWalk.init = .ok W →
        w.keys.getLast? = some W.iter.node := by
    intro pre w W h hrun
    obtain ⟨W₀, -, hnext⟩ := runKeyWalk_append.mp hrun
    rw [runKeyWalk_singleton] at hnext
    rw [h.keys, (onKeys_next hnext).2.2, List.getLast?_concat]
  constructor
  · intro hwild
    rcases steps_refine hinit steps with ⟨w, W, hrun, -⟩ | ⟨-, -, xs, post, W, rfl, hrun, hgone⟩
    · cases hrun.symm.trans hwild
    · obtain ⟨pre, calls, key, rfl, ⟨W₁, hpre, hnode⟩, hremoved⟩ := exists_lastRemoved hrun hgone
      rcases steps_refine hinit (pre ++ [.next]) with ⟨w, W', hw, hW', h⟩ | ⟨-, hfails, -⟩
      · obtain rfl := Except.ok.inj (hpre.symm.trans hW')
        refine ⟨pre, post, w, key, calls, ?_, hw, ?_, hremoved⟩
        · rw [List.append_assoc]
          rfl
        · rw [hlast h hW', hnode]
      · cases hpre.symm.trans hfails
  · rintro ⟨pre, post, w, key, calls, rfl, hw, hkey, hremoved⟩
    rcases steps_refine hinit (pre ++ [.next]) with ⟨w', W, hw', hW, h⟩ | ⟨hfails, -⟩
    · obtain rfl := Except.ok.inj (hw.symm.trans hw')
      have hnode : W.iter.node = some key :=
        Option.some.inj ((hlast h hW).symm.trans hkey)
      have hremovedLast : LastRemoved (pre ++ .next :: calls.map .call) pre calls key :=
        ⟨rfl, ⟨W, hW, hnode⟩, hremoved⟩
      have hsplit : pre ++ .next :: (calls.map .call ++ .next :: post)
          = (pre ++ .next :: calls.map .call) ++ .next :: post := by
        rw [List.append_assoc]
        rfl
      rw [hsplit]
      rcases steps_refine hinit ((pre ++ .next :: calls.map .call) ++ .next :: post) with
        ⟨_, W', -, hrun, -⟩ | ⟨hwild, -⟩
      · exact absurd hrun (hremovedLast.fails post W')
      · exact hwild
    · cases hw.symm.trans hfails

end Failing

end Miaouchat
