import Miaouchat.Datagram

/-!
# Evicting neighbours

A pass of the worker is to move to the potential neighbours those of the
current ones that have not acknowledged a message after five tries: those for
which `worker_iter_msg` returns `-1`. `evictSilent` is such a pass.

`worker_iter_nbr` looks at what `worker_iter_msg` returns only to empty the
pending list. Every neighbour is sent a GoAway and moved (`exec_evictRound`).
And the iterator then stands on a node that has left the map, so that
`map_next` reads memory that was freed. The pass returns where there is no
current neighbour, and never else (`workerIterNbr_returns_iff`).
-/

namespace Miaouchat

/-! ## The pass as it is to be -/

/-- **A pass that evicts the silent neighbours**, over the keys that the map of
current neighbours has at its start: a neighbour for which `worker_iter_msg`
returns `-1` has its pending list emptied, is sent a GoAway and is moved, and
any other is left where it is. -/
def evictSilent (env : Env) : List (List Char) → M Unit
  | [] => return ()
  | key :: keys => do
    let s ← get
    let e ← follow (mapGet s.cur key)
    let rc ← workerIterMsg env e
    if rc = -1 then
      emptyPending e
      let nbr ← entryAt e
      sendGoAway env nbr.addr
      let _ ← mapTransferNeighbour env .cur .pot key
      evictSilent env keys
    else evictSilent env keys

/-- `worker_iter_nbr` returns, and has done what such a pass does. -/
def Evicts (env : Env) (s : State) : Prop :=
  ∃ s', (workerIterNbr env).exec s = .ok ((), s') ∧ evictSilent env s.cur.keys s = .ok ((), s')

/-! ## A round -/

/-- A round of the loop of `worker_iter_nbr`, for the entry `e` of a key. -/
def evictRound (env : Env) (key : List Char) (e : ℕ) : M Unit := do
  let rc ← workerIterMsg env e
  if rc < 0 then emptyPending e else pure ()
  let nbr ← entryAt e
  sendGoAway env nbr.addr
  let _ ← mapTransferNeighbour env .cur .pot key

theorem iterNbrLoop_round {env : Env} {k : ℕ} {iter iter' : MapIter} {key : List Char} {e : ℕ}
    {s : State} (hnext : mapNext s.cur iter = .ok (some key, iter'))
    (he : mapGet s.cur key = some e) :
    (iterNbrLoop env (k + 1) iter).exec s
      = (evictRound env key e >>= fun _ => (iterNbrLoop env k iter').exec) s := by
  rw [iterNbrLoop, Prog.exec_get_bind, iterNbrRound, Prog.exec_call_bind (lift_ok hnext s)]
  dsimp only
  rw [he, evictRound, bind_assoc, Prog.exec_seq, Prog.exec_action]
  refine congrFun (congrArg (workerIterMsg env e >>= ·) (funext fun rc => ?_)) s
  split <;> simp only [Prog.exec_seq, Prog.exec_action, bind_assoc, pure_bind]

/-- **A round that returns has sent the neighbour a GoAway and unbound it**,
whatever `worker_iter_msg` has returned. -/
theorem exec_evictRound {env : Env} {key : List Char} {e : ℕ} {s s' : State}
    (h : evictRound env key e s = .ok ((), s')) :
    ∃ rc s₁ nbr, workerIterMsg env e s = .ok (rc, s₁) ∧ s'.entries e = some nbr
      ∧ s'.sent = s₁.sent ++ [(nbr.addr, bytesOf env s₁ (newTlvGoAway 2 [] 0))]
      ∧ mapGet s'.cur key = none := by
  obtain ⟨rc, s₁, hrc, hrest⟩ := bind_eq_ok h
  have hempty : ∃ s₂, s₂.sent = s₁.sent ∧ (do
      let nbr ← entryAt e
      sendGoAway env nbr.addr
      let _ ← mapTransferNeighbour env .cur .pot key : M Unit) s₂ = .ok ((), s') := by
    split at hrest
    · obtain ⟨_, s₂, hempty, hafter⟩ := bind_eq_ok hrest
      refine ⟨s₂, ?_, hafter⟩
      obtain ⟨ent, s₃, hent, hlist⟩ := bind_eq_ok hempty
      obtain ⟨l, s₄, hl, hset⟩ := bind_eq_ok hlist
      obtain ⟨-, rfl⟩ := entryAt_eq_ok hent
      obtain ⟨-, rfl⟩ := lift_eq_ok hl
      cases hset
      rfl
    · exact ⟨s₁, rfl, hrest⟩
  obtain ⟨s₂, hsent, hrest⟩ := hempty
  obtain ⟨nbr, s₃, hnbr, hsend⟩ := bind_eq_ok hrest
  obtain ⟨_, s₄, hgo, hmove⟩ := bind_eq_ok hsend
  obtain ⟨hent, rfl⟩ := entryAt_eq_ok hnbr
  cases (sendMsg_one env nbr.addr (newTlvGoAway 2 [] 0) s₃).symm.trans hgo
  obtain ⟨moved, s₅, htransfer, hret⟩ := bind_eq_ok hmove
  cases hret
  obtain ⟨-, hgone, hsent', hentries⟩ :=
    mapTransferNeighbour_eq_ok (by decide : Nbrs.cur ≠ .pot) htransfer
  refine ⟨rc, s₁, nbr, hrc, hentries ▸ hent, ?_, hgone⟩
  rw [hsent']
  unfold State.withSent bytesOf
  rw [hsent]

/-! ## The pass -/

theorem workerIterNbr_of_nil {env : Env} {s : State} (hempty : s.cur.keys = []) :
    (workerIterNbr env).exec s = .ok ((), s) := by
  obtain ⟨iter, hnext, -⟩ := mapNext_at (iterAt_mapIter s.cur)
  rw [hempty] at hnext
  unfold workerIterNbr
  rw [Prog.exec_get_bind, iterNbrLoop, Prog.exec_get_bind, iterNbrRound,
    Prog.exec_call_bind (lift_ok hnext s)]
  rfl

/-- **The pass returns where there is no current neighbour, and never else**: the
first round removes the node that the iterator stands on. -/
theorem workerIterNbr_returns_iff (env : Env) (s : State) :
    (∃ s', (workerIterNbr env).exec s = .ok ((), s')) ↔ s.cur.keys = [] := by
  refine ⟨?_, fun hempty => ⟨s, workerIterNbr_of_nil hempty⟩⟩
  rintro ⟨s', hrun⟩
  by_contra hne
  obtain ⟨key, keys, hkeys⟩ := List.exists_cons_of_ne_nil hne
  obtain ⟨iter, hnext, -⟩ := mapNext_at (iterAt_mapIter s.cur)
  rw [hkeys] at hnext
  obtain ⟨e, he⟩ := (s.cur.mem_keys_iff key).mp (hkeys ▸ List.mem_cons_self)
  unfold workerIterNbr at hrun
  rw [Prog.exec_get_bind, hkeys, List.length_cons, iterNbrLoop_round hnext he] at hrun
  obtain ⟨_, s₁, hround, hrest⟩ := bind_eq_ok hrun
  obtain ⟨-, -, -, -, -, -, hgone⟩ := exec_evictRound hround
  have hwild := mapNext_of_unbound (mapNext_node hnext) hgone
  rw [iterNbrLoop, Prog.exec_get_bind, iterNbrRound,
    Prog.exec_call_bind_error (lift_error hwild s₁)] at hrest
  cases hrest

/-- **The pass does what it is to do exactly where there is no current
neighbour.** -/
theorem evicts_iff (env : Env) (s : State) : Evicts env s ↔ s.cur.keys = [] := by
  refine ⟨fun ⟨s', hrun, _⟩ => (workerIterNbr_returns_iff env s).mp ⟨s', hrun⟩,
    fun hempty => ⟨s, workerIterNbr_of_nil hempty, ?_⟩⟩
  rw [hempty]
  rfl

/-- The worker makes a pass over one current neighbour, which has no pending
message. -/
theorem not_evicts : ¬ ∀ (env : Env) (s : State), Evicts env s := by
  intro hall
  obtain ⟨s', hrun, -⟩ := hall shortEnv (oneNeighbour 257)
  have hempty := (workerIterNbr_returns_iff shortEnv (oneNeighbour 257)).mp ⟨s', hrun⟩
  revert hempty
  decide

/-- Where no neighbour has a pending message, none is to be evicted. -/
theorem NbrsGood.evictSilent {s : State} (h : NbrsGood s) (env : Env)
    {keys : List (List Char)} (hkeys : ∀ key ∈ keys, key ∈ s.cur.keys) :
    evictSilent env keys s = .ok ((), s) := by
  induction keys with
  | nil => rfl
  | cons key keys ih =>
    obtain ⟨e, he⟩ := (s.cur.mem_keys_iff key).mp (hkeys key List.mem_cons_self)
    obtain ⟨ent, hent⟩ := Option.ne_none_iff_exists'.mp (h.alive .cur key e he)
    have hidle := workerIterMsg_of_none env hent (h.first_eq hent)
    have hfollow : follow (mapGet s.cur key) s = .ok (e, s) := by
      rw [he]
      rfl
    rw [Miaouchat.evictSilent, get_bind, bind_ok hfollow, bind_ok hidle, if_neg (by decide)]
    exact ih fun k hk => hkeys k (List.mem_cons_of_mem _ hk)

/-- **In every state the client reaches the pass is to do nothing**: no neighbour
is silent. -/
theorem Reachable.evictSilent {s : State} (h : Reachable s) (env : Env) :
    evictSilent env s.cur.keys s = .ok ((), s) :=
  h.good.nbrs.evictSilent env fun _ hkey => hkey

end Miaouchat
