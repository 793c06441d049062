import Miaouchat.Reachable

/-!
# Flooding

A message accepted is to be sent on to every current neighbour: `add_msg` walks
over the map of current neighbours and pushes a pending message on the list of
each. The lists are made by `new_neighbour_entry` with the tag `DLL_MSG`, the
push is made with `DLL_INT`, and a push with another tag than the list's does
nothing (`dllistPushFront_of_ne`). So nothing is ever sent on.
-/

namespace Miaouchat

/-- The pending messages of an entry. -/
def pendingOf (s : State) (e : ℕ) : List DllistMsg :=
  ((s.entries e).map fun ent => dllistContents ent.msgToSend).getD []

/-- **One new message for `b` has joined the others**, which are as they were
and in the same order. It has not been tried. -/
def Joined (b : DataBody) (before after : List DllistMsg) : Prop :=
  ∃ xs m ys, before = xs ++ ys ∧ after = xs ++ m :: ys ∧ m.body = b ∧ m.tries = 0

/-- **`add_msg` floods `b` from `s`**: a new message is queued for every current
neighbour and is in the list and the map; one that is in the list already
changes nothing. -/
def Floods (env : Env) (b : DataBody) (s : State) : Prop :=
  if dataKey b ∈ dllistContents s.msgList then (addMsg env b).exec s = .ok (false, s)
  else ∃ s', (addMsg env b).exec s = .ok (true, s')
    ∧ (∀ key e, mapGet s.cur key = some e → Joined b (pendingOf s e) (pendingOf s' e))
    ∧ dataKey b ∈ dllistContents s'.msgList
    ∧ mapGet s'.msgMap (dataKey b) = some b

/-- Nothing has joined a list that is as it was. -/
theorem not_joined_self (b : DataBody) (ms : List DllistMsg) : ¬ Joined b ms ms := by
  rintro ⟨xs, m, ys, hbefore, hafter, -⟩
  have hlen := congrArg List.length (hbefore.symm.trans hafter)
  simp only [List.length_append, List.length_cons] at hlen
  omega

/-- **In a good state a new message is flooded where there is nobody to send it
to**, if the search for it returns. -/
theorem Good.floods_iff {s : State} (h : Good s) (env : Env) (b : DataBody) :
    Floods env b s ↔ dataKey b ∈ dllistContents s.msgList
      ∨ s.cur.keys = [] ∧ NullTerminated s.msgList := by
  unfold Floods
  split
  · rename_i hmem
    exact iff_of_true (h.storeSound.addMsg_known env hmem) (.inl hmem)
  · rename_i hnotMem
    rw [or_iff_right hnotMem]
    constructor
    · rintro ⟨s', hrun, hjoined, -⟩
      by_cases hend : NullTerminated s.msgList
      · refine ⟨List.eq_nil_iff_forall_not_mem.mpr fun key hkey => ?_, hend⟩
        obtain ⟨e, he⟩ := (s.cur.mem_keys_iff key).mp hkey
        obtain ⟨l, hadd, -⟩ := h.storeSound.addMsg_new h.type_eq env hnotMem hend
        rw [hadd] at hrun
        cases hrun
        -- the entries are those of `s`
        exact not_joined_self b _ (hjoined key e he)
      · obtain ⟨f, hf⟩ := h.storeSound.addMsg_runs_off env hnotMem hend
        rw [hf] at hrun
        cases hrun
    · rintro ⟨hkeys, hend⟩
      obtain ⟨l, hadd, -, hcontents, -⟩ :=
        h.storeSound.addMsg_new h.type_eq env hnotMem hend
      refine ⟨_, hadd, fun key e he => ?_, ?_, ?_⟩
      · have hmem : key ∈ s.cur.keys := (s.cur.mem_keys_iff key).mpr ⟨e, he⟩
        rw [hkeys] at hmem
        cases hmem
      · exact hcontents ▸ List.mem_cons_self
      · show mapGet (mapSet s.msgMap (dataKey b) b) (dataKey b) = some b
        rw [mapGet_mapSet, if_pos rfl]

/-- **In every state the client reaches, `add_msg` floods a message exactly when
its key is in the list, or there is no current neighbour and the list ends in
`NULL`.** -/
theorem floods_iff_no_neighbour {s : State} (h : Reachable s) (env : Env) (b : DataBody) :
    Floods env b s ↔ dataKey b ∈ dllistContents s.msgList
      ∨ s.cur.keys = [] ∧ NullTerminated s.msgList :=
  h.good.floods_iff env b

/-- A host that resolves to one address, with the port 1212 in network order. -/
def oneNeighbourEnv : Env :=
  { quietEnv with getaddrinfo := fun _ _ => some [⟨Vector.replicate 16 1, 48132⟩] }

/-- A message has come in, and then a neighbour. The message is known when it comes
again, and a new one is not queued for the neighbour. -/
theorem floods_iff_no_neighbour_known : ∃ s, Reachable s
    ∧ dllistContents s.msgList = [['7', '1']] ∧ s.cur.keys = [['1', '2', '1', '2']]
    ∧ Floods quietEnv ⟨7, 1, 0, 0, []⟩ s ∧ ¬ Floods quietEnv ⟨2, 4, 0, 0, []⟩ s := by
  obtain ⟨s₁, s₂, hadd, hmeet, hcontents, hkeys⟩ : ∃ s₁ s₂,
      ((Operation.addMsg ⟨7, 1, 0, 0, []⟩).code quietEnv).exec
          (State.init fun _ => (none, none)) = .ok ((), s₁)
        ∧ ((Operation.addNewNeighbour [] []).code oneNeighbourEnv).exec s₁ = .ok ((), s₂)
        ∧ dllistContents s₂.msgList = [['7', '1']]
        ∧ s₂.cur.keys = [['1', '2', '1', '2']] :=
    ⟨_, _, rfl, rfl, by decide, by decide⟩
  have hs : Reachable s₂ :=
    .step oneNeighbourEnv _ (.step quietEnv _ (.init _) hadd) hmeet
  refine ⟨s₂, hs, hcontents, hkeys, (floods_iff_no_neighbour hs _ _).mpr (.inl ?_), ?_⟩
  · rw [hcontents]
    exact List.mem_singleton_self _
  · rw [floods_iff_no_neighbour hs, hcontents, hkeys]
    rintro (hmem | ⟨hnone, -⟩)
    · exact absurd (List.mem_singleton.mp hmem) (by decide)
    · cases hnone

/-- With one current neighbour and nothing received yet, the first message is
not queued for it. -/
theorem not_floods_one_neighbour :
    ¬ ∀ (s : State) (env : Env) (b : DataBody), Reachable s → Floods env b s := by
  intro hall
  obtain ⟨s, hrun, hcontents, hkeys⟩ : ∃ s,
      ((Operation.addNewNeighbour [] []).code oneNeighbourEnv).exec
          (State.init fun _ => (none, none)) = .ok ((), s)
        ∧ dllistContents s.msgList = [] ∧ s.cur.keys = [['1', '2', '1', '2']] :=
    ⟨_, rfl, rfl, by decide⟩
  have hs : Reachable s := .step oneNeighbourEnv (.addNewNeighbour [] []) (.init _) hrun
  have h := (hs.good.floods_iff oneNeighbourEnv ⟨7, 1, 0, 0, []⟩).mp (hall _ _ _ hs)
  rw [hcontents, hkeys] at h
  rcases h with h | ⟨h, -⟩ <;> cases h

end Miaouchat
