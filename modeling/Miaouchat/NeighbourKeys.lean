import Miaouchat.NeighbourMap

/-!
# The keys of the neighbours

`map_add_neighbour_entry` computes the key of an entry from its address, and
`map_transfer_neighbour` is handed the key that the entry is taken out under.
The two are the same where the maps are `Keyed`: every binding is of an entry
under the key of its own address. The invariant is kept by whatever adds a
neighbour or moves one, and so is `Unshared`, that no entry is bound twice.

The rounds of `add_new_neighbour` and the transfer of an entry have their
bindings written out here (`nbrs_withAddress`, `nbrs_transferred`).
-/

namespace Miaouchat

/-- The other of the two maps. -/
def Nbrs.other : Nbrs → Nbrs
  | .cur => .pot
  | .pot => .cur

theorem Nbrs.other_ne (w : Nbrs) : w.other ≠ w := by
  cases w <;> decide

@[simp] theorem Nbrs.other_other (w : Nbrs) : w.other.other = w := by
  cases w <;> rfl

theorem Nbrs.eq_other_of_ne {w w' : Nbrs} (h : w' ≠ w) : w' = w.other := by
  cases w <;> cases w' <;> first | exact absurd rfl h | rfl

/-- **The calls are made on one host**: `inet_ntop` prints an address in one
way, and the byte order does not change. -/
structure SameHost (host env : Env) : Prop where
  inetNtop : env.inetNtop = host.inetNtop
  endian : env.mc.endian = host.mc.endian

theorem SameHost.addressKey_eq {host env : Env} (h : SameHost host env) :
    addressKey env = addressKey host := by
  funext p
  rw [addressKey, addressKey, h.inetNtop, h.endian]

/-! ## A round of `add_new_neighbour` -/

section WithAddress

variable (s : State) (env : Env) (hello : List UInt8) (w : Nbrs) (p : SockaddrIn6)

/-- **The bindings after a round**: the key of the address is bound in one map,
to the new entry unless it was bound. -/
theorem nbrs_withAddress (w' : Nbrs) (key : List Char) :
    mapGet ((s.withAddress env hello w p).nbrs w') key
      = if w' = w ∧ key = addressKey env p
        then some ((mapGet (s.nbrs w) key).getD s.entryCount)
        else mapGet (s.nbrs w') key := by
  unfold State.withAddress
  dsimp only
  cases hget : mapGet (s.nbrs w) (addressKey env p) with
  | none =>
    rw [if_pos (@Option.isNone_none ℕ)]
    by_cases hw : w' = w
    · subst hw
      rw [State.nbrs_setNbrs_same, mapGet_mapSet]
      by_cases hkey : key = addressKey env p
      · rw [if_pos hkey, if_pos ⟨rfl, hkey⟩, hkey, hget]
        rfl
      · rw [if_neg hkey, if_neg fun h => hkey h.2]
    · rw [State.nbrs_setNbrs_of_ne _ hw, if_neg fun h => hw h.1, State.nbrs_withEntry,
        State.nbrs_withSent]
  | some e =>
    rw [if_neg (by simp), State.nbrs_withEntry, State.nbrs_withSent]
    split
    · next h =>
      rw [h.1, h.2, hget]
      rfl
    · rfl

theorem entries_withAddress :
    (s.withAddress env hello w p).entries = Function.update s.entries s.entryCount
      (some ⟨p, 1024, newDllist .msg (env.junk s.entryCount)⟩) := by
  unfold State.withAddress
  dsimp only
  split
  · exact State.entries_setNbrs ..
  · rfl

theorem entryCount_withAddress :
    (s.withAddress env hello w p).entryCount = s.entryCount + 1 := by
  unfold State.withAddress
  dsimp only
  split
  · exact State.entryCount_setNbrs ..
  · rfl

end WithAddress

/-- What every round keeps, the rounds keep. -/
theorem withAddresses_keep {I : State → Prop} {env : Env} {hello : List UInt8}
    (hI : ∀ s w p, I s → I (s.withAddress env hello w p)) (i : ℕ) (ps : List SockaddrIn6)
    {s : State} (hs : I s) : I (State.withAddresses env hello i ps s) := by
  induction ps generalizing i s with
  | nil => exact hs
  | cons p ps ih => exact ih _ (hI s _ p hs)

theorem entryCount_withAddresses (env : Env) (hello : List UInt8) (i : ℕ)
    (ps : List SockaddrIn6) (s : State) :
    (State.withAddresses env hello i ps s).entryCount = s.entryCount + ps.length := by
  induction ps generalizing i s with
  | nil => rfl
  | cons p ps ih =>
    rw [State.withAddresses, ih, entryCount_withAddress, List.length_cons]
    omega

/-- **The keys bound after the rounds**: those bound before, and those of the
addresses that went to the map. -/
theorem isSome_withAddresses (env : Env) (hello : List UInt8) (i : ℕ)
    (ps : List SockaddrIn6) (s : State) (w : Nbrs) (key : List Char) :
    (mapGet ((State.withAddresses env hello i ps s).nbrs w) key).isSome
      ↔ (mapGet (s.nbrs w) key).isSome
        ∨ ∃ j p, ps[j]? = some p ∧ env.outcome (i + j) = w ∧ addressKey env p = key := by
  induction ps generalizing i s with
  | nil => simp [State.withAddresses]
  | cons p ps ih =>
    have hrest : (∃ j q, (p :: ps)[j]? = some q ∧ env.outcome (i + j) = w
          ∧ addressKey env q = key)
        ↔ (env.outcome i = w ∧ addressKey env p = key)
          ∨ ∃ j q, ps[j]? = some q ∧ env.outcome (i + 1 + j) = w ∧ addressKey env q = key := by
      constructor
      · rintro ⟨j, q, hq, hw, hkey⟩
        cases j with
        | zero =>
          cases hq
          exact .inl ⟨hw, hkey⟩
        | succ j => exact .inr ⟨j, q, hq, by rwa [Nat.add_right_comm, Nat.add_assoc], hkey⟩
      · rintro (⟨hw, hkey⟩ | ⟨j, q, hq, hw, hkey⟩)
        · exact ⟨0, p, rfl, hw, hkey⟩
        · exact ⟨j + 1, q, hq, by rwa [Nat.add_right_comm, Nat.add_assoc] at hw, hkey⟩
    rw [State.withAddresses, ih, nbrs_withAddress, hrest, ← or_assoc]
    refine or_congr_left ?_
    by_cases h : w = env.outcome i ∧ key = addressKey env p
    · rw [if_pos h]
      simp [h.1, h.2]
    · rw [if_neg h]
      exact ⟨.inl, fun h' => h'.resolve_right fun h' => h ⟨h'.1.symm, h'.2.symm⟩⟩

/-! ## A transfer -/

/-- The state once the entry `e` has been moved from the map `w` to the other,
where it is dropped if the key is bound. -/
def State.transferred (s : State) (w : Nbrs) (key : List Char) (e : ℕ) : State :=
  let s' := s.setNbrs w (mapRemove (s.nbrs w) key)
  if (mapGet (s.nbrs w.other) key).isNone then
    s'.setNbrs w.other (mapSet (s.nbrs w.other) key e)
  else s'

section Transferred

variable (s : State) (w : Nbrs) (key : List Char) (e : ℕ)

@[simp] theorem entries_transferred : (s.transferred w key e).entries = s.entries := by
  unfold State.transferred
  dsimp only
  split
  · rw [State.entries_setNbrs, State.entries_setNbrs]
  · rw [State.entries_setNbrs]

@[simp] theorem entryCount_transferred :
    (s.transferred w key e).entryCount = s.entryCount := by
  unfold State.transferred
  dsimp only
  split
  · rw [State.entryCount_setNbrs, State.entryCount_setNbrs]
  · rw [State.entryCount_setNbrs]

/-- The key is unbound in the map that the entry leaves. -/
theorem nbrs_transferred (key' : List Char) :
    mapGet ((s.transferred w key e).nbrs w) key'
      = if key' = key then none else mapGet (s.nbrs w) key' := by
  have hset : ∀ m, ((s.setNbrs w (mapRemove (s.nbrs w) key)).setNbrs w.other m).nbrs w
      = mapRemove (s.nbrs w) key := by
    intro m
    rw [State.nbrs_setNbrs_of_ne _ w.other_ne.symm, State.nbrs_setNbrs_same]
  unfold State.transferred
  dsimp only
  split
  · rw [hset, mapGet_mapRemove]
  · rw [State.nbrs_setNbrs_same, mapGet_mapRemove]

/-- The key is bound in the other. -/
theorem nbrs_other_transferred (key' : List Char) :
    mapGet ((s.transferred w key e).nbrs w.other) key'
      = if key' = key then some ((mapGet (s.nbrs w.other) key).getD e)
        else mapGet (s.nbrs w.other) key' := by
  unfold State.transferred
  dsimp only
  cases hget : mapGet (s.nbrs w.other) key with
  | none =>
    rw [if_pos (@Option.isNone_none ℕ), State.nbrs_setNbrs_same, mapGet_mapSet]
    rfl
  | some e' =>
    rw [if_neg (by simp), State.nbrs_setNbrs_of_ne _ w.other_ne]
    split
    · next h =>
      rw [h, hget]
      rfl
    · rfl

end Transferred

/-! ## The invariants -/

/-- **Every binding is of an entry under the key of its own address.** -/
def Keyed (host : Env) (s : State) : Prop :=
  ∀ w key e, mapGet (s.nbrs w) key = some e →
    e < s.entryCount ∧ ∃ ent, s.entries e = some ent ∧ key = entryKey host ent

/-- **No entry is bound twice**, under two keys or in both maps. -/
def Unshared (s : State) : Prop :=
  ∀ w key w' key' e, mapGet (s.nbrs w) key = some e → mapGet (s.nbrs w') key' = some e →
    w = w' ∧ key = key'

section Invariants

variable {host env : Env} {s s' : State} {w : Nbrs} {key : List Char} {e : ℕ}

theorem keyed_init (host : Env) (junk : ℕ → Option ℕ × Option ℕ) :
    Keyed host (State.init junk) := by
  intro w key e h
  cases w <;> cases (mapGet_mapInit key).symm.trans h

theorem unshared_init (junk : ℕ → Option ℕ × Option ℕ) : Unshared (State.init junk) := by
  intro w key w' key' e h
  cases w <;> cases (mapGet_mapInit key).symm.trans h

/-- **A transfer** of an entry that is bound under its own key puts it under
this key in the other map, where the key is free. -/
theorem transfer_run_of_entryKey {ent : NeighbourEntry} (he : mapGet (s.nbrs w) key = some e)
    (hent : s.entries e = some ent) (hkey : entryKey env ent = key) :
    mapTransferNeighbour env w w.other key s
      = .ok ((mapGet (s.nbrs w.other) key).isNone, s.transferred w key e) := by
  rw [mapTransferNeighbour_some env w.other_ne he hent, hkey]
  unfold State.transferred
  dsimp only
  cases (mapGet (s.nbrs w.other) key).isNone <;> rfl

/-- The same from a keyed map. -/
theorem Keyed.transfer_run (h : Keyed host s) (hhost : SameHost host env)
    (he : mapGet (s.nbrs w) key = some e) :
    mapTransferNeighbour env w w.other key s
      = .ok ((mapGet (s.nbrs w.other) key).isNone, s.transferred w key e) := by
  obtain ⟨-, ent, hent, hkey⟩ := h w key e he
  exact transfer_run_of_entryKey he hent
    ((congrFun hhost.addressKey_eq ent.addr).trans hkey.symm)

/-- A transfer from a keyed map that returns has moved an entry. -/
theorem Keyed.transfer_eq_ok {moved : Bool} (h : Keyed host s) (hhost : SameHost host env)
    (hrun : mapTransferNeighbour env w w.other key s = .ok (moved, s')) :
    ∃ e, mapGet (s.nbrs w) key = some e ∧ s' = s.transferred w key e := by
  have hbound := (mapTransferNeighbour_eq_ok w.other_ne.symm hrun).1
  obtain ⟨e, he⟩ := Option.ne_none_iff_exists'.mp hbound
  refine ⟨e, he, ?_⟩
  rw [h.transfer_run hhost he] at hrun
  cases hrun
  rfl

/-- The binding that a transfer makes is one that was there, or the entry's. -/
theorem transferred_bound {w' : Nbrs} {key' : List Char} {e' : ℕ}
    (he : mapGet (s.nbrs w) key = some e)
    (h : mapGet ((s.transferred w key e).nbrs w') key' = some e') :
    (¬(w' = w ∧ key' = key) ∧ mapGet (s.nbrs w') key' = some e')
      ∨ (w' = w.other ∧ key' = key ∧ e' = e) := by
  by_cases hw : w' = w
  · subst hw
    rw [nbrs_transferred] at h
    split at h
    · cases h
    · next hkey => exact .inl ⟨fun h' => hkey h'.2, h⟩
  · obtain rfl := Nbrs.eq_other_of_ne hw
    rw [nbrs_other_transferred] at h
    split at h
    · next hkey =>
      subst hkey
      cases hget : mapGet (s.nbrs w.other) key' with
      | none =>
        rw [hget] at h
        exact .inr ⟨rfl, rfl, (Option.some.inj h).symm⟩
      | some e₁ =>
        rw [hget] at h
        exact .inl ⟨fun h' => hw h'.1, h⟩
    · exact .inl ⟨fun h' => hw h'.1, h⟩

theorem Keyed.transferred (h : Keyed host s) (he : mapGet (s.nbrs w) key = some e) :
    Keyed host (s.transferred w key e) := by
  intro w' key' e' he'
  rw [entries_transferred, entryCount_transferred]
  rcases transferred_bound he he' with ⟨-, he'⟩ | ⟨rfl, rfl, rfl⟩
  · exact h w' key' e' he'
  · exact h w key' e' he

theorem Unshared.transferred (h : Unshared s) (he : mapGet (s.nbrs w) key = some e) :
    Unshared (s.transferred w key e) := by
  -- The entry moved was bound in the map it has left, under this key only.
  have hmoved : ∀ {w₁ key₁}, ¬(w₁ = w ∧ key₁ = key) → mapGet (s.nbrs w₁) key₁ ≠ some e :=
    fun hne he₁ => hne (h _ _ _ _ e he₁ he)
  intro w₁ key₁ w₂ key₂ e' h₁ h₂
  rcases transferred_bound he h₁ with ⟨hne₁, h₁⟩ | ⟨rfl, rfl, rfl⟩ <;>
    rcases transferred_bound he h₂ with ⟨hne₂, h₂⟩ | ⟨hw₂, hkey₂, he₂⟩
  · exact h _ _ _ _ e' h₁ h₂
  · exact absurd (he₂ ▸ h₁) (hmoved hne₁)
  · exact absurd h₂ (hmoved hne₂)
  · exact ⟨hw₂.symm, hkey₂.symm⟩

/-- A round binds the new entry, or nothing. -/
theorem withAddress_bound {hello : List UInt8} {p : SockaddrIn6} {w' : Nbrs}
    {key' : List Char} {e' : ℕ}
    (h : mapGet ((s.withAddress env hello w p).nbrs w') key' = some e') :
    mapGet (s.nbrs w') key' = some e'
      ∨ (w' = w ∧ key' = addressKey env p ∧ e' = s.entryCount) := by
  rw [nbrs_withAddress] at h
  split at h
  · next hnew =>
    obtain ⟨rfl, hkey⟩ := hnew
    cases hget : mapGet (s.nbrs w') key' with
    | none =>
      rw [hget] at h
      exact .inr ⟨rfl, hkey, (Option.some.inj h).symm⟩
    | some e₁ =>
      rw [hget] at h
      exact .inl h
  · exact .inl h

theorem Keyed.withAddress (h : Keyed host s) (hhost : SameHost host env)
    (hello : List UInt8) (w : Nbrs) (p : SockaddrIn6) :
    Keyed host (s.withAddress env hello w p) := by
  intro w' key' e' he'
  rw [entryCount_withAddress, entries_withAddress]
  rcases withAddress_bound he' with he' | ⟨-, hkey, rfl⟩
  · obtain ⟨hlt, ent, hent, hkey⟩ := h w' key' e' he'
    exact ⟨hlt.trans (Nat.lt_succ_self _), ent,
      (Function.update_of_ne hlt.ne ..).trans hent, hkey⟩
  · exact ⟨Nat.lt_succ_self _, _, Function.update_self .., by
      rw [hkey, hhost.addressKey_eq]
      rfl⟩

theorem Unshared.withAddress (h : Unshared s) (hkeyed : Keyed host s) (hello : List UInt8)
    (w : Nbrs) (p : SockaddrIn6) : Unshared (s.withAddress env hello w p) := by
  have hfresh : ∀ {w₁ key₁}, mapGet (s.nbrs w₁) key₁ ≠ some s.entryCount :=
    fun he₁ => absurd (hkeyed _ _ _ he₁).1 (lt_irrefl _)
  intro w₁ key₁ w₂ key₂ e' h₁ h₂
  rcases withAddress_bound h₁ with h₁ | ⟨rfl, rfl, rfl⟩ <;>
    rcases withAddress_bound h₂ with h₂ | ⟨hw₂, hkey₂, he₂⟩
  · exact h _ _ _ _ e' h₁ h₂
  · exact absurd (he₂ ▸ h₁) hfresh
  · exact absurd h₂ hfresh
  · exact ⟨hw₂.symm, hkey₂.symm⟩

theorem Keyed.withAddresses (h : Keyed host s) (hhost : SameHost host env)
    (hello : List UInt8) (i : ℕ) (ps : List SockaddrIn6) :
    Keyed host (State.withAddresses env hello i ps s) :=
  withAddresses_keep (fun _ w p hs => hs.withAddress hhost hello w p) i ps h

theorem Unshared.withAddresses (h : Unshared s) (hkeyed : Keyed host s)
    (hhost : SameHost host env) (hello : List UInt8) (i : ℕ) (ps : List SockaddrIn6) :
    Unshared (State.withAddresses env hello i ps s) :=
  (withAddresses_keep (I := fun s => Keyed host s ∧ Unshared s)
    (fun _ w p hs => ⟨hs.1.withAddress hhost hello w p, hs.2.withAddress hs.1 hello w p⟩) i ps
    ⟨hkeyed, h⟩).2

/-- The rounds bind new entries, or nothing. -/
theorem withAddresses_bound {hello : List UInt8} {i : ℕ} {ps : List SockaddrIn6}
    (h : mapGet ((State.withAddresses env hello i ps s).nbrs w) key = some e) :
    mapGet (s.nbrs w) key = some e ∨ s.entryCount ≤ e := by
  have hkeep : s.entryCount ≤ (State.withAddresses env hello i ps s).entryCount ∧
      ∀ w key e, mapGet ((State.withAddresses env hello i ps s).nbrs w) key = some e →
        mapGet (s.nbrs w) key = some e ∨ s.entryCount ≤ e := by
    refine withAddresses_keep (I := fun s' => s.entryCount ≤ s'.entryCount ∧ ∀ w key e,
      mapGet (s'.nbrs w) key = some e → mapGet (s.nbrs w) key = some e ∨ s.entryCount ≤ e)
      (fun s' w' p hs' => ⟨?_, fun w key e he => ?_⟩) i ps ⟨le_rfl, fun _ _ _ => .inl⟩
    · rw [entryCount_withAddress]
      exact hs'.1.trans (Nat.le_succ _)
    · rcases withAddress_bound he with he | ⟨-, -, rfl⟩
      · exact hs'.2 w key e he
      · exact .inr hs'.1
  exact hkeep.2 w key e h

end Invariants

end Miaouchat
