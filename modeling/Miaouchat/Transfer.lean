import Miaouchat.OneStatus

/-!
# Moving a neighbour between the maps

`map_transfer_neighbour` takes an entry out of one map and adds it to the other.
It is to move the entry or to change nothing: `AllOrNothing`.

The code looks at neither way in which it can fail before it has failed.
`map_pop_neighbour` follows what `map_get` returns, which is `NULL` where the key
is not bound, and the tests for a null entry come after. And where the key is
bound in the other map the entry has been taken out when `map_add_neighbour_entry`
declines it: no map has it any more (`mapTransferNeighbour_drops`).
-/

namespace Miaouchat

/-- **Every binding of either map is of an entry under its own key**, the one
that `map_add_neighbour_entry` computes from its address. -/
def UnderOwnKeys (env : Env) (s : State) : Prop :=
  ∀ w key e, mapGet (s.nbrs w) key = some e →
    ∃ ent, s.entries e = some ent ∧ entryKey env ent = key

theorem Keyed.underOwnKeys {env : Env} {s : State} (h : Keyed env s) : UnderOwnKeys env s := by
  intro w key e he
  obtain ⟨-, ent, hent, hkey⟩ := h w key e he
  exact ⟨ent, hent, hkey.symm⟩

/-- One of the maps has the entry. -/
def State.Holds (s : State) (e : ℕ) : Prop := ∃ w key, mapGet (s.nbrs w) key = some e

/-- The entry of the key has gone from the map `w` to the other. -/
structure Moved (w : Nbrs) (key : List Char) (s s' : State) : Prop where
  unbound : mapGet (s'.nbrs w) key = none
  bound : ∃ e, mapGet (s.nbrs w) key = some e ∧ mapGet (s'.nbrs w.other) key = some e

/-- **A transfer is all or nothing.** It returns; it has moved the entry, or has
found the key unbound or taken and left both maps as they were; the other
bindings are untouched, and no entry is lost. -/
def AllOrNothing (env : Env) (w : Nbrs) (key : List Char) (s : State) : Prop :=
  ∃ moved s', mapTransferNeighbour env w w.other key s = .ok (moved, s')
    ∧ (moved = true → Moved w key s s')
    ∧ (moved = false → (∀ w', s'.nbrs w' = s.nbrs w')
      ∧ (mapGet (s.nbrs w) key = none ∨ mapGet (s.nbrs w.other) key ≠ none))
    ∧ (∀ w' key', key' ≠ key → mapGet (s'.nbrs w') key' = mapGet (s.nbrs w') key')
    ∧ ∀ e, s.Holds e → s'.Holds e

section Transfer

variable {env : Env} {w : Nbrs} {key : List Char} {s : State} {e : ℕ}

/-- **The other bindings are untouched.** -/
theorem transferred_of_ne (w' : Nbrs) {key' : List Char} (hne : key' ≠ key) :
    mapGet ((s.transferred w key e).nbrs w') key' = mapGet (s.nbrs w') key' := by
  by_cases hw : w' = w
  · rw [hw, nbrs_transferred, if_neg hne]
  · rw [Nbrs.eq_other_of_ne hw, nbrs_other_transferred, if_neg hne]

/-- **Where the key is free in the other map**, the entry moves. -/
theorem moved_transferred (he : mapGet (s.nbrs w) key = some e)
    (hfree : mapGet (s.nbrs w.other) key = none) : Moved w key s (s.transferred w key e) := by
  refine ⟨?_, e, he, ?_⟩
  · rw [nbrs_transferred, if_pos rfl]
  · rw [nbrs_other_transferred, if_pos rfl, hfree]
    rfl

/-- No entry is lost then. -/
theorem holds_transferred (he : mapGet (s.nbrs w) key = some e)
    (hfree : mapGet (s.nbrs w.other) key = none) {e' : ℕ} (hheld : s.Holds e') :
    (s.transferred w key e).Holds e' := by
  obtain ⟨w', key', he'⟩ := hheld
  by_cases hkey : key' = key
  · subst hkey
    by_cases hw : w' = w
    · subst hw
      cases he.symm.trans he'
      obtain ⟨-, e₁, he₁, hbound⟩ := moved_transferred he hfree
      cases he.symm.trans he₁
      exact ⟨_, _, hbound⟩
    · rw [Nbrs.eq_other_of_ne hw, hfree] at he'
      cases he'
  · exact ⟨w', key', (transferred_of_ne w' hkey).trans he'⟩

/-- **Where the key is taken in the other map**, the entry is taken out of its own
map and put in none. -/
theorem mapTransferNeighbour_drops (h : UnderOwnKeys env s)
    (he : mapGet (s.nbrs w) key = some e) (htaken : mapGet (s.nbrs w.other) key ≠ none) :
    mapTransferNeighbour env w w.other key s
        = .ok (false, s.setNbrs w (mapRemove (s.nbrs w) key)) := by
  obtain ⟨ent, hent, hkey⟩ := h w key e he
  obtain ⟨e', he'⟩ := Option.ne_none_iff_exists'.mp htaken
  rw [transfer_run_of_entryKey he hent hkey, State.transferred, he']
  rfl

/-- **A transfer that is all or nothing** finds the key bound in the one map and
free in the other. -/
theorem AllOrNothing.bound_free (h : UnderOwnKeys env s) (hall : AllOrNothing env w key s) :
    mapGet (s.nbrs w) key ≠ none ∧ mapGet (s.nbrs w.other) key = none := by
  obtain ⟨moved, s', hrun, -, hkept, -, -⟩ := hall
  obtain ⟨hbound, hgone, -⟩ := mapTransferNeighbour_eq_ok w.other_ne.symm hrun
  refine ⟨hbound, ?_⟩
  by_contra htaken
  obtain ⟨e, he⟩ := Option.ne_none_iff_exists'.mp hbound
  have hdrop := mapTransferNeighbour_drops h he htaken
  obtain rfl : moved = false := by
    cases hrun.symm.trans hdrop
    rfl
  rw [(hkept rfl).1 w] at hgone
  exact hbound hgone

/-- **A transfer that finds the key so** moves the entry. -/
theorem allOrNothing_of_bound_free (h : UnderOwnKeys env s)
    (hbound : mapGet (s.nbrs w) key ≠ none) (hfree : mapGet (s.nbrs w.other) key = none) :
    AllOrNothing env w key s := by
  obtain ⟨e, he⟩ := Option.ne_none_iff_exists'.mp hbound
  obtain ⟨ent, hent, hkey⟩ := h w key e he
  refine ⟨true, s.transferred w key e, ?_, fun _ => moved_transferred he hfree, Bool.noConfusion,
    fun w' _ => transferred_of_ne w', fun _ => holds_transferred he hfree⟩
  rw [transfer_run_of_entryKey he hent hkey, hfree]
  rfl

/-- **A transfer is all or nothing exactly where the key is bound in the one map
and free in the other.** -/
theorem allOrNothing_iff (h : UnderOwnKeys env s) (w : Nbrs) (key : List Char) :
    AllOrNothing env w key s
      ↔ mapGet (s.nbrs w) key ≠ none ∧ mapGet (s.nbrs w.other) key = none :=
  ⟨fun hall => hall.bound_free h, fun hkey => allOrNothing_of_bound_free h hkey.1 hkey.2⟩

/-- **Where no key is bound in both maps**, a transfer of a bound key is. -/
theorem OneStatus.allOrNothing (hone : OneStatus s) (h : UnderOwnKeys env s)
    (hbound : mapGet (s.nbrs w) key ≠ none) : AllOrNothing env w key s := by
  refine allOrNothing_of_bound_free h hbound ?_
  cases w with
  | cur => exact (hone key).resolve_left hbound
  | pot => exact (hone key).resolve_right hbound

end Transfer

/-- A client whose two neighbours are both at the port 257 of `::1`, one in each
map. -/
def twiceMet : State := (oneNeighbour 257).withAddress shortEnv [] .pot ⟨shortIp 1, 257⟩

theorem underOwnKeys_oneNeighbour : UnderOwnKeys shortEnv (oneNeighbour 257) :=
  ((keyed_init shortEnv _).withAddress ⟨rfl, rfl⟩ [] .cur _).underOwnKeys

theorem underOwnKeys_twiceMet : UnderOwnKeys shortEnv twiceMet :=
  (((keyed_init shortEnv _).withAddress ⟨rfl, rfl⟩ [] .cur _).withAddress ⟨rfl, rfl⟩ [] .pot
    _).underOwnKeys

/-- The neighbour moves where it is in one map only. -/
theorem allOrNothing_iff_oneNeighbour :
    AllOrNothing shortEnv .cur (newNeighbourKey [':', ':', '1'] 257) (oneNeighbour 257) :=
  (allOrNothing_iff underOwnKeys_oneNeighbour .cur _).mpr ⟨by decide, by decide⟩

/-- An entry is lost where there is one in each map. -/
theorem not_allOrNothing :
    ¬ ∀ (env : Env) (w : Nbrs) (key : List Char) (s : State),
        UnderOwnKeys env s → AllOrNothing env w key s := by
  intro hall
  have hfree := ((hall shortEnv .cur (newNeighbourKey [':', ':', '1'] 257) twiceMet
    underOwnKeys_twiceMet).bound_free underOwnKeys_twiceMet).2
  revert hfree
  decide

end Miaouchat
