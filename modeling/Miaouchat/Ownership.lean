import Miaouchat.Lib.Runs
import Miaouchat.Connect
import Miaouchat.NeighbourKeys

/-!
# Who holds an entry

An entry points to its address where `getaddrinfo` has put it, in the list of
all the addresses of a host. `add_new_neighbour` makes an entry for each of
them, and never gives the list up: it is shared by the entries.
`free_neighbour_entry` hands the address of its entry to `freeaddrinfo`, which
frees it together with all that come after it in the list. The entries of these
are left with dangling addresses, if they are bound, and with a second `free`
of the same memory when they are deleted in their turn.

Otherwise the maps are in order: every binding of a run is of a live entry under
the key of its own address, and no entry is bound twice, exactly when no call
of `map_delete_entry` frees an address that another binding needs or that has
been freed (`ownsEntries_iff_deletesAlone`).
-/

namespace Miaouchat

/-- The state with the memory of the addresses. The address of an entry goes by
the number of the entry. -/
structure Owned where
  state : State
  /-- The number after that of the last address in the list of an address. -/
  stop : ℕ → ℕ
  freed : ℕ → Bool

/-- `freeaddrinfo`: the address and those after it in its list are freed. A
second `free` of one has no outcome. -/
def freeaddrinfo (e : ℕ) (m : Owned) : Except Fault Owned :=
  let rest := List.range' e (m.stop e - e)
  if rest.any m.freed then .error .wild
  else .ok { m with freed := fun e' => m.freed e' || rest.contains e' }

/-- `free_neighbour_entry`. -/
def freeNeighbourEntry (e : ℕ) (m : Owned) : Except Fault Owned :=
  (freeaddrinfo e m).map fun m =>
    { m with state := { m.state with entries := Function.update m.state.entries e none } }

/-- `map_delete_entry`. -/
def mapDeleteEntry (w : Nbrs) (ip : List Char) (port : UInt16) (m : Owned) :
    Except Fault Owned :=
  let key := newNeighbourKey ip port
  match mapGet (m.state.nbrs w) key with
  | none => .error .null
  | some e =>
    freeNeighbourEntry e
      { m with state := m.state.setNbrs w (mapRemove (m.state.nbrs w) key) }

/-- The memory once new entries have been made, for the addresses of one list. -/
def Owned.grown (m : Owned) (s : State) : Owned :=
  { m with
    state := s
    stop := fun e => if e < m.state.entryCount then m.stop e else s.entryCount }

/-- The calls that add, move and delete neighbours. -/
inductive OwnedCall
  | addNewNeighbour (host port : List Char)
  | processNeighbour (b : NeighbourBody)
  /-- `map_transfer_neighbour` from a map to the other. -/
  | transfer (w : Nbrs) (key : List Char)
  | deleteEntry (w : Nbrs) (ip : List Char) (port : UInt16)

namespace OwnedCall

/-- What a call does. A transfer reads the address of the entry. -/
def run (env : Env) (m : Owned) : OwnedCall → Except Fault Owned
  | addNewNeighbour host port =>
    ((Miaouchat.addNewNeighbour env host port).exec m.state).map fun r => m.grown r.2
  | processNeighbour b =>
    ((Miaouchat.processNeighbour env b).exec m.state).map fun r => m.grown r.2
  | transfer w key =>
    match mapGet (m.state.nbrs w) key with
    | none => .error .null
    | some e =>
      if m.freed e then .error .wild
      else (mapTransferNeighbour env w w.other key m.state).map fun r =>
        { m with state := r.2 }
  | deleteEntry w ip port => mapDeleteEntry w ip port m

/-- The key that a call takes out of a map is bound. -/
def Present (m : Owned) : OwnedCall → Prop
  | addNewNeighbour _ _ | processNeighbour _ => True
  | transfer w key => (mapGet (m.state.nbrs w) key).isSome
  | deleteEntry w ip port => (mapGet (m.state.nbrs w) (newNeighbourKey ip port)).isSome

/-- **The condition on a call**: of the addresses that a deletion frees, none
has been freed, and none is that of another entry bound in one of the maps. -/
def DeletesAlone (m : Owned) : OwnedCall → Prop
  | addNewNeighbour _ _ | processNeighbour _ | transfer _ _ => True
  | deleteEntry w ip port =>
    ∀ e, mapGet (m.state.nbrs w) (newNeighbourKey ip port) = some e →
      ∀ e', e ≤ e' → e' < m.stop e → m.freed e' = false
        ∧ ∀ w' key', mapGet (m.state.nbrs w') key' = some e' → e' = e

end OwnedCall

/-- A call on the host, with a key that is bound. A call that does not return
leaves no state. -/
inductive OwnedStep (host : Env) :
    Except Fault Owned → Env × OwnedCall → Except Fault Owned → Prop
  | call {env : Env} {m : Owned} {call : OwnedCall} (hhost : SameHost host env)
      (hpresent : call.Present m) : OwnedStep host (.ok m) (env, call) (call.run env m)

/-- The state before anything has happened. -/
def Owned.init (junk : ℕ → Option ℕ × Option ℕ) : Owned :=
  ⟨State.init junk, fun _ => 0, fun _ => false⟩

/-- **Every binding is of a live entry**, under the key recomputed from its
address, and no entry is bound twice. -/
structure OwnsEntries (host : Env) (m : Owned) : Prop where
  keyed : Keyed host m.state
  live : ∀ w key e, mapGet (m.state.nbrs w) key = some e → m.freed e = false
  unshared : Unshared m.state

theorem OwnsEntries.init (host : Env) (junk : ℕ → Option ℕ × Option ℕ) :
    OwnsEntries host (Owned.init junk) where
  keyed := keyed_init host junk
  live := fun _ _ _ _ => rfl
  unshared := unshared_init junk

/-- The calls have returned, and the entries are in order. -/
def InOrder (host : Env) (r : Except Fault Owned) : Prop :=
  ∃ m, r = .ok m ∧ OwnsEntries host m

/-- The lists end within the addresses there are, and no other is freed. -/
structure Bounded (m : Owned) : Prop where
  fresh : ∀ e, m.state.entryCount ≤ e → m.freed e = false
  stop_le : ∀ e, e < m.state.entryCount → m.stop e ≤ m.state.entryCount

/-! ## Adding -/

theorem addNewNeighbour_grown (env : Env) (host port : List Char) (m : Owned) :
    ∃ hello ps, ((addNewNeighbour env host port).exec m.state).map (fun r => m.grown r.2)
      = .ok (m.grown (State.withAddresses env hello 0 ps m.state)) := by
  rw [exec_addNewNeighbour]
  exact ⟨_, _, rfl⟩

theorem Bounded.grown {env : Env} {m : Owned} (h : Bounded m) (hello : List UInt8)
    (ps : List SockaddrIn6) :
    Bounded (m.grown (State.withAddresses env hello 0 ps m.state)) := by
  have hcount := entryCount_withAddresses env hello 0 ps m.state
  refine ⟨fun e he => h.fresh e ?_, fun e he => ?_⟩
  · change (State.withAddresses env hello 0 ps m.state).entryCount ≤ e at he
    omega
  · show (if e < m.state.entryCount then m.stop e else _) ≤ _
    split
    · next hlt =>
      have hstop := h.stop_le e hlt
      change m.stop e ≤ (State.withAddresses env hello 0 ps m.state).entryCount
      omega
    · exact le_rfl

theorem OwnsEntries.grown {host env : Env} {m : Owned} (h : OwnsEntries host m)
    (hm : Bounded m) (hhost : SameHost host env) (hello : List UInt8)
    (ps : List SockaddrIn6) :
    OwnsEntries host (m.grown (State.withAddresses env hello 0 ps m.state)) where
  keyed := h.keyed.withAddresses hhost hello 0 ps
  live := fun w key e he => by
    rcases withAddresses_bound he with hold | hnew
    · exact h.live w key e hold
    · exact hm.fresh e hnew
  unshared := h.unshared.withAddresses h.keyed hhost hello 0 ps

/-! ## Moving -/

/-- A transfer of a live entry. -/
theorem OwnsEntries.run_transfer {host env : Env} {m : Owned} (h : OwnsEntries host m)
    (hhost : SameHost host env) {w : Nbrs} {key : List Char} {e : ℕ}
    (he : mapGet (m.state.nbrs w) key = some e) :
    (OwnedCall.transfer w key).run env m
      = .ok { m with state := m.state.transferred w key e } := by
  rw [OwnedCall.run, he]
  dsimp only
  rw [if_neg (by rw [h.live w key e he]; exact Bool.false_ne_true),
    h.keyed.transfer_run hhost he]
  rfl

theorem OwnsEntries.transferred {host : Env} {m : Owned} (h : OwnsEntries host m) {w : Nbrs}
    {key : List Char} {e : ℕ} (he : mapGet (m.state.nbrs w) key = some e) :
    OwnsEntries host { m with state := m.state.transferred w key e } where
  keyed := h.keyed.transferred he
  live := fun w' key' e' he' => by
    rcases transferred_bound he he' with ⟨-, he'⟩ | ⟨-, -, rfl⟩
    · exact h.live w' key' e' he'
    · exact h.live w key e' he
  unshared := h.unshared.transferred he

theorem Bounded.transferred {m : Owned} (h : Bounded m) (w : Nbrs) (key : List Char) (e : ℕ) :
    Bounded { m with state := m.state.transferred w key e } where
  fresh := fun e' he' => h.fresh e' (by rwa [entryCount_transferred] at he')
  stop_le := fun e' he' => by
    rw [entryCount_transferred] at he' ⊢
    exact h.stop_le e' he'

/-! ## Deleting -/

/-- The memory once the entry `e` has been deleted. -/
def Owned.deleted (m : Owned) (w : Nbrs) (key : List Char) (e : ℕ) : Owned where
  state :=
    { m.state.setNbrs w (mapRemove (m.state.nbrs w) key) with
      entries := Function.update m.state.entries e none }
  stop := m.stop
  freed := fun e' => m.freed e' || (List.range' e (m.stop e - e)).contains e'

/-- **`map_delete_entry`** of a bound key: it does not return where an address
is freed twice. -/
theorem mapDeleteEntry_run {w : Nbrs} {ip : List Char} {port : UInt16} {m : Owned} {e : ℕ}
    (he : mapGet (m.state.nbrs w) (newNeighbourKey ip port) = some e) :
    mapDeleteEntry w ip port m
      = if (List.range' e (m.stop e - e)).any m.freed then .error .wild
        else .ok (m.deleted w (newNeighbourKey ip port) e) := by
  unfold mapDeleteEntry
  dsimp only
  rw [he]
  unfold freeNeighbourEntry freeaddrinfo
  dsimp only
  split
  · rfl
  · show Except.ok _ = Except.ok _
    unfold Owned.deleted
    simp only [State.entries_setNbrs]

/-- A deletion that returns has deleted the entry of the key. -/
theorem mapDeleteEntry_eq_ok {w : Nbrs} {ip : List Char} {port : UInt16} {m m' : Owned}
    (h : mapDeleteEntry w ip port m = .ok m') :
    ∃ e, mapGet (m.state.nbrs w) (newNeighbourKey ip port) = some e
      ∧ m' = m.deleted w (newNeighbourKey ip port) e := by
  cases he : mapGet (m.state.nbrs w) (newNeighbourKey ip port) with
  | none =>
    unfold mapDeleteEntry at h
    dsimp only at h
    rw [he] at h
    cases h
  | some e =>
    rw [mapDeleteEntry_run he] at h
    split at h
    · cases h
    · cases h
      exact ⟨e, rfl, rfl⟩

/-- The bindings that a deletion leaves. -/
theorem deleted_bound {m : Owned} {w w' : Nbrs} {key key' : List Char} {e e' : ℕ} :
    mapGet ((m.deleted w key e).state.nbrs w') key' = some e'
      ↔ ¬(w' = w ∧ key' = key) ∧ mapGet (m.state.nbrs w') key' = some e' := by
  have hnbrs : (m.deleted w key e).state.nbrs w'
      = (m.state.setNbrs w (mapRemove (m.state.nbrs w) key)).nbrs w' := by
    cases w' <;> rfl
  rw [hnbrs]
  by_cases hw : w' = w
  · subst hw
    rw [State.nbrs_setNbrs_same, mapGet_mapRemove]
    by_cases hkey : key' = key
    · rw [if_pos hkey]
      exact ⟨nofun, fun h => absurd ⟨rfl, hkey⟩ h.1⟩
    · rw [if_neg hkey]
      exact ⟨fun h => ⟨fun h' => hkey h'.2, h⟩, fun h => h.2⟩
  · rw [State.nbrs_setNbrs_of_ne _ hw]
    exact ⟨fun h => ⟨fun h' => hw h'.1, h⟩, fun h => h.2⟩

theorem Bounded.deleted {m : Owned} (h : Bounded m) (w : Nbrs) (key : List Char) {e : ℕ}
    (he : e < m.state.entryCount) : Bounded (m.deleted w key e) := by
  have hcount : (m.deleted w key e).state.entryCount = m.state.entryCount :=
    m.state.entryCount_setNbrs w _
  refine ⟨fun e' he' => ?_, fun e' he' => ?_⟩
  · rw [hcount] at he'
    have hstop := h.stop_le e he
    show (m.freed e' || (List.range' e (m.stop e - e)).contains e') = false
    rw [h.fresh e' he', Bool.false_or, List.contains_eq_mem, decide_eq_false_iff_not,
      List.mem_range'_1]
    omega
  · rw [hcount] at he' ⊢
    exact h.stop_le e' he'

/-- **A deletion leaves the other entries in order** exactly where it frees the
address of none. -/
theorem OwnsEntries.deleted_iff {host : Env} {m : Owned} (h : OwnsEntries host m) {w : Nbrs}
    {key : List Char} {e : ℕ} (he : mapGet (m.state.nbrs w) key = some e) :
    OwnsEntries host (m.deleted w key e)
      ↔ ∀ e', e ≤ e' → e' < m.stop e →
        ∀ w' key', mapGet (m.state.nbrs w') key' = some e' → e' = e := by
  have hother : ∀ {w' key' e'}, ¬(w' = w ∧ key' = key) →
      mapGet (m.state.nbrs w') key' = some e' → e' ≠ e := fun hne he' hee =>
    hne (h.unshared _ _ _ _ e (hee ▸ he') he)
  have hcount : (m.deleted w key e).state.entryCount = m.state.entryCount :=
    m.state.entryCount_setNbrs w _
  have hfreed : ∀ e', m.freed e' = false →
      ((m.deleted w key e).freed e' = false ↔ ¬(e ≤ e' ∧ e' < m.stop e)) := by
    intro e' hlive
    show (m.freed e' || (List.range' e (m.stop e - e)).contains e') = false ↔ _
    rw [hlive, Bool.false_or, List.contains_eq_mem, decide_eq_false_iff_not,
      List.mem_range'_1]
    omega
  constructor
  · intro hdel e' hle hlt w' key' he'
    by_contra hee
    have hne : ¬(w' = w ∧ key' = key) := by
      rintro ⟨rfl, rfl⟩
      exact hee (Option.some.inj (he'.symm.trans he))
    have hlive := hdel.live w' key' e' (deleted_bound.mpr ⟨hne, he'⟩)
    exact (hfreed e' (h.live w' key' e' he')).mp hlive ⟨hle, hlt⟩
  · intro halone
    refine ⟨fun w' key' e' he' => ?_, fun w' key' e' he' => ?_,
      fun w₁ key₁ w₂ key₂ e' h₁ h₂ => ?_⟩
    · obtain ⟨hne, he'⟩ := deleted_bound.mp he'
      obtain ⟨hlt, ent, hent, hkey⟩ := h.keyed w' key' e' he'
      exact ⟨hcount ▸ hlt, ent, (Function.update_of_ne (hother hne he') ..).trans hent, hkey⟩
    · obtain ⟨hne, he'⟩ := deleted_bound.mp he'
      rw [hfreed e' (h.live w' key' e' he')]
      exact fun hrange => hother hne he' (halone e' hrange.1 hrange.2 w' key' he')
    · exact h.unshared _ _ _ _ e' (deleted_bound.mp h₁).2 (deleted_bound.mp h₂).2

/-! ## Runs -/

/-- The calls of a run keep the bookkeeping. -/
theorem OwnedStep.bounded {host : Env} {r r' : Except Fault Owned} {call : Env × OwnedCall}
    (h : OwnedStep host r call r') (howns : InOrder host r)
    (hr : ∀ m, r = .ok m → Bounded m) : ∀ m, r' = .ok m → Bounded m := by
  obtain ⟨m, rfl, howns⟩ := howns
  replace hr := hr m rfl
  cases h with
  | @call env _ call hhost hpresent =>
    intro m' hrun
    cases call with
    | addNewNeighbour host port =>
      obtain ⟨hello, ps, heq⟩ := addNewNeighbour_grown env host port m
      obtain rfl := Except.ok.inj (heq.symm.trans hrun)
      exact hr.grown hello ps
    | processNeighbour b =>
      obtain ⟨hello, ps, heq⟩ := addNewNeighbour_grown env _ _ m
      obtain rfl := Except.ok.inj (heq.symm.trans hrun)
      exact hr.grown hello ps
    | transfer w key =>
      obtain ⟨e, he⟩ := Option.isSome_iff_exists.mp hpresent
      rw [howns.run_transfer hhost he] at hrun
      cases hrun
      exact hr.transferred w key e
    | deleteEntry w ip port =>
      obtain ⟨e, he, rfl⟩ := mapDeleteEntry_eq_ok hrun
      exact hr.deleted w _ (howns.keyed w _ e he).1

/-- A call leaves the entries in order exactly under its condition. -/
theorem OwnedStep.ownsEntries_iff {host : Env} {r r' : Except Fault Owned}
    {call : Env × OwnedCall} (h : OwnedStep host r call r')
    (hr : ∀ m, r = .ok m → Bounded m) (howns : InOrder host r) :
    InOrder host r' ↔ ∀ m, r = .ok m → call.2.DeletesAlone m := by
  obtain ⟨m, rfl, howns⟩ := howns
  replace hr := hr m rfl
  have hcall : (∀ m', (Except.ok m : Except Fault Owned) = .ok m' → call.2.DeletesAlone m')
      ↔ call.2.DeletesAlone m :=
    ⟨fun h => h m rfl, fun h m' hm => Except.ok.inj hm ▸ h⟩
  rw [hcall]
  cases h with
  | @call env _ call hhost hpresent =>
    cases call with
    | addNewNeighbour host port =>
      obtain ⟨hello, ps, heq⟩ := addNewNeighbour_grown env host port m
      exact iff_of_true ⟨_, heq, howns.grown hr hhost hello ps⟩ trivial
    | processNeighbour b =>
      obtain ⟨hello, ps, heq⟩ := addNewNeighbour_grown env _ _ m
      exact iff_of_true ⟨_, heq, howns.grown hr hhost hello ps⟩ trivial
    | transfer w key =>
      obtain ⟨e, he⟩ := Option.isSome_iff_exists.mp hpresent
      exact iff_of_true ⟨_, howns.run_transfer hhost he, howns.transferred he⟩ trivial
    | deleteEntry w ip port =>
      obtain ⟨e, he⟩ := Option.isSome_iff_exists.mp hpresent
      have hrun : (OwnedCall.deleteEntry w ip port).run env m = _ := mapDeleteEntry_run he
      have hfreed : (List.range' e (m.stop e - e)).any m.freed = false
          ↔ ∀ e', e ≤ e' → e' < m.stop e → m.freed e' = false := by
        rw [List.any_eq_false]
        simp only [List.mem_range'_1, Bool.not_eq_true]
        exact ⟨fun h e' hle hlt => h e' ⟨hle, by omega⟩, fun h e' he' => h e' he'.1 (by omega)⟩
      have hcond : (OwnedCall.deleteEntry w ip port).DeletesAlone m
          ↔ (List.range' e (m.stop e - e)).any m.freed = false
            ∧ OwnsEntries host (m.deleted w (newNeighbourKey ip port) e) := by
        rw [hfreed, howns.deleted_iff he]
        unfold OwnedCall.DeletesAlone
        dsimp only
        rw [he]
        constructor
        · intro h
          exact ⟨fun e' hle hlt => (h e rfl e' hle hlt).1,
            fun e' hle hlt => (h e rfl e' hle hlt).2⟩
        · rintro ⟨hlive, halone⟩ e₁ he₁ e' hle hlt
          cases he₁
          exact ⟨hlive e' hle hlt, halone e' hle hlt⟩
      rw [hcond, hrun]
      cases (List.range' e (m.stop e - e)).any m.freed with
      | true => exact ⟨fun ⟨_, h, _⟩ => (nomatch h), fun h => (nomatch h.1)⟩
      | false =>
        exact ⟨fun ⟨_, h, howns'⟩ => ⟨rfl, Except.ok.inj h ▸ howns'⟩, fun h => ⟨_, rfl, h.2⟩⟩

/-- **In a run of calls from the empty maps every call returns and leaves the
entries in order**, exactly when no deletion frees an address that was freed or
that another binding needs. -/
theorem ownsEntries_iff_deletesAlone {host : Env} {junk : ℕ → Option ℕ × Option ℕ}
    {r : Except Fault Owned} {calls : List (Except Fault Owned × Env × OwnedCall)}
    (h : Run (OwnedStep host) (.ok (Owned.init junk)) calls r) :
    ((∀ x ∈ calls, InOrder host x.1) ∧ InOrder host r)
      ↔ ∀ x ∈ calls, ∀ m, x.1 = .ok m → x.2.2.DeletesAlone m := by
  have hinit : ∀ m, (Except.ok (Owned.init junk) : Except Fault Owned) = .ok m → Bounded m := by
    intro m hm
    cases hm
    exact ⟨fun _ _ => rfl, fun _ he => absurd he (Nat.not_lt_zero _)⟩
  exact h.forall_iff (C := fun r call => ∀ m, r = .ok m → call.2.DeletesAlone m)
    (fun _ _ _ hstep howns hr => hstep.bounded howns hr)
    (fun _ _ _ hstep hr howns => hstep.ownsEntries_iff hr howns) hinit
    ⟨_, rfl, .init host junk⟩

/-- A host with two addresses, `::1` and `::2` at the port 1212, that every send
reaches. -/
def twoAddressesEnv : Env :=
  { shortEnv with
    getaddrinfo := fun _ _ => some [⟨shortIp 1, 48132⟩, ⟨shortIp 2, 48132⟩] }

/-- The memory when this host has been added. -/
def twoMet : Owned :=
  (Owned.init fun _ => (none, none)).grown
    (State.withAddresses twoAddressesEnv
      (shortHello twoAddressesEnv (State.init fun _ => (none, none))) 0
      [⟨shortIp 1, 48132⟩, ⟨shortIp 2, 48132⟩]
      (State.init fun _ => (none, none)))

theorem run_twoMet :
    Run (OwnedStep shortEnv) (.ok (Owned.init fun _ => (none, none)))
      [(.ok (Owned.init fun _ => (none, none)), twoAddressesEnv, .addNewNeighbour [] [])]
      (.ok twoMet) :=
  have h : (OwnedCall.addNewNeighbour [] []).run twoAddressesEnv
      (Owned.init fun _ => (none, none)) = .ok twoMet := rfl
  .snoc .nil (h ▸ .call ⟨rfl, rfl⟩ trivial)

/-- The entry of the second address, the last in the list, is deleted, and that of
the first is still in order. -/
theorem ownsEntries_iff_deletesAlone_lastDeleted :
    InOrder shortEnv (.ok (twoMet.deleted .cur (newNeighbourKey [':', ':', '2'] 1212) 1)) := by
  have hbound : mapGet (twoMet.state.nbrs .cur) (newNeighbourKey [':', ':', '2'] 1212)
      = some 1 := by decide
  have hrun : (OwnedCall.deleteEntry .cur [':', ':', '2'] 1212).run twoAddressesEnv twoMet
      = .ok (twoMet.deleted .cur (newNeighbourKey [':', ':', '2'] 1212) 1) :=
    (mapDeleteEntry_run hbound).trans (if_neg (by decide))
  have hstep : OwnedStep shortEnv (.ok twoMet)
      (twoAddressesEnv, .deleteEntry .cur [':', ':', '2'] 1212)
      (.ok (twoMet.deleted .cur (newNeighbourKey [':', ':', '2'] 1212) 1)) :=
    hrun ▸ .call ⟨rfl, rfl⟩ (Option.isSome_of_mem hbound)
  refine ((ownsEntries_iff_deletesAlone (.snoc run_twoMet hstep)).mpr fun x hx m hm => ?_).2
  rcases List.mem_cons.mp hx with rfl | hx
  · trivial
  · obtain rfl := List.mem_singleton.mp hx
    cases hm
    intro e he e' hle hlt
    obtain rfl := Option.some.inj (hbound.symm.trans he)
    have hstop : twoMet.stop 1 = 2 := by decide
    obtain rfl : e' = 1 := by omega
    exact ⟨rfl, fun _ _ _ => rfl⟩

/-- The entry of the first address is deleted, and that of the second still
bound. -/
theorem not_ownsEntries_firstDeleted :
    ¬ ∀ (host : Env) (junk : ℕ → Option ℕ × Option ℕ)
        (calls : List (Except Fault Owned × Env × OwnedCall)) (m : Owned),
        Run (OwnedStep host) (.ok (Owned.init junk)) calls (.ok m) → OwnsEntries host m := by
  intro hall
  have hbound : mapGet (twoMet.state.nbrs .cur) (newNeighbourKey [':', ':', '1'] 1212)
      = some 0 := by decide
  have hrun : (OwnedCall.deleteEntry .cur [':', ':', '1'] 1212).run twoAddressesEnv twoMet
      = .ok (twoMet.deleted .cur (newNeighbourKey [':', ':', '1'] 1212) 0) :=
    (mapDeleteEntry_run hbound).trans (if_neg (by decide))
  have hstep : OwnedStep shortEnv (.ok twoMet)
      (twoAddressesEnv, .deleteEntry .cur [':', ':', '1'] 1212)
      (.ok (twoMet.deleted .cur (newNeighbourKey [':', ':', '1'] 1212) 0)) :=
    hrun ▸ .call ⟨rfl, rfl⟩ (Option.isSome_of_mem hbound)
  have howns := hall shortEnv _ _ _ (.snoc run_twoMet hstep)
  have hlive := howns.live .cur (newNeighbourKey [':', ':', '2'] 1212) 1
    (deleted_bound.mpr ⟨by decide, by decide⟩)
  revert hlive
  decide

end Miaouchat
