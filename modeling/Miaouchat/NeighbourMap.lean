import Miaouchat.Shared

/-!
# The maps of neighbours

`neighbour_map.c`: an entry is added to a map under the key of its own
address, taken out of one map and put in the other, and entries for a host are
made for each of the addresses it resolves to.

`map_add_neighbour_entry` ends with a `free` of the slot it has looked up,
which is inside a node of the map when the key was bound already. That `free`
is left aside.

Each action has an equation that says what it computes from a state
(`mapAddNeighbourEntry_run`, `mapPopNeighbour_run`, `mapTransferNeighbour_run`),
and later modules use these instead of the definitions.
-/

namespace Miaouchat

/-- The two maps of neighbours. -/
inductive Nbrs
  | cur
  | pot
  deriving DecidableEq, Repr

namespace State

def nbrs (s : State) : Nbrs → Map ℕ
  | .cur => s.cur
  | .pot => s.pot

def setNbrs (s : State) (w : Nbrs) (m : Map ℕ) : State :=
  match w with
  | .cur => { s with cur := m }
  | .pot => { s with pot := m }

@[simp] theorem nbrs_setNbrs_same (s : State) (w : Nbrs) (m : Map ℕ) :
    (s.setNbrs w m).nbrs w = m := by
  cases w <;> rfl

theorem nbrs_setNbrs_of_ne (s : State) {w w' : Nbrs} (h : w' ≠ w) (m : Map ℕ) :
    (s.setNbrs w m).nbrs w' = s.nbrs w' := by
  cases w <;> cases w' <;> first | exact absurd rfl h | rfl

@[simp] theorem entries_setNbrs (s : State) (w : Nbrs) (m : Map ℕ) :
    (s.setNbrs w m).entries = s.entries := by
  cases w <;> rfl

@[simp] theorem msgMap_setNbrs (s : State) (w : Nbrs) (m : Map ℕ) :
    (s.setNbrs w m).msgMap = s.msgMap := by
  cases w <;> rfl

@[simp] theorem msgList_setNbrs (s : State) (w : Nbrs) (m : Map ℕ) :
    (s.setNbrs w m).msgList = s.msgList := by
  cases w <;> rfl

@[simp] theorem sent_setNbrs (s : State) (w : Nbrs) (m : Map ℕ) :
    (s.setNbrs w m).sent = s.sent := by
  cases w <;> rfl

@[simp] theorem entryCount_setNbrs (s : State) (w : Nbrs) (m : Map ℕ) :
    (s.setNbrs w m).entryCount = s.entryCount := by
  cases w <;> rfl

@[simp] theorem shown_setNbrs (s : State) (w : Nbrs) (m : Map ℕ) :
    (s.setNbrs w m).shown = s.shown := by
  cases w <;> rfl

end State

/-- The key `map_add_neighbour_entry` computes from the address of an entry. -/
def entryKey (env : Env) (ent : NeighbourEntry) : List Char :=
  newNeighbourKey (env.inetNtop ent.addr.addr) (htons env.mc.endian ent.addr.port)

/-- `map_add_neighbour_entry`. -/
def mapAddNeighbourEntry (env : Env) (w : Nbrs) (e : ℕ) : M Bool := do
  let ent ← entryAt e
  let s ← get
  if (mapGet (s.nbrs w) (entryKey env ent)).isNone then
    set (s.setNbrs w (mapSet (s.nbrs w) (entryKey env ent) e))
    return true
  else return false

/-- `map_pop_neighbour`. -/
def mapPopNeighbour (w : Nbrs) (key : List Char) : M ℕ := do
  let s ← get
  let e ← follow (mapGet (s.nbrs w) key)
  set (s.setNbrs w (mapRemove (s.nbrs w) key))
  return e

/-- `map_transfer_neighbour`. -/
def mapTransferNeighbour (env : Env) (w w' : Nbrs) (key : List Char) : M Bool := do
  let e ← mapPopNeighbour w key
  mapAddNeighbourEntry env w' e

/-- A round of the loop of `add_new_neighbour`: the short Hello is sent to the
address, and a new entry goes to the map the outcome chooses. -/
def addAddress (env : Env) (hello : List UInt8) (i : ℕ) (p : SockaddrIn6) : Code Unit := do
  let ok ← Prog.call (udpSend p hello (env.sendOk i))
  if ok then
    getCurNeighbours
    let e ← Prog.call (newNeighbourEntry env p)
    let _ ← Prog.call (mapAddNeighbourEntry env .cur e)
    Prog.give .curNeighbours
  else
    getPotNeighbours
    let e ← Prog.call (newNeighbourEntry env p)
    let _ ← Prog.call (mapAddNeighbourEntry env .pot e)
    Prog.give .potNeighbours

/-- The loop of `add_new_neighbour`, from the address of index `i`. -/
def addAddresses (env : Env) (hello : List UInt8) : ℕ → List SockaddrIn6 → Code Unit
  | _, [] => pure ()
  | i, p :: ps => do
    addAddress env hello i p
    addAddresses env hello (i + 1) ps

/-- `add_new_neighbour`. -/
def addNewNeighbour (env : Env) (host port : List Char) : Code Unit :=
  match env.getaddrinfo host port with
  | none => pure ()
  | some ai => do
    let hello ← Prog.call (serialized env [newTlvHello false env.clientId 0])
    addAddresses env hello 0 ai

/-! ## What the actions compute -/

theorem entryAt_run (e : ℕ) (s : State) :
    entryAt e s = match s.entries e with
      | none => Except.error Fault.wild
      | some ent => .ok (ent, s) := by
  unfold entryAt
  show (match s.entries e with
    | none => (throw Fault.wild : M NeighbourEntry)
    | some ent => pure ent) s = _
  cases s.entries e <;> rfl

theorem entryAt_ok {e : ℕ} {s : State} {ent : NeighbourEntry} (he : s.entries e = some ent) :
    entryAt e s = .ok (ent, s) := by
  rw [entryAt_run, he]

theorem entryAt_eq_ok {e : ℕ} {s s' : State} {ent : NeighbourEntry}
    (h : entryAt e s = .ok (ent, s')) : s.entries e = some ent ∧ s' = s := by
  rw [entryAt_run] at h
  cases he : s.entries e with
  | none =>
    rw [he] at h
    cases h
  | some ent' =>
    rw [he] at h
    cases h
    exact ⟨rfl, rfl⟩

/-- **`map_add_neighbour_entry`** binds the entry under its own key, unless the
key is bound. -/
theorem mapAddNeighbourEntry_run (env : Env) (w : Nbrs) (e : ℕ) (s : State) :
    mapAddNeighbourEntry env w e s = match s.entries e with
      | none => Except.error Fault.wild
      | some ent =>
        if (mapGet (s.nbrs w) (entryKey env ent)).isNone then
          .ok (true, s.setNbrs w (mapSet (s.nbrs w) (entryKey env ent) e))
        else .ok (false, s) := by
  show (entryAt e s >>= _) = _
  rw [entryAt_run]
  cases s.entries e with
  | none => rfl
  | some ent =>
    show (if (mapGet (s.nbrs w) (entryKey env ent)).isNone then
      (do set (s.setNbrs w (mapSet (s.nbrs w) (entryKey env ent) e)); return true)
      else pure false : M Bool) s = _
    dsimp only
    split <;> rfl

/-- **`map_pop_neighbour`** unbinds the key and returns the entry; it follows a
null pointer where the key is not bound. -/
theorem mapPopNeighbour_run (w : Nbrs) (key : List Char) (s : State) :
    mapPopNeighbour w key s = match mapGet (s.nbrs w) key with
      | none => Except.error Fault.null
      | some e => .ok (e, s.setNbrs w (mapRemove (s.nbrs w) key)) := by
  show (follow (mapGet (s.nbrs w) key) s >>= _) = _
  cases mapGet (s.nbrs w) key <;> rfl

/-- **An addition that returns** finds the entry, and binds it where its key is
free. -/
theorem mapAddNeighbourEntry_eq_ok {env : Env} {w : Nbrs} {e : ℕ} {s s' : State} {added : Bool}
    (h : mapAddNeighbourEntry env w e s = .ok (added, s')) :
    ∃ ent, s.entries e = some ent
      ∧ (added = true ∧ s' = s.setNbrs w (mapSet (s.nbrs w) (entryKey env ent) e)
        ∨ added = false ∧ s' = s) := by
  rw [mapAddNeighbourEntry_run] at h
  cases hent : s.entries e with
  | none =>
    rw [hent] at h
    cases h
  | some ent =>
    refine ⟨ent, rfl, ?_⟩
    rw [hent] at h
    dsimp only at h
    split at h
    · cases h
      exact .inl ⟨rfl, rfl⟩
    · cases h
      exact .inr ⟨rfl, rfl⟩

/-- A `map_pop_neighbour` that returns has unbound the key of its entry. -/
theorem mapPopNeighbour_eq_ok {w : Nbrs} {key : List Char} {e : ℕ} {s s' : State}
    (h : mapPopNeighbour w key s = .ok (e, s')) :
    mapGet (s.nbrs w) key = some e ∧ s' = s.setNbrs w (mapRemove (s.nbrs w) key) := by
  rw [mapPopNeighbour_run] at h
  cases hkey : mapGet (s.nbrs w) key with
  | none =>
    rw [hkey] at h
    cases h
  | some e' =>
    rw [hkey] at h
    cases h
    exact ⟨rfl, rfl⟩

/-- **`map_transfer_neighbour`** adds to one map what it takes from the other. -/
theorem mapTransferNeighbour_run (env : Env) (w w' : Nbrs) (key : List Char) (s : State) :
    mapTransferNeighbour env w w' key s = match mapGet (s.nbrs w) key with
      | none => Except.error Fault.null
      | some e => mapAddNeighbourEntry env w' e (s.setNbrs w (mapRemove (s.nbrs w) key)) := by
  show (mapPopNeighbour w key s >>= _) = _
  rw [mapPopNeighbour_run]
  cases mapGet (s.nbrs w) key <;> rfl

/-- The same where the key is bound to an entry that is there. -/
theorem mapTransferNeighbour_some (env : Env) {w w' : Nbrs} (hw : w' ≠ w) {key : List Char}
    {s : State} {e : ℕ} {ent : NeighbourEntry} (he : mapGet (s.nbrs w) key = some e)
    (hent : s.entries e = some ent) :
    mapTransferNeighbour env w w' key s =
      let s' := s.setNbrs w (mapRemove (s.nbrs w) key)
      if (mapGet (s.nbrs w') (entryKey env ent)).isNone then
        .ok (true, s'.setNbrs w' (mapSet (s.nbrs w') (entryKey env ent) e))
      else .ok (false, s') := by
  rw [mapTransferNeighbour_run, he]
  dsimp only
  rw [mapAddNeighbourEntry_run, State.entries_setNbrs, hent, State.nbrs_setNbrs_of_ne s hw]

/-- A transfer that returns has unbound the key, and sent nothing. -/
theorem mapTransferNeighbour_eq_ok {env : Env} {w w' : Nbrs} (hw : w ≠ w') {key : List Char}
    {s s' : State} {moved : Bool} (h : mapTransferNeighbour env w w' key s = .ok (moved, s')) :
    mapGet (s.nbrs w) key ≠ none ∧ mapGet (s'.nbrs w) key = none
      ∧ s'.sent = s.sent ∧ s'.entries = s.entries := by
  obtain ⟨e, s₁, hpop, hadd⟩ := bind_eq_ok h
  obtain ⟨he, rfl⟩ := mapPopNeighbour_eq_ok hpop
  have hbound : mapGet (s.nbrs w) key ≠ none := by
    rw [he]
    exact Option.some_ne_none e
  have hgone : mapGet (mapRemove (s.nbrs w) key) key = none := by
    rw [mapGet_mapRemove, if_pos rfl]
  obtain ⟨ent, -, ⟨-, rfl⟩ | ⟨-, rfl⟩⟩ := mapAddNeighbourEntry_eq_ok hadd
  · rw [State.nbrs_setNbrs_of_ne _ hw, State.nbrs_setNbrs_same]
    exact ⟨hbound, hgone, by simp, by simp⟩
  · rw [State.nbrs_setNbrs_same]
    exact ⟨hbound, hgone, by simp, by simp⟩

theorem newNeighbourEntry_run (env : Env) (addr : SockaddrIn6) (s : State) :
    newNeighbourEntry env addr s = .ok (s.entryCount, { s with
      entries := Function.update s.entries s.entryCount
        (some ⟨addr, 1024, newDllist .msg (env.junk s.entryCount)⟩)
      entryCount := s.entryCount + 1 }) := rfl

theorem udpSend_run (pair : SockaddrIn6) (bytes : List UInt8) (ok : Bool) (s : State) :
    udpSend pair bytes ok s = .ok (ok, { s with sent := s.sent ++ [(pair, bytes)] }) := rfl

theorem serialized_run (env : Env) (ts : List Tlv) (s : State) :
    serialized env ts s = .ok ((serialMsg env.mc (env.frames s.sent.length) (newMsg ts)
      (newSbuff env.mc)).written, s) := rfl

theorem sendMsg_run (env : Env) (pair : SockaddrIn6) (ts : List Tlv) (s : State) :
    sendMsg env pair ts s = .ok ((), { s with sent := s.sent ++ [(pair,
      (serialMsg env.mc (env.frames s.sent.length) (newMsg ts) (newSbuff env.mc)).written)] }) :=
  rfl

/-! ## What `add_new_neighbour` computes -/

/-- The map that gets the address of index `i`: the current neighbours if the
send to it goes through. -/
def Env.outcome (env : Env) (i : ℕ) : Nbrs := if env.sendOk i then .cur else .pot

/-- The key `map_add_neighbour_entry` computes from an address. -/
def addressKey (env : Env) (p : SockaddrIn6) : List Char :=
  newNeighbourKey (env.inetNtop p.addr) (htons env.mc.endian p.port)

/-- The state once a new entry for the address `p` has been made. -/
def State.withEntry (s : State) (env : Env) (p : SockaddrIn6) : State :=
  { s with
    entries := Function.update s.entries s.entryCount
      (some ⟨p, 1024, newDllist .msg (env.junk s.entryCount)⟩)
    entryCount := s.entryCount + 1 }

/-- The state once a datagram has been sent to `p`. -/
def State.withSent (s : State) (p : SockaddrIn6) (bytes : List UInt8) : State :=
  { s with sent := s.sent ++ [(p, bytes)] }

/-- **A round of the loop of `add_new_neighbour`** for the address `p`: the
Hello has been sent, and there is a new entry, bound in the map `w` unless its
key was. -/
def State.withAddress (s : State) (env : Env) (hello : List UInt8) (w : Nbrs)
    (p : SockaddrIn6) : State :=
  let s' := (s.withSent p hello).withEntry env p
  if (mapGet (s.nbrs w) (addressKey env p)).isNone then
    s'.setNbrs w (mapSet (s.nbrs w) (addressKey env p) s.entryCount)
  else s'

/-- The rounds for the addresses `ps`, the first of index `i`. -/
def State.withAddresses (env : Env) (hello : List UInt8) :
    ℕ → List SockaddrIn6 → State → State
  | _, [], s => s
  | i, p :: ps, s =>
    State.withAddresses env hello (i + 1) ps (s.withAddress env hello (env.outcome i) p)

/-- The Hello of `add_new_neighbour`, sent from the state `s`. -/
def shortHello (env : Env) (s : State) : List UInt8 :=
  (serialMsg env.mc (env.frames s.sent.length) (newMsg [newTlvHello false env.clientId 0])
    (newSbuff env.mc)).written

@[simp] theorem State.nbrs_withEntry (s : State) (env : Env) (p : SockaddrIn6) (w : Nbrs) :
    (s.withEntry env p).nbrs w = s.nbrs w := by
  cases w <;> rfl

@[simp] theorem State.nbrs_withSent (s : State) (p : SockaddrIn6) (bytes : List UInt8)
    (w : Nbrs) : (s.withSent p bytes).nbrs w = s.nbrs w := by
  cases w <;> rfl

/-- The Hello is sent once to each address. -/
theorem State.sent_withAddress (s : State) (env : Env) (hello : List UInt8) (w : Nbrs)
    (p : SockaddrIn6) : (s.withAddress env hello w p).sent = s.sent ++ [(p, hello)] := by
  unfold State.withAddress
  dsimp only
  split
  · exact State.sent_setNbrs ..
  · rfl

theorem State.sent_withAddresses (env : Env) (hello : List UInt8) (i : ℕ)
    (ps : List SockaddrIn6) (s : State) :
    (State.withAddresses env hello i ps s).sent = s.sent ++ ps.map (fun p => (p, hello)) := by
  induction ps generalizing i s with
  | nil => exact (List.append_nil _).symm
  | cons p ps ih =>
    rw [State.withAddresses, ih, State.sent_withAddress, List.append_assoc]
    rfl

/-- The new entry goes to the map `w`. -/
theorem newNeighbourEntry_mapAdd_run (env : Env) (hello : List UInt8) (w : Nbrs)
    (p : SockaddrIn6) (s : State) :
    mapAddNeighbourEntry env w s.entryCount ((s.withSent p hello).withEntry env p)
      = .ok ((mapGet (s.nbrs w) (addressKey env p)).isNone,
          s.withAddress env hello w p) := by
  have hentry : ((s.withSent p hello).withEntry env p).entries s.entryCount
      = some ⟨p, 1024, newDllist .msg (env.junk s.entryCount)⟩ := Function.update_self ..
  rw [mapAddNeighbourEntry_run, hentry]
  unfold State.withAddress
  simp only [State.nbrs_withEntry, State.nbrs_withSent]
  show (if (mapGet (s.nbrs w) (addressKey env p)).isNone then _ else _) = _
  cases (mapGet (s.nbrs w) (addressKey env p)).isNone <;> rfl

theorem exec_addAddress (env : Env) (hello : List UInt8) (i : ℕ) (p : SockaddrIn6)
    (s : State) :
    (addAddress env hello i p).exec s
      = .ok ((), s.withAddress env hello (env.outcome i) p) := by
  have hsend : udpSend p hello (env.sendOk i) s = .ok (env.sendOk i, s.withSent p hello) := rfl
  have hentry : newNeighbourEntry env p (s.withSent p hello)
      = .ok (s.entryCount, (s.withSent p hello).withEntry env p) := rfl
  unfold addAddress getCurNeighbours getPotNeighbours Env.outcome
  rw [Prog.exec_call_bind hsend]
  split
  · rw [Prog.exec_take_bind, Prog.exec_call_bind hentry,
      Prog.exec_call_bind (newNeighbourEntry_mapAdd_run env hello .cur p s)]
    rfl
  · rw [Prog.exec_take_bind, Prog.exec_call_bind hentry,
      Prog.exec_call_bind (newNeighbourEntry_mapAdd_run env hello .pot p s)]
    rfl

theorem exec_addAddresses (env : Env) (hello : List UInt8) (i : ℕ) (ps : List SockaddrIn6)
    (s : State) :
    (addAddresses env hello i ps).exec s = .ok ((), State.withAddresses env hello i ps s) := by
  induction ps generalizing i s with
  | nil => rfl
  | cons p ps ih =>
    unfold addAddresses
    rw [Prog.exec_bind_ok (exec_addAddress ..)]
    exact ih ..

/-- **`add_new_neighbour`** always returns: one round for each address that
`getaddrinfo` gives. -/
theorem exec_addNewNeighbour (env : Env) (host port : List Char) (s : State) :
    (addNewNeighbour env host port).exec s = .ok ((),
      State.withAddresses env (shortHello env s) 0 ((env.getaddrinfo host port).getD []) s) := by
  unfold addNewNeighbour
  cases env.getaddrinfo host port with
  | none => rfl
  | some ai =>
    dsimp only
    rw [Prog.exec_call_bind (serialized_run ..)]
    exact exec_addAddresses ..

/-- A client whose one neighbour, at a port of `::1`, is a current one. -/
def oneNeighbour (port : UInt16) : State :=
  (State.init fun _ => (none, none)).withAddress shortEnv [] .cur ⟨shortIp 1, port⟩

end Miaouchat
