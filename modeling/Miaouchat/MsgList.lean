import Miaouchat.NeighbourMap

/-!
# The messages received

`msg_list.c` remembers the messages received in a list of their keys, newest
first, and a map from the keys to the bodies. `add_msg` accepts a message that
is not in the list: it is bound, listed, put on the list of pending messages of
each current neighbour, and shown. `rm_msg` forgets the oldest.

Three things in the code below are the source's. `is_in_msg_list` returns from
an empty list without giving up the mutex that `get_msg_list` took. `add_msg`
pushes the pending message with the tag `DLL_INT`, and does not look at what
the push returns. `rm_msg` gives up the mutex of the list twice when there is
nothing to remove, and the mutex of the map never.
-/

namespace Miaouchat

/-- The key of a body. -/
def dataKey (b : DataBody) : List Char := newDataKey b.senderId b.nonce

/-! ## Loops over the current neighbours -/

/-- The loops of `add_msg` and `rm_msg` over the current neighbours, with a
bound on their rounds. -/
def forNeighbours (body : ℕ → M Unit) : ℕ → MapIter → M Unit
  | 0, _ => throw .loop
  | n + 1, iter => do
    let s ← get
    let (key, iter) ← StateT.lift (mapNext s.cur iter)
    match key with
    | none => return ()
    | some key => do
      let e ← follow (mapGet s.cur key)
      body e
      forNeighbours body n iter

/-- Such a loop from the start. A round more than there are neighbours ends
it. -/
def forCurNeighbours (body : ℕ → M Unit) : M Unit := do
  let s ← get
  forNeighbours body (s.cur.keys.length + 1) mapIter

/-! ## Pending messages -/

/-- `set_time_send`, where `random` returns `r`. -/
def setTimeSend (env : Env) (tries : UInt16) (r : ℕ) : ℕ :=
  let min := 2 ^ tries.toNat
  let max := 2 ^ (tries.toNat + 1)
  env.time + (r % (max - min) + min)

/-- `new_dllist_msg`. -/
def newDllistMsg (env : Env) (r : ℕ) (key : List Char) (body : DataBody) : DllistMsg :=
  ⟨setTimeSend env 0 r, 0, key, body⟩

/-- The round of the loop of `add_msg` for an entry. -/
def enqueue (env : Env) (key : List Char) (b : DataBody) (e : ℕ) : M Unit := do
  let ent ← entryAt e
  let d := newDllistMsg env (env.random e) key b
  let (_, l) ← StateT.lift (dllistPushFront ent.msgToSend .int (some d))
  setEntry e { ent with msgToSend := l }

/-- `rm_nbr_msg`, on the pending messages of an entry. -/
def rmNbrMsg (id : UInt64) (nonce : UInt32) (e : ℕ) : M Bool := do
  let ent ← entryAt e
  if ent.msgToSend.first = none then return false
  else
    let found ← StateT.lift (dllistSearch ent.msgToSend
      (fun d => d.body.senderId = id ∧ d.body.nonce = nonce))
    match found with
    | none => return false
    | some index =>
      let (_, l) ← StateT.lift (dllistRemove ent.msgToSend (UInt64.ofNat index))
      setEntry e { ent with msgToSend := l }
      return true

/-! ## The list and the map of messages -/

/-- The search of `is_in_msg_list`. Keys have at most nineteen characters, so
`strncmp` up to twenty compares them whole. -/
def searchKey (key : List Char) : M Bool := do
  let s ← get
  let found ← StateT.lift (dllistSearch s.msgList (· = key))
  return found.isSome

/-- `is_in_msg_list`. -/
def isInMsgList (b : DataBody) : Code Bool := do
  getMsgList
  let s ← Prog.call get
  if s.msgList.first = none then return false
  else
    let found ← Prog.call (searchKey (dataKey b))
    Prog.give .msgList
    return found

/-- `map_set(msg, msg_key, b)`. -/
def bindMsg (key : List Char) (b : DataBody) : M Unit :=
  modify fun s => { s with msgMap := mapSet s.msgMap key b }

/-- `dllist_push_front(l, DLL_STRING, msg_key)`. -/
def listMsg (key : List Char) : M Unit := do
  let s ← get
  let (_, l) ← StateT.lift (dllistPushFront s.msgList .string (some key))
  modify fun s => { s with msgList := l }

/-- `print_message(b->data, b->data_len)`. -/
def printMessage (b : DataBody) : M Unit :=
  modify fun s => { s with shown := s.shown ++ [b] }

/-- `add_msg`. -/
def addMsg (env : Env) (b : DataBody) : Code Bool := do
  let known ← isInMsgList b
  if known then return false
  else
    getMsgMap
    Prog.call (bindMsg (dataKey b) b)
    getMsgList
    Prog.call (listMsg (dataKey b))
    getCurNeighbours
    Prog.call (forCurNeighbours (enqueue env (dataKey b) b))
    Prog.call (printMessage b)
    Prog.give .curNeighbours
    Prog.give .msgMap
    Prog.give .msgList
    return true

/-- `dllist_pop_back(l)`. -/
def popKey : M (Option (List Char)) := do
  let s ← get
  let (key, l) ← StateT.lift (dllistPopBack s.msgList)
  modify fun s => { s with msgList := l }
  return key

/-- `*map_get(data_map, key)`. -/
def bodyOfKey (key : List Char) : M DataBody := do
  let s ← get
  follow (mapGet s.msgMap key)

/-- The round of the loop of `rm_msg` for an entry. -/
def unqueue (b : DataBody) (e : ℕ) : M Unit := do
  let _ ← rmNbrMsg b.senderId b.nonce e

/-- `rm_msg`. -/
def rmMsg : Code Bool := do
  getMsgList
  getMsgMap
  let key ← Prog.call popKey
  match key with
  | none =>
    Prog.give .msgList
    Prog.give .msgList
    return false
  | some key =>
    let body ← Prog.call (bodyOfKey key)
    getCurNeighbours
    Prog.call (forCurNeighbours (unqueue body))
    Prog.give .msgList
    Prog.give .curNeighbours
    Prog.give .msgMap
    return true

/-- `rm_n_msg`. -/
def rmNMsg : ℕ → Code Unit
  | 0 => pure ()
  | n + 1 => do
    let removed ← rmMsg
    if removed then rmNMsg n else pure ()

/-! ## What the loops compute -/

/-- **A loop over the current neighbours** whose rounds, each for an entry that
is bound, keep the map and what `P` says of the state, ends and keeps both. -/
theorem forNeighbours_rule {body : ℕ → M Unit} {P : State → Prop} {m : Map ℕ}
    (hbody : ∀ key e s, mapGet m key = some e → s.cur = m → P s →
      ∃ s', body e s = .ok ((), s') ∧ s'.cur = m ∧ P s')
    {n : ℕ} {iter : MapIter} {keys : List (List Char)} (hat : IterAt m iter keys)
    (hbound : ∀ key ∈ keys, key ∈ m.keys) (hn : keys.length < n) {s : State}
    (hcur : s.cur = m) (hs : P s) :
    ∃ s', forNeighbours body n iter s = .ok ((), s') ∧ s'.cur = m ∧ P s' := by
  induction n generalizing iter keys s with
  | zero => cases hn
  | succ n ih =>
    obtain ⟨iter', hnext, hat'⟩ := mapNext_at hat
    have hrun : forNeighbours body (n + 1) iter s = (match keys.head? with
        | none => (.ok ((), s) : Except Fault (Unit × State))
        | some key => (follow (mapGet s.cur key) s).bind fun r =>
          (body r.1 r.2).bind fun r' => forNeighbours body n iter' r'.2) := by
      show ((StateT.lift (mapNext s.cur iter) : M _) s).bind _ = _
      rw [hcur, lift_ok hnext]
      cases keys.head? with
      | none => rfl
      | some key => rw [← hcur]; rfl
    rw [hrun]
    cases keys with
    | nil => exact ⟨s, rfl, hcur, hs⟩
    | cons key keys =>
      obtain ⟨e, he⟩ := (m.mem_keys_iff key).mp (hbound key List.mem_cons_self)
      obtain ⟨s₁, hs₁, hcur₁, hP₁⟩ := hbody key e s he hcur hs
      obtain ⟨s', hs', hcur', hP'⟩ := ih (hat' (List.cons_ne_nil _ _))
        (fun k hk => hbound k (List.mem_cons_of_mem _ hk)) (Nat.lt_of_succ_lt_succ hn) hcur₁ hP₁
      refine ⟨s', ?_, hcur', hP'⟩
      rw [List.head?_cons]
      dsimp only
      rw [hcur, he]
      show ((body e s).bind fun r' => forNeighbours body n iter' r'.2) = _
      rw [hs₁]
      exact hs'

theorem forCurNeighbours_rule (body : ℕ → M Unit) {P : State → Prop} {s : State}
    (hbody : ∀ key e s', mapGet s.cur key = some e → s'.cur = s.cur → P s' →
      ∃ s'', body e s' = .ok ((), s'') ∧ s''.cur = s.cur ∧ P s'') (hs : P s) :
    ∃ s', forCurNeighbours body s = .ok ((), s') ∧ s'.cur = s.cur ∧ P s' :=
  forNeighbours_rule hbody (iterAt_mapIter s.cur) (fun _ hk => hk) (Nat.lt_succ_self _) rfl hs

/-! ## What the actions compute -/

/-- The list of pending messages of a neighbour is as `new_neighbour_entry`
makes it and the actions below keep it: of the tag `DLL_MSG`, ending in `NULL`,
and not longer than an `int` counts. -/
structure PendingSound (l : Dllist DllistMsg) : Prop where
  type_eq : l.type = .msg
  shape : ∃ xs p, Shape l xs p none ∧ xs.length < 2 ^ 31

/-- Every current neighbour has an entry with a sound list. -/
def NbrsSound (s : State) : Prop :=
  ∀ key e, mapGet s.cur key = some e →
    ∃ ent, s.entries e = some ent ∧ PendingSound ent.msgToSend

theorem nbrsSound_init (junk : ℕ → Option ℕ × Option ℕ) : NbrsSound (State.init junk) := by
  intro key e h
  cases (mapGet_mapInit key).symm.trans h

/-- No list of a neighbour has the tag `add_msg` pushes with. -/
theorem NbrsSound.type_ne {s : State} (h : NbrsSound s) (key : List Char) (e : ℕ)
    (he : mapGet s.cur key = some e) :
    ∃ ent, s.entries e = some ent ∧ ent.msgToSend.type ≠ .int := by
  obtain ⟨ent, hent, hsound⟩ := h key e he
  exact ⟨ent, hent, fun h => by rw [hsound.type_eq] at h; cases h⟩

/-- **The push of `add_msg` does nothing** to a list with another tag than
`DLL_INT`. -/
theorem enqueue_run {env : Env} {key : List Char} {b : DataBody} {e : ℕ} {s : State}
    {ent : NeighbourEntry} (he : s.entries e = some ent)
    (htype : ent.msgToSend.type ≠ .int) : enqueue env key b e s = .ok ((), s) := by
  have hpush : ∀ d, dllistPushFront ent.msgToSend .int (some d)
      = .ok (false, ent.msgToSend) := fun d =>
    dllistPushFront_of_ne (fun h => htype h.symm) (some d)
  unfold enqueue
  rw [bind_ok (entryAt_ok he), bind_ok (lift_ok (hpush _) s)]
  show Except.ok ((), { s with entries := Function.update s.entries e (some ent) }) = _
  rw [Function.update_eq_self_iff.mpr he.symm]

/-- The body of a pending message has the sender id and the nonce. -/
def DllistMsg.isOf (id : UInt64) (nonce : UInt32) (d : DllistMsg) : Bool :=
  d.body.senderId = id ∧ d.body.nonce = nonce

section RmNbrMsg

variable {id : UInt64} {nonce : UInt32} {e : ℕ} {s : State} {ent : NeighbourEntry}
  {xs : List (ℕ × DllistMsg)} {p : Option ℕ}

/-- **`rm_nbr_msg` of a message that is not pending** changes nothing. -/
theorem rmNbrMsg_none (he : s.entries e = some ent) (hs : Shape ent.msgToSend xs p none)
    (hno : ∀ x ∈ xs, x.2.isOf id nonce = false) : rmNbrMsg id nonce e s = .ok (false, s) := by
  have hfind : (xs.map Prod.snd).findIdx? (DllistMsg.isOf id nonce) = none := by
    rw [List.findIdx?_map]
    exact List.findIdx?_eq_none_iff.mpr hno
  have hsearch := hs.search_none (DllistMsg.isOf id nonce)
  rw [hfind] at hsearch
  unfold rmNbrMsg
  rw [bind_ok (entryAt_ok he)]
  split
  · rfl
  · exact bind_ok (lift_ok hsearch s)

/-- **`rm_nbr_msg` of a pending message** takes away the first node that has
it. -/
theorem rmNbrMsg_some (he : s.entries e = some ent) (hs : Shape ent.msgToSend xs p none)
    (hlen : xs.length < 2 ^ 31) {i : ℕ}
    (hfind : xs.findIdx? (fun x => x.2.isOf id nonce) = some i) :
    ∃ l p', rmNbrMsg id nonce e s = .ok (true, { s with
        entries := Function.update s.entries e (some { ent with msgToSend := l }) })
      ∧ Shape l (xs.eraseIdx i) p' none ∧ l.type = ent.msgToSend.type := by
  obtain ⟨hi, -⟩ := List.findIdx?_eq_some_iff_getElem.mp hfind
  obtain ⟨l, p', hremove, hs', htype, -⟩ := hs.remove hlen hi
  have hsearch := hs.search_none (DllistMsg.isOf id nonce)
  rw [List.findIdx?_map, show xs.findIdx? (DllistMsg.isOf id nonce ∘ Prod.snd) = some i
    from hfind] at hsearch
  refine ⟨l, p', ?_, hs', htype⟩
  unfold rmNbrMsg
  rw [bind_ok (entryAt_ok he), if_neg (hs.first_ne_none (List.ne_nil_of_length_pos
    (Nat.zero_lt_of_lt hi)))]
  exact (bind_ok (lift_ok hsearch s)).trans (bind_ok (lift_ok hremove s))

/-- On a sound list it returns, changes only the entry, and leaves its list
sound. -/
theorem rmNbrMsg_run (id : UInt64) (nonce : UInt32) (he : s.entries e = some ent)
    (hsound : PendingSound ent.msgToSend) :
    ∃ found l, rmNbrMsg id nonce e s = .ok (found, { s with
        entries := Function.update s.entries e (some { ent with msgToSend := l }) })
      ∧ PendingSound l := by
  obtain ⟨xs, p, hs, hlen⟩ := hsound.shape
  cases hfind : xs.findIdx? fun x => x.2.isOf id nonce with
  | none =>
    refine ⟨false, ent.msgToSend, ?_, hsound⟩
    rw [rmNbrMsg_none he hs (List.findIdx?_eq_none_iff.mp hfind),
      Function.update_eq_self_iff.mpr he.symm]
  | some i =>
    obtain ⟨l, p', hrun, hs', htype⟩ := rmNbrMsg_some he hs hlen hfind
    exact ⟨true, l, hrun, htype.trans hsound.type_eq, _, p', hs',
      (List.length_eraseIdx_le xs i).trans_lt hlen⟩

end RmNbrMsg

/-- The round of the loop of `rm_msg` keeps all but the entry. -/
theorem unqueue_run {b : DataBody} {key : List Char} {e : ℕ} {s : State}
    (hs : NbrsSound s) (hbound : mapGet s.cur key = some e) :
    ∃ entries, unqueue b e s = .ok ((), { s with entries := entries })
      ∧ NbrsSound { s with entries := entries } := by
  obtain ⟨ent, he, hsound⟩ := hs key e hbound
  obtain ⟨found, l, hrun, hsound'⟩ := rmNbrMsg_run b.senderId b.nonce he hsound
  refine ⟨Function.update s.entries e (some { ent with msgToSend := l }), ?_, ?_⟩
  · unfold unqueue
    rw [bind_ok hrun]
    rfl
  · intro key' e' hbound'
    by_cases hee : e' = e
    · subst hee
      exact ⟨_, Function.update_self .., hsound'⟩
    · obtain ⟨ent', he', hent'⟩ := hs key' e' hbound'
      exact ⟨ent', (Function.update_of_ne hee ..).trans he', hent'⟩

/-- **The loop of `rm_msg`** keeps all but the entries, and their lists
sound. -/
theorem unqueueAll_run (b : DataBody) {s : State} (hs : NbrsSound s) :
    ∃ entries, forCurNeighbours (unqueue b) s = .ok ((), { s with entries := entries })
      ∧ NbrsSound { s with entries := entries } := by
  have hrule := forCurNeighbours_rule (unqueue b) (s := s)
    (P := fun s' => (∃ entries, s' = { s with entries := entries }) ∧ NbrsSound s')
    (fun key e s' he hcur ⟨⟨entries, hs'⟩, hsound⟩ => by
      subst hs'
      obtain ⟨entries', hrun, hsound'⟩ := unqueue_run hsound he
      exact ⟨_, hrun, rfl, ⟨entries', rfl⟩, hsound'⟩)
    ⟨⟨s.entries, rfl⟩, hs⟩
  obtain ⟨_, hrun, -, ⟨entries, rfl⟩, hsound⟩ := hrule
  exact ⟨entries, hrun, hsound⟩

/-- **The loop of `add_msg` does nothing** where no list has the tag
`DLL_INT`. -/
theorem enqueueAll_run (env : Env) (key : List Char) (b : DataBody) {s : State}
    (hs : ∀ k e, mapGet s.cur k = some e →
      ∃ ent, s.entries e = some ent ∧ ent.msgToSend.type ≠ .int) :
    forCurNeighbours (enqueue env key b) s = .ok ((), s) := by
  obtain ⟨s', hrun, -, rfl⟩ := forCurNeighbours_rule (enqueue env key b) (s := s)
    (P := fun s' => s' = s)
    (fun k e s' he hcur hs' => by
      subst hs'
      obtain ⟨ent, hent, htype⟩ := hs k e he
      exact ⟨s', enqueue_run hent htype, rfl, rfl⟩) rfl
  exact hrun

/-! ## The operations, the mutexes left aside -/

theorem exec_isInMsgList (b : DataBody) (s : State) :
    (isInMsgList b).exec s
      = if s.msgList.first = none then .ok (false, s) else searchKey (dataKey b) s := by
  unfold isInMsgList getMsgList
  rw [Prog.exec_take_bind, Prog.exec_get_bind]
  split
  · rfl
  · cases hfound : searchKey (dataKey b) s with
    | ok r => exact Prog.exec_call_bind hfound
    | error e => exact Prog.exec_call_bind_error hfound

section Shaped

variable {s : State} {xs : List (ℕ × List Char)} {p q : Option ℕ}

/-- A key in the list is found. -/
theorem isInMsgList_of_mem (hs : Shape s.msgList xs p q) {b : DataBody}
    (hmem : dataKey b ∈ xs.map Prod.snd) : (isInMsgList b).exec s = .ok (true, s) := by
  have hne : s.msgList.first ≠ none :=
    hs.first_ne_none fun h => List.not_mem_nil (h ▸ hmem)
  have hsome : ((xs.map Prod.snd).findIdx? (fun k => decide (k = dataKey b))).isSome := by
    rw [List.findIdx?_isSome, List.any_eq_true]
    exact ⟨dataKey b, hmem, decide_eq_true rfl⟩
  obtain ⟨i, hi⟩ := Option.isSome_iff_exists.mp hsome
  rw [exec_isInMsgList, if_neg hne]
  unfold searchKey
  rw [get_bind, bind_ok (lift_ok (hs.search_some hi) s)]
  rfl

/-- A key that is not in the list is not found, if the list is empty or ends in
`NULL`. -/
theorem isInMsgList_of_notMem (hs : Shape s.msgList xs p q) {b : DataBody}
    (hnotMem : dataKey b ∉ xs.map Prod.snd) (hend : NullTerminated s.msgList) :
    (isInMsgList b).exec s = .ok (false, s) := by
  rw [exec_isInMsgList]
  split
  · rfl
  · rename_i hne
    have hxs : xs ≠ [] := by
      rintro rfl
      exact hne hs.first_eq
    obtain rfl : q = none := (hs.nullTerminated_iff.mp hend).resolve_left hxs
    have hnone : (xs.map Prod.snd).findIdx? (fun k => decide (k = dataKey b)) = none := by
      rw [List.findIdx?_eq_none_iff]
      exact fun k hk => decide_eq_false fun h => hnotMem (h ▸ hk)
    unfold searchKey
    rw [get_bind, bind_ok (lift_ok (hs.search_none _) s), hnone]
    rfl

/-- Otherwise the search for it runs off the end. -/
theorem isInMsgList_runs_off (hs : Shape s.msgList xs p q) {b : DataBody}
    (hnotMem : dataKey b ∉ xs.map Prod.snd) (hend : ¬ NullTerminated s.msgList) :
    ∃ e, (isInMsgList b).exec s = .error e := by
  rw [hs.nullTerminated_iff, not_or] at hend
  have hne := hs.first_ne_none hend.1
  obtain ⟨e, he⟩ := hs.search_runs_off hend.1 hend.2 (fun k => decide (k = dataKey b))
    (fun x hx => decide_eq_false fun h => hnotMem (h ▸ List.mem_map_of_mem hx))
  refine ⟨e, ?_⟩
  rw [exec_isInMsgList, if_neg hne]
  unfold searchKey
  rw [get_bind, bind_error (lift_error he s)]

end Shaped

/-- **`add_msg` of a message that is found** returns `false` and changes
nothing. -/
theorem exec_addMsg_known {env : Env} {b : DataBody} {s : State}
    (h : (isInMsgList b).exec s = .ok (true, s)) : (addMsg env b).exec s = .ok (false, s) := by
  unfold addMsg
  rw [Prog.exec_bind_ok h]
  rfl

/-- **`add_msg` of a message that is not found** binds it, lists it and shows
it, and queues it for nobody. -/
theorem exec_addMsg_new {env : Env} {b : DataBody} {s : State}
    (h : (isInMsgList b).exec s = .ok (false, s)) {l : Dllist (List Char)}
    (hpush : dllistPushFront s.msgList .string (some (dataKey b)) = .ok (true, l))
    (hnbrs : ∀ k e, mapGet s.cur k = some e →
      ∃ ent, s.entries e = some ent ∧ ent.msgToSend.type ≠ .int) :
    (addMsg env b).exec s = .ok (true, { s with
      msgMap := mapSet s.msgMap (dataKey b) b
      msgList := l
      shown := s.shown ++ [b] }) := by
  have hbind : bindMsg (dataKey b) b s
      = .ok ((), { s with msgMap := mapSet s.msgMap (dataKey b) b }) := rfl
  have hlist : listMsg (dataKey b) { s with msgMap := mapSet s.msgMap (dataKey b) b }
      = .ok ((), { s with msgMap := mapSet s.msgMap (dataKey b) b, msgList := l }) := by
    unfold listMsg
    rw [get_bind, bind_ok (lift_ok hpush _)]
    rfl
  have hloop := enqueueAll_run env (dataKey b) b
    (s := { s with msgMap := mapSet s.msgMap (dataKey b) b, msgList := l }) hnbrs
  unfold addMsg getMsgMap getMsgList getCurNeighbours
  rw [Prog.exec_bind_ok h]
  simp only [Bool.false_eq_true, if_false]
  rw [Prog.exec_take_bind, Prog.exec_call_bind hbind, Prog.exec_take_bind,
    Prog.exec_call_bind hlist, Prog.exec_take_bind, Prog.exec_call_bind hloop]
  rfl

/-- **`add_msg` fails where the search does.** -/
theorem exec_addMsg_error {env : Env} {b : DataBody} {s : State} {e : Fault}
    (h : (isInMsgList b).exec s = .error e) : (addMsg env b).exec s = .error e :=
  Prog.exec_bind_error h

/-- The key is what `dllist_pop_back` returns. -/
theorem popKey_ok {s : State} {key : Option (List Char)} {l : Dllist (List Char)}
    (h : dllistPopBack s.msgList = .ok (key, l)) :
    popKey s = .ok (key, { s with msgList := l }) := by
  unfold popKey
  rw [get_bind, bind_ok (lift_ok h s)]
  rfl

/-- `rm_msg` finds nothing to remove in an empty list. -/
theorem exec_rmMsg_empty {s : State} (h : dllistIsEmpty s.msgList = true) :
    rmMsg.exec s = .ok (false, s) := by
  have hpop : popKey s = .ok (none, s) := popKey_ok (dllistPopBack_of_isEmpty h)
  unfold rmMsg getMsgList getMsgMap
  rw [Prog.exec_take_bind, Prog.exec_take_bind, Prog.exec_call_bind hpop]
  rfl

/-- **`rm_msg` takes the oldest key off the list**, and leaves the lists of the
neighbours sound. -/
theorem exec_rmMsg {s : State} {xs : List (ℕ × List Char)} {x : ℕ × List Char}
    {p q : Option ℕ} (hs : Shape s.msgList (xs ++ [x]) p q) (hnbrs : NbrsSound s)
    {b : DataBody} (hbody : mapGet s.msgMap x.2 = some b) :
    ∃ l entries, rmMsg.exec s = .ok (true, { s with msgList := l, entries := entries })
      ∧ Shape l xs p none ∧ l.type = s.msgList.type ∧ l.junk = s.msgList.junk
      ∧ NbrsSound { s with msgList := l, entries := entries } := by
  obtain ⟨l, hpop, hl, htype, hjunk⟩ := hs.popBack
  have hfollow : bodyOfKey x.2 { s with msgList := l } = .ok (b, { s with msgList := l }) := by
    unfold bodyOfKey
    rw [get_bind, hbody]
    rfl
  obtain ⟨entries, hloop, hsound⟩ := unqueueAll_run b (s := { s with msgList := l }) hnbrs
  refine ⟨l, entries, ?_, hl, htype, hjunk, hsound⟩
  unfold rmMsg getMsgList getMsgMap getCurNeighbours
  rw [Prog.exec_take_bind, Prog.exec_take_bind, Prog.exec_call_bind (popKey_ok hpop)]
  dsimp only
  rw [Prog.exec_call_bind hfollow, Prog.exec_take_bind, Prog.exec_call_bind hloop]
  rfl

/-! ## Sound messages -/

/-- **The messages are as the operations on them keep them**: the list is well
linked, its keys are bound, and the pending lists are sound. -/
structure StoreSound (s : State) : Prop where
  shape : ∃ xs p q, Shape s.msgList xs p q
  bound : ∀ key ∈ dllistContents s.msgList, ∃ b, mapGet s.msgMap key = some b
  nbrs : NbrsSound s

namespace StoreSound

variable {s : State}

theorem isEmpty_iff (h : StoreSound s) :
    dllistIsEmpty s.msgList = true ↔ dllistContents s.msgList = [] := by
  obtain ⟨xs, p, q, hs⟩ := h.shape
  rw [hs.isEmpty_iff, hs.contents_eq, List.map_eq_nil_iff]

/-- `is_in_msg_list` finds a key in the list. -/
theorem isInMsgList_of_mem (h : StoreSound s) {b : DataBody}
    (hmem : dataKey b ∈ dllistContents s.msgList) :
    (isInMsgList b).exec s = .ok (true, s) := by
  obtain ⟨xs, p, q, hs⟩ := h.shape
  rw [hs.contents_eq] at hmem
  exact Miaouchat.isInMsgList_of_mem hs hmem

/-- **`add_msg` of a key in the list** returns `false` and changes nothing. -/
theorem addMsg_known (h : StoreSound s) (env : Env) {b : DataBody}
    (hmem : dataKey b ∈ dllistContents s.msgList) :
    (addMsg env b).exec s = .ok (false, s) :=
  exec_addMsg_known (h.isInMsgList_of_mem hmem)

/-- **`add_msg` of a new key**, where the search for it returns, changes the
list, the map and what was shown, and no entry. -/
theorem addMsg_new (h : StoreSound s) (htype : s.msgList.type = .string) (env : Env)
    {b : DataBody} (hnotMem : dataKey b ∉ dllistContents s.msgList)
    (hend : NullTerminated s.msgList) :
    ∃ l, (addMsg env b).exec s = .ok (true, { s with
        msgMap := mapSet s.msgMap (dataKey b) b
        msgList := l
        shown := s.shown ++ [b] })
      ∧ StoreSound { s with
        msgMap := mapSet s.msgMap (dataKey b) b
        msgList := l
        shown := s.shown ++ [b] }
      ∧ dllistContents l = dataKey b :: dllistContents s.msgList
      ∧ ((s.msgList.junk s.msgList.used).1 = none → NullTerminated l)
      ∧ l.type = .string ∧ l.junk = s.msgList.junk := by
  obtain ⟨xs, p, q, hs⟩ := h.shape
  obtain ⟨l, hpush, hs', htype', hjunk⟩ := hs.pushFront (dataKey b)
  have hcontents : dllistContents l = dataKey b :: dllistContents s.msgList := by
    rw [hs'.contents_eq, hs.contents_eq]
    rfl
  rw [htype] at hpush
  have hfound := isInMsgList_of_notMem hs (hs.contents_eq ▸ hnotMem) hend
  refine ⟨l, exec_addMsg_new hfound hpush h.nbrs.type_ne,
    ⟨⟨_, _, _, hs'⟩, fun key hkey => ?_, h.nbrs⟩, hcontents, fun hnull => ?_,
    htype'.trans htype, hjunk⟩
  · replace hkey : key ∈ dataKey b :: dllistContents s.msgList := hcontents ▸ hkey
    show ∃ b', mapGet (mapSet s.msgMap (dataKey b) b) key = some b'
    rw [mapGet_mapSet]
    split
    · exact ⟨b, rfl⟩
    · rename_i hne
      exact h.bound key ((List.mem_cons.mp hkey).resolve_left hne)
  · refine hs'.nullTerminated_iff.mpr (.inr ?_)
    rcases hs.nullTerminated_iff.mp hend with rfl | rfl
    · exact hnull
    · rw [hnull, ite_self]

/-- **`add_msg` of a new key where the list does not end in `NULL`** never
returns. -/
theorem addMsg_runs_off (h : StoreSound s) (env : Env) {b : DataBody}
    (hnotMem : dataKey b ∉ dllistContents s.msgList) (hend : ¬ NullTerminated s.msgList) :
    ∃ e, (addMsg env b).exec s = .error e := by
  obtain ⟨xs, p, q, hs⟩ := h.shape
  rw [hs.contents_eq] at hnotMem
  obtain ⟨e, he⟩ := isInMsgList_runs_off hs hnotMem hend
  exact ⟨e, exec_addMsg_error he⟩

/-- `rm_msg` on an empty list returns `false` and changes nothing. -/
theorem rmMsg_nil (h : StoreSound s) (hks : dllistContents s.msgList = []) :
    rmMsg.exec s = .ok (false, s) :=
  exec_rmMsg_empty (h.isEmpty_iff.mpr hks)

/-- **`rm_msg`** on a list that is not empty returns `true` and takes the oldest
key away. What is left ends in `NULL`. -/
theorem rmMsg_concat (h : StoreSound s) {ks : List (List Char)} {k : List Char}
    (hks : dllistContents s.msgList = ks ++ [k]) :
    ∃ l entries, rmMsg.exec s = .ok (true, { s with msgList := l, entries := entries })
      ∧ StoreSound { s with msgList := l, entries := entries } ∧ dllistContents l = ks
      ∧ NullTerminated l ∧ l.type = s.msgList.type ∧ l.junk = s.msgList.junk := by
  have hbound := h.bound
  obtain ⟨xs, p, q, hs⟩ := h.shape
  rw [hks] at hbound
  rw [hs.contents_eq] at hks
  obtain ⟨ys, y, rfl⟩ := xs.eq_nil_or_concat'.resolve_left (by
    rintro rfl
    exact absurd hks.symm (by simp))
  rw [List.map_append, List.map_singleton] at hks
  obtain ⟨rfl, hy⟩ := List.append_inj' hks rfl
  obtain rfl : y.2 = k := List.singleton_inj.mp hy
  obtain ⟨b, hb⟩ := hbound y.2 (by simp)
  obtain ⟨l, entries, hrun, hs', htype, hjunk, hnbrs⟩ := exec_rmMsg hs h.nbrs hb
  refine ⟨l, entries, hrun, ⟨⟨ys, p, none, hs'⟩, fun key hkey => ?_, hnbrs⟩, hs'.contents_eq,
    hs'.nullTerminated_iff.mpr (.inr rfl), htype, hjunk⟩
  exact hbound key (List.mem_append_left _ (hs'.contents_eq ▸ hkey))

/-- **`rm_n_msg`** takes away the `n` oldest keys, or all of them, and leaves the
map alone. -/
theorem rmNMsg (h : StoreSound s) (n : ℕ) :
    ∃ s' old, (rmNMsg n).exec s = .ok ((), s') ∧ StoreSound s'
      ∧ dllistContents s.msgList = dllistContents s'.msgList ++ old
      ∧ old.length = min n (dllistContents s.msgList).length
      ∧ s'.msgMap = s.msgMap ∧ (NullTerminated s.msgList → NullTerminated s'.msgList)
      ∧ s'.msgList.type = s.msgList.type ∧ s'.msgList.junk = s.msgList.junk := by
  induction n generalizing s with
  | zero => exact ⟨s, [], rfl, h, by simp, by simp, rfl, id, rfl, rfl⟩
  | succ n ih =>
    unfold Miaouchat.rmNMsg
    rcases (dllistContents s.msgList).eq_nil_or_concat' with hks | ⟨ks, k, hks⟩
    · refine ⟨s, [], ?_, h, by simp, by simp [hks], rfl, id, rfl, rfl⟩
      rw [Prog.exec_bind_ok (h.rmMsg_nil hks)]
      rfl
    · obtain ⟨l, entries, hrun, h₁, hl, hends, htype, hjunk⟩ := h.rmMsg_concat hks
      obtain ⟨s', old, hrun', h', hold, hlen, hmap, hends', htype', hjunk'⟩ := ih h₁
      replace hold : dllistContents l = dllistContents s'.msgList ++ old := hold
      replace hlen : old.length = min n (dllistContents l).length := hlen
      refine ⟨s', old ++ [k], ?_, h', ?_, ?_, hmap, fun _ => hends' hends,
        htype'.trans htype, hjunk'.trans hjunk⟩
      · rw [Prog.exec_bind_ok hrun]
        exact hrun'
      · rw [hks, ← hl, hold, List.append_assoc]
      · rw [hl] at hlen
        rw [hks, List.length_append, List.length_append, hlen]
        exact (Nat.succ_min_succ n ks.length).symm

end StoreSound

end Miaouchat
