import Miaouchat.Answers
import Miaouchat.Eviction
import Miaouchat.Lib.Tracks

/-!
# What a client is about

A client keeps two lists of addresses, shows the messages that it has not seen,
and tells its peers what the protocol asks for. `Chat` says so without hash
maps, linked lists, entries, buffers or bytes: what it has of a map is a
function, and a datagram that is sent is the control TLV in it.

The code does what `Chat` says, event by event and in every run
(`client_refines`). `Chat` also says where the code fails, since there it has
nothing to say: at a datagram that is not decoded, at an Ack or a GoAway of a peer
that is no current neighbour, at a pass of the worker with any current neighbour,
and at a second new message, unless `malloc` has left `NULL` in the node of the
first.

The mutexes are left aside, and so is what is freed.
-/

namespace Miaouchat

/-! ## The chat -/

/-- **What a client knows and has said**: the addresses of the neighbours by
their keys, the messages shown, and the control TLVs sent. -/
structure Chat where
  book : Nbrs → List Char → Option SockaddrIn6
  shown : List DataBody
  said : List (SockaddrIn6 × Control)

namespace Chat

/-- Before anything has happened. -/
def init : Chat := ⟨fun _ _ => none, [], []⟩

def say (c : Chat) (pair : SockaddrIn6) (x : Control) : Chat :=
  { c with said := c.said ++ [(pair, x)] }

def setBook (c : Chat) (w : Nbrs) (f : List Char → Option SockaddrIn6) : Chat :=
  { c with book := Function.update c.book w f }

/-- An address is entered, unless there is one under its key. -/
def enter (c : Chat) (env : Env) (w : Nbrs) (p : SockaddrIn6) : Chat :=
  if (c.book w (addressKey env p)).isNone then
    c.setBook w (Function.update (c.book w) (addressKey env p) (some p))
  else c

/-- An address is struck out, and entered elsewhere. -/
def move (c : Chat) (env : Env) (w w' : Nbrs) (key : List Char) (p : SockaddrIn6) : Chat :=
  (c.setBook w (Function.update (c.book w) key none)).enter env w' p

/-- The addresses of a host, the first of index `i`, are said Hello to, and
entered where the sends go. -/
def greet (env : Env) : ℕ → List SockaddrIn6 → Chat → Chat
  | _, [], c => c
  | i, p :: ps, c =>
    greet env (i + 1) ps ((c.say p (.shortHello env.clientId)).enter env (env.outcome i) p)

def meet (c : Chat) (env : Env) (host port : List Char) : Chat :=
  greet env 0 ((env.getaddrinfo host port).getD []) c

/-! ### TLVs -/

def hello (c : Chat) (env : Env) (b : HelloBody) (client : SockaddrIn6) : Chat :=
  let c := if b.isLong then c else c.say client (.longHello b.sourceId env.clientId)
  let key := newNeighbourKeySock env client
  match c.book .cur key, c.book .pot key with
  | some _, _ => c
  | none, some p => c.move env .pot .cur key p
  | none, none => c.meet env (env.inetNtop env.clientSlot) (portText client.port)

/-- A message is shown if it is new. Where `clear` is false, only the first. -/
def post (clear : Bool) (b : DataBody) (c : Chat) : Option Chat :=
  if c.shown.any fun b' => dataKey b' = dataKey b then some c
  else if c.shown.isEmpty || clear then some { c with shown := c.shown ++ [b] }
  else none

def data (clear : Bool) (b : DataBody) (client : SockaddrIn6) (c : Chat) : Option Chat :=
  (c.say client (.ack b.senderId b.nonce)).post clear b

def ack (env : Env) (pair : SockaddrIn6) (c : Chat) : Option Chat :=
  (c.book .cur (newNeighbourKeySock env pair)).map fun _ => c

def goAway (env : Env) (pair : SockaddrIn6) (c : Chat) : Option Chat :=
  (c.book .cur (newNeighbourKeySock env pair)).map fun p =>
    c.move env .cur .pot (newNeighbourKeySock env pair) p

/-- A TLV that is handled. -/
def handle (clear : Bool) (env : Env) (client : SockaddrIn6) :
    TlvBody → Option (Chat → Option Chat)
  | .hello b => some fun c => some (c.hello env b client)
  | .neighbour b => some fun c => some (c.meet env (env.inetNtop b.ip) (portText b.port))
  | .data b => some (data clear b client)
  | .ack _ => some (ack env client)
  | .goAway _ => some (goAway env client)
  | .empty | .padn _ | .warning _ => none

/-- The TLVs of a message, up to a PadN. -/
def tlvs (clear : Bool) (env : ℕ → Env) (client : SockaddrIn6) :
    ℕ → List Tlv → Chat → Option Chat
  | _, [], c => some c
  | k, t :: ts, c =>
    if t.type = TlvType.padn.code then some c
    else match handle clear (env k) client t.body with
      | none => tlvs clear env client k ts c
      | some g => (g c).bind (tlvs clear env client (k + 1) ts)

/-! ### Events -/

open Classical in
/-- A pass of the worker: there must be no current neighbour. -/
noncomputable def pass (c : Chat) : Option Chat :=
  if ∀ key, c.book .cur key = none then some c else none

/-- **An event.** -/
noncomputable def event (clear : Bool) (x : (ℕ → Env) × Event) (c : Chat) : Option Chat :=
  match x.2 with
  | .datagram input client =>
    match received (x.1 0).mc input with
    | .ok m =>
      if m.magic ≠ 93 ∨ m.version ≠ 2 then some c else tlvs clear x.1 client 0 m.body c
    | .error _ => none
  | .addNewNeighbour host port => some (c.meet (x.1 0) host port)
  | .workerPass => c.pass

/-- **Events**, one after the other. -/
noncomputable def events (clear : Bool) (xs : List ((ℕ → Env) × Event)) (c : Chat) :
    Option Chat :=
  xs.foldlM (fun c x => c.event clear x) c

end Chat

/-! ## The state of a client -/

/-- **What the state has of the chat.** Where `clear` is false, `malloc` leaves
no `NULL` in the node of the first message. -/
structure Shows (clear : Bool) (s : State) (c : Chat) : Prop where
  streamed : ∃ bs, Streamed bs s
  shown : s.shown = c.shown
  ends : NullTerminated s.msgList ↔ s.shown = [] ∨ clear = true
  first : s.shown = [] → ((s.msgList.junk s.msgList.used).1 = none ↔ clear = true)
  sent : s.sent = sending c.said
  fresh : ∀ e, s.entryCount ≤ e → s.entries e = none
  book : ∀ w key, ((mapGet (s.nbrs w) key).bind fun e => (s.entries e).map NeighbourEntry.addr)
    = c.book w key

namespace Shows

variable {clear : Bool} {s s' : State} {c : Chat}

theorem init (junk : ℕ → Option ℕ × Option ℕ) :
    Shows (junk 0).1.isNone (State.init junk) Chat.init where
  streamed := ⟨[], .init junk⟩
  shown := rfl
  ends := iff_of_true ((shape_newDllist .string junk none none).nullTerminated_iff.mpr (.inl rfl))
    (.inl rfl)
  first := fun _ => Option.isNone_iff_eq_none.symm
  sent := rfl
  fresh := fun _ _ => rfl
  book := fun w key => by
    cases w <;> exact congrArg (Option.bind · _) (mapGet_mapInit key)

theorem good (h : Shows clear s c) : Good s :=
  h.streamed.elim fun _ hs => hs.good

/-- A key is bound to an entry that is there. -/
theorem isNone_eq (h : Shows clear s c) (w : Nbrs) (key : List Char) :
    (mapGet (s.nbrs w) key).isNone = (c.book w key).isNone := by
  rw [← h.book w key]
  cases he : mapGet (s.nbrs w) key with
  | none => rfl
  | some e =>
    obtain ⟨ent, hent⟩ := Option.ne_none_iff_exists'.mp (h.good.nbrs.alive w key e he)
    show false = ((s.entries e).map NeighbourEntry.addr).isNone
    rw [hent]
    rfl

/-- An address in the book is that of an entry. -/
theorem exists_entry (h : Shows clear s c) {w : Nbrs} {key : List Char} {p : SockaddrIn6}
    (hp : c.book w key = some p) :
    ∃ e ent, mapGet (s.nbrs w) key = some e ∧ s.entries e = some ent ∧ ent.addr = p := by
  rw [← h.book w key] at hp
  obtain ⟨e, he, hent⟩ := Option.bind_eq_some_iff.mp hp
  obtain ⟨ent, hent, haddr⟩ := Option.map_eq_some_iff.mp hent
  exact ⟨e, ent, he, hent, haddr⟩

theorem get_eq_none (h : Shows clear s c) {w : Nbrs} {key : List Char}
    (hp : c.book w key = none) : mapGet (s.nbrs w) key = none := by
  have hnone := h.isNone_eq w key
  rw [hp] at hnone
  exact Option.isNone_iff_eq_none.mp hnone

/-- After a push the list ends in `NULL` if the node of the first message does,
and that node stays the last. -/
theorem afterPush_iff (h : Shows clear s c) {xs : List (ℕ × List Char)} {p q : Option ℕ}
    (hshape : Shape s.msgList xs p q) (hend : NullTerminated s.msgList) :
    (if xs.isEmpty then (s.msgList.junk s.msgList.used).1 else q) = none ↔ clear = true := by
  obtain ⟨bs, hs⟩ := h.streamed
  have hlen := congrArg List.length hs.listed
  rw [hshape.contents_eq, List.length_map, List.length_reverse, List.length_map] at hlen
  cases xs with
  | nil =>
    have hnil : s.shown = [] := List.length_eq_zero_iff.mp hlen.symm
    exact h.first hnil
  | cons x xs =>
    have hcons : s.shown ≠ [] := List.length_pos_iff.mp (hlen ▸ Nat.succ_pos _)
    have hq := (hshape.nullTerminated_iff.mp hend).resolve_left (List.cons_ne_nil x xs)
    exact iff_of_true hq ((h.ends.mp hend).resolve_left hcons)

/-! ### What is done to the state -/

/-- What leaves the messages alone. -/
theorem of_sameStore (h : Shows clear s c) {c' : Chat} (hsame : SameStore s s')
    (hnbrs : NbrsGood s') (hshown : c'.shown = c.shown) (hsent : s'.sent = sending c'.said)
    (hfresh : ∀ e, s'.entryCount ≤ e → s'.entries e = none)
    (hbook : ∀ w key, ((mapGet (s'.nbrs w) key).bind fun e =>
      (s'.entries e).map NeighbourEntry.addr) = c'.book w key) : Shows clear s' c' where
  streamed := h.streamed.imp fun _ hs => hs.of_sameStore hsame hnbrs
  shown := by rw [hsame.shown, h.shown, hshown]
  ends := by rw [hsame.msgList, hsame.shown, h.ends]
  first := by rw [hsame.msgList, hsame.shown]; exact h.first
  sent := hsent
  fresh := hfresh
  book := hbook

theorem say (h : Shows clear s c) (pair : SockaddrIn6) (x : Control) :
    Shows clear (s.withSent pair x.datagram) (c.say pair x) := by
  have hsent : s.sent ++ [(pair, x.datagram)] = sending (c.said ++ [(pair, x)]) := by
    rw [sending_append, h.sent]
    rfl
  refine h.of_sameStore ⟨rfl, rfl, rfl⟩ (h.good.nbrs.congr rfl rfl rfl) rfl hsent h.fresh
    fun w key => ?_
  rw [State.nbrs_withSent]
  exact h.book w key

/-- An entry is made that is not bound. -/
theorem withEntry (h : Shows clear s c) (env : Env) (p : SockaddrIn6) :
    Shows clear (s.withEntry env p) c := by
  have hnbrs := (neighbourly_nbrsGood.newNeighbourEntry env p).rel s _ _
    (newNeighbourEntry_run env p s) h.good.nbrs
  refine h.of_sameStore ⟨rfl, rfl, rfl⟩ hnbrs rfl h.sent (fun e he => ?_) fun w key => ?_
  · have hlt : s.entryCount < e := he
    show Function.update s.entries s.entryCount _ e = none
    rw [Function.update_of_ne hlt.ne']
    exact h.fresh e hlt.le
  · rw [State.nbrs_withEntry, ← h.book w key]
    cases he : mapGet (s.nbrs w) key with
    | none => rfl
    | some e =>
      have hne : e ≠ s.entryCount := by
        rintro rfl
        exact h.good.nbrs.alive w key _ he (h.fresh _ le_rfl)
      show (Function.update s.entries s.entryCount _ e).map _ = (s.entries e).map _
      rw [Function.update_of_ne hne]

/-- One map is changed. -/
theorem setNbrs (h : Shows clear s c) (w : Nbrs) {m : Map ℕ} {f : List Char → Option SockaddrIn6}
    (halive : ∀ key e, mapGet m key = some e → s.entries e ≠ none)
    (hf : ∀ key, ((mapGet m key).bind fun e => (s.entries e).map NeighbourEntry.addr) = f key) :
    Shows clear (s.setNbrs w m) (c.setBook w f) := by
  have hsame : SameStore s (s.setNbrs w m) :=
    ⟨s.msgList_setNbrs w m, s.msgMap_setNbrs w m, s.shown_setNbrs w m⟩
  refine h.of_sameStore hsame (h.good.nbrs.setNbrs w halive) rfl ?_ ?_ fun w' key => ?_
  · rw [State.sent_setNbrs]
    exact h.sent
  · rw [State.entryCount_setNbrs, State.entries_setNbrs]
    exact h.fresh
  · rw [State.entries_setNbrs]
    by_cases hw : w' = w
    · subst hw
      show _ = Function.update c.book w' f w' key
      rw [State.nbrs_setNbrs_same, Function.update_self]
      exact hf key
    · show _ = Function.update c.book w f w' key
      rw [State.nbrs_setNbrs_of_ne s hw, Function.update_of_ne hw]
      exact h.book w' key

/-- **An entry is bound** under the key of its address, unless the key is bound. -/
theorem enter (h : Shows clear s c) (env : Env) (w : Nbrs) {e : ℕ} {ent : NeighbourEntry}
    (hent : s.entries e = some ent) :
    Shows clear (if (mapGet (s.nbrs w) (addressKey env ent.addr)).isNone then
        s.setNbrs w (mapSet (s.nbrs w) (addressKey env ent.addr) e)
      else s) (c.enter env w ent.addr) := by
  unfold Chat.enter
  rw [h.isNone_eq]
  split
  · refine h.setNbrs w (fun key e' he' => ?_) fun key => ?_
    · rw [mapGet_mapSet] at he'
      split at he'
      · cases he'
        rw [hent]
        exact Option.some_ne_none ent
      · exact h.good.nbrs.alive w key e' he'
    · rw [mapGet_mapSet, Function.update_apply]
      split
      · show (s.entries e).map _ = _
        rw [hent]
        rfl
      · exact h.book w key
  · exact h

/-- **An entry is moved.** -/
theorem move (h : Shows clear s c) (env : Env) {w w' : Nbrs} (hw : w' ≠ w) {key : List Char}
    {p : SockaddrIn6} (hp : c.book w key = some p) :
    Agree (Shows clear) (mapTransferNeighbour env w w' key s) (some (c.move env w w' key p)) := by
  obtain ⟨e, ent, he, hent, rfl⟩ := h.exists_entry hp
  have hstruck : Shows clear (s.setNbrs w (mapRemove (s.nbrs w) key))
      (c.setBook w (Function.update (c.book w) key none)) := by
    refine h.setNbrs w (fun key' e' he' => ?_) fun key' => ?_
    · rw [mapGet_mapRemove] at he'
      split at he'
      · cases he'
      · exact h.good.nbrs.alive w key' e' he'
    · rw [mapGet_mapRemove, Function.update_apply]
      split
      · rfl
      · exact h.book w key'
  have hentered := hstruck.enter env w' (e := e) ((s.entries_setNbrs ..).symm ▸ hent)
  rw [State.nbrs_setNbrs_of_ne s hw] at hentered
  rw [mapTransferNeighbour_some env hw he hent]
  dsimp only
  change Agree _ (if (mapGet (s.nbrs w') (addressKey env ent.addr)).isNone then _ else _) _
  split at hentered
  · rename_i hfree
    rw [if_pos hfree]
    exact .ok hentered
  · rename_i hfree
    rw [if_neg hfree]
    exact .ok hentered

/-- **An address is said Hello to, and entered.** -/
theorem withAddress (h : Shows clear s c) (env : Env) (x : Control) (w : Nbrs) (p : SockaddrIn6) :
    Shows clear (s.withAddress env x.datagram w p) ((c.say p x).enter env w p) := by
  have hentry : ((s.withSent p x.datagram).withEntry env p).entries s.entryCount
      = some ⟨p, 1024, newDllist .msg (env.junk s.entryCount)⟩ := Function.update_self ..
  have hentered := ((h.say p x).withEntry env p).enter env w hentry
  rwa [State.nbrs_withEntry, State.nbrs_withSent] at hentered

theorem withAddresses (h : Shows clear s c) (env : Env) (i : ℕ) (ps : List SockaddrIn6) :
    Shows clear (State.withAddresses env (Control.shortHello env.clientId).datagram i ps s)
      (Chat.greet env i ps c) := by
  induction ps generalizing i s c with
  | nil => exact h
  | cons p ps ih =>
    exact ih (h.withAddress env (.shortHello env.clientId) (env.outcome i) p) (i + 1)

end Shows

/-! ## What the code does -/

section Code

variable {clear : Bool} {env : Env} {s : State} {c : Chat}

theorem tracks_addNewNeighbour (host port : List Char) :
    Tracks (Shows clear) (addNewNeighbour env host port).exec
      fun c => some (c.meet env host port) := by
  intro s c h
  have hhello : shortHello env s = (Control.shortHello env.clientId).datagram :=
    written_control env.mc _ (.shortHello env.clientId)
  rw [exec_addNewNeighbour, hhello]
  exact .ok (h.withAddresses env 0 _)

theorem tracks_processHello (b : HelloBody) (client : SockaddrIn6) :
    Tracks (Shows clear) (processHello env b client).exec
      fun c => some (c.hello env b client) := by
  intro s c h
  set c' := if b.isLong then c else c.say client (.longHello b.sourceId env.clientId) with hc'
  have hanswered : Shows clear (s.answered env b client) c' := by
    rw [hc']
    unfold State.answered
    split
    · exact h
    · rw [show bytesOf env s (newTlvHello true b.sourceId env.clientId)
          = (Control.longHello b.sourceId env.clientId).datagram from
        written_control env.mc _ (.longHello b.sourceId env.clientId)]
      exact h.say client (.longHello b.sourceId env.clientId)
  rw [exec_processHello]
  show Agree _ _ (some (match c'.book .cur (newNeighbourKeySock env client),
      c'.book .pot (newNeighbourKeySock env client) with
    | some _, _ => c'
    | none, some p => c'.move env .pot .cur (newNeighbourKeySock env client) p
    | none, none => c'.meet env (env.inetNtop env.clientSlot) (portText client.port)))
  cases hcur : c'.book .cur (newNeighbourKeySock env client) with
  | some p =>
    obtain ⟨e, -, he, -, -⟩ := hanswered.exists_entry hcur
    rw [exec_admitPeer_cur env client (Option.isSome_of_mem he)]
    exact .ok hanswered
  | none =>
    cases hpot : c'.book .pot (newNeighbourKeySock env client) with
    | some p =>
      obtain ⟨e, -, he, -, -⟩ := hanswered.exists_entry hpot
      rw [exec_admitPeer_pot env client (hanswered.get_eq_none hcur) he]
      have hne : Nbrs.cur ≠ .pot := by decide
      exact (hanswered.move env hne hpot).map fun _ => ()
    | none =>
      rw [exec_admitPeer_new env client (hanswered.get_eq_none hcur)
        (hanswered.get_eq_none hpot)]
      exact tracks_addNewNeighbour _ _ _ _ hanswered

theorem tracks_processAck (b : AckBody) (pair : SockaddrIn6) :
    Tracks (Shows clear) (processAck env b pair).exec (Chat.ack env pair) := by
  intro s c h
  unfold Chat.ack
  cases hcur : c.book .cur (newNeighbourKeySock env pair) with
  | none =>
    rw [exec_processAck_none b (h.get_eq_none hcur)]
    exact .error Fault.null
  | some p =>
    obtain ⟨e, ent, he, hent, -⟩ := h.exists_entry hcur
    -- no message is pending
    have hnone : rmNbrMsg b.senderId b.nonce e s = .ok (false, s) :=
      rmNbrMsg_none hent (h.good.nbrs.empty e ent hent).2 fun x hx => absurd hx List.not_mem_nil
    rw [exec_processAck b he, hnone]
    exact .ok h

theorem tracks_processGoAway (b : GoAwayBody) (pair : SockaddrIn6) :
    Tracks (Shows clear) (processGoAway env b pair).exec (Chat.goAway env pair) := by
  intro s c h
  unfold Chat.goAway
  cases hcur : c.book .cur (newNeighbourKeySock env pair) with
  | none =>
    rw [exec_processGoAway_none b (h.get_eq_none hcur)]
    exact .error Fault.null
  | some p =>
    obtain ⟨e, ent, he, hent, -⟩ := h.exists_entry hcur
    have hne : Nbrs.pot ≠ .cur := by decide
    rw [exec_processGoAway b he, bind_ok (h.good.nbrs.emptyPending_run hent)]
    exact (h.move env hne hcur).map fun _ => ()

/-- A new message is shown where the search for it ends. -/
theorem tracks_addMsg (b : DataBody) :
    Tracks (Shows clear) (addMsg env b).exec (Chat.post clear b) := by
  intro s c h
  obtain ⟨bs, hs⟩ := h.streamed
  have hlisted : (c.shown.any fun b' => dataKey b' = dataKey b) = true
      ↔ dataKey b ∈ dllistContents s.msgList := by
    simp [hs.listed, h.shown]
  have hcan : (c.shown.isEmpty || clear) = true ↔ NullTerminated s.msgList := by
    rw [Bool.or_eq_true, List.isEmpty_iff, ← h.shown, h.ends]
  unfold Chat.post
  by_cases hmem : dataKey b ∈ dllistContents s.msgList
  · rw [h.good.storeSound.addMsg_known env hmem, if_pos (hlisted.mpr hmem)]
    exact .ok h
  · rw [if_neg (hlisted.not.mpr hmem)]
    by_cases hend : NullTerminated s.msgList
    · obtain ⟨xs, p, q, hshape⟩ := h.good.shape
      obtain ⟨l, hpush, hshape', -, -⟩ := hshape.pushFront (dataKey b)
      rw [h.good.type_eq] at hpush
      have hfound := isInMsgList_of_notMem hshape (hshape.contents_eq ▸ hmem) hend
      have hadd := @exec_addMsg_new env _ _ hfound _ hpush h.good.nbrs.nbrsSound.type_ne
      have hnotNil : s.shown ++ [b] ≠ [] := List.append_ne_nil_of_right_ne_nil _ (by simp)
      rw [hadd, if_pos (hcan.mpr hend)]
      refine .ok ⟨⟨bs ++ [b], hs.addMsg hadd⟩, congrArg (· ++ [b]) h.shown, ?_,
        fun hnil => absurd hnil hnotNil, h.sent, h.fresh, h.book⟩
      show NullTerminated l ↔ s.shown ++ [b] = [] ∨ clear = true
      rw [hshape'.nullTerminated_iff, h.afterPush_iff hshape hend, or_iff_right hnotNil,
        or_iff_right (List.cons_ne_nil _ _)]
    · obtain ⟨e, he⟩ := h.good.storeSound.addMsg_runs_off env hmem hend
      rw [he, if_neg (hcan.not.mpr hend)]
      exact .error e

theorem tracks_processData (b : DataBody) (client : SockaddrIn6) :
    Tracks (Shows clear) (processData env b client).exec (Chat.data clear b client) := by
  intro s c h
  have hack : bytesOf env s (newTlvAck b.senderId b.nonce)
      = (Control.ack b.senderId b.nonce).datagram :=
    written_control env.mc _ (.ack b.senderId b.nonce)
  rw [exec_processData, hack]
  exact (tracks_addMsg b _ _ (h.say client (.ack b.senderId b.nonce))).map fun _ => ()

/-- **A pass of the worker** fails where there is a current neighbour. -/
theorem tracks_workerPass : Tracks (Shows clear) (workerPass env).exec Chat.pass := by
  intro s c h
  have hexec : (workerPass env).exec s = (workerIterNbr env).exec s := by
    unfold workerPass getCurNeighbours getPotNeighbours getMsgList getMsgMap
    rw [Prog.exec_take_bind, Prog.exec_take_bind, Prog.exec_take_bind, Prog.exec_take_bind,
      Prog.exec_bind]
    cases (workerIterNbr env).exec s <;> rfl
  have hkeys : s.cur.keys = [] ↔ ∀ key, c.book .cur key = none := by
    rw [List.eq_nil_iff_forall_not_mem]
    refine forall_congr' fun key => ?_
    rw [Map.mem_keys_iff, ← Option.ne_none_iff_exists', not_not, ← Option.isNone_iff_eq_none,
      ← Option.isNone_iff_eq_none, ← h.isNone_eq .cur key]
    rfl
  rw [hexec]
  unfold Chat.pass
  by_cases hempty : s.cur.keys = []
  · rw [workerIterNbr_of_nil hempty, if_pos (hkeys.mp hempty)]
    exact .ok h
  · rw [if_neg (fun hnone => hempty (hkeys.mpr hnone))]
    cases hrun : (workerIterNbr env).exec s with
    | ok r => exact absurd ((workerIterNbr_returns_iff env s).mp ⟨r.2, hrun⟩) hempty
    | error f => exact .error f

end Code

/-! ## Datagrams, events and runs -/

section Events

variable {clear : Bool}

/-- **Each handler does what the chat says.** -/
theorem tracks_handler {env : Env} {client : SockaddrIn6} {body : TlvBody} {call : Code Unit}
    {g : Chat → Option Chat} (hcall : handler env client body = some call)
    (hg : Chat.handle clear env client body = some g) : Tracks (Shows clear) call.exec g := by
  cases body with
  | hello b =>
    cases hcall
    cases hg
    exact tracks_processHello b client
  | neighbour b =>
    cases hcall
    cases hg
    exact tracks_addNewNeighbour _ _
  | data b =>
    cases hcall
    cases hg
    exact tracks_processData b client
  | ack b =>
    cases hcall
    cases hg
    exact tracks_processAck b client
  | goAway b =>
    cases hcall
    cases hg
    exact tracks_processGoAway b client
  | empty | padn _ | warning _ => cases hcall

/-- The same TLVs are handled. -/
theorem handler_eq_none_iff (env : Env) (client : SockaddrIn6) (body : TlvBody) :
    handler env client body = none ↔ Chat.handle clear env client body = none := by
  cases body <;> simp [handler, Chat.handle]

/-- **The loop of `process_datagram`.** -/
theorem tracks_processTlvs (env : ℕ → Env) (client : SockaddrIn6) (k : ℕ) (ts : List Tlv) :
    Tracks (Shows clear) (processTlvs env client k ts).exec
      (Chat.tlvs clear env client k ts) := by
  induction ts generalizing k with
  | nil => exact Tracks.pure ()
  | cons t ts ih =>
    intro s c h
    unfold Chat.tlvs
    by_cases ht : t.type = TlvType.padn.code
    · rw [processTlvs_padn ht, if_pos ht]
      exact .ok h
    · rw [if_neg ht]
      cases hcall : handler (env k) client t.body with
      | none =>
        rw [processTlvs_skip ht hcall, (handler_eq_none_iff _ _ _).mp hcall]
        exact ih k s c h
      | some call =>
        obtain ⟨g, hg⟩ : ∃ g, Chat.handle clear (env k) client t.body = some g := by
          rw [← Option.ne_none_iff_exists', ne_eq, ← handler_eq_none_iff, hcall]
          exact Option.some_ne_none call
        rw [processTlvs_call ht hcall, hg, Prog.exec_bind]
        exact (tracks_handler hcall hg s c h).bind fun _ s c h => ih (k + 1) s c h

/-- **Each event does what the chat says.** -/
theorem tracks_event (x : (ℕ → Env) × Event) :
    Tracks (Shows clear) (x.2.code x.1).exec (Chat.event clear x) := by
  obtain ⟨env, e⟩ := x
  cases e with
  | datagram input client =>
    intro s c h
    show Agree _ ((processDatagram env input client).exec s)
      (Chat.event clear (env, .datagram input client) c)
    unfold Chat.event
    dsimp only
    cases hm : received (env 0).mc input with
    | error f =>
      unfold processDatagram
      rw [Prog.exec_call_bind_error (lift_error hm s)]
      exact .error f
    | ok m =>
      unfold processDatagram processMsg
      rw [Prog.exec_call_bind (lift_ok hm s)]
      dsimp only
      split
      · exact .ok h
      · exact tracks_processTlvs env client 0 m.body s c h
  | addNewNeighbour host port => exact tracks_addNewNeighbour host port
  | workerPass => exact tracks_workerPass

/-- The client deals with one event after the other. -/
def runEvents (xs : List ((ℕ → Env) × Event)) : M Unit :=
  xs.forM fun x => (x.2.code x.1).exec

/-- **The code does what the chat says**, whatever happens: from the first state
it deals with the same events, and the states stay related; where the chat has
nothing to say the code fails. -/
theorem client_refines (junk : ℕ → Option ℕ × Option ℕ) (xs : List ((ℕ → Env) × Event)) :
    Agree (Shows (junk 0).1.isNone) (runEvents xs (State.init junk))
      (Chat.events (junk 0).1.isNone xs Chat.init) :=
  Tracks.forM tracks_event xs _ _ (.init junk)

end Events

end Miaouchat
