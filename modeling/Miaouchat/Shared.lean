import Miaouchat.Dllist
import Miaouchat.Lib.Printf
import Miaouchat.Lib.Threads
import Miaouchat.Map
import Miaouchat.Serialization

/-!
# The shared state

What the threads of the client share: the maps of current and potential
neighbours, the map and the list of the messages received, and the entries of
neighbours that the two maps point to. A mutex goes with each of the four
structures, and each getter of `shared_resources.c` takes the mutex of the
structure it returns and leaves it to the caller to give it up.

The state also keeps two records of what has left the program: the datagrams
handed to `sendto`, and the bodies whose text was handed to `print_message`,
which is done once for each message accepted.

An action on the state is an `M`; the code of a thread, with its locking, is a
`Code`. What a call finds outside the program – the byte order, what `malloc`
leaves, what `getaddrinfo` and `inet_ntop` answer, the clock – is an `Env`.
-/

namespace Miaouchat

/-! ## Keys -/

/-- `new_data_key`. The format is `%ld%d`, so both numbers are read as signed
ones. -/
def newDataKey (id : UInt64) (nonce : UInt32) : List Char :=
  snprintf 20 (decimalInt id.toBitVec.toInt ++ decimalInt nonce.toBitVec.toInt)

/-- `INET6_ADDRSTRLEN`. -/
def inet6Addrstrlen : ℕ := 46

/-- `new_neighbour_key`. -/
def newNeighbourKey (ip : List Char) (port : UInt16) : List Char :=
  snprintf (inet6Addrstrlen + 2 + 1) (ip ++ decimal port.toNat)

/-! ## Neighbours and messages -/

/-- A `sockaddr_in6`. The port is in network order, and `port` is the host's
reading of its two bytes. -/
structure SockaddrIn6 where
  addr : Ip
  port : UInt16
  deriving DecidableEq, Repr

/-- A pending message. -/
structure DllistMsg where
  timeSend : ℕ
  tries : UInt16
  mapKey : List Char
  body : DataBody
  deriving DecidableEq, Repr

/-- An entry of a neighbour. The two dates of its last Hellos are only ever
printed. -/
structure NeighbourEntry where
  addr : SockaddrIn6
  pmtu : UInt64
  msgToSend : Dllist DllistMsg

/-- What a call finds outside the program. -/
structure Env where
  mc : Machine
  /-- The stack when the TLV of an index is written, by the number of
  datagrams sent before. -/
  frames : ℕ → ℕ → Frame
  /-- What `malloc` leaves in the nodes of the list of a new entry. -/
  junk : ℕ → ℕ → Option ℕ × Option ℕ
  inetNtop : Ip → List Char
  /-- The sixteen bytes at the address of the parameter `client`. -/
  clientSlot : Ip
  getaddrinfo : List Char → List Char → Option (List SockaddrIn6)
  /-- Whether the send to the address of an index goes through. -/
  sendOk : ℕ → Bool
  time : ℕ
  random : ℕ → ℕ
  clientId : UInt64
  /-- The TLVs that the slots of the array `tab` of `worker_iter_msg` lead to
  before they are set, where they lead to one. -/
  slots : ℕ → Option Tlv

/-- A quiet network, for runs on fixed inputs: no name resolves, and every
send goes through. -/
def quietEnv : Env where
  mc := ⟨.little, fun _ => 0⟩
  frames := fun _ _ => ⟨0, fun _ => 0⟩
  junk := fun _ _ => (none, none)
  inetNtop := fun _ => []
  clientSlot := Vector.replicate 16 0
  getaddrinfo := fun _ _ => none
  sendOk := fun _ => true
  time := 0
  random := fun _ => 0
  clientId := 1
  slots := fun _ => none

/-- The address `::n`. -/
def shortIp (n : UInt8) : Ip := Vector.ofFn fun i => if i = 15 then n else 0

/-- A quiet network where the addresses from `::1` to `::9` have their texts. -/
def shortEnv : Env :=
  { quietEnv with inetNtop := fun ip => ':' :: ':' :: decimal ip[15].toNat }

/-- **The state the threads share.** Entries are pointed to by their number;
`entryCount` have been allocated. -/
structure State where
  cur : Map ℕ
  pot : Map ℕ
  entries : ℕ → Option NeighbourEntry
  entryCount : ℕ
  msgMap : Map DataBody
  msgList : Dllist (List Char)
  sent : List (SockaddrIn6 × List UInt8)
  shown : List DataBody

/-- The state before anything has happened. The getters create the four
structures when they are first asked for; here they are there, and empty. -/
def State.init (junk : ℕ → Option ℕ × Option ℕ) : State where
  cur := mapInit
  pot := mapInit
  entries := fun _ => none
  entryCount := 0
  msgMap := mapInit
  msgList := newDllist .string junk
  sent := []
  shown := []

/-- The four mutexes. -/
inductive Mutex
  | curNeighbours
  | potNeighbours
  | msgMap
  | msgList
  deriving DecidableEq, Repr

/-- An action on the shared state. -/
abbrev M (α : Type) : Type := StateT State (Except Fault) α

theorem lift_ok {α : Type} {x : Except Fault α} {a : α} (h : x = .ok a) (s : State) :
    (StateT.lift x : M α) s = .ok (a, s) := by
  rw [StateT.lift, h]
  rfl

theorem lift_error {α : Type} {x : Except Fault α} {f : Fault} (h : x = .error f)
    (s : State) : (StateT.lift x : M α) s = .error f := by
  rw [StateT.lift, h]
  rfl

theorem bind_ok {α β : Type} {x : M α} {f : α → M β} {s s' : State} {a : α}
    (h : x s = .ok (a, s')) : (x >>= f) s = f a s' := by
  show (x s).bind _ = _
  rw [h]
  rfl

theorem bind_error {α β : Type} {x : M α} {f : α → M β} {s : State} {e : Fault}
    (h : x s = .error e) : (x >>= f) s = .error e := by
  show (x s).bind _ = _
  rw [h]
  rfl

/-- An action that returns is one whose parts do. -/
theorem bind_eq_ok {α β : Type} {x : M α} {f : α → M β} {s s' : State} {b : β}
    (h : (x >>= f) s = .ok (b, s')) : ∃ a s₁, x s = .ok (a, s₁) ∧ f a s₁ = .ok (b, s') := by
  change (x s).bind _ = _ at h
  cases hx : x s with
  | ok r => exact ⟨r.1, r.2, rfl, by rwa [hx] at h⟩
  | error e =>
    rw [hx] at h
    cases h

/-- The same where only the state is kept. -/
theorem map_eq_ok {α : Type} {x : Except Fault (α × State)} {s' : State}
    (h : x.map (fun r => ((), r.2)) = .ok ((), s')) : ∃ a, x = .ok (a, s') := by
  cases x with
  | ok r =>
    cases h
    exact ⟨r.1, rfl⟩
  | error e => cases h

/-- What is lifted leaves the state alone. -/
theorem lift_eq_ok {α : Type} {x : Except Fault α} {a : α} {s s' : State}
    (h : (StateT.lift x : M α) s = .ok (a, s')) : x = .ok a ∧ s' = s := by
  cases x with
  | ok b =>
    cases h
    exact ⟨rfl, rfl⟩
  | error e => cases h

@[simp] theorem get_bind {β : Type} (f : State → M β) (s : State) :
    ((get : M State) >>= f) s = f s s := rfl

/-- The code of a thread. -/
abbrev Code (α : Type) : Type := Prog State Mutex Fault α

/-! ## Getters -/

def getCurNeighbours : Code Unit := Prog.take .curNeighbours

def getPotNeighbours : Code Unit := Prog.take .potNeighbours

def getMsgMap : Code Unit := Prog.take .msgMap

def getMsgList : Code Unit := Prog.take .msgList

/-! ## Pointers -/

/-- Follow a pointer to a value, as in `*map_get(m, key)`. -/
def follow {β : Type} : Option β → M β
  | none => throw .null
  | some v => pure v

/-- The entry a pointer points to. -/
def entryAt (e : ℕ) : M NeighbourEntry := do
  let s ← get
  match s.entries e with
  | none => throw .wild
  | some ent => pure ent

/-- Write an entry. -/
def setEntry (e : ℕ) (ent : NeighbourEntry) : M Unit :=
  modify fun s => { s with entries := Function.update s.entries e (some ent) }

/-- `new_neighbour_entry`, at the number `entryCount`. -/
def newNeighbourEntry (env : Env) (addr : SockaddrIn6) : M ℕ := do
  let s ← get
  let e := s.entryCount
  let list := newDllist .msg (env.junk e)
  set { s with
    entries := Function.update s.entries e (some ⟨addr, 1024, list⟩)
    entryCount := e + 1 }
  return e

/-! ## Sending -/

/-- `udp_send`, with the outcome `ok`. -/
def udpSend (pair : SockaddrIn6) (bytes : List UInt8) (ok : Bool) : M Bool := do
  modify fun s => { s with sent := s.sent ++ [(pair, bytes)] }
  return ok

/-- The bytes of a message of the TLVs `ts`. -/
def serialized (env : Env) (ts : List Tlv) : M (List UInt8) := do
  let s ← get
  return (serialMsg env.mc (env.frames s.sent.length) (newMsg ts) (newSbuff env.mc)).written

/-- `send_msg`. -/
def sendMsg (env : Env) (pair : SockaddrIn6) (ts : List Tlv) : M Unit := do
  let bytes ← serialized env ts
  let _ ← udpSend pair bytes (env.sendOk 0)

/-! ## Freeing -/

/-- `free` of a variable or an array of the caller, which `malloc` has not
returned. -/
def freeLocal : M Unit := throw .wild

end Miaouchat
