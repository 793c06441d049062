import Miaouchat.Lookup
import Miaouchat.OneStatus

/-!
# Learning the sender of a Hello

`process_hello` adds a peer it does not know through `add_new_neighbour`, that
is through text: it prints the address and the port, and `getaddrinfo` reads
them back. It prints the sixteen bytes at `&client`, its own parameter, and the
port as the host reads the two bytes it came in. What is learned is the sender
only where these are its address and its port, and where its key is free
(`learnsSender_iff`).
-/

namespace Miaouchat

open Bytes

/-- An entry of the address is in one of the maps. -/
def HasAddress (client : SockaddrIn6) (s : State) : Prop :=
  ∃ w key e, mapGet (s.nbrs w) key = some e
    ∧ (s.entries e).map NeighbourEntry.addr = some client

/-- **The numeric text of an address is read back**: `inet_ntop` prints no
other address so, and `getaddrinfo` returns it. -/
structure ReadBack (env : Env) (client : SockaddrIn6) : Prop where
  inetNtop : ∀ ip, env.inetNtop ip = env.inetNtop client.addr → ip = client.addr
  getaddrinfo : env.getaddrinfo (env.inetNtop client.addr)
    (decimal (htons env.mc.endian client.port).toNat) = some [client]

/-- The host that `process_hello` passes to `add_new_neighbour`. -/
def helloHost (env : Env) : List Char := env.inetNtop env.clientSlot

/-- The port that `process_hello` passes to `add_new_neighbour`. -/
def helloPort (client : SockaddrIn6) : List Char := portText client.port

/-- **The Hello teaches its sender**: the texts passed on are those of its
address and of its port in host order, and an entry of it is in a map
afterwards. -/
def LearnsSender (env : Env) (b : HelloBody) (client : SockaddrIn6) (s : State) : Prop :=
  helloHost env = env.inetNtop client.addr
    ∧ helloPort client = decimal (htons env.mc.endian client.port).toNat
    ∧ ∃ s', (processHello env b client).exec s = .ok ((), s') ∧ HasAddress client s'

/-- The key by which the sender is looked up is free in both maps. -/
def KeyFree (env : Env) (client : SockaddrIn6) (s : State) : Prop :=
  ∀ w, mapGet (s.nbrs w) (newNeighbourKeySock env client) = none

/-! ## The texts -/

theorem htons_big (port : UInt16) : htons .big port = port := by
  have hread : ofMemory .big (beBytes 2 port.toNat) = port.toNat :=
    ofBE_beBytes (port.toNat_lt.trans_eq (by decide))
  rw [htons, hread, UInt16.ofNat_toNat]

theorem htons_eq_self_iff (e : Endian) (port : UInt16) :
    htons e port = port ↔ e = .big ∨ EqualBytes port := by
  cases e with
  | big => simp [htons_big]
  | little => simp [htons_little_eq_self_iff]

/-- Ten bytes hold the text of any port. -/
theorem portText_eq (port : UInt16) : portText port = decimal port.toNat :=
  List.take_of_length_le ((length_decimal_port_le port).trans (by decide))

/-- **The port is printed in host order** where the host reads it so. -/
theorem helloPort_eq_iff (e : Endian) (client : SockaddrIn6) :
    helloPort client = decimal (htons e client.port).toNat
      ↔ e = .big ∨ EqualBytes client.port := by
  rw [helloPort, portText_eq, ← htons_eq_self_iff]
  constructor
  · intro h
    exact (UInt16.toNat_inj.mp (decimal_injective h)).symm
  · intro h
    rw [h]

/-! ## The peer -/

section Peer

variable {env : Env} {b : HelloBody} {client : SockaddrIn6} {s s' : State}

theorem hasAddress_iff_of_sameNbrs (h : SameNbrs s s') :
    HasAddress client s' ↔ HasAddress client s := by
  simp only [HasAddress, h.nbrs, h.addr]

/-- A transfer binds no entry that was not bound. -/
theorem HasAddress.of_transfer {w w' : Nbrs} (hw : w ≠ w') {key : List Char} {moved : Bool}
    (hrun : mapTransferNeighbour env w w' key s = .ok (moved, s')) (h : HasAddress client s') :
    HasAddress client s := by
  obtain ⟨-, -, -, hentries⟩ := mapTransferNeighbour_eq_ok hw hrun
  obtain ⟨e, s₁, hpop, hadd⟩ := bind_eq_ok hrun
  obtain ⟨he, rfl⟩ := mapPopNeighbour_eq_ok hpop
  have hrest : ∀ {w₁ key₁ e₁},
      mapGet ((s.setNbrs w (mapRemove (s.nbrs w) key)).nbrs w₁) key₁ = some e₁ →
      mapGet (s.nbrs w₁) key₁ = some e₁ := by
    intro w₁ key₁ e₁ h₁
    by_cases hw₁ : w₁ = w
    · subst hw₁
      rw [State.nbrs_setNbrs_same, mapGet_mapRemove] at h₁
      split at h₁
      · cases h₁
      · exact h₁
    · rwa [State.nbrs_setNbrs_of_ne _ hw₁] at h₁
  obtain ⟨w₁, key₁, e₁, h₁, haddr⟩ := h
  rw [hentries] at haddr
  obtain ⟨ent, -, ⟨-, rfl⟩ | ⟨-, rfl⟩⟩ := mapAddNeighbourEntry_eq_ok hadd
  · by_cases hw₁ : w₁ = w'
    · subst hw₁
      rw [State.nbrs_setNbrs_same, mapGet_mapSet] at h₁
      split at h₁
      · cases h₁
        exact ⟨w, key, e, he, haddr⟩
      · exact ⟨w₁, key₁, e₁, hrest h₁, haddr⟩
    · rw [State.nbrs_setNbrs_of_ne _ hw₁] at h₁
      exact ⟨w₁, key₁, e₁, hrest h₁, haddr⟩
  · exact ⟨w₁, key₁, e₁, hrest h₁, haddr⟩

/-- **A peer whose key is bound is not added**: it is in a map afterwards where
it was in one before. -/
theorem keyFree_of_learned (hnot : ¬ HasAddress client s)
    (hrun : (processHello env b client).exec s = .ok ((), s')) (h : HasAddress client s') :
    KeyFree env client s := by
  have hanswered := SameNbrs.answered s env b client
  have hnot' : ¬ HasAddress client (s.answered env b client) := fun h' =>
    hnot ((hasAddress_iff_of_sameNbrs hanswered).mp h')
  rw [exec_processHello] at hrun
  rcases admitPeer_cases hrun with ⟨-, rfl⟩ | ⟨-, -, moved, htransfer⟩ | ⟨hcur, hpot, -⟩
  · exact absurd h hnot'
  · exact absurd (h.of_transfer (by decide) htransfer) hnot'
  · intro w
    rw [← hanswered.nbrs]
    cases w with
    | cur => exact hcur
    | pot => exact hpot

/-- **A peer of a free key is added** under the texts that are passed on. -/
theorem exec_processHello_new (h : KeyFree env client s) :
    (processHello env b client).exec s
      = (addNewNeighbour env (helloHost env) (helloPort client)).exec
          (s.answered env b client) := by
  have hfree : ∀ w, mapGet ((s.answered env b client).nbrs w) (newNeighbourKeySock env client)
      = none := fun w => by rw [(SameNbrs.answered s env b client).nbrs, h w]
  rw [exec_processHello]
  exact exec_admitPeer_new env client (hfree .cur) (hfree .pot)

/-- **A host that resolves to one address of a free key** has an entry of it in
a map. -/
theorem hasAddress_withAddress (hello : List UInt8) {w : Nbrs}
    (h : mapGet (s.nbrs w) (addressKey env client) = none) :
    HasAddress client (s.withAddress env hello w client) := by
  refine ⟨w, addressKey env client, s.entryCount, ?_, ?_⟩
  · rw [nbrs_withAddress, if_pos ⟨rfl, rfl⟩, h]
    rfl
  · rw [entries_withAddress, Function.update_self]
    rfl

/-- **When a Hello teaches its sender**: its key is free, the memory at
`&client` is its address, and its port is the same in either byte order or the
host's order is the network's. -/
theorem learnsSender_iff (hread : ReadBack env client) (hnot : ¬ HasAddress client s) :
    LearnsSender env b client s
      ↔ KeyFree env client s ∧ env.clientSlot = client.addr
        ∧ (env.mc.endian = .big ∨ EqualBytes client.port) := by
  unfold LearnsSender
  rw [helloPort_eq_iff]
  constructor
  · rintro ⟨hhost, hport, s', hrun, hlearned⟩
    exact ⟨keyFree_of_learned hnot hrun hlearned, hread.inetNtop _ hhost, hport⟩
  · rintro ⟨hfree, hslot, hport⟩
    have hhost : helloHost env = env.inetNtop client.addr := congrArg env.inetNtop hslot
    have hkey : addressKey env client = newNeighbourKeySock env client := by
      rw [addressKey, newNeighbourKeySock, (htons_eq_self_iff _ _).mpr hport]
    have hadded : env.getaddrinfo (helloHost env) (helloPort client) = some [client] := by
      rw [hhost, (helloPort_eq_iff _ _).mpr hport, hread.getaddrinfo]
    have hunbound : mapGet ((s.answered env b client).nbrs (env.outcome 0))
        (addressKey env client) = none := by
      rw [hkey, (SameNbrs.answered s env b client).nbrs, hfree]
    have hrun : (processHello env b client).exec s = .ok ((),
        (s.answered env b client).withAddress env (shortHello env (s.answered env b client))
          (env.outcome 0) client) := by
      rw [exec_processHello_new hfree, exec_addNewNeighbour, hadded]
      rfl
    exact ⟨hhost, hport, _, hrun, hasAddress_withAddress _ hunbound⟩

end Peer

/-- A text for each address. Those from `::1` to `::9` have the text of `inet_ntop`,
which no other address has. -/
def numericText (ip : Ip) : List Char :=
  if ip = shortIp (ip.toList.getLastD 0) then ':' :: ':' :: decimal (ip.toList.getLastD 0).toNat
  else 'x' :: ip.toList.flatMap fun b => ':' :: decimal b.toNat

/-- A network where the text of `::1` is read back. -/
def numericEnv (clientSlot : Ip) : Env :=
  { quietEnv with
    clientSlot
    inetNtop := numericText
    getaddrinfo := fun host port =>
      if host = [':', ':', '1'] then
        some [⟨shortIp 1, htons .little (UInt16.ofNat (Nat.ofDigitChars 10 port 0))⟩]
      else none }

theorem numericText_one : numericText (shortIp 1) = [':', ':', '1'] := by decide

theorem eq_one_of_numericText {ip : Ip} (h : numericText ip = [':', ':', '1']) :
    ip = shortIp 1 := by
  unfold numericText at h
  split at h
  · next hshort =>
    have hone : decimal (ip.toList.getLastD 0).toNat = decimal (1 : UInt8).toNat :=
      (List.cons.inj (List.cons.inj h).2).2
    rw [hshort, UInt8.toNat_inj.mp (decimal_injective hone)]
  · cases h

theorem readBack_numericEnv (clientSlot : Ip) {port : UInt16}
    (h : htons .little (UInt16.ofNat
      (Nat.ofDigitChars 10 (decimal (htons .little port).toNat) 0)) = port) :
    ReadBack (numericEnv clientSlot) ⟨shortIp 1, port⟩ := by
  have htext : (numericEnv clientSlot).inetNtop (shortIp 1) = [':', ':', '1'] := numericText_one
  refine ⟨fun ip hip => eq_one_of_numericText (hip.trans htext), ?_⟩
  show (numericEnv clientSlot).getaddrinfo ((numericEnv clientSlot).inetNtop (shortIp 1))
    (decimal (htons .little port).toNat) = some [⟨shortIp 1, port⟩]
  rw [htext]
  show some [_] = _
  rw [h]

theorem not_hasAddress_init (client : SockaddrIn6) (junk : ℕ → Option ℕ × Option ℕ) :
    ¬ HasAddress client (State.init junk) := by
  rintro ⟨w, key, e, he, -⟩
  cases w <;> cases (mapGet_mapInit key).symm.trans he

/-- A stack that has the address of the sender, and a port of two equal
bytes. -/
theorem learnsSender_iff_numeric :
    LearnsSender (numericEnv (shortIp 1)) ⟨false, 7, 0⟩ ⟨shortIp 1, 257⟩
      (State.init fun _ => (none, none)) :=
  (learnsSender_iff (readBack_numericEnv (shortIp 1) (by decide))
    (not_hasAddress_init _ _)).mpr ⟨fun w => by cases w <;> rfl, rfl, .inr rfl⟩

/-- The Hello of the port 1212 of `::1`, with another address on the stack. -/
theorem not_learnsSender :
    ¬ ∀ (env : Env) (b : HelloBody) (client : SockaddrIn6) (s : State), ReadBack env client →
        ¬ HasAddress client s → LearnsSender env b client s := by
  intro hall
  have h := hall (numericEnv (shortIp 2)) ⟨false, 7, 0⟩ ⟨shortIp 1, 48132⟩
    (State.init fun _ => (none, none)) (readBack_numericEnv (shortIp 2) (by decide))
    (not_hasAddress_init _ _)
  exact absurd h.1 (by decide)

end Miaouchat
