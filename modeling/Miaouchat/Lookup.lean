import Miaouchat.Connect
import Miaouchat.NeighbourKeys

/-!
# Looking a stored peer up

The key of a peer has two makers. `map_add_neighbour_entry` prints the port
that `htons` gives, which is the port of the peer. `new_neighbour_key_sock`,
by which the handlers of a datagram look its sender up, prints the two bytes of
the port as the host reads them. On a little-endian host these are the port
with its bytes exchanged, and a peer that was stored is found again only where
the two bytes are the same (`newNeighbourKeySock_eq_iff`,
`lookup_stored_iff`).
-/

namespace Miaouchat

open Bytes

/-- The two bytes of a port are the same. -/
def EqualBytes (port : UInt16) : Prop := port.toNat / 256 = port.toNat % 256

/-- The text of the address leaves no room for five digits in the key, and as
far as there is room the two readings of the port have the same text. -/
def CutAlike (env : Env) (p : SockaddrIn6) : Prop :=
  let room := inet6Addrstrlen + 2 - (env.inetNtop p.addr).length
  room < 5 ∧ (decimal p.port.toNat).take room
    = (decimal (htons env.mc.endian p.port).toNat).take room

theorem toNat_htons_little (port : UInt16) :
    (htons .little port).toNat = port.toNat / 256 + 256 * (port.toNat % 256) := by
  have hport := port.toNat_lt
  have hread : ofMemory .little (beBytes 2 port.toNat)
      = port.toNat / 256 + 256 * (port.toNat % 256) := by
    show (UInt8.ofNat (port.toNat / 256)).toNat
      + 256 * ((UInt8.ofNat port.toNat).toNat + 256 * 0) = _
    rw [UInt8.toNat_ofNat', UInt8.toNat_ofNat']
    omega
  rw [htons, hread, UInt16.toNat_ofNat']
  omega

/-- **A little-endian host reads the port itself** where the bytes are the
same. -/
theorem htons_little_eq_self_iff (port : UInt16) :
    htons .little port = port ↔ EqualBytes port := by
  have hport := port.toNat_lt
  rw [← UInt16.toNat_inj, toNat_htons_little, EqualBytes]
  omega

theorem length_decimal_port_le (port : UInt16) : (decimal port.toNat).length ≤ 5 :=
  length_decimal_le (by decide) (port.toNat_lt.trans (by decide))

/-- **When the two keys of a peer agree**, on a little-endian host. -/
theorem newNeighbourKeySock_eq_iff {env : Env} (hlittle : env.mc.endian = .little)
    (p : SockaddrIn6) :
    newNeighbourKeySock env p = addressKey env p ↔ EqualBytes p.port ∨ CutAlike env p := by
  have hkeys : newNeighbourKeySock env p = addressKey env p
      ↔ (decimal p.port.toNat).take (inet6Addrstrlen + 2 - (env.inetNtop p.addr).length)
        = (decimal (htons env.mc.endian p.port).toNat).take
          (inet6Addrstrlen + 2 - (env.inetNtop p.addr).length) := by
    unfold newNeighbourKeySock addressKey newNeighbourKey snprintf
    rw [Nat.add_sub_cancel, List.take_append, List.take_append, List.append_cancel_left_eq]
  have hport : htons env.mc.endian p.port = p.port ↔ EqualBytes p.port :=
    hlittle ▸ htons_little_eq_self_iff p.port
  rw [hkeys]
  constructor
  · intro h
    rcases Nat.lt_or_ge (inet6Addrstrlen + 2 - (env.inetNtop p.addr).length) 5 with hroom | hroom
    · exact .inr ⟨hroom, h⟩
    · rw [List.take_of_length_le ((length_decimal_port_le _).trans hroom),
        List.take_of_length_le ((length_decimal_port_le _).trans hroom)] at h
      exact .inl (hport.mp (UInt16.toNat_inj.mp (decimal_injective h.symm)))
  · rintro (h | h)
    · rw [hport.mpr h]
    · exact h.2

/-- **A stored peer is found again** – by the key that the handlers make, in
the map that `map_add_neighbour_entry` has stored its entry in – exactly where
the bytes of its port are the same, or the keys are cut alike, or the entry was
bound under that key before. -/
theorem lookup_stored_iff {env : Env} (hlittle : env.mc.endian = .little) {w : Nbrs} {e : ℕ}
    {ent : NeighbourEntry} {s s' : State} (hent : s.entries e = some ent)
    (hadd : mapAddNeighbourEntry env w e s = .ok (true, s')) :
    mapGet (s'.nbrs w) (newNeighbourKeySock env ent.addr) = some e
      ↔ EqualBytes ent.addr.port ∨ CutAlike env ent.addr
        ∨ mapGet (s.nbrs w) (newNeighbourKeySock env ent.addr) = some e := by
  have hs' : s' = s.setNbrs w (mapSet (s.nbrs w) (addressKey env ent.addr) e) := by
    obtain ⟨ent', hent', ⟨-, rfl⟩ | ⟨hadded, -⟩⟩ := mapAddNeighbourEntry_eq_ok hadd
    · cases hent.symm.trans hent'
      rfl
    · cases hadded
  rw [hs', State.nbrs_setNbrs_same, mapGet_mapSet, ← or_assoc,
    ← newNeighbourKeySock_eq_iff hlittle]
  by_cases hkey : newNeighbourKeySock env ent.addr = addressKey env ent.addr
  · rw [if_pos hkey]
    exact ⟨fun _ => .inl hkey, fun _ => rfl⟩
  · rw [if_neg hkey]
    exact ⟨.inr, fun h => h.resolve_left hkey⟩

/-- The state in which an entry for a port of `::1` has been made. -/
def storing (port : UInt16) : State :=
  ((State.init fun _ => (none, none)).withSent ⟨shortIp 1, port⟩ []).withEntry shortEnv
    ⟨shortIp 1, port⟩

theorem mapAddNeighbourEntry_storing (port : UInt16) :
    mapAddNeighbourEntry shortEnv .cur 0 (storing port) = .ok (true, oneNeighbour port) :=
  newNeighbourEntry_mapAdd_run shortEnv [] .cur ⟨shortIp 1, port⟩ _

/-- A peer at the port 257 of `::1` is found again. -/
theorem lookup_stored_iff_equalBytes :
    mapGet ((oneNeighbour 257).nbrs .cur) (newNeighbourKeySock shortEnv ⟨shortIp 1, 257⟩)
      = some 0 := by
  have hent : (storing 257).entries 0
      = some ⟨⟨shortIp 1, 257⟩, 1024, newDllist .msg fun _ => (none, none)⟩ := rfl
  exact (lookup_stored_iff rfl hent (mapAddNeighbourEntry_storing 257)).mpr (.inl rfl)

/-- A peer at the port 1212 of `::1` is not found again. -/
theorem not_lookup_stored :
    ¬ ∀ (env : Env) (w : Nbrs) (e : ℕ) (ent : NeighbourEntry) (s s' : State),
        env.mc.endian = .little → s.entries e = some ent →
        mapAddNeighbourEntry env w e s = .ok (true, s') →
        mapGet (s'.nbrs w) (newNeighbourKeySock env ent.addr) = some e := by
  intro hall
  have h := hall shortEnv .cur 0
    ⟨⟨shortIp 1, 48132⟩, 1024, newDllist .msg fun _ => (none, none)⟩ _ _ rfl rfl
    (mapAddNeighbourEntry_storing 48132)
  revert h
  decide

end Miaouchat
