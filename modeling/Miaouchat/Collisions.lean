import Miaouchat.Lookup
import Miaouchat.Ownership
import Miaouchat.Transfer

/-!
# Keys of peers

`new_neighbour_key` prints the text of an address and the port one after the other,
with nothing between them. The groups of an address are in hexadecimal and the port
is in decimal, so the digits at the end of one address can be those at the start of
the port of another: the port 2345 of `::1` and the port 345 of `::12` have the key
`::12345`, and each of the two peers is taken for the other.

What `inet_ntop` prints is left open, but for its length: a text and its NUL go in
`INET6_ADDRSTRLEN` bytes. The key has room for three characters more, and a port can
have five; no port is cut where the texts are short (`mistakable_iff_of_short`).
-/

namespace Miaouchat

/-- What is left of the port in a key, after the text of the address. -/
def keptPort (text : List Char) (port : UInt16) : List Char :=
  (decimal port.toNat).take (inet6Addrstrlen + 2 - text.length)

/-- **When two peers have the same key.** They have the same address, and their
ports read the same as far as they are kept; or the text of one address begins with
that of the other, and goes on as the other's port. -/
def Mistakable (text : Ip → List Char) (ip : Ip) (port : UInt16) (ip' : Ip)
    (port' : UInt16) : Prop :=
  ip = ip' ∧ keptPort (text ip) port = keptPort (text ip) port'
  ∨ ip ≠ ip'
    ∧ (GoesOn (inet6Addrstrlen + 2) (text ip) (decimal port.toNat) (text ip')
        (decimal port'.toNat)
      ∨ GoesOn (inet6Addrstrlen + 2) (text ip') (decimal port'.toNat) (text ip)
        (decimal port.toNat))

/-- In neither map a look-up of the key finds anything else than before. -/
def SameLookup (key : List Char) (s s' : State) : Prop :=
  ∀ w, mapGet (s'.nbrs w) key = mapGet (s.nbrs w) key

/-- **A key is left alone by what is done with a peer**: adding an entry of the peer,
popping it, moving it to the other map and deleting it. -/
structure LeftAlone (ip : List Char) (port : UInt16) (key : List Char) : Prop where
  add : ∀ {env w e ent s added s'}, s.entries e = some ent →
    entryKey env ent = newNeighbourKey ip port →
    mapAddNeighbourEntry env w e s = .ok (added, s') → SameLookup key s s'
  pop : ∀ {w s e s'}, mapPopNeighbour w (newNeighbourKey ip port) s = .ok (e, s') →
    SameLookup key s s'
  transfer : ∀ {env w s moved s'}, UnderOwnKeys env s →
    mapTransferNeighbour env w w.other (newNeighbourKey ip port) s = .ok (moved, s') →
    SameLookup key s s'
  delete : ∀ {w m m'}, mapDeleteEntry w ip port m = .ok m' → SameLookup key m.state m'.state

/-- **Two peers are told apart**: their keys differ, and the key of each is left
alone by what is done with the other. -/
structure ToldApart (ip : List Char) (port : UInt16) (ip' : List Char) (port' : UInt16) :
    Prop where
  key_ne : newNeighbourKey ip port ≠ newNeighbourKey ip' port'
  left : LeftAlone ip port (newNeighbourKey ip' port')
  right : LeftAlone ip' port' (newNeighbourKey ip port)

section Maps

variable {key : List Char}

/-- Nothing else is found where the new map has the key bound as the old one. -/
theorem sameLookup_setNbrs {w : Nbrs} {m : Map ℕ} {s : State}
    (h : mapGet m key = mapGet (s.nbrs w) key) : SameLookup key s (s.setNbrs w m) := by
  intro w'
  by_cases hw : w' = w
  · rw [hw, State.nbrs_setNbrs_same, h]
  · rw [State.nbrs_setNbrs_of_ne _ hw]

/-- **A key is left alone by what is done under another.** -/
theorem leftAlone_of_ne {ip : List Char} {port : UInt16}
    (hne : key ≠ newNeighbourKey ip port) : LeftAlone ip port key where
  add := by
    intro env w e ent s added s' hent hkey hadd
    obtain ⟨ent', hent', ⟨-, rfl⟩ | ⟨-, rfl⟩⟩ := mapAddNeighbourEntry_eq_ok hadd
    · cases hent.symm.trans hent'
      exact sameLookup_setNbrs ((mapGet_mapSet ..).trans (if_neg (hkey ▸ hne)))
    · exact fun _ => rfl
  pop := by
    intro w s e s' hpop
    obtain ⟨-, rfl⟩ := mapPopNeighbour_eq_ok hpop
    exact sameLookup_setNbrs ((mapGet_mapRemove ..).trans (if_neg hne))
  transfer := by
    intro env w s moved s' hown hmove
    obtain ⟨hbound, -⟩ := mapTransferNeighbour_eq_ok w.other_ne.symm hmove
    obtain ⟨e, he⟩ := Option.ne_none_iff_exists'.mp hbound
    obtain ⟨ent, hent, hkey⟩ := hown w _ e he
    rw [transfer_run_of_entryKey he hent hkey] at hmove
    cases hmove
    exact fun w' => transferred_of_ne w' hne
  delete := by
    intro w m m' hdelete
    obtain ⟨e, -, rfl⟩ := mapDeleteEntry_eq_ok hdelete
    exact fun w' => Option.ext fun e' => deleted_bound.trans (and_iff_right fun h => hne h.2)

end Maps

section Keys

variable {text : Ip → List Char}

/-- **The keys of two peers are the same exactly where they are mistakable.** -/
theorem newNeighbourKey_eq_iff (hlen : ∀ ip, (text ip).length < inet6Addrstrlen) (ip ip' : Ip)
    (port port' : UInt16) :
    newNeighbourKey (text ip) port = newNeighbourKey (text ip') port'
      ↔ Mistakable text ip port ip' port' := by
  show (text ip ++ decimal port.toNat).take (inet6Addrstrlen + 2)
    = (text ip' ++ decimal port'.toNat).take (inet6Addrstrlen + 2) ↔ _
  unfold Mistakable
  by_cases hip : ip = ip'
  · subst hip
    rw [List.take_append, List.take_append, List.append_cancel_left_eq]
    simp [keptPort]
  · simp only [hip, false_and, false_or, ne_eq, not_false_eq_true, true_and]
    rw [take_append_eq_iff]
    refine or_congr_right (or_iff_left fun h => ?_)
    exact absurd h.1 (Nat.not_lt.mpr (Nat.le_add_right_of_le (hlen ip).le))

/-- **Two peers are told apart exactly where they are not mistakable.** -/
theorem toldApart_iff (hlen : ∀ ip, (text ip).length < inet6Addrstrlen) (ip : Ip)
    (port : UInt16) (ip' : Ip) (port' : UInt16) :
    ToldApart (text ip) port (text ip') port' ↔ ¬ Mistakable text ip port ip' port' := by
  rw [← newNeighbourKey_eq_iff hlen]
  exact ⟨ToldApart.key_ne, fun hne => ⟨hne, leftAlone_of_ne (Ne.symm hne), leftAlone_of_ne hne⟩⟩

/-- **With short texts**, where every port is kept whole, two different peers are
mistakable exactly where the text of one address is that of the other and some
digits more, and the other's port is these digits and the port of the one. -/
theorem mistakable_iff_of_short (hinj : Function.Injective text)
    (hshort : ∀ ip, (text ip).length + 5 ≤ inet6Addrstrlen + 2) {ip ip' : Ip}
    {port port' : UInt16} (hne : (ip, port) ≠ (ip', port')) :
    Mistakable text ip port ip' port'
      ↔ ∃ us, us ≠ [] ∧ (text ip' = text ip ++ us ∧ decimal port.toNat = us ++ decimal port'.toNat
        ∨ text ip = text ip' ++ us ∧ decimal port'.toNat = us ++ decimal port.toNat) := by
  have hfits : ∀ ip (port : UInt16), (text ip).length + (decimal port.toNat).length
      ≤ inet6Addrstrlen + 2 := fun ip port =>
    (Nat.add_le_add_left (length_decimal_port_le port) _).trans (hshort ip)
  unfold Mistakable
  rw [goesOn_iff_of_le (hfits ..) (hfits ..), goesOn_iff_of_le (hfits ..) (hfits ..), ← exists_or]
  constructor
  · rintro (⟨rfl, hkept⟩ | ⟨hip, us, hus⟩)
    · unfold keptPort at hkept
      have hroom := hshort ip
      rw [List.take_of_length_le ((length_decimal_port_le _).trans (by omega)),
        List.take_of_length_le ((length_decimal_port_le _).trans (by omega))] at hkept
      exact absurd (congrArg (ip, ·) (UInt16.toNat_inj.mp (decimal_injective hkept))) hne
    · refine ⟨us, ?_, hus⟩
      rintro rfl
      rcases hus with ⟨h, -⟩ | ⟨h, -⟩ <;> rw [List.append_nil] at h
      · exact hip (hinj h).symm
      · exact hip (hinj h)
  · rintro ⟨us, hus, h⟩
    refine .inr ⟨?_, us, h⟩
    rintro rfl
    rcases h with ⟨h, -⟩ | ⟨h, -⟩ <;> exact hus (List.self_eq_append_right.mp h)

end Keys

/-- A text of addresses that is not the same for two of them, and that is the text
of `inet_ntop` for `::1` and `::12`. -/
def someText (ip : Ip) : List Char :=
  if ip = shortIp 1 then [':', ':', '1']
  else if ip = shortIp 18 then [':', ':', '1', '2']
  else ip.toList.map fun b => Char.ofNat b.toNat

theorem length_someText (ip : Ip) : (someText ip).length < inet6Addrstrlen := by
  unfold someText
  split
  · decide
  · split
    · decide
    · rw [List.length_map, Vector.length_toList]
      decide

theorem ofNat_toNat_injective : Function.Injective fun b : UInt8 => Char.ofNat b.toNat := by
  have hval : ∀ b : UInt8, (Char.ofNat b.toNat).toNat = b.toNat := by
    intro b
    rw [Char.ofNat, dif_pos (.inl (b.toNat_lt.trans (by decide)))]
    rfl
  intro b b' h
  rw [← UInt8.toNat_inj, ← hval b, ← hval b']
  exact congrArg Char.toNat h

theorem someText_cases (ip : Ip) :
    ip = shortIp 1 ∧ someText ip = [':', ':', '1']
      ∨ ip = shortIp 18 ∧ someText ip = [':', ':', '1', '2']
      ∨ someText ip = ip.toList.map fun b => Char.ofNat b.toNat := by
  unfold someText
  split
  · exact .inl ⟨‹_›, rfl⟩
  · split
    · exact .inr (.inl ⟨‹_›, rfl⟩)
    · exact .inr (.inr rfl)

/-- No two addresses have the same text. -/
theorem someText_injective : Function.Injective someText := by
  intro ip ip' h
  -- texts of different kinds have different lengths
  rcases someText_cases ip with ⟨hip, htext⟩ | ⟨hip, htext⟩ | htext <;>
    rcases someText_cases ip' with ⟨hip', htext'⟩ | ⟨hip', htext'⟩ | htext'
  case inl.inl => rw [hip, hip']
  case inr.inl.inr.inl => rw [hip, hip']
  case inr.inr.inr.inr =>
    rw [htext, htext'] at h
    exact Vector.toList_inj.mp (List.map_injective_iff.mpr ofNat_toNat_injective h)
  all_goals
    have hlen := congrArg List.length h
    rw [htext, htext'] at hlen
    simp at hlen

/-- The port 257 of `::1` and of `::12` are told apart. -/
theorem toldApart_iff_samePort :
    ToldApart (someText (shortIp 1)) 257 (someText (shortIp 18)) 257 := by
  refine (toldApart_iff length_someText (shortIp 1) 257 (shortIp 18) 257).mpr ?_
  unfold Mistakable GoesOn
  decide

/-- **Some two different peers are not told apart**: the port 2345 of `::1` and the
port 345 of `::12`. -/
theorem not_toldApart :
    ¬ ∀ text : Ip → List Char, Function.Injective text →
        (∀ ip, (text ip).length < inet6Addrstrlen) →
        ∀ ip port ip' port', (ip, port) ≠ (ip', port') →
          ToldApart (text ip) port (text ip') port' := by
  intro hall
  have h := hall someText someText_injective length_someText (shortIp 1) 2345 (shortIp 18) 345
    (by decide)
  exact h.key_ne (by decide)

end Miaouchat
