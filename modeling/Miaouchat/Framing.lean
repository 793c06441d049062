import Miaouchat.Deserialization

/-!
# Hostile and well-formed datagrams

What the decoder does with a datagram depends on how the bytes after the
header divide into TLVs, and there are two ways to divide them. The protocol's
own way is by the length bytes: a type byte, a length byte, and that many
value bytes. The decoder's way is by what the reader of each type goes over
(`valueLen`), which is the length byte for some types, a constant for others,
and nothing for a type it does not know.

`decodesSafely_iff` is about arbitrary bytes. The decoder stays inside the
datagram exactly when there is a header and the decoder's own division comes
out even. A datagram cut anywhere else makes a reader go past the end: only
the loop between two TLVs compares the cursor with `real_size`.

`respectsFraming_iff` is about datagrams the protocol's division does fit, with
every value long enough for its type. There the decoder returns the pieces it
was sent exactly when no piece is longer than its reader: a Hello of more than
sixteen bytes, a Neighbour of more than eighteen, an Ack of more than twelve
and an unknown type with a value leave bytes behind, and the decoder takes
them for further TLVs.
-/

namespace Miaouchat

open Bytes

/-! ## Staying inside the datagram -/

/-- **The decoder is safe on the datagram `d`**: it returns, so that each of
its reads was below `real_size`, and its cursor is not past the end. -/
def DecodesSafely (mc : Machine) (d : List UInt8) : Prop :=
  ∃ m b, dserialMsg mc (newDsbuff d) = some (m, b) ∧ b.next ≤ realSize b

/-- The bytes divide into TLVs the way the readers of the decoder do: after
each type and length byte come at least the bytes its reader goes over. -/
inductive Framed : List UInt8 → Prop
  | nil : Framed []
  | cons {type length : UInt8} {vs rest : List UInt8}
      (hvs : vs.length = valueLen type length) (hrest : Framed rest) :
      Framed (type :: length :: (vs ++ rest))

/-- The division gives the TLVs. -/
theorem framed_iff_framing (bs : List UInt8) : Framed bs ↔ ∃ ts, Framing bs ts := by
  constructor
  · intro h
    induction h with
    | nil => exact ⟨[], .nil⟩
    | cons hvs _ ih =>
      obtain ⟨ts, hts⟩ := ih
      exact ⟨_, .cons hvs hts⟩
  · rintro ⟨ts, h⟩
    induction h with
    | nil => exact .nil
    | cons hvs _ ih => exact .cons hvs ih

/-- **The decoder is safe exactly on a header followed by bytes that divide
evenly among its readers.** -/
theorem decodesSafely_iff (mc : Machine) (d : List UInt8) :
    DecodesSafely mc d ↔ 4 ≤ d.length ∧ Framed (d.drop 4) := by
  constructor
  · rintro ⟨m, b, hm, -⟩
    obtain ⟨hlen, hf⟩ := (dserialMsg_body_iff mc d m.body).mp ⟨m, b, hm, rfl⟩
    exact ⟨hlen, (framed_iff_framing _).mpr ⟨m.body, hf⟩⟩
  · rintro ⟨hlen, hframed⟩
    obtain ⟨ts, hf⟩ := (framed_iff_framing _).mp hframed
    obtain ⟨m, b, hm, -⟩ := (dserialMsg_body_iff mc d ts).mpr ⟨hlen, hf⟩
    exact ⟨m, b, hm, (next_of_dserialMsg hm).le⟩

/-- An Ack whose twelve value bytes are missing: the reader of its sender id
starts at the end of the datagram. -/
theorem not_decodesSafely_of_cut :
    ¬ ∀ (mc : Machine) (d : List UInt8), d.length ≤ 4096 → DecodesSafely mc d := by
  intro h
  obtain ⟨m, b, hm, -⟩ := h ⟨.little, fun _ => 0⟩ [93, 2, 0, 2, 5, 12] (by decide)
  have hnone : dserialMsg ⟨.little, fun _ => 0⟩ (newDsbuff [93, 2, 0, 2, 5, 12])
      = none := by decide
  rw [hnone] at hm
  cases hm

/-! ## Complete TLVs -/

/-- **A complete TLV on the wire**: a type byte, a length byte, and that many
value bytes. -/
structure Piece where
  type : UInt8
  length : UInt8
  value : List UInt8
  /-- The value is as long as the length byte says. -/
  complete : value.length = length.toNat

namespace Piece

def wire (p : Piece) : List UInt8 := p.type :: p.length :: p.value

theorem length_wire (p : Piece) : p.wire.length = 2 + p.length.toNat := by
  rw [wire, List.length_cons, List.length_cons, p.complete]
  omega

/-- The lengths the protocol allows: enough for the fixed fields of the
type. -/
def Allowed (p : Piece) : Prop :=
  match TlvType.ofByte p.type with
  | some .pad1 => p.length.toNat = 0
  | some .hello => p.length.toNat = 8 ∨ 16 ≤ p.length.toNat
  | some .neighbour => 18 ≤ p.length.toNat
  | some .data => 13 ≤ p.length.toNat
  | some .ack => 12 ≤ p.length.toNat
  | some .goAway => 1 ≤ p.length.toNat
  | _ => True

/-- The lengths at which nothing of the value is left over: no Hello longer
than the long one, no Neighbour or Ack longer than its fields, and no value
for a type the decoder does not know. -/
def Exact (p : Piece) : Prop :=
  match TlvType.ofByte p.type with
  | some .hello => p.length.toNat ≤ 16
  | some .neighbour => p.length.toNat ≤ 18
  | some .ack => p.length.toNat ≤ 12
  | none => p.length.toNat = 0
  | _ => True

/-- The reader of an allowed piece stays inside its value. -/
theorem valueLen_le {p : Piece} (h : p.Allowed) :
    valueLen p.type p.length ≤ p.length.toNat := by
  have hlt := p.length.toNat_lt
  unfold Allowed at h
  unfold valueLen dataLenOf
  cases ht : TlvType.ofByte p.type with
  | none => exact Nat.zero_le _
  | some k => cases k <;> simp only [ht] at h ⊢ <;> (try split) <;> omega

/-- It goes over the whole of it exactly when nothing is left over. -/
theorem valueLen_eq_iff {p : Piece} (h : p.Allowed) :
    valueLen p.type p.length = p.length.toNat ↔ p.Exact := by
  have hlt := p.length.toNat_lt
  unfold Allowed at h
  unfold valueLen dataLenOf Exact
  cases ht : TlvType.ofByte p.type with
  | none => exact eq_comm
  | some k =>
    cases k <;> simp only [ht, iff_true] at h ⊢ <;> (try split) <;> omega

end Piece

/-- What a decoded TLV owes the piece it comes from: the type, the length,
and that the piece's own bytes decode to it. -/
def DecodedFrom (mc : Machine) (t : Tlv) (p : Piece) : Prop :=
  t.type = p.type ∧ t.length = p.length
    ∧ ∃ b, dserialTlv mc (newDsbuff p.wire) = some (t, b)

/-- **The decoder respects the framing** of a datagram of the pieces `ps`: it
returns one TLV per piece, in order and in the slots it allocated, each
decoded from its own piece. -/
def RespectsFraming (mc : Machine) (magic version hi lo : UInt8) (ps : List Piece) :
    Prop :=
  ∃ m b, dserialMsg mc
      (newDsbuff (magic :: version :: hi :: lo :: ps.flatMap Piece.wire)) = some (m, b)
    ∧ m.tlvNb = ps.length ∧ m.InSlots ∧ List.Forall₂ (DecodedFrom mc) m.body ps

/-- Framed bytes are as long as their TLVs' readers go. -/
theorem Framing.length_eq {bs : List UInt8} {ts : List Tlv} (h : Framing bs ts) :
    bs.length = (ts.map (fun t => 2 + valueLen t.type t.length)).sum := by
  induction h with
  | nil => rfl
  | cons hvs _ ih =>
    rename_i type length vs rest ts _
    rw [List.map_cons, List.sum_cons, ← ih]
    simp only [List.length_cons, List.length_append, hvs, tlvOf]
    omega

/-- The pieces the decoder reads exactly are framed into the TLVs made of
them. -/
theorem framing_flatMap_wire {ps : List Piece}
    (h : ∀ p ∈ ps, valueLen p.type p.length = p.length.toNat) :
    Framing (ps.flatMap Piece.wire)
      (ps.map (fun p => tlvOf p.type p.length p.value)) := by
  induction ps with
  | nil => exact .nil
  | cons p ps ih =>
    rw [List.flatMap_cons, List.map_cons]
    have hp : p.value.length = valueLen p.type p.length :=
      p.complete.trans (h p List.mem_cons_self).symm
    exact .cons hp (ih (fun q hq => h q (List.mem_cons_of_mem p hq)))

/-- A piece the decoder reads exactly decodes, by itself, to the TLV made of
it. -/
theorem decodedFrom_tlvOf (mc : Machine) {p : Piece}
    (h : valueLen p.type p.length = p.length.toNat) :
    DecodedFrom mc (tlvOf p.type p.length p.value) p := by
  refine ⟨rfl, rfl, (newDsbuff p.wire).skip (2 + valueLen p.type p.length), ?_⟩
  have hlen : p.value.length = valueLen p.type p.length := p.complete.trans h.symm
  rw [dserialTlv_eq mc (b := newDsbuff p.wire) rfl, if_pos hlen.ge,
    List.take_of_length_le hlen.le]

/-- **On complete TLVs of the allowed lengths the decoder respects the framing
exactly when no piece is longer than its reader.** One that is leaves bytes
the decoder has to account for with further TLVs, so the TLVs it returns
cannot be the pieces. -/
theorem respectsFraming_iff (mc : Machine) (magic version hi lo : UInt8)
    (ps : List Piece) (hlen : ps.length ≤ 64) (hps : ∀ p ∈ ps, p.Allowed) :
    RespectsFraming mc magic version hi lo ps ↔ ∀ p ∈ ps, p.Exact := by
  constructor
  · rintro ⟨m, b, hm, -, -, hall⟩
    obtain ⟨_, _, _, _, rest, ts, hd, hf, -, rfl⟩ := (dserialMsg_iff mc _ m b).mp hm
    simp only [List.cons.injEq] at hd
    obtain ⟨-, -, -, -, rfl⟩ := hd
    -- the readers go over all the bytes, so no piece's can fall short of it
    replace hall : List.Forall₂ (DecodedFrom mc) ts ps := hall
    have hread : (ts.map (fun t => 2 + valueLen t.type t.length)).sum
        = (ps.map (fun p => 2 + valueLen p.type p.length)).sum := by
      refine congrArg List.sum ?_
      clear hm hf hlen hps
      induction hall with
      | nil => rfl
      | cons hp _ ih => rw [List.map_cons, List.map_cons, ih, hp.1, hp.2.1]
    have hbytes : (ps.flatMap Piece.wire).length
        = (ps.map (fun p => 2 + p.length.toNat)).sum := by
      rw [List.length_flatMap]
      exact congrArg List.sum (List.map_congr_left (fun p _ => p.length_wire))
    have hsum := hf.length_eq
    rw [hread, hbytes] at hsum
    by_contra hex
    push Not at hex
    obtain ⟨p, hp, hexact⟩ := hex
    have hlt : valueLen p.type p.length < p.length.toNat :=
      lt_of_le_of_ne (Piece.valueLen_le (hps p hp))
        (fun h => hexact ((Piece.valueLen_eq_iff (hps p hp)).mp h))
    have := List.sum_lt_sum (fun p : Piece => 2 + valueLen p.type p.length)
      (fun p => 2 + p.length.toNat)
      (fun q hq => Nat.add_le_add_left (Piece.valueLen_le (hps q hq)) 2)
      ⟨p, hp, Nat.add_lt_add_left hlt 2⟩
    omega
  · intro hex
    have hval : ∀ p ∈ ps, valueLen p.type p.length = p.length.toNat :=
      fun p hp => (Piece.valueLen_eq_iff (hps p hp)).mpr (hex p hp)
    refine ⟨_, _, (dserialMsg_iff mc _ _ _).mpr ⟨magic, version, hi, lo, _, _, rfl,
      framing_flatMap_wire hval, rfl, rfl⟩, List.length_map _,
      (List.length_map _).trans_le hlen, ?_⟩
    refine List.forall₂_map_left_iff.mpr (List.forall₂_same.mpr (fun p hp => ?_))
    exact decodedFrom_tlvOf mc (hval p hp)

/-- A datagram of one short Hello and one Pad1, which the decoder respects. -/
theorem respectsFraming_hello_pad1 :
    RespectsFraming ⟨.little, fun _ => 0⟩ 93 2 0 12
        [⟨2, 8, [0, 0, 0, 0, 0, 0, 0, 7], rfl⟩, ⟨0, 0, [], rfl⟩]
      ↔ ∀ p ∈ [(⟨2, 8, [0, 0, 0, 0, 0, 0, 0, 7], rfl⟩ : Piece), ⟨0, 0, [], rfl⟩],
          p.Exact :=
  respectsFraming_iff _ 93 2 0 12 _ (by decide) (by
    intro p hp
    rcases List.mem_cons.mp hp with rfl | hp
    · exact Or.inl rfl
    · rw [List.mem_singleton.mp hp]
      rfl)

/-- A TLV of the unknown type 9 with the two value bytes `0, 0`, which the
decoder takes for a Pad1. -/
theorem not_respectsFraming_unknown :
    ¬ ∀ (mc : Machine) (magic version hi lo : UInt8) (ps : List Piece),
        ps.length ≤ 64 → (∀ p ∈ ps, p.Allowed) →
          RespectsFraming mc magic version hi lo ps := by
  intro h
  obtain ⟨m, b, hm, hnb, -⟩ := h ⟨.little, fun _ => 0⟩ 93 2 0 4 [⟨9, 2, [0, 0], rfl⟩]
    (by decide) (by
      intro p hp
      rw [List.mem_singleton.mp hp]
      trivial)
  have htwo : (dserialMsg ⟨.little, fun _ => 0⟩
      (newDsbuff [93, 2, 0, 4, 9, 2, 0, 0])).map (fun p => p.1.tlvNb) = some 2 := by
    decide
  have hone : (dserialMsg ⟨.little, fun _ => 0⟩
      (newDsbuff [93, 2, 0, 4, 9, 2, 0, 0])).map (fun p => p.1.tlvNb) = some 1 :=
    (congrArg _ hm).trans (congrArg some hnb)
  rw [htwo] at hone
  cases hone

end Miaouchat
