import Miaouchat.Framing

/-!
# Decoding and then encoding

What the encoder makes of a message the decoder returned. For the types of
fixed layout it is the bytes the decoder read: reader and writer go over the
same number of bytes under the same condition on the length byte, whatever that
byte is, and a type neither of them knows has no value for either.

The bytes of a PadN are read and forgotten, and written as zeroes. The types
with a payload are written through `serial_str`, which copies other memory, and
are left out here.
-/

namespace Miaouchat

open Bytes

/-- **The bytes of every PadN are zero**, in bytes divided the way the readers
of the decoder do. -/
inductive PadnZeroed : List UInt8 → Prop
  | nil : PadnZeroed []
  | cons {type length : UInt8} {vs rest : List UInt8}
      (hvs : vs.length = valueLen type length)
      (hpadn : type = TlvType.padn.code → ∀ v ∈ vs, v = 0) (hrest : PadnZeroed rest) :
      PadnZeroed (type :: length :: (vs ++ rest))

/-- Only its own code announces a type. -/
theorem TlvType.eq_code_of_ofByte {t : UInt8} {k : TlvType} (h : TlvType.ofByte t = some k) :
    t = k.code := by
  unfold TlvType.ofByte at h
  split at h <;> cases h <;> exact UInt8.toNat_inj.mp ‹_›

/-- **The type has no payload**: it is not Neighbour, Data or Warning, nor a
GoAway with a message. -/
def Plain (type length : UInt8) : Prop :=
  match TlvType.ofByte type with
  | some .neighbour | some .data | some .warning => False
  | some .goAway => length.toNat ≤ 1
  | _ => True

/-- **What is written for a TLV without payload is what was read.** -/
theorem wire_tlvOf (e : Endian) (fr : Frame) {type length : UInt8} {vs : List UInt8}
    (hvs : vs.length = valueLen type length) (hplain : Plain type length)
    (hpadn : type = TlvType.padn.code → ∀ v ∈ vs, v = 0) :
    (tlvOf type length vs).wire e fr = type :: length :: vs := by
  refine congrArg (fun ws => type :: length :: ws) ?_
  show (bodyOf type length vs).wire e fr = vs
  unfold bodyOf
  unfold valueLen at hvs
  unfold Plain at hplain
  cases ht : TlvType.ofByte type with
  | none =>
    rw [ht] at hvs
    exact (List.length_eq_zero_iff.mp hvs).symm
  | some k =>
    rw [ht] at hvs hplain
    cases k with
    | pad1 => exact (List.length_eq_zero_iff.mp hvs).symm
    | padn =>
      have hcode : type = TlvType.padn.code := TlvType.eq_code_of_ofByte ht
      show List.replicate (UInt32.ofNat length.toNat).toNat 0 = vs
      have hlt := length.toNat_lt
      rw [UInt32.toNat_ofNat', Nat.mod_eq_of_lt (by omega),
        ← show vs.length = length.toNat from hvs]
      exact (List.eq_replicate_of_mem (hpadn hcode)).symm
    | hello =>
      replace hvs : vs.length = if length.toNat > 8 then 16 else 8 := hvs
      by_cases hlong : length.toNat > 8
      · rw [if_pos hlong] at hvs
        simp only [hlong, decide_true, newHelloBody, TlvBody.wire, if_true]
        rw [beBytes_ofBE_long (by rw [List.length_take, hvs]; rfl),
          beBytes_ofBE_long (by rw [List.length_drop, hvs]), List.take_append_drop]
      · rw [if_neg hlong] at hvs
        simp only [hlong, decide_false, newHelloBody, TlvBody.wire, Bool.false_eq_true, if_false]
        rw [List.take_of_length_le hvs.le, beBytes_ofBE_long hvs, List.append_nil]
    | ack =>
      replace hvs : vs.length = 12 := hvs
      show beBytes 8 (UInt64.ofNat (ofBE (vs.take 8))).toNat
        ++ beBytes 4 (UInt32.ofNat (ofBE (vs.drop 8))).toNat = vs
      rw [beBytes_ofBE_long (by rw [List.length_take, hvs]; rfl),
        beBytes_ofBE_int (by rw [List.length_drop, hvs]), List.take_append_drop]
    | goAway =>
      replace hplain : length.toNat ≤ 1 := hplain
      replace hvs : vs.length = if length.toNat > 1 then length.toNat else 1 := hvs
      rw [if_neg (by omega)] at hvs
      obtain ⟨code, rfl⟩ := List.length_eq_one_iff.mp hvs
      have hno : ¬ length.toNat - 1 > 0 := by omega
      simp [newGoAwayBody, TlvBody.wire, hno]
    | neighbour | data | warning => exact hplain.elim

/-- What is written for a sequence of such TLVs is what was read. -/
theorem tlvsWire_of_framing (e : Endian) (fr : ℕ → Frame) (i : ℕ) {bs : List UInt8}
    {ts : List Tlv} (h : Framing bs ts) (hplain : ∀ t ∈ ts, Plain t.type t.length)
    (hzero : PadnZeroed bs) : tlvsWire e fr i ts = bs := by
  induction h generalizing i with
  | nil => rfl
  | cons hvs _ ih =>
    rename_i type length vs rest ts _
    generalize hbs : type :: length :: (vs ++ rest) = bs at hzero
    cases hzero with
    | nil => cases hbs
    | cons hvs' hpadn hrest =>
      rename_i type' length' vs' rest'
      simp only [List.cons.injEq] at hbs
      obtain ⟨rfl, rfl, happend⟩ := hbs
      obtain ⟨rfl, rfl⟩ := List.append_inj happend (hvs.trans hvs'.symm)
      rw [tlvsWire, wire_tlvOf e (fr i) hvs (hplain _ List.mem_cons_self) hpadn,
        ih (i + 1) (fun t ht => hplain t (List.mem_cons_of_mem _ ht)) hrest]
      rfl

/-- **Encoding undoes decoding** on datagrams whose types have no payload and
whose PadN are zero: the encoder, on any host, writes the datagram that was
decoded. Decoding leaves the cursor at the end of the datagram whenever it has
an outcome. -/
theorem serialMsg_dserialMsg (mc mc' : Machine) (fr : ℕ → Frame) {d : List UInt8} {m : Msg}
    {b : Dsbuff} (hm : dserialMsg mc (newDsbuff d) = some (m, b))
    (hplain : ∀ t ∈ m.body, Plain t.type t.length) (hzero : PadnZeroed (d.drop 4)) :
    b.next = d.length ∧ (serialMsg mc' fr m (newSbuff mc')).written = d := by
  obtain ⟨magic, version, hi, lo, rest, ts, rfl, hf, rfl, rfl⟩ := (dserialMsg_iff mc d m b).mp hm
  refine ⟨(Cursor.next_skip ..).trans (Nat.zero_add _), ?_⟩
  rw [written_serialMsg, written_newSbuff,
    show UInt16.ofNat (ofBE [hi, lo]) = _ from rfl, beBytes_ofBE_short rfl,
    tlvsWire_of_framing mc'.endian fr 0 hf hplain hzero]
  rfl

/-- A datagram of a PadN, a Hello with the length byte 3, a TLV of the unknown
type 9 and a GoAway with the length byte 0. -/
theorem serialMsg_dserialMsg_odd :
    ((newDsbuff [1, 2, 3, 4, 1, 1, 0, 2, 3, 0, 0, 0, 0, 0, 0, 0, 7, 9, 200, 6, 0, 5]).skip
        22).next
        = ([1, 2, 3, 4, 1, 1, 0, 2, 3, 0, 0, 0, 0, 0, 0, 0, 7, 9, 200, 6, 0, 5] : List UInt8).length
      ∧ (serialMsg ⟨.big, fun _ => 0⟩ (fun _ => ⟨0, fun _ => 0⟩)
          ⟨1, 2, 772, 4, [tlvOf 1 1 [0], tlvOf 2 3 [0, 0, 0, 0, 0, 0, 0, 7], tlvOf 9 200 [],
            tlvOf 6 0 [5]]⟩ (newSbuff ⟨.big, fun _ => 0⟩)).written
        = [1, 2, 3, 4, 1, 1, 0, 2, 3, 0, 0, 0, 0, 0, 0, 0, 7, 9, 200, 6, 0, 5] :=
  serialMsg_dserialMsg ⟨.little, fun _ => 0⟩ ⟨.big, fun _ => 0⟩ _ (by decide)
    (by simp [tlvOf, Plain, TlvType.ofByte])
    (by
      refine @PadnZeroed.cons 1 1 [0] _ rfl (fun _ => by simp) ?_
      refine @PadnZeroed.cons 2 3 [0, 0, 0, 0, 0, 0, 0, 7] _ rfl (absurd · (by decide)) ?_
      refine @PadnZeroed.cons 9 200 [] _ rfl (absurd · (by decide)) ?_
      exact @PadnZeroed.cons 6 0 [5] _ rfl (absurd · (by decide)) .nil)

end Miaouchat
