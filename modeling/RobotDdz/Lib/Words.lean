import Mathlib.Data.List.Basic
import Mathlib.Data.BitVec

/-!
# Words and bytes in network order

A 32-bit word is four bytes, the high one first. `ofBytes` and `toBytes` are
inverse to each other on four bytes.

The functions of the C library take and give words; what is sent is the bytes
of the word as they lie in memory. `toBytes` and `ofBytes` are the composition
of the two, so that no byte order of a machine occurs. Words are `BitVec 32`:
read as an `int` with `BitVec.toInt`, as an unsigned number with
`BitVec.toNat`.
-/

namespace Words

abbrev Byte := BitVec 8

/-- `htonl`, as the bytes in memory. -/
def toBytes (w : BitVec 32) : List Byte :=
  [w.extractLsb' 24 8, w.extractLsb' 16 8, w.extractLsb' 8 8, w.extractLsb' 0 8]

/-- `ntohl` of four bytes in memory. -/
def ofBytes : List Byte → BitVec 32
  | [a, b, c, d] => a ++ b ++ c ++ d
  | _ => 0

@[simp] theorem length_toBytes (w : BitVec 32) : (toBytes w).length = 4 := rfl

@[simp] theorem ofBytes_toBytes (w : BitVec 32) : ofBytes (toBytes w) = w := by
  apply BitVec.eq_of_getLsbD_eq
  intro i hi
  simp only [ofBytes, toBytes, BitVec.getLsbD_append, BitVec.getLsbD_extractLsb']
  grind

/-- The byte of a word that starts at bit `k`, as long as it is one of `x`'s. -/
theorem extractLsb'_append_hi {n : Nat} (x : BitVec n) (y : Byte) (k : Nat) :
    (x ++ y).extractLsb' (8 + k) 8 = x.extractLsb' k 8 := by
  apply BitVec.eq_of_getLsbD_eq
  intro i hi
  simp only [BitVec.getLsbD_extractLsb', BitVec.getLsbD_append]
  rw [if_neg (by omega), show 8 + k + i - 8 = k + i by omega]

/-- The low byte. -/
theorem extractLsb'_append_lo {n : Nat} (x : BitVec n) (y : Byte) :
    (x ++ y).extractLsb' 0 8 = y := by
  apply BitVec.eq_of_getLsbD_eq
  intro i hi
  simp only [BitVec.getLsbD_extractLsb', BitVec.getLsbD_append]
  rw [if_pos (by omega), Nat.zero_add]
  simp [hi]

/-- Four bytes make a word with these bytes. The other direction is
`ofBytes_toBytes`. -/
theorem toBytes_ofBytes {l : List Byte} (h : l.length = 4) : toBytes (ofBytes l) = l := by
  match l, h with
  | [a, b, c, d], _ =>
    have ha : (a ++ b ++ c ++ d).extractLsb' 24 8 = a := by
      rw [extractLsb'_append_hi _ d 16, extractLsb'_append_hi _ c 8, extractLsb'_append_hi a b 0]
      simp
    have hb : (a ++ b ++ c ++ d).extractLsb' 16 8 = b := by
      rw [extractLsb'_append_hi _ d 8, extractLsb'_append_hi _ c 0, extractLsb'_append_lo]
    have hc : (a ++ b ++ c ++ d).extractLsb' 8 8 = c := by
      rw [extractLsb'_append_hi _ d 0, extractLsb'_append_lo]
    have hd : (a ++ b ++ c ++ d).extractLsb' 0 8 = d := extractLsb'_append_lo _ d
    show [(a ++ b ++ c ++ d).extractLsb' 24 8, (a ++ b ++ c ++ d).extractLsb' 16 8,
      (a ++ b ++ c ++ d).extractLsb' 8 8, (a ++ b ++ c ++ d).extractLsb' 0 8] = [a, b, c, d]
    rw [ha, hb, hc, hd]

end Words
