import Mathlib.Data.List.Basic
import Mathlib.Algebra.Order.Ring.Nat

/-! Integers in byte lists, little-endian where not stated otherwise. Bytes behind the end of a list read as zero. -/

namespace Bytes

def readLE : List UInt8 → Nat
  | [] => 0
  | b :: bs => b.toNat + 256 * readLE bs

def leBytes : Nat → Nat → List UInt8
  | 0, _ => []
  | k + 1, v => UInt8.ofNat v :: leBytes k (v / 256)

def slice (off k : Nat) (bs : List UInt8) : List UInt8 := (bs.drop off).take k

def uint (off k : Nat) (bs : List UInt8) : Nat := readLE (slice off k bs)

def uintBe (off k : Nat) (bs : List UInt8) : Nat := readLE ((slice off k bs).rightpad k 0).reverse

def sint (off k : Nat) (bs : List UInt8) : Int := Int.bmod (uint off k bs) (256 ^ k)

@[simp] theorem length_leBytes (k v : Nat) : (leBytes k v).length = k := by
  induction k generalizing v with
  | zero => rfl
  | succ k ih => simp [leBytes, ih]

theorem readLE_leBytes (k v : Nat) : readLE (leBytes k v) = v % 256 ^ k := by
  induction k generalizing v with
  | zero => simp [leBytes, readLE, Nat.mod_one]
  | succ k ih =>
    have hstep : v % 256 ^ (k + 1) = v % 256 + 256 * (v / 256 % 256 ^ k) := by
      rw [pow_succ', Nat.mod_mul]
    simp only [leBytes, readLE, ih, UInt8.toNat_ofNat', hstep]

theorem readLE_lt (bs : List UInt8) : readLE bs < 256 ^ bs.length := by
  induction bs with
  | nil => simp [readLE]
  | cons b bs ih =>
    have hb := b.toNat_lt
    simp only [readLE, List.length_cons, pow_succ']
    omega

theorem slice_append_left {bs : List UInt8} {off k : Nat} (h : off + k ≤ bs.length)
    (rest : List UInt8) : slice off k (bs ++ rest) = slice off k bs := by
  unfold slice
  rw [List.drop_append_of_le_length (by omega), List.take_append_of_le_length (by simp; omega)]

theorem uint_append_left {bs : List UInt8} {off k : Nat} (h : off + k ≤ bs.length)
    (rest : List UInt8) : uint off k (bs ++ rest) = uint off k bs := by
  rw [uint, slice_append_left h, uint]

theorem uint_prefix_leBytes (pre rest : List UInt8) {k v : Nat} (hv : v < 256 ^ k) :
    uint pre.length k (pre ++ leBytes k v ++ rest) = v := by
  have hslice : slice pre.length k (pre ++ leBytes k v ++ rest) = leBytes k v := by
    unfold slice
    rw [List.append_assoc, List.drop_left, List.take_left' (length_leBytes k v)]
  rw [uint, hslice, readLE_leBytes, Nat.mod_eq_of_lt hv]

theorem uint_lt (off k : Nat) (bs : List UInt8) : uint off k bs < 256 ^ k := by
  refine (readLE_lt _).trans_le (Nat.pow_le_pow_right (by omega) ?_)
  simp [slice]

end Bytes
