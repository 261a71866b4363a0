import Mathlib.Algebra.Order.Ring.Nat
import Mathlib.Data.List.Basic
import Mathlib.Tactic.Ring

/-!
# Numbers in network byte order
-/

namespace TrustTunnel.Lib

open List

/-- The last `width` bytes of a number, the highest first. -/
def bigEndian : Nat → Nat → List UInt8
  | 0, _ => []
  | width + 1, n => UInt8.ofNat (n / 256 ^ width) :: bigEndian width n

def ofBigEndian (bytes : List UInt8) : Nat := bytes.foldl (fun n b => n * 256 + b.toNat) 0

lemma length_bigEndian (width n : Nat) : (bigEndian width n).length = width := by
  induction width with
  | zero => rfl
  | succ width ih => rw [bigEndian, length_cons, ih]

lemma foldl_ofBigEndian (bytes : List UInt8) (n : Nat) :
    bytes.foldl (fun n b => n * 256 + b.toNat) n = n * 256 ^ bytes.length + ofBigEndian bytes := by
  induction bytes generalizing n with
  | nil => simp [ofBigEndian]
  | cons b bytes ih =>
    rw [ofBigEndian, foldl_cons, foldl_cons, ih, ih (0 * 256 + b.toNat), length_cons,
      pow_succ]
    ring

lemma ofBigEndian_cons (b : UInt8) (bytes : List UInt8) :
    ofBigEndian (b :: bytes) = b.toNat * 256 ^ bytes.length + ofBigEndian bytes := by
  rw [ofBigEndian, foldl_cons, foldl_ofBigEndian, Nat.zero_mul, Nat.zero_add]

lemma ofBigEndian_bigEndian (width n : Nat) :
    ofBigEndian (bigEndian width n) = n % 256 ^ width := by
  induction width with
  | zero => simp [bigEndian, ofBigEndian, Nat.mod_one]
  | succ width ih =>
    have hb : (UInt8.ofNat (n / 256 ^ width)).toNat = n / 256 ^ width % 256 := UInt8.toNat_ofNat'
    rw [bigEndian, ofBigEndian_cons, ih, length_bigEndian, hb, pow_succ, Nat.mod_mul]
    ring

lemma or_eq_add (h : n < 2 ^ k) (flag : Nat) : n ||| 2 ^ k * flag = 2 ^ k * flag + n := by
  rw [Nat.or_comm]
  exact (Nat.two_pow_add_eq_or_of_lt h flag).symm

end TrustTunnel.Lib
