import Mathlib
/-!
# Octets — numbers and stretches in byte strings

Big-endian numbers of a given width, and writing a stretch of bytes into a buffer at an offset.
-/
namespace Octets

/-- The last `width` digits of a number to the base 256, the highest first. -/
def bigEndian : Nat → Nat → List UInt8
  | 0, _ => []
  | width + 1, n => bigEndian width (n / 256) ++ [UInt8.ofNat n]

def ofBigEndian (bytes : List UInt8) : Nat := bytes.foldl (fun n byte => n * 256 + byte.toNat) 0

@[simp] theorem length_bigEndian (width n : Nat) : (bigEndian width n).length = width := by
  induction width generalizing n with
  | zero => rfl
  | succ width ih => simp [bigEndian, ih]

theorem ofBigEndian_concat (bytes : List UInt8) (byte : UInt8) :
    ofBigEndian (bytes ++ [byte]) = ofBigEndian bytes * 256 + byte.toNat := by
  simp [ofBigEndian]

theorem ofBigEndian_bigEndian {width n : Nat} (h : n < 256 ^ width) : ofBigEndian (bigEndian width n) = n := by
  induction width generalizing n with
  | zero =>
    rw [Nat.pow_zero] at h
    have : n = 0 := by omega
    subst this
    rfl
  | succ width ih =>
    have hdiv : n / 256 < 256 ^ width := by
      rw [Nat.div_lt_iff_lt_mul (by decide)]
      rwa [Nat.pow_succ] at h
    rw [bigEndian, ofBigEndian_concat, ih hdiv, UInt8.toNat_ofNat']
    omega

theorem ofBigEndian_lt (bytes : List UInt8) : ofBigEndian bytes < 256 ^ bytes.length := by
  induction bytes using List.reverseRecOn with
  | nil => decide
  | append_singleton bytes byte ih =>
    have hbyte := byte.toNat_lt
    rw [ofBigEndian_concat, List.length_append, List.length_singleton, Nat.pow_succ]
    omega

theorem bigEndian_ofBigEndian (bytes : List UInt8) : bigEndian bytes.length (ofBigEndian bytes) = bytes := by
  induction bytes using List.reverseRecOn with
  | nil => rfl
  | append_singleton bytes byte ih =>
    have hbyte := byte.toNat_lt
    have hdiv : (ofBigEndian bytes * 256 + byte.toNat) / 256 = ofBigEndian bytes := by omega
    have hmod : UInt8.ofNat (ofBigEndian bytes * 256 + byte.toNat) = byte := by
      rw [← UInt8.toNat_inj, UInt8.toNat_ofNat']
      omega
    rw [ofBigEndian_concat, List.length_append, List.length_singleton, bigEndian, hdiv, hmod, ih]

def write (buffer : List UInt8) (offset : Nat) (bytes : List UInt8) : List UInt8 :=
  buffer.take offset ++ bytes ++ buffer.drop (offset + bytes.length)

theorem write_append (front area back bytes : List UInt8) (h : area.length = bytes.length) :
    write (front ++ (area ++ back)) front.length bytes = front ++ (bytes ++ back) := by
  have hdrop : (front ++ (area ++ back)).drop (front.length + bytes.length) = back := by
    rw [← List.append_assoc, ← h, ← List.length_append, List.drop_left]
  rw [write, List.take_left, hdrop, List.append_assoc]

theorem write_behind (front rest bytes : List UInt8) (h : bytes.length ≤ rest.length) :
    write (front ++ rest) front.length bytes = front ++ (bytes ++ rest.drop bytes.length) := by
  have hrest : front ++ rest = front ++ (rest.take bytes.length ++ rest.drop bytes.length) := by
    rw [List.take_append_drop]
  rw [hrest, write_append]
  rw [List.length_take]
  omega

end Octets
