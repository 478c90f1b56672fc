import Mathlib.Data.List.Basic
import Mathlib.Tactic

/-!
# Byte strings

Buffers are lists of bytes. `slice` is what a copy reads, `overwrite` is what it leaves in
the destination, and the `be`/`le` readers are the two byte orders in which fixed-width
fields are stored. `add32` and `sub32` are the arithmetic of an unsigned 32-bit length.
-/

namespace VoipMonitor.Library

abbrev Bytes := List UInt8

def byteAt (b : Bytes) (o : Nat) : Nat := (b.getD o 0).toNat

def be16 (b : Bytes) (o : Nat) : Nat := byteAt b o * 256 + byteAt b (o + 1)

def be24 (b : Bytes) (o : Nat) : Nat := byteAt b o * 65536 + be16 b (o + 1)

def be32 (b : Bytes) (o : Nat) : Nat := be16 b o * 65536 + be16 b (o + 2)

def encodeBe16 (n : Nat) : Bytes := [UInt8.ofNat (n / 256), UInt8.ofNat n]

def encodeBe24 (n : Nat) : Bytes := UInt8.ofNat (n / 65536) :: encodeBe16 n

def encodeBe32 (n : Nat) : Bytes := encodeBe16 (n / 65536) ++ encodeBe16 n

/-- The number stored in little-endian order. -/
def leNat : Bytes → Nat
  | [] => 0
  | c :: b => c.toNat + 256 * leNat b

def encodeLe : Nat → Nat → Bytes
  | 0, _ => []
  | k + 1, n => UInt8.ofNat n :: encodeLe k (n / 256)

/-- The bytes a copy of `n` bytes from offset `o` reads; nothing is read past the end. -/
def slice (b : Bytes) (o n : Nat) : Bytes := (b.drop o).take n

def overwrite (dst : Bytes) (o : Nat) (src : Bytes) : Bytes :=
  dst.take o ++ src ++ dst.drop (o + src.length)

def add32 (a b : Nat) : Nat := (a + b) % 2 ^ 32

def sub32 (a b : Nat) : Nat := (a + (2 ^ 32 - b % 2 ^ 32)) % 2 ^ 32

lemma byteAt_lt (p : Bytes) (o : Nat) : byteAt p o < 256 := UInt8.toNat_lt _

lemma be16_lt (p : Bytes) (o : Nat) : be16 p o < 65536 := by
  have hhigh := byteAt_lt p o
  have hlow := byteAt_lt p (o + 1)
  unfold be16
  omega

lemma be24_lt (p : Bytes) (o : Nat) : be24 p o < 2 ^ 24 := by
  have hhigh := byteAt_lt p o
  have hlow := be16_lt p (o + 1)
  rw [be24]
  omega

lemma add32_eq {a b : Nat} (h : a + b < 2 ^ 32) : add32 a b = a + b := Nat.mod_eq_of_lt h

lemma sub32_eq {a b : Nat} (ha : a < 2 ^ 32) (h : b ≤ a) : sub32 a b = a - b := by
  unfold sub32
  omega

lemma sub32_add32 {a b c : Nat} (hc : c ≤ b) (h : a + (b - c) < 2 ^ 32) :
    sub32 (add32 a b) c = a + (b - c) := by
  unfold sub32 add32
  omega

@[simp] lemma length_encodeLe (k n : Nat) : (encodeLe k n).length = k := by
  induction k generalizing n with
  | zero => rfl
  | succ k ih => simp [encodeLe, ih]

lemma leNat_encodeLe {k n : Nat} (h : n < 256 ^ k) : leNat (encodeLe k n) = n := by
  induction k generalizing n with
  | zero =>
    rw [pow_zero] at h
    rw [encodeLe, leNat]
    omega
  | succ k ih =>
    have hdiv : n / 256 < 256 ^ k := by
      rw [Nat.div_lt_iff_lt_mul (by norm_num)]
      rwa [pow_succ] at h
    rw [encodeLe, leNat, ih hdiv, UInt8.toNat_ofNat']
    omega

lemma length_slice {b : Bytes} {o n : Nat} (h : o + n ≤ b.length) : (slice b o n).length = n := by
  simp only [slice, List.length_take, List.length_drop]
  omega

lemma slice_append_left {a : Bytes} {o n : Nat} (h : o + n ≤ a.length) (r : Bytes) :
    slice (a ++ r) o n = slice a o n := by
  rw [slice, slice, List.drop_append_of_le_length (by omega),
    List.take_append_of_le_length (by rw [List.length_drop]; omega)]

lemma slice_append_right (a r : Bytes) (o n : Nat) :
    slice (a ++ r) (a.length + o) n = slice r o n := by
  rw [slice, slice, List.drop_length_add_append]

lemma slice_append_slice (b : Bytes) (o n m : Nat) :
    slice b o n ++ slice b (o + n) m = slice b o (n + m) := by
  simp only [slice, List.take_add, List.drop_drop]

lemma overwrite_take {dst written src : Bytes} {o : Nat} (h : dst.take o = written)
    (ho : written.length = o) : (overwrite dst o src).take (o + src.length) = written ++ src := by
  have hl : (dst.take o ++ src).length = o + src.length := by
    rw [h, List.length_append, ho]
  rw [overwrite, ← hl, List.take_left', h]
  rfl

lemma length_overwrite {dst src : Bytes} {o : Nat} (h : o + src.length ≤ dst.length) :
    (overwrite dst o src).length = dst.length := by
  simp only [overwrite, List.length_append, List.length_take, List.length_drop]
  omega

lemma overwrite_append_right (l r src : Bytes) (o : Nat) :
    overwrite (l ++ r) (l.length + o) src = l ++ overwrite r o src := by
  rw [overwrite, overwrite, Nat.add_assoc, List.take_length_add_append, List.drop_length_add_append]
  simp

lemma overwrite_append_left {l src : Bytes} {o : Nat} (h : o + src.length ≤ l.length) (r : Bytes) :
    overwrite (l ++ r) o src = overwrite l o src ++ r := by
  rw [overwrite, overwrite, List.take_append_of_le_length (by omega),
    List.drop_append_of_le_length h]
  simp

lemma byteAt_overwrite_before {dst src : Bytes} {o i : Nat} (hi : i < o) (h : i < dst.length) :
    byteAt (overwrite dst o src) i = byteAt dst i := by
  have hl : i < (dst.take o).length := by
    rw [List.length_take]
    omega
  unfold byteAt overwrite
  rw [List.getD_eq_getElem?_getD, List.getD_eq_getElem?_getD, List.append_assoc,
    List.getElem?_append_left hl, List.getElem?_take_of_lt hi]

lemma byteAt_overwrite_behind {dst src : Bytes} {o i : Nat} (h : o + src.length ≤ dst.length)
    (hi : o + src.length ≤ i) : byteAt (overwrite dst o src) i = byteAt dst i := by
  have hl : (dst.take o ++ src).length = o + src.length := by
    rw [List.length_append, List.length_take]
    omega
  unfold byteAt overwrite
  rw [List.getD_eq_getElem?_getD, List.getD_eq_getElem?_getD, List.getElem?_append_right (by omega),
    List.getElem?_drop, hl]
  congr 3
  omega

lemma byteAt_overwrite_at {dst src : Bytes} {o i : Nat} (h : o ≤ dst.length) (hi : i < src.length) :
    byteAt (overwrite dst o src) (o + i) = byteAt src i := by
  have hl : (dst.take o).length = o := by
    rw [List.length_take]
    omega
  unfold byteAt overwrite
  rw [List.getD_eq_getElem?_getD, List.getD_eq_getElem?_getD, List.append_assoc,
    List.getElem?_append_right (by omega), hl, Nat.add_sub_cancel_left, List.getElem?_append_left hi]

lemma be16_overwrite_encodeBe16 {dst : Bytes} {o n : Nat} (h : o ≤ dst.length) (hn : n < 2 ^ 16) :
    be16 (overwrite dst o (encodeBe16 n)) o = n := by
  have hhigh : byteAt (overwrite dst o (encodeBe16 n)) (o + 0) = n / 256 % 256 :=
    (byteAt_overwrite_at h (by decide : 0 < 2)).trans UInt8.toNat_ofNat'
  have hlow : byteAt (overwrite dst o (encodeBe16 n)) (o + 1) = n % 256 :=
    (byteAt_overwrite_at h (by decide : 1 < 2)).trans UInt8.toNat_ofNat'
  rw [Nat.add_zero] at hhigh
  rw [be16, hhigh, hlow]
  omega

lemma byteAt_slice_append {b r : Bytes} {n o : Nat} (hn : n ≤ b.length) (ho : o < n) :
    byteAt (slice b 0 n ++ r) o = byteAt b o := by
  have hl : o < (slice b 0 n).length := by
    rw [length_slice (by omega)]
    exact ho
  unfold byteAt
  rw [List.getD_eq_getElem?_getD, List.getD_eq_getElem?_getD, List.getElem?_append_left hl]
  simp [slice, ho]

/-! Fields at the start of a byte string do not depend on what follows. -/

lemma byteAt_of_isPrefix {a b : Bytes} {o : Nat} (h : a <+: b) (ho : o < a.length) :
    byteAt a o = byteAt b o := by
  obtain ⟨r, rfl⟩ := h
  unfold byteAt
  rw [List.getD_eq_getElem?_getD, List.getD_eq_getElem?_getD, List.getElem?_append_left ho]

lemma be16_of_isPrefix {a b : Bytes} {o : Nat} (h : a <+: b) (ho : o + 1 < a.length) :
    be16 a o = be16 b o := by
  rw [be16, be16, byteAt_of_isPrefix h (by omega), byteAt_of_isPrefix h ho]

lemma be16_encodeBe16 {n : Nat} (h : n < 2 ^ 16) (r : Bytes) : be16 (encodeBe16 n ++ r) 0 = n := by
  have hhigh : byteAt (encodeBe16 n ++ r) 0 = n / 256 % 256 := UInt8.toNat_ofNat'
  have hlow : byteAt (encodeBe16 n ++ r) 1 = n % 256 := UInt8.toNat_ofNat'
  rw [be16, hhigh, hlow]
  omega

lemma byteAt_append_right (a b : Bytes) (o : Nat) : byteAt (a ++ b) (a.length + o) = byteAt b o := by
  unfold byteAt
  rw [List.getD_eq_getElem?_getD, List.getD_eq_getElem?_getD,
    List.getElem?_append_right (Nat.le_add_right _ _), Nat.add_sub_cancel_left]

lemma be16_append_right (a b : Bytes) (o : Nat) : be16 (a ++ b) (a.length + o) = be16 b o := by
  rw [be16, be16, byteAt_append_right, Nat.add_assoc, byteAt_append_right]

lemma be24_encodeBe24 {n : Nat} (h : n < 2 ^ 24) (r : Bytes) : be24 (encodeBe24 n ++ r) 0 = n := by
  have htop : byteAt (encodeBe24 n ++ r) 0 = n / 65536 % 256 := UInt8.toNat_ofNat'
  have hhigh : byteAt (encodeBe24 n ++ r) 1 = n / 256 % 256 := UInt8.toNat_ofNat'
  have hlow : byteAt (encodeBe24 n ++ r) 2 = n % 256 := UInt8.toNat_ofNat'
  rw [be24, be16, htop, hhigh, hlow]
  omega

lemma be32_encodeBe32 {n : Nat} (h : n < 2 ^ 32) (r : Bytes) : be32 (encodeBe32 n ++ r) 0 = n := by
  have h0 : byteAt (encodeBe32 n ++ r) 0 = n / 65536 / 256 % 256 := UInt8.toNat_ofNat'
  have h1 : byteAt (encodeBe32 n ++ r) 1 = n / 65536 % 256 := UInt8.toNat_ofNat'
  have h2 : byteAt (encodeBe32 n ++ r) 2 = n / 256 % 256 := UInt8.toNat_ofNat'
  have h3 : byteAt (encodeBe32 n ++ r) 3 = n % 256 := UInt8.toNat_ofNat'
  rw [be32, be16, be16, h0, h1, h2, h3]
  omega

end VoipMonitor.Library
