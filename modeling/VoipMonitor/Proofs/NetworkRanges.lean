import VoipMonitor.Model.CountryPrefixes

/-!
# The ranges of networks

The addresses of a network are the numbers with the same leading bits, and they lie from its first
address to its last one. An IPv6 number is cut into words, each with its own mask.
-/

namespace VoipMonitor.GeoIp
open VoipMonitor.Library VoipMonitor.CallsHash

def low (x j : Nat) : Nat := x / 2 ^ j * 2 ^ j

def high (x j : Nat) : Nat := low x j + (2 ^ j - 1)

variable {x y j t : Nat} {w : UInt32}

lemma between_iff : low x j ≤ y ∧ y ≤ high x j ↔ y / 2 ^ j = x / 2 ^ j := by
  have hpos : 0 < 2 ^ j := Nat.two_pow_pos j
  rw [Nat.div_eq_iff hpos, high, low, Nat.add_sub_assoc hpos]

lemma low_word (h l : Nat) (hl : l < 2 ^ 32) (j : Nat) :
    low (h * 2 ^ 32 + l) j = low h (j - 32) * 2 ^ 32 + low l (min j 32) := by
  rcases Nat.le_total j 32 with hj | hj
  · obtain ⟨k, hk⟩ := Nat.exists_eq_add_of_le hj
    have hsplit : h * 2 ^ 32 + l = l + 2 ^ j * (h * 2 ^ k) := by
      rw [hk, Nat.pow_add, Nat.add_comm, Nat.mul_left_comm]
    rw [Nat.sub_eq_zero_of_le hj, Nat.min_eq_left hj, low, low, low, hsplit,
      Nat.add_mul_div_left _ _ (Nat.two_pow_pos j), Nat.add_mul, Nat.pow_zero, Nat.div_one,
      Nat.mul_one, Nat.add_comm, Nat.mul_right_comm, hk, Nat.pow_add, Nat.mul_assoc]
  · obtain ⟨k, rfl⟩ := Nat.exists_eq_add_of_le hj
    have hzero : low l 32 = 0 := by
      rw [low, Nat.div_eq_of_lt hl, Nat.zero_mul]
    rw [Nat.add_sub_cancel_left, Nat.min_eq_right hj, hzero, low, low, Nat.pow_add,
      ← Nat.div_div_eq_div_mul, Nat.add_comm, Nat.add_mul_div_right _ _ (by decide),
      Nat.div_eq_of_lt hl, Nat.zero_add, Nat.add_zero, Nat.mul_assoc, Nat.mul_comm (2 ^ k)]

lemma high_word (h l : Nat) (hl : l < 2 ^ 32) (j : Nat) :
    high (h * 2 ^ 32 + l) j = high h (j - 32) * 2 ^ 32 + high l (min j 32) := by
  rw [high, high, high, low_word h l hl]
  rcases Nat.le_total j 32 with hj | hj
  · rw [Nat.sub_eq_zero_of_le hj, Nat.min_eq_left hj]
    omega
  · obtain ⟨k, rfl⟩ := Nat.exists_eq_add_of_le hj
    have hpos := Nat.two_pow_pos k
    rw [Nat.add_sub_cancel_left, Nat.min_eq_right hj, Nat.pow_add]
    omega

lemma and_shiftLeft (hx : x < 2 ^ 32) (ht : t ≤ 32) :
    x &&& ((2 ^ 32 - 1) <<< t % 2 ^ 32) = low x t := by
  rw [low, ← Nat.shiftRight_eq_div_pow, ← Nat.shiftLeft_eq]
  refine Nat.eq_of_testBit_eq fun i => ?_
  rw [Nat.testBit_and, Nat.testBit_mod_two_pow, Nat.testBit_shiftLeft, Nat.testBit_shiftLeft,
    Nat.testBit_shiftRight, Nat.testBit_two_pow_sub_one]
  by_cases hi : i < 32
  · by_cases hti : t ≤ i
    · have hlt : i - t < 32 := by omega
      simp [hi, hti, hlt]
    · simp [hti]
  · have hbit : x.testBit i = false := Nat.testBit_lt_two_pow
      (hx.trans_le (Nat.pow_le_pow_right (by decide) (by omega)))
    by_cases hti : t ≤ i
    · simp [hti, hbit]
    · simp [hti]

lemma or_two_pow_sub_one (x t : Nat) : x ||| (2 ^ t - 1) = high x t := by
  have hlt : 2 ^ t - 1 < 2 ^ t := Nat.sub_lt (Nat.two_pow_pos t) Nat.one_pos
  rw [high, low, ← Nat.shiftRight_eq_div_pow, ← Nat.shiftLeft_eq,
    Nat.shiftLeft_add_eq_or_of_lt hlt]
  refine Nat.eq_of_testBit_eq fun i => ?_
  rw [Nat.testBit_or, Nat.testBit_or, Nat.testBit_shiftLeft, Nat.testBit_shiftRight,
    Nat.testBit_two_pow_sub_one]
  by_cases hti : t ≤ i
  · simp [hti]
  · have hlt : i < t := by omega
    simp [hlt]

lemma low_32 (w : UInt32) : low w.toNat 32 = 0 := by
  rw [low, Nat.div_eq_of_lt w.toNat_lt, Nat.zero_mul]

lemma toNat_and_maskWord (w : UInt32) (n : Int) :
    (w &&& VmIP.maskWord n).toNat = low w.toNat (min (32 - n).toNat 32) := by
  rw [UInt32.toNat_and, VmIP.maskWord]
  split
  · have hmin : min (32 - n).toNat 32 = 32 := by omega
    rw [hmin, low_32]
    exact Nat.and_zero _
  · split
    · have hmin : min (32 - n).toNat 32 = 0 := by omega
      rw [hmin]
      exact and_shiftLeft w.toNat_lt (Nat.zero_le 32)
    · have hmin : min (32 - n).toNat 32 = (32 - n).toNat := by omega
      have hshift : (UInt32.ofNat (32 - n).toNat).toNat % 32 = (32 - n).toNat := by
        rw [UInt32.toNat_ofNat_of_lt' (by rw [UInt32.size]; omega)]
        omega
      rw [UInt32.toNat_shiftLeft, hshift, hmin]
      exact and_shiftLeft w.toNat_lt (by omega)

lemma toNat_or_wildcardWord (w : UInt32) (n : Int) :
    (w ||| VmIP.wildcardWord n).toNat = high w.toNat (min (32 - n).toNat 32) := by
  rw [UInt32.toNat_or, ← or_two_pow_sub_one, VmIP.wildcardWord]
  split
  · have hmin : min (32 - n).toNat 32 = 32 := by omega
    rw [hmin]
    rfl
  · split
    · have hmin : min (32 - n).toNat 32 = 0 := by omega
      rw [hmin]
      rfl
    · have hmin : min (32 - n).toNat 32 = (32 - n).toNat := by omega
      have hlt : 2 ^ (32 - n).toNat ≤ 2 ^ 31 := Nat.pow_le_pow_right (by decide) (by omega)
      rw [hmin, UInt32.toNat_ofNat_of_lt' (by rw [UInt32.size]; omega)]

def number : VmIP → Nat
  | .v4 n => n.toNat
  | .v6 w0 w1 w2 w3 => ((w0.toNat * 2 ^ 32 + w1.toNat) * 2 ^ 32 + w2.toNat) * 2 ^ 32 + w3.toNat

structure Range where
  ipFrom : VmIP
  ipTo : VmIP

structure Range.Contains (r : Range) (ip : VmIP) : Prop where
  version : r.ipFrom.bits = ip.bits ∧ r.ipTo.bits = ip.bits
  from_le : number r.ipFrom ≤ number ip
  le_to : number ip ≤ number r.ipTo

/-- A network with a mask length that its address has. A length of zero stands for all bits. -/
structure Network where
  ip : VmIP
  mask : Nat
  valid : mask ≤ ip.bits

namespace Network

def hostBits (n : Network) : Nat := if n.mask = 0 then 0 else n.ip.bits - n.mask

def Contains (n : Network) (ip : VmIP) : Prop :=
  n.ip.bits = ip.bits ∧ number ip / 2 ^ n.hostBits = number n.ip / 2 ^ n.hostBits

instance (n : Network) (ip : VmIP) : Decidable (n.Contains ip) :=
  inferInstanceAs (Decidable (_ ∧ _))

def range (n : Network) : Range := ⟨n.ip.network n.mask, n.ip.broadcast n.mask⟩

end Network

lemma v4_masks (a : UInt32) {mask : Nat} (hmask : mask ≤ 32) :
    (VmIP.v4 a).networkMask mask = .v4 (VmIP.maskWord (if mask = 0 then 32 else mask)) ∧
      (VmIP.v4 a).wildcardMask mask = .v4 (VmIP.wildcardWord (if mask = 0 then 32 else mask)) := by
  interval_cases mask <;> exact ⟨rfl, rfl⟩

lemma number_network (n : Network) : number (n.ip.network n.mask) = low (number n.ip) n.hostBits ∧
    number (n.ip.broadcast n.mask) = high (number n.ip) n.hostBits := by
  obtain ⟨ip, mask, valid⟩ := n
  cases ip with
  | v4 a =>
    obtain ⟨hnetwork, hwildcard⟩ := v4_masks a valid
    have hmask : mask ≤ 32 := valid
    have hbits : min (32 - (if mask = 0 then 32 else (mask : Int))).toNat 32 =
        (⟨.v4 a, mask, valid⟩ : Network).hostBits := by
      simp only [Network.hostBits, VmIP.bits]
      split <;> omega
    dsimp only [VmIP.network, VmIP.broadcast]
    rw [hnetwork, hwildcard, ← hbits]
    exact ⟨toNat_and_maskWord a _, toNat_or_wildcardWord a _⟩
  | v6 w0 w1 w2 w3 =>
    have hmask : mask ≤ 128 := valid
    obtain ⟨j, hj, hm, hle⟩ : ∃ j, (⟨.v6 w0 w1 w2 w3, mask, valid⟩ : Network).hostBits = j ∧
        (if mask = 0 then 128 else (mask : Int)) = 128 - (j : Int) ∧ j ≤ 128 := by
      refine ⟨_, rfl, ?_⟩
      simp only [Network.hostBits, VmIP.bits]
      split <;> omega
    -- the bits that are cut from each word
    have h0 : min (32 - (128 - (j : Int))).toNat 32 = j - 32 - 32 - 32 := by omega
    have h1 : min (32 - (128 - (j : Int) - 32)).toNat 32 = min (j - 32 - 32) 32 := by omega
    have h2 : min (32 - (128 - (j : Int) - 64)).toNat 32 = min (j - 32) 32 := by omega
    have h3 : min (32 - (128 - (j : Int) - 96)).toNat 32 = min j 32 := by omega
    dsimp only [VmIP.network, VmIP.broadcast, VmIP.networkMask, VmIP.wildcardMask, VmIP.mask,
      VmIP.or, number]
    rw [hj, hm]
    simp only [toNat_and_maskWord, toNat_or_wildcardWord, h0, h1, h2, h3]
    constructor
    · rw [low_word _ _ w3.toNat_lt, low_word _ _ w2.toNat_lt, low_word _ _ w1.toNat_lt]
    · rw [high_word _ _ w3.toNat_lt, high_word _ _ w2.toNat_lt, high_word _ _ w1.toNat_lt]

theorem range_contains_iff (n : Network) (ip : VmIP) : n.range.Contains ip ↔ n.Contains ip := by
  obtain ⟨hlow, hhigh⟩ := number_network n
  have hbits : (n.ip.network n.mask).bits = n.ip.bits ∧ (n.ip.broadcast n.mask).bits = n.ip.bits := by
    cases n.ip <;> exact ⟨rfl, rfl⟩
  rw [Network.Contains, ← between_iff, ← hlow, ← hhigh]
  constructor
  · rintro ⟨hversion, hfrom, hto⟩
    exact ⟨hbits.1.symm.trans hversion.1, hfrom, hto⟩
  · rintro ⟨hversion, hfrom, hto⟩
    exact ⟨⟨hbits.1.trans hversion, hbits.2.trans hversion⟩, hfrom, hto⟩

end VoipMonitor.GeoIp
