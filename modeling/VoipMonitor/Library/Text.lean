import Mathlib.Data.List.TakeWhile
import VoipMonitor.Library.Search

/-!
# Texts

ASCII texts as byte strings: comparison without regard to case, the search for a text and the
numbers of `atol`.
-/

namespace VoipMonitor.Library

def ascii (s : String) : Bytes := s.toList.map (fun c => UInt8.ofNat c.toNat)

def toLower (c : UInt8) : UInt8 := if 65 ≤ c.toNat ∧ c.toNat ≤ 90 then c + 32 else c

def lower (b : Bytes) : Bytes := b.map toLower

def toUpper (c : UInt8) : UInt8 := if 97 ≤ c.toNat ∧ c.toNat ≤ 122 then c - 32 else c

def upper (b : Bytes) : Bytes := b.map toUpper

def cString (b : Bytes) : Bytes := b.takeWhile (fun c => c != 0)

/-- `strcasestr` with the position for the pointer. -/
def strcasestr (hay needle : Bytes) : Option Nat := memmem (lower (cString hay)) (lower needle)

def isDigit (c : UInt8) : Bool := 48 ≤ c.toNat && c.toNat ≤ 57

/-- The number of a row of digits. -/
def decimal (b : Bytes) : Nat := b.foldl (fun n c => 10 * n + (c.toNat - 48)) 0

/-- `isspace`. -/
def isWhite (c : UInt8) : Bool := c = 32 || (9 ≤ c.toNat && c.toNat ≤ 13)

/-- `atol` for `long` numbers of 64 bits; a number out of range is the last one in it. -/
def atol (b : Bytes) : Int :=
  let b := b.dropWhile isWhite
  let magnitude (b : Bytes) : Nat := decimal (b.takeWhile isDigit)
  match b with
  | [] => 0
  | c :: rest =>
    if c = 45 then -min (magnitude rest : Int) (2 ^ 63)
    else if c = 43 then min (magnitude rest : Int) (2 ^ 63 - 1)
    else min (magnitude b : Int) (2 ^ 63 - 1)

lemma toLower_eq_of_lt {c d : UInt8} (hd : d.toNat < 65) : toLower c = d ↔ c = d := by
  unfold toLower
  split
  · rename_i hc
    have hsum : (c + 32).toNat = c.toNat + 32 := by
      rw [UInt8.toNat_add]
      have : (32 : UInt8).toNat = 32 := rfl
      omega
    constructor
    · intro h
      rw [h] at hsum
      omega
    · intro h
      rw [h] at hc
      omega
  · rfl

lemma mem_lower_of_lt {d : UInt8} (hd : d.toNat < 65) {b : Bytes} : d ∈ lower b ↔ d ∈ b := by
  rw [lower, List.mem_map]
  constructor
  · rintro ⟨c, hc, hcd⟩
    rwa [(toLower_eq_of_lt hd).mp hcd] at hc
  · intro h
    exact ⟨d, h, (toLower_eq_of_lt hd).mpr rfl⟩

lemma toNat_toLower (c : UInt8) :
    (toLower c).toNat = if 65 ≤ c.toNat ∧ c.toNat ≤ 90 then c.toNat + 32 else c.toNat := by
  unfold toLower
  split
  · have h32 : (32 : UInt8).toNat = 32 := rfl
    rw [UInt8.toNat_add, h32]
    omega
  · rfl

lemma toNat_toUpper (c : UInt8) :
    (toUpper c).toNat = if 97 ≤ c.toNat ∧ c.toNat ≤ 122 then c.toNat - 32 else c.toNat := by
  unfold toUpper
  split
  · have h32 : (32 : UInt8).toNat = 32 := rfl
    rw [UInt8.toNat_sub, h32]
    omega
  · rfl

lemma toLower_toUpper (c : UInt8) : toLower (toUpper c) = toLower c := by
  rw [← UInt8.toNat_inj, toNat_toLower, toNat_toUpper, toNat_toLower]
  split_ifs <;> omega

lemma toUpper_toLower (c : UInt8) : toUpper (toLower c) = toUpper c := by
  rw [← UInt8.toNat_inj, toNat_toUpper, toNat_toLower, toNat_toUpper]
  split_ifs <;> omega

@[simp] lemma lower_upper (b : Bytes) : lower (upper b) = lower b := by
  rw [lower, upper, List.map_map]
  exact List.map_congr_left (fun c _ => toLower_toUpper c)

@[simp] lemma upper_lower (b : Bytes) : upper (lower b) = upper b := by
  rw [lower, upper, List.map_map]
  exact List.map_congr_left (fun c _ => toUpper_toLower c)

lemma upper_eq_iff {a b : Bytes} : upper a = upper b ↔ lower a = lower b := by
  constructor
  · intro h
    rw [← lower_upper a, h, lower_upper]
  · intro h
    rw [← upper_lower a, h, upper_lower]

@[simp] lemma upper_upper (b : Bytes) : upper (upper b) = upper b := by
  rw [upper_eq_iff, lower_upper]

@[simp] lemma length_upper (b : Bytes) : (upper b).length = b.length := List.length_map _

lemma mem_upper_of_lt {d : UInt8} (hd : d.toNat < 65) {b : Bytes} : d ∈ upper b ↔ d ∈ b := by
  rw [← mem_lower_of_lt hd, lower_upper, mem_lower_of_lt hd]

lemma lower_append (a b : Bytes) : lower (a ++ b) = lower a ++ lower b := List.map_append

@[simp] lemma length_lower (b : Bytes) : (lower b).length = b.length := List.length_map _

lemma cString_eq {b : Bytes} (h : 0 ∉ b) : cString b = b := by
  rw [cString, List.takeWhile_eq_self_iff]
  intro c hc
  rw [bne_iff_ne]
  rintro rfl
  exact h hc

lemma dropWhile_append_of_all {p : UInt8 → Bool} {a b : Bytes} (ha : ∀ c ∈ a, p c = true)
    (hb : ∀ c ∈ b.head?, p c = false) : (a ++ b).dropWhile p = b := by
  rw [List.dropWhile_append_of_pos ha]
  cases b with
  | nil => rfl
  | cons c b => rw [List.dropWhile_cons_of_neg (by simp [hb c rfl])]

lemma takeWhile_append_of_all {p : UInt8 → Bool} {a b : Bytes} (ha : ∀ c ∈ a, p c = true)
    (hb : ∀ c ∈ b.head?, p c = false) : (a ++ b).takeWhile p = a := by
  rw [List.takeWhile_append_of_pos ha]
  cases b with
  | nil => rw [List.takeWhile_nil, List.append_nil]
  | cons c b => rw [List.takeWhile_cons_of_neg (by simp [hb c rfl]), List.append_nil]

lemma isWhite_eq_false_of_isDigit {c : UInt8} (h : isDigit c = true) : isWhite c = false := by
  have hdigit : 48 ≤ c.toNat := by
    simp only [isDigit, Bool.and_eq_true, decide_eq_true_eq] at h
    exact h.1
  have hblank : c ≠ 32 := by
    rintro rfl
    exact absurd hdigit (by decide)
  simp only [isWhite, hblank, decide_false, Bool.false_or, Bool.and_eq_false_iff,
    decide_eq_false_iff_not]
  omega

lemma atol_digits {blanks digits rest : Bytes} (hblanks : ∀ c ∈ blanks, isWhite c = true)
    (hne : digits ≠ []) (hdigits : ∀ c ∈ digits, isDigit c = true)
    (hrest : ∀ c ∈ rest.head?, isDigit c = false) (hmax : decimal digits < 2 ^ 63) :
    atol (blanks ++ (digits ++ rest)) = decimal digits := by
  cases digits with
  | nil => exact absurd rfl hne
  | cons c digits =>
    have hc : isDigit c = true := hdigits c List.mem_cons_self
    have hminus : c ≠ 45 := by
      rintro rfl
      exact absurd hc (by decide)
    have hplus : c ≠ 43 := by
      rintro rfl
      exact absurd hc (by decide)
    have hdrop : (blanks ++ (c :: digits ++ rest)).dropWhile isWhite = c :: digits ++ rest := by
      refine dropWhile_append_of_all hblanks ?_
      intro d hd
      rw [List.cons_append, List.head?_cons, Option.mem_some_iff] at hd
      rw [← hd]
      exact isWhite_eq_false_of_isDigit hc
    have htake : (c :: digits ++ rest).takeWhile isDigit = c :: digits :=
      takeWhile_append_of_all hdigits hrest
    unfold atol
    rw [hdrop]
    rw [List.cons_append] at htake ⊢
    simp only [if_neg hminus, if_neg hplus, htake]
    omega

end VoipMonitor.Library
