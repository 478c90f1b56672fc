import Mathlib.Data.List.Lex
import Mathlib.Data.Nat.Digits.Lemmas
import VoipMonitor.Library.Text

/-!
# Prefixes in the order of strings

Strings are ordered by their first difference, a prefix comes first. Among the prefixes of one
string the greater one is the longer one. Rows of digits of one length are ordered as their
numbers.
-/

namespace VoipMonitor.Library

section Prefix
variable {α : Type} [LinearOrder α] {a b n : List α}

lemma le_of_isPrefix (h : a <+: b) : a ≤ b := by
  induction a generalizing b with
  | nil =>
    cases b with
    | nil => exact le_rfl
    | cons y b => exact le_of_lt List.Lex.nil
  | cons x a ih =>
    obtain ⟨t, rfl⟩ := h
    exact List.cons_le_cons x (ih ⟨t, rfl⟩)

lemma head_le {x y : α} (h : x :: a ≤ y :: b) : x ≤ y := by
  rcases lt_or_eq_of_le h with h | h
  · exact List.head_le_of_lt h
  · exact (List.cons.inj h).1.le

end Prefix

/-- The codes of the characters, by which strings are ordered. -/
def codes (b : Bytes) : List Nat := b.map UInt8.toNat

lemma codes_injective : Function.Injective codes :=
  List.map_injective_iff.mpr (fun _ _ h => UInt8.toNat_inj.mp h)

@[simp] lemma length_codes (b : Bytes) : (codes b).length = b.length := List.length_map _

lemma codes_isPrefix_iff {a b : Bytes} : codes a <+: codes b ↔ a <+: b := by
  constructor
  · intro h
    have htake : codes a = codes (b.take a.length) := by
      rw [codes, codes, List.map_take, ← codes, ← codes, ← length_codes a]
      exact List.prefix_iff_eq_take.mp h
    rw [codes_injective htake]
    exact List.take_prefix _ _
  · exact fun h => h.map UInt8.toNat

def IsDigits (b : Bytes) : Prop := ∀ c ∈ b, isDigit c = true

lemma isDigit_bounds {c : UInt8} (h : isDigit c = true) : 48 ≤ c.toNat ∧ c.toNat ≤ 57 := by
  simpa [isDigit] using h

lemma IsDigits.of_isPrefix {a b : Bytes} (h : IsDigits b) (hab : a <+: b) : IsDigits a :=
  fun c hc => h c (hab.subset hc)

lemma decimal_foldl (b : Bytes) (m : Nat) :
    b.foldl (fun n c => 10 * n + (c.toNat - 48)) m = m * 10 ^ b.length + decimal b := by
  induction b generalizing m with
  | nil => simp [decimal]
  | cons c b ih =>
    have hcons : decimal (c :: b) = (10 * 0 + (c.toNat - 48)) * 10 ^ b.length + decimal b := by
      nth_rewrite 1 [decimal]
      rw [List.foldl_cons, ih]
    rw [List.foldl_cons, ih, hcons, List.length_cons, pow_succ]
    ring

lemma decimal_cons (c : UInt8) (b : Bytes) :
    decimal (c :: b) = (c.toNat - 48) * 10 ^ b.length + decimal b := by
  rw [decimal, List.foldl_cons, decimal_foldl, Nat.mul_zero, Nat.zero_add]

lemma IsDigits.decimal_lt {b : Bytes} (h : IsDigits b) : decimal b < 10 ^ b.length := by
  induction b with
  | nil => simp [decimal]
  | cons c b ih =>
    have hc := isDigit_bounds (h c List.mem_cons_self)
    have hb := ih (fun d hd => h d (List.mem_cons_of_mem _ hd))
    rw [decimal_cons, List.length_cons, pow_succ]
    have hle : (c.toNat - 48) * 10 ^ b.length ≤ 9 * 10 ^ b.length :=
      Nat.mul_le_mul_right _ (by omega)
    omega

lemma IsDigits.decimal_le {a b : Bytes} (ha : IsDigits a) (hb : IsDigits b)
    (hlen : a.length = b.length) (h : codes a ≤ codes b) : decimal a ≤ decimal b := by
  induction a generalizing b with
  | nil => simp [decimal]
  | cons c a ih =>
    cases b with
    | nil => cases hlen
    | cons d b =>
      have hlen' : a.length = b.length := Nat.succ.inj hlen
      have ha' : IsDigits a := fun x hx => ha x (List.mem_cons_of_mem _ hx)
      have hb' : IsDigits b := fun x hx => hb x (List.mem_cons_of_mem _ hx)
      have hc := isDigit_bounds (ha c List.mem_cons_self)
      have hd := isDigit_bounds (hb d List.mem_cons_self)
      rw [decimal_cons, decimal_cons, hlen']
      rcases lt_or_eq_of_le (head_le h) with hlt | heq
      · have hless := ha'.decimal_lt
        rw [hlen'] at hless
        have hstep : (c.toNat - 48 + 1) * 10 ^ b.length ≤ (d.toNat - 48) * 10 ^ b.length :=
          Nat.mul_le_mul_right _ (by omega)
        rw [Nat.add_mul, Nat.one_mul] at hstep
        omega
      · have hrest : codes a ≤ codes b := by
          rcases lt_or_eq_of_le h with hlt | heq'
          · have hcons := List.cons_lt_cons_iff.mp hlt
            rcases hcons with hfalse | ⟨-, hrest⟩
            · exact absurd hfalse (by rw [heq]; exact lt_irrefl _)
            · exact le_of_lt hrest
          · exact (List.cons.inj heq').2.le
        rw [heq]
        exact Nat.add_le_add_left (ih ha' hb' hlen' hrest) _

lemma IsDigits.atol_eq {b : Bytes} (h : IsDigits b) (hlen : b.length ≤ 18) :
    atol b = decimal b := by
  cases b with
  | nil => rfl
  | cons c b =>
    have hc := isDigit_bounds (h c List.mem_cons_self)
    have hwhite : isWhite c = false := by
      rw [isWhite, Bool.or_eq_false_iff]
      constructor
      · simp only [decide_eq_false_iff_not]
        rintro rfl
        exact absurd hc.1 (by decide)
      · rw [Bool.and_eq_false_iff]
        exact .inr (by simp only [decide_eq_false_iff_not]; omega)
    have hminus : c ≠ 45 := by
      rintro rfl
      exact absurd hc.1 (by decide)
    have hplus : c ≠ 43 := by
      rintro rfl
      exact absurd hc.1 (by decide)
    have hall : (c :: b).takeWhile isDigit = c :: b := List.takeWhile_eq_self_iff.mpr h
    have hlt : decimal (c :: b) < 10 ^ 18 :=
      lt_of_lt_of_le h.decimal_lt (Nat.pow_le_pow_right (by decide) hlen)
    rw [atol, List.dropWhile_cons_of_neg (by simp [hwhite])]
    simp only [if_neg hminus, if_neg hplus, hall]
    rw [min_eq_left]
    omega

/-!
## Decimal texts

The text of a number, and that its digits give the number back.
-/

/-- The text of `%lu`. -/
def decimalText (n : Nat) : Bytes :=
  if n = 0 then [48] else (Nat.digits 10 n).reverse.map (fun d => UInt8.ofNat (48 + d))

lemma decimal_concat (b : Bytes) (c : UInt8) : decimal (b ++ [c]) = 10 * decimal b + (c.toNat - 48) := by
  rw [decimal, List.foldl_append]
  rfl

lemma decimalText_ne_nil (n : Nat) : decimalText n ≠ [] := by
  by_cases hzero : n = 0
  · rw [decimalText, if_pos hzero]
    exact List.cons_ne_nil _ _
  · rw [decimalText, if_neg hzero]
    have hne : Nat.digits 10 n ≠ [] := Nat.digits_ne_nil_iff_ne_zero.mpr hzero
    simpa using hne

lemma toNat_digitByte {d : Nat} (h : d < 10) : (UInt8.ofNat (48 + d)).toNat = 48 + d := by
  rw [UInt8.toNat_ofNat']
  omega

lemma isDigits_decimalText (n : Nat) : IsDigits (decimalText n) := by
  intro c hc
  by_cases hzero : n = 0
  · rw [decimalText, if_pos hzero] at hc
    rw [List.mem_singleton.mp hc]
    decide
  · rw [decimalText, if_neg hzero] at hc
    obtain ⟨d, hd, rfl⟩ := List.mem_map.mp hc
    have hlt := Nat.digits_lt_base (by omega) (List.mem_reverse.mp hd)
    simp only [isDigit, toNat_digitByte hlt, Bool.and_eq_true, decide_eq_true_eq]
    omega

lemma decimalText_eq {n : Nat} (h : 10 ≤ n) :
    decimalText n = decimalText (n / 10) ++ [UInt8.ofNat (48 + n % 10)] := by
  rw [decimalText, decimalText, if_neg (by omega), if_neg (by omega),
    Nat.digits_def' (by omega) (by omega : 0 < n), List.reverse_cons, List.map_append,
    List.map_singleton]

lemma decimalText_of_lt {n : Nat} (h : n < 10) : decimalText n = [UInt8.ofNat (48 + n)] := by
  rcases Nat.eq_zero_or_pos n with rfl | hpos
  · rfl
  · rw [decimalText, if_neg (by omega), Nat.digits_of_lt 10 n (by omega) h]
    rfl

lemma decimal_decimalText (n : Nat) : decimal (decimalText n) = n := by
  induction n using Nat.strong_induction_on with
  | _ n ih =>
    rcases Nat.lt_or_ge n 10 with h | h
    · rw [decimalText_of_lt h, ← List.nil_append [UInt8.ofNat (48 + n)], decimal_concat,
        toNat_digitByte h]
      change 10 * 0 + (48 + n - 48) = n
      omega
    · rw [decimalText_eq h, decimal_concat, ih (n / 10) (by omega), toNat_digitByte (by omega)]
      omega

lemma head_decimalText {n : Nat} (h : 0 < n) :
    ∃ c b, decimalText n = c :: b ∧ 49 ≤ c.toNat ∧ c.toNat ≤ 57 := by
  induction n using Nat.strong_induction_on with
  | _ n ih =>
    rcases Nat.lt_or_ge n 10 with hlt | hge
    · refine ⟨_, [], decimalText_of_lt hlt, ?_⟩
      rw [toNat_digitByte hlt]
      omega
    · obtain ⟨c, b, heq, hc⟩ := ih (n / 10) (by omega) (by omega)
      exact ⟨c, _, by rw [decimalText_eq hge, heq, List.cons_append], hc⟩

end VoipMonitor.Library
