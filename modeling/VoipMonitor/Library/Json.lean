import Mathlib.Algebra.Order.Field.Rat
import Mathlib.Data.Rat.Defs
import VoipMonitor.Library.PrefixOrder

/-!
# JSON texts (RFC 8259)

The grammar of JSON with the value that a text denotes. Texts are byte strings: a byte of 0x80 or
more belongs to a character outside of ASCII, and that these are well formed is said once, for the
text as a whole (`ValidUtf8`).
-/

namespace VoipMonitor.Library

/-- The UTF-8 text of some characters. -/
def ValidUtf8 (b : Bytes) : Prop := ∃ cs : List Char, b = cs.flatMap String.utf8EncodeChar

lemma ValidUtf8.append {a b : Bytes} (ha : ValidUtf8 a) (hb : ValidUtf8 b) : ValidUtf8 (a ++ b) := by
  obtain ⟨as, rfl⟩ := ha
  obtain ⟨bs, rfl⟩ := hb
  exact ⟨as ++ bs, List.flatMap_append.symm⟩

lemma utf8EncodeChar_ofNat {n : Nat} (h : n < 128) :
    String.utf8EncodeChar (Char.ofNat n) = [UInt8.ofNat n] := by
  have hvalid : n.isValidChar := Or.inl (by omega)
  have hval : (Char.ofNat n).val.toNat = n := by
    rw [Char.ofNat, dif_pos hvalid]
    rfl
  rw [String.utf8EncodeChar, hval]
  exact if_pos (by omega)

lemma validUtf8_of_ascii {b : Bytes} (h : ∀ c ∈ b, c.toNat < 128) : ValidUtf8 b := by
  refine ⟨b.map (fun c => Char.ofNat c.toNat), ?_⟩
  induction b with
  | nil => rfl
  | cons c b ih =>
    rw [List.map_cons, List.flatMap_cons, utf8EncodeChar_ofNat (h c List.mem_cons_self),
      ← ih fun d hd => h d (List.mem_cons_of_mem _ hd), UInt8.ofNat_toNat, List.singleton_append]

lemma validUtf8_of_all {b : Bytes} (h : b.all (fun c => c.toNat < 128) = true) : ValidUtf8 b :=
  validUtf8_of_ascii fun c hc => of_decide_eq_true (List.all_eq_true.mp h c hc)

lemma utf8EncodeChar_cases (c : Char) :
    (∃ b, String.utf8EncodeChar c = [b] ∧ b.toNat < 128) ∨
      ∀ b ∈ String.utf8EncodeChar c, 128 ≤ b.toNat := by
  unfold String.utf8EncodeChar
  dsimp only
  split
  · exact Or.inl ⟨_, rfl, by rw [UInt8.toNat_ofNat']; omega⟩
  · refine Or.inr fun b hb => ?_
    split_ifs at hb
    all_goals
      simp only [List.mem_cons, List.not_mem_nil, or_false] at hb
      rcases hb with rfl | rfl | rfl | rfl <;> rw [UInt8.toNat_ofNat'] <;> omega

namespace Json

/-- The members of an object are in the order of the text. -/
inductive Value where
  | null
  | bool (b : Bool)
  | number (q : ℚ)
  | string (s : Bytes)
  | array (elements : List Value)
  | object (members : List (Bytes × Value))

/-! ## The grammar -/

def Ws (t : Bytes) : Prop := ∀ c ∈ t, c = 32 ∨ c = 9 ∨ c = 10 ∨ c = 13

/-- `int`: no digit 0 in front of others. -/
def IntText (t : Bytes) : Prop :=
  t = [48] ∨ ∃ c b, t = c :: b ∧ 49 ≤ c.toNat ∧ c.toNat ≤ 57 ∧ IsDigits b

/-- `frac`, or nothing. -/
def FracText (t : Bytes) (f : ℚ) : Prop :=
  (t = [] ∧ f = 0) ∨
    ∃ b, b ≠ [] ∧ IsDigits b ∧ t = 46 :: b ∧ f = (decimal b : ℚ) / 10 ^ b.length

/-- `exp`, or nothing. -/
def ExpText (t : Bytes) (e : ℤ) : Prop :=
  (t = [] ∧ e = 0) ∨
    ∃ c sign b, (c = 101 ∨ c = 69) ∧ b ≠ [] ∧ IsDigits b ∧ t = c :: (sign ++ b) ∧
      (((sign = [] ∨ sign = [43]) ∧ e = decimal b) ∨ (sign = [45] ∧ e = -(decimal b : ℤ)))

/-- `number`. -/
def NumberText (t : Bytes) (q : ℚ) : Prop :=
  ∃ (minus int frac exp : Bytes) (f : ℚ) (e : ℤ), (minus = [] ∨ minus = [45]) ∧ IntText int ∧
    FracText frac f ∧ ExpText exp e ∧ t = minus ++ (int ++ (frac ++ exp)) ∧
    q = (if minus = [] then 1 else -1) * ((decimal int : ℚ) + f) * (10 : ℚ) ^ e

/-- The characters behind a backslash, other than `u`. -/
def unescape (c : UInt8) : Option UInt8 :=
  if c = 34 then some 34
  else if c = 92 then some 92
  else if c = 47 then some 47
  else if c = 98 then some 8
  else if c = 102 then some 12
  else if c = 110 then some 10
  else if c = 114 then some 13
  else if c = 116 then some 9
  else none

def hexDigit (c : UInt8) : Option Nat :=
  if 48 ≤ c.toNat ∧ c.toNat ≤ 57 then some (c.toNat - 48)
  else if 65 ≤ c.toNat ∧ c.toNat ≤ 70 then some (c.toNat - 55)
  else if 97 ≤ c.toNat ∧ c.toNat ≤ 102 then some (c.toNat - 87)
  else none

/-- `u` and four digits. -/
def UnicodeText (t : Bytes) (n : Nat) : Prop :=
  ∃ a b c d a' b' c' d', hexDigit a = some a' ∧ hexDigit b = some b' ∧ hexDigit c = some c' ∧
    hexDigit d = some d' ∧ t = [117, a, b, c, d] ∧ n = ((a' * 16 + b') * 16 + c') * 16 + d'

/-- The string `s` written between quotation marks. A half of a surrogate pair alone has no
meaning. -/
inductive Chars : Bytes → Bytes → Prop
  | nil : Chars [] []
  | unescaped {c : UInt8} {s t : Bytes} (hc : 32 ≤ c.toNat) (hquote : c ≠ 34) (hback : c ≠ 92)
      (h : Chars s t) : Chars (c :: s) (c :: t)
  | escaped {c d : UInt8} {s t : Bytes} (hd : unescape d = some c) (h : Chars s t) :
      Chars (c :: s) (92 :: d :: t)
  | unicode {u s t : Bytes} {n : Nat} (hu : UnicodeText u n) (hn : n < 0xD800 ∨ 0xE000 ≤ n)
      (h : Chars s t) : Chars (String.utf8EncodeChar (Char.ofNat n) ++ s) (92 :: (u ++ t))
  | pair {u u' s t : Bytes} {n m : Nat} (hu : UnicodeText u n) (hu' : UnicodeText u' m)
      (hn : 0xD800 ≤ n ∧ n < 0xDC00) (hm : 0xDC00 ≤ m ∧ m < 0xE000) (h : Chars s t) :
      Chars (String.utf8EncodeChar (Char.ofNat (0x10000 + (n - 0xD800) * 1024 + (m - 0xDC00))) ++ s)
        (92 :: (u ++ 92 :: (u' ++ t)))

mutual

inductive Denotes : Value → Bytes → Prop
  | null : Denotes .null [110, 117, 108, 108]
  | true : Denotes (.bool true) [116, 114, 117, 101]
  | false : Denotes (.bool false) [102, 97, 108, 115, 101]
  | number {q : ℚ} {t : Bytes} (h : NumberText t q) : Denotes (.number q) t
  | string {s t : Bytes} (h : Chars s t) : Denotes (.string s) (34 :: (t ++ [34]))
  | emptyArray {w : Bytes} (hw : Ws w) : Denotes (.array []) (91 :: (w ++ [93]))
  | array {vs : List Value} {t : Bytes} (h : Elements vs t) :
      Denotes (.array vs) (91 :: (t ++ [93]))
  | emptyObject {w : Bytes} (hw : Ws w) : Denotes (.object []) (123 :: (w ++ [125]))
  | object {ms : List (Bytes × Value)} {t : Bytes} (h : Members ms t) :
      Denotes (.object ms) (123 :: (t ++ [125]))

/-- The elements of an array, with commas between them. -/
inductive Elements : List Value → Bytes → Prop
  | last {v : Value} {w t w' : Bytes} (hw : Ws w) (hw' : Ws w') (h : Denotes v t) :
      Elements [v] (w ++ (t ++ w'))
  | cons {v : Value} {vs : List Value} {w t w' ts : Bytes} (hw : Ws w) (hw' : Ws w')
      (h : Denotes v t) (hs : Elements vs ts) : Elements (v :: vs) (w ++ (t ++ (w' ++ 44 :: ts)))

/-- The members of an object, with commas between them. -/
inductive Members : List (Bytes × Value) → Bytes → Prop
  | last {m : Bytes × Value} {t : Bytes} (h : Member m t) : Members [m] t
  | cons {m : Bytes × Value} {ms : List (Bytes × Value)} {t ts : Bytes} (h : Member m t)
      (hs : Members ms ts) : Members (m :: ms) (t ++ 44 :: ts)

inductive Member : Bytes × Value → Bytes → Prop
  | intro {s n : Bytes} {v : Value} {w₁ w₂ w₃ t w₄ : Bytes} (h₁ : Ws w₁) (h₂ : Ws w₂) (h₃ : Ws w₃)
      (h₄ : Ws w₄) (hs : Chars s n) (h : Denotes v t) :
      Member (s, v) (w₁ ++ (34 :: (n ++ 34 :: (w₂ ++ 58 :: (w₃ ++ (t ++ w₄))))))

end

/-- `JSON-text`. -/
def IsJson (v : Value) (t : Bytes) : Prop :=
  ValidUtf8 t ∧ ∃ w u w', Ws w ∧ Ws w' ∧ Denotes v u ∧ t = w ++ (u ++ w')

/-! ## Bytes that stand in a text -/

/-- No control character but those of `ws`. -/
def Visible (t : Bytes) : Prop := ∀ c ∈ t, 32 ≤ c.toNat ∨ c = 9 ∨ c = 10 ∨ c = 13

lemma visible_append {a b : Bytes} : Visible (a ++ b) ↔ Visible a ∧ Visible b := by
  unfold Visible
  rw [List.forall_mem_append]

lemma visible_cons {c : UInt8} {b : Bytes} (hc : 32 ≤ c.toNat) : Visible (c :: b) ↔ Visible b := by
  unfold Visible
  rw [List.forall_mem_cons]
  exact and_iff_right (Or.inl hc)

lemma visible_nil : Visible [] := by
  intro c hc
  cases hc

lemma Ws.visible {w : Bytes} (h : Ws w) : Visible w := by
  intro c hc
  rcases h c hc with rfl | hc
  · exact Or.inl (by decide)
  · exact Or.inr hc

def NumberByte (c : UInt8) : Prop :=
  isDigit c = true ∨ c = 43 ∨ c = 45 ∨ c = 46 ∨ c = 69 ∨ c = 101

lemma IntText.isDigits {t : Bytes} (h : IntText t) : IsDigits t := by
  rcases h with rfl | ⟨c, b, rfl, hlow, hhigh, hb⟩
  · intro c hc
    rw [List.mem_singleton.mp hc]
    decide
  · intro d hd
    rcases List.mem_cons.mp hd with rfl | hd
    · simp only [isDigit, Bool.and_eq_true, decide_eq_true_eq]
      omega
    · exact hb d hd

lemma NumberText.numberByte {t : Bytes} {q : ℚ} (h : NumberText t q) : ∀ c ∈ t, NumberByte c := by
  obtain ⟨minus, int, frac, exp, f, e, hminus, hint, hfrac, hexp, rfl, -⟩ := h
  intro c hc
  simp only [List.mem_append] at hc
  rcases hc with hc | hc | hc | hc
  · rcases hminus with rfl | rfl
    · cases hc
    · exact Or.inr (Or.inr (Or.inl (List.mem_singleton.mp hc)))
  · exact Or.inl (hint.isDigits c hc)
  · rcases hfrac with ⟨rfl, -⟩ | ⟨b, -, hb, rfl, -⟩
    · cases hc
    · rcases List.mem_cons.mp hc with rfl | hc
      · exact Or.inr (Or.inr (Or.inr (Or.inl rfl)))
      · exact Or.inl (hb c hc)
  · rcases hexp with ⟨rfl, -⟩ | ⟨d, sign, b, hd, -, hb, rfl, hsign⟩
    · cases hc
    · rcases List.mem_cons.mp hc with rfl | hc
      · rcases hd with rfl | rfl
        · exact Or.inr (Or.inr (Or.inr (Or.inr (Or.inr rfl))))
        · exact Or.inr (Or.inr (Or.inr (Or.inr (Or.inl rfl))))
      · rcases List.mem_append.mp hc with hc | hc
        · rcases hsign with ⟨rfl | rfl, -⟩ | ⟨rfl, -⟩
          · cases hc
          · exact Or.inr (Or.inl (List.mem_singleton.mp hc))
          · exact Or.inr (Or.inr (Or.inl (List.mem_singleton.mp hc)))
        · exact Or.inl (hb c hc)

lemma NumberByte.bounds {c : UInt8} (h : NumberByte c) :
    43 ≤ c.toNat ∧ c.toNat ≤ 101 ∧ c ≠ 58 ∧ c ≠ 92 ∧ c ≠ 47 := by
  rcases h with h | rfl | rfl | rfl | rfl | rfl
  · have hbounds := isDigit_bounds h
    refine ⟨by omega, by omega, ?_, ?_, ?_⟩
    · rintro rfl
      exact absurd hbounds.2 (by decide)
    · rintro rfl
      exact absurd hbounds.2 (by decide)
    · rintro rfl
      exact absurd hbounds.1 (by decide)
  all_goals decide

lemma numberText_int {t minus : Bytes} {n : Nat} (hminus : minus = [] ∨ minus = [45])
    (ht : t = minus ++ decimalText n) :
    NumberText t ((if minus = [] then 1 else -1) * (n : ℚ)) := by
  have hint : IntText (decimalText n) := by
    rcases Nat.eq_zero_or_pos n with rfl | hpos
    · exact Or.inl rfl
    · obtain ⟨c, b, heq, hlow, hhigh⟩ := head_decimalText hpos
      have hdigits := isDigits_decimalText n
      rw [heq] at hdigits
      exact Or.inr ⟨c, b, heq, hlow, hhigh, fun d hd => hdigits d (List.mem_cons_of_mem _ hd)⟩
  refine ⟨minus, decimalText n, [], [], 0, 0, hminus, hint, Or.inl ⟨rfl, rfl⟩, Or.inl ⟨rfl, rfl⟩,
    ?_, ?_⟩
  · rw [ht, List.append_nil, List.append_nil]
  · rw [decimal_decimalText, add_zero, zpow_zero, mul_one]

lemma hexDigit_bounds {c : UInt8} {n : Nat} (h : hexDigit c = some n) :
    48 ≤ c.toNat ∧ c.toNat ≤ 102 ∧ c ≠ 92 := by
  have hne : c = 92 → False := by
    rintro rfl
    cases h
  unfold hexDigit at h
  refine ⟨?_, ?_, hne⟩
  all_goals split_ifs at h <;> omega

lemma unescape_bounds {c d : UInt8} (h : unescape d = some c) : 32 ≤ d.toNat := by
  unfold unescape at h
  split_ifs at h with h₁ h₂ h₃ h₄ h₅ h₆ h₇ h₈
  all_goals (subst d; decide)

lemma UnicodeText.visible {t : Bytes} {n : Nat} (h : UnicodeText t n) : Visible t := by
  obtain ⟨a, b, c, d, a', b', c', d', ha, hb, hc, hd, rfl, -⟩ := h
  have ha' := (hexDigit_bounds ha).1
  have hb' := (hexDigit_bounds hb).1
  have hc' := (hexDigit_bounds hc).1
  have hd' := (hexDigit_bounds hd).1
  rw [visible_cons (by decide), visible_cons (by omega), visible_cons (by omega),
    visible_cons (by omega), visible_cons (by omega)]
  exact visible_nil

lemma Chars.visible {s t : Bytes} (h : Chars s t) : Visible t := by
  induction h with
  | nil => exact visible_nil
  | unescaped hc _ _ _ ih => exact (visible_cons hc).mpr ih
  | escaped hd _ ih => exact (visible_cons (by decide)).mpr ((visible_cons (unescape_bounds hd)).mpr ih)
  | unicode hu _ _ ih =>
    exact (visible_cons (by decide)).mpr (visible_append.mpr ⟨hu.visible, ih⟩)
  | pair hu hu' _ _ _ ih =>
    refine (visible_cons (by decide)).mpr (visible_append.mpr ⟨hu.visible, ?_⟩)
    exact (visible_cons (by decide)).mpr (visible_append.mpr ⟨hu'.visible, ih⟩)

lemma visible_of_all {t : Bytes} (h : t.all (fun c => 32 ≤ c.toNat) = true) : Visible t :=
  fun c hc => Or.inl (of_decide_eq_true (List.all_eq_true.mp h c hc))

lemma visible_between {a b : UInt8} {t : Bytes} (ha : 32 ≤ a.toNat) (hb : 32 ≤ b.toNat)
    (ht : Visible t) : Visible (a :: (t ++ [b])) :=
  (visible_cons ha).mpr (visible_append.mpr ⟨ht, (visible_cons hb).mpr visible_nil⟩)

mutual

theorem Denotes.visible : ∀ {v : Value} {t : Bytes}, Denotes v t → Visible t
  | _, _, .null => visible_of_all (by decide)
  | _, _, .true => visible_of_all (by decide)
  | _, _, .false => visible_of_all (by decide)
  | _, _, .number h => by
    intro c hc
    have hbounds := (h.numberByte c hc).bounds
    exact Or.inl (by omega)
  | _, _, .string h => visible_between (by decide) (by decide) h.visible
  | _, _, .emptyArray hw => visible_between (by decide) (by decide) hw.visible
  | _, _, .array h => visible_between (by decide) (by decide) h.visible
  | _, _, .emptyObject hw => visible_between (by decide) (by decide) hw.visible
  | _, _, .object h => visible_between (by decide) (by decide) h.visible

theorem Elements.visible : ∀ {vs : List Value} {t : Bytes}, Elements vs t → Visible t
  | _, _, .last hw hw' h =>
    visible_append.mpr ⟨hw.visible, visible_append.mpr ⟨h.visible, hw'.visible⟩⟩
  | _, _, .cons hw hw' h hs => by
    refine visible_append.mpr ⟨hw.visible, visible_append.mpr ⟨h.visible, ?_⟩⟩
    exact visible_append.mpr ⟨hw'.visible, (visible_cons (by decide)).mpr hs.visible⟩

theorem Members.visible : ∀ {ms : List (Bytes × Value)} {t : Bytes}, Members ms t → Visible t
  | _, _, .last h => h.visible
  | _, _, .cons h hs => visible_append.mpr ⟨h.visible, (visible_cons (by decide)).mpr hs.visible⟩

theorem Member.visible : ∀ {m : Bytes × Value} {t : Bytes}, Member m t → Visible t
  | _, _, .intro h₁ h₂ h₃ h₄ hs h => by
    refine visible_append.mpr ⟨h₁.visible, (visible_cons (by decide)).mpr ?_⟩
    refine visible_append.mpr ⟨hs.visible, (visible_cons (by decide)).mpr ?_⟩
    refine visible_append.mpr ⟨h₂.visible, (visible_cons (by decide)).mpr ?_⟩
    exact visible_append.mpr ⟨h₃.visible, visible_append.mpr ⟨h.visible, h₄.visible⟩⟩

end

lemma IsJson.visible {v : Value} {t : Bytes} (h : IsJson v t) : Visible t := by
  obtain ⟨-, w, u, w', hw, hw', hu, rfl⟩ := h
  exact visible_append.mpr ⟨hw.visible, visible_append.mpr ⟨hu.visible, hw'.visible⟩⟩

/-! ## Counting members

A text has one colon outside of its strings for each member. -/

mutual

def Value.memberCount : Value → Nat
  | .null => 0
  | .bool _ => 0
  | .number _ => 0
  | .string _ => 0
  | .array vs => elementsCount vs
  | .object ms => membersCount ms

def elementsCount : List Value → Nat
  | [] => 0
  | v :: vs => v.memberCount + elementsCount vs

def membersCount : List (Bytes × Value) → Nat
  | [] => 0
  | (_, v) :: ms => 1 + v.memberCount + membersCount ms

end

/-- Outside of a string, within one, or behind a backslash in it. -/
inductive Place where
  | outside | inside | escape

/-- The place after a byte and the number of colons so far. -/
def scanByte : Place × Nat → UInt8 → Place × Nat
  | (.outside, n), c => if c = 34 then (.inside, n) else if c = 58 then (.outside, n + 1) else (.outside, n)
  | (.inside, n), c => if c = 34 then (.outside, n) else if c = 92 then (.escape, n) else (.inside, n)
  | (.escape, n), _ => (.inside, n)

def scan (s : Place × Nat) (t : Bytes) : Place × Nat := t.foldl scanByte s

lemma scan_append (s : Place × Nat) (a b : Bytes) : scan s (a ++ b) = scan (scan s a) b :=
  List.foldl_append

lemma scan_cons (s : Place × Nat) (c : UInt8) (b : Bytes) : scan s (c :: b) = scan (scanByte s c) b :=
  rfl

lemma scan_outside {t : Bytes} (h : ∀ c ∈ t, c ≠ 34 ∧ c ≠ 58) (n : Nat) :
    scan (.outside, n) t = (.outside, n) := by
  induction t with
  | nil => rfl
  | cons c t ih =>
    obtain ⟨hquote, hcolon⟩ := h c List.mem_cons_self
    rw [scan_cons, scanByte, if_neg hquote, if_neg hcolon]
    exact ih fun d hd => h d (List.mem_cons_of_mem _ hd)

lemma scan_inside {t : Bytes} (h : ∀ c ∈ t, c ≠ 34 ∧ c ≠ 92) (n : Nat) :
    scan (.inside, n) t = (.inside, n) := by
  induction t with
  | nil => rfl
  | cons c t ih =>
    obtain ⟨hquote, hback⟩ := h c List.mem_cons_self
    rw [scan_cons, scanByte, if_neg hquote, if_neg hback]
    exact ih fun d hd => h d (List.mem_cons_of_mem _ hd)

lemma Ws.scan_eq {w : Bytes} (h : Ws w) (n : Nat) : scan (.outside, n) w = (.outside, n) := by
  refine scan_outside (fun c hc => ?_) n
  rcases h c hc with rfl | rfl | rfl | rfl
  all_goals decide

lemma NumberText.scan_eq {t : Bytes} {q : ℚ} (h : NumberText t q) (n : Nat) :
    scan (.outside, n) t = (.outside, n) := by
  refine scan_outside (fun c hc => ?_) n
  have hbounds := (h.numberByte c hc).bounds
  refine ⟨?_, hbounds.2.2.1⟩
  rintro rfl
  exact absurd hbounds.1 (by decide)

lemma UnicodeText.scan_eq {t : Bytes} {m : Nat} (h : UnicodeText t m) (n : Nat) :
    scan (.inside, n) (92 :: t) = (.inside, n) := by
  obtain ⟨a, b, c, d, a', b', c', d', ha, hb, hc, hd, rfl, -⟩ := h
  have hdigit : ∀ {x : UInt8} {y : Nat}, hexDigit x = some y → x ≠ 34 ∧ x ≠ 92 := by
    intro x y hx
    have hbounds := hexDigit_bounds hx
    refine ⟨?_, hbounds.2.2⟩
    rintro rfl
    exact absurd hbounds.1 (by decide)
  rw [scan_cons, scan_cons]
  refine scan_inside (fun x hx => ?_) n
  simp only [List.mem_cons, List.not_mem_nil, or_false] at hx
  rcases hx with rfl | rfl | rfl | rfl
  · exact hdigit ha
  · exact hdigit hb
  · exact hdigit hc
  · exact hdigit hd

lemma Chars.scan_eq {s t : Bytes} (h : Chars s t) (n : Nat) :
    scan (.inside, n) t = (.inside, n) := by
  induction h with
  | nil => rfl
  | unescaped _ hquote hback _ ih =>
    rw [scan_cons, scanByte, if_neg hquote, if_neg hback]
    exact ih
  | escaped _ _ ih => exact ih
  | unicode hu _ _ ih =>
    rw [← List.cons_append, scan_append, hu.scan_eq]
    exact ih
  | pair hu hu' _ _ _ ih =>
    rw [← List.cons_append, scan_append, hu.scan_eq, ← List.cons_append, scan_append, hu'.scan_eq]
    exact ih

lemma scan_quoted {t : Bytes} {n : Nat} (h : scan (.inside, n) t = (.inside, n)) (r : Bytes) :
    scan (.outside, n) (34 :: (t ++ 34 :: r)) = scan (.outside, n) r := by
  rw [scan_cons, scanByte, if_pos rfl, scan_append, h]
  rfl

lemma scan_bracketed {a b : UInt8} {t : Bytes} {n m : Nat} (ha : a ≠ 34 ∧ a ≠ 58)
    (hb : b ≠ 34 ∧ b ≠ 58) (h : scan (.outside, n) t = (.outside, m)) :
    scan (.outside, n) (a :: (t ++ [b])) = (.outside, m) := by
  rw [scan_cons, scanByte, if_neg ha.1, if_neg ha.2, scan_append, h]
  exact scan_outside (fun c hc => by rw [List.mem_singleton.mp hc]; exact hb) m

lemma scan_comma (n : Nat) (t : Bytes) : scan (.outside, n) (44 :: t) = scan (.outside, n) t := rfl

lemma scan_colon (n : Nat) (t : Bytes) : scan (.outside, n) (58 :: t) = scan (.outside, n + 1) t := rfl

mutual

theorem Denotes.scan_eq : ∀ {v : Value} {t : Bytes}, Denotes v t →
    ∀ n, scan (.outside, n) t = (.outside, n + v.memberCount)
  | _, _, .null, _ => rfl
  | _, _, .true, _ => rfl
  | _, _, .false, _ => rfl
  | _, _, .number h, n => h.scan_eq n
  | _, _, .string h, n => scan_quoted (h.scan_eq n) []
  | _, _, .emptyArray hw, n => by
    rw [Value.memberCount, elementsCount]
    exact scan_bracketed (by decide) (by decide) (hw.scan_eq n)
  | _, _, .array h, n => scan_bracketed (by decide) (by decide) (h.scan_eq n)
  | _, _, .emptyObject hw, n => by
    rw [Value.memberCount, membersCount]
    exact scan_bracketed (by decide) (by decide) (hw.scan_eq n)
  | _, _, .object h, n => scan_bracketed (by decide) (by decide) (h.scan_eq n)

theorem Elements.scan_eq : ∀ {vs : List Value} {t : Bytes}, Elements vs t →
    ∀ n, scan (.outside, n) t = (.outside, n + elementsCount vs)
  | _, _, .last hw hw' h, n => by
    rw [scan_append, hw.scan_eq, scan_append, h.scan_eq, hw'.scan_eq, elementsCount, elementsCount,
      Nat.add_zero]
  | _, _, .cons hw hw' h hs, n => by
    rw [scan_append, hw.scan_eq, scan_append, h.scan_eq, scan_append, hw'.scan_eq, scan_comma,
      hs.scan_eq, elementsCount, Nat.add_assoc]

theorem Members.scan_eq : ∀ {ms : List (Bytes × Value)} {t : Bytes}, Members ms t →
    ∀ n, scan (.outside, n) t = (.outside, n + membersCount ms)
  | _, _, .last (m := (s, v)) h, n => by
    rw [h.scan_eq, membersCount, membersCount, Nat.add_zero]
  | _, _, .cons (m := (s, v)) h hs, n => by
    rw [scan_append, h.scan_eq, scan_comma, hs.scan_eq, membersCount, Nat.add_assoc]

theorem Member.scan_eq : ∀ {s : Bytes} {v : Value} {t : Bytes}, Member (s, v) t →
    ∀ n, scan (.outside, n) t = (.outside, n + (1 + v.memberCount))
  | _, _, _, .intro h₁ h₂ h₃ h₄ hs h, n => by
    rw [scan_append, h₁.scan_eq, scan_quoted (hs.scan_eq n), scan_append, h₂.scan_eq, scan_colon,
      scan_append, h₃.scan_eq, scan_append, h.scan_eq, h₄.scan_eq, Nat.add_assoc]

end

lemma IsJson.scan_eq {v : Value} {t : Bytes} (h : IsJson v t) :
    scan (.outside, 0) t = (.outside, v.memberCount) := by
  obtain ⟨-, w, u, w', hw, hw', hu, rfl⟩ := h
  rw [scan_append, hw.scan_eq, scan_append, hu.scan_eq, hw'.scan_eq, Nat.zero_add]

end Json
end VoipMonitor.Library
