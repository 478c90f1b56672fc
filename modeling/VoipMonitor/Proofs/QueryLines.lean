import VoipMonitor.Model.QueryFiles

/-!
# What is read of a line that was written

The head of a line tells the length of its text, so a line of which only a part was written is bad.
The text of a query comes back, unless the marks of its line ends run into it.
-/

namespace VoipMonitor.QueryFiles
open VoipMonitor.Library

/-! ## The marks of line ends -/

def markLines (s : Bytes) : Bytes := replaceAll [10] endl s

lemma markLines_newline (s : Bytes) : markLines (10 :: s) = endl ++ markLines s :=
  replaceAll_find_append (by simp) endl s

lemma markLines_cons {c : UInt8} (hc : c ≠ 10) (s : Bytes) : markLines (c :: s) = c :: markLines s := by
  refine replaceAll_cons_of_no_occurrence ?_
  intro hpre
  exact hc (List.cons_prefix_cons.mp hpre).1.symm

lemma cons_prefix_markLines {x : UInt8} (hmark : x ≠ 95) (hx : x ≠ 10) {r s : Bytes} :
    x :: r <+: markLines s ↔ ∃ t, s = x :: t ∧ r <+: markLines t := by
  cases s with
  | nil => simp [markLines]
  | cons c s =>
    by_cases hc : c = 10
    · subst hc
      rw [markLines_newline, endl, List.cons_append, List.cons_prefix_cons]
      simp [hmark, Ne.symm hx]
    · rw [markLines_cons hc, List.cons_prefix_cons]
      constructor
      · rintro ⟨rfl, hr⟩
        exact ⟨s, rfl, hr⟩
      · rintro ⟨t, heq, hr⟩
        obtain ⟨rfl, rfl⟩ := List.cons.inj heq
        exact ⟨rfl, hr⟩

lemma underscore_prefix_markLines {r s : Bytes} :
    95 :: r <+: markLines s ↔ (∃ t, s = 95 :: t ∧ r <+: markLines t) ∨
      (∃ t, s = 10 :: t ∧ r <+: endl.tail ++ markLines t) := by
  cases s with
  | nil => simp [markLines]
  | cons c s =>
    by_cases hc : c = 10
    · subst hc
      rw [markLines_newline, endl, List.cons_append, List.cons_prefix_cons]
      simp
    · rw [markLines_cons hc, List.cons_prefix_cons]
      simp only [List.cons.injEq]
      constructor
      · rintro ⟨rfl, hr⟩
        exact .inl ⟨s, ⟨rfl, rfl⟩, hr⟩
      · rintro (⟨t, ⟨rfl, rfl⟩, hr⟩ | ⟨t, ⟨rfl, rfl⟩, -⟩)
        · exact ⟨rfl, hr⟩
        · exact absurd rfl hc

/-- The texts that are read as a mark: the mark, and those that the next mark makes one of. -/
def marks : List Bytes :=
  [endl, [95, 95, 69, 78, 68, 76, 10], [95, 95, 69, 78, 68, 76, 95, 10]]

lemma endl_prefix_markLines {c : UInt8} (hc : c ≠ 10) (s : Bytes) :
    endl <+: c :: markLines s ↔ ∃ m ∈ marks, m <+: c :: s := by
  constructor
  · intro h
    obtain ⟨rfl, h₁⟩ := List.cons_prefix_cons.mp h
    rcases underscore_prefix_markLines.mp h₁ with ⟨t₁, rfl, h₂⟩ | ⟨t₁, rfl, h₂⟩
    · obtain ⟨t₂, rfl, h₃⟩ := (cons_prefix_markLines (by decide) (by decide)).mp h₂
      obtain ⟨t₃, rfl, h₄⟩ := (cons_prefix_markLines (by decide) (by decide)).mp h₃
      obtain ⟨t₄, rfl, h₅⟩ := (cons_prefix_markLines (by decide) (by decide)).mp h₄
      obtain ⟨t₅, rfl, h₆⟩ := (cons_prefix_markLines (by decide) (by decide)).mp h₅
      rcases underscore_prefix_markLines.mp h₆ with ⟨t₆, rfl, h₇⟩ | ⟨t₆, rfl, -⟩
      · rcases underscore_prefix_markLines.mp h₇ with ⟨t₇, rfl, -⟩ | ⟨t₇, rfl, -⟩
        · exact ⟨endl, by simp [marks], ⟨t₇, rfl⟩⟩
        · exact ⟨[95, 95, 69, 78, 68, 76, 95, 10], by simp [marks], ⟨t₇, rfl⟩⟩
      · exact ⟨[95, 95, 69, 78, 68, 76, 10], by simp [marks], ⟨t₆, rfl⟩⟩
    · exact absurd (List.cons_prefix_cons.mp h₂).1 (by decide)
  · rintro ⟨m, hm, t, ht⟩
    simp only [marks, List.mem_cons, List.not_mem_nil, or_false] at hm
    rcases hm with rfl | rfl | rfl
    all_goals
      obtain ⟨rfl, rfl⟩ := List.cons.inj ht
      simp [markLines_cons, markLines_newline, endl, List.cons_prefix_cons]

theorem unmark_markLines_iff (s : Bytes) :
    replaceAll endl [10] (markLines s) = s ↔ ∀ m ∈ marks, ¬m <:+: s := by
  have hne : endl ≠ [] := by simp [endl]
  induction s with
  | nil =>
    refine iff_of_true rfl ?_
    intro m hm h
    rw [List.infix_nil.mp h] at hm
    simp [marks, endl] at hm
  | cons c s ih =>
    by_cases hc : c = 10
    · subst hc
      rw [markLines_newline, replaceAll_find_append hne, List.singleton_append, List.cons_inj_right]
      refine ih.trans (forall₂_congr ?_)
      intro m hm
      have hpre : ¬m <+: 10 :: s := by
        intro h
        simp only [marks, endl, List.mem_cons, List.not_mem_nil, or_false] at hm
        rcases hm with rfl | rfl | rfl
        all_goals exact absurd (List.cons_prefix_cons.mp h).1 (by decide)
      rw [List.infix_cons_iff, or_iff_right hpre]
    · rw [markLines_cons hc]
      by_cases hmark : endl <+: c :: markLines s
      · obtain ⟨m, hm, hpre⟩ := (endl_prefix_markLines hc s).mp hmark
        refine iff_of_false ?_ (fun h => h m hm hpre.isInfix)
        obtain ⟨u, hu⟩ := hmark
        rw [← hu, replaceAll_find_append hne, List.singleton_append]
        intro heq
        exact hc (List.cons.inj heq).1.symm
      · rw [replaceAll_cons_of_no_occurrence hmark, List.cons_inj_right]
        refine ih.trans (forall₂_congr ?_)
        intro m hm
        have hpre : ¬m <+: c :: s := fun h => hmark ((endl_prefix_markLines hc s).mpr ⟨m, hm, h⟩)
        rw [List.infix_cons_iff, or_iff_right hpre]

theorem unmark_encode_iff (q : Query) :
    replaceAll endl [10] q.encode = q.text ↔ ∀ m ∈ marks, ¬m <:+: q.text := by
  have hne : endl ≠ [] := by simp [endl]
  by_cases hmark : endl <:+: q.text
  · refine iff_of_false ?_ (fun h => h endl (by simp [marks]) hmark)
    intro heq
    let isE := fun c : UInt8 => decide (c = 101)
    have hmore : q.text.countP isE < (replaceAll endl endlLower q.text).countP isE :=
      lt_countP_replaceAll hne (by simp [endl, endlLower, isE]) hmark
    have hmarked : q.encode.countP isE = (replaceAll endl endlLower q.text).countP isE :=
      countP_replaceAll (by simp) (by simp [endl, isE]) _
    have hback : (replaceAll endl [10] q.encode).countP isE = q.encode.countP isE :=
      countP_replaceAll hne (by simp [endl, isE]) _
    rw [heq, hmarked] at hback
    omega
  · have hsame : q.encode = markLines q.text := by
      rw [Query.encode, replaceAll_eq_self hne hmark, markLines]
    rw [hsame]
    exact unmark_markLines_iff q.text

/-! ## The head of a line -/

lemma digitValue_of_isDigit {c : UInt8} (hc : isDigit c = true) : digitValue c = some (c.toNat - 48) := by
  rw [digitValue, if_pos hc]

lemma foldl_digitValue {b : Bytes} (hb : IsDigits b) (n : Nat) :
    b.foldl (fun n c => 10 * n + (digitValue c).getD 0) n =
      b.foldl (fun n c => 10 * n + (c.toNat - 48)) n := by
  induction b generalizing n with
  | nil => rfl
  | cons c b ih =>
    rw [List.foldl_cons, List.foldl_cons, digitValue_of_isDigit (hb c List.mem_cons_self),
      Option.getD_some, ih fun d hd => hb d (List.mem_cons_of_mem c hd)]

lemma scanDigits_ten {digits rest : Bytes} {c : UInt8} (hdigits : IsDigits digits)
    (hne : digits ≠ []) (hc : digitValue c = none) :
    scanDigits 10 (digits ++ c :: rest) = some (decimal digits, c :: rest) := by
  have hall : ∀ d ∈ digits, (digitValue d).any (fun v => v < 10) = true := by
    intro d hd
    have hbound := isDigit_bounds (hdigits d hd)
    rw [digitValue_of_isDigit (hdigits d hd), Option.any_some, decide_eq_true_eq]
    omega
  have hstop : ∀ d ∈ (c :: rest).head?, (digitValue d).any (fun v => v < 10) = false := by
    intro d hd
    obtain rfl : c = d := Option.some.inj hd
    rw [hc, Option.any_none]
  rw [scanDigits]
  simp only [takeWhile_append_of_all hall hstop, dropWhile_append_of_all hall hstop, if_neg hne]
  rw [foldl_digitValue hdigits, decimal]

lemma scanSign_of_isDigit {c : UInt8} (hc : isDigit c = true) (b : Bytes) :
    scanSign (c :: b) = (false, c :: b) := by
  have hbound := isDigit_bounds hc
  have hminus : c ≠ 45 := by
    rintro rfl
    exact absurd hbound.1 (by decide)
  have hplus : c ≠ 43 := by
    rintro rfl
    exact absurd hbound.1 (by decide)
  rw [scanSign, if_neg hminus, if_neg hplus]

lemma dropWhile_isWhite_of_isDigit {c : UInt8} (hc : isDigit c = true) (b : Bytes) :
    (c :: b).dropWhile isWhite = c :: b :=
  List.dropWhile_cons_of_neg (by simp [isWhite_eq_false_of_isDigit hc])

lemma scan_decimalText (n : Nat) (rest : Bytes) :
    (if [48, 120] <+: lower (decimalText n ++ 47 :: rest) then
        scanDigits 16 ((decimalText n ++ 47 :: rest).drop 2)
      else if [48] <+: decimalText n ++ 47 :: rest then scanDigits 8 (decimalText n ++ 47 :: rest)
      else scanDigits 10 (decimalText n ++ 47 :: rest)) = some (n, 47 :: rest) := by
  rcases Nat.eq_zero_or_pos n with rfl | hpos
  · have hhex : ¬[48, 120] <+: lower (decimalText 0 ++ 47 :: rest) := by
      change ¬[48, 120] <+: 48 :: 47 :: lower rest
      rw [List.cons_prefix_cons, List.cons_prefix_cons]
      rintro ⟨-, h, -⟩
      exact absurd h (by decide)
    have hoct : [48] <+: decimalText 0 ++ 47 :: rest := ⟨47 :: rest, rfl⟩
    rw [if_neg hhex, if_pos hoct]
    rfl
  · obtain ⟨c, b, heq, hlow, hhigh⟩ := head_decimalText hpos
    have hne : c ≠ 48 := by
      rintro rfl
      exact absurd hlow (by decide)
    have hhex : ¬[48, 120] <+: lower (decimalText n ++ 47 :: rest) := by
      rw [heq, List.cons_append, lower, List.map_cons, List.cons_prefix_cons]
      rintro ⟨h, -⟩
      exact hne ((toLower_eq_of_lt (by decide)).mp h.symm)
    have hoct : ¬[48] <+: decimalText n ++ 47 :: rest := by
      rw [heq, List.cons_append, List.cons_prefix_cons]
      rintro ⟨h, -⟩
      exact hne h.symm
    rw [if_neg hhex, if_neg hoct,
      scanDigits_ten (isDigits_decimalText n) (decimalText_ne_nil n) (by decide), decimal_decimalText]

lemma scanInt_intText {n : Int} (hlow : -2 ^ 31 ≤ n) (hhigh : n < 2 ^ 31) (rest : Bytes) :
    scanInt (intText n ++ 47 :: rest) = some (n, 47 :: rest) := by
  obtain ⟨c, b, heq⟩ := List.exists_cons_of_ne_nil (decimalText_ne_nil n.natAbs)
  have hc : isDigit c = true := by
    refine isDigits_decimalText n.natAbs c ?_
    rw [heq]
    exact List.mem_cons_self
  have hscan := scan_decimalText n.natAbs rest
  by_cases hneg : n < 0
  · have hsign : scanSign ((intText n ++ 47 :: rest).dropWhile isWhite) =
        (true, decimalText n.natAbs ++ 47 :: rest) := by
      rw [intText, if_pos hneg]
      rfl
    have hvalue : Int.bmod (-min (n.natAbs : Int) (2 ^ 63)) (2 ^ 32) = n := by
      rw [min_eq_left (by omega), Int.bmod_eq_of_le] <;> omega
    rw [scanInt]
    simp only [hsign, hscan, if_true, Option.map_some, hvalue]
  · have hsign : scanSign ((intText n ++ 47 :: rest).dropWhile isWhite) =
        (false, decimalText n.natAbs ++ 47 :: rest) := by
      rw [intText, if_neg hneg, heq, List.cons_append, dropWhile_isWhite_of_isDigit hc,
        scanSign_of_isDigit hc]
    have hvalue : Int.bmod (min (n.natAbs : Int) (2 ^ 63 - 1)) (2 ^ 32) = n := by
      rw [min_eq_left (by omega), Int.bmod_eq_of_le] <;> omega
    rw [scanInt]
    simp only [hsign, hscan, Bool.false_eq_true, if_false, Option.map_some, hvalue]

lemma scanUnsigned_decimalText {n : Nat} (h : n < 2 ^ 32) (rest : Bytes) :
    scanUnsigned (decimalText n ++ 58 :: rest) = some (n, 58 :: rest) := by
  obtain ⟨c, b, heq⟩ := List.exists_cons_of_ne_nil (decimalText_ne_nil n)
  have hc : isDigit c = true := by
    refine isDigits_decimalText n c ?_
    rw [heq]
    exact List.mem_cons_self
  have hsign : scanSign ((decimalText n ++ 58 :: rest).dropWhile isWhite) =
      (false, decimalText n ++ 58 :: rest) := by
    rw [heq, List.cons_append, dropWhile_isWhite_of_isDigit hc, scanSign_of_isDigit hc]
  have hscan : scanDigits 10 (decimalText n ++ 58 :: rest) = some (n, 58 :: rest) := by
    rw [scanDigits_ten (isDigits_decimalText n) (decimalText_ne_nil n) (by decide),
      decimal_decimalText]
  have hrange : ¬n ≥ 2 ^ 64 := by omega
  rw [scanUnsigned]
  simp only [hsign, hscan, Option.map_some, hrange, if_false, Bool.false_eq_true]
  rw [Nat.mod_eq_of_lt h]

lemma scanIdLength_buffIdLength {idMain : Int} (hlow : -2 ^ 31 ≤ idMain) (hhigh : idMain < 2 ^ 31)
    (n : Nat) (rest : Bytes) :
    scanIdLength (buffIdLength idMain n ++ rest) = some (idMain, n % 2 ^ 32) := by
  have htext : buffIdLength idMain n ++ rest =
      intText idMain ++ 47 :: (decimalText (n % 2 ^ 32) ++ 58 :: rest) := by
    rw [buffIdLength]
    simp
  have hmod : n % 2 ^ 32 < 2 ^ 32 := Nat.mod_lt _ (by omega)
  rw [htext, scanIdLength, scanInt_intText hlow hhigh]
  simp only [Option.bind_some, List.head?_cons, if_true, List.tail_cons,
    scanUnsigned_decimalText hmod, Option.map_some]

/-! ## Lines -/

lemma mem_intText {n : Int} {c : UInt8} (h : c ∈ intText n) : c = 45 ∨ isDigit c = true := by
  by_cases hneg : n < 0
  · rw [intText, if_pos hneg] at h
    exact (List.mem_cons.mp h).imp_right (isDigits_decimalText _ c)
  · rw [intText, if_neg hneg] at h
    exact .inr (isDigits_decimalText _ c h)

lemma mem_head {idMain : Int} {n : Nat} {c : UInt8}
    (h : c ∈ intText idMain ++ 47 :: decimalText (n % 2 ^ 32)) :
    c = 45 ∨ c = 47 ∨ isDigit c = true := by
  rcases List.mem_append.mp h with h | h
  · exact (mem_intText h).imp_right .inr
  · rcases List.mem_cons.mp h with h | h
    · exact .inr (.inl h)
    · exact .inr (.inr (isDigits_decimalText _ c h))

lemma not_mem_head {idMain : Int} {n : Nat} {c : UInt8} (hminus : c ≠ 45) (hslash : c ≠ 47)
    (hdigit : isDigit c = false) : c ∉ intText idMain ++ 47 :: decimalText (n % 2 ^ 32) := by
  intro h
  rcases mem_head h with h | h | h
  · exact hminus h
  · exact hslash h
  · rw [hdigit] at h
    cases h

lemma buffIdLength_eq (idMain : Int) (n : Nat) (text : Bytes) :
    buffIdLength idMain n ++ text =
      (intText idMain ++ 47 :: decimalText (n % 2 ^ 32)) ++ 58 :: text := by
  rw [buffIdLength]
  simp

lemma not_mem_buffIdLength {idMain : Int} {n : Nat} {text : Bytes} {c : UInt8} (hminus : c ≠ 45)
    (hslash : c ≠ 47) (hcolon : c ≠ 58) (hdigit : isDigit c = false) (htext : c ∉ text) :
    c ∉ buffIdLength idMain n ++ text := by
  rw [buffIdLength_eq]
  intro h
  rcases List.mem_append.mp h with h | h
  · exact not_mem_head hminus hslash hdigit h
  · exact (List.mem_cons.mp h).elim hcolon htext

lemma dropNewline {line : Bytes} (h : 10 ∉ line) :
    (if (line ++ [10]).getLast? = some 10 then (line ++ [10]).dropLast else line ++ [10]) = line ∧
      (if line.getLast? = some 10 then line.dropLast else line) = line := by
  constructor
  · rw [if_pos (by simp), List.dropLast_concat]
  · rw [if_neg]
    intro hlast
    exact h (List.mem_of_getLast? hlast)

lemma loadLine_buffIdLength {idMain : Int} (hlow : -2 ^ 31 ≤ idMain) (hhigh : idMain < 2 ^ 31)
    {n : Nat} {text : Bytes} (hnull : 0 ∉ text) {line : Bytes}
    (hline : (if line.getLast? = some 10 then line.dropLast else line) = buffIdLength idMain n ++ text) :
    loadLine line =
      if idMain = 0 ∨ n % 2 ^ 32 = 0 then none
      else if n % 2 ^ 32 ≠ text.length then none else some (replaceAll endl [10] text) := by
  have hcstring : cString (buffIdLength idMain n ++ text) = buffIdLength idMain n ++ text :=
    cString_eq (not_mem_buffIdLength (by decide) (by decide) (by decide) (by decide) hnull)
  have hcolon : (buffIdLength idMain n ++ text).dropWhile (fun c => c ≠ 58) = 58 :: text := by
    rw [buffIdLength_eq]
    refine dropWhile_append_of_all ?_ ?_
    · intro c hc
      rw [decide_eq_true_eq]
      rintro rfl
      exact not_mem_head (by decide) (by decide) (by decide) hc
    · intro c hc
      obtain rfl : 58 = c := Option.some.inj hc
      rfl
  rw [loadLine, hline, hcstring]
  simp only [hcolon, scanIdLength_buffIdLength hlow hhigh, Option.bind_some]

lemma newline_not_mem_markLines (s : Bytes) : 10 ∉ markLines s := by
  induction s with
  | nil => exact List.not_mem_nil
  | cons c s ih =>
    by_cases hc : c = 10
    · subst hc
      rw [markLines_newline, List.mem_append, not_or]
      exact ⟨by decide, ih⟩
    · rw [markLines_cons hc, List.mem_cons, not_or]
      exact ⟨Ne.symm hc, ih⟩

lemma newline_not_mem_encode (q : Query) : 10 ∉ q.encode := newline_not_mem_markLines _

lemma null_not_mem_encode (q : Query) : 0 ∉ q.encode := by
  intro h
  rcases mem_replaceAll (by simp) h with h | h
  · exact absurd h (by decide)
  · rcases mem_replaceAll (by simp [endl]) h with h | h
    · exact absurd h (by decide)
    · exact q.text_noNull h

namespace Entry

def loaded (e : Entry) : Option Bytes :=
  if e.idMain = 0 ∨ e.query.encode = [] then none else some (replaceAll endl [10] e.query.encode)

lemma newline_not_mem_line (e : Entry) : 10 ∉ e.line :=
  not_mem_buffIdLength (by decide) (by decide) (by decide) (by decide) (newline_not_mem_encode e.query)

lemma loadLine_of_eq (e : Entry) {line : Bytes}
    (hline : (if line.getLast? = some 10 then line.dropLast else line) = e.line) :
    loadLine line = e.loaded := by
  have hmod := Nat.mod_eq_of_lt e.length_lt
  rw [loadLine_buffIdLength e.le_idMain e.idMain_lt (null_not_mem_encode e.query) hline, hmod, loaded]
  simp only [List.length_eq_zero_iff, ne_eq, not_true_eq_false, if_false]

lemma loadLine_line (e : Entry) : loadLine (e.line ++ [10]) = e.loaded :=
  e.loadLine_of_eq (dropNewline e.newline_not_mem_line).1

lemma loadLine_of_isPrefix (e : Entry) {p : Bytes} (h : p <+: e.line) :
    loadLine p = if p = e.line then e.loaded else none := by
  have hnewline : 10 ∉ p := fun hp => e.newline_not_mem_line (h.subset hp)
  have hline := (dropNewline hnewline).2
  by_cases hwhole : p = e.line
  · rw [if_pos hwhole]
    exact e.loadLine_of_eq (hline.trans hwhole)
  · rw [if_neg hwhole]
    by_cases hlen : (buffIdLength e.idMain e.query.encode.length).length ≤ p.length
    · -- the head is there, and the text is shorter than the head says
      obtain ⟨text, rfl⟩ : buffIdLength e.idMain e.query.encode.length <+: p :=
        List.prefix_of_prefix_length_le (List.prefix_append _ _) h hlen
      have htext : text <+: e.query.encode := (List.prefix_append_right_inj _).mp h
      have hshort : e.query.encode.length % 2 ^ 32 ≠ text.length := by
        rw [Nat.mod_eq_of_lt e.length_lt]
        intro heq
        refine hwhole ?_
        rw [htext.eq_of_length heq.symm]
        rfl
      have hnull : 0 ∉ text := fun hp => null_not_mem_encode e.query (htext.subset hp)
      rw [loadLine_buffIdLength e.le_idMain e.idMain_lt hnull hline, if_pos hshort, ite_self]
    · -- the colon of the head is not there
      have hhead : p <+: intText e.idMain ++ 47 :: decimalText (e.query.encode.length % 2 ^ 32) := by
        refine List.prefix_of_prefix_length_le h ⟨58 :: e.query.encode, ?_⟩ ?_
        · exact (buffIdLength_eq _ _ _).symm
        · have hcut := congrArg List.length
            (buffIdLength_eq e.idMain e.query.encode.length [])
          rw [List.append_nil, List.length_append, List.length_singleton] at hcut
          omega
      have hnone : (cString p).dropWhile (fun c => c ≠ 58) = [] := by
        rw [List.dropWhile_eq_nil_iff]
        intro c hc
        rw [decide_eq_true_eq]
        rintro rfl
        exact not_mem_head (by decide) (by decide) (by decide)
          (hhead.subset ((List.takeWhile_prefix _).subset hc))
      rw [loadLine, hline]
      simp only [hnone]

lemma loaded_eq_some_iff (e : Entry) :
    e.loaded = some e.query.text ↔
      e.idMain ≠ 0 ∧ e.query.text ≠ [] ∧ ∀ m ∈ marks, ¬m <:+: e.query.text := by
  have hempty : e.query.encode = [] ↔ e.query.text = [] := by
    rw [Query.encode, replaceAll_eq_nil (by simp) (by simp [endl]),
      replaceAll_eq_nil (by simp [endl]) (by simp [endlLower])]
  rw [loaded]
  by_cases hbad : e.idMain = 0 ∨ e.query.encode = []
  · rw [if_pos hbad]
    refine iff_of_false (by simp) ?_
    rintro ⟨hid, htext, -⟩
    exact hbad.elim hid (fun h => htext (hempty.mp h))
  · rw [if_neg hbad, Option.some_inj, unmark_encode_iff]
    rw [not_or, hempty] at hbad
    exact ⟨fun h => ⟨hbad.1, hbad.2, h⟩, fun h => h.2.2⟩

/-- A query comes back from its line if and only if it has an id, is not empty, and has none of the
texts that are read as the end of a line. -/
theorem loadLine_line_eq_iff (e : Entry) :
    loadLine (e.line ++ [10]) = some e.query.text ↔
      e.idMain ≠ 0 ∧ e.query.text ≠ [] ∧ ∀ m ∈ marks, ¬m <:+: e.query.text := by
  rw [loadLine_line]
  exact e.loaded_eq_some_iff

end Entry

end VoipMonitor.QueryFiles
