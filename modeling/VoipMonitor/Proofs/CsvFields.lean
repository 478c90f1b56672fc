import VoipMonitor.Model.CsvRow

/-!
# Where a quoted field ends

The search for the end goes from one `",` to the next. Whether it stops inside a text depends on
the text alone. The number of `",` is not changed by the backslashes that are put in and taken out.
-/

namespace VoipMonitor.Csv
open VoipMonitor.Library

/-! ## Counting -/

def pairs : Bytes → Nat
  | [] => 0
  | c :: text => (if c = 34 ∧ text.head? = some 44 then 1 else 0) + pairs text

lemma pairs_append_le (a b : Bytes) : pairs a + pairs b ≤ pairs (a ++ b) := by
  induction a with
  | nil => simp [pairs]
  | cons c a ih =>
    rw [List.cons_append, pairs, pairs]
    by_cases h : c = 34 ∧ a.head? = some 44
    · have h' : c = 34 ∧ (a ++ b).head? = some 44 := by
        refine ⟨h.1, ?_⟩
        cases a with
        | nil => cases h.2
        | cons d a => exact h.2
      rw [if_pos h, if_pos h']
      omega
    · rw [if_neg h]
      omega

lemma pairs_pair (text : Bytes) : pairs (34 :: 44 :: text) = 1 + pairs (44 :: text) := by
  rw [pairs, if_pos ⟨rfl, rfl⟩]

lemma head_unescape (text : Bytes) : (unescape text).head? = some 44 ↔ text.head? = some 44 := by
  cases text with
  | nil => exact Iff.rfl
  | cons c text =>
    rw [unescape]
    by_cases h : c = 92 ∧ text.take 2 = [34, 44]
    · rw [if_pos h]
      obtain ⟨rfl, htake⟩ := h
      cases text with
      | nil => cases htake
      | cons d text =>
        obtain rfl : d = 34 := (List.cons.inj htake).1
        rw [unescape, if_neg (by simp)]
        simp
    · rw [if_neg h]
      simp

lemma pairs_unescape (text : Bytes) : pairs (unescape text) = pairs text := by
  induction text with
  | nil => rfl
  | cons c text ih =>
    rw [unescape]
    by_cases h : c = 92 ∧ text.take 2 = [34, 44]
    · have hc : ¬(c = 34 ∧ text.head? = some 44) := by
        rw [h.1]
        simp
      rw [if_pos h, ih, pairs, if_neg hc, Nat.zero_add]
    · rw [if_neg h, pairs, pairs, ih]
      simp only [head_unescape]

lemma head_escapeLoop (before : UInt8) (text : Bytes) :
    (escapeLoop before text).head? = some 44 ↔ text.head? = some 44 := by
  cases text with
  | nil => exact Iff.rfl
  | cons c text =>
    rw [escapeLoop]
    by_cases h : c = 34 ∧ text.head? = some 44 ∧ before ≠ 92
    · rw [if_pos h, h.1]
      simp
    · rw [if_neg h]
      simp

lemma pairs_escapeLoop (before : UInt8) (text : Bytes) :
    pairs (escapeLoop before text) = pairs text := by
  induction text generalizing before with
  | nil => rfl
  | cons c text ih =>
    rw [escapeLoop]
    by_cases h : c = 34 ∧ text.head? = some 44 ∧ before ≠ 92
    · rw [if_pos h, pairs, pairs, pairs, ih, if_neg (by simp), Nat.zero_add, h.1]
      simp only [head_escapeLoop]
    · rw [if_neg h, pairs, pairs, ih]
      simp only [head_escapeLoop]

/-! ## Backslashes -/

/-- No `",` has a backslash in front. -/
def NoEscape (text : Bytes) : Prop := ¬[92, 34, 44] <:+: text

lemma NoEscape.tail {c : UInt8} {text : Bytes} (h : NoEscape (c :: text)) : NoEscape text :=
  fun hinf => h (hinf.trans (List.suffix_cons c text).isInfix)

lemma noEscape_cons {c : UInt8} {text : Bytes} :
    NoEscape (c :: text) ↔ ¬(c = 92 ∧ text.take 2 = [34, 44]) ∧ NoEscape text := by
  have htake : text.take 2 = [34, 44] ↔ [34, 44] <+: text := by
    rw [List.prefix_iff_eq_take]
    exact eq_comm
  rw [NoEscape, NoEscape, List.infix_cons_iff, not_or, List.cons_prefix_cons, htake]
  simp only [eq_comm]

lemma length_unescape_le (text : Bytes) : (unescape text).length ≤ text.length := by
  induction text with
  | nil => exact le_rfl
  | cons c text ih =>
    rw [unescape]
    split
    · rw [List.length_cons]
      omega
    · rw [List.length_cons, List.length_cons]
      omega

lemma unescape_eq_self_iff (text : Bytes) : unescape text = text ↔ NoEscape text := by
  induction text with
  | nil => exact iff_of_true rfl (fun h => nomatch List.infix_nil.mp h)
  | cons c text ih =>
    rw [unescape, noEscape_cons]
    by_cases h : c = 92 ∧ text.take 2 = [34, 44]
    · rw [if_pos h]
      refine iff_of_false (fun heq => ?_) (fun hno => hno.1 h)
      have hle := length_unescape_le text
      rw [heq, List.length_cons] at hle
      omega
    · rw [if_neg h]
      refine ⟨fun heq => ⟨h, ih.mp (List.cons.inj heq).2⟩, fun hno => ?_⟩
      rw [ih.mpr hno.2]

lemma take_two_iff (text : Bytes) :
    text.take 2 = [34, 44] ↔ ∃ rest, text = 34 :: rest ∧ rest.head? = some 44 := by
  constructor
  · intro h
    cases text with
    | nil => cases h
    | cons c text =>
      cases text with
      | nil => cases (List.cons.inj h).2
      | cons d text =>
        obtain ⟨rfl, hrest⟩ := List.cons.inj h
        obtain ⟨rfl, -⟩ := List.cons.inj hrest
        exact ⟨_, rfl, rfl⟩
  · rintro ⟨rest, rfl, h⟩
    cases rest with
    | nil => cases h
    | cons d rest =>
      obtain rfl := Option.some.inj h
      rfl

lemma take_escapeLoop (text : Bytes) :
    (escapeLoop 92 text).take 2 = [34, 44] ↔ text.take 2 = [34, 44] := by
  cases text with
  | nil => exact Iff.rfl
  | cons c text =>
    rw [escapeLoop, if_neg (fun h => h.2.2 rfl), take_two_iff, take_two_iff]
    constructor
    · rintro ⟨rest, heq, hhead⟩
      obtain ⟨rfl, rfl⟩ := List.cons.inj heq
      exact ⟨text, rfl, (head_escapeLoop _ _).mp hhead⟩
    · rintro ⟨rest, heq, hhead⟩
      obtain ⟨rfl, rfl⟩ := List.cons.inj heq
      exact ⟨_, rfl, (head_escapeLoop _ _).mpr hhead⟩

lemma unescape_escaped {text : Bytes} (hhead : text.head? = some 44) :
    unescape (92 :: 34 :: escapeLoop 34 text) = 34 :: unescape (escapeLoop 34 text) := by
  have htake : (34 :: escapeLoop 34 text).take 2 = [34, 44] :=
    (take_two_iff _).mpr ⟨_, rfl, (head_escapeLoop 34 text).mpr hhead⟩
  rw [unescape, if_pos ⟨rfl, htake⟩, unescape, if_neg (by simp)]

lemma length_unescape_escapeLoop_le (before : UInt8) (text : Bytes) :
    (unescape (escapeLoop before text)).length ≤ text.length := by
  induction text generalizing before with
  | nil => exact le_rfl
  | cons c text ih =>
    rw [escapeLoop, List.length_cons]
    by_cases hpair : c = 34 ∧ text.head? = some 44 ∧ before ≠ 92
    · rw [if_pos hpair, unescape_escaped hpair.2.1, List.length_cons]
      exact Nat.succ_le_succ (ih 34)
    · rw [if_neg hpair, unescape]
      have hle := ih c
      split
      · omega
      · rw [List.length_cons]
        omega

lemma length_unescape_escapeLoop_lt (before : UInt8) (text : Bytes) (h : ¬NoEscape text) :
    (unescape (escapeLoop before text)).length < text.length := by
  induction text generalizing before with
  | nil => exact absurd (fun hinf => nomatch List.infix_nil.mp hinf) h
  | cons c text ih =>
    rw [noEscape_cons] at h
    rw [escapeLoop, List.length_cons]
    by_cases hpair : c = 34 ∧ text.head? = some 44 ∧ before ≠ 92
    · have hrest : ¬NoEscape text := fun hno => h ⟨fun hc => by simp [hpair.1] at hc, hno⟩
      rw [if_pos hpair, unescape_escaped hpair.2.1, List.length_cons]
      exact Nat.succ_lt_succ (ih 34 hrest)
    · rw [if_neg hpair, unescape]
      by_cases hcut : c = 92 ∧ (escapeLoop c text).take 2 = [34, 44]
      · rw [if_pos hcut]
        exact Nat.lt_succ_of_le (length_unescape_escapeLoop_le c text)
      · rw [if_neg hcut, List.length_cons]
        refine Nat.succ_lt_succ (ih c (fun hno => h ⟨?_, hno⟩))
        rintro ⟨rfl, htake⟩
        exact hcut ⟨rfl, (take_escapeLoop text).mpr htake⟩

lemma unescape_escapeLoop (before : UInt8) (text : Bytes) (h : NoEscape (before :: text)) :
    unescape (escapeLoop before text) = text := by
  induction text generalizing before with
  | nil => rfl
  | cons c text ih =>
    have hrest := ih c h.tail
    rw [escapeLoop]
    by_cases hpair : c = 34 ∧ text.head? = some 44 ∧ before ≠ 92
    · obtain ⟨rfl, hhead, hbefore⟩ := hpair
      rw [if_pos ⟨rfl, hhead, hbefore⟩]
      rw [unescape_escaped hhead, hrest]
    · rw [if_neg hpair]
      have hkeep : ¬(c = 92 ∧ (escapeLoop c text).take 2 = [34, 44]) := by
        rintro ⟨rfl, htake⟩
        exact (noEscape_cons.mp h.tail).1 ⟨rfl, (take_escapeLoop text).mp htake⟩
      rw [unescape, if_neg hkeep, hrest]

lemma unescape_escapeLoop_eq_iff (text : Bytes) :
    unescape (escapeLoop 0 text) = text ↔ NoEscape text := by
  constructor
  · intro heq
    by_contra hno
    have hlt := length_unescape_escapeLoop_lt 0 text hno
    rw [heq] at hlt
    exact lt_irrefl _ hlt
  · intro hno
    exact unescape_escapeLoop 0 text (noEscape_cons.mpr ⟨fun h => by simp at h, hno⟩)

lemma escape_eq (content : Bytes) : escape content = escapeLoop 0 content := by
  have hnone : ∀ (before : UInt8) (text : Bytes), hasQuoteComma text = false →
      escapeLoop before text = text := by
    intro before text h
    induction text generalizing before with
    | nil => rfl
    | cons c text ih =>
      rw [hasQuoteComma, Bool.or_eq_false_iff, decide_eq_false_iff_not] at h
      rw [escapeLoop, if_neg (fun hpair => h.1 ⟨hpair.1, hpair.2.1⟩), ih c h.2]
  rw [escape]
  cases h : hasQuoteComma content with
  | true => rw [if_pos rfl]
  | false => rw [if_neg Bool.false_ne_true, hnone 0 content h]

lemma getLast_escapeLoop (before : UInt8) (text : Bytes) (d : UInt8) :
    (escapeLoop before text).getLastD d = text.getLastD d := by
  induction text generalizing before d with
  | nil => rfl
  | cons c text ih =>
    rw [escapeLoop]
    by_cases hpair : c = 34 ∧ text.head? = some 44 ∧ before ≠ 92
    · rw [if_pos hpair, List.getLastD_cons, List.getLastD_cons, ih, List.getLastD_cons, hpair.1]
    · rw [if_neg hpair, List.getLastD_cons, ih, List.getLastD_cons]

lemma escapeLoop_pair {before : UInt8} {text x y : Bytes}
    (h : escapeLoop before text = x ++ 34 :: 44 :: y) : x.getLastD before = 92 := by
  induction text generalizing before x with
  | nil =>
    rw [escapeLoop] at h
    exact absurd h.symm (by simp)
  | cons c text ih =>
    rw [escapeLoop] at h
    by_cases hpair : c = 34 ∧ text.head? = some 44 ∧ before ≠ 92
    · rw [if_pos hpair] at h
      cases x with
      | nil =>
        have := (List.cons.inj h).1
        simp at this
      | cons a x =>
        obtain ⟨rfl, h₁⟩ := List.cons.inj h
        rw [List.getLastD_cons]
        cases x with
        | nil => rfl
        | cons b x =>
          obtain ⟨rfl, h₂⟩ := List.cons.inj h₁
          rw [List.getLastD_cons]
          exact ih h₂
    · rw [if_neg hpair] at h
      cases x with
      | nil =>
        obtain ⟨rfl, h₁⟩ := List.cons.inj h
        have hhead : text.head? = some 44 := by
          rw [← head_escapeLoop 34, h₁]
          rfl
        by_contra hbefore
        exact hpair ⟨rfl, hhead, hbefore⟩
      | cons a x =>
        obtain ⟨rfl, h₁⟩ := List.cons.inj h
        rw [List.getLastD_cons]
        exact ih h₁

/-! ## The search -/

def Behind (tail : Bytes) : Prop := tail = [] ∨ tail.head? = some 44

lemma looksLikeEnd_append {y tail : Bytes} (h : Behind tail) :
    looksLikeEnd (34 :: 44 :: y ++ 34 :: tail) ↔ looksLikeEnd (34 :: 44 :: y) := by
  rcases y with - | ⟨a, - | ⟨b, - | ⟨c, y⟩⟩⟩
  · rcases h with rfl | h
    · simp [looksLikeEnd, byteAt, iftNull]
    · cases tail with
      | nil => cases h
      | cons d tail =>
        obtain rfl := Option.some.inj h
        simp [looksLikeEnd, byteAt, iftNull]
  · simp [looksLikeEnd, byteAt, iftNull]
  · simp [looksLikeEnd, byteAt, iftNull]
  · simp [looksLikeEnd, byteAt, iftNull]

lemma nextSep_of_not_pair {before c : UInt8} {text : Bytes}
    (h : ¬(c = 34 ∧ text.head? = some 44)) :
    nextSep false before (c :: text) =
      ((nextSep false c text).1.map (fun pos => pos + 1), (nextSep false c text).2) := by
  rw [nextSep, if_neg h]

lemma nextSep_text (before : UInt8) (text : Bytes) {tail : Bytes} (htail : Behind tail) :
    (∃ x y, text = x ++ 34 :: 44 :: y ∧ x.getLastD before ≠ 92 ∧ looksLikeEnd (34 :: 44 :: y) ∧
      (nextSep false before (text ++ 34 :: tail)).1 = some x.length) ∨
    ((∀ x y, text = x ++ 34 :: 44 :: y → x.getLastD before ≠ 92 →
        ¬looksLikeEnd (34 :: 44 :: y)) ∧
      (nextSep false before (text ++ 34 :: tail)).1 =
        (nextSep false (text.getLastD before) (34 :: tail)).1.map (fun pos => pos + text.length)) := by
  induction text generalizing before with
  | nil =>
    refine .inr ⟨fun x y h => absurd h.symm (by simp), ?_⟩
    simp
  | cons c text ih =>
    -- what the rest of the search gives is moved by one
    have hmove : (nextSep false before (c :: text ++ 34 :: tail)).1 =
          (nextSep false c (text ++ 34 :: tail)).1.map (fun pos => pos + 1) →
        (∀ y, c :: text = 34 :: 44 :: y → before ≠ 92 → ¬looksLikeEnd (34 :: 44 :: y)) →
        (∃ x y, c :: text = x ++ 34 :: 44 :: y ∧ x.getLastD before ≠ 92 ∧
          looksLikeEnd (34 :: 44 :: y) ∧
          (nextSep false before (c :: text ++ 34 :: tail)).1 = some x.length) ∨
        ((∀ x y, c :: text = x ++ 34 :: 44 :: y → x.getLastD before ≠ 92 →
            ¬looksLikeEnd (34 :: 44 :: y)) ∧
          (nextSep false before (c :: text ++ 34 :: tail)).1 =
            (nextSep false ((c :: text).getLastD before) (34 :: tail)).1.map
              (fun pos => pos + (c :: text).length)) := by
      intro hnext hfirst
      rcases ih c with ⟨x, y, hsplit, hbefore, hend, hpos⟩ | ⟨hno, hpos⟩
      · refine .inl ⟨c :: x, y, by rw [hsplit, List.cons_append], ?_, hend, ?_⟩
        · rwa [List.getLastD_cons]
        · rw [hnext, hpos, Option.map_some, List.length_cons]
      · refine .inr ⟨fun x y hsplit hbefore => ?_, ?_⟩
        · cases x with
          | nil => exact hfirst y hsplit hbefore
          | cons a x =>
            obtain ⟨rfl, hrest⟩ := List.cons.inj hsplit
            rw [List.getLastD_cons] at hbefore
            exact hno x y hrest hbefore
        · rw [hnext, hpos, Option.map_map, List.getLastD_cons, List.length_cons]
          congr 1
    by_cases hpair : c = 34 ∧ (text ++ 34 :: tail).head? = some 44
    · obtain ⟨rfl, hhead⟩ := hpair
      cases text with
      | nil => simp at hhead
      | cons d text =>
        obtain rfl := Option.some.inj hhead
        have happend := @looksLikeEnd_append text tail htail
        by_cases hbefore : before = 92
        · refine hmove ?_ (fun y _ hne => absurd hbefore hne)
          rw [List.cons_append, nextSep, if_pos ⟨rfl, rfl⟩, if_pos hbefore]
        · by_cases hend : looksLikeEnd (34 :: 44 :: text)
          · refine .inl ⟨[], text, rfl, hbefore, hend, ?_⟩
            have hstop : false = true ∨ looksLikeEnd (34 :: (44 :: text ++ 34 :: tail)) :=
              .inr (happend.mpr hend)
            rw [List.cons_append, nextSep, if_pos ⟨rfl, rfl⟩, if_neg hbefore, if_pos hstop]
            rfl
          · refine hmove ?_ (fun y hsplit _ => ?_)
            · have hkeep : ¬(false = true ∨ looksLikeEnd (34 :: (44 :: text ++ 34 :: tail))) := by
                rintro (h | h)
                · cases h
                · exact hend (happend.mp h)
              rw [List.cons_append, nextSep, if_pos ⟨rfl, rfl⟩, if_neg hbefore, if_neg hkeep]
            · obtain ⟨-, hrest⟩ := List.cons.inj hsplit
              obtain ⟨-, rfl⟩ := List.cons.inj hrest
              exact hend
    · refine hmove ?_ (fun y hsplit _ => ?_)
      · rw [List.cons_append, nextSep_of_not_pair hpair]
      · obtain ⟨rfl, rfl⟩ := List.cons.inj hsplit
        exact absurd ⟨rfl, rfl⟩ hpair

lemma nextSep_noEscape (before : UInt8) (text : Bytes) (n : Nat)
    (hn : ∀ pos, (nextSep false before text).1 = some pos → n ≤ pos)
    (hno : (nextSep false before text).2 = false) : NoEscape (text.take n) := by
  induction text generalizing before n with
  | nil =>
    rw [List.take_nil]
    exact fun h => nomatch List.infix_nil.mp h
  | cons c text ih =>
    cases n with
    | zero =>
      rw [List.take_zero]
      exact fun h => nomatch List.infix_nil.mp h
    | succ n =>
      have hrest : (nextSep false c text).2 = false ∧
          ∀ pos, (nextSep false c text).1 = some pos → n ≤ pos := by
        by_cases hpair : c = 34 ∧ text.head? = some 44
        · rw [nextSep, if_pos hpair] at hno hn
          by_cases hbefore : before = 92
          · rw [if_pos hbefore] at hno
            cases hno
          · rw [if_neg hbefore] at hno hn
            by_cases hend : false = true ∨ looksLikeEnd (c :: text)
            · rw [if_pos hend] at hn
              exact absurd (hn 0 rfl) (by omega)
            · rw [if_neg hend] at hno hn
              dsimp only at hn
              refine ⟨hno, fun pos hpos => ?_⟩
              have hle := hn (pos + 1) (by rw [hpos]; rfl)
              omega
        · rw [nextSep_of_not_pair hpair] at hno hn
          refine ⟨hno, fun pos hpos => ?_⟩
          have hle := hn (pos + 1) (by rw [hpos]; rfl)
          omega
      rw [List.take_succ_cons, noEscape_cons]
      refine ⟨?_, ih c n hrest.2 hrest.1⟩
      rintro ⟨rfl, htake⟩
      obtain ⟨rest, hsplit, hhead⟩ := (take_two_iff _).mp htake
      cases text with
      | nil => simp at hsplit
      | cons d text =>
        cases n with
        | zero => simp at hsplit
        | succ n =>
          obtain ⟨rfl, rfl⟩ := List.cons.inj hsplit
          have hhead' : text.head? = some 44 := by
            cases text with
            | nil => simp at hhead
            | cons e text =>
              cases n with
              | zero => simp at hhead
              | succ n => exact hhead
          have htrue := hrest.1
          rw [nextSep, if_pos ⟨rfl, hhead'⟩, if_pos rfl] at htrue
          cases htrue

lemma addString_eq {before c : UInt8} {text : Bytes} {n : Nat}
    (hn : ∀ pos, (nextSep false before (c :: text)).1 = some pos → n + 1 ≤ pos) :
    addString (text.take n) (nextSep false before (c :: text)).2 = unescape (text.take n) := by
  cases h : (nextSep false before (c :: text)).2 with
  | true => rfl
  | false =>
    have hno := nextSep_noEscape before (c :: text) (n + 1) hn h
    rw [List.take_succ_cons] at hno
    exact ((unescape_eq_self_iff _).mpr hno.tail).symm

end VoipMonitor.Csv
