import Mathlib.Data.Bool.AllAny
import VoipMonitor.Model.PrepareQueries

/-!
# Reading an insert

What a query inserts is said by a reader that knows the quoting (`readStatement`): the table with
the columns and the rows, each a list of tokens. A query that is written from tokens is read back
(`readStatement_statement`), and replacing a mark in the text of such a query replaces it in each
token (`replaceAll_statement`).
-/

namespace VoipMonitor.PrepareQueries
open VoipMonitor.Library

/-! ### Escaped texts -/

def plainChar (c : UInt8) : Bool :=
  c ≠ 39 && c ≠ 34 && c ≠ 92 && c ≠ 10 && c ≠ 13 && c ≠ 0 && c ≠ 26

def escapeLetter (c : UInt8) : Bool :=
  c = 39 || c = 34 || c = 92 || c = 110 || c = 114 || c = 48 || c = 90

inductive Escaped : Bytes → Prop where
  | nil : Escaped []
  | plain {c : UInt8} {s : Bytes} (hc : plainChar c = true) (hs : Escaped s) : Escaped (c :: s)
  | escape {c : UInt8} {s : Bytes} (hc : escapeLetter c = true) (hs : Escaped s) :
      Escaped (92 :: c :: s)

lemma Escaped.append {a b : Bytes} (ha : Escaped a) (hb : Escaped b) : Escaped (a ++ b) := by
  induction ha with
  | nil => exact hb
  | plain hc _ ih => exact .plain hc ih
  | escape hc _ ih => exact .escape hc ih

lemma escaped_of_plain {s : Bytes} (h : ∀ c ∈ s, plainChar c = true) : Escaped s := by
  induction s with
  | nil => exact .nil
  | cons c s ih =>
    exact .plain (h c List.mem_cons_self) (ih fun d hd => h d (List.mem_cons_of_mem c hd))

lemma Escaped.map {f : UInt8 → UInt8} (hplain : ∀ c, plainChar c = true → plainChar (f c) = true)
    (hletter : ∀ c, escapeLetter c = true → escapeLetter (f c) = true) (hback : f 92 = 92)
    {s : Bytes} (hs : Escaped s) : Escaped (s.map f) := by
  induction hs with
  | nil => exact .nil
  | plain hc _ ih => exact .plain (hplain _ hc) ih
  | escape hc _ ih =>
    rw [List.map_cons, List.map_cons, hback]
    exact .escape (hletter _ hc) ih

lemma escaped_escapeChar (c : UInt8) : Escaped (escapeChar c) := by
  unfold escapeChar
  cases h : escapeOf c with
  | some e =>
    refine .escape ?_ .nil
    unfold escapeOf at h
    split_ifs at h <;> obtain rfl := Option.some.inj h
    · rename_i hc
      rcases hc with rfl | rfl | rfl <;> decide
    all_goals decide
  | none =>
    refine .plain ?_ .nil
    unfold escapeOf at h
    split_ifs at h with h1 h2 h3 h4 h5
    simp only [plainChar, Bool.and_eq_true, decide_eq_true_eq]
    tauto

lemma escaped_sqlEscapeString (check : Bytes → Bool) (input : Bytes) :
    Escaped (sqlEscapeString check input) := by
  have h : Escaped ((cString input).flatMap escapeChar) := by
    induction cString input with
    | nil => exact .nil
    | cons c s ih =>
      rw [List.flatMap_cons]
      exact (escaped_escapeChar c).append ih
  unfold sqlEscapeString
  dsimp only
  split
  · exact h
  · refine h.map ?_ ?_ (by decide)
    · intro c hc
      split
      · decide
      · exact hc
    · intro c hc
      rw [if_neg]
      · exact hc
      · simp only [escapeLetter, Bool.or_eq_true, decide_eq_true_eq] at hc
        rcases hc with (((((rfl | rfl) | rfl) | rfl) | rfl) | rfl) | rfl <;> decide

lemma Escaped.replaceFrom {c : UInt8} {rest repl : Bytes} (hc : escapeLetter c = false)
    (hmark : ∀ d ∈ c :: rest, plainChar d = true) (hrepl : ∀ d ∈ repl, plainChar d = true)
    {s : Bytes} (hs : Escaped s) :
    ∀ k, (∀ d ∈ s.take k, plainChar d = true) →
      Escaped (Library.replaceFrom (c :: rest) repl k s) := by
  have hback : ∀ t, ¬c :: rest <+: 92 :: t := by
    intro t hpre
    rw [(List.cons_prefix_cons.mp hpre).1] at hmark
    exact absurd (hmark 92 List.mem_cons_self) (by decide)
  induction hs with
  | nil =>
    intro k _
    cases k <;> exact .nil
  | @plain d s hd hs ih =>
    intro k hk
    cases k with
    | succ k =>
      exact ih k fun x hx => hk x (by
        rw [List.take_succ_cons]
        exact List.mem_cons_of_mem d hx)
    | zero =>
      rw [Library.replaceFrom]
      split
      · next hpre =>
        have htake : s.take ((c :: rest).length - 1) = rest :=
          (List.prefix_iff_eq_take.mp (List.cons_prefix_cons.mp hpre).2).symm
        refine (escaped_of_plain hrepl).append (ih _ fun x hx => hmark x ?_)
        rw [htake] at hx
        exact List.mem_cons_of_mem c hx
      · exact .plain hd (ih 0 fun x hx => by simp at hx)
  | @escape e s he hs ih =>
    intro k hk
    cases k with
    | succ k =>
      rw [List.take_succ_cons] at hk
      exact absurd (hk 92 List.mem_cons_self) (by decide)
    | zero =>
      have hnext : ¬c :: rest <+: e :: s := by
        intro hpre
        rw [(List.cons_prefix_cons.mp hpre).1, he] at hc
        cases hc
      rw [Library.replaceFrom, if_neg (hback _), Library.replaceFrom, if_neg hnext]
      exact .escape he (ih 0 fun x hx => by simp at hx)

/-! ### Tokens -/

/-- A value in a query: a number or a variable, or the inside of a quoted text. -/
inductive Token where
  | plain (text : Bytes)
  | literal (text : Bytes)
deriving DecidableEq, Repr

def Token.text : Token → Bytes
  | plain text => text
  | literal text => 39 :: (text ++ [39])

def Token.map (f : Bytes → Bytes) : Token → Token
  | plain text => plain (f text)
  | literal text => literal (f text)

def isPlain (c : UInt8) : Bool := c ≠ 44 && c ≠ 32

def Token.Ok : Token → Prop
  | plain text => text ≠ [] ∧ ∀ c ∈ text, isPlain c = true ∧ c ≠ 39
  | literal text => Escaped text

def rowText (row : List Token) : Bytes := joinText [44] (row.map Token.text)

def rowsText (rows : List (List Token)) : Bytes := joinText rowSep (rows.map rowText)

def statement (key : Bytes) (rows : List (List Token)) : Bytes :=
  key ++ valuesSep ++ rowsText rows ++ rowEnd

def RowsOk (rows : List (List Token)) : Prop :=
  rows ≠ [] ∧ ∀ row ∈ rows, row ≠ [] ∧ ∀ t ∈ row, t.Ok

/-! ### Reading -/

/-- The inside of a quoted text, and what is behind its end. -/
def readLiteral : Bytes → Option (Bytes × Bytes)
  | [] => none
  | [c] => if c = 39 then some ([], []) else none
  | c :: e :: s =>
    if c = 39 then some ([], e :: s)
    else if c = 92 then (readLiteral s).map fun (text, rest) => (92 :: e :: text, rest)
    else (readLiteral (e :: s)).map fun (text, rest) => (c :: text, rest)

def readToken : Bytes → Option (Token × Bytes)
  | 39 :: s => (readLiteral s).map fun (text, rest) => (.literal text, rest)
  | s => some (.plain (s.takeWhile isPlain), s.dropWhile isPlain)

def addFirst (t : Token) : List (List Token) → List (List Token)
  | [] => [[t]]
  | row :: rows => (t :: row) :: rows

def readRows : Nat → Bytes → Option (List (List Token))
  | 0, _ => none
  | n + 1, s =>
    match readToken s with
    | none => none
    | some (t, rest) =>
      if rest = rowEnd then some [[t]]
      else if rest.head? = some 44 then (readRows n rest.tail).map (addFirst t)
      else if rowSep <+: rest then (readRows n (rest.drop rowSep.length)).map ([t] :: ·)
      else none

def readStatement (query : Bytes) : Option (Bytes × List (List Token)) :=
  match memmem query valuesSep with
  | none => none
  | some i =>
    (readRows (query.length + 1) (query.drop (i + valuesSep.length))).map
      fun rows => (query.take i, rows)

lemma readLiteral_escaped {s : Bytes} (hs : Escaped s) (rest : Bytes) :
    readLiteral (s ++ 39 :: rest) = some (s, rest) := by
  induction hs with
  | nil => cases rest <;> rfl
  | @plain c s hc hs ih =>
    have hquote : c ≠ 39 := by
      rintro rfl
      exact absurd hc (by decide)
    have hback : c ≠ 92 := by
      rintro rfl
      exact absurd hc (by decide)
    obtain ⟨e, t, ht⟩ := List.exists_cons_of_ne_nil (List.append_ne_nil_of_right_ne_nil s
      (List.cons_ne_nil 39 rest))
    rw [ht] at ih
    rw [List.cons_append, ht, readLiteral, if_neg hquote, if_neg hback, ih]
    rfl
  | @escape e s he hs ih =>
    rw [List.cons_append, List.cons_append, readLiteral, if_neg (by decide), if_pos rfl, ih]
    rfl

lemma readToken_text {t : Token} (ht : t.Ok) {rest : Bytes}
    (hrest : ∀ c ∈ rest.head?, isPlain c = false) : readToken (t.text ++ rest) = some (t, rest) := by
  cases t with
  | literal s =>
    rw [Token.text, List.cons_append, List.append_assoc, readToken, List.singleton_append,
      readLiteral_escaped ht]
    rfl
  | plain s =>
    obtain ⟨hne, hchars⟩ := ht
    obtain ⟨c, s, rfl⟩ := List.exists_cons_of_ne_nil hne
    have hquote : c ≠ 39 := (hchars c List.mem_cons_self).2
    have hplain : ∀ d ∈ c :: s, isPlain d = true := fun d hd => (hchars d hd).1
    rw [Token.text, readToken]
    · rw [takeWhile_append_of_all hplain hrest, dropWhile_append_of_all hplain hrest]
    · intro s' heq
      exact hquote (List.cons.inj heq).1

section ReadRows

variable {t : Token} (ht : t.Ok) (n : Nat)
include ht

lemma readRows_last : readRows (n + 1) (t.text ++ rowEnd) = some [[t]] := by
  rw [readRows, readToken_text ht (by simp [rowEnd, ascii, isPlain])]
  rfl

lemma readRows_comma (s : Bytes) :
    readRows (n + 1) (t.text ++ 44 :: s) = (readRows n s).map (addFirst t) := by
  rw [readRows, readToken_text ht (by simp [isPlain])]
  dsimp only
  have hend : 44 :: s ≠ rowEnd := fun h => absurd (List.cons.inj h).1 (by decide)
  have hhead : (44 :: s).head? = some 44 := rfl
  rw [if_neg hend, if_pos hhead]
  rfl

lemma readRows_rowSep (s : Bytes) :
    readRows (n + 1) (t.text ++ (rowSep ++ s)) = (readRows n s).map ([t] :: ·) := by
  have hhead : (rowSep ++ s).head? = some 32 := rfl
  rw [readRows, readToken_text ht (by rw [hhead]; simp [isPlain])]
  dsimp only
  rw [if_neg, hhead, if_neg (by decide), if_pos (List.prefix_append rowSep s), List.drop_left]
  intro h
  have hlen := congrArg List.length h
  rw [List.length_append] at hlen
  have hsep : rowSep.length = 5 := rfl
  have hend : rowEnd.length = 2 := rfl
  omega

end ReadRows

lemma rowText_cons_cons (t u : Token) (row : List Token) :
    rowText (t :: u :: row) = t.text ++ 44 :: rowText (u :: row) :=
  joinText_cons_cons [44] t.text u.text (row.map Token.text)

lemma rowText_singleton (t : Token) : rowText [t] = t.text := joinText_singleton [44] t.text

lemma rowsText_singleton (row : List Token) : rowsText [row] = rowText row :=
  joinText_singleton rowSep (rowText row)

lemma rowsText_cons_cons (row row' : List Token) (rows : List (List Token)) :
    rowsText (row :: row' :: rows) = rowText row ++ (rowSep ++ rowsText (row' :: rows)) :=
  joinText_cons_cons rowSep (rowText row) (rowText row') (rows.map rowText)

lemma rowsText_cons_cons_cons (t u : Token) (row : List Token) (rows : List (List Token)) :
    rowsText ((t :: u :: row) :: rows) = t.text ++ 44 :: rowsText ((u :: row) :: rows) := by
  rw [rowsText, rowsText, List.map_cons, List.map_cons, joinText, joinText, rowText_cons_cons,
    List.append_assoc, List.cons_append]

lemma readRows_text {t : Token} {row : List Token} {rows : List (List Token)}
    (hrow : ∀ u ∈ t :: row, u.Ok) (hrows : ∀ r ∈ rows, r ≠ [] ∧ ∀ u ∈ r, u.Ok) {n : Nat}
    (hn : (rowsText ((t :: row) :: rows) ++ rowEnd).length ≤ n) :
    readRows n (rowsText ((t :: row) :: rows) ++ rowEnd) = some ((t :: row) :: rows) := by
  -- the text gets shorter with every token, from row to row and within a row
  induction n generalizing t row rows with
  | zero =>
    have hend : rowEnd.length = 2 := rfl
    rw [List.length_append] at hn
    omega
  | succ n ih =>
    have ht : t.Ok := hrow t List.mem_cons_self
    cases row with
    | cons u row =>
      rw [rowsText_cons_cons_cons, List.append_assoc, List.cons_append] at hn ⊢
      rw [readRows_comma ht, ih (fun v hv => hrow v (List.mem_cons_of_mem t hv)) hrows]
      · rfl
      · rw [List.length_append, List.length_cons] at hn
        omega
    | nil =>
      cases rows with
      | nil =>
        rw [rowsText_singleton, rowText_singleton]
        exact readRows_last ht n
      | cons r rows =>
        obtain ⟨hne, hr⟩ := hrows r List.mem_cons_self
        obtain ⟨u, row, rfl⟩ := List.exists_cons_of_ne_nil hne
        rw [rowsText_cons_cons, rowText_singleton, List.append_assoc, List.append_assoc] at hn ⊢
        rw [readRows_rowSep ht, ih hr fun r' hr' => hrows r' (List.mem_cons_of_mem _ hr')]
        · rfl
        · have hsep : rowSep.length = 5 := rfl
          rw [List.length_append, List.length_append] at hn
          omega

lemma memmem_valuesSep {key : Bytes} (hkey : 41 ∉ key) (rest : Bytes) :
    memmem (key ++ (valuesSep ++ rest)) valuesSep = some key.length := by
  rw [memmem_eq_some (by decide)]
  refine ⟨?_, ?_⟩
  · rw [OccursAt, List.drop_left]
    exact List.prefix_append _ _
  · -- the bracket in second place is neither in the columns nor the blank behind them
    intro j hj hocc
    have hbracket : (key ++ (valuesSep ++ rest))[j + 1]? = some 41 := hocc.getElem?_add rfl
    rcases Nat.lt_or_ge (j + 1) key.length with hlt | hge
    · rw [List.getElem?_append_left hlt] at hbracket
      exact hkey (List.mem_of_getElem? hbracket)
    · have hj : j + 1 = key.length + 0 := by omega
      rw [hj, List.getElem?_append_right (Nat.le_add_right _ _), Nat.add_sub_cancel_left] at hbracket
      exact absurd (Option.some.inj hbracket) (by decide)

theorem readStatement_statement {key : Bytes} (hkey : 41 ∉ key) {rows : List (List Token)}
    (hrows : RowsOk rows) : readStatement (statement key rows) = some (key, rows) := by
  obtain ⟨hne, hrow⟩ := hrows
  obtain ⟨r, rows, rfl⟩ := List.exists_cons_of_ne_nil hne
  obtain ⟨hr, htokens⟩ := hrow r List.mem_cons_self
  obtain ⟨t, row, rfl⟩ := List.exists_cons_of_ne_nil hr
  have hsplit : statement key ((t :: row) :: rows) =
      key ++ (valuesSep ++ (rowsText ((t :: row) :: rows) ++ rowEnd)) := by
    rw [statement, List.append_assoc, List.append_assoc]
  have hdrop : (statement key ((t :: row) :: rows)).drop (key.length + valuesSep.length) =
      rowsText ((t :: row) :: rows) ++ rowEnd := by
    rw [hsplit, ← List.append_assoc]
    exact List.drop_left' List.length_append
  have htake : (statement key ((t :: row) :: rows)).take key.length = key := by
    rw [hsplit, List.take_left]
  unfold readStatement
  rw [hsplit, memmem_valuesSep hkey, ← hsplit]
  dsimp only
  rw [hdrop, htake, readRows_text htokens fun r' hr' => hrow r' (List.mem_cons_of_mem _ hr')]
  · rfl
  · rw [hsplit]
    simp only [List.length_append]
    omega

/-! ### Replacing a mark -/

def Clean (text : Bytes) : Prop := ∀ c ∈ text, plainChar c = true ∧ isPlain c = true

structure IsMark (find : Bytes) : Prop where
  head : find.head? = some 64
  clean : Clean find

lemma IsMark.exists_cons {find : Bytes} (hm : IsMark find) : ∃ rest, find = 64 :: rest := by
  cases find with
  | nil => cases hm.head
  | cons c rest =>
    obtain rfl := Option.some.inj hm.head
    exact ⟨rest, rfl⟩

lemma IsMark.ne_nil {find : Bytes} (hm : IsMark find) : find ≠ [] := by
  obtain ⟨rest, rfl⟩ := hm.exists_cons
  exact List.cons_ne_nil 64 rest

section Mark

variable {find repl : Bytes} (hm : IsMark find)
include hm

lemma IsMark.comma : (44 : UInt8) ∉ find := fun h => absurd (hm.clean 44 h).2 (by decide)

lemma IsMark.blank : (32 : UInt8) ∉ find := fun h => absurd (hm.clean 32 h).2 (by decide)

lemma IsMark.quote : (39 : UInt8) ∉ find := fun h => absurd (hm.clean 39 h).1 (by decide)

lemma replaceAll_text (t : Token) :
    replaceAll find repl t.text = (t.map (replaceAll find repl)).text := by
  cases t with
  | plain s => rfl
  | literal s =>
    calc replaceAll find repl ([] ++ 39 :: (s ++ 39 :: []))
        = replaceAll find repl [] ++ 39 :: replaceAll find repl (s ++ 39 :: []) :=
          replaceAll_append_cons hm.ne_nil hm.quote [] _
      _ = 39 :: (replaceAll find repl s ++ [39]) := by
          rw [replaceAll_append_cons hm.ne_nil hm.quote s []]
          rfl

lemma replaceAll_rowText (row : List Token) :
    replaceAll find repl (rowText row) = rowText (row.map (Token.map (replaceAll find repl))) := by
  induction row with
  | nil => rfl
  | cons t row ih =>
    cases row with
    | nil => rw [List.map_cons, List.map_nil, rowText_singleton, rowText_singleton,
        replaceAll_text hm]
    | cons u row =>
      rw [List.map_cons] at ih
      rw [rowText_cons_cons, replaceAll_append_cons hm.ne_nil hm.comma, replaceAll_text hm, ih,
        List.map_cons, List.map_cons, rowText_cons_cons]

lemma replaceAll_statement {pre key : Bytes} (hpre : (64 : UInt8) ∉ pre) (hkey : (64 : UInt8) ∉ key)
    (row : List Token) :
    replaceAll find repl (pre ++ statement key [row]) =
      pre ++ statement key [row.map (Token.map (replaceAll find repl))] := by
  obtain ⟨rest, hrest⟩ := hm.exists_cons
  have hfront : (64 : UInt8) ∉ pre ++ (key ++ valuesSep) := by
    rw [List.mem_append, List.mem_append]
    rintro (h | h | h)
    · exact hpre h
    · exact hkey h
    · exact absurd h (by decide)
  have hsplit : ∀ r, pre ++ statement key [r] =
      (pre ++ (key ++ valuesSep)) ++ (rowText r ++ 32 :: [41]) := by
    intro r
    rw [statement, rowsText_singleton]
    simp only [List.append_assoc]
    rfl
  have hend : replaceAll find repl [41] = [41] := by
    rw [hrest]
    exact replaceAll_of_not_mem (by decide)
  rw [hsplit, hsplit, hrest, replaceAll_append_of_not_mem hfront, ← hrest,
    replaceAll_append_cons hm.ne_nil hm.blank, replaceAll_rowText hm, hend]

lemma Token.Ok.map (hrepl : repl ≠ []) (hclean : Clean repl) {t : Token} (ht : t.Ok) :
    (t.map (replaceAll find repl)).Ok := by
  cases t with
  | literal s =>
    obtain ⟨rest, rfl⟩ := hm.exists_cons
    exact Escaped.replaceFrom (by decide) (fun d hd => (hm.clean d hd).1)
      (fun d hd => (hclean d hd).1) ht 0 fun d hd => by simp at hd
  | plain s =>
    obtain ⟨hne, hchars⟩ := ht
    refine ⟨?_, ?_⟩
    · intro hnil
      obtain ⟨c, s, rfl⟩ := List.exists_cons_of_ne_nil hne
      by_cases hpre : find <+: c :: s
      · obtain ⟨rest, hrest⟩ := hpre
        rw [← hrest, replaceAll_find_append hm.ne_nil] at hnil
        exact hrepl (List.append_eq_nil_iff.mp hnil).1
      · rw [replaceAll_cons_of_no_occurrence hpre] at hnil
        cases hnil
    · intro c hc
      rcases mem_replaceAll hm.ne_nil hc with h | h
      · refine ⟨(hclean c h).2, ?_⟩
        rintro rfl
        exact absurd (hclean 39 h).1 (by decide)
      · exact hchars c h

end Mark

/-! ### Quotes -/

/-- Behind an underscore a quote is the end of a text: a comma or a blank follows. The marks of
the preparation that have quotes are not of this kind. -/
def Apart (text : Bytes) : Prop :=
  ∀ (i : Nat) (c : UInt8), text[i]? = some 95 → text[i + 1]? = some 39 → text[i + 2]? = some c → isPlain c = false

lemma apart_of_no_quote {text : Bytes} (h : (39 : UInt8) ∉ text) : Apart text :=
  fun _ _ _ hquote _ => absurd (List.mem_of_getElem? hquote) h

lemma apart_cons {c : UInt8} (hc : c ≠ 95) {text : Bytes} (h : Apart text) : Apart (c :: text) := by
  intro i d hi hi1 hi2
  cases i with
  | zero =>
    rw [List.getElem?_cons_zero] at hi
    exact absurd (Option.some.inj hi) hc
  | succ i => exact h i d hi hi1 hi2

lemma Apart.append_cons {a b : Bytes} (ha : Apart a) (hb : Apart b) {c : UInt8}
    (hc : isPlain c = false) : Apart (a ++ c :: b) := by
  have hc95 : c ≠ 95 := by
    rintro rfl
    exact absurd hc (by decide)
  have hc39 : c ≠ 39 := by
    rintro rfl
    exact absurd hc (by decide)
  induction a with
  | nil => exact apart_cons hc95 hb
  | cons x a ih =>
    have htail : Apart a := fun i d hi hi1 hi2 => ha (i + 1) d hi hi1 hi2
    intro i d hi hi1 hi2
    cases i with
    | succ i => exact ih htail i d hi hi1 hi2
    | zero =>
      rw [List.cons_append, List.getElem?_cons_zero] at hi
      cases a with
      | nil => exact absurd (Option.some.inj hi1) hc39
      | cons y a =>
        cases a with
        | nil =>
          obtain rfl := Option.some.inj hi2
          exact hc
        | cons z a => exact ha 0 d hi hi1 hi2

lemma Escaped.apart {s : Bytes} (hs : Escaped s) : Apart (s ++ [39]) := by
  induction hs with
  | nil =>
    intro i c hi hi1 hi2
    rw [List.nil_append, List.getElem?_eq_none (by simp)] at hi1
    cases hi1
  | @plain c s hc hs ih =>
    intro i d hi hi1 hi2
    cases i with
    | succ i => exact ih i d hi hi1 hi2
    | zero =>
      cases hs with
      | nil => cases hi2
      | plain he _ =>
        obtain rfl := Option.some.inj hi1
        exact absurd he (by decide)
      | escape _ _ => exact absurd (Option.some.inj hi1) (by decide)
  | @escape e s he hs ih =>
    have he95 : e ≠ 95 := by
      rintro rfl
      exact absurd he (by decide)
    exact apart_cons (by decide) (apart_cons he95 ih)

lemma Token.Ok.apart {t : Token} (ht : t.Ok) : Apart t.text := by
  cases t with
  | plain s => exact apart_of_no_quote fun h => (ht.2 39 h).2 rfl
  | literal s => exact apart_cons (by decide) (Escaped.apart ht)

lemma apart_rowText {row : List Token} (h : ∀ t ∈ row, t.Ok) : Apart (rowText row) := by
  induction row with
  | nil => exact apart_of_no_quote List.not_mem_nil
  | cons t row ih =>
    have ht := (h t List.mem_cons_self).apart
    have hrest := ih fun u hu => h u (List.mem_cons_of_mem t hu)
    cases row with
    | nil => rwa [rowText_singleton]
    | cons u row =>
      rw [rowText_cons_cons]
      exact ht.append_cons hrest (by decide)

lemma apart_statement {pre key : Bytes} (hpre : (39 : UInt8) ∉ pre) (hkey : (39 : UInt8) ∉ key)
    {row : List Token} (hrow : ∀ t ∈ row, t.Ok) : Apart (pre ++ statement key [row]) := by
  have hsplit : pre ++ statement key [row] =
      (pre ++ key ++ ascii " ) VALUES (") ++ 32 :: (rowText row ++ 32 :: [41]) := by
    rw [statement, rowsText_singleton]
    simp only [List.append_assoc]
    rfl
  rw [hsplit]
  refine Apart.append_cons (apart_of_no_quote ?_)
    ((apart_rowText hrow).append_cons (apart_of_no_quote (by decide)) (by decide)) (by decide)
  rw [List.mem_append, List.mem_append]
  rintro ((h | h) | h)
  · exact hpre h
  · exact hkey h
  · exact absurd h (by decide)

lemma Apart.not_occurs {text mark : Bytes} (h : Apart text) {c : UInt8}
    (h2 : mark[2]? = some 95) (h3 : mark[3]? = some 39) (h4 : mark[4]? = some c)
    (hc : isPlain c = true) (j : Nat) : ¬OccursAt mark text j := by
  intro hocc
  rw [h (j + 2) c (hocc.getElem?_add h2) (hocc.getElem?_add h3) (hocc.getElem?_add h4)] at hc
  cases hc

end VoipMonitor.PrepareQueries
