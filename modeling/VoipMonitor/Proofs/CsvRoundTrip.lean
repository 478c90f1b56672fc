import VoipMonitor.Proofs.CsvFields

/-!
# Rows that come back

A row comes back when no content has a `",` behind a backslash, none but the last ends in a
backslash, and none that is written as it is looks like the end of a field.
-/

namespace VoipMonitor.Csv
open VoipMonitor.Library

/-- How a field is written. -/
inductive Shown
  | null
  | plain (code : Nat) (text : Bytes)
  | codebook (code : Nat) (text : Bytes)

def shown (enableSqlString : Bool) (f : RowField) : Shown :=
  if f.null then .null
  else if enableSqlString = true ∧ f.content.take 12 = mysqlVarPrefix then
    .plain FieldType.sql.code (f.content.drop 12)
  else if f.content.take 14 = mysqlCodebookIdPrefix then .plain FieldType.cbOld.code f.content
  else
    match f.type with
    | .cbString cbType => .codebook (FieldType.cbString cbType).code f.content
    | type => .plain type.code f.getContentForCsv

def Shown.line : Shown → Bytes
  | .null => [codeChar iftNull]
  | .plain code text => quoted code text
  | .codebook code text => quoted code (escapeLoop 0 text)

/-- What has to be read: the code of the type and the content. -/
def Shown.data : Shown → NextData
  | .null => ⟨iftNull, none⟩
  | .plain code text => ⟨code, some text⟩
  | .codebook code text => ⟨code, some text⟩

def Shown.text : Shown → Bytes
  | .null => []
  | .plain _ text => text
  | .codebook _ text => text

/-- No `",` in the text looks like the end of a field. -/
def NoEnd (text : Bytes) : Prop :=
  ∀ x y, text = x ++ 34 :: 44 :: y → ¬looksLikeEnd (34 :: 44 :: y)

/-- The field comes back. -/
def Shown.Ok (last : Prop) : Shown → Prop
  | .null => True
  | .plain _ text => NoEscape text ∧ (text.getLast? = some 92 → last) ∧ NoEnd text
  | .codebook _ text => NoEscape text ∧ (text.getLast? = some 92 → last)

/-- All fields of the row come back. -/
def RowOk (enableSqlString : Bool) : List RowField → Prop
  | [] => True
  | f :: row => (shown enableSqlString f).Ok (row = []) ∧ RowOk enableSqlString row

lemma implodeField_eq (enableSqlString : Bool) (f : RowField) :
    implodeField enableSqlString f = (shown enableSqlString f).line := by
  rw [implodeField, shown]
  split
  · rfl
  · split
    · rfl
    · split
      · rfl
      · cases f.type <;> simp [Shown.line, escape_eq]

lemma TypeCodebook.code_le (t : TypeCodebook) : t.code ≤ 6 := by
  cases t <;> decide

lemma FieldType.code_lt (t : FieldType) : t.code < 32 := by
  cases t with
  | cbString cbType =>
    have := cbType.code_le
    rw [code]
    omega
  | _ => decide

def Shown.Small : Shown → Prop
  | .null => True
  | .plain code _ => code < 32
  | .codebook code _ => code < 32

lemma shown_small (enableSqlString : Bool) (f : RowField) : (shown enableSqlString f).Small := by
  rw [shown]
  split
  · trivial
  · split
    · exact FieldType.code_lt .sql
    · split
      · exact FieldType.code_lt .cbOld
      · cases h : f.type with
        | cbString cbType => exact FieldType.code_lt (.cbString cbType)
        | _ => exact FieldType.code_lt _

lemma codeChar_toNat {code : Nat} (h : code < 80) : (codeChar code).toNat = 48 + code := by
  rw [codeChar, UInt8.toNat_ofNat']
  omega

lemma codeChar_ne {code : Nat} (h : code < 80) {c : UInt8} (hc : c.toNat < 48 ∨ 128 ≤ c.toNat) :
    codeChar code ≠ c := by
  rintro rfl
  rw [codeChar_toNat h] at hc
  omega

/-! ## The begin of a field -/

lemma looksLikeEnd_line {s : Shown} (hs : s.Small) (rest : Bytes) :
    looksLikeEnd (34 :: 44 :: (s.line ++ rest)) := by
  have hquoted : ∀ code text, code < 32 →
      looksLikeEnd (34 :: 44 :: (quoted code text ++ rest)) := by
    intro code text hcode
    have hchar := codeChar_toNat (show code < 80 by omega)
    refine .inr ⟨?_, rfl, rfl, ?_, ?_⟩
    · simp [quoted]
    · simp [byteAt, quoted, hchar]
    · simp only [byteAt, quoted, iftNull, List.getD_cons_succ, List.cons_append, List.getD_cons_zero,
        hchar]
      omega
  cases s with
  | null => exact .inl ⟨by simp [Shown.line], rfl⟩
  | plain code text => exact hquoted code text hs
  | codebook code text => exact hquoted code _ hs

lemma line_ne_nil (s : Shown) : s.line ≠ [] := by
  cases s <;> exact List.cons_ne_nil _ _

section Quoted
variable {code : Nat} (hcode : code < 32)
include hcode

lemma nextSep_quoted (before : UInt8) (rest : Bytes) :
    nextSep false before (34 :: codeChar code :: 58 :: rest) =
      ((nextSep false 58 rest).1.map (fun pos => pos + 3), (nextSep false 58 rest).2) := by
  have hchar : codeChar code ≠ 44 := codeChar_ne (by omega) (by decide)
  rw [nextSep_of_not_pair (by simpa using hchar), nextSep_of_not_pair (by simp),
    nextSep_of_not_pair (by simp), Option.map_map, Option.map_map]
  rfl

omit hcode in
lemma codeChar_flags : ∀ code < 32, (codeChar code).toInt8.toInt - 48 = code := by
  decide

lemma setNextData_quoted (text : Bytes) :
    setNextData (codeChar code :: 58 :: text) = ⟨code, some (cString text)⟩ := by
  rw [setNextData, List.headD_cons, codeChar_flags code hcode]
  rfl

lemma unescape_quoted (text : Bytes) :
    unescape (codeChar code :: 58 :: text) = codeChar code :: 58 :: unescape text := by
  have hchar : codeChar code ≠ 92 := by
    intro h
    have hnat := codeChar_toNat (show code < 80 by omega)
    rw [h] at hnat
    have : (92 : UInt8).toNat = 92 := rfl
    omega
  rw [unescape, if_neg (fun h => hchar h.1), unescape, if_neg (by simp)]

lemma explodeLoop_some (fuel : Nat) (before : UInt8) {rest : Bytes} {pos : Nat}
    (h : (nextSep false 58 rest).1 = some pos) :
    explodeLoop false (fuel + 1) before (34 :: codeChar code :: 58 :: rest) =
      (codeChar code :: 58 :: unescape (rest.take pos)) ::
        explodeLoop false fuel 44 (rest.drop (pos + 2)) := by
  have hsep := nextSep_quoted hcode before rest
  rw [h, Option.map_some] at hsep
  have hstring := @addString_eq before 34 (codeChar code :: 58 :: rest) (pos + 2) (by
    intro p hp
    rw [hsep] at hp
    exact (Option.some.inj hp).le)
  rw [hsep, List.take_succ_cons, List.take_succ_cons, unescape_quoted hcode] at hstring
  rw [explodeLoop, if_pos rfl, hsep]
  rw [← hstring]
  rfl

lemma explodeLoop_none (fuel : Nat) (before : UInt8) {rest : Bytes} {last : UInt8}
    (h : (nextSep false 58 (rest ++ [last])).1 = none) :
    explodeLoop false (fuel + 1) before (34 :: codeChar code :: 58 :: (rest ++ [last])) =
      [codeChar code :: 58 :: unescape rest] := by
  have hsep := nextSep_quoted hcode before (rest ++ [last])
  rw [h, Option.map_none] at hsep
  have hstring := @addString_eq before 34 (codeChar code :: 58 :: (rest ++ [last]))
    (rest.length + 2) (by
      intro p hp
      rw [hsep] at hp
      cases hp)
  rw [hsep, List.take_succ_cons, List.take_succ_cons, List.take_left, unescape_quoted hcode]
    at hstring
  have hlast : (codeChar code :: 58 :: (rest ++ [last])).dropLast = codeChar code :: 58 :: rest := by
    rw [← List.cons_append, ← List.cons_append, List.dropLast_concat]
  rw [explodeLoop, if_pos rfl, hsep]
  dsimp only
  rw [hlast, hstring]

def Stops (text x : Bytes) : Prop :=
  ∃ y, text = x ++ 34 :: 44 :: y ∧ x.getLastD 58 ≠ 92 ∧ looksLikeEnd (34 :: 44 :: y)

lemma explode_cut (fuel : Nat) (before : UInt8) {text tail : Bytes} (htail : Behind tail)
    (h : ∃ x, Stops text x) :
    ∃ x rest, Stops text x ∧
      explodeLoop false (fuel + 1) before (34 :: codeChar code :: 58 :: (text ++ 34 :: tail)) =
        (codeChar code :: 58 :: unescape x) :: rest := by
  rcases nextSep_text 58 text htail with ⟨x, y, hsplit, hbefore, hend, hpos⟩ | ⟨hno, -⟩
  · have hrun := explodeLoop_some hcode fuel before hpos
    have htake : (text ++ 34 :: tail).take x.length = x := by
      rw [hsplit, List.append_assoc, List.take_left]
    rw [htake] at hrun
    exact ⟨x, _, ⟨y, hsplit, hbefore, hend⟩, hrun⟩
  · obtain ⟨x, y, hsplit, hbefore, hend⟩ := h
    exact absurd hend (hno x y hsplit hbefore)

section Through
variable {text : Bytes} (hno : ¬∃ x, Stops text x)
include hno

omit hcode in
lemma nextSep_through {tail : Bytes} (htail : Behind tail) :
    (nextSep false 58 (text ++ 34 :: tail)).1 =
      (nextSep false (text.getLastD 58) (34 :: tail)).1.map (fun pos => pos + text.length) := by
  rcases nextSep_text 58 text htail with ⟨x, y, hsplit, hbefore, hend, -⟩ | ⟨-, hpos⟩
  · exact absurd ⟨x, y, hsplit, hbefore, hend⟩ hno
  · exact hpos

lemma explode_last (fuel : Nat) (before : UInt8) :
    explodeLoop false (fuel + 1) before (34 :: codeChar code :: 58 :: (text ++ [34])) =
      [codeChar code :: 58 :: unescape text] := by
  have hpos := @nextSep_through text hno [] (.inl rfl)
  have hnone : (nextSep false (text.getLastD 58) [34]).1 = none := rfl
  rw [hnone, Option.map_none] at hpos
  exact explodeLoop_none hcode fuel before hpos

lemma explode_next (fuel : Nat) (before : UInt8) {next : Bytes} (hlast : text.getLastD 58 ≠ 92)
    (hend : looksLikeEnd (34 :: 44 :: next)) :
    explodeLoop false (fuel + 1) before (34 :: codeChar code :: 58 :: (text ++ 34 :: 44 :: next)) =
      (codeChar code :: 58 :: unescape text) :: explodeLoop false fuel 44 next := by
  have hpos := @nextSep_through text hno (44 :: next) (.inr rfl)
  rw [nextSep, if_pos ⟨rfl, rfl⟩, if_neg hlast, if_pos (Or.inr hend), Option.map_some,
    Nat.zero_add] at hpos
  rw [explodeLoop_some hcode fuel before hpos, List.take_left, ← List.drop_drop, List.drop_left]
  rfl

lemma explode_swallow (fuel : Nat) (before : UInt8) {next : Bytes} (hlast : text.getLastD 58 = 92)
    (hnext : next ≠ []) :
    ∃ z rest, z <+: next ∧
      explodeLoop false (fuel + 1) before
        (34 :: codeChar code :: 58 :: (text ++ 34 :: 44 :: next)) =
        (codeChar code :: 58 :: unescape (text ++ 34 :: 44 :: z)) :: rest := by
  have hpos := @nextSep_through text hno (44 :: next) (.inr rfl)
  rw [nextSep, if_pos ⟨rfl, rfl⟩, if_pos hlast, nextSep_of_not_pair (by simp)] at hpos
  dsimp only at hpos
  cases hfound : (nextSep false 44 next).1 with
  | some q =>
    rw [hfound, Option.map_some, Option.map_some, Option.map_some] at hpos
    have hrun := explodeLoop_some hcode fuel before hpos
    have htake : (text ++ 34 :: 44 :: next).take (q + 1 + 1 + text.length) =
        text ++ 34 :: 44 :: next.take q := by
      rw [Nat.add_comm, List.take_length_add_append]
      rfl
    rw [htake] at hrun
    exact ⟨next.take q, _, List.take_prefix q next, hrun⟩
  | none =>
    rw [hfound, Option.map_none, Option.map_none, Option.map_none] at hpos
    obtain ⟨front, last, rfl⟩ := (List.eq_nil_or_concat' next).resolve_left hnext
    refine ⟨front, [], List.prefix_append _ _, ?_⟩
    have hsplit : text ++ 34 :: 44 :: (front ++ [last]) = (text ++ 34 :: 44 :: front) ++ [last] := by
      simp
    rw [hsplit] at hpos ⊢
    exact explodeLoop_none hcode fuel before hpos

end Through

end Quoted

/-! ## Rows -/

lemma mem_of_mem_unescape {text : Bytes} {c : UInt8} (h : c ∈ unescape text) : c ∈ text := by
  induction text with
  | nil => exact h
  | cons d text ih =>
    rw [unescape] at h
    split at h
    · exact List.mem_cons_of_mem _ (ih h)
    · rcases List.mem_cons.mp h with rfl | h
      · exact List.mem_cons_self
      · exact List.mem_cons_of_mem _ (ih h)

lemma mem_of_mem_escapeLoop {before : UInt8} {text : Bytes} {c : UInt8}
    (h : c ∈ escapeLoop before text) : c ∈ text ∨ c = 92 := by
  induction text generalizing before with
  | nil => exact .inl h
  | cons d text ih =>
    rw [escapeLoop] at h
    by_cases hpair : d = 34 ∧ text.head? = some 44 ∧ before ≠ 92
    · rw [if_pos hpair] at h
      rcases List.mem_cons.mp h with rfl | h
      · exact .inr rfl
      · rcases List.mem_cons.mp h with rfl | h
        · rw [hpair.1]
          exact .inl List.mem_cons_self
        · exact (ih h).imp_left (List.mem_cons_of_mem _)
    · rw [if_neg hpair] at h
      rcases List.mem_cons.mp h with rfl | h
      · exact .inl List.mem_cons_self
      · exact (ih h).imp_left (List.mem_cons_of_mem _)

lemma getLastD_eq_iff (text : Bytes) : text.getLastD 58 = 92 ↔ text.getLast? = some 92 := by
  rcases List.eq_nil_or_concat' text with rfl | ⟨front, last, rfl⟩
  · simp
  · simp

section Field
variable {code : Nat} (hcode : code < 32) {written text : Bytes} (hwritten : ∀ c ∈ written, c ≠ 0)
include hcode hwritten

omit hwritten in
lemma data_ne {w : Bytes} (hw : ∀ c ∈ w, c ≠ 0) (hpairs : pairs w ≠ pairs text) :
    setNextData (codeChar code :: 58 :: unescape w) ≠ ⟨code, some text⟩ := by
  rw [setNextData_quoted hcode, cString_eq (fun hc => hw 0 (mem_of_mem_unescape hc) rfl)]
  intro h
  obtain rfl := Option.some.inj (NextData.mk.inj h).2
  rw [pairs_unescape] at hpairs
  exact hpairs rfl

/-- The field comes back and the reader goes on behind it, if and only if the search does not stop
inside, it stops at the end, and the backslashes are right. -/
lemma field_iff (hsame : pairs written = pairs text) (fuel : Nat) (before : UInt8) (next : Bytes)
    (hnext : ∀ c ∈ next, c ≠ 0) (hlook : next = [] ∨ looksLikeEnd (34 :: 44 :: next))
    (expected : List NextData) :
    (explodeLoop false (fuel + 1) before
        (quoted code written ++ if next = [] then [] else 44 :: next)).map setNextData =
        ⟨code, some text⟩ :: expected ↔
      (¬∃ x, Stops written x) ∧ (written.getLast? = some 92 → next = []) ∧
        unescape written = text ∧
        (if next = [] then [] else explodeLoop false fuel 44 next).map setNextData = expected := by
  have hline : ∀ tail, quoted code written ++ tail =
      34 :: codeChar code :: 58 :: (written ++ 34 :: tail) := by
    intro tail
    simp [quoted]
  have hbehind : Behind (if next = [] then [] else 44 :: next) := by
    split
    · exact .inl rfl
    · exact .inr rfl
  have hdata : setNextData (codeChar code :: 58 :: unescape written) = ⟨code, some text⟩ ↔
      unescape written = text := by
    rw [setNextData_quoted hcode, cString_eq (fun hc => hwritten 0 (mem_of_mem_unescape hc) rfl)]
    simp
  rw [hline]
  by_cases hstops : ∃ x, Stops written x
  · obtain ⟨x, rest, ⟨y, hsplit, -, -⟩, hrun⟩ := explode_cut hcode fuel before hbehind hstops
    rw [hrun]
    refine iff_of_false (fun h => ?_) (fun h => h.1 hstops)
    have hle := pairs_append_le x (34 :: 44 :: y)
    rw [pairs_pair, ← hsplit, hsame] at hle
    exact data_ne hcode (fun c hc => hwritten c (by rw [hsplit]; exact List.mem_append_left _ hc))
      (show pairs x ≠ pairs text by omega) (List.cons.inj h).1
  · by_cases hnil : next = []
    · rw [if_pos hnil, if_pos hnil, explode_last hcode hstops, List.map_singleton, List.map_nil,
        List.cons.injEq, hdata, @eq_comm _ []]
      tauto
    · have hend := hlook.resolve_left hnil
      rw [if_neg hnil, if_neg hnil]
      by_cases hlast : written.getLastD 58 = 92
      · obtain ⟨z, rest, ⟨more, hz⟩, hrun⟩ := explode_swallow hcode hstops fuel before hlast hnil
        rw [hrun]
        refine iff_of_false (fun h => ?_) (fun h => hnil (h.2.1 ((getLastD_eq_iff _).mp hlast)))
        have hle := pairs_append_le written (34 :: 44 :: z)
        rw [pairs_pair, hsame] at hle
        refine data_ne hcode ?_ (show pairs (written ++ 34 :: 44 :: z) ≠ pairs text by omega)
          (List.cons.inj h).1
        intro c hc
        rcases List.mem_append.mp hc with hc | hc
        · exact hwritten c hc
        · rcases List.mem_cons.mp hc with rfl | hc
          · decide
          · rcases List.mem_cons.mp hc with rfl | hc
            · decide
            · exact hnext c (by rw [← hz]; exact List.mem_append_left _ hc)
      · rw [explode_next hcode hstops fuel before hlast hend, List.map_cons, List.cons.injEq, hdata]
        rw [getLastD_eq_iff] at hlast
        tauto

end Field

lemma plain_iff (text : Bytes) :
    ((¬∃ x, Stops text x) ∧ unescape text = text) ↔ NoEscape text ∧ NoEnd text := by
  rw [unescape_eq_self_iff]
  constructor
  · rintro ⟨hstops, hno⟩
    refine ⟨hno, fun x y hsplit hend => hstops ⟨x, y, hsplit, fun hlast => hno ?_, hend⟩⟩
    obtain ⟨front, hfront⟩ := List.getLast?_eq_some_iff.mp ((getLastD_eq_iff x).mp hlast)
    refine ⟨front, y, ?_⟩
    rw [hsplit, hfront]
    simp
  · rintro ⟨hno, hend⟩
    refine ⟨?_, hno⟩
    rintro ⟨x, y, hsplit, -, hlook⟩
    exact hend x y hsplit hlook

lemma codebook_stops (text : Bytes) : ¬∃ x, Stops (escapeLoop 0 text) x := by
  rintro ⟨x, y, hsplit, hlast, -⟩
  have hbefore := escapeLoop_pair hsplit
  rcases List.eq_nil_or_concat' x with rfl | ⟨front, last, rfl⟩
  · simp at hbefore
  · simp only [List.getLastD_concat] at hbefore hlast
    exact hlast hbefore

lemma implode_cons (e : Bool) (f : RowField) (row : List RowField) :
    implodeContentTypeToCsv e (f :: row) = (shown e f).line ++
      if implodeContentTypeToCsv e row = [] then [] else 44 :: implodeContentTypeToCsv e row := by
  cases row with
  | nil =>
    have hsingle : implodeContentTypeToCsv e [f] = implodeField e f := rfl
    rw [hsingle, implodeField_eq, if_pos (show implodeContentTypeToCsv e [] = [] from rfl),
      List.append_nil]
  | cons g row =>
    have hne : implodeContentTypeToCsv e (g :: row) ≠ [] := by
      have hfield : implodeField e g ≠ [] := by
        rw [implodeField_eq]
        exact line_ne_nil _
      cases row with
      | nil => exact hfield
      | cons h row => exact fun hnil => hfield (List.append_eq_nil_iff.mp hnil).1
    rw [if_neg hne, implodeContentTypeToCsv, implodeField_eq]
    exact nofun

lemma implode_eq_nil_iff (e : Bool) (row : List RowField) :
    implodeContentTypeToCsv e row = [] ↔ row = [] := by
  cases row with
  | nil => exact iff_of_true rfl rfl
  | cons f row =>
    refine iff_of_false (fun h => ?_) (List.cons_ne_nil _ _)
    rw [implode_cons] at h
    exact line_ne_nil _ (List.append_eq_nil_iff.mp h).1

lemma implode_looksLikeEnd (e : Bool) (row : List RowField) :
    implodeContentTypeToCsv e row = [] ∨
      looksLikeEnd (34 :: 44 :: implodeContentTypeToCsv e row) := by
  cases row with
  | nil => exact .inl rfl
  | cons f row =>
    rw [implode_cons]
    exact .inr (looksLikeEnd_line (shown_small e f) _)

lemma line_ne_zero {s : Shown} (hs : s.Small) (h : ∀ c ∈ s.text, c ≠ 0) : ∀ c ∈ s.line, c ≠ 0 := by
  have hquoted : ∀ code text, code < 32 → (∀ c ∈ text, c ≠ 0) → ∀ c ∈ quoted code text, c ≠ 0 := by
    intro code text hcode htext c hc
    simp only [quoted, List.mem_append, List.mem_cons, List.not_mem_nil, or_false] at hc
    rcases hc with (rfl | rfl | rfl | hc) | rfl
    · decide
    · exact codeChar_ne (by omega) (by decide)
    · decide
    · exact htext c hc
    · decide
  cases s with
  | null =>
    intro c hc
    rw [List.mem_singleton.mp hc]
    decide
  | plain code text => exact hquoted code text hs h
  | codebook code text =>
    refine hquoted code _ hs (fun c hc => ?_)
    rcases mem_of_mem_escapeLoop hc with hc | rfl
    · exact h c hc
    · decide

lemma implode_ne_zero (e : Bool) (row : List RowField)
    (h : ∀ f ∈ row, ∀ c ∈ (shown e f).text, c ≠ 0) : ∀ c ∈ implodeContentTypeToCsv e row, c ≠ 0 := by
  induction row with
  | nil => exact nofun
  | cons f row ih =>
    have hrest := ih (fun g hg => h g (List.mem_cons_of_mem _ hg))
    intro c hc
    rw [implode_cons] at hc
    rcases List.mem_append.mp hc with hc | hc
    · exact line_ne_zero (shown_small e f) (h f List.mem_cons_self) c hc
    · split at hc
      · cases hc
      · rcases List.mem_cons.mp hc with rfl | hc
        · decide
        · exact hrest c hc

lemma explode_row (e : Bool) (row : List RowField) (h : ∀ f ∈ row, ∀ c ∈ (shown e f).text, c ≠ 0)
    (fuel : Nat) (before : UInt8) (hfuel : (implodeContentTypeToCsv e row).length ≤ fuel) :
    (explodeLoop false fuel before (implodeContentTypeToCsv e row)).map setNextData =
        row.map (fun f => (shown e f).data) ↔ RowOk e row := by
  induction row generalizing fuel before with
  | nil =>
    refine iff_of_true ?_ trivial
    cases fuel <;> rfl
  | cons f row ih =>
    have hrest := ih (fun g hg => h g (List.mem_cons_of_mem _ hg))
    have hzero := implode_ne_zero e row (fun g hg => h g (List.mem_cons_of_mem _ hg))
    have hlook := implode_looksLikeEnd e row
    have hnil := implode_eq_nil_iff e row
    have hsmall := shown_small e f
    have htext := h f List.mem_cons_self
    rw [implode_cons] at hfuel ⊢
    rw [RowOk, List.map_cons]
    generalize implodeContentTypeToCsv e row = next at hfuel hrest hzero hlook hnil ⊢
    have hlen : (shown e f).line.length + next.length ≤ fuel := by
      rw [List.length_append] at hfuel
      split at hfuel
      · rename_i hempty
        rw [hempty]
        simpa using hfuel
      · rw [List.length_cons] at hfuel
        omega
    have hpos := List.length_pos_iff.mpr (line_ne_nil (shown e f))
    obtain ⟨fuel, rfl⟩ : ∃ n, fuel = n + 1 := ⟨fuel - 1, by omega⟩
    -- the rest of the row
    have hgo : (if next = [] then [] else explodeLoop false fuel 44 next).map setNextData =
        row.map (fun f => (shown e f).data) ↔ RowOk e row := by
      rw [← hrest fuel 44 (by omega)]
      by_cases hempty : next = []
      · rw [if_pos hempty, hempty]
        cases fuel <;> rfl
      · rw [if_neg hempty]
    cases hs : shown e f with
    | null =>
      have hrun : explodeLoop false (fuel + 1) before
          ([codeChar iftNull] ++ if next = [] then [] else 44 :: next) =
          [codeChar iftNull] :: if next = [] then [] else explodeLoop false fuel 44 next := by
        have hquote : codeChar iftNull ≠ 34 := by decide
        by_cases hempty : next = []
        · rw [if_pos hempty, if_pos hempty, List.append_nil, explodeLoop, if_neg hquote]
          cases fuel <;> rfl
        · rw [if_neg hempty, if_neg hempty, List.singleton_append, explodeLoop, if_neg hquote]
          rfl
      rw [Shown.line, hrun, List.map_cons, List.cons.injEq, hgo, Shown.Ok]
      exact and_congr_left' (iff_of_true (by decide) trivial)
    | plain code text =>
      rw [hs] at hsmall htext
      have hiff := @field_iff code hsmall text text htext rfl fuel before next hzero hlook
        (row.map (fun f => (shown e f).data))
      rw [Shown.line, Shown.data, hiff, hgo, Shown.Ok, hnil]
      have hplain := plain_iff text
      constructor
      · rintro ⟨hstops, hlast, hunescape, hrow⟩
        obtain ⟨hno, hend⟩ := hplain.mp ⟨hstops, hunescape⟩
        exact ⟨⟨hno, hlast, hend⟩, hrow⟩
      · rintro ⟨⟨hno, hlast, hend⟩, hrow⟩
        obtain ⟨hstops, hunescape⟩ := hplain.mpr ⟨hno, hend⟩
        exact ⟨hstops, hlast, hunescape, hrow⟩
    | codebook code text =>
      rw [hs] at hsmall htext
      have hline := @line_ne_zero (.codebook code text) hsmall htext
      have hiff := @field_iff code hsmall (escapeLoop 0 text) text
        (fun c hc => hline c (by simp [Shown.line, quoted, hc])) (pairs_escapeLoop 0 text) fuel before
        next hzero hlook (row.map (fun f => (shown e f).data))
      have hlast : (escapeLoop 0 text).getLast? = some 92 ↔ text.getLast? = some 92 := by
        rw [← getLastD_eq_iff, ← getLastD_eq_iff, getLast_escapeLoop]
      have hstops := codebook_stops text
      rw [Shown.line, Shown.data, hiff, hgo, Shown.Ok, hnil, unescape_escapeLoop_eq_iff, hlast]
      constructor
      · rintro ⟨-, hend, hno, hrow⟩
        exact ⟨⟨hno, hend⟩, hrow⟩
      · rintro ⟨⟨hno, hend⟩, hrow⟩
        exact ⟨hstops, hend, hno, hrow⟩

lemma implode_trim (e : Bool) (row : List RowField) :
    ((implodeContentTypeToCsv e row).reverse.dropWhile (fun c => c = 13 || c = 10)).reverse =
      implodeContentTypeToCsv e row := by
  have hends : implodeContentTypeToCsv e row = [] ∨
      ∃ front last, implodeContentTypeToCsv e row = front ++ [last] ∧ (last = 34 ∨ last = 80) := by
    induction row with
    | nil => exact .inl rfl
    | cons f row ih =>
      rw [implode_cons]
      refine .inr ?_
      rcases ih with hnil | ⟨front, last, hsplit, hlast⟩
      · rw [if_pos hnil, List.append_nil]
        cases shown e f with
        | null => exact ⟨[], 80, rfl, .inr rfl⟩
        | plain code text => exact ⟨_, 34, rfl, .inl rfl⟩
        | codebook code text => exact ⟨_, 34, rfl, .inl rfl⟩
      · rw [if_neg (by rw [hsplit]; simp), hsplit]
        exact ⟨(shown e f).line ++ 44 :: front, last, by simp, hlast⟩
  rcases hends with hnil | ⟨front, last, hsplit, hlast⟩
  · rw [hnil]
    rfl
  · have hkeep : ¬(last = 13 || last = 10) = true := by
      rcases hlast with rfl | rfl <;> decide
    rw [hsplit, List.reverse_append, List.reverse_singleton, List.singleton_append,
      List.dropWhile_cons, if_neg hkeep, List.reverse_cons, List.reverse_reverse]

lemma ascii_toString_ne_zero (n : Nat) : ∀ c ∈ ascii (toString n), c ≠ 0 := by
  intro c hc
  obtain ⟨d, hd, rfl⟩ := List.mem_map.mp hc
  have hdigit : d.isDigit = true := by
    have hd' : d ∈ n.repr.toList := hd
    rw [Nat.toList_repr] at hd'
    exact Nat.isDigit_of_mem_toDigits (by omega) (by omega) hd'
  have hrange : 48 ≤ d.toNat ∧ d.toNat ≤ 57 := by
    rw [Char.isDigit, Bool.and_eq_true, decide_eq_true_iff, decide_eq_true_iff] at hdigit
    exact ⟨UInt32.le_iff_toNat_le.mp hdigit.1, UInt32.le_iff_toNat_le.mp hdigit.2⟩
  intro hzero
  have hnat := congrArg UInt8.toNat hzero
  rw [UInt8.toNat_ofNat'] at hnat
  have : (0 : UInt8).toNat = 0 := rfl
  omega

lemma shown_text_ne_zero {e : Bool} {f : RowField} (hcontent : ∀ c ∈ f.content, c ≠ 0)
    (hip : ∀ c ∈ f.vIp, c ≠ 0) : ∀ c ∈ (shown e f).text, c ≠ 0 := by
  rw [shown]
  split
  · exact nofun
  · split
    · exact fun c hc => hcontent c (List.mem_of_mem_drop hc)
    · split
      · exact hcontent
      · cases h : f.type <;>
          simp only [Shown.text, RowField.getContentForCsv, h] <;>
          first | exact hcontent | exact hip | exact ascii_toString_ne_zero _

/-- A row comes back, each field with the code of its type and its content, if and only if all its
fields are such that they do. -/
theorem readRow_implode_iff (enableSqlString : Bool) (row : List RowField)
    (hcontent : ∀ f ∈ row, (∀ c ∈ f.content, c ≠ 0) ∧ ∀ c ∈ f.vIp, c ≠ 0) :
    readRow (implodeContentTypeToCsv enableSqlString row) =
        row.map (fun f => (shown enableSqlString f).data) ↔ RowOk enableSqlString row := by
  have htext : ∀ f ∈ row, ∀ c ∈ (shown enableSqlString f).text, c ≠ 0 := fun f hf =>
    shown_text_ne_zero (hcontent f hf).1 (hcontent f hf).2
  rw [readRow, explodeCsv, cString_eq (fun hc => implode_ne_zero enableSqlString row htext 0 hc rfl), implode_trim]
  exact explode_row enableSqlString row htext _ 0 le_rfl

theorem readRow_implode_iff_example :
    readRow (implodeContentTypeToCsv true
      [⟨false, ascii "1.5", .double, [], 0⟩, ⟨true, [], .string, [], 0⟩,
        ⟨false, ascii "Phone \",\"1: x", .cbString .ua, [], 0⟩, ⟨false, [], .ip, ascii "10.0.0.1", 0⟩]) =
      [⟨4, some (ascii "1.5")⟩, ⟨32, none⟩, ⟨17, some (ascii "Phone \",\"1: x")⟩,
        ⟨5, some (ascii "10.0.0.1")⟩] := by
  refine (readRow_implode_iff true _ (by decide +kernel)).mpr ?_
  have hnone : ∀ {text : Bytes}, (34 : UInt8) ∉ text → NoEscape text ∧ NoEnd text := by
    intro text hquote
    refine ⟨fun hinf => hquote (hinf.subset (by decide)), fun x y hsplit => absurd ?_ hquote⟩
    rw [hsplit]
    simp
  refine ⟨?_, trivial, ?_, ?_, trivial⟩
  · exact ⟨(hnone (by decide)).1, by decide, (hnone (by decide)).2⟩
  · exact ⟨by unfold NoEscape; decide, by decide⟩
  · exact ⟨(hnone (by decide)).1, by decide, (hnone (by decide)).2⟩

/-- A text with quotes and commas becomes two fields. -/
theorem readRow_splits_content :
    ¬∀ (enableSqlString : Bool) (row : List RowField),
      (∀ f ∈ row, (∀ c ∈ f.content, c ≠ 0 ∧ c ≠ 13 ∧ c ≠ 10) ∧
        ∀ c ∈ f.vIp, c ≠ 0 ∧ c ≠ 13 ∧ c ≠ 10) →
      readRow (implodeContentTypeToCsv enableSqlString row) =
        row.map (fun f => (shown enableSqlString f).data) := by
  intro h
  have hrow := h true [⟨false, ascii "a\",\"1:b", .string, [], 0⟩] (by decide +kernel)
  exact absurd hrow (by decide +kernel)

end VoipMonitor.Csv
