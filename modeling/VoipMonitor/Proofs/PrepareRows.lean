import VoipMonitor.Proofs.PrepareTexts

/-!
# What a batch of inserts stores

The collected inserts are cut into their tables and rows again, grouped and packed. What the
queries insert is read back by a reader that knows the quoting.
-/

namespace VoipMonitor.PrepareQueries
open VoipMonitor.Library

/-! ### What the queries insert -/

def targetOf (key : Bytes) : Bytes :=
  if ascii "INSERT IGNORE INTO " <+: key then key.drop 19 else key.drop 12

def Insert.target (i : Insert) : Bytes := i.table ++ ascii " ( " ++ joinText [44] i.columns

def insertedRows (queries : List Bytes) : Option (List (Bytes × List Token)) :=
  (queries.mapM readStatement).map (fun l =>
    (SortedMap.listing l).map (fun e => (targetOf e.1, e.2)))

def rowsAt (target : Bytes) (l : List Entry) : List (List Token) :=
  (l.filter (fun e => e.insert.target = target)).map Entry.row

def Value.input? : Value → Option Bytes
  | string input => some input
  | _ => none

def Insert.inputs (i : Insert) : List Bytes := i.values.filterMap Value.input?

/-- No literal of the insert has one of the marks. -/
def Insert.LiteralsFree (check : Bytes → Bool) (marks : List Bytes) (i : Insert) : Prop :=
  ∀ mark ∈ marks, ∀ input ∈ i.inputs, ¬mark <:+: sqlEscapeString check input

section Batch
variable (cfg : Config) (db : DbData) (check : Bytes → Bool) (texts : List QueryText)

/-- The queries insert, for every table and its columns, the rows of the entries in their order. -/
def InsertsRows (l : List Entry) : Prop :=
  ∃ rows, insertedRows (storePrepareQueries cfg db (texts.map (QueryText.text check))) =
      some rows ∧
    ∀ target, SortedMap.valuesAt target rows = rowsAt target l

/-- The rows of the texts in their order. -/
def KeepsRows : Prop := InsertsRows cfg db check texts (expected cfg db check texts)

/-- First the direct inserts, then those that ignore errors, then the others. -/
def inOutputOrder (l : List Entry) : List Entry :=
  l.filter (fun e => e.direct) ++
    ((l.filter (fun e => !e.direct)).filter (fun e => e.insert.insertIgnore) ++
      (l.filter (fun e => !e.direct)).filter (fun e => !e.insert.insertIgnore))

/-- The rows of the texts in the order of the output. -/
def StoresRows : Prop :=
  InsertsRows cfg db check texts (inOutputOrder (expected cfg db check texts))

/-- No literal has a mark that is replaced in its text. -/
def LiteralsFree : Prop :=
  ∀ q ∈ texts, ∀ i ∈ q.inserts, i.LiteralsFree check (q.marks cfg check)

end Batch

/-! ### Tables in the order of the map -/

def ignoreKey (target : Bytes) : Bytes := ascii "INSERT IGNORE INTO " ++ target

def plainKey (target : Bytes) : Bytes := ascii "INSERT INTO " ++ target

lemma Insert.tableColumns_eq (i : Insert) :
    i.tableColumns = if i.insertIgnore then ignoreKey i.target else plainKey i.target := by
  have hignore : ascii "INSERT IGNORE INTO " = ascii "INSERT " ++ (ascii "IGNORE " ++ ascii "INTO ") := by
    decide
  have hplain : ascii "INSERT INTO " = ascii "INSERT " ++ ascii "INTO " := by decide
  rw [Insert.tableColumns, ignoreKey, plainKey, Insert.target, hignore, hplain]
  split
  · simp only [List.append_assoc]
  · simp only [List.append_assoc, List.nil_append]

lemma targetOf_ignoreKey (target : Bytes) : targetOf (ignoreKey target) = target := by
  rw [targetOf, ignoreKey, if_pos (List.prefix_append _ _)]
  exact List.drop_left' (by decide)

lemma targetOf_plainKey (target : Bytes) : targetOf (plainKey target) = target := by
  have hno : ¬ascii "INSERT IGNORE INTO " <+: plainKey target := by
    intro h
    simp [plainKey, ascii] at h
  rw [targetOf, if_neg hno]
  exact List.drop_left' (by decide)

lemma Insert.targetOf_tableColumns (i : Insert) : targetOf i.tableColumns = i.target := by
  rw [Insert.tableColumns_eq]
  split
  · exact targetOf_ignoreKey _
  · exact targetOf_plainKey _

lemma textLt_keys (target : Bytes) : textLt (ignoreKey target) (plainKey target) = true := by
  have hignore : ascii "INSERT IGNORE INTO " = ascii "INSERT I" ++ (71 :: ascii "NORE INTO ") := by
    decide
  have hplain : ascii "INSERT INTO " = ascii "INSERT I" ++ (78 :: ascii "TO ") := by decide
  rw [textLt, decide_eq_true_eq, ignoreKey, plainKey, hignore, hplain, List.append_assoc,
    List.append_assoc, codes, codes, List.map_append, List.map_append]
  exact List.append_left_lt (List.cons_lt_cons_iff.mpr (Or.inl (by decide)))

instance : IsStrictTotalOrder Bytes (fun a b => textLt a b = true) :=
  SortedMap.isStrictTotalOrder_of_key codes codes_injective (fun a b => by simp [textLt])

lemma keys_ne (target : Bytes) : ignoreKey target ≠ plainKey target := by
  intro h
  have hlt := textLt_keys target
  rw [h] at hlt
  exact irrefl_of (fun a b => textLt a b = true) _ hlt

lemma Insert.tableColumns_ignoreKey_iff (i : Insert) (target : Bytes) :
    i.tableColumns = ignoreKey target ↔ i.insertIgnore = true ∧ i.target = target := by
  constructor
  · intro h
    have htarget : i.target = target := by rw [← i.targetOf_tableColumns, h, targetOf_ignoreKey]
    refine ⟨?_, htarget⟩
    by_contra hno
    rw [Insert.tableColumns_eq, if_neg hno, htarget] at h
    exact keys_ne target h.symm
  · rintro ⟨hignore, rfl⟩
    rw [Insert.tableColumns_eq, if_pos hignore]

lemma Insert.tableColumns_plainKey_iff (i : Insert) (target : Bytes) :
    i.tableColumns = plainKey target ↔ i.insertIgnore = false ∧ i.target = target := by
  constructor
  · intro h
    have htarget : i.target = target := by rw [← i.targetOf_tableColumns, h, targetOf_plainKey]
    refine ⟨?_, htarget⟩
    by_contra hno
    rw [Insert.tableColumns_eq, if_pos (by simpa using hno), htarget] at h
    exact keys_ne target h
  · rintro ⟨hno, rfl⟩
    rw [Insert.tableColumns_eq, hno]
    rfl

/-! ### Cutting and grouping -/

lemma rfind_append {needle : Bytes} (hne : needle ≠ []) (front : Bytes) :
    rfind (front ++ needle) needle = some front.length := by
  have hlast : OccursAt needle (front ++ needle) front.length := by
    rw [OccursAt, List.drop_left]
  have hlength : (front ++ needle).length + 1 = front.length + 1 + needle.length := by
    rw [List.length_append]
    omega
  have hbehind : ((List.range needle.length).map (fun j => front.length + 1 + j)).filter
      (fun i => decide (OccursAt needle (front ++ needle) i)) = [] := by
    refine List.filter_eq_nil_iff.mpr (fun i hi hocc => ?_)
    obtain ⟨j, -, rfl⟩ := List.mem_map.mp hi
    have hle := (of_decide_eq_true hocc).add_length_le hne
    rw [List.length_append] at hle
    omega
  rw [rfind, hlength, List.range_add, List.filter_append, hbehind, List.append_nil,
    List.range_succ, List.filter_append, List.filter_singleton, decide_eq_true hlast]
  exact List.getLast?_concat

lemma not_mem_key (i : Insert) : 41 ∉ i.tableColumns :=
  i.not_mem_tableColumns (by decide) (by decide) (by decide) (by decide)

lemma cutInsert_statement (i : Insert) (row : List Token) :
    cutInsert (statement i.tableColumns [row]) = some (i.tableColumns, rowText row) := by
  have hfront : statement i.tableColumns [row] =
      i.tableColumns ++ (valuesSep ++ (rowText row ++ rowEnd)) := by
    rw [statement, rowsText_singleton]
    simp only [List.append_assoc]
  have hbehind : statement i.tableColumns [row] =
      i.tableColumns ++ valuesSep ++ rowText row ++ rowEnd := by
    rw [statement, rowsText_singleton]
  have hvalues : memmem (statement i.tableColumns [row]) valuesSep =
      some i.tableColumns.length := by
    rw [hfront]
    exact memmem_valuesSep (not_mem_key i) _
  have hend : rfind (statement i.tableColumns [row]) rowEnd =
      some (i.tableColumns ++ valuesSep ++ rowText row).length := by
    rw [hbehind]
    exact rfind_append (by decide) _
  have hlength : (i.tableColumns ++ valuesSep ++ rowText row).length =
      i.tableColumns.length + valuesSep.length + (rowText row).length := by
    simp only [List.length_append]
  have hpos : 0 < valuesSep.length := by decide
  have htake : (statement i.tableColumns [row]).take i.tableColumns.length = i.tableColumns := by
    rw [hfront, List.take_left]
  have hslice : slice (statement i.tableColumns [row])
      (i.tableColumns.length + valuesSep.length)
      (i.tableColumns.length + valuesSep.length + (rowText row).length -
        i.tableColumns.length - valuesSep.length) = rowText row := by
    have hdiff : i.tableColumns.length + valuesSep.length + (rowText row).length -
        i.tableColumns.length - valuesSep.length = (rowText row).length := by omega
    rw [hdiff, hbehind, slice, ← List.length_append, List.append_assoc, List.drop_left,
      List.take_left]
  unfold cutInsert
  rw [hvalues, hend, hlength]
  dsimp only
  rw [if_pos (by omega), if_pos (by omega), htake, hslice]

def Entry.keyRow (e : Entry) : Bytes × List Token := (e.insert.tableColumns, e.row)

lemma groupInserts_statements (l : List Entry) :
    groupInserts (l.map Entry.statement) =
      ((SortedMap.group textLt (l.map Entry.keyRow)).map (fun e => (e.1, e.2.map rowText)), []) := by
  rw [← SortedMap.group_map]
  unfold groupInserts
  induction l using List.reverseRecOn with
  | nil => rfl
  | append_singleton l e ih =>
    rw [List.map_append, List.foldl_append, ih, List.map_singleton, List.foldl_cons,
      List.foldl_nil, Entry.statement, cutInsert_statement]
    simp only [List.map_append, List.map_singleton, SortedMap.group_concat]
    rfl

/-! ### Packing -/

lemma Token.Ok.text_ne {t : Token} (h : t.Ok) : t.text ≠ [] := by
  cases t with
  | plain text => exact h.1
  | literal text => exact List.cons_ne_nil _ _

lemma rowText_ne {row : List Token} (hne : row ≠ []) (h : ∀ t ∈ row, t.Ok) : rowText row ≠ [] := by
  obtain ⟨t, row, rfl⟩ := List.exists_cons_of_ne_nil hne
  exact List.append_ne_nil_of_left_ne_nil (h t List.mem_cons_self).text_ne _

lemma rowsText_concat {rows : List (List Token)} (hne : rows ≠ []) (row : List Token) :
    rowsText (rows ++ [row]) = rowsText rows ++ rowSep ++ rowText row := by
  rw [rowsText, rowsText, List.map_append]
  exact joinText_concat rowSep (by simpa using hne) (rowText row)

lemma packRows_text (tooLong : Nat → Bool) (rest : List (List Token)) :
    ∀ rows : List (List Token), rows ≠ [] → rowsText rows ≠ [] →
      (∀ row ∈ rest, rowText row ≠ []) →
      ∃ chunks : List (List (List Token)),
        packRows tooLong (rowsText rows) (rest.map rowText) = chunks.map rowsText ∧
          chunks.flatten = rows ++ rest ∧ ∀ chunk ∈ chunks, chunk ≠ [] := by
  induction rest with
  | nil =>
    intro rows hne _ _
    exact ⟨[rows], rfl, by simp, by simpa using hne⟩
  | cons row rest ih =>
    intro rows hne htext hrest
    have hrow := hrest row List.mem_cons_self
    have hrest' := fun r hr => hrest r (List.mem_cons_of_mem row hr)
    rw [List.map_cons, packRows]
    split
    · obtain ⟨chunks, hpack, hflat, hchunks⟩ := ih [row] (List.cons_ne_nil _ _)
        (by rwa [rowsText_singleton]) hrest'
      rw [rowsText_singleton] at hpack
      refine ⟨rows :: chunks, by rw [hpack, List.map_cons], by rw [List.flatten_cons, hflat]; rfl, ?_⟩
      rintro chunk (_ | ⟨_, hchunk⟩)
      · exact hne
      · exact hchunks chunk hchunk
    · obtain ⟨chunks, hpack, hflat, hchunks⟩ := ih (rows ++ [row]) (by simp)
        (by rw [rowsText_concat hne]; exact List.append_ne_nil_of_right_ne_nil _ hrow) hrest'
      rw [rowsText_concat hne] at hpack
      exact ⟨chunks, hpack, by rw [hflat, List.append_assoc]; rfl, hchunks⟩

lemma packRows_rows {tooLong : Nat → Bool} (hzero : tooLong 0 = false) {rows : List (List Token)}
    (hok : RowsOk rows) :
    ∃ chunks : List (List (List Token)),
      packRows tooLong [] (rows.map rowText) = chunks.map rowsText ∧
        chunks.flatten = rows ∧ ∀ chunk ∈ chunks, RowsOk chunk := by
  obtain ⟨hne, hrows⟩ := hok
  obtain ⟨row, rest, rfl⟩ := List.exists_cons_of_ne_nil hne
  have htext : ∀ r ∈ row :: rest, rowText r ≠ [] := fun r hr =>
    rowText_ne (hrows r hr).1 (hrows r hr).2
  obtain ⟨chunks, hpack, hflat, hchunks⟩ := packRows_text tooLong rest [row]
    (List.cons_ne_nil _ _) (by rw [rowsText_singleton]; exact htext row List.mem_cons_self)
    (fun r hr => htext r (List.mem_cons_of_mem row hr))
  rw [rowsText_singleton] at hpack
  refine ⟨chunks, ?_, hflat, fun chunk hchunk => ⟨hchunks chunk hchunk, fun r hr => hrows r ?_⟩⟩
  · rw [List.map_cons, packRows, List.length_nil, hzero, if_neg Bool.false_ne_true, if_pos rfl,
      hpack]
  · rw [← List.singleton_append, ← hflat]
    exact List.mem_flatten_of_mem hchunk hr

/-! ### Reading the queries -/

def StatementOk (e : Bytes × List (List Token)) : Prop := 41 ∉ e.1 ∧ RowsOk e.2

lemma insertedRows_statements {l : List (Bytes × List (List Token))} (h : ∀ e ∈ l, StatementOk e) :
    insertedRows (l.map (fun e => statement e.1 e.2)) =
      some ((SortedMap.listing l).map (fun e => (targetOf e.1, e.2))) := by
  have hread : (l.map (fun e => statement e.1 e.2)).mapM readStatement = some l := by
    induction l with
    | nil => rfl
    | cons e l ih =>
      obtain ⟨hkey, hrows⟩ := h e List.mem_cons_self
      rw [List.map_cons, List.mapM_cons, readStatement_statement hkey hrows,
        ih (fun e he => h e (List.mem_cons_of_mem _ he))]
      rfl
  rw [insertedRows, hread]
  rfl

lemma exists_packed {tooLong : Nat → Bool} (hzero : tooLong 0 = false)
    (m : List (Bytes × List (List Token))) (h : ∀ e ∈ m, StatementOk e) :
    ∃ l : List (Bytes × List (List Token)),
      m.flatMap (fun e => (packRows tooLong [] (e.2.map rowText)).map
        (fun valuesStr => e.1 ++ valuesSep ++ valuesStr ++ rowEnd)) =
        l.map (fun e => statement e.1 e.2) ∧
      (∀ e ∈ l, StatementOk e) ∧ SortedMap.listing l = SortedMap.listing m := by
  induction m with
  | nil => exact ⟨[], rfl, fun _ he => (by cases he), rfl⟩
  | cons e m ih =>
    obtain ⟨hkey, hrows⟩ := h e List.mem_cons_self
    obtain ⟨l, hl, hok, hlisting⟩ := ih (fun e he => h e (List.mem_cons_of_mem _ he))
    obtain ⟨chunks, hpack, hflat, hchunks⟩ := packRows_rows hzero hrows
    refine ⟨chunks.map (fun chunk => (e.1, chunk)) ++ l, ?_, ?_, ?_⟩
    · rw [List.flatMap_cons, hpack, hl, List.map_append, List.map_map, List.map_map]
      rfl
    · intro x hx
      rcases List.mem_append.mp hx with hx | hx
      · obtain ⟨chunk, hchunk, rfl⟩ := List.mem_map.mp hx
        exact ⟨hkey, hchunks chunk hchunk⟩
      · exact hok x hx
    · have hchunkRows : SortedMap.listing (chunks.map (fun chunk => (e.1, chunk))) =
          e.2.map (fun row => (e.1, row)) := by
        rw [← hflat, SortedMap.listing, List.flatMap_map, List.map_flatten, List.flatMap]
      rw [SortedMap.listing_append, hlisting, hchunkRows]
      rfl

/-! ### The rows of the entries -/

lemma mem_entries {cfg : Config} {tokens : Count → QueryText → Insert → List Token} {e : Entry}
    (texts : List QueryText) : ∀ c, e ∈ entries cfg check tokens c texts →
      ∃ c' q, q ∈ texts ∧ e.insert ∈ q.inserts ∧ e.row = tokens c' q e.insert := by
  induction texts with
  | nil => exact fun _ h => (by cases h)
  | cons q texts ih =>
    intro c h
    rcases List.mem_append.mp h with h | h
    · rcases List.mem_cons.mp h with rfl | h
      · exact ⟨c, q, List.mem_cons_self, List.mem_cons_self, rfl⟩
      · obtain ⟨i, hi, rfl⟩ := List.mem_map.mp h
        exact ⟨c, q, List.mem_cons_self, List.mem_cons_of_mem _ hi, rfl⟩
    · obtain ⟨c', q', hq', hrow⟩ := ih _ h
      exact ⟨c', q', List.mem_cons_of_mem _ hq', hrow⟩

lemma clean_decimalText (n : Nat) : Clean (decimalText n) := by
  intro c hc
  have hdigit := isDigit_bounds (isDigits_decimalText n c hc)
  simp only [plainChar, isPlain, Bool.and_eq_true, decide_eq_true_eq, ne_eq, ← UInt8.toNat_inj]
  simp only [UInt8.reduceToNat]
  omega

lemma clean_append {a b : Bytes} (ha : Clean a) (hb : Clean b) : Clean (a ++ b) :=
  fun c hc => (List.mem_append.mp hc).elim (ha c) (hb c)

lemma clean_variableText {name : Bytes} (h : Clean name) (n : Nat) : Clean (variableText name n) :=
  clean_append (clean_append h (List.all_iff_forall_prop.mp (by decide))) (clean_decimalText n)

lemma variableText_ne (name : Bytes) (n : Nat) : variableText name n ≠ [] :=
  List.append_ne_nil_of_right_ne_nil _ (decimalText_ne_nil n)

lemma storedRow_ok {cfg : Config} (db : DbData) (c : Count) (q : QueryText) (i : Insert) :
    storedRow cfg db check c q i ≠ [] ∧ ∀ t ∈ storedRow cfg db check c q i, t.Ok := by
  refine ⟨fun h => i.row_ne check mainInsertId (List.map_eq_nil_iff.mp h), ?_⟩
  intro t ht
  obtain ⟨u, hu, rfl⟩ := List.mem_map.mp ht
  have hok := i.row_ok isId_mainInsertId hu
  cases hid : q.hasId cfg check with
  | true =>
    rw [replaced_of_hasId db c q hid]
    exact hok.map isMark_mainInsertId (decimalText_ne_nil _) (clean_decimalText _)
  | false =>
    by_cases hnext : q.next = []
    · rw [replaced_of_single db c q hid hnext]
      cases u <;> exact hok
    · rw [replaced_of_next db c q hid hnext]
      have hfirst : (u.map (replaceAll mainInsertId
          (variableText mainInsertId2 ((c.texts + 1) % 2 ^ 32)))).Ok :=
        hok.map isMark_mainInsertId (variableText_ne _ _)
          (clean_variableText (List.all_iff_forall_prop.mp (by decide)) _)
      have hsecond := hfirst.map isMark_mainInsertIdOld
        (variableText_ne mainInsertIdOld2 ((c.texts + 1) % 2 ^ 32))
        (clean_variableText (List.all_iff_forall_prop.mp (by decide)) _)
      cases u <;> exact hsecond

lemma rowsAt_append (target : Bytes) (l l' : List Entry) :
    rowsAt target (l ++ l') = rowsAt target l ++ rowsAt target l' := by
  rw [rowsAt, List.filter_append, List.map_append, ← rowsAt, ← rowsAt]

lemma valuesAt_append (target : Bytes) (l l' : List (Bytes × List Token)) :
    SortedMap.valuesAt target (l ++ l') =
      SortedMap.valuesAt target l ++ SortedMap.valuesAt target l' := by
  rw [SortedMap.valuesAt, List.filter_append, List.map_append]
  rfl

lemma valuesAt_keyRow {l : List Entry} {key target : Bytes} {p : Entry → Bool}
    (h : ∀ i : Insert, ∀ d row, i.tableColumns = key ↔ p ⟨d, i, row⟩ = true ∧ i.target = target) :
    SortedMap.valuesAt key (l.map Entry.keyRow) = rowsAt target (l.filter p) := by
  rw [SortedMap.valuesAt, rowsAt, List.filter_map, List.map_map, List.filter_filter]
  refine congrArg (List.map Entry.row) (List.filter_congr (fun e _ => ?_))
  have he := h e.insert e.direct e.row
  rw [Bool.eq_iff_iff, Function.comp_apply, Bool.and_eq_true, decide_eq_true_eq,
    decide_eq_true_eq, Entry.keyRow, he, and_comm]

lemma valuesAt_direct (target : Bytes) (l : List Entry) :
    SortedMap.valuesAt target ((l.map Entry.keyRow).map (fun e => (targetOf e.1, e.2))) =
      rowsAt target l := by
  rw [SortedMap.valuesAt, rowsAt, List.map_map, List.filter_map, List.map_map]
  refine congrArg (List.map Entry.row) (List.filter_congr (fun e _ => ?_))
  simp only [Function.comp_apply, Entry.keyRow, e.insert.targetOf_tableColumns]

lemma valuesAt_grouped (target : Bytes) (l : List Entry) :
    SortedMap.valuesAt target ((SortedMap.listing (SortedMap.group textLt
      (l.map Entry.keyRow))).map (fun e => (targetOf e.1, e.2))) =
      rowsAt target (l.filter (fun e => e.insert.insertIgnore)) ++
        rowsAt target (l.filter (fun e => !e.insert.insertIgnore)) := by
  have hkeys : (SortedMap.listing (SortedMap.group textLt (l.map Entry.keyRow))).filter
      (fun e => targetOf e.1 = target) =
      (SortedMap.listing (SortedMap.group textLt (l.map Entry.keyRow))).filter
        (fun e => e.1 = ignoreKey target ∨ e.1 = plainKey target) := by
    refine List.filter_congr (fun e he => decide_eq_decide.mpr ?_)
    obtain ⟨entry, -, rfl⟩ := List.mem_map.mp (SortedMap.mem_listing_group he)
    rw [Entry.keyRow, Insert.targetOf_tableColumns, Insert.tableColumns_ignoreKey_iff,
      Insert.tableColumns_plainKey_iff]
    cases entry.insert.insertIgnore <;> simp
  rw [SortedMap.valuesAt, List.filter_map, List.map_map]
  have hfilter := SortedMap.listing_group_filter (l.map Entry.keyRow) (textLt_keys target)
  change List.map Prod.snd (List.filter (fun e => targetOf e.1 = target) _) = _
  rw [hkeys, hfilter, List.map_append, List.map_map, List.map_map]
  change List.map id _ ++ List.map id _ = _
  rw [List.map_id, List.map_id]
  refine congrArg₂ (· ++ ·) (valuesAt_keyRow (fun i _ _ => ?_)) (valuesAt_keyRow (fun i _ _ => ?_))
  · exact i.tableColumns_ignoreKey_iff target
  · rw [i.tableColumns_plainKey_iff target, Bool.not_eq_true']

lemma statementOk_group {l : List Entry} (h : ∀ e ∈ l, e.row ≠ [] ∧ ∀ t ∈ e.row, t.Ok)
    {e : Bytes × List (List Token)} (he : e ∈ SortedMap.group textLt (l.map Entry.keyRow)) :
    StatementOk e := by
  have hne := SortedMap.group_ne_nil _ he
  have hentry : ∀ row ∈ e.2, ∃ entry ∈ l, entry.insert.tableColumns = e.1 ∧ entry.row = row := by
    intro row hrow
    have hlisted : (e.1, row) ∈ SortedMap.listing (SortedMap.group textLt (l.map Entry.keyRow)) :=
      List.mem_flatMap.mpr ⟨e, he, List.mem_map_of_mem hrow⟩
    obtain ⟨entry, hmem, heq⟩ := List.mem_map.mp (SortedMap.mem_listing_group hlisted)
    exact ⟨entry, hmem, congrArg Prod.fst heq, congrArg Prod.snd heq⟩
  constructor
  · obtain ⟨row, hrow⟩ := List.exists_mem_of_ne_nil _ hne
    obtain ⟨entry, -, hkey, -⟩ := hentry row hrow
    rw [← hkey]
    exact not_mem_key entry.insert
  · refine ⟨hne, fun row hrow => ?_⟩
    obtain ⟨entry, hmem, -, rfl⟩ := hentry row hrow
    exact h entry hmem

lemma storePrepareQueries_rows {cfg : Config} (db : DbData) (check : Bytes → Bool)
    (hmulti : cfg.enableMultipleRowsInsert = true) (texts : List QueryText) :
    ∃ rows, insertedRows (storePrepareQueries cfg db (texts.map (QueryText.text check))) =
        some rows ∧
      ∀ target, SortedMap.valuesAt target rows =
        rowsAt target (inOutputOrder (stored cfg db check texts)) := by
  obtain ⟨c', hfold⟩ := prepareText_texts db check hmulti texts {} [] []
  have hrow : ∀ e ∈ stored cfg db check texts, e.row ≠ [] ∧ ∀ t ∈ e.row, t.Ok := by
    intro e he
    obtain ⟨c, q, -, -, hrow⟩ := mem_entries texts _ he
    rw [hrow]
    exact storedRow_ok db c q e.insert
  rw [← stored] at hfold
  generalize stored cfg db check texts = l at hfold hrow
  have hgroup : ∀ e ∈ SortedMap.group textLt
      ((l.filter (fun e => !e.direct)).map Entry.keyRow), StatementOk e :=
    fun e he => statementOk_group (fun e he => hrow e (List.mem_of_mem_filter he)) he
  obtain ⟨packed, hpacked, hok, hlisting⟩ := exists_packed cfg.tooLong_zero _ hgroup
  have hout : storePrepareQueries cfg db (texts.map (QueryText.text check)) =
      ((l.filter (fun e => e.direct)).map (fun e => (e.insert.tableColumns, [e.row])) ++
        packed).map (fun e => statement e.1 e.2) := by
    have hstart : ({} : Prepared) = prepared {} [] [] := rfl
    unfold storePrepareQueries
    rw [hstart, hfold]
    simp only [prepared, List.nil_append, groupInserts_statements, List.append_nil]
    rw [List.map_append, ← hpacked, List.map_map, List.flatMap_map]
    rfl
  refine ⟨_, (congrArg insertedRows hout).trans (insertedRows_statements ?_), fun target => ?_⟩
  · intro e he
    rcases List.mem_append.mp he with he | he
    · obtain ⟨entry, hentry, rfl⟩ := List.mem_map.mp he
      refine ⟨not_mem_key entry.insert, List.cons_ne_nil _ _, fun row hr => ?_⟩
      rw [List.mem_singleton.mp hr]
      exact hrow entry (List.mem_of_mem_filter hentry)
    · exact hok e he
  · have hdirect : SortedMap.listing ((l.filter (fun e => e.direct)).map
        (fun e => (e.insert.tableColumns, [e.row]))) =
        (l.filter (fun e => e.direct)).map Entry.keyRow := by
      rw [SortedMap.listing, List.flatMap_map, List.map_eq_flatMap]
      rfl
    rw [SortedMap.listing_append, hlisting, hdirect, List.map_append, valuesAt_append,
      valuesAt_direct, valuesAt_grouped, inOutputOrder, rowsAt_append, rowsAt_append]

end VoipMonitor.PrepareQueries
