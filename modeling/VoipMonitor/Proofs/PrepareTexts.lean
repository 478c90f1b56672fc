import VoipMonitor.Proofs.PrepareStatements

/-!
# The inserts of one query text

The marks between the inserts do not occur in them, so a text is cut into its inserts. The
placeholder is replaced in every insert as a text, within literals too (`prepareText_text`).
-/

namespace VoipMonitor.PrepareQueries
open VoipMonitor.Library

/-! ### The entries of a batch -/

/-- The token of a value when the placeholder is `id`. -/
def Value.token (check : Bytes → Bool) (id : Bytes) : Value → Token
  | number text _ _ => .plain text
  | mainInsertId => .plain id
  | string input => .literal (sqlEscapeString check input)

def Insert.row (check : Bytes → Bool) (id : Bytes) (i : Insert) : List Token :=
  i.values.map (Value.token check id)

def QueryText.inserts (q : QueryText) : List Insert := q.main :: q.next

def variableText (name : Bytes) (n : Nat) : Bytes := name ++ ascii "_" ++ decimalText n

section Text
variable (cfg : Config) (db : DbData) (check : Bytes → Bool)

def QueryText.hasId (q : QueryText) : Bool :=
  cfg.enableSetId && (memmem (mainInsert ++ q.main.query check) mainInsertId).isSome

def QueryText.marks (q : QueryText) : List Bytes :=
  if q.hasId cfg check then [mainInsertId]
  else if q.next = [] then []
  else [mainInsertId, mainInsertIdOld]

structure Count where
  texts : Nat := 0
  ids : Nat := 0

def Count.next (c : Count) (q : QueryText) : Count :=
  if q.hasId cfg check then { c with ids := c.ids + 1 }
  else if q.next = [] then c
  else { c with texts := (c.texts + 1) % 2 ^ 32 }

def idOf (c : Count) (q : QueryText) : Bytes :=
  if q.hasId cfg check then decimalText (db.getAiId c.ids q.main.table)
  else if q.next = [] then mainInsertId
  else variableText mainInsertId2 ((c.texts + 1) % 2 ^ 32)

def replaced (c : Count) (q : QueryText) (text : Bytes) : Bytes :=
  if q.hasId cfg check then replaceAll mainInsertId (idOf cfg db check c q) text
  else if q.next = [] then text
  else replaceAll mainInsertIdOld (variableText mainInsertIdOld2 ((c.texts + 1) % 2 ^ 32))
    (replaceAll mainInsertId (idOf cfg db check c q) text)

def storedRow (c : Count) (q : QueryText) (i : Insert) : List Token :=
  (i.row check mainInsertId).map (Token.map (replaced cfg db check c q))

/-- An insert with its tokens; a direct one does not go to the groups. -/
structure Entry where
  direct : Bool
  insert : Insert
  row : List Token

def textEntries (tokens : Insert → List Token) (q : QueryText) : List Entry :=
  ⟨!q.hasId cfg check, q.main, tokens q.main⟩ :: q.next.map (fun i => ⟨false, i, tokens i⟩)

def entries (tokens : Count → QueryText → Insert → List Token) :
    Count → List QueryText → List Entry
  | _, [] => []
  | c, q :: texts =>
    textEntries cfg check (tokens c q) q ++ entries tokens (c.next cfg check q) texts

def expected (texts : List QueryText) : List Entry :=
  entries cfg check (fun c q i => i.row check (idOf cfg db check c q)) {} texts

def stored (texts : List QueryText) : List Entry :=
  entries cfg check (storedRow cfg db check) {} texts

end Text

/-! ### The text of an insert -/

variable {check : Bytes → Bool}

lemma isNameChar_iff (c : UInt8) : isNameChar c = true ↔
    (48 ≤ c.toNat ∧ c.toNat ≤ 57) ∨ (65 ≤ c.toNat ∧ c.toNat ≤ 90) ∨
      (97 ≤ c.toNat ∧ c.toNat ≤ 122) ∨ c.toNat = 95 ∨ c.toNat = 96 := by
  simp only [isNameChar, Bool.or_eq_true, Bool.and_eq_true, decide_eq_true_eq,
    UInt8.le_iff_toNat_le, ← UInt8.toNat_inj]
  simp only [UInt8.reduceToNat]
  tauto

lemma isNumberChar_iff (c : UInt8) : isNumberChar c = true ↔
    (48 ≤ c.toNat ∧ c.toNat ≤ 57) ∨ c.toNat = 43 ∨ c.toNat = 45 ∨ c.toNat = 46 ∨
      c.toNat = 69 ∨ c.toNat = 101 := by
  simp only [isNumberChar, Bool.or_eq_true, Bool.and_eq_true, decide_eq_true_eq,
    UInt8.le_iff_toNat_le, ← UInt8.toNat_inj]
  simp only [UInt8.reduceToNat]
  tauto

lemma Value.content_eq (v : Value) :
    v.content check = (v.token check PrepareQueries.mainInsertId).text := by
  cases v <;> rfl

lemma Insert.query_eq (i : Insert) :
    i.query check = statement i.tableColumns [i.row check mainInsertId] := by
  have hvalues : i.values.map (Value.content check) =
      (i.row check mainInsertId).map Token.text := by
    rw [Insert.row, List.map_map]
    exact List.map_congr_left (fun v _ => v.content_eq)
  rw [Insert.query, statement, rowsText_singleton, rowText, hvalues]

lemma Insert.mem_tableColumns {i : Insert} {c : UInt8} (hc : c ∈ i.tableColumns) :
    isNameChar c = true ∨ c.toNat = 32 ∨ c.toNat = 40 ∨ c.toNat = 44 := by
  have hfixed : ∀ text : Bytes, (∀ c ∈ text, isNameChar c = true ∨ c.toNat = 32 ∨ c.toNat = 40) →
      c ∈ text → isNameChar c = true ∨ c.toNat = 32 ∨ c.toNat = 40 ∨ c.toNat = 44 :=
    fun text h hmem => by
      have := h c hmem
      tauto
  rw [Insert.tableColumns] at hc
  simp only [List.mem_append] at hc
  rcases hc with ((((hc | hc) | hc) | hc) | hc) | hc
  · exact hfixed (ascii "INSERT ") (List.all_iff_forall_prop.mp (by decide)) hc
  · refine hfixed _ ?_ hc
    cases i.insertIgnore <;> exact List.all_iff_forall_prop.mp (by decide)
  · exact hfixed (ascii "INTO ") (List.all_iff_forall_prop.mp (by decide)) hc
  · exact Or.inl (i.table_name c hc)
  · exact hfixed (ascii " ( ") (List.all_iff_forall_prop.mp (by decide)) hc
  · rcases mem_joinText hc with h | ⟨column, hmem, h⟩
    · rw [List.mem_singleton.mp h]
      decide
    · exact Or.inl (i.columns_name column hmem c h)

lemma Insert.not_mem_tableColumns (i : Insert) {c : UInt8} (hname : isNameChar c = false)
    (hblank : c.toNat ≠ 32) (hbracket : c.toNat ≠ 40) (hcomma : c.toNat ≠ 44) :
    c ∉ i.tableColumns := by
  intro hc
  have := Insert.mem_tableColumns hc
  rw [hname] at this
  tauto

structure IsId (id : Bytes) : Prop where
  ne : id ≠ []
  chars : ∀ c ∈ id, isPlain c = true ∧ c ≠ 39 ∧ c ≠ 0

lemma isId_mainInsertId : IsId mainInsertId :=
  ⟨by decide, List.all_iff_forall_prop.mp (by decide)⟩

lemma Value.token_ok {id : Bytes} (hid : IsId id) (v : Value) : (v.token check id).Ok := by
  cases v with
  | number text hne hchars =>
    refine ⟨hne, fun c hc => ?_⟩
    have hnumber := (isNumberChar_iff c).mp (hchars c hc)
    simp only [isPlain, Bool.and_eq_true, decide_eq_true_eq, ne_eq, ← UInt8.toNat_inj]
    simp only [UInt8.reduceToNat]
    omega
  | mainInsertId => exact ⟨hid.ne, fun c hc => ⟨(hid.chars c hc).1, (hid.chars c hc).2.1⟩⟩
  | string input => exact escaped_sqlEscapeString check input

lemma Insert.row_ok {id : Bytes} (hid : IsId id) (i : Insert) {t : Token}
    (ht : t ∈ i.row check id) : t.Ok := by
  obtain ⟨v, -, rfl⟩ := List.mem_map.mp ht
  exact v.token_ok hid

lemma Insert.row_ne (check : Bytes → Bool) (id : Bytes) (i : Insert) : i.row check id ≠ [] := by
  rw [Insert.row, ne_eq, List.map_eq_nil_iff]
  exact i.values_ne

/-! ### Cutting a text -/

lemma Escaped.not_mem_zero {s : Bytes} (hs : Escaped s) : 0 ∉ s := by
  induction hs with
  | nil => exact List.not_mem_nil
  | plain hc _ ih =>
    rintro (_ | ⟨_, h⟩)
    · exact absurd hc (by decide)
    · exact ih h
  | escape hc _ ih =>
    rintro (_ | ⟨_, _ | ⟨_, h⟩⟩)
    · exact absurd hc (by decide)
    · exact ih h

lemma Value.not_mem_zero {id : Bytes} (hid : IsId id) (v : Value) :
    0 ∉ (v.token check id).text := by
  cases v with
  | number text _ hchars => exact fun h => absurd (hchars 0 h) (by decide)
  | mainInsertId => exact fun h => (hid.chars 0 h).2.2 rfl
  | string input =>
    intro h
    rcases List.mem_cons.mp h with h | h
    · exact absurd h (by decide)
    · rcases List.mem_append.mp h with h | h
      · exact (escaped_sqlEscapeString check input).not_mem_zero h
      · exact absurd (List.mem_singleton.mp h) (by decide)

lemma Insert.not_mem_zero (i : Insert) : 0 ∉ i.query check := by
  rw [Insert.query_eq, statement, rowsText_singleton]
  simp only [List.mem_append, not_or]
  refine ⟨⟨⟨i.not_mem_tableColumns (by decide) (by decide) (by decide) (by decide), by decide⟩, ?_⟩,
    by decide⟩
  intro h
  rcases mem_joinText h with h | ⟨text, hmem, h⟩
  · exact absurd h (by decide)
  · obtain ⟨t, ht, rfl⟩ := List.mem_map.mp hmem
    obtain ⟨v, -, rfl⟩ := List.mem_map.mp ht
    exact v.not_mem_zero isId_mainInsertId h

def IsPrefix (pre : Bytes) : Prop := pre = mainInsert ∨ pre = nextInsertGroup

lemma IsPrefix.not_mem {pre : Bytes} (h : IsPrefix pre) :
    (39 : UInt8) ∉ pre ∧ (64 : UInt8) ∉ pre ∧ (0 : UInt8) ∉ pre := by
  rcases h with rfl | rfl <;> decide

lemma QueryText.mem_parts {q : QueryText} {part : Bytes} (h : part ∈ q.parts check) :
    ∃ (pre : Bytes) (i : Insert), IsPrefix pre ∧ part = pre ++ i.query check := by
  rcases List.mem_cons.mp h with rfl | h
  · exact ⟨mainInsert, q.main, Or.inl rfl, rfl⟩
  · obtain ⟨i, -, rfl⟩ := List.mem_map.mp h
    exact ⟨nextInsertGroup, i, Or.inr rfl, rfl⟩

lemma QueryText.apart {q : QueryText} {part : Bytes} (h : part ∈ q.parts check) : Apart part := by
  obtain ⟨pre, i, hpre, rfl⟩ := QueryText.mem_parts h
  rw [Insert.query_eq]
  exact apart_statement hpre.not_mem.1
    (i.not_mem_tableColumns (by decide) (by decide) (by decide) (by decide))
    (fun t ht => i.row_ok isId_mainInsertId ht)

lemma QueryText.part_ne_nil {q : QueryText} {part : Bytes} (h : part ∈ q.parts check) :
    part ≠ [] := by
  obtain ⟨pre, i, hpre, rfl⟩ := QueryText.mem_parts h
  rcases hpre with rfl | rfl
  · exact List.cons_ne_nil _ _
  · exact List.cons_ne_nil _ _

lemma QueryText.text_not_mem_zero (q : QueryText) : 0 ∉ q.text check := by
  intro h
  rcases mem_joinText h with h | ⟨part, hmem, h⟩
  · exact absurd h (by decide)
  · obtain ⟨pre, i, hpre, rfl⟩ := QueryText.mem_parts hmem
    rcases List.mem_append.mp h with h | h
    · exact hpre.not_mem.2.2 h
    · exact i.not_mem_zero h

lemma split_text (q : QueryText) : split [queryEnd, queryEndSubst] (q.text check) = q.parts check := by
  have hfilter : (q.parts check).filter (· ≠ []) = q.parts check :=
    List.filter_eq_self.mpr (fun part h => by simpa using QueryText.part_ne_nil h)
  have hpieces : pieces queryEnd (q.text check) = q.parts check :=
    pieces_joinText (by decide) (by decide) (List.cons_ne_nil _ _) (fun part h j =>
      (QueryText.apart h).not_occurs rfl rfl rfl (by decide) j)
  have hsubst : ∀ part ∈ q.parts check,
      (pieces queryEndSubst part).filter (· ≠ []) = [part] := by
    intro part h
    rw [pieces_of_not_occurs (fun j _ =>
      (QueryText.apart h).not_occurs rfl rfl rfl (by decide) j)]
    simpa using QueryText.part_ne_nil h
  rw [split, List.foldl_cons, List.foldl_cons, List.foldl_nil,
    cString_eq q.text_not_mem_zero, List.flatMap_singleton, hpieces, hfilter,
    List.flatMap_congr hsubst, List.flatMap_singleton']

lemma substCodebooks_part (db : DbData) {q : QueryText} {part : Bytes}
    (h : part ∈ q.parts check) (fuel : Nat) : substCodebooks db fuel part = part := by
  have hnone : memmem part codebookIdPrefix = none :=
    (memmem_eq_none (by decide)).mpr (fun j =>
      (QueryText.apart h).not_occurs rfl rfl rfl (by decide) j)
  cases fuel with
  | zero => rfl
  | succ fuel => rw [substCodebooks, codebookRound, hnone]

/-! ### The table of the main record -/

lemma trim_blanks {text : Bytes} (h : ∀ c ∈ text, isTrimmed c = false) :
    trim (32 :: (text ++ [32])) = text := by
  have hdrop : ∀ {l : Bytes}, (∀ c ∈ l, isTrimmed c = false) → l.dropWhile isTrimmed = l := by
    intro l hl
    cases l with
    | nil => rfl
    | cons c l => rw [List.dropWhile_cons_of_neg (by simp [hl c List.mem_cons_self])]
  cases text with
  | nil => decide
  | cons c text =>
    have hfront : (32 :: (c :: text ++ [32])).dropWhile isTrimmed = c :: text ++ [32] := by
      rw [List.dropWhile_cons_of_pos (by decide), List.cons_append,
        List.dropWhile_cons_of_neg (by simp [h c List.mem_cons_self])]
    rw [trim, hfront, List.reverse_append, List.reverse_singleton, List.singleton_append,
      List.dropWhile_cons_of_pos (by decide),
      hdrop (fun d hd => h d (List.mem_reverse.mp hd)), List.reverse_reverse]

lemma memmem_append_of_none {needle front : Bytes} (hne : needle ≠ []) (hub : Unbordered needle)
    (hno : memmem front needle = none) (rest : Bytes) :
    memmem (front ++ (needle ++ rest)) needle = some front.length :=
  (memmem_eq_some hne).mpr (first_occurrence hub ((memmem_eq_none hne).mp hno))

lemma memmem_singleton_eq_none {c : UInt8} {text : Bytes} (h : c ∉ text) :
    memmem text [c] = none := by
  refine (memmem_eq_none (List.cons_ne_nil c [])).mpr (fun j hocc => h ?_)
  exact (hocc.subset List.mem_cons_self) |> List.mem_of_mem_drop

lemma tableMainRecord_main (i : Insert) (rest : List Bytes)
    (h : memmem (mainInsert ++ i.query check) mainInsertId ≠ none) :
    tableMainRecord ((mainInsert ++ i.query check) :: rest) = some i.table := by
  obtain ⟨front, hfront, hbracket, tail, hsplit⟩ : ∃ front : Bytes,
      memmem front (ascii "INTO") = none ∧ (40 : UInt8) ∉ front ∧ ∃ tail : Bytes,
        mainInsert ++ i.query check =
          front ++ (ascii "INTO" ++ (32 :: (i.table ++ [32]) ++ ([40] ++ tail))) := by
    refine ⟨mainInsert ++ ascii "INSERT " ++ (if i.insertIgnore then ascii "IGNORE " else []),
      ?_, ?_, 32 :: (joinText [44] i.columns ++ (valuesSep ++
        (joinText [44] (i.values.map (Value.content check)) ++ rowEnd))), ?_⟩
    · cases i.insertIgnore <;> decide
    · cases i.insertIgnore <;> decide
    · have hintoBlank : ascii "INTO " = ascii "INTO" ++ [32] := by decide
      have hbracketBlanks : ascii " ( " = [32] ++ ([40] ++ [32]) := by decide
      rw [Insert.query, Insert.tableColumns, hintoBlank, hbracketBlanks]
      simp only [List.append_assoc, List.cons_append, List.nil_append]
  have hname : ∀ c ∈ i.table, c ≠ 40 ∧ isTrimmed c = false := by
    intro c hc
    have hn := (isNameChar_iff c).mp (i.table_name c hc)
    simp only [isTrimmed, decide_eq_false_iff_not, not_or, ne_eq, ← UInt8.toNat_inj]
    simp only [UInt8.reduceToNat]
    omega
  have hinto : memmem (mainInsert ++ i.query check) (ascii "INTO") = some front.length := by
    rw [hsplit]
    exact memmem_append_of_none (by decide) (by decide) hfront _
  have hopen : memmem (mainInsert ++ i.query check) [40] =
      some (front ++ ascii "INTO" ++ 32 :: (i.table ++ [32])).length := by
    rw [hsplit, ← List.append_assoc, ← List.append_assoc]
    refine memmem_append_of_none (by decide) (by decide) (memmem_singleton_eq_none ?_) _
    simp only [List.mem_append, List.mem_cons, not_or]
    refine ⟨⟨hbracket, by decide⟩, by decide, fun hc => (hname 40 hc).1 rfl, by decide, by simp⟩
  have hslice : slice (mainInsert ++ i.query check) (front.length + 4)
      ((front ++ ascii "INTO" ++ 32 :: (i.table ++ [32])).length - front.length - 4) =
      32 :: (i.table ++ [32]) := by
    have hlength : (front ++ ascii "INTO").length = front.length + 4 := List.length_append
    have hdiff : (front ++ ascii "INTO" ++ 32 :: (i.table ++ [32])).length - front.length - 4 =
        (32 :: (i.table ++ [32])).length := by
      rw [List.length_append, hlength]
      omega
    rw [hsplit, slice, ← List.append_assoc, hdiff, ← hlength, List.drop_left, List.take_left]
  have hlt : front.length < (front ++ ascii "INTO" ++ 32 :: (i.table ++ [32])).length := by
    rw [List.append_assoc, List.length_append]
    exact Nat.lt_add_of_pos_right (by simp)
  rw [tableMainRecord, List.findSome?_cons, if_pos ⟨List.prefix_append _ _, h⟩, hinto, hopen]
  dsimp only
  rw [if_pos hlt, hslice, trim_blanks (fun c hc => (hname c hc).2)]

lemma tableMainRecord_parts (q : QueryText) : tableMainRecord (q.parts check) =
    if (memmem (mainInsert ++ q.main.query check) mainInsertId).isSome then some q.main.table
    else none := by
  split
  · rename_i hmark
    exact tableMainRecord_main q.main _ (fun h => by rw [h] at hmark; cases hmark)
  · rename_i hmark
    have hnone : memmem (mainInsert ++ q.main.query check) mainInsertId = none := by
      simpa using hmark
    rw [tableMainRecord, List.findSome?_eq_none_iff]
    intro part hpart
    rcases List.mem_cons.mp hpart with rfl | hpart
    · exact if_neg (fun h => h.2 hnone)
    · obtain ⟨i, -, rfl⟩ := List.mem_map.mp hpart
      exact if_neg (fun h => absurd h.1 (by simp [mainInsert, nextInsertGroup, ascii]))

/-! ### One text -/

lemma isMark_mainInsertId : IsMark mainInsertId :=
  ⟨rfl, List.all_iff_forall_prop.mp (by decide)⟩

lemma isMark_mainInsertIdOld : IsMark mainInsertIdOld :=
  ⟨rfl, List.all_iff_forall_prop.mp (by decide)⟩

lemma replaceAll_insert {find repl pre : Bytes} (hm : IsMark find) (hpre : IsPrefix pre)
    (i : Insert) (row : List Token) :
    replaceAll find repl (pre ++ statement i.tableColumns [row]) =
      pre ++ statement i.tableColumns [row.map (Token.map (replaceAll find repl))] :=
  replaceAll_statement hm hpre.not_mem.2.1
    (i.not_mem_tableColumns (by decide) (by decide) (by decide) (by decide)) row

lemma Token.map_map (f g : Bytes → Bytes) (row : List Token) :
    (row.map (Token.map f)).map (Token.map g) = row.map (Token.map (fun text => g (f text))) := by
  rw [List.map_map]
  refine List.map_congr_left (fun t _ => ?_)
  cases t <;> rfl

lemma Token.map_id (row : List Token) : row.map (Token.map id) = row := by
  have hid : Token.map id = id := by
    funext t
    cases t <;> rfl
  rw [hid, List.map_id]

lemma takeInserts_eq (prefixes queries : List Bytes) :
    takeInserts prefixes queries =
      (queries.filterMap (fun q => (prefixes.find? (fun p => decide (p <+: q))).map
        (fun p => q.drop p.length)),
       queries.filter (fun q => (prefixes.find? (fun p => decide (p <+: q))).isNone)) := by
  unfold takeInserts
  induction queries using List.reverseRecOn with
  | nil => rfl
  | append_singleton queries q ih =>
    rw [List.foldl_append, ih, List.foldl_cons, List.foldl_nil, List.filterMap_append,
      List.filter_append]
    cases hfind : prefixes.find? (fun p => decide (p <+: q)) with
    | none =>
      rw [List.filterMap_cons_none (by rw [hfind]; rfl), List.filterMap_nil, List.append_nil,
        List.filter_cons_of_pos (by rw [hfind]; rfl), List.filter_nil]
    | some p =>
      rw [List.filterMap_cons_some (by rw [hfind]; rfl), List.filterMap_nil,
        List.filter_cons_of_neg (by rw [hfind]; exact Bool.false_ne_true), List.filter_nil,
        List.append_nil]

lemma find?_mainInsert (prefixes : List Bytes) (text : Bytes) :
    (mainInsert :: prefixes).find? (fun p => decide (p <+: mainInsert ++ text)) =
      some mainInsert := by
  rw [List.find?_cons_of_pos (by simp)]

lemma find?_nextInsertGroup (text : Bytes) :
    [mainInsert, nextInsertGroup].find? (fun p => decide (p <+: nextInsertGroup ++ text)) =
      some nextInsertGroup := by
  rw [List.find?_cons_of_neg (by simp [mainInsert, nextInsertGroup, ascii]),
    List.find?_cons_of_pos (by simp)]

lemma stripPrefix_mainInsert (text : Bytes) : stripPrefix (mainInsert ++ text) = text := by
  rw [stripPrefix, find?_mainInsert]
  exact List.drop_left

section Prefixes
variable (q : QueryText) (g : Insert → Bytes)

def withPrefixes : List Bytes :=
  (mainInsert ++ g q.main) :: q.next.map (fun i => nextInsertGroup ++ g i)

lemma map_parts {f : Bytes → Bytes}
    (h : ∀ pre i, IsPrefix pre → f (pre ++ i.query check) = pre ++ g i) :
    (q.parts check).map f = withPrefixes q g := by
  rw [QueryText.parts, withPrefixes, List.map_cons, h _ _ (Or.inl rfl), List.map_map]
  congr 1
  exact List.map_congr_left (fun i _ => h _ i (Or.inr rfl))

lemma map_withPrefixes {f : Bytes → Bytes} {g' : Insert → Bytes}
    (h : ∀ pre i, IsPrefix pre → f (pre ++ g i) = pre ++ g' i) :
    (withPrefixes q g).map f = withPrefixes q g' := by
  rw [withPrefixes, withPrefixes, List.map_cons, h _ _ (Or.inl rfl), List.map_map]
  congr 1
  exact List.map_congr_left (fun i _ => h _ i (Or.inr rfl))

lemma takeInserts_all :
    takeInserts [mainInsert, nextInsertGroup] (withPrefixes q g) = (q.inserts.map g, []) := by
  rw [takeInserts_eq, withPrefixes]
  refine congrArg₂ Prod.mk ?_ ?_
  · rw [List.filterMap_cons_some (by rw [find?_mainInsert]; rfl), List.filterMap_map,
      QueryText.inserts, List.map_cons]
    refine congrArg₂ List.cons List.drop_left ?_
    rw [← List.filterMap_eq_map]
    refine List.filterMap_congr (fun i _ => ?_)
    rw [Function.comp_apply, find?_nextInsertGroup, Option.map_some, List.drop_left]
    rfl
  · refine List.filter_eq_nil_iff.mpr (fun part hpart => ?_)
    rcases List.mem_cons.mp hpart with rfl | hpart
    · rw [find?_mainInsert]
      exact Bool.false_ne_true
    · obtain ⟨i, -, rfl⟩ := List.mem_map.mp hpart
      rw [find?_nextInsertGroup]
      exact Bool.false_ne_true

lemma takeInserts_next :
    takeInserts [nextInsertGroup] (withPrefixes q g) = (q.next.map g, [mainInsert ++ g q.main]) := by
  have hmain : [nextInsertGroup].find? (fun p => decide (p <+: mainInsert ++ g q.main)) = none := by
    simp [mainInsert, nextInsertGroup, ascii]
  have hnext : ∀ text, [nextInsertGroup].find? (fun p => decide (p <+: nextInsertGroup ++ text)) =
      some nextInsertGroup := fun text => List.find?_cons_of_pos (by simp)
  rw [takeInserts_eq, withPrefixes]
  refine congrArg₂ Prod.mk ?_ ?_
  · rw [List.filterMap_cons_none (by rw [hmain]; rfl), List.filterMap_map, ← List.filterMap_eq_map]
    refine List.filterMap_congr (fun i _ => ?_)
    rw [Function.comp_apply, hnext, Option.map_some, List.drop_left]
    rfl
  · rw [List.filter_cons_of_pos (by rw [hmain]; rfl)]
    congr 1
    refine List.filter_eq_nil_iff.mpr (fun part hpart => ?_)
    obtain ⟨i, -, rfl⟩ := List.mem_map.mp hpart
    rw [hnext]
    exact Bool.false_ne_true

end Prefixes

def prepared (c : Count) (ig queriesList : List Bytes) : Prepared where
  ig := ig
  queriesList := queriesList
  counterQueriesWithNextInsertGroup := c.texts
  aiCalls := c.ids

section Text
variable {cfg : Config} (db : DbData) (c : Count) (q : QueryText)

def storedStatement (cfg : Config) (db : DbData) (check : Bytes → Bool) (c : Count)
    (q : QueryText) (i : Insert) : Bytes :=
  statement i.tableColumns [storedRow cfg db check c q i]

lemma replaced_of_hasId (hid : q.hasId cfg check = true) :
    replaced cfg db check c q =
      replaceAll mainInsertId (decimalText (db.getAiId c.ids q.main.table)) := by
  funext text
  rw [replaced, if_pos hid, idOf, if_pos hid]

lemma replaced_of_next (hid : q.hasId cfg check = false) (hnext : q.next ≠ []) :
    replaced cfg db check c q = fun text => replaceAll mainInsertIdOld
      (variableText mainInsertIdOld2 ((c.texts + 1) % 2 ^ 32))
      (replaceAll mainInsertId (variableText mainInsertId2 ((c.texts + 1) % 2 ^ 32)) text) := by
  have hid' : ¬q.hasId cfg check = true := Bool.eq_false_iff.mp hid
  funext text
  rw [replaced, if_neg hid', if_neg hnext, idOf, if_neg hid', if_neg hnext]

lemma replaced_of_single (hid : q.hasId cfg check = false) (hnext : q.next = []) :
    replaced cfg db check c q = id := by
  funext text
  rw [replaced, if_neg (Bool.eq_false_iff.mp hid), if_pos hnext, id]

lemma prepareWithVariable_parts (hid : q.hasId cfg check = false) (hnext : q.next ≠ [])
    (ig queriesList : List Bytes) :
    prepareWithVariable (prepared c ig queriesList) (q.parts check) =
      (prepared (c.next cfg check q) (ig ++ q.next.map (storedStatement cfg db check c q))
        queriesList, [mainInsert ++ storedStatement cfg db check c q q.main]) := by
  have hreplaced : ((q.parts check).map (replaceAll mainInsertId
      (variableText mainInsertId2 ((c.texts + 1) % 2 ^ 32)))).map
      (replaceAll mainInsertIdOld (variableText mainInsertIdOld2 ((c.texts + 1) % 2 ^ 32))) =
      withPrefixes q (storedStatement cfg db check c q) := by
    rw [map_parts q _ (fun pre i hpre => by
      rw [Insert.query_eq, replaceAll_insert isMark_mainInsertId hpre])]
    refine map_withPrefixes q _ (fun pre i hpre => ?_)
    rw [replaceAll_insert isMark_mainInsertIdOld hpre, Token.map_map, storedStatement, storedRow,
      replaced_of_next db c q hid hnext]
  have hremove : ∀ counter part, removeIfs counter [part] = (counter, [part]) := fun _ _ => rfl
  have herase : ¬ascii "set " ++ mainInsertIdOld2 <+:
      mainInsert ++ storedStatement cfg db check c q q.main :=
    fun h => absurd (List.cons_prefix_cons.mp h).1 (by decide)
  have hnextCount : c.next cfg check q = { c with texts := (c.texts + 1) % 2 ^ 32 } := by
    rw [Count.next, if_neg (Bool.eq_false_iff.mp hid), if_neg hnext]
  unfold variableText at hreplaced
  unfold prepareWithVariable
  simp only [prepared, hreplaced, takeInserts_next, hremove, hnextCount]
  rw [List.eraseP_cons_of_neg (by simpa using herase), List.eraseP_nil, ite_self]

lemma prepareText_text (hmulti : cfg.enableMultipleRowsInsert = true)
    (ig queriesList : List Bytes) :
    prepareText cfg db (prepared c ig queriesList) (q.text check) =
      prepared (c.next cfg check q)
        (ig ++ (if q.hasId cfg check then q.inserts else q.next).map
          (storedStatement cfg db check c q))
        (queriesList ++ (if q.hasId cfg check then [] else
          [storedStatement cfg db check c q q.main])) := by
  have hsubst : (if cfg.enableSetId = true then
      (q.parts check).map (fun p => substCodebooks db p.length p) else q.parts check) =
      q.parts check := by
    split
    · exact (List.map_congr_left (fun p hp => substCodebooks_part db hp p.length)).trans
        (List.map_id _)
    · rfl
  have htable : (if cfg.enableSetId = true then tableMainRecord (q.parts check) else none) =
      if q.hasId cfg check then some q.main.table else none := by
    rw [tableMainRecord_parts, QueryText.hasId]
    cases cfg.enableSetId <;> rfl
  unfold prepareText
  dsimp only
  rw [split_text, hsubst, htable]
  cases hid : q.hasId cfg check with
  | true =>
    have hreplaced : (q.parts check).map
        (replaceAll mainInsertId (decimalText (db.getAiId c.ids q.main.table))) =
        withPrefixes q (storedStatement cfg db check c q) := by
      refine map_parts q _ (fun pre i hpre => ?_)
      rw [Insert.query_eq, replaceAll_insert isMark_mainInsertId hpre, storedStatement, storedRow,
        replaced_of_hasId db c q hid]
    simp only [if_true, hmulti, prepared]
    rw [hreplaced, takeInserts_all]
    simp only [Count.next, hid, if_true, List.map_nil]
  | false =>
    have hgroup : ¬(q.parts check ≠ [] ∧ ∀ p ∈ q.parts check, mainInsertGroup <+: p) :=
      fun h => absurd (h.2 _ List.mem_cons_self)
        (by simp [mainInsert, mainInsertGroup, ascii])
    simp only [Bool.false_eq_true, if_false, hmulti, if_true]
    rw [if_neg hgroup]
    by_cases hnext : q.next = []
    · have hparts : q.parts check = [mainInsert ++ q.main.query check] := by
        rw [QueryText.parts, hnext, List.map_nil]
      have hstored : storedStatement cfg db check c q q.main = q.main.query check := by
        rw [storedStatement, storedRow, replaced_of_single db c q hid hnext, Token.map_id,
          Insert.query_eq]
      have hcount : c.next cfg check q = c := by
        rw [Count.next, if_neg (Bool.eq_false_iff.mp hid), if_pos hnext]
      rw [hparts, hcount, hstored, hnext, if_neg (by simp), List.map_singleton,
        stripPrefix_mainInsert, List.map_nil, List.append_nil]
      rfl
    · have hsome : ∃ p ∈ (q.parts check).tail, nextInsertGroup <+: p := by
        obtain ⟨i, hi⟩ := List.exists_mem_of_ne_nil _ hnext
        exact ⟨_, List.mem_map_of_mem hi, List.prefix_append _ _⟩
      rw [if_pos hsome, prepareWithVariable_parts db c q hid hnext]
      simp only [prepared, List.map_singleton, stripPrefix_mainInsert]

end Text

/-! ### All texts -/

def Entry.statement (e : Entry) : Bytes :=
  PrepareQueries.statement e.insert.tableColumns [e.row]

section Entries
variable {cfg : Config} (tokens : Insert → List Token) (q : QueryText)

lemma filter_grouped_textEntries :
    (textEntries cfg check tokens q).filter (fun e => !e.direct) =
      (if q.hasId cfg check then q.inserts else q.next).map (fun i => ⟨false, i, tokens i⟩) := by
  have hnext : (q.next.map (fun i => (⟨false, i, tokens i⟩ : Entry))).filter
      (fun e => !e.direct) = q.next.map (fun i => ⟨false, i, tokens i⟩) := by
    refine List.filter_eq_self.mpr (fun e he => ?_)
    obtain ⟨i, -, rfl⟩ := List.mem_map.mp he
    rfl
  rw [textEntries]
  cases q.hasId cfg check with
  | true =>
    rw [List.filter_cons_of_pos rfl, hnext, if_pos rfl, QueryText.inserts, List.map_cons]
    rfl
  | false =>
    rw [List.filter_cons_of_neg (by simp), hnext]
    rfl

lemma filter_direct_textEntries :
    (textEntries cfg check tokens q).filter (fun e => e.direct) =
      if q.hasId cfg check then [] else [⟨true, q.main, tokens q.main⟩] := by
  have hnext : (q.next.map (fun i => (⟨false, i, tokens i⟩ : Entry))).filter
      (fun e => e.direct) = [] := by
    refine List.filter_eq_nil_iff.mpr (fun e he => ?_)
    obtain ⟨i, -, rfl⟩ := List.mem_map.mp he
    exact Bool.false_ne_true
  rw [textEntries]
  cases q.hasId cfg check with
  | true =>
    rw [List.filter_cons_of_neg (by simp), hnext]
    rfl
  | false =>
    rw [List.filter_cons_of_pos rfl, hnext]
    rfl

end Entries

lemma prepareText_texts {cfg : Config} (db : DbData) (check : Bytes → Bool)
    (hmulti : cfg.enableMultipleRowsInsert = true)
    (texts : List QueryText) : ∀ (c : Count) (ig queriesList : List Bytes), ∃ c',
    (texts.map (QueryText.text check)).foldl (prepareText cfg db) (prepared c ig queriesList) =
      prepared c'
        (ig ++ ((entries cfg check (storedRow cfg db check) c texts).filter
          (fun e => !e.direct)).map Entry.statement)
        (queriesList ++ ((entries cfg check (storedRow cfg db check) c texts).filter
          (fun e => e.direct)).map Entry.statement) := by
  induction texts with
  | nil =>
    intro c ig queriesList
    refine ⟨c, ?_⟩
    simp only [entries, List.map_nil, List.filter_nil, List.append_nil]
    rfl
  | cons q texts ih =>
    intro c ig queriesList
    obtain ⟨c', hrest⟩ := ih (c.next cfg check q) _ _
    refine ⟨c', ?_⟩
    rw [List.map_cons, List.foldl_cons, prepareText_text db c q hmulti, hrest, entries,
      List.filter_append, List.filter_append, List.map_append, List.map_append,
      filter_grouped_textEntries, filter_direct_textEntries, List.map_map, List.append_assoc,
      List.append_assoc]
    congr 2
    congr 1
    cases q.hasId cfg check <;> rfl

end VoipMonitor.PrepareQueries
