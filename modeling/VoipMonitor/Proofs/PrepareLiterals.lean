import VoipMonitor.Proofs.PrepareRows

/-!
# Placeholders within literals

The placeholders are replaced in the text of an insert, and a literal that has one is changed with
it. A batch stores its rows exactly if no literal has a mark that is replaced in its text
(`storesRows_iff`).
-/

namespace VoipMonitor.PrepareQueries
open VoipMonitor.Library

variable {check : Bytes → Bool}

/-! ### Marks in literals -/

section Marks
variable {cfg : Config} (db : DbData) (c : Count) (q : QueryText)

lemma marks_of_hasId (hid : q.hasId cfg check = true) : q.marks cfg check = [mainInsertId] := by
  rw [QueryText.marks, if_pos hid]

lemma marks_of_next (hid : q.hasId cfg check = false) (hnext : q.next ≠ []) :
    q.marks cfg check = [mainInsertId, mainInsertIdOld] := by
  rw [QueryText.marks, if_neg (Bool.eq_false_iff.mp hid), if_neg hnext]

lemma marks_of_single (hid : q.hasId cfg check = false) (hnext : q.next = []) :
    q.marks cfg check = [] := by
  rw [QueryText.marks, if_neg (Bool.eq_false_iff.mp hid), if_pos hnext]

lemma replaced_eq_self {text : Bytes} (h : ∀ mark ∈ q.marks cfg check, ¬mark <:+: text) :
    replaced cfg db check c q text = text := by
  cases hid : q.hasId cfg check with
  | true =>
    rw [marks_of_hasId q hid] at h
    rw [replaced_of_hasId db c q hid]
    exact replaceAll_eq_self isMark_mainInsertId.ne_nil (h _ List.mem_cons_self)
  | false =>
    by_cases hnext : q.next = []
    · rw [replaced_of_single db c q hid hnext]
      rfl
    · rw [marks_of_next q hid hnext] at h
      rw [replaced_of_next db c q hid hnext]
      dsimp only
      rw [replaceAll_eq_self isMark_mainInsertId.ne_nil (h _ List.mem_cons_self),
        replaceAll_eq_self isMark_mainInsertIdOld.ne_nil
          (h _ (List.mem_cons_of_mem _ List.mem_cons_self))]

lemma replaceAll_self {find : Bytes} (hm : IsMark find) (repl : Bytes) :
    replaceAll find repl find = repl := by
  have h := replaceAll_find_append hm.ne_nil repl []
  rwa [List.append_nil, replaceAll_nil, List.append_nil] at h

def isMarkLetter (c : UInt8) : Bool := c = 78 || c = 79

lemma countP_decimalText (n : Nat) : (decimalText n).countP isMarkLetter = 0 := by
  refine List.countP_eq_zero.mpr (fun c hc hletter => ?_)
  have hdigit := isDigit_bounds (isDigits_decimalText n c hc)
  simp only [isMarkLetter, Bool.or_eq_true, decide_eq_true_eq, ← UInt8.toNat_inj] at hletter
  simp only [UInt8.reduceToNat] at hletter
  omega

lemma countP_variableText {name : Bytes} (h : name.countP isMarkLetter = 0) (n : Nat) :
    (variableText name n).countP isMarkLetter = 0 := by
  rw [variableText, List.countP_append, List.countP_append, h, countP_decimalText]
  decide

lemma replaced_mainInsertId :
    replaced cfg db check c q mainInsertId = idOf cfg db check c q := by
  cases hid : q.hasId cfg check with
  | true =>
    rw [replaced_of_hasId db c q hid, replaceAll_self isMark_mainInsertId, idOf, if_pos hid]
  | false =>
    by_cases hnext : q.next = []
    · rw [replaced_of_single db c q hid hnext, idOf, if_neg (Bool.eq_false_iff.mp hid),
        if_pos hnext, id]
    · have hno : ¬mainInsertIdOld <:+: variableText mainInsertId2 ((c.texts + 1) % 2 ^ 32) := by
        intro h
        have hcount : (variableText mainInsertId2 ((c.texts + 1) % 2 ^ 32)).countP isMarkLetter = 0 :=
          countP_variableText (by decide) _
        exact absurd (List.countP_eq_zero.mp hcount 79 (h.subset (by decide))) (by decide)
      rw [replaced_of_next db c q hid hnext, idOf, if_neg (Bool.eq_false_iff.mp hid),
        if_neg hnext]
      dsimp only
      rw [replaceAll_self isMark_mainInsertId]
      exact replaceAll_eq_self isMark_mainInsertIdOld.ne_nil hno

lemma storedRow_eq {i : Insert} (h : i.LiteralsFree check (q.marks cfg check)) :
    storedRow cfg db check c q i = i.row check (idOf cfg db check c q) := by
  rw [storedRow, Insert.row, Insert.row, List.map_map]
  refine List.map_congr_left (fun v hv => ?_)
  cases v with
  | number text hne hchars =>
    refine congrArg Token.plain (replaced_eq_self db c q (fun mark hmark hpart => ?_))
    have hat : (64 : UInt8) ∈ mark := by
      unfold QueryText.marks at hmark
      split_ifs at hmark
      · rw [List.mem_singleton.mp hmark]
        decide
      · cases hmark
      · simp only [List.mem_cons, List.not_mem_nil, or_false] at hmark
        rcases hmark with rfl | rfl <;> decide
    exact absurd (hchars 64 (hpart.subset hat)) (by decide)
  | mainInsertId => exact congrArg Token.plain (replaced_mainInsertId db c q)
  | string input =>
    have hinput : input ∈ i.inputs := List.mem_filterMap.mpr ⟨_, hv, rfl⟩
    exact congrArg Token.literal
      (replaced_eq_self db c q (fun mark hmark => h mark hmark input hinput))

lemma countP_replaced_lt {text mark : Bytes} (hmark : mark ∈ q.marks cfg check)
    (hpart : mark <:+: text) :
    (replaced cfg db check c q text).countP isMarkLetter < text.countP isMarkLetter := by
  cases hid : q.hasId cfg check with
  | true =>
    rw [marks_of_hasId q hid, List.mem_singleton] at hmark
    rw [replaced_of_hasId db c q hid]
    exact countP_replaceAll_lt isMark_mainInsertId.ne_nil (countP_decimalText _) (by decide)
      (hmark ▸ hpart)
  | false =>
    by_cases hnext : q.next = []
    · rw [marks_of_single q hid hnext] at hmark
      cases hmark
    · rw [replaced_of_next db c q hid hnext]
      by_cases hfirst : mainInsertId <:+: text
      · exact (countP_replaceAll_le isMark_mainInsertIdOld.ne_nil
          (countP_variableText (by decide) _) _).trans_lt
          (countP_replaceAll_lt isMark_mainInsertId.ne_nil (countP_variableText (by decide) _)
            (by decide) hfirst)
      · rw [marks_of_next q hid hnext] at hmark
        have hold : mark = mainInsertIdOld := by
          rcases List.mem_cons.mp hmark with rfl | hmark
          · exact absurd hpart hfirst
          · exact List.mem_singleton.mp hmark
        dsimp only
        rw [replaceAll_eq_self isMark_mainInsertId.ne_nil hfirst]
        exact countP_replaceAll_lt isMark_mainInsertIdOld.ne_nil (countP_variableText (by decide) _)
          (by decide) (hold ▸ hpart)

end Marks

/-! ### The places of the rows -/

structure Place where
  direct : Bool
  insert : Insert
  count : Count
  text : QueryText

def Place.entry (tokens : Count → QueryText → Insert → List Token) (p : Place) : Entry :=
  ⟨p.direct, p.insert, tokens p.count p.text p.insert⟩

section Places
variable (cfg : Config) (check : Bytes → Bool)

def textPlaces (c : Count) (q : QueryText) : List Place :=
  ⟨!q.hasId cfg check, q.main, c, q⟩ :: q.next.map (fun i => ⟨false, i, c, q⟩)

def places : Count → List QueryText → List Place
  | _, [] => []
  | c, q :: texts => textPlaces cfg check c q ++ places (c.next cfg check q) texts

end Places

section Places
variable {cfg : Config}

lemma entries_eq_map (tokens : Count → QueryText → Insert → List Token) (texts : List QueryText) :
    ∀ c, entries cfg check tokens c texts =
      (places cfg check c texts).map (Place.entry tokens) := by
  induction texts with
  | nil => exact fun _ => rfl
  | cons q texts ih =>
    intro c
    rw [entries, places, List.map_append, ih, textEntries, textPlaces, List.map_cons, List.map_map]
    rfl

lemma text_mem_of_mem_places {p : Place} (texts : List QueryText) :
    ∀ c, p ∈ places cfg check c texts → p.text ∈ texts ∧ p.insert ∈ p.text.inserts := by
  induction texts with
  | nil => exact fun _ h => (by cases h)
  | cons q texts ih =>
    intro c h
    rcases List.mem_append.mp h with h | h
    · rcases List.mem_cons.mp h with rfl | h
      · exact ⟨List.mem_cons_self, List.mem_cons_self⟩
      · obtain ⟨i, hi, rfl⟩ := List.mem_map.mp h
        exact ⟨List.mem_cons_self, List.mem_cons_of_mem _ hi⟩
    · obtain ⟨htext, hinsert⟩ := ih _ h
      exact ⟨List.mem_cons_of_mem _ htext, hinsert⟩

lemma exists_place {q : QueryText} {i : Insert} (hi : i ∈ q.inserts) (texts : List QueryText)
    (hq : q ∈ texts) : ∀ c, ∃ p ∈ places cfg check c texts, p.text = q ∧ p.insert = i := by
  induction texts with
  | nil => cases hq
  | cons q' texts ih =>
    intro c
    rcases List.mem_cons.mp hq with rfl | hq
    · rcases List.mem_cons.mp hi with rfl | hi
      · exact ⟨_, List.mem_append_left _ List.mem_cons_self, rfl, rfl⟩
      · exact ⟨_, List.mem_append_left _ (List.mem_cons_of_mem _ (List.mem_map_of_mem hi)), rfl, rfl⟩
    · obtain ⟨p, hp, htext, hinsert⟩ := ih hq (c.next cfg check q')
      exact ⟨p, List.mem_append_right _ hp, htext, hinsert⟩

def placesAt (target : Bytes) (l : List Place) : List Place :=
  (l.filter (fun p => p.direct) ++
    ((l.filter (fun p => !p.direct)).filter (fun p => p.insert.insertIgnore) ++
      (l.filter (fun p => !p.direct)).filter (fun p => !p.insert.insertIgnore))).filter
    (fun p => p.insert.target = target)

lemma rowsAt_places (tokens : Count → QueryText → Insert → List Token) (target : Bytes)
    (l : List Place) :
    rowsAt target (inOutputOrder (l.map (Place.entry tokens))) =
      (placesAt target l).map (fun p => tokens p.count p.text p.insert) := by
  rw [rowsAt, inOutputOrder, placesAt]
  simp only [List.filter_map, ← List.map_append, List.map_map]
  rfl

lemma mem_placesAt {target : Bytes} {l : List Place} {p : Place} :
    p ∈ placesAt target l ↔ p ∈ l ∧ p.insert.target = target := by
  simp only [placesAt, List.mem_filter, List.mem_append, decide_eq_true_eq]
  cases p.direct <;> cases p.insert.insertIgnore <;> simp

lemma rowsAt_eq_iff {f g : Count → QueryText → Insert → List Token} (c : Count)
    (texts : List QueryText) :
    (∀ target, rowsAt target (inOutputOrder (entries cfg check f c texts)) =
        rowsAt target (inOutputOrder (entries cfg check g c texts))) ↔
      ∀ p ∈ places cfg check c texts, f p.count p.text p.insert = g p.count p.text p.insert := by
  simp only [entries_eq_map, rowsAt_places, List.map_inj_left, mem_placesAt]
  constructor
  · intro h p hp
    exact h p.insert.target p ⟨hp, rfl⟩
  · intro h target p hp
    exact h p hp.1

end Places

/-! ### The stored rows -/

lemma Value.eq_string_of_input? {v : Value} {input : Bytes} (h : v.input? = some input) :
    v = .string input := by
  cases v with
  | number _ _ _ => cases h
  | mainInsertId => cases h
  | string _ => exact congrArg Value.string (Option.some.inj h)

lemma storedRow_eq_iff {cfg : Config} (db : DbData) (c : Count) (q : QueryText) (i : Insert) :
    storedRow cfg db check c q i = i.row check (idOf cfg db check c q) ↔
      i.LiteralsFree check (q.marks cfg check) := by
  constructor
  · intro h mark hmark input hinput hpart
    obtain ⟨v, hv, hinput⟩ := List.mem_filterMap.mp hinput
    obtain rfl := Value.eq_string_of_input? hinput
    rw [storedRow, Insert.row, Insert.row, List.map_map, List.map_inj_left] at h
    have hliteral : replaced cfg db check c q (sqlEscapeString check input) =
        sqlEscapeString check input := Token.literal.inj (h _ hv)
    have hlt := countP_replaced_lt db c q hmark hpart
    rw [hliteral] at hlt
    exact Nat.lt_irrefl _ hlt
  · exact storedRow_eq db c q

lemma insertsRows_iff {cfg : Config} (db : DbData) (hmulti : cfg.enableMultipleRowsInsert = true)
    (texts : List QueryText) (l : List Entry) :
    InsertsRows cfg db check texts l ↔
      ∀ target, rowsAt target (inOutputOrder (stored cfg db check texts)) = rowsAt target l := by
  obtain ⟨rows, hrows, hvalues⟩ := storePrepareQueries_rows db check hmulti texts
  rw [InsertsRows, hrows]
  constructor
  · rintro ⟨rows', hrows', h⟩ target
    rw [← hvalues, Option.some.inj hrows', h]
  · intro h
    exact ⟨rows, rfl, fun target => (hvalues target).trans (h target)⟩

theorem storesRows_iff {cfg : Config} (db : DbData) (hmulti : cfg.enableMultipleRowsInsert = true)
    (texts : List QueryText) :
    StoresRows cfg db check texts ↔ LiteralsFree cfg check texts := by
  rw [StoresRows, insertsRows_iff db hmulti, stored, expected, rowsAt_eq_iff]
  constructor
  · intro h q hq i hi
    obtain ⟨p, hp, rfl, rfl⟩ := exists_place hi texts hq {}
    exact (storedRow_eq_iff db p.count p.text p.insert).mp (h p hp)
  · intro h p hp
    obtain ⟨htext, hinsert⟩ := text_mem_of_mem_places texts {} hp
    exact (storedRow_eq_iff db p.count p.text p.insert).mpr (h p.text htext p.insert hinsert)

/-- Literals without such marks are stored unchanged, the placeholder becomes the common id or
variable of its text, and no row is lost. -/
theorem storePrepareQueries_storesRows (cfg : Config) (db : DbData) (check : Bytes → Bool)
    (hmulti : cfg.enableMultipleRowsInsert = true) (texts : List QueryText)
    (hfree : LiteralsFree cfg check texts) : StoresRows cfg db check texts :=
  (storesRows_iff db hmulti texts).mpr hfree

lemma isName_of_all {columns : List Bytes}
    (h : columns.all (fun column => column.all isNameChar) = true) :
    ∀ column ∈ columns, ∀ c ∈ column, isNameChar c = true :=
  fun column hcolumn => List.all_eq_true.mp (List.all_eq_true.mp h column hcolumn)

section Call

def callConfig : Config := ⟨false, true, fun _ => false, rfl⟩

def callDb : DbData := ⟨fun _ _ => 0, fun _ _ => 7⟩

def callMain (caller : Bytes) : Insert where
  table := ascii "cdr"
  columns := [ascii "caller"]
  values := [.string caller]
  table_name := List.all_eq_true.mp rfl
  columns_name := isName_of_all rfl
  values_ne := List.cons_ne_nil _ _

def callNext (header : Bytes) : Insert where
  table := ascii "cdr_next"
  columns := [ascii "cdr_ID", ascii "header"]
  values := [.mainInsertId, .string header]
  table_name := List.all_eq_true.mp rfl
  columns_name := isName_of_all rfl
  values_ne := List.cons_ne_nil _ _

def call : QueryText := ⟨callMain (ascii "alice"), [callNext (ascii "x")]⟩

theorem storePrepareQueries_storesRows_call :
    StoresRows callConfig callDb (fun _ => true) [call] :=
  storePrepareQueries_storesRows callConfig callDb (fun _ => true) rfl [call]
    (by unfold LiteralsFree Insert.LiteralsFree; decide +kernel)

def placeholderCall : QueryText := ⟨callMain (ascii "alice"), [callNext mainInsertId]⟩

def sharedTable : List QueryText :=
  [⟨callMain (ascii "a"), [callMain (ascii "b")]⟩, ⟨callMain (ascii "c"), []⟩]

/-- The placeholder in a literal is replaced, and a main insert overtakes an insert of the text
before it. -/
theorem not_keepsRows :
    ¬KeepsRows callConfig callDb (fun _ => true) [placeholderCall] ∧
      ¬KeepsRows callConfig callDb (fun _ => true) sharedTable := by
  refine ⟨fun h => ?_, fun h => ?_⟩
  · have hrows := (insertsRows_iff callDb rfl _ _).mp h (callNext mainInsertId).target
    revert hrows
    decide +kernel
  · have hrows := (insertsRows_iff callDb rfl _ _).mp h (callMain (ascii "b")).target
    revert hrows
    decide +kernel

end Call

end VoipMonitor.PrepareQueries
