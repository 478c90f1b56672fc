import VoipMonitor.Model.CaptureFilters

/-!
# Header rules and linear search

A value is compared with its lower bound and with the entry in front of it. A prefix rule is found
only if no other content of the header stands between it and the value in the order of strings.
-/

namespace VoipMonitor.SipHeaderFilter
open VoipMonitor.Library VoipMonitor.IpFilter

/-! ## Linear search -/

section Search
variable (regMatch : Bytes → Bytes → Bool) (rows : List Row) (message : Message)

def Row.Hits (row : Row) (value : Bytes) : Prop :=
  match row.contentType with
  | .strict => row.content = value
  | .pfx => row.content <+: value
  | .regexp => regMatch value row.content = true

def Row.IsOf (row : Row) (value : Bytes) : Prop := message (row.header ++ [58]) = some value

def LinearSearch : Prop := ∃ row ∈ rows, ∃ value, row.IsOf message value ∧ row.Hits regMatch value

def EqualsLinearSearch (flags : CallFlags) (natAliases : Option NatAliases) (reconfigure : Bool) :
    Prop :=
  (addCallFlags regMatch (load rows) message flags natAliases reconfigure).found = true ↔
    LinearSearch regMatch rows message

/-! ## What is examined -/

def lastRow (header content : Bytes) : Option Row :=
  rows.reverse.find? (fun r => r.header = header ∧ r.content = content ∧ r.contentType ≠ .regexp)

def Nearest (row : Row) (value : Bytes) : Prop :=
  ∀ r ∈ rows, r.header = row.header → r.contentType ≠ .regexp → codes r.content < codes value →
    codes r.content ≤ codes row.content

/-- The rule is met: its content is the value, or it is the last one with its content, a prefix of
the value and the nearest one, or it is a regular expression that matches. -/
def Row.Met (row : Row) (value : Bytes) : Prop :=
  match row.contentType with
  | .strict => row.content = value
  | .pfx => row.content = value ∨
      (lastRow rows row.header row.content = some row ∧ row.content <+: value ∧
        Nearest rows row value)
  | .regexp => regMatch value row.content = true

/-- If the linear search finds a rule, then one is met for a value that is not empty. -/
def NothingHides : Prop :=
  LinearSearch regMatch rows message →
    ∃ row ∈ rows, ∃ value, row.IsOf message value ∧ value ≠ [] ∧ row.Met regMatch rows value

end Search

/-! ## One map -/

instance stringLt_order : IsStrictTotalOrder Bytes (fun a b => stringLt a b = true) :=
  SortedMap.isStrictTotalOrder_of_key codes codes_injective (fun a b => by simp [stringLt])

lemma stringLt_iff (a b : Bytes) : stringLt a b = true ↔ codes a < codes b := by simp [stringLt]

lemma strncmpEq_iff (a b : Bytes) : strncmpEq a b = true ↔ a <+: b := by
  rw [strncmpEq, beq_iff_eq, List.prefix_iff_eq_take]

lemma stringLt_of_isPrefix {a b : Bytes} (h : a <+: b) (hne : a ≠ b) : stringLt a b = true := by
  rw [stringLt_iff]
  exact lt_of_le_of_ne (le_of_isPrefix (codes_isPrefix_iff.mpr h)) (fun he => hne (codes_injective he))

def prefixTest (value : Bytes) (e : Bytes × ItemData) : Option ItemData :=
  if e.2.pfx && strncmpEq e.1 value then some e.2 else none

lemma prefixTest_isSome (value : Bytes) (e : Bytes × ItemData) :
    (prefixTest value e).isSome = true ↔ e.2.pfx = true ∧ e.1 <+: value := by
  rw [← strncmpEq_iff, prefixTest]
  cases e.2.pfx <;> cases strncmpEq e.1 value <;> simp

def InFront (m : List (Bytes × ItemData)) (value : Bytes) (e : Bytes × ItemData) : Prop :=
  e ∈ m ∧ e.2.pfx = true ∧ e.1 <+: value ∧ stringLt e.1 value = true ∧
    ∀ e' ∈ m, stringLt e'.1 value = true → e' = e ∨ stringLt e'.1 e.1 = true

lemma front_isSome {m : List (Bytes × ItemData)} (hm : SortedMap.Sorted stringLt m)
    {value : Bytes} {first : Option (Bytes × ItemData)}
    (hfirst : ∀ e, first = some e → stringLt e.1 value = false ∧ e.1 ≠ value) :
    (((SortedMap.lowerBound stringLt value m).1.getLast?.or first).bind
      (prefixTest value)).isSome = true ↔ ∃ e, InFront m value e := by
  cases hlast : (SortedMap.lowerBound stringLt value m).1.getLast? with
  | some e =>
    obtain ⟨hmem, hlt, hnear⟩ := hm.lowerBound_last.mp hlast
    rw [Option.some_or, Option.bind_some, prefixTest_isSome]
    constructor
    · rintro ⟨hpfx, hprefix⟩
      exact ⟨e, hmem, hpfx, hprefix, hlt, hnear⟩
    · rintro ⟨e', hmem', hpfx, hprefix, hlt', hnear'⟩
      obtain rfl : e = e' :=
        Option.some.inj (hlast.symm.trans (hm.lowerBound_last.mpr ⟨hmem', hlt', hnear'⟩))
      exact ⟨hpfx, hprefix⟩
  | none =>
    rw [Option.none_or]
    constructor
    · intro h
      cases hf : first with
      | none =>
        rw [hf] at h
        cases h
      | some e =>
        rw [hf, Option.bind_some, prefixTest_isSome] at h
        obtain ⟨hno, hne⟩ := hfirst e hf
        rw [stringLt_of_isPrefix h.2 hne] at hno
        cases hno
    · rintro ⟨e, hmem, -, -, hlt, hnear⟩
      rw [hm.lowerBound_last.mpr ⟨hmem, hlt, hnear⟩] at hlast
      cases hlast

lemma examine_isSome {m : List (Bytes × ItemData)} (hm : SortedMap.Sorted stringLt m)
    (value : Bytes) :
    (examine value m).isSome = true ↔
      (∃ item, (value, item) ∈ m) ∨ ∃ e, InFront m value e := by
  unfold examine
  dsimp only
  cases hhead : (SortedMap.lowerBound stringLt value m).2.head? with
  | none =>
    have hno : ¬∃ item, (value, item) ∈ m := by
      rintro ⟨item, hitem⟩
      rw [hm.lowerBound_head hitem] at hhead
      cases hhead
    have hfront := @front_isSome m hm value none (fun e h => (by cases h))
    rw [Option.or_none] at hfront
    exact hfront.trans (or_iff_right hno).symm
  | some e =>
    have hmem : e ∈ (SortedMap.lowerBound stringLt value m).2 := List.mem_of_mem_head? hhead
    have hmem' : e ∈ m := by
      rw [← SortedMap.lowerBound_append stringLt value m]
      exact List.mem_append_right _ hmem
    dsimp only
    by_cases heq : e.1 = value
    · rw [if_pos heq]
      exact ⟨fun _ => Or.inl ⟨e.2, heq ▸ hmem'⟩, fun _ => rfl⟩
    · have hno : ¬∃ item, (value, item) ∈ m := by
        rintro ⟨item, hitem⟩
        rw [hm.lowerBound_head hitem] at hhead
        exact heq (congrArg Prod.fst (Option.some.inj hhead)).symm
      rw [if_neg heq]
      refine (front_isSome hm ?_).trans (or_iff_right hno).symm
      intro x hx
      obtain rfl := Option.some.inj hx
      exact ⟨hm.lowerBound_after hmem, heq⟩

/-! ## The loaded rules -/

def itemOf (field : HeaderData → List (Bytes × ItemData)) (data : List (Bytes × HeaderData))
    (header content : Bytes) : Option ItemData :=
  (SortedMap.get header data).bind (fun d => SortedMap.get content (field d))

structure Loaded (rows : List Row) (data : List (Bytes × HeaderData)) : Prop where
  sorted : SortedMap.Sorted stringLt data
  strict_sorted : ∀ h ∈ data, SortedMap.Sorted stringLt h.2.strictPrefix
  regexp_sorted : ∀ h ∈ data, SortedMap.Sorted stringLt h.2.regexp
  strict : ∀ header content,
    itemOf HeaderData.strictPrefix data header content = (lastRow rows header content).map Row.item
  regexp : ∀ header content, itemOf HeaderData.regexp data header content =
    (rows.reverse.find? (fun r => r.header = header ∧ r.content = content ∧
      r.contentType = .regexp)).map Row.item

lemma HeaderData.add_sorted {d : HeaderData} (row : Row)
    (hs : SortedMap.Sorted stringLt d.strictPrefix) (hr : SortedMap.Sorted stringLt d.regexp) :
    SortedMap.Sorted stringLt (d.add row).strictPrefix ∧
      SortedMap.Sorted stringLt (d.add row).regexp := by
  unfold HeaderData.add
  split
  · exact ⟨hs, hr.set row.content row.item⟩
  · exact ⟨hs.set row.content row.item, hr⟩

lemma item_regexp (row : Row) : row.item.regexp = true ↔ row.contentType = .regexp := by
  simp [Row.item]

lemma HeaderData.get_strictPrefix_add (d : HeaderData) (row : Row) (content : Bytes) :
    SortedMap.get content (d.add row).strictPrefix =
      if row.content = content ∧ row.contentType ≠ .regexp then some row.item
      else SortedMap.get content d.strictPrefix := by
  unfold HeaderData.add
  by_cases hregexp : row.contentType = .regexp
  · rw [if_pos ((item_regexp row).mpr hregexp), if_neg (fun h => h.2 hregexp)]
  · rw [if_neg (fun h => hregexp ((item_regexp row).mp h)), SortedMap.get_set]
    simp only [hregexp, ne_eq, not_false_eq_true, and_true]

lemma HeaderData.get_regexp_add (d : HeaderData) (row : Row) (content : Bytes) :
    SortedMap.get content (d.add row).regexp =
      if row.content = content ∧ row.contentType = .regexp then some row.item
      else SortedMap.get content d.regexp := by
  unfold HeaderData.add
  by_cases hregexp : row.contentType = .regexp
  · rw [if_pos ((item_regexp row).mpr hregexp), SortedMap.get_set]
    simp only [hregexp, and_true]
  · rw [if_neg (fun h => hregexp ((item_regexp row).mp h)), if_neg (fun h => hregexp h.2)]

lemma bind_addRow (filter : Filter) (row : Row) (header : Bytes)
    (f : HeaderData → Option ItemData) :
    (SortedMap.get header (addRow filter row).data).bind f =
      if row.header = header then f (((SortedMap.get row.header filter.data).getD {}).add row)
      else (SortedMap.get header filter.data).bind f := by
  rw [addRow, SortedMap.get_set]
  split <;> rfl

lemma itemOf_addRow {field : HeaderData → List (Bytes × ItemData)} (kept : Row → Prop)
    [DecidablePred kept] (hadd : ∀ (d : HeaderData) (row : Row) (content : Bytes),
      SortedMap.get content (field (d.add row)) =
        if row.content = content ∧ kept row then some row.item else SortedMap.get content (field d))
    (hnil : field {} = []) (filter : Filter) (row : Row) (header content : Bytes) :
    itemOf field (addRow filter row).data header content =
      if row.header = header ∧ row.content = content ∧ kept row then some row.item
      else itemOf field filter.data header content := by
  rw [itemOf, bind_addRow]
  by_cases hheader : row.header = header
  · subst hheader
    rw [if_pos rfl, hadd, itemOf]
    simp only [true_and]
    congr 1
    cases SortedMap.get row.header filter.data with
    | none => exact congrArg (SortedMap.get content) hnil
    | some d => rfl
  · rw [if_neg hheader, if_neg (fun h => hheader h.1), itemOf]

lemma find?_reverse_concat (rows : List Row) (row : Row) (p : Row → Prop) [DecidablePred p] :
    ((rows ++ [row]).reverse.find? (fun r => p r)).map Row.item =
      if p row then some row.item else (rows.reverse.find? (fun r => p r)).map Row.item := by
  rw [List.reverse_append, List.reverse_singleton, List.singleton_append, List.find?_cons]
  by_cases hrow : p row
  · rw [if_pos hrow, decide_eq_true hrow]
    rfl
  · rw [if_neg hrow, decide_eq_false hrow]

lemma Loaded.addRow {rows : List Row} {filter : Filter} (h : Loaded rows filter.data) (row : Row) :
    Loaded (rows ++ [row]) (SipHeaderFilter.addRow filter row).data := by
  have hold : SortedMap.Sorted stringLt ((SortedMap.get row.header filter.data).getD {}).strictPrefix ∧
      SortedMap.Sorted stringLt ((SortedMap.get row.header filter.data).getD {}).regexp := by
    cases hget : SortedMap.get row.header filter.data with
    | none => exact ⟨List.Pairwise.nil, List.Pairwise.nil⟩
    | some d =>
      have hmem := SortedMap.mem_of_get hget
      exact ⟨h.strict_sorted _ hmem, h.regexp_sorted _ hmem⟩
  have hadd := HeaderData.add_sorted row hold.1 hold.2
  refine ⟨h.sorted.set _ _, fun e he => ?_, fun e he => ?_, fun header content => ?_,
    fun header content => ?_⟩
  · rcases SortedMap.mem_set he with rfl | he
    · exact hadd.1
    · exact h.strict_sorted e he
  · rcases SortedMap.mem_set he with rfl | he
    · exact hadd.2
    · exact h.regexp_sorted e he
  · rw [itemOf_addRow _ HeaderData.get_strictPrefix_add rfl, h.strict, lastRow, lastRow]
    exact (find?_reverse_concat rows row
      (fun r => r.header = header ∧ r.content = content ∧ r.contentType ≠ .regexp)).symm
  · rw [itemOf_addRow _ HeaderData.get_regexp_add rfl, h.regexp]
    exact (find?_reverse_concat rows row
      (fun r => r.header = header ∧ r.content = content ∧ r.contentType = .regexp)).symm

lemma loaded_load (rows : List Row) : Loaded rows (load rows).data := by
  unfold load
  induction rows using List.reverseRecOn with
  | nil =>
    exact ⟨List.Pairwise.nil, fun _ h => (by cases h), fun _ h => (by cases h), fun _ _ => rfl,
      fun _ _ => rfl⟩
  | append_singleton rows row ih =>
    rw [List.foldl_append]
    exact ih.addRow row

lemma count_load (rows : List Row) : (load rows).count = 0 ↔ rows = [] := by
  unfold load
  induction rows using List.reverseRecOn with
  | nil => exact ⟨fun _ => rfl, fun _ => rfl⟩
  | append_singleton rows row _ =>
    rw [List.foldl_append]
    exact ⟨fun h => (by cases h), fun h => absurd h (by simp)⟩

/-! ## Rows and entries -/

variable {regMatch : Bytes → Bytes → Bool} {rows : List Row} {message : Message}
  {data : List (Bytes × HeaderData)} {header : Bytes} {d : HeaderData}

lemma lastRow_spec {content : Bytes} {row : Row} (h : lastRow rows header content = some row) :
    row ∈ rows ∧ row.header = header ∧ row.content = content ∧ row.contentType ≠ .regexp := by
  have htest := List.find?_some h
  exact ⟨List.mem_reverse.mp (List.mem_of_find?_eq_some h), by simpa using htest⟩

lemma exists_lastRow {r : Row} (hr : r ∈ rows) (hno : r.contentType ≠ .regexp) :
    ∃ row, lastRow rows r.header r.content = some row :=
  Option.isSome_iff_exists.mp
    (List.find?_isSome.mpr ⟨r, List.mem_reverse.mpr hr, by simpa using hno⟩)

lemma Loaded.mem_strict (h : Loaded rows data) (hd : (header, d) ∈ data) (content : Bytes)
    (item : ItemData) : (content, item) ∈ d.strictPrefix ↔
      ∃ row, lastRow rows header content = some row ∧ row.item = item := by
  have hstrict := h.strict header content
  rw [itemOf, h.sorted.get_of_mem hd, Option.bind_some] at hstrict
  constructor
  · intro hmem
    rw [(h.strict_sorted _ hd).get_of_mem hmem] at hstrict
    exact Option.map_eq_some_iff.mp hstrict.symm
  · rintro ⟨row, hrow, rfl⟩
    rw [hrow] at hstrict
    exact SortedMap.mem_of_get hstrict

lemma Loaded.exists_header (h : Loaded rows data) {r : Row} (hr : r ∈ rows) :
    ∃ d, (r.header, d) ∈ data := by
  cases hget : SortedMap.get r.header data with
  | some d => exact ⟨d, SortedMap.mem_of_get hget⟩
  | none =>
    by_cases hregexp : r.contentType = .regexp
    · have hentry := h.regexp r.header r.content
      rw [itemOf, hget, Option.bind_none, eq_comm, Option.map_eq_none_iff,
        List.find?_eq_none] at hentry
      exact absurd (by simpa using hregexp) (hentry r (List.mem_reverse.mpr hr))
    · obtain ⟨row, hrow⟩ := exists_lastRow hr hregexp
      have hentry := h.strict r.header r.content
      rw [itemOf, hget, hrow] at hentry
      cases hentry

lemma Loaded.mem_regexp (h : Loaded rows data) (hd : (header, d) ∈ data) (content : Bytes) :
    (∃ item, (content, item) ∈ d.regexp) ↔
      ∃ row ∈ rows, row.header = header ∧ row.content = content ∧ row.contentType = .regexp := by
  have hregexp := h.regexp header content
  rw [itemOf, h.sorted.get_of_mem hd, Option.bind_some] at hregexp
  constructor
  · rintro ⟨item, hmem⟩
    rw [(h.regexp_sorted _ hd).get_of_mem hmem] at hregexp
    obtain ⟨row, hrow, -⟩ := Option.map_eq_some_iff.mp hregexp.symm
    have htest := List.find?_some hrow
    exact ⟨row, List.mem_reverse.mp (List.mem_of_find?_eq_some hrow), by simpa using htest⟩
  · rintro ⟨row, hmem, hrow⟩
    have hfind : (rows.reverse.find? (fun r => r.header = header ∧ r.content = content ∧
        r.contentType = .regexp)).isSome := by
      rw [List.find?_isSome]
      exact ⟨row, List.mem_reverse.mpr hmem, by simpa using hrow⟩
    obtain ⟨last, hlast⟩ := Option.isSome_iff_exists.mp hfind
    rw [hlast] at hregexp
    exact ⟨_, SortedMap.mem_of_get hregexp⟩

lemma Loaded.inFront_iff (h : Loaded rows data) (hd : (header, d) ∈ data) (value : Bytes) :
    (∃ e, InFront d.strictPrefix value e) ↔
      ∃ row, lastRow rows header row.content = some row ∧ row.contentType = .pfx ∧
        row.content <+: value ∧ row.content ≠ value ∧ Nearest rows row value := by
  constructor
  · rintro ⟨⟨content, item⟩, hmem, hpfx, hprefix, hlt, hnear⟩
    obtain ⟨row, hrow, rfl⟩ := (h.mem_strict hd content item).mp hmem
    obtain ⟨-, hheader, rfl, -⟩ := lastRow_spec hrow
    have hlt' := (stringLt_iff _ _).mp hlt
    refine ⟨row, hrow, by simpa [Row.item] using hpfx, hprefix, ?_, ?_⟩
    · intro heq
      rw [heq] at hlt'
      exact lt_irrefl _ hlt'
    · intro r hr hsame hno hless
      obtain ⟨last, hlast⟩ := exists_lastRow hr hno
      rw [hsame, hheader] at hlast
      have hentry := (h.mem_strict hd r.content last.item).mpr ⟨last, hlast, rfl⟩
      rcases hnear _ hentry ((stringLt_iff _ _).mpr hless) with heq | hsmaller
      · exact le_of_eq (congrArg (fun e => codes e.1) heq)
      · exact le_of_lt ((stringLt_iff _ _).mp hsmaller)
  · rintro ⟨row, hrow, hpfx, hprefix, hne, hnear⟩
    obtain ⟨-, hheader, -, -⟩ := lastRow_spec hrow
    refine ⟨(row.content, row.item), (h.mem_strict hd _ _).mpr ⟨row, hrow, rfl⟩,
      by simp [Row.item, hpfx], hprefix, stringLt_of_isPrefix hprefix hne, ?_⟩
    rintro ⟨content, item⟩ hmem hlt
    obtain ⟨r, hr, hitem⟩ := (h.mem_strict hd content item).mp hmem
    obtain ⟨hrmem, hrheader, hrcontent, hrno⟩ := lastRow_spec hr
    have hle := hnear r hrmem (hrheader.trans hheader.symm) hrno
      (by rw [hrcontent]; exact (stringLt_iff _ _).mp hlt)
    rcases eq_or_lt_of_le hle with heq | hless
    · have hsame : content = row.content := hrcontent.symm.trans (codes_injective heq)
      rw [hsame, hrow] at hr
      exact Or.inl (Prod.ext hsame (hitem.symm.trans (congrArg Row.item (Option.some.inj hr).symm)))
    · exact Or.inr ((stringLt_iff _ _).mpr (hrcontent ▸ hless))

lemma Loaded.mem_value_iff (h : Loaded rows data) (hd : (header, d) ∈ data) (value : Bytes) :
    (∃ item, (value, item) ∈ d.strictPrefix) ↔
      ∃ row ∈ rows, row.header = header ∧ row.content = value ∧ row.contentType ≠ .regexp := by
  constructor
  · rintro ⟨item, hmem⟩
    obtain ⟨row, hrow, -⟩ := (h.mem_strict hd value item).mp hmem
    exact ⟨row, lastRow_spec hrow⟩
  · rintro ⟨row, hmem, rfl, rfl, hno⟩
    obtain ⟨last, hlast⟩ := exists_lastRow hmem hno
    exact ⟨last.item, (h.mem_strict hd _ _).mpr ⟨last, hlast, rfl⟩⟩

lemma exists_met_iff (regMatch : Bytes → Bytes → Bool) (value : Bytes) :
    (∃ row ∈ rows, row.header = header ∧ row.Met regMatch rows value) ↔
      ((∃ row ∈ rows, row.header = header ∧ row.content = value ∧ row.contentType ≠ .regexp) ∨
        ∃ row, lastRow rows header row.content = some row ∧ row.contentType = .pfx ∧
          row.content <+: value ∧ row.content ≠ value ∧ Nearest rows row value) ∨
      ∃ row ∈ rows, row.header = header ∧ row.contentType = .regexp ∧
        regMatch value row.content = true := by
  unfold Row.Met
  constructor
  · rintro ⟨row, hmem, hheader, hmet⟩
    cases htype : row.contentType with
    | strict =>
      rw [htype] at hmet
      exact Or.inl (Or.inl ⟨row, hmem, hheader, hmet, by rw [htype]; decide⟩)
    | pfx =>
      rw [htype] at hmet
      by_cases hcontent : row.content = value
      · exact Or.inl (Or.inl ⟨row, hmem, hheader, hcontent, by rw [htype]; decide⟩)
      · obtain ⟨hlast, hprefix, hnear⟩ := hmet.resolve_left hcontent
        rw [hheader] at hlast
        exact Or.inl (Or.inr ⟨row, hlast, htype, hprefix, hcontent, hnear⟩)
    | regexp =>
      rw [htype] at hmet
      exact Or.inr ⟨row, hmem, hheader, htype, hmet⟩
  · rintro ((⟨row, hmem, hheader, hcontent, hno⟩ | ⟨row, hlast, htype, hprefix, -, hnear⟩) |
      ⟨row, hmem, hheader, htype, hmatch⟩)
    · refine ⟨row, hmem, hheader, ?_⟩
      cases htype : row.contentType with
      | strict => exact hcontent
      | pfx => exact Or.inl hcontent
      | regexp => exact absurd htype hno
    · obtain ⟨hmem, hheader, -, -⟩ := lastRow_spec hlast
      refine ⟨row, hmem, hheader, ?_⟩
      rw [htype, hheader]
      exact Or.inr ⟨hlast, hprefix, hnear⟩
    · refine ⟨row, hmem, hheader, ?_⟩
      rw [htype]
      exact hmatch

lemma Loaded.matchHeader_iff (h : Loaded rows data) (hd : (header, d) ∈ data) (value : Bytes) :
    (matchHeader regMatch value d).isSome = true ↔
      value ≠ [] ∧ ∃ row ∈ rows, row.header = header ∧ row.Met regMatch rows value := by
  have hregexp : (∃ e ∈ d.regexp, regMatch value e.1 = true) ↔
      ∃ row ∈ rows, row.header = header ∧ row.contentType = .regexp ∧
        regMatch value row.content = true := by
    constructor
    · rintro ⟨⟨content, item⟩, hmem, hmatch⟩
      obtain ⟨row, hrow, hheader, rfl, htype⟩ := (h.mem_regexp hd content).mp ⟨item, hmem⟩
      exact ⟨row, hrow, hheader, htype, hmatch⟩
    · rintro ⟨row, hrow, hheader, htype, hmatch⟩
      obtain ⟨item, hmem⟩ := (h.mem_regexp hd row.content).mpr ⟨row, hrow, hheader, rfl, htype⟩
      exact ⟨(row.content, item), hmem, hmatch⟩
  unfold matchHeader
  split
  · rename_i hnil
    exact ⟨fun h0 => (by cases h0), fun h0 => absurd hnil h0.1⟩
  · rename_i hne
    rw [Option.isSome_or, Bool.or_eq_true, examine_isSome (h.strict_sorted _ hd),
      h.inFront_iff hd, h.mem_value_iff hd, Option.isSome_map, List.find?_isSome, exists_met_iff,
      ← hregexp]
    exact (and_iff_right hne).symm

/-! ## The result -/

lemma found_iff (regMatch : Bytes → Bytes → Bool) (rows : List Row) (message : Message)
    (flags : CallFlags) (natAliases : Option NatAliases) (reconfigure : Bool) :
    (addCallFlags regMatch (load rows) message flags natAliases reconfigure).found = true ↔
      (findItem regMatch message (load rows)).isSome = true := by
  unfold addCallFlags
  split
  · rename_i hcount
    obtain rfl := (count_load rows).mp hcount
    exact ⟨fun h => (by cases h), fun h => (by cases h)⟩
  · cases findItem regMatch message (load rows) with
    | none => exact ⟨fun h => (by cases h), fun h => (by cases h)⟩
    | some item => exact ⟨fun _ => rfl, fun _ => rfl⟩

lemma findItem_iff (regMatch : Bytes → Bytes → Bool) (rows : List Row) (message : Message) :
    (findItem regMatch message (load rows)).isSome = true ↔
      ∃ row ∈ rows, ∃ value, row.IsOf message value ∧ value ≠ [] ∧
        row.Met regMatch rows value := by
  have hloaded := loaded_load rows
  unfold findItem
  rw [List.findSome?_isSome_iff]
  constructor
  · rintro ⟨⟨header, d⟩, hd, hmatch⟩
    obtain ⟨hne, row, hrmem, rfl, hmet⟩ := (hloaded.matchHeader_iff hd _).mp hmatch
    refine ⟨row, hrmem, _, ?_, hne, hmet⟩
    unfold Row.IsOf getContentString at *
    cases hmessage : message (row.header ++ [58]) with
    | none =>
      rw [hmessage] at hne
      exact absurd rfl hne
    | some value => rfl
  · rintro ⟨row, hrmem, value, hvalue, hne, hmet⟩
    obtain ⟨d, hd⟩ := hloaded.exists_header hrmem
    refine ⟨(row.header, d), hd, ?_⟩
    have hcontent : getContentString message (row.header ++ [58]) = value := by
      rw [getContentString, hvalue]
      rfl
    rw [hcontent]
    exact (hloaded.matchHeader_iff hd value).mpr ⟨hne, row, hrmem, rfl, hmet⟩

lemma Row.Met.hits {row : Row} {value : Bytes} (h : row.Met regMatch rows value) :
    row.Hits regMatch value := by
  unfold Row.Met at h
  unfold Row.Hits
  cases htype : row.contentType with
  | strict =>
    rw [htype] at h
    exact h
  | pfx =>
    rw [htype] at h
    rcases h with rfl | ⟨-, hprefix, -⟩
    · exact List.prefix_rfl
    · exact hprefix
  | regexp =>
    rw [htype] at h
    exact h

/-- For every set of rules, in the order of loading, and every message: the result is the one of
the linear search exactly when the rules that it finds are not all hidden. -/
theorem equals_linear_search_iff (regMatch : Bytes → Bytes → Bool) (rows : List Row)
    (message : Message) (flags : CallFlags) (natAliases : Option NatAliases)
    (reconfigure : Bool) :
    EqualsLinearSearch regMatch rows message flags natAliases reconfigure ↔
      NothingHides regMatch rows message := by
  unfold EqualsLinearSearch NothingHides
  rw [found_iff, findItem_iff]
  constructor
  · exact fun h hsearch => h.mpr hsearch
  · refine fun h => ⟨?_, h⟩
    rintro ⟨row, hrmem, value, hvalue, -, hmet⟩
    exact ⟨row, hrmem, value, hvalue, hmet.hits⟩

/-- The prefix rules `a` and `ab` of the header `x`. -/
def ruleA : Row := ⟨[120], [97], .pfx, 0, none, by simp⟩

def ruleAb : Row := ⟨[120], [97, 98], .pfx, 0, none, by simp⟩

/-- For the value `ac` the rule `ab` stands between the rule `a` and the value. -/
theorem prefix_hidden :
    ¬EqualsLinearSearch (fun _ _ => false) [ruleA, ruleAb]
      (fun name => if name = [120, 58] then some [97, 99] else none) 0 none false := by
  intro h
  have hsearch : LinearSearch (fun _ _ => false) [ruleA, ruleAb]
      (fun name => if name = [120, 58] then some [97, 99] else none) := by
    refine ⟨ruleA, by simp, [97, 99], by unfold Row.IsOf; decide, ?_⟩
    exact ⟨[99], rfl⟩
  exact absurd (h.mpr hsearch) (by decide)

end VoipMonitor.SipHeaderFilter
