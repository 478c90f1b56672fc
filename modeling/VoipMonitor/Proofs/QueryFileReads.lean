import VoipMonitor.Proofs.QueryLines

/-!
# The lines of a file in parts

The buffer keeps the parts that the decompression makes, and a line may lie across several of them.
However the text is cut, the lines that are taken out of the buffer are those of the text. Of a file
that is cut off the first queries are loaded.
-/

namespace VoipMonitor.QueryFiles
open VoipMonitor.Library

namespace FileZipHandler

def content (f : FileZipHandler) : Bytes := f.readBuffer.flatten.drop f.readBufferBeginPos

def Fits (f : FileZipHandler) : Prop := f.readBufferBeginPos ≤ (f.readBuffer.headD []).length

lemma exists_of_idxOf? {s : Bytes} {pos : Nat} (h : s.idxOf? 10 = some pos) :
    ∃ line rest, s = line ++ 10 :: rest ∧ line.length = pos ∧ 10 ∉ line := by
  obtain ⟨hlt, hat, hbefore⟩ := List.idxOf?_eq_some_iff.mp h
  refine ⟨s.take pos, s.drop (pos + 1), ?_, List.length_take_of_le hlt.le, ?_⟩
  · rw [← hat, ← List.drop_eq_getElem_cons hlt, List.take_append_drop]
  · intro hmem
    obtain ⟨j, hj, hjat⟩ := List.mem_iff_getElem.mp hmem
    rw [List.length_take] at hj
    rw [List.getElem_take] at hjat
    exact hbefore j (by omega) hjat

lemma findEndLine_some {beginPos index endPos : Nat} {items : List Bytes}
    (hfits : beginPos ≤ (items.headD []).length)
    (h : findEndLine beginPos items = some (index, endPos)) :
    ∃ line, 10 ∉ line ∧ lineUpTo beginPos index endPos items = line ++ [10] ∧
      endPos + 1 ≤ ((items.drop index).headD []).length ∧
      items.flatten.drop beginPos =
        line ++ 10 :: (items.drop index).flatten.drop (endPos + 1) := by
  induction items generalizing beginPos index with
  | nil => cases h
  | cons buff items ih =>
    rw [List.headD_cons] at hfits
    rw [findEndLine] at h
    cases hpos : (buff.drop beginPos).idxOf? 10 with
    | some pos =>
      rw [hpos] at h
      obtain ⟨rfl, rfl⟩ : 0 = index ∧ beginPos + pos = endPos := by simpa using h
      obtain ⟨line, rest, hcut, hlen, hline⟩ := exists_of_idxOf? hpos
      have hbuff : buff = buff.take beginPos ++ (line ++ 10 :: rest) := by
        rw [← hcut, List.take_append_drop]
      have htake : (buff.take beginPos).length = beginPos := List.length_take_of_le hfits
      have hdrop : buff.drop (beginPos + pos + 1) = rest := by
        rw [Nat.add_assoc, ← List.drop_drop, hcut, ← hlen, ← List.drop_drop, List.drop_left]
        rfl
      refine ⟨line, hline, ?_, ?_, ?_⟩
      · have hcount : beginPos + pos + 1 - beginPos = (line ++ [10]).length := by
          rw [List.length_append, List.length_singleton, hlen]
          omega
        rw [lineUpTo, List.drop_take, hcut, hcount, List.append_cons line 10 rest, List.take_left]
      · have hsum := congrArg List.length hbuff
        rw [List.length_append, htake, List.length_append, List.length_cons] at hsum
        rw [List.drop_zero, List.headD_cons]
        omega
      · rw [List.flatten_cons, List.drop_append_of_le_length hfits, hcut, List.drop_zero,
          List.flatten_cons, List.drop_append_of_le_length, hdrop, List.append_assoc,
          List.cons_append]
        have hsum := congrArg List.length hbuff
        rw [List.length_append, htake, List.length_append, List.length_cons] at hsum
        omega
    | none =>
      rw [hpos] at h
      obtain ⟨⟨index', endPos'⟩, hfind, heq⟩ := Option.map_eq_some_iff.mp h
      obtain ⟨rfl, rfl⟩ : index' + 1 = index ∧ endPos' = endPos := by simpa using heq
      obtain ⟨line, hline, hup, hfits', hcut⟩ := ih (Nat.zero_le _) hfind
      refine ⟨buff.drop beginPos ++ line, ?_, ?_, hfits', ?_⟩
      · rw [List.mem_append, not_or]
        exact ⟨List.idxOf?_eq_none_iff.mp hpos, hline⟩
      · rw [lineUpTo, hup, List.append_assoc]
      · rw [List.drop_zero] at hcut
        rw [List.flatten_cons, List.drop_append_of_le_length hfits, hcut, List.append_assoc]
        rfl

lemma findEndLine_none {beginPos : Nat} {items : List Bytes}
    (hfits : beginPos ≤ (items.headD []).length) (h : findEndLine beginPos items = none) :
    10 ∉ items.flatten.drop beginPos := by
  induction items generalizing beginPos with
  | nil => simp
  | cons buff items ih =>
    rw [List.headD_cons] at hfits
    rw [findEndLine] at h
    cases hpos : (buff.drop beginPos).idxOf? 10 with
    | some pos =>
      rw [hpos] at h
      cases h
    | none =>
      rw [hpos] at h
      have hrest := ih (Nat.zero_le _) (Option.map_eq_none_iff.mp h)
      rw [List.flatten_cons, List.drop_append_of_le_length hfits, List.mem_append, not_or]
      exact ⟨List.idxOf?_eq_none_iff.mp hpos, hrest⟩

lemma getLine_of_mem {f : FileZipHandler} (hfits : f.Fits) (h : 10 ∈ f.content) :
    ∃ line f', f.getLineFromReadBuffer = (some (line ++ [10]), f') ∧ 10 ∉ line ∧
      f.content = line ++ 10 :: f'.content ∧ f'.Fits ∧ f'.eof = f.eof := by
  cases hfind : findEndLine f.readBufferBeginPos f.readBuffer with
  | none => exact absurd h (findEndLine_none hfits hfind)
  | some e =>
    obtain ⟨index, endPos⟩ := e
    obtain ⟨line, hline, hup, hfits', hcut⟩ := findEndLine_some hfits hfind
    refine ⟨line, { f with
        readBuffer := f.readBuffer.drop index, readBufferBeginPos := endPos + 1 },
      ?_, hline, hcut, hfits', rfl⟩
    rw [getLineFromReadBuffer, hfind]
    simp only [hup]

lemma getLine_of_not_mem {f : FileZipHandler} (hfits : f.Fits) (h : 10 ∉ f.content) :
    f.getLineFromReadBuffer =
      if f.eof then (if f.content = [] then none else some f.content, ⟨[], 0, true⟩)
      else (none, f) := by
  have hfind : findEndLine f.readBufferBeginPos f.readBuffer = none := by
    by_contra hne
    obtain ⟨e, he⟩ := Option.ne_none_iff_exists'.mp hne
    obtain ⟨line, -, -, -, hcut⟩ := findEndLine_some hfits he
    refine h ?_
    rw [content, hcut]
    exact List.mem_append_right _ List.mem_cons_self
  rw [getLineFromReadBuffer, hfind]
  cases heof : f.eof with
  | false => simp
  | true =>
    by_cases hnil : f.readBuffer = []
    · have hpos : f.readBufferBeginPos = 0 := by
        have hle := hfits
        rw [Fits, hnil] at hle
        exact Nat.le_zero.mp hle
      have hcontent : f.content = [] := by
        rw [content, hnil, List.flatten_nil, List.drop_nil]
      have hsame : f = ⟨[], 0, true⟩ := by
        rw [← hnil, ← hpos, ← heof]
      simp [hnil, hcontent, ← hsame]
    · simp [hnil, content]

/-- The loop takes all lines that have their end, and at the end of the file what is behind them. -/
lemma getLines_spec (fuel : Nat) {f : FileZipHandler} (hfits : f.Fits)
    (hfuel : f.content.length < fuel) :
    ∃ rows g, (∀ r ∈ rows, 10 ∉ r) ∧ f.content = joinRecords 10 rows ++ g.content ∧
      10 ∉ g.content ∧ g.Fits ∧ g.eof = f.eof ∧
      getLines fuel f = (rows.map (fun r => r ++ [10]) ++ (if f.eof then recordsOf 10 g.content else []),
        if f.eof then ⟨[], 0, true⟩ else g) := by
  induction fuel generalizing f with
  | zero => exact absurd hfuel (Nat.not_lt_zero _)
  | succ fuel ih =>
    rw [getLines]
    by_cases h : 10 ∈ f.content
    · obtain ⟨line, g, hget, hline, hcut, hfits', heof⟩ := getLine_of_mem hfits h
      have hlen : g.content.length < fuel := by
        have hsum := congrArg List.length hcut
        rw [List.length_append, List.length_cons] at hsum
        omega
      obtain ⟨rows, f', hrows, hcontent, hnone, hfits'', heof', hlines⟩ := ih hfits' hlen
      refine ⟨line :: rows, f', List.forall_mem_cons.mpr ⟨hline, hrows⟩, ?_, hnone, hfits'',
        heof'.trans heof, ?_⟩
      · rw [hcut, hcontent, joinRecords_cons, List.append_assoc, List.cons_append]
      · simp only [hget, hlines, heof, List.map_cons, List.cons_append]
    · refine ⟨[], f, by simp, rfl, h, hfits, rfl, ?_⟩
      rw [getLine_of_not_mem hfits h]
      cases heof : f.eof with
      | false => rfl
      | true =>
        by_cases hnil : f.content = []
        · simp [hnil]
        · simp only [if_true, hnil, if_false, recordsOf_of_not_mem h hnil]
          cases fuel <;> rfl

def delivered : List Read → Bytes × Bool
  | [] => ([], false)
  | .data items isOk :: reads =>
    if isOk then (items.flatten ++ (delivered reads).1, (delivered reads).2) else ([], false)
  | .eof items isOk :: _ => if isOk then (items.flatten, true) else ([], false)
  | .error :: _ => ([], false)

lemma content_append (f : FileZipHandler) (hfits : f.Fits) (items : List Bytes) (eof : Bool) :
    content ⟨f.readBuffer ++ items, f.readBufferBeginPos, eof⟩ = f.content ++ items.flatten ∧
      Fits ⟨f.readBuffer ++ items, f.readBufferBeginPos, eof⟩ := by
  cases hbuff : f.readBuffer with
  | nil =>
    have hpos : f.readBufferBeginPos = 0 := by
      have hle := hfits
      rw [Fits, hbuff] at hle
      exact Nat.le_zero.mp hle
    rw [content, content, Fits, hbuff, hpos]
    exact ⟨rfl, Nat.zero_le _⟩
  | cons buff rest =>
    have hle : f.readBufferBeginPos ≤ buff.length := by
      have hle := hfits
      rwa [Fits, hbuff] at hle
    refine ⟨?_, hle⟩
    have hflat : f.readBufferBeginPos ≤ (buff :: rest).flatten.length := by
      rw [List.flatten_cons, List.length_append]
      omega
    rw [content, content, hbuff, List.flatten_append, List.drop_append_of_le_length hflat]

lemma content_length_le (f : FileZipHandler) : f.content.length ≤ f.readBuffer.flatten.length := by
  rw [content, List.length_drop]
  omega

lemma readTurn_data {f : FileZipHandler} (hfits : f.Fits) (heof : f.eof = false)
    (items : List Bytes) :
    ∃ rows g, f.readTurn (.data items true) = (rows.map (fun r => r ++ [10]), some g) ∧
      (∀ r ∈ rows, 10 ∉ r) ∧ f.content ++ items.flatten = joinRecords 10 rows ++ g.content ∧
      g.Fits ∧ g.eof = false := by
  obtain ⟨hcontent, hfits'⟩ := content_append f hfits items f.eof
  have hlen := content_length_le ⟨f.readBuffer ++ items, f.readBufferBeginPos, f.eof⟩
  obtain ⟨rows, g, hrows, hcut, -, hfits'', heof', hlines⟩ :=
    getLines_spec _ hfits' (Nat.lt_succ_of_le hlen)
  rw [hcontent] at hcut
  have hlines' := hlines.trans
    (show _ = (rows.map (fun r => r ++ [10]), g) by simp only [heof]; simp)
  refine ⟨rows, g, ?_, hrows, hcut, hfits'', heof'.trans heof⟩
  rw [readTurn, if_pos rfl]
  simp only [hlines']

lemma readTurn_eof {f : FileZipHandler} (hfits : f.Fits) (items : List Bytes) :
    f.readTurn (.eof items true) = (recordsOf 10 (f.content ++ items.flatten), none) := by
  obtain ⟨hcontent, hfits'⟩ := content_append f hfits items true
  have hlen := content_length_le ⟨f.readBuffer ++ items, f.readBufferBeginPos, true⟩
  obtain ⟨rows, g, hrows, hcut, -, -, -, hlines⟩ :=
    getLines_spec _ hfits' (Nat.lt_succ_of_le hlen)
  rw [hcontent] at hcut
  rw [readTurn, if_pos rfl]
  simp only [hlines, if_true]
  rw [hcut, recordsOf_joinRecords_append hrows]

/-- The lines of a file that is read to its end are those of its text; otherwise they are the lines
of what was read that have their end, or the first of them. -/
lemma readLines_spec (reads : List Read) {f : FileZipHandler} (hfits : f.Fits) (heof : f.eof = false) :
    if (delivered reads).2 then readLines f reads = recordsOf 10 (f.content ++ (delivered reads).1)
    else ∃ rows, readLines f reads = rows.map (fun r => r ++ [10]) ∧ (∀ r ∈ rows, 10 ∉ r) ∧
      joinRecords 10 rows <+: f.content ++ (delivered reads).1 := by
  induction reads generalizing f with
  | nil => exact ⟨[], rfl, by simp, List.nil_prefix⟩
  | cons read reads ih =>
    cases read with
    | error => exact ⟨[], rfl, by simp, List.nil_prefix⟩
    | eof items isOk =>
      cases isOk with
      | false => exact ⟨[], rfl, by simp, List.nil_prefix⟩
      | true =>
        change readLines f (.eof items true :: reads) = recordsOf 10 (f.content ++ items.flatten)
        rw [readLines, readTurn_eof hfits]
        exact List.append_nil _
    | data items isOk =>
      cases isOk with
      | false => exact ⟨[], rfl, by simp, List.nil_prefix⟩
      | true =>
        obtain ⟨rows, g, hturn, hrows, hcut, hfits', heof'⟩ := readTurn_data hfits heof items
        have hrest := ih hfits' heof'
        have hread : readLines f (.data items true :: reads) =
            rows.map (fun r => r ++ [10]) ++ readLines g reads := by
          rw [readLines, hturn]
          rfl
        have htext : f.content ++ (delivered (.data items true :: reads)).1 =
            joinRecords 10 rows ++ (g.content ++ (delivered reads).1) := by
          rw [delivered]
          simp only [if_true]
          rw [← List.append_assoc, hcut, List.append_assoc]
        have hends : (delivered (.data items true :: reads)).2 = (delivered reads).2 := by
          rw [delivered]
          rfl
        rw [hends, htext, hread]
        cases hdone : (delivered reads).2 with
        | true =>
          rw [hdone] at hrest
          simp only [if_true] at hrest ⊢
          rw [hrest, recordsOf_joinRecords_append hrows]
        | false =>
          rw [hdone] at hrest
          simp only [Bool.false_eq_true, if_false] at hrest ⊢
          obtain ⟨rows', hread', hrows', hpre⟩ := hrest
          refine ⟨rows ++ rows', ?_, ?_, ?_⟩
          · rw [hread', List.map_append]
          · intro r hr
            exact (List.mem_append.mp hr).elim (hrows r) (hrows' r)
          · rw [joinRecords_append]
            exact (List.prefix_append_right_inj _).mpr hpre

end FileZipHandler

/-! ## The queries of a file -/

def linesText (entries : List Entry) : Bytes := joinRecords 10 (entries.map Entry.line)

lemma newline_not_mem_lines (entries : List Entry) : ∀ r ∈ entries.map Entry.line, 10 ∉ r := by
  intro r hr
  obtain ⟨e, -, rfl⟩ := List.mem_map.mp hr
  exact e.newline_not_mem_line

lemma filterMap_loadLine_lines (entries : List Entry) :
    ((entries.map Entry.line).map (fun r => r ++ [10])).filterMap loadLine =
      entries.filterMap Entry.loaded := by
  rw [List.map_map, List.filterMap_map]
  refine List.filterMap_congr ?_
  intro e _
  exact e.loadLine_line

lemma loadFromQFile_of_isPrefix (entries : List Entry) (reads : List FileZipHandler.Read)
    (h : (FileZipHandler.delivered reads).1 <+: linesText entries) :
    ∃ k, loadFromQFile reads = (entries.take k).filterMap Entry.loaded := by
  have hspec := FileZipHandler.readLines_spec reads (f := {}) (Nat.zero_le _) rfl
  have hcontent : FileZipHandler.content {} = [] := rfl
  rw [hcontent, List.nil_append] at hspec
  cases hdone : (FileZipHandler.delivered reads).2 with
  | false =>
    rw [hdone] at hspec
    simp only [Bool.false_eq_true, if_false] at hspec
    obtain ⟨rows, hlines, hrows, hpre⟩ := hspec
    have hfirst := isPrefix_of_joinRecords (newline_not_mem_lines entries) hrows (hpre.trans h)
    rw [List.prefix_iff_eq_take, ← List.map_take] at hfirst
    exact ⟨rows.length, by rw [loadFromQFile, hlines, ← filterMap_loadLine_lines, ← hfirst]⟩
  | true =>
    rw [hdone] at hspec
    simp only [if_true] at hspec
    obtain ⟨k, p, hcut, hp⟩ := exists_of_isPrefix_joinRecords h
    rw [← List.map_take] at hcut
    have hlines : loadFromQFile reads =
        (entries.take k).filterMap Entry.loaded ++ (recordsOf 10 p).filterMap loadLine := by
      rw [loadFromQFile, hspec, hcut, recordsOf_joinRecords_append (newline_not_mem_lines _),
        List.filterMap_append, filterMap_loadLine_lines]
    rcases hp with rfl | ⟨r, hr, hp⟩
    · exact ⟨k, by rw [hlines, recordsOf_nil, List.filterMap_nil, List.append_nil]⟩
    · rw [List.getElem?_map] at hr
      obtain ⟨e, he, rfl⟩ := Option.map_eq_some_iff.mp hr
      by_cases hnil : p = []
      · exact ⟨k, by rw [hlines, hnil, recordsOf_nil, List.filterMap_nil, List.append_nil]⟩
      · have hnewline : 10 ∉ p := fun hmem => e.newline_not_mem_line (hp.subset hmem)
        rw [recordsOf_of_not_mem hnewline hnil] at hlines
        by_cases hwhole : p = e.line
        · refine ⟨k + 1, ?_⟩
          rw [hlines, List.take_add_one, he, Option.toList_some, List.filterMap_append]
          congr 1
          rw [List.filterMap_cons, List.filterMap_cons, e.loadLine_of_isPrefix hp, if_pos hwhole]
          rfl
        · refine ⟨k, ?_⟩
          rw [hlines, List.filterMap_cons_none, List.filterMap_nil, List.append_nil]
          rw [e.loadLine_of_isPrefix hp, if_neg hwhole]

/-- However a text of lines is cut off and delivered in parts, the queries that are loaded are the
first ones that were stored. When the reading comes to the end of the file, no query is missing of
which the line is there. -/
theorem loadFromQFile_begin (entries : List Entry) (reads : List FileZipHandler.Read)
    (h : (FileZipHandler.delivered reads).1 <+: linesText entries) :
    (∃ k, loadFromQFile reads = (entries.take k).filterMap Entry.loaded) ∧
      ((FileZipHandler.delivered reads).2 = true → ∀ j,
        linesText (entries.take j) <+: (FileZipHandler.delivered reads).1 →
          (entries.take j).filterMap Entry.loaded <+: loadFromQFile reads) := by
  refine ⟨loadFromQFile_of_isPrefix entries reads h, ?_⟩
  rintro hdone j ⟨u, hu⟩
  have hspec := FileZipHandler.readLines_spec reads (f := {}) (Nat.zero_le _) rfl
  have hcontent : FileZipHandler.content {} = [] := rfl
  rw [hdone, if_pos rfl, hcontent, List.nil_append, ← hu, linesText,
    recordsOf_joinRecords_append (newline_not_mem_lines _)] at hspec
  rw [loadFromQFile, hspec, List.filterMap_append, filterMap_loadLine_lines]
  exact List.prefix_append _ _

theorem loadFromQFile_begin_cut :
    ∃ k, loadFromQFile [.data [[50, 47, 49], [48, 58, 65]] true, .eof [[95, 95]] true] =
      ([⟨2, ⟨[65, 10, 66], by decide⟩, by decide, by decide, by decide⟩].take k).filterMap
        Entry.loaded :=
  (loadFromQFile_begin [⟨2, ⟨[65, 10, 66], by decide⟩, by decide, by decide, by decide⟩]
    [.data [[50, 47, 49], [48, 58, 65]] true, .eof [[95, 95]] true] (by decide)).1

end VoipMonitor.QueryFiles
