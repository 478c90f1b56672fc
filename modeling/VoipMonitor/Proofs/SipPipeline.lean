import VoipMonitor.Library.Cuts
import VoipMonitor.Library.Lines
import VoipMonitor.Model.SipFraming

/-!
# The cuts of a row of SIP messages

A buffer of SIP messages, with keep-alive line ends before each of them, is cut by `_checkSip`
into the messages. Two line ends make a tile of their own, a single one stays before its message.
-/

namespace VoipMonitor.Sip
open VoipMonitor.Library

/-! ## Messages -/

def IsLength (value : Bytes) (n : Nat) : Prop :=
  ∃ blanks digits rest, value = blanks ++ (digits ++ rest) ∧ (∀ c ∈ blanks, isWhite c = true) ∧
    digits ≠ [] ∧ (∀ c ∈ digits, isDigit c = true) ∧ (∀ c ∈ rest, isWhite c = true) ∧
    decimal digits = n

def findField (fields : List Bytes) (name : String) : Option Bytes :=
  fields.find? (fun f => decide (lower (ascii name) <+: lower f))

/-- The fields announce a body of `n` bytes, in the long form or the short one. -/
def Announces (fields : List Bytes) (n : Nat) : Prop :=
  match findField fields "Content-Length:" with
  | some f => IsLength (f.drop 15) n
  | none =>
    match findField fields "l:" with
    | some f => IsLength (f.drop 2) n
    | none => n = 0

/-- The begin of a request or of a response. -/
def IsStart (line : Bytes) : Prop :=
  (∃ m ∈ sipMethods, ascii m.1 ++ [32] <+: line) ∨
    ∃ c ∈ ascii "123456", ascii "SIP/2.0 " ++ [c] <+: line

structure Message where
  startLine : Bytes
  fields : List Bytes
  body : Bytes
  start : IsStart startLine
  lines : ∀ l ∈ startLine :: fields, l ≠ [] ∧ 10 ∉ l ∧ 0 ∉ l
  length_header : (joinLines startLine fields).length + 4 ≤ 4990
  announced : Announces fields body.length
  length_ge : 11 ≤ (joinLines startLine fields).length + 4 + body.length

namespace Message

def header (m : Message) : Bytes := joinLines m.startLine m.fields

def bytes (m : Message) : Bytes := m.header ++ 13 :: 10 :: 13 :: 10 :: m.body

lemma length_bytes (m : Message) : m.bytes.length = m.header.length + 4 + m.body.length := by
  simp [bytes]
  omega

lemma startLine_isPrefix_bytes (m : Message) : m.startLine <+: m.bytes := by
  refine List.IsPrefix.trans ?_ (List.prefix_append _ _)
  exact List.prefix_append _ _

end Message

def lineEnds (k : Nat) : Bytes := (List.replicate k [13, 10]).flatten

lemma lineEnds_succ (k : Nat) : lineEnds (k + 1) = 13 :: 10 :: lineEnds k := by
  simp [lineEnds, List.replicate_succ]

def wire (pipeline : List (Nat × Message)) : Bytes :=
  pipeline.flatMap (fun p => lineEnds p.1 ++ p.2.bytes)

/-! ## The begin of a message -/

lemma not_startsWith_of_startsWith {a b line : Bytes} (ha : a <+: line) (hab : ¬b <+: a) (hba : ¬a <+: b) :
    ¬b <+: line := by
  intro hb
  rcases List.prefix_or_prefix_of_prefix ha hb with h | h
  · exact hba h
  · exact hab h

lemma IsStart.of_startsWith {line data : Bytes} (h : IsStart line) (hp : line <+: data) :
    IsStart data := by
  rcases h with ⟨m, hm, h⟩ | ⟨c, hc, h⟩
  · exact .inl ⟨m, hm, h.trans hp⟩
  · exact .inr ⟨c, hc, h.trans hp⟩

lemma IsStart.not_field {line : Bytes} (h : IsStart line) {name : String}
    (hname : name ∈ ["Content-Length:", "l:"]) : ¬lower (ascii name) <+: lower line := by
  have hmap : ∀ {p : Bytes}, p <+: line → lower p <+: lower line := fun hp => hp.map _
  rcases h with ⟨m, hm, h⟩ | ⟨c, hc, h⟩
  · have hdec : ∀ m ∈ sipMethods, ∀ name ∈ ["Content-Length:", "l:"],
        ¬lower (ascii name) <+: lower (ascii m.1 ++ [32]) ∧
          ¬lower (ascii m.1 ++ [32]) <+: lower (ascii name) := by
      decide +kernel
    have h2 := hdec m hm name hname
    exact not_startsWith_of_startsWith (hmap h) h2.1 h2.2
  · have hdec : ∀ c ∈ ascii "123456", ∀ name ∈ ["Content-Length:", "l:"],
        ¬lower (ascii name) <+: lower (ascii "SIP/2.0 " ++ [c]) ∧
          ¬lower (ascii "SIP/2.0 " ++ [c]) <+: lower (ascii name) := by
      decide +kernel
    have h2 := hdec c hc name hname
    exact not_startsWith_of_startsWith (hmap h) h2.1 h2.2

lemma IsStart.head {data : Bytes} (h : IsStart data) :
    ∃ c rest, data = c :: rest ∧ 65 ≤ c.toNat ∧ c.toNat ≤ 90 := by
  rcases h with ⟨m, hm, t, rfl⟩ | ⟨c, hc, t, rfl⟩
  · have hdec : ∀ m ∈ sipMethods, ∃ c ∈ (ascii m.1 ++ [32]).head?, 65 ≤ c.toNat ∧ c.toNat ≤ 90 := by
      decide +kernel
    obtain ⟨c, hhead, hc⟩ := hdec m hm
    rw [Option.mem_def, List.head?_eq_some_iff] at hhead
    obtain ⟨rest, hrest⟩ := hhead
    exact ⟨c, rest ++ t, by rw [hrest]; rfl, hc⟩
  · exact ⟨83, ascii "IP/2.0 " ++ [c] ++ t, by rfl, by decide, by decide⟩

lemma parseSipResponse_pos {c : UInt8} (hc : c ∈ ascii "123456") {data : Bytes}
    (h : ascii "SIP/2.0 " ++ [c] <+: data) : 0 < parseSipResponse data := by
  have hlen : 9 ≤ data.length := by
    have := h.length_le
    rwa [List.length_append] at this
  have hpre : (ascii "SIP/2.0 ").isPrefixOf data = true := by
    rw [List.isPrefixOf_iff_prefix]
    exact (List.prefix_append _ _).trans h
  have hget : data.getD 8 0 = c := by
    obtain ⟨t, rfl⟩ := h
    rfl
  unfold parseSipResponse
  rw [if_pos ⟨hlen, hpre⟩, hget]
  have hcases : c = 49 ∨ c = 50 ∨ c = 51 ∨ c = 52 ∨ c = 53 ∨ c = 54 := by
    simpa [ascii] using hc
  rcases hcases with rfl | rfl | rfl | rfl | rfl | rfl
  · change 0 < if data.length ≥ 10 then _ else _
    split_ifs <;> decide
  · change 0 < if _ then _ else _
    split_ifs <;> decide
  · change 0 < if _ then _ else _
    split_ifs <;> decide
  · change 0 < if _ then _ else _
    split_ifs
    · split <;> decide
    · decide
  · change 0 < 500
    decide
  · change 0 < 600
    decide

lemma IsStart.parseSipMethod_pos {data : Bytes} (h : IsStart data) :
    0 < parseSipMethod data true := by
  unfold parseSipMethod
  split
  · rename_i m hfind
    have hpos : ∀ m ∈ sipMethods, 0 < m.2 := by decide
    exact hpos m (List.mem_of_find?_eq_some hfind)
  · rename_i hfind
    rcases h with ⟨m, hm, h⟩ | ⟨c, hc, h⟩
    · rw [List.find?_eq_none] at hfind
      refine absurd ?_ (hfind m hm)
      simpa [isMethod] using h
    · exact parseSipResponse_pos hc h

lemma skipLineEnds_of_isStart {data : Bytes} (h : IsStart data) : skipLineEnds data = data := by
  obtain ⟨c, rest, rfl, hc⟩ := h.head
  have hcr : c ≠ crChar := by
    rintro rfl
    exact absurd hc.1 (by decide)
  have hlf : c ≠ lfChar := by
    rintro rfl
    exact absurd hc.1 (by decide)
  cases rest with
  | nil => rfl
  | cons d rest =>
    rw [skipLineEnds]
    simp [hcr, hlf]

lemma skipLineEnds_lineEnds {data : Bytes} (h : IsStart data) (hlen : 11 ≤ data.length) (k : Nat) :
    skipLineEnds (lineEnds k ++ data) = data := by
  induction k with
  | zero => exact skipLineEnds_of_isStart h
  | succ k ih =>
    rw [lineEnds_succ, List.cons_append, List.cons_append, skipLineEnds, if_pos, if_pos, ih]
    · exact ⟨rfl, rfl⟩
    · rw [List.length_append]
      omega

lemma checkSip20_lineEnds {data : Bytes} (h : IsStart data) (hlen : 11 ≤ data.length) (k : Nat) :
    checkSip20 (lineEnds k ++ data) true = true := by
  have hhead : (lineEnds k ++ data).head? ≠ some 0x81 := by
    cases k with
    | zero =>
      obtain ⟨c, rest, rfl, hc⟩ := h.head
      intro heq
      change some c = _ at heq
      rw [Option.some.injEq] at heq
      rw [heq] at hc
      exact absurd hc.2 (by decide)
    | succ k =>
      rw [lineEnds_succ, List.cons_append, List.head?_cons]
      decide
  have hws : checkWebsocket (lineEnds k ++ data) .na = false := by
    unfold checkWebsocket
    rw [decide_eq_false hhead, Bool.false_and, Bool.false_and, Bool.false_and]
  rw [checkSip20, checkSip20Frames]
  simp only [if_true, hws, Bool.false_eq_true, if_false]
  rw [skipLineEnds_lineEnds h hlen, if_neg (by omega)]
  exact decide_eq_true h.parseSipMethod_pos

/-! ## The length of a message -/

lemma lower_joinLines (first : Bytes) (lines : List Bytes) :
    lower (joinLines first lines) = joinLines (lower first) (lines.map lower) := by
  induction lines generalizing first with
  | nil => rw [List.map_nil, joinLines_nil, joinLines_nil]
  | cons l lines ih =>
    rw [List.map_cons, joinLines_cons, joinLines_cons, lower_append, ← ih]
    rfl

lemma zero_notMem_joinLines {first : Bytes} {lines : List Bytes} (hfirst : 0 ∉ first)
    (hlines : ∀ l ∈ lines, 0 ∉ l) : 0 ∉ joinLines first lines := by
  rw [joinLines, List.mem_append, List.mem_flatMap]
  rintro (h | ⟨l, hl, h⟩)
  · exact hfirst h
  · simp only [List.mem_cons] at h
    rcases h with h | h | h
    · exact absurd h (by decide)
    · exact absurd h (by decide)
    · exact hlines l hl h

lemma drop_joinLines (first : Bytes) (before : List Bytes) (line : Bytes) (after : List Bytes)
    (n : Nat) : (joinLines first (before ++ line :: after)).drop
      ((joinLines first before).length + 2 + n) = (joinLines line after).drop n := by
  have hsplit : joinLines first (before ++ line :: after) =
      joinLines first before ++ 13 :: 10 :: joinLines line after := by
    simp [joinLines]
  rw [hsplit, ← List.drop_drop, drop_line]

lemma atol_isLength {value after : Bytes} {n : Nat} (h : IsLength value n) (hn : n < 2 ^ 31)
    (hafter : ∀ c ∈ after.head?, c = 13) :
    (atol ((value ++ after).dropWhile (fun c => c = 32)) % 2 ^ 32).toNat = n := by
  obtain ⟨blanks, digits, rest, rfl, hblanks, hne, hdigits, hrest, hval⟩ := h
  have hskip : ((blanks ++ (digits ++ rest) ++ after).dropWhile (fun c => c = 32)) =
      blanks.dropWhile (fun c => c = 32) ++ (digits ++ (rest ++ after)) := by
    have hdigit : (digits ++ (rest ++ after)).dropWhile (fun c => c = 32) =
        digits ++ (rest ++ after) := by
      cases digits with
      | nil => exact absurd rfl hne
      | cons c digits =>
        have hc : c ≠ 32 := by
          rintro rfl
          exact absurd (hdigits 32 List.mem_cons_self) (by decide)
        rw [List.cons_append, List.dropWhile_cons_of_neg (by simpa using hc)]
    rw [List.append_assoc, List.append_assoc, List.dropWhile_append]
    split
    · rename_i hempty
      rw [List.isEmpty_iff] at hempty
      rw [hempty, hdigit, List.nil_append]
    · rfl
  have hstop : ∀ c ∈ (rest ++ after).head?, isDigit c = false := by
    intro c hc
    cases rest with
    | nil =>
      rw [hafter c hc]
      decide
    | cons d rest =>
      have hd : isWhite c = true := by
        rw [List.cons_append, List.head?_cons, Option.mem_some_iff] at hc
        rw [← hc]
        exact hrest d List.mem_cons_self
      by_contra hdigit
      rw [Bool.not_eq_false] at hdigit
      rw [isWhite_eq_false_of_isDigit hdigit] at hd
      exact absurd hd (by decide)
  rw [hskip, atol_digits (fun c hc => hblanks c (List.dropWhile_sublist _ |>.subset hc)) hne hdigits
    hstop (by omega), hval]
  omega

lemma lengthBehind_joinLines {first : Bytes} {lines : List Bytes} {name : String} {n : Nat}
    (hname : 13 ∉ lower (ascii name)) (hn : n < 2 ^ 31) (hfirst : 10 ∉ first ∧ 0 ∉ first)
    (hlines : ∀ l ∈ lines, 10 ∉ l ∧ 0 ∉ l)
    (hfield : ∀ f ∈ findField lines name, IsLength (f.drop (ascii name).length) n) :
    lengthBehind (joinLines first lines) (lfChar :: ascii name) =
      (findField lines name).map (fun _ => n) := by
  have hstr : cString (joinLines first lines) = joinLines first lines :=
    cString_eq (zero_notMem_joinLines hfirst.2 (fun l hl => (hlines l hl).2))
  have hlf : ∀ l : Bytes, 10 ∉ l → 10 ∉ lower l := fun l hl h =>
    hl ((mem_lower_of_lt (by decide)).mp h)
  have hsearch := memmem_lf_joinLines (lower first) (lines.map lower) hname
    (hlf first hfirst.1) (by
      intro l hl
      obtain ⟨l', hl', rfl⟩ := List.mem_map.mp hl
      exact hlf l' (hlines l' hl').1)
  have hneedle : lower (lfChar :: ascii name) = 10 :: lower (ascii name) := rfl
  rw [lengthBehind, strcasestr, hstr, hneedle, lower_joinLines]
  rcases hsearch with ⟨hnone, hmem⟩ | ⟨before, line, after, hsplit, hbefore, hline, hmem⟩
  · have hfind : findField lines name = none := by
      rw [findField, List.find?_eq_none]
      intro l hl
      simpa using hnone (lower l) (List.mem_map_of_mem hl)
    rw [hmem, hfind]
    rfl
  · obtain ⟨before', rest', rfl, rfl, hmap⟩ := List.map_eq_append_iff.mp hsplit
    obtain ⟨line', after', rfl, rfl, rfl⟩ := List.map_eq_cons_iff.mp hmap
    have hfind : findField (before' ++ line' :: after') name = some line' := by
      rw [findField, List.find?_eq_some_iff_append]
      refine ⟨by simpa using hline, before', after', rfl, ?_⟩
      intro l hl
      simpa using hbefore (lower l) (List.mem_map_of_mem hl)
    have hpos : (joinLines (lower first) (before'.map lower)).length + 1 +
        (lfChar :: ascii name).length =
        (joinLines first before').length + 2 + (ascii name).length := by
      rw [← lower_joinLines, length_lower, List.length_cons]
      omega
    have hle : (ascii name).length ≤ line'.length := by
      have h := hline.length_le
      rwa [length_lower, length_lower] at h
    rw [hmem, hfind, Option.map_some, Option.map_some, hpos, drop_joinLines, joinLines,
      List.drop_append_of_le_length hle, atol_isLength (hfield line' hfind) hn]
    intro c hc
    cases after' with
    | nil => exact absurd hc (by simp)
    | cons l after => simpa using hc.symm

lemma findContentLength_joinLines {first : Bytes} {lines : List Bytes} {n : Nat}
    (hn : n < 2 ^ 31) (hfirst : 10 ∉ first ∧ 0 ∉ first) (hlines : ∀ l ∈ lines, 10 ∉ l ∧ 0 ∉ l)
    (h : Announces lines n) : (findContentLength (joinLines first lines)).getD 0 = n := by
  unfold Announces at h
  cases hlong : findField lines "Content-Length:" with
  | some f =>
    rw [hlong] at h
    rw [findContentLength, lengthBehind_joinLines (by decide) hn hfirst hlines, hlong]
    · rfl
    · intro f' hf'
      rw [hlong, Option.mem_some_iff] at hf'
      rw [← hf']
      exact h
  | none =>
    rw [hlong] at h
    rw [findContentLength, lengthBehind_joinLines (by decide) hn hfirst hlines (by simp [hlong]),
      hlong]
    change (lengthBehind (joinLines first lines) (lfChar :: ascii "l:")).getD 0 = n
    cases hshort : findField lines "l:" with
    | some f =>
      rw [hshort] at h
      rw [lengthBehind_joinLines (by decide) hn hfirst hlines, hshort]
      · rfl
      · intro f' hf'
        rw [hshort, Option.mem_some_iff] at hf'
        rw [← hf']
        exact h
    | none =>
      rw [hshort] at h
      rw [lengthBehind_joinLines (by decide) hn hfirst hlines (by simp [hshort]), hshort]
      exact h.symm

lemma announces_cons {line : Bytes} {fields : List Bytes} {n : Nat} (hstart : IsStart line) :
    Announces (line :: fields) n ↔ Announces fields n := by
  have hfind : ∀ name ∈ ["Content-Length:", "l:"],
      findField (line :: fields) name = findField fields name := by
    intro name hname
    rw [findField, List.find?_cons_of_neg]
    · rfl
    · simpa using hstart.not_field hname
  unfold Announces
  rw [hfind _ (by simp), hfind _ (by simp)]

/-! ## Tiles -/

def CutsAt (tile rest : Bytes) : Prop :=
  ∃ pos size, findHeaderEnd (tile ++ rest) = some (pos, size) ∧
    pos + size + (findContentLength ((tile ++ rest).take pos)).getD 0 = tile.length

lemma findHeaderEnd_joinLines {first : Bytes} {lines : List Bytes} (hfirst : 10 ∉ first)
    (hlines : ∀ l ∈ lines, l ≠ [] ∧ 10 ∉ l) (hlen : (joinLines first lines).length + 4 ≤ 5000)
    (rest : Bytes) :
    findHeaderEnd (joinLines first lines ++ 13 :: 10 :: 13 :: 10 :: rest) =
      some ((joinLines first lines).length, 4) := by
  have hmem : memmem ((joinLines first lines ++ 13 :: 10 :: 13 :: 10 :: rest).take 5000)
      [crChar, lfChar, crChar, lfChar] = some (joinLines first lines).length :=
    memmem_take (List.cons_ne_nil _ _) (memmem_joinLines hfirst hlines rest) hlen
  rw [findHeaderEnd, hmem]

lemma cutsAt_lineEnds (rest : Bytes) : CutsAt (lineEnds 2) rest := by
  refine ⟨0, 4, ?_, rfl⟩
  exact @findHeaderEnd_joinLines [] [] (by simp) (by simp) (by decide) rest

lemma cutsAt_joinLines {first body : Bytes} {lines : List Bytes} (hfirst : 10 ∉ first ∧ 0 ∉ first)
    (hlines : ∀ l ∈ lines, l ≠ [] ∧ 10 ∉ l ∧ 0 ∉ l)
    (hlen : (joinLines first lines).length + 4 ≤ 5000) (h : Announces lines body.length)
    (hbody : body.length < 2 ^ 31) (rest : Bytes) :
    CutsAt (joinLines first lines ++ 13 :: 10 :: 13 :: 10 :: body) rest := by
  have hjoin : joinLines first lines ++ 13 :: 10 :: 13 :: 10 :: body ++ rest =
      joinLines first lines ++ 13 :: 10 :: 13 :: 10 :: (body ++ rest) := by
    simp
  refine ⟨(joinLines first lines).length, 4, ?_, ?_⟩
  · rw [hjoin]
    exact findHeaderEnd_joinLines hfirst.1 (fun l hl => ⟨(hlines l hl).1, (hlines l hl).2.1⟩) hlen _
  · rw [hjoin, List.take_left,
      findContentLength_joinLines hbody hfirst (fun l hl => (hlines l hl).2) h]
    simp only [List.length_append, List.length_cons]
    omega

lemma Message.cutsAt (m : Message) (hbody : m.body.length < 2 ^ 31) {k : Nat} (hk : k < 2)
    (rest : Bytes) : CutsAt (lineEnds k ++ m.bytes) rest := by
  have hstart := m.lines m.startLine List.mem_cons_self
  interval_cases k
  · refine cutsAt_joinLines hstart.2 ?_ ?_ m.announced hbody rest
    · exact fun l hl => m.lines l (List.mem_cons_of_mem _ hl)
    · have := m.length_header
      omega
  · have hsplit : lineEnds 1 ++ m.bytes =
        joinLines [] (m.startLine :: m.fields) ++ 13 :: 10 :: 13 :: 10 :: m.body := by
      rw [joinLines_cons]
      rfl
    rw [hsplit]
    refine cutsAt_joinLines (by simp) m.lines ?_ ((announces_cons m.start).mpr m.announced) hbody
      rest
    have := m.length_header
    rw [joinLines_cons, List.nil_append, List.length_cons, List.length_cons]
    omega

def tilesOf (p : Nat × Message) : List Bytes :=
  List.replicate (p.1 / 2) (lineEnds 2) ++ [lineEnds (p.1 % 2) ++ p.2.bytes]

def tiles (pipeline : List (Nat × Message)) : List Bytes := pipeline.flatMap tilesOf

lemma tilesOf_add_two (k : Nat) (m : Message) :
    tilesOf (k + 2, m) = lineEnds 2 :: tilesOf (k, m) := by
  simp [tilesOf, List.replicate_succ]

lemma flatten_tilesOf (k : Nat) (m : Message) :
    (tilesOf (k, m)).flatten = lineEnds k ++ m.bytes := by
  induction k using Nat.twoStepInduction with
  | zero => simp [tilesOf]
  | one => simp [tilesOf]
  | more k ih _ =>
    rw [tilesOf_add_two, List.flatten_cons, ih, lineEnds_succ, lineEnds_succ]
    rfl

lemma flatten_tiles (pipeline : List (Nat × Message)) : (tiles pipeline).flatten = wire pipeline := by
  induction pipeline with
  | nil => rfl
  | cons p pipeline ih =>
    rw [tiles, List.flatMap_cons, List.flatten_append, flatten_tilesOf p.1 p.2, ← tiles, ih]
    rfl

inductive Row : List Bytes → Prop
  | last {tile : Bytes} : tile ≠ [] → CutsAt tile [] → Row [tile]
  | cons {tile : Bytes} {tiles : List Bytes} : tile ≠ [] → CutsAt tile tiles.flatten →
      tiles.flatten ≠ [] → checkSip20 tiles.flatten true = true → Row tiles → Row (tile :: tiles)

lemma Message.bytes_isStart (m : Message) : IsStart m.bytes :=
  IsStart.of_startsWith m.start m.startLine_isPrefix_bytes

lemma Message.length_bytes_ge (m : Message) : 11 ≤ m.bytes.length := by
  have h := m.length_ge
  rw [m.length_bytes]
  exact h

lemma checkSip20_tiles (k : Nat) (m : Message) (pipeline : List (Nat × Message)) :
    (tiles ((k, m) :: pipeline)).flatten ≠ [] ∧
      checkSip20 (tiles ((k, m) :: pipeline)).flatten true = true := by
  have hsplit : (tiles ((k, m) :: pipeline)).flatten =
      lineEnds k ++ (m.bytes ++ wire pipeline) := by
    rw [flatten_tiles, wire, List.flatMap_cons, List.append_assoc]
    rfl
  have hlen : 11 ≤ (m.bytes ++ wire pipeline).length := by
    rw [List.length_append]
    exact m.length_bytes_ge.trans (Nat.le_add_right _ _)
  rw [hsplit]
  refine ⟨?_, ?_⟩
  · intro h
    rw [(List.append_eq_nil_iff.mp h).2] at hlen
    exact absurd hlen (by decide)
  · exact checkSip20_lineEnds (IsStart.of_startsWith m.bytes_isStart (List.prefix_append _ _)) hlen k

lemma row_cons_message {k : Nat} (hk : k < 2) {m : Message} (hbody : m.body.length < 2 ^ 31)
    {pipeline : List (Nat × Message)} (h : pipeline ≠ [] → Row (tiles pipeline)) :
    Row (tiles ((k, m) :: pipeline)) := by
  have htile : lineEnds k ++ m.bytes ≠ [] := by
    intro hnil
    have := m.length_bytes_ge
    rw [(List.append_eq_nil_iff.mp hnil).2] at this
    exact absurd this (by decide)
  have htiles : tiles ((k, m) :: pipeline) = (lineEnds k ++ m.bytes) :: tiles pipeline := by
    rw [tiles, List.flatMap_cons, tilesOf, Nat.div_eq_of_lt hk, Nat.mod_eq_of_lt hk]
    rfl
  rw [htiles]
  cases pipeline with
  | nil => exact .last htile (m.cutsAt hbody hk _)
  | cons p pipeline =>
    have hnext := checkSip20_tiles p.1 p.2 pipeline
    exact .cons htile (m.cutsAt hbody hk _) hnext.1 hnext.2 (h (List.cons_ne_nil _ _))

lemma row_tiles {pipeline : List (Nat × Message)} (hne : pipeline ≠ [])
    (hbody : ∀ p ∈ pipeline, p.2.body.length < 2 ^ 31) : Row (tiles pipeline) := by
  induction pipeline with
  | nil => exact absurd rfl hne
  | cons p pipeline ih =>
    obtain ⟨k, m⟩ := p
    have hm : m.body.length < 2 ^ 31 := hbody (k, m) List.mem_cons_self
    have hrest : pipeline ≠ [] → Row (tiles pipeline) := fun h =>
      ih h (fun p hp => hbody p (List.mem_cons_of_mem _ hp))
    clear ih hbody hne
    -- two line ends are taken off at a time
    induction k using Nat.twoStepInduction with
    | zero => exact row_cons_message (by decide) hm hrest
    | one => exact row_cons_message (by decide) hm hrest
    | more k ih _ =>
      have htiles : tiles ((k + 2, m) :: pipeline) = lineEnds 2 :: tiles ((k, m) :: pipeline) := by
        rw [tiles, List.flatMap_cons, tilesOf_add_two]
        rfl
      have hnext := checkSip20_tiles k m pipeline
      rw [htiles]
      exact .cons (by decide) (cutsAt_lineEnds _) hnext.1 hnext.2 ih

def offsetsFrom (offset : Nat) : List Bytes → List (Nat × Nat)
  | [] => []
  | tile :: tiles => (offset, tile.length) :: offsetsFrom (offset + tile.length) tiles

lemma checkSipLoop_row {row : List Bytes} (h : Row row) (hlen : row.flatten.length < 2 ^ 31)
    (dataLenOrig fuel offset countOk : Nat) (offsets : List (Nat × Nat))
    (hfuel : row.length ≤ fuel) :
    checkSipLoop {} dataLenOrig fuel row.flatten offset countOk offsets =
      ⟨countOk + row.length, offsets ++ offsetsFrom offset row, dataLenOrig⟩ := by
  induction h generalizing fuel offset countOk offsets with
  | @last tile hne hcut =>
    obtain ⟨pos, size, hend, hsize⟩ := hcut
    obtain ⟨fuel, rfl⟩ : ∃ f, fuel = f + 1 := ⟨fuel - 1, by simp at hfuel; omega⟩
    rw [List.flatten_singleton] at hlen ⊢
    rw [List.append_nil] at hend hsize
    have hint : BlockStore.toInt32 tile.length = tile.length := by
      unfold BlockStore.toInt32
      rw [Int.bmod_eq_of_le] <;> omega
    rw [checkSipLoop, if_neg hne, hend]
    dsimp only
    rw [hsize, hint]
    simp [offsetsFrom]
  | @cons tile row hne hcut hrest hsip _ ih =>
    obtain ⟨pos, size, hend, hsize⟩ := hcut
    obtain ⟨fuel, rfl⟩ : ∃ f, fuel = f + 1 := ⟨fuel - 1, by simp at hfuel; omega⟩
    rw [List.flatten_cons] at hlen ⊢
    have hpos : 0 < tile.length := List.length_pos_iff.mpr hne
    have hrestPos : 0 < row.flatten.length := List.length_pos_iff.mpr hrest
    rw [List.length_append] at hlen
    have hint : BlockStore.toInt32 tile.length = tile.length := by
      unfold BlockStore.toInt32
      rw [Int.bmod_eq_of_le] <;> omega
    have hdata : tile ++ row.flatten ≠ [] := by simp [hne]
    have hlonger : ((tile.length : Nat) : Int) ≠ (tile ++ row.flatten).length := by
      rw [List.length_append]
      omega
    have hbetween : (0 : Int) < tile.length ∧ (tile.length : Int) < (tile ++ row.flatten).length := by
      rw [List.length_append]
      omega
    rw [checkSipLoop, if_neg hdata, hend]
    dsimp only
    rw [hsize, hint, if_neg hlonger, if_pos hbetween, Int.toNat_natCast, List.drop_left, hsip]
    simp only [Bool.false_eq_true, false_and, if_false, if_true]
    rw [ih (by omega) fuel _ _ _ (by simp at hfuel; omega), offsetsFrom]
    simp only [List.append_assoc, List.singleton_append, List.length_cons, SipCheck.mk.injEq,
      and_true]
    omega

/-- The offsets lie one behind the other from `a` to `b`. -/
def Tiling : Nat → List (Nat × Nat) → Nat → Prop
  | a, [], b => a = b
  | a, o :: offsets, b => o.1 = a ∧ 0 < o.2 ∧ Tiling (a + o.2) offsets b

def stripLineEnds (tile : Bytes) : Bytes := tile.dropWhile (fun c => c = crChar || c = lfChar)

lemma tiling_offsetsFrom {row : List Bytes} (hne : ∀ t ∈ row, t ≠ []) (offset : Nat) :
    Tiling offset (offsetsFrom offset row) (offset + row.flatten.length) := by
  induction row generalizing offset with
  | nil => exact (Nat.add_zero offset).symm
  | cons t row ih =>
    refine ⟨rfl, List.length_pos_iff.mpr (hne t List.mem_cons_self), ?_⟩
    have h := ih (fun t' h' => hne t' (List.mem_cons_of_mem _ h')) (offset + t.length)
    rw [List.flatten_cons, List.length_append, ← Nat.add_assoc]
    exact h

lemma slice_offsetsFrom (before : Bytes) (row : List Bytes) :
    (offsetsFrom before.length row).map (fun o => slice (before ++ row.flatten) o.1 o.2) = row := by
  induction row generalizing before with
  | nil => rfl
  | cons t row ih =>
    rw [offsetsFrom, List.map_cons]
    have hhead : slice (before ++ (t :: row).flatten) before.length t.length = t := by
      rw [slice, List.drop_left, List.flatten_cons, List.take_left]
    have htail := ih (before ++ t)
    rw [List.length_append, List.append_assoc, ← List.flatten_cons] at htail
    rw [hhead, htail]

lemma Row.ne_nil {row : List Bytes} (h : Row row) : ∀ t ∈ row, t ≠ [] := by
  induction h with
  | last hne _ => simpa using hne
  | cons hne _ _ _ _ ih => exact List.forall_mem_cons.mpr ⟨hne, ih⟩

lemma Row.length_pos {row : List Bytes} (h : Row row) : 0 < row.length := by
  cases h <;> exact Nat.succ_pos _

lemma Row.length_le {row : List Bytes} (h : Row row) : row.length ≤ row.flatten.length := by
  induction h with
  | last hne _ =>
    rw [List.flatten_singleton]
    exact List.length_pos_iff.mpr hne
  | cons hne _ _ _ _ ih =>
    have := List.length_pos_iff.mpr hne
    rw [List.flatten_cons, List.length_append, List.length_cons]
    omega

lemma strip_lineEnds (k : Nat) (data : Bytes) :
    stripLineEnds (lineEnds k ++ data) = stripLineEnds data := by
  induction k with
  | zero => rfl
  | succ k ih =>
    rw [lineEnds_succ]
    exact ih

lemma Message.strip_bytes (m : Message) : stripLineEnds m.bytes = m.bytes := by
  obtain ⟨c, rest, hsplit, hc⟩ := m.bytes_isStart.head
  have hcr : c ≠ crChar := by
    rintro rfl
    exact absurd hc.1 (by decide)
  have hlf : c ≠ lfChar := by
    rintro rfl
    exact absurd hc.1 (by decide)
  rw [hsplit, stripLineEnds, List.dropWhile_cons_of_neg (by simp [hcr, hlf])]

lemma strip_tiles (pipeline : List (Nat × Message)) :
    ((tiles pipeline).map stripLineEnds).filter (fun t => t ≠ []) =
      pipeline.map (fun p => p.2.bytes) := by
  induction pipeline with
  | nil => rfl
  | cons p pipeline ih =>
    obtain ⟨k, m⟩ := p
    have hempty : stripLineEnds (lineEnds 2) = [] := by decide
    have hmsg : m.bytes ≠ [] := by
      intro h
      have := m.length_bytes_ge
      rw [h] at this
      exact absurd this (by decide)
    rw [tiles, List.flatMap_cons, List.map_append, List.filter_append, ← tiles, ih, tilesOf,
      List.map_append, List.filter_append, List.map_replicate, hempty, List.map_singleton,
      strip_lineEnds, m.strip_bytes]
    simp [hmsg]

/-- Messages with line ends before them are cut into the messages: the offsets tile the buffer,
and without the line ends the tiles are the messages and nothing else. -/
theorem checkSipData_pipeline (pipeline : List (Nat × Message)) (hne : pipeline ≠ [])
    (hlen : (wire pipeline).length < 2 ^ 31) :
    (checkSipData (wire pipeline) {}).count ≠ 0 ∧
      (checkSipData (wire pipeline) {}).dataLenUsed = (wire pipeline).length ∧
      Tiling 0 (checkSipData (wire pipeline) {}).offsets (wire pipeline).length ∧
      (((checkSipData (wire pipeline) {}).offsets.map
        (fun o => stripLineEnds (slice (wire pipeline) o.1 o.2))).filter (fun t => t ≠ [])) =
          pipeline.map (fun p => p.2.bytes) := by
  have hbody : ∀ p ∈ pipeline, p.2.body.length < 2 ^ 31 := by
    intro p hp
    have hmem : lineEnds p.1 ++ p.2.bytes ∈
        pipeline.map (fun p => lineEnds p.1 ++ p.2.bytes) := List.mem_map_of_mem hp
    have hle := (List.sublist_flatten_of_mem hmem).length_le
    rw [← List.flatMap_def, ← wire, List.length_append, p.2.length_bytes] at hle
    omega
  have hrow : Row (tiles pipeline) := row_tiles hne hbody
  have hcheck : checkSipData (wire pipeline) {} =
      ⟨0 + (tiles pipeline).length, [] ++ offsetsFrom 0 (tiles pipeline),
        (wire pipeline).length⟩ := by
    have hfuel : (tiles pipeline).length ≤ (tiles pipeline).flatten.length + 1 :=
      hrow.length_le.trans (Nat.le_succ _)
    rw [checkSipData, ← flatten_tiles]
    exact checkSipLoop_row hrow (by rwa [flatten_tiles]) _ _ 0 0 [] hfuel
  have htiling := tiling_offsetsFrom hrow.ne_nil 0
  have hslices := slice_offsetsFrom [] (tiles pipeline)
  rw [flatten_tiles] at htiling hslices
  rw [hcheck, Nat.zero_add, List.nil_append]
  refine ⟨?_, rfl, ?_, ?_⟩
  · exact Nat.pos_iff_ne_zero.mp hrow.length_pos
  · rwa [Nat.zero_add] at htiling
  · have hmap : (offsetsFrom 0 (tiles pipeline)).map
        (fun o => stripLineEnds (slice (wire pipeline) o.1 o.2)) =
          (tiles pipeline).map stripLineEnds := by
      conv_rhs => rw [← hslices]
      rw [List.map_map]
      rfl
    rw [hmap, strip_tiles]

/-- A request with a body and a response with a keep-alive before it. -/
def sampleRequest : Message where
  startLine := ascii "BYE sip:a SIP/2.0"
  fields := [ascii "l: 0", ascii "CONTENT-LENGTH:  3 "]
  body := ascii "abc"
  start := .inl ⟨("BYE", 2), by decide, by decide⟩
  lines := by decide
  length_header := by decide
  announced := ⟨ascii "  ", ascii "3", ascii " ", rfl, by decide +kernel,
    by decide +kernel, by decide +kernel, by decide +kernel, rfl⟩
  length_ge := by decide

def sampleResponse : Message where
  startLine := ascii "SIP/2.0 200 OK"
  fields := []
  body := []
  start := .inr ⟨50, by decide, by decide⟩
  lines := by decide
  length_header := by decide
  announced := rfl
  length_ge := by decide

theorem checkSipData_pipeline_example :
    (checkSipData (wire [(0, sampleRequest), (3, sampleResponse)]) {}).dataLenUsed =
      (wire [(0, sampleRequest), (3, sampleResponse)]).length :=
  (checkSipData_pipeline [(0, sampleRequest), (3, sampleResponse)] (by decide) (by decide)).2.1

end VoipMonitor.Sip
