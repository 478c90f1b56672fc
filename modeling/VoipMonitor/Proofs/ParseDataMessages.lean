import VoipMonitor.Proofs.ParseDataExact

/-!
# Whole messages

A message in front of other bytes is parsed exactly: its length is returned, and each name gives
its first value. A name that has a shorter registered name at its begin is not found, as the tree
ends a search at its first leaf.
-/

namespace VoipMonitor.ParsePacket
open VoipMonitor.Library

/-! ## Messages -/

def IsWord (word : Bytes) : Prop := word ≠ [] ∧ ∀ c ∈ word, c ∉ [0, 9, 10, 13, 32, 58]

instance (word : Bytes) : Decidable (IsWord word) :=
  inferInstanceAs (Decidable (word ≠ [] ∧ ∀ c ∈ word, c ∉ [0, 9, 10, 13, 32, 58]))

def IsText (text : Bytes) : Prop := 0 ∉ text ∧ 10 ∉ text ∧ 13 ∉ text

instance (text : Bytes) : Decidable (IsText text) :=
  inferInstanceAs (Decidable (0 ∉ text ∧ 10 ∉ text ∧ 13 ∉ text))

/-- The start line: a word, a space, and what begins with a URI or a status code. -/
structure StartLine where
  word : Bytes
  rest : Bytes
  isWord : IsWord word
  isText : IsText rest
  head_rest : ∀ c ∈ rest.head?, c ∉ [9, 32, 58]

def StartLine.text (s : StartLine) : Bytes := s.word ++ 32 :: s.rest

structure HeaderLine where
  name : Bytes
  blanks : Bytes
  value : Bytes
  isWord : IsWord name
  isBlank : ∀ c ∈ blanks, c = 9 ∨ c = 32
  isText : IsText value

def HeaderLine.text (h : HeaderLine) : Bytes := h.name ++ (h.blanks ++ 58 :: h.value)

/-- A message. Each of its content lengths is the length of its body, and without one it has no
body. -/
structure Message where
  start : StartLine
  headers : List HeaderLine
  body : Bytes
  announces : ∀ line ∈ headers.map HeaderLine.text, Announces body.length line
  body_eq_nil : (∀ line ∈ headers.map HeaderLine.text,
    ∀ name ∈ contentLengthNames, ¬BeginsWith name line) → body = []

namespace Message

def lines (m : Message) : List Bytes := m.headers.map HeaderLine.text

def header (m : Message) : Bytes := joinLines m.start.text m.lines

def bytes (m : Message) : Bytes := m.header ++ 13 :: 10 :: 13 :: 10 :: m.body

def Has (m : Message) (name : Bytes) : Prop := ∃ line ∈ m.lines, BeginsWith name line

end Message

lemma IsWord.isText {word : Bytes} (h : IsWord word) : IsText word := by
  refine ⟨?_, ?_, ?_⟩ <;> intro hmem <;> exact h.2 _ hmem (by decide)

lemma IsText.append {a b : Bytes} (ha : IsText a) (hb : IsText b) : IsText (a ++ b) := by
  unfold IsText at *
  simp only [List.mem_append, not_or]
  exact ⟨⟨ha.1, hb.1⟩, ⟨ha.2.1, hb.2.1⟩, ⟨ha.2.2, hb.2.2⟩⟩

lemma StartLine.isLine (s : StartLine) : IsLine s.text := by
  have hspace : IsText [32] := by decide
  have htext : IsText s.text := s.isWord.isText.append (hspace.append s.isText)
  exact ⟨by simp [StartLine.text], htext⟩

lemma HeaderLine.isLine (h : HeaderLine) : IsLine h.text := by
  have hblanks : IsText h.blanks := by
    refine ⟨?_, ?_, ?_⟩ <;> intro hmem <;> rcases h.isBlank _ hmem with heq | heq <;> cases heq
  have hcolon : IsText [58] := by decide
  have htext : IsText h.text :=
    h.isWord.isText.append (hblanks.append (hcolon.append h.isText))
  exact ⟨by simp [HeaderLine.text], htext⟩

/-! ## The start line -/

def isWordChar (c : UInt8) : Bool := c ∉ [9, 32, 58]

lemma isWordChar_toLower (c : UInt8) : isWordChar (toLower c) = isWordChar c := by
  have h9 : toLower c = 9 ↔ c = 9 := toLower_eq_of_lt (by decide)
  have h32 : toLower c = 32 ↔ c = 32 := toLower_eq_of_lt (by decide)
  have h58 : toLower c = 58 ↔ c = 58 := toLower_eq_of_lt (by decide)
  simp only [isWordChar, List.mem_cons, List.not_mem_nil, or_false, h9, h32, h58]

lemma takeWhile_lower {word : Bytes} (hword : IsWord word) {c : UInt8}
    (hc : isWordChar c = false) (rest r : Bytes) :
    (lower (word ++ c :: rest) ++ r).takeWhile isWordChar = lower word := by
  rw [lower_append, List.append_assoc]
  refine takeWhile_append_of_all ?_ ?_
  · intro d hd
    obtain ⟨e, he, rfl⟩ := List.mem_map.mp hd
    rw [isWordChar_toLower, isWordChar, decide_eq_true_eq]
    intro hmem
    refine hword.2 e he ?_
    simp only [List.mem_cons, List.not_mem_nil, or_false] at hmem ⊢
    tauto
  · intro d hd
    rw [← Option.mem_some_iff.mp hd, isWordChar_toLower]
    exact hc

lemma exists_blank {blanks : Bytes} (hblanks : ∀ c ∈ blanks, c = 9 ∨ c = 32) :
    ∃ c rest, blanks ++ [58] = c :: rest ∧ c ∈ [9, 32, 58] := by
  cases blanks with
  | nil => exact ⟨58, [], rfl, by decide⟩
  | cons b blanks =>
    refine ⟨b, blanks ++ [58], rfl, ?_⟩
    rcases hblanks b List.mem_cons_self with rfl | rfl
    · decide
    · decide

lemma StartLine.not_begins (s : StartLine) {name blanks : Bytes} (hname : IsWord name)
    (hblanks : ∀ c ∈ blanks, c = 9 ∨ c = 32) : ¬BeginsWith (name ++ (blanks ++ [58])) s.text := by
  rintro ⟨r, hr⟩
  have hends : ∀ c, c ∈ [9, 32, 58] → isWordChar c = false := by
    intro c hc
    rw [isWordChar, decide_eq_false (not_not.mpr hc)]
  obtain ⟨c, rest, hc, hmem⟩ := exists_blank hblanks
  -- both words end at the first blank or colon
  have hword : lower name = lower s.word := by
    have hleft := takeWhile_lower hname (hends c hmem) rest r
    have hright := takeWhile_lower s.isWord (hends 32 (by decide)) s.rest []
    rw [List.append_nil] at hright
    rw [← hc, hr] at hleft
    exact hleft.symm.trans hright
  have hbehind : lower (blanks ++ [58]) ++ r = 32 :: lower s.rest := by
    rw [StartLine.text, lower_append name, lower_append s.word, List.append_assoc, hword] at hr
    exact List.append_cancel_left hr
  cases blanks with
  | nil => exact absurd (List.cons.inj hbehind).1 (by decide)
  | cons b blanks =>
    obtain ⟨d, rest, hd, hdmem⟩ :=
      exists_blank (fun c hc => hblanks c (List.mem_cons_of_mem b hc))
    have htail : lower (blanks ++ [58]) ++ r = lower s.rest := (List.cons.inj hbehind).2
    rw [hd] at htail
    cases hrest : s.rest with
    | nil =>
      rw [hrest] at htail
      cases htail
    | cons e es =>
      rw [hrest] at htail
      have hhead : toLower d = toLower e := (List.cons.inj htail).1
      have hsame : isWordChar e = false := by
        rw [← isWordChar_toLower, ← hhead, isWordChar_toLower]
        exact hends d hdmem
      refine s.head_rest e (by rw [hrest]; rfl) ?_
      rw [isWordChar, decide_eq_false_iff_not, not_not] at hsame
      exact hsame

lemma StartLine.not_begins_of_header (s : StartLine) {h : HeaderLine} {name : Bytes}
    (hcolon : name.getLast? = some 58) (hbegins : BeginsWith name h.text) :
    ¬BeginsWith name s.text := by
  intro hstart
  have hfield : BeginsWith (h.name ++ (h.blanks ++ [58])) h.text := by
    refine List.IsPrefix.map _ ⟨h.value, ?_⟩
    rw [HeaderLine.text, List.append_assoc, List.append_assoc]
    rfl
  rcases List.prefix_or_prefix_of_prefix hfield hbegins with hle | hle
  · exact s.not_begins h.isWord h.isBlank (hle.trans hstart)
  · -- the only colon is the one at the end
    have hmem : 58 ∈ lower name := (mem_lower_of_lt (by decide)).mpr (List.mem_of_getLast? hcolon)
    rw [← List.append_assoc, lower_append] at hle
    rcases List.prefix_concat_iff.mp hle with heq | hpart
    · refine s.not_begins h.isWord h.isBlank ?_
      rw [BeginsWith, ← List.append_assoc, lower_append]
      exact heq ▸ hstart
    · have hin : 58 ∈ h.name ++ h.blanks := (mem_lower_of_lt (by decide)).mp (hpart.subset hmem)
      rcases List.mem_append.mp hin with hin | hin
      · exact h.isWord.2 58 hin (by decide)
      · rcases h.isBlank 58 hin with heq | heq <;> cases heq

lemma StartLine.not_contentLength (s : StartLine) {name : Bytes}
    (hname : name ∈ contentLengthNames) : ¬BeginsWith name s.text := by
  have hword : ∀ n ∈ contentLengthNames, IsWord n.dropLast ∧ n = n.dropLast ++ ([] ++ [58]) := by
    decide +kernel
  obtain ⟨hword, heq⟩ := hword name hname
  rw [heq]
  exact s.not_begins hword (fun c hc => by cases hc)

/-! ## The pass over a message -/

section
variable {p : Dictionary} {m : Message} {tail : Bytes} {fuel : Nat}

def returned (p : Dictionary) (fuel : Nat) (m : Message) (tail : Bytes) : Option Nat :=
  (parseData p fuel (m.bytes ++ tail) .clean).map Prod.fst

def contentData (p : Dictionary) (fuel : Nat) (m : Message) (tail name : Bytes) : Option Bytes :=
  (parseData p fuel (m.bytes ++ tail) .clean).bind (fun r => r.2.getContentData p name)

lemma Message.headerAt (m : Message) {tail : Bytes} (hsize : (m.bytes ++ tail).length < 2 ^ 32) :
    HeaderAt (m.bytes ++ tail) (m.body ++ tail) [] (m.start.text :: m.lines) := by
  refine headerAt_joinLines ?_ ?_ (.inl rfl) hsize
  · simp only [bytes, header, List.append_assoc, List.cons_append, List.nil_append]
  · intro line hline
    rcases List.mem_cons.mp hline with rfl | hline
    · exact m.start.isLine
    · obtain ⟨h, -, rfl⟩ := List.mem_map.mp hline
      exact h.isLine

structure Ends (p : Dictionary) (data body : Bytes) (contents : PpContents)
    (result : Nat × PpContents) : Prop where
  run : ∃ fuel, runLoop (parseRound p data) fuel
    ⟨data.length - (body.length + 4), data.length, data.length, contents⟩ = some result

def startContents (data : Bytes) : PpContents :=
  { PpContents.clean with
    sip := if data.length ≠ 0 then isSipContent data (data.length - 1) else false }

def Message.contents (p : Dictionary) (m : Message) (tail : Bytes) : PpContents :=
  readLines p (m.bytes ++ tail) 0 (m.start.text :: m.lines) (startContents (m.bytes ++ tail))

lemma Leaves.exists_ends (hleaves : Leaves p.root) (hsize : (m.bytes ++ tail).length < 2 ^ 32)
    (hfuel : (m.bytes ++ tail).length < fuel) :
    ∃ result, Ends p (m.bytes ++ tail) (m.body ++ tail) (m.contents p tail) result ∧
      parseData p fuel (m.bytes ++ tail) .clean =
        some (result.1 % 2 ^ 32, { result.2 with parseDataPtr := m.bytes ++ tail }) := by
  have hvisits : Visits (parseRound p (m.bytes ++ tail))
      ⟨0, (m.bytes ++ tail).length, (m.bytes ++ tail).length, startContents (m.bytes ++ tail)⟩
      ⟨(m.bytes ++ tail).length - ((m.body ++ tail).length + 4), (m.bytes ++ tail).length,
        (m.bytes ++ tail).length, m.contents p tail⟩ :=
    (m.headerAt hsize).visits hleaves
  obtain ⟨result, hrun⟩ : ∃ result, runLoop (parseRound p (m.bytes ++ tail)) fuel
      ⟨0, (m.bytes ++ tail).length, (m.bytes ++ tail).length, startContents (m.bytes ++ tail)⟩ =
        some result :=
    hleaves.exists_result _ hfuel
  refine ⟨result, ⟨exists_runLoop_of_visits hvisits hrun⟩, ?_⟩
  have hparse : parseData p fuel (m.bytes ++ tail) .clean =
      (runLoop (parseRound p (m.bytes ++ tail)) fuel
        ⟨0, (m.bytes ++ tail).length, (m.bytes ++ tail).length,
          startContents (m.bytes ++ tail)⟩).map
        (fun r => (r.1 % 2 ^ 32, { r.2 with parseDataPtr := m.bytes ++ tail })) := rfl
  rw [hparse, hrun]
  rfl

lemma Ends.length_eq {result : Nat × PpContents} {data body : Bytes} {contents : PpContents}
    (h : Ends p data body contents result) (hleaves : Leaves p.root) {lines : List Bytes}
    (hheader : HeaderAt data body [] lines) (hnone : contents.doubleEndLine = none) {n : Nat}
    (hn : n ≤ body.length)
    (hlength : contents.contentLength = -1 ∧ n = 0 ∨ contents.contentLength = n) :
    result.1 = data.length - body.length + n := by
  obtain ⟨fuel, hrun⟩ := h.run
  have hround : parseRound p data
      ⟨data.length - (body.length + 4), data.length, data.length, contents⟩ =
        endHeader data ⟨data.length - (body.length + 4), data.length, data.length, contents⟩ :=
    hheader.parseRound_stop hnone
  have hbyte := hheader.byteAt_stop
  obtain ⟨before, line, hlast, hstop⟩ := hheader.exists_last
  have hsize := hlast.length_eq
  rw [List.length_cons, List.length_cons] at hsize
  unfold endHeader at hround
  dsimp only at hround
  rw [hbyte, if_pos rfl] at hround
  cases fuel with
  | zero => cases hrun
  | succ fuel =>
    rcases hlength with ⟨hminus, rfl⟩ | heq
    · rw [if_neg (by omega)] at hround
      rw [runLoop_done hround] at hrun
      obtain rfl := Option.some.inj hrun
      omega
    · rw [if_pos (by omega)] at hround
      by_cases hcut : data.length - (body.length + 4) + 4 + contents.contentLength.toNat < data.length
      · rw [if_pos hcut] at hround
        rw [runLoop_next hround] at hrun
        rw [hleaves.length_result (Option.some_ne_none _) hrun]
        dsimp only
        omega
      · rw [if_neg hcut] at hround
        rw [runLoop_next hround] at hrun
        rw [hleaves.length_result (Option.some_ne_none _) hrun]
        dsimp only
        omega

lemma Ends.item_eq {result : Nat × PpContents} {data body : Bytes} {contents : PpContents}
    (h : Ends p data body contents result) (hleaves : Leaves p.root) {node : Leaf}
    (hset : (contents.item node).length ≠ 0) : result.2.item node = contents.item node := by
  obtain ⟨fuel, hrun⟩ := h.run
  exact hleaves.item_result hset hrun

lemma item_startContents (data : Bytes) (node : Leaf) :
    ((startContents data).item node).length = 0 := by
  unfold PpContents.item
  split <;> rfl

lemma Message.contentLength_contents (m : Message) (hleaves : Leaves p.root)
    (hsize : (m.bytes ++ tail).length < 2 ^ 32)
    (hfinds : ∀ name ∈ contentLengthNames, m.Has name → Finds p name) :
    (m.contents p tail).contentLength = -1 ∧ m.body.length = 0 ∨
      (m.contents p tail).contentLength = m.body.length := by
  have hinv : LengthInv p m.body.length (startContents (m.bytes ++ tail)) := by
    refine ⟨.inl rfl, fun _ node _ _ hset => ?_⟩
    exact absurd (item_startContents _ node) hset
  have hlines : ∀ line ∈ m.start.text :: m.lines, Announces m.body.length line := by
    intro line hline
    rcases List.mem_cons.mp hline with rfl | hline
    · exact fun name hname hbegins => absurd hbegins (m.start.not_contentLength hname)
    · exact m.announces line hline
  obtain ⟨⟨hlength, -⟩, -, hfound⟩ := (m.headerAt hsize).lengthInv hleaves hinv hlines
  by_cases hhas : ∃ name ∈ contentLengthNames, m.Has name
  · obtain ⟨name, hname, line, hline, hbegins⟩ := hhas
    refine .inr (hfound name hname (hfinds name hname ⟨line, hline, hbegins⟩) ⟨line, ?_, hbegins⟩)
    exact List.mem_cons_of_mem _ hline
  · have hbody : m.body = [] := by
      refine m.body_eq_nil (fun line hline name hname hbegins => ?_)
      exact hhas ⟨name, hname, line, hline, hbegins⟩
    rcases hlength with hminus | heq
    · exact .inl ⟨hminus, by rw [hbody]; rfl⟩
    · exact .inr heq

lemma exists_begins_of_firstValue {name value : Bytes} {lines : List Bytes}
    (h : firstValue name lines = some value) : ∃ line ∈ lines, BeginsWith name line := by
  have hmem := List.mem_of_find?_eq_some h
  obtain ⟨line, hline, hif⟩ := List.mem_filterMap.mp hmem
  refine ⟨line, hline, ?_⟩
  by_contra hnot
  rw [if_neg hnot] at hif
  cases hif

lemma getContentData_eq {contents : PpContents} {name : Bytes} (hfinds : Finds p name)
    (hname : 0 ∉ name ∧ 10 ∉ name) {node : Leaf} (hnode : p.root.leafAt (lower name) = some node)
    (hset : (contents.item node).length ≠ 0) :
    contents.getContentData p name =
      some (slice contents.parseDataPtr (contents.item node).offset (contents.item node).length) := by
  have hdrop : name.dropWhile (fun c => c = 10) = name := by
    cases name with
    | nil => rfl
    | cons c name =>
      refine List.dropWhile_cons_of_neg ?_
      intro heq
      exact hname.2 (of_decide_eq_true heq ▸ List.mem_cons_self)
  obtain ⟨node', hnode', hget⟩ := hfinds.getNode_line (List.prefix_refl _) hname.1
  obtain rfl := Option.some.inj (hnode'.symm.trans hnode)
  rw [PpContents.getContentData]
  rw [hdrop, hget]
  exact if_pos hset

/-- `parseData` returns the length of the message when the tree finds the names of its content
lengths. It gives the first value of each name with a colon at its end that the tree finds. -/
theorem parseData_exact (loads : List Load) (m : Message) (tail : Bytes) (fuel : Nat)
    (hsize : (m.bytes ++ tail).length < 2 ^ 32) (hfuel : (m.bytes ++ tail).length < fuel) :
    ((∀ name ∈ contentLengthNames, m.Has name → Finds (dictionary loads) name) →
      returned (dictionary loads) fuel m tail = some m.bytes.length) ∧
    ∀ name value, name.getLast? = some 58 → Finds (dictionary loads) name →
      firstValue name m.lines = some value →
        contentData (dictionary loads) fuel m tail name = some (trimmed value) := by
  have hleaves := leaves_dictionary loads
  have hheader := m.headerAt hsize
  obtain ⟨result, hends, hparse⟩ := hleaves.exists_ends hsize hfuel
  have hnone : (m.contents (dictionary loads) tail).doubleEndLine = none :=
    readLines_doubleEndLine _ _ _ _ _
  constructor
  · intro hfinds
    have hlength := m.contentLength_contents hleaves hsize hfinds
    have hbody : m.body.length ≤ (m.body ++ tail).length := by
      rw [List.length_append]
      exact Nat.le_add_right _ _
    have hresult := hends.length_eq hleaves hheader hnone hbody hlength
    have hmessage : result.1 = m.bytes.length := by
      rw [hresult, List.length_append, List.length_append, Message.bytes, List.length_append]
      simp only [List.length_cons]
      omega
    rw [List.length_append] at hsize
    rw [returned, hparse, Option.map_some, hmessage, Nat.mod_eq_of_lt (by omega)]
  · intro name value hcolon hfinds hvalue
    obtain ⟨line, hline, hbegins⟩ := exists_begins_of_firstValue hvalue
    obtain ⟨h, -, rfl⟩ := List.mem_map.mp hline
    have hstart : ¬Gives name m.start.text :=
      fun hgives => m.start.not_begins_of_header hcolon hbegins hgives.1
    rw [← firstValue_cons_of_not hstart] at hvalue
    obtain ⟨node, hnode⟩ := Option.ne_none_iff_exists'.mp hfinds.1
    obtain ⟨hset, hslice⟩ := hheader.item_value hleaves hfinds hnode
      (item_startContents _ node) hvalue rfl
    have hkept := hends.item_eq hleaves hset
    have hname : 0 ∉ name ∧ 10 ∉ name := by
      refine ⟨fun hmem => h.isLine.2.1 ?_, fun hmem => h.isLine.2.2.1 ?_⟩
      · exact (mem_lower_of_lt (by decide)).mp
          (hbegins.subset ((mem_lower_of_lt (by decide)).mpr hmem))
      · exact (mem_lower_of_lt (by decide)).mp
          (hbegins.subset ((mem_lower_of_lt (by decide)).mpr hmem))
    have hitem : PpContents.item { result.2 with parseDataPtr := m.bytes ++ tail } node =
        (m.contents (dictionary loads) tail).item node := hkept
    rw [contentData, hparse, Option.bind_some,
      getContentData_eq hfinds hname hnode (by rw [hitem]; exact hset), hitem]
    exact congrArg some hslice

end

/-! ## One message -/

def plainLoad : Load :=
  { options := plainOptions, customHeaders := [], headerFilter := [], isName := by decide +kernel }

def shadowLoad : Load :=
  { options := plainOptions, customHeaders := [ascii "Content"], headerFilter := []
    isName := by decide +kernel }

def fromLine : HeaderLine :=
  { name := ascii "From", blanks := [], value := ascii " <sip:b>"
    isWord := by decide +kernel, isBlank := by decide +kernel, isText := by decide +kernel }

def lengthLine : HeaderLine :=
  { name := ascii "Content-Length", blanks := [], value := ascii " 2"
    isWord := by decide +kernel, isBlank := by decide +kernel, isText := by decide +kernel }

lemma announces_lines : ∀ line ∈ [fromLine, lengthLine].map HeaderLine.text, Announces 2 line := by
  intro line hline name hname hbegins
  have hcases : ∀ l ∈ [fromLine, lengthLine].map HeaderLine.text, ∀ n ∈ contentLengthNames,
      BeginsWith n l → l.drop n.length = ascii " 2" := by decide +kernel
  rw [hcases line hline name hname hbegins]
  exact ⟨[32], ascii "2", [], rfl, by decide +kernel, by decide +kernel, by decide +kernel,
    by decide +kernel, by decide +kernel, rfl⟩

def invite : Message :=
  { start :=
      { word := ascii "INVITE", rest := ascii "sip:a SIP/2.0"
        isWord := by decide +kernel, isText := by decide +kernel, head_rest := by decide +kernel }
    headers := [fromLine, lengthLine]
    body := ascii "hi"
    announces := announces_lines
    body_eq_nil := by decide +kernel }

theorem parseData_invite :
    returned (dictionary [plainLoad]) 100 invite (ascii "SIP") = some invite.bytes.length ∧
      contentData (dictionary [plainLoad]) 100 invite (ascii "SIP") (ascii "from:") =
        some (ascii "<sip:b>") := by
  have hfinds : ∀ name ∈ ascii "from:" :: contentLengthNames,
      Finds (dictionary [plainLoad]) name := by decide +kernel
  obtain ⟨hlength, hvalue⟩ := parseData_exact [plainLoad] invite (ascii "SIP") 100
    (by decide +kernel) (by decide +kernel)
  refine ⟨hlength (fun name hname _ => hfinds name (List.mem_cons_of_mem _ hname)), ?_⟩
  exact hvalue (ascii "from:") (ascii " <sip:b>") (by decide) (hfinds _ List.mem_cons_self)
    (by decide +kernel)

/-- With the custom header `Content` the content length is not found, though it is registered. -/
theorem not_parseData_shadowed :
    ¬(∀ (loads : List Load) (m : Message) (tail : Bytes) (fuel : Nat),
      (m.bytes ++ tail).length < 2 ^ 32 → (m.bytes ++ tail).length < fuel →
      (∀ name ∈ contentLengthNames, Registered (dictionary loads) name) →
      returned (dictionary loads) fuel m tail = some m.bytes.length) ∧
    ¬(∀ (loads : List Load) (m : Message) (tail : Bytes) (fuel : Nat) (name value : Bytes),
      (m.bytes ++ tail).length < 2 ^ 32 → (m.bytes ++ tail).length < fuel →
      name.getLast? = some 58 → Registered (dictionary loads) name →
      firstValue name m.lines = some value →
      contentData (dictionary loads) fuel m tail name = some (trimmed value)) := by
  have hregistered : ∀ name ∈ contentLengthNames, Registered (dictionary [shadowLoad]) name := by
    decide +kernel
  constructor
  · intro h
    have hlength := h [shadowLoad] invite (ascii "SIP") 100 (by decide +kernel) (by decide +kernel)
      hregistered
    exact absurd hlength (by decide +kernel)
  · intro h
    have hvalue := h [shadowLoad] invite (ascii "SIP") 100 (ascii "content-length:") (ascii " 2")
      (by decide +kernel) (by decide +kernel) (by decide) (hregistered _ List.mem_cons_self)
      (by decide +kernel)
    exact absurd hvalue (by decide +kernel)

end VoipMonitor.ParsePacket
