import VoipMonitor.Library.PrefixOrder
import VoipMonitor.Proofs.ParseDataRounds

/-!
# What `parseData` finds in a message

The first line with a name and a value gives the value of the name, and nothing takes it away. A
line with a content length gives the length of the body. This needs that the tree finds the name:
a shorter name at the begin of it would be found in its place.
-/

namespace VoipMonitor.ParsePacket
open VoipMonitor.Library

/-! ## Names -/

def Registered (p : Dictionary) (name : Bytes) : Prop := p.root.leafAt (lower name) ≠ none

instance (p : Dictionary) (name : Bytes) : Decidable (Registered p name) :=
  inferInstanceAs (Decidable (p.root.leafAt (lower name) ≠ none))

/-- The name is registered, and no registered name is a part of it from its begin. -/
def Finds (p : Dictionary) (name : Bytes) : Prop :=
  Registered p name ∧ ∀ k < name.length, ¬Registered p (name.take k)

instance (p : Dictionary) (name : Bytes) : Decidable (Finds p name) :=
  inferInstanceAs (Decidable (Registered p name ∧ ∀ k < name.length, ¬Registered p (name.take k)))

def BeginsWith (name line : Bytes) : Prop := lower name <+: lower line

instance (name line : Bytes) : Decidable (BeginsWith name line) :=
  inferInstanceAs (Decidable (lower name <+: lower line))

lemma BeginsWith.length_le {name line : Bytes} (h : BeginsWith name line) :
    name.length ≤ line.length := by
  have hle := List.IsPrefix.length_le h
  rwa [length_lower, length_lower] at hle

lemma BeginsWith.lower_take {name line : Bytes} (h : BeginsWith name line) {k : Nat}
    (hk : k ≤ name.length) : lower (line.take k) = lower (name.take k) := by
  obtain ⟨rest, hrest⟩ := h
  have htake : (lower name).take k = (lower line).take k := by
    rw [← hrest, List.take_append_of_le_length (by rwa [length_lower])]
  rw [lower, lower, List.map_take, List.map_take]
  exact htake.symm

section
variable {p : Dictionary} {name line : Bytes}

lemma Finds.getNode_line (h : Finds p name) (hbegins : BeginsWith name line) (hzero : 0 ∉ line) :
    ∃ node, p.root.leafAt (lower name) = some node ∧
      getNode line line.length p = some (node, name.length) := by
  obtain ⟨node, hnode⟩ := Option.ne_none_iff_exists'.mp h.1
  have hle := hbegins.length_le
  have hleaf : p.root.leafAt (lower (line.take name.length)) = some node := by
    rw [hbegins.lower_take le_rfl, List.take_length]
    exact hnode
  have hfirst : ∀ j < name.length, p.root.leafAt (lower (line.take j)) = none := by
    intro j hj
    rw [hbegins.lower_take hj.le]
    exact not_not.mp (h.2 j hj)
  refine ⟨node, hnode, ?_⟩
  rw [getNode, PpNode.getContent_of_leafAt hle (by omega)
    (fun hmem => hzero (List.mem_of_mem_take hmem)) hleaf hfirst, Nat.zero_add]

lemma exists_path_of_getNode {node : Leaf} {namelength : Nat}
    (h : getNode line line.length p = some (node, namelength)) :
    namelength ≤ line.length ∧ p.root.leafAt (lower (line.take namelength)) = some node := by
  obtain ⟨j, hj, hname, hleaf, -⟩ := PpNode.leafAt_of_getContent h
  obtain rfl : namelength = j := by omega
  exact ⟨hj, hleaf⟩

lemma lower_take_isPrefix (line : Bytes) (k : Nat) : lower (line.take k) <+: lower line :=
  (List.take_prefix k line).map _

end

/-! ## Values -/

def values (name : Bytes) (lines : List Bytes) : List Bytes :=
  lines.filterMap (fun l => if BeginsWith name l then some (l.drop name.length) else none)

def firstValue (name : Bytes) (lines : List Bytes) : Option Bytes :=
  (values name lines).find? (fun v => v.any (fun c => c ≠ 32))

lemma trimmed_eq_nil {value : Bytes} : trimmed value = [] ↔ ∀ c ∈ value, c = 32 := by
  have hend : trimmed value = [] ↔ value.rdropWhile (fun c => c = 32) = [] := by
    constructor
    · intro h
      by_contra hne
      have hall := List.dropWhile_eq_nil_iff.mp h
      exact List.rdropWhile_last_not _ _ hne (hall _ (List.getLast_mem hne))
    · intro h
      rw [trimmed, h, List.dropWhile_nil]
  rw [hend, List.rdropWhile_eq_nil_iff]
  simp only [decide_eq_true_eq]

section
variable {p : Dictionary} {data body before line after : Bytes} {lines : List Bytes}
  {contents : PpContents}

lemma LineAt.trims (h : LineAt data before line after) {k : Nat} (hk : k ≤ line.length) :
    PpContentItem.Trims data ⟨before.length + k, line.length - k⟩
        (PpContentItem.trim data ⟨before.length + k, line.length - k⟩) ∧
      slice data (before.length + k) (line.length - k) = line.drop k := by
  have hlength := h.length_eq
  refine ⟨PpContentItem.trims_trim (by dsimp only; omega), ?_⟩
  rw [slice, h.drop_eq hk, List.take_append_of_le_length (by rw [List.length_drop])]
  exact List.take_of_length_le (by rw [List.length_drop])

lemma LineAt.item_value (h : LineAt data before line after) {k : Nat} (hk : k ≤ line.length)
    {item : PpContentItem}
    (hitem : item = PpContentItem.trim data ⟨before.length + k, line.length - k⟩) :
    slice data item.offset item.length = trimmed (line.drop k) ∧
      (item.length = 0 ↔ ∀ c ∈ line.drop k, c = 32) := by
  have hlength := h.length_eq
  obtain ⟨htrims, hslice⟩ := h.trims hk
  rw [← hitem] at htrims
  have hvalue : slice data item.offset item.length = trimmed (line.drop k) := by
    rw [htrims.value, hslice]
  have hstop := htrims.stop_le
  dsimp only at hstop
  refine ⟨hvalue, ?_⟩
  rw [← trimmed_eq_nil, ← hvalue, ← List.length_eq_zero_iff, length_slice (by omega)]

/-! ## The items behind a line -/

lemma readLine_cases (p : Dictionary) (data : Bytes) (start : Nat) (line : Bytes)
    (contents : PpContents) :
    readLine p data start line contents = contents ∨
      ∃ node k, k ≤ line.length ∧ p.root.leafAt (lower (line.take k)) = some node ∧
        contents.isSetNode node = false ∧
        let item := PpContentItem.trim data ⟨start + k, line.length - k⟩
        (∀ node', (readLine p data start line contents).item node' =
          (contents.setItem node item).item node') ∧
        (readLine p data start line contents).contentLength =
          if node.isContentLength ∧ item.length ≠ 0 then atoi (data.drop item.offset)
          else contents.contentLength := by
  unfold readLine
  cases hnode : getNode line line.length p with
  | none => exact .inl rfl
  | some found =>
    obtain ⟨node, k⟩ := found
    obtain ⟨hk, hleaf⟩ := exists_path_of_getNode hnode
    dsimp only
    by_cases hset : contents.isSetNode node = true
    · rw [if_pos hset]
      exact .inl rfl
    · rw [if_neg hset]
      refine .inr ⟨node, k, hk, hleaf, Bool.eq_false_iff.mpr hset, ?_, ?_⟩
      · intro node'
        split
        · rfl
        · rfl
      · split
        · rfl
        · unfold PpContents.setItem
          split <;> rfl

lemma readLine_doubleEndLine (p : Dictionary) (data : Bytes) (start : Nat) (line : Bytes)
    (contents : PpContents) :
    (readLine p data start line contents).doubleEndLine = contents.doubleEndLine := by
  have hset : ∀ node item, (contents.setItem node item).doubleEndLine = contents.doubleEndLine := by
    intro node item
    unfold PpContents.setItem
    split <;> rfl
  unfold readLine
  split
  · split
    · rfl
    · dsimp only
      split
      · exact hset _ _
      · exact hset _ _
  · rfl

lemma readLines_doubleEndLine (p : Dictionary) (data : Bytes) (start : Nat) (lines : List Bytes)
    (contents : PpContents) :
    (readLines p data start lines contents).doubleEndLine = contents.doubleEndLine := by
  induction lines generalizing start contents with
  | nil => rfl
  | cons line lines ih => rw [readLines, ih, readLine_doubleEndLine]

lemma readLine_keeps (p : Dictionary) (data : Bytes) {node : Leaf} (start : Nat) (line : Bytes)
    (hset : (contents.item node).length ≠ 0) :
    (readLine p data start line contents).item node = contents.item node := by
  rcases readLine_cases p data start line contents with
    heq | ⟨node', k, -, -, hunset, hitems, -⟩
  · rw [heq]
  · rw [hitems]
    exact PpContents.item_setItem_of_isSet _ hunset hset

lemma readLines_keeps (p : Dictionary) (data : Bytes) {node : Leaf} (start : Nat) (lines : List Bytes)
    (hset : (contents.item node).length ≠ 0) :
    (readLines p data start lines contents).item node = contents.item node := by
  induction lines generalizing start contents with
  | nil => rfl
  | cons line lines ih =>
    have hkept := readLine_keeps p data start line hset
    rw [readLines, ih _ (by rwa [hkept]), hkept]

lemma readLine_of_not (hleaves : Leaves p.root) {name : Bytes} {node : Leaf}
    (hnode : p.root.leafAt (lower name) = some node) (start : Nat)
    (hnot : ¬BeginsWith name line) :
    (readLine p data start line contents).item node = contents.item node := by
  rcases readLine_cases p data start line contents with
    heq | ⟨node', k, -, hleaf, -, hitems, -⟩
  · rw [heq]
  · rw [hitems]
    refine PpContents.item_setItem_of_ne _ _ ?_
    rintro ⟨htype, hindex⟩
    refine hnot ?_
    have hpath := hleaves.slot _ _ _ _ hnode hleaf htype hindex
    rw [BeginsWith, hpath]
    exact lower_take_isPrefix line k

lemma Finds.readLine_item {name : Bytes} (h : Finds p name) {node : Leaf}
    (hnode : p.root.leafAt (lower name) = some node) (start : Nat)
    (hbegins : BeginsWith name line) (hzero : 0 ∉ line) (hunset : (contents.item node).length = 0) :
    (readLine p data start line contents).item node =
      PpContentItem.trim data ⟨start + name.length, line.length - name.length⟩ := by
  obtain ⟨node', hnode', hget⟩ := h.getNode_line hbegins hzero
  obtain rfl := Option.some.inj (hnode'.symm.trans hnode)
  have hfree : contents.isSetNode node' = false := by
    rw [PpContents.isSetNode, hunset]
    rfl
  unfold readLine
  rw [hget]
  dsimp only
  rw [if_neg (by rw [hfree]; exact Bool.false_ne_true)]
  split
  · exact PpContents.item_setItem_self _ _ _
  · exact PpContents.item_setItem_self _ _ _

def Gives (name line : Bytes) : Prop :=
  BeginsWith name line ∧ ∃ c ∈ line.drop name.length, c ≠ 32

lemma firstValue_cons_of_gives {name : Bytes} (h : Gives name line) (lines : List Bytes) :
    firstValue name (line :: lines) = some (line.drop name.length) := by
  obtain ⟨hbegins, c, hc, hne⟩ := h
  rw [firstValue, values, List.filterMap_cons, if_pos hbegins]
  exact List.find?_cons_of_pos (List.any_eq_true.mpr ⟨c, hc, decide_eq_true hne⟩)

lemma firstValue_cons_of_not {name : Bytes} (h : ¬Gives name line) (lines : List Bytes) :
    firstValue name (line :: lines) = firstValue name lines := by
  rw [firstValue, values, List.filterMap_cons]
  by_cases hbegins : BeginsWith name line
  · have hany : ¬(line.drop name.length).any (fun c => c ≠ 32) = true := by
      intro hany
      obtain ⟨c, hc, hne⟩ := List.any_eq_true.mp hany
      exact h ⟨hbegins, c, hc, of_decide_eq_true hne⟩
    rw [if_pos hbegins]
    exact List.find?_cons_of_neg hany
  · rw [if_neg hbegins]
    rfl

lemma LineAt.item_line (h : LineAt data before line after) (hleaves : Leaves p.root)
    {name : Bytes} (hfinds : Finds p name) {node : Leaf}
    (hnode : p.root.leafAt (lower name) = some node)
    (hunset : (contents.item node).length = 0) {item : PpContentItem}
    (hitem : item = (readLine p data before.length line contents).item node) :
    (Gives name line → item.length ≠ 0 ∧
      slice data item.offset item.length = trimmed (line.drop name.length)) ∧
    (¬Gives name line → item.length = 0) := by
  by_cases hbegins : BeginsWith name line
  · rw [hfinds.readLine_item hnode _ hbegins h.isLine.2.1 hunset] at hitem
    obtain ⟨hvalue, hzero⟩ := h.item_value hbegins.length_le hitem
    constructor
    · rintro ⟨-, c, hc, hne⟩
      exact ⟨fun hlength => hne (hzero.mp hlength c hc), hvalue⟩
    · intro hnot
      refine hzero.mpr (fun c hc => ?_)
      by_contra hne
      exact hnot ⟨hbegins, c, hc, hne⟩
  · rw [readLine_of_not hleaves hnode _ hbegins] at hitem
    refine ⟨fun hgives => absurd hgives.1 hbegins, fun _ => ?_⟩
    rw [hitem]
    exact hunset

lemma HeaderAt.item_value (h : HeaderAt data body before lines) (hleaves : Leaves p.root)
    {name : Bytes} (hfinds : Finds p name) {node : Leaf}
    (hnode : p.root.leafAt (lower name) = some node)
    (hunset : (contents.item node).length = 0) {value : Bytes}
    (hvalue : firstValue name lines = some value) {item : PpContentItem}
    (hitem : item = (readLines p data before.length lines contents).item node) :
    item.length ≠ 0 ∧ slice data item.offset item.length = trimmed value := by
  induction h generalizing contents with
  | @last before line h =>
    obtain ⟨hgives, -⟩ := h.item_line hleaves hfinds hnode hunset hitem
    by_cases hline : Gives name line
    · rw [firstValue_cons_of_gives hline] at hvalue
      rw [← Option.some.inj hvalue]
      exact hgives hline
    · rw [firstValue_cons_of_not hline] at hvalue
      cases hvalue
  | @next before line after lines h _ _ ih =>
    obtain ⟨hgives, hnone⟩ := h.item_line hleaves hfinds hnode hunset rfl
    by_cases hline : Gives name line
    · rw [firstValue_cons_of_gives hline] at hvalue
      obtain ⟨hset, hslice⟩ := hgives hline
      rw [readLines, readLines_keeps p data _ lines hset] at hitem
      rw [← Option.some.inj hvalue, hitem]
      exact ⟨hset, hslice⟩
    · rw [firstValue_cons_of_not hline] at hvalue
      rw [length_next] at ih
      exact ih (hnone hline) hvalue hitem

/-! ## The content length -/

def IsLength (value : Bytes) (n : Nat) : Prop :=
  ∃ blanks digits rest, value = blanks ++ (digits ++ rest) ∧ (∀ c ∈ blanks, isWhite c = true) ∧
    digits ≠ [] ∧ digits.length ≤ 9 ∧ (∀ c ∈ digits, isDigit c = true) ∧
    (∀ c ∈ rest, isWhite c = true) ∧ decimal digits = n

lemma atol_blanks {blanks : Bytes} (hblanks : ∀ c ∈ blanks, isWhite c = true) (b : Bytes) :
    atol (blanks ++ b) = atol b := by
  rw [atol, atol, List.dropWhile_append_of_pos hblanks]

lemma LineAt.readLength_eq (h : LineAt data before line after) {k : Nat} (hk : k ≤ line.length)
    {item : PpContentItem}
    (hitem : item = PpContentItem.trim data ⟨before.length + k, line.length - k⟩) {n : Nat}
    (hlength : IsLength (line.drop k) n) :
    atoi (data.drop item.offset) = n ∧ item.length ≠ 0 := by
  obtain ⟨blanks, digits, rest, hvalue, hblanks, hne, hnine, hdigits, hrest, hn⟩ := hlength
  obtain ⟨-, hzero⟩ := h.item_value hk hitem
  obtain ⟨⟨-, -, spaces, hspaces, hdrop⟩, -⟩ := h.trims hk
  rw [← hitem] at hdrop
  have hlt : decimal digits < 10 ^ 9 :=
    (IsDigits.decimal_lt hdigits).trans_le (Nat.pow_le_pow_right (by decide) hnine)
  have hatol : atol (data.drop item.offset) = n := by
    have hwhite : ∀ c ∈ spaces, isWhite c = true := by
      intro c hc
      rw [hspaces c hc]
      rfl
    rw [← atol_blanks hwhite, ← hdrop, h.drop_eq hk, hvalue, List.append_assoc, List.append_assoc,
      atol_digits hblanks hne hdigits ?_ (by omega), hn]
    intro c hc
    cases rest with
    | nil =>
      rw [← Option.mem_some_iff.mp hc]
      rfl
    | cons d rest =>
      rw [← Option.mem_some_iff.mp hc, Bool.eq_false_iff]
      intro hdigit
      have hwhite' := hrest d List.mem_cons_self
      rw [isWhite_eq_false_of_isDigit hdigit] at hwhite'
      exact Bool.false_ne_true hwhite'
  constructor
  · rw [atoi, hatol]
    exact Int.bmod_eq_of_le_mul_two (by push_cast; omega) (by push_cast; omega)
  · intro hnil
    obtain ⟨d, digits, rfl⟩ := List.exists_cons_of_ne_nil hne
    have hd : d = 32 := by
      refine hzero.mp hnil d ?_
      rw [hvalue]
      simp
    have hdigit := hdigits d List.mem_cons_self
    rw [hd] at hdigit
    exact absurd hdigit (by decide)

def Announces (n : Nat) (line : Bytes) : Prop :=
  ∀ name ∈ contentLengthNames, BeginsWith name line → IsLength (line.drop name.length) n

structure LengthInv (p : Dictionary) (n : Nat) (contents : PpContents) : Prop where
  length : contents.contentLength = -1 ∨ contents.contentLength = n
  set : ∀ path node, p.root.leafAt path = some node → node.isContentLength = true →
    (contents.item node).length ≠ 0 → contents.contentLength = n

lemma LineAt.lengthInv (h : LineAt data before line after) (hleaves : Leaves p.root) {n : Nat}
    (hinv : LengthInv p n contents) (hline : Announces n line) :
    LengthInv p n (readLine p data before.length line contents) ∧
      (contents.contentLength = n →
        (readLine p data before.length line contents).contentLength = n) := by
  rcases readLine_cases p data before.length line contents with
    heq | ⟨node, k, hk, hleaf, hunset, hitems, hlength⟩
  · rw [heq]
    exact ⟨hinv, id⟩
  · by_cases hread : node.isContentLength = true ∧
        (PpContentItem.trim data ⟨before.length + k, line.length - k⟩).length ≠ 0
    · -- the name is one of the content length
      have hname : lower (line.take k) ∈ contentLengthNames :=
        (hleaves.flagged _ _ hleaf).mp hread.1
      have hlower := lower_contentLengthNames _ hname
      have hbegins : BeginsWith (lower (line.take k)) line := by
        rw [BeginsWith, hlower]
        exact lower_take_isPrefix line k
      have hvalue := hline _ hname hbegins
      rw [length_lower, List.length_take_of_le hk] at hvalue
      rw [if_pos hread, (h.readLength_eq hk rfl hvalue).1] at hlength
      exact ⟨⟨.inr hlength, fun _ _ _ _ _ => hlength⟩, fun _ => hlength⟩
    · rw [if_neg hread] at hlength
      refine ⟨⟨?_, ?_⟩, fun hn => hlength.trans hn⟩
      · rw [hlength]
        exact hinv.length
      · intro path node' hleaf' hflag hset
        rw [hlength]
        rw [hitems] at hset
        by_cases hslot : node'.typeNode = node.typeNode ∧ node'.nodeIndex = node.nodeIndex
        · -- the slot was left empty
          obtain rfl := hleaves.slot _ _ _ _ hleaf' hleaf hslot.1 hslot.2
          obtain rfl := Option.some.inj (hleaf'.symm.trans hleaf)
          rw [PpContents.item_setItem_self] at hset
          exact absurd ⟨hflag, hset⟩ hread
        · rw [PpContents.item_setItem_of_ne _ _ hslot] at hset
          exact hinv.set path node' hleaf' hflag hset

lemma LineAt.length_of_finds (h : LineAt data before line after) (hleaves : Leaves p.root) {n : Nat}
    (hinv : LengthInv p n contents) (hline : Announces n line) {name : Bytes}
    (hname : name ∈ contentLengthNames) (hfinds : Finds p name) (hbegins : BeginsWith name line) :
    (readLine p data before.length line contents).contentLength = n := by
  obtain ⟨node, hnode, -⟩ := hfinds.getNode_line hbegins h.isLine.2.1
  have hlower := lower_contentLengthNames name hname
  have hflag : node.isContentLength = true :=
    (hleaves.flagged _ _ hnode).mpr (by rwa [hlower])
  obtain ⟨hkept, hstays⟩ := h.lengthInv hleaves hinv hline
  by_cases hset : (contents.item node).length = 0
  · have hitem : (readLine p data before.length line contents).item node =
        PpContentItem.trim data ⟨before.length + name.length, line.length - name.length⟩ :=
      hfinds.readLine_item hnode before.length hbegins h.isLine.2.1 hset
    have hvalue := hline name hname hbegins
    refine hkept.set _ node hnode hflag ?_
    exact (h.readLength_eq hbegins.length_le hitem hvalue).2
  · exact hstays (hinv.set _ node hnode hflag hset)

lemma HeaderAt.lengthInv (h : HeaderAt data body before lines) (hleaves : Leaves p.root) {n : Nat}
    (hinv : LengthInv p n contents) (hlines : ∀ line ∈ lines, Announces n line) :
    LengthInv p n (readLines p data before.length lines contents) ∧
      (contents.contentLength = n →
        (readLines p data before.length lines contents).contentLength = n) ∧
      ∀ name ∈ contentLengthNames, Finds p name → (∃ line ∈ lines, BeginsWith name line) →
        (readLines p data before.length lines contents).contentLength = n := by
  induction h generalizing contents with
  | @last before line h =>
    have hline := hlines line List.mem_cons_self
    obtain ⟨hkept, hstays⟩ := h.lengthInv hleaves hinv hline
    refine ⟨hkept, hstays, ?_⟩
    rintro name hname hfinds ⟨line', hmem, hbegins⟩
    obtain rfl := List.mem_singleton.mp hmem
    exact h.length_of_finds hleaves hinv hline hname hfinds hbegins
  | @next before line after lines h _ _ ih =>
    have hline := hlines line List.mem_cons_self
    obtain ⟨hkept, hstays⟩ := h.lengthInv hleaves hinv hline
    have hrest := ih hkept (fun l hl => hlines l (List.mem_cons_of_mem _ hl))
    rw [length_next] at hrest
    refine ⟨hrest.1, fun hn => hrest.2.1 (hstays hn), ?_⟩
    rintro name hname hfinds ⟨line', hmem, hbegins⟩
    rcases List.mem_cons.mp hmem with rfl | hmem
    · exact hrest.2.1 (h.length_of_finds hleaves hinv hline hname hfinds hbegins)
    · exact hrest.2.2 name hname hfinds ⟨line', hmem, hbegins⟩

end

end VoipMonitor.ParsePacket
