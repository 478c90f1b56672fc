import VoipMonitor.Library.Json
import VoipMonitor.Model.JsonExport

/-!
# The exported text

A tree has a meaning as a JSON value (`Means`). Its text is JSON with that meaning exactly when no
string has a control character for which there is no escape, the items of arrays have no names
and the containers in objects have one (`Clean`).
-/

namespace VoipMonitor.JsonExport
open VoipMonitor.Library VoipMonitor.Library.Json

/-! ## The meaning of a tree -/

def Item.name : Item → Bytes
  | .add _ name _ => name
  | .addNull name => name
  | .addInt name _ => name
  | .addArray name _ => name
  | .addObject name _ => name

mutual

def Item.Means : Item → Value → Prop
  | .add typeItem _ content, v =>
    (typeItem = .string ∧ v = .string content) ∨
      (typeItem = .number ∧ ∃ q, NumberText content q ∧ v = .number q) ∨
      (typeItem = .null ∧ v = .null)
  | .addNull _, v => v = .null
  | .addInt _ content, v => v = .number content
  | .addArray _ items, v => ∃ vs, ElementsMean items vs ∧ v = .array vs
  | .addObject _ items, v => ∃ ms, MembersMean items ms ∧ v = .object ms

def ElementsMean : List Item → List Value → Prop
  | [], vs => vs = []
  | item :: items, vs =>
    item.name = [] ∧ ∃ v vs', item.Means v ∧ ElementsMean items vs' ∧ vs = v :: vs'

def MembersMean : List Item → List (Bytes × Value) → Prop
  | [], ms => ms = []
  | item :: items, ms =>
    ∃ v ms', item.Means v ∧ MembersMean items ms' ∧ ms = (item.name, v) :: ms'

end

def root (isArray : Bool) (items : List Item) : Item :=
  if isArray then .addArray [] items else .addObject [] items

/-- The text is the JSON of a value that the items mean. -/
def Exported (isArray : Bool) (items : List Item) : Prop :=
  ∃ v, (root isArray items).Means v ∧ IsJson v (rootJson isArray items)

structure NameOk (name : Bytes) : Prop where
  utf8 : ValidUtf8 name
  plain : ∀ c ∈ name, 32 ≤ c.toNat ∧ c ≠ 34 ∧ c ≠ 92

structure ContentOk (content : Bytes) : Prop where
  utf8 : ValidUtf8 content
  zero : 0 ∉ content

mutual

def Item.Ok : Item → Prop
  | .add _ name content => NameOk name ∧ ContentOk content
  | .addNull name => NameOk name
  | .addInt name _ => NameOk name
  | .addArray name items => NameOk name ∧ AllOk items
  | .addObject name items => NameOk name ∧ AllOk items

def AllOk : List Item → Prop
  | [] => True
  | item :: items => item.Ok ∧ AllOk items

end

def CleanByte (c : UInt8) : Prop := 32 ≤ c.toNat ∨ c = 8 ∨ c = 9 ∨ c = 10 ∨ c = 12 ∨ c = 13

mutual

def Item.Clean (parent : TypeItem) : Item → Prop
  | .add typeItem name content => (parent = .array → name = []) ∧
    ((typeItem = .string ∧ ∀ c ∈ content, CleanByte c) ∨
      (typeItem = .number ∧ ∃ q, NumberText content q) ∨ typeItem = .null)
  | .addNull name => parent = .array → name = []
  | .addInt name _ => parent = .array → name = []
  | .addArray name items => (parent = .array ↔ name = []) ∧ CleanAll .array items
  | .addObject name items => (parent = .array ↔ name = []) ∧ CleanAll .object items

def CleanAll (parent : TypeItem) : List Item → Prop
  | [] => True
  | item :: items => item.Clean parent ∧ CleanAll parent items

end

/-! ## Escaping -/

lemma escapeChar_of_le {c : UInt8} (h : 128 ≤ c.toNat) : escapeChar c = [c] := by
  have hne : ∀ d : UInt8, d.toNat < 128 → c ≠ d := by
    rintro d hd rfl
    omega
  rw [escapeChar, if_neg (hne _ (by decide)), if_neg (hne _ (by decide)), if_neg (hne _ (by decide)),
    if_neg (hne _ (by decide)), if_neg (hne _ (by decide)), if_neg (hne _ (by decide)),
    if_neg (hne _ (by decide)), if_neg (hne _ (by decide))]

lemma escapeChar_cases (c : UInt8) :
    (escapeChar c = [c] ∧ c ≠ 34 ∧ c ≠ 92 ∧ c ≠ 8 ∧ c ≠ 9 ∧ c ≠ 10 ∧ c ≠ 12 ∧ c ≠ 13) ∨
      ∃ d, escapeChar c = [92, d] ∧ unescape d = some c ∧ d.toNat < 128 := by
  unfold escapeChar
  by_cases h₁ : c = 92
  · rw [if_pos h₁, h₁]
    exact Or.inr ⟨92, rfl, rfl, by decide⟩
  rw [if_neg h₁]
  by_cases h₂ : c = 34
  · rw [if_pos h₂, h₂]
    exact Or.inr ⟨34, rfl, rfl, by decide⟩
  rw [if_neg h₂]
  by_cases h₃ : c = 47
  · rw [if_pos h₃, h₃]
    exact Or.inr ⟨47, rfl, rfl, by decide⟩
  rw [if_neg h₃]
  by_cases h₄ : c = 8
  · rw [if_pos h₄, h₄]
    exact Or.inr ⟨98, rfl, rfl, by decide⟩
  rw [if_neg h₄]
  by_cases h₅ : c = 12
  · rw [if_pos h₅, h₅]
    exact Or.inr ⟨102, rfl, rfl, by decide⟩
  rw [if_neg h₅]
  by_cases h₆ : c = 10
  · rw [if_pos h₆, h₆]
    exact Or.inr ⟨110, rfl, rfl, by decide⟩
  rw [if_neg h₆]
  by_cases h₇ : c = 13
  · rw [if_pos h₇, h₇]
    exact Or.inr ⟨114, rfl, rfl, by decide⟩
  rw [if_neg h₇]
  by_cases h₈ : c = 9
  · rw [if_pos h₈, h₈]
    exact Or.inr ⟨116, rfl, rfl, by decide⟩
  rw [if_neg h₈]
  exact Or.inl ⟨rfl, h₂, h₁, h₄, h₈, h₆, h₅, h₇⟩

lemma jsonStringEscape_eq {content : Bytes} (h : ContentOk content) :
    jsonStringEscape content = content.flatMap escapeChar := by
  rw [jsonStringEscape, cString_eq h.zero]

lemma validUtf8_escape {content : Bytes} (h : ValidUtf8 content) :
    ValidUtf8 (content.flatMap escapeChar) := by
  obtain ⟨cs, rfl⟩ := h
  induction cs with
  | nil => exact ⟨[], rfl⟩
  | cons c cs ih =>
    rw [List.flatMap_cons, List.flatMap_append]
    refine ValidUtf8.append ?_ ih
    rcases utf8EncodeChar_cases c with ⟨b, hb, hlt⟩ | hall
    · rw [hb, List.flatMap_singleton]
      rcases escapeChar_cases b with ⟨heq, -⟩ | ⟨d, heq, -, hd⟩
      · rw [heq]
        exact validUtf8_of_ascii fun x hx => by rwa [List.mem_singleton.mp hx]
      · rw [heq]
        refine validUtf8_of_ascii fun x hx => ?_
        simp only [List.mem_cons, List.not_mem_nil, or_false] at hx
        rcases hx with rfl | rfl
        · decide
        · exact hd
    · have hid : (String.utf8EncodeChar c).flatMap escapeChar = String.utf8EncodeChar c := by
        rw [List.flatMap_congr (fun b hb => escapeChar_of_le (hall b hb)), List.flatMap_singleton']
      rw [hid]
      exact ⟨[c], (List.flatMap_singleton _ _).symm⟩

lemma chars_escape {content : Bytes} (h : ∀ c ∈ content, CleanByte c) :
    Chars content (content.flatMap escapeChar) := by
  induction content with
  | nil => exact .nil
  | cons c content ih =>
    have hrest := ih fun d hd => h d (List.mem_cons_of_mem _ hd)
    rw [List.flatMap_cons]
    rcases escapeChar_cases c with ⟨heq, hquote, hback, h8, h9, h10, h12, h13⟩ | ⟨d, heq, hd, -⟩
    · rw [heq]
      refine .unescaped ?_ hquote hback hrest
      rcases h c List.mem_cons_self with hc | rfl | rfl | rfl | rfl | rfl
      · exact hc
      all_goals contradiction
    · rw [heq]
      exact .escaped hd hrest

lemma escape_number {content : Bytes} {q : ℚ} (h : NumberText content q) :
    content.flatMap escapeChar = content := by
  have hchar : ∀ c ∈ content, escapeChar c = [c] := by
    intro c hc
    have hbounds := (h.numberByte c hc).bounds
    have hne : ∀ d : UInt8, d.toNat < 43 → c ≠ d := by
      rintro d hd rfl
      omega
    rw [escapeChar, if_neg hbounds.2.2.2.1, if_neg (hne _ (by decide)), if_neg hbounds.2.2.2.2,
      if_neg (hne _ (by decide)), if_neg (hne _ (by decide)), if_neg (hne _ (by decide)),
      if_neg (hne _ (by decide)), if_neg (hne _ (by decide))]
  rw [List.flatMap_congr hchar, List.flatMap_singleton']

lemma numberText_intText (content : Int) : NumberText (intText content) (content : ℚ) := by
  unfold intText
  split
  · rename_i hneg
    have hvalue : ((if ([45] : Bytes) = [] then 1 else -1) * (content.natAbs : ℚ)) = (content : ℚ) := by
      have habs : (content.natAbs : ℤ) = -content := by omega
      rw [if_neg (List.cons_ne_nil _ _), ← Int.cast_natCast, habs]
      push_cast
      ring
    rw [← hvalue]
    exact numberText_int (Or.inr rfl) rfl
  · rename_i hpos
    have hvalue : ((if ([] : Bytes) = [] then 1 else -1) * (content.natAbs : ℚ)) = (content : ℚ) := by
      have habs : (content.natAbs : ℤ) = content := by omega
      rw [if_pos rfl, one_mul, ← Int.cast_natCast, habs]
    rw [← hvalue]
    exact numberText_int (Or.inl rfl) rfl

/-! ## The text of a clean tree -/

lemma NameOk.chars {name : Bytes} (h : NameOk name) : Chars name name := by
  obtain ⟨-, hplain⟩ := h
  induction name with
  | nil => exact .nil
  | cons c name ih =>
    obtain ⟨hc, hquote, hback⟩ := hplain c List.mem_cons_self
    exact .unescaped hc hquote hback (ih fun d hd => hplain d (List.mem_cons_of_mem _ hd))

def front (parent : TypeItem) (name : Bytes) : Bytes := if parent = .array then [] else nameText name

lemma templateJson_eq {parent : TypeItem} (typeItem : TypeItem) {name : Bytes} (content : Bytes)
    (h : parent = .array → name = []) :
    templateJson parent typeItem name content = front parent name ++
      if typeItem = .null then [110, 117, 108, 108]
      else if typeItem = .string then 34 :: (content ++ [34])
      else content := by
  unfold templateJson front
  by_cases hp : parent = .array
  · rw [if_neg (by simp [hp, h hp]), if_pos hp]
  · rw [if_pos (Or.inl hp), if_neg hp]

lemma containerJson_array {parent : TypeItem} {name : Bytes} (body : Bytes)
    (h : parent = .array ↔ name = []) :
    containerJson .array name body = front parent name ++ 91 :: (body ++ [93]) := by
  unfold containerJson front
  by_cases hp : parent = .array
  · rw [if_neg (not_not.mpr (h.mp hp)), if_pos hp]
    rfl
  · rw [if_pos fun hn => hp (h.mpr hn), if_neg hp]
    rfl

lemma containerJson_object {parent : TypeItem} {name : Bytes} (body : Bytes)
    (h : parent = .array ↔ name = []) :
    containerJson .object name body = front parent name ++ 123 :: (body ++ [125]) := by
  unfold containerJson front
  by_cases hp : parent = .array
  · rw [if_neg (not_not.mpr (h.mp hp)), if_pos hp]
    rfl
  · rw [if_pos fun hn => hp (h.mpr hn), if_neg hp]
    rfl

lemma itemsJson_false (typeItem : TypeItem) (item : Item) (items : List Item) :
    itemsJson typeItem false (item :: items) = 44 :: itemsJson typeItem true (item :: items) := rfl

lemma ws_nil : Ws [] := by
  intro c hc
  cases hc

lemma member_intro {name t : Bytes} {v : Value} (hname : NameOk name) (h : Denotes v t) :
    Member (name, v) (front .object name ++ t) := by
  have hmember : Member (name, v) _ := .intro ws_nil ws_nil ws_nil ws_nil hname.chars h
  simpa [front, nameText] using hmember

lemma Item.Ok.nameOk {item : Item} (h : item.Ok) : NameOk item.name := by
  cases item with
  | add typeItem name content => exact h.1
  | addNull name => exact h
  | addInt name content => exact h
  | addArray name items => exact h.1
  | addObject name items => exact h.1

lemma Item.Clean.name_eq {item : Item} (h : item.Clean .array) : item.name = [] := by
  cases item with
  | add typeItem name content => exact h.1 rfl
  | addNull name => exact h rfl
  | addInt name content => exact h rfl
  | addArray name items => exact h.1.mp rfl
  | addObject name items => exact h.1.mp rfl

mutual

lemma Item.Clean.text : ∀ (item : Item) (parent : TypeItem), item.Ok → item.Clean parent →
    ∃ v t, item.Means v ∧ Denotes v t ∧ item.getJson parent = front parent item.name ++ t
  | .add typeItem name content, parent, hok, ⟨hname, hclean⟩ => by
    rw [Item.getJson, jsonStringEscape_eq hok.2, templateJson_eq typeItem _ hname]
    rcases hclean with ⟨rfl, hchars⟩ | ⟨rfl, q, hq⟩ | rfl
    · exact ⟨_, _, Or.inl ⟨rfl, rfl⟩, .string (chars_escape hchars), rfl⟩
    · rw [escape_number hq]
      exact ⟨_, _, Or.inr (Or.inl ⟨rfl, q, hq, rfl⟩), .number hq, rfl⟩
    · exact ⟨_, _, Or.inr (Or.inr ⟨rfl, rfl⟩), .null, rfl⟩
  | .addNull name, parent, _, hclean => by
    rw [Item.getJson, templateJson_eq .null _ hclean]
    exact ⟨_, _, rfl, .null, rfl⟩
  | .addInt name content, parent, _, hclean => by
    rw [Item.getJson, templateJson_eq .number _ hclean]
    exact ⟨_, _, rfl, .number (numberText_intText content), rfl⟩
  | .addArray name items, parent, hok, ⟨hname, hclean⟩ => by
    rw [Item.getJson, containerJson_array _ hname]
    rcases CleanAll.elements items hok.2 hclean with rfl | ⟨vs, hmeans, helements⟩
    · exact ⟨_, _, ⟨[], rfl, rfl⟩, .emptyArray ws_nil, rfl⟩
    · exact ⟨_, _, ⟨vs, hmeans, rfl⟩, .array helements, rfl⟩
  | .addObject name items, parent, hok, ⟨hname, hclean⟩ => by
    rw [Item.getJson, containerJson_object _ hname]
    rcases CleanAll.members items hok.2 hclean with rfl | ⟨ms, hmeans, hmembers⟩
    · exact ⟨_, _, ⟨[], rfl, rfl⟩, .emptyObject ws_nil, rfl⟩
    · exact ⟨_, _, ⟨ms, hmeans, rfl⟩, .object hmembers, rfl⟩

lemma CleanAll.elements : ∀ items : List Item, AllOk items → CleanAll .array items →
    items = [] ∨ ∃ vs, ElementsMean items vs ∧ Elements vs (itemsJson .array true items)
  | [], _, _ => Or.inl rfl
  | item :: items, hok, hclean => by
    obtain ⟨v, t, hmeans, hdenotes, htext⟩ := Item.Clean.text item .array hok.1 hclean.1
    right
    rcases CleanAll.elements items hok.2 hclean.2 with rfl | ⟨vs, hmeans', helements⟩
    · refine ⟨[v], ⟨hclean.1.name_eq, v, [], hmeans, rfl, rfl⟩, ?_⟩
      rw [itemsJson, htext, itemsJson]
      exact .last ws_nil ws_nil hdenotes
    · refine ⟨v :: vs, ⟨hclean.1.name_eq, v, vs, hmeans, hmeans', rfl⟩, ?_⟩
      cases items with
      | nil =>
        obtain rfl := hmeans'
        cases helements
      | cons next items =>
        rw [itemsJson, htext, itemsJson_false]
        exact .cons ws_nil ws_nil hdenotes helements

lemma CleanAll.members : ∀ items : List Item, AllOk items → CleanAll .object items →
    items = [] ∨ ∃ ms, MembersMean items ms ∧ Members ms (itemsJson .object true items)
  | [], _, _ => Or.inl rfl
  | item :: items, hok, hclean => by
    obtain ⟨v, t, hmeans, hdenotes, htext⟩ := Item.Clean.text item .object hok.1 hclean.1
    right
    rcases CleanAll.members items hok.2 hclean.2 with rfl | ⟨ms, hmeans', hmembers⟩
    · refine ⟨[(item.name, v)], ⟨v, [], hmeans, rfl, rfl⟩, ?_⟩
      rw [itemsJson, htext, itemsJson, List.append_nil]
      exact .last (member_intro hok.1.nameOk hdenotes)
    · refine ⟨(item.name, v) :: ms, ⟨v, ms, hmeans, hmeans', rfl⟩, ?_⟩
      cases items with
      | nil =>
        obtain rfl := hmeans'
        cases hmembers
      | cons next items =>
        rw [itemsJson, htext, itemsJson_false]
        exact .cons (member_intro hok.1.nameOk hdenotes) hmembers

end

/-! ## The text is UTF-8 -/

lemma NameOk.validUtf8_nameText {name : Bytes} (h : NameOk name) : ValidUtf8 (nameText name) := by
  have hquote : ValidUtf8 [34] := validUtf8_of_all (by decide)
  have hend : ValidUtf8 [34, 58] := validUtf8_of_all (by decide)
  exact hquote.append (h.utf8.append hend)

lemma validUtf8_nil : ValidUtf8 [] := ⟨[], rfl⟩

lemma validUtf8_templateJson {parent typeItem : TypeItem} {name content : Bytes} (hname : NameOk name)
    (hcontent : ValidUtf8 content) : ValidUtf8 (templateJson parent typeItem name content) := by
  have hquote : ValidUtf8 [34] := validUtf8_of_all (by decide)
  refine ValidUtf8.append ?_ ?_
  · split
    · exact hname.validUtf8_nameText
    · exact validUtf8_nil
  · split_ifs
    · exact validUtf8_of_all (by decide)
    · exact hquote.append (hcontent.append hquote)
    · exact hcontent

lemma validUtf8_containerJson {typeItem : TypeItem} {name body : Bytes} (hname : NameOk name)
    (hbody : ValidUtf8 body) : ValidUtf8 (containerJson typeItem name body) := by
  refine ValidUtf8.append ?_ (ValidUtf8.append ?_ (hbody.append ?_))
  · split
    · exact hname.validUtf8_nameText
    · exact validUtf8_nil
  · split_ifs
    · exact validUtf8_of_all (by decide)
    · exact validUtf8_of_all (by decide)
    · exact validUtf8_nil
  · split_ifs
    · exact validUtf8_of_all (by decide)
    · exact validUtf8_of_all (by decide)
    · exact validUtf8_nil

mutual

lemma Item.Ok.validUtf8 : ∀ (item : Item) (parent : TypeItem), item.Ok →
    ValidUtf8 (item.getJson parent)
  | .add typeItem name content, parent, hok => by
    rw [Item.getJson, jsonStringEscape_eq hok.2]
    exact validUtf8_templateJson hok.1 (validUtf8_escape hok.2.utf8)
  | .addNull name, parent, hok => validUtf8_templateJson hok (validUtf8_of_all (by decide))
  | .addInt name content, parent, hok => by
    refine validUtf8_templateJson hok (validUtf8_of_ascii fun c hc => ?_)
    have hbounds := ((numberText_intText content).numberByte c hc).bounds
    omega
  | .addArray name items, parent, hok =>
    validUtf8_containerJson hok.1 (AllOk.validUtf8 items .array true hok.2)
  | .addObject name items, parent, hok =>
    validUtf8_containerJson hok.1 (AllOk.validUtf8 items .object true hok.2)

lemma AllOk.validUtf8 : ∀ (items : List Item) (typeItem : TypeItem) (first : Bool), AllOk items →
    ValidUtf8 (itemsJson typeItem first items)
  | [], _, _, _ => validUtf8_nil
  | item :: items, typeItem, first, hok => by
    refine ValidUtf8.append ?_ ((Item.Ok.validUtf8 item typeItem hok.1).append
      (AllOk.validUtf8 items typeItem false hok.2))
    split
    · exact validUtf8_nil
    · exact validUtf8_of_all (by decide)

end

/-!
## Exactly the clean trees are exported

A text that denotes the tree has no raw control character, so no string has one that is not
escaped. It also has a colon for each member of the tree, and a container without a name in an
object would be a member without one.
-/

def unnamedHere (parent : TypeItem) (name : Bytes) : Nat :=
  if parent ≠ .array ∧ name = [] then 1 else 0

mutual

def Item.unnamed (parent : TypeItem) : Item → Nat
  | .add _ _ _ => 0
  | .addNull _ => 0
  | .addInt _ _ => 0
  | .addArray name items => unnamedHere parent name + unnamedAll .array items
  | .addObject name items => unnamedHere parent name + unnamedAll .object items

def unnamedAll (parent : TypeItem) : List Item → Nat
  | [] => 0
  | item :: items => item.unnamed parent + unnamedAll parent items

end

/-! ## The colons of the text -/

def nameCount (parent : TypeItem) : Nat := if parent = .array then 0 else 1

lemma scan_nameText {name : Bytes} (h : NameOk name) (n : Nat) (t : Bytes) :
    scan (.outside, n) (nameText name ++ t) = scan (.outside, n + 1) t := by
  have htext : nameText name ++ t = 34 :: (name ++ 34 :: (58 :: t)) := by
    simp [nameText]
  rw [htext, scan_quoted (h.chars.scan_eq n), scan_colon]

lemma scan_front {parent : TypeItem} {name : Bytes} (h : NameOk name) (n : Nat) (t : Bytes) :
    scan (.outside, n) (front parent name ++ t) = scan (.outside, n + nameCount parent) t := by
  unfold front nameCount
  split
  · rfl
  · exact scan_nameText h n t

lemma scan_separator (first : Bool) (n : Nat) :
    scan (.outside, n) (if first then [] else [44]) = (.outside, n) := by
  cases first with
  | true => rfl
  | false => rfl

lemma scan_escape (content : Bytes) (n : Nat) :
    scan (.inside, n) (content.flatMap escapeChar) = (.inside, n) := by
  induction content with
  | nil => rfl
  | cons c content ih =>
    rw [List.flatMap_cons, scan_append]
    rcases escapeChar_cases c with ⟨heq, hquote, hback, -⟩ | ⟨d, heq, -, -⟩
    · rw [heq, scan_cons, scanByte, if_neg hquote, if_neg hback]
      exact ih
    · rw [heq]
      exact ih

lemma scan_containerJson {parent typeItem : TypeItem} {name body : Bytes} {c u : Nat}
    (hname : NameOk name) (harray : parent = .array → name = [])
    (htype : typeItem = .array ∨ typeItem = .object)
    (hbody : ∀ k, ∃ m, scan (.outside, k) body = (.outside, m) ∧ m + u = k + c) (n : Nat) :
    ∃ m, scan (.outside, n) (containerJson typeItem name body) = (.outside, m) ∧
      m + (unnamedHere parent name + u) = n + nameCount parent + c := by
  have hinner : ∀ k, ∃ m, scan (.outside, k)
      ((if typeItem = .object then [123] else if typeItem = .array then [91] else []) ++
        (body ++ if typeItem = .object then [125] else if typeItem = .array then [93] else [])) =
          (.outside, m) ∧ m + u = k + c := by
    intro k
    obtain ⟨m, hm, hcount⟩ := hbody k
    refine ⟨m, ?_, hcount⟩
    rcases htype with rfl | rfl
    · exact scan_bracketed (by decide) (by decide) hm
    · exact scan_bracketed (by decide) (by decide) hm
  unfold containerJson
  by_cases hempty : name = []
  · obtain ⟨m, hm, hcount⟩ := hinner n
    refine ⟨m, ?_, ?_⟩
    · rw [if_neg (not_not.mpr hempty)]
      exact hm
    · unfold unnamedHere nameCount
      by_cases hp : parent = .array
      · rw [if_neg fun h => h.1 hp, if_pos hp]
        omega
      · rw [if_pos ⟨hp, hempty⟩, if_neg hp]
        omega
  · obtain ⟨m, hm, hcount⟩ := hinner (n + 1)
    refine ⟨m, ?_, ?_⟩
    · rw [if_pos hempty, scan_nameText hname]
      exact hm
    · unfold unnamedHere nameCount
      rw [if_neg fun h => hempty h.2, if_neg fun hp => hempty (harray hp)]
      omega

lemma scan_templateJson {parent typeItem : TypeItem} {name content : Bytes} (hname : NameOk name)
    (harray : parent = .array → name = []) (n : Nat)
    (hvalue : scan (.outside, n + nameCount parent)
      (if typeItem = .null then [110, 117, 108, 108]
        else if typeItem = .string then 34 :: (content ++ [34]) else content) =
          (.outside, n + nameCount parent)) :
    ∃ m, scan (.outside, n) (templateJson parent typeItem name content) = (.outside, m) ∧
      m + 0 = n + nameCount parent + 0 := by
  refine ⟨n + nameCount parent, ?_, rfl⟩
  rw [templateJson_eq typeItem content harray, scan_front hname]
  exact hvalue

mutual

lemma Item.scan_getJson : ∀ (item : Item) (parent : TypeItem) (v : Value), item.Ok → item.Means v →
    (parent = .array → item.name = []) → ∀ n, ∃ m,
      scan (.outside, n) (item.getJson parent) = (.outside, m) ∧
        m + item.unnamed parent = n + nameCount parent + v.memberCount
  | .add typeItem name content, parent, v, hok, hmeans, harray, n => by
    rw [Item.getJson, jsonStringEscape_eq hok.2, Item.unnamed]
    rcases hmeans with ⟨rfl, rfl⟩ | ⟨rfl, q, hq, rfl⟩ | ⟨rfl, rfl⟩
    · exact scan_templateJson hok.1 harray n (scan_quoted (scan_escape content _) [])
    · rw [escape_number hq]
      exact scan_templateJson hok.1 harray n (hq.scan_eq _)
    · exact scan_templateJson hok.1 harray n (Denotes.null.scan_eq _)
  | .addNull name, parent, v, hok, hmeans, harray, n => by
    obtain rfl := hmeans
    exact scan_templateJson hok harray n (Denotes.null.scan_eq _)
  | .addInt name content, parent, v, hok, hmeans, harray, n => by
    obtain rfl := hmeans
    exact scan_templateJson hok harray n ((numberText_intText content).scan_eq _)
  | .addArray name items, parent, v, hok, ⟨vs, hmeans, hv⟩, harray, n => by
    rw [hv]
    exact scan_containerJson hok.1 harray (Or.inl rfl)
      (ElementsMean.scan_itemsJson items vs true hok.2 hmeans) n
  | .addObject name items, parent, v, hok, ⟨ms, hmeans, hv⟩, harray, n => by
    rw [hv]
    exact scan_containerJson hok.1 harray (Or.inr rfl)
      (MembersMean.scan_itemsJson items ms true hok.2 hmeans) n

lemma ElementsMean.scan_itemsJson : ∀ (items : List Item) (vs : List Value) (first : Bool),
    AllOk items → ElementsMean items vs → ∀ n, ∃ m,
      scan (.outside, n) (itemsJson .array first items) = (.outside, m) ∧
        m + unnamedAll .array items = n + elementsCount vs
  | [], vs, first, _, hmeans, n => by
    obtain rfl := hmeans
    exact ⟨n, rfl, rfl⟩
  | item :: items, vs, first, hok, ⟨hname, v, vs', hv, hvs, heq⟩, n => by
    obtain ⟨m, hm, hcount⟩ := Item.scan_getJson item .array v hok.1 hv (fun _ => hname) n
    obtain ⟨m', hm', hcount'⟩ := ElementsMean.scan_itemsJson items vs' false hok.2 hvs m
    refine ⟨m', ?_, ?_⟩
    · rw [itemsJson, scan_append, scan_separator, scan_append, hm, hm']
    · have hnone : nameCount .array = 0 := rfl
      rw [heq, unnamedAll, elementsCount]
      omega

lemma MembersMean.scan_itemsJson : ∀ (items : List Item) (ms : List (Bytes × Value)) (first : Bool),
    AllOk items → MembersMean items ms → ∀ n, ∃ m,
      scan (.outside, n) (itemsJson .object first items) = (.outside, m) ∧
        m + unnamedAll .object items = n + membersCount ms
  | [], ms, first, _, hmeans, n => by
    obtain rfl := hmeans
    exact ⟨n, rfl, rfl⟩
  | item :: items, ms, first, hok, ⟨v, ms', hv, hms, heq⟩, n => by
    obtain ⟨m, hm, hcount⟩ := Item.scan_getJson item .object v hok.1 hv (fun h => nomatch h) n
    obtain ⟨m', hm', hcount'⟩ := MembersMean.scan_itemsJson items ms' false hok.2 hms m
    refine ⟨m', ?_, ?_⟩
    · rw [itemsJson, scan_append, scan_separator, scan_append, hm, hm']
    · have hone : nameCount .object = 1 := rfl
      rw [heq, unnamedAll, membersCount]
      omega

end

/-! ## From the text to the tree -/

lemma cleanByte_of_visible {content : Bytes} (h : Visible (content.flatMap escapeChar)) :
    ∀ c ∈ content, CleanByte c := by
  intro c hc
  rcases escapeChar_cases c with ⟨heq, -⟩ | ⟨d, heq, hd, -⟩
  · have hmem : c ∈ content.flatMap escapeChar :=
      List.mem_flatMap.mpr ⟨c, hc, by rw [heq]; exact List.mem_singleton_self c⟩
    rcases h c hmem with hlow | rfl | rfl | rfl
    · exact Or.inl hlow
    · exact Or.inr (Or.inr (Or.inl rfl))
    · exact Or.inr (Or.inr (Or.inr (Or.inl rfl)))
    · exact Or.inr (Or.inr (Or.inr (Or.inr (Or.inr rfl))))
  · unfold unescape at hd
    unfold CleanByte
    split_ifs at hd
    all_goals (obtain rfl := Option.some.inj hd; decide)

lemma Visible.of_containerJson {typeItem : TypeItem} {name body : Bytes}
    (h : Visible (containerJson typeItem name body)) : Visible body :=
  (visible_append.mp (visible_append.mp (visible_append.mp h).2).2).1

lemma named_of_unnamedHere {parent : TypeItem} {name : Bytes} (harray : parent = .array → name = [])
    (h : unnamedHere parent name = 0) : parent = .array ↔ name = [] := by
  refine ⟨harray, fun hempty => ?_⟩
  by_contra hp
  rw [unnamedHere, if_pos ⟨hp, hempty⟩] at h
  cases h

mutual

lemma Item.Means.clean : ∀ (item : Item) (parent : TypeItem) (v : Value), item.Ok → item.Means v →
    (parent = .array → item.name = []) → Visible (item.getJson parent) →
    item.unnamed parent = 0 → item.Clean parent
  | .add typeItem name content, parent, v, hok, hmeans, harray, hvisible, _ => by
    refine ⟨harray, ?_⟩
    rw [Item.getJson, jsonStringEscape_eq hok.2, templateJson, visible_append] at hvisible
    rcases hmeans with ⟨rfl, -⟩ | ⟨rfl, q, hq, -⟩ | ⟨rfl, -⟩
    · have hquoted : Visible (34 :: (content.flatMap escapeChar ++ [34])) := hvisible.2
      rw [visible_cons (by decide), visible_append] at hquoted
      exact Or.inl ⟨rfl, cleanByte_of_visible hquoted.1⟩
    · exact Or.inr (Or.inl ⟨rfl, q, hq⟩)
    · exact Or.inr (Or.inr rfl)
  | .addNull name, parent, v, hok, hmeans, harray, _, _ => harray
  | .addInt name content, parent, v, hok, hmeans, harray, _, _ => harray
  | .addArray name items, parent, v, hok, ⟨vs, hmeans, _⟩, harray, hvisible, hunnamed => by
    rw [Item.unnamed] at hunnamed
    refine ⟨named_of_unnamedHere harray (by omega), ?_⟩
    exact ElementsMean.clean items vs true hok.2 hmeans (Visible.of_containerJson hvisible) (by omega)
  | .addObject name items, parent, v, hok, ⟨ms, hmeans, _⟩, harray, hvisible, hunnamed => by
    rw [Item.unnamed] at hunnamed
    refine ⟨named_of_unnamedHere harray (by omega), ?_⟩
    exact MembersMean.clean items ms true hok.2 hmeans (Visible.of_containerJson hvisible) (by omega)

lemma ElementsMean.clean : ∀ (items : List Item) (vs : List Value) (first : Bool), AllOk items →
    ElementsMean items vs → Visible (itemsJson .array first items) →
    unnamedAll .array items = 0 → CleanAll .array items
  | [], _, _, _, _, _, _ => trivial
  | item :: items, vs, first, hok, ⟨hname, v, vs', hv, hvs, _⟩, hvisible, hunnamed => by
    rw [itemsJson, visible_append, visible_append] at hvisible
    rw [unnamedAll] at hunnamed
    refine ⟨?_, ElementsMean.clean items vs' false hok.2 hvs hvisible.2.2 (by omega)⟩
    exact Item.Means.clean item .array v hok.1 hv (fun _ => hname) hvisible.2.1 (by omega)

lemma MembersMean.clean : ∀ (items : List Item) (ms : List (Bytes × Value)) (first : Bool),
    AllOk items → MembersMean items ms → Visible (itemsJson .object first items) →
    unnamedAll .object items = 0 → CleanAll .object items
  | [], _, _, _, _, _, _ => trivial
  | item :: items, ms, first, hok, ⟨v, ms', hv, hms, _⟩, hvisible, hunnamed => by
    rw [itemsJson, visible_append, visible_append] at hvisible
    rw [unnamedAll] at hunnamed
    refine ⟨?_, MembersMean.clean items ms' false hok.2 hms hvisible.2.2 (by omega)⟩
    exact Item.Means.clean item .object v hok.1 hv (fun h => nomatch h) hvisible.2.1 (by omega)

end

/-! ## The root -/

lemma nameOk_nil : NameOk [] := ⟨validUtf8_nil, by simp⟩

lemma nameOk_singleton {c : UInt8} (hc : c.toNat < 128) (hplain : 32 ≤ c.toNat ∧ c ≠ 34 ∧ c ≠ 92) :
    NameOk [c] where
  utf8 := validUtf8_of_ascii fun d hd => by rwa [List.mem_singleton.mp hd]
  plain := fun d hd => by rwa [List.mem_singleton.mp hd]

lemma root_ok {isArray : Bool} {items : List Item} (h : AllOk items) : (root isArray items).Ok := by
  cases isArray with
  | true => exact ⟨nameOk_nil, h⟩
  | false => exact ⟨nameOk_nil, h⟩

lemma rootJson_eq (isArray : Bool) (items : List Item) :
    rootJson isArray items = (root isArray items).getJson .array := by
  cases isArray with
  | true => rfl
  | false => rfl

lemma root_name (isArray : Bool) (items : List Item) : (root isArray items).name = [] := by
  cases isArray with
  | true => rfl
  | false => rfl

lemma root_clean {isArray : Bool} {items : List Item} :
    (root isArray items).Clean .array ↔ CleanAll (if isArray then .array else .object) items := by
  cases isArray with
  | true => exact and_iff_right (iff_of_true rfl rfl)
  | false => exact and_iff_right (iff_of_true rfl rfl)

lemma Exported.clean {isArray : Bool} {items : List Item} (h : Exported isArray items)
    (hok : AllOk items) : CleanAll (if isArray then .array else .object) items := by
  obtain ⟨v, hmeans, hjson⟩ := h
  have hvisible := hjson.visible
  have hscan := hjson.scan_eq
  rw [rootJson_eq] at hvisible hscan
  obtain ⟨m, hm, hcount⟩ :=
    Item.scan_getJson _ .array v (root_ok hok) hmeans (fun _ => root_name isArray items) 0
  have hnone : nameCount .array = 0 := rfl
  have hsame : m = v.memberCount := congrArg Prod.snd (hm.symm.trans hscan)
  refine root_clean.mp (Item.Means.clean _ .array v (root_ok hok) hmeans
    (fun _ => root_name isArray items) hvisible (by omega))

/-- The text is JSON that denotes the tree exactly when the tree is clean. -/
theorem exported_iff (isArray : Bool) (items : List Item) (hok : AllOk items) :
    Exported isArray items ↔ CleanAll (if isArray then .array else .object) items := by
  refine ⟨fun h => h.clean hok, fun hclean => ?_⟩
  obtain ⟨v, t, hmeans, hdenotes, htext⟩ :=
    Item.Clean.text _ .array (root_ok hok) (root_clean.mpr hclean)
  refine ⟨v, hmeans, ?_, [], t, [], ws_nil, ws_nil, hdenotes, ?_⟩
  · rw [rootJson_eq]
    exact Item.Ok.validUtf8 _ .array (root_ok hok)
  · rw [rootJson_eq, htext, List.append_nil]
    rfl

theorem exported_iff_example :
    Exported false [.add .string [97] [10], .addArray [98] [.addInt [] (-5), .addNull []]] := by
  refine (exported_iff false _ ?_).mpr ?_
  · exact ⟨⟨nameOk_singleton (by decide) (by decide), validUtf8_of_all (by decide), by decide⟩,
      ⟨nameOk_singleton (by decide) (by decide), nameOk_nil, nameOk_nil, trivial⟩, trivial⟩
  · refine ⟨⟨nofun, Or.inl ⟨rfl, ?_⟩⟩, ⟨iff_of_false nofun nofun, fun _ => rfl, fun _ => rfl, trivial⟩,
      trivial⟩
    intro c hc
    rw [List.mem_singleton.mp hc]
    exact Or.inr (Or.inr (Or.inr (Or.inl rfl)))

/-- The control character 1 is written as it is. -/
theorem exported_control_character :
    ¬∀ isArray items, AllOk items → Exported isArray items := by
  intro hall
  have hok : AllOk [.add .string [97] [1]] :=
    ⟨⟨nameOk_singleton (by decide) (by decide), validUtf8_of_all (by decide), by decide⟩, trivial⟩
  obtain ⟨⟨-, hstring⟩, -⟩ := (hall false _ hok).clean hok
  rcases hstring with ⟨-, hbytes⟩ | ⟨htype, -⟩ | htype
  · have hone := hbytes 1 (List.mem_singleton_self 1)
    unfold CleanByte at hone
    revert hone
    decide
  · cases htype
  · cases htype

end VoipMonitor.JsonExport
