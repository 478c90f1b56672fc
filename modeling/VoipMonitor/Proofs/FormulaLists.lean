import VoipMonitor.Proofs.FormulaGroups

/-!
# The functions of lists in formulas

The comma operator collects the values of its operands. `greatest` and `least` return inside their
loop and so compare two elements, and `not in` goes on behind an element that it has found.
-/

namespace VoipMonitor.EvalFormula
open VoipMonitor.Library

variable {F : Type} {h : Host F} {a : Assignment F}

/-- An operand with its unary operator that has a number as its value. -/
structure IntOperand (h : Host F) (a : Assignment F) where
  u : EOperator
  tree : Operands F
  value : Int64
  isInt : applyU h u (e h a tree).1 = .int value false

def commaRest : List (IntOperand h a) → Rest F
  | [] => .nil
  | o :: more => .cons .sqlComma o.u o.tree (commaRest more)

def commas (first : IntOperand h a) (more : List (IntOperand h a)) : Operands F :=
  .group first.u first.tree (commaRest more)

def callOf (function : EOperator) (first : IntOperand h a) (more : List (IntOperand h a)) :
    Operands F :=
  .group function (commas first more) .nil

/-- An operand before a list: `x in (...)` or `x not in (...)`. -/
def memberOf (x : IntOperand h a) (oper : EOperator) (first : IntOperand h a)
    (more : List (IntOperand h a)) : Operands F :=
  .group x.u x.tree (.cons oper .na (commas first more) .nil)

def values (first : IntOperand h a) (more : List (IntOperand h a)) : List Int64 :=
  (first :: more).map IntOperand.value

/-- What the functions of a list of numbers are for. -/
structure ListFunctions (x first : IntOperand h a) (more : List (IntOperand h a)) : Prop where
  greatest : ∃ m ∈ values first more, (∀ v ∈ values first more, v ≤ m) ∧
    (e h a (callOf .sqlGreatest first more)).1 = .int m false
  least : ∃ m ∈ values first more, (∀ v ∈ values first more, m ≤ v) ∧
    (e h a (callOf .sqlLeast first more)).1 = .int m false
  coalesce : (e h a (callOf .sqlCoalesce first more)).1 = .int first.value false
  isIn : (e h a (memberOf x .sqlIn first more)).1.getBool h = true ↔ x.value ∈ values first more
  notIn : (e h a (memberOf x .sqlNotIn first more)).1.getBool h = true ↔
    x.value ∉ values first more

/-- No element is above or below the first two. -/
def FirstTwoDecide : List Int64 → Prop
  | v :: w :: rest => ∀ u ∈ rest, (u ≤ v ∨ u ≤ w) ∧ (v ≤ u ∨ w ≤ u)
  | _ => True

/-! ## Lists -/

def ints (vs : List Int64) : List (SValue F) := vs.map (fun v => .int v false)

def listValue : List Int64 → SValue F
  | [v] => .int v false
  | vs => .list (some (ints vs)) false

lemma eRest_commas_list (vs : List Int64) (more : List (IntOperand h a)) :
    (eRest h a (.list (some (ints vs)) false) (commaRest more)).1 =
      .list (some (ints (vs ++ more.map IntOperand.value))) false := by
  induction more generalizing vs with
  | nil => rw [commaRest, eRest, List.map_nil, List.append_nil]
  | cons o more ih =>
    have hends : endsAt h (.list (some (ints vs)) false) .sqlComma = false := rfl
    have hjoin : joinOperands h (.list (some (ints vs)) false) (.int o.value false) .sqlComma =
        .list (some (ints (vs ++ [o.value]))) false := by
      rw [joinOperands, eBOperator, Option.getD_some, ints, ints, List.map_append, List.map_singleton]
      intro _ _ _ _ hint
      cases hint
    rw [commaRest, eRest, hends, if_neg Bool.false_ne_true]
    dsimp only
    rw [o.isInt, hjoin, ih (vs ++ [o.value]), List.append_assoc, List.singleton_append, List.map_cons]

lemma e_commas (first : IntOperand h a) (more : List (IntOperand h a)) :
    (e h a (commas first more)).1 = listValue (values first more) := by
  rw [commas, e]
  rw [first.isInt, values]
  cases more with
  | nil => rfl
  | cons o more =>
    have hends : endsAt h (.int first.value false) .sqlComma = false := rfl
    have hjoin : joinOperands h (.int first.value false) (.int o.value false) .sqlComma =
        .list (some (ints [first.value, o.value])) false := rfl
    rw [commaRest, eRest, hends, if_neg Bool.false_ne_true]
    dsimp only
    rw [o.isInt, hjoin, eRest_commas_list]
    rfl

lemma e_callOf (function : EOperator) (hna : function ≠ .na) (first : IntOperand h a)
    (more : List (IntOperand h a)) : (e h a (callOf function first more)).1 =
      eUOperator h (listValue (values first more)) function := by
  rw [callOf, e]
  rw [eRest, e_commas, applyU, if_neg hna]

lemma e_memberOf (x : IntOperand h a) (notIn : Bool) (first : IntOperand h a)
    (more : List (IntOperand h a)) :
    (e h a (memberOf x (if notIn then .sqlNotIn else .sqlIn) first more)).1 =
      sqlIn h notIn (.int x.value false) (listValue (values first more)) := by
  have hends : ∀ v, endsAt h v (if notIn then .sqlNotIn else .sqlIn) = false := by
    cases notIn <;> exact fun _ => rfl
  have hjoin : ∀ list : SValue F, joinOperands h (.int x.value false) list
      (if notIn then .sqlNotIn else .sqlIn) = sqlIn h notIn (.int x.value false) list := by
    intro list
    cases list <;> cases notIn <;> rfl
  rw [memberOf, e]
  rw [eRest, hends, if_neg Bool.false_ne_true]
  dsimp only
  rw [eRest, x.isInt, e_commas, applyU, if_pos rfl, hjoin]

/-! ## The comparisons -/

lemma lt_ints (v w : Int64) :
    ((SValue.int v false : SValue F).lt h (.int w false)).getBool h = decide (v < w) :=
  getBool_ofBool _

lemma gt_ints (v w : Int64) :
    ((SValue.int v false : SValue F).gt h (.int w false)).getBool h = decide (w < v) :=
  getBool_ofBool _

lemma eq_ints (v w : Int64) :
    ((SValue.int v false : SValue F).eq h (.int w false)).getBool h = decide (v = w) :=
  getBool_ofBool _

/-! ## The functions -/

lemma sqlIn_listValue (notIn : Bool) (x v : Int64) (more : List Int64) :
    (sqlIn h notIn (.int x false : SValue F) (listValue (v :: more))).getBool h =
      if more = [] then (if x = v then !notIn else notIn) else (notIn || decide (x ∈ v :: more)) := by
  cases more with
  | nil =>
    rw [if_pos rfl, listValue, sqlIn, getBool_ofBool, eq_ints]
    · by_cases heq : x = v
      · rw [if_pos heq, if_pos (decide_eq_true heq)]
      · rw [if_neg heq, if_neg (by simpa using heq)]
    · nofun
  | cons w more =>
    have hany : (ints (F := F) (v :: w :: more)).any
        (fun u => ((SValue.int x false).eq h u).getBool h) = decide (x ∈ v :: w :: more) := by
      rw [ints, List.any_map, Bool.eq_iff_iff, List.any_eq_true, decide_eq_true_iff]
      constructor
      · rintro ⟨u, hu, heq⟩
        rw [Function.comp_apply, eq_ints, decide_eq_true_iff] at heq
        exact heq ▸ hu
      · intro hx
        refine ⟨x, hx, ?_⟩
        rw [Function.comp_apply, eq_ints, decide_eq_true_iff]
    rw [if_neg (List.cons_ne_nil _ _)]
    change SValue.getBool h (.ofBool (notIn || (ints (F := F) (v :: w :: more)).any _)) = _
    rw [getBool_ofBool, hany]

/-- The greater or the smaller one of the first two. -/
def ofTwo (greatest : Bool) : List Int64 → Int64
  | v :: w :: _ => if (if greatest then decide (v < w) else decide (w < v)) then w else v
  | v :: _ => v
  | [] => 0

lemma greatestOrLeast_listValue (greatest : Bool) (v : Int64) (more : List Int64) :
    eUOperator h (listValue (v :: more) : SValue F) (if greatest then .sqlGreatest else .sqlLeast) =
      .int (ofTwo greatest (v :: more)) false := by
  cases more with
  | nil => cases greatest <;> rfl
  | cons w more =>
    have hvalue : eUOperator h (listValue (v :: w :: more) : SValue F)
        (if greatest then .sqlGreatest else .sqlLeast) =
        greatestOrLeast h greatest (.int v false :: .int w false :: ints more) := by
      cases greatest <;> rfl
    rw [hvalue, greatestOrLeast, ofTwo]
    cases greatest with
    | true =>
      rw [if_pos rfl, if_pos rfl, gt_ints]
      split <;> rfl
    | false =>
      rw [if_neg Bool.false_ne_true, if_neg Bool.false_ne_true, lt_ints]
      split <;> rfl

lemma coalesce_listValue (v : Int64) (more : List Int64) :
    eUOperator h (listValue (v :: more) : SValue F) .sqlCoalesce = .int v false := by
  cases more with
  | nil => rfl
  | cons w more => rfl

lemma firstTwoDecide_iff (v : Int64) (more : List Int64) : FirstTwoDecide (v :: more) ↔
    (∀ u ∈ v :: more, u ≤ ofTwo true (v :: more)) ∧
      ∀ u ∈ v :: more, ofTwo false (v :: more) ≤ u := by
  cases more with
  | nil => simp [FirstTwoDecide, ofTwo]
  | cons w rest =>
    have hmax : ∀ u : Int64, u ≤ ofTwo true (v :: w :: rest) ↔ u ≤ v ∨ u ≤ w := by
      intro u
      rw [ofTwo, if_pos rfl]
      by_cases hlt : v < w
      · rw [if_pos (decide_eq_true hlt)]
        exact ⟨.inr, fun hor => hor.elim (fun hle => Int64.le_trans hle (Int64.le_of_lt hlt)) id⟩
      · rw [if_neg (by simpa using hlt)]
        exact ⟨.inl, fun hor => hor.elim id (fun hle => Int64.le_trans hle (Int64.not_lt.mp hlt))⟩
    have hmin : ∀ u : Int64, ofTwo false (v :: w :: rest) ≤ u ↔ v ≤ u ∨ w ≤ u := by
      intro u
      rw [ofTwo, if_neg Bool.false_ne_true]
      by_cases hlt : w < v
      · rw [if_pos (decide_eq_true hlt)]
        exact ⟨.inr, fun hor => hor.elim (fun hle => Int64.le_trans (Int64.le_of_lt hlt) hle) id⟩
      · rw [if_neg (by simpa using hlt)]
        exact ⟨.inl, fun hor => hor.elim id (fun hle => Int64.le_trans (Int64.not_lt.mp hlt) hle)⟩
    simp only [hmax, hmin, FirstTwoDecide, List.forall_mem_cons]
    constructor
    · intro hrest
      exact ⟨⟨.inl (Int64.le_refl v), .inr (Int64.le_refl w), fun u hu => (hrest u hu).1⟩,
        .inl (Int64.le_refl v), .inr (Int64.le_refl w), fun u hu => (hrest u hu).2⟩
    · rintro ⟨⟨-, -, habove⟩, -, -, hbelow⟩ u hu
      exact ⟨habove u hu, hbelow u hu⟩

lemma ofTwo_mem (greatest : Bool) (v : Int64) (more : List Int64) :
    ofTwo greatest (v :: more) ∈ v :: more := by
  cases more with
  | nil => exact List.mem_cons_self
  | cons w rest =>
    have htwo : ∀ b : Bool, (if b then w else v) ∈ v :: w :: rest := by
      intro b
      cases b <;> simp
    exact htwo _

/-- The functions of a list of numbers are right exactly when the greatest and the smallest number
are among the first two, and the number that is looked for is not in a list of two or more. -/
theorem listFunctions_iff (x first : IntOperand h a) (more : List (IntOperand h a)) :
    ListFunctions x first more ↔ FirstTwoDecide (values first more) ∧
      (more = [] ∨ x.value ∉ values first more) := by
  have hvalues : values first more = first.value :: more.map IntOperand.value := rfl
  have hin : (e h a (memberOf x .sqlIn first more)).1.getBool h = true ↔
      x.value ∈ values first more := by
    have heq := e_memberOf x false first more
    rw [if_neg Bool.false_ne_true] at heq
    rw [heq, hvalues, sqlIn_listValue]
    simp only [List.map_eq_nil_iff]
    by_cases hnil : more = []
    · rw [if_pos hnil, hnil, List.map_nil, List.mem_singleton]
      by_cases hx : x.value = first.value <;> simp [hx]
    · rw [if_neg hnil, Bool.false_or, decide_eq_true_iff]
  have hnot : ((e h a (memberOf x .sqlNotIn first more)).1.getBool h = true ↔
      x.value ∉ values first more) ↔ more = [] ∨ x.value ∉ values first more := by
    have heq := e_memberOf x true first more
    rw [if_pos rfl] at heq
    rw [heq, hvalues, sqlIn_listValue]
    simp only [List.map_eq_nil_iff]
    by_cases hnil : more = []
    · rw [if_pos hnil, hnil, List.map_nil, List.mem_singleton]
      by_cases hx : x.value = first.value <;> simp [hx]
    · simp [hnil]
  have hgreatest := e_callOf (h := h) .sqlGreatest nofun first more
  have hleast := e_callOf (h := h) .sqlLeast nofun first more
  rw [hvalues] at hgreatest hleast
  replace hgreatest := hgreatest.trans (greatestOrLeast_listValue true _ _)
  replace hleast := hleast.trans (greatestOrLeast_listValue false _ _)
  have hfirstTwo := firstTwoDecide_iff first.value (more.map IntOperand.value)
  rw [← hvalues] at hgreatest hleast hfirstTwo
  constructor
  · rintro ⟨⟨m, hm, hmax, hmvalue⟩, ⟨n, hn, hmin, hnvalue⟩, -, -, hnotIn⟩
    rw [hgreatest] at hmvalue
    rw [hleast] at hnvalue
    obtain ⟨rfl, -⟩ := SValue.int.inj hmvalue
    obtain ⟨rfl, -⟩ := SValue.int.inj hnvalue
    exact ⟨hfirstTwo.mpr ⟨hmax, hmin⟩, hnot.mp hnotIn⟩
  · rintro ⟨hdecide, hx⟩
    obtain ⟨hmax, hmin⟩ := hfirstTwo.mp hdecide
    refine ⟨⟨_, ?_, hmax, hgreatest⟩, ⟨_, ?_, hmin, hleast⟩, ?_, hin, hnot.mpr hx⟩
    · exact ofTwo_mem _ _ _
    · exact ofTwo_mem _ _ _
    · rw [e_callOf .sqlCoalesce nofun, hvalues, coalesce_listValue]

def intConst (h : Host F) (a : Assignment F) (v : Int64) : IntOperand h a where
  u := .na
  tree := .const (.int v false)
  value := v
  isInt := rfl

/-- `greatest(1, 2, 3)` is 2, and `3 not in (1, 2, 3)` is true. -/
theorem not_listFunctions_third : ¬∀ (F : Type) (h : Host F) (a : Assignment F)
    (x first : IntOperand h a) (more : List (IntOperand h a)), ListFunctions x first more := by
  intro hall
  let h : Host Unit := ⟨fun _ => (), fun _ => 0, fun _ => false, fun _ _ => (), fun _ _ => (),
    fun _ _ => (), fun _ _ => (), fun _ _ => false, fun _ _ => false, fun _ _ => false, fun _ => 0,
    fun _ => (), fun _ => [], fun _ => [], fun _ => .v4 0, fun _ => [], fun _ _ => false⟩
  obtain ⟨⟨m, -, hmax, hvalue⟩, -⟩ := hall Unit h (fun _ => .na true) (intConst h _ 3)
    (intConst h _ 1) [intConst h _ 2, intConst h _ 3]
  have hm : SValue.int (2 : Int64) false = .int m false := hvalue
  obtain ⟨rfl, -⟩ := SValue.int.inj hm
  exact absurd (hmax 3 (by decide)) (by decide)

end VoipMonitor.EvalFormula
