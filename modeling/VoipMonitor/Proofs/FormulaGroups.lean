import VoipMonitor.Model.EvalFormula

/-!
# Groups of constants

`e_opt` gives a group of constants the value that its operators give one after the other. `e` ends
a group at an `and` or `or` that can not change the truth value any more, and joins integers with
`or` and `=` without a look at `v_null`. Here is when the two values are the same for the use that
is made of the group.
-/

namespace VoipMonitor.EvalFormula
open VoipMonitor.Library

variable {F : Type} (h : Host F)

/-! ## What is used of a value -/

/-- What the operators around a value use: all of it, whether it is an integer other than 0, or
only the truth value that `getBool` gives. -/
inductive Use where
  | value | logic | truth
deriving DecidableEq, Repr

/-- Two values that `and`, `or` and `not` do not tell apart. -/
inductive SameLogic : SValue F → SValue F → Prop
  | refl (v : SValue F) : SameLogic v v
  | na (m n : Bool) : SameLogic (.na m) (.na n)
  | int {x y : Int64} (m n : Bool) (hzero : x = 0 ↔ y = 0) : SameLogic (.int x m) (.int y n)

def Same : Use → SValue F → SValue F → Prop
  | .value, v, w => v = w
  | .logic, v, w => SameLogic v w
  | .truth, v, w => v.getBool h = w.getBool h

def isLogical (b : EOperator) : Bool := b = .and || b = .or

/-- What a group with these binary operators uses of its first operand. -/
def startUse (use : Use) (ops : List EOperator) : Use :=
  if ops = [] then use
  else if use ≠ .value ∧ ops.all isLogical = true then .logic
  else .value

/-- What is used of an operand behind a binary operator. -/
def operandUse (b : EOperator) : Use := if isLogical b then .logic else .value

/-- What is used of the operand of a unary operator. -/
def unaryUse (u : EOperator) (use : Use) : Use :=
  if u = .na then use else if u = .not ∧ use ≠ .value then .logic else .value

section Same
variable {h} {use : Use} {v w r r' : SValue F}

lemma SameLogic.symm (hsame : SameLogic v w) : SameLogic w v := by
  cases hsame with
  | refl => exact .refl v
  | na m n => exact .na n m
  | int m n hzero => exact .int n m hzero.symm

lemma SameLogic.trans {x : SValue F} (hvw : SameLogic v w) (hwx : SameLogic w x) :
    SameLogic v x := by
  cases hvw with
  | refl => exact hwx
  | na m n =>
    cases hwx with
    | refl => exact .na m n
    | na => exact .na _ _
  | int m n hzero =>
    cases hwx with
    | refl => exact .int m n hzero
    | int _ k hzero' => exact .int m k (hzero.trans hzero')

lemma SameLogic.getBool_eq (hsame : SameLogic v w) : v.getBool h = w.getBool h := by
  cases hsame with
  | refl => rfl
  | na => rfl
  | int m n hzero =>
    unfold SValue.getBool
    rw [decide_eq_decide]
    exact not_congr hzero

lemma SameLogic.isNa_eq (hsame : SameLogic v w) : v.isNa = w.isNa := by
  cases hsame with
  | refl => rfl
  | na => rfl
  | int => rfl

lemma SameLogic.getInteger_iff (hsame : SameLogic v w) :
    v.getInteger h = 0 ↔ w.getInteger h = 0 := by
  cases hsame with
  | refl => exact Iff.rfl
  | na => exact Iff.rfl
  | int m n hzero => exact hzero

lemma Same.of_eq (heq : v = w) : Same h use v w := by
  subst heq
  cases use with
  | value => exact rfl
  | logic => exact .refl v
  | truth => exact rfl

lemma Same.of_logic (hsame : SameLogic v w) (huse : use ≠ .value) : Same h use v w := by
  cases use with
  | value => exact absurd rfl huse
  | logic => exact hsame
  | truth => exact hsame.getBool_eq

lemma Same.getBool_eq (hsame : Same h use v w) : v.getBool h = w.getBool h := by
  cases use with
  | value => exact congrArg _ hsame
  | logic => exact SameLogic.getBool_eq hsame
  | truth => exact hsame

lemma Same.symm (hsame : Same h use v w) : Same h use w v := by
  cases use with
  | value => exact Eq.symm hsame
  | logic => exact SameLogic.symm hsame
  | truth => exact Eq.symm hsame

lemma Same.trans {x : SValue F} (hvw : Same h use v w) (hwx : Same h use w x) :
    Same h use v x := by
  cases use with
  | value => exact Eq.trans hvw hwx
  | logic => exact SameLogic.trans hvw hwx
  | truth => exact Eq.trans hvw hwx

lemma Same.of_start {ops : List EOperator} (hsame : Same h (startUse use ops) v w) :
    Same h use v w := by
  unfold startUse at hsame
  split at hsame
  · exact hsame
  split at hsame
  · exact .of_logic hsame (by tauto)
  · exact .of_eq hsame

/-! ## Operators -/

lemma same_not (hsame : SameLogic v w) : SameLogic (v.not h) (w.not h) := by
  cases hsame with
  | refl => exact .refl _
  | na => exact .refl _
  | int m n hzero =>
    have hbool := (SameLogic.int m n hzero).getBool_eq (h := h)
    unfold SValue.not
    rw [hbool]
    exact .int _ _ Iff.rfl

lemma same_applyU {u : EOperator} (hsame : Same h (unaryUse u use) v w) :
    Same h use (applyU h u v) (applyU h u w) := by
  unfold unaryUse at hsame
  unfold applyU
  split at hsame
  · rw [if_pos ‹_›, if_pos ‹_›]
    exact hsame
  rw [if_neg ‹_›, if_neg ‹_›]
  split at hsame
  · obtain ⟨rfl, huse⟩ := ‹u = .not ∧ use ≠ .value›
    exact .of_logic (same_not hsame) huse
  · exact .of_eq (congrArg (fun v => eUOperator h v u) hsame)

lemma eBOperator_logical {b : EOperator} (hb : isLogical b = true) (hr : r.isNa = r'.isNa)
    (hrint : r.getInteger h = 0 ↔ r'.getInteger h = 0) (hv : v.isNa = w.isNa)
    (hvint : v.getInteger h = 0 ↔ w.getInteger h = 0) :
    eBOperator h r v b = eBOperator h r' w b := by
  unfold isLogical at hb
  rw [Bool.or_eq_true, decide_eq_true_iff, decide_eq_true_iff] at hb
  rcases hb with rfl | rfl
  · change SValue.and h r v = SValue.and h r' w
    unfold SValue.and
    simp only [hr, hv, hrint, hvint, ne_eq]
  · change SValue.or h r v = SValue.or h r' w
    unfold SValue.or
    simp only [hr, hv, hrint, hvint, ne_eq]

lemma SameLogic.isInt_eq (hsame : SameLogic v w) : v.isInt = w.isInt := by
  cases hsame with
  | refl => rfl
  | na => rfl
  | int => rfl

lemma SameLogic.eBOperator_eq {b : EOperator} (hb : isLogical b = true) (hr : SameLogic r r')
    (hv : SameLogic v w) : eBOperator h r v b = eBOperator h r' w b :=
  eBOperator_logical hb hr.isNa_eq hr.getInteger_iff hv.isNa_eq hv.getInteger_iff

lemma joinOperands_int (x y : Int64) (m n : Bool) (b : EOperator) :
    joinOperands h (.int x m) (.int y n) b =
      if b = .or then .int (if x ≠ 0 ∨ y ≠ 0 then 1 else 0) m
      else if b = .sqlEq then .int (if x = y then 1 else 0) m
      else eBOperator h (.int x m) (.int y n) b := rfl

lemma joinOperands_not_int {b : EOperator} (hint : ¬(r.isInt = true ∧ v.isInt = true)) :
    joinOperands h r v b = eBOperator h r v b := by
  unfold joinOperands
  split
  · exact absurd ⟨rfl, rfl⟩ hint
  · rfl

lemma exists_int (hint : v.isInt = true) : ∃ x n, v = .int x n := by
  cases v with
  | int x n => exact ⟨x, n, rfl⟩
  | na | float | string | ip | list => cases hint

lemma same_joinOperands {b : EOperator} (hb : isLogical b = true) (hr : SameLogic r r')
    (hv : SameLogic v w) : SameLogic (joinOperands h r v b) (joinOperands h r' w b) := by
  by_cases hint : r.isInt = true ∧ v.isInt = true
  · obtain ⟨x, m, rfl⟩ := exists_int hint.1
    obtain ⟨y, n, rfl⟩ := exists_int hint.2
    obtain ⟨x', m', rfl⟩ := exists_int (hr.isInt_eq ▸ rfl : r'.isInt = true)
    obtain ⟨y', n', rfl⟩ := exists_int (hv.isInt_eq ▸ rfl : w.isInt = true)
    have hx : x = 0 ↔ x' = 0 := hr.getInteger_iff (h := h)
    have hy : y = 0 ↔ y' = 0 := hv.getInteger_iff (h := h)
    rw [joinOperands_int, joinOperands_int]
    by_cases hor : b = .or
    · rw [if_pos hor, if_pos hor]
      simp only [ne_eq, hx, hy]
      exact .int _ _ Iff.rfl
    · have heq : b ≠ .sqlEq := by
        rintro rfl
        cases hb
      rw [if_neg hor, if_neg hor, if_neg heq, if_neg heq, hr.eBOperator_eq hb hv]
      exact .refl _
  · rw [joinOperands_not_int hint, joinOperands_not_int (hr.isInt_eq ▸ hv.isInt_eq ▸ hint),
      hr.eBOperator_eq hb hv]
    exact .refl _

lemma joinOperands_congr {b : EOperator} (hb : isLogical b = true) (hv : SameLogic v w) :
    joinOperands h r v b = joinOperands h r w b := by
  by_cases hint : r.isInt = true ∧ v.isInt = true
  · obtain ⟨x, m, rfl⟩ := exists_int hint.1
    obtain ⟨y, n, rfl⟩ := exists_int hint.2
    obtain ⟨y', n', rfl⟩ := exists_int (hv.isInt_eq ▸ rfl : w.isInt = true)
    have hy : y = 0 ↔ y' = 0 := hv.getInteger_iff (h := h)
    have heq : b ≠ .sqlEq := by
      rintro rfl
      cases hb
    rw [joinOperands_int, joinOperands_int, if_neg heq, if_neg heq,
      (SameLogic.refl (.int x m)).eBOperator_eq hb hv]
    simp only [ne_eq, hy]
  · rw [joinOperands_not_int hint, joinOperands_not_int (hv.isInt_eq ▸ hint),
      (SameLogic.refl r).eBOperator_eq hb hv]

/-- A step of a group: what is used of the two values leaves what the rest of the group uses. -/
lemma same_step {b : EOperator} {ops : List EOperator}
    (hr : Same h (startUse use (b :: ops)) r r') (hv : Same h (operandUse b) v w) :
    Same h (startUse use ops) (joinOperands h r v b) (joinOperands h r' w b) := by
  unfold startUse at hr
  rw [if_neg (List.cons_ne_nil b ops)] at hr
  split at hr
  · obtain ⟨huse, hlogical⟩ := ‹use ≠ .value ∧ (b :: ops).all isLogical = true›
    rw [List.all_cons, Bool.and_eq_true] at hlogical
    unfold operandUse at hv
    rw [if_pos hlogical.1] at hv
    refine .of_logic (same_joinOperands hlogical.1 hr hv) ?_
    unfold startUse
    split
    · exact huse
    · rw [if_pos ⟨huse, hlogical.2⟩]
      decide
  · obtain rfl : r = r' := hr
    unfold operandUse at hv
    split at hv
    · exact .of_eq (joinOperands_congr ‹_› hv)
    · exact .of_eq (congrArg (fun v => joinOperands h r v b) hv)

end Same

/-! ## The values of a group -/

abbrev Member (F : Type) := EOperator × SValue F

/-- The operators are applied one after the other. -/
def strictFold (rslt : SValue F) : List (Member F) → SValue F
  | [] => rslt
  | (b, v) :: rest => strictFold (eBOperator h rslt v b) rest

/-- The operators are applied as `e` does it. -/
def shortFold (rslt : SValue F) : List (Member F) → SValue F
  | [] => rslt
  | (b, v) :: rest =>
    if endsAt h rslt b then rslt else shortFold (joinOperands h rslt v b) rest

/-- The constant sets a truth value, whatever the group had before: a true one behind `or`, a false
one behind `and`. -/
def sets (x : Member F) : Option Bool :=
  if x.1 = .or ∧ x.2.getInteger h ≠ 0 then some true
  else if x.1 = .and ∧ x.2.getInteger h = 0 then some false
  else none

/-- What the last constant that sets a truth value sets. -/
def lastSet (rslt : SValue F) (l : List (Member F)) : Bool :=
  (l.reverse.findSome? (sets h)).getD (rslt.getInteger h ≠ 0)

def noNa (rslt : SValue F) (l : List (Member F)) : Bool := !rslt.isNa && l.all (fun x => !x.2.isNa)

def logicalOnly (l : List (Member F)) : Bool := l.all (fun x => isLogical x.1)

/-- `e` ends a group at `rslt`, with these members behind it. Their operators are `and` and `or`,
and the last constant that sets a truth value sets the one of `rslt`. Where more is used than the
truth value, `rslt` is what these operators give. -/
def StaysAt (use : Use) (rslt : SValue F) (l : List (Member F)) : Prop :=
  logicalOnly l = true ∧
    match use with
    | .truth => (noNa rslt l && lastSet h rslt l) = rslt.getBool h
    | .logic => rslt.isNa = true ∨
        rslt.isInt = true ∧ noNa rslt l = true ∧ lastSet h rslt l = rslt.getBool h
    | .value => rslt = .na false ∨
        rslt = .ofBool (rslt.getBool h) ∧ noNa rslt l = true ∧ lastSet h rslt l = rslt.getBool h

/-- Integers joined by `or` and `=`: `v_null` of the first one is not set unless only the truth
value counts behind them, and `=` does not find equal ones of which one has `v_null`. -/
def JoinsRight (use : Use) (rslt v : SValue F) (b : EOperator) (ops : List EOperator) : Prop :=
  rslt.isInt = true → v.isInt = true →
    (b = .or ∨ b = .sqlEq → rslt.null = true → startUse use ops ≠ .value) ∧
    (b = .sqlEq → rslt.getInteger h = v.getInteger h → rslt.null = false ∧ v.null = false)

/-- The condition on the operators and constants of a group. -/
def EndsRight (use : Use) (rslt : SValue F) : List (Member F) → Prop
  | [] => True
  | (b, v) :: rest =>
    if endsAt h rslt b then StaysAt h use rslt ((b, v) :: rest)
    else JoinsRight h use rslt v b (rest.map Prod.fst) ∧
      EndsRight use (eBOperator h rslt v b) rest

/-- `and` and `or` stand behind the other operators, and `=` joins no `v_null`. -/
def Plain (rslt : SValue F) : List (Member F) → Prop
  | [] => True
  | (b, v) :: rest =>
    if isLogical b then logicalOnly rest = true
    else (b = .sqlEq → rslt.null = false ∧ v.null = false) ∧ Plain (eBOperator h rslt v b) rest

/-- Members with the same operators, of whose values the same is used. -/
def SameMember (x y : Member F) : Prop := x.1 = y.1 ∧ Same h (operandUse x.1) x.2 y.2

section Folds
variable {h} {use : Use} {r r' : SValue F} {l l' : List (Member F)}

lemma endsAt_congr {b : EOperator} (hbool : r.getBool h = r'.getBool h) :
    endsAt h r b = endsAt h r' b := by
  unfold endsAt
  rw [hbool]

lemma isLogical_of_endsAt {b : EOperator} (hends : endsAt h r b = true) : isLogical b = true := by
  unfold endsAt at hends
  unfold isLogical
  rw [Bool.or_eq_true, Bool.and_eq_true, Bool.and_eq_true] at hends
  rw [Bool.or_eq_true]
  exact hends.imp And.left And.left

lemma same_shortFold (hl : List.Forall₂ (SameMember h) l l')
    (hr : Same h (startUse use (l.map Prod.fst)) r r') :
    Same h use (shortFold h r l) (shortFold h r' l') := by
  induction hl generalizing r r' with
  | nil => exact hr
  | @cons x y l l' hxy _ ih =>
    obtain ⟨b', w⟩ := y
    obtain ⟨rfl, hv⟩ := hxy
    rw [shortFold, shortFold, endsAt_congr hr.getBool_eq]
    split
    · exact hr.of_start
    · exact ih (same_step hr hv)

lemma ops_forall₂ (hl : List.Forall₂ (SameMember h) l l') :
    l.map Prod.fst = l'.map Prod.fst := by
  induction hl with
  | nil => rfl
  | cons hxy _ ih => rw [List.map_cons, List.map_cons, hxy.1, ih]

lemma sameMember_refl (l : List (Member F)) : List.Forall₂ (SameMember h) l l :=
  List.forall₂_same.mpr fun _ _ => ⟨rfl, .of_eq rfl⟩

/-! ## Groups with `and` and `or` -/

lemma strictFold_concat (r : SValue F) (l : List (Member F)) (x : Member F) :
    strictFold h r (l ++ [x]) = eBOperator h (strictFold h r l) x.2 x.1 := by
  induction l generalizing r with
  | nil => rfl
  | cons y l ih => exact ih _

lemma lastSet_concat (r : SValue F) (l : List (Member F)) (x : Member F) :
    lastSet h r (l ++ [x]) = (sets h x).getD (lastSet h r l) := by
  unfold lastSet
  rw [List.reverse_concat, List.findSome?_cons]
  cases sets h x with
  | none => rfl
  | some b => rfl

lemma noNa_concat (r : SValue F) (l : List (Member F)) (x : Member F) :
    noNa r (l ++ [x]) = (noNa r l && !x.2.isNa) := by
  unfold noNa
  rw [List.all_append, List.all_cons, List.all_nil, Bool.and_true, Bool.and_assoc]

lemma getInteger_ofBool (b : Bool) : (SValue.ofBool b : SValue F).getInteger h ≠ 0 ↔ b = true := by
  have hone : (1 : Int64) ≠ 0 := by decide
  cases b with
  | false => exact ⟨fun hne => absurd rfl hne, fun hb => absurd hb Bool.false_ne_true⟩
  | true => exact ⟨fun _ => rfl, fun _ => hone⟩

lemma eBOperator_last {x : Member F} (hx : isLogical x.1 = true) (d : Bool)
    (hr : r.getInteger h ≠ 0 ↔ d = true) :
    eBOperator h r x.2 x.1 = if r.isNa || x.2.isNa then .na false
      else .ofBool ((sets h x).getD d) := by
  obtain ⟨b, v⟩ := x
  unfold isLogical at hx
  rw [Bool.or_eq_true, decide_eq_true_iff, decide_eq_true_iff] at hx
  rcases hx with rfl | rfl
  · change SValue.and h r v = _
    unfold SValue.and sets
    by_cases hv : v.getInteger h = 0
    · cases r.isNa <;> cases v.isNa <;> simp [hv]
    · cases r.isNa <;> cases v.isNa <;> simp [hv, hr]
  · change SValue.or h r v = _
    unfold SValue.or sets
    by_cases hv : v.getInteger h = 0
    · cases r.isNa <;> cases v.isNa <;> simp [hv, hr]
    · cases r.isNa <;> cases v.isNa <;> simp [hv]

lemma strictFold_noNa (hl : logicalOnly l = true) :
    (strictFold h r l).isNa = !noNa r l ∧
      (noNa r l = true → ((strictFold h r l).getInteger h ≠ 0 ↔ lastSet h r l = true)) := by
  induction l using List.reverseRecOn with
  | nil =>
    unfold noNa lastSet
    simp [strictFold]
  | append_singleton l x ih =>
    unfold logicalOnly at hl ih
    rw [List.all_append, Bool.and_eq_true, List.all_cons, Bool.and_eq_true] at hl
    obtain ⟨hna, hint⟩ := ih hl.1
    rw [strictFold_concat, noNa_concat, lastSet_concat]
    cases hnoNa : noNa r l with
    | false =>
      rw [eBOperator_last hl.2.1 _ decide_eq_true_iff.symm, hna, hnoNa]
      exact ⟨rfl, fun hfalse => absurd hfalse Bool.false_ne_true⟩
    | true =>
      rw [eBOperator_last hl.2.1 _ (hint hnoNa), hna, hnoNa]
      cases x.2.isNa with
      | false => exact ⟨rfl, fun _ => getInteger_ofBool _⟩
      | true => exact ⟨rfl, fun hfalse => absurd hfalse Bool.false_ne_true⟩

lemma strictFold_logical (hl : logicalOnly l = true) (hne : l ≠ []) :
    strictFold h r l = if noNa r l then .ofBool (lastSet h r l) else .na false := by
  obtain ⟨l, x, rfl⟩ := (List.eq_nil_or_concat' l).resolve_left hne
  unfold logicalOnly at hl
  rw [List.all_append, Bool.and_eq_true, List.all_cons, Bool.and_eq_true] at hl
  obtain ⟨hna, hint⟩ := strictFold_noNa (h := h) (r := r) hl.1
  rw [strictFold_concat, noNa_concat, lastSet_concat]
  cases hnoNa : noNa r l with
  | false =>
    rw [eBOperator_last hl.2.1 _ decide_eq_true_iff.symm, hna, hnoNa]
    rfl
  | true =>
    rw [eBOperator_last hl.2.1 _ (hint hnoNa), hna, hnoNa]
    cases x.2.isNa with
    | false => rfl
    | true => rfl

lemma getBool_ofBool (b : Bool) : (SValue.ofBool b : SValue F).getBool h = b := by
  cases b with
  | false => rfl
  | true => rfl

lemma getBool_strictFold (hl : logicalOnly l = true) (hne : l ≠ []) :
    (strictFold h r l).getBool h = (noNa r l && lastSet h r l) := by
  rw [strictFold_logical hl hne]
  cases noNa r l with
  | false => rfl
  | true => exact getBool_ofBool _

lemma ofBool_eq_zero_iff (x : Int64) (n : Bool) :
    (if (SValue.int x n : SValue F).getBool h then (1 : Int64) else 0) = 0 ↔ x = 0 := by
  have hone : (1 : Int64) ≠ 0 := by decide
  unfold SValue.getBool
  by_cases hx : x = 0
  · simp [hx]
  · simp [hx, hone]

/-- Where `e` stays at a value, the operators behind it leave what is used of it. -/
lemma same_of_staysAt (hne : l ≠ []) (hstays : StaysAt h use r l) :
    Same h use r (strictFold h r l) := by
  obtain ⟨hl, hstays⟩ := hstays
  cases use with
  | truth => exact hstays.symm.trans (getBool_strictFold hl hne).symm
  | logic =>
    rw [strictFold_logical hl hne]
    rcases hstays with hna | ⟨hint, hnoNa, hset⟩
    · cases r with
      | na n =>
        have hnoNa : noNa (.na n : SValue F) l = false := rfl
        rw [hnoNa]
        exact .na n false
      | int | float | string | ip | list => cases hna
    · obtain ⟨x, n, rfl⟩ := exists_int hint
      rw [hnoNa, if_pos rfl, hset]
      exact .int n false (ofBool_eq_zero_iff x n).symm
  | value =>
    rw [strictFold_logical hl hne]
    rcases hstays with rfl | ⟨hbool, hnoNa, hset⟩
    · rfl
    · rw [hnoNa, if_pos rfl, hset]
      exact hbool

lemma isInt_of_joinOperands_ne {b : EOperator} {v : SValue F}
    (hne : joinOperands h r v b ≠ eBOperator h r v b) :
    (r.isInt = true ∧ v.isInt = true) ∧ (b = .or ∨ b = .sqlEq) := by
  have hint : r.isInt = true ∧ v.isInt = true := by
    by_contra hint
    exact hne (joinOperands_not_int hint)
  refine ⟨hint, ?_⟩
  obtain ⟨x, m, rfl⟩ := exists_int hint.1
  obtain ⟨y, n, rfl⟩ := exists_int hint.2
  by_contra hb
  rw [not_or] at hb
  exact hne (by rw [joinOperands_int, if_neg hb.1, if_neg hb.2])

lemma eBOperator_or (x y : Int64) (m n : Bool) :
    eBOperator h (.int x m) (.int y n) .or = .int (if x ≠ 0 ∨ y ≠ 0 then 1 else 0) false := by
  change SValue.or h (.int x m) (.int y n) = _
  by_cases hx : x = 0 <;> by_cases hy : y = 0 <;>
    simp [SValue.or, SValue.isNa, SValue.ofBool, SValue.getInteger, hx, hy]

lemma eBOperator_sqlEq (x y : Int64) (m n : Bool) :
    eBOperator h (.int x m) (.int y n) .sqlEq =
      .int (if (m || n) = false ∧ x = y then 1 else 0) false := by
  change SValue.eq h (.int x m) (.int y n) = _
  by_cases hxy : x = y <;> cases m <;> cases n <;>
    simp [SValue.eq, SValue.compare, SValue.null, SValue.ofBool, SValue.isIp, SValue.isFloat,
      SValue.isInt, SValue.getInteger, hxy]

/-- The two ways to join. -/
lemma same_join_of_joinsRight {b : EOperator} {v : SValue F} {ops : List EOperator}
    (hjoins : JoinsRight h use r v b ops) :
    Same h (startUse use ops) (joinOperands h r v b) (eBOperator h r v b) := by
  by_cases heq : joinOperands h r v b = eBOperator h r v b
  · exact .of_eq heq
  obtain ⟨hint, hb⟩ := isInt_of_joinOperands_ne heq
  obtain ⟨hnull, hequal⟩ := hjoins hint.1 hint.2
  obtain ⟨x, m, rfl⟩ := exists_int hint.1
  obtain ⟨y, n, rfl⟩ := exists_int hint.2
  have hlogic : SameLogic (joinOperands h (.int x m) (.int y n) b)
      (eBOperator h (.int x m) (.int y n) b) := by
    rcases hb with rfl | rfl
    · rw [joinOperands_int, if_pos rfl, eBOperator_or]
      exact .int m false Iff.rfl
    · rw [joinOperands_int, if_neg (by decide), if_pos rfl, eBOperator_sqlEq]
      refine .int m false ?_
      by_cases hxy : x = y
      · obtain ⟨hm, hn⟩ := hequal rfl hxy
        have hm : m = false := hm
        have hn : n = false := hn
        simp [hxy, hm, hn]
      · simp [hxy]
  by_cases hm : m = true
  · exact .of_logic hlogic (hnull hb hm)
  · rw [Bool.not_eq_true] at hm
    subst hm
    refine .of_eq ?_
    rcases hb with rfl | rfl
    · rw [joinOperands_int, if_pos rfl, eBOperator_or]
    · rw [joinOperands_int, if_neg (by decide), if_pos rfl, eBOperator_sqlEq]
      by_cases hxy : x = y
      · have hn : n = false := (hequal rfl hxy).2
        rw [hn]
        simp
      · simp [hxy]

/-- A group that ends right has the same value, for its use, in both ways. -/
lemma same_folds (hends : EndsRight h use r l) :
    Same h use (shortFold h r l) (strictFold h r l) := by
  induction l generalizing r with
  | nil => exact .of_eq rfl
  | cons x l ih =>
    rw [EndsRight] at hends
    rw [shortFold]
    split
    · rw [if_pos ‹_›] at hends
      exact same_of_staysAt (List.cons_ne_nil _ _) hends
    · rw [if_neg ‹_›] at hends
      exact (same_shortFold (sameMember_refl l) (same_join_of_joinsRight hends.1)).trans
        (ih hends.2)

lemma plain_of_logical (hl : logicalOnly l = true) : Plain h r l := by
  cases l with
  | nil => trivial
  | cons x l =>
    unfold logicalOnly at hl
    rw [List.all_cons, Bool.and_eq_true] at hl
    unfold Plain
    rw [if_pos hl.1]
    exact hl.2

lemma joinsRight_of_plain {b : EOperator} {v : SValue F} (hplain : Plain h r ((b, v) :: l)) :
    JoinsRight h .truth r v b (l.map Prod.fst) := by
  intro _ _
  unfold Plain at hplain
  split at hplain
  · refine ⟨?_, ?_⟩
    · intro _ _
      unfold startUse
      split
      · decide
      · rw [if_pos ⟨by decide, by rw [List.all_map]; exact hplain⟩]
        decide
    · rintro rfl
      cases ‹isLogical .sqlEq = true›
  · refine ⟨?_, fun hb _ => hplain.1 hb⟩
    rintro (rfl | rfl) hnull
    · exact absurd rfl ‹_›
    · exact absurd ((hplain.1 rfl).1.symm.trans hnull) Bool.false_ne_true

/-- For the truth value of such groups, the condition is exact. -/
lemma endsRight_iff (hplain : Plain h r l) : EndsRight h .truth r l ↔
    (shortFold h r l).getBool h = (strictFold h r l).getBool h := by
  refine ⟨same_folds, fun hbool => ?_⟩
  induction l generalizing r with
  | nil => trivial
  | cons x l ih =>
    obtain ⟨b, v⟩ := x
    rw [shortFold] at hbool
    rw [EndsRight]
    split
    · rw [if_pos ‹_›] at hbool
      have hb : isLogical b = true := isLogical_of_endsAt ‹_›
      have hl : logicalOnly ((b, v) :: l) = true := by
        unfold Plain at hplain
        rw [if_pos hb] at hplain
        unfold logicalOnly
        rw [List.all_cons, hb]
        exact hplain
      exact ⟨hl, ((getBool_strictFold hl (List.cons_ne_nil _ _)).symm.trans hbool.symm)⟩
    · rw [if_neg ‹_›] at hbool
      have hjoins := joinsRight_of_plain hplain
      have hsame : Same h .truth (shortFold h (joinOperands h r v b) l)
          (shortFold h (eBOperator h r v b) l) :=
        same_shortFold (sameMember_refl l) (same_join_of_joinsRight hjoins)
      refine ⟨hjoins, ih ?_ (hsame.symm.trans hbool)⟩
      unfold Plain at hplain
      split at hplain
      · exact plain_of_logical hplain
      · exact hplain.2

end Folds

end VoipMonitor.EvalFormula
