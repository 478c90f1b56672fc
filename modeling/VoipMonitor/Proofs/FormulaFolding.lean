import VoipMonitor.Proofs.FormulaGroups

/-!
# What `e_opt` keeps

`e_opt` never replaces a group with a field or subselect. Where the groups of constants end right
for the use that the operators around them make of their values, every tree has the same truth
value before and after. For a group of constants alone the condition is exact.
-/

namespace VoipMonitor.EvalFormula
open VoipMonitor.Library

variable {F : Type} (h : Host F)

/-! ## Groups of constants -/

mutual

/-- The fields and subselects of a tree, in their order. -/
def specs : Operands F → List SpecOperand
  | .const _ => []
  | .spec field => [field]
  | .group _ t rest => specs t ++ restSpecs rest

def restSpecs : Rest F → List SpecOperand
  | .nil => []
  | .cons _ _ t rest => specs t ++ restSpecs rest

end

def hasSpec (t : Operands F) : Bool := !(specs t).isEmpty

def restHasSpec (rest : Rest F) : Bool := !(restSpecs rest).isEmpty

lemma hasSpec_group (u : EOperator) (t : Operands F) (rest : Rest F) :
    hasSpec (.group u t rest) = (hasSpec t || restHasSpec rest) := by
  unfold hasSpec restHasSpec
  cases hspecs : specs t <;> simp [specs, hspecs]

lemma restHasSpec_cons (b u : EOperator) (t : Operands F) (rest : Rest F) :
    restHasSpec (.cons b u t rest) = (hasSpec t || restHasSpec rest) := by
  unfold hasSpec restHasSpec
  cases hspecs : specs t <;> simp [restSpecs, hspecs]

lemma specs_eq_nil {t : Operands F} (hspec : hasSpec t = false) : specs t = [] := by
  rw [hasSpec, Bool.not_eq_false'] at hspec
  exact List.isEmpty_iff.mp hspec

mutual

/-- The value of a tree of constants by its operators; a field or subselect has none. -/
def constValue : Operands F → SValue F
  | .const value => value
  | .spec _ => .na false
  | .group u t rest => strictFold h (applyU h u (constValue t)) (constRest rest)

def constRest : Rest F → List (Member F)
  | .nil => []
  | .cons b u t rest => (b, applyU h u (constValue t)) :: constRest rest

end

def restOps : Rest F → List EOperator
  | .nil => []
  | .cons b _ _ rest => b :: restOps rest

mutual

/-- Each group without fields and subselects ends right for what is used of its value. -/
def FoldsRight (use : Use) : Operands F → Prop
  | .const _ => True
  | .spec _ => True
  | .group u t rest =>
    FoldsRight (unaryUse u (startUse use (restOps rest))) t ∧ RestFoldsRight rest ∧
      (hasSpec t = false → restHasSpec rest = false →
        EndsRight h use (applyU h u (constValue h t)) (constRest h rest))

def RestFoldsRight : Rest F → Prop
  | .nil => True
  | .cons b u t rest => FoldsRight (unaryUse u (operandUse b)) t ∧ RestFoldsRight rest

end

/-- A group of constants whose sub-groups end right, with `and` and `or` behind the other
operators. -/
def PlainGroup : Operands F → Prop
  | .group u t rest => hasSpec t = false ∧ restHasSpec rest = false ∧
      FoldsRight h (unaryUse u (startUse .truth (restOps rest))) t ∧ RestFoldsRight h rest ∧
      Plain h (applyU h u (constValue h t)) (constRest h rest)
  | _ => False

/-- The values of the operands behind the first one. -/
def operandValues (a : Assignment F) : Rest F → List (Member F)
  | .nil => []
  | .cons b u t rest => (b, applyU h u (e h a t).1) :: operandValues a rest

section
variable {a probe : Assignment F}

/-! ## What is replaced -/

mutual

lemma existsSpecType_eOpt : ∀ t : Operands F, (eOpt h probe t).existsSpecType = hasSpec t
  | .const _ => rfl
  | .spec _ => rfl
  | .group u t rest => by
    have ht := existsSpecType_eOpt t
    have hrest := existsSpecType_eOptRest (applyU h u (eOpt h probe t).value) rest
    rw [eOpt, hasSpec_group, ht, hrest]
    split
    · rename_i hspec
      exact (Bool.or_eq_true _ _ |>.mpr hspec).symm
    · rename_i hspec
      exact (Bool.eq_false_iff.mpr (fun hor => hspec ((Bool.or_eq_true _ _).mp hor))).symm

lemma existsSpecType_eOptRest : ∀ (rslt : SValue F) (rest : Rest F),
    (eOptRest h probe rslt rest).existsSpecType = restHasSpec rest
  | _, .nil => rfl
  | rslt, .cons b u t rest => by
    have ht := existsSpecType_eOpt t
    have hrest := existsSpecType_eOptRest
      (eBOperator h rslt (applyU h u (eOpt h probe t).value) b) rest
    rw [eOptRest, restHasSpec_cons]
    rw [ht, hrest]

end

lemma eOpt_group_spec {u : EOperator} {t : Operands F} {rest : Rest F}
    (hspec : hasSpec (.group u t rest) = true) : (eOpt h probe (.group u t rest)).tree =
      .group (settle h u t (eOpt h probe t).value (eOpt h probe t).tree).1
        (settle h u t (eOpt h probe t).value (eOpt h probe t).tree).2
        (eOptRest h probe (applyU h u (eOpt h probe t).value) rest).tree := by
  rw [hasSpec_group, Bool.or_eq_true] at hspec
  rw [eOpt, existsSpecType_eOpt, existsSpecType_eOptRest, if_pos hspec]

lemma eOpt_group_const {u : EOperator} {t : Operands F} {rest : Rest F}
    (hspec : hasSpec (.group u t rest) = false) : (eOpt h probe (.group u t rest)).tree =
      .const (eOptRest h probe (applyU h u (eOpt h probe t).value) rest).value := by
  rw [hasSpec_group, Bool.or_eq_false_iff] at hspec
  rw [eOpt, existsSpecType_eOpt, existsSpecType_eOptRest, hspec.1, hspec.2, if_neg (by simp)]

/-! ## The fields and subselects -/

lemma specs_settle (u : EOperator) (t : Operands F) (v : SValue F) {t' : Operands F}
    (ht : specs t' = specs t) : specs (settle h u t v t').2 = specs t := by
  cases t with
  | const c => rfl
  | spec field => exact ht
  | group u' t rest => exact ht

mutual

lemma specs_eOpt : ∀ t : Operands F, specs (eOpt h probe t).tree = specs t
  | .const _ => rfl
  | .spec _ => rfl
  | .group u t rest => by
    cases hspec : hasSpec (.group u t rest) with
    | true =>
      rw [eOpt_group_spec h hspec, specs, specs_settle h u t _ (specs_eOpt t),
        restSpecs_eOptRest _ rest, specs]
    | false =>
      rw [eOpt_group_const h hspec, specs_eq_nil hspec]
      rfl

lemma restSpecs_eOptRest : ∀ (rslt : SValue F) (rest : Rest F),
    restSpecs (eOptRest h probe rslt rest).tree = restSpecs rest
  | _, .nil => rfl
  | rslt, .cons b u t rest => by
    rw [eOptRest, restSpecs, specs_settle h u t _ (specs_eOpt t), restSpecs_eOptRest _ rest,
      restSpecs]

end

mutual

lemma specs_e : ∀ t : Operands F, specs (e h a t).2 = specs t
  | .const _ => rfl
  | .spec _ => rfl
  | .group u t rest => by
    rw [e, specs, specs_settle h u t _ (specs_e t), restSpecs_eRest _ rest, specs]

lemma restSpecs_eRest : ∀ (rslt : SValue F) (rest : Rest F),
    restSpecs (eRest h a rslt rest).2 = restSpecs rest
  | _, .nil => rfl
  | rslt, .cons b u t rest => by
    rw [eRest]
    split
    · rfl
    · rw [restSpecs, specs_settle h u t _ (specs_e t), restSpecs_eRest _ rest, restSpecs]

end

/-! ## The values of constants -/

mutual

lemma value_eOpt : ∀ {t : Operands F}, hasSpec t = false →
    (eOpt h probe t).value = constValue h t
  | .const _, _ => rfl
  | .spec _, hspec => by cases hspec
  | .group u t rest, hspec => by
    rw [hasSpec_group, Bool.or_eq_false_iff] at hspec
    rw [eOpt, constValue, ← value_eOpt hspec.1, ← value_eOptRest _ hspec.2]
    split
    · rfl
    · rfl

lemma value_eOptRest : ∀ (rslt : SValue F) {rest : Rest F}, restHasSpec rest = false →
    (eOptRest h probe rslt rest).value = strictFold h rslt (constRest h rest)
  | _, .nil, _ => rfl
  | rslt, .cons b u t rest, hspec => by
    rw [restHasSpec_cons, Bool.or_eq_false_iff] at hspec
    rw [eOptRest, constRest, strictFold, value_eOpt hspec.1, value_eOptRest _ hspec.2]

end

lemma ops_constRest : ∀ rest : Rest F, (constRest h rest).map Prod.fst = restOps rest
  | .nil => rfl
  | .cons b u t rest => by rw [constRest, restOps, List.map_cons, ops_constRest rest]

lemma ops_operandValues : ∀ rest : Rest F, (operandValues h a rest).map Prod.fst = restOps rest
  | .nil => rfl
  | .cons b u t rest => by rw [operandValues, restOps, List.map_cons, ops_operandValues rest]

lemma value_eRest : ∀ (rslt : SValue F) (rest : Rest F),
    (eRest h a rslt rest).1 = shortFold h rslt (operandValues h a rest)
  | _, .nil => rfl
  | rslt, .cons b u t rest => by
    rw [eRest, operandValues, shortFold]
    split
    · rfl
    · exact value_eRest _ rest

lemma value_e_group (u : EOperator) (t : Operands F) (rest : Rest F) :
    (e h a (.group u t rest)).1 =
      shortFold h (applyU h u (e h a t).1) (operandValues h a rest) := by
  rw [e]
  exact value_eRest h _ rest

mutual

lemma value_e : ∀ {use : Use} {t : Operands F}, hasSpec t = false → FoldsRight h use t →
    Same h use (e h a t).1 (constValue h t)
  | _, .const _, _, _ => .of_eq rfl
  | _, .spec _, hspec, _ => by cases hspec
  | use, .group u t rest, hspec, hright => by
    rw [hasSpec_group, Bool.or_eq_false_iff] at hspec
    have hfirst := value_e hspec.1 hright.1
    rw [← ops_operandValues h (a := a) rest] at hfirst
    rw [value_e_group, constValue]
    exact (same_shortFold (value_rest hspec.2 hright.2.1) (same_applyU hfirst)).trans
      (same_folds (hright.2.2 hspec.1 hspec.2))

lemma value_rest : ∀ {rest : Rest F}, restHasSpec rest = false → RestFoldsRight h rest →
    List.Forall₂ (SameMember h) (operandValues h a rest) (constRest h rest)
  | .nil, _, _ => .nil
  | .cons b u t rest, hspec, hright => by
    rw [restHasSpec_cons, Bool.or_eq_false_iff] at hspec
    rw [operandValues, constRest]
    exact .cons ⟨rfl, same_applyU (value_e hspec.1 hright.1)⟩ (value_rest hspec.2 hright.2)

end

/-! ## The values of trees -/

lemma same_settle {use : Use} (u : EOperator) {t t' : Operands F} {v : SValue F}
    (ht : Same h (unaryUse u use) (e h a t').1 (e h a t).1) (hv : ∀ c, t = .const c → v = c) :
    Same h use (applyU h (settle h u t v t').1 (e h a (settle h u t v t').2).1)
      (applyU h u (e h a t).1) := by
  cases t with
  | const c =>
    rw [hv c rfl]
    exact .of_eq (if_pos rfl)
  | spec field => exact same_applyU ht
  | group u' t rest => exact same_applyU ht

lemma value_eOpt_const (probe : Assignment F) (c : SValue F) (t : Operands F) (ht : t = .const c) :
    (eOpt h probe t).value = c := by
  rw [ht]
  rfl

lemma value_e_const (c : SValue F) (t : Operands F) (ht : t = .const c) :
    (e h a t).1 = c := by
  rw [ht]
  rfl

mutual

lemma value_e_eOpt : ∀ {use : Use} {t : Operands F}, FoldsRight h use t →
    Same h use (e h a (eOpt h probe t).tree).1 (e h a t).1
  | _, .const _, _ => .of_eq rfl
  | _, .spec _, _ => .of_eq rfl
  | use, .group u t rest, hright => by
    cases hspec : hasSpec (.group u t rest) with
    | true =>
      have hrest := value_rest_eOptRest (applyU h u (eOpt h probe t).value) hright.2.1
      have hfirst := same_settle h u (value_e_eOpt hright.1)
        (fun c ht => value_eOpt_const h probe c t ht)
      rw [← ops_operandValues h (a := a) rest, ← ops_forall₂ hrest] at hfirst
      rw [eOpt_group_spec h hspec, value_e_group, value_e_group]
      exact same_shortFold hrest hfirst
    | false =>
      have hvalue := value_e h (a := a) hspec hright
      rw [eOpt_group_const h hspec]
      rw [constValue] at hvalue
      rw [hasSpec_group, Bool.or_eq_false_iff] at hspec
      rw [value_eOpt h hspec.1, value_eOptRest h _ hspec.2]
      exact hvalue.symm

lemma value_rest_eOptRest : ∀ (probed : SValue F) {rest : Rest F}, RestFoldsRight h rest →
    List.Forall₂ (SameMember h) (operandValues h a (eOptRest h probe probed rest).tree)
      (operandValues h a rest)
  | _, .nil, _ => .nil
  | probed, .cons b u t rest, hright => by
    have hfirst := same_settle h u (value_e_eOpt hright.1)
      (fun c ht => value_eOpt_const h probe c t ht)
    rw [eOptRest, operandValues, operandValues]
    exact .cons ⟨rfl, hfirst⟩ (value_rest_eOptRest _ hright.2)

end

mutual

lemma value_e_e {b : Assignment F} : ∀ t : Operands F, (e h b (e h a t).2).1 = (e h b t).1
  | .const _ => rfl
  | .spec _ => rfl
  | .group u t rest => by
    have hfirst : Same h .value _ _ := same_settle h u (.of_eq (value_e_e (b := b) t))
      (fun c ht => value_e_const (a := a) h c t ht)
    rw [e.eq_3 h a, value_e_group, value_e_group, value_rest_eRest _ rest]
    exact congrArg (fun v => shortFold h v (operandValues h b rest)) hfirst

lemma value_rest_eRest {b : Assignment F} : ∀ (rslt : SValue F) (rest : Rest F),
    operandValues h b (eRest h a rslt rest).2 = operandValues h b rest
  | _, .nil => rfl
  | rslt, .cons o u t rest => by
    have hfirst : Same h .value _ _ := same_settle h u (.of_eq (value_e_e (b := b) t))
      (fun c ht => value_e_const (a := a) h c t ht)
    rw [eRest]
    split
    · rfl
    · rw [operandValues, operandValues, value_rest_eRest _ rest]
      exact congrArg (fun v => (o, v) :: operandValues h b rest) hfirst

end

/-! ## The groups of the tree that is left -/

lemma hasSpec_settle (u : EOperator) (t : Operands F) (v : SValue F) {t' : Operands F}
    (ht : specs t' = specs t) : hasSpec (settle h u t v t').2 = hasSpec t := by
  rw [hasSpec, hasSpec, specs_settle h u t v ht]

lemma restHasSpec_eRest (rslt : SValue F) (rest : Rest F) :
    restHasSpec (eRest h a rslt rest).2 = restHasSpec rest := by
  rw [restHasSpec, restHasSpec, restSpecs_eRest]

lemma restHasSpec_eOptRest (rslt : SValue F) (rest : Rest F) :
    restHasSpec (eOptRest h probe rslt rest).tree = restHasSpec rest := by
  rw [restHasSpec, restHasSpec, restSpecs_eOptRest]

lemma constValue_settle (u : EOperator) {t t' : Operands F} {v : SValue F}
    (ht : constValue h t' = constValue h t) (hv : ∀ c, t = .const c → v = c) :
    applyU h (settle h u t v t').1 (constValue h (settle h u t v t').2) =
      applyU h u (constValue h t) := by
  cases t with
  | const c =>
    rw [hv c rfl]
    exact if_pos rfl
  | spec field => exact congrArg (applyU h u) ht
  | group u' t rest => exact congrArg (applyU h u) ht

mutual

lemma constValue_e : ∀ t : Operands F, constValue h (e h a t).2 = constValue h t
  | .const _ => rfl
  | .spec _ => rfl
  | .group u t rest => by
    have hfirst := constValue_settle h u (constValue_e t)
      (fun c ht => value_e_const (a := a) h c t ht)
    rw [e, constValue, constValue, hfirst, constRest_eRest _ rest]

lemma constRest_eRest : ∀ (rslt : SValue F) (rest : Rest F),
    constRest h (eRest h a rslt rest).2 = constRest h rest
  | _, .nil => rfl
  | rslt, .cons b u t rest => by
    have hfirst := constValue_settle h u (constValue_e t)
      (fun c ht => value_e_const (a := a) h c t ht)
    rw [eRest]
    split
    · rfl
    · rw [constRest, constRest, hfirst, constRest_eRest _ rest]

end

lemma restOps_eRest : ∀ (rslt : SValue F) (rest : Rest F),
    restOps (eRest h a rslt rest).2 = restOps rest
  | _, .nil => rfl
  | rslt, .cons b u t rest => by
    rw [eRest]
    split
    · rfl
    · rw [restOps, restOps, restOps_eRest _ rest]

lemma restOps_eOptRest : ∀ (rslt : SValue F) (rest : Rest F),
    restOps (eOptRest h probe rslt rest).tree = restOps rest
  | _, .nil => rfl
  | rslt, .cons b u t rest => by rw [eOptRest, restOps, restOps, restOps_eOptRest _ rest]

/-- A constant ends right for every use, so its operator may have been applied to it. -/
lemma foldsRight_settle {use : Use} (u : EOperator) (t : Operands F) (v : SValue F)
    {t' : Operands F} (ht : FoldsRight h (unaryUse u use) t') :
    FoldsRight h (unaryUse (settle h u t v t').1 use) (settle h u t v t').2 := by
  cases t with
  | const c => trivial
  | spec field => exact ht
  | group u' t rest => exact ht

mutual

lemma foldsRight_e : ∀ {use : Use} {t : Operands F}, FoldsRight h use t →
    FoldsRight h use (e h a t).2
  | _, .const _, _ => trivial
  | _, .spec _, _ => trivial
  | use, .group u t rest, hright => by
    rw [e, FoldsRight, restOps_eRest]
    refine ⟨foldsRight_settle h u t _ (foldsRight_e hright.1), restFoldsRight_eRest _ hright.2.1, ?_⟩
    intro ht hrest
    have hfirst := constValue_settle h u (constValue_e (a := a) h t)
      (fun c ht => value_e_const (a := a) h c t ht)
    rw [hasSpec_settle h u t _ (specs_e h t)] at ht
    rw [restHasSpec_eRest] at hrest
    rw [hfirst, constRest_eRest]
    exact hright.2.2 ht hrest

lemma restFoldsRight_eRest : ∀ (rslt : SValue F) {rest : Rest F}, RestFoldsRight h rest →
    RestFoldsRight h (eRest h a rslt rest).2
  | _, .nil, _ => trivial
  | rslt, .cons b u t rest, hright => by
    rw [eRest]
    split
    · exact hright
    · exact ⟨foldsRight_settle h u t _ (foldsRight_e hright.1), restFoldsRight_eRest _ hright.2⟩

end

mutual

lemma foldsRight_eOpt : ∀ {use : Use} {t : Operands F}, FoldsRight h use t →
    FoldsRight h use (eOpt h probe t).tree
  | _, .const _, _ => trivial
  | _, .spec _, _ => trivial
  | use, .group u t rest, hright => by
    cases hspec : hasSpec (.group u t rest) with
    | true =>
      rw [eOpt_group_spec h hspec, FoldsRight, restOps_eOptRest]
      refine ⟨foldsRight_settle h u t _ (foldsRight_eOpt hright.1),
        restFoldsRight_eOptRest _ hright.2.1, ?_⟩
      intro ht hrest
      rw [hasSpec_settle h u t _ (specs_eOpt h t)] at ht
      rw [restHasSpec_eOptRest] at hrest
      rw [hasSpec_group, ht, hrest] at hspec
      exact absurd hspec Bool.false_ne_true
    | false =>
      rw [eOpt_group_const h hspec]
      trivial

lemma restFoldsRight_eOptRest : ∀ (rslt : SValue F) {rest : Rest F}, RestFoldsRight h rest →
    RestFoldsRight h (eOptRest h probe rslt rest).tree
  | _, .nil, _ => trivial
  | rslt, .cons b u t rest, hright => by
    rw [eOptRest]
    exact ⟨foldsRight_settle h u t _ (foldsRight_eOpt hright.1),
      restFoldsRight_eOptRest _ hright.2⟩

end

end

/-! ## Runs of calls -/

lemma specs_leave (t : Operands F) (call : Call F) : specs (call.leave h t) = specs t := by
  cases call with
  | e a => exact specs_e h t
  | eOpt probe => exact specs_eOpt h t

section
variable {use : Use} {t : Operands F}

lemma foldsRight_leave (hright : FoldsRight h use t) (call : Call F) :
    FoldsRight h use (call.leave h t) := by
  cases call with
  | e a => exact foldsRight_e h hright
  | eOpt probe => exact foldsRight_eOpt h hright

lemma value_leave (hright : FoldsRight h use t) (call : Call F) (a : Assignment F) :
    Same h use (e h a (call.leave h t)).1 (e h a t).1 := by
  cases call with
  | e b => exact .of_eq (value_e_e h t)
  | eOpt probe => exact value_e_eOpt h hright

lemma value_calls (calls : List (Call F)) (a : Assignment F) (hright : FoldsRight h use t) :
    Same h use (e h a (calls.foldl (Call.leave h) t)).1 (e h a t).1 := by
  induction calls generalizing t with
  | nil => exact .of_eq rfl
  | cons call calls ih =>
    exact (ih (foldsRight_leave h hright call)).trans (value_leave h hright call a)

end

lemma specs_calls (calls : List (Call F)) (t : Operands F) :
    specs (calls.foldl (Call.leave h) t) = specs t := by
  induction calls generalizing t with
  | nil => rfl
  | cons call calls ih => rw [List.foldl_cons, ih, specs_leave]

/-- The calls of `e` and `e_opt` keep the truth value of a tree for every assignment. -/
def KeepsTruth (t : Operands F) : Prop :=
  ∀ (calls : List (Call F)) (a : Assignment F),
    (e h a (calls.foldl (Call.leave h) t)).1.getBool h = (e h a t).1.getBool h

lemma foldsRight_of_keepsTruth {t : Operands F} (hplain : PlainGroup h t)
    (hkeeps : KeepsTruth h t) : FoldsRight h .truth t := by
  cases t with
  | const value => cases hplain
  | spec field => cases hplain
  | group u t rest =>
    obtain ⟨ht, hrest, hright, hrestRight, hplain⟩ := hplain
    refine ⟨hright, hrestRight, fun _ _ => (endsRight_iff hplain).mpr ?_⟩
    have hspec : hasSpec (.group u t rest) = false := by rw [hasSpec_group, ht, hrest]; rfl
    let a : Assignment F := fun _ => .na false
    -- `e` gives the one value and the constant of `e_opt` is the other one.
    have hfirst := value_e h (a := a) ht hright
    rw [← ops_operandValues h (a := a) rest] at hfirst
    have hshort : Same h .truth _ _ :=
      same_shortFold (value_rest h (a := a) hrest hrestRight) (same_applyU hfirst)
    have hkept := hkeeps [.eOpt a] a
    rw [List.foldl_cons, List.foldl_nil, Call.leave, eOpt_group_const h hspec, value_e_group,
      value_eOpt h ht, value_eOptRest h _ hrest] at hkept
    exact hshort.symm.trans hkept.symm

/-- No calls replace a field or subselect, and they keep the truth value of a tree whose groups of
constants end right. For a group of constants alone it is kept only then. -/
theorem keeps_iff (t : Operands F) :
    (∀ calls : List (Call F), specs (calls.foldl (Call.leave h) t) = specs t) ∧
    (FoldsRight h .truth t → KeepsTruth h t) ∧
    (PlainGroup h t → KeepsTruth h t → FoldsRight h .truth t) :=
  ⟨fun calls => specs_calls h calls t, fun hright calls a => value_calls h calls a hright,
    foldsRight_of_keepsTruth h⟩

def wholeNumbers : Host Int where
  ofInt v := v.toInt
  toInt v := Int64.ofInt v
  isSet v := v ≠ 0
  mult := (· * ·)
  div := Int.tdiv
  add := (· + ·)
  sub := (· - ·)
  lt v w := v < w
  le v w := v ≤ w
  eq v w := v = w
  intOfText _ := 0
  floatOfText _ := 0
  textOfInt _ := []
  textOfFloat _ := []
  ipOfText _ := .v4 0
  textOfIp _ := []
  like _ _ := false

def constant (v : Int64) : Operands Int := .const (.int v false)

def sumGroup : Operands Int := .group .na (constant 1) (.cons .add .na (constant 2) .nil)

def orGroup : Operands Int := .group .na (constant 2) (.cons .or .na (constant 1) .nil)

/-- The formula `x = (1 + 2) and (2 or 1)` with a field. The last group is 2 for `e` and 1 for
`e_opt`. -/
def sumFormula : Operands Int :=
  .group .na (.spec 1) (.cons .sqlEq .na sumGroup (.cons .and .na orGroup .nil))

theorem keeps_sum : KeepsTruth wholeNumbers sumFormula := by
  have hsum : FoldsRight wholeNumbers .value sumGroup := by
    refine ⟨trivial, ⟨trivial, trivial⟩, fun _ _ => ?_⟩
    have hjoins : JoinsRight wholeNumbers .value (.int 1 false) (.int 2 false) .add [] := by
      intro _ _
      exact ⟨fun hb => absurd hb (by decide), fun hb => absurd hb (by decide)⟩
    exact ⟨hjoins, trivial⟩
  have hor : FoldsRight wholeNumbers .logic orGroup :=
    ⟨trivial, ⟨trivial, trivial⟩, fun _ _ => ⟨rfl, Or.inr ⟨rfl, rfl, rfl⟩⟩⟩
  exact (keeps_iff wholeNumbers sumFormula).2.1
    ⟨trivial, ⟨hsum, hor, trivial⟩, fun hspec => absurd hspec (by decide)⟩

def endedFormula : Operands Int :=
  .group .na (constant 0) (.cons .and .na (constant 1) (.cons .or .na (constant 1) .nil))

theorem not_keeps_ended : ¬ ∀ t : Operands Int, KeepsTruth wholeNumbers t := by
  intro hkeeps
  have hended := hkeeps endedFormula [.eOpt (fun _ => .na false)] (fun _ => .na false)
  exact absurd hended (by decide)

end VoipMonitor.EvalFormula
