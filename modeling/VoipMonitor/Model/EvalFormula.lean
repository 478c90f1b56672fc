import VoipMonitor.Library.Bytes
import VoipMonitor.Model.CallsHash

/-!
# Formulas of chart filters (`cEvalFormula`, `tools.cpp`, `tools.h`)

A filter is parsed once into a tree of operands. `e` evaluates the tree for a call, and `e_opt`
replaces the parts of it that are the same for all calls by their values. Both change the tree:
a unary operator of a constant is applied to it in place. In all calls of `e_opt` the data of a
call are set, so an operand that is a field or a subselect is one.
-/

namespace VoipMonitor.EvalFormula
open VoipMonitor.Library VoipMonitor.CallsHash

/-! ## Values -/

/-- What values are made of by others: floating point numbers, texts of numbers and addresses, and
the patterns of `like`. -/
structure Host (F : Type) where
  ofInt : Int64 → F
  toInt : F → Int64
  isSet : F → Bool
  mult : F → F → F
  div : F → F → F
  add : F → F → F
  sub : F → F → F
  lt : F → F → Bool
  le : F → F → Bool
  eq : F → F → Bool
  intOfText : Bytes → Int64
  floatOfText : Bytes → F
  textOfInt : Int64 → Bytes
  textOfFloat : F → Bytes
  ipOfText : Bytes → VmIP
  textOfIp : VmIP → Bytes
  like : Bytes → Bytes → Bool

/-- `sValue` with its `v_null`. The results of arithmetic on texts, addresses and lists have no
content. -/
inductive SValue (F : Type) where
  | na (null : Bool)
  | int (v : Int64) (null : Bool)
  | float (v : F) (null : Bool)
  | string (v : Option Bytes) (null : Bool)
  | ip (v : Option VmIP) (null : Bool)
  | list (v : Option (List (SValue F))) (null : Bool)

inductive EOperator where
  | na | shiftL | shiftR | bAnd | bOr | mult | div | add | sub
  | cmpLt | cmpLe | cmpGt | cmpGe | cmpEq | cmpNeq | like | notLike | and | or | not
  | sqlDiv | sqlIs | sqlIsNot | sqlEq | sqlIn | sqlNotIn | sqlComma
  | sqlInetAton | sqlInet6Aton | sqlCoalesce | sqlGreatest | sqlLeast | sqlIf
deriving DecidableEq, Repr

variable {F : Type} (h : Host F)

namespace SValue

def null : SValue F → Bool
  | .na n | .int _ n | .float _ n | .string _ n | .ip _ n | .list _ n => n

def ofBool (b : Bool) : SValue F := .int (if b then 1 else 0) false

def isNa : SValue F → Bool
  | .na _ => true
  | _ => false

def isIp : SValue F → Bool
  | .ip .. => true
  | _ => false

def isFloat : SValue F → Bool
  | .float .. => true
  | _ => false

def isInt : SValue F → Bool
  | .int .. => true
  | _ => false

def isString : SValue F → Bool
  | .string .. => true
  | _ => false

def getBool : SValue F → Bool
  | .int v _ => v ≠ 0
  | .float v _ => h.isSet v
  | .string (some v) _ => v ≠ []
  | .ip (some v) _ => v.isSet
  | _ => false

def getInteger : SValue F → Int64
  | .int v _ => v
  | .float v _ => h.toInt v
  | .string (some v) _ => h.intOfText v
  | _ => 0

def getFloat : SValue F → F
  | .int v _ => h.ofInt v
  | .float v _ => v
  | .string (some v) _ => h.floatOfText v
  | _ => h.ofInt 0

def getString : SValue F → Bytes
  | .int v _ => h.textOfInt v
  | .float v _ => h.textOfFloat v
  | .string (some v) _ => v
  | .ip (some v) _ => h.textOfIp v
  | _ => []

def getIP : SValue F → VmIP
  | .int v _ => .v4 v.toUInt64.toUInt32
  | .string (some v) _ => h.ipOfText v
  | .ip (some v) _ => v
  | _ => .v4 0

/-- `arithm` with one of its operators: the operator on integers and on floating point numbers.
A division by 0 is 0 for values of one type, and no value otherwise. -/
def arithm (intOp : Int64 → Int64 → Int64) (floatOp : F → F → F) (isDiv : Bool)
    (v1 v2 : SValue F) : SValue F :=
  match v1, v2 with
  | .na _, _ | _, .na _ => .na false
  | .int a _, .int b _ => .int (if isDiv ∧ b = 0 then 0 else intOp a b) false
  | .float a _, .float b _ =>
    .float (if isDiv ∧ h.isSet b = false then h.ofInt 0 else floatOp a b) false
  | .string .., .string .. => .string none false
  | .ip .., .ip .. => .ip none false
  | .list .., .list .. => .list none false
  | v1, v2 =>
    if isDiv ∧ h.isSet (v2.getFloat h) = false then .na false
    else .float (floatOp (v1.getFloat h) (v2.getFloat h)) false

/-- The comparisons: by the first type of the two that is an address, a floating point number, an
integer or a text. -/
def compare (ipOp : VmIP → VmIP → Bool) (floatOp : F → F → Bool) (intOp : Int64 → Int64 → Bool)
    (textOp : Bytes → Bytes → Bool) (v1 v2 : SValue F) : SValue F :=
  if v1.null ∨ v2.null then ofBool false
  else if v1.isIp ∨ v2.isIp then ofBool (ipOp (v1.getIP h) (v2.getIP h))
  else if v1.isFloat ∨ v2.isFloat then ofBool (floatOp (v1.getFloat h) (v2.getFloat h))
  else if v1.isInt ∨ v2.isInt then ofBool (intOp (v1.getInteger h) (v2.getInteger h))
  else if v1.isString ∨ v2.isString then ofBool (textOp (v1.getString h) (v2.getString h))
  else if v1.isNa = false ∧ v2.isNa = false then
    ofBool (intOp (v1.getInteger h) (v2.getInteger h))
  else .na false

def lt : SValue F → SValue F → SValue F :=
  compare h VmIP.lt h.lt (fun a b => a < b) (fun a b => a < b)

def le : SValue F → SValue F → SValue F :=
  compare h (fun a b => a.lt b || a = b) h.le (fun a b => a ≤ b) (fun a b => a < b || a = b)

def gt : SValue F → SValue F → SValue F :=
  compare h (fun a b => !(a.lt b || a = b)) (fun a b => h.lt b a) (fun a b => b < a)
    (fun a b => b < a)

def ge : SValue F → SValue F → SValue F :=
  compare h (fun a b => !(a.lt b || a = b) || a = b) (fun a b => h.le b a) (fun a b => b ≤ a)
    (fun a b => b < a || a = b)

def eq : SValue F → SValue F → SValue F :=
  compare h (fun a b => a = b) h.eq (fun a b => a = b) (fun a b => a = b)

def neq : SValue F → SValue F → SValue F :=
  compare h (fun a b => a ≠ b) (fun a b => !h.eq a b) (fun a b => a ≠ b) (fun a b => a ≠ b)

def like (v pattern : SValue F) : SValue F :=
  match pattern with
  | .string (some p) _ => ofBool (p ≠ [] && h.like (v.getString h) p)
  | _ => ofBool false

/-- `operator !`: it also turns `v_null` round. -/
def not (v : SValue F) : SValue F :=
  if v.isNa then .na false else .int (if v.getBool h then 0 else 1) (!v.null)

/-- `operator &&` and `operator ||`: they look at the integers. -/
def and (v1 v2 : SValue F) : SValue F :=
  if v1.isNa = false ∧ v2.isNa = false then
    ofBool (v1.getInteger h ≠ 0 && v2.getInteger h ≠ 0)
  else .na false

def or (v1 v2 : SValue F) : SValue F :=
  if v1.isNa = false ∧ v2.isNa = false then
    ofBool (v1.getInteger h ≠ 0 || v2.getInteger h ≠ 0)
  else .na false

end SValue

/-! ## Operators -/

/-- The first of two or more values is compared with the second one alone. -/
def greatestOrLeast (greatest : Bool) : List (SValue F) → SValue F
  | [] => .na true
  | [_] => .na false
  | v :: w :: _ => if ((if greatest then w.gt h v else w.lt h v).getBool h) then w else v

def eUOperator (operand : SValue F) : EOperator → SValue F
  | .not => operand.not h
  | .sqlInetAton | .sqlInet6Aton =>
    match h.ipOfText (operand.getString h) with
    | .v4 n => .int n.toUInt64.toInt64 false
    | ip => .ip (some ip) false
  | .sqlCoalesce =>
    match operand with
    | .list (some (v :: vs)) _ => ((v :: vs).find? (fun v => v.null = false)).getD (.na false)
    | .list _ _ => .na true
    | operand => operand
  | .sqlGreatest =>
    match operand with
    | .list v _ => greatestOrLeast h true (v.getD [])
    | operand => operand
  | .sqlLeast =>
    match operand with
    | .list v _ => greatestOrLeast h false (v.getD [])
    | operand => operand
  | .sqlIf =>
    match operand with
    | .list (some [c, v, w]) _ => if c.getBool h then v else w
    | _ => .na true
  | _ => .na false

/-- `_o_sql_in` and `_o_sql_not_in`: a list that has the value makes both true. -/
def sqlIn (notIn : Bool) (operand1 operand2 : SValue F) : SValue F :=
  match operand2 with
  | .list (some vs) _ => .ofBool (notIn || vs.any (fun v => (operand1.eq h v).getBool h))
  | operand2 => .ofBool (if (operand1.eq h operand2).getBool h then !notIn else notIn)

def eBOperator (operand1 operand2 : SValue F) : EOperator → SValue F
  | .shiftL => .int (operand1.getInteger h <<< operand2.getInteger h) false
  | .shiftR => .int (operand1.getInteger h >>> operand2.getInteger h) false
  | .bAnd => .int (operand1.getInteger h &&& operand2.getInteger h) false
  | .bOr => .int (operand1.getInteger h ||| operand2.getInteger h) false
  | .mult => operand1.arithm h (· * ·) h.mult false operand2
  | .div | .sqlDiv => operand1.arithm h (· / ·) h.div true operand2
  | .add => operand1.arithm h (· + ·) h.add false operand2
  | .sub => operand1.arithm h (· - ·) h.sub false operand2
  | .cmpLt => operand1.lt h operand2
  | .cmpLe => operand1.le h operand2
  | .cmpGt => operand1.gt h operand2
  | .cmpGe => operand1.ge h operand2
  | .cmpEq | .sqlEq => operand1.eq h operand2
  | .cmpNeq => operand1.neq h operand2
  | .like => operand1.like h operand2
  | .notLike => (operand1.like h operand2).not h
  | .and => operand1.and h operand2
  | .or => operand1.or h operand2
  | .sqlIs => .ofBool (operand1.null = operand2.null)
  | .sqlIsNot => .ofBool (operand1.null ≠ operand2.null)
  | .sqlIn => sqlIn h false operand1 operand2
  | .sqlNotIn => sqlIn h true operand1 operand2
  | .sqlComma =>
    match operand1 with
    | .list v n => .list (some (v.getD [] ++ [operand2])) n
    | operand1 => .list (some [operand1, operand2]) false
  | _ => .na false

/-! ## Trees -/

abbrev SpecOperand := Nat

mutual

/-- `sSplitOperands`: a constant, a field or subselect, or a group of operands. A group has a first
operand with its unary operator. -/
inductive Operands (F : Type) where
  | const (value : SValue F)
  | spec (field : SpecOperand)
  | group (u : EOperator) (t : Operands F) (rest : Rest F)

/-- The other operands of a group, each with the binary operator before it and its unary one. -/
inductive Rest (F : Type) where
  | nil
  | cons (b u : EOperator) (t : Operands F) (rest : Rest F)

end

def applyU (u : EOperator) (v : SValue F) : SValue F := if u = .na then v else eUOperator h v u

/-- The unary operator and the operand that are left of `u` and `t`, where `t` was evaluated to `v`
and is `t'` now: a constant takes its operator in. -/
def settle (u : EOperator) (t : Operands F) (v : SValue F) (t' : Operands F) :
    EOperator × Operands F :=
  match t with
  | .const _ => (.na, .const (applyU h u v))
  | _ => (u, t')

/-- `e` ends a group at an operator that can not change the result any more. -/
def endsAt (rslt : SValue F) (b : EOperator) : Bool :=
  (b = .and && !rslt.getBool h) || (b = .or && rslt.getBool h)

/-- How `e` joins two operands: `or` and `=` of integers keep the `v_null` of the first one. -/
def joinOperands (rslt operand : SValue F) (b : EOperator) : SValue F :=
  match rslt, operand with
  | .int v n, .int w _ =>
    if b = .or then .int (if v ≠ 0 ∨ w ≠ 0 then 1 else 0) n
    else if b = .sqlEq then .int (if v = w then 1 else 0) n
    else eBOperator h rslt operand b
  | rslt, operand => eBOperator h rslt operand b

abbrev Assignment (F : Type) := SpecOperand → SValue F

mutual

/-- `sSplitOperands::e`: the value, and the tree that is left. -/
def e (a : Assignment F) : Operands F → SValue F × Operands F
  | .const value => (value, .const value)
  | .spec field => (a field, .spec field)
  | .group u t rest =>
    let r := e a t
    let s := settle h u t r.1 r.2
    let rs := eRest a (applyU h u r.1) rest
    (rs.1, .group s.1 s.2 rs.2)

def eRest (a : Assignment F) (rslt : SValue F) : Rest F → SValue F × Rest F
  | .nil => (rslt, .nil)
  | .cons b u t rest =>
    if endsAt h rslt b then (rslt, .cons b u t rest)
    else
      let r := e a t
      let s := settle h u t r.1 r.2
      let rs := eRest a (joinOperands h rslt (applyU h u r.1) b) rest
      (rs.1, .cons b s.1 s.2 rs.2)

end

/-- What `e_opt` gives: a value, whether there is a field or subselect, whether something was
replaced, and what is left. -/
structure Opt (F T : Type) where
  value : SValue F
  existsSpecType : Bool
  opt : Bool
  tree : T

mutual

/-- `sSplitOperands::e_opt`. `probe` are the values that it has for the fields and subselects. -/
def eOpt (probe : Assignment F) : Operands F → Opt F (Operands F)
  | .const value => ⟨value, false, false, .const value⟩
  | .spec field => ⟨probe field, true, false, .spec field⟩
  | .group u t rest =>
    let r := eOpt probe t
    let s := settle h u t r.value r.tree
    let rs := eOptRest probe (applyU h u r.value) rest
    if r.existsSpecType ∨ rs.existsSpecType then
      ⟨rs.value, true, r.opt || rs.opt, .group s.1 s.2 rs.tree⟩
    else ⟨rs.value, false, true, .const rs.value⟩

def eOptRest (probe : Assignment F) (rslt : SValue F) : Rest F → Opt F (Rest F)
  | .nil => ⟨rslt, false, false, .nil⟩
  | .cons b u t rest =>
    let r := eOpt probe t
    let s := settle h u t r.value r.tree
    let rs := eOptRest probe (eBOperator h rslt (applyU h u r.value) b) rest
    ⟨rs.value, r.existsSpecType || rs.existsSpecType, r.opt || rs.opt, .cons b s.1 s.2 rs.tree⟩

end

inductive Call (F : Type) where
  | e (a : Assignment F)
  | eOpt (probe : Assignment F)

def Call.leave (t : Operands F) : Call F → Operands F
  | .e a => (EvalFormula.e h a t).2
  | .eOpt probe => (EvalFormula.eOpt h probe t).tree

end VoipMonitor.EvalFormula
