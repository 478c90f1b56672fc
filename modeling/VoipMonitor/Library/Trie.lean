import Mathlib.Logic.Function.Basic

/-!
# Trees over the characters of their keys

A node has a value or none, and a node below it for some of the characters.
-/

namespace VoipMonitor.Library

inductive Trie (κ α : Type) where
  | node (value : Option α) (children : κ → Option (Trie κ α))

namespace Trie
variable {κ α : Type}

def value : Trie κ α → Option α
  | node value _ => value

def children : Trie κ α → κ → Option (Trie κ α)
  | node _ children => children

/-- A node without a value and without nodes below it. -/
def empty : Trie κ α := node none (fun _ => none)

/-- The value at the end of a key. -/
def get : List κ → Trie κ α → Option α
  | [], t => t.value
  | c :: key, t => (t.children c).bind (get key)

variable [DecidableEq κ]

/-- The value is put at the end of the key, and missing nodes on the way are made. -/
def insert (x : α) : List κ → Trie κ α → Trie κ α
  | [], t => node (some x) t.children
  | c :: key, t =>
    node t.value (Function.update t.children c (some (insert x key ((t.children c).getD empty))))

omit [DecidableEq κ] in
@[simp] lemma get_empty (key : List κ) : (empty : Trie κ α).get key = none := by
  cases key <;> rfl

lemma get_insert (x : α) (key key' : List κ) (t : Trie κ α) :
    (t.insert x key).get key' = if key' = key then some x else t.get key' := by
  induction key generalizing key' t with
  | nil =>
    cases key' with
    | nil => rfl
    | cons c' key' => rfl
  | cons c key ih =>
    cases key' with
    | nil => rfl
    | cons c' key' =>
      have hchild : (t.insert x (c :: key)).children c' =
          if c' = c then some (insert x key ((t.children c).getD empty)) else t.children c' := by
        rw [insert, children, Function.update_apply]
      rw [get, get, hchild]
      by_cases hc : c' = c
      · subst hc
        rw [if_pos rfl, Option.bind_some, ih]
        by_cases hkey : key' = key
        · rw [if_pos hkey, if_pos (by rw [hkey])]
        · rw [if_neg hkey, if_neg (fun h => hkey (List.cons.inj h).2)]
          cases t.children c' with
          | none => rw [Option.getD_none, get_empty, Option.bind_none]
          | some u => rfl
      · rw [if_neg hc, if_neg (fun h => hc (List.cons.inj h).1)]

end Trie

end VoipMonitor.Library
