import Mathlib.Data.List.Infix
import Mathlib.Tactic

/-!
# Records that end with a separator

A text is cut behind every separator. What is behind the last one is a record without its end. A
text of which only a part is there has the first records of the whole text, and perhaps a begin of
the next one.
-/

namespace VoipMonitor.Library

variable {α : Type}

/-- The text with its separators put behind the records. -/
def joinRecords (c : α) (rows : List (List α)) : List α := rows.flatMap (fun r => r ++ [c])

@[simp] lemma joinRecords_nil (c : α) : joinRecords c [] = [] := rfl

lemma joinRecords_cons (c : α) (r : List α) (rows : List (List α)) :
    joinRecords c (r :: rows) = r ++ c :: joinRecords c rows := by
  rw [joinRecords, List.flatMap_cons, List.append_assoc]
  rfl

lemma joinRecords_append (c : α) (a b : List (List α)) :
    joinRecords c (a ++ b) = joinRecords c a ++ joinRecords c b := List.flatMap_append

variable [DecidableEq α] {c : α}

/-- An element in front of the first record. -/
def consRecord (x : α) : List (List α) → List (List α)
  | [] => [[x]]
  | r :: records => (x :: r) :: records

/-- The records of a text, each with its separator. -/
def recordsOf (c : α) : List α → List (List α)
  | [] => []
  | x :: s => if x = c then [x] :: recordsOf c s else consRecord x (recordsOf c s)

@[simp] lemma recordsOf_nil (c : α) : recordsOf c [] = [] := rfl

lemma recordsOf_sep (s : List α) : recordsOf c (c :: s) = [c] :: recordsOf c s := if_pos rfl

lemma recordsOf_cons {x : α} (hx : x ≠ c) (s : List α) :
    recordsOf c (x :: s) = consRecord x (recordsOf c s) := if_neg hx

lemma recordsOf_append_sep {r : List α} (hr : c ∉ r) (s : List α) :
    recordsOf c (r ++ c :: s) = (r ++ [c]) :: recordsOf c s := by
  induction r with
  | nil => exact recordsOf_sep s
  | cons x r ih =>
    rw [List.mem_cons, not_or] at hr
    rw [List.cons_append, recordsOf_cons (Ne.symm hr.1), ih hr.2]
    rfl

lemma recordsOf_of_not_mem {r : List α} (hr : c ∉ r) (hne : r ≠ []) : recordsOf c r = [r] := by
  induction r with
  | nil => exact absurd rfl hne
  | cons x r ih =>
    rw [List.mem_cons, not_or] at hr
    rw [recordsOf_cons (Ne.symm hr.1)]
    by_cases hnil : r = []
    · subst hnil
      rfl
    · rw [ih hr.2 hnil]
      rfl

lemma recordsOf_joinRecords_append {rows : List (List α)} (h : ∀ r ∈ rows, c ∉ r) (s : List α) :
    recordsOf c (joinRecords c rows ++ s) = rows.map (fun r => r ++ [c]) ++ recordsOf c s := by
  induction rows with
  | nil => rfl
  | cons r rows ih =>
    rw [joinRecords_cons, List.append_assoc, List.cons_append,
      recordsOf_append_sep (h r List.mem_cons_self), ih fun r hr => h r (List.mem_cons_of_mem _ hr)]
    rfl

lemma isPrefix_of_joinRecords {rows rows' : List (List α)} (h : ∀ r ∈ rows, c ∉ r)
    (h' : ∀ r ∈ rows', c ∉ r) (hpre : joinRecords c rows' <+: joinRecords c rows) : rows' <+: rows := by
  obtain ⟨s, hs⟩ := hpre
  have hrecords := congrArg (recordsOf c) hs
  rw [recordsOf_joinRecords_append h', ← List.append_nil (joinRecords c rows),
    recordsOf_joinRecords_append h, recordsOf_nil, List.append_nil] at hrecords
  have hmap : rows'.map (fun r => r ++ [c]) <+: rows.map (fun r => r ++ [c]) := ⟨_, hrecords⟩
  have hinj : Function.Injective (fun r : List α => r ++ [c]) := fun _ _ heq =>
    List.append_cancel_right heq
  rw [List.prefix_iff_eq_take, List.length_map, ← List.map_take] at hmap
  rw [List.prefix_iff_eq_take]
  exact hinj.list_map hmap

omit [DecidableEq α] in
/-- The records of a begin of a text: the first ones as a whole, and a begin of the next one. -/
theorem exists_of_isPrefix_joinRecords {rows : List (List α)} {s : List α}
    (h : s <+: joinRecords c rows) :
    ∃ k p, s = joinRecords c (rows.take k) ++ p ∧ (p = [] ∨ ∃ r, rows[k]? = some r ∧ p <+: r) := by
  induction rows generalizing s with
  | nil => exact ⟨0, s, rfl, .inl (List.prefix_nil.mp h)⟩
  | cons r rows ih =>
    rw [joinRecords_cons] at h
    by_cases hlen : s.length ≤ r.length
    · have hpre : s <+: r := List.prefix_of_prefix_length_le h (List.prefix_append r _) hlen
      exact ⟨0, s, rfl, .inr ⟨r, rfl, hpre⟩⟩
    · have hwhole : r ++ [c] <+: s := by
        refine List.prefix_of_prefix_length_le ⟨joinRecords c rows, by simp⟩ h ?_
        rw [List.length_append, List.length_singleton]
        omega
      obtain ⟨t, rfl⟩ := hwhole
      have ht : t <+: joinRecords c rows := by
        obtain ⟨u, hu⟩ := h
        refine ⟨u, ?_⟩
        rw [List.append_assoc, List.append_assoc] at hu
        exact List.cons_injective (List.append_cancel_left hu)
      obtain ⟨k, p, rfl, hp⟩ := ih ht
      refine ⟨k + 1, p, ?_, hp⟩
      rw [List.take_succ_cons, joinRecords_cons]
      simp

end VoipMonitor.Library
