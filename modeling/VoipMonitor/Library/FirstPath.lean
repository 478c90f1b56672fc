import Mathlib.Logic.Relation
import Mathlib.Tactic

/-!
# Searching for the first path

A search walks from a node to one of its next ones, in their order, and gives a node up when all
next ones were given up. It finds the path that goes, again and again, to the first node from
which the goal is reached.
-/

namespace VoipMonitor.Library.FirstPath

section Path
variable {α : Type} (next : α → List α) (goal : α → Prop)

/-- The goal is reached from a node. -/
inductive Good : α → Prop
  | goal {p : α} : goal p → Good p
  | next {p q : α} : q ∈ next p → Good q → Good p

/-- The goal is reached from no node of the list before this one. -/
def First (q : α) (l : List α) : Prop :=
  ∃ before after, l = before ++ q :: after ∧ ∀ r ∈ before, ¬Good next goal r

/-- The path that goes from a node to the first one from which the goal is reached, up to the
goal. -/
inductive Route : α → List α → Prop
  | goal {p : α} : goal p → Route p [p]
  | next {p q : α} {row : List α} : ¬goal p → First next goal q (next p) → Route q row →
      Route p (p :: row)

end Path

section Unique
variable {α : Type} {next : α → List α} {goal : α → Prop}

lemma First.mem {q : α} {l : List α} (h : First next goal q l) : q ∈ l := by
  obtain ⟨before, after, rfl, -⟩ := h
  simp

lemma First.unique {q q' : α} {l : List α} (h : First next goal q l) (hq : Good next goal q)
    (h' : First next goal q' l) (hq' : Good next goal q') : q = q' := by
  obtain ⟨before, after, hl, hbefore⟩ := h
  obtain ⟨before', after', hl', hbefore'⟩ := h'
  rw [hl] at hl'
  rcases List.append_eq_append_iff.mp hl' with ⟨mid, hb, ha⟩ | ⟨mid, hb, ha⟩
  · cases mid with
    | nil => exact (List.cons.inj ha).1
    | cons r mid =>
      have hr : r = q := (List.cons.inj ha).1.symm
      exact absurd hq (hbefore' q (by rw [hb, hr]; simp))
  · cases mid with
    | nil => exact (List.cons.inj ha).1.symm
    | cons r mid =>
      have hr : r = q' := (List.cons.inj ha).1.symm
      exact absurd hq' (hbefore q' (by rw [hb, hr]; simp))

lemma Route.good {p : α} {row : List α} (h : Route next goal p row) : Good next goal p := by
  induction h with
  | goal hgoal => exact .goal hgoal
  | next _ hfirst _ ih => exact .next hfirst.mem ih

lemma Route.isChain {p : α} {row : List α} (h : Route next goal p row) :
    row.head? = some p ∧ row.IsChain (fun p q => q ∈ next p) := by
  induction h with
  | goal _ => exact ⟨rfl, List.isChain_singleton _⟩
  | next _ hfirst _ ih =>
    refine ⟨rfl, List.isChain_cons.mpr ⟨?_, ih.2⟩⟩
    intro r hr
    rw [ih.1, Option.mem_some_iff] at hr
    rw [← hr]
    exact hfirst.mem

lemma Route.unique {p : α} {row row' : List α} (h : Route next goal p row)
    (h' : Route next goal p row') : row = row' := by
  induction h generalizing row' with
  | goal hgoal =>
    cases h' with
    | goal => rfl
    | next hne => exact absurd hgoal hne
  | next hne hfirst hroute ih =>
    cases h' with
    | goal hgoal => exact absurd hgoal hne
    | next _ hfirst' hroute' =>
      rw [hfirst.unique hroute.good hfirst' hroute'.good] at ih
      rw [ih hroute']

end Unique

section Search
variable {α : Type} {next : α → List α} {goal : α → Prop}

/-- What holds of the nodes that were given up and of the path so far. -/
structure Tried (next : α → List α) (goal : α → Prop) (failed : α → Bool) (row : List α) :
    Prop where
  bad : ∀ q, failed q = true → ¬Good next goal q
  closed : ∀ q, failed q = true → ∀ r ∈ next q, failed r = true
  chain : row.IsChain (fun p q => First next goal q (next p))
  unfinished : ∀ p ∈ row, ¬goal p

lemma tried_nil {failed : α → Bool} (h : ∀ q, failed q = false) : Tried next goal failed [] where
  bad q hq := by
    rw [h] at hq
    cases hq
  closed q hq := by
    rw [h] at hq
    cases hq
  chain := List.isChain_nil
  unfinished _ hp := by cases hp

lemma first_of_find {failed : α → Bool} (hbad : ∀ q, failed q = true → ¬Good next goal q) {q : α}
    {l : List α} (h : l.find? (fun r => !failed r) = some q) : First next goal q l := by
  obtain ⟨-, before, after, hl, hbefore⟩ := List.find?_eq_some_iff_append.mp h
  refine ⟨before, after, hl, ?_⟩
  intro r hr
  have hfailed := hbefore r hr
  rw [Bool.not_not] at hfailed
  exact hbad r hfailed

lemma Tried.chain_append {failed : α → Bool} {row : List α} (h : Tried next goal failed row) {q : α}
    (hq : ∀ p ∈ row.getLast?, (next p).find? (fun r => !failed r) = some q) :
    (row ++ [q]).IsChain (fun p q => First next goal q (next p)) := by
  refine List.isChain_append.mpr ⟨h.chain, List.isChain_singleton _, ?_⟩
  intro p hp r hr
  rw [List.head?_cons, Option.mem_some_iff] at hr
  rw [← hr]
  exact first_of_find h.bad (hq p hp)

lemma Tried.push {failed : α → Bool} {row : List α} (h : Tried next goal failed row) {q : α}
    (hq : ∀ p ∈ row.getLast?, (next p).find? (fun r => !failed r) = some q) (hgoal : ¬goal q) :
    Tried next goal failed (row ++ [q]) where
  bad := h.bad
  closed := h.closed
  chain := h.chain_append hq
  unfinished p hp := by
    rcases List.mem_append.mp hp with hp | hp
    · exact h.unfinished p hp
    · rw [List.mem_singleton.mp hp]
      exact hgoal

lemma Tried.giveUp {failed failed' : α → Bool} {row : List α} {p : α}
    (h : Tried next goal failed (row ++ [p]))
    (hall : (next p).find? (fun r => !failed r) = none)
    (hfailed : ∀ q, failed' q = true ↔ failed q = true ∨ q = p) : Tried next goal failed' row := by
  have hnext : ∀ r ∈ next p, failed r = true := by
    intro r hr
    have hr' := List.find?_eq_none.mp hall r hr
    simpa using hr'
  refine ⟨?_, ?_, ?_, ?_⟩
  · intro q hq hgood
    rcases (hfailed q).mp hq with hq | rfl
    · exact h.bad q hq hgood
    · cases hgood with
      | goal hgoal => exact h.unfinished q (by simp) hgoal
      | next hr hgood => exact h.bad _ (hnext _ hr) hgood
  · intro q hq r hr
    rcases (hfailed q).mp hq with hq | rfl
    · exact (hfailed r).mpr (.inl (h.closed q hq r hr))
    · exact (hfailed r).mpr (.inl (hnext r hr))
  · exact (List.isChain_append.mp h.chain).1
  · intro q hq
    exact h.unfinished q (List.mem_append_left _ hq)

lemma route_of_chain {row : List α} {q : α}
    (hchain : (row ++ [q]).IsChain (fun p q => First next goal q (next p)))
    (hrow : ∀ p ∈ row, ¬goal p) (hgoal : goal q) :
    ∃ p, (row ++ [q]).head? = some p ∧ Route next goal p (row ++ [q]) := by
  induction row with
  | nil => exact ⟨q, rfl, .goal hgoal⟩
  | cons p row ih =>
    refine ⟨p, rfl, ?_⟩
    obtain ⟨r, hr, hroute⟩ := ih hchain.tail (fun p hp => hrow p (List.mem_cons_of_mem _ hp))
    have hfirst : First next goal r (next p) := by
      rw [List.cons_append, List.isChain_cons] at hchain
      exact hchain.1 r hr
    exact .next (hrow p List.mem_cons_self) hfirst hroute

lemma Tried.failed_of_reach {failed : α → Bool} {row : List α} (h : Tried next goal failed row)
    {p q : α} (hp : failed p = true)
    (hreach : Relation.ReflTransGen (fun p q => q ∈ next p) p q) : failed q = true := by
  induction hreach with
  | refl => exact hp
  | tail _ hmem ih => exact h.closed _ ih _ hmem

end Search

end VoipMonitor.Library.FirstPath
