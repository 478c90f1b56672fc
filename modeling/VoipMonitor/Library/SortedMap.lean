import Mathlib.Data.List.Nodup
import Mathlib.Data.List.TakeWhile
import Mathlib.Order.Defs.Unbundled
import Mathlib.Tactic
import Std.Data.TreeMap.Lemmas

/-!
# Maps as lists in key order

A map is the list of its entries in the order of their keys, as an iterator walks it. Lookups do
not need the order; that the keys are in order, and so different from one another, is kept by
every operation.
-/

namespace VoipMonitor.Library.SortedMap

variable {κ β : Type} [DecidableEq κ]

/-- The value at a key. -/
def get (k : κ) : List (κ × β) → Option β
  | [] => none
  | e :: m => if e.1 = k then some e.2 else get k m

/-- The entry is put before the first greater key, or takes the place of the one with its key. -/
def set (lt : κ → κ → Bool) (k : κ) (v : β) : List (κ × β) → List (κ × β)
  | [] => [(k, v)]
  | e :: m =>
    if e.1 = k then (k, v) :: m
    else if lt k e.1 then (k, v) :: e :: m
    else e :: set lt k v m

def erase (k : κ) (m : List (κ × β)) : List (κ × β) := m.filter (fun e => e.1 ≠ k)

/-- The value at a key is changed. -/
def update (k : κ) (f : β → β) (m : List (κ × β)) : List (κ × β) :=
  m.map (fun e => if e.1 = k then (e.1, f e.2) else e)

/-- The keys are in order. -/
def Sorted (lt : κ → κ → Bool) (m : List (κ × β)) : Prop :=
  m.Pairwise (fun a b => lt a.1 b.1 = true)

lemma get_set (lt : κ → κ → Bool) (k k' : κ) (v : β) (m : List (κ × β)) :
    get k' (set lt k v m) = if k = k' then some v else get k' m := by
  induction m with
  | nil => rfl
  | cons e m ih =>
    rw [set]
    split
    · rename_i he
      rw [get, get, he]
      split <;> rfl
    · rename_i he
      split
      · rw [get]
      · rw [get, get, ih]
        split
        · rename_i hk
          rw [if_neg (fun h => he (hk.trans h.symm))]
        · rfl

lemma get_erase (k k' : κ) (m : List (κ × β)) :
    get k' (erase k m) = if k = k' then none else get k' m := by
  induction m with
  | nil => simp [erase, get]
  | cons e m ih =>
    by_cases he : e.1 = k
    · rw [erase, List.filter_cons_of_neg (by simpa using he), ← erase, ih, get]
      by_cases hk : k = k'
      · rw [if_pos hk, if_pos hk]
      · rw [if_neg hk, if_neg hk, if_neg (fun h => hk (he.symm.trans h))]
    · rw [erase, List.filter_cons_of_pos (by simpa using he), ← erase, get, get, ih]
      by_cases hk : k = k'
      · rw [if_pos hk, if_pos hk, if_neg (fun h => he (h.trans hk.symm))]
      · rw [if_neg hk, if_neg hk]

lemma get_map {γ : Type} (f : κ → β → γ) (k : κ) (m : List (κ × β)) :
    get k (m.map (fun e => (e.1, f e.1 e.2))) = (get k m).map (f k) := by
  induction m with
  | nil => rfl
  | cons e m ih =>
    rw [List.map_cons, get, get, ih]
    split
    · rename_i he
      rw [← he]
      rfl
    · rfl

lemma map_set (lt : κ → κ → Bool) {γ : Type} (f : β → γ) (k : κ) (v : β) (m : List (κ × β)) :
    (set lt k v m).map (fun e => (e.1, f e.2)) = set lt k (f v) (m.map (fun e => (e.1, f e.2))) := by
  induction m with
  | nil => rfl
  | cons e m ih =>
    rw [set, List.map_cons, set]
    split
    · rfl
    · split
      · rfl
      · rw [List.map_cons, ih]

lemma update_eq_map (k : κ) (f : β → β) (m : List (κ × β)) :
    update k f m = m.map (fun e => (e.1, if e.1 = k then f e.2 else e.2)) := by
  refine List.map_congr_left ?_
  intro e _
  split <;> rfl

lemma get_update (k k' : κ) (f : β → β) (m : List (κ × β)) :
    get k' (update k f m) = if k = k' then (get k' m).map f else get k' m := by
  rw [update_eq_map, get_map (fun i v => if i = k then f v else v)]
  by_cases hk : k = k'
  · rw [if_pos hk, hk]
    simp only [if_true]
  · rw [if_neg hk]
    simp only [Ne.symm hk, if_false]
    exact Option.map_id'

lemma update_cons (k : κ) (f : β → β) (e : κ × β) (m : List (κ × β)) :
    update k f (e :: m) = (if e.1 = k then (e.1, f e.2) else e) :: update k f m := rfl

lemma update_of_ne {k : κ} {f : β → β} {m : List (κ × β)} (h : ∀ e ∈ m, e.1 ≠ k) :
    update k f m = m := by
  rw [update]
  refine (List.map_congr_left ?_).trans (List.map_id m)
  intro e he
  rw [if_neg (h e he)]
  rfl

lemma mem_of_get {k : κ} {v : β} {m : List (κ × β)} (h : get k m = some v) : (k, v) ∈ m := by
  induction m with
  | nil => cases h
  | cons e m ih =>
    rw [get] at h
    split at h
    · rename_i he
      rw [← he, ← Option.some.inj h]
      exact List.mem_cons_self
    · exact List.mem_cons_of_mem _ (ih h)

lemma not_mem_of_get {k : κ} {m : List (κ × β)} (h : get k m = none) (v : β) : (k, v) ∉ m := by
  induction m with
  | nil => exact List.not_mem_nil
  | cons e m ih =>
    rw [get] at h
    split at h
    · cases h
    · rename_i hne
      rw [List.mem_cons, not_or]
      exact ⟨fun heq => hne (heq ▸ rfl), ih h⟩

lemma get_foldl_set (lt : κ → κ → Bool) (l : List (κ × β)) (k : κ) :
    get k (l.foldl (fun m e => set lt e.1 e.2 m) []) = l.reverse.lookup k := by
  induction l using List.reverseRecOn with
  | nil => rfl
  | append_singleton l e ih =>
    rw [List.foldl_append, List.foldl_cons, List.foldl_nil, get_set, ih, List.reverse_append,
      List.reverse_singleton, List.singleton_append, List.lookup_cons]
    by_cases he : e.1 = k
    · rw [if_pos he, he, beq_self_eq_true]
    · rw [if_neg he, beq_eq_false_iff_ne.mpr (Ne.symm he)]

section Order
variable {lt : κ → κ → Bool} [IsStrictTotalOrder κ (fun a b => lt a b = true)]

lemma Sorted.get_of_mem {m : List (κ × β)} (hm : Sorted lt m) {k : κ} {v : β} (h : (k, v) ∈ m) :
    get k m = some v := by
  induction m with
  | nil => cases h
  | cons e m ih =>
    obtain ⟨hhead, hrest⟩ := List.pairwise_cons.mp hm
    rw [get]
    rcases List.mem_cons.mp h with rfl | h
    · rw [if_pos rfl]
    · have hne : e.1 ≠ k := by
        intro heq
        have hlt := hhead _ h
        rw [heq] at hlt
        exact irrefl_of (fun a b => lt a b = true) k hlt
      rw [if_neg hne, ih hrest h]

lemma Sorted.mem_iff_get {m : List (κ × β)} (hm : Sorted lt m) (e : κ × β) :
    e ∈ m ↔ get e.1 m = some e.2 :=
  ⟨hm.get_of_mem, mem_of_get⟩

omit [IsStrictTotalOrder κ (fun a b => lt a b = true)] in
lemma mem_set {k : κ} {v : β} {m : List (κ × β)} {e : κ × β} (h : e ∈ set lt k v m) :
    e = (k, v) ∨ e ∈ m := by
  induction m with
  | nil => exact .inl (List.mem_singleton.mp h)
  | cons e' m ih =>
    rw [set] at h
    split at h
    · exact (List.mem_cons.mp h).imp_right (List.mem_cons_of_mem _)
    · split at h
      · exact List.mem_cons.mp h
      · rcases List.mem_cons.mp h with rfl | h
        · exact .inr List.mem_cons_self
        · exact (ih h).imp_right (List.mem_cons_of_mem _)

omit [IsStrictTotalOrder κ (fun a b => lt a b = true)] in
lemma self_mem_set (k : κ) (v : β) (m : List (κ × β)) : (k, v) ∈ set lt k v m :=
  mem_of_get ((get_set lt k k v m).trans (if_pos rfl))

omit [IsStrictTotalOrder κ (fun a b => lt a b = true)] in
lemma mem_set_of_ne {k : κ} {v : β} {m : List (κ × β)} {e : κ × β} (h : e ∈ m) (hne : e.1 ≠ k) :
    e ∈ set lt k v m := by
  induction m with
  | nil => cases h
  | cons e' m ih =>
    rw [set]
    split
    · rename_i he
      rcases List.mem_cons.mp h with rfl | h
      · exact absurd he hne
      · exact List.mem_cons_of_mem _ h
    · split
      · exact List.mem_cons_of_mem _ h
      · rcases List.mem_cons.mp h with rfl | h
        · exact List.mem_cons_self
        · exact List.mem_cons_of_mem _ (ih h)

lemma Sorted.set {m : List (κ × β)} (hm : Sorted lt m) (k : κ) (v : β) :
    Sorted lt (set lt k v m) := by
  induction m with
  | nil => exact List.pairwise_singleton _ _
  | cons e m ih =>
    obtain ⟨hhead, hrest⟩ := List.pairwise_cons.mp hm
    rw [SortedMap.set]
    split
    · rename_i he
      rw [he] at hhead
      exact List.pairwise_cons.mpr ⟨hhead, hrest⟩
    · rename_i he
      split
      · rename_i hlt
        refine List.pairwise_cons.mpr ⟨?_, hm⟩
        intro e' he'
        rcases List.mem_cons.mp he' with rfl | he'
        · exact hlt
        · exact trans_of (fun a b => lt a b = true) hlt (hhead e' he')
      · rename_i hnlt
        refine List.pairwise_cons.mpr ⟨?_, ih hrest⟩
        intro e' he'
        rcases mem_set he' with rfl | he'
        · rcases trichotomous_of (fun a b => lt a b = true) e.1 k with h | h | h
          · exact h
          · exact absurd h he
          · exact absurd h hnlt
        · exact hhead e' he'

lemma Sorted.foldl_set (l : List (κ × β)) :
    Sorted lt (l.foldl (fun m e => SortedMap.set lt e.1 e.2 m) []) := by
  induction l using List.reverseRecOn with
  | nil => exact List.Pairwise.nil
  | append_singleton l e ih =>
    rw [List.foldl_append, List.foldl_cons, List.foldl_nil]
    exact ih.set e.1 e.2

omit [DecidableEq κ] [IsStrictTotalOrder κ (fun a b => lt a b = true)] in
lemma Sorted.filter {m : List (κ × β)} (hm : Sorted lt m) (p : κ × β → Bool) :
    Sorted lt (m.filter p) :=
  List.Pairwise.filter p hm

lemma Sorted.get_filter {m : List (κ × β)} (hm : Sorted lt m) (p : κ × β → Bool)
    (k : κ) : get k (m.filter p) = (get k m).filter (fun v => p (k, v)) := by
  cases h : get k m with
  | none =>
    cases h' : get k (m.filter p) with
    | none => rfl
    | some v =>
      have hmem := List.mem_of_mem_filter (mem_of_get h')
      rw [hm.get_of_mem hmem] at h
      cases h
  | some v =>
    have hmem := mem_of_get h
    by_cases hp : p (k, v) = true
    · simp only [Option.filter, hp, if_true]
      exact (hm.filter p).get_of_mem (List.mem_filter.mpr ⟨hmem, hp⟩)
    · simp only [Option.filter, hp]
      cases h' : get k (m.filter p) with
      | none => rfl
      | some w =>
        obtain ⟨hw, hpw⟩ := List.mem_filter.mp (mem_of_get h')
        have hwv : w = v := Option.some.inj ((hm.get_of_mem hw).symm.trans h)
        rw [hwv] at hpw
        exact absurd hpw hp

omit [DecidableEq κ] [IsStrictTotalOrder κ (fun a b => lt a b = true)] in
lemma Sorted.map {m : List (κ × β)} (hm : Sorted lt m) {γ : Type} (f : κ × β → κ × γ)
    (hf : ∀ e, (f e).1 = e.1) : Sorted lt (m.map f) := by
  rw [Sorted, List.pairwise_map]
  refine List.Pairwise.imp ?_ hm
  intro a b hab
  rwa [hf, hf]

omit [IsStrictTotalOrder κ (fun a b => lt a b = true)] in
lemma Sorted.update {m : List (κ × β)} (hm : Sorted lt m) (k : κ) (f : β → β) :
    Sorted lt (update k f m) := by
  rw [update_eq_map]
  exact hm.map _ (fun _ => rfl)

lemma Sorted.filter_key {m : List (κ × β)} (hm : Sorted lt m) (k : κ) :
    m.filter (fun e => e.1 = k) = (get k m).toList.map (fun v => (k, v)) := by
  induction m with
  | nil => rfl
  | cons e m ih =>
    obtain ⟨hhead, hrest⟩ := List.pairwise_cons.mp hm
    rw [get]
    by_cases he : e.1 = k
    · have hnone : m.filter (fun e => e.1 = k) = [] := by
        rw [List.filter_eq_nil_iff]
        intro e' he' heq
        have hlt := hhead e' he'
        rw [he, of_decide_eq_true heq] at hlt
        exact irrefl_of (fun a b => lt a b = true) k hlt
      rw [List.filter_cons_of_pos (by simpa using he), hnone, if_pos he, ← he]
      rfl
    · rw [List.filter_cons_of_neg (by simpa using he), if_neg he, ih hrest]

lemma set_of_lt {k : κ} {v : β} {m : List (κ × β)} (h : ∀ e ∈ m, lt e.1 k = true) :
    set lt k v m = m ++ [(k, v)] := by
  induction m with
  | nil => rfl
  | cons e m ih =>
    have he := h e List.mem_cons_self
    have hne : e.1 ≠ k := by
      intro heq
      rw [heq] at he
      exact irrefl_of (fun a b => lt a b = true) k he
    have hnot : ¬lt k e.1 = true := fun h' => asymm_of (fun a b => lt a b = true) he h'
    rw [set, if_neg hne, if_neg hnot, ih (fun e he => h e (List.mem_cons_of_mem _ he))]
    rfl

lemma Sorted.set_of_get {m : List (κ × β)} (hm : Sorted lt m) {k : κ} {v : β}
    (h : get k m = some v) : SortedMap.set lt k v m = m := by
  induction m with
  | nil => cases h
  | cons e m ih =>
    obtain ⟨hhead, hrest⟩ := List.pairwise_cons.mp hm
    rw [get] at h
    rw [SortedMap.set]
    by_cases he : e.1 = k
    · rw [if_pos he] at h
      rw [if_pos he, ← he, ← Option.some.inj h]
    · rw [if_neg he] at h
      have hlt := hhead _ (mem_of_get h)
      have hnot : ¬lt k e.1 = true := fun h' => asymm_of (fun a b => lt a b = true) hlt h'
      rw [if_neg he, if_neg hnot, ih hrest h]

omit [DecidableEq κ] in
lemma Sorted.ext {m m' : List (κ × β)} (hm : Sorted lt m) (hm' : Sorted lt m')
    (h : ∀ e, e ∈ m ↔ e ∈ m') : m = m' := by
  have hnodup : ∀ {l : List (κ × β)}, Sorted lt l → l.Nodup := by
    intro l hl
    refine List.Pairwise.imp ?_ hl
    intro a b hab heq
    rw [heq] at hab
    exact irrefl_of (fun a b => lt a b = true) b.1 hab
  have hperm : m.Perm m' := (List.perm_ext_iff_of_nodup (hnodup hm) (hnodup hm')).mpr h
  refine hperm.eq_of_pairwise ?_ hm hm'
  intro a b _ _ hab hba
  exact absurd hba (asymm_of (fun a b => lt a b = true) hab)

end Order

omit [DecidableEq κ] in
lemma isStrictTotalOrder_of_key {ρ : Type} [LinearOrder ρ] {lt : κ → κ → Bool} (f : κ → ρ)
    (hf : Function.Injective f) (hlt : ∀ a b, lt a b = true ↔ f a < f b) :
    IsStrictTotalOrder κ (fun a b => lt a b = true) where
  irrefl a h := lt_irrefl _ ((hlt a a).mp h)
  trans a b c hab hbc := (hlt a c).mpr (((hlt a b).mp hab).trans ((hlt b c).mp hbc))
  trichotomous a b hab hba := by
    rcases lt_trichotomy (f a) (f b) with h | h | h
    · exact absurd ((hlt a b).mpr h) hab
    · exact hf h
    · exact absurd ((hlt b a).mpr h) hba

end VoipMonitor.Library.SortedMap

/-!
## The lower bound of a key in a sorted map

The entries in front of the lower bound have smaller keys, the others do not.
-/

namespace VoipMonitor.Library.SortedMap

variable {κ β : Type} [DecidableEq κ] {lt : κ → κ → Bool}

/-- The entries in front of the lower bound of `k`, and those from it on. -/
def lowerBound (lt : κ → κ → Bool) (k : κ) (m : List (κ × β)) : List (κ × β) × List (κ × β) :=
  (m.takeWhile (fun e => lt e.1 k), m.dropWhile (fun e => lt e.1 k))

omit [DecidableEq κ] in
lemma lowerBound_append (lt : κ → κ → Bool) (k : κ) (m : List (κ × β)) :
    (lowerBound lt k m).1 ++ (lowerBound lt k m).2 = m := List.takeWhile_append_dropWhile

omit [DecidableEq κ] in
lemma lowerBound_before {k : κ} {m : List (κ × β)} {e : κ × β} (h : e ∈ (lowerBound lt k m).1) :
    lt e.1 k = true := by
  have := List.mem_takeWhile_imp h
  exact this

section Order
variable [IsStrictTotalOrder κ (fun a b => lt a b = true)]

omit [DecidableEq κ] in
lemma Sorted.lowerBound_after {m : List (κ × β)} (hm : Sorted lt m) {k : κ} {e : κ × β}
    (h : e ∈ (lowerBound lt k m).2) : lt e.1 k = false := by
  induction m with
  | nil => cases h
  | cons e' m ih =>
    obtain ⟨hhead, hrest⟩ := List.pairwise_cons.mp hm
    unfold lowerBound at h ih
    rw [List.dropWhile_cons] at h
    split at h
    · exact ih hrest h
    · rename_i hfirst
      rcases List.mem_cons.mp h with rfl | h
      · exact Bool.eq_false_iff.mpr hfirst
      · -- a smaller key behind would make the first one smaller
        rw [Bool.eq_false_iff]
        intro hlt
        exact hfirst (trans_of (fun a b => lt a b = true) (hhead e h) hlt)

omit [DecidableEq κ] in
lemma Sorted.lowerBound_head {m : List (κ × β)} (hm : Sorted lt m) {k : κ} {v : β}
    (h : (k, v) ∈ m) : (lowerBound lt k m).2.head? = some (k, v) := by
  rw [← lowerBound_append lt k m, List.mem_append] at h
  rcases h with h | h
  · exact absurd (lowerBound_before h) (irrefl_of (fun a b => lt a b = true) k)
  · have hsorted : Sorted lt (lowerBound lt k m).2 := by
      have hm' := hm
      rw [← lowerBound_append lt k m] at hm'
      exact (List.pairwise_append.mp hm').2.1
    cases hafter : (lowerBound lt k m).2 with
    | nil =>
      rw [hafter] at h
      cases h
    | cons e l =>
      rw [hafter] at h hsorted
      rcases List.mem_cons.mp h with rfl | h
      · rfl
      · have hlt := (List.pairwise_cons.mp hsorted).1 _ h
        have hno := hm.lowerBound_after (e := e) (k := k) (by rw [hafter]; exact List.mem_cons_self)
        rw [hno] at hlt
        cases hlt

omit [DecidableEq κ] in
lemma Sorted.lowerBound_last {m : List (κ × β)} (hm : Sorted lt m) {k : κ} {e : κ × β} :
    (lowerBound lt k m).1.getLast? = some e ↔
      e ∈ m ∧ lt e.1 k = true ∧ ∀ e' ∈ m, lt e'.1 k = true → e' = e ∨ lt e'.1 e.1 = true := by
  have hsorted : Sorted lt (lowerBound lt k m).1 := by
    have hm' := hm
    rw [← lowerBound_append lt k m] at hm'
    exact (List.pairwise_append.mp hm').1
  have hmem : ∀ e', e' ∈ (lowerBound lt k m).1 ↔ e' ∈ m ∧ lt e'.1 k = true := by
    intro e'
    constructor
    · intro h
      refine ⟨?_, lowerBound_before h⟩
      rw [← lowerBound_append lt k m]
      exact List.mem_append_left _ h
    · rintro ⟨h, hlt⟩
      rw [← lowerBound_append lt k m, List.mem_append] at h
      rcases h with h | h
      · exact h
      · rw [hm.lowerBound_after h] at hlt
        cases hlt
  generalize (lowerBound lt k m).1 = l at hsorted hmem
  have hlast : ∀ e', e' ∈ l ↔ e' ∈ m ∧ lt e'.1 k = true := hmem
  induction l using List.reverseRecOn with
  | nil =>
    constructor
    · intro h
      cases h
    · rintro ⟨h, hlt, -⟩
      cases (hlast e).mpr ⟨h, hlt⟩
  | append_singleton l x _ =>
    rw [List.getLast?_concat, Option.some_inj]
    have hbefore := (List.pairwise_append.mp hsorted).2.2
    constructor
    · rintro rfl
      have hx := (hlast x).mp (by simp)
      refine ⟨hx.1, hx.2, fun e' he' hlt => ?_⟩
      rcases List.mem_append.mp ((hlast e').mpr ⟨he', hlt⟩) with h | h
      · exact Or.inr (hbefore e' h x (by simp))
      · exact Or.inl (List.mem_singleton.mp h)
    · rintro ⟨he, hlt, hgreatest⟩
      have hx := (hlast x).mp (by simp)
      rcases hgreatest x hx.1 hx.2 with h | h
      · exact h
      · rcases List.mem_append.mp ((hlast e).mpr ⟨he, hlt⟩) with h' | h'
        · exact absurd (hbefore e h' x (by simp)) (asymm_of (fun a b => lt a b = true) h)
        · exact (List.mem_singleton.mp h').symm

end Order

end VoipMonitor.Library.SortedMap

/-!
## Grouping by keys

The values of a list are collected under their keys in a map in key order. Under one key the values
keep their order.
-/

namespace VoipMonitor.Library.SortedMap

variable {κ β : Type} [DecidableEq κ]

/-- The value is put behind those at its key. -/
def push (lt : κ → κ → Bool) (m : List (κ × List β)) (e : κ × β) : List (κ × List β) :=
  set lt e.1 ((get e.1 m).getD [] ++ [e.2]) m

def group (lt : κ → κ → Bool) (l : List (κ × β)) : List (κ × List β) := l.foldl (push lt) []

def valuesAt (k : κ) (l : List (κ × β)) : List β := (l.filter (fun e => e.1 = k)).map Prod.snd

/-- The values one by one with their keys. -/
def listing (m : List (κ × List β)) : List (κ × β) := m.flatMap (fun e => e.2.map (fun v => (e.1, v)))

lemma group_concat (lt : κ → κ → Bool) (l : List (κ × β)) (e : κ × β) :
    group lt (l ++ [e]) = push lt (group lt l) e := by
  rw [group, List.foldl_append]
  rfl

lemma valuesAt_concat (k : κ) (l : List (κ × β)) (e : κ × β) :
    valuesAt k (l ++ [e]) = valuesAt k l ++ (if e.1 = k then [e.2] else []) := by
  rw [valuesAt, List.filter_append, List.map_append, ← valuesAt, List.filter_singleton]
  by_cases h : e.1 = k
  · rw [if_pos h]
    simp [h]
  · rw [if_neg h]
    simp [h]

omit [DecidableEq κ] in
lemma getD_ite_nil (vs : List β) :
    (if vs = [] then none else some vs).getD [] = vs := by
  split
  · rename_i hnil
    exact hnil.symm
  · rfl

lemma get_group (lt : κ → κ → Bool) (l : List (κ × β)) (k : κ) :
    get k (group lt l) = if valuesAt k l = [] then none else some (valuesAt k l) := by
  induction l using List.reverseRecOn with
  | nil => rfl
  | append_singleton l e ih =>
    rw [group_concat, push, get_set, valuesAt_concat]
    by_cases hkey : e.1 = k
    · subst hkey
      have hne : valuesAt e.1 l ++ [e.2] ≠ [] := List.append_ne_nil_of_right_ne_nil _ (by simp)
      rw [if_pos rfl, if_pos rfl, ih, getD_ite_nil, if_neg hne]
    · rw [if_neg hkey, if_neg hkey, List.append_nil, ih]

lemma getD_group (lt : κ → κ → Bool) (l : List (κ × β)) (k : κ) :
    (get k (group lt l)).getD [] = valuesAt k l := by
  rw [get_group, getD_ite_nil]

lemma group_map (lt : κ → κ → Bool) {γ : Type} (f : β → γ) (l : List (κ × β)) :
    group lt (l.map (fun e => (e.1, f e.2))) =
      (group lt l).map (fun e => (e.1, e.2.map f)) := by
  induction l using List.reverseRecOn with
  | nil => rfl
  | append_singleton l e ih =>
    have hget : ((get e.1 (group lt l)).map (List.map f)).getD [] =
        ((get e.1 (group lt l)).getD []).map f := by
      cases get e.1 (group lt l) <;> rfl
    rw [List.map_append, List.map_singleton, group_concat, group_concat, ih, push, push,
      get_map (fun _ => List.map f), hget, map_set, List.map_append, List.map_singleton]

omit [DecidableEq κ] in
lemma listing_append (m m' : List (κ × List β)) :
    listing (m ++ m') = listing m ++ listing m' := List.flatMap_append

section Order
variable {lt : κ → κ → Bool} [IsStrictTotalOrder κ (fun a b => lt a b = true)]

lemma sorted_group (l : List (κ × β)) : Sorted lt (group lt l) := by
  induction l using List.reverseRecOn with
  | nil => exact List.Pairwise.nil
  | append_singleton l e ih =>
    rw [group_concat, push]
    exact ih.set _ _

lemma group_ne_nil (l : List (κ × β)) {e : κ × List β} (he : e ∈ group lt l) : e.2 ≠ [] := by
  have hget := (sorted_group l).get_of_mem he
  rw [get_group] at hget
  intro hnil
  split at hget
  · cases hget
  · rename_i hne
    exact hne ((Option.some.inj hget).trans hnil)

lemma mem_listing_group {l : List (κ × β)} {e : κ × β} (h : e ∈ listing (group lt l)) : e ∈ l := by
  obtain ⟨g, hg, he⟩ := List.mem_flatMap.mp h
  obtain ⟨v, hv, rfl⟩ := List.mem_map.mp he
  have hvalues : (get g.1 (group lt l)).getD [] = g.2 := by
    rw [(sorted_group l).get_of_mem hg]
    rfl
  rw [← hvalues, getD_group] at hv
  obtain ⟨e, hfilter, rfl⟩ := List.mem_map.mp hv
  obtain ⟨hmem, hkey⟩ := List.mem_filter.mp hfilter
  rwa [← of_decide_eq_true hkey]

lemma Sorted.filter_pair {m : List (κ × β)} (hm : Sorted lt m) {k₁ k₂ : κ} (hlt : lt k₁ k₂ = true) :
    m.filter (fun e => e.1 = k₁ ∨ e.1 = k₂) =
      m.filter (fun e => e.1 = k₁) ++ m.filter (fun e => e.1 = k₂) := by
  refine (hm.filter _).ext ?_ fun e => ?_
  · refine List.pairwise_append.mpr ⟨hm.filter _, hm.filter _, fun a ha b hb => ?_⟩
    have hak := of_decide_eq_true (List.mem_filter.mp ha).2
    have hbk := of_decide_eq_true (List.mem_filter.mp hb).2
    rw [hak, hbk]
    exact hlt
  · simp only [List.mem_append, List.mem_filter, decide_eq_true_eq]
    tauto

lemma listing_filter_key {m : List (κ × List β)} (hm : Sorted lt m) (k : κ) :
    listing (m.filter (fun e => e.1 = k)) = ((get k m).getD []).map (fun v => (k, v)) := by
  rw [hm.filter_key]
  cases get k m with
  | none => rfl
  | some vs => exact List.append_nil _

lemma listing_group_filter (l : List (κ × β)) {k₁ k₂ : κ} (hlt : lt k₁ k₂ = true) :
    (listing (group lt l)).filter (fun e => e.1 = k₁ ∨ e.1 = k₂) =
      (valuesAt k₁ l).map (fun v => (k₁, v)) ++ (valuesAt k₂ l).map (fun v => (k₂, v)) := by
  have hsorted : Sorted lt (group lt l) := sorted_group l
  have hfilter : (listing (group lt l)).filter (fun e => e.1 = k₁ ∨ e.1 = k₂) =
      listing ((group lt l).filter (fun e => e.1 = k₁ ∨ e.1 = k₂)) := by
    generalize group lt l = m
    induction m with
    | nil => rfl
    | cons e m ih =>
      rw [listing, List.flatMap_cons, List.filter_append, ← listing, ih]
      by_cases hkey : e.1 = k₁ ∨ e.1 = k₂
      · rw [List.filter_cons_of_pos (by simpa using hkey), listing, listing, List.flatMap_cons]
        congr 1
        exact List.filter_eq_self.mpr (by simp [hkey])
      · rw [List.filter_cons_of_neg (by simpa using hkey)]
        have hnil : (e.2.map (fun v => (e.1, v))).filter (fun e => e.1 = k₁ ∨ e.1 = k₂) = [] :=
          List.filter_eq_nil_iff.mpr (by simpa using fun _ _ => not_or.mp hkey)
        rw [hnil, List.nil_append]
  rw [hfilter, hsorted.filter_pair hlt, listing, List.flatMap_append, ← listing, ← listing,
    listing_filter_key hsorted, listing_filter_key hsorted, getD_group, getD_group]

end Order

end VoipMonitor.Library.SortedMap

/-!
## Listing an ordered map

An ordered map is listed in key order, so its listing is determined by its lookups.
-/

namespace VoipMonitor.Library
open Std

variable {α : Type*} {β : Type*} {cmp : α → α → Ordering} [TransCmp cmp] [LawfulEqCmp cmp]

omit [LawfulEqCmp cmp] in
lemma nodup_of_keys_lt {l : List (α × β)} (h : l.Pairwise (fun a b => cmp a.1 b.1 = .lt)) :
    l.Nodup := by
  refine h.imp ?_
  rintro a b hab rfl
  have hself : cmp a.1 a.1 = .eq := ReflCmp.compare_self
  rw [hself] at hab
  cases hab

/-- A list sorted by key that agrees with every lookup is the listing of the map. -/
theorem toList_eq_of_getElem? {m : TreeMap α β cmp} {l : List (α × β)}
    (hl : l.Pairwise (fun a b => cmp a.1 b.1 = .lt))
    (hm : ∀ k v, m[k]? = some v ↔ (k, v) ∈ l) : m.toList = l := by
  have hsorted := TreeMap.ordered_keys_toList (t := m)
  have hperm : m.toList.Perm l := by
    rw [List.perm_ext_iff_of_nodup (nodup_of_keys_lt hsorted) (nodup_of_keys_lt hl)]
    rintro ⟨k, v⟩
    rw [TreeMap.mem_toList_iff_getElem?_eq_some, hm]
  refine hperm.eq_of_pairwise ?_ hsorted hl
  intro a b _ _ hab hba
  exact absurd hba (OrientedCmp.not_lt_of_lt hab)

end VoipMonitor.Library
