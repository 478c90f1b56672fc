import VoipMonitor.Library.Search

/-!
# Replacing and cutting at a text

`replaceAll` replaces every occurrence of a text from the left to the right, and `pieces` cuts at
every occurrence. An element that does not occur in the text which is looked for separates the
occurrences on its two sides (`replaceAll_append_cons`).
-/

namespace VoipMonitor.Library

section Replace

variable {α : Type}

lemma prefix_of_not_mem {find a b : List α} {c : α} (hc : c ∉ find) (h : find <+: a ++ c :: b) :
    find <+: a := by
  refine List.prefix_of_prefix_length_le h (List.prefix_append a _) ?_
  by_contra hlong
  have hmem : a ++ [c] <+: find := by
    refine List.prefix_of_prefix_length_le ⟨b, by simp⟩ h ?_
    rw [List.length_append, List.length_singleton]
    omega
  exact hc (hmem.subset (List.mem_append_right a List.mem_cons_self))

variable [DecidableEq α]

/-- The scan of `replaceAll`; the next `skip` elements belong to an occurrence. -/
def replaceFrom (find repl : List α) : Nat → List α → List α
  | _, [] => []
  | skip + 1, _ :: s => replaceFrom find repl skip s
  | 0, c :: s =>
    if find <+: c :: s then repl ++ replaceFrom find repl (find.length - 1) s
    else c :: replaceFrom find repl 0 s

def replaceAll (find repl s : List α) : List α := replaceFrom find repl 0 s

variable {find repl : List α}

lemma replaceFrom_append (find repl a b : List α) :
    replaceFrom find repl a.length (a ++ b) = replaceAll find repl b := by
  induction a with
  | nil => rfl
  | cons c a ih => exact ih

@[simp] lemma replaceAll_nil (find repl : List α) : replaceAll find repl [] = [] := rfl

lemma replaceAll_find_append (hne : find ≠ []) (repl b : List α) :
    replaceAll find repl (find ++ b) = repl ++ replaceAll find repl b := by
  obtain ⟨c, rest, rfl⟩ := List.exists_cons_of_ne_nil hne
  have hpre : c :: rest <+: c :: (rest ++ b) := List.prefix_append (c :: rest) b
  rw [replaceAll, List.cons_append, replaceFrom, if_pos hpre]
  exact congrArg (repl ++ ·) (replaceFrom_append (c :: rest) repl rest b)

lemma replaceAll_cons_of_no_occurrence {c : α} {s : List α} (h : ¬find <+: c :: s) :
    replaceAll find repl (c :: s) = c :: replaceAll find repl s := by
  rw [replaceAll, replaceFrom, if_neg h]
  rfl

lemma replaceAll_induction {motive : List α → Prop} (hne : find ≠ []) (nil : motive [])
    (occurrence : ∀ s, motive s → motive (find ++ s))
    (other : ∀ c s, ¬find <+: c :: s → motive s → motive (c :: s)) (s : List α) : motive s := by
  induction hlen : s.length using Nat.strong_induction_on generalizing s with
  | _ n ih =>
    cases s with
    | nil => exact nil
    | cons c s =>
      by_cases hpre : find <+: c :: s
      · obtain ⟨rest, hrest⟩ := hpre
        have hpos : 0 < find.length := List.length_pos_iff.mpr hne
        have hsum := congrArg List.length hrest
        rw [List.length_append] at hsum
        rw [← hrest]
        exact occurrence rest (ih rest.length (by omega) rest rfl)
      · exact other c s hpre (ih s.length (by rw [← hlen]; exact Nat.lt_succ_self _) s rfl)

lemma replaceAll_append_cons (hne : find ≠ []) {c : α} (hc : c ∉ find) (a b : List α) :
    replaceAll find repl (a ++ c :: b) =
      replaceAll find repl a ++ c :: replaceAll find repl b := by
  induction a using replaceAll_induction hne with
  | nil =>
    refine replaceAll_cons_of_no_occurrence ?_
    intro hpre
    exact hne (List.prefix_nil.mp (prefix_of_not_mem hc hpre))
  | occurrence s ih =>
    rw [List.append_assoc, replaceAll_find_append hne, ih, replaceAll_find_append hne,
      List.append_assoc]
  | other x s hpre ih =>
    have hpre' : ¬find <+: x :: (s ++ c :: b) := fun h => hpre (prefix_of_not_mem hc h)
    rw [List.cons_append, replaceAll_cons_of_no_occurrence hpre', ih,
      replaceAll_cons_of_no_occurrence hpre, List.cons_append]

lemma replaceAll_eq_nil (hne : find ≠ []) (hrepl : repl ≠ []) {s : List α} :
    replaceAll find repl s = [] ↔ s = [] := by
  induction s using replaceAll_induction hne with
  | nil => simp
  | occurrence s _ => simp [replaceAll_find_append hne, hne, hrepl]
  | other c s hpre _ => simp [replaceAll_cons_of_no_occurrence hpre]

lemma replaceAll_eq_self (hne : find ≠ []) {s : List α} (h : ¬find <:+: s) :
    replaceAll find repl s = s := by
  induction s using replaceAll_induction hne with
  | nil => rfl
  | occurrence s _ => exact absurd (List.prefix_append find s).isInfix h
  | other c s hpre ih =>
    rw [replaceAll_cons_of_no_occurrence hpre, ih fun hs => h (hs.trans (List.suffix_cons c s).isInfix)]

lemma replaceAll_append_of_not_mem {c : α} {rest a : List α} (hc : c ∉ a) (b : List α) :
    replaceAll (c :: rest) repl (a ++ b) = a ++ replaceAll (c :: rest) repl b := by
  induction a with
  | nil => rfl
  | cons x a ih =>
    have hpre : ¬c :: rest <+: x :: (a ++ b) := by
      intro hpre
      exact hc ((List.cons_prefix_cons.mp hpre).1 ▸ List.mem_cons_self)
    rw [List.cons_append, replaceAll_cons_of_no_occurrence hpre,
      ih fun h => hc (List.mem_cons_of_mem x h), List.cons_append]

lemma replaceAll_of_not_mem {c : α} {rest a : List α} (hc : c ∉ a) :
    replaceAll (c :: rest) repl a = a := by
  have h : replaceAll (c :: rest) repl (a ++ []) = a ++ replaceAll (c :: rest) repl [] :=
    replaceAll_append_of_not_mem hc []
  rwa [List.append_nil, replaceAll_nil, List.append_nil] at h

lemma mem_replaceAll (hne : find ≠ []) {s : List α} {c : α} (h : c ∈ replaceAll find repl s) :
    c ∈ repl ∨ c ∈ s := by
  induction s using replaceAll_induction hne with
  | nil => exact .inr h
  | occurrence s ih =>
    rw [replaceAll_find_append hne] at h
    rcases List.mem_append.mp h with h | h
    · exact .inl h
    · exact (ih h).imp_right (List.mem_append_right find)
  | other x s hpre ih =>
    rw [replaceAll_cons_of_no_occurrence hpre] at h
    rcases List.mem_cons.mp h with rfl | h
    · exact .inr List.mem_cons_self
    · exact (ih h).imp_right (List.mem_cons_of_mem x)

section Count

variable {p : α → Bool} (hne : find ≠ []) (hrepl : repl.countP p = 0)
include hne hrepl

lemma countP_replaceAll_le (s : List α) : (replaceAll find repl s).countP p ≤ s.countP p := by
  induction s using replaceAll_induction hne with
  | nil => rfl
  | occurrence s ih =>
    rw [replaceAll_find_append hne, List.countP_append, List.countP_append, hrepl]
    omega
  | other c s hpre ih =>
    rw [replaceAll_cons_of_no_occurrence hpre, List.countP_cons, List.countP_cons]
    omega

lemma countP_replaceAll_lt (hfind : 0 < find.countP p) {s : List α} (h : find <:+: s) :
    (replaceAll find repl s).countP p < s.countP p := by
  induction s using replaceAll_induction hne with
  | nil => exact absurd (List.infix_nil.mp h) hne
  | occurrence s _ =>
    have hle := countP_replaceAll_le hne hrepl s
    rw [replaceAll_find_append hne, List.countP_append, List.countP_append, hrepl]
    omega
  | other c s hpre ih =>
    have hs : find <:+: s := by
      rcases List.infix_cons_iff.mp h with h | h
      · exact absurd h hpre
      · exact h
    have := ih hs
    rw [replaceAll_cons_of_no_occurrence hpre, List.countP_cons, List.countP_cons]
    omega

end Count

section Kept

variable {p : α → Bool} (hne : find ≠ [])
include hne

lemma countP_replaceAll (hrepl : repl.countP p = find.countP p) (s : List α) :
    (replaceAll find repl s).countP p = s.countP p := by
  induction s using replaceAll_induction hne with
  | nil => rfl
  | occurrence s ih =>
    rw [replaceAll_find_append hne, List.countP_append, List.countP_append, hrepl, ih]
  | other c s hpre ih =>
    rw [replaceAll_cons_of_no_occurrence hpre, List.countP_cons, List.countP_cons, ih]

lemma le_countP_replaceAll (hrepl : find.countP p ≤ repl.countP p) (s : List α) :
    s.countP p ≤ (replaceAll find repl s).countP p := by
  induction s using replaceAll_induction hne with
  | nil => rfl
  | occurrence s ih =>
    rw [replaceAll_find_append hne, List.countP_append, List.countP_append]
    omega
  | other c s hpre ih =>
    rw [replaceAll_cons_of_no_occurrence hpre, List.countP_cons, List.countP_cons]
    omega

lemma lt_countP_replaceAll (hrepl : find.countP p < repl.countP p) {s : List α} (h : find <:+: s) :
    s.countP p < (replaceAll find repl s).countP p := by
  induction s using replaceAll_induction hne with
  | nil => exact absurd (List.infix_nil.mp h) hne
  | occurrence s _ =>
    have hle := le_countP_replaceAll hne hrepl.le s
    rw [replaceAll_find_append hne, List.countP_append, List.countP_append]
    omega
  | other c s hpre ih =>
    have hs : find <:+: s := (List.infix_cons_iff.mp h).resolve_left hpre
    have := ih hs
    rw [replaceAll_cons_of_no_occurrence hpre, List.countP_cons, List.countP_cons]
    omega

end Kept

end Replace

/-- The pieces between the occurrences of `delim`, the empty ones too. -/
def piecesFrom (delim : Bytes) : Nat → Bytes → List Bytes
  | _, [] => [[]]
  | skip + 1, _ :: s => piecesFrom delim skip s
  | 0, c :: s =>
    if delim <+: c :: s then [] :: piecesFrom delim (delim.length - 1) s
    else (c :: (piecesFrom delim 0 s).headD []) :: (piecesFrom delim 0 s).tail

def pieces (delim s : Bytes) : List Bytes := piecesFrom delim 0 s

lemma piecesFrom_append (delim a b : Bytes) :
    piecesFrom delim a.length (a ++ b) = pieces delim b := by
  induction a with
  | nil => rfl
  | cons c a ih => exact ih

lemma pieces_append {delim : Bytes} (hne : delim ≠ []) {a b : Bytes}
    (h : ∀ j < a.length, ¬OccursAt delim (a ++ (delim ++ b)) j) :
    pieces delim (a ++ (delim ++ b)) = a :: pieces delim b := by
  induction a with
  | nil =>
    obtain ⟨c, rest, rfl⟩ := List.exists_cons_of_ne_nil hne
    have hpre : c :: rest <+: c :: (rest ++ b) := List.prefix_append (c :: rest) b
    rw [List.nil_append, pieces, List.cons_append, piecesFrom, if_pos hpre]
    exact congrArg ([] :: ·) (piecesFrom_append (c :: rest) rest b)
  | cons c a ih =>
    have hpre : ¬delim <+: c :: (a ++ (delim ++ b)) := h 0 (Nat.succ_pos _)
    have hrest := ih fun j hj => h (j + 1) (Nat.succ_lt_succ hj)
    rw [pieces] at hrest
    rw [List.cons_append, pieces, piecesFrom, if_neg hpre, hrest]
    rfl

lemma pieces_of_not_occurs {delim a : Bytes} (h : ∀ j < a.length, ¬OccursAt delim a j) :
    pieces delim a = [a] := by
  induction a with
  | nil => rfl
  | cons c a ih =>
    have hpre : ¬delim <+: c :: a := h 0 (Nat.succ_pos _)
    have hrest := ih fun j hj => h (j + 1) (Nat.succ_lt_succ hj)
    rw [pieces] at hrest
    rw [pieces, piecesFrom, if_neg hpre, hrest]
    rfl

/-- The texts with `sep` between them. -/
def joinText (sep : Bytes) : List Bytes → Bytes
  | [] => []
  | t :: texts => t ++ texts.flatMap (sep ++ ·)

lemma joinText_singleton (sep t : Bytes) : joinText sep [t] = t := List.append_nil t

lemma joinText_cons_cons (sep t t' : Bytes) (texts : List Bytes) :
    joinText sep (t :: t' :: texts) = t ++ (sep ++ joinText sep (t' :: texts)) := by
  rw [joinText, joinText, List.flatMap_cons, List.append_assoc]

lemma joinText_concat (sep : Bytes) {texts : List Bytes} (hne : texts ≠ []) (t : Bytes) :
    joinText sep (texts ++ [t]) = joinText sep texts ++ sep ++ t := by
  obtain ⟨first, rest, rfl⟩ := List.exists_cons_of_ne_nil hne
  rw [List.cons_append, joinText, joinText, List.flatMap_append, List.flatMap_singleton]
  simp only [List.append_assoc]

lemma mem_joinText {sep : Bytes} {texts : List Bytes} {c : UInt8} (h : c ∈ joinText sep texts) :
    c ∈ sep ∨ ∃ t ∈ texts, c ∈ t := by
  cases texts with
  | nil => cases h
  | cons t texts =>
    rw [joinText, List.mem_append] at h
    rcases h with h | h
    · exact .inr ⟨t, List.mem_cons_self, h⟩
    · obtain ⟨t', hmem, h⟩ := List.mem_flatMap.mp h
      rcases List.mem_append.mp h with h | h
      · exact .inl h
      · exact .inr ⟨t', List.mem_cons_of_mem t hmem, h⟩

lemma pieces_joinText {delim : Bytes} (hne : delim ≠ []) (hub : Unbordered delim)
    {texts : List Bytes} (hne' : texts ≠ []) (h : ∀ t ∈ texts, ∀ j, ¬OccursAt delim t j) :
    pieces delim (joinText delim texts) = texts := by
  obtain ⟨first, rest, rfl⟩ := List.exists_cons_of_ne_nil hne'
  clear hne'
  rw [joinText]
  induction rest generalizing first with
  | nil =>
    rw [List.flatMap_nil, List.append_nil]
    exact pieces_of_not_occurs fun j _ => h first List.mem_cons_self j
  | cons t rest ih =>
    rw [List.flatMap_cons, List.append_assoc,
      pieces_append hne (first_occurrence hub (h first List.mem_cons_self)).2,
      ih t fun t' ht' => h t' (List.mem_cons_of_mem first ht')]

end VoipMonitor.Library
