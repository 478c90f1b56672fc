import VoipMonitor.Library.Cuts
import VoipMonitor.Model.SocketBlock

/-!
# Lines that `readLine` reads

The end of a line is looked for in each read on its own, and its position 0 stands for none. A line
whose end begins a read goes on to the next end of a line that does not.
-/

namespace VoipMonitor.SocketBlock
open VoipMonitor.Library

/-- A line, its end and what follows, cut into reads. -/
structure CutLine (line ends rest : Bytes) (reads : List Bytes) : Prop where
  line_ne : line ≠ []
  line_plain : ∀ c ∈ line, isEndLine c = false
  ends_ne : ends ≠ []
  ends_end : ∀ c ∈ ends, isEndLine c = true
  rest_plain : ∀ c, rest.head? = some c → isEndLine c = false
  reads_ne : ∀ read ∈ reads, read ≠ []
  reads_le : ∀ read ∈ reads, read.length ≤ 10 * 1024
  whole : reads.flatten = line ++ ends ++ rest

def Line.unreadBytes (q : Line) : Bytes := (q.unread.map (fun read => read.getD [])).flatten

/-- `readLine` returns the line. In front of what follows it there stand only bytes of the end that
were not in the read `i`, in which the end begins. -/
def ReturnsLine (line ends rest : Bytes) (reads : List Bytes) : Prop :=
  ∃ q, readLine (reads.map some) = some q ∧ q.line = line ∧
    ∃ i, cut reads i ≤ line.length ∧ line.length < cut reads (i + 1) ∧
      ∃ late, late <:+ ends.drop (cut reads (i + 1) - line.length) ∧
        q.remainder.getD [] ++ q.unreadBytes = late ++ rest

variable {line ends rest text : Bytes} {reads : List Bytes}

lemma endLinePos_plain (h : ∀ c ∈ text, isEndLine c = false) : endLinePos text = 0 := by
  have hnone : text.findIdx? isEndLine = none := by
    rw [List.findIdx?_eq_none_iff]
    exact h
  rw [endLinePos, hnone, Option.getD_none]

lemma endLinePos_append {c : UInt8} (h : ∀ c ∈ text, isEndLine c = false) (hc : isEndLine c = true)
    (after : Bytes) : endLinePos (text ++ c :: after) = text.length := by
  have hfound : (text ++ c :: after).findIdx? isEndLine = some text.length := by
    rw [List.findIdx?_append, List.findIdx?_eq_none_iff.mpr h, List.findIdx?_cons, hc]
    simp
  rw [endLinePos, hfound, Option.getD_some]

lemma readLineLoop_plain {before : List Bytes} (h : ∀ c ∈ before.flatten, isEndLine c = false)
    (later : List (Option Bytes)) (done : Bytes) :
    readLineLoop (before.map some ++ later) done = readLineLoop later (done ++ before.flatten) := by
  induction before generalizing done with
  | nil => rw [List.map_nil, List.nil_append, List.flatten_nil, List.append_nil]
  | cons read before ih =>
    rw [List.flatten_cons, List.forall_mem_append] at h
    rw [List.map_cons, List.cons_append, readLineLoop]
    rw [if_neg (not_not.mpr (endLinePos_plain h.1)), ih h.2, List.flatten_cons, List.append_assoc]

lemma readLineLoop_front {later : List (Option Bytes)} {done : Bytes} {q : Line}
    (h : readLineLoop later done = some q) : done <+: q.line := by
  induction later generalizing done with
  | nil => cases h
  | cons read later ih =>
    cases read with
    | none =>
      cases h
      exact List.prefix_rfl
    | some buffer =>
      rw [readLineLoop] at h
      split at h
      · cases h
        exact List.prefix_append _ _
      · exact (List.prefix_append _ _).trans (ih h)

structure EndRead (line ends rest : Bytes) (reads before : List Bytes) (head mid : Bytes)
    (after : List Bytes) : Prop where
  reads_eq : reads = before ++ (head ++ mid) :: after
  line_eq : line = before.flatten ++ head
  mid_ne : mid ≠ []
  behind : ends ++ rest = mid ++ after.flatten

variable {before after : List Bytes} {head mid : Bytes}

lemma CutLine.exists_endRead (h : CutLine line ends rest reads) :
    ∃ before head mid after, EndRead line ends rest reads before head mid after := by
  obtain ⟨-, -, hends, -, -, -, -, hwhole⟩ := h
  rw [List.append_assoc] at hwhole
  induction reads generalizing line with
  | nil =>
    have hnil := List.append_eq_nil_iff.mp (List.append_eq_nil_iff.mp hwhole.symm).2
    exact absurd hnil.1 hends
  | cons read reads ih =>
    rw [List.flatten_cons] at hwhole
    rcases List.append_eq_append_iff.mp hwhole with ⟨left, hline, hrest⟩ | ⟨mid, hread, hbehind⟩
    · -- the read lies in the line
      obtain ⟨before, head, mid, after, hsplit⟩ := ih hrest
      refine ⟨read :: before, head, mid, after, ?_, ?_, hsplit.mid_ne, hsplit.behind⟩
      · rw [hsplit.reads_eq, List.cons_append]
      · rw [hline, hsplit.line_eq, List.flatten_cons, List.append_assoc]
    · by_cases hmid : mid = []
      · rw [hmid, List.append_nil] at hread
        rw [hmid, List.nil_append] at hbehind
        have hrest : reads.flatten = [] ++ (ends ++ rest) := hbehind.symm
        obtain ⟨before, head, mid, after, hsplit⟩ := ih hrest
        refine ⟨read :: before, head, mid, after, ?_, ?_, hsplit.mid_ne, hsplit.behind⟩
        · rw [hsplit.reads_eq, List.cons_append]
        · rw [List.flatten_cons, List.append_assoc, ← hsplit.line_eq, List.append_nil, hread]
      · exact ⟨[], line, mid, reads, by rw [List.nil_append, hread], rfl, hmid, hbehind⟩

lemma EndRead.cut_eq (h : EndRead line ends rest reads before head mid after) :
    cut reads before.length + head.length = line.length ∧
      cut reads (before.length + 1) = line.length + mid.length := by
  have hbefore : cut reads before.length = before.flatten.length := by
    rw [cut, h.reads_eq, List.take_left]
  have hat : before.length < reads.length := by
    rw [h.reads_eq, List.length_append, List.length_cons]
    omega
  have hread : reads[before.length] = head ++ mid := by
    simp only [h.reads_eq, List.getElem_append_right (Nat.le_refl _), Nat.sub_self,
      List.getElem_cons_zero]
  rw [cut_succ hat, hread, hbefore, h.line_eq, List.length_append, List.length_append]
  exact ⟨rfl, by omega⟩

lemma EndRead.boundary_iff (h : EndRead line ends rest reads before head mid after) :
    (∀ k, cut reads k ≠ line.length) ↔ head ≠ [] := by
  obtain ⟨hat, hnext⟩ := h.cut_eq
  have hmid : 0 < mid.length := List.length_pos_iff.mpr h.mid_ne
  constructor
  · rintro hk rfl
    exact hk before.length hat
  · intro hhead k hk
    have hpos : 0 < head.length := List.length_pos_iff.mpr hhead
    rcases Nat.lt_or_ge before.length k with hgt | hle
    · have hmono : cut reads (before.length + 1) ≤ cut reads k := cut_mono reads hgt
      omega
    · have hmono := cut_mono reads hle
      omega

lemma dropWhile_append_later {later : Bytes} (hends : ∀ c ∈ ends, isEndLine c = true)
    (hrest : ∀ c, rest.head? = some c → isEndLine c = false) (h : ends ++ rest = mid ++ later) :
    mid.dropWhile isEndLine ++ later = ends.drop mid.length ++ rest := by
  rcases List.append_eq_append_iff.mp h with ⟨more, hmid, hmore⟩ | ⟨late, hends', hlater⟩
  · -- the read goes on behind the end
    rw [hmid, List.dropWhile_append_of_pos hends, List.length_append, List.drop_of_length_le (by omega),
      List.nil_append, hmore]
    cases more with
    | nil => rfl
    | cons c more =>
      have hc := hrest c (by rw [hmore]; rfl)
      rw [List.dropWhile_cons_of_neg (by rw [hc]; exact Bool.false_ne_true)]
  · have hall : mid.dropWhile isEndLine = [] := by
      rw [List.dropWhile_eq_nil_iff]
      intro c hc
      exact hends c (by rw [hends']; exact List.mem_append_left _ hc)
    rw [hall, hends', List.drop_left, List.nil_append, hlater]

/-- `readLine` returns the line exactly if no read begins with the end of the line. -/
theorem readLine_iff (line ends rest : Bytes) (reads : List Bytes)
    (h : CutLine line ends rest reads) :
    ReturnsLine line ends rest reads ↔ ∀ k, cut reads k ≠ line.length := by
  obtain ⟨before, head, mid, after, hsplit⟩ := h.exists_endRead
  obtain ⟨hat, hnext⟩ := hsplit.cut_eq
  rw [hsplit.boundary_iff]
  obtain ⟨c, tail, rfl⟩ := List.exists_cons_of_ne_nil hsplit.mid_ne
  have hc : isEndLine c = true := by
    obtain ⟨e, ends', rfl⟩ := List.exists_cons_of_ne_nil h.ends_ne
    have hbehind := hsplit.behind
    rw [List.cons_append, List.cons_append] at hbehind
    rw [← (List.cons.inj hbehind).1]
    exact h.ends_end e List.mem_cons_self
  have hplain := h.line_plain
  rw [hsplit.line_eq, List.forall_mem_append] at hplain
  have hpos := endLinePos_append hplain.2 hc tail
  have hloop : readLine (reads.map some) =
      readLineLoop (some (head ++ c :: tail) :: after.map some) before.flatten := by
    rw [readLine, hsplit.reads_eq, List.map_append, List.map_cons, readLineLoop_plain hplain.1,
      List.nil_append]
  constructor
  · rintro ⟨q, hq, hline, -⟩ rfl
    -- the whole read is taken into the line
    rw [hloop, readLineLoop] at hq
    have hzero : endLinePos ([] ++ c :: tail) = 0 := hpos
    rw [if_neg (not_not.mpr hzero)] at hq
    have hlonger := (readLineLoop_front hq).length_le
    rw [hline, hsplit.line_eq, List.append_nil, List.length_append, List.nil_append,
      List.length_cons] at hlonger
    omega
  · intro hhead
    have hfound : endLinePos (head ++ c :: tail) ≠ 0 := by
      rw [hpos]
      exact (List.length_pos_iff.mpr hhead).ne'
    have hq : readLine (reads.map some) = some {
        line := line
        remainder := if (c :: tail).dropWhile isEndLine = [] then none
          else some ((c :: tail).dropWhile isEndLine)
        unread := after.map some } := by
      rw [hloop, readLineLoop]
      rw [if_pos hfound, hpos, List.drop_left, List.take_left, ← hsplit.line_eq]
    refine ⟨_, hq, rfl, before.length, by omega, by rw [hnext, List.length_cons]; omega, _,
      List.suffix_rfl, ?_⟩
    have hunread : (after.map some).map (fun read => read.getD []) = after := by
      rw [List.map_map]
      exact List.map_id' after
    have hremainder : (if (c :: tail).dropWhile isEndLine = [] then none
        else some ((c :: tail).dropWhile isEndLine)).getD [] = (c :: tail).dropWhile isEndLine := by
      split
      · rename_i hnil
        rw [hnil]
        rfl
      · rfl
    rw [Line.unreadBytes, hunread, hremainder, hnext, Nat.add_sub_cancel_left]
    exact dropWhile_append_later h.ends_end h.rest_plain hsplit.behind

theorem readLine_two_reads :
    ReturnsLine [71, 69, 84] [13, 10] [65] [[71, 69], [84, 13], [10, 65]] :=
  (readLine_iff _ _ _ _ ⟨by decide, by simp [isEndLine], by decide, by simp [isEndLine],
    by simp [isEndLine], by decide, by decide, rfl⟩).mpr (by
      intro k hk
      have h3 : cut [[71, 69], [84, 13], [10, 65]] k ≠ 3 := by
        rcases k with _ | _ | k
        · decide
        · decide
        · have hmono := cut_mono [[71, 69], [84, 13], [10, 65]] (by omega : 2 ≤ k + 1 + 1)
          have htwo : cut [[71, 69], [84, 13], [10, 65]] 2 = 4 := by decide
          omega
      exact h3 hk)

/-- The end of the line begins the second read, and the third one ends the line. -/
theorem readLine_skips_end :
    ¬∀ (line ends rest : Bytes) (reads : List Bytes), CutLine line ends rest reads →
      ReturnsLine line ends rest reads := by
  intro h
  obtain ⟨q, hq, hline, -⟩ := h [71, 69, 84] [13, 10] [65, 66, 10, 67]
    [[71, 69, 84], [13, 10, 65], [66, 10, 67]]
    ⟨by decide, by simp [isEndLine], by decide, by simp [isEndLine], by simp [isEndLine],
      by decide, by decide, rfl⟩
  have hreturned : readLine ([[71, 69, 84], [13, 10, 65], [66, 10, 67]].map some) =
      some ⟨[71, 69, 84, 13, 10, 65, 66], some [67], []⟩ := by decide
  rw [hreturned] at hq
  cases hq
  exact absurd hline (by decide)

end VoipMonitor.SocketBlock
