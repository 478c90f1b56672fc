import VoipMonitor.Library.Runs
import VoipMonitor.Model.SocketBlock

/-!
# When a written buffer is whole

`socketWrite` counts the rest of the buffer as written after a time-out, and keeps its count when
the connection is opened again. As long as neither happens at the wrong moment the connection gets
the buffer.
-/

namespace VoipMonitor.SocketWrite
open VoipMonitor.Library

def TimesOut (cfg : Config) (r : Round) : Prop :=
  cfg.mirrorNonblockMode = true ∧ 0 ≤ r.poll ∧ ¬(r.poll > 0 ∧ r.ready = true)

def Fails (cfg : Config) (r : Round) : Prop :=
  (cfg.mirrorNonblockMode = true ∧ r.poll < 0) ∨ (¬TimesOut cfg r ∧ r.send ≤ 0)

/-- No time-out, and a failure only while nothing is counted as written. -/
def Undisturbed (cfg : Config) (s : WriteState) (r : Round) : Prop :=
  s.returned = none → ¬TimesOut cfg r ∧ (Fails cfg r → s.dataLenWrited = 0)

variable {cfg : Config} {data : Bytes} {s : WriteState} {r : Round}

structure LoopOk (data : Bytes) (s : WriteState) : Prop where
  le : s.dataLenWrited ≤ data.length
  running : s.returned = none → s.dataLenWrited < data.length
  written : s.returned = some true → s.dataLenWrited = data.length

def Whole (data : Bytes) (s : WriteState) : Prop := s.sent = data.take s.dataLenWrited

def Lacking (s : WriteState) : Prop := s.sent.length < s.dataLenWrited

lemma sendData_fails {rest : Bytes} (h : r.send ≤ 0) : sendData r rest = none := if_pos h

lemma sendData_sends {rest : Bytes} (h : ¬r.send ≤ 0) :
    sendData r rest =
      some (min r.send.toNat rest.length, rest.take (min r.send.toNat rest.length)) := if_neg h

lemma _socketWrite_cases (cfg : Config) (r : Round) (rest : Bytes) :
    (TimesOut cfg r ∧ ¬Fails cfg r ∧ _socketWrite cfg r rest = some (rest.length, [])) ∨
      (¬TimesOut cfg r ∧ Fails cfg r ∧ _socketWrite cfg r rest = none) ∨
      (¬TimesOut cfg r ∧ ¬Fails cfg r ∧ ∃ n, n ≤ rest.length ∧
        _socketWrite cfg r rest = some (n, rest.take n)) := by
  unfold Fails _socketWrite
  by_cases hmode : cfg.mirrorNonblockMode = true
  · rw [if_pos hmode]
    by_cases hpoll : r.poll < 0
    · have hno : ¬TimesOut cfg r := fun h => by
        have := h.2.1
        omega
      rw [if_pos hpoll]
      exact Or.inr (Or.inl ⟨hno, Or.inl ⟨hmode, hpoll⟩, rfl⟩)
    · rw [if_neg hpoll]
      by_cases hready : r.poll > 0 ∧ r.ready = true
      · have hno : ¬TimesOut cfg r := fun h => h.2.2 hready
        rw [if_pos hready]
        by_cases hsend : r.send ≤ 0
        · exact Or.inr (Or.inl ⟨hno, Or.inr ⟨hno, hsend⟩, sendData_fails hsend⟩)
        · exact Or.inr (Or.inr ⟨hno, by tauto, _, Nat.min_le_right _ _, sendData_sends hsend⟩)
      · have htime : TimesOut cfg r := ⟨hmode, by omega, hready⟩
        rw [if_neg hready]
        exact Or.inl ⟨htime, by tauto, rfl⟩
  · have hno : ¬TimesOut cfg r := fun h => hmode h.1
    rw [if_neg hmode]
    by_cases hsend : r.send ≤ 0
    · exact Or.inr (Or.inl ⟨hno, Or.inr ⟨hno, hsend⟩, sendData_fails hsend⟩)
    · exact Or.inr (Or.inr ⟨hno, by tauto, _, Nat.min_le_right _ _, sendData_sends hsend⟩)

lemma loopCondition_fields (data : Bytes) (s : WriteState) :
    (loopCondition data s).dataLenWrited = s.dataLenWrited ∧
      (loopCondition data s).sent = s.sent := by
  unfold loopCondition
  split <;> exact ⟨rfl, rfl⟩

lemma loopCondition_ok (hle : s.dataLenWrited ≤ data.length) (hrun : s.returned = none) :
    LoopOk data (loopCondition data s) := by
  unfold loopCondition
  split
  · rename_i h
    exact ⟨hle, fun _ => h, fun h0 => by rw [hrun] at h0; cases h0⟩
  · exact ⟨hle, fun h0 => (by cases h0), fun _ => by dsimp only; omega⟩

lemma writeStep_returned (h : s.returned ≠ none) : writeStep cfg data s r = s := if_pos h

lemma writeStep_cases (cfg : Config) (r : Round) (hs : LoopOk data s)
    (hrun : s.returned = none) :
    LoopOk data (writeStep cfg data s r) ∧
      ((TimesOut cfg r ∧ (writeStep cfg data s r).dataLenWrited = data.length ∧
          (writeStep cfg data s r).sent = s.sent) ∨
        (Fails cfg r ∧ ¬TimesOut cfg r ∧ (writeStep cfg data s r).returned = some false ∧
          (writeStep cfg data s r).dataLenWrited = s.dataLenWrited ∧
          (writeStep cfg data s r).sent = s.sent) ∨
        (Fails cfg r ∧ ¬TimesOut cfg r ∧ (writeStep cfg data s r).sent = [] ∧
          (writeStep cfg data s r).dataLenWrited = s.dataLenWrited) ∨
        (¬TimesOut cfg r ∧ ¬Fails cfg r ∧ ∃ n, n ≤ data.length - s.dataLenWrited ∧
          (writeStep cfg data s r).dataLenWrited = s.dataLenWrited + n ∧
          (writeStep cfg data s r).sent = s.sent ++ (data.drop s.dataLenWrited).take n)) := by
  have hlt := hs.running hrun
  have hrest : (data.drop s.dataLenWrited).length = data.length - s.dataLenWrited :=
    List.length_drop
  rw [writeStep, if_neg (not_not.mpr hrun)]
  rcases _socketWrite_cases cfg r (data.drop s.dataLenWrited) with
    ⟨htime, hfail, heq⟩ | ⟨htime, hfail, heq⟩ | ⟨htime, hfail, n, hn, heq⟩
  · rw [heq]
    obtain ⟨hcount, hsent⟩ := loopCondition_fields data
      { s with
        dataLenWrited := s.dataLenWrited + (data.drop s.dataLenWrited).length
        sent := s.sent ++ [] }
    refine ⟨loopCondition_ok (by dsimp only; omega) hrun, Or.inl ⟨htime, ?_, ?_⟩⟩
    · rw [hcount]
      dsimp only
      omega
    · rw [hsent, List.append_nil]
  · rw [heq]
    dsimp only
    split
    · exact ⟨⟨hs.le, fun h => (by cases h), fun h => (by cases h)⟩,
        Or.inr (Or.inl ⟨hfail, htime, rfl, rfl, rfl⟩)⟩
    · exact ⟨⟨hs.le, hs.running, hs.written⟩, Or.inr (Or.inr (Or.inl ⟨hfail, htime, rfl, rfl⟩))⟩
  · rw [heq]
    obtain ⟨hcount, hsent⟩ := loopCondition_fields data
      { s with
        dataLenWrited := s.dataLenWrited + n
        sent := s.sent ++ (data.drop s.dataLenWrited).take n }
    exact ⟨loopCondition_ok (by dsimp only; omega) hrun,
      Or.inr (Or.inr (Or.inr ⟨htime, hfail, n, by omega, hcount, hsent⟩))⟩

lemma LoopOk.step (hs : LoopOk data s) (cfg : Config) (r : Round) :
    LoopOk data (writeStep cfg data s r) := by
  by_cases hrun : s.returned = none
  · exact (writeStep_cases cfg r hs hrun).1
  · rw [writeStep_returned hrun]
    exact hs

lemma Whole.step (hs : LoopOk data s) (h : Whole data s) (hok : Undisturbed cfg s r) :
    Whole data (writeStep cfg data s r) := by
  by_cases hrun : s.returned = none
  · obtain ⟨htime, hfail⟩ := hok hrun
    rcases (writeStep_cases cfg r hs hrun).2 with
      ⟨h1, -⟩ | ⟨-, -, -, hcount, hsent⟩ | ⟨h1, -, hsent, hcount⟩ | ⟨-, -, n, -, hcount, hsent⟩
    · exact absurd h1 htime
    · rw [Whole, hsent, hcount, h]
    · rw [Whole, hsent, hcount, hfail h1, List.take_zero]
    · rw [Whole, hsent, hcount, h, ← List.take_add]
  · rw [writeStep_returned hrun]
    exact h

lemma lacking_of_disturbed (hs : LoopOk data s) (h : Whole data s) (hno : ¬Undisturbed cfg s r) :
    Lacking (writeStep cfg data s r) ∨ (writeStep cfg data s r).returned = some false := by
  unfold Undisturbed at hno
  rw [Classical.not_imp] at hno
  obtain ⟨hrun, hdisturbed⟩ := hno
  have hlt := hs.running hrun
  have hlen : s.sent.length = s.dataLenWrited := by
    rw [h, List.length_take, Nat.min_eq_left (by omega)]
  rcases (writeStep_cases cfg r hs hrun).2 with
    ⟨-, hcount, hsent⟩ | ⟨-, -, hreturned, -⟩ | ⟨hfail, htime, hsent, hcount⟩ | ⟨htime, hfail, -⟩
  · left
    rw [Lacking, hsent, hcount]
    omega
  · exact Or.inr hreturned
  · left
    have hne : s.dataLenWrited ≠ 0 := fun h0 => hdisturbed ⟨htime, fun _ => h0⟩
    rw [Lacking, hsent, hcount, List.length_nil]
    omega
  · exact absurd ⟨htime, fun h0 => absurd h0 hfail⟩ hdisturbed

lemma Lacking.step (hs : LoopOk data s) (h : Lacking s) :
    Lacking (writeStep cfg data s r) := by
  unfold Lacking at *
  by_cases hrun : s.returned = none
  · have hlt := hs.running hrun
    rcases (writeStep_cases cfg r hs hrun).2 with
      ⟨-, hcount, hsent⟩ | ⟨-, -, -, hcount, hsent⟩ | ⟨-, -, hsent, hcount⟩ |
        ⟨-, -, n, -, hcount, hsent⟩
    · rw [hsent, hcount]
      omega
    · rw [hsent, hcount]
      exact h
    · rw [hsent, hcount, List.length_nil]
      omega
    · rw [hsent, hcount, List.length_append, List.length_take]
      omega
  · rw [writeStep_returned hrun]
    exact h

lemma LoopOk.run (hs : LoopOk data s) (rounds : List Round) :
    LoopOk data (rounds.foldl (writeStep cfg data) s) := by
  induction rounds generalizing s with
  | nil => exact hs
  | cons r rounds ih => exact ih (hs.step cfg r)

lemma Lacking.run (hs : LoopOk data s) (h : Lacking s) (rounds : List Round) :
    Lacking (rounds.foldl (writeStep cfg data) s) := by
  induction rounds generalizing s with
  | nil => exact h
  | cons r rounds ih => exact ih (hs.step cfg r) (h.step hs)

lemma returned_run {ok : Bool} (h : s.returned = some ok) (rounds : List Round) :
    rounds.foldl (writeStep cfg data) s = s := by
  induction rounds with
  | nil => rfl
  | cons r rounds ih => rw [List.foldl_cons, writeStep_returned (by rw [h]; simp), ih]

lemma Whole.run (hs : LoopOk data s) (h : Whole data s) (rounds : List Round)
    (hok : AlongRun (writeStep cfg data) (Undisturbed cfg) s rounds) :
    Whole data (rounds.foldl (writeStep cfg data) s) := by
  induction rounds generalizing s with
  | nil => exact h
  | cons r rounds ih => exact ih (hs.step cfg r) (h.step hs hok.1) hok.2

lemma lacking_run (hs : LoopOk data s) (h : Whole data s) (rounds : List Round)
    (hno : ¬AlongRun (writeStep cfg data) (Undisturbed cfg) s rounds) :
    Lacking (rounds.foldl (writeStep cfg data) s) ∨
      (rounds.foldl (writeStep cfg data) s).returned = some false := by
  induction rounds generalizing s with
  | nil => exact absurd trivial hno
  | cons r rounds ih =>
    have hnext := hs.step cfg r
    by_cases hfirst : Undisturbed cfg s r
    · exact ih hnext (h.step hs hfirst) (fun hrest => hno ⟨hfirst, hrest⟩)
    · rcases lacking_of_disturbed hs h hfirst with hlack | hreturned
      · exact Or.inl (hlack.run hnext rounds)
      · right
        rw [List.foldl_cons, returned_run hreturned]
        exact hreturned

lemma loopOk_start (data : Bytes) : LoopOk data (loopCondition data {}) :=
  loopCondition_ok (Nat.zero_le _) rfl

lemma whole_start (data : Bytes) : Whole data (loopCondition data {}) := by
  obtain ⟨hcount, hsent⟩ := loopCondition_fields data {}
  rw [Whole, hcount, hsent, List.take_zero]

/-- For every sequence of results of the system calls in both modes: a call that returns true has
sent the buffer on the connection that is open, exactly when it met no time-out of the non-blocking
mode and no failure after the first byte. -/
theorem socketWrite_whole_iff (cfg : Config) (data : Bytes) (rounds : List Round) :
    ((socketWrite cfg data rounds).returned = some true →
        (socketWrite cfg data rounds).sent = data) ↔
      ((socketWrite cfg data rounds).returned = some true →
        AlongRun (writeStep cfg data) (Undisturbed cfg) (loopCondition data {}) rounds) := by
  have hok : LoopOk data (socketWrite cfg data rounds) := (loopOk_start data).run rounds
  refine imp_congr_right (fun htrue => ⟨fun hsent => ?_, fun hclean => ?_⟩)
  · by_contra hno
    rcases lacking_run (loopOk_start data) (whole_start data) rounds hno with hlack | hfalse
    · have hlack' : Lacking (socketWrite cfg data rounds) := hlack
      rw [Lacking, hsent, hok.written htrue] at hlack'
      omega
    · have hfalse' : (socketWrite cfg data rounds).returned = some false := hfalse
      rw [htrue] at hfalse'
      cases hfalse'
  · have hwhole : Whole data (socketWrite cfg data rounds) :=
      (whole_start data).run (loopOk_start data) rounds hclean
    rw [hwhole, hok.written htrue, List.take_length]

/-- A time-out in front of the first byte: nothing is sent. A failure after the first byte: the new
connection gets the second one only. -/
theorem socketWrite_not_whole :
    (socketWrite { mirrorNonblockMode := true } [1, 2] [{ poll := 0 }]).returned = some true ∧
      (socketWrite { mirrorNonblockMode := true } [1, 2] [{ poll := 0 }]).sent = [] ∧
      (socketWrite {} [1, 2] [{ send := 1 }, { send := -1 }, { send := 1 }]).returned = some true ∧
      (socketWrite {} [1, 2] [{ send := 1 }, { send := -1 }, { send := 1 }]).sent = [2] := by
  decide

end VoipMonitor.SocketWrite
