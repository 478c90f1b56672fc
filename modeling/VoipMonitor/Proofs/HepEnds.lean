import VoipMonitor.Proofs.HepChunkReads

/-!
# When the loop over HEP messages ends

The loop goes on behind a message by its length, so it ends unless it comes to a message with the
length 0 or to one whose chunks are read outside of the memory. A length below 6 makes the chunks
endless, and a buffer that is shorter than 6 bytes is a message with the length 0.
-/

namespace VoipMonitor.Hep
open VoipMonitor.Library

/-- A buffer, the first `dataLen` bytes of a memory. -/
structure HepBuffer where
  memory : Bytes
  dataLen : Nat
  dataLen_le : dataLen ≤ memory.length
  memory_le : memory.length + 2 ^ 16 ≤ 2 ^ 32

section Spec
variable (z : Inflate) (b : HepBuffer)

structure Begins (pos : Nat) : Prop where
  again : Again b.dataLen pos
  magic : isBeginHep id (slice b.memory pos (b.dataLen - pos)) = true

/-- `hepLength` there. -/
def lengthOf (pos : Nat) : Nat := if 6 ≤ b.dataLen - pos then be16 b.memory (pos + 4) else 0

/-- The positions that the loop comes to. -/
inductive HepAt : Nat → Prop where
  | first : HepAt 0
  | next {pos : Nat} : HepAt pos → Begins b pos → lengthOf b pos ≤ b.dataLen - pos →
      HepAt (pos + lengthOf b pos)

/-- The call of `processHep` there reads only in the memory. -/
def ReadsChunks (pos : Nat) : Prop :=
  ∀ a, Relation.ReflTransGen (ChunkStep b.memory (pos + 6) (minus6 (lengthOf b pos))) 0 a →
    ¬ChunkBad z b.memory (pos + 6) (minus6 (lengthOf b pos)) a

structure GoesOn (pos : Nat) : Prop where
  header : 6 ≤ b.dataLen - pos → pos + 8 ≤ b.memory.length
  progress : lengthOf b pos ≤ b.dataLen - pos → 0 < lengthOf b pos ∧ ReadsChunks z b pos

end Spec

section Loop
variable (z : Inflate) (kamailioFix : Bool) (b : HepBuffer)

lemma hepRound_cases {pos : Nat} (hpos : pos ≤ b.dataLen) :
    (hepRound z kamailioFix b.memory b.dataLen pos = .done pos ∧
      (Begins b pos → GoesOn z b pos ∧ ¬lengthOf b pos ≤ b.dataLen - pos)) ∨
    (hepRound z kamailioFix b.memory b.dataLen pos = .broken ∧ Begins b pos ∧ ¬GoesOn z b pos) ∨
    (hepRound z kamailioFix b.memory b.dataLen pos = .next (pos + lengthOf b pos) ∧ Begins b pos ∧
      lengthOf b pos ≤ b.dataLen - pos ∧ (GoesOn z b pos ↔ 0 < lengthOf b pos)) := by
  have hlt := b.memory_le
  have hdata := b.dataLen_le
  rw [hepRound]
  by_cases hagain : Again b.dataLen pos
  · rw [if_pos hagain]
    by_cases hmagic : isBeginHep id (slice b.memory pos (b.dataLen - pos)) = true
    · rw [if_neg (not_not.mpr hmagic)]
      have hbegins : Begins b pos := ⟨hagain, hmagic⟩
      by_cases hheader : 6 ≤ b.dataLen - pos → pos + 8 ≤ b.memory.length
      · have hread : chunkLength b.memory pos (b.dataLen - pos) = some (lengthOf b pos) := by
          rw [chunkLength, lengthOf]
          split
          · rename_i hsix
            rw [readTo, if_pos (hheader hsix)]
          · rfl
        rw [hread]
        dsimp only
        by_cases hlength : lengthOf b pos ≤ b.dataLen - pos
        · rw [if_neg (not_lt.mpr hlength)]
          have hchunks := processChunks_isSome_iff z kamailioFix hlt (pos + 6)
            (minus6 (lengthOf b pos)) .empty
          rw [processHep]
          cases hprocess : processChunks z kamailioFix b.memory (pos + 6)
              (minus6 (lengthOf b pos)) .empty with
          | none =>
            rw [hprocess] at hchunks
            refine .inr (.inl ⟨rfl, hbegins, fun hgoes => ?_⟩)
            exact Bool.false_ne_true (hchunks.mpr (hgoes.progress hlength).2)
          | some r =>
            rw [hprocess] at hchunks
            refine .inr (.inr ⟨?_, hbegins, hlength, ?_⟩)
            · dsimp only
              rw [add32_eq (by omega)]
            · exact ⟨fun hgoes => (hgoes.progress hlength).1,
                fun hzero => ⟨hheader, fun _ => ⟨hzero, hchunks.mp rfl⟩⟩⟩
        · rw [if_pos (not_le.mp hlength)]
          exact .inl ⟨rfl, fun _ => ⟨⟨hheader, fun hle => absurd hle hlength⟩, hlength⟩⟩
      · have hread : chunkLength b.memory pos (b.dataLen - pos) = none := by
          rw [Classical.not_imp] at hheader
          rw [chunkLength, if_pos hheader.1, readTo, if_neg hheader.2]
        rw [hread]
        exact .inr (.inl ⟨rfl, hbegins, fun hgoes => hheader hgoes.header⟩)
    · rw [if_pos hmagic]
      exact .inl ⟨rfl, fun hbegins => absurd hbegins.magic hmagic⟩
  · rw [if_neg hagain]
    exact .inl ⟨rfl, fun hbegins => absurd hbegins.again hagain⟩

lemma HepAt.le {b : HepBuffer} {pos : Nat} (h : HepAt b pos) : pos ≤ b.dataLen := by
  induction h with
  | first => exact Nat.zero_le _
  | next _ _ hlength ih => omega

lemma hepRound_next {s t : Nat} (hs : s ≤ b.dataLen)
    (h : hepRound z kamailioFix b.memory b.dataLen s = .next t) :
    t = s + lengthOf b s ∧ Begins b s ∧ lengthOf b s ≤ b.dataLen - s := by
  rcases hepRound_cases z kamailioFix b hs with
    ⟨hdone, -⟩ | ⟨hbroken, -⟩ | ⟨hnext, hbegins, hlength, -⟩
  · rw [hdone] at h
    cases h
  · rw [hbroken] at h
    cases h
  · rw [hnext] at h
    exact ⟨(Outcome.next.inj h).symm, hbegins, hlength⟩

lemma hepAt_of_visits {pos : Nat}
    (h : Visits (hepRound z kamailioFix b.memory b.dataLen) 0 pos) : HepAt b pos := by
  induction h with
  | refl => exact .first
  | tail _ hround ih =>
    obtain ⟨rfl, hbegins, hlength⟩ := hepRound_next z kamailioFix b ih.le hround
    exact ih.next hbegins hlength

lemma visits_of_hepAt (h : ∀ t, Visits (hepRound z kamailioFix b.memory b.dataLen) 0 t →
      hepRound z kamailioFix b.memory b.dataLen t ≠ .broken) {pos : Nat} (hpos : HepAt b pos) :
    Visits (hepRound z kamailioFix b.memory b.dataLen) 0 pos := by
  induction hpos with
  | first => exact .refl 0
  | @next pos hat hbegins hlength ih =>
    rcases hepRound_cases z kamailioFix b hat.le with
      ⟨-, hstop⟩ | ⟨hround, -⟩ | ⟨hround, -⟩
    · exact absurd hlength (hstop hbegins).2
    · exact absurd hround (h pos ih)
    · exact ih.tail hround

lemma processHepsIn_le {fuel r : Nat}
    (h : processHepsIn z kamailioFix b.memory b.dataLen fuel = some r) : r ≤ b.dataLen := by
  refine runLoop_invariant (I := fun pos => pos ≤ b.dataLen) (Q := fun pos => pos ≤ b.dataLen) ?_ ?_
    (Nat.zero_le _) h
  · intro s t hs hround
    obtain ⟨rfl, -, hlength⟩ := hepRound_next z kamailioFix b hs hround
    omega
  · intro s t hs hround
    rcases hepRound_cases z kamailioFix b hs with ⟨hdone, -⟩ | ⟨hbroken, -⟩ | ⟨hnext, -, -, -⟩
    · rw [hdone] at hround
      obtain rfl := Outcome.done.inj hround
      exact hs
    · rw [hbroken] at hround
      cases hround
    · rw [hnext] at hround
      cases hround

/-- `processHeps` returns, with a value that is not greater than the length of the buffer, exactly
when it goes on behind each message that it comes to. -/
theorem processHeps_ends_iff :
    (∃ fuel r, processHepsIn z kamailioFix b.memory b.dataLen fuel = some r ∧ r ≤ b.dataLen) ↔
      ∀ pos, HepAt b pos → Begins b pos → GoesOn z b pos := by
  have hends : (∃ fuel r, processHepsIn z kamailioFix b.memory b.dataLen fuel = some r) ↔
      ∀ t, Visits (hepRound z kamailioFix b.memory b.dataLen) 0 t →
        hepRound z kamailioFix b.memory b.dataLen t ≠ .broken ∧
        hepRound z kamailioFix b.memory b.dataLen t ≠ .next t := by
    refine exists_runLoop_iff_progress (I := fun pos => pos ≤ b.dataLen) Nat.lt_wfRel.wf
      (fun pos => b.dataLen - pos) ?_ (Nat.zero_le _)
    intro s t hs hround hne
    obtain ⟨rfl, -, hlength⟩ := hepRound_next z kamailioFix b hs hround
    have hless : b.dataLen - (s + lengthOf b s) < b.dataLen - s := by omega
    exact ⟨by omega, hless⟩
  constructor
  · rintro ⟨fuel, r, hrun, -⟩ pos hpos hbegins
    have hgood := hends.mp ⟨fuel, r, hrun⟩
    have hvisit := visits_of_hepAt z kamailioFix b (fun t ht => (hgood t ht).1) hpos
    rcases hepRound_cases z kamailioFix b hpos.le with
      ⟨-, hstop⟩ | ⟨hbroken, -⟩ | ⟨hnext, -, -, hgoes⟩
    · exact (hstop hbegins).1
    · exact absurd hbroken (hgood pos hvisit).1
    · refine hgoes.mpr (Nat.pos_of_ne_zero (fun hzero => (hgood pos hvisit).2 ?_))
      rw [hnext, hzero, Nat.add_zero]
  · intro h
    have hsafe : ∀ t, Visits (hepRound z kamailioFix b.memory b.dataLen) 0 t →
        hepRound z kamailioFix b.memory b.dataLen t ≠ .broken ∧
          hepRound z kamailioFix b.memory b.dataLen t ≠ .next t := by
      intro t ht
      have hat := hepAt_of_visits z kamailioFix b ht
      rcases hepRound_cases z kamailioFix b hat.le with
        ⟨hdone, -⟩ | ⟨-, hbegins, hstays⟩ | ⟨hnext, hbegins, -, hgoes⟩
      · rw [hdone]
        exact ⟨nofun, nofun⟩
      · exact absurd (h t hat hbegins) hstays
      · rw [hnext]
        refine ⟨nofun, fun hself => ?_⟩
        have hpos := hgoes.mp (h t hat hbegins)
        have := Outcome.next.inj hself
        omega
    obtain ⟨fuel, r, hrun⟩ := hends.mpr hsafe
    exact ⟨fuel, r, hrun, processHepsIn_le z kamailioFix b hrun⟩

end Loop

/-- A message with the length 0. -/
def zeroLength : HepBuffer where
  memory := [0x48, 0x45, 0x50, 0x33, 0, 0, 0, 0, 0, 0, 0, 0, 0, 0, 0, 0]
  dataLen := 16
  dataLen_le := by decide
  memory_le := by decide

def zeroLengthCut : HepBuffer := { zeroLength with dataLen := 4, dataLen_le := by decide }

/-- `processHeps` stays at the message, also when the buffer has 4 bytes of it. -/
theorem processHeps_stays :
    (¬∃ fuel r, processHepsIn noInflate false zeroLength.memory zeroLength.dataLen fuel = some r ∧
        r ≤ zeroLength.dataLen) ∧
      ¬∃ fuel r, processHepsIn noInflate false zeroLengthCut.memory zeroLengthCut.dataLen fuel =
        some r ∧ r ≤ zeroLengthCut.dataLen := by
  constructor
  · rintro ⟨fuel, r, hrun, -⟩
    rw [processHepsIn, runLoop_self (by decide +kernel)] at hrun
    cases hrun
  · rintro ⟨fuel, r, hrun, -⟩
    rw [processHepsIn, runLoop_self (by decide +kernel)] at hrun
    cases hrun

end VoipMonitor.Hep
