import VoipMonitor.Model.Hep

/-!
# Where the chunks of a HEP message are read

The walk over the chunks goes on and breaks by its offset alone. In a message it leaves the bytes
only where 7 of them are left, or in a chunk that claims less than its header.
-/

namespace VoipMonitor.Hep
open VoipMonitor.Library

section Spec
variable (z : Inflate) (memory : Bytes)

def IsGzip (payload : Nat) : Prop :=
  byteAt memory payload = 0x1f ∧ byteAt memory (payload + 1) = 0x8b

def typeAt (pos length : Nat) : Nat := if length ≥ 4 then be16 memory (pos + 2) else 0

/-- The memory reaches to the end of what `processChunk` reads as the payload. -/
def PayloadReads (pos length : Nat) : Prop :=
  match chunkKind (typeAt memory pos length) with
  | some (.number size) => sub32 length 6 = size → pos + 6 + size ≤ memory.length
  | some .buffer => pos + 6 + sub32 length 6 ≤ memory.length
  | some .compressed => 2 < sub32 length 6 → IsGzip memory (pos + 6) →
    pos + 6 + z.reads (memory.drop (pos + 6)) (sub32 length 6) ≤ memory.length
  | none => True

variable (base dataLen : Nat)

/-- `processChunks` on the data at `base` looks for a chunk at an offset. -/
structure LooksAt (a : Nat) : Prop where
  lt : a < minus6 dataLen
  left : 6 ≤ dataLen - a

structure ChunkAt (a length : Nat) : Prop extends LooksAt dataLen a where
  length_eq : length = be16 memory (base + a + 4)
  pos : 0 < length
  le : length ≤ dataLen - a

def ChunkStep (a b : Nat) : Prop := ∃ length, ChunkAt memory base dataLen a length ∧
  b = add32 a length

def ChunkBad (a : Nat) : Prop :=
  LooksAt dataLen a ∧ (memory.length < base + a + 8 ∨
    ∃ length, ChunkAt memory base dataLen a length ∧ ¬PayloadReads z memory (base + a) length)

end Spec

/-! ## One round -/

section Round
variable {z : Inflate} {kamailioFix : Bool} {memory : Bytes} {base dataLen : Nat}

lemma readTo_eq_none_iff {α : Type} {stop : Nat} {x : α} :
    readTo memory stop x = none ↔ memory.length < stop := by
  rw [readTo]
  split
  · rename_i hle
    exact iff_of_false (Option.some_ne_none _) (not_lt.mpr hle)
  · rename_i hgt
    exact iff_of_true rfl (not_le.mp hgt)

lemma decompressChunk_eq_none_iff {payload payloadLen : Nat} {h : SHepData}
    (hmemory : payload + 2 ≤ memory.length) :
    decompressChunk z memory payload payloadLen h = none ↔
      ¬(2 < payloadLen → IsGzip memory payload →
        payload + z.reads (memory.drop payload) payloadLen ≤ memory.length) := by
  rw [decompressChunk, if_neg (show ¬payload + 1 > memory.length by omega),
    if_neg (show ¬payload + 2 > memory.length by omega)]
  by_cases hlen : payloadLen ≤ 2
  · rw [if_pos hlen]
    exact iff_of_false (Option.some_ne_none _) (not_not.mpr (fun hlt => absurd hlt (not_lt.mpr hlen)))
  · rw [if_neg hlen]
    by_cases hfirst : byteAt memory payload = 0x1f
    · rw [if_neg (not_not.mpr hfirst)]
      by_cases hsecond : byteAt memory (payload + 1) = 0x8b
      · rw [if_neg (not_not.mpr hsecond), readTo_eq_none_iff]
        constructor
        · exact fun hlt hall => absurd (hall (not_le.mp hlen) ⟨hfirst, hsecond⟩) (not_le.mpr hlt)
        · intro hnot
          by_contra hle
          exact hnot (fun _ _ => not_lt.mp hle)
      · rw [if_pos hsecond]
        exact iff_of_false (Option.some_ne_none _)
          (not_not.mpr (fun _ hgzip => absurd hgzip.2 hsecond))
    · rw [if_pos hfirst]
      exact iff_of_false (Option.some_ne_none _)
        (not_not.mpr (fun _ hgzip => absurd hgzip.1 hfirst))

lemma processChunk_eq_none_iff {pos length : Nat} {h : SHepData}
    (hmemory : pos + 8 ≤ memory.length) :
    processChunk z kamailioFix memory pos length h = none ↔ ¬PayloadReads z memory pos length := by
  have htype : chunkType memory pos length = some (typeAt memory pos length) := by
    rw [chunkType, typeAt]
    split
    · rw [readTo, if_pos (by omega)]
    · rfl
  rw [processChunk, htype, Option.bind_some, PayloadReads]
  cases chunkKind (typeAt memory pos length) with
  | none => exact iff_of_false (Option.some_ne_none _) (not_not.mpr trivial)
  | some kind =>
    cases kind with
    | number size =>
      dsimp only
      by_cases hsize : sub32 length 6 = size
      · rw [if_pos hsize, readTo_eq_none_iff]
        exact ⟨fun hlt hall => absurd (hall hsize) (not_le.mpr hlt),
          fun hnot => not_le.mp (fun hle => hnot (fun _ => hle))⟩
      · rw [if_neg hsize]
        exact iff_of_false (Option.some_ne_none _) (not_not.mpr (fun heq => absurd heq hsize))
    | buffer =>
      rw [readTo_eq_none_iff, not_le]
    | compressed => exact decompressChunk_eq_none_iff (by omega)

lemma chunkRound_cases (z : Inflate) (kamailioFix : Bool) (memory : Bytes) (base dataLen : Nat)
    (s : ChunkState) :
    (∃ h, chunkRound z kamailioFix memory base dataLen s = .done h ∧
      ¬ChunkBad z memory base dataLen s.offset ∧
      ∀ b, ¬ChunkStep memory base dataLen s.offset b) ∨
    (chunkRound z kamailioFix memory base dataLen s = .broken ∧
      ChunkBad z memory base dataLen s.offset) ∨
    ∃ length h, chunkRound z kamailioFix memory base dataLen s =
        .next ⟨add32 s.offset length, h⟩ ∧ ChunkAt memory base dataLen s.offset length ∧
      ¬ChunkBad z memory base dataLen s.offset := by
  rw [chunkRound]
  by_cases hlt : s.offset < minus6 dataLen
  · rw [if_pos hlt, chunkLength]
    by_cases hleft : 6 ≤ dataLen - s.offset
    · rw [if_pos hleft, readTo]
      by_cases hmemory : base + s.offset + 8 ≤ memory.length
      · rw [if_pos hmemory]
        dsimp only
        by_cases hlength : be16 memory (base + s.offset + 4) = 0 ∨
            be16 memory (base + s.offset + 4) > dataLen - s.offset
        · refine .inl ⟨s.hepData, by rw [if_pos hlength], ?_, ?_⟩
          · rintro ⟨-, hshort | ⟨length, hchunk, -⟩⟩
            · omega
            · have := hchunk.length_eq
              have := hchunk.pos
              have := hchunk.le
              omega
          · rintro b ⟨length, hchunk, -⟩
            have := hchunk.length_eq
            have := hchunk.pos
            have := hchunk.le
            omega
        · have hchunk : ChunkAt memory base dataLen s.offset
              (be16 memory (base + s.offset + 4)) :=
            ⟨⟨hlt, hleft⟩, rfl, by omega, by omega⟩
          rw [if_neg hlength]
          cases hprocess : processChunk z kamailioFix memory (base + s.offset)
              (be16 memory (base + s.offset + 4)) s.hepData with
          | none =>
            exact .inr (.inl ⟨rfl, hchunk.toLooksAt, .inr ⟨_, hchunk,
              (processChunk_eq_none_iff hmemory).mp hprocess⟩⟩)
          | some h =>
            refine .inr (.inr ⟨_, h, rfl, hchunk, ?_⟩)
            rintro ⟨-, hshort | ⟨length, hother, hreads⟩⟩
            · omega
            · rw [hother.length_eq] at hreads
              have hnone : processChunk z kamailioFix memory (base + s.offset)
                  (be16 memory (base + s.offset + 4)) s.hepData = none :=
                (processChunk_eq_none_iff hmemory).mpr hreads
              exact absurd (hprocess.symm.trans hnone) (Option.some_ne_none _)
      · rw [if_neg hmemory]
        exact .inr (.inl ⟨rfl, ⟨hlt, hleft⟩, .inl (not_le.mp hmemory)⟩)
    · rw [if_neg hleft]
      dsimp only
      refine .inl ⟨s.hepData, by rw [if_pos (.inl rfl)], fun hbad => hleft hbad.1.left, ?_⟩
      rintro b ⟨length, hchunk, -⟩
      exact hleft hchunk.left
  · rw [if_neg hlt]
    refine .inl ⟨s.hepData, rfl, fun hbad => hlt hbad.1.lt, ?_⟩
    rintro b ⟨length, hchunk, -⟩
    exact hlt hchunk.lt

end Round

/-! ## The walk -/

lemma visits_chunks_iff (z : Inflate) (kamailioFix : Bool) (memory : Bytes) (base dataLen : Nat)
    (h : SHepData) :
    (∀ t, Visits (chunkRound z kamailioFix memory base dataLen) ⟨0, h⟩ t →
        chunkRound z kamailioFix memory base dataLen t ≠ .broken) ↔
      ∀ a, Relation.ReflTransGen (ChunkStep memory base dataLen) 0 a →
        ¬ChunkBad z memory base dataLen a := by
  refine visits_iff_reaches (s := (⟨0, h⟩ : ChunkState)) ChunkState.offset ?_ ?_ ?_
  · intro s
    rcases chunkRound_cases z kamailioFix memory base dataLen s with
      ⟨r, hround, hbad, -⟩ | ⟨hround, hbad⟩ | ⟨length, r, hround, -, hbad⟩
    · rw [hround]
      exact iff_of_false nofun hbad
    · exact iff_of_true hround hbad
    · rw [hround]
      exact iff_of_false nofun hbad
  · intro s t hnext
    rcases chunkRound_cases z kamailioFix memory base dataLen s with
      ⟨r, hround, -, -⟩ | ⟨hround, -⟩ | ⟨length, r, hround, hchunk, -⟩
    · rw [hround] at hnext
      cases hnext
    · rw [hround] at hnext
      cases hnext
    · rw [hround] at hnext
      obtain rfl := Outcome.next.inj hnext
      exact ⟨length, hchunk, rfl⟩
  · rintro s b hgood ⟨length, hchunk, rfl⟩
    rcases chunkRound_cases z kamailioFix memory base dataLen s with
      ⟨r, -, -, hstop⟩ | ⟨-, hbad⟩ | ⟨length', r, hround, hchunk', -⟩
    · exact absurd ⟨length, hchunk, rfl⟩ (hstop _)
    · exact absurd hbad hgood
    · refine ⟨_, hround, ?_⟩
      rw [hchunk'.length_eq, hchunk.length_eq]

theorem processChunks_isSome_iff (z : Inflate) (kamailioFix : Bool) {memory : Bytes}
    (hmemory : memory.length + 2 ^ 16 ≤ 2 ^ 32) (base dataLen : Nat) (h : SHepData) :
    (processChunks z kamailioFix memory base dataLen h).isSome = true ↔
      ∀ a, Relation.ReflTransGen (ChunkStep memory base dataLen) 0 a →
        ¬ChunkBad z memory base dataLen a := by
  rw [← visits_chunks_iff z kamailioFix memory base dataLen h, processChunks]
  constructor
  · intro hsome t ht
    obtain ⟨r, hrun⟩ := Option.isSome_iff_exists.mp hsome
    exact not_broken_of_runLoop hrun ht
  · intro hsafe
    rw [Option.isSome_iff_exists]
    refine exists_runLoop_of_lt (I := fun t => Visits (chunkRound z kamailioFix memory base dataLen)
      ⟨0, h⟩ t) (fun t => memory.length + 2 ^ 16 - t.offset) ?_ hsafe (.refl _) (by dsimp only; omega)
    intro s t hs hnext
    refine ⟨hs.tail hnext, ?_⟩
    rcases chunkRound_cases z kamailioFix memory base dataLen s with
      ⟨r, hround, -, -⟩ | ⟨hround, -⟩ | ⟨length, r, hround, hchunk, hgood⟩
    · rw [hround] at hnext
      cases hnext
    · rw [hround] at hnext
      cases hnext
    · rw [hround] at hnext
      obtain rfl := Outcome.next.inj hnext
      have hread : base + s.offset + 8 ≤ memory.length := by
        by_contra hgt
        exact hgood ⟨hchunk.toLooksAt, .inl (not_le.mp hgt)⟩
      have hlength := hchunk.length_eq
      have hpos := hchunk.pos
      have hlt := be16_lt memory (base + s.offset + 4)
      rw [add32_eq (by omega)]
      dsimp only
      omega

/-! ## A message -/

/-- A message as `processHeps` hands it over. Its length was a field of 16 bits. -/
structure HepMessage where
  bytes : Bytes
  length_ge : 6 ≤ bytes.length
  length_lt : bytes.length < 2 ^ 16

/-- The positions of a message where `processChunks` looks for a chunk. -/
inductive MessageChunk (m : Bytes) : Nat → Prop where
  | first : MessageChunk m 6
  | next {pos : Nat} : MessageChunk m pos → pos + 6 < m.length → 0 < be16 m (pos + 4) →
      pos + be16 m (pos + 4) ≤ m.length → MessageChunk m (pos + be16 m (pos + 4))

/-- A chunk whose header is read as a whole, and that does not claim 4 or 5 bytes before a payload
that is taken as it is. -/
structure ChunkFits (z : Inflate) (m : Bytes) (pos : Nat) : Prop where
  header : pos + 7 ≠ m.length
  payload : be16 m (pos + 4) = 4 ∨ be16 m (pos + 4) = 5 →
    match chunkKind (be16 m (pos + 2)) with
    | some .buffer => False
    | some .compressed => IsGzip m (pos + 6) →
      pos + 6 + z.reads (m.drop (pos + 6)) (sub32 (be16 m (pos + 4)) 6) ≤ m.length
    | _ => True

lemma chunkKind_number_le {type size : Nat} (h : chunkKind type = some (.number size)) :
    size ≤ 16 := by
  unfold chunkKind at h
  split at h <;> cases h <;> decide

section Message
variable (z : Inflate) (m : HepMessage)

lemma payloadReads_iff (pos : Nat) {length : Nat} (hle : pos + length ≤ m.bytes.length)
    (hlt : 0 < length) :
    PayloadReads z m.bytes pos length ↔ (length = 4 ∨ length = 5 →
      match chunkKind (be16 m.bytes (pos + 2)) with
      | some .buffer => False
      | some .compressed => IsGzip m.bytes (pos + 6) →
        pos + 6 + z.reads (m.bytes.drop (pos + 6)) (sub32 length 6) ≤ m.bytes.length
      | _ => True) := by
  have hbytes := m.length_lt
  rw [PayloadReads, typeAt]
  by_cases hheader : 6 ≤ length
  · have hsub : sub32 length 6 = length - 6 := sub32_eq (by omega) hheader
    refine iff_of_true ?_ (fun hshort => by omega)
    rw [if_pos (by omega), hsub]
    cases hkind : chunkKind (be16 m.bytes (pos + 2)) with
    | none => trivial
    | some kind =>
      cases kind with
      | number size => exact fun hsize => by omega
      | buffer => exact (by omega : pos + 6 + (length - 6) ≤ m.bytes.length)
      | compressed =>
        intro _ _
        have := z.reads_le (m.bytes.drop (pos + 6)) (length - 6)
        omega
  · by_cases hfour : 4 ≤ length
    · have hshort : length = 4 ∨ length = 5 := by omega
      have hwrap : 2 ^ 32 - 2 ≤ sub32 length 6 := by
        rcases hshort with rfl | rfl <;> decide
      rw [if_pos hfour, imp_iff_right hshort]
      cases hkind : chunkKind (be16 m.bytes (pos + 2)) with
      | none => exact Iff.rfl
      | some kind =>
        cases kind with
        | number size =>
          have := chunkKind_number_le hkind
          exact iff_of_true (fun hsize => by omega) trivial
        | buffer => exact iff_of_false (by dsimp only; omega) id
        | compressed => exact imp_iff_right (by omega)
    · refine iff_of_true ?_ (fun hshort => by omega)
      rw [if_neg (by omega)]
      exact trivial

lemma minus6_eq {n : Nat} (hn : n < 2 ^ 64) (h : 6 ≤ n) : minus6 n = n - 6 := by
  unfold minus6
  omega

lemma looksAt_iff {a : Nat} : LooksAt (m.bytes.length - 6) a ↔ a + 6 + 6 < m.bytes.length := by
  have hlt := m.length_lt
  constructor
  · rintro ⟨hbound, hleft⟩
    rw [minus6_eq (by omega) (by omega)] at hbound
    omega
  · intro hbound
    refine ⟨?_, by omega⟩
    rw [minus6_eq (by omega) (by omega)]
    omega

lemma chunkAt_iff {a length : Nat} : ChunkAt m.bytes 6 (m.bytes.length - 6) a length ↔
    length = be16 m.bytes (a + 6 + 4) ∧ a + 6 + 6 < m.bytes.length ∧ 0 < length ∧
      a + 6 + length ≤ m.bytes.length := by
  rw [show a + 6 + 4 = 6 + a + 4 by omega]
  constructor
  · rintro ⟨hlooks, hlength, hpos, hle⟩
    exact ⟨hlength, (looksAt_iff m).mp hlooks, hpos, by omega⟩
  · rintro ⟨hlength, hlooks, hpos, hle⟩
    exact ⟨(looksAt_iff m).mpr hlooks, hlength, hpos, by omega⟩

lemma messageChunk_of_reaches {a : Nat}
    (h : Relation.ReflTransGen (ChunkStep m.bytes 6 (m.bytes.length - 6)) 0 a) :
    MessageChunk m.bytes (a + 6) := by
  have hlt := m.length_lt
  induction h with
  | refl => exact .first
  | @tail a b _ hstep ih =>
    obtain ⟨length, hchunk, rfl⟩ := hstep
    obtain ⟨rfl, hlooks, hpos, hle⟩ := (chunkAt_iff m).mp hchunk
    have hnext := ih.next hlooks hpos hle
    rw [add32_eq (by omega), Nat.add_right_comm]
    exact hnext

lemma reaches_of_messageChunk {pos : Nat} (h : MessageChunk m.bytes pos) :
    ∃ a, pos = a + 6 ∧
      Relation.ReflTransGen (ChunkStep m.bytes 6 (m.bytes.length - 6)) 0 a := by
  have hlt := m.length_lt
  induction h with
  | first => exact ⟨0, rfl, .refl⟩
  | next _ hlooks hpos hle ih =>
    obtain ⟨a, rfl, hreach⟩ := ih
    refine ⟨a + be16 m.bytes (a + 6 + 4), by omega, hreach.tail ?_⟩
    exact ⟨_, (chunkAt_iff m).mpr ⟨rfl, hlooks, hpos, hle⟩, (add32_eq (by omega)).symm⟩

lemma chunkBad_iff {a : Nat} : ¬ChunkBad z m.bytes 6 (m.bytes.length - 6) a ↔
    (a + 6 + 6 < m.bytes.length → ChunkFits z m.bytes (a + 6)) := by
  rw [ChunkBad, looksAt_iff, not_and, not_or, not_exists]
  refine imp_congr_right (fun hlooks => ?_)
  by_cases hheader : a + 6 + 7 = m.bytes.length
  · exact iff_of_false (fun h => h.1 (by omega)) (fun h => h.header hheader)
  · rw [and_iff_right (by omega)]
    by_cases hchunk : 0 < be16 m.bytes (a + 6 + 4) ∧
        a + 6 + be16 m.bytes (a + 6 + 4) ≤ m.bytes.length
    · have hreads := payloadReads_iff z m (a + 6) hchunk.2 hchunk.1
      constructor
      · intro h
        refine ⟨hheader, hreads.mp ?_⟩
        have hnot := h (be16 m.bytes (a + 6 + 4))
        rw [not_and, not_not, Nat.add_comm 6 a] at hnot
        exact hnot ((chunkAt_iff m).mpr ⟨rfl, hlooks, hchunk⟩)
      · rintro h length ⟨hat, hbad⟩
        obtain ⟨rfl, -⟩ := (chunkAt_iff m).mp hat
        rw [Nat.add_comm 6 a] at hbad
        exact hbad (hreads.mpr h.payload)
    · constructor
      · refine fun _ => ⟨hheader, fun hshort => absurd ⟨?_, ?_⟩ hchunk⟩
        · omega
        · omega
      · rintro - length ⟨hat, -⟩
        obtain ⟨rfl, -, hpos, hle⟩ := (chunkAt_iff m).mp hat
        exact hchunk ⟨hpos, hle⟩

/-- `processHep` reads the chunks of a message only in the message exactly when each one that it
comes to fits. -/
theorem processHep_reads_iff (kamailioFix : Bool) :
    (processHep z kamailioFix m.bytes 0 m.bytes.length).isSome = true ↔
      ∀ pos, MessageChunk m.bytes pos → pos + 6 < m.bytes.length → ChunkFits z m.bytes pos := by
  have hlt := m.length_lt
  rw [processHep, minus6_eq (by omega) m.length_ge, processChunks_isSome_iff z kamailioFix (by omega)]
  constructor
  · intro h pos hpos hlooks
    obtain ⟨a, rfl, hreach⟩ := reaches_of_messageChunk m hpos
    exact (chunkBad_iff z m).mp (h a hreach) hlooks
  · intro h a hreach
    exact (chunkBad_iff z m).mpr (fun hlooks => h _ (messageChunk_of_reaches m hreach) hlooks)

end Message

/-- Data that is never compressed. -/
def noInflate : Inflate where
  reads := fun _ _ => 0
  decompress := fun _ _ => none
  reads_le := fun _ _ => Nat.zero_le _

/-- Behind the header 7 bytes are left, and the length of the chunk there is read with the byte
behind them. -/
def cutChunk : HepMessage :=
  ⟨[0x48, 0x45, 0x50, 0x33, 0, 13, 0, 0, 0, 1, 0, 7, 2], by decide, by decide⟩

/-- The chunk is a payload that claims 4 bytes. -/
def shortPayload : HepMessage :=
  ⟨[0x48, 0x45, 0x50, 0x33, 0, 16, 0, 0, 0, 15, 0, 4, 1, 2, 3, 4], by decide, by decide⟩

theorem processHep_reads_behind :
    (processHep noInflate false cutChunk.bytes 0 cutChunk.bytes.length).isSome = false ∧
      (processHep noInflate false shortPayload.bytes 0 shortPayload.bytes.length).isSome = false := by
  decide +kernel

end VoipMonitor.Hep
