import VoipMonitor.Library.Cuts
import VoipMonitor.Proofs.CompressedIterate

/-!
# Runs of a buffer of compressed chunks

Calls of `add` and of `chunkIterate` come in any order. What is passed on is a begin of what was
added, and it ends between two blocks. This holds as long as the 32-bit numbers of blocks and of
chunks do not begin again at the wrong place.
-/

namespace VoipMonitor.Compress
open VoipMonitor.Library VoipMonitor.Tar

variable {codec : Codec} {type : BlockType} {length fixLen : Nat} {added : List Bytes}

/-! ## How many blocks a limit lets through -/

lemma takeCount_le (limitLength done : Nat) (blocks : List Bytes) :
    takeCount limitLength done blocks ≤ blocks.length := by
  induction blocks generalizing done with
  | nil => exact le_rfl
  | cons data rest ih =>
    rw [takeCount, List.length_cons]
    split
    · omega
    · exact Nat.succ_le_succ (ih _)

lemma takeCount_zero (done : Nat) (blocks : List Bytes) :
    takeCount 0 done blocks = blocks.length := by
  induction blocks generalizing done with
  | nil => rfl
  | cons data rest ih =>
    rw [takeCount, if_neg (fun h => h.1 rfl), ih, List.length_cons]

lemma takeCount_exact {blocks : List Bytes} (hne : ∀ data ∈ blocks, data ≠ []) (k done : Nat)
    (hk : 0 < k) (hkle : k ≤ blocks.length)
    (hsmall : done + (blocks.take k).flatten.length < 2 ^ 32) :
    takeCount (done + (blocks.take k).flatten.length) done blocks = k := by
  induction blocks generalizing k done with
  | nil => rw [List.length_nil] at hkle; omega
  | cons data rest ih =>
    obtain ⟨k, rfl⟩ := Nat.exists_eq_succ_of_ne_zero hk.ne'
    have hpos := List.length_pos_iff.mpr (hne data List.mem_cons_self)
    rw [Nat.succ_eq_add_one, List.take_succ_cons, List.flatten_cons, List.length_append] at hsmall ⊢
    rw [List.length_cons] at hkle
    rw [takeCount, Nat.mod_eq_of_lt (by omega)]
    cases k with
    | zero =>
      have hnil : ((rest.take 0).flatten : Bytes).length = 0 := rfl
      rw [hnil]
      exact if_pos ⟨by omega, by omega⟩
    | succ k =>
      have hmore : 0 < (rest.take (k + 1)).flatten.length := by
        cases rest with
        | nil => rw [List.length_nil] at hkle; omega
        | cons next rest =>
          have hnext := List.length_pos_iff.mpr (hne next (by simp))
          rw [List.take_succ_cons, List.flatten_cons, List.length_append]
          omega
      rw [if_neg (fun h => by
          have := h.2
          omega), ← Nat.add_assoc,
        ih (fun x hx => hne x (List.mem_cons_of_mem _ hx)) (k + 1) (done + data.length) (by omega)
          (by omega) (by omega)]

/-! ## The state between two calls -/

structure Session where
  buffer : ChunkBuffer
  added : List Bytes
  out : Bytes

inductive Action
  | add (data : Bytes)
  | iterate (limitLength : Nat)

/-- A call: `add` with data that fits into the buffer of the compression, or `chunkIterate`. -/
def step (codec : Codec) (s : Session) : Action → Option Session
  | .add data =>
    if data ≠ [] ∧ data.length ≤ s.buffer.compressStream.blockLength then
      some ⟨s.buffer.add codec data, s.added ++ [data], s.out⟩
    else none
  | .iterate limitLength =>
    if limitLength < 2 ^ 32 then
      some ⟨(s.buffer.chunkIterate codec limitLength).1, s.added,
        s.out ++ (s.buffer.chunkIterate codec limitLength).2⟩
    else none

def begin (fixLen : Nat) (type : BlockType) (compressBufferLength maxDataLength : Nat) : Session :=
  ⟨.new fixLen type compressBufferLength maxDataLength, [], []⟩

/-- The next number of a block is not zero in 32 bits unless its record begins a chunk, and the
number of chunks fits into 32 bits. -/
def Counted (codec : Codec) (type : BlockType) (fixLen : Nat) (s : Session) : Action → Prop
  | .add data =>
    (2 ^ 31 ∣ s.added.length → fixLen ∣ (stored codec type s.added).length) ∧
      (stored codec type (s.added ++ [data])).length ≤ (2 ^ 32 - 1) * fixLen
  | .iterate _ => True

instance (s : Session) (a : Action) : Decidable (Counted codec type fixLen s a) :=
  match a with
  | .add data => inferInstanceAs (Decidable (
      (2 ^ 31 ∣ s.added.length → fixLen ∣ (stored codec type s.added).length) ∧
      (stored codec type (s.added ++ [data])).length ≤ (2 ^ 32 - 1) * fixLen))
  | .iterate _ => inferInstanceAs (Decidable True)

structure Inv (codec : Codec) (type : BlockType) (length fixLen : Nat) (s : Session) (i : Nat) :
    Prop where
  fits : ∀ data ∈ s.added, Fits length data
  aligned : Aligned codec type fixLen s.added
  le : i ≤ s.added.length
  out : s.out = (s.added.take i).flatten
  plain : s.buffer.compressStream.Plain type length
  fix : s.buffer.chunkFixLen = fixLen
  proceed : s.buffer.chunkIterateProceedLen < 2 ^ 32
  fine : s.buffer.decompressError = false
  phase : Phase codec type s.added s.buffer.info i []
  pos_lt : s.buffer.info.chunkPos < fixLen
  chunks : ∃ rest, Chunked s.buffer s.buffer.info.chunkIndex rest ∧
    s.buffer.info.chunkPos ≤ rest.flatten.length ∧
    s.buffer.info.chunkIndex * fixLen ≤ (stored codec type s.added).length ∧
    rest.flatten = (stored codec type s.added).drop (s.buffer.info.chunkIndex * fixLen) ∧
    stored codec type (s.added.drop i) = rest.flatten.drop s.buffer.info.chunkPos

lemma Inv.begin (hfix : 0 < fixLen) {compressBufferLength maxDataLength : Nat}
    (hlength : CompressStream.blockLength
      ⟨type, compressBufferLength, maxDataLength, false, false, 0, ""⟩ = length) :
    Inv codec type length fixLen (begin fixLen type compressBufferLength maxDataLength) 0 where
  fits := nofun
  aligned := fun i hi => absurd hi (Nat.not_lt_zero i)
  le := le_rfl
  out := rfl
  plain := ⟨rfl, rfl, rfl, rfl, hlength⟩
  fix := rfl
  proceed := Nat.two_pow_pos 32
  fine := rfl
  phase := .record (by decide) rfl (fun _ => rfl) rfl (fun h => absurd rfl h)
  pos_lt := hfix
  chunks := ⟨[], ⟨⟨nofun, nofun, nofun⟩, ⟨[], rfl, .nil⟩, rfl, Nat.two_pow_pos 32⟩, le_rfl,
    Nat.le_of_eq (Nat.zero_mul _), List.drop_nil.symm, rfl⟩

lemma Phase.between {info : IterateInfo} {i : Nat} (h : Phase codec type added info i [])
    (added' : List Bytes) : Phase codec type added' info i [] := by
  generalize hpart : ([] : Bytes) = part at h
  cases h with
  | record hshort heven hzero hpos hgathers => exact .record hshort heven hzero hpos hgathers
  | block got =>
    have hlen := congrArg List.length hpart
    rw [List.length_append, length_recordOf, List.length_nil] at hlen
    omega

section Steps
variable (hcodec : codec.GivesBack type length) {s : Session} {i : Nat}
include hcodec

lemma Inv.add (h : Inv codec type length fixLen s i) (hfix : 0 < fixLen) (hfixLt : fixLen < 2 ^ 32)
    {data : Bytes} (hdata : Fits length data)
    (hok : Counted codec type fixLen s (.add data)) :
    Inv codec type length fixLen ⟨s.buffer.add codec data, s.added ++ [data], s.out⟩ i := by
  obtain ⟨rest, hchunked, hposLe, hindexLe, hcontent, hstream⟩ := h.chunks
  obtain ⟨halign, hroom⟩ := hok
  have hfixEq := h.fix
  have hlens := congrArg List.length hcontent
  rw [List.length_drop] at hlens
  rw [stored_concat, List.length_append] at hroom
  obtain ⟨rest', hchunked', hadded, hplain, hfix', hproceed, hinfo, hfine⟩ := hchunked.add h.plain
    hcodec hdata (by omega) (by omega) (by rw [hfixEq]; omega)
  refine ⟨?_, ?_, ?_, ?_, hplain, hfix'.trans hfixEq, ?_, hfine.trans h.fine, ?_, ?_, rest', ?_, ?_, ?_,
    ?_, ?_⟩
  · intro x hx
    rcases List.mem_append.mp hx with hx | hx
    · exact h.fits x hx
    · rw [List.mem_singleton.mp hx]
      exact hdata
  · intro j hj hdvd
    rw [List.length_append, List.length_singleton] at hj
    rw [List.take_append_of_le_length (by omega)]
    rcases Nat.lt_or_ge j s.added.length with hlt | hge
    · exact h.aligned j hlt hdvd
    · obtain rfl : j = s.added.length := by omega
      rw [List.take_length]
      exact halign hdvd
  · rw [List.length_append]
    exact Nat.le_add_right_of_le h.le
  · rw [List.take_append_of_le_length h.le]
    exact h.out
  · rw [hproceed]
    exact h.proceed
  · rw [hinfo]
    exact h.phase.between _
  · rw [hinfo]
    exact h.pos_lt
  · rw [hinfo]
    exact hchunked'
  · rw [hinfo, hadded, List.length_append]
    exact Nat.le_add_right_of_le hposLe
  · rw [hinfo, stored_concat, List.length_append]
    exact Nat.le_add_right_of_le hindexLe
  · rw [hinfo, hadded, hcontent, stored_concat, List.drop_append_of_le_length hindexLe]
  · rw [hinfo, hadded, List.drop_append_of_le_length h.le, stored_concat, hstream,
      List.drop_append_of_le_length hposLe]

omit hcodec in
lemma chunks_gone (limitLength start counter n : Nat) (kept : List Chunk) {it : Iterate}
    (hrun : it.stop = false) (hfine : it.error = false) :
    Iterate.chunks codec fixLen limitLength start counter (List.replicate n (gone fixLen) ++ kept)
        it =
      (List.replicate n (gone fixLen) ++
        (Iterate.chunks codec fixLen limitLength start (counter + n) kept it).1,
        (Iterate.chunks codec fixLen limitLength start (counter + n) kept it).2) := by
  induction n generalizing counter with
  | zero => rfl
  | succ n ih =>
    have hgo : ¬(it.stop = true ∨ it.error = true) := by
      rw [hrun, hfine]
      decide
    have hnone : (gone fixLen).chunk = none := rfl
    rw [List.replicate_succ, List.cons_append, Iterate.chunks, if_neg hgo, hnone]
    rw [ih, Nat.add_assoc, Nat.add_comm 1 n, List.cons_append]

def nextBlock (limitLength i : Nat) (added : List Bytes) : Nat :=
  i + takeCount limitLength 0 (added.drop i)

omit hcodec in
lemma nextBlock_le (limitLength : Nat) (hi : i ≤ added.length) :
    nextBlock limitLength i added ≤ added.length := by
  have hle := takeCount_le limitLength 0 (added.drop i)
  rw [List.length_drop] at hle
  rw [nextBlock]
  omega

omit hcodec in
lemma head_covers {rest : List Bytes} {pos : Nat} (h : Pieces fixLen rest)
    (hle : pos ≤ rest.flatten.length) (hlt : pos < fixLen) : pos ≤ (rest.headD []).length := by
  cases rest with
  | nil => exact hle
  | cons x rest =>
    rw [List.headD_cons]
    cases rest with
    | nil => rwa [List.flatten_singleton] at hle
    | cons y rest =>
      rw [h.full x (by simp)]
      omega

def ChunkBuffer.iterateStart (b : ChunkBuffer) : Iterate :=
  ⟨b.info, b.chunkIterateProceedLen, b.compressStream, [], false, false⟩

omit hcodec in
/-- The loop begins behind the chunks that are freed. -/
lemma chunkIterate_eq {b : ChunkBuffer} {kept : List Chunk} {index limitLength : Nat}
    (hcount : b.countItems = b.chunkBuffer.length)
    (hkept : b.chunkBuffer = List.replicate index (gone b.chunkFixLen) ++ kept)
    {r : List Chunk × Iterate} (hr : r = Iterate.chunks codec b.chunkFixLen limitLength
      b.chunkIterateProceedLen index kept b.iterateStart) :
    b.chunkIterate codec limitLength =
      ({ b with
          chunkBuffer := List.replicate index (gone b.chunkFixLen) ++ r.1
          compressStream := r.2.stream
          chunkIterateProceedLen := r.2.proceedLen
          info := r.2.info
          decompressError := b.decompressError || r.2.error },
        r.2.out) := by
  have hchunks : Iterate.chunks codec b.chunkFixLen limitLength b.chunkIterateProceedLen 0
      (b.chunkBuffer.take b.countItems) b.iterateStart =
      (List.replicate index (gone b.chunkFixLen) ++ r.1, r.2) := by
    rw [hcount, List.take_length, hkept, chunks_gone _ _ _ _ _ rfl rfl, Nat.zero_add, ← hr]
  have hbehind : b.chunkBuffer.drop b.countItems = [] := by
    rw [hcount, List.drop_length]
  rw [ChunkBuffer.chunkIterate, ← ChunkBuffer.iterateStart, hchunks, hbehind]
  rw [List.append_nil]

omit hcodec in
lemma Inv.reading (h : Inv codec type length fixLen s i) (limitLength : Nat) :
    Reading codec type length s.added i s.buffer.chunkIterateProceedLen limitLength
      (nextBlock limitLength i s.added) s.buffer.iterateStart i [] := by
  refine ⟨⟨rfl, h.plain, le_rfl, ?_, ?_, h.phase⟩, rfl, rfl, ?_⟩
  · rw [List.drop_eq_nil_of_le (by rw [List.length_take]; omega)]
    rfl
  · exact (Nat.mod_eq_of_lt h.proceed).symm
  · rintro ⟨hne, hle⟩
    exact hne (Nat.le_zero.mp hle)

lemma Inv.iterate (h : Inv codec type length fixLen s i) (hlength : length < 2 ^ 32)
    (hfix : 8 ≤ fixLen) (hfixLt : fixLen < 2 ^ 32) (limitLength : Nat) :
    (s.buffer.chunkIterate codec limitLength).2 =
        ((s.added.drop i).take (takeCount limitLength 0 (s.added.drop i))).flatten ∧
      Inv codec type length fixLen ⟨(s.buffer.chunkIterate codec limitLength).1, s.added,
        s.out ++ (s.buffer.chunkIterate codec limitLength).2⟩ (nextBlock limitLength i s.added) := by
  obtain rfl := h.fix
  obtain ⟨rest, hchunked, hposLe, hindexLe, hcontent, hstream⟩ := h.chunks
  obtain ⟨kept, hkept, hholds⟩ := hchunked.chunks
  have hpieces := hchunked.pieces
  have hlens := congrArg List.length hcontent
  rw [List.length_drop] at hlens
  have hindex : s.buffer.iterateStart.info.chunkIndex = s.buffer.info.chunkIndex := rfl
  obtain ⟨k, hk⟩ := (h.reading limitLength).chunks hcodec hlength h.fits hfix h.aligned hfixLt hholds
    hpieces hindex hchunked.small (by omega) h.pos_lt (head_covers hpieces hposLe h.pos_lt) hstream
  have hcount : s.buffer.countItems = s.buffer.chunkBuffer.length := by
    rw [hchunked.count, hkept, List.length_append, List.length_replicate, hholds.length_eq]
  rw [chunkIterate_eq hcount hkept rfl]
  obtain ⟨r, hr⟩ : ∃ r, r = Iterate.chunks codec s.buffer.chunkFixLen limitLength
    s.buffer.chunkIterateProceedLen s.buffer.info.chunkIndex kept s.buffer.iterateStart := ⟨_, rfl⟩
  rw [← hr] at hk ⊢
  have hout : r.2.out = ((s.added.drop i).take (takeCount limitLength 0 (s.added.drop i))).flatten := by
    rw [hk.stands.out, nextBlock, List.drop_take, Nat.add_sub_cancel_left]
  obtain ⟨keptRest, hkeptRest, hholdsRest⟩ := hk.chunks
  have htakeFlat : (rest.take k).flatten.length = k * s.buffer.chunkFixLen := by
    rw [length_flatten_of_full hk.full, List.length_take, Nat.min_eq_left hk.count]
  have hparts : rest.flatten = (rest.take k).flatten ++ (rest.drop k).flatten := by
    rw [← List.flatten_append, List.take_append_drop]
  have hpartsLen := congrArg List.length hparts
  rw [List.length_append, htakeFlat] at hpartsLen
  have hkle := hk.count
  refine ⟨hout, h.fits, h.aligned, nextBlock_le limitLength h.le, ?_, hk.stands.plain, rfl, ?_, ?_,
    hk.stands.phase, hk.pos_lt, rest.drop k, ⟨Pieces.drop hpieces k, ⟨keptRest, ?_, hholdsRest⟩, ?_, ?_⟩,
    hk.pos_le, ?_, ?_, hk.stream⟩
  · rw [h.out, hout, nextBlock, ← List.flatten_append, List.take_add]
  · rw [hk.stands.proceed]
    exact Nat.mod_lt _ (by decide)
  · rw [h.fine, hk.stands.fine]
    rfl
  · rw [hkeptRest, hk.index_eq, ← List.append_assoc, ← List.replicate_add]
  · rw [hchunked.count, hk.index_eq, List.length_drop]
    omega
  · have hsmall := hchunked.small
    rw [hk.index_eq, List.length_drop]
    omega
  · dsimp only
    rw [hk.index_eq, Nat.add_mul]
    omega
  · dsimp only
    rw [hk.index_eq, Nat.add_mul, ← List.drop_drop, ← hcontent, hparts]
    exact (List.drop_left' htakeFlat).symm

end Steps

/-! ## What every state has -/

/-- The first `i` blocks are passed on, and the next calls give the next blocks. -/
structure Delivers (codec : Codec) (type : BlockType) (fixLen : Nat) (s : Session) (i : Nat) :
    Prop where
  le : i ≤ s.added.length
  out : s.out = (s.added.take i).flatten
  limit : ∀ k, 0 < k → i + k ≤ s.added.length →
    ((s.added.drop i).take k).flatten.length < 2 ^ 32 →
    (s.buffer.chunkIterate codec ((s.added.drop i).take k).flatten.length).2 =
      ((s.added.drop i).take k).flatten
  rest : (s.buffer.chunkIterate codec 0).2 = (s.added.drop i).flatten
  held : ∀ j c memory, s.buffer.chunkBuffer[j]? = some c → c.chunk = some memory →
    memory.take c.len = slice (stored codec type s.added) (j * fixLen) c.len
  freed : ∀ j c, s.buffer.chunkBuffer[j]? = some c → c.chunk = none →
    (j + 1) * fixLen ≤ (stored codec type (s.added.take i)).length

/-- What was passed on is a begin of what was added, nothing is lost, and the chunks that are freed
lie before the blocks that are not passed on. -/
def Correct (codec : Codec) (type : BlockType) (fixLen : Nat) (s : Session) : Prop :=
  s.out <+: s.added.flatten ∧ ∃ i, Delivers codec type fixLen s i

lemma Chunked.held {b : ChunkBuffer} {index : Nat} {rest : List Bytes} {all : Bytes}
    (h : Chunked b index rest) (hcontent : rest.flatten = all.drop (index * b.chunkFixLen))
    {j : Nat} {c : Chunk} {memory : Bytes} (hj : b.chunkBuffer[j]? = some c)
    (hc : c.chunk = some memory) : memory.take c.len = slice all (j * b.chunkFixLen) c.len := by
  obtain ⟨kept, hkept, hholds⟩ := h.chunks
  rw [hkept] at hj
  have hle : index ≤ j := by
    by_contra hlt
    rw [List.getElem?_append_left (by rw [List.length_replicate]; omega)] at hj
    rw [List.eq_of_mem_replicate (List.mem_of_getElem? hj)] at hc
    cases hc
  rw [List.getElem?_append_right (by rw [List.length_replicate]; exact hle),
    List.length_replicate] at hj
  obtain ⟨hlt, hget⟩ := List.getElem?_eq_some_iff.mp hj
  have hltRest : j - index < rest.length := by rwa [← hholds.length_eq]
  have hx : Holds b.chunkFixLen c rest[j - index] := hget ▸ hholds.get hlt hltRest
  obtain ⟨hlen, -, memory', hc', -, htake⟩ := hx
  obtain rfl := Option.some.inj (hc.symm.trans hc')
  have hcut : cut rest (j - index) = (j - index) * b.chunkFixLen := by
    have hfull : ∀ x ∈ rest.take (j - index), x.length = b.chunkFixLen := by
      intro x hx
      refine h.pieces.full x ?_
      rw [List.dropLast_eq_take]
      exact List.mem_of_mem_take (List.take_take.symm ▸ (Nat.min_eq_left
        (by omega : j - index ≤ rest.length - 1)).symm ▸ hx)
    rw [cut, length_flatten_of_full hfull, List.length_take, Nat.min_eq_left (by omega)]
  have hslice := slice_cut hltRest
  rw [hcut, hcontent, slice, List.drop_drop, ← Nat.add_mul, Nat.add_sub_cancel' hle] at hslice
  rw [hlen, htake]
  exact hslice.symm

section Correct
variable (hcodec : codec.GivesBack type length) (hlength : length < 2 ^ 32) (hfix : 8 ≤ fixLen)
  (hfixLt : fixLen < 2 ^ 32) {s : Session} {i : Nat}
include hcodec hlength hfix hfixLt

lemma Inv.delivers (h : Inv codec type length fixLen s i) : Delivers codec type fixLen s i := by
  obtain ⟨rest, hchunked, hposLe, hindexLe, hcontent, hstream⟩ := h.chunks
  refine ⟨h.le, h.out, ?_, ?_, ?_, ?_⟩
  · intro k hk hkle hsmall
    have hexact := @takeCount_exact (s.added.drop i)
      (fun data hdata => (h.fits data (List.mem_of_mem_drop hdata)).1) k 0 hk
      (by rw [List.length_drop]; omega) (by omega)
    rw [Nat.zero_add] at hexact
    rw [(h.iterate hcodec hlength hfix hfixLt _).1, hexact]
  · rw [(h.iterate hcodec hlength hfix hfixLt 0).1, takeCount_zero, List.take_length]
  · intro j c memory hj hc
    rw [← h.fix] at hcontent ⊢
    exact hchunked.held hcontent hj hc
  · intro j c hj hc
    obtain ⟨kept, hkept, hholds⟩ := hchunked.chunks
    have hlt : j < s.buffer.info.chunkIndex := by
      by_contra hge
      rw [hkept, List.getElem?_append_right (by rw [List.length_replicate]; omega),
        List.length_replicate] at hj
      obtain ⟨hjlt, hget⟩ := List.getElem?_eq_some_iff.mp hj
      obtain ⟨-, -, memory, hmemory, -, -⟩ := hholds.get hjlt (by rwa [← hholds.length_eq])
      rw [List.get_eq_getElem, hget, hc] at hmemory
      cases hmemory
    have hsum := @length_stored_take_drop codec type s.added i
    have hlens := congrArg List.length hcontent
    rw [hstream, List.length_drop] at hsum
    rw [List.length_drop] at hlens
    have hmul := Nat.mul_le_mul_right fixLen (Nat.succ_le_of_lt hlt)
    rw [Nat.succ_eq_add_one] at hmul
    omega

lemma Inv.step (h : Inv codec type length fixLen s i) {a : Action} {t : Session}
    (hok : Counted codec type fixLen s a) (hstep : Compress.step codec s a = some t) :
    ∃ j, Inv codec type length fixLen t j := by
  cases a with
  | add data =>
    rw [Compress.step] at hstep
    by_cases hdata : data ≠ [] ∧ data.length ≤ s.buffer.compressStream.blockLength
    · rw [if_pos hdata] at hstep
      obtain rfl := Option.some.inj hstep
      rw [h.plain.length_eq] at hdata
      exact ⟨i, h.add hcodec (by omega) hfixLt hdata hok⟩
    · rw [if_neg hdata] at hstep
      cases hstep
  | iterate limitLength =>
    rw [Compress.step] at hstep
    by_cases hlimit : limitLength < 2 ^ 32
    · rw [if_pos hlimit] at hstep
      obtain rfl := Option.some.inj hstep
      exact ⟨_, (h.iterate hcodec hlength hfix hfixLt limitLength).2⟩
    · rw [if_neg hlimit] at hstep
      cases hstep

end Correct

def bufferLength (type : BlockType) (compressBufferLength maxDataLength : Nat) : Nat :=
  CompressStream.blockLength ⟨type, compressBufferLength, maxDataLength, false, false, 0, ""⟩

lemma bufferLength_lt {compressBufferLength maxDataLength : Nat}
    (hbuffer : compressBufferLength < 2 ^ 32) (hmax : maxDataLength < 2 ^ 32) :
    bufferLength type compressBufferLength maxDataLength < 2 ^ 32 := by
  rw [bufferLength, CompressStream.blockLength, CompressStream.createCompressBuffer]
  dsimp only
  split <;> omega

/-- No run loses data while the 32-bit numbers hold. -/
theorem reach_delivers {compressBufferLength maxDataLength : Nat}
    (hcodec : codec.GivesBack type (bufferLength type compressBufferLength maxDataLength))
    (hbuffer : compressBufferLength < 2 ^ 32) (hmax : maxDataLength < 2 ^ 32) (hfix : 8 ≤ fixLen)
    (hfixLt : fixLen < 2 ^ 32) {s : Session}
    (h : ReachBy (step codec) (Counted codec type fixLen)
      (begin fixLen type compressBufferLength maxDataLength) s) :
    Correct codec type fixLen s := by
  have hlength := @bufferLength_lt type _ _ hbuffer hmax
  obtain ⟨i, hinv⟩ : ∃ i, Inv codec type (bufferLength type compressBufferLength maxDataLength)
      fixLen s i := by
    refine ReachBy.invariant (I := fun s => ∃ i, Inv codec type
        (bufferLength type compressBufferLength maxDataLength) fixLen s i)
      ⟨0, Inv.begin (by omega) rfl⟩ (fun s a t hinv hok hstep => ?_) h
    obtain ⟨i, hinv⟩ := hinv
    exact hinv.step hcodec hlength hfix hfixLt hok hstep
  refine ⟨?_, i, hinv.delivers hcodec hlength hfix hfixLt⟩
  rw [hinv.out]
  exact (List.take_prefix i s.added).flatten

lemma literals_givesBack {n : Nat} (hn : n < 13) : literals.GivesBack type n := by
  intro data hne hle
  have hpos := List.length_pos_iff.mpr hne
  have hok : literals.compress type data = .ok (UInt8.ofNat (16 * data.length) :: data) :=
    if_pos ⟨hpos, by omega⟩
  exact ⟨_, hok, literals_lossless.ne_nil hok, literals_lossless.length_lt hok,
    literals_lossless.undo hok⟩

theorem reach_delivers_example : ∃ s, checkedRun (step literals) (Counted literals .lz4 9)
    (begin 9 .lz4 12 0) [.add (ascii "hello"), .add (ascii "voip"), .iterate 5, .iterate 0] = some s ∧
    s.out = ascii "hellovoip" ∧ Correct literals .lz4 9 s := by
  have hout : (checkedRun (step literals) (Counted literals .lz4 9) (begin 9 .lz4 12 0)
      [.add (ascii "hello"), .add (ascii "voip"), .iterate 5, .iterate 0]).map (fun s => s.out) =
      some (ascii "hellovoip") := by
    decide +kernel
  obtain ⟨s, hs, hout⟩ := Option.map_eq_some_iff.mp hout
  exact ⟨s, hs, hout, reach_delivers (literals_givesBack (by decide)) (by decide) (by decide)
    (by decide) (by decide) (ReachBy.initial.checkedRun _ hs)⟩

/-! ## The counter begins again -/

lemma length_stored_ones (n : Nat) :
    (stored literals .lz4 (List.replicate n [97])).length = n * 10 := by
  induction n with
  | zero => rfl
  | succ n ih =>
    have hblock : (blockOf literals .lz4 [97]).length = 2 := by decide
    rw [List.replicate_succ, stored_cons, List.length_append, List.length_append, ih,
      length_recordOf, hblock]
    omega

lemma reach_ones (n : Nat) (hn : n ≤ 2 ^ 31) :
    ∃ s, ReachBy (step literals) (Counted literals .lz4 30) (begin 30 .lz4 12 0) s ∧
      s.added = List.replicate n [97] ∧ Inv literals .lz4 12 30 s 0 := by
  induction n with
  | zero => exact ⟨_, .initial, rfl, Inv.begin (by decide) (by decide)⟩
  | succ n ih =>
    obtain ⟨s, hreach, hadded, hinv⟩ := ih (by omega)
    have hfits : Fits 12 [97] := ⟨by decide, by decide⟩
    have hok : Counted literals .lz4 30 s (.add [97]) := by
      have hconcat : s.added ++ [[97]] = List.replicate (n + 1) [97] := by
        rw [hadded, List.replicate_succ']
      refine ⟨fun hdvd => ?_, ?_⟩
      · rw [hadded, List.length_replicate] at hdvd
        obtain rfl : n = 0 := Nat.eq_zero_of_dvd_of_lt hdvd (by omega)
        rw [hadded]
        exact Nat.dvd_zero 30
      · rw [hconcat, length_stored_ones]
        omega
    refine ⟨_, hreach.step hok ?_, ?_, hinv.add (literals_givesBack (by decide)) (by decide)
      (by decide) hfits hok⟩
    · rw [step, if_pos ⟨hfits.1, by rw [hinv.plain.length_eq]; exact hfits.2⟩]
    · rw [hadded, List.replicate_succ']

def mixedChunk : Bytes :=
  [2, 0, 0, 0, 1, 0, 0, 0, 16, 97, 2, 0, 0, 0, 1, 0, 0, 0, 16, 97, 3, 0, 0, 0, 2, 0, 0, 0, 32, 97]

lemma CompressStream.Plain.misread {s : CompressStream} (hs : s.Plain .lz4 12) :
    s.decompress literals [32, 97] 1 = ({ s with errorString := "lz4 decompress failed" }, []) := by
  obtain ⟨type, compressBufferLength, maxDataLength, prefixes, records, processedLen, error⟩ := s
  obtain ⟨rfl, rfl, rfl, rfl, -⟩ := hs
  have hrun : Compress.decompress literals ⟨.block .lz4, false, false, [], [], ""⟩ [32, 97] 1 =
      (⟨.block .lz4, false, false, [], [], "lz4 decompress failed"⟩, []) := by
    decide +kernel
  rw [CompressStream.decompress, hrun]

lemma turn_misreads {it : Iterate} (hs : it.stream.Plain .lz4 12) (hcounter : it.info.counter = 0)
    (hpos : it.info.chunkPos = 20) (start : Nat) :
    (it.turn literals 0 start mixedChunk 30).error = true ∧
      (it.turn literals 0 start mixedChunk 30).out = it.out := by
  obtain ⟨info, hinfo⟩ : ∃ info, info = it.info.first mixedChunk := ⟨_, rfl⟩
  have hread : ChunkLen.read mixedChunk = ⟨2, 1⟩ := by decide +kernel
  have hcounter' : info.counter = 1 := by
    have hnext : (it.info.first mixedChunk).counter = add32 it.info.counter 1 := rfl
    rw [hinfo, hnext, hcounter]
    rfl
  have hpos' : info.chunkPos = 28 := by
    have hnext : (it.info.first mixedChunk).chunkPos = add32 it.info.chunkPos 8 := rfl
    rw [hinfo, hnext, hpos]
    rfl
  have hlen : info.chunkLen = ⟨2, 1⟩ := by
    rw [hinfo]
    exact hread
  have hbufferLen : info.bufferLen = 2 := by
    rw [hinfo]
    exact congrArg ChunkLen.len hread
  have hbufferPos : info.bufferPos = 0 := by
    rw [hinfo]
    rfl
  have hleft : sub32 30 28 = 2 := rfl
  have hslice : slice mixedChunk 28 2 = [32, 97] := rfl
  have hcomplete : ({ it with info := info }.complete literals [32, 97]).error = true ∧
      ({ it with info := info }.complete literals [32, 97]).out = it.out := by
    rw [Iterate.complete]
    rw [hcounter', if_pos rfl, hlen, hs.misread]
    dsimp only
    rw [if_pos (by decide)]
    exact ⟨rfl, List.append_nil _⟩
  have hcollect : ({ it with info := info }.collect literals mixedChunk 30) =
      { it with info := info }.complete literals [32, 97] := by
    rw [Iterate.collect]
    dsimp only
    rw [hpos', hleft, hbufferPos, if_pos rfl, hbufferLen, if_pos le_rfl, hcounter', if_pos rfl, hlen,
      hslice, hcomplete.1, if_pos rfl]
  rw [Iterate.turn, if_pos hcounter, ← hinfo, hcollect, hcomplete.1, if_pos rfl]
  exact hcomplete

lemma Pieces.first_full {rest : List Bytes} (h : Pieces fixLen rest)
    (hlong : fixLen < rest.flatten.length) :
    ∃ behind, rest = rest.flatten.take fixLen :: behind := by
  cases rest with
  | nil => exact absurd hlong (Nat.not_lt_zero _)
  | cons x behind =>
    have hx : x.length = fixLen := by
      cases behind with
      | nil =>
        rw [List.flatten_singleton] at hlong
        exact absurd (h.le x List.mem_cons_self) (by omega)
      | cons y behind => exact h.full x (by simp)
    exact ⟨behind, by rw [List.flatten_cons, List.take_left' hx]⟩

lemma drop_stored_ones (n : Nat) :
    (stored literals .lz4 (List.replicate (n + 2) [97])).drop (n * 10) = mixedChunk.take 20 := by
  rw [List.replicate_add, stored_append, List.drop_left' (length_stored_ones n)]
  decide +kernel

lemma reach_ones_passed :
    ∃ s, ReachBy (step literals) (fun _ _ => True) (begin 30 .lz4 12 0) s ∧
      s.added = List.replicate (2 ^ 31) [97] ∧ Inv literals .lz4 12 30 s (2 ^ 31) := by
  obtain ⟨s, hreach, hadded, hinv⟩ := reach_ones (2 ^ 31) le_rfl
  obtain ⟨-, hinv₁⟩ := hinv.iterate (literals_givesBack (by decide)) (by decide) (by decide)
    (by decide) 0
  have hlast : nextBlock 0 0 s.added = 2 ^ 31 := by
    rw [nextBlock, takeCount_zero, List.drop_zero, hadded, List.length_replicate, Nat.zero_add]
  rw [hlast] at hinv₁
  have hstep : step literals s (.iterate 0) = some ⟨(s.buffer.chunkIterate literals 0).1, s.added,
      s.out ++ (s.buffer.chunkIterate literals 0).2⟩ := by
    rw [step, if_pos (by decide)]
  exact ⟨_, (hreach.mono (fun _ _ _ => trivial)).step trivial hstep, hadded, hinv₁⟩

lemma Inv.ones_passed {s : Session} (h : Inv literals .lz4 12 30 s (2 ^ 31))
    (hadded : s.added = List.replicate (2 ^ 31) [97]) :
    s.buffer.info.counter = 0 ∧ s.buffer.info.chunkPos = 20 ∧
      s.buffer.info.chunkIndex = 715827882 ∧
      ∃ rest, Chunked s.buffer s.buffer.info.chunkIndex rest ∧
        rest.flatten = mixedChunk.take 20 := by
  obtain ⟨rest, hchunked, hposLe, hindexLe, hcontent, hstream⟩ := h.chunks
  have hposLt := h.pos_lt
  have hlens := congrArg List.length hcontent
  have hempty : s.added.drop (2 ^ 31) = [] := by
    rw [hadded]
    exact List.drop_eq_nil_of_le (by rw [List.length_replicate])
  have hposGe : rest.flatten.length ≤ s.buffer.info.chunkPos := by
    rw [hempty, stored_nil] at hstream
    exact List.drop_eq_nil_iff.mp hstream.symm
  rw [List.length_drop, hadded, length_stored_ones] at hlens
  rw [hadded, length_stored_ones] at hindexLe
  have hindex : s.buffer.info.chunkIndex = 715827882 := by omega
  refine ⟨?_, by omega, hindex, rest, hchunked, ?_⟩
  · have hphase := h.phase
    generalize hpart : ([] : Bytes) = part at hphase
    cases hphase with
    | record _ heven => exact heven
    | block got =>
      have hlen := congrArg List.length hpart
      rw [List.length_append, length_recordOf, List.length_nil] at hlen
      omega
  · have hcount : (2 : Nat) ^ 31 = 2147483646 + 2 := by norm_num
    have hbegin : 715827882 * 30 = 2147483646 * 10 := by norm_num
    rw [hcontent, hadded, hindex, hcount, hbegin, drop_stored_ones]

lemma chunks_of_error {it : Iterate} (herror : it.error = true) (limitLength start counter : Nat)
    (chunks : List Chunk) :
    Iterate.chunks codec fixLen limitLength start counter chunks it = (chunks, it) := by
  cases chunks with
  | nil => rfl
  | cons c rest => rw [Iterate.chunks, if_pos (.inr herror)]

lemma chunkIterate_misreads {b : ChunkBuffer} {rest : List Bytes}
    (h : Chunked b b.info.chunkIndex rest) (hfix : b.chunkFixLen = 30)
    (hs : b.compressStream.Plain .lz4 12) (hcounter : b.info.counter = 0)
    (hpos : b.info.chunkPos = 20) (hlong : 30 < rest.flatten.length)
    (hfirst : rest.flatten.take 30 = mixedChunk) : (b.chunkIterate literals 0).2 = [] := by
  have hpieces := h.pieces
  rw [hfix] at hpieces
  obtain ⟨behind, hbehind⟩ := Pieces.first_full hpieces hlong
  rw [hfirst] at hbehind
  obtain ⟨kept, hkept, hholds⟩ := h.chunks
  rw [hfix] at hkept hholds
  have hcount : b.countItems = b.chunkBuffer.length := by
    rw [h.count, hkept, List.length_append, List.length_replicate, hholds.length_eq]
  rw [hbehind] at hholds
  obtain ⟨c, kept', hc, -, rfl⟩ := List.forall₂_cons_right_iff.mp hholds
  have hmemory : c.chunk = some mixedChunk := by
    obtain ⟨memory, hmemory, hlen, htake⟩ := hc.memory
    rw [hmemory, ← htake, List.take_of_length_le (by rw [hlen]; decide)]
  obtain ⟨it, hit⟩ : ∃ it : Iterate, it = ⟨b.info, b.chunkIterateProceedLen, b.compressStream, [],
    false, false⟩ := ⟨_, rfl⟩
  have hinfo : it.info = b.info := by rw [hit]
  have hrun : it.stop = false := by rw [hit]
  have hfine : it.error = false := by rw [hit]
  obtain ⟨herror, hout⟩ := @turn_misreads it (by rw [hit]; exact hs) (hinfo ▸ hcounter)
    (hinfo ▸ hpos) b.chunkIterateProceedLen
  have hlen : mixedChunk.length = 30 := rfl
  have hloop : it.turn literals 0 b.chunkIterateProceedLen mixedChunk 30 =
      it.loop literals 0 b.chunkIterateProceedLen mixedChunk mixedChunk.length
        (2 * mixedChunk.length + 2) := by
    have hgo : it.info.chunkPos < 30 := by
      rw [hinfo, hpos]
      decide
    rw [hlen, Iterate.loop, if_pos ⟨hgo, hrun, hfine⟩, Iterate.loop, if_neg (fun hgo => by
      rw [herror] at hgo
      exact Bool.noConfusion hgo.2.2)]
  have hchunks := @chunks_cons literals 30 b.chunkIterateProceedLen 0 it mixedChunk c kept'
    mixedChunk hmemory hc.kind hc.len hrun hfine b.info.chunkIndex (by rw [hinfo]) _ hloop
  rw [if_neg (fun hfree => by
    rw [herror] at hfree
    exact Bool.noConfusion hfree.1), chunks_of_error herror] at hchunks
  rw [ChunkBuffer.chunkIterate, hcount, List.take_length, ← hit, hfix, hkept,
    chunks_gone _ _ _ _ _ hrun hfine, Nat.zero_add, hchunks]
  rw [hout, hit]

/-- After `2 ^ 31` blocks the record of the next block is read at the begin of its chunk. -/
theorem chunkIterate_loses_block :
    ¬∀ (codec : Codec) (type : BlockType) (fixLen compressBufferLength maxDataLength : Nat)
      (s : Session), codec.GivesBack type (bufferLength type compressBufferLength maxDataLength) →
      compressBufferLength < 2 ^ 32 → maxDataLength < 2 ^ 32 → 8 ≤ fixLen → fixLen < 2 ^ 32 →
      ReachBy (step codec) (fun _ _ => True)
        (begin fixLen type compressBufferLength maxDataLength) s →
      Correct codec type fixLen s := by
  intro hall
  have hcodec : literals.GivesBack .lz4 12 := literals_givesBack (by decide)
  obtain ⟨s, hreach, hadded, hinv⟩ := reach_ones_passed
  obtain ⟨hcounter, hpos, hindex, rest, hchunked, hrest⟩ := hinv.ones_passed hadded
  -- one more block
  have hfits : Fits 12 [97, 97] := ⟨by decide, by decide⟩
  have hframe : recordOf literals .lz4 [97, 97] ++ blockOf literals .lz4 [97, 97] =
      [3, 0, 0, 0, 2, 0, 0, 0, 32, 97, 97] := by
    decide +kernel
  obtain ⟨rest', hchunked', hcontent, hplain, hfix, -, hinfo, -⟩ := hchunked.add hinv.plain hcodec
    hfits (by rw [hinv.fix]; decide) (by rw [hinv.fix]; decide)
    (by rw [hinv.fix, hframe, hrest, hindex]; decide)
  rw [hrest, hframe] at hcontent
  have hstep : step literals s (.add [97, 97]) =
      some ⟨s.buffer.add literals [97, 97], s.added ++ [[97, 97]], s.out⟩ := by
    rw [step, if_pos ⟨hfits.1, by rw [hinv.plain.length_eq]; exact hfits.2⟩]
  have hlost : ((s.buffer.add literals [97, 97]).chunkIterate literals 0).2 = [] := by
    refine @chunkIterate_misreads _ rest' ?_ (hfix.trans hinv.fix) hplain ?_ ?_ ?_ ?_
    · rw [hinfo]
      exact hchunked'
    · rw [hinfo]
      exact hcounter
    · rw [hinfo]
      exact hpos
    · rw [hcontent]
      decide
    · rw [hcontent]
      decide +kernel
  obtain ⟨-, i, hi⟩ := hall literals .lz4 30 12 0 _ hcodec (by decide) (by decide) (by decide)
    (by decide) (hreach.step trivial hstep)
  -- the last block is neither passed on before nor now
  have hwhole : ((s.added ++ [[97, 97]]).take i).flatten ++ ((s.added ++ [[97, 97]]).drop i).flatten =
      (s.added ++ [[97, 97]]).flatten := by
    rw [← List.flatten_append, List.take_append_drop]
  have hnow := hi.rest
  have hbefore := hi.out
  rw [← hnow, hlost, List.append_nil, ← hbefore, hinv.out, List.flatten_concat,
    List.take_of_length_le (by rw [hadded, List.length_replicate])] at hwhole
  have hlen := congrArg List.length hwhole
  rw [List.length_append, List.length_cons] at hlen
  omega

end VoipMonitor.Compress
