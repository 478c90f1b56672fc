import VoipMonitor.Proofs.CompressedFill

/-!
# One chunk read back

A round of the loop over a chunk takes bytes of a record or of a block. When they are complete, the
record is taken over or the block is passed on. Between two blocks the call may stop.
-/

namespace VoipMonitor.Compress
open VoipMonitor.Library

variable {codec : Codec} {type : BlockType} {length : Nat} {added : List Bytes}

def takeCount (limitLength : Nat) : Nat → List Bytes → Nat
  | _, [] => 0
  | done, data :: rest =>
    if limitLength ≠ 0 ∧ limitLength ≤ (done + data.length) % 2 ^ 32 then 1
    else takeCount limitLength (done + data.length) rest + 1

/-! ## Where the reader stands -/

structure Gathers (info : IterateInfo) (size : Nat) (got : Bytes) : Prop where
  pos : info.bufferPos = got.length
  buffer : info.buffer.take got.length = got
  len : info.bufferLen = size

inductive Phase (codec : Codec) (type : BlockType) (added : List Bytes) (info : IterateInfo)
    (i : Nat) : Bytes → Prop
  | record {part : Bytes} : part.length < 8 → info.counter = 2 * i % 2 ^ 32 →
      (info.counter = 0 → part = []) → info.bufferPos = part.length →
      (info.counter ≠ 0 → Gathers info 8 part) → Phase codec type added info i part
  | block {data : Bytes} {rest : List Bytes} (got : Bytes) : added.drop i = data :: rest →
      got.length < (blockOf codec type data).length → info.counter = (2 * i + 1) % 2 ^ 32 →
      info.chunkLen = ⟨(blockOf codec type data).length, data.length⟩ →
      Gathers info (blockOf codec type data).length got →
      Phase codec type added info i (recordOf codec type data ++ got)

structure Stands (codec : Codec) (type : BlockType) (length : Nat) (added : List Bytes)
    (first start : Nat) (it : Iterate) (i : Nat) (part : Bytes) : Prop where
  fine : it.error = false
  plain : it.stream.Plain type length
  first_le : first ≤ i
  out : it.out = ((added.take i).drop first).flatten
  proceed : it.proceedLen = add32 start it.out.length
  phase : Phase codec type added it.info i part

structure Reading (codec : Codec) (type : BlockType) (length : Nat) (added : List Bytes)
    (first start limitLength last : Nat) (it : Iterate) (i : Nat) (part : Bytes) : Prop
    extends Stands codec type length added first start it i part where
  running : it.stop = false
  target : i + takeCount limitLength it.out.length (added.drop i) = last
  unbroken : ¬(limitLength ≠ 0 ∧ limitLength ≤ it.out.length % 2 ^ 32)

structure Stopped (codec : Codec) (type : BlockType) (length : Nat) (added : List Bytes)
    (first start last : Nat) (it : Iterate) : Prop
    extends Stands codec type length added first start it last [] where
  stopped : it.stop = true

structure Window (info : IterateInfo) (memory : Bytes) (len : Nat) (avail : Bytes) : Prop where
  slice_eq : slice memory info.chunkPos avail.length = avail
  len_eq : info.chunkPos + avail.length = len
  len_lt : len < 2 ^ 32

variable {info : IterateInfo} {memory avail later : Bytes} {len : Nat}

lemma Window.slice (h : Window info memory len avail) {n : Nat} (hn : n ≤ avail.length) :
    slice memory info.chunkPos n = avail.take n := by
  have heq := congrArg (List.take n) h.slice_eq
  rwa [Library.slice, List.take_take, Nat.min_eq_left hn] at heq

lemma Window.advance (h : Window info memory len avail) {info' : IterateInfo} {n : Nat}
    (hn : n ≤ avail.length) (hpos : info'.chunkPos = info.chunkPos + n) :
    Window info' memory len (avail.drop n) := by
  have hlen := h.len_eq
  refine ⟨?_, ?_, h.len_lt⟩
  · have hparts := slice_append_slice memory info.chunkPos n (avail.length - n)
    have hwhole : n + (avail.length - n) = avail.length := by omega
    rw [hwhole, h.slice_eq, h.slice hn] at hparts
    rw [hpos, List.length_drop]
    exact List.append_cancel_left (hparts.trans (List.take_append_drop n avail).symm)
  · rw [hpos, List.length_drop]
    omega

lemma Window.left (h : Window info memory len avail) :
    sub32 len info.chunkPos = avail.length := by
  have hlen := h.len_eq
  rw [sub32_eq h.len_lt (by omega)]
  omega

lemma IterateInfo.addPos_chunkPos {n : Nat} (h : info.chunkPos + n < 2 ^ 32) :
    (info.addPos n).chunkPos = info.chunkPos + n := add32_eq h

lemma append_split {got goal more : Bytes} (h : got ++ (avail ++ later) = goal ++ more)
    (hle : got.length ≤ goal.length) (hreach : goal.length ≤ got.length + avail.length) :
    got ++ avail.take (goal.length - got.length) = goal ∧
      avail.drop (goal.length - got.length) ++ later = more := by
  have heq : (got ++ avail.take (goal.length - got.length)) ++
      (avail.drop (goal.length - got.length) ++ later) = goal ++ more := by
    rw [← h, List.append_assoc, ← List.append_assoc (avail.take _), List.take_append_drop]
  refine List.append_inj heq ?_
  rw [List.length_append, List.length_take]
  omega

/-! ## Collecting -/

lemma Gathers.copy {size : Nat} {got data : Bytes} (h : Gathers info size got)
    (hle : got.length + data.length ≤ size) (hsize : size < 2 ^ 32) :
    Gathers (info.copy data) size (got ++ data) := by
  refine ⟨?_, ?_, h.len⟩
  · have hpos : (info.copy data).bufferPos = add32 info.bufferPos data.length := rfl
    rw [hpos, h.pos, add32_eq (by omega), List.length_append]
  · have hbuffer : (info.copy data).buffer = overwrite info.buffer info.bufferPos data := rfl
    rw [hbuffer, h.pos, List.length_append]
    exact overwrite_take h.buffer rfl

lemma complete_addPos (it : Iterate) (data : Bytes) (n : Nat) :
    ({ it with info := it.info.addPos n }.complete codec data) =
      { it.complete codec data with info := (it.complete codec data).info.addPos n } := by
  have hcounter : (it.info.addPos n).counter = it.info.counter := rfl
  have hlen : (it.info.addPos n).chunkLen = it.info.chunkLen := rfl
  rw [Iterate.complete, Iterate.complete]
  rw [hcounter, hlen]
  by_cases hodd : it.info.counter % 2 = 1
  · rw [if_pos hodd, if_pos hodd]
    by_cases herror :
        (it.stream.decompress codec data it.info.chunkLen.decompressLen).1.errorString ≠ ""
    · rw [if_pos herror, if_pos herror]
    · rw [if_neg herror, if_neg herror]
      rfl
  · rw [if_neg hodd, if_neg hodd]
    rfl

section Collect
variable {it : Iterate} {got : Bytes} {size : Nat} (h : Gathers it.info size got)
  (hw : Window it.info memory len avail) (hgot : got.length < size) (hsize : size < 2 ^ 32)
include h hw hgot hsize

lemma collect_part (hshort : got.length + avail.length < size) :
    ∃ info, it.collect codec memory len = { it with info := info } ∧
      Gathers info size (got ++ avail) ∧ info.chunkPos = it.info.chunkPos + avail.length ∧
      info.counter = it.info.counter ∧ info.chunkLen = it.info.chunkLen ∧
      info.chunkIndex = it.info.chunkIndex := by
  have hlen := hw.len_eq
  have hlenLt := hw.len_lt
  have hchunkPos (i : IterateInfo) (hi : i.chunkPos = it.info.chunkPos) :
      (i.copy avail).chunkPos = it.info.chunkPos + avail.length := by
    have hcopy : (i.copy avail).chunkPos = add32 i.chunkPos avail.length := rfl
    rw [hcopy, hi, add32_eq (by omega)]
  rw [Iterate.collect, hw.left, h.pos, h.len]
  dsimp only
  by_cases hempty : got.length = 0
  · obtain rfl := List.length_eq_zero_iff.mp hempty
    rw [if_pos List.length_nil, if_neg (by rw [List.length_nil] at hshort; omega), hw.slice_eq]
    refine ⟨_, rfl, ?_, hchunkPos _ rfl, rfl, rfl, rfl⟩
    have hfresh : Gathers { it.info with buffer := List.replicate size 0 } size [] :=
      ⟨h.pos, rfl, h.len⟩
    exact hfresh.copy (by omega) hsize
  · have hcopied : min avail.length (sub32 size got.length) = avail.length := by
      rw [sub32_eq hsize (by omega)]
      omega
    rw [if_neg hempty, hcopied, hw.slice_eq]
    have hnext := h.copy (by omega : got.length + avail.length ≤ size) hsize
    rw [hnext.pos, hnext.len, List.length_append, if_neg (by omega)]
    exact ⟨_, rfl, hnext, hchunkPos _ rfl, rfl, rfl, rfl⟩

lemma collect_complete (henough : size ≤ got.length + avail.length)
    (hkind : (if it.info.counter % 2 = 1 then it.info.chunkLen.len else 8) = size) :
    ∃ info : IterateInfo, info.chunkPos = it.info.chunkPos + (size - got.length) ∧
      info.counter = it.info.counter ∧ info.chunkLen = it.info.chunkLen ∧
      info.chunkIndex = it.info.chunkIndex ∧
      (({ it with info := info }.complete codec
          (got ++ avail.take (size - got.length))).error = false →
        it.collect codec memory len =
          { it with info := info }.complete codec (got ++ avail.take (size - got.length))) := by
  have hlen := hw.len_eq
  have hlenLt := hw.len_lt
  by_cases hempty : got.length = 0
  · -- in place
    obtain rfl := List.length_eq_zero_iff.mp hempty
    rw [List.length_nil] at henough ⊢
    refine ⟨it.info.addPos size, ?_, rfl, rfl, rfl, fun hfine => ?_⟩
    · exact IterateInfo.addPos_chunkPos (by omega)
    · rw [complete_addPos] at hfine ⊢
      rw [List.nil_append, Nat.sub_zero, ← hw.slice (by omega)] at hfine ⊢
      dsimp only at hfine
      rw [Iterate.collect, hw.left, h.pos, h.len, hkind]
      dsimp only
      rw [if_pos List.length_nil, if_pos (by omega), hfine, if_neg Bool.false_ne_true]
  · -- from the buffer
    have hcopied : min avail.length (sub32 size got.length) = size - got.length := by
      rw [sub32_eq hsize (by omega)]
      omega
    have htake : (avail.take (size - got.length)).length = size - got.length := by
      rw [List.length_take]
      omega
    obtain ⟨info, hinfo⟩ : ∃ info, info = it.info.copy (avail.take (size - got.length)) := ⟨_, rfl⟩
    have hnext : Gathers info size (got ++ avail.take (size - got.length)) :=
      hinfo ▸ h.copy (by omega) hsize
    have hcounter : info.counter = it.info.counter := by rw [hinfo]; rfl
    have hchunkLen : info.chunkLen = it.info.chunkLen := by rw [hinfo]; rfl
    have hfull : (got ++ avail.take (size - got.length)).length = size := by
      rw [List.length_append, htake]
      omega
    refine ⟨info, ?_, hcounter, hchunkLen, by rw [hinfo]; rfl, fun _ => ?_⟩
    · have hcopy : info.chunkPos =
          add32 it.info.chunkPos (avail.take (size - got.length)).length := by
        rw [hinfo]
        rfl
      rw [hcopy, htake, add32_eq (by omega)]
    · have hbuffer := hnext.buffer
      rw [hfull] at hbuffer
      rw [Iterate.collect, hw.left, h.pos, h.len]
      dsimp only
      rw [if_neg hempty, hcopied, hw.slice (by omega), ← hinfo, hnext.pos, hnext.len, hfull,
        if_pos rfl, hcounter, hchunkLen, hkind, hbuffer]

end Collect

/-! ## Records and blocks -/

section Codec
variable (hcodec : codec.GivesBack type length) (hlength : length < 2 ^ 32)
include hcodec hlength

lemma read_recordOf {data : Bytes} (hdata : Fits length data) (more : Bytes) :
    ChunkLen.read (recordOf codec type data ++ more) =
      ⟨(blockOf codec type data).length, data.length⟩ := by
  have hblock := length_blockOf_lt hcodec hdata
  have hle := hdata.2
  have hlens : slice (recordOf codec type data ++ more) 0 4 =
        encodeLe 4 (blockOf codec type data).length ∧
      slice (recordOf codec type data ++ more) 4 4 = encodeLe 4 data.length := by
    rw [slice_append_left (by rw [length_recordOf]; omega),
      slice_append_left (by rw [length_recordOf]), recordOf, ChunkLen.bytes]
    constructor
    · rw [slice_append_left (by rw [length_encodeLe]), slice, List.drop_zero]
      exact List.take_of_length_le (by rw [length_encodeLe])
    · have hright := slice_append_right (encodeLe 4 (blockOf codec type data).length)
        (encodeLe 4 data.length) 0 4
      rw [length_encodeLe] at hright
      rw [hright, slice, List.drop_zero]
      exact List.take_of_length_le (by rw [length_encodeLe])
  rw [ChunkLen.read, hlens.1, hlens.2, leNat_encodeLe (by omega), leNat_encodeLe (by omega)]

omit hlength in
lemma CompressStream.Plain.decompress {s : CompressStream} (hs : s.Plain type length)
    {data : Bytes} (hdata : Fits length data) :
    s.decompress codec (blockOf codec type data) data.length = (s, data) := by
  have hblock : decompressBlock codec type (blockOf codec type data) data.length = .ok data := by
    rw [decompressBlock, decompress_blockOf hcodec hdata]
    exact if_pos rfl
  have hrun : Compress.decompress codec
      ⟨.block s.typeCompress, s.autoPrefixFile, s.forceStream, [], [], s.errorString⟩
      (blockOf codec type data) data.length =
      (⟨.block s.typeCompress, s.autoPrefixFile, s.forceStream, [], [], s.errorString⟩, data) := by
    rw [Compress.decompress,
      if_neg (not_or.mpr ⟨not_not.mpr hs.ok, blockOf_ne_nil hcodec hdata⟩)]
    have hauto : ¬(TypeCompress.block s.typeCompress = .auto ∧ s.autoPrefixFile = true) :=
      fun h => by cases h.1
    rw [if_neg hauto]
    dsimp only
    rw [hs.records, if_neg Bool.false_ne_true, hs.type_eq, hblock]
  rw [CompressStream.decompress, hrun]

lemma complete_record {it : Iterate} {data : Bytes} (hdata : Fits length data)
    (heven : it.info.counter % 2 = 0) :
    it.complete codec (recordOf codec type data) =
      { it with
        info := { it.info with
          chunkLen := ⟨(blockOf codec type data).length, data.length⟩
          bufferLen := (blockOf codec type data).length
          counter := add32 it.info.counter 1
          bufferPos := 0 } } := by
  have hread := read_recordOf hcodec hlength hdata []
  rw [List.append_nil] at hread
  rw [Iterate.complete, if_neg (by omega), hread]

omit hlength in
lemma complete_block {it : Iterate} {data : Bytes} (hdata : Fits length data)
    (hs : it.stream.Plain type length) (hodd : it.info.counter % 2 = 1)
    (hlen : it.info.chunkLen.decompressLen = data.length) :
    it.complete codec (blockOf codec type data) =
      { it with
        out := it.out ++ data
        proceedLen := add32 it.proceedLen data.length
        info := { it.info with
          bufferLen := 8
          counter := add32 it.info.counter 1
          bufferPos := 0 } } := by
  rw [Iterate.complete, if_pos hodd, hlen, hs.decompress hcodec hdata]
  rw [if_neg (not_not.mpr hs.ok), hlen]

end Codec

lemma add32_add32 (a b c : Nat) : add32 (add32 a b) c = add32 a (b + c) := by
  unfold add32
  omega

lemma exists_drop_cons {i : Nat} (h : stored codec type (added.drop i) ≠ []) :
    ∃ data, added.drop i = data :: added.drop (i + 1) := by
  cases hdrop : added.drop i with
  | nil =>
    rw [hdrop] at h
    exact absurd stored_nil h
  | cons data rest =>
    have htail : (added.drop i).drop 1 = added.drop (i + 1) := List.drop_drop
    rw [hdrop, List.drop_one, List.tail_cons] at htail
    exact ⟨data, by rw [htail]⟩

lemma mem_of_drop_cons {i : Nat} {data : Bytes} (h : added.drop i = data :: added.drop (i + 1)) :
    data ∈ added := List.mem_of_mem_drop (h ▸ List.mem_cons_self)

lemma flatten_passed {first i : Nat} {data : Bytes}
    (hdrop : added.drop i = data :: added.drop (i + 1)) (hfirst : first ≤ i) :
    ((added.take (i + 1)).drop first).flatten = ((added.take i).drop first).flatten ++ data := by
  have hlt : i < added.length := by
    by_contra hge
    rw [List.drop_eq_nil_of_le (by omega)] at hdrop
    cases hdrop
  have hget : added[i]? = some data := by
    rw [← List.head?_drop, hdrop, List.head?_cons]
  rw [List.take_add_one, hget, Option.toList_some,
    List.drop_append_of_le_length (by rw [List.length_take]; omega), List.flatten_concat]

section Turn
variable (hcodec : codec.GivesBack type length) (hlength : length < 2 ^ 32)
  (hfits : ∀ data ∈ added, Fits length data) {first start i : Nat} {it : Iterate} {part : Bytes}
include hcodec hlength hfits

lemma Stands.collect (h : Stands codec type length added first start it i part)
    (hcounter : it.info.counter ≠ 0) (hw : Window it.info memory len avail)
    (hstream : stored codec type (added.drop i) = part ++ (avail ++ later)) {data : Bytes}
    (hdrop : added.drop i = data :: added.drop (i + 1)) :
    ∃ n i' part', n ≤ avail.length ∧ (avail ≠ [] → 0 < n) ∧
      Window (it.collect codec memory len).info memory len (avail.drop n) ∧
      (it.collect codec memory len).info.chunkIndex = it.info.chunkIndex ∧
      (it.collect codec memory len).stop = it.stop ∧
      Stands codec type length added first start (it.collect codec memory len) i' part' ∧
      stored codec type (added.drop i') = part' ++ (avail.drop n ++ later) ∧
      ((i' = i ∧ (it.collect codec memory len).out = it.out) ∨
        (i' = i + 1 ∧ part' = [] ∧ (it.collect codec memory len).out = it.out ++ data)) := by
  have hdata := hfits data (mem_of_drop_cons hdrop)
  rw [hdrop, stored_cons] at hstream
  obtain ⟨hfine, hplain, hfirst, hout, hproceed, hphase⟩ := h
  cases hphase with
  | record hshort heven hzero hpos hgathers =>
    have hg := hgathers hcounter
    by_cases hmore : part.length + avail.length < 8
    · -- a part of the record
      obtain ⟨info, hrun, hg', hchunkPos, hcount, -, hindex⟩ :=
        @collect_part codec _ _ _ it part 8 hg hw hshort (by omega) hmore
      rw [hrun]
      refine ⟨avail.length, i, part ++ avail, le_rfl, List.length_pos_iff.mpr,
        hw.advance le_rfl hchunkPos, hindex, rfl, ⟨hfine, hplain, hfirst, hout, hproceed, ?_⟩, ?_,
        .inl ⟨rfl, rfl⟩⟩
      · exact .record (by rw [List.length_append]; omega) (hcount.trans heven)
          (fun h => absurd (hcount ▸ h) hcounter) hg'.pos (fun _ => hg')
      · rw [hdrop, stored_cons, hstream, List.drop_length, List.nil_append, List.append_assoc]
    · -- the whole record
      have hkind : (if it.info.counter % 2 = 1 then it.info.chunkLen.len else 8) = 8 :=
        if_neg (by omega)
      obtain ⟨hrecord, hrest⟩ := append_split hstream.symm
        (by rw [length_recordOf]; omega) (by rw [length_recordOf]; omega)
      rw [length_recordOf] at hrecord hrest
      obtain ⟨info, hchunkPos, hcount, -, hindex, hrun⟩ :=
        @collect_complete codec _ _ _ it part 8 hg hw hshort (by omega) (by omega) hkind
      rw [hrecord, complete_record hcodec hlength hdata (by dsimp only; omega)] at hrun
      rw [hrun hfine]
      refine ⟨8 - part.length, i, recordOf codec type data ++ [], by omega, by omega,
        hw.advance (by omega) hchunkPos, hindex, rfl,
        ⟨hfine, hplain, hfirst, hout, hproceed, ?_⟩, ?_, .inl ⟨rfl, rfl⟩⟩
      · refine .block [] hdrop (List.length_pos_iff.mpr (blockOf_ne_nil hcodec hdata)) ?_ rfl
          ⟨rfl, rfl, rfl⟩
        dsimp only
        rw [hcount, heven, add32]
        omega
      · rw [hdrop, stored_cons, hrest, List.append_nil]
  | @block data' rest got hdrop' hshort hodd hchunkLen hg =>
    obtain ⟨rfl, rfl⟩ := List.cons.inj (hdrop'.symm.trans hdrop)
    have hblock := length_blockOf_lt hcodec hdata
    rw [List.append_assoc] at hstream
    have hcut := List.append_cancel_left hstream
    by_cases hmore : got.length + avail.length < (blockOf codec type data').length
    · -- a part of the block
      obtain ⟨info, hrun, hg', hchunkPos, hcount, hlens, hindex⟩ :=
        @collect_part codec _ _ _ it got _ hg hw hshort hblock hmore
      rw [hrun]
      refine ⟨avail.length, i, recordOf codec type data' ++ (got ++ avail), le_rfl,
        List.length_pos_iff.mpr, hw.advance le_rfl hchunkPos, hindex, rfl,
        ⟨hfine, hplain, hfirst, hout, hproceed, ?_⟩, ?_, .inl ⟨rfl, rfl⟩⟩
      · exact .block (got ++ avail) hdrop (by rw [List.length_append]; omega) (hcount.trans hodd)
          (hlens.trans hchunkLen) hg'
      · rw [hdrop, stored_cons, hcut, List.drop_length, List.nil_append, List.append_assoc,
          List.append_assoc]
    · -- the whole block
      have hkind : (if it.info.counter % 2 = 1 then it.info.chunkLen.len else 8) =
          (blockOf codec type data').length := by
        rw [if_pos (by omega), hchunkLen]
      obtain ⟨hwhole, hrest⟩ := append_split hcut.symm hshort.le (by omega)
      obtain ⟨info, hchunkPos, hcount, hlens, hindex, hrun⟩ :=
        @collect_complete codec _ _ _ it got _ hg hw hshort hblock (by omega) hkind
      rw [hwhole, @complete_block codec type length hcodec { it with info := info } data' hdata
        hplain (by dsimp only; omega) (by dsimp only; rw [hlens, hchunkLen])] at hrun
      rw [hrun hfine]
      refine ⟨(blockOf codec type data').length - got.length, i + 1, [], by omega, by omega,
        hw.advance (by omega) hchunkPos, hindex, rfl,
        ⟨hfine, hplain, by omega, ?_, ?_, ?_⟩, ?_, .inr ⟨rfl, rfl, rfl⟩⟩
      · rw [hout, flatten_passed hdrop hfirst]
      · rw [hproceed, add32_add32, List.length_append]
      · refine .record (by simp) ?_ (fun _ => rfl) rfl (fun _ => ⟨rfl, rfl, rfl⟩)
        dsimp only
        rw [hcount, hodd, add32]
        omega
      · rw [List.nil_append]
        exact hrest.symm

lemma Stands.atBegin (h : Stands codec type length added first start it i part)
    (hw : Window it.info memory len avail)
    (hstream : stored codec type (added.drop i) = part ++ (avail ++ later)) {data : Bytes}
    (hdrop : added.drop i = data :: added.drop (i + 1)) (hcounter : it.info.counter = 0)
    (hbegin : it.info.chunkPos = 0) (hreach : 8 ≤ avail.length) :
    Window (it.info.first memory) memory len (avail.drop 8) ∧
      Stands codec type length added first start { it with info := it.info.first memory } i
        (recordOf codec type data ++ []) ∧
      stored codec type (added.drop i) = recordOf codec type data ++ [] ++ (avail.drop 8 ++ later) := by
  have hdata := hfits data (mem_of_drop_cons hdrop)
  obtain ⟨hfine, hplain, hfirst, hout, hproceed, hphase⟩ := h
  cases hphase with
  | block got hdrop' hshort hodd hchunkLen hg =>
    rw [hcounter] at hodd
    omega
  | record hshort heven hzero hpos hgathers =>
    obtain rfl := hzero hcounter
    rw [hdrop, stored_cons, List.nil_append] at hstream
    obtain ⟨hrecord, hrest⟩ := @append_split avail later [] _ _ hstream.symm (Nat.zero_le _)
      (by rw [length_recordOf, List.length_nil]; omega)
    rw [List.nil_append, length_recordOf, List.length_nil] at hrecord
    rw [length_recordOf, List.length_nil] at hrest
    have hmemory : memory = recordOf codec type data ++ memory.drop 8 := by
      have htake := hw.slice hreach
      rw [hbegin, slice, List.drop_zero, Nat.sub_zero] at *
      rw [← hrecord, ← htake, List.take_append_drop]
    have hread : ChunkLen.read memory = ⟨(blockOf codec type data).length, data.length⟩ := by
      rw [hmemory]
      exact read_recordOf hcodec hlength hdata _
    refine ⟨hw.advance hreach (add32_eq (show it.info.chunkPos + 8 < 2 ^ 32 by omega)),
      ⟨hfine, hplain, hfirst, hout, hproceed, ?_⟩, ?_⟩
    · refine .block [] hdrop (List.length_pos_iff.mpr (blockOf_ne_nil hcodec hdata)) ?_ hread
        ⟨rfl, rfl, congrArg ChunkLen.len hread⟩
      have hnext : (it.info.first memory).counter = add32 it.info.counter 1 := rfl
      rw [hnext, heven, add32]
      omega
    · rw [hdrop, stored_cons, List.append_nil, hrest]

variable {limitLength last : Nat}

omit hcodec hlength hfits in
lemma sub32_add32_self (a b : Nat) : sub32 (add32 a b) a = b % 2 ^ 32 := by
  unfold sub32 add32
  omega

omit hcodec hlength hfits in
lemma Reading.same {it' : Iterate} {part' : Bytes}
    (h : Reading codec type length added first start limitLength last it i part)
    (hs : Stands codec type length added first start it' i part') (hstop : it'.stop = it.stop)
    (hout : it'.out = it.out) :
    Reading codec type length added first start limitLength last it' i part' ∧
      ¬(it'.info.counter % 2 = 0 ∧ limitLength ≠ 0 ∧ limitLength ≤ sub32 it'.proceedLen start) := by
  refine ⟨⟨hs, hstop.trans h.running, hout ▸ h.target, hout ▸ h.unbroken⟩, ?_⟩
  rintro ⟨-, hlimit⟩
  rw [hs.proceed, sub32_add32_self, hout] at hlimit
  exact h.unbroken hlimit

lemma Reading.turn (h : Reading codec type length added first start limitLength last it i part)
    (hw : Window it.info memory len avail)
    (hstream : stored codec type (added.drop i) = part ++ (avail ++ later)) (havail : avail ≠ [])
    (hbegin : it.info.counter = 0 → it.info.chunkPos = 0 ∧ 8 ≤ avail.length) :
    ∃ n i' part', 0 < n ∧ n ≤ avail.length ∧
      Window (it.turn codec limitLength start memory len).info memory len (avail.drop n) ∧
      (it.turn codec limitLength start memory len).info.chunkIndex = it.info.chunkIndex ∧
      stored codec type (added.drop i') = part' ++ (avail.drop n ++ later) ∧
      (Reading codec type length added first start limitLength last
          (it.turn codec limitLength start memory len) i' part' ∨
        (Stopped codec type length added first start last
          (it.turn codec limitLength start memory len) ∧ i' = last ∧ part' = [])) := by
  obtain ⟨data, hdrop⟩ := @exists_drop_cons codec type added i (by rw [hstream]; simp [havail])
  -- the record at the begin of the chunk
  obtain ⟨it₁, part₁, m, hit₁, hm, hmle, hcounter₁, hw₁, hs₁, hstream₁, hstop₁, hout₁, hindex₁⟩ :
      ∃ it₁ part₁ m, it₁ = (if it.info.counter = 0 then { it with info := it.info.first memory }
          else it) ∧ (m = 0 ∨ 0 < m) ∧ m ≤ avail.length ∧ it₁.info.counter ≠ 0 ∧
        Window it₁.info memory len (avail.drop m) ∧
        Stands codec type length added first start it₁ i part₁ ∧
        stored codec type (added.drop i) = part₁ ++ (avail.drop m ++ later) ∧
        it₁.stop = it.stop ∧ it₁.out = it.out ∧ it₁.info.chunkIndex = it.info.chunkIndex := by
    by_cases hzero : it.info.counter = 0
    · obtain ⟨hchunkPos, hreach⟩ := hbegin hzero
      obtain ⟨hw₁, hs₁, hstream₁⟩ := h.toStands.atBegin hcodec hlength hfits hw hstream hdrop hzero
        hchunkPos hreach
      refine ⟨_, _, 8, (if_pos hzero).symm, by omega, hreach, ?_, hw₁, hs₁, hstream₁, rfl, rfl, rfl⟩
      have hnext : (it.info.first memory).counter = add32 it.info.counter 1 := rfl
      rw [hnext, hzero]
      decide
    · exact ⟨it, part, 0, (if_neg hzero).symm, by omega, by omega, hzero, hw, h.toStands, hstream,
        rfl, rfl, rfl⟩
  obtain ⟨n, i', part', hn, hnpos, hw₂, hindex₂, hstop₂, hs₂, hstream₂, hstep⟩ :=
    hs₁.collect hcodec hlength hfits hcounter₁ hw₁ hstream₁ hdrop
  obtain ⟨it₂, hit₂⟩ : ∃ it₂, it₂ = it₁.collect codec memory len := ⟨_, rfl⟩
  rw [← hit₂] at hw₂ hindex₂ hstop₂ hs₂ hstep
  have hturn : it.turn codec limitLength start memory len =
      if it₂.info.counter % 2 = 0 ∧ limitLength ≠ 0 ∧ limitLength ≤ sub32 it₂.proceedLen start then
        { it₂ with stop := true } else it₂ := by
    rw [Iterate.turn, ← hit₁, ← hit₂, hs₂.fine, if_neg Bool.false_ne_true]
  have hdropDrop : (avail.drop m).drop n = avail.drop (m + n) := List.drop_drop
  rw [hdropDrop] at hw₂ hstream₂
  rw [List.length_drop] at hn
  have htotal : 0 < m + n := by
    rcases hm with rfl | hm
    · have := hnpos (by rwa [List.drop_zero])
      omega
    · omega
  rw [hturn]
  rcases hstep with ⟨rfl, hout⟩ | ⟨rfl, rfl, hout⟩
  · obtain ⟨hreading, hgo⟩ := h.same hs₂ (hstop₂.trans hstop₁)
      (hout.trans hout₁)
    rw [if_neg hgo]
    exact ⟨m + n, _, part', htotal, by omega, hw₂, hindex₂.trans hindex₁, hstream₂, .inl hreading⟩
  · have htarget := h.target
    have heven : it₂.info.counter % 2 = 0 := by
      have hphase := hs₂.phase
      generalize hpart : ([] : Bytes) = part at hphase
      cases hphase with
      | record _ heven => omega
      | block got =>
        have hlen := congrArg List.length hpart
        rw [List.length_append, length_recordOf, List.length_nil] at hlen
        omega
    have hdone : sub32 it₂.proceedLen start = (it.out.length + data.length) % 2 ^ 32 := by
      rw [hs₂.proceed, sub32_add32_self, hout, hout₁, List.length_append]
    rw [hdrop, takeCount] at htarget
    rw [hdone]
    by_cases hlimit : limitLength ≠ 0 ∧ limitLength ≤ (it.out.length + data.length) % 2 ^ 32
    · rw [if_pos ⟨heven, hlimit⟩]
      rw [if_pos hlimit] at htarget
      refine ⟨m + n, i + 1, [], htotal, by omega, hw₂, hindex₂.trans hindex₁, hstream₂,
        .inr ⟨⟨?_, rfl⟩, htarget, rfl⟩⟩
      rw [← htarget]
      exact ⟨hs₂.fine, hs₂.plain, hs₂.first_le, hs₂.out, hs₂.proceed, hs₂.phase⟩
    · rw [if_neg (fun hstop => hlimit hstop.2)]
      rw [if_neg hlimit] at htarget
      refine ⟨m + n, i + 1, [], htotal, by omega, hw₂, hindex₂.trans hindex₁, hstream₂,
        .inl ⟨hs₂, (hstop₂.trans hstop₁).trans h.running, ?_, ?_⟩⟩
      · rw [hout, hout₁, List.length_append]
        omega
      · rw [hout, hout₁, List.length_append]
        exact hlimit

end Turn

end VoipMonitor.Compress
