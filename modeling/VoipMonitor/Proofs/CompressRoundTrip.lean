import VoipMonitor.Proofs.CompressBlocks

/-!
# What was compressed comes back

The record in front of a block holds the length of the whole write. It is the size of the block
when the write was not cut into several blocks, and then the reader gives back what was written.
-/

namespace VoipMonitor.Compress
open VoipMonitor.Library

variable {codec : Codec} {type : BlockType}

/-! ## What is written -/

inductive Body (codec : Codec) (type : BlockType) (length : Nat) : List Bytes → Bytes → Prop
  | nil : Body codec type length [] []
  | short {w block body : Bytes} {writes : List Bytes} : w.length ≤ length →
      codec.compress type w = .ok block → Body codec type length writes body →
      Body codec type length (w :: writes) (frame w.length block ++ body)
  | long {w block rest : Bytes} {writes : List Bytes} : length < w.length →
      codec.compress type (w.take length) = .ok block →
      Body codec type length (w :: writes) (frame w.length block ++ rest)

structure CompressStream.Writes (s : CompressStream) : Prop where
  prefixes : s.autoPrefixFile = true
  records : s.forceStream = true
  ok : s.errorString = ""

def CompressStream.blockLength (s : CompressStream) : Nat :=
  s.createCompressBuffer.compressBufferLength

lemma CompressStream.createCompressBuffer_self (s : CompressStream) :
    s.createCompressBuffer.createCompressBuffer = s.createCompressBuffer := by
  simp only [createCompressBuffer, CompressStream.mk.injEq, true_and, and_true]
  split <;> split <;> omega

def CompressStream.begin (s : CompressStream) : Bytes :=
  if s.processedLen = 0 then filePrefix s.typeCompress else []

lemma compressLoop_nil (len fuel : Nat) (s : CompressStream) :
    compressLoop codec len fuel [] s = (s, []) := by
  cases fuel with
  | zero => rfl
  | succ fuel => rw [compressLoop, if_pos rfl]

lemma compressLoop_block {s : CompressStream} (hs : s.Writes) {len fuel : Nat} {rest block : Bytes}
    (hrest : rest ≠ [])
    (hok : codec.compress s.typeCompress (rest.take s.compressBufferLength) = .ok block) :
    let next := compressLoop codec len fuel (rest.drop s.compressBufferLength)
      { s with processedLen := add32 s.processedLen len }
    (compressLoop codec len (fuel + 1) rest s).1 = next.1 ∧
      ((compressLoop codec len (fuel + 1) rest s).2.map CompressEv.data).flatten =
        s.begin ++ (frame len block ++ (next.2.map CompressEv.data).flatten) := by
  rw [compressLoop, if_neg hrest, hok, hs.prefixes, hs.records]
  refine ⟨rfl, ?_⟩
  by_cases hzero : s.processedLen = 0
  · simp [CompressStream.begin, frame, hzero]
  · simp [CompressStream.begin, frame, hzero]

lemma compressError_ne (status : Status) : compressError type status ≠ "" := by
  cases type <;> cases status <;> decide

lemma compressLoop_first {s : CompressStream} {len fuel : Nat} {rest : Bytes} (hrest : rest ≠ [])
    (hok : (compressLoop codec len (fuel + 1) rest s).1.errorString = "") :
    ∃ block, codec.compress s.typeCompress (rest.take s.compressBufferLength) = .ok block := by
  rw [compressLoop, if_neg hrest] at hok
  cases hblock : codec.compress s.typeCompress (rest.take s.compressBufferLength) with
  | error status =>
    rw [hblock] at hok
    exact absurd hok (compressError_ne status)
  | ok block => exact ⟨block, rfl⟩

lemma compress_eq_loop {s : CompressStream} (hs : s.Writes) {w : Bytes} (hw : w ≠ []) :
    compress codec s w =
      compressLoop codec w.length ((w.length - 1) + 1) w s.createCompressBuffer := by
  have hpos := List.length_pos_iff.mpr hw
  rw [compress, if_neg (not_or.mpr ⟨not_not.mpr hs.ok, hw⟩), Nat.sub_add_cancel hpos]

lemma CompressStream.Writes.createCompressBuffer {s : CompressStream} (hs : s.Writes) :
    s.createCompressBuffer.Writes := ⟨hs.prefixes, hs.records, hs.ok⟩

section Write
variable {s : CompressStream} (hs : s.Writes) {w : Bytes} (hw : w ≠ [])
  (hok : (compress codec s w).1.errorString = "")
include hs hw hok

lemma compress_begins :
    ∃ block rest, codec.compress s.typeCompress (w.take s.blockLength) = .ok block ∧
      ((compress codec s w).2.map CompressEv.data).flatten =
        s.begin ++ (frame w.length block ++ rest) := by
  rw [compress_eq_loop hs hw] at hok ⊢
  obtain ⟨block, hblock⟩ := compressLoop_first hw hok
  exact ⟨block, _, hblock, (compressLoop_block hs.createCompressBuffer hw hblock).2⟩

lemma compress_short (hlen : w.length ≤ s.blockLength) :
    ∃ block, codec.compress s.typeCompress w = .ok block ∧
      (compress codec s w).1 =
        { s.createCompressBuffer with processedLen := add32 s.processedLen w.length } ∧
      ((compress codec s w).2.map CompressEv.data).flatten = s.begin ++ frame w.length block := by
  rw [compress_eq_loop hs hw] at hok ⊢
  obtain ⟨block, hblock⟩ := compressLoop_first hw hok
  have htake : w.take s.createCompressBuffer.compressBufferLength = w :=
    List.take_of_length_le hlen
  have hdrop : w.drop s.createCompressBuffer.compressBufferLength = [] :=
    List.drop_eq_nil_of_le hlen
  obtain ⟨hstate, hbytes⟩ := @compressLoop_block codec _ hs.createCompressBuffer w.length
    (w.length - 1) w block hw hblock
  rw [hdrop, compressLoop_nil] at hstate hbytes
  rw [htake] at hblock
  refine ⟨block, hblock, hstate, ?_⟩
  rw [hbytes, List.map_nil, List.flatten_nil, List.append_nil]
  rfl

end Write

lemma compressAll_of_error {s : CompressStream} (h : s.errorString ≠ "") (writes : List Bytes) :
    compressAll codec s writes = (s, []) := by
  induction writes with
  | nil => rfl
  | cons w writes ih =>
    have hw : compress codec s w = (s, []) := by rw [compress, if_pos (Or.inl h)]
    rw [compressAll, hw]
    rw [ih]
    rfl

lemma compress_ok_of_all {s : CompressStream} {w : Bytes} {writes : List Bytes}
    (hok : (compressAll codec s (w :: writes)).1.errorString = "") :
    (compress codec s w).1.errorString = "" := by
  by_contra herror
  rw [compressAll, compressAll_of_error herror] at hok
  exact herror hok

lemma compressAll_body {s : CompressStream} (hs : s.Writes) (writes : List Bytes)
    (hne : ∀ w ∈ writes, w ≠ []) (htotal : s.processedLen + writes.flatten.length < 2 ^ 32)
    (hok : (compressAll codec s writes).1.errorString = "") :
    ∃ body, (compressAll codec s writes).2 = (if writes = [] then [] else s.begin) ++ body ∧
      Body codec s.typeCompress s.blockLength writes body := by
  induction writes generalizing s with
  | nil => exact ⟨[], rfl, .nil⟩
  | cons w writes ih =>
    have hw := hne w List.mem_cons_self
    have hfirst := compress_ok_of_all hok
    rw [List.flatten_cons, List.length_append] at htotal
    rw [if_neg (List.cons_ne_nil _ _), compressAll]
    by_cases hlen : w.length ≤ s.blockLength
    · obtain ⟨block, hblock, hstate, hbytes⟩ := compress_short hs hw hfirst hlen
      have hpos := List.length_pos_iff.mpr hw
      have hlength : add32 s.processedLen w.length = s.processedLen + w.length :=
        add32_eq (by omega)
      rw [compressAll] at hok
      dsimp only at hok
      rw [hstate, hlength] at hok ⊢
      -- the prefix is not written again
      obtain ⟨body, hbody, hrest⟩ := ih (s := { s.createCompressBuffer with
          processedLen := s.processedLen + w.length }) ⟨hs.prefixes, hs.records, hs.ok⟩
        (fun x hx => hne x (List.mem_cons_of_mem _ hx)) (by dsimp only; omega) hok
      have hbegin : (if writes = [] then [] else CompressStream.begin { s.createCompressBuffer with
          processedLen := s.processedLen + w.length }) = [] := by
        have hnone : CompressStream.begin { s.createCompressBuffer with
            processedLen := s.processedLen + w.length } = [] :=
          if_neg (show ¬(s.processedLen + w.length = 0) by omega)
        rw [hnone, ite_self]
      rw [hbegin, List.nil_append] at hbody
      refine ⟨frame w.length block ++ body, ?_, ?_⟩
      · rw [hbytes, hbody, List.append_assoc]
      · refine .short hlen hblock ?_
        have hsame : CompressStream.blockLength { s.createCompressBuffer with
            processedLen := s.processedLen + w.length } = s.blockLength := by
          have hself := congrArg CompressStream.compressBufferLength s.createCompressBuffer_self
          exact hself
        rw [hsame] at hrest
        exact hrest
    · obtain ⟨block, rest, hblock, hbytes⟩ := compress_begins hs hw hfirst
      refine ⟨frame w.length block ++ (rest ++ (compressAll codec (compress codec s w).1 writes).2),
        ?_, .long (by omega) hblock⟩
      rw [hbytes, List.append_assoc, List.append_assoc]

lemma compressAll_take_ok {s : CompressStream} {writes : List Bytes} (i : Nat)
    (hok : (compressAll codec s writes).1.errorString = "") :
    (compressAll codec s (writes.take i)).1.errorString = "" := by
  induction writes generalizing s i with
  | nil => rwa [List.take_nil]
  | cons w writes ih =>
    cases i with
    | zero =>
      rw [List.take_zero, compressAll]
      by_contra herror
      rw [compressAll_of_error herror] at hok
      exact herror hok
    | succ i =>
      rw [List.take_succ_cons, compressAll]
      rw [compressAll] at hok
      exact ih i hok

/-! ## What is read -/

section Body
variable (hcodec : codec.Lossless) {length : Nat} {writes : List Bytes} {body : Bytes}
  (h : Body codec type length writes body) (hsmall : ∀ w ∈ writes, w.length < 2 ^ 32)
include hcodec h hsmall

lemma Body.blocks_eq (hlen : ∀ w ∈ writes, w.length ≤ length) :
    blocks codec type body = ⟨writes.flatten, [], ""⟩ := by
  induction h with
  | nil => rfl
  | short _ hblock _ ih =>
    rw [hcodec.blocks_good hblock (hsmall _ List.mem_cons_self),
      ih (fun w hw => hsmall w (List.mem_cons_of_mem _ hw))
        (fun w hw => hlen w (List.mem_cons_of_mem _ hw)), List.flatten_cons]
  | long hlong _ => exact absurd (hlen _ List.mem_cons_self) (by omega)

lemma Body.blocks_error (hlong : ¬∀ w ∈ writes, w.length ≤ length) :
    (blocks codec type body).error ≠ "" := by
  induction h with
  | nil => exact absurd (fun w hw => nomatch hw) hlong
  | short hle hblock _ ih =>
    rw [hcodec.blocks_good hblock (hsmall _ List.mem_cons_self)]
    refine ih (fun w hw => hsmall w (List.mem_cons_of_mem _ hw)) (fun hall => hlong ?_)
    intro w hw
    rcases List.mem_cons.mp hw with rfl | hw
    · exact hle
    · exact hall w hw
  | @long w block rest writes hlong hblock =>
    refine hcodec.blocks_bad hblock (hsmall _ List.mem_cons_self) ?_ rest
    rw [List.length_take]
    omega

lemma Body.boundary {part : Bytes} (hpart : part <+: body)
    (herror : (blocks codec type part).error = "") (hrest : (blocks codec type part).rest = []) :
    ∃ i, Body codec type length (writes.take i) part ∧ ∀ w ∈ writes.take i, w.length ≤ length := by
  have hempty : part = [] → ∃ i, Body codec type length (writes.take i) part ∧
      ∀ w ∈ writes.take i, w.length ≤ length := by
    rintro rfl
    exact ⟨0, .nil, nofun⟩
  -- a part of a frame stays in the buffer
  have hframe : ∀ {size : Nat} {block : Bytes}, block.length < 2 ^ 32 → part <+: frame size block →
      part.length < (frame size block).length → part = [] := by
    intro size block hblock hpre hlt
    rw [blocks_of_not_ready (not_ready_of_isPrefix hblock hpre hlt)] at hrest
    exact hrest
  induction h generalizing part with
  | nil => exact hempty (List.prefix_nil.mp hpart)
  | @short w block body writes hle hblock _ ih =>
    by_cases hlt : part.length < (frame w.length block).length
    · exact hempty (hframe (hcodec.length_lt hblock) (List.prefix_of_prefix_length_le hpart
        (List.prefix_append _ _) hlt.le) hlt)
    · obtain ⟨more, rfl⟩ := List.prefix_of_prefix_length_le (List.prefix_append _ body) hpart
        (by omega)
      rw [hcodec.blocks_good hblock (hsmall _ List.mem_cons_self)] at herror hrest
      obtain ⟨i, hi, hall⟩ := ih (fun w hw => hsmall w (List.mem_cons_of_mem _ hw))
        ((List.prefix_append_right_inj _).mp hpart) herror hrest
        (fun hmore => ⟨0, hmore ▸ .nil, nofun⟩)
        (fun hb hpre hlt => by
          rw [blocks_of_not_ready (not_ready_of_isPrefix hb hpre hlt)] at hrest
          exact hrest)
      refine ⟨i + 1, .short hle hblock hi, fun x hx => ?_⟩
      rcases List.mem_cons.mp hx with rfl | hx
      · exact hle
      · exact hall x hx
  | @long w block rest writes hlong hblock =>
    by_cases hlt : part.length < (frame w.length block).length
    · exact hempty (hframe (hcodec.length_lt hblock) (List.prefix_of_prefix_length_le hpart
        (List.prefix_append _ _) hlt.le) hlt)
    · obtain ⟨more, rfl⟩ := List.prefix_of_prefix_length_le (List.prefix_append _ rest) hpart
        (by omega)
      have hlength : (w.take length).length ≠ w.length := by
        rw [List.length_take]
        omega
      exact absurd herror (hcodec.blocks_bad hblock (hsmall _ List.mem_cons_self) hlength more)

end Body

lemma Body.unique {length : Nat} {writes : List Bytes} {body body' : Bytes}
    (h : Body codec type length writes body) (h' : Body codec type length writes body')
    (hlen : ∀ w ∈ writes, w.length ≤ length) : body = body' := by
  induction h generalizing body' with
  | nil =>
    cases h'
    rfl
  | short hle hblock _ ih =>
    cases h' with
    | short _ hblock' hrest =>
      rw [hblock] at hblock'
      obtain rfl := Except.ok.inj hblock'
      rw [ih hrest (fun w hw => hlen w (List.mem_cons_of_mem _ hw))]
    | long hlong _ => exact absurd hle (by omega)
  | long hlong _ => exact absurd (hlen _ List.mem_cons_self) (by omega)

lemma Body.eq_nil {length : Nat} {body : Bytes} (h : Body codec type length [] body) :
    body = [] := by
  cases h
  rfl

/-! ## Segments -/

structure Fed (codec : Codec) (type : BlockType) (s : DecompressStream) (out part : Bytes) :
    Prop where
  type_eq : s.typeCompress = .block type
  records : s.forceStream = true
  error_eq : s.errorString = (blocks codec type part).error
  out_eq : out = (blocks codec type part).out
  data_eq : (blocks codec type part).error = "" → s.decompressData = (blocks codec type part).rest

lemma Fed.decompress {s : DecompressStream} {out part : Bytes} (h : Fed codec type s out part)
    (segment : Bytes)
    (hkeep : (blocks codec type part).error = "" → (blocks codec type part).rest = [] →
      ¬filePrefix type <+: segment) :
    Fed codec type (Compress.decompress codec s segment 0).1
      (out ++ (Compress.decompress codec s segment 0).2) (part ++ segment) := by
  obtain ⟨hmore, hfail⟩ := @blocks_append codec type part segment
  by_cases herror : (blocks codec type part).error = ""
  · by_cases hsegment : segment = []
    · rw [Compress.decompress, if_pos (Or.inr hsegment), hsegment, List.append_nil, List.append_nil]
      exact h
    · have hstrip : ¬(s.decompressData = [] ∧ (filePrefix type).isPrefixOf segment = true) := by
        rintro ⟨hdata, hpre⟩
        rw [h.data_eq herror] at hdata
        exact hkeep herror hdata (List.isPrefixOf_iff_prefix.mp hpre)
      have hrun : Compress.decompress codec s segment 0 =
          ({ s with
              decompressData := (blocks codec type (s.decompressData ++ segment)).rest
              errorString := (blocks codec type (s.decompressData ++ segment)).error },
            (blocks codec type (s.decompressData ++ segment)).out) := by
        have hopen : ¬(s.errorString ≠ "" ∨ segment = []) := by
          rw [h.error_eq, herror]
          simpa using hsegment
        rw [Compress.decompress, if_neg hopen, h.type_eq]
        simp only [reduceCtorEq, false_and, if_false, if_neg hstrip, h.records, if_true]
        rfl
      rw [hrun]
      rw [h.data_eq herror] at *
      refine ⟨h.type_eq, h.records, ?_, ?_, fun _ => ?_⟩
      · rw [hmore herror]
      · rw [hmore herror, h.out_eq]
      · rw [hmore herror]
  · have hclosed : s.errorString ≠ "" := by rwa [h.error_eq]
    rw [Compress.decompress, if_pos (Or.inl hclosed), List.append_nil]
    obtain ⟨herror', hout'⟩ := hfail herror
    refine ⟨h.type_eq, h.records, ?_, ?_, fun hok => ?_⟩
    · rw [herror', h.error_eq]
    · rw [hout', h.out_eq]
    · rw [herror'] at hok
      exact absurd hok herror

lemma Fed.decompressAll {s : DecompressStream} {out part : Bytes} (h : Fed codec type s out part)
    (segments : List Bytes)
    (hkeep : ∀ before segment after, segments = before ++ segment :: after →
      (blocks codec type (part ++ before.flatten)).error = "" →
      (blocks codec type (part ++ before.flatten)).rest = [] → ¬filePrefix type <+: segment) :
    Fed codec type (Compress.decompressAll codec s segments).1
      (out ++ (Compress.decompressAll codec s segments).2) (part ++ segments.flatten) := by
  induction segments generalizing s out part with
  | nil =>
    rw [Compress.decompressAll, List.flatten_nil, List.append_nil, List.append_nil]
    exact h
  | cons segment segments ih =>
    have hfirst := hkeep [] segment segments rfl
    rw [List.flatten_nil, List.append_nil] at hfirst
    have hrest := ih (h.decompress segment hfirst) (fun before next after heq => ?_)
    · rw [Compress.decompressAll, List.flatten_cons, ← List.append_assoc]
      rw [← List.append_assoc]
      exact hrest
    · have hnext := hkeep (segment :: before) next after (by rw [heq, List.cons_append])
      rw [List.flatten_cons, ← List.append_assoc] at hnext
      exact hnext

def autoStream : DecompressStream := ⟨.auto, true, true, [], [], ""⟩

lemma autoType_filePrefix (data : Bytes) : autoType (filePrefix type ++ data) = (.block type, data) := by
  cases type <;> rfl

lemma fed_first {data : Bytes} (hkeep : ¬filePrefix type <+: data) :
    Fed codec type (decompress codec autoStream (filePrefix type ++ data) 0).1
      (decompress codec autoStream (filePrefix type ++ data) 0).2 data := by
  have hopen : ¬(autoStream.errorString ≠ "" ∨ filePrefix type ++ data = []) := by
    cases type <;> exact not_or.mpr ⟨not_not.mpr rfl, List.cons_ne_nil _ _⟩
  have hstrip : ¬(autoStream.decompressData = [] ∧ (filePrefix type).isPrefixOf data = true) :=
    fun h => hkeep (List.isPrefixOf_iff_prefix.mp h.2)
  have hrun : decompress codec autoStream (filePrefix type ++ data) 0 =
      ({ autoStream with
          typeCompress := .block type
          decompressData := (blocks codec type data).rest
          errorString := (blocks codec type data).error },
        (blocks codec type data).out) := by
    rw [decompress, if_neg hopen, if_pos ⟨rfl, rfl⟩, autoType_filePrefix]
    dsimp only
    rw [if_pos (show autoStream.forceStream = true from rfl), if_neg hstrip]
    rfl
  rw [hrun]
  exact ⟨rfl, rfl, rfl, rfl, fun _ => rfl⟩

/-! ## The whole stream -/

def newStream (type : BlockType) (compressBufferLength maxDataLength : Nat) : CompressStream :=
  ⟨type, compressBufferLength, maxDataLength, true, true, 0, ""⟩

/-- The reader succeeds and passes on what was written. -/
def RoundTrips (codec : Codec) (writes segments : List Bytes) : Prop :=
  (decompressAll codec autoStream segments).1.errorString = "" ∧
    (decompressAll codec autoStream segments).2 = writes.flatten

/-- No segment that begins with a record looks like one that begins with a prefix: neither what is
behind the prefix of the file, nor a segment between two writes. -/
def NoPrefixAtRecord (codec : Codec) (s : CompressStream) (writes segments : List Bytes) : Prop :=
  (∀ first ∈ segments.head?, ¬filePrefix s.typeCompress <+: first.drop 3) ∧
    ∀ before segment after, segments = before ++ segment :: after → before ≠ [] →
      ∀ i, before.flatten = (compressAll codec s (writes.take i)).2 →
        ¬filePrefix s.typeCompress <+: segment

lemma length_filePrefix : (filePrefix type).length = 3 := by
  cases type <;> rfl

/-- The stream round-trips when no segment looks like a prefix and no write is longer than a block.
A longer write cannot be read. -/
theorem decompress_roundTrips_iff (hcodec : codec.Lossless) (type : BlockType)
    (compressBufferLength maxDataLength : Nat) (writes segments : List Bytes)
    (hne : ∀ w ∈ writes, w ≠ []) (htotal : writes.flatten.length < 2 ^ 32)
    (hok : (compressAll codec (newStream type compressBufferLength maxDataLength)
      writes).1.errorString = "")
    (hsegments : segments.flatten =
      (compressAll codec (newStream type compressBufferLength maxDataLength) writes).2)
    (hfirst : ∀ first ∈ segments.head?, 4 ≤ first.length)
    (hkeep : NoPrefixAtRecord codec (newStream type compressBufferLength maxDataLength) writes
      segments) :
    RoundTrips codec writes segments ↔
      ∀ w ∈ writes, w.length ≤ (newStream type compressBufferLength maxDataLength).blockLength := by
  obtain ⟨s, hnew⟩ : ∃ s, s = newStream type compressBufferLength maxDataLength := ⟨_, rfl⟩
  have hs : s.Writes := by
    rw [hnew]
    exact ⟨rfl, rfl, rfl⟩
  have htype : s.typeCompress = type := by rw [hnew]; rfl
  have hzero : s.processedLen = 0 := by rw [hnew]; rfl
  have hbegin : s.begin = filePrefix type := by rw [CompressStream.begin, if_pos hzero, htype]
  rw [← hnew] at hok hsegments hkeep ⊢
  have hsmall : ∀ w ∈ writes, w.length < 2 ^ 32 := fun w hw =>
    lt_of_le_of_lt (List.Sublist.length_le (List.sublist_flatten_of_mem hw)) htotal
  obtain ⟨body, hwritten, hbody⟩ := compressAll_body hs writes hne (by omega) hok
  rw [htype] at hbody
  rw [hbegin] at hwritten
  cases segments with
  | nil =>
    have hnil : writes = [] := by
      by_contra hwrites
      rw [if_neg hwrites, ← hsegments, List.flatten_nil] at hwritten
      have hlen := congrArg List.length hwritten
      rw [List.length_append, length_filePrefix, List.length_nil] at hlen
      omega
    rw [hnil]
    exact ⟨fun _ => nofun, fun _ => ⟨rfl, rfl⟩⟩
  | cons first segments =>
    have hlen : 4 ≤ first.length := hfirst first rfl
    have hwrites : writes ≠ [] := by
      rintro rfl
      have hempty := congrArg List.length hsegments
      rw [List.flatten_cons, List.length_append, compressAll, List.length_nil] at hempty
      omega
    rw [if_neg hwrites] at hwritten
    rw [hwritten, List.flatten_cons] at hsegments
    -- the prefix is in the first segment
    obtain ⟨data, hdata⟩ : filePrefix type <+: first := by
      refine List.prefix_of_prefix_length_le ?_ (List.prefix_append first segments.flatten) ?_
      · rw [hsegments]
        exact List.prefix_append _ _
      · rw [length_filePrefix]
        omega
    subst hdata
    rw [List.append_assoc] at hsegments
    have hparts := List.append_cancel_left hsegments
    rw [List.length_append, length_filePrefix] at hlen
    have hfed := @fed_first codec type data (by
      have hdrop := hkeep.1 _ rfl
      rw [htype, ← @length_filePrefix type, List.drop_left] at hdrop
      exact hdrop)
    have hend := hfed.decompressAll segments (fun before segment after heq herror hrest => by
      have hpart : data ++ before.flatten <+: body := by
        rw [← hparts, heq, List.flatten_append, ← List.append_assoc]
        exact List.prefix_append _ _
      obtain ⟨i, hi, hshort⟩ := hbody.boundary hcodec hsmall hpart herror hrest
      obtain ⟨body', hwritten', hbody'⟩ := compressAll_body hs (writes.take i)
        (fun w hw => hne w (List.mem_of_mem_take hw))
        (by
          have hle : (writes.take i).flatten.length ≤ writes.flatten.length :=
            ((List.take_prefix i writes).flatten).length_le
          omega) (compressAll_take_ok i hok)
      rw [htype] at hbody'
      have hsame := hi.unique hbody' hshort
      have hnonempty : writes.take i ≠ [] := by
        intro hnil
        rw [hnil] at hi
        have hlength := congrArg List.length hi.eq_nil
        rw [List.length_append, List.length_nil] at hlength
        omega
      have hboundary := hkeep.2 ((filePrefix type ++ data) :: before) segment after
        (by rw [heq, List.cons_append]) (List.cons_ne_nil _ _) i
        (by rw [hwritten', if_neg hnonempty, hbegin, ← hsame, List.flatten_cons, List.append_assoc])
      rwa [htype] at hboundary)
    rw [hparts] at hend
    have hall : decompressAll codec autoStream ((filePrefix type ++ data) :: segments) =
      ((decompressAll codec (decompress codec autoStream (filePrefix type ++ data) 0).1 segments).1,
        (decompress codec autoStream (filePrefix type ++ data) 0).2 ++
        (decompressAll codec (decompress codec autoStream (filePrefix type ++ data) 0).1
          segments).2) := rfl
    rw [RoundTrips, hall]
    rw [hend.error_eq, hend.out_eq]
    constructor
    · rintro ⟨herror, -⟩
      by_contra hlong
      exact hbody.blocks_error hcodec hsmall hlong herror
    · intro hshort
      rw [hbody.blocks_eq hcodec hsmall hshort]
      exact ⟨rfl, rfl⟩

/-- Blocks of less than 13 bytes, which lz4 stores as literals behind a token with their number. -/
def literals : Codec where
  compress _ data :=
    if 0 < data.length ∧ data.length < 13 then .ok (UInt8.ofNat (16 * data.length) :: data)
    else .error .other
  decompress _ block size :=
    match block with
    | [] => .error .other
    | token :: data =>
      if token.toNat = 16 * data.length ∧ data.length ≤ size then .ok data else .error .other
  zstdDecompress _ _ := .error "zstd initialize failed"

lemma literals_compress {type : BlockType} {data block : Bytes}
    (h : literals.compress type data = .ok block) :
    data.length < 13 ∧ block = UInt8.ofNat (16 * data.length) :: data := by
  simp only [literals] at h
  by_cases hlen : 0 < data.length ∧ data.length < 13
  · rw [if_pos hlen] at h
    exact ⟨hlen.2, (Except.ok.inj h).symm⟩
  · rw [if_neg hlen] at h
    cases h

lemma literals_lossless : literals.Lossless where
  undo := by
    intro type data block h
    obtain ⟨hlen, rfl⟩ := literals_compress h
    have htoken : (UInt8.ofNat (16 * data.length)).toNat = 16 * data.length := by
      rw [UInt8.toNat_ofNat']
      omega
    exact if_pos ⟨htoken, le_rfl⟩
  exact := by
    intro type data block size out h hout
    obtain ⟨-, rfl⟩ := literals_compress h
    simp only [literals] at hout
    split at hout
    · exact (Except.ok.inj hout).symm
    · cases hout
  ne_nil := by
    intro type data block h
    obtain ⟨-, rfl⟩ := literals_compress h
    exact List.cons_ne_nil _ _
  length_lt := by
    intro type data block h
    obtain ⟨hlen, rfl⟩ := literals_compress h
    rw [List.length_cons]
    omega

theorem decompress_roundTrips_iff_example :
    RoundTrips literals [ascii "hello", ascii "voip"]
      [ascii "LZ4" ++ sizeInfo 5 6 ++ 80 :: ascii "hello" ++ [4, 0], [0, 0, 5, 0, 0, 0, 64] ++
        ascii "voip"] := by
  refine (decompress_roundTrips_iff literals_lossless .lz4 8 0 _ _ ?_ (by decide) (by decide)
    (by decide) ?_ ⟨?_, ?_⟩).mpr (by decide)
  · decide
  · decide
  · decide
  · intro before segment after heq hne i hi
    obtain ⟨first, before, rfl⟩ := List.exists_cons_of_ne_nil hne
    obtain ⟨rfl, hrest⟩ := List.cons.inj heq
    cases before with
    | nil =>
      obtain ⟨rfl, -⟩ := List.cons.inj hrest
      decide
    | cons second before =>
      have hlen := congrArg List.length (List.cons.inj hrest).2
      simp at hlen

/-- A write that is longer than a block. -/
theorem decompress_misses_long_write :
    ¬∀ (codec : Codec), codec.Lossless → ∀ (type : BlockType)
      (compressBufferLength maxDataLength : Nat) (writes segments : List Bytes),
      (∀ w ∈ writes, w ≠ []) → writes.flatten.length < 2 ^ 32 →
      (compressAll codec (newStream type compressBufferLength maxDataLength)
        writes).1.errorString = "" →
      segments.flatten =
        (compressAll codec (newStream type compressBufferLength maxDataLength) writes).2 →
      (∀ first ∈ segments.head?, 4 ≤ first.length) → RoundTrips codec writes segments := by
  intro h
  have hrun := h literals literals_lossless .lz4 4 0 [ascii "hello"]
    [(compressAll literals (newStream .lz4 4 0) [ascii "hello"]).2] (by decide) (by decide)
    (by decide) (List.append_nil _) (by decide)
  exact absurd hrun.1 (by decide)

end VoipMonitor.Compress
