import VoipMonitor.Proofs.TarBlocks

/-!
# Reading a tar back

The reader passes on the parts of a file one after another, from the begin of the tar or from their
positions, as long as every name fits into its field together with the number of the part.
-/

namespace VoipMonitor.Tar
open VoipMonitor.Library VoipMonitor.Compress

variable {names : Names} {codec : Codec} {r : ReadData} {f : Bytes} {t : TarFile} {p : FilePart}
  {parts : List FilePart}

def partName (t : TarFile) (p : FilePart) : Bytes :=
  if p.partSuffix then baseName p.filename (t.partCounter + 1) ++ suffixText (t.partCounter + 1)
  else p.filename

def NameFits (partCounter : Nat) (p : FilePart) : Prop :=
  p.partSuffix = true → p.filename.length + (suffixText partCounter).length ≤ 99

instance (partCounter : Nat) (p : FilePart) : Decidable (NameFits partCounter p) :=
  inferInstanceAs (Decidable (p.partSuffix = true → _))

lemma matches_partName (hf : NameOk f) (hp : NameOk p.filename) :
    Matches f (partName t p) ↔
      if p.partSuffix then baseName p.filename (t.partCounter + 1) = f else p.filename = f := by
  rw [partName, Matches]
  split
  · obtain ⟨digits, hsuffix, hne, hdigits⟩ := suffixText_eq (t.partCounter + 1)
    rw [hsuffix, cmpLength_suffix hne hdigits, List.take_left' rfl]
    constructor
    · exact And.right
    · rintro rfl
      exact ⟨rfl, rfl⟩
  · rw [hp.cmpLength, List.take_length]
    constructor
    · exact And.right
    · rintro rfl
      exact ⟨rfl, rfl⟩

lemma matches_self (hf : NameOk f) (hp : p.filename = f) :
    Matches f (partName t p) ↔ NameFits (t.partCounter + 1) p := by
  rw [matches_partName hf (hp ▸ hf), NameFits, hp]
  split
  · rename_i hsuffix
    rw [baseName_eq_iff]
    exact ⟨fun h _ => h, fun h => h hsuffix⟩
  · rename_i hsuffix
    exact iff_of_true rfl fun h => absurd h hsuffix

lemma matches_iff_of_fits (hf : NameOk f) (hp : NameOk p.filename)
    (hfits : NameFits (t.partCounter + 1) p) : Matches f (partName t p) ↔ p.filename = f := by
  rw [matches_partName hf hp]
  split
  · rename_i hsuffix
    rw [baseName_eq_iff.mpr (hfits hsuffix)]
  · exact Iff.rfl

lemma partName_eq (hf : NameOk f) (hname : partName t p = f) :
    p.partSuffix = false ∧ p.filename = f := by
  rw [partName] at hname
  split at hname
  · obtain ⟨digits, hsuffix, hne, hdigits⟩ := suffixText_eq (t.partCounter + 1)
    have hnumber := @endsInNumber_suffix (baseName p.filename (t.partCounter + 1)) digits hne hdigits
    rw [← hsuffix, hname, hf.number] at hnumber
    cases hnumber
  · rename_i hsuffix
    exact ⟨Bool.eq_false_iff.mpr hsuffix, hname⟩

/-! ## The file -/

def body (names : Names) : TarFile → List FilePart → Bytes
  | _, [] => []
  | t, p :: parts =>
    header names t p ++ p.data ++ List.replicate (padding p.data.length) 0 ++
      body names (appendPart names t p) parts

lemma content_appendAll (names : Names) (t : TarFile) (parts : List FilePart) :
    (appendAll names t parts).content = t.content ++ body names t parts := by
  induction parts generalizing t with
  | nil => exact (List.append_nil _).symm
  | cons p parts ih =>
    rw [appendAll, ih, body, appendPart]
    simp only [List.append_assoc]

/-- The parts: names as in `NameOk`, data of less than `2^29` bytes, and behind the part without a
number no other part of the file. -/
structure PartsOk (parts : List FilePart) : Prop where
  names : ∀ p ∈ parts, NameOk p.filename
  data : ∀ p ∈ parts, p.data ≠ [] ∧ p.data.length < 2 ^ 29
  last : parts.Pairwise fun p q => p.filename = q.filename → p.partSuffix = true

lemma PartsOk.tail (h : PartsOk (p :: parts)) : PartsOk parts :=
  ⟨fun q hq => h.names q (List.mem_cons_of_mem p hq),
    fun q hq => h.data q (List.mem_cons_of_mem p hq), (List.pairwise_cons.mp h.last).2⟩

lemma PartsOk.header (h : PartsOk (p :: parts)) (names : Names) (t : TarFile) :
    HeaderOf (header names t p) (partName t p) p.data.length :=
  headerOf_header (h.names p List.mem_cons_self) (h.data p List.mem_cons_self).2

def AllFit : Nat → List FilePart → Prop
  | _, [] => True
  | k, p :: parts => NameFits (k + 1) p ∧ AllFit (k + 1) parts

lemma allFit_iff (k : Nat) (parts : List FilePart) :
    AllFit k parts ↔ ∀ (i : Nat) (p : FilePart), parts[i]? = some p → NameFits (k + i + 1) p := by
  induction parts generalizing k with
  | nil => exact iff_of_true trivial nofun
  | cons q parts ih =>
    rw [AllFit, ih]
    constructor
    · rintro ⟨hq, hrest⟩ i p hp
      cases i with
      | zero => exact Option.some.inj hp ▸ hq
      | succ i =>
        have := hrest i p hp
        rwa [show k + 1 + i = k + (i + 1) by omega] at this
    · intro hall
      refine ⟨hall 0 q rfl, fun i p hp => ?_⟩
      have := hall (i + 1) p hp
      rwa [show k + (i + 1) = k + 1 + i by omega] at this

def found (f : Bytes) : Nat → List FilePart → List Bytes
  | _, [] => []
  | k, p :: parts =>
    (if p.filename = f ∧ NameFits (k + 1) p then blocksOf p.data else []) ++ found f (k + 1) parts

lemma found_eq_nil {k : Nat} (h : ∀ p ∈ parts, p.filename ≠ f) : found f k parts = [] := by
  induction parts generalizing k with
  | nil => rfl
  | cons p parts ih =>
    rw [found, if_neg fun hp => h p List.mem_cons_self hp.1,
      ih fun q hq => h q (List.mem_cons_of_mem p hq)]
    rfl

def NotLast (r : ReadData) (f : Bytes) (parts : List FilePart) : Prop :=
  r.position ≠ 0 ∧ cString r.fileHeader = f → ∀ p ∈ parts, p.filename ≠ f

lemma PartsOk.notLast (h : PartsOk (p :: parts)) (hf : NameOk f)
    (hheader : r.fileHeader = Tar.header names t p) : NotLast r f parts := by
  rintro ⟨-, hname⟩ q hq hqf
  rw [hheader, (h.header names t).name] at hname
  obtain ⟨hsuffix, hpf⟩ := partName_eq hf hname
  have hlast := (List.pairwise_cons.mp h.last).1 q hq (hpf.trans hqf.symm)
  rw [hsuffix] at hlast
  cases hlast

lemma LooksFor.read_end (h : LooksFor r f) (hf : NameOk f) (hended : r.ended = false)
    (herror : r.error = false) (hbehind : Behind r) :
    (readFrom codec r (List.replicate (2 * blockSize) 0)).feed = r.feed := by
  have hzero : (List.replicate 512 (0 : UInt8)).length = 512 := List.length_replicate
  have hsplit : List.replicate (2 * blockSize) (0 : UInt8) =
      List.replicate 512 0 ++ (List.replicate 512 0 ++ []) := by
    rw [List.append_nil, List.replicate_append_replicate]
    rfl
  rw [hsplit]
  obtain ⟨r₁, hread, hmoved, hfeed, hheader, hsize, -⟩ :=
    @read_header codec r f (List.replicate 512 0 ++ []) _ h hf hended herror hbehind hzero
  rw [hread, ← hfeed]
  by_cases hended₁ : r₁.ended = true
  · rw [readFrom_stopped (Or.inl hended₁)]
  · have hbehind₁ : Behind r₁ := by
      refine Or.inr ?_
      rw [hheader]
      exact (show getSize (List.replicate 512 0) = 0 by decide +kernel) ▸ Nat.zero_le _
    obtain ⟨r₂, hread₂, -, hfeed₂, -⟩ := @read_header codec r₁ f [] _ (h.moved hmoved) hf
      (Bool.eq_false_iff.mpr hended₁) ((congrArg Feed.error hfeed).trans herror) hbehind₁ hzero
    rw [hread₂]
    exact hfeed₂

lemma LooksFor.read_all (h : LooksFor r f) (hf : NameOk f) (hended : r.ended = false)
    (herror : r.error = false) (hone : r.oneFile = false) (hbehind : Behind r)
    (hparts : PartsOk parts) (hfit : AllFit t.partCounter parts) (hlast : NotLast r f parts) :
    (readFrom codec r (body names t parts ++ List.replicate (2 * blockSize) 0)).feed =
      r.feed.all codec (found f t.partCounter parts) := by
  induction parts generalizing t r with
  | nil => exact h.read_end hf hended herror hbehind
  | cons p parts ih =>
    have hheader := hparts.header names t
    obtain ⟨hfits, hrest⟩ := hfit
    by_cases hwhole : r.position ≠ 0 ∧ cString r.fileHeader = f
    · -- the reader ends in front of this part
      rw [found_eq_nil (hlast hwhole), Feed.all, body]
      simp only [List.append_assoc]
      obtain ⟨r₁, hread, -, hfeed, -, -, hend⟩ :=
        read_header h hf hended herror hbehind hheader.length
      rw [hread, readFrom_stopped (Or.inl (hend.mpr hwhole)), hfeed]
    · obtain ⟨r₁, hread, hmoved, hfeed, hfile, hdone⟩ := @read_part codec r f p.data
        (body names (appendPart names t p) parts ++ List.replicate (2 * blockSize) 0) _ _ h hf
        hended herror hbehind hwhole (hparts.data p List.mem_cons_self).1 hheader
      have hpassed : passed f (partName t p) p.data =
          if p.filename = f ∧ NameFits (t.partCounter + 1) p then blocksOf p.data else [] := by
        rw [passed]
        refine if_congr ?_ rfl rfl
        rw [matches_iff_of_fits hf (hparts.names p List.mem_cons_self) hfits]
        exact ⟨fun hp => ⟨hp, hfits⟩, And.left⟩
      rw [body, List.append_assoc, hread, found, Feed.all_append, ← hpassed, ← hfeed]
      by_cases herror₁ : r₁.error = true
      · rw [readFrom_stopped (Or.inr herror₁), Feed.all_of_error herror₁]
      · have herror₁ := Bool.eq_false_iff.mpr herror₁
        obtain ⟨hbehind₁, hend⟩ := hdone herror₁
        have hended₁ : r₁.ended = false := by
          rw [← Bool.not_eq_true, hend, hone]
          exact Bool.false_ne_true
        exact ih (h.moved hmoved) hended₁ herror₁ (hmoved.oneFile.trans hone) hbehind₁ hparts.tail
          hrest (hparts.notLast hf hfile)

lemma LooksFor.read_positions {front tail : Bytes} (h : LooksFor r f) (hf : NameOk f)
    (herror : r.error = false) (hbehind : Behind r) (hparts : PartsOk parts)
    (hlast : NotLast r f parts) (hfront : front.length = t.content.length) :
    (r.readPositions codec (front ++ (body names t parts ++ tail))
      (positions names f t parts)).feed = r.feed.all codec (found f t.partCounter parts) := by
  induction parts generalizing t r front with
  | nil => rfl
  | cons p parts ih =>
    have hheader := hparts.header names t
    -- the file behind this part
    have hcontent : front ++ (body names t (p :: parts) ++ tail) =
        (front ++ (header names t p ++ p.data ++ List.replicate (padding p.data.length) 0)) ++
          (body names (appendPart names t p) parts ++ tail) := by
      rw [body]
      simp only [List.append_assoc]
    have hfront' : (front ++ (header names t p ++ p.data ++
        List.replicate (padding p.data.length) 0)).length =
        (appendPart names t p).content.length := by
      simp only [appendPart, List.length_append, hfront]
    rw [positions, found]
    by_cases hp : p.filename = f
    · have hwhole : ¬(r.position ≠ 0 ∧ cString r.fileHeader = f) :=
        fun hw => hlast hw p List.mem_cons_self hp
      have hset : LooksFor { r with oneFile := true, ended := false, buffer := [] } f :=
        ⟨h.filename, h.hash, h.checkExists, rfl⟩
      obtain ⟨r₁, hread, hmoved, hfeed, hfile, hdone⟩ := @read_part codec _ f p.data
        (body names (appendPart names t p) parts ++ tail) _ _ hset hf rfl herror hbehind hwhole
        (hparts.data p List.mem_cons_self).1 hheader
      have hpassed : passed f (partName t p) p.data =
          if p.filename = f ∧ NameFits (t.partCounter + 1) p then blocksOf p.data else [] := by
        rw [passed]
        refine if_congr ?_ rfl rfl
        rw [matches_self hf hp]
        exact ⟨fun hfits => ⟨hp, hfits⟩, And.right⟩
      have hdrop : (front ++ (body names t (p :: parts) ++ tail)).drop t.content.length =
          header names t p ++ p.data ++ List.replicate (padding p.data.length) 0 ++
            (body names (appendPart names t p) parts ++ tail) := by
        rw [List.drop_left' hfront, body]
        simp only [List.append_assoc]
      -- the reader stops behind the part
      have hstop : readFrom codec { r with oneFile := true, ended := false, buffer := [] }
          ((front ++ (body names t (p :: parts) ++ tail)).drop t.content.length) = r₁ := by
        rw [hdrop, hread]
        refine readFrom_stopped ?_
        by_cases herror₁ : r₁.error = true
        · exact Or.inr herror₁
        · exact Or.inl ((hdone (Bool.eq_false_iff.mpr herror₁)).2.mpr rfl)
      rw [if_pos hp, List.singleton_append, ReadData.readPositions, ← readFrom, hstop, Feed.all_append, ← hpassed]
      have hfeed' : r₁.feed = r.feed.all codec (passed f (partName t p) p.data) := hfeed
      rw [← hfeed']
      split
      · rename_i herror₁
        rw [Feed.all_of_error herror₁]
      · rename_i herror₁
        have herror₁ := Bool.eq_false_iff.mpr herror₁
        rw [hcontent]
        exact ih ⟨hmoved.filename.trans h.filename, hmoved.hash.trans h.hash,
          hmoved.checkExists.trans h.checkExists, hmoved.buffer⟩ herror₁ (hdone herror₁).1
          hparts.tail (hparts.notLast hf hfile) hfront'
    · rw [if_neg hp, if_neg (fun hand => hp hand.1), List.nil_append, List.nil_append, hcontent]
      exact ih h herror hbehind hparts.tail (fun hw q hq => hlast hw q (List.mem_cons_of_mem p hq))
        hfront'

/-! ## What is passed on -/

/-- The content does not start like a compressed file. -/
def Plain (content : Bytes) : Prop := (autoType content).1 = .na

def contentOf (f : Bytes) (parts : List FilePart) : Bytes :=
  ((parts.filter fun p => p.filename = f).map FilePart.data).flatten

lemma contentOf_cons (f : Bytes) (p : FilePart) (parts : List FilePart) :
    contentOf f (p :: parts) = (if p.filename = f then p.data else []) ++ contentOf f parts := by
  rw [contentOf, List.filter_cons]
  by_cases hp : p.filename = f
  · rw [if_pos (decide_eq_true hp), if_pos hp, List.map_cons, List.flatten_cons, contentOf]
  · rw [if_neg (by simpa using hp), if_neg hp, List.nil_append, contentOf]

lemma flatten_blocksOf (data : Bytes) : (blocksOf data).flatten = data := by
  induction hn : data.length using Nat.strong_induction_on generalizing data with
  | _ n ih =>
    by_cases hne : data = []
    · rw [hne]
      rfl
    · have hpos := List.length_pos_iff.mpr hne
      rw [blocksOf_cons hne, List.flatten_cons,
        ih (data.drop 512).length (by rw [List.length_drop]; omega) _ rfl, List.take_append_drop]

lemma ne_nil_of_mem_blocksOf {data chunk : Bytes} (h : chunk ∈ blocksOf data) : chunk ≠ [] := by
  induction hn : data.length using Nat.strong_induction_on generalizing data with
  | _ n ih =>
    by_cases hne : data = []
    · rw [hne] at h
      cases h
    · have hpos := List.length_pos_iff.mpr hne
      rw [blocksOf_cons hne] at h
      rcases List.mem_cons.mp h with rfl | h
      · rw [← List.length_pos_iff, List.length_take]
        omega
      · exact ih (data.drop 512).length (by rw [List.length_drop]; omega) h rfl

lemma ne_nil_of_mem_found {k : Nat} {chunk : Bytes} (h : chunk ∈ found f k parts) : chunk ≠ [] := by
  induction parts generalizing k with
  | nil => cases h
  | cons p parts ih =>
    rw [found, List.mem_append] at h
    rcases h with h | h
    · split at h
      · exact ne_nil_of_mem_blocksOf h
      · cases h
    · exact ih h

lemma flatten_found {k : Nat} (hfit : AllFit k parts) :
    (found f k parts).flatten = contentOf f parts := by
  induction parts generalizing k with
  | nil => rfl
  | cons p parts ih =>
    obtain ⟨hfits, hrest⟩ := hfit
    rw [found, List.flatten_append, ih hrest, contentOf_cons]
    by_cases hp : p.filename = f
    · rw [if_pos ⟨hp, hfits⟩, if_pos hp, flatten_blocksOf]
    · rw [if_neg fun hand => hp hand.1, if_neg hp, List.flatten_nil]

lemma length_found_le (f : Bytes) (k : Nat) (parts : List FilePart) :
    (found f k parts).flatten.length ≤ (contentOf f parts).length := by
  induction parts generalizing k with
  | nil => exact le_rfl
  | cons p parts ih =>
    have hle := ih (k + 1)
    rw [found, List.flatten_append, List.length_append, contentOf_cons, List.length_append]
    by_cases hp : p.filename = f
    · rw [if_pos hp]
      split
      · rw [flatten_blocksOf]
        omega
      · rw [List.flatten_nil, List.length_nil]
        omega
    · rw [if_neg fun hand => hp hand.1, if_neg hp, List.flatten_nil]
      omega

lemma length_found_lt {k i : Nat} (hdata : ∀ q ∈ parts, q.data ≠ []) (hp : parts[i]? = some p)
    (hno : ¬NameFits (k + i + 1) p) :
    (found p.filename k parts).flatten.length < (contentOf p.filename parts).length := by
  induction parts generalizing k i with
  | nil => cases hp
  | cons q parts ih =>
    rw [found, List.flatten_append, List.length_append, contentOf_cons, List.length_append]
    cases i with
    | zero =>
      obtain rfl := Option.some.inj hp
      have hpos := List.length_pos_iff.mpr (hdata q List.mem_cons_self)
      have hle := length_found_le q.filename (k + 1) parts
      rw [if_neg fun hand => hno hand.2, if_pos rfl, List.flatten_nil, List.length_nil]
      omega
    | succ i =>
      have hlt := ih (fun q hq => hdata q (List.mem_cons_of_mem _ hq)) hp
        (show ¬NameFits (k + 1 + i + 1) p by rwa [show k + 1 + i = k + (i + 1) by omega])
      by_cases hq : q.filename = p.filename
      · rw [if_pos hq]
        split
        · rw [flatten_blocksOf]
          omega
        · rw [List.flatten_nil, List.length_nil]
          omega
      · rw [if_neg fun hand => hq hand.1, if_neg hq, List.flatten_nil]
        omega

def naStream : DecompressStream := ⟨.na, true, true, [], [], ""⟩

lemma autoType_eq {data total : Bytes} (hplain : Plain total) (hpre : data <+: total) :
    autoType data = (.na, data) := by
  have hno : ∀ start : Bytes, start.isPrefixOf total = false → start.isPrefixOf data = false := by
    intro start hstart
    rw [Bool.eq_false_iff] at hstart ⊢
    intro hdata
    exact hstart (List.isPrefixOf_iff_prefix.mpr ((List.isPrefixOf_iff_prefix.mp hdata).trans hpre))
  rw [Plain, autoType] at hplain
  split at hplain
  · cases hplain
  · rename_i hzstd
    split at hplain
    · cases hplain
    · rename_i hsnappy
      split at hplain
      · cases hplain
      · rename_i hlzo
        split at hplain
        · cases hplain
        · rename_i hlz4
          rw [autoType, hno _ (Bool.eq_false_iff.mpr hzstd), hno _ (Bool.eq_false_iff.mpr hsnappy),
            hno _ (Bool.eq_false_iff.mpr hlzo), hno _ (Bool.eq_false_iff.mpr hlz4)]
          rfl

lemma Feed.all_plain {s : Feed} {chunks : List Bytes} {total : Bytes}
    (hstream : s.stream = none ∧ s.out = [] ∨ s.stream = some naStream) (herror : s.error = false)
    (hchunks : ∀ chunk ∈ chunks, chunk ≠ []) (hplain : Plain total)
    (hpre : s.out ++ chunks.flatten <+: total) :
    (s.all codec chunks).out = s.out ++ chunks.flatten := by
  induction chunks generalizing s with
  | nil => exact (List.append_nil _).symm
  | cons chunk chunks ih =>
    have hne := hchunks chunk List.mem_cons_self
    rw [List.flatten_cons, ← List.append_assoc] at hpre ⊢
    have hdeliver : s.deliver codec chunk = ⟨some naStream, s.out ++ chunk, false⟩ := by
      have hguard : ¬(("" : String) ≠ "" ∨ chunk = []) := by
        rintro (h | h)
        · exact h rfl
        · exact hne h
      rcases hstream with ⟨hnone, hout⟩ | hsome
      · have hfirst : chunk <+: total := by
          rw [hout, List.nil_append] at hpre
          exact (List.prefix_append chunk _).trans hpre
        have hrun : decompress codec ReadData.newStream chunk 0 = (naStream, chunk) := by
          rw [decompress]
          simp only [ReadData.newStream, if_neg hguard, and_self, if_true,
            autoType_eq hplain hfirst]
          rfl
        rw [Feed.deliver, hnone]
        simp only [Option.getD_none, hrun]
        rw [herror]
        rfl
      · have hrun : decompress codec naStream chunk 0 = (naStream, chunk) := by
          rw [decompress]
          simp only [naStream, if_neg hguard, reduceCtorEq, false_and, if_false]
        rw [Feed.deliver, hsome]
        simp only [Option.getD_some, hrun]
        rw [herror]
        rfl
    rw [Feed.all, if_neg (by rw [herror]; exact Bool.false_ne_true), hdeliver]
    exact ih (Or.inr rfl) rfl (fun c hc => hchunks c (List.mem_cons_of_mem _ hc)) hpre

def NoGrowth (codec : Codec) : Prop :=
  ∀ stream data, (decompress codec stream data 0).2.length ≤ data.length

lemma Feed.all_noGrowth {s : Feed} {chunks : List Bytes} (hcodec : NoGrowth codec) :
    (s.all codec chunks).out.length ≤ s.out.length + chunks.flatten.length := by
  induction chunks generalizing s with
  | nil => exact Nat.le_add_right _ _
  | cons chunk chunks ih =>
    rw [Feed.all, List.flatten_cons, List.length_append]
    split
    · omega
    · have hrest := @ih (s.deliver codec chunk)
      have hstep : (s.deliver codec chunk).out.length ≤ s.out.length + chunk.length := by
        rw [Feed.deliver]
        split
        · exact Nat.le_add_right _ _
        · have := hcodec (s.stream.getD ReadData.newStream) chunk
          rw [List.length_append]
          omega
      omega

/-- Libraries that fail on every block. -/
def failing : Codec where
  compress _ _ := .error .other
  decompress _ _ _ := .error .other
  zstdDecompress _ _ := .error "zstd decompress failed"

lemma noGrowth_failing : NoGrowth failing := by
  intro stream data
  have hloop : ∀ type fuel b, (decompressLoop failing type fuel b).out = [] := by
    intro type fuel b
    cases fuel with
    | zero => rfl
    | succ fuel =>
      rw [decompressLoop]
      split
      · rfl
      · rfl
  have hauto : ∀ data : Bytes, (autoType data).2.length ≤ data.length := by
    intro data
    rw [autoType]
    split_ifs
    · exact le_rfl
    · exact (List.drop_sublist 3 data).length_le
    · exact (List.drop_sublist 3 data).length_le
    · exact (List.drop_sublist 3 data).length_le
    · exact le_rfl
  rw [decompress]
  split
  · exact Nat.zero_le _
  · dsimp only
    generalize hfound : (if stream.typeCompress = .auto ∧ stream.autoPrefixFile = true then
      autoType data else (stream.typeCompress, data)) = found
    have hle : found.2.length ≤ data.length := by
      rw [← hfound]
      split
      · exact hauto data
      · exact le_rfl
    split
    · exact hle
    · exact Nat.zero_le _
    · rename_i type htype
      split
      · rw [hloop]
        exact Nat.zero_le _
      · exact Nat.zero_le _
    · exact Nat.zero_le _

/-- Both ways of reading give the data of the file and nothing else. -/
def ReadsBack (names : Names) (codec : Codec) (parts : List FilePart) (f : Bytes) : Prop :=
  (tarRead names codec (tarClose (appendAll names ⟨[], 0⟩ parts)) f []).out = contentOf f parts ∧
    (tarRead names codec (tarClose (appendAll names ⟨[], 0⟩ parts)) f
      (positions names f ⟨[], 0⟩ parts)).out = contentOf f parts

lemma fileEv_out (r : ReadData) (codec : Codec) (header : Bytes) :
    (r.fileEv codec header []).out = r.out := by
  rw [ReadData.fileEv]
  split
  · rw [if_neg fun hne => hne rfl]
    split
    · rfl
    · rfl
  · rfl

lemma looksFor_start (names : Names) (hf : NameOk f) : LooksFor (ReadData.start names f) f := by
  have hle := hf.length_le
  refine ⟨rfl, if_neg ?_, rfl, rfl⟩
  rintro ⟨-, hlong⟩
  rw [reserveLimit] at hlong
  omega

lemma tarRead_positions (names : Names) (codec : Codec) (hparts : PartsOk parts) (hf : NameOk f)
    (hne : positions names f ⟨[], 0⟩ parts ≠ []) :
    (tarRead names codec (tarClose (appendAll names ⟨[], 0⟩ parts)) f
      (positions names f ⟨[], 0⟩ parts)).out =
      (Feed.all codec ⟨none, [], false⟩ (found f 0 parts)).out := by
  have hread := @LooksFor.read_positions names codec _ f ⟨[], 0⟩ parts []
    (List.replicate (2 * blockSize) 0) (looksFor_start names hf) hf rfl (Or.inl rfl) hparts
    (fun hw => absurd rfl hw.1) rfl
  rw [tarRead, if_pos hne, tarClose, content_appendAll]
  exact congrArg Feed.out hread

lemma tarRead_all (names : Names) (codec : Codec) (hparts : PartsOk parts) (hf : NameOk f)
    (hfit : AllFit 0 parts) :
    (tarRead names codec (tarClose (appendAll names ⟨[], 0⟩ parts)) f []).out =
      (Feed.all codec ⟨none, [], false⟩ (found f 0 parts)).out := by
  have hread := @LooksFor.read_all names codec _ f ⟨[], 0⟩ parts (looksFor_start names hf) hf rfl
    rfl rfl (Or.inl rfl) hparts hfit (fun hw => absurd rfl hw.1)
  rw [tarRead, if_neg (fun hne => hne rfl), tarClose, content_appendAll, List.nil_append]
  dsimp only
  rw [← readFrom]
  split
  · rw [fileEv_out]
    exact congrArg Feed.out hread
  · exact congrArg Feed.out hread

lemma readsBack_of_fit (names : Names) (codec : Codec) (hparts : PartsOk parts)
    (hplain : Plain (contentOf f parts)) (hf : NameOk f) (hfit : AllFit 0 parts) :
    ReadsBack names codec parts f := by
  have hall : (Feed.all codec ⟨none, [], false⟩ (found f 0 parts)).out = contentOf f parts := by
    rw [Feed.all_plain (Or.inl ⟨rfl, rfl⟩) rfl (fun _ => ne_nil_of_mem_found) hplain
      (by rw [flatten_found hfit]; exact List.prefix_refl _), flatten_found hfit]
    rfl
  have hwhole := (tarRead_all names codec hparts hf hfit).trans hall
  refine ⟨hwhole, ?_⟩
  by_cases hne : positions names f ⟨[], 0⟩ parts = []
  · rw [hne]
    exact hwhole
  · exact (tarRead_positions names codec hparts hf hne).trans hall

lemma positions_ne_nil {i : Nat} (hp : parts[i]? = some p) :
    positions names p.filename t parts ≠ [] := by
  induction parts generalizing t i with
  | nil => cases hp
  | cons q parts ih =>
    rw [positions]
    cases i with
    | zero =>
      obtain rfl := Option.some.inj hp
      rw [if_pos rfl]
      exact List.cons_ne_nil _ _
    | succ i =>
      intro hnil
      exact ih hp (List.append_eq_nil_iff.mp hnil).2

lemma nameFits_of_readsBack {i : Nat} (names : Names) (hparts : PartsOk parts)
    (hread : ∀ f, NameOk f → ReadsBack names failing parts f) (hp : parts[i]? = some p) :
    NameFits (i + 1) p := by
  by_contra hno
  have hmem : p ∈ parts := List.mem_of_getElem? hp
  have hf := hparts.names p hmem
  have hpositions := (hread p.filename hf).2
  rw [tarRead_positions names failing hparts hf (positions_ne_nil hp)] at hpositions
  have hlt := @length_found_lt p parts 0 i (fun q hq => (hparts.data q hq).1) hp
    (by rwa [Nat.zero_add])
  have hle := @Feed.all_noGrowth failing ⟨none, [], false⟩ (found p.filename 0 parts)
    noGrowth_failing
  rw [hpositions, List.length_nil, Nat.zero_add] at hle
  omega

lemma plain_contentOf (hsmall : ∀ p ∈ parts, ∀ c ∈ p.data, c.toNat < 40) (f : Bytes) :
    Plain (contentOf f parts) := by
  have hmem : ∀ c ∈ contentOf f parts, c.toNat < 40 := by
    intro c hc
    obtain ⟨data, hdata, hcdata⟩ := List.mem_flatten.mp hc
    obtain ⟨p, hp, rfl⟩ := List.mem_map.mp hdata
    exact hsmall p (List.mem_of_mem_filter hp) c hcdata
  cases hcontent : contentOf f parts with
  | nil => rfl
  | cons c rest =>
    have hc := hmem c (by rw [hcontent]; exact List.mem_cons_self)
    have hno : ∀ (d : UInt8) (start : Bytes), 40 ≤ d.toNat →
        (d :: start).isPrefixOf (c :: rest) = false := by
      intro d start hd
      rw [List.isPrefixOf, Bool.and_eq_false_iff]
      refine Or.inl (beq_eq_false_iff_ne.mpr ?_)
      rintro rfl
      omega
    have hsna := hno 83 [78, 65] (by decide)
    have hlzo := hno 76 [90, 79] (by decide)
    have hlz4 := hno 76 [90, 52] (by decide)
    have hzstd := hno 0x28 [0xb5, 0x2f, 0xfd] (by decide)
    have hstarts : filePrefix .snappy = [83, 78, 65] ∧ filePrefix .lzo = [76, 90, 79] ∧
        filePrefix .lz4 = [76, 90, 52] := by
      decide +kernel
    rw [Plain, autoType, hstarts.1, hstarts.2.1, hstarts.2.2, hzstd, hsna, hlzo, hlz4]
    rfl

/-- Reading inverts writing exactly when every name with a number fits into the field. -/
theorem tarRead_readsBack_iff (parts : List FilePart) (hparts : PartsOk parts)
    (hplain : ∀ f, Plain (contentOf f parts)) :
    (∀ names codec f, NameOk f → ReadsBack names codec parts f) ↔
      ∀ (i : Nat) (p : FilePart), parts[i]? = some p → p.partSuffix = true →
        p.filename.length + (suffixText (i + 1)).length ≤ 99 := by
  constructor
  · intro hread i p hp
    exact nameFits_of_readsBack ⟨false, id⟩ hparts (hread _ failing) hp
  · intro hfit names codec f hf
    refine readsBack_of_fit names codec hparts (hplain f) hf ((allFit_iff 0 parts).mpr ?_)
    intro i p hp
    rw [Nat.zero_add]
    exact hfit i p hp

theorem tarRead_readsBack_iff_example : ReadsBack ⟨false, id⟩ failing
    [⟨ascii "a", true, [1, 2], 0⟩, ⟨ascii "b_", false, [3], 0⟩, ⟨ascii "a", false, [4], 7⟩]
    (ascii "a") := by
  refine (tarRead_readsBack_iff _ ⟨?_, ?_, ?_⟩ (plain_contentOf ?_)).mpr ?_ _ _ _ ?_
  · intro p hp
    simp only [List.mem_cons, List.not_mem_nil, or_false] at hp
    rcases hp with rfl | rfl | rfl
    · exact ⟨by decide +kernel, by decide +kernel, by decide +kernel, by decide +kernel, by decide +kernel⟩
    · exact ⟨by decide +kernel, by decide +kernel, by decide +kernel, by decide +kernel, by decide +kernel⟩
    · exact ⟨by decide +kernel, by decide +kernel, by decide +kernel, by decide +kernel, by decide +kernel⟩
  · decide +kernel
  · decide +kernel
  · decide +kernel
  · intro i p hp hsuffix
    have hsmall := length_suffixText_le (i + 1)
    have hname : p.filename.length ≤ 2 := by
      have hmem := List.mem_of_getElem? hp
      simp only [List.mem_cons, List.not_mem_nil, or_false] at hmem
      rcases hmem with rfl | rfl | rfl
      · decide
      · decide
      · decide
    omega
  · exact ⟨by decide +kernel, by decide +kernel, by decide +kernel, by decide +kernel, by decide +kernel⟩

/-- The millionth part has a name of 92 bytes: its last byte gives way to the number. -/
theorem tarRead_misses_part : ¬∀ parts : List FilePart, PartsOk parts →
    (∀ f, Plain (contentOf f parts)) →
    ∀ names codec f, NameOk f → ReadsBack names codec parts f := by
  intro hall
  have hparts : ∀ q ∈ List.replicate 999999 (⟨[97], true, [1], 0⟩ : FilePart) ++
      [⟨List.replicate 92 98, true, [1], 0⟩],
      q = ⟨[97], true, [1], 0⟩ ∨ q = ⟨List.replicate 92 98, true, [1], 0⟩ := by
    intro q hq
    rcases List.mem_append.mp hq with hq | hq
    · exact Or.inl (List.eq_of_mem_replicate hq)
    · exact Or.inr (List.mem_singleton.mp hq)
  have hok : PartsOk (List.replicate 999999 (⟨[97], true, [1], 0⟩ : FilePart) ++
      [⟨List.replicate 92 98, true, [1], 0⟩]) := by
    refine ⟨fun q hq => ?_, fun q hq => ?_, List.pairwise_of_forall_mem_list fun q hq _ _ _ => ?_⟩
    · rcases hparts q hq with rfl | rfl
      · exact ⟨by decide +kernel, by decide +kernel, by decide +kernel, by decide +kernel, by decide +kernel⟩
      · exact ⟨by decide +kernel, by decide +kernel, by decide +kernel, by decide +kernel, by decide +kernel⟩
    · rcases hparts q hq with rfl | rfl
      · exact ⟨by decide, by decide⟩
      · exact ⟨by decide, by decide⟩
    · rcases hparts q hq with rfl | rfl
      · rfl
      · rfl
  have hone : ∀ c ∈ ([1] : Bytes), c.toNat < 40 := by
    intro c hc
    rw [List.mem_singleton.mp hc]
    decide
  have hplain := plain_contentOf fun q hq => by
    rcases hparts q hq with rfl | rfl
    · exact hone
    · exact hone
  have hget : (List.replicate 999999 (⟨[97], true, [1], 0⟩ : FilePart) ++
      [⟨List.replicate 92 98, true, [1], 0⟩])[999999]? =
      some ⟨List.replicate 92 98, true, [1], 0⟩ := by
    rw [List.getElem?_append_right (by rw [List.length_replicate]), List.length_replicate]
    rfl
  have hfits := nameFits_of_readsBack ⟨false, id⟩ hok (hall _ hok hplain _ failing) hget rfl
  have hsuffix : (suffixText 1000000).length = 8 := by
    rw [suffixText, decimalText]
    norm_num
  rw [List.length_replicate, hsuffix] at hfits
  omega

end VoipMonitor.Tar
