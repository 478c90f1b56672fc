import VoipMonitor.Proofs.CompressedTurns

/-!
# Compressed chunks read back

`chunkIterate` goes over the chunks that are not freed and frees those that it has read to the end.
It stops behind a block, or when all blocks are passed on.
-/

namespace VoipMonitor.Compress
open VoipMonitor.Library VoipMonitor.Tar

variable {codec : Codec} {type : BlockType} {length : Nat} {added : List Bytes}

/-- The counter of records and blocks begins again every `2 ^ 31` blocks. The record that is read
then has to be at the begin of a chunk. -/
def Aligned (codec : Codec) (type : BlockType) (fixLen : Nat) (added : List Bytes) : Prop :=
  ∀ i < added.length, 2 ^ 31 ∣ i → fixLen ∣ (stored codec type (added.take i)).length

lemma length_stored_take_drop (i : Nat) :
    (stored codec type (added.take i)).length + (stored codec type (added.drop i)).length =
      (stored codec type added).length := by
  rw [← List.length_append, ← stored_append, List.take_append_drop]

lemma Phase.moved {info : IterateInfo} {i : Nat} {part : Bytes}
    (h : Phase codec type added info i part) (chunkPos chunkIndex : Nat) :
    Phase codec type added { info with chunkPos := chunkPos, chunkIndex := chunkIndex } i part := by
  cases h with
  | record hshort heven hzero hpos hgathers =>
    exact .record hshort heven hzero hpos
      (fun hcounter => ⟨(hgathers hcounter).pos, (hgathers hcounter).buffer, (hgathers hcounter).len⟩)
  | block got hdrop hshort hodd hchunkLen hg =>
    exact .block got hdrop hshort hodd hchunkLen ⟨hg.pos, hg.buffer, hg.len⟩

lemma Phase.at_end {info : IterateInfo} {i : Nat} {part : Bytes}
    (h : Phase codec type added info i part) (hend : stored codec type (added.drop i) = part) :
    part = [] ∧ added.drop i = [] := by
  cases h with
  | record hshort _ _ _ _ =>
    cases hdrop : added.drop i with
    | nil =>
      rw [hdrop] at hend
      exact ⟨hend.symm, rfl⟩
    | cons data rest =>
      have hlen := congrArg List.length hend
      rw [hdrop, stored_cons, List.length_append, length_recordOf] at hlen
      omega
  | block got hdrop hshort _ _ _ =>
    have hlen := congrArg List.length hend
    rw [hdrop, stored_cons, List.length_append, List.length_append, List.length_append] at hlen
    omega

section Chunk
variable (hcodec : codec.GivesBack type length) (hlength : length < 2 ^ 32)
  (hfits : ∀ data ∈ added, Fits length data) {fixLen : Nat} (hfix : 8 ≤ fixLen)
  (halign : Aligned codec type fixLen added) {first start limitLength last i : Nat} {it : Iterate}
  {part : Bytes} {memory avail later : Bytes} {len : Nat}

section Begin
include hfix halign

lemma Reading.at_begin
    (h : Reading codec type length added first start limitLength last it i part)
    (hw : Window it.info memory len avail)
    (hstream : stored codec type (added.drop i) = part ++ (avail ++ later)) (havail : avail ≠ [])
    {index : Nat} (htotal : (stored codec type added).length = index * fixLen + (len + later.length))
    (hlen : len ≤ fixLen) (hfull : len = fixLen ∨ later = []) (hcounter : it.info.counter = 0) :
    it.info.chunkPos = 0 ∧ 8 ≤ avail.length := by
  have hpos := List.length_pos_iff.mpr havail
  have hlenEq := hw.len_eq
  have hphase := h.phase
  cases hphase with
  | block got _ _ hodd _ _ =>
    rw [hcounter] at hodd
    omega
  | record _ heven hzero _ _ =>
    obtain rfl := hzero hcounter
    rw [List.nil_append] at hstream
    have hne : stored codec type (added.drop i) ≠ [] := by
      rw [hstream]
      exact List.append_ne_nil_of_left_ne_nil havail _
    obtain ⟨data, hdrop⟩ := exists_drop_cons hne
    have hi : i < added.length := by
      by_contra hge
      rw [List.drop_eq_nil_of_le (by omega)] at hdrop
      cases hdrop
    have hdvd := halign i hi (by omega)
    have hsum := @length_stored_take_drop codec type added i
    rw [hstream, htotal, List.length_append] at hsum
    have hposition : (stored codec type (added.take i)).length =
        index * fixLen + it.info.chunkPos := by omega
    rw [hposition, Nat.dvd_add_right (Nat.dvd_mul_left _ _)] at hdvd
    have hchunkPos : it.info.chunkPos = 0 := Nat.eq_zero_of_dvd_of_lt hdvd (by omega)
    refine ⟨hchunkPos, ?_⟩
    rcases hfull with hfull | rfl
    · omega
    · have hlong := congrArg List.length hstream
      rw [hdrop, stored_cons, List.length_append, length_recordOf, List.append_nil] at hlong
      omega

end Begin

section Loop
include hcodec hlength hfits hfix halign

lemma Reading.loop (h : Reading codec type length added first start limitLength last it i part)
    (hw : Window it.info memory len avail)
    (hstream : stored codec type (added.drop i) = part ++ (avail ++ later))
    {index : Nat} (htotal : (stored codec type added).length = index * fixLen + (len + later.length))
    (hlen : len ≤ fixLen) (hfull : len = fixLen ∨ later = []) (fuel : Nat)
    (hfuel : avail.length ≤ fuel) :
    ∃ n i' part', n ≤ avail.length ∧
      Window (it.loop codec limitLength start memory len fuel).info memory len (avail.drop n) ∧
      (it.loop codec limitLength start memory len fuel).info.chunkIndex = it.info.chunkIndex ∧
      stored codec type (added.drop i') = part' ++ (avail.drop n ++ later) ∧
      ((Reading codec type length added first start limitLength last
          (it.loop codec limitLength start memory len fuel) i' part' ∧ n = avail.length) ∨
        (Stopped codec type length added first start last
          (it.loop codec limitLength start memory len fuel) ∧ i' = last ∧ part' = [])) := by
  have hlenEq := hw.len_eq
  induction fuel generalizing it i part avail with
  | zero =>
    exact ⟨0, i, part, Nat.zero_le _, hw, rfl, hstream, .inl ⟨h, by omega⟩⟩
  | succ fuel ih =>
    rw [Iterate.loop]
    by_cases havail : avail = []
    · subst havail
      rw [if_neg (fun hgo => by
        have := hgo.1
        rw [List.length_nil] at hlenEq
        omega)]
      exact ⟨0, i, part, le_rfl, hw, rfl, hstream, .inl ⟨h, rfl⟩⟩
    · have hpos := List.length_pos_iff.mpr havail
      rw [if_pos ⟨by omega, h.running, h.fine⟩]
      obtain ⟨n, i₁, part₁, hn, hnle, hw₁, hindex₁, hstream₁, hcase⟩ :=
        h.turn hcodec hlength hfits hw hstream havail
          (h.at_begin hfix halign hw hstream havail htotal hlen hfull)
      have hdropLen : (avail.drop n).length = avail.length - n := List.length_drop
      rcases hcase with hreading | ⟨hstopped, hi, hpart⟩
      · obtain ⟨m, i₂, part₂, hm, hw₂, hindex₂, hstream₂, hcase₂⟩ :=
          ih hreading hw₁ hstream₁ (by omega) hw₁.len_eq
        rw [List.drop_drop] at hw₂ hstream₂
        refine ⟨n + m, i₂, part₂, by omega, hw₂, hindex₂.trans hindex₁, hstream₂, ?_⟩
        rcases hcase₂ with ⟨hreading₂, hm₂⟩ | hstopped₂
        · exact .inl ⟨hreading₂, by omega⟩
        · exact .inr hstopped₂
      · have hstay : (it.turn codec limitLength start memory len).loop codec limitLength start memory
            len fuel = it.turn codec limitLength start memory len := by
          cases fuel with
          | zero => rfl
          | succ fuel =>
            rw [Iterate.loop, if_neg (fun hgo => by
              have hrun := hgo.2.1
              rw [hstopped.stopped] at hrun
              cases hrun)]
        rw [hstay]
        exact ⟨n, i₁, part₁, hnle, hw₁, hindex₁, hstream₁, .inr ⟨hstopped, hi, hpart⟩⟩

end Loop

/-! ## All chunks -/

/-- What the loop over the chunks leaves: some more chunks are freed, and the reader stands behind
the last block that was passed on. -/
structure Passed (codec : Codec) (type : BlockType) (length : Nat) (added : List Bytes)
    (fixLen first start last : Nat) (index : Nat) (rest : List Bytes) (r : List Chunk × Iterate)
    (k : Nat) : Prop where
  stands : Stands codec type length added first start r.2 last []
  count : k ≤ rest.length
  full : ∀ x ∈ rest.take k, x.length = fixLen
  chunks : ∃ kept, r.1 = List.replicate k (gone fixLen) ++ kept ∧
    List.Forall₂ (Holds fixLen) kept (rest.drop k)
  index_eq : r.2.info.chunkIndex = index + k
  pos_lt : r.2.info.chunkPos < fixLen
  pos_le : r.2.info.chunkPos ≤ (rest.drop k).flatten.length
  stream : stored codec type (added.drop last) = (rest.drop k).flatten.drop r.2.info.chunkPos

lemma Stands.next (h : Stands codec type length added first start it i part) :
    Stands codec type length added first start it.nextChunk i part :=
  ⟨h.fine, h.plain, h.first_le, h.out, h.proceed, h.phase.moved 0 _⟩

lemma Reading.ends (h : Reading codec type length added first start limitLength last it i part)
    (hend : stored codec type (added.drop i) = part) :
    Stands codec type length added first start it last [] ∧ added.drop last = [] := by
  obtain ⟨hpart, hdrop⟩ := h.phase.at_end hend
  have htarget := h.target
  rw [hdrop, takeCount, Nat.add_zero] at htarget
  subst htarget hpart
  exact ⟨h.toStands, hdrop⟩

lemma chunks_of_stop (hstop : it.stop = true) (counter : Nat) (chunks : List Chunk) :
    Iterate.chunks codec fixLen limitLength start counter chunks it = (chunks, it) := by
  cases chunks with
  | nil => rfl
  | cons c rest => rw [Iterate.chunks, if_pos (.inl hstop)]

lemma chunks_cons {c : Chunk} {kept : List Chunk} {x : Bytes} (hc : c.chunk = some memory)
    (hkind : c.decompressLen = filled) (hlen : c.len = x.length) (hrun : it.stop = false)
    (hfine : it.error = false) {index : Nat} (hindex : it.info.chunkIndex = index)
    {next : Iterate}
    (hnext : next = it.loop codec limitLength start memory x.length (2 * x.length + 2)) :
    Iterate.chunks codec fixLen limitLength start index (c :: kept) it =
      if next.error = false ∧ x.length ≤ next.info.chunkPos ∧ x.length = fixLen then
        let r := Iterate.chunks codec fixLen limitLength start (index + 1) kept next.nextChunk
        ({ c with chunk := none } :: r.1, r.2)
      else
        let r := Iterate.chunks codec fixLen limitLength start (index + 1) kept next
        (c :: r.1, r.2) := by
  have hgo : ¬(it.stop = true ∨ it.error = true) := by
    rw [hrun, hfine]
    decide
  rw [Iterate.chunks, if_neg hgo, hc]
  dsimp only
  rw [if_neg (by omega), if_pos hkind, hlen, ← hnext]

lemma window_of_holds {c : Chunk} {x : Bytes} (h : Holds fixLen c x) (hfixLt : fixLen < 2 ^ 32)
    (hle : x.length ≤ fixLen) {info : IterateInfo} (hpos : info.chunkPos ≤ x.length) :
    ∃ memory, c.chunk = some memory ∧ Window info memory x.length (x.drop info.chunkPos) := by
  obtain ⟨-, -, memory, hc, -, htake⟩ := h
  refine ⟨memory, hc, ?_, ?_, by omega⟩
  · have hdrop : x.drop info.chunkPos =
        (memory.drop info.chunkPos).take (x.length - info.chunkPos) := by
      rw [← List.drop_take, htake]
    rw [slice, List.length_drop]
    exact hdrop.symm
  · rw [List.length_drop]
    omega

section Passed
variable {index : Nat} {kept : List Chunk} {rest : List Bytes} {c : Chunk} {x : Bytes}

lemma gone_of_holds (hx : Holds fixLen c x) (hfull : x.length = fixLen) :
    ({ c with chunk := none } : Chunk) = gone fixLen := by
  have heta : ({ c with chunk := none } : Chunk) = ⟨⟨x.length, filled⟩, none⟩ := by
    rw [← hx.len, ← hx.kind]
  rw [heta, hfull, gone]

lemma Pieces.drop {rest : List Bytes} (h : Pieces fixLen rest) (k : Nat) :
    Pieces fixLen (rest.drop k) := by
  refine ⟨fun x hx => ?_, fun x hx => h.pos x (List.mem_of_mem_drop hx),
    fun x hx => h.le x (List.mem_of_mem_drop hx)⟩
  refine h.full x ?_
  have hne : rest.drop k ≠ [] := by
    intro hnil
    rw [hnil] at hx
    cases hx
  rw [← List.take_append_drop k rest, List.dropLast_append_of_ne_nil hne]
  exact List.mem_append_right _ hx

lemma Passed.freed {r : List Chunk × Iterate} {k : Nat} (hx : Holds fixLen c x)
    (hfull : x.length = fixLen)
    (h : Passed codec type length added fixLen first start last (index + 1) rest r k) :
    Passed codec type length added fixLen first start last index (x :: rest)
      ({ c with chunk := none } :: r.1, r.2) (k + 1) := by
  obtain ⟨keptRest, hkept, hforall⟩ := h.chunks
  refine ⟨h.stands, ?_, ?_, ⟨keptRest, ?_, hforall⟩, ?_, h.pos_lt, h.pos_le, h.stream⟩
  · rw [List.length_cons]
    exact Nat.succ_le_succ h.count
  · rw [List.take_succ_cons]
    intro y hy
    rcases List.mem_cons.mp hy with rfl | hy
    · exact hfull
    · exact h.full y hy
  · rw [hkept, gone_of_holds hx hfull, List.replicate_succ, List.cons_append]
  · exact h.index_eq.trans (by omega)

/-- Nothing more is read behind this chunk: all is passed on, or the call has stopped. -/
lemma Passed.ended (hx : Holds fixLen c x) (hholds : List.Forall₂ (Holds fixLen) kept rest)
    (hfixPos : 0 < fixLen) (hsmall : index + 1 < 2 ^ 32) (hle : x.length ≤ fixLen)
    (hstands : Stands codec type length added first start it last [])
    (hindex : it.info.chunkIndex = index) (hpos : it.info.chunkPos ≤ x.length)
    (hstream : stored codec type (added.drop last) = x.drop it.info.chunkPos ++ rest.flatten)
    (hend : ∀ it', it' = it ∨ it' = it.nextChunk →
      Iterate.chunks codec fixLen limitLength start (index + 1) kept it' = (kept, it')) :
    ∃ k, Passed codec type length added fixLen first start last index (x :: rest)
      (if it.error = false ∧ x.length ≤ it.info.chunkPos ∧ x.length = fixLen then
        let r := Iterate.chunks codec fixLen limitLength start (index + 1) kept it.nextChunk
        ({ c with chunk := none } :: r.1, r.2)
      else
        let r := Iterate.chunks codec fixLen limitLength start (index + 1) kept it
        (c :: r.1, r.2)) k := by
  by_cases hfree : it.error = false ∧ x.length ≤ it.info.chunkPos ∧ x.length = fixLen
  · rw [if_pos hfree, hend _ (.inr rfl)]
    rw [List.drop_eq_nil_of_le hfree.2.1, List.nil_append] at hstream
    refine ⟨0 + 1, Passed.freed (r := (kept, it.nextChunk)) hx hfree.2.2
      ⟨hstands.next, Nat.zero_le _, by simp, ⟨kept, rfl, hholds⟩, ?_, hfixPos, Nat.zero_le _, hstream⟩⟩
    rw [← hindex]
    exact add32_eq (by omega)
  · rw [if_neg hfree, hend _ (.inl rfl)]
    have hlt : it.info.chunkPos < fixLen := by
      rcases Nat.lt_or_ge it.info.chunkPos fixLen with hlt | hge
      · exact hlt
      · exact absurd ⟨hstands.fine, by omega, by omega⟩ hfree
    refine ⟨0, hstands, Nat.zero_le _, by simp, ⟨c :: kept, rfl, .cons hx hholds⟩, hindex, hlt,
      ?_, ?_⟩
    · rw [List.drop_zero, List.flatten_cons, List.length_append]
      exact hpos.trans (Nat.le_add_right _ _)
    · rw [List.drop_zero, List.flatten_cons, List.drop_append_of_le_length hpos]
      exact hstream

end Passed

section Chunks
include hcodec hlength hfits hfix halign

lemma Reading.chunks (hfixLt : fixLen < 2 ^ 32) {kept : List Chunk} {rest : List Bytes}
    (hholds : List.Forall₂ (Holds fixLen) kept rest) (hpieces : Pieces fixLen rest)
    (h : Reading codec type length added first start limitLength last it i part) {index : Nat}
    (hindex : it.info.chunkIndex = index) (hsmall : index + rest.length < 2 ^ 32)
    (htotal : (stored codec type added).length = index * fixLen + rest.flatten.length)
    (hposLt : it.info.chunkPos < fixLen) (hhead : it.info.chunkPos ≤ (rest.headD []).length)
    (hstream : stored codec type (added.drop i) = part ++ rest.flatten.drop it.info.chunkPos) :
    ∃ k, Passed codec type length added fixLen first start last index rest
      (Iterate.chunks codec fixLen limitLength start index kept it) k := by
  induction hholds generalizing it i part index with
  | nil =>
    rw [List.flatten_nil, List.drop_nil, List.append_nil] at hstream
    obtain ⟨hstands, hdrop⟩ := h.ends hstream
    refine ⟨0, hstands, le_rfl, nofun, ⟨[], rfl, .nil⟩, hindex, hposLt, hhead, ?_⟩
    rw [hdrop, List.drop_nil, List.flatten_nil, List.drop_nil, stored_nil]
  | @cons c x kept rest hx hholds ih =>
    have hle := hpieces.le x List.mem_cons_self
    rw [List.headD_cons] at hhead
    obtain ⟨memory, hc, hw⟩ := window_of_holds hx hfixLt hle hhead
    rw [List.flatten_cons, List.drop_append_of_le_length hhead] at hstream
    rw [List.flatten_cons, List.length_append] at htotal
    -- a chunk that is not full is the last one
    have hlastPiece : x.length = fixLen ∨ rest = [] := by
      cases rest with
      | nil => exact .inr rfl
      | cons y rest => exact .inl (hpieces.full x (by simp))
    have hfull : x.length = fixLen ∨ rest.flatten = [] :=
      hlastPiece.imp_right (fun hnil => by rw [hnil, List.flatten_nil])
    obtain ⟨next, hnext⟩ : ∃ next, next =
        it.loop codec limitLength start memory x.length (2 * x.length + 2) := ⟨_, rfl⟩
    obtain ⟨n, i', part', hn, hw', hindex', hstream', hcase⟩ := h.loop hcodec hlength hfits hfix
      halign hw hstream htotal hle hfull (2 * x.length + 2) (by rw [List.length_drop]; omega)
    rw [← hnext] at hw' hindex' hcase
    rw [chunks_cons hc hx.kind hx.len h.running h.fine hindex hnext]
    have hposLe := hw'.len_eq
    have hindexNext : next.info.chunkIndex = index := hindex'.trans hindex
    have havail : (x.drop it.info.chunkPos).drop n = x.drop next.info.chunkPos := by
      have hlens := hw.len_eq
      rw [List.length_drop] at hn hlens
      rw [List.drop_drop] at hposLe ⊢
      rw [List.length_drop] at hposLe
      have hsame : it.info.chunkPos + n = next.info.chunkPos := by omega
      rw [hsame]
    have hposX : next.info.chunkPos ≤ x.length := by omega
    rw [List.length_cons] at hsmall
    rw [havail] at hstream'
    rcases hcase with ⟨hreading, hnEq⟩ | ⟨hstopped, rfl, rfl⟩
    · -- the chunk is read to its end
      rw [hnEq, List.drop_length, List.length_nil, Nat.add_zero] at hposLe
      rw [hposLe, List.drop_length, List.nil_append] at hstream'
      rcases hlastPiece with hfixEq | rfl
      · have hreading' : Reading codec type length added first start limitLength last
            next.nextChunk i' part' :=
          ⟨hreading.toStands.next, hreading.running, hreading.target, hreading.unbroken⟩
        have hindexPlus : next.nextChunk.info.chunkIndex = index + 1 :=
          (congrArg (fun n => add32 n 1) hindexNext).trans (add32_eq (by omega))
        obtain ⟨k, hk⟩ := ih (Pieces.drop hpieces 1) hreading' hindexPlus (by omega)
          (by rw [Nat.succ_mul]; omega) (show 0 < fixLen by omega) (Nat.zero_le _) hstream'
        rw [if_pos ⟨hreading.fine, hposLe.ge, hfixEq⟩]
        exact ⟨k + 1, hk.freed hx hfixEq⟩
      · obtain rfl := List.forall₂_nil_right_iff.mp hholds
        rw [List.flatten_nil, List.append_nil] at hstream'
        obtain ⟨hstands, hdrop⟩ := hreading.ends hstream'
        refine Passed.ended hx .nil (by omega) (by omega) hle hstands hindexNext hposX ?_
          (fun _ _ => rfl)
        rw [hdrop, hposLe, List.drop_length]
        rfl
    · refine Passed.ended hx hholds (by omega) (by omega) hle hstopped.toStands hindexNext hposX
        hstream' ?_
      rintro it' (rfl | rfl)
      · exact chunks_of_stop hstopped.stopped _ _
      · exact @chunks_of_stop codec _ _ _ next.nextChunk hstopped.stopped _ _

end Chunks

end Chunk

end VoipMonitor.Compress
