import VoipMonitor.Model.BlockPackets
import VoipMonitor.Proofs.BlockWire

/-!
# What the checks of a restored block say about its packets

`check_offsets` compares neighbouring offsets and the last one with the size of the block, and
`check_headers` bounds two members of every header. No check compares the end of a packet with
the size of the block.
-/

namespace VoipMonitor.BlockStore
open VoipMonitor.Library

/-- Both checks pass; `behind` are the bytes in memory behind the block, which the headers may
reach. -/
structure ChecksPass (b : BlockContent) (behind : Bytes) : Prop where
  offsets : checkOffsetsReads b = some true
  headers : checkHeaders { b with block := b.block ++ behind } = none

/-- The end of the header and the captured bytes of the packet at offset `o`. -/
def packetEnd (b : BlockContent) (behind : Bytes) (o : Nat) : Nat :=
  o + pkthdrSize b.hm + getCaplen (b.block ++ behind) o

/-- `check_offsets` reads inside of the array, and a block that passes holds its packets. -/
structure ValidatedInBounds (b : BlockContent) (behind : Bytes) : Prop where
  reads : checkOffsetsReads b ≠ none
  inside : ChecksPass b behind → ∀ o ∈ b.offsets, packetEnd b behind o ≤ b.size

/-- What the checks look at: increasing offsets in front of the block's end, and small values in
two members of the headers. -/
structure LooksValid (b : BlockContent) (behind : Bytes) : Prop where
  increasing : b.offsets.Pairwise (· < ·)
  inside : ∀ o ∈ b.offsets, o < b.size
  caplen : ∀ o ∈ b.offsets, fixSizeCaplen (b.block ++ behind) o ≤ 65535
  ipOffset : ∀ o ∈ b.offsets, headerIpOffset (b.block ++ behind) o ≤ 1000

/-- What the checks find: an offset that is not above the one before it, a last offset behind the
block, or a header with a great value in one of the two members. -/
def ShowsDamage (b : BlockContent) (behind : Bytes) : Prop :=
  (∃ front o next rest, b.offsets = front ++ o :: next :: rest ∧ next ≤ o) ∨
    (∃ o ∈ b.offsets.getLast?, b.size ≤ o) ∨
    ∃ o ∈ b.offsets, 65535 < fixSizeCaplen (b.block ++ behind) o ∨
      1000 < headerIpOffset (b.block ++ behind) o

/-- How the packets lie: each ends before the next one begins, or overlaps it and ends in the block
all the same, and the last one ends in the block. -/
def PacketsLie (b : BlockContent) (behind : Bytes) : List Nat → Prop
  | [] => True
  | [o] => packetEnd b behind o ≤ b.size
  | o :: next :: rest =>
    (packetEnd b behind o ≤ next ∨ packetEnd b behind o ≤ b.size) ∧
      PacketsLie b behind (next :: rest)

/-! ## The two checks -/

lemma checkOffsetsLoop_append (size : Nat) (l : List Nat) : ∀ pre : List Nat, l ≠ [] →
    (checkOffsetsLoop (pre ++ l) size ((pre ++ l).length - 1) pre.length = some true ↔
      l.Pairwise (· < ·) ∧ ∀ o ∈ l, o < size) ∧
    checkOffsetsLoop (pre ++ l) size ((pre ++ l).length - 1) pre.length ≠ none := by
  induction l with
  | nil => exact fun _ h => absurd rfl h
  | cons a l ih =>
    intro pre _
    have hfirst : (pre ++ a :: l)[pre.length]? = some a := by
      rw [List.getElem?_append_right (Nat.le_refl _), Nat.sub_self]
      rfl
    cases l with
    | nil =>
      have hn : (pre ++ [a]).length - 1 = pre.length := by
        rw [List.length_append, List.length_singleton]
        omega
      rw [checkOffsetsLoop, hn, if_neg (by omega), hfirst]
      simp
    | cons b l =>
      have hlt : pre.length < (pre ++ a :: b :: l).length - 1 := by
        rw [List.length_append, List.length_cons, List.length_cons]
        omega
      have hsecond : (pre ++ a :: b :: l)[pre.length + 1]? = some b := by
        rw [List.getElem?_append_right (by omega), Nat.add_sub_cancel_left]
        rfl
      rw [checkOffsetsLoop, if_pos hlt, hfirst, hsecond]
      dsimp only
      by_cases hab : a ≥ b
      · rw [if_pos hab]
        refine ⟨⟨fun h => (by cases h), fun h => ?_⟩, by simp⟩
        have := List.rel_of_pairwise_cons h.1 (List.mem_cons_self)
        omega
      · rw [if_neg hab]
        have hrest := ih (pre ++ [a]) (by simp)
        have hlen : (pre ++ [a]).length = pre.length + 1 := by simp
        rw [List.append_assoc, List.singleton_append, hlen] at hrest
        refine ⟨hrest.1.trans ⟨?_, ?_⟩, hrest.2⟩
        · rintro ⟨hincreasing, hsize⟩
          have hb := hsize b List.mem_cons_self
          refine ⟨List.pairwise_cons.mpr ⟨fun c hc => ?_, hincreasing⟩, ?_⟩
          · rcases List.mem_cons.mp hc with rfl | hc
            · omega
            · have := List.rel_of_pairwise_cons hincreasing hc
              omega
          · rintro o (_ | ⟨_, ho⟩)
            · omega
            · exact hsize o ho
        · rintro ⟨hincreasing, hsize⟩
          exact ⟨(List.pairwise_cons.mp hincreasing).2,
            fun o ho => hsize o (List.mem_cons_of_mem a ho)⟩

lemma checkOffsetsReads_nil {b : BlockContent} (h : b.offsets = []) : checkOffsetsReads b = none := by
  have hlast : lastOffset [] = 2 ^ 64 - 1 := rfl
  rw [checkOffsetsReads, h, hlast, checkOffsetsLoop, if_pos (by norm_num)]
  rfl

lemma checkOffsetsReads_cons {b : BlockContent} (h : b.offsets ≠ []) :
    (checkOffsetsReads b = some true ↔
      b.offsets.Pairwise (· < ·) ∧ ∀ o ∈ b.offsets, o < b.size) ∧ checkOffsetsReads b ≠ none := by
  have hlast : lastOffset b.offsets = b.offsets.length - 1 := by
    rw [lastOffset, if_neg (fun h0 => h (List.length_eq_zero_iff.mp h0))]
  rw [checkOffsetsReads, hlast]
  exact checkOffsetsLoop_append b.size b.offsets [] h

lemma checkHeader_eq_none (mem : Bytes) (o : Nat) :
    checkHeader mem o = none ↔ fixSizeCaplen mem o ≤ 65535 ∧ headerIpOffset mem o ≤ 1000 := by
  unfold checkHeader fixSizeCaplen headerIpOffset
  dsimp only
  split
  · exact ⟨fun h => (by cases h), fun h => by omega⟩
  · split
    · exact ⟨fun h => (by cases h), fun h => by omega⟩
    · exact ⟨fun _ => by omega, fun _ => rfl⟩

lemma checksPass_iff {b : BlockContent} (behind : Bytes) (h : b.offsets ≠ []) :
    ChecksPass b behind ↔ LooksValid b behind := by
  have hheaders : checkHeaders { b with block := b.block ++ behind } = none ↔
      ∀ o ∈ b.offsets, fixSizeCaplen (b.block ++ behind) o ≤ 65535 ∧
        headerIpOffset (b.block ++ behind) o ≤ 1000 := by
    unfold checkHeaders
    rw [List.findSome?_eq_none_iff]
    exact forall₂_congr (fun o _ => checkHeader_eq_none _ o)
  constructor
  · rintro ⟨hoffsets, hh⟩
    have hvalid := (checkOffsetsReads_cons h).1.mp hoffsets
    have hsmall := hheaders.mp hh
    exact ⟨hvalid.1, hvalid.2, fun o ho => (hsmall o ho).1, fun o ho => (hsmall o ho).2⟩
  · rintro ⟨hincreasing, hinside, hcaplen, hip⟩
    exact ⟨(checkOffsetsReads_cons h).1.mpr ⟨hincreasing, hinside⟩,
      hheaders.mpr (fun o ho => ⟨hcaplen o ho, hip o ho⟩)⟩

lemma looksValid_iff (b : BlockContent) (behind : Bytes) :
    LooksValid b behind ↔ ¬ShowsDamage b behind := by
  constructor
  · rintro ⟨hincreasing, hinside, hcaplen, hip⟩ (⟨front, o, next, rest, heq, hle⟩ |
      ⟨o, ho, hsize⟩ | ⟨o, ho, hgreat | hgreat⟩)
    · rw [heq, List.pairwise_append] at hincreasing
      have := List.rel_of_pairwise_cons hincreasing.2.1 List.mem_cons_self
      omega
    · have := hinside o (List.mem_of_getLast? ho)
      omega
    · have := hcaplen o ho
      omega
    · have := hip o ho
      omega
  · intro h
    unfold ShowsDamage at h
    push Not at h
    obtain ⟨horder, hlast, hheaders⟩ := h
    have hincreasing : b.offsets.Pairwise (· < ·) := by
      rw [← List.isChain_iff_pairwise, List.isChain_iff_forall_rel_of_append_cons_cons]
      intro o next front rest heq
      exact horder front o next rest heq
    refine ⟨hincreasing, ?_, fun o ho => (hheaders o ho).1, fun o ho => (hheaders o ho).2⟩
    intro o ho
    have hne : b.offsets ≠ [] := List.ne_nil_of_mem ho
    have hend := hlast _ (List.getLast?_eq_some_getLast hne)
    rw [← List.dropLast_append_getLast hne] at ho hincreasing
    rcases List.mem_append.mp ho with ho | ho
    · have := (List.pairwise_append.mp hincreasing).2.2 o ho _ List.mem_cons_self
      omega
    · rw [List.mem_singleton.mp ho]
      exact hend

lemma packetsLie_iff {b : BlockContent} {behind : Bytes} {l : List Nat}
    (hsize : ∀ o ∈ l, o < b.size) :
    PacketsLie b behind l ↔ ∀ o ∈ l, packetEnd b behind o ≤ b.size := by
  induction l with
  | nil => simp [PacketsLie]
  | cons o rest ih =>
    obtain ⟨-, hrest⟩ := List.forall_mem_cons.mp hsize
    cases rest with
    | nil => simp [PacketsLie]
    | cons next rest =>
      have hnext := hrest next List.mem_cons_self
      rw [PacketsLie, ih hrest, List.forall_mem_cons (a := o)]
      refine and_congr_left fun _ => ⟨?_, Or.inr⟩
      rintro (hle | hle) <;> omega

/-! ## What they are worth -/

/-- For every block and whatever lies behind it in memory: the checks read and guarantee what
they should exactly when the block has a packet, and shows a damage or has its packets inside. -/
theorem validated_in_bounds_iff (b : BlockContent) (behind : Bytes) :
    ValidatedInBounds b behind ↔
      b.offsets ≠ [] ∧ (ShowsDamage b behind ∨ PacketsLie b behind b.offsets) := by
  constructor
  · rintro ⟨hreads, hinside⟩
    have hne : b.offsets ≠ [] := fun h => hreads (checkOffsetsReads_nil h)
    refine ⟨hne, or_iff_not_imp_left.mpr fun hsound => ?_⟩
    have hvalid := (looksValid_iff b behind).mpr hsound
    exact (packetsLie_iff hvalid.inside).mpr (hinside ((checksPass_iff behind hne).mpr hvalid))
  · rintro ⟨hne, hlie⟩
    refine ⟨(checkOffsetsReads_cons hne).2, fun hpass => ?_⟩
    have hvalid := (checksPass_iff behind hne).mp hpass
    exact (packetsLie_iff hvalid.inside).mp
      (hlie.resolve_left ((looksValid_iff b behind).mp hvalid))

/-- A block of one packet whose header fills the block and announces 65535 captured bytes. -/
def overrunBlock : BlockContent where
  size := 36
  count := 1
  offsets := [0]
  blockCounter := 1
  block := [0, 0, 0, 0, 0, 0, 0, 0, 255, 255, 0, 0] ++ List.replicate 24 0

/-- The block is restored from its save buffer and passes both checks, and its captured bytes end
65535 bytes behind it. A restored block without packets is read outside of its array. -/
theorem checks_accept_overrun :
    (∃ b : PcapBlockStore,
      addRestoreChunk {} 0 false {} (getSaveBuffer {} {} overrunBlock 1) (some 0) =
        ⟨1, b, some 104⟩ ∧
      b.sizeCompress = 0 ∧ ChecksPass b.toBlockContent [] ∧
      ¬ValidatedInBounds b.toBlockContent []) ∧
    ∃ b : PcapBlockStore,
      addRestoreChunk {} 0 false {} (getSaveBuffer {} {} {} 1) (some 0) = ⟨1, b, some 64⟩ ∧
      b.sizeCompress = 0 ∧ ¬ValidatedInBounds b.toBlockContent [] := by
  constructor
  · refine ⟨{ overrunBlock with requireConfirmation := true }, by decide +kernel, rfl, ?_⟩
    have hpass : ChecksPass overrunBlock [] := by
      refine (checksPass_iff [] (by decide)).mpr ⟨by decide, by decide, ?_, ?_⟩ <;>
        decide +kernel
    refine ⟨hpass, fun h => ?_⟩
    have hinside := h.inside hpass 0 (by decide)
    exact absurd hinside (by decide +kernel)
  · refine ⟨{ blockCounter := 1, requireConfirmation := true }, by decide +kernel, rfl, ?_⟩
    exact fun h => h.reads (checkOffsetsReads_nil rfl)

/-!
## The packets that the dequeue skips

Every loop of the dequeue processes the positions for which `is_ignore` is false, in order. In
the layout of DPDK `is_ignore` reads the flag of the last packet for every position.
-/

/-- `is_ignore` gives the flag of the packet's own header, and both loops process exactly the
packets without the flag. -/
structure IgnoresExactly (p : Packets) : Prop where
  flag : ∀ i < p.count, p.isIgnore i = p.ownIgnore i
  dequeue : dequeuePositions p = (List.range p.count).filter (fun i => !p.ownIgnore i)
  plain : plainPositions p = (List.range p.count).filter (fun i => !p.ownIgnore i)

/-- The packets of a block from DPDK all have the flag or all lack it. -/
def SameFlags : Packets → Prop
  | .memory _ => True
  | .dpdk data => ∀ d ∈ data, ∀ e ∈ data, (d.ignore ≠ 0 ↔ e.ignore ≠ 0)

/-! ## Stretches of positions -/

variable {ignore : Nat → Bool}

lemma filter_ignored {a n : Nat} (h : ∀ j, a ≤ j → j < a + n → ignore j = true) :
    (List.range' a n).filter (fun i => !ignore i) = [] := by
  rw [List.filter_eq_nil_iff]
  intro j hj
  obtain ⟨hle, hlt⟩ := List.mem_range'_1.mp hj
  simp [h j hle hlt]

lemma filter_between {a b n : Nat} (hfront : ∀ j < a, ignore j = true) (hab : a ≤ b)
    (hbn : b ≤ n) (hback : ∀ j, b ≤ j → j < n → ignore j = true) :
    (List.range n).filter (fun i => !ignore i) =
      (List.range' a (b - a)).filter (fun i => !ignore i) := by
  have hsplit : List.range n = List.range' 0 a ++ (List.range' a (b - a) ++ List.range' b (n - b)) := by
    rw [List.range_eq_range']
    have h1 := @List.range'_append_1 a (b - a) (n - b)
    rw [show a + (b - a) = b by omega, show b - a + (n - b) = n - a by omega] at h1
    have h2 := @List.range'_append_1 0 a (n - a)
    rw [Nat.zero_add, show a + (n - a) = n by omega] at h2
    rw [h1, h2]
  rw [hsplit, List.filter_append, List.filter_append,
    filter_ignored (fun j _ hj => hfront j (by omega)),
    filter_ignored (fun j hj hlt => hback j hj (by omega)), List.nil_append, List.append_nil]

/-! ## The loops -/

lemma skipFirst_spec (count : Nat) : ∀ fuel pos, count ≤ pos + fuel → pos ≤ count →
    pos ≤ skipFirst ignore count fuel pos ∧ skipFirst ignore count fuel pos ≤ count ∧
      (∀ j, pos ≤ j → j < skipFirst ignore count fuel pos → ignore j = true) ∧
      (skipFirst ignore count fuel pos < count →
        ignore (skipFirst ignore count fuel pos) = false) := by
  intro fuel
  induction fuel with
  | zero =>
    intro pos hfuel hpos
    rw [skipFirst]
    exact ⟨Nat.le_refl _, hpos, fun j h1 h2 => by omega, fun h => by omega⟩
  | succ fuel ih =>
    intro pos hfuel hpos
    rw [skipFirst]
    split
    · rename_i h
      obtain ⟨h1, h2, h3, h4⟩ := ih (pos + 1) (by omega) h.1
      refine ⟨by omega, h2, fun j hj hlt => ?_, h4⟩
      rcases Nat.eq_or_lt_of_le hj with rfl | hj
      · exact h.2
      · exact h3 j hj hlt
    · rename_i h
      refine ⟨Nat.le_refl _, hpos, fun j h1 h2 => by omega, fun hlt => ?_⟩
      simpa using fun hign => h ⟨hlt, hign⟩

lemma skipLast_spec (posFirst : Nat) : ∀ pos, posFirst ≤ pos →
    posFirst ≤ skipLast ignore posFirst pos ∧ skipLast ignore posFirst pos ≤ pos ∧
      ∀ j, skipLast ignore posFirst pos < j → j ≤ pos → ignore j = true := by
  intro pos
  induction pos with
  | zero =>
    intro hpos
    rw [skipLast]
    exact ⟨hpos, Nat.le_refl _, fun j h1 h2 => by omega⟩
  | succ pos ih =>
    intro hpos
    rw [skipLast]
    split
    · rename_i h
      obtain ⟨h1, h2, h3⟩ := ih (by omega)
      refine ⟨h1, by omega, fun j hj hle => ?_⟩
      rcases Nat.eq_or_lt_of_le hle with rfl | hlt
      · exact h.2
      · exact h3 j hj (by omega)
    · exact ⟨hpos, Nat.le_refl _, fun j h1 h2 => by omega⟩

lemma incPosAct_spec (posLast : Nat) : ∀ fuel pos, posLast ≤ pos + fuel →
    match incPosAct ignore posLast fuel pos with
    | some next => pos < next ∧ next ≤ posLast ∧ ignore next = false ∧
        ∀ j, pos < j → j < next → ignore j = true
    | none => ∀ j, pos < j → j ≤ posLast → ignore j = true := by
  intro fuel
  induction fuel with
  | zero =>
    intro pos hfuel
    rw [incPosAct]
    exact fun j h1 h2 => by omega
  | succ fuel ih =>
    intro pos hfuel
    rw [incPosAct]
    split_ifs with hlt hign
    · have h := ih (pos + 1) (by omega)
      cases hnext : incPosAct ignore posLast fuel (pos + 1) with
      | some next =>
        rw [hnext] at h
        obtain ⟨h1, h2, h3, h4⟩ := h
        refine ⟨by omega, h2, h3, fun j hj hlt => ?_⟩
        rcases Nat.eq_or_lt_of_le (Nat.succ_le_of_lt hj) with rfl | hj
        · exact hign
        · exact h4 j hj hlt
      | none =>
        rw [hnext] at h
        intro j hj hle
        rcases Nat.eq_or_lt_of_le (Nat.succ_le_of_lt hj) with rfl | hj
        · exact hign
        · exact h j hj hle
    · exact ⟨by omega, by omega, by simpa using hign, fun j h1 h2 => by omega⟩
    · exact fun j h1 h2 => by omega

lemma handOut_eq (posLast : Nat) : ∀ fuel pos, posLast < pos + fuel → pos ≤ posLast →
    ignore pos = false → handOut ignore posLast fuel pos =
      (List.range' pos (posLast + 1 - pos)).filter (fun i => !ignore i) := by
  intro fuel
  induction fuel with
  | zero => exact fun pos h1 h2 => by omega
  | succ fuel ih =>
    intro pos hfuel hpos hign
    have hhead : List.range' pos (posLast + 1 - pos) =
        pos :: List.range' (pos + 1) (posLast - pos) := by
      rw [show posLast + 1 - pos = posLast - pos + 1 by omega, List.range'_succ]
    have hspec := @incPosAct_spec ignore posLast (posLast - pos) pos (by omega)
    rw [handOut, hhead, List.filter_cons_of_pos (by simp [hign])]
    congr 1
    cases hnext : incPosAct ignore posLast (posLast - pos) pos with
    | none =>
      rw [hnext] at hspec
      exact (filter_ignored (fun j h1 h2 => hspec j h1 (by omega))).symm
    | some next =>
      rw [hnext] at hspec
      obtain ⟨h1, h2, h3, h4⟩ := hspec
      have hsplit : List.range' (pos + 1) (posLast - pos) =
          List.range' (pos + 1) (next - (pos + 1)) ++ List.range' next (posLast + 1 - next) := by
        have h := @List.range'_append_1 (pos + 1) (next - (pos + 1)) (posLast + 1 - next)
        rw [show pos + 1 + (next - (pos + 1)) = next by omega,
          show next - (pos + 1) + (posLast + 1 - next) = posLast - pos by omega] at h
        exact h.symm
      dsimp only
      rw [ih next (by omega) h2 h3, hsplit, List.filter_append,
        filter_ignored (fun j hj hlt => h4 j hj (by omega)), List.nil_append]

lemma dequeuePositions_eq (p : Packets) :
    dequeuePositions p = (List.range p.count).filter (fun i => !p.isIgnore i) := by
  obtain ⟨-, hle, hfront, hfirst⟩ := @skipFirst_spec p.isIgnore p.count p.count 0 (by omega)
    (Nat.zero_le _)
  unfold dequeuePositions setFirstLast
  generalize skipFirst p.isIgnore p.count p.count 0 = posFirst at hle hfront hfirst
  dsimp only
  split_ifs with hnone
  · subst hnone
    rw [List.range_eq_range']
    exact (filter_ignored (fun j _ hj => hfront j (Nat.zero_le j) (by omega))).symm
  · obtain ⟨h1, h2, h3⟩ := @skipLast_spec p.isIgnore posFirst (p.count - 1) (by omega)
    generalize skipLast p.isIgnore posFirst (p.count - 1) = posLast at h1 h2 h3
    dsimp only
    rw [handOut_eq posLast p.count posFirst (by omega) h1 (hfirst (by omega)),
      filter_between (b := posLast + 1) (fun j hj => hfront j (Nat.zero_le j) hj) (by omega)
        (by omega) (fun j hj hlt => h3 j (by omega) (by omega))]

lemma plainPositions_eq (p : Packets) :
    plainPositions p = (List.range p.count).filter (fun i => !p.isIgnore i) := by
  unfold plainPositions
  induction List.range p.count with
  | nil => rfl
  | cons i l ih =>
    rw [List.flatMap_cons, ih]
    cases h : p.isIgnore i with
    | true =>
      rw [List.filter_cons_of_neg (by simp [h])]
      rfl
    | false =>
      rw [List.filter_cons_of_pos (by simp [h])]
      rfl

/-! ## The flag that is read -/

lemma isIgnore_eq_ownIgnore_iff (p : Packets) :
    (∀ i < p.count, p.isIgnore i = p.ownIgnore i) ↔ SameFlags p := by
  cases p with
  | memory b => exact ⟨fun _ => trivial, fun _ _ _ => rfl⟩
  | dpdk data =>
    have hget : ∀ i (hi : i < data.length), data.getD i default = data[i] := by
      intro i hi
      rw [List.getD_eq_getElem?_getD, List.getElem?_eq_getElem hi]
      rfl
    constructor
    · intro h d hd e he
      obtain ⟨i, hi, rfl⟩ := List.mem_iff_getElem.mp hd
      obtain ⟨j, hj, rfl⟩ := List.mem_iff_getElem.mp he
      have h1 := h i hi
      have h2 := h j hj
      simp only [Packets.isIgnore, Packets.ownIgnore, hget i hi, hget j hj] at h1 h2
      rw [h1] at h2
      exact decide_eq_decide.mp h2
    · intro h i hi
      have hi' : i < data.length := hi
      simp only [Packets.isIgnore, Packets.ownIgnore]
      rw [hget i hi', hget (data.length - 1) (by omega)]
      exact decide_eq_decide.mpr (h _ (List.getElem_mem _) _ (List.getElem_mem _))

/-- For every block in either layout: the packets without the flag are processed and no others
exactly when a block from DPDK does not mix packets with and without the flag. -/
theorem ignores_exactly_iff (p : Packets) : IgnoresExactly p ↔ SameFlags p := by
  rw [← isIgnore_eq_ownIgnore_iff]
  constructor
  · exact fun h => h.flag
  · intro h
    have hfilter : (List.range p.count).filter (fun i => !p.isIgnore i) =
        (List.range p.count).filter (fun i => !p.ownIgnore i) :=
      List.filter_congr (fun i hi => by rw [h i (List.mem_range.mp hi)])
    exact ⟨h, (dequeuePositions_eq p).trans hfilter, (plainPositions_eq p).trans hfilter⟩

/-- The first packet is to be ignored and the second one is not: both are processed. -/
theorem dpdk_ignored_packet_processed :
    ¬IgnoresExactly (.dpdk [{ ignore := 1 }, {}]) ∧
      dequeuePositions (.dpdk [{ ignore := 1 }, {}]) = [0, 1] ∧
      plainPositions (.dpdk [{}, { ignore := 1 }]) = [] :=
  ⟨fun h => absurd (h.flag 0 (by decide)) (by decide), by decide, by decide⟩

end VoipMonitor.BlockStore
