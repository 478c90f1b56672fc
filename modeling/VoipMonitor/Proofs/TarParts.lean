import VoipMonitor.Proofs.ChunkLayout

/-!
# Parts that fit their headers

The worker decides on the length of a part before it passes the chunks on. A close in between makes
`chunkIterate` pass on all chunks. In every run in which no close falls there, the parts have the
length in their header, and together they are what was added.
-/

namespace VoipMonitor.Tar
open VoipMonitor.Library

/-! ## The size field -/

lemma foldl_digits (n : Nat) :
    ((Nat.digits 8 n).reverse.map (fun d => UInt8.ofNat (48 + d))).foldl
      (fun n c => 8 * n + (c.toNat - 48)) 0 = n := by
  induction n using Nat.strong_induction_on with
  | _ n ih =>
    rcases Nat.eq_zero_or_pos n with rfl | hpos
    · rfl
    · rw [Nat.digits_def' (by omega) hpos, List.reverse_cons, List.map_append, List.foldl_append,
        ih (n / 8) (by omega)]
      have hdigit : (UInt8.ofNat (48 + n % 8)).toNat = 48 + n % 8 := by
        rw [UInt8.toNat_ofNat']
        omega
      rw [List.map_singleton, List.foldl_cons, List.foldl_nil, hdigit]
      omega

lemma octal_foldl (n : Nat) : (octal n).foldl (fun n c => 8 * n + (c.toNat - 48)) 0 = n := by
  by_cases hzero : n = 0
  · rw [hzero]
    rfl
  · rw [octal, if_neg hzero, foldl_digits]

lemma octal_digits {n : Nat} {c : UInt8} (h : c ∈ octal n) : 48 ≤ c.toNat ∧ c.toNat ≤ 55 := by
  by_cases hzero : n = 0
  · rw [octal, if_pos hzero] at h
    rw [List.mem_singleton.mp h]
    decide
  · rw [octal, if_neg hzero] at h
    obtain ⟨d, hd, rfl⟩ := List.mem_map.mp h
    have hlt := Nat.digits_lt_base (by omega) (List.mem_reverse.mp hd)
    rw [UInt8.toNat_ofNat']
    omega

lemma length_octal {n k : Nat} (h : n < 8 ^ (k + 1)) : (octal n).length ≤ k + 1 := by
  by_cases hzero : n = 0
  · rw [octal, if_pos hzero, List.length_singleton]
    omega
  · rw [octal, if_neg hzero, List.length_map, List.length_reverse]
    exact (Nat.digits_length_le_iff (by omega) n).mpr h

lemma octal_ne_nil (n : Nat) : octal n ≠ [] := by
  by_cases hzero : n = 0
  · rw [octal, if_pos hzero]
    exact List.cons_ne_nil _ _
  · rw [octal, if_neg hzero]
    have hne : Nat.digits 8 n ≠ [] := Nat.digits_ne_nil_iff_ne_zero.mpr hzero
    simpa using hne

lemma thSetSize_eq {n : Nat} (h : n < 2 ^ 31) :
    thSetSize n = List.replicate (11 - (octal n).length) 32 ++ (octal n ++ [32]) := by
  have hnum : ((n : Int).bmod (2 ^ 32) % 2 ^ 64).toNat = n := by
    rw [Int.bmod_eq_of_le (by omega) (by omega)]
    omega
  have hlen : (octal n).length ≤ 11 := length_octal (by omega)
  rw [thSetSize, intToOctNonull, hnum, List.take_of_length_le (by
    rw [List.length_append, List.length_replicate]
    omega), List.append_assoc]

lemma octToInt_thSetSize {n : Nat} (h : n < 2 ^ 31) : octToInt (thSetSize n) = n := by
  obtain ⟨c, text, hcons⟩ := List.exists_cons_of_ne_nil (octal_ne_nil n)
  have hdrop : (thSetSize n).dropWhile (fun c => c = 32) = octal n ++ [32] := by
    have hfirst : c ≠ 32 := by
      rintro rfl
      have hdigit := (octal_digits (show (32 : UInt8) ∈ octal n by rw [hcons]; simp)).1
      exact absurd hdigit (by decide)
    rw [thSetSize_eq h, List.dropWhile_append_of_pos (by simp), hcons, List.cons_append,
      List.dropWhile_cons_of_neg (by simpa using hfirst)]
  rw [octToInt, hdrop, List.takeWhile_append_of_pos (fun x hx => by simpa using octal_digits hx)]
  have hblank : List.takeWhile (fun c : UInt8 => decide (48 ≤ c.toNat ∧ c.toNat ≤ 55)) [32] = [] := by
    decide
  rw [hblank, List.append_nil, octal_foldl]

/-! ## Runs -/

/-- A worker that goes on with this length after the buffer was closed writes no part, or a part
with all that is left. -/
def Fits (b : ChunkBuffer) (lenForProceed : Nat) : Prop :=
  lenForProceed ≤ tarChunk ∨ sub32 lenForProceed b.chunkIterateProceedLen ≤ tarChunk ∨
    sub32 lenForProceed b.chunkIterateProceedLen = b.getChunkIterateLenForProceed

def CloseFits (s : State) : Prop :=
  match s.pass with
  | .seen false => Fits s.buffer s.buffer.getChunkIterateLenForProceed
  | .length false lenForProceed => Fits s.buffer lenForProceed
  | .safe false _ _ => False
  | _ => True

/-- The steps of a run in which the parts are right: less than 2 GiB are added, and no close falls
into a pass that it breaks. -/
def Regular (s : State) : Act → Prop
  | .add data => s.added.length + data.length < 2 ^ 31
  | .close => CloseFits s
  | _ => True

instance (b : ChunkBuffer) (lenForProceed : Nat) : Decidable (Fits b lenForProceed) :=
  inferInstanceAs (Decidable (_ ∨ _))

instance (s : State) : Decidable (CloseFits s) := by
  unfold CloseFits
  split <;> infer_instance

instance (s : State) (a : Act) : Decidable (Regular s a) :=
  match a with
  | .add _ => inferInstanceAs (Decidable (_ < _))
  | .close => inferInstanceAs (Decidable (CloseFits s))
  | .look => .isTrue trivial
  | .skip => .isTrue trivial
  | .measure => .isTrue trivial
  | .limit => .isTrue trivial
  | .process => .isTrue trivial

def PassOk (b : ChunkBuffer) (rest : List Bytes) : Pass → Prop
  | .idle => True
  | .seen true => b.closed = true
  | .seen false => b.closed = true → Fits b rest.flatten.length
  | .length true lenForProceed => b.closed = true ∧ lenForProceed = rest.flatten.length
  | .length false lenForProceed => b.closed = true → Fits b lenForProceed
  | .safe true lenForProceed lenForProceedSafe =>
    b.closed = true ∧ lenForProceed = rest.flatten.length ∧ lenForProceedSafe = rest.flatten.length
  | .safe false _ lenForProceedSafe =>
    lenForProceedSafe ≠ 0 ∧
      (b.closed = false →
        ∃ m, m + 2 ≤ rest.length ∧ lenForProceedSafe = (rest.take m).flatten.length) ∧
      (b.closed = true → lenForProceedSafe = rest.flatten.length)
  | .deleted => b.closed = true ∧ rest = []

structure Inv (s : State) (sent rest : List Bytes) : Prop where
  layout : Layout s.buffer sent rest
  fixLen_lt : s.buffer.chunkFixLen < 2 ^ 32
  added : s.added = (sent ++ rest).flatten
  parts : (s.parts.map Part.data).flatten = sent.flatten
  sizes : ∀ part ∈ s.parts, octToInt part.size = part.data.length
  open_ : s.buffer.closed = false → Open sent rest
  pass : PassOk s.buffer rest s.pass

lemma Layout.lenForProceed {b : ChunkBuffer} {sent rest : List Bytes} (h : Layout b sent rest) :
    b.getChunkIterateLenForProceed = rest.flatten.length := by
  have hsmall := h.small
  have hlen := h.len
  have hproceed := h.proceedLen
  rw [List.flatten_append, List.length_append] at hsmall hlen
  rw [ChunkBuffer.getChunkIterateLenForProceed, sub32_eq (by omega) (by omega)]
  omega

section Step
variable {s : State} {sent rest : List Bytes} (h : Inv s sent rest)
include h

lemma Inv.rest_lt : rest.flatten.length < 2 ^ 31 := by
  have hsmall := h.layout.small
  rw [List.flatten_append, List.length_append] at hsmall
  omega

lemma Inv.add {data : Bytes} (hopen : s.buffer.closed = false)
    (hsmall : s.added.length + data.length < 2 ^ 31) :
    ∃ rest', Inv { s with buffer := s.buffer.add data, added := s.added ++ data } sent rest' := by
  rw [h.added] at hsmall
  obtain ⟨rest', hlayout, hadded, hpre, hnil⟩ := h.layout.add (h.open_ hopen) h.fixLen_lt hsmall
  have hclosed : (s.buffer.add data).closed = false := (add_same s.buffer data).1.trans hopen
  have hfixLen := (add_same s.buffer data).2
  refine ⟨rest', hlayout, ?_, ?_, h.parts, h.sizes, fun _ hnil' => h.open_ hopen (hnil hnil'), ?_⟩
  · exact hfixLen ▸ h.fixLen_lt
  · rw [hadded, ← h.added]
  · have hpass := h.pass
    cases hp : s.pass with
    | idle => trivial
    | seen isClosed =>
      rw [hp] at hpass
      cases isClosed with
      | true =>
        have hclosed' : s.buffer.closed = true := hpass
        exact absurd hclosed' (by rw [hopen]; decide)
      | false => exact fun hc => absurd hc (by rw [hclosed]; decide)
    | length isClosed lenForProceed =>
      rw [hp] at hpass
      cases isClosed with
      | true => exact absurd hpass.1 (by rw [hopen]; decide)
      | false => exact fun hc => absurd hc (by rw [hclosed]; decide)
    | safe isClosed lenForProceed lenForProceedSafe =>
      rw [hp] at hpass
      cases isClosed with
      | true => exact absurd hpass.1 (by rw [hopen]; decide)
      | false =>
        obtain ⟨hne, hlimit, -⟩ := hpass
        refine ⟨hne, fun _ => ?_, fun hc => absurd hc (by rw [hclosed]; decide)⟩
        -- the safe pieces are not the last one, and stay
        obtain ⟨m, hm, hsafe⟩ := hlimit hopen
        have hle := hpre.length_le
        rw [List.length_dropLast, List.length_dropLast] at hle
        refine ⟨m, by omega, ?_⟩
        have htake : ∀ l : List Bytes, m + 1 ≤ l.length → l.take m = l.dropLast.take m := by
          intro l hl
          rw [List.dropLast_eq_take, List.take_take, Nat.min_eq_left (by omega)]
        obtain ⟨more, hmore⟩ := hpre
        rw [hsafe, htake rest (by omega), htake rest' (by omega), ← hmore,
          List.take_append_of_le_length (by rw [List.length_dropLast]; omega)]
    | deleted =>
      rw [hp] at hpass
      exact absurd hpass.1 (by rw [hopen]; decide)

lemma Inv.close (hfits : CloseFits s) :
    Inv { s with buffer := s.buffer.close } sent rest := by
  have hlength := h.layout.lenForProceed
  refine ⟨h.layout.close, h.fixLen_lt, h.added, h.parts, h.sizes,
    fun hc => absurd hc (by simp [ChunkBuffer.close]), ?_⟩
  have hpass := h.pass
  rw [CloseFits] at hfits
  cases hp : s.pass with
  | idle => trivial
  | seen isClosed =>
    cases isClosed with
    | true => rfl
    | false =>
      rw [hp] at hfits
      rw [hlength] at hfits
      exact fun _ => hfits
  | length isClosed lenForProceed =>
    rw [hp] at hpass hfits
    cases isClosed with
    | true => exact ⟨rfl, hpass.2⟩
    | false => exact fun _ => hfits
  | safe isClosed lenForProceed lenForProceedSafe =>
    rw [hp] at hpass hfits
    cases isClosed with
    | true => exact ⟨rfl, hpass.2⟩
    | false => exact absurd hfits id
  | deleted =>
    rw [hp] at hpass
    exact ⟨rfl, hpass.2⟩

lemma Inv.pass_to {pass : Pass} (hpass : PassOk s.buffer rest pass) :
    Inv { s with pass := pass } sent rest :=
  ⟨h.layout, h.fixLen_lt, h.added, h.parts, h.sizes, h.open_, hpass⟩

lemma Inv.limit {isClosed : Bool} {lenForProceed : Nat}
    (hp : PassOk s.buffer rest (.length isClosed lenForProceed)) :
    PassOk s.buffer rest (limitStep s.buffer isClosed lenForProceed) := by
  rw [limitStep]
  cases isClosed with
  | true =>
    rw [if_pos (Or.inl rfl)]
    rw [if_pos (Or.inl rfl), if_pos rfl]
    exact ⟨hp.1, hp.2, hp.2⟩
  | false =>
    by_cases hlong : tarChunk < lenForProceed
    · rw [if_pos (Or.inr hlong)]
      rw [if_neg Bool.false_ne_true]
      by_cases hsafe : tarChunk < s.buffer.getChunkIterateSafeLimitLength lenForProceed
      · rw [if_pos (Or.inr hsafe)]
        refine ⟨by omega, fun hopen => ?_, fun hclosed => ?_⟩
        · obtain ⟨m, hm, heq⟩ := h.layout.safeLimit hopen lenForProceed
          rcases hm with rfl | hm
          · rw [heq] at hsafe
            simp at hsafe
          · exact ⟨m, hm, heq⟩
        · rw [ChunkBuffer.getChunkIterateSafeLimitLength, if_pos hclosed] at hsafe ⊢
          rcases hp hclosed with hshort | hshort | hall
          · omega
          · omega
          · rw [hall, h.layout.lenForProceed]
      · rw [if_neg (by simpa using hsafe)]
        trivial
    · rw [if_neg (by simpa using hlong)]
      trivial

lemma Inv.process {isClosed : Bool} {lenForProceed lenForProceedSafe : Nat}
    (hp : s.pass = .safe isClosed lenForProceed lenForProceedSafe) :
    ∃ sent' rest', Inv { s with
      buffer := (processData s.buffer isClosed lenForProceedSafe).1
      pass := if isClosed = true ∧ lenForProceed = 0 then .deleted else .idle
      parts := s.parts ++ (processData s.buffer isClosed lenForProceedSafe).2.toList }
      sent' rest' := by
  have hlt := h.rest_lt
  have hpass := h.pass
  rw [hp] at hpass
  -- a part with some of the pieces
  have hpart : ∀ {taken left : List Bytes} (pass : Pass), rest = taken ++ left →
      lenForProceedSafe = taken.flatten.length → lenForProceedSafe ≠ 0 →
      Layout (s.buffer.chunkIterate lenForProceedSafe).1 (sent ++ taken) left →
      (s.buffer.chunkIterate lenForProceedSafe).2 = taken.flatten →
      (s.buffer.closed = false → left ≠ []) →
      PassOk (s.buffer.chunkIterate lenForProceedSafe).1 left pass →
      Inv { s with
        buffer := (processData s.buffer isClosed lenForProceedSafe).1
        pass := pass
        parts := s.parts ++ (processData s.buffer isClosed lenForProceedSafe).2.toList }
        (sent ++ taken) left := by
    intro taken left pass hrest hsafe hne hlayout hout hleft hpass
    have hprocess : processData s.buffer isClosed lenForProceedSafe =
        ((s.buffer.chunkIterate lenForProceedSafe).1,
          some ⟨thSetSize lenForProceedSafe, !isClosed, taken.flatten,
            padding taken.flatten.length⟩) := by
      rw [processData, if_pos hne]
      dsimp only
      rw [hout]
    rw [hrest, List.flatten_append, List.length_append] at hlt
    rw [hprocess]
    refine ⟨hlayout, h.fixLen_lt, ?_, ?_, ?_, fun hopen hnil => absurd hnil (hleft hopen), hpass⟩
    · rw [List.append_assoc, ← hrest]
      exact h.added
    · rw [Option.toList_some, List.map_append, List.flatten_append, h.parts, List.map_singleton,
        List.flatten_singleton, List.flatten_append]
    · intro part hpart
      rcases List.mem_append.mp hpart with hpart | hpart
      · exact h.sizes part hpart
      · obtain rfl := List.mem_singleton.mp hpart
        rw [octToInt_thSetSize (by omega), hsafe]
  cases isClosed with
  | true =>
    obtain ⟨hclosed, hlen, hsafe⟩ := hpass
    obtain ⟨hlayout, hout⟩ := h.layout.chunkIterate_closed hclosed lenForProceedSafe
    by_cases hzero : lenForProceed = 0
    · -- nothing is left
      have hnone : processData s.buffer true lenForProceedSafe = (s.buffer, none) := by
        rw [processData, if_neg (by omega)]
      have hrest : rest = [] := by
        cases hr : rest with
        | nil => rfl
        | cons x l =>
          have hpos := h.layout.pieces.pos x (by rw [hr]; simp)
          rw [hr, List.flatten_cons, List.length_append] at hlen
          omega
      rw [hnone, if_pos ⟨rfl, hzero⟩]
      refine ⟨sent, rest, h.layout, h.fixLen_lt, h.added, ?_, ?_, h.open_, hclosed, hrest⟩
      · rw [Option.toList_none, List.append_nil]
        exact h.parts
      · rw [Option.toList_none, List.append_nil]
        exact h.sizes
    · rw [if_neg (fun hboth => hzero hboth.2)]
      exact ⟨_, _, hpart .idle (List.append_nil rest).symm hsafe (by omega) hlayout hout
        (fun hopen => absurd hclosed (by rw [hopen]; decide)) trivial⟩
  | false =>
    obtain ⟨hne, hlimit, hall⟩ := hpass
    rw [if_neg (fun hboth => Bool.false_ne_true hboth.1)]
    cases hclosed : s.buffer.closed with
    | true =>
      obtain ⟨hlayout, hout⟩ := h.layout.chunkIterate_closed hclosed lenForProceedSafe
      exact ⟨_, _, hpart .idle (List.append_nil rest).symm (hall hclosed) hne hlayout hout
        (fun hopen => absurd hclosed (by rw [hopen]; decide)) trivial⟩
    | false =>
      obtain ⟨m, hm, hsafe⟩ := hlimit hclosed
      have hpos : 0 < m := by
        rcases Nat.eq_zero_or_pos m with rfl | hpos
        · exact absurd hsafe hne
        · exact hpos
      obtain ⟨hlayout, hout⟩ := h.layout.chunkIterate_limit hclosed hpos hm
      rw [← hsafe] at hlayout hout
      refine ⟨_, _, hpart .idle (List.take_append_drop m rest).symm hsafe hne hlayout hout
        (fun _ => ?_) trivial⟩
      rw [← List.length_pos_iff, List.length_drop]
      omega

end Step

lemma Inv.new {fixLen : Nat} (hpos : 0 < fixLen) (hlt : fixLen < 2 ^ 32) : Inv (start fixLen) [] [] :=
  ⟨Layout.new hpos, hlt, rfl, rfl, nofun, fun _ _ => rfl, trivial⟩

lemma Inv.step {s t : State} {sent rest : List Bytes} {a : Act} (h : Inv s sent rest)
    (hok : Regular s a) (hstep : Tar.step s a = some t) : ∃ sent' rest', Inv t sent' rest' := by
  cases a with
  | add data =>
    rw [Tar.step] at hstep
    by_cases hclosed : s.buffer.closed = true
    · rw [if_pos hclosed] at hstep
      cases hstep
    · rw [if_neg hclosed] at hstep
      obtain rfl := Option.some.inj hstep
      obtain ⟨rest', h'⟩ := h.add (Bool.eq_false_iff.mpr hclosed) hok
      exact ⟨sent, rest', h'⟩
  | close =>
    rw [Tar.step] at hstep
    by_cases hclosed : s.buffer.closed = true
    · rw [if_pos hclosed] at hstep
      cases hstep
    · rw [if_neg hclosed] at hstep
      obtain rfl := Option.some.inj hstep
      exact ⟨sent, rest, h.close hok⟩
  | look =>
    rw [Tar.step] at hstep
    split at hstep
    · obtain rfl := Option.some.inj hstep
      refine ⟨sent, rest, h.pass_to ?_⟩
      cases hclosed : s.buffer.closed with
      | true => exact hclosed
      | false => exact fun hc => absurd hc (by rw [hclosed]; decide)
    · cases hstep
  | skip =>
    rw [Tar.step] at hstep
    split at hstep
    · obtain rfl := Option.some.inj hstep
      exact ⟨sent, rest, h.pass_to trivial⟩
    · cases hstep
  | measure =>
    rw [Tar.step] at hstep
    split at hstep
    · rename_i isClosed hp
      obtain rfl := Option.some.inj hstep
      have hpass := h.pass
      rw [hp] at hpass
      refine ⟨sent, rest, h.pass_to ?_⟩
      rw [h.layout.lenForProceed]
      cases isClosed with
      | true => exact ⟨hpass, rfl⟩
      | false => exact hpass
    · cases hstep
  | limit =>
    rw [Tar.step] at hstep
    split at hstep
    · rename_i isClosed lenForProceed hp
      obtain rfl := Option.some.inj hstep
      have hpass := h.pass
      rw [hp] at hpass
      exact ⟨sent, rest, h.pass_to (h.limit hpass)⟩
    · cases hstep
  | process =>
    rw [Tar.step] at hstep
    split at hstep
    · rename_i isClosed lenForProceed lenForProceedSafe hp
      obtain rfl := Option.some.inj hstep
      exact h.process hp
    · cases hstep

/-- The parts are well formed: every size field holds the length of the data behind it, the data is
a prefix of what was added, and all of it when the buffer is deleted. -/
structure WellFormed (s : State) : Prop where
  sizes : ∀ part ∈ s.parts, octToInt part.size = part.data.length
  isPrefix : (s.parts.map Part.data).flatten <+: s.added
  whole : s.pass = .deleted → (s.parts.map Part.data).flatten = s.added

/-- In a run in which no close falls into a pass that it breaks, the parts are well formed. -/
theorem reach_wellFormed {fixLen : Nat} (hpos : 0 < fixLen) (hlt : fixLen < 2 ^ 32) {s : State}
    (h : ReachBy step Regular (start fixLen) s) : WellFormed s := by
  have hreach : ∃ sent rest, Inv s sent rest := by
    refine ReachBy.invariant (I := fun s => ∃ sent rest, Inv s sent rest) ⟨[], [], .new hpos hlt⟩ ?_ h
    rintro s a t ⟨sent, rest, hs⟩ hok hstep
    exact hs.step hok hstep
  obtain ⟨sent, rest, hinv⟩ := hreach
  have hadded := hinv.added
  rw [List.flatten_append, ← hinv.parts] at hadded
  refine ⟨hinv.sizes, ?_, fun hdeleted => ?_⟩
  · rw [hadded]
    exact List.prefix_append _ _
  · have hpass := hinv.pass
    rw [hdeleted] at hpass
    rw [hadded, hpass.2, List.flatten_nil, List.append_nil]

theorem reach_wellFormed_example :
    ∃ s, ReachBy step Regular (start 4) s ∧ WellFormed s ∧ s.pass = .deleted ∧
      s.added = [1, 2, 3, 4, 5] := by
  obtain ⟨s, hs⟩ : ∃ s, s = checkedRun step Regular (start 4)
      [.add [1, 2, 3], .look, .add [4, 5], .skip, .close, .look, .measure, .limit, .process, .look,
        .measure, .limit, .process] := ⟨_, rfl⟩
  cases s with
  | none => exact absurd hs (by decide +kernel)
  | some s =>
    have hreach : ReachBy step Regular (start 4) s := ReachBy.initial.checkedRun _ hs.symm
    refine ⟨s, hreach, reach_wellFormed (by decide) (by decide) hreach, ?_⟩
    have hvalues : (checkedRun step Regular (start 4)
        [.add [1, 2, 3], .look, .add [4, 5], .skip, .close, .look, .measure, .limit, .process, .look,
          .measure, .limit, .process]).map (fun s => (s.pass, s.added)) =
        some (.deleted, [1, 2, 3, 4, 5]) := by decide +kernel
    rw [← hs, Option.map_some] at hvalues
    exact Prod.mk.inj (Option.some.inj hvalues)

lemma three_pieces {rest : List Bytes} (h : Pieces 200000 rest) (hlen : rest.flatten.length = 600000) :
    ∃ x y z, rest = [x, y, z] ∧ x.length = 200000 ∧ y.length = 200000 ∧ z.length = 200000 := by
  rcases List.eq_nil_or_concat' rest with rfl | ⟨front, last, rfl⟩
  · simp at hlen
  · have hfront : ∀ x ∈ front, x.length = 200000 := by
      have hfull := h.full
      rwa [List.dropLast_concat] at hfull
    have hpos := h.pos last (by simp)
    have hle := h.le last (by simp)
    rw [List.flatten_concat, List.length_append, length_flatten_of_full hfront] at hlen
    obtain ⟨x, y, rfl⟩ := List.length_eq_two.mp (show front.length = 2 by omega)
    rw [List.length_cons, List.length_cons, List.length_nil] at hlen
    exact ⟨x, y, last, rfl, hfront x (by simp), hfront y (by simp), by omega⟩

/-- The buffer is closed when the worker has decided on a part of one chunk: the part gets all three
of them. -/
theorem close_breaks_part :
    ¬∀ (fixLen : Nat) (s : State), 0 < fixLen → fixLen < 2 ^ 32 →
      ReachBy step (fun _ _ => True) (start fixLen) s → WellFormed s := by
  intro h
  obtain ⟨data, hdata⟩ : ∃ data : Bytes, data.length = 600000 :=
    ⟨List.replicate 600000 0, List.length_replicate⟩
  have hnew := Layout.new (show 0 < 200000 by omega)
  obtain ⟨rest, hlayout, hadded, -, -⟩ := @Layout.add _ _ _ hnew (fun _ => rfl) data
    (show 200000 < 2 ^ 32 by omega) (by simp [hdata])
  obtain ⟨b, hb⟩ : ∃ b, b = (ChunkBuffer.new 200000).add data := ⟨_, rfl⟩
  have hsame := add_same (ChunkBuffer.new 200000) data
  rw [← hb] at hlayout hsame
  rw [List.nil_append, List.nil_append, List.flatten_nil, List.nil_append] at hadded
  have hclosed : b.closed = false := hsame.1
  have hpieces := hlayout.pieces
  rw [hsame.2] at hpieces
  obtain ⟨x, y, z, rfl, hx, hy, hz⟩ := three_pieces hpieces (by rw [List.nil_append, hadded, hdata])
  have hlength : b.getChunkIterateLenForProceed = 600000 := by
    rw [hlayout.lenForProceed, hadded, hdata]
  -- the worker counts on the first chunk
  have hsafe : b.getChunkIterateSafeLimitLength 600000 = 200000 := by
    obtain ⟨kept, hkept, hlive⟩ := hlayout.chunks
    obtain ⟨c, kept₁, hc, hlive₁, rfl⟩ := List.forall₂_cons_right_iff.mp hlive
    obtain ⟨d, kept₂, hd, hlive₂, rfl⟩ := List.forall₂_cons_right_iff.mp hlive₁
    obtain ⟨e, kept₃, -, hlive₃, rfl⟩ := List.forall₂_cons_right_iff.mp hlive₂
    obtain rfl := List.forall₂_nil_right_iff.mp hlive₃
    obtain ⟨hclen, mc, hcm, -, -⟩ := hc
    obtain ⟨hdlen, md, hdm, -, -⟩ := hd
    rw [ChunkBuffer.getChunkIterateSafeLimitLength, hclosed, if_neg Bool.false_ne_true, hkept]
    simp [safeLimitLoop, hcm, hdm, hclen, hx, add32]
  have hreach : ReachBy step (fun _ _ => True) (start 200000)
      ⟨(processData b.close false 200000).1, .idle,
        (processData b.close false 200000).2.toList, data⟩ := by
    refine ReachBy.initial.run (fun _ _ => trivial)
      [.add data, .look, .measure, .limit, .close, .process] ?_
    have hadd : step (start 200000) (.add data) = some ⟨b, .idle, [], data⟩ := by
      rw [hb]
      rfl
    have hlook : step ⟨b, .idle, [], data⟩ .look = some ⟨b, .seen false, [], data⟩ := by
      rw [step, hclosed]
    have hmeasure : step ⟨b, .seen false, [], data⟩ .measure =
        some ⟨b, .length false 600000, [], data⟩ := by
      rw [step, hlength]
    have hlimit : step ⟨b, .length false 600000, [], data⟩ .limit =
        some ⟨b, .safe false 600000 200000, [], data⟩ := by
      have hpass : limitStep b false 600000 = .safe false 600000 200000 := by
        simp [limitStep, hsafe, tarChunk]
      rw [step]
      dsimp only
      rw [hpass]
    have hclose : step ⟨b, .safe false 600000 200000, [], data⟩ .close =
        some ⟨b.close, .safe false 600000 200000, [], data⟩ := by
      rw [step, hclosed]
      rfl
    rw [run, hadd, Option.bind_some, run, hlook, Option.bind_some, run, hmeasure, Option.bind_some,
      run, hlimit, Option.bind_some, run, hclose, Option.bind_some]
    rfl
  have hout := (hlayout.close.chunkIterate_closed rfl 200000).2
  rw [hadded] at hout
  have hpart : (processData b.close false 200000).2 =
      some ⟨thSetSize 200000, true, data, padding data.length⟩ := by
    rw [processData, if_pos (by omega)]
    dsimp only
    rw [hout]
    rfl
  have hsize := (h 200000 _ (by omega) (by omega) hreach).sizes
    ⟨thSetSize 200000, true, data, padding data.length⟩ (by rw [hpart]; simp)
  rw [octToInt_thSetSize (by omega), hdata] at hsize
  omega

end VoipMonitor.Tar
