import VoipMonitor.Proofs.HeapBlocks

/-!
# What the calls do to the row of blocks

Each part of `Alloc` and `Free` changes the row at one place: a free block is cut or taken, a block
is put behind the last one, and a block that is given back is joined with its free neighbours.
-/

namespace VoipMonitor.Heap
open VoipMonitor.Library

abbrev freeStarts (blocks : List Block) : List Nat := blocks.filterMap Block.freeStart

abbrev objects (blocks : List Block) : List (Nat × Nat) := blocks.filterMap Block.object

abbrev usedBlocks (blocks : List Block) : List Block := blocks.filter (·.asked.isSome)

def Apart (blocks : List Block) : Prop :=
  blocks.IsChain fun a b => a.asked.isSome ∨ b.asked.isSome

structure Rep (h : HeapItem) (blocks : List Block) (ring : List Nat) : Prop where
  buff_pos : 0 < h.buff
  brk_le : h.brk ≤ h.buff + h.size
  size_lt : h.size < 2 ^ 32
  noError : h.initBuffError = false
  tiles : Tiles h.mem 0 h.buff blocks h.brk
  first : h.first = firstStart blocks
  last : h.last = lastStart 0 blocks
  freeRing : FreeRing (h.buff % 32) h ring
  free : ring.Perm (freeStarts blocks)
  lastUsed : ∀ b ∈ blocks.getLast?, b.asked.isSome

variable {mem mem' : Memory} {prev prev' lo hi p q sz n req r : Nat} {b c : Block}
  {blocks before behind : List Block} {h h' : HeapItem} {ring : List Nat}

lemma lt_lastStart (ht : Tiles mem p lo behind hi) (hlo : p < lo) (hne : behind ≠ []) :
    p < lastStart p behind := by
  rcases List.eq_nil_or_concat behind with rfl | ⟨front, c, rfl⟩
  · exact absurd rfl hne
  · rw [List.concat_eq_append] at ht ⊢
    have := ht.range (b := c) (by simp)
    rw [lastStart_concat]
    omega

lemma firstStart_append (hb : b.start = c.start) :
    firstStart (before ++ b :: blocks) = firstStart (before ++ c :: behind) := by
  cases before with
  | nil => exact hb
  | cons a before => rfl

lemma getLast?_append_cons (hne : behind ≠ []) :
    (before ++ b :: behind).getLast? = behind.getLast? := by
  obtain ⟨c, rest, rfl⟩ := List.exists_cons_of_ne_nil hne
  rw [List.getLast?_append, List.getLast?_cons_cons,
    List.getLast?_eq_some_getLast (List.cons_ne_nil c rest)]
  rfl

lemma freeStarts_middle (hb : b.asked = none) :
    freeStarts (before ++ b :: behind) = freeStarts before ++ b.start :: freeStarts behind := by
  simp [freeStarts, Block.freeStart, hb]

lemma freeStarts_used (hb : b.asked = some n) :
    freeStarts (before ++ b :: behind) = freeStarts before ++ freeStarts behind := by
  simp [freeStarts, Block.freeStart, hb]

lemma usedBlocks_free (hb : b.asked = none) :
    usedBlocks (before ++ b :: behind) = usedBlocks before ++ usedBlocks behind := by
  rw [usedBlocks, List.filter_append, List.filter_cons_of_neg (by rw [hb]; exact nofun)]

lemma usedBlocks_middle (hb : b.asked.isSome) :
    usedBlocks (before ++ b :: behind) = usedBlocks before ++ b :: usedBlocks behind := by
  rw [usedBlocks, List.filter_append]
  exact congrArg (usedBlocks before ++ ·) (List.filter_cons_of_pos hb)

lemma objects_eq (blocks : List Block) : objects blocks = (usedBlocks blocks).filterMap Block.object := by
  rw [usedBlocks, List.filterMap_filter, objects]
  refine congrArg (fun f => List.filterMap f blocks) (funext fun b => ?_)
  rw [Block.object]
  cases b.asked <;> rfl

lemma objects_middle (hb : b.asked = some n) :
    objects (before ++ b :: behind) = objects before ++ (b.start + 16, n) :: objects behind := by
  rw [objects, List.filterMap_append, List.filterMap_cons, Block.object, hb, Option.map_some]

namespace Rep

variable (hrep : Rep h (before ++ b :: behind) ring)
include hrep

lemma block : h.buff ≤ b.start ∧ b.start + b.size ≤ h.brk ∧ b.start % 32 = h.buff % 32 ∧
    32 ≤ b.size ∧ b.size % 32 = 0 ∧ b.start ≠ 0 ∧ b.size + 1 < 2 ^ 32 := by
  have hrange := hrep.tiles.range (b := b) (by simp)
  have hpos := hrep.buff_pos
  have hle := hrep.brk_le
  have hlt := hrep.size_lt
  omega

lemma sizeAt_eq : h.mem b.start = b.sizeField := (tiles_split.mp hrep.tiles).2.1.size

lemma last_ne (hne : behind ≠ []) : h.last ≠ b.start := by
  obtain ⟨-, hheader, hback⟩ := tiles_split.mp hrep.tiles
  have hmin := hheader.min
  have := lt_lastStart hback (by omega) hne
  rw [hrep.last, lastStart_append_cons]
  omega

lemma pullFreeBlock (hb : b.asked = none) :
    ∃ ring', FreeRing (h.buff % 32) (h.pullFreeBlock b.start) ring' ∧
      ring'.Perm (freeStarts before ++ freeStarts behind) ∧
      SameHeaders (h.buff % 32) h (h.pullFreeBlock b.start) := by
  have hfree := hrep.free
  rw [freeStarts_middle hb] at hfree
  have hmem : b.start ∈ ring := hfree.mem_iff.mpr (by simp)
  obtain ⟨ring', hring, hperm⟩ := hrep.freeRing.pullFreeBlock hmem
  refine ⟨ring', hring, ?_, hrep.freeRing.sameHeaders_pullFreeBlock hmem⟩
  exact (hperm.symm.trans (hfree.trans List.perm_middle)).cons_inv

end Rep

lemma Tiles.sameHeaders (ht : Tiles h.mem prev lo blocks hi) (hs : SameHeaders r h h')
    (hlo : lo % 32 = r) : Tiles h'.mem prev lo blocks hi :=
  ht.congr fun _ hb => hs.header _ ((ht.range hb).2.2.1.trans hlo)

lemma Rep.behind_ne_nil (hrep : Rep h (before ++ b :: behind) ring) (hb : b.asked = none) :
    behind ≠ [] := by
  rintro rfl
  have hsome := hrep.lastUsed b (by simp)
  rw [hb] at hsome
  cases hsome

lemma Rep.allocatePartialBlock (hrep : Rep h (before ++ ⟨p, sz, none⟩ :: behind) ring)
    (hn : n % 32 = 0) (hmin : 32 ≤ n) (hfits : req + 16 ≤ n) (hsz : n + 96 ≤ sz) :
    (h.allocatePartialBlock p n).2 = p + (sz - n) + 16 ∧
      Rep (h.allocatePartialBlock p n).1
        (before ++ ⟨p, sz - n, none⟩ :: ⟨p + (sz - n), n, some req⟩ :: behind) ring := by
  have hne := hrep.behind_ne_nil rfl
  obtain ⟨hbuff, hbrk, hr, -, hunit, hpos, hlt⟩ := hrep.block
  have hlast := hrep.last_ne hne
  have hsize := hrep.sizeAt_eq
  obtain ⟨hfront, hheader, hback⟩ := tiles_split.mp hrep.tiles
  dsimp only at hbuff hbrk hr hunit hpos hlt hlast hfront hback
  rw [Block.sizeField] at hsize
  simp only [Option.isSome_none, Bool.false_eq_true, if_false, Nat.add_zero] at hsize
  have hcut : sub32 (h.mem p) n = sz - n := by
    rw [hsize]
    exact sub32_eq (by omega) (by omega)
  have hadd : add32 n 1 = n + 1 := add32_eq (by omega)
  simp only [HeapItem.allocatePartialBlock, HeapItem.setSize, HeapItem.setPrevReal,
    HeapItem.store, HeapItem.sizeAt, Function.update_self, hcut, hadd, if_neg hlast, true_and]
  refine ⟨hrep.buff_pos, hrep.brk_le, hrep.size_lt, hrep.noError, ?_, ?_, ?_, ?_, ?_, ?_⟩
  · refine tiles_split.mpr ⟨hfront.congr fun b hb => ?_, ⟨?_, ?_, ?_, ?_, ?_⟩, rfl,
      ⟨?_, ?_, hmin, hn, ?_⟩, ?_⟩
    · have hrange := hfront.range hb
      constructor <;> simp (disch := omega) only [Function.update_of_ne]
    · simp (disch := omega) only [Function.update_of_ne, Function.update_self]
      rfl
    · simp (disch := omega) only [Function.update_of_ne]
      exact hheader.prevReal
    · dsimp only
      omega
    · dsimp only
      omega
    · intro _ hm
      cases hm
    · simp (disch := omega) only [Function.update_of_ne, Function.update_self]
      rfl
    · simp (disch := omega) only [Function.update_of_ne, Function.update_self]
    · rintro m hm
      rw [Option.mem_def, Option.some.injEq] at hm
      dsimp only
      omega
    · have hend : p + (sz - n) + n = p + sz := by omega
      rw [hend]
      refine hback.change (fun _ => Function.update_self ..) fun b hb => ?_
      have hrange := hback.range hb
      refine ⟨?_, fun hb => ?_⟩ <;> simp (disch := omega) only [Function.update_of_ne]
  · exact hrep.first.trans (firstStart_append rfl)
  · rw [hrep.last, lastStart_append_cons, lastStart_append_cons, lastStart_cons]
    obtain ⟨c, rest, rfl⟩ := List.exists_cons_of_ne_nil hne
    rw [lastStart_cons, lastStart_cons]
  · refine hrep.freeRing.congr rfl fun a ha => ?_
    have har := (hrep.freeRing.aligned a ha).2
    constructor <;> simp (disch := omega) only [Function.update_of_ne]
  · have hfree := hrep.free
    rw [freeStarts_middle rfl] at hfree ⊢
    exact hfree
  · rw [getLast?_append_cons (List.cons_ne_nil _ _)]
    have hused := hrep.lastUsed
    rw [getLast?_append_cons hne] at hused
    obtain ⟨c, rest, rfl⟩ := List.exists_cons_of_ne_nil hne
    rwa [List.getLast?_cons_cons]

lemma Rep.transfer {blocks' : List Block} {ring' : List Nat} (hrep : Rep h blocks ring)
    (hs : SameMembers h h') (htiles : Tiles h'.mem 0 h.buff blocks' h.brk)
    (hfirst : firstStart blocks = firstStart blocks') (hlast : lastStart 0 blocks = lastStart 0 blocks')
    (hring : FreeRing (h.buff % 32) h' ring') (hfree : ring'.Perm (freeStarts blocks'))
    (hused : ∀ b ∈ blocks'.getLast?, b.asked.isSome) : Rep h' blocks' ring' := by
  refine ⟨?_, ?_, ?_, ?_, ?_, ?_, ?_, ?_, hfree, hused⟩
  · exact hs.buff.symm ▸ hrep.buff_pos
  · rw [hs.brk, hs.buff, hs.size]
    exact hrep.brk_le
  · exact hs.size.symm ▸ hrep.size_lt
  · exact hs.initBuffError.trans hrep.noError
  · rw [hs.buff, hs.brk]
    exact htiles
  · exact hs.first.trans (hrep.first.trans hfirst)
  · exact hs.last.trans (hrep.last.trans hlast)
  · exact hs.buff.symm ▸ hring

lemma FreeRing.setSize (hr : FreeRing r h ring) (hp : p % 32 = r) (v : Nat) :
    FreeRing r (h.setSize p v) ring := by
  refine hr.congr rfl fun a ha => ?_
  have har := (hr.aligned a ha).2
  constructor
  all_goals
    simp only [HeapItem.setSize, HeapItem.store]
    simp (disch := omega) only [Function.update_of_ne]

lemma FreeRing.setPrevReal (hr : FreeRing r h ring) (hp : p % 32 = r) (v : Nat) :
    FreeRing r (h.setPrevReal p v) ring := by
  refine hr.congr rfl fun a ha => ?_
  have har := (hr.aligned a ha).2
  constructor
  all_goals
    simp only [HeapItem.setPrevReal, HeapItem.store]
    simp (disch := omega) only [Function.update_of_ne]

lemma Tiles.mark (ht : Tiles mem 0 lo (before ++ b :: behind) hi) (asked : Option Nat)
    (hfits : ∀ n ∈ asked, n + 16 ≤ b.size) :
    Tiles (Function.update mem b.start (Block.mk b.start b.size asked).sizeField) 0 lo
      (before ++ ⟨b.start, b.size, asked⟩ :: behind) hi := by
  obtain ⟨hfront, hheader, hback⟩ := tiles_split.mp ht
  have hmin := hheader.min
  refine tiles_split.mpr ⟨hfront.congr fun c hc => ?_, ⟨?_, ?_, hheader.min, hheader.unit, hfits⟩,
    hback.congr fun c hc => ?_⟩
  · have hrange := hfront.range hc
    constructor <;> simp (disch := omega) only [Function.update_of_ne]
  · exact Function.update_self ..
  · simp (disch := omega) only [Function.update_of_ne]
    exact hheader.prevReal
  · have hrange := hback.range hc
    constructor <;> simp (disch := omega) only [Function.update_of_ne]

lemma Tiles.join (ht : Tiles mem 0 lo (before ++ ⟨p, sz, none⟩ :: ⟨q, n, none⟩ :: behind) hi) :
    Tiles (Function.update (Function.update mem p (sz + n)) (q + n + 8) p) 0 lo
      (before ++ ⟨p, sz + n, none⟩ :: behind) hi := by
  obtain ⟨hfront, hheader, hstart, hqheader, hback⟩ := tiles_split.mp ht
  obtain ⟨-, -, hqmin, hqunit, -⟩ := hqheader
  have hmin := hheader.min
  have hunit := hheader.unit
  dsimp only at hmin hunit hfront hstart hqmin hqunit hback
  refine tiles_split.mpr ⟨hfront.congr fun b hb => ?_, ⟨?_, ?_, ?_, ?_, nofun⟩, ?_⟩
  · have hrange := hfront.range hb
    constructor <;> simp (disch := omega) only [Function.update_of_ne]
  · simp (disch := omega) only [Function.update_of_ne, Function.update_self]
    rfl
  · simp (disch := omega) only [Function.update_of_ne]
    exact hheader.prevReal
  · dsimp only
    omega
  · dsimp only
    omega
  · have hend : p + (sz + n) = q + n := by omega
    rw [hend]
    refine hback.change (fun _ => Function.update_self ..) fun b hb => ?_
    have hrange := hback.range hb
    refine ⟨?_, fun hb => ?_⟩ <;> simp (disch := omega) only [Function.update_of_ne]

lemma lastStart_middle (hb : b.start = c.start) :
    lastStart prev (before ++ b :: behind) = lastStart prev (before ++ c :: behind) := by
  rw [lastStart_append_cons, lastStart_append_cons, hb]

lemma lastStart_join {a : Block} (hne : behind ≠ []) :
    lastStart prev (before ++ a :: b :: behind) = lastStart prev (before ++ c :: behind) := by
  obtain ⟨d, rest, rfl⟩ := List.exists_cons_of_ne_nil hne
  rw [lastStart_append_cons, lastStart_append_cons, lastStart_cons, lastStart_cons, lastStart_cons]

lemma getLast?_join {a : Block} (hne : behind ≠ []) :
    (before ++ a :: b :: behind).getLast? = (before ++ c :: behind).getLast? := by
  rw [getLast?_append_cons (List.cons_ne_nil b behind), getLast?_append_cons hne]
  exact @getLast?_append_cons b [] behind hne

lemma Rep.takeBlock (hrep : Rep h (before ++ ⟨p, sz, none⟩ :: behind) ring) (hfits : req + 16 ≤ sz) :
    ∃ ring', Rep ((h.pullFreeBlock p).setSize p (add32 ((h.pullFreeBlock p).sizeAt p) 1))
      (before ++ ⟨p, sz, some req⟩ :: behind) ring' := by
  have hne := hrep.behind_ne_nil rfl
  obtain ⟨-, -, hr, -, -, -, hlt⟩ := hrep.block
  have hsize : h.sizeAt p = sz := hrep.sizeAt_eq
  obtain ⟨ring', hring, hperm, hsame⟩ := hrep.pullFreeBlock rfl
  have hadd : add32 ((h.pullFreeBlock p).sizeAt p) 1 = sz + 1 := by
    rw [HeapItem.sizeAt, (hsame.header p hr).1]
    change add32 (h.sizeAt p) 1 = sz + 1
    rw [hsize]
    exact add32_eq (by dsimp only at hlt; omega)
  rw [hadd]
  refine ⟨ring', hrep.transfer (hsame.toSameMembers.trans ⟨rfl, rfl, rfl, rfl, rfl, rfl⟩) ?_
    (firstStart_append rfl) (lastStart_middle rfl) (hring.setSize hr _) ?_ ?_⟩
  · refine (hrep.tiles.sameHeaders hsame rfl).mark (some req) fun m hm => ?_
    rw [Option.mem_def, Option.some.injEq] at hm
    dsimp only
    omega
  · rw [freeStarts_used rfl]
    exact hperm
  · have hused := hrep.lastUsed
    rw [getLast?_append_cons hne] at hused ⊢
    exact hused

lemma Rep.setFull (hrep : Rep h blocks ring) (full : Bool) :
    Rep { h with isFull := full } blocks ring :=
  ⟨hrep.buff_pos, hrep.brk_le, hrep.size_lt, hrep.noError, hrep.tiles, hrep.first, hrep.last,
    hrep.freeRing.congr rfl fun _ _ => ⟨rfl, rfl⟩, hrep.free, hrep.lastUsed⟩

lemma Rep.append (hrep : Rep h blocks ring) (hn : n % 32 = 0) (hmin : 32 ≤ n)
    (hfits : req + 16 ≤ n) (hroom : h.brk + n ≤ h.buff + h.size) :
    Rep { h with
      brk := h.brk + n
      first := firstStart (blocks ++ [⟨h.brk, n, some req⟩])
      last := h.brk
      mem := Function.update (Function.update h.mem (h.brk + 8) h.last) h.brk (n + 1) }
      (blocks ++ [⟨h.brk, n, some req⟩]) ring := by
  have hle := hrep.tiles.le
  refine ⟨hrep.buff_pos, hroom, hrep.size_lt, hrep.noError, ?_, rfl, ?_, ?_, ?_, ?_⟩
  · refine tiles_split.mpr ⟨hrep.tiles.congr fun b hb => ?_, ⟨?_, ?_, hmin, hn, ?_⟩, rfl⟩
    · have hrange := hrep.tiles.range hb
      constructor <;> simp (disch := omega) only [Function.update_of_ne]
    · exact Function.update_self ..
    · simp (disch := omega) only [Function.update_of_ne, Function.update_self]
      exact hrep.last
    · rintro m hm
      rw [Option.mem_def, Option.some.injEq] at hm
      dsimp only
      omega
  · rw [lastStart_concat]
  · refine hrep.freeRing.congr rfl fun a ha => ?_
    have har := (hrep.freeRing.aligned a ha).2
    constructor <;> simp (disch := omega) only [Function.update_of_ne]
  · rw [freeStarts_used rfl]
    exact (List.append_nil (freeStarts blocks)).symm ▸ hrep.free
  · intro b hb
    rw [List.getLast?_concat, Option.mem_def, Option.some.injEq] at hb
    rw [← hb]
    rfl

lemma Rep.incrementBreak_cases (hrep : Rep h blocks ring) (n : Nat) :
    h.incrementBreak n = ({ h with isFull := true }, 0) ∨
      (h.brk + n - h.buff) % 2 ^ 32 ≤ h.size ∧
        h.incrementBreak n = ({ h with brk := h.brk + n }, h.brk) := by
  have hpos := hrep.buff_pos
  have hle := hrep.tiles.le.1
  rw [HeapItem.incrementBreak, if_neg (by omega)]
  split
  · exact Or.inl rfl
  · exact Or.inr ⟨by omega, rfl⟩

lemma Rep.grow (hrep : Rep h blocks ring) (hn : n % 32 = 0) (hmin : 32 ≤ n)
    (hmax : n + 1 < 2 ^ 32) (hfits : req + 16 ≤ n)
    (hwrap : (h.brk + n - h.buff) % 2 ^ 32 ≤ h.size → h.brk + n ≤ h.buff + h.size) :
    let r := if h.first = 0 then h.createHeap n else h.extendHeap n
    (r.2 = 0 ∧ Rep r.1 blocks ring) ∨
      r.2 = h.brk + 16 ∧ Rep r.1 (blocks ++ [⟨h.brk, n, some req⟩]) ring := by
  have hpos := hrep.buff_pos
  have hle := hrep.tiles.le.1
  have hadd : add32 n 1 = n + 1 := add32_eq (by omega)
  rcases hrep.incrementBreak_cases n with hinc | ⟨hroom, hinc⟩
  · refine Or.inl ?_
    simp only [HeapItem.createHeap, HeapItem.extendHeap, hinc, if_true]
    split <;> exact ⟨rfl, hrep.setFull true⟩
  · refine Or.inr ?_
    have hnew := hrep.append hn hmin hfits (hwrap hroom)
    have hbrk : h.brk ≠ 0 := by omega
    simp only [HeapItem.createHeap, HeapItem.extendHeap, hinc, if_neg hbrk, hadd,
      HeapItem.setPrevReal, HeapItem.setSize, HeapItem.store]
    split
    · rename_i hfirst
      -- the first block of the heap
      obtain rfl : blocks = [] := by
        cases blocks with
        | nil => rfl
        | cons b blocks =>
          rw [hrep.first] at hfirst
          exact absurd hfirst (@Rep.block b [] blocks h ring hrep).2.2.2.2.2.1
      have hlast : h.last = 0 := hrep.last
      rw [hlast] at hnew
      exact ⟨rfl, hnew⟩
    · rename_i hfirst
      obtain ⟨b, rest, rfl⟩ : ∃ b rest, blocks = b :: rest := by
        refine List.exists_cons_of_ne_nil fun hnil => hfirst ?_
        rw [hrep.first, hnil]
        rfl
      have hfirst' : firstStart (b :: rest ++ [⟨h.brk, n, some req⟩]) = h.first :=
        hrep.first.symm
      rw [hfirst'] at hnew
      exact ⟨rfl, hnew⟩

lemma apart_split : Apart (before ++ b :: behind) ↔ Apart before ∧ Apart behind ∧
    (b.asked.isSome ∨ (∀ a ∈ before.getLast?, a.asked.isSome) ∧
      ∀ c ∈ behind.head?, c.asked.isSome) := by
  rw [Apart, List.isChain_append, List.isChain_cons]
  simp only [List.head?_cons, Option.mem_def, Option.some.injEq, forall_eq']
  constructor
  · rintro ⟨hbefore, ⟨hhead, hbehind⟩, hlast⟩
    refine ⟨hbefore, hbehind, ?_⟩
    by_cases hb : b.asked.isSome
    · exact Or.inl hb
    · exact Or.inr ⟨fun a ha => (hlast a ha).resolve_right hb,
        fun c hc => (hhead c hc).resolve_left hb⟩
  · rintro ⟨hbefore, hbehind, hb | ⟨hlast, hhead⟩⟩
    · exact ⟨hbefore, ⟨fun _ _ => Or.inl hb, hbehind⟩, fun _ _ => Or.inr hb⟩
    · exact ⟨hbefore, ⟨fun c hc => Or.inr (hhead c hc), hbehind⟩, fun a ha => Or.inl (hlast a ha)⟩

lemma sizeField_even (hunit : b.size % 32 = 0) : b.sizeField % 2 = 0 ↔ b.asked = none := by
  rw [Block.sizeField]
  cases hasked : b.asked with
  | none =>
    simp only [Option.isSome_none, Bool.false_eq_true, if_false, iff_true]
    omega
  | some n =>
    simp only [Option.isSome_some, if_true, reduceCtorEq, iff_false]
    omega

lemma Rep.prevReal_eq (hrep : Rep h (before ++ b :: behind) ring) :
    h.prevReal b.start = lastStart 0 before :=
  (tiles_split.mp hrep.tiles).2.1.prevReal

lemma Rep.first_eq_iff (hrep : Rep h (before ++ b :: behind) ring) :
    b.start = h.first ↔ before = [] := by
  rw [hrep.first]
  constructor
  · intro heq
    cases before with
    | nil => rfl
    | cons a before => exact absurd heq.symm (hrep.tiles.start_inj (c := a) (by simp))
  · rintro rfl
    rfl

lemma Rep.freeLastBlock (hrep : Rep h (before ++ [b]) ring) (hb : b.asked.isSome)
    (hapart : Apart (before ++ [b])) :
    ∃ blocks' ring', Rep h.freeLastBlock blocks' ring' ∧ Apart blocks' ∧
      usedBlocks blocks' = usedBlocks before := by
  have hlast : h.last = b.start := by rw [hrep.last, lastStart_concat]
  obtain ⟨hfront, hheader, -⟩ := tiles_split.mp hrep.tiles
  have hbrange := hrep.block
  have hbrk := hrep.brk_le
  have hfree := hrep.free
  obtain ⟨n, hn⟩ := Option.isSome_iff_exists.mp hb
  rw [freeStarts_used hn, show freeStarts [] = [] from rfl, List.append_nil] at hfree
  have hapart' := (apart_split.mp hapart).1
  rw [HeapItem.freeLastBlock, hlast]
  rcases List.eq_nil_or_concat before with rfl | ⟨front, a, rfl⟩
  · -- the only block
    rw [if_pos (hrep.first_eq_iff.mpr rfl).symm]
    refine ⟨[], ring, ⟨hrep.buff_pos, ?_, hrep.size_lt, hrep.noError, ?_, rfl, rfl,
      hrep.freeRing.congr rfl fun _ _ => ⟨rfl, rfl⟩, hfree, nofun⟩, hapart', rfl⟩
    · change h.first ≤ h.buff + h.size
      rw [← hrep.first_eq_iff.mpr rfl]
      omega
    · change h.buff = h.first
      rw [← hrep.first_eq_iff.mpr rfl]
      exact hfront
  · rw [List.concat_eq_append] at *
    have hne : h.first ≠ b.start := fun heq => by
      have := hrep.first_eq_iff.mp heq.symm
      simp at this
    have hprev : h.prevReal b.start = a.start := by rw [hrep.prevReal_eq, lastStart_concat]
    have hrep' := hrep
    rw [List.append_assoc, List.singleton_append] at hrep'
    have harange := hrep'.block
    have hsize : h.sizeAt a.start = a.sizeField := hrep'.sizeAt_eq
    rw [if_neg hne, hprev]
    dsimp only
    rw [hsize]
    obtain ⟨hfront', haheader, -⟩ := tiles_split.mp hfront
    by_cases ha : a.asked = none
    · -- the free block goes too
      rw [if_pos ((sizeField_even haheader.unit).mpr ha)]
      obtain ⟨ring', hring, hperm, hsame⟩ := hrep'.pullFreeBlock ha
      have hperm' : ring'.Perm (freeStarts front) := by
        have hnil : freeStarts [b] = [] := by simp [freeStarts, Block.freeStart, hn]
        rwa [hnil, List.append_nil] at hperm
      obtain ⟨hapartFront, -, ha' | ⟨hused, -⟩⟩ := apart_split.mp hapart'
      · rw [ha] at ha'
        cases ha'
      have hprevReal : (h.pullFreeBlock a.start).prevReal a.start = lastStart 0 front :=
        (hsame.header _ harange.2.2.1).2.trans hrep'.prevReal_eq
      have hobjects : usedBlocks front = usedBlocks (front ++ [a]) := by
        rw [usedBlocks_free ha]
        exact (List.append_nil (usedBlocks front)).symm
      refine ⟨front, ring', ?_, hapartFront, hobjects⟩
      have hbuff : (h.pullFreeBlock a.start).buff = h.buff := hsame.buff
      have htiles : Tiles (h.pullFreeBlock a.start).mem 0 (h.pullFreeBlock a.start).buff front
          a.start := by
        rw [hbuff]
        exact hfront'.sameHeaders hsame rfl
      have hroom : a.start ≤ (h.pullFreeBlock a.start).buff + (h.pullFreeBlock a.start).size := by
        rw [hbuff, hsame.size]
        omega
      have hpos : 0 < (h.pullFreeBlock a.start).buff := hbuff ▸ hrep.buff_pos
      have hring' : FreeRing ((h.pullFreeBlock a.start).buff % 32) (h.pullFreeBlock a.start)
          ring' := hbuff.symm ▸ hring
      have hlt := hsame.size ▸ hrep.size_lt
      have herror := hsame.initBuffError.trans hrep.noError
      rw [hsame.first]
      split
      · rename_i heq
        obtain rfl := hrep'.first_eq_iff.mp heq
        exact ⟨hpos, hroom, hlt, herror, htiles, rfl, rfl,
          hring'.congr rfl fun _ _ => ⟨rfl, rfl⟩, hperm', hused⟩
      · rename_i hfirst
        refine ⟨hpos, hroom, hlt, herror, htiles, ?_, hprevReal,
          hring'.congr rfl fun _ _ => ⟨rfl, rfl⟩, hperm', hused⟩
        obtain ⟨c, rest, rfl⟩ := List.exists_cons_of_ne_nil (mt hrep'.first_eq_iff.mpr hfirst)
        exact hrep'.first
    · rw [if_neg (mt (sizeField_even haheader.unit).mp ha)]
      refine ⟨front ++ [a], ring, ⟨hrep.buff_pos, ?_, hrep.size_lt, hrep.noError, ?_, ?_, ?_,
        hrep.freeRing.congr rfl fun _ _ => ⟨rfl, rfl⟩, hfree, ?_⟩, hapart', rfl⟩
      · change b.start ≤ h.buff + h.size
        omega
      · exact hfront
      · refine hrep'.first.trans ?_
        exact firstStart_append rfl
      · rw [lastStart_concat]
      · intro c hc
        rw [List.getLast?_concat, Option.mem_def, Option.some.injEq] at hc
        rw [← hc]
        exact Option.ne_none_iff_isSome.mp ha

lemma Rep.release (hrep : Rep h (before ++ ⟨p, sz, some n⟩ :: behind) ring) (hne : behind ≠ []) :
    ∃ ring', Rep ((h.setSize p sz).insertFreeBlock p) (before ++ ⟨p, sz, none⟩ :: behind) ring' := by
  obtain ⟨-, -, hr, -, -, hpos, -⟩ := hrep.block
  have hring := hrep.freeRing.setSize hr sz
  have hnew : p ∉ ring := by
    intro hp
    have hp := hrep.free.mem_iff.mp hp
    rw [freeStarts_used rfl, ← List.filterMap_append] at hp
    obtain ⟨c, hc, hstart⟩ := List.mem_filterMap.mp hp
    have hinj := hrep.tiles.start_inj hc
    rw [Block.freeStart] at hstart
    split at hstart
    · cases hstart
    · exact hinj (Option.some.inj hstart)
  have hsame := hring.sameHeaders_insertFreeBlock hr
  obtain ⟨ring', hring', hperm⟩ := hring.insertFreeBlock hr hpos hnew
  have htiles : Tiles (h.setSize p sz).mem 0 h.buff (before ++ ⟨p, sz, none⟩ :: behind) h.brk :=
    hrep.tiles.mark none nofun
  have hmembers : SameMembers h (h.setSize p sz) := ⟨rfl, rfl, rfl, rfl, rfl, rfl⟩
  refine ⟨ring', hrep.transfer (hmembers.trans hsame.toSameMembers)
    (htiles.sameHeaders hsame rfl) (firstStart_append rfl) (lastStart_middle rfl) hring' ?_ ?_⟩
  · have hfree := hrep.free
    rw [freeStarts_used rfl] at hfree
    rw [freeStarts_middle rfl]
    exact hperm.trans ((hfree.cons p).trans List.perm_middle.symm)
  · have hused := hrep.lastUsed
    rw [getLast?_append_cons hne] at hused ⊢
    exact hused

lemma Rep.merge (hrep : Rep h (before ++ ⟨p, sz, none⟩ :: ⟨q, n, some req⟩ :: behind) ring)
    (hne : behind ≠ []) :
    Rep (((h.setSize q n).setSize p (sz + n)).setPrevReal (q + n) p)
      (before ++ ⟨p, sz + n, none⟩ :: behind) ring := by
  obtain ⟨-, -, hr, -, -, -, -⟩ := hrep.block
  have hrepq : Rep h ((before ++ [⟨p, sz, none⟩]) ++ ⟨q, n, some req⟩ :: behind) ring := by
    rwa [List.append_assoc]
  obtain ⟨-, -, hqr, -, hunit, -, -⟩ := hrepq.block
  dsimp only at hqr hunit
  have hmarked := hrepq.tiles.mark none nofun
  rw [List.append_assoc] at hmarked
  refine hrep.transfer ⟨rfl, rfl, rfl, rfl, rfl, rfl⟩ hmarked.join (firstStart_append rfl)
    (lastStart_join hne) ?_ ?_ ?_
  · exact ((hrep.freeRing.setSize hqr n).setSize hr (sz + n)).setPrevReal (by omega) p
  · have hfree := hrep.free
    rw [freeStarts_middle rfl] at hfree ⊢
    exact hfree
  · rw [← getLast?_join hne]
    exact hrep.lastUsed

lemma Rep.joinFreeBlocks (hrep : Rep h (before ++ ⟨p, sz, none⟩ :: ⟨q, n, none⟩ :: behind) ring) :
    ∃ ring', Rep (h.joinFreeBlocks p q) (before ++ ⟨p, sz + n, none⟩ :: behind) ring' := by
  obtain ⟨hbuff, hbrk, hr, hmin, -, -, -⟩ := hrep.block
  obtain ⟨-, hheader, hstart, hqheader, -⟩ := tiles_split.mp hrep.tiles
  have hsizep : h.sizeAt p = sz := hheader.size
  have hsizeq : h.sizeAt q = n := hqheader.size
  have hrepq : Rep h ((before ++ [⟨p, sz, none⟩]) ++ ⟨q, n, none⟩ :: behind) ring := by
    rwa [List.append_assoc]
  obtain ⟨-, hqbrk, hqr, -, hqunit, -, -⟩ := hrepq.block
  have hne := hrepq.behind_ne_nil rfl
  have hlast : (h.setSize p (sz + n)).last ≠ q := hrepq.last_ne hne
  have hbrkle := hrep.brk_le
  have hsizelt := hrep.size_lt
  dsimp only at hbuff hbrk hr hmin hstart hqbrk hqr hqunit
  have hadd : add32 sz n = sz + n := add32_eq (by omega)
  -- the second block in the memory after the change of the first one
  have hsizeq' : (h.setSize p (sz + n)).sizeAt q = n := by
    simp only [HeapItem.sizeAt, HeapItem.setSize, HeapItem.store]
    rw [Function.update_of_ne (by omega)]
    exact hsizeq
  have heq : h.joinFreeBlocks p q =
      ((h.setSize p (sz + n)).setPrevReal (q + n) p).pullFreeBlock q := by
    simp only [HeapItem.joinFreeBlocks, hsizep, hsizeq, hadd, hsizeq']
    rw [if_neg hlast]
  have hring : FreeRing (h.buff % 32) ((h.setSize p (sz + n)).setPrevReal (q + n) p) ring :=
    (hrep.freeRing.setSize hr _).setPrevReal (by omega) p
  have hfree : ring.Perm (q :: (freeStarts before ++ p :: freeStarts behind)) := by
    have hfree := hrepq.free
    rw [freeStarts_middle rfl] at hfree
    refine hfree.trans (List.perm_middle.trans ?_)
    rw [freeStarts, List.filterMap_append, List.append_assoc]
    exact List.Perm.refl _
  have hmem : q ∈ ring := hfree.mem_iff.mpr List.mem_cons_self
  obtain ⟨ring', hring', hperm⟩ := hring.pullFreeBlock hmem
  have hsame := hring.sameHeaders_pullFreeBlock hmem
  have htiles : Tiles ((h.setSize p (sz + n)).setPrevReal (q + n) p).mem 0 h.buff
      (before ++ ⟨p, sz + n, none⟩ :: behind) h.brk := hrep.tiles.join
  rw [heq]
  have hmembers : SameMembers h ((h.setSize p (sz + n)).setPrevReal (q + n) p) :=
    ⟨rfl, rfl, rfl, rfl, rfl, rfl⟩
  refine ⟨ring', hrep.transfer (hmembers.trans hsame.toSameMembers)
    (htiles.sameHeaders hsame rfl) (firstStart_append rfl) (lastStart_join hne) hring' ?_ ?_⟩
  · rw [freeStarts_middle rfl]
    exact (hperm.symm.trans hfree).cons_inv
  · rw [← getLast?_join hne]
    exact hrep.lastUsed

end VoipMonitor.Heap
