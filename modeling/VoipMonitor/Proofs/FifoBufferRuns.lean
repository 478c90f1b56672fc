import VoipMonitor.Model.FifoBuffer

/-!
# The byte queue is first in, first out

The bytes of the chain are those that were added and whose items were not deleted. A `get` that
finds nothing keeps the lock, so the queue works as long as every `get` finds bytes to return.
-/

namespace VoipMonitor.Fifo
open VoipMonitor.Library

/-! ## The chain -/

section Chain
variable {owner : Settings}

def contents (items : List FifoBufferItem) : Bytes := items.flatMap FifoBufferItem.data

@[simp] lemma contents_nil : contents [] = [] := rfl

@[simp] lemma contents_cons (i : FifoBufferItem) (items : List FifoBufferItem) :
    contents (i :: items) = i.data ++ contents items := List.flatMap_cons

@[simp] lemma contents_append (items next : List FifoBufferItem) :
    contents (items ++ next) = contents items ++ contents next := List.flatMap_append

lemma getBufferLength_pos (owner : Settings) {n : Nat} (hn : 0 < n) :
    0 < FifoBufferItem.getBufferLength owner n := by
  unfold FifoBufferItem.getBufferLength
  dsimp only
  split <;> split <;> omega

def room (owner : Settings) (this : FifoBufferItem) (n : Nat) : Nat :=
  (if this.allocated then this.bufferLength else FifoBufferItem.getBufferLength owner n) -
    this.length

lemma room_create (owner : Settings) (n : Nat) :
    room owner (FifoBufferItem.create owner n) n = FifoBufferItem.getBufferLength owner n := by
  simp [room, FifoBufferItem.create, FifoBufferItem.length]

lemma contents_add_succ (fuel : Nat) (this : FifoBufferItem) {buffer : Bytes} (hne : buffer ≠ []) :
    contents (FifoBufferItem.add owner (fuel + 1) [this] buffer) =
      if buffer.length ≤ room owner this buffer.length then this.data ++ buffer
      else this.data ++ buffer.take (room owner this buffer.length) ++
        contents (FifoBufferItem.add owner fuel
          [FifoBufferItem.create owner (buffer.drop (room owner this buffer.length)).length]
          (buffer.drop (room owner this buffer.length))) := by
  have hlen := List.length_pos_iff.mpr hne
  rw [FifoBufferItem.add, if_neg hne]
  dsimp only [List.isEmpty_nil]
  generalize hitem : (if this.allocated = true then this else
    { this with
      bufferLength := FifoBufferItem.getBufferLength owner buffer.length
      allocated := true }) = item
  have hdata : item.data = this.data := by
    rw [← hitem]
    split <;> rfl
  have hroom : item.bufferLength - item.length = room owner this buffer.length := by
    rw [← hitem, room]
    split <;> rfl
  rw [hroom]
  by_cases hfit : buffer.length ≤ room owner this buffer.length
  · rw [if_pos hfit, if_pos ⟨by omega, hfit⟩, contents_cons, contents_nil, List.append_nil, hdata]
  · rw [if_neg hfit, if_neg (fun h => hfit h.2), if_pos rfl, contents_cons, hdata]

lemma contents_add_create (fuel : Nat) (buffer : Bytes) (hne : buffer ≠ [])
    (hfuel : buffer.length ≤ fuel) :
    contents (FifoBufferItem.add owner fuel [FifoBufferItem.create owner buffer.length] buffer) =
      buffer := by
  induction fuel generalizing buffer with
  | zero => exact absurd (List.length_eq_zero_iff.mp (by omega)) hne
  | succ fuel ih =>
    have hpos := getBufferLength_pos owner (List.length_pos_iff.mpr hne)
    rw [contents_add_succ fuel _ hne, room_create]
    by_cases hfit : buffer.length ≤ FifoBufferItem.getBufferLength owner buffer.length
    · rw [if_pos hfit]
      rfl
    · have hrest : (buffer.drop (FifoBufferItem.getBufferLength owner buffer.length)).length =
          buffer.length - FifoBufferItem.getBufferLength owner buffer.length := List.length_drop
      rw [if_neg hfit, ih _ (List.length_pos_iff.mp (by omega)) (by omega), List.append_assoc,
        List.take_append_drop]
      rfl

lemma contents_add (this : FifoBufferItem) (buffer : Bytes) :
    contents (FifoBufferItem.add owner (buffer.length + 1) [this] buffer) =
      this.data ++ buffer := by
  by_cases hne : buffer = []
  · rw [FifoBufferItem.add, if_pos hne, hne]
    rfl
  · rw [contents_add_succ _ _ hne]
    by_cases hfit : buffer.length ≤ room owner this buffer.length
    · rw [if_pos hfit]
    · have hrest : (buffer.drop (room owner this buffer.length)).length =
          buffer.length - room owner this buffer.length := List.length_drop
      rw [if_neg hfit, contents_add_create _ _ (List.length_pos_iff.mp (by omega)) (by omega),
        List.append_assoc, List.take_append_drop]

lemma foldl_add32 (items : List FifoBufferItem) (size : Nat)
    (h : size + (contents items).length < 2 ^ 32) :
    items.foldl (fun size iter => add32 size iter.length) size =
      size + (contents items).length := by
  induction items generalizing size with
  | nil => rfl
  | cons i items ih =>
    rw [contents_cons, List.length_append] at h ⊢
    have hi : i.length = i.data.length := rfl
    rw [List.foldl_cons, add32_eq (by omega), ih _ (by omega)]
    omega

lemma size_eq {b : FifoBuffer} (h : (contents b.first).length < 2 ^ 32) :
    b.size = (contents b.first).length := by
  rw [FifoBuffer.size, foldl_add32 _ _ (by omega), Nat.zero_add]

lemma copyItems_eq (getSize getPos : Nat) (items : List FifoBufferItem) (allSize got : Nat)
    (hsize : allSize + (contents items).length < 2 ^ 32) (hgot : got = 0 ∨ getPos ≤ allSize) :
    FifoBuffer.copyItems getSize getPos items allSize got =
      ((contents items).drop (getPos - allSize)).take (getSize - got) := by
  induction items generalizing allSize got with
  | nil => simp [FifoBuffer.copyItems]
  | cons iter items ih =>
    rw [contents_cons, List.length_append] at hsize
    have hlen : iter.length = iter.data.length := rfl
    have hadd : add32 allSize iter.length = allSize + iter.length := add32_eq (by omega)
    rw [FifoBuffer.copyItems, hadd, contents_cons]
    by_cases hmore : got < getSize
    · rw [if_pos hmore]
      by_cases hreach : allSize + iter.length > getPos
      · rw [if_pos hreach]
        have hoffset : (if allSize < getPos then getPos - allSize else 0) = getPos - allSize := by
          split
          · rfl
          · omega
        have hpast : getPos - (allSize + iter.length) = 0 := by omega
        dsimp only
        rw [hoffset, ih _ _ (by omega) (Or.inr (by omega)), hpast, List.drop_zero,
          List.drop_append_of_le_length (by omega), slice]
        have hdrop : (iter.data.drop (getPos - allSize)).length =
            iter.length - (getPos - allSize) := by rw [List.length_drop, hlen]
        rw [List.take_append, hdrop]
        congr 1
        · rw [← hdrop, min_comm, ← List.take_eq_take_min]
        · congr 1
          omega
      · rw [if_neg hreach, ih _ _ (by omega) (by omega)]
        have hskip : iter.data.drop (getPos - allSize) = [] :=
          List.drop_of_length_le (by omega)
        rw [List.drop_append, hskip, List.nil_append]
        congr 2
        omega
    · rw [if_neg hmore, Nat.sub_eq_zero_of_le (by omega), List.take_zero]

lemma dropRead_eq (items : List FifoBufferItem) (getPos : Nat)
    (h : getPos ≤ (contents items).length) :
    ∃ freed, contents items = freed ++ contents (FifoBuffer.dropRead items getPos).1 ∧
      getPos = freed.length + (FifoBuffer.dropRead items getPos).2 := by
  induction items generalizing getPos with
  | nil => exact ⟨[], by simp [FifoBuffer.dropRead]⟩
  | cons first next ih =>
    rw [FifoBuffer.dropRead]
    by_cases hread : getPos > first.length
    · rw [contents_cons, List.length_append] at h
      have hlen : first.length = first.data.length := rfl
      obtain ⟨freed, hcontents, hpos⟩ := ih (getPos - first.length) (by omega)
      rw [if_pos hread]
      refine ⟨first.data ++ freed, ?_, ?_⟩
      · rw [contents_cons, List.append_assoc, ← hcontents]
      · rw [List.length_append]
        omega
    · rw [if_neg hread]
      exact ⟨[], by simp⟩

end Chain

/-! ## Steps -/

section Steps
variable {s : State}

/-- The bytes in the chain are what was added and not deleted, and those before `getPos` were
returned. -/
structure Inv (s : State) : Prop where
  unlocked : s.buffer.sync = false
  enabled : s.buffer.disable = false
  pos : s.buffer.getPos ≤ (contents s.buffer.first).length
  bytes : ∃ freed, s.added = freed ++ contents s.buffer.first ∧
    s.returned = freed ++ (contents s.buffer.first).take s.buffer.getPos

/-- What a reader may expect of a state. -/
structure Correct (s : State) : Prop where
  order : s.returned <+: s.added
  size : s.buffer.sizeGet = some (s.added.length - s.returned.length)

/-- A `get` that returns something returns what was asked for, or all there is. -/
def Answers (s : State) : Op → Prop
  | .add _ => True
  | .get r => ∀ out b, s.buffer.get r = some (some out, b) →
      out.length = if r = 0 then s.added.length - s.returned.length
        else min r (s.added.length - s.returned.length)

lemma lock_eq {b : FifoBuffer} (h : b.sync = false) : b.lock = some { b with sync := true } := by
  rw [FifoBuffer.lock, h]
  rfl

lemma Inv.length_le (h : Inv s) :
    (contents s.buffer.first).length ≤ s.added.length ∧
      s.added.length - s.returned.length =
        (contents s.buffer.first).length - s.buffer.getPos := by
  obtain ⟨freed, hadded, hreturned⟩ := h.bytes
  rw [hadded, hreturned]
  simp only [List.length_append, List.length_take]
  omega

lemma Inv.correct (h : Inv s) (hsize : s.added.length < 2 ^ 32) : Correct s where
  order := by
    obtain ⟨freed, hadded, hreturned⟩ := h.bytes
    rw [hadded, hreturned]
    exact (List.prefix_append_right_inj freed).mpr (List.take_prefix _ _)
  size := by
    obtain ⟨hle, hunread⟩ := h.length_le
    rw [FifoBuffer.sizeGet, lock_eq h.unlocked]
    change some (sub32 s.buffer.size s.buffer.getPos) = _
    rw [size_eq (by omega), sub32_eq (by omega) h.pos, hunread]

lemma contents_last (items : List FifoBufferItem) (owner : Settings) (buffer : Bytes)
    (hne : items ≠ []) :
    contents (items.dropLast ++ FifoBufferItem.add owner (buffer.length + 1)
      (items.drop (items.length - 1)) buffer) = contents items ++ buffer := by
  have hlast : items.drop (items.length - 1) = [items.getLast hne] := by
    rw [List.drop_length_sub_one hne]
  have hsplit := congrArg contents (List.dropLast_append_getLast hne)
  rw [contents_append] at hsplit
  rw [hlast, contents_append, contents_add, ← hsplit]
  simp

lemma add_cases {b : FifoBuffer} (hlock : b.sync = false) (henabled : b.disable = false)
    (buffer : Bytes) :
    b.add buffer = some (false, b) ∨
    ∃ first, b.add buffer = some (true, { b with first := first, sync := false }) ∧
      contents first = contents b.first ++ buffer := by
  have hunlock : { b with sync := false } = b := by rw [← hlock]
  have hsize : ({ b with sync := true } : FifoBuffer).size = b.size := rfl
  unfold FifoBuffer.add
  by_cases hne : buffer = []
  · rw [if_pos hne]
    exact Or.inl rfl
  · rw [if_neg hne, lock_eq hlock, Option.bind_eq_bind, Option.bind_some]
    rw [if_neg (by simp [henabled]), hsize]
    by_cases hfull : b.settings.maxSize ≠ 0 ∧ add32 b.size buffer.length > b.settings.maxSize
    · rw [if_pos hfull]
      exact Or.inl (congrArg (fun b => some (false, b)) hunlock)
    · rw [if_neg hfull]
      refine Or.inr ⟨_, rfl, ?_⟩
      cases hfirst : b.first with
      | nil =>
        simp only [List.isEmpty_nil, if_true]
        rw [contents_last _ _ _ (by simp)]
        rfl
      | cons first next =>
        simp only [List.isEmpty_cons, Bool.false_eq_true, if_false]
        exact contents_last _ _ _ (by simp)

lemma Inv.add (h : Inv s) (buffer : Bytes) :
    ∃ t, step s (.add buffer) = some t ∧ Inv t ∧
      t.added.length ≤ s.added.length + buffer.length := by
  obtain ⟨freed, hadded, hreturned⟩ := h.bytes
  rcases add_cases h.unlocked h.enabled buffer with hrefused | ⟨first, htaken, hcontents⟩
  · refine ⟨s, ?_, h, by omega⟩
    rw [step, hrefused]
    rfl
  · refine ⟨_, by rw [step, htaken]; rfl, ?_, by simp⟩
    constructor
    · rfl
    · exact h.enabled
    · rw [hcontents, List.length_append]
      exact h.pos.trans (Nat.le_add_right _ _)
    · refine ⟨freed, ?_, ?_⟩
      · dsimp only
        rw [if_pos rfl, hcontents, hadded, List.append_assoc]
      · dsimp only
        rw [hcontents, List.take_append_of_le_length h.pos, hreturned]

def granted (unread r : Nat) : Nat := if r = 0 ∨ unread < r then unread else r

lemma granted_eq (unread r : Nat) : granted unread r = if r = 0 then unread else min r unread := by
  unfold granted
  split <;> split <;> omega

lemma granted_le (unread r : Nat) : granted unread r ≤ unread := by
  unfold granted
  split <;> omega

lemma getBytes_eq {b : FifoBuffer} (henabled : b.disable = false)
    (hsize : (contents b.first).length < 2 ^ 32) (r pos : Nat) :
    b.getBytes r pos = if pos < (contents b.first).length then
        some (granted ((contents b.first).length - pos) r,
          ((contents b.first).drop pos).take (granted ((contents b.first).length - pos) r))
      else none := by
  unfold FifoBuffer.getBytes
  rw [henabled, if_neg (by decide), size_eq hsize]
  dsimp only
  by_cases hpos : pos < (contents b.first).length
  · rw [if_neg (by omega), if_pos hpos, ← granted, copyItems_eq _ _ _ _ _ (by omega) (Or.inl rfl)]
    rfl
  · rw [if_pos (by omega), if_neg hpos]

section Get
variable {b : FifoBuffer} (hlock : b.sync = false) (henabled : b.disable = false)
  (hsize : (contents b.first).length < 2 ^ 32) (r : Nat)
include hlock henabled hsize

lemma get_some (hpos : b.getPos < (contents b.first).length) :
    b.get r = some
      (some (((contents b.first).drop b.getPos).take
        (granted ((contents b.first).length - b.getPos) r)),
      { b with
        first := (FifoBuffer.dropRead b.first
          (b.getPos + granted ((contents b.first).length - b.getPos) r)).1
        getPos := (FifoBuffer.dropRead b.first
          (b.getPos + granted ((contents b.first).length - b.getPos) r)).2
        sync := false }) := by
  have hbytes : FifoBuffer.getBytes { b with sync := true } r b.getPos = _ :=
    getBytes_eq henabled hsize r b.getPos
  have hgranted := granted_le ((contents b.first).length - b.getPos) r
  rw [if_pos hpos] at hbytes
  unfold FifoBuffer.get
  rw [lock_eq hlock, Option.bind_eq_bind, Option.bind_some]
  rw [hbytes]
  dsimp only
  rw [add32_eq (by omega)]
  rfl

lemma get_none (hpos : b.getPos = (contents b.first).length) :
    b.get r = some (none, { b with sync := true }) := by
  have hbytes : FifoBuffer.getBytes { b with sync := true } r b.getPos = _ :=
    getBytes_eq henabled hsize r b.getPos
  rw [if_neg (by omega)] at hbytes
  unfold FifoBuffer.get
  rw [lock_eq hlock, Option.bind_eq_bind, Option.bind_some]
  rw [hbytes]
  rfl

end Get

lemma Inv.get (h : Inv s) (hsize : s.added.length < 2 ^ 32) (r : Nat)
    (hunread : s.returned.length < s.added.length) :
    ∃ t, step s (.get r) = some t ∧ Inv t ∧ t.added = s.added ∧ Answers s (.get r) := by
  obtain ⟨hle, hrest⟩ := h.length_le
  have hget := get_some h.unlocked h.enabled (hle.trans_lt hsize) r (by omega)
  set unread := (contents s.buffer.first).length - s.buffer.getPos with hunreadDef
  have hgranted := granted_le unread r
  obtain ⟨dropped, hcontents, hpos⟩ := dropRead_eq s.buffer.first
    (s.buffer.getPos + granted unread r) (by omega)
  obtain ⟨freed, hadded, hreturned⟩ := h.bytes
  refine ⟨_, by rw [step, hget]; rfl, ?_, ?_, ?_⟩
  · generalize FifoBuffer.dropRead s.buffer.first (s.buffer.getPos + granted unread r) = rest
      at hcontents hpos ⊢
    have hlen := congrArg List.length hcontents
    rw [List.length_append] at hlen
    constructor
    · rfl
    · exact h.enabled
    · dsimp only
      omega
    · refine ⟨freed ++ dropped, ?_, ?_⟩
      · rw [hadded, List.append_assoc, ← hcontents]
      · -- what was returned before and now is the contents up to the new position
        dsimp only [Option.getD_some]
        rw [hreturned, List.append_assoc, List.append_assoc, ← List.take_add, hpos, hcontents,
          List.take_length_add_append]
  · rfl
  · intro out b hout
    rw [hget] at hout
    obtain rfl : _ = out := Option.some.inj (Prod.mk.inj (Option.some.inj hout)).1
    rw [hrest, ← granted_eq, List.length_take, List.length_drop]
    omega

lemma Inv.get_empty (h : Inv s) (hsize : s.added.length < 2 ^ 32) (r : Nat)
    (hunread : s.added.length ≤ s.returned.length) :
    ∃ t, step s (.get r) = some t ∧ ¬Correct t := by
  obtain ⟨hle, hrest⟩ := h.length_le
  have hpos := h.pos
  have hget := get_none h.unlocked h.enabled (hle.trans_lt hsize) r (by omega)
  refine ⟨_, by rw [step, hget]; rfl, ?_⟩
  intro hcorrect
  cases hcorrect.size

end Steps

/-! ## Runs -/

/-- All calls return, with what a queue of bytes returns, and between them the size is the number
of the bytes that were not returned yet. -/
def IsFifo : State → List Op → Prop
  | s, [] => Correct s
  | s, op :: ops => Correct s ∧ Answers s op ∧ ∃ t, step s op = some t ∧ IsFifo t ops

/-- Every `get` is called when there are bytes to return. -/
def GetsFind : State → List Op → Prop
  | _, [] => True
  | s, .add buffer :: ops => ∀ t, step s (.add buffer) = some t → GetsFind t ops
  | s, .get r :: ops =>
    s.returned.length < s.added.length ∧ ∀ t, step s (.get r) = some t → GetsFind t ops

/-- The bytes that the calls of `add` bring. -/
def totalBytes : List Op → Nat
  | [] => 0
  | .add buffer :: ops => buffer.length + totalBytes ops
  | .get _ :: ops => totalBytes ops

section Runs
variable {s t : State} {ops : List Op}

lemma isFifo_cons {op : Op} (ht : step s op = some t) :
    IsFifo s (op :: ops) ↔ Correct s ∧ Answers s op ∧ IsFifo t ops := by
  constructor
  · rintro ⟨hcorrect, hanswers, t', ht', hfifo⟩
    obtain rfl : t = t' := Option.some.inj (ht.symm.trans ht')
    exact ⟨hcorrect, hanswers, hfifo⟩
  · rintro ⟨hcorrect, hanswers, hfifo⟩
    exact ⟨hcorrect, hanswers, t, ht, hfifo⟩

lemma getsFind_rest {op : Op} (ht : step s op = some t) :
    (∀ t', step s op = some t' → GetsFind t' ops) ↔ GetsFind t ops := by
  constructor
  · intro h
    exact h t ht
  · intro h t' ht'
    obtain rfl : t = t' := Option.some.inj (ht.symm.trans ht')
    exact h

lemma IsFifo.correct (h : IsFifo s ops) : Correct s := by
  cases ops with
  | nil => exact h
  | cons op ops => exact h.1

end Runs

lemma Inv.isFifo_iff {s : State} (h : Inv s) (ops : List Op)
    (hsize : s.added.length + totalBytes ops < 2 ^ 32) : IsFifo s ops ↔ GetsFind s ops := by
  induction ops generalizing s with
  | nil => exact iff_of_true (h.correct (by omega)) trivial
  | cons op ops ih =>
    have hcorrect := h.correct (by omega)
    cases op with
    | add buffer =>
      rw [totalBytes] at hsize
      obtain ⟨t, ht, hinv, hadded⟩ := h.add buffer
      rw [isFifo_cons ht, GetsFind, getsFind_rest ht, ih hinv (by omega)]
      exact ⟨fun hfind => hfind.2.2, fun hfind => ⟨hcorrect, trivial, hfind⟩⟩
    | get r =>
      rw [totalBytes] at hsize
      by_cases hunread : s.returned.length < s.added.length
      · obtain ⟨t, ht, hinv, hadded, hanswers⟩ := h.get (by omega) r hunread
        rw [isFifo_cons ht, GetsFind, getsFind_rest ht, ih hinv (by rw [hadded]; exact hsize)]
        exact ⟨fun hfind => ⟨hunread, hfind.2.2⟩, fun hfind => ⟨hcorrect, hanswers, hfind.2⟩⟩
      · obtain ⟨t, ht, hwrong⟩ := h.get_empty (by omega) r (by omega)
        rw [isFifo_cons ht]
        exact iff_of_false (fun hfifo => hwrong hfifo.2.2.correct) (fun hfind => hunread hfind.1)

lemma inv_start (settings : Settings) : Inv (start settings) where
  unlocked := rfl
  enabled := rfl
  pos := le_rfl
  bytes := ⟨[], rfl, rfl⟩

/-- A sequence of calls on an empty buffer is served first in, first out, exactly when every
`get` finds bytes to return. -/
theorem fifoBuffer_isFifo_iff (settings : Settings) (ops : List Op) (h : totalBytes ops < 2 ^ 32) :
    IsFifo (start settings) ops ↔ GetsFind (start settings) ops :=
  (inv_start settings).isFifo_iff ops (by simpa [start] using h)

theorem fifoBuffer_isFifo_iff_example :
    IsFifo (start { maxItemBufferLength := 2 }) [.add [1, 2, 3], .get 0, .add [4], .get 5] := by
  refine (fifoBuffer_isFifo_iff _ _ (by decide)).mpr ?_
  intro t ht
  obtain rfl := Option.some.inj ht
  refine ⟨by decide, fun t ht => ?_⟩
  obtain rfl := Option.some.inj ht
  intro t ht
  obtain rfl := Option.some.inj ht
  exact ⟨by decide, fun _ _ => trivial⟩

/-- A `get` on an empty buffer keeps the lock: `size_get` and the next `add` do not return. -/
theorem fifoBuffer_keeps_lock :
    ∃ s, step (start {}) (.get 600) = some s ∧ s.buffer.sizeGet = none ∧
      step s (.add [1]) = none ∧ ¬IsFifo (start {}) [.get 600] := by
  refine ⟨_, rfl, rfl, rfl, ?_⟩
  rintro ⟨-, -, t, ht, hfifo⟩
  obtain rfl := Option.some.inj ht
  cases hfifo.size

end VoipMonitor.Fifo
