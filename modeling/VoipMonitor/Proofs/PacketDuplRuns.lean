import VoipMonitor.Model.PacketDupl

/-!
# What the buffers remember

The chain of a slot in the hash table has one item for each hash, with the time of its latest
call, unless that time was over the limit. A slot of the simple buffer has the latest hash of the
slot, but before the first one it has zeros, which are also what some hashes leave there.
-/

namespace VoipMonitor.PacketDupl
open VoipMonitor.Library PacketDuplBuffer

/-! ## Hashes -/

section Hashes
variable (d : DedupType) (h : PacketDuplCheck)

def PacketDuplCheck.value : Bytes := slice h.bytes 0 d.hashSize

def PacketDuplCheck.rest : Bytes := slice h.bytes 2 (d.hashSize - 2)

lemma DedupType.hashSize_bounds : 4 ≤ d.hashSize ∧ d.hashSize ≤ 16 := by
  cases d <;> decide

lemma PacketDuplCheck.value_eq : h.value d = slice h.bytes 0 2 ++ h.rest d := by
  have hsize := d.hashSize_bounds
  have hsplit := slice_append_slice h.bytes 0 2 (d.hashSize - 2)
  rw [Nat.zero_add] at hsplit
  rw [value, rest, hsplit]
  congr 1
  omega

lemma leNat_inj {a b : Bytes} (hlen : a.length = b.length) (h : leNat a = leNat b) : a = b := by
  induction a generalizing b with
  | nil => exact (List.length_eq_zero_iff.mp hlen.symm).symm
  | cons x a ih =>
    cases b with
    | nil => cases hlen
    | cons y b =>
      rw [leNat, leNat] at h
      have hx := x.toNat_lt
      have hy := y.toNat_lt
      have hhead : x.toNat = y.toNat := by omega
      have htail : leNat a = leNat b := by omega
      rw [UInt8.toNat_inj.mp hhead, ih (Nat.succ.inj hlen) htail]

lemma PacketDuplCheck.value_eq_iff (h g : PacketDuplCheck) :
    h.value d = g.value d ↔ h.first16Bits = g.first16Bits ∧ h.rest d = g.rest d := by
  have hh : (slice h.bytes 0 2).length = 2 := length_slice (by rw [h.length_bytes]; norm_num)
  have hg : (slice g.bytes 0 2).length = 2 := length_slice (by rw [g.length_bytes]; norm_num)
  rw [value_eq, value_eq]
  constructor
  · intro heq
    obtain ⟨hfirst, hrest⟩ := List.append_inj heq (hh.trans hg.symm)
    exact ⟨congrArg leNat hfirst, hrest⟩
  · rintro ⟨hfirst, hrest⟩
    rw [leNat_inj (hh.trans hg.symm) hfirst, hrest]

end Hashes

/-! ## Chains -/

section Chains
variable {limit now : Nat} {key : Bytes} {chain : List HashItem}

lemma sameHash_iff (key hash : Bytes) : sameHash key hash = true ↔ key = hash := by
  rw [sameHash, Bool.and_eq_true, beq_iff_eq, beq_iff_eq]
  constructor
  · rintro ⟨hfirst, hrest⟩
    rw [← List.take_append_drop 1 key, hfirst, hrest, List.take_append_drop]
  · rintro rfl
    exact ⟨rfl, rfl⟩

def HashItem.live (limit : Nat) (i : HashItem) : Bool := decide (limit ≤ i.time)

lemma searchChain_miss (h : (searchChain limit now key chain).1 = false) :
    (searchChain limit now key chain).2 = chain.filter (HashItem.live limit) ∧
    ∀ i ∈ chain, limit ≤ i.time → i.hash ≠ key := by
  induction chain with
  | nil => exact ⟨rfl, by simp⟩
  | cons hi next ih =>
    rw [searchChain] at h ⊢
    by_cases hold : hi.time < limit
    · rw [if_pos hold] at h ⊢
      obtain ⟨hchain, hother⟩ := ih h
      refine ⟨?_, ?_⟩
      · rw [hchain, List.filter_cons_of_neg (by simpa [HashItem.live] using hold)]
      · intro i hi' hlive
        rcases List.mem_cons.mp hi' with rfl | hi'
        · omega
        · exact hother i hi' hlive
    · rw [if_neg hold] at h ⊢
      by_cases hsame : sameHash key hi.hash = true
      · rw [if_pos hsame] at h
        cases h
      · rw [if_neg hsame] at h ⊢
        obtain ⟨hchain, hother⟩ := ih h
        refine ⟨?_, ?_⟩
        · dsimp only
          rw [hchain, List.filter_cons_of_pos (by simpa [HashItem.live] using hold)]
        · intro i hi' hlive
          rcases List.mem_cons.mp hi' with rfl | hi'
          · exact fun heq => hsame ((sameHash_iff _ _).mpr heq.symm)
          · exact hother i hi' hlive

lemma searchChain_hit (h : (searchChain limit now key chain).1 = true) :
    ∃ before time after, chain = before ++ ⟨time, key⟩ :: after ∧ limit ≤ time ∧
      (searchChain limit now key chain).2 =
        before.filter (HashItem.live limit) ++ ⟨now, key⟩ :: after := by
  induction chain with
  | nil => cases h
  | cons hi next ih =>
    rw [searchChain] at h ⊢
    by_cases hold : hi.time < limit
    · rw [if_pos hold] at h ⊢
      obtain ⟨before, time, after, rfl, hlive, hchain⟩ := ih h
      refine ⟨hi :: before, time, after, rfl, hlive, ?_⟩
      rw [hchain, List.filter_cons_of_neg (by simpa [HashItem.live] using hold)]
    · rw [if_neg hold] at h ⊢
      by_cases hsame : sameHash key hi.hash = true
      · rw [if_pos hsame]
        obtain rfl := (sameHash_iff _ _).mp hsame
        exact ⟨[], hi.time, next, rfl, by omega, rfl⟩
      · rw [if_neg hsame] at h ⊢
        obtain ⟨before, time, after, rfl, hlive, hchain⟩ := ih h
        refine ⟨hi :: before, time, after, rfl, hlive, ?_⟩
        dsimp only
        rw [hchain, List.filter_cons_of_pos (by simpa [HashItem.live] using hold)]
        rfl

lemma searchChain_iff :
    (searchChain limit now key chain).1 = true ↔ ∃ i ∈ chain, i.hash = key ∧ limit ≤ i.time := by
  constructor
  · intro h
    obtain ⟨before, time, after, rfl, hlive, -⟩ := searchChain_hit h
    exact ⟨⟨time, key⟩, by simp, rfl, hlive⟩
  · rintro ⟨i, hi, hkey, hlive⟩
    by_contra hmiss
    exact (searchChain_miss (Bool.eq_false_iff.mpr hmiss)).2 i hi hlive hkey

def chainAfter (limit now : Nat) (key : Bytes) (chain : List HashItem) : List HashItem :=
  let r := searchChain limit now key chain
  if r.1 then r.2 else ⟨now, key⟩ :: r.2

/-- A call leaves one item with its hash and its time. Of the others it may drop those over the
limit. -/
structure ChainStep (limit now : Nat) (key : Bytes) (chain result : List HashItem) : Prop where
  distinct : (result.map HashItem.hash).Nodup
  own : ⟨now, key⟩ ∈ result
  old : ∀ i ∈ result, i = ⟨now, key⟩ ∨ i ∈ chain ∧ i.hash ≠ key
  kept : ∀ i ∈ chain, i.hash ≠ key → limit ≤ i.time → i ∈ result

lemma chainStep (limit now : Nat) (key : Bytes) (hchain : (chain.map HashItem.hash).Nodup) :
    ChainStep limit now key chain (chainAfter limit now key chain) := by
  unfold chainAfter
  cases hr : (searchChain limit now key chain).1 with
  | false =>
    obtain ⟨hresult, hother⟩ := searchChain_miss hr
    have hlive : ∀ i ∈ chain.filter (HashItem.live limit), i ∈ chain ∧ i.hash ≠ key := by
      intro i hi
      obtain ⟨hmem, hlimit⟩ := List.mem_filter.mp hi
      exact ⟨hmem, hother i hmem (of_decide_eq_true hlimit)⟩
    simp only [hr, hresult, Bool.false_eq_true, if_false]
    constructor
    · rw [List.map_cons, List.nodup_cons]
      refine ⟨?_, hchain.sublist (List.filter_sublist.map _)⟩
      intro hmem
      obtain ⟨i, hi, hkey⟩ := List.mem_map.mp hmem
      exact (hlive i hi).2 hkey
    · exact List.mem_cons_self
    · intro i hi
      rcases List.mem_cons.mp hi with rfl | hi
      · exact Or.inl rfl
      · exact Or.inr (hlive i hi)
    · intro i hi _ hlimit
      exact List.mem_cons_of_mem _ (List.mem_filter.mpr ⟨hi, decide_eq_true hlimit⟩)
  | true =>
    obtain ⟨before, time, after, rfl, -, hresult⟩ := searchChain_hit hr
    rw [List.map_append, List.map_cons] at hchain
    have hnot := List.nodup_middle.mp hchain
    have hne : ∀ i, i ∈ before ∨ i ∈ after → i.hash ≠ key := by
      intro i hi hkey
      apply (List.nodup_cons.mp hnot).1
      rw [← List.map_append]
      exact List.mem_map.mpr ⟨i, List.mem_append.mpr hi, hkey⟩
    simp only [hr, hresult, if_true]
    constructor
    · rw [List.map_append, List.map_cons]
      exact hchain.sublist ((List.filter_sublist.map _).append (List.Sublist.refl _))
    · simp
    · intro i hi
      rcases List.mem_append.mp hi with hi | hi
      · have hmem := (List.mem_filter.mp hi).1
        exact Or.inr ⟨List.mem_append_left _ hmem, hne i (Or.inl hmem)⟩
      · rcases List.mem_cons.mp hi with rfl | hi
        · exact Or.inl rfl
        · exact Or.inr ⟨by simp [hi], hne i (Or.inr hi)⟩
    · intro i hi hkey hlimit
      rcases List.mem_append.mp hi with hi | hi
      · exact List.mem_append_left _ (List.mem_filter.mpr ⟨hi, decide_eq_true hlimit⟩)
      · rcases List.mem_cons.mp hi with rfl | hi
        · exact absurd rfl hkey
        · simp [hi]

end Chains

/-! ## The hash table -/

section Table
variable {d : DedupType} {lifetime : Nat} {history : List Call} {b : PacketDuplBuffer} {c : Call}

def Call.isFor (d : DedupType) (slot : Nat) (key : Bytes) (c : Call) : Bool :=
  c.hash.first16Bits == slot && c.hash.rest d == key

/-- The clock does not go back and is not below the lifetime. -/
structure Clocked (lifetime : Nat) (calls : List Call) : Prop where
  call : ∀ c ∈ calls, lifetime ≤ c.now ∧ c.now ≤ c.nowStore ∧ c.nowStore < 2 ^ 32
  order : calls.Pairwise (fun earlier later => earlier.nowStore ≤ later.now)

/-- What the table knows of the calls so far. The latest call of a hash has an item, unless it
was over the limit in some later call. -/
structure Remembers (d : DedupType) (lifetime : Nat) (history : List Call)
    (b : PacketDuplBuffer) : Prop where
  type : b.type = .hashtable
  dedupType : b.dedupType = d
  lifetime_eq : b.lifetime = lifetime
  size : b.hashSizeSimpleCmp = d.hashSize - 2
  distinct : ∀ slot, ((b.hashTable slot).map HashItem.hash).Nodup
  item : ∀ slot, ∀ i ∈ b.hashTable slot,
    ∃ e, latest (Call.isFor d slot i.hash) history = some e ∧ e.nowStore = i.time
  call : ∀ slot key e, latest (Call.isFor d slot key) history = some e →
    ⟨e.nowStore, key⟩ ∈ b.hashTable slot ∨ ∃ later ∈ history, e.nowStore + lifetime < later.now

lemma remembers_create (d : DedupType) (optLifetime : Nat) :
    Remembers d (optLifetime % 2 ^ 16) [] (create .hashtable d optLifetime) where
  type := rfl
  dedupType := rfl
  lifetime_eq := rfl
  size := rfl
  distinct := fun _ => List.nodup_nil
  item := by
    intro slot i hi
    cases hi
  call := by
    intro slot key e he
    cases he

lemma Remembers.checkDupl_eq (h : Remembers d lifetime history b) (hnow : c.now < 2 ^ 32)
    (hlife : lifetime ≤ c.now) :
    b.checkDupl c.hash d c.now c.nowStore =
      ((searchChain (c.now - lifetime) c.nowStore (c.hash.rest d)
          (b.hashTable c.hash.first16Bits)).1,
        { b with
          hashTable := Function.update b.hashTable c.hash.first16Bits
            (chainAfter (c.now - lifetime) c.nowStore (c.hash.rest d)
              (b.hashTable c.hash.first16Bits)) }) := by
  have hstored : b.stored c.hash = c.hash.rest d := by
    rw [stored, h.size]
    rfl
  have hlimit : sub32 c.now b.lifetime = c.now - lifetime := by
    rw [h.lifetime_eq, sub32_eq hnow hlife]
  unfold checkDupl checkDuplHashtable store storeHashtable chainAfter
  simp only [h.dedupType, ne_eq, not_true_eq_false, if_false, h.type, hlimit, hstored]
  cases hr : (searchChain (c.now - lifetime) c.nowStore (c.hash.rest d)
    (b.hashTable c.hash.first16Bits)).1 with
  | false =>
    simp only [Bool.false_eq_true, if_false, Function.update_self, Function.update_idem, stored,
      h.size]
    rfl
  | true => simp

lemma Remembers.search_iff (h : Remembers d lifetime history b)
    (hclock : Clocked lifetime (history ++ [c])) :
    (searchChain (c.now - lifetime) c.nowStore (c.hash.rest d)
      (b.hashTable c.hash.first16Bits)).1 = true ↔
    ∃ e, latest (Call.isFor d c.hash.first16Bits (c.hash.rest d)) history = some e ∧
      c.now - lifetime ≤ e.nowStore := by
  rw [searchChain_iff]
  constructor
  · rintro ⟨i, hi, hkey, hlive⟩
    obtain ⟨e, he, htime⟩ := h.item _ i hi
    rw [hkey] at he
    exact ⟨e, he, by rwa [htime]⟩
  · rintro ⟨e, he, hlive⟩
    rcases h.call _ _ e he with hmem | ⟨later, hlater, hover⟩
    · exact ⟨_, hmem, rfl, hlive⟩
    · have hlast := (List.pairwise_append.mp hclock.order).2.2 later hlater c (by simp)
      have hcall := (hclock.call later (by simp [hlater])).2.1
      omega

lemma Remembers.step (h : Remembers d lifetime history b)
    (hclock : Clocked lifetime (history ++ [c])) :
    Remembers d lifetime (history ++ [c]) (b.checkDupl c.hash d c.now c.nowStore).2 := by
  obtain ⟨hlife, hle, hlt⟩ := hclock.call c (by simp)
  rw [h.checkDupl_eq (by omega) hlife]
  have hstep := chainStep (c.now - lifetime) c.nowStore (c.hash.rest d)
    (h.distinct c.hash.first16Bits)
  constructor
  · exact h.type
  · exact h.dedupType
  · exact h.lifetime_eq
  · exact h.size
  · intro slot
    dsimp only
    by_cases hslot : slot = c.hash.first16Bits
    · subst hslot
      rw [Function.update_self]
      exact hstep.distinct
    · rw [Function.update_of_ne hslot]
      exact h.distinct slot
  · intro slot i hi
    dsimp only at hi
    by_cases hslot : slot = c.hash.first16Bits
    · subst hslot
      rw [Function.update_self] at hi
      rcases hstep.old i hi with rfl | ⟨hold, hne⟩
      · exact ⟨c, by rw [latest_snoc, if_pos (by simp [Call.isFor])], rfl⟩
      · rw [latest_snoc, if_neg (by simp [Call.isFor, hne.symm])]
        exact h.item _ i hold
    · rw [Function.update_of_ne hslot] at hi
      rw [latest_snoc, if_neg (by simp [Call.isFor, Ne.symm hslot])]
      exact h.item slot i hi
  · intro slot key e he
    dsimp only
    rw [latest_snoc] at he
    by_cases hfor : c.isFor d slot key = true
    · rw [if_pos hfor] at he
      obtain rfl := Option.some.inj he
      simp only [Call.isFor, Bool.and_eq_true, beq_iff_eq] at hfor
      obtain ⟨rfl, rfl⟩ := hfor
      rw [Function.update_self]
      exact Or.inl hstep.own
    · rw [if_neg hfor] at he
      rcases h.call slot key e he with hmem | ⟨later, hlater, hover⟩
      · by_cases hslot : slot = c.hash.first16Bits
        · subst hslot
          have hne : key ≠ c.hash.rest d := by
            rintro rfl
            exact hfor (by simp [Call.isFor])
          rw [Function.update_self]
          by_cases hlive : c.now - lifetime ≤ e.nowStore
          · exact Or.inl (hstep.kept _ hmem hne hlive)
          · exact Or.inr ⟨c, by simp, by omega⟩
        · rw [Function.update_of_ne hslot]
          exact Or.inl hmem
      · exact Or.inr ⟨later, by simp [hlater], hover⟩

lemma Clocked.init (h : Clocked lifetime (history ++ [c])) : Clocked lifetime history where
  call := fun e he => h.call e (by simp [he])
  order := (List.pairwise_append.mp h.order).1

lemma remembers_afterCalls (d : DedupType) (optLifetime : Nat) (calls : List Call)
    (hclock : Clocked (optLifetime % 2 ^ 16) calls) :
    Remembers d (optLifetime % 2 ^ 16) calls
      (afterCalls (create .hashtable d optLifetime) d calls) := by
  induction calls using List.reverseRecOn with
  | nil => exact remembers_create d optLifetime
  | append_singleton calls c ih =>
    rw [afterCalls, List.foldl_append, List.foldl_cons, List.foldl_nil]
    exact (ih hclock.init).step hclock

end Table

/-- A call reports a duplicate exactly when there was a call with the same hash and the latest of
them is not older than the lifetime. -/
theorem checkDupl_hashtable_iff (d : DedupType) (optLifetime : Nat) (calls : List Call) (c : Call)
    (hclock : Clocked (create .hashtable d optLifetime).lifetime (calls ++ [c])) :
    answer (create .hashtable d optLifetime) d calls c = true ↔
      ∃ e, latest (fun e => e.hash.value d == c.hash.value d) calls = some e ∧
        c.now - (create .hashtable d optLifetime).lifetime ≤ e.nowStore := by
  have hsame : (fun e : Call => e.hash.value d == c.hash.value d) =
      Call.isFor d c.hash.first16Bits (c.hash.rest d) := by
    funext e
    rw [Call.isFor, Bool.eq_iff_iff, Bool.and_eq_true, beq_iff_eq, beq_iff_eq, beq_iff_eq,
      PacketDuplCheck.value_eq_iff]
  have hremembers := remembers_afterCalls d optLifetime calls hclock.init
  obtain ⟨hlife, hle, hlt⟩ := hclock.call c (by simp)
  rw [answer, hremembers.checkDupl_eq (by omega) hlife, hsame]
  exact hremembers.search_iff hclock

/-- A hash whose first 16 bits are `0x1234`. -/
def sampleHash (third : UInt8) : PacketDuplCheck :=
  ⟨[0x34, 0x12, third, 0, 0, 0, 0, 0, 0, 0, 0, 0, 0, 0, 0, 0], rfl⟩

theorem checkDupl_hashtable_iff_example :
    answer (create .hashtable .md5 10) .md5 [⟨sampleHash 7, 100, 100⟩] ⟨sampleHash 7, 110, 110⟩ =
      true ∧
    ¬answer (create .hashtable .md5 10) .md5 [⟨sampleHash 7, 100, 100⟩]
      ⟨sampleHash 7, 111, 111⟩ = true := by
  constructor
  · rw [checkDupl_hashtable_iff .md5 10 _ _ ⟨by decide, by decide⟩]
    exact ⟨⟨sampleHash 7, 100, 100⟩, by decide, by decide⟩
  · rw [checkDupl_hashtable_iff .md5 10 _ _ ⟨by decide, by decide⟩]
    rintro ⟨e, he, hlive⟩
    obtain rfl : (⟨sampleHash 7, 100, 100⟩ : Call) = e := Option.some.inj he
    revert hlive
    decide

/-! ## The simple buffer -/

section Simple
variable {d : DedupType} {history : List Call} {b : PacketDuplBuffer}

def Call.inSlot (slot : Nat) (c : Call) : Bool := c.hash.first16Bits == slot

def slotBytes (d : DedupType) (history : List Call) (slot : Nat) : Bytes :=
  match latest (Call.inSlot slot) history with
  | some e => e.hash.rest d
  | none => List.replicate (d.hashSize - 2) 0

structure Slots (d : DedupType) (history : List Call) (b : PacketDuplBuffer) : Prop where
  type : b.type = .simple
  dedupType : b.dedupType = d
  size : b.hashSizeSimpleCmp = d.hashSize - 2
  slot : ∀ slot, b.simpleBuffer slot = slotBytes d history slot

lemma Slots.checkDupl_eq (h : Slots d history b) (c : Call) :
    b.checkDupl c.hash d c.now c.nowStore =
      (c.hash.rest d == slotBytes d history c.hash.first16Bits,
        { b with
          simpleBuffer :=
            Function.update b.simpleBuffer c.hash.first16Bits (c.hash.rest d) }) := by
  have hstored : b.stored c.hash = c.hash.rest d := by
    rw [stored, h.size]
    rfl
  unfold checkDupl store
  simp only [h.dedupType, ne_eq, not_true_eq_false, if_false, h.type, hstored, h.slot]
  by_cases hsame : c.hash.rest d = slotBytes d history c.hash.first16Bits
  · have hupdate : Function.update b.simpleBuffer c.hash.first16Bits (c.hash.rest d) =
        b.simpleBuffer := by
      rw [hsame, ← h.slot, Function.update_eq_self]
    rw [if_pos (by simpa using hsame), hupdate, ← h.type, ← h.dedupType]
  · rw [if_neg (by simpa using hsame)]

lemma Slots.step (h : Slots d history b) (c : Call) :
    Slots d (history ++ [c]) (b.checkDupl c.hash d c.now c.nowStore).2 := by
  rw [h.checkDupl_eq]
  refine ⟨h.type, h.dedupType, h.size, fun slot => ?_⟩
  dsimp only
  rw [slotBytes, latest_snoc]
  by_cases hslot : slot = c.hash.first16Bits
  · subst hslot
    rw [Function.update_self, if_pos (by simp [Call.inSlot])]
  · rw [Function.update_of_ne hslot, if_neg (by simp [Call.inSlot, Ne.symm hslot]), h.slot]
    rfl

lemma slots_afterCalls (d : DedupType) (optLifetime : Nat) (calls : List Call) :
    Slots d calls (afterCalls (create .simple d optLifetime) d calls) := by
  induction calls using List.reverseRecOn with
  | nil => exact ⟨rfl, rfl, rfl, fun _ => rfl⟩
  | append_singleton calls c ih =>
    rw [afterCalls, List.foldl_append, List.foldl_cons, List.foldl_nil]
    exact ih.step c

lemma answer_simple (d : DedupType) (optLifetime : Nat) (calls : List Call) (c : Call) :
    answer (create .simple d optLifetime) d calls c = true ↔
      c.hash.rest d = slotBytes d calls c.hash.first16Bits := by
  rw [answer, (slots_afterCalls d optLifetime calls).checkDupl_eq, beq_iff_eq]

end Simple

/-- The answer is that of a buffer that knows the latest hash of each slot. -/
def AnswersExactly (d : DedupType) (optLifetime : Nat) (calls : List Call) (c : Call) : Prop :=
  answer (create .simple d optLifetime) d calls c = true ↔
    ∃ e, latest (Call.inSlot c.hash.first16Bits) calls = some e ∧ e.hash.value d = c.hash.value d

lemma answersExactly_iff (d : DedupType) (optLifetime : Nat) (calls : List Call) (c : Call) :
    AnswersExactly d optLifetime calls c ↔
      (latest (Call.inSlot c.hash.first16Bits) calls = none →
        c.hash.rest d ≠ List.replicate (d.hashSize - 2) 0) := by
  rw [AnswersExactly, answer_simple, slotBytes]
  cases hlatest : latest (Call.inSlot c.hash.first16Bits) calls with
  | none => simp
  | some e =>
    have hslot := (latest_mem hlatest).2
    rw [Call.inSlot, beq_iff_eq] at hslot
    simp [PacketDuplCheck.value_eq_iff, hslot, eq_comm]

/-- All answers to a sequence of hashes are right exactly when no hash that comes first in its
slot has only zeros after the first 16 bits. -/
theorem checkDupl_simple_iff (d : DedupType) (optLifetime : Nat) (calls : List Call) :
    (∀ before c after, calls = before ++ c :: after → AnswersExactly d optLifetime before c) ↔
      ∀ before c after, calls = before ++ c :: after →
        latest (Call.inSlot c.hash.first16Bits) before = none →
        c.hash.rest d ≠ List.replicate (d.hashSize - 2) 0 := by
  constructor
  · intro h before c after hcalls
    exact (answersExactly_iff d optLifetime before c).mp (h before c after hcalls)
  · intro h before c after hcalls
    exact (answersExactly_iff d optLifetime before c).mpr (h before c after hcalls)

/-- The CRC `0x00001234` is taken for a duplicate although nothing came before it. -/
theorem checkDupl_simple_drops_first :
    (sampleHash 0).isEmpty = false ∧
    answer (create .simple .crc32Sw 10) .crc32Sw [] ⟨sampleHash 0, 100, 100⟩ = true ∧
    ¬AnswersExactly .crc32Sw 10 [] ⟨sampleHash 0, 100, 100⟩ := by
  refine ⟨by decide, by decide, ?_⟩
  intro h
  obtain ⟨e, he, -⟩ := h.mp (by decide)
  cases he

end VoipMonitor.PacketDupl
