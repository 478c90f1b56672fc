import VoipMonitor.Proofs.FileStoreRead

/-!
# The queue with spooling is a FIFO

Every block that waits is held in memory or readable in a live file store, each store has pushed
as many blocks as were popped from it and still wait, and the live stores have different ids.
-/

namespace VoipMonitor.StoreQueue
open VoipMonitor.Library VoipMonitor.BlockStore

def QueueState.pending (s : QueueState) : List QueuedBlock := s.popping.toList ++ s.queueStore

def references (id : Nat) (pending : List QueuedBlock) : Nat :=
  pending.countP (fun b => b.idFileStore = id)

def Holds (cfg : QueueConfig) (fileStore : List FileStore) (b : QueuedBlock) (c : PassedBlock) :
    Prop :=
  b.idFileStore = 0 ∧ c = ⟨false, b.store⟩ ∨
    b.idFileStore ≠ 0 ∧ c.spooled = true ∧
      ∃ f ∈ fileStore, f.id = b.idFileStore ∧ ReadableAt cfg f b.filePosition c.store.toBlockContent

def idAt (n : Nat) : Nat := n % (2 ^ 32 - 1) + 1

def lastId (n : Nat) : Nat := if n = 0 then 0 else idAt (n - 1)

lemma nextFileStoreId_lastId (n : Nat) : nextFileStoreId (lastId n) = idAt n := by
  unfold nextFileStoreId lastId idAt
  dsimp only
  split_ifs <;> omega

lemma idAt_ne {n k : Nat} (hk : 0 < k) (h : k < 2 ^ 32 - 1) : idAt (n + k) ≠ idAt n := by
  unfold idAt
  omega

structure QueueInv (cfg : QueueConfig) (s : QueueState) : Prop where
  ids : ∃ start, s.fileStore.map FileStore.id =
      (List.range' start s.fileStore.length).map idAt ∧
    s.lastFileStoreId = lastId (start + s.fileStore.length)
  nodup : (s.fileStore.map FileStore.id).Nodup
  stores : ∀ f ∈ s.fileStore, StoreOk f
  counts : ∀ f ∈ s.fileStore, f.countPush = f.countPop + references f.id s.pending
  blocks : ∃ done rest, s.accepted = done ++ rest ∧ s.popped = done.map (givenBack cfg) ∧
    List.Forall₂ (Holds cfg s.fileStore) s.pending rest
  failed : s.failed = 0

section Steps
variable {cfg : QueueConfig} {s : QueueState}

lemma queueInv_init (cfg : QueueConfig) : QueueInv cfg {} where
  ids := ⟨0, rfl, rfl⟩
  nodup := List.nodup_nil
  stores := nofun
  counts := nofun
  blocks := ⟨[], [], rfl, rfl, .nil⟩
  failed := rfl

lemma Holds.later {as bs : List FileStore} {f g : FileStore} {b : QueuedBlock} {c : PassedBlock}
    (h : Holds cfg (as ++ f :: bs) b c) (hg : FileStore.Later cfg f g) :
    Holds cfg (as ++ g :: bs) b c := by
  obtain hmem | ⟨hid, hspooled, k, hk, hkid, hread⟩ := h
  · exact Or.inl hmem
  · refine Or.inr ⟨hid, hspooled, ?_⟩
    obtain hk | rfl | hk : k ∈ as ∨ k = f ∨ k ∈ bs := by simpa using hk
    · exact ⟨k, by simp [hk], hkid, hread⟩
    · exact ⟨g, by simp, hg.id_eq.trans hkid, hg.readable _ _ hread⟩
    · exact ⟨k, by simp [hk], hkid, hread⟩

lemma Holds.mono {l l' : List FileStore} {b : QueuedBlock} {c : PassedBlock}
    (h : Holds cfg l b c) (hl : ∀ f ∈ l, f.id = b.idFileStore → f ∈ l') : Holds cfg l' b c := by
  obtain hmem | ⟨hid, hspooled, f, hf, hfid, hread⟩ := h
  · exact Or.inl hmem
  · exact Or.inr ⟨hid, hspooled, f, hl f hf hfid, hfid, hread⟩

lemma QueueInv.refers (h : QueueInv cfg s) {b : QueuedBlock} (hb : b ∈ s.pending)
    (hid : b.idFileStore ≠ 0) : ∃ f ∈ s.fileStore, f.id = b.idFileStore := by
  obtain ⟨done, rest, -, -, hholds⟩ := h.blocks
  obtain ⟨c, -, hc⟩ : ∃ c ∈ rest, Holds cfg s.fileStore b c := by
    obtain ⟨i, hi, rfl⟩ := List.mem_iff_getElem.mp hb
    have hi' : i < rest.length := hholds.length_eq ▸ hi
    exact ⟨rest[i], List.getElem_mem hi', (List.forall₂_iff_get.mp hholds).2 i hi hi'⟩
  obtain ⟨h0, -⟩ | ⟨-, -, f, hf, hfid, -⟩ := hc
  · exact absurd h0 hid
  · exact ⟨f, hf, hfid⟩

lemma QueueInv.id_ne_zero (h : QueueInv cfg s) {f : FileStore} (hf : f ∈ s.fileStore) :
    f.id ≠ 0 := by
  obtain ⟨start, hids, -⟩ := h.ids
  have hmem : f.id ∈ s.fileStore.map FileStore.id := List.mem_map_of_mem hf
  rw [hids] at hmem
  obtain ⟨n, -, hn⟩ := List.mem_map.mp hmem
  rw [← hn, idAt]
  omega

lemma QueueInv.update (h : QueueInv cfg s) {t : QueueState} {as bs : List FileStore}
    {f g : FileStore} (hs : s.fileStore = as ++ f :: bs) (ht : t.fileStore = as ++ g :: bs)
    (hg : FileStore.Later cfg f g) (hlast : t.lastFileStoreId = s.lastFileStoreId)
    (hcount : g.countPush = g.countPop + references f.id t.pending)
    (hother : ∀ id, id ≠ f.id → references id t.pending = references id s.pending)
    (hblocks : ∃ done rest, t.accepted = done ++ rest ∧ t.popped = done.map (givenBack cfg) ∧
      List.Forall₂ (Holds cfg t.fileStore) t.pending rest)
    (hfailed : t.failed = s.failed) : QueueInv cfg t := by
  obtain ⟨start, hids, hid⟩ := h.ids
  have hmap : t.fileStore.map FileStore.id = s.fileStore.map FileStore.id := by
    rw [hs, ht]
    simp [hg.id_eq]
  have hlen : t.fileStore.length = s.fileStore.length := by
    rw [hs, ht]
    simp
  have hmem : ∀ k ∈ t.fileStore, k = g ∨ k ∈ s.fileStore ∧ k.id ≠ f.id := by
    have hnodup := h.nodup
    rw [hs] at hnodup
    simp only [List.map_append, List.map_cons, List.nodup_append, List.nodup_cons,
      List.mem_cons] at hnodup
    intro k hk
    rw [ht] at hk
    obtain hk | rfl | hk : k ∈ as ∨ k = g ∨ k ∈ bs := by simpa using hk
    · refine Or.inr ⟨by rw [hs]; simp [hk], ?_⟩
      exact hnodup.2.2 _ (List.mem_map_of_mem hk) _ (Or.inl rfl)
    · exact Or.inl rfl
    · refine Or.inr ⟨by rw [hs]; simp [hk], ?_⟩
      intro heq
      exact hnodup.2.1.1 (heq ▸ List.mem_map_of_mem hk)
  refine ⟨⟨start, ?_, ?_⟩, ?_, ?_, ?_, hblocks, hfailed.trans h.failed⟩
  · rw [hmap, hlen, hids]
  · rw [hlast, hlen, hid]
  · rw [hmap]
    exact h.nodup
  · intro k hk
    obtain rfl | ⟨hk, -⟩ := hmem k hk
    · exact hg.ok
    · exact h.stores k hk
  · intro k hk
    obtain rfl | ⟨hk, hne⟩ := hmem k hk
    · rw [hcount, hg.id_eq]
    · rw [hother k.id hne]
      exact h.counts k hk

lemma QueueInv.changeStore (h : QueueInv cfg s) {as bs : List FileStore} {f g : FileStore}
    (hs : s.fileStore = as ++ f :: bs) (hg : FileStore.Later cfg f g)
    (hcount : g.countPush = f.countPush ∧ g.countPop = f.countPop) :
    QueueInv cfg { s with fileStore := as ++ g :: bs } := by
  have hf : f ∈ s.fileStore := by
    rw [hs]
    simp
  refine h.update hs rfl hg rfl ?_ ?_ ?_ rfl
  · rw [hcount.1, hcount.2]
    exact h.counts f hf
  · intro id _
    rfl
  · obtain ⟨done, rest, hacc, hdone, hholds⟩ := h.blocks
    refine ⟨done, rest, hacc, hdone, hholds.imp ?_⟩
    intro b c hb
    rw [hs] at hb
    exact hb.later hg

lemma onLast_append {α : Type} (step : FileStore → FileStore × α) (as : List FileStore)
    (f : FileStore) :
    onLast step (as ++ [f]) = some (as ++ [(step f).1], (step f).2) := by
  simp [onLast]

lemma onLast_cases {α : Type} (step : FileStore → FileStore × α) (l : List FileStore) :
    l = [] ∧ onLast step l = none ∨
      ∃ as f, l = as ++ [f] ∧ onLast step l = some (as ++ [(step f).1], (step f).2) := by
  cases l using List.reverseRecOn with
  | nil => exact Or.inl ⟨rfl, rfl⟩
  | append_singleton as f => exact Or.inr ⟨as, f, rfl, onLast_append step as f⟩

lemma QueueInv.chooseFileStore (h : QueueInv cfg s) (e : PushEnv) :
    QueueInv cfg (chooseFileStore cfg e s).1 ∧
      (StoreQueue.chooseFileStore cfg e s).1.fileStore.length = s.fileStore.length := by
  unfold StoreQueue.chooseFileStore
  split
  · exact ⟨h, rfl⟩
  split
  · exact ⟨h, rfl⟩
  obtain ⟨-, hnone⟩ | ⟨as, f, hs, hsome⟩ :=
    onLast_cases (FileStore.isFull cfg e.nowLast e.forceSetFull) s.fileStore
  · rw [hnone]
    exact ⟨h, rfl⟩
  · have hf : f ∈ s.fileStore := by
      rw [hs]
      simp
    rw [hsome]
    refine ⟨h.changeStore hs (isFull_later (h.stores f hf) _ _) (isFull_counts f _ _), ?_⟩
    simp [hs]

lemma QueueInv.addStore (h : QueueInv cfg s) (hlen : s.fileStore.length < 2 ^ 32 - 1)
    (now : Nat) :
    QueueInv cfg { s with
      lastFileStoreId := nextFileStoreId s.lastFileStoreId
      fileStore := s.fileStore ++
        [{ id := nextFileStoreId s.lastFileStoreId, timestampMS := now }] } := by
  obtain ⟨start, hids, hlast⟩ := h.ids
  have hid : nextFileStoreId s.lastFileStoreId = idAt (start + s.fileStore.length) := by
    rw [hlast, nextFileStoreId_lastId]
  have hnew : idAt (start + s.fileStore.length) ∉ s.fileStore.map FileStore.id := by
    rw [hids]
    intro hmem
    obtain ⟨n, hn, heq⟩ := List.mem_map.mp hmem
    rw [List.mem_range'_1] at hn
    have hne := idAt_ne (n := n) (k := start + s.fileStore.length - n) (by omega) (by omega)
    rw [Nat.add_sub_cancel' (by omega)] at hne
    exact hne heq.symm
  rw [hid]
  refine ⟨⟨start, ?_, ?_⟩, ?_, ?_, ?_, ?_, h.failed⟩
  · simp [hids, List.range'_concat]
  · simp [lastId, ← Nat.add_assoc]
  · rw [List.map_append, List.nodup_append]
    refine ⟨h.nodup, by simp, ?_⟩
    intro a ha b hb heq
    have hb' : b = idAt (start + s.fileStore.length) := by simpa using hb
    exact hnew (hb' ▸ heq ▸ ha)
  · intro f hf
    obtain hf | rfl : f ∈ s.fileStore ∨ f = _ := by simpa using hf
    · exact h.stores f hf
    · exact ⟨le_rfl, nofun, fun _ => rfl, fun _ _ => rfl⟩
  · intro f hf
    obtain hf | rfl : f ∈ s.fileStore ∨ f = _ := by simpa using hf
    · exact h.counts f hf
    · change 0 = 0 + references _ s.pending
      rw [Nat.zero_add, eq_comm, references, List.countP_eq_zero]
      intro b hb heq
      have heq' : b.idFileStore = idAt (start + s.fileStore.length) := by simpa using heq
      obtain ⟨f, hf, hfid⟩ := h.refers hb (by rw [heq', idAt]; omega)
      exact hnew (heq' ▸ hfid ▸ List.mem_map_of_mem hf)
  · obtain ⟨done, rest, hacc, hdone, hholds⟩ := h.blocks
    refine ⟨done, rest, hacc, hdone, hholds.imp ?_⟩
    intro b c hb
    exact hb.mono (fun f hf _ => List.mem_append_left _ hf)

lemma QueueInv.openFileStore (h : QueueInv cfg s) (e : PushEnv)
    (hlen : s.fileStore.length < 2 ^ 32 - 1) :
    QueueInv cfg (openFileStore cfg e s) ∧
      ∃ as f, (StoreQueue.openFileStore cfg e s).fileStore = as ++ [f] ∧ f.full = false := by
  unfold StoreQueue.openFileStore
  obtain ⟨hnil, hnone⟩ | ⟨as, f, hs, hsome⟩ :=
    onLast_cases (FileStore.isFull cfg e.nowNew false) s.fileStore
  · rw [hnone]
    exact ⟨h.addStore hlen e.nowNew, s.fileStore, _, rfl, rfl⟩
  · have hf : f ∈ s.fileStore := by
      rw [hs]
      simp
    have hchange := h.changeStore hs (isFull_later (h.stores f hf) e.nowNew false)
      (isFull_counts f _ _)
    rw [hsome]
    dsimp only
    split
    · have hlen' : (as ++ [(f.isFull cfg e.nowNew false).1]).length < 2 ^ 32 - 1 := by
        rw [hs] at hlen
        simpa using hlen
      exact ⟨hchange.addStore hlen' e.nowNew, _, _, rfl, rfl⟩
    · rename_i hfull
      refine ⟨hchange, as, _, rfl, ?_⟩
      rw [isFull_full]
      simpa using hfull

lemma pending_enqueue (s : QueueState) (c : PassedBlock) (b : QueuedBlock) :
    (enqueue s c b).pending = s.pending ++ [b] := by
  simp [enqueue, QueueState.pending]

lemma references_append (id : Nat) (l : List QueuedBlock) (b : QueuedBlock) :
    references id (l ++ [b]) = references id l + if b.idFileStore = id then 1 else 0 := by
  simp [references, List.countP_append, List.countP_singleton]

lemma references_cons (id : Nat) (l : List QueuedBlock) (b : QueuedBlock) :
    references id (b :: l) = references id l + if b.idFileStore = id then 1 else 0 := by
  simp [references, List.countP_cons]

lemma QueueInv.keep (h : QueueInv cfg s) (b : PcapBlockStore) :
    QueueInv cfg (enqueue s ⟨false, b⟩ { store := b }) := by
  obtain ⟨done, rest, hacc, hdone, hholds⟩ := h.blocks
  refine ⟨h.ids, h.nodup, h.stores, ?_, ⟨done, rest ++ [⟨false, b⟩], ?_, hdone, ?_⟩,
    h.failed⟩
  · intro f hf
    rw [pending_enqueue, references_append, if_neg (h.id_ne_zero hf).symm]
    exact h.counts f hf
  · simp [enqueue, hacc]
  · rw [pending_enqueue]
    exact List.rel_append hholds (.cons (Or.inl ⟨rfl, rfl⟩) .nil)

lemma QueueInv.spool (h : QueueInv cfg s) {as : List FileStore} {f g : FileStore}
    {q : QueuedBlock} {b : PcapBlockStore} (hs : s.fileStore = as ++ [f])
    (hg : FileStore.Later cfg f g) (hpop : g.countPop = f.countPop)
    (hpush : g.countPush = f.countPush + 1) (hid : q.idFileStore = f.id)
    (hread : ReadableAt cfg g q.filePosition b.toBlockContent) :
    QueueInv cfg (enqueue { s with fileStore := as ++ [g] } ⟨true, b⟩ q) := by
  have hf : f ∈ s.fileStore := by
    rw [hs]
    simp
  have hpending : (enqueue { s with fileStore := as ++ [g] } ⟨true, b⟩ q).pending =
      s.pending ++ [q] := pending_enqueue _ _ q
  refine h.update hs rfl hg rfl ?_ ?_ ?_ rfl
  · have hcount := h.counts f hf
    rw [hpending, references_append, if_pos hid]
    omega
  · intro id hne
    rw [hpending, references_append, hid, if_neg hne.symm, Nat.add_zero]
  · obtain ⟨done, rest, hacc, hdone, hholds⟩ := h.blocks
    refine ⟨done, rest ++ [⟨true, b⟩], ?_, hdone, ?_⟩
    · simp [enqueue, hacc]
    · rw [hpending]
      apply List.rel_append
      · apply hholds.imp
        intro b d hb
        rw [hs] at hb
        exact hb.later hg
      · apply List.Forall₂.cons _ .nil
        exact Or.inr ⟨hid ▸ h.id_ne_zero hf, rfl, g, by simp [enqueue], hg.id_eq.trans hid.symm, hread⟩

/-- What the callers of `push` promise: a block that goes to a file can be read back, and not
all ids are in use. -/
structure PushOk (cfg : QueueConfig) (s : QueueState) (e : PushEnv) (b : PcapBlockStore) : Prop where
  save_valid : e.save.Valid
  spoolable : (chooseFileStore cfg e s).2 = true → Spoolable cfg b.toBlockContent
  stores_lt : s.fileStore.length < 2 ^ 32 - 1

lemma QueueInv.push (h : QueueInv cfg s) {e : PushEnv} {b : PcapBlockStore}
    (hok : PushOk cfg s e b) : QueueInv cfg (push cfg e s b) := by
  obtain ⟨hchoose, hlen⟩ := h.chooseFileStore e
  have hspool := hok.spoolable
  have hstores := hok.stores_lt
  rw [← hlen] at hstores
  unfold StoreQueue.push
  generalize StoreQueue.chooseFileStore cfg e s = r at hchoose hspool hstores ⊢
  obtain ⟨r, saveToFileStore⟩ := r
  dsimp only at hchoose hspool hstores ⊢
  cases saveToFileStore with
  | false =>
    rw [if_neg (by simp)]
    split
    · exact hchoose.keep b
    · exact hchoose
  | true =>
    rw [if_pos rfl]
    split
    · exact hchoose
    obtain ⟨hopen, as, f, hs, hfull⟩ := hchoose.openFileStore e hstores
    have hf : f ∈ (StoreQueue.openFileStore cfg e r).fileStore := by
      rw [hs]
      simp
    obtain ⟨hlater, hpop, ⟨hnone, hpush⟩ | ⟨q, hsome, hpush, hid, hread⟩⟩ :=
      push_later (hopen.stores f hf) hfull e.save e.room { store := b }
    · rw [hs, onLast_append]
      rw [hnone]
      exact hopen.changeStore hs hlater ⟨hpush, hpop⟩
    · rw [hs, onLast_append]
      rw [hsome]
      exact hopen.spool hs hlater hpop hpush hid (hread hok.save_valid (hspool rfl))

lemma QueueInv.popTake (h : QueueInv cfg s) {t : QueueState} (ht : popTake s = some t) :
    QueueInv cfg t := by
  unfold StoreQueue.popTake at ht
  split at ht
  · rename_i b queueStore hpopping hqueue
    obtain rfl : _ = t := Option.some.inj ht
    have hpending : s.pending = b :: queueStore := by simp [QueueState.pending, hpopping, hqueue]
    refine ⟨h.ids, h.nodup, h.stores, ?_, ?_, h.failed⟩
    · intro f hf
      have hcount := h.counts f hf
      rw [hpending] at hcount
      exact hcount
    · have hblocks := h.blocks
      rw [hpending] at hblocks
      exact hblocks
  · cases ht

lemma QueueInv.cleanup (h : QueueInv cfg s) :
    QueueInv cfg { s with fileStore := cleanupFileStore s.fileStore } := by
  obtain ⟨start, hids, hlast⟩ := h.ids
  let gone := s.fileStore.takeWhile FileStore.isForDestroy
  have hsplit : gone ++ cleanupFileStore s.fileStore = s.fileStore :=
    List.takeWhile_append_dropWhile
  have hlen : gone.length + (cleanupFileStore s.fileStore).length = s.fileStore.length := by
    rw [← List.length_append, hsplit]
  have hmem : ∀ f ∈ cleanupFileStore s.fileStore, f ∈ s.fileStore := by
    intro f hf
    rw [← hsplit]
    exact List.mem_append_right _ hf
  have hmap : s.fileStore.map FileStore.id =
      gone.map FileStore.id ++ (cleanupFileStore s.fileStore).map FileStore.id := by
    rw [← List.map_append, hsplit]
  refine ⟨⟨start + gone.length, ?_, ?_⟩, ?_, fun f hf => h.stores f (hmem f hf),
    fun f hf => h.counts f (hmem f hf), ?_, h.failed⟩
  · have hdrop : (cleanupFileStore s.fileStore).map FileStore.id =
        (s.fileStore.map FileStore.id).drop gone.length := by
      rw [hmap, ← List.length_map FileStore.id, List.drop_left]
    rw [hdrop, hids, ← hlen, ← List.map_drop, List.drop_range']
    simp
  · rw [Nat.add_assoc, hlen]
    exact hlast
  · have hnodup := h.nodup
    rw [hmap] at hnodup
    exact (List.nodup_append.mp hnodup).2.1
  · obtain ⟨done, rest, hacc, hdone, hholds⟩ := h.blocks
    refine ⟨done, rest, hacc, hdone, ?_⟩
    apply List.forall₂_iff_get.mpr
    obtain ⟨hlength, hget⟩ := List.forall₂_iff_get.mp hholds
    refine ⟨hlength, ?_⟩
    intro i hi hi'
    apply (hget i hi hi').mono
    intro f hf hfid
    rw [← hsplit] at hf
    refine (List.mem_append.mp hf).resolve_left ?_
    -- a store that is removed has no block left to pop
    intro hgone
    have hdestroy := List.all_eq_true.mp List.all_takeWhile f hgone
    have hzero : references f.id s.pending = 0 := by
      have hcount := h.counts f (hsplit ▸ List.mem_append_left _ hgone)
      simp only [FileStore.isForDestroy, Bool.and_eq_true, decide_eq_true_eq] at hdestroy
      omega
    rw [references, List.countP_eq_zero] at hzero
    exact hzero _ (List.get_mem s.pending ⟨i, hi⟩) (by simpa using hfid.symm)

lemma QueueInv.finishPop {spooled : Bool} {b : PcapBlockStore}
    (h : QueueInv cfg { s with popping := none, popped := s.popped ++ [⟨spooled, b⟩] }) :
    QueueInv cfg (finishPop s spooled b) := by
  have hcounter : QueueInv cfg { s with
      popping := none
      popped := s.popped ++ [⟨spooled, b⟩]
      cleanupFileStoreCounter := s.cleanupFileStoreCounter + 1 } :=
    ⟨h.ids, h.nodup, h.stores, h.counts, h.blocks, h.failed⟩
  unfold StoreQueue.finishPop
  dsimp only
  split
  · exact hcounter.cleanup
  · exact hcounter

lemma replaceFileStore_append {id : Nat} {as bs : List FileStore} {f g : FileStore}
    (hf : f.id = id) (has : ∀ k ∈ as, k.id ≠ id) :
    replaceFileStore id g (as ++ f :: bs) = as ++ g :: bs := by
  induction as with
  | nil => simp [replaceFileStore, hf]
  | cons k as ih =>
    have hk := has k List.mem_cons_self
    have hrest := ih (fun k hk => has k (List.mem_cons_of_mem _ hk))
    rw [List.cons_append, replaceFileStore, if_neg hk, hrest]
    rfl

lemma QueueInv.find (h : QueueInv cfg s) {f : FileStore} (hf : f ∈ s.fileStore) :
    findFileStoreById s.fileStore f.id = some f ∧ ∃ as bs, s.fileStore = as ++ f :: bs ∧
      ∀ g, replaceFileStore f.id g s.fileStore = as ++ g :: bs := by
  obtain ⟨as, bs, hs⟩ := List.append_of_mem hf
  have hnodup := h.nodup
  rw [hs] at hnodup
  simp only [List.map_append, List.map_cons, List.nodup_append, List.mem_cons] at hnodup
  have has : ∀ k ∈ as, k.id ≠ f.id :=
    fun k hk => hnodup.2.2 _ (List.mem_map_of_mem hk) _ (Or.inl rfl)
  refine ⟨?_, as, bs, hs, ?_⟩
  · rw [findFileStoreById, List.find?_eq_some_iff_append]
    exact ⟨by simp, as, bs, hs, by simpa using has⟩
  · intro g
    rw [hs]
    exact replaceFileStore_append rfl has

lemma QueueInv.popFinish (h : QueueInv cfg s) {t : QueueState} {now : Nat}
    (ht : popFinish cfg now s = some t) : QueueInv cfg t := by
  unfold StoreQueue.popFinish at ht
  split at ht
  · cases ht
  rename_i b hpopping
  have hpending : s.pending = b :: s.queueStore := by simp [QueueState.pending, hpopping]
  obtain ⟨done, rest, hacc, hdone, hholds⟩ := h.blocks
  rw [hpending] at hholds
  obtain ⟨c, rest, hb, hholds', rfl⟩ := List.forall₂_cons_left_iff.mp hholds
  have hacc' : s.accepted = (done ++ [c]) ++ rest := by rw [hacc, List.append_assoc]; rfl
  have hdone' (p : PassedBlock) (hp : givenBack cfg c = p) :
      s.popped ++ [p] = (done ++ [c]).map (givenBack cfg) := by
    rw [hdone, List.map_append, ← hp]
    rfl
  split at ht
  · rename_i hid
    obtain rfl : _ = t := Option.some.inj ht
    obtain ⟨-, hkept⟩ | ⟨hne, -⟩ := hb
    · apply QueueInv.finishPop
      refine ⟨h.ids, h.nodup, h.stores, ?_, ⟨done ++ [c], rest, hacc', ?_, hholds'⟩, h.failed⟩
      · intro f hf
        have hcount := h.counts f hf
        rw [hpending, references_cons, hid, if_neg (h.id_ne_zero hf).symm] at hcount
        exact hcount
      · apply hdone'
        rw [hkept]
        rfl
    · exact absurd hid hne
  · rename_i hid
    obtain ⟨h0, -⟩ | ⟨-, hspooled, f, hf, hfid, hread⟩ := hb
    · exact absurd h0 hid
    obtain ⟨hfind, as, bs, hs, hreplace⟩ := h.find hf
    rw [hfid] at hfind hreplace
    rw [hfind] at ht
    dsimp only at ht
    split at ht
    · cases ht
    rename_i hfull
    have hfull' : f.full = true := by simpa using hfull
    have hst := pop_readable now (h.stores f hf) hfull' hid hread
    obtain ⟨hlater, hpush, hpop⟩ := pop_later (h.stores f hf) hfull' now hid
    rw [hst, hreplace] at ht
    obtain rfl : _ = t := Option.some.inj ht
    apply QueueInv.finishPop
    refine h.update hs rfl hlater rfl ?_ ?_ ⟨done ++ [c], rest, hacc', ?_, ?_⟩ rfl
    · have hcount := h.counts f hf
      rw [hpending, references_cons, if_pos hfid.symm] at hcount
      rw [hpush, hpop, hcount]
      change f.countPop + (references f.id s.queueStore + 1) =
        f.countPop + 1 + references f.id s.queueStore
      omega
    · intro id hne
      rw [hpending, references_cons, ← hfid, if_neg hne.symm]
      rfl
    · apply hdone'
      rw [givenBack, hspooled]
      rfl
    · apply hholds'.imp
      intro b d hb
      rw [hs] at hb
      exact hb.later hlater

end Steps

def ActOk (cfg : QueueConfig) (s : QueueState) : QueueAct → Prop
  | .push e b => PushOk cfg s e b
  | _ => True

/-- The states of the runs in which every `push` is given what it is promised. -/
def QueueReach (cfg : QueueConfig) : QueueState → Prop := ReachBy (queueStep cfg) (ActOk cfg) {}

lemma QueueInv.step {cfg : QueueConfig} {s t : QueueState} (h : QueueInv cfg s) {a : QueueAct}
    (ha : ActOk cfg s a) (ht : queueStep cfg s a = some t) : QueueInv cfg t := by
  cases a with
  | push e b =>
    obtain rfl : _ = t := Option.some.inj ht
    exact h.push ha
  | popTake => exact h.popTake ht
  | popFinish now => exact h.popFinish ht

lemma QueueReach.inv {cfg : QueueConfig} {s : QueueState} (h : QueueReach cfg s) :
    QueueInv cfg s :=
  ReachBy.invariant (queueInv_init cfg) (fun _ _ _ hinv ha ht => hinv.step ha ht) h

/-- The popped blocks are the first accepted ones as `pop` gives them, the others wait in order,
no `pop` failed, and the store of a waiting block is there. -/
def QueueFifo (cfg : QueueConfig) (s : QueueState) : Prop :=
  (∃ done rest, s.accepted = done ++ rest ∧ s.popped = done.map (givenBack cfg) ∧
    rest.length = s.pending.length) ∧
  s.failed = 0 ∧
  ∀ b ∈ s.pending, b.idFileStore ≠ 0 → ∃ f ∈ s.fileStore, f.id = b.idFileStore

/-- The queue is a FIFO whichever blocks are spooled. -/
theorem queue_fifo (cfg : QueueConfig) (s : QueueState) (h : QueueReach cfg s) :
    QueueFifo cfg s := by
  have hinv := h.inv
  obtain ⟨done, rest, hacc, hdone, hholds⟩ := hinv.blocks
  refine ⟨⟨done, rest, hacc, hdone, hholds.length_eq.symm⟩, hinv.failed, ?_⟩
  intro b hb hid
  exact hinv.refers hb hid

def spooled : PushEnv := { memory := false }

def emptyBlock : PcapBlockStore := {}

def pops : List QueueAct := [.popTake, .popFinish 0]

theorem queue_fifo_example : ∃ s, QueueReach { storeQueueMaxDiskSize := 1000 } s ∧
    s.popped = [⟨true, { requireConfirmation := true }⟩] ∧ s.queueStore.length = 1 ∧
    QueueFifo { storeQueueMaxDiskSize := 1000 } s := by
  let cfg : QueueConfig := { storeQueueMaxDiskSize := 1000 }
  let spoolAct : QueueAct := .push spooled emptyBlock
  let keepAct : QueueAct := .push { forceSetFull := true } emptyBlock
  have hsave : SaveEnv.Valid {} := ⟨by decide, rfl, rfl, rfl⟩
  have hblock : Spoolable cfg {} :=
    { storable :=
        { dlink_lt := by decide
          sensorId_lower := by decide
          sensorId_upper := by decide
          ifname_length := by decide
          ifname_text := nofun
          blockCounter_lt := by decide
          offsets_length := rfl
          offsets_lt := by decide
          block_length := rfl
          size_lt := by decide
          saveSize_lt := by decide }
      fits := by decide }
  obtain ⟨s1, h1⟩ : ∃ s, queueStep cfg {} spoolAct = some s := ⟨_, rfl⟩
  obtain ⟨s2, h2⟩ : ∃ s, queueStep cfg s1 keepAct = some s := ⟨_, rfl⟩
  have hstores : s1.fileStore.length = 1 := by
    have h : (queueStep cfg {} spoolAct).map (fun s => s.fileStore.length) = some 1 := by
      decide +kernel
    rw [h1] at h
    exact Option.some.inj h
  have hreach1 : QueueReach cfg s1 := by
    apply ReachBy.step ReachBy.initial _ h1
    exact ⟨hsave, fun _ => hblock, by decide⟩
  have hreach2 : QueueReach cfg s2 := by
    apply ReachBy.step hreach1 _ h2
    exact ⟨hsave, fun _ => hblock, by rw [hstores]; decide⟩
  have hpops : (queueRun cfg s2 pops).map (fun s => (s.popped, s.queueStore.length)) =
      some ([⟨true, { requireConfirmation := true }⟩], 1) := by
    have h : (queueRun cfg {} ([spoolAct, keepAct] ++ pops)).map
        (fun s => (s.popped, s.queueStore.length)) =
          some ([⟨true, { requireConfirmation := true }⟩], 1) := by
      decide +kernel
    simp only [List.cons_append, List.nil_append, queueRun, run, h1, Option.bind_some, h2] at h
    exact h
  obtain ⟨s4, h4, hs4⟩ := Option.map_eq_some_iff.mp hpops
  simp only [pops, queueRun, run, Option.bind_eq_some_iff, Option.some.injEq] at h4
  obtain ⟨s3, h3, s4', h4, rfl⟩ := h4
  have hreach3 : QueueReach cfg s3 := hreach2.step (a := .popTake) trivial h3
  have hreach4 : QueueReach cfg s4' := hreach3.step (a := .popFinish 0) trivial h4
  obtain ⟨hpopped, hqueue⟩ := Prod.mk.inj hs4
  exact ⟨s4', hreach4, hpopped, hqueue, queue_fifo cfg s4' hreach4⟩

def spoolConfig : QueueConfig where
  blockMaxSize := 110
  storeQueueMaxDiskSize := 1000000
  fileStoreMaxSize := 1100

def countedRun : List QueueAct :=
  [.push spooled { blockCounter := 5 }, .push { forceSetFull := true } emptyBlock] ++ pops

/-- A save buffer of 1064 bytes is within the limit of 1100 bytes, but the piece of 1000 bytes
that ends it brings more than that when another block follows in the file. -/
def longRun : List QueueAct :=
  [.push spooled { size := 1000, block := List.replicate 1000 0 }, .push spooled emptyBlock,
    .push {} emptyBlock] ++ pops ++ pops

/-- A size that the header does not hold. -/
def wideRun : List QueueAct :=
  [.push spooled { size := 2 ^ 32, sizeCompress := 1, block := [0] },
    .push { forceSetFull := true } emptyBlock] ++ pops

def contents (l : List PassedBlock) : List BlockContent := l.map (fun b => b.store.toBlockContent)

/-- After the run the popped blocks are not the first accepted ones. -/
def BreaksFifo (cfg : QueueConfig) (acts : List QueueAct) : Prop :=
  ∃ s, queueRun cfg {} acts = some s ∧ ¬contents s.popped <+: contents s.accepted

lemma breaksFifo_of_eval {cfg : QueueConfig} {acts : List QueueAct}
    (h : (queueRun cfg {} acts).map
      (fun s => (contents s.popped).isPrefixOf (contents s.accepted)) = some false) :
    BreaksFifo cfg acts := by
  obtain ⟨s, hs, hfalse⟩ := Option.map_eq_some_iff.mp h
  refine ⟨s, hs, ?_⟩
  rw [← List.isPrefixOf_iff_prefix, hfalse]
  exact Bool.false_ne_true

set_option maxRecDepth 10000 in
theorem queue_changes_blocks : BreaksFifo spoolConfig countedRun ∧
    BreaksFifo spoolConfig longRun ∧ BreaksFifo spoolConfig wideRun := by
  refine ⟨?_, ?_, ?_⟩
  · apply breaksFifo_of_eval
    decide +kernel
  · apply breaksFifo_of_eval
    decide +kernel
  · apply breaksFifo_of_eval
    decide +kernel

end VoipMonitor.StoreQueue
