import VoipMonitor.Proofs.DequeueOrder

/-!
# Runs of the time-ordered dequeue

Each round of the loop keeps the invariant of the table and of the packets handed out, whatever
the window, the pressure and the number of blocks to wait for are.
-/

namespace VoipMonitor.Dequeue
open VoipMonitor.Library

/-- The positions of block `b` that were handed out, in this order. -/
def handed (s : State) (b : Nat) : List Nat :=
  (s.outs.filter (fun o => decide (o.block = b))).map Out.pos

structure Held (s : State) (i : BlockInfo) : Prop where
  known : s.arrived[i.blockStore.id]? = some i.blockStore
  positions : Positions i
  key : i.utimeFirst = (i.blockStore.packet i.posAct).utime
  given : handed s i.blockStore.id = before i.blockStore i.posAct
  kept : i.blockStore.id ∉ s.trash

structure DequeueInv (s : State) (used free : List Nat) : Prop
    extends TableInv s.blocksInfo used free where
  held : ∀ i ∈ used, Held s (s.blocksInfo.blocks i)
  distinct : (used.map (fun i => (s.blocksInfo.blocks i).blockStore.id)).Nodup
  rest : ∀ b (blk : PcapBlockStore), s.arrived[b]? = some blk →
    (∃ i ∈ used, (s.blocksInfo.blocks i).blockStore = blk) ∨
      (b ∈ s.trash ∧ handed s b = nonIgnored blk)
  ident : ∀ b (blk : PcapBlockStore), s.arrived[b]? = some blk → blk.id = b
  trash_nodup : s.trash.Nodup
  trash_lt : ∀ b ∈ s.trash, b < s.arrived.length
  outs_known : ∀ o ∈ s.outs, ∃ blk, s.arrived[o.block]? = some blk ∧
    o.utime = (blk.packet o.pos).utime
  oldest : ∀ o ∈ s.outs, ∀ t ∈ o.heads, o.utime ≤ t

/-- What the dequeue promises: of every block the packets that are not ignored are handed out in
order and once, the block goes to the trash exactly when this is done and is held until then, and
every packet was at most as old as the current ones of the other blocks. -/
structure DequeueOk (s : State) : Prop where
  inOrder : ∀ b (blk : PcapBlockStore), s.arrived[b]? = some blk → handed s b <+: nonIgnored blk
  trashed : ∀ b (blk : PcapBlockStore), s.arrived[b]? = some blk → (b ∈ s.trash ↔ handed s b = nonIgnored blk)
  trash_once : s.trash.Nodup
  waiting : ∀ b (blk : PcapBlockStore), s.arrived[b]? = some blk → b ∉ s.trash →
    ∃ i ∈ s.blocksInfo.getUsed, (s.blocksInfo.blocks i).blockStore = blk ∧
      handed s b ++ [(s.blocksInfo.blocks i).posAct] <+: nonIgnored blk
  outs_known : ∀ o ∈ s.outs, ∃ blk, s.arrived[o.block]? = some blk ∧
    o.utime = (blk.packet o.pos).utime
  oldest : ∀ o ∈ s.outs, ∀ t ∈ o.heads, o.utime ≤ t

section Runs
variable {s s' : State} {used free : List Nat}

lemma Held.next {i : BlockInfo} (h : Held s i) :
    handed s i.blockStore.id ++ [i.posAct] <+: nonIgnored i.blockStore := by
  have hlt := h.positions.last_lt
  have hle := h.positions.act_le
  have hpass : before i.blockStore (i.posAct + 1) = before i.blockStore i.posAct ++ [i.posAct] := by
    apply before_pass h.positions.act_kept (Nat.lt_succ_self _)
    intro k hk hk'
    omega
  rw [h.given, ← hpass]
  exact before_prefix (by omega)

lemma DequeueInv.ok (h : DequeueInv s used free) : DequeueOk s := by
  have hheld : ∀ b (blk : PcapBlockStore), s.arrived[b]? = some blk → ∀ i ∈ used,
      (s.blocksInfo.blocks i).blockStore = blk → b ∉ s.trash ∧
        handed s b ++ [(s.blocksInfo.blocks i).posAct] <+: nonIgnored blk := by
    intro b blk hb i hi hblk
    have hid := h.ident b blk hb
    have hkept := (h.held i hi).kept
    have hnext := (h.held i hi).next
    rw [hblk, hid] at hkept hnext
    exact ⟨hkept, hnext⟩
  refine ⟨?_, ?_, h.trash_nodup, ?_, h.outs_known, h.oldest⟩
  · intro b blk hb
    rcases h.rest b blk hb with ⟨i, hi, hblk⟩ | ⟨-, hdone⟩
    · exact (List.prefix_append _ _).trans (hheld b blk hb i hi hblk).2
    · rw [hdone]
  · intro b blk hb
    rcases h.rest b blk hb with ⟨i, hi, hblk⟩ | ⟨htrash, hdone⟩
    · obtain ⟨hkept, hnext⟩ := hheld b blk hb i hi hblk
      apply iff_of_false hkept
      intro heq
      have hlen := hnext.length_le
      rw [heq, List.length_append, List.length_singleton] at hlen
      omega
    · exact iff_of_true htrash hdone
  · intro b blk hb hkept
    rcases h.rest b blk hb with ⟨i, hi, hblk⟩ | ⟨htrash, -⟩
    · rw [h.getUsed_eq]
      exact ⟨i, hi, hblk, (hheld b blk hb i hi hblk).2⟩
    · exact absurd htrash hkept

lemma dequeueInv_init {n : Nat} (hn : 0 < n) : DequeueInv (init n) [] (List.range n) where
  toTableInv := tableInv_init hn
  held := by simp
  distinct := List.nodup_nil
  rest b blk hb := by
    have : ([] : List PcapBlockStore)[b]? = some blk := hb
    simp at this
  ident b blk hb := by
    have : ([] : List PcapBlockStore)[b]? = some blk := hb
    simp at this
  trash_nodup := List.nodup_nil
  trash_lt b hb := by cases hb
  outs_known o ho := by cases ho
  oldest o ho := by cases ho

/-! ## A block comes in -/

lemma arrived_append {l : List PcapBlockStore} {x blk : PcapBlockStore} {b : Nat}
    (h : (l ++ [x])[b]? = some blk) : l[b]? = some blk ∨ (b = l.length ∧ blk = x) := by
  rw [List.getElem?_append] at h
  split at h
  · exact Or.inl h
  · rename_i hge
    have hb : b = l.length := by
      by_contra hne
      rw [List.getElem?_eq_none (by simp; omega)] at h
      cases h
    subst hb
    simp at h
    exact Or.inr ⟨rfl, h.symm⟩

lemma getElem?_append_left {l : List PcapBlockStore} {blk : PcapBlockStore} {b : Nat}
    (h : l[b]? = some blk) (r : List PcapBlockStore) : (l ++ r)[b]? = some blk := by
  have hb : b < l.length := (List.getElem?_eq_some_iff.mp h).1
  rw [List.getElem?_append_left hb, h]

lemma DequeueInv.handed_new (h : DequeueInv s used free) : handed s s.arrived.length = [] := by
  unfold handed
  rw [List.map_eq_nil_iff, List.filter_eq_nil_iff]
  intro o ho
  obtain ⟨blk, hblk, -⟩ := h.outs_known o ho
  have hlt := (List.getElem?_eq_some_iff.mp hblk).1
  simp only [decide_eq_true_eq]
  omega

lemma Held.grow {i : BlockInfo} (h : Held s i) (x : PcapBlockStore) {t : BlocksInfo}
    {trash : List Nat} (htrash : i.blockStore.id ∉ trash) :
    Held { s with arrived := s.arrived ++ [x], blocksInfo := t, trash := trash } i :=
  ⟨getElem?_append_left h.known [x], h.positions, h.key, h.given, htrash⟩

lemma DequeueInv.arrive_ignored (h : DequeueInv s used free) {packets : List PacketInfo}
    (hnone : setFirstLast { blockStore := ⟨s.arrived.length, packets⟩ } = none) :
    DequeueInv { s with
      arrived := s.arrived ++ [⟨s.arrived.length, packets⟩]
      trash := s.trash ++ [s.arrived.length] } used free := by
  have hnew : s.arrived.length ∉ s.trash := by
    intro hmem
    exact absurd (h.trash_lt _ hmem) (lt_irrefl _)
  refine ⟨h.toTableInv, ?_, h.distinct, ?_, ?_, ?_, ?_, ?_, h.oldest⟩
  · intro i hi
    have hi' := h.held i hi
    apply hi'.grow
    intro hmem
    rcases List.mem_append.mp hmem with hmem | hmem
    · exact hi'.kept hmem
    · have hlt := (List.getElem?_eq_some_iff.mp hi'.known).1
      rw [List.mem_singleton.mp hmem] at hlt
      omega
  · intro b blk hb
    rcases arrived_append hb with hb | ⟨rfl, rfl⟩
    · rcases h.rest b blk hb with hheld | ⟨hmem, hdone⟩
      · exact Or.inl hheld
      · exact Or.inr ⟨List.mem_append_left _ hmem, hdone⟩
    · refine Or.inr ⟨List.mem_append_right _ (List.mem_singleton.mpr rfl), ?_⟩
      have hempty := setFirstLast_none hnone
      rw [hempty]
      exact h.handed_new
  · intro b blk hb
    rcases arrived_append hb with hb | ⟨rfl, rfl⟩
    · exact h.ident b blk hb
    · rfl
  · exact List.nodup_append.mpr ⟨h.trash_nodup, List.nodup_singleton _, fun x hx y hy hxy => by
      rw [List.mem_singleton.mp hy] at hxy
      exact hnew (hxy ▸ hx)⟩
  · intro b hb
    rw [List.length_append, List.length_singleton]
    rcases List.mem_append.mp hb with hb | hb
    · exact Nat.lt_succ_of_lt (h.trash_lt b hb)
    · rw [List.mem_singleton.mp hb]
      exact Nat.lt_succ_self _
  · intro o ho
    obtain ⟨blk, hblk, ht⟩ := h.outs_known o ho
    exact ⟨blk, getElem?_append_left hblk _, ht⟩

lemma DequeueInv.arrive_held (h : DequeueInv s used free) {packets : List PacketInfo} (now : Nat)
    {info : BlockInfo} {i : Nat} {t : BlocksInfo}
    (hsome : setFirstLast { blockStore := ⟨s.arrived.length, packets⟩ } = some info)
    (hnew : s.blocksInfo.newBlock = some (i, t)) :
    let u := (t.set i { setTimeFirstLast info with atTime := now }).updateTimesOf i
    ∃ free', DequeueInv { s with
      arrived := s.arrived ++ [⟨s.arrived.length, packets⟩]
      blocksInfo := { u with minHeap := u.minHeap.insert u.key i } } (i :: used) free' := by
  intro u
  obtain ⟨hblk, hact, hpos, hbefore⟩ := setFirstLast_some hsome
  obtain ⟨free', -, hi, htable, hblocks⟩ :=
    h.toTableInv.insert hnew { setTimeFirstLast info with atTime := now }
  have hother : ∀ j ∈ used, u.blocks j = s.blocksInfo.blocks j := by
    intro j hj
    rw [hblocks]
    apply Function.update_of_ne
    rintro rfl
    exact hi hj
  have hself : u.blocks i = { setTimeFirstLast info with atTime := now } := by
    rw [hblocks, Function.update_self]
  have hlt : ∀ j ∈ used, (s.blocksInfo.blocks j).blockStore.id < s.arrived.length := by
    intro j hj
    exact (List.getElem?_eq_some_iff.mp (h.held j hj).known).1
  refine ⟨free', htable, ?_, ?_, ?_, ?_, h.trash_nodup, ?_, ?_, h.oldest⟩
  · intro j hj
    rcases List.mem_cons.mp hj with rfl | hj
    · change Held _ (u.blocks j)
      rw [hself]
      refine ⟨?_, ⟨hpos.act_le, hpos.last_lt, hpos.act_kept, hpos.last_kept, hpos.rest⟩, ?_, ?_, ?_⟩
      · change (s.arrived ++ [_])[info.blockStore.id]? = some info.blockStore
        rw [hblk]
        simp
      · change (info.blockStore.packet info.posFirst).utime =
          (info.blockStore.packet info.posAct).utime
        rw [hact]
      · change handed s info.blockStore.id = before info.blockStore info.posAct
        rw [hbefore, hblk]
        exact h.handed_new
      · change info.blockStore.id ∉ s.trash
        rw [hblk]
        intro hmem
        exact absurd (h.trash_lt _ hmem) (lt_irrefl _)
    · change Held _ (u.blocks j)
      rw [hother j hj]
      exact (h.held j hj).grow _ (h.held j hj).kept
  · change ((i :: used).map (fun j => (u.blocks j).blockStore.id)).Nodup
    rw [List.map_cons, List.nodup_cons]
    have hmap : used.map (fun j => (u.blocks j).blockStore.id) =
        used.map (fun j => (s.blocksInfo.blocks j).blockStore.id) := by
      apply List.map_congr_left
      intro j hj
      rw [hother j hj]
    rw [hmap, hself]
    refine ⟨?_, h.distinct⟩
    intro hmem
    obtain ⟨j, hj, heq⟩ := List.mem_map.mp hmem
    have := hlt j hj
    change (s.blocksInfo.blocks j).blockStore.id = info.blockStore.id at heq
    rw [heq, hblk] at this
    exact lt_irrefl _ this
  · intro b blk hb
    change (∃ j ∈ i :: used, (u.blocks j).blockStore = blk) ∨ _
    rcases arrived_append hb with hb | ⟨rfl, rfl⟩
    · rcases h.rest b blk hb with ⟨j, hj, hblk'⟩ | hdone
      · refine Or.inl ⟨j, List.mem_cons_of_mem _ hj, ?_⟩
        rw [hother j hj]
        exact hblk'
      · exact Or.inr hdone
    · refine Or.inl ⟨i, List.mem_cons_self, ?_⟩
      rw [hself]
      exact hblk
  · intro b blk hb
    rcases arrived_append hb with hb | ⟨rfl, rfl⟩
    · exact h.ident b blk hb
    · rfl
  · intro b hb
    change b < (s.arrived ++ [_]).length
    rw [List.length_append]
    exact Nat.lt_add_right _ (h.trash_lt b hb)
  · intro o ho
    obtain ⟨blk, hblk', ht⟩ := h.outs_known o ho
    exact ⟨blk, getElem?_append_left hblk' _, ht⟩

lemma DequeueInv.arrive (h : DequeueInv s used free) (hfree : free ≠ [])
    (packets : List PacketInfo) (now : Nat) :
    ∃ used' free', DequeueInv (arrive s now packets) used' free' := by
  unfold VoipMonitor.Dequeue.arrive
  dsimp only
  cases hset : setFirstLast { blockStore := ⟨s.arrived.length, packets⟩ } with
  | none => exact ⟨used, free, h.arrive_ignored hset⟩
  | some info =>
    dsimp only
    cases hnew : s.blocksInfo.newBlock with
    | none =>
      exfalso
      unfold BlocksInfo.newBlock at hnew
      cases hhead : s.blocksInfo.freeHead with
      | none => exact hfree (h.freeLinked.eq_nil_iff.mp hhead)
      | some i =>
        rw [hhead] at hnew
        cases hnew
    | some r =>
      obtain ⟨i, t⟩ := r
      obtain ⟨free', hinv⟩ := h.arrive_held now hset hnew
      exact ⟨i :: used, free', hinv⟩

/-! ## A packet is handed out -/

lemma handed_append (s : State) (o : Out) (b : Nat) :
    handed { s with outs := s.outs ++ [o] } b =
      handed s b ++ if o.block = b then [o.pos] else [] := by
  unfold handed
  rw [List.filter_append, List.map_append]
  by_cases h : o.block = b <;> simp [h]

lemma DequeueInv.oldest_min (h : DequeueInv s used free) (hused : used ≠ []) {t : Nat}
    (ht : t ∈ (s.blocksInfo.getUsed.filter (fun j => j ≠ s.blocksInfo.minHeap.data 0)).map
      (fun j => ((s.blocksInfo.blocks j).blockStore.packet (s.blocksInfo.blocks j).posAct).utime)) :
    ((s.blocksInfo.blocks (s.blocksInfo.minHeap.data 0)).blockStore.packet
      (s.blocksInfo.blocks (s.blocksInfo.minHeap.data 0)).posAct).utime ≤ t := by
  obtain ⟨-, hi⟩ := h.getMin_some hused
  obtain ⟨j, hj, rfl⟩ := List.mem_map.mp ht
  rw [h.getUsed_eq] at hj
  have hju : j ∈ used := (List.mem_filter.mp hj).1
  have hle := MinHeap.root_le h.ordered (h.heapPerm.mem_iff.mpr hju)
  unfold BlocksInfo.key at hle
  rw [(h.held _ hi).key, (h.held j hju).key] at hle
  exact hle

lemma DequeueInv.id_ne (h : DequeueInv s used free) {i j : Nat} (hi : i ∈ used) (hj : j ∈ used)
    (hij : j ≠ i) :
    (s.blocksInfo.blocks i).blockStore.id ≠ (s.blocksInfo.blocks j).blockStore.id := by
  intro heq
  exact hij (List.inj_on_of_nodup_map h.distinct hi hj heq).symm

lemma Held.other {i : BlockInfo} (h : Held s i) {o : Out} (ho : o.block ≠ i.blockStore.id)
    {t : BlocksInfo} {trash : List Nat} (htrash : i.blockStore.id ∉ trash) :
    Held { s with outs := s.outs ++ [o], blocksInfo := t, trash := trash } i := by
  refine ⟨h.known, h.positions, h.key, ?_, htrash⟩
  change handed { s with outs := s.outs ++ [o] } _ = _
  rw [handed_append, if_neg ho, List.append_nil, h.given]

lemma DequeueInv.outs_append (h : DequeueInv s used free) {o : Out} {i : BlockInfo}
    (hi : Held s i) (hblock : o.block = i.blockStore.id) (hpos : o.pos = i.posAct)
    (htime : o.utime = (i.blockStore.packet i.posAct).utime) (hold : ∀ t ∈ o.heads, o.utime ≤ t) :
    (∀ o' ∈ s.outs ++ [o], ∃ blk, s.arrived[o'.block]? = some blk ∧
      o'.utime = (blk.packet o'.pos).utime) ∧
    (∀ o' ∈ s.outs ++ [o], ∀ t ∈ o'.heads, o'.utime ≤ t) := by
  refine ⟨?_, ?_⟩
  · intro o' ho'
    rcases List.mem_append.mp ho' with ho' | ho'
    · exact h.outs_known o' ho'
    · rw [List.mem_singleton.mp ho']
      refine ⟨i.blockStore, ?_, ?_⟩
      · rw [hblock]
        exact hi.known
      · rw [hpos, htime]
  · intro o' ho'
    rcases List.mem_append.mp ho' with ho' | ho'
    · exact h.oldest o' ho'
    · rw [List.mem_singleton.mp ho']
      exact hold

lemma DequeueInv.handOut_last (h : DequeueInv s used free) (hused : used ≠ []) {o : Out}
    {t : BlocksInfo} {data : BlockInfo}
    (hblock : o.block = (s.blocksInfo.blocks (s.blocksInfo.minHeap.data 0)).blockStore.id)
    (hpos : o.pos = (s.blocksInfo.blocks (s.blocksInfo.minHeap.data 0)).posAct)
    (houts : (∀ o' ∈ s.outs ++ [o], ∃ blk, s.arrived[o'.block]? = some blk ∧
        o'.utime = (blk.packet o'.pos).utime) ∧
      (∀ o' ∈ s.outs ++ [o], ∀ t ∈ o'.heads, o'.utime ≤ t))
    (hlast : (incPosAct (s.blocksInfo.blocks (s.blocksInfo.minHeap.data 0))).2 = false)
    (htable : TableInv t (used.erase (s.blocksInfo.minHeap.data 0))
      (s.blocksInfo.minHeap.data 0 :: free))
    (hblocks : t.blocks = Function.update s.blocksInfo.blocks (s.blocksInfo.minHeap.data 0) data) :
    DequeueInv { s with
      outs := s.outs ++ [o]
      trash := s.trash ++ [(s.blocksInfo.blocks (s.blocksInfo.minHeap.data 0)).blockStore.id]
      blocksInfo := t } (used.erase (s.blocksInfo.minHeap.data 0))
        (s.blocksInfo.minHeap.data 0 :: free) := by
  obtain ⟨-, hi⟩ := h.getMin_some hused
  generalize s.blocksInfo.minHeap.data 0 = i at *
  have hmin := h.held i hi
  have hother : ∀ j ∈ used.erase i, j ∈ used ∧ j ≠ i ∧ t.blocks j = s.blocksInfo.blocks j := by
    intro j hj
    have hne : j ≠ i := by
      rintro rfl
      exact h.used_nodup.not_mem_erase hj
    refine ⟨List.mem_of_mem_erase hj, hne, ?_⟩
    rw [hblocks]
    exact Function.update_of_ne hne _ _
  have hdone : handed { s with outs := s.outs ++ [o] } (s.blocksInfo.blocks i).blockStore.id =
      nonIgnored (s.blocksInfo.blocks i).blockStore := by
    rw [handed_append, if_pos hblock, hpos, hmin.given]
    exact (incPosAct_false hmin.positions hlast).symm
  refine ⟨htable, ?_, ?_, ?_, h.ident, ?_, ?_, houts.1, houts.2⟩
  · intro j hj
    obtain ⟨hju, hne, heq⟩ := hother j hj
    have hid := h.id_ne hi hju hne
    change Held _ (t.blocks j)
    rw [heq]
    apply (h.held j hju).other
    · rw [hblock]
      exact hid
    · intro hmem
      rcases List.mem_append.mp hmem with hmem | hmem
      · exact (h.held j hju).kept hmem
      · exact hid (List.mem_singleton.mp hmem).symm
  · have hmap : (used.erase i).map (fun j => (t.blocks j).blockStore.id) =
        (used.erase i).map (fun j => (s.blocksInfo.blocks j).blockStore.id) := by
      apply List.map_congr_left
      intro j hj
      rw [(hother j hj).2.2]
    change ((used.erase i).map (fun j => (t.blocks j).blockStore.id)).Nodup
    rw [hmap]
    exact h.distinct.sublist (List.Sublist.map _ List.erase_sublist)
  · intro b blk hb
    change (∃ j ∈ used.erase i, (t.blocks j).blockStore = blk) ∨ (b ∈ _ ∧ _)
    have hhanded : ∀ b', b' ≠ (s.blocksInfo.blocks i).blockStore.id →
        handed { s with outs := s.outs ++ [o] } b' = handed s b' := by
      intro b' hb'
      rw [handed_append, if_neg (by rw [hblock]; exact hb'.symm), List.append_nil]
    rcases h.rest b blk hb with ⟨j, hj, hblk⟩ | ⟨hmem, hfull⟩
    · by_cases hji : j = i
      · subst hji
        refine Or.inr ⟨List.mem_append_right _ ?_, ?_⟩
        · rw [hblk, h.ident b blk hb]
          exact List.mem_singleton.mpr rfl
        · rw [hblk, h.ident b blk hb] at hdone
          exact hdone
      · have hje : j ∈ used.erase i := (List.mem_erase_of_ne hji).mpr hj
        refine Or.inl ⟨j, hje, ?_⟩
        rw [(hother j hje).2.2]
        exact hblk
    · refine Or.inr ⟨List.mem_append_left _ hmem, ?_⟩
      have hne : b ≠ (s.blocksInfo.blocks i).blockStore.id := by
        rintro rfl
        exact hmin.kept hmem
      exact (hhanded b hne).trans hfull
  · apply List.nodup_append.mpr
    refine ⟨h.trash_nodup, List.nodup_singleton _, ?_⟩
    rintro x hx y hy rfl
    rw [List.mem_singleton.mp hy] at hx
    exact hmin.kept hx
  · intro b hb
    rcases List.mem_append.mp hb with hb | hb
    · exact h.trash_lt b hb
    · rw [List.mem_singleton.mp hb]
      exact (List.getElem?_eq_some_iff.mp hmin.known).1

lemma DequeueInv.handOut_next (h : DequeueInv s used free) (hused : used ≠ []) {o : Out}
    (hblock : o.block = (s.blocksInfo.blocks (s.blocksInfo.minHeap.data 0)).blockStore.id)
    (hpos : o.pos = (s.blocksInfo.blocks (s.blocksInfo.minHeap.data 0)).posAct)
    (houts : (∀ o' ∈ s.outs ++ [o], ∃ blk, s.arrived[o'.block]? = some blk ∧
        o'.utime = (blk.packet o'.pos).utime) ∧
      (∀ o' ∈ s.outs ++ [o], ∀ t ∈ o'.heads, o'.utime ≤ t))
    (hnext : (incPosAct (s.blocksInfo.blocks (s.blocksInfo.minHeap.data 0))).2 = true) :
    let t := s.blocksInfo.set (s.blocksInfo.minHeap.data 0)
      (updateTimeFirst (incPosAct (s.blocksInfo.blocks (s.blocksInfo.minHeap.data 0))).1)
    DequeueInv { s with
      outs := s.outs ++ [o]
      blocksInfo := { t with minHeap := t.minHeap.doHeapify t.key } } used free := by
  intro t
  obtain ⟨-, hi⟩ := h.getMin_some hused
  have htable : TableInv { t with minHeap := t.minHeap.doHeapify t.key } used free :=
    h.toTableInv.update
      (updateTimeFirst (incPosAct (s.blocksInfo.blocks (s.blocksInfo.minHeap.data 0))).1)
  have hblocks : t.blocks = Function.update s.blocksInfo.blocks (s.blocksInfo.minHeap.data 0)
    (updateTimeFirst (incPosAct (s.blocksInfo.blocks (s.blocksInfo.minHeap.data 0))).1) := rfl
  generalize s.blocksInfo.minHeap.data 0 = i at *
  have hmin := h.held i hi
  obtain ⟨hpositions, hbefore⟩ := incPosAct_true hmin.positions hnext
  have hother : ∀ j, j ≠ i → t.blocks j = s.blocksInfo.blocks j := by
    intro j hne
    rw [hblocks]
    exact Function.update_of_ne hne _ _
  have hself : t.blocks i = updateTimeFirst (incPosAct (s.blocksInfo.blocks i)).1 := by
    rw [hblocks, Function.update_self]
  have hstore : ∀ j, (t.blocks j).blockStore = (s.blocksInfo.blocks j).blockStore := by
    intro j
    by_cases hji : j = i
    · rw [hji, hself]
      rfl
    · rw [hother j hji]
  refine ⟨htable, ?_, ?_, ?_, h.ident, h.trash_nodup, h.trash_lt, houts.1, houts.2⟩
  · intro j hj
    change Held _ (t.blocks j)
    by_cases hji : j = i
    · subst hji
      rw [hself]
      refine ⟨hmin.known, ⟨hpositions.act_le, hpositions.last_lt, hpositions.act_kept,
        hpositions.last_kept, hpositions.rest⟩, rfl, ?_, hmin.kept⟩
      change handed { s with outs := s.outs ++ [o] } (s.blocksInfo.blocks j).blockStore.id = _
      rw [handed_append, if_pos hblock, hpos, hmin.given]
      exact hbefore.symm
    · rw [hother j hji]
      apply (h.held j hj).other _ (h.held j hj).kept
      rw [hblock]
      exact h.id_ne hi hj hji
  · change (used.map (fun j => (t.blocks j).blockStore.id)).Nodup
    have hmap : used.map (fun j => (t.blocks j).blockStore.id) =
        used.map (fun j => (s.blocksInfo.blocks j).blockStore.id) := by
      apply List.map_congr_left
      intro j _
      rw [hstore j]
    rw [hmap]
    exact h.distinct
  · intro b blk hb
    change (∃ j ∈ used, (t.blocks j).blockStore = blk) ∨ (b ∈ s.trash ∧ _)
    rcases h.rest b blk hb with ⟨j, hj, hblk⟩ | ⟨hmem, hfull⟩
    · refine Or.inl ⟨j, hj, ?_⟩
      rw [hstore j]
      exact hblk
    · refine Or.inr ⟨hmem, ?_⟩
      have hne : o.block ≠ b := by
        rw [hblock]
        rintro rfl
        exact hmin.kept hmem
      change handed { s with outs := s.outs ++ [o] } b = _
      rw [handed_append, if_neg hne, List.append_nil, hfull]

lemma DequeueInv.handOut (h : DequeueInv s used free) (hused : used ≠ []) :
    ∃ s' used' free', handOut s = some s' ∧ DequeueInv s' used' free' := by
  obtain ⟨hget, hi⟩ := h.getMin_some hused
  have hmin := h.held _ hi
  unfold VoipMonitor.Dequeue.handOut
  rw [hget]
  dsimp only
  generalize ho : ({ block := _, pos := _, utime := _, heads := _ } : Out) = o
  have hblock : o.block =
      (s.blocksInfo.blocks (s.blocksInfo.minHeap.data 0)).blockStore.id := by rw [← ho]
  have hpos : o.pos = (s.blocksInfo.blocks (s.blocksInfo.minHeap.data 0)).posAct := by rw [← ho]
  have houts := h.outs_append hmin hblock hpos (by rw [← ho]) (by
    intro t ht
    rw [← ho] at ht ⊢
    exact h.oldest_min hused ht)
  by_cases hlast : (incPosAct (s.blocksInfo.blocks (s.blocksInfo.minHeap.data 0))).2 = false
  · rw [if_pos hlast]
    have hkey : (incPosAct (s.blocksInfo.blocks (s.blocksInfo.minHeap.data 0))).1.utimeFirst =
        s.blocksInfo.key (s.blocksInfo.minHeap.data 0) := rfl
    obtain ⟨htable, hblocks⟩ := h.toTableInv.extract hused hkey
    exact ⟨_, _, _, rfl, h.handOut_last hused hblock hpos houts hlast htable hblocks⟩
  · rw [if_neg hlast]
    exact ⟨_, _, _, rfl, h.handOut_next hused hblock hpos houts (by simpa using hlast)⟩

/-! ## Runs -/

lemma DequeueInv.leave (h : DequeueInv s used free) {w : Window} {pressure : Bool}
    (hn : 0 < s.blocksInfo.blockInfoMax) (hneed : w.needBlocks ≤ s.blocksInfo.blockInfoMax)
    (hstop : drains w pressure s.blocksInfo = false) : free ≠ [] := by
  rintro rfl
  have hlen := h.length_le
  have hcount := h.usedCount
  have hfull : s.blocksInfo.isFull = true := h.isFull_iff.mpr rfl
  rw [List.length_nil, Nat.add_zero] at hlen
  unfold drains at hstop
  dsimp only at hstop
  rw [hfull, Bool.or_true, hcount, hlen, decide_eq_true (by omega), Bool.true_and] at hstop
  split at hstop
  · rw [decide_eq_true hneed] at hstop
    cases hstop
  · cases hstop

lemma arrive_blockInfoMax (s : State) (now : Nat) (packets : List PacketInfo) :
    (arrive s now packets).blocksInfo.blockInfoMax = s.blocksInfo.blockInfoMax := by
  unfold VoipMonitor.Dequeue.arrive
  dsimp only
  split
  · rfl
  · split
    · rfl
    · rename_i i t hnew
      unfold BlocksInfo.newBlock at hnew
      split at hnew
      · cases hnew
      · cases hnew
        rfl

lemma updateTimes_blockInfoMax (t : BlocksInfo) :
    t.updateTimes.blockInfoMax = t.blockInfoMax := by
  obtain ⟨a, b, c, d, heq⟩ := foldl_updateTimesOf_eq t.getUsed t.cleanTimes
  unfold BlocksInfo.updateTimes
  rw [heq]
  rfl

lemma handOut_blockInfoMax (h : handOut s = some s') :
    s'.blocksInfo.blockInfoMax = s.blocksInfo.blockInfoMax := by
  unfold VoipMonitor.Dequeue.handOut at h
  split at h
  · cases h
  · dsimp only at h
    split at h
    · cases h
      rw [updateTimes_blockInfoMax]
      unfold BlocksInfo.freeBlock
      split <;> rfl
    · cases h
      rfl

lemma DequeueInv.used_ne_nil (h : DequeueInv s used free) {w : Window} {pressure : Bool}
    (hgo : drains w pressure s.blocksInfo = true) : used ≠ [] := by
  rintro rfl
  unfold drains at hgo
  rw [h.usedCount] at hgo
  simp at hgo

lemma reach_inv {n : Nat} (hn : 0 < n) {o : Option Window} (h : Reach n o s) :
    ∃ used free, DequeueInv s used free ∧ s.blocksInfo.blockInfoMax = n ∧
      (o = none → free ≠ []) ∧ ∀ w, o = some w → w.needBlocks ≤ n := by
  induction h with
  | initial =>
    refine ⟨[], List.range n, dequeueInv_init hn, rfl, ?_, fun w hw => by cases hw⟩
    intro _ hnil
    rw [List.range_eq_nil] at hnil
    omega
  | pop w hneed packets _ ih =>
    obtain ⟨used, free, hinv, hmax, hfree, -⟩ := ih
    obtain ⟨used', free', hinv'⟩ := hinv.arrive (hfree rfl) packets w.atTime
    refine ⟨used', free', hinv', ?_, (fun h => by cases h), ?_⟩
    · rw [arrive_blockInfoMax, hmax]
    · intro w' hw'
      cases hw'
      exact hneed
  | empty w hneed _ ih =>
    obtain ⟨used, free, hinv, hmax, -, -⟩ := ih
    refine ⟨used, free, hinv, hmax, (fun h => by cases h), ?_⟩
    intro w' hw'
    cases hw'
    exact hneed
  | drain pressure _ hgo hstep ih =>
    obtain ⟨used, free, hinv, hmax, -, hneed⟩ := ih
    obtain ⟨s', used', free', hstep', hinv'⟩ := hinv.handOut (hinv.used_ne_nil hgo)
    rw [hstep] at hstep'
    cases hstep'
    refine ⟨used', free', hinv', ?_, (fun h => by cases h), hneed⟩
    rw [handOut_blockInfoMax hstep, hmax]
  | leave pressure _ hstop ih =>
    obtain ⟨used, free, hinv, hmax, -, hneed⟩ := ih
    refine ⟨used, free, hinv, hmax, fun _ => ?_, fun w hw => by cases hw⟩
    exact hinv.leave (by omega) (by rw [hmax]; exact hneed _ rfl) hstop
  | noMin pressure _ hgo hstep ih =>
    obtain ⟨used, free, hinv, -, -, -⟩ := ih
    obtain ⟨s', used', free', hstep', -⟩ := hinv.handOut (hinv.used_ne_nil hgo)
    rw [hstep] at hstep'
    cases hstep'

end Runs

/-- **Dequeue.** For every sequence of blocks and every sequence of windows, pressures and
numbers of blocks to wait for (at most the size of the table), the loop hands out of every block
the packets that are not ignored, once and in order, and always the oldest current packet; a
block goes to the trash exactly when its last packet was handed out. -/
theorem dequeue_in_order {n : Nat} (hn : 0 < n) {o : Option Window} {s : State}
    (h : Reach n o s) : DequeueOk s := by
  obtain ⟨used, free, hinv, -⟩ := reach_inv hn h
  exact hinv.ok

theorem dequeue_in_order_example : ∃ s, Reach 512 (some { needBlocks := 2 }) s ∧
    s.outs.map (fun o => (o.block, o.pos)) = [(0, 0), (1, 0), (0, 2)] ∧ s.trash = [0] ∧
    DequeueOk s := by
  let w : Window := { needBlocks := 2 }
  let s₁ := arrive (init 512) 0 [⟨5, false⟩, ⟨6, true⟩, ⟨9, false⟩, ⟨9, true⟩]
  let s₂ := arrive s₁ 0 [⟨7, false⟩, ⟨11, false⟩]
  let s₃ := (handOut s₂).get (by decide +kernel)
  let s₄ := (handOut s₃).get (by decide +kernel)
  let s₅ := (handOut s₄).get (by decide +kernel)
  have h₁ : Reach 512 (some w) s₁ := .pop w (by decide) _ .initial
  have h₂ : Reach 512 (some w) s₂ := .pop w (by decide) _ (.leave false h₁ (by decide))
  have h₃ : Reach 512 (some w) s₃ := .drain false h₂ (by decide) (Option.some_get _).symm
  have h₄ : Reach 512 (some w) s₄ := .drain false h₃ (by decide +kernel) (Option.some_get _).symm
  have h₅ : Reach 512 (some w) s₅ := .drain false h₄ (by decide +kernel) (Option.some_get _).symm
  exact ⟨s₅, h₅, by decide +kernel, by decide +kernel, dequeue_in_order (by decide) h₅⟩

end VoipMonitor.Dequeue
