import VoipMonitor.Model.Diameter

/-!
# The maps of the stack of Diameter packets

The maps for the search depend only on which queue has which identities (`Indexed`). The map of
the hop-by-hop ids leads to queues that hold a packet with the id (`Filled`), since a packet takes
the entry of its id with it. For the same reason an entry can be erased while the request that made
it is still queued.
-/

namespace VoipMonitor.DiameterStack
open VoipMonitor.Library

/-! ## The maps for the search -/

lemma mem_addFindIndex {p qp : Nat} {m : Bytes → List Nat} {index k : Bytes} :
    p ∈ addFindIndex qp m index k ↔ p ∈ m k ∨ (p = qp ∧ k = index) := by
  unfold addFindIndex
  split
  · rename_i hmem
    constructor
    · exact Or.inl
    · rintro (h | ⟨rfl, rfl⟩)
      · exact h
      · exact hmem
  · by_cases hk : k = index
    · subst hk
      rw [Function.update_self, List.mem_append, List.mem_singleton]
      simp
    · rw [Function.update_of_ne hk]
      simp [hk]

lemma mem_foldl_addFindIndex {p qp : Nat} {indexes : List Bytes} {m : Bytes → List Nat} {k : Bytes} :
    p ∈ indexes.foldl (addFindIndex qp) m k ↔ p ∈ m k ∨ (p = qp ∧ k ∈ indexes) := by
  induction indexes generalizing m with
  | nil => simp
  | cons index indexes ih =>
    rw [List.foldl_cons, ih, mem_addFindIndex, List.mem_cons]
    tauto

lemma nodup_addFindIndex {qp : Nat} {m : Bytes → List Nat} (h : ∀ k, (m k).Nodup) (index k : Bytes) :
    (addFindIndex qp m index k).Nodup := by
  unfold addFindIndex
  split
  · exact h k
  · rename_i hmem
    by_cases hk : k = index
    · subst hk
      rw [Function.update_self]
      exact List.nodup_append_comm.mp (List.nodup_cons.mpr ⟨hmem, h k⟩)
    · rw [Function.update_of_ne hk]
      exact h k

lemma nodup_foldl_addFindIndex {qp : Nat} (indexes : List Bytes) {m : Bytes → List Nat}
    (h : ∀ k, (m k).Nodup) (k : Bytes) : (indexes.foldl (addFindIndex qp) m k).Nodup := by
  induction indexes generalizing m with
  | nil => exact h k
  | cons index indexes ih => exact ih (nodup_addFindIndex h index)

lemma nodup_eraseFindIndex {qp : Nat} {m : Bytes → List Nat} (h : ∀ k, (m k).Nodup) (index k : Bytes) :
    (eraseFindIndex qp m index k).Nodup := by
  unfold eraseFindIndex
  by_cases hk : k = index
  · subst hk
    rw [Function.update_self]
    exact (h k).erase qp
  · rw [Function.update_of_ne hk]
    exact h k

lemma mem_eraseFindIndex {p qp : Nat} {m : Bytes → List Nat} (h : ∀ k, (m k).Nodup) {index k : Bytes} :
    p ∈ eraseFindIndex qp m index k ↔ p ∈ m k ∧ ¬(p = qp ∧ k = index) := by
  unfold eraseFindIndex
  by_cases hk : k = index
  · subst hk
    rw [Function.update_self, (h k).mem_erase_iff]
    tauto
  · rw [Function.update_of_ne hk]
    tauto

lemma foldl_eraseFindIndex (qp : Nat) (indexes : List Bytes) {m : Bytes → List Nat}
    (h : ∀ k, (m k).Nodup) : (∀ k, (indexes.foldl (eraseFindIndex qp) m k).Nodup) ∧
      ∀ p k, p ∈ indexes.foldl (eraseFindIndex qp) m k ↔ p ∈ m k ∧ ¬(p = qp ∧ k ∈ indexes) := by
  induction indexes generalizing m with
  | nil => exact ⟨h, fun p k => by simp⟩
  | cons index indexes ih =>
    obtain ⟨hnodup, hmem⟩ := ih (nodup_eraseFindIndex h index)
    refine ⟨hnodup, fun p k => ?_⟩
    rw [List.foldl_cons, hmem, mem_eraseFindIndex h, List.mem_cons]
    tauto

/-! ## Queues under their identities -/

def queueId (s : PacketStack) (qp : Nat) : Option SQueuePacketsId := (s.queues qp).map (fun q => q.id)

/-- The memory is the queues of `packet_stack`, and each is under exactly its identities in the maps
for the search. -/
structure Indexed (s : PacketStack) : Prop where
  stack : ∀ id qp, (id, qp) ∈ s.packetStack ↔ queueId s qp = some id
  ids : (s.packetStack.map Prod.fst).Nodup
  byTo : ∀ qp k, qp ∈ s.byTo k ↔ ∃ id, queueId s qp = some id ∧ k ∈ id.toIdentities
  byFrom : ∀ qp k, qp ∈ s.byFrom k ↔ ∃ id, queueId s qp = some id ∧ k ∈ id.fromIdentities
  toNodup : ∀ k, (s.byTo k).Nodup
  fromNodup : ∀ k, (s.byFrom k).Nodup

variable {s : PacketStack}

lemma Indexed.congr {t : PacketStack} (h : Indexed s) (hid : queueId t = queueId s)
    (hstack : t.packetStack = s.packetStack) (hto : t.byTo = s.byTo) (hfrom : t.byFrom = s.byFrom) :
    Indexed t where
  stack := by rw [hid, hstack]; exact h.stack
  ids := by rw [hstack]; exact h.ids
  byTo := by rw [hid, hto]; exact h.byTo
  byFrom := by rw [hid, hfrom]; exact h.byFrom
  toNodup := by rw [hto]; exact h.toNodup
  fromNodup := by rw [hfrom]; exact h.fromNodup

lemma indexed_empty : Indexed {} where
  stack := by simp [queueId]
  ids := List.nodup_nil
  byTo := by simp [queueId]
  byFrom := by simp [queueId]
  toNodup := fun _ => List.nodup_nil
  fromNodup := fun _ => List.nodup_nil

lemma Indexed.queueId_inj (h : Indexed s) {id : SQueuePacketsId} {p p' : Nat}
    (hp : queueId s p = some id) (hp' : queueId s p' = some id) : p = p' := by
  have hmem := (h.stack id p).mpr hp
  have hmem' := (h.stack id p').mpr hp'
  exact congrArg Prod.snd (List.inj_on_of_nodup_map h.ids hmem hmem' rfl)

lemma Indexed.find_some (h : Indexed s) {id : SQueuePacketsId} {qp : Nat} (hfind : find s id = some qp) :
    queueId s qp = some id := by
  obtain ⟨⟨id', qp'⟩, hfind', rfl⟩ := Option.map_eq_some_iff.mp hfind
  have hid : id' = id := by simpa using List.find?_some hfind'
  subst hid
  exact (h.stack id' qp').mp (List.mem_of_find?_eq_some hfind')

lemma find_none {id : SQueuePacketsId} (hfind : find s id = none) : id ∉ s.packetStack.map Prod.fst := by
  intro hmem
  obtain ⟨e, he, rfl⟩ := List.mem_map.mp hmem
  have hnone := List.find?_eq_none.mp (Option.map_eq_none_iff.mp hfind) e he
  simp at hnone

lemma queueId_update {t : PacketStack} {qp : Nat} (q : Option CQueuePackets)
    (ht : t.queues = Function.update s.queues qp q) (p : Nat) :
    queueId t p = if p = qp then q.map (fun q => q.id) else queueId s p := by
  unfold queueId
  rw [ht]
  by_cases hp : p = qp
  · rw [if_pos hp, hp, Function.update_self]
  · rw [if_neg hp, Function.update_of_ne hp]

lemma Indexed.newQueue (h : Indexed s) {alloc : Nat} {id : SQueuePacketsId}
    (hfree : s.queues alloc = none) (hfind : find s id = none) :
    Indexed (addFindIndexes { s with
      queues := Function.update s.queues alloc (some { id := id })
      packetStack := s.packetStack ++ [(id, alloc)] } alloc id) := by
  have hnew := find_none hfind
  have hnone : queueId s alloc = none := by rw [queueId, hfree]; rfl
  have hid : ∀ p, queueId (addFindIndexes { s with
      queues := Function.update s.queues alloc (some { id := id })
      packetStack := s.packetStack ++ [(id, alloc)] } alloc id) p =
        if p = alloc then some id else queueId s p := queueId_update (some { id := id }) rfl
  -- one lemma serves both maps: the new queue is added under its strings
  have hindex : ∀ (m : Bytes → List Nat) (strings : SQueuePacketsId → List Bytes),
      (∀ qp k, qp ∈ m k ↔ ∃ id, queueId s qp = some id ∧ k ∈ strings id) → ∀ qp k,
      qp ∈ (strings id).foldl (addFindIndex alloc) m k ↔
        ∃ id', (if qp = alloc then some id else queueId s qp) = some id' ∧ k ∈ strings id' := by
    intro m strings hm qp k
    rw [mem_foldl_addFindIndex, hm]
    by_cases hqp : qp = alloc
    · subst hqp
      rw [hnone, if_pos rfl]
      simp
    · rw [if_neg hqp]
      simp [hqp]
  refine ⟨fun id' qp => ?_, ?_, fun qp k => ?_, fun qp k => ?_, ?_, ?_⟩
  · rw [hid]
    change (id', qp) ∈ s.packetStack ++ [(id, alloc)] ↔ _
    rw [List.mem_append, List.mem_singleton, Prod.mk.injEq, h.stack]
    by_cases hqp : qp = alloc
    · subst hqp
      rw [hnone, if_pos rfl, Option.some.injEq]
      simp [eq_comm]
    · rw [if_neg hqp]
      simp [hqp]
  · change ((s.packetStack ++ [(id, alloc)]).map Prod.fst).Nodup
    rw [List.map_append, List.map_cons, List.map_nil]
    exact List.nodup_append_comm.mp (List.nodup_cons.mpr ⟨hnew, h.ids⟩)
  · rw [hid]
    exact hindex s.byTo SQueuePacketsId.toIdentities h.byTo qp k
  · rw [hid]
    exact hindex s.byFrom SQueuePacketsId.fromIdentities h.byFrom qp k
  · exact nodup_foldl_addFindIndex _ h.toNodup
  · exact nodup_foldl_addFindIndex _ h.fromNodup

lemma Indexed.deleteQueue (h : Indexed s) {qp : Nat} {id : SQueuePacketsId}
    (hqp : queueId s qp = some id) (m : Nat → Option Nat) :
    Indexed (eraseFindIndexes { s with
      hbhIdToQueue := m
      packetStack := s.packetStack.filter (fun e => e.1 ≠ id)
      queues := Function.update s.queues qp none } qp id) := by
  have hid : ∀ p, queueId (eraseFindIndexes { s with
      hbhIdToQueue := m
      packetStack := s.packetStack.filter (fun e => e.1 ≠ id)
      queues := Function.update s.queues qp none } qp id) p =
        if p = qp then none else queueId s p := queueId_update none rfl
  have hindex : ∀ (m : Bytes → List Nat) (strings : SQueuePacketsId → List Bytes),
      (∀ p k, p ∈ m k ↔ ∃ id, queueId s p = some id ∧ k ∈ strings id) → ∀ p k,
      (p ∈ m k ∧ ¬(p = qp ∧ k ∈ strings id)) ↔
        ∃ id', (if p = qp then none else queueId s p) = some id' ∧ k ∈ strings id' := by
    intro m strings hm p k
    rw [hm]
    by_cases hp : p = qp
    · subst hp
      rw [hqp, if_pos rfl]
      simp
    · rw [if_neg hp]
      simp [hp]
  obtain ⟨htoNodup, hto⟩ := foldl_eraseFindIndex qp id.toIdentities h.toNodup
  obtain ⟨hfromNodup, hfrom⟩ := foldl_eraseFindIndex qp id.fromIdentities h.fromNodup
  refine ⟨fun id' p => ?_, ?_, fun p k => ?_, fun p k => ?_, htoNodup, hfromNodup⟩
  · rw [hid]
    change (id', p) ∈ s.packetStack.filter (fun e => e.1 ≠ id) ↔ _
    rw [List.mem_filter, h.stack]
    by_cases hp : p = qp
    · subst hp
      rw [hqp, if_pos rfl]
      simp only [Option.some.injEq, decide_eq_true_eq]
      constructor
      · rintro ⟨rfl, hne⟩
        exact absurd rfl hne
      · exact nofun
    · rw [if_neg hp]
      constructor
      · exact And.left
      · intro hp'
        refine ⟨hp', ?_⟩
        rw [decide_eq_true_eq]
        rintro rfl
        exact hp (h.queueId_inj hp' hqp)
  · exact List.Nodup.sublist (List.filter_sublist.map _) h.ids
  · rw [hid]
    exact (hto p k).trans (hindex s.byTo SQueuePacketsId.toIdentities h.byTo p k)
  · rw [hid]
    exact (hfrom p k).trans (hindex s.byFrom SQueuePacketsId.fromIdentities h.byFrom p k)

/-! ## The packets of the queues -/

structure Filled (s : PacketStack) : Prop where
  packets : ∀ qp q, s.queues qp = some q → q.packets ≠ []
  hbh : ∀ h qp, s.hbhIdToQueue h = some qp →
    ∃ q, s.queues qp = some q ∧ ∃ x ∈ q.packets, x.hbhId = h

lemma filled_empty : Filled {} := ⟨nofun, nofun⟩

lemma Indexed.pushBack (h : Indexed s) {qp : Nat} (packet : SPacket) :
    Indexed (pushBack s qp packet) := by
  refine h.congr (funext fun p => ?_) rfl rfl rfl
  rw [queueId_update _ rfl]
  split
  · rename_i hp
    rw [hp, queueId, Option.map_map]
    rfl
  · rfl

/-- What the locked part of `add` does: the packet goes to the end of a queue, which may be a new
one, and a request is entered under its id; or an answer has no queue. -/
lemma addPacket_cases (h : Indexed s) (hf : Filled s) {alloc : Nat} (hfree : s.queues alloc = none)
    (packet : SPacket) (id : SQueuePacketsId) :
    Indexed (addPacket s alloc packet id).1 ∧
    ((∃ qp q, (s.queues qp = some q ∨ s.queues qp = none ∧ q.packets = []) ∧
      (addPacket s alloc packet id).1.queues =
        Function.update s.queues qp (some { q with packets := q.packets ++ [packet] }) ∧
      (packet.isRequest = true ∧ (addPacket s alloc packet id).1.hbhIdToQueue =
          Function.update s.hbhIdToQueue packet.hbhId (some qp) ∨
        packet.isRequest = false ∧ s.hbhIdToQueue packet.hbhId = some qp ∧
          (addPacket s alloc packet id).1.hbhIdToQueue = s.hbhIdToQueue)) ∨
      packet.isRequest = false ∧ (addPacket s alloc packet id).1 = s) := by
  unfold addPacket
  cases hrequest : packet.isRequest with
  | true =>
    rw [if_pos rfl]
    unfold queueFor
    cases hfind : find s id with
    | some qp =>
      obtain ⟨q, hq, -⟩ := Option.map_eq_some_iff.mp (h.find_some hfind)
      refine ⟨?_, Or.inl ⟨qp, q, Or.inl hq, ?_, ?_⟩⟩
      · apply Indexed.pushBack
        exact h.congr rfl rfl rfl rfl
      · change Function.update s.queues qp ((s.queues qp).map _) = _
        rw [hq]
        rfl
      · exact Or.inl ⟨rfl, rfl⟩
    | none =>
      refine ⟨?_, Or.inl ⟨alloc, { id := id }, Or.inr ⟨hfree, rfl⟩, ?_, ?_⟩⟩
      · apply Indexed.pushBack
        exact (h.newQueue hfree hfind).congr rfl rfl rfl rfl
      · change Function.update (Function.update s.queues alloc (some { id := id })) alloc
          ((Function.update s.queues alloc (some { id := id }) alloc).map _) = _
        rw [Function.update_self, Function.update_idem]
        rfl
      · exact Or.inl ⟨rfl, rfl⟩
  | false =>
    rw [if_neg Bool.false_ne_true]
    cases hhbh : s.hbhIdToQueue packet.hbhId with
    | some qp =>
      obtain ⟨q, hq, -⟩ := hf.hbh _ _ hhbh
      refine ⟨h.pushBack packet, Or.inl ⟨qp, q, Or.inl hq, ?_, ?_⟩⟩
      · change Function.update s.queues qp ((s.queues qp).map _) = _
        rw [hq]
        rfl
      · exact Or.inr ⟨rfl, rfl, rfl⟩
    | none => exact ⟨h, Or.inr ⟨rfl, rfl⟩⟩

lemma Filled.addPacket (hf : Filled s) (h : Indexed s) {alloc : Nat} (hfree : s.queues alloc = none)
    (packet : SPacket) (id : SQueuePacketsId) : Filled (addPacket s alloc packet id).1 := by
  rcases (addPacket_cases h hf hfree packet id).2 with ⟨qp, q, hq, hqueues, hhbh⟩ | ⟨-, hsame⟩
  · refine ⟨fun p q' hp => ?_, fun i p hp => ?_⟩
    · rw [hqueues] at hp
      by_cases hqp : p = qp
      · rw [hqp, Function.update_self] at hp
        obtain rfl := Option.some.inj hp
        exact List.append_ne_nil_of_right_ne_nil _ (List.cons_ne_nil _ _)
      · rw [Function.update_of_ne hqp] at hp
        exact hf.packets p q' hp
    · -- an entry is the old one, whose queue only grows, or that of the request
      have hentry : (p = qp ∧ i = packet.hbhId) ∨ s.hbhIdToQueue i = some p := by
        rcases hhbh with ⟨-, hnew⟩ | ⟨-, -, hold⟩
        · rw [hnew] at hp
          by_cases hi : i = packet.hbhId
          · rw [hi, Function.update_self] at hp
            exact Or.inl ⟨(Option.some.inj hp).symm, hi⟩
          · rw [Function.update_of_ne hi] at hp
            exact Or.inr hp
        · rw [hold] at hp
          exact Or.inr hp
      rw [hqueues]
      by_cases hqp : p = qp
      · rw [hqp, Function.update_self]
        refine ⟨_, rfl, ?_⟩
        rcases hentry with ⟨-, hi⟩ | hold
        · exact ⟨packet, List.mem_append_right _ (List.mem_singleton_self _), hi.symm⟩
        · obtain ⟨q', hq', x, hx, hxi⟩ := hf.hbh i p hold
          rw [hqp] at hq'
          rcases hq with hq | ⟨hq, -⟩
          · obtain rfl := Option.some.inj (hq.symm.trans hq')
            exact ⟨x, List.mem_append_left _ hx, hxi⟩
          · exact nomatch hq.symm.trans hq'
      · rw [Function.update_of_ne hqp]
        rcases hentry with ⟨hp', -⟩ | hold
        · exact absurd hp' hqp
        · exact hf.hbh i p hold
  · rw [hsame]
    exact hf

/-! ## Packets that are removed -/

lemma eraseHbhIds_none {removed : List SPacket} {m : Nat → Option Nat} {h : Nat}
    (hmem : (∃ x ∈ removed, x.hbhId = h) ∨ m h = none) : eraseHbhIds removed m h = none := by
  induction removed generalizing m with
  | nil =>
    rcases hmem with ⟨x, hx, -⟩ | hm
    · cases hx
    · exact hm
  | cons p removed ih =>
    refine ih ?_
    change (∃ x ∈ removed, x.hbhId = h) ∨ Function.update m p.hbhId none h = none
    by_cases hp : h = p.hbhId
    · right
      rw [hp, Function.update_self]
    · rcases hmem with ⟨x, hx, hxh⟩ | hm
      · rcases List.mem_cons.mp hx with rfl | hx
        · exact absurd hxh.symm hp
        · exact Or.inl ⟨x, hx, hxh⟩
      · right
        rw [Function.update_of_ne hp, hm]

lemma eraseHbhIds_of_ne {removed : List SPacket} {m : Nat → Option Nat} {h : Nat}
    (hne : ∀ x ∈ removed, x.hbhId ≠ h) : eraseHbhIds removed m h = m h := by
  induction removed generalizing m with
  | nil => rfl
  | cons p removed ih =>
    have hp : h ≠ p.hbhId := (hne p List.mem_cons_self).symm
    have hrest : eraseHbhIds removed (Function.update m p.hbhId none) h =
        Function.update m p.hbhId none h := ih (fun x hx => hne x (List.mem_cons_of_mem _ hx))
    rw [Function.update_of_ne hp] at hrest
    exact hrest

abbrev Split := CQueuePackets → Option (List SPacket × List SPacket)

def removedOf (split : Split) (q : CQueuePackets) : List SPacket := (split q).elim [] Prod.fst

def keptOf (split : Split) (q : CQueuePackets) : List SPacket := (split q).elim q.packets Prod.snd

def Covers (split : Split) : Prop :=
  ∀ q x, x ∈ q.packets ↔ x ∈ removedOf split q ∨ x ∈ keptOf split q

lemma covers_retrieveSplit (cfg : Config) (fromTime toTime : Nat) :
    Covers (retrieveSplit cfg fromTime toTime) := by
  intro q x
  simp only [removedOf, keptOf, retrieveSplit, Option.elim_some, List.mem_filter]
  cases inWindow cfg fromTime toTime x with
  | true => simp
  | false => simp

lemma covers_cleanupSplit (cfg : Config) (used : SQueuePacketsId → Bool) (timeUs : Nat) :
    Covers (cleanupSplit cfg used timeUs) := by
  intro q x
  unfold removedOf keptOf cleanupSplit
  generalize (if q.ageS timeUs > (cfg.absoluteTimeout + 120) % 2 ^ 32 then true
    else if q.ageS timeUs > ageExpirationS then !used q.id else false) = doCleanup
  cases doCleanup with
  | true =>
    rw [if_pos rfl, Option.elim_some, Option.elim_some, ← List.mem_append, List.takeWhile_append_dropWhile]
  | false =>
    rw [if_neg Bool.false_ne_true, Option.elim_none, Option.elim_none]
    simp

def swept (split : Split) (q : CQueuePackets) : Option CQueuePackets :=
  if keptOf split q = [] then none else some { id := q.id, packets := keptOf split q }

lemma keptOf_none {split : Split} {q : CQueuePackets} (h : split q = none) :
    keptOf split q = q.packets := by
  rw [keptOf, h, Option.elim_none]

lemma keptOf_some {split : Split} {q : CQueuePackets} {removed kept : List SPacket}
    (h : split q = some (removed, kept)) : keptOf split q = kept := by
  rw [keptOf, h, Option.elim_some]

lemma removedOf_some {split : Split} {q : CQueuePackets} {removed kept : List SPacket}
    (h : split q = some (removed, kept)) : removedOf split q = removed := by
  rw [removedOf, h, Option.elim_some]

lemma sweepQueue_cases (s : PacketStack) (split : Split) (qp : Nat) :
    (s.queues qp = none ∧ sweepQueue split s qp = s) ∨
    (∃ q, s.queues qp = some q ∧ split q = none ∧ sweepQueue split s qp = s) ∨
    ∃ q removed kept, s.queues qp = some q ∧ split q = some (removed, kept) ∧
      sweepQueue split s qp = dropPackets s qp q.id removed kept := by
  unfold sweepQueue
  cases hq : s.queues qp with
  | none => exact Or.inl ⟨rfl, rfl⟩
  | some q =>
    cases hsplit : split q with
    | none =>
      refine Or.inr (Or.inl ⟨q, rfl, hsplit, ?_⟩)
      dsimp only
      rw [hsplit]
    | some r =>
      obtain ⟨removed, kept⟩ := r
      refine Or.inr (Or.inr ⟨q, removed, kept, rfl, hsplit, ?_⟩)
      dsimp only
      rw [hsplit]

lemma sweepQueue_queues (hf : Filled s) (split : Split) (qp : Nat) :
    (sweepQueue split s qp).queues = Function.update s.queues qp ((s.queues qp).bind (swept split)) := by
  rcases sweepQueue_cases s split qp with ⟨hq, hsweep⟩ | ⟨q, hq, hsplit, hsweep⟩ |
    ⟨q, removed, kept, hq, hsplit, hsweep⟩
  · rw [hsweep, hq, Option.bind_none, ← hq, Function.update_eq_self]
  · have hsame : swept split q = s.queues qp := by
      rw [swept, keptOf_none hsplit, if_neg (hf.packets qp q hq), hq]
    rw [hsweep, hq, Option.bind_some, hsame, Function.update_eq_self]
  · rw [hsweep, hq, Option.bind_some, swept, keptOf_some hsplit, dropPackets]
    split
    · rfl
    · rfl

lemma sweepQueue_hbh (s : PacketStack) (split : Split) (qp : Nat) : (sweepQueue split s qp).hbhIdToQueue =
    eraseHbhIds ((s.queues qp).elim [] (removedOf split)) s.hbhIdToQueue := by
  rcases sweepQueue_cases s split qp with ⟨hq, hsweep⟩ | ⟨q, hq, hsplit, hsweep⟩ |
    ⟨q, removed, kept, hq, hsplit, hsweep⟩
  · rw [hsweep, hq, Option.elim_none]
    rfl
  · rw [hsweep, hq, Option.elim_some, removedOf, hsplit, Option.elim_none]
    rfl
  · rw [hsweep, hq, Option.elim_some, removedOf_some hsplit, dropPackets]
    split
    · rfl
    · rfl

lemma Indexed.sweepQueue (h : Indexed s) (split : Split) (qp : Nat) :
    Indexed (sweepQueue split s qp) := by
  rcases sweepQueue_cases s split qp with ⟨-, hsweep⟩ | ⟨q, -, -, hsweep⟩ |
    ⟨q, removed, kept, hq, -, hsweep⟩
  · rwa [hsweep]
  · rwa [hsweep]
  · have hid : queueId s qp = some q.id := by rw [queueId, hq]; rfl
    rw [hsweep, dropPackets]
    split
    · exact h.deleteQueue hid _
    · refine h.congr (funext fun p => ?_) rfl rfl rfl
      refine (queueId_update (some { id := q.id, packets := kept }) rfl p).trans ?_
      split
      · rename_i hp
        rw [hp, hid]
        rfl
      · rfl

lemma Filled.sweepQueue (hf : Filled s) {split : Split} (hsplit : Covers split) (qp : Nat) :
    Filled (sweepQueue split s qp) := by
  have hqueues := sweepQueue_queues hf split qp
  have hhbh := sweepQueue_hbh s split qp
  refine ⟨fun p q hp => ?_, fun i p hp => ?_⟩
  · rw [hqueues] at hp
    by_cases hqp : p = qp
    · rw [hqp, Function.update_self] at hp
      obtain ⟨q', hq', hswept⟩ := Option.bind_eq_some_iff.mp hp
      unfold swept at hswept
      split at hswept
      · cases hswept
      · rename_i hkept
        obtain rfl := Option.some.inj hswept
        exact hkept
    · rw [Function.update_of_ne hqp] at hp
      exact hf.packets p q hp
  · rw [hhbh] at hp
    -- an entry that is left is not one of a removed packet
    have hne : ∀ x ∈ (s.queues qp).elim [] (removedOf split), x.hbhId ≠ i := by
      intro x hx hxi
      rw [eraseHbhIds_none (Or.inl ⟨x, hx, hxi⟩)] at hp
      cases hp
    rw [eraseHbhIds_of_ne hne] at hp
    obtain ⟨q, hq, x, hx, hxi⟩ := hf.hbh i p hp
    rw [hqueues]
    by_cases hqp : p = qp
    · subst hqp
      rw [Function.update_self, hq, Option.bind_some]
      rw [hq, Option.elim_some] at hne
      have hkept : x ∈ keptOf split q := ((hsplit q x).mp hx).resolve_left (fun hr => hne x hr hxi)
      refine ⟨_, if_neg (List.ne_nil_of_mem hkept), x, hkept, hxi⟩
    · rw [Function.update_of_ne hqp]
      exact ⟨q, hq, x, hx, hxi⟩

def sweep (split : Split) (s : PacketStack) (qpl : List Nat) : PacketStack :=
  qpl.foldl (sweepQueue split) s

lemma sweep_inv {split : Split} (hsplit : Covers split) (qpl : List Nat) (h : Indexed s) (hf : Filled s) :
    Indexed (sweep split s qpl) ∧ Filled (sweep split s qpl) := by
  induction qpl generalizing s with
  | nil => exact ⟨h, hf⟩
  | cons qp qpl ih => exact ih (h.sweepQueue split qp) (hf.sweepQueue hsplit qp)

lemma sweep_queues {split : Split} (hsplit : Covers split) {qpl : List Nat} (hnodup : qpl.Nodup)
    (hf : Filled s) (p : Nat) :
    (sweep split s qpl).queues p =
      if p ∈ qpl then (s.queues p).bind (swept split) else s.queues p := by
  induction qpl generalizing s with
  | nil => rfl
  | cons qp qpl ih =>
    obtain ⟨hnew, hnodup⟩ := List.nodup_cons.mp hnodup
    have hrest := ih hnodup (hf.sweepQueue hsplit qp)
    rw [sweepQueue_queues hf] at hrest
    refine hrest.trans ?_
    by_cases hp : p = qp
    · rw [hp, if_neg hnew, if_pos List.mem_cons_self, Function.update_self]
    · rw [Function.update_of_ne hp]
      simp [hp]

lemma sweep_hbh {split : Split} (hsplit : Covers split) {qpl : List Nat} (hnodup : qpl.Nodup)
    (hf : Filled s) {h : Nat}
    (hne : ∀ qp ∈ qpl, ∀ q, s.queues qp = some q → ∀ x ∈ removedOf split q, x.hbhId ≠ h) :
    (sweep split s qpl).hbhIdToQueue h = s.hbhIdToQueue h := by
  induction qpl generalizing s with
  | nil => rfl
  | cons qp qpl ih =>
    obtain ⟨hnew, hnodup⟩ := List.nodup_cons.mp hnodup
    have hfirst : (sweepQueue split s qp).hbhIdToQueue h = s.hbhIdToQueue h := by
      rw [sweepQueue_hbh, eraseHbhIds_of_ne]
      intro x hx
      cases hq : s.queues qp with
      | none =>
        rw [hq] at hx
        cases hx
      | some q =>
        rw [hq] at hx
        exact hne qp List.mem_cons_self q hq x hx
    refine (ih hnodup (hf.sweepQueue hsplit qp) (fun p hp q hq => ?_)).trans hfirst
    have hother : p ≠ qp := by
      rintro rfl
      exact hnew hp
    rw [sweepQueue_queues hf, Function.update_of_ne hother] at hq
    exact hne p (List.mem_cons_of_mem _ hp) q hq

lemma Indexed.nodup_pointers (h : Indexed s) : (s.packetStack.map Prod.snd).Nodup := by
  refine List.Nodup.map_on ?_ (List.Nodup.of_map _ h.ids)
  rintro ⟨id, p⟩ he ⟨id', p'⟩ he' hp
  dsimp only at hp
  subst hp
  have hid := ((h.stack id p).mp he).symm.trans ((h.stack id' p).mp he')
  rw [Option.some.inj hid]

lemma Indexed.nodup_found (h : Indexed s) (typeRetrieve : TypeRetrieve) (identity : Bytes) :
    (found s typeRetrieve identity).Nodup := by
  cases typeRetrieve with
  | trFrom => exact h.fromNodup identity
  | trTo => exact h.toNodup identity

/-! ## Runs -/

/-- The loop that a call ends with: the stack in front of it, the queues and the packets that it
removes. -/
structure Loop where
  stack : PacketStack
  qpl : List Nat
  split : Split

def loopOf (cfg : Config) (t : Traced) : Op → Loop
  | .add alloc isRequest hbhId id timeUs used =>
    let s := (addPacket t.stack alloc ⟨t.count, isRequest, hbhId, timeUs⟩ id).1
    ⟨s, if cleanupDue s timeUs then s.packetStack.map Prod.snd else [], cleanupSplit cfg used timeUs⟩
  | .retrieve typeRetrieve identity fromTime toTime =>
    ⟨t.stack, found t.stack typeRetrieve identity, retrieveSplit cfg fromTime toTime⟩
  | .cleanup timeUs used =>
    ⟨t.stack, t.stack.packetStack.map Prod.snd, cleanupSplit cfg used timeUs⟩

def recentAfter (t : Traced) : Op → Nat → Option Nat
  | .add _ isRequest hbhId _ _ _ =>
    if isRequest then Function.update t.recent hbhId (some t.count) else t.recent
  | .retrieve .. => t.recent
  | .cleanup .. => t.recent

def Loop.kept (w : Loop) (qp : Nat) (q : CQueuePackets) : List SPacket :=
  if qp ∈ w.qpl then keptOf w.split q else q.packets

/-- The call removes no packet with the hop-by-hop id of a request that is the most recent one with
this id and stays in its queue. -/
def SparesRecent (cfg : Config) (t : Traced) (op : Op) : Prop :=
  ∀ h n, recentAfter t op h = some n →
    (∃ qp q, (loopOf cfg t op).stack.queues qp = some q ∧
      ∃ x ∈ (loopOf cfg t op).kept qp q, x.packet = n) →
    ∀ qp ∈ (loopOf cfg t op).qpl, ∀ q, (loopOf cfg t op).stack.queues qp = some q →
      ∀ x ∈ removedOf (loopOf cfg t op).split q, x.hbhId ≠ h

structure Numbered (t : Traced) : Prop where
  packets : ∀ qp q, t.stack.queues qp = some q → ∀ x ∈ q.packets, x.packet < t.count
  recent : ∀ h n, t.recent h = some n → n < t.count

def RecentFound (t : Traced) : Prop :=
  ∀ h n qp q, t.recent h = some n → t.stack.queues qp = some q →
    (∃ x ∈ q.packets, x.packet = n) → t.stack.hbhIdToQueue h = some qp

def beforeLoop (cfg : Config) (t : Traced) (op : Op) : Traced where
  stack := (loopOf cfg t op).stack
  count := match op with
    | .add .. => t.count + 1
    | _ => t.count
  recent := recentAfter t op

lemma step_eq {cfg : Config} {t t' : Traced} {op : Op} (hstep : step cfg t op = some t') :
    t'.count = (beforeLoop cfg t op).count ∧ t'.recent = (beforeLoop cfg t op).recent ∧
      ∃ last, t'.stack = { sweep (loopOf cfg t op).split (loopOf cfg t op).stack (loopOf cfg t op).qpl with
        lastCleanupS := last } := by
  cases op with
  | add alloc isRequest hbhId id timeUs used =>
    unfold step at hstep
    dsimp only at hstep
    split at hstep
    · cases hstep
    · obtain rfl := Option.some.inj hstep
      refine ⟨rfl, rfl, ?_⟩
      unfold add loopOf
      dsimp only
      generalize (addPacket t.stack alloc ⟨t.count, isRequest, hbhId, timeUs⟩ id) = r
      split
      · rename_i hzero
        have hdue : cleanupDue r.1 timeUs = false := by
          unfold cleanupDue
          rw [hzero]
          rfl
        rw [hdue, if_neg Bool.false_ne_true]
        exact ⟨_, rfl⟩
      · split
        · exact ⟨_, rfl⟩
        · exact ⟨_, rfl⟩
  | retrieve typeRetrieve identity fromTime toTime =>
    obtain rfl := Option.some.inj hstep
    exact ⟨rfl, rfl, _, rfl⟩
  | cleanup timeUs used =>
    obtain rfl := Option.some.inj hstep
    exact ⟨rfl, rfl, _, rfl⟩

lemma covers_loopOf (cfg : Config) (t : Traced) (op : Op) : Covers (loopOf cfg t op).split := by
  cases op with
  | add => exact covers_cleanupSplit _ _ _
  | retrieve => exact covers_retrieveSplit _ _ _
  | cleanup => exact covers_cleanupSplit _ _ _

lemma nodup_loopOf {cfg : Config} {t : Traced} {op : Op} (h : Indexed (loopOf cfg t op).stack) :
    (loopOf cfg t op).qpl.Nodup := by
  cases op with
  | add alloc isRequest hbhId id timeUs used =>
    unfold loopOf at h ⊢
    dsimp only at h ⊢
    split
    · exact h.nodup_pointers
    · exact List.nodup_nil
  | retrieve => exact h.nodup_found _ _
  | cleanup => exact h.nodup_pointers

structure Inv (t : Traced) : Prop where
  indexed : Indexed t.stack
  filled : Filled t.stack
  numbered : Numbered t

lemma inv_start : Inv {} := ⟨indexed_empty, filled_empty, ⟨nofun, nofun⟩⟩

lemma step_add_free {cfg : Config} {t t' : Traced} {alloc hbhId timeUs : Nat} {isRequest : Bool}
    {id : SQueuePacketsId} {used : SQueuePacketsId → Bool}
    (hstep : step cfg t (.add alloc isRequest hbhId id timeUs used) = some t') :
    t.stack.queues alloc = none := by
  unfold step at hstep
  dsimp only at hstep
  split at hstep
  · cases hstep
  · rename_i hfree
    exact not_not.mp hfree

lemma Inv.beforeLoop {cfg : Config} {t t' : Traced} {op : Op} (h : Inv t)
    (hstep : step cfg t op = some t') : Inv (beforeLoop cfg t op) := by
  cases op with
  | retrieve => exact ⟨h.indexed, h.filled, h.numbered⟩
  | cleanup => exact ⟨h.indexed, h.filled, h.numbered⟩
  | add alloc isRequest hbhId id timeUs used =>
    have hfree := step_add_free hstep
    obtain ⟨hindexed, hcases⟩ := addPacket_cases h.indexed h.filled hfree
      ⟨t.count, isRequest, hbhId, timeUs⟩ id
    refine ⟨hindexed, h.filled.addPacket h.indexed hfree _ _, fun p q hp x hx => ?_, fun i n hn => ?_⟩
    · change x.packet < t.count + 1
      change (addPacket t.stack alloc ⟨t.count, isRequest, hbhId, timeUs⟩ id).1.queues p = some q at hp
      rcases hcases with ⟨qp, q₀, hq₀, hqueues, -⟩ | ⟨-, hsame⟩
      · rw [hqueues] at hp
        by_cases hqp : p = qp
        · rw [hqp, Function.update_self] at hp
          obtain rfl := Option.some.inj hp
          rcases List.mem_append.mp hx with hx | hx
          · rcases hq₀ with hq₀ | ⟨-, hempty⟩
            · exact Nat.lt_succ_of_lt (h.numbered.packets qp q₀ hq₀ x hx)
            · rw [hempty] at hx
              cases hx
          · rw [List.mem_singleton.mp hx]
            exact Nat.lt_succ_self _
        · rw [Function.update_of_ne hqp] at hp
          exact Nat.lt_succ_of_lt (h.numbered.packets p q hp x hx)
      · rw [hsame] at hp
        exact Nat.lt_succ_of_lt (h.numbered.packets p q hp x hx)
    · change n < t.count + 1
      change (if isRequest then Function.update t.recent hbhId (some t.count) else t.recent) i = some n at hn
      split at hn
      · by_cases hi : i = hbhId
        · rw [hi, Function.update_self] at hn
          obtain rfl := Option.some.inj hn
          exact Nat.lt_succ_self _
        · rw [Function.update_of_ne hi] at hn
          exact Nat.lt_succ_of_lt (h.numbered.recent i n hn)
      · exact Nat.lt_succ_of_lt (h.numbered.recent i n hn)

lemma RecentFound.beforeLoop {cfg : Config} {t t' : Traced} {op : Op} (hr : RecentFound t) (h : Inv t)
    (hstep : step cfg t op = some t') : RecentFound (beforeLoop cfg t op) := by
  cases op with
  | retrieve => exact hr
  | cleanup => exact hr
  | add alloc isRequest hbhId id timeUs used =>
    have hfree := step_add_free hstep
    rintro i n p q hn hp ⟨x, hx, rfl⟩
    change (if isRequest then Function.update t.recent hbhId (some t.count) else t.recent) i =
      some x.packet at hn
    change (addPacket t.stack alloc ⟨t.count, isRequest, hbhId, timeUs⟩ id).1.queues p = some q at hp
    change (addPacket t.stack alloc ⟨t.count, isRequest, hbhId, timeUs⟩ id).1.hbhIdToQueue i = some p
    rcases (addPacket_cases h.indexed h.filled hfree ⟨t.count, isRequest, hbhId, timeUs⟩ id).2 with
      ⟨qp, q₀, hq₀, hqueues, hhbh⟩ | ⟨hanswer, hsame⟩
    · rw [hqueues] at hp
      -- a packet other than the new one is in the queue before the call
      have hold : x.packet ≠ t.count → ∃ q', t.stack.queues p = some q' ∧ x ∈ q'.packets := by
        intro hne
        by_cases hqp : p = qp
        · rw [hqp, Function.update_self] at hp
          obtain rfl := Option.some.inj hp
          rcases List.mem_append.mp hx with hx | hx
          · rcases hq₀ with hq₀ | ⟨-, hempty⟩
            · exact ⟨q₀, hqp ▸ hq₀, hx⟩
            · rw [hempty] at hx
              cases hx
          · rw [List.mem_singleton.mp hx] at hne
            exact absurd rfl hne
        · rw [Function.update_of_ne hqp] at hp
          exact ⟨q, hp, hx⟩
      have hrecent : ∀ j, t.recent j = some x.packet → t.stack.hbhIdToQueue j = some p := by
        intro j hj
        have hlt := h.numbered.recent j _ hj
        obtain ⟨q', hq', hx'⟩ := hold (by omega)
        exact hr j _ p q' hj hq' ⟨x, hx', rfl⟩
      rcases hhbh with ⟨hrequest, hnew⟩ | ⟨hanswer, -, hkeep⟩
      · dsimp only at hrequest hnew
        rw [hrequest, if_pos rfl] at hn
        rw [hnew]
        by_cases hi : i = hbhId
        · rw [hi, Function.update_self] at hn ⊢
          have hcount : t.count = x.packet := Option.some.inj hn
          by_cases hqp : p = qp
          · rw [hqp]
          · rw [Function.update_of_ne hqp] at hp
            have hlt := h.numbered.packets p q hp x hx
            omega
        · rw [Function.update_of_ne hi] at hn ⊢
          exact hrecent i hn
      · dsimp only at hanswer
        rw [hanswer, if_neg Bool.false_ne_true] at hn
        rw [hkeep]
        exact hrecent i hn
    · dsimp only at hanswer
      rw [hanswer, if_neg Bool.false_ne_true] at hn
      rw [hsame] at hp ⊢
      exact hr i _ p q hn hp ⟨x, hx, rfl⟩

lemma mem_kept {w : Loop} (hsplit : Covers w.split) (hnodup : w.qpl.Nodup) (hf : Filled w.stack)
    {p : Nat} {q : CQueuePackets} (hp : (sweep w.split w.stack w.qpl).queues p = some q) :
    ∃ q', w.stack.queues p = some q' ∧ q.packets = w.kept p q' := by
  rw [sweep_queues hsplit hnodup hf] at hp
  unfold Loop.kept
  split at hp
  · rename_i hmem
    obtain ⟨q', hq', hswept⟩ := Option.bind_eq_some_iff.mp hp
    refine ⟨q', hq', ?_⟩
    unfold swept at hswept
    split at hswept
    · cases hswept
    · obtain rfl := Option.some.inj hswept
      rw [if_pos hmem]
  · rename_i hmem
    exact ⟨q, hp, (if_neg hmem).symm⟩

lemma Loop.kept_subset {w : Loop} (hsplit : Covers w.split) (p : Nat) (q : CQueuePackets) :
    ∀ x ∈ w.kept p q, x ∈ q.packets := by
  intro x hx
  unfold Loop.kept at hx
  split at hx
  · exact (hsplit q x).mpr (Or.inr hx)
  · exact hx

lemma Inv.step {cfg : Config} {t t' : Traced} {op : Op} (h : Inv t) (hstep : step cfg t op = some t') :
    Inv t' := by
  have hbefore := h.beforeLoop hstep
  have hsplit := covers_loopOf cfg t op
  have hnodup : (loopOf cfg t op).qpl.Nodup := nodup_loopOf hbefore.indexed
  obtain ⟨hcount, hrecent, last, hstack⟩ := step_eq hstep
  obtain ⟨hindexed, hfilled⟩ := sweep_inv hsplit (loopOf cfg t op).qpl hbefore.indexed hbefore.filled
  refine ⟨?_, ?_, ?_, ?_⟩
  · rw [hstack]
    exact hindexed.congr rfl rfl rfl rfl
  · rw [hstack]
    exact ⟨hfilled.packets, hfilled.hbh⟩
  · intro p q hp x hx
    rw [hstack] at hp
    obtain ⟨q', hq', hkept⟩ := mem_kept hsplit hnodup hbefore.filled hp
    rw [hcount]
    rw [hkept] at hx
    exact hbefore.numbered.packets p q' hq' x (Loop.kept_subset hsplit p q' x hx)
  · rw [hrecent, hcount]
    exact hbefore.numbered.recent

lemma RecentFound.step {cfg : Config} {t t' : Traced} {op : Op} (hr : RecentFound t) (h : Inv t)
    (hspares : SparesRecent cfg t op) (hstep : step cfg t op = some t') : RecentFound t' := by
  have hbefore := h.beforeLoop hstep
  have hsplit := covers_loopOf cfg t op
  have hnodup : (loopOf cfg t op).qpl.Nodup := nodup_loopOf hbefore.indexed
  obtain ⟨-, hrecent, last, hstack⟩ := step_eq hstep
  rintro i n p q hn hp ⟨x, hx, hxn⟩
  rw [hrecent] at hn
  rw [hstack] at hp ⊢
  obtain ⟨q', hq', hkept⟩ := mem_kept hsplit hnodup hbefore.filled hp
  rw [hkept] at hx
  have hfound := (hr.beforeLoop h hstep) i n p q' hn hq' ⟨x, Loop.kept_subset hsplit p q' x hx, hxn⟩
  have hkeep := sweep_hbh hsplit hnodup hbefore.filled (hspares i n hn ⟨p, q', hq', x, hx, hxn⟩)
  exact hkeep.trans hfound

/-! ## What holds in every run -/

/-- All pointers are to queues of `packet_stack`, each queue is under exactly its identities, and no
queue is empty. -/
structure Consistent (s : PacketStack) : Prop where
  pointers : ∀ qp, ((∃ k, qp ∈ s.byFrom k) ∨ (∃ k, qp ∈ s.byTo k) ∨ ∃ h, s.hbhIdToQueue h = some qp) →
    ∃ id, (id, qp) ∈ s.packetStack
  byTo : ∀ id qp, (id, qp) ∈ s.packetStack → ∀ k, qp ∈ s.byTo k ↔ k ∈ id.toIdentities
  byFrom : ∀ id qp, (id, qp) ∈ s.packetStack → ∀ k, qp ∈ s.byFrom k ↔ k ∈ id.fromIdentities
  packets : ∀ id qp, (id, qp) ∈ s.packetStack →
    ∃ q, s.queues qp = some q ∧ q.id = id ∧ q.packets ≠ []

/-- While the most recent request with an id is queued, `add` appends an answer with this id to its
queue. -/
def AnswersFollow (t : Traced) : Prop :=
  ∀ h n qp q, t.recent h = some n → t.stack.queues qp = some q → (∃ x ∈ q.packets, x.packet = n) →
    ∀ alloc packet timeUs id,
      (addPacket t.stack alloc ⟨packet, false, h, timeUs⟩ id).1.queues qp =
        some { q with packets := q.packets ++ [⟨packet, false, h, timeUs⟩] }

lemma Inv.consistent {t : Traced} (h : Inv t) : Consistent t.stack where
  pointers := by
    rintro qp (⟨k, hk⟩ | ⟨k, hk⟩ | ⟨i, hi⟩)
    · obtain ⟨id, hid, -⟩ := (h.indexed.byFrom qp k).mp hk
      exact ⟨id, (h.indexed.stack id qp).mpr hid⟩
    · obtain ⟨id, hid, -⟩ := (h.indexed.byTo qp k).mp hk
      exact ⟨id, (h.indexed.stack id qp).mpr hid⟩
    · obtain ⟨q, hq, -⟩ := h.filled.hbh i qp hi
      refine ⟨q.id, (h.indexed.stack q.id qp).mpr ?_⟩
      rw [queueId, hq]
      rfl
  byTo := by
    intro id qp hmem k
    rw [h.indexed.byTo, (h.indexed.stack id qp).mp hmem]
    simp
  byFrom := by
    intro id qp hmem k
    rw [h.indexed.byFrom, (h.indexed.stack id qp).mp hmem]
    simp
  packets := by
    intro id qp hmem
    obtain ⟨q, hq, hid⟩ := Option.map_eq_some_iff.mp ((h.indexed.stack id qp).mp hmem)
    exact ⟨q, hq, hid, h.filled.packets qp q hq⟩

lemma RecentFound.answersFollow {t : Traced} (h : RecentFound t) : AnswersFollow t := by
  intro i n qp q hn hq hx alloc packet timeUs id
  have hfound := h i n qp q hn hq hx
  unfold addPacket
  rw [if_neg Bool.false_ne_true, hfound]
  change Function.update t.stack.queues qp ((t.stack.queues qp).map _) qp = _
  rw [Function.update_self, hq]
  rfl

/-- The maps are consistent after every run. In a run that never removes a packet with the id of a
most recent request which stays queued, answers follow their requests. -/
theorem stack_consistent_answersFollow (cfg : Config) :
    (∀ t, ReachBy (step cfg) (fun _ _ => True) {} t → Consistent t.stack) ∧
      ∀ t, ReachBy (step cfg) (SparesRecent cfg) {} t → Consistent t.stack ∧ AnswersFollow t := by
  constructor
  · intro t ht
    have hinv : Inv t := ht.invariant inv_start (fun _ _ _ h _ hstep => h.step hstep)
    exact hinv.consistent
  · intro t ht
    have hinv : Inv t ∧ RecentFound t := by
      refine ht.invariant (I := fun t => Inv t ∧ RecentFound t) ⟨inv_start, nofun⟩ ?_
      rintro s op t ⟨h, hr⟩ hspares hstep
      exact ⟨h.step hstep, hr.step h hspares hstep⟩
    exact ⟨hinv.1.consistent, hinv.2.answersFollow⟩

def exampleId (name : UInt8) : SQueuePacketsId := ⟨[name], [], []⟩

def exampleConfig : Config := ⟨4 * 3600, 0⟩

def exampleAdd (alloc hbhId : Nat) (name : UInt8) : Op :=
  .add alloc true hbhId (exampleId name) 1000000 (fun _ => false)

def exampleRetrieve : Op := .retrieve .trTo [97] 0 9000000

structure TwoRequests (t : Traced) : Prop where
  reached : run (step exampleConfig) {} [exampleAdd 1 7 97, exampleAdd 2 8 98] = some t
  queue₁ : t.stack.queues 1 = some ⟨exampleId 97, [⟨0, true, 7, 1000000⟩]⟩
  queue₂ : t.stack.queues 2 = some ⟨exampleId 98, [⟨1, true, 8, 1000000⟩]⟩
  stack : t.stack.packetStack = [(exampleId 97, 1), (exampleId 98, 2)]
  first : found t.stack .trTo [97] = [1]
  recent : t.recent = Function.update (Function.update (fun _ => none) 7 (some 0)) 8 (some 1)

lemma exists_twoRequests : ∃ t, TwoRequests t := ⟨_, rfl, rfl, rfl, rfl, rfl, rfl⟩

lemma SparesRecent.of_nil {cfg : Config} {t : Traced} {op : Op} (h : (loopOf cfg t op).qpl = []) :
    SparesRecent cfg t op := by
  intro i n _ _ qp hqp
  rw [h] at hqp
  cases hqp

lemma TwoRequests.reach {t : Traced} (h : TwoRequests t) :
    ReachBy (step exampleConfig) (SparesRecent exampleConfig) {} t := by
  obtain ⟨u, hu, hrest⟩ := Option.bind_eq_some_iff.mp h.reached
  obtain ⟨v, hv, hlast⟩ := Option.bind_eq_some_iff.mp hrest
  obtain rfl := Option.some.inj hlast
  obtain rfl := Option.some.inj hu
  exact (ReachBy.initial.step (SparesRecent.of_nil rfl) hu).step (SparesRecent.of_nil rfl) hv

lemma TwoRequests.spares {t : Traced} (h : TwoRequests t) :
    SparesRecent exampleConfig t exampleRetrieve := by
  have hinv : Inv t := h.reach.invariant inv_start (fun _ _ _ h _ hstep => h.step hstep)
  rintro i n hn ⟨qp, q, hq, x, hx, hxn⟩ qp' hqp' q' hq' x' hx'
  change qp' ∈ found t.stack .trTo [97] at hqp'
  rw [h.first, List.mem_singleton] at hqp'
  subst hqp'
  obtain rfl := Option.some.inj (h.queue₁.symm.trans hq')
  obtain rfl : x' = ⟨0, true, 7, 1000000⟩ := List.mem_singleton.mp hx'
  rintro rfl
  -- the most recent request with the id 7 is in the first queue, where nothing is left
  change t.recent 7 = some n at hn
  rw [h.recent] at hn
  obtain rfl : 0 = n := Option.some.inj hn
  have hmem : (q.id, qp) ∈ t.stack.packetStack := (hinv.indexed.stack q.id qp).mpr (by
    rw [queueId, show t.stack.queues qp = some q from hq]
    rfl)
  rw [h.stack, List.mem_cons, List.mem_singleton] at hmem
  rcases hmem with hmem | hmem
  · obtain rfl : qp = 1 := congrArg Prod.snd hmem
    obtain rfl := Option.some.inj (h.queue₁.symm.trans hq)
    have hkept : (loopOf exampleConfig t exampleRetrieve).kept 1
        ⟨exampleId 97, [⟨0, true, 7, 1000000⟩]⟩ = [] := by
      unfold Loop.kept
      rw [if_pos (by change 1 ∈ found t.stack .trTo [97]; rw [h.first]; exact List.mem_singleton_self 1)]
      rfl
    rw [hkept] at hx
    cases hx
  · obtain rfl : qp = 2 := congrArg Prod.snd hmem
    obtain rfl := Option.some.inj (h.queue₂.symm.trans hq)
    have hsub := Loop.kept_subset (covers_loopOf exampleConfig t exampleRetrieve) 2 _ x hx
    obtain rfl := List.mem_singleton.mp hsub
    cases hxn

theorem stack_consistent_answersFollow_example : ∃ t, run (step exampleConfig) {}
    [exampleAdd 1 7 97, exampleAdd 2 8 98, exampleRetrieve] = some t ∧ t.recent 8 = some 1 ∧
      t.stack.queues 2 = some ⟨exampleId 98, [⟨1, true, 8, 1000000⟩]⟩ ∧ Consistent t.stack ∧
      AnswersFollow t := by
  obtain ⟨t, ht⟩ := exists_twoRequests
  have hinv : Inv t := ht.reach.invariant inv_start (fun _ _ _ h _ hstep => h.step hstep)
  obtain ⟨t', hstep⟩ : ∃ t', step exampleConfig t exampleRetrieve = some t' := ⟨_, rfl⟩
  obtain ⟨-, hrecent, last, hstack⟩ := step_eq hstep
  have hloop : (loopOf exampleConfig t exampleRetrieve).qpl = [1] := ht.first
  obtain ⟨hconsistent, hfollow⟩ := (stack_consistent_answersFollow exampleConfig).2 t'
    (ht.reach.step ht.spares hstep)
  refine ⟨t', ?_, ?_, ?_, hconsistent, hfollow⟩
  · obtain ⟨u, hu, hrest⟩ := Option.bind_eq_some_iff.mp ht.reached
    obtain ⟨v, hv, hlast⟩ := Option.bind_eq_some_iff.mp hrest
    obtain rfl := Option.some.inj hlast
    simp only [run, hu, hv, hstep, Option.bind_some]
  · rw [hrecent]
    change t.recent 8 = some 1
    rw [ht.recent]
    rfl
  · rw [hstack]
    refine (sweep_queues (covers_loopOf _ _ _) (hloop ▸ List.nodup_singleton 1) hinv.filled 2).trans ?_
    rw [hloop, if_neg (by decide)]
    exact ht.queue₂

/-- Both requests have the id 8. The older one is retrieved, and the entry of the id goes with it, so
that an answer does not follow the request in the second queue. -/
theorem answer_loses_request : ¬∀ (cfg : Config) (t : Traced),
    ReachBy (step cfg) (fun _ _ => True) {} t → Consistent t.stack ∧ AnswersFollow t := by
  intro hall
  obtain ⟨t, ht, hrecent, hqueue, hadd⟩ : ∃ t, run (step exampleConfig) {}
      [exampleAdd 1 8 97, exampleAdd 2 8 98, exampleRetrieve] = some t ∧ t.recent 8 = some 1 ∧
        t.stack.queues 2 = some ⟨exampleId 98, [⟨1, true, 8, 1000000⟩]⟩ ∧
        (addPacket t.stack 3 ⟨2, false, 8, 1000000⟩ (exampleId 98)).1.queues 2 =
          some ⟨exampleId 98, [⟨1, true, 8, 1000000⟩]⟩ := ⟨_, rfl, rfl, rfl, rfl⟩
  have hfollow := (hall exampleConfig t (ReachBy.initial.run (fun _ _ => trivial) _ ht)).2
  have happend := hfollow 8 1 2 _ hrecent hqueue ⟨_, List.mem_singleton_self _, rfl⟩ 3 2 1000000
    (exampleId 98)
  rw [hadd] at happend
  cases happend

end VoipMonitor.DiameterStack
