import VoipMonitor.Model.LinkQueue

/-!
# What the cleanup of a queue of links destroys

A packet is compared by the microseconds within its second, not by its time. So the packets that
are looked at leave one by one, and exactly when these are old no young one is lost.
-/

namespace VoipMonitor.LinkQueue

variable {I P : Type}

section Spec
variable (q : LinkPacketsQueue I P) (t : Nat)

def LinkPacketsQueue.queueOf [DecidableEq I] (id : I) : List (QueuedPacket P) :=
  ((q.links.lookup id).map SLink.queue).getD []

def LinkPacketsQueue.countQueued : Nat := (q.links.map (fun entry => entry.2.queue.length)).sum

def Idle (link : SLink P) : Prop :=
  link.lastTimeMs ≠ 0 ∧ link.lastTimeMs + q.expirationLinkMs ≤ t

def Old (p : QueuedPacket P) : Prop :=
  p.timeS * 1000 + p.timeUs / 1000 + q.expirationLinkMs ≤ t

def Beyond (link : SLink P) (i : Nat) : Prop := q.expirationLinkCount < link.queue.length - i

def MayDrop (link : SLink P) (n : Nat) : Prop :=
  ∀ i < n, ∀ p, link.queue[i]? = some p → Idle q t link ∨ Old q t p ∨ Beyond q link i

/-- `_cleanup` destroys only what it may, from the front, and counts it. -/
structure DropsOnlyExpired [DecidableEq I] : Prop where
  dropped : ∀ id link, q.links.lookup id = some link → ∃ n ≤ link.queue.length,
    (q.cleanup t).queueOf id = link.queue.drop n ∧ MayDrop q t link n
  noOther : ∀ id, q.links.lookup id = none → (q.cleanup t).links.lookup id = none
  counter : (q.cleanup t).packetsCounter =
    q.packetsCounter - UInt64.ofNat (q.countQueued - (q.cleanup t).countQueued)

/-- The packets of a link that `_cleanup` comes to are old: those of a link whose time wraps, and
those of a link that is looked at as far as the comparison goes. -/
def ComesToOld (link : SLink P) : Prop :=
  ∀ i p, link.queue[i]? = some p → ¬Beyond q link i →
    (if expiresLink q t link then ¬Idle q t link
      else checksQueue q link = true ∧ ∀ j ≤ i, ∀ p', link.queue[j]? = some p' →
        ¬Beyond q link j → expiresPacket q t p' = true) → Old q t p

end Spec

/-! ## One link -/

lemma sub_ofNat_sub_ofNat (counter : UInt64) (m n : Nat) :
    counter - UInt64.ofNat m - UInt64.ofNat n = counter - UInt64.ofNat (m + n) := by
  calc counter - UInt64.ofNat m - UInt64.ofNat n
      = counter + (-UInt64.ofNat m + -UInt64.ofNat n) := by
        rw [UInt64.sub_eq_add_neg, UInt64.sub_eq_add_neg, UInt64.add_assoc]
    _ = counter + -(UInt64.ofNat m + UInt64.ofNat n) := by
        rw [UInt64.neg_add, UInt64.sub_eq_add_neg]
    _ = counter - UInt64.ofNat (m + n) := by rw [← UInt64.ofNat_add, ← UInt64.sub_eq_add_neg]

section Link
variable (q : LinkPacketsQueue I P) (t : Nat)

lemma dropFront_cases (queue : List (QueuedPacket P)) (counter : UInt64) (destroyed : Bool) :
    ∃ n ≤ queue.length,
      dropFront q t queue counter destroyed =
        (queue.drop n, counter - UInt64.ofNat n, destroyed || decide (n ≠ 0)) ∧
      (∀ i < n, ∀ p, queue[i]? = some p →
        expiresPacket q t p = true ∨ q.expirationLinkCount < queue.length - i) ∧
      (∀ p, queue[n]? = some p →
        ¬expiresPacket q t p = true ∧ ¬q.expirationLinkCount < queue.length - n) := by
  induction queue generalizing counter destroyed with
  | nil =>
    refine ⟨0, le_rfl, ?_, fun i hi => absurd hi (Nat.not_lt_zero i), fun p hp => by cases hp⟩
    simp [dropFront]
  | cons p rest ih =>
    rw [dropFront]
    by_cases hleaves : expiresPacket q t p || (p :: rest).length > q.expirationLinkCount
    · obtain ⟨n, hn, heq, hdrop, hnext⟩ := ih (counter - 1) true
      rw [if_pos hleaves, heq]
      refine ⟨n + 1, Nat.succ_le_succ hn, ?_, ?_, ?_⟩
      · have hcount : counter - 1 - UInt64.ofNat n = counter - UInt64.ofNat (n + 1) := by
          rw [Nat.add_comm]
          exact sub_ofNat_sub_ofNat counter 1 n
        rw [hcount]
        simp
      · intro i hi p' hp'
        cases i with
        | zero =>
          obtain rfl := Option.some.inj hp'
          rw [Bool.or_eq_true, decide_eq_true_iff] at hleaves
          exact hleaves
        | succ i =>
          rcases hdrop i (Nat.lt_of_succ_lt_succ hi) p' hp' with hold | hbeyond
          · exact .inl hold
          · exact .inr (by rw [List.length_cons]; omega)
      · intro p' hp'
        obtain ⟨hyoung, hcount⟩ := hnext p' hp'
        exact ⟨hyoung, by rw [List.length_cons]; omega⟩
    · rw [if_neg hleaves]
      refine ⟨0, Nat.zero_le _, by simp, fun i hi => absurd hi (Nat.not_lt_zero i), ?_⟩
      intro p' hp'
      obtain rfl := Option.some.inj hp'
      rw [Bool.or_eq_true, decide_eq_true_iff, not_or] at hleaves
      exact hleaves

def leftOf (link : Option (SLink P)) : List (QueuedPacket P) := link.elim [] SLink.queue

structure Destroys (link : SLink P) (n : Nat) : Prop where
  le : n ≤ link.queue.length
  whole : expiresLink q t link = true → n = link.queue.length
  checked : expiresLink q t link = false → checksQueue q link = false → n = 0
  front : expiresLink q t link = false → ∀ i < n, ∀ p, link.queue[i]? = some p →
    expiresPacket q t p = true ∨ Beyond q link i
  next : expiresLink q t link = false → checksQueue q link = true →
    ∀ p, link.queue[n]? = some p → ¬expiresPacket q t p = true ∧ ¬Beyond q link n

lemma foldl_sub_one (queue : List (QueuedPacket P)) (counter : UInt64) :
    queue.foldl (fun counter _ => counter - 1) counter =
      counter - UInt64.ofNat queue.length := by
  induction queue generalizing counter with
  | nil => simp
  | cons p rest ih =>
    rw [List.foldl_cons, ih, List.length_cons, Nat.add_comm]
    exact sub_ofNat_sub_ofNat counter 1 rest.length

lemma cleanupLink_cases (link : SLink P) (counter : UInt64) :
    ∃ n, Destroys q t link n ∧ leftOf (cleanupLink q t link counter).1 = link.queue.drop n ∧
      (cleanupLink q t link counter).2 = counter - UInt64.ofNat n := by
  rw [cleanupLink]
  by_cases hexpires : expiresLink q t link = true
  · rw [if_pos hexpires]
    have hnot : ¬expiresLink q t link = false := by rw [hexpires]; exact Bool.noConfusion
    refine ⟨link.queue.length, ⟨le_rfl, fun _ => rfl, fun h => absurd h hnot,
      fun h => absurd h hnot, fun h => absurd h hnot⟩, ?_, foldl_sub_one _ _⟩
    rw [List.drop_length]
    rfl
  · rw [if_neg hexpires]
    by_cases hchecks : checksQueue q link = true
    · rw [if_pos hchecks]
      obtain ⟨n, hn, heq, hdrop, hnext⟩ := dropFront_cases q t link.queue counter false
      refine ⟨n, ⟨hn, fun h => absurd h hexpires, ?_, fun _ => hdrop, fun _ _ => hnext⟩, ?_, ?_⟩
      · intro _ hno
        exact absurd (hchecks.symm.trans hno) Bool.noConfusion
      · rw [heq]
        by_cases hzero : n = 0
        · subst hzero
          rfl
        · rw [Bool.false_or, decide_eq_true hzero]
          cases hleft : link.queue.drop n <;> rfl
      · rw [heq]
        by_cases hzero : n = 0
        · subst hzero
          rfl
        · rw [Bool.false_or, decide_eq_true hzero]
          cases hleft : link.queue.drop n <;> rfl
    · rw [if_neg hchecks]
      refine ⟨0, ⟨Nat.zero_le _, fun h => absurd h hexpires, fun _ _ => rfl, ?_, ?_⟩, rfl, ?_⟩
      · intro _ i hi
        exact absurd hi (Nat.not_lt_zero i)
      · intro _ hyes
        exact absurd hyes hchecks
      · simp

variable {q t} {link : SLink P} {n : Nat}

lemma Idle.expiresLink (h : Idle q t link) : expiresLink q t link = true := by
  rw [LinkQueue.expiresLink, Bool.and_eq_true, decide_eq_true_iff, decide_eq_true_iff]
  exact ⟨h.1, (Nat.mod_le _ _).trans h.2⟩

lemma Destroys.mayDrop_iff (h : Destroys q t link n) :
    MayDrop q t link n ↔ ComesToOld q t link := by
  constructor
  · intro hmay i p hp hnear hreach
    have hi : i < link.queue.length := (List.getElem?_eq_some_iff.mp hp).1
    by_cases hexpires : expiresLink q t link = true
    · rw [if_pos hexpires] at hreach
      rcases hmay i (h.whole hexpires ▸ hi) p hp with hidle | hold | hbeyond
      · exact absurd hidle hreach
      · exact hold
      · exact absurd hbeyond hnear
    · rw [if_neg hexpires] at hreach
      obtain ⟨hchecks, hrun⟩ := hreach
      rw [Bool.not_eq_true] at hexpires
      have hlt : i < n := by
        by_contra hge
        rw [not_lt] at hge
        have hn : link.queue[n]? = some link.queue[n] := List.getElem?_eq_getElem (by omega)
        obtain ⟨hyoung, hcount⟩ := h.next hexpires hchecks _ hn
        exact hyoung (hrun n hge _ hn hcount)
      rcases hmay i hlt p hp with hidle | hold | hbeyond
      · exact absurd (hidle.expiresLink.symm.trans hexpires) Bool.noConfusion
      · exact hold
      · exact absurd hbeyond hnear
  · intro hcomes i hi p hp
    by_cases hbeyond : Beyond q link i
    · exact .inr (.inr hbeyond)
    · by_cases hidle : Idle q t link
      · exact .inl hidle
      · refine .inr (.inl (hcomes i p hp hbeyond ?_))
        by_cases hexpires : expiresLink q t link = true
        · rw [if_pos hexpires]
          exact hidle
        · rw [if_neg hexpires]
          rw [Bool.not_eq_true] at hexpires
          constructor
          · by_contra hchecks
            rw [Bool.not_eq_true] at hchecks
            have hzero := h.checked hexpires hchecks
            omega
          · intro j hj p' hp' hnear
            exact (h.front hexpires j (by omega) p' hp').resolve_right hnear

end Link

/-! ## All links -/

section Links
variable (q : LinkPacketsQueue I P) (t : Nat)

lemma cleanupLinks_counter (links : List (I × SLink P)) (counter : UInt64) :
    ∃ n, (links.map (fun entry => entry.2.queue.length)).sum =
        n + ((cleanupLinks q t links counter).1.map (fun entry => entry.2.queue.length)).sum ∧
      (cleanupLinks q t links counter).2 = counter - UInt64.ofNat n := by
  induction links generalizing counter with
  | nil => exact ⟨0, rfl, by simp [cleanupLinks]⟩
  | cons entry rest ih =>
    obtain ⟨key, first⟩ := entry
    rw [cleanupLinks]
    obtain ⟨n, hn, hleft, hcounter⟩ := cleanupLink_cases q t first counter
    cases hclean : cleanupLink q t first counter with
    | mk left counter' =>
      rw [hclean] at hleft hcounter
      obtain ⟨m, hsum, hrest⟩ := ih counter'
      refine ⟨n + m, ?_, ?_⟩
      · have hlength := congrArg List.length hleft
        rw [List.length_drop] at hlength
        have hle := hn.le
        cases left with
        | none =>
          rw [List.map_cons, List.sum_cons, hsum]
          have hzero : (0 : Nat) = first.queue.length - n := hlength
          dsimp only
          omega
        | some left =>
          have hsome : left.queue.length = first.queue.length - n := hlength
          rw [List.map_cons, List.sum_cons, hsum]
          rw [List.map_cons, List.sum_cons]
          dsimp only
          omega
      · rw [← sub_ofNat_sub_ofNat, ← hcounter]
        cases left <;> exact hrest

variable [DecidableEq I]

lemma lookup_eq_none_iff_notMem (links : List (I × SLink P)) (id : I) :
    links.lookup id = none ↔ id ∉ links.map Prod.fst := by
  rw [List.lookup_eq_none_iff]
  constructor
  · intro h hmem
    obtain ⟨entry, hentry, rfl⟩ := List.mem_map.mp hmem
    simpa using h entry hentry
  · intro h entry hentry
    rw [bne_iff_ne]
    rintro rfl
    exact h (List.mem_map_of_mem hentry)

lemma cleanupLinks_lookup_none (links : List (I × SLink P)) (counter : UInt64) {id : I}
    (h : links.lookup id = none) : (cleanupLinks q t links counter).1.lookup id = none := by
  rw [lookup_eq_none_iff_notMem] at h ⊢
  exact fun hmem => h ((cleanupLinks_sublist q t links counter).subset hmem)

lemma cleanupLinks_lookup {links : List (I × SLink P)} (hnodup : (links.map Prod.fst).Nodup)
    (counter : UInt64) {id : I} {link : SLink P} (h : links.lookup id = some link) :
    ∃ counter', (cleanupLinks q t links counter).1.lookup id =
      (cleanupLink q t link counter').1 := by
  induction links generalizing counter with
  | nil => cases h
  | cons entry rest ih =>
    obtain ⟨key, first⟩ := entry
    rw [List.map_cons, List.nodup_cons] at hnodup
    rw [cleanupLinks]
    by_cases hkey : id = key
    · subst hkey
      rw [List.lookup_cons_self] at h
      obtain rfl := Option.some.inj h
      refine ⟨counter, ?_⟩
      have hrest : rest.lookup id = none := (lookup_eq_none_iff_notMem rest id).mpr hnodup.1
      cases hclean : cleanupLink q t first counter with
      | mk left counter' =>
        cases left with
        | none => exact cleanupLinks_lookup_none q t rest counter' hrest
        | some left => exact List.lookup_cons_self
    · rw [List.lookup_cons, beq_false_of_ne hkey] at h
      cases hclean : cleanupLink q t first counter with
      | mk left counter' =>
        obtain ⟨counter'', hlookup⟩ := ih hnodup.2 counter' h
        refine ⟨counter'', ?_⟩
        cases left with
        | none => exact hlookup
        | some left =>
          rw [List.lookup_cons, beq_false_of_ne hkey]
          exact hlookup

/-- `_cleanup` destroys only what has expired exactly when the packets of each link that it comes
to are old. -/
theorem cleanup_iff : DropsOnlyExpired q t ↔
    ∀ id link, q.links.lookup id = some link → ComesToOld q t link := by
  have hqueue : ∀ id link, q.links.lookup id = some link → ∃ n, Destroys q t link n ∧
      (q.cleanup t).queueOf id = link.queue.drop n := by
    intro id link hlookup
    obtain ⟨counter, hclean⟩ := cleanupLinks_lookup q t q.nodup q.packetsCounter hlookup
    obtain ⟨n, hn, hleft, -⟩ := cleanupLink_cases q t link counter
    refine ⟨n, hn, ?_⟩
    rw [LinkPacketsQueue.queueOf, LinkPacketsQueue.cleanup, hclean, ← hleft]
    cases (cleanupLink q t link counter).1 <;> rfl
  constructor
  · intro h id link hlookup
    obtain ⟨n, hn, hdrop⟩ := hqueue id link hlookup
    obtain ⟨m, hm, hdrop', hmay⟩ := h.dropped id link hlookup
    have hlength := congrArg List.length (hdrop.symm.trans hdrop')
    rw [List.length_drop, List.length_drop] at hlength
    have hle := hn.le
    obtain rfl : n = m := by omega
    exact hn.mayDrop_iff.mp hmay
  · intro h
    refine ⟨?_, fun id hnone => cleanupLinks_lookup_none q t q.links q.packetsCounter hnone, ?_⟩
    · intro id link hlookup
      obtain ⟨n, hn, hdrop⟩ := hqueue id link hlookup
      exact ⟨n, hn.le, hdrop, hn.mayDrop_iff.mpr (h id link hlookup)⟩
    · obtain ⟨n, hsum, hcounter⟩ := cleanupLinks_counter q t q.links q.packetsCounter
      have hcount : q.countQueued - (q.cleanup t).countQueued = n := by
        have hafter : q.countQueued = n + (q.cleanup t).countQueued := hsum
        omega
      rw [hcount]
      exact hcounter

end Links

/-- A link that received packets for more than ten seconds loses the one of the last second. -/
theorem cleanup_drops_young : ¬DropsOnlyExpired
    (((LinkPacketsQueue.empty : LinkPacketsQueue Unit Unit).push () ⟨1700000000, 0, ()⟩
      1700000000000).push () ⟨1700000010, 1000, ()⟩ 1700000010001) 1700000010500 := by
  intro h
  obtain ⟨n, hn, hdrop, hmay⟩ := h.dropped () _ rfl
  have hempty := hdrop.symm.trans (show _ = [] by decide +kernel)
  rw [List.drop_eq_nil_iff] at hempty
  have htwo : 1 < n := hempty
  rcases hmay 1 htwo _ rfl with hidle | hold | hbeyond
  · exact absurd hidle.2 (by decide)
  · exact absurd hold (by unfold Old; decide)
  · exact absurd hbeyond (by unfold Beyond; decide)

end VoipMonitor.LinkQueue
