import VoipMonitor.Model.FixedJitterBuffer

/-!
# What the jitter buffer does with its frames

A frame that is accepted leaves the buffer once, and one that is not accepted never. Between two
times that the buffer begins anew the frames leave it in the order of their delivery, also when they
arrive in another one. Each call comes to an end.
-/

namespace VoipMonitor.FixedJb
open VoipMonitor.Library

variable {α : Type} {conf : Conf}

namespace Jb

def datas (jb : Jb α) : List α := jb.handed.map (fun h => h.frame.data) ++ jb.frames.map (fun f => f.data)

/-- One frame left the buffer before another one: the buffer began anew between them, or the delivery
of the other one is later. -/
def Before (a b : Handed α) : Prop :=
  a.firsts < b.firsts ∨ a.firsts = b.firsts ∧ a.frame.delivery < b.frame.delivery

/-- The frames are in the order of their delivery, and behind the frames that left the buffer since
it began. -/
structure Inv (jb : Jb α) : Prop where
  sorted : jb.frames.Pairwise (fun a b => a.delivery < b.delivery)
  long : ∀ f ∈ jb.frames, 2 ≤ f.ms
  order : jb.handed.Pairwise Before
  past : ∀ h ∈ jb.handed, h.firsts ≤ jb.firsts
  ahead : ∀ h ∈ jb.handed, h.firsts = jb.firsts →
    h.frame.delivery < jb.nextDelivery ∧ ∀ f ∈ jb.frames, h.frame.delivery < f.delivery

lemma inv_new : ({} : Jb α).Inv := ⟨.nil, by simp, .nil, by simp, by simp⟩

/-! ## Frames that leave the buffer -/

variable {jb jb' : Jb α}

lemma Inv.getJbHead (h : jb.Inv) (way : Way) : (jb.getJbHead way).Inv := by
  rw [Jb.getJbHead]
  cases hframes : jb.frames with
  | nil => exact h
  | cons fr rest =>
    have hsorted := h.sorted
    rw [hframes, List.pairwise_cons] at hsorted
    have hms : 2 ≤ fr.ms := h.long fr (by rw [hframes]; exact List.mem_cons_self)
    have hahead : ∀ g ∈ jb.handed, g.firsts = jb.firsts → g.frame.delivery < fr.delivery :=
      fun g hg heq => (h.ahead g hg heq).2 fr (by rw [hframes]; exact List.mem_cons_self)
    refine ⟨hsorted.2, ?_, ?_, ?_, ?_⟩
    · intro f hf
      exact h.long f (by rw [hframes]; exact List.mem_cons_of_mem fr hf)
    · rw [List.pairwise_append]
      refine ⟨h.order, List.pairwise_singleton _ _, ?_⟩
      intro g hg g' hg'
      rw [List.mem_singleton.mp hg']
      rcases (h.past g hg).lt_or_eq with hlt | heq
      · exact .inl hlt
      · exact .inr ⟨heq, hahead g hg heq⟩
    · intro g hg
      rcases List.mem_append.mp hg with hg | hg
      · exact h.past g hg
      · rw [List.mem_singleton.mp hg]
    · intro g hg heq
      rcases List.mem_append.mp hg with hg | hg
      · have hlt := hahead g hg heq
        refine ⟨?_, fun f hf => hlt.trans (hsorted.1 f hf)⟩
        change g.frame.delivery < fr.delivery + fr.ms
        omega
      · rw [List.mem_singleton.mp hg]
        refine ⟨?_, hsorted.1⟩
        change fr.delivery < fr.delivery + fr.ms
        omega

lemma datas_getJbHead (jb : Jb α) (way : Way) : (jb.getJbHead way).datas = jb.datas := by
  rw [getJbHead]
  cases hframes : jb.frames with
  | nil => rfl
  | cons fr rest =>
    rw [datas, datas, hframes, List.map_append, List.append_assoc]
    rfl

def takeAll (way : Way) (jb : Jb α) : Jb α := jb.frames.foldl (fun jb _ => jb.getJbHead way) jb

lemma Inv.takeAll (h : jb.Inv) (way : Way) : (jb.takeAll way).Inv := by
  rw [Jb.takeAll]
  generalize jb.frames = l
  induction l generalizing jb with
  | nil => exact h
  | cons _ l ih => exact ih (h.getJbHead way)

lemma takeAll_eq (jb : Jb α) (way : Way) :
    (jb.takeAll way).datas = jb.datas ∧ (jb.takeAll way).frames = [] ∧
      (jb.takeAll way).forceResynch = jb.forceResynch ∧ (jb.takeAll way).firsts = jb.firsts := by
  rw [takeAll]
  generalize hlen : jb.frames = l
  induction l generalizing jb with
  | nil => exact ⟨rfl, hlen, rfl, rfl⟩
  | cons f l ih =>
    have hhead : (jb.getJbHead way).frames = l ∧
        (jb.getJbHead way).forceResynch = jb.forceResynch ∧
        (jb.getJbHead way).firsts = jb.firsts := by
      rw [getJbHead, hlen]
      exact ⟨rfl, rfl, rfl⟩
    obtain ⟨hdatas, hrest⟩ := ih (jb.getJbHead way) hhead.1
    rw [hhead.2.1, hhead.2.2] at hrest
    exact ⟨hdatas.trans (datas_getJbHead jb way), hrest⟩

/-! ## Putting a frame -/

lemma Inv.of_eq (h : jb.Inv) (hframes : jb'.frames = jb.frames) (hhanded : jb'.handed = jb.handed)
    (hfirsts : jb'.firsts = jb.firsts) (hnext : jb.nextDelivery ≤ jb'.nextDelivery) : jb'.Inv := by
  refine ⟨hframes ▸ h.sorted, hframes ▸ h.long, hhanded ▸ h.order, ?_, ?_⟩
  · rw [hhanded, hfirsts]
    exact h.past
  · rw [hhanded, hfirsts, hframes]
    intro g hg heq
    exact ⟨(h.ahead g hg heq).1.trans_le hnext, (h.ahead g hg heq).2⟩

structure Same (jb' jb : Jb α) : Prop where
  frames : jb'.frames = jb.frames
  handed : jb'.handed = jb.handed
  firsts : jb'.firsts = jb.firsts
  nextDelivery : jb'.nextDelivery = jb.nextDelivery

lemma Same.inv (h : Same jb' jb) (hinv : jb.Inv) : jb'.Inv :=
  hinv.of_eq h.frames h.handed h.firsts h.nextDelivery.ge

lemma Same.datas (h : Same jb' jb) : jb'.datas = jb.datas := by
  rw [Jb.datas, Jb.datas, h.frames, h.handed]

lemma Same.trans {u : Jb α} (h : Same u jb') (h' : Same jb' jb) : Same u jb :=
  ⟨h.frames.trans h'.frames, h.handed.trans h'.handed, h.firsts.trans h'.firsts,
    h.nextDelivery.trans h'.nextDelivery⟩

lemma Same.refl (jb : Jb α) : Same jb jb := ⟨rfl, rfl, rfl, rfl⟩

lemma same_withForce (jb : Jb α) (force : Bool) : Same (jb.withForce force) jb := ⟨rfl, rfl, rfl, rfl⟩

lemma same_addSkew (jb : Jb α) (a : Arrival α) : Same (jb.addSkew a) jb := ⟨rfl, rfl, rfl, rfl⟩

lemma same_countLoss (jb : Jb α) (a : Arrival α) : Same (jb.countLoss a) jb := by
  rw [countLoss]
  split
  · exact .refl jb
  · exact ⟨rfl, rfl, rfl, rfl⟩

def Arrival.Invalid (a : Arrival α) : Prop := a.ms < 2 ∨ a.ts < 0

lemma put_cases (conf : Conf) (fuel : Nat) (jb : Jb α) (a : Arrival α) :
    a.Invalid ∧ Jb.put conf (fuel + 1) jb a = some (.error, jb) ∨
      ¬a.Invalid ∧ (∃ (u : Jb α) (g : Jb α → Jb α), Same u jb ∧ (∀ v, Same (g v) v) ∧
        Jb.put conf (fuel + 1) jb a =
          (resynch conf (Jb.put conf fuel) u a).map (fun e => (e.1, g e.2))) ∨
      ¬a.Invalid ∧ (∃ u delivery, Same u jb ∧ jb.nextDelivery ≤ delivery ∧
        (∀ f ∈ (u.before delivery).getLast?, f.delivery ≠ delivery) ∧
        Jb.put conf (fuel + 1) jb a = some (.ok, u.insertFrame a delivery)) := by
  have hskew := same_addSkew jb a
  by_cases hinvalid : a.Invalid
  · exact .inl ⟨hinvalid, if_pos hinvalid⟩
  refine .inr ?_
  rw [Jb.put, if_neg (show ¬(a.ms < 2 ∨ a.ts < 0) from hinvalid)]
  dsimp only
  split
  · -- the frame is late
    refine .inl ⟨hinvalid, _, fun v => if a.marker = 1 then v.setBase a else v,
      (same_countLoss _ a).trans hskew, ?_, rfl⟩
    intro v
    dsimp only
    split
    · exact ⟨rfl, rfl, rfl, rfl⟩
    · exact .refl v
  · rename_i hnext
    split
    · exact .inl ⟨hinvalid, _, id, (same_withForce _ true).trans hskew, .refl, Option.map_id'.symm⟩
    · split
      · exact .inl ⟨hinvalid, _, id, hskew, .refl, Option.map_id'.symm⟩
      · split
        · exact .inl ⟨hinvalid, _, fun v => v.withForce false, hskew, fun v => same_withForce v false, rfl⟩
        · -- the frame is put into the list
          rename_i hfree
          refine .inr ⟨hinvalid, _, _, (same_withForce _ false).trans hskew, not_lt.mp hnext, ?_, rfl⟩
          rw [Bool.or_eq_true, not_or] at hfree
          intro f hf heq
          refine hfree.2 ?_
          have hlast : ((jb.addSkew a).before (jb.rxcore + conf.delay + a.ts)).getLast? = some f := hf
          change covered _ _ (jb.rxcore + conf.delay + a.ts) = true
          rw [covered, hlast, Option.any_some, decide_eq_true heq, Bool.true_or, Bool.true_or]

def Near (conf : Conf) (jb : Jb α) (a : Arrival α) : Prop :=
  ∀ tail ∈ jb.frames.getLast?, a.ts - tail.ts - tail.ms < conf.resyncThreshold ∧
    a.ts - tail.ts - tail.ms > -conf.resyncThreshold

section Resynch

variable (conf) (put : Jb α → Arrival α → Option (Code × Jb α))

lemma resynch_cases (jb : Jb α) (a : Arrival α) :
    (∃ u, Same u jb ∧ u.forceResynch = false ∧
        resynch conf put jb a = putFirst conf put u.flushDeliver { a with marker := 0 }) ∨
      (∃ u, Same u jb ∧ resynch conf put jb a = some (.drop, u)) ∨
      (¬Near conf jb a ∧ ∃ tail, jb.frames.getLast? = some tail ∧
        resynch conf put jb a =
          put ((jb.withForce false).moveBase (a.ts - tail.ts - tail.ms)) { a with marker := 0 }) := by
  rw [resynch]
  cases htail : jb.frames.getLast? with
  | none =>
    have hempty : (jb.withForce false).frames = [] := List.getLast?_eq_none_iff.mp htail
    refine .inl ⟨_, same_withForce jb false, rfl, ?_⟩
    have hflush : (jb.withForce false).flushDeliver = jb.withForce false := by
      rw [flushDeliver, hempty, List.foldl_nil]
    rw [hflush]
  | some tail =>
    dsimp only
    split
    · split
      · rename_i hforce
        split
        · exact .inl ⟨jb.resetSkew, ⟨rfl, rfl, rfl, rfl⟩, hforce, rfl⟩
        · split
          · exact .inr (.inl ⟨jb, .refl jb, rfl⟩)
          · exact .inl ⟨jb, .refl jb, hforce, rfl⟩
      · split
        · exact .inr (.inl ⟨_, same_withForce jb false, rfl⟩)
        · exact .inl ⟨_, same_withForce jb false, rfl, rfl⟩
    · rename_i hfar
      refine .inr (.inr ⟨?_, tail, rfl, rfl⟩)
      intro hnear
      exact hfar (hnear tail htail)

end Resynch

/-! ## The frames of a `put` -/

lemma Inv.moveBase (h : jb.Inv) (offset : Int) : (jb.moveBase offset).Inv := by
  refine ⟨List.pairwise_map.mpr h.sorted, ?_, h.order, h.past, ?_⟩
  · intro f hf
    obtain ⟨f', hf', rfl⟩ := List.mem_map.mp hf
    exact h.long f' hf'
  · intro g hg heq
    refine ⟨(h.ahead g hg heq).1, ?_⟩
    intro f hf
    obtain ⟨f', hf', rfl⟩ := List.mem_map.mp hf
    exact (h.ahead g hg heq).2 f' hf'

lemma datas_moveBase (jb : Jb α) (offset : Int) : (jb.moveBase offset).datas = jb.datas := by
  rw [datas, datas, moveBase, List.map_map]
  rfl

lemma Inv.begin (h : jb.Inv) (conf : Conf) (a : Arrival α) : (jb.begin conf a).Inv := by
  refine ⟨h.sorted, h.long, h.order, fun g hg => (h.past g hg).trans (Nat.le_succ _), ?_⟩
  intro g hg heq
  have hle := h.past g hg
  change g.firsts = jb.firsts + 1 at heq
  omega

/-- Exactly a frame that is accepted comes to the others. -/
def Stores (jb : Jb α) (a : Arrival α) (code : Code) (jb' : Jb α) : Prop :=
  (jb.Inv → jb'.Inv) ∧ (if code = .ok then jb'.datas.Perm (a.data :: jb.datas) else jb'.datas = jb.datas)

lemma Stores.of_datas_eq {u : Jb α} {a a' : Arrival α} {code : Code} (h : Stores u a code jb')
    (hinv : jb.Inv → u.Inv) (hdatas : u.datas = jb.datas) (hdata : a.data = a'.data) :
    Stores jb a' code jb' := by
  rw [Stores, hdatas, hdata] at h
  exact ⟨fun h' => h.1 (hinv h'), h.2⟩

def PutSpec (put : Jb α → Arrival α → Option (Code × Jb α)) : Prop :=
  ∀ jb a code jb', put jb a = some (code, jb') → Stores jb a code jb'

variable {put : Jb α → Arrival α → Option (Code × Jb α)} {a : Arrival α} {code : Code}

lemma putFirst_spec (hput : PutSpec put) (h : putFirst conf put jb a = some (code, jb')) :
    Stores jb a code jb' :=
  (hput _ _ _ _ h).of_datas_eq (fun hinv => hinv.begin conf a) rfl rfl

lemma resynch_spec (hput : PutSpec put) (h : resynch conf put jb a = some (code, jb')) :
    Stores jb a code jb' := by
  obtain ⟨u, hu, -, heq⟩ | ⟨u, hu, heq⟩ | ⟨-, tail, -, heq⟩ := resynch_cases conf put jb a
  · have hflush := (takeAll_eq u .flushed).1
    have hspec := putFirst_spec hput (heq.symm.trans h)
    exact hspec.of_datas_eq (fun hinv => (hu.inv hinv).takeAll .flushed) (hflush.trans hu.datas) rfl
  · obtain ⟨rfl, rfl⟩ := Prod.mk.inj (Option.some.inj (heq.symm.trans h))
    exact ⟨hu.inv, hu.datas⟩
  · have hforce := same_withForce jb false
    have hspec := hput _ _ _ _ (heq.symm.trans h)
    exact hspec.of_datas_eq (fun hinv => (hforce.inv hinv).moveBase _)
      ((datas_moveBase _ _).trans hforce.datas) rfl

section Insert

variable {delivery : Int}

lemma before_append_after (jb : Jb α) (delivery : Int) :
    jb.before delivery ++ jb.after delivery = jb.frames := List.rdropWhile_append_rtakeWhile

lemma Inv.lt_of_mem_before (h : jb.Inv)
    (hfree : ∀ f ∈ (jb.before delivery).getLast?, f.delivery ≠ delivery) :
    ∀ f ∈ jb.before delivery, f.delivery < delivery := by
  intro f hf
  have hne : jb.before delivery ≠ [] := List.ne_nil_of_mem hf
  have hlast : ¬(decide (((jb.before delivery).getLast hne).delivery > delivery)) = true :=
    List.rdropWhile_last_not (fun f : Frame α => decide (f.delivery > delivery)) jb.frames hne
  have hlast' := hfree _ (List.getLast?_eq_some_getLast hne)
  have hpair : (jb.before delivery).Pairwise (fun a b => a.delivery < b.delivery) :=
    h.sorted.sublist (List.rdropWhile_prefix (fun f : Frame α => decide (f.delivery > delivery)) _).sublist
  have hle : f.delivery ≤ ((jb.before delivery).getLast hne).delivery := by
    rw [← List.dropLast_append_getLast hne, List.mem_append, List.mem_singleton] at hf
    rcases hf with hf | rfl
    · rw [← List.dropLast_append_getLast hne, List.pairwise_append] at hpair
      exact (hpair.2.2 f hf _ (List.mem_singleton_self _)).le
    · exact le_rfl
  rw [decide_eq_true_eq] at hlast
  omega

lemma Inv.insertFrame (h : jb.Inv) (hms : 2 ≤ a.ms) (hnext : jb.nextDelivery ≤ delivery)
    (hfree : ∀ f ∈ (jb.before delivery).getLast?, f.delivery ≠ delivery) :
    (jb.insertFrame a delivery).Inv := by
  have hsplit := before_append_after jb delivery
  have hsorted := h.sorted
  rw [← hsplit, List.pairwise_append] at hsorted
  obtain ⟨hsorted₁, hsorted₂, hcross⟩ := hsorted
  have hless := h.lt_of_mem_before hfree
  have hmore : ∀ f ∈ jb.after delivery, delivery < f.delivery := by
    intro f hf
    exact of_decide_eq_true
      (List.mem_rtakeWhile_imp (p := fun f : Frame α => decide (f.delivery > delivery)) hf)
  have hmem : ∀ f, f ∈ (jb.insertFrame a delivery).frames →
      f ∈ jb.frames ∨ f = ⟨a.data, a.ts, a.ms, delivery⟩ := by
    intro f hf
    rw [Jb.insertFrame, List.mem_append, List.mem_cons] at hf
    rw [← hsplit, List.mem_append]
    tauto
  refine ⟨?_, ?_, h.order, h.past, ?_⟩
  · rw [Jb.insertFrame, List.pairwise_append, List.pairwise_cons]
    refine ⟨hsorted₁, ⟨hmore, hsorted₂⟩, ?_⟩
    intro f hf g hg
    rcases List.mem_cons.mp hg with rfl | hg
    · exact hless f hf
    · exact hcross f hf g hg
  · intro f hf
    rcases hmem f hf with hf | rfl
    · exact h.long f hf
    · exact hms
  · intro g hg heq
    obtain ⟨hlt, hall⟩ := h.ahead g hg heq
    refine ⟨hlt, ?_⟩
    intro f hf
    rcases hmem f hf with hf | rfl
    · exact hall f hf
    · exact hlt.trans_le hnext

lemma datas_insertFrame (jb : Jb α) (a : Arrival α) (delivery : Int) :
    (jb.insertFrame a delivery).datas.Perm (a.data :: jb.datas) := by
  rw [datas, datas, Jb.insertFrame, ← before_append_after jb delivery, List.map_append,
    List.map_append, List.map_cons, ← List.append_assoc, ← List.append_assoc]
  exact List.perm_middle

end Insert

theorem put_spec (conf : Conf) (fuel : Nat) : PutSpec (Jb.put conf fuel : Jb α → _) := by
  induction fuel with
  | zero =>
    intro jb a code jb' h
    cases h
  | succ fuel ih =>
    intro jb a code jb' h
    obtain ⟨-, heq⟩ | ⟨-, u, g, hu, hg, heq⟩ | ⟨hvalid, u, delivery, hu, hnext, hfree, heq⟩ :=
      put_cases conf fuel jb a
    · obtain ⟨rfl, rfl⟩ := Prod.mk.inj (Option.some.inj (heq.symm.trans h))
      exact ⟨id, rfl⟩
    · obtain ⟨⟨code', v⟩, hv, hlast⟩ := Option.map_eq_some_iff.mp (heq.symm.trans h)
      obtain ⟨rfl, rfl⟩ := Prod.mk.inj hlast
      have hspec := (resynch_spec ih hv).of_datas_eq hu.inv hu.datas rfl
      refine ⟨fun hinv => (hg v).inv (hspec.1 hinv), ?_⟩
      rw [(hg v).datas]
      exact hspec.2
    · obtain ⟨rfl, rfl⟩ := Prod.mk.inj (Option.some.inj (heq.symm.trans h))
      rw [Arrival.Invalid, not_or, not_lt, not_lt] at hvalid
      have hspec : Stores u a .ok (u.insertFrame a delivery) :=
        ⟨fun hinv => hinv.insertFrame hvalid.1 (hu.nextDelivery.trans_le hnext) hfree,
          datas_insertFrame u a delivery⟩
      exact hspec.of_datas_eq hu.inv hu.datas rfl

/-! ## Every call comes to an end -/

lemma putFirst_eq (conf : Conf) (fuel : Nat) (hempty : jb.frames = [])
    (hforce : jb.forceResynch = false) (hvalid : ¬a.Invalid) :
    ∃ jb', putFirst conf (Jb.put conf (fuel + 1)) jb a = some (.ok, jb') := by
  rw [putFirst, Jb.put, if_neg (show ¬(a.ms < 2 ∨ a.ts < 0) from hvalid)]
  have hdelivery : (jb.begin conf a).rxcore + conf.delay + a.ts = a.now + conf.delay := by
    change a.now - a.ts + conf.delay + a.ts = _
    omega
  have hnext : ((jb.begin conf a).addSkew a).nextDelivery = a.now + conf.delay := rfl
  have hframes : ((jb.begin conf a).addSkew a).frames = [] := hempty
  have hmarker : ((jb.begin conf a).addSkew a).markerJumps a = false := by
    rw [markerJumps, hframes, List.getLast?_nil, Option.any_none, Bool.and_false]
  have htolerance : 0 < ((jb.begin conf a).addSkew a).tolerance conf := by
    have hdelay := conf.delay_pos
    have hthreshold := conf.resyncThreshold_pos
    rw [tolerance]
    split <;> omega
  have hcovered : ((jb.begin conf a).addSkew a).covered a.ms (a.now + conf.delay) = false := by
    rw [covered, before, hframes, List.rdropWhile_nil, List.getLast?_nil, Option.any_none]
  have hforce' : ((jb.begin conf a).addSkew a).forceResynch = false := hforce
  dsimp only
  rw [hdelivery, hnext, if_neg (lt_irrefl _), hmarker, if_neg Bool.false_ne_true,
    if_neg (by omega), hforce', hcovered, Bool.or_false, if_neg Bool.false_ne_true]
  exact ⟨_, rfl⟩

def slots (jb : Jb α) : List (α × Int × Int) := jb.frames.map (fun f => (f.data, f.ms, f.delivery))

lemma Same.slots (h : Same jb' jb) : jb'.slots = jb.slots := by
  rw [Jb.slots, Jb.slots, h.frames]

lemma slots_moveBase (jb : Jb α) (offset : Int) : (jb.moveBase offset).slots = jb.slots := by
  rw [slots, slots, moveBase, List.map_map]
  rfl

def TakesOrDrops (jb : Jb α) (result : Option (Code × Jb α)) : Prop :=
  ∃ code jb', result = some (code, jb') ∧
    (code = .ok ∨ code = .drop ∧ jb'.handed = jb.handed ∧ jb'.slots = jb.slots)

lemma TakesOrDrops.of_eq {u : Jb α} {result : Option (Code × Jb α)} (h : TakesOrDrops u result)
    (hhanded : u.handed = jb.handed) (hslots : u.slots = jb.slots) : TakesOrDrops jb result := by
  rw [TakesOrDrops, hhanded, hslots] at h
  exact h

lemma put_takesOrDrops_of_resynch (conf : Conf) (fuel : Nat) (hvalid : ¬a.Invalid)
    (h : ∀ u : Jb α, Same u jb → TakesOrDrops u (resynch conf (Jb.put conf fuel) u a)) :
    TakesOrDrops jb (Jb.put conf (fuel + 1) jb a) := by
  obtain ⟨hinvalid, -⟩ | ⟨-, u, g, hu, hg, heq⟩ | ⟨-, u, delivery, -, -, -, heq⟩ :=
    put_cases conf fuel jb a
  · exact absurd hinvalid hvalid
  · obtain ⟨code, v, hv, htaken⟩ := (h u hu).of_eq hu.handed hu.slots
    refine ⟨code, g v, by rw [heq, hv]; rfl, ?_⟩
    rw [(hg v).handed, (hg v).slots]
    exact htaken
  · exact ⟨.ok, _, heq, .inl rfl⟩

lemma resynch_takesOrDrops_of (conf : Conf) (fuel : Nat) (hvalid : ¬a.Invalid)
    (hmoved : ∀ tail, ¬Near conf jb a → jb.frames.getLast? = some tail → TakesOrDrops jb
      (Jb.put conf (fuel + 1) ((jb.withForce false).moveBase (a.ts - tail.ts - tail.ms))
        { a with marker := 0 })) :
    TakesOrDrops jb (resynch conf (Jb.put conf (fuel + 1)) jb a) := by
  obtain ⟨u, -, hforce, heq⟩ | ⟨u, hu, heq⟩ | ⟨hfar, tail, htail, heq⟩ :=
    resynch_cases conf (Jb.put conf (fuel + 1)) jb a
  · obtain ⟨-, hempty, hsame, -⟩ := takeAll_eq u .flushed
    have hvalid' : ¬Arrival.Invalid { a with marker := 0 } := hvalid
    obtain ⟨jb', hput⟩ := putFirst_eq conf fuel hempty (hsame.trans hforce) hvalid'
    exact ⟨.ok, jb', heq.trans hput, .inl rfl⟩
  · exact ⟨.drop, u, heq, .inr ⟨rfl, hu.handed, hu.slots⟩⟩
  · rw [heq]
    exact hmoved tail hfar htail

lemma near_moveBase {tail : Frame α} (htail : jb.frames.getLast? = some tail) :
    Near conf (jb.moveBase (a.ts - tail.ts - tail.ms)) { a with marker := 0 } := by
  intro last hlast
  have hmap : (jb.moveBase (a.ts - tail.ts - tail.ms)).frames.getLast? =
      some { tail with ts := tail.ts + (a.ts - tail.ts - tail.ms) } := by
    rw [moveBase, List.getLast?_map, htail]
    rfl
  obtain rfl := Option.some.inj (hmap.symm.trans hlast)
  have hthreshold := conf.resyncThreshold_pos
  dsimp only
  omega

lemma Near.of_frames_eq {u : Jb α} (h : Near conf jb a) (hframes : u.frames = jb.frames) :
    Near conf u a := by
  rw [Near, hframes]
  exact h

lemma resynch_takesOrDrops (conf : Conf) (fuel : Nat) (hvalid : ¬a.Invalid) (jb : Jb α) :
    TakesOrDrops jb (resynch conf (Jb.put conf (fuel + 2)) jb a) := by
  refine resynch_takesOrDrops_of conf (fuel + 1) hvalid ?_
  intro tail _ htail
  have hvalid' : ¬Arrival.Invalid { a with marker := 0 } := hvalid
  refine (put_takesOrDrops_of_resynch conf (fuel + 1) hvalid' ?_).of_eq rfl (slots_moveBase _ _)
  intro u hu
  -- the frame is near now, so the time base is not moved again
  have hmoved : Near conf ((jb.withForce false).moveBase (a.ts - tail.ts - tail.ms))
      { a with marker := 0 } := near_moveBase htail
  have hnear : Near conf u { a with marker := 0 } := hmoved.of_frames_eq hu.frames
  refine resynch_takesOrDrops_of conf fuel hvalid' ?_
  intro tail' hfar
  exact absurd hnear hfar

/-- A `put` calls itself twice at most, from every state. It takes the frame to the others, or leaves
these where they are. -/
theorem put_ends (conf : Conf) (jb : Jb α) (a : Arrival α) :
    ∃ code jb', Jb.put conf 3 jb a = some (code, jb') ∧
      (code = .error ∧ jb' = jb ∧ (a.ms < 2 ∨ a.ts < 0) ∨
        ¬(a.ms < 2 ∨ a.ts < 0) ∧
          (code = .ok ∧ jb'.datas.Perm (a.data :: jb.datas) ∨
            code = .drop ∧ jb'.handed = jb.handed ∧ jb'.slots = jb.slots)) := by
  by_cases hinvalid : a.Invalid
  · exact ⟨.error, jb, if_pos hinvalid, .inl ⟨rfl, rfl, hinvalid⟩⟩
  · have htakes : TakesOrDrops jb (Jb.put conf 3 jb a) :=
      put_takesOrDrops_of_resynch conf 2 hinvalid fun u _ => resynch_takesOrDrops conf 0 hinvalid u
    obtain ⟨code, jb', heq, rfl | hdropped⟩ := htakes
    · have hstores := (put_spec conf 3 jb a .ok jb' heq).2
      exact ⟨.ok, jb', heq, .inr ⟨hinvalid, .inl ⟨rfl, hstores⟩⟩⟩
    · exact ⟨code, jb', heq, .inr ⟨hinvalid, .inr hdropped⟩⟩

/-! ## Getting frames -/

lemma get_spec (hinv : jb.Inv) (now interpl : Int) :
    (jb.get now interpl).2.Inv ∧ (jb.get now interpl).2.datas = jb.datas := by
  rw [Jb.get]
  split
  · exact ⟨hinv, rfl⟩
  · rename_i hvalid
    have hgrow : jb.nextDelivery ≤ jb.nextDelivery + interpl := by omega
    split
    · exact ⟨hinv, rfl⟩
    · split
      · exact ⟨hinv.of_eq rfl rfl rfl hgrow, rfl⟩
      · split
        · exact ⟨hinv.getJbHead .late, datas_getJbHead jb .late⟩
        · split
          · exact ⟨hinv.of_eq rfl rfl rfl hgrow, rfl⟩
          · exact ⟨hinv.getJbHead .got, datas_getJbHead jb .got⟩

section Get

variable {now interpl : Int}

/-- The frame is got between its delivery and its end, or dropped after its end. -/
def InTime (now : Int) (h : Handed α) : Prop :=
  h.way = .got ∧ h.frame.delivery ≤ now ∧ now ≤ h.frame.delivery + h.frame.ms ∨
    h.way = .late ∧ h.frame.delivery + h.frame.ms < now

/-- The first frames have left the buffer in time. -/
def Delivered (now : Int) (jb out : Jb α) : Prop :=
  ∃ taken, out.handed = jb.handed ++ taken ∧ jb.frames = taken.map Handed.frame ++ out.frames ∧
    ∀ h ∈ taken, InTime now h

lemma getRound_cases (hnow : 0 ≤ now) (hinterpl : 2 ≤ interpl) (hdue : jb.nextDelivery ≤ now) :
    (∃ fr rest way, jb.frames = fr :: rest ∧ InTime now ⟨fr, way, jb.firsts⟩ ∧
        getRound now interpl jb = .next (jb.getJbHead way)) ∨
      getRound now interpl jb = .next { jb with nextDelivery := jb.nextDelivery + interpl } := by
  have hvalid : ¬(now < 0 ∨ interpl < 2) := by omega
  rw [getRound, if_neg (not_lt.mpr hdue), Jb.get, if_neg hvalid, if_neg (not_lt.mpr hdue)]
  cases hframes : jb.frames with
  | nil => exact .inr rfl
  | cons fr rest =>
    dsimp only
    by_cases hlate : now > fr.delivery + fr.ms
    · rw [if_pos hlate]
      exact .inl ⟨fr, rest, .late, rfl, .inr ⟨rfl, hlate⟩, rfl⟩
    · rw [if_neg hlate]
      by_cases hbegin : now < fr.delivery
      · rw [if_pos hbegin]
        exact .inr rfl
      · rw [if_neg hbegin]
        exact .inl ⟨fr, rest, .got, rfl, .inl ⟨rfl, not_lt.mp hbegin, not_lt.mp hlate⟩, rfl⟩

lemma Delivered.getJbHead {u : Jb α} {fr : Frame α} {rest : List (Frame α)} {way : Way}
    (h : Delivered now jb u) (hframes : u.frames = fr :: rest)
    (hway : InTime now ⟨fr, way, u.firsts⟩) : Delivered now jb (u.getJbHead way) := by
  obtain ⟨taken, hhanded, hsplit, hall⟩ := h
  rw [Jb.getJbHead, hframes]
  refine ⟨taken ++ [⟨fr, way, u.firsts⟩], ?_, ?_, ?_⟩
  · dsimp only
    rw [hhanded, List.append_assoc]
  · rw [hsplit, hframes, List.map_append, List.append_assoc]
    rfl
  · intro g hg
    rcases List.mem_append.mp hg with hg | hg
    · exact hall g hg
    · rwa [List.mem_singleton.mp hg]

def togo (now : Int) (jb : Jb α) : Nat × Nat := (jb.frames.length, (now + 1 - jb.nextDelivery).toNat)

lemma getRound_next (hnow : 0 ≤ now) (hinterpl : 2 ≤ interpl) {u u' : Jb α}
    (hu : Delivered now jb u) (hround : getRound now interpl u = .next u') :
    Delivered now jb u' ∧ Prod.Lex (· < ·) (· < ·) (togo now u') (togo now u) := by
  have hdue : u.nextDelivery ≤ now := by
    by_contra hearly
    rw [getRound, if_pos (not_le.mp hearly)] at hround
    cases hround
  obtain ⟨fr, rest, way, hframes, hway, heq⟩ | heq := getRound_cases hnow hinterpl hdue
  · obtain rfl := Outcome.next.inj (heq.symm.trans hround)
    refine ⟨hu.getJbHead hframes hway, .left _ _ ?_⟩
    rw [Jb.getJbHead, hframes]
    exact Nat.lt_succ_self _
  · obtain rfl := Outcome.next.inj (heq.symm.trans hround)
    refine ⟨hu, .right _ ?_⟩
    change (now + 1 - (u.nextDelivery + interpl)).toNat < (now + 1 - u.nextDelivery).toNat
    omega

lemma getRound_done (hnow : 0 ≤ now) (hinterpl : 2 ≤ interpl) {u out : Jb α}
    (hround : getRound now interpl u = .done out) : out = u ∧ now < u.nextDelivery := by
  by_cases hearly : now < u.nextDelivery
  · rw [getRound, if_pos hearly] at hround
    exact ⟨(Outcome.done.inj hround).symm, hearly⟩
  · obtain ⟨_, _, _, -, -, heq⟩ | heq := getRound_cases hnow hinterpl (not_lt.mp hearly)
    · cases heq.symm.trans hround
    · cases heq.symm.trans hround

lemma getRound_not_broken (now interpl : Int) (u : Jb α) : getRound now interpl u ≠ .broken := by
  rw [getRound]
  split
  · intro h
    cases h
  · split <;> intro h <;> cases h

/-- The loop that gets the frames ends, whatever the time and the length of an interpolated frame. When
they are valid, the first frames leave the buffer in time until the next delivery is in the future.
With the greatest time as the next delivery nothing is done. -/
theorem getAndDeliver_ends (now interpl : Int) (jb : Jb α) :
    ∃ fuel out, getAndDeliver fuel jb now interpl = some out ∧
      (if jb.nextDelivery = jbLongMax ∨ now < 0 ∨ interpl < 2 then out = jb
      else Delivered now jb out ∧ now < out.nextDelivery) := by
  unfold getAndDeliver
  by_cases hempty : jb.nextDelivery = jbLongMax
  · exact ⟨0, jb, if_pos hempty, by rw [if_pos (.inl hempty)]⟩
  simp only [if_neg hempty]
  by_cases hvalid : now < 0 ∨ interpl < 2
  · refine ⟨1, jb, ?_, by rw [if_pos (.inr hvalid)]⟩
    refine runLoop_done ?_ 0
    rw [getRound, Jb.get, if_pos hvalid]
    split <;> rfl
  · have hnow : 0 ≤ now := by omega
    have hinterpl : 2 ≤ interpl := by omega
    have hself : Delivered now jb jb := ⟨[], (List.append_nil _).symm, rfl, by simp⟩
    have hwf : WellFounded (Prod.Lex (· < ·) (· < ·) : Nat × Nat → Nat × Nat → Prop) :=
      (Prod.lex ⟨_, wellFounded_lt⟩ ⟨_, wellFounded_lt⟩).wf
    obtain ⟨fuel, out, hrun⟩ := (exists_runLoop_iff (I := Delivered now jb) hwf (togo now)
      (fun u u' hu hround => getRound_next hnow hinterpl hu hround) hself).mpr
      (fun u _ => getRound_not_broken now interpl u)
    refine ⟨fuel, out, hrun, ?_⟩
    rw [if_neg (not_or.mpr ⟨hempty, hvalid⟩)]
    refine runLoop_invariant (I := Delivered now jb)
      (Q := fun out => Delivered now jb out ∧ now < out.nextDelivery) ?_ ?_ hself hrun
    · intro u u' hu hround
      exact (getRound_next hnow hinterpl hu hround).1
    · intro u out' hu hround
      obtain ⟨rfl, hnext⟩ := getRound_done hnow hinterpl hround
      exact ⟨hu, hnext⟩

end Get

/-! ## Runs -/

lemma Inv.destroy (h : jb.Inv) : jb.destroy.Inv := by
  have htaken := h.takeAll .removed
  refine ⟨.nil, ?_, htaken.order, ?_, ?_⟩
  · intro f hf
    cases hf
  · intro g hg
    exact (htaken.past g hg).trans (Nat.le_succ _)
  · intro g hg heq
    exact absurd (htaken.past g hg) (by rw [heq]; exact Nat.not_succ_le_self _)

lemma datas_destroy (jb : Jb α) : jb.destroy.datas = jb.datas := by
  obtain ⟨hdatas, hempty, -⟩ := takeAll_eq jb .removed
  have hframes : jb.removeAll.frames = [] := hempty
  rw [← hdatas]
  change jb.removeAll.handed.map _ ++ [] = jb.removeAll.handed.map _ ++ jb.removeAll.frames.map _
  rw [hframes, List.map_nil]

lemma stepState_eq_some (h : stepState jb act = some jb') :
    ∃ code, step jb act = some (code, jb') := by
  obtain ⟨⟨code, u⟩, hstep, rfl⟩ := Option.map_eq_some_iff.mp h
  exact ⟨code, hstep⟩

lemma step_spec (hinv : jb.Inv) {act : Act α} (h : step jb act = some (code, jb')) :
    jb'.Inv ∧ jb'.datas.Perm (act.stored code ++ jb.datas) := by
  have hstores : ∀ b : Arrival α, Stores jb b code jb' → (∀ c, act.stored c = (Act.put b).stored c) →
      jb'.Inv ∧ jb'.datas.Perm (act.stored code ++ jb.datas) := by
    intro b hb hact
    refine ⟨hb.1 hinv, ?_⟩
    rw [hact]
    have hdatas := hb.2
    cases code with
    | ok => exact hdatas
    | drop => exact List.Perm.of_eq hdatas
    | interp => exact List.Perm.of_eq hdatas
    | noframe => exact List.Perm.of_eq hdatas
    | error => exact List.Perm.of_eq hdatas
  cases act with
  | create jitterMax jitterResyncThreshold b =>
    obtain ⟨-, h⟩ := Option.ite_none_right_eq_some.mp h
    have hspec := (putFirst_spec (put_spec _ 3) h).of_datas_eq
      (fun hinv : jb.Inv => hinv.of_eq rfl rfl rfl le_rfl) rfl rfl
    exact hstores b hspec fun c => by cases c <;> rfl
  | put b => exact hstores b (put_spec jb.conf 3 jb b code jb' h) fun c => rfl
  | get now interpl =>
    obtain ⟨rfl, rfl⟩ := Prod.mk.inj (Option.some.inj h)
    exact ⟨(get_spec hinv now interpl).1, List.Perm.of_eq (get_spec hinv now interpl).2⟩
  | emptyAndReset =>
    obtain ⟨rfl, rfl⟩ := Prod.mk.inj (Option.some.inj h)
    exact ⟨hinv.takeAll .removed, List.Perm.of_eq (takeAll_eq jb .removed).1⟩
  | destroy =>
    obtain ⟨rfl, rfl⟩ := Prod.mk.inj (Option.some.inj h)
    exact ⟨hinv.destroy, List.Perm.of_eq (datas_destroy jb)⟩
  | setForceResynch =>
    obtain ⟨rfl, rfl⟩ := Prod.mk.inj (Option.some.inj h)
    exact ⟨(same_withForce jb true).inv hinv, List.Perm.refl _⟩
  | setChannel audioDecode prevFrameIsDtmf lastLossBurst =>
    obtain ⟨rfl, rfl⟩ := Prod.mk.inj (Option.some.inj h)
    exact ⟨hinv.of_eq rfl rfl rfl le_rfl, List.Perm.refl _⟩

lemma run_spec {acts : List (Act α)} (hinv : jb.Inv)
    (hrun : run stepState jb acts = some jb') :
    jb'.Inv ∧ jb'.datas.Perm (accepted jb acts ++ jb.datas) := by
  induction acts generalizing jb with
  | nil =>
    obtain rfl := Option.some.inj hrun
    exact ⟨hinv, List.Perm.refl _⟩
  | cons act acts ih =>
    obtain ⟨u, hu, hrest⟩ := Option.bind_eq_some_iff.mp hrun
    obtain ⟨code, hstep⟩ := stepState_eq_some hu
    obtain ⟨hinv', hperm⟩ := step_spec hinv hstep
    obtain ⟨hinv'', hperm'⟩ := ih hinv' hrest
    refine ⟨hinv'', hperm'.trans ?_⟩
    have haccepted : accepted jb (act :: acts) = act.stored code ++ accepted u acts := by
      rw [accepted, hstep]
      rfl
    rw [haccepted, List.append_assoc]
    exact (hperm.append_left _).trans (List.perm_append_comm_assoc _ _ _)

/-- After every run, the frames that left the buffer and those in it are the ones that were accepted,
each of them once. -/
theorem handed_and_frames_perm_accepted {acts : List (Act α)}
    (hrun : run stepState {} acts = some jb) :
    (jb.handed.map (fun h => h.frame.data) ++ jb.frames.map (fun f => f.data)).Perm
      (accepted {} acts) := by
  have hperm := (run_spec inv_new hrun).2
  rwa [show ({} : Jb α).datas = [] from rfl, List.append_nil] at hperm

/-- Three frames, the last two in the other order, of which two are got. -/
def swapped : List (Act Nat) :=
  [.create 50 100 ⟨1, 20, 0, 1000, 0⟩, .put ⟨2, 20, 40, 1040, 0⟩, .put ⟨3, 20, 20, 1045, 0⟩, .get 1055 20,
    .get 1072 20]

theorem handed_and_frames_perm_accepted_swapped :
    ∃ jb : Jb Nat, run stepState {} swapped = some jb ∧
      (jb.handed.map (fun h => h.frame.data) ++ jb.frames.map (fun f => f.data)).Perm
        (accepted {} swapped) := by
  have hsome : (run stepState ({} : Jb Nat) swapped).isSome = true := by decide
  obtain ⟨jb, hrun⟩ := Option.isSome_iff_exists.mp hsome
  exact ⟨jb, hrun, handed_and_frames_perm_accepted hrun⟩

/-- After every run, the frames left the buffer in the order of their delivery since it began, and
those in it come after them in this order. -/
theorem handed_pairwise_before {acts : List (Act α)}
    (hrun : run stepState {} acts = some jb) :
    jb.handed.Pairwise Before ∧ jb.frames.Pairwise (fun f g => f.delivery < g.delivery) ∧
      ∀ h ∈ jb.handed, h.firsts = jb.firsts → ∀ f ∈ jb.frames, h.frame.delivery < f.delivery := by
  obtain ⟨hinv, -⟩ := run_spec inv_new hrun
  refine ⟨hinv.order, hinv.sorted, ?_⟩
  intro h hh heq
  exact (hinv.ahead h hh heq).2

theorem handed_pairwise_before_swapped :
    ∃ jb : Jb Nat, run stepState {} swapped = some jb ∧
      jb.handed.Pairwise Before ∧ jb.frames.Pairwise (fun f g => f.delivery < g.delivery) ∧
        ∀ h ∈ jb.handed, h.firsts = jb.firsts →
          ∀ f ∈ jb.frames, h.frame.delivery < f.delivery := by
  have hsome : (run stepState ({} : Jb Nat) swapped).isSome = true := by decide
  obtain ⟨jb, hrun⟩ := Option.isSome_iff_exists.mp hsome
  exact ⟨jb, hrun, handed_pairwise_before hrun⟩

example : (run stepState ({} : Jb Nat) swapped).map
    (fun jb => (jb.handed.map (fun h => h.frame.data), jb.frames.map (fun f => f.data))) =
      some ([1, 3], [2]) := by
  decide

end Jb

end VoipMonitor.FixedJb
