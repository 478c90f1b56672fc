import VoipMonitor.Proofs.TcpOrder

/-!
# The bounds of a stream in a window of sequence numbers

`min_seq` and `max_next_seq` are kept by a comparison that knows a wrap only near the ends of the
range of the numbers, and 0 stands for a bound that is not set. The order of the packets does not
matter when the comparison puts the first number before each other one and the last end behind each
other one.
-/

namespace VoipMonitor.Tcp
open VoipMonitor.Library

/-! ## A scan in which 0 is not set -/

section Scan
variable {better : Nat → Nat → Prop} [DecidableRel better]

def takeBetter (better : Nat → Nat → Prop) [DecidableRel better] (m v : Nat) : Nat :=
  if m = 0 ∨ better v m then v else m

def scanBetter (better : Nat → Nat → Prop) [DecidableRel better] (m : Nat) (l : List Nat) : Nat :=
  l.foldl (takeBetter better) m

variable (better) in
lemma takeBetter_cases (m v : Nat) : takeBetter better m v = v ∨ takeBetter better m v = m := by
  unfold takeBetter
  split
  · exact Or.inl rfl
  · exact Or.inr rfl

variable {x : Nat} {l : List Nat}

def Best (better : Nat → Nat → Prop) (x : Nat) (l : List Nat) : Prop :=
  ∀ v ∈ l, v ≠ x → x ≠ 0 ∧ better x v

lemma scanBetter_keep (hasymm : ∀ a b, better a b → ¬better b a) (hbest : Best better x l) :
    scanBetter better x l = x := by
  induction l with
  | nil => rfl
  | cons v l ih =>
    have hfirst : takeBetter better x v = x := by
      by_cases hv : v = x
      · rw [hv]
        exact (takeBetter_cases better x x).elim id id
      · obtain ⟨hne, hbetter⟩ := hbest v List.mem_cons_self hv
        exact if_neg (not_or.mpr ⟨hne, hasymm x v hbetter⟩)
    change scanBetter better (takeBetter better x v) l = x
    rw [hfirst]
    exact ih (fun u hu => hbest u (List.mem_cons_of_mem v hu))

lemma scanBetter_find (hasymm : ∀ a b, better a b → ¬better b a) (hbest : Best better x l)
    (hmem : x ∈ l) {m : Nat} (hm : m = 0 ∨ m = x ∨ better x m) : scanBetter better m l = x := by
  induction l generalizing m with
  | nil => cases hmem
  | cons v l ih =>
    have hrest : Best better x l := fun u hu => hbest u (List.mem_cons_of_mem v hu)
    change scanBetter better (takeBetter better m v) l = x
    by_cases hv : v = x
    · have hfirst : takeBetter better m v = x := by
        rcases hm with hm | hm | hm
        · exact (if_pos (Or.inl hm)).trans hv
        · rw [hv, hm]
          exact (takeBetter_cases better x x).elim id id
        · refine (if_pos (Or.inr ?_)).trans hv
          rwa [hv]
      rw [hfirst]
      exact scanBetter_keep hasymm hrest
    · have hl : x ∈ l := (List.mem_cons.mp hmem).resolve_left (fun h => hv h.symm)
      rcases takeBetter_cases better m v with hfirst | hfirst
      · rw [hfirst]
        exact ih hrest hl (Or.inr (Or.inr (hbest v List.mem_cons_self hv).2))
      · rw [hfirst]
        exact ih hrest hl hm

lemma scanBetter_last (htotal : ∀ a b, a ≠ b → better a b ∨ better b a) {v : Nat} (hv : v ≠ x)
    (hnot : ¬(x ≠ 0 ∧ better x v)) (rest : List Nat) :
    scanBetter better 0 (rest ++ [x, v]) ≠ x := by
  have hlast : scanBetter better 0 (rest ++ [x, v]) =
      takeBetter better (takeBetter better (scanBetter better 0 rest) x) v := by
    rw [scanBetter, List.foldl_append]
    rfl
  rw [hlast]
  by_cases hx : takeBetter better (scanBetter better 0 rest) x = x
  · have htake : x = 0 ∨ better v x := by
      by_cases hzero : x = 0
      · exact Or.inl hzero
      · exact Or.inr ((htotal v x hv).resolve_right (fun h => hnot ⟨hzero, h⟩))
    rw [hx, takeBetter, if_pos htake]
    exact hv
  · rcases takeBetter_cases better (takeBetter better (scanBetter better 0 rest) x) v
      with hfirst | hfirst
    · rw [hfirst]
      exact hv
    · rw [hfirst]
      exact hx

theorem scanBetter_perm_iff {α : Type} (f : α → Nat) {l : List α} {a : α} (hmem : a ∈ l)
    (hasymm : ∀ a b, better a b → ¬better b a) (htotal : ∀ a b, a ≠ b → better a b ∨ better b a) :
    (∀ l' : List α, l'.Perm l → scanBetter better 0 (l'.map f) = f a) ↔ Best better (f a) (l.map f) := by
  classical
  constructor
  · intro h y hy hne
    obtain ⟨v, hv, rfl⟩ := List.mem_map.mp hy
    by_contra hnot
    have hv' : v ∈ l.erase a := (List.mem_erase_of_ne (fun heq => hne (congrArg f heq))).mpr hv
    have hperm : ((l.erase a).erase v ++ [a, v]).Perm l := by
      have hcons : ([a, v] ++ (l.erase a).erase v).Perm (a :: l.erase a) :=
        List.Perm.cons a (List.perm_cons_erase hv').symm
      exact List.perm_append_comm.trans (hcons.trans (List.perm_cons_erase hmem).symm)
    have hscan := h _ hperm
    rw [List.map_append] at hscan
    exact scanBetter_last htotal hne hnot _ hscan
  · intro hbest l' hperm
    refine scanBetter_find hasymm (fun y hy => hbest y ?_) ?_ (Or.inl rfl)
    · exact (hperm.map f).mem_iff.mp hy
    · exact List.mem_map_of_mem (hperm.mem_iff.mpr hmem)

end Scan

/-! ## The comparison -/

lemma seqCmp_neg_iff (a b : Nat) :
    seqCmp a b < 0 ↔ (a < b ∧ ¬(0xFFFF0000 < b ∧ a < 0xFFFF)) ∨
      (b < a ∧ 0xFFFF0000 < a ∧ b < 0xFFFF) := by
  unfold seqCmp seqIsRot
  simp only [Bool.and_eq_true, decide_eq_true_eq]
  split_ifs <;> omega

lemma seqCmp_pos_iff (a b : Nat) : seqCmp a b > 0 ↔ seqCmp b a < 0 := by
  rw [seqCmp_neg_iff]
  unfold seqCmp seqIsRot
  simp only [Bool.and_eq_true, decide_eq_true_eq]
  split_ifs <;> omega

lemma seqCmp_window {base i j : Nat} (hij : i < j) (hj : j < 2 ^ 31) :
    seqCmp ((base + i) % 2 ^ 32) ((base + j) % 2 ^ 32) < 0 ↔
      ((base + j) % 2 ^ 32 < (base + i) % 2 ^ 32 →
        0xFFFF0000 < (base + i) % 2 ^ 32 ∧ (base + j) % 2 ^ 32 < 0xFFFF) := by
  rw [seqCmp_neg_iff]
  omega

def Before (a b : Nat) : Prop := seqCmp a b < 0

def Behind (a b : Nat) : Prop := seqCmp a b > 0

instance : DecidableRel Before := fun a b => inferInstanceAs (Decidable (seqCmp a b < 0))

instance : DecidableRel Behind := fun a b => inferInstanceAs (Decidable (seqCmp a b > 0))

lemma before_asymm (a b : Nat) (h : Before a b) : ¬Before b a := by
  unfold Before at h ⊢
  rw [seqCmp_neg_iff] at h ⊢
  omega

lemma before_total (a b : Nat) (h : a ≠ b) : Before a b ∨ Before b a := by
  unfold Before
  rw [seqCmp_neg_iff, seqCmp_neg_iff]
  omega

lemma behind_iff (a b : Nat) : Behind a b ↔ Before b a := seqCmp_pos_iff a b

lemma pushAll_bounds (cfg : StreamConfig) (s : Stream) (packets : List StreamPacket) :
    (pushAll cfg s packets).minSeq = scanBetter Before s.minSeq (packets.map StreamPacket.seq) ∧
      (pushAll cfg s packets).maxNextSeq =
        scanBetter Behind s.maxNextSeq (packets.map StreamPacket.nextSeq) := by
  induction packets generalizing s with
  | nil => exact ⟨rfl, rfl⟩
  | cons p packets ih =>
    obtain ⟨hmin, hmax⟩ := Stream.push_minSeq cfg s p
    have hrest := ih ((s.push cfg p).moveBounds p)
    rw [hmin, hmax] at hrest
    exact hrest

/-! ## Windows -/

structure WindowSegment where
  start : Nat
  datalen : Nat
  data : Bytes
  psh : Bool
  isSip : Bool

def WindowSegment.stop (x : WindowSegment) : Nat := x.start + x.datalen

/-- Segments with data in a window of less than `2 ^ 31` bytes that begins at any number. -/
structure SegmentWindow where
  base : Nat
  segments : List WindowSegment
  base_lt : base < 2 ^ 32
  segments_ne : segments ≠ []
  datalen_pos : ∀ x ∈ segments, 0 < x.datalen
  stop_lt : ∀ x ∈ segments, x.stop < 2 ^ 31

namespace SegmentWindow
variable (w : SegmentWindow)

def seq (n : Nat) : Nat := (w.base + n) % 2 ^ 32

def packet (x : WindowSegment) : StreamPacket :=
  .setData (w.seq x.start) x.psh x.data x.datalen x.isSip

/-- No segment begins before `x`. -/
def IsFirst (x : WindowSegment) : Prop := x ∈ w.segments ∧ ∀ y ∈ w.segments, x.start ≤ y.start

/-- No segment ends behind `x`. -/
def IsLast (x : WindowSegment) : Prop := x ∈ w.segments ∧ ∀ y ∈ w.segments, y.stop ≤ x.stop

def Bounds (s : Stream) : Prop :=
  (∃ x, w.IsFirst x ∧ s.minSeq = w.seq x.start) ∧ ∃ x, w.IsLast x ∧ s.maxNextSeq = w.seq x.stop

/-- The bounds are those of the window, in whatever order the segments come. -/
def InAnyOrder (cfg : StreamConfig) (ack : Nat) (toDest : Bool) : Prop :=
  ∀ order : List WindowSegment, order.Perm w.segments →
    w.Bounds (pushAll cfg (.new ack toDest) (order.map w.packet))

def WrapKnown (i j : Nat) : Prop :=
  w.seq j < w.seq i → 0xFFFF0000 < w.seq i ∧ w.seq j < 0xFFFF

/-- Before every later number the first one is set and known to be smaller. -/
def FirstKnown : Prop :=
  ∀ x y, w.IsFirst x → y ∈ w.segments → x.start < y.start →
    w.seq x.start ≠ 0 ∧ w.WrapKnown x.start y.start

/-- Behind every earlier end the last one is set and known to be greater. -/
def LastKnown : Prop :=
  ∀ x y, w.IsLast x → y ∈ w.segments → y.stop < x.stop →
    w.seq x.stop ≠ 0 ∧ w.WrapKnown y.stop x.stop

variable {w} {x : WindowSegment}

lemma nextSeq_packet (x : WindowSegment) : (w.packet x).nextSeq = w.seq x.stop := by
  change ((w.base + x.start) % 2 ^ 32 + x.datalen) % 2 ^ 32 = (w.base + (x.start + x.datalen)) % 2 ^ 32
  omega

lemma seq_inj {i j : Nat} (hi : i < 2 ^ 31) (hj : j < 2 ^ 31) (h : w.seq i = w.seq j) : i = j := by
  unfold seq at h
  omega

lemma start_lt {y : WindowSegment} (hy : y ∈ w.segments) : y.start < 2 ^ 31 := by
  have hstop := w.stop_lt y hy
  unfold WindowSegment.stop at hstop
  omega

lemma exists_isFirst (w : SegmentWindow) : ∃ x, w.IsFirst x := by
  obtain ⟨x, hx⟩ := Option.ne_none_iff_exists'.mp
    (mt List.argmin_eq_none.mp w.segments_ne : List.argmin WindowSegment.start w.segments ≠ none)
  exact ⟨x, List.argmin_mem hx, fun y hy => List.le_of_mem_argmin hy hx⟩

lemma exists_isLast (w : SegmentWindow) : ∃ x, w.IsLast x := by
  obtain ⟨x, hx⟩ := Option.ne_none_iff_exists'.mp
    (mt List.argmax_eq_none.mp w.segments_ne : List.argmax WindowSegment.stop w.segments ≠ none)
  exact ⟨x, List.argmax_mem hx, fun y hy => List.le_of_mem_argmax hy hx⟩

lemma best_first_iff (hx : w.IsFirst x) :
    Best Before (w.seq x.start) (w.segments.map (fun y => w.seq y.start)) ↔
      ∀ y ∈ w.segments, x.start < y.start →
        w.seq x.start ≠ 0 ∧ w.WrapKnown x.start y.start := by
  constructor
  · intro h y hy hlt
    have hne : w.seq y.start ≠ w.seq x.start := fun heq =>
      hlt.ne' (seq_inj (start_lt hy) (start_lt hx.1) heq)
    obtain ⟨hset, hbefore⟩ := h _ (List.mem_map_of_mem hy) hne
    exact ⟨hset, (seqCmp_window hlt (start_lt hy)).mp hbefore⟩
  · intro h v hv hne
    obtain ⟨y, hy, rfl⟩ := List.mem_map.mp hv
    have hlt : x.start < y.start :=
      lt_of_le_of_ne (hx.2 y hy) (fun heq => hne (by rw [heq]))
    obtain ⟨hset, hknown⟩ := h y hy hlt
    exact ⟨hset, (seqCmp_window hlt (start_lt hy)).mpr hknown⟩

lemma best_last_iff (hx : w.IsLast x) :
    Best Behind (w.seq x.stop) (w.segments.map (fun y => w.seq y.stop)) ↔
      ∀ y ∈ w.segments, y.stop < x.stop → w.seq x.stop ≠ 0 ∧ w.WrapKnown y.stop x.stop := by
  constructor
  · intro h y hy hlt
    have hne : w.seq y.stop ≠ w.seq x.stop := fun heq =>
      hlt.ne (seq_inj (w.stop_lt y hy) (w.stop_lt x hx.1) heq)
    obtain ⟨hset, hbehind⟩ := h _ (List.mem_map_of_mem hy) hne
    exact ⟨hset, (seqCmp_window hlt (w.stop_lt x hx.1)).mp ((behind_iff _ _).mp hbehind)⟩
  · intro h v hv hne
    obtain ⟨y, hy, rfl⟩ := List.mem_map.mp hv
    have hlt : y.stop < x.stop :=
      lt_of_le_of_ne (hx.2 y hy) (fun heq => hne (by rw [heq]))
    obtain ⟨hset, hknown⟩ := h y hy hlt
    exact ⟨hset, (behind_iff _ _).mpr ((seqCmp_window hlt (w.stop_lt x hx.1)).mpr hknown)⟩

section Orders
variable (w : SegmentWindow) (cfg : StreamConfig) (ack : Nat) (toDest : Bool)

/-- A bound that is scanned for is the same in any order when it is best at the segment `Is` asks
for. -/
lemma scan_iff {R : Nat → Nat → Prop} [DecidableRel R] (hasymm : ∀ a b, R a b → ¬R b a)
    (htotal : ∀ a b, a ≠ b → R a b ∨ R b a) {f : WindowSegment → Nat} {Is : WindowSegment → Prop}
    {bound : List WindowSegment → Nat}
    (hscan : ∀ order, bound order = scanBetter R 0 (order.map (fun y => w.seq (f y))))
    (hmem : ∀ x, Is x → x ∈ w.segments) (hsame : ∀ x y, Is x → Is y → f x = f y)
    (hex : ∃ x, Is x) :
    (∀ order : List WindowSegment, order.Perm w.segments → ∃ x, Is x ∧ bound order = w.seq (f x)) ↔
      ∀ x, Is x → Best R (w.seq (f x)) (w.segments.map (fun y => w.seq (f y))) := by
  constructor
  · intro h x hx
    refine (scanBetter_perm_iff _ (hmem x hx) hasymm htotal).mp (fun order hperm => ?_)
    obtain ⟨y, hy, hbound⟩ := h order hperm
    rw [← hscan, hbound, hsame y x hy hx]
  · intro h order hperm
    obtain ⟨x, hx⟩ := hex
    refine ⟨x, hx, (hscan order).trans ?_⟩
    exact (scanBetter_perm_iff _ (hmem x hx) hasymm htotal).mpr (h x hx) order hperm

lemma first_iff :
    (∀ order : List WindowSegment, order.Perm w.segments → ∃ x, w.IsFirst x ∧
      (pushAll cfg (.new ack toDest) (order.map w.packet)).minSeq = w.seq x.start) ↔
    w.FirstKnown := by
  refine (scan_iff w before_asymm before_total (fun order => ?_) (fun x hx => hx.1)
    (fun x y hx hy => le_antisymm (hx.2 y hy.1) (hy.2 x hx.1)) (exists_isFirst w)).trans ?_
  · rw [(pushAll_bounds cfg _ _).1, List.map_map]
    rfl
  · exact ⟨fun h x y hx => (best_first_iff hx).mp (h x hx) y,
      fun h x hx => (best_first_iff hx).mpr fun y => h x y hx⟩

lemma last_iff :
    (∀ order : List WindowSegment, order.Perm w.segments → ∃ x, w.IsLast x ∧
      (pushAll cfg (.new ack toDest) (order.map w.packet)).maxNextSeq = w.seq x.stop) ↔
    w.LastKnown := by
  have hasymm (a b : Nat) (h : Behind a b) : ¬Behind b a := fun h' =>
    before_asymm b a ((behind_iff a b).mp h) ((behind_iff b a).mp h')
  have htotal (a b : Nat) (h : a ≠ b) : Behind a b ∨ Behind b a :=
    (before_total b a h.symm).imp (behind_iff a b).mpr (behind_iff b a).mpr
  refine (scan_iff w hasymm htotal (fun order => ?_) (fun x hx => hx.1)
    (fun x y hx hy => le_antisymm (hy.2 x hx.1) (hx.2 y hy.1)) (exists_isLast w)).trans ?_
  · rw [(pushAll_bounds cfg _ _).2, List.map_map]
    exact congrArg _ (List.map_congr_left (fun y _ => nextSeq_packet y))
  · exact ⟨fun h x y hx => (best_last_iff hx).mp (h x hx) y,
      fun h x hx => (best_last_iff hx).mpr fun y => h x y hx⟩

/-- The bounds are right in any order when the first number is not 0 and every wrap behind it is
known, and the same for the last end. -/
theorem inAnyOrder_iff : w.InAnyOrder cfg ack toDest ↔ w.FirstKnown ∧ w.LastKnown := by
  rw [← first_iff w cfg ack toDest, ← last_iff w cfg ack toDest]
  constructor
  · intro h
    exact ⟨fun order hperm => (h order hperm).1, fun order hperm => (h order hperm).2⟩
  · rintro ⟨hfirst, hlast⟩ order hperm
    exact ⟨hfirst order hperm, hlast order hperm⟩

end Orders

end SegmentWindow

/-- Two segments of a window of 128 KiB across the wrap: the second one begins behind the first
64 KiB of the numbers. -/
def wrappedWindow : SegmentWindow where
  base := 0xFFFF8000
  segments := [⟨0, 1000, [], false, true⟩, ⟨0x18000, 1000, [], true, true⟩]
  base_lt := by decide
  segments_ne := List.cons_ne_nil _ _
  datalen_pos := by
    intro x hx
    rcases List.mem_pair.mp hx with rfl | rfl <;> decide
  stop_lt := by
    intro x hx
    rcases List.mem_pair.mp hx with rfl | rfl <;> decide

/-- The options of the reassembly of SIP. -/
def windowConfig : StreamConfig where
  completeMod := 0
  enableSmartCompleteData := true
  ignoreZeroData := false
  maxReassemblyAttempts := 50
  mapEnd := 0

/-- In the order of the window the second segment becomes the first one. -/
theorem not_inAnyOrder_wrapped : ¬wrappedWindow.InAnyOrder windowConfig 1 true := by
  intro h
  obtain ⟨x, hx, hmin⟩ := (h _ (List.Perm.refl _)).1
  have hseq : (pushAll windowConfig (.new 1 true)
      (wrappedWindow.segments.map wrappedWindow.packet)).minSeq = 0x10000 := by decide
  have hstart : x.start = 0 :=
    Nat.le_zero.mp (hx.2 ⟨0, 1000, [], false, true⟩ List.mem_cons_self)
  rw [hseq, hstart] at hmin
  exact absurd hmin (by decide)

end VoipMonitor.Tcp
