import VoipMonitor.Model.AddressLists

/-!
# Searches in lists of addresses and numbers

What a search in a sorted list finds is said by its elements alone. The walk over the networks
misses one that contains the address exactly when each of them has a network behind it that ends
the walk; the search for a prefix misses it when another number stands between.
-/

namespace VoipMonitor.AddressLists
open VoipMonitor.Library VoipMonitor.CallsHash

/-! ## The order of addresses -/

lemma lt_iff_sortKey (a b : VmIP) : a.lt b = true ↔ a.sortKey < b.sortKey := by
  cases a with
  | v4 a =>
    cases b with
    | v4 b =>
      rw [VmIP.lt, decide_eq_true_iff, UInt32.lt_iff_toNat_lt]
      exact Sum.Lex.inl_lt_inl_iff.symm
    | v6 => exact iff_of_true rfl (Sum.Lex.inl_lt_inr _ _)
  | v6 a0 a1 a2 a3 =>
    cases b with
    | v4 b => exact iff_of_false Bool.false_ne_true Sum.Lex.not_inr_lt_inl
    | v6 b0 b1 b2 b3 =>
      rw [VmIP.lt, decide_eq_true_iff]
      exact Sum.Lex.inr_lt_inr_iff.symm

lemma memBytes_inj {v w : UInt32} (h : VmIP.memBytes v = VmIP.memBytes w) : v = w := by
  have hv := v.toNat_lt
  have hw := w.toNat_lt
  simp only [VmIP.memBytes, Nat.shiftRight_eq_div_pow, List.cons.injEq, and_true] at h
  rw [← UInt32.toNat_inj]
  omega

lemma sortKey_inj {a b : VmIP} (h : a.sortKey = b.sortKey) : a = b := by
  cases a with
  | v4 a =>
    cases b with
    | v4 b =>
      have h' : a.toNat = b.toNat := Sum.inl.inj h
      rw [UInt32.toNat_inj.mp h']
    | v6 => cases h
  | v6 a0 a1 a2 a3 =>
    cases b with
    | v4 b => cases h
    | v6 b0 b1 b2 b3 =>
      have h' : VmIP.memWords a0 a1 a2 a3 = VmIP.memWords b0 b1 b2 b3 := Sum.inr.inj h
      obtain ⟨h', h3⟩ := List.append_inj h' rfl
      obtain ⟨h', h2⟩ := List.append_inj h' rfl
      obtain ⟨h0, h1⟩ := List.append_inj h' rfl
      rw [memBytes_inj h0, memBytes_inj h1, memBytes_inj h2, memBytes_inj h3]

lemma le_of_forall₂ {l₁ l₂ : List ℕ} (h : List.Forall₂ (· ≤ ·) l₁ l₂) : l₁ ≤ l₂ := by
  induction h with
  | nil => exact le_rfl
  | cons hab _ ih =>
    rcases hab.lt_or_eq with hlt | rfl
    · exact le_of_lt (List.cons_lt_cons_iff.mpr (Or.inl hlt))
    · rcases ih.lt_or_eq with hlt | rfl
      · exact le_of_lt (List.cons_lt_cons_iff.mpr (Or.inr ⟨rfl, hlt⟩))
      · exact le_rfl

lemma memBytes_and_le (w m : UInt32) :
    List.Forall₂ (· ≤ ·) (VmIP.memBytes (w &&& m)) (VmIP.memBytes w) := by
  have hbyte : ∀ k, ((w &&& m).toNat >>> k) % 2 ^ 8 ≤ (w.toNat >>> k) % 2 ^ 8 := by
    intro k
    rw [UInt32.toNat_and, Nat.shiftRight_and_distrib, Nat.and_mod_two_pow]
    exact Nat.and_le_left
  exact .cons (hbyte 0) (.cons (hbyte 8) (.cons (hbyte 16) (.cons (hbyte 24) .nil)))

lemma sortKey_network_le (a : VmIP) (n : Nat) : (a.network n).sortKey ≤ a.sortKey := by
  cases a with
  | v4 a =>
    refine Sum.Lex.inl_le_inl_iff.mpr ?_
    rw [UInt32.toNat_and]
    exact Nat.and_le_left
  | v6 a0 a1 a2 a3 =>
    refine Sum.Lex.inr_le_inr_iff.mpr (le_of_forall₂ ?_)
    exact List.rel_append (List.rel_append (List.rel_append (memBytes_and_le _ _)
      (memBytes_and_le _ _)) (memBytes_and_le _ _)) (memBytes_and_le _ _)

lemma and_and_left (a m : UInt32) : a &&& m &&& a = a &&& m := by
  rw [UInt32.and_comm a m, UInt32.and_assoc, UInt32.and_self]

lemma network_mask_self (a : VmIP) (n : Nat) : (a.network n).mask a = a.network n := by
  cases a with
  | v4 a =>
    change VmIP.v4 _ = VmIP.v4 _
    rw [and_and_left]
  | v6 a0 a1 a2 a3 =>
    change VmIP.v6 _ _ _ _ = VmIP.v6 _ _ _ _
    rw [and_and_left, and_and_left, and_and_left, and_and_left]

lemma network_network (a : VmIP) (n : Nat) : (a.network n).network n = a.network n := by
  cases a with
  | v4 a =>
    change VmIP.v4 _ = VmIP.v4 _
    rw [UInt32.and_assoc, UInt32.and_self]
  | v6 a0 a1 a2 a3 =>
    change VmIP.v6 _ _ _ _ = VmIP.v6 _ _ _ _
    rw [UInt32.and_assoc, UInt32.and_self, UInt32.and_assoc, UInt32.and_self,
      UInt32.and_assoc, UInt32.and_self, UInt32.and_assoc, UInt32.and_self]

lemma bits_network (a : VmIP) (n : Nat) : (a.network n).bits = a.bits := by
  cases a <;> rfl

lemma bits_le (a : VmIP) : a.bits ≤ 128 := by
  cases a with
  | v4 => exact Nat.le_of_ble_eq_true rfl
  | v6 => exact Nat.le_refl _

/-! ## Hosts and networks -/

/-- An entry with a prefix length that its address has; a network has its own address. -/
structure IP.Valid (e : IP) : Prop where
  maskLength_le : e.maskLength ≤ e.ip.bits
  network : e.isNet = true → e.ip.network e.maskLength = e.ip

lemma isNet_iff (e : IP) : e.isNet = true ↔ 0 < e.maskLength ∧ e.maskLength < e.ip.bits := by
  simp [IP.isNet, VmIP.isNetMask]

lemma valid_ofIp (ip : VmIP) {maskLength : Int} (hlow : -1 ≤ maskLength)
    (hhigh : maskLength ≤ ip.bits) : (IP.ofIp ip maskLength).Valid := by
  have hbits := bits_le ip
  have hlength : (IP.ofIp ip maskLength).maskLength = maskLength.toNat := by
    unfold IP.ofIp
    dsimp only
    split <;> omega
  have hip : (IP.ofIp ip maskLength).ip.bits = ip.bits := by
    unfold IP.ofIp
    split
    · exact bits_network _ _
    · rfl
  refine ⟨by omega, ?_⟩
  intro hnet
  rw [isNet_iff, hlength, hip] at hnet
  rw [hlength]
  unfold IP.ofIp
  rw [if_pos (by omega), network_network]

lemma valid_ofText (ip : VmIP) {n : Option Int} (hlow : ∀ m ∈ n, 0 ≤ m)
    (hhigh : ∀ m ∈ n, m ≤ ip.bits) : (IP.ofText ip n).Valid := by
  cases n with
  | some m =>
    have h0 := hlow m rfl
    have h1 := hhigh m rfl
    have hip : (IP.ofText ip (some m)).ip.bits = ip.bits := by
      unfold IP.ofText
      dsimp only
      split
      · exact bits_network _ _
      · rfl
    refine ⟨?_, ?_⟩
    · rw [hip]
      change (m % 2 ^ 16).toNat ≤ _
      omega
    · intro hnet
      rw [isNet_iff, hip] at hnet
      unfold IP.ofText at hnet ⊢
      dsimp only at hnet ⊢
      rw [if_pos hnet, network_network]
  | none =>
    cases hfind : ((List.range (ip.bits / 8)).tail.map (8 * ·)).find?
        (fun i => decide (ip = ip.network i)) with
    | none =>
      have hzero : (IP.ofText ip none).maskLength = 0 := by
        unfold IP.ofText
        rw [hfind]
        rfl
      refine ⟨by omega, ?_⟩
      intro hnet
      rw [isNet_iff, hzero] at hnet
      omega
    | some i =>
      have hi : (IP.ofText ip none).maskLength = i := by
        unfold IP.ofText
        rw [hfind]
        rfl
      have hnetwork : ip = ip.network i := by simpa using List.find?_some hfind
      refine ⟨?_, fun _ => ?_⟩
      · rw [hi]
        obtain ⟨j, hj, rfl⟩ := List.mem_map.mp (List.mem_of_find?_eq_some hfind)
        have hlt := List.mem_range.mp (List.mem_of_mem_tail hj)
        change 8 * j ≤ ip.bits
        omega
      · rw [hi]
        exact hnetwork.symm

lemma checkIP_host {e : IP} (hv : e.Valid) (hhost : e.isNet = false) (a : VmIP) :
    e.checkIP a = true ↔ e.ip = a := by
  have hle := hv.maskLength_le
  have hnot : ¬(0 < e.maskLength ∧ e.maskLength < e.ip.bits) := by
    rw [← isNet_iff, hhost]
    exact Bool.false_ne_true
  rw [IP.checkIP, if_pos (by omega), decide_eq_true_iff]
  exact eq_comm

lemma checkIP_net {e : IP} (hnet : e.isNet = true) (a : VmIP) :
    e.checkIP a = true ↔ e.ip = a.network e.maskLength := by
  rw [isNet_iff] at hnet
  rw [IP.checkIP, if_neg (by omega), decide_eq_true_iff]

lemma stops_of_checkIP {e : IP} (hnet : e.isNet = true) {a : VmIP} (h : e.checkIP a = true) :
    e.stops a = false := by
  rw [checkIP_net hnet] at h
  rw [isNet_iff] at hnet
  have hmask : e.ip.mask a = e.ip := by rw [h, network_mask_self]
  unfold IP.stops
  rw [hmask]
  cases hset : e.ip.isSet with
  | true => simp
  | false => simp [Nat.pos_iff_ne_zero.mp hnet.1]

lemma stops_congr {e x : IP} (he : e.isNet = true) (hx : x.isNet = true) (h : x.ip = e.ip)
    (a : VmIP) : x.stops a = e.stops a := by
  rw [isNet_iff] at he hx
  simp [IP.stops, h, Nat.pos_iff_ne_zero.mp he.1, Nat.pos_iff_ne_zero.mp hx.1]

section Walk
variable {a : VmIP}

lemma walkBack_append {pre post : List IP} {e : IP} (hpre : ∀ x ∈ pre, x.stops a = false)
    (hstop : e.stops a = false) (he : e.checkIP a = true) :
    walkBack a (pre ++ e :: post) = true := by
  induction pre with
  | nil => simp [walkBack, hstop, he]
  | cons x pre ih =>
    obtain ⟨hx, hrest⟩ := List.forall_mem_cons.mp hpre
    rw [List.cons_append, walkBack, hx, if_neg Bool.false_ne_true, ih hrest, ite_self]

lemma exists_of_walkBack {l : List IP} (h : walkBack a l = true) :
    ∃ pre e post, l = pre ++ e :: post ∧ e.checkIP a = true ∧ ∀ x ∈ pre, x.stops a = false := by
  induction l with
  | nil => cases h
  | cons x l ih =>
    rw [walkBack] at h
    split at h
    · cases h
    rename_i hstop
    split at h
    · rename_i hx
      exact ⟨[], x, l, rfl, hx, nofun⟩
    · obtain ⟨pre, e, post, rfl, he, hpre⟩ := ih h
      exact ⟨x :: pre, e, post, rfl, he,
        List.forall_mem_cons.mpr ⟨Bool.eq_false_of_not_eq_true hstop, hpre⟩⟩

end Walk

lemma getElem?_length_append {α : Type} (before after : List α) :
    (before ++ after)[before.length]? = after.head? := by
  rw [List.getElem?_append_right (Nat.le_refl _), Nat.sub_self, List.head?_eq_getElem?]

section Search
variable {l : List IP} {a : VmIP}

lemma head?_of_mem {after : List IP} (hsorted : SortedBy IP.sortKey after)
    (hafter : ∀ x ∈ after, a.sortKey ≤ x.sortKey) {e : IP} (he : e ∈ after) (hip : e.ip = a) :
    ∃ x, after.head? = some x ∧ x ∈ after ∧ x.ip = a := by
  cases after with
  | nil => cases he
  | cons x after =>
    refine ⟨x, rfl, List.mem_cons_self, sortKey_inj (le_antisymm ?_ (hafter x List.mem_cons_self))⟩
    rw [← hip]
    rcases List.mem_cons.mp he with rfl | he
    · exact le_rfl
    · exact (List.pairwise_cons.mp hsorted).1 e he

theorem searchIP_iff (hsorted : SortedBy IP.sortKey l)
    (hhost : ∀ e ∈ l, e.Valid ∧ e.isNet = false) :
    searchIP l a = true ↔ ∃ e ∈ l, e.checkIP a = true := by
  obtain ⟨before, after, rfl, hbound, hbefore, hafter⟩ :=
    hsorted.lowerBound a.sortKey (fun e => lt_iff_sortKey e.ip a)
  rw [searchIP, hbound, getElem?_length_append]
  constructor
  · intro h
    obtain ⟨x, hx, hcheck⟩ := (Option.any_eq_true _ _).mp h
    exact ⟨x, List.mem_append_right _ (List.mem_of_head? hx), hcheck⟩
  · rintro ⟨e, he, hcheck⟩
    have hip := (checkIP_host (hhost e he).1 (hhost e he).2 a).mp hcheck
    have hin : e ∈ after := by
      rcases List.mem_append.mp he with hb | hafter'
      · exact absurd (hbefore e hb) (by rw [IP.sortKey, hip]; exact lt_irrefl _)
      · exact hafter'
    obtain ⟨x, hx, hmem, hxip⟩ :=
      head?_of_mem (List.pairwise_append.mp hsorted).2.1 hafter hin hip
    have hxv := hhost x (List.mem_append_right _ hmem)
    rw [hx]
    exact (checkIP_host hxv.1 hxv.2 a).mpr hxip

def Reached (l : List IP) (a : VmIP) : Prop :=
  ∃ e ∈ l, e.checkIP a = true ∧ ∀ x ∈ l, e.ip.lt x.ip = true → x.ip.lt a = true → x.stops a = false

theorem searchNet_iff (hsorted : SortedBy IP.sortKey l)
    (hnet : ∀ e ∈ l, e.Valid ∧ e.isNet = true) : searchNet l a = true ↔ Reached l a := by
  obtain ⟨before, after, rfl, hbound, hbefore, hafter⟩ :=
    hsorted.lowerBound a.sortKey (fun e => lt_iff_sortKey e.ip a)
  obtain ⟨hsb, hsa, -⟩ := List.pairwise_append.mp hsorted
  rw [searchNet, hbound, getElem?_length_append, List.take_left]
  unfold Reached
  simp only [lt_iff_sortKey]
  constructor
  · intro h
    split at h
    · rename_i hany
      obtain ⟨e, he, hcheck⟩ := (Option.any_eq_true _ _).mp hany
      have hmem := List.mem_of_head? he
      refine ⟨e, List.mem_append_right _ hmem, hcheck, ?_⟩
      intro x _ hx hxa
      exact absurd (hx.trans hxa) (not_lt.mpr (hafter e hmem))
    · obtain ⟨pre, e, post, hlist, hcheck, hpre⟩ := exists_of_walkBack h
      have hb : before = post.reverse ++ e :: pre.reverse := by
        rw [← List.reverse_reverse before, hlist]
        simp
      refine ⟨e, by simp [hb], hcheck, ?_⟩
      intro x hx hex hxa
      have hxb : x ∈ before := by
        rcases List.mem_append.mp hx with hx | hx
        · exact hx
        · exact absurd hxa (not_lt.mpr (hafter x hx))
      rw [hb] at hxb hsb
      rcases List.mem_append.mp hxb with hx' | hx'
      · have hle := (List.pairwise_append.mp hsb).2.2 x hx' e List.mem_cons_self
        exact absurd hex (not_lt.mpr hle)
      · rcases List.mem_cons.mp hx' with rfl | hx'
        · exact absurd hex (lt_irrefl _)
        · exact hpre x (List.mem_reverse.mp hx')
  · rintro ⟨e, he, hcheck, hfree⟩
    have hen := (hnet e he).2
    have hle : e.sortKey ≤ a.sortKey := by
      rw [IP.sortKey, (checkIP_net hen a).mp hcheck]
      exact sortKey_network_le a _
    rcases List.mem_append.mp he with hb | hafter'
    · split
      · rfl
      obtain ⟨p, q, rfl⟩ := List.append_of_mem hb
      rw [List.reverse_append, List.reverse_cons, List.append_assoc, List.singleton_append]
      apply walkBack_append _ (stops_of_checkIP hen hcheck) hcheck
      intro x hx
      have hx' : x ∈ p ++ e :: q := by simp [List.mem_reverse.mp hx]
      have hxl := List.mem_append_left after hx'
      -- behind `e` are networks with the same address and networks that do not end the walk
      rcases lt_or_eq_of_le ((List.pairwise_cons.mp (List.pairwise_append.mp hsb).2.1).1 x
        (List.mem_reverse.mp hx)) with hlt | heq
      · exact hfree x hxl hlt (hbefore x hx')
      · rw [stops_congr hen (hnet x hxl).2 (sortKey_inj heq.symm)]
        exact stops_of_checkIP hen hcheck
    · have hip : e.ip = a := sortKey_inj (le_antisymm hle (hafter e hafter'))
      obtain ⟨x, hx, hmem, hxip⟩ := head?_of_mem hsa hafter hafter' hip
      have hxn := hnet x (List.mem_append_right _ hmem)
      have hxc : x.checkIP a = true := by
        rw [checkIP_net hxn.2, ← hxip]
        exact (hxn.1.network hxn.2).symm
      rw [hx, if_pos]
      exact hxc

lemma Reached.congr {l' : List IP} (h : ∀ e, e ∈ l ↔ e ∈ l') : Reached l a ↔ Reached l' a := by
  unfold Reached
  simp only [h]

end Search

structure ListIP.Ok (s : ListIP) : Prop where
  hosts : ∀ e ∈ s.listIP.items, e.Valid ∧ e.isNet = false
  nets : ∀ e ∈ s.listNet.items, e.Valid ∧ e.isNet = true
  honestIP : s.listIP.Honest IP.sortKey
  honestNet : s.listNet.Honest IP.sortKey

theorem ListIP.Ok.checkIP_iff {s : ListIP} (h : s.Ok) (sort : Sorter IP.sortKey) (a : VmIP) :
    (s.checkIP sort.sort a).2 = true ↔
      (∃ e ∈ s.listIP.items, e.checkIP a = true) ∨ Reached s.listNet.items a := by
  have hperm := LazySorted.perm_prepare sort s.listIP
  have hperm' := LazySorted.perm_prepare sort s.listNet
  have hhost := searchIP_iff (a := a) (h.honestIP.sorted_prepare sort)
    (fun e he => h.hosts e (hperm.mem_iff.mp he))
  have hnet := searchNet_iff (a := a) (h.honestNet.sorted_prepare sort)
    (fun e he => h.nets e (hperm'.mem_iff.mp he))
  rw [Reached.congr (fun e => hperm'.mem_iff)] at hnet
  simp only [hperm.mem_iff] at hhost
  unfold ListIP.checkIP
  dsimp only
  split
  · rename_i hfound
    exact iff_of_true rfl (Or.inl (hhost.mp hfound))
  · rename_i hfound
    rw [hnet]
    exact (or_iff_right (mt hhost.mpr hfound)).symm

lemma foldl_add_items (entries : List IP) (s : ListIP) :
    (entries.foldl ListIP.add s).listIP =
        { s.listIP with items := s.listIP.items ++ entries.filter (fun e => !e.isNet) } ∧
      (entries.foldl ListIP.add s).listNet =
        { s.listNet with items := s.listNet.items ++ entries.filter (fun e => e.isNet) } := by
  induction entries generalizing s with
  | nil => simp
  | cons e entries ih =>
    obtain ⟨hhost, hnet⟩ := ih (s.add e)
    rw [List.foldl_cons, hhost, hnet]
    cases hn : e.isNet with
    | true => simp [ListIP.add, hn, LazySorted.push]
    | false => simp [ListIP.add, hn, LazySorted.push]

lemma ok_foldl_add {entries : List IP} (hv : ∀ e ∈ entries, e.Valid) :
    (entries.foldl ListIP.add {}).Ok := by
  obtain ⟨hhost, hnet⟩ := foldl_add_items entries {}
  constructor
  · rw [hhost]
    intro e he
    obtain ⟨he, hn⟩ := List.mem_filter.mp he
    exact ⟨hv e he, by simpa using hn⟩
  · rw [hnet]
    intro e he
    obtain ⟨he, hn⟩ := List.mem_filter.mp he
    exact ⟨hv e he, hn⟩
  · rw [hhost]
    exact nofun
  · rw [hnet]
    exact nofun

/-- A host is at the address; or no network contains it; or a network that contains it has no
network between its address and this one that has no bit in common with this one. -/
def Findable (entries : List IP) (a : VmIP) : Prop :=
  (∃ e ∈ entries, e.isNet = false ∧ e.checkIP a = true) ∨
  (∀ e ∈ entries, e.isNet = true → e.checkIP a = false) ∨
  ∃ e ∈ entries, e.isNet = true ∧ e.checkIP a = true ∧ ∀ x ∈ entries, x.isNet = true →
    e.ip.lt x.ip = true → x.ip.lt a = true → x.stops a = false

/-- The lookup gives the answer of the linear search exactly when the entry is findable. -/
theorem listIP_linear_iff (sort : Sorter IP.sortKey) (entries : List IP)
    (hv : ∀ e ∈ entries, e.Valid) (a : VmIP) :
    (((entries.foldl ListIP.add {}).checkIP sort.sort a).2 = true ↔
      ∃ e ∈ entries, e.checkIP a = true) ↔ Findable entries a := by
  rw [(ok_foldl_add hv).checkIP_iff sort a, (foldl_add_items entries {}).1,
    (foldl_add_items entries {}).2]
  have hhosts : (∃ e ∈ [] ++ entries.filter (fun e => !e.isNet), e.checkIP a = true) ↔
      ∃ e ∈ entries, e.isNet = false ∧ e.checkIP a = true := by
    simp [and_assoc]
  have hreach : Reached ([] ++ entries.filter (fun e => e.isNet)) a ↔
      ∃ e ∈ entries, e.isNet = true ∧ e.checkIP a = true ∧ ∀ x ∈ entries, x.isNet = true →
        e.ip.lt x.ip = true → x.ip.lt a = true → x.stops a = false := by
    simp [Reached, and_assoc]
  change ((∃ e ∈ [] ++ entries.filter (fun e => !e.isNet), e.checkIP a = true) ∨
    Reached ([] ++ entries.filter (fun e => e.isNet)) a ↔ _) ↔ _
  rw [hhosts, hreach]
  unfold Findable
  constructor
  · intro h
    by_cases hnone : ∀ e ∈ entries, e.isNet = true → e.checkIP a = false
    · exact Or.inr (Or.inl hnone)
    · push Not at hnone
      obtain ⟨e, he, -, hcheck⟩ := hnone
      rcases h.mpr ⟨e, he, Bool.eq_true_of_not_eq_false hcheck⟩ with hhost | hnet
      · exact Or.inl hhost
      · exact Or.inr (Or.inr hnet)
  · intro h
    constructor
    · rintro (⟨e, he, -, hcheck⟩ | ⟨e, he, -, hcheck, -⟩)
      · exact ⟨e, he, hcheck⟩
      · exact ⟨e, he, hcheck⟩
    · rintro ⟨e, he, hcheck⟩
      rcases h with hhost | hnone | hnet
      · exact Or.inl hhost
      · refine Or.inl ⟨e, he, ?_, hcheck⟩
        by_contra hn
        rw [hnone e he (Bool.eq_true_of_not_eq_false hn)] at hcheck
        cases hcheck
      · exact Or.inr hnet

theorem listIP_linear_iff_example :
    let entries := [IP.ofIp (.v4 0x0a000000) 8, IP.ofIp (.v4 0x0a010000) 16, IP.ofIp (.v4 7) (-1)]
    ((entries.foldl ListIP.add {}).checkIP (Sorter.insertion IP.sortKey).sort
      (.v4 0x0a020304)).2 = true := by
  intro entries
  have hv : ∀ e ∈ entries, e.Valid := by
    intro e he
    simp only [entries, List.mem_cons, List.not_mem_nil, or_false] at he
    rcases he with rfl | rfl | rfl
    · exact valid_ofIp _ (by decide) (by decide)
    · exact valid_ofIp _ (by decide) (by decide)
    · exact valid_ofIp _ (by decide) (by decide)
  refine ((listIP_linear_iff (Sorter.insertion IP.sortKey) entries hv (.v4 0x0a020304)).mpr ?_).mpr
    ⟨IP.ofIp (.v4 0x0a000000) 8, List.mem_cons_self, by decide⟩
  refine Or.inr (Or.inr ⟨_, List.mem_cons_self, by decide, by decide, ?_⟩)
  decide

/-- A network at the address 0 is not reached behind one that has no bit of the address; between
IPv6 networks the order of the bytes in memory puts one with other bits there. -/
theorem listIP_misses_network :
    (∃ e ∈ [IP.ofIp (.v4 0) 1, IP.ofIp (.v4 0x20000000) 3], e.checkIP (.v4 0x40000001) = true) ∧
    ((([IP.ofIp (.v4 0) 1, IP.ofIp (.v4 0x20000000) 3].foldl ListIP.add {}).checkIP
      (Sorter.insertion IP.sortKey).sort (.v4 0x40000001)).2 = false) ∧
    (∃ e ∈ [IP.ofIp (.v6 0x20010000 0 0 0) 16, IP.ofIp (.v6 1 0 0 0) 32],
      e.checkIP (.v6 0x20010db8 0 0 1) = true) ∧
    (([IP.ofIp (.v6 0x20010000 0 0 0) 16, IP.ofIp (.v6 1 0 0 0) 32].foldl ListIP.add {}).checkIP
      (Sorter.insertion IP.sortKey).sort (.v6 0x20010db8 0 0 1)).2 = false := by
  refine ⟨?_, ?_, ?_, ?_⟩
  · decide +kernel
  · decide +kernel
  · decide +kernel
  · decide +kernel

/-! ## Prefixes -/

def numberKey (n : Bytes) : List ℕ := (withoutPercent n).map UInt8.toNat

def Plain (number : Bytes) : Prop := isRegexpText number = false ∧ hasWildcard number = false

lemma percent_not_mem {number : Bytes} (h : hasWildcard number = false) : 0x25 ∉ number := by
  intro hmem
  have := List.any_eq_false.mp h 0x25 hmem
  simp at this

lemma map_toNat_inj {m n : Bytes} (h : m.map UInt8.toNat = n.map UInt8.toNat) : m = n :=
  List.map_injective_iff.mpr (fun _ _ => UInt8.toNat_inj.mp) h

lemma withoutPercent_append (n : Bytes) :
    ∃ k, n = withoutPercent n ++ List.replicate k 0x25 := by
  refine ⟨(n.reverse.takeWhile (· = 0x25)).length, ?_⟩
  have htake : n.reverse.takeWhile (· = 0x25) =
      List.replicate (n.reverse.takeWhile (· = 0x25)).length 0x25 := by
    apply List.eq_replicate_of_mem
    intro c hc
    simpa using List.all_eq_true.mp List.all_takeWhile c hc
  calc n = n.reverse.reverse := n.reverse_reverse.symm
    _ = (n.reverse.takeWhile (· = 0x25) ++ n.reverse.dropWhile (· = 0x25)).reverse := by
      rw [List.takeWhile_append_dropWhile]
    _ = withoutPercent n ++ (n.reverse.takeWhile (· = 0x25)).reverse := List.reverse_append
    _ = withoutPercent n ++ List.replicate (n.reverse.takeWhile (· = 0x25)).length 0x25 := by
      rw [htake, List.reverse_replicate, List.length_replicate]

lemma withoutPercent_eq {m : Bytes} (h : 0x25 ∉ m) : withoutPercent m = m := by
  obtain ⟨k, hk⟩ := withoutPercent_append m
  cases k with
  | zero => simpa using hk.symm
  | succ k =>
    exfalso
    apply h
    rw [hk]
    simp [List.replicate_succ]

lemma prefix_withoutPercent {m n : Bytes} (hm : 0x25 ∉ m) (h : m <+: n) :
    m <+: withoutPercent n := by
  obtain ⟨k, hk⟩ := withoutPercent_append n
  rw [hk] at h
  rcases le_total m.length (withoutPercent n).length with hle | hle
  · exact List.prefix_of_prefix_length_le h (List.prefix_append _ _) hle
  · obtain ⟨t, rfl⟩ := List.prefix_of_prefix_length_le (List.prefix_append _ _) h hle
    have ht : t <+: List.replicate k 0x25 := (List.prefix_append_right_inj _).mp h
    cases t with
    | nil => simp
    | cons c t =>
      exfalso
      have hc : c ∈ List.replicate k (0x25 : UInt8) := ht.subset List.mem_cons_self
      rw [(List.mem_replicate.mp hc).2] at hm
      simp at hm

lemma le_of_prefix {l₁ l₂ : List ℕ} (h : l₁ <+: l₂) : l₁ ≤ l₂ := by
  obtain ⟨t, rfl⟩ := h
  induction l₁ with
  | nil => exact not_lt.mp (List.not_lt_nil _)
  | cons x l₁ ih =>
    rw [List.cons_append]
    rcases ih.lt_or_eq with hlt | heq
    · exact le_of_lt (List.cons_lt_cons_iff.mpr (Or.inr ⟨rfl, hlt⟩))
    · rw [← heq]

lemma ofNumber_eq {m : Bytes} (h : 0x25 ∉ m) (isPrefix : Bool) :
    PhoneNumber.ofNumber m isPrefix = ⟨m, isPrefix, if isPrefix then m.length else 0⟩ := by
  have hlast : m.getLast? ≠ some 0x25 := fun hl => h (List.mem_of_getLast? hl)
  simp [PhoneNumber.ofNumber, withoutPercent_eq h, hlast]

def Numbers (isPrefix : Bool) (l : List PhoneNumber) : Prop :=
  ∀ p ∈ l, 0x25 ∉ p.number ∧ p = PhoneNumber.ofNumber p.number isPrefix

lemma checkNumber_fixed {p : PhoneNumber} (h : 0x25 ∉ p.number)
    (hp : p = PhoneNumber.ofNumber p.number false) (n : Bytes) :
    p.checkNumber n = true ↔ n = p.number := by
  rw [hp, ofNumber_eq h]
  simp [PhoneNumber.checkNumber]

lemma checkNumber_prefix {p : PhoneNumber} (h : 0x25 ∉ p.number)
    (hp : p = PhoneNumber.ofNumber p.number true) (n : Bytes) :
    p.checkNumber n = true ↔ p.number <+: n := by
  rw [hp, ofNumber_eq h]
  simp [PhoneNumber.checkNumber]

section Numbers
variable {l : List PhoneNumber} {n : Bytes}

lemma numberBound_split (hsorted : SortedBy PhoneNumber.sortKey l) (n : Bytes) :
    ∃ before after, l = before ++ after ∧ numberBound l n = before.length ∧
      (∀ p ∈ before, p.sortKey < numberKey n) ∧ ∀ p ∈ after, numberKey n ≤ p.sortKey :=
  hsorted.lowerBound (numberKey n) (fun _ => decide_eq_true_iff)

lemma head?_of_sortKey {after : List PhoneNumber} (hsorted : SortedBy PhoneNumber.sortKey after)
    {k : List ℕ} (hafter : ∀ p ∈ after, k ≤ p.sortKey) {p : PhoneNumber} (hp : p ∈ after)
    (hkey : p.sortKey = k) : ∃ x, after.head? = some x ∧ x ∈ after ∧ x.number = p.number := by
  cases after with
  | nil => cases hp
  | cons x after =>
    refine ⟨x, rfl, List.mem_cons_self, map_toNat_inj (le_antisymm ?_ ?_)⟩
    · rcases List.mem_cons.mp hp with rfl | hp
      · exact le_rfl
      · exact (List.pairwise_cons.mp hsorted).1 p hp
    · change p.sortKey ≤ x.sortKey
      rw [hkey]
      exact hafter x List.mem_cons_self

theorem searchNumber_iff (hsorted : SortedBy PhoneNumber.sortKey l) (hl : Numbers false l) :
    searchNumber l n = true ↔ ∃ p ∈ l, p.number = n := by
  obtain ⟨before, after, rfl, hbound, hbefore, hafter⟩ := numberBound_split hsorted n
  rw [searchNumber, hbound, getElem?_length_append]
  constructor
  · intro h
    obtain ⟨x, hx, hcheck⟩ := (Option.any_eq_true _ _).mp h
    have hmem := List.mem_append_right before (List.mem_of_head? hx)
    exact ⟨x, hmem, ((checkNumber_fixed (hl x hmem).1 (hl x hmem).2 n).mp hcheck).symm⟩
  · rintro ⟨p, hp, rfl⟩
    have hkey : p.sortKey = numberKey p.number := by
      rw [numberKey, withoutPercent_eq (hl p hp).1]
      rfl
    have hin : p ∈ after := by
      rcases List.mem_append.mp hp with hb | hb
      · exact absurd (hbefore p hb) (hkey ▸ lt_irrefl _)
      · exact hb
    obtain ⟨x, hx, hmem, hxn⟩ :=
      head?_of_sortKey (List.pairwise_append.mp hsorted).2.1 hafter hin hkey
    have hxl := hl x (List.mem_append_right _ hmem)
    rw [hx]
    exact (checkNumber_fixed hxl.1 hxl.2 _).mpr hxn.symm

def Adjacent (l : List PhoneNumber) (n : Bytes) : Prop :=
  ∃ p ∈ l, p.number <+: n ∧ ∀ x ∈ l, p.sortKey < x.sortKey → numberKey n ≤ x.sortKey

theorem searchPrefix_iff (hsorted : SortedBy PhoneNumber.sortKey l) (hl : Numbers true l) :
    searchPrefix l n = true ↔ Adjacent l n := by
  obtain ⟨before, after, rfl, hbound, hbefore, hafter⟩ := numberBound_split hsorted n
  obtain ⟨hsb, hsa, -⟩ := List.pairwise_append.mp hsorted
  rw [searchPrefix, hbound, getElem?_length_append]
  have hcheck : ∀ p ∈ before ++ after, p.checkNumber n = true ↔ p.number <+: n :=
    fun p hp => checkNumber_prefix (hl p hp).1 (hl p hp).2 n
  constructor
  · intro h
    split at h
    · rename_i hany
      obtain ⟨p, hp, hpn⟩ := (Option.any_eq_true _ _).mp hany
      have hmem := List.mem_of_head? hp
      refine ⟨p, List.mem_append_right _ hmem, ?_, ?_⟩
      · exact (hcheck p (List.mem_append_right _ hmem)).mp hpn
      · intro x _ hx
        exact (hafter p hmem).trans hx.le
    · split at h
      · rename_i hne
        obtain ⟨p, hp, hpn⟩ := (Option.any_eq_true _ _).mp h
        have hlt : before.length - 1 < before.length := by omega
        rw [List.getElem?_append_left hlt, ← List.getLast?_eq_getElem?] at hp
        have hmem := List.mem_of_getLast? hp
        refine ⟨p, List.mem_append_left _ hmem, ?_, ?_⟩
        · exact (hcheck p (List.mem_append_left _ hmem)).mp hpn
        · intro x hx hpx
          rcases List.mem_append.mp hx with hx | hx
          · -- the last of the numbers below the key is the greatest of them
            exfalso
            obtain ⟨init, rfl⟩ := List.getLast?_eq_some_iff.mp hp
            rcases List.mem_append.mp hx with hx | hx
            · have hle := (List.pairwise_append.mp hsb).2.2 x hx p (List.mem_singleton_self p)
              exact absurd hpx (not_lt.mpr hle)
            · rw [List.mem_singleton.mp hx] at hpx
              exact lt_irrefl _ hpx
          · exact hafter x hx
      · cases h
  · rintro ⟨p, hp, hpn, hadj⟩
    rcases List.mem_append.mp hp with hb | ha
    · split
      · rfl
      rcases List.eq_nil_or_concat' before with rfl | ⟨init, last, rfl⟩
      · cases hb
      rw [if_pos (by simp)]
      have hlast : last ∈ init ++ [last] := by simp
      have hnum : last.number = p.number := by
        apply map_toNat_inj
        apply le_antisymm
        · by_contra hgt
          have := hadj last (List.mem_append_left _ hlast) (not_le.mp hgt)
          exact absurd (hbefore last hlast) (not_lt.mpr this)
        · rcases List.mem_append.mp hb with hi | hi
          · exact (List.pairwise_append.mp hsb).2.2 p hi last (List.mem_singleton_self _)
          · rw [List.mem_singleton.mp hi]
      have hget : ((init ++ [last]) ++ after)[(init ++ [last]).length - 1]? = some last := by
        rw [List.getElem?_append_left (by simp)]
        simp
      rw [hget]
      exact (hcheck last (List.mem_append_left _ hlast)).mpr (hnum ▸ hpn)
    · have hle : p.sortKey ≤ numberKey n :=
        le_of_prefix ((prefix_withoutPercent (hl p hp).1 hpn).map _)
      obtain ⟨x, hx, hmem, hxn⟩ :=
        head?_of_sortKey hsa hafter ha (le_antisymm hle (hafter p ha))
      rw [hx, if_pos]
      exact (hcheck x (List.mem_append_right _ hmem)).mpr (hxn ▸ hpn)

lemma Adjacent.congr {l' : List PhoneNumber} (h : ∀ p, p ∈ l ↔ p ∈ l') :
    Adjacent l n ↔ Adjacent l' n := by
  unfold Adjacent
  simp only [h]

end Numbers

structure ListPhoneNumber.Ok (s : ListPhoneNumber) : Prop where
  numbers : Numbers false s.listPhoneNumber.items
  prefixes : Numbers true s.listPrefixes.items
  honestNumbers : s.listPhoneNumber.Honest PhoneNumber.sortKey
  honestPrefixes : s.listPrefixes.Honest PhoneNumber.sortKey

theorem ListPhoneNumber.Ok.checkNumber_iff {s : ListPhoneNumber} (h : s.Ok) (r : Regexps)
    (sort : Sorter PhoneNumber.sortKey) (n : Bytes) :
    (s.checkNumber r sort.sort n).2 = true ↔
      (∃ p ∈ s.listPhoneNumber.items, p.number = n) ∨ Adjacent s.listPrefixes.items n ∨
        ∃ pattern ∈ s.listRegExp, r.isMatch pattern n = true := by
  have hperm := LazySorted.perm_prepare sort s.listPhoneNumber
  have hperm' := LazySorted.perm_prepare sort s.listPrefixes
  have hnumber := searchNumber_iff (n := n) (h.honestNumbers.sorted_prepare sort)
    (fun p hp => h.numbers p (hperm.mem_iff.mp hp))
  have hadjacent := searchPrefix_iff (n := n) (h.honestPrefixes.sorted_prepare sort)
    (fun p hp => h.prefixes p (hperm'.mem_iff.mp hp))
  rw [Adjacent.congr (fun p => hperm'.mem_iff)] at hadjacent
  simp only [hperm.mem_iff] at hnumber
  unfold ListPhoneNumber.checkNumber
  dsimp only
  split
  · rename_i hfound
    exact iff_of_true rfl (Or.inl (hnumber.mp hfound))
  rename_i hfound
  rw [or_iff_right (mt hnumber.mpr hfound)]
  split
  · rename_i hfound'
    exact iff_of_true rfl (Or.inl (hadjacent.mp hfound'))
  · rename_i hfound'
    rw [or_iff_right (mt hadjacent.mpr hfound'), List.any_eq_true]

def numbersOf (isPrefix : Bool) (entries : List (Bytes × Bool)) : List PhoneNumber :=
  (entries.filter (fun e => e.2 == isPrefix)).map (fun e => PhoneNumber.ofNumber e.1 isPrefix)

lemma foldl_add_numbers (r : Regexps) (entries : List (Bytes × Bool))
    (hplain : ∀ e ∈ entries, Plain e.1) (s : ListPhoneNumber) :
    entries.foldl (fun s e => s.add r e.1 e.2) s =
      { listPhoneNumber :=
          { s.listPhoneNumber with items := s.listPhoneNumber.items ++ numbersOf false entries }
        listPrefixes :=
          { s.listPrefixes with items := s.listPrefixes.items ++ numbersOf true entries }
        listRegExp := s.listRegExp } := by
  induction entries generalizing s with
  | nil => simp [numbersOf]
  | cons e entries ih =>
    obtain ⟨⟨hregexp, hwild⟩, hrest⟩ := List.forall_mem_cons.mp hplain
    rw [List.foldl_cons, ih hrest]
    obtain ⟨m, isPrefix⟩ := e
    cases isPrefix with
    | true => simp [ListPhoneNumber.add, hregexp, hwild, LazySorted.push, numbersOf]
    | false => simp [ListPhoneNumber.add, hregexp, hwild, LazySorted.push, numbersOf]

lemma mem_numbersOf {isPrefix : Bool} {entries : List (Bytes × Bool)}
    (hplain : ∀ e ∈ entries, Plain e.1) {p : PhoneNumber} :
    p ∈ numbersOf isPrefix entries ↔
      ∃ m, (m, isPrefix) ∈ entries ∧ 0x25 ∉ m ∧ p = PhoneNumber.ofNumber m isPrefix ∧
        p.number = m := by
  simp only [numbersOf, List.mem_map, List.mem_filter, beq_iff_eq]
  constructor
  · rintro ⟨⟨m, b⟩, ⟨he, rfl⟩, rfl⟩
    have hm := percent_not_mem (hplain _ he).2
    exact ⟨m, he, hm, rfl, by rw [ofNumber_eq hm]⟩
  · rintro ⟨m, he, -, rfl, -⟩
    exact ⟨(m, isPrefix), ⟨he, rfl⟩, rfl⟩

lemma numbers_numbersOf {isPrefix : Bool} {entries : List (Bytes × Bool)}
    (hplain : ∀ e ∈ entries, Plain e.1) : Numbers isPrefix (numbersOf isPrefix entries) := by
  intro p hp
  obtain ⟨m, -, hm, hp, rfl⟩ := (mem_numbersOf hplain).mp hp
  exact ⟨hm, hp⟩

def Listed (entries : List (Bytes × Bool)) (n : Bytes) : Prop :=
  (n, false) ∈ entries ∨ ∃ m, (m, true) ∈ entries ∧ m <+: n

def bytesOf (m : Bytes) : List ℕ := m.map UInt8.toNat

/-- The number is a fixed one; or no prefix is one of the number; or a prefix of the number has no
other prefix of the list between it and the number. -/
def FindableNumber (entries : List (Bytes × Bool)) (n : Bytes) : Prop :=
  (n, false) ∈ entries ∨
  (∀ m, (m, true) ∈ entries → ¬m <+: n) ∨
  ∃ m, (m, true) ∈ entries ∧ m <+: n ∧ ∀ x, (x, true) ∈ entries →
    bytesOf m < bytesOf x → bytesOf (withoutPercent n) ≤ bytesOf x

/-- The lookup of a number gives the answer of the linear search exactly when it is findable. -/
theorem listPhoneNumber_linear_iff (r : Regexps) (sort : Sorter PhoneNumber.sortKey)
    (entries : List (Bytes × Bool)) (hplain : ∀ e ∈ entries, Plain e.1) (n : Bytes) :
    (((entries.foldl (fun s e => s.add r e.1 e.2) ({} : ListPhoneNumber)).checkNumber r sort.sort
      n).2 = true ↔ Listed entries n) ↔ FindableNumber entries n := by
  have hok : (entries.foldl (fun s e => s.add r e.1 e.2) ({} : ListPhoneNumber)).Ok := by
    rw [foldl_add_numbers r entries hplain]
    exact ⟨numbers_numbersOf hplain, numbers_numbersOf hplain, nofun, nofun⟩
  have hfixed : (∃ p ∈ [] ++ numbersOf false entries, p.number = n) ↔ (n, false) ∈ entries := by
    simp only [List.nil_append, mem_numbersOf hplain]
    constructor
    · rintro ⟨p, ⟨m, he, -, -, rfl⟩, rfl⟩
      exact he
    · intro he
      have hm := percent_not_mem (hplain _ he).2
      exact ⟨PhoneNumber.ofNumber n false, ⟨n, he, hm, rfl, by rw [ofNumber_eq hm]⟩,
        by rw [ofNumber_eq hm]⟩
  have hadj : Adjacent ([] ++ numbersOf true entries) n ↔
      ∃ m, (m, true) ∈ entries ∧ m <+: n ∧ ∀ x, (x, true) ∈ entries →
        bytesOf m < bytesOf x → bytesOf (withoutPercent n) ≤ bytesOf x := by
    have hnumber : ∀ {m}, (m, true) ∈ entries → PhoneNumber.ofNumber m true ∈
        numbersOf true entries ∧ (PhoneNumber.ofNumber m true).number = m := by
      intro m he
      have hm := percent_not_mem (hplain _ he).2
      have heq : (PhoneNumber.ofNumber m true).number = m := by rw [ofNumber_eq hm]
      exact ⟨(mem_numbersOf hplain).mpr ⟨m, he, hm, rfl, heq⟩, heq⟩
    rw [List.nil_append]
    constructor
    · rintro ⟨p, hp, hpn, hfree⟩
      obtain ⟨m, he, -, -, rfl⟩ := (mem_numbersOf hplain).mp hp
      refine ⟨p.number, he, hpn, ?_⟩
      intro x hx hlt
      obtain ⟨hmem, hxn⟩ := hnumber hx
      have := hfree _ hmem
      rw [PhoneNumber.sortKey, PhoneNumber.sortKey, hxn] at this
      exact this hlt
    · rintro ⟨m, he, hpn, hfree⟩
      obtain ⟨hmem, hmn⟩ := hnumber he
      refine ⟨_, hmem, hmn.symm ▸ hpn, ?_⟩
      intro x hx hlt
      obtain ⟨y, hy, -, -, rfl⟩ := (mem_numbersOf hplain).mp hx
      rw [PhoneNumber.sortKey, hmn] at hlt
      exact hfree _ hy hlt
  rw [hok.checkNumber_iff r sort n, foldl_add_numbers r entries hplain]
  change ((∃ p ∈ [] ++ numbersOf false entries, p.number = n) ∨
    Adjacent ([] ++ numbersOf true entries) n ∨ (∃ pattern ∈ [], _) ↔ _) ↔ _
  rw [hfixed, hadj]
  unfold FindableNumber Listed
  constructor
  · intro h
    by_cases hnone : ∀ m, (m, true) ∈ entries → ¬m <+: n
    · exact Or.inr (Or.inl hnone)
    · push Not at hnone
      rcases h.mpr (Or.inr hnone) with hf | ha | ⟨_, hp, _⟩
      · exact Or.inl hf
      · exact Or.inr (Or.inr ha)
      · cases hp
  · intro h
    constructor
    · rintro (hf | ⟨m, he, hpn, -⟩ | ⟨_, hp, _⟩)
      · exact Or.inl hf
      · exact Or.inr ⟨m, he, hpn⟩
      · cases hp
    · rintro (hf | ⟨m, he, hpn⟩)
      · exact Or.inl hf
      · rcases h with hf | hnone | ha
        · exact Or.inl hf
        · exact absurd hpn (hnone m he)
        · exact Or.inr (Or.inl ha)

def noRegexps : Regexps := ⟨fun _ => false, fun _ _ => false⟩

theorem listPhoneNumber_linear_iff_example :
    (([([0x31, 0x32], true), ([0x31, 0x32, 0x34], true)].foldl
      (fun s e => s.add noRegexps e.1 e.2) ({} : ListPhoneNumber)).checkNumber noRegexps
      (Sorter.insertion PhoneNumber.sortKey).sort [0x31, 0x32, 0x34, 0x35]).2 = true := by
  refine ((listPhoneNumber_linear_iff noRegexps (Sorter.insertion PhoneNumber.sortKey)
    [([0x31, 0x32], true), ([0x31, 0x32, 0x34], true)] ?_ [0x31, 0x32, 0x34, 0x35]).mpr ?_).mpr ?_
  · intro e he
    simp only [List.mem_cons, List.not_mem_nil, or_false] at he
    rcases he with rfl | rfl
    · exact ⟨by decide, by decide⟩
    · exact ⟨by decide, by decide⟩
  · refine Or.inr (Or.inr ⟨[0x31, 0x32, 0x34], by simp, by decide, ?_⟩)
    intro x hx hlt
    simp only [List.mem_cons, Prod.mk.injEq, List.not_mem_nil, or_false, and_true] at hx
    rcases hx with rfl | rfl
    · revert hlt
      decide
    · exact absurd hlt (lt_irrefl _)
  · exact Or.inr ⟨[0x31, 0x32], by simp, by decide⟩

/-- The prefix `12` of `124` is missed behind `123`. -/
theorem listPhoneNumber_misses_prefix :
    Listed [([0x31, 0x32], true), ([0x31, 0x32, 0x33], true)] [0x31, 0x32, 0x34] ∧
    (([([0x31, 0x32], true), ([0x31, 0x32, 0x33], true)].foldl
      (fun s e => s.add noRegexps e.1 e.2) ({} : ListPhoneNumber)).checkNumber noRegexps
      (Sorter.insertion PhoneNumber.sortKey).sort [0x31, 0x32, 0x34]).2 = false := by
  refine ⟨Or.inr ⟨[0x31, 0x32], by simp, by decide⟩, ?_⟩
  decide +kernel

end VoipMonitor.AddressLists
