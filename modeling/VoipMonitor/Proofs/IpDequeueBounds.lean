import VoipMonitor.Library.SortedMap
import VoipMonitor.Model.IpDefrag

/-!
# The copies of `dequeue` stay in the buffer

In a queue that is complete every fragment but the last one is longer than its header, since the
next offset is greater. What is left to the sender is the last fragment, which may be shorter than
its header, and a first fragment of version 6 that is longer than the largest buffer.
-/

namespace VoipMonitor.IpDefrag
open VoipMonitor.Library VoipMonitor.IpFrag

/-! ## The queues of a run -/

structure FragOk (f : SFrag) : Prop where
  offset : f.offset < 65536
  len : f.len < 131072
  iphdrLen : f.iphdrLen < 65536
  link : f.headerIpOffset < 65536

lemma getExtHeaderSize_le (p : Bytes) (pos headerId : Nat) : getExtHeaderSize p pos headerId ≤ 255 := by
  have hbyte := byteAt_lt p (pos + 1)
  unfold getExtHeaderSize
  split
  · omega
  · split
    · omega
    · omega

lemma extHeadersFrom_cases {p : Bytes} {room pos nxt : Nat} {e : ExtHeaders}
    (h : extHeadersFrom p room pos nxt = some e) :
    (isExtHeader nxt = false ∧ nxt ≠ 255 ∧ e = ⟨[], pos, nxt⟩) ∨
      ∃ room' e', isExtHeader nxt = true ∧ room = room' + 1 ∧ 0 < getExtHeaderSize p pos nxt ∧
        extHeadersFrom p room' (pos + getExtHeaderSize p pos nxt) (byteAt p pos) = some e' ∧
        e = { e' with headers := (nxt, pos) :: e'.headers } := by
  by_cases hext : isExtHeader nxt = true
  · right
    by_cases hsize : getExtHeaderSize p pos nxt = 0
    · cases room with
      | zero =>
        rw [extHeadersFrom, if_pos hext, if_pos hsize] at h
        cases h
      | succ room =>
        rw [extHeadersFrom, if_pos hext, if_pos hsize] at h
        cases h
    · cases room with
      | zero =>
        rw [extHeadersFrom, if_pos hext, if_neg hsize] at h
        cases h
      | succ room =>
        rw [extHeadersFrom, if_pos hext, if_neg hsize] at h
        obtain ⟨e', he', rfl⟩ := Option.map_eq_some_iff.mp h
        exact ⟨room, e', hext, rfl, Nat.pos_of_ne_zero hsize, he', rfl⟩
  · left
    by_cases hend : nxt = 255
    · cases room with
      | zero =>
        rw [extHeadersFrom, if_neg hext, if_pos hend] at h
        cases h
      | succ room =>
        rw [extHeadersFrom, if_neg hext, if_pos hend] at h
        cases h
    · have he : e = ⟨[], pos, nxt⟩ := by
        cases room with
        | zero =>
          rw [extHeadersFrom, if_neg hext, if_neg hend] at h
          exact (Option.some.inj h).symm
        | succ room =>
          rw [extHeadersFrom, if_neg hext, if_neg hend] at h
          exact (Option.some.inj h).symm
      exact ⟨eq_false_of_ne_true hext, hend, he⟩

lemma extHeadersFrom_stop {p : Bytes} {room pos nxt : Nat} {e : ExtHeaders}
    (h : extHeadersFrom p room pos nxt = some e) : pos ≤ e.stop ∧ e.stop ≤ pos + 255 * room := by
  induction room generalizing pos nxt e with
  | zero =>
    rcases extHeadersFrom_cases h with ⟨-, -, rfl⟩ | ⟨room', e', -, hroom, -⟩
    · exact ⟨le_rfl, le_rfl⟩
    · omega
  | succ room ih =>
    rcases extHeadersFrom_cases h with ⟨-, -, rfl⟩ | ⟨room', e', -, hroom, -, he', rfl⟩
    · exact ⟨le_rfl, Nat.le_add_right _ _⟩
    · obtain rfl : room = room' := by omega
      have hsize := getExtHeaderSize_le p pos nxt
      have hrest := ih he'
      dsimp only
      omega

lemma iphdrLen_lt (p : Bytes) (o : Nat) : iphdrLen p o < 65536 := by
  unfold iphdrLen
  split
  · decide
  · cases hext : getExtHeaders p o with
    | none => exact (by decide : 65535 < 65536)
    | some e =>
      have hstop := (extHeadersFrom_stop hext).2
      change e.stop - o < 65536
      unfold ip6ExtHeadersMax sizeofIp6hdr2 at hstop
      omega

lemma fragData_lt (p : Bytes) (o : Nat) : fragData p o < 65536 := by
  unfold fragData
  split
  · exact be16_lt p _
  · cases fragmentHeader p o with
    | none => exact (by decide : 0 < 65536)
    | some q => exact be16_lt p _

lemma Call.fragOk (c : Call) : FragOk c.frag where
  offset := by
    have hdata := fragData_lt c.pkt.packet c.headerIpOffset
    change fragOffset c.pkt.packet c.headerIpOffset < 65536
    unfold fragOffset getFragOffset
    split
    · omega
    · omega
  len := by
    have h4 := be16_lt c.pkt.packet (c.headerIpOffset + 2)
    have h6 := be16_lt c.pkt.packet (c.headerIpOffset + 4)
    change totLen c.pkt.packet c.headerIpOffset < 131072
    unfold totLen getTotLen sizeofIp6hdr2
    split
    · omega
    · omega
  iphdrLen := iphdrLen_lt _ _
  link := c.offset_lt

def QueueOk (q : SFrags) : Prop :=
  ∀ k f, q.map[k]? = some f → f.offset = k ∧ ∃ c : Call, c.Admitted ∧ f = c.frag

lemma queueOk_empty : QueueOk {} := by
  intro k f hf
  have hnone : ({} : SFrags).map[k]? = none := Std.TreeMap.getElem?_emptyc
  exact nomatch hnone.symm.trans hf

lemma markLast_map (q : SFrags) (c : Call) : (markLast q c).map = q.map := by
  unfold markLast
  split
  · rfl
  · rfl

lemma QueueOk.markLast {q : SFrags} (h : QueueOk q) (c : Call) : QueueOk (markLast q c) := by
  intro k f hf
  rw [markLast_map] at hf
  exact h k f hf

lemma QueueOk.insertFrag {q t : SFrags} {c : Call} (h : QueueOk q) (hc : c.Admitted)
    (ht : insertFrag q c = some t) : QueueOk t := by
  unfold IpDefrag.insertFrag at ht
  dsimp only at ht
  split at ht
  · cases ht
  · obtain rfl := Option.some.inj ht
    intro k f hf
    rw [Std.TreeMap.getElem?_insert] at hf
    split at hf
    · rename_i hk
      obtain rfl := Option.some.inj hf
      exact ⟨compare_eq_iff_eq.mp hk, c, hc, rfl⟩
    · exact h.markLast c k f hf

lemma QueueOk.add {q : SFrags} {c : Call} (path : PacketPath) (h : QueueOk q) (hc : c.Admitted) :
    QueueOk (add path q c).2 := by
  unfold IpDefrag.add
  cases hinsert : IpDefrag.insertFrag q c with
  | none => exact h.markLast c
  | some t =>
    dsimp only
    split
    · exact h.insertFrag hc hinsert
    · exact h.insertFrag hc hinsert

def QueuesOk (s : Queues) : Prop := ∀ key q, s key = some q → QueueOk q

lemma QueuesOk.getD {s : Queues} (h : QueuesOk s) (key : Bytes × Nat) : QueueOk ((s key).getD {}) := by
  cases hq : s key with
  | none => exact queueOk_empty
  | some q => exact h key q hq

lemma QueuesOk.pcapProcess {s : Queues} (path : PacketPath) (h : QueuesOk s) (c : Call) :
    QueuesOk (pcapProcess path s c) := by
  unfold IpDefrag.pcapProcess
  split
  · rename_i hc
    intro key q hq
    unfold IpDefrag.defrag at hq
    dsimp only at hq
    by_cases hkey : key = c.key
    · rw [hkey, Function.update_self] at hq
      split at hq
      · cases hq
      · obtain rfl := Option.some.inj hq
        exact (h.getD c.key).add path hc
    · rw [Function.update_of_ne hkey] at hq
      exact h key q hq
  · exact h

lemma queuesOk_pcapRun (path : PacketPath) (calls : List Call) : QueuesOk (pcapRun path calls) := by
  have hrun : ∀ s, QueuesOk s → QueuesOk (calls.foldl (IpDefrag.pcapProcess path) s) := by
    induction calls with
    | nil => exact fun s h => h
    | cons c calls ih => exact fun s h => ih _ (h.pcapProcess path c)
  exact hrun _ nofun

/-! ## A complete queue -/

lemma QueueOk.mem {q : SFrags} (h : QueueOk q) {f : SFrag} (hf : f ∈ queued q) :
    ∃ c : Call, c.Admitted ∧ f = c.frag := by
  obtain ⟨⟨k, f'⟩, hmem, rfl⟩ := List.mem_map.mp hf
  exact (h k f' (Std.TreeMap.mem_toList_iff_getElem?_eq_some.mp hmem)).2

lemma QueueOk.sorted {q : SFrags} (h : QueueOk q) :
    (queued q).Pairwise (fun f g => f.offset < g.offset) := by
  unfold queued
  rw [List.pairwise_map]
  refine (Std.TreeMap.ordered_keys_toList (t := q.map)).imp_of_mem ?_
  intro a b ha hb hlt
  have hoffset : ∀ e ∈ q.map.toList, e.2.offset = e.1 := fun e he =>
    (h e.1 e.2 (Std.TreeMap.mem_toList_iff_getElem?_eq_some.mp he)).1
  rw [hoffset a ha, hoffset b hb]
  exact compare_lt_iff_lt.mp hlt

def payloadSum (l : List SFrag) : Nat := (l.map (fun f => f.len - f.iphdrLen)).sum

lemma contiguous_step {o : Nat} {f g : SFrag} {rest : List SFrag} (hf : FragOk f) (hg : FragOk g)
    (hlt : f.offset < g.offset) (h : contiguous o (f :: g :: rest) = true) :
    f.offset = o ∧ f.iphdrLen < f.len ∧ contiguous (o + (f.len - f.iphdrLen)) (g :: rest) = true ∧
      g.offset = o + (f.len - f.iphdrLen) := by
  have hlen := hf.len
  have hhdr := hf.iphdrLen
  have hoffset := hg.offset
  rw [contiguous] at h
  split at h
  · cases h
  · rename_i ho
    have ho' : f.offset = o := not_not.mp ho
    have hnext : g.offset = add32 o (sub32 f.len f.iphdrLen) := by
      rw [contiguous] at h
      split at h
      · cases h
      · rename_i hg'
        exact not_not.mp hg'
    have hpos : f.iphdrLen < f.len ∧ add32 o (sub32 f.len f.iphdrLen) = o + (f.len - f.iphdrLen) := by
      unfold add32 sub32 at hnext ⊢
      omega
    refine ⟨ho', hpos.1, ?_, hnext.trans hpos.2⟩
    rw [← hpos.2]
    exact h

lemma contiguous_payload {o : Nat} {l : List SFrag} (hok : ∀ f ∈ l, FragOk f)
    (hsorted : l.Pairwise (fun f g => f.offset < g.offset)) (h : contiguous o l = true)
    (hlast : ∀ f ∈ l.getLast?, f.iphdrLen ≤ f.len) :
    (∀ f ∈ l, f.iphdrLen ≤ f.len) ∧ (l ≠ [] → o + payloadSum l < 65536 + 131072) := by
  induction l generalizing o with
  | nil => exact ⟨nofun, fun hne => absurd rfl hne⟩
  | cons f l ih =>
    cases l with
    | nil =>
      have hf := hok f List.mem_cons_self
      have hle := hlast f rfl
      have hoffset := hf.offset
      have hlen := hf.len
      have ho : f.offset = o := by
        rw [contiguous] at h
        split at h
        · cases h
        · rename_i ho
          exact not_not.mp ho
      refine ⟨fun g hg => ?_, fun _ => ?_⟩
      · rwa [List.mem_singleton.mp hg]
      · simp only [payloadSum, List.map_cons, List.map_nil, List.sum_cons, List.sum_nil]
        omega
    | cons g rest =>
      rw [List.pairwise_cons] at hsorted
      obtain ⟨-, hlt, hnext, -⟩ := contiguous_step (hok f List.mem_cons_self)
        (hok g (List.mem_cons_of_mem _ List.mem_cons_self)) (hsorted.1 g List.mem_cons_self) h
      obtain ⟨hall, hsum⟩ := ih (fun x hx => hok x (List.mem_cons_of_mem _ hx)) hsorted.2 hnext
        (fun x hx => hlast x (by rwa [List.getLast?_cons_cons]))
      refine ⟨fun x hx => ?_, fun _ => ?_⟩
      · rcases List.mem_cons.mp hx with rfl | hx
        · exact hlt.le
        · exact hall x hx
      · have hrest := hsum (List.cons_ne_nil _ _)
        have hsplit : payloadSum (f :: g :: rest) = (f.len - f.iphdrLen) + payloadSum (g :: rest) := rfl
        omega

/-! ## The length of the buffer -/

lemma foldl_totallen {l : List SFrag} {t i : Nat} (hi : 0 < i)
    (hle : ∀ f ∈ l, f.iphdrLen ≤ f.len) (hsum : t + payloadSum l < 2 ^ 32) :
    (l.zipIdx i).foldl (fun t (frag, i) =>
      let t := add32 t frag.len
      if i = 0 then t else sub32 t frag.iphdrLen) t = t + payloadSum l := by
  induction l generalizing t i with
  | nil => rfl
  | cons f l ih =>
    have hf := hle f List.mem_cons_self
    have hsplit : payloadSum (f :: l) = (f.len - f.iphdrLen) + payloadSum l := rfl
    rw [List.zipIdx_cons, List.foldl_cons]
    dsimp only
    rw [if_neg (by omega), sub32_add32 hf (by omega),
      ih (by omega) (fun x hx => hle x (List.mem_cons_of_mem _ hx)) (by omega), hsplit, Nat.add_assoc]

lemma totallen_le (f : SFrag) (rest : List SFrag) (hf : FragOk f) :
    totallen (f :: rest) ≤ 0xFFFF + f.headerIpOffset := by
  have hlink := hf.link
  have hcap : add32 0xFFFF f.headerIpOffset = 0xFFFF + f.headerIpOffset := add32_eq (by omega)
  unfold totallen
  dsimp only [List.head?_cons, Option.map_some, Option.getD_some]
  rw [hcap]
  split
  · exact le_rfl
  · rename_i hle
    exact not_lt.mp hle

lemma le_totallen {f : SFrag} {rest : List SFrag} (hf : FragOk f)
    (hle : ∀ g ∈ rest, g.iphdrLen ≤ g.len) (hsum : payloadSum rest < 65536 + 131072)
    (hlen : f.len ≤ 0xFFFF) : f.headerIpOffset + f.len ≤ totallen (f :: rest) := by
  have hlink := hf.link
  have hcap : add32 0xFFFF f.headerIpOffset = 0xFFFF + f.headerIpOffset := add32_eq (by omega)
  have hfirst : add32 f.headerIpOffset f.len = f.headerIpOffset + f.len := add32_eq (by omega)
  unfold totallen
  dsimp only [List.head?_cons, Option.map_some, Option.getD_some]
  rw [List.zipIdx_cons, List.foldl_cons]
  rw [if_pos rfl, hfirst, foldl_totallen (by omega) hle (by omega), hcap]
  split
  · omega
  · omega

/-! ## The copies -/

lemma copyLinkHeader_len {f : SFrag} (hf : FragOk f) {st : CopyState} (hst : st.len = 0) :
    (copyLinkHeader f st).len = f.headerIpOffset := by
  have hlink := hf.link
  unfold copyLinkHeader
  split
  · change add32 st.len f.headerIpOffset = f.headerIpOffset
    rw [hst, add32_eq (by omega), Nat.zero_add]
  · omega

lemma totallen_lt (l : List SFrag) (hok : ∀ f ∈ l, FragOk f) : totallen l < 2 ^ 32 := by
  cases l with
  | nil => exact (by decide : totallen [] < 2 ^ 32)
  | cons f rest =>
    have hf := hok f List.mem_cons_self
    have hle := totallen_le f rest hf
    have hlink := hf.link
    omega

lemma copiesFrom_le {total count : Nat} (htotal : total < 2 ^ 32) {l : List SFrag} {st : CopyState}
    {i : Nat} (hi : 0 < i) : ∀ c ∈ copiesFrom total count st i l, c.1 + c.2 ≤ total := by
  induction l generalizing st i with
  | nil => exact nofun
  | cons f l ih =>
    intro c hc
    rw [copiesFrom, List.mem_append] at hc
    rcases hc with hc | hc
    · rw [roundCopies, if_neg (by omega)] at hc
      split at hc
      · rename_i hlt
        rw [List.mem_singleton.mp hc]
        have hsub : sub32 total st.len = total - st.len := sub32_eq htotal hlt.le
        rw [hsub]
        omega
      · cases hc
    · exact ih (by omega) c hc

/-- Every copy of `dequeue` lies in the buffer, and no payload length wraps. -/
def InBounds (l : List SFrag) : Prop :=
  (∀ c ∈ dequeueCopies l, c.1 + c.2 ≤ totallen l) ∧ ∀ f ∈ l, f.iphdrLen ≤ f.len

lemma mem_dequeueCopies {f : SFrag} {rest : List SFrag} (hf : FragOk f) :
    (f.headerIpOffset, f.len) ∈ dequeueCopies (f :: rest) := by
  rw [dequeueCopies, copiesFrom, roundCopies, if_pos rfl]
  rw [copyLinkHeader_len hf rfl]
  exact List.mem_append_left _ (List.mem_append_right _ (List.mem_singleton_self _))

lemma dequeueCopies_le {f : SFrag} {rest : List SFrag} (hok : ∀ g ∈ f :: rest, FragOk g)
    (hfits : f.headerIpOffset + f.len ≤ totallen (f :: rest)) :
    ∀ c ∈ dequeueCopies (f :: rest), c.1 + c.2 ≤ totallen (f :: rest) := by
  intro c hc
  rw [dequeueCopies, copiesFrom, List.mem_append] at hc
  rcases hc with hc | hc
  · rw [roundCopies, if_pos rfl, copyLinkHeader_len (hok f List.mem_cons_self) rfl, List.mem_append] at hc
    rcases hc with hc | hc
    · split at hc
      · rw [List.mem_singleton.mp hc]
        change 0 + f.headerIpOffset ≤ _
        omega
      · cases hc
    · rw [List.mem_singleton.mp hc]
      exact hfits
  · exact copiesFrom_le (totallen_lt _ hok) (by omega) c hc

lemma inBounds_iff {l : List SFrag} (hok : ∀ f ∈ l, FragOk f)
    (hsorted : l.Pairwise (fun f g => f.offset < g.offset)) (h : contiguous 0 l = true) :
    InBounds l ↔ (∀ f ∈ l.head?, f.len ≤ 0xFFFF) ∧ ∀ f ∈ l.getLast?, f.iphdrLen ≤ f.len := by
  constructor
  · rintro ⟨hcopies, hle⟩
    refine ⟨fun f hf => ?_, fun f hf => hle f (List.mem_of_getLast? hf)⟩
    cases l with
    | nil => cases hf
    | cons g rest =>
      obtain rfl := Option.some.inj hf
      have hg := hok g List.mem_cons_self
      have hfirst := hcopies _ (mem_dequeueCopies hg)
      have hcap := totallen_le g rest hg
      dsimp only at hfirst
      omega
  · rintro ⟨hfirst, hlast⟩
    obtain ⟨hle, hsum⟩ := contiguous_payload hok hsorted h hlast
    refine ⟨?_, hle⟩
    cases l with
    | nil => exact nofun
    | cons f rest =>
      have hrest := hsum (List.cons_ne_nil _ _)
      have hsplit : payloadSum (f :: rest) = (f.len - f.iphdrLen) + payloadSum rest := rfl
      refine dequeueCopies_le hok (le_totallen (hok f List.mem_cons_self)
        (fun g hg => hle g (List.mem_cons_of_mem _ hg)) (by omega) (hfirst f rfl))

lemma complete_contiguous {q : SFrags} (h : complete q = true) : contiguous 0 (queued q) = true := by
  unfold complete at h
  exact (Bool.and_eq_true _ _ ▸ h).2

/-- When the check for missing fragments succeeds, all copies of `dequeue` lie in the buffer and no
payload length wraps exactly when the first fragment is not longer than the largest datagram and
the last one is not shorter than its header. -/
theorem dequeue_inBounds_iff (calls : List Call) (c : Call) (hc : c.Admitted) (q : SFrags)
    (hq : insertFrag ((pcapRun .headerPacket calls c.key).getD {}) c = some q)
    (hcomplete : complete q = true) :
    InBounds (queued q) ↔ (∀ f ∈ (queued q).head?, f.len ≤ 0xFFFF) ∧
      ∀ f ∈ (queued q).getLast?, f.iphdrLen ≤ f.len := by
  have hok := ((queuesOk_pcapRun .headerPacket calls).getD c.key).insertFrag hc hq
  refine inBounds_iff (fun f hf => ?_) hok.sorted (complete_contiguous hcomplete)
  obtain ⟨c', -, rfl⟩ := hok.mem hf
  exact c'.fragOk

/-! ## Two fragments -/

structure TwoFragments (c₁ c₂ : Call) : Prop where
  admitted₁ : c₁.Admitted
  admitted₂ : c₂.Admitted
  more : moreFrag c₁.pkt.packet c₁.headerIpOffset = true
  last : moreFrag c₂.pkt.packet c₂.headerIpOffset = false
  offset₁ : c₁.frag.offset = 0
  offset₂ : c₂.frag.offset ≠ 0
  key : c₂.key = c₁.key

lemma queued_pair {f g : SFrag} (hf : f.offset = 0) (hg : g.offset ≠ 0) (hasLast : Bool) :
    queued ⟨(({} : Std.TreeMap Nat SFrag).insert f.offset f).insert g.offset g, hasLast⟩ = [f, g] := by
  have hlist : ((({} : Std.TreeMap Nat SFrag).insert f.offset f).insert g.offset g).toList =
      [(f.offset, f), (g.offset, g)] := by
    apply toList_eq_of_getElem?
    · rw [List.pairwise_pair]
      exact Nat.compare_eq_lt.mpr (by dsimp only; omega)
    · intro k h
      rw [Std.TreeMap.getElem?_insert, Std.TreeMap.getElem?_insert, Std.TreeMap.getElem?_emptyc]
      simp only [List.mem_cons, List.not_mem_nil, or_false, Prod.mk.injEq, Nat.compare_eq_eq]
      constructor
      · intro heq
        split at heq
        · rename_i hk
          exact Or.inr ⟨hk.symm, (Option.some.inj heq).symm⟩
        · split at heq
          · rename_i hk
            exact Or.inl ⟨hk.symm, (Option.some.inj heq).symm⟩
          · cases heq
      · rintro (⟨rfl, rfl⟩ | ⟨rfl, rfl⟩)
        · rw [if_neg (by omega), if_pos rfl]
        · rw [if_pos rfl]
  rw [queued, hlist]
  rfl

lemma TwoFragments.waits {c₁ c₂ : Call} (h : TwoFragments c₁ c₂) (path : PacketPath) :
    (pcapRun path [c₁] c₂.key).getD {} =
      ⟨({} : Std.TreeMap Nat SFrag).insert c₁.frag.offset c₁.frag, false⟩ := by
  have hmark : markLast {} c₁ = {} := by
    unfold markLast
    rw [h.more]
    rfl
  have hinsert : insertFrag {} c₁ =
      some ⟨({} : Std.TreeMap Nat SFrag).insert c₁.frag.offset c₁.frag, false⟩ := by
    unfold insertFrag
    rw [hmark]
    rfl
  have hadd : (add path {} c₁).1.res = 0 ∧ (add path {} c₁).2 =
      ⟨({} : Std.TreeMap Nat SFrag).insert c₁.frag.offset c₁.frag, false⟩ := by
    unfold add
    rw [hinsert]
    exact ⟨rfl, rfl⟩
  change (pcapProcess path (fun _ => none) c₁ c₂.key).getD {} = _
  rw [pcapProcess, if_pos h.admitted₁, h.key]
  unfold defrag
  dsimp only [Option.getD_none]
  rw [Function.update_self, hadd.1, if_neg (by decide), hadd.2]
  rfl

lemma complete_pair {q : SFrags} {f g : SFrag} (hlast : q.hasLast = true) (hq : queued q = [f, g])
    (hf : f.offset = 0) (hg : g.offset = add32 0 (sub32 f.len f.iphdrLen)) : complete q = true := by
  unfold complete
  rw [show q.map.toList.map Prod.snd = [f, g] from hq, hlast]
  simp [contiguous, hf, hg]

lemma TwoFragments.insert {c₁ c₂ : Call} (h : TwoFragments c₁ c₂) (path : PacketPath)
    (hnext : c₂.frag.offset = add32 0 (sub32 c₁.frag.len c₁.frag.iphdrLen)) :
    ∃ q, insertFrag ((pcapRun path [c₁] c₂.key).getD {}) c₂ = some q ∧ complete q = true ∧
      queued q = [c₁.frag, c₂.frag] := by
  have hqueued := queued_pair h.offset₁ h.offset₂ true
  refine ⟨⟨(({} : Std.TreeMap Nat SFrag).insert c₁.frag.offset c₁.frag).insert c₂.frag.offset c₂.frag,
    true⟩, ?_, complete_pair rfl hqueued h.offset₁ hnext, hqueued⟩
  have hnew : (({} : Std.TreeMap Nat SFrag).insert c₁.frag.offset c₁.frag).contains
      c₂.frag.offset = false := by
    rw [Std.TreeMap.contains_insert, h.offset₁]
    simpa using Ne.symm h.offset₂
  have hmark : ∀ m, markLast ⟨m, false⟩ c₂ = ⟨m, true⟩ := by
    intro m
    unfold markLast
    rw [h.last, if_pos (by simpa using h.offset₂)]
  rw [h.waits path, insertFrag, hmark]
  rw [hnew, if_neg Bool.false_ne_true]

/-- A fragment of version 4 behind a link header of 14 bytes, with its length, its fragment field
and 8 bytes of payload. -/
def exampleCall (len fragHigh fragLow : UInt8) : Call where
  pkt := {
    caplen := 42
    len := 42
    packet := List.replicate 14 0 ++ [0x45, 0, 0, len, 0, 7, fragHigh, fragLow, 64, 17, 0, 0,
      10, 0, 0, 1, 10, 0, 0, 2, 1, 2, 3, 4, 5, 6, 7, 8] }
  headerIpOffset := 14
  offset_lt := by decide
  captured := le_refl 42

lemma twoFragments_example {len : UInt8} (hlen : len = 28 ∨ len = 10) :
    TwoFragments (exampleCall 28 0x20 0) (exampleCall len 0 1) := by
  rcases hlen with rfl | rfl
  · exact ⟨by decide, by decide, by decide, by decide, by decide, by decide, by decide⟩
  · exact ⟨by decide, by decide, by decide, by decide, by decide, by decide, by decide⟩

theorem dequeue_inBounds_example : ∃ q, insertFrag
    ((pcapRun .headerPacket [exampleCall 28 0x20 0] (exampleCall 28 0 1).key).getD {})
      (exampleCall 28 0 1) = some q ∧ complete q = true ∧ InBounds (queued q) := by
  have htwo := twoFragments_example (Or.inl rfl : (28 : UInt8) = 28 ∨ (28 : UInt8) = 10)
  obtain ⟨q, hq, hcomplete, hqueued⟩ := htwo.insert .headerPacket (by decide)
  refine ⟨q, hq, hcomplete, ?_⟩
  refine (dequeue_inBounds_iff [exampleCall 28 0x20 0] _ htwo.admitted₂ q hq hcomplete).mpr ?_
  rw [hqueued]
  refine ⟨fun f hf => ?_, fun f hf => ?_⟩
  · obtain rfl := Option.some.inj hf
    decide
  · obtain rfl := Option.some.inj hf
    decide

/-- The last fragment has a length of 10, less than its header: the buffer gets 18 bytes behind the
link header, and the first fragment with its 28 bytes is copied into it. -/
theorem dequeue_out_of_bounds : ¬∀ (calls : List Call) (c : Call), c.Admitted → ∀ q,
    insertFrag ((pcapRun .headerPacket calls c.key).getD {}) c = some q → complete q = true →
    InBounds (queued q) := by
  intro hall
  have htwo := twoFragments_example (Or.inr rfl : (10 : UInt8) = 28 ∨ (10 : UInt8) = 10)
  obtain ⟨q, hq, hcomplete, hqueued⟩ := htwo.insert .headerPacket (by decide)
  obtain ⟨hcopies, -⟩ := hall _ _ htwo.admitted₂ q hq hcomplete
  rw [hqueued] at hcopies
  have hfirst := hcopies _ (mem_dequeueCopies (exampleCall 28 0x20 0).fragOk)
  revert hfirst
  decide

end VoipMonitor.IpDefrag
