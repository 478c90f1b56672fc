import VoipMonitor.Proofs.IpDequeueBounds
import VoipMonitor.Proofs.IpReassembly

/-!
# The IP header of a reassembled packet

`dequeue` sets the total length and clears the fragment data through `iphdr`, which it sets only
when it copies a link header.
-/

namespace VoipMonitor.IpDefrag
open VoipMonitor.Library VoipMonitor.IpFrag

/-! ## A complete queue has two fragments -/

def LastOk (q : SFrags) : Prop := q.hasLast = true → ∃ k ≠ 0, q.map.contains k = true

lemma markLast_hasLast {q : SFrags} {c : Call} (h : (markLast q c).hasLast = true) :
    q.hasLast = true ∨ c.frag.offset ≠ 0 := by
  unfold markLast at h
  split at h
  · rename_i hlast
    rw [Bool.and_eq_true] at hlast
    exact Or.inr (of_decide_eq_true hlast.2)
  · exact Or.inl h

lemma LastOk.insertFrag {q t : SFrags} {c : Call} (h : LastOk q) (ht : insertFrag q c = some t) :
    LastOk t := by
  unfold IpDefrag.insertFrag at ht
  dsimp only at ht
  split at ht
  · cases ht
  · obtain rfl := Option.some.inj ht
    intro hlast
    rcases markLast_hasLast hlast with hq | hoffset
    · obtain ⟨k, hk, hmem⟩ := h hq
      refine ⟨k, hk, ?_⟩
      rw [Std.TreeMap.contains_insert, markLast_map, hmem, Bool.or_true]
    · refine ⟨c.frag.offset, hoffset, ?_⟩
      rw [Std.TreeMap.contains_insert, compare_eq_iff_eq.mpr rfl]
      rfl

lemma LastOk.add {q : SFrags} (path : PacketPath) (h : LastOk q) (c : Call) :
    LastOk (add path q c).2 := by
  unfold IpDefrag.add
  cases hinsert : IpDefrag.insertFrag q c with
  | none =>
    intro hlast
    unfold IpDefrag.insertFrag at hinsert
    dsimp only at hinsert
    split at hinsert
    · rename_i hmem
      rcases markLast_hasLast hlast with hq | hoffset
      · obtain ⟨k, hk, hk'⟩ := h hq
        exact ⟨k, hk, by rwa [markLast_map]⟩
      · exact ⟨c.frag.offset, hoffset, hmem⟩
    · cases hinsert
  | some t =>
    dsimp only
    split
    · exact h.insertFrag hinsert
    · exact h.insertFrag hinsert

lemma lastOk_pcapRun (path : PacketPath) (calls : List Call) (key : Bytes × Nat) :
    LastOk ((pcapRun path calls key).getD {}) := by
  have hrun : ∀ s : Queues, (∀ key, LastOk ((s key).getD {})) →
      ∀ key, LastOk ((calls.foldl (pcapProcess path) s key).getD {}) := by
    induction calls with
    | nil => exact fun s h => h
    | cons c calls ih =>
      refine fun s h => ih _ (fun key => ?_)
      unfold pcapProcess
      split
      · unfold defrag
        dsimp only
        by_cases hkey : key = c.key
        · rw [hkey, Function.update_self]
          split
          · exact fun hlast => absurd hlast Bool.false_ne_true
          · exact (h c.key).add path c
        · rw [Function.update_of_ne hkey]
          exact h key
      · exact h key
  exact hrun (fun _ => none) (fun _ hlast => absurd hlast Bool.false_ne_true) key

lemma complete_first {q : SFrags} (hok : QueueOk q) (hlast : LastOk q) (h : complete q = true) :
    ∃ c rest, Call.Admitted c ∧ queued q = c.frag :: rest ∧ c.frag.offset = 0 ∧
      c.frag.iphdrLen < c.frag.len := by
  have hmark : q.hasLast = true := by
    unfold complete at h
    rw [Bool.and_eq_true, Bool.and_eq_true] at h
    exact h.1.1
  have hcontiguous := complete_contiguous h
  obtain ⟨k, hk, hmem⟩ := hlast hmark
  obtain ⟨f, hf⟩ : ∃ f, q.map[k]? = some f := by
    rw [← Std.TreeMap.isSome_getElem?_eq_contains, Option.isSome_iff_exists] at hmem
    exact hmem
  have hqueued : f ∈ queued q :=
    List.mem_map.mpr ⟨(k, f), Std.TreeMap.mem_toList_iff_getElem?_eq_some.mpr hf, rfl⟩
  have hoffset : f.offset = k := (hok k f hf).1
  have hsorted := hok.sorted
  have hall : ∀ x ∈ queued q, ∃ c : Call, c.Admitted ∧ x = c.frag := fun x hx => hok.mem hx
  revert hqueued hsorted hcontiguous hall
  generalize queued q = l
  intro hcontiguous hqueued hsorted hall
  match l with
  | [] => cases hqueued
  | [x] =>
    obtain rfl := List.mem_singleton.mp hqueued
    rw [contiguous] at hcontiguous
    split at hcontiguous
    · cases hcontiguous
    · omega
  | x :: y :: rest =>
    obtain ⟨c, hc, rfl⟩ := hall x List.mem_cons_self
    obtain ⟨c', -, rfl⟩ := hall y (List.mem_cons_of_mem _ List.mem_cons_self)
    obtain ⟨hzero, hlen, -⟩ := contiguous_step c.fragOk c'.fragOk
      ((List.pairwise_cons.mp hsorted).1 _ List.mem_cons_self) hcontiguous
    exact ⟨c, _, hc, rfl, hzero, hlen⟩

/-! ## The copy loop -/

/-- What the loop adds to the packet for the fragments behind the first one, from the length `len`
on: the payload of each, cut at the end of the buffer. -/
def appended (total : Nat) : Nat → List SFrag → Nat
  | _, [] => 0
  | len, frag :: rest =>
    let n := if len < total then min (sub32 frag.len frag.iphdrLen) (sub32 total len) else 0
    n + appended total (len + n) rest

lemma appended_le {total : Nat} (htotal : total < 2 ^ 32) (len : Nat) (l : List SFrag) :
    len + appended total len l ≤ max len total := by
  induction l generalizing len with
  | nil => exact le_max_left _ _
  | cons f l ih =>
    rw [appended]
    split
    · rename_i hlt
      have hsub : sub32 total len = total - len := sub32_eq htotal hlt.le
      have hrest := ih (len + min (sub32 f.len f.iphdrLen) (sub32 total len))
      rw [hsub] at hrest ⊢
      omega
    · have hrest := ih (len + 0)
      omega

structure Begun (first : Bytes) (iphdr : Option Nat) (len additional : Nat) (st : CopyState) : Prop where
  packet : ∃ r, st.out.packet = first ++ r
  behind : first.length ≤ st.len
  iphdr_eq : st.iphdr = iphdr
  len_eq : st.len = len
  additional_eq : st.additionallen = additional

lemma copyFrag_next (path : PacketPath) (total count : Nat) (st : CopyState) (f : SFrag) {i : Nat}
    (hi : 0 < i) :
    ∃ src, copyFrag path total count st f i = copyLastHeader total count i f
      (if st.len < total then
        { st.write src with
          len := add32 st.len (min (sub32 f.len f.iphdrLen) (sub32 total st.len))
          additionallen := add32 st.additionallen (min (sub32 f.len f.iphdrLen) (sub32 total st.len)) }
      else st) := by
  have hne : ¬i = 0 := by omega
  cases path with
  | headerPacket =>
    simp only [copyFrag, copyHeaderPacket, if_neg hne]
    exact ⟨_, rfl⟩
  | headerPacketPQout =>
    simp only [copyFrag, copyPQout, if_neg hne]
    exact ⟨_, rfl⟩

lemma Begun.next {first : Bytes} {iphdr : Option Nat} {len additional total : Nat} {st : CopyState}
    (h : Begun first iphdr len additional st) (path : PacketPath) (count : Nat) (f : SFrag) {i n : Nat}
    (hi : 0 < i) (htotal : total < 2 ^ 31) (hlen : additional ≤ len) (hlt : len < 2 ^ 31)
    (hn : n = if len < total then min (sub32 f.len f.iphdrLen) (sub32 total len) else 0) :
    Begun first iphdr (len + n) (additional + n) (copyFrag path total count st f i) := by
  obtain ⟨src, hsrc⟩ := copyFrag_next path total count st f hi
  obtain ⟨hl, hp, hip, ha⟩ := Fragmentation.copyLastHeader_frame total count i f (if st.len < total then
    { st.write src with
      len := add32 st.len (min (sub32 f.len f.iphdrLen) (sub32 total st.len))
      additionallen := add32 st.additionallen (min (sub32 f.len f.iphdrLen) (sub32 total st.len)) }
    else st)
  rw [← hsrc] at hl hp hip ha
  obtain ⟨r, hr⟩ := h.packet
  have hbehind := h.behind
  by_cases hroom : len < total
  · rw [if_pos hroom] at hn
    rw [if_pos (h.len_eq ▸ hroom), h.len_eq, ← hn] at hl hp hip ha
    have hsub : sub32 total len = total - len := sub32_eq (by omega) hroom.le
    have hmove : add32 len n = len + n := add32_eq (by omega)
    have hmore : add32 additional n = additional + n := add32_eq (by omega)
    rw [h.len_eq] at hbehind
    refine ⟨⟨overwrite r (len - first.length) src, ?_⟩, ?_, ?_, ?_, ?_⟩
    · rw [hp]
      change overwrite st.out.packet st.len src = _
      rw [hr, h.len_eq, ← overwrite_append_right, Nat.add_sub_cancel' hbehind]
    · rw [hl]
      dsimp only
      omega
    · rw [hip]
      exact h.iphdr_eq
    · rw [hl]
      exact hmove
    · rw [ha]
      rw [h.additional_eq, hmore]
  · rw [if_neg hroom] at hn
    rw [if_neg (h.len_eq ▸ hroom)] at hl hp hip ha
    subst hn
    exact ⟨⟨r, hp.trans hr⟩, hl ▸ hbehind, hip.trans h.iphdr_eq, hl.trans h.len_eq, ha.trans h.additional_eq⟩

lemma Begun.rounds {first : Bytes} {iphdr : Option Nat} {len additional : Nat} {st : CopyState}
    (h : Begun first iphdr len additional st) (path : PacketPath) (total count : Nat) (l : List SFrag)
    {i : Nat} (hi : 0 < i) (htotal : total < 2 ^ 31) (hlen : additional ≤ len) (hlt : len < 2 ^ 31) :
    Begun first iphdr (len + appended total len l) (additional + appended total len l)
      ((l.zipIdx i).foldl (fun st (f, i) => copyFrag path total count st f i) st) := by
  induction l generalizing st len additional i with
  | nil => exact h
  | cons f l ih =>
    rw [List.zipIdx_cons, List.foldl_cons, appended]
    generalize hn : (if len < total then min (sub32 f.len f.iphdrLen) (sub32 total len) else 0) = n
    have hle : len + n ≤ max len total := by
      have hone := appended_le (by omega : total < 2 ^ 32) len [f]
      simp only [appended, Nat.add_zero] at hone
      rwa [hn] at hone
    have hrest := ih (h.next path count f hi htotal hlen hlt hn.symm) (Nat.succ_pos i) (by omega)
      (by omega)
    rw [Nat.add_assoc, Nat.add_assoc] at hrest
    exact hrest

lemma begun_first {c : Call} (hc : c.Admitted) (hpos : 0 < c.frag.len) (path : PacketPath)
    (total count : Nat) :
    Begun (slice c.pkt.packet 0 (c.headerIpOffset + c.frag.len))
      (if c.headerIpOffset ≠ 0 then some c.headerIpOffset else none)
      (c.headerIpOffset + c.frag.len) 0 (copyFrag path total count (copyStart total) c.frag 0) := by
  have hcap : c.headerIpOffset + c.frag.len ≤ c.pkt.caplen := by
    have hle := hc.2
    change ¬c.frag.len + c.headerIpOffset > c.pkt.caplen at hle
    omega
  have hbytes := hcap.trans c.captured
  have hok := c.fragOk
  have hlink := c.offset_lt
  have hlen := hok.len
  have hmin : min c.frag.len (if c.pkt.caplen > c.headerIpOffset
      then c.pkt.caplen - c.headerIpOffset else 0) = c.frag.len := by
    rw [if_pos (by omega)]
    omega
  -- with nothing cut off the two paths do the same
  have hcopy : copyFrag path total count (copyStart total) c.frag 0 = copyLastHeader total count 0 c.frag
      { (copyLinkHeader c.frag (copyStart total)).write (slice c.pkt.packet c.headerIpOffset c.frag.len) with
        len := add32 (copyLinkHeader c.frag (copyStart total)).len c.frag.len
        pid := c.pkt.pid } := by
    cases path with
    | headerPacket => rfl
    | headerPacketPQout =>
      change copyLastHeader total count 0 c.frag { (copyLinkHeader c.frag (copyStart total)).write
        (slice c.pkt.packet c.headerIpOffset (min c.frag.len (if c.pkt.caplen > c.headerIpOffset
          then c.pkt.caplen - c.headerIpOffset else 0))) with
        len := add32 (copyLinkHeader c.frag (copyStart total)).len c.frag.len
        pid := c.pkt.pid } = _
      rw [hmin]
  obtain ⟨hl, hp, hip, ha⟩ := Fragmentation.copyLastHeader_frame total count 0 c.frag
    { (copyLinkHeader c.frag (copyStart total)).write (slice c.pkt.packet c.headerIpOffset c.frag.len) with
      len := add32 (copyLinkHeader c.frag (copyStart total)).len c.frag.len
      pid := c.pkt.pid }
  rw [← hcopy] at hl hp hip ha
  have hstart : (copyLinkHeader c.frag (copyStart total)).len = c.headerIpOffset :=
    copyLinkHeader_len hok rfl
  have hposition : add32 c.headerIpOffset c.frag.len = c.headerIpOffset + c.frag.len :=
    add32_eq (by omega)
  have hfirst : (slice c.pkt.packet 0 (c.headerIpOffset + c.frag.len)).length =
      c.headerIpOffset + c.frag.len := length_slice (by omega)
  have hlinked : ∃ r, (copyLinkHeader c.frag (copyStart total)).out.packet =
      slice c.pkt.packet 0 c.headerIpOffset ++ r := by
    unfold copyLinkHeader
    split
    · exact ⟨_, rfl⟩
    · rename_i hzero
      have hzero' : c.headerIpOffset = 0 := not_not.mp hzero
      rw [hzero']
      exact ⟨_, rfl⟩
  obtain ⟨r, hr⟩ := hlinked
  have hlinklen : (slice c.pkt.packet 0 c.headerIpOffset).length = c.headerIpOffset :=
    length_slice (by omega)
  refine ⟨⟨r.drop (slice c.pkt.packet c.headerIpOffset c.frag.len).length, ?_⟩, ?_, ?_, ?_, ?_⟩
  · rw [hp]
    change overwrite (copyLinkHeader c.frag (copyStart total)).out.packet
      (copyLinkHeader c.frag (copyStart total)).len _ = _
    have hover := overwrite_append_right (slice c.pkt.packet 0 c.headerIpOffset) r
      (slice c.pkt.packet c.headerIpOffset c.frag.len) 0
    rw [Nat.add_zero, hlinklen] at hover
    rw [hr, hstart, hover, ← slice_append_slice, Nat.zero_add, List.append_assoc, overwrite,
      List.take_zero, List.nil_append, Nat.zero_add]
  · rw [hl]
    rw [hfirst, hstart, hposition]
  · rw [hip]
    change (copyLinkHeader c.frag (copyStart total)).iphdr = _
    unfold copyLinkHeader
    split
    · rename_i hne
      have hne' : c.headerIpOffset ≠ 0 := hne
      rw [if_pos hne']
      change some (add32 0 c.headerIpOffset) = _
      rw [add32_eq (by omega), Nat.zero_add]
    · rename_i hzero
      have hzero' : ¬c.headerIpOffset ≠ 0 := hzero
      rw [if_neg hzero']
      rfl
  · rw [hl]
    rw [hstart, hposition]
  · rw [ha]
    change (copyLinkHeader c.frag (copyStart total)).additionallen = 0
    unfold copyLinkHeader
    split
    · rfl
    · rfl

/-! ## The fields of the header -/

lemma extHeadersFrom_mem {p : Bytes} {room pos nxt : Nat} {e : ExtHeaders}
    (h : extHeadersFrom p room pos nxt = some e) {x : Nat × Nat} (hx : x ∈ e.headers) :
    pos ≤ x.2 ∧ x.2 < e.stop ∧ (x.1 = ipprotoFragment → x.2 + 8 ≤ e.stop) := by
  induction room generalizing pos nxt e with
  | zero =>
    rcases extHeadersFrom_cases h with ⟨-, -, rfl⟩ | ⟨room', e', -, hroom, -⟩
    · cases hx
    · omega
  | succ room ih =>
    rcases extHeadersFrom_cases h with ⟨-, -, rfl⟩ | ⟨room', e', -, hroom, hsize, he', rfl⟩
    · cases hx
    · obtain rfl : room = room' := by omega
      rcases List.mem_cons.mp hx with rfl | hx
      · have hstop := (extHeadersFrom_stop he').1
        refine ⟨le_rfl, by dsimp only; omega, ?_⟩
        intro hfragment
        have height : getExtHeaderSize p pos nxt = 8 := if_pos hfragment
        dsimp only
        omega
      · obtain ⟨hle, hlt, height⟩ := ih he' hx
        exact ⟨by omega, hlt, height⟩

lemma extHeadersFrom_apart {p : Bytes} {room pos nxt : Nat} {e : ExtHeaders}
    (h : extHeadersFrom p room pos nxt = some e) {q : Nat} (hq : (ipprotoFragment, q) ∈ e.headers)
    {x : Nat × Nat} (hx : x ∈ e.headers) : x.2 ≤ q ∨ q + 8 ≤ x.2 := by
  induction room generalizing pos nxt e with
  | zero =>
    rcases extHeadersFrom_cases h with ⟨-, -, rfl⟩ | ⟨room', e', -, hroom, -⟩
    · cases hx
    · omega
  | succ room ih =>
    rcases extHeadersFrom_cases h with ⟨-, -, rfl⟩ | ⟨room', e', -, hroom, hsize, he', rfl⟩
    · cases hx
    · obtain rfl : room = room' := by omega
      rcases List.mem_cons.mp hq with heq | hq
      · obtain ⟨rfl, rfl⟩ := Prod.mk.inj heq
        rcases List.mem_cons.mp hx with rfl | hx
        · exact Or.inl le_rfl
        · have hle := (extHeadersFrom_mem he' hx).1
          have height : getExtHeaderSize p q ipprotoFragment = 8 := rfl
          right
          omega
      · rcases List.mem_cons.mp hx with rfl | hx
        · have hle := (extHeadersFrom_mem he' hq).1
          left
          omega
        · exact ih he' hq hx

lemma extHeadersFrom_congr {p p' : Bytes} {room pos nxt : Nat} {e : ExtHeaders}
    (h : extHeadersFrom p room pos nxt = some e)
    (hsame : ∀ x ∈ e.headers, byteAt p' x.2 = byteAt p x.2 ∧ byteAt p' (x.2 + 1) = byteAt p (x.2 + 1)) :
    extHeadersFrom p' room pos nxt = some e := by
  induction room generalizing pos nxt e with
  | zero =>
    rcases extHeadersFrom_cases h with ⟨hext, hend, rfl⟩ | ⟨room', e', -, hroom, -⟩
    · rw [extHeadersFrom, hext, if_neg Bool.false_ne_true, if_neg hend]
    · omega
  | succ room ih =>
    rcases extHeadersFrom_cases h with ⟨hext, hend, rfl⟩ | ⟨room', e', hext, hroom, hsize, he', rfl⟩
    · rw [extHeadersFrom, hext, if_neg Bool.false_ne_true, if_neg hend]
    · obtain rfl : room = room' := by omega
      obtain ⟨hnext, hlength⟩ := hsame (nxt, pos) List.mem_cons_self
      have hsize' : getExtHeaderSize p' pos nxt = getExtHeaderSize p pos nxt := by
        unfold getExtHeaderSize
        rw [hlength]
      have hrest := ih he' (fun x hx => hsame x (List.mem_cons_of_mem _ hx))
      rw [extHeadersFrom, if_pos hext]
      dsimp only at hnext ⊢
      rw [hsize', if_neg (by omega), hnext, hrest]
      rfl

lemma getExtHeaders_congr {p p' : Bytes} {o : Nat} {e : ExtHeaders} (h : getExtHeaders p o = some e)
    (hnext : byteAt p' (o + 6) = byteAt p (o + 6))
    (hsame : ∀ x ∈ e.headers, byteAt p' x.2 = byteAt p x.2 ∧ byteAt p' (x.2 + 1) = byteAt p (x.2 + 1)) :
    getExtHeaders p' o = some e := by
  unfold getExtHeaders at h ⊢
  rw [hnext]
  exact extHeadersFrom_congr h hsame

lemma fragmentHeader_eq_some {p : Bytes} {o q : Nat} (h : fragmentHeader p o = some q) :
    ∃ e, getExtHeaders p o = some e ∧ (ipprotoFragment, q) ∈ e.headers := by
  obtain ⟨e, he, hfind⟩ := Option.bind_eq_some_iff.mp h
  obtain ⟨⟨headerId, q'⟩, hfind', rfl⟩ := Option.map_eq_some_iff.mp hfind
  have hid : headerId = ipprotoFragment := by simpa using List.find?_some hfind'
  subst hid
  exact ⟨e, he, List.mem_of_find?_eq_some hfind'⟩

lemma fragmentHeader_congr {p p' : Bytes} {o : Nat} {e : ExtHeaders} (h : getExtHeaders p o = some e)
    (h' : getExtHeaders p' o = some e) : fragmentHeader p' o = fragmentHeader p o := by
  unfold fragmentHeader
  rw [h, h']

lemma fragmentHeader_of_isIpFrag {p : Bytes} {o : Nat} (hv : version p o ≠ 4)
    (h : isIpFrag p o = true) : ∃ q, fragmentHeader p o = some q := by
  cases hfragment : fragmentHeader p o with
  | some q => exact ⟨q, rfl⟩
  | none =>
    simp [isIpFrag, moreFrag, fragOffset, fragData, hv, hfragment] at h

structure HeaderIn (src p : Bytes) (o : Nat) : Prop where
  room : o + iphdrLen src o < p.length
  same : ∀ i ≤ o + iphdrLen src o, byteAt p i = byteAt src i

variable {src p : Bytes} {o : Nat}

lemma HeaderIn.version_eq (h : HeaderIn src p o) : version p o = version src o := by
  rw [version, version, h.same o (Nat.le_add_right _ _)]

lemma HeaderIn.be16_eq (h : HeaderIn src p o) {i : Nat} (hi : i + 1 ≤ o + iphdrLen src o) :
    be16 p i = be16 src i := by
  rw [be16, be16, h.same i (by omega), h.same (i + 1) hi]

lemma iphdrLen_six {e : ExtHeaders} (hv : version src o ≠ 4) (he : getExtHeaders src o = some e) :
    o + iphdrLen src o = e.stop ∧ o + 40 ≤ e.stop := by
  have hstop := (extHeadersFrom_stop he).1
  unfold sizeofIp6hdr2 at hstop
  unfold iphdrLen
  rw [if_neg hv, he]
  dsimp only [Option.elim_some]
  omega

lemma HeaderIn.getExtHeaders_eq (h : HeaderIn src p o) {e : ExtHeaders} (hv : version src o ≠ 4)
    (he : getExtHeaders src o = some e) : getExtHeaders p o = some e := by
  obtain ⟨hstop, hle⟩ := iphdrLen_six hv he
  refine getExtHeaders_congr he (h.same _ (by omega)) (fun x hx => ?_)
  have hlt := (extHeadersFrom_mem he hx).2.1
  exact ⟨h.same _ (by omega), h.same _ (by omega)⟩

lemma HeaderIn.totLen_eq (h : HeaderIn src p o) (hfrag : isIpFrag src o = true) :
    totLen p o = totLen src o := by
  unfold totLen getTotLen
  rw [h.version_eq]
  split
  · rename_i hv
    have hlen : iphdrLen src o = 20 := if_pos hv
    rw [h.be16_eq (by omega)]
  · rename_i hv
    obtain ⟨q, hq⟩ := fragmentHeader_of_isIpFrag hv hfrag
    obtain ⟨e, he, -⟩ := fragmentHeader_eq_some hq
    obtain ⟨hstop, hle⟩ := iphdrLen_six hv he
    rw [h.be16_eq (by omega)]

lemma HeaderIn.isIpFrag_eq (h : HeaderIn src p o) (hfrag : isIpFrag src o = true) :
    isIpFrag p o = true := by
  have hdata : fragData p o = fragData src o := by
    unfold fragData getFragData
    rw [h.version_eq]
    split
    · rename_i hv
      have hlen : iphdrLen src o = 20 := if_pos hv
      rw [h.be16_eq (by omega)]
    · rename_i hv
      obtain ⟨q, hq⟩ := fragmentHeader_of_isIpFrag hv hfrag
      obtain ⟨e, he, hmem⟩ := fragmentHeader_eq_some hq
      obtain ⟨hstop, hle⟩ := iphdrLen_six hv he
      have height := (extHeadersFrom_mem he hmem).2.2 rfl
      rw [fragmentHeader_congr he (h.getExtHeaders_eq hv he), hq]
      exact h.be16_eq (by dsimp only at height; omega)
  unfold isIpFrag moreFrag fragOffset at hfrag ⊢
  rwa [hdata, h.version_eq]

/-! ## The rewritten header -/

def rewritten (p : Bytes) (o n : Nat) : Bytes := resetFragData (putCheck (putTotLen p o n) o 0) o

lemma version_overwrite {b : Bytes} {i : Nat} (hi : o < i) (ho : o < p.length) :
    version (overwrite p i b) o = version p o := by
  rw [version, version, byteAt_overwrite_before hi ho]

lemma be16_overwrite_before {b : Bytes} {i j : Nat} (hi : j + 1 < i) (hj : j + 1 < p.length) :
    be16 (overwrite p i b) j = be16 p j := by
  rw [be16, be16, byteAt_overwrite_before (by omega) (by omega), byteAt_overwrite_before hi hj]

lemma rewritten_four {n : Nat} (hv : version p o = 4) (hroom : o + 20 ≤ p.length) (hn : n < 2 ^ 16) :
    totLen (rewritten p o n) o = n ∧ isIpFrag (rewritten p o n) o = false := by
  have hlen₁ : (overwrite p (o + 2) (encodeBe16 n)).length = p.length :=
    length_overwrite (by change o + 2 + 2 ≤ _; omega)
  have hv₁ : version (overwrite p (o + 2) (encodeBe16 n)) o = 4 := by
    rw [version_overwrite (by omega) (by omega), hv]
  have hlen₂ : (overwrite (overwrite p (o + 2) (encodeBe16 n)) (o + 10) (encodeBe16 0)).length =
      p.length := (length_overwrite (by change o + 10 + 2 ≤ _; omega)).trans hlen₁
  have hv₂ : version (overwrite (overwrite p (o + 2) (encodeBe16 n)) (o + 10) (encodeBe16 0)) o = 4 := by
    rw [version_overwrite (by omega) (by omega), hv₁]
  have heq : rewritten p o n = overwrite (overwrite (overwrite p (o + 2) (encodeBe16 n)) (o + 10)
      (encodeBe16 0)) (o + 6) (encodeBe16 0) := by
    unfold rewritten resetFragData putCheck putTotLen setTotLen setCheck clearFragData
    rw [if_pos hv, if_pos hv₁, if_pos hv₂]
  have hv₃ : version (rewritten p o n) o = 4 := by
    rw [heq, version_overwrite (by omega) (by omega), hv₂]
  have hdata : fragData (rewritten p o n) o = 0 := by
    unfold fragData getFragData
    rw [if_pos hv₃, heq, be16_overwrite_encodeBe16 (by omega) (by decide)]
  constructor
  · unfold totLen getTotLen
    rw [if_pos hv₃, heq, be16_overwrite_before (by omega) (by omega),
      be16_overwrite_before (by omega) (by omega), be16_overwrite_encodeBe16 (by omega) hn]
  · unfold isIpFrag moreFrag fragOffset
    rw [if_pos hv₃, if_pos hv₃, hdata]
    rfl

lemma rewritten_six {n q : Nat} {e : ExtHeaders} (hv : version p o ≠ 4)
    (he : getExtHeaders p o = some e) (hq : fragmentHeader p o = some q) (hroom : e.stop ≤ p.length)
    (hle : 40 ≤ n) (hn : n < 40 + 2 ^ 16) :
    totLen (rewritten p o n) o = n ∧ isIpFrag (rewritten p o n) o = false := by
  obtain ⟨e', he', hmem⟩ := fragmentHeader_eq_some hq
  obtain rfl := Option.some.inj (he.symm.trans he')
  obtain ⟨hposition, -, height⟩ := extHeadersFrom_mem he hmem
  specialize height rfl
  unfold sizeofIp6hdr2 at hposition
  have hsub : sub32 n sizeofIp6hdr2 = n - 40 := sub32_eq (by omega) hle
  have hlen₁ : (overwrite p (o + 4) (encodeBe16 (n - 40))).length = p.length :=
    length_overwrite (by change o + 4 + 2 ≤ _; omega)
  have hv₁ : version (overwrite p (o + 4) (encodeBe16 (n - 40))) o ≠ 4 := by
    rwa [version_overwrite (by omega) (by omega)]
  -- the length is in front of the byte with the first extension header
  have he₁ : getExtHeaders (overwrite p (o + 4) (encodeBe16 (n - 40))) o = some e := by
    have hbehind : ∀ i, o + 6 ≤ i → byteAt (overwrite p (o + 4) (encodeBe16 (n - 40))) i = byteAt p i :=
      fun i hi => byteAt_overwrite_behind (by change o + 4 + 2 ≤ _; omega) hi
    refine getExtHeaders_congr he (hbehind _ le_rfl) (fun x hx => ?_)
    have hx' := (extHeadersFrom_mem he hx).1
    unfold sizeofIp6hdr2 at hx'
    exact ⟨hbehind _ (by omega), hbehind _ (by omega)⟩
  have hq₁ : fragmentHeader (overwrite p (o + 4) (encodeBe16 (n - 40))) o = some q := by
    rw [fragmentHeader_congr he he₁, hq]
  have heq : rewritten p o n =
      overwrite (overwrite p (o + 4) (encodeBe16 (n - 40))) (q + 2) (encodeBe16 0) := by
    unfold rewritten resetFragData putCheck putTotLen
    rw [if_neg hv, hsub, if_neg hv₁, if_neg hv₁, hq₁]
    rfl
  have hv₂ : version (rewritten p o n) o ≠ 4 := by
    rwa [heq, version_overwrite (by omega) (by omega)]
  -- and the fragment data lies between the bytes that the chain reads
  have he₂ : getExtHeaders (rewritten p o n) o = some e := by
    rw [heq]
    refine getExtHeaders_congr he₁ (byteAt_overwrite_before (by omega) (by omega)) (fun x hx => ?_)
    rcases extHeadersFrom_apart he hmem hx with hfront | hbehind
    · exact ⟨byteAt_overwrite_before (by omega) (by omega), byteAt_overwrite_before (by omega) (by omega)⟩
    · exact ⟨byteAt_overwrite_behind (by change q + 2 + 2 ≤ _; omega) (by change q + 2 + 2 ≤ _; omega),
        byteAt_overwrite_behind (by change q + 2 + 2 ≤ _; omega) (by change q + 2 + 2 ≤ _; omega)⟩
  have hdata : fragData (rewritten p o n) o = 0 := by
    unfold fragData
    rw [if_neg hv₂, fragmentHeader_congr he he₂, hq]
    dsimp only [Option.elim_some]
    rw [heq, be16_overwrite_encodeBe16 (by omega) (by decide)]
  constructor
  · unfold totLen
    rw [if_neg hv₂, heq, be16_overwrite_before (by omega) (by omega),
      be16_overwrite_encodeBe16 (by omega) (by omega)]
    unfold sizeofIp6hdr2
    omega
  · unfold isIpFrag moreFrag fragOffset
    rw [if_neg hv₂, if_neg hv₂, hdata]
    rfl

lemma HeaderIn.rewritten_eq (h : HeaderIn src p o) (hfrag : isIpFrag src o = true) {n : Nat}
    (hle : totLen src o ≤ n) (hn : n ≤ max (totLen src o) 0xFFFF) :
    totLen (rewritten p o n) o = n ∧ isIpFrag (rewritten p o n) o = false := by
  have hroom := h.room
  by_cases hv : version src o = 4
  · have hlen : iphdrLen src o = 20 := if_pos hv
    have htot : totLen src o < 65536 := by
      unfold totLen getTotLen
      rw [if_pos hv]
      exact be16_lt _ _
    exact rewritten_four (h.version_eq.trans hv) (by omega) (by omega)
  · obtain ⟨q, hq⟩ := fragmentHeader_of_isIpFrag hv hfrag
    obtain ⟨e, he, -⟩ := fragmentHeader_eq_some hq
    obtain ⟨hstop, -⟩ := iphdrLen_six hv he
    have htot : totLen src o = 40 + be16 src (o + 4) := if_neg hv
    have hplen := be16_lt src (o + 4)
    have he' := h.getExtHeaders_eq hv he
    have hv' : version p o ≠ 4 := by rwa [h.version_eq]
    have hq' : fragmentHeader p o = some q := by rw [fragmentHeader_congr he he', hq]
    exact rewritten_six hv' he' hq' (by omega) (by omega) (by omega)

lemma Begun.headerIn {c : Call} {iphdr : Option Nat} {len additional : Nat} {st : CopyState}
    (h : Begun (slice c.pkt.packet 0 (c.headerIpOffset + c.frag.len)) iphdr len additional st)
    (hc : c.Admitted) (hhdr : c.frag.iphdrLen < c.frag.len) :
    HeaderIn c.pkt.packet st.out.packet c.headerIpOffset := by
  have hbytes : c.headerIpOffset + c.frag.len ≤ c.pkt.packet.length := by
    have hle := hc.2
    have hcap := c.captured
    change ¬c.frag.len + c.headerIpOffset > c.pkt.caplen at hle
    omega
  have hhdr' : iphdrLen c.pkt.packet c.headerIpOffset < c.frag.len := hhdr
  obtain ⟨r, hr⟩ := h.packet
  constructor
  · rw [hr, List.length_append, length_slice (by omega)]
    omega
  · intro i hi
    rw [hr, byteAt_slice_append hbytes (by omega)]

lemma Begun.fixed_iff {c : Call} {len additional : Nat} {st : CopyState}
    (h : Begun (slice c.pkt.packet 0 (c.headerIpOffset + c.frag.len))
      (if c.headerIpOffset ≠ 0 then some c.headerIpOffset else none) len additional st)
    (hc : c.Admitted) (hhdr : c.frag.iphdrLen < c.frag.len)
    (hmax : c.frag.len + additional ≤ max c.frag.len 0xFFFF) :
    (totLen (fixHeader st).packet c.headerIpOffset = c.frag.len + additional ∧
      isIpFrag (fixHeader st).packet c.headerIpOffset = false) ↔ c.headerIpOffset ≠ 0 := by
  have hheader := h.headerIn hc hhdr
  have hiphdr := h.iphdr_eq
  by_cases hzero : c.headerIpOffset = 0
  · rw [if_neg (not_not.mpr hzero)] at hiphdr
    have hfix : fixHeader st = st.out := by
      unfold fixHeader
      rw [hiphdr]
    rw [hfix, hheader.isIpFrag_eq hc.1]
    exact ⟨fun hbad => absurd hbad.2.symm Bool.false_ne_true, fun hne => absurd hzero hne⟩
  · rw [if_pos hzero] at hiphdr
    have hlen := c.fragOk.len
    have hsum : add32 c.frag.len additional = c.frag.len + additional := add32_eq (by omega)
    have hfix : (fixHeader st).packet =
        rewritten st.out.packet c.headerIpOffset (c.frag.len + additional) := by
      unfold fixHeader
      rw [hiphdr]
      dsimp only
      rw [hheader.totLen_eq hc.1, h.additional_eq]
      change resetFragData (putCheck (putTotLen _ _ (add32 c.frag.len additional)) _ 0) _ = _
      rw [hsum, rewritten]
    rw [hfix]
    exact ⟨fun _ => hzero, fun _ => hheader.rewritten_eq hc.1 (Nat.le_add_right _ _) hmax⟩

/-- The header of the packet has the length of the first fragment and of what was appended to it, and
`pcapProcess` does not take the packet as a fragment. -/
def HeaderRewritten (l : List SFrag) (out : Bytes) : Prop :=
  ∀ f ∈ l.head?, totLen out f.headerIpOffset =
      f.len + appended (totallen l) (f.headerIpOffset + f.len) l.tail ∧
    isIpFrag out f.headerIpOffset = false

lemma headerRewritten_iff {q : SFrags} (path : PacketPath) (hok : QueueOk q) (hlast : LastOk q)
    (hcomplete : complete q = true) : HeaderRewritten (queued q) (dequeue path q).packet ↔
      ∀ f ∈ (queued q).head?, f.headerIpOffset ≠ 0 := by
  obtain ⟨first, rest, hadmitted, hqueued, -, hhdr⟩ := complete_first hok hlast hcomplete
  have htotal := totallen_le first.frag rest first.fragOk
  have hlink := first.offset_lt
  have hlen := first.fragOk.len
  change _ ≤ 0xFFFF + first.headerIpOffset at htotal
  unfold HeaderRewritten dequeue copyAll
  rw [hqueued, List.zipIdx_cons, List.foldl_cons]
  generalize totallen (first.frag :: rest) = total at htotal ⊢
  have hbegun := (begun_first hadmitted (by omega) path total (first.frag :: rest).length).rounds path
    total (first.frag :: rest).length rest (Nat.succ_pos 0) (by omega) (Nat.zero_le _) (by omega)
  have happended := appended_le (by omega : total < 2 ^ 32) (first.headerIpOffset + first.frag.len) rest
  rw [Nat.zero_add] at hbegun
  simp only [List.head?_cons, Option.mem_some_iff, forall_eq']
  exact hbegun.fixed_iff hadmitted hhdr (by omega)

/-- The header of the packet from a complete queue is rewritten exactly when the first fragment has a
link header. -/
theorem dequeue_headerRewritten_iff (path : PacketPath) (calls : List Call) (c : Call) (hc : c.Admitted)
    (q : SFrags) (hq : insertFrag ((pcapRun path calls c.key).getD {}) c = some q)
    (hcomplete : complete q = true) :
    HeaderRewritten (queued q) (dequeue path q).packet ↔
      ∀ f ∈ (queued q).head?, f.headerIpOffset ≠ 0 := by
  have hok := ((queuesOk_pcapRun path calls).getD c.key).insertFrag hc hq
  have hlast := (lastOk_pcapRun path calls c.key).insertFrag hq
  exact headerRewritten_iff path hok hlast hcomplete

theorem dequeue_headerRewritten_example : ∃ q, insertFrag
    ((pcapRun .headerPacket [exampleCall 28 0x20 0] (exampleCall 28 0 1).key).getD {})
      (exampleCall 28 0 1) = some q ∧ complete q = true ∧
      HeaderRewritten (queued q) (dequeue .headerPacket q).packet := by
  have htwo := twoFragments_example (Or.inl rfl : (28 : UInt8) = 28 ∨ (28 : UInt8) = 10)
  obtain ⟨q, hq, hcomplete, hqueued⟩ := htwo.insert .headerPacket (by decide)
  refine ⟨q, hq, hcomplete, ?_⟩
  refine (dequeue_headerRewritten_iff .headerPacket [exampleCall 28 0x20 0] _ htwo.admitted₂ q hq
    hcomplete).mpr ?_
  rw [hqueued]
  intro f hf
  obtain rfl := Option.some.inj hf
  decide

def rawCall (fragHigh fragLow : UInt8) : Call where
  pkt := {
    caplen := 28
    len := 28
    packet := [0x45, 0, 0, 28, 0, 7, fragHigh, fragLow, 64, 17, 0, 0, 10, 0, 0, 1, 10, 0, 0, 2,
      1, 2, 3, 4, 5, 6, 7, 8] }
  headerIpOffset := 0
  offset_lt := by decide
  captured := le_refl 28

/-- Without a link header the packet keeps the header of the first fragment. -/
theorem dequeue_header_kept : ¬∀ (path : PacketPath) (calls : List Call) (c : Call), c.Admitted →
    ∀ q, insertFrag ((pcapRun path calls c.key).getD {}) c = some q → complete q = true →
    HeaderRewritten (queued q) (dequeue path q).packet := by
  intro hall
  have htwo : TwoFragments (rawCall 0x20 0) (rawCall 0 1) :=
    ⟨by decide, by decide, by decide, by decide, by decide, by decide, by decide⟩
  obtain ⟨q, hq, hcomplete, hqueued⟩ := htwo.insert .headerPacket (by decide)
  have hok := ((queuesOk_pcapRun .headerPacket _).getD (rawCall 0 1).key).insertFrag htwo.admitted₂ hq
  have hlastOk := (lastOk_pcapRun .headerPacket _ _).insertFrag hq
  have hlink := (headerRewritten_iff .headerPacket hok hlastOk hcomplete).mp
    (hall _ _ _ htwo.admitted₂ q hq hcomplete)
  rw [hqueued] at hlink
  exact hlink _ rfl rfl

end VoipMonitor.IpDefrag
