import VoipMonitor.Library.Cuts
import VoipMonitor.Library.SortedMap
import VoipMonitor.Model.IpFrag

/-!
# Reassembly of one datagram

A `Fragmentation` is an IPv4 datagram cut at multiples of 8 bytes together with a captured
frame for every piece. The queue of the datagram is described by the list of the pieces seen
so far; from this description the completeness scan, the copy loops and the whole run follow.
-/

namespace VoipMonitor.IpFrag
open VoipMonitor.Library

/-- The call carries the piece of a datagram that starts at `off`, fully captured behind a
link header. -/
structure IsFragment (saddr daddr protocol id off : Nat) (mf : Bool) (piece : Bytes)
    (c : DefragCall) : Prop where
  version_eq : version c.pkt.packet c.headerIpOffset = 4
  ihl_eq : getIhl c.pkt.packet c.headerIpOffset = 5
  saddr_eq : getSaddr c.pkt.packet c.headerIpOffset = saddr
  daddr_eq : getDaddr c.pkt.packet c.headerIpOffset = daddr
  protocol_eq : getProtocol c.pkt.packet c.headerIpOffset = protocol
  id_eq : getFragId c.pkt.packet c.headerIpOffset = id
  totLen_eq : getTotLen c.pkt.packet c.headerIpOffset = 20 + piece.length
  offset_eq : getFragOffset (getFragData c.pkt.packet c.headerIpOffset) = off
  moreFrag_eq : isMoreFrag (getFragData c.pkt.packet c.headerIpOffset) = mf
  linkHeader_pos : 1 ≤ c.headerIpOffset
  linkHeader_fits : c.headerIpOffset + 0xFFFF < 2 ^ 32
  caplen_eq : c.pkt.packet.length = c.pkt.caplen
  captured : c.headerIpOffset + 20 + piece.length ≤ c.pkt.caplen
  data_eq : slice c.pkt.packet (c.headerIpOffset + 20) piece.length = piece

/-- An IPv4 datagram with a 20-byte header, cut into two or more pieces, and a frame for
each of them. -/
structure Fragmentation where
  saddr : Nat
  daddr : Nat
  protocol : Nat
  id : Nat
  fdataThreadIndex : Int
  payload : Bytes
  pieces : List Bytes
  frame : Nat → DefragCall
  not_esp : protocol ≠ ipprotoEsp
  fits : 20 + payload.length ≤ 65535
  two_le : 2 ≤ pieces.length
  flatten_eq : pieces.flatten = payload
  piece_ne : ∀ p ∈ pieces, p ≠ []
  aligned : ∀ p ∈ pieces.dropLast, 8 ∣ p.length
  thread_eq : ∀ i, i < pieces.length → (frame i).fdataThreadIndex = fdataThreadIndex
  isFragment : ∀ i (hi : i < pieces.length), IsFragment saddr daddr protocol id
    (pieces.take i).flatten.length (decide (i + 1 < pieces.length)) pieces[i] (frame i)

namespace Fragmentation

def count (F : Fragmentation) : Nat := F.pieces.length

def offset (F : Fragmentation) (i : Nat) : Nat := (F.pieces.take i).flatten.length

def frag (F : Fragmentation) (i : Nat) : SFrag :=
  mkFrag (F.frame i).pkt (F.frame i).headerIpOffset
    (getTotLen (F.frame i).pkt.packet (F.frame i).headerIpOffset)

variable (F : Fragmentation)

lemma offset_eq_cut (i : Nat) : F.offset i = cut F.pieces i := rfl

lemma offset_succ {i : Nat} (hi : i < F.count) :
    F.offset (i + 1) = F.offset i + (F.pieces.get ⟨i, hi⟩).length := cut_succ hi

lemma piece_pos {i : Nat} (hi : i < F.count) : 0 < (F.pieces.get ⟨i, hi⟩).length :=
  List.length_pos_iff.mpr (F.piece_ne _ (List.getElem_mem hi))

lemma offset_lt {i j : Nat} (hij : i < j) (hj : j ≤ F.count) : F.offset i < F.offset j :=
  cut_strictMono F.piece_ne hij hj

lemma offset_inj {i j : Nat} (hi : i < F.count) (hj : j < F.count)
    (h : F.offset i = F.offset j) : i = j := by
  rcases Nat.lt_trichotomy i j with hlt | heq | hgt
  · have := F.offset_lt hlt hj.le
    omega
  · exact heq
  · have := F.offset_lt hgt hi.le
    omega

lemma offset_count : F.offset F.count = F.payload.length := by
  rw [offset_eq_cut, count, cut_length, F.flatten_eq]

@[simp] lemma offset_zero : F.offset 0 = 0 := cut_zero F.pieces

lemma offset_le (i : Nat) : F.offset i ≤ F.payload.length := by
  rw [offset_eq_cut, ← F.flatten_eq]
  exact cut_le_length F.pieces i

section Frames
variable {F} {i : Nat} (hi : i < F.count)
include hi

lemma frag_offset : (F.frag i).offset = F.offset i := (F.isFragment i hi).offset_eq

lemma frag_len : (F.frag i).len = 20 + (F.pieces.get ⟨i, hi⟩).length :=
  (F.isFragment i hi).totLen_eq

lemma frag_iphdrLen : (F.frag i).iphdrLen = 20 := by
  have h := (F.isFragment i hi).protocol_eq
  simp [frag, mkFrag, getHdrSize, sizeofIphdr2, h, F.not_esp]

lemma frag_dataLen : sub32 (F.frag i).len (F.frag i).iphdrLen = (F.pieces.get ⟨i, hi⟩).length := by
  have hle := F.offset_le (i + 1)
  have hfits := F.fits
  rw [F.offset_succ hi] at hle
  rw [frag_len hi, frag_iphdrLen hi, sub32_eq (by omega) (by omega)]
  omega

end Frames

/-! ### The queue -/

structure Queued (seen : List Nat) (q : SFrags) : Prop where
  hasLast_iff : q.hasLast = decide (F.count - 1 ∈ seen)
  lookup : ∀ k f, q.map[k]? = some f ↔ ∃ i ∈ seen, k = F.offset i ∧ f = F.frag i

lemma queued_nil : F.Queued [] {} := by
  constructor
  · simp
  · intro k f
    change (∅ : Std.TreeMap Nat SFrag)[k]? = some f ↔ _
    simp

variable {F} {seen : List Nat} {q : SFrags}

def sortedSeen (F : Fragmentation) (seen : List Nat) : List Nat :=
  (List.range F.count).filter (· ∈ seen)

lemma mem_sortedSeen {i : Nat} : i ∈ F.sortedSeen seen ↔ i < F.count ∧ i ∈ seen := by
  simp [sortedSeen]

lemma Queued.toList_eq (hq : F.Queued seen q) (hb : ∀ i ∈ seen, i < F.count) :
    q.map.toList = (F.sortedSeen seen).map (fun i => (F.offset i, F.frag i)) := by
  apply toList_eq_of_getElem?
  · rw [List.pairwise_map]
    have hlt : (F.sortedSeen seen).Pairwise (· < ·) :=
      List.pairwise_lt_range.filter _
    refine List.Pairwise.imp_of_mem ?_ hlt
    intro i j _ hj hij
    exact Nat.compare_eq_lt.mpr (F.offset_lt hij (mem_sortedSeen.mp hj).1.le)
  · intro k f
    rw [hq.lookup, List.mem_map]
    constructor
    · rintro ⟨i, hi, rfl, rfl⟩
      exact ⟨i, mem_sortedSeen.mpr ⟨hb i hi, hi⟩, rfl⟩
    · rintro ⟨i, hi, heq⟩
      obtain ⟨rfl, rfl⟩ := Prod.mk.inj heq
      exact ⟨i, (mem_sortedSeen.mp hi).2, rfl, rfl⟩

lemma contiguous_iff {l : List Nat} {j : Nat} (hs : l.Pairwise (· < ·))
    (hb : ∀ i ∈ l, i < F.count) (hj : j ≤ F.count) :
    contiguous (F.offset j) (l.map F.frag) = true ↔ l = List.range' j l.length := by
  induction l generalizing j with
  | nil => simp [contiguous]
  | cons i l ih =>
    have hi : i < F.count := hb i List.mem_cons_self
    rw [List.map_cons, contiguous, frag_offset hi, frag_dataLen hi]
    by_cases hij : i = j
    · subst i
      have hle := F.offset_le (j + 1)
      have hfits := F.fits
      have hadd := F.offset_succ hi
      rw [if_neg (by simp), add32_eq (by omega), ← hadd,
        ih (List.pairwise_cons.mp hs).2 (fun k hk => hb k (List.mem_cons_of_mem _ hk)) hi]
      simp [List.range'_succ]
    · have hne : F.offset i ≠ F.offset j := by
        intro h
        rcases Nat.lt_or_eq_of_le hj with hlt | heq
        · exact hij (F.offset_inj hi hlt h)
        · have := F.offset_lt hi le_rfl
          rw [heq] at h
          omega
      rw [if_pos hne]
      simp [List.range'_succ, hij]

lemma sortedSeen_eq_range (hall : ∀ i, i < F.count → i ∈ seen) :
    F.sortedSeen seen = List.range F.count := by
  apply List.filter_eq_self.mpr
  intro i hi
  simpa using hall i (List.mem_range.mp hi)

lemma Queued.complete_iff (hq : F.Queued seen q) (hb : ∀ i ∈ seen, i < F.count) :
    complete q = true ↔ ∀ i, i < F.count → i ∈ seen := by
  have htwo := F.two_le
  have hsorted : (F.sortedSeen seen).Pairwise (· < ·) := List.pairwise_lt_range.filter _
  have hbound : ∀ i ∈ F.sortedSeen seen, i < F.count := fun i hi => (mem_sortedSeen.mp hi).1
  have hscan := contiguous_iff hsorted hbound (Nat.zero_le _)
  rw [offset_zero] at hscan
  have hsnd : q.map.toList.map Prod.snd = (F.sortedSeen seen).map F.frag := by
    rw [hq.toList_eq hb, List.map_map]
    rfl
  simp only [complete, hsnd, Bool.and_eq_true, beq_iff_eq, hscan, hq.hasLast_iff,
    decide_eq_true_eq]
  constructor
  · rintro ⟨⟨hlast, -⟩, hrange⟩ i hi
    have hmem : F.count - 1 ∈ F.sortedSeen seen :=
      mem_sortedSeen.mpr ⟨by unfold count at *; omega, hlast⟩
    rw [hrange, List.mem_range'_1] at hmem
    have himem : i ∈ F.sortedSeen seen := by
      rw [hrange, List.mem_range'_1]
      omega
    exact (mem_sortedSeen.mp himem).2
  · intro hall
    have hpos : 0 < F.count := by unfold count; omega
    refine ⟨⟨hall _ (by omega), ?_⟩, ?_⟩
    · rw [sortedSeen_eq_range hall, List.head?_map, List.head?_range, if_neg (by omega)]
      simp [frag_offset hpos]
    · rw [sortedSeen_eq_range hall]
      simp [List.range_eq_range']

lemma Queued.insert (hq : F.Queued seen q) (hb : ∀ j ∈ seen, j < F.count) {i : Nat}
    (hi : i < F.count) :
    F.Queued (seen ++ [i])
      { map := q.map.insert (F.offset i) (F.frag i)
        hasLast := q.hasLast || decide (i = F.count - 1) } := by
  constructor
  · simp only [hq.hasLast_iff, List.mem_append, List.mem_singleton, Bool.decide_or, eq_comm]
  · intro k f
    rw [Std.TreeMap.getElem?_insert]
    by_cases hk : k = F.offset i
    · subst hk
      rw [if_pos (by simp)]
      constructor
      · intro h
        exact ⟨i, by simp, rfl, (Option.some.inj h).symm⟩
      · rintro ⟨j, hj, hoff, rfl⟩
        have hj' : j < F.count := by
          rcases List.mem_append.mp hj with hj | hj
          · exact hb j hj
          · rwa [List.mem_singleton.mp hj]
        rw [F.offset_inj hi hj' hoff]
    · rw [if_neg (by simpa using fun h => hk h.symm), hq.lookup]
      constructor
      · rintro ⟨j, hj, h⟩
        exact ⟨j, by simp [hj], h⟩
      · rintro ⟨j, hj, hoff, rfl⟩
        rcases List.mem_append.mp hj with hj | hj
        · exact ⟨j, hj, hoff, rfl⟩
        · rw [List.mem_singleton.mp hj] at hoff
          exact absurd hoff hk

lemma Queued.contains_iff (hq : F.Queued seen q) (hb : ∀ j ∈ seen, j < F.count) {i : Nat}
    (hi : i < F.count) : q.map.contains (F.offset i) = true ↔ i ∈ seen := by
  rw [Std.TreeMap.contains_eq_isSome_getElem?, Option.isSome_iff_exists]
  constructor
  · rintro ⟨f, hf⟩
    obtain ⟨j, hj, hoff, -⟩ := (hq.lookup _ _).mp hf
    rwa [F.offset_inj hi (hb j hj) hoff]
  · intro h
    exact ⟨F.frag i, (hq.lookup _ _).mpr ⟨i, h, rfl, rfl⟩⟩

lemma isLast_iff {i : Nat} (hi : i < F.count) :
    ((!decide (i + 1 < F.count)) && decide (F.offset i ≠ 0)) = decide (i = F.count - 1) := by
  have htwo : 2 ≤ F.count := F.two_le
  rw [Bool.eq_iff_iff]
  simp only [Bool.and_eq_true, Bool.not_eq_true', decide_eq_false_iff_not, decide_eq_true_eq]
  constructor
  · rintro ⟨h, -⟩
    omega
  · rintro rfl
    refine ⟨by omega, ?_⟩
    have := F.offset_lt (show 0 < F.count - 1 by omega) (by omega)
    rw [offset_zero] at this
    omega

/-- `add` of a frame of the datagram: a repeated piece is refused and changes nothing, a new
one is queued, and the packet is built when no piece is missing. -/
lemma Queued.add_eq (hq : F.Queued seen q) (hb : ∀ j ∈ seen, j < F.count) {i : Nat}
    (hi : i < F.count) (path : PacketPath) :
    ∃ q', F.Queued (seen ++ [i]) q' ∧
      add path q (F.frame i).pkt (F.frame i).headerIpOffset
        (getTotLen (F.frame i).pkt.packet (F.frame i).headerIpOffset) =
      if i ∈ seen then (⟨-1, some (F.frame i).pkt⟩, q')
      else if ∀ j, j < F.count → j ∈ seen ++ [i] then (⟨1, some (dequeue path q')⟩, q')
      else (⟨0, match path with
        | .headerPacket => none
        | .headerPacketPQout => some (F.frame i).pkt⟩, q') := by
  have hf := F.isFragment i hi
  have hmark : (if (!isMoreFrag (getFragData (F.frame i).pkt.packet (F.frame i).headerIpOffset) &&
        decide (getFragOffset (getFragData (F.frame i).pkt.packet
          (F.frame i).headerIpOffset) ≠ 0)) = true
      then { q with hasLast := true } else q) =
      { q with hasLast := q.hasLast || decide (i = F.count - 1) } := by
    rw [hf.moreFrag_eq, hf.offset_eq]
    have := isLast_iff hi
    unfold offset count at this
    rw [this]
    by_cases h : i = F.pieces.length - 1
    · simp [count, h]
    · simp [count, h]
  unfold add
  dsimp only
  rw [hmark, hf.offset_eq]
  change ∃ q', _ ∧ (if q.map.contains (F.offset i) = true then _ else _) = _
  by_cases hmem : i ∈ seen
  · refine ⟨{ q with hasLast := q.hasLast || decide (i = F.count - 1) }, ?_, ?_⟩
    · constructor
      · rw [hq.hasLast_iff]
        by_cases h : i = F.count - 1
        · simp [← h, hmem]
        · simp [h, Ne.symm h]
      · intro k f
        rw [hq.lookup]
        simp only [List.mem_append, List.mem_singleton]
        constructor
        · rintro ⟨j, hj, h⟩
          exact ⟨j, Or.inl hj, h⟩
        · rintro ⟨j, hj | rfl, h⟩
          · exact ⟨j, hj, h⟩
          · exact ⟨j, hmem, h⟩
    · rw [if_pos ((hq.contains_iff hb hi).mpr hmem), if_pos hmem]
  · have hins := hq.insert hb hi
    refine ⟨_, hins, ?_⟩
    have hb' : ∀ j ∈ seen ++ [i], j < F.count := by
      intro j hj
      rcases List.mem_append.mp hj with hj | hj
      · exact hb j hj
      · rwa [List.mem_singleton.mp hj]
    rw [if_neg (fun h => hmem ((hq.contains_iff hb hi).mp h)), if_neg hmem]
    simp only [← hins.complete_iff hb']
    rfl

end Fragmentation

/-!
## The packet built by `dequeue`

On fully captured fragments both copy loops do the same work. After `k` rounds the new packet
starts with the link and IP headers of the first frame followed by the first `k` pieces.
-/

/-- The IP header of the whole datagram: that of the first fragment with the total length
replaced and the fragment field and the checksum cleared. -/
def reassembledHeader (hdr : Bytes) (totLen : Nat) : Bytes :=
  hdr.take 2 ++ encodeBe16 totLen ++ slice hdr 4 2 ++ [0, 0] ++ slice hdr 8 2 ++ [0, 0] ++
    hdr.drop 12

def reassembledPacket (first : DefragCall) (payload : Bytes) : Bytes :=
  slice first.pkt.packet 0 first.headerIpOffset ++
    reassembledHeader (slice first.pkt.packet first.headerIpOffset 20) (20 + payload.length) ++
    payload

lemma fixHeader_eq (hdr : Bytes) (h : hdr.length = 20) (totLen : Nat) :
    overwrite (overwrite (overwrite hdr 2 (encodeBe16 totLen)) 10 (encodeBe16 0)) 6
      (encodeBe16 0) = reassembledHeader hdr totLen := by
  match hdr, h with
  | [_, _, _, _, _, _, _, _, _, _, _, _, _, _, _, _, _, _, _, _], _ => rfl

lemma length_encodeBe16 (n : Nat) : (encodeBe16 n).length = 2 := rfl

lemma length_reassembledHeader {hdr : Bytes} (h : hdr.length = 20) (totLen : Nat) :
    (reassembledHeader hdr totLen).length = 20 := by
  simp [reassembledHeader, slice, length_encodeBe16, h]

lemma foldl_zipIdx_range {σ τ : Type*} (g : σ → τ → Nat → σ) (f : Nat → τ) (init : σ) (n : Nat) :
    ((List.range n).map f).zipIdx.foldl (fun a p => g a p.1 p.2) init =
      (List.range n).foldl (fun a i => g a (f i) i) init := by
  induction n with
  | zero => rfl
  | succ n ih =>
    rw [List.range_succ, List.map_append, List.zipIdx_append, List.foldl_append, ih,
      List.foldl_append]
    simp

namespace Fragmentation
variable {F : Fragmentation}

lemma count_pos (F : Fragmentation) : 0 < F.count := by
  have := F.two_le
  unfold count
  omega

def total (F : Fragmentation) : Nat := (F.frame 0).headerIpOffset + 20 + F.payload.length

lemma totallen_eq : totallen ((List.range F.count).map F.frag) = F.total := by
  have hpos := F.count_pos
  have hfits := F.fits
  have hlink := (F.isFragment 0 hpos).linkHeader_fits
  have hhead : (((List.range F.count).map F.frag).head?.map (·.headerIpOffset)).getD 0 =
      (F.frame 0).headerIpOffset := by
    rw [List.head?_map, List.head?_range, if_neg (by omega)]
    rfl
  have hsum : ∀ k, 0 < k → k ≤ F.count →
      (List.range k).foldl (fun t i =>
        if i = 0 then add32 t (F.frag i).len
        else sub32 (add32 t (F.frag i).len) (F.frag i).iphdrLen) (F.frame 0).headerIpOffset =
      (F.frame 0).headerIpOffset + 20 + F.offset k := by
    intro k hk hkc
    induction k with
    | zero => omega
    | succ k ih =>
      have hkc' : k < F.count := hkc
      have hle := F.offset_le (k + 1)
      have hoff := F.offset_succ hkc'
      rw [List.range_succ, List.foldl_append]
      rcases Nat.eq_zero_or_pos k with rfl | hk'
      · rw [offset_zero] at hoff
        simp only [List.range_zero, List.foldl_nil, List.foldl_cons, if_true]
        rw [frag_len hkc', add32_eq (by omega)]
        omega
      · rw [ih hk' (by omega)]
        simp only [List.foldl_cons, List.foldl_nil, if_neg (show ¬k = 0 by omega)]
        rw [frag_len hkc', frag_iphdrLen hkc', sub32_add32 (by omega) (by omega)]
        omega
  have hall := hsum F.count hpos le_rfl
  rw [F.offset_count] at hall
  unfold totallen
  dsimp only
  rw [hhead, foldl_zipIdx_range (fun t frag i => if i = 0 then add32 t (SFrag.len frag)
    else sub32 (add32 t frag.len) frag.iphdrLen), hall, add32_eq (by omega), if_neg (by omega)]
  rfl

section Round
variable {i : Nat} (hi : i < F.count)
include hi

lemma frag_captured : (F.frag i).headerIpOffset + (F.frag i).len ≤ (F.frag i).packet.caplen := by
  have h := (F.isFragment i hi).captured
  rw [frag_len hi]
  change (F.frame i).headerIpOffset + _ ≤ (F.frame i).pkt.caplen
  simp only [List.get_eq_getElem]
  omega

lemma frag_link_fits : (F.frag i).headerIpOffset + 0xFFFF < 2 ^ 32 :=
  (F.isFragment i hi).linkHeader_fits

lemma copyFrag_eq (path : PacketPath) (total count : Nat) (st : CopyState) (j : Nat) :
    copyFrag path total count st (F.frag i) j = copyHeaderPacket total count st (F.frag i) j := by
  cases path with
  | headerPacket => rfl
  | headerPacketPQout =>
    have hcap := frag_captured hi
    have hlink := frag_link_fits hi
    have hlen := frag_len hi
    have hhdr := frag_iphdrLen hi
    have hdata := frag_dataLen hi
    have hfirst : min (F.frag i).len
        (if (F.frag i).packet.caplen > (F.frag i).headerIpOffset
          then (F.frag i).packet.caplen - (F.frag i).headerIpOffset else 0) = (F.frag i).len := by
      rw [if_pos (by omega)]
      omega
    have hnext : ∀ m, min (min (sub32 (F.frag i).len (F.frag i).iphdrLen) m)
        (if (F.frag i).packet.caplen > add32 (F.frag i).headerIpOffset (F.frag i).iphdrLen
          then (F.frag i).packet.caplen - add32 (F.frag i).headerIpOffset (F.frag i).iphdrLen
          else 0) = min (sub32 (F.frag i).len (F.frag i).iphdrLen) m := by
      intro m
      have hpos := F.piece_pos hi
      rw [hdata, hhdr, add32_eq (by omega), if_pos (by omega)]
      omega
    simp only [copyFrag, copyPQout, copyHeaderPacket, hfirst, hnext]

end Round

structure Copied (F : Fragmentation) (k : Nat) (st : CopyState) : Prop where
  len_eq : st.len = (F.frame 0).headerIpOffset + 20 + F.offset k
  take_eq : st.out.packet.take st.len =
    slice (F.frame 0).pkt.packet 0 ((F.frame 0).headerIpOffset + 20) ++ (F.pieces.take k).flatten
  length_eq : st.out.packet.length = F.total
  iphdr_eq : st.iphdr = some (F.frame 0).headerIpOffset
  additional_eq : st.additionallen = F.offset k - F.offset 1
  lens_eq : k = F.count → st.out.caplen = F.total ∧ st.out.len = F.total

lemma copyLastHeader_frame (total count i : Nat) (frag : SFrag) (st : CopyState) :
    (copyLastHeader total count i frag st).len = st.len ∧
    (copyLastHeader total count i frag st).out.packet = st.out.packet ∧
    (copyLastHeader total count i frag st).iphdr = st.iphdr ∧
    (copyLastHeader total count i frag st).additionallen = st.additionallen := by
  unfold copyLastHeader
  split <;> simp

lemma copyLastHeader_lens (total count i : Nat) (frag : SFrag) (st : CopyState)
    (h : i = count - 1) : (copyLastHeader total count i frag st).out.caplen = total ∧
      (copyLastHeader total count i frag st).out.len = total := by
  simp [copyLastHeader, h]

lemma write_take {st : CopyState} {w : Bytes} (src : Bytes) (h : st.out.packet.take st.len = w)
    (hw : w.length = st.len) :
    (st.write src).out.packet.take (st.len + src.length) = w ++ src :=
  overwrite_take h hw

lemma length_write (st : CopyState) (src : Bytes)
    (h : st.len + src.length ≤ st.out.packet.length) :
    (st.write src).out.packet.length = st.out.packet.length := length_overwrite h

lemma copied_first (st : CopyState) (hlen : st.len = 0) (hadd : st.additionallen = 0)
    (hpacket : st.out.packet.length = F.total) :
    F.Copied 1 (copyHeaderPacket F.total F.count st (F.frag 0) 0) := by
  have hpos := F.count_pos
  have hf := F.isFragment 0 hpos
  have hlink := hf.linkHeader_pos
  have hfits := hf.linkHeader_fits
  have hpf := F.fits
  have hcap := hf.captured
  have hcl := hf.caplen_eq
  have hoff : F.offset 1 = F.pieces[0].length := by
    have h := F.offset_succ hpos
    simp only [offset_zero, Nat.zero_add] at h
    exact h
  have hle := F.offset_le 1
  have htwo : 2 ≤ F.count := F.two_le
  have hflen : (F.frag 0).len = 20 + F.pieces[0].length := frag_len hpos
  set h := (F.frame 0).headerIpOffset with hh
  set pkt := (F.frame 0).pkt.packet with hpkt
  have htotal : F.total = h + 20 + F.payload.length := rfl
  have hlinkLen : (slice pkt 0 h).length = h := length_slice (by omega)
  have hbodyLen : (slice pkt h (F.frag 0).len).length = (F.frag 0).len :=
    length_slice (by omega)
  -- the state after the link header has been copied
  set st1 := copyLinkHeader (F.frag 0) st with hst1
  have hst1_eq : st1 = { st.write (slice pkt 0 h) with len := h, iphdr := some h } := by
    rw [hst1, copyLinkHeader, if_pos (show (F.frag 0).headerIpOffset ≠ 0 by change h ≠ 0; omega)]
    change ({ st.write (slice pkt 0 h) with len := add32 st.len h, iphdr := some (add32 st.len h) }
      : CopyState) = _
    rw [hlen, add32_eq (by omega), Nat.zero_add]
  have htake1 : st1.out.packet.take st1.len = slice pkt 0 h := by
    have := write_take (slice pkt 0 h) (show st.out.packet.take st.len = [] by simp [hlen])
      (by simp [hlen])
    rw [hlen, hlinkLen, Nat.zero_add] at this
    rw [hst1_eq]
    simpa using this
  have hlen1 : st1.len = h := by rw [hst1_eq]
  have hpacket1 : st1.out.packet.length = F.total := by
    have := length_write st (slice pkt 0 h) (by rw [hlen, hlinkLen, hpacket]; omega)
    rw [hst1_eq, ← hpacket, ← this]
  have hround : copyHeaderPacket F.total F.count st (F.frag 0) 0 =
      copyLastHeader F.total F.count 0 (F.frag 0)
        { st1.write (slice pkt h (F.frag 0).len) with
          len := add32 st1.len (F.frag 0).len, pid := (F.frag 0).packet.pid } := by
    simp only [copyHeaderPacket, if_true]
    rfl
  obtain ⟨h1, h2, h3, h4⟩ := copyLastHeader_frame F.total F.count 0 (F.frag 0)
    { st1.write (slice pkt h (F.frag 0).len) with
      len := add32 st1.len (F.frag 0).len, pid := (F.frag 0).packet.pid }
  have hlen2 : add32 st1.len (F.frag 0).len = h + 20 + F.offset 1 := by
    rw [hlen1, hflen, add32_eq (by omega)]
    omega
  rw [hround]
  refine ⟨?_, ?_, ?_, ?_, ?_, ?_⟩
  · rw [h1]
    exact hlen2
  · have hw := write_take (slice pkt h (F.frag 0).len) htake1 (by rw [hlinkLen, hlen1])
    rw [hbodyLen, hlen1] at hw
    have hsplit : slice pkt 0 h ++ slice pkt h (F.frag 0).len =
        slice pkt 0 (h + 20) ++ slice pkt (h + 20) F.pieces[0].length := by
      have e1 := slice_append_slice pkt 0 h (F.frag 0).len
      have e2 := slice_append_slice pkt 0 (h + 20) F.pieces[0].length
      rw [Nat.zero_add] at e1 e2
      rw [e1, e2, hflen, Nat.add_assoc]
    rw [h1, h2]
    rw [hlen2]
    rw [show h + (F.frag 0).len = h + 20 + F.offset 1 by omega, hsplit, hf.data_eq] at hw
    rw [hw, List.take_succ_eq_append_getElem hpos, List.flatten_append, List.take_zero,
      List.flatten_nil, List.nil_append, List.flatten_singleton]
  · rw [h2, ← hpacket1]
    exact length_write _ _ (by rw [hlen1, hbodyLen, hpacket1]; omega)
  · rw [h3]
    change st1.iphdr = _
    rw [hst1_eq]
  · rw [h4]
    change st1.additionallen = _
    rw [hst1_eq, Nat.sub_self]
    exact hadd
  · intro hk
    omega

lemma Copied.next {k : Nat} {st : CopyState} (hc : F.Copied k st) (hk0 : 0 < k)
    (hk : k < F.count) :
    F.Copied (k + 1) (copyHeaderPacket F.total F.count st (F.frag k) k) := by
  have hf := F.isFragment k hk
  have hf0 := F.isFragment 0 F.count_pos
  have hfits := hf0.linkHeader_fits
  have hcap0 := hf0.captured
  have hcl0 := hf0.caplen_eq
  have hpf := F.fits
  have hcap := hf.captured
  have hcl := hf.caplen_eq
  have hoff : F.offset (k + 1) = F.offset k + F.pieces[k].length := F.offset_succ hk
  have hle : F.offset (k + 1) ≤ F.payload.length := F.offset_le (k + 1)
  have hpiece : 0 < F.pieces[k].length := F.piece_pos hk
  have hdata : sub32 (F.frag k).len (F.frag k).iphdrLen = F.pieces[k].length := frag_dataLen hk
  have hlen := hc.len_eq
  have hone : F.offset 1 ≤ F.offset k := by
    rcases Nat.lt_or_eq_of_le hk0 with h | rfl
    · exact (F.offset_lt h hk.le).le
    · exact le_rfl
  have htotal : F.total = (F.frame 0).headerIpOffset + 20 + F.payload.length := rfl
  have hcpy : min (sub32 (F.frag k).len (F.frag k).iphdrLen) (sub32 F.total st.len) =
      F.pieces[k].length := by
    rw [hdata, sub32_eq (by omega) (by omega)]
    omega
  have hslice : slice (F.frag k).packet.packet ((F.frag k).headerIpOffset + (F.frag k).iphdrLen)
      F.pieces[k].length = F.pieces[k] := by
    rw [frag_iphdrLen hk]
    exact hf.data_eq
  have hround : copyHeaderPacket F.total F.count st (F.frag k) k =
      copyLastHeader F.total F.count k (F.frag k)
        { st.write F.pieces[k] with
          len := add32 st.len F.pieces[k].length,
          additionallen := add32 st.additionallen F.pieces[k].length } := by
    simp only [copyHeaderPacket, if_neg (show ¬k = 0 by omega), if_pos (show st.len < F.total by omega),
      hcpy, hslice]
  obtain ⟨h1, h2, h3, h4⟩ := copyLastHeader_frame F.total F.count k (F.frag k)
    { st.write F.pieces[k] with
      len := add32 st.len F.pieces[k].length,
      additionallen := add32 st.additionallen F.pieces[k].length }
  have hlen2 : add32 st.len F.pieces[k].length = st.len + F.pieces[k].length :=
    add32_eq (by omega)
  rw [hround]
  refine ⟨?_, ?_, ?_, ?_, ?_, ?_⟩
  · rw [h1]
    dsimp only
    omega
  · have hwl : (slice (F.frame 0).pkt.packet 0 ((F.frame 0).headerIpOffset + 20) ++
        (F.pieces.take k).flatten).length = st.len := by
      rw [List.length_append, length_slice (by omega), hlen]
      rfl
    rw [h1, h2]
    rw [hlen2, write_take _ hc.take_eq hwl, List.take_succ_eq_append_getElem hk]
    simp
  · rw [h2, ← hc.length_eq]
    exact length_write _ _ (by rw [hc.length_eq]; omega)
  · rw [h3]
    exact hc.iphdr_eq
  · rw [h4]
    change add32 st.additionallen F.pieces[k].length = _
    rw [hc.additional_eq, add32_eq (by omega)]
    omega
  · intro h
    exact copyLastHeader_lens _ _ _ _ _ (by omega)

lemma copied_all (path : PacketPath) (st : CopyState) (hlen : st.len = 0)
    (hadd : st.additionallen = 0) (hpacket : st.out.packet.length = F.total) :
    F.Copied F.count ((List.range F.count).foldl
      (fun st i => copyFrag path F.total F.count st (F.frag i) i) st) := by
  have hrounds : ∀ k, 0 < k → k ≤ F.count → F.Copied k ((List.range k).foldl
      (fun st i => copyFrag path F.total F.count st (F.frag i) i) st) := by
    intro k hk hkc
    induction k with
    | zero => omega
    | succ k ih =>
      rw [List.range_succ, List.foldl_append, List.foldl_cons, List.foldl_nil,
        copyFrag_eq (show k < F.count from hkc)]
      rcases Nat.eq_zero_or_pos k with rfl | hk'
      · exact copied_first st hlen hadd hpacket
      · exact (ih hk' (by omega)).next hk' hkc
  exact hrounds F.count F.count_pos le_rfl

theorem dequeue_eq {q : SFrags} {seen : List Nat} (hq : F.Queued seen q)
    (hb : ∀ i ∈ seen, i < F.count) (hall : ∀ i, i < F.count → i ∈ seen) (path : PacketPath) :
    (dequeue path q).packet = reassembledPacket (F.frame 0) F.payload ∧
      (dequeue path q).caplen = F.total ∧ (dequeue path q).len = F.total := by
  have hsnd : q.map.toList.map Prod.snd = (List.range F.count).map F.frag := by
    rw [hq.toList_eq hb, sortedSeen_eq_range hall, List.map_map]
    rfl
  unfold dequeue
  dsimp only
  rw [hsnd, totallen_eq, foldl_zipIdx_range (fun st frag i => copyFrag path F.total
    ((List.range F.count).map F.frag).length st frag i), List.length_map, List.length_range]
  set st := (List.range F.count).foldl
    (fun st i => copyFrag path F.total F.count st (F.frag i) i)
    { out := { caplen := 0, len := 0, packet := List.replicate F.total 0 } } with hst
  have hc : F.Copied F.count st := copied_all path _ rfl rfl (List.length_replicate)
  have hpos := F.count_pos
  have hf := F.isFragment 0 hpos
  have hcap := hf.captured
  have hcl := hf.caplen_eq
  have hfits := F.fits
  have htotal : F.total = (F.frame 0).headerIpOffset + 20 + F.payload.length := rfl
  have hoff : F.offset 1 = F.pieces[0].length := by
    have h := F.offset_succ hpos
    simp only [offset_zero, Nat.zero_add] at h
    exact h
  have hone : F.offset 1 ≤ F.payload.length := F.offset_le 1
  have hlen := hc.len_eq
  rw [F.offset_count] at hlen
  have hpacket : st.out.packet =
      slice (F.frame 0).pkt.packet 0 ((F.frame 0).headerIpOffset + 20) ++ F.payload := by
    have h := hc.take_eq
    rw [List.take_of_length_le (by rw [hc.length_eq]; omega)] at h
    rw [h, show F.count = F.pieces.length from rfl, List.take_length, F.flatten_eq]
  have hread : getTotLen st.out.packet (F.frame 0).headerIpOffset =
      20 + F.pieces[0].length := by
    rw [← hf.totLen_eq]
    unfold getTotLen be16
    rw [hpacket, byteAt_slice_append (by omega) (by omega),
      byteAt_slice_append (by omega) (by omega)]
  have hsum : add32 (getTotLen st.out.packet (F.frame 0).headerIpOffset) st.additionallen =
      20 + F.payload.length := by
    rw [hread, hc.additional_eq, F.offset_count, add32_eq (by omega)]
    omega
  unfold fixIphdr
  rw [hc.iphdr_eq]
  dsimp only
  refine ⟨?_, (hc.lens_eq rfl).1, (hc.lens_eq rfl).2⟩
  rw [hsum, hpacket]
  have hsplit := slice_append_slice (F.frame 0).pkt.packet 0 (F.frame 0).headerIpOffset 20
  have hl : (slice (F.frame 0).pkt.packet 0 (F.frame 0).headerIpOffset).length =
      (F.frame 0).headerIpOffset := length_slice (by omega)
  have hh : (slice (F.frame 0).pkt.packet (F.frame 0).headerIpOffset 20).length = 20 :=
    length_slice (by omega)
  rw [Nat.zero_add] at hsplit
  rw [← hsplit, reassembledPacket, ← fixHeader_eq _ hh]
  generalize slice (F.frame 0).pkt.packet 0 (F.frame 0).headerIpOffset = link at *
  generalize slice (F.frame 0).pkt.packet (F.frame 0).headerIpOffset 20 = hdr at *
  unfold clearFragData setCheck setTotLen
  rw [← hl, List.append_assoc, overwrite_append_right, overwrite_append_right,
    overwrite_append_right, overwrite_append_left, overwrite_append_left, overwrite_append_left,
    List.append_assoc]
  all_goals simp [overwrite, length_encodeBe16, hh]

end Fragmentation

end VoipMonitor.IpFrag
