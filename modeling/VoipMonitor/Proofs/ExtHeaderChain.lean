import VoipMonitor.Proofs.IpHeaderRewrite
import VoipMonitor.Proofs.TransportPayload

/-!
# Measuring a chain of extension headers

The walk takes the length field of an options header for its size in bytes. A chain of fragment
headers is measured as it is. With an options header in it the result is right only when the bytes,
counted that way, happen to form a chain with the same end.
-/

namespace VoipMonitor.ExtHeaders
open VoipMonitor.Library VoipMonitor.IpDefrag

/-! ## Packets -/

/-- A header of options or of routing: its type, its length field in units of 8 bytes without the
first unit, and what stands behind the two fields. -/
structure OptionsHeader where
  headerId : Nat
  lenField : UInt8
  data : Bytes
  headerId_mem : headerId = 0 ∨ headerId = 43 ∨ headerId = 60
  length_data : data.length + 2 = 8 * (lenField.toNat + 1)

structure FragmentHeader where
  data : Bytes
  length_data : data.length = 7

inductive ChainHeader
  | options (h : OptionsHeader)
  | fragment (h : FragmentHeader)

namespace ChainHeader

def headerId : ChainHeader → Nat
  | options h => h.headerId
  | fragment _ => ipprotoFragment

def length : ChainHeader → Nat
  | options h => 8 * (h.lenField.toNat + 1)
  | fragment _ => 8

def isFragment : ChainHeader → Bool
  | options _ => false
  | fragment _ => true

/-- The header with the type of the next one. -/
def bytes (nxt : Nat) : ChainHeader → Bytes
  | options h => UInt8.ofNat nxt :: h.lenField :: h.data
  | fragment h => UInt8.ofNat nxt :: h.data

lemma length_bytes (nxt : Nat) (h : ChainHeader) : (h.bytes nxt).length = h.length := by
  cases h with
  | options h => exact h.length_data
  | fragment h => exact congrArg (· + 1) h.length_data

lemma headerId_lt (h : ChainHeader) : h.headerId < 256 := by
  cases h with
  | options h =>
    change h.headerId < 256
    rcases h.headerId_mem with hid | hid | hid <;> omega
  | fragment h => exact (by decide : 44 < 256)

end ChainHeader

def firstType (proto : Nat) : List ChainHeader → Nat
  | [] => proto
  | h :: _ => h.headerId

def chainBytes (proto : Nat) : List ChainHeader → Bytes
  | [] => []
  | h :: chain => h.bytes (firstType proto chain) ++ chainBytes proto chain

def chainLength (chain : List ChainHeader) : Nat := (chain.map ChainHeader.length).sum

def fragmentOffset : Nat → List ChainHeader → Option Nat
  | _, [] => none
  | offset, h :: chain =>
    if h.isFragment then some offset else fragmentOffset (offset + h.length) chain

/-- A packet of version 6: the six bytes of its header before the next header field and the 33
bytes behind it, the extension headers and what follows. The fields that the walk does not read may
have any values. -/
structure ChainPacket where
  front : Bytes
  head : Bytes
  tail : Bytes
  chain : List ChainHeader
  proto : Nat
  payload : Bytes
  length_head : head.length = 6
  length_tail : tail.length = 33
  length_chain : chain.length ≤ ip6ExtHeadersMax
  proto_lt : proto < 256
  proto_upper : isExtHeader proto = false

namespace ChainPacket
variable (k : ChainPacket)

def first : Nat := firstType k.proto k.chain

def before : Bytes := k.front ++ (k.head ++ UInt8.ofNat k.first :: k.tail)

def packet : Bytes := k.before ++ (chainBytes k.proto k.chain ++ k.payload)

def ip : Nat := k.front.length

/-- The calls return the length of the headers, the protocol behind them and the offset of the first
fragment header. The room in the array bounds the rounds. -/
def Measured : Prop :=
  ∀ fuel > ip6ExtHeadersMax,
    getExtHeadersLen k.packet k.ip fuel = some ⟨chainLength k.chain, some k.proto⟩ ∧
    getExtHeaderOffset k.packet k.ip ipprotoFragment fuel =
      some ((fragmentOffset sizeofIp6hdr2 k.chain).getD 65535)

end ChainPacket

/-- Headers from the place on, each with its place, when the length field of an options header
counts bytes: the place behind them and the protocol. -/
inductive ByteCounted (p : Bytes) : Nat → Nat → List (Nat × Nat) → Nat → Nat → Prop
  | upper {pos proto : Nat} (hext : isExtHeader proto = false) : ByteCounted p pos proto [] pos proto
  | header {pos nxt stop proto : Nat} {headers : List (Nat × Nat)} (hext : isExtHeader nxt = true)
      (hsize : getExtHeaderSize p pos nxt ≠ 0)
      (hrest : ByteCounted p (pos + getExtHeaderSize p pos nxt) (byteAt p pos) headers stop proto) :
      ByteCounted p pos nxt ((nxt, pos) :: headers) stop proto

def firstFragment (headers : List (Nat × Nat)) : Option Nat :=
  (headers.find? (fun h => h.1 = ipprotoFragment)).map Prod.snd

/-- The bytes of the chain, with length fields that count bytes, happen to form a chain with the
same end, the same protocol and the same first fragment header. -/
def ChainPacket.CountedInBytes (k : ChainPacket) : Prop :=
  ∃ headers, headers.length ≤ ip6ExtHeadersMax ∧
    ByteCounted k.packet (k.ip + sizeofIp6hdr2) k.first headers
      (k.ip + sizeofIp6hdr2 + chainLength k.chain) k.proto ∧
    firstFragment headers = fragmentOffset (k.ip + sizeofIp6hdr2) k.chain

/-! ## The calls and the chain that the walk finds -/

section Found
variable {p : Bytes} {o : Nat}

lemma extHeadersFrom_upper {nxt : Nat} (hext : isExtHeader nxt = false) (hne : nxt ≠ 255)
    (room pos : Nat) : extHeadersFrom p room pos nxt = some ⟨[], pos, nxt⟩ := by
  cases room with
  | zero => rw [extHeadersFrom, hext, if_neg Bool.false_ne_true, if_neg hne]
  | succ room => rw [extHeadersFrom, hext, if_neg Bool.false_ne_true, if_neg hne]

lemma extHeadersFrom_header {room pos nxt : Nat} (hext : isExtHeader nxt = true)
    (hsize : getExtHeaderSize p pos nxt ≠ 0) :
    extHeadersFrom p (room + 1) pos nxt =
      (extHeadersFrom p room (pos + getExtHeaderSize p pos nxt) (byteAt p pos)).map
        (fun e => { e with headers := (nxt, pos) :: e.headers }) := by
  rw [extHeadersFrom, if_pos hext, if_neg hsize]

lemma extHeadersFrom_empty {pos nxt : Nat} (hext : isExtHeader nxt = true)
    (hsize : getExtHeaderSize p pos nxt = 0) (room : Nat) : extHeadersFrom p room pos nxt = none := by
  cases room with
  | zero => rw [extHeadersFrom, if_pos hext, if_pos hsize]
  | succ room => rw [extHeadersFrom, if_pos hext, if_pos hsize]

lemma extHeadersFrom_full {nxt : Nat} (hext : isExtHeader nxt = true) (pos : Nat) :
    extHeadersFrom p 0 pos nxt = none := by
  by_cases hsize : getExtHeaderSize p pos nxt = 0
  · exact extHeadersFrom_empty hext hsize 0
  · rw [extHeadersFrom, if_pos hext, if_neg hsize]

theorem extHeadersFrom_eq_some_iff {room pos nxt : Nat} {e : ExtHeaders} :
    extHeadersFrom p room pos nxt = some e ↔
      ByteCounted p pos nxt e.headers e.stop e.proto ∧ e.headers.length ≤ room ∧ e.proto ≠ 255 := by
  constructor
  · intro h
    induction room generalizing pos nxt e with
    | zero =>
      rcases extHeadersFrom_cases h with ⟨hext, hne, rfl⟩ | ⟨room', e', -, hroom, -⟩
      · exact ⟨.upper hext, le_rfl, hne⟩
      · omega
    | succ room ih =>
      rcases extHeadersFrom_cases h with ⟨hext, hne, rfl⟩ | ⟨room', e', hext, hroom, hsize, he', rfl⟩
      · exact ⟨.upper hext, Nat.zero_le _, hne⟩
      · obtain rfl : room = room' := by omega
        obtain ⟨hrest, hlen, hne⟩ := ih he'
        exact ⟨.header hext hsize.ne' hrest, Nat.succ_le_succ hlen, hne⟩
  · obtain ⟨headers, stop, proto⟩ := e
    rintro ⟨h, hlen, hne⟩
    dsimp only at h hlen hne
    induction h generalizing room with
    | upper hext => exact extHeadersFrom_upper hext hne room _
    | header hext hsize _ ih =>
      cases room with
      | zero => exact absurd hlen (Nat.not_succ_le_zero _)
      | succ room => rw [extHeadersFrom_header hext hsize, ih (Nat.le_of_succ_le_succ hlen) hne]; rfl

lemma upper_eq {room pos nxt : Nat} (hext : isExtHeader nxt = false) (types : List Nat) :
    (∃ e, extHeadersFrom p room pos nxt = some e ∧
      some (Walk.mk nxt types) = some ⟨e.proto, types ++ e.headers.map Prod.fst⟩) ∨
    (extHeadersFrom p room pos nxt = none ∧
      ∃ types', some (Walk.mk nxt types) = some ⟨255, types'⟩) := by
  by_cases hne : nxt = 255
  · right
    subst hne
    refine ⟨?_, types, rfl⟩
    cases room with
    | zero => rw [extHeadersFrom, hext, if_neg Bool.false_ne_true, if_pos rfl]
    | succ room => rw [extHeadersFrom, hext, if_neg Bool.false_ne_true, if_pos rfl]
  · left
    refine ⟨_, extHeadersFrom_upper hext hne room pos, ?_⟩
    rw [List.map_nil, List.append_nil]

lemma walkLoop_array_eq {max room fuel offset nxt : Nat} {types : List Nat} (hfuel : room < fuel)
    (hroom : types.length + room = max) (hoffset : offset + 255 * room < 2 ^ 16) :
    (∃ e, extHeadersFrom p room (o + sizeofIp6hdr2 + offset) nxt = some e ∧
      walkLoop p o (some max) fuel nxt offset types =
        some ⟨e.proto, types ++ e.headers.map Prod.fst⟩) ∨
    (extHeadersFrom p room (o + sizeofIp6hdr2 + offset) nxt = none ∧
      ∃ types', walkLoop p o (some max) fuel nxt offset types = some ⟨255, types'⟩) := by
  induction room generalizing fuel offset nxt types with
  | zero =>
    obtain ⟨fuel, rfl⟩ := Nat.exists_eq_succ_of_ne_zero (by omega : fuel ≠ 0)
    cases hext : isExtHeader nxt with
    | false =>
      rw [walkLoop_upper (s := (nxt, offset)) hext]
      exact upper_eq hext types
    | true =>
      refine Or.inr ⟨extHeadersFrom_full hext _, types, ?_⟩
      exact walkLoop_full (s := (nxt, offset)) hext fuel (by omega)
  | succ room ih =>
    obtain ⟨fuel, rfl⟩ := Nat.exists_eq_succ_of_ne_zero (by omega : fuel ≠ 0)
    cases hext : isExtHeader nxt with
    | false =>
      rw [walkLoop_upper (s := (nxt, offset)) hext]
      exact upper_eq hext types
    | true =>
      by_cases hsize : getExtHeaderSize p (o + sizeofIp6hdr2 + offset) nxt = 0
      · refine Or.inr ⟨extHeadersFrom_empty hext hsize _, types, ?_⟩
        exact walkLoop_empty (s := (nxt, offset)) hext hsize _ fuel types
      · have hle := getExtHeaderSize_le p (o + sizeofIp6hdr2 + offset) nxt
        have hnext : (offset + getExtHeaderSize p (o + sizeofIp6hdr2 + offset) nxt) % 2 ^ 16 =
            offset + getExtHeaderSize p (o + sizeofIp6hdr2 + offset) nxt :=
          Nat.mod_eq_of_lt (by omega)
        have hwalk := walkLoop_room (p := p) (o := o) (s := (nxt, offset)) hext hsize fuel
          (by omega : types.length < max)
        change _ = walkLoop p o (some max) fuel (byteAt p (o + sizeofIp6hdr2 + offset))
          ((offset + getExtHeaderSize p (o + sizeofIp6hdr2 + offset) nxt) % 2 ^ 16) _ at hwalk
        rw [hnext] at hwalk
        have hlen : (types ++ [nxt]).length + room = max := by
          rw [List.length_append, List.length_singleton]
          omega
        rw [extHeadersFrom_header hext hsize, hwalk, Nat.add_assoc (o + sizeofIp6hdr2) offset]
        have hfits : offset + getExtHeaderSize p (o + sizeofIp6hdr2 + offset) nxt + 255 * room <
            2 ^ 16 := by omega
        rcases ih (Nat.lt_of_succ_lt_succ hfuel) hlen hfits with ⟨e, he, hrest⟩ | ⟨hnone, types', hrest⟩
        · refine Or.inl ⟨_, congrArg _ he, hrest.trans ?_⟩
          rw [List.append_assoc]
          rfl
        · exact Or.inr ⟨congrArg _ hnone, types', hrest⟩

lemma ByteCounted.le {pos nxt stop proto : Nat} {headers : List (Nat × Nat)}
    (h : ByteCounted p pos nxt headers stop proto) : pos ≤ stop := by
  induction h with
  | upper => exact le_rfl
  | header _ _ _ ih => omega

lemma addSizes_eq {pos nxt stop proto size : Nat} {headers : List (Nat × Nat)}
    (h : ByteCounted p pos nxt headers stop proto) (hpos : pos = o + sizeofIp6hdr2 + size)
    (hstop : stop < o + sizeofIp6hdr2 + 2 ^ 16) :
    addSizes p o size (headers.map Prod.fst) = stop - (o + sizeofIp6hdr2) := by
  induction h generalizing size with
  | upper =>
    rw [hpos, Nat.add_sub_cancel_left]
    rfl
  | @header pos nxt stop proto headers _ _ hrest ih =>
    have hle := hrest.le
    subst hpos
    change addSizes p o ((size + getExtHeaderSize p (o + sizeofIp6hdr2 + size) nxt) % 2 ^ 16) _ = _
    rw [Nat.mod_eq_of_lt (by omega)]
    exact ih (Nat.add_assoc _ _ _) hstop

lemma offsetLoop_eq {pos nxt stop proto offset : Nat} {headers : List (Nat × Nat)} (headerId : Nat)
    (h : ByteCounted p pos nxt headers stop proto) (hpos : pos = o + offset)
    (hstop : stop < o + 2 ^ 16) :
    offsetLoop p o headerId offset (headers.map Prod.fst) =
      (headers.find? (fun x => x.1 = headerId)).elim 65535 (fun x => x.2 - o) := by
  induction h generalizing offset with
  | upper => rfl
  | @header pos nxt stop proto headers _ _ hrest ih =>
    have hle := hrest.le
    subst hpos
    change (if nxt = headerId then offset else
      offsetLoop p o headerId ((offset + getExtHeaderSize p (o + offset) nxt) % 2 ^ 16)
        (headers.map Prod.fst)) = _
    by_cases hid : nxt = headerId
    · rw [if_pos hid, List.find?_cons_of_pos (by simpa using hid)]
      exact (Nat.add_sub_cancel_left o offset).symm
    · rw [if_neg hid, List.find?_cons_of_neg (by simpa using hid), Nat.mod_eq_of_lt (by omega)]
      exact ih (Nat.add_assoc _ _ _) hstop

lemma getExtHeaders_array (p : Bytes) (o : Nat) {fuel : Nat} (hfuel : ip6ExtHeadersMax < fuel) :
    (∃ e, IpDefrag.getExtHeaders p o = some e ∧
      getExtHeaders p o (some ip6ExtHeadersMax) fuel = some ⟨e.proto, e.headers.map Prod.fst⟩) ∨
    (IpDefrag.getExtHeaders p o = none ∧
      ∃ types, getExtHeaders p o (some ip6ExtHeadersMax) fuel = some ⟨255, types⟩) :=
  @walkLoop_array_eq p o 10 10 fuel 0 (byteAt p (o + 6)) [] hfuel rfl (by decide)

lemma found_stop_lt {e : ExtHeaders} (he : IpDefrag.getExtHeaders p o = some e) :
    e.stop < o + 2 ^ 16 := by
  have hstop := (extHeadersFrom_stop he).2
  unfold sizeofIp6hdr2 ip6ExtHeadersMax at hstop
  omega

theorem getExtHeadersLen_eq (p : Bytes) (o : Nat) {fuel : Nat} (hfuel : ip6ExtHeadersMax < fuel) :
    getExtHeadersLen p o fuel =
      some ((IpDefrag.getExtHeaders p o).elim ⟨65535, none⟩
        (fun e => ⟨e.stop - (o + sizeofIp6hdr2), some e.proto⟩)) := by
  rcases getExtHeaders_array p o hfuel with ⟨e, he, hwalk⟩ | ⟨hnone, types, hwalk⟩
  · obtain ⟨hcounted, -, hne⟩ := extHeadersFrom_eq_some_iff.mp he
    have hstop := found_stop_lt he
    have hsum : addSizes p o 0 (e.headers.map Prod.fst) = e.stop - (o + sizeofIp6hdr2) :=
      addSizes_eq hcounted rfl (by omega)
    rw [getExtHeadersLen, hwalk, he, Option.map_some, if_neg hne, hsum]
    rfl
  · rw [getExtHeadersLen, hwalk, hnone]
    rfl

theorem getExtHeaderOffset_eq (p : Bytes) (o headerId : Nat) {fuel : Nat}
    (hfuel : ip6ExtHeadersMax < fuel) :
    getExtHeaderOffset p o headerId fuel =
      some ((IpDefrag.getExtHeaders p o).elim 65535 (fun e =>
        (e.headers.find? (fun x => x.1 = headerId)).elim 65535 (fun x => x.2 - o))) := by
  rcases getExtHeaders_array p o hfuel with ⟨e, he, hwalk⟩ | ⟨hnone, types, hwalk⟩
  · obtain ⟨hcounted, -, hne⟩ := extHeadersFrom_eq_some_iff.mp he
    have hloop := offsetLoop_eq headerId hcounted rfl (found_stop_lt he)
    rw [getExtHeaderOffset, hwalk, he, Option.map_some, Option.elim_some, ← hloop]
    by_cases hempty : e.headers.map Prod.fst = []
    · rw [if_pos (Or.inr hempty), hempty]
      rfl
    · rw [if_neg (not_or.mpr ⟨hne, hempty⟩)]
  · rw [getExtHeaderOffset, hwalk, hnone]
    rfl

end Found

/-! ## The offset of the first fragment header -/

lemma fragmentOffset_add (a n : Nat) (chain : List ChainHeader) :
    fragmentOffset (a + n) chain = (fragmentOffset n chain).map (a + ·) := by
  induction chain generalizing n with
  | nil => rfl
  | cons h chain ih =>
    cases hfragment : h.isFragment with
    | true => rw [fragmentOffset, fragmentOffset, hfragment, if_pos rfl, if_pos rfl, Option.map_some]
    | false =>
      rw [fragmentOffset, fragmentOffset, hfragment, if_neg Bool.false_ne_true,
        if_neg Bool.false_ne_true, Nat.add_assoc, ih]

lemma length_le (h : ChainHeader) : h.length ≤ 2048 := by
  cases h with
  | options h =>
    have hlt := h.lenField.toNat_lt
    change 8 * (h.lenField.toNat + 1) ≤ 2048
    omega
  | fragment h => exact (by decide : 8 ≤ 2048)

lemma fragmentOffset_le {n q : Nat} {chain : List ChainHeader}
    (h : fragmentOffset n chain = some q) : q ≤ n + 2048 * chain.length := by
  induction chain generalizing n with
  | nil => cases h
  | cons x chain ih =>
    rw [List.length_cons]
    rw [fragmentOffset] at h
    split at h
    · obtain rfl := Option.some.inj h
      omega
    · have hrest := ih h
      have hlen := length_le x
      omega

section Packet
variable (k : ChainPacket)

/-- The headers that the walk finds have the end, the protocol and the first fragment header of the
chain. -/
def ChainPacket.Finds (e : ExtHeaders) : Prop :=
  e.stop = k.ip + sizeofIp6hdr2 + chainLength k.chain ∧ e.proto = k.proto ∧
    firstFragment e.headers = fragmentOffset (k.ip + sizeofIp6hdr2) k.chain

lemma offset_eq_iff {e : ExtHeaders} (he : IpDefrag.getExtHeaders k.packet k.ip = some e) :
    (e.headers.find? (fun x => x.1 = ipprotoFragment)).elim 65535 (fun x => x.2 - k.ip) =
        (fragmentOffset sizeofIp6hdr2 k.chain).getD 65535 ↔
      firstFragment e.headers = fragmentOffset (k.ip + sizeofIp6hdr2) k.chain := by
  have hmax := k.length_chain
  unfold ip6ExtHeadersMax at hmax
  have hreal : ∀ q, fragmentOffset sizeofIp6hdr2 k.chain = some q → q < 65535 := by
    intro q hq
    have hle := fragmentOffset_le hq
    unfold sizeofIp6hdr2 at hle
    omega
  rw [firstFragment, fragmentOffset_add]
  cases hfind : e.headers.find? (fun x => x.1 = ipprotoFragment) with
  | none =>
    cases hoffset : fragmentOffset sizeofIp6hdr2 k.chain with
    | none => exact iff_of_true rfl rfl
    | some q =>
      have hq := hreal q hoffset
      refine iff_of_false ?_ (by simp)
      change ¬65535 = q
      omega
  | some x =>
    have hmem := extHeadersFrom_mem he (List.mem_of_find?_eq_some hfind)
    have hstop := (extHeadersFrom_stop he).2
    unfold sizeofIp6hdr2 ip6ExtHeadersMax at hstop
    unfold sizeofIp6hdr2 at hmem
    cases hoffset : fragmentOffset sizeofIp6hdr2 k.chain with
    | none =>
      refine iff_of_false ?_ (by simp)
      change ¬x.2 - k.ip = 65535
      omega
    | some q =>
      rw [Option.map_some, Option.map_some, Option.some_inj]
      change x.2 - k.ip = q ↔ x.2 = k.ip + q
      omega

lemma measured_iff_finds :
    k.Measured ↔ ∃ e, IpDefrag.getExtHeaders k.packet k.ip = some e ∧ k.Finds e := by
  constructor
  · intro h
    obtain ⟨hlen, hoffset⟩ := h (ip6ExtHeadersMax + 1) (Nat.lt_succ_self _)
    rw [getExtHeadersLen_eq _ _ (Nat.lt_succ_self _)] at hlen
    rw [getExtHeaderOffset_eq _ _ _ (Nat.lt_succ_self _)] at hoffset
    cases hfound : IpDefrag.getExtHeaders k.packet k.ip with
    | none =>
      rw [hfound] at hlen
      have hproto : none = some k.proto := congrArg HeadersLen.proto (Option.some.inj hlen)
      cases hproto
    | some e =>
      rw [hfound] at hlen hoffset
      have hle := (extHeadersFrom_stop hfound).1
      obtain ⟨hsize, hproto⟩ := HeadersLen.mk.inj (Option.some.inj hlen)
      refine ⟨e, rfl, ?_, Option.some.inj hproto, ?_⟩
      · omega
      · exact (offset_eq_iff k hfound).mp (Option.some.inj hoffset)
  · rintro ⟨e, he, hstop, hproto, hfirst⟩ fuel hfuel
    rw [getExtHeadersLen_eq _ _ hfuel, getExtHeaderOffset_eq _ _ _ hfuel, he, Option.elim_some,
      Option.elim_some, hstop, Nat.add_sub_cancel_left, hproto]
    exact ⟨rfl, congrArg some ((offset_eq_iff k he).mpr hfirst)⟩

lemma firstType_lt {proto : Nat} (hproto : proto < 256) (chain : List ChainHeader) :
    firstType proto chain < 256 := by
  cases chain with
  | nil => exact hproto
  | cons h chain => exact h.headerId_lt

lemma length_before : k.before.length = k.ip + sizeofIp6hdr2 := by
  rw [ChainPacket.before, List.length_append, List.length_append, List.length_cons, k.length_head,
    k.length_tail]
  rfl

lemma byteAt_first : byteAt k.packet (k.ip + 6) = k.first := by
  have hfront := byteAt_append_right k.front
    (k.head ++ (UInt8.ofNat k.first :: k.tail ++ (chainBytes k.proto k.chain ++ k.payload))) 6
  have hhead := byteAt_append_right k.head
    (UInt8.ofNat k.first :: k.tail ++ (chainBytes k.proto k.chain ++ k.payload)) 0
  rw [k.length_head] at hhead
  rw [ChainPacket.packet, ChainPacket.before, List.append_assoc, List.append_assoc, ChainPacket.ip,
    hfront, hhead]
  exact UInt8.toNat_ofNat_of_lt (firstType_lt k.proto_lt k.chain)

lemma measured_iff_countedInBytes : k.Measured ↔ k.proto ≠ 255 ∧ k.CountedInBytes := by
  have hfirst := byteAt_first k
  rw [measured_iff_finds]
  constructor
  · rintro ⟨e, he, hstop, hproto, hfragment⟩
    obtain ⟨hcounted, hlen, hne⟩ := extHeadersFrom_eq_some_iff.mp he
    rw [hfirst, hstop, hproto] at hcounted
    exact ⟨hproto ▸ hne, e.headers, hlen, hcounted, hfragment⟩
  · rintro ⟨hne, headers, hlen, hcounted, hfragment⟩
    rw [← hfirst] at hcounted
    exact ⟨⟨headers, _, k.proto⟩, extHeadersFrom_eq_some_iff.mpr ⟨hcounted, hlen, hne⟩, rfl, rfl,
      hfragment⟩

end Packet

/-! ## Chains of fragment headers -/

lemma counted_of_fragments {proto : Nat} (hproto : proto < 256) (hupper : isExtHeader proto = false)
    {chain : List ChainHeader} (hall : ∀ h ∈ chain, h.isFragment = true) (before rest : Bytes) :
    ∃ headers, headers.length = chain.length ∧
      ByteCounted (before ++ (chainBytes proto chain ++ rest)) before.length
        (firstType proto chain) headers (before.length + chainLength chain) proto ∧
      firstFragment headers = fragmentOffset before.length chain := by
  induction chain generalizing before with
  | nil => exact ⟨[], rfl, .upper hupper, rfl⟩
  | cons h chain ih =>
    cases h with
    | options h => exact absurd (hall _ List.mem_cons_self) Bool.false_ne_true
    | fragment h =>
      have hbytes : before ++ (chainBytes proto (.fragment h :: chain) ++ rest) =
          before ++ (ChainHeader.fragment h).bytes (firstType proto chain) ++
            (chainBytes proto chain ++ rest) := by
        simp only [chainBytes, List.append_assoc]
      have hlength : (before ++ (ChainHeader.fragment h).bytes (firstType proto chain)).length =
          before.length + 8 := by
        rw [List.length_append, ChainHeader.length_bytes]
        rfl
      have hnext : byteAt (before ++ (chainBytes proto (.fragment h :: chain) ++ rest))
          before.length = firstType proto chain := by
        have hbyte := byteAt_append_right before (chainBytes proto (.fragment h :: chain) ++ rest) 0
        rw [Nat.add_zero] at hbyte
        rw [hbyte]
        exact UInt8.toNat_ofNat_of_lt (firstType_lt hproto chain)
      obtain ⟨headers, hlen, hcounted, -⟩ :=
        ih (fun x hx => hall x (List.mem_cons_of_mem _ hx))
          (before ++ (ChainHeader.fragment h).bytes (firstType proto chain))
      rw [← hbytes, hlength, Nat.add_assoc] at hcounted
      refine ⟨(ipprotoFragment, before.length) :: headers, congrArg (· + 1) hlen, ?_, rfl⟩
      refine .header rfl (show 8 ≠ 0 by decide) ?_
      rw [hnext]
      exact hcounted

/-- A chain of fragment headers is measured when its protocol is not the value that stands for a
failure. A chain with an options header is measured only when its bytes, with length fields that
count bytes, happen to form a chain with the same result. -/
theorem measured_iff (k : ChainPacket) :
    k.Measured ↔
      k.proto ≠ 255 ∧ ((∀ h ∈ k.chain, h.isFragment = true) ∨ k.CountedInBytes) := by
  rw [measured_iff_countedInBytes]
  refine and_congr_right (fun _ => (or_iff_right_of_imp ?_).symm)
  intro hall
  obtain ⟨headers, hlen, hcounted, hfragment⟩ :=
    counted_of_fragments k.proto_lt k.proto_upper hall k.before k.payload
  rw [length_before] at hcounted hfragment
  exact ⟨headers, hlen ▸ k.length_chain, hcounted, hfragment⟩

def hopByHopPacket : ChainPacket where
  front := []
  head := [0x60, 0, 0, 0, 0, 16]
  tail := 64 :: List.replicate 32 0
  chain := [.options
    { headerId := 0
      lenField := 0
      data := [1, 4, 0, 0, 0, 0]
      headerId_mem := Or.inl rfl
      length_data := rfl }]
  proto := 17
  payload := [0x13, 0xC4, 0x13, 0xC4, 0, 8, 0, 0]
  length_head := rfl
  length_tail := rfl
  length_chain := by decide
  proto_lt := by decide
  proto_upper := by decide

/-- The length field 0 is taken for the end of the chain. -/
theorem not_measured_hopByHop : ¬hopByHopPacket.Measured := by
  intro h
  have hlen : getExtHeadersLen hopByHopPacket.packet 0 11 ≠ some ⟨8, some 17⟩ := by decide
  exact hlen (h 11 (by decide)).1

end VoipMonitor.ExtHeaders
