import VoipMonitor.Model.Diameter

/-!
# The AVPs of a Diameter message

A forest of AVPs is encoded with a length of 24 bits that leaves out the padding of the AVP
itself. `parse` gives back the leaves of the forest, depth first.
-/

namespace VoipMonitor.Diameter
open VoipMonitor.Library

def GroupCode (code : Nat) : Prop :=
  code = 456 ∨ code = 651 ∨ code = 700 ∨ code = 873 ∨ code = 876

/-- An AVP: its code, the flags other than the one for the vendor, the vendor, and a payload or
the AVPs of a group. -/
inductive Avp where
  | leaf (code : UInt32) (flags : Fin 128) (vendor : Option UInt32) (payload : Bytes)
  | group (code : UInt32) (flags : Fin 128) (vendor : Option UInt32) (members : List Avp)

def headerLen (vendor : Option UInt32) : Nat := if vendor.isSome then 12 else 8

def avpHeader (code : UInt32) (flags : Fin 128) (vendor : Option UInt32) (n : Nat) : Bytes :=
  encodeBe32 code.toNat ++
    (UInt8.ofNat (flags.val + if vendor.isSome then 128 else 0) ::
      (encodeBe24 (headerLen vendor + n) ++ (vendor.elim [] (fun v => encodeBe32 v.toNat))))

def padding (n : Nat) : Bytes := List.replicate ((4 - n % 4) % 4) 0

mutual

def Avp.encode : Avp → Bytes
  | .leaf code flags vendor payload =>
    avpHeader code flags vendor payload.length ++ (payload ++ padding payload.length)
  | .group code flags vendor members =>
    avpHeader code flags vendor (encodeAll members).length ++ encodeAll members

def encodeAll : List Avp → Bytes
  | [] => []
  | a :: forest => a.encode ++ encodeAll forest

end

mutual

/-- The leaves, depth first. -/
def Avp.leaves : Avp → List DataItem
  | .leaf code _ _ payload => [⟨code.toNat, payload.length, payload⟩]
  | .group _ _ _ members => leavesAll members

def leavesAll : List Avp → List DataItem
  | [] => []
  | a :: forest => a.leaves ++ leavesAll forest

end

mutual

def Avp.Ok : Avp → Prop
  | .leaf code _ _ payload => ¬GroupCode code.toNat ∧ 1 ≤ payload.length ∧ payload.length ≤ 16383
  | .group code _ _ members => GroupCode code.toNat ∧ AllOk members

def AllOk : List Avp → Prop
  | [] => True
  | a :: forest => a.Ok ∧ AllOk forest

end

def encodeMessage (version : UInt8) (fields : Bytes) (forest : List Avp) : Bytes :=
  version :: (encodeBe24 (headerSize + (encodeAll forest).length) ++ (fields ++ encodeAll forest))

/-! ## Lengths -/

lemma length_avpHeader (code : UInt32) (flags : Fin 128) (vendor : Option UInt32) (n : Nat) :
    (avpHeader code flags vendor n).length = headerLen vendor := by
  cases vendor with
  | none => rfl
  | some v => rfl

lemma headerLen_mod (vendor : Option UInt32) : headerLen vendor % 4 = 0 := by
  cases vendor with
  | none => rfl
  | some v => exact (by decide : 12 % 4 = 0)

lemma le_headerLen (vendor : Option UInt32) : 8 ≤ headerLen vendor := by
  cases vendor with
  | none => exact le_rfl
  | some v => exact (by decide : 8 ≤ 12)

lemma length_padding (n : Nat) : (padding n).length = (4 - n % 4) % 4 := List.length_replicate

mutual

lemma length_encode_mod : ∀ a : Avp, a.encode.length % 4 = 0
  | .leaf code flags vendor payload => by
    have hheader := headerLen_mod vendor
    rw [Avp.encode, List.length_append, List.length_append, length_avpHeader, length_padding]
    omega
  | .group code flags vendor members => by
    have hheader := headerLen_mod vendor
    have hmembers := length_encodeAll_mod members
    rw [Avp.encode, List.length_append, length_avpHeader]
    omega

lemma length_encodeAll_mod : ∀ forest : List Avp, (encodeAll forest).length % 4 = 0
  | [] => rfl
  | a :: forest => by
    have ha := length_encode_mod a
    have hforest := length_encodeAll_mod forest
    rw [encodeAll, List.length_append]
    omega

end

lemma le_length_encode (a : Avp) : 8 ≤ a.encode.length := by
  cases a with
  | leaf code flags vendor payload =>
    have hheader := le_headerLen vendor
    rw [Avp.encode, List.length_append, length_avpHeader]
    omega
  | group code flags vendor members =>
    have hheader := le_headerLen vendor
    rw [Avp.encode, List.length_append, length_avpHeader]
    omega

lemma encodeAll_eq_nil {forest : List Avp} (h : (encodeAll forest).length = 0) : forest = [] := by
  cases forest with
  | nil => rfl
  | cons a forest =>
    have ha := le_length_encode a
    rw [encodeAll, List.length_append] at h
    omega

lemma leaves_of_length {a : Avp} (hok : a.Ok) (h : a.encode.length ≤ 8) : a.leaves = [] := by
  cases a with
  | leaf code flags vendor payload =>
    have hheader := le_headerLen vendor
    have hpayload := hok.2.1
    rw [Avp.encode, List.length_append, List.length_append, length_avpHeader] at h
    omega
  | group code flags vendor members =>
    have hheader := le_headerLen vendor
    rw [Avp.encode, List.length_append, length_avpHeader] at h
    rw [Avp.leaves, encodeAll_eq_nil (by omega : (encodeAll members).length = 0), leavesAll]

/-! ## The fields of an encoded AVP -/

section fields

variable (code : UInt32) (flags : Fin 128) (vendor : Option UInt32) {n : Nat} (r : Bytes)
  (datalen : Nat)

lemma code_avpHeader : DiameterAvp.code ⟨avpHeader code flags vendor n ++ r, datalen⟩ = code.toNat := by
  unfold DiameterAvp.code avpHeader
  rw [List.append_assoc]
  exact be32_encodeBe32 code.toNat_lt _

lemma flags_avpHeader : DiameterAvp.flags ⟨avpHeader code flags vendor n ++ r, datalen⟩ =
    flags.val + if vendor.isSome then 128 else 0 := by
  have hflags : DiameterAvp.flags ⟨avpHeader code flags vendor n ++ r, datalen⟩ =
      (flags.val + if vendor.isSome then 128 else 0) % 256 := UInt8.toNat_ofNat'
  rw [hflags]
  split
  · omega
  · omega

lemma headerLength_avpHeader :
    DiameterAvp.headerLength ⟨avpHeader code flags vendor n ++ r, datalen⟩ = headerLen vendor := by
  unfold DiameterAvp.headerLength DiameterAvp.hasVendor
  rw [flags_avpHeader]
  cases vendor with
  | none =>
    rw [if_neg (by simp only [Option.isSome_none, decide_eq_true_eq]; simp; omega)]
    rfl
  | some v =>
    rw [if_pos (by simp only [Option.isSome_some, decide_eq_true_eq]; simp; omega)]
    rfl

lemma length_fieldAvpHeader (hn : headerLen vendor + n < 2 ^ 24) :
    DiameterAvp.length ⟨avpHeader code flags vendor n ++ r, datalen⟩ = headerLen vendor + n := by
  have hfield := be24_encodeBe24 hn (vendor.elim [] (fun v => encodeBe32 v.toNat) ++ r)
  rw [← List.append_assoc] at hfield
  exact hfield

lemma payload_avpHeader :
    DiameterAvp.payload ⟨avpHeader code flags vendor n ++ r, datalen⟩ = r := by
  unfold DiameterAvp.payload
  rw [headerLength_avpHeader]
  exact List.drop_left' (length_avpHeader code flags vendor n)

lemma payloadLen_avpHeader (hn : headerLen vendor + n < 2 ^ 24) :
    DiameterAvp.payloadLen ⟨avpHeader code flags vendor n ++ r, datalen⟩ = n := by
  unfold DiameterAvp.payloadLen
  rw [headerLength_avpHeader, length_fieldAvpHeader _ _ _ _ _ hn]
  split
  · omega
  · omega

lemma realLength_avpHeader (hn : headerLen vendor + n < 2 ^ 24) :
    DiameterAvp.realLength ⟨avpHeader code flags vendor n ++ r, datalen⟩ =
      headerLen vendor + n + (4 - n % 4) % 4 := by
  have hheader := headerLen_mod vendor
  unfold DiameterAvp.realLength
  rw [length_fieldAvpHeader _ _ _ _ _ hn]
  split
  · omega
  · omega

end fields

lemma realLength_encode {a : Avp} (h : a.encode.length < 2 ^ 24) (r : Bytes) (datalen : Nat) :
    DiameterAvp.realLength ⟨a.encode ++ r, datalen⟩ = a.encode.length := by
  cases a with
  | leaf code flags vendor payload =>
    rw [Avp.encode, List.length_append, List.length_append, length_avpHeader, length_padding] at h ⊢
    rw [List.append_assoc, realLength_avpHeader _ _ _ _ _ (by omega)]
    omega
  | group code flags vendor members =>
    have hmembers := length_encodeAll_mod members
    rw [Avp.encode, List.length_append, length_avpHeader] at h ⊢
    rw [List.append_assoc, realLength_avpHeader _ _ _ _ _ h]
    omega

lemma lengthIsOk_encode {a : Avp} (h : a.encode.length < 2 ^ 24) (r : Bytes) {datalen : Nat}
    (hlen : a.encode.length ≤ datalen) :
    DiameterAvp.lengthIsOk ⟨a.encode ++ r, datalen⟩ = true := by
  have hheader : DiameterAvp.headerLength ⟨a.encode ++ r, datalen⟩ ≤ a.encode.length := by
    cases a with
    | leaf code flags vendor payload =>
      rw [Avp.encode, List.append_assoc, headerLength_avpHeader, List.length_append,
        length_avpHeader]
      omega
    | group code flags vendor members =>
      rw [Avp.encode, List.append_assoc, headerLength_avpHeader, List.length_append,
        length_avpHeader]
      omega
  have height := le_length_encode a
  rw [DiameterAvp.lengthIsOk, DiameterAvp.headerLengthIsOk, realLength_encode h]
  simp only [avpHeaderSize, Bool.and_eq_true, decide_eq_true_eq, ge_iff_le]
  omega

lemma isGroup_iff (avp : DiameterAvp) : avp.isGroup = true ↔ GroupCode avp.code := by
  simp only [DiameterAvp.isGroup, GroupCode, Bool.or_eq_true, decide_eq_true_eq, or_assoc]

/-! ## Parsing -/

mutual

lemma parse_encode : ∀ (a : Avp) (fuel : Nat) (r : Bytes) (datalen : Nat), a.Ok →
    a.encode.length < 2 ^ 24 → a.encode.length ≤ fuel →
    DiameterAvp.parse fuel ⟨a.encode ++ r, datalen⟩ = some a.leaves
  | a, 0, r, datalen, hok, hsize, hfuel => by
    have height := le_length_encode a
    omega
  | .leaf code flags vendor payload, fuel + 1, r, datalen, hok, hsize, hfuel => by
    obtain ⟨hcode, hpos, hmax⟩ := hok
    rw [Avp.encode, List.length_append, length_avpHeader, List.length_append] at hsize
    have hnot : ¬DiameterAvp.isGroup ⟨(Avp.leaf code flags vendor payload).encode ++ r, datalen⟩ = true := by
      rw [isGroup_iff, Avp.encode, List.append_assoc, code_avpHeader]
      exact hcode
    rw [DiameterAvp.parse, if_neg hnot, Avp.encode, List.append_assoc,
      payloadLen_avpHeader _ _ _ _ _ (by omega), if_pos ⟨hpos, by omega⟩, code_avpHeader,
      payload_avpHeader, List.append_assoc, List.take_left, Avp.leaves]
  | .group code flags vendor members, fuel + 1, r, datalen, hok, hsize, hfuel => by
    obtain ⟨hcode, hmembers⟩ := hok
    have hheader := le_headerLen vendor
    rw [Avp.encode, List.length_append, length_avpHeader] at hsize hfuel
    have hgroup : DiameterAvp.isGroup ⟨(Avp.group code flags vendor members).encode ++ r, datalen⟩ = true := by
      rw [isGroup_iff, Avp.encode, List.append_assoc, code_avpHeader]
      exact hcode
    rw [DiameterAvp.parse, if_pos hgroup, Avp.encode, List.append_assoc,
      payloadLen_avpHeader _ _ _ _ _ hsize, payload_avpHeader, Avp.leaves]
    by_cases hempty : (encodeAll members).length > 0
    · rw [if_pos hempty]
      have hloop := parseAvps_encodeAll members fuel [] r hmembers (by omega) (by omega)
      rwa [List.nil_append, List.length_nil, Nat.zero_add] at hloop
    · rw [if_neg hempty, encodeAll_eq_nil (by omega : (encodeAll members).length = 0), leavesAll]

lemma parseAvps_encodeAll : ∀ (forest : List Avp) (fuel : Nat) (pre r : Bytes), AllOk forest →
    (encodeAll forest).length < 2 ^ 24 → (encodeAll forest).length < fuel →
    parseAvps fuel (pre ++ (encodeAll forest ++ r)) (pre.length + (encodeAll forest).length)
      pre.length = some (leavesAll forest)
  | forest, 0, pre, r, hok, hsize, hfuel => by omega
  | [], fuel + 1, pre, r, hok, hsize, hfuel => by
    rw [parseAvps, encodeAll, List.length_nil, if_neg (by omega), leavesAll]
  | a :: forest, fuel + 1, pre, r, hok, hsize, hfuel => by
    have height := le_length_encode a
    rw [encodeAll, List.length_append] at hsize hfuel ⊢
    by_cases hloop : a.encode.length + (encodeAll forest).length > 8
    · have hnext := parseAvps_encodeAll forest fuel (pre ++ a.encode) r hok.2 (by omega) (by omega)
      have hitem := parse_encode a fuel (encodeAll forest ++ r)
        (a.encode.length + (encodeAll forest).length) hok.1 (by omega) (by omega)
      rw [List.append_assoc, List.length_append, Nat.add_assoc] at hnext
      rw [parseAvps, if_pos (by unfold avpHeaderSize; omega), List.drop_left,
        Nat.add_sub_cancel_left, List.append_assoc a.encode]
      rw [if_pos (lengthIsOk_encode (by omega) _ (by omega)), realLength_encode (by omega), hitem,
        hnext, leavesAll]
      rfl
    · -- only an empty group is left, and the loop ends before it
      have hnil : forest = [] := encodeAll_eq_nil (by omega)
      rw [parseAvps, if_neg (by unfold avpHeaderSize; omega), leavesAll,
        leaves_of_length hok.1 (by omega), hnil, leavesAll]
      rfl

end

lemma length_encodeMessage (version : UInt8) {fields : Bytes} (hfields : fields.length = 16)
    (forest : List Avp) : (encodeMessage version fields forest).length =
      headerSize + (encodeAll forest).length := by
  rw [encodeMessage, List.length_cons, List.length_append, List.length_append, hfields]
  change 3 + (16 + (encodeAll forest).length) + 1 = 20 + (encodeAll forest).length
  omega

lemma find?_leaf {items : List DataItem} (h : ∀ i ∈ items, i.length > 0) (code : Nat) :
    items.find? (fun item => item.code = code ∧ item.length > 0) =
      items.find? (fun item => item.code = code) := by
  induction items with
  | nil => rfl
  | cons i items ih =>
    have hpos := h i List.mem_cons_self
    rw [List.find?_cons, List.find?_cons, ih fun j hj => h j (List.mem_cons_of_mem _ hj)]
    simp only [hpos, and_true]

mutual

lemma length_leaves : ∀ a : Avp, a.Ok → ∀ i ∈ a.leaves, i.length > 0
  | .leaf code flags vendor payload, hok, i, hi => by
    rw [Avp.leaves, List.mem_singleton] at hi
    rw [hi]
    exact hok.2.1
  | .group code flags vendor members, hok, i, hi => by
    rw [Avp.leaves] at hi
    exact length_leavesAll members hok.2 i hi

lemma length_leavesAll : ∀ forest : List Avp, AllOk forest → ∀ i ∈ leavesAll forest, i.length > 0
  | [], _, i, hi => by cases hi
  | a :: forest, hok, i, hi => by
    rw [leavesAll, List.mem_append] at hi
    rcases hi with hi | hi
    · exact length_leaves a hok.1 i hi
    · exact length_leavesAll forest hok.2 i hi

end

/-- Parsing an encoded message gives the leaves of its forest in depth-first order, and a value
is that of the first leaf with the code. -/
theorem parse_encodeMessage (version : UInt8) (fields : Bytes) (forest : List Avp)
    (hfields : fields.length = 16) (hok : AllOk forest)
    (hsize : (encodeMessage version fields forest).length < 2 ^ 24) (more : Bytes) (datalen fuel : Nat)
    (hfuel : (encodeMessage version fields forest).length ≤ fuel) :
    let d : DiameterMsg := ⟨encodeMessage version fields forest ++ more, datalen⟩
    d.parse fuel = some (leavesAll forest) ∧
      ∀ code, d.getValue fuel code none =
        some (((leavesAll forest).find? (fun item => item.code = code)).elim []
          (fun item => cString item.payload)) := by
  intro d
  rw [length_encodeMessage version hfields] at hsize hfuel
  have hlength : d.length = headerSize + (encodeAll forest).length :=
    be24_encodeBe24 hsize (fields ++ encodeAll forest ++ more)
  have hpayload : d.payload = encodeAll forest ++ more := by
    have hhead : (version :: (encodeBe24 (headerSize + (encodeAll forest).length) ++ fields)).length
        = headerSize := by
      rw [List.length_cons, List.length_append, hfields]
      rfl
    have hdata : d.data = (version :: (encodeBe24 (headerSize + (encodeAll forest).length) ++ fields))
        ++ (encodeAll forest ++ more) := by
      simp only [d, encodeMessage, List.cons_append, List.append_assoc]
    rw [DiameterMsg.payload, hdata]
    exact List.drop_left' hhead
  have hpayloadLen : d.payloadLen = (encodeAll forest).length := by
    rw [DiameterMsg.payloadLen, hlength, sub32_eq (by omega) (by omega)]
    omega
  have hparse : d.parse fuel = some (leavesAll forest) := by
    have hloop := parseAvps_encodeAll forest fuel [] more hok (by omega)
      (by unfold headerSize at hfuel; omega)
    rw [List.nil_append, List.length_nil, Nat.zero_add] at hloop
    rw [DiameterMsg.parse, hpayload, hpayloadLen]
    exact hloop
  refine ⟨hparse, fun code => ?_⟩
  rw [DiameterMsg.getValue, hparse, Option.map_some, getItemValue,
    find?_leaf (length_leavesAll forest hok)]
  cases (leavesAll forest).find? (fun item => item.code = code) with
  | none => rfl
  | some item => rfl

theorem parse_encodeMessage_example :
    let d : DiameterMsg := ⟨encodeMessage 1 (List.replicate 16 0) [.group 873 64 (some 10415)
      [.leaf 601 0 none [65], .group 700 0 none []], .leaf 263 64 none [66, 67]], 64⟩
    d.parse 64 = some [⟨601, 1, [65]⟩, ⟨263, 2, [66, 67]⟩] ∧
      d.getValue 64 263 none = some [66, 67] := by
  have hok : AllOk [.group 873 64 (some 10415) [.leaf 601 0 none [65], .group 700 0 none []],
      .leaf 263 64 none [66, 67]] := by
    simp only [AllOk, Avp.Ok, GroupCode]
    decide
  have h := parse_encodeMessage 1 (List.replicate 16 0) _ rfl hok (by decide) [] 64 64 (by decide)
  rw [List.append_nil] at h
  exact ⟨h.1, h.2 263⟩

end VoipMonitor.Diameter
