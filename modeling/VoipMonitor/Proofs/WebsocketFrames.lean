import VoipMonitor.Model.SipFraming

/-!
# Decoding websocket frames

A text frame with the header that its length requires. The length in eight bytes is read from the
first four of them, so that it is 0 for every frame that fits in a buffer.
-/

namespace VoipMonitor.Sip
open VoipMonitor.Library

/-- A text frame whose length fits in 32 bits: what it carries and the key of four bytes, when there
is one. -/
structure TextFrame where
  payload : Bytes
  key : Option Bytes
  length_key : ∀ k ∈ key, k.length = 4
  fits : payload.length + 14 < 2 ^ 32

def lengthForm (n : Nat) : Nat := if n < 126 then n else if n < 2 ^ 16 then 126 else 127

def lengthField (n : Nat) : Bytes :=
  if n < 126 then [] else if n < 2 ^ 16 then encodeBe16 n
  else encodeBe32 (n / 2 ^ 32) ++ encodeBe32 (n % 2 ^ 32)

namespace TextFrame
variable (f : TextFrame)

def second : Nat := lengthForm f.payload.length + if f.key.isSome then 128 else 0

def keyBytes : Bytes := f.key.getD []

def sent : Bytes := f.key.elim f.payload (fun k => xorData f.payload k)

def bytes : Bytes :=
  0x81 :: UInt8.ofNat f.second :: (lengthField f.payload.length ++ (f.keyBytes ++ f.sent))

def headerLength : Nat := 2 + (lengthField f.payload.length).length + f.keyBytes.length

/-- The frame is found and decoded; a frame with a key is decoded for 1 to 65535 bytes only. The
length of the data is left to the header or given. -/
structure Inverted : Prop where
  check : checkWebsocket f.bytes .strict = true
  header : getHeaderLength f.bytes = f.headerLength
  data : getDataLength f.bytes = f.payload.length
  decode : f.key = none ∨ 1 ≤ f.payload.length ∧ f.payload.length ≤ 65535 →
    decodeData f.bytes 0 = some f.payload ∧ decodeData f.bytes f.bytes.length = some f.payload

end TextFrame

lemma length_xorData (data key : Bytes) : (xorData data key).length = data.length :=
  List.length_mapIdx

lemma xorData_xorData (data key : Bytes) : xorData (xorData data key) key = data := by
  rw [xorData, xorData, List.mapIdx_mapIdx]
  apply List.ext_getElem
  · exact List.length_mapIdx
  · intro i h1 h2
    rw [List.getElem_mapIdx]
    change data[i] ^^^ _ ^^^ _ = data[i]
    rw [UInt8.xor_assoc, UInt8.xor_self, UInt8.xor_zero]

section Header
variable (f : TextFrame)

lemma lengthForm_le (n : Nat) : lengthForm n ≤ 127 := by
  unfold lengthForm
  split
  · omega
  · split
    · decide
    · decide

lemma second_bytes : byteAt f.bytes 1 = f.second := by
  have hform := lengthForm_le f.payload.length
  refine UInt8.toNat_ofNat_of_lt ?_
  change f.second < 256
  unfold TextFrame.second
  split
  · omega
  · omega

lemma payloadLen_bytes : payloadLen f.bytes = lengthForm f.payload.length := by
  have hform := lengthForm_le f.payload.length
  rw [payloadLen, second_bytes, TextFrame.second]
  split
  · omega
  · omega

lemma isMask_bytes : isMask f.bytes = f.key.isSome := by
  have hform := lengthForm_le f.payload.length
  rw [isMask, second_bytes, TextFrame.second]
  cases f.key.isSome with
  | true => rw [if_pos rfl, decide_eq_true_iff]; omega
  | false => rw [if_neg Bool.false_ne_true, decide_eq_false_iff_not]; omega

lemma lengthForm_cases (n : Nat) :
    (n < 126 ∧ lengthForm n = n ∧ lengthField n = []) ∨
      (126 ≤ n ∧ n < 2 ^ 16 ∧ lengthForm n = 126 ∧ lengthField n = encodeBe16 n) ∨
      (2 ^ 16 ≤ n ∧ lengthForm n = 127 ∧
        lengthField n = encodeBe32 (n / 2 ^ 32) ++ encodeBe32 (n % 2 ^ 32)) := by
  unfold lengthForm lengthField
  by_cases hshort : n < 126
  · rw [if_pos hshort, if_pos hshort]
    exact Or.inl ⟨hshort, rfl, rfl⟩
  · rw [if_neg hshort, if_neg hshort]
    by_cases hmiddle : n < 2 ^ 16
    · rw [if_pos hmiddle, if_pos hmiddle]
      exact Or.inr (Or.inl ⟨by omega, hmiddle, rfl, rfl⟩)
    · rw [if_neg hmiddle, if_neg hmiddle]
      exact Or.inr (Or.inr ⟨by omega, rfl, rfl⟩)

lemma extendedLengthSize_bytes :
    extendedLengthSize f.bytes = (lengthField f.payload.length).length := by
  rw [extendedLengthSize, payloadLen_bytes]
  rcases lengthForm_cases f.payload.length with ⟨hlt, hform, hfield⟩ | ⟨-, -, hform, hfield⟩ |
    ⟨-, hform, hfield⟩
  · rw [hform, hfield, if_neg (by omega), if_neg (by omega)]
    rfl
  · rw [hform, hfield, if_pos rfl]
    rfl
  · rw [hform, hfield, if_neg (by decide), if_pos rfl]
    rfl

lemma length_keyBytes : f.keyBytes.length = if f.key.isSome then 4 else 0 := by
  rw [TextFrame.keyBytes]
  cases hkey : f.key with
  | none => rfl
  | some k => exact f.length_key k hkey

lemma getHeaderLength_bytes : getHeaderLength f.bytes = f.headerLength := by
  rw [getHeaderLength, extendedLengthSize_bytes, isMask_bytes, TextFrame.headerLength,
    length_keyBytes]

lemma length_sent : f.sent.length = f.payload.length := by
  rw [TextFrame.sent]
  cases f.key with
  | none => rfl
  | some k => exact length_xorData f.payload k

lemma length_bytes : f.bytes.length = f.headerLength + f.payload.length := by
  rw [TextFrame.bytes, List.length_cons, List.length_cons, List.length_append, List.length_append,
    length_sent, TextFrame.headerLength]
  omega

lemma be16_field (o : Nat) :
    be16 f.bytes (2 + o) = be16 (lengthField f.payload.length ++ (f.keyBytes ++ f.sent)) o :=
  be16_append_right [0x81, UInt8.ofNat f.second] _ o

lemma getDataLength_bytes :
    getDataLength f.bytes = if f.payload.length < 2 ^ 16 then f.payload.length else 0 := by
  have hfits := f.fits
  rw [getDataLength, payloadLen_bytes]
  rcases lengthForm_cases f.payload.length with ⟨hlt, hform, -⟩ | ⟨-, hlt, hform, hfield⟩ |
    ⟨hge, hform, hfield⟩
  · rw [hform, if_neg (by omega), if_neg (by omega), if_pos (by omega)]
  · rw [hform, if_pos rfl, if_pos hlt, be16_field f 0, hfield]
    exact be16_encodeBe16 hlt _
  · have hzero : f.payload.length / 2 ^ 32 = 0 := Nat.div_eq_of_lt (by omega)
    rw [hform, if_neg (by decide), if_pos rfl, if_neg (by omega), be32, be16_field f 0,
      be16_field f 2, hfield, hzero, List.append_assoc]
    exact be32_encodeBe32 (by norm_num) _

end Header

section Data
variable (f : TextFrame)

def TextFrame.front : Bytes := [0x81, UInt8.ofNat f.second] ++ lengthField f.payload.length

lemma bytes_eq_front : f.bytes = f.front ++ (f.keyBytes ++ f.sent) := by
  rw [TextFrame.front, List.append_assoc]
  rfl

lemma length_front : f.front.length = f.headerLength - f.keyBytes.length := by
  rw [TextFrame.front, List.length_append, TextFrame.headerLength, Nat.add_sub_cancel]
  rfl

lemma drop_header : f.bytes.drop f.headerLength = f.sent := by
  have hlen : f.headerLength = (f.front ++ f.keyBytes).length := by
    rw [List.length_append, length_front, TextFrame.headerLength]
    omega
  rw [bytes_eq_front, ← List.append_assoc, hlen, List.drop_left]

lemma slice_data : slice f.bytes f.headerLength f.payload.length = f.sent := by
  rw [slice, drop_header, ← length_sent, List.take_length]

lemma slice_key {k : Bytes} (hkey : f.key = some k) :
    slice f.bytes (f.headerLength - 4) 4 = k := by
  have hlen : k.length = 4 := f.length_key k hkey
  have hbytes : f.keyBytes = k := by
    rw [TextFrame.keyBytes, hkey]
    rfl
  have hfront := length_front f
  rw [hbytes, hlen] at hfront
  rw [bytes_eq_front, hbytes, slice, ← hfront, List.drop_left, ← hlen, List.take_left]

lemma decodeData_noKey (hkey : f.key = none) (n : Nat) : decodeData f.bytes n = some f.payload := by
  have hsent : f.sent = f.payload := by
    rw [TextFrame.sent, hkey]
    rfl
  rw [decodeData, isMask_bytes, hkey, getHeaderLength_bytes, drop_header, hsent]
  rfl

lemma decodeData_key {k : Bytes} (hkey : f.key = some k) (hpos : 1 ≤ f.payload.length)
    (hle : f.payload.length ≤ 65535) {n : Nat} (hn : n = 0 ∨ n = f.bytes.length) :
    decodeData f.bytes n = some f.payload := by
  have hdata : getDataLength f.bytes = f.payload.length := by
    rw [getDataLength_bytes, if_pos (by omega)]
  have hsent : f.sent = xorData f.payload k := by
    rw [TextFrame.sent, hkey]
    rfl
  have hlen := length_bytes f
  have hgiven : ¬(n ≠ 0 ∧ n ≤ f.headerLength) := by omega
  have hn : (if n ≠ 0 then min (n - f.headerLength) f.payload.length else f.payload.length) =
      f.payload.length := by
    split
    · omega
    · rfl
  rw [decodeData, isMask_bytes, hkey, getHeaderLength_bytes, hdata, if_pos Option.isSome_some,
    if_neg hgiven]
  rw [hn, if_pos ⟨hpos, hle⟩, slice_data, slice_key f hkey, hsent, xorData_xorData]

lemma checkWebsocket_bytes (hdata : getDataLength f.bytes = f.payload.length) :
    checkWebsocket f.bytes .strict = true := by
  have hhead : f.bytes.head? = some 0x81 := rfl
  have htwo : f.bytes.length ≥ 2 := Nat.le_add_left 2 _
  have hheader : f.bytes.length ≥ getHeaderLength f.bytes := by
    rw [getHeaderLength_bytes, length_bytes]
    omega
  have hsize : f.bytes.length = getHeaderLength f.bytes + getDataLength f.bytes := by
    rw [getHeaderLength_bytes, hdata, length_bytes]
  rw [checkWebsocket, isDataSizeOk, hhead, decide_eq_true htwo, decide_eq_true hheader,
    decide_eq_true hsize]
  rfl

end Data

/-- A frame is found and decoded up to the lengths of 16 bits. -/
theorem inverted_iff (f : TextFrame) : f.Inverted ↔ f.payload.length ≤ 65535 := by
  constructor
  · intro h
    have hdata := h.data
    rw [getDataLength_bytes] at hdata
    split at hdata
    · omega
    · omega
  · intro hle
    have hdata : getDataLength f.bytes = f.payload.length := by
      rw [getDataLength_bytes, if_pos (by omega)]
    refine ⟨checkWebsocket_bytes f hdata, getHeaderLength_bytes f, hdata, ?_⟩
    intro hdecode
    cases hkey : f.key with
    | none => exact ⟨decodeData_noKey f hkey 0, decodeData_noKey f hkey _⟩
    | some k =>
      obtain ⟨hpos, -⟩ := hdecode.resolve_left (by rw [hkey]; exact Option.some_ne_none k)
      exact ⟨decodeData_key f hkey hpos hle (Or.inl rfl),
        decodeData_key f hkey hpos hle (Or.inr rfl)⟩

/-- The first length in eight bytes. -/
def longFrame : TextFrame where
  payload := List.replicate 65536 32
  key := none
  length_key := by simp
  fits := by rw [List.length_replicate]; norm_num

/-- Its length is read as 0. -/
theorem not_inverted_longFrame : ¬longFrame.Inverted := by
  intro h
  have hlen : longFrame.payload.length = 65536 := List.length_replicate
  have hdata := h.data
  rw [getDataLength_bytes, hlen] at hdata
  exact absurd hdata (by decide)

end VoipMonitor.Sip
