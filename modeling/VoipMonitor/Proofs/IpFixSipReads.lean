import VoipMonitor.Model.IpFix

/-!
# Where the SIP records of IPFIX messages are read

A record is read in its message exactly when the message has room for its structures and its
Call-ID. Then the text, cut to what is left, is in the message too; otherwise what is left for it
is negative.
-/

namespace VoipMonitor.IpFix
open VoipMonitor.Library

/-- A message as `process` hands it over: its `Length` bytes. -/
structure IpFixMessage where
  bytes : Bytes
  length_eq : getLength bytes = bytes.length
  length_ge : headerSize ≤ bytes.length

section Record
variable (l : SipLayout) (m : IpFixMessage)

def callIdLenOf : Nat :=
  match l.callIdLen with
  | none => 0
  | some o => byteAt m.bytes (headerSize + o)

def recordSize : Nat := headerSize + l.headSize + l.tailSize + callIdLenOf l m

lemma callIdLenOf_lt : callIdLenOf l m < 256 := by
  rw [callIdLenOf]
  cases l.callIdLen with
  | none => exact Nat.zero_lt_succ _
  | some o => exact byteAt_lt _ _

lemma readField_eq {message : Bytes} {pos size : Nat} (h : pos + size ≤ message.length) :
    readField message pos size = .ok (leNat (slice message pos size).reverse) := if_pos h

lemma readField_eq_error {message : Bytes} {pos size : Nat} (h : ¬pos + size ≤ message.length) :
    readField message pos size = .error .outside := if_neg h

lemma leNat_slice_one {message : Bytes} {pos : Nat} (h : pos + 1 ≤ message.length) :
    leNat (slice message pos 1).reverse = byteAt message pos := by
  have hslice : slice message pos 1 = [message[pos]] := by
    rw [slice, List.drop_eq_getElem_cons (by omega), List.take_succ_cons, List.take_zero]
  rw [hslice, byteAt, List.getD_eq_getElem?_getD, List.getElem?_eq_getElem (by omega)]
  exact Nat.add_zero _

lemma next_cases : next l m.bytes = .ok (headerSize + l.headSize + callIdLenOf l m, callIdLenOf l m) ∨
    (∃ fault, next l m.bytes = .error fault) ∧ m.bytes.length < recordSize l m := by
  rw [next, recordSize, callIdLenOf]
  cases hcall : l.callIdLen with
  | none =>
    left
    rw [l.headSize_eq hcall]
    rfl
  | some o =>
    dsimp only
    by_cases hread : headerSize + o + 1 ≤ m.bytes.length
    · left
      rw [readField_eq hread, leNat_slice_one hread]
      rfl
    · right
      have ho := l.callIdLen_lt o hcall
      rw [readField_eq_error hread]
      exact ⟨⟨_, rfl⟩, by omega⟩

lemma left_eq : Int.bmod ((getLength m.bytes : Int) - headerSize - l.headSize - l.tailSize -
    callIdLenOf l m) (2 ^ 32) = (m.bytes.length : Int) - recordSize l m := by
  have hcall := callIdLenOf_lt l m
  have hsize := l.size_lt
  have hlength := be16_lt m.bytes 2
  have heq := m.length_eq
  rw [getLength] at heq
  have hheader : headerSize = 20 := rfl
  rw [Int.bmod_eq_of_le]
  · rw [getLength, recordSize, heq]
    push_cast
    omega
  · rw [getLength]
    push_cast
    omega
  · rw [getLength]
    push_cast
    omega

lemma sipMsg_ok_iff : (∃ data, sipMsg l m.bytes = .ok data) ↔ recordSize l m ≤ m.bytes.length := by
  have hmsg := l.sipMsgLen_le
  have hleft := left_eq l m
  rw [sipMsg]
  rcases next_cases l m with hnext | ⟨⟨fault, hnext⟩, hlt⟩
  · by_cases hread : headerSize + l.headSize + callIdLenOf l m + l.sipMsgLen + 2 ≤ m.bytes.length
    · simp only [hnext, bind, Except.bind, readField_eq hread, hleft]
      generalize leNat (slice m.bytes (headerSize + l.headSize + callIdLenOf l m + l.sipMsgLen)
        2).reverse = sipMsgLen
      by_cases hroom : recordSize l m ≤ m.bytes.length
      · refine iff_of_true ?_ hroom
        have hend : headerSize + l.headSize + callIdLenOf l m + l.tailSize = recordSize l m := by
          rw [recordSize]
          omega
        rw [if_neg (by omega), if_pos (by omega)]
        exact ⟨_, rfl⟩
      · refine iff_of_false ?_ hroom
        rw [if_pos (by omega)]
        exact nofun
    · simp only [hnext, bind, Except.bind, readField_eq_error hread]
      refine iff_of_false nofun ?_
      rw [recordSize]
      omega
  · rw [hnext]
    refine iff_of_false ?_ (not_le.mpr hlt)
    rintro ⟨data, hdata⟩
    cases hdata

lemma processSip_ok_iff :
    (∃ packet, processSip l m.bytes = .ok packet) ↔ recordSize l m ≤ m.bytes.length := by
  have haddresses := l.addresses_le
  have htime := l.time_le
  rw [processSip]
  constructor
  · rintro ⟨packet, hpacket⟩
    refine (sipMsg_ok_iff l m).mp ?_
    cases hmsg : sipMsg l m.bytes with
    | ok data => exact ⟨data, rfl⟩
    | error fault =>
      rw [hmsg] at hpacket
      cases hpacket
  · intro hroom
    obtain ⟨data, hmsg⟩ := (sipMsg_ok_iff l m).mpr hroom
    have hnext := (next_cases l m).resolve_right (fun h => absurd hroom (not_le.mpr h.2))
    rw [recordSize] at hroom
    have hhead : headerSize + 8 ≤ m.bytes.length := by
      split at htime <;> omega
    -- the structure of the addresses lies in the record
    have hplace : (if l.addressesInTail = true then headerSize + l.headSize + callIdLenOf l m
        else headerSize) + max (max (l.srcIp + 4) (l.dstIp + 4)) (max (l.dstPort + 2) (l.srcPort + 2)) ≤
          m.bytes.length := by
      split at haddresses
      · rename_i htail
        rw [if_pos htail]
        omega
      · rename_i htail
        rw [if_neg htail]
        omega
    generalize hbase : (if l.addressesInTail = true then headerSize + l.headSize + callIdLenOf l m
      else headerSize) = addresses at hplace
    simp only [hmsg, hnext, bind, Except.bind, hbase]
    rw [readField_eq (by omega), readField_eq (by omega)]
    rw [readField_eq (by omega), readField_eq (by omega), readField_eq (by omega),
      readField_eq (by omega)]
    exact ⟨_, rfl⟩

end Record

/-- The message has room for the record that its `SetID` names. -/
def HasRoom (m : IpFixMessage) : Prop :=
  match getSetId m.bytes with
  | 258 => 63 ≤ m.bytes.length
  | 259 => 64 + byteAt m.bytes 32 ≤ m.bytes.length
  | 260 => 51 ≤ m.bytes.length
  | 261 => 52 + byteAt m.bytes 48 ≤ m.bytes.length
  | _ => True

/-- `process_ipfix` reads a message inside, with a text of no negative length, exactly when the
message has room for its record. -/
theorem processIpFix_ok_iff (m : IpFixMessage) :
    (∃ action, processIpFix m.bytes = .ok action) ↔ HasRoom m := by
  have hmap : ∀ result : Except ReadFault SipPacket,
      (∃ action, IpFixAction.packet <$> result = .ok action) ↔ ∃ packet, result = .ok packet := by
    intro result
    cases result with
    | ok packet => exact iff_of_true ⟨_, rfl⟩ ⟨_, rfl⟩
    | error fault => exact iff_of_false nofun nofun
  rw [processIpFix, HasRoom]
  split
  · rename_i hset
    simp only [hset]
    exact iff_of_true ⟨_, rfl⟩ trivial
  · rename_i hset
    simp only [hset]
    exact (hmap _).trans (processSip_ok_iff sIPFixSipIn m)
  · rename_i hset
    simp only [hset]
    exact (hmap _).trans (processSip_ok_iff sIPFixSipOut m)
  · rename_i hset
    simp only [hset]
    exact (hmap _).trans (processSip_ok_iff sIPFixSipInTCP m)
  · rename_i hset
    simp only [hset]
    exact (hmap _).trans (processSip_ok_iff sIPFixSipOutTCP m)
  · refine iff_of_true ⟨_, rfl⟩ ?_
    split <;> simp_all

/-- A `SipIn` message of a header alone, with the version and the length that are accepted. -/
theorem processIpFix_reads_outside :
    checkIPFixVersion [] (getVersion
      [0, 10, 0, 20, 0, 0, 0, 0, 0, 0, 0, 0, 0, 0, 0, 0, 1, 2, 0, 4]) = true ∧
    getLength [0, 10, 0, 20, 0, 0, 0, 0, 0, 0, 0, 0, 0, 0, 0, 0, 1, 2, 0, 4] = 20 ∧
    processIpFix [0, 10, 0, 20, 0, 0, 0, 0, 0, 0, 0, 0, 0, 0, 0, 0, 1, 2, 0, 4] =
      .error .outside := by
  decide +kernel

end VoipMonitor.IpFix
