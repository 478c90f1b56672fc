import VoipMonitor.Model.RtpSeq

/-!
# The payload stays in the packet

What is left of the packet is never more than there is. Only the header of an extension is read
without a look at what is left.
-/

namespace VoipMonitor.Rtp
open VoipMonitor.Library

/-- The bytes that are read lie in the packet, and so does the payload that `read` goes on with. -/
def PayloadInside (data : Bytes) (len paddingLen : Nat) : Prop :=
  ∃ p stop, getPayloadLen data len paddingLen 0 = some (p, stop) ∧ stop ≤ len ∧
    (readAccepts p = true → 0 ≤ p.payloadLen ∧ p.payloadData + p.payloadLen ≤ len)

variable {data : Bytes} {len paddingLen first : Nat} {p : Payload}

structure Left (len : Nat) (p : Payload) : Prop where
  len_nonneg : 0 ≤ p.payloadLen
  end_le : p.payloadData + p.payloadLen ≤ len

/-- The padding that is taken off. -/
def paddingOf (data : Bytes) (len : Nat) : Nat :=
  let padding := byteAt data (len - 1)
  if getPadding (byteAt data 0) ∧ padding < len - fixedHeaderSize then padding else 0

/-- The size of the list of sources that is taken off. -/
def csrcSize (data : Bytes) (len : Nat) : Nat :=
  let cc := 4 * getCC (byteAt data 0)
  if cc < len - fixedHeaderSize - paddingOf data len then cc else 0

def unpadded (data : Bytes) (len paddingLen : Nat) : Payload where
  payloadData := fixedHeaderSize
  payloadLen := (len - fixedHeaderSize - paddingOf data len : Nat)
  paddingLen := if paddingOf data len = 0 then paddingLen else paddingOf data len

def beforeExtension (data : Bytes) (len paddingLen : Nat) : Payload where
  payloadData := fixedHeaderSize + csrcSize data len
  payloadLen := (len - fixedHeaderSize - paddingOf data len - csrcSize data len : Nat)
  paddingLen := if paddingOf data len = 0 then paddingLen else paddingOf data len

@[simp] lemma beforeExtension_payloadData :
    (beforeExtension data len paddingLen).payloadData = fixedHeaderSize + csrcSize data len := rfl

lemma paddingOf_le : paddingOf data len ≤ len - fixedHeaderSize := by
  rw [paddingOf]
  split
  · rename_i h
    exact h.2.le
  · exact Nat.zero_le _

lemma csrcSize_le : csrcSize data len ≤ len - fixedHeaderSize - paddingOf data len := by
  rw [csrcSize]
  split
  · rename_i h
    exact h.le
  · exact Nat.zero_le _

lemma removePadding_gives (data : Bytes) (paddingLen : Nat) (hlen : fixedHeaderSize ≤ len) : ∃ stop ≤ len,
    Gives (removePadding data len (byteAt data 0)
      ⟨fixedHeaderSize, len - fixedHeaderSize, paddingLen⟩) (unpadded data len paddingLen) stop := by
  have hpos : 0 < len := lt_of_lt_of_le (by decide) hlen
  rw [removePadding]
  split
  · rename_i hpadding
    have hread : Gives (read8 data (len - 1)) (byteAt data (len - 1)) (len - 1 + 1) :=
      fun _ => rfl
    refine ⟨max (len - 1 + 1) 0, by omega, hread.bind ?_⟩
    by_cases htaken : byteAt data (len - 1) > 0 ∧
        (byteAt data (len - 1) : Int) < len - fixedHeaderSize
    · have hoff : paddingOf data len = byteAt data (len - 1) := by
        rw [paddingOf]
        exact if_pos ⟨hpadding, by omega⟩
      have hresult : unpadded data len paddingLen = ⟨fixedHeaderSize,
          len - fixedHeaderSize - byteAt data (len - 1), byteAt data (len - 1)⟩ := by
        rw [unpadded, hoff, if_neg htaken.1.ne']
        congr 1
        omega
      rw [if_pos htaken, hresult]
      exact gives_pure _
    · have hoff : paddingOf data len = 0 := by
        rw [paddingOf]
        split <;> omega
      have hresult : unpadded data len paddingLen =
          ⟨fixedHeaderSize, len - fixedHeaderSize, paddingLen⟩ := by
        rw [unpadded, hoff, if_pos rfl]
        congr 1
        omega
      rw [if_neg htaken, hresult]
      exact gives_pure _
  · rename_i hpadding
    have hoff : paddingOf data len = 0 := if_neg fun h => hpadding h.1
    have hresult : unpadded data len paddingLen =
        ⟨fixedHeaderSize, len - fixedHeaderSize, paddingLen⟩ := by
      rw [unpadded, hoff, if_pos rfl]
      congr 1
      omega
    rw [hresult]
    exact ⟨0, Nat.zero_le _, gives_pure _⟩

lemma removeCsrc_unpadded :
    removeCsrc (byteAt data 0) (unpadded data len paddingLen) =
      beforeExtension data len paddingLen := by
  rw [removeCsrc, beforeExtension, unpadded, csrcSize]
  dsimp only
  split
  · by_cases htaken : 4 * getCC (byteAt data 0) < len - fixedHeaderSize - paddingOf data len
    · rw [if_pos (by omega), if_pos htaken]
      congr 1
      omega
    · rw [if_neg (by omega), if_neg htaken]
      congr 1
  · rename_i hnone
    have hzero : getCC (byteAt data 0) = 0 := by omega
    simp only [hzero, Nat.mul_zero, ite_self, Nat.add_zero, Nat.sub_zero]

def withoutExtension (data : Bytes) (first : Nat) (p : Payload) : Payload :=
  let size := extensionHeaderSize + be16 data (p.payloadData + 2) * 4
  if getExtension first then
    if p.payloadLen - size < 2 then { p with payloadData := fixedHeaderSize, payloadLen := 0 }
    else { p with payloadData := p.payloadData + size, payloadLen := p.payloadLen - size }
  else p

lemma removeExtension_gives (data : Bytes) (first : Nat) (p : Payload) :
    Gives (removeExtension data first p) (withoutExtension data first p)
      (if getExtension first then p.payloadData + extensionHeaderSize else 0) := by
  rw [removeExtension, withoutExtension]
  split
  · have hread : Gives (read16 data (p.payloadData + 2)) (be16 data (p.payloadData + 2))
        (p.payloadData + extensionHeaderSize) := fun _ => rfl
    rw [← Nat.max_zero (p.payloadData + extensionHeaderSize)]
    apply hread.bind
    dsimp only
    split <;> exact gives_pure _
  · exact gives_pure _

lemma withoutExtension_left (data : Bytes) (first : Nat) (hlen : fixedHeaderSize ≤ len) (hp : Left len p) :
    Left len (withoutExtension data first p) := by
  rw [withoutExtension]
  split
  · split
    · exact ⟨le_rfl, by simpa using hlen⟩
    · rename_i hlong
      have hend := hp.end_le
      constructor <;> dsimp only <;> omega
  · exact hp

lemma beforeExtension_left (data : Bytes) (paddingLen : Nat) (hlen : fixedHeaderSize ≤ len) :
    Left len (beforeExtension data len paddingLen) := by
  have hcsrc : csrcSize data len ≤ len - fixedHeaderSize - paddingOf data len := csrcSize_le
  constructor <;> rw [beforeExtension] <;> dsimp only <;> omega

/-- The reads and the payload stay in the packet exactly if the header of an extension does. -/
theorem payload_inside_iff_extension_header (data : Bytes) (len paddingLen : Nat)
    (hlen : fixedHeaderSize ≤ len) :
    PayloadInside data len paddingLen ↔ (getExtension (byteAt data 0) →
      fixedHeaderSize + csrcSize data len + extensionHeaderSize ≤ len) := by
  obtain ⟨stop, hstop, hpadding⟩ := removePadding_gives data paddingLen hlen
  have hextension := removeExtension_gives data (byteAt data 0)
    (beforeExtension data len paddingLen)
  have hleft := withoutExtension_left data (byteAt data 0) hlen
    (beforeExtension_left data paddingLen hlen)
  have hfirst : Gives (read8 data 0) (byteAt data 0) 1 := fun _ => rfl
  rw [beforeExtension_payloadData] at hextension
  nth_rewrite 1 [← removeCsrc_unpadded] at hextension
  have hrun : getPayloadLen data len paddingLen 0 = _ :=
    (hfirst.bind (hpadding.bind hextension)) 0
  have hone : 1 ≤ len := le_trans (by decide) hlen
  constructor
  · rintro ⟨q, last, hq, hlast, -⟩ hbit
    rw [hrun] at hq
    obtain ⟨-, rfl⟩ := Prod.mk.inj (Option.some.inj hq)
    rw [if_pos hbit] at hlast
    omega
  · intro hfits
    refine ⟨_, _, hrun, ?_, fun _ => ⟨hleft.len_nonneg, hleft.end_le⟩⟩
    split
    · rename_i hbit
      have := hfits hbit
      omega
    · omega

theorem payload_inside_rtp_event :
    PayloadInside [0xb1, 96, 0, 1, 0, 0, 0, 9, 0, 0, 0, 7, 0, 0, 0, 8, 1, 2, 0, 1, 0, 0, 0, 0, 5, 6, 7,
      1] 28 0 :=
  (payload_inside_iff_extension_header _ 28 0 (by decide)).mpr (by decide +kernel)

/-- The header alone, with the bit of an extension. -/
theorem payload_not_inside_of_header_only :
    ¬∀ (data : Bytes) (len paddingLen : Nat), fixedHeaderSize ≤ len →
      PayloadInside data len paddingLen := by
  intro h
  obtain ⟨p, stop, hrun, hstop, -⟩ := h [0x90, 0, 0, 1, 0, 0, 0, 9, 0, 0, 0, 7] 12 0 le_rfl
  have hreads : getPayloadLen [0x90, 0, 0, 1, 0, 0, 0, 9, 0, 0, 0, 7] 12 0 0 =
      some (⟨fixedHeaderSize, 0, 0⟩, 16) := rfl
  rw [hreads] at hrun
  obtain ⟨-, rfl⟩ := Prod.mk.inj (Option.some.inj hrun)
  omega

end VoipMonitor.Rtp
