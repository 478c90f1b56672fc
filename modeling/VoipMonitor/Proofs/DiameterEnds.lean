import VoipMonitor.Model.Diameter

/-!
# When the parsing of Diameter messages ends

A group is parsed over less data than it stands in, so only the loop over AVPs can stay where it is.
It does so at an AVP with the length 0, which `lengthIsOk` accepts.
-/

namespace VoipMonitor.Diameter
open VoipMonitor.Library

structure AcceptedAt (payload : Bytes) (payloadLen offset : Nat) (avp : DiameterAvp) : Prop where
  lt : offset < payloadLen
  left : avpHeaderSize < payloadLen - offset
  avp_eq : avp = ⟨payload.drop offset, payloadLen - offset⟩
  ok : avp.lengthIsOk = true

/-- The AVPs that the loop comes to from an offset on: the one there, those in its group and those
behind it. -/
inductive ReachesAvp : Bytes → Nat → Nat → DiameterAvp → Prop where
  | here {payload : Bytes} {payloadLen offset : Nat} {avp : DiameterAvp} :
      AcceptedAt payload payloadLen offset avp → ReachesAvp payload payloadLen offset avp
  | inside {payload : Bytes} {payloadLen offset : Nat} {group avp : DiameterAvp} :
      AcceptedAt payload payloadLen offset group → group.isGroup = true →
      ReachesAvp group.payload group.payloadLen 0 avp → ReachesAvp payload payloadLen offset avp
  | behind {payload : Bytes} {payloadLen offset : Nat} {first avp : DiameterAvp} :
      AcceptedAt payload payloadLen offset first →
      ReachesAvp payload payloadLen (offset + first.realLength) avp →
      ReachesAvp payload payloadLen offset avp

variable {payload : Bytes} {payloadLen offset : Nat} {avp : DiameterAvp}

lemma DiameterAvp.length_le_realLength (avp : DiameterAvp) : avp.length ≤ avp.realLength := by
  rw [DiameterAvp.realLength]
  split <;> omega

lemma DiameterAvp.realLength_eq_zero (h : avp.length = 0) : avp.realLength = 0 := by
  rw [DiameterAvp.realLength, h]
  rfl

lemma AcceptedAt.payloadLen_le (h : AcceptedAt payload payloadLen offset avp)
    (hpos : 0 < avp.payloadLen) :
    avp.payloadLen + avpHeaderSize ≤ payloadLen - offset := by
  have hok := h.ok
  have hlength := avp.length_le_realLength
  have hdatalen : avp.datalen = payloadLen - offset := by rw [h.avp_eq]
  rw [DiameterAvp.lengthIsOk, Bool.and_eq_true, decide_eq_true_iff, hdatalen] at hok
  rw [DiameterAvp.payloadLen] at hpos ⊢
  have hheader : avpHeaderSize ≤ avp.headerLength := Nat.le_add_right _ _
  split at hpos
  · rename_i hgt
    rw [if_pos hgt]
    omega
  · omega

lemma AcceptedAt.parseAvps_eq (h : AcceptedAt payload payloadLen offset avp) (fuel : Nat) :
    parseAvps (fuel + 1) payload payloadLen offset =
      (avp.parse fuel).bind (fun items =>
        (parseAvps fuel payload payloadLen (offset + avp.realLength)).map (items ++ ·)) := by
  have hok := h.ok
  rw [parseAvps, if_pos ⟨h.lt, h.left⟩]
  rw [← h.avp_eq, if_pos hok]
  cases avp.parse fuel with
  | none => rfl
  | some items => cases parseAvps fuel payload payloadLen (offset + avp.realLength) <;> rfl

lemma parseAvps_of_not_accepted (h : ∀ avp, ¬AcceptedAt payload payloadLen offset avp) (fuel : Nat) :
    parseAvps (fuel + 1) payload payloadLen offset = some [] := by
  rw [parseAvps]
  split
  · rename_i hlooks
    rw [if_neg (fun hok => h _ ⟨hlooks.1, hlooks.2, rfl, hok⟩)]
  · rfl

lemma length_ne_zero_of_parseAvps {fuel : Nat} {items : List DataItem}
    (h : parseAvps fuel payload payloadLen offset = some items)
    (havp : ReachesAvp payload payloadLen offset avp) : avp.length ≠ 0 := by
  induction fuel using Nat.strong_induction_on generalizing payload payloadLen offset items with
  | _ fuel ih =>
    cases fuel with
    | zero =>
      rw [parseAvps] at h
      cases h
    | succ fuel =>
      have hsplit : ∀ first, AcceptedAt payload payloadLen offset first →
          (∃ items, first.parse fuel = some items) ∧
            ∃ more, parseAvps fuel payload payloadLen (offset + first.realLength) = some more := by
        intro first hfirst
        rw [hfirst.parseAvps_eq fuel, Option.bind_eq_some_iff] at h
        obtain ⟨front, hfront, hrest⟩ := h
        obtain ⟨more, hmore, -⟩ := Option.map_eq_some_iff.mp hrest
        exact ⟨⟨front, hfront⟩, ⟨more, hmore⟩⟩
      cases havp with
      | here hhere =>
        -- with the length 0 the rest of the loop is the same loop
        intro hzero
        obtain ⟨-, more, hmore⟩ := hsplit avp hhere
        rw [DiameterAvp.realLength_eq_zero hzero, Nat.add_zero] at hmore
        exact ih fuel (Nat.lt_succ_self _) hmore (.here hhere) hzero
      | @inside _ _ _ group _ hgroup hcode hin =>
        obtain ⟨⟨front, hfront⟩, -⟩ := hsplit group hgroup
        cases fuel with
        | zero =>
          rw [DiameterAvp.parse] at hfront
          cases hfront
        | succ fuel =>
          rw [DiameterAvp.parse, if_pos hcode] at hfront
          have hpos : 0 < group.payloadLen := by
            cases hin with
            | here hat => exact hat.lt
            | inside hat _ _ => exact hat.lt
            | behind hat _ => exact hat.lt
          rw [if_pos hpos] at hfront
          exact ih fuel (by omega) hfront hin
      | @behind _ _ _ first _ hfirst hrest =>
        obtain ⟨-, more, hmore⟩ := hsplit first hfirst
        exact ih fuel (Nat.lt_succ_self _) hmore hrest

lemma exists_parseAvps (h : ∀ avp, ReachesAvp payload payloadLen offset avp → avp.length ≠ 0)
    {fuel : Nat} (hfuel : payloadLen - offset < fuel) :
    ∃ items, parseAvps fuel payload payloadLen offset = some items := by
  induction fuel using Nat.strong_induction_on generalizing payload payloadLen offset with
  | _ fuel ih =>
    obtain ⟨fuel, rfl⟩ : ∃ n, fuel = n + 1 := ⟨fuel - 1, by omega⟩
    by_cases haccepted : ∃ avp, AcceptedAt payload payloadLen offset avp
    · obtain ⟨avp, havp⟩ := haccepted
      have hleft := havp.left
      have hpos := h avp (.here havp)
      have hreal := avp.length_le_realLength
      obtain ⟨more, hmore⟩ := ih fuel (Nat.lt_succ_self _)
        (fun later hlater => h later (.behind havp hlater)) (by omega)
      have hitems : ∃ items, avp.parse fuel = some items := by
        obtain ⟨fuel, rfl⟩ : ∃ n, fuel = n + 1 := ⟨fuel - 1, by omega⟩
        rw [DiameterAvp.parse]
        by_cases hgroup : avp.isGroup = true
        · rw [if_pos hgroup]
          by_cases hpayload : 0 < avp.payloadLen
          · rw [if_pos hpayload]
            have hless := havp.payloadLen_le hpayload
            exact ih fuel (by omega) (fun member hmember => h member (.inside havp hgroup hmember))
              (by unfold avpHeaderSize at hless; omega)
          · rw [if_neg hpayload]
            exact ⟨_, rfl⟩
        · rw [if_neg hgroup]
          split <;> exact ⟨_, rfl⟩
      obtain ⟨items, hitems⟩ := hitems
      rw [havp.parseAvps_eq, hitems, hmore]
      exact ⟨_, rfl⟩
    · rw [not_exists] at haccepted
      exact ⟨[], parseAvps_of_not_accepted haccepted fuel⟩

/-- The parsing of a message ends exactly when it takes no AVP with the length 0. -/
theorem parse_ends_iff (d : DiameterMsg) : (∃ fuel items, d.parse fuel = some items) ↔
    ∀ avp, ReachesAvp d.payload d.payloadLen 0 avp → avp.length ≠ 0 := by
  constructor
  · rintro ⟨fuel, items, hparse⟩ avp havp
    exact length_ne_zero_of_parseAvps hparse havp
  · intro h
    exact ⟨d.payloadLen + 1, exists_parseAvps h (by omega)⟩

def emptyAvpMessage : Bytes :=
  [1, 0, 0, 32, 128, 0, 1, 44, 0, 0, 0, 0, 0, 0, 0, 1, 0, 0, 0, 2,
    0, 0, 1, 7, 64, 0, 0, 0, 0, 0, 0, 0]

theorem parse_stays : checkOkDiameter emptyAvpMessage 32 = true ∧
    ¬∃ fuel items, DiameterMsg.parse fuel ⟨emptyAvpMessage, 32⟩ = some items := by
  refine ⟨by decide +kernel, ?_⟩
  rintro ⟨fuel, items, hparse⟩
  refine length_ne_zero_of_parseAvps hparse (.here ⟨?_, ?_, rfl, ?_⟩) ?_
  · decide +kernel
  · decide +kernel
  · decide +kernel
  · decide +kernel

end VoipMonitor.Diameter
