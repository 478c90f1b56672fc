import VoipMonitor.Proofs.DiameterEnds

/-!
# What the parsing of Diameter messages reads

An AVP that is taken lies in what holds it, so the parsing stays in a message whose length field
covers the header. With a smaller one `payload_len` wraps round. The parsing then goes on to the end
of memory unless it stays at an AVP with the length 0.
-/

namespace VoipMonitor.Diameter
open VoipMonitor.Library

/-- All headers and payloads that are read lie in front of `n`. -/
def Reads.Inside (n : Nat) (r : Reads) : Prop := ∀ region ∈ r.regions, region.start + region.size ≤ n

/-- However far the parsing goes, what it reads lies in the message. -/
def DiameterMsg.ReadsInside (d : DiameterMsg) : Prop := ∀ fuel, (d.reads fuel).Inside d.datalen

inductive ReachesAt : Nat → Bytes → Nat → Nat → Nat → DiameterAvp → Prop where
  | here {start : Nat} {payload : Bytes} {payloadLen offset : Nat} {avp : DiameterAvp} :
      AcceptedAt payload payloadLen offset avp →
      ReachesAt start payload payloadLen offset (start + offset) avp
  | inside {start : Nat} {payload : Bytes} {payloadLen offset place : Nat} {group avp : DiameterAvp} :
      AcceptedAt payload payloadLen offset group → group.isGroup = true →
      ReachesAt (start + offset + group.headerLength) group.payload group.payloadLen 0 place avp →
      ReachesAt start payload payloadLen offset place avp
  | behind {start : Nat} {payload : Bytes} {payloadLen offset place : Nat}
      {first avp : DiameterAvp} :
      AcceptedAt payload payloadLen offset first →
      ReachesAt start payload payloadLen (offset + first.realLength) place avp →
      ReachesAt start payload payloadLen offset place avp

/-- The loop ends in front of `n`, and with it all it has read. -/
inductive EndsWithin (n : Nat) : Nat → Bytes → Nat → Nat → Prop where
  | stops {start : Nat} {payload : Bytes} {payloadLen offset : Nat} :
      (∀ avp, ¬AcceptedAt payload payloadLen offset avp) →
      (avpHeaderSize < payloadLen - offset → start + offset + avpHeaderSize ≤ n) →
      EndsWithin n start payload payloadLen offset
  | item {start : Nat} {payload : Bytes} {payloadLen offset : Nat} {avp : DiameterAvp} :
      AcceptedAt payload payloadLen offset avp → avp.isGroup = false →
      start + offset + avpHeaderSize ≤ n →
      (0 < avp.payloadLen → avp.payloadLen < 16 * 1024 → start + offset + avp.length ≤ n) →
      EndsWithin n start payload payloadLen (offset + avp.realLength) →
      EndsWithin n start payload payloadLen offset
  | group {start : Nat} {payload : Bytes} {payloadLen offset : Nat} {avp : DiameterAvp} :
      AcceptedAt payload payloadLen offset avp → avp.isGroup = true →
      start + offset + avpHeaderSize ≤ n →
      EndsWithin n (start + offset + avp.headerLength) avp.payload avp.payloadLen 0 →
      EndsWithin n start payload payloadLen (offset + avp.realLength) →
      EndsWithin n start payload payloadLen offset

/-- The parsing comes to an AVP with the length 0 whose header lies in the message. -/
def DiameterMsg.StaysInside (d : DiameterMsg) : Prop :=
  ∃ place avp, ReachesAt headerSize d.payload d.payloadLen 0 place avp ∧ avp.length = 0 ∧
    place + avpHeaderSize ≤ d.datalen

/-- The parsing comes to its end in a message. -/
def DiameterMsg.EndsInside (d : DiameterMsg) : Prop :=
  EndsWithin d.datalen headerSize d.payload d.payloadLen 0

variable {n fuel start payloadLen offset place : Nat} {payload : Bytes} {avp : DiameterAvp}
  {r s : Reads}

/-! ## The reads of a loop -/

lemma Reads.inside_nil (ended : Bool) : Reads.Inside n ⟨[], ended⟩ :=
  fun _ h => absurd h List.not_mem_nil

lemma Reads.inside_single {region : Region} {ended : Bool} :
    Reads.Inside n ⟨[region], ended⟩ ↔ region.start + region.size ≤ n :=
  List.forall_mem_singleton

lemma Reads.inside_append :
    (r.append s).Inside n ↔ r.Inside n ∧ (r.ended = true → s.Inside n) := by
  rw [Reads.append]
  split
  · rename_i hended
    simp only [Reads.Inside, List.forall_mem_append, hended, forall_const]
  · rename_i hended
    exact ⟨fun h => ⟨h, fun hr => absurd hr hended⟩, fun h => h.1⟩

lemma Reads.ended_append : (r.append s).ended = (r.ended && s.ended) := by
  rw [Reads.append]
  split
  · rename_i hended
    rw [hended, Bool.true_and]
  · rename_i hended
    rw [Bool.eq_false_iff.mpr hended, Bool.false_and]

lemma AcceptedAt.avpsReads_eq (h : AcceptedAt payload payloadLen offset avp) (fuel start : Nat) :
    avpsReads (fuel + 1) start payload payloadLen offset =
      Reads.append ⟨[⟨start + offset, avpHeaderSize⟩], true⟩
        ((avp.reads fuel (start + offset)).append
          (avpsReads fuel start payload payloadLen (offset + avp.realLength))) := by
  have hok := h.ok
  rw [avpsReads, if_pos ⟨h.lt, h.left⟩]
  rw [← h.avp_eq, if_pos hok]

lemma avpsReads_of_not_accepted (h : ∀ avp, ¬AcceptedAt payload payloadLen offset avp)
    (fuel start : Nat) :
    avpsReads (fuel + 1) start payload payloadLen offset =
      if avpHeaderSize < payloadLen - offset then ⟨[⟨start + offset, avpHeaderSize⟩], true⟩
      else ⟨[], true⟩ := by
  rw [avpsReads]
  split
  · rename_i hlooks
    rw [if_neg fun hok => h _ ⟨hlooks.1, hlooks.2, rfl, hok⟩, if_pos hlooks.2]
  · rw [if_neg (by omega)]

lemma avpsReads_ended : (avpsReads fuel start payload payloadLen offset).ended =
    (parseAvps fuel payload payloadLen offset).isSome := by
  induction fuel using Nat.strong_induction_on generalizing start payload payloadLen offset with
  | _ fuel ih =>
    cases fuel with
    | zero => rw [avpsReads, parseAvps, Option.isSome_none]
    | succ fuel =>
      by_cases haccepted : ∃ avp, AcceptedAt payload payloadLen offset avp
      · obtain ⟨avp, havp⟩ := haccepted
        have hone : (avp.reads fuel (start + offset)).ended = (avp.parse fuel).isSome := by
          cases fuel with
          | zero => rw [DiameterAvp.reads, DiameterAvp.parse, Option.isSome_none]
          | succ fuel =>
            rw [DiameterAvp.reads, DiameterAvp.parse]
            split
            · split
              · exact ih fuel (by omega)
              · rfl
            · split <;> rfl
        rw [havp.avpsReads_eq, havp.parseAvps_eq, Reads.ended_append, Reads.ended_append,
          Bool.true_and, hone, ih fuel (Nat.lt_succ_self _)]
        cases avp.parse fuel with
        | none => rfl
        | some items => rw [Option.isSome_some, Bool.true_and, Option.bind_some, Option.isSome_map]
      · rw [not_exists] at haccepted
        rw [avpsReads_of_not_accepted haccepted, parseAvps_of_not_accepted haccepted]
        split <;> rfl

/-! ## What is taken lies in what holds it -/

lemma AcceptedAt.realLength_le (h : AcceptedAt payload payloadLen offset avp) :
    offset + avp.realLength ≤ payloadLen := by
  have hok := h.ok
  have hlt := h.lt
  have hdatalen : avp.datalen = payloadLen - offset := by rw [h.avp_eq]
  rw [DiameterAvp.lengthIsOk, Bool.and_eq_true, decide_eq_true_iff, hdatalen] at hok
  omega

lemma DiameterAvp.headerLength_add_payloadLen (h : 0 < avp.payloadLen) :
    avp.headerLength + avp.payloadLen = avp.length := by
  rw [DiameterAvp.payloadLen] at h ⊢
  split at h
  · rename_i hgt
    rw [if_pos hgt]
    omega
  · omega

lemma Reads.Inside.mono {n' : Nat} (h : r.Inside n) (hle : n ≤ n') : r.Inside n' :=
  fun region hregion => le_trans (h region hregion) hle

lemma DiameterAvp.reads_inside
    (hgroup : avp.isGroup = true → 0 < avp.payloadLen → ∀ f < fuel,
      (avpsReads f (start + avp.headerLength) avp.payload avp.payloadLen 0).Inside n)
    (hitem : avp.isGroup = false → 0 < avp.payloadLen → avp.payloadLen < 16 * 1024 →
      start + avp.length ≤ n) : (avp.reads fuel start).Inside n := by
  cases fuel with
  | zero =>
    rw [DiameterAvp.reads]
    exact Reads.inside_nil _
  | succ fuel =>
    rw [DiameterAvp.reads]
    split
    · rename_i hcode
      split
      · rename_i hpos
        exact hgroup hcode hpos fuel (Nat.lt_succ_self _)
      · exact Reads.inside_nil _
    · rename_i hcode
      split
      · rename_i hpos
        have hend := hitem (Bool.eq_false_iff.mpr hcode) hpos.1 hpos.2
        have hsum := DiameterAvp.headerLength_add_payloadLen hpos.1
        rw [Reads.inside_single]
        dsimp only
        omega
      · exact Reads.inside_nil _

lemma AcceptedAt.reads_inside (h : AcceptedAt payload payloadLen offset avp)
    (hheader : start + offset + avpHeaderSize ≤ n)
    (havp : ∀ f < fuel, (avp.reads f (start + offset)).Inside n)
    (hrest : ∀ f < fuel, (avp.reads f (start + offset)).ended = true →
      (avpsReads f start payload payloadLen (offset + avp.realLength)).Inside n) :
    (avpsReads fuel start payload payloadLen offset).Inside n := by
  cases fuel with
  | zero =>
    rw [avpsReads]
    exact Reads.inside_nil _
  | succ fuel =>
    rw [h.avpsReads_eq, Reads.inside_append, Reads.inside_append, Reads.inside_single]
    exact ⟨hheader, fun _ => ⟨havp fuel (Nat.lt_succ_self _), hrest fuel (Nat.lt_succ_self _)⟩⟩

lemma reads_inside_of_not_accepted (h : ∀ avp, ¬AcceptedAt payload payloadLen offset avp)
    (hheader : avpHeaderSize < payloadLen - offset → start + offset + avpHeaderSize ≤ n) :
    (avpsReads fuel start payload payloadLen offset).Inside n := by
  cases fuel with
  | zero =>
    rw [avpsReads]
    exact Reads.inside_nil _
  | succ fuel =>
    rw [avpsReads_of_not_accepted h]
    split
    · rename_i hlooks
      exact Reads.inside_single.mpr (hheader hlooks)
    · exact Reads.inside_nil _

lemma avpsReads_inside_end :
    (avpsReads fuel start payload payloadLen offset).Inside (start + payloadLen) := by
  induction fuel using Nat.strong_induction_on generalizing start payload payloadLen offset with
  | _ fuel ih =>
    by_cases haccepted : ∃ avp, AcceptedAt payload payloadLen offset avp
    · obtain ⟨avp, havp⟩ := haccepted
      have hleft := havp.left
      have hreal := havp.realLength_le
      have hlength := avp.length_le_realLength
      refine havp.reads_inside (by omega) (fun f hf => ?_) (fun f hf _ => ih f hf)
      apply DiameterAvp.reads_inside
      · intro _ hpos f' hf'
        have hsum := DiameterAvp.headerLength_add_payloadLen hpos
        exact (ih f' (by omega)).mono (by omega)
      · intro _ _ _
        omega
    · rw [not_exists] at haccepted
      exact reads_inside_of_not_accepted haccepted (by omega)

lemma DiameterAvp.reads_inside_of_length (h : start + avp.length ≤ n) :
    (avp.reads fuel start).Inside n := by
  apply DiameterAvp.reads_inside
  · intro _ hpos f _
    have hsum := DiameterAvp.headerLength_add_payloadLen hpos
    exact avpsReads_inside_end.mono (by omega)
  · exact fun _ _ _ => h

/-! ## A loop that stays -/

lemma ReachesAt.le_place (h : ReachesAt start payload payloadLen offset place avp) :
    start + offset ≤ place := by
  induction h with
  | here _ => exact le_rfl
  | inside _ _ _ ih => omega
  | behind _ _ ih => omega

lemma ReachesAt.reachesAvp (h : ReachesAt start payload payloadLen offset place avp) :
    ReachesAvp payload payloadLen offset avp := by
  induction h with
  | here hat => exact .here hat
  | inside hat hcode _ ih => exact .inside hat hcode ih
  | behind hat _ ih => exact .behind hat ih

lemma ReachesAvp.payloadLen_pos (h : ReachesAvp payload payloadLen offset avp) :
    0 < payloadLen := by
  cases h with
  | here hat => exact lt_of_le_of_lt (Nat.zero_le _) hat.lt
  | inside hat _ _ => exact lt_of_le_of_lt (Nat.zero_le _) hat.lt
  | behind hat _ => exact lt_of_le_of_lt (Nat.zero_le _) hat.lt

lemma DiameterAvp.reads_not_ended (hcode : avp.isGroup = true) {member : DiameterAvp}
    (h : ReachesAvp avp.payload avp.payloadLen 0 member) (hzero : member.length = 0) :
    (avp.reads fuel start).ended = false := by
  cases fuel with
  | zero => rw [DiameterAvp.reads]
  | succ fuel =>
    rw [DiameterAvp.reads, if_pos hcode, if_pos h.payloadLen_pos, avpsReads_ended]
    by_contra hended
    obtain ⟨items, hitems⟩ := Option.isSome_iff_exists.mp (Bool.not_eq_false _ ▸ hended)
    exact length_ne_zero_of_parseAvps hitems h hzero

lemma ReachesAt.reads_inside (h : ReachesAt start payload payloadLen offset place avp)
    (hzero : avp.length = 0) (hplace : place + avpHeaderSize ≤ n) (fuel : Nat) :
    (avpsReads fuel start payload payloadLen offset).Inside n := by
  induction h generalizing fuel with
  | @here start payload payloadLen offset avp hat =>
    induction fuel using Nat.strong_induction_on with
    | _ fuel ih =>
      refine hat.reads_inside hplace (fun f _ => ?_) (fun f hf _ => ?_)
      · exact DiameterAvp.reads_inside_of_length (by omega)
      · rw [DiameterAvp.realLength_eq_zero hzero]
        exact ih f hf
  | @inside start payload payloadLen offset place group avp hat hcode hin ih =>
    have hge := hin.le_place
    refine hat.reads_inside (by omega) (fun f _ => ?_) (fun f _ hended => ?_)
    · apply DiameterAvp.reads_inside
      · exact fun _ _ f' _ => ih hzero hplace f'
      · exact fun hitem => absurd hcode (Bool.eq_false_iff.mp hitem)
    · rw [DiameterAvp.reads_not_ended hcode hin.reachesAvp hzero] at hended
      cases hended
  | @behind start payload payloadLen offset place first avp hat hrest ih =>
    have hge := hrest.le_place
    have hlength := first.length_le_realLength
    refine hat.reads_inside (by omega) (fun f _ => ?_) (fun f _ _ => ih hzero hplace f)
    exact DiameterAvp.reads_inside_of_length (by omega)

/-! ## A loop that ends -/

lemma AcceptedAt.unique {avp' : DiameterAvp} (h : AcceptedAt payload payloadLen offset avp)
    (h' : AcceptedAt payload payloadLen offset avp') : avp' = avp :=
  h'.avp_eq.trans h.avp_eq.symm

lemma EndsWithin.length_ne_zero (h : EndsWithin n start payload payloadLen offset)
    (havp : ReachesAvp payload payloadLen offset avp) : avp.length ≠ 0 := by
  induction h generalizing avp with
  | stops hnone _ =>
    cases havp with
    | here hat => exact absurd hat (hnone _)
    | inside hat _ _ => exact absurd hat (hnone _)
    | behind hat _ => exact absurd hat (hnone _)
  | @item start payload payloadLen offset first hat hcode _ _ _ ih =>
    cases havp with
    | here hhere =>
      -- with the length 0 the rest of the loop comes to the same AVP
      intro hzero
      have hreal := DiameterAvp.realLength_eq_zero hzero
      rw [← hat.unique hhere, hreal, Nat.add_zero] at ih
      exact ih (.here hhere) hzero
    | inside hhere hgroup _ =>
      rw [hat.unique hhere, hcode] at hgroup
      cases hgroup
    | behind hhere hrest =>
      rw [hat.unique hhere] at hrest
      exact ih hrest
  | @group start payload payloadLen offset first hat hcode _ _ _ ihIn ih =>
    cases havp with
    | here hhere =>
      intro hzero
      have hreal := DiameterAvp.realLength_eq_zero hzero
      rw [← hat.unique hhere, hreal, Nat.add_zero] at ih
      exact ih (.here hhere) hzero
    | inside hhere hgroup hin =>
      rw [hat.unique hhere] at hin
      exact ihIn hin
    | behind hhere hrest =>
      rw [hat.unique hhere] at hrest
      exact ih hrest

lemma EndsWithin.reads_inside (h : EndsWithin n start payload payloadLen offset) (fuel : Nat) :
    (avpsReads fuel start payload payloadLen offset).Inside n := by
  induction h generalizing fuel with
  | stops hnone hheader => exact reads_inside_of_not_accepted hnone hheader
  | item hat hcode hheader hitem _ ih =>
    refine hat.reads_inside hheader (fun f _ => ?_) (fun f _ _ => ih f)
    apply DiameterAvp.reads_inside
    · exact fun hgroup => absurd hgroup (Bool.eq_false_iff.mp hcode)
    · exact fun _ => hitem
  | group hat hcode hheader _ _ ihIn ih =>
    refine hat.reads_inside hheader (fun f _ => ?_) (fun f _ _ => ih f)
    apply DiameterAvp.reads_inside
    · exact fun _ _ f' _ => ihIn f'
    · exact fun hitem => absurd hcode (Bool.eq_false_iff.mp hitem)

lemma EndsWithin.ended (h : EndsWithin n start payload payloadLen offset)
    (hfuel : payloadLen - offset < fuel) :
    (avpsReads fuel start payload payloadLen offset).ended = true := by
  obtain ⟨items, hitems⟩ := exists_parseAvps (fun _ => h.length_ne_zero) hfuel
  rw [avpsReads_ended, hitems, Option.isSome_some]

/-! ## A loop whose reads lie inside -/

lemma AcceptedAt.inside_parts (h : AcceptedAt payload payloadLen offset avp)
    (hinside : (avpsReads (fuel + 1) start payload payloadLen offset).Inside n) :
    start + offset + avpHeaderSize ≤ n ∧ (avp.reads fuel (start + offset)).Inside n ∧
      ((avp.reads fuel (start + offset)).ended = true →
        (avpsReads fuel start payload payloadLen (offset + avp.realLength)).Inside n) := by
  rw [h.avpsReads_eq, Reads.inside_append, Reads.inside_append, Reads.inside_single] at hinside
  exact ⟨hinside.1, hinside.2 rfl⟩

lemma DiameterAvp.group_ended (hcode : avp.isGroup = true)
    (hends : EndsWithin n (start + avp.headerLength) avp.payload avp.payloadLen 0)
    (hfuel : avp.payloadLen + 2 ≤ fuel) : (avp.reads fuel start).ended = true := by
  obtain ⟨fuel, rfl⟩ : ∃ f, fuel = f + 1 := ⟨fuel - 1, by omega⟩
  rw [DiameterAvp.reads, if_pos hcode]
  split
  · exact hends.ended (by omega)
  · rfl

lemma DiameterAvp.item_ended (hcode : ¬avp.isGroup = true) (hfuel : 1 ≤ fuel) :
    (avp.reads fuel start).ended = true := by
  obtain ⟨fuel, rfl⟩ : ∃ f, fuel = f + 1 := ⟨fuel - 1, by omega⟩
  rw [DiameterAvp.reads, if_neg hcode]
  split <;> rfl

lemma DiameterAvp.item_inside (hcode : ¬avp.isGroup = true) (hpos : 0 < avp.payloadLen)
    (hshort : avp.payloadLen < 16 * 1024) (hin : (avp.reads (fuel + 1) start).Inside n) :
    start + avp.length ≤ n := by
  have hsum := DiameterAvp.headerLength_add_payloadLen hpos
  rw [DiameterAvp.reads, if_neg hcode, if_pos ⟨hpos, hshort⟩, Reads.inside_single] at hin
  dsimp only at hin
  omega

lemma ends_or_stays (bound : Nat)
    (h : ∀ fuel, bound ≤ fuel → (avpsReads fuel start payload payloadLen offset).Inside n) :
    EndsWithin n start payload payloadLen offset ∨
      ∃ place avp, ReachesAt start payload payloadLen offset place avp ∧ avp.length = 0 ∧
        place + avpHeaderSize ≤ n := by
  generalize hleft : payloadLen - offset = left
  induction left using Nat.strong_induction_on generalizing bound start payload payloadLen offset with
  | _ left ih =>
    by_cases haccepted : ∃ avp, AcceptedAt payload payloadLen offset avp
    · obtain ⟨avp, havp⟩ := haccepted
      have hparts : ∀ fuel, bound ≤ fuel → _ := fun fuel hfuel =>
        havp.inside_parts (h (fuel + 1) (by omega))
      have hheader := (hparts bound le_rfl).1
      have hlooks := havp.left
      have hreal := avp.length_le_realLength
      by_cases hzero : avp.length = 0
      · exact Or.inr ⟨_, avp, .here havp, hzero, hheader⟩
      -- what is behind the AVP is read once the AVP has ended
      have hbehind : ∀ bound', (∀ fuel, bound' ≤ fuel →
          (avp.reads fuel (start + offset)).ended = true) →
          EndsWithin n start payload payloadLen (offset + avp.realLength) ∨
            ∃ place later, ReachesAt start payload payloadLen (offset + avp.realLength) place later ∧
              later.length = 0 ∧ place + avpHeaderSize ≤ n := by
        intro bound' hended
        exact ih _ (by omega) (max bound bound') (fun fuel hfuel =>
          (hparts fuel (by omega)).2.2 (hended fuel (by omega))) rfl
      by_cases hcode : avp.isGroup = true
      · have hgroup : EndsWithin n (start + offset + avp.headerLength) avp.payload avp.payloadLen 0 ∨
            ∃ place member, ReachesAt (start + offset + avp.headerLength) avp.payload avp.payloadLen 0
              place member ∧ member.length = 0 ∧ place + avpHeaderSize ≤ n := by
          by_cases hpos : 0 < avp.payloadLen
          · have hless := havp.payloadLen_le hpos
            refine ih avp.payloadLen (by unfold avpHeaderSize at hless; omega) bound
              (fun fuel hfuel => ?_) rfl
            have hin := (hparts (fuel + 1) (by omega)).2.1
            rw [DiameterAvp.reads, if_pos hcode, if_pos hpos] at hin
            exact hin
          · refine Or.inl (.stops (fun member hmember => hpos ?_) (fun hlooks => absurd ?_ hpos))
            · exact hmember.lt
            · exact lt_of_le_of_lt (Nat.zero_le _) hlooks
        rcases hgroup with hends | ⟨place, member, hmember, hzero', hplace⟩
        · rcases hbehind _ (fun fuel hfuel => DiameterAvp.group_ended hcode hends hfuel) with
            hrest | ⟨place, later, hlater, hzero', hplace⟩
          · exact Or.inl (.group havp hcode hheader hends hrest)
          · exact Or.inr ⟨place, later, .behind havp hlater, hzero', hplace⟩
        · exact Or.inr ⟨place, member, .inside havp hcode hmember, hzero', hplace⟩
      · have hitem : 0 < avp.payloadLen → avp.payloadLen < 16 * 1024 →
            start + offset + avp.length ≤ n := fun hpos hshort =>
          DiameterAvp.item_inside hcode hpos hshort (hparts (bound + 1) (by omega)).2.1
        rcases hbehind _ (fun fuel hfuel => DiameterAvp.item_ended hcode hfuel) with
          hrest | ⟨place, later, hlater, hzero', hplace⟩
        · exact Or.inl (.item havp (Bool.eq_false_iff.mpr hcode) hheader hitem hrest)
        · exact Or.inr ⟨place, later, .behind havp hlater, hzero', hplace⟩
    · rw [not_exists] at haccepted
      refine Or.inl (.stops haccepted (fun hlooks => ?_))
      have hin := h (bound + 1) (by omega)
      rw [avpsReads_of_not_accepted haccepted, if_pos hlooks] at hin
      exact Reads.inside_single.mp hin

/-! ## Messages -/

lemma DiameterAvp.realLength_le_max (avp : DiameterAvp) : avp.realLength ≤ 2 ^ 24 := by
  have hlength : avp.length < 2 ^ 24 := be24_lt _ _
  rw [DiameterAvp.realLength]
  split <;> omega

lemma DiameterAvp.headerLength_le (avp : DiameterAvp) : avp.headerLength ≤ 12 := by
  rw [DiameterAvp.headerLength, avpHeaderSize]
  split <;> omega

lemma left_le_of_not_accepted (h : ∀ avp, ¬AcceptedAt payload payloadLen offset avp) :
    payloadLen - offset ≤ 2 ^ 24 := by
  by_contra hleft
  refine h ⟨payload.drop offset, payloadLen - offset⟩ ⟨by omega, ?_, rfl, ?_⟩
  · unfold avpHeaderSize
    omega
  · have hreal := DiameterAvp.realLength_le_max ⟨payload.drop offset, payloadLen - offset⟩
    have hheader := DiameterAvp.headerLength_le ⟨payload.drop offset, payloadLen - offset⟩
    rw [DiameterAvp.lengthIsOk, DiameterAvp.headerLengthIsOk]
    simp only [Bool.and_eq_true, decide_eq_true_iff]
    unfold avpHeaderSize
    omega

lemma EndsWithin.end_le (h : EndsWithin n start payload payloadLen offset)
    (hoffset : start + offset ≤ n + 2 ^ 24) : start + payloadLen ≤ n + 2 ^ 24 + avpHeaderSize := by
  induction h with
  | @stops start _ payloadLen offset hnone hheader =>
    have hleft := left_le_of_not_accepted hnone
    by_cases hlooks : avpHeaderSize < payloadLen - offset
    · have hin := hheader hlooks
      omega
    · omega
  | @item _ _ _ _ avp _ _ hheader _ _ ih =>
    have hreal := avp.realLength_le_max
    exact ih (by omega)
  | @group _ _ _ _ avp _ _ hheader _ _ _ ih =>
    have hreal := avp.realLength_le_max
    exact ih (by omega)

lemma checkOkDiameter_lengths {d : DiameterMsg} (h : checkOkDiameter d.data d.datalen = true) :
    headerSize ≤ d.datalen ∧ d.length ≤ d.datalen := by
  rw [checkOkDiameter] at h
  split at h
  · simp only [DiameterMsg.lengthIsOk, DiameterMsg.headerLengthIsOk, Bool.and_eq_true,
      decide_eq_true_iff] at h
    exact ⟨h.1.2, h.2.2⟩
  · cases h

/-- The parsing of an accepted message stays inside if the length field covers the header. Else it
does so only if it stays at an AVP with the length 0, or if the message ends where memory does. -/
theorem reads_inside_iff (d : DiameterMsg) (hok : checkOkDiameter d.data d.datalen = true) :
    d.ReadsInside ↔ headerSize ≤ d.length ∨ d.StaysInside ∨
      2 ^ 32 ≤ d.datalen + 2 ^ 24 + avpHeaderSize ∧ d.EndsInside := by
  obtain ⟨hheader, hlength⟩ := checkOkDiameter_lengths hok
  constructor
  · intro hinside
    by_cases hcovers : headerSize ≤ d.length
    · exact Or.inl hcovers
    · rcases ends_or_stays 0 (fun fuel _ => hinside fuel) with hends | hstays
      · have hwraps : d.payloadLen = d.length + (2 ^ 32 - headerSize) := by
          rw [DiameterMsg.payloadLen, sub32]
          unfold headerSize at hcovers ⊢
          omega
        have hend := hends.end_le (by omega)
        unfold headerSize avpHeaderSize at *
        exact Or.inr (Or.inr ⟨by omega, hends⟩)
      · exact Or.inr (Or.inl hstays)
  · rintro (hcovers | ⟨place, avp, havp, hzero, hplace⟩ | ⟨-, hends⟩) fuel
    · have hpayload : d.payloadLen = d.length - headerSize :=
        sub32_eq (lt_trans (be24_lt _ _) (by decide)) hcovers
      exact avpsReads_inside_end.mono (by omega)
    · exact havp.reads_inside hzero hplace fuel
    · exact hends.reads_inside fuel

theorem reads_inside_empty_avp : DiameterMsg.ReadsInside ⟨emptyAvpMessage, 32⟩ :=
  (reads_inside_iff ⟨emptyAvpMessage, 32⟩ (by decide +kernel)).mpr (Or.inl (by decide +kernel))

def shortLengthMessage : Bytes := [1, 0, 0, 0, 128, 0, 1, 44, 0, 0, 0, 0, 0, 0, 0, 1, 0, 0, 0, 2]

theorem reads_not_inside_of_short_length :
    ¬∀ d : DiameterMsg, checkOkDiameter d.data d.datalen = true → d.ReadsInside := by
  intro h
  have hinside := h ⟨shortLengthMessage, 20⟩ (by decide +kernel) 1
  have hreads : DiameterMsg.reads 1 ⟨shortLengthMessage, 20⟩ = ⟨[⟨20, 8⟩], false⟩ := by
    decide +kernel
  rw [hreads] at hinside
  exact absurd (hinside ⟨20, 8⟩ List.mem_cons_self) (by decide)

end VoipMonitor.Diameter
