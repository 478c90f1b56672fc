import VoipMonitor.Proofs.SipPipeline

/-!
# The bounds of the reported messages

Plain data is cut into tiles that lie in it. For a websocket frame the length of every message is
made longer by the header of the frame, while only the first message begins with it: two messages
fit when the data behind them has room, and more than two do not follow one another.
-/

namespace VoipMonitor.Sip
open VoipMonitor.Library

/-- Each offset is the end of the tile before it, and the tiles end in the data. -/
def InBounds (n : Nat) : Nat → List (Nat × Nat) → Prop
  | _, [] => True
  | a, o :: offsets => o.1 = a ∧ o.1 + o.2 ≤ n ∧ InBounds n (o.1 + o.2) offsets

/-- The messages that are reported follow one another in the data. -/
def OffsetsOk (data : Bytes) (r : SipCheck) : Prop :=
  r.count ≠ 0 → InBounds data.length 0 r.offsets

/-! ## Plain data -/

lemma tiling_append {a b c : Nat} {offsets : List (Nat × Nat)} (h : Tiling a offsets b) (hc : 0 < c) :
    Tiling a (offsets ++ [(b, c)]) (b + c) := by
  induction offsets generalizing a with
  | nil =>
    obtain rfl : a = b := h
    exact ⟨rfl, hc, rfl⟩
  | cons o offsets ih => exact ⟨h.1, h.2.1, ih h.2.2⟩

structure Reports (n : Nat) (r : SipCheck) : Prop where
  tiles : ∃ e ≤ n, Tiling 0 r.offsets e
  length : r.count ≠ 0 → r.offsets.length = r.count

lemma reports_zero {n e : Nat} {offsets : List (Nat × Nat)} (he : e ≤ n) (h : Tiling 0 offsets e)
    (used : Nat) : Reports n ⟨0, offsets, used⟩ := ⟨⟨e, he, h⟩, fun hne => absurd rfl hne⟩

lemma reports_ite {n e countOk : Nat} {offsets : List (Nat × Nat)} (he : e ≤ n)
    (h : Tiling 0 offsets e) (hcount : offsets.length = countOk) (strict : Bool) (used : Nat) :
    Reports n ⟨if strict then 0 else countOk, offsets, used⟩ := by
  refine ⟨⟨e, he, h⟩, fun hne => ?_⟩
  cases strict with
  | true => exact absurd rfl hne
  | false => exact hcount

lemma checkSipLoop_reports {mode : StrictMode} {n fuel offset countOk : Nat} {data : Bytes}
    {offsets : List (Nat × Nat)} (hoffsets : Tiling 0 offsets offset)
    (hcount : offsets.length = countOk) (hlen : offset + data.length = n) (orig : Nat) :
    Reports n (checkSipLoop mode orig fuel data offset countOk offsets) := by
  induction fuel generalizing data offset countOk offsets with
  | zero => exact reports_zero (by omega) hoffsets 0
  | succ fuel ih =>
    have hbroken := reports_ite (n := n) (by omega) hoffsets hcount mode.strict
      (if mode.strict then 0 else offset)
    rw [checkSipLoop]
    by_cases hempty : data = []
    · rw [if_pos hempty]
      exact hbroken
    · rw [if_neg hempty]
      cases hend : findHeaderEnd data with
      | none => exact hbroken
      | some e =>
        obtain ⟨pos, size⟩ := e
        dsimp only
        split
        · exact reports_zero (by omega) hoffsets 0
        · generalize BlockStore.toInt32
            (pos + size + (findContentLength (data.take pos)).getD 0) = sipDataLen
          by_cases hall : sipDataLen = data.length
          · have hpos : 0 < sipDataLen.toNat := by
              have := List.length_pos_iff.mpr hempty
              omega
            rw [if_pos hall]
            split
            · exact reports_zero (by omega) hoffsets 0
            · refine ⟨⟨offset + sipDataLen.toNat, by omega, tiling_append hoffsets hpos⟩, fun _ => ?_⟩
              rw [List.length_append, hcount]
              rfl
          · rw [if_neg hall]
            by_cases hfits : 0 < sipDataLen ∧ sipDataLen < data.length
            · have hpos : 0 < sipDataLen.toNat := by omega
              have hle : offset + sipDataLen.toNat ≤ n := by omega
              have hnext : (offsets ++ [(offset, sipDataLen.toNat)]).length = countOk + 1 := by
                rw [List.length_append, hcount]
                rfl
              have htiling := tiling_append hoffsets hpos
              rw [if_pos hfits]
              split
              · exact ⟨⟨_, hle, htiling⟩, fun _ => hnext⟩
              · split
                · refine ih htiling hnext ?_
                  rw [List.length_drop]
                  omega
                · exact reports_ite hle htiling hnext mode.strict _
            · rw [if_neg hfits]
              exact hbroken

lemma checkSipData_reports (data : Bytes) (mode : StrictMode) :
    Reports data.length (checkSipData data mode) :=
  checkSipLoop_reports (show Tiling 0 [] 0 from rfl) rfl (Nat.zero_add _) _

/-! ## Frames -/

/-- The bytes in the innermost of the frames, and the size of the headers before them. -/
def unwrap : Nat → Bytes → Option (Bytes × Nat)
  | 0, _ => none
  | fuel + 1, data =>
    if checkWebsocket data .geLimit then
      (decodeData data 0).bind (fun wsData =>
        (unwrap fuel (wsData.take (getDataLength data))).map (fun u =>
          (u.1, u.2 + getHeaderLength data)))
    else some (data, 0)

def checkPlain (data : Bytes) (mode : StrictMode) : SipCheck :=
  if data.length < 10 ∨ ¬checkSip20 data true then ⟨0, [], 0⟩ else checkSipData data mode

def behindHeader (h : Nat) (offsets : List (Nat × Nat)) : List (Nat × Nat) :=
  offsets.mapIdx (fun i o => (if i > 0 then o.1 + h else o.1, o.2 + h))

lemma behindHeader_zero (offsets : List (Nat × Nat)) : behindHeader 0 offsets = offsets := by
  apply List.ext_getElem
  · exact List.length_mapIdx
  · intro i h1 h2
    simp only [behindHeader, List.getElem_mapIdx, Nat.add_zero, ite_self]

lemma behindHeader_behindHeader (h h' : Nat) (offsets : List (Nat × Nat)) :
    behindHeader h' (behindHeader h offsets) = behindHeader (h + h') offsets := by
  rw [behindHeader, behindHeader, behindHeader, List.mapIdx_mapIdx]
  congr 1
  funext i o
  by_cases hi : i > 0
  · simp only [Function.comp_apply, if_pos hi, Nat.add_assoc]
  · simp only [Function.comp_apply, if_neg hi, Nat.add_assoc]

lemma behindHeader_cons (h : Nat) (o : Nat × Nat) (offsets : List (Nat × Nat)) :
    behindHeader h (o :: offsets) = (o.1, o.2 + h) :: offsets.map (fun o => (o.1 + h, o.2 + h)) := by
  rw [behindHeader, List.mapIdx_cons]
  refine congrArg₂ List.cons rfl ?_
  apply List.ext_getElem
  · rw [List.length_mapIdx, List.length_map]
  · intro i h1 h2
    rw [List.getElem_mapIdx, List.getElem_map, if_pos (Nat.succ_pos i)]

def IsCheckOf (mode : StrictMode) (r : SipCheck) : Option (Bytes × Nat) → Prop
  | none => r.count = 0
  | some (plain, h) => r.count = (checkPlain plain mode).count ∧
      (r.count ≠ 0 → r.offsets = behindHeader h (checkPlain plain mode).offsets)

lemma checkSipFrames_unwrap (mode : StrictMode) (fuel : Nat) (data : Bytes) :
    IsCheckOf mode (checkSipFrames fuel data mode) (unwrap fuel data) := by
  induction fuel generalizing data with
  | zero => rfl
  | succ fuel ih =>
    rw [checkSipFrames, unwrap]
    by_cases hws : checkWebsocket data .geLimit = true
    · rw [if_pos hws, if_pos hws]
      cases hdecode : decodeData data 0 with
      | none => rfl
      | some wsData =>
        have hinner := ih (wsData.take (getDataLength data))
        rw [Option.bind_some]
        dsimp only
        cases hunwrap : unwrap fuel (wsData.take (getDataLength data)) with
        | none =>
          rw [hunwrap] at hinner
          exact hinner
        | some u =>
          obtain ⟨plain, h⟩ := u
          rw [hunwrap] at hinner
          refine ⟨hinner.1, fun hne => ?_⟩
          rw [if_pos hne, hinner.2 hne]
          exact behindHeader_behindHeader h (getHeaderLength data) _
    · rw [if_neg hws, if_neg hws]
      refine ⟨rfl, fun _ => ?_⟩
      exact (behindHeader_zero _).symm

lemma length_checkWebsocket {data : Bytes} (h : checkWebsocket data .geLimit = true) :
    getHeaderLength data + getDataLength data ≤ data.length := by
  simp only [checkWebsocket, isDataSizeOk, Bool.and_eq_true, decide_eq_true_eq] at h
  exact h.2.1

lemma two_le_getHeaderLength (data : Bytes) : 2 ≤ getHeaderLength data := by
  unfold getHeaderLength
  omega

lemma unwrap_length {fuel : Nat} {data plain : Bytes} {h : Nat}
    (hunwrap : unwrap fuel data = some (plain, h)) :
    plain.length + h ≤ data.length ∧ (h = 0 → plain = data) := by
  induction fuel generalizing data h with
  | zero => cases hunwrap
  | succ fuel ih =>
    rw [unwrap] at hunwrap
    by_cases hws : checkWebsocket data .geLimit = true
    · rw [if_pos hws] at hunwrap
      obtain ⟨wsData, -, hrest⟩ := Option.bind_eq_some_iff.mp hunwrap
      obtain ⟨⟨plain', h'⟩, hinner, heq⟩ := Option.map_eq_some_iff.mp hrest
      obtain ⟨rfl, rfl⟩ := Prod.mk.inj heq
      have hlen := (ih hinner).1
      have hfits := length_checkWebsocket hws
      have htake := List.length_take_le (getDataLength data) wsData
      have hheader := two_le_getHeaderLength data
      exact ⟨by omega, fun hzero => by omega⟩
    · rw [if_neg hws] at hunwrap
      obtain ⟨rfl, rfl⟩ := Prod.mk.inj (Option.some.inj hunwrap)
      exact ⟨le_rfl, fun _ => rfl⟩

/-! ## Offsets behind a header -/

lemma tiling_inBounds {a b n : Nat} {offsets : List (Nat × Nat)} (h : Tiling a offsets b)
    (hb : b ≤ n) : InBounds n a offsets ∧ a ≤ b := by
  induction offsets generalizing a with
  | nil => exact ⟨trivial, Nat.le_of_eq h⟩
  | cons o offsets ih =>
    obtain ⟨hfirst, -, hrest⟩ := h
    obtain ⟨hbounds, hle⟩ := ih hrest
    rw [← hfirst] at hbounds hle
    exact ⟨⟨hfirst, hle.trans hb, hbounds⟩, by omega⟩

def secondEnd : List (Nat × Nat) → Nat
  | _ :: o :: _ => o.1 + o.2
  | _ => 0

lemma inBounds_behindHeader_iff {e h n : Nat} {offsets : List (Nat × Nat)}
    (htiling : Tiling 0 offsets e) (hh : 0 < h) (hfits : e + h ≤ n) :
    InBounds n 0 (behindHeader h offsets) ↔
      offsets.length ≤ 1 ∨ offsets.length = 2 ∧ secondEnd offsets + 2 * h ≤ n := by
  match offsets, htiling with
  | [], _ => exact iff_of_true trivial (Or.inl (by decide))
  | [o], htiling =>
    obtain ⟨hfirst, -, hend⟩ := htiling
    have hend' : 0 + o.2 = e := hend
    refine iff_of_true ⟨hfirst, ?_, trivial⟩ (Or.inl le_rfl)
    change o.1 + (o.2 + h) ≤ n
    omega
  | [o, o'], htiling =>
    obtain ⟨hfirst, -, hsecond, -, hend⟩ := htiling
    rw [behindHeader_cons, secondEnd]
    constructor
    · rintro ⟨-, -, -, hlast, -⟩
      change o'.1 + h + (o'.2 + h) ≤ n at hlast
      exact Or.inr ⟨rfl, by omega⟩
    · rintro (hlen | ⟨-, hroom⟩)
      · exact absurd hlen (Nat.lt_irrefl 1)
      · refine ⟨hfirst, ?_, ?_, ?_, trivial⟩
        · change o.1 + (o.2 + h) ≤ n
          omega
        · change o'.1 + h = o.1 + (o.2 + h)
          omega
        · change o'.1 + h + (o'.2 + h) ≤ n
          omega
  | o :: o' :: o'' :: rest, htiling =>
    obtain ⟨hfirst, -, hsecond, -, hthird, -⟩ := htiling
    rw [behindHeader_cons]
    refine iff_of_false ?_ ?_
    · rintro ⟨-, -, -, -, hbad, -⟩
      change o''.1 + h = o'.1 + h + (o'.2 + h) at hbad
      omega
    · rintro (hlen | ⟨hlen, -⟩)
      · change rest.length + 3 ≤ 1 at hlen
        omega
      · change rest.length + 3 = 2 at hlen
        omega

/-- The innermost bytes of a frame hold at most one message, or two with room for two headers. -/
def FewMessages (data : Bytes) (mode : StrictMode) : Prop :=
  ∀ plain h, unwrap (data.length + 1) data = some (plain, h) → 0 < h →
    (checkPlain plain mode).count ≤ 1 ∨
      (checkPlain plain mode).count = 2 ∧
        secondEnd (checkPlain plain mode).offsets + 2 * h ≤ data.length

lemma checkPlain_reports (data : Bytes) (mode : StrictMode) :
    Reports data.length (checkPlain data mode) := by
  unfold checkPlain
  split
  · exact reports_zero (Nat.zero_le _) (show Tiling 0 [] 0 from rfl) 0
  · exact checkSipData_reports data mode

/-- The offsets are in bounds when the data is not a frame or its frame holds few messages. -/
theorem offsetsOk_iff (data : Bytes) (mode : StrictMode) :
    OffsetsOk data (checkSip data mode) ↔ FewMessages data mode := by
  have hcheck := checkSipFrames_unwrap mode (data.length + 1) data
  change IsCheckOf mode (checkSip data mode) _ at hcheck
  unfold OffsetsOk FewMessages
  cases hunwrap : unwrap (data.length + 1) data with
  | none =>
    rw [hunwrap] at hcheck
    exact iff_of_true (fun hne => absurd hcheck hne) (fun _ _ h => by cases h)
  | some u =>
    obtain ⟨plain, h⟩ := u
    rw [hunwrap] at hcheck
    obtain ⟨hcount, hoffsets⟩ := hcheck
    obtain ⟨⟨e, he, htiling⟩, hlength⟩ := checkPlain_reports plain mode
    have hlen := (unwrap_length hunwrap).1
    rcases Nat.eq_zero_or_pos h with rfl | hpos
    · refine iff_of_true (fun hne => ?_) (fun _ _ heq hlt => ?_)
      · rw [hoffsets hne, behindHeader_zero]
        exact (tiling_inBounds htiling (by omega)).1
      · obtain ⟨-, rfl⟩ := Prod.mk.inj (Option.some.inj heq)
        exact absurd hlt (lt_irrefl 0)
    · have hiff := inBounds_behindHeader_iff htiling hpos (by omega : e + h ≤ data.length)
      constructor
      · intro hok plain' h' heq _
        obtain ⟨rfl, rfl⟩ := Prod.mk.inj (Option.some.inj heq)
        by_cases hne : (checkPlain plain mode).count = 0
        · exact Or.inl (by omega)
        · have hbounds := hok (by rwa [hcount])
          rw [hoffsets (by rwa [hcount]), hiff, hlength hne] at hbounds
          exact hbounds
      · intro hfew hne
        rw [hoffsets hne, hiff, hlength (by rwa [← hcount])]
        exact hfew plain h rfl hpos

def twoRequests : Bytes :=
  [0x81, 26] ++ (ascii "BYE sip:a" ++ [13, 10, 13, 10]) ++ (ascii "BYE sip:b" ++ [13, 10, 13, 10])

/-- The second message is reported to end two bytes behind the data. -/
theorem not_offsetsOk_twoRequests : ¬OffsetsOk twoRequests (checkSip twoRequests {}) := by
  have hcheck : checkSip twoRequests {} = ⟨2, [(0, 15), (15, 15)], 0⟩ := by decide +kernel
  intro h
  rw [hcheck] at h
  obtain ⟨-, -, -, hbad, -⟩ := h (by decide)
  exact absurd hbad (by decide)

end VoipMonitor.Sip
