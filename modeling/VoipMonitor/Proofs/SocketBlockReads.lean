import VoipMonitor.Proofs.SocketBlockRoundTrip

/-!
# What `readBlock` hands out

Whether a block is whole is judged by the length with the header, which is taken modulo `2^32`. For
a length in the last 40 values the header alone is a whole block, and the length that is returned is
the one in the header.
-/

namespace VoipMonitor.SocketBlock
open VoipMonitor.Library

/-- The data is decrypted into a new buffer. -/
def Reader.decrypts (r : Reader) (typeEncode : TypeEncode) : Bool :=
  match typeEncode with
  | .rsa => r.privKey.isSome
  | .aes => true
  | _ => false

/-- What is returned is in the buffer, and xor goes over received bytes only. -/
structure HandsOutReceived (r : Reader) (typeEncode : TypeEncode) (c : Conn) (q : Returned) :
    Prop where
  received : q.received <+: c.stream
  returned : ∀ n, q.dataLen = some n →
    headerSize + n ≤ (if r.decrypts typeEncode then q.buffer else q.received).length
  decoded : q.xorEnd ≤ q.received.length

def HeaderArrives (c : Conn) : Prop :=
  headerSize ≤ c.stream.length ∧ headerSize ≤ c.deliveries.sum

variable {r : Reader} {typeEncode : TypeEncode} {xorKey behind buffer stream : Bytes}
  {headerString ctx : Option Bytes} {deliveries : List Nat} {s : ReadState}

/-! ### The layer with the buffer -/

lemma decodeMemory_nil (r : Reader) (typeEncode : TypeEncode) (xorKey : Bytes) (ctx : Option Bytes)
    (buffer : Bytes) (h : headerSize ≤ buffer.length) :
    decodeMemory r typeEncode xorKey ctx buffer [] =
      (decodeBuffer r typeEncode xorKey ctx buffer).1 := by
  unfold decodeMemory decodeBuffer
  simp only [List.append_nil]
  cases typeEncode with
  | na => rfl
  | xor =>
    dsimp only
    split
    · rfl
    · have hfits : headerSize + (xorData xorKey (blockData buffer)).length ≤ buffer.length := by
        rw [length_xorData, blockData, slice, List.length_take, List.length_drop]
        omega
      rw [List.take_of_length_le]
      · rfl
      · exact (length_overwrite hfits).le
  | rsa => cases r.privKey <;> rfl
  | aes => rfl

lemma readLoop_eq_receiveLoop (r : Reader) (typeEncode : TypeEncode) (xorKey : Bytes)
    (ctx : Option Bytes) (deliveries : List Nat) (stream : Bytes) (s : ReadState) :
    (readLoop r typeEncode xorKey ctx deliveries stream s).map Prod.fst =
      (receiveLoop r.blockHeaderString deliveries stream s).map fun (buffer, ok) =>
        if ok then (finishBlock r typeEncode xorKey ctx buffer).1 else none := by
  induction deliveries generalizing stream s with
  | nil => rfl
  | cons d deliveries ih =>
    rw [readLoop, receiveLoop]
    dsimp only
    split
    · exact ih _ _
    · split
      · rfl
      · split
        · rfl
        · exact ih _ _

/-! ### The header does not depend on what follows it -/

lemma okBlockHeader_append (h : headerSize ≤ buffer.length) (rest : Bytes) :
    okBlockHeader headerString (buffer ++ rest) = okBlockHeader headerString buffer := by
  have hshort : 0 + min 30 (getHeaderString headerString).length ≤ buffer.length := by
    unfold headerSize at h
    omega
  rw [okBlockHeader, okBlockHeader, slice_append_left hshort, List.length_append, decide_eq_true (by omega : headerSize ≤ _ + _),
    decide_eq_true h]

lemma lengthBlockHeader_append (h : headerSize ≤ buffer.length) (rest : Bytes) (b : Bool) :
    lengthBlockHeader (buffer ++ rest) b = lengthBlockHeader buffer b := by
  rw [lengthBlockHeader, lengthBlockHeader, if_pos h,
    if_pos (by rw [List.length_append]; omega), slice_append_left (by unfold headerSize at h; omega)]

lemma sumBlockHeader_append (h : headerSize ≤ buffer.length) (rest : Bytes) :
    sumBlockHeader (buffer ++ rest) = sumBlockHeader buffer := by
  rw [sumBlockHeader, sumBlockHeader, if_pos h, if_pos (by rw [List.length_append]; omega),
    slice_append_left (by unfold headerSize at h; omega)]

/-! ### The whole block -/

structure Receiving (headerString : Option Bytes) (s : ReadState) : Prop where
  ok_eq : s.blockHeaderOK = decide (headerSize ≤ s.buffer.length)
  good : headerSize ≤ s.buffer.length → okBlockHeader headerString s.buffer = true
  asks : s.readLength = nextReadLength s.blockHeaderOK s.buffer

lemma Receiving.start (headerString : Option Bytes) : Receiving headerString {} where
  ok_eq := rfl
  good := fun h => absurd h (by decide)
  asks := rfl

lemma Receiving.idle (hs : Receiving headerString s) :
    { s with readLength := nextReadLength s.blockHeaderOK s.buffer } = s := by
  rw [← hs.asks]

lemma take_append_drop_read (d : Nat) (s : ReadState) (stream : Bytes) :
    s.buffer ++ stream.take (min d s.readLength) ++ stream.drop (min d s.readLength) =
      s.buffer ++ stream := by
  rw [List.append_assoc, List.take_append_drop]

lemma receiveLoop_spec {ok : Bool} (hs : Receiving headerString s)
    (h : receiveLoop headerString deliveries stream s = some (buffer, ok)) :
    buffer <+: s.buffer ++ stream ∧ buffer.length ≤ s.buffer.length + deliveries.sum ∧
      (ok = true → headerSize ≤ buffer.length ∧ okBlockHeader headerString buffer = true ∧
        lengthBlockHeader buffer true ≤ buffer.length) := by
  induction deliveries generalizing stream s with
  | nil => cases h
  | cons d deliveries ih =>
    have hsplit := take_append_drop_read d s stream
    rw [receiveLoop] at h
    dsimp only at h
    rw [List.sum_cons]
    split at h
    · rename_i hnone
      rw [hs.idle] at h
      rw [hnone, List.append_nil] at hsplit
      obtain ⟨hfront, hdelivered, hwhole⟩ := ih hs h
      rw [hsplit] at hfront
      exact ⟨hfront, by omega, hwhole⟩
    · set next := s.buffer ++ stream.take (min d s.readLength) with hnext
      have hlength : next.length ≤ s.buffer.length + d := by
        rw [hnext, List.length_append, List.length_take]
        omega
      have hfront : next <+: s.buffer ++ stream := ⟨_, hsplit⟩
      split at h
      · obtain ⟨rfl, rfl⟩ := Prod.mk.inj (Option.some.inj h)
        exact ⟨hfront, by omega, fun hok => absurd hok Bool.false_ne_true⟩
      · rename_i hrefused
        -- the header is tested when it has come in, and stays good
        have hgood : headerSize ≤ next.length → okBlockHeader headerString next = true := by
          intro hle
          by_cases hold : headerSize ≤ s.buffer.length
          · rw [hnext, okBlockHeader_append hold]
            exact hs.good hold
          · by_contra hbad
            exact hrefused ⟨hs.ok_eq.trans (decide_eq_false hold), hle, Bool.not_eq_true _ ▸ hbad⟩
        have hok : (s.blockHeaderOK || decide (headerSize ≤ next.length)) =
            decide (headerSize ≤ next.length) := by
          rw [hs.ok_eq]
          by_cases hold : headerSize ≤ s.buffer.length
          · have hle : headerSize ≤ next.length := by
              rw [hnext, List.length_append]
              omega
            rw [decide_eq_true hold, decide_eq_true hle, Bool.true_or]
          · rw [decide_eq_false hold, Bool.false_or]
        rw [hok] at h
        split at h
        · rename_i hdone
          have hle := of_decide_eq_true hdone.1
          obtain ⟨rfl, rfl⟩ := Prod.mk.inj (Option.some.inj h)
          exact ⟨hfront, by omega, fun _ => ⟨hle, hgood hle, hdone.2⟩⟩
        · obtain ⟨hpre, hdelivered, hwhole⟩ := ih ⟨rfl, hgood, rfl⟩ h
          dsimp only at hpre hdelivered
          rw [hsplit] at hpre
          exact ⟨hpre, by omega, hwhole⟩

lemma receiveLoop_header (hs : Receiving headerString s) (hlt : s.buffer.length < headerSize)
    (hstream : headerSize ≤ (s.buffer ++ stream).length)
    (hdeliveries : headerSize ≤ s.buffer.length + deliveries.sum)
    (hgood : okBlockHeader headerString (s.buffer ++ stream) = true)
    (hlen : lengthBlockHeader (s.buffer ++ stream) true ≤ headerSize) :
    receiveLoop headerString deliveries stream s =
      some ((s.buffer ++ stream).take headerSize, true) := by
  induction deliveries generalizing stream s with
  | nil =>
    rw [List.sum_nil] at hdeliveries
    omega
  | cons d deliveries ih =>
    have hnotOk : s.blockHeaderOK = false := hs.ok_eq.trans (decide_eq_false (by omega))
    have hasks : s.readLength = headerSize - s.buffer.length := by
      rw [hs.asks, hnotOk, nextReadLength, if_neg Bool.false_ne_true]
      unfold maxReadLength headerSize
      omega
    have hsplit := take_append_drop_read d s stream
    rw [List.length_append] at hstream
    rw [List.sum_cons] at hdeliveries
    have hread : (stream.take (min d s.readLength)).length = min d s.readLength := by
      rw [List.length_take]
      omega
    rw [receiveLoop]
    split
    · rename_i hnone
      rw [hnone, List.length_nil] at hread
      rw [hnone, List.append_nil] at hsplit
      rw [hs.idle, ← hsplit]
      rw [← hsplit] at hgood hlen
      have hrest : (stream.drop (min d s.readLength)).length = stream.length := by
        rw [← hread, List.drop_zero]
      apply ih hs hlt _ _ hgood hlen
      · rw [List.length_append]
        omega
      · omega
    · set next := s.buffer ++ stream.take (min d s.readLength) with hnext
      have hlength : next.length = s.buffer.length + min d s.readLength := by
        rw [hnext, List.length_append, hread]
      have htested : ∀ {rest : Bytes}, next ++ rest = s.buffer ++ stream →
          headerSize ≤ next.length → okBlockHeader headerString next = true := by
        intro rest hrest hle
        rw [← hrest, okBlockHeader_append hle] at hgood
        exact hgood
      rw [if_neg fun hrefused => by
        rw [htested hsplit hrefused.2.1] at hrefused
        exact Bool.noConfusion hrefused.2.2]
      rw [hnotOk, Bool.false_or]
      by_cases hall : headerSize ≤ next.length
      · have hfull : next.length = headerSize := by omega
        have hnextEq : (s.buffer ++ stream).take headerSize = next := by
          rw [← hsplit, ← hfull, List.take_left]
        rw [← hsplit, lengthBlockHeader_append hall] at hlen
        rw [if_pos ⟨decide_eq_true hall, by omega⟩, hnextEq]
      · rw [if_neg fun hdone => hall (of_decide_eq_true hdone.1)]
        have hstep := @ih (stream.drop (min d s.readLength))
          ⟨next, decide (headerSize ≤ next.length),
            nextReadLength (decide (headerSize ≤ next.length)) next⟩
          ⟨rfl, fun hle => absurd hle hall, rfl⟩
        dsimp only at hstep
        rw [hsplit] at hstep
        apply hstep (by omega) _ _ hgood hlen
        · rw [List.length_append]
          exact hstream
        · omega

theorem readBlock_eq_memory (r : Reader) (typeEncode : TypeEncode) (xorKey : Bytes) (c : Conn) :
    (readBlock r typeEncode xorKey c).map Prod.fst =
      (readBlockMemory r typeEncode xorKey [] c).map fun q =>
        q.dataLen.map (slice q.buffer headerSize) := by
  rw [readBlock, readBlockMemory, readLoop_eq_receiveLoop, Option.map_map]
  cases hloop : receiveLoop r.blockHeaderString c.deliveries c.stream {} with
  | none => rfl
  | some result =>
    obtain ⟨buffer, ok⟩ := result
    cases ok with
    | false => rfl
    | true =>
      have hle := ((receiveLoop_spec (Receiving.start _) hloop).2.2 rfl).1
      have hdecode := decodeMemory_nil r typeEncode xorKey c.ctx buffer hle
      rw [Option.map_some, Option.map_some, Function.comp_apply]
      dsimp only
      rw [if_pos rfl, if_pos rfl, finishBlock, finishMemory, hdecode]
      cases decodeBuffer r typeEncode xorKey c.ctx buffer with
      | mk decoded ctx' =>
        cases decoded with
        | none => rfl
        | some buffer' =>
          dsimp only
          split <;> rfl

/-! ### Decoding -/

lemma leNat_encodeLe_le (k n : Nat) : leNat (encodeLe k n) ≤ n := by
  induction k generalizing n with
  | zero => exact Nat.zero_le _
  | succ k ih =>
    have hrest := ih (n / 256)
    have hbyte : (UInt8.ofNat n).toNat = n % 256 := UInt8.toNat_ofNat'
    rw [encodeLe, leNat, hbyte]
    omega

lemma replaceData_covers (h : headerSize ≤ buffer.length) (data : Bytes) :
    headerSize + lengthBlockHeader (replaceData buffer data) false ≤
      (replaceData buffer data).length := by
  have hhead : (buffer.take headerSize).length = headerSize := by
    rw [List.length_take]
    omega
  have hfits : 32 + (encodeLe 4 data.length).length ≤ (buffer.take headerSize).length := by
    rw [hhead, length_encodeLe]
    decide
  have hlength : (replaceData buffer data).length = headerSize + data.length := by
    rw [replaceData, List.length_append, length_overwrite hfits, hhead]
  have hskip : ((buffer.take headerSize).take 32).length = 32 := by
    rw [List.length_take, hhead]
    rfl
  have hfield : slice (replaceData buffer data) 32 4 = encodeLe 4 data.length := by
    have hright := slice_append_right ((buffer.take headerSize).take 32)
      (encodeLe 4 data.length ++ ((buffer.take headerSize).drop (32 + 4) ++ data)) 0 4
    rw [hskip] at hright
    rw [replaceData, overwrite, List.append_assoc, List.append_assoc]
    exact hright
  have hle := leNat_encodeLe_le 4 data.length
  have hmod := Nat.mod_le (leNat (encodeLe 4 data.length)) (2 ^ 32)
  rw [lengthBlockHeader, if_pos (by omega), hfield, if_neg Bool.false_ne_true, Nat.add_zero, hlength]
  omega

lemma decodeMemory_same (xorKey behind : Bytes) (ctx : Option Bytes)
    (hdecrypts : r.decrypts typeEncode = false) (h : headerSize ≤ buffer.length) :
    ∃ data, decodeMemory r typeEncode xorKey ctx buffer behind =
        some (buffer.take headerSize ++ data) ∧
      (buffer.take headerSize ++ data).length = buffer.length ∧
      ((typeEncode ≠ .xor ∨ xorKey = []) → data = buffer.drop headerSize) := by
  have hsame : ∃ data, some buffer = some (buffer.take headerSize ++ data) ∧
      (buffer.take headerSize ++ data).length = buffer.length ∧
        ((typeEncode ≠ .xor ∨ xorKey = []) → data = buffer.drop headerSize) :=
    ⟨buffer.drop headerSize, by rw [List.take_append_drop], by rw [List.take_append_drop],
      fun _ => rfl⟩
  cases typeEncode with
  | na => exact hsame
  | aes => cases hdecrypts
  | rsa =>
    rw [Reader.decrypts, Option.isSome_eq_false_iff, Option.isNone_iff_eq_none] at hdecrypts
    unfold decodeMemory
    simp only [hdecrypts]
    exact hsame
  | xor =>
    unfold decodeMemory
    dsimp only
    split
    · exact hsame
    · rename_i hkey
      set given := slice (buffer ++ behind) headerSize (lengthBlockHeader buffer false)
      have hgiven : headerSize + (xorData xorKey given).length ≤ (buffer ++ behind).length := by
        rw [length_xorData, List.length_append]
        simp only [given, slice, List.length_take, List.length_drop, List.length_append]
        omega
      have hover := length_overwrite hgiven
      rw [overwrite, List.take_append_of_le_length h, List.append_assoc] at hover ⊢
      have hhead : (buffer.take headerSize).length = headerSize := by
        rw [List.length_take]
        omega
      rw [List.take_append, List.take_of_length_le (by omega)]
      refine ⟨_, rfl, ?_, fun hplain => ?_⟩
      · rw [List.length_append, List.length_append, hhead] at hover
        rw [List.length_append, hhead, List.length_take]
        rw [List.length_append] at hover ⊢
        omega
      · rcases hplain with hplain | hplain
        · exact absurd rfl hplain
        · exact absurd hplain hkey

lemma lengthBlockHeader_take (h : headerSize ≤ buffer.length) (data : Bytes) (b : Bool) :
    lengthBlockHeader (buffer.take headerSize ++ data) b = lengthBlockHeader buffer b := by
  have hhead : headerSize ≤ (buffer.take headerSize).length := by
    rw [List.length_take]
    omega
  rw [lengthBlockHeader_append hhead, ← lengthBlockHeader_append hhead (buffer.drop headerSize),
    List.take_append_drop]

lemma finishMemory_decrypts (hdecrypts : r.decrypts typeEncode = true)
    (h : headerSize ≤ buffer.length) {n : Nat}
    (hn : (finishMemory r typeEncode xorKey ctx behind buffer).dataLen = some n) :
    headerSize + n ≤ (finishMemory r typeEncode xorKey ctx behind buffer).buffer.length := by
  have hreplaced : ∀ buffer', decodeMemory r typeEncode xorKey ctx buffer behind = some buffer' →
      ∃ data, buffer' = replaceData buffer data := by
    intro buffer' hdecoded
    unfold decodeMemory at hdecoded
    cases typeEncode with
    | na => cases hdecrypts
    | xor => cases hdecrypts
    | aes =>
      obtain ⟨data, -, hdata⟩ := Option.map_eq_some_iff.mp hdecoded
      exact ⟨data, hdata.symm⟩
    | rsa =>
      obtain ⟨decrypt, hkey⟩ := Option.isSome_iff_exists.mp hdecrypts
      simp only [hkey] at hdecoded
      obtain ⟨data, -, hdata⟩ := Option.map_eq_some_iff.mp hdecoded
      exact ⟨data, hdata.symm⟩
  rw [finishMemory] at hn ⊢
  cases hdecoded : decodeMemory r typeEncode xorKey ctx buffer behind with
  | none =>
    rw [hdecoded] at hn
    cases hn
  | some buffer' =>
    rw [hdecoded] at hn
    obtain ⟨data, rfl⟩ := hreplaced buffer' hdecoded
    dsimp only at hn ⊢
    split at hn
    · cases hn
      exact replaceData_covers h data
    · cases hn

lemma finishMemory_same (hdecrypts : r.decrypts typeEncode = false)
    (h : headerSize ≤ buffer.length) {n : Nat}
    (hn : (finishMemory r typeEncode xorKey ctx behind buffer).dataLen = some n) :
    n = lengthBlockHeader buffer false := by
  obtain ⟨data, hdecoded, -, -⟩ := decodeMemory_same xorKey behind ctx hdecrypts h
  rw [finishMemory, hdecoded] at hn
  dsimp only at hn
  split at hn
  · rw [lengthBlockHeader_take h] at hn
    cases hn
    rfl
  · cases hn

lemma finishMemory_received :
    (finishMemory r typeEncode xorKey ctx behind buffer).received = buffer := by
  rw [finishMemory]
  split <;> rfl

lemma finishMemory_xorEnd :
    (finishMemory r typeEncode xorKey ctx behind buffer).xorEnd =
      xorEnd typeEncode xorKey buffer := by
  rw [finishMemory]
  split <;> rfl

lemma finishMemory_header (hdecrypts : r.decrypts typeEncode = false)
    (hplain : typeEncode ≠ .xor ∨ xorKey = []) (h : buffer.length = headerSize) :
    (finishMemory r typeEncode xorKey ctx behind buffer).dataLen =
      if sumBlockHeader buffer = 0 then some (lengthBlockHeader buffer false) else none := by
  obtain ⟨data, hdecoded, -, hdata⟩ := decodeMemory_same xorKey behind ctx hdecrypts h.ge
  have hsum : checkSumReadBuffer buffer = decide (sumBlockHeader buffer = 0) := by
    rw [checkSumReadBuffer, ← h, List.drop_length, dataSum, List.foldl_nil]
    rfl
  rw [finishMemory, hdecoded, hdata hplain, List.take_append_drop]
  dsimp only
  rw [hsum]
  simp only [decide_eq_true_iff]

/-! ### The length with the header -/

lemma lengthBlockHeader_eq (h : headerSize ≤ buffer.length) (b : Bool) :
    lengthBlockHeader buffer b =
      (leNat (slice buffer 32 4) + if b then headerSize else 0) % 2 ^ 32 := if_pos h

lemma lengthBlockHeader_true_of_lt (h : headerSize ≤ buffer.length)
    (hlen : lengthBlockHeader buffer false + headerSize < 2 ^ 32) :
    lengthBlockHeader buffer true = lengthBlockHeader buffer false + headerSize := by
  rw [lengthBlockHeader_eq h, if_neg Bool.false_ne_true] at hlen
  rw [lengthBlockHeader_eq h, lengthBlockHeader_eq h, if_pos rfl, if_neg Bool.false_ne_true]
  omega

lemma lengthBlockHeader_true_of_wraps (h : headerSize ≤ buffer.length)
    (hlen : ¬lengthBlockHeader buffer false + headerSize < 2 ^ 32) :
    lengthBlockHeader buffer true ≤ headerSize ∧ 0 < lengthBlockHeader buffer false := by
  rw [lengthBlockHeader_eq h, if_neg Bool.false_ne_true] at hlen
  rw [lengthBlockHeader_eq h, lengthBlockHeader_eq h, if_pos rfl, if_neg Bool.false_ne_true]
  unfold headerSize at hlen ⊢
  omega

lemma handsOut_whole {c : Conn} (hfront : buffer <+: c.stream) (hle : headerSize ≤ buffer.length)
    (hlong : lengthBlockHeader buffer true ≤ buffer.length)
    (hheader : ¬lengthBlockHeader buffer false + headerSize < 2 ^ 32 → buffer.length = headerSize)
    (hcond : lengthBlockHeader buffer false + headerSize < 2 ^ 32 ∨ r.decrypts typeEncode = true ∨
      (typeEncode ≠ .xor ∨ xorKey = []) ∧ sumBlockHeader buffer ≠ 0) :
    HandsOutReceived r typeEncode c (finishMemory r typeEncode xorKey ctx behind buffer) where
  received := by
    rw [finishMemory_received]
    exact hfront
  returned := by
    intro n hn
    cases hdecrypts : r.decrypts typeEncode with
    | true => exact finishMemory_decrypts hdecrypts hle hn
    | false =>
      rw [if_neg Bool.false_ne_true, finishMemory_received]
      by_cases hlen : lengthBlockHeader buffer false + headerSize < 2 ^ 32
      · rw [finishMemory_same hdecrypts hle hn]
        rw [lengthBlockHeader_true_of_lt hle hlen] at hlong
        omega
      · obtain ⟨hplain, hsum⟩ := (hcond.resolve_left hlen).resolve_left
          (by rw [hdecrypts]; exact Bool.false_ne_true)
        rw [finishMemory_header hdecrypts hplain (hheader hlen), if_neg hsum] at hn
        cases hn
  decoded := by
    rw [finishMemory_received, finishMemory_xorEnd, xorEnd]
    split
    · rename_i hxor
      rcases hcond with hlen | hdecrypts | ⟨hplain, -⟩
      · rw [lengthBlockHeader_true_of_lt hle hlen] at hlong
        omega
      · rw [hxor.1] at hdecrypts
        cases hdecrypts
      · rcases hplain with hne | hkey
        · exact absurd hxor.1 hne
        · exact absurd hkey hxor.2
    · exact Nat.zero_le _

lemma receiveLoop_wraps {c : Conn} (harrives : HeaderArrives c)
    (hgood : okBlockHeader r.blockHeaderString c.stream = true)
    (hlen : ¬lengthBlockHeader c.stream false + headerSize < 2 ^ 32) :
    receiveLoop r.blockHeaderString c.deliveries c.stream {} =
      some (c.stream.take headerSize, true) :=
  receiveLoop_header (Receiving.start r.blockHeaderString) (by decide) harrives.1
    (by simpa using harrives.2) hgood (lengthBlockHeader_true_of_wraps harrives.1 hlen).1

lemma not_handsOut_of_wraps {c : Conn} (harrives : HeaderArrives c)
    (hlen : ¬lengthBlockHeader c.stream false + headerSize < 2 ^ 32)
    (hdecrypts : r.decrypts typeEncode = false)
    (hother : ¬((typeEncode ≠ .xor ∨ xorKey = []) ∧ sumBlockHeader c.stream ≠ 0)) :
    ¬HandsOutReceived r typeEncode c
      (finishMemory r typeEncode xorKey ctx behind (c.stream.take headerSize)) := by
  intro hq
  have hlength : (c.stream.take headerSize).length = headerSize := by
    rw [List.length_take]
    exact min_eq_left harrives.1
  have hhead : lengthBlockHeader (c.stream.take headerSize) false =
      lengthBlockHeader c.stream false := by
    rw [← lengthBlockHeader_append hlength.ge (c.stream.drop headerSize), List.take_append_drop]
  have hpos := (lengthBlockHeader_true_of_wraps harrives.1 hlen).2
  by_cases hplain : typeEncode ≠ .xor ∨ xorKey = []
  · have hsum : sumBlockHeader (c.stream.take headerSize) = 0 := by
      rw [← sumBlockHeader_append hlength.ge (c.stream.drop headerSize), List.take_append_drop]
      exact not_not.mp fun hne => hother ⟨hplain, hne⟩
    have hreturned := hq.returned (lengthBlockHeader c.stream false) (by
      rw [finishMemory_header hdecrypts hplain hlength, if_pos hsum, hhead])
    rw [hdecrypts, if_neg Bool.false_ne_true, finishMemory_received, hlength] at hreturned
    omega
  · have hdecoded := hq.decoded
    rw [not_or, not_not] at hplain
    rw [finishMemory_received, finishMemory_xorEnd, xorEnd, if_pos hplain, hhead,
      hlength] at hdecoded
    omega

/-- What `readBlock` hands out has been received, unless a header with a length that wraps round is
taken for the whole block and is not refused for its sum. -/
theorem hands_out_received_iff (r : Reader) (typeEncode : TypeEncode) (xorKey behind : Bytes)
    (c : Conn) :
    (∀ q, readBlockMemory r typeEncode xorKey behind c = some q →
      HandsOutReceived r typeEncode c q) ↔
    (HeaderArrives c → okBlockHeader r.blockHeaderString c.stream = true →
      lengthBlockHeader c.stream false + headerSize < 2 ^ 32 ∨ r.decrypts typeEncode = true ∨
        (typeEncode ≠ .xor ∨ xorKey = []) ∧ sumBlockHeader c.stream ≠ 0) := by
  constructor
  · intro h harrives hgood
    by_contra hnot
    obtain ⟨hlen, hdecrypts, hother⟩ := by simpa only [not_or] using hnot
    refine not_handsOut_of_wraps harrives hlen (Bool.eq_false_iff.mpr hdecrypts) hother
      (h (finishMemory r typeEncode xorKey c.ctx behind (c.stream.take headerSize)) ?_)
    rw [readBlockMemory, receiveLoop_wraps harrives hgood hlen]
    rfl
  · intro h q hq
    rw [readBlockMemory] at hq
    obtain ⟨⟨buffer, ok⟩, hloop, hfinish⟩ := Option.map_eq_some_iff.mp hq
    obtain ⟨hfront, hdelivered, hwhole⟩ :=
      receiveLoop_spec (Receiving.start r.blockHeaderString) hloop
    dsimp only at hfinish hfront hdelivered
    rw [List.nil_append] at hfront
    cases ok with
    | false =>
      rw [if_neg Bool.false_ne_true] at hfinish
      subst hfinish
      refine ⟨hfront, fun n hn => ?_, Nat.zero_le _⟩
      cases hn
    | true =>
      rw [if_pos rfl] at hfinish
      subst hfinish
      obtain ⟨hle, hgood, hlong⟩ := hwhole rfl
      obtain ⟨rest, hrest⟩ := hfront
      have harrives : HeaderArrives c := by
        refine ⟨?_, by simpa using le_trans hle hdelivered⟩
        rw [← hrest, List.length_append]
        omega
      have hgood' : okBlockHeader r.blockHeaderString c.stream = true := by
        rw [← hrest, okBlockHeader_append hle, hgood]
      have hlength : lengthBlockHeader c.stream false = lengthBlockHeader buffer false := by
        rw [← hrest, lengthBlockHeader_append hle]
      have hsum : sumBlockHeader c.stream = sumBlockHeader buffer := by
        rw [← hrest, sumBlockHeader_append hle]
      have hcond := h harrives hgood'
      rw [hlength, hsum] at hcond
      refine handsOut_whole ⟨rest, hrest⟩ hle hlong (fun hlen => ?_) hcond
      rw [← hlength] at hlen
      rw [receiveLoop_wraps harrives hgood' hlen] at hloop
      obtain ⟨hbuffer, -⟩ := Prod.mk.inj (Option.some.inj hloop)
      rw [← hbuffer, List.length_take]
      exact min_eq_left harrives.1

def wrappedHeader : Bytes := sBlockHeader none (2 ^ 32 - 1) 0

theorem hands_out_more_than_received :
    ¬∀ (r : Reader) (typeEncode : TypeEncode) (xorKey behind : Bytes) (c : Conn) (q : Returned),
      readBlockMemory r typeEncode xorKey behind c = some q →
        HandsOutReceived r typeEncode c q := by
  intro h
  have hreturned := (h { aes := ⟨false, fun _ _ => none, fun _ => none⟩ } .na [] []
    ⟨wrappedHeader, [40], none⟩ ⟨wrappedHeader, wrappedHeader, some (2 ^ 32 - 1), 0⟩
    (by decide +kernel)).returned _ rfl
  exact absurd hreturned (by decide +kernel)

end VoipMonitor.SocketBlock
