import VoipMonitor.Model.SocketBlock

/-!
# Blocks on a socket come back

A block that `writeBlock` has sent is read back by `readBlock`, whatever the reads deliver
(`readBlock_sent`): the reader never asks for more than the rest of the block. What it returns
is the data that was written, except for an empty block under rsa: `cRsa::private_decrypt` takes
an empty plain text for a failure.
-/

namespace VoipMonitor.SocketBlock
open VoipMonitor.Library

variable {ρ : Type}

/-! ### The header -/

@[simp] lemma length_headerText (headerString : Option Bytes) :
    (headerText headerString).length = 30 := by
  simp only [headerText, List.length_append, List.length_replicate, List.length_take]
  omega

@[simp] lemma length_sBlockHeader (headerString : Option Bytes) (length sum : Nat) :
    (sBlockHeader headerString length sum).length = headerSize := by
  simp [sBlockHeader, headerSize]

lemma dataSum_lt (data : Bytes) : dataSum data < 2 ^ 32 := by
  unfold dataSum
  induction data using List.reverseRecOn with
  | nil => norm_num
  | append_singleton data c _ =>
    rw [List.foldl_append]
    exact Nat.mod_lt _ (by norm_num)

section Header

variable {headerString : Option Bytes} {length sum : Nat} {data : Bytes}

lemma slice_length_sBlockHeader :
    slice (sBlockHeader headerString length sum ++ data) 32 4 = encodeLe 4 length := by
  have hskip : (headerText headerString ++ [0, 0]).length = 32 := by simp
  rw [sBlockHeader, List.append_assoc, List.append_assoc (encodeLe 4 length)]
  have h := slice_append_right (headerText headerString ++ [0, 0])
    (encodeLe 4 length ++ (encodeLe 4 sum ++ data)) 0 4
  rw [hskip] at h
  rw [h, slice, List.drop_zero]
  exact List.take_left' (length_encodeLe 4 length)

lemma slice_sum_sBlockHeader :
    slice (sBlockHeader headerString length sum ++ data) 36 4 = encodeLe 4 sum := by
  have hskip : (headerText headerString ++ [0, 0] ++ encodeLe 4 length).length = 36 := by simp
  rw [sBlockHeader, ← List.append_assoc (headerText headerString ++ [0, 0]), List.append_assoc]
  have h := slice_append_right (headerText headerString ++ [0, 0] ++ encodeLe 4 length)
    (encodeLe 4 sum ++ data) 0 4
  rw [hskip] at h
  rw [h, slice, List.drop_zero]
  exact List.take_left' (length_encodeLe 4 sum)

lemma headerSize_le : headerSize ≤ (sBlockHeader headerString length sum ++ data).length := by
  rw [List.length_append, length_sBlockHeader]
  omega

lemma okBlockHeader_sBlockHeader :
    okBlockHeader headerString (sBlockHeader headerString length sum ++ data) = true := by
  have htext : (getHeaderString headerString).take (min 30 (getHeaderString headerString).length) =
      (getHeaderString headerString).take 30 := by
    rw [← List.take_take, List.take_length]
  have hlen : ((getHeaderString headerString).take 30).length =
      min 30 (getHeaderString headerString).length := List.length_take
  unfold okBlockHeader
  simp only [headerSize_le, decide_true, Bool.true_and, beq_iff_eq, htext]
  rw [slice, List.drop_zero, ← hlen, sBlockHeader, headerText]
  simp only [List.append_assoc]
  exact List.take_left

lemma lengthBlockHeader_sBlockHeader (addHeaderSize : Bool) (h : length + headerSize < 2 ^ 32) :
    lengthBlockHeader (sBlockHeader headerString length sum ++ data) addHeaderSize =
      length + if addHeaderSize then headerSize else 0 := by
  unfold headerSize at h
  rw [lengthBlockHeader, if_pos headerSize_le, slice_length_sBlockHeader,
    leNat_encodeLe (by norm_num; omega)]
  apply Nat.mod_eq_of_lt
  unfold headerSize
  split <;> omega

lemma sumBlockHeader_sBlockHeader (h : sum < 2 ^ 32) :
    sumBlockHeader (sBlockHeader headerString length sum ++ data) = sum := by
  rw [sumBlockHeader, if_pos headerSize_le, slice_sum_sBlockHeader,
    leNat_encodeLe (by norm_num; omega)]

lemma drop_sBlockHeader :
    (sBlockHeader headerString length sum ++ data).drop headerSize = data :=
  List.drop_left' (length_sBlockHeader headerString length sum)

lemma blockData_sBlockHeader (h : data.length + headerSize < 2 ^ 32) :
    blockData (sBlockHeader headerString data.length sum ++ data) = data := by
  rw [blockData, lengthBlockHeader_sBlockHeader false h, slice, drop_sBlockHeader]
  exact List.take_length

lemma replaceData_sBlockHeader (data' : Bytes) :
    replaceData (sBlockHeader headerString length sum ++ data) data' =
      sBlockHeader headerString data'.length sum ++ data' := by
  have hskip : (headerText headerString ++ [0, 0]).length = 32 := by simp
  rw [replaceData, List.take_left' (length_sBlockHeader headerString length sum)]
  congr 1
  have h := overwrite_append_right (headerText headerString ++ [0, 0])
    (encodeLe 4 length ++ encodeLe 4 sum) (encodeLe 4 data'.length) 0
  rw [hskip] at h
  rw [sBlockHeader, h, sBlockHeader, overwrite, List.take_zero, List.nil_append,
    Nat.zero_add, length_encodeLe, List.drop_left' (length_encodeLe 4 length)]

lemma overwrite_sBlockHeader {data' : Bytes} (h : data'.length = data.length) :
    overwrite (sBlockHeader headerString length sum ++ data) headerSize data' =
      sBlockHeader headerString length sum ++ data' := by
  have hover := overwrite_append_right (sBlockHeader headerString length sum) data data' 0
  rw [length_sBlockHeader] at hover
  rw [← Nat.add_zero headerSize, hover, overwrite, List.take_zero, List.nil_append, Nat.zero_add, h,
    List.drop_length, List.append_nil]

lemma check_and_data (h : data.length + headerSize < 2 ^ 32) :
    (if checkSumReadBuffer (sBlockHeader headerString data.length (dataSum data) ++ data) then
      some (blockData (sBlockHeader headerString data.length (dataSum data) ++ data)) else none) =
      some data := by
  rw [checkSumReadBuffer, sumBlockHeader_sBlockHeader (dataSum_lt data), drop_sBlockHeader,
    if_pos (by simp), blockData_sBlockHeader h]

end Header

/-! ### The ciphers -/

lemma length_xorData (key data : Bytes) : (xorData key data).length = data.length := by
  simp [xorData]

lemma xorData_xorData (key data : Bytes) : xorData key (xorData key data) = data := by
  rw [xorData, xorData, List.mapIdx_mapIdx]
  apply List.ext_getElem
  · simp
  · intro i h1 h2
    simp only [List.getElem_mapIdx, Function.comp]
    rw [UInt8.xor_assoc, UInt8.xor_self, UInt8.xor_zero]

/-- What a new context puts out for the data, up to its end. -/
def Evp.output (evp : Evp) (data : Bytes) : Option Bytes :=
  if evp.init then
    match (if data = [] then some [] else evp.update [] data), evp.final data with
    | some part1, some part2 => some (part1 ++ part2)
    | _, _ => none
  else none

lemma crypt_final (evp : Evp) (data : Bytes) :
    evp.crypt none data true =
      ((evp.output data).filter (fun out => decide (out.length < 2 ^ 31)), none) := by
  unfold Evp.crypt Evp.output
  cases hinit : evp.init with
  | false => simp
  | true =>
    simp only [Option.getD_none, List.nil_append, if_true, reduceCtorEq, and_false, if_false]
    cases (if data = [] then some [] else evp.update [] data) with
    | none => rfl
    | some part1 =>
      cases evp.final data with
      | none => rfl
      | some part2 =>
        simp only [joinParts, Option.filter, List.length_append, decide_eq_true_eq]

/-- The private key undoes the public one, or neither is set. -/
def RsaMatched : Option (ρ → Bytes → Option Bytes) → Option (Bytes → Option Bytes) → Prop
  | none, none => True
  | some encrypt, some decrypt =>
    ∀ seed data sent, encrypt seed data = some sent → decrypt sent = some data
  | _, _ => False

/-- The reader has the writer's header text and ciphers that decrypt what the writer's encrypt. -/
structure Matched (w : Writer ρ) (r : Reader) : Prop where
  header : r.blockHeaderString = w.blockHeaderString
  rsa : RsaMatched w.pubKey r.privKey
  aes : ∀ data sent, w.aes.output data = some sent → r.aes.output sent = some data

def usesRsa (w : Writer ρ) (b : Block ρ) : Prop := b.typeEncode = .rsa ∧ w.pubKey.isSome

instance (w : Writer ρ) (b : Block ρ) : Decidable (usesRsa w b) :=
  inferInstanceAs (Decidable (_ ∧ _))

def received (w : Writer ρ) (b : Block ρ) : Option Bytes :=
  if usesRsa w b ∧ b.data = [] then none else some b.data

lemma received_cases (w : Writer ρ) (b : Block ρ) :
    received w b = none ∨ received w b = some b.data := by
  unfold received
  split
  · exact Or.inl rfl
  · exact Or.inr rfl

lemma received_eq_some {w : Writer ρ} {b : Block ρ} (h : ¬ usesRsa w b) :
    received w b = some b.data := if_neg fun hb => h hb.1

lemma received_of_usesRsa {w : Writer ρ} {b : Block ρ} (h : usesRsa w b) :
    received w b = if b.data = [] then none else some b.data := by
  rw [received]
  by_cases hnil : b.data = []
  · rw [if_pos ⟨h, hnil⟩, if_pos hnil]
  · rw [if_neg fun hb => hnil hb.2, if_neg hnil]

lemma rsaResult_eq_some {x : Option Bytes} {data : Bytes} (h : rsaResult x = some data) :
    x = some data ∧ 0 < data.length ∧ data.length < 2 ^ 31 := by
  cases x with
  | none => cases h
  | some y =>
    simp only [rsaResult] at h
    split at h
    · next hlen =>
      obtain rfl := Option.some.inj h
      exact ⟨rfl, hlen⟩
    · cases h

lemma rsaResult_some {data : Bytes} (h : data.length < 2 ^ 31) :
    rsaResult (some data) = if data = [] then none else some data := by
  cases data with
  | nil => rfl
  | cons c data =>
    rw [rsaResult, if_pos ⟨by simp, h⟩, if_neg (by simp)]

lemma encodeData_spec {w : Writer ρ} {b : Block ρ} {sent : Bytes} {ctx : Option Bytes}
    (hlen : b.data.length < 2 ^ 31) (h : encodeData w none b = (some sent, ctx)) :
    sent.length < 2 ^ 31 ∧ ctx = none := by
  unfold encodeData at h
  split at h
  · obtain ⟨hs, rfl⟩ := Prod.mk.inj h
    obtain rfl := Option.some.inj hs
    exact ⟨hlen, rfl⟩
  · obtain ⟨hs, rfl⟩ := Prod.mk.inj h
    obtain rfl := Option.some.inj hs
    refine ⟨?_, rfl⟩
    split
    · exact hlen
    · rwa [length_xorData]
  · split at h
    · obtain ⟨hs, rfl⟩ := Prod.mk.inj h
      obtain rfl := Option.some.inj hs
      exact ⟨hlen, rfl⟩
    · obtain ⟨hs, rfl⟩ := Prod.mk.inj h
      exact ⟨(rsaResult_eq_some hs).2.2, rfl⟩
  · rw [crypt_final] at h
    obtain ⟨hs, rfl⟩ := Prod.mk.inj h
    exact ⟨of_decide_eq_true (Option.filter_eq_some_iff.mp hs).2, rfl⟩

lemma decodeBuffer_sent {w : Writer ρ} {r : Reader} (hm : Matched w r) {b : Block ρ}
    {sent : Bytes} {ctx : Option Bytes} (hlen : b.data.length < 2 ^ 31)
    (h : encodeData w none b = (some sent, ctx)) (headerString : Option Bytes) :
    decodeBuffer r b.typeEncode b.xorKey none
        (sBlockHeader headerString sent.length (dataSum b.data) ++ sent) =
      ((received w b).map
        fun data => sBlockHeader headerString data.length (dataSum data) ++ data, none) := by
  have hsent : sent.length + headerSize < 2 ^ 32 := by
    have := (encodeData_spec hlen h).1
    unfold headerSize
    omega
  obtain ⟨data, te, key, seed⟩ := b
  cases te with
  | na =>
    obtain ⟨hs, -⟩ := Prod.mk.inj h
    obtain rfl := Option.some.inj hs
    rfl
  | xor =>
    obtain ⟨hs, -⟩ := Prod.mk.inj h
    obtain rfl := Option.some.inj hs
    have hrec : received w ⟨data, .xor, key, seed⟩ = some data := rfl
    rw [hrec, Option.map_some, decodeBuffer]
    by_cases hkey : key = []
    · rw [if_pos hkey, if_pos hkey]
    · rw [if_neg hkey] at hsent
      rw [if_neg hkey, if_neg hkey, blockData_sBlockHeader hsent, xorData_xorData,
        overwrite_sBlockHeader (length_xorData key data).symm, length_xorData]
  | rsa =>
    have hrsa := hm.rsa
    unfold encodeData at h
    unfold decodeBuffer
    cases hpub : w.pubKey with
    | none =>
      cases hpriv : r.privKey with
      | some decrypt =>
        rw [hpub, hpriv] at hrsa
        exact hrsa.elim
      | none =>
        rw [hpub] at h
        obtain ⟨hs, -⟩ := Prod.mk.inj h
        obtain rfl := Option.some.inj hs
        rw [received_eq_some fun hused => by simp [usesRsa, hpub] at hused]
        rfl
    | some encrypt =>
      cases hpriv : r.privKey with
      | none =>
        rw [hpub, hpriv] at hrsa
        exact hrsa.elim
      | some decrypt =>
        rw [hpub, hpriv] at hrsa
        rw [hpub] at h
        obtain ⟨hs, -⟩ := Prod.mk.inj h
        have hdec := hrsa seed data sent (rsaResult_eq_some hs).1
        have hused : usesRsa w ⟨data, .rsa, key, seed⟩ := ⟨rfl, by rw [hpub]; rfl⟩
        dsimp only
        rw [blockData_sBlockHeader hsent, hdec, rsaResult_some hlen, received_of_usesRsa hused]
        dsimp only
        split
        · rfl
        · rw [Option.map_some, Option.map_some, replaceData_sBlockHeader]
  | aes =>
    have hrec : received w ⟨data, .aes, key, seed⟩ = some data := rfl
    unfold encodeData at h
    rw [crypt_final] at h
    obtain ⟨hs, -⟩ := Prod.mk.inj h
    have hdec := hm.aes data sent (Option.filter_eq_some_iff.mp hs).1
    rw [hrec, Option.map_some, decodeBuffer]
    rw [blockData_sBlockHeader hsent, crypt_final, hdec]
    have hkeep : (some data).filter (fun out => decide (out.length < 2 ^ 31)) = some data :=
      Option.filter_eq_some_iff.mpr ⟨rfl, decide_eq_true hlen⟩
    rw [hkeep]
    dsimp only
    rw [Option.map_some, replaceData_sBlockHeader]

lemma finishBlock_sent {w : Writer ρ} {r : Reader} (hm : Matched w r) {b : Block ρ} {sent : Bytes}
    {ctx : Option Bytes} (hlen : b.data.length < 2 ^ 31)
    (h : encodeData w none b = (some sent, ctx)) (headerString : Option Bytes) :
    finishBlock r b.typeEncode b.xorKey none
      (sBlockHeader headerString sent.length (dataSum b.data) ++ sent) = (received w b, none) := by
  have hdata : b.data.length + headerSize < 2 ^ 32 := by
    unfold headerSize
    omega
  rw [finishBlock, decodeBuffer_sent hm hlen h]
  rcases received_cases w b with hrec | hrec
  · rw [hrec]
    rfl
  · rw [hrec, Option.map_some]
    dsimp only
    rw [check_and_data hdata]

/-! ### The reads -/

structure Reading (whole : Bytes) (s : ReadState) (rest : Bytes) : Prop where
  split : s.buffer ++ rest = whole
  left : rest ≠ []
  ok : s.blockHeaderOK = decide (headerSize ≤ s.buffer.length)
  pos : 0 < s.readLength
  le : s.readLength ≤ rest.length

section Loop

variable {headerString : Option Bytes} {sum : Nat} {data : Bytes}

lemma exists_data_of_headerSize_le {buffer rest : Bytes}
    (hsplit : buffer ++ rest = sBlockHeader headerString data.length sum ++ data)
    (h : headerSize ≤ buffer.length) :
    ∃ data', buffer = sBlockHeader headerString data.length sum ++ data' := by
  have hpre : sBlockHeader headerString data.length sum <+: buffer :=
    List.prefix_of_prefix_length_le (List.prefix_append _ _) ⟨rest, hsplit⟩
      (by rwa [length_sBlockHeader])
  obtain ⟨data', hdata⟩ := hpre
  exact ⟨data', hdata.symm⟩

lemma lengthBlockHeader_part (hlen : data.length + headerSize < 2 ^ 32) {buffer rest : Bytes}
    (hsplit : buffer ++ rest = sBlockHeader headerString data.length sum ++ data)
    (h : headerSize ≤ buffer.length) :
    lengthBlockHeader buffer true = buffer.length + rest.length := by
  obtain ⟨data', hbuffer⟩ := exists_data_of_headerSize_le hsplit h
  have htotal := congrArg List.length hsplit
  rw [List.length_append, List.length_append, length_sBlockHeader] at htotal
  rw [htotal, hbuffer, lengthBlockHeader_sBlockHeader true hlen, if_pos rfl, Nat.add_comm]

lemma nextReadLength_spec (hlen : data.length + headerSize < 2 ^ 32) {buffer rest : Bytes}
    (hsplit : buffer ++ rest = sBlockHeader headerString data.length sum ++ data)
    (hleft : rest ≠ []) :
    0 < nextReadLength (decide (headerSize ≤ buffer.length)) buffer ∧
      nextReadLength (decide (headerSize ≤ buffer.length)) buffer ≤ rest.length := by
  have hpos : 0 < rest.length := List.length_pos_iff.mpr hleft
  unfold nextReadLength maxReadLength
  by_cases h : headerSize ≤ buffer.length
  · rw [if_pos (decide_eq_true h), lengthBlockHeader_part hlen hsplit h]
    omega
  · have htotal := congrArg List.length hsplit
    rw [List.length_append, List.length_append, length_sBlockHeader] at htotal
    rw [if_neg (by simpa using h)]
    omega

lemma Reading.next (hlen : data.length + headerSize < 2 ^ 32) {buffer rest : Bytes}
    (hsplit : buffer ++ rest = sBlockHeader headerString data.length sum ++ data)
    (hleft : rest ≠ []) :
    Reading (sBlockHeader headerString data.length sum ++ data)
      { buffer := buffer
        blockHeaderOK := decide (headerSize ≤ buffer.length)
        readLength := nextReadLength (decide (headerSize ≤ buffer.length)) buffer } rest :=
  ⟨hsplit, hleft, rfl, (nextReadLength_spec hlen hsplit hleft).1,
    (nextReadLength_spec hlen hsplit hleft).2⟩

lemma Reading.start :
    Reading (sBlockHeader headerString data.length sum ++ data) {}
      (sBlockHeader headerString data.length sum ++ data) := by
  have hpos : 0 < (sBlockHeader headerString data.length sum ++ data).length :=
    lt_of_lt_of_le (by decide) headerSize_le
  exact ⟨rfl, List.length_pos_iff.mp hpos, rfl, by decide, headerSize_le⟩

def successes (deliveries : List Nat) : Nat := deliveries.countP (0 < ·)

lemma successes_cons_zero (deliveries : List Nat) :
    successes (0 :: deliveries) = successes deliveries :=
  List.countP_cons_of_neg (by simp)

lemma successes_cons_pos {d : Nat} (h : 0 < d) (deliveries : List Nat) :
    successes (d :: deliveries) = successes deliveries + 1 :=
  List.countP_cons_of_pos (by simpa using h)

lemma readLoop_idle (r : Reader) (typeEncode : TypeEncode) (xorKey : Bytes) (ctx : Option Bytes)
    (deliveries : List Nat) (stream : Bytes) (s : ReadState) :
    readLoop r typeEncode xorKey ctx (0 :: deliveries) stream s =
      readLoop r typeEncode xorKey ctx deliveries stream
        { s with readLength := nextReadLength s.blockHeaderOK s.buffer } := by
  simp [readLoop]

lemma readLoop_part {r : Reader} (hhead : r.blockHeaderString = headerString)
    (hlen : data.length + headerSize < 2 ^ 32) (typeEncode : TypeEncode) (xorKey : Bytes)
    (ctx : Option Bytes) (deliveries : List Nat) {stream tail got rest : Bytes} {d : Nat}
    {s : ReadState} (hok : s.blockHeaderOK = decide (headerSize ≤ s.buffer.length))
    (hsplit : s.buffer ++ (got ++ rest) = sBlockHeader headerString data.length sum ++ data)
    (hstream : stream = got ++ tail) (hgot : got ≠ []) (hd : got.length = min d s.readLength) :
    readLoop r typeEncode xorKey ctx (d :: deliveries) stream s =
      if rest = [] then
        some ((finishBlock r typeEncode xorKey ctx (s.buffer ++ got)).1,
          { stream := tail
            deliveries := deliveries
            ctx := (finishBlock r typeEncode xorKey ctx (s.buffer ++ got)).2 })
      else
        readLoop r typeEncode xorKey ctx deliveries tail
          { buffer := s.buffer ++ got
            blockHeaderOK := decide (headerSize ≤ (s.buffer ++ got).length)
            readLength :=
              nextReadLength (decide (headerSize ≤ (s.buffer ++ got).length)) (s.buffer ++ got) } := by
  rw [← List.append_assoc] at hsplit
  have htake : stream.take (min d s.readLength) = got := by
    rw [hstream, ← hd, List.take_left]
  have hdrop : stream.drop (min d s.readLength) = tail := by
    rw [hstream, ← hd, List.drop_left]
  have hheader : ¬ (s.blockHeaderOK = false ∧ headerSize ≤ (s.buffer ++ got).length ∧
      okBlockHeader r.blockHeaderString (s.buffer ++ got) = false) := by
    rintro ⟨-, hsize, hbad⟩
    obtain ⟨data', hbuffer⟩ := exists_data_of_headerSize_le hsplit hsize
    rw [hhead, hbuffer, okBlockHeader_sBlockHeader] at hbad
    cases hbad
  have hnow : (s.blockHeaderOK || decide (headerSize ≤ (s.buffer ++ got).length)) =
      decide (headerSize ≤ (s.buffer ++ got).length) := by
    rw [hok, List.length_append]
    by_cases h : headerSize ≤ s.buffer.length
    · simp [h, Nat.le_add_right_of_le h]
    · simp [h]
  rw [readLoop]
  simp only [htake, hdrop, hgot, if_false, hheader, hnow]
  by_cases hrest : rest = []
  · subst hrest
    rw [List.append_nil] at hsplit
    have hsize : headerSize ≤ (s.buffer ++ got).length := by
      rw [hsplit]
      exact headerSize_le
    have htotal : lengthBlockHeader (s.buffer ++ got) true =
        (s.buffer ++ got).length + ([] : Bytes).length :=
      lengthBlockHeader_part hlen (by rwa [List.append_nil]) hsize
    rw [if_pos ⟨decide_eq_true hsize, htotal.le⟩, if_pos rfl]
  · have hpos : 0 < rest.length := List.length_pos_iff.mpr hrest
    rw [if_neg hrest, if_neg]
    rintro ⟨hsize, hdone⟩
    rw [lengthBlockHeader_part hlen hsplit (of_decide_eq_true hsize)] at hdone
    omega

/-- Each read that finds bytes takes some of the rest, so that the block is complete after at
most as many of them as bytes are missing, and nothing behind it is taken. -/
lemma readLoop_whole {r : Reader} (hhead : r.blockHeaderString = headerString)
    (hlen : data.length + headerSize < 2 ^ 32) (typeEncode : TypeEncode) (xorKey : Bytes)
    (ctx : Option Bytes) (tail : Bytes) {deliveries : List Nat} {s : ReadState} {rest : Bytes}
    (hs : Reading (sBlockHeader headerString data.length sum ++ data) s rest)
    (henough : rest.length ≤ successes deliveries) :
    ∃ later, later <:+ deliveries ∧ successes deliveries ≤ successes later + rest.length ∧
      readLoop r typeEncode xorKey ctx deliveries (rest ++ tail) s =
        some ((finishBlock r typeEncode xorKey ctx
            (sBlockHeader headerString data.length sum ++ data)).1,
          { stream := tail
            deliveries := later
            ctx := (finishBlock r typeEncode xorKey ctx
              (sBlockHeader headerString data.length sum ++ data)).2 }) := by
  induction deliveries generalizing s rest with
  | nil =>
    have hpos := List.length_pos_iff.mpr hs.left
    simp only [successes, List.countP_nil] at henough
    omega
  | cons d deliveries ih =>
    rcases Nat.eq_zero_or_pos d with rfl | hd
    · rw [successes_cons_zero] at henough ⊢
      have hnext := Reading.next hlen hs.split hs.left
      rw [← hs.ok] at hnext
      obtain ⟨later, hlater, hcount, hrun⟩ := ih hnext henough
      refine ⟨later, hlater.trans (List.suffix_cons 0 deliveries), hcount, ?_⟩
      rw [readLoop_idle]
      exact hrun
    · rw [successes_cons_pos hd] at henough ⊢
      have hn : min d s.readLength ≤ rest.length := le_trans (min_le_right _ _) hs.le
      obtain ⟨got, rest', rfl, hgot⟩ : ∃ got rest', rest = got ++ rest' ∧
          got.length = min d s.readLength :=
        ⟨_, _, (List.take_append_drop _ rest).symm, List.length_take_of_le hn⟩
      have hpos : 0 < got.length := by
        rw [hgot]
        exact lt_min hd hs.pos
      have hsplit := hs.split
      rw [List.length_append] at henough ⊢
      rw [readLoop_part hhead hlen typeEncode xorKey ctx deliveries hs.ok hsplit
        (List.append_assoc got rest' tail) (List.length_pos_iff.mp hpos) hgot]
      rw [← List.append_assoc] at hsplit
      split
      · next hrest =>
        subst hrest
        rw [List.append_nil] at hsplit
        rw [hsplit]
        exact ⟨deliveries, List.suffix_cons d deliveries, by omega, rfl⟩
      · next hrest =>
        obtain ⟨later, hlater, hcount, hrun⟩ := ih (Reading.next hlen hsplit hrest) (by omega)
        exact ⟨later, hlater.trans (List.suffix_cons d deliveries), by omega, hrun⟩

end Loop

/-! ### One block and many blocks -/

lemma writeBlock_spec {w : Writer ρ} {b : Block ρ} {sent : Bytes} {ctx : Option Bytes}
    (hlen : b.data.length < 2 ^ 31) (h : writeBlock w none b = (some sent, ctx)) :
    ctx = none ∧ ∃ encoded, encodeData w none b = (some encoded, none) ∧
      encoded.length + headerSize < 2 ^ 32 ∧
      sent = sBlockHeader w.blockHeaderString encoded.length (dataSum b.data) ++ encoded := by
  unfold writeBlock at h
  rcases henc : encodeData w none b with ⟨_ | encoded, ctx'⟩
  · rw [henc] at h
    cases h
  · rw [henc] at h
    obtain ⟨hs, rfl⟩ := Prod.mk.inj h
    obtain ⟨hshort, rfl⟩ := encodeData_spec hlen henc
    refine ⟨rfl, encoded, rfl, ?_, (Option.some.inj hs).symm⟩
    unfold headerSize
    omega

lemma readBlock_sent {w : Writer ρ} {r : Reader} (hm : Matched w r) {b : Block ρ} {sent : Bytes}
    {ctx : Option Bytes} (hlen : b.data.length < 2 ^ 31)
    (h : writeBlock w none b = (some sent, ctx)) (tail : Bytes) {deliveries : List Nat}
    (henough : sent.length ≤ successes deliveries) :
    ∃ later, later <:+ deliveries ∧ successes deliveries ≤ successes later + sent.length ∧
      readBlock r b.typeEncode b.xorKey { stream := sent ++ tail, deliveries := deliveries } =
        some (received w b, { stream := tail, deliveries := later }) := by
  obtain ⟨-, encoded, henc, hshort, rfl⟩ := writeBlock_spec hlen h
  obtain ⟨later, hlater, hcount, hrun⟩ := readLoop_whole hm.header hshort b.typeEncode b.xorKey
    none tail Reading.start henough
  rw [finishBlock_sent hm hlen henc] at hrun
  exact ⟨later, hlater, hcount, hrun⟩

lemma readBlocks_sent {w : Writer ρ} {r : Reader} (hm : Matched w r) {blocks : List (Block ρ)}
    {sents : List Bytes} (hlen : ∀ b ∈ blocks, b.data.length < 2 ^ 31)
    (h : writeBlocks w none blocks = some sents) (tail : Bytes) {deliveries : List Nat}
    (henough : sents.flatten.length ≤ successes deliveries) :
    ∃ later, later <:+ deliveries ∧
      readBlocks r (blocks.map Block.encoding)
          { stream := sents.flatten ++ tail, deliveries := deliveries } =
        some (blocks.map (received w), { stream := tail, deliveries := later }) := by
  induction blocks generalizing sents deliveries with
  | nil =>
    obtain rfl := Option.some.inj h
    exact ⟨deliveries, List.suffix_refl _, rfl⟩
  | cons b blocks ih =>
    rw [writeBlocks] at h
    rcases hb : writeBlock w none b with ⟨_ | sent, ctx⟩
    · rw [hb] at h
      cases h
    · rw [hb] at h
      have hlenb := hlen b List.mem_cons_self
      obtain ⟨rfl, -⟩ := writeBlock_spec hlenb hb
      obtain ⟨sents', hrest, rfl⟩ := Option.map_eq_some_iff.mp h
      rw [List.flatten_cons, List.length_append] at henough
      obtain ⟨middle, hmiddle, hcount, hread⟩ := readBlock_sent hm hlenb hb
        (sents'.flatten ++ tail) (by omega : sent.length ≤ successes deliveries)
      obtain ⟨later, hlater, hreads⟩ := ih (fun b' hb' => hlen b' (List.mem_cons_of_mem b hb'))
        hrest (by omega : sents'.flatten.length ≤ successes middle)
      refine ⟨later, hlater.trans hmiddle, ?_⟩
      rw [List.map_cons, Block.encoding, readBlocks, List.flatten_cons, List.append_assoc, hread]
      dsimp only
      rw [hreads]
      rfl

lemma writeBlocks_take {w : Writer ρ} {blocks : List (Block ρ)} {ctx : Option Bytes}
    {sents : List Bytes} (h : writeBlocks w ctx blocks = some sents) (n : Nat) :
    writeBlocks w ctx (blocks.take n) = some (sents.take n) := by
  induction blocks generalizing ctx sents n with
  | nil =>
    obtain rfl := Option.some.inj h
    rw [List.take_nil, List.take_nil]
    rfl
  | cons b blocks ih =>
    cases n with
    | zero => rfl
    | succ n =>
      rw [writeBlocks] at h
      rw [List.take_succ_cons, writeBlocks]
      rcases hb : writeBlock w ctx b with ⟨_ | sent, ctx'⟩
      · rw [hb] at h
        cases h
      · rw [hb] at h
        obtain ⟨sents', hrest, rfl⟩ := Option.map_eq_some_iff.mp h
        dsimp only
        rw [ih hrest n]
        rfl

/-- However the bytes are delivered, the first `n` calls of `readBlock` return the first `n`
blocks once there were as many successful reads as these blocks have bytes, and what is left of
the stream begins with the block behind them. -/
def ReadsBack (r : Reader) (blocks : List (Block ρ)) (sents : List Bytes) : Prop :=
  ∀ (n : Nat) (tail : Bytes) (deliveries : List Nat),
    (sents.take n).flatten.length ≤ successes deliveries →
    ∃ later, later <:+ deliveries ∧
      readBlocks r ((blocks.take n).map Block.encoding)
          { stream := sents.flatten ++ tail, deliveries := deliveries } =
        some ((blocks.take n).map (fun b => some b.data),
          { stream := (sents.drop n).flatten ++ tail, deliveries := later })

lemma received_eq_some_iff {w : Writer ρ} {b : Block ρ} :
    received w b = some b.data ↔ ¬ (usesRsa w b ∧ b.data = []) := by
  unfold received
  split
  · next h => simp [h]
  · next h => simp [h]

lemma ReadsBack.not_empty_rsa {w : Writer ρ} {r : Reader} (hm : Matched w r)
    {blocks : List (Block ρ)} {sents : List Bytes} (hlen : ∀ b ∈ blocks, b.data.length < 2 ^ 31)
    (h : writeBlocks w none blocks = some sents) (hback : ReadsBack r blocks sents) :
    ∀ b ∈ blocks, ¬ (usesRsa w b ∧ b.data = []) := by
  intro b hb
  have henough : sents.flatten.length ≤ successes (List.replicate sents.flatten.length 1) := by
    rw [successes, List.countP_replicate, if_pos (by decide)]
  have hfirst : (sents.take blocks.length).flatten.length ≤ sents.flatten.length :=
    (List.take_sublist blocks.length sents).flatten.length_le
  obtain ⟨later, -, hread⟩ := hback blocks.length []
    (List.replicate sents.flatten.length 1) (hfirst.trans henough)
  obtain ⟨later', -, hread'⟩ := readBlocks_sent hm hlen h [] henough
  rw [List.take_length, hread'] at hread
  have hmaps := congrArg Prod.fst (Option.some.inj hread)
  exact received_eq_some_iff.mp (List.map_inj_left.mp hmaps b hb)

/-- The blocks come back if and only if no block is empty that goes through rsa. -/
theorem readsBack_iff {w : Writer ρ} {r : Reader} (hm : Matched w r) {blocks : List (Block ρ)}
    {sents : List Bytes} (hlen : ∀ b ∈ blocks, b.data.length < 2 ^ 31)
    (h : writeBlocks w none blocks = some sents) :
    ReadsBack r blocks sents ↔ ∀ b ∈ blocks, ¬ (usesRsa w b ∧ b.data = []) := by
  constructor
  · intro hback
    exact hback.not_empty_rsa hm hlen h
  · intro hgood n tail deliveries henough
    have hlen' : ∀ b ∈ blocks.take n, b.data.length < 2 ^ 31 :=
      fun b hb => hlen b (List.mem_of_mem_take hb)
    obtain ⟨later, hlater, hread⟩ := readBlocks_sent hm hlen' (writeBlocks_take h n)
      ((sents.drop n).flatten ++ tail) henough
    refine ⟨later, hlater, ?_⟩
    rw [← List.append_assoc, ← List.flatten_append, List.take_append_drop] at hread
    rw [hread, List.map_congr_left fun b hb =>
      received_eq_some_iff.mpr (hgood b (List.mem_of_mem_take hb))]

/-! ### Ciphers for tests -/

/-- The padding of PKCS #1 for a key of 2048 bits, as rsa with the exponent 1 sends it. -/
def padEncrypt (_ : Unit) (data : Bytes) : Option Bytes :=
  if data.length ≤ 245 then
    some ([0, 2] ++ List.replicate (253 - data.length) 255 ++ 0 :: data)
  else none

def padDecrypt (sent : Bytes) : Option Bytes := some ((sent.drop 2).dropWhile (· != 0)).tail

def streamCipher : Evp where
  init := true
  update _ data := some (data.map (· ^^^ 90))
  final _ := some []

def testWriter : Writer Unit := { pubKey := some padEncrypt, aes := streamCipher }

def testReader : Reader := { privKey := some padDecrypt, aes := streamCipher }

lemma streamCipher_output (data : Bytes) :
    streamCipher.output data = some (data.map (· ^^^ 90)) := by
  unfold Evp.output streamCipher
  cases data with
  | nil => rfl
  | cons c data => simp

lemma padDecrypt_padEncrypt {data sent : Bytes} (h : padEncrypt () data = some sent) :
    padDecrypt sent = some data := by
  unfold padEncrypt at h
  split at h
  · obtain rfl := Option.some.inj h
    rw [padDecrypt, List.append_assoc, List.drop_left' (by rfl), List.dropWhile_append_of_pos]
    · rfl
    · intro c hc
      rw [List.eq_of_mem_replicate hc]
      rfl
  · cases h

lemma matched_test : Matched testWriter testReader where
  header := rfl
  rsa := fun _ _ _ h => padDecrypt_padEncrypt h
  aes := by
    intro data sent h
    rw [testWriter, streamCipher_output] at h
    obtain rfl := Option.some.inj h
    rw [testReader, streamCipher_output, List.map_map]
    congr 1
    have hid : ((fun c : UInt8 => c ^^^ 90) ∘ fun c => c ^^^ 90) = id := by
      funext c
      rw [Function.comp_apply, UInt8.xor_assoc, UInt8.xor_self, UInt8.xor_zero, id_eq]
    rw [hid, List.map_id]

def testBlocks : List (Block Unit) :=
  [⟨ascii "register", .na, [], ()⟩, ⟨[], .na, [], ()⟩, ⟨ascii "xored", .xor, ascii "key", ()⟩,
    ⟨ascii "aes keys", .rsa, [], ()⟩, ⟨ascii "data", .aes, [], ()⟩]

theorem readsBack_testBlocks :
    ∃ sents, writeBlocks testWriter none testBlocks = some sents ∧
      ReadsBack testReader testBlocks sents := by
  obtain ⟨sents, h⟩ := Option.isSome_iff_exists.mp
    (by decide +kernel : (writeBlocks testWriter none testBlocks).isSome = true)
  have hlen : ∀ b ∈ testBlocks, b.data.length < 2 ^ 31 := by decide +kernel
  have hgood : ∀ b ∈ testBlocks, ¬ (usesRsa testWriter b ∧ b.data = []) := by decide +kernel
  exact ⟨sents, h, (readsBack_iff matched_test hlen h).mpr hgood⟩

def emptyRsaBlock : Block Unit := ⟨[], .rsa, [], ()⟩

/-- An empty block under rsa is sent, in 296 bytes, and `readBlock` returns `NULL` for it. -/
theorem readBlock_empty_rsa :
    ∃ sent : Bytes, Matched testWriter testReader ∧
      writeBlocks testWriter none [emptyRsaBlock] = some [sent] ∧ sent.length = 296 ∧
      readBlocks testReader [emptyRsaBlock.encoding] { stream := sent, deliveries := [40, 256] } =
        some ([none], { stream := [], deliveries := [] }) ∧
      ¬ ReadsBack testReader [emptyRsaBlock] [sent] := by
  have hsent : writeBlocks testWriter none [emptyRsaBlock] =
      some [((writeBlock testWriter none emptyRsaBlock).1).getD []] := by decide +kernel
  refine ⟨((writeBlock testWriter none emptyRsaBlock).1).getD [], matched_test, hsent, ?_, ?_, ?_⟩
  · decide +kernel
  · decide +kernel
  · intro hback
    have hgood := hback.not_empty_rsa matched_test (by decide) hsent
    exact hgood emptyRsaBlock List.mem_cons_self ⟨⟨rfl, rfl⟩, rfl⟩

end VoipMonitor.SocketBlock
