import VoipMonitor.Model.IpFix

/-!
# IPFIX messages are processed once

The walk of `checkIPFixData` finds the messages that the walk of `process` hands on, so the
buffer is processed exactly when it holds a whole message. What stays in the buffer is then a
proper beginning of the next message.
-/

namespace VoipMonitor.IpFix
open VoipMonitor.Library

variable {optVersion : List Int}

structure MessageOk (optVersion : List Int) (m : Bytes) : Prop where
  version : checkIPFixVersion optVersion (getVersion m) = true
  length : getLength m = m.length
  size : headerSize < m.length

lemma checkLoop_eq (optVersion : List Int) (data : Bytes) (offset counter : Nat) :
    checkLoop optVersion false data offset counter =
      ((processLoop optVersion data offset).2,
        counter + (processLoop optVersion data offset).1.length) := by
  fun_induction checkLoop optVersion false data offset counter with
  | case1 => contradiction
  | case2 offset counter header hversion _ hagain ih =>
    rw [ih, processLoop.eq_def optVersion data offset, if_pos hversion, if_pos hagain]
  | case3 offset counter header hversion _ hagain =>
    rw [processLoop, if_pos hversion, if_neg hagain]
    rfl
  | case4 offset counter header hversion hlong =>
    rw [processLoop, if_neg hversion, if_pos hlong]
    rfl
  | case5 => contradiction
  | case6 offset counter header hversion hlong hshort _ hagain ih =>
    rw [ih, processLoop.eq_def optVersion data offset, if_neg hversion, if_neg hlong,
      if_pos hshort, if_pos hagain]
  | case7 offset counter header hversion hlong hshort _ hagain =>
    rw [processLoop, if_neg hversion, if_neg hlong, if_pos hshort, if_neg hagain]
    rfl
  | case8 offset counter header hversion hlong hshort hagain ih =>
    rw [ih, processLoop.eq_def optVersion data offset, if_neg hversion, if_neg hlong,
      if_neg hshort, if_pos hagain]
    refine Prod.ext rfl ?_
    rw [List.length_cons, Nat.add_assoc, Nat.add_comm 1]
  | case9 offset counter header hversion hlong hshort hagain =>
    rw [processLoop, if_neg hversion, if_neg hlong, if_neg hshort, if_neg hagain]
    rfl

lemma check_eq {data : Bytes} (h : headerSize ≤ data.length) :
    check optVersion data = decide ((processLoop optVersion data 0).1.length > 0) := by
  rw [check, checkIPFixData, if_neg (by omega), checkLoop_eq, Nat.zero_add]
  rfl

lemma getVersion_of_isPrefix {a b : Bytes} (h : a <+: b) (ha : 4 ≤ a.length) :
    getVersion a = getVersion b := be16_of_isPrefix h (by omega)

lemma getLength_of_isPrefix {a b : Bytes} (h : a <+: b) (ha : 4 ≤ a.length) :
    getLength a = getLength b := be16_of_isPrefix h (by omega)

lemma processLoop_tail {pre tail m : Bytes} (hm : MessageOk optVersion m) (htail : tail <+: m)
    (hlt : tail.length < m.length) (hsize : 4 ≤ tail.length) :
    processLoop optVersion (pre ++ tail) pre.length = ([], pre.length) := by
  have hversion : checkIPFixVersion optVersion (getVersion tail) = true := by
    rw [getVersion_of_isPrefix htail hsize]
    exact hm.version
  have hlength : getLength tail = m.length := by
    rw [getLength_of_isPrefix htail hsize, hm.length]
  rw [processLoop, List.drop_left, List.length_append, Nat.add_sub_cancel_left]
  rw [if_neg (by rw [hversion]; exact fun h => h rfl), hlength, if_pos hlt]

lemma processLoop_message {pre m more : Bytes} (hm : MessageOk optVersion m) :
    processLoop optVersion (pre ++ (m ++ more)) pre.length =
      if headerSize < more.length then
        (m :: (processLoop optVersion ((pre ++ m) ++ more) (pre ++ m).length).1,
          (processLoop optVersion ((pre ++ m) ++ more) (pre ++ m).length).2)
      else ([m], (pre ++ m).length) := by
  have hsize := hm.size
  have hfour : 4 ≤ m.length := by
    unfold headerSize at hsize
    omega
  have hversion : checkIPFixVersion optVersion (getVersion (m ++ more)) = true := by
    rw [← getVersion_of_isPrefix (List.prefix_append m more) hfour]
    exact hm.version
  have hlength : getLength (m ++ more) = m.length := by
    rw [← getLength_of_isPrefix (List.prefix_append m more) hfour, hm.length]
  have hnot : ¬m.length > (pre ++ (m ++ more)).length - pre.length := by
    simp only [List.length_append]
    omega
  have hagain : Again (pre ++ (m ++ more)) (pre.length + m.length) ↔ headerSize < more.length := by
    simp only [Again, headerSize, List.length_append]
    omega
  rw [processLoop, List.drop_left]
  rw [if_neg (by rw [hversion]; exact fun h => h rfl), hlength, if_neg hnot,
    if_neg (by omega), List.take_left, List.append_assoc, List.length_append]
  by_cases hmore : headerSize < more.length
  · rw [if_pos (hagain.mpr hmore), if_pos hmore]
  · rw [if_neg fun h => hmore (hagain.mp h), if_neg hmore]

lemma lt_length_flatten {ms : List Bytes} (hms : ∀ m ∈ ms, MessageOk optVersion m) (hne : ms ≠ []) :
    headerSize < ms.flatten.length := by
  cases ms with
  | nil => exact absurd rfl hne
  | cons m ms =>
    have hsize := (hms m List.mem_cons_self).size
    rw [List.flatten_cons, List.length_append]
    omega

lemma processLoop_eq {rest : List Bytes} {tail : Bytes} (hrest : ∀ m ∈ rest, MessageOk optVersion m)
    (htail : Beginning tail rest) (whole : List Bytes) (hwhole : ∀ m ∈ whole, MessageOk optVersion m)
    (pre : Bytes) (hstart : headerSize ≤ (whole.flatten ++ tail).length) :
    processLoop optVersion (pre ++ (whole.flatten ++ tail)) pre.length =
      (whole, pre.length + whole.flatten.length) := by
  induction whole generalizing pre with
  | nil =>
    rw [List.flatten_nil, List.nil_append] at hstart ⊢
    have hlen : 4 ≤ tail.length := by
      unfold headerSize at hstart
      omega
    rcases htail with rfl | ⟨m, ms, rfl, hpre, hlt⟩
    · cases hlen
    · exact processLoop_tail (hrest m List.mem_cons_self) hpre hlt hlen
  | cons m whole ih =>
    have hwhole' : ∀ m ∈ whole, MessageOk optVersion m :=
      fun m hm => hwhole m (List.mem_cons_of_mem _ hm)
    rw [List.flatten_cons, List.append_assoc, processLoop_message (hwhole m List.mem_cons_self),
      @List.length_append _ m]
    by_cases hmore : headerSize < (whole.flatten ++ tail).length
    · rw [if_pos hmore, ih hwhole' (pre ++ m) (by omega), List.length_append, Nat.add_assoc]
    · have hnil : whole = [] := by
        by_contra hne
        have hlong := lt_length_flatten hwhole' hne
        rw [List.length_append] at hmore
        omega
      rw [if_neg hmore, hnil, List.length_append]
      rfl

lemma process_eq {whole rest : List Bytes} {tail : Bytes}
    (hwhole : ∀ m ∈ whole, MessageOk optVersion m) (hrest : ∀ m ∈ rest, MessageOk optVersion m)
    (htail : Beginning tail rest) (hsize : headerSize ≤ (whole.flatten ++ tail).length) :
    process optVersion (whole.flatten ++ tail) = (whole, tail) := by
  have hloop := processLoop_eq hrest htail whole hwhole [] hsize
  rw [List.nil_append, List.length_nil, Nat.zero_add] at hloop
  rw [process, if_neg (by omega), hloop]
  dsimp only
  rw [List.length_append]
  by_cases hend : whole.flatten.length = whole.flatten.length + tail.length
  · rw [if_pos hend, List.eq_nil_of_length_eq_zero (by omega : tail.length = 0)]
  · rw [if_neg hend, removeDataFromLeft, List.length_append, if_neg (by omega), List.drop_left]

lemma check_eq_false {rest : List Bytes} {tail : Bytes} (hrest : ∀ m ∈ rest, MessageOk optVersion m)
    (htail : Beginning tail rest) : check optVersion tail = false := by
  by_cases hsize : headerSize ≤ tail.length
  · have hloop := processLoop_eq hrest htail [] (by simp) [] hsize
    rw [check_eq hsize, decide_eq_false_iff_not]
    have hempty : (processLoop optVersion tail 0).1 = [] := congrArg Prod.fst hloop
    rw [hempty]
    exact Nat.lt_irrefl 0
  · rw [check, checkIPFixData, if_pos (by omega)]

lemma check_eq_true {whole rest : List Bytes} {tail : Bytes} (hne : whole ≠ [])
    (hwhole : ∀ m ∈ whole, MessageOk optVersion m) (hrest : ∀ m ∈ rest, MessageOk optVersion m)
    (htail : Beginning tail rest) : check optVersion (whole.flatten ++ tail) = true := by
  have hlong := lt_length_flatten hwhole hne
  have hsize : headerSize ≤ (whole.flatten ++ tail).length := by
    rw [List.length_append]
    omega
  have hloop := processLoop_eq hrest htail whole hwhole [] hsize
  rw [check_eq hsize, decide_eq_true_eq]
  have hout : (processLoop optVersion (whole.flatten ++ tail) 0).1 = whole := congrArg Prod.fst hloop
  rw [hout]
  exact List.length_pos_iff.mpr hne

lemma Beginning.length_lt {rest : List Bytes} {tail : Bytes}
    (hrest : ∀ m ∈ rest, MessageOk optVersion m) (htail : Beginning tail rest) :
    tail.length < 65536 := by
  rcases htail with rfl | ⟨m, ms, rfl, -, hlt⟩
  · exact Nat.zero_lt_succ _
  · have hlength := (hrest m List.mem_cons_self).length
    have hhigh : byteAt m 2 < 256 := UInt8.toNat_lt _
    have hlow : byteAt m (2 + 1) < 256 := UInt8.toNat_lt _
    unfold getLength be16 at hlength
    omega

lemma connectionRead_eq {buffer d tail : Bytes} {whole rest : List Bytes}
    (hok : ∀ m ∈ whole ++ rest, MessageOk optVersion m) (hbuffer : Beginning buffer (whole ++ rest))
    (hdata : buffer ++ d = whole.flatten ++ tail) (htail : Beginning tail rest) :
    connectionRead optVersion buffer d = (whole, tail) := by
  have hwhole : ∀ m ∈ whole, MessageOk optVersion m :=
    fun m hm => hok m (List.mem_append_left _ hm)
  have hrest : ∀ m ∈ rest, MessageOk optVersion m :=
    fun m hm => hok m (List.mem_append_right _ hm)
  unfold connectionRead
  by_cases hd : d.length > 0
  · rw [if_pos hd, hdata]
    by_cases hne : whole = []
    · subst hne
      rw [List.flatten_nil, List.nil_append, check_eq_false hrest htail]
      rfl
    · have hlong := lt_length_flatten hwhole hne
      rw [check_eq_true hne hwhole hrest htail]
      exact process_eq hwhole hrest htail (by rw [List.length_append]; omega)
  · have hnil : d = [] := List.eq_nil_of_length_eq_zero (by omega)
    have hsmall := Beginning.length_lt hok hbuffer
    rw [if_neg hd, if_neg (by omega)]
    rw [hnil, List.append_nil] at hdata
    -- no message has become whole, since the buffer was shorter than the first one
    have hwnil : whole = [] := by
      cases whole with
      | nil => rfl
      | cons m whole =>
        rcases hbuffer with rfl | ⟨m', ms, heq, -, hlt⟩
        · have hlen := congrArg List.length hdata
          have hpos := lt_length_flatten hwhole (List.cons_ne_nil m whole)
          rw [List.length_nil, List.length_append] at hlen
          omega
        · obtain ⟨rfl, -⟩ := List.cons.inj heq
          have hlen := congrArg List.length hdata
          rw [List.flatten_cons, List.length_append, List.length_append] at hlen
          omega
    rw [hdata, hwnil, List.flatten_nil, List.nil_append]

/-- Whatever the reads, each message is handed to `process_ipfix` once, in order and with its own
bytes, and the buffer is empty at the end. -/
theorem connectionProcess_eq (optVersion : List Int) (messages : List Bytes)
    (hok : ∀ m ∈ messages, MessageOk optVersion m) (reads : List Bytes)
    (hreads : reads.flatten = messages.flatten) :
    connectionProcess optVersion reads = (messages, []) := by
  have hne : ∀ m ∈ messages, m ≠ [] := by
    intro m hm hnil
    have hsize := (hok m hm).size
    rw [hnil] at hsize
    cases hsize
  refine readAll_eq hne ?_ (List.suffix_refl messages) (beginning_nil _) reads hreads
  intro buffer d whole rest tail hsuffix hbuffer hdata htail
  exact connectionRead_eq (fun m hm => hok m (hsuffix.mem hm)) hbuffer hdata htail

theorem connectionProcess_eq_example :
    connectionProcess [] [[0, 10, 0], 21 :: List.replicate 17 7 ++ [0, 10, 0, 21] ++
      List.replicate 17 8] = ([[0, 10, 0, 21] ++ List.replicate 17 7,
        [0, 10, 0, 21] ++ List.replicate 17 8], []) := by
  refine connectionProcess_eq [] _ ?_ _ (by decide)
  intro m hm
  simp only [List.mem_cons, List.not_mem_nil, or_false] at hm
  rcases hm with rfl | rfl
  · exact ⟨by decide, by decide, by decide⟩
  · exact ⟨by decide, by decide, by decide⟩

end VoipMonitor.IpFix
