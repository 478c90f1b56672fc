import VoipMonitor.Model.Hep

/-!
# HEP messages over any reads

Between two reads that went well the buffer holds the beginning of the next message. A read can go
wrong in four ways: less than 4 bytes of a new message are dropped; with 4 or 5 bytes of a message
the loop of `processHeps` does not end; a read that begins with `HEP3` within a message drops what
is pending; and the messages found in the buffer stay there when they are not shorter than the
read. What is dropped is never processed, and what stays is processed again.
-/

namespace VoipMonitor.Hep
open VoipMonitor.Library

variable {α : Type} {byte : α → UInt8}

structure MessageOk (byte : α → UInt8) (m : List α) : Prop where
  begins : (m.take 4).map byte = magic
  length : be16 (m.map byte) 4 = m.length
  size : 7 ≤ m.length
  payload : ¬magic <:+: (m.drop 6).map byte

/-! ## The fields of a message that has arrived in part -/

lemma MessageOk.isBeginHep {m data : List α} (hm : MessageOk byte m) (hlen : 4 ≤ data.length)
    (h : data <+: m ∨ m <+: data) : isBeginHep byte data = true := by
  have hsize := hm.size
  have htake : data.take 4 = m.take 4 := by
    rcases h with ⟨r, rfl⟩ | ⟨r, rfl⟩
    · rw [List.take_append_of_le_length hlen]
    · rw [List.take_append_of_le_length (by omega)]
  unfold Hep.isBeginHep
  rw [htake, hm.begins]
  simpa using hlen

lemma MessageOk.hepLength {m data : List α} (hm : MessageOk byte m) (hlen : 6 ≤ data.length)
    (h : data <+: m ∨ m <+: data) : hepLength byte data = m.length := by
  have hsize := hm.size
  unfold Hep.hepLength
  rw [if_pos hlen, ← hm.length]
  rcases h with ⟨r, rfl⟩ | ⟨r, rfl⟩
  · rw [List.map_append]
    exact be16_of_isPrefix (List.prefix_append _ _) (by rw [List.length_map]; omega)
  · rw [List.map_append]
    exact (be16_of_isPrefix (List.prefix_append _ _) (by rw [List.length_map]; omega)).symm

lemma MessageOk.lt {m : List α} (hm : MessageOk byte m) : m.length < 65536 := by
  have hhigh : byteAt (m.map byte) 4 < 256 := UInt8.toNat_lt _
  have hlow : byteAt (m.map byte) (4 + 1) < 256 := UInt8.toNat_lt _
  have hlength := hm.length
  unfold be16 at hlength
  omega

/-! ## The loop over whole messages -/

lemma processHepsFrom_message (pre more : List α) {m : List α} (hm : MessageOk byte m) :
    processHepsFrom byte (pre ++ (m ++ more)) pre.length =
      (processHepsFrom byte ((pre ++ m) ++ more) (pre ++ m).length).map
        (fun (heps, processed) => (m :: heps, processed)) := by
  have hsize := hm.size
  have hdrop : (pre ++ (m ++ more)).drop pre.length = m ++ more := List.drop_left' rfl
  have hbegin : isBeginHep byte (m ++ more) = true :=
    hm.isBeginHep (by rw [List.length_append]; omega) (Or.inr (List.prefix_append _ _))
  have hlength : hepLength byte (m ++ more) = m.length :=
    hm.hepLength (by rw [List.length_append]; omega) (Or.inr (List.prefix_append _ _))
  have hlen : (pre ++ (m ++ more)).length = pre.length + (m.length + more.length) := by
    rw [List.length_append, List.length_append]
  have hagain : Again (pre ++ (m ++ more)).length pre.length := by
    right
    omega
  rw [processHepsFrom, if_pos hagain]
  dsimp only
  rw [hdrop, hbegin, hlength, if_neg (by simp), if_neg (by omega), if_neg (by omega),
    List.take_left' rfl, List.append_assoc, List.length_append]

lemma processHepsFrom_tail {pre tail : List α} {rest : List (List α)}
    (hrest : ∀ m ∈ rest, MessageOk byte m) (htail : Beginning tail rest)
    (hlen : 6 ≤ (pre ++ tail).length) :
    processHepsFrom byte (pre ++ tail) pre.length = some ([], pre.length) := by
  rw [processHepsFrom]
  split
  · rename_i hagain
    have hlong : 6 < tail.length := by
      unfold Again at hagain
      rw [List.length_append] at hagain hlen
      omega
    rcases htail with rfl | ⟨m, ms, rfl, hpre, hlt⟩
    · simp at hlong
    · have hm := hrest m List.mem_cons_self
      have hdrop : (pre ++ tail).drop pre.length = tail := List.drop_left' rfl
      have hbegin : isBeginHep byte tail = true := hm.isBeginHep (by omega) (Or.inl hpre)
      have hlength : hepLength byte tail = m.length := hm.hepLength (by omega) (Or.inl hpre)
      dsimp only
      rw [hdrop, hbegin, hlength, if_neg (by simp), if_pos (by rw [List.length_append]; omega)]
  · rfl

lemma processHepsFrom_eq {tail : List α} {rest : List (List α)} (hrest : ∀ m ∈ rest, MessageOk byte m)
    (htail : Beginning tail rest) (whole : List (List α)) (hwhole : ∀ m ∈ whole, MessageOk byte m)
    (pre : List α) (hlen : 6 ≤ (pre ++ (whole.flatten ++ tail)).length) :
    processHepsFrom byte (pre ++ (whole.flatten ++ tail)) pre.length =
      some (whole, pre.length + whole.flatten.length) := by
  induction whole generalizing pre with
  | nil => exact processHepsFrom_tail hrest htail hlen
  | cons m whole ih =>
    have hassoc : pre ++ ((m :: whole).flatten ++ tail) = pre ++ (m ++ (whole.flatten ++ tail)) := by
      rw [List.flatten_cons, List.append_assoc]
    rw [hassoc] at hlen ⊢
    rw [processHepsFrom_message _ _ (hwhole m List.mem_cons_self),
      ih (fun x hx => hwhole x (List.mem_cons_of_mem _ hx)) (pre ++ m) (by rwa [List.append_assoc])]
    rw [List.flatten_cons, List.length_append, List.length_append]
    simp only [Option.map_some, Nat.add_assoc]

structure Arrived (byte : α → UInt8) (data : List α) (whole rest : List (List α)) (tail : List α) :
    Prop where
  whole_ok : ∀ m ∈ whole, MessageOk byte m
  rest_ok : ∀ m ∈ rest, MessageOk byte m
  beginning : Beginning tail rest
  data_eq : data = whole.flatten ++ tail

variable {data tail : List α} {whole rest : List (List α)}

lemma Arrived.processHeps (h : Arrived byte data whole rest tail) (hlen : 6 ≤ data.length) :
    processHeps byte data = some (whole, whole.flatten.length) := by
  have hloop := processHepsFrom_eq h.rest_ok h.beginning whole h.whole_ok []
    (by rwa [List.nil_append, ← h.data_eq])
  rwa [List.nil_append, List.length_nil, Nat.zero_add, ← h.data_eq] at hloop

lemma Arrived.isBeginHep (h : Arrived byte data whole rest tail) (hlen : 4 ≤ data.length) :
    isBeginHep byte data = true := by
  have hdata := h.data_eq
  cases whole with
  | cons m whole =>
    refine (h.whole_ok m List.mem_cons_self).isBeginHep hlen (Or.inr ?_)
    rw [hdata, List.flatten_cons, List.append_assoc]
    exact List.prefix_append _ _
  | nil =>
    rw [List.flatten_nil, List.nil_append] at hdata
    rcases h.beginning with rfl | ⟨m, ms, rfl, hpre, -⟩
    · rw [hdata, List.length_nil] at hlen
      omega
    · exact (h.rest_ok m List.mem_cons_self).isBeginHep hlen (Or.inl (hdata ▸ hpre))

lemma Arrived.isCompleteHep (h : Arrived byte data whole rest tail) (hlen : 6 ≤ data.length) :
    isCompleteHep byte data = decide (whole ≠ []) := by
  have hdata := h.data_eq
  unfold Hep.isCompleteHep
  rw [h.isBeginHep (by omega), Bool.true_and, decide_eq_decide]
  cases whole with
  | cons m whole =>
    have hpre : m <+: data := by
      rw [hdata, List.flatten_cons, List.append_assoc]
      exact List.prefix_append _ _
    rw [(h.whole_ok m List.mem_cons_self).hepLength hlen (Or.inr hpre)]
    simpa using hpre.length_le
  | nil =>
    rw [List.flatten_nil, List.nil_append] at hdata
    rcases h.beginning with rfl | ⟨m, ms, rfl, hpre, hlt⟩
    · rw [hdata, List.length_nil] at hlen
      omega
    · rw [(h.rest_ok m List.mem_cons_self).hepLength hlen (Or.inl (hdata ▸ hpre)), hdata]
      simpa using hlt

lemma Arrived.whole_eq_nil (h : Arrived byte data whole rest tail) (hlen : data.length < 7) :
    whole = [] ∧ data = tail := by
  have hdata := h.data_eq
  cases whole with
  | nil => exact ⟨rfl, by rwa [List.flatten_nil, List.nil_append] at hdata⟩
  | cons m whole =>
    have hsize := (h.whole_ok m List.mem_cons_self).size
    rw [hdata, List.flatten_cons, List.length_append, List.length_append] at hlen
    omega

lemma Arrived.limitBuffer_tail (h : Arrived byte data whole rest tail) : limitBuffer tail = tail := by
  have hlt : tail.length < 65536 := by
    rcases h.beginning with rfl | ⟨m, ms, rfl, -, hlt⟩
    · exact Nat.zero_lt_succ _
    · have hm := (h.rest_ok m List.mem_cons_self).lt
      omega
  unfold limitBuffer
  rw [if_neg (by omega)]

lemma processHeps_short (hbegin : isBeginHep byte data = true) (hlen : data.length < 6) :
    processHeps byte data = none := by
  have hlength : hepLength byte data = 0 := if_neg (by omega)
  have hagain : Again data.length 0 := Or.inl hlen
  rw [processHeps, processHepsFrom, if_pos hagain]
  dsimp only
  rw [List.drop_zero, hbegin, hlength, if_neg (by simp), if_neg (by omega), if_pos rfl]

lemma isCompleteHep_short (hbegin : isBeginHep byte data = true) (hlen : data.length < 6) :
    isCompleteHep byte data = true := by
  have hlength : hepLength byte data = 0 := if_neg (by omega)
  unfold isCompleteHep
  rw [hbegin, hlength]
  simp

lemma isBeginHep_short (hlen : data.length < 4) : isBeginHep byte data = false := by
  unfold isBeginHep
  rw [decide_eq_false (by omega), Bool.false_and]

/-! ## What a read does -/

/-- A read of `d` with the bytes `pending` in front of it, which together complete `n` bytes of
messages. -/
def Good (byte : α → UInt8) (pending d : List α) (n : Nat) : Prop :=
  if pending = [] then 6 ≤ d.length
  else isBeginHep byte d = false ∧ (pending ++ d).length ≠ 4 ∧ (pending ++ d).length ≠ 5 ∧
    (n = 0 ∨ n = (pending ++ d).length ∨ n < d.length)

lemma drop_whole (h : Arrived byte data whole rest tail) : data.drop whole.flatten.length = tail := by
  rw [h.data_eq, List.drop_left' rfl]

lemma Arrived.length_eq (h : Arrived byte data whole rest tail) :
    data.length = whole.flatten.length + tail.length := by
  rw [h.data_eq, List.length_append]

lemma Arrived.flatten_length_pos (h : Arrived byte data whole rest tail) (hne : whole ≠ []) :
    0 < whole.flatten.length := by
  obtain ⟨m, whole, rfl⟩ := List.exists_cons_of_ne_nil hne
  have hsize := (h.whole_ok m List.mem_cons_self).size
  rw [List.flatten_cons, List.length_append]
  omega

lemma processData_begin {hepBuffer d : List α} (h : Arrived byte d whole rest tail)
    (hlen : 6 ≤ d.length) : processData byte hepBuffer d = some (whole, tail) := by
  have hlength := h.length_eq
  have hdrop := drop_whole h
  unfold processData
  rw [if_pos (h.isBeginHep (by omega)), h.isCompleteHep hlen]
  by_cases hwhole : whole = []
  · rw [if_neg (by simpa using hwhole), ← hdrop, hwhole]
    rfl
  · rw [if_pos (by simpa using hwhole), h.processHeps hlen, Option.map_some]
    dsimp only
    split
    · rw [hdrop]
    · have htail : tail = [] := List.eq_nil_of_length_eq_zero (by omega)
      rw [htail]

lemma processData_extend {hepBuffer d : List α} (hne : hepBuffer ≠ []) (hd : isBeginHep byte d = false)
    (h : Arrived byte (hepBuffer ++ d) whole rest tail) (hlen : 6 ≤ (hepBuffer ++ d).length) :
    processData byte hepBuffer d = some (whole, limitBuffer
      (if whole.flatten.length = 0 ∨ whole.flatten.length = (hepBuffer ++ d).length ∨
        whole.flatten.length < d.length then tail else hepBuffer ++ d)) := by
  have hlength := h.length_eq
  have hdrop := drop_whole h
  unfold processData
  rw [hd, if_neg Bool.false_ne_true, if_pos hne]
  dsimp only
  rw [h.isCompleteHep hlen]
  by_cases hwhole : whole = []
  · rw [if_neg (by simpa using hwhole)]
    rw [hwhole, List.flatten_nil, List.length_nil, List.drop_zero] at hdrop
    rw [hwhole, List.flatten_nil, List.length_nil, if_pos (Or.inl rfl), hdrop]
  · have hpos := h.flatten_length_pos hwhole
    rw [if_pos (by simpa using hwhole), h.processHeps hlen, Option.map_some]
    congr 3
    split
    · rename_i hall
      rw [if_pos (Or.inr (Or.inl hall))]
      exact (List.eq_nil_of_length_eq_zero (by omega)).symm
    · rename_i hall
      split
      · rename_i hlt
        rw [if_pos (Or.inr (Or.inr hlt)), hdrop]
      · rename_i hlt
        rw [if_neg (by omega)]

lemma processData_good {pending d : List α} (h : Arrived byte (pending ++ d) whole rest tail)
    (hgood : Good byte pending d whole.flatten.length) :
    processData byte pending d = some (whole, tail) := by
  unfold Good at hgood
  split at hgood
  · rename_i hpending
    subst hpending
    exact processData_begin h hgood
  · rename_i hpending
    obtain ⟨hd, hfour, hfive, hn⟩ := hgood
    by_cases hlen : 6 ≤ (pending ++ d).length
    · rw [processData_extend hpending hd h hlen, if_pos hn, h.limitBuffer_tail]
    · -- less than 4 bytes of a message wait for more
      obtain ⟨hwhole, htail⟩ := h.whole_eq_nil (by omega)
      have hbegin : isBeginHep byte (pending ++ d) = false := isBeginHep_short (by omega)
      have hcomplete : isCompleteHep byte (pending ++ d) = false := by
        unfold isCompleteHep
        rw [hbegin, Bool.false_and]
      unfold processData
      rw [hd, if_neg Bool.false_ne_true, if_pos hpending]
      dsimp only
      rw [hcomplete, if_neg Bool.false_ne_true, htail, h.limitBuffer_tail, hwhole]

/-! ## Bytes that are lost or kept -/

lemma processHepsFrom_subset {processed processed' : Nat} {heps : List (List α)}
    (h : processHepsFrom byte data processed = some (heps, processed')) : heps.flatten ⊆ data := by
  fun_induction processHepsFrom byte data processed generalizing heps processed' with
  | case1 => cases h; simp
  | case2 => cases h; simp
  | case3 => cases h
  | case4 processed hagain rest' hbegin hle hpos =>
    rename_i ih
    obtain ⟨⟨heps', p⟩, hrest, heq⟩ := Option.map_eq_some_iff.mp h
    obtain ⟨rfl, rfl⟩ := Prod.mk.inj heq
    rw [List.flatten_cons, List.append_subset]
    exact ⟨List.Subset.trans (List.take_subset _ _) (List.drop_subset _ _), ih hrest⟩
  | case5 => cases h; simp

lemma processData_subset_begin {hepBuffer d buffer : List α} {heps : List (List α)}
    (hd : isBeginHep byte d = true) (h : processData byte hepBuffer d = some (heps, buffer)) :
    heps.flatten ⊆ d ∧ buffer ⊆ d := by
  unfold processData at h
  rw [if_pos hd] at h
  split at h
  · obtain ⟨⟨heps', p⟩, hheps, heq⟩ := Option.map_eq_some_iff.mp h
    obtain ⟨rfl, rfl⟩ := Prod.mk.inj heq
    refine ⟨processHepsFrom_subset hheps, ?_⟩
    split
    · exact List.drop_subset _ _
    · exact List.nil_subset _
  · cases h
    exact ⟨List.nil_subset _, List.Subset.refl _⟩

lemma limitBuffer_subset (buffer : List α) : limitBuffer buffer ⊆ buffer := by
  unfold limitBuffer
  split
  · exact List.nil_subset _
  · exact List.Subset.refl _

lemma processData_subset {hepBuffer d buffer : List α} {heps : List (List α)}
    (h : processData byte hepBuffer d = some (heps, buffer)) :
    heps.flatten ⊆ hepBuffer ++ d ∧ buffer ⊆ hepBuffer ++ d := by
  cases hd : isBeginHep byte d with
  | true =>
    obtain ⟨hheps, hbuffer⟩ := processData_subset_begin hd h
    exact ⟨List.subset_append_of_subset_right _ hheps, List.subset_append_of_subset_right _ hbuffer⟩
  | false =>
    unfold processData at h
    rw [hd, if_neg Bool.false_ne_true] at h
    split at h
    · dsimp only at h
      split at h
      · obtain ⟨⟨heps', p⟩, hheps, heq⟩ := Option.map_eq_some_iff.mp h
        obtain ⟨rfl, rfl⟩ := Prod.mk.inj heq
        refine ⟨processHepsFrom_subset hheps, List.Subset.trans (limitBuffer_subset _) ?_⟩
        split
        · exact List.nil_subset _
        · split
          · exact List.drop_subset _ _
          · exact List.Subset.refl _
      · cases h
        exact ⟨List.nil_subset _, limitBuffer_subset _⟩
    · cases h
      exact ⟨List.nil_subset _, List.subset_append_left _ _⟩

lemma not_mem_of_lost {x : α} {hepBuffer : List α} {reads : List (List α)} {heps : List (List α)}
    (h : processReads byte hepBuffer reads = some heps) (hbuffer : x ∉ hepBuffer)
    (hreads : x ∉ reads.flatten) : x ∉ heps.flatten := by
  induction reads generalizing hepBuffer heps with
  | nil =>
    cases h
    exact List.not_mem_nil
  | cons d reads ih =>
    rw [List.flatten_cons, List.mem_append, not_or] at hreads
    obtain ⟨⟨heps₁, buffer⟩, hdata, hrest⟩ := Option.bind_eq_some_iff.mp h
    obtain ⟨heps₂, hheps₂, rfl⟩ := Option.map_eq_some_iff.mp hrest
    obtain ⟨hsub, hsub'⟩ := processData_subset hdata
    have hnew : x ∉ hepBuffer ++ d := by
      rw [List.mem_append, not_or]
      exact ⟨hbuffer, hreads.1⟩
    rw [List.flatten_append, List.mem_append, not_or]
    exact ⟨fun hx => hnew (hsub hx), ih hheps₂ (fun hx => hnew (hsub' hx)) hreads.2⟩

lemma processHeps_first {m more : List α} (hm : MessageOk byte m) {heps : List (List α)} {processed : Nat}
    (h : processHeps byte (m ++ more) = some (heps, processed)) : m ∈ heps := by
  have hstep := processHepsFrom_message [] more hm
  rw [List.nil_append, List.length_nil] at hstep
  rw [processHeps, hstep] at h
  obtain ⟨⟨heps', p⟩, -, heq⟩ := Option.map_eq_some_iff.mp h
  obtain ⟨rfl, -⟩ := Prod.mk.inj heq
  exact List.mem_cons_self

/-- What a read that is not good does: it does not return, or it loses a byte, or it keeps the
messages that it has processed. -/
lemma processData_bad {pending d : List α} (hne : d ≠ [])
    (h : Arrived byte (pending ++ d) whole rest tail) (hnodup : (pending ++ d).Nodup)
    (hbad : ¬Good byte pending d whole.flatten.length) {heps : List (List α)} {buffer : List α}
    (hdata : processData byte pending d = some (heps, buffer)) :
    (∃ x ∈ pending ++ d, x ∉ heps.flatten ∧ x ∉ buffer) ∨
      (whole ≠ [] ∧ tail ≠ [] ∧ heps = whole ∧ buffer = pending ++ d) := by
  have hlength := h.length_eq
  by_cases hpending : pending = []
  · subst hpending
    rw [Good, if_pos rfl] at hbad
    rw [List.nil_append] at h hlength
    by_cases hfour : 4 ≤ d.length
    · have hbegin := h.isBeginHep hfour
      unfold processData at hdata
      rw [if_pos hbegin, if_pos (isCompleteHep_short hbegin (by omega)),
        processHeps_short hbegin (by omega)] at hdata
      cases hdata
    · have hbegin : isBeginHep byte d = false := isBeginHep_short (by omega)
      unfold processData at hdata
      rw [hbegin, if_neg Bool.false_ne_true, if_neg (not_not.mpr rfl)] at hdata
      cases hdata
      obtain ⟨x, hx⟩ := List.exists_mem_of_ne_nil d hne
      exact Or.inl ⟨x, List.mem_append_right _ hx, List.not_mem_nil, List.not_mem_nil⟩
  · rw [Good, if_neg hpending] at hbad
    cases hd : isBeginHep byte d with
    | true =>
      obtain ⟨hheps, hbuffer⟩ := processData_subset_begin hd hdata
      obtain ⟨x, hx⟩ := List.exists_mem_of_ne_nil pending hpending
      have hx' : x ∉ d := fun hmem => List.disjoint_of_nodup_append hnodup hx hmem
      exact Or.inl ⟨x, List.mem_append_left _ hx, fun hmem => hx' (hheps hmem),
        fun hmem => hx' (hbuffer hmem)⟩
    | false =>
      by_cases hlen : 6 ≤ (pending ++ d).length
      · rw [processData_extend hpending hd h hlen] at hdata
        by_cases hn : whole.flatten.length = 0 ∨ whole.flatten.length = (pending ++ d).length ∨
            whole.flatten.length < d.length
        · exact absurd ⟨hd, by omega, by omega, hn⟩ hbad
        · rw [if_neg hn] at hdata
          obtain ⟨rfl, rfl⟩ := Prod.mk.inj (Option.some.inj hdata)
          have htail : tail ≠ [] := by
            rintro rfl
            exact hn (Or.inr (Or.inl (by simpa using hlength.symm)))
          unfold limitBuffer
          split
          · obtain ⟨x, hx⟩ := List.exists_mem_of_ne_nil tail htail
            rw [h.data_eq] at hnodup ⊢
            exact Or.inl ⟨x, List.mem_append_right _ hx,
              fun hmem => List.disjoint_of_nodup_append hnodup hmem hx, List.not_mem_nil⟩
          · refine Or.inr ⟨?_, htail, rfl, rfl⟩
            rintro rfl
            exact hn (Or.inl rfl)
      · have hfour : 4 ≤ (pending ++ d).length := by
          by_contra hshort
          obtain ⟨rfl, -⟩ := h.whole_eq_nil (by omega)
          exact hbad ⟨hd, by omega, by omega, Or.inl rfl⟩
        have hbegin := h.isBeginHep hfour
        unfold processData at hdata
        rw [hd, if_neg Bool.false_ne_true, if_pos hpending] at hdata
        rw [if_pos (isCompleteHep_short hbegin (by omega)), processHeps_short hbegin (by omega)] at hdata
        cases hdata

lemma processReads_stale {pending d : List α} {reads heps : List (List α)} (hwhole : whole ≠ [])
    (htail : tail ≠ []) (h : Arrived byte pending whole rest tail)
    (hnodup : (pending ++ (d :: reads).flatten).Nodup)
    (hreads : processReads byte pending (d :: reads) = some heps) :
    (∃ x ∈ tail, x ∉ heps.flatten) ∨ ∃ x ∈ whole.flatten, x ∈ heps.flatten := by
  obtain ⟨m, whole, rfl⟩ := List.exists_cons_of_ne_nil hwhole
  have hm := h.whole_ok m List.mem_cons_self
  obtain ⟨⟨heps₁, buffer⟩, hdata, hrest⟩ := Option.bind_eq_some_iff.mp hreads
  obtain ⟨heps₂, hheps₂, rfl⟩ := Option.map_eq_some_iff.mp hrest
  have hpending : pending ≠ [] := by
    rw [h.data_eq]
    exact List.append_ne_nil_of_right_ne_nil _ htail
  cases hd : isBeginHep byte d with
  | true =>
    obtain ⟨hheps, hbuffer⟩ := processData_subset_begin hd hdata
    obtain ⟨x, hx⟩ := List.exists_mem_of_ne_nil tail htail
    have hpend : x ∈ pending := by
      rw [h.data_eq]
      exact List.mem_append_right _ hx
    have hlater : x ∉ d ++ reads.flatten :=
      fun hmem => List.disjoint_of_nodup_append hnodup hpend hmem
    rw [List.mem_append, not_or] at hlater
    refine Or.inl ⟨x, hx, ?_⟩
    rw [List.flatten_append, List.mem_append, not_or]
    exact ⟨fun hmem => hlater.1 (hheps hmem),
      not_mem_of_lost hheps₂ (fun hmem => hlater.1 (hbuffer hmem)) hlater.2⟩
  | false =>
    have hsplit : pending ++ d = m ++ (whole.flatten ++ (tail ++ d)) := by
      rw [h.data_eq, List.flatten_cons, List.append_assoc, List.append_assoc]
    have hsize := hm.size
    have hlen : 6 ≤ (pending ++ d).length := by
      rw [hsplit, List.length_append]
      omega
    have hcomplete : isCompleteHep byte (pending ++ d) = true := by
      have hpre : m <+: pending ++ d := hsplit ▸ List.prefix_append _ _
      unfold isCompleteHep
      rw [hm.isBeginHep (by omega) (Or.inr hpre), hm.hepLength hlen (Or.inr hpre)]
      simpa using hpre.length_le
    unfold processData at hdata
    rw [hd, if_neg Bool.false_ne_true, if_pos hpending] at hdata
    dsimp only at hdata
    rw [if_pos hcomplete, hsplit] at hdata
    obtain ⟨⟨heps', p⟩, hheps, heq⟩ := Option.map_eq_some_iff.mp hdata
    obtain ⟨rfl, -⟩ := Prod.mk.inj heq
    obtain ⟨x, hx⟩ := List.exists_mem_of_length_pos (by omega : 0 < m.length)
    refine Or.inr ⟨x, ?_, ?_⟩
    · rw [List.flatten_cons]
      exact List.mem_append_left _ hx
    · rw [List.flatten_append]
      exact List.mem_append_left _ (List.mem_flatten_of_mem (processHeps_first hm hheps) hx)

/-! ## Reads by their positions in the stream -/

def lastEnd : List (List α) → Nat → Nat
  | [], _ => 0
  | m :: messages, s => if m.length ≤ s then m.length + lastEnd messages (s - m.length) else 0

/-- A read at the position `s` of the stream. At the end of a message it has 6 bytes. Within a
message it does not begin with `HEP3`, not 4 or 5 bytes of a message have arrived behind it, and the
messages that it completes are all that has arrived or are shorter than the read. -/
def ReadOk (byte : α → UInt8) (messages : List (List α)) (s : Nat) (d : List α) : Prop :=
  if lastEnd messages s = s then 6 ≤ d.length
  else isBeginHep byte d = false ∧ s + d.length - lastEnd messages s ≠ 4 ∧
    s + d.length - lastEnd messages s ≠ 5 ∧
    (lastEnd messages (s + d.length) = lastEnd messages s ∨
      lastEnd messages (s + d.length) = s + d.length ∨
      lastEnd messages (s + d.length) - lastEnd messages s < d.length)

instance (messages : List (List α)) (s : Nat) (d : List α) : Decidable (ReadOk byte messages s d) :=
  inferInstanceAs (Decidable (ite _ _ _))

/-- The reads from the position `s` on. -/
def ReadsOk (byte : α → UInt8) (messages : List (List α)) : Nat → List (List α) → Prop
  | _, [] => True
  | s, d :: reads => ReadOk byte messages s d ∧ ReadsOk byte messages (s + d.length) reads

lemma lastEnd_append (done messages : List (List α)) (k : Nat) :
    lastEnd (done ++ messages) (done.flatten.length + k) = done.flatten.length + lastEnd messages k := by
  induction done with
  | nil => simp
  | cons m done ih =>
    have hsub : m.length + done.flatten.length + k - m.length = done.flatten.length + k := by omega
    rw [List.cons_append, lastEnd, List.flatten_cons, List.length_append, if_pos (by omega), hsub, ih,
      Nat.add_assoc]

lemma lastEnd_beginning (hrest : ∀ m ∈ rest, MessageOk byte m) (h : Beginning tail rest) :
    lastEnd rest tail.length = 0 := by
  cases rest with
  | nil => rfl
  | cons m rest =>
    have hsize := (hrest m List.mem_cons_self).size
    rw [lastEnd, if_neg]
    rcases h with rfl | ⟨m', ms, heq, -, hlt⟩
    · rw [List.length_nil]
      omega
    · obtain ⟨rfl, -⟩ := List.cons.inj heq
      omega

lemma readOk_iff {done : List (List α)} {pending d : List α}
    (hok : ∀ m ∈ whole ++ rest, MessageOk byte m) (hpending : Beginning pending (whole ++ rest))
    (h : Arrived byte (pending ++ d) whole rest tail) :
    ReadOk byte (done ++ (whole ++ rest)) (done.flatten.length + pending.length) d ↔
      Good byte pending d whole.flatten.length := by
  have hlength := h.length_eq
  have hstart : lastEnd (done ++ (whole ++ rest)) (done.flatten.length + pending.length) =
      done.flatten.length := by
    rw [lastEnd_append, lastEnd_beginning hok hpending, Nat.add_zero]
  have hend : lastEnd (done ++ (whole ++ rest)) (done.flatten.length + pending.length + d.length) =
      done.flatten.length + whole.flatten.length := by
    rw [Nat.add_assoc, ← List.length_append, hlength, lastEnd_append, lastEnd_append,
      lastEnd_beginning h.rest_ok h.beginning, Nat.add_zero]
  have hempty : done.flatten.length = done.flatten.length + pending.length ↔ pending = [] := by
    rw [← List.length_eq_zero_iff]
    omega
  unfold ReadOk Good
  rw [hstart, hend, List.length_append]
  simp only [hempty]
  split
  · exact Iff.rfl
  · have harrived : done.flatten.length + pending.length + d.length - done.flatten.length =
        pending.length + d.length := by omega
    have hcompleted : done.flatten.length + whole.flatten.length - done.flatten.length =
        whole.flatten.length := by omega
    have hnone : done.flatten.length + whole.flatten.length = done.flatten.length ↔
        whole.flatten.length = 0 := by omega
    have hall : done.flatten.length + whole.flatten.length =
        done.flatten.length + pending.length + d.length ↔
          whole.flatten.length = pending.length + d.length := by omega
    rw [harrived, hcompleted, hnone, hall]

lemma processReads_eq_some_iff (done : List (List α)) {rest : List (List α)} (hok : ∀ m ∈ rest, MessageOk byte m)
    {pending : List α} (hpending : Beginning pending rest) {reads : List (List α)}
    (hne : ∀ d ∈ reads, d ≠ []) (hreads : pending ++ reads.flatten = rest.flatten)
    (hnodup : rest.flatten.Nodup) :
    processReads byte pending reads = some rest ↔
      ReadsOk byte (done ++ rest) (done.flatten.length + pending.length) reads := by
  induction reads generalizing done rest pending with
  | nil =>
    rw [List.flatten_nil, List.append_nil] at hreads
    rw [hreads] at hpending
    have hempty : rest = [] := hpending.eq_nil (fun m hm hnil => by
      have hsize := (hok m hm).size
      rw [hnil, List.length_nil] at hsize
      omega)
    rw [hempty]
    exact ⟨fun _ => trivial, fun _ => rfl⟩
  | cons d reads ih =>
    rw [List.flatten_cons, ← List.append_assoc] at hreads
    have hpre : pending ++ d <+: rest.flatten := ⟨_, hreads⟩
    obtain ⟨whole, rest', tail, rfl, hdata, htail⟩ := exists_beginning hpre
    have hrest' : ∀ m ∈ rest', MessageOk byte m := fun m hm => hok m (List.mem_append_right _ hm)
    have harrived : Arrived byte (pending ++ d) whole rest' tail :=
      ⟨fun m hm => hok m (List.mem_append_left _ hm), hrest', htail, hdata⟩
    have hleft : tail ++ reads.flatten = rest'.flatten := by
      rw [hdata, List.flatten_append, List.append_assoc] at hreads
      exact List.append_cancel_left hreads
    have hnodup' : (whole.flatten ++ rest'.flatten).Nodup := by
      rwa [← List.flatten_append]
    rw [ReadsOk, readOk_iff hok hpending harrived]
    by_cases hgood : Good byte pending d whole.flatten.length
    · -- the read processes what it completes and keeps the beginning of the next message
      have hposition : done.flatten.length + pending.length + d.length =
          (done ++ whole).flatten.length + tail.length := by
        have hlength := harrived.length_eq
        rw [List.length_append] at hlength
        rw [List.flatten_append, List.length_append]
        omega
      rw [processReads, processData_good harrived hgood, Option.bind_some, hposition,
        ← List.append_assoc, ← ih (done ++ whole) hrest' htail
          (fun x hx => hne x (List.mem_cons_of_mem _ hx)) hleft hnodup'.of_append_right]
      rw [Option.map_eq_some_iff]
      constructor
      · rintro ⟨heps, hheps, heq⟩
        exact ⟨hgood, by rwa [List.append_cancel_left heq] at hheps⟩
      · rintro ⟨-, hheps⟩
        exact ⟨rest', hheps, rfl⟩
    · refine iff_of_false (fun hprocessed => ?_) (fun hgood' => hgood hgood'.1)
      rw [← hreads] at hnodup
      obtain ⟨⟨heps, buffer⟩, hread, hlater⟩ := Option.bind_eq_some_iff.mp hprocessed
      obtain ⟨heps', hheps', heq⟩ := Option.map_eq_some_iff.mp hlater
      rcases processData_bad (hne d List.mem_cons_self) harrived hnodup.of_append_left hgood hread with
        ⟨x, hx, hheps, hbuffer⟩ | ⟨hwhole, htail', rfl, rfl⟩
      · -- the byte is in the stream, but it is lost
        have hlost := not_mem_of_lost hheps' hbuffer
          (fun hmem => List.disjoint_of_nodup_append hnodup hx hmem)
        have hmem : x ∈ (heps ++ heps').flatten := by
          rw [heq, ← hreads]
          exact List.mem_append_left _ hx
        rw [List.flatten_append, List.mem_append] at hmem
        exact hmem.elim hheps hlost
      · have heps_eq : heps' = rest' := List.append_cancel_left heq
        subst heps_eq
        cases reads with
        | nil =>
          rw [List.flatten_nil, List.append_nil] at hleft
          have hempty : heps' = [] := by
            cases hheps'
            rfl
          rw [hempty] at hleft
          exact htail' hleft
        | cons d' reads =>
          rcases processReads_stale hwhole htail' harrived hnodup hheps' with ⟨x, hx, hlost⟩ | ⟨x, hx, hagain⟩
          · refine hlost ?_
            rw [← hleft]
            exact List.mem_append_left _ hx
          · exact List.disjoint_of_nodup_append hnodup' hx hagain

/-! ## The bytes of a connection -/

def numbered : Nat → List Bytes → List (List (UInt8 × Nat))
  | _, [] => []
  | n, m :: messages => m.zipIdx n :: numbered (n + m.length) messages

lemma flatten_numbered (n : Nat) (messages : List Bytes) :
    (numbered n messages).flatten = messages.flatten.zipIdx n := by
  induction messages generalizing n with
  | nil => rfl
  | cons m messages ih =>
    rw [numbered, List.flatten_cons, ih, List.flatten_cons, List.zipIdx_append]

lemma nodup_zipIdx (b : Bytes) (n : Nat) : (b.zipIdx n).Nodup := by
  apply List.Nodup.of_map Prod.snd
  rw [List.zipIdx_map_snd]
  exact List.nodup_range'

lemma messageOk_zipIdx {m : Bytes} (h : MessageOk id m) (n : Nat) : MessageOk Prod.fst (m.zipIdx n) := by
  have hfst : (m.zipIdx n).map Prod.fst = m := List.zipIdx_map_fst _ _
  refine ⟨?_, ?_, ?_, ?_⟩
  · rw [List.map_take, hfst]
    simpa using h.begins
  · rw [hfst, List.length_zipIdx]
    simpa using h.length
  · rw [List.length_zipIdx]
    exact h.size
  · rw [List.map_drop, hfst]
    simpa using h.payload

lemma messageOk_numbered {messages : List Bytes} (h : ∀ m ∈ messages, MessageOk id m) (n : Nat) :
    ∀ m ∈ numbered n messages, MessageOk Prod.fst m := by
  induction messages generalizing n with
  | nil => exact nofun
  | cons m messages ih =>
    intro x hx
    rcases List.mem_cons.mp hx with rfl | hx
    · exact messageOk_zipIdx (h m List.mem_cons_self) n
    · exact ih (fun y hy => h y (List.mem_cons_of_mem _ hy)) _ x hx

/-- For every list of messages and every cut of the stream into reads, `processHep` gets each
message once and in order exactly when every read is one that `processData` handles. The bytes
have their positions with them, so that a message and its repetition are not the same. -/
theorem processReads_eq_iff (messages : List Bytes) (hok : ∀ m ∈ messages, MessageOk id m)
    (reads : List (List (UInt8 × Nat))) (hne : ∀ d ∈ reads, d ≠ [])
    (hreads : reads.flatten = messages.flatten.zipIdx) :
    processReads Prod.fst [] reads = some (numbered 0 messages) ↔
      ReadsOk Prod.fst (numbered 0 messages) 0 reads := by
  have hflatten := flatten_numbered 0 messages
  exact processReads_eq_some_iff [] (messageOk_numbered hok 0) (beginning_nil _) hne
    (by rw [List.nil_append, hreads, hflatten]) (by rw [hflatten]; exact nodup_zipIdx _ _)

def exampleMessages : List Bytes :=
  [[0x48, 0x45, 0x50, 0x33, 0, 8, 1, 2], [0x48, 0x45, 0x50, 0x33, 0, 7, 3]]

lemma exampleMessages_ok : ∀ m ∈ exampleMessages, MessageOk id m := by
  intro m hm
  simp only [exampleMessages, List.mem_cons, List.not_mem_nil, or_false] at hm
  rcases hm with rfl | rfl
  · exact ⟨by decide, by decide, by decide, by decide⟩
  · exact ⟨by decide, by decide, by decide, by decide⟩

theorem processReads_eq_example : processReads Prod.fst []
    [(exampleMessages.flatten.zipIdx).take 9, (exampleMessages.flatten.zipIdx).drop 9] =
      some (numbered 0 exampleMessages) := by
  refine (processReads_eq_iff exampleMessages exampleMessages_ok _ ?_ (by decide)).mpr ?_
  · intro d hd
    simp only [List.mem_cons, List.not_mem_nil, or_false] at hd
    rcases hd with rfl | rfl
    · decide
    · decide
  · exact ⟨by decide, by decide, trivial⟩

/-- A read of 3 bytes at the beginning of a message: nothing is processed. -/
theorem processReads_lost : ¬∀ messages : List Bytes, (∀ m ∈ messages, MessageOk id m) →
    ∀ reads : List (List (UInt8 × Nat)), (∀ d ∈ reads, d ≠ []) →
      reads.flatten = messages.flatten.zipIdx →
      processReads Prod.fst [] reads = some (numbered 0 messages) := by
  intro hall
  have hbad := hall exampleMessages exampleMessages_ok
    [(exampleMessages.flatten.zipIdx).take 3, (exampleMessages.flatten.zipIdx).drop 3] ?_ (by decide)
  · exact absurd hbad (by decide)
  · intro d hd
    simp only [List.mem_cons, List.not_mem_nil, or_false] at hd
    rcases hd with rfl | rfl
    · decide
    · decide

end VoipMonitor.Hep
