import VoipMonitor.Proofs.AddressSearch

/-!
# Searches between additions

A search sorts the lists and sets their flags, which nothing resets. Extra searches change no
other answer as long as what is added to a list that counts as sorted belongs to its end.
-/

namespace VoipMonitor.AddressLists
open VoipMonitor.Library VoipMonitor.CallsHash

section Runs
variable {σ ω : Type} {step : σ → ω → σ × Option Bool} {ok : σ → ω → Prop} {extra : ω → Prop}

/-- Every operation meets the condition in the state before it. -/
def AllSteps (step : σ → ω → σ × Option Bool) (ok : σ → ω → Prop) : σ → List ω → Prop
  | _, [] => True
  | s, op :: ops => ok s op ∧ AllSteps step ok (step s op).1 ops

/-- A run with extra operations and the run without them give the same answers, when a relation
of their states is kept by a common operation, with the same answer, and by an extra one. -/
theorem answers_eq {R : σ → σ → Prop}
    (hcommon : ∀ s t op, R s t → ok s op →
      R (step s op).1 (step t op).1 ∧ (step s op).2 = (step t op).2)
    (hextra : ∀ s t op, R s t → extra op → R (step s op).1 t)
    (ops : List (Bool × ω)) (hops : ∀ p ∈ ops, p.1 = true → extra p.2) {s t : σ} (hR : R s t)
    (hok : AllSteps step ok s (ops.map Prod.snd)) :
    answers step s ops = answers step t (ops.filter (fun p => !p.1)) := by
  induction ops generalizing s t with
  | nil => rfl
  | cons p ops ih =>
    obtain ⟨hp, hrest⟩ := List.forall_mem_cons.mp hops
    obtain ⟨isExtra, op⟩ := p
    cases isExtra with
    | true =>
      rw [List.filter_cons_of_neg (by simp)]
      exact ih hrest (hextra s t op hR (hp rfl)) hok.2
    | false =>
      obtain ⟨hR', hanswer⟩ := hcommon s t op hR hok.1
      rw [List.filter_cons_of_pos (by simp)]
      rw [answers, answers, ih hrest hR' hok.2, hanswer]

end Runs

/-! ## Addresses -/

def ListIPOp.IsCheck : ListIPOp → Prop
  | .check _ => True
  | _ => False

/-- An entry has a prefix length of its address and comes at the end of a list that counts as
sorted. -/
def ListIP.Fits (s : ListIP) : ListIPOp → Prop
  | .add e => e.Valid ∧
      if e.isNet then s.listNet.Fits IP.sortKey e else s.listIP.Fits IP.sortKey e
  | _ => True

/-- Two lists with the same entries, the second of which was not searched more often. -/
structure ListIP.Follows (s t : ListIP) : Prop where
  okLeft : s.Ok
  okRight : t.Ok
  hosts : LazySorted.Follows IP.sortKey s.listIP t.listIP
  nets : LazySorted.Follows IP.sortKey s.listNet t.listNet

section ListIP
variable {s t : ListIP} (sort : Sorter IP.sortKey)

lemma ListIP.Ok.add {e : IP} (h : s.Ok) (hv : e.Valid)
    (hfits : if e.isNet then s.listNet.Fits IP.sortKey e else s.listIP.Fits IP.sortKey e) :
    (s.add e).Ok := by
  unfold ListIP.add
  split
  · rename_i hnet
    rw [if_pos hnet] at hfits
    refine ⟨h.hosts, ?_, h.honestIP, h.honestNet.push hfits⟩
    exact List.forall_mem_append.mpr ⟨h.nets, by simpa using ⟨hv, hnet⟩⟩
  · rename_i hnet
    rw [if_neg hnet] at hfits
    refine ⟨?_, h.nets, h.honestIP.push hfits, h.honestNet⟩
    exact List.forall_mem_append.mpr ⟨h.hosts, by simpa using ⟨hv, by simpa using hnet⟩⟩

lemma ListIP.Ok.clear : s.clear.Ok := ⟨nofun, nofun, LazySorted.Honest.clear, LazySorted.Honest.clear⟩

lemma ListIP.Ok.prepare (h : s.Ok) {listIP listNet : LazySorted IP}
    (hip : listIP = s.listIP ∨ listIP = s.listIP.prepare sort.sort)
    (hnet : listNet = s.listNet ∨ listNet = s.listNet.prepare sort.sort) :
    ListIP.Ok ⟨listIP, listNet⟩ := by
  have hperm := LazySorted.perm_prepare sort s.listIP
  have hperm' := LazySorted.perm_prepare sort s.listNet
  constructor
  · rcases hip with rfl | rfl
    · exact h.hosts
    · exact fun e he => h.hosts e (hperm.mem_iff.mp he)
  · rcases hnet with rfl | rfl
    · exact h.nets
    · exact fun e he => h.nets e (hperm'.mem_iff.mp he)
  · rcases hip with rfl | rfl
    · exact h.honestIP
    · exact h.honestIP.prepare sort
  · rcases hnet with rfl | rfl
    · exact h.honestNet
    · exact h.honestNet.prepare sort

lemma ListIP.Follows.answer (h : s.Follows t) (a : VmIP) :
    (s.checkIP sort.sort a).2 = (t.checkIP sort.sort a).2 := by
  rw [Bool.eq_iff_iff, h.okLeft.checkIP_iff, h.okRight.checkIP_iff,
    Reached.congr (fun e => h.nets.perm.mem_iff)]
  simp only [h.hosts.perm.mem_iff]

lemma ListIP.checkIP_state (s : ListIP) (a : VmIP) :
    (s.checkIP sort.sort a).1 = ⟨s.listIP.prepare sort.sort,
      if searchIP (s.listIP.prepare sort.sort).items a then s.listNet
      else s.listNet.prepare sort.sort⟩ := by
  unfold ListIP.checkIP
  dsimp only
  split
  · rfl
  · rfl

lemma ListIP.Ok.checkIP (h : s.Ok) (a : VmIP) : (s.checkIP sort.sort a).1.Ok := by
  rw [ListIP.checkIP_state]
  refine h.prepare sort (Or.inr rfl) ?_
  split
  · exact Or.inl rfl
  · exact Or.inr rfl

lemma ListIP.Follows.checkIP_left (h : s.Follows t) (a : VmIP) :
    (s.checkIP sort.sort a).1.Follows t := by
  refine ⟨h.okLeft.checkIP sort a, h.okRight, ?_, ?_⟩
  · rw [ListIP.checkIP_state]
    exact h.hosts.prepare_left sort
  · rw [ListIP.checkIP_state]
    split
    · exact h.nets
    · exact h.nets.prepare_left sort

lemma ListIP.Follows.checkIP (h : s.Follows t) (a : VmIP) :
    (s.checkIP sort.sort a).1.Follows (t.checkIP sort.sort a).1 := by
  have hsearch : searchIP (s.listIP.prepare sort.sort).items a =
      searchIP (t.listIP.prepare sort.sort).items a := by
    have hs := LazySorted.perm_prepare sort s.listIP
    have ht := LazySorted.perm_prepare sort t.listIP
    rw [Bool.eq_iff_iff,
      searchIP_iff (h.okLeft.honestIP.sorted_prepare sort)
        (fun e he => h.okLeft.hosts e (hs.mem_iff.mp he)),
      searchIP_iff (h.okRight.honestIP.sorted_prepare sort)
        (fun e he => h.okRight.hosts e (ht.mem_iff.mp he))]
    simp only [hs.mem_iff, ht.mem_iff, h.hosts.perm.mem_iff]
  refine ⟨h.okLeft.checkIP sort a, h.okRight.checkIP sort a, ?_, ?_⟩
  · rw [ListIP.checkIP_state, ListIP.checkIP_state]
    exact h.hosts.prepare sort
  · rw [ListIP.checkIP_state, ListIP.checkIP_state, hsearch]
    split
    · exact h.nets
    · exact h.nets.prepare sort

lemma ListIP.Follows.add {e : IP} (h : s.Follows t) (hfits : s.Fits (.add e)) :
    (s.add e).Follows (t.add e) := by
  obtain ⟨hv, hfits⟩ := hfits
  have hright : if e.isNet then t.listNet.Fits IP.sortKey e else t.listIP.Fits IP.sortKey e := by
    split at hfits
    · rename_i hnet
      rw [if_pos hnet]
      exact fun hs b hb => hfits (h.nets.sorted hs) b (h.nets.perm.mem_iff.mpr hb)
    · rename_i hnet
      rw [if_neg hnet]
      exact fun hs b hb => hfits (h.hosts.sorted hs) b (h.hosts.perm.mem_iff.mpr hb)
  refine ⟨h.okLeft.add hv hfits, h.okRight.add hv hright, ?_, ?_⟩
  · unfold ListIP.add
    split
    · exact h.hosts
    · rename_i hnet
      rw [if_neg hnet] at hfits
      exact h.hosts.push hfits
  · unfold ListIP.add
    split
    · rename_i hnet
      rw [if_pos hnet] at hfits
      exact h.nets.push hfits
    · exact h.nets

lemma ListIP.Follows.step (h : s.Follows t) (op : ListIPOp) (hfits : s.Fits op) :
    (s.step sort.sort op).1.Follows (t.step sort.sort op).1 ∧
      (s.step sort.sort op).2 = (t.step sort.sort op).2 := by
  cases op with
  | add e => exact ⟨h.add hfits, rfl⟩
  | clear => exact ⟨⟨ListIP.Ok.clear, ListIP.Ok.clear, h.hosts.clear, h.nets.clear⟩, rfl⟩
  | check a => exact ⟨h.checkIP sort a, congrArg some (h.answer sort a)⟩

lemma ListIP.follows_empty : ListIP.Follows {} {} :=
  ⟨⟨nofun, nofun, nofun, nofun⟩, ⟨nofun, nofun, nofun, nofun⟩, LazySorted.Follows.refl_empty,
    LazySorted.Follows.refl_empty⟩

end ListIP

/-! ## Phone numbers -/

def ListPhoneNumberOp.IsCheck : ListPhoneNumberOp → Prop
  | .check _ => True
  | _ => False

/-- A number comes at the end of a list that counts as sorted. -/
def ListPhoneNumber.Fits (s : ListPhoneNumber) : ListPhoneNumberOp → Prop
  | .add number isPrefix => Plain number →
      if isPrefix then s.listPrefixes.Fits PhoneNumber.sortKey (PhoneNumber.ofNumber number true)
      else s.listPhoneNumber.Fits PhoneNumber.sortKey (PhoneNumber.ofNumber number false)
  | _ => True

structure ListPhoneNumber.Follows (s t : ListPhoneNumber) : Prop where
  okLeft : s.Ok
  okRight : t.Ok
  numbers : LazySorted.Follows PhoneNumber.sortKey s.listPhoneNumber t.listPhoneNumber
  prefixes : LazySorted.Follows PhoneNumber.sortKey s.listPrefixes t.listPrefixes
  regExps : s.listRegExp = t.listRegExp

section ListPhoneNumber
variable {s t : ListPhoneNumber} (r : Regexps) (sort : Sorter PhoneNumber.sortKey)

lemma Numbers.push {isPrefix : Bool} {x : LazySorted PhoneNumber} (h : Numbers isPrefix x.items)
    {number : Bytes} (hplain : Plain number) :
    Numbers isPrefix (x.push (PhoneNumber.ofNumber number isPrefix)).items := by
  have hm := percent_not_mem hplain.2
  refine List.forall_mem_append.mpr ⟨h, ?_⟩
  intro p hp
  obtain rfl := List.mem_singleton.mp hp
  rw [ofNumber_eq hm]
  exact ⟨hm, (ofNumber_eq hm isPrefix).symm⟩

lemma Numbers.perm {isPrefix : Bool} {l l' : List PhoneNumber} (h : Numbers isPrefix l)
    (hperm : l'.Perm l) : Numbers isPrefix l' := fun p hp => h p (hperm.mem_iff.mp hp)

lemma ListPhoneNumber.add_cases (number : Bytes) (isPrefix : Bool) :
    (∃ patterns, ∀ s : ListPhoneNumber,
      s.add r number isPrefix = { s with listRegExp := s.listRegExp ++ patterns }) ∨
    Plain number ∧ isPrefix = true ∧ (∀ s : ListPhoneNumber, s.add r number isPrefix =
      { s with listPrefixes := s.listPrefixes.push (PhoneNumber.ofNumber number true) }) ∨
    Plain number ∧ isPrefix = false ∧ ∀ s : ListPhoneNumber, s.add r number isPrefix =
      { s with listPhoneNumber := s.listPhoneNumber.push (PhoneNumber.ofNumber number false) } := by
  unfold ListPhoneNumber.add
  cases hregexp : isRegexpText number with
  | true =>
    left
    by_cases hcheck : r.checkRegexp number = true
    · exact ⟨[(number.drop 2).dropLast], fun s => by simp [hcheck]⟩
    · exact ⟨[], fun s => by simp [hcheck]⟩
  | false =>
    cases hwild : hasWildcard number with
    | true =>
      left
      by_cases hcheck : r.checkRegexp (number2Regex number) = true
      · exact ⟨[number2Regex number], fun s => by simp [hcheck]⟩
      · exact ⟨[], fun s => by simp [hcheck]⟩
    | false =>
      right
      cases isPrefix with
      | true => exact Or.inl ⟨⟨hregexp, hwild⟩, rfl, fun s => by simp⟩
      | false => exact Or.inr ⟨⟨hregexp, hwild⟩, rfl, fun s => by simp⟩

lemma ListPhoneNumber.Follows.add {number : Bytes} {isPrefix : Bool} (h : s.Follows t)
    (hfits : s.Fits (.add number isPrefix)) :
    (s.add r number isPrefix).Follows (t.add r number isPrefix) := by
  rcases ListPhoneNumber.add_cases r number isPrefix with
    ⟨patterns, hadd⟩ | ⟨hplain, rfl, hadd⟩ | ⟨hplain, rfl, hadd⟩
  · rw [hadd, hadd]
    exact ⟨⟨h.okLeft.numbers, h.okLeft.prefixes, h.okLeft.honestNumbers, h.okLeft.honestPrefixes⟩,
      ⟨h.okRight.numbers, h.okRight.prefixes, h.okRight.honestNumbers, h.okRight.honestPrefixes⟩,
      h.numbers, h.prefixes, congrArg (· ++ patterns) h.regExps⟩
  · rw [hadd, hadd]
    have hpush := h.prefixes.push (hfits hplain)
    exact ⟨⟨h.okLeft.numbers, h.okLeft.prefixes.push hplain, h.okLeft.honestNumbers, hpush.left⟩,
      ⟨h.okRight.numbers, h.okRight.prefixes.push hplain, h.okRight.honestNumbers, hpush.right⟩,
      h.numbers, hpush, h.regExps⟩
  · rw [hadd, hadd]
    have hpush := h.numbers.push (hfits hplain)
    exact ⟨⟨h.okLeft.numbers.push hplain, h.okLeft.prefixes, hpush.left, h.okLeft.honestPrefixes⟩,
      ⟨h.okRight.numbers.push hplain, h.okRight.prefixes, hpush.right, h.okRight.honestPrefixes⟩,
      hpush, h.prefixes, h.regExps⟩

lemma ListPhoneNumber.Follows.answer (h : s.Follows t) (n : Bytes) :
    (s.checkNumber r sort.sort n).2 = (t.checkNumber r sort.sort n).2 := by
  rw [Bool.eq_iff_iff, h.okLeft.checkNumber_iff, h.okRight.checkNumber_iff,
    Adjacent.congr (fun p => h.prefixes.perm.mem_iff), h.regExps]
  simp only [h.numbers.perm.mem_iff]

lemma ListPhoneNumber.checkNumber_state (s : ListPhoneNumber) (n : Bytes) :
    (s.checkNumber r sort.sort n).1 = ⟨s.listPhoneNumber.prepare sort.sort,
      if searchNumber (s.listPhoneNumber.prepare sort.sort).items n then s.listPrefixes
      else s.listPrefixes.prepare sort.sort, s.listRegExp⟩ := by
  unfold ListPhoneNumber.checkNumber
  dsimp only
  split
  · rfl
  · split
    · rfl
    · rfl

lemma ListPhoneNumber.Ok.checkNumber (h : s.Ok) (n : Bytes) :
    (s.checkNumber r sort.sort n).1.Ok := by
  rw [ListPhoneNumber.checkNumber_state]
  refine ⟨h.numbers.perm (LazySorted.perm_prepare sort _), ?_, h.honestNumbers.prepare sort, ?_⟩
  · split
    · exact h.prefixes
    · exact h.prefixes.perm (LazySorted.perm_prepare sort _)
  · split
    · exact h.honestPrefixes
    · exact h.honestPrefixes.prepare sort

lemma ListPhoneNumber.Follows.checkNumber_left (h : s.Follows t) (n : Bytes) :
    (s.checkNumber r sort.sort n).1.Follows t := by
  have hok := h.okLeft.checkNumber r sort n
  rw [ListPhoneNumber.checkNumber_state] at hok ⊢
  refine ⟨hok, h.okRight, h.numbers.prepare_left sort, ?_, h.regExps⟩
  split
  · exact h.prefixes
  · exact h.prefixes.prepare_left sort

lemma ListPhoneNumber.Follows.checkNumber (h : s.Follows t) (n : Bytes) :
    (s.checkNumber r sort.sort n).1.Follows (t.checkNumber r sort.sort n).1 := by
  have hsearch : searchNumber (s.listPhoneNumber.prepare sort.sort).items n =
      searchNumber (t.listPhoneNumber.prepare sort.sort).items n := by
    have hs := LazySorted.perm_prepare sort s.listPhoneNumber
    have ht := LazySorted.perm_prepare sort t.listPhoneNumber
    rw [Bool.eq_iff_iff,
      searchNumber_iff (h.okLeft.honestNumbers.sorted_prepare sort) (h.okLeft.numbers.perm hs),
      searchNumber_iff (h.okRight.honestNumbers.sorted_prepare sort) (h.okRight.numbers.perm ht)]
    simp only [hs.mem_iff, ht.mem_iff, h.numbers.perm.mem_iff]
  have hok := h.okLeft.checkNumber r sort n
  have hok' := h.okRight.checkNumber r sort n
  rw [ListPhoneNumber.checkNumber_state, ListPhoneNumber.checkNumber_state] at *
  refine ⟨hok, hok', h.numbers.prepare sort, ?_, h.regExps⟩
  rw [hsearch]
  split
  · exact h.prefixes
  · exact h.prefixes.prepare sort

lemma ListPhoneNumber.Follows.step (h : s.Follows t) (op : ListPhoneNumberOp)
    (hfits : s.Fits op) :
    (s.step r sort.sort op).1.Follows (t.step r sort.sort op).1 ∧
      (s.step r sort.sort op).2 = (t.step r sort.sort op).2 := by
  cases op with
  | add number isPrefix => exact ⟨h.add r hfits, rfl⟩
  | clear =>
    refine ⟨⟨?_, ?_, h.numbers.clear, h.prefixes.clear, rfl⟩, rfl⟩
    · exact ⟨nofun, nofun, LazySorted.Honest.clear, LazySorted.Honest.clear⟩
    · exact ⟨nofun, nofun, LazySorted.Honest.clear, LazySorted.Honest.clear⟩
  | check n => exact ⟨h.checkNumber r sort n, congrArg some (h.answer r sort n)⟩

lemma ListPhoneNumber.follows_empty : ListPhoneNumber.Follows {} {} :=
  ⟨⟨nofun, nofun, nofun, nofun⟩, ⟨nofun, nofun, nofun, nofun⟩, LazySorted.Follows.refl_empty,
    LazySorted.Follows.refl_empty, rfl⟩

end ListPhoneNumber

/-- Extra searches change no other answer, in every sequence of operations in which what is added
to a list that counts as sorted belongs to its end. -/
theorem extra_checks_change_nothing (r : Regexps) (sortIP : Sorter IP.sortKey)
    (sortNumber : Sorter PhoneNumber.sortKey) (opsIP : List (Bool × ListIPOp))
    (opsNumber : List (Bool × ListPhoneNumberOp)) :
    ((∀ p ∈ opsIP, p.1 = true → p.2.IsCheck) →
      AllSteps (ListIP.step sortIP.sort) ListIP.Fits {} (opsIP.map Prod.snd) →
      answers (ListIP.step sortIP.sort) {} opsIP =
        answers (ListIP.step sortIP.sort) {} (opsIP.filter (fun p => !p.1))) ∧
    ((∀ p ∈ opsNumber, p.1 = true → p.2.IsCheck) →
      AllSteps (ListPhoneNumber.step r sortNumber.sort) ListPhoneNumber.Fits {}
        (opsNumber.map Prod.snd) →
      answers (ListPhoneNumber.step r sortNumber.sort) {} opsNumber =
        answers (ListPhoneNumber.step r sortNumber.sort) {}
          (opsNumber.filter (fun p => !p.1))) := by
  constructor
  · intro hextra hok
    refine answers_eq (R := ListIP.Follows) (fun s t op h hfits => h.step sortIP op hfits) ?_ opsIP
      hextra ListIP.follows_empty hok
    intro s t op h hop
    cases op with
    | check a => exact h.checkIP_left sortIP a
    | _ => cases hop
  · intro hextra hok
    refine answers_eq (R := ListPhoneNumber.Follows)
      (fun s t op h hfits => h.step r sortNumber op hfits) ?_ opsNumber hextra
      ListPhoneNumber.follows_empty hok
    intro s t op h hop
    cases op with
    | check n => exact h.checkNumber_left r sortNumber n
    | _ => cases hop

def searchBetween (first second : UInt32) : List (Bool × ListIPOp) :=
  [(false, .add (IP.ofIp (.v4 first) (-1))), (true, .check (.v4 5)),
    (false, .add (IP.ofIp (.v4 second) (-1))), (false, .check (.v4 second))]

def searchBetweenNumbers (first second : Bytes) : List (Bool × ListPhoneNumberOp) :=
  [(false, .add first false), (true, .check [0x35]), (false, .add second false),
    (false, .check second)]

theorem extra_checks_change_nothing_example :
    answers (ListIP.step (Sorter.insertion IP.sortKey).sort) {} (searchBetween 1 2) =
      answers (ListIP.step (Sorter.insertion IP.sortKey).sort) {}
        ((searchBetween 1 2).filter (fun p => !p.1)) ∧
    answers (ListPhoneNumber.step noRegexps (Sorter.insertion PhoneNumber.sortKey).sort) {}
      (searchBetweenNumbers [0x31] [0x32]) =
      answers (ListPhoneNumber.step noRegexps (Sorter.insertion PhoneNumber.sortKey).sort) {}
        ((searchBetweenNumbers [0x31] [0x32]).filter (fun p => !p.1)) := by
  have h := extra_checks_change_nothing noRegexps (Sorter.insertion IP.sortKey)
    (Sorter.insertion PhoneNumber.sortKey) (searchBetween 1 2) (searchBetweenNumbers [0x31] [0x32])
  constructor
  · refine h.1 ?_ ?_
    · simp [searchBetween, ListIPOp.IsCheck]
    · refine ⟨⟨valid_ofIp _ (by decide) (by decide), ?_⟩, trivial,
        ⟨valid_ofIp _ (by decide) (by decide), ?_⟩, trivial, trivial⟩
      · exact nofun
      · intro _ b hb
        obtain rfl : b = IP.ofIp (.v4 1) (-1) := List.mem_singleton.mp hb
        decide
  · refine h.2 ?_ ?_
    · simp [searchBetweenNumbers, ListPhoneNumberOp.IsCheck]
    · refine ⟨fun _ => nofun, trivial, fun _ => ?_, trivial, trivial⟩
      intro _ b hb
      obtain rfl : b = PhoneNumber.ofNumber [0x31] false := List.mem_singleton.mp hb
      decide

/-- An extra search makes later ones miss: the second host is added behind a greater one in a
list that counts as sorted. So it is for numbers. -/
theorem extra_check_hides_entry :
    answers (ListIP.step (Sorter.insertion IP.sortKey).sort) {} (searchBetween 2 1) = [false] ∧
    answers (ListIP.step (Sorter.insertion IP.sortKey).sort) {}
      ((searchBetween 2 1).filter (fun p => !p.1)) = [true] ∧
    answers (ListPhoneNumber.step noRegexps (Sorter.insertion PhoneNumber.sortKey).sort) {}
      (searchBetweenNumbers [0x32] [0x31]) = [false] ∧
    answers (ListPhoneNumber.step noRegexps (Sorter.insertion PhoneNumber.sortKey).sort) {}
      ((searchBetweenNumbers [0x32] [0x31]).filter (fun p => !p.1)) = [true] := by
  refine ⟨?_, ?_, ?_, ?_⟩
  · decide +kernel
  · decide +kernel
  · decide +kernel
  · decide +kernel

end VoipMonitor.AddressLists
