import Mathlib.Data.Prod.Lex
import VoipMonitor.Library.Runs
import VoipMonitor.Model.ReassemblyBuffer
import VoipMonitor.Proofs.AddressSearch

/-!
# What a reassembly buffer hands over

For each stream the packets are cut into pieces. A closed piece was handed over, or it had no
data, and the open one is in the buffer. The lower bound on the times in the buffer lets
`cleanup` see every stream that is too old.
-/

namespace VoipMonitor.ReassemblyBuffer
open VoipMonitor.Library
open VoipMonitor.CallsHash (VmIP VmPort)

/-! ## The order of the streams -/

def IpPort.sortKey (a : IpPort) : (ℕ ⊕ₗ List ℕ) ×ₗ ℕ := toLex (a.ip.sortKey, a.port.toNat)

lemma IpPort.sortKey_injective : Function.Injective IpPort.sortKey := by
  intro a b h
  have h' := toLex.injective h
  have hip : a.ip = b.ip := AddressLists.sortKey_inj (Prod.ext_iff.mp h').1
  have hport : a.port = b.port := UInt16.toNat_inj.mp (Prod.ext_iff.mp h').2
  cases a
  cases b
  simp_all

lemma IpPort.lt_iff (a b : IpPort) : a.lt b = true ↔ a.sortKey < b.sortKey := by
  have hip : a.ip = b.ip ↔ a.ip.sortKey = b.ip.sortKey :=
    ⟨fun h => by rw [h], AddressLists.sortKey_inj⟩
  rw [IpPort.sortKey, IpPort.sortKey, Prod.Lex.toLex_lt_toLex, ← AddressLists.lt_iff_sortKey,
    ← hip, ← UInt16.lt_iff_toNat_lt, IpPort.lt]
  simp

instance : IsStrictTotalOrder StreamId (fun a b => StreamId.lt a b = true) := by
  refine SortedMap.isStrictTotalOrder_of_key
    (fun a : StreamId => toLex (a.s.sortKey, a.c.sortKey)) ?_ ?_
  · intro a b h
    have h' := toLex.injective h
    have hs := IpPort.sortKey_injective (Prod.ext_iff.mp h').1
    have hc := IpPort.sortKey_injective (Prod.ext_iff.mp h').2
    cases a
    cases b
    simp_all
  · intro a b
    have hs : a.s = b.s ↔ a.s.sortKey = b.s.sortKey :=
      ⟨fun h => by rw [h], fun h => IpPort.sortKey_injective h⟩
    rw [Prod.Lex.toLex_lt_toLex, ← IpPort.lt_iff, ← IpPort.lt_iff, ← hs, StreamId.lt]
    simp

/-! ## Pieces -/

structure Carries (piece : List Packet) (ethHeader : Bytes) (ack seq : Nat) (data : Bytes) :
    Prop where
  head : ∃ p ∈ piece.head?, ethHeader = p.ethHeader ∧ ack = p.ack ∧ seq = p.seq
  data_eq : data = piece.flatMap (fun p => p.data)

def ClosedPiece (c : List Packet × Option DataRslt) : Prop :=
  match c.2 with
  | some r => Carries c.1 r.ethHeader r.ack r.seq r.data
  | none => c.1.flatMap (fun p => p.data) = []

def OpenPiece (piece : List Packet) : Option Data → Prop
  | some b => Carries piece b.ethHeader b.ack b.seq b.buffer
  | none => piece = []

/-- The packets of a stream are cut into pieces: closed ones, with the results in their order,
and the one in the buffer. -/
def CutIntoPieces (accepted : List Packet) (results : List DataRslt) (b : Option Data) : Prop :=
  ∃ (closed : List (List Packet × Option DataRslt)) (opened : List Packet),
    accepted = (closed.map (fun c => c.1)).flatten ++ opened ∧
      results = closed.filterMap (fun c => c.2) ∧ (∀ c ∈ closed, ClosedPiece c) ∧
      OpenPiece opened b

namespace CutIntoPieces
variable {accepted : List Packet} {results : List DataRslt} {b : Data}

lemma nil : CutIntoPieces [] [] none := ⟨[], [], rfl, rfl, by simp, rfl⟩

lemma begin_ (h : CutIntoPieces accepted results none) (p : Packet) (type : DataType) :
    CutIntoPieces (accepted ++ [p]) results
      (some { startPiece p type with buffer := (startPiece p type).buffer ++ p.data }) := by
  obtain ⟨closed, opened, hacc, hres, hclosed, hopen⟩ := h
  refine ⟨closed, [p], ?_, hres, hclosed, ⟨p, rfl, rfl, rfl, rfl⟩, ?_⟩
  · have hnil : opened = [] := hopen
    rw [hacc, hnil, List.append_nil]
  · simp [startPiece]

lemma extend (h : CutIntoPieces accepted results (some b)) (p : Packet) :
    CutIntoPieces (accepted ++ [p]) results (some { b with buffer := b.buffer ++ p.data }) := by
  obtain ⟨closed, opened, hacc, hres, hclosed, ⟨q, hq, hhead⟩, hdata⟩ := h
  refine ⟨closed, opened ++ [p], ?_, hres, hclosed, ⟨q, ?_, hhead⟩, ?_⟩
  · rw [hacc, List.append_assoc]
  · rw [List.head?_append]
    rw [Option.mem_def] at hq ⊢
    rw [hq]
    rfl
  · rw [hdata, List.flatMap_append, List.flatMap_singleton]

lemma emit (h : CutIntoPieces accepted results (some b)) (id : StreamId) :
    CutIntoPieces accepted (results ++ [complete id b]) none := by
  obtain ⟨closed, opened, hacc, hres, hclosed, hopen⟩ := h
  refine ⟨closed ++ [(opened, some (complete id b))], [], ?_, ?_, ?_, rfl⟩
  · rw [hacc]
    simp
  · rw [hres, List.filterMap_append]
    rfl
  · intro c hc
    rcases List.mem_append.mp hc with hc | hc
    · exact hclosed c hc
    · rw [List.mem_singleton.mp hc]
      exact hopen

lemma discard (h : CutIntoPieces accepted results (some b)) (hb : b.buffer = []) :
    CutIntoPieces accepted results none := by
  obtain ⟨closed, opened, hacc, hres, hclosed, hopen⟩ := h
  refine ⟨closed ++ [(opened, none)], [], ?_, ?_, ?_, rfl⟩
  · rw [hacc]
    simp
  · rw [hres, List.filterMap_append]
    simp
  · intro c hc
    rcases List.mem_append.mp hc with hc | hc
    · exact hclosed c hc
    · rw [List.mem_singleton.mp hc]
      exact hopen.data_eq.symm.trans hb

lemma data_eq {b : Option Data} (h : CutIntoPieces accepted results b) :
    results.flatMap (fun r => r.data) ++ (b.map (fun b => b.buffer)).getD [] =
      accepted.flatMap (fun p => p.data) := by
  obtain ⟨closed, opened, hacc, hres, hclosed, hopen⟩ := h
  have hresults : (closed.filterMap (fun c => c.2)).flatMap (fun r => r.data) =
      (closed.map (fun c => c.1)).flatten.flatMap (fun p => p.data) := by
    clear hacc hres hopen
    induction closed with
    | nil => rfl
    | cons c closed ih =>
      have hc := hclosed c List.mem_cons_self
      have hrest := ih (fun c' h' => hclosed c' (List.mem_cons_of_mem _ h'))
      obtain ⟨piece, r⟩ := c
      rw [List.map_cons, List.flatten_cons, List.flatMap_append, ← hrest]
      cases r with
      | none =>
        rw [List.filterMap_cons_none rfl, show piece.flatMap (fun p => p.data) = [] from hc,
          List.nil_append]
      | some r =>
        change (r :: closed.filterMap (fun c => c.2)).flatMap (fun r => r.data) = _
        rw [List.flatMap_cons, show r.data = piece.flatMap (fun p => p.data) from hc.data_eq]
  have hbuffer : (b.map (fun b => b.buffer)).getD [] = opened.flatMap (fun p => p.data) := by
    cases b with
    | none =>
      rw [show opened = [] from hopen]
      rfl
    | some b => exact hopen.data_eq
  rw [hres, hacc, List.flatMap_append, hresults, hbuffer]

end CutIntoPieces

/-! ## Steps -/

def resultsOf (id : StreamId) (results : List DataRslt) : List DataRslt :=
  results.filter (fun r => r.id = id)

def packetsOf (id : StreamId) (packets : List Packet) : List Packet :=
  packets.filter (fun p => p.id = id)

lemma resultsOf_append (id : StreamId) (a b : List DataRslt) :
    resultsOf id (a ++ b) = resultsOf id a ++ resultsOf id b := List.filter_append _ _

/-- The time kept with the buffer is a lower bound of the times in it, and it is set when there
is one. -/
def MinOk (s : Buffer) : Prop :=
  ∀ e ∈ s.streams, s.minTimeInStreams ≠ 0 ∧ s.minTimeInStreams ≤ timeUS e.2.time

structure RunInv (r : Run) : Prop where
  sorted : SortedMap.Sorted StreamId.lt r.buffer.streams
  pieces : ∀ id, CutIntoPieces (packetsOf id r.accepted) (resultsOf id r.results)
    (SortedMap.get id r.buffer.streams)
  times : ∀ e ∈ r.buffer.streams, timeUS e.2.time ≠ 0
  minOk : MinOk r.buffer

/-- A packet that begins a new piece comes in time for the buffered one, and times are set. -/
def Timely (r : Run) : Call → Prop
  | .packet p => timeUS p.time ≠ 0 ∧
      ∀ b, SortedMap.get p.id r.buffer.streams = some b → startsPiece p b = true →
        b.buffer ≠ [] → (p.time.sec : Int) - 10 < b.time.sec
  | .cleanup _ => True

lemma lowerMin_spec (m : Nat) {t : TimeVal} (ht : timeUS t ≠ 0) :
    lowerMin m t ≠ 0 ∧ lowerMin m t ≤ timeUS t ∧ (m ≠ 0 → lowerMin m t ≤ m) := by
  unfold lowerMin
  split
  · refine ⟨ht, le_rfl, ?_⟩
    omega
  · refine ⟨?_, ?_, ?_⟩ <;> omega

lemma addData_cases (p : Packet) (b : Data) (s : Buffer) :
    addData p b s = (⟨SortedMap.set StreamId.lt p.id
        { b with buffer := b.buffer ++ p.data } s.streams,
          lowerMin s.minTimeInStreams p.time⟩, []) ∨
      addData p b s = (⟨SortedMap.erase p.id s.streams, s.minTimeInStreams⟩,
        [complete p.id { b with buffer := b.buffer ++ p.data }]) := by
  unfold addData
  dsimp only
  split
  · exact .inr rfl
  · exact .inl rfl

lemma addData_buffer {p : Packet} {b : Data} {s : Buffer}
    (hsorted : SortedMap.Sorted StreamId.lt s.streams)
    (htimes : ∀ e ∈ s.streams, timeUS e.2.time ≠ 0) (hmin : MinOk s)
    (hp : timeUS p.time ≠ 0) (hb : b.time = p.time ∨ (p.id, b) ∈ s.streams) :
    SortedMap.Sorted StreamId.lt (addData p b s).1.streams ∧
      (∀ e ∈ (addData p b s).1.streams, timeUS e.2.time ≠ 0) ∧ MinOk (addData p b s).1 := by
  have hlow := lowerMin_spec s.minTimeInStreams hp
  rcases addData_cases p b s with h | h
  · rw [h]
    refine ⟨hsorted.set _ _, ?_, ?_⟩
    · intro e he
      rcases SortedMap.mem_set he with rfl | he
      · rcases hb with hb | hb
        · exact hb ▸ hp
        · exact htimes (p.id, b) hb
      · exact htimes e he
    · intro e he
      refine ⟨hlow.1, ?_⟩
      rcases SortedMap.mem_set he with rfl | he
      · rcases hb with hb | hb
        · change _ ≤ timeUS b.time
          rw [hb]
          exact hlow.2.1
        · have hold := hmin (p.id, b) hb
          exact (hlow.2.2 hold.1).trans hold.2
      · exact (hlow.2.2 (hmin e he).1).trans (hmin e he).2
  · rw [h]
    refine ⟨hsorted.filter _, ?_, ?_⟩
    · intro e he
      exact htimes e (List.mem_of_mem_filter he)
    · intro e he
      exact hmin e (List.mem_of_mem_filter he)

lemma addData_other {p : Packet} {b : Data} {s : Buffer} {id : StreamId} (hid : p.id ≠ id) :
    SortedMap.get id (addData p b s).1.streams = SortedMap.get id s.streams ∧
      resultsOf id (addData p b s).2 = [] := by
  rcases addData_cases p b s with h | h
  · rw [h]
    exact ⟨by rw [SortedMap.get_set, if_neg hid], rfl⟩
  · rw [h]
    refine ⟨by rw [SortedMap.get_erase, if_neg hid], ?_⟩
    simp [resultsOf, complete, hid]

lemma addData_pieces {p : Packet} {b : Data} {s : Buffer} {accepted : List Packet}
    {results : List DataRslt}
    (h : CutIntoPieces accepted results (some { b with buffer := b.buffer ++ p.data })) :
    CutIntoPieces accepted (results ++ resultsOf p.id (addData p b s).2)
      (SortedMap.get p.id (addData p b s).1.streams) := by
  rcases addData_cases p b s with hadd | hadd
  · rw [hadd, SortedMap.get_set, if_pos rfl]
    simpa [resultsOf] using h
  · rw [hadd, SortedMap.get_erase, if_pos rfl]
    simpa [resultsOf, complete] using h.emit p.id

lemma packetsOf_self (p : Packet) (packets : List Packet) :
    packetsOf p.id (packets ++ [p]) = packetsOf p.id packets ++ [p] := by
  simp [packetsOf]

lemma packetsOf_other {p : Packet} {id : StreamId} (hid : p.id ≠ id) (packets : List Packet) :
    packetsOf id (packets ++ [p]) = packetsOf id packets := by
  simp [packetsOf, hid]

lemma RunInv.addData {r : Run} (h : RunInv r) {p : Packet} {b : Data} (rslt : List DataRslt)
    (hp : timeUS p.time ≠ 0) (hb : b.time = p.time ∨ (p.id, b) ∈ r.buffer.streams)
    (hrslt : ∀ x ∈ rslt, x.id = p.id)
    (hpieces : CutIntoPieces (packetsOf p.id r.accepted ++ [p]) (resultsOf p.id r.results ++ rslt)
      (some { b with buffer := b.buffer ++ p.data })) :
    RunInv ⟨(ReassemblyBuffer.addData p b r.buffer).1,
      r.results ++ (rslt ++ (ReassemblyBuffer.addData p b r.buffer).2), r.accepted ++ [p]⟩ := by
  obtain ⟨hsorted, htimes, hmin⟩ := addData_buffer h.sorted h.times h.minOk hp hb
  refine ⟨hsorted, ?_, htimes, hmin⟩
  intro id
  dsimp only
  rw [resultsOf_append, resultsOf_append, ← List.append_assoc]
  by_cases hid : p.id = id
  · rw [← hid, packetsOf_self]
    have hall : resultsOf p.id rslt = rslt := by
      rw [resultsOf, List.filter_eq_self]
      intro x hx
      exact decide_eq_true (hrslt x hx)
    rw [hall]
    exact addData_pieces hpieces
  · have hnone : resultsOf id rslt = [] := by
      rw [resultsOf, List.filter_eq_nil_iff]
      intro x hx
      rw [hrslt x hx]
      simpa using hid
    obtain ⟨hget, hres⟩ := addData_other (b := b) (s := r.buffer) hid
    rw [packetsOf_other hid, hnone, hres, hget, List.append_nil, List.append_nil]
    exact h.pieces id

lemma RunInv.packet {r : Run} (h : RunInv r) {p : Packet} (htimely : Timely r (.packet p)) :
    RunInv (step r (.packet p)) := by
  obtain ⟨hp, hintime⟩ := htimely
  have hpieces := h.pieces p.id
  rw [step, processPacket]
  cases hget : SortedMap.get p.id r.buffer.streams with
  | none =>
    rw [hget] at hpieces
    by_cases hcreate : p.createStream = true
    · rw [if_pos hcreate, accepts, hcreate, Bool.true_or, if_pos rfl]
      refine h.addData [] hp (.inl rfl) (by simp) ?_
      rw [List.append_nil]
      exact hpieces.begin_ p p.type
    · rw [if_neg hcreate, accepts, hget, Bool.eq_false_iff.mpr hcreate]
      simpa using h
  | some b =>
    rw [hget] at hpieces
    have haccepts : accepts r.buffer p = true := by simp [accepts, hget]
    rw [haccepts, if_pos rfl]
    dsimp only
    by_cases hstarts : startsPiece p b = true
    · rw [if_pos hstarts]
      refine h.addData _ hp (.inl rfl) ?_ ?_
      · intro x hx
        split at hx
        · rw [List.mem_singleton.mp hx]
          rfl
        · cases hx
      · refine CutIntoPieces.begin_ ?_ p _
        split
        · exact hpieces.emit p.id
        · rename_i hdrop
          rw [List.append_nil]
          refine hpieces.discard ?_
          by_contra hdata
          exact hdrop ⟨hdata, hintime b hget hstarts hdata⟩
    · rw [if_neg hstarts]
      refine h.addData [] hp (.inr (SortedMap.mem_of_get hget)) (by simp) ?_
      rw [List.append_nil]
      exact hpieces.extend p

lemma foldl_lowerMin (streams : List (StreamId × Data)) (htimes : ∀ e ∈ streams, timeUS e.2.time ≠ 0)
    (m : Nat) :
    (∀ e ∈ streams, streams.foldl (fun m e => lowerMin m e.2.time) m ≠ 0 ∧
        streams.foldl (fun m e => lowerMin m e.2.time) m ≤ timeUS e.2.time) ∧
      (m ≠ 0 → streams.foldl (fun m e => lowerMin m e.2.time) m ≠ 0 ∧
        streams.foldl (fun m e => lowerMin m e.2.time) m ≤ m) := by
  induction streams generalizing m with
  | nil => exact ⟨by simp, fun hm => ⟨hm, le_rfl⟩⟩
  | cons e streams ih =>
    have hlow := lowerMin_spec m (htimes e List.mem_cons_self)
    obtain ⟨hrest, hfirst⟩ := ih (fun e' h' => htimes e' (List.mem_cons_of_mem _ h'))
      (lowerMin m e.2.time)
    have hfirst' := hfirst hlow.1
    rw [List.foldl_cons]
    refine ⟨?_, ?_⟩
    · intro e' he'
      rcases List.mem_cons.mp he' with rfl | he'
      · exact ⟨hfirst'.1, hfirst'.2.trans hlow.2.1⟩
      · exact hrest e' he'
    · intro hm
      exact ⟨hfirst'.1, hfirst'.2.trans (hlow.2.2 hm)⟩

lemma resultsOf_old {s : Buffer} (hsorted : SortedMap.Sorted StreamId.lt s.streams) (t : TimeVal)
    (id : StreamId) :
    resultsOf id ((s.streams.filter (fun e => isOld t e.2)).map (fun e => complete e.1 e.2)) =
      ((SortedMap.get id s.streams).filter (isOld t)).toList.map (complete id) := by
  have hswap : resultsOf id ((s.streams.filter (fun e => isOld t e.2)).map
      (fun e => complete e.1 e.2)) = ((s.streams.filter (fun e => isOld t e.2)).filter
        (fun e => e.1 = id)).map (fun e => complete e.1 e.2) := by
    rw [resultsOf, List.filter_map]
    rfl
  rw [hswap, (hsorted.filter _).filter_key id, hsorted.get_filter, List.map_map]
  rfl

lemma RunInv.cleanup {r : Run} (h : RunInv r) (t : TimeVal) : RunInv (step r (.cleanup t)) := by
  rw [step, ReassemblyBuffer.cleanup]
  split
  · refine ⟨h.sorted.filter _, ?_, ?_, ?_⟩
    · intro id
      rw [resultsOf_append, resultsOf_old h.sorted, h.sorted.get_filter]
      have hpieces := h.pieces id
      cases hget : SortedMap.get id r.buffer.streams with
      | none =>
        rw [hget] at hpieces
        simpa using hpieces
      | some b =>
        rw [hget] at hpieces
        by_cases hold : isOld t b = true
        · simpa [Option.filter, hold] using hpieces.emit id
        · simpa [Option.filter, hold] using hpieces
    · intro e he
      exact h.times e (List.mem_of_mem_filter he)
    · exact (foldl_lowerMin _ (fun e he => h.times e (List.mem_of_mem_filter he)) 0).1
  · simpa using h

lemma RunInv.step {r : Run} (h : RunInv r) {c : Call} (htimely : Timely r c) :
    RunInv (step r c) := by
  cases c with
  | packet p => exact h.packet htimely
  | cleanup t => exact h.cleanup t

lemma runInv_start : RunInv start where
  sorted := List.Pairwise.nil
  pieces _ := .nil
  times _ he := by cases he
  minOk _ he := by cases he

lemma MinOk.cleanup {s : Buffer} (h : MinOk s) {t : TimeVal} :
    (ReassemblyBuffer.cleanup t s).2 =
        (s.streams.filter (fun e => isOld t e.2)).map (fun e => complete e.1 e.2) ∧
      (ReassemblyBuffer.cleanup t s).1.streams = s.streams.filter (fun e => !isOld t e.2) := by
  rw [ReassemblyBuffer.cleanup]
  split
  · exact ⟨rfl, rfl⟩
  · rename_i hskip
    have hyoung : ∀ e ∈ s.streams, isOld t e.2 = false := by
      intro e he
      rw [isOld, decide_eq_false_iff_not]
      intro hlt
      exact hskip ⟨(h e he).1, (h e he).2.trans_lt hlt⟩
    refine ⟨?_, ?_⟩
    · rw [List.filter_eq_nil_iff.mpr (by simpa using hyoung)]
      rfl
    · rw [List.filter_eq_self.mpr (by simpa using hyoung)]

lemma isOld_iff {t : TimeVal} (ht : 500000 ≤ timeUS t) (b : Data) :
    isOld t b = decide (timeUS b.time + 500000 < timeUS t) := by
  have hlimit : limitUS t = timeUS t - 500000 := by
    have hlt : timeUS t < 2 ^ 64 := Nat.mod_lt _ (by decide)
    unfold limitUS
    omega
  rw [isOld, hlimit, decide_eq_decide]
  omega

/-- In every run whose packets begin new pieces in time, the results of a stream and its buffer
are the data of its packets, each result carries the first packet of its piece, and `cleanup`
hands over the streams older than 500 ms. -/
theorem reassemblyBuffer_exact {r : Run}
    (h : ReachBy (fun r c => some (step r c)) Timely start r) (id : StreamId) :
    (resultsOf id r.results).flatMap (fun x => x.data) ++ collected r.buffer id =
        (packetsOf id r.accepted).flatMap (fun p => p.data) ∧
      CutIntoPieces (packetsOf id r.accepted) (resultsOf id r.results)
        (SortedMap.get id r.buffer.streams) ∧
      ∀ t, 500000 ≤ timeUS t →
        (cleanup t r.buffer).2 = (r.buffer.streams.filter
            (fun e => timeUS e.2.time + 500000 < timeUS t)).map (fun e => complete e.1 e.2) ∧
          (cleanup t r.buffer).1.streams = r.buffer.streams.filter
            (fun e => ¬timeUS e.2.time + 500000 < timeUS t) := by
  have hinv : RunInv r := by
    refine h.invariant runInv_start ?_
    intro r c r' hr htimely hstep
    rw [← Option.some.inj hstep]
    exact hr.step htimely
  refine ⟨?_, hinv.pieces id, ?_⟩
  · rw [← (hinv.pieces id).data_eq, collected]
    cases SortedMap.get id r.buffer.streams <;> rfl
  · intro t ht
    have hclean := hinv.minOk.cleanup (t := t)
    simp only [isOld_iff ht] at hclean
    simp only [decide_not]
    exact hclean

/-! ## Pieces that last too long -/

def sampleId : StreamId := ⟨⟨.v4 1, 5060⟩, ⟨.v4 2, 5060⟩⟩

def samplePacket (createStream : Bool) (sec : Nat) (text : String) : Packet :=
  { ethHeader := [], id := sampleId, type := .sip, data := ascii text
    createStream := createStream, time := ⟨sec, 0⟩, ack := 1, seq := 1
    info := ⟨0, 1, 0, .v4 0, 0, 0⟩ }

def sampleRun : Run :=
  step (step start (.packet (samplePacket true 100 "BYE"))) (.packet (samplePacket true 106 "ACK"))

theorem reassemblyBuffer_exact_example :
    collected sampleRun.buffer sampleId = ascii "ACK" ∧
      (resultsOf sampleId sampleRun.results).flatMap (fun x => x.data) ++
        collected sampleRun.buffer sampleId = ascii "BYEACK" := by
  refine ⟨by decide, ?_⟩
  have hreach : ReachBy (fun r c => some (step r c)) Timely start sampleRun := by
    refine ((ReachBy.initial).step ?_ rfl).step ?_ rfl
    · refine ⟨by decide, ?_⟩
      intro b hb
      cases hb
    · refine ⟨by decide, ?_⟩
      intro b hb _ _
      have htime : b.time = ⟨100, 0⟩ := by
        rw [← Option.some.inj hb]
        rfl
      rw [htime]
      decide
  exact (reassemblyBuffer_exact hreach sampleId).1

/-- The times do not decrease, and the packets of each stream are less than ten seconds apart. -/
def Dense (packets : List Packet) : Prop :=
  (packets.map (fun p => timeUS p.time)).Pairwise (· ≤ ·) ∧
    ∀ id, (packetsOf id packets).IsChain (fun p q => timeUS q.time < timeUS p.time + 10000000)

def slowPackets : List Packet :=
  [samplePacket true 100 "INVITE sip:a", samplePacket false 106 "b SIP/2.0",
    samplePacket true 112 "BYE"]

/-- The time limit counts from the first packet of the piece: the data of two packets that are
six seconds apart are dropped by a third one six seconds later. -/
theorem reassemblyBuffer_drops_piece :
    Dense slowPackets ∧
      ((slowPackets.map Call.packet).foldl step start).accepted = slowPackets ∧
      (resultsOf sampleId ((slowPackets.map Call.packet).foldl step start).results).flatMap
          (fun x => x.data) ++
        collected ((slowPackets.map Call.packet).foldl step start).buffer sampleId ≠
          (packetsOf sampleId slowPackets).flatMap (fun p => p.data) := by
  refine ⟨⟨by decide, ?_⟩, by decide, by decide⟩
  intro id
  by_cases hid : sampleId = id
  · rw [← hid]
    decide
  · have hnone : packetsOf id slowPackets = [] := by
      simp [packetsOf, slowPackets, samplePacket, hid]
    rw [hnone]
    exact .nil

end VoipMonitor.ReassemblyBuffer
