import VoipMonitor.Proofs.BlockStream

/-!
# Synchronisation of the mirror receiver

While it waits for the first title the receiver sees the stream through windows: the bytes of
two consecutive reads. It synchronises at the first title exactly when one window holds that
title; from then on the reads are chunks of the stream of blocks.
-/

namespace VoipMonitor.BlockStore
open VoipMonitor.Library

lemma part_append_right (h s : Bytes) (a b : Nat) :
    part (h ++ s) (h.length + a) (h.length + b) = part s a b := by
  rw [part, part, slice_append_right, Nat.add_sub_add_left]

lemma title_prefix_wire (cfg : Config) (m : SentBlock) : headerString <+: m.wire cfg := by
  rw [m.wire_eq, PcapBlockStoreHeader.bytes, PcapBlockStoreHeader.fields, List.flatten_cons,
    List.append_assoc]
  exact List.prefix_append headerString _

lemma unbordered_title : Unbordered headerString := by decide

lemma title_ne_nil : headerString ≠ [] := by decide

/-! ## Windows -/

section Windows
variable (cfg : ReceiverConfig) (stringToTime : Bytes → Int) (env : Nat → ReadEnv)
  (reads : List Bytes) (text : Bytes) (ms : List SentBlock)

/-- The bytes that the receiver searches at its `k`-th read: the previous read and this one. -/
def window (k : Nat) : Bytes := part reads.flatten (cut reads (k - 1)) (cut reads (k + 1))

/-- The texts of the time shown by the first `k` windows, one after another. -/
def timeSeen (k : Nat) : Bytes :=
  ((List.range k).map (fun j => (windowTime (window reads j)).1)).flatten

/-- The `k`-th window ends a text of the time. -/
def Reported (k : Nat) : Prop :=
  timeSeen reads (k + 1) ≠ [] ∧ (windowTime (window reads k)).2 = true

instance (k : Nat) : Decidable (Reported reads k) := inferInstanceAs (Decidable (_ ∧ _))

/-- The first title lies within two consecutive reads. -/
def TitleSeen : Prop :=
  ∃ k < reads.length, cut reads (k - 1) ≤ text.length ∧
    text.length + headerString.length ≤ cut reads (k + 1)

def HeapOk (k : Nat) : Prop := cfg.diskBuffer = true ∨ (env k).heapPerc ≤ 90

/-- If the time is first reported before the first title is complete, in the `k`-th window, it is
close to the time of the receiver. -/
def TimeOk (k : Nat) : Prop :=
  cut reads k < text.length + headerString.length → (∀ j < k, ¬Reported reads j) →
    Reported reads k →
    sensorTimeDiff (stringToTime (timeSeen reads (k + 1))) (env k).time ≤
      cfg.connectMaximumTimeDiffS

/-- The blocks of the stream are such that the receiver does not refuse them. -/
structure Receivable : Prop where
  offsets : ∀ m ∈ ms, checkOffsets m.content = true
  headers : ∀ m ∈ ms, m.content.sizeCompress = 0 → checkHeaders m.content = none
  wire : ∀ m ∈ ms, (m.wire cfg.toConfig).length ≤ cfg.blockMaxSize * 10
  fits : ∀ i < ms.length, ∀ k < reads.length,
    cut reads k < text.length + blockStart cfg.toConfig ms (i + 1) →
    text.length + blockStart cfg.toConfig ms (i + 1) ≤ cut reads (k + 1) →
    cut reads (k + 1) - (text.length + blockStart cfg.toConfig ms i) ≤ cfg.blockMaxSize * 10
  accepted : ∀ i (hi : i < ms.length), ∀ k < reads.length,
    cut reads k < text.length + blockStart cfg.toConfig ms i + sizeofHeader →
    text.length + blockStart cfg.toConfig ms i + sizeofHeader ≤ cut reads (k + 1) →
    ∀ o, ms[i].Accepted cfg.toConfig ((env k).clock o)
  sendOk : ∀ k o, (env k).sendOk o = true

/-- The effect of a block on the counter of the connection and on the queue: a block with the
counter of the previous one is a repetition. -/
def pushBlock (s : Nat × List BlockContent) (m : SentBlock) : Nat × List BlockContent :=
  if s.1 = m.counter then s else (m.counter, s.2 ++ [m.restored])

/-- The receiver left `syncBeginBlock` at the first title, and only there, and every block was
restored and, unless it is a repetition, pushed. -/
structure Synchronised (st : Receiver) : Prop where
  syncedAt : st.syncedAt = if ms = [] then [] else [text.length]
  syncBeginBlock : st.syncBeginBlock = ms.isEmpty
  restored : st.connection.restored = ms.map SentBlock.restored
  pushed : st.connection.pcapStoreQueue = (ms.foldl pushBlock (0, [])).2

structure Delivered (i : Nat) (c : Connection) : Prop where
  restored : c.restored = (ms.take i).map SentBlock.restored
  blockCounter : c.blockCounter = ((ms.take i).foldl pushBlock (0, [])).1
  pushed : c.pcapStoreQueue = ((ms.take i).foldl pushBlock (0, [])).2

variable {cfg reads env text ms}

lemma accepts_acceptBlock (hr : Receivable cfg env reads text ms) (k : Nat) :
    Accepts cfg.toConfig ms (fun o => acceptBlock ((env k).sendOk o)) (Delivered ms) := by
  intro i hi o c b hc hb _ _
  have hmem := List.getElem_mem hi
  have hoffsets : checkOffsets b.toBlockContent = true := by
    rw [hb]
    exact hr.offsets _ hmem
  have hheaders : (if b.sizeCompress = 0 then checkHeaders b.toBlockContent else none) = none := by
    split
    · rename_i h0
      rw [hb] at h0 ⊢
      exact hr.headers _ hmem h0
    · rfl
  have hcounter : b.blockCounter = ms[i].counter := by
    rw [hb]
    rfl
  have htake := List.take_succ_eq_append_getElem hi
  have hbody : ∃ c', acceptBlock ((env k).sendOk o) c b =
      (if c.blockCounter = b.blockCounter then (c', .ok (destroyRestoreBuffer b))
        else ({ c' with
                  blockCounter := b.blockCounter
                  pcapStoreQueue := c'.pcapStoreQueue ++ [b.toBlockContent] }, .ok {})) ∧
      c'.restored = c.restored ++ [b.toBlockContent] ∧ c'.blockCounter = c.blockCounter ∧
      c'.pcapStoreQueue = c.pcapStoreQueue := by
    unfold acceptBlock
    rw [hoffsets, if_neg (by decide), hheaders, hr.sendOk k o]
    rw [if_neg (by simp)]
    exact ⟨_, rfl, rfl, rfl, rfl⟩
  obtain ⟨c', hbody, hrestored, hcount, hqueue⟩ := hbody
  dsimp only
  rw [hbody]
  have hfold : (ms.take (i + 1)).foldl pushBlock (0, []) =
      pushBlock ((ms.take i).foldl pushBlock (0, [])) ms[i] := by
    rw [htake, List.foldl_append]
    rfl
  have hlist : c'.restored = (ms.take (i + 1)).map SentBlock.restored := by
    rw [hrestored, hc.restored, hb, htake, List.map_append]
    rfl
  by_cases hrepeat : c.blockCounter = b.blockCounter
  · have hsame : ((ms.take i).foldl pushBlock (0, [])).1 = ms[i].counter := by
      rw [← hc.blockCounter, hrepeat, hcounter]
    rw [if_pos hrepeat]
    refine ⟨_, _, rfl, rfl, hlist, ?_, ?_⟩
    · rw [hfold, pushBlock, if_pos hsame, hcount, hc.blockCounter]
    · rw [hfold, pushBlock, if_pos hsame, hqueue, hc.pushed]
  · have hnew : ((ms.take i).foldl pushBlock (0, [])).1 ≠ ms[i].counter := by
      rw [← hc.blockCounter, ← hcounter]
      exact hrepeat
    rw [if_neg hrepeat]
    refine ⟨_, _, rfl, rfl, hlist, ?_, ?_⟩
    · rw [hfold, pushBlock, if_neg hnew]
      exact hcounter
    · rw [hfold, pushBlock, if_neg hnew, ← hc.pushed, ← hqueue, ← hb]

end Windows

/-! ## Before the first title -/

section Waiting
variable {cfg : ReceiverConfig} {stringToTime : Bytes → Int} {env : Nat → ReadEnv}
  {reads : List Bytes} {ms : List SentBlock} {k : Nat} {st : Receiver}

structure Fresh (reads : List Bytes) (ms : List SentBlock) (k : Nat) (st : Receiver) : Prop where
  syncBeginBlock : st.syncBeginBlock = true
  syncedAt : st.syncedAt = []
  delivered : Delivered ms 0 st.connection
  buffer : st.buffer = part reads.flatten (cut reads (k - 1)) (cut reads k)
  received : st.received = cut reads k

structure TimeState (reads : List Bytes) (k : Nat) (st : Receiver) : Prop where
  detected : st.detectSensorTime = true ↔ ∃ j < k, Reported reads j
  sensorTime : (∀ j < k, ¬Reported reads j) → st.sensorTime = timeSeen reads k

structure Waiting (reads : List Bytes) (ms : List SentBlock) (k : Nat) (st : Receiver) : Prop
    extends Fresh reads ms k st, TimeState reads k st where
  running : st.forceStop = false

structure Stopped (ms : List SentBlock) (st : Receiver) : Prop where
  syncBeginBlock : st.syncBeginBlock = true
  syncedAt : st.syncedAt = []
  delivered : Delivered ms 0 st.connection
  stopped : st.forceStop = true

def Rejected (cfg : ReceiverConfig) (stringToTime : Bytes → Int) (env : Nat → ReadEnv)
    (reads : List Bytes) (k : Nat) : Prop :=
  (∀ j < k, ¬Reported reads j) ∧ Reported reads k ∧
    cfg.connectMaximumTimeDiffS <
      sensorTimeDiff (stringToTime (timeSeen reads (k + 1))) (env k).time

lemma waiting_start : Waiting reads ms 0 {} where
  syncBeginBlock := rfl
  syncedAt := rfl
  delivered := ⟨rfl, rfl, rfl⟩
  buffer := by simp
  received := by simp
  detected := by simp
  sensorTime _ := rfl
  running := rfl

lemma timeSeen_succ (reads : List Bytes) (k : Nat) :
    timeSeen reads (k + 1) = timeSeen reads k ++ (windowTime (window reads k)).1 := by
  simp [timeSeen, List.range_succ]

lemma detectSensorName_eq (st : Receiver) (w : Bytes) : ∃ id name map flag,
    detectSensorName st w =
      { st with
        sensorId := id
        sensorName := name
        sensorsMap := map
        detectSensorName := flag } := by
  unfold detectSensorName
  split
  · exact ⟨_, _, _, _, rfl⟩
  · split
    · exact ⟨_, _, _, _, rfl⟩
    · dsimp only
      split_ifs <;> exact ⟨_, _, _, _, rfl⟩

lemma Waiting.detectSensorName (h : Waiting reads ms k st) (w : Bytes) :
    Waiting reads ms k (detectSensorName st w) := by
  obtain ⟨id, name, map, flag, heq⟩ := detectSensorName_eq st w
  rw [heq]
  exact ⟨⟨h.syncBeginBlock, h.syncedAt, h.delivered, h.buffer, h.received⟩,
    ⟨h.detected, h.sensorTime⟩, h.running⟩

lemma detectSensorTime_waiting (cfg : ReceiverConfig) (stringToTime : Bytes → Int)
    (env : Nat → ReadEnv) (h : Waiting reads ms k st) :
    let st' := detectSensorTime cfg stringToTime (env k).time st (window reads k)
    Fresh reads ms k st' ∧ (st'.forceStop = true ↔ Rejected cfg stringToTime env reads k) ∧
      (st'.forceStop = false → TimeState reads (k + 1) st') := by
  intro st'
  have hiff : (∃ j < k + 1, Reported reads j) ↔ (∃ j < k, Reported reads j) ∨ Reported reads k := by
    simp only [Nat.lt_succ_iff_lt_or_eq, or_and_right, exists_or, exists_eq_left]
  by_cases hdet : st.detectSensorTime = true
  · have hold : ∃ j < k, Reported reads j := h.detected.mp hdet
    have heq : st' = st := by
      change detectSensorTime cfg stringToTime (env k).time st (window reads k) = st
      rw [detectSensorTime, if_pos hdet]
    rw [heq]
    refine ⟨h.toFresh, ?_, ?_⟩
    · rw [h.running]
      refine iff_of_false (by decide) ?_
      rintro ⟨hno, -⟩
      obtain ⟨j, hj, hrep⟩ := hold
      exact hno j hj hrep
    · intro _
      refine ⟨iff_of_true hdet (hiff.mpr (Or.inl hold)), ?_⟩
      intro hno
      obtain ⟨j, hj, hrep⟩ := hold
      exact absurd hrep (hno j (by omega))
  · have hnone : ∀ j < k, ¬Reported reads j := by
      intro j hj hrep
      exact hdet (h.detected.mpr ⟨j, hj, hrep⟩)
    have htext : st.sensorTime ++ (windowTime (window reads k)).1 = timeSeen reads (k + 1) := by
      rw [h.sensorTime hnone, timeSeen_succ]
    have hstep : st' = (if Reported reads k then
        (if sensorTimeDiff (stringToTime (timeSeen reads (k + 1))) (env k).time >
            cfg.connectMaximumTimeDiffS then
          { ({ st with sensorTime := timeSeen reads (k + 1) } : Receiver).send "bad time" with
            forceStop := true }
        else { ({ st with sensorTime := timeSeen reads (k + 1) } : Receiver).send "ok" with
            detectSensorTime := true })
        else { st with sensorTime := timeSeen reads (k + 1) }) := by
      change detectSensorTime cfg stringToTime (env k).time st (window reads k) = _
      rw [detectSensorTime, if_neg hdet]
      dsimp only
      rw [htext]
      rfl
    have hfresh : Fresh reads ms k st' := by
      have hd := h.delivered
      rw [hstep]
      split
      · split
        · exact ⟨h.syncBeginBlock, h.syncedAt, ⟨hd.restored, hd.blockCounter, hd.pushed⟩, h.buffer,
            h.received⟩
        · exact ⟨h.syncBeginBlock, h.syncedAt, ⟨hd.restored, hd.blockCounter, hd.pushed⟩, h.buffer,
            h.received⟩
      · exact ⟨h.syncBeginBlock, h.syncedAt, hd, h.buffer, h.received⟩
    refine ⟨hfresh, ?_⟩
    rw [hstep]
    by_cases hrep : Reported reads k
    · rw [if_pos hrep]
      by_cases hbad : sensorTimeDiff (stringToTime (timeSeen reads (k + 1))) (env k).time >
          cfg.connectMaximumTimeDiffS
      · rw [if_pos hbad]
        refine ⟨iff_of_true rfl ⟨hnone, hrep, hbad⟩, ?_⟩
        intro hrun
        cases hrun
      · rw [if_neg hbad]
        refine ⟨iff_of_false ?_ (fun hrej => hbad hrej.2.2), ?_⟩
        · change ¬st.forceStop = true
          rw [h.running]
          decide
        · intro _
          refine ⟨iff_of_true rfl (hiff.mpr (Or.inr hrep)), ?_⟩
          intro hno
          exact absurd hrep (hno k (by omega))
    · rw [if_neg hrep]
      refine ⟨iff_of_false ?_ (fun hrej => hrep hrej.2.1), ?_⟩
      · change ¬st.forceStop = true
        rw [h.running]
        decide
      · intro _
        refine ⟨?_, fun _ => rfl⟩
        rw [hiff]
        refine iff_of_false hdet ?_
        rintro (⟨j, hj, hr⟩ | hr)
        · exact hnone j hj hr
        · exact hrep hr

lemma receive_stopped (h : st.forceStop = true) (data : Bytes) :
    receive cfg stringToTime (env k) st data = st := by
  rw [receive, if_pos h]

lemma receive_heap (hrun : st.forceStop = false) (hheap : ¬HeapOk cfg env k) (data : Bytes) :
    receive cfg stringToTime (env k) st data = { st with forceStop := true } := by
  have hfull : cfg.diskBuffer = false ∧ (env k).heapPerc > 90 := by
    unfold HeapOk at hheap
    push Not at hheap
    exact ⟨by simpa using hheap.1, hheap.2⟩
  rw [receive, if_neg (by rw [hrun]; decide), if_pos hfull]

lemma receive_eq (stringToTime : Bytes → Int) (hrun : st.forceStop = false)
    (hheap : HeapOk cfg env k) {data : Bytes} (hne : data ≠ []) :
    receive cfg stringToTime (env k) st data =
      (let st₁ := if st.syncBeginBlock then
          syncBlock cfg stringToTime (env k) { st with counterEmptyData := 0 } data
        else restoreBuffer cfg (env k) { st with counterEmptyData := 0 } data
      { st₁ with received := st₁.received + data.length }) := by
  have hfull : ¬(cfg.diskBuffer = false ∧ (env k).heapPerc > 90) := by
    rintro ⟨hdisk, hperc⟩
    rcases hheap with h | h
    · rw [hdisk] at h
      cases h
    · exact absurd hperc (not_lt.mpr h)
  rw [receive, if_neg (by rw [hrun]; decide), if_neg hfull, if_neg hne]

lemma window_eq (hk : k < reads.length) :
    part reads.flatten (cut reads (k - 1)) (cut reads k) ++ reads[k] = window reads k := by
  rw [← part_cut hk]
  exact part_append (cut_mono reads (by omega)) (cut_le_succ reads k)

lemma length_window (reads : List Bytes) (k : Nat) :
    (window reads k).length = cut reads (k + 1) - cut reads (k - 1) :=
  length_part (cut_mono reads (by omega)) (cut_le_length reads _)

lemma Waiting.clearEmpty (h : Waiting reads ms k st) :
    Waiting reads ms k { st with counterEmptyData := 0 } :=
  ⟨⟨h.syncBeginBlock, h.syncedAt, h.delivered, h.buffer, h.received⟩,
    ⟨h.detected, h.sensorTime⟩, h.running⟩

lemma Waiting.receive_stop (h : Waiting reads ms k st) (hk : k < reads.length)
    (hne : reads[k] ≠ [])
    (hbad : ¬HeapOk cfg env k ∨ Rejected cfg stringToTime env reads k) :
    Stopped ms (receive cfg stringToTime (env k) st reads[k]) := by
  by_cases hheap : HeapOk cfg env k
  · have hrej : Rejected cfg stringToTime env reads k := hbad.resolve_left (not_not.mpr hheap)
    have hw : st.buffer ++ reads[k] = window reads k := by rw [h.buffer, window_eq hk]
    obtain ⟨hfresh, hstop, -⟩ := detectSensorTime_waiting cfg stringToTime env
      (h.clearEmpty.detectSensorName (window reads k))
    have hstop' := hstop.mpr hrej
    rw [receive_eq stringToTime h.running hheap hne, if_pos h.syncBeginBlock, syncBlock]
    rw [hw, if_pos hstop']
    exact ⟨hfresh.syncBeginBlock, hfresh.syncedAt, hfresh.delivered, hstop'⟩
  · rw [receive_heap h.running hheap]
    exact ⟨h.syncBeginBlock, h.syncedAt, h.delivered, rfl⟩

structure Opened (ms : List SentBlock) (p r : Nat) (st : Receiver) : Prop where
  running : st.forceStop = false
  syncBeginBlock : st.syncBeginBlock = false
  syncedAt : st.syncedAt = [p]
  delivered : Delivered ms 0 st.connection
  restoreBuffer : st.blockStore.restoreBuffer = []
  received : st.received = r

lemma Waiting.receive_search (h : Waiting reads ms k st) (hk : k < reads.length)
    (hne : reads[k] ≠ []) (hheap : HeapOk cfg env k)
    (hok : ¬Rejected cfg stringToTime env reads k) :
    (memmem (window reads k) headerString = none →
      Waiting reads ms (k + 1) (receive cfg stringToTime (env k) st reads[k])) ∧
    ∀ i, memmem (window reads k) headerString = some i →
      ∃ st₁, Opened ms (cut reads (k - 1) + i) (cut reads k) st₁ ∧
        receive cfg stringToTime (env k) st reads[k] =
          (let st₂ := restoreBuffer cfg (env k) st₁ ((window reads k).drop i)
          { st₂ with received := st₂.received + reads[k].length }) := by
  have hw : st.buffer ++ reads[k] = window reads k := by rw [h.buffer, window_eq hk]
  have hmono : cut reads (k - 1) ≤ cut reads k := cut_mono reads (by omega)
  have hsucc := cut_succ hk
  have hwlen := length_window reads k
  obtain ⟨hfresh, hstop, htime⟩ := detectSensorTime_waiting cfg stringToTime env
    (h.clearEmpty.detectSensorName (window reads k))
  generalize hst₁ : detectSensorTime cfg stringToTime (env k).time
    (VoipMonitor.BlockStore.detectSensorName { st with counterEmptyData := 0 } (window reads k))
    (window reads k) = st₁ at hfresh hstop htime
  have hrun : st₁.forceStop = false := by
    rw [← Bool.not_eq_true]
    exact fun hs => hok (hstop.mp hs)
  have hreceive := receive_eq stringToTime h.running hheap hne
  rw [if_pos h.syncBeginBlock, syncBlock] at hreceive
  dsimp only at hreceive
  rw [hw, hst₁, if_neg (by rw [hrun]; decide)] at hreceive
  refine ⟨?_, ?_⟩
  · intro hnone
    rw [hreceive, hnone]
    have ht := htime hrun
    refine ⟨⟨hfresh.syncBeginBlock, hfresh.syncedAt, hfresh.delivered, ?_, ?_⟩,
      ⟨ht.detected, ht.sensorTime⟩, hrun⟩
    · rw [Nat.add_sub_cancel, part_cut hk]
    · change st₁.received + reads[k].length = _
      rw [hfresh.received, hsucc]
  · intro i hi
    rw [hi] at hreceive
    refine ⟨_, ?_, hreceive⟩
    refine ⟨hrun, rfl, ?_, hfresh.delivered, rfl, hfresh.received⟩
    change st₁.syncedAt ++ [st₁.received + reads[k].length - (window reads k).length + i] = _
    rw [hfresh.syncedAt, hfresh.received, hwlen, List.nil_append]
    congr 2
    omega

end Waiting

end VoipMonitor.BlockStore
