import VoipMonitor.Proofs.MirrorSync

/-!
# Runs of the mirror receiver

The states of a run are those of the search before the first title and those of the restore loop
after it. A run restores every block exactly when the first title lies within two consecutive
reads and no read ends the thread.
-/

namespace VoipMonitor.BlockStore
open VoipMonitor.Library

section Title
variable {cfg : Config} {reads : List Bytes} {text : Bytes} {ms : List SentBlock} {k : Nat}

lemma stream_title (cfg : Config) (hms : ms ≠ []) : ∃ rest, stream cfg ms = headerString ++ rest := by
  obtain ⟨m, ms, rfl⟩ := List.exists_cons_of_ne_nil hms
  obtain ⟨rest, hrest⟩ := title_prefix_wire cfg m
  refine ⟨rest ++ (wires cfg ms).flatten, ?_⟩
  rw [stream, wires, List.map_cons, List.flatten_cons, ← hrest, List.append_assoc]
  rfl

lemma first_title (hms : ms ≠ []) (hflat : reads.flatten = text ++ stream cfg ms)
    (htext : ∀ i, ¬OccursAt headerString text i) :
    OccursAt headerString reads.flatten text.length ∧
      ∀ j < text.length, ¬OccursAt headerString reads.flatten j := by
  obtain ⟨rest, hrest⟩ := stream_title cfg hms
  rw [hflat, hrest]
  exact first_occurrence unbordered_title htext

lemma occursAt_window {i : Nat} (h : OccursAt headerString (window reads k) i) :
    OccursAt headerString reads.flatten (cut reads (k - 1) + i) ∧
      cut reads (k - 1) + i + headerString.length ≤ cut reads (k + 1) := by
  refine ⟨occursAt_slice h, ?_⟩
  have hle := h.add_length_le title_ne_nil
  have hlen : (window reads k).length = cut reads (k + 1) - cut reads (k - 1) :=
    length_part (cut_mono reads (by omega)) (cut_le_length reads _)
  have hmono : cut reads (k - 1) ≤ cut reads (k + 1) := cut_mono reads (by omega)
  omega

lemma window_no_title (hflat : reads.flatten = text ++ stream cfg ms)
    (htext : ∀ i, ¬OccursAt headerString text i)
    (hlt : ms ≠ [] → cut reads (k + 1) < text.length + headerString.length) :
    memmem (window reads k) headerString = none := by
  rw [memmem_eq_none title_ne_nil]
  intro i hocc
  obtain ⟨hstream, hle⟩ := occursAt_window hocc
  by_cases hms : ms = []
  · refine htext (cut reads (k - 1) + i) ?_
    rw [hms] at hflat
    simpa [hflat, stream, wires] using hstream
  · have hlt := hlt hms
    exact (first_title hms hflat htext).2 _ (by omega) hstream

lemma window_title (hms : ms ≠ []) (hflat : reads.flatten = text ++ stream cfg ms)
    (htext : ∀ i, ¬OccursAt headerString text i) (hstart : cut reads (k - 1) ≤ text.length)
    (hend : text.length + headerString.length ≤ cut reads (k + 1)) :
    memmem (window reads k) headerString = some (text.length - cut reads (k - 1)) := by
  obtain ⟨hocc, hfirst⟩ := first_title hms hflat htext
  rw [memmem_eq_some title_ne_nil]
  refine ⟨OccursAt.to_slice ?_ (by omega), ?_⟩
  · rwa [show cut reads (k - 1) + (text.length - cut reads (k - 1)) = text.length by omega]
  · intro j hj hin
    exact hfirst _ (by omega) (occursAt_window hin).1

end Title

/-! ## After the first title -/

section Synced
variable {cfg : ReceiverConfig} {stringToTime : Bytes → Int} {env : Nat → ReadEnv}
  {reads : List Bytes} {text : Bytes} {ms : List SentBlock} {k : Nat} {st : Receiver}

structure Synced (cfg : ReceiverConfig) (reads : List Bytes) (text : Bytes) (ms : List SentBlock)
    (k i : Nat) (st : Receiver) : Prop where
  running : st.forceStop = false
  syncBeginBlock : st.syncBeginBlock = false
  syncedAt : st.syncedAt = [text.length]
  delivered : Delivered ms i st.connection
  title_le : text.length + headerString.length ≤ cut reads k
  holding : Holding cfg.toConfig ms i (cut reads k - text.length) st.blockStore

lemma restoreBuffer_stream (hr : Receivable cfg env reads text ms) {a b i : Nat}
    (hc : ChunkOk cfg.toConfig ms (env k).clock a b)
    (hh : Holding cfg.toConfig ms i a st.blockStore) (hd : Delivered ms i st.connection) :
    ∃ j store conn errors,
      restoreBuffer cfg (env k) st (part (stream cfg.toConfig ms) a b) =
        { st with blockStore := store, connection := conn, countErrors := errors, buffer := [] } ∧
      Holding cfg.toConfig ms (i + j) b store ∧ Delivered ms (i + j) conn := by
  obtain ⟨j, l, hloop, hh', hd', -⟩ :=
    restoreLoop_stream hr.wire (accepts_acceptBlock hr k) hc
      (part (stream cfg.toConfig ms) a b).length i a
      { store := st.blockStore, ext := st.connection, countErrors := st.countErrors } hh
      (by have := hh.le_pos; omega) hc.le
      (by rw [length_part hc.le hc.le_length]) (by simp) hd
  refine ⟨j, l.store, l.ext, l.countErrors, ?_, hh', hd'⟩
  rw [restoreBuffer, hloop]

lemma Receivable.chunkOk (hr : Receivable cfg env reads text ms)
    (hflat : reads.flatten = text ++ stream cfg.toConfig ms) (hk : k < reads.length) {a : Nat}
    (hend : text.length ≤ cut reads (k + 1)) (ha : a ≤ cut reads (k + 1) - text.length)
    (hstart : ∀ x, headerString.length ≤ x → a < x → cut reads k < text.length + x) :
    ChunkOk cfg.toConfig ms (env k).clock a (cut reads (k + 1) - text.length) where
  le := ha
  le_length := by
    have h := cut_le_length reads (k + 1)
    rw [hflat, List.length_append] at h
    omega
  fits i hi hlt hle := by
    have hlen := ms[i].wire_length_ge cfg.toConfig
    have hsucc := blockStart_succ cfg.toConfig ms hi
    have htitle : headerString.length = 16 := rfl
    have h := hr.fits i hi k hk (hstart _ (by omega) hlt) (by omega)
    omega
  accepted i hi hlt hle := by
    have htitle : headerString.length ≤ sizeofHeader := by decide
    have h := hstart _ (htitle.trans (Nat.le_add_left _ _)) hlt
    exact hr.accepted i hi k hk (by omega) (by omega) _

lemma Synced.step (hr : Receivable cfg env reads text ms)
    (hflat : reads.flatten = text ++ stream cfg.toConfig ms) (hk : k < reads.length)
    (hne : reads[k] ≠ []) (hheap : HeapOk cfg env k) {i : Nat}
    (h : Synced cfg reads text ms k i st) :
    ∃ j, Synced cfg reads text ms (k + 1) j (receive cfg stringToTime (env k) st reads[k]) := by
  have hmono := cut_le_succ reads k
  have htitle := h.title_le
  have hc := hr.chunkOk (a := cut reads k - text.length) hflat hk (by omega) (by omega)
    (by intro x _ hx; omega)
  have hdata : reads[k] = part (stream cfg.toConfig ms) (cut reads k - text.length)
      (cut reads (k + 1) - text.length) := by
    rw [← part_append_right text, ← hflat, ← part_cut hk]
    congr 1 <;> omega
  have hheld : Holding cfg.toConfig ms i (cut reads k - text.length)
      ({ st with counterEmptyData := 0 } : Receiver).blockStore := h.holding
  obtain ⟨j, store, conn, errors, hbuf, hh, hd⟩ := restoreBuffer_stream hr hc hheld h.delivered
  refine ⟨i + j, ?_⟩
  rw [receive_eq stringToTime h.running hheap hne, if_neg (by rw [h.syncBeginBlock]; decide)]
  rw [← hdata] at hbuf
  rw [hbuf]
  exact ⟨h.running, h.syncBeginBlock, h.syncedAt, hd, by omega, hh⟩

lemma Waiting.receive_title (hr : Receivable cfg env reads text ms) (hms : ms ≠ [])
    (hflat : reads.flatten = text ++ stream cfg.toConfig ms)
    (htext : ∀ i, ¬OccursAt headerString text i) (hk : k < reads.length) (hne : reads[k] ≠ [])
    (hheap : HeapOk cfg env k) (hok : ¬Rejected cfg stringToTime env reads k)
    (hbefore : cut reads k < text.length + headerString.length)
    (hstart : cut reads (k - 1) ≤ text.length)
    (hend : text.length + headerString.length ≤ cut reads (k + 1))
    (h : Waiting reads ms k st) :
    ∃ j, Synced cfg reads text ms (k + 1) j (receive cfg stringToTime (env k) st reads[k]) := by
  have hfind := window_title hms hflat htext hstart hend
  obtain ⟨st₁, hopen, hreceive⟩ := (h.receive_search hk hne hheap hok).2 _ hfind
  have hc := hr.chunkOk (a := 0) hflat hk (by omega) (Nat.zero_le _) (by intro x hx _; omega)
  have hdata : (window reads k).drop (text.length - cut reads (k - 1)) =
      part (stream cfg.toConfig ms) 0 (cut reads (k + 1) - text.length) := by
    rw [← part_append_right text, ← hflat, window, drop_part]
    congr 1 <;> omega
  have hholding := holding_start cfg.toConfig ms (Nat.zero_le _) hopen.restoreBuffer
  have hzero : blockStart cfg.toConfig ms 0 = 0 := cut_zero _
  rw [hzero] at hholding
  obtain ⟨j, store, conn, errors, hbuf, hh, hd⟩ :=
    restoreBuffer_stream hr hc hholding hopen.delivered
  refine ⟨0 + j, ?_⟩
  rw [hreceive, hdata, hbuf]
  refine ⟨hopen.running, hopen.syncBeginBlock, ?_, hd, by omega, hh⟩
  change st₁.syncedAt = _
  rw [hopen.syncedAt]
  congr 1
  omega

end Synced

/-! ## Whole runs -/

section Runs
variable {cfg : ReceiverConfig} {stringToTime : Bytes → Int} {env : Nat → ReadEnv}
  {reads : List Bytes} {text : Bytes} {ms : List SentBlock} {k : Nat} {st : Receiver}

lemma receiveFrom_append (n : Nat) (st : Receiver) (l : List Bytes) (data : Bytes) :
    receiveFrom cfg stringToTime env n st (l ++ [data]) =
      receive cfg stringToTime (env (n + l.length)) (receiveFrom cfg stringToTime env n st l)
        data := by
  induction l generalizing n st with
  | nil => rfl
  | cons d l ih =>
    rw [List.cons_append, receiveFrom, receiveFrom, ih, List.length_cons, Nat.add_assoc,
      Nat.add_comm 1]

def stateAfter (cfg : ReceiverConfig) (stringToTime : Bytes → Int) (env : Nat → ReadEnv)
    (reads : List Bytes) (k : Nat) : Receiver :=
  receiveFrom cfg stringToTime env 0 {} (reads.take k)

lemma stateAfter_succ (hk : k < reads.length) :
    stateAfter cfg stringToTime env reads (k + 1) =
      receive cfg stringToTime (env k) (stateAfter cfg stringToTime env reads k) reads[k] := by
  rw [stateAfter, List.take_succ_eq_append_getElem hk, receiveFrom_append, List.length_take,
    Nat.min_eq_left hk.le, Nat.zero_add]
  rfl

lemma stateAfter_length : stateAfter cfg stringToTime env reads reads.length =
    receiveFrom cfg stringToTime env 0 {} reads := by
  rw [stateAfter, List.take_length]

lemma stateAfter_stopped (h : (stateAfter cfg stringToTime env reads k).forceStop = true) {n : Nat}
    (hkn : k ≤ n) (hn : n ≤ reads.length) :
    stateAfter cfg stringToTime env reads n = stateAfter cfg stringToTime env reads k := by
  induction hkn with
  | refl => rfl
  | step hkn ih =>
    have ih := ih (by omega)
    rw [stateAfter_succ (by omega), receive_stopped (by rw [ih]; exact h), ih]

def Good (cfg : ReceiverConfig) (reads : List Bytes) (text : Bytes) (ms : List SentBlock) (k : Nat)
    (st : Receiver) : Prop :=
  (cut reads k < text.length + headerString.length ∧ Waiting reads ms k st) ∨
    ∃ i, Synced cfg reads text ms k i st

lemma TitleSeen.start_le (h : TitleSeen reads text)
    (hbefore : cut reads k < text.length + headerString.length) :
    cut reads (k - 1) ≤ text.length := by
  obtain ⟨n, -, hstart, hend⟩ := h
  have hkn : k ≤ n := by
    by_contra hlt
    have := cut_mono reads (show n + 1 ≤ k by omega)
    omega
  exact (cut_mono reads (by omega)).trans hstart

lemma not_rejected (htime : TimeOk cfg stringToTime env reads text k)
    (hbefore : cut reads k < text.length + headerString.length) :
    ¬Rejected cfg stringToTime env reads k := by
  rintro ⟨hno, hrep, hbad⟩
  have := htime hbefore hno hrep
  omega

lemma Good.step (hr : Receivable cfg env reads text ms) (hms : ms ≠ [])
    (hflat : reads.flatten = text ++ stream cfg.toConfig ms)
    (htext : ∀ i, ¬OccursAt headerString text i) (hseen : TitleSeen reads text)
    (hk : k < reads.length) (hne : reads[k] ≠ []) (hheap : HeapOk cfg env k)
    (htime : TimeOk cfg stringToTime env reads text k) (h : Good cfg reads text ms k st) :
    Good cfg reads text ms (k + 1) (receive cfg stringToTime (env k) st reads[k]) := by
  rcases h with ⟨hbefore, h⟩ | ⟨i, h⟩
  · have hok := not_rejected htime hbefore
    by_cases hend : text.length + headerString.length ≤ cut reads (k + 1)
    · exact Or.inr (h.receive_title hr hms hflat htext hk hne hheap hok hbefore
        (hseen.start_le hbefore) hend)
    · have hnone := window_no_title hflat htext (fun _ => Nat.lt_of_not_le hend)
      exact Or.inl ⟨by omega, (h.receive_search hk hne hheap hok).1 hnone⟩
  · exact Or.inr (h.step hr hflat hk hne hheap)

lemma stateAfter_good (hr : Receivable cfg env reads text ms) (hms : ms ≠ [])
    (hflat : reads.flatten = text ++ stream cfg.toConfig ms)
    (htext : ∀ i, ¬OccursAt headerString text i) (hseen : TitleSeen reads text)
    (hne : ∀ r ∈ reads, r ≠ []) (hk : k ≤ reads.length)
    (hok : ∀ j < k, HeapOk cfg env j ∧ TimeOk cfg stringToTime env reads text j) :
    Good cfg reads text ms k (stateAfter cfg stringToTime env reads k) := by
  induction k with
  | zero =>
    refine Or.inl ⟨?_, waiting_start⟩
    rw [cut_zero]
    exact Nat.lt_add_left _ (by decide)
  | succ k ih =>
    have ih := ih (by omega) (fun j hj => hok j (by omega))
    obtain ⟨hheap, htime⟩ := hok k (by omega)
    rw [stateAfter_succ hk]
    exact ih.step hr hms hflat htext hseen hk (hne _ (List.getElem_mem hk)) hheap htime

lemma Good.stop (hflat : reads.flatten = text ++ stream cfg.toConfig ms) (hms : ms ≠ [])
    (hk : k < reads.length) (hne : ∀ r ∈ reads, r ≠ [])
    (hbad : ¬(HeapOk cfg env k ∧ TimeOk cfg stringToTime env reads text k))
    (h : Good cfg reads text ms k st) :
    (receive cfg stringToTime (env k) st reads[k]).forceStop = true ∧
      ¬Synchronised text ms (receive cfg stringToTime (env k) st reads[k]) := by
  rcases h with ⟨hbefore, h⟩ | ⟨i, h⟩
  · have hstop : ¬HeapOk cfg env k ∨ Rejected cfg stringToTime env reads k := by
      by_cases hheap : HeapOk cfg env k
      · refine Or.inr ?_
        have htime : ¬TimeOk cfg stringToTime env reads text k := fun ht => hbad ⟨hheap, ht⟩
        unfold TimeOk at htime
        push Not at htime
        exact ⟨htime.2.1, htime.2.2.1, htime.2.2.2⟩
      · exact Or.inl hheap
    have hs := h.receive_stop hk (hne _ (List.getElem_mem hk)) hstop
    refine ⟨hs.stopped, ?_⟩
    intro hsync
    have := hsync.syncedAt
    rw [hs.syncedAt, if_neg hms] at this
    exact List.cons_ne_nil _ _ this.symm
  · have hheap : ¬HeapOk cfg env k := by
      intro hheap
      refine hbad ⟨hheap, ?_⟩
      intro hbefore
      have := h.title_le
      omega
    rw [receive_heap h.running hheap]
    refine ⟨rfl, ?_⟩
    intro hsync
    have hlen := congrArg List.length hsync.restored
    change st.connection.restored.length = _ at hlen
    rw [h.delivered.restored, List.length_map, List.length_take, List.length_map] at hlen
    have hlt : cut reads k < reads.flatten.length := by
      rw [← cut_length]
      exact cut_strictMono hne hk le_rfl
    rw [hflat, List.length_append] at hlt
    have hi : i < ms.length := by
      by_contra hge
      have hpos := h.holding.le_pos
      have hi' : i = ms.length := le_antisymm h.holding.le_length (by omega)
      have htitle := h.title_le
      rw [hi', blockStart_length] at hpos
      omega
    omega

lemma restoreBuffer_syncedAt (e : ReadEnv) (st : Receiver) (b : Bytes) :
    (restoreBuffer cfg e st b).syncedAt = st.syncedAt := by
  unfold restoreBuffer
  dsimp only
  split <;> rfl

lemma detectSensorTime_syncedAt (now : Nat) (st : Receiver) (w : Bytes) :
    (detectSensorTime cfg stringToTime now st w).syncedAt = st.syncedAt := by
  unfold detectSensorTime
  dsimp only
  split_ifs <;> rfl

lemma syncBlock_syncedAt (e : ReadEnv) (st : Receiver) (data : Bytes) :
    st.syncedAt <+: (syncBlock cfg stringToTime e st data).syncedAt := by
  obtain ⟨id, name, map, flag, hname⟩ := detectSensorName_eq st (st.buffer ++ data)
  have hsame : (detectSensorTime cfg stringToTime e.time (detectSensorName st (st.buffer ++ data))
      (st.buffer ++ data)).syncedAt = st.syncedAt := by
    rw [detectSensorTime_syncedAt, hname]
  unfold syncBlock
  dsimp only
  split
  · rw [hsame]
  · split
    · rw [restoreBuffer_syncedAt]
      rw [hsame]
      exact List.prefix_append _ _
    · rw [hsame]

lemma receive_syncedAt (e : ReadEnv) (st : Receiver) (data : Bytes) :
    st.syncedAt <+: (receive cfg stringToTime e st data).syncedAt := by
  unfold receive
  dsimp only
  split
  · exact List.prefix_rfl
  split
  · exact List.prefix_rfl
  split
  · exact List.prefix_rfl
  split
  · exact syncBlock_syncedAt e { st with counterEmptyData := 0 } data
  · rw [restoreBuffer_syncedAt]

lemma receive_idle (hk : k < reads.length) (hne : reads[k] ≠ [])
    (h : Waiting reads ms k st ∨ Stopped ms st) :
    (Waiting reads ms (k + 1) (receive cfg stringToTime (env k) st reads[k]) ∨
      Stopped ms (receive cfg stringToTime (env k) st reads[k])) ∨
    ∃ i, memmem (window reads k) headerString = some i ∧
      (receive cfg stringToTime (env k) st reads[k]).syncedAt = [cut reads (k - 1) + i] := by
  rcases h with h | h
  · by_cases hbad : ¬HeapOk cfg env k ∨ Rejected cfg stringToTime env reads k
    · exact Or.inl (Or.inr (h.receive_stop hk hne hbad))
    · push Not at hbad
      have hsearch := h.receive_search hk hne hbad.1 hbad.2
      cases hfind : memmem (window reads k) headerString with
      | none => exact Or.inl (Or.inl (hsearch.1 hfind))
      | some i =>
        obtain ⟨st₁, hopen, hreceive⟩ := hsearch.2 i hfind
        refine Or.inr ⟨i, rfl, ?_⟩
        rw [hreceive]
        rw [restoreBuffer_syncedAt, hopen.syncedAt]
  · rw [receive_stopped h.stopped]
    exact Or.inl (Or.inr h)

lemma stateAfter_unseen (hne : ∀ r ∈ reads, r ≠ []) (hseen : ¬TitleSeen reads text)
    (hk : k ≤ reads.length) :
    (Waiting reads ms k (stateAfter cfg stringToTime env reads k) ∨
      Stopped ms (stateAfter cfg stringToTime env reads k)) ∨
    ∃ p l, (stateAfter cfg stringToTime env reads k).syncedAt = p :: l ∧ p ≠ text.length := by
  induction k with
  | zero => exact Or.inl (Or.inl waiting_start)
  | succ k ih =>
    rw [stateAfter_succ hk]
    rcases ih (by omega) with h | ⟨p, l, hsynced, hp⟩
    · rcases receive_idle hk (hne _ (List.getElem_mem hk)) h with h' | ⟨i, hfind, hsynced⟩
      · exact Or.inl h'
      · refine Or.inr ⟨_, [], hsynced, ?_⟩
        intro heq
        have hocc := ((memmem_eq_some title_ne_nil).mp hfind).1
        have hend := (occursAt_window hocc).2
        exact hseen ⟨k, hk, by omega, by omega⟩
    · have hprefix : (stateAfter cfg stringToTime env reads k).syncedAt <+:
          (receive cfg stringToTime (env k) (stateAfter cfg stringToTime env reads k)
            reads[k]).syncedAt := receive_syncedAt _ _ _
      obtain ⟨l', hl'⟩ := hprefix
      refine Or.inr ⟨p, l ++ l', ?_, hp⟩
      rw [← hl', hsynced, List.cons_append]

lemma stateAfter_no_blocks (hflat : reads.flatten = text) (hne : ∀ r ∈ reads, r ≠ [])
    (htext : ∀ i, ¬OccursAt headerString text i) (hk : k ≤ reads.length) :
    Waiting reads [] k (stateAfter cfg stringToTime env reads k) ∨
      Stopped [] (stateAfter cfg stringToTime env reads k) := by
  induction k with
  | zero => exact Or.inl waiting_start
  | succ k ih =>
    rw [stateAfter_succ hk]
    rcases receive_idle hk (hne _ (List.getElem_mem hk)) (ih (by omega)) with h | ⟨i, hfind, -⟩
    · exact h
    · have hnone : memmem (window reads k) headerString = none := by
        have hflat' : reads.flatten = text ++ stream {} [] := by simp [hflat, stream, wires]
        exact window_no_title hflat' htext (fun h => absurd rfl h)
      rw [hnone] at hfind
      cases hfind

end Runs

/-- **Synchronisation.** For every stream of handshake texts and save buffers and every division
of it into reads, the receiver synchronises at the first title and restores every block exactly
when two consecutive reads hold the title, the heap never is almost full and the time that the
receiver reads from the windows before the title is accepted. -/
theorem receive_synchronised_iff (cfg : ReceiverConfig) (stringToTime : Bytes → Int)
    (env : Nat → ReadEnv) (text : Bytes) (ms : List SentBlock) (reads : List Bytes)
    (htext : ∀ i, ¬OccursAt headerString text i)
    (hflat : reads.flatten = text ++ stream cfg.toConfig ms)
    (hreads : ∀ r ∈ reads, 1 ≤ r.length ∧ r.length ≤ 1000)
    (hr : Receivable cfg env reads text ms) :
    Synchronised text ms (receiveFrom cfg stringToTime env 0 {} reads) ↔
      ms = [] ∨ (TitleSeen reads text ∧
        ∀ k < reads.length, HeapOk cfg env k ∧ TimeOk cfg stringToTime env reads text k) := by
  have hne : ∀ r ∈ reads, r ≠ [] := by
    intro r hmem
    exact List.length_pos_iff.mp (hreads r hmem).1
  rw [← stateAfter_length]
  by_cases hms : ms = []
  · subst hms
    refine iff_of_true ?_ (Or.inl rfl)
    have hflat' : reads.flatten = text := by simpa [stream, wires] using hflat
    rcases stateAfter_no_blocks hflat' hne htext le_rfl with h | h
    · exact ⟨h.syncedAt, h.syncBeginBlock, h.delivered.restored, h.delivered.pushed⟩
    · exact ⟨h.syncedAt, h.syncBeginBlock, h.delivered.restored, h.delivered.pushed⟩
  rw [or_iff_right hms]
  by_cases hseen : TitleSeen reads text
  · rw [and_iff_right hseen]
    constructor
    · intro hsync
      by_contra hbad
      push Not at hbad
      classical
      have hex : ∃ k, k < reads.length ∧
          ¬(HeapOk cfg env k ∧ TimeOk cfg stringToTime env reads text k) := by
        obtain ⟨k, hk, hb⟩ := hbad
        exact ⟨k, hk, fun h => hb h.1 h.2⟩
      obtain ⟨hk, hb⟩ := Nat.find_spec hex
      have hbefore : ∀ j < Nat.find hex,
          HeapOk cfg env j ∧ TimeOk cfg stringToTime env reads text j := by
        intro j hj
        have hmin := Nat.find_min hex hj
        by_contra hno
        exact hmin ⟨by omega, hno⟩
      have hgood := stateAfter_good hr hms hflat htext hseen hne hk.le hbefore
      obtain ⟨hstop, hnot⟩ := hgood.stop hflat hms hk hne hb
      rw [← stateAfter_succ hk] at hstop hnot
      rw [stateAfter_stopped hstop hk le_rfl] at hsync
      exact hnot hsync
    · intro hok
      rcases stateAfter_good hr hms hflat htext hseen hne le_rfl hok with ⟨hlt, -⟩ | ⟨i, h⟩
      · obtain ⟨n, hn, -, hend⟩ := hseen
        have := cut_mono reads (show n + 1 ≤ reads.length by omega)
        omega
      · have hh := h.holding
        have hend : cut reads reads.length - text.length = (stream cfg.toConfig ms).length := by
          rw [cut_length, hflat, List.length_append, Nat.add_sub_cancel_left]
        rw [hend] at hh
        have hi : i = ms.length := hh.all_restored
        have hd := h.delivered
        refine ⟨?_, ?_, ?_, ?_⟩
        · rw [h.syncedAt, if_neg hms]
        · rw [h.syncBeginBlock]
          simp [hms]
        · rw [hd.restored, hi, List.take_length]
        · rw [hd.pushed, hi, List.take_length]
  · refine iff_of_false ?_ (fun h => hseen h.1)
    intro hsync
    have hs := hsync.syncedAt
    rw [if_neg hms] at hs
    have hunseen : (Waiting reads ms reads.length
          (stateAfter cfg stringToTime env reads reads.length) ∨
        Stopped ms (stateAfter cfg stringToTime env reads reads.length)) ∨
        ∃ p l, (stateAfter cfg stringToTime env reads reads.length).syncedAt = p :: l ∧
          p ≠ text.length := stateAfter_unseen hne hseen le_rfl
    rcases hunseen with (h | h) | ⟨p, l, hsynced, hp⟩
    · rw [h.syncedAt] at hs
      cases hs
    · rw [h.syncedAt] at hs
      cases hs
    · rw [hsynced] at hs
      exact hp (List.cons.inj hs).1

def quietEnv : ReadEnv := { time := 1000, clock := fun _ => 1000 }

/-- The handshake `sensor_id_name: 1:a` and `sensor_time: 5`, each with its null byte. -/
def handshake : Bytes :=
  sensorIdNameString ++ [49, 58, 97, 0] ++ (sensorTimeString ++ [53, 0])

lemma handshake_no_title (i : Nat) : ¬OccursAt headerString handshake i :=
  (memmem_eq_none title_ne_nil).mp (by decide +kernel) i

lemma receivable_smallBlock {reads : List Bytes}
    (hflat : reads.flatten = handshake ++ stream {} [smallBlock 1 (by decide)]) :
    Receivable {} (fun _ => quietEnv) reads handshake [smallBlock 1 (by decide)] where
  offsets := by decide
  headers := by decide
  wire := by decide +kernel
  fits i _ k _ _ _ := by
    have hcut := cut_le_length reads (k + 1)
    have hlen : (handshake ++ stream {} [smallBlock 1 (by decide)]).length ≤ 1024 * 1024 * 10 := by
      decide +kernel
    rw [hflat] at hcut
    change _ ≤ 1024 * 1024 * 10
    omega
  accepted i hi k _ _ _ o := by
    have h : timeDiff 1000 1000 ≤ 30 := by decide
    match i, hi with
    | 0, _ => exact h
  sendOk _ _ := rfl

theorem receive_synchronised_iff_example :
    let s := handshake ++ stream {} [smallBlock 1 (by decide)]
    Synchronised handshake [smallBlock 1 (by decide)]
      (receiveFrom {} (fun _ => 999) (fun _ => quietEnv) 0 {} [part s 0 40, part s 40 60,
        part s 60 106]) := by
  intro s
  have hflat : [part s 0 40, part s 40 60, part s 60 106].flatten = s := by decide +kernel
  refine (receive_synchronised_iff {} (fun _ => 999) (fun _ => quietEnv) handshake
    [smallBlock 1 (by decide)] _ handshake_no_title hflat (by decide +kernel)
    (receivable_smallBlock hflat)).mpr (Or.inr ⟨⟨1, by decide +kernel⟩, ?_⟩)
  intro k hk
  have hheap : quietEnv.heapPerc ≤ 90 := by decide +kernel
  refine ⟨Or.inr hheap, ?_⟩
  unfold TimeOk
  match k with
  | 0 => decide +kernel
  | 1 => decide +kernel
  | 2 => decide +kernel

/-- When the same stream comes in reads of one byte each, the receiver never sees the title and
the block is lost. -/
theorem receive_title_split :
    let ms := [smallBlock 1 (by decide)]
    let reads := (handshake ++ stream {} ms).map (fun c => [c])
    (∀ i, ¬OccursAt headerString handshake i) ∧ (∀ r ∈ reads, 1 ≤ r.length ∧ r.length ≤ 1000) ∧
      Receivable {} (fun _ => quietEnv) reads handshake ms ∧
      (receiveFrom {} (fun _ => 999) (fun _ => quietEnv) 0 {} reads).connection.restored = [] ∧
      ¬Synchronised handshake ms
        (receiveFrom {} (fun _ => 999) (fun _ => quietEnv) 0 {} reads) := by
  intro ms reads
  have hnone : (receiveFrom {} (fun _ => 999) (fun _ => quietEnv) 0 {} reads).connection.restored =
      [] := by decide +kernel
  have hflat : reads.flatten = handshake ++ stream {} ms := by
    rw [← List.flatMap_def, List.flatMap_singleton']
  refine ⟨handshake_no_title, ?_, receivable_smallBlock hflat, hnone, ?_⟩
  · intro r hr
    obtain ⟨c, -, rfl⟩ := List.mem_map.mp hr
    simp
  · intro hsync
    have h := hsync.restored
    rw [hnone] at h
    cases h

end VoipMonitor.BlockStore
