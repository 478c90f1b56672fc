import VoipMonitor.Model.StoreQueue
import VoipMonitor.Proofs.BlockRestore

/-!
# Writing a block to a file store and reading it back

A block is readable in a store when its save buffer stands at its position. Writing makes a block
readable and keeps the others so; reading a readable block in pieces of 1000 bytes restores it.
-/

namespace VoipMonitor.StoreQueue
open VoipMonitor.Library VoipMonitor.BlockStore

/-- A block that can be read back: the save buffer and what is read with its last piece fit in the
restore buffer. -/
structure Spoolable (cfg : QueueConfig) (b : BlockContent) : Prop where
  storable : Storable b
  fits : (getSizeSaveBuffer b + 999) / 1000 * 1000 ≤ cfg.blockMaxSize * 10

/-- What a file gives back: the counter is cleared, and the confirmation is the configured one. -/
def throughFile (cfg : QueueConfig) (b : PcapBlockStore) : PcapBlockStore :=
  { b with
    blockCounter := 0
    requireConfirmation := cfg.mirrorRequireConfirmation
    restoreBuffer := [] }

/-- What `pop` gives for an accepted block: a block kept in memory is the same. -/
def givenBack (cfg : QueueConfig) (b : PassedBlock) : PassedBlock :=
  { b with store := if b.spooled then throughFile cfg b.store else b.store }

def ReadableAt (cfg : QueueConfig) (f : FileStore) (position : Nat) (b : BlockContent) : Prop :=
  ∃ e : SaveEnv, e.Valid ∧ Spoolable cfg b ∧
    position + getSizeSaveBuffer b ≤ f.fileSize ∧
    slice f.content position (getSizeSaveBuffer b) = getSaveBuffer cfg.toConfig e b 0

structure StoreOk (f : FileStore) : Prop where
  size_le : f.fileSize ≤ f.content.length
  closed_of_full : f.full = true → f.pushOpen = false
  visible_of_closed : f.pushOpen = false → f.visible = f.content.length
  fresh_of_closed : f.full = false → f.pushOpen = false → f.fileSize = 0

section Read
variable {cfg : QueueConfig} {m : SentBlock}

lemma readBlock_wire (hfits : ((m.wire cfg.toConfig).length + 999) / 1000 * 1000 ≤
      cfg.blockMaxSize * 10) (fuel : Nat) (st : PcapBlockStore) (p rest t : Bytes)
    (hst : st.restoreBuffer = p) (hfile : p ++ rest = m.wire cfg.toConfig ++ t)
    (hp : p.length < (m.wire cfg.toConfig).length) (hpieces : p.length % 1000 = 0)
    (hfuel : rest.length < fuel) :
    ∃ st', FileStore.readBlock cfg fuel st rest = (st', 1) ∧ st'.toBlockContent = m.restored ∧
      st'.requireConfirmation = cfg.mirrorRequireConfirmation := by
  induction fuel generalizing st p rest with
  | zero => omega
  | succ fuel ih =>
    have hlength : p.length + rest.length = (m.wire cfg.toConfig).length + t.length := by
      rw [← List.length_append, hfile, List.length_append]
    have hrest : rest ≠ [] := by
      intro h
      rw [h, List.length_nil] at hlength
      omega
    have hpiece : rest.take 1000 ≠ [] := by
      simpa using hrest
    have hpiecelen : (rest.take 1000).length = min 1000 rest.length := List.length_take
    have hpart : (rest.take 1000).drop ((none : Option Nat).getD 0) = rest.take 1000 := rfl
    have hrb : st.restoreBuffer = seenBuffer true p := by
      rw [hst, seenBuffer, if_neg (by simp)]
    have hmax : (p ++ rest.take 1000).length ≤ cfg.toConfig.blockMaxSize * 10 := by
      rw [List.length_append, hpiecelen]
      omega
    have hwhole : (p ++ rest.take 1000) ++ rest.drop 1000 = m.wire cfg.toConfig ++ t := by
      rw [List.append_assoc, List.take_append_drop, hfile]
    rw [FileStore.readBlock, if_neg hrest]
    by_cases hlt : (p ++ rest.take 1000).length < (m.wire cfg.toConfig).length
    · have hprefix : p ++ rest.take 1000 <+: m.wire cfg.toConfig := by
        apply List.prefix_of_prefix_length_le ⟨_, hwhole⟩ (List.prefix_append _ _)
        exact Nat.le_of_lt hlt
      rw [addRestoreChunk_absorb hrb hpart hpiece hprefix hlt hmax (by simp)]
      rw [if_neg (by simp)]
      rw [List.length_append, hpiecelen] at hlt
      apply ih _ (p ++ rest.take 1000) (rest.drop 1000)
      · rw [seenBuffer, if_neg (by simp)]
      · exact hwhole
      · rw [List.length_append, hpiecelen]
        exact hlt
      · rw [List.length_append, hpiecelen]
        omega
      · rw [List.length_drop]
        omega
    · obtain ⟨t', ht'⟩ : ∃ t', p ++ rest.take 1000 = m.wire cfg.toConfig ++ t' := by
        have hprefix : m.wire cfg.toConfig <+: p ++ rest.take 1000 := by
          apply List.prefix_of_prefix_length_le (List.prefix_append _ _) ⟨_, hwhole⟩
          exact Nat.le_of_not_lt hlt
        obtain ⟨t', h⟩ := hprefix
        exact ⟨t', h.symm⟩
      have hacc : true = false → p.length < sizeofHeader →
          sizeofHeader ≤ (p ++ rest.take 1000).length → m.Accepted cfg.toConfig 0 := by simp
      obtain ⟨st', hrestore, hcontent, hconfirm, -⟩ :=
        addRestoreChunk_restore hrb hpart hpiece ht' hp hmax hacc
      rw [hrestore]
      exact ⟨st', by simp, hcontent, hconfirm⟩

lemma flush_file (f : FileStore) (filePosition : Nat) (hclosed : f.pushOpen = false) :
    (f.flush filePosition).content = f.content ∧ (f.flush filePosition).visible = f.visible := by
  unfold FileStore.flush
  split
  · exact ⟨rfl, if_neg (by simp [hclosed])⟩
  · exact ⟨rfl, rfl⟩

lemma pop_readable {f : FileStore} {b : QueuedBlock} {p : PcapBlockStore} (now : Nat)
    (hf : StoreOk f) (hfull : f.full = true) (hid : b.idFileStore ≠ 0)
    (hread : ReadableAt cfg f b.filePosition p.toBlockContent) :
    (f.pop cfg now b).2 = some (throughFile cfg p) := by
  generalize hc : p.toBlockContent = c at hread
  obtain ⟨e, he, hspool, hend, hslice⟩ := hread
  have hclosed := hf.closed_of_full hfull
  have hvisible := hf.visible_of_closed hclosed
  let m : SentBlock := ⟨e, c, 0, he, hspool.storable, by norm_num⟩
  have hlength := m.length_wire cfg.toConfig
  have hfile : f.content.drop b.filePosition =
      m.wire cfg.toConfig ++ f.content.drop (b.filePosition + getSizeSaveBuffer c) := by
    rw [← List.take_append_drop (getSizeSaveBuffer c) (f.content.drop b.filePosition),
      List.drop_drop]
    congr 1
  have hfits : ((m.wire cfg.toConfig).length + 999) / 1000 * 1000 ≤ cfg.blockMaxSize * 10 := by
    rw [hlength]
    exact hspool.fits
  obtain ⟨st, hst, hcontent, hconfirm⟩ := readBlock_wire hfits
    ((f.content.drop b.filePosition).length + 1) (destroyRestoreBuffer b.store) []
    (f.content.drop b.filePosition) _ rfl (by rw [List.nil_append, hfile])
    (by have := m.wire_length_ge cfg.toConfig; rw [List.length_nil]; omega) rfl (by omega)
  have hgiven : destroyRestoreBuffer st = throughFile cfg p := by
    subst hc
    unfold destroyRestoreBuffer throughFile
    rw [hcontent, hconfirm]
    rfl
  rw [← hgiven]
  obtain ⟨hc, hv⟩ := flush_file { f with popOpen := true } b.filePosition hclosed
  have hall : ({ f with popOpen := true }.flush b.filePosition).content.take
      ({ f with popOpen := true }.flush b.filePosition).visible = f.content := by
    rw [hc, hv]
    change f.content.take f.visible = f.content
    rw [hvisible, List.take_length]
  unfold FileStore.pop
  rw [if_neg hid]
  dsimp only
  rw [hall, hst]
  rfl

end Read

structure FileStore.Later (cfg : QueueConfig) (f g : FileStore) : Prop where
  ok : StoreOk g
  id_eq : g.id = f.id
  readable : ∀ position c, ReadableAt cfg f position c → ReadableAt cfg g position c

section Later
variable {cfg : QueueConfig} {f : FileStore}

lemma closePush_later (hf : StoreOk f) :
    FileStore.Later cfg f { f.closePush with full := true } := by
  unfold FileStore.closePush
  split
  · rename_i hopen
    exact ⟨⟨hf.size_le, fun _ => rfl, fun _ => rfl, nofun⟩, rfl, fun _ _ h => h⟩
  · rename_i hopen
    have hclosed : f.pushOpen = false := by simpa using hopen
    exact ⟨⟨hf.size_le, fun _ => hclosed, hf.visible_of_closed, nofun⟩, rfl, fun _ _ h => h⟩

lemma isFull_later (hf : StoreOk f) (now : Nat) (forceSetFull : Bool) :
    FileStore.Later cfg f (f.isFull cfg now forceSetFull).1 := by
  unfold FileStore.isFull
  split
  · exact ⟨hf, rfl, fun _ _ h => h⟩
  · split
    · exact closePush_later hf
    · exact ⟨hf, rfl, fun _ _ h => h⟩

lemma isFull_counts (f : FileStore) (now : Nat) (forceSetFull : Bool) :
    (f.isFull cfg now forceSetFull).1.countPush = f.countPush ∧
      (f.isFull cfg now forceSetFull).1.countPop = f.countPop := by
  unfold FileStore.isFull FileStore.closePush
  split
  · exact ⟨rfl, rfl⟩
  · split
    · split <;> exact ⟨rfl, rfl⟩
    · exact ⟨rfl, rfl⟩

lemma isFull_full (f : FileStore) (now : Nat) (forceSetFull : Bool) :
    (f.isFull cfg now forceSetFull).1.full = (f.isFull cfg now forceSetFull).2 := by
  unfold FileStore.isFull
  split
  · assumption
  · split
    · rfl
    · rename_i h _
      simpa using h

lemma openPush_later (hf : StoreOk f) (hfull : f.full = false) :
    FileStore.Later cfg f f.openPush ∧ f.openPush.pushOpen = true ∧
      f.openPush.countPush = f.countPush ∧ f.openPush.countPop = f.countPop := by
  unfold FileStore.openPush
  split
  · rename_i hopen
    exact ⟨⟨hf, rfl, fun _ _ h => h⟩, hopen, rfl, rfl⟩
  · rename_i hopen
    have hsize : f.fileSize = 0 := hf.fresh_of_closed hfull (by simpa using hopen)
    refine ⟨⟨⟨?_, ?_, nofun, nofun⟩, rfl, ?_⟩, rfl, rfl, rfl⟩
    · change f.fileSize ≤ 0
      omega
    · intro h
      rw [show f.full = true from h] at hfull
      cases hfull
    · rintro position c ⟨e, he, hspool, hend, -⟩
      unfold getSizeSaveBuffer sizeofHeader at hend
      omega

lemma slice_overwrite_end {content written : Bytes} {size position n : Nat}
    (hsize : size ≤ content.length) (h : position + n ≤ size) :
    slice (overwrite content size written) position n = slice content position n := by
  have hbefore : slice (content.take size) position n = slice content position n := by
    unfold slice
    rw [List.drop_take, List.take_take, Nat.min_eq_left (by omega)]
  rw [overwrite, List.append_assoc, slice_append_left (by rw [List.length_take]; omega), hbefore]

lemma slice_overwrite_new {content written : Bytes} {size : Nat} (hsize : size ≤ content.length) :
    slice (overwrite content size written) size written.length = written := by
  have hlen : (content.take size).length = size := by rw [List.length_take]; omega
  have h := slice_append_right (content.take size) (written ++ content.drop (size + written.length))
    0 written.length
  rw [Nat.add_zero, hlen] at h
  rw [overwrite, List.append_assoc, h, slice_append_left (by omega)]
  simp [slice]

lemma length_overwrite_ge {content written : Bytes} {size : Nat} (hsize : size ≤ content.length) :
    size + written.length ≤ (overwrite content size written).length := by
  simp only [overwrite, List.length_append, List.length_take, List.length_drop]
  omega

lemma write_later (hf : StoreOk f) (hopen : f.pushOpen = true) (written : Bytes) (k n : Nat)
    (hn : n ≤ written.length) :
    FileStore.Later cfg f { f with
      content := overwrite f.content f.fileSize written
      fileSize := f.fileSize + n
      countPush := k } := by
  have hlen : f.fileSize + written.length ≤ (overwrite f.content f.fileSize written).length :=
    length_overwrite_ge hf.size_le
  refine ⟨⟨?_, hf.closed_of_full, ?_, ?_⟩, rfl, ?_⟩
  · change f.fileSize + n ≤ (overwrite f.content f.fileSize written).length
    omega
  · intro h
    rw [show f.pushOpen = false from h] at hopen
    cases hopen
  · intro _ h
    rw [show f.pushOpen = false from h] at hopen
    cases hopen
  · rintro position c ⟨e, he, hspool, hend, hslice⟩
    refine ⟨e, he, hspool, ?_, ?_⟩
    · change position + getSizeSaveBuffer c ≤ f.fileSize + n
      omega
    · exact (slice_overwrite_end hf.size_le hend).trans hslice

lemma FileStore.Later.trans {f g h : FileStore} (h1 : FileStore.Later cfg f g)
    (h2 : FileStore.Later cfg g h) : FileStore.Later cfg f h :=
  ⟨h2.ok, h2.id_eq.trans h1.id_eq, fun p c hc => h2.readable p c (h1.readable p c hc)⟩

lemma fwrite_all {room : Option Nat} {bytes : Bytes}
    (h : (FileStore.fwrite room bytes).length = bytes.length) :
    FileStore.fwrite room bytes = bytes := by
  cases room with
  | none => rfl
  | some n =>
    unfold FileStore.fwrite at h ⊢
    rw [List.length_take] at h
    exact List.take_of_length_le (by omega)

lemma push_later (hf : StoreOk f) (hfull : f.full = false) (e : SaveEnv) (room : Option Nat)
    (b : QueuedBlock) :
    FileStore.Later cfg f (f.push cfg e room b).1 ∧
      (f.push cfg e room b).1.countPop = f.countPop ∧
      ((f.push cfg e room b).2 = none ∧ (f.push cfg e room b).1.countPush = f.countPush ∨
        ∃ q, (f.push cfg e room b).2 = some q ∧
          (f.push cfg e room b).1.countPush = f.countPush + 1 ∧ q.idFileStore = f.id ∧
          (e.Valid → Spoolable cfg b.store.toBlockContent → ReadableAt cfg
            (f.push cfg e room b).1 q.filePosition b.store.toBlockContent)) := by
  obtain ⟨hlater, hopen, hpush, hpop⟩ : FileStore.Later cfg f f.openPush ∧ _ :=
    openPush_later hf hfull
  let saveBuffer := getSaveBuffer cfg.toConfig e b.store.toBlockContent 0
  let written := FileStore.fwrite room saveBuffer
  unfold FileStore.push
  by_cases hlen : written.length = saveBuffer.length
  · have hwrite : FileStore.Later cfg f.openPush _ := write_later hlater.ok hopen written
      (f.openPush.countPush + 1) written.length le_rfl
    rw [if_pos hlen]
    refine ⟨hlater.trans hwrite, hpop, Or.inr ⟨_, rfl, congrArg (· + 1) hpush, hlater.id_eq, ?_⟩⟩
    intro he hspool
    have hsave : written.length = getSizeSaveBuffer b.store.toBlockContent := by
      rw [hlen]
      exact length_getSaveBuffer hspool.storable.toValid he (by norm_num)
    refine ⟨e, he, hspool, ?_, ?_⟩
    · change f.openPush.fileSize + getSizeSaveBuffer b.store.toBlockContent ≤
        f.openPush.fileSize + written.length
      omega
    · change slice (overwrite f.openPush.content f.openPush.fileSize written) f.openPush.fileSize
        (getSizeSaveBuffer b.store.toBlockContent) = saveBuffer
      rw [← hsave, slice_overwrite_new hlater.ok.size_le]
      exact fwrite_all hlen
  · have hwrite : FileStore.Later cfg f.openPush _ := write_later hlater.ok hopen written
      f.openPush.countPush 0 (Nat.zero_le _)
    rw [if_neg hlen]
    exact ⟨hlater.trans hwrite, hpop, Or.inl ⟨rfl, hpush⟩⟩

lemma flush_later (hf : StoreOk f) (hfull : f.full = true) (filePosition : Nat) :
    FileStore.Later cfg f (f.flush filePosition) ∧ (f.flush filePosition).full = true ∧
      (f.flush filePosition).countPush = f.countPush ∧
      (f.flush filePosition).countPop = f.countPop := by
  have hclosed := hf.closed_of_full hfull
  unfold FileStore.flush
  split
  · refine ⟨⟨⟨hf.size_le, hf.closed_of_full, ?_, hf.fresh_of_closed⟩, rfl, fun _ _ h => h⟩,
      hfull, rfl, rfl⟩
    intro _
    change (if f.pushOpen then f.content.length else f.visible) = f.content.length
    rw [if_neg (by simp [hclosed])]
    exact hf.visible_of_closed hclosed
  · exact ⟨⟨hf, rfl, fun _ _ h => h⟩, hfull, rfl, rfl⟩

lemma closePop_later (hf : StoreOk f) (now : Nat) :
    FileStore.Later cfg f (f.closePop cfg now) ∧ (f.closePop cfg now).countPush = f.countPush ∧
      (f.closePop cfg now).countPop = f.countPop := by
  have hlater : FileStore.Later cfg f (f.isFull cfg now false).1 := isFull_later hf now false
  obtain ⟨hpush, hpop⟩ : (f.isFull cfg now false).1.countPush = f.countPush ∧ _ :=
    isFull_counts f now false
  have hok := hlater.ok
  unfold FileStore.closePop
  dsimp only
  split
  · split
    · refine ⟨⟨?_, hlater.id_eq, hlater.readable⟩, hpush, hpop⟩
      exact ⟨hok.size_le, hok.closed_of_full, hok.visible_of_closed, hok.fresh_of_closed⟩
    · exact ⟨hlater, hpush, hpop⟩
  · exact ⟨⟨hf, rfl, fun _ _ h => h⟩, rfl, rfl⟩

lemma pop_later (hf : StoreOk f) (hfull : f.full = true) (now : Nat) {b : QueuedBlock}
    (hid : b.idFileStore ≠ 0) :
    FileStore.Later cfg f (f.pop cfg now b).1 ∧
      (f.pop cfg now b).1.countPush = f.countPush ∧
      (f.pop cfg now b).1.countPop = f.countPop + 1 := by
  have hopen : StoreOk { f with popOpen := true } :=
    ⟨hf.size_le, hf.closed_of_full, hf.visible_of_closed, hf.fresh_of_closed⟩
  obtain ⟨hflush, -, hpush, hpop⟩ : FileStore.Later cfg { f with popOpen := true } _ ∧ _ :=
    flush_later hopen hfull b.filePosition
  have hok := hflush.ok
  have hcounted : StoreOk { { f with popOpen := true }.flush b.filePosition with
      countPop := ({ f with popOpen := true }.flush b.filePosition).countPop + 1 } :=
    ⟨hok.size_le, hok.closed_of_full, hok.visible_of_closed, hok.fresh_of_closed⟩
  obtain ⟨hclose, hpush', hpop'⟩ : FileStore.Later cfg _ _ ∧ _ := closePop_later hcounted now
  unfold FileStore.pop
  rw [if_neg hid]
  refine ⟨⟨hclose.ok, hclose.id_eq.trans hflush.id_eq, ?_⟩, hpush'.trans hpush, ?_⟩
  · intro position c hread
    exact hclose.readable position c (hflush.readable position c hread)
  · exact hpop'.trans (congrArg (· + 1) hpop)

end Later

end VoipMonitor.StoreQueue
