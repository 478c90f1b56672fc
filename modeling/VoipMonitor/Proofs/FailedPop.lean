import VoipMonitor.Model.StoreQueue

/-!
# What a failed `pop` leaves to its caller

The pointer is checked by `writeThreadFunction` instead of the result. It is good after every
`pop` as long as the file store of each block is there and gives the block back.
-/

namespace VoipMonitor.StoreQueue
open VoipMonitor.Library VoipMonitor.BlockStore

/-- The pointer of the thread is null or a live block, and so was every one it processed. -/
structure NothingReleased (w : Writer) : Prop where
  blockStore : w.blockStore ≠ some .released
  written : .released ∉ w.written

/-- The bytes that a file store sees of its file from the block's position on restore a block. -/
def FileStore.GivesBack (cfg : QueueConfig) (f : FileStore) (b : QueuedBlock) : Prop :=
  let f := { f with popOpen := true }.flush b.filePosition
  let file := (f.content.take f.visible).drop b.filePosition
  0 < (FileStore.readBlock cfg (file.length + 1) (destroyRestoreBuffer b.store) file).2

/-- The block that `pop` has taken is in memory, or its file store is found and, once it is full,
gives the block back. -/
def TakenAvailable (cfg : QueueConfig) (w : Writer) : Prop :=
  ∀ b, w.queue.popping = some b → b.idFileStore ≠ 0 →
    ∃ f, findFileStoreById w.queue.fileStore b.idFileStore = some f ∧
      (f.full = true → f.GivesBack cfg b)

def Available (cfg : QueueConfig) (w : Writer) : WriterAct → Prop
  | .popReturn _ => w.blockStore = none → TakenAvailable cfg w
  | _ => True

lemma pop_isSome_iff (cfg : QueueConfig) (now : Nat) (f : FileStore) {b : QueuedBlock}
    (hid : b.idFileStore ≠ 0) : (∃ store, (f.pop cfg now b).2 = some store) ↔ f.GivesBack cfg b := by
  unfold FileStore.pop FileStore.GivesBack
  rw [if_neg hid]
  dsimp only
  split
  · rename_i h
    exact ⟨fun _ => h, fun _ => ⟨_, rfl⟩⟩
  · rename_i h
    exact ⟨fun ⟨_, hs⟩ => (by cases hs), fun hs => absurd hs h⟩

lemma popResult_released (cfg : QueueConfig) (now : Nat) (w : Writer) :
    (∀ q ok p, popResult cfg now w.queue = some (q, ok, p) → p ≠ .released) ↔
      TakenAvailable cfg w := by
  unfold popResult TakenAvailable
  cases w.queue.popping with
  | none => exact ⟨fun _ b hb => (by cases hb), fun _ _ _ _ h => (by cases h)⟩
  | some b =>
    dsimp only
    split
    · rename_i hid
      constructor
      · rintro - b' hb hne
        obtain rfl : b = b' := Option.some.inj hb
        exact absurd hid hne
      · rintro - q ok p h
        obtain ⟨-, -, rfl⟩ := Prod.mk.inj (Option.some.inj h) |>.imp id Prod.mk.inj
        exact Pointer.noConfusion
    · rename_i hid
      cases hfind : findFileStoreById w.queue.fileStore b.idFileStore with
      | none =>
        constructor
        · intro h
          exact absurd rfl (h _ _ _ rfl)
        · intro h
          obtain ⟨f, hf, -⟩ := h b rfl hid
          rw [hfind] at hf
          cases hf
      | some f =>
        dsimp only
        split
        · rename_i hfull
          refine ⟨fun _ b' hb _ => ?_, fun _ _ _ _ h => (by cases h)⟩
          obtain rfl : b = b' := Option.some.inj hb
          exact ⟨f, hfind, fun h => absurd h (by rw [hfull]; decide)⟩
        · rename_i hfull
          have hback := pop_isSome_iff cfg now f hid
          cases hpop : (f.pop cfg now b).2 with
          | none =>
            rw [hpop] at hback
            constructor
            · intro h
              exact absurd rfl (h _ _ _ rfl)
            · intro h
              obtain ⟨g, hg, hgives⟩ := h b rfl hid
              obtain rfl : f = g := Option.some.inj (hfind.symm.trans hg)
              obtain ⟨_, hs⟩ := hback.mpr (hgives (by simpa using hfull))
              cases hs
          | some store =>
            constructor
            · intro _ b' hb _
              obtain rfl : b = b' := Option.some.inj hb
              exact ⟨f, hfind, fun _ => hback.mp ⟨store, hpop⟩⟩
            · rintro - q ok p h
              obtain ⟨-, -, rfl⟩ := Prod.mk.inj (Option.some.inj h) |>.imp id Prod.mk.inj
              exact Pointer.noConfusion

lemma NothingReleased.step_iff (cfg : QueueConfig) (w : Writer) (a : WriterAct)
    (h : NothingReleased w) : NothingReleased (writerStep cfg w a) ↔ Available cfg w a := by
  cases a with
  | push e b => exact ⟨fun _ => trivial, fun _ => ⟨h.blockStore, h.written⟩⟩
  | disk id content => exact ⟨fun _ => trivial, fun _ => ⟨h.blockStore, h.written⟩⟩
  | popTake =>
    refine ⟨fun _ => trivial, fun _ => ?_⟩
    simp only [writerStep]
    split
    · exact ⟨h.blockStore, h.written⟩
    · exact h
  | popEmpty =>
    refine ⟨fun _ => trivial, fun _ => ?_⟩
    simp only [writerStep]
    split
    · exact ⟨by simp, h.written⟩
    · exact h
  | write =>
    refine ⟨fun _ => trivial, fun _ => ?_⟩
    simp only [writerStep]
    split
    · exact h
    · exact ⟨by simp, h.written⟩
    · rename_i p hp hpointer
      refine ⟨by simp, ?_⟩
      rw [List.mem_append, List.mem_singleton]
      rintro (hw | rfl)
      · exact h.written hw
      · exact h.blockStore hpointer
  | popReturn now =>
    simp only [Available, writerStep]
    rw [← popResult_released cfg now w]
    cases hb : w.blockStore with
    | some p => exact ⟨fun _ h0 => (by cases h0), fun _ => (by dsimp only; exact h)⟩
    | none =>
      cases hres : popResult cfg now w.queue with
      | none => exact ⟨fun _ _ _ _ _ h0 => (by cases h0), fun _ => h⟩
      | some r =>
        obtain ⟨q, ok, p⟩ := r
        constructor
        · rintro hnext - q' ok' p' hp rfl
          obtain ⟨-, -, rfl⟩ := Prod.mk.inj (Option.some.inj hp) |>.imp id Prod.mk.inj
          exact hnext.blockStore rfl
        · intro hgood
          refine ⟨fun hp => ?_, h.written⟩
          exact hgood rfl q ok p rfl (Option.some.inj hp)

/-- For every run of the queue, the disk and the thread: after every step the pointer is null or
live, and no released block was processed, exactly when each `pop` that returns finds its block
available. -/
theorem popped_never_released_iff (cfg : QueueConfig) (acts : List WriterAct) :
    AlongRun (writerStep cfg) (fun w a => NothingReleased (writerStep cfg w a)) {} acts ↔
      AlongRun (writerStep cfg) (Available cfg) {} acts :=
  alongRun_iff (I := NothingReleased) (fun w a h => h.step_iff cfg w a) (fun _ _ _ h => h) acts
    ⟨by decide, by decide⟩

/-- Two blocks go to disk; the file of the first one is emptied before it is read back. -/
def lostFile : List WriterAct :=
  [.push { memory := false } {}, .push { memory := false } {}, .disk 1 [], .popTake,
    .popReturn 0, .write]

def lostFileConfig : QueueConfig := { fileStoreMaxSize := 0, storeQueueMaxDiskSize := 1000 }

/-- The thread processes the released block. -/
theorem released_block_written :
    ¬AlongRun (writerStep lostFileConfig)
        (fun w a => NothingReleased (writerStep lostFileConfig w a)) {} lostFile ∧
      (lostFile.foldl (writerStep lostFileConfig) {}).written = [.released] := by
  constructor
  · rintro ⟨-, -, -, -, hreturn, -⟩
    exact hreturn.blockStore (by decide +kernel)
  · decide +kernel

end VoipMonitor.StoreQueue
