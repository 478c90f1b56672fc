import VoipMonitor.Proofs.BlockStream

/-!
# Delivery of mirrored blocks

Every block whose call has returned was pushed exactly once and in order, in every run in which
a call begins only when no copy of a block and no `block_ok` is still under way, and a new
connection is opened only for a block that was not pushed yet.
-/

namespace VoipMonitor.BlockStore
open VoipMonitor.Library

/-- A save buffer as a message does what its bytes do: the receiver that has synchronised hands
the restored block to `acceptBlock` and sends the text of an error. -/
theorem restoreBuffer_message {cfg : ReceiverConfig} {env : ReadEnv} {st : Receiver} (m : SentBlock)
    (id : Nat) (hcfg : cfg.mirrorRequireConfirmation = true)
    (hempty : st.blockStore.restoreBuffer = [])
    (hmax : (m.wire cfg.toConfig).length ≤ cfg.blockMaxSize * 10)
    (hacc : m.Accepted cfg.toConfig (env.clock 0)) :
    (restoreBuffer cfg env st (m.wire cfg.toConfig)).connection =
      (let r := acceptBlock (env.sendOk (m.wire cfg.toConfig).length) st.connection
        (Message.store ⟨id, m.content, m.counter⟩)
      match r.2 with
      | .ok _ => r.1
      | .error error => { r.1 with sent := r.1.sent ++ [error] }) := by
  have hlen := m.wire_length_ge cfg.toConfig
  have hrb : st.blockStore.restoreBuffer = seenBuffer false [] := hempty
  have hpart : (m.wire cfg.toConfig).drop ((some 0).getD 0) = m.wire cfg.toConfig := rfl
  obtain ⟨store, hcall, hcontent, hconfirm, hrest⟩ := addRestoreChunk_restore (t := []) hrb hpart
    (by rw [← List.length_pos_iff]; omega) (by simp) (by simp; omega) (by simpa using hmax)
    (fun _ _ _ => hacc)
  have hstore : store = Message.store ⟨id, m.content, m.counter⟩ := by
    obtain ⟨content, confirm, rb⟩ := store
    dsimp only at hcontent hconfirm hrest
    rw [hcontent, hconfirm, hcfg, hrest]
    rfl
  rw [hstore, List.length_nil, Nat.sub_zero, Option.map_some] at hcall
  obtain ⟨n, hn⟩ : ∃ n, (m.wire cfg.toConfig).length = n + 1 := ⟨_, (Nat.succ_pred (by omega)).symm⟩
  have hloop : ∃ l outcome, restoreLoop cfg.toConfig env.clock
        (fun o => acceptBlock (env.sendOk o)) (m.wire cfg.toConfig) (m.wire cfg.toConfig).length
        { store := st.blockStore, ext := st.connection, countErrors := st.countErrors } =
        (l, outcome) ∧
      l.ext = (acceptBlock (env.sendOk (m.wire cfg.toConfig).length) st.connection
        (Message.store ⟨id, m.content, m.counter⟩)).1 ∧
      outcome = (match (acceptBlock (env.sendOk (m.wire cfg.toConfig).length) st.connection
        (Message.store ⟨id, m.content, m.counter⟩)).2 with
        | .ok _ => .done
        | .error error => .failed error) := by
    rw [hn, restoreLoop, if_pos (by dsimp only; omega)]
    dsimp only
    rw [hcall]
    dsimp only
    rw [if_pos (by decide), Option.getD_some, hn]
    cases acceptBlock (env.sendOk (n + 1)) st.connection
        (Message.store ⟨id, m.content, m.counter⟩) with
    | mk c r =>
      cases r with
      | ok b => exact ⟨_, _, restoreLoop_done n (by dsimp only; omega), rfl, rfl⟩
      | error e => exact ⟨_, _, rfl, rfl, rfl⟩
  obtain ⟨l, outcome, hloop, hext, houtcome⟩ := hloop
  unfold restoreBuffer
  rw [hloop]
  dsimp only
  rw [← hext]
  cases hr : (acceptBlock (env.sendOk (m.wire cfg.toConfig).length) st.connection
      (Message.store ⟨id, m.content, m.counter⟩)).2 with
  | ok b =>
    rw [hr] at houtcome
    rw [houtcome]
  | error e =>
    rw [hr] at houtcome
    rw [houtcome]
    rfl

/-- The blocks whose calls have returned, in the order of the calls, are the blocks pushed, less
those whose calls are still running. -/
structure DeliveredOnce (s : MirrorState) : Prop where
  ordered : s.returned.Pairwise (fun m m' => m.id < m'.id)
  pushed : s.queue.filter (fun m => decide (m ∈ s.returned)) = s.returned

/-- The condition on a step. A block may be written again while its copies are under way. -/
def Undisturbed (s : MirrorState) : MirrorAct → Prop
  | .start _ => s.link.messages = [] ∧ .blockOk ∉ s.link.answers
  | .reconnect _ => s.link.messages = [] ∧
      ∀ m, s.pending = some m → m ∉ s.queue ∧ m.counter ≠ 0
  | _ => True

/-- The states of the runs all of whose steps meet the condition. -/
def UndisturbedRun : MirrorState → Prop := ReachBy mirrorStep Undisturbed {}

/-! ## What a restored block does -/

section Receive
variable {c : Connection}

lemma receiveMessage_cases (sendOk : Bool) (m : Message)
    (hc : c.requireConfirmation.getD true = true) :
    ((receiveMessage sendOk c m).1.requireConfirmation.getD true = true) ∧
    (((receiveMessage sendOk c m).2.1 = [.blockOk] ∧
        (receiveMessage sendOk c m).1.blockCounter = m.counter ∧
        (receiveMessage sendOk c m).2.2 = decide (c.blockCounter ≠ m.counter)) ∨
      (∃ text, (receiveMessage sendOk c m).2.1 = [.error text] ∧
        (receiveMessage sendOk c m).1.blockCounter = c.blockCounter ∧
        (receiveMessage sendOk c m).2.2 = false)) := by
  have hconfirm : c.requireConfirmation.getD m.store.requireConfirmation = true := hc
  unfold receiveMessage acceptBlock
  by_cases hoffsets : checkOffsets m.store.toBlockContent = false
  · rw [if_pos hoffsets]
    exact ⟨hc, Or.inr ⟨_, rfl, rfl, rfl⟩⟩
  rw [if_neg hoffsets]
  cases hheaders : (if m.store.sizeCompress = 0 then checkHeaders m.store.toBlockContent
      else none) with
  | some error => exact ⟨hc, Or.inr ⟨_, rfl, rfl, rfl⟩⟩
  | none =>
    rw [hconfirm]
    by_cases hsend : sendOk = false
    · rw [if_pos ⟨rfl, hsend⟩]
      exact ⟨rfl, Or.inr ⟨_, rfl, rfl, rfl⟩⟩
    · rw [if_neg (fun h => hsend h.2)]
      by_cases hrepeat : c.blockCounter = m.store.blockCounter
      · rw [if_pos hrepeat]
        have hcounter : c.blockCounter = m.counter := hrepeat
        refine ⟨rfl, Or.inl ⟨rfl, hcounter, ?_⟩⟩
        simp [hcounter]
      · rw [if_neg hrepeat]
        have hcounter : c.blockCounter ≠ m.counter := hrepeat
        refine ⟨rfl, Or.inl ⟨rfl, rfl, ?_⟩⟩
        simp [hcounter]

end Receive

/-! ## The invariant -/

/-- What is still under way between two calls are copies of the block pushed last. -/
structure BetweenCalls (s : MirrorState) : Prop where
  messages : ∀ x ∈ s.link.messages, x.counter = s.link.connection.blockCounter
  queue : s.queue = s.returned
  counter : s.link.connection.blockCounter = s.blockCounter

/-- During the call for `m` only copies of it are under way. The block was pushed exactly if the
connection has its counter, and only then a `block_ok` is under way. -/
structure DuringCall (s : MirrorState) (m : Message) : Prop where
  counter : m.counter = s.blockCounter
  id_lt : m.id < s.nextId
  fresh : ∀ x ∈ s.returned, x.id < m.id
  messages : ∀ x ∈ s.link.messages, x = m
  pushed : (s.link.connection.blockCounter = m.counter ∧ s.queue = s.returned ++ [m]) ∨
    (s.link.connection.blockCounter ≠ m.counter ∧ s.queue = s.returned ∧
      .blockOk ∉ s.link.answers)

structure MirrorInv (s : MirrorState) : Prop where
  old : ∀ l ∈ s.oldLinks, l.messages = []
  ordered : s.returned.Pairwise (fun m m' => m.id < m'.id)
  ids : ∀ x ∈ s.returned, x.id < s.nextId
  confirm : s.link.connection.requireConfirmation.getD true = true
  between : s.pending = none → BetweenCalls s
  during : ∀ m, s.pending = some m → DuringCall s m

variable {s s' : MirrorState}

lemma mirrorInv_initial : MirrorInv {} where
  old := by simp
  ordered := List.Pairwise.nil
  ids := by simp
  confirm := rfl
  between _ := ⟨by simp, rfl, rfl⟩
  during _ h := by cases h

lemma MirrorInv.start (h : MirrorInv s) {content : BlockContent} (hok : Undisturbed s (.start content))
    (hstep : mirrorStep s (.start content) = some s') : MirrorInv s' := by
  rw [mirrorStep] at hstep
  by_cases hp : s.pending.isSome = true
  · rw [if_pos hp] at hstep
    cases hstep
  rw [if_neg hp] at hstep
  have hnone : s.pending = none := by simpa using hp
  have hb := h.between hnone
  obtain ⟨hmessages, hanswers⟩ := hok
  cases hstep
  refine ⟨h.old, h.ordered, ?_, h.confirm, (fun hc => by cases hc), ?_⟩
  · intro x hx
    exact Nat.lt_succ_of_lt (h.ids x hx)
  · intro m hm
    cases hm
    refine ⟨rfl, Nat.lt_succ_self _, h.ids, ?_, Or.inr ⟨?_, hb.queue, hanswers⟩⟩
    · intro x hx
      rw [hmessages] at hx
      cases hx
    · change s.link.connection.blockCounter ≠ (s.blockCounter + 1) % 2 ^ 32
      rw [hb.counter]
      omega

lemma mirrorStep_write (hstep : mirrorStep s .write = some s') :
    ∃ m, s.pending = some m ∧ s' =
      { s with
        link := { s.link with messages := s.link.messages ++ [m] }
        writing := false } := by
  rw [mirrorStep] at hstep
  split at hstep
  · rename_i m hm _
    cases hstep
    exact ⟨m, hm, rfl⟩
  · cases hstep

lemma mirrorStep_reconnect {whole : Bool} (hstep : mirrorStep s (.reconnect whole) = some s') :
    ∃ m, s.pending = some m ∧ s' =
      { s with
        oldLinks := s.link :: s.oldLinks
        link := { messages := if whole then [m] else [] }
        writing := false } := by
  rw [mirrorStep] at hstep
  split at hstep
  · rename_i m hm _
    cases hstep
    exact ⟨m, hm, rfl⟩
  · cases hstep

lemma MirrorInv.write (h : MirrorInv s) (hstep : mirrorStep s .write = some s') : MirrorInv s' := by
  obtain ⟨m, hm, rfl⟩ := mirrorStep_write hstep
  have hd := h.during m hm
  refine ⟨h.old, h.ordered, h.ids, h.confirm, ?_, ?_⟩
  · intro hnone
    rw [hm] at hnone
    cases hnone
  · intro m' hm'
    obtain rfl : m = m' := by
      rw [hm] at hm'
      exact Option.some.inj hm'
    refine ⟨hd.counter, hd.id_lt, hd.fresh, ?_, hd.pushed⟩
    intro x hx
    rcases List.mem_append.mp hx with hx | hx
    · exact hd.messages x hx
    · exact List.mem_singleton.mp hx

lemma MirrorInv.reconnect (h : MirrorInv s) {whole : Bool} (hok : Undisturbed s (.reconnect whole))
    (hstep : mirrorStep s (.reconnect whole) = some s') : MirrorInv s' := by
  obtain ⟨m, hm, rfl⟩ := mirrorStep_reconnect hstep
  obtain ⟨hmessages, hpending⟩ := hok
  obtain ⟨hqueue, hcounter⟩ := hpending m hm
  have hd := h.during m hm
  refine ⟨?_, h.ordered, h.ids, rfl, ?_, ?_⟩
  · intro l hl
    rcases List.mem_cons.mp hl with rfl | hl
    · exact hmessages
    · exact h.old l hl
  · intro hnone
    rw [hm] at hnone
    cases hnone
  · intro m' hm'
    obtain rfl : m = m' := by
      rw [hm] at hm'
      exact Option.some.inj hm'
    have hnot : s.queue = s.returned := by
      rcases hd.pushed with ⟨-, hq⟩ | ⟨-, hq, -⟩
      · rw [hq] at hqueue
        simp at hqueue
      · exact hq
    refine ⟨hd.counter, hd.id_lt, hd.fresh, ?_, Or.inr ⟨hcounter.symm, hnot, by simp⟩⟩
    intro x hx
    cases whole
    · simp at hx
    · simpa using hx

lemma MirrorInv.changeLink (h : MirrorInv s) {messages : List Message} {answers : List Answer}
    (hsub : messages.Sublist s.link.messages) (hok : .blockOk ∉ answers) :
    MirrorInv { s with link :=
      { s.link with messages := messages, answers := s.link.answers ++ answers } } := by
  refine ⟨h.old, h.ordered, h.ids, h.confirm, ?_, ?_⟩
  · intro hnone
    have hb := h.between hnone
    exact ⟨fun x hx => hb.messages x (hsub.subset hx), hb.queue, hb.counter⟩
  · intro m hm
    have hd := h.during m hm
    refine ⟨hd.counter, hd.id_lt, hd.fresh, fun x hx => hd.messages x (hsub.subset hx), ?_⟩
    rcases hd.pushed with hp | ⟨hne, hq, hno⟩
    · exact Or.inl hp
    · refine Or.inr ⟨hne, hq, ?_⟩
      intro hmem
      rcases List.mem_append.mp hmem with hmem | hmem
      · exact hno hmem
      · exact hok hmem

lemma MirrorInv.refuse (h : MirrorInv s) {errorCode : Int}
    (hstep : mirrorStep s (.refuse errorCode) = some s') : MirrorInv s' := by
  rw [mirrorStep] at hstep
  split at hstep
  · cases hstep
  · rename_i messages hmessages
    cases hstep
    refine h.changeLink ?_ (by simp)
    rw [hmessages]
    exact List.sublist_cons_self _ _

lemma MirrorInv.lose (h : MirrorInv s) (hstep : mirrorStep s .lose = some s') : MirrorInv s' := by
  rw [mirrorStep] at hstep
  split at hstep
  · cases hstep
  · rename_i messages hmessages
    cases hstep
    have hsub : messages.Sublist s.link.messages := by
      rw [hmessages]
      exact List.sublist_cons_self _ _
    have hl := h.changeLink hsub (List.not_mem_nil (a := Answer.blockOk))
    rwa [List.append_nil] at hl

lemma MirrorInv.complain (h : MirrorInv s) {errorCode : Int}
    (hstep : mirrorStep s (.complain errorCode) = some s') : MirrorInv s' := by
  rw [mirrorStep] at hstep
  cases hstep
  exact h.changeLink (List.Sublist.refl _) (by simp)

lemma MirrorInv.noAnswer (h : MirrorInv s) (hstep : mirrorStep s .noAnswer = some s') :
    MirrorInv s' := by
  rw [mirrorStep] at hstep
  split at hstep
  · cases hstep
    refine ⟨h.old, h.ordered, h.ids, h.confirm, fun hn => ?_, fun m hm => ?_⟩
    · have hb := h.between hn
      exact ⟨hb.messages, hb.queue, hb.counter⟩
    · have hd := h.during m hm
      exact ⟨hd.counter, hd.id_lt, hd.fresh, hd.messages, hd.pushed⟩
  · cases hstep

lemma Link.receive_eq {l l' : Link} {sendOk : Bool} {pushed : List Message}
    (hr : l.receive sendOk = some (l', pushed)) :
    ∃ m messages, l.messages = m :: messages ∧
      l' = { messages := messages
             answers := l.answers ++ (receiveMessage sendOk l.connection m).2.1
             connection := (receiveMessage sendOk l.connection m).1 } ∧
      pushed = if (receiveMessage sendOk l.connection m).2.2 then [m] else [] := by
  unfold Link.receive at hr
  split at hr
  · cases hr
  · rename_i m messages hm
    cases hr
    exact ⟨m, messages, hm, rfl, rfl⟩

lemma MirrorInv.receive (h : MirrorInv s) {sendOk : Bool}
    (hstep : mirrorStep s (.receive sendOk) = some s') : MirrorInv s' := by
  rw [mirrorStep, Option.map_eq_some_iff] at hstep
  obtain ⟨⟨l', pushed⟩, hr, rfl⟩ := hstep
  obtain ⟨m, messages, hmessages, rfl, rfl⟩ := Link.receive_eq hr
  obtain ⟨hconfirm, hcases⟩ := receiveMessage_cases sendOk m h.confirm
  have hfirst : m ∈ s.link.messages := by
    rw [hmessages]
    exact List.mem_cons_self
  have hrest : ∀ x ∈ messages, x ∈ s.link.messages := by
    intro x hx
    rw [hmessages]
    exact List.mem_cons_of_mem m hx
  refine ⟨h.old, h.ordered, h.ids, hconfirm, ?_, ?_⟩
  · -- a copy of the block pushed last is recognised by its counter
    intro hnone
    have hb := h.between hnone
    have hsame := hb.messages m hfirst
    have hkeep : (receiveMessage sendOk s.link.connection m).1.blockCounter =
          s.link.connection.blockCounter ∧
        (receiveMessage sendOk s.link.connection m).2.2 = false := by
      rcases hcases with ⟨-, hcounter, hpush⟩ | ⟨text, -, hcounter, hpush⟩
      · refine ⟨hcounter.trans hsame, ?_⟩
        rw [hpush, hsame]
        simp
      · exact ⟨hcounter, hpush⟩
    refine ⟨?_, ?_, hkeep.1.trans hb.counter⟩
    · intro x hx
      exact (hb.messages x (hrest x hx)).trans hkeep.1.symm
    · simp [hkeep.2, hb.queue]
  · intro m' hm'
    have hd := h.during m' hm'
    obtain rfl : m = m' := hd.messages m hfirst
    refine ⟨hd.counter, hd.id_lt, hd.fresh, fun x hx => hd.messages x (hrest x hx), ?_⟩
    rcases hcases with ⟨hans, hcounter, hpush⟩ | ⟨text, hans, hcounter, hpush⟩
    · refine Or.inl ⟨hcounter, ?_⟩
      rw [hpush]
      rcases hd.pushed with ⟨heq, hq⟩ | ⟨hne, hq, -⟩
      · simp [heq, hq]
      · simp [hne, hq]
    · rw [hpush, hcounter, hans]
      rcases hd.pushed with ⟨heq, hq⟩ | ⟨hne, hq, hno⟩
      · refine Or.inl ⟨heq, ?_⟩
        simp [hq]
      · refine Or.inr ⟨hne, ?_, ?_⟩
        · simp [hq]
        · simpa using hno

lemma MirrorInv.receiveOld (h : MirrorInv s) {i : Nat} {sendOk : Bool} :
    mirrorStep s (.receiveOld i sendOk) = none := by
  rw [mirrorStep]
  split
  · rfl
  · rename_i l hl
    have hempty := h.old l (List.mem_of_getElem? hl)
    rw [Link.receive, hempty]
    rfl

lemma MirrorInv.read (h : MirrorInv s) {n : Nat} (hstep : mirrorStep s (.read n) = some s') :
    MirrorInv s' := by
  rw [mirrorStep] at hstep
  split at hstep
  · rename_i m answer answers hm hwriting hanswers
    have hd := h.during m hm
    by_cases hans : answer = .blockOk
    · rw [if_pos hans] at hstep
      subst hans
      cases hstep
      have hpushed : s.link.connection.blockCounter = m.counter ∧ s.queue = s.returned ++ [m] := by
        rcases hd.pushed with hp | ⟨-, -, hno⟩
        · exact hp
        · rw [hanswers] at hno
          exact absurd List.mem_cons_self hno
      refine ⟨h.old, ?_, ?_, h.confirm, ?_, (fun m hm => by cases hm)⟩
      · refine List.pairwise_append.mpr ⟨h.ordered, List.pairwise_singleton _ _, ?_⟩
        intro x hx y hy
        rw [List.mem_singleton.mp hy]
        exact hd.fresh x hx
      · intro x hx
        rcases List.mem_append.mp hx with hx | hx
        · exact h.ids x hx
        · rw [List.mem_singleton.mp hx]
          exact hd.id_lt
      · intro _
        refine ⟨?_, hpushed.2, hpushed.1.trans hd.counter⟩
        intro x hx
        rw [hd.messages x hx]
        exact hpushed.1.symm
    · rw [if_neg hans] at hstep
      cases hstep
      refine ⟨h.old, h.ordered, h.ids, h.confirm, ?_, ?_⟩
      · intro hnone
        change s.pending = none at hnone
        rw [hm] at hnone
        cases hnone
      · intro m' hm'
        obtain rfl : m = m' := by
          rw [hm] at hm'
          exact Option.some.inj hm'
        refine ⟨hd.counter, hd.id_lt, hd.fresh, hd.messages, ?_⟩
        rcases hd.pushed with hp | ⟨hne, hq, hno⟩
        · exact Or.inl hp
        · refine Or.inr ⟨hne, hq, ?_⟩
          intro hmem
          rw [hanswers] at hno
          exact hno (List.mem_cons_of_mem _ (List.mem_of_mem_drop hmem))
  · cases hstep

lemma MirrorInv.step (h : MirrorInv s) {a : MirrorAct} (hok : Undisturbed s a)
    (hstep : mirrorStep s a = some s') : MirrorInv s' := by
  cases a with
  | start content => exact h.start hok hstep
  | write => exact h.write hstep
  | reconnect whole => exact h.reconnect hok hstep
  | receive sendOk => exact h.receive hstep
  | receiveOld i sendOk =>
    rw [h.receiveOld] at hstep
    cases hstep
  | refuse errorCode => exact h.refuse hstep
  | lose => exact h.lose hstep
  | complain errorCode => exact h.complain hstep
  | read n => exact h.read hstep
  | noAnswer => exact h.noAnswer hstep

lemma MirrorInv.deliveredOnce (h : MirrorInv s) : DeliveredOnce s := by
  have hall : s.returned.filter (fun m => decide (m ∈ s.returned)) = s.returned := by
    simp
  refine ⟨h.ordered, ?_⟩
  cases hp : s.pending with
  | none => rw [(h.between hp).queue, hall]
  | some m =>
    have hd := h.during m hp
    have hnot : m ∉ s.returned := by
      intro hmem
      have := hd.fresh m hmem
      omega
    rcases hd.pushed with ⟨-, hq⟩ | ⟨-, hq, -⟩
    · rw [hq, List.filter_append, hall]
      simp [hnot]
    · rw [hq, hall]

lemma UndisturbedRun.inv (h : UndisturbedRun s) : MirrorInv s :=
  ReachBy.invariant mirrorInv_initial (fun _ _ _ hinv hok hstep => hinv.step hok hstep) h

/-- **Exactly once.** In every run in which a call begins only when no copy and no `block_ok` is
under way, and a new connection is opened only for a block that was not pushed yet, every block
whose call has returned was pushed once and in order. -/
theorem mirrored_exactly_once (h : UndisturbedRun s) : DeliveredOnce s :=
  h.inv.deliveredOnce

def goodContent : BlockContent :=
  { size := 1
    count := 1
    offsets := [0]
    block := [7] }

def badContent : BlockContent := { goodContent with offsets := [5] }

theorem mirrored_exactly_once_example :
    ∃ s, mirrorRun {} [.start goodContent, .write, .noAnswer, .write, .receive true, .receive true,
        .read 1] = some s ∧
      s.returned = [⟨0, goodContent, 1⟩] ∧ DeliveredOnce s := by
  refine ⟨_, rfl, by decide, mirrored_exactly_once ?_⟩
  have h₁ : UndisturbedRun _ :=
    ReachBy.initial.step (a := .start goodContent) ⟨rfl, List.not_mem_nil⟩ rfl
  have h₂ : UndisturbedRun _ := h₁.step (a := .write) trivial rfl
  have h₃ : UndisturbedRun _ := h₂.step (a := .noAnswer) trivial rfl
  have h₄ : UndisturbedRun _ := h₃.step (a := .write) trivial rfl
  have h₅ : UndisturbedRun _ := h₄.step (a := .receive true) trivial rfl
  have h₆ : UndisturbedRun _ := h₅.step (a := .receive true) trivial rfl
  exact h₆.step (a := .read 1) trivial rfl

/-- A block whose answer is lost with the connection is pushed twice; and an answer to the second
copy of a block confirms the next block, which the receiver then refuses. -/
theorem mirrored_twice_or_never :
    (∃ s m, mirrorRun {} [.start goodContent, .write, .receive true, .noAnswer, .reconnect true,
        .receive true, .read 0] = some s ∧
      s.returned = [m] ∧ s.queue = [m, m] ∧ ¬DeliveredOnce s) ∧
    (∃ s m m', mirrorRun {} [.start goodContent, .write, .noAnswer, .write, .receive true,
        .receive true, .read 0, .start badContent, .write, .read 0, .receive true] = some s ∧
      s.returned = [m, m'] ∧ s.queue = [m] ∧ ¬DeliveredOnce s) := by
  refine ⟨⟨_, ⟨0, goodContent, 1⟩, rfl, by decide, by decide, ?_⟩,
    ⟨_, ⟨0, goodContent, 1⟩, ⟨1, badContent, 2⟩, rfl, by decide, by decide, ?_⟩⟩
  · intro h
    have hp := h.pushed
    revert hp
    decide
  · intro h
    have hp := h.pushed
    revert hp
    decide

end VoipMonitor.BlockStore
