import VoipMonitor.Model.TarWorker

/-!
# What the chunks hold

The chunks that were freed and those that are still there hold, one after another, what was added.
All of them are full but the last one.
-/

namespace VoipMonitor.Tar
open VoipMonitor.Library

structure Pieces (fixLen : Nat) (pieces : List Bytes) : Prop where
  full : ∀ x ∈ pieces.dropLast, x.length = fixLen
  pos : ∀ x ∈ pieces, 0 < x.length
  le : ∀ x ∈ pieces, x.length ≤ fixLen

def Live (fixLen : Nat) (c : Chunk) (x : Bytes) : Prop :=
  c.len = x.length ∧ ∃ memory, c.chunk = some memory ∧ memory.length = fixLen ∧
    memory.take x.length = x

def freed (x : Bytes) : Chunk := ⟨none, x.length⟩

structure Layout (b : ChunkBuffer) (sent rest : List Bytes) : Prop where
  fixLen_pos : 0 < b.chunkFixLen
  pieces : Pieces b.chunkFixLen (sent ++ rest)
  chunks : ∃ kept, b.chunkBuffer = sent.map freed ++ kept ∧ List.Forall₂ (Live b.chunkFixLen) kept rest
  len : b.len = (sent ++ rest).flatten.length
  proceedLen : b.chunkIterateProceedLen = sent.flatten.length
  small : (sent ++ rest).flatten.length < 2 ^ 31

variable {b : ChunkBuffer} {sent rest : List Bytes}

lemma Layout.new {fixLen : Nat} (h : 0 < fixLen) : Layout (.new fixLen) [] [] :=
  ⟨h, ⟨nofun, nofun, nofun⟩, ⟨[], rfl, .nil⟩, rfl, rfl, by simp⟩

lemma Layout.close (h : Layout b sent rest) : Layout b.close sent rest :=
  ⟨h.fixLen_pos, h.pieces, h.chunks, h.len, h.proceedLen, h.small⟩

/-! ## Lengths -/

lemma length_flatten_of_full {fixLen : Nat} {l : List Bytes} (h : ∀ x ∈ l, x.length = fixLen) :
    l.flatten.length = l.length * fixLen := by
  induction l with
  | nil => simp
  | cons x l ih =>
    rw [List.flatten_cons, List.length_append, ih (fun y hy => h y (List.mem_cons_of_mem _ hy)),
      h x List.mem_cons_self, List.length_cons, Nat.succ_mul, Nat.add_comm]

lemma Pieces.mod {fixLen : Nat} {front : List Bytes} {last : Bytes}
    (h : Pieces fixLen (front ++ [last])) :
    (front ++ [last]).flatten.length % fixLen = last.length % fixLen := by
  have hfront : ∀ x ∈ front, x.length = fixLen := by
    have hfull := h.full
    rwa [List.dropLast_concat] at hfull
  rw [List.flatten_append, List.length_append, length_flatten_of_full hfront, List.flatten_cons,
    List.flatten_nil, List.append_nil, Nat.add_comm, Nat.add_mul_mod_self_right]

lemma Pieces.concat {fixLen : Nat} {l : List Bytes} {x : Bytes} (h : Pieces fixLen l)
    (hlast : ∀ y ∈ l.getLast?, y.length = fixLen) (hpos : 0 < x.length) (hle : x.length ≤ fixLen) :
    Pieces fixLen (l ++ [x]) := by
  refine ⟨?_, ?_, ?_⟩
  · rw [List.dropLast_concat]
    intro y hy
    rcases List.eq_nil_or_concat' l with rfl | ⟨front, last, rfl⟩
    · cases hy
    · rcases List.mem_append.mp hy with hfront | hy
      · have hfull := h.full
        rw [List.dropLast_concat] at hfull
        exact hfull y hfront
      · rw [List.mem_singleton.mp hy]
        exact hlast last (by rw [List.getLast?_concat]; rfl)
  · intro y hy
    rcases List.mem_append.mp hy with hy | hy
    · exact h.pos y hy
    · rwa [List.mem_singleton.mp hy]
  · intro y hy
    rcases List.mem_append.mp hy with hy | hy
    · exact h.le y hy
    · rwa [List.mem_singleton.mp hy]

lemma Pieces.replace {fixLen : Nat} {front : List Bytes} {last x : Bytes}
    (h : Pieces fixLen (front ++ [last])) (hpos : 0 < x.length) (hle : x.length ≤ fixLen) :
    Pieces fixLen (front ++ [x]) := by
  have hfront : ∀ y ∈ front, y.length = fixLen := by
    have hfull := h.full
    rwa [List.dropLast_concat] at hfull
  refine Pieces.concat ⟨fun y hy => hfront y (List.mem_of_mem_dropLast hy),
    fun y hy => h.pos y (List.mem_append_left _ hy), fun y hy => h.le y (List.mem_append_left _ hy)⟩
    (fun y hy => hfront y (List.mem_of_mem_getLast? hy)) hpos hle

/-! ## Adding -/

def Open (sent rest : List Bytes) : Prop := rest = [] → sent = []

lemma Live.write {fixLen : Nat} {c : Chunk} {x data : Bytes} (h : Live fixLen c x)
    (hle : x.length + data.length ≤ fixLen) (hsmall : fixLen < 2 ^ 32) :
    Live fixLen (c.write x.length data) (x ++ data) := by
  obtain ⟨hlen, memory, hchunk, hmemory, htake⟩ := h
  refine ⟨?_, overwrite memory x.length data, ?_, ?_, ?_⟩
  · rw [Chunk.write, hlen, add32_eq (by omega), List.length_append]
  · rw [Chunk.write, hchunk, Option.map_some]
  · rw [length_overwrite (by omega), hmemory]
  · rw [List.length_append]
    exact overwrite_take htake rfl

lemma forall₂_concat {α β : Type} {R : α → β → Prop} {l : List α} {l' : List β} {a : α} {a' : β}
    (h : List.Forall₂ R l l') (ha : R a a') : List.Forall₂ R (l ++ [a]) (l' ++ [a']) :=
  List.rel_append h (.cons ha .nil)

lemma forall₂_of_concat {α β : Type} {R : α → β → Prop} {l : List α} {l' : List β} {a' : β}
    (h : List.Forall₂ R l (l' ++ [a'])) :
    ∃ l₀ a, l = l₀ ++ [a] ∧ List.Forall₂ R l₀ l' ∧ R a a' := by
  induction l' generalizing l with
  | nil =>
    obtain ⟨a, l₀, ha, hnil, rfl⟩ := List.forall₂_cons_right_iff.mp h
    obtain rfl := List.forall₂_nil_right_iff.mp hnil
    exact ⟨[], a, rfl, .nil, ha⟩
  | cons x l' ih =>
    obtain ⟨y, l₀, hy, hrest, rfl⟩ := List.forall₂_cons_right_iff.mp h
    obtain ⟨l₁, a, rfl, hl, ha⟩ := ih hrest
    exact ⟨y :: l₁, a, rfl, .cons hy hl, ha⟩

lemma Layout.of_added {b' : ChunkBuffer} (h : Layout b sent rest) {rest' : List Bytes} {data : Bytes}
    (hfix : b'.chunkFixLen = b.chunkFixLen)
    (hproceed : b'.chunkIterateProceedLen = b.chunkIterateProceedLen)
    (hlen : b'.len = b.len + data.length) (hpieces : Pieces b.chunkFixLen (sent ++ rest'))
    (hchunks : ∃ kept, b'.chunkBuffer = sent.map freed ++ kept ∧
      List.Forall₂ (Live b.chunkFixLen) kept rest')
    (hadded : (sent ++ rest').flatten = (sent ++ rest).flatten ++ data)
    (hsmall : (sent ++ rest).flatten.length + data.length < 2 ^ 31) : Layout b' sent rest' := by
  refine ⟨hfix ▸ h.fixLen_pos, hfix ▸ hpieces, ?_, ?_, hproceed.trans h.proceedLen, ?_⟩
  · rw [hfix]
    exact hchunks
  · rw [hlen, h.len, hadded, List.length_append]
  · rw [hadded, List.length_append]
    exact hsmall

lemma Layout.addRound (h : Layout b sent rest) (hopen : Open sent rest) {data : Bytes}
    (hdata : data ≠ []) (hfix : b.chunkFixLen < 2 ^ 32)
    (hsmall : (sent ++ rest).flatten.length + data.length < 2 ^ 31) :
    ∃ rest', Layout (b.addRound data).1 sent rest' ∧
      (sent ++ rest').flatten = (sent ++ rest).flatten ++ data.take (b.addRound data).2 ∧
      0 < (b.addRound data).2 ∧ rest.dropLast <+: rest'.dropLast ∧ rest' ≠ [] := by
  have hfixLen := h.fixLen_pos
  have hdataPos := List.length_pos_iff.mpr hdata
  have hmodlt := Nat.mod_lt b.len hfixLen
  obtain ⟨n, hn⟩ : ∃ n, n = min (b.chunkFixLen - b.len % b.chunkFixLen) data.length := ⟨_, rfl⟩
  have hround : (b.addRound data).2 = n := hn.symm
  have htake : (data.take n).length = n := by
    rw [List.length_take]
    omega
  obtain ⟨kept, hkept, hlive⟩ := h.chunks
  have hlen := h.len
  have hadd : (b.addRound data).1.len = b.len + n := by
    rw [ChunkBuffer.addRound, ← hn]
    exact add32_eq (by omega)
  rw [hround]
  by_cases hnew : b.len % b.chunkFixLen = 0
  · -- a new chunk
    have hlast : ∀ y ∈ (sent ++ rest).getLast?, y.length = b.chunkFixLen := by
      intro y hy
      rcases List.eq_nil_or_concat' (sent ++ rest) with hnil | ⟨front, last, hsplit⟩
      · rw [hnil] at hy
        cases hy
      · have hpieces := h.pieces
        rw [hsplit] at hpieces hy hlen
        rw [List.getLast?_concat] at hy
        obtain rfl := Option.some.inj hy
        have hmod := hpieces.mod
        rw [← hlen, hnew] at hmod
        have hpos := hpieces.pos last (by simp)
        have hle := hpieces.le last (by simp)
        by_contra hne
        rw [Nat.mod_eq_of_lt (by omega)] at hmod
        omega
    have hchunk : Live b.chunkFixLen
        (Chunk.write 0 (data.take n) ⟨some (List.replicate b.chunkFixLen 0), 0⟩) (data.take n) := by
      have hempty : Live b.chunkFixLen ⟨some (List.replicate b.chunkFixLen 0), 0⟩ [] :=
        ⟨rfl, _, rfl, List.length_replicate, rfl⟩
      exact hempty.write (by rw [htake, List.length_nil]; omega) hfix
    have hadded : (sent ++ (rest ++ [data.take n])).flatten =
        (sent ++ rest).flatten ++ data.take n := by
      rw [← List.append_assoc, List.flatten_concat]
    refine ⟨rest ++ [data.take n], h.of_added rfl rfl ?_ ?_ ?_ hadded (by omega), hadded, by omega, ?_,
      by simp⟩
    · rw [htake]
      exact hadd
    · rw [← List.append_assoc]
      exact h.pieces.concat hlast (by omega) (by omega)
    · refine ⟨kept ++ [_], ?_, forall₂_concat hlive hchunk⟩
      rw [ChunkBuffer.addRound]
      rw [if_pos hnew, ← hn, hnew, List.modifyLast_concat, hkept, List.append_assoc]
    · rw [List.dropLast_concat]
      exact List.dropLast_prefix rest
  · -- the last chunk grows
    obtain ⟨front, last, hsplit⟩ : ∃ front last, rest = front ++ [last] := by
      rcases List.eq_nil_or_concat' rest with hnil | hsplit
      · rw [hopen hnil, hnil] at hlen
        rw [hlen] at hnew
        exact absurd (Nat.zero_mod _) hnew
      · exact hsplit
    have hpieces := h.pieces
    rw [hsplit, ← List.append_assoc] at hpieces
    have hmod := hpieces.mod
    rw [List.append_assoc, ← hsplit, ← hlen] at hmod
    have hle := hpieces.le last (by simp)
    have hoffset : b.len % b.chunkFixLen = last.length := by
      rcases Nat.lt_or_ge last.length b.chunkFixLen with hlt | hge
      · rw [hmod, Nat.mod_eq_of_lt hlt]
      · have heq : last.length = b.chunkFixLen := by omega
        rw [heq, Nat.mod_self] at hmod
        exact absurd hmod hnew
    rw [hsplit] at hlive
    obtain ⟨keptFront, keptLast, hkeptSplit, hfront, hlastLive⟩ := forall₂_of_concat hlive
    have hbound : last.length + (data.take n).length ≤ b.chunkFixLen := by omega
    have hadded : (sent ++ (front ++ [last ++ data.take n])).flatten =
        (sent ++ rest).flatten ++ data.take n := by
      rw [hsplit, ← List.append_assoc, ← List.append_assoc, List.flatten_concat,
        List.flatten_concat, List.append_assoc]
    refine ⟨front ++ [last ++ data.take n], h.of_added rfl rfl ?_ ?_ ?_ hadded (by omega), hadded,
      by omega, ?_, by simp⟩
    · rw [htake]
      exact hadd
    · rw [← List.append_assoc]
      refine hpieces.replace ?_ ?_
      · rw [List.length_append]
        omega
      · rw [List.length_append]
        exact hbound
    · refine ⟨keptFront ++ [_], ?_, forall₂_concat hfront (hlastLive.write hbound hfix)⟩
      rw [ChunkBuffer.addRound]
      rw [if_neg hnew, ← hn, hoffset, hkept, hkeptSplit, ← List.append_assoc,
        List.modifyLast_concat, List.append_assoc]
    · rw [hsplit, List.dropLast_concat, List.dropLast_concat]

lemma addLoop_same (fuel : Nat) (b : ChunkBuffer) (data : Bytes) :
    (ChunkBuffer.addLoop fuel b data).closed = b.closed ∧
      (ChunkBuffer.addLoop fuel b data).chunkFixLen = b.chunkFixLen := by
  induction fuel generalizing b data with
  | zero => exact ⟨rfl, rfl⟩
  | succ fuel ih =>
    rw [ChunkBuffer.addLoop]
    by_cases hmore : (b.addRound data).2 < data.length
    · rw [if_pos hmore]
      exact ih _ _
    · rw [if_neg hmore]
      exact ⟨rfl, rfl⟩

lemma add_same (b : ChunkBuffer) (data : Bytes) :
    (b.add data).closed = b.closed ∧ (b.add data).chunkFixLen = b.chunkFixLen := by
  rw [ChunkBuffer.add]
  by_cases hdata : data = []
  · rw [if_pos hdata]
    exact ⟨rfl, rfl⟩
  · rw [if_neg hdata]
    exact addLoop_same _ _ _

lemma Layout.addLoop (h : Layout b sent rest) (hopen : Open sent rest) {data : Bytes}
    (hdata : data ≠ []) (hfix : b.chunkFixLen < 2 ^ 32)
    (hsmall : (sent ++ rest).flatten.length + data.length < 2 ^ 31) (fuel : Nat)
    (hfuel : data.length ≤ fuel) :
    ∃ rest', Layout (ChunkBuffer.addLoop fuel b data) sent rest' ∧
      (sent ++ rest').flatten = (sent ++ rest).flatten ++ data ∧
      rest.dropLast <+: rest'.dropLast ∧ rest' ≠ [] := by
  induction fuel generalizing b rest data with
  | zero => exact absurd (List.length_eq_zero_iff.mp (by omega)) hdata
  | succ fuel ih =>
    obtain ⟨rest₁, h₁, hadded₁, hpos, hpre₁, hne₁⟩ := h.addRound hopen hdata hfix hsmall
    rw [ChunkBuffer.addLoop]
    by_cases hmore : (b.addRound data).2 < data.length
    · rw [if_pos hmore]
      have hdrop : (data.drop (b.addRound data).2).length = data.length - (b.addRound data).2 :=
        List.length_drop
      have htake : (data.take (b.addRound data).2).length = (b.addRound data).2 := by
        rw [List.length_take]
        omega
      have hlength := congrArg List.length hadded₁
      rw [List.length_append, htake] at hlength
      have hdropNe : data.drop (b.addRound data).2 ≠ [] := List.ne_nil_of_length_pos (by omega)
      obtain ⟨rest₂, h₂, hadded₂, hpre₂, hne₂⟩ := ih h₁ (fun hnil => absurd hnil hne₁) hdropNe
        hfix (by omega) (by omega)
      refine ⟨rest₂, h₂, ?_, hpre₁.trans hpre₂, hne₂⟩
      rw [hadded₂, hadded₁, List.append_assoc, List.take_append_drop]
    · rw [if_neg hmore]
      rw [List.take_of_length_le (by omega)] at hadded₁
      exact ⟨rest₁, h₁, hadded₁, hpre₁, hne₁⟩

lemma Layout.add (h : Layout b sent rest) (hopen : Open sent rest) {data : Bytes}
    (hfix : b.chunkFixLen < 2 ^ 32)
    (hsmall : (sent ++ rest).flatten.length + data.length < 2 ^ 31) :
    ∃ rest', Layout (b.add data) sent rest' ∧
      (sent ++ rest').flatten = (sent ++ rest).flatten ++ data ∧
      rest.dropLast <+: rest'.dropLast ∧ (rest' = [] → rest = []) := by
  rw [ChunkBuffer.add]
  by_cases hdata : data = []
  · rw [if_pos hdata, hdata, List.append_nil]
    exact ⟨rest, h, rfl, List.prefix_rfl, id⟩
  · rw [if_neg hdata]
    obtain ⟨rest', h', hadded, hpre, hne⟩ := h.addLoop hopen hdata hfix hsmall _ le_rfl
    exact ⟨rest', h', hadded, hpre, fun hnil => absurd hnil hne⟩

/-! ## Passing on -/

lemma safeLimitLoop_freed (size limitLength : Nat) (sent : List Bytes) (chunks : List Chunk)
    (counter safe : Nat) :
    safeLimitLoop size limitLength counter safe (sent.map freed ++ chunks) =
      safeLimitLoop size limitLength (counter + sent.length) safe chunks := by
  induction sent generalizing counter with
  | nil => rfl
  | cons x sent ih =>
    rw [List.map_cons, List.cons_append, safeLimitLoop,
      if_pos (show (freed x).chunk = none from rfl), ih, List.length_cons]
    congr 1
    omega

lemma safeLimitLoop_live {fixLen size limitLength : Nat} {kept : List Chunk} {rest : List Bytes}
    (hlive : List.Forall₂ (Live fixLen) kept rest) (counter safe : Nat)
    (hsmall : safe + rest.flatten.length < 2 ^ 32) (hsize : size + 1 = counter + rest.length) :
    ∃ m, (m = 0 ∨ m + 2 ≤ rest.length) ∧
      safeLimitLoop size limitLength counter safe kept = safe + (rest.take m).flatten.length := by
  induction hlive generalizing counter safe with
  | nil => exact ⟨0, .inl rfl, rfl⟩
  | @cons c x kept rest hx hlive ih =>
    obtain ⟨hlen, memory, hchunk, -, -⟩ := hx
    rw [List.flatten_cons, List.length_append] at hsmall
    rw [List.length_cons] at hsize
    have hadd : add32 safe c.len = safe + x.length := by
      rw [hlen]
      exact add32_eq (by omega)
    rw [safeLimitLoop, if_neg (by rw [hchunk]; exact Option.some_ne_none _), hadd]
    by_cases hstop : limitLength ≤ safe + x.length ∨ size - 1 ≤ counter
    · rw [if_pos hstop]
      exact ⟨0, .inl rfl, rfl⟩
    · rw [if_neg hstop]
      obtain ⟨m, hm, heq⟩ := ih (counter + 1) (safe + x.length) (by omega) (by omega)
      refine ⟨m + 1, .inr ?_, ?_⟩
      · rw [List.length_cons]
        omega
      · rw [heq, List.take_succ_cons, List.flatten_cons, List.length_append, Nat.add_assoc]

lemma Layout.safeLimit (h : Layout b sent rest) (hopen : b.closed = false) (limitLength : Nat) :
    ∃ m, (m = 0 ∨ m + 2 ≤ rest.length) ∧
      b.getChunkIterateSafeLimitLength limitLength = (rest.take m).flatten.length := by
  obtain ⟨kept, hkept, hlive⟩ := h.chunks
  have hsmall := h.small
  rw [List.flatten_append, List.length_append] at hsmall
  have hlength := hlive.length_eq
  rw [ChunkBuffer.getChunkIterateSafeLimitLength, hopen, if_neg Bool.false_ne_true, hkept,
    safeLimitLoop_freed]
  obtain ⟨m, hm, heq⟩ := @safeLimitLoop_live _ (sent.map freed ++ kept).length limitLength _ _ hlive
    (1 + sent.length) 0 (by omega) (by rw [List.length_append, List.length_map]; omega)
  refine ⟨m, hm, ?_⟩
  rw [heq, Nat.zero_add]

lemma iterateLoop_freed (closed : Bool) (size limitLength start : Nat) (sent : List Bytes)
    (chunks : List Chunk) (counter proceedLen : Nat) :
    iterateLoop closed size limitLength start counter proceedLen (sent.map freed ++ chunks) =
      let next := iterateLoop closed size limitLength start (counter + sent.length) proceedLen chunks
      ⟨sent.map freed ++ next.chunks, next.out, next.proceedLen⟩ := by
  induction sent generalizing counter with
  | nil => rfl
  | cons x sent ih =>
    have hcounter : counter + (x :: sent).length = counter + 1 + sent.length := by
      rw [List.length_cons]
      omega
    rw [List.map_cons, List.cons_append, iterateLoop, hcounter]
    dsimp only [freed]
    rw [← freed, ih]
    rfl

lemma iterateLoop_closed {fixLen size limitLength start : Nat} {kept : List Chunk}
    {rest : List Bytes} (hlive : List.Forall₂ (Live fixLen) kept rest) (counter proceedLen : Nat)
    (hsmall : proceedLen + rest.flatten.length < 2 ^ 32) :
    iterateLoop true size limitLength start counter proceedLen kept =
      ⟨rest.map freed, rest.flatten, proceedLen + rest.flatten.length⟩ := by
  induction hlive generalizing counter proceedLen with
  | nil => rfl
  | @cons c x kept rest hx hlive ih =>
    obtain ⟨hlen, memory, hchunk, -, htake⟩ := hx
    rw [List.flatten_cons, List.length_append] at hsmall
    have hadd : add32 proceedLen c.len = proceedLen + x.length := by
      rw [hlen]
      exact add32_eq (by omega)
    rw [iterateLoop, hchunk]
    dsimp only
    rw [if_neg (fun h => Bool.noConfusion h.1), hadd, ih _ _ (by omega), hlen, htake]
    simp only [List.map_cons, List.flatten_cons, List.length_append, freed, Nat.add_assoc]

lemma iterateLoop_limit {fixLen size start : Nat} {kept : List Chunk} {rest : List Bytes}
    (hlive : List.Forall₂ (Live fixLen) kept rest) (hpos : ∀ x ∈ rest, 0 < x.length)
    (counter done m : Nat) (hm : 0 < m) (hrest : m + 2 ≤ rest.length)
    (hsmall : start + done + rest.flatten.length < 2 ^ 32)
    (hsize : size + 1 = counter + rest.length) :
    iterateLoop false size (done + (rest.take m).flatten.length) start counter (start + done) kept =
      ⟨(rest.take m).map freed ++ kept.drop m, (rest.take m).flatten,
        start + done + (rest.take m).flatten.length⟩ := by
  induction hlive generalizing counter done m with
  | nil => simp at hrest
  | @cons c x kept rest hx hlive ih =>
    obtain ⟨hlen, memory, hchunk, -, htake⟩ := hx
    obtain ⟨m, rfl⟩ := Nat.exists_eq_succ_of_ne_zero hm.ne'
    have hxpos := hpos x List.mem_cons_self
    rw [List.length_cons] at hrest hsize
    rw [List.flatten_cons, List.length_append] at hsmall
    have hadd : add32 (start + done) c.len = start + (done + x.length) := by
      rw [hlen, add32_eq (by omega), Nat.add_assoc]
    have hsub : sub32 (start + (done + x.length)) start = done + x.length := by
      rw [sub32_eq (by omega) (by omega)]
      omega
    rw [Nat.succ_eq_add_one, List.take_succ_cons, List.flatten_cons, List.length_append, iterateLoop,
      hchunk]
    dsimp only
    rw [hadd, hsub]
    cases m with
    | zero =>
      have hnil : ((rest.take 0).flatten : Bytes) = [] := rfl
      rw [hnil, List.length_nil, Nat.add_zero, if_pos ⟨rfl, .inl ⟨by omega, le_rfl⟩⟩]
      simp [freed, hlen, htake, Nat.add_assoc]
    | succ m =>
      have hne : 0 < (rest.take (m + 1)).flatten.length := by
        cases rest with
        | nil => simp at hrest
        | cons y rest =>
          have hy := hpos y (by simp)
          rw [List.take_succ_cons, List.flatten_cons, List.length_append]
          omega
      have hnext := ih (fun y hy => hpos y (List.mem_cons_of_mem _ hy)) (counter + 1)
        (done + x.length) (m + 1) (by omega) (by omega) (by omega) (by omega)
      rw [if_neg (by rintro ⟨-, ⟨-, h⟩ | h⟩ <;> omega), ← Nat.add_assoc, hnext]
      simp [freed, hlen, htake, Nat.add_assoc]

section Iterate
variable (h : Layout b sent rest)
include h

lemma Layout.chunkIterate_closed (hclosed : b.closed = true) (limitLength : Nat) :
    Layout (b.chunkIterate limitLength).1 (sent ++ rest) [] ∧
      (b.chunkIterate limitLength).2 = rest.flatten := by
  obtain ⟨kept, hkept, hlive⟩ := h.chunks
  have hsmall := h.small
  have hflatten : (sent ++ rest).flatten = sent.flatten ++ rest.flatten := List.flatten_append
  rw [hflatten, List.length_append] at hsmall
  have hrun : b.chunkIterate limitLength =
      ({ b with
          chunkBuffer := (sent ++ rest).map freed
          chunkIterateProceedLen := (sent ++ rest).flatten.length }, rest.flatten) := by
    rw [ChunkBuffer.chunkIterate, hclosed, hkept, h.proceedLen, iterateLoop_freed,
      iterateLoop_closed hlive _ _ (by omega), hflatten, List.length_append, List.map_append]
  rw [hrun]
  refine ⟨⟨h.fixLen_pos, ?_, ⟨[], ?_, .nil⟩, ?_, rfl, ?_⟩, rfl⟩
  · rw [List.append_nil]
    exact h.pieces
  · rw [List.append_nil]
  · rw [List.append_nil]
    exact h.len
  · rw [List.append_nil]
    exact h.small

lemma Layout.chunkIterate_limit (hopen : b.closed = false) {m : Nat} (hm : 0 < m)
    (hrest : m + 2 ≤ rest.length) :
    Layout (b.chunkIterate (rest.take m).flatten.length).1 (sent ++ rest.take m) (rest.drop m) ∧
      (b.chunkIterate (rest.take m).flatten.length).2 = (rest.take m).flatten := by
  obtain ⟨kept, hkept, hlive⟩ := h.chunks
  have hsmall := h.small
  have hflatten : (sent ++ rest).flatten = sent.flatten ++ rest.flatten := List.flatten_append
  rw [hflatten, List.length_append] at hsmall
  have hlength := hlive.length_eq
  have hloop := @iterateLoop_limit _ (sent.map freed ++ kept).length sent.flatten.length _ _ hlive
    (fun x hx => h.pieces.pos x (List.mem_append_right _ hx)) (1 + sent.length) 0 m hm hrest
    (by omega) (by rw [List.length_append, List.length_map]; omega)
  have hrun : b.chunkIterate (rest.take m).flatten.length =
      ({ b with
          chunkBuffer := (sent ++ rest.take m).map freed ++ kept.drop m
          chunkIterateProceedLen := (sent ++ rest.take m).flatten.length },
        (rest.take m).flatten) := by
    rw [ChunkBuffer.chunkIterate, hopen, hkept, h.proceedLen, iterateLoop_freed]
    rw [Nat.zero_add, Nat.add_zero] at hloop
    rw [hloop, List.flatten_append, List.length_append, List.map_append, List.append_assoc]
  have hwhole : sent ++ rest.take m ++ rest.drop m = sent ++ rest := by
    rw [List.append_assoc, List.take_append_drop]
  rw [hrun]
  refine ⟨⟨h.fixLen_pos, ?_, ⟨kept.drop m, rfl, List.forall₂_drop m hlive⟩, ?_, rfl, ?_⟩, rfl⟩
  · rw [hwhole]
    exact h.pieces
  · rw [hwhole]
    exact h.len
  · rw [hwhole]
    exact h.small

end Iterate

end VoipMonitor.Tar
