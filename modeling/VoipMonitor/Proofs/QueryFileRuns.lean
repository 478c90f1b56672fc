import VoipMonitor.Proofs.QueryFileReads

/-!
# Runs of the threads that write and load files of queries

Queries are stored, files are closed and loaded in any order of steps. The files of an id are a
queue: the newest of them may be open, the oldest is the one that is loaded. What was handed over
and what the files still have is what was stored, in its order, unless a process ends while it loads
a file, which the next one then loads again, or a file cannot be read to its end.
-/

namespace VoipMonitor.QueryFiles
open VoipMonitor.Library

def queriesOf (text : Bytes) : List Bytes := (recordsOf 10 text).filterMap loadLine

lemma queriesOf_linesText (entries : List Entry) :
    queriesOf (linesText entries) = entries.filterMap Entry.loaded := by
  rw [queriesOf, linesText, ← List.append_nil (joinRecords 10 _),
    recordsOf_joinRecords_append (newline_not_mem_lines entries), recordsOf_nil, List.append_nil,
    filterMap_loadLine_lines]

lemma linesText_concat (entries : List Entry) (e : Entry) :
    linesText (entries ++ [e]) = linesText entries ++ (e.line ++ [10]) := by
  rw [linesText, linesText, List.map_append, joinRecords_append, List.map_singleton,
    joinRecords_cons, joinRecords_nil]

namespace Store

def filesOf (s : Store) (idc : Int) : List (QFilename × Bytes) :=
  s.disk.filter (fun f => f.1.idc = idc)

def restOf (files : List (QFilename × Bytes)) : Option Loading → List Bytes
  | some l => queriesOf (l.handler.content ++ l.rest) ++ files.tail.flatMap (fun f => queriesOf f.2)
  | none => files.flatMap (fun f => queriesOf f.2)

/-- What the files of an id have, without what is handed over of the file that is being loaded. -/
def waiting (s : Store) (idc : Int) : List Bytes :=
  restOf (s.filesOf idc) (SortedMap.get idc s.loading)

def handedOf (s : Store) (idc : Int) : List Bytes :=
  (s.handed.filter (fun h => h.1 = idc)).map (fun h => h.2)

def total (s : Store) (idc : Int) : List Bytes := s.handedOf idc ++ s.waiting idc

/-- The files of an id are in the order of their times. An open file is the newest one of its id, a
chosen file the oldest, and no file is loaded that is open. A file that is not open is older than
the clock, so that a new file has another name. -/
structure Inv (s : Store) : Prop where
  clock_pos : 0 < s.clock
  clock_lt : s.clock < 2 ^ 64
  ordered : s.disk.Pairwise (fun a b => a.1.idc = b.1.idc → a.1.time < b.1.time)
  times : ∀ f ∈ s.disk, 0 < f.1.time ∧ f.1.time ≤ s.clock
  texts : ∀ f ∈ s.disk, ∃ entries, f.2 = linesText entries
  opened : ∀ o ∈ s.qfiles, (∃ text, (⟨o.1, o.2⟩, text) ∈ s.disk) ∧
    ∀ f ∈ s.disk, f.1.idc = o.1 → f.1.time ≤ o.2
  closed : s.terminate = false → ∀ f ∈ s.disk, (f.1.idc, f.1.time) ∉ s.qfiles → f.1.time < s.clock
  chosen : ∀ c ∈ s.chosen, (∃ text, (⟨c.1, c.2⟩, text) ∈ s.disk) ∧
    ∀ f ∈ s.disk, f.1.idc = c.1 → c.2 ≤ f.1.time
  loading : ∀ l ∈ s.loading, (l.1, l.2.time) ∈ s.chosen ∧ (l.1, l.2.time) ∉ s.qfiles ∧
    l.2.handler.Fits ∧ l.2.handler.eof = false

lemma inv_new : new.Inv where
  clock_pos := Nat.one_pos
  clock_lt := by decide
  ordered := List.Pairwise.nil
  times := by simp [new]
  texts := by simp [new]
  opened := by simp [new]
  closed := by simp [new]
  chosen := by simp [new]
  loading := by simp [new]

variable {cfg : Config} {s s' : Store}

lemma Inv.exists_split (h : s.Inv) {name : QFilename} {text : Bytes} (hmem : (name, text) ∈ s.disk) :
    ∃ pre post, s.disk = pre ++ (name, text) :: post ∧
      (∀ f ∈ pre, f.1.idc = name.idc → f.1.time < name.time) ∧
      (∀ f ∈ post, f.1.idc = name.idc → name.time < f.1.time) := by
  obtain ⟨pre, post, hdisk⟩ := List.append_of_mem hmem
  have hord := h.ordered
  rw [hdisk, List.pairwise_append] at hord
  obtain ⟨-, hpost, hpre⟩ := hord
  exact ⟨pre, post, hdisk, fun f hf => hpre f hf _ List.mem_cons_self,
    fun f hf heq => (List.pairwise_cons.mp hpost).1 f hf heq.symm⟩

lemma Inv.tick (h : s.Inv) {now : Nat} (hnow : s.clock ≤ now) (hlt : now < 2 ^ 64) :
    (s.tick now).Inv :=
  { h with
    clock_pos := h.clock_pos.trans_le hnow
    clock_lt := hlt
    times := fun f hf => ⟨(h.times f hf).1, (h.times f hf).2.trans hnow⟩
    closed := fun hterm f hf hopen => (h.closed hterm f hf hopen).trans_le hnow }

/-! ## Closing files -/

lemma lt_of_isExceedPeriod {createAt now : Nat} (hle : createAt ≤ now)
    (h : isExceedPeriod cfg createAt now = true) : createAt < now := by
  rw [isExceedPeriod, decide_eq_true_eq] at h
  by_contra hge
  have hsame : createAt = now := by omega
  rw [hsame, Nat.add_sub_cancel_left, Nat.mod_self] at h
  exact Nat.not_lt_zero _ h

lemma Inv.closeExceeded (h : s.Inv) (cfg : Config) {now : Nat} (hnow : s.clock ≤ now) (hlt : now < 2 ^ 64)
    (which : Int → Bool) : Inv ((s.closeExceeded cfg now which).tick now) := by
  refine { h.tick hnow hlt with
    opened := fun o ho => h.opened o (List.mem_of_mem_filter ho)
    closed := ?_
    loading := fun l hl => ⟨(h.loading l hl).1, fun ho => (h.loading l hl).2.1
      (List.mem_of_mem_filter ho), (h.loading l hl).2.2⟩ }
  intro hterm f hf hclosed
  by_cases hopen : (f.1.idc, f.1.time) ∈ s.qfiles
  · have hexceed : isExceedPeriod cfg f.1.time now = true := by
      by_contra hne
      rw [Bool.not_eq_true] at hne
      refine hclosed (List.mem_filter.mpr ⟨hopen, ?_⟩)
      rw [hne, Bool.and_false, Bool.not_false]
    exact lt_of_isExceedPeriod ((h.times f hf).2.trans hnow) hexceed
  · exact (h.closed hterm f hf hopen).trans_le hnow

/-! ## A query -/

section Open

variable {idc : Int} {actTime : Nat}

lemma Inv.time_lt (h : s.Inv) (hterm : s.terminate = false) (hnow : s.clock ≤ actTime)
    (hnone : SortedMap.get idc s.qfiles = none) : ∀ f ∈ s.disk, f.1.idc = idc → f.1.time < actTime := by
  intro f hf heq
  refine (h.closed hterm f hf ?_).trans_le hnow
  rw [heq]
  exact SortedMap.not_mem_of_get hnone _

lemma disk_openQFile (hold : ∀ f ∈ s.disk, f.1.idc = idc → f.1.time < actTime) :
    (s.openQFile idc actTime).disk = s.disk ++ [(⟨idc, actTime⟩, [])] := by
  refine if_neg ?_
  rw [List.any_eq_true]
  rintro ⟨f, hf, heq⟩
  rw [decide_eq_true_eq] at heq
  have hlt := hold f hf (by rw [heq])
  rw [heq] at hlt
  exact lt_irrefl _ hlt

lemma Inv.openQFile (h : s.Inv) (hterm : s.terminate = false) (hnow : s.clock ≤ actTime)
    (hlt : actTime < 2 ^ 64) (hnone : SortedMap.get idc s.qfiles = none) :
    Inv ((s.openQFile idc actTime).tick actTime) := by
  have hold := h.time_lt hterm hnow hnone
  have hdisk := disk_openQFile hold
  have hmem : ∀ f ∈ (s.openQFile idc actTime).disk, f ∈ s.disk ∨ f = (⟨idc, actTime⟩, []) := by
    intro f hf
    rw [hdisk, List.mem_append, List.mem_singleton] at hf
    exact hf
  have hkeep : ∀ f ∈ s.disk, f ∈ (s.openQFile idc actTime).disk := by
    intro f hf
    rw [hdisk]
    exact List.mem_append_left _ hf
  refine { h.tick hnow hlt with
    ordered := ?ordered, times := ?times, texts := ?texts, opened := ?opened, closed := ?closed,
    chosen := ?chosen, loading := ?loading }
  case ordered =>
    change (s.openQFile idc actTime).disk.Pairwise _
    rw [hdisk, List.pairwise_append]
    refine ⟨h.ordered, List.pairwise_singleton _ _, ?_⟩
    intro f hf g hg heq
    rw [List.mem_singleton.mp hg] at heq ⊢
    exact hold f hf heq
  case times =>
    intro f hf
    rcases hmem f hf with hf | rfl
    · exact ⟨(h.times f hf).1, (h.times f hf).2.trans hnow⟩
    · exact ⟨h.clock_pos.trans_le hnow, le_refl _⟩
  case texts =>
    intro f hf
    rcases hmem f hf with hf | rfl
    · exact h.texts f hf
    · exact ⟨[], rfl⟩
  case opened =>
    intro o ho
    rcases SortedMap.mem_set ho with rfl | ho
    · refine ⟨⟨[], ?_⟩, ?_⟩
      · change _ ∈ (s.openQFile idc actTime).disk
        rw [hdisk]
        exact List.mem_append_right _ List.mem_cons_self
      · intro f hf heq
        rcases hmem f hf with hf | rfl
        · exact (hold f hf heq).le
        · exact le_refl _
    · obtain ⟨⟨text, htext⟩, hnew⟩ := h.opened o ho
      refine ⟨⟨text, hkeep _ htext⟩, ?_⟩
      intro f hf heq
      rcases hmem f hf with hf | rfl
      · exact hnew f hf heq
      · have hidc : idc = o.1 := heq
        exact absurd (hidc ▸ ho) (SortedMap.not_mem_of_get hnone o.2)
  case closed =>
    intro _ f hf hclosed
    rcases hmem f hf with hf | rfl
    · by_cases hother : f.1.idc = idc
      · exact hold f hf hother
      · refine (h.closed hterm f hf ?_).trans_le hnow
        exact fun hopen => hclosed (SortedMap.mem_set_of_ne hopen hother)
    · exact absurd (SortedMap.self_mem_set idc actTime s.qfiles) hclosed
  case chosen =>
    intro c hc
    obtain ⟨⟨text, htext⟩, hfirst⟩ := h.chosen c hc
    refine ⟨⟨text, hkeep _ htext⟩, ?_⟩
    intro f hf heq
    rcases hmem f hf with hf | rfl
    · exact hfirst f hf heq
    · have hidc : idc = c.1 := heq
      exact (hold _ htext hidc.symm).le
  case loading =>
    intro l hl
    obtain ⟨hchosen, hclosed, hhandler⟩ := h.loading l hl
    refine ⟨hchosen, ?_, hhandler⟩
    intro hopen
    rcases SortedMap.mem_set hopen with heq | hopen
    · obtain ⟨⟨text, htext⟩, -⟩ := h.chosen _ hchosen
      obtain ⟨hid, htime⟩ := Prod.mk.inj heq
      exact (hold _ htext hid).ne htime
    · exact hclosed hopen

end Open

lemma Inv.update (h : s.Inv) (name : QFilename) {g : Bytes → Bytes}
    (hg : ∀ entries, ∃ entries', g (linesText entries) = linesText entries') :
    Inv { s with disk := SortedMap.update name g s.disk } := by
  have hmem : ∀ f ∈ SortedMap.update name g s.disk,
      ∃ f' ∈ s.disk, f.1 = f'.1 ∧ (f.2 = f'.2 ∨ f.2 = g f'.2) := by
    intro f hf
    rw [SortedMap.update_eq_map, List.mem_map] at hf
    obtain ⟨f', hf', rfl⟩ := hf
    refine ⟨f', hf', rfl, ?_⟩
    split
    · exact .inr rfl
    · exact .inl rfl
  have hkeep : ∀ name' text, (name', text) ∈ s.disk →
      ∃ text', (name', text') ∈ SortedMap.update name g s.disk := by
    intro name' text hf
    rw [SortedMap.update_eq_map]
    exact ⟨_, List.mem_map_of_mem hf⟩
  refine { h with
    ordered := ?ordered, times := ?times, texts := ?texts, opened := ?opened, closed := ?closed,
    chosen := ?chosen }
  case ordered =>
    change (SortedMap.update name g s.disk).Pairwise _
    rw [SortedMap.update_eq_map, List.pairwise_map]
    exact h.ordered
  case times =>
    intro f hf
    obtain ⟨f', hf', hname, -⟩ := hmem f hf
    rw [hname]
    exact h.times f' hf'
  case texts =>
    intro f hf
    obtain ⟨f', hf', -, htext⟩ := hmem f hf
    obtain ⟨entries, hentries⟩ := h.texts f' hf'
    rcases htext with htext | htext
    · exact ⟨entries, htext.trans hentries⟩
    · rw [htext, hentries]
      exact hg entries
  case opened =>
    intro o ho
    obtain ⟨⟨text, htext⟩, hnew⟩ := h.opened o ho
    refine ⟨hkeep _ text htext, ?_⟩
    intro f hf heq
    obtain ⟨f', hf', hname, -⟩ := hmem f hf
    rw [hname] at heq ⊢
    exact hnew f' hf' heq
  case closed =>
    intro hterm f hf hclosed
    obtain ⟨f', hf', hname, -⟩ := hmem f hf
    rw [hname] at hclosed ⊢
    exact h.closed hterm f' hf' hclosed
  case chosen =>
    intro c hc
    obtain ⟨⟨text, htext⟩, hfirst⟩ := h.chosen c hc
    refine ⟨hkeep _ text htext, ?_⟩
    intro f hf heq
    obtain ⟨f', hf', hname, -⟩ := hmem f hf
    rw [hname] at heq ⊢
    exact hfirst f' hf' heq

lemma Inv.disk_update (h : s.Inv) {name : QFilename} {text : Bytes} (g : Bytes → Bytes)
    (hmem : (name, text) ∈ s.disk) :
    ∃ pre post, s.disk = pre ++ (name, text) :: post ∧
      SortedMap.update name g s.disk = pre ++ (name, g text) :: post ∧
      (∀ f ∈ post, f.1.idc = name.idc → name.time < f.1.time) := by
  obtain ⟨pre, post, hdisk, hpre, hpost⟩ := h.exists_split hmem
  have hpre' : ∀ f ∈ pre, f.1 ≠ name := by
    intro f hf heq
    have hlt := hpre f hf (by rw [heq])
    rw [heq] at hlt
    exact lt_irrefl _ hlt
  have hpost' : ∀ f ∈ post, f.1 ≠ name := by
    intro f hf heq
    have hlt := hpost f hf (by rw [heq])
    rw [heq] at hlt
    exact lt_irrefl _ hlt
  refine ⟨pre, post, hdisk, ?_, hpost⟩
  rw [hdisk, SortedMap.update, List.map_append, List.map_cons, if_pos rfl]
  exact congrArg₂ (fun a b => a ++ (name, g text) :: b) (SortedMap.update_of_ne hpre')
    (SortedMap.update_of_ne hpost')

lemma Inv.exists_loading (h : s.Inv) {idc : Int} {l : Loading}
    (hl : SortedMap.get idc s.loading = some l) :
    (∃ text, (⟨idc, l.time⟩, text) ∈ s.disk) ∧ (idc, l.time) ∉ s.qfiles := by
  obtain ⟨hchosen, hclosed, -⟩ := h.loading _ (SortedMap.mem_of_get hl)
  exact ⟨(h.chosen _ hchosen).1, hclosed⟩

lemma restOf_concat {files : List (QFilename × Bytes)} {l : Option Loading} (h : l = none ∨ files ≠ [])
    (f : QFilename × Bytes) : restOf (files ++ [f]) l = restOf files l ++ queriesOf f.2 := by
  cases l with
  | none => simp [restOf]
  | some l =>
    have hne : files ≠ [] := h.resolve_left (Option.some_ne_none l)
    simp [restOf, List.tail_append_of_ne_nil hne]

lemma Inv.write (h : s.Inv) {idc : Int} {createAt : Nat}
    (hget : SortedMap.get idc s.qfiles = some createAt) (e : Entry) :
    Inv (s.write idc (e.line ++ [10])) ∧
      ∀ i, (s.write idc (e.line ++ [10])).waiting i =
        s.waiting i ++ (if i = idc then e.loaded.toList else []) := by
  have hwrite : s.write idc (e.line ++ [10]) =
      { s with disk := SortedMap.update ⟨idc, createAt⟩ (· ++ (e.line ++ [10])) s.disk } := by
    rw [Store.write, hget]
  rw [hwrite]
  refine ⟨h.update _ (fun entries => ⟨entries ++ [e], (linesText_concat entries e).symm⟩), ?_⟩
  intro i
  obtain ⟨⟨text, htext⟩, hnew⟩ := h.opened _ (SortedMap.mem_of_get hget)
  obtain ⟨pre, post, hdisk, hupdate, hpost⟩ := h.disk_update (· ++ (e.line ++ [10])) htext
  obtain ⟨entries, hentries⟩ := h.texts _ htext
  change text = linesText entries at hentries
  rw [waiting, waiting, filesOf, filesOf, hupdate, hdisk, List.filter_append, List.filter_append,
    List.filter_cons, List.filter_cons]
  by_cases hi : i = idc
  · subst hi
    have hnone : post.filter (fun f => f.1.idc = i) = [] := by
      rw [List.filter_eq_nil_iff]
      intro f hf heq
      rw [decide_eq_true_eq] at heq
      have hmem : f ∈ s.disk := by
        rw [hdisk]
        exact List.mem_append_right _ (List.mem_cons_of_mem _ hf)
      exact absurd (hnew f hmem heq) (Nat.not_le.mpr (hpost f hf heq))
    have hmore : SortedMap.get i s.loading = none ∨ pre.filter (fun f => f.1.idc = i) ≠ [] := by
      cases hl : SortedMap.get i s.loading with
      | none => exact .inl rfl
      | some l =>
        obtain ⟨⟨text', hmem⟩, hclosed⟩ := h.exists_loading hl
        rw [hdisk, List.mem_append, List.mem_cons] at hmem
        rcases hmem with hmem | heq | hmem
        · exact .inr (List.ne_nil_of_mem (List.mem_filter.mpr ⟨hmem, decide_eq_true rfl⟩))
        · obtain ⟨-, htime⟩ := QFilename.mk.inj (Prod.mk.inj heq).1
          rw [htime] at hclosed
          exact absurd (SortedMap.mem_of_get hget) hclosed
        · have hin : (⟨i, l.time⟩, text') ∈ post.filter (fun f => f.1.idc = i) :=
            List.mem_filter.mpr ⟨hmem, by simp⟩
          rw [hnone] at hin
          cases hin
    simp only [hnone, decide_true, if_true]
    rw [restOf_concat hmore, restOf_concat hmore, List.append_assoc, hentries, ← linesText_concat,
      queriesOf_linesText, queriesOf_linesText, List.filterMap_append]
    congr 2
  · have hi' : ¬idc = i := fun heq => hi heq.symm
    simp only [hi', hi, decide_false, Bool.false_eq_true, if_false, List.append_nil]

lemma isNone_get_openQFile (s : Store) (idc : Int) (actTime : Nat) :
    SortedMap.get idc (s.openQFile idc actTime).qfiles = some actTime :=
  (SortedMap.get_set idLt idc idc actTime s.qfiles).trans (if_pos rfl)

lemma Inv.waiting_openQFile (h : s.Inv) {idc : Int} {actTime : Nat}
    (hold : ∀ f ∈ s.disk, f.1.idc = idc → f.1.time < actTime) (i : Int) :
    (s.openQFile idc actTime).waiting i = s.waiting i := by
  have hfiles : (s.openQFile idc actTime).filesOf i =
      s.filesOf i ++ if idc = i then [(⟨idc, actTime⟩, [])] else [] := by
    rw [filesOf, disk_openQFile hold, List.filter_append, ← filesOf, List.filter_singleton]
    simp
  have hmore : SortedMap.get i s.loading = none ∨ s.filesOf i ≠ [] := by
    cases hl : SortedMap.get i s.loading with
    | none => exact .inl rfl
    | some l =>
      obtain ⟨⟨text, hmem⟩, -⟩ := h.exists_loading hl
      exact .inr (List.ne_nil_of_mem (List.mem_filter.mpr ⟨hmem, decide_eq_true rfl⟩))
  have hloading : (s.openQFile idc actTime).loading = s.loading := rfl
  rw [waiting, waiting, hfiles, hloading]
  split
  · rw [restOf_concat hmore]
    exact List.append_nil _
  · rw [List.append_nil]

lemma tick_write (s : Store) (idc : Int) (text : Bytes) (now : Nat) :
    (s.write idc text).tick now = (s.tick now).write idc text := by
  have hqfiles : SortedMap.get idc (s.tick now).qfiles = SortedMap.get idc s.qfiles := rfl
  rw [Store.write, Store.write, hqfiles]
  cases SortedMap.get idc s.qfiles <;> rfl

lemma handed_write (s : Store) (idc : Int) (text : Bytes) : (s.write idc text).handed = s.handed := by
  rw [Store.write]
  split <;> rfl

lemma Inv.queryToFile (h : s.Inv) (cfg : Config) (hterm : s.terminate = false) {now actTime : Nat}
    (hnow : s.clock ≤ now) (hle : now ≤ actTime) (hlt : actTime < 2 ^ 64) (e : Entry) :
    Inv ((s.queryToFile cfg e now actTime).tick actTime) ∧
      ∀ i, ((s.queryToFile cfg e now actTime).tick actTime).total i =
        s.total i ++ (if i = cfg.idc e.idMain then e.loaded.toList else []) := by
  have hclose := h.closeExceeded cfg hnow (hle.trans_lt hlt)
    (fun i => decide (i = cfg.idc e.idMain))
  set idc := cfg.idc e.idMain with hidc
  set u := s.closeExceeded cfg now (fun i => decide (i = idc)) with hu
  have hnew : ∃ createAt t, Inv (t : Store) ∧ SortedMap.get idc t.qfiles = some createAt ∧
      (s.queryToFile cfg e now actTime).tick actTime = t.write idc (e.line ++ [10]) ∧
      t.handed = s.handed ∧ ∀ i, t.waiting i = s.waiting i := by
    cases hget : SortedMap.get idc u.qfiles with
    | some createAt =>
      refine ⟨createAt, u.tick actTime, ?_, hget, ?_, rfl, fun _ => rfl⟩
      · exact hclose.tick hle hlt
      · rw [Store.queryToFile, ← hidc, ← hu]
        simp only [hget, Option.isNone_some, Bool.false_eq_true, if_false]
        exact tick_write _ _ _ _
    | none =>
      have hold : ∀ f ∈ u.disk, f.1.idc = idc → f.1.time < actTime :=
        hclose.time_lt hterm hle hget
      refine ⟨actTime, (u.openQFile idc actTime).tick actTime,
        hclose.openQFile hterm hle hlt hget, isNone_get_openQFile _ _ _, ?_, rfl, ?_⟩
      · rw [Store.queryToFile, ← hidc, ← hu]
        simp only [hget, Option.isNone_none, if_true]
        exact tick_write _ _ _ _
      · intro i
        exact hclose.waiting_openQFile hold i
  obtain ⟨createAt, t, hinv, hget, heq, hhanded, hwaiting⟩ := hnew
  obtain ⟨hinv', hwrite⟩ := hinv.write hget e
  rw [heq]
  refine ⟨hinv', ?_⟩
  intro i
  rw [total, total, hwrite, hwaiting, handedOf, handed_write, hhanded, ← handedOf, List.append_assoc]

/-! ## Loading -/

section MinTime

def minRound (minTime : Nat) (f : QFilename × Bytes) : Nat :=
  if minTime = 0 ∨ f.1.time < minTime then f.1.time else minTime

lemma foldl_minRound {files : List (QFilename × Bytes)} {minTime : Nat} (hne : minTime ≠ 0)
    (h : ∀ f ∈ files, minTime < f.1.time) : files.foldl minRound minTime = minTime := by
  induction files with
  | nil => rfl
  | cons f files ih =>
    have hf := h f List.mem_cons_self
    have hround : minRound minTime f = minTime := by
      rw [minRound, if_neg]
      omega
    rw [List.foldl_cons, hround]
    exact ih fun g hg => h g (List.mem_cons_of_mem f hg)

lemma Inv.filesOf_ordered (h : s.Inv) (idc : Int) :
    (s.filesOf idc).Pairwise (fun a b => a.1.time < b.1.time) := by
  refine (h.ordered.filter _).imp_of_mem ?_
  intro a b ha hb hlt
  refine hlt ?_
  have ha' := (List.mem_filter.mp ha).2
  have hb' := (List.mem_filter.mp hb).2
  rw [decide_eq_true_eq] at ha' hb'
  rw [ha', hb']

lemma Inv.getMinQFile_eq (h : s.Inv) (cfg : Config) (idMain : Int) (now : Nat) :
    s.getMinQFile cfg idMain now =
      ((s.filesOf idMain).head?.map (fun f => f.1.time)).filter (fun time =>
        (now + 2 ^ 64 - time) % 2 ^ 64 > cfg.loadPeriod * 2 * 1000 % 2 ^ 32) := by
  have hord := h.filesOf_ordered idMain
  have hunfold : s.getMinQFile cfg idMain now =
      if (s.filesOf idMain).foldl minRound 0 ≠ 0 ∧
          (now + 2 ^ 64 - (s.filesOf idMain).foldl minRound 0) % 2 ^ 64 >
            cfg.loadPeriod * 2 * 1000 % 2 ^ 32 then
        some ((s.filesOf idMain).foldl minRound 0)
      else none := rfl
  rw [hunfold]
  cases hfiles : s.filesOf idMain with
  | nil => rfl
  | cons f files =>
    rw [hfiles] at hord
    have hmem : f ∈ s.disk := by
      refine List.mem_of_mem_filter (p := fun f => decide (f.1.idc = idMain)) ?_
      change f ∈ s.filesOf idMain
      rw [hfiles]
      exact List.mem_cons_self
    have hpos := (h.times f hmem).1
    have hmin : (f :: files).foldl minRound 0 = f.1.time := by
      have hround : minRound 0 f = f.1.time := if_pos (.inl rfl)
      rw [List.foldl_cons, hround]
      exact foldl_minRound hpos.ne' (List.pairwise_cons.mp hord).1
    rw [hmin, List.head?_cons, Option.map_some, Option.filter]
    simp [hpos.ne']

end MinTime

lemma Inv.choose (h : s.Inv) {idMain : Int} {now time : Nat} (hnow : s.clock ≤ now)
    (hlt : now < 2 ^ 64) (hnone : SortedMap.get idMain s.chosen = none)
    (hmin : s.getMinQFile cfg idMain now = some time) :
    Inv { s with chosen := SortedMap.set idLt idMain time s.chosen, clock := now } := by
  rw [h.getMinQFile_eq, Option.filter_eq_some_iff, Option.map_eq_some_iff] at hmin
  obtain ⟨⟨f, hhead, rfl⟩, -⟩ := hmin
  obtain ⟨files, hfiles⟩ := List.head?_eq_some_iff.mp hhead
  have hmem : f ∈ s.disk ∧ f.1.idc = idMain := by
    have hf : f ∈ s.filesOf idMain := by
      rw [hfiles]
      exact List.mem_cons_self
    obtain ⟨hf, hid⟩ := List.mem_filter.mp hf
    exact ⟨hf, of_decide_eq_true hid⟩
  have hfirst : ∀ g ∈ s.disk, g.1.idc = idMain → f.1.time ≤ g.1.time := by
    intro g hg heq
    have hord := h.filesOf_ordered idMain
    have hg' : g ∈ s.filesOf idMain := List.mem_filter.mpr ⟨hg, decide_eq_true heq⟩
    rw [hfiles] at hord hg'
    rcases List.mem_cons.mp hg' with rfl | hg'
    · exact le_refl _
    · exact ((List.pairwise_cons.mp hord).1 g hg').le
  refine { h.tick hnow hlt with chosen := ?chosen, loading := ?loading }
  case chosen =>
    intro c hc
    rcases SortedMap.mem_set hc with rfl | hc
    · refine ⟨⟨f.2, ?_⟩, hfirst⟩
      rw [← hmem.2]
      exact hmem.1
    · exact h.chosen c hc
  case loading =>
    intro l hl
    obtain ⟨hchosen, hrest⟩ := h.loading l hl
    refine ⟨SortedMap.mem_set_of_ne hchosen ?_, hrest⟩
    rintro rfl
    exact SortedMap.not_mem_of_get hnone _ hchosen

lemma Inv.filesOf_chosen (h : s.Inv) {idMain : Int} {time : Nat} (hchosen : (idMain, time) ∈ s.chosen) :
    ∃ text files, (⟨idMain, time⟩, text) ∈ s.disk ∧
      s.filesOf idMain = (⟨idMain, time⟩, text) :: files ∧
      (SortedMap.erase ⟨idMain, time⟩ s.disk).filter (fun f => f.1.idc = idMain) = files := by
  obtain ⟨⟨text, htext⟩, hfirst⟩ := h.chosen _ hchosen
  obtain ⟨pre, post, hdisk, hpre, hpost⟩ := h.exists_split htext
  have hnone : pre.filter (fun f => f.1.idc = idMain) = [] := by
    rw [List.filter_eq_nil_iff]
    intro f hf heq
    rw [decide_eq_true_eq] at heq
    have hmem : f ∈ s.disk := by
      rw [hdisk]
      exact List.mem_append_left _ hf
    exact absurd (hfirst f hmem heq) (Nat.not_le.mpr (hpre f hf heq))
  have hstay : ∀ f ∈ post, f.1.idc = idMain → f.1 ≠ ⟨idMain, time⟩ := by
    intro f hf heq hname
    have hlt := hpost f hf heq
    rw [hname] at hlt
    exact lt_irrefl _ hlt
  refine ⟨text, post.filter (fun f => f.1.idc = idMain), htext, ?_, ?_⟩
  · rw [filesOf, hdisk, List.filter_append, hnone, List.filter_cons_of_pos (by simp),
      List.nil_append]
  · rw [SortedMap.erase, hdisk, List.filter_append, List.filter_append, List.filter_comm, hnone,
      List.filter_nil, List.nil_append, List.filter_cons_of_neg (by simp), List.filter_comm,
      List.filter_eq_self.mpr]
    intro f hf
    obtain ⟨hf, heq⟩ := List.mem_filter.mp hf
    exact decide_eq_true (hstay f hf (of_decide_eq_true heq))

lemma Inv.get_of_mem (h : s.Inv) {name : QFilename} {text : Bytes} (hmem : (name, text) ∈ s.disk) :
    SortedMap.get name s.disk = some text := by
  cases hget : SortedMap.get name s.disk with
  | none => exact absurd hmem (SortedMap.not_mem_of_get hget text)
  | some text' =>
    have hmem' := SortedMap.mem_of_get hget
    obtain ⟨pre, post, hdisk, hpre, hpost⟩ := h.exists_split hmem
    rw [hdisk, List.mem_append, List.mem_cons] at hmem'
    rcases hmem' with hlt | heq | hlt
    · exact absurd (hpre _ hlt rfl) (lt_irrefl _)
    · exact congrArg some (Prod.mk.inj heq).2
    · exact absurd (hpost _ hlt rfl) (lt_irrefl _)

/-- Both an open file and the file that `get` finds are the newest one. -/
lemma Inv.not_mem_qfiles (h : s.Inv) {idMain : Int} {time : Nat} (hchosen : (idMain, time) ∈ s.chosen)
    (hclosed : SortedMap.get idMain s.qfiles ≠ some time) : (idMain, time) ∉ s.qfiles := by
  intro hopen
  obtain ⟨⟨text, htext⟩, -⟩ := h.chosen _ hchosen
  cases hget : SortedMap.get idMain s.qfiles with
  | none => exact SortedMap.not_mem_of_get hget time hopen
  | some t =>
    obtain ⟨⟨text', htext'⟩, hnew⟩ := h.opened _ (SortedMap.mem_of_get hget)
    have hle : time ≤ t := hnew _ htext rfl
    have hge : t ≤ time := (h.opened _ hopen).2 _ htext' rfl
    exact hclosed (hget.trans (congrArg some (le_antisymm hge hle)))

lemma Inv.load (h : s.Inv) {idMain : Int} {time : Nat}
    (hnone : SortedMap.get idMain s.loading = none) (hget : SortedMap.get idMain s.chosen = some time)
    (hload : s.load idMain time = some s') : s'.Inv ∧ ∀ i, s'.total i = s.total i := by
  have hchosen := SortedMap.mem_of_get hget
  rw [Store.load] at hload
  by_cases hopen : SortedMap.get idMain s.qfiles = some time
  · rw [if_pos hopen] at hload
    obtain rfl := Option.some.inj hload
    refine ⟨{ h with
      chosen := fun c hc => h.chosen c (List.mem_of_mem_filter hc)
      loading := ?_ }, fun i => rfl⟩
    intro l hl
    obtain ⟨hmem, hrest⟩ := h.loading l hl
    refine ⟨List.mem_filter.mpr ⟨hmem, decide_eq_true ?_⟩, hrest⟩
    rintro rfl
    exact SortedMap.not_mem_of_get hnone _ hl
  · rw [if_neg hopen] at hload
    obtain ⟨text, htext, rfl⟩ := Option.map_eq_some_iff.mp hload
    refine ⟨{ h with loading := ?_ }, ?_⟩
    · intro l hl
      rcases SortedMap.mem_set hl with rfl | hl
      · exact ⟨hchosen, h.not_mem_qfiles hchosen hopen, Nat.zero_le _, rfl⟩
      · exact h.loading l hl
    · intro i
      refine congrArg (fun q => s.handedOf i ++ q) ?_
      rw [waiting, waiting, SortedMap.get_set]
      split
      · rename_i hi
        subst hi
        obtain ⟨text', files, hmem, hfiles, -⟩ := h.filesOf_chosen hchosen
        obtain rfl : text = text' := Option.some.inj (htext.symm.trans (h.get_of_mem hmem))
        change restOf (s.filesOf idMain) _ = _
        rw [hfiles, hnone]
        rfl
      · rfl

/-- What is read of a file is read without an error. -/
def isOk : FileZipHandler.Read → Bool
  | .data _ isOk => isOk
  | .eof _ isOk => isOk
  | .error => false

lemma handedOf_append (s : Store) (idMain : Int) (queries : List Bytes) (i : Int) :
    handedOf { s with handed := s.handed ++ queries.map (fun q => (idMain, q)) } i =
      s.handedOf i ++ if i = idMain then queries else [] := by
  rw [handedOf, handedOf, List.filter_append, List.map_append, List.filter_map, List.map_map]
  congr 1
  by_cases hi : i = idMain
  · rw [if_pos hi, List.filter_eq_self.mpr (by simp [hi])]
    exact List.map_id _
  · rw [if_neg hi, List.filter_eq_nil_iff.mpr (by simp [Ne.symm hi])]
    rfl

section Turn

variable {idMain : Int} {l : Loading} {read : FileZipHandler.Read} {rest : Bytes}

lemma Inv.unlink (h : s.Inv) (hl : SortedMap.get idMain s.loading = some l)
    (handed : List (Int × Bytes)) :
    Inv { s with
      chosen := SortedMap.erase idMain s.chosen
      loading := SortedMap.erase idMain s.loading
      disk := SortedMap.erase ⟨idMain, l.time⟩ s.disk
      handed := handed } := by
  obtain ⟨⟨text, htext⟩, hclosed⟩ := h.exists_loading hl
  refine { h with
    ordered := h.ordered.filter _
    times := fun f hf => h.times f (List.mem_of_mem_filter hf)
    texts := fun f hf => h.texts f (List.mem_of_mem_filter hf)
    opened := ?opened
    closed := fun ht f hf hc => h.closed ht f (List.mem_of_mem_filter hf) hc
    chosen := ?chosen
    loading := ?loading }
  case opened =>
    intro o ho
    obtain ⟨⟨text', htext'⟩, hnew⟩ := h.opened o ho
    refine ⟨⟨text', List.mem_filter.mpr ⟨htext', decide_eq_true ?_⟩⟩,
      fun f hf => hnew f (List.mem_of_mem_filter hf)⟩
    intro hname
    obtain ⟨hid, htime⟩ := QFilename.mk.inj hname
    refine hclosed ?_
    rw [← hid, ← htime]
    exact ho
  case chosen =>
    intro c hc
    obtain ⟨hc, hne⟩ := List.mem_filter.mp hc
    obtain ⟨⟨text', htext'⟩, hfirst⟩ := h.chosen c hc
    refine ⟨⟨text', List.mem_filter.mpr ⟨htext', decide_eq_true ?_⟩⟩,
      fun f hf => hfirst f (List.mem_of_mem_filter hf)⟩
    intro hname
    exact of_decide_eq_true hne (QFilename.mk.inj hname).1
  case loading =>
    intro m hm
    obtain ⟨hm, hne⟩ := List.mem_filter.mp hm
    obtain ⟨hchosen, hrest⟩ := h.loading m hm
    exact ⟨List.mem_filter.mpr ⟨hchosen, hne⟩, hrest⟩

lemma Inv.filesOf_unlink (h : s.Inv) (hl : SortedMap.get idMain s.loading = some l) (i : Int) :
    (SortedMap.erase ⟨idMain, l.time⟩ s.disk).filter (fun f => f.1.idc = i) =
      if i = idMain then (s.filesOf i).tail else s.filesOf i := by
  split
  · rename_i hi
    subst hi
    obtain ⟨text, files, -, hfiles, herase⟩ :=
      h.filesOf_chosen (h.loading _ (SortedMap.mem_of_get hl)).1
    rw [hfiles]
    exact herase
  · rename_i hi
    rw [SortedMap.erase, List.filter_filter, filesOf]
    refine List.filter_congr ?_
    intro f _
    by_cases hf : f.1.idc = i
    · have hname : f.1 ≠ ⟨idMain, l.time⟩ := by
        intro hname
        rw [hname] at hf
        exact hi hf.symm
      simp [hf, hname]
    · simp [hf]

lemma Inv.readTurn (h : s.Inv) (hl : SortedMap.get idMain s.loading = some l)
    (hbehind : read.behind l.rest = some rest) (hok : isOk read = true) :
    (s.readTurn idMain l read rest).Inv ∧
      ∀ i, (s.readTurn idMain l read rest).total i = s.total i := by
  obtain ⟨hchosen, hclosed, hfits, heof⟩ := h.loading _ (SortedMap.mem_of_get hl)
  cases read with
  | error => cases hok
  | data items isOk =>
    obtain rfl : isOk = true := hok
    obtain ⟨hpre, hrest⟩ := Option.ite_none_right_eq_some.mp hbehind
    obtain ⟨behind, hbytes⟩ := hpre rfl
    obtain rfl : behind = rest := by
      rw [← Option.some.inj hrest, ← hbytes, List.drop_left]
    obtain ⟨rows, g, hturn, hrows, hcut, hfits', heof'⟩ :=
      FileZipHandler.readTurn_data hfits heof items
    rw [Store.readTurn, hturn]
    refine ⟨{ h with loading := ?_ }, ?_⟩
    · intro m hm
      rcases SortedMap.mem_set hm with rfl | hm
      · exact ⟨hchosen, hclosed, hfits', heof'⟩
      · exact h.loading m hm
    · intro i
      have hhanded := handedOf_append s idMain
        ((rows.map (fun r => r ++ [10])).filterMap loadLine) i
      change handedOf { s with handed := _ } i ++ restOf (s.filesOf i) (SortedMap.get i
        (SortedMap.set idLt idMain ⟨l.time, g, behind⟩ s.loading)) = _
      rw [hhanded, List.append_assoc, total, waiting, SortedMap.get_set]
      congr 1
      by_cases hi : i = idMain
      · subst hi
        rw [if_pos rfl, if_pos rfl, hl, restOf, restOf, ← List.append_assoc]
        congr 1
        rw [← hbytes, ← List.append_assoc, hcut, List.append_assoc]
        simp only [queriesOf]
        rw [recordsOf_joinRecords_append hrows, List.filterMap_append]
      · rw [if_neg hi, if_neg (Ne.symm hi)]
        rfl
  | eof items isOk =>
    obtain rfl : isOk = true := hok
    obtain ⟨hwhole, -⟩ := Option.ite_none_right_eq_some.mp hbehind
    rw [Store.readTurn, FileZipHandler.readTurn_eof hfits, hwhole rfl]
    refine ⟨h.unlink hl _, ?_⟩
    intro i
    have hhanded := handedOf_append s idMain
      ((recordsOf 10 (l.handler.content ++ l.rest)).filterMap loadLine) i
    change handedOf { s with handed := _ } i ++ restOf (List.filter _ _) (SortedMap.get i
      (SortedMap.erase idMain s.loading)) = _
    rw [hhanded, h.filesOf_unlink hl, SortedMap.get_erase, List.append_assoc, total, waiting]
    congr 1
    by_cases hi : i = idMain
    · subst hi
      rw [if_pos rfl, if_pos rfl, if_pos rfl, hl]
      rfl
    · rw [if_neg hi, if_neg hi, if_neg (Ne.symm hi)]
      rfl

end Turn

/-! ## Runs -/

def added (cfg : Config) (s : Store) (idc : Int) : StoreAct → List Bytes
  | .query e _ _ => if s.terminate = false ∧ idc = cfg.idc e.idMain then e.loaded.toList else []
  | _ => []

/-- No file is being loaded when a new process begins, and no read of a file fails. -/
def Undisturbed (s : Store) : StoreAct → Prop
  | .restart _ => s.loading = []
  | .read _ read => isOk read = true
  | _ => True

instance (s : Store) (a : StoreAct) : Decidable (Undisturbed s a) := by
  cases a <;> unfold Undisturbed <;> infer_instance

end Store

/-- The entries of an id that are stored by steps, from the state of `terminate` on. -/
def stored (cfg : Config) (idc : Int) : Bool → List StoreAct → List Entry
  | _, [] => []
  | terminate, .query e _ _ :: acts =>
    if terminate = false ∧ idc = cfg.idc e.idMain then e :: stored cfg idc terminate acts
    else stored cfg idc terminate acts
  | _, .queryToFilesTerminate :: acts => stored cfg idc true acts
  | _, .restart _ :: acts => stored cfg idc false acts
  | terminate, _ :: acts => stored cfg idc terminate acts

namespace Store

variable {cfg : Config} {s s' : Store}

end Store

end VoipMonitor.QueryFiles
