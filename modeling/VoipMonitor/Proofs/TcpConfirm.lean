import VoipMonitor.Proofs.TcpConsume

/-!
# What is left behind confirmed bytes

`confirmCompleteData` drops the packets behind the confirmed bytes from the row and sets the offset
of the packet in which they end, `cleanupCompleteData` erases the packets of the row. When the bytes
do not end in a first packet that has an offset already, what is left begins behind them.
-/

namespace VoipMonitor.Tcp
open VoipMonitor.Library

/-! ## The packets behind the confirmed bytes -/

def IndexItem.place (item : IndexItem) : Nat × Nat := (item.seq, item.nextSeq)

def itemsLength (items : List IndexItem) : Nat := (items.map (fun item => item.len)).sum

lemma itemsLength_append (a b : List IndexItem) :
    itemsLength (a ++ b) = itemsLength a + itemsLength b := by
  rw [itemsLength, List.map_append, List.sum_append, ← itemsLength, ← itemsLength]

lemma itemsLength_cons (item : IndexItem) (items : List IndexItem) :
    itemsLength (item :: items) = item.len + itemsLength items := by
  rw [itemsLength, List.map_cons, List.sum_cons, ← itemsLength]

lemma dropUnconfirmed_spec {c : Nat} (hc : 0 < c) {items : List IndexItem} {datalen dropped : Nat}
    (hlen : datalen = dropped + itemsLength items) (hle : c ≤ itemsLength items) :
    ∃ a last b, items = a ++ last :: b ∧ itemsLength a < c ∧ c ≤ itemsLength a + last.len ∧
      Stream.dropUnconfirmed c items.reverse (items.map IndexItem.place) datalen dropped =
        (last :: a.reverse, (a ++ [last]).map IndexItem.place, dropped + itemsLength b) := by
  induction items using List.reverseRecOn generalizing dropped with
  | nil => exact absurd hle (by simp [itemsLength]; omega)
  | append_singleton items x ih =>
    have hx : itemsLength [x] = x.len := by simp [itemsLength]
    rw [itemsLength_append, hx] at hlen hle
    rw [List.reverse_append, List.reverse_singleton, List.singleton_append, Stream.dropUnconfirmed]
    by_cases hdrop : datalen - dropped > x.len ∧ c ≤ datalen - dropped - x.len
    · obtain ⟨a, last, b, rfl, hlt, hle', hrest⟩ := @ih (dropped + x.len) (by omega)
        (by omega)
      refine ⟨a, last, b ++ [x], by simp, hlt, hle', ?_⟩
      have herase : (((a ++ last :: b ++ [x]).map IndexItem.place).reverse.erase
          (x.seq, x.nextSeq)).reverse = (a ++ last :: b).map IndexItem.place := by
        rw [List.map_append, List.reverse_append, List.map_singleton, List.reverse_singleton,
          List.singleton_append, IndexItem.place, List.erase_cons_head, List.reverse_reverse]
      rw [if_pos hdrop, herase, hrest, itemsLength_append, hx, Nat.add_assoc, Nat.add_comm x.len]
    · refine ⟨items, x, [], rfl, by omega, hle, ?_⟩
      rw [if_neg hdrop]
      simp [itemsLength]

/-! ## The row is erased -/

lemma cleared_eraseOkPackets (vars : PacketVars) (row : List (Nat × Nat)) :
    Stream.cleared (Stream.eraseOkPackets vars row) =
      Stream.eraseOkPackets (Stream.cleared vars) row := by
  induction row generalizing vars with
  | nil => rfl
  | cons p row ih =>
    have herase : Stream.cleared (SortedMap.erase p.1 vars) =
        SortedMap.erase p.1 (Stream.cleared vars) := by
      rw [SortedMap.erase, SortedMap.erase, Stream.cleared, Stream.cleared, List.filter_map]
      rfl
    rw [Stream.eraseOkPackets, Stream.eraseOkPackets, get_cleared]
    cases hget : SortedMap.get p.1 vars with
    | none => exact ih vars
    | some v =>
      rw [Option.map_some]
      dsimp only
      rw [ih]
      have hoffset : v.cleanState.offset = v.offset := rfl
      rw [hoffset]
      split
      · rw [herase]
      · rfl

section Queue
variable {pos : Nat}

lemma erase_queueVars {x : Segment × Nat} {queue : List (Segment × Nat)} (hx : x.1.data ≠ []) :
    SortedMap.erase pos (queueVars pos (x :: queue)) =
      queueVars (pos + x.1.data.length) queue := by
  have hpos : 0 < x.1.data.length := List.length_pos_iff.mpr hx
  rw [SortedMap.erase, queueVars, List.filter_cons_of_neg (by simp), List.filter_eq_self]
  intro e he
  obtain ⟨-, -, hle, -⟩ := mem_queueVars he
  simp only [ne_eq, decide_eq_true_eq]
  omega

lemma eraseOkPackets_queueVars {taken rest : List (Segment × Nat)} {y : Segment} {offset : Nat}
    (hne : ∀ x ∈ taken ++ [(y, offset)], x.1.data ≠ []) :
    Stream.eraseOkPackets (queueVars pos (taken ++ (y, offset) :: rest))
        (rowFrom pos (taken.map (fun x => x.1) ++ [y])) =
      if offset = 0 then
        queueVars (pos + (joined (taken.map (fun x => x.1))).length + y.data.length) rest
      else queueVars (pos + (joined (taken.map (fun x => x.1))).length) ((y, offset) :: rest) := by
  induction taken generalizing pos with
  | nil =>
    have hget : SortedMap.get pos (queueVars pos ((y, offset) :: rest)) =
        some ⟨[(pos + y.data.length, .setData pos y.psh y.data y.data.length y.isSip)], offset⟩ := by
      rw [queueVars, SortedMap.get, if_pos rfl]
    rw [List.nil_append, List.map_nil, List.nil_append, rowFrom, rowFrom, Stream.eraseOkPackets, hget]
    dsimp only
    rw [Stream.eraseOkPackets, erase_queueVars (hne _ (by simp))]
    simp [joined]
  | cons x taken ih =>
    have hget : SortedMap.get pos (queueVars pos (x :: (taken ++ (y, offset) :: rest))) =
        some ⟨[(pos + x.1.data.length,
          .setData pos x.1.psh x.1.data x.1.data.length x.1.isSip)], x.2⟩ := by
      rw [queueVars, SortedMap.get, if_pos rfl]
    have hrow : rowFrom (pos + x.1.data.length) (taken.map (fun x => x.1) ++ [y]) ≠ [] := by
      intro hnil
      have hlen := length_rowFrom (pos + x.1.data.length) (taken.map (fun x => x.1) ++ [y])
      rw [hnil, List.length_append] at hlen
      simp at hlen
    rw [List.cons_append, List.map_cons, List.cons_append, rowFrom, Stream.eraseOkPackets, hget]
    dsimp only
    rw [if_pos (.inl hrow), erase_queueVars (hne x (by simp)),
      ih (fun z hz => hne z (by rw [List.cons_append]; exact List.mem_cons_of_mem _ hz)), joined_cons,
      List.length_append, ← Nat.add_assoc]

lemma update_queueVars {taken rest : List (Segment × Nat)} {y : Segment} {old offset : Nat}
    (hne : ∀ x ∈ taken ++ [(y, old)], x.1.data ≠ []) :
    SortedMap.update (pos + (joined (taken.map (fun x => x.1))).length)
        (fun v => { v with offset := offset }) (queueVars pos (taken ++ (y, old) :: rest)) =
      queueVars pos (taken ++ (y, offset) :: rest) := by
  induction taken generalizing pos with
  | nil =>
    have hpos : 0 < y.data.length := List.length_pos_iff.mpr (hne (y, old) (by simp))
    have hrest : ∀ e ∈ queueVars (pos + y.data.length) rest, e.1 ≠ pos := by
      intro e he
      obtain ⟨-, -, hle, -⟩ := mem_queueVars he
      omega
    have hkey : pos + (joined (([] : List (Segment × Nat)).map (fun x => x.1))).length = pos := rfl
    rw [hkey, List.nil_append, List.nil_append, queueVars, queueVars, SortedMap.update_cons,
      if_pos rfl, SortedMap.update_of_ne hrest]
  | cons x taken ih =>
    have hpos : 0 < x.1.data.length := List.length_pos_iff.mpr (hne x (by simp))
    rw [List.map_cons, joined_cons, List.length_append, ← Nat.add_assoc, List.cons_append,
      List.cons_append, queueVars, queueVars, SortedMap.update_cons,
      if_neg (by dsimp only; omega),
      ih (fun z hz => hne z (by rw [List.cons_append]; exact List.mem_cons_of_mem _ hz))]

end Queue

/-! ## The index of a queue -/

lemma rowFrom_append (pos : Nat) (a b : List Segment) :
    rowFrom pos (a ++ b) = rowFrom pos a ++ rowFrom (pos + (joined a).length) b := by
  induction a generalizing pos with
  | nil => rfl
  | cons g a ih =>
    rw [List.cons_append, rowFrom, ih, rowFrom, joined_cons, List.length_append, ← Nat.add_assoc]
    rfl

lemma rowFrom_split {pos : Nat} {segments : List Segment} {row row' : List (Nat × Nat)}
    {p : Nat × Nat} (h : rowFrom pos segments = row ++ p :: row') :
    ∃ a y b, segments = a ++ y :: b ∧ row = rowFrom pos a ∧
      p = (pos + (joined a).length, pos + (joined a).length + y.data.length) := by
  induction row generalizing pos segments with
  | nil =>
    cases segments with
    | nil => cases h
    | cons g segments => exact ⟨[], g, segments, rfl, rfl, (List.cons.inj h).1.symm⟩
  | cons r row ih =>
    cases segments with
    | nil => cases h
    | cons g segments =>
      obtain ⟨hr, hrest⟩ := List.cons.inj h
      obtain ⟨a, y, b, rfl, rfl, hp⟩ := ih hrest
      refine ⟨g :: a, y, b, rfl, ?_, ?_⟩
      · rw [rowFrom, ← hr]
      · rw [hp, joined_cons, List.length_append, ← Nat.add_assoc]

lemma split_queue {g y : Segment} {offset : Nat} {queue taken rest : List Segment}
    (h : g :: queue = taken ++ y :: rest) (hoffset : taken = [] → offset = 0) :
    ∃ taken' : List (Segment × Nat), taken'.map (fun x => x.1) = taken ∧
      (g, offset) :: unread queue = taken' ++ (y, 0) :: unread rest := by
  cases taken with
  | nil =>
    obtain ⟨rfl, rfl⟩ := List.cons.inj h
    exact ⟨[], rfl, by rw [hoffset rfl]; rfl⟩
  | cons x taken =>
    rw [List.cons_append, List.cons.injEq] at h
    obtain ⟨rfl, rfl⟩ := h
    refine ⟨(g, offset) :: unread taken, ?_, ?_⟩
    · rw [List.map_cons, map_unread]
    · rw [unread, List.map_append, List.map_cons]
      rfl

section Index
variable {pos offset : Nat} {g : Segment} {a b : List Segment}
  (hlt : offset < g.data.length) (hne : ∀ x ∈ a ++ b, x.data ≠ [])

def queueItems (pos : Nat) (g : Segment) (offset : Nat) (queue segments : List Segment) :
    List IndexItem :=
  (rowFrom pos segments).map (Stream.indexItem (queueBytes pos g offset queue))

lemma places_queueItems (queue segments : List Segment) :
    (queueItems pos g offset queue segments).map IndexItem.place = rowFrom pos segments := by
  rw [queueItems, List.map_map]
  exact List.map_id _

include hne in
lemma length_queueBytes_rest {r : Nat × Nat} (hr : r ∈ rowFrom (pos + g.data.length) (a ++ b))
    (hpos : 0 < g.data.length) :
    (queueBytes pos g offset (a ++ b) r).length = r.2 - r.1 := by
  have hin := mem_rowFrom hne hr
  rw [queueBytes, if_neg (by omega)]
  exact Stream.length_bytesAt hin

include hlt hne in
lemma itemsLength_queueItems :
    itemsLength (queueItems pos g offset (a ++ b) (g :: a)) = (joined (g :: a)).length - offset := by
  have hrest : ∀ (start : Nat) (segments : List Segment),
      (∀ r ∈ rowFrom start segments, r ∈ rowFrom (pos + g.data.length) (a ++ b)) →
      itemsLength ((rowFrom start segments).map
        (Stream.indexItem (queueBytes pos g offset (a ++ b)))) = (joined segments).length := by
    intro start segments hsub
    induction segments generalizing start with
    | nil => rfl
    | cons x segments ih =>
      have hx := hsub (start, start + x.data.length) List.mem_cons_self
      have hlen := @length_queueBytes_rest pos offset g a b hne _ hx (by omega)
      rw [rowFrom, List.map_cons, itemsLength_cons,
        ih _ (fun r hr => hsub r (List.mem_cons_of_mem _ hr)), joined_cons, List.length_append,
        Stream.indexItem]
      dsimp only at hlen ⊢
      omega
  rw [queueItems, rowFrom, List.map_cons, itemsLength_cons,
    hrest _ a (fun r hr => by rw [rowFrom_append]; exact List.mem_append_left _ hr), joined_cons,
    List.length_append, Stream.indexItem, queueBytes, if_pos rfl]
  dsimp only
  rw [List.length_drop]
  omega

end Index

/-! ## The confirmed bytes -/

structure Cut (g : Segment) (offset : Nat) (queue : List Segment) (c : Nat)
    (taken : List (Segment × Nat)) (y : Segment) (rest : List Segment) : Prop where
  queue_eq : (g, offset) :: unread queue = taken ++ (y, 0) :: unread rest
  lt : (joined (taken.map (fun x => x.1))).length < offset + c
  le : offset + c ≤ (joined (taken.map (fun x => x.1))).length + y.data.length

section Confirm
variable {s : Stream} {pos offset seq c : Nat} {g : Segment} {queue a b : List Segment}
  (h : QueueOk s pos g offset queue) (hqueue : queue = a ++ b)
  (hstep : 0 < offset → g.data.length - offset < c)
include h hqueue hstep

lemma cut_of_items {items items' : List IndexItem} {last : IndexItem}
    (hitems : queueItems pos g offset queue (g :: a) = items ++ last :: items')
    (hlt : itemsLength items < c) (hle : c ≤ itemsLength items + last.len) :
    ∃ taken y rest, Cut g offset queue c taken y rest ∧
      (items ++ [last]).map IndexItem.place = rowFrom pos (taken.map (fun x => x.1) ++ [y]) ∧
      last.seq = pos + (joined (taken.map (fun x => x.1))).length ∧ last.len = y.data.length ∧
      itemsLength items + offset = (joined (taken.map (fun x => x.1))).length := by
  obtain ⟨row, row', hrow, hrow₁, hrow₂⟩ := List.map_eq_append_iff.mp hitems
  obtain ⟨p, row'', hrow₃, hlast, -⟩ := List.map_eq_cons_iff.mp hrow₂
  rw [hrow₃] at hrow
  obtain ⟨l, y, r, hl, rfl, hp⟩ := rowFrom_split hrow
  have hoff := h.offset_lt
  have hlen : itemsLength items + offset = (joined l).length ∧ (l = [] → offset = 0) ∧
      last.len = y.data.length := by
    cases l with
    | nil =>
      -- the bytes end in the first segment, which has no offset then
      obtain ⟨rfl, -⟩ := List.cons.inj hl
      have hzero : itemsLength items = 0 := by
        rw [← hrow₁]
        rfl
      have hlen : last.len = g.data.length - offset := by
        rw [← hlast, Stream.indexItem, queueBytes, hp]
        simp [joined]
      have ho : offset = 0 := by
        by_contra ho
        have := hstep (by omega)
        omega
      exact ⟨by rw [hzero, ho]; rfl, fun _ => ho, by omega⟩
    | cons x l =>
      rw [List.cons_append, List.cons.injEq] at hl
      obtain ⟨rfl, ha⟩ := hl
      have hne : ∀ x ∈ l ++ (y :: r ++ b), x.data ≠ [] := by
        intro x hx
        refine h.ne_nil x (List.mem_cons_of_mem _ ?_)
        rw [hqueue, ha, List.append_assoc]
        exact hx
      have hqueue' : queue = l ++ (y :: r ++ b) := by rw [hqueue, ha, List.append_assoc]
      have hitems' := @itemsLength_queueItems pos offset g l (y :: r ++ b) hoff hne
      rw [← hqueue', queueItems, hrow₁, joined_cons, List.length_append] at hitems'
      have hp' : p ∈ rowFrom (pos + g.data.length) (l ++ (y :: r ++ b)) := by
        rw [rowFrom_append, List.cons_append, rowFrom, hp, joined_cons, List.length_append,
          ← Nat.add_assoc]
        simp
      have hlast' := @length_queueBytes_rest pos offset g l (y :: r ++ b) hne p hp' (by omega)
      rw [← hqueue'] at hlast'
      refine ⟨?_, by simp, ?_⟩
      · rw [joined_cons, List.length_append]
        omega
      · rw [← hlast, Stream.indexItem, hlast', hp]
        simp
  obtain ⟨hsum, hzero, hlastlen⟩ := hlen
  have hcut : g :: queue = l ++ y :: (r ++ b) := by
    rw [hqueue, ← List.cons_append, hl, List.append_assoc, List.cons_append]
  obtain ⟨taken, rfl, heq⟩ := split_queue hcut hzero
  refine ⟨taken, y, r ++ b, ⟨heq, by omega, by omega⟩, ?_, ?_, hlastlen, hsum⟩
  · rw [List.map_append, ← hrow₁, List.map_map, ← hlast, rowFrom_append, List.map_singleton, hp]
    exact congrArg (· ++ _) (List.map_id _)
  · rw [← hlast, hp]
    rfl

omit hqueue hstep in
lemma queueItems_pos {item : IndexItem} {segments : List Segment}
    (hsub : ∀ r ∈ rowFrom pos segments, r ∈ rowFrom pos (g :: queue))
    (hitem : item ∈ queueItems pos g offset queue segments) : 0 < item.len := by
  obtain ⟨r, hr, rfl⟩ := List.mem_map.mp hitem
  have hoff := h.offset_lt
  rw [Stream.indexItem]
  rcases List.mem_cons.mp (hsub r hr) with rfl | hr
  · rw [queueBytes, if_pos rfl]
    dsimp only
    rw [List.length_drop]
    omega
  · have hne : ∀ x ∈ [] ++ queue, x.data ≠ [] := fun x hx => h.ne_nil x (List.mem_cons_of_mem _ hx)
    have hlen := @length_queueBytes_rest pos offset g [] queue hne r hr (by omega)
    have hin := mem_rowFrom hne hr
    rw [List.nil_append] at hlen
    dsimp only
    omega

omit hqueue hstep in
lemma get_of_cut {taken : List (Segment × Nat)} {y : Segment} {rest : List Segment}
    (hcut : Cut g offset queue c taken y rest) :
    (SortedMap.get (pos + (joined (taken.map (fun x => x.1))).length) s.queuePacketVars).isSome := by
  obtain ⟨v, hmem⟩ : ∃ v, (pos + (joined (taken.map (fun x => x.1))).length, v) ∈
      queueVars pos (taken ++ (y, 0) :: unread rest) := by
    rw [queueVars_append, queueVars]
    exact ⟨_, List.mem_append_right _ List.mem_cons_self⟩
  have hget := (sorted_queueVars h.ne_nil').get_of_mem (by rw [hcut.queue_eq]; exact hmem)
  rw [← h.vars, get_cleared] at hget
  rw [← Option.isSome_map, hget]
  rfl

variable (hc : 0 < c) (hrow : s.okPackets = rowFrom pos (g :: a))
  (hdata : s.completeData = some ⟨(joined (g :: a)).drop offset, seq⟩)
  (hindex : s.completeDataIndex = queueItems pos g offset queue (g :: a))
include hc hrow hdata hindex

def restOffset (offset c : Nat) (taken : List (Segment × Nat)) (y : Segment) : Nat :=
  if offset + c < (joined (taken.map (fun x => x.1))).length + y.data.length then
    offset + c - (joined (taken.map (fun x => x.1))).length
  else 0

lemma QueueOk.confirmCompleteData (hlt : c < s.getDatalen) :
    ∃ taken y rest vars, Cut g offset queue c taken y rest ∧
      Stream.cleared vars = queueVars pos (taken ++ (y, restOffset offset c taken y) :: unread rest) ∧
      ∃ index, (s.confirmCompleteData c).1 =
        { s with
          completeDataIndex := index
          okPackets := rowFrom pos (taken.map (fun x => x.1) ++ [y])
          queuePacketVars := vars } := by
  have hne : ∀ x ∈ a ++ b, x.data ≠ [] := by
    rw [← hqueue]
    exact fun x hx => h.ne_nil x (List.mem_cons_of_mem _ hx)
  have hlen : s.getDatalen = 0 + itemsLength (queueItems pos g offset queue (g :: a)) := by
    rw [Stream.getDatalen, hdata, Option.map_some, Option.getD_some, hqueue,
      itemsLength_queueItems h.offset_lt hne, List.length_drop, Nat.zero_add]
  obtain ⟨items, last, items', hitems, hless, hle, hdrop⟩ :=
    dropUnconfirmed_spec hc hlen (by omega)
  rw [places_queueItems] at hdrop
  obtain ⟨taken, y, rest, hcut, hplaces, hseq, hlast, hsum⟩ :=
    cut_of_items h hqueue hstep hitems hless hle
  have htotal : s.getDatalen - (0 + itemsLength items') = itemsLength items + last.len := by
    rw [hlen, hitems, itemsLength_append, itemsLength_cons]
    omega
  have hsome := get_of_cut h hcut
  have hvars := h.vars
  rw [hcut.queue_eq] at hvars
  have hnonempty : ∀ x ∈ taken ++ [(y, 0)], x.1.data ≠ [] := by
    intro x hx
    refine h.ne_nil' x ?_
    rw [hcut.queue_eq, List.append_cons]
    exact List.mem_append_left _ hx
  rw [Stream.confirmCompleteData, if_pos ⟨by omega, hlt⟩, hindex, hrow, hdrop]
  dsimp only
  rw [htotal, hplaces]
  by_cases hrest : c < itemsLength items + last.len
  · refine ⟨taken, y, rest, SortedMap.update last.seq
      (fun v => { v with offset := last.len - (itemsLength items + last.len - c) })
      s.queuePacketVars, hcut, ?_, (last :: items.reverse).reverse, ?_⟩
    · have hupdate : Stream.cleared (SortedMap.update last.seq
          (fun v => { v with offset := last.len - (itemsLength items + last.len - c) })
          s.queuePacketVars) = SortedMap.update last.seq
          (fun v => { v with offset := last.len - (itemsLength items + last.len - c) })
          (Stream.cleared s.queuePacketVars) := by
        rw [Stream.cleared, Stream.cleared, SortedMap.update, SortedMap.update, List.map_map,
          List.map_map]
        refine List.map_congr_left ?_
        intro e _
        rw [Function.comp_apply, Function.comp_apply]
        split <;> rfl
      rw [hupdate, hvars, hseq, update_queueVars hnonempty, restOffset, if_pos (by omega)]
      congr 4
      omega
    · rw [if_pos ⟨hrest, by omega, by rw [hseq]; exact hsome⟩]
      rfl
  · refine ⟨taken, y, rest, s.queuePacketVars, hcut, ?_, (last :: items.reverse).reverse, ?_⟩
    · rw [hvars, restOffset, if_neg (by omega)]
    · rw [if_neg (fun hif => hrest hif.1)]

def Fresh (cfg : StreamConfig) (s : Stream) : Prop :=
  cfg.enableSmartCompleteData = true ∨ s.isOk = false ∧ s.completeData = none

def Left (cfg : StreamConfig) (pos n : Nat) (segments : List Segment) : Option Stream → Prop
  | none => n = (joined segments).length
  | some s => Fresh cfg s ∧ ∃ before g offset queue,
      segments = before ++ g :: queue ∧ n = (joined before).length + offset ∧
      QueueOk s (pos + (joined before).length) g offset queue

omit h hqueue hstep hc hrow hdata hindex in
lemma Left.behind {cfg : StreamConfig} {before segments : List Segment} {n : Nat}
    {r : Option Stream} (hleft : Left cfg (pos + (joined before).length) n segments r) :
    Left cfg pos ((joined before).length + n) (before ++ segments) r := by
  cases r with
  | none =>
    rw [Left] at hleft ⊢
    rw [joined_append, List.length_append, hleft]
  | some s =>
    obtain ⟨hfresh, before', g, offset, queue, rfl, rfl, hqueue⟩ := hleft
    refine ⟨hfresh, before ++ before', g, offset, queue, ?_, ?_, ?_⟩
    · rw [List.append_assoc]
    · rw [joined_append, List.length_append, Nat.add_assoc]
    · rw [joined_append, List.length_append, ← Nat.add_assoc]
      exact hqueue

omit h hqueue hstep hc hrow hdata hindex in
lemma cleanupCompleteData_spec {s : Stream} (hrow : s.okPackets ≠ []) {vars : PacketVars}
    (hvars : Stream.cleared (Stream.eraseOkPackets s.queuePacketVars s.okPackets) = vars) :
    s.cleanupCompleteData.queuePacketVars = vars ∧ s.cleanupCompleteData.isOk = false ∧
      s.cleanupCompleteData.completeData = none ∧
      s.cleanupCompleteData.firstSeq = s.firstSeq ∧ s.cleanupCompleteData.lastSeq = s.lastSeq ∧
      ∀ e ∈ vars.head?, s.cleanupCompleteData.minSeq = e.1 := by
  rw [Stream.cleanupCompleteData, if_pos hrow, ← Stream.cleared, hvars]
  cases vars with
  | nil =>
    refine ⟨rfl, rfl, rfl, rfl, rfl, ?_⟩
    intro e he
    cases he
  | cons e vars =>
    refine ⟨rfl, rfl, rfl, rfl, rfl, ?_⟩
    intro e' he'
    rw [List.head?_cons, Option.mem_some_iff] at he'
    rw [← he']
    rfl

omit hqueue hstep hc hrow hdata hindex in
lemma left_cleanup (cfg : StreamConfig) {s₁ : Stream} {taken : List (Segment × Nat)} {y : Segment} {rest : List Segment}
    (hcut : Cut g offset queue c taken y rest)
    (hrow : s₁.okPackets = rowFrom pos (taken.map (fun x => x.1) ++ [y]))
    (hvars : Stream.cleared s₁.queuePacketVars =
      queueVars pos (taken ++ (y, restOffset offset c taken y) :: unread rest))
    (hfirst : s₁.firstSeq = 0) (hlast : s₁.lastSeq = 0) :
    Left cfg pos (offset + c) (g :: queue)
      (if s₁.cleanupCompleteData.queuePacketVars = [] then none else some s₁.cleanupCompleteData) := by
  have hsegments := congrArg (List.map (fun x => x.1)) hcut.queue_eq
  rw [List.map_cons, map_unread, List.map_append, List.map_cons, map_unread] at hsegments
  dsimp only at hsegments
  have hcutlt := hcut.lt
  have hcutle := hcut.le
  have hwrap := h.wrap
  have hne := h.ne_nil
  rw [hsegments, joined_append, joined_cons, List.length_append, List.length_append] at hwrap
  rw [hsegments] at hne ⊢
  have hnonempty : ∀ x ∈ taken ++ [(y, restOffset offset c taken y)], x.1.data ≠ [] := by
    intro x hx
    refine hne x.1 ?_
    rcases List.mem_append.mp hx with hx | hx
    · exact List.mem_append_left _ (List.mem_map.mpr ⟨x, hx, rfl⟩)
    · rw [List.mem_singleton.mp hx]
      exact List.mem_append_right _ List.mem_cons_self
  have hrow' : s₁.okPackets ≠ [] := by
    intro hnil
    have hlen := length_rowFrom pos (taken.map (fun x => x.1) ++ [y])
    rw [← hrow, hnil, List.length_append] at hlen
    simp at hlen
  have herased := cleared_eraseOkPackets s₁.queuePacketVars s₁.okPackets
  rw [hvars, hrow, eraseOkPackets_queueVars hnonempty, ← hrow] at herased
  obtain ⟨hvars', hisOk, hnone, hfirst', hlast', hmin⟩ := cleanupCompleteData_spec hrow' herased
  by_cases hx : restOffset offset c taken y = 0
  · -- the bytes end with a packet, which is erased
    have hend : offset + c = (joined (taken.map (fun x => x.1))).length + y.data.length := by
      rw [restOffset] at hx
      split at hx <;> omega
    have hend' : offset + c = (joined (taken.map (fun x => x.1) ++ [y])).length := by
      rw [joined_append, joined_cons, List.length_append, List.length_append]
      exact hend
    rw [if_pos hx] at hvars' hmin
    cases rest with
    | nil =>
      have hnil : s₁.cleanupCompleteData.queuePacketVars = [] := hvars'
      rw [if_pos hnil]
      exact hend'
    | cons g' rest =>
      have hpos' : pos + (joined (taken.map (fun x => x.1) ++ [y])).length =
          pos + (joined (taken.map (fun x => x.1))).length + y.data.length := by
        omega
      have hmin' := hmin _ rfl
      rw [if_neg (by rw [hvars']; exact List.cons_ne_nil _ _)]
      refine ⟨.inr ⟨hisOk, hnone⟩, taken.map (fun x => x.1) ++ [y], g', 0, rest, by simp, hend',
        ?_⟩
      rw [hpos']
      refine ⟨?_, hmin', hfirst'.trans hfirst, hlast'.trans hlast, ?_, ?_, by omega⟩
      · rw [hvars', cleared_queueVars]
        rfl
      · exact List.length_pos_iff.mpr (hne g' (by simp))
      · intro x hx
        exact hne x (List.mem_append_right _ (List.mem_cons_of_mem _ hx))
  · -- the bytes end in a packet, which stays with its offset
    have hoffset : restOffset offset c taken y =
        offset + c - (joined (taken.map (fun x => x.1))).length ∧
        offset + c < (joined (taken.map (fun x => x.1))).length + y.data.length := by
      rw [restOffset] at hx ⊢
      split at hx
      · rename_i hless
        exact ⟨if_pos hless, hless⟩
      · exact absurd rfl hx
    rw [if_neg hx] at hvars' hmin
    rw [if_neg (by rw [hvars']; exact List.cons_ne_nil _ _)]
    refine ⟨.inr ⟨hisOk, hnone⟩, taken.map (fun x => x.1), y, restOffset offset c taken y, rest, rfl,
      by omega, ?_⟩
    have hlen : (joined (y :: rest)).length = y.data.length + (joined rest).length := by
      rw [joined_cons, List.length_append]
    refine ⟨?_, hmin _ rfl, hfirst'.trans hfirst, hlast'.trans hlast, by omega, ?_, by omega⟩
    · rw [hvars', cleared_queueVars]
    · intro x hx
      exact hne x (List.mem_append_right _ hx)

theorem QueueOk.confirm (cfg : StreamConfig) (hle : c ≤ s.getDatalen) :
    (s.confirm cfg c).2 = ((joined (g :: a)).drop offset).take c ∧
      Left cfg pos (offset + c) (g :: queue) (s.confirm cfg c).1 := by
  have hget : s.getData = (joined (g :: a)).drop offset := by
    rw [Stream.getData, hdata]
    rfl
  have hdatalen : s.getDatalen = ((joined (g :: a)).drop offset).length := by
    rw [Stream.getDatalen, hdata]
    rfl
  rw [Stream.confirm, if_pos (by omega)]
  dsimp only
  by_cases hlt : c < s.getDatalen
  · obtain ⟨taken, y, rest, vars, hcut, hvars, index, hconfirm⟩ :=
      h.confirmCompleteData hqueue hstep hc hrow hdata hindex hlt
    rw [if_pos hlt, hconfirm]
    refine ⟨?_, left_cleanup h cfg hcut rfl hvars h.firstSeq h.lastSeq⟩
    rw [Stream.getData, Stream.setDatalen]
    dsimp only
    rw [hdata]
    rfl
  · -- all of the row is confirmed
    have hne : ∀ x ∈ a ++ b, x.data ≠ [] := by
      rw [← hqueue]
      exact fun x hx => h.ne_nil x (List.mem_cons_of_mem _ hx)
    have hall : itemsLength (queueItems pos g offset queue (g :: a)) = c := by
      rw [hqueue, itemsLength_queueItems h.offset_lt hne]
      rw [List.length_drop] at hdatalen
      omega
    obtain ⟨items, last, hitems⟩ : ∃ items last,
        queueItems pos g offset queue (g :: a) = items ++ [last] := by
      refine (List.eq_nil_or_concat' _).resolve_left ?_
      intro hnil
      rw [queueItems, rowFrom] at hnil
      cases hnil
    have hpos : 0 < last.len := by
      refine queueItems_pos h (fun r hr => ?_) (by rw [hitems]; simp)
      rw [hqueue, ← List.cons_append, rowFrom_append]
      exact List.mem_append_left _ hr
    have hsum : itemsLength items + last.len = c := by
      rw [hitems, itemsLength_append, itemsLength_cons] at hall
      exact hall
    obtain ⟨taken, y, rest, hcut, hplaces, -, hlast, htotal⟩ :=
      cut_of_items h hqueue hstep hitems (by omega) (by omega)
    have hoffset : restOffset offset c taken y = 0 := if_neg (by omega)
    rw [if_neg hlt, hget]
    refine ⟨(List.take_of_length_le (by omega)).symm,
      left_cleanup h cfg hcut ?_ ?_ h.firstSeq h.lastSeq⟩
    · rw [← hplaces, ← hitems, places_queueItems]
      exact hrow
    · rw [hoffset, ← hcut.queue_eq]
      exact h.vars

end Confirm

end VoipMonitor.Tcp
