import VoipMonitor.Proofs.TcpOrder

/-!
# The row that `ok` finds

`ok` tries rows of packets and gives up those that do not reach the end of the stream. The row it
finds goes, from the packet with which it begins, to the first packet in the order in which they
are tried from which the end is reached, again and again.
-/

namespace VoipMonitor.Tcp
open VoipMonitor.Library

/-! ## The first row -/

/-- What `ok` knows of a stream before it begins: the layout, the bounds, and the number that is
read at the end of the map. -/
structure Shape where
  layout : Layout
  minSeq : Nat
  maxNextSeq : Nat

namespace Shape

section
variable (completeMod mapEnd : Nat) (sh : Shape)

def Good (p : Nat × Nat) : Prop :=
  FirstPath.Good (candidates completeMod sh.layout) (fun p => p.2 = sh.maxNextSeq) p

/-- The row that goes from a packet to the first one from which the end is reached, up to the
end. -/
def Route (p : Nat × Nat) (row : List (Nat × Nat)) : Prop :=
  FirstPath.Route (candidates completeMod sh.layout) (fun p => p.2 = sh.maxNextSeq) p row

def GivenUp (tried : List (Nat × Nat)) (q : Nat × Nat) : Prop :=
  ∃ p ∈ tried, Relation.ReflTransGen (fun p q => q ∈ candidates completeMod sh.layout p) p q

open Classical in
/-- The first packet from `seq` on that was not given up. -/
noncomputable def firstOpen (tried : List (Nat × Nat)) (seq : Nat) : Option (Nat × Nat) :=
  (startsAt completeMod sh.layout seq).find? (fun q => ¬GivenUp completeMod sh tried q)

open Classical in
/-- The first number from `seq` on at which a packet begins that was not given up. -/
noncomputable def nextOpen (tried : List (Nat × Nat)) (seq : Nat) : Nat :=
  let k := ((sh.layout.find? (fun e => seq ≤ e.1 ∧
    ∃ q ∈ rowsAt e, ¬GivenUp completeMod sh tried q)).map (fun e => e.1)).getD mapEnd
  if k ≠ 0 then k else sh.minSeq

/-- Where the next row begins after one was begun with `p` in vain. -/
noncomputable def behind (tried : List (Nat × Nat)) (seq : Nat) (p : Nat × Nat) : Nat :=
  if completeMod = 1 ∧ (SortedMap.get p.2 sh.layout).isSome then
    nextOpen completeMod mapEnd sh (p :: tried) p.2
  else seq

/-- The row begins with a packet when it is begun at `seq` and was begun with other packets
before. -/
inductive Begins : Nat → List (Nat × Nat) → Nat × Nat → Prop
  | good {seq : Nat} {tried : List (Nat × Nat)} {p : Nat × Nat} :
      firstOpen completeMod sh tried seq = some p → Good completeMod sh p → Begins seq tried p
  | bad {seq : Nat} {tried : List (Nat × Nat)} {p q : Nat × Nat} :
      firstOpen completeMod sh tried seq = some p → ¬Good completeMod sh p →
      Begins (behind completeMod mapEnd sh tried seq p) (p :: tried) q → Begins seq tried q
  | next {seq : Nat} {tried : List (Nat × Nat)} {q : Nat × Nat} :
      firstOpen completeMod sh tried seq = none → completeMod = 1 →
      Begins (nextOpen completeMod mapEnd sh tried seq) tried q → Begins seq tried q

end

lemma Begins.unique {completeMod mapEnd : Nat} {sh : Shape} {seq : Nat} {tried : List (Nat × Nat)}
    {p q : Nat × Nat} (h : Begins completeMod mapEnd sh seq tried p)
    (h' : Begins completeMod mapEnd sh seq tried q) : p = q := by
  induction h with
  | good hopen hgood =>
    cases h' with
    | good hopen' _ => exact Option.some.inj (hopen.symm.trans hopen')
    | bad hopen' hbad _ =>
      rw [hopen] at hopen'
      rw [← Option.some.inj hopen'] at hbad
      exact absurd hgood hbad
    | next hopen' _ _ =>
      rw [hopen] at hopen'
      cases hopen'
  | bad hopen hbad _ ih =>
    cases h' with
    | good hopen' hgood =>
      rw [hopen] at hopen'
      rw [← Option.some.inj hopen'] at hgood
      exact absurd hgood hbad
    | bad hopen' _ hrest =>
      rw [hopen] at hopen'
      rw [← Option.some.inj hopen'] at hrest
      exact ih hrest
    | next hopen' _ _ =>
      rw [hopen] at hopen'
      cases hopen'
  | next hopen _ _ ih =>
    cases h' with
    | good hopen' _ =>
      rw [hopen] at hopen'
      cases hopen'
    | bad hopen' _ _ =>
      rw [hopen] at hopen'
      cases hopen'
    | next _ _ hrest => exact ih hrest

end Shape

namespace Stream

def shape (s : Stream) : Shape := ⟨layout s.queuePacketVars, s.minSeq, s.maxNextSeq⟩

/-! ## The search -/

def number (s : Stream) (w : Walk) : Nat := if w.forceFirstSeq ≠ 0 then w.forceFirstSeq else s.minSeq

/-- What holds between the rounds of a walk that began with `s₀`: `tried` are the packets with which
a row was begun in vain. -/
structure Searching (cfg : StreamConfig) (s₀ s : Stream) (w : Walk) (tried : List (Nat × Nat)) :
    Prop where
  walked : Walked s₀ s
  walkable : Walkable s.queuePacketVars
  search : FirstPath.Tried (candidates cfg.completeMod s₀.shape.layout)
    (fun p => p.2 = s₀.shape.maxNextSeq) (failed s.queuePacketVars) s.okPackets
  present : ∀ p ∈ s.okPackets, (packetAt s.queuePacketVars p).isSome
  psh : w.waitForPsh = false
  head : ∀ p ∈ s.okPackets.head?,
    s₀.shape.firstOpen cfg.completeMod tried (number s₀ w) = some p
  reach : ∀ p ∈ s.okPackets.head?, ∀ q ∈ s.okPackets,
    Relation.ReflTransGen (fun p q => q ∈ candidates cfg.completeMod s₀.shape.layout p) p q
  givenUp : ∀ q, failed s.queuePacketVars q = true →
    s₀.shape.GivenUp cfg.completeMod (s.okPackets.head?.toList ++ tried) q
  failed_tried : ∀ p ∈ tried, failed s.queuePacketVars p = true
  begins : ∀ p, s₀.shape.Begins cfg.completeMod cfg.mapEnd (number s₀ w) tried p →
    s₀.shape.Begins cfg.completeMod cfg.mapEnd s₀.minSeq [] p

section Search
variable {cfg : StreamConfig} {s₀ s : Stream} {w : Walk} {tried : List (Nat × Nat)}

lemma Searching.layout_eq (h : Searching cfg s₀ s w tried) :
    layout s.queuePacketVars = s₀.shape.layout :=
  h.walked.layout

lemma Searching.failed_iff (h : Searching cfg s₀ s w tried) (hrow : s.okPackets = [])
    (q : Nat × Nat) :
    failed s.queuePacketVars q = true ↔ s₀.shape.GivenUp cfg.completeMod tried q := by
  constructor
  · intro hq
    have hgiven := h.givenUp q hq
    rw [hrow] at hgiven
    exact hgiven
  · rintro ⟨p, hp, hreach⟩
    exact h.search.failed_of_reach (h.failed_tried p hp) hreach

lemma firstUsable_eq_firstOpen {sh : Shape} {completeMod : Nat} {vars : PacketVars}
    (h : ∀ q, failed vars q = true ↔ sh.GivenUp completeMod tried q) (seq : Nat) :
    firstUsable vars (startsAt completeMod sh.layout seq) = sh.firstOpen completeMod tried seq := by
  classical
  rw [firstUsable, Shape.firstOpen]
  congr 1
  funext q
  rw [Bool.eq_iff_iff, decide_eq_true_iff, ← h q]
  simp

lemma nextUsable_eq_nextOpen {sh : Shape} {completeMod mapEnd : Nat} {vars : PacketVars}
    (hwalk : Walkable vars) (hlayout : layout vars = sh.layout)
    (h : ∀ q, failed vars q = true ↔ sh.GivenUp completeMod tried q) (seq : Nat) :
    (if (nextUsable vars seq).getD mapEnd ≠ 0 then (nextUsable vars seq).getD mapEnd
      else sh.minSeq) = sh.nextOpen completeMod mapEnd tried seq := by
  classical
  rw [Shape.nextOpen, ← hlayout, layout, List.find?_map, Option.map_map, nextUsable]
  have hfind : ∀ l : PacketVars, (∀ e ∈ l, e ∈ vars) →
      l.find? (fun e => seq ≤ e.1 && !e.2.isFail) =
        l.find? ((fun e : Nat × List Nat => decide (seq ≤ e.1 ∧
          ∃ q ∈ rowsAt e, ¬sh.GivenUp completeMod tried q)) ∘
            fun e : Nat × PacketVar => (e.1, e.2.queuePackets.map (fun q => q.1))) := by
    intro l hl
    induction l with
    | nil => rfl
    | cons e l ih =>
      have hfail : e.2.isFail = false ↔
          ∃ q ∈ rowsAt (e.1, e.2.queuePackets.map (fun q => q.1)),
            ¬sh.GivenUp completeMod tried q := by
        rw [← Bool.not_eq_true, isFail_iff hwalk (hl e List.mem_cons_self), firstUsable,
          List.find?_eq_none]
        push Not
        refine exists_congr (fun q => and_congr_right (fun _ => ?_))
        rw [← h q]
        simp
      rw [List.find?_cons, List.find?_cons, ih (fun e he => hl e (List.mem_cons_of_mem _ he))]
      have heq : (decide (seq ≤ e.1) && !e.2.isFail) = ((fun e : Nat × List Nat =>
          decide (seq ≤ e.1 ∧ ∃ q ∈ rowsAt e, ¬sh.GivenUp completeMod tried q)) ∘
          fun e : Nat × PacketVar => (e.1, e.2.queuePackets.map (fun q => q.1))) e := by
        rw [Function.comp_apply, Bool.decide_and]
        congr 1
        rw [Bool.eq_iff_iff, Bool.not_eq_true', hfail, decide_eq_true_iff]
      rw [heq]
  rw [hfind vars (fun e he => he)]
  rfl

lemma givenUp_cons {sh : Shape} {completeMod : Nat} {p q : Nat × Nat}
    (h : sh.GivenUp completeMod tried q) : sh.GivenUp completeMod (p :: tried) q := by
  obtain ⟨r, hr, hreach⟩ := h
  exact ⟨r, List.mem_cons_of_mem _ hr, hreach⟩

section Take
variable {q : Nat × Nat} (h : Searching cfg s₀ s w tried)
  (hopen : failed s.queuePacketVars q = false)
  (hmem : ∃ e ∈ layout s.queuePacketVars, q ∈ rowsAt e)
  (hlast : ∀ p ∈ s.okPackets.getLast?,
    firstUsable s.queuePacketVars (candidates cfg.completeMod s₀.shape.layout p) = some q)
  (hfirst : s.okPackets = [] → firstUsable s.queuePacketVars
    (startsAt cfg.completeMod s₀.shape.layout (number s₀ w)) = some q)

lemma head_append (row : List (Nat × Nat)) (q : Nat × Nat) :
    (row = [] ∧ (row ++ [q]).head? = some q) ∨
      (∃ p, row.head? = some p ∧ (row ++ [q]).head? = some p) := by
  cases row with
  | nil => exact .inl ⟨rfl, rfl⟩
  | cons p row => exact .inr ⟨p, rfl, rfl⟩

include h hfirst in
lemma Searching.head_takePacket {p : Nat × Nat} (hp : p ∈ (s.okPackets ++ [q]).head?) :
    s₀.shape.firstOpen cfg.completeMod tried (number s₀ w) = some p := by
  rcases head_append s.okPackets q with ⟨hnil, hq⟩ | ⟨p', hp', hq⟩
  · rw [hq, Option.mem_some_iff] at hp
    rw [← hp, ← hfirst hnil]
    exact (firstUsable_eq_firstOpen (h.failed_iff hnil) _).symm
  · rw [hq, Option.mem_some_iff] at hp
    rw [← hp]
    exact h.head p' hp'

include h hmem in
lemma Searching.present_takePacket {p : Nat × Nat} (hp : p ∈ s.okPackets ++ [q]) :
    (packetAt (s.takePacket q).queuePacketVars p).isSome := by
  have hsame : (packetAt (s.takePacket q).queuePacketVars p).isSome =
      (packetAt s.queuePacketVars p).isSome := isSome_packetAt_withState _ _ _ _
  rw [hsame]
  rcases List.mem_append.mp hp with hp | hp
  · exact h.present p hp
  · rw [List.mem_singleton.mp hp]
    exact (isSome_packetAt_iff h.walkable q).mpr hmem

include h hopen hmem hlast hfirst in
lemma Searching.takePacket (hgoal : q.2 ≠ s₀.maxNextSeq) (counter : Nat) :
    Searching cfg s₀ (s.takePacket q) { w with counter := counter } tried := by
  have hfailed : failed (s.takePacket q).queuePacketVars = failed s.queuePacketVars :=
    failed_check hopen
  have hrow : (s.takePacket q).okPackets = s.okPackets ++ [q] := rfl
  refine ⟨h.walked.trans (walked_takePacket s q), h.walkable.withState q .check, ?_,
    fun p hp => h.present_takePacket hmem hp, h.psh, fun p hp => h.head_takePacket hfirst hp, ?_, ?_,
    ?_, h.begins⟩
  · rw [hfailed, hrow]
    exact h.search.push hlast hgoal
  · intro p hp r hr
    rw [hrow] at hp hr
    rcases head_append s.okPackets q with ⟨hnil, hq⟩ | ⟨p', hp', hq⟩
    · rw [hq, Option.mem_some_iff] at hp
      rw [hnil, List.nil_append, List.mem_singleton] at hr
      rw [hr, hp]
    · rw [hq, Option.mem_some_iff] at hp
      rw [← hp]
      rcases List.mem_append.mp hr with hr | hr
      · exact h.reach p' hp' r hr
      · obtain ⟨last, hl⟩ : ∃ last, s.okPackets.getLast? = some last :=
          Option.isSome_iff_exists.mp (by
            rw [List.getLast?_isSome]
            exact List.ne_nil_of_mem (List.mem_of_mem_head? hp'))
        rw [List.mem_singleton.mp hr]
        exact (h.reach p' hp' last (List.mem_of_getLast? hl)).tail
          (List.mem_of_find?_eq_some (hlast last hl))
  · intro r hr
    rw [hfailed] at hr
    rw [hrow]
    have hgiven := h.givenUp r hr
    rcases head_append s.okPackets q with ⟨hnil, hq⟩ | ⟨p', hp', hq⟩
    · rw [hq]
      rw [hnil] at hgiven
      exact givenUp_cons hgiven
    · rw [hq]
      rw [hp'] at hgiven
      exact hgiven
  · intro p hp
    rw [hfailed]
    exact h.failed_tried p hp

end Take

lemma failLast_eq {row : List (Nat × Nat)} {p : Nat × Nat} (hrow : s.okPackets = row ++ [p]) :
    s.failLast =
      { s with queuePacketVars := withState s.queuePacketVars p .fail, okPackets := row } := by
  rw [failLast, hrow, List.getLast?_concat]
  rw [List.dropLast_concat]
  rfl

lemma Searching.failLast (h : Searching cfg s₀ s w tried) {row : List (Nat × Nat)} {p : Nat × Nat}
    (hrow : s.okPackets = row ++ [p]) (hne : row ≠ [])
    (hall : firstUsable s.queuePacketVars
      (candidates cfg.completeMod s₀.shape.layout p) = none) (counter : Nat) :
    Searching cfg s₀ s.failLast { w with counter := counter } tried := by
  have hpresent : (packetAt s.queuePacketVars p).isSome := h.present p (by rw [hrow]; simp)
  have hfailed := failed_fail hpresent
  have hsearch := h.search
  rw [hrow] at hsearch
  have hhead : s.okPackets.head? = row.head? := by
    rw [hrow]
    exact List.head?_append_of_ne_nil row hne
  rw [failLast_eq hrow]
  refine ⟨h.walked.trans ⟨_, _, rfl, cleared_withState _ _ _⟩, h.walkable.withState p .fail,
    hsearch.giveUp hall hfailed, ?_, h.psh, ?_, ?_, ?_, ?_, h.begins⟩
  · intro q hq
    rw [isSome_packetAt_withState]
    exact h.present q (by rw [hrow]; exact List.mem_append_left _ hq)
  · intro q hq
    exact h.head q (by rw [hhead]; exact hq)
  · intro q hq r hr
    exact h.reach q (by rw [hhead]; exact hq) r (by rw [hrow]; exact List.mem_append_left _ hr)
  · intro q hq
    rw [← hhead]
    rcases (hfailed q).mp hq with hq | rfl
    · exact h.givenUp q hq
    · obtain ⟨first, rest, hcons⟩ := List.exists_cons_of_ne_nil hne
      have hfirst : s.okPackets.head? = some first := by
        rw [hhead, hcons]
        rfl
      rw [hfirst]
      exact ⟨first, List.mem_cons_self, h.reach first hfirst q (by rw [hrow]; simp)⟩
  · intro q hq
    exact (hfailed q).mpr (.inl (h.failed_tried q hq))

lemma Searching.failFirst (h : Searching cfg s₀ s w tried) {p : Nat × Nat}
    (hrow : s.okPackets = [p])
    (hall : firstUsable s.queuePacketVars
      (candidates cfg.completeMod s₀.shape.layout p) = none) {w' : Walk}
    (hpsh : w'.waitForPsh = false)
    (hnumber : (∀ q, failed s.failLast.queuePacketVars q = true ↔
        s₀.shape.GivenUp cfg.completeMod (p :: tried) q) →
      number s₀ w' = s₀.shape.behind cfg.completeMod cfg.mapEnd tried (number s₀ w) p) :
    Searching cfg s₀ s.failLast w' (p :: tried) := by
  have hpresent : (packetAt s.queuePacketVars p).isSome := h.present p (by rw [hrow]; simp)
  have hfailed := failed_fail hpresent
  have hsearch : FirstPath.Tried (candidates cfg.completeMod s₀.shape.layout)
      (fun p => p.2 = s₀.shape.maxNextSeq) (failed s.queuePacketVars) ([] ++ [p]) := by
    have hs := h.search
    rw [hrow] at hs
    exact hs
  have hfail := @failLast_eq s [] p hrow
  have hsearch' := hsearch.giveUp hall hfailed
  have hgiven : ∀ q, failed (withState s.queuePacketVars p .fail) q = true →
      s₀.shape.GivenUp cfg.completeMod (p :: tried) q := by
    intro q hq
    rcases (hfailed q).mp hq with hq | rfl
    · have hq' := h.givenUp q hq
      rw [hrow] at hq'
      exact hq'
    · exact ⟨q, List.mem_cons_self, .refl⟩
  have htried : ∀ q ∈ p :: tried, failed (withState s.queuePacketVars p .fail) q = true := by
    intro q hq
    rcases List.mem_cons.mp hq with rfl | hq
    · exact (hfailed q).mpr (.inr rfl)
    · exact (hfailed q).mpr (.inl (h.failed_tried q hq))
  have hiff : ∀ q, failed s.failLast.queuePacketVars q = true ↔
      s₀.shape.GivenUp cfg.completeMod (p :: tried) q := by
    intro q
    rw [hfail]
    refine ⟨hgiven q, ?_⟩
    rintro ⟨r, hr, hreach⟩
    exact hsearch'.failed_of_reach (htried r hr) hreach
  have hbad : ¬s₀.shape.Good cfg.completeMod p :=
    hsearch'.bad p ((hfailed p).mpr (.inr rfl))
  have hbegins := h.head p (by rw [hrow]; rfl)
  rw [hfail]
  refine ⟨h.walked.trans ⟨_, _, rfl, cleared_withState _ _ _⟩, h.walkable.withState p .fail, hsearch',
    ?_, hpsh, ?_, ?_, hgiven, htried, ?_⟩
  · intro q hq
    cases hq
  · intro q hq
    cases hq
  · intro q hq
    cases hq
  · intro q hq
    rw [hnumber hiff] at hq
    exact h.begins q (.bad hbegins hbad hq)

/-! ## The rounds -/

def Found (cfg : StreamConfig) (s₀ s' : Stream) : Prop :=
  ∃ s p, Walked s₀ s ∧ s.okPackets.head? = some p ∧
    s₀.shape.Route cfg.completeMod p s.okPackets ∧
    s₀.shape.Begins cfg.completeMod cfg.mapEnd s₀.minSeq [] p ∧
    (∀ q ∈ s.okPackets, (packetAt s.queuePacketVars q).isSome) ∧
    saveCompleteData cfg { s with isOk := true } = some s'

def RoundOk (cfg : StreamConfig) (s₀ : Stream) : Round → Prop
  | .next s w => ∃ tried, Searching cfg s₀ s w tried
  | .done true s => s.completeData = s₀.completeData ∨ Found cfg s₀ s
  | .done false _ => True
  | .broken => True

lemma roundOk_countRound (h : ∀ counter, Searching cfg s₀ s { w with counter := counter } tried) :
    RoundOk cfg s₀ (countRound s w) := by
  unfold countRound
  split
  · exact trivial
  · exact ⟨tried, h _⟩

section Round
variable {maxNextSeq : Nat} (hfirstSeq : s₀.firstSeq = 0)
  (hend : ∀ n, reachesEnd s₀ maxNextSeq n = decide (n = s₀.maxNextSeq))
include hend

lemma Searching.takeVar {q : Nat × Nat} (h : Searching cfg s₀ s w tried)
    {l : List (Nat × Nat)} (hq : firstUsable s.queuePacketVars l = some q)
    (hmem : ∃ e ∈ layout s.queuePacketVars, q ∈ rowsAt e)
    (hlast : ∀ p ∈ s.okPackets.getLast?,
      firstUsable s.queuePacketVars (candidates cfg.completeMod s₀.shape.layout p) = some q)
    (hfirst : s.okPackets = [] → firstUsable s.queuePacketVars
      (startsAt cfg.completeMod s₀.shape.layout (number s₀ w)) = some q)
    (hnext : nextSeqAt s.queuePacketVars q.1 = q.2) :
    RoundOk cfg s₀ (takeVar cfg maxNextSeq true s w q.1) := by
  have hopen : failed s.queuePacketVars q = false := by
    have hnot := List.find?_some hq
    simpa using hnot
  rw [takeVar_eq hnext (end_ne_zero h.walkable hmem) h.psh, h.walked.reachesEnd, hend]
  by_cases hgoal : q.2 = s₀.maxNextSeq
  · rw [if_pos (decide_eq_true hgoal)]
    cases hsave : saveCompleteData cfg { s.takePacket q with isOk := true } with
    | none => exact trivial
    | some s' =>
      obtain ⟨p, hp, hroute⟩ := FirstPath.route_of_chain (h.search.chain_append hlast)
        h.search.unfinished hgoal
      have hbegins := h.begins p (.good (h.head_takePacket hfirst hp) hroute.good)
      exact .inr ⟨s.takePacket q, p, h.walked.trans (walked_takePacket s q), hp, hroute, hbegins,
        fun r hr => h.present_takePacket hmem hr, hsave⟩
  · rw [if_neg (by simpa using hgoal)]
    exact roundOk_countRound (fun counter => h.takePacket hopen hmem hlast hfirst hgoal counter)

include hfirstSeq in
lemma Searching.round (h : Searching cfg s₀ s w tried) :
    RoundOk cfg s₀ (okRound cfg maxNextSeq true s w) := by
  have hlayout := h.layout_eq
  cases hlast : s.okPackets.getLast? with
  | none =>
    have hnil : s.okPackets = [] := List.getLast?_eq_none_iff.mp hlast
    have hnumber : wantedSeq s w = number s₀ w := by
      obtain ⟨vars, row, rfl, -⟩ := h.walked
      exact wantedSeq_nil hnil hfirstSeq
    cases hq : firstUsable s.queuePacketVars
        (startsAt cfg.completeMod (layout s.queuePacketVars) (wantedSeq s w)) with
    | some q =>
      have hround : okRound cfg maxNextSeq true s w = Stream.takeVar cfg maxNextSeq true s w q.1 ∧ _ :=
        okRound_start h.walkable hq
      rw [hround.1]
      refine h.takeVar hend hq (mem_startsAt (List.mem_of_find?_eq_some hq)) ?_ ?_ hround.2
      · intro p hp
        rw [hlast] at hp
        cases hp
      · intro _
        rw [← hlayout, ← hnumber]
        exact hq
    | none =>
      have hround : (_ ∧ _ ∧ okRound cfg maxNextSeq true s w = _) ∨
          okRound cfg maxNextSeq true s w = _ := okRound_restart h.walkable hnil hq
      rcases hround with ⟨hmod, -, hround⟩ | hround
      · rw [hround]
        refine ⟨tried, h.walked, h.walkable, h.search, h.present, h.psh, ?_, h.reach, h.givenUp,
          h.failed_tried, ?_⟩
        · intro p hp
          rw [hnil] at hp
          cases hp
        · intro p hp
          have hopen : s₀.shape.firstOpen cfg.completeMod tried (number s₀ w) = none := by
            rw [← firstUsable_eq_firstOpen (h.failed_iff hnil), ← hlayout, ← hnumber]
            exact hq
          refine h.begins p (.next hopen hmod ?_)
          rw [← nextUsable_eq_nextOpen h.walkable hlayout (h.failed_iff hnil), ← hnumber]
          exact hp
      · rw [hround]
        cases decide (w.counter = 0) with
        | false => exact trivial
        | true =>
          refine .inl ?_
          obtain ⟨vars, row, rfl, -⟩ := h.walked
          rfl
  | some p =>
    cases hq : firstUsable s.queuePacketVars
        (candidates cfg.completeMod (layout s.queuePacketVars) p) with
    | some q =>
      have hround : okRound cfg maxNextSeq true s w = Stream.takeVar cfg maxNextSeq true s w q.1 ∧ _ :=
        okRound_take h.walkable hlast hq
      rw [hround.1]
      refine h.takeVar hend hq (mem_candidates (List.mem_of_find?_eq_some hq)) ?_ ?_ hround.2
      · intro p' hp'
        rw [hlast, Option.mem_some_iff] at hp'
        rw [← hp', ← hlayout]
        exact hq
      · intro hnil
        rw [hnil] at hlast
        cases hlast
    | none =>
      have hrow : s.okPackets = s.okPackets.dropLast ++ [p] :=
        (List.dropLast_append_getLast? p hlast).symm
      have hround : (_ ∧ _ ∧ okRound cfg maxNextSeq true s w = _) ∨
          (_ ∧ okRound cfg maxNextSeq true s w = _) := okRound_giveUp h.walkable hlast hq
      rw [hlayout] at hq
      have hfail : s.failLast.okPackets = s.okPackets.dropLast := by
        rw [failLast_eq hrow]
      by_cases hdrop : s.okPackets.dropLast = []
      · rw [hdrop, List.nil_append] at hrow
        rcases hround with ⟨hmod, hsome, hround⟩ | ⟨hsome, hround⟩
        · rw [hround, hfail, if_pos hdrop]
          refine ⟨p :: tried, h.failFirst hrow hq h.psh ?_⟩
          intro hiff
          have hwalk : Walkable s.failLast.queuePacketVars := by
            rw [@failLast_eq s [] p hrow]
            exact h.walkable.withState p .fail
          have hlayout' : layout s.failLast.queuePacketVars = s₀.shape.layout := by
            rw [@failLast_eq s [] p hrow, ← hlayout]
            exact layout_withState _ _ _
          rw [Shape.behind, if_pos ⟨hmod, by
            rw [← hlayout, get_layout, Option.isSome_map]; exact hsome⟩]
          exact nextUsable_eq_nextOpen hwalk hlayout' hiff p.2
        · rw [hround]
          refine @roundOk_countRound cfg s₀ s.failLast w (p :: tried) (fun counter =>
            h.failFirst hrow hq h.psh ?_)
          intro _
          rw [Shape.behind, if_neg]
          · rfl
          · rw [← hlayout, get_layout, Option.isSome_map]
            exact hsome
      · rcases hround with ⟨-, -, hround⟩ | ⟨-, hround⟩
        · rw [hround, hfail, if_neg hdrop]
          exact ⟨tried, h.failLast hrow hdrop hq w.counter⟩
        · rw [hround]
          exact roundOk_countRound (fun counter => h.failLast hrow hdrop hq counter)

include hfirstSeq in
lemma Searching.loop {fuel : Nat} {s' : Stream} (h : Searching cfg s₀ s w tried)
    (hnone : s₀.completeData = none)
    (hloop : okLoop cfg maxNextSeq true fuel s w = some (true, s')) (hdata : s'.completeData ≠ none) :
    Found cfg s₀ s' := by
  induction fuel generalizing s w tried with
  | zero => cases hloop
  | succ fuel ih =>
    have hround := h.round hfirstSeq hend
    rw [okLoop] at hloop
    cases hr : okRound cfg maxNextSeq true s w with
    | done result s'' =>
      rw [hr] at hloop hround
      obtain ⟨rfl, rfl⟩ := Prod.mk.inj (Option.some.inj hloop)
      rcases hround with hsame | hfound
      · rw [hnone] at hsame
        exact absurd hsame hdata
      · exact hfound
    | next s'' w'' =>
      rw [hr] at hloop hround
      obtain ⟨tried', h'⟩ := hround
      exact ih h' hloop
    | broken =>
      rw [hr] at hloop
      cases hloop

end Round

end Search

/-! ## The data of the first row -/

lemma fst_lt_of_mem_candidates {completeMod : Nat} {layout : Layout} {p q : Nat × Nat}
    (hp : p.1 < p.2) (h : q ∈ candidates completeMod layout p) : p.1 < q.1 := by
  rcases List.mem_append.mp h with h | h
  · rw [startsAt] at h
    split at h
    · cases hget : SortedMap.get p.2 layout with
      | none =>
        rw [hget] at h
        cases h
      | some ends =>
        rw [hget] at h
        obtain ⟨n, -, rfl⟩ := List.mem_map.mp h
        exact hp
    · split at h
      · cases h
      · obtain ⟨e, he, hq⟩ := List.mem_flatMap.mp h
        obtain ⟨n, -, rfl⟩ := List.mem_map.mp hq
        have hle := (List.mem_filter.mp he).2
        rw [decide_eq_true_eq] at hle
        exact hp.trans_le hle
  · split at h
    · cases h
    · rw [within] at h
      split at h
      · rename_i e hfind
        obtain ⟨n, -, rfl⟩ := List.mem_map.mp h
        have hbetween := List.find?_some hfind
        rw [Bool.and_eq_true, decide_eq_true_eq] at hbetween
        exact hbetween.1
      · cases h

lemma searching_start {cfg : StreamConfig} {s : Stream} (hwalk : Walkable s.queuePacketVars)
    (hfail : ∀ q, failed s.queuePacketVars q = false) (hrow : s.okPackets = []) :
    Searching cfg s s ⟨0, false, s.minSeq⟩ [] := by
  have hsearch : FirstPath.Tried (candidates cfg.completeMod s.shape.layout)
      (fun p => p.2 = s.shape.maxNextSeq) (failed s.queuePacketVars) s.okPackets := by
    rw [hrow]
    exact FirstPath.tried_nil hfail
  refine ⟨Walked.refl _, hwalk, hsearch, ?_, rfl, ?_, ?_, ?_, ?_, ?_⟩
  · intro p hp
    rw [hrow] at hp
    cases hp
  · intro p hp
    rw [hrow] at hp
    cases hp
  · intro p hp
    rw [hrow] at hp
    cases hp
  · intro q hq
    rw [hfail] at hq
    cases hq
  · intro p hp
    cases hp
  · intro p hp
    have hnumber : number s ⟨0, false, s.minSeq⟩ = s.minSeq := ite_self _
    rw [hnumber] at hp
    exact hp

lemma ok_found {cfg : StreamConfig} {fuel : Nat} {s s' : Stream} (h : Unchecked s)
    (hwalk : Walkable s.queuePacketVars)
    (hok : ok cfg fuel s.maxNextSeq s.minSeq true s = some (true, s'))
    (hdata : s'.completeData ≠ none) :
    Found cfg { s with
      counterTryOk := s.counterTryOk + 1
      queuePacketVars := cleared s.queuePacketVars
      okPackets := [] } s' := by
  rw [ok, if_neg (by rw [h.isOk]; simp)] at hok
  split at hok
  · obtain ⟨-, rfl⟩ := Prod.mk.inj (Option.some.inj hok)
    exact absurd h.completeData hdata
  · have hclean : { s with counterTryOk := s.counterTryOk + 1 }.cleanPacketsState =
        { s with
          counterTryOk := s.counterTryOk + 1
          queuePacketVars := cleared s.queuePacketVars
          okPackets := [] } := rfl
    rw [hclean] at hok
    have hstart : Searching cfg { s with
        counterTryOk := s.counterTryOk + 1
        queuePacketVars := cleared s.queuePacketVars
        okPackets := [] } { s with
        counterTryOk := s.counterTryOk + 1
        queuePacketVars := cleared s.queuePacketVars
        okPackets := [] } ⟨0, false, s.minSeq⟩ [] :=
      searching_start hwalk.cleared (failed_cleared _) rfl
    dsimp only at hok
    split at hok
    · cases hok
    · split at hok
      · cases (Prod.mk.inj (Option.some.inj hok)).1
      · refine Searching.loop ?_ ?_ hstart ?_ hok hdata
        · exact h.firstSeq
        · intro n
          exact reachesEnd_eq h.lastSeq n
        · exact h.completeData

end Stream

end VoipMonitor.Tcp
