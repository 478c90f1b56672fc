import Mathlib.Data.List.Basic
import Mathlib.Tactic

/-!
# Messages cut into reads

A stream is the concatenation of messages, and it arrives in reads that are cut anywhere. What
has arrived is a number of whole messages and a proper beginning of the next one (`Beginning`).
A reader that takes the whole messages out of its buffer and keeps that beginning delivers each
message once, whatever the reads (`readAll_eq`).
-/

namespace VoipMonitor.Library

variable {α : Type}

/-- Nothing, or a proper beginning of the first of the messages. -/
def Beginning (tail : List α) (rest : List (List α)) : Prop :=
  tail = [] ∨ ∃ m ms, rest = m :: ms ∧ tail <+: m ∧ tail.length < m.length

lemma beginning_nil (rest : List (List α)) : Beginning [] rest := Or.inl rfl

lemma exists_beginning {ms : List (List α)} {data : List α} (h : data <+: ms.flatten) :
    ∃ whole rest tail, ms = whole ++ rest ∧ data = whole.flatten ++ tail ∧ Beginning tail rest := by
  induction ms generalizing data with
  | nil =>
    rw [List.flatten_nil, List.prefix_nil] at h
    exact ⟨[], [], [], rfl, h, beginning_nil _⟩
  | cons m ms ih =>
    rw [List.flatten_cons] at h
    by_cases hlen : m.length ≤ data.length
    · obtain ⟨data', rfl⟩ := List.prefix_of_prefix_length_le (List.prefix_append m _) h hlen
      obtain ⟨whole, rest, tail, hms, hdata, htail⟩ := ih ((List.prefix_append_right_inj m).mp h)
      refine ⟨m :: whole, rest, tail, ?_, ?_, htail⟩
      · rw [hms, List.cons_append]
      · rw [hdata, List.flatten_cons, List.append_assoc]
    · have hpre : data <+: m :=
        List.prefix_of_prefix_length_le h (List.prefix_append m _) (by omega)
      exact ⟨[], m :: ms, data, rfl, rfl, Or.inr ⟨m, ms, rfl, hpre, by omega⟩⟩

lemma Beginning.eq_nil {rest : List (List α)} (h : Beginning rest.flatten rest)
    (hne : ∀ m ∈ rest, m ≠ []) : rest = [] := by
  cases rest with
  | nil => rfl
  | cons m ms =>
    have hm : 0 < m.length := List.length_pos_iff.mpr (hne m List.mem_cons_self)
    rcases h with h | ⟨m', ms', heq, -, hlt⟩
    · have hlen := congrArg List.length h
      rw [List.flatten_cons, List.length_append, List.length_nil] at hlen
      omega
    · obtain ⟨rfl, rfl⟩ := List.cons.inj heq
      rw [List.flatten_cons, List.length_append] at hlt
      omega

/-- The messages delivered over a series of reads, and what stays in the buffer. -/
def readAll {β : Type} (read : List α → List α → List β × List α) :
    List α → List (List α) → List β × List α
  | buffer, [] => ([], buffer)
  | buffer, d :: reads =>
    let (out, buffer') := read buffer d
    let (outs, buffer'') := readAll read buffer' reads
    (out ++ outs, buffer'')

/-- A reader whose buffer is always a proper beginning of the next message delivers every
message once. -/
theorem readAll_eq {read : List α → List α → List (List α) × List α} {ms : List (List α)}
    (hne : ∀ m ∈ ms, m ≠ [])
    (hread : ∀ buffer d whole rest tail, (whole ++ rest) <:+ ms →
      Beginning buffer (whole ++ rest) → buffer ++ d = whole.flatten ++ tail →
      Beginning tail rest → read buffer d = (whole, tail))
    {buffer : List α} {rest : List (List α)} (hrest : rest <:+ ms) (hbuffer : Beginning buffer rest)
    (reads : List (List α)) (hreads : buffer ++ reads.flatten = rest.flatten) :
    readAll read buffer reads = (rest, []) := by
  induction reads generalizing buffer rest with
  | nil =>
    rw [List.flatten_nil, List.append_nil] at hreads
    rw [hreads] at hbuffer
    have hnil := hbuffer.eq_nil fun m hm => hne m (hrest.mem hm)
    rw [readAll, hreads, hnil, List.flatten_nil]
  | cons d reads ih =>
    rw [List.flatten_cons, ← List.append_assoc] at hreads
    have hpre : buffer ++ d <+: rest.flatten := ⟨_, hreads⟩
    obtain ⟨whole, rest', tail, rfl, hdata, htail⟩ := exists_beginning hpre
    have hleft : tail ++ reads.flatten = rest'.flatten := by
      rw [hdata, List.flatten_append, List.append_assoc] at hreads
      exact List.append_cancel_left hreads
    rw [readAll, hread buffer d whole rest' tail hrest hbuffer hdata htail]
    dsimp only
    rw [ih ((List.suffix_append whole rest').trans hrest) htail hleft]

end VoipMonitor.Library
