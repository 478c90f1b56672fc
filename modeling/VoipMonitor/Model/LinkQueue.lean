import Mathlib

/-!
# Queues of links (`link_packets_queue`, `sniff.h`, `sniff.cpp`)

DTLS packets wait in a queue of their link until a call takes them. `_cleanup` destroys the packets
of links that were idle, and of the others those that it holds for old, from the front.
-/

namespace VoipMonitor.LinkQueue

variable {I P : Type}

/-- A packet with its capture time, `getTime_s` and `getTime_us`. -/
structure QueuedPacket (P : Type) where
  timeS : Nat
  timeUs : Nat
  packet : P

/-- `s_link`. Times are in milliseconds. -/
structure SLink (P : Type) where
  firstTimeMs : Nat
  lastTimeMs : Nat
  queue : List (QueuedPacket P)

structure LinkPacketsQueue (I P : Type) where
  links : List (I × SLink P)
  nodup : (links.map Prod.fst).Nodup
  lastCleanupMs : Nat
  expirationLinkMs : Nat
  expirationLinkCount : Nat
  packetsCounter : UInt64

variable (q : LinkPacketsQueue I P) (timeMs : Nat)

def expiresLink (link : SLink P) : Bool :=
  link.lastTimeMs ≠ 0 && timeMs ≥ (link.lastTimeMs + q.expirationLinkMs) % 2 ^ 64

def expiresPacket (p : QueuedPacket P) : Bool :=
  timeMs ≥ (p.timeUs / 1000 + q.expirationLinkMs) % 2 ^ 32

def checksQueue (link : SLink P) : Bool :=
  (link.lastTimeMs > link.firstTimeMs && link.lastTimeMs - link.firstTimeMs > q.expirationLinkMs) ||
    link.queue.length > q.expirationLinkCount

/-- The loop that destroys packets from the front, with `packets_counter` and `destroy_packet`. -/
def dropFront : List (QueuedPacket P) → UInt64 → Bool → List (QueuedPacket P) × UInt64 × Bool
  | [], packetsCounter, destroyPacket => ([], packetsCounter, destroyPacket)
  | p :: rest, packetsCounter, destroyPacket =>
    if expiresPacket q timeMs p || (p :: rest).length > q.expirationLinkCount then
      dropFront rest (packetsCounter - 1) true
    else (p :: rest, packetsCounter, destroyPacket)

/-- What is done with a link, and `packets_counter` behind it; none is a link that is erased. -/
def cleanupLink (link : SLink P) (packetsCounter : UInt64) : Option (SLink P) × UInt64 :=
  if expiresLink q timeMs link then
    (none, link.queue.foldl (fun counter _ => counter - 1) packetsCounter)
  else if checksQueue q link then
    match dropFront q timeMs link.queue packetsCounter false with
    | (queue, packetsCounter, false) => (some { link with queue := queue }, packetsCounter)
    | (p :: rest, packetsCounter, true) =>
      (some { link with firstTimeMs := p.timeUs / 1000, queue := p :: rest }, packetsCounter)
    | ([], packetsCounter, true) => (some ⟨0, 0, []⟩, packetsCounter)
  else (some link, packetsCounter)

def cleanupLinks : List (I × SLink P) → UInt64 → List (I × SLink P) × UInt64
  | [], packetsCounter => ([], packetsCounter)
  | (id, link) :: rest, packetsCounter =>
    match cleanupLink q timeMs link packetsCounter with
    | (none, packetsCounter) => cleanupLinks rest packetsCounter
    | (some link, packetsCounter) =>
      let (links, packetsCounter) := cleanupLinks rest packetsCounter
      ((id, link) :: links, packetsCounter)

lemma cleanupLinks_sublist (links : List (I × SLink P)) (packetsCounter : UInt64) :
    ((cleanupLinks q timeMs links packetsCounter).1.map Prod.fst).Sublist
      (links.map Prod.fst) := by
  induction links generalizing packetsCounter with
  | nil => exact List.Sublist.refl _
  | cons entry rest ih =>
    rw [cleanupLinks]
    cases cleanupLink q timeMs entry.2 packetsCounter with
    | mk left packetsCounter =>
      cases left with
      | none => exact (ih packetsCounter).cons _
      | some link => exact (ih packetsCounter).cons_cons _

def LinkPacketsQueue.cleanup : LinkPacketsQueue I P where
  links := (cleanupLinks q timeMs q.links q.packetsCounter).1
  nodup := q.nodup.sublist (cleanupLinks_sublist q timeMs q.links q.packetsCounter)
  lastCleanupMs := timeMs
  expirationLinkMs := q.expirationLinkMs
  expirationLinkCount := q.expirationLinkCount
  packetsCounter := (cleanupLinks q timeMs q.links q.packetsCounter).2

def SLink.push (link : SLink P) (p : QueuedPacket P) (timeMs : Nat) : SLink P where
  firstTimeMs := if link.firstTimeMs = 0 then timeMs else link.firstTimeMs
  lastTimeMs := timeMs
  queue := link.queue ++ [p]

def pushLinks [DecidableEq I] (links : List (I × SLink P)) (id : I) (p : QueuedPacket P)
    (timeMs : Nat) : List (I × SLink P) :=
  if id ∈ links.map Prod.fst then
    links.map (fun entry => (entry.1, if entry.1 = id then entry.2.push p timeMs else entry.2))
  else links ++ [(id, SLink.push ⟨timeMs, timeMs, []⟩ p timeMs)]

lemma pushLinks_nodup [DecidableEq I] {links : List (I × SLink P)} (h : (links.map Prod.fst).Nodup)
    (id : I) (p : QueuedPacket P) (timeMs : Nat) :
    ((pushLinks links id p timeMs).map Prod.fst).Nodup := by
  rw [pushLinks]
  split
  · rw [List.map_map]
    exact h
  · rename_i hnew
    rw [List.map_append]
    refine h.append (List.nodup_singleton id) ?_
    intro key hkey hid
    rw [List.map_singleton, List.mem_singleton] at hid
    subst hid
    exact hnew hkey

def LinkPacketsQueue.push [DecidableEq I] (id : I) (p : QueuedPacket P) (timeMs : Nat) :
    LinkPacketsQueue I P :=
  { q with
    links := pushLinks q.links id p timeMs
    nodup := pushLinks_nodup q.nodup id p timeMs
    packetsCounter := q.packetsCounter + 1 }

/-- A queue as its constructor makes it. -/
def LinkPacketsQueue.empty : LinkPacketsQueue I P where
  links := []
  nodup := List.nodup_nil
  lastCleanupMs := 0
  expirationLinkMs := 10000
  expirationLinkCount := 20
  packetsCounter := 0

end VoipMonitor.LinkQueue
