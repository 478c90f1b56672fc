import Mathlib
import VoipMonitor.Library.Loops
import VoipMonitor.Library.Runs

/-!
# The fixed jitter buffer (`fixedjitterbuf.c`, `abstract_jb.c`)

The frames of a channel wait in a list in the order of their delivery, which is a constant delay
behind their timestamps. A frame that does not fit to the others makes the buffer look again: it
moves its time base, delivers everything and begins anew, or drops the frame. Times are in
milliseconds; a `long` is an integer. The data of a frame are of any type.
-/

namespace VoipMonitor.FixedJb
open VoipMonitor.Library

variable {α : Type}

inductive Code where
  | ok
  | drop
  | interp
  | noframe
  | error
deriving DecidableEq, Repr

structure Frame (α : Type) where
  data : α
  ts : Int
  ms : Int
  delivery : Int

/-- How a frame leaves the buffer: it is delivered, it is too late, or the buffer is emptied. -/
inductive Way where
  | flushed
  | got
  | late
  | removed

/-- A frame that left the buffer, with the number of times that the buffer had begun anew. -/
structure Handed (α : Type) where
  frame : Frame α
  way : Way
  firsts : Nat

/-- What `fixed_jb_new` makes of a configuration. -/
structure Conf where
  delay : Int
  resyncThreshold : Int
  delay_pos : 0 < delay
  resyncThreshold_pos : 0 < resyncThreshold

def newConf (jbsize resyncThreshold : Int) : Conf where
  delay := if jbsize < 1 then 200 else jbsize
  resyncThreshold := if resyncThreshold < 1 then 500 else resyncThreshold
  delay_pos := by split <;> omega
  resyncThreshold_pos := by split <;> omega

/-- `struct fixed_jb` and the members of its channel that it uses. The frames that left it and the
number of calls of `fixed_jb_put_first` are kept beside it. -/
structure Jb (α : Type) where
  conf : Conf := newConf 0 0
  frames : List (Frame α) := []
  rxcore : Int := 0
  nextDelivery : Int := 0
  forceResynch : Bool := false
  skewSum : Int := 0
  skewCounter : Int := 0
  audioDecode : Bool := false
  prevFrameIsDtmf : Bool := false
  lastLossBurst : Nat := 0
  handed : List (Handed α) := []
  firsts : Nat := 0

namespace Jb

def getJbHead (way : Way) (jb : Jb α) : Jb α :=
  match jb.frames with
  | [] => jb
  | fr :: rest =>
    { jb with
      frames := rest
      nextDelivery := fr.delivery + fr.ms
      handed := jb.handed ++ [⟨fr, way, jb.firsts⟩] }

def flushDeliver (jb : Jb α) : Jb α := jb.frames.foldl (fun jb _ => jb.getJbHead .flushed) jb

/-- The arguments of a `put`. A marker of 1 is that of RTP. -/
structure Arrival (α : Type) where
  data : α
  ms : Int
  ts : Int
  now : Int
  marker : Nat

def withForce (jb : Jb α) (forceResynch : Bool) : Jb α := { jb with forceResynch }

def resetSkew (jb : Jb α) : Jb α := { jb with skewSum := 0, skewCounter := 0 }

def addSkew (jb : Jb α) (a : Arrival α) : Jb α :=
  { jb with
    skewSum := jb.skewSum + (a.ts - (a.now - jb.rxcore))
    skewCounter := jb.skewCounter + 1 }

def countLoss (jb : Jb α) (a : Arrival α) : Jb α :=
  if a.marker = 1 then jb else { jb with lastLossBurst := jb.lastLossBurst + 1 }

def setBase (jb : Jb α) (a : Arrival α) : Jb α := { jb with rxcore := a.now - a.ts }

def moveBase (jb : Jb α) (offset : Int) : Jb α :=
  { jb with
    rxcore := jb.rxcore - offset
    frames := jb.frames.map (fun f => { f with ts := f.ts + offset }) }

/-- The buffer begins with a frame. -/
def begin (conf : Conf) (jb : Jb α) (a : Arrival α) : Jb α :=
  { jb with
    rxcore := a.now - a.ts
    nextDelivery := a.now + conf.delay
    firsts := jb.firsts + 1 }

def skewed (conf : Conf) (jb : Jb α) : Bool :=
  jb.skewCounter > 10 && (jb.skewSum.tdiv jb.skewCounter).natAbs > conf.delay.tdiv 2

section Put

variable (conf : Conf) (put : Jb α → Arrival α → Option (Code × Jb α))

def putFirst (jb : Jb α) (a : Arrival α) : Option (Code × Jb α) := put (jb.begin conf a) a

/-- `resynch_jb`, which puts without a marker. -/
def resynch (jb : Jb α) (a : Arrival α) : Option (Code × Jb α) :=
  match jb.frames.getLast? with
  | none => putFirst conf put (jb.withForce false) { a with marker := 0 }
  | some tail =>
    let offset := a.ts - tail.ts - tail.ms
    if offset < conf.resyncThreshold ∧ offset > -conf.resyncThreshold then
      if jb.forceResynch = false then
        if jb.audioDecode = false ∧ jb.skewed conf = true then
          putFirst conf put jb.resetSkew.flushDeliver { a with marker := 0 }
        else if offset < 0 ∨ a.now - a.ts < jb.rxcore - conf.delay then some (.drop, jb)
        else putFirst conf put jb.flushDeliver { a with marker := 0 }
      else if offset < 0 then some (.drop, jb.withForce false)
      else putFirst conf put (jb.withForce false).flushDeliver { a with marker := 0 }
    else put ((jb.withForce false).moveBase offset) { a with marker := 0 }

end Put

def markerJumps (jb : Jb α) (a : Arrival α) : Bool :=
  a.marker = 1 && jb.frames.getLast?.any (fun tail =>
    let tolerance := tail.ms * (if jb.prevFrameIsDtmf then 4 else 2)
    a.ts > tail.ts + tail.ms + tolerance || a.ts < tail.ts + tail.ms - tolerance)

def tolerance (conf : Conf) (jb : Jb α) : Int :=
  conf.delay + conf.resyncThreshold + (if jb.audioDecode then 200 else 0)

def before (jb : Jb α) (delivery : Int) : List (Frame α) :=
  jb.frames.rdropWhile (fun f => f.delivery > delivery)

def after (jb : Jb α) (delivery : Int) : List (Frame α) :=
  jb.frames.rtakeWhile (fun f => f.delivery > delivery)

/-- The new frame overlaps its neighbours, with a tolerance of 10. -/
def covered (jb : Jb α) (ms delivery : Int) : Bool :=
  (jb.before delivery).getLast?.any (fun frame =>
    frame.delivery = delivery || delivery + 10 < frame.delivery + frame.ms ||
      (jb.after delivery).head?.any (fun next => delivery + ms > next.delivery))

def insertFrame (jb : Jb α) (a : Arrival α) (delivery : Int) : Jb α :=
  { jb with frames := jb.before delivery ++ ⟨a.data, a.ts, a.ms, delivery⟩ :: jb.after delivery }

/-- `fixed_jb_put`; `fuel` bounds how often it is called again. -/
def put (conf : Conf) : Nat → Jb α → Arrival α → Option (Code × Jb α)
  | 0, _, _ => none
  | fuel + 1, jb, a =>
    if a.ms < 2 ∨ a.ts < 0 then some (.error, jb)
    else
      let delivery := jb.rxcore + conf.delay + a.ts
      let jb := jb.addSkew a
      if delivery < jb.nextDelivery then
        (resynch conf (put conf fuel) (jb.countLoss a) a).map (fun e =>
          (e.1, if a.marker = 1 then e.2.setBase a else e.2))
      else if jb.markerJumps a then resynch conf (put conf fuel) (jb.withForce true) a
      else if delivery > jb.nextDelivery + jb.tolerance conf then resynch conf (put conf fuel) jb a
      else if jb.forceResynch || jb.covered a.ms delivery then
        (resynch conf (put conf fuel) jb a).map (fun e => (e.1, e.2.withForce false))
      else some (.ok, (jb.withForce false).insertFrame a delivery)

/-- `fixed_jb_get`. -/
def get (jb : Jb α) (now interpl : Int) : Code × Jb α :=
  if now < 0 ∨ interpl < 2 then (.error, jb)
  else if now < jb.nextDelivery then (.noframe, jb)
  else
    match jb.frames with
    | [] => (.interp, { jb with nextDelivery := jb.nextDelivery + interpl })
    | fr :: _ =>
      if now > fr.delivery + fr.ms then (.drop, jb.getJbHead .late)
      else if now < fr.delivery then (.interp, { jb with nextDelivery := jb.nextDelivery + interpl })
      else (.ok, jb.getJbHead .got)

/-- A round of the loop of `jb_get_and_deliver`. -/
def getRound (now interpl : Int) (jb : Jb α) : Outcome (Jb α) (Jb α) :=
  if now < jb.nextDelivery then .done jb
  else
    match jb.get now interpl with
    | (.error, jb) => .done jb
    | (.noframe, jb) => .done jb
    | (.ok, jb) => .next jb
    | (.drop, jb) => .next jb
    | (.interp, jb) => .next jb

def jbLongMax : Int := 2147483647

/-- `jb_get_and_deliver`. The greatest time stands for an empty adaptive buffer. -/
def getAndDeliver (fuel : Nat) (jb : Jb α) (now interpl : Int) : Option (Jb α) :=
  if jb.nextDelivery = jbLongMax then some jb else runLoop (getRound now interpl) fuel jb

/-- `fixed_jb_remove` until nothing is left. -/
def removeAll (jb : Jb α) : Jb α := jb.frames.foldl (fun jb _ => jb.getJbHead .removed) jb

/-- `ast_jb_destroy`, after which the buffer is made anew. The members of the channel stay. -/
def destroy (jb : Jb α) : Jb α :=
  let removed := jb.removeAll
  { conf := jb.conf
    audioDecode := jb.audioDecode
    prevFrameIsDtmf := jb.prevFrameIsDtmf
    lastLossBurst := jb.lastLossBurst
    handed := removed.handed
    firsts := removed.firsts + 1 }

/-- What is done with the buffer of a channel: it is made with the settings of the channel and a
first frame, frames arrive, the time goes on, it is emptied or destroyed, and the members are set
that others set. -/
inductive Act (α : Type) where
  | create (jitterMax jitterResyncThreshold : Int) (a : Arrival α)
  | put (a : Arrival α)
  | get (now interpl : Int)
  | emptyAndReset
  | destroy
  | setForceResynch
  | setChannel (audioDecode prevFrameIsDtmf : Bool) (lastLossBurst : Nat)

/-- One step, with its code. A `put` calls itself twice at most, and `create_jb` puts the first frame
into a new buffer. -/
def step (jb : Jb α) : Act α → Option (Code × Jb α)
  | .create jitterMax jitterResyncThreshold a =>
    let conf := newConf jitterMax jitterResyncThreshold
    if jb.frames = [] then putFirst conf (put conf 3) { jb with conf := conf } a else none
  | .put a => put jb.conf 3 jb a
  | .get now interpl => some (jb.get now interpl)
  | .emptyAndReset => some (.ok, jb.removeAll)
  | .destroy => some (.ok, jb.destroy)
  | .setForceResynch => some (.ok, { jb with forceResynch := true })
  | .setChannel audioDecode prevFrameIsDtmf lastLossBurst =>
    some (.ok, { jb with audioDecode, prevFrameIsDtmf, lastLossBurst })

def stepState (jb : Jb α) (a : Act α) : Option (Jb α) := (step jb a).map Prod.snd

/-- The frame that a step with a code put into the buffer. -/
def Act.stored : Act α → Code → List α
  | .create _ _ a, .ok => [a.data]
  | .put a, .ok => [a.data]
  | _, _ => []

/-- The frames that were put into the buffer by the steps of a run. -/
def accepted : Jb α → List (Act α) → List α
  | _, [] => []
  | jb, a :: acts => ((step jb a).map (fun e => a.stored e.1 ++ accepted e.2 acts)).getD []

end Jb

end VoipMonitor.FixedJb
