import Renga.Agent.Queue.Disk

/-!
# The operations of a queue

`DiskQueue` of `agent/src/queue.rs`, as programs over the calls of `Disk`.  Loops are
recursions over the list they go through.  A sequence number is a `u64`, which wraps around in
a release build.
-/

namespace Renga.Agent.Queue

inductive QueueKind where
  | observations
  | telemetry
  deriving DecidableEq

def QueueKind.name : QueueKind → String
  | observations => "observation"
  | telemetry => "telemetry"

inductive QueueError where
  /-- `io_error`: `cannot <action> <path>: <error>`. -/
  | io (action : String)
  /-- `<name> queue <path> is not a directory`. -/
  | notDirectory (kind : QueueKind)
  /-- `<name> entry of <size> bytes exceeds the <limit>-byte queue limit`. -/
  | tooLarge (kind : QueueKind) (size limit : ℕ)
  deriving DecidableEq

/-- Entries that were removed without being delivered, by reason. -/
structure QueueCounters where
  droppedForSpace : ℕ := 0
  expired : ℕ := 0
  rejected : ℕ := 0
  unreadable : ℕ := 0
  droppedRange : Option (SystemTime × SystemTime) := none
  deriving DecidableEq

def QueueCounters.noteDropped (counters : QueueCounters) (queuedAt : SystemTime) : QueueCounters :=
  { counters with
    droppedRange := some (match counters.droppedRange with
      | some (earliest, latest) => (min earliest queuedAt, max latest queuedAt)
      | none => (queuedAt, queuedAt)) }

structure QueueHealth where
  entries : ℕ
  bytes : ℕ
  oldestQueuedAt : Option SystemTime
  counters : QueueCounters
  deriving DecidableEq

/-- The result of one pass; `blocked` is the failure that stopped it. -/
structure Drained where
  delivered : ℕ := 0
  rejected : ℕ := 0
  blocked : Option FailureKind := none
  deriving DecidableEq

/-- A queued file as its name and its size describe it. -/
structure Entry where
  path : String
  sequence : ℕ
  queuedAt : SystemTime
  bytes : ℕ
  deriving DecidableEq

/-- `Entry::age`; a clock that was set back makes an entry new. -/
def Entry.age (entry : Entry) (now : SystemTime) : Duration := (now - entry.queuedAt).toNat

def Entry.before (a b : Entry) : Prop :=
  a.sequence < b.sequence ∨ a.sequence = b.sequence ∧ a.path ≤ b.path

instance : DecidableRel Entry.before := fun a b => by
  unfold Entry.before
  infer_instance

/-- `DiskQueue`; the monitor is the last health that was published. -/
structure DiskQueue where
  kind : QueueKind
  limits : QueueLimits
  nextSequence : ℕ := 0
  counters : QueueCounters := {}
  monitor : Option QueueHealth := none
  deriving DecidableEq

abbrev Code := Prog Call Call.Answer

abbrev Io := Method Call Call.Answer DiskQueue QueueError

/-- `n + 1` of a `u64`. -/
def increment (n : ℕ) : ℕ := (n + 1) % 2 ^ 64

/-! ### Calls -/

namespace Fs

def prepare (stage : Stage) : Code Bool := Prog.ask (Call.prepare stage)

def readDir : Code (Option (List String)) := Prog.ask Call.readDir

def metadata (name : String) : Code (Option ℕ) :=
  Prog.ask (Call.metadata name)

def modified (name : String) : Code (Option SystemTime) :=
  Prog.ask (Call.modified name)

def read (name : String) : Code Reading := Prog.ask (Call.read name)

def cancelled : Code Bool := Prog.ask Call.cancelled

def deliver (file : File) : Code Outcome := Prog.ask (Call.deliver file)

def unlink (name : String) (why : Why) : Code Unlinked :=
  Prog.ask (Call.unlink name why)

def create (name : String) : Code Bool := Prog.ask (Call.create name)

def write (name : String) (body : List UInt8) : Code Bool :=
  Prog.ask (Call.write name body)

def syncFile (name : String) : Code Bool := Prog.ask (Call.syncFile name)

def rename (source target : String) : Code Bool :=
  Prog.ask (Call.rename source target)

def discard (name : String) : Code Unit := Prog.ask (Call.discard name)

def syncDirectory : Code Bool := Prog.ask Call.syncDirectory

end Fs

/-- A call with `?`: its failure is an error of the operation. -/
def attempt (call : Code Bool) (error : QueueError) : Io PUnit := do
  if ← Method.liftM call then return ⟨⟩ else Method.throw error

/-! ### Listing and removing -/

section

variable (uuids : Uuids)

def listed : List String → Code (List Entry)
  | [] => return []
  | name :: names =>
    match parseEntryName uuids name with
    | none => listed names
    | some (sequence, queuedAt) => do
        match ← Fs.metadata name with
        | some bytes => do
            let rest ← listed names
            return { path := name, sequence, queuedAt, bytes } :: rest
        | none => listed names

/-- `entries`: what is queued, in the order of delivery. -/
def entries : Code (Except QueueError (List Entry)) := do
  match ← Fs.readDir with
  | none => return .error (.io "list queue")
  | some names => do
      let found ← listed uuids names
      return .ok (found.insertionSort Entry.before)

/-- `remove`: `true` only if this call unlinked the file. -/
def remove (path : String) (why : Why) : Code (Except QueueError Bool) := do
  match ← Fs.unlink path why with
  | .ok => return .ok true
  | .notFound => return .ok false
  | .failed => return .error (.io "remove queued entry")

def healthOf (entries : List Entry) (counters : QueueCounters) : QueueHealth :=
  { entries := entries.length
    bytes := (entries.map Entry.bytes).sum
    oldestQueuedAt := entries.head?.map Entry.queuedAt
    counters }

def health : Io QueueHealth := do
  let found ← Method.lift (entries uuids)
  let queue ← Method.get
  return healthOf found queue.counters

def publishHealth : Io PUnit := do
  let found ← Method.liftM (entries uuids)
  match found with
  | .ok found =>
    Method.modify fun queue => { queue with monitor := some (healthOf found queue.counters) }
  | .error _ => return ⟨⟩

/-- Removes an entry, counts it if it was there, and publishes the health: what every
place that drops an entry does. -/
def dropEntry (path : String) (why : Why) (count : QueueCounters → QueueCounters) : Io Bool := do
  let removed ← Method.lift (remove path why)
  Method.modify fun queue =>
    { queue with counters := if removed then count queue.counters else queue.counters }
  publishHealth uuids
  return removed

def expireEach (maxAge : Duration) (now : SystemTime) : List Entry → Io PUnit
  | [] => return ⟨⟩
  | entry :: rest => do
      let _ ← dropEntry uuids entry.path (.expired maxAge now) fun counters =>
        { counters with expired := counters.expired + 1 }.noteDropped entry.queuedAt
      expireEach maxAge now rest

def expire (found : List Entry) (now : SystemTime) : Io (List Entry) := do
  let queue ← Method.get
  let maxAge := queue.limits.maxAge
  expireEach uuids maxAge now (found.filter fun entry => maxAge < entry.age now)
  return found.filter fun entry => ¬ maxAge < entry.age now

/-! ### Enqueueing -/

/-- The loop of `enqueue` that drops the oldest until the body fits. -/
def makeRoom (limits : QueueLimits) (size : ℕ) : List Entry → (remaining bytes : ℕ) → Io PUnit
  | [], _, _ => return ⟨⟩
  | oldest :: rest, remaining, bytes =>
    if remaining < limits.maxEntries ∧ bytes + size ≤ limits.maxBytes then return ⟨⟩
    else do
      let _ ← dropEntry uuids oldest.path (.evicted limits size) fun counters =>
        { counters with droppedForSpace := counters.droppedForSpace + 1 }.noteDropped
          oldest.queuedAt
      makeRoom limits size rest (remaining - 1) (bytes - oldest.bytes)

def writeThrough (temporary path : String) (body : List UInt8) : Io PUnit := do
  attempt (Fs.create temporary) (.io "create queued entry")
  attempt (Fs.write temporary body) (.io "write queued entry")
  attempt (Fs.syncFile temporary) (.io "write queued entry")
  attempt (Fs.rename temporary path) (.io "persist queued entry")
  attempt Fs.syncDirectory (.io "sync queue directory")

/-- `write_atomically`: the temporary file goes if the write fails. -/
def writeAtomically (temporary path : String) (body : List UInt8) : Io PUnit := do
  match ← Method.result (writeThrough temporary path body) with
  | .ok _ => return ⟨⟩
  | .error error => do
      let _ ← Method.liftM (Fs.discard temporary)
      Method.throw error

/-- The sequence number of the next entry: `map_or(0, |entry| entry.sequence + 1)`. -/
def following (found : List Entry) : ℕ :=
  match found.getLast? with
  | none => 0
  | some entry => increment entry.sequence

/-- The end of `enqueue`: the entry is written under its sequence number. -/
def writeEntry (sequence : ℕ) (entryId : Uuid) (body : List UInt8) (now : SystemTime)
    (temporaryId : Uuid) : Io PUnit := do
  let written ← Method.result (writeAtomically (temporaryName uuids temporaryId)
    (entryName uuids sequence now entryId) body)
  match written with
  | .ok _ => do
      Method.modify fun queue => { queue with nextSequence := increment sequence }
      publishHealth uuids
  | .error error => do
      publishHealth uuids
      Method.throw error

def enqueue (entryId : Uuid) (body : List UInt8) (now : SystemTime) (temporaryId : Uuid) :
    Io PUnit := do
  let queue ← Method.get
  if queue.limits.maxBytes < body.length then
    Method.throw (.tooLarge queue.kind body.length queue.limits.maxBytes)
  else do
    let found ← Method.lift (entries uuids)
    let found ← expire uuids found now
    let sequence := max queue.nextSequence (following found)
    makeRoom uuids queue.limits body.length found found.length (found.map Entry.bytes).sum
    writeEntry uuids sequence entryId body now temporaryId

/-! ### Draining -/

/-- The loop of `drain_at_most`. -/
def drainEach (limit : ℕ) : List Entry → (offered : ℕ) → Drained → Io Drained
  | [], _, drained => return drained
  | entry :: rest, offered, drained => do
      let cancelled ← Method.liftM Fs.cancelled
      if cancelled ∨ limit ≤ offered then return drained
      else
        match ← Method.liftM (Fs.read entry.path) with
        | .notFound => do
            publishHealth uuids
            drainEach limit rest offered drained
        | .failed => do
            let _ ← dropEntry uuids entry.path .unreadable fun counters =>
              { counters with unreadable := counters.unreadable + 1 }
            drainEach limit rest offered drained
        | .ok file => do
            match ← Method.liftM (Fs.deliver file) with
            | .accepted => do
                let _ ← dropEntry uuids entry.path .acknowledged id
                drainEach limit rest (offered + 1)
                  { drained with delivered := drained.delivered + 1 }
            | .failed .payloadRejected => do
                let removed ← dropEntry uuids entry.path .rejected fun counters =>
                  { counters with rejected := counters.rejected + 1 }
                drainEach limit rest (offered + 1)
                  (if removed then { drained with rejected := drained.rejected + 1 } else drained)
            | .failed kind => return { drained with blocked := some kind }

def drainAtMost (now : SystemTime) (limit : ℕ) : Io Drained := do
  let found ← Method.lift (entries uuids)
  let found ← expire uuids found now
  let drained ← drainEach uuids limit found 0 {}
  publishHealth uuids
  return drained

/-! ### Opening -/

def abandonedTemporaryAge : Duration := 600 * 1000000000

def removeAbandonedEach (now : SystemTime) : List String → Io PUnit
  | [] => return ⟨⟩
  | name :: names => do
      if temporaryPrefix <+: name.toList then
        match ← Method.liftM (Fs.modified name) with
        | some modified =>
          if abandonedTemporaryAge < (now - modified).toNat then
            let _ ← Method.lift (remove name .abandoned)
            removeAbandonedEach now names
          else removeAbandonedEach now names
        | none => removeAbandonedEach now names
      else removeAbandonedEach now names

def removeAbandonedTemporaries (now : SystemTime) : Io PUnit := do
  match ← Method.liftM Fs.readDir with
  | none => Method.throw (.io "list queue")
  | some names => removeAbandonedEach now names

def prepareQueue (now : SystemTime) : Io PUnit := do
  let queue ← Method.get
  attempt (Fs.prepare .createDirectory) (.io ("create " ++ queue.kind.name ++ " queue"))
  attempt (Fs.prepare .inspectDirectory) (.io ("inspect " ++ queue.kind.name ++ " queue"))
  attempt (Fs.prepare .isDirectory) (.notDirectory queue.kind)
  attempt (Fs.prepare .setMode) (.io "protect queue directory")
  attempt (Fs.prepare .syncParent) (.io "sync queue directory")
  removeAbandonedTemporaries now
  let found ← Method.lift (entries uuids)
  Method.modify fun queue => { queue with nextSequence := following found }
  publishHealth uuids

def openQueue (kind : QueueKind) (limits : QueueLimits) (now : SystemTime) :
    Code (Except QueueError DiskQueue) := do
  let (result, queue) ← prepareQueue uuids now { kind, limits }
  return result.map fun _ => queue

end

end Renga.Agent.Queue
