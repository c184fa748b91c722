import Renga.Lib.Calls
import Renga.Lib.Decimal
import Renga.Lib.KeyTable
import Renga.Lib.Lines
import Renga.Organizations

/-!
# The directory of a queue

`agent/src/queue.rs` keeps every queued entry in a file of its own, whose name holds the
sequence number that orders it, the second it was queued at and the identifier of the entry.
-/

namespace Renga.Agent.Queue

open Decimal

/-! ### Names -/

/-- Nanoseconds since the epoch. -/
abbrev SystemTime := ℤ

abbrev Duration := ℕ

/-- What the crate `uuid` does: the text of an identifier, and whether `Uuid::parse_str`
takes a text for one. -/
structure Uuids where
  text : Uuid → List Char
  parses : List Char → Bool
  parses_text : ∀ id, parses (text id) = true

def entrySuffix : List Char := ".json".toList

def temporaryPrefix : List Char := ".tmp-".toList

def unixSeconds (t : SystemTime) : ℕ := t.toNat / 1000000000

def fromUnixSeconds (seconds : ℕ) : SystemTime := seconds * 1000000000

def byteLength (text : List Char) : ℕ := (text.map Char.utf8Size).sum

def parseU64 (text : List Char) : Option ℕ :=
  let digits := match text with
    | '+' :: digits => digits
    | _ => text
  (value? digits).filter (· < 2 ^ 64)

/-- `entry_name`. -/
def entryName (uuids : Uuids) (sequence : ℕ) (queuedAt : SystemTime) (entryId : Uuid) : String :=
  String.ofList (padded 20 sequence ++ '-' ::
    (padded 12 (unixSeconds queuedAt) ++ '-' :: (uuids.text entryId)) ++ entrySuffix)

/-- `parse_entry_name`. -/
def parseEntryName (uuids : Uuids) (name : String) : Option (ℕ × SystemTime) := do
  let stem ← Lines.stripSuffix entrySuffix name.toList
  let (sequence, rest) ← Lines.splitOnce '-' stem
  let (seconds, entryId) ← Lines.splitOnce '-' rest
  if byteLength sequence ≠ 20 ∨ byteLength seconds ≠ 12 ∨ ¬ uuids.parses entryId then none
  else
    let seconds ← parseU64 seconds
    let sequence ← parseU64 sequence
    return (sequence, fromUnixSeconds seconds)

def temporaryName (uuids : Uuids) (id : Uuid) : String :=
  String.ofList (temporaryPrefix ++ uuids.text id)

variable {width n : ℕ}

theorem byteLength_padded (positive : 0 < width) (fits : n < 10 ^ width) :
    byteLength (padded width n) = width := by
  have ones : (padded width n).map Char.utf8Size
      = (padded width n).map fun _ => 1 := by
    refine List.map_congr_left fun c member => ?_
    have digit := isDigit_of_mem_padded member
    simp only [Char.isDigit, Bool.and_eq_true, decide_eq_true_eq] at digit
    have small : c.val ≤ 127 := UInt32.le_trans digit.2 (by decide)
    exact if_pos small
  rw [byteLength, ones, List.map_const', List.sum_replicate_nat, mul_one,
    length_padded positive fits]

theorem dash_not_mem_padded : '-' ∉ padded width n := fun member =>
  absurd (isDigit_of_mem_padded member) (by decide)

theorem parseU64_padded (small : n < 2 ^ 64) : parseU64 (padded width n) = some n := by
  obtain ⟨_, _, text, digit⟩ := padded_eq_cons width n
  have unsigned : parseU64 (padded width n)
      = (value? (padded width n)).filter (· < 2 ^ 64) := by
    rw [text]
    unfold parseU64
    split
    · rename_i same
      cases same
      exact absurd digit (by decide)
    · rfl
  rw [unsigned, value?_padded, Option.filter_some, if_pos (decide_eq_true small)]

theorem parseEntryName_ofList {uuids : Uuids} {sequence seconds ident : List Char}
    (plain : '-' ∉ sequence) (plain' : '-' ∉ seconds) : parseEntryName uuids (String.ofList
      (sequence ++ '-' :: (seconds ++ '-' :: ident) ++ entrySuffix))
    = if byteLength sequence ≠ 20 ∨ byteLength seconds ≠ 12 ∨ ¬ uuids.parses ident then none
      else (parseU64 seconds).bind fun second =>
        (parseU64 sequence).bind fun n => some (n, fromUnixSeconds second) := by
  unfold parseEntryName
  rw [String.toList_ofList, Lines.stripSuffix_append, Option.bind_eq_bind, Option.bind_some,
    Lines.splitOnce_append plain, Option.bind_eq_bind, Option.bind_some]
  simp only []
  rw [Lines.splitOnce_append plain']
  rfl

theorem parseEntryName_entryName (uuids : Uuids) {sequence : ℕ} {queuedAt : SystemTime}
    (entryId : Uuid) (small : sequence < 2 ^ 64) (fits : unixSeconds queuedAt < 10 ^ 12) :
    parseEntryName uuids (entryName uuids sequence queuedAt entryId)
      = some (sequence, fromUnixSeconds (unixSeconds queuedAt)) := by
  have short : sequence < 10 ^ 20 := small.trans (by decide)
  have second : unixSeconds queuedAt < 2 ^ 64 := fits.trans (by decide)
  rw [entryName, parseEntryName_ofList dash_not_mem_padded dash_not_mem_padded, if_neg,
    parseU64_padded second, parseU64_padded small]
  · rfl
  rw [byteLength_padded (by decide) short, byteLength_padded (by decide) fits, uuids.parses_text]
  simp

theorem parseEntryName_of_temporary (uuids : Uuids) {name : String}
    (temporary : temporaryPrefix <+: name.toList) : parseEntryName uuids name = none := by
  obtain ⟨tail, text⟩ := temporary
  have front : ∀ k sequence rest, Lines.splitOnce '-' ((temporaryPrefix ++ tail).take k)
      = some (sequence, rest) → sequence = ".tmp".toList := by
    intro k sequence rest split
    rcases k with _ | _ | _ | _ | _ | _ <;>
      simp [temporaryPrefix, Lines.splitOnce] at split
    exact split.1.symm
  have long : byteLength ".tmp".toList ≠ 20 := by decide
  unfold parseEntryName
  rw [← text]
  unfold Lines.stripSuffix
  split
  · rw [Option.bind_eq_bind, Option.bind_some]
    cases split : Lines.splitOnce '-' (List.take ((temporaryPrefix ++ tail).length -
        entrySuffix.length) (temporaryPrefix ++ tail)) with
    | none => rfl
    | some fields =>
      obtain ⟨_, rest⟩ := fields
      cases front _ _ _ split
      show (Lines.splitOnce '-' rest).bind _ = none
      cases Lines.splitOnce '-' rest with
      | none => rfl
      | some =>
        rw [Option.bind_some]
        exact if_pos (Or.inl long)
  · rfl

theorem parseEntryName_temporaryName {uuids : Uuids} {id : Uuid} :
    parseEntryName uuids (temporaryName uuids id) = none := by
  refine parseEntryName_of_temporary uuids ?_
  rw [temporaryName, String.toList_ofList]
  exact List.prefix_append _ _

/-! ### Files and what happens to them -/

inductive FailureKind where
  | transient
  | payloadRejected
  | permanent
  deriving DecidableEq

inductive Outcome where
  | accepted
  | failed (kind : FailureKind)
  deriving DecidableEq

structure QueueLimits where
  maxEntries : ℕ
  maxBytes : ℕ
  maxAge : Duration
  deriving DecidableEq

/-- A file of the directory.  The stamp tells the files apart that were put in place. -/
structure File where
  name : String
  body : List UInt8
  stamp : ℕ := 0
  deriving DecidableEq

/-- Why an entry is removed. -/
inductive Why where
  | acknowledged
  | rejected
  | unreadable
  | expired (maxAge : Duration) (now : SystemTime)
  | evicted (limits : QueueLimits) (size : ℕ)
  | abandoned
  deriving DecidableEq

inductive Event where
  /-- A process has opened the queue. -/
  | opened
  /-- A process has died. -/
  | crashed
  /-- A file was put in place. -/
  | written (file : File)
  /-- A file could not be read. -/
  | unreadable (file : File)
  /-- The body of a file was handed to the callback. -/
  | offered (file : File) (outcome : Outcome)
  /-- A file was removed; `among` are the files that were there. -/
  | removed (file : File) (why : Why) (among : List File)
  /-- A file could not be removed. -/
  | stuck (file : File)
  deriving DecidableEq

structure Disk where
  files : KeyTable String File File.name := .empty
  written : ℕ := 0
  history : List Event := []

/-! ### Calls -/

/-- The calls `open` makes before it looks into the directory. -/
inductive Stage where
  | createDirectory
  | inspectDirectory
  | isDirectory
  | setMode
  | syncParent
  deriving DecidableEq

/-- The calls of the queue.  `deliver` is the callback; it gets the body of the file. -/
inductive Call where
  | prepare (stage : Stage)
  | readDir
  | metadata (name : String)
  | modified (name : String)
  | read (name : String)
  | cancelled
  | deliver (file : File)
  | unlink (name : String) (why : Why)
  | create (name : String)
  | write (name : String) (body : List UInt8)
  | syncFile (name : String)
  | rename (source target : String)
  | discard (name : String)
  | syncDirectory

inductive Reading where
  | ok (file : File)
  | notFound
  | failed

/-- How an unlink ends. -/
inductive Unlinked where
  | ok
  | notFound
  | failed

def Call.Answer : Call → Type
  | prepare _ => Bool
  | readDir => Option (List String)
  | metadata _ => Option ℕ
  | modified _ => Option SystemTime
  | read _ => Reading
  | cancelled => Bool
  | deliver _ => Outcome
  | unlink _ _ => Unlinked
  | create _ => Bool
  | write _ _ => Bool
  | syncFile _ => Bool
  | rename _ _ => Bool
  | discard _ => Unit
  | syncDirectory => Bool

/-- What a call meets.  `symlink_metadata` of an entry fails if the entry is unseen. -/
structure Decision where
  fails : Bool := false
  unseen : Bool := false
  outcome : Outcome := .accepted
  cancelled : Bool := false
  modified : Option SystemTime := none
  /-- How much of the text a failed write leaves behind. -/
  kept : ℕ := 0

namespace Disk

variable (disk : Disk) (name : String) (fails : Bool)

def note (event : Event) : Disk := { disk with history := event :: disk.history }

def unlink (why : Why) (fails : Bool) : Disk × Unlinked :=
  match disk.files.get? name with
  | none => (disk, .notFound)
  | some file =>
    if fails then (disk.note (.stuck file), .failed)
    else
      ({ disk with files := disk.files.erase name }.note (.removed file why disk.files.rows), .ok)

def rename (source target : String) (fails : Bool) : Disk × Bool :=
  match disk.files.get? source with
  | none => (disk, false)
  | some file =>
    if fails then (disk, false)
    else
      let moved : File := { name := target, body := file.body, stamp := disk.written }
      ({ disk with
          files := (disk.files.erase source).place moved
          written := disk.written + 1 }.note (.written moved), true)

def read : Disk × Reading :=
  match disk.files.get? name with
  | none => (disk, .notFound)
  | some file => if fails then (disk.note (.unreadable file), .failed) else (disk, .ok file)

def create : Disk × Bool :=
  if fails ∨ (disk.files.get? name).isSome then (disk, false)
  else ({ disk with files := disk.files.place { name, body := [] } }, true)

def write (body : List UInt8) (fails : Bool) (kept : ℕ) : Disk × Bool :=
  let body := if fails then body.take kept else body
  ({ disk with files := disk.files.put { name, body } }, !fails)

def answer : (call : Call) → Decision → Disk × call.Answer
  | .prepare _, decision => (disk, !decision.fails)
  | .readDir, decision =>
    (disk, if decision.fails then none else some (disk.files.rows.map File.name))
  | .metadata name, decision =>
    (disk, if decision.unseen then none else (disk.files.get? name).map (·.body.length))
  | .modified _, decision => (disk, decision.modified)
  | .read name, decision => disk.read name decision.fails
  | .cancelled, decision => (disk, decision.cancelled)
  | .deliver file, decision => (disk.note (.offered file decision.outcome), decision.outcome)
  | .unlink name why, decision => disk.unlink name why decision.fails
  | .create name, decision => disk.create name decision.fails
  | .write name body, decision => disk.write name body decision.fails decision.kept
  | .syncFile _, decision => (disk, !decision.fails)
  | .rename source target, decision => disk.rename source target decision.fails
  | .discard name, decision =>
    (if decision.fails then disk else { disk with files := disk.files.erase name }, ())
  | .syncDirectory, decision => (disk, !decision.fails)

end Disk

end Renga.Agent.Queue
