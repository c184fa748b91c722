import Renga.Agent.Queue.Specs
import Renga.Lib.Run

/-!
# A queue over restarts

One process after the other works on the directory of a queue.  A process starts by opening
the queue; then it enqueues, drains and looks at the health of the queue, in any order,
until it stops.  The decisions of a step say which calls fail; where they run out the
process dies.

An entry whose `symlink_metadata` fails is skipped: its sequence number may be given again, and
it is not counted against the limits.  The queue keeps its order and its limits in every run in
which no entry is skipped and the sequence numbers do not wrap around.
-/

namespace Renga.Agent.Queue

open List

/-! ### Processes -/

/-- The directory and the process that has opened it. -/
structure System where
  disk : Disk := {}
  process : Option DiskQueue := none

inductive Op where
  | start (kind : QueueKind) (limits : QueueLimits) (now : SystemTime) (decisions : List Decision)
  | stop
  | enqueue (entryId : Uuid) (body : List UInt8) (now : SystemTime) (temporaryId : Uuid)
      (decisions : List Decision)
  | drain (now : SystemTime) (limit : ℕ) (decisions : List Decision)
  | health (decisions : List Decision)

namespace System

/-- A method of the queue, run by the process there is. -/
def operate {α : Type} (system : System) (method : Io α) (decisions : List Decision) : System :=
  match system.process with
  | none => system
  | some queue =>
    match (method queue).run Disk.answer system.disk decisions with
    | (disk, some (_, queue')) => { disk, process := some queue' }
    | (disk, none) => { disk := disk.note .crashed }

def begin (uuids : Uuids) (system : System) (kind : QueueKind) (limits : QueueLimits)
    (now : SystemTime) (decisions : List Decision) : System :=
  match system.process with
  | some _ => system
  | none =>
    match (openQueue uuids kind limits now).run Disk.answer system.disk decisions with
    | (disk, some (.ok queue)) => { disk := disk.note .opened, process := some queue }
    | (disk, some (.error _)) => { disk }
    | (disk, none) => { disk := disk.note .crashed }

end System

def step (uuids : Uuids) (system : System) : Op → System
  | .start kind limits now decisions => system.begin uuids kind limits now decisions
  | .stop => { system with process := none }
  | .enqueue entryId body now temporaryId decisions =>
    system.operate (enqueue uuids entryId body now temporaryId) decisions
  | .drain now limit decisions => system.operate (drainAtMost uuids now limit) decisions
  | .health decisions => system.operate (health uuids) decisions

abbrev run (uuids : Uuids) (system : System) (ops : List Op) : System :=
  Run.run (step uuids) system ops

def Accepts (uuids : Uuids) (system : System) (entryId : Uuid) (body : List UInt8)
    (now : SystemTime) (temporaryId : Uuid) (decisions : List Decision) : Prop :=
  ∃ queue disk queue', system.process = some queue ∧
    (enqueue uuids entryId body now temporaryId queue).run Disk.answer system.disk decisions
      = (disk, some (.ok ⟨⟩, queue'))

instance (uuids : Uuids) (system : System) (entryId : Uuid) (body : List UInt8)
    (now : SystemTime) (temporaryId : Uuid) (decisions : List Decision) :
    Decidable (Accepts uuids system entryId body now temporaryId decisions) :=
  decidable_of_iff ((match system.process with
    | none => false
    | some queue =>
      match (enqueue uuids entryId body now temporaryId queue).run Disk.answer system.disk
        decisions with
      | (_, some (.ok _, _)) => true
      | _ => false) = true) (by
    unfold Accepts
    cases system.process with
    | none => simp
    | some queue =>
      rcases result : (enqueue uuids entryId body now temporaryId queue).run Disk.answer
        system.disk decisions with ⟨disk, _ | ⟨_ | _, queue'⟩⟩ <;> simp [result])

/-- The seconds of the times entries are queued at fit into the names. -/
def Op.Fits : Op → Prop
  | .enqueue _ _ now _ _ => unixSeconds now < 10 ^ 12
  | _ => True

instance (op : Op) : Decidable op.Fits := by
  unfold Op.Fits
  cases op <;> infer_instance

/-- What the calls of a step meet. -/
def Op.decisions : Op → List Decision
  | .start _ _ _ decisions | .enqueue _ _ _ _ decisions | .drain _ _ decisions
  | .health decisions => decisions
  | .stop => []

/-- No entry is skipped in the step. -/
def Op.Sees (op : Op) : Prop := ∀ decision ∈ op.decisions, decision.unseen = false

instance (op : Op) : Decidable op.Sees := by
  unfold Op.Sees
  infer_instance

/-- What holds of the directory and the process between two steps. -/
structure System.Steady (uuids : Uuids) (system : System) : Prop where
  sound : system.disk.Sound uuids
  clear : system.disk.Clear uuids
  rest : ∀ queue, system.process = some queue → Rest uuids queue system.disk

variable {uuids : Uuids} {system : System}

/-! ### Steps -/

variable {start disk : Disk}

theorem System.Steady.crash (inside : OnCourse uuids start disk) :
    OnCourse uuids start (disk.note .crashed) ∧
      System.Steady uuids { disk := disk.note .crashed } := by
  obtain ⟨new, course⟩ := inside
  have course' : Course uuids start (disk.note .crashed) (.crashed :: new) :=
    course.note (nofun) course.sound.warranted course.sound.unsettled
      (nofun) course.offers
  exact ⟨⟨_, course'⟩, course'.sound, fun _ _ settled => settled, nofun⟩

theorem run_seen {α : Type} {program : Code α} {decisions : List Decision}
    (sees : ∀ decision ∈ decisions, decision.unseen = false) :
    program.run Disk.answer disk decisions = program.run Disk.seen disk decisions := by
  refine Prog.run_congr fun decision member disk call => ?_
  have same : { decision with unseen := false } = decision := by
    rw [← sees decision member]
  rw [Disk.seen, same]

variable (steady : system.Steady uuids) {decisions : List Decision}
  (sees : ∀ decision ∈ decisions, decision.unseen = false)
include steady sees

theorem operate_steady {α : Type} {method : Io α} (holds : ∀ queue, system.process = some queue →
      Keeps uuids system.disk
        (fun _ queue' disk' => OnCourse uuids system.disk disk' ∧ Rest uuids queue' disk')
        method queue system.disk) :
    OnCourse uuids system.disk (system.operate method decisions).disk ∧
      (system.operate method decisions).Steady uuids := by
  have inside : OnCourse uuids system.disk system.disk := ⟨_, .refl steady.sound⟩
  unfold System.operate
  cases running : system.process with
  | none => exact ⟨inside, steady⟩
  | some queue =>
    have after := Prog.run_of_holds (holds queue running) inside decisions
    rw [← run_seen sees] at after
    dsimp only
    generalize Prog.run Disk.answer (method queue) system.disk decisions = result at after ⊢
    obtain ⟨_, returned⟩ := result
    cases returned with
    | none => exact System.Steady.crash after.1
    | some value =>
      obtain ⟨onCourse, rest⟩ := after.2 value rfl
      obtain ⟨new, course⟩ := onCourse
      refine ⟨⟨new, course⟩, course.sound, rest.clear, fun _ same => ?_⟩
      cases same
      exact rest

variable {limits : QueueLimits} {now : SystemTime}

theorem begin_steady {kind : QueueKind} (few : system.disk.written + 1 < 2 ^ 64) :
    OnCourse uuids system.disk (system.begin uuids kind limits now decisions).disk ∧
      (system.begin uuids kind limits now decisions).Steady uuids := by
  have inside : OnCourse uuids system.disk system.disk := ⟨_, .refl steady.sound⟩
  unfold System.begin
  cases running : system.process with
  | some => exact ⟨inside, steady⟩
  | none =>
    have opens : Opens uuids system.disk {} { kind, limits } system.disk :=
      ⟨inside, steady.clear, rfl, Nat.zero_le _⟩
    have holds : (openQueue uuids kind limits now).Holds Disk.seen
        (OnCourse uuids system.disk) (fun result disk' => OnCourse uuids system.disk disk' ∧
          disk'.Clear uuids ∧ ∀ queue, result = .ok queue →
            Opens uuids system.disk {} queue disk') system.disk := by
      refine Prog.Holds.bind (prepareQueue_holds opens few) inside fun result _ _ opens' => ?_
      obtain ⟨result, queue⟩ := result
      refine Prog.holds_ret ⟨opens'.course, opens'.clear, fun queue' same => ?_⟩
      cases result with
      | error => cases same
      | ok =>
        cases same
        exact opens'
    have after := Prog.run_of_holds holds inside decisions
    rw [← run_seen sees] at after
    generalize Prog.run Disk.answer (openQueue uuids kind limits now) system.disk decisions
      = result at after ⊢
    obtain ⟨disk, returned⟩ := result
    cases returned with
    | none => exact System.Steady.crash after.1
    | some result =>
      obtain ⟨⟨new, course⟩, clear, opened⟩ := after.2 result rfl
      cases result with
      | error =>
        exact ⟨⟨new, course⟩, course.sound, clear, nofun⟩
      | ok queue =>
        obtain ⟨_, _, counters, bounded⟩ := opened queue rfl
        have course' : Course uuids system.disk (disk.note .opened) (.opened :: new) :=
          course.note (nofun) course.sound.warranted
            course.sound.unsettled (nofun) course.offers
        refine ⟨⟨_, course'⟩, course'.sound, clear, fun _ same => ?_⟩
        cases same
        exact ⟨counters, clear, bounded⟩

omit sees

theorem health_holds {queue : DiskQueue} (rest : Rest uuids queue system.disk) :
    Keeps uuids system.disk
      (fun _ queue' disk' => OnCourse uuids system.disk disk' ∧ Rest uuids queue' disk')
      (health uuids) queue system.disk := by
  have inside : OnCourse uuids system.disk system.disk := ⟨_, .refl steady.sound⟩
  refine Method.holds_lift_bind (((entries_holds system.disk).still inside).mono inside ?_) inside
  rintro found _ inside' ⟨rfl, _⟩
  cases found with
  | error | ok => exact ⟨inside', rest⟩

variable (few : system.disk.written + 1 < 2 ^ 64)
include few

theorem step_steady {op : Op} (fits : op.Fits) (sees : op.Sees) :
    OnCourse uuids system.disk (step uuids system op).disk ∧
      (step uuids system op).Steady uuids := by
  cases op with
  | start => exact begin_steady steady sees few
  | stop =>
    exact ⟨⟨_, .refl steady.sound⟩, steady.sound, steady.clear, nofun⟩
  | enqueue =>
    refine operate_steady steady sees fun queue running => ?_
    refine (enqueue_holds _ _ _ few fits steady.sound (steady.rest queue running)).mono
      ⟨_, .refl steady.sound⟩ fun _ _ _ inside enqueued => ⟨inside, enqueued.rest⟩
  | drain =>
    exact operate_steady steady sees
      fun queue running => drainAtMost_holds steady.sound (steady.rest queue running)
  | health =>
    exact operate_steady steady sees
      fun queue running => health_holds steady (steady.rest queue running)

theorem enqueue_placed {entryId temporaryId : Uuid} {body : List UInt8}
    (fits : unixSeconds now < 10 ^ 12) (sees : ∀ decision ∈ decisions, decision.unseen = false)
    (accepts : Accepts uuids system entryId body now temporaryId decisions) :
    ∃ queue files file, system.process = some queue ∧
      Evicts queue.limits body.length (system.disk.young uuids queue.limits now)
        (files.map (File.entry uuids)) ∧
      file.body = body ∧ file.stamp = system.disk.written ∧
      (step uuids system (.enqueue entryId body now temporaryId decisions)).disk.entryFiles uuids
        = files ++ [file] := by
  obtain ⟨queue, disk, _, running, returned⟩ := accepts
  have after := (Prog.run_of_holds (enqueue_holds entryId temporaryId body few fits steady.sound
    (steady.rest queue running)) ⟨_, .refl steady.sound⟩ decisions).2
  have disk' : (step uuids system (.enqueue entryId body now temporaryId decisions)).disk
      = disk := by
    show (System.operate system _ decisions).disk = disk
    simp only [System.operate, running, returned]
  rw [disk']
  rw [← run_seen sees, returned] at after
  obtain ⟨files, file, evicts, text, stamp, placed⟩ := (after _ rfl).placed rfl
  exact ⟨queue, files, file, running, evicts, text, stamp, placed⟩

omit steady few

/-! ### Runs -/

/-- What a stretch of a run may do: the history grows by `new`, and an entry is gone only if
one of the new events removed it. -/
structure Passage (uuids : Uuids) (start disk : Disk) (new : List Event) : Prop where
  grown : disk.history = new ++ start.history
  kept : ∀ file ∈ start.entryFiles uuids,
    file ∈ disk.entryFiles uuids ∨ ∃ why among, .removed file why among ∈ new

variable {new : List Event}

theorem Passage.trans {first second third : Disk} {new' : List Event}
    (passage : Passage uuids first second new) (passage' : Passage uuids second third new') :
    Passage uuids first third (new' ++ new) where
  grown := by rw [passage'.grown, passage.grown, append_assoc]
  kept := by
    intro file stored
    rcases passage.kept file stored with here | ⟨why, among, gone⟩
    · rcases passage'.kept file here with here' | ⟨why, among, gone⟩
      · exact .inl here'
      · exact .inr ⟨why, among, mem_append_left _ gone⟩
    · exact .inr ⟨why, among, mem_append_right _ gone⟩

theorem run_passes {ops : List Op} (steady : system.Steady uuids) (fits : ∀ op ∈ ops, op.Fits)
    (sees : ∀ op ∈ ops, op.Sees) (few : system.disk.written + ops.length < 2 ^ 64) :
    (run uuids system ops).Steady uuids ∧
      (run uuids system ops).disk.written ≤ system.disk.written + ops.length ∧
      ∃ new, Passage uuids system.disk (run uuids system ops).disk new := by
  induction ops generalizing system with
  | nil => exact ⟨steady, le_refl _, [], rfl, fun _ stored => .inl stored⟩
  | cons op ops ih =>
    rw [length_cons] at few ⊢
    obtain ⟨fit, fits⟩ := forall_mem_cons.1 fits
    obtain ⟨see, sees⟩ := forall_mem_cons.1 sees
    obtain ⟨⟨new, course⟩, steady'⟩ := step_steady steady (by omega) fit see
    have raised := course.raised
    obtain ⟨final, written, new', passage⟩ := ih steady' fits sees (by omega)
    exact ⟨final, written.trans (by omega), new' ++ new,
      Passage.trans ⟨course.grown, course.kept⟩ passage⟩

theorem System.Steady.empty (uuids : Uuids) : ({} : System).Steady uuids where
  sound :=
    { numbered := nofun
      filed := List.Pairwise.nil
      ordered := List.Pairwise.nil
      placed := nofun
      offered := nofun
      warranted := trivial
      unsettled := trivial }
  clear := nofun
  rest := nofun

/-- The state before a step of a run. -/
theorem run_reaches (uuids : Uuids) {before after : List Op} {op : Op}
    (fits : ∀ other ∈ before ++ op :: after, other.Fits)
    (sees : ∀ other ∈ before ++ op :: after, other.Sees)
    (few : (before ++ op :: after).length < 2 ^ 64) :
    (run uuids {} before).Steady uuids ∧ op.Fits ∧ op.Sees ∧
      (run uuids {} before).disk.written + 1 + after.length < 2 ^ 64 := by
  rw [length_append, length_cons] at few
  have written : ({} : System).disk.written = 0 := rfl
  obtain ⟨steady, raised, _⟩ := run_passes (System.Steady.empty uuids)
    (fun other member => fits other (mem_append_left _ member))
    (fun other member => sees other (mem_append_left _ member)) (by omega)
  exact ⟨steady, fits op (mem_append_right _ mem_cons_self),
    sees op (mem_append_right _ mem_cons_self), by omega⟩

/-- What became of an entry: it is still there, or it was removed on the grounds the history
gives. -/
def Disk.Accounts (uuids : Uuids) (disk : Disk) (file : File) : Prop :=
  file ∈ disk.files ∨ ∃ newer why among older,
    disk.history = newer ++ .removed file why among :: older ∧ why ≠ .abandoned ∧
      Grounds uuids file among older why

theorem Passage.accounts {file : File} (passage : Passage uuids start disk new)
    (sound : disk.Sound uuids) (stored : file ∈ start.entryFiles uuids) :
    disk.Accounts uuids file := by
  rcases passage.kept file stored with here | ⟨why, among, gone⟩
  · exact .inl (Disk.mem_entryFiles.1 here).1
  obtain ⟨newer, older, rfl⟩ := append_of_mem gone
  have history : disk.history = newer ++ .removed file why among :: (older ++ start.history) := by
    rw [passage.grown, append_assoc, cons_append]
  have grounds := (history ▸ sound.warranted).grounds
  refine .inr ⟨newer, why, among, _, history, ?_, grounds⟩
  rintro rfl
  exact grounds (Disk.mem_entryFiles.1 stored).2

/-- What each step offers is in the order in which it was put in place. -/
def InOrder (uuids : Uuids) (ops : List Op) : Prop :=
  ∀ before op after, ops = before ++ op :: after →
    ∃ new, (step uuids (run uuids {} before) op).disk.history
        = new ++ (run uuids {} before).disk.history ∧
      ∀ file outcome other outcome',
        Precedes (.offered file outcome) (.offered other outcome') new →
        Precedes (.written file) (.written other)
          (step uuids (run uuids {} before) op).disk.history

/-- **No body is lost, repeated or overtaken without a reason.**  In every run of processes
that start, crash, stop and start again, a body whose `enqueue` returned success is still on
disk or was removed: because the callback had just accepted it, or had rejected it, because it
could not be read, was over its age or was the oldest where there was no room.  The process
has counted what it dropped since it opened the queue.  A body that was accepted is offered
again only if the process died or could not remove it in between.  And what one step offers
is in the order in which it was put in place. -/
theorem run_delivers_in_order (uuids : Uuids) (ops : List Op) (fits : ∀ op ∈ ops, op.Fits)
    (sees : ∀ op ∈ ops, op.Sees) (few : ops.length < 2 ^ 64) :
    (∀ before entryId body now temporaryId decisions after,
      ops = before ++ .enqueue entryId body now temporaryId decisions :: after →
      Accepts uuids (run uuids {} before) entryId body now temporaryId decisions →
      ∃ file, file.body = body ∧ .written file ∉ (run uuids {} before).disk.history ∧
        .written file ∈ (step uuids (run uuids {} before)
          (.enqueue entryId body now temporaryId decisions)).disk.history ∧
        (run uuids {} ops).disk.Accounts uuids file) ∧
    (∀ queue, (run uuids {} ops).process = some queue →
      queue.counters = tally uuids (run uuids {} ops).disk.history) ∧
    (∀ newer file outcome between older, (run uuids {} ops).disk.history
        = newer ++ .offered file outcome :: (between ++ .offered file .accepted :: older) →
      .crashed ∈ between ∨ .stuck file ∈ between) ∧
    InOrder uuids ops := by
  have written : ({} : System).disk.written = 0 := rfl
  obtain ⟨final, _⟩ := run_passes (System.Steady.empty uuids) fits sees (by omega)
  refine ⟨?_, fun queue running => (final.rest queue running).counted, ?_, ?_⟩
  · rintro before _ _ _ _ _ after rfl accepts
    obtain ⟨reached, fit, see, room⟩ := run_reaches uuids fits sees few
    obtain ⟨_, _, file, _, _, text, stamp, placed⟩ :=
      enqueue_placed reached (by omega) fit see accepts
    obtain ⟨⟨_, course⟩, next⟩ := step_steady reached (by omega) fit see
    have raised := course.raised
    have stored : file ∈ _ := placed ▸ mem_append_right _ mem_cons_self
    obtain ⟨_, _, new, passage⟩ := run_passes next
      (fun op member => fits op (mem_append_right _ (mem_cons_of_mem _ member)))
      (fun op member => sees op (mem_append_right _ (mem_cons_of_mem _ member))) (by omega)
    refine ⟨file, text, fun early => ?_, (next.sound.placed file stored).1, ?_⟩
    · exact absurd (reached.sound.numbered file early) (by omega)
    rw [run, Run.run_append, Run.run_cons] at final ⊢
    exact passage.accounts final.sound stored
  · intro newer file outcome between older history
    have unsettled := (history ▸ final.sound.unsettled).offered
    by_contra quiet
    push Not at quiet
    exact unsettled (settled_of_quiet quiet.1 quiet.2)
  rintro _ _ _ rfl
  obtain ⟨reached, fit, see, room⟩ := run_reaches uuids fits sees few
  obtain ⟨⟨new, course⟩, _⟩ := step_steady reached (by omega) fit see
  refine ⟨new, course.grown, fun file outcome other outcome' precedes => ?_⟩
  have less := lt_of_precedes course.offers rfl rfl precedes
  obtain ⟨_, _, _, rfl⟩ := precedes
  refine precedes_of_stamp_lt course.sound.filed (course.sound.offered file outcome ?_)
    (course.sound.offered other outcome' ?_) less
  · rw [course.grown]
    simp
  rw [course.grown]
  simp

/-- Identifiers that are all written alike. -/
def plainUuids : Uuids where
  text := fun _ => ['0']
  parses := fun _ => true
  parses_text := fun _ => rfl

/-- Calls that all succeed. -/
def fine : List Decision := replicate 40 {}

/-- A queue is opened and takes an entry.  It is offered and accepted, but the process dies
before it has removed it; the next process offers it again. -/
def twice : List Op :=
  [.start .observations ⟨4, 100, 1000⟩ 5 fine, .enqueue 1 [7] 6 2 fine,
    .drain 7 9 (replicate 5 {}), .start .observations ⟨4, 100, 1000⟩ 8 fine, .drain 9 9 fine]

theorem twice_delivers_in_order : (∀ op ∈ twice, op.Fits ∧ op.Sees) ∧
    Accepts plainUuids (run plainUuids {} (twice.take 1)) 1 [7] 6 2 fine ∧
    offers (run plainUuids {} twice).disk.history = [0, 0] ∧
    ∃ file, file.body = [7] ∧ (run plainUuids {} twice).disk.Accounts plainUuids file := by
  have fits : ∀ op ∈ twice, op.Fits ∧ op.Sees := by decide
  have accepts : Accepts plainUuids (run plainUuids {} (twice.take 1)) 1 [7] 6 2 fine := by
    decide +kernel
  refine ⟨fits, accepts, by decide +kernel, ?_⟩
  obtain ⟨file, body, _, _, accounts⟩ := (run_delivers_in_order plainUuids twice
    (fun op mem => (fits op mem).1) (fun op mem => (fits op mem).2) (by decide)).1
    (twice.take 1) 1 [7] 6 2 fine (twice.drop 2) rfl accepts
  exact ⟨file, body, accounts⟩

/-- Calls that all succeed, but for those that look at an entry. -/
def blind : List Decision := replicate 40 { unseen := true }

/-- An entry is queued in the fifth second.  The next process does not see it when it opens the
queue; the clock was set back, and the entry it queues in the first second gets the same number.
The drain offers the second entry first. -/
def overtaken : List Op :=
  [.start .observations ⟨4, 100, 1000⟩ 5000000000 fine, .enqueue 1 [7] 5000000000 2 fine, .stop,
    .start .observations ⟨4, 100, 1000⟩ 1000000000 blind, .enqueue 3 [8] 1000000000 4 blind,
    .drain 1000000000 9 fine]

theorem overtaken_not_inOrder : (∀ op ∈ overtaken, op.Fits) ∧ ¬ InOrder plainUuids overtaken := by
  refine ⟨by decide, fun inOrder => ?_⟩
  obtain ⟨new, grown, inOrder⟩ := inOrder (overtaken.take 5) (.drain 1000000000 9 fine) [] rfl
  set before := run plainUuids {} (overtaken.take 5)
  have offered : offers new = [0, 1] := by
    have none : offers before.disk.history = [] := by decide +kernel
    rw [← append_nil (offers new), ← none, offers, offers, ← filterMap_append, ← grown]
    decide +kernel
  have written : writes (step plainUuids before (.drain 1000000000 9 fine)).disk.history
      = [1, 0] := by decide +kernel
  obtain ⟨_, second, _, rfl, _, isSecond, rest⟩ := filterMap_eq_cons_iff.1 offered
  obtain ⟨_, first, _, rfl, _, isFirst, _⟩ := filterMap_eq_cons_iff.1 rest
  obtain ⟨other, outcome', rfl, stamp'⟩ := Event.offer_eq_some.1 isSecond
  obtain ⟨file, outcome, rfl, stamp⟩ := Event.offer_eq_some.1 isFirst
  have falling : (writes (step plainUuids before (.drain 1000000000 9 fine)).disk.history).Pairwise
      (· > ·) := by
    rw [written]
    decide
  have less : file.stamp < other.stamp :=
    lt_of_precedes falling rfl rfl (inOrder file outcome other outcome' ⟨_, _, _, rfl⟩)
  omega

/-! ### The limits -/

end Renga.Agent.Queue
