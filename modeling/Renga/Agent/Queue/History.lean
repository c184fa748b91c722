import Renga.Agent.Queue.Operations

/-!
# What a queue remembers

`Disk.Sound` ties the order in the names to the stamps: of two entries the one with the
smaller sequence number was put in place first.  It also says what the history has to show
for every removal (`Grounds`) and for every body that is offered again (`Settled`).
-/

namespace Renga.Agent.Queue

open List KeyTable Disk

variable (uuids : Uuids)

/-! ### The entries of a disk -/

/-- The name of the file is one of an entry. -/
def File.IsEntry (file : File) : Prop := (parseEntryName uuids file.name).isSome

instance (file : File) : Decidable (file.IsEntry uuids) := by
  unfold File.IsEntry
  infer_instance

/-- The sequence number and the time in the name of an entry. -/
def File.label (file : File) : ℕ × SystemTime := (parseEntryName uuids file.name).getD (0, 0)

/-- The entry a file is listed as. -/
def File.entry (file : File) : Entry :=
  { path := file.name
    sequence := (file.label uuids).1
    queuedAt := (file.label uuids).2
    bytes := file.body.length }

/-- The files that are entries, in the order in which they were put in place. -/
def Disk.entryFiles (disk : Disk) : List File :=
  disk.files.rows.filter fun file => file.IsEntry uuids

/-- What `DiskQueue::entries` lists if no file escapes it. -/
def Disk.entries (disk : Disk) : List Entry :=
  ((disk.entryFiles uuids).map (File.entry uuids)).insertionSort Entry.before

/-- The entries that are not too old. -/
def Disk.young (disk : Disk) (limits : QueueLimits) (now : SystemTime) : List Entry :=
  (disk.entries uuids).filter fun entry => ¬ limits.maxAge < entry.age now

/-! ### The history -/

/-- The file was accepted by the callback, and since then the process has neither died nor
failed to remove it. -/
def Settled (file : File) : List Event → Prop
  | [] => False
  | .crashed :: _ => False
  | .stuck other :: older => other ≠ file ∧ Settled file older
  | .offered other .accepted :: older => other = file ∨ Settled file older
  | _ :: older => Settled file older

/-- There is room for `size` more bytes beside the entries `found`. -/
def QueueLimits.Room (limits : QueueLimits) (size : ℕ) (found : List Entry) : Prop :=
  found.length < limits.maxEntries ∧ (found.map Entry.bytes).sum + size ≤ limits.maxBytes

/-- What the history shows for the removal of a file: what came just before it, the age of
the entry, or that there was no room and that nothing older was there. -/
def Grounds (file : File) (among : List File) (older : List Event) : Why → Prop
  | .acknowledged => older.head? = some (.offered file .accepted)
  | .rejected => older.head? = some (.offered file (.failed .payloadRejected))
  | .unreadable => older.head? = some (.unreadable file)
  | .expired maxAge now => file.IsEntry uuids ∧ maxAge < (file.entry uuids).age now
  | .evicted limits size =>
    let found := among.filter fun file => file.IsEntry uuids
    ¬ limits.Room size (found.map (File.entry uuids)) ∧ ∀ other ∈ found, file.stamp ≤ other.stamp
  | .abandoned => ¬ file.IsEntry uuids

/-- Every removal has its grounds. -/
def Warranted : List Event → Prop
  | [] => True
  | .removed file why among :: older => Grounds uuids file among older why ∧ Warranted older
  | _ :: older => Warranted older

/-- Nothing is offered that is settled. -/
def Unsettled : List Event → Prop
  | [] => True
  | .offered file _ :: older => ¬ Settled file older ∧ Unsettled older
  | _ :: older => Unsettled older

/-- The stamp of a file that is offered. -/
def Event.offer : Event → Option ℕ
  | .offered file _ => some file.stamp
  | _ => none

/-- The stamp of a file that is put in place. -/
def Event.write : Event → Option ℕ
  | .written file => some file.stamp
  | _ => none

/-- The stamps of what was offered, the latest first. -/
def offers (history : List Event) : List ℕ := history.filterMap Event.offer

/-- The stamps of what was put in place, the latest first. -/
def writes (history : List Event) : List ℕ := history.filterMap Event.write

/-- One event comes before another. -/
def Precedes (first second : Event) (history : List Event) : Prop :=
  ∃ newer between older, history = newer ++ second :: (between ++ first :: older)

/-- What the process counts when an event happens. -/
def QueueCounters.after (counters : QueueCounters) : Event → QueueCounters
  | .removed file (.evicted _ _) _ =>
    { counters with droppedForSpace := counters.droppedForSpace + 1 }.noteDropped
      (file.entry uuids).queuedAt
  | .removed file (.expired _ _) _ =>
    { counters with expired := counters.expired + 1 }.noteDropped (file.entry uuids).queuedAt
  | .removed _ .rejected _ => { counters with rejected := counters.rejected + 1 }
  | .removed _ .unreadable _ => { counters with unreadable := counters.unreadable + 1 }
  | _ => counters

/-- What was counted since the queue was opened. -/
def tally : List Event → QueueCounters
  | [] => {}
  | .opened :: _ => {}
  | event :: older => (tally older).after uuids event

/-! ### Invariants -/

/-- What holds of the disk whenever a process may die. -/
structure Disk.Sound (disk : Disk) : Prop where
  numbered : ∀ file, .written file ∈ disk.history → file.stamp < disk.written
  filed : (writes disk.history).Pairwise (· > ·)
  ordered : (disk.entryFiles uuids).Pairwise fun file other =>
    file.stamp < other.stamp ∧ (file.entry uuids).sequence < (other.entry uuids).sequence
  placed : ∀ file ∈ disk.entryFiles uuids,
    .written file ∈ disk.history ∧ (file.entry uuids).sequence ≤ file.stamp
  offered : ∀ file outcome, .offered file outcome ∈ disk.history → .written file ∈ disk.history
  warranted : Warranted uuids disk.history
  unsettled : Unsettled disk.history

/-- What an operation has done since `start`. -/
structure Course (start disk : Disk) (new : List Event) : Prop where
  sound : disk.Sound uuids
  grown : disk.history = new ++ start.history
  kept : ∀ file ∈ start.entryFiles uuids,
    file ∈ disk.entryFiles uuids ∨ ∃ why among, .removed file why among ∈ new
  offers : (offers new).Pairwise (· > ·)
  raised : disk.written ≤ start.written + 1

/-- No entry of the disk is settled: this holds between the operations. -/
def Disk.Clear (disk : Disk) : Prop :=
  ∀ file ∈ disk.entryFiles uuids, ¬ Settled file disk.history

variable {uuids} {start disk disk' : Disk} {new : List Event} {file : File}

/-! ### Entries and files -/

theorem Disk.mem_entryFiles :
    file ∈ disk.entryFiles uuids ↔ file ∈ disk.files ∧ file.IsEntry uuids := by
  rw [entryFiles, List.mem_filter, decide_eq_true_eq]
  rfl

namespace Disk.Sound

variable (sound : disk.Sound uuids)
include sound

/-- The files stand in the order of their names. -/
theorem entries_eq : disk.entries uuids = (disk.entryFiles uuids).map (File.entry uuids) :=
  Pairwise.insertionSort_eq (pairwise_map.2 (sound.ordered.imp fun order => .inl order.2))

theorem nodup : (disk.entryFiles uuids).Nodup := by
  refine sound.ordered.imp ?_
  rintro _ _ ⟨less, _⟩ rfl
  exact lt_irrefl _ less

theorem sequence_lt (stored : file ∈ disk.entryFiles uuids) :
    (file.entry uuids).sequence < disk.written :=
  (sound.placed file stored).2.trans_lt (sound.numbered file (sound.placed file stored).1)

end Disk.Sound

/-! ### Events -/

variable {history : List Event}

theorem Event.offer_eq_some {event : Event} {stamp : ℕ} :
    event.offer = some stamp ↔
      ∃ file outcome, event = .offered file outcome ∧ file.stamp = stamp := by
  cases event <;> simp [Event.offer]

theorem mem_writes {stamp : ℕ} :
    stamp ∈ writes history ↔ ∃ file, .written file ∈ history ∧ file.stamp = stamp := by
  rw [writes, mem_filterMap]
  constructor
  · rintro ⟨event, member, is⟩
    cases event with
    | written file => exact ⟨file, member, Option.some.inj is⟩
    | opened | crashed | unreadable | offered | removed | stuck => cases is
  rintro ⟨file, member, rfl⟩
  exact ⟨_, member, rfl⟩

theorem offered_of_settled (settled : Settled file history) :
    .offered file .accepted ∈ history := by
  induction history with
  | nil => cases settled
  | cons event _ ih =>
    cases event with
    | crashed => cases settled
    | stuck => exact mem_cons_of_mem _ (ih settled.2)
    | offered _ outcome =>
      cases outcome with
      | accepted =>
        rcases settled with rfl | before
        · exact mem_cons_self
        · exact mem_cons_of_mem _ (ih before)
      | failed => exact mem_cons_of_mem _ (ih settled)
    | opened | written | unreadable | removed => exact mem_cons_of_mem _ (ih settled)

theorem Disk.Sound.not_settled (sound : disk.Sound uuids) (stamp : disk.written ≤ file.stamp) :
    ¬ Settled file disk.history := by
  intro settled
  have := sound.numbered file (sound.offered file _ (offered_of_settled settled))
  omega

/-- Files go and an event is noted that puts nothing in place. -/
theorem Disk.Sound.grow {event : Event} (sound : disk.Sound uuids)
    (silent : ∀ file, event ≠ .written file)
    (sub : (disk'.entryFiles uuids).Sublist (disk.entryFiles uuids))
    (history : disk'.history = event :: disk.history) (written : disk'.written = disk.written)
    (warranted : Warranted uuids (event :: disk.history))
    (unsettled : Unsettled (event :: disk.history))
    (known : ∀ file outcome, event = .offered file outcome → .written file ∈ disk.history) :
    disk'.Sound uuids where
  numbered := by
    rw [history, written]
    intro file member
    rcases mem_cons.1 member with same | older
    · exact absurd same.symm (silent file)
    exact sound.numbered file older
  filed := by
    rw [history]
    cases event with
    | written file => exact absurd rfl (silent file)
    | removed | opened | crashed | unreadable | offered | stuck => exact sound.filed
  ordered := sound.ordered.sublist sub
  placed := by
    rw [history]
    intro file stored
    obtain ⟨here, bounded⟩ := sound.placed file (sub.subset stored)
    exact ⟨mem_cons_of_mem _ here, bounded⟩
  offered := by
    rw [history]
    intro file outcome member
    rcases mem_cons.1 member with same | older
    · exact mem_cons_of_mem _ (known file outcome same.symm)
    · exact mem_cons_of_mem _ (sound.offered file outcome older)
  warranted := history ▸ warranted
  unsettled := history ▸ unsettled

/-- The disk without a file. -/
def Disk.without (disk : Disk) (file : File) (why : Why) : Disk :=
  { disk with files := disk.files.erase file.name }.note (.removed file why disk.files.rows)

theorem Disk.entryFiles_without {why : Why} (stored : file ∈ disk.files) :
    (disk.without file why).entryFiles uuids = (disk.entryFiles uuids).filter (· ≠ file) := by
  show (disk.files.rows.filter _).filter _ = (disk.files.rows.filter _).filter _
  rw [filter_filter, filter_filter]
  refine filter_congr fun other member => ?_
  have same : other.name ≠ file.name ↔ other ≠ file :=
    not_congr ⟨fun name => eq_of_key_eq member stored name, fun is => is ▸ rfl⟩
  rw [Bool.and_comm]
  simp only [same]

theorem Disk.mem_entryFiles_without {why : Why} {other : File} (stored : file ∈ disk.files) :
    other ∈ (disk.without file why).entryFiles uuids ↔
      other ∈ disk.entryFiles uuids ∧ other ≠ file := by
  rw [entryFiles_without stored, List.mem_filter, decide_eq_true_eq]

namespace Course

theorem refl (sound : disk.Sound uuids) : Course uuids disk disk [] where
  sound := sound
  grown := rfl
  kept := fun _ stored => .inl stored
  offers := List.Pairwise.nil
  raised := Nat.le_succ _

variable (course : Course uuids start disk new)
include course

theorem same (files : disk'.entryFiles uuids = disk.entryFiles uuids)
    (history : disk'.history = disk.history) (written : disk'.written = disk.written) :
    Course uuids start disk' new := by
  obtain ⟨⟨_, _, _, _, _, _, _⟩, _, _, _, _⟩ := course
  constructor
  · constructor <;> simpa only [files, history, written]
  all_goals simpa only [files, history, written]

theorem note {event : Event} (silent : ∀ file, event ≠ .written file)
    (warranted : Warranted uuids (event :: disk.history))
    (unsettled : Unsettled (event :: disk.history))
    (known : ∀ file outcome, event = .offered file outcome → .written file ∈ disk.history)
    (ordered : (Queue.offers (event :: new)).Pairwise (· > ·)) :
    Course uuids start (disk.note event) (event :: new) where
  sound := course.sound.grow silent (Sublist.refl _) rfl rfl warranted unsettled known
  grown := congrArg (event :: ·) course.grown
  kept := fun file stored => (course.kept file stored).imp_right
    fun ⟨why, among, gone⟩ => ⟨why, among, mem_cons_of_mem _ gone⟩
  offers := ordered
  raised := course.raised

theorem unreadable (file : File) :
    Course uuids start (disk.note (.unreadable file)) (.unreadable file :: new) :=
  course.note (nofun) course.sound.warranted course.sound.unsettled
    (nofun) course.offers

theorem stuck (file : File) : Course uuids start (disk.note (.stuck file)) (.stuck file :: new) :=
  course.note (nofun) course.sound.warranted course.sound.unsettled
    (nofun) course.offers

theorem offer (outcome : Outcome)
    (stored : file ∈ disk.entryFiles uuids) (open_ : ¬ Settled file disk.history)
    (later : ∀ stamp ∈ Queue.offers new, stamp < file.stamp) :
    Course uuids start (disk.note (.offered file outcome)) (.offered file outcome :: new) := by
  refine course.note (nofun) course.sound.warranted
    ⟨open_, course.sound.unsettled⟩ ?_ (pairwise_cons.2 ⟨later, course.offers⟩)
  intro _ _ same
  cases same
  exact (course.sound.placed file stored).1

theorem without {why : Why} (stored : file ∈ disk.files)
    (grounds : Grounds uuids file disk.files.rows disk.history why) :
    Course uuids start (disk.without file why) (.removed file why disk.files.rows :: new) where
  sound := by
    refine course.sound.grow (fun _ same => (by cases same)) ?_ rfl rfl
      ⟨grounds, course.sound.warranted⟩ course.sound.unsettled (fun _ _ same => (by cases same))
    rw [entryFiles_without stored]
    exact filter_sublist
  grown := congrArg (_ :: ·) course.grown
  kept := by
    intro other there
    rcases course.kept other there with here | ⟨why', among, gone⟩
    · by_cases same : other = file
      · exact .inr ⟨why, disk.files.rows, same ▸ mem_cons_self⟩
      · exact .inl ((mem_entryFiles_without stored).2 ⟨here, same⟩)
    · exact .inr ⟨why', among, mem_cons_of_mem _ gone⟩
  offers := course.offers
  raised := course.raised

theorem write (first : disk.written = start.written) (stamp : file.stamp = disk.written)
    (behind : ∀ other ∈ disk.entryFiles uuids,
      (other.entry uuids).sequence < (file.entry uuids).sequence)
    (bounded : (file.entry uuids).sequence ≤ disk.written)
    (files : disk'.entryFiles uuids = disk.entryFiles uuids ++ [file])
    (history : disk'.history = .written file :: disk.history)
    (written : disk'.written = disk.written + 1) :
    Course uuids start disk' (.written file :: new) := by
  obtain ⟨numbered, filed, ordered, placed, offered, warranted, unsettled⟩ := course.sound
  refine ⟨⟨?_, ?_, ?_, ?_, ?_, history ▸ warranted, history ▸ unsettled⟩, ?_, ?_, course.offers,
    by omega⟩
  · intro other member
    rw [history] at member
    rcases mem_cons.1 member with same | older
    · cases same
      omega
    have := numbered other older
    omega
  · rw [history]
    refine pairwise_cons.2 ⟨fun _ member => ?_, filed⟩
    obtain ⟨other, older, rfl⟩ := mem_writes.1 member
    rw [stamp]
    exact numbered other older
  · rw [files]
    refine pairwise_append.2 ⟨ordered, pairwise_singleton _ _, fun other stored last here => ?_⟩
    rw [mem_singleton.1 here, stamp]
    exact ⟨numbered other (placed other stored).1, behind other stored⟩
  · intro other stored
    rw [files, mem_append, mem_singleton] at stored
    rw [history]
    rcases stored with old | rfl
    · exact ⟨mem_cons_of_mem _ (placed other old).1, (placed other old).2⟩
    · exact ⟨mem_cons_self, stamp ▸ bounded⟩
  · intro other outcome member
    rw [history] at member ⊢
    rcases mem_cons.1 member with same | older
    · cases same
    exact mem_cons_of_mem _ (offered other outcome older)
  · rw [history, course.grown, cons_append]
  intro other stored
  rcases course.kept other stored with here | ⟨why, among, gone⟩
  · rw [files]
    exact .inl (mem_append_left _ here)
  · exact .inr ⟨why, among, mem_cons_of_mem _ gone⟩

omit course

end Course

/-! ### Reading the history -/

variable {newer : List Event} {older : List Event}

/-- Stamps that fall towards the older events rise in the order of the events. -/
theorem lt_of_precedes {stamp : Event → Option ℕ} {first second : Event} {a b : ℕ}
    (ordered : (history.filterMap stamp).Pairwise (· > ·)) (is : stamp first = some a)
    (is' : stamp second = some b) (precedes : Precedes first second history) : a < b := by
  obtain ⟨_, _, _, rfl⟩ := precedes
  rw [filterMap_append, filterMap_cons_some is'] at ordered
  refine (pairwise_cons.1 (pairwise_append.1 ordered).2.1).1 a ?_
  exact mem_filterMap.2 ⟨first, mem_append_right _ mem_cons_self, is⟩

theorem precedes_of_stamp_lt {other : File} (ordered : (writes history).Pairwise (· > ·))
    (written : .written file ∈ history) (written' : .written other ∈ history)
    (less : file.stamp < other.stamp) : Precedes (.written file) (.written other) history := by
  obtain ⟨newer, _, rfl⟩ := append_of_mem written'
  rw [writes, filterMap_append] at ordered
  rcases mem_append.1 written with late | early
  · have above := (pairwise_append.1 ordered).2.2 file.stamp
      (mem_writes.2 ⟨file, late, rfl⟩) other.stamp mem_cons_self
    omega
  rcases mem_cons.1 early with same | earlier
  · cases same
    omega
  obtain ⟨between, oldest, rfl⟩ := append_of_mem earlier
  exact ⟨newer, between, oldest, rfl⟩

theorem Warranted.grounds {why : Why} {among : List File}
    (warranted : Warranted uuids (newer ++ .removed file why among :: older)) :
    Grounds uuids file among older why := by
  induction newer with
  | nil => exact warranted.1
  | cons event _ ih =>
    cases event with
    | removed => exact ih warranted.2
    | opened | crashed | written | unreadable | offered | stuck => exact ih warranted

theorem settled_of_quiet {between : List Event} (alive : .crashed ∉ between)
    (loose : .stuck file ∉ between) :
    Settled file (between ++ .offered file .accepted :: older) := by
  induction between with
  | nil => exact .inl rfl
  | cons event _ ih =>
    have settled := ih (fun mem => alive (mem_cons_of_mem _ mem))
      (fun mem => loose (mem_cons_of_mem _ mem))
    cases event with
    | crashed => exact absurd mem_cons_self alive
    | stuck =>
      refine ⟨?_, settled⟩
      rintro rfl
      exact loose mem_cons_self
    | offered _ outcome =>
      cases outcome with
      | accepted => exact .inr settled
      | failed => exact settled
    | opened | written | unreadable | removed => exact settled

theorem Unsettled.offered {outcome : Outcome}
    (unsettled : Unsettled (newer ++ .offered file outcome :: older)) :
    ¬ Settled file older := by
  induction newer with
  | nil => exact unsettled.1
  | cons event _ ih =>
    cases event with
    | offered => exact ih unsettled.2
    | removed | opened | crashed | written | unreadable | stuck => exact ih unsettled

end Renga.Agent.Queue
