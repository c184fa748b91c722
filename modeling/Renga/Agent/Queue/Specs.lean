import Renga.Agent.Queue.History

/-!
# What each operation of a queue does

One rule for every function of `Operations`, for a disk on which `symlink_metadata` of an entry
succeeds (`Disk.seen`).  The condition that a crash finds is that the disk is on its course
(`OnCourse`); between the operations, and after an error, the process has counted what it dropped
and no entry is settled (`Rest`).
-/

namespace Renga.Agent.Queue

open List KeyTable Method

variable {uuids : Uuids} {start disk : Disk} {new : List Event} {queue : DiskQueue}

/-- The answers of a disk of which every entry is seen. -/
def Disk.seen (disk : Disk) (call : Call) (decision : Decision) : Disk × call.Answer :=
  disk.answer call { decision with unseen := false }

/-- What a crash finds in an operation that began at `start`. -/
def OnCourse (uuids : Uuids) (start disk : Disk) : Prop := ∃ new, Course uuids start disk new

/-- The method keeps to the course from `start`, and what it leaves behind meets `Q`. -/
abbrev Keeps (uuids : Uuids) (start : Disk) {α : Type}
    (Q : Except QueueError α → DiskQueue → Disk → Prop) (method : Io α) (queue : DiskQueue)
    (disk : Disk) : Prop :=
  Method.Holds Disk.seen (OnCourse uuids start) Q method queue disk

/-- How the process stands between two operations. -/
structure Rest (uuids : Uuids) (queue : DiskQueue) (disk : Disk) : Prop where
  counted : queue.counters = tally uuids disk.history
  clear : disk.Clear uuids
  bounded : queue.nextSequence ≤ disk.written

/-! ### Listing -/

theorem listed_holds {rows : List File} (stored : ∀ file ∈ rows, file ∈ disk.files) :
    (listed uuids (rows.map File.name)).Holds Disk.seen (· = disk)
      (fun found _ => found
        = (rows.filter fun file => file.IsEntry uuids).map (File.entry uuids)) disk := by
  induction rows with
  | nil => rfl
  | cons file _ ih =>
    have rest := ih fun other member => stored other (mem_cons_of_mem _ member)
    rw [map_cons, listed]
    cases parsed : parseEntryName uuids file.name with
    | none =>
      rw [filter_cons, if_neg (by simp [File.IsEntry, parsed])]
      exact rest
    | some name =>
      have found : disk.files.get? file.name = some file :=
        get?_of_mem (stored file mem_cons_self)
      have entry : file.entry uuids
          = { path := file.name, sequence := name.1, queuedAt := name.2
              bytes := file.body.length } := by
        rw [File.entry, File.label, parsed]
        rfl
      rw [filter_cons, if_pos (by simp [File.IsEntry, parsed]), map_cons, entry]
      intro decision
      have answered : disk.seen (.metadata file.name) decision
          = (disk, (disk.files.get? file.name).map (·.body.length)) := rfl
      rw [answered, found]
      refine ⟨rfl, ?_⟩
      refine rest.bind rfl fun _ _ _ listed => ?_
      subst listed
      rfl

theorem entries_holds (disk : Disk) : (entries uuids).Holds Disk.seen (· = disk)
      (fun result _ => ∀ found, result = .ok found → found = disk.entries uuids) disk := by
  intro decision
  have answered : disk.seen .readDir decision
      = (disk, if decision.fails then none else some (disk.files.rows.map File.name)) := rfl
  rw [answered]
  refine ⟨rfl, ?_⟩
  cases decision.fails with
  | true =>
    intro found same
    cases same
  | false =>
    refine (listed_holds fun _ member => member).bind rfl fun _ _ _ listed => ?_
    intro _ same
    cases same
    rw [listed]
    rfl

variable {I : Disk → Prop} {Q : Except QueueError PUnit → DiskQueue → Disk → Prop}

theorem publishHealth_holds (inside : I disk)
    (post : ∀ monitor, Q (.ok ⟨⟩) { queue with monitor } disk) :
    Method.Holds Disk.seen I Q (publishHealth uuids) queue disk := by
  refine holds_liftM_bind (((entries_holds disk).still inside).mono inside ?_) inside
  rintro found _ _ ⟨rfl, _⟩
  cases found with
  | ok => exact post _
  | error => exact post queue.monitor

/-! ### Dropping -/

variable {file : File} {why : Why}

theorem remove_holds {Q : Except QueueError Bool → Disk → Prop} (stored : file ∈ disk.files)
    (gone : I (disk.without file why)) (stuck : I (disk.note (.stuck file)))
    (done : Q (.ok true) (disk.without file why))
    (fails : Q (.error (.io "remove queued entry")) (disk.note (.stuck file))) :
    (remove file.name why).Holds Disk.seen I Q disk := by
  intro decision
  have answered : disk.seen (.unlink file.name why) decision
      = disk.unlink file.name why decision.fails := rfl
  rw [answered, Disk.unlink, get?_of_mem stored]
  cases decision.fails with
  | true => exact ⟨stuck, fails⟩
  | false => exact ⟨gone, done⟩

variable {count : QueueCounters → QueueCounters}

/-- Before an entry is dropped, it alone may be settled. -/
theorem dropEntry_holds {Q : Except QueueError Bool → DiskQueue → Disk → Prop}
    (course : Course uuids start disk new) (stored : file ∈ disk.entryFiles uuids)
    (grounds : Grounds uuids file disk.files.rows disk.history why) (counts : count queue.counters
      = queue.counters.after uuids (.removed file why disk.files.rows))
    (counted : queue.counters = tally uuids disk.history)
    (bounded : queue.nextSequence ≤ disk.written)
    (clear : ∀ other ∈ disk.entryFiles uuids, other ≠ file → ¬ Settled other disk.history)
    (done : ∀ queue',
      Course uuids start (disk.without file why) (.removed file why disk.files.rows :: new) →
      Rest uuids queue' (disk.without file why) → Q (.ok true) queue' (disk.without file why))
    (fails : ∀ e, Course uuids start (disk.note (.stuck file)) (.stuck file :: new) →
      Rest uuids queue (disk.note (.stuck file)) →
      Q (.error e) queue (disk.note (.stuck file))) :
    Keeps uuids start Q (dropEntry uuids file.name why count) queue disk := by
  have here := (Disk.mem_entryFiles.1 stored).1
  have gone := course.without here grounds
  have held := course.stuck file
  refine holds_lift_bind ?_ ⟨new, course⟩
  refine remove_holds here ⟨_, gone⟩ ⟨_, held⟩ ?_ ?_
  · refine holds_modify_bind ?_
    refine Method.Holds.bind (R := fun result queue' disk' => result = .ok ⟨⟩ ∧
        disk' = disk.without file why ∧ ∃ monitor, queue' =
          { queue with counters := count queue.counters, monitor := monitor })
      (publishHealth_holds ⟨_, gone⟩ fun monitor => ⟨rfl, rfl, monitor, rfl⟩) ⟨_, gone⟩ ?_ ?_
    · rintro _ queue' disk' _ ⟨_, rfl, _, rfl⟩
      refine done _ gone ⟨?_, ?_, bounded⟩
      · show count queue.counters = _
        rw [counts, counted]
        rfl
      intro other member settled
      obtain ⟨there, apart⟩ := (Disk.mem_entryFiles_without here).1 member
      exact clear other there apart settled
    rintro _ _ _ _ ⟨same, _⟩
    cases same
  refine fails _ held ⟨?_, ?_, bounded⟩
  · rw [counted]
    rfl
  rintro other member ⟨apart, settled⟩
  exact clear other member (Ne.symm apart) settled

/-- What a part of an operation leaves behind that has offered nothing and put nothing in
place. -/
structure Kept (uuids : Uuids) (start disk : Disk) (stamps : List ℕ) (queue' : DiskQueue)
    (disk' : Disk) : Prop where
  course : ∃ new, Course uuids start disk' new ∧ offers new = stamps
  rest : Rest uuids queue' disk'
  written : disk'.written = disk.written

variable {disk' : Disk} {queue' : DiskQueue} {disk'' : Disk} {stamps : List ℕ}

theorem Kept.trans {queue'' : DiskQueue} (first : Kept uuids start disk stamps queue' disk')
    (second : Kept uuids start disk' stamps queue'' disk'') :
    Kept uuids start disk stamps queue'' disk'' :=
  ⟨second.course, second.rest, second.written.trans first.written⟩

variable {now : SystemTime} {files : List File} {limits : QueueLimits} {size : ℕ}

/-- Without the first of some entries, the others are still there. -/
theorem Disk.Sound.sublist_without (sound : disk.Sound uuids)
    (sub : (file :: files).Sublist (disk.entryFiles uuids)) :
    files.Sublist ((disk.without file why).entryFiles uuids) := by
  have stored := (Disk.mem_entryFiles.1 (sub.subset mem_cons_self)).1
  have apart : files.filter (· ≠ file) = files := by
    refine filter_eq_self.2 fun other member => decide_eq_true ?_
    rintro rfl
    exact (nodup_cons.1 (sound.nodup.sublist sub)).1 member
  rw [Disk.entryFiles_without stored, ← apart]
  exact ((sublist_cons_self file files).trans sub).filter _

/-- What is `left` of the entries without the shortest front whose removal makes room. -/
def Evicts (limits : QueueLimits) (size : ℕ) (found left : List Entry) : Prop :=
  ∃ evicted, found = evicted ++ left ∧ (left = [] ∨ limits.Room size left) ∧
    ∀ k < evicted.length, ¬ limits.Room size (found.drop k)

section

variable (course : Course uuids start disk new) (rest : Rest uuids queue disk)
include course rest

theorem Kept.refl : Kept uuids start disk (offers new) queue disk := ⟨⟨new, course, rfl⟩, rest, rfl⟩

theorem dropEntry_keeps (stored : file ∈ disk.entryFiles uuids)
    (grounds : Grounds uuids file disk.files.rows disk.history why) (counts : count queue.counters
      = queue.counters.after uuids (.removed file why disk.files.rows)) :
    Keeps uuids start
      (fun result queue' disk' => Kept uuids start disk (offers new) queue' disk' ∧
        ∀ removed, result = .ok removed → disk' = disk.without file why)
      (dropEntry uuids file.name why count) queue disk := by
  refine dropEntry_holds course stored grounds counts rest.counted rest.bounded
    (fun other here _ => rest.clear other here) ?_ ?_
  · exact fun _ course' rest' => ⟨⟨⟨_, course', rfl⟩, rest', rfl⟩, fun _ _ => rfl⟩
  · exact fun _ course' rest' => ⟨⟨⟨_, course', rfl⟩, rest', rfl⟩, nofun⟩

theorem expireEach_holds {maxAge : Duration} (sub : files.Sublist (disk.entryFiles uuids))
    (old : ∀ file ∈ files, maxAge < (file.entry uuids).age now) :
    Keeps uuids start
      (fun result queue' disk' => Kept uuids start disk (offers new) queue' disk' ∧
        (result = .ok ⟨⟩ → disk'.entryFiles uuids = (disk.entryFiles uuids).filter (· ∉ files)))
      (expireEach uuids maxAge now (files.map (File.entry uuids))) queue disk := by
  induction files generalizing queue disk new with
  | nil =>
    refine holds_pure ⟨.refl course rest, fun _ => ?_⟩
    simp
  | cons file files ih =>
    have stored := sub.subset mem_cons_self
    obtain ⟨here, entry⟩ := Disk.mem_entryFiles.1 stored
    obtain ⟨age, old⟩ := forall_mem_cons.1 old
    rw [map_cons, expireEach]
    refine Method.Holds.bind (dropEntry_keeps course rest stored ⟨entry, age⟩ rfl) ⟨new, course⟩
      ?_ ?_
    · rintro removed queue' disk' _ ⟨kept, done⟩
      cases done removed rfl
      obtain ⟨new', course', same⟩ := kept.course
      refine (ih course' kept.rest (course.sound.sublist_without sub) old).mono ⟨new', course'⟩ ?_
      rintro _ _ _ _ ⟨kept', all⟩
      rw [same] at kept'
      refine ⟨kept.trans kept', fun ok => ?_⟩
      rw [all ok, Disk.entryFiles_without here, filter_filter]
      refine filter_congr fun _ _ => ?_
      simp [Bool.and_comm]
    rintro _ _ _ _ ⟨kept, _⟩
    refine ⟨kept, fun same => ?_⟩
    cases same

theorem expire_holds : Keeps uuids start
      (fun result queue' disk' => Kept uuids start disk (offers new) queue' disk' ∧
        ∀ found, result = .ok found → found = (disk'.entryFiles uuids).map (File.entry uuids) ∧
          found = disk.young uuids queue.limits now)
      (expire uuids (disk.entries uuids) now) queue disk := by
  refine holds_get_bind ?_
  rw [course.sound.entries_eq]
  dsimp only
  rw [filter_map]
  refine Method.Holds.bind (expireEach_holds course rest filter_sublist fun file member => ?_)
    ⟨new, course⟩ ?_ ?_
  · simpa using (mem_filter.1 member).2
  · rintro _ queue' disk' _ ⟨kept, all⟩
    refine holds_pure ⟨kept, fun found same => ?_⟩
    cases same
    refine ⟨?_, by rw [Disk.young, course.sound.entries_eq]⟩
    rw [all rfl, filter_map]
    congr 1
    refine filter_congr fun file stored => ?_
    simp [stored]
  rintro _ _ _ _ ⟨kept, _⟩
  exact ⟨kept, nofun⟩

theorem makeRoom_holds (all : disk.entryFiles uuids = files) :
    Keeps uuids start
      (fun result queue' disk' => Kept uuids start disk (offers new) queue' disk' ∧
        (result = .ok ⟨⟩ → Evicts limits size (files.map (File.entry uuids))
          ((disk'.entryFiles uuids).map (File.entry uuids))))
      (makeRoom uuids limits size (files.map (File.entry uuids))
        (files.map (File.entry uuids)).length ((files.map (File.entry uuids)).map Entry.bytes).sum)
      queue disk := by
  induction files generalizing queue disk new with
  | nil =>
    refine holds_pure
      ⟨.refl course rest, fun _ => ⟨[], by rw [all]; rfl, .inl (by rw [all]; rfl), ?_⟩⟩
    simp
  | cons oldest files ih =>
    rw [map_cons, makeRoom]
    split
    · rename_i room
      refine holds_pure ⟨.refl course rest, fun _ => ⟨[], ?_, .inr ?_, by simp⟩⟩
      · rw [all]
        rfl
      · rw [all]
        exact room
    rename_i full
    have stored : oldest ∈ disk.entryFiles uuids := all ▸ mem_cons_self
    have here := (Disk.mem_entryFiles.1 stored).1
    have ordered := course.sound.ordered
    rw [all] at ordered
    have grounds : Grounds uuids oldest disk.files.rows disk.history (.evicted limits size) := by
      show ¬ limits.Room size ((disk.entryFiles uuids).map _) ∧ ∀ other ∈ disk.entryFiles uuids, _
      rw [all]
      refine ⟨full, fun other member => ?_⟩
      rcases mem_cons.1 member with rfl | later
      · exact le_refl _
      · exact ((pairwise_cons.1 ordered).1 other later).1.le
    refine Method.Holds.bind (dropEntry_keeps course rest stored grounds rfl) ⟨new, course⟩ ?_ ?_
    · rintro removed queue' disk' _ ⟨kept, done⟩
      cases done removed rfl
      obtain ⟨new', course', same⟩ := kept.course
      have left : (disk.without oldest (.evicted limits size)).entryFiles uuids = files := by
        have nodup := course.sound.nodup
        rw [all] at nodup
        rw [Disk.entryFiles_without here, all, filter_cons, if_neg (by simp), filter_eq_self]
        intro other member
        refine decide_eq_true ?_
        rintro rfl
        exact (nodup_cons.1 nodup).1 member
      have bytes : ((oldest.entry uuids :: files.map (File.entry uuids)).map Entry.bytes).sum
          - (oldest.entry uuids).bytes = ((files.map (File.entry uuids)).map Entry.bytes).sum := by
        rw [map_cons, sum_cons]
        omega
      rw [length_cons, Nat.add_sub_cancel, bytes]
      refine (ih course' kept.rest left).mono ⟨new', course'⟩ ?_
      rintro _ _ _ _ ⟨kept', fewer⟩
      rw [same] at kept'
      refine ⟨kept.trans kept', fun ok => ?_⟩
      obtain ⟨evicted, rest', room, least⟩ := fewer ok
      refine ⟨oldest.entry uuids :: evicted, congrArg (_ :: ·) rest', room, fun k short => ?_⟩
      cases k with
      | zero => exact full
      | succ k => exact least k (Nat.lt_of_succ_lt_succ short)
    rintro _ _ _ _ ⟨kept, _⟩
    exact ⟨kept, nofun⟩

end

/-! ### Writing -/

variable {call : Code Bool} {error : QueueError}

theorem attempt_holds (holds : call.Holds Disk.seen I (fun ok disk' =>
      (ok = true → Q (.ok ⟨⟩) queue disk') ∧ (ok = false → Q (.error error) queue disk')) disk)
    (inside : I disk) : Method.Holds Disk.seen I Q (attempt call error) queue disk := by
  refine holds_liftM_bind (holds.mono inside ?_) inside
  rintro ok _ _ ⟨passes, fails⟩
  cases ok with
  | true => exact passes rfl
  | false => exact fails rfl

theorem sync_holds (still : call.Holds Disk.seen (· = disk) (fun _ _ => True) disk)
    (inside : I disk) :
    Method.Holds Disk.seen I (fun _ queue' disk' => queue' = queue ∧ disk' = disk)
      (attempt call error) queue disk := by
  refine attempt_holds ((still.still inside).mono inside ?_) inside
  rintro _ _ _ ⟨rfl, _⟩
  exact ⟨fun _ => ⟨rfl, rfl⟩, fun _ => ⟨rfl, rfl⟩⟩

theorem result_bind_holds {α β : Type} {x : Io α} {f : Except QueueError α → Io β}
    {R : Except QueueError α → DiskQueue → Disk → Prop}
    {Q : Except QueueError β → DiskQueue → Disk → Prop}
    (holds : Method.Holds Disk.seen I R x queue disk) (inside : I disk)
    (rest : ∀ result queue' disk', I disk' → R result queue' disk' →
      Method.Holds Disk.seen I Q (f result) queue' disk') :
    Method.Holds Disk.seen I Q (result x >>= f) queue disk := by
  refine Method.Holds.bind (R := fun value queue' disk' => ∃ result, value = .ok result ∧
      R result queue' disk')
    (holds_result (holds.mono inside fun result _ _ _ post => ⟨result, rfl, post⟩) inside) inside
    ?_ ?_
  · rintro value queue' disk' inside' ⟨_, same, post⟩
    cases same
    exact rest _ _ _ inside' post
  rintro _ _ _ _ ⟨_, same, _⟩
  cases same

/-- Two disks with the same entries and the same history. -/
structure Disk.Alike (uuids : Uuids) (disk disk' : Disk) : Prop where
  files : disk'.entryFiles uuids = disk.entryFiles uuids
  history : disk'.history = disk.history
  written : disk'.written = disk.written

namespace Disk.Alike

theorem course (alike : disk.Alike uuids disk') (course : Course uuids start disk new) :
    Course uuids start disk' new :=
  course.same alike.files alike.history alike.written

theorem rest (alike : disk.Alike uuids disk') (rest : Rest uuids queue disk) :
    Rest uuids queue disk' := by
  refine ⟨alike.history ▸ rest.counted, ?_, alike.written ▸ rest.bounded⟩
  unfold Disk.Clear
  rw [alike.files, alike.history]
  exact rest.clear

theorem trans (first : disk.Alike uuids disk') (second : disk'.Alike uuids disk'') :
    disk.Alike uuids disk'' :=
  ⟨second.files.trans first.files, second.history.trans first.history,
    second.written.trans first.written⟩

end Disk.Alike

/-- The disk after a temporary file was renamed to `file`. -/
def Disk.renamed (disk : Disk) (temporary : String) (file : File) : Disk :=
  { disk with
    files := (disk.files.erase temporary).place file
    written := disk.written + 1 }.note (.written file)

section

variable {name : String} {body : List UInt8} (other : parseEntryName uuids name = none)
include other

theorem File.not_isEntry (named : file.name = name) : ¬ file.IsEntry uuids := by
  rw [File.IsEntry, named, other]
  simp

theorem Disk.entryFiles_erase (disk : Disk) :
    (disk.files.erase name).rows.filter (fun file => file.IsEntry uuids)
      = disk.entryFiles uuids := by
  show (disk.files.rows.filter _).filter _ = disk.files.rows.filter _
  rw [filter_filter]
  refine filter_congr fun file _ => ?_
  by_cases named : file.name = name
  · simp [File.not_isEntry other named]
  · simp [named]

theorem Disk.create_alike {fails : Bool} : disk.Alike uuids (disk.create name fails).1 := by
  unfold Disk.create
  split
  · exact ⟨rfl, rfl, rfl⟩
  refine ⟨?_, rfl, rfl⟩
  show ((disk.files.erase name).rows ++ [_]).filter _ = _
  rw [filter_append, Disk.entryFiles_erase other]
  simp [File.not_isEntry other]

theorem Disk.write_alike {fails : Bool} {kept : ℕ} :
    disk.Alike uuids (disk.write name body fails kept).1 := by
  refine ⟨?_, rfl, rfl⟩
  show (disk.files.rows.map _).filter _ = disk.files.rows.filter _
  induction disk.files.rows with
  | nil => rfl
  | cons file _ ih =>
    rw [map_cons, filter_cons, filter_cons, ih]
    by_cases named : file.name = name
    · simp [named, File.not_isEntry other]
    · simp [named]

theorem Disk.discard_alike : disk.Alike uuids { disk with files := disk.files.erase name } :=
  ⟨Disk.entryFiles_erase other disk, rfl, rfl⟩

theorem Disk.entryFiles_place (entry : file.IsEntry uuids)
    (unused : ∀ old ∈ disk.entryFiles uuids, old.name ≠ file.name) :
    (disk.renamed name file).entryFiles uuids = disk.entryFiles uuids ++ [file] := by
  show (((disk.files.erase name).rows.filter _) ++ [file]).filter _ = _
  rw [filter_append, filter_comm, Disk.entryFiles_erase other,
    filter_eq_self.2 fun old stored => decide_eq_true (unused old stored)]
  simp [entry]

end

/-- What `write_atomically` leaves behind: the entries as they were, or with the new one
behind them. -/
structure Wrote (uuids : Uuids) (start : Disk) (stamps : List ℕ) (files : List File) (file : File)
    (result : Except QueueError PUnit) (queue' : DiskQueue) (disk' : Disk) : Prop where
  course : ∃ new, Course uuids start disk' new ∧ offers new = stamps
  rest : Rest uuids queue' disk'
  placed : result = .ok ⟨⟩ → disk'.entryFiles uuids = files ++ [file]

theorem Wrote.fails {e : QueueError} (alike : disk.Alike uuids disk')
    (course : Course uuids start disk new) (rest : Rest uuids queue disk) :
    Wrote uuids start (offers new) files file (.error e) queue disk' :=
  ⟨⟨new, alike.course course, rfl⟩, alike.rest rest, nofun⟩

/-- A step before the rename: the entries stay, and on success the temporary file is `text`. -/
def Staged (uuids : Uuids) (queue : DiskQueue) (disk : Disk) (temporary : String)
    (text : List UInt8) (result : Except QueueError PUnit) (queue' : DiskQueue) (disk' : Disk) :
    Prop :=
  queue' = queue ∧ disk.Alike uuids disk' ∧
    (result = .ok ⟨⟩ → disk'.files.get? temporary = some { name := temporary, body := text })

/-- The new entry stands behind all others. -/
structure Last (uuids : Uuids) (start disk : Disk) (file : File) : Prop where
  first : disk.written = start.written
  stamp : file.stamp = disk.written
  entry : file.IsEntry uuids
  behind : ∀ old ∈ disk.entryFiles uuids,
    (old.entry uuids).sequence < (file.entry uuids).sequence
  bounded : (file.entry uuids).sequence ≤ disk.written

theorem Last.alike (last : Last uuids start disk file)
    (alike : disk.Alike uuids disk') : Last uuids start disk' file where
  first := alike.written.trans last.first
  stamp := last.stamp.trans alike.written.symm
  entry := last.entry
  behind := alike.files ▸ last.behind
  bounded := alike.written ▸ last.bounded

section Writing

variable {temporary path : String} {body : List UInt8}
  (other : parseEntryName uuids temporary = none)
include other

theorem create_holds (course : Course uuids start disk new) :
    Keeps uuids start (Staged uuids queue disk temporary [])
      (attempt (Fs.create temporary) (.io "create queued entry")) queue disk := by
  refine attempt_holds (fun decision => ?_) ⟨new, course⟩
  have alike : disk.Alike uuids (disk.create temporary decision.fails).1 :=
    Disk.create_alike other
  refine ⟨⟨new, alike.course course⟩, fun passed => ?_, fun _ => ?_⟩
  · refine ⟨rfl, alike, fun _ => ?_⟩
    show (disk.create temporary decision.fails).1.files.get? temporary = _
    change (disk.create temporary decision.fails).2 = true at passed
    unfold Disk.create at passed ⊢
    split at passed
    · cases passed
    rename_i free
    rw [if_neg free]
    exact get?_of_mem (mem_place.2 (Or.inr rfl))
  · exact ⟨rfl, alike, fun same => (by cases same)⟩

theorem write_holds {text : List UInt8} (course : Course uuids start disk new)
    (found : disk.files.get? temporary = some { name := temporary, body := text }) :
    Keeps uuids start (Staged uuids queue disk temporary body)
      (attempt (Fs.write temporary body) (.io "write queued entry")) queue disk := by
  refine attempt_holds (fun decision => ?_) ⟨new, course⟩
  have alike : disk.Alike uuids (disk.write temporary body decision.fails decision.kept).1 :=
    Disk.write_alike other
  refine ⟨⟨new, alike.course course⟩, fun passed => ?_, fun _ => ?_⟩
  · refine ⟨rfl, alike, fun _ => ?_⟩
    have whole : decision.fails = false := by
      change (!decision.fails) = true at passed
      simpa using passed
    show (disk.files.put _).get? temporary = _
    rw [if_neg (by simp [whole])]
    exact get?_put_self (r := ({ name := temporary, body } : File)) found
  · exact ⟨rfl, alike, nofun⟩

variable (last : Last uuids start disk { name := path, body, stamp := disk.written })
  (course : Course uuids start disk new) (rest : Rest uuids queue disk)
include last course rest

theorem rename_holds (found : disk.files.get? temporary = some { name := temporary, body }) :
    Keeps uuids start
      (Wrote uuids start (offers new) (disk.entryFiles uuids)
        { name := path, body, stamp := disk.written })
      (attempt (Fs.rename temporary path) (.io "persist queued entry")) queue disk := by
  refine attempt_holds (fun decision => ?_) ⟨new, course⟩
  have answered : disk.seen (.rename temporary path) decision
      = disk.rename temporary path decision.fails := rfl
  rw [answered, Disk.rename, found]
  cases decision.fails with
  | true =>
    exact ⟨⟨new, course⟩, nofun,
      fun _ => .fails ⟨rfl, rfl, rfl⟩ course rest⟩
  | false =>
    have unused : ∀ old ∈ disk.entryFiles uuids, old.name ≠ path := by
      intro old stored named
      have less := last.behind old stored
      unfold File.entry File.label at less
      rw [named] at less
      exact lt_irrefl _ less
    have files := Disk.entryFiles_place other last.entry unused
    have course' := course.write last.first rfl last.behind last.bounded files rfl rfl
    have rest' : Rest uuids queue (disk.renamed temporary ⟨path, body, disk.written⟩) := by
      refine ⟨rest.counted, ?_, rest.bounded.trans (Nat.le_succ _)⟩
      intro file stored settled
      rcases mem_append.1 (files ▸ stored) with old | new
      · exact rest.clear file old settled
      · exact course.sound.not_settled (mem_singleton.1 new ▸ le_refl _) settled
    exact ⟨⟨_, course'⟩, fun _ => ⟨⟨_, course', rfl⟩, rest', fun _ => files⟩,
      nofun⟩

theorem writeThrough_holds : Keeps uuids start
      (Wrote uuids start (offers new) (disk.entryFiles uuids)
        { name := path, body, stamp := disk.written })
      (writeThrough temporary path body) queue disk := by
  refine Method.Holds.bind (create_holds other course) ⟨new, course⟩ ?_ ?_
  · rintro _ queue₁ disk₁ inside₁ ⟨rfl, alike₁, created⟩
    refine Method.Holds.bind (write_holds other (alike₁.course course) (created rfl)) inside₁ ?_ ?_
    · rintro _ queue₂ disk₂ inside₂ ⟨rfl, alike₂, complete⟩
      have alike := alike₁.trans alike₂
      refine Method.Holds.bind (sync_holds (fun _ => ⟨rfl, trivial⟩) inside₂) inside₂ ?_ ?_
      · rintro _ queue₃ disk₃ inside₃ ⟨rfl, rfl⟩
        rw [← alike.written] at last ⊢
        rw [← alike.files]
        refine Method.Holds.bind (rename_holds other (last.alike alike) (alike.course course)
          (alike.rest rest) (complete rfl)) inside₃ ?_ fun _ _ _ _ wrote => wrote
        rintro _ queue₄ disk₄ inside₄ wrote
        refine Method.Holds.mono (sync_holds (fun _ => ⟨rfl, trivial⟩) inside₄) inside₄ ?_
        rintro _ _ _ _ ⟨rfl, rfl⟩
        exact ⟨wrote.course, wrote.rest, fun _ => wrote.placed rfl⟩
      rintro e _ _ _ ⟨rfl, rfl⟩
      exact .fails alike course rest
    rintro e _ _ _ ⟨rfl, alike₂, _⟩
    exact .fails (alike₁.trans alike₂) course rest
  rintro _ _ _ _ ⟨rfl, alike₁, _⟩
  exact .fails alike₁ course rest

theorem writeAtomically_holds : Keeps uuids start
      (Wrote uuids start (offers new) (disk.entryFiles uuids)
        { name := path, body, stamp := disk.written })
      (writeAtomically temporary path body) queue disk := by
  refine result_bind_holds (writeThrough_holds other last course rest) ⟨new, course⟩ ?_
  rintro result queue' disk' inside wrote
  cases result with
  | ok => exact wrote
  | error e =>
    -- The temporary file is no entry, so it does not matter whether it goes.
    obtain ⟨new', course', stamps⟩ := wrote.course
    refine holds_liftM_bind (fun decision => ?_) inside
    have alike : disk'.Alike uuids (disk'.seen (.discard temporary) decision).1 := by
      show disk'.Alike uuids (if decision.fails then _ else _)
      split
      · exact ⟨rfl, rfl, rfl⟩
      · exact Disk.discard_alike other
    exact ⟨⟨new', alike.course course'⟩, ⟨new', alike.course course', stamps⟩,
      alike.rest wrote.rest, nofun⟩

end Writing

/-! ### Enqueueing -/

theorem following_files (ordered : files.Pairwise fun file other =>
      file.stamp < other.stamp ∧ (file.entry uuids).sequence < (other.entry uuids).sequence)
    {bound : ℕ} (few : bound < 2 ^ 64)
    (small : ∀ file ∈ files, (file.entry uuids).sequence < bound) :
    following (files.map (File.entry uuids)) ≤ bound ∧ ∀ file ∈ files,
      (file.entry uuids).sequence < following (files.map (File.entry uuids)) := by
  rcases files.eq_nil_or_concat' with rfl | ⟨before, last, rfl⟩
  · exact ⟨Nat.zero_le _, forall_mem_nil _⟩
  have own := small last (mem_append_right _ mem_cons_self)
  have next : following ((before ++ [last]).map (File.entry uuids))
      = (last.entry uuids).sequence + 1 := by
    rw [following, map_append, map_singleton, getLast?_concat]
    exact Nat.mod_eq_of_lt (by omega)
  rw [next]
  refine ⟨own, fun file member => ?_⟩
  rcases mem_append.1 member with early | here
  · have order := ((pairwise_append.1 ordered).2.2 file early last mem_cons_self).2
    omega
  · rw [mem_singleton.1 here]
    omega

/-- What `enqueue` leaves behind; on success the body is in a file with a new stamp, behind
the entries that are `left`. -/
structure Enqueued (uuids : Uuids) (start : Disk) (body : List UInt8) (left : List Entry → Prop)
    (result : Except QueueError PUnit) (queue' : DiskQueue) (disk' : Disk) : Prop where
  course : OnCourse uuids start disk'
  rest : Rest uuids queue' disk'
  placed : result = .ok ⟨⟩ → ∃ files file, left (files.map (File.entry uuids)) ∧
    file.body = body ∧ file.stamp = start.written ∧ disk'.entryFiles uuids = files ++ [file]

variable {body : List UInt8} {left : List Entry → Prop}

theorem Enqueued.fails {e : QueueError} (kept : Kept uuids start disk stamps queue' disk') :
    Enqueued uuids start body left (.error e) queue' disk' := by
  obtain ⟨new, course, _⟩ := kept.course
  exact ⟨⟨new, course⟩, kept.rest, nofun⟩

theorem publishHealth_rest (inside : OnCourse uuids start disk) (rest : Rest uuids queue disk)
    (post : ∀ queue', Rest uuids queue' disk → Q (.ok ⟨⟩) queue' disk) :
    Keeps uuids start Q (publishHealth uuids) queue disk :=
  publishHealth_holds inside fun monitor =>
    post { queue with monitor } { rest with }

theorem writeEntry_holds {sequence : ℕ} {entryId temporaryId : Uuid}
    (few : start.written + 1 < 2 ^ 64) (fits : unixSeconds now < 10 ^ 12)
    (first : disk.written = start.written) (small : sequence ≤ disk.written)
    (behind : ∀ old ∈ disk.entryFiles uuids, (old.entry uuids).sequence < sequence)
    (course : Course uuids start disk new) (rest : Rest uuids queue disk)
    (room : left ((disk.entryFiles uuids).map (File.entry uuids))) :
    Keeps uuids start (Enqueued uuids start body left)
      (writeEntry uuids sequence entryId body now temporaryId) queue disk := by
  have parsed := parseEntryName_entryName uuids entryId (by omega : sequence < 2 ^ 64) fits
  have own : (File.entry uuids ⟨entryName uuids sequence now entryId, body, disk.written⟩).sequence
      = sequence := by
    show (File.label uuids _).1 = _
    rw [File.label, parsed]
    rfl
  have last : Last uuids start disk ⟨entryName uuids sequence now entryId, body, disk.written⟩ :=
    ⟨first, rfl, by simp [File.IsEntry, parsed],
      fun old stored => (behind old stored).trans_eq own.symm, own.trans_le small⟩
  refine result_bind_holds (writeAtomically_holds parseEntryName_temporaryName last course rest)
    ⟨new, course⟩ ?_
  rintro result queue' disk' inside wrote
  cases result with
  | ok =>
    have files := wrote.placed rfl
    obtain ⟨_, course', _⟩ := wrote.course
    have stored : ⟨entryName uuids sequence now entryId, body, disk.written⟩
        ∈ disk'.entryFiles uuids := by
      rw [files]
      exact mem_append_right _ mem_cons_self
    have less := course'.sound.sequence_lt stored
    rw [own] at less
    refine holds_modify_bind (publishHealth_rest inside ⟨wrote.rest.counted, wrote.rest.clear, ?_⟩
      fun queue'' rest'' => ⟨inside, rest'', fun _ => ⟨_, _, room, rfl, first, files⟩⟩)
    show (sequence + 1) % 2 ^ 64 ≤ _
    rw [Nat.mod_eq_of_lt (by omega)]
    exact less
  | error e =>
    refine Method.Holds.bind (R := fun result queue'' disk'' => result = .ok ⟨⟩ ∧
        disk'' = disk' ∧ Rest uuids queue'' disk')
      (publishHealth_rest inside wrote.rest fun _ rest'' => ⟨rfl, rfl, rest''⟩) inside ?_ ?_
    · rintro _ queue'' disk'' _ ⟨_, rfl, rest''⟩
      exact holds_throw ⟨inside, rest'', nofun⟩
    rintro e _ _ _ ⟨same, _⟩
    cases same

theorem enqueue_holds (entryId temporaryId : Uuid) (body : List UInt8)
    (few : disk.written + 1 < 2 ^ 64) (fits : unixSeconds now < 10 ^ 12)
    (sound : disk.Sound uuids) (rest : Rest uuids queue disk) :
    Keeps uuids disk (Enqueued uuids disk body
        (Evicts queue.limits body.length (disk.young uuids queue.limits now)))
      (enqueue uuids entryId body now temporaryId) queue disk := by
  have course : Course uuids disk disk [] := .refl sound
  have inside : OnCourse uuids disk disk := ⟨_, course⟩
  refine holds_get_bind ?_
  split
  · exact holds_throw (.fails (.refl course rest))
  refine holds_lift_bind (((entries_holds disk).still inside).mono inside ?_) inside
  rintro found disk₀ _ ⟨rfl, listed⟩
  cases found with
  | error => exact .fails (.refl course rest)
  | ok found =>
    cases listed found rfl
    refine Method.Holds.bind (expire_holds course rest) inside ?_ ?_
    · rintro found queue₁ disk₁ inside₁ ⟨kept₁, left⟩
      obtain ⟨rfl, young⟩ := left found rfl
      obtain ⟨_, course₁, stamps₁⟩ := kept₁.course
      obtain ⟨bounded, behind⟩ := following_files course₁.sound.ordered
        (by have := kept₁.written; omega) fun _ stored => course₁.sound.sequence_lt stored
      refine Method.Holds.bind (makeRoom_holds course₁ kept₁.rest rfl) inside₁ ?_ ?_
      · rintro _ queue₂ disk₂ _ ⟨kept₂, fewer⟩
        obtain ⟨_, course₂, stamps₂⟩ := kept₂.course
        have written : disk₂.written = disk₀.written := kept₂.written.trans kept₁.written
        have evicts := fewer rfl
        refine writeEntry_holds few fits written ?_ ?_ course₂ kept₂.rest (young ▸ evicts)
        · rw [written]
          exact max_le rest.bounded (kept₁.written ▸ bounded)
        intro old member
        obtain ⟨_, split, _⟩ := evicts
        have there : old.entry uuids ∈ (disk₁.entryFiles uuids).map (File.entry uuids) :=
          split ▸ mem_append_right _ (mem_map_of_mem member)
        obtain ⟨same, stored, is⟩ := mem_map.1 there
        exact (is ▸ behind same stored).trans_le (le_max_right _ _)
      · exact fun _ _ _ _ ⟨kept₂, _⟩ => .fails kept₂
    · exact fun _ _ _ _ ⟨kept₁, _⟩ => .fails kept₁

/-! ### Draining -/

/-- What the loop of `drain_at_most` needs to know of the entries that are left: they are
there, and behind all that was offered. -/
structure Ahead (uuids : Uuids) (disk : Disk) (new : List Event) (files : List File) : Prop where
  sub : files.Sublist (disk.entryFiles uuids)
  later : ∀ file ∈ files, ∀ stamp ∈ offers new, stamp < file.stamp

/-- What draining leaves behind. -/
def Drains (uuids : Uuids) (start : Disk) (queue : DiskQueue) (disk : Disk) : Prop :=
  OnCourse uuids start disk ∧ Rest uuids queue disk

theorem Ahead.without {new' : List Event} (ahead : Ahead uuids disk new (file :: files))
    (sound : disk.Sound uuids)
    (stamps : ∀ stamp ∈ offers new', stamp ∈ offers new ∨ stamp = file.stamp) :
    Ahead uuids (disk.without file why) new' files where
  sub := sound.sublist_without ahead.sub
  later := by
    intro other member stamp offered
    rcases stamps stamp offered with old | rfl
    · exact ahead.later other (mem_cons_of_mem _ member) stamp old
    · exact ((pairwise_cons.1 (sound.ordered.sublist ahead.sub)).1 other member).1

theorem drop_then_holds {before : List Event} {next : Bool → Io Drained}
    (course : Course uuids start disk new) (ahead : Ahead uuids disk before (file :: files))
    (stamps : ∀ stamp ∈ offers new, stamp ∈ offers before ∨ stamp = file.stamp)
    (grounds : Grounds uuids file disk.files.rows disk.history why) (counts : count queue.counters
      = queue.counters.after uuids (.removed file why disk.files.rows))
    (counted : queue.counters = tally uuids disk.history)
    (bounded : queue.nextSequence ≤ disk.written)
    (clear : ∀ other ∈ disk.entryFiles uuids, other ≠ file → ¬ Settled other disk.history)
    (rest : ∀ {queue' disk' new'}, Course uuids start disk' new' → Rest uuids queue' disk' →
      Ahead uuids disk' new' files → Keeps uuids start
        (fun _ => Drains uuids start) (next true) queue' disk') :
    Keeps uuids start (fun _ => Drains uuids start)
      (dropEntry uuids file.name why count >>= next) queue disk := by
  refine Method.Holds.bind (R := fun result queue' disk' => Drains uuids start queue' disk' ∧
      ∀ removed, result = .ok removed → removed = true ∧ Keeps uuids start
          (fun _ => Drains uuids start) (next true) queue' disk')
    (dropEntry_holds course (ahead.sub.subset mem_cons_self) grounds counts counted bounded clear
      ?_ ?_) ⟨new, course⟩ ?_ ?_
  · intro queue' course' rest'
    refine ⟨⟨⟨_, course'⟩, rest'⟩, fun removed same => ?_⟩
    cases same
    exact ⟨rfl, rest course' rest' (ahead.without course.sound stamps)⟩
  · exact fun _ course' rest' => ⟨⟨⟨_, course'⟩, rest'⟩, nofun⟩
  · rintro removed queue' disk' _ ⟨_, goes⟩
    obtain ⟨rfl, holds⟩ := goes removed rfl
    exact holds
  · exact fun _ _ _ _ ⟨drains, _⟩ => drains

theorem drainEach_holds {limit : ℕ} {offered : ℕ} {drained : Drained}
    (course : Course uuids start disk new) (rest : Rest uuids queue disk)
    (ahead : Ahead uuids disk new files) :
    Keeps uuids start (fun _ => Drains uuids start)
      (drainEach uuids limit (files.map (File.entry uuids)) offered drained) queue disk := by
  induction files generalizing queue disk new offered drained with
  | nil => exact holds_pure ⟨⟨new, course⟩, rest⟩
  | cons file _ ih =>
    have inside : OnCourse uuids start disk := ⟨new, course⟩
    have stored := ahead.sub.subset mem_cons_self
    have present : disk.files.get? file.name = some file :=
      get?_of_mem (Disk.mem_entryFiles.1 stored).1
    have path : (file.entry uuids).path = file.name := rfl
    rw [map_cons, drainEach, path]
    refine holds_liftM_bind (fun decision => ⟨inside, Prog.holds_ret ?_⟩) inside
    show Method.Holds _ _ _ (if decision.cancelled ∨ limit ≤ offered then _ else _) queue disk
    split
    · exact holds_pure ⟨inside, rest⟩
    refine holds_liftM_bind (fun decision => ?_) inside
    have answered : disk.seen (.read file.name) decision = disk.read file.name decision.fails := rfl
    rw [answered, Disk.read, present]
    cases decision.fails with
    | true =>
      have course' := course.unreadable file
      refine ⟨⟨_, course'⟩, Prog.holds_ret ?_⟩
      exact drop_then_holds course' ⟨ahead.sub, ahead.later⟩ (fun _ old => .inl old) rfl rfl
        rest.counted rest.bounded (fun other here _ => rest.clear other here)
        fun course rest ahead => ih course rest ahead
    | false =>
      refine ⟨inside, Prog.holds_ret ?_⟩
      refine holds_liftM_bind (fun decision => ?_) inside
      obtain ⟨_, _, outcome, _, _, _⟩ := decision
      have course' := course.offer outcome stored (rest.clear file stored)
        (ahead.later file mem_cons_self)
      refine ⟨⟨_, course'⟩, Prog.holds_ret ?_⟩
      have stamps : ∀ stamp ∈ file.stamp :: offers new,
          stamp ∈ offers new ∨ stamp = file.stamp := fun _ member => (mem_cons.1 member).symm
      cases outcome with
      | accepted =>
        refine drop_then_holds course' ⟨ahead.sub, ahead.later⟩ stamps rfl rfl rest.counted
          rest.bounded ?_ fun course rest ahead => ih course rest ahead
        intro other here apart settled
        rcases settled with same | settled
        · exact apart same.symm
        · exact rest.clear other here settled
      | failed kind =>
        cases kind with
        | payloadRejected =>
          exact drop_then_holds course' ⟨ahead.sub, ahead.later⟩ stamps rfl rfl rest.counted
            rest.bounded (fun other here _ => rest.clear other here)
            fun course rest ahead => ih course rest ahead
        | transient | permanent =>
          exact holds_pure ⟨⟨_, course'⟩, rest.counted, rest.clear, rest.bounded⟩

theorem drainAtMost_holds {limit : ℕ} (sound : disk.Sound uuids) (rest : Rest uuids queue disk) :
    Keeps uuids disk (fun _ => Drains uuids disk)
      (drainAtMost uuids now limit) queue disk := by
  have course : Course uuids disk disk [] := .refl sound
  have inside : OnCourse uuids disk disk := ⟨_, course⟩
  refine holds_lift_bind (((entries_holds disk).still inside).mono inside ?_) inside
  rintro found disk₀ _ ⟨rfl, listed⟩
  cases found with
  | error => exact ⟨inside, rest⟩
  | ok found =>
    cases listed found rfl
    refine Method.Holds.bind (expire_holds course rest) inside ?_ ?_
    · rintro found queue₁ disk₁ inside₁ ⟨kept, left⟩
      cases (left found rfl).1
      obtain ⟨new, course₁, stamps⟩ := kept.course
      have ahead : Ahead uuids disk₁ new (disk₁.entryFiles uuids) := by
        refine ⟨List.Sublist.refl _, fun _ _ _ member => ?_⟩
        rw [stamps] at member
        cases member
      refine Method.Holds.bind (drainEach_holds course₁ kept.rest ahead) inside₁ ?_ ?_
      · rintro _ queue₂ disk₂ inside₂ ⟨_, rest₂⟩
        refine Method.Holds.bind (R := fun _ queue₃ disk₃ => Drains uuids disk₀ queue₃ disk₃)
          (publishHealth_rest inside₂ rest₂ fun _ rest₃ => ⟨inside₂, rest₃⟩) inside₂ ?_ ?_
        · exact fun _ queue₃ disk₃ _ drains => holds_pure drains
        · exact fun _ _ _ _ drains => drains
      · exact fun _ _ _ _ drains => drains
    · exact fun _ _ _ inside₁ ⟨kept, _⟩ => ⟨inside₁, kept.rest⟩

/-! ### Opening -/

/-- What opening leaves behind: nothing is counted yet. -/
structure Opens (uuids : Uuids) (start : Disk) (counters : QueueCounters) (queue : DiskQueue)
    (disk : Disk) : Prop where
  course : OnCourse uuids start disk
  clear : disk.Clear uuids
  counters : queue.counters = counters
  bounded : queue.nextSequence ≤ disk.written

variable {name : String} {counters : QueueCounters} (opens : Opens uuids start counters queue disk)
include opens

theorem removeAbandoned_holds {Q : Except QueueError Bool → Disk → Prop}
    (temporary : temporaryPrefix <+: name.toList)
    (post : ∀ result disk', Opens uuids start counters queue disk' → Q result disk') :
    (remove name .abandoned).Holds Disk.seen (OnCourse uuids start) Q disk := by
  obtain ⟨_, course⟩ := opens.course
  cases found : disk.files.get? name with
  | none =>
    intro decision
    have answered : disk.seen (.unlink name .abandoned) decision = (disk, .notFound) := by
      show disk.unlink name .abandoned decision.fails = _
      rw [Disk.unlink, found]
      rfl
    rw [answered]
    exact ⟨opens.course, post _ _ opens⟩
  | some file =>
    obtain rfl : file.name = name := key_of_get? found
    have stored := mem_of_get? found
    have other : ¬ file.IsEntry uuids :=
      File.not_isEntry (parseEntryName_of_temporary uuids temporary) rfl
    have gone : Opens uuids start counters queue (disk.without file .abandoned) := by
      refine ⟨⟨_, course.without stored other⟩, ?_, opens.counters, opens.bounded⟩
      exact fun entry member settled =>
        opens.clear entry ((Disk.mem_entryFiles_without stored).1 member).1 settled
    have stuck : Opens uuids start counters queue (disk.note (.stuck file)) :=
      ⟨⟨_, course.stuck file⟩, fun entry member settled => opens.clear entry member settled.2,
        opens.counters, opens.bounded⟩
    exact remove_holds stored gone.course stuck.course (post _ _ gone) (post _ _ stuck)

theorem removeAbandonedEach_holds {names : List String} :
    Keeps uuids start (fun _ => Opens uuids start counters)
      (removeAbandonedEach now names) queue disk := by
  induction names generalizing disk queue with
  | nil => exact holds_pure opens
  | cons name _ ih =>
    have inside := opens.course
    rw [removeAbandonedEach]
    split
    · rename_i temporary
      refine holds_liftM_bind (fun decision => ⟨inside, Prog.holds_ret ?_⟩) inside
      have answered : (disk.seen (.modified name) decision).2 = decision.modified := rfl
      rw [answered]
      cases decision.modified with
      | none => exact ih opens
      | some =>
        show Method.Holds _ _ _ (if _ then _ else _) queue disk
        split
        · refine holds_lift_bind (removeAbandoned_holds opens temporary ?_) inside
          intro result _ opens'
          cases result with
          | ok => exact ih opens'
          | error => exact opens'
        · exact ih opens
    · exact ih opens

theorem removeAbandonedTemporaries_holds :
    Keeps uuids start (fun _ => Opens uuids start counters)
      (removeAbandonedTemporaries now) queue disk := by
  refine holds_liftM_bind (fun decision => ⟨opens.course, Prog.holds_ret ?_⟩) opens.course
  have answered : (disk.seen .readDir decision).2
      = if decision.fails then none else some (disk.files.rows.map File.name) := rfl
  rw [answered]
  cases decision.fails with
  | true => exact holds_throw opens
  | false => exact removeAbandonedEach_holds opens

theorem prepare_holds {stage : Stage} :
    Keeps uuids start (fun _ => Opens uuids start counters)
      (attempt (Fs.prepare stage) error) queue disk := by
  refine Method.Holds.mono (sync_holds (fun _ => ⟨rfl, trivial⟩) opens.course) opens.course ?_
  rintro _ _ _ _ ⟨rfl, rfl⟩
  exact opens

theorem prepareQueue_holds (few : start.written + 1 < 2 ^ 64) :
    Keeps uuids start (fun _ => Opens uuids start counters)
      (prepareQueue uuids now) queue disk := by
  refine holds_get_bind ?_
  refine (prepare_holds opens).bind opens.course ?_ fun _ _ _ _ opens => opens
  intro _ queue disk inside opens
  refine (prepare_holds opens).bind inside ?_ fun _ _ _ _ opens => opens
  intro _ queue disk inside opens
  refine (prepare_holds opens).bind inside ?_ fun _ _ _ _ opens => opens
  intro _ queue disk inside opens
  refine (prepare_holds opens).bind inside ?_ fun _ _ _ _ opens => opens
  intro _ queue disk inside opens
  refine (prepare_holds opens).bind inside ?_ fun _ _ _ _ opens => opens
  intro _ queue disk inside opens
  refine (removeAbandonedTemporaries_holds opens).bind inside ?_ fun _ _ _ _ opens => opens
  intro _ queue disk inside opens
  refine holds_lift_bind (((entries_holds disk).still inside).mono inside ?_) inside
  rintro found disk' _ ⟨rfl, listed⟩
  cases found with
  | error => exact opens
  | ok found =>
    obtain ⟨_, course⟩ := inside
    have raised := course.raised
    have next := (following_files course.sound.ordered (by omega : disk'.written < 2 ^ 64)
      fun _ stored => course.sound.sequence_lt stored).1
    rw [listed found rfl, course.sound.entries_eq]
    exact holds_modify_bind (publishHealth_holds opens.course fun _ =>
      ⟨opens.course, opens.clear, opens.counters, next⟩)

omit opens

end Renga.Agent.Queue
