import Renga.Reconciliation.Acts

/-!
# Reservations

Every lane carries two running totals, the units and the bytes its organization has
reserved.  `Effect.totals` shows that the totals stay the sums over the work that has not
succeeded, for any total that is kept in this way (`Measured`).  `Books.completed` compares
the books before and after a transaction and lists the work that has come to succeed; over a
run each work is listed at most once.
-/

namespace Renga.Reconciliation

open List KeyTable Option Books

variable {env : Env} {op : Op} {reply : Reply} {books books' : Books} {db : Db}

/-! ### Totals -/

def Work.charge (organizationId : Uuid) (amount : Work → ℤ) (work : Work) : ℤ :=
  if work.organizationId = organizationId ∧ work.status ≠ .succeeded then amount work else 0

def Books.total (books : Books) (organizationId : Uuid) (amount : Work → ℤ) : ℤ :=
  books.work.sum (Work.charge organizationId amount)

/-- A running total of a lane and what each work adds to it. -/
structure Measured (pending : Lane → ℤ) (amount : Work → ℤ) : Prop where
  empty : ∀ organizationId, pending { organizationId } = 0
  reserved : ∀ lane work, pending (Lane.reserved lane work) = pending lane + amount work
  turned : ∀ (lane : Lane) now, pending { lane with lastTurnAt := some now } = pending lane
  claimed : ∀ lane work token expiresAt now,
    pending (Lane.claimed lane work token expiresAt now) = pending lane
  released : ∀ (lane : Lane) (work : Work),
    pending (lane.released (work.debit Work.units) (work.debit Work.bytes))
      = pending lane - work.debit amount
  invalidated : ∀ lane, pending (Lane.released lane 0 0) = pending lane
  continues : ∀ old new, Work.Continues old new → amount new = amount old

theorem measured_units : Measured Lane.pendingUnits Work.units where
  empty := fun _ => rfl
  reserved := fun _ _ => rfl
  turned := fun _ _ => rfl
  claimed := fun _ _ _ _ _ => rfl
  released := fun _ _ => rfl
  invalidated := fun _ => by rw [Lane.released_zero]
  continues := fun _ _ continues => continues.units

theorem measured_bytes : Measured Lane.pendingBytes Work.bytes where
  empty := fun _ => rfl
  reserved := fun _ _ => rfl
  turned := fun _ _ => rfl
  claimed := fun _ _ _ _ _ => rfl
  released := fun _ _ => rfl
  invalidated := fun _ => by rw [Lane.released_zero]
  continues := fun _ _ continues => continues.bytes

variable {organizationId other : Uuid}

theorem Books.lanes_setLane {lane : Lane} :
    (books.setLane organizationId lane).lanes other
      = if other = organizationId then lane else books.lanes other :=
  Function.update_apply _ _ _ _

section Totals

variable {pending : Lane → ℤ} {amount : Work → ℤ} (measured : Measured pending amount)
include measured

variable {old new : Work}

theorem Work.charge_continues (continues : old.Continues new)
    (unfinished : old.status ≠ .succeeded) :
    old.charge organizationId amount = new.charge organizationId amount +
      if organizationId = old.organizationId then new.debit amount else 0 := by
  have same := measured.continues old new continues
  by_cases own : organizationId = old.organizationId
  · subst own
    rw [if_pos rfl, Work.charge, if_pos ⟨rfl, unfinished⟩, Work.charge, Work.debit,
      continues.organizationId]
    by_cases succeeded : new.status = .succeeded
    · simp [succeeded, same]
    simp [succeeded, same]
  have other : new.organizationId ≠ organizationId := fun h =>
    own (h ▸ continues.organizationId)
  have other' : old.organizationId ≠ organizationId := fun h => own h.symm
  rw [if_neg own, Work.charge, if_neg fun h => other' h.1, Work.charge,
    if_neg fun h => other h.1, add_zero]

theorem Books.total_put (found : books.work.get? old.id = some old)
    (continues : old.Continues new) (unfinished : old.status ≠ .succeeded) :
    (books.work.put new).sum (Work.charge organizationId amount)
      = books.total organizationId amount -
        if organizationId = old.organizationId then new.debit amount else 0 := by
  have key : books.work.get? new.id = some old := by
    rw [continues.id]
    exact found
  have moved := sum_put key (Work.charge organizationId amount)
  rw [Work.charge_continues measured continues unfinished] at moved
  unfold total
  omega

theorem Effect.totals (totals : ∀ o, pending (books.lanes o) = books.total o amount)
    (effect : Effect books op reply books') (organizationId : Uuid) :
    pending (books'.lanes organizationId) = books'.total organizationId amount := by
  have before := totals organizationId
  cases effect with
  | kept => exact before
  | @reserved work fresh _ status =>
    have added : (books.work.add work fresh).sum (Work.charge organizationId amount)
        = books.total organizationId amount + work.charge organizationId amount :=
      sum_add fresh
    show pending ((books.setLane _ _).lanes organizationId) = (books.work.add work fresh).sum _
    rw [added, lanes_setLane]
    by_cases own : organizationId = work.organizationId
    · subst own
      rw [if_pos rfl, measured.reserved, before, Work.charge, if_pos ⟨rfl, by simp [status]⟩]
    · rw [if_neg own, before, Work.charge, if_neg fun h => own h.1.symm, add_zero]
  | turned | claimed =>
    show pending ((books.setLane _ _).lanes organizationId) = books.total organizationId amount
    rw [lanes_setLane, ← before]
    split
    · rename_i own
      simp only [measured.turned, measured.claimed, own]
    · rfl
  | @settled _ _ _ work new _ checked _ continues =>
    have unfinished : work.status ≠ .succeeded := by simp [checked.pending]
    have found := checked.stored
    show pending ((books.setLane _ _).lanes organizationId) = (books.work.put new).sum _
    rw [total_put measured found continues unfinished, lanes_setLane,
      checked.organization, ← before]
    split
    · rename_i own
      rw [measured.released, own]
    · rw [sub_zero]
  | @retried _ new found unfinished status continues =>
    have none_ : new.debit amount = 0 := if_neg (by simp [status])
    show pending ((books.setLane _ _).lanes organizationId) = (books.work.put new).sum _
    rw [total_put measured found continues unfinished, lanes_setLane, none_, ← before,
      ite_self, sub_zero]
    split
    · rename_i own
      rw [measured.invalidated, own]
    · rfl

end Totals

/-! ### Positions -/

variable {work : Work}

theorem Work.Continues.refl : work.Continues work :=
  ⟨rfl, rfl, rfl, rfl, rfl, rfl⟩

/-- The same rows under the same positions, whatever else has changed. -/
structure Books.Carries (books books' : Books) : Prop where
  back : ∀ work' ∈ books'.work, ∃ work ∈ books.work, work.Continues work'
  forth : ∀ work ∈ books.work, ∃ work' ∈ books'.work, work.Continues work'
  position : ∀ o, (books'.lanes o).position = (books.lanes o).position

variable {lane : Lane}

theorem Books.carries_setLane (position : lane.position = (books.lanes organizationId).position) :
    books.Carries (books.setLane organizationId lane) where
  back := fun work stored => ⟨work, stored, .refl⟩
  forth := fun work stored => ⟨work, stored, .refl⟩
  position := by
    intro _
    rw [lanes_setLane]
    split
    · rename_i own
      rw [own, position]
    · rfl

variable {old new : Work}

theorem Books.carries_put (position : lane.position = (books.lanes organizationId).position)
    (found : books.work.get? old.id = some old) (continues : old.Continues new) :
    books.Carries { books.setLane organizationId lane with work := books.work.put new } where
  back := by
    intro work' stored
    rcases mem_put stored with rfl | ⟨kept, _⟩
    · exact ⟨old, mem_of_get? found, continues⟩
    · exact ⟨work', kept, .refl⟩
  forth := by
    intro work stored
    rcases mem_put_or_eq (mem_of_get? found) continues.id stored with kept | ⟨rfl, put⟩
    · exact ⟨work, kept, .refl⟩
    · exact ⟨new, put, continues⟩
  position := (carries_setLane position).position

theorem Effect.carries (effect : Effect books op reply books') :
    books.Carries books' ∨ ∃ (work : Work) (fresh : books.work.get? work.id = none),
      work.position = (books.lanes work.organizationId).position + 1 ∧
      work.status = .pending ∧ 0 < work.units ∧ 0 ≤ work.bytes ∧
      books'.work = books.work.add work fresh ∧
      ∀ o, (books'.lanes o).position
        = if o = work.organizationId then work.position else (books.lanes o).position := by
  cases effect with
  | kept =>
    exact .inl ⟨fun work stored => ⟨work, stored, .refl⟩,
      fun work stored => ⟨work, stored, .refl⟩, fun _ => rfl⟩
  | @reserved work fresh next status units bytes =>
    refine .inr ⟨work, fresh, next, status, units, bytes, rfl, fun o => ?_⟩
    show ((books.setLane _ _).lanes o).position = _
    rw [lanes_setLane]
    split <;> rfl
  | turned | claimed => exact .inl (carries_setLane rfl)
  | settled _ checked _ continues =>
    exact .inl (carries_put rfl checked.stored continues)
  | retried found _ _ continues => exact .inl (carries_put rfl found continues)

theorem Effect.position_le (effect : Effect books op reply books') (o : Uuid) :
    (books.lanes o).position ≤ (books'.lanes o).position := by
  rcases effect.carries with carries | ⟨_, _, _, _, _, _, _, position⟩
  · exact (carries.position o).ge
  rw [position]
  split
  · rename_i own
    rw [own]
    omega
  · exact le_refl _

/-- The rows of every organization are numbered from one to the position of its lane, and
each reserves something. -/
structure Books.Numbered (books : Books) : Prop where
  counted : ∀ o, 0 ≤ (books.lanes o).position
  within : ∀ work ∈ books.work,
    1 ≤ work.position ∧ work.position ≤ (books.lanes work.organizationId).position
  reached : ∀ o n, 1 ≤ n → n ≤ (books.lanes o).position →
    ∃ work ∈ books.work, work.organizationId = o ∧ work.position = n
  apart : ∀ work ∈ books.work, ∀ work' ∈ books.work,
    work.organizationId = work'.organizationId → work.position = work'.position → work = work'
  positive : ∀ work ∈ books.work, 0 < work.units ∧ 0 ≤ work.bytes

theorem Books.Numbered.carry (numbered : books.Numbered) (carries : books.Carries books') :
    books'.Numbered where
  counted := fun o => carries.position o ▸ numbered.counted o
  within := by
    intro work' stored
    obtain ⟨work, old, continues⟩ := carries.back work' stored
    rw [carries.position, continues.position, continues.organizationId]
    exact numbered.within work old
  reached := by
    intro o n positive below
    rw [carries.position] at below
    obtain ⟨work, stored, own, number⟩ := numbered.reached o n positive below
    obtain ⟨work', stored', continues⟩ := carries.forth work stored
    exact ⟨work', stored', continues.organizationId.trans own, continues.position.trans number⟩
  apart := by
    intro first stored second stored' own number
    obtain ⟨one, old, continues⟩ := carries.back first stored
    obtain ⟨two, old', continues'⟩ := carries.back second stored'
    rw [continues.organizationId, continues'.organizationId] at own
    rw [continues.position, continues'.position] at number
    have same := numbered.apart one old two old' own number
    refine eq_of_key_eq stored stored' ?_
    rw [continues.id, continues'.id, same]
  positive := by
    intro work' stored
    obtain ⟨work, old, continues⟩ := carries.back work' stored
    rw [continues.units, continues.bytes]
    exact numbered.positive work old

theorem Effect.numbered (numbered : books.Numbered) (effect : Effect books op reply books') :
    books'.Numbered := by
  rcases effect.carries with carries | ⟨new, fresh, _, _, units, bytes, work, position⟩
  · exact numbered.carry carries
  have either : ∀ row ∈ books'.work, row ∈ books.work ∨ row = new := by
    intro row stored
    rw [work] at stored
    exact (mem_add fresh).1 stored
  have grown := effect.position_le
  have last : (books'.lanes new.organizationId).position = new.position := by
    rw [position, if_pos rfl]
  have kept : ∀ row ∈ books.work, row ∈ books'.work := by
    intro row stored
    rw [work]
    exact (mem_add fresh).2 (.inl stored)
  have first := numbered.counted new.organizationId
  -- Only the new row is at the new position.
  have alone : ∀ row ∈ books.work, row.organizationId = new.organizationId →
      row.position ≠ new.position := by
    intro row stored own _
    have bound := (numbered.within row stored).2
    rw [own] at bound
    omega
  refine ⟨fun o => (numbered.counted o).trans (grown o), ?_, ?_, ?_, ?_⟩
  · intro row stored
    rcases either row stored with old | rfl
    · exact ⟨(numbered.within row old).1, (numbered.within row old).2.trans (grown _)⟩
    · exact ⟨by omega, last.ge⟩
  · intro o n positive below
    by_cases old : n ≤ (books.lanes o).position
    · obtain ⟨row, stored, facts⟩ := numbered.reached o n positive old
      exact ⟨row, kept row stored, facts⟩
    rw [position] at below
    split at below
    · rename_i own
      rw [own] at old
      refine ⟨new, ?_, own.symm, by omega⟩
      rw [work]
      exact (mem_add fresh).2 (.inr rfl)
    · exact absurd below old
  · intro one stored two stored' own number
    rcases either one stored with old | rfl
    · rcases either two stored' with old' | rfl
      · exact numbered.apart one old two old' own number
      · exact absurd number (alone one old own)
    rcases either two stored' with old' | rfl
    · exact absurd number.symm (alone two old' own.symm)
    rfl
  intro row stored
  rcases either row stored with old | rfl
  · exact numbered.positive row old
  · exact ⟨units, bytes⟩

/-! ### Completed work -/

def Books.statusOf (books : Books) (id : Uuid) : Option WorkStatus :=
  (books.work.get? id).map Work.status

def Books.completed (books books' : Books) : List Work :=
  books'.work.rows.filter fun work =>
    work.status = .succeeded ∧ books.statusOf work.id ≠ some .succeeded

def Books.inserted (books books' : Books) : List Work :=
  books'.work.rows.filter fun work => books.work.get? work.id = none

theorem Books.statusOf_of_mem (stored : work ∈ books.work) :
    books.statusOf work.id = some work.status := by
  rw [statusOf, get?_of_mem stored, map_some]

theorem Books.mem_completed_ids {id : Uuid} : id ∈ (books.completed books').map Work.id ↔
      books'.statusOf id = some .succeeded ∧ books.statusOf id ≠ some .succeeded := by
  simp only [List.mem_map, completed, List.mem_filter, decide_eq_true_eq]
  constructor
  · rintro ⟨work, ⟨stored, succeeded, new⟩, rfl⟩
    exact ⟨succeeded ▸ statusOf_of_mem stored, new⟩
  rintro ⟨succeeded, new⟩
  obtain ⟨work, found, status⟩ := map_eq_some_iff.1 succeeded
  have named : work.id = id := key_of_get? found
  exact ⟨work, ⟨mem_of_get? found, status, named ▸ new⟩, named⟩

theorem Books.completed_nodup : ((books.completed books').map Work.id).Nodup :=
  books'.work.nodup.sublist (filter_sublist.map Work.id)

theorem Books.completed_put (work : books'.work = books.work.put new)
    (found : books.work.get? old.id = some old) (continues : old.Continues new)
    (unfinished : old.status ≠ .succeeded) :
    books.completed books' = if new.status = .succeeded then [new] else [] := by
  rw [completed, work]
  have key : books.work.get? new.id = some old := continues.id ▸ found
  have before : books.statusOf new.id = some old.status := by
    rw [statusOf, key, map_some]
  have others : ∀ row ∈ books.work.put new, row ≠ new →
      ¬ (row.status = .succeeded ∧ books.statusOf row.id ≠ some .succeeded) := by
    intro row stored other
    rcases mem_put stored with same | ⟨kept, _⟩
    · exact absurd same other
    rw [statusOf_of_mem kept]
    simp
  split
  · rename_i succeeded
    refine filter_eq_singleton (mem_put_self key) fun row stored => ?_
    rw [decide_eq_true_eq]
    refine ⟨fun holds => ?_, fun same => ?_⟩
    · by_contra other
      exact others row stored other holds
    rw [same, before]
    exact ⟨succeeded, by simpa using unfinished⟩
  rename_i open_
  refine filter_eq_nil_iff.2 fun row stored => ?_
  rw [decide_eq_true_eq]
  by_cases same : row = new
  · rw [same]
    exact fun holds => open_ holds.1
  · exact others row stored same

theorem Books.completed_same (work : books'.work = books.work) : books.completed books' = [] := by
  rw [completed, work]
  refine filter_eq_nil_iff.2 fun _ stored => ?_
  rw [statusOf_of_mem stored]
  simp

theorem Books.completed_add (fresh : books.work.get? new.id = none)
    (work : books'.work = books.work.add new fresh) (pending : new.status = .pending) :
    books.completed books' = [] := by
  rw [completed, work]
  refine filter_eq_nil_iff.2 fun _ stored => ?_
  rcases (mem_add fresh).1 stored with old | rfl
  · rw [statusOf_of_mem old]
    simp
  · simp [pending]

theorem Books.inserted_same (work : books'.work = books.work) : books.inserted books' = [] := by
  rw [inserted, work]
  refine filter_eq_nil_iff.2 fun _ stored => ?_
  rw [get?_of_mem stored]
  simp

theorem Books.inserted_put (work : books'.work = books.work.put new)
    (found : books.work.get? old.id = some old) (continues : old.Continues new) :
    books.inserted books' = [] := by
  rw [inserted, work]
  have key : books.work.get? new.id = some old := continues.id ▸ found
  refine filter_eq_nil_iff.2 fun _ stored => ?_
  rcases mem_put stored with rfl | ⟨kept, _⟩
  · simp [key]
  rw [get?_of_mem kept]
  simp

theorem Books.inserted_add (fresh : books.work.get? new.id = none)
    (work : books'.work = books.work.add new fresh) : books.inserted books' = [new] := by
  rw [inserted, work]
  refine filter_eq_singleton ((mem_add fresh).2 (.inr rfl)) fun _ stored => ?_
  rw [decide_eq_true_eq]
  rcases (mem_add fresh).1 stored with old | rfl
  · rw [get?_of_mem old]
    refine ⟨nofun, fun same => ?_⟩
    subst same
    rw [get?_of_mem old] at fresh
    cases fresh
  · exact ⟨fun _ => rfl, fun _ => fresh⟩

def sumOf (organizationId : Uuid) (amount : Work → ℤ) (rows : List Work) : ℤ :=
  ((rows.filter fun work => work.organizationId = organizationId).map amount).sum

variable {amount : Work → ℤ}

theorem sumOf_nil :
    sumOf organizationId amount [] = 0 := rfl

theorem sumOf_singleton :
    sumOf organizationId amount [work]
      = if organizationId = work.organizationId then amount work else 0 := by
  unfold sumOf
  by_cases own : organizationId = work.organizationId
  · simp [own]
  simp [own, Ne.symm own]

variable {pending : Lane → ℤ} {amount : Work → ℤ}

theorem Books.moves_setLane (same : pending lane = pending (books.lanes other)) :
    pending ((books.setLane other lane).lanes organizationId) = pending (books.lanes organizationId)
        + sumOf organizationId amount (books.inserted (books.setLane other lane))
        - sumOf organizationId amount (books.completed (books.setLane other lane)) := by
  have inserted : books.inserted (books.setLane other lane) = [] := inserted_same rfl
  have completed : books.completed (books.setLane other lane) = [] := completed_same rfl
  rw [inserted, completed, sumOf_nil, add_zero, sub_zero, lanes_setLane]
  split
  · rename_i own
    rw [same, own]
  · rfl

theorem Effect.moves (measured : Measured pending amount) (effect : Effect books op reply books') :
    pending (books'.lanes organizationId) = pending (books.lanes organizationId)
      + sumOf organizationId amount (books.inserted books')
      - sumOf organizationId amount (books.completed books') := by
  cases effect with
  | kept =>
    rw [inserted_same rfl, completed_same rfl, sumOf_nil, add_zero, sub_zero]
  | @reserved _ fresh _ status =>
    rw [inserted_add fresh rfl, completed_add fresh rfl status, sumOf_nil,
      sumOf_singleton, sub_zero]
    show pending ((books.setLane _ _).lanes organizationId) = _
    rw [lanes_setLane]
    split
    · rename_i own
      rw [measured.reserved, own]
    · rw [add_zero]
  | turned => exact moves_setLane (measured.turned _ _)
  | claimed => exact moves_setLane (measured.claimed _ _ _ _ _)
  | @settled claim _ _ work new _ checked _ continues =>
    have unfinished : work.status ≠ .succeeded := by simp [checked.pending]
    have found := checked.stored
    have back : sumOf organizationId amount (if new.status = .succeeded then [new] else [])
        = if organizationId = claim.organizationId then new.debit amount else 0 := by
      rw [Work.debit, ← checked.organization, ← continues.organizationId]
      split
      · rw [sumOf_singleton]
      · rw [sumOf_nil, ite_self]
    rw [inserted_put rfl found continues, completed_put rfl found continues unfinished,
      sumOf_nil, add_zero, back]
    show pending ((books.setLane _ _).lanes organizationId) = _
    rw [lanes_setLane]
    split
    · rename_i own
      rw [measured.released, own]
    · rw [sub_zero]
  | @retried _ _ found unfinished status continues =>
    rw [inserted_put rfl found continues, completed_put rfl found continues unfinished,
      if_neg (by simp [status]), sumOf_nil, add_zero, sub_zero]
    show pending ((books.setLane _ _).lanes organizationId) = _
    rw [lanes_setLane]
    split
    · rename_i own
      rw [measured.invalidated, own]
    · rfl

theorem Effect.succeeded_stays (effect : Effect books op reply books') {id : Uuid}
    (succeeded : books.statusOf id = some .succeeded) :
    books'.statusOf id = some .succeeded := by
  have put : ∀ {old new : Work}, books.work.get? old.id = some old → old.Continues new →
      old.status ≠ .succeeded → books'.work = books.work.put new →
      books'.statusOf id = some .succeeded := by
    intro _ new found continues unfinished work
    have other : id ≠ new.id := by
      rintro rfl
      rw [statusOf, continues.id, found, map_some] at succeeded
      exact unfinished (some.inj succeeded)
    rw [statusOf, work, get?_put_of_ne books.work other]
    exact succeeded
  cases effect with
  | kept => exact succeeded
  | @reserved work fresh =>
    show ((books.work.add work fresh).get? id).map Work.status = _
    rw [get?_add, if_neg]
    · exact succeeded
    rintro rfl
    rw [statusOf, fresh] at succeeded
    cases succeeded
  | turned | claimed => exact succeeded
  | settled _ checked _ continues =>
    exact put checked.stored continues (by simp [checked.pending]) rfl
  | retried found unfinished _ continues => exact put found continues unfinished rfl

/-! ### Runs -/

def completions (env : Env) (ops : List Op) : List Work :=
  Run.outputs (step env) (fun db op => db.books.completed (step env db op).books) {} ops

/-- The list names the work that has succeeded, each once. -/
structure Books.Lists (books : Books) (done : List Work) : Prop where
  nodup : (done.map Work.id).Nodup
  listed : ∀ id, id ∈ done.map Work.id ↔ books.statusOf id = some .succeeded

theorem Books.Lists.extend {done : List Work} (lists : books.Lists done)
    (stays : ∀ id, books.statusOf id = some .succeeded → books'.statusOf id = some .succeeded) :
    books'.Lists (done ++ books.completed books') where
  nodup := by
    rw [map_append, nodup_append]
    refine ⟨lists.nodup, completed_nodup, ?_⟩
    rintro id old _ new rfl
    exact (mem_completed_ids.1 new).2 ((lists.listed id).1 old)
  listed := by
    intro id
    rw [map_append, mem_append, lists.listed, mem_completed_ids]
    constructor
    · rintro (old | new)
      · exact stays id old
      · exact new.1
    intro succeeded
    by_cases old : books.statusOf id = some .succeeded
    · exact .inl old
    · exact .inr ⟨succeeded, old⟩

theorem run_lists {ops : List Op} : (run env {} ops).books.Lists (completions env ops) := by
  refine (Run.outputs_invariant (P := fun (db : Db) done => db.Evident ∧ db.books.Lists done)
    (fun _ _ op kept => ⟨step_evident env op kept.1, ?_⟩) ⟨evident_empty, ?_⟩ ops).2
  · refine kept.2.extend fun id succeeded => ?_
    exact step_books (P := fun books => books.statusOf id = some .succeeded) op
      (fun holds effect => effect.succeeded_stays holds) kept.1 succeeded
  · exact ⟨nodup_nil, fun _ => ⟨nofun, nofun⟩⟩

theorem run_numbered (env : Env) (ops : List Op) : (run env {} ops).books.Numbered := by
  refine run_books (fun numbered effect => effect.numbered numbered) ?_ ops
  have nothing : ∀ work : Work, work ∉ ({} : Db).books.work := not_mem_empty
  exact ⟨fun _ => le_refl 0, fun work stored => absurd stored (nothing work),
    fun _ _ positive below => absurd (show (1 : ℤ) ≤ 0 from positive.trans below) (by decide),
    fun work stored => absurd stored (nothing work),
    fun work stored => absurd stored (nothing work)⟩

theorem run_totals (measured : Measured pending amount) (env : Env) (ops : List Op)
    (organizationId : Uuid) :
    pending ((run env {} ops).books.lanes organizationId)
      = (run env {} ops).books.total organizationId amount := by
  refine run_books (P := fun books => ∀ o, pending (books.lanes o) = books.total o amount)
    (fun totals effect => effect.totals measured totals) (fun o => ?_) ops organizationId
  exact measured.empty o

theorem Books.total_nonneg (nonneg : ∀ work ∈ books.work, 0 ≤ amount work) :
    0 ≤ books.total organizationId amount := by
  refine sum_nonneg fun _ member => ?_
  obtain ⟨work, stored, rfl⟩ := mem_map.1 member
  rw [Work.charge]
  split
  · exact nonneg work stored
  · exact le_refl 0

theorem step_moves (measured : Measured pending amount) (evident : db.Evident) :
    pending ((step env db op).books.lanes organizationId) = pending (db.books.lanes organizationId)
        + sumOf organizationId amount (db.books.inserted (step env db op).books)
        - sumOf organizationId amount (db.books.completed (step env db op).books) := by
  rcases step_act env op evident with ⟨same, _⟩ | ⟨_, _, act⟩
  · rw [same, inserted_same rfl, completed_same rfl, sumOf_nil, add_zero, sub_zero]
  · exact act.effect.moves measured

/-- Whatever is admitted, claimed, executed, failed, retried and left to expire, in any
order: the totals of a lane are the sums of units and bytes over the organization's work
that has not succeeded, and are not negative.  A transaction moves them by what it admits
and what it completes; each work is completed at most once, and the work that was completed
is the work that has succeeded.  The position of the lane is the greatest one admitted. -/
theorem run_balances_reservations (env : Env) (ops : List Op) :
    let db := run env {} ops
    (∀ lane ∈ db.lanes, lane.pendingUnits = db.books.total lane.organizationId Work.units ∧
      lane.pendingBytes = db.books.total lane.organizationId Work.bytes ∧
      0 ≤ lane.pendingUnits ∧ 0 ≤ lane.pendingBytes ∧
      (∀ work ∈ db.work, work.organizationId = lane.organizationId →
        work.position ≤ lane.position) ∧
      (lane.position = 0 ∨ ∃ work ∈ db.work, work.organizationId = lane.organizationId ∧
        work.position = lane.position)) ∧
    (∀ work ∈ db.work, ∃ lane ∈ db.lanes, lane.organizationId = work.organizationId) ∧
    (∀ op organizationId, let db' := step env db op
      (db'.laneOf organizationId).pendingUnits = (db.laneOf organizationId).pendingUnits
        + sumOf organizationId Work.units (db.books.inserted db'.books)
        - sumOf organizationId Work.units (db.books.completed db'.books) ∧
      (db'.laneOf organizationId).pendingBytes = (db.laneOf organizationId).pendingBytes
        + sumOf organizationId Work.bytes (db.books.inserted db'.books)
        - sumOf organizationId Work.bytes (db.books.completed db'.books)) ∧
    ((completions env ops).map Work.id).Nodup ∧
    (∀ work ∈ db.work, work.id ∈ (completions env ops).map Work.id ↔ work.status = .succeeded) := by
  intro db
  have numbered : db.books.Numbered := run_numbered env ops
  have lists : db.books.Lists (completions env ops) := run_lists
  have evident : db.Evident := run_evident env ops
  refine ⟨?_, ?_, ?_, lists.nodup, ?_⟩
  · intro lane stored
    have same : db.books.lanes lane.organizationId = lane :=
      Db.laneOf_of_get? (get?_of_mem stored)
    have units := run_totals measured_units env ops lane.organizationId
    have bytes := run_totals measured_bytes env ops lane.organizationId
    rw [same] at units bytes
    refine ⟨units, bytes, ?_, ?_, ?_, ?_⟩
    · rw [units]
      exact total_nonneg (fun work stored => (numbered.positive work stored).1.le)
    · rw [bytes]
      exact total_nonneg (fun work stored => (numbered.positive work stored).2)
    · intro work stored own
      have bound := (numbered.within work stored).2
      rwa [own, same] at bound
    by_cases none_ : lane.position = 0
    · exact .inl none_
    have counted := numbered.counted lane.organizationId
    rw [same] at counted
    refine .inr (numbered.reached lane.organizationId lane.position (by omega) ?_)
    rw [same]
  · intro work stored
    cases found : db.lanes.get? work.organizationId with
    | some lane => exact ⟨lane, mem_of_get? found, key_of_get? found⟩
    | none =>
      -- A lane that is not there has given out no position.
      have bounds := numbered.within work stored
      have empty :
          db.books.lanes work.organizationId = { organizationId := work.organizationId } := by
        show db.laneOf work.organizationId = _
        rw [Db.laneOf, found, getD_none]
      rw [empty] at bounds
      exact absurd (show (1 : ℤ) ≤ 0 from bounds.1.trans bounds.2) (by decide)
  · intro _ _
    exact ⟨step_moves measured_units evident,
      step_moves measured_bytes evident⟩
  intro work stored
  have status := statusOf_of_mem (show work ∈ db.books.work from stored)
  rw [lists.listed, status]
  simp

end Renga.Reconciliation
