import Renga.Reconciliation.Operations

/-!
# What a transaction does to lanes and work

Whatever a transaction checks on its way, it changes at most one lane and one work row.
`Effect` lists how, with what the transaction has found out before it commits.  It speaks of
the `Books` of a database, in which the lanes are a function of the organization, so that
locking a lane that is not there yet changes nothing.  `perform_act` is the one place that
goes through the operations.
-/

namespace Renga.Reconciliation

open List KeyTable Option Except Db

variable {env : Env} {op : Op} {db db' : Db}

/-! ### The books -/

structure Books where
  lanes : Uuid → Lane
  work : KeyTable Uuid Work Work.id

def Db.books (db : Db) : Books := ⟨db.laneOf, db.work⟩

/-- The work is the earliest of its organization that has not succeeded. -/
structure Books.Head (books : Books) (work : Work) : Prop where
  stored : work ∈ books.work
  unfinished : work.status ≠ .succeeded
  first : ∀ other ∈ books.work, other.organizationId = work.organizationId →
    other.status ≠ .succeeded → work.position ≤ other.position

/-- The claim is on the lane and the work row as they are, and has not expired. -/
structure Books.Owns (books : Books) (claim : Claim) (work : Work) (now : Time) : Prop where
  token : (books.lanes claim.organizationId).token = some claim.token
  version : (books.lanes claim.organizationId).version = claim.laneVersion
  workId : (books.lanes claim.organizationId).workId = some claim.workId
  unexpired : ∃ t, (books.lanes claim.organizationId).expiresAt = some t ∧ now < t
  found : books.work.get? claim.workId = some work
  organization : work.organizationId = claim.organizationId
  generation : work.generation = claim.generation
  checkpoint : work.checkpoint = claim.checkpoint
  status : work.status = claim.status
  pending : work.status = .pending

variable {claim : Claim} {work : Work} {now : Time}

theorem Books.Owns.stored {books : Books} (owns : books.Owns claim work now) :
    books.work.get? work.id = some work := by
  rw [key_of_get? owns.found]
  exact owns.found

/-- The operation acts under a claim; `checkedAt` and `releasedAt` are its readings of the
clock at the two checks. -/
inductive Op.Under (claim : Claim) (checkedAt releasedAt : Time) : Op → Prop
  | execute (operation : Organization → Observation → Outcome) :
      Op.Under claim checkedAt releasedAt (.execute claim operation checkedAt releasedAt)
  | fail (kind : FailKind) (error : Payload) (backoffMs : ℤ) (now : Time) :
      Op.Under claim checkedAt releasedAt
        (.fail claim kind error backoffMs checkedAt now releasedAt)

/-! ### Effects -/

def Lane.reserved (lane : Lane) (work : Work) : Lane :=
  { lane with
    position := work.position
    pendingUnits := lane.pendingUnits + work.units
    pendingBytes := lane.pendingBytes + work.bytes }

def Lane.claimOf (lane : Lane) (work : Work) (token : Uuid) : Claim :=
  { organizationId := work.organizationId
    workId := work.id
    token
    laneVersion := lane.version + 1
    generation := work.generation
    checkpoint := work.checkpoint
    status := work.status }

def Lane.claimed (lane : Lane) (work : Work) (token : Uuid) (expiresAt now : Time) : Lane :=
  { lane with
    token := some token
    workId := some work.id
    version := lane.version + 1
    expiresAt := some expiresAt
    lastTurnAt := some now }

def Lane.released (lane : Lane) (units bytes : ℤ) : Lane :=
  { lane with
    token := none
    workId := none
    expiresAt := none
    version := lane.version + 1
    pendingUnits := lane.pendingUnits - units
    pendingBytes := lane.pendingBytes - bytes }

theorem Lane.released_zero {lane : Lane} : lane.released 0 0 = { lane with
    token := none, workId := none, expiresAt := none, version := lane.version + 1 } := by
  rw [Lane.released, sub_zero, sub_zero]

structure Work.Continues (old new : Work) : Prop where
  id : new.id = old.id
  organizationId : new.organizationId = old.organizationId
  observationId : new.observationId = old.observationId
  position : new.position = old.position
  units : new.units = old.units
  bytes : new.bytes = old.bytes

def Work.debit (new : Work) (amount : Work → ℤ) : ℤ :=
  if new.status = .succeeded then amount new else 0

def Books.setLane (books : Books) (organizationId : Uuid) (lane : Lane) : Books :=
  { books with lanes := Function.update books.lanes organizationId lane }

def Reply.Unclaimed (reply : Reply) : Prop := ∀ claim, reply ≠ .claimed (.claim claim)

def Op.Unowned (op : Op) : Prop :=
  ∀ claim checkedAt releasedAt, ¬ op.Under claim checkedAt releasedAt

/-- The operation neither has a claim nor hands one out. -/
structure Plain (op : Op) (reply : Reply) : Prop where
  unclaimed : reply.Unclaimed
  unowned : op.Unowned

inductive Effect (books : Books) (op : Op) (reply : Reply) : Books → Prop
  | kept (plain : Plain op reply) : Effect books op reply books
  | reserved {work : Work} (fresh : books.work.get? work.id = none)
      (next : work.position = (books.lanes work.organizationId).position + 1)
      (pending : work.status = .pending) (units : 0 < work.units) (bytes : 0 ≤ work.bytes)
      (plain : Plain op reply) :
      Effect books op reply
        { books.setLane work.organizationId ((books.lanes work.organizationId).reserved work) with
          work := books.work.add work fresh }
  | turned (organizationId : Uuid) (now : Time) (plain : Plain op reply) :
      Effect books op reply (books.setLane organizationId
        { books.lanes organizationId with lastTurnAt := some now })
  | claimed {work : Work} {token : Uuid} {expiresAt now : Time} (head : books.Head work)
      (pending : work.status = .pending) (unowned : op.Unowned)
      (returned : reply = .claimed (.claim
        ((books.lanes work.organizationId).claimOf work token))) :
      Effect books op reply (books.setLane work.organizationId
        ((books.lanes work.organizationId).claimed work token expiresAt now))
  | settled {claim : Claim} {checkedAt releasedAt : Time} {work new : Work}
      (under : op.Under claim checkedAt releasedAt) (checked : books.Owns claim work checkedAt)
      (released : books.Owns claim work releasedAt) (continues : work.Continues new)
      (unclaimed : reply.Unclaimed) :
      Effect books op reply
        { books.setLane claim.organizationId ((books.lanes claim.organizationId).released
            (new.debit Work.units) (new.debit Work.bytes)) with
          work := books.work.put new }
  | retried {work new : Work} (found : books.work.get? work.id = some work)
      (unfinished : work.status ≠ .succeeded) (pending : new.status = .pending)
      (continues : work.Continues new) (plain : Plain op reply) :
      Effect books op reply
        { books.setLane work.organizationId
            ((books.lanes work.organizationId).released 0 0) with
          work := books.work.put new }

/-- Every work row refers to an observation of its own organization. -/
def Db.Evident (db : Db) : Prop :=
  ∀ work ∈ db.work, ∃ observation, db.observations.get? work.observationId = some observation ∧
    observation.organizationId = work.organizationId

structure Act (db : Db) (op : Op) (db' : Db) (reply : Reply) : Prop where
  effect : Effect db.books op reply db'.books
  evident : db'.Evident

/-! ### Reading and writing lanes -/

variable {organizationId : Uuid} {lane : Lane}

theorem Db.laneOf_of_get? (found : db.lanes.get? organizationId = some lane) :
    db.laneOf organizationId = lane := by
  rw [laneOf, found, getD_some]

theorem Db.books_putLane {old : Lane} (found : db.lanes.get? lane.organizationId = some old) :
    ({ db with lanes := db.lanes.put lane } : Db).books
      = db.books.setLane lane.organizationId lane := by
  have lanes : ({ db with lanes := db.lanes.put lane } : Db).laneOf
      = Function.update db.laneOf lane.organizationId lane := by
    funext organizationId
    by_cases same : organizationId = lane.organizationId
    · subst same
      rw [Function.update_self]
      exact laneOf_of_get? (get?_put_self found)
    rw [Function.update_of_ne same]
    show (_ : Option Lane).getD _ = (_ : Option Lane).getD _
    rw [get?_put_of_ne db.lanes same]
  rw [books, lanes]
  rfl

theorem Db.lockLane!_eq (db : Db) (organizationId : Uuid) : ∃ lanes, db.lockLane! organizationId
        = (({ db with lanes } : Db), db.books.lanes organizationId) ∧
      ({ db with lanes } : Db).books = db.books ∧
      lanes.get? organizationId = some (db.books.lanes organizationId) := by
  unfold lockLane!
  split
  · rename_i lane found
    have same : db.books.lanes organizationId = lane := laneOf_of_get? found
    refine ⟨db.lanes, ?_, rfl, ?_⟩
    · rw [same]
    · rw [same, found]
  rename_i found
  have empty : db.books.lanes organizationId = { organizationId } := by
    show db.laneOf organizationId = _
    rw [laneOf, found, getD_none]
  refine ⟨_, by rw [empty], ?_, ?_⟩
  · have lanes : ({ db with lanes := db.lanes.add { organizationId } found } : Db).laneOf
        = db.laneOf := by
      funext other
      show (_ : Option Lane).getD _ = (_ : Option Lane).getD _
      rw [get?_add]
      split
      · rename_i same
        cases same
        rw [found]
        rfl
      · rfl
    rw [books, lanes]
    rfl
  · rw [get?_add, if_pos rfl, empty]

theorem Db.updateLane_eq_ok {old new stored : Lane} (h : db.updateLane old new = .ok db')
    (found : db.lanes.get? organizationId = some stored)
    (own : new.organizationId = stored.organizationId) :
    db'.books = db.books.setLane organizationId new ∧ db'.observations = db.observations := by
  rw [key_of_get? found] at own
  subst own
  simp only [updateLane, bind_eq_ok_iff, pure_eq_ok_iff] at h
  obtain ⟨_, _, _, _, rfl⟩ := h
  exact ⟨books_putLane found, rfl⟩

variable {new : Work}

theorem Db.updateWork_eq_ok {old : Work} (h : db.updateWork old new = .ok db') :
    db'.books = { db.books with work := db.books.work.put new } ∧
      db'.observations = db.observations ∧ db'.lanes = db.lanes := by
  simp only [updateWork, bind_eq_ok_iff, pure_eq_ok_iff] at h
  obtain ⟨_, _, _, _, rfl⟩ := h
  exact ⟨rfl, rfl, rfl⟩

theorem Db.insertWork_eq_ok (h : db.insertWork work = .ok db') :
    ∃ fresh, db'.books = { db.books with work := db.books.work.add work fresh } ∧
      db'.observations = db.observations ∧ db'.lanes = db.lanes := by
  simp only [insertWork, bind_eq_ok_iff] at h
  obtain ⟨_, _, _, _, h⟩ := h
  split at h
  · rename_i fresh
    cases h
    exact ⟨fresh, rfl, rfl, rfl⟩
  · cases h

variable {observation : Observation}

theorem Db.insertObservation_eq_ok (h : db.insertObservation observation = .ok db') :
    ∃ fresh, db' = { db with observations := db.observations.add observation fresh } := by
  simp only [insertObservation, bind_eq_ok_iff, require_eq_ok_iff] at h
  obtain ⟨_, _, h⟩ := h
  split at h
  · rename_i fresh
    cases h
    exact ⟨fresh, rfl⟩
  · cases h

/-! ### Evidence -/

theorem Db.Evident.of_eq (evident : db.Evident) (work : db'.work = db.work)
    (observations : db'.observations = db.observations) : db'.Evident := by
  intro row stored
  rw [observations]
  exact evident row (work ▸ stored)

theorem Db.Evident.observe (evident : db.Evident)
    (fresh : db.observations.get? observation.id = none) :
    Db.Evident { db with observations := db.observations.add observation fresh } := by
  intro row stored
  obtain ⟨found, known, own⟩ := evident row stored
  refine ⟨found, ?_, own⟩
  rw [get?_add, if_neg, known]
  intro same
  rw [same, fresh] at known
  cases known

theorem Db.Evident.put (evident : db.Evident) {old : Work} (found : db.work.get? old.id = some old)
    (work : db'.work = db.work.put new) (continues : old.Continues new)
    (observations : db'.observations = db.observations) : db'.Evident := by
  intro row stored
  rw [observations]
  rw [work] at stored
  rcases mem_put stored with rfl | ⟨old_, _⟩
  · rw [continues.observationId, continues.organizationId]
    exact evident old (mem_of_get? found)
  · exact evident row old_

/-! ### Reserving -/

variable {limits : Limits} {reply : Reply} {installationId : String} {newId : Uuid}

theorem reserve!_act {originalKeyId agentId : Uuid}
    (stored : db.lanes.get? organizationId = some lane)
    (own : observation.organizationId = organizationId)
    (known : db.observations.get? observation.id = some observation) (evident : db.Evident)
    (plain : Plain op reply)
    (h : reserve! env db lane observation originalKeyId agentId installationId limits newId now
      = .ok (db', work)) : Act db op db' reply := by
  subst own
  simp only [reserve!, bind_eq_ok_iff, pure_eq_ok_iff, Prod.mk.injEq] at h
  obtain ⟨_, _, _, inserted, db₂, updated, rfl, rfl⟩ := h
  obtain ⟨fresh, books₁, observations₁, lanes₁⟩ := insertWork_eq_ok inserted
  have same : db.books.lanes observation.organizationId = lane := laneOf_of_get? stored
  rw [← lanes₁] at stored
  obtain ⟨books₂, observations₂⟩ := updateLane_eq_ok updated stored rfl
  refine ⟨?_, ?_⟩
  · rw [books₂, books₁, ← same]
    rw [← same] at fresh
    exact Effect.reserved fresh rfl rfl reservedUnits_pos
      (Int.natCast_nonneg _) plain
  intro row member
  rw [observations₂, observations₁]
  have stored' : row ∈ db₂.books.work := member
  rw [books₂, books₁] at stored'
  rcases (mem_add fresh).1 stored' with old | rfl
  · exact evident row old
  · exact ⟨observation, known, rfl⟩

theorem Act.of_books {db₁ : Db} (same : db₁.books = db.books) (act : Act db₁ op db' reply) :
    Act db op db' reply :=
  ⟨same ▸ act.effect, act.evident⟩

theorem Act.kept (same : db'.books = db.books) (evident : db'.Evident) (plain : Plain op reply) :
    Act db op db' reply :=
  ⟨same ▸ .kept plain, evident⟩

variable {sourceId : Uuid} {disposition : Disposition}

theorem acceptObservation_eq_ok {keyId : Uuid} {attrs : Attrs} (evident : db.Evident)
    (h : acceptObservation env db organizationId sourceId keyId attrs newId
      = .ok (db', observation, disposition)) :
    db'.books = db.books ∧ db'.lanes = db.lanes ∧ db'.Evident ∧
      (disposition = .created → observation.organizationId = organizationId ∧
        db'.observations.get? observation.id = some observation) := by
  simp only [acceptObservation, bind_eq_ok_iff] at h
  obtain ⟨_, _, h⟩ := h
  split at h
  · simp only [bind_eq_ok_iff, pure_eq_ok_iff, Prod.mk.injEq] at h
    obtain ⟨_, _, rfl, rfl, rfl⟩ := h
    exact ⟨rfl, rfl, evident, nofun⟩
  split at h
  · simp only [bind_eq_ok_iff, pure_eq_ok_iff, Prod.mk.injEq] at h
    obtain ⟨_, inserted, rfl, rfl, rfl⟩ := h
    obtain ⟨fresh, rfl⟩ := insertObservation_eq_ok inserted
    exact ⟨rfl, rfl, evident.observe fresh,
      fun _ => ⟨rfl, (get?_add fresh).trans (if_pos rfl)⟩⟩
  · cases h

theorem admitWork_act {key : Option IntakeApiKey} {params : Payload}
    {newObservation newWork : Uuid} (evident : db.Evident) (plain : Plain op reply)
    (h : admitWork env db organizationId key installationId sourceId params limits newObservation
      newWork now = .ok (db', work, disposition)) : Act db op db' reply := by
  obtain ⟨lanes, locked, same, stored⟩ := db.lockLane!_eq organizationId
  simp only [admitWork, locked, bind_eq_ok_iff] at h
  obtain ⟨_, _, _, _, _, _, _, _, ⟨_, _, _⟩, _, _, _, _, _,
    ⟨_, _, disposition'⟩, accepted, h⟩ := h
  have evident' : Db.Evident { db with lanes } := evident.of_eq rfl rfl
  obtain ⟨books₁, lanes₁, evident₁, created⟩ := acceptObservation_eq_ok evident' accepted
  refine Act.of_books (books₁.trans same) ?_
  cases disposition' with
  | duplicate =>
    simp only [bind_eq_ok_iff, pure_eq_ok_iff, Prod.mk.injEq] at h
    obtain ⟨_, _, rfl, _⟩ := h
    exact .kept rfl evident₁ plain
  | created =>
    simp only [bind_eq_ok_iff, pure_eq_ok_iff, Prod.mk.injEq] at h
    obtain ⟨⟨_, _⟩, reserved, rfl, _⟩ := h
    obtain ⟨own, known⟩ := created rfl
    exact reserve!_act (lanes₁ ▸ stored) own known evident₁ plain reserved

/-! ### Claiming -/

theorem Db.headWork_eq_some (h : db.headWork organizationId = some work) :
    work.organizationId = organizationId ∧ db.books.Head work := by
  have trans : IsTrans Work fun a b => a.position ≤ b.position :=
    ⟨fun a b _ => le_trans⟩
  obtain ⟨rest, sorted⟩ := head?_eq_some_iff.1 h
  have pairwise := pairwise_insertionSort (fun a b : Work => a.position ≤ b.position)
    (db.outstanding organizationId)
  rw [sorted] at pairwise
  have member : ∀ other, other ∈ work :: rest ↔ other ∈ db.outstanding organizationId := by
    intro other
    rw [← sorted]
    exact mem_insertionSort _
  have outstanding : ∀ other, other ∈ db.outstanding organizationId ↔
      other ∈ db.work ∧ other.organizationId = organizationId ∧ other.status ≠ .succeeded := by
    intro other
    simp [outstanding, KeyTable.mem_def]
  obtain ⟨stored, own, unfinished⟩ := (outstanding work).1 ((member work).1 mem_cons_self)
  refine ⟨own, stored, unfinished, fun other stored' own' unfinished' => ?_⟩
  have listed := (member other).2 ((outstanding other).2 ⟨stored', own'.trans own, unfinished'⟩)
  rcases mem_cons.1 listed with rfl | later
  · exact le_refl _
  · exact (pairwise_cons.1 pairwise).1 other later

theorem Db.Evident.of_books (evident : db.Evident) (work : db'.books.work = db.books.work)
    (observations : db'.observations = db.observations) : db'.Evident :=
  evident.of_eq work observations

variable {claimed : Claimed} {claimMs : ℤ} {token : Uuid}

theorem claimAvailable!_act (evident : db.Evident) (unowned : op.Unowned)
    (h : claimAvailable! db organizationId claimMs token now = .ok (db', claimed)) :
    Act db op db' (.claimed claimed) := by
  simp only [claimAvailable!, bind_eq_ok_iff, ofOption_eq_ok_iff,
    pure_eq_ok_iff, Prod.mk.injEq] at h
  obtain ⟨work, chosen, _, _, lane, stored, _, ready, _, _, _, updated, rfl, rfl⟩ := h
  obtain ⟨rfl, head⟩ := headWork_eq_some chosen
  have same : db.books.lanes work.organizationId = lane := laneOf_of_get? stored
  obtain ⟨books, observations⟩ := updateLane_eq_ok updated stored rfl
  simp only [ensure, require_eq_ok_iff, Bool.and_eq_true, decide_eq_true_eq] at ready
  refine ⟨?_, evident.of_books (by rw [books]; rfl) observations⟩
  rw [books, ← same]
  exact Effect.claimed head ready.1.1 unowned rfl

theorem recordBusyAttempt!_act (evident : db.Evident) (unowned : op.Unowned)
    (h : recordBusyAttempt! db organizationId now = .ok (db', claimed)) :
    Act db op db' (.claimed claimed) := by
  unfold recordBusyAttempt! at h
  split at h
  · rename_i lane stored
    simp only [bind_eq_ok_iff, pure_eq_ok_iff, Prod.mk.injEq] at h
    obtain ⟨_, updated, rfl, rfl⟩ := h
    have same : db.books.lanes organizationId = lane := laneOf_of_get? stored
    obtain ⟨books, observations⟩ := updateLane_eq_ok updated stored rfl
    refine ⟨?_, evident.of_books (by rw [books]; rfl) observations⟩
    rw [books, ← same]
    exact Effect.turned organizationId now ⟨fun _ h => (by cases h), unowned⟩
  cases h
  exact .kept rfl evident ⟨fun _ h => (by cases h), unowned⟩

theorem claimNext_act {organizationId : Option Uuid} {skipped : Uuid → Bool}
    {free contended : Bool} {selectedAt : Time} (evident : db.Evident) (unowned : op.Unowned)
    (h : claimNext db organizationId claimMs skipped free contended token selectedAt now
      = .ok (db', claimed)) : Act db op db' (.claimed claimed) := by
  unfold claimNext at h
  split at h
  · cases h
    exact .kept rfl evident ⟨nofun, unowned⟩
  split at h
  · exact claimAvailable!_act evident unowned h
  · exact recordBusyAttempt!_act evident unowned h

/-! ### Turns -/

theorem Db.ownedLane_eq_some (h : db.ownedLane claim now = some lane) :
    db.lanes.get? claim.organizationId = some lane ∧ lane.token = some claim.token ∧
      lane.workId = some claim.workId ∧ lane.version = claim.laneVersion ∧
      ∃ t, lane.expiresAt = some t ∧ now < t := by
  obtain ⟨found, facts⟩ := filter_eq_some_iff.1 h
  simp only [Option.any_eq_true, decide_eq_true_eq] at facts
  exact ⟨found, facts⟩

theorem lockTurn!_eq_ok {source : Source}
    (h : lockTurn! db claim now = .ok (db', lane, work, source)) :
    db.books.Owns claim work now ∧ lane = db.books.lanes claim.organizationId ∧
      db'.books = db.books ∧ db'.observations = db.observations := by
  obtain ⟨_, locked, same, stored⟩ := db.lockLane!_eq claim.organizationId
  simp only [lockTurn!, locked, scopedWork!, ensureOwned!, ensure, bind_eq_ok_iff,
    ofOption_eq_ok_iff, require_eq_ok_iff, pure_eq_ok_iff, Prod.mk.injEq,
    decide_eq_true_eq] at h
  obtain ⟨_, _, _, ⟨_, found, _, own, rfl⟩, _, _, _,
    ⟨_, ⟨⟨token, version, workId, generation, checkpoint, status⟩, pending⟩, unexpired⟩,
    rfl, rfl, rfl, _⟩ := h
  obtain ⟨owned, known⟩ := isSome_iff_exists.1 unexpired
  obtain ⟨found', _, _, _, expires⟩ := ownedLane_eq_some known
  have current : db.books.lanes claim.organizationId = owned :=
    some.inj (stored.symm.trans found')
  exact ⟨⟨token, version, workId, current ▸ expires, found, own, generation, checkpoint, status,
    pending⟩, rfl, same, rfl⟩

variable {checkedAt releasedAt : Time}

theorem settle_act {change : Work → Work} {units bytes : ℤ} {db₁ db₂ : Db}
    (under : op.Under claim checkedAt releasedAt) (checked : db.books.Owns claim work checkedAt)
    (evident : db.Evident) (unclaimed : reply.Unclaimed) (continues : work.Continues (change work))
    (debits : units = (change work).debit Work.units ∧ bytes = (change work).debit Work.bytes)
    (updated : updateOwnedWork! db claim change = .ok db₁)
    (released : releaseOwnedLane! db₁ claim (db.books.lanes claim.organizationId) units bytes
      releasedAt = .ok db₂) : Act db op db₂ reply := by
  have found := checked.found
  have row : db.work.get? claim.workId = some work := found
  have written : db.updateWork work (change work) = .ok db₁ := by
    unfold updateOwnedWork! at updated
    split at updated
    · rename_i row' kept
      rw [filter_eq_some_iff, row] at kept
      rw [some.inj kept.1]
      exact updated
    · cases updated
  obtain ⟨books₁, observations₁, lanes₁⟩ := updateWork_eq_ok written
  unfold releaseOwnedLane! at released
  split at released
  · rename_i owned known
    obtain ⟨stored, token, workId, version, expires⟩ := ownedLane_eq_some known
    have same : db.books.lanes claim.organizationId = owned :=
      laneOf_of_get? (lanes₁ ▸ stored)
    obtain ⟨books₂, observations₂⟩ := updateLane_eq_ok released stored rfl
    refine ⟨?_, evident.put checked.stored ?_ continues (observations₂.trans observations₁)⟩
    · rw [books₂, books₁, ← same, debits.1, debits.2]
      refine Effect.settled under checked ?_ continues unclaimed
      exact { checked with
        token := same ▸ token, version := same ▸ version, workId := same ▸ workId
        unexpired := same ▸ expires, found }
    show db₂.books.work = _
    rw [books₂, books₁]
    rfl
  · cases released

theorem finish!_act {status : WorkStatus} (under : op.Under claim checkedAt releasedAt)
    (checked : db.books.Owns claim work checkedAt) (evident : db.Evident)
    (unclaimed : reply.Unclaimed)
    (h : finish! db claim (db.books.lanes claim.organizationId) work status releasedAt = .ok db') :
    Act db op db' reply := by
  simp only [finish!, bind_eq_ok_iff] at h
  obtain ⟨_, updated, h⟩ := h
  have continues : work.Continues
      { work with status, checkpoint := work.checkpoint + 1, error := [] } :=
    ⟨rfl, rfl, rfl, rfl, rfl, rfl⟩
  split at h
  · rename_i succeeded
    refine settle_act under checked evident unclaimed continues ?_ updated h
    exact ⟨(if_pos succeeded).symm, (if_pos succeeded).symm⟩
  rename_i unfinished
  refine settle_act under checked evident unclaimed continues ?_ updated h
  exact ⟨(if_neg unfinished).symm, (if_neg unfinished).symm⟩

theorem execute_act {operation : Organization → Observation → Outcome} {value : Json}
    (evident : db.Evident) (unclaimed : reply.Unclaimed)
    (h : execute db claim operation checkedAt releasedAt = .ok (db', value)) :
    Act db (.execute claim operation checkedAt releasedAt) db' reply := by
  simp only [execute, bind_eq_ok_iff] at h
  obtain ⟨⟨db₁, _, work, _⟩, locked, _, _, _, _, _, _, h⟩ := h
  obtain ⟨owns, rfl, same, observations⟩ := lockTurn!_eq_ok locked
  have evident₁ : db₁.Evident := evident.of_books (same ▸ rfl) observations
  have finished : ∀ {status : WorkStatus}, finish! db₁ claim
      (db.books.lanes claim.organizationId) work status releasedAt = .ok db' →
      Act db (.execute claim operation checkedAt releasedAt) db' reply := by
    intro _ h
    refine Act.of_books same ?_
    rw [← same] at owns h
    exact finish!_act (.execute operation) owns evident₁ unclaimed h
  split at h
  · simp only [bind_eq_ok_iff, pure_eq_ok_iff, Prod.mk.injEq] at h
    obtain ⟨_, h, rfl, _⟩ := h
    exact finished h
  · simp only [bind_eq_ok_iff, pure_eq_ok_iff, Prod.mk.injEq] at h
    obtain ⟨_, h, rfl, _⟩ := h
    exact finished h
  · cases h

theorem fail_act {kind : FailKind} {error : Payload} {backoffMs : ℤ} {work' : Work}
    (evident : db.Evident) (unclaimed : reply.Unclaimed)
    (h : fail db claim kind error backoffMs checkedAt now releasedAt = .ok (db', work')) :
    Act db (.fail claim kind error backoffMs checkedAt now releasedAt) db' reply := by
  simp only [fail, bind_eq_ok_iff, pure_eq_ok_iff, Prod.mk.injEq] at h
  obtain ⟨⟨_, _, _, _⟩, locked, _, updated, _, released, _, _, rfl, _⟩ := h
  obtain ⟨owns, rfl, same, observations⟩ := lockTurn!_eq_ok locked
  refine Act.of_books same ?_
  rw [← same] at owns released
  refine settle_act (.fail kind error backoffMs now) owns
    (evident.of_books (same ▸ rfl) observations) unclaimed ⟨rfl, rfl, rfl, rfl, rfl, rfl⟩ ?_ updated
    released
  constructor <;> cases kind <;> rfl

/-! ### Retries -/

variable {scope : Scope} {workId : Uuid} {generation : ℤ}

theorem retry_eq_ok (h : retry db scope workId generation now = .ok (db', new)) :
    ∃ work, db.work.get? work.id = some work ∧ work.organizationId = scope.organizationId ∧
      work.status ≠ .succeeded ∧ new.status = .pending ∧ work.Continues new ∧
      db'.books = { db.books.setLane work.organizationId
        ((db.books.lanes work.organizationId).released 0 0) with work := db.books.work.put new } ∧
      db'.observations = db.observations := by
  obtain ⟨_, locked, same, stored⟩ := db.lockLane!_eq scope.organizationId
  simp only [retry, locked, scopedWork!, ensure, invalidateLane!, bind_eq_ok_iff,
    ofOption_eq_ok_iff, require_eq_ok_iff, pure_eq_ok_iff, Prod.mk.injEq,
    decide_eq_true_eq] at h
  obtain ⟨_, _, _, ⟨work, found, _, own, rfl⟩, _, _, _, _, _, unfinished, _, invalidated, _,
    updated, rfl, rfl⟩ := h
  obtain ⟨books₁, observations₁⟩ := updateLane_eq_ok invalidated stored rfl
  obtain ⟨books₂, observations₂, _⟩ := updateWork_eq_ok updated
  have kept : db.work.get? work.id = some work := by
    rw [key_of_get? found]
    exact found
  refine ⟨work, kept, own, unfinished, rfl, ⟨rfl, rfl, rfl, rfl, rfl, rfl⟩, ?_,
    observations₂.trans observations₁⟩
  rw [books₂, books₁, same, ← own, Lane.released_zero]
  rfl

theorem retry_act (evident : db.Evident) (plain : Plain op reply)
    (h : retry db scope workId generation now = .ok (db', new)) : Act db op db' reply := by
  obtain ⟨_, found, _, unfinished, pending, continues, books, observations⟩ := retry_eq_ok h
  refine ⟨books ▸ Effect.retried found unfinished pending continues plain,
    evident.put found ?_ continues observations⟩
  show db'.books.work = _
  rw [books]
  rfl

theorem terminalRetry_act {newWork : Uuid} {work' : Work} (evident : db.Evident)
    (plain : Plain op reply)
    (h : terminalRetry env db scope workId generation limits newWork now = .ok (db', work')) :
    Act db op db' reply := by
  obtain ⟨lanes, locked, same, stored⟩ := db.lockLane!_eq scope.organizationId
  simp only [terminalRetry, locked, scopedWork!, ensure, bind_eq_ok_iff,
    ofOption_eq_ok_iff, require_eq_ok_iff, pure_eq_ok_iff,
    decide_eq_true_eq] at h
  obtain ⟨_, _, _, _, _, ⟨work, found, _, own, rfl⟩, _, _, _, _, _, _, _, _, _, _, _,
    known, reserved⟩ := h
  obtain ⟨_, known', organization⟩ := evident work (mem_of_get? found)
  cases known.symm.trans known'
  have evident' : Db.Evident { db with lanes } := evident.of_eq rfl rfl
  refine Act.of_books same (reserve!_act stored (organization.trans own) ?_ evident' plain reserved)
  rw [key_of_get? known]
  exact known

/-! ### Every operation -/

theorem perform_act (evident : db.Evident) (h : perform env db op = .ok (db', reply)) :
    Act db op db' reply := by
  cases op <;> simp only [perform, bind_eq_ok_iff, pure_eq_ok_iff, Prod.mk.injEq] at h
  case context =>
    obtain ⟨rfl, rfl⟩ := h
    exact .kept rfl (evident.of_eq rfl rfl) ⟨fun _ h => (by cases h), fun _ _ _ h => (by cases h)⟩
  case observe =>
    obtain ⟨_, inserted, rfl, rfl⟩ := h
    obtain ⟨fresh, rfl⟩ := insertObservation_eq_ok inserted
    exact .kept rfl (evident.observe fresh) ⟨fun _ h => (by cases h), fun _ _ _ h => (by cases h)⟩
  case admitWork =>
    obtain ⟨_, admitted, rfl, rfl⟩ := h
    exact admitWork_act evident ⟨fun _ h => (by cases h), fun _ _ _ h => (by cases h)⟩ admitted
  case claimNext =>
    obtain ⟨_, claimed, rfl, rfl⟩ := h
    exact claimNext_act evident (fun _ _ _ h => by cases h) claimed
  case execute =>
    obtain ⟨_, executed, rfl, rfl⟩ := h
    exact execute_act evident (fun _ h => by cases h) executed
  case fail =>
    obtain ⟨_, failed, rfl, rfl⟩ := h
    exact fail_act evident (fun _ h => by cases h) failed
  case retry =>
    obtain ⟨_, retried, rfl, rfl⟩ := h
    exact retry_act evident ⟨fun _ h => (by cases h), fun _ _ _ h => (by cases h)⟩ retried
  case terminalRetry =>
    obtain ⟨_, retried, rfl, rfl⟩ := h
    exact terminalRetry_act evident ⟨fun _ h => (by cases h), fun _ _ _ h => (by cases h)⟩
      retried

/-! ### Steps and runs -/

theorem step_act (env : Env) (op : Op) (evident : db.Evident) :
    (step env db op = db ∧ ∃ e, perform env db op = .error e) ∨
      ∃ reply, perform env db op = .ok (step env db op, reply) ∧
        Act db op (step env db op) reply := by
  cases result : perform env db op with
  | error e =>
    refine .inl ⟨?_, e, rfl⟩
    rw [step, result]
    rfl
  | ok p =>
    obtain ⟨db', reply⟩ := p
    have stepped : step env db op = db' := by
      rw [step, result]
      rfl
    rw [stepped]
    exact .inr ⟨reply, rfl, perform_act evident result⟩

theorem step_evident (env : Env) (op : Op) (evident : db.Evident) : (step env db op).Evident := by
  rcases step_act env op evident with ⟨same, _⟩ | ⟨_, _, act⟩
  · rwa [same]
  · exact act.evident

theorem evident_empty : Db.Evident {} :=
  fun _ stored => absurd stored (not_mem_empty _)

theorem run_evident (env : Env) (ops : List Op) : (run env {} ops).Evident :=
  Run.run_invariant (fun _ op evident => step_evident env op evident) evident_empty ops

variable {P : Books → Prop}

theorem step_books (op : Op)
    (keep : ∀ {books books' reply}, P books → Effect books op reply books' → P books')
    (evident : db.Evident) (start : P db.books) : P (step env db op).books := by
  rcases step_act env op evident with ⟨same, _⟩ | ⟨_, _, act⟩
  · rwa [same]
  · exact keep start act.effect

theorem run_books
    (keep : ∀ {books books' op reply}, P books → Effect books op reply books' → P books')
    (start : P ({} : Db).books) (ops : List Op) : P (run env {} ops).books :=
  (Run.run_invariant (P := fun db : Db => db.Evident ∧ P db.books)
    (fun _ op kept => ⟨step_evident env op kept.1,
      step_books op (fun holds effect => keep holds effect) kept.1 kept.2⟩)
    ⟨evident_empty, start⟩ ops).2

end Renga.Reconciliation
