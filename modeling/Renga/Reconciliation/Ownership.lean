import Renga.Reconciliation.Reservations

/-!
# Ownership of a lane

A claim passes the checks of a turn only where the lane carries its token and its version
and the work row is as it was when the claim was handed out.  Every claim raises the version
of its lane, and so does everything that ends one.  So the claims of a lane are told apart
by their versions, the one that passes is the last one handed out (`Books.Accounts`), and an
older one never passes again.
-/

namespace Renga.Reconciliation

open List KeyTable Books

variable {env : Env} {op : Op} {reply : Reply} {books books' : Books} {db db' : Db}

/-! ### The head of a lane -/

/-- The work a lane has claimed is its head. -/
def Books.InTurn (books : Books) : Prop :=
  ∀ o id, (books.lanes o).workId = some id →
    ∃ work, books.Head work ∧ work.id = id ∧ work.organizationId = o

variable {work : Work} {new : Work} {old : Work} {now : Time} {done : List Work}
  {releasedAt : Time} {checkedAt : Time}
  (found : books.work.get? old.id = some old) (continues : old.Continues new)

theorem Books.Head.of_same (head : books.Head work) (same : books'.work = books.work) :
    books'.Head work := by
  refine ⟨?_, head.unfinished, ?_⟩
  · rw [same]
    exact head.stored
  intro row stored
  rw [same] at stored
  exact head.first row stored

include found continues in
theorem Books.Head.of_put (head : books.Head work) (written : books'.work = books.work.put new)
    (other : work.organizationId ≠ old.organizationId) :
    books'.Head work := by
  have apart : work.id ≠ new.id := by
    intro same
    have one : work = old := eq_of_key_eq head.stored (mem_of_get? found) (same.trans continues.id)
    exact other (one ▸ rfl)
  refine ⟨?_, head.unfinished, ?_⟩
  · rw [written]
    exact mem_put_of_ne head.stored apart
  intro row stored own unfinished
  rw [written] at stored
  rcases mem_put stored with rfl | ⟨kept, _⟩
  · exact absurd (own.symm.trans continues.organizationId) other
  exact head.first row kept own unfinished

theorem Books.Head.of_add (head : books.Head work) (numbered : books.Numbered)
    (fresh : books.work.get? new.id = none)
    (next : new.position = (books.lanes new.organizationId).position + 1)
    (written : books'.work = books.work.add new fresh) : books'.Head work := by
  refine ⟨?_, head.unfinished, ?_⟩
  · rw [written]
    exact (mem_add fresh).2 (.inl head.stored)
  intro row stored own unfinished
  rw [written] at stored
  rcases (mem_add fresh).1 stored with old | rfl
  · exact head.first row old own unfinished
  have bound := (numbered.within work head.stored).2
  rw [← own] at bound
  omega

theorem Books.Owns.head {claim : Claim} (inTurn : books.InTurn) (owns : books.Owns claim work now) :
    books.Head work := by
  obtain ⟨row, head, named, _⟩ := inTurn _ _ owns.workId
  have same : row = work := eq_of_key_eq head.stored (mem_of_get? owns.found)
    (named.trans (key_of_get? owns.found).symm)
  exact same ▸ head

variable {lane : Lane}

include found continues in
theorem Books.InTurn.release (inTurn : books.InTurn) (free : lane.workId = none) :
    Books.InTurn { books.setLane old.organizationId lane with work := books.work.put new } := by
  intro o id held
  change ((books.setLane old.organizationId lane).lanes o).workId = some id at held
  rw [lanes_setLane] at held
  split at held
  · rw [free] at held
    cases held
  rename_i other
  obtain ⟨work, head, named, place⟩ := inTurn o id held
  exact ⟨work, head.of_put found continues rfl (place ▸ other), named, place⟩

variable {organizationId o : Uuid}

theorem Books.workId_of_setLane {id : Uuid}
    (held : ((books.setLane organizationId lane).lanes o).workId = some id)
    (same : lane.workId = (books.lanes organizationId).workId) :
    (books.lanes o).workId = some id := by
  rw [lanes_setLane] at held
  split at held
  · rename_i own
    rwa [own, ← same]
  · exact held

theorem Effect.inTurn (numbered : books.Numbered) (inTurn : books.InTurn)
    (effect : Effect books op reply books') : books'.InTurn := by
  cases effect with
  | kept => exact inTurn
  | @reserved _ fresh next =>
    intro o id held
    obtain ⟨work, head, place⟩ := inTurn o id (workId_of_setLane held rfl)
    exact ⟨work, head.of_add numbered fresh next rfl, place⟩
  | turned =>
    intro o id held
    obtain ⟨work, head, place⟩ := inTurn o id (workId_of_setLane held rfl)
    exact ⟨work, head.of_same rfl, place⟩
  | @claimed work _ _ _ head =>
    intro o id held
    rw [lanes_setLane] at held
    split at held
    · rename_i own
      exact ⟨work, head.of_same rfl, Option.some.inj held, own.symm⟩
    obtain ⟨row, rowHead, place⟩ := inTurn o id held
    exact ⟨row, rowHead.of_same rfl, place⟩
  | settled _ checked _ continues =>
    rw [← checked.organization]
    exact inTurn.release checked.stored continues rfl
  | retried found _ _ continues => exact inTurn.release found continues rfl

theorem run_inTurn (env : Env) (ops : List Op) : (run env {} ops).books.InTurn := by
  refine (run_books (P := fun books => books.Numbered ∧ books.InTurn)
    (fun kept effect => ⟨effect.numbered kept.1, effect.inTurn kept.1 kept.2⟩)
    ⟨run_numbered env [], fun _ _ held => ?_⟩ ops).2
  cases held

/-! ### The order of completion -/

/-- The rows of the organization that have succeeded are those up to position `k`. -/
def Books.Front (books : Books) (organizationId : Uuid) (k : ℤ) : Prop :=
  ∀ work ∈ books.work, work.organizationId = organizationId →
    (work.status = .succeeded ↔ work.position ≤ k)

/-- The positions of the rows of an organization. -/
def positionsOf (organizationId : Uuid) (rows : List Work) : List ℤ :=
  (rows.filter fun work => work.organizationId = organizationId).map Work.position

/-- The positions up to `k`, in order. -/
def positionsTo (k : ℕ) : List ℤ := (range k).map fun n : ℕ => (n : ℤ) + 1

theorem positionsOf_append {rows rows' : List Work} :
    positionsOf organizationId (rows ++ rows')
      = positionsOf organizationId rows ++ positionsOf organizationId rows' := by
  rw [positionsOf, filter_append, map_append]
  rfl

theorem positionsOf_singleton :
    positionsOf organizationId [work]
      = if work.organizationId = organizationId then [work.position] else [] := by
  unfold positionsOf
  by_cases own : work.organizationId = organizationId <;> simp [own]

theorem positionsTo_succ (k : ℕ) : positionsTo (k + 1) = positionsTo k ++ [(k : ℤ) + 1] := by
  rw [positionsTo, range_succ, map_append]
  rfl

/-- Every organization's rows have succeeded one after the other, from the first on. -/
def Books.InOrder (books : Books) (done : List Work) : Prop :=
  ∀ o, ∃ k : ℕ, positionsOf o done = positionsTo k ∧ books.Front o k ∧
    (k : ℤ) ≤ (books.lanes o).position

/-- The head of a lane is the first row behind those that have succeeded. -/
theorem Books.Head.position {k : ℕ} (numbered : books.Numbered) (head : books.Head work)
    (front : books.Front work.organizationId k) :
    work.position = k + 1 := by
  have after : (k : ℤ) < work.position := by
    by_contra below
    exact head.unfinished ((front work head.stored rfl).2 (not_lt.1 below))
  have bound := (numbered.within work head.stored).2
  obtain ⟨next, stored, own, _⟩ := numbered.reached work.organizationId (k + 1) (by omega)
    (by omega)
  have unfinished : next.status ≠ .succeeded := by
    intro succeeded
    have := (front next stored own).1 succeeded
    omega
  have first := head.first next stored own unfinished
  omega

variable {k : ℤ}

theorem Books.Front.of_same (front : books.Front o k) (same : books'.work = books.work) :
    books'.Front o k := by
  intro work stored
  rw [same] at stored
  exact front work stored

theorem Books.Front.of_add (front : books.Front o k) (fresh : books.work.get? new.id = none)
    (pending : new.status = .pending) (behind : new.organizationId = o → k < new.position)
    (written : books'.work = books.work.add new fresh) : books'.Front o k := by
  intro work stored own
  rw [written] at stored
  rcases (mem_add fresh).1 stored with old | rfl
  · exact front work old own
  have := behind own
  refine ⟨fun succeeded => ?_, fun _ => by omega⟩
  rw [pending] at succeeded
  cases succeeded

include found continues in
theorem Books.Front.of_put (front : books.Front o k) (unfinished : old.status ≠ .succeeded)
    (aside : new.status ≠ .succeeded ∨ old.organizationId ≠ o)
    (written : books'.work = books.work.put new) : books'.Front o k := by
  intro work stored own
  rw [written] at stored
  rcases mem_put stored with rfl | ⟨kept, _⟩
  · have place : old.organizationId = o := continues.organizationId ▸ own
    have still : work.status ≠ .succeeded := aside.resolve_right (fun other => other place)
    have before := front old (mem_of_get? found) place
    rw [continues.position]
    exact ⟨fun succeeded => absurd succeeded still,
      fun below => absurd (before.2 below) unfinished⟩
  · exact front work kept own

include found continues in
theorem Books.Front.advance (front : books.Front o k) (numbered : books.Numbered)
    (own : old.organizationId = o) (next : old.position = k + 1)
    (succeeded : new.status = .succeeded) (written : books'.work = books.work.put new) :
    books'.Front o (k + 1) := by
  intro work stored place
  rw [written] at stored
  rcases mem_put stored with rfl | ⟨kept, apart⟩
  · rw [continues.position, next]
    exact ⟨fun _ => le_refl _, fun _ => succeeded⟩
  have elsewhere : work.position ≠ k + 1 := by
    intro same
    have one := numbered.apart work kept old (mem_of_get? found) (place.trans own.symm)
      (same.trans next.symm)
    exact apart (one ▸ continues.id.symm)
  rw [front work kept place]
  omega

theorem Books.InOrder.of_same (ordered : books.InOrder done) (same : books'.work = books.work)
    (grown : ∀ o, (books.lanes o).position ≤ (books'.lanes o).position) :
    books'.InOrder (done ++ books.completed books') := by
  intro o
  obtain ⟨k, listed, front, bound⟩ := ordered o
  rw [completed_same same, append_nil]
  exact ⟨k, listed, front.of_same same, bound.trans (grown o)⟩

include found continues in
theorem Books.InOrder.of_put (ordered : books.InOrder done) (numbered : books.Numbered)
    (unfinished : old.status ≠ .succeeded) (head : new.status = .succeeded → books.Head old)
    (written : books'.work = books.work.put new)
    (grown : ∀ o, (books.lanes o).position ≤ (books'.lanes o).position) :
    books'.InOrder (done ++ books.completed books') := by
  intro o
  obtain ⟨k, listed, front, bound⟩ := ordered o
  rw [completed_put written found continues unfinished, positionsOf_append, listed]
  by_cases succeeded : new.status = .succeeded
  · rw [if_pos succeeded, positionsOf_singleton, continues.organizationId, continues.position]
    by_cases own : old.organizationId = o
    · subst own
      have next : old.position = k + 1 := (head succeeded).position numbered front
      have reached := (numbered.within old (head succeeded).stored).2
      have limit := grown old.organizationId
      rw [if_pos rfl, next]
      refine ⟨k + 1, (positionsTo_succ k).symm, ?_, by push_cast; omega⟩
      push_cast
      exact front.advance found continues numbered rfl next succeeded written
    rw [if_neg own, append_nil]
    exact ⟨k, rfl, front.of_put found continues unfinished (.inr own) written,
      bound.trans (grown o)⟩
  rw [if_neg succeeded]
  exact ⟨k, append_nil _, front.of_put found continues unfinished (.inl succeeded) written,
    bound.trans (grown o)⟩

/-- **One operation** lets work succeed in order only. -/
theorem Effect.inOrder (numbered : books.Numbered) (inTurn : books.InTurn)
    (ordered : books.InOrder done) (effect : Effect books op reply books') :
    books'.InOrder (done ++ books.completed books') := by
  have grown := effect.position_le
  cases effect with
  | kept => exact ordered.of_same rfl grown
  | @reserved _ fresh _ pending =>
    intro o
    obtain ⟨k, listed, front, bound⟩ := ordered o
    rw [completed_add fresh rfl pending, append_nil]
    refine ⟨k, listed, front.of_add fresh pending ?_ rfl, bound.trans (grown o)⟩
    rintro rfl
    omega
  | turned | claimed => exact ordered.of_same rfl grown
  | settled _ checked _ continues =>
    exact ordered.of_put checked.stored continues numbered (by simp [checked.pending])
      (fun _ => checked.head inTurn) rfl grown
  | @retried _ _ found unfinished pending continues =>
    refine ordered.of_put found continues numbered unfinished (fun succeeded => ?_) rfl grown
    rw [pending] at succeeded
    cases succeeded

theorem run_inOrder (env : Env) (ops : List Op) :
    (run env {} ops).books.InOrder (completions env ops) := by
  refine (Run.outputs_invariant (P := fun (db : Db) done =>
      db.Evident ∧ db.books.Numbered ∧ db.books.InTurn ∧ db.books.InOrder done)
    (fun _ _ op kept => ?_)
    ⟨evident_empty, run_numbered env [], run_inTurn env [],
      fun _ => ⟨0, rfl, ?_, le_refl 0⟩⟩ ops).2.2.2
  · obtain ⟨evident, numbered, inTurn, ordered⟩ := kept
    refine ⟨step_evident env op evident, ?_⟩
    rcases step_act env op evident with ⟨same, _⟩ | ⟨_, _, act⟩
    · rw [same]
      exact ⟨numbered, inTurn, ordered.of_same rfl fun _ => le_refl _⟩
    exact ⟨act.effect.numbered numbered, act.effect.inTurn numbered inTurn,
      act.effect.inOrder numbered inTurn ordered⟩
  · exact fun work stored => absurd stored (not_mem_empty work)

/-! ### Claims that were handed out -/

/-- A claim with its expiry. -/
structure Lease where
  claim : Claim
  expiresAt : Time

variable {handed : List Lease}

/-- The lease a reply hands out, with the expiry the lane has noted for it. -/
def Reply.leases (books : Books) : Reply → List Lease
  | .claimed (.claim claim) =>
    ((books.lanes claim.organizationId).expiresAt.map (Lease.mk claim)).toList
  | _ => []

/-- The leases one operation hands out. -/
def leased (env : Env) (db : Db) (op : Op) : List Lease :=
  match perform env db op with
  | .ok (db', reply) => reply.leases db'.books
  | .error _ => []

/-- The leases a run has handed out, in order. -/
def leases (env : Env) (ops : List Op) : List Lease :=
  Run.outputs (step env) (leased env) {} ops

theorem Reply.Unclaimed.leases (unclaimed : reply.Unclaimed) : reply.leases books = [] := by
  unfold Reply.leases
  split
  · rename_i claim
    exact absurd rfl (unclaimed claim)
  · rfl

/-- The lane carries the claim of the lease, and the work row is as the claim says. -/
structure Books.Holds (books : Books) (lease : Lease) : Prop where
  token : (books.lanes lease.claim.organizationId).token = some lease.claim.token
  version : (books.lanes lease.claim.organizationId).version = lease.claim.laneVersion
  workId : (books.lanes lease.claim.organizationId).workId = some lease.claim.workId
  expiresAt : (books.lanes lease.claim.organizationId).expiresAt = some lease.expiresAt
  row : ∃ work, books.work.get? lease.claim.workId = some work ∧
    work.organizationId = lease.claim.organizationId ∧
    work.generation = lease.claim.generation ∧ work.checkpoint = lease.claim.checkpoint ∧
    work.status = lease.claim.status

/-- The leases handed out so far: none is ahead of its lane, those of a lane rise, and a
claimed lane carries one of them. -/
structure Books.Accounts (books : Books) (handed : List Lease) : Prop where
  fenced : ∀ lease ∈ handed,
    lease.claim.laneVersion ≤ (books.lanes lease.claim.organizationId).version
  rising : handed.Pairwise fun lease later =>
    lease.claim.organizationId = later.claim.organizationId →
      lease.claim.laneVersion < later.claim.laneVersion
  holder : ∀ o token, (books.lanes o).token = some token →
    ∃ lease ∈ handed, lease.claim.organizationId = o ∧ books.Holds lease

/-- Two states of a lane carry the same claim. -/
structure Lane.Agrees (lane lane' : Lane) : Prop where
  token : lane'.token = lane.token
  version : lane'.version = lane.version
  workId : lane'.workId = lane.workId
  expiresAt : lane'.expiresAt = lane.expiresAt

theorem Lane.Agrees.refl : lane.Agrees lane := ⟨rfl, rfl, rfl, rfl⟩

theorem Books.agrees_setLane (agrees : (books.lanes organizationId).Agrees lane) (o : Uuid) :
    (books.lanes o).Agrees ((books.setLane organizationId lane).lanes o) := by
  rw [lanes_setLane]
  split
  · rename_i own
    exact own ▸ agrees
  · exact .refl

theorem Books.version_le_setLane (raised : (books.lanes organizationId).version ≤ lane.version)
    (o : Uuid) :
    (books.lanes o).version ≤ ((books.setLane organizationId lane).lanes o).version := by
  rw [lanes_setLane]
  split
  · rename_i own
    exact own ▸ raised
  · exact le_refl _

theorem Books.Holds.keep {lease : Lease} (holds : books.Holds lease)
    (agrees : (books.lanes lease.claim.organizationId).Agrees
      (books'.lanes lease.claim.organizationId))
    (rows : ∀ work, work.organizationId = lease.claim.organizationId →
      books.work.get? lease.claim.workId = some work →
      books'.work.get? lease.claim.workId = some work) : books'.Holds lease := by
  obtain ⟨work, found, own, facts⟩ := holds.row
  exact ⟨agrees.token.trans holds.token, agrees.version.trans holds.version,
    agrees.workId.trans holds.workId, agrees.expiresAt.trans holds.expiresAt,
    work, rows work own found, own, facts⟩

theorem Books.Accounts.keep (accounts : books.Accounts handed)
    (agrees : ∀ o, (books.lanes o).Agrees (books'.lanes o))
    (rows : ∀ id work, books.work.get? id = some work → books'.work.get? id = some work) :
    books'.Accounts handed where
  fenced := by
    intro lease member
    rw [(agrees _).version]
    exact accounts.fenced lease member
  rising := accounts.rising
  holder := by
    intro o token held
    rw [(agrees o).token] at held
    obtain ⟨lease, member, own, holds⟩ := accounts.holder o token held
    exact ⟨lease, member, own, holds.keep (agrees _) fun work _ => rows _ work⟩

include found continues in
theorem Books.Accounts.release (accounts : books.Accounts handed) (free : lane.token = none)
    (raised : (books.lanes old.organizationId).version ≤ lane.version) :
    Books.Accounts { books.setLane old.organizationId lane with work := books.work.put new }
      handed where
  fenced lease member := (accounts.fenced lease member).trans (version_le_setLane raised _)
  rising := accounts.rising
  holder := by
    intro o token held
    change ((books.setLane _ _).lanes o).token = some token at held
    rw [lanes_setLane] at held
    split at held
    · rw [free] at held
      cases held
    rename_i other
    obtain ⟨lease, member, own, holds⟩ := accounts.holder o token held
    refine ⟨lease, member, own, holds.keep ?_ fun _ place known => ?_⟩
    · show (books.lanes _).Agrees ((books.setLane _ _).lanes _)
      rw [lanes_setLane, if_neg (own ▸ other)]
      exact .refl
    -- The row of another organization is another row.
    show (books.work.put new).get? _ = _
    rw [get?_put_of_ne, known]
    intro same
    rw [same, continues.id, found] at known
    cases known
    exact other (own ▸ place.symm)

theorem Books.Accounts.claim {token : Uuid} {expiresAt : Time} (accounts : books.Accounts handed)
    (head : books.Head work) :
    Books.Accounts (books.setLane work.organizationId
        ((books.lanes work.organizationId).claimed work token expiresAt now))
      (handed ++ [⟨(books.lanes work.organizationId).claimOf work token, expiresAt⟩]) where
  fenced := by
    intro lease member
    rcases mem_append.1 member with old | new
    · exact (accounts.fenced lease old).trans (version_le_setLane (Int.le.intro 1 rfl) _)
    cases mem_singleton.1 new
    rw [lanes_setLane]
    exact (congrArg Lane.version (if_pos rfl)).ge
  rising := by
    refine pairwise_append.2 ⟨accounts.rising, pairwise_singleton _ _, ?_⟩
    intro lease old _ new own
    cases mem_singleton.1 new
    have before := accounts.fenced lease old
    rw [own] at before
    exact Int.lt_add_one_iff.2 before
  holder := by
    intro o token' held
    rw [lanes_setLane] at held
    split at held
    · rename_i own
      refine ⟨_, mem_append_right _ (mem_singleton_self _), own.symm, ?_⟩
      have lane : (books.setLane work.organizationId
          ((books.lanes work.organizationId).claimed work token expiresAt now)).lanes
            work.organizationId
          = (books.lanes work.organizationId).claimed work token expiresAt now := by
        rw [lanes_setLane, if_pos rfl]
      exact ⟨congrArg Lane.token lane, congrArg Lane.version lane, congrArg Lane.workId lane,
        congrArg Lane.expiresAt lane, work, get?_of_mem head.stored, rfl, rfl, rfl, rfl⟩
    rename_i other
    obtain ⟨lease, member, own, holds⟩ := accounts.holder o token' held
    refine ⟨lease, mem_append_left _ member, own, holds.keep ?_ fun _ _ known => known⟩
    rw [lanes_setLane, if_neg (own ▸ other)]
    exact .refl

/-- **One operation** keeps the account of the leases. -/
theorem Effect.accounts (accounts : books.Accounts handed) (effect : Effect books op reply books') :
    books'.Accounts (handed ++ reply.leases books') := by
  cases effect with
  | kept plain =>
    rw [plain.unclaimed.leases, append_nil]
    exact accounts
  | @reserved new fresh _ _ _ _ plain =>
    rw [plain.unclaimed.leases, append_nil]
    refine accounts.keep (fun o => ?_) fun id work known => ?_
    · have agrees : (books.lanes new.organizationId).Agrees
          ((books.lanes new.organizationId).reserved new) := ⟨rfl, rfl, rfl, rfl⟩
      exact agrees_setLane agrees o
    show (books.work.add new fresh).get? id = some work
    rw [get?_add, if_neg, known]
    rintro rfl
    rw [fresh] at known
    cases known
  | turned _ _ plain =>
    rw [plain.unclaimed.leases, append_nil]
    exact accounts.keep (agrees_setLane ⟨rfl, rfl, rfl, rfl⟩) fun _ _ known => known
  | @claimed work token expiresAt now head _ _ returned =>
    have handedOut : reply.leases (books.setLane work.organizationId
        ((books.lanes work.organizationId).claimed work token expiresAt now))
        = [⟨(books.lanes work.organizationId).claimOf work token, expiresAt⟩] := by
      rw [returned]
      show (Option.map _ ((books.setLane _ _).lanes work.organizationId).expiresAt).toList = _
      rw [lanes_setLane, if_pos rfl]
      rfl
    rw [handedOut]
    exact accounts.claim head
  | @settled _ _ _ _ _ _ checked _ continues unclaimed =>
    rw [unclaimed.leases, append_nil, ← checked.organization]
    exact accounts.release checked.stored continues rfl (Int.le.intro 1 rfl)
  | @retried _ _ found _ _ continues plain =>
    rw [plain.unclaimed.leases, append_nil]
    exact accounts.release found continues rfl (Int.le.intro 1 rfl)

theorem run_accounts (env : Env) (ops : List Op) :
    (run env {} ops).books.Accounts (leases env ops) := by
  refine (Run.outputs_invariant (P := fun (db : Db) handed =>
      db.Evident ∧ db.books.Accounts handed)
    (fun _ _ op kept => ⟨step_evident env op kept.1, ?_⟩) ⟨evident_empty, ?_⟩ ops).2
  · rcases step_act env op kept.1 with ⟨same, _, failed⟩ | ⟨_, done, act⟩
    · rw [same, leased, failed, append_nil]
      exact kept.2
    rw [leased, done]
    exact act.effect.accounts kept.2
  · exact ⟨nofun, List.Pairwise.nil, nofun⟩

/-- **The claim that passes** was handed out, and the lane carries it. -/
theorem Books.Owns.lease {claim : Claim} (accounts : books.Accounts handed)
    (owns : books.Owns claim work now) :
    ∃ lease ∈ handed, lease.claim = claim ∧ books.Holds lease := by
  obtain ⟨lease, member, own, holds⟩ := accounts.holder _ _ owns.token
  refine ⟨lease, member, ?_, holds⟩
  obtain ⟨token, version, workId, _, _, found, _, generation, checkpoint, status⟩ := holds
  obtain ⟨⟨_, _, _, _, _, _, _⟩, _⟩ := lease
  cases own
  cases owns.token.symm.trans token
  cases owns.version.symm.trans version
  cases owns.workId.symm.trans workId
  cases owns.found.symm.trans found
  cases owns.generation.symm.trans generation
  cases owns.checkpoint.symm.trans checkpoint
  cases owns.status.symm.trans status
  rfl

theorem Books.Holds.unexpired {lease : Lease} (holds : books.Holds lease)
    (owns : books.Owns lease.claim work now) :
    now < lease.expiresAt := by
  obtain ⟨_, noted, before⟩ := owns.unexpired
  rw [holds.expiresAt] at noted
  cases noted
  exact before

theorem Books.Accounts.eq_of_version {lease other : Lease} (accounts : books.Accounts handed)
    (member : lease ∈ handed) (member' : other ∈ handed)
    (own : other.claim.organizationId = lease.claim.organizationId)
    (version : other.claim.laneVersion = lease.claim.laneVersion) : other = lease := by
  have symm : Std.Symm fun a b : Lease => a.claim.organizationId = b.claim.organizationId →
      a.claim.laneVersion = b.claim.laneVersion → a = b :=
    ⟨fun _ _ h own version => (h own.symm version.symm).symm⟩
  have apart : handed.Pairwise fun a b => a.claim.organizationId = b.claim.organizationId →
      a.claim.laneVersion = b.claim.laneVersion → a = b :=
    accounts.rising.imp fun rises own version => absurd version (rises own).ne
  exact apart.forall_of_forall (fun _ _ _ _ => rfl) member' member own version

/-- A lease that a lane carries is the last one of the lane. -/
theorem Books.Holds.last {lease other : Lease} (accounts : books.Accounts handed)
    (holds : books.Holds lease) (member : lease ∈ handed) (member' : other ∈ handed)
    (own : other.claim.organizationId = lease.claim.organizationId) :
    other = lease ∨ other.claim.laneVersion < lease.claim.laneVersion := by
  have bound := accounts.fenced other member'
  rw [own, holds.version] at bound
  rcases bound.eq_or_lt with same | before
  · exact .inl (accounts.eq_of_version member member' own same)
  · exact .inr before

/-! ### What ends a claim -/

/-- The operation ends a claim of the lane when it commits. -/
inductive Op.Ends (organizationId : Uuid) : Op → Prop
  | turn {claim : Claim} {checkedAt releasedAt : Time} {op : Op}
      (under : op.Under claim checkedAt releasedAt) (own : claim.organizationId = organizationId) :
      Op.Ends organizationId op
  | retry {scope : Scope} {workId : Uuid} {generation : ℤ} {now : Time}
      (own : scope.organizationId = organizationId) :
      Op.Ends organizationId (.retry scope workId generation now)

theorem Op.Under.unique {claim claim' : Claim} {checkedAt' releasedAt' : Time}
    (under : op.Under claim checkedAt releasedAt)
    (under' : op.Under claim' checkedAt' releasedAt') :
    claim' = claim ∧ checkedAt' = checkedAt ∧ releasedAt' = releasedAt := by
  cases under <;> cases under' <;> exact ⟨rfl, rfl, rfl⟩

/-- An operation under a claim commits only while the claim passes, and ends it. -/
theorem Effect.under {claim : Claim} (effect : Effect books op reply books')
    (under : op.Under claim checkedAt releasedAt) :
    (∃ work, books.Owns claim work checkedAt ∧ books.Owns claim work releasedAt) ∧
      (books'.lanes claim.organizationId).version
        = (books.lanes claim.organizationId).version + 1 := by
  cases effect with
  | kept plain => exact absurd under (plain.unowned _ _ _)
  | reserved _ _ _ _ _ plain => exact absurd under (plain.unowned _ _ _)
  | turned _ _ plain => exact absurd under (plain.unowned _ _ _)
  | claimed _ _ unowned => exact absurd under (unowned _ _ _)
  | @settled _ _ _ work _ under' checked released =>
    obtain ⟨rfl, rfl, rfl⟩ := under.unique under'
    refine ⟨⟨work, checked, released⟩, ?_⟩
    show ((books.setLane _ _).lanes _).version = _
    rw [lanes_setLane, if_pos rfl]
    rfl
  | retried _ _ _ _ plain => exact absurd under (plain.unowned _ _ _)

theorem step_under {claim : Claim} (evident : db.Evident)
    (under : op.Under claim checkedAt releasedAt) :
    step env db op = db ∨
      ∃ work, db.books.Owns claim work checkedAt ∧ db.books.Owns claim work releasedAt := by
  rcases step_act env op evident with ⟨same, _⟩ | ⟨_, _, act⟩
  · exact .inl same
  · exact .inr (act.effect.under under).1

theorem Effect.version_le (effect : Effect books op reply books') :
    (books.lanes o).version ≤ (books'.lanes o).version := by
  cases effect with
  | kept => exact le_refl _
  | reserved | turned => exact version_le_setLane (by rfl) o
  | claimed | settled | retried => exact version_le_setLane (Int.le.intro 1 rfl) o

theorem run_version_le (env : Env) (evident : db.Evident) (ops : List Op) (o : Uuid) :
    (db.books.lanes o).version ≤ ((run env db ops).books.lanes o).version := by
  refine Run.run_mono (P := Db.Evident)
    (R := fun db db' : Db => (db.books.lanes o).version ≤ (db'.books.lanes o).version)
    (fun _ op kept => step_evident env op kept) (fun _ => le_refl _) (fun _ _ _ => le_trans)
    (fun _ op kept => ?_) evident ops
  rcases step_act env op kept with ⟨same, _⟩ | ⟨_, _, act⟩
  · rw [same]
  · exact act.effect.version_le

theorem perform_ends (evident : db.Evident) (ends : op.Ends organizationId)
    (done : perform env db op = .ok (db', reply)) :
    (db'.books.lanes organizationId).version = (db.books.lanes organizationId).version + 1 := by
  cases ends with
  | turn under own => exact own ▸ ((perform_act evident done).effect.under under).2
  | retry own =>
    simp only [perform, Except.bind_eq_ok_iff, Except.pure_eq_ok_iff, Prod.mk.injEq] at done
    obtain ⟨⟨_, _⟩, retried, rfl, _⟩ := done
    obtain ⟨work, _, place, _, _, _, books, _⟩ := retry_eq_ok retried
    rw [books, ← own, ← place]
    show ((setLane _ _ _).lanes _).version = _
    rw [lanes_setLane, if_pos rfl]
    rfl

/-- Whatever workers and people do, in any order and with any readings of the clock:

* the claim that passes the checks of a turn has been handed out, has not expired, and is
  the last one of its lane, so at most one claim of a lane passes at any time;
* an operation under a claim that has expired at one of its two readings, that another
  claim of the lane has followed, or that a turn or a retry has ended, changes nothing;
* the work of an organization succeeds in the order of its positions, from one on and
  without a gap. -/
theorem run_fences_claims (env : Env) (ops : List Op) :
    let db := run env {} ops
    (∀ claim now turn, lockTurn! db claim now = .ok turn →
      ∃ lease ∈ leases env ops, lease.claim = claim ∧ now < lease.expiresAt ∧
        ∀ other ∈ leases env ops, other.claim.organizationId = claim.organizationId →
          other = lease ∨ other.claim.laneVersion < claim.laneVersion) ∧
    (∀ claim now turn claim' now' turn', lockTurn! db claim now = .ok turn →
      lockTurn! db claim' now' = .ok turn' → claim.organizationId = claim'.organizationId →
      claim = claim') ∧
    (∀ lease ∈ leases env ops, ∀ op checkedAt releasedAt,
      op.Under lease.claim checkedAt releasedAt →
      (lease.expiresAt ≤ checkedAt ∨ lease.expiresAt ≤ releasedAt) → step env db op = db) ∧
    (∀ earlier lease later next op checkedAt releasedAt,
      leases env ops = earlier ++ lease :: later → next ∈ later →
      next.claim.organizationId = lease.claim.organizationId →
      op.Under lease.claim checkedAt releasedAt → step env db op = db) ∧
    (∀ before ending after result lease op checkedAt releasedAt,
      ops = before ++ ending :: after → lease ∈ leases env before →
      ending.Ends lease.claim.organizationId →
      perform env (run env {} before) ending = .ok result →
      op.Under lease.claim checkedAt releasedAt → step env db op = db) ∧
    (∀ organizationId, ∃ k, positionsOf organizationId (completions env ops) = positionsTo k) := by
  intro db
  have evident : db.Evident := run_evident env ops
  have accounts : db.books.Accounts (leases env ops) := run_accounts env ops
  refine ⟨?_, ?_, ?_, ?_, ?_, ?_⟩
  · rintro claim now ⟨db₁, _, work, _⟩ locked
    have owns := (lockTurn!_eq_ok locked).1
    obtain ⟨lease, member, rfl, holds⟩ := owns.lease accounts
    exact ⟨lease, member, rfl, holds.unexpired owns,
      fun _ member' own => holds.last accounts member member' own⟩
  · rintro _ _ ⟨_, _, _, _⟩ _ _ ⟨_, _, _, _⟩ locked locked' own
    obtain ⟨lease, member, rfl, holds⟩ := (lockTurn!_eq_ok locked).1.lease accounts
    obtain ⟨lease', member', rfl, holds'⟩ := (lockTurn!_eq_ok locked').1.lease accounts
    have version : lease.claim.laneVersion = lease'.claim.laneVersion := by
      rw [← holds.version, ← holds'.version, own]
    rw [accounts.eq_of_version member' member own version]
  · intro lease member op checkedAt releasedAt under expired
    rcases step_under evident under with same | ⟨work, checked, released⟩
    · exact same
    obtain ⟨lease', member', same, holds⟩ := checked.lease accounts
    have one : lease' = lease :=
      accounts.eq_of_version member member' (same ▸ rfl) (same ▸ rfl)
    subst one
    rcases expired with late | late
    · exact absurd (holds.unexpired checked) (not_lt.2 late)
    exact absurd (holds.unexpired released) (not_lt.2 late)
  · intro _ lease _ next op checkedAt releasedAt listed follows own under
    rcases step_under evident under with same | ⟨work, checked, _⟩
    · exact same
    have rising := accounts.rising
    rw [listed] at rising
    have newer := (pairwise_cons.1 (pairwise_append.1 rising).2.1).1 next follows own.symm
    have fenced := accounts.fenced next (by rw [listed]; simp [follows])
    rw [own, checked.version] at fenced
    exact absurd newer (not_lt.2 fenced)
  · rintro before ending after ⟨db₁, _⟩ lease _ _ _ rfl member ends done under
    rcases step_under evident under with same | ⟨_, checked, _⟩
    · exact same
    have fenced := (run_accounts env before).fenced lease member
    have raised := perform_ends (run_evident env before) ends done
    have stepped : step env (run env {} before) ending = db₁ := by
      rw [step, done]
      rfl
    have split : db = run env db₁ after := by
      show Run.run (step env) ({} : Db) (before ++ ending :: after) = _
      rw [Run.run_append, Run.run_cons, stepped]
    have kept := run_version_le env (stepped ▸ step_evident env ending
      (run_evident env before)) after lease.claim.organizationId
    rw [← split, checked.version] at kept
    omega
  intro organizationId
  obtain ⟨k, listed, _⟩ := run_inOrder env ops organizationId
  exact ⟨k, listed⟩

def plainEnv : Env where
  validateObservation := fun payload _ => .ok ⟨some "report", payload⟩
  observationErrors := fun _ => []
  digestPayload := fun _ => "digest"
  encodedSize := length
  trim := id

/-- One host, one claim that expires, and a second one that completes the work. -/
def reclaimed : List Op :=
  let key : IntakeApiKey := { id := 2, organizationId := 1, tokenHash := "hash" }
  let claim (token : Uuid) (laneVersion : ℤ) : Claim :=
    { organizationId := 1, workId := 11, token, laneVersion, generation := 0, checkpoint := 0,
      status := .pending }
  [.context (empty.add { id := 1, status := .active } rfl) (empty.add key rfl)
      (empty.add
        { id := 3, organizationId := 1, installationId := "host", sourceId := some 4 } rfl)
      (empty.add { id := 4, organizationId := 1, kind := "host_agent" } rfl),
    .admitWork 1 (some key) "host" 4 [] ⟨10, 10⟩ 10 11 0,
    .claimNext none 5 (fun _ => false) true false 20 0 0,
    .claimNext none 5 (fun _ => false) true false 21 6000 6000,
    .execute (claim 20 1) (fun _ _ => .complete .null) 6001 6002,
    .execute (claim 21 2) (fun _ _ => .complete .null) 6001 6002]

example : (leases plainEnv reclaimed).map (·.claim.laneVersion) = [1, 2] ∧
    positionsOf 1 (completions plainEnv (reclaimed.take 5)) = [] ∧
    positionsOf 1 (completions plainEnv reclaimed) = [1] :=
  ⟨rfl, rfl, rfl⟩

/-- **A lane is a queue.**  The work of an organization is about its own observations and is
numbered from one on, each number given once, and what the lane has claimed is the first of it
that has not succeeded. -/
theorem run_queues_work (env : Env) (ops : List Op) :
    let db := run env {} ops
    ∀ organizationId, (∀ n, 1 ≤ n → n ≤ (db.laneOf organizationId).position →
        ∃! work, work ∈ db.work ∧ work.organizationId = organizationId ∧ work.position = n) ∧
      (∀ work ∈ db.work, work.organizationId = organizationId → 1 ≤ work.position ∧
        work.position ≤ (db.laneOf organizationId).position ∧ ∃ observation,
          db.observations.get? work.observationId = some observation ∧
          observation.organizationId = organizationId) ∧
      ∀ workId, (db.laneOf organizationId).workId = some workId →
        ∃ work, db.books.Head work ∧ work.id = workId ∧ work.organizationId = organizationId := by
  intro db organizationId
  have numbered : db.books.Numbered := run_numbered env ops
  refine ⟨fun n positive within => ?_, ?_, run_inTurn env ops organizationId⟩
  · obtain ⟨work, stored, own, is⟩ := numbered.reached organizationId n positive within
    refine ⟨work, ⟨stored, own, is⟩, fun other ⟨stored', own', is'⟩ => ?_⟩
    exact numbered.apart other stored' work stored (own'.trans own.symm) (is'.trans is.symm)
  · rintro work stored rfl
    obtain ⟨positive, within⟩ := numbered.within work stored
    exact ⟨positive, within, run_evident env ops work stored⟩

end Renga.Reconciliation
