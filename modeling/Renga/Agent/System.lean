import Renga.Agent.Worker
import Renga.Jobs.Started

/-!
# Server, network and agents

The server's tables, the reports on their way to it, and any number of agent processes, each
with its record file.  A run over a list of events is any interleaving.
-/

namespace Renga.Agent

open Renga.Jobs (Env Db Op Reply Token Digest Report Job acceptance)

/-- An agent process: a worker pass with the jobs it has leased and the call of `handle`
it is in. -/
structure Process where
  records : JobRecords := {}
  /-- A pass is running: `JobRecords::open` has returned. -/
  active : Bool := false
  queue : List LeasedJob := []
  session : Option Session := none
  /-- The number of the report the session waits for. -/
  pending : Option ℕ := none

/-- A report on the network, with the installation that sent it. -/
structure Sent where
  organizationId : Uuid
  installationId : String
  report : Report

structure System where
  db : Db := {}
  processes : ℕ → Process := fun _ => {}
  sent : List Sent := []
  /-- The acknowledgements the server has sent, by the number of the report. -/
  answers : List (ℕ × Bool) := []
  /-- The digests of the tokens processes have leased under. -/
  issued : List Digest := []
  accepted : List (Uuid × Digest) := []
  invocations : List (Uuid × Digest) := []

inductive Event where
  | server (op : Op)
  | opened (p : ℕ)
  | lease (p : ℕ) (keys : List String) (limit : ℕ) (newToken : Uuid → Token)
      (skipped : Uuid → Bool) (now : Time) (delivered : Bool)
  | claim (p : ℕ) (request : Jobs.SignedLeases.Claim) (now : Time) (delivered : Bool)
  | handle (p : ℕ) (enabled : String → Option Capability) (now : Time) (disk : Persist)
      (current stillCurrent : Bool)
  | deliver (message : ℕ) (now : Time)
  | receive (p : ℕ) (cancelRequested current stillCurrent stopped : Bool)
      (completion : Option Completion) (now : Time) (disk : Persist)
  | fail (p : ℕ) (status : Option ℕ) (stopped : Bool) (completion : Option Completion)
      (now : Time) (disk : Persist)
  | supervise (p : ℕ) (stopped : Bool) (completion : Option Completion) (now : Time)
      (disk : Persist)
  | close (p : ℕ)
  | crash (p : ℕ)

variable (env : Env) (s : System) (p : ℕ)

def System.serve (op : Op) : System :=
  { s with db := Jobs.step env s.db op, accepted := s.accepted ++ acceptance env s.db op }

def System.set (process : Process) : System :=
  { s with processes := Function.update s.processes p process }

def leasedJob (job : Job) (token : Token) : LeasedJob :=
  { id := job.id
    capability := job.capabilityKey
    leaseToken := token
    leaseExpiresAt := job.leaseExpiresAt.getD 0
    timeoutMs := job.timeoutMs.toNat }

def leasedJobs : Reply → List LeasedJob
  | .leased leases => leases.map fun lease => leasedJob lease.1 lease.2
  | .claimed (.leased job token) => [leasedJob job token]
  | _ => []

/-- No lease among `jobs` has a token that has leased before, or that another has. -/
def freshTokens (jobs : List LeasedJob) : Prop :=
  (s.issued ++ jobs.map fun job => env.hashToken job.leaseToken).Nodup

instance (env : Env) (s : System) (jobs : List LeasedJob) : Decidable (freshTokens env s jobs) :=
  inferInstanceAs (Decidable (List.Nodup _))

/-- The request of a process that may lease jobs.  A request that fails, or whose answer
is lost, leaves the process as it is. -/
def System.request (op : Op) (delivered : Bool) : System :=
  match Jobs.perform env s.db op with
  | .error _ => s
  | .ok (_, reply) =>
    let jobs := leasedJobs reply
    if freshTokens env s jobs then
      let process := s.processes p
      let served := s.serve env op
      let served := { served with
        issued := s.issued ++ jobs.map fun job => env.hashToken job.leaseToken }
      if delivered then served.set p { process with queue := process.queue ++ jobs } else served
    else s

/-- The process after a move, with `queue` left to do.  The report it sends is the next on
the network. -/
def Process.after (process : Process) (sent : List Sent) (queue : List LeasedJob) (move : Move) :
    Process :=
  { process with
    records := move.records
    queue
    session := move.session
    pending := move.sends.map fun _ => sent.length }

def System.follow (identity : ℕ → Uuid × String) (s : System) (p : ℕ) (job : LeasedJob)
    (queue : List LeasedJob) (move : Move) : System :=
  let sends := move.sends.map fun report =>
    ({ organizationId := (identity p).1, installationId := (identity p).2, report } : Sent)
  { s with
    processes := Function.update s.processes p ((s.processes p).after s.sent queue move)
    sent := s.sent ++ sends.toList
    invocations := s.invocations ++
      if move.invokes then [(job.id, env.hashToken job.leaseToken)] else [] }

/-- What an event does.  An event that is not possible in `s` leaves it as it is. -/
def step (identity : ℕ → Uuid × String) (s : System) : Event → System
  | .server op => s.serve env op
  | .opened p =>
    let process := s.processes p
    if process.active then s
    else s.set p { process with active := true, records := process.records.reopen }
  | .lease p keys limit newToken skipped now delivered =>
    let process := s.processes p
    if process.active ∧ process.session.isNone ∧ process.queue.isEmpty then
      s.request env p (.leaseJobs (identity p).1 (identity p).2 keys limit newToken skipped now)
        delivered
    else s
  | .claim p request now delivered =>
    let process := s.processes p
    if process.active ∧ process.session.isNone then
      s.request env p (.claim (identity p).1 (identity p).2 request now) delivered
    else s
  | .handle p enabled now disk current stillCurrent =>
    let process := s.processes p
    match process.session, process.queue with
    | none, job :: queue =>
      s.follow env identity p job queue
        (Worker.handle enabled process.records job now disk current stillCurrent)
    | _, _ => s
  | .deliver message now =>
    match s.sent[message]? with
    | none => s
    | some sent =>
      let op : Op := .report sent.organizationId sent.installationId sent.report now
      match Jobs.perform env s.db op with
      | .ok (_, .job job) =>
        let served := s.serve env op
        { served with answers := s.answers ++ [(message, job.cancelRequestedAt.isSome)] }
      | _ => s
  | .receive p cancelRequested current stillCurrent stopped completion now disk =>
    let process := s.processes p
    match process.session, process.pending with
    | some session, some message =>
      if (message, cancelRequested) ∈ s.answers then
        s.follow env identity p session.job process.queue
          (Worker.answer process.records session (.ack cancelRequested) current stillCurrent stopped
            completion now disk)
      else s
    | _, _ => s
  | .fail p status stopped completion now disk =>
    let process := s.processes p
    match process.session, process.pending with
    | some session, some _ =>
      s.follow env identity p session.job process.queue
        (Worker.answer process.records session (.failed status) false false stopped completion now
          disk)
    | _, _ => s
  | .supervise p stopped completion now disk =>
    let process := s.processes p
    match process.session with
    | some session =>
      match session.phase with
      | .running supervision =>
        s.follow env identity p session.job process.queue
          (Worker.supervise process.records session supervision stopped completion now disk)
      | _ => s
    | none => s
  | .close p =>
    let process := s.processes p
    if process.session.isNone then s.set p { process with active := false, queue := [] } else s
  | .crash p =>
    let process := s.processes p
    s.set p { records := { records := [], file := process.records.file } }

abbrev run (env : Env) (identity : ℕ → Uuid × String) (s : System) (events : List Event) : System :=
  Run.run (step env identity) s events

end Renga.Agent
