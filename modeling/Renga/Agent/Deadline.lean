import Renga.Agent.Worker

/-!
# The result of a capability and the deadline of its job

The loop of `run` in `agent/src/jobs/worker.rs` beside the capability's thread, with the times
at which it reads the clock and looks into the channel; `Worker` has what it does otherwise.
The loop is left at the first of these points that decides (`left_loop`), and `run` returns
when the thread has ended too.
-/

namespace Renga.Agent.Deadline

open List

/-- What a capability's thread leaves in the channel, unless it hangs: it reads the clock and
then sends its result, or it panics. -/
inductive Sending where
  | returned (completedAt sentAt : Time) (ordered : completedAt ≤ sentAt)
    (result : Except JobFailure Json)
  | disconnected (sentAt : Time)

/-- When the channel has it. -/
def Sending.sentAt : Sending → Time
  | .returned _ sentAt _ _ => sentAt
  | .disconnected sentAt => sentAt

/-- What the supervisor hears of it. -/
def Sending.completion : Sending → Completion
  | .returned completedAt _ _ result => .returned completedAt result
  | .disconnected _ => .disconnected

/-- What a pass of the loop meets: whether the agent is stopping, the clock at the top and
after a heartbeat, and the times of `try_recv` and of the last look of `recv_timeout`. -/
structure Pass where
  stopped : Bool := false
  clock : Time
  stoppedAfter : Bool := false
  answeredAt : Time
  triedAt : Time
  polledAt : Time
  later : triedAt ≤ polledAt

/-- How the loop is left: `return None`, or `break` with the result that was received, with a
timeout, or because the channel is closed. -/
inductive Exit where
  | stops
  | received (result : Except JobFailure Json)
  | timedOut
  | disconnected

/-- The result the loop breaks with. -/
def Exit.result (timeout : Time) : Exit → Option (Except JobFailure Json)
  | .stops => none
  | .received result => some result
  | .timedOut => some (timeoutFailure timeout)
  | .disconnected => some (.error (.failed "the capability stopped unexpectedly"))

section

variable (thread : Option Sending) (deadline : Time)

/-- What the channel holds at a time. -/
def received (time : Time) : Option Sending := thread.filter (·.sentAt ≤ time)

/-- The arms for a message and for a closed channel. -/
def judge : Sending → Exit
  | .returned completedAt _ _ result =>
    if completedAt ≤ deadline then .received result else .timedOut
  | .disconnected _ => .disconnected

/-- `recv_timeout`, at the end of a pass. -/
def wait (p : Pass) (nextHeartbeat : Time) : Except Exit Time :=
  match received thread p.polledAt with
  | some sending => .error (judge deadline sending)
  | none => .ok nextHeartbeat

/-- One pass of the loop; it returns the time of the next heartbeat. -/
def pass (nextHeartbeat : Time) (p : Pass) : Except Exit Time :=
  if p.stopped then .error .stops
  else if deadline ≤ p.clock then .error .timedOut
  else if nextHeartbeat ≤ p.clock then
    if p.stoppedAfter then .error .stops
    else
      match received thread p.triedAt with
      | some sending => .error (judge deadline sending)
      | none =>
        if deadline ≤ p.answeredAt then .error .timedOut
        else wait thread deadline p (p.answeredAt + heartbeat)
  else wait thread deadline p nextHeartbeat

/-- The loop over its passes: how it was left, or that it still runs. -/
def loop (nextHeartbeat : Time) (passes : List Pass) : Except Exit Time :=
  passes.foldlM (pass thread deadline) nextHeartbeat

/-- How the loop was left, if it was. -/
def left : Except Exit Time → Option Exit
  | .error exit => some exit
  | .ok _ => none

/-- `run`, which joins the thread before it returns: one that hangs is waited for without end. -/
def run (nextHeartbeat : Time) (passes : List Pass) : Option Exit :=
  if thread.isSome then left (loop thread deadline nextHeartbeat passes) else none

/-! ### The points that decide -/

/-- Where the loop asks whether the agent is stopping, compares the clock with the deadline or
looks into the channel. -/
inductive Check where
  | stop (asked : Bool)
  | clock (now : Time)
  | look (time : Time)

end

/-- A look that finds what was sent. -/
@[simp] def Check.Sees (sentAt : Time) : Check → Prop
  | .look time => sentAt ≤ time
  | _ => False

/-- Some check is good, and none before it is bad. -/
def Before (good bad : Check → Prop) (checks : List Check) : Prop :=
  ∃ before check after, checks = before ++ check :: after ∧ good check ∧
    ∀ other ∈ before, ¬ bad other

variable {thread : Option Sending} {deadline nextHeartbeat : Time} {passes : List Pass}
  {sending : Sending} {check : Check}

theorem Before.congr {good bad good' bad' : Check → Prop} {checks : List Check}
    (goods : ∀ check, good check ↔ good' check) (bads : ∀ check, bad check ↔ bad' check) :
    Before good bad checks ↔ Before good' bad' checks := by
  simp only [Before, goods, bads]

/-- A job whose deadline is 1000.  The first pass waits from 700 to 950 and finds the channel
empty; the result is sent at 990; the second pass begins at 1001. -/
def late : List Pass :=
  [⟨false, 700, false, 700, 700, 950, by decide⟩, ⟨false, 1001, false, 1001, 1001, 1001, le_rfl⟩]

section

variable (records : JobRecords) (session : Session) (supervision : Supervision) (now : Time)
  (disk : Persist)

/-- What the worker does after a pass: it goes on supervising, or ends the session with the
result. -/
def carryOut : Except Exit Time → Move
  | .ok next =>
    { records
      session := some { session with
        phase := .running { supervision with nextHeartbeat := next } } }
  | .error exit =>
    match exit.result supervision.timeout with
    | some result => Worker.conclude records session supervision result now disk
    | none => { records }

/-- What the supervisor hears at a time. -/
def heard (thread : Option Sending) (time : Time) : Option Completion :=
  (received thread time).map Sending.completion

variable {records session supervision now disk} {p : Pass}

theorem await_carries_out {found : Option Sending} :
    Worker.await records session supervision (found.map Sending.completion) now disk
      = carryOut records session supervision now disk (match found with
        | some sending => .error (judge supervision.deadline sending)
        | none => .ok supervision.nextHeartbeat) := by
  cases found with
  | none => rfl
  | some sending =>
    cases sending with
    | returned completedAt _ _ result =>
      show (if completedAt ≤ supervision.deadline then _ else _)
        = carryOut _ _ _ _ _ (.error (if _ then _ else _))
      split <;> rfl
    | disconnected => rfl

theorem received_later (sent : received thread p.triedAt = some sending) :
    received thread p.polledAt = some sending := by
  obtain ⟨is, early⟩ := Option.filter_eq_some_iff.1 sent
  rw [decide_eq_true_eq] at early
  exact Option.filter_eq_some_iff.2 ⟨is, decide_eq_true (early.trans p.later)⟩

/-- **The session follows the loop.**  A pass without a heartbeat does what `Worker.supervise` does,
and one with a heartbeat what `Worker.afterHeartbeat` does once the answer is there. -/
theorem session_follows_pass (thread : Option Sending) (p : Pass) :
    (p.clock < supervision.nextHeartbeat → ∃ session' supervision',
      Worker.supervise records session supervision p.stopped (heard thread p.polledAt) p.clock disk
        = carryOut records session' supervision' p.clock disk
          (pass thread supervision.deadline supervision.nextHeartbeat p)) ∧
    (supervision.nextHeartbeat ≤ p.clock → p.stopped = false → p.clock < supervision.deadline →
      ∀ ack, ∃ supervision',
        Worker.afterHeartbeat records session supervision ack p.stoppedAfter
            (heard thread (if supervision.deadline ≤ p.answeredAt then p.triedAt else p.polledAt))
            p.answeredAt disk
          = carryOut records session supervision' p.answeredAt disk
            (pass thread supervision.deadline supervision.nextHeartbeat p)) := by
  constructor
  · intro early
    rw [pass, Worker.supervise]
    by_cases stopped : p.stopped = true
    · rw [if_pos stopped, if_pos stopped]
      exact ⟨session, supervision, rfl⟩
    rw [if_neg stopped, if_neg stopped]
    by_cases late : supervision.deadline ≤ p.clock
    · rw [if_pos late, if_pos late]
      exact ⟨_, _, rfl⟩
    rw [if_neg late, if_neg late, if_neg (not_le.2 early), if_neg (not_le.2 early)]
    exact ⟨_, _, await_carries_out⟩
  intro due running early ack
  have going : ¬ p.stopped = true := by simp [running]
  rw [pass, if_neg going, if_neg (not_le.2 early), if_pos due, Worker.afterHeartbeat]
  by_cases stopped : p.stoppedAfter = true
  · rw [if_pos stopped, if_pos stopped]
    exact ⟨supervision, rfl⟩
  rw [if_neg stopped, if_neg stopped]
  by_cases late : supervision.deadline ≤ p.answeredAt
  · rw [if_pos late, heard]
    cases received thread p.triedAt with
    | none =>
      dsimp only
      rw [if_pos late]
      exact ⟨_, if_pos ⟨rfl, late⟩⟩
    | some => exact ⟨_, (if_neg (by simp)).trans await_carries_out⟩
  rw [if_neg late, heard]
  -- What was there for `try_recv` is there for `recv_timeout`.
  cases sent : received thread p.triedAt with
  | none =>
    dsimp only
    rw [if_neg late]
    exact ⟨_, (if_neg fun both => late both.2).trans await_carries_out⟩
  | some =>
    rw [received_later sent]
    exact ⟨_, (if_neg fun both => late both.2).trans await_carries_out⟩

end

end Renga.Agent.Deadline
