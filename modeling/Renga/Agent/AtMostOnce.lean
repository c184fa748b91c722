import Renga.Agent.System
import Renga.Lib.Tickets

/-!
# A capability runs at most once

An `imperative` job must not run twice, whatever is lost, repeated or restarted.  The agent
invokes a capability only with the acknowledgement of its own `started` report, and it does that
once for each lease: a lease is a ticket (`Tickets.Valid`) that is with one process and is gone
when the process crashes or the capability runs.
-/

namespace Renga.Agent

open List Option

open Renga.Jobs (Env Db Op Reply Token Digest Report Job acceptance Accounted)

variable {env : Env} {identity : ℕ → Uuid × String} {s : System} {p : ℕ}

/-! ### Leases as tickets -/

/-- The digest a call of `handle` may still start a capability under. -/
def Session.unspent (env : Env) (session : Session) : List Digest :=
  match session.phase with
  | .starting _ => [env.hashToken session.job.leaseToken]
  | _ => []

def Process.unspent (env : Env) (process : Process) : List Digest :=
  process.session.elim [] (Session.unspent env) ++
    process.queue.map fun job => env.hashToken job.leaseToken

variable {session : Session}

theorem Session.unspent_of_starting (starting : session.Starting) :
    session.unspent env = [env.hashToken session.job.leaseToken] := by
  obtain ⟨_, starting⟩ := starting
  rw [unspent, starting]

theorem Session.unspent_of_not_starting (settled : ¬ session.Starting) :
    session.unspent env = [] := by
  unfold unspent
  split
  · rename_i capability starting
    exact absurd ⟨capability, starting⟩ settled
  · rfl

variable {process : Process}

theorem Process.unspent_of_settled
    (settled : ∀ session, process.session = some session → ¬ session.Starting) :
    process.unspent env = process.queue.map fun job => env.hashToken job.leaseToken := by
  cases session : process.session with
  | none => rw [unspent, session, elim_none, nil_append]
  | some session_ =>
    rw [unspent, session, elim_some,
      Session.unspent_of_not_starting (settled session_ session), nil_append]

variable {processes : ℕ → Process}

theorem unspent_update :
    (fun q => (Function.update processes p process q).unspent env)
      = Function.update (fun q => (processes q).unspent env) p (process.unspent env) := by
  funext q
  exact Function.apply_update (fun _ => Process.unspent env) processes p process q

/-! ### The invariant -/

/-- A call that waits for the answer to `started` has sent that report for its job under
its token, and the job is on file. -/
structure Session.Announced (sent : List Sent) (pending : Option ℕ) (file : List JobRecord)
    (session : Session) : Prop where
  message : ∀ number, pending = some number → ∃ message, sent[number]? = some message ∧
    message.report.type = .started ∧ message.report.jobId = session.job.id ∧
    message.report.token = session.job.leaseToken
  recorded : ∃ record ∈ file, record.jobId = session.job.id ∧ record.outcome = none

/-- The call the process is in, if it waits for the answer to `started`, is announced. -/
def Process.Announced (sent : List Sent) (process : Process) : Prop :=
  ∀ session, process.session = some session → session.Starting →
    session.Announced sent process.pending process.records.file

structure System.Sound (env : Env) (s : System) : Prop where
  accounted : Accounted s.db s.accepted
  tickets : Tickets.Valid s.issued (s.invocations.map Prod.snd)
    (fun p => (s.processes p).unspent env)
  announced : ∀ p, (s.processes p).Announced s.sent
  answered : ∀ answer ∈ s.answers, ∃ message, s.sent[answer.1]? = some message ∧
    (message.report.type = .started →
      (message.report.jobId, env.hashToken message.report.token) ∈ s.accepted)
  invoked : ∀ entry ∈ s.invocations, entry ∈ s.accepted

theorem sound_empty : System.Sound env {} where
  accounted := Jobs.accounted_empty
  tickets := Tickets.valid_nil
  announced := fun _ _ none_ => by cases none_
  answered := fun _ member => by cases member
  invoked := fun _ member => by cases member

/-! ### What an event can do -/

inductive Does (env : Env) (identity : ℕ → Uuid × String) (s : System) : System → Prop
  | idle : Does env identity s s
  | served (op : Op) : Does env identity s (s.serve env op)
  | requested (p : ℕ) (op : Op) (delivered : Bool) :
      Does env identity s (s.request env p op delivered)
  /-- A process keeps its call or loses it, and keeps some of its queue. -/
  | placed {p : ℕ} {process : Process}
      (session : process.session = (s.processes p).session ∧
        process.pending = (s.processes p).pending ∨ process.session = none)
      (queue : process.queue.Sublist (s.processes p).queue)
      (file : process.records.file = (s.processes p).records.file) :
      Does env identity s (s.set p process)
  /-- A process takes the next job from its queue. -/
  | handled {p : ℕ} {job : LeasedJob} {queue : List LeasedJob} {move : Move}
      (idle : (s.processes p).session = none) (next : (s.processes p).queue = job :: queue)
      (handled : move.Quiet ∨ move.Announces job) :
      Does env identity s (s.follow env identity p job queue move)
  /-- A process goes on with its call, with an answer or without one. -/
  | answered {p : ℕ} {session : Session} {move : Move}
      (found : (s.processes p).session = some session)
      (answered : move.Quiet ∨ session.Starting ∧
        (∃ number cancelRequested, (s.processes p).pending = some number ∧
          (number, cancelRequested) ∈ s.answers) ∧
        ∀ later, move.session = some later → ¬ later.Starting) :
      Does env identity s (s.follow env identity p session.job (s.processes p).queue move)
  /-- The server gets a report and acknowledges it. -/
  | delivered {number : ℕ} {sent : Sent} {now : Time} (cancelRequested : Bool) {db' : Db}
      {job : Job} (found : s.sent[number]? = some sent)
      (performed : Jobs.perform env s.db
        (.report sent.organizationId sent.installationId sent.report now) = .ok (db', .job job)) :
      Does env identity s { s.serve env (.report sent.organizationId sent.installationId
        sent.report now) with answers := s.answers ++ [(number, cancelRequested)] }

theorem step_does (env : Env) (identity : ℕ → Uuid × String) (s : System) (event : Event) :
    Does env identity s (step env identity s event) := by
  cases event with
  | server op => exact .served op
  | opened =>
    rw [step]
    split
    · exact .idle
    · exact .placed (.inl ⟨rfl, rfl⟩) (List.Sublist.refl _) rfl
  | lease p _ _ _ _ _ delivered =>
    rw [step]
    split
    · exact .requested p _ delivered
    · exact .idle
  | claim p _ _ delivered =>
    rw [step]
    split
    · exact .requested p _ delivered
    · exact .idle
  | handle =>
    rw [step]
    split
    · rename_i job queue idle next
      exact .handled idle next (Worker.handle_announces ..)
    · exact .idle
  | deliver =>
    rw [step]
    split
    · exact .idle
    rename_i sent found
    dsimp only
    split
    · rename_i db' job performed
      exact .delivered _ found performed
    · exact .idle
  | receive _ cancelRequested =>
    rw [step]
    split
    · rename_i session number found pending
      split
      · rename_i acknowledged
        refine .answered found ?_
        refine (Worker.answer_starts ..).imp_right fun starts => ?_
        exact ⟨starts.1, ⟨number, cancelRequested, pending, acknowledged⟩, starts.2.2⟩
      · exact .idle
    · exact .idle
  | fail =>
    rw [step]
    split
    · rename_i session number found pending
      refine .answered found ?_
      refine (Worker.answer_starts ..).imp_right fun starts => ?_
      obtain ⟨_, ⟨_, acknowledged⟩, _⟩ := starts
      cases acknowledged
    · exact .idle
  | supervise =>
    rw [step]
    split
    · rename_i session found
      split
      · exact .answered found (.inl (Worker.supervise_quiet ..))
      · exact .idle
    · exact .idle
  | close =>
    rw [step]
    split
    · exact .placed (.inl ⟨rfl, rfl⟩) (nil_sublist _) rfl
    · exact .idle
  | crash => exact .placed (.inr rfl) (nil_sublist _) rfl

/-! ### What each of them keeps -/

theorem System.Sound.serve (sound : s.Sound env) (op : Op) : (s.serve env op).Sound env where
  accounted := Jobs.step_accounted sound.accounted
  tickets := sound.tickets
  announced := sound.announced
  answered := by
    intro answer member
    obtain ⟨message, sent, started⟩ := sound.answered answer member
    exact ⟨message, sent, fun type => mem_append_left _ (started type)⟩
  invoked := fun entry member => mem_append_left _ (sound.invoked entry member)

variable {sent : List Sent}

theorem announced_update (others : ∀ q, (processes q).Announced sent)
    (own : process.Announced sent) (q : ℕ) :
    (Function.update processes p process q).Announced sent := by
  by_cases same : q = p
  · subst same
    rw [Function.update_self]
    exact own
  rw [Function.update_of_ne same]
  exact others q

theorem System.Sound.set (sound : s.Sound env)
    (kept : (process.unspent env).Sublist ((s.processes p).unspent env))
    (announced : process.Announced s.sent) : (s.set p process).Sound env := by
  have dropped := sound.tickets.drop kept
  rw [← unspent_update] at dropped
  exact { sound with
    tickets := dropped
    announced := announced_update sound.announced announced }

variable {op : Op} {delivered : Bool}

theorem System.Sound.request (sound : s.Sound env) : (s.request env p op delivered).Sound env := by
  unfold System.request
  split
  · exact sound
  rename_i db' reply performed
  dsimp only
  split
  · rename_i fresh
    have served := sound.serve op
    split
    · refine ⟨served.accounted, ?_, announced_update served.announced (served.announced p),
        served.answered, served.invoked⟩
      have issued := sound.tickets.issue p fresh
      have grown : ({ s.processes p with queue := (s.processes p).queue ++ leasedJobs reply } :
          Process).unspent env = (s.processes p).unspent env ++
            (leasedJobs reply).map fun job => env.hashToken job.leaseToken := by
        simp only [Process.unspent, map_append, append_assoc]
      rw [← grown, ← unspent_update] at issued
      exact issued
    exact { served with tickets := served.tickets.issue_lost }
  · exact sound

theorem getElem?_append_some {α : Type} {first : List α} {second : List α} {i : ℕ} {a : α}
    (found : first[i]? = some a) : (first ++ second)[i]? = some a := by
  rw [getElem?_append_left (List.getElem?_eq_some_iff.1 found).1, found]

theorem Process.Announced.append (announced : process.Announced sent) {later : List Sent} :
    process.Announced (sent ++ later) := by
  intro session found starting
  refine ⟨fun number pending => ?_, (announced session found starting).recorded⟩
  obtain ⟨message, stored, facts⟩ := (announced session found starting).message number pending
  exact ⟨message, getElem?_append_some stored, facts⟩

variable {job : LeasedJob} {queue : List LeasedJob} {move : Move} (sound : s.Sound env)
include sound

theorem System.Sound.follow (tickets : Tickets.Valid s.issued
      (s.invocations.map Prod.snd ++ if move.invokes then [env.hashToken job.leaseToken] else [])
      (Function.update (fun q => (s.processes q).unspent env) p
        (((s.processes p).after s.sent queue move).unspent env)))
    (announced : ∀ session, move.session = some session → session.Starting →
      move.Announces session.job)
    (accepted : move.invokes = true → (job.id, env.hashToken job.leaseToken) ∈ s.accepted) :
    (s.follow env identity p job queue move).Sound env where
  accounted := sound.accounted
  tickets := by
    rw [← unspent_update] at tickets
    have spent : (s.follow env identity p job queue move).invocations.map Prod.snd
        = s.invocations.map Prod.snd ++
          if move.invokes then [env.hashToken job.leaseToken] else [] := by
      rw [System.follow, map_append]
      split <;> rfl
    rw [spent]
    exact tickets
  announced := by
    refine announced_update (fun q => (sound.announced q).append) ?_
    intro session found starting
    obtain ⟨report, sends, type, own, token⟩ := (announced session found starting).sends
    refine ⟨fun _ pending => ?_, (announced session found starting).recorded⟩
    rw [Process.after, sends] at pending
    cases pending
    have last : (s.follow env identity p job queue move).sent
        = s.sent ++ [⟨(identity p).1, (identity p).2, report⟩] := by
      rw [System.follow, sends]
      rfl
    refine ⟨⟨(identity p).1, (identity p).2, report⟩, ?_, type, own, token⟩
    rw [last]
    exact getElem?_concat_length
  answered := by
    intro answer member
    obtain ⟨message, sent, started⟩ := sound.answered answer member
    exact ⟨message, getElem?_append_some sent, started⟩
  invoked := by
    intro entry member
    rcases mem_append.1 member with old | new
    · exact sound.invoked entry old
    split at new
    · rename_i invokes
      rw [mem_singleton.1 new]
      exact accepted invokes
    · cases new

theorem System.Sound.follow_quiet (quiet : move.Quiet)
    (rest : queue.Sublist (s.processes p).queue) :
    (s.follow env identity p job queue move).Sound env := by
  have unspent : ((s.processes p).after s.sent queue move).unspent env
      = queue.map fun job => env.hashToken job.leaseToken :=
    Process.unspent_of_settled quiet.settled
  refine sound.follow ?_ (fun session found starting => absurd starting
    (quiet.settled session found)) (fun invokes => by rw [quiet.silent] at invokes; cases invokes)
  rw [quiet.silent, if_neg Bool.false_ne_true, append_nil, unspent]
  exact sound.tickets.drop ((rest.map _).trans (sublist_append_right _ _))

theorem System.Sound.follow_handle (idle : (s.processes p).session = none)
    (next : (s.processes p).queue = job :: queue) (handled : move.Quiet ∨ move.Announces job) :
    (s.follow env identity p job queue move).Sound env := by
  rcases handled with quiet | announces
  · exact sound.follow_quiet quiet (next ▸ sublist_cons_self job queue)
  refine sound.follow ?_ (fun session found _ => announces.own session found ▸ announces)
    (fun invokes => by rw [announces.silent] at invokes; cases invokes)
  rw [announces.silent, if_neg Bool.false_ne_true, append_nil]
  refine sound.tickets.drop ?_
  -- The lease moves from the queue to the call that waits for the acknowledgement.
  have before : (s.processes p).unspent env = [env.hashToken job.leaseToken] ++
      queue.map fun job => env.hashToken job.leaseToken := by
    rw [Process.unspent, idle, next]
    rfl
  rw [before]
  refine List.Sublist.append ?_ (List.Sublist.refl _)
  change (move.session.elim [] (Session.unspent env)).Sublist _
  cases session : move.session with
  | none => exact nil_sublist _
  | some session_ =>
    by_cases starting : session_.Starting
    · rw [elim_some, Session.unspent_of_starting starting, announces.own session_ session]
    rw [elim_some, Session.unspent_of_not_starting starting]
    exact nil_sublist _

theorem System.Sound.follow_answer
    (found : (s.processes p).session = some session) (answered : move.Quiet ∨ session.Starting ∧
      (session.job.id, env.hashToken session.job.leaseToken) ∈ s.accepted ∧
      ∀ after, move.session = some after → ¬ after.Starting) :
    (s.follow env identity p session.job (s.processes p).queue move).Sound env := by
  rcases answered with quiet | ⟨starting, accepted, settled⟩
  · exact sound.follow_quiet quiet (List.Sublist.refl _)
  refine sound.follow ?_ (fun after same again => absurd again (settled after same))
    (fun _ => accepted)
  have before : (s.processes p).unspent env = env.hashToken session.job.leaseToken ::
      (s.processes p).queue.map fun job => env.hashToken job.leaseToken := by
    rw [Process.unspent, found, elim_some, Session.unspent_of_starting starting]
    rfl
  have after : ((s.processes p).after s.sent (s.processes p).queue move).unspent env
      = (s.processes p).queue.map fun job => env.hashToken job.leaseToken :=
    Process.unspent_of_settled settled
  rw [after]
  split
  · exact sound.tickets.spend before
  rw [append_nil]
  exact sound.tickets.drop (before ▸ sublist_cons_self _ _)

variable {number : ℕ} {cancelRequested : Bool}

theorem System.Sound.deliver {sent : Sent} {now : Time} {db' : Db} {job : Job}
    (found : s.sent[number]? = some sent) (performed : Jobs.perform env s.db
      (.report sent.organizationId sent.installationId sent.report now) = .ok (db', .job job)) :
    System.Sound env { s.serve env (.report sent.organizationId sent.installationId sent.report
      now) with answers := s.answers ++ [(number, cancelRequested)] } := by
  have served := sound.serve (.report sent.organizationId sent.installationId sent.report now)
  refine { served with answered := ?_ }
  intro answer member
  rcases mem_append.1 member with old | new
  · exact served.answered answer old
  rw [mem_singleton.1 new]
  exact ⟨sent, found, fun type => sound.accounted.acknowledged type performed⟩

theorem System.Sound.accepted_of_answer (found : (s.processes p).session = some session)
    (starting : session.Starting) (pending : (s.processes p).pending = some number)
    (answered : (number, cancelRequested) ∈ s.answers) :
    (session.job.id, env.hashToken session.job.leaseToken) ∈ s.accepted := by
  obtain ⟨_, sent, type, own, token⟩ :=
    (sound.announced p session found starting).message number pending
  obtain ⟨_, sent', accepted⟩ := sound.answered _ answered
  cases sent.symm.trans sent'
  rw [← own, ← token]
  exact accepted type

omit sound

theorem step_sound {event : Event} (sound : s.Sound env) :
    (step env identity s event).Sound env := by
  have does := step_does env identity s event
  generalize step env identity s event = after at does ⊢
  cases does with
  | idle => exact sound
  | served op => exact sound.serve op
  | requested => exact sound.request
  | @placed p _ session queue file =>
    refine sound.set ?_ ?_
    · rcases session with ⟨kept, _⟩ | lost
      · rw [Process.unspent, Process.unspent, kept]
        exact (List.Sublist.refl _).append (queue.map _)
      rw [Process.unspent, lost]
      exact (queue.map _).trans (sublist_append_right _ _)
    intro session_ found starting
    rcases session with ⟨kept, pending⟩ | lost
    · rw [pending, file]
      exact sound.announced p session_ (kept ▸ found) starting
    rw [lost] at found
    cases found
  | handled idle next handled => exact sound.follow_handle idle next handled
  | answered found answered =>
    refine sound.follow_answer found (answered.imp_right fun starts => ?_)
    obtain ⟨starting, ⟨_, cancelRequested, pending, acknowledged⟩, settled⟩ := starts
    exact ⟨starting, sound.accepted_of_answer found starting pending acknowledged, settled⟩
  | delivered _ found performed =>
    exact sound.deliver found performed

theorem run_sound {events : List Event} : (run env identity {} events).Sound env :=
  Run.run_invariant (fun _ _ sound => step_sound sound) sound_empty events

/-! ### Invocations -/

theorem follow_silent (silent : move.invokes = false) :
    (s.follow env identity p job queue move).invocations = s.invocations := by
  rw [System.follow, silent, if_neg Bool.false_ne_true, append_nil]

theorem request_invocations : (s.request env p op delivered).invocations = s.invocations := by
  unfold System.request
  split
  · rfl
  dsimp only
  split
  · split <;> rfl
  · rfl

/-- The capability of a job may be invoked: the server has accepted the start, and the
job is on file with a process. -/
structure Invokes (s : System) (entry : Uuid × Digest) : Prop where
  accepted : entry ∈ s.accepted
  recorded : ∃ p, ∃ record ∈ (s.processes p).records.file,
    record.jobId = entry.1 ∧ record.outcome = none

theorem step_invokes (identity : ℕ → Uuid × String) (event : Event) (sound : s.Sound env) :
    (step env identity s event).invocations = s.invocations ∨
      ∃ entry, (step env identity s event).invocations = s.invocations ++ [entry] ∧
        Invokes s entry := by
  have does := step_does env identity s event
  generalize step env identity s event = after at does ⊢
  cases does with
  | idle | served => exact .inl rfl
  | requested => exact .inl request_invocations
  | placed => exact .inl rfl
  | handled _ _ handled =>
    exact .inl (follow_silent (handled.elim (fun h => h.silent) fun h => h.silent))
  | @answered p session move found answered =>
    rcases answered with quiet | ⟨starting, ⟨_, _, pending, acknowledged⟩, _⟩
    · exact .inl (follow_silent quiet.silent)
    cases invokes : move.invokes with
    | false => exact .inl (follow_silent invokes)
    | true =>
      refine .inr ⟨(session.job.id, env.hashToken session.job.leaseToken), ?_, ?_, p, ?_⟩
      · rw [System.follow, invokes, if_pos rfl]
      · exact sound.accepted_of_answer found starting pending acknowledged
      · exact (sound.announced p session found starting).recorded
  | delivered => exact .inl rfl

theorem step_accepted (identity : ℕ → Uuid × String) (event : Event) :
    (step env identity s event).accepted = s.accepted ∨
      ∃ op, (step env identity s event).accepted = s.accepted ++ acceptance env s.db op := by
  have does := step_does env identity s event
  generalize step env identity s event = after at does ⊢
  cases does with
  | idle => exact .inl rfl
  | served op => exact .inr ⟨op, rfl⟩
  | requested _ op =>
    rw [System.request]
    split
    · exact .inl rfl
    dsimp only
    split
    · refine .inr ⟨op, ?_⟩
      split <;> rfl
    · exact .inl rfl
  | placed | handled | answered => exact .inl rfl
  | delivered => exact .inr ⟨_, rfl⟩

/-- Whatever is lost, repeated, delayed or restarted, and however the operations of the
server interleave with the moves of the agents: the capability of an imperative job is
invoked at most once.  It is invoked only after the server has accepted `started`, with
the job on file; `started` is accepted only under a held lease; and once a `started`
event exists, a job of this installation is neither `queued` nor `leased`. -/
theorem run_invokes_at_most_once (env : Env) (identity : ℕ → Uuid × String) (events : List Event) :
    let s := run env identity {} events
    (∀ job ∈ s.db.jobs, job.retryClass = .imperative →
      (s.invocations.filter fun entry => entry.1 = job.id).length ≤ 1) ∧
    (∀ event, ∀ entry ∈ (step env identity s event).invocations,
      entry ∈ s.invocations ∨ Invokes s entry) ∧
    (∀ event, ∀ entry ∈ (step env identity s event).accepted, entry ∈ s.accepted ∨
        ∃ op job, Jobs.Starts env s.db job entry.2 op ∧ job.id = entry.1) ∧
    (∀ entry ∈ s.accepted, Jobs.Started (s.db.eventsOf entry.1)) ∧
    (∀ job ∈ s.db.jobs, job.importedAt = none → job.retryClass = .imperative →
      Jobs.Started (s.db.eventsOf job.id) → job.state ≠ .queued ∧ job.state ≠ .leased) := by
  intro s
  have sound : s.Sound env := run_sound
  refine ⟨?_, ?_, ?_, ?_, ?_⟩
  · intro job stored imperative
    have once : Jobs.startsOf job.id s.accepted ≤ 1 :=
      sound.accounted.once job.id job (KeyTable.get?_of_mem stored) imperative
    have nodup : s.invocations.Nodup := List.Nodup.of_map _ sound.tickets.spent_nodup
    have within : s.invocations.filter (fun entry => entry.1 = job.id)
        ⊆ s.accepted.filter fun entry => entry.1 = job.id := by
      intro entry member
      obtain ⟨invoked, own⟩ := mem_filter.1 member
      exact mem_filter.2 ⟨sound.invoked entry invoked, own⟩
    exact (subperm_of_subset (nodup.filter _) within).length_le.trans once
  · intro event entry member
    rcases step_invokes identity event sound with same | ⟨new, grown, invokes⟩
    · exact .inl (same ▸ member)
    rw [grown] at member
    rcases mem_append.1 member with old | last
    · exact .inl old
    rw [mem_singleton.1 last]
    exact .inr invokes
  · intro event entry member
    rcases step_accepted identity event with same | ⟨op, grown⟩
    · exact .inl (same ▸ member)
    rw [grown] at member
    refine (mem_append.1 member).imp_right fun new => ?_
    obtain ⟨job, own, starts⟩ := Jobs.starts_of_mem_acceptance new
    exact ⟨op, job, starts, own⟩
  · intro entry member
    obtain ⟨_, _, _, started⟩ := sound.accounted.started entry.1 entry.2 member
    exact started
  intro job stored native imperative started
  have good := (sound.accounted.rows job stored native).good imperative started
  exact ⟨fun queued => good (.inl queued), fun leased => good (.inr leased)⟩

def probe : Jobs.Capability where
  name := "host.probe"
  version := 1
  riskClass := .observe
  retryClass := .imperative
  timeoutMs := 1000
  parametersChangeset := .ok
  resultChangeset := .ok

def probeEnv : Env where
  registry := [probe]
  hashToken := id
  slice := fun note _ => note
  sliced := Jobs.sliced_whole
  stringify := id
  verify := fun _ _ _ => false
  fingerprint := fun _ => "f"

def probeHost : Jobs.Agent where
  id := 2
  organizationId := 1
  installationId := "a"
  sourceId := none
  capabilities := ["host.probe@1"]

/-- A job is requested, leased, reported as started and run; then the agent crashes. -/
def probeEvents : List Event :=
  [.server (.createOrganization 1 60),
    .server (.inventory (KeyTable.empty.add probeHost rfl) [] []),
    .server (.createSystemJob 1 2 "host.probe@1" [] {} 8 0),
    .opened 0,
    .lease 0 ["host.probe@1"] 1 (fun _ => "t") (fun _ => false) 0 true,
    .handle 0 (fun _ => some ⟨.imperative, 1000⟩) 1 .written true true,
    .deliver 0 2,
    .receive 0 false true true false none 3 .written,
    .crash 0]

example : (run probeEnv (fun _ => (1, "a")) {} probeEvents).invocations = [(8, "t")] := by rfl

/-- **No acknowledgement is invented.**  Whatever is lost, repeated or delayed, the server answers
only reports that were sent, and where it has answered a `started`, the job is one of this
installation and the start is in its history. -/
theorem run_answers_truthfully (env : Env) (identity : ℕ → Uuid × String) (events : List Event) :
    let s := run env identity {} events
    ∀ answer ∈ s.answers, ∃ message, s.sent[answer.1]? = some message ∧
      (message.report.type = .started → ∃ job, s.db.jobs.get? message.report.jobId = some job ∧
        job.importedAt = none ∧ Jobs.Started (s.db.eventsOf message.report.jobId)) := by
  intro s answer given
  have sound : s.Sound env := run_sound
  obtain ⟨message, sent, accepted⟩ := sound.answered answer given
  exact ⟨message, sent, fun starting => sound.accounted.started _ _ (accepted starting)⟩

end Renga.Agent
