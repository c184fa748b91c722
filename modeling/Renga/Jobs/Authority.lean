import Renga.Jobs.Imported
import Renga.Jobs.LeaseMessage

/-!
# Who may lease a privileged job

A job that is not `observe` runs only under the target binding it was requested under.  The job
row carries the current offer, the binding row says which installation may run the resource's
jobs, and the key row says with which key that installation signs.
-/

namespace Renga.Jobs

open KeyTable Option Except

open SignedLeases (OfferSecret Fields currentOffer? verified? withoutOffer)

variable {env : Env} {op : Op} {db : Db}

/-! ### Bindings of captured jobs -/

variable {db' : Db} {binding : TargetBinding}

theorem Act.bindings (act : Act env op db (.ok db')) {id : Uuid}
    (found : db.targetBindings.get? id = some binding) :
    ∃ binding', db'.targetBindings.get? id = some binding' ∧
      (binding' = binding ∨ (binding.status = .active ∧
        ∃ reason now, binding' = TargetBindings.ended binding reason now)) := by
  cases act with
  | context changed => exact changed.bindings id binding found
  | insert | importEvents | write => exact ⟨binding, found, .inl rfl⟩

theorem step_binding_ended {id : Uuid} (found : db.targetBindings.get? id = some binding)
    (ended : binding.status = .revoked) :
    (step env db op).targetBindings.get? id = some binding := by
  refine step_invariant (P := fun db : Db => db.targetBindings.get? id = some binding) op
    (fun stored act => ?_) found
  obtain ⟨_, stored', same | ⟨active, _⟩⟩ := act.bindings stored
  · rw [stored', same]
  rw [ended] at active
  cases active

theorem run_binding_ended {id : Uuid} {ops : List Op}
    (found : db.targetBindings.get? id = some binding) (ended : binding.status = .revoked) :
    (run env db ops).targetBindings.get? id = some binding :=
  Run.run_invariant (P := fun db : Db => db.targetBindings.get? id = some binding)
    (fun _ _ stored => step_binding_ended stored ended) found ops

/-- Every job of this installation refers to the binding it was requested under. -/
def Db.AllCaptured (db : Db) : Prop :=
  ∀ job ∈ db.jobs, job.importedAt = none → db.Captured job

variable {job : Job}

theorem Db.Captured.of_act (captured : db.Captured job) (act : Act env op db (.ok db')) :
    db'.Captured job := by
  refine ⟨fun id named => ?_, captured.unbound⟩
  obtain ⟨_, found, captures⟩ := captured.bound id named
  obtain ⟨binding', found', rfl | ⟨_, _, _, rfl⟩⟩ := act.bindings found
  · exact ⟨binding', found', captures⟩
  · exact ⟨_, found', { captures with }⟩

theorem Act.allCaptured (all : db.AllCaptured) (act : Act env op db (.ok db')) :
    db'.AllCaptured := by
  intro job stored native
  have keeps : ∀ {job}, db.Captured job → db'.Captured job := fun captured => captured.of_act act
  cases act with
  | context changed => exact keeps (all job (changed.jobs ▸ stored) native)
  | @insert row fresh _ _ _ _ captured =>
    have either : job ∈ db.jobs ∨ job = row := (mem_add fresh).1 stored
    rcases either with old | rfl
    · exact keeps (all job old native)
    · exact keeps (captured native)
  | importEvents => exact keeps (all job stored native)
  | write found _ own =>
    rcases Db.mem_afterWrite stored with rfl | ⟨old, _⟩
    · have before := keeps (all _ (mem_of_get? found) own)
      refine ⟨fun id named => ?_, before.unbound⟩
      obtain ⟨binding, stored', captures⟩ := before.bound id named
      exact ⟨binding, stored', { captures with }⟩
    · exact keeps (all job old native)

theorem run_allCaptured (ops : List Op) : (run env {} ops).AllCaptured :=
  Run.run_invariant (P := Db.AllCaptured)
    (fun _ op all => step_invariant op (fun all act => act.allCaptured all) all)
    (fun _ stored _ => absurd stored (not_mem_empty _)) ops

/-! ### The lease of a privileged job -/

theorem check_eq_ok {key : InstallationKey} (h : TargetBindings.check db job = .ok (binding, key)) :
    job.targetBindingId = some binding.id ∧
      db.targetBindings.get? binding.id = some binding ∧ binding.status = .active ∧
      some binding.version = job.targetBindingVersion ∧
      db.installationKeys.get? binding.installationKeyId = some key ∧ key.status = .approved := by
  obtain ⟨bindingId, named, h⟩ := bind_eq_ok_iff.1 h
  obtain ⟨_, stored, h⟩ := bind_eq_ok_iff.1 h
  obtain ⟨_, _, h⟩ := bind_eq_ok_iff.1 h
  obtain ⟨_, active, h⟩ := bind_eq_ok_iff.1 h
  obtain ⟨_, version, h⟩ := bind_eq_ok_iff.1 h
  obtain ⟨_, _, h⟩ := bind_eq_ok_iff.1 h
  obtain ⟨_, held, h⟩ := bind_eq_ok_iff.1 h
  obtain ⟨_, approved, h⟩ := bind_eq_ok_iff.1 h
  cases h
  have stored' := ofOption_eq_ok_iff.1 stored
  have id : binding.id = bindingId := key_of_get? stored'
  rw [id]
  exact ⟨ofOption_eq_ok_iff.1 named, stored', of_decide_eq_true (require_eq_ok_iff.1 active),
    of_decide_eq_true (require_eq_ok_iff.1 version), ofOption_eq_ok_iff.1 held,
    of_decide_eq_true (require_eq_ok_iff.1 approved)⟩

variable {now : Time}

theorem refuse!_failed {job' : Job} {reason : String} (found : db.jobs.get? job.id = some job)
    (h : refuse! db job reason now = .ok (db', job')) :
    ∃ row, db'.jobs.get? job.id = some row ∧ row.state = .failed := by
  obtain ⟨rfl, _, _, rfl⟩ := apply!_eq_ok h
  exact ⟨_, get?_put_self found, rfl⟩

variable {row : Job}

/-- A claim that has returned and after which the job is leased took the job's current
offer with a verified signature. -/
theorem claim_leased {organizationId : Uuid} {agent : Agent} {request : SignedLeases.Claim}
    {result : SignedLeases.ClaimResult}
    (h : SignedLeases.claim env db organizationId agent request now = .ok (db', result))
    (after : db'.jobs.get? request.jobId = some row) (leased : row.state = .leased) :
    ∃ job binding key, db.jobs.get? request.jobId = some job ∧ job.agentId = agent.id ∧
      job.importedAt = none ∧ currentOffer? env job request.token request.nonce now = true ∧
      TargetBindings.check db job = .ok (binding, key) ∧
      verified? env job agent request.token request.nonce request.signature key = true ∧
      row = written job (claimChanges env job request.token now)
        [{ type := .leased, actor := .agent agent.id }] := by
  obtain ⟨_, _, h⟩ := bind_eq_ok_iff.1 h
  obtain ⟨job, locked, h⟩ := bind_eq_ok_iff.1 h
  obtain ⟨_, current, h⟩ := bind_eq_ok_iff.1 h
  obtain ⟨found, chosen⟩ := filter_eq_some_iff.1 (ofOption_eq_ok_iff.1 locked)
  simp only [Bool.and_eq_true, decide_eq_true_eq, isNone_iff_eq_none] at chosen
  obtain ⟨⟨_, own⟩, native⟩ := chosen
  have target : job.id = request.jobId := key_of_get? found
  have stored : db.jobs.get? job.id = some job := target ▸ found
  have failed : ∀ {db₁ job₁ reason}, refuse! db job reason now = .ok (db₁, job₁) → db₁ ≠ db' := by
    rintro db₁ job₁ _ refused rfl
    obtain ⟨_, after', failed⟩ := refuse!_failed stored refused
    rw [target, after] at after'
    cases after'
    rw [leased] at failed
    cases failed
  split at h
  · split at h
    · rename_i binding key bound
      obtain ⟨_, signed, h⟩ := bind_eq_ok_iff.1 h
      obtain ⟨db₁, taken, h⟩ := bind_eq_ok_iff.1 h
      obtain ⟨⟨_, _, _⟩, leasing, h⟩ := bind_eq_ok_iff.1 h
      obtain ⟨⟨_, _⟩, applied, h₃⟩ := bind_eq_ok_iff.1 leasing
      cases h₃
      cases h
      refine ⟨job, binding, key, found, own, native, require_eq_ok_iff.1 current, bound,
        require_eq_ok_iff.1 signed, ?_⟩
      obtain ⟨_, _, _, rfl⟩ := Db.updateJob_eq_ok_iff.1 taken
      obtain ⟨rfl, _, _, rfl⟩ := apply!_eq_ok applied
      have present : (db.jobs.put (withoutOffer job)).get? job.id = some (withoutOffer job) :=
        get?_put_self (show db.jobs.get? (withoutOffer job).id = some job from stored)
      have last : ((db.jobs.put (withoutOffer job)).put (written (withoutOffer job)
          (leaseChanges env (withoutOffer job) request.token now)
          [{ type := .leased, actor := .agent agent.id }])).get? job.id = some _ :=
        get?_put_self present
      rw [← target] at after
      exact some.inj (after.symm.trans last)
    · obtain ⟨⟨db₁, job₁⟩, refused, h⟩ := bind_eq_ok_iff.1 h
      cases h
      exact absurd rfl (failed refused)
    · cases h
  obtain ⟨⟨_, _⟩, refused, h⟩ := bind_eq_ok_iff.1 h
  cases h
  exact absurd rfl (failed refused)

variable {changes : Changes} {events : List EventParts}

/-- A write that leaves a job leased found it leased, or leased an `observe` job, or
belongs to a claim of the job. -/
theorem Write.leases (w : Write env op db job now changes events)
    (leased : (written job changes events).state = .leased) :
    job.state = .leased ∨ job.riskClass = .observe ∨ ∃ organizationId installationId request now,
        op = .claim organizationId installationId request now ∧ request.jobId = job.id := by
  cases w with
  | created => exact .inl leased
  | cancelled => cases leased
  | cancelRequested | suspended => exact .inl leased
  | leased _ _ _ _ observe => exact .inr (.inl observe)
  | claimed asked target => exact .inr (.inr ⟨_, _, _, _, asked, target⟩)
  | refused => cases leased
  | reported _ _ _ _ _ _ _ changed =>
    have effect := reportChanges!_effect changed
    generalize Report.type _ = type at effect
    cases effect with
    | started => cases leased
    | working => exact .inl leased
    | ended final =>
      rcases finalReports_cases final with ⟨_, rfl⟩ | ⟨_, rfl⟩ | ⟨_, rfl⟩ <;> cases leased
  | lapsed =>
    have next : lapseNext job now = .leased := leased
    rcases lapseNext_cases job now with ⟨other, _⟩ | ⟨other, _⟩ | ⟨other, _⟩ | ⟨other, _⟩ <;>
      · rw [next] at other
        cases other
  | expired => cases leased
  | resolved _ outcome => cases outcome <;> cases leased
  | offered | offerTaken => exact .inl leased

theorem step_leases_claim {id : Uuid} (found : db.jobs.get? id = some job)
    (privileged : job.riskClass ≠ .observe) (after : (step env db op).jobs.get? id = some row)
    (unleased : job.state ≠ .leased) (leased : row.state = .leased) :
    ∃ organizationId installationId request now,
      op = .claim organizationId installationId request now ∧ request.jobId = id := by
  have related : RowsRelated (fun job row => row.id = job.id ∧ row.riskClass = job.riskClass ∧
      (row.state = .leased → job.state = .leased ∨ job.riskClass = .observe ∨
        ∃ organizationId installationId request now,
          op = .claim organizationId installationId request now ∧ request.jobId = job.id))
      db (step env db op) := by
    refine step_rowsRelated (fun _ => ⟨rfl, rfl, .inl⟩) ?_ op fun w _ => ⟨rfl, rfl, w.leases⟩
    rintro a _ _ ⟨id, risk, before⟩ ⟨id', risk', leases⟩
    refine ⟨id'.trans id, risk'.trans risk, fun leased => ?_⟩
    rw [id, risk] at leases
    rcases leases leased with still | either
    · exact before still
    · exact .inr either
  obtain ⟨_, after', _, _, leases⟩ := related id job found
  rw [after] at after'
  cases after'
  rcases leases leased with still | observe | claimed
  · exact absurd still unleased
  · exact absurd observe privileged
  rwa [key_of_get? found] at claimed

/-! ### Claims of the current offer -/

/-- The fields a claim of the job under the binding signs. -/
def claimFields (job : Job) (request : SignedLeases.Claim) (agent : Agent)
    (binding : TargetBinding) : Fields :=
  { jobId := job.id
    token := request.token
    nonce := request.nonce
    installationId := agent.installationId
    resourceId := some binding.resourceId
    bindingVersion := binding.version }

/-- In `db`, `request` is a claim of the offer `job` carries, made by the installation
the job is for, while the offer is unexpired, the job's binding active and the binding's
key approved, with a signature that key verifies. -/
structure ClaimsOffer (env : Env) (db : Db) (job : Job) (organizationId : Uuid)
    (installationId : String) (request : SignedLeases.Claim) (now : Time) (agent : Agent)
    (binding : TargetBinding) (key : InstallationKey) : Prop where
  target : request.jobId = job.id
  authenticated : db.intakeAgent! organizationId installationId = .ok agent
  own : job.agentId = agent.id
  token : job.offerTokenHash = some (env.hashToken request.token)
  nonce : job.offerNonce = some request.nonce
  unexpired : ∃ expires, job.offerExpiresAt = some expires ∧ now < expires
  bound : job.targetBindingId = some binding.id
  stored : db.targetBindings.get? binding.id = some binding
  active : binding.status = .active
  captures : binding.Captures job
  keyed : db.installationKeys.get? binding.installationKeyId = some key
  approved : key.status = .approved
  verified : env.verify key.publicKey (claimFields job request agent binding).message
    request.signature = true

theorem captured_iff_privileged (sound : db.Sound) (all : db.AllCaptured) (stored : job ∈ db.jobs)
    (native : job.importedAt = none) :
    job.targetBindingId.isSome ↔ job.riskClass ≠ .observe := by
  have version := ((sound job stored).checked .privilegedBinding).1
  have captured := all job stored native
  rw [ne_eq, version]
  cases named : job.targetBindingId with
  | none => simp [captured.unbound named]
  | some id =>
    obtain ⟨_, _, captures⟩ := captured.bound id named
    simp [captures.version]

theorem not_leases_imported (stored : job ∈ db.jobs) (imported : job.importedAt ≠ none) :
    ¬ Leases env db op job.id := by
  rintro ⟨_, _, found, last, unleased, leased⟩
  rw [get?_of_mem stored] at found
  cases found
  rw [step_imported_row op stored (isSome_iff_ne_none.2 imported)] at last
  cases last
  exact unleased leased

theorem leases_claim (sound : db.Sound) (all : db.AllCaptured) (stored : job ∈ db.jobs)
    (captured : job.targetBindingId.isSome) (leases : Leases env db op job.id) :
    ∃ organizationId installationId request now agent binding key row,
      op = .claim organizationId installationId request now ∧
      ClaimsOffer env db job organizationId installationId request now agent binding key ∧
      (step env db op).jobs.get? job.id = some row ∧
      row = written job (claimChanges env job request.token now)
        [{ type := .leased, actor := .agent agent.id }] := by
  have native : job.importedAt = none := by
    by_contra imported
    exact not_leases_imported stored imported leases
  have privileged := (captured_iff_privileged sound all stored native).1 captured
  obtain ⟨_, row, found, after, unleased, leased⟩ := leases
  rw [get?_of_mem stored] at found
  cases found
  obtain ⟨organizationId, installationId, request, now, rfl, target⟩ :=
    step_leases_claim (get?_of_mem stored) privileged after unleased leased
  -- A claim that was rolled back would have left the job as it was.
  cases performed : perform env db (.claim organizationId installationId request now) with
  | error =>
    rw [step_of_error performed, get?_of_mem stored] at after
    cases after
    exact absurd leased unleased
  | ok p =>
    obtain ⟨_, _⟩ := p
    have same := step_of_ok performed
    obtain ⟨agent, authenticated, claimed⟩ := bind_eq_ok_iff.1 performed
    cases result : SignedLeases.claim env db organizationId agent request now with
    | error => simp [replying, result, Except.map] at claimed
    | ok p =>
      obtain ⟨db₁, _⟩ := p
      simp only [replying, result, Except.map, ok.injEq, Prod.mk.injEq] at claimed
      obtain ⟨rfl, _⟩ := claimed
      have after' : db₁.jobs.get? request.jobId = some row := by
        rw [← same, target]
        exact after
      obtain ⟨_, binding, key, found, own, _, current, bound, signed, rfl⟩ :=
        claim_leased result after' leased
      rw [target, get?_of_mem stored] at found
      cases found
      simp only [currentOffer?, Bool.and_eq_true, decide_eq_true_eq, any_eq_true] at current
      obtain ⟨⟨⟨⟨_, expires, offered, unexpired⟩, _⟩, token⟩, nonce⟩ := current
      obtain ⟨named, held, active, _, keyed, approved⟩ := check_eq_ok bound
      obtain ⟨_, held', captures⟩ := (all job stored native).bound _ named
      rw [held] at held'
      cases held'
      simp only [verified?, Bool.and_eq_true, captures.resource, captures.version,
        getD_some] at signed
      exact ⟨organizationId, installationId, request, now, agent, binding, key, _, rfl,
        ⟨target, authenticated, own, token, nonce, ⟨expires, offered, unexpired⟩, named, held,
          active, captures, keyed, approved, signed.2⟩, after, rfl⟩

/-! ### Offers over a run -/

def Op.Offers (jobId : Uuid) (secret : OfferSecret) : Op → Prop
  | .offer _ _ _ _ newSecret _ _ => newSecret jobId = secret
  | _ => False

def Job.Carries (env : Env) (job : Job) (secret : OfferSecret) : Prop :=
  job.offerTokenHash = some (env.hashToken secret.token) ∧ job.offerNonce = some secret.nonce

/-- How one operation treats the offer of a row: it takes it off, leaves it, or makes a
new one. -/
def OfferKept (env : Env) (op : Op) (job row : Job) : Prop :=
  row.id = job.id ∧
    (row.offerTokenHash = none ∨
      (row.offerTokenHash = job.offerTokenHash ∧ row.offerNonce = job.offerNonce) ∨
      ∃ secret, op.Offers job.id secret ∧ row.Carries env secret)

theorem OfferKept.refl (job : Job) : OfferKept env op job job :=
  ⟨rfl, .inr (.inl ⟨rfl, rfl⟩)⟩

theorem OfferKept.trans {a b c : Job} (first : OfferKept env op a b)
    (second : OfferKept env op b c) : OfferKept env op a c := by
  obtain ⟨id, first⟩ := first
  obtain ⟨id', second⟩ := second
  refine ⟨id'.trans id, ?_⟩
  rcases second with none_ | ⟨token, nonce⟩ | made
  · exact .inl none_
  · rw [token, nonce]
    rcases first with none_ | same | ⟨secret, offers, carries⟩
    · exact .inl none_
    · exact .inr (.inl same)
    · exact .inr (.inr ⟨secret, offers, token.trans carries.1, nonce.trans carries.2⟩)
  rw [id] at made
  exact .inr (.inr made)

theorem Write.offerKept (w : Write env op db job now changes events) :
    OfferKept env op job (written job changes events) := by
  refine ⟨rfl, ?_⟩
  cases w with
  | created | cancelled | cancelRequested | suspended | leased => exact .inr (.inl ⟨rfl, rfl⟩)
  | claimed => exact .inl rfl
  | refused => exact .inr (.inl ⟨rfl, rfl⟩)
  | reported _ _ _ _ _ _ _ changed =>
    have effect := reportChanges!_effect changed
    generalize Report.type _ = type at effect
    cases effect with
    | started | working | ended => exact .inr (.inl ⟨rfl, rfl⟩)
  | lapsed | expired | resolved => exact .inr (.inl ⟨rfl, rfl⟩)
  | @offered _ _ _ _ newSecret _ asked =>
    subst asked
    exact .inr (.inr ⟨newSecret job.id, rfl, rfl, rfl⟩)
  | offerTaken => exact .inl rfl

theorem step_offerKept (env : Env) (db : Db) (op : Op) :
    RowsRelated (OfferKept env op) db (step env db op) :=
  step_rowsRelated .refl (fun _ _ _ => .trans) op fun w _ => w.offerKept

theorem offer_between {id : Uuid} (found : db.jobs.get? id = some job)
    (bare : job.offerTokenHash = none) {ops : List Op}
    (after : (run env db ops).jobs.get? id = some row) (offered : row.offerTokenHash.isSome) :
    ∃ before offer later secret made, ops = before ++ offer :: later ∧ offer.Offers id secret ∧
      (run env db (before ++ [offer])).jobs.get? id = some made ∧ made.Carries env secret ∧
      row.Carries env secret := by
  -- The offer on the row is older than the operations that left it alone, so the
  -- induction goes backwards from the end of the run.
  induction ops using List.reverseRecOn generalizing row with
  | nil =>
    have same : some row = some job := after.symm.trans found
    cases same
    rw [bare] at offered
    cases offered
  | append_singleton ops op ih =>
    have persists : RowsRelated (fun _ _ => True) db (run env db ops) :=
      run_rowsRelated (fun _ => trivial) (fun _ _ _ _ _ => trivial) (fun _ _ => trivial) db ops
    obtain ⟨mid, between, _⟩ := persists id job found
    have last : (run env db (ops ++ [op])) = step env (run env db ops) op :=
      Run.run_concat
    obtain ⟨_, after', _, kept⟩ := step_offerKept env (run env db ops) op id mid between
    rw [last, after'] at after
    cases after
    rcases kept with none_ | ⟨token, nonce⟩ | ⟨secret, offers, carries⟩
    · rw [none_] at offered
      cases offered
    · rw [token] at offered
      obtain ⟨before, offer, later, secret, made, rfl, offers, held, carries, still⟩ :=
        ih between offered
      exact ⟨before, offer, later ++ [op], secret, made, by simp, offers, held, carries,
        token.trans still.1, nonce.trans still.2⟩
    have same : mid.id = id := key_of_get? between
    rw [same] at offers
    exact ⟨ops, op, [], secret, row, rfl, offers, by rw [last, after'], carries, carries⟩

/-- The operation is a claim of the job under the secret. -/
def Op.Claims (env : Env) (jobId : Uuid) (secret : OfferSecret) (op : Op) : Prop :=
  ∃ organizationId installationId request now,
    op = .claim organizationId installationId request now ∧ request.jobId = jobId ∧
      env.hashToken request.token = env.hashToken secret.token ∧ request.nonce = secret.nonce

/-- Over every run from an empty database, where only the holder of a key makes the
signatures it verifies: a captured job is leased only by a claim of the offer its row
carries, unexpired, under its active binding and signed with that binding's key over
exactly this job, offer, installation and binding, and the lease takes the offer; two
leases of the job are separated by an offer, which the later one claims; and once a
binding has ended, no job captured under it is leased. -/
theorem run_leases_signed_claims (env : Env) (signedBy : Binary → List Char → Prop)
    (unforgeable : ∀ key message signature, env.verify key message signature = true →
      signedBy key message) (ops : List Op) :
    let db := run env {} ops
    (∀ op, ∀ job ∈ db.jobs, job.targetBindingId.isSome → Leases env db op job.id →
      ∃ organizationId installationId request now agent binding key row,
        op = .claim organizationId installationId request now ∧
        ClaimsOffer env db job organizationId installationId request now agent binding key ∧
        signedBy key.publicKey (claimFields job request agent binding).message ∧
        (∀ fields : Fields, fields.OneLine → (claimFields job request agent binding).OneLine →
          fields.message = (claimFields job request agent binding).message →
          fields = claimFields job request agent binding) ∧
        (step env db op).jobs.get? job.id = some row ∧ row.attempts = job.attempts + 1 ∧
        row.leaseTokenHash = job.offerTokenHash ∧ row.offerTokenHash = none) ∧
    (∀ op, ∀ job ∈ db.jobs, job.targetBindingId.isSome → Leases env db op job.id →
      ∀ later op', Leases env (run env (step env db op) later) op' job.id →
        ∃ before offer rest secret made, later = before ++ offer :: rest ∧
          offer.Offers job.id secret ∧
          (run env (step env db op) (before ++ [offer])).jobs.get? job.id = some made ∧
          made.Carries env secret ∧ op'.Claims env job.id secret) ∧
    (∀ binding ∈ db.targetBindings, binding.status = .revoked →
      ∀ later op, ∀ job ∈ (run env db later).jobs, job.targetBindingId = some binding.id →
        ¬ Leases env (run env db later) op job.id) := by
  intro db
  have sound : ∀ ops, (run env {} ops).Sound := run_sound
  have all : ∀ ops, (run env {} ops).AllCaptured := run_allCaptured
  refine ⟨?_, ?_, ?_⟩
  · intro op job stored captured leases
    obtain ⟨organizationId, installationId, request, now, agent, binding, key, row, asked, claims,
      after, rfl⟩ := leases_claim (sound ops) (all ops) stored captured leases
    exact ⟨organizationId, installationId, request, now, agent, binding, key, _, asked, claims,
      unforgeable _ _ _ claims.verified,
      fun _ line line' same => SignedLeases.message_injective line line' same, after, rfl,
      claims.token.symm, rfl⟩
  · intro op job stored captured leases later _ again
    obtain ⟨_, _, _, _, _, _, _, row, _, _, after, rfl⟩ :=
      leases_claim (sound ops) (all ops) stored captured leases
    have whole : run env (step env db op) later = run env {} (ops ++ op :: later) :=
      (Run.run_append ({} : Db) ops (op :: later)).symm
    -- The row that is leased again is still captured.
    obtain ⟨row, found, same⟩ := run_rowsRelated
      (R := fun job row => row.targetBindingId = job.targetBindingId) (fun _ => rfl)
      (fun _ _ _ first second => second.trans first) (fun _ _ => rfl) db (op :: later) job.id job
      (get?_of_mem stored)
    have current : (run env (step env db op) later).jobs.get? job.id = some row := found
    have named : row.id = job.id := key_of_get? current
    rw [whole] at again current
    rw [← named] at again
    obtain ⟨organizationId, installationId, request, now, _, _, _, _, asked, claims, _⟩ :=
      leases_claim (sound _) (all _) (mem_of_get? current) (same ▸ captured) again
    rw [← whole] at current
    obtain ⟨before, offer, rest, secret, made, split, offers, held, carries, token, nonce⟩ :=
      offer_between after rfl current (by simp [claims.token])
    refine ⟨before, offer, rest, secret, made, split, offers, held, carries,
      organizationId, installationId, request, now, asked, claims.target.trans named, ?_, ?_⟩
    · exact some.inj (claims.token.symm.trans token)
    · exact some.inj (claims.nonce.symm.trans nonce)
  intro binding held ended later _ _ stored named leases
  have whole : run env db later = run env {} (ops ++ later) :=
    (Run.run_append ({} : Db) ops later).symm
  have still : (run env db later).targetBindings.get? binding.id = some binding :=
    run_binding_ended (get?_of_mem held) ended
  rw [whole] at stored leases still
  obtain ⟨_, _, _, _, _, binding', _, _, _, claims, _⟩ :=
    leases_claim (sound _) (all _) stored (by simp [named]) leases
  have other := claims.bound
  rw [named] at other
  have same : binding' = binding := by
    have stored' := claims.stored
    rw [← some.inj other, still] at stored'
    exact (some.inj stored').symm
  have active := claims.active
  rw [same, ended] at active
  cases active

def reboot : Capability where
  name := "host.reboot"
  version := 1
  riskClass := .operate
  retryClass := .idempotent
  timeoutMs := 1000
  parametersChangeset := .ok
  resultChangeset := .ok

/-- A deployment with that capability and one valid signature. -/
def rebootEnv : Env where
  registry := [reboot]
  hashToken := id
  slice := fun note _ => note
  sliced := sliced_whole
  stringify := id
  verify := fun _ _ signature => decide (signature = List.replicate 64 0)
  fingerprint := fun _ => "f"

def rebootOwner : Scope where
  organizationId := 1
  userId := some 9
  membershipId := some 9
  holds := fun _ => true

def rebootHost : Agent where
  id := 2
  organizationId := 1
  installationId := "a"
  sourceId := some 3
  capabilities := ["host.reboot@1"]

/-- A run up to the offer: the key is approved, the resource bound, the job requested. -/
def rebootOffered : List Op :=
  [.createOrganization 1 60,
    .inventory (empty.add rebootHost rfl) [(1, 4)] [⟨1, 4, 3⟩],
    .presentKey 1 "a" "ed25519" (List.replicate 32 0) 5 0,
    .approveKey rebootOwner 5 "f",
    .bind rebootOwner 4 2 "f" 6 0,
    .createSystemJob 1 2 "host.reboot@1" [] { resourceId := some 4 } 8 0,
    .offer 1 "a" ["host.reboot@1"] 1 (fun _ => ⟨"t", "n"⟩) (fun _ => false) 0]

def rebootClaim : Op := .claim 1 "a" ⟨8, "t", "n", List.replicate 64 0⟩ 1

/-- The claim leases the job of that run. -/
theorem rebootClaim_leases_signed : ∃ job ∈ (run rebootEnv {} rebootOffered).jobs,
      Leases rebootEnv (run rebootEnv {} rebootOffered) rebootClaim job.id ∧
      ∃ organizationId installationId request now agent binding key,
        rebootClaim = .claim organizationId installationId request now ∧
        ClaimsOffer rebootEnv (run rebootEnv {} rebootOffered) job organizationId installationId
          request now agent binding key := by
  obtain ⟨job, found, captured, queued⟩ : ∃ job,
      (run rebootEnv {} rebootOffered).jobs.get? 8 = some job ∧ job.targetBindingId.isSome ∧
        job.state = .queued := ⟨_, rfl, rfl, rfl⟩
  obtain ⟨row, after, leased⟩ : ∃ row,
      (step rebootEnv (run rebootEnv {} rebootOffered) rebootClaim).jobs.get? 8 = some row ∧
        row.state = .leased := ⟨_, rfl, rfl⟩
  have stored := mem_of_get? found
  have named : job.id = 8 := key_of_get? found
  have leases : Leases rebootEnv (run rebootEnv {} rebootOffered) rebootClaim job.id := by
    rw [named]
    exact ⟨job, row, found, after, by simp [queued], leased⟩
  obtain ⟨organizationId, installationId, request, now, agent, binding, key, _, asked, claims, _⟩ :=
    (run_leases_signed_claims rebootEnv
      (fun key message => ∃ signature, rebootEnv.verify key message signature = true)
      (fun _ _ signature verified => ⟨signature, verified⟩) rebootOffered).1 rebootClaim job stored
      captured leases
  exact ⟨job, stored, leases, organizationId, installationId, request, now, agent, binding, key,
    asked, claims⟩

end Renga.Jobs
