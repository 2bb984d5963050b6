import ReviewSensei.ExecutionCall

/-! `execute_plan`: restoring the admitted state, binding the requests, saving the aggregate at
every step and dispatching the batches that neither a receipt nor a terminal reason settles. -/
namespace ReviewSensei.Execution
open ReviewSensei.Effects

abbrev RequestDigests := Dict String (Option String)

/-- Turns a stored document back into the value of a batch. -/
abbrev Decoder (T J : Type) := J → WorkBatch → Except Exc T

/-- The reading half of a store. `load_admission` is optional; both may raise and both may
rewrite the tracker. -/
structure StoreReader (T J : Type) where
  loadAdmission : Option (ReviewWorkPlan → EffectiveWorkBudget → Decoder T J →
    Prog Exc Tracker (Option (WorkExecution T × RequestDigests)))
  load : ReviewWorkPlan → EffectiveWorkBudget → Decoder T J → RequestDigests →
    Prog Exc Tracker (Option (WorkExecution T))

structure CheckpointStore (T J : Type) extends StoreReader T J where
  coalesceAdmissionDispatch : Bool := false

structure RecoveryStore (T J : Type) extends StoreReader T J where
  enabled : Bool

/-- The arguments of `execute_plan`. `accept` belongs to the host and may answer differently
each time; it is indexed by how often it was asked. -/
structure Arguments (T J : Type) where
  plan : ReviewWorkPlan
  render : WorkBatch → Except Exc ProviderRequest
  validate : String → WorkBatch → Except Exc T
  budgets : EffectiveWorkBudget
  correction : String := ""
  accept : Option (Nat → CompletedBatch T → Bool) := none
  prior : Option (WorkExecution T) := none
  revalidateCached : Option (T → WorkBatch → Except Exc Bool) := none
  repairableValidation : Option (Exc → Bool) := none
  recovery : Option (RecoveryStore T J) := none
  encodeRecovery : Option (T → J) := none
  decodeRecovery : Option (Decoder T J) := none
  checkpoint : Option (CheckpointStore T J) := none

/-- What the stores gave back before the first request is rendered or saved. -/
structure Restored (T : Type) where
  prior : Option (WorkExecution T)
  terminalPending : Dict String String := []
  admittedDigests : Option RequestDigests := none
  checkpointLoaded : Bool := false
  admissionChecked : Bool := false
  recoveryAdmissionChecked : Bool := false

/-- The requests and their digests, keyed by batch identity. -/
structure Bindings where
  requests : Dict String ProviderRequest := []
  requestDigests : RequestDigests := []

/-- The names that the loop of `execute_plan` and `save_state` close over. -/
structure Admitted (T : Type) where
  prior : Option (WorkExecution T)
  terminalPending : Dict String String
  cached : Dict String (CompletedBatch T)
  requests : Dict String ProviderRequest
  requestDigests : RequestDigests

variable {T J : Type}

/-- Run a store's load on the tracker of the process. -/
def onTracker {α : Type} (m : Prog Exc Tracker α) : Run T α :=
  ⟨fun w => ((m.run w.tracker).1, { w with tracker := (m.run w.tracker).2 })⟩

def exclude (reason : String) (pending : List (String × String)) : Dict String String :=
  Dict.ofPairs (pending.filter (fun p => p.2 ≠ reason))

/-- The codecs without which no store is read. -/
def Arguments.requireCodecs (args : Arguments T J) (message : String) :
    Except Exc (Decoder T J) :=
  match args.encodeRecovery, args.decodeRecovery, args.revalidateCached with
  | some _, some decode, some _ => .ok decode
  | _, _, _ => .error (.reviewInput message)

def durableCodecs : String := "durable execution requires codecs and semantic validation"

def recoveryCodecs : String :=
  "work recovery requires normalized codecs and fresh semantic validation"

/-- `recovery is not None and recovery.enabled`. -/
def Arguments.enabledRecovery (args : Arguments T J) : Option (RecoveryStore T J) :=
  args.recovery.filter (fun r => r.enabled)

def durableAdmission (args : Arguments T J) :
    Option (WorkExecution T × RequestDigests) → Restored T
  | none => { prior := args.prior, admissionChecked := true }
  | some (prior, digests) =>
    { prior := some prior, admittedDigests := some digests, checkpointLoaded := true
      terminalPending := exclude "queued" prior.pending, admissionChecked := true }

def recoveryAdmission (args : Arguments T J) :
    Option (WorkExecution T × RequestDigests) → Restored T
  | none => { prior := args.prior, recoveryAdmissionChecked := true }
  | some (prior, digests) =>
    { prior := some prior, admittedDigests := some digests
      terminalPending := exclude "interrupted" prior.pending, recoveryAdmissionChecked := true }

/-- The two `load_admission` branches. -/
def restoreAdmission (args : Arguments T J) : Run T (Restored T) :=
  match args.checkpoint with
  | some checkpoint =>
    match checkpoint.loadAdmission with
    | none => pure { prior := args.prior }
    | some loadAdmission => do
      let decode ← Prog.lift (args.requireCodecs durableCodecs)
      let admission ← onTracker (loadAdmission args.plan args.budgets decode)
      pure (durableAdmission args admission)
  | none =>
    match args.enabledRecovery with
    | none => pure { prior := args.prior }
    | some recovery =>
      match recovery.loadAdmission with
      | none => pure { prior := args.prior }
      | some loadAdmission => do
        let decode ← Prog.lift (args.requireCodecs recoveryCodecs)
        let admission ← onTracker (loadAdmission args.plan args.budgets decode)
        pure (recoveryAdmission args admission)

section
variable (env : Environment)

def requestDigest (budgets : EffectiveWorkBudget) (p : ProviderFacts) (r : ProviderRequest) :
    String :=
  env.evidenceDigest (.workRequest r.prompt p.name p.model p.workIdentity r.model r.jsonMode
    r.maxOutputTokens r.maxPromptBytes r.maxResponseBytes (budgets.digest env.evidenceDigest))

/-- One batch of the rendering loop: an unplannable batch is bound to no digest. -/
def bindRequest (args : Arguments T J) (bound : Bindings) (batch : WorkBatch) : Run T Bindings :=
  match args.render batch with
  | .error (.reviewInput _) => do
    let elapsed ← elapsedMs env
    let w ← Prog.get
    if w.tracker.budget.timeoutMs ≤ elapsed then
      Prog.raise (.reviewInput
        "work deadline exceeded before request binding; no dispatch authorized")
    else
      pure { bound with
        requestDigests := bound.requestDigests.set (batch.batchId env.evidenceDigest) none }
  | .error exc => Prog.raise exc
  | .ok request => do
    let p ← readProvider env
    pure {
      requests := bound.requests.set (batch.batchId env.evidenceDigest) request
      requestDigests := bound.requestDigests.set (batch.batchId env.evidenceDigest)
        (some (requestDigest env args.budgets p request)) }

def bindRequests (args : Arguments T J) : Bindings → List WorkBatch → Run T Bindings
  | bound, [] => pure bound
  | bound, batch :: rest => do
    let bound' ← bindRequest env args bound batch
    bindRequests args bound' rest

def Restored.recovered (r : Restored T) : Option (WorkExecution T) → Restored T
  | none => r
  | some prior =>
    { r with prior := some prior, terminalPending := exclude "interrupted" prior.pending }

def Restored.received (r : Restored T) : Option (WorkExecution T) → Restored T
  | none => r
  | some prior =>
    { r with prior := some prior, checkpointLoaded := true
             terminalPending := exclude "queued" prior.pending }

/-- The `recovery.load` branch, for a store whose admission was not read before. -/
def restoreRecovery (args : Arguments T J) (digests : RequestDigests) (r : Restored T) :
    Run T (Restored T) :=
  match args.enabledRecovery with
  | none => pure r
  | some recovery => do
    let decode ← Prog.lift (args.requireCodecs recoveryCodecs)
    if r.recoveryAdmissionChecked then pure r
    else do
      let recovered ← onTracker (recovery.load args.plan args.budgets decode digests)
      pure (r.recovered recovered)

/-- The `checkpoint.load` branch, for a store without `load_admission`. -/
def restoreCheckpoint (args : Arguments T J) (digests : RequestDigests) (r : Restored T) :
    Run T (Restored T) :=
  match args.checkpoint with
  | none => pure r
  | some checkpoint => do
    let decode ← Prog.lift (args.requireCodecs durableCodecs)
    if r.admissionChecked then pure r
    else do
      let recovered ← onTracker (checkpoint.load args.plan args.budgets decode digests)
      pure (r.received recovered)

/-- The two later branches, one of which reads a store without `load_admission`. -/
def restoreStores (args : Arguments T J) (digests : RequestDigests) (r : Restored T) :
    Run T (Restored T) := do
  let r ← restoreRecovery args digests r
  restoreCheckpoint args digests r

/-- A continuation keeps the authority, snapshot and resource budget of its prior. -/
def continues (args : Arguments T J) (identity : String) (prior : WorkExecution T) : Bool :=
  args.revalidateCached.isSome && decide (
    prior.trackerIdentity = identity ∧ prior.plan.mode = args.plan.mode ∧
    prior.plan.snapshot = args.plan.snapshot ∧
    prior.plan.authorityDigest = args.plan.authorityDigest ∧
    prior.plan.budgetDigest = args.plan.budgetDigest)

def requirePrior (args : Arguments T J) (prior : Option (WorkExecution T)) : Run T Unit :=
  match prior with
  | none => pure ()
  | some p => do
    let w ← Prog.get
    if continues args w.tracker.executionIdentity p then pure ()
    else Prog.raise (.reviewInput
      "work continuation requires the original authority, snapshot, and resource budget")

def Arguments.receipts (prior : Option (WorkExecution T)) : Dict String (CompletedBatch T) :=
  match prior with
  | none => []
  | some p => Dict.ofPairs (p.completed.map (fun c => (c.batch.batchId env.evidenceDigest, c)))

/-- The binding error names the authority that was read before rendering. -/
def bindingChanged (r : Restored T) : Exc :=
  .reviewInput (if r.recoveryAdmissionChecked then
    "work recovery request binding changed after admission"
    else "durable receipt request binding changed after admission")

/-- Everything that `execute_plan` does before it saves or dispatches. -/
def admitPlan (args : Arguments T J) : Run T (Admitted T) := do
  let w ← Prog.get
  Prog.lift (w.tracker.budget.validateAgainstLimits {})
  if args.plan.budgetDigest ≠ args.budgets.digest env.evidenceDigest ∨
      args.budgets.resourceBudget.isSome = true ∧
        args.budgets.resourceBudget ≠ some w.tracker.budget then
    Prog.raise (.reviewInput "work execution budgets do not match the admitted plan")
  else if args.checkpoint.isSome = true ∧ args.enabledRecovery.isSome = true then
    Prog.raise (.reviewInput "durable execution cannot use diagnostic recovery authority")
  else do
    let r ← restoreAdmission args
    let bound ← bindRequests env args {} args.plan.batches
    if (r.admittedDigests.map (fun d => d.same bound.requestDigests)).getD true = false then
      Prog.raise (bindingChanged r)
    else do
      let r ← restoreStores args bound.requestDigests r
      requirePrior args r.prior
      Prog.modify (fun w => { w with
        pending := args.plan.unprocessed
        attemptedIds := (r.prior.map WorkExecution.attemptedIds).getD []
        accounting :=
          { unknownResponseBytes := (r.prior.map WorkExecution.responseBytesReserved).getD 0 }
        admissionPending := args.checkpoint.isSome && !r.checkpointLoaded })
      pure {
        prior := r.prior
        terminalPending := r.terminalPending
        cached := Arguments.receipts env r.prior
        requests := bound.requests
        requestDigests := bound.requestDigests }

end
end ReviewSensei.Execution
