import ReviewSensei.ExecutionSave

/-! The loop of `execute_plan`: each batch is terminal, unplannable, replayed or dispatched, and
a refused decision abandons the rest of the plan. -/
namespace ReviewSensei.Execution
open ReviewSensei.Effects

variable {T J : Type} [DecidableEq T]

/-- Every requirement of a batch waits under one reason. -/
def waiting (batch : WorkBatch) (reason : String) : List (String × String) :=
  batch.requirementIds.map (fun r => (r, reason))

def World.defer (w : World T) (entries : List (String × String)) : World T :=
  { w with pending := w.pending ++ entries }

/-- `attempted_ids` grows by the identities that it does not hold yet. -/
def attempt (attempted : List String) : List String → List String
  | [] => attempted
  | r :: rest => attempt (if r ∈ attempted then attempted else attempted ++ [r]) rest

section
variable (env : Environment) (args : Arguments T J) (a : Admitted T)

/-- The entries of a batch some of whose requirements have a terminal reason. -/
def terminalEntries (batch : WorkBatch) : Option (List (String × String)) :=
  match batch.requirementIds.filterMap a.terminalPending.get? with
  | [] => none
  | first :: _ => some (batch.requirementIds.map
      (fun r => (r, (a.terminalPending.get? r).getD first)))

/-- A refused decision leaves this and every later batch waiting. -/
def abandoned (index : Nat) : List (String × String) :=
  (args.plan.batches.drop index).flatMap (fun b => waiting b "output_budget")

/-- Ask the host to accept an item. -/
def acceptItem (item : CompletedBatch T) : Run T Bool :=
  match args.accept with
  | none => pure true
  | some accept => ⟨fun w => (.ok (accept w.cursor.accepts item),
      { w with cursor := { w.cursor with accepts := w.cursor.accepts + 1 } })⟩

def beforeDispatch (index : Nat) (batch : WorkBatch) (digest : String) : Run T Unit := do
  Prog.modify (fun w => { w with
    currentDispatch := some digest, attemptedIds := attempt w.attemptedIds batch.requirementIds })
  saveState env args a { nextIndex := index, dispatched := true, reason := .dispatch
                         batch := some batch, dispatchDigest := some digest }

def accountDispatch (index : Nat) (batch : WorkBatch) : Run T Unit := do
  let w ← Prog.get
  saveState env args a { nextIndex := index, dispatched := true, reason := .accounting
                         batch := some batch, dispatchDigest := w.currentDispatch }

def callHooks (index : Nat) (batch : WorkBatch) : CallHooks T where
  beforeDispatch := beforeDispatch env args a index batch
  afterAccounting :=
    if args.checkpoint.isSome then some (accountDispatch env args a index batch) else none
  deferResponseAccounting := args.checkpoint.isSome

/-- Wait under the given entries, save, and go on with the next batch. -/
def postpone (index : Nat) (batch : WorkBatch) (entries : List (String × String)) :
    Run T Bool := do
  Prog.modify (fun w => w.defer entries)
  saveState env args a { nextIndex := index + 1, batch := some batch }
  pure true

/-- An accepted item is completed and saved; a refused one abandons the plan's rest. -/
def decideItem (index : Nat) (item : CompletedBatch T) (reason : SaveReason) :
    Run T Bool := do
  if ← acceptItem args item then do
    Prog.modify (fun w => { w with completed := w.completed ++ [item] })
    let w ← Prog.get
    saveState env args a { nextIndex := index + 1, reason := reason, batch := some item.batch
                           dispatchDigest :=
                             if reason = .accepted then w.currentDispatch else none }
    pure true
  else do
    emit (.refused item)
    Prog.modify (fun w => w.defer (abandoned args index))
    pure false

/-- What follows `execute_call`. -/
def settleBatch (index : Nat) (batch : WorkBatch) (digest : String) (result : CallResult T) :
    Run T Bool :=
  match result.value, result.diagnostic with
  | some value, none => decideItem env args a index ⟨batch, value, digest⟩ .accepted
  | _, diagnostic => do
    Prog.modify (fun w => w.defer (waiting batch (diagnostic.getD "invalid_provider_output")))
    let w ← Prog.get
    saveState env args a { nextIndex := index + 1, batch := some batch
                           dispatchDigest := w.currentDispatch }
    pure true

def dispatchBatch (index : Nat) (batch : WorkBatch) (request : ProviderRequest)
    (digest : String) : Run T Bool := do
  Prog.modify (fun w => { w with currentDispatch := none })
  let result ← executeCall env args.budgets (callHooks env args a index batch) request
    args.correction args.repairableValidation args.validate batch
  settleBatch env args a index batch digest result

/-- The receipt of a batch is replayed where it still holds; else the batch is dispatched. -/
def replayOrDispatch (index : Nat) (batch : WorkBatch) (request : ProviderRequest)
    (digest : String) : Run T Bool :=
  match a.cached.get? (batch.batchId env.evidenceDigest) with
  | none => dispatchBatch env args a index batch request digest
  | some previous => do
    if ← Prog.lift (revalidated env args a previous batch) then
      decideItem env args a index previous .replay
    else do
      emit (.notRevalidated previous)
      dispatchBatch env args a index batch request digest

/-- One iteration; the result says whether the loop goes on. -/
def executeBatch (index : Nat) (batch : WorkBatch) : Run T Bool :=
  match terminalEntries a batch with
  | some entries => postpone env args a index batch entries
  | none =>
    match a.requests.get? (batch.batchId env.evidenceDigest),
        (a.requestDigests.get? (batch.batchId env.evidenceDigest)).join with
    | some request, some digest => replayOrDispatch env args a index batch request digest
    | some _, none => Prog.raise (.other "assertion failed")
    | none, _ => postpone env args a index batch (waiting batch "prompt_budget")

def batchLoop : Nat → List WorkBatch → Run T Unit
  | _, [] => pure ()
  | index, batch :: rest => do
    if ← executeBatch env args a index batch then batchLoop (index + 1) rest else pure ()

def coalescesAdmission : Bool :=
  (args.checkpoint.map CheckpointStore.coalesceAdmissionDispatch).getD false

/-- A separate zero-call admission precedes the loop unless the first charge carries it. -/
def saveAdmission : Run T Unit := do
  let w ← Prog.get
  if w.admissionPending = true ∧ coalescesAdmission args = false then
    saveState env args a { nextIndex := 0, reason := .admission }
  else pure ()

end

/-- The aggregate that the run returns. -/
def finalExecution (args : Arguments T J) (a : Admitted T) (w : World T) :
    Except Exc (WorkExecution T) :=
  WorkExecution.make args.plan w.completed (sortedPending w.pending) w.tracker.executionIdentity
    w.attemptedIds w.accounting.unknownResponseBytes w.accounting.inflightResponseBytes
    (attemptAccountingComplete a)

def executePlan (env : Environment) (args : Arguments T J) : Run T (WorkExecution T) := do
  let a ← admitPlan env args
  saveAdmission env args a
  batchLoop env args a 0 args.plan.batches
  saveState env args a { nextIndex := args.plan.batches.length, reason := .finalize }
  let w ← Prog.get
  Prog.lift (finalExecution args a w)

/-- Everything that one process shows, from a fresh tracker on. -/
def runProcess (env : Environment) (args : Arguments T J) (tracker : Tracker) :
    Except Exc (WorkExecution T) × World T :=
  (executePlan env args).run { tracker := tracker }

/-! A small plan of two batches, on which runs can be evaluated. Its digests tell the documents
of these runs apart. -/

def hexDigest (tag : Char) (name : String) : String :=
  String.ofList (tag :: (List.replicate 62 '0' ++ name.toList.take 1))

def sampleDigest : DigestDocument → String
  | .workBatch _ requirements _ _ => hexDigest 'a' (requirements.headD "0")
  | .workRequest prompt .. => hexDigest 'b' prompt
  | .workDispatch _ _ prompt .. => hexDigest 'c' prompt
  | .budget _ => hexDigest 'd' "0"
  | .workPlan .. => hexDigest 'e' "0"

def sampleRequirement (name : String) : WorkRequirement :=
  { identity := name, evidenceIds := ["e"] }

def sampleBatch (name : String) : WorkBatch where
  mode := .discovery
  requirements := [sampleRequirement name]
  records := [{ evidenceId := "e", snapshot := "s" }]
  nonempty := by simp
  requirementsNodup := by simp
  recordsNodup := by simp

def sampleBudget : EffectiveWorkBudget where
  batchDiffBytes := 100
  batchPromptBytes := 100
  batchOutputBytes := 100
  maxTotalPromptBytes := 1000
  maxTotalOutputBytes := 150
  maxFindingsPerBatch := 4
  providerQualified := false

def samplePlan : ReviewWorkPlan where
  mode := .discovery
  snapshot := "s"
  evidenceDigest := "e"
  requirements := [sampleRequirement "1", sampleRequirement "2"]
  batches := [sampleBatch "1", sampleBatch "2"]
  unprocessed := []
  budgetDigest := hexDigest 'd' "0"
  accounted := by decide
  identitiesNodup := by decide

/-- Every response repeats its prompt, and every save completes. -/
def sampleEnvironment : Environment where
  evidenceDigest := sampleDigest
  clock := fun _ => 0
  provider := fun _ => { name := "p", model := none, workIdentity := "p" }
  complete := fun _ r => .response r.prompt
  saveCompletes := fun _ => true

def sampleArguments : Arguments String String where
  plan := samplePlan
  render := fun b => .ok { prompt := String.join b.requirementIds }
  validate := fun text _ => .ok text
  budgets := sampleBudget
  revalidateCached := some fun _ _ => .ok true
  encodeRecovery := some id
  decodeRecovery := some fun text _ => .ok text

def sampleTracker : Tracker :=
  { budget := {}, started := 0, executionIdentity := String.ofList (List.replicate 32 '1') }

end ReviewSensei.Execution
