import ReviewSensei.Effects
import ReviewSensei.ExecutionData

/-! `execute_call`: every dispatch is counted, correction and transport retries are bounded,
and every way out leaves the output reservation either settled or retained. -/
namespace ReviewSensei.Execution
open ReviewSensei.Effects

inductive SaveReason
  | admission | admissionDispatch | dispatch | accounting | accepted | pending | replay | finalize
  deriving DecidableEq, Repr

structure CheckpointMutation where
  reason : SaveReason
  batchId : Option String := none
  requestDigest : Option String := none
  dispatchDigest : Option String := none
  deriving DecidableEq, Repr

/-- One activation of a store. `about`, `nextIndex` and `dispatched` are the arguments with
which the save was requested; the rest is what the store receives. -/
structure SaveRecord (T : Type) where
  about : Option WorkBatch
  nextIndex : Nat
  dispatched : Bool
  execution : WorkExecution T
  tracker : Tracker
  requestDigests : Dict String (Option String)
  mutation : Option CheckpointMutation
  deriving DecidableEq

/-- What a run shows to its hosts, in order. -/
inductive Event (T : Type)
  | save (record : SaveRecord T) (completes : Bool)
  | called (batch : WorkBatch) (request : ProviderRequest)
  | answered (request : ProviderRequest) (text : String)
  | refused (item : CompletedBatch T)
  | notRevalidated (item : CompletedBatch T)

/-- How often a run has read each part of its environment. -/
structure Cursor where
  clock : Nat := 0
  provider : Nat := 0
  calls : Nat := 0
  saves : Nat := 0
  accepts : Nat := 0
  deriving DecidableEq, Repr

/-- The environment of one process. Each function gives the answer to its `n`-th use, so that
clocks, providers and stores may answer in any way. -/
structure Environment where
  evidenceDigest : DigestDocument → String
  clock : Nat → Nat
  provider : Nat → ProviderFacts
  complete : Nat → ProviderRequest → Reply
  saveCompletes : Nat → Bool

/-- The mutable state of one process. -/
structure World (T : Type) where
  cursor : Cursor := {}
  tracker : Tracker
  accounting : OutputAccounting := {}
  completed : List (CompletedBatch T) := []
  pending : List (String × String) := []
  attemptedIds : List String := []
  lastSaved : Option (WorkExecution T × Counters) := none
  admissionPending : Bool := false
  currentDispatch : Option String := none
  events : List (Event T) := []

abbrev Run (T α : Type) := Prog Exc (World T) α

structure CallResult (T : Type) where
  value : Option T := none
  diagnostic : Option String := none
  deriving DecidableEq

/-- One pass through the loop of `execute_call` stops with a result or continues. -/
inductive Pass (T : Type)
  | stop (result : CallResult T)
  | again (corrected : Bool) (request : ProviderRequest)

/-- The callbacks of `execute_call`. -/
structure CallHooks (T : Type) where
  beforeDispatch : String → Run T Unit
  afterAccounting : Option (Run T Unit) := none
  deferResponseAccounting : Bool := false

variable {T : Type}

def emit (e : Event T) : Run T Unit := .modify (fun w => { w with events := w.events ++ [e] })

def validateBoundedText (text : String) (maximum : Nat) : Except Exc Unit :=
  if maximum < 1 then .error (.reviewInput "provider response size limit must be a positive integer")
  else if text.utf8ByteSize = 0 then .error (.reviewInput "provider response must be non-empty")
  else if maximum < text.utf8ByteSize then
    .error (.reviewInput "provider response exceeds the configured size limit")
  else .ok ()

/-- `replace(original, prompt=...)` checks the new prompt against the request's own bound. -/
def ProviderRequest.withPrompt (r : ProviderRequest) (prompt : String) :
    Except Exc ProviderRequest :=
  if r.maxPromptBytes < prompt.utf8ByteSize then
    .error (.reviewInput "provider prompt exceeds the configured size limit")
  else .ok { r with prompt := prompt }

section
variable (env : Environment)

/-- One reading of the monotonic clock. -/
def monotonic : Run T Nat :=
  ⟨fun w => (.ok (env.clock w.cursor.clock),
    { w with cursor := { w.cursor with clock := w.cursor.clock + 1 } })⟩

def readProvider : Run T ProviderFacts :=
  ⟨fun w => (.ok (env.provider w.cursor.provider),
    { w with cursor := { w.cursor with provider := w.cursor.provider + 1 } })⟩

def elapsedMs : Run T Nat := do
  let t ← monotonic env
  let w ← Prog.get
  pure (w.tracker.elapsedMs t)

def remainingTime : Run T Nat := do
  let t ← monotonic env
  let w ← Prog.get
  pure (w.tracker.remaining t)

variable (budgets : EffectiveWorkBudget)

def selectedModel (p : ProviderFacts) (request : ProviderRequest) : Option String :=
  (if p.allowModelOverride then request.model.filter (fun m => m ≠ "") else none).or p.model

def requireBinding (request : ProviderRequest) : Run T Unit :=
  match budgets.capabilities with
  | none => pure ()
  | some c => do
    let p ← readProvider env
    Prog.lift (c.requireProvider p (selectedModel p request))

/-- The output limit of the next dispatch: what the aggregate allowance still covers. -/
def outputLimit (w : World T) (request : ProviderRequest) : Nat :=
  min (min request.maxResponseBytes budgets.batchOutputBytes)
    (budgets.maxTotalOutputBytes - w.tracker.responseBytes - w.accounting.unknownResponseBytes)

/-- The charge and the reservation that precede a dispatch. -/
def World.reserve (w : World T) (prompt : String) (limit : Nat) : World T :=
  { w with
    tracker := (w.tracker.recordPromptAttempt prompt).recordProviderCall
    accounting := { w.accounting with inflightResponseBytes := limit } }

/-- Admission of one dispatch: the bounded request, charged and reserved, or a diagnostic. -/
def admitDispatch (request : ProviderRequest) : Run T (Except String ProviderRequest) := do
  requireBinding env budgets request
  let t ← monotonic env
  let w ← Prog.get
  match w.tracker.admitCall t request.prompt with
  | some diagnostic => pure (.error diagnostic)
  | none => do
    let fits ← Prog.lift (budgets.fitsPrompt request.prompt request.maxOutputTokens)
    if fits = false ∨
        budgets.maxTotalPromptBytes < w.tracker.promptBytes + request.prompt.utf8ByteSize then
      pure (.error "prompt_budget")
    else if outputLimit budgets w request = 0 then
      pure (.error "output_budget")
    else do
      let remaining ← remainingTime env
      let timeout := match request.timeout with
        | some s => min remaining s
        | none => remaining
      if timeout = 0 then pure (.error "deadline_exceeded")
      else do
        Prog.modify (fun w' => w'.reserve request.prompt (outputLimit budgets w request))
        pure (.ok { request with
          maxResponseBytes := outputLimit budgets w request, timeout := some timeout })

def dispatchDigest (p : ProviderFacts) (bounded : ProviderRequest) (providerCall : Nat) : String :=
  env.evidenceDigest (.workDispatch p.workIdentity (budgets.digest env.evidenceDigest)
    bounded.prompt bounded.model bounded.jsonMode bounded.maxOutputTokens bounded.maxPromptBytes
    bounded.maxResponseBytes bounded.timeout providerCall)

def World.uncertain (w : World T) : World T := { w with accounting := w.accounting.uncertain }

def World.settle (w : World T) (text : String) : World T :=
  { w with
    tracker := w.tracker.recordResponse text
    accounting := { w.accounting with inflightResponseBytes := 0 } }

/-- `after_accounting()` where the caller gave one. -/
def CallHooks.account (hooks : CallHooks T) : Run T Unit :=
  match hooks.afterAccounting with
  | some save => save
  | none => pure ()

/-- `output_accounting.uncertain()`, then the accounting callback. -/
def retainUncertain (hooks : CallHooks T) : Run T Unit := do
  Prog.modify World.uncertain
  hooks.account

/-- `provider.complete(bounded)`. -/
def complete (batch : WorkBatch) (bounded : ProviderRequest) : Run T Reply := do
  emit (.called batch bounded)
  let w ← Prog.get
  Prog.modify (fun w => { w with cursor := { w.cursor with calls := w.cursor.calls + 1 } })
  pure (env.complete w.cursor.calls bounded)

def admitTransportRetry (retryAfter : Option Nat) : Run T (Option String) := do
  let w ← Prog.get
  if w.tracker.budget.maxRetryAttempts ≤ w.tracker.transportRetries then
    pure (some "transport_retry_exhausted")
  else do
    let elapsed ← elapsedMs env
    if w.tracker.budget.timeoutMs ≤ elapsed then pure (some "deadline_exceeded")
    else do
      let remaining ← remainingTime env
      if remaining < retryAfter.getD 0 then pure (some "deadline_exceeded") else pure none

/-- `sleep_transport_retry`; the wait itself only moves the clock. -/
def sleepTransportRetry (retryAfter : Option Nat) : Run T Unit := do
  if retryAfter.getD 0 ≠ 0 then do
    let _ ← remainingTime env
    Prog.modify (fun w => { w with
      tracker := { w.tracker with transportRetries := w.tracker.transportRetries + 1 } })
  else
    Prog.modify (fun w => { w with
      tracker := { w.tracker with transportRetries := w.tracker.transportRetries + 1 } })

def stopWith (diagnostic : String) : Pass T := .stop { diagnostic := some diagnostic }

variable (hooks : CallHooks T) (original : ProviderRequest) (correction : String)
  (repairable : Option (Exc → Bool)) (validate : String → WorkBatch → Except Exc T)
  (batch : WorkBatch)

/-- The `except ProviderError` branch. -/
def retryTransport (corrected : Bool) (request : ProviderRequest) (transient : Bool)
    (retryAfter : Option Nat) : Run T (Pass T) := do
  retainUncertain hooks
  let remaining ← remainingTime env
  if remaining = 0 then pure (stopWith "deadline_exceeded")
  else if transient = false then pure (stopWith "provider_failed")
  else do
    match ← admitTransportRetry env retryAfter with
    | some reason => pure (stopWith reason)
    | none => do
      sleepTransportRetry env retryAfter
      hooks.account
      pure (.again corrected request)

/-- The refusal of a structural correction. -/
def refusesCorrection (w : World T) (corrected : Bool) (exc : Exc) : Bool :=
  correction = "" || (repairable.map (fun f => !f exc)).getD false || corrected ||
    decide (w.tracker.budget.maxRetryAttempts ≤ w.tracker.structuralRetries)

/-- The `except` branch of validation: one bounded correction, or the end of the call. -/
def correctStructure (corrected : Bool) (exc : Exc) : Run T (Pass T) := do
  let w ← Prog.get
  if exc.isValidation = false then Prog.raise exc
  else if refusesCorrection correction repairable w corrected exc then
    pure (stopWith "invalid_provider_output")
  else do
    Prog.modify (fun w => { w with
      tracker := { w.tracker with structuralRetries := w.tracker.structuralRetries + 1 } })
    hooks.account
    let request ← Prog.lift (original.withPrompt (original.prompt ++ "\n\n" ++ correction))
    pure (.again true request)

/-- A caller that saves the accepted result defers the accounting of its response. -/
def CallHooks.accountResponse (hooks : CallHooks T) : Run T Unit :=
  if hooks.deferResponseAccounting then pure () else hooks.account

/-- What follows a recorded response. -/
def acceptResponse (corrected : Bool) (bounded : ProviderRequest) (text : String) :
    Run T (Pass T) := do
  Prog.modify (fun w => w.settle text)
  emit (.answered bounded text)
  hooks.accountResponse
  let w ← Prog.get
  if budgets.maxTotalOutputBytes < w.tracker.responseBytes + w.accounting.unknownResponseBytes then
    pure (stopWith "output_budget")
  else do
    let elapsed ← elapsedMs env
    if w.tracker.budget.timeoutMs ≤ elapsed then pure (stopWith "deadline_exceeded")
    else match validateBoundedText text bounded.maxResponseBytes with
      | .error exc => correctStructure hooks original correction repairable corrected exc
      | .ok () => match validate text batch with
        | .error exc => correctStructure hooks original correction repairable corrected exc
        | .ok value => do
          let elapsed ← elapsedMs env
          if w.tracker.budget.timeoutMs ≤ elapsed then pure (stopWith "deadline_exceeded")
          else pure (.stop { value := some value })

/-- What follows `provider.complete`, by the way in which it ended. -/
def afterReply (corrected : Bool) (request bounded : ProviderRequest) : Reply → Run T (Pass T)
  | .providerError transient retryAfter =>
    retryTransport env hooks corrected request transient retryAfter
  | .invalid => do
    Prog.modify World.uncertain
    pure (stopWith "invalid_provider_output")
  | .failed => do
    Prog.modify World.uncertain
    pure (stopWith "provider_failed")
  | .notAResponse => do
    Prog.modify World.uncertain
    pure (stopWith "invalid_provider_output")
  | .interrupted => Prog.raise (.other "interrupted")
  | .response text =>
    acceptResponse env budgets hooks original correction repairable validate batch
      corrected bounded text

/-- One admitted dispatch: the durable callback, the two rechecks and the transport. -/
def dispatch (corrected : Bool) (request bounded : ProviderRequest) : Run T (Pass T) := do
  let p ← readProvider env
  let w ← Prog.get
  hooks.beforeDispatch (dispatchDigest env budgets p bounded w.tracker.providerCalls)
  match ← Prog.attempt (requireBinding env budgets request) with
  | .error _ => do
    retainUncertain hooks
    pure (stopWith "provider_identity_changed")
  | .ok () => do
    let remaining ← remainingTime env
    if remaining = 0 then do
      retainUncertain hooks
      pure (stopWith "deadline_exceeded")
    else do
      let final := { bounded with timeout := bounded.timeout.map (fun t => min t remaining) }
      let reply ← complete env batch final
      afterReply env budgets hooks original correction repairable validate batch
        corrected request final reply

/-- What admission answers once every provider call is spent. -/
def callsSpent (request : ProviderRequest) : Run T (CallResult T) := do
  requireBinding env budgets request
  let t ← monotonic env
  let w ← Prog.get
  pure { diagnostic := some (if w.tracker.budget.timeoutMs ≤ w.tracker.elapsedMs t
    then "deadline_exceeded" else "provider_call_limit") }

/-- The loop of `execute_call`. Every pass that goes on spends one provider call, so that the
fuel, the number of calls left, ends where admission refuses. -/
def callLoop : Nat → Bool → ProviderRequest → Run T (CallResult T)
  | 0, _, request => callsSpent env budgets request
  | fuel + 1, corrected, request => do
    match ← admitDispatch env budgets request with
    | .error diagnostic => pure { diagnostic := some diagnostic }
    | .ok bounded =>
      match ← dispatch env budgets hooks original correction repairable validate batch
          corrected request bounded with
      | .stop result => pure result
      | .again corrected' request' => callLoop fuel corrected' request'

def executeCall : Run T (CallResult T) := do
  let w ← Prog.get
  Prog.lift (w.tracker.budget.validateAgainstLimits original.limits)
  if budgets.resourceBudget.isSome = true ∧ budgets.resourceBudget ≠ some w.tracker.budget then
    Prog.raise (.reviewInput "work execution resource envelope changed after planning")
  else
    callLoop env budgets hooks original correction repairable validate batch
      (w.tracker.budget.maxProviderCalls - w.tracker.providerCalls) false original

end
end ReviewSensei.Execution
