import ReviewSensei.SessionData
import Mathlib.Algebra.BigOperators.Group.List.Basic

/-! The accounting of caller requests in one workflow run: what is frozen, reserved, pending and
completed, the four transitions, and the check a stored record makes of its successor. -/
namespace ReviewSensei.ApiWork
open Session (firstFailure isSha256 isGitSha isAsciiAlnum ReviewTransaction)

/-- The closed JSON integers. -/
def maxApiRequestLimit : Nat := 2 ^ 53 - 1

def natural (n : Nat) : Prop := n ≤ maxApiRequestLimit

def positive (n : Nat) : Prop := 1 ≤ n ∧ n ≤ maxApiRequestLimit

instance (n : Nat) : Decidable (natural n) := inferInstanceAs (Decidable (_ ≤ _))

instance (n : Nat) : Decidable (positive n) := inferInstanceAs (Decidable (_ ∧ _))

/-- `[A-Za-z0-9_.:-]{1,128}` over the whole text. -/
def isName (s : String) : Bool :=
  let bytes := Sha256.encode s
  bytes.all (fun b => isAsciiAlnum b || b == 0x5f || b == 0x2e || b == 0x3a || b == 0x2d) &&
    decide (1 ≤ bytes.length) && decide (bytes.length ≤ 128)

structure ApiRunIdentity where
  repositoryId : Nat
  runId : Nat
  repositoryId_ok : positive repositoryId
  runId_ok : positive runId
  deriving DecidableEq

/-- One job of one attempt, in its turn. -/
structure ApiExecutionOwner where
  runAttempt : Nat
  job : String
  generation : Nat
  runAttempt_ok : runAttempt = 1 ∨ runAttempt = 2
  job_ok : isName job = true
  generation_ok : natural generation
  deriving DecidableEq

structure FrozenApiConfiguration where
  commit : String
  digest : String
  limit : Nat
  commit_ok : isGitSha commit = true
  digest_ok : isSha256 digest = true
  limit_ok : positive limit
  deriving DecidableEq

/-- The envelope of one job and attempt; each label is one caller request. -/
structure StartupSlot where
  job : String
  attempt : Nat
  requests : List String
  attempt_ok : attempt = 1 ∨ attempt = 2
  job_ok : isName job = true
  requests_ok : requests ≠ [] ∧ ∀ s ∈ requests, isName s = true
  deriving DecidableEq

abbrev SlotKey := String × Nat

def StartupSlot.key (s : StartupSlot) : SlotKey := (s.job, s.attempt)

def ApiExecutionOwner.key (o : ApiExecutionOwner) : SlotKey := (o.job, o.runAttempt)

/-- A first and a rerun slot for each job. -/
structure StartupPlan where
  slots : List StartupSlot
  nonempty : slots ≠ []
  keys_nodup : (slots.map StartupSlot.key).Nodup
  both_attempts : ∀ s ∈ slots, ∀ a ∈ [1, 2], (s.job, a) ∈ slots.map StartupSlot.key
  deriving DecidableEq

def StartupPlan.keys (plan : StartupPlan) : List SlotKey := plan.slots.map StartupSlot.key

def StartupPlan.liability (plan : StartupPlan) : Nat :=
  (plan.slots.map (fun s => s.requests.length)).sum

structure PendingApiRequest where
  requestId : String
  deadlineUnixMs : Nat
  requestId_ok : isName requestId = true
  deadline_ok : positive deadlineUnixMs
  deriving DecidableEq

structure CallerRequestBlock where
  blockId : String
  issuedBy : ApiExecutionOwner
  undispatched : Nat
  pending : List PendingApiRequest
  blockId_ok : isName blockId = true
  undispatched_ok : natural undispatched
  pending_nodup : (pending.map PendingApiRequest.requestId).Nodup
  deriving DecidableEq

namespace CallerRequestBlock

def construct (blockId : String) (issuedBy : ApiExecutionOwner) (undispatched : Nat)
    (pending : List PendingApiRequest) : Except String CallerRequestBlock :=
  if h : isName blockId = true ∧ natural undispatched ∧
      (pending.map PendingApiRequest.requestId).Nodup then
    .ok ⟨blockId, issuedBy, undispatched, pending, h.1, h.2.1, h.2.2⟩
  else .error "caller request block is invalid"

/-- `replace(b, pending=...)` with one request left out; it cannot fail. -/
def without (b : CallerRequestBlock) (request : PendingApiRequest) : CallerRequestBlock :=
  { b with
    pending := b.pending.filter (· ≠ request)
    pending_nodup := b.pending_nodup.sublist ((List.filter_sublist).map _) }

theorem construct_ok {blockId : String} {issuedBy : ApiExecutionOwner} {undispatched : Nat}
    {pending : List PendingApiRequest} {b : CallerRequestBlock}
    (h : construct blockId issuedBy undispatched pending = .ok b) :
    b.blockId = blockId ∧ b.issuedBy = issuedBy ∧ b.undispatched = undispatched ∧
      b.pending = pending := by
  unfold construct at h
  split at h
  · obtain rfl := Except.ok.inj h
    exact ⟨rfl, rfl, rfl, rfl⟩
  · cases h

end CallerRequestBlock

/-- The closure of an analysis that was aborted before it started. -/
structure AnalysisAbort where
  sourceRoot : String
  cleanupRoot : String
  transaction : ReviewTransaction
  runId : Nat
  owner : ApiExecutionOwner
  deriving DecidableEq

inductive ActionPurpose
  | command
  | reply
  deriving DecidableEq

inductive ActionSourceKind
  | issueComment
  | reviewComment
  deriving DecidableEq

structure ActionSource where
  kind : ActionSourceKind
  id : Nat
  updatedAt : String
  bodySha256 : String
  deriving DecidableEq

structure ActionIntent where
  purpose : ActionPurpose
  source : ActionSource
  runId : Nat
  owner : ApiExecutionOwner
  headSha : String
  configurationDigest : String
  operationKey : String
  sourceRoot : String
  deriving DecidableEq

/-- `ACTION_NOOP_REASONS`. -/
inductive NoopReason
  | status
  | alreadyHandled
  | policyDisabled
  | notACommand
  | unauthorized
  | writesDisabled
  | notMentioned
  | sourceAlreadyHandled
  | noChange
  deriving DecidableEq

/-- Only an explicit no-op carries a reason. -/
inductive ActionOutcome
  | applied
  | alreadyApplied
  | explicitNoop (reason : NoopReason)
  deriving DecidableEq

inductive ActionPhase
  | pending
  | terminal
  deriving DecidableEq

/-- The completion variant of a caller action; `result` is the canonical text of a manifest. -/
structure CallerAction where
  intent : ActionIntent
  phase : ActionPhase
  executionStarted : Bool
  result : Option String
  outcome : Option ActionOutcome
  deriving DecidableEq

structure HistoricalCompletion where
  schemaVersion : String
  document : String
  historicalRunId : Nat
  historicalRootSha256 : String
  currentRunId : Nat
  repositoryId : Nat
  currentPolicyCommit : String
  currentConfigurationSha256 : String
  deriving DecidableEq

/-- The reference to the run retained before this one. -/
structure PreviousRecord where
  runId : Nat
  rootSha256 : String
  manifest : String
  completion : Option HistoricalCompletion
  deriving DecidableEq

/-- The readers of the documents a record only carries; each gives the error it raises. -/
structure AccountingRules where
  readInlineEvidence : String → Option String
  validateManifest : String → Option String
  validateReceipt : String → Option String

inductive AccountingVersion
  | legacy
  | current
  deriving DecidableEq

structure AccountingFields where
  identity : ApiRunIdentity
  configuration : FrozenApiConfiguration
  owner : ApiExecutionOwner
  startup : StartupPlan
  startupUsed : List SlotKey
  priorNonstartupLiability : Nat
  blocks : List CallerRequestBlock
  completed : List PendingApiRequest
  version : AccountingVersion
  previousRecord : Option PreviousRecord
  terminalTransaction : Option String
  analysisAbort : Option AnalysisAbort
  action : Option CallerAction
  deriving DecidableEq

namespace AccountingFields

def confirmed (f : AccountingFields) : Nat := f.completed.length

def uncertain (f : AccountingFields) : Nat := (f.blocks.map (fun b => b.pending.length)).sum

def reservedUndispatched (f : AccountingFields) : Nat :=
  (f.blocks.map CallerRequestBlock.undispatched).sum

/-- What the frozen limit leaves to reserve. -/
def remaining (f : AccountingFields) : Int :=
  (f.configuration.limit : Int) - f.startup.liability - f.priorNonstartupLiability -
    f.confirmed - f.reservedUndispatched - f.uncertain

def pendingRequests (f : AccountingFields) : List PendingApiRequest :=
  f.blocks.flatMap CallerRequestBlock.pending

def requestIds (f : AccountingFields) : List String :=
  f.pendingRequests.map PendingApiRequest.requestId ++
    f.completed.map PendingApiRequest.requestId

def headChecks (f : AccountingFields) : List (Bool × String) :=
  [(decide (natural f.priorNonstartupLiability ∧
      (f.blocks.map CallerRequestBlock.blockId).Nodup ∧
      ∀ b ∈ f.blocks, b.issuedBy.generation ≤ f.owner.generation),
    "caller accounting record is invalid or obsolete")]

def abortChecks (f : AccountingFields) : List (Bool × String) :=
  match f.analysisAbort with
  | none => []
  | some a =>
    [(isSha256 a.sourceRoot && isSha256 a.cleanupRoot && decide (a.runId = f.identity.runId),
       "analysis abort closure is malformed"),
     (decide (a.owner = f.owner), "analysis abort closure owner conflicts")] ++
    a.transaction.checks ++
    [(decide (a.transaction.phase = .analysis ∧ f.terminalTransaction = none),
       "analysis abort closure is not an owned analysis")]

/-- The bytes `[0-9]{4}-[0-9]{2}-...Z` asks for; `d` stands for a digit. -/
def matchesStamp : List Char → List Nat → Bool
  | [], rest =>
    -- An optional fraction of one to six digits, then `Z`.
    rest == [0x5a] || (rest.head? == some 0x2e && rest.getLast? == some 0x5a &&
      decide (3 ≤ rest.length) && decide (rest.length ≤ 8) &&
      (rest.drop 1).dropLast.all (fun b => 0x30 ≤ b && b ≤ 0x39))
  | _ :: _, [] => false
  | c :: pattern, b :: rest =>
    (if c = 'd' then 0x30 ≤ b && b ≤ 0x39 else b == c.toNat) && matchesStamp pattern rest

def isStamp (s : String) : Bool :=
  matchesStamp ['d', 'd', 'd', 'd', '-', 'd', 'd', '-', 'd', 'd', 'T', 'd', 'd', ':', 'd', 'd',
    ':', 'd', 'd'] (Sha256.encode s)

def completionChecks (rules : AccountingRules) (action : CallerAction) : List (Bool × String) :=
  match action.phase with
  | .pending =>
    [(decide (action.result = none ∧ action.outcome = none),
      "pending action cannot carry a completion result")]
  | .terminal =>
    [(action.executionStarted, "terminal action has no execution entry"),
     (action.outcome.isSome, "caller action outcome is invalid"),
     (action.result.isSome, "caller action retained result is malformed"),
     ((action.result.bind rules.readInlineEvidence).isNone,
       (action.result.bind rules.readInlineEvidence).getD "")]

/-- `_validate_action`. -/
def actionChecks (rules : AccountingRules) (f : AccountingFields) : List (Bool × String) :=
  match f.action with
  | none => []
  | some action =>
    let intent := action.intent
    [(decide (f.terminalTransaction = none ∧ f.analysisAbort = none),
       "caller action completion variant is invalid"),
     (decide (intent.runId = f.identity.runId ∧
         intent.configurationDigest = f.configuration.digest) &&
       isGitSha intent.headSha && isSha256 intent.operationKey && isSha256 intent.sourceRoot,
       "caller action intent is malformed"),
     (decide (intent.owner.job = f.owner.job ∧ intent.owner.runAttempt ≤ f.owner.runAttempt ∧
         intent.owner.generation ≤ f.owner.generation),
       "caller action intent owner conflicts"),
     (decide ((intent.purpose = .command → intent.source.kind = .issueComment) ∧
         positive intent.source.id) && isStamp intent.source.updatedAt &&
       isSha256 intent.source.bodySha256,
       "caller action source is malformed")] ++ completionChecks rules action

def previousChecks (rules : AccountingRules) (f : AccountingFields) : List (Bool × String) :=
  match f.previousRecord with
  | none => []
  | some ref =>
    (decide (positive ref.runId ∧ ref.runId ≠ f.identity.runId) && isSha256 ref.rootSha256,
      "retained caller run reference is invalid") ::
    (match ref.completion with
      | none => []
      | some receipt =>
        [((rules.validateReceipt receipt.document).isNone,
           (rules.validateReceipt receipt.document).getD ""),
         (decide (receipt.schemaVersion = "caller-run-reference-v2" ∧
             receipt.historicalRunId = ref.runId ∧
             receipt.historicalRootSha256 = ref.rootSha256 ∧
             receipt.currentRunId = f.identity.runId ∧
             receipt.repositoryId = f.identity.repositoryId ∧
             receipt.currentPolicyCommit = f.configuration.commit ∧
             receipt.currentConfigurationSha256 = f.configuration.digest),
           "historical retained reference conflicts")]) ++
    [((rules.validateManifest ref.manifest).isNone, (rules.validateManifest ref.manifest).getD "")]

def startupOwned (f : AccountingFields) : Prop :=
  f.startupUsed.Nodup ∧ (∀ k ∈ f.startupUsed, k ∈ f.startup.keys) ∧ f.owner.key ∈ f.startupUsed

instance (f : AccountingFields) : Decidable f.startupOwned :=
  inferInstanceAs (Decidable (_ ∧ _ ∧ _))

def tailChecks (f : AccountingFields) : List (Bool × String) :=
  [(decide f.startupOwned, "caller accounting startup ownership is invalid"),
   (decide f.requestIds.Nodup, "caller accounting has reused request identities"),
   (decide (f.startup.liability ≤ f.configuration.limit),
     "api_request_limit cannot fund the measured startup plan"),
   (decide (0 ≤ f.remaining), "caller accounting exceeds the frozen run allowance")]

/-- `__post_init__`. -/
def checks (rules : AccountingRules) (f : AccountingFields) : List (Bool × String) :=
  f.headChecks ++ f.abortChecks ++
  [(f.terminalTransaction.all isSha256, "caller terminal transaction identity is invalid")] ++
  f.actionChecks rules ++ f.previousChecks rules ++ f.tailChecks

end AccountingFields

variable {rules : AccountingRules}

/-- A record: its fields passed every check. -/
structure ApiRunAccounting (rules : AccountingRules) extends AccountingFields where
  accepted : firstFailure (toAccountingFields.checks rules) = none

namespace ApiRunAccounting

instance : DecidableEq (ApiRunAccounting rules) := fun r s =>
  decidable_of_iff (r.toAccountingFields = s.toAccountingFields)
    ⟨fun h => by cases r; cases s; cases h; rfl, fun h => h ▸ rfl⟩

def construct (rules : AccountingRules) (f : AccountingFields) :
    Except String (ApiRunAccounting rules) :=
  match h : firstFailure (f.checks rules) with
  | none => .ok ⟨f, h⟩
  | some e => .error e

theorem construct_ok {f : AccountingFields} {r : ApiRunAccounting rules}
    (h : construct rules f = .ok r) : r.toAccountingFields = f := by
  unfold construct at h
  split at h
  · exact (Except.ok.inj h).symm ▸ rfl
  · cases h

theorem check (r : ApiRunAccounting rules) {c : Bool × String}
    (hc : c ∈ r.headChecks ∨ c ∈ r.tailChecks) : c.1 = true := by
  apply Session.firstFailure_eq_none.mp r.accepted
  unfold AccountingFields.checks
  rcases hc with hhead | htail
  · simp only [List.append_assoc, List.mem_append]
    exact .inl hhead
  · exact List.mem_append_right _ htail

theorem blockIds_nodup (r : ApiRunAccounting rules) :
    (r.blocks.map CallerRequestBlock.blockId).Nodup := by
  have h := of_decide_eq_true (r.check (.inl (List.mem_singleton_self _)))
  exact h.2.1

theorem issued_before (r : ApiRunAccounting rules) {b : CallerRequestBlock} (hb : b ∈ r.blocks) :
    b.issuedBy.generation ≤ r.owner.generation := by
  have h := of_decide_eq_true (r.check (.inl (List.mem_singleton_self _)))
  exact h.2.2 b hb

theorem startup_owned (r : ApiRunAccounting rules) : r.startupOwned :=
  of_decide_eq_true (r.check (.inr (.head _)))

theorem requestIds_nodup (r : ApiRunAccounting rules) : r.requestIds.Nodup :=
  of_decide_eq_true (r.check (.inr (.tail _ (.head _))))

theorem remaining_nonneg (r : ApiRunAccounting rules) : 0 ≤ r.remaining :=
  of_decide_eq_true (r.check (.inr (.tail _ (.tail _ (.tail _ (.head _))))))

/-- Propose a block for the current owner. -/
def reserve (r : ApiRunAccounting rules) (blockId : String) (requests : Nat) :
    Except String (ApiRunAccounting rules) :=
  if ¬positive requests then .error "caller reservation must contain requests"
  else do
    let block ← CallerRequestBlock.construct blockId r.owner requests []
    construct rules { r.toAccountingFields with blocks := r.blocks ++ [block] }

/-- The loop of `dispatch` over the blocks, with its `found`. -/
def spend (owner : ApiExecutionOwner) (blockId : String) (request : PendingApiRequest) :
    List CallerRequestBlock → Except String (List CallerRequestBlock × Bool)
  | [] => .ok ([], false)
  | block :: rest =>
    if block.blockId = blockId then
      if block.issuedBy ≠ owner then .error "caller request block requires its issuing owner"
      else if block.undispatched = 0 then .error "caller request block is exhausted"
      else do
        let spent ← CallerRequestBlock.construct block.blockId block.issuedBy
          (block.undispatched - 1) (block.pending ++ [request])
        let (later, _) ← spend owner blockId request rest
        .ok (spent :: later, true)
    else do
      let (later, found) ← spend owner blockId request rest
      .ok (block :: later, found)

/-- Move one durable slot to pending before its physical dispatch. -/
def dispatch (r : ApiRunAccounting rules) (blockId : String) (request : PendingApiRequest) :
    Except String (ApiRunAccounting rules) :=
  if request.requestId ∈ r.requestIds then .error "caller request identity was already used"
  else do
    let (blocks, found) ← spend r.owner blockId request r.blocks
    if found then construct rules { r.toAccountingFields with blocks }
    else .error "caller request block is absent"

/-- A known response changes category; it creates no capacity. -/
def confirm (r : ApiRunAccounting rules) (request : PendingApiRequest) :
    Except String (ApiRunAccounting rules) :=
  if r.pendingRequests.count request ≠ 1 then
    .error "caller response has no unique pending request"
  else construct rules
    { r.toAccountingFields with
      completed := r.completed ++ [request]
      blocks := r.blocks.map (fun b => b.without request) }

/-- Propose the next owner, for a startup slot nobody has claimed. -/
def claimStartup (r : ApiRunAccounting rules) (owner : ApiExecutionOwner) :
    Except String (ApiRunAccounting rules) :=
  if owner.runAttempt < r.owner.runAttempt then
    .error "caller accounting cannot return to an earlier attempt"
  else if owner.key ∈ r.startupUsed ∨ owner.key ∉ r.startup.keys then
    .error "startup slot is consumed or unsupported"
  else if owner.generation ≠ r.owner.generation + 1 then
    .error "caller accounting owner generation conflicts"
  else construct rules
    { r.toAccountingFields with owner, startupUsed := r.startupUsed ++ [owner.key] }

def requireBinding (r : ApiRunAccounting rules) (identity : ApiRunIdentity)
    (configuration : FrozenApiConfiguration) : Except String Unit :=
  if r.identity ≠ identity ∨ r.configuration ≠ configuration then
    .error "caller accounting run or frozen configuration conflicts"
  else .ok ()

/-- What `require_successor` asks of the action. -/
def requireAction (action : Option CallerAction) (candidate : Option CallerAction) :
    Except String Unit :=
  match action with
  | none => .ok ()
  | some own =>
    match candidate with
    | none => .error "caller action intent cannot be replaced"
    | some other =>
      if own.intent ≠ other.intent then .error "caller action intent cannot be replaced"
      else if own.executionStarted && !other.executionStarted then
        .error "caller action entry cannot be reset"
      else if own.phase = .terminal ∧ own ≠ other then
        .error "caller action completion cannot be replaced"
      else .ok ()

/-- The block of this id in a candidate: the last one of the dictionary. -/
def blockOf (candidate : AccountingFields) (blockId : String) : Option CallerRequestBlock :=
  candidate.blocks.reverse.find? (fun b => b.blockId == blockId)

/-- An earlier block is kept by its issuer, with every pending request kept or completed. -/
def keepsBlock (candidate : AccountingFields) (previous : CallerRequestBlock) : Bool :=
  match blockOf candidate previous.blockId with
  | none => false
  | some block =>
    decide (block.issuedBy = previous.issuedBy) &&
      decide (block.issuedBy = candidate.owner ∨ block.undispatched = previous.undispatched) &&
      previous.pending.all (fun p => block.pending.contains p || candidate.completed.contains p)

/-- The record this one would claim for the candidate's owner. -/
def claimed (r candidate : ApiRunAccounting rules) : Except String (ApiRunAccounting rules) :=
  if candidate.owner = r.owner then .ok r else r.claimStartup candidate.owner

/-- The comparisons of `require_successor` after the owner transition. -/
def requireRetained (r candidate : ApiRunAccounting rules) : Except String Unit :=
  if candidate.startup ≠ r.startup ∨
      candidate.startupUsed.take r.startupUsed.length ≠ r.startupUsed ∨
      candidate.completed.take r.completed.length ≠ r.completed ∨
      candidate.priorNonstartupLiability < r.priorNonstartupLiability ∨
      r.remaining < candidate.remaining ∨
      candidate.owner.generation < r.owner.generation then
    .error "caller accounting cannot discard prior charges or history"
  else if candidate.blocks.any (fun b =>
      !(r.blocks.any (fun p => p.blockId == b.blockId)) && b.issuedBy != candidate.owner) then
    .error "new caller reservations require the issuing owner"
  else if r.blocks.all (keepsBlock candidate.toAccountingFields) then .ok ()
  else .error "caller accounting cannot transfer or discard owner liability"

/-- Value retention between a stored record and the next one. -/
def requireSuccessor (r candidate : ApiRunAccounting rules) : Except String Unit := do
  r.requireBinding candidate.identity candidate.configuration
  if r.version ≠ candidate.version then
    .error "caller receipt encoding cannot change within a run"
  else if r.terminalTransaction ≠ none ∧ r.terminalTransaction ≠ candidate.terminalTransaction then
    .error "caller terminal transaction cannot be replaced"
  else if r.analysisAbort ≠ none ∧ r.analysisAbort ≠ candidate.analysisAbort then
    .error "analysis abort closure cannot be replaced"
  else if r.previousRecord ≠ candidate.previousRecord then
    .error "retained caller history cannot change within a run"
  else do
    requireAction r.action candidate.action
    let owned ← r.claimed candidate
    if candidate.startupUsed ≠ owned.startupUsed then
      .error "caller accounting owner transition does not match its startup claim"
    else r.requireRetained candidate

end ApiRunAccounting

/-- The initial record; the slots of earlier attempts are occupied from the start. -/
def initialAccounting (rules : AccountingRules) (identity : ApiRunIdentity)
    (configuration : FrozenApiConfiguration) (owner : ApiExecutionOwner) (startup : StartupPlan)
    (priorNonstartupLiabilityUpperBound : Option Nat) : Except String (ApiRunAccounting rules) :=
  match priorNonstartupLiabilityUpperBound with
  | none => .error "prior caller consumption is unknown"
  | some prior =>
    if ¬natural prior then .error "prior caller consumption is unknown"
    else if owner.key ∉ startup.keys ∨ owner.generation ≠ 0 then
      .error "initial caller execution owner is invalid"
    else ApiRunAccounting.construct rules
      { identity, configuration, owner, startup
        startupUsed := (startup.slots.filter (fun s =>
          s.attempt < owner.runAttempt || s.key == owner.key)).map StartupSlot.key
        priorNonstartupLiability := prior
        blocks := []
        completed := []
        version := .current
        previousRecord := none
        terminalTransaction := none
        analysisAbort := none
        action := none }

end ReviewSensei.ApiWork
