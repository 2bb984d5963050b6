import ReviewSensei.Dispositions
import ReviewSensei.AssessmentQueue

/-! Finding and coverage commands on a session record, with embedded or snapshot decisions. -/
namespace ReviewSensei.Disposition
open Session (ReviewTransaction strip bind_ok)
open Assessment (sorted)

structure MaintainerCommand where
  action : String
  actor : String
  reason : Option String := none
  findingFingerprint : Option String := none
  findingReference : Option String := none
  headSha : Option String := none
  findingReferences : List String := []
  findingFingerprints : List String := []

namespace MaintainerCommand

def references (c : MaintainerCommand) : List String :=
  if c.findingReferences ≠ [] then c.findingReferences else c.findingReference.toList

def explicit (c : MaintainerCommand) : List String :=
  if c.findingFingerprints ≠ [] then c.findingFingerprints
  else if c.references = [] then c.findingFingerprint.toList
  else []

end MaintainerCommand

/-- The other arguments of `apply_session_command`. -/
structure CommandArguments where
  now : Int
  findingFingerprints : List String := []
  findingInventory : List FindingIdentity := []
  priorInventories : List (String × List FindingIdentity) := []
  incompleteCoverage : List String := []
  actorRole : Option String := none
  policyDigest : Option String := none
  provenance : Option String := none

structure CommandError where
  message : String
  receipts : List OverrideReceipt := []

/-- The variables of `_plan_override`. -/
structure PlanState where
  planned : List FindingDisposition
  receipts : List OverrideReceipt
  seen : List String
  failed : Bool

section Planning
variable (text : TextRules) (command : MaintainerCommand) (args : CommandArguments)

/-- The findings that a command's ids are resolved in. -/
def planInventory : List FindingIdentity :=
  if command.references ≠ [] ∧ args.findingInventory = [] then
    (args.findingFingerprints.filter isFingerprint).map (fun f => ⟨f, some f, true⟩)
  else args.findingInventory

def hasAuditFields : Bool :=
  args.actorRole.isSome || args.policyDigest.isSome || args.provenance.isSome

/-- The decision of this command on one finding. -/
def planDecision (fingerprint : String) (reference : Option String) : FindingDisposition where
  fingerprint
  action := command.action
  reason := command.reason.getD ""
  actor := command.actor
  headSha := command.headSha
  actorRole := args.actorRole
  findingReference := if hasAuditFields args then reference else none
  recordedAt := if hasAuditFields args then some (text.timestamp args.now) else none
  policyDigest := args.policyDigest
  provenance := args.provenance
  targetKind := if hasAuditFields args then some "finding" else none

/-- Adds one decision to the plan. -/
def planOne (s : PlanState) (fingerprint : String) (reference : Option String)
    (receipt : OverrideReceipt) : Except CommandError PlanState :=
  match FindingDisposition.construct text (planDecision text command args fingerprint reference) with
  | .error message => .error ⟨message, []⟩
  | .ok d => .ok
    { s with
      planned := s.planned ++ [d]
      receipts := s.receipts ++ [receipt]
      seen := fingerprint :: s.seen }

def planReference (s : PlanState) (reference : String) : Except CommandError PlanState :=
  match resolveFindingIdentity reference (planInventory command args) with
  | .error message => .ok
    { s with
      failed := true
      receipts := s.receipts ++ [failedReceipt reference message args.priorInventories] }
  | .ok found =>
    if s.seen.contains found.instance_ then .ok
      { s with receipts :=
          s.receipts ++ [⟨reference, some found.instance_, "already-recorded", ""⟩] }
    else planOne text command args s found.instance_ (some reference)
      ⟨reference, some found.instance_, "recorded", ""⟩

def planFingerprint (s : PlanState) (fingerprint : String) : Except CommandError PlanState :=
  if s.seen.contains fingerprint then .ok s
  else planOne text command args s fingerprint none ⟨fingerprint, some fingerprint, "recorded", ""⟩

/-- The receipts and the message of a command that records nothing. -/
def rejectPlan (receipts : List OverrideReceipt) : CommandError :=
  let frozen := receipts.map (fun r =>
    if r.outcome = "recorded" then { r with outcome := "not-applied" } else r)
  let names := ", ".intercalate
    ((frozen.filter (fun r => r.outcome ≠ "not-applied")).map (·.reference))
  { message :=
      if frozen.any (fun r => r.detail = "needs the current review") then
        "finding id needs the current review"
      else "Nothing was recorded because one ID could not be applied" ++
        (if names = "" then "" else ": " ++ names)
    receipts := frozen }

/-- `_plan_override`. -/
def planOverride : Except CommandError (List FindingDisposition × List OverrideReceipt) :=
  if command.references ≠ [] ∧ planInventory command args = [] ∧ args.priorInventories = [] then
    .error ⟨"finding id needs the current review",
      command.references.map (fun r => ⟨r, none, "unknown", "needs the current review"⟩)⟩
  else do
    let resolved ← command.references.foldlM (planReference text command args) ⟨[], [], [], false⟩
    let s ← command.explicit.foldlM (planFingerprint text command args) resolved
    if s.failed then .error (rejectPlan s.receipts)
    else .ok (s.planned, s.receipts)

/-- The plan of a coverage command: one decision on the exact incomplete scope. -/
def planCoverage : Except CommandError (List FindingDisposition × List OverrideReceipt) :=
  match command.headSha with
  | none => .error ⟨"coverage uncertainty acceptance requires an exact head_sha", []⟩
  | some head =>
    let enumerated :=
      sorted ((args.incompleteCoverage.map strip).filter (· ≠ "")).eraseDups
    match args.policyDigest with
    | none => .ok ([], [⟨"coverage-uncertainty", none, "unknown", "needs the current review"⟩])
    | some policy =>
      if enumerated = [] ∨ policy = "" then
        .ok ([], [⟨"coverage-uncertainty", none, "unknown", "needs the current review"⟩])
      else
        let fingerprint := sha256 ("coverage-uncertainty:" ++ head ++ ":" ++ policy ++ ":" ++
          ",".intercalate enumerated)
        match FindingDisposition.construct text
          { planDecision text command args fingerprint none with
            recordedAt := some (text.timestamp args.now)
            targetKind := some "coverage_uncertainty"
            incompleteCoverage := enumerated } with
        | .error message => .error ⟨message, []⟩
        | .ok d => .ok ([d], [⟨"coverage-uncertainty", some fingerprint, "recorded", ""⟩])

def planCommand : Except CommandError (List FindingDisposition × List OverrideReceipt) :=
  if findingActions.contains command.action then planOverride text command args
  else planCoverage text command args

end Planning

/-- The root of a decision snapshot. -/
structure SnapshotRoot where
  paged : Bool
  resultDigest : String
  manifest : String
  deriving DecidableEq

/-- The fields of a record; `rest` is what no decision command reads. -/
structure RecordFields (ρ : Type) where
  generation : Nat
  dispositions : List Decision
  snapshot : Option SnapshotRoot
  transaction : Option ReviewTransaction
  rest : ρ

/-- What a record relies on from outside. -/
structure RecordRules (ρ : Type) where
  text : TextRules
  /-- The other checks of the constructor. -/
  rejects : RecordFields ρ → Option String
  /-- The rest of a record that evolves now. -/
  touch : ρ → Int → ρ
  expired : ρ → Int → Bool
  fresh : Int → ρ

variable {ρ : Type}

/-- A record: its embedded decisions are in normal form, and no key is repeated. -/
structure DecisionRecord (rules : RecordRules ρ) extends RecordFields ρ where
  normal : dispositions.map Decision.normalize = dispositions
  keys_nodup : (dispositions.map Decision.key).Nodup

variable {rules : RecordRules ρ}

/-- The constructor. -/
def DecisionRecord.construct (rules : RecordRules ρ) (f : RecordFields ρ) :
    Except String (DecisionRecord rules) :=
  match h : storedDispositions rules.text false f.dispositions with
  | .error message => .error message
  | .ok stored =>
    match rules.rejects { f with dispositions := stored } with
    | some message => .error message
    | none => .ok ⟨{ f with dispositions := stored }, stored_normal h, (storedDispositions_ok h).2⟩

/-- A ledger, as far as decisions are kept in it. The evidence under a root does not change. -/
structure DecisionLedger (rules : RecordRules ρ) where
  brokerBound : Bool
  atomicInitialize : Bool
  writesEnabled : Bool
  stagesBatches : Bool
  pagedWrites : Option Bool
  capacity : DecisionRecord rules → Int
  /-- The decisions in the documents under a root. -/
  inventory : SnapshotRoot → List Decision
  stageDocument : DecisionRecord rules → List Decision → Except String String
  stageBatch : DecisionRecord rules → List Decision → Except String String
  /-- A batch authenticates the whole inventory before it returns. -/
  batch_reads : ∀ record values manifest digest, stageBatch record values = .ok manifest →
    storedDispositions rules.text true (inventory ⟨true, digest, manifest⟩) = .ok values

/-- What fails outside while one command is applied. -/
structure Failures where
  load : Option String := none
  before : Option String := none
  mutate : Option String := none
  readback : Option String := none
  after : Option String := none

/-- `read_session_dispositions`. -/
def readSessionDispositions (ledger : DecisionLedger rules) (fails : Option String)
    (record : DecisionRecord rules) : Except String (List Decision) :=
  match record.snapshot with
  | none => .ok record.dispositions
  | some root =>
    match fails with
    | some message => .error message
    | none => storedDispositions rules.text true (ledger.inventory root)

section Evolution
variable (ledger : DecisionLedger rules)

/-- `_disposition_expired`. -/
def dispositionExpired (text : TextRules) (d : Decision) (now : Int) : Bool :=
  d.expiresAt.any (fun t => (text.instant t).any (fun e => decide (e ≤ now)))

/-- A command on this head keeps the decision. -/
def survives (text : TextRules) (head : Option String) (now : Int) (d : Decision) : Bool :=
  !dispositionExpired text d now &&
    !(head.isSome && d.headSha.isSome && decide (d.headSha ≠ head))

/-- Appends a decision whose key has none yet. -/
def addDecision (kept : List Decision) (d : FindingDisposition) : List Decision :=
  if (kept.map Decision.key).contains d.key then kept else kept ++ [d.toDict]

def digestOf (record : DecisionRecord rules) (head : Option String) : Except String String :=
  match record.transaction with
  | none => .error "disposition snapshot requires the current reviewed transaction"
  | some t =>
    if some t.headSha ≠ head then
      .error "disposition snapshot requires the current reviewed transaction"
    else match t.resultSha256 with
      | none => .error "disposition snapshot requires the current reviewed transaction"
      | some digest => .ok digest

/-- The staged manifest: a page batch, or one document. -/
def stageManifest (paged : Bool) (record : DecisionRecord rules) (values : List Decision) :
    Except String String :=
  if !paged && record.snapshot.any (·.paged) then
    .error "paged snapshot cannot downgrade without a qualified writer"
  else if ledger.capacity record ≤ 0 then
    .error "disposition snapshot has no future root capacity"
  else if paged then ledger.stageBatch record values
  else ledger.stageDocument record values

def evolveRecord (record : DecisionRecord rules) (now : Int) (dispositions : List Decision)
    (snapshot : Option SnapshotRoot) : Except String (DecisionRecord rules) :=
  DecisionRecord.construct rules
    { record.toRecordFields with
      generation := record.generation + 1
      dispositions
      snapshot
      rest := rules.touch record.rest now }

/-- One document is read back before the record may refer to it. -/
def checkReadback (paged : Bool) (fails : Option String) (updated : DecisionRecord rules)
    (values : List Decision) : Except String Unit :=
  if paged then .ok ()
  else do
    let read ← readSessionDispositions ledger fails updated
    if read ≠ values then .error "disposition snapshot readback differs" else .ok ()

/-- `stage_session_dispositions`. -/
def stageSessionDispositions (fails : Failures) (record : DecisionRecord rules)
    (decisions : List Decision) (head : Option String) (now : Int) :
    Except String (DecisionRecord rules) := do
  let digest ← digestOf record head
  let values ← storedDispositions rules.text true decisions
  let paged := ledger.stagesBatches && ledger.pagedWrites.getD true
  let manifest ← stageManifest ledger paged record values
  let updated ← evolveRecord record now [] (some ⟨paged, digest, manifest⟩)
  checkReadback ledger paged fails.readback updated values
  .ok updated

/-- The decisions no longer fit the record, or already left it. -/
def needsSnapshot (record : DecisionRecord rules) (kept : List Decision)
    (head : Option String) : Bool :=
  record.snapshot.isSome ||
    (ledger.writesEnabled && ledger.pagedWrites = some true && ledger.stagesBatches &&
      decide (8 ≤ kept.length)) ||
    (head.isSome && decide (maxDispositionsPerHead < headCount kept head)) ||
    decide (maxDispositionBytes < dispositionArrayBytes kept)

/-- The decisions after a command: what survives, then what is new. -/
def mergedDecisions (text : TextRules) (current : List Decision)
    (new : List FindingDisposition) (head : Option String) (now : Int) : List Decision :=
  new.foldl addDecision (current.filter (survives text head now))

/-- `_evolve_dispositions`. -/
def evolveDispositions (fails : Failures) (record : DecisionRecord rules)
    (new : List FindingDisposition) (head : Option String) (now : Int) :
    Except String (DecisionRecord rules) := do
  let current ← readSessionDispositions ledger fails.mutate record
  let kept := mergedDecisions rules.text current new head now
  if kept = current then .ok record
  else if maxUnheadedDispositions < unheadedCount kept then
    .error "session disposition limit reached"
  else if needsSnapshot ledger record kept head && ledger.writesEnabled then
    stageSessionDispositions ledger fails record kept head now
  else if record.snapshot.isSome then
    .error "disposition snapshot writer is disabled; decisions retained"
  else if needsSnapshot ledger record kept head then .error "session disposition limit reached"
  else evolveRecord record now kept none

end Evolution

structure CommandResult where
  action : String
  applied : Bool
  summary : String := ""
  dispositions : List FindingDisposition := []
  receipts : List OverrideReceipt := []

/-- How far a command got before it raised. -/
inductive CommandFailure
  | planning (error : CommandError)
  | storing (message : String)
  /-- The record is stored; the answer to the command could not be read. -/
  | answering (message : String)

section Application
variable (ledger : DecisionLedger rules) (fails : Failures)

/-- The stored record of a session, as it loads. -/
inductive Loaded (rules : RecordRules ρ)
  | ok (record : DecisionRecord rules)
  | missing
  | failed (status : String)

def loadSession (world : Option (DecisionRecord rules)) (now : Int) : Loaded rules :=
  match fails.load, world with
  | some status, _ => .failed status
  | none, none => .missing
  | none, some record => if rules.expired record.rest now then .failed "expired" else .ok record

/-- `SessionRecord.create`. -/
def createRecord (now : Int) : Except String (DecisionRecord rules) :=
  DecisionRecord.construct rules
    { generation := 0
      dispositions := []
      snapshot := none
      transaction := none
      rest := rules.fresh now }

def withheldSummary : String :=
  "coverage uncertainty acceptance withheld; current incomplete coverage scope and policy " ++
    "could not be established"

def appliedSummary (action : String) : String :=
  if action = "accept-coverage-uncertainty" then
    "coverage uncertainty accepted for current head; analysis remains incomplete and is not " ++
      "marked complete"
  else "human disposition recorded; not an independently verified fix"

/-- The receipts of a stored command: what was there before is already recorded. -/
def storedReceipts (receipts : List OverrideReceipt) (before : List Decision)
    (head : Option String) : List OverrideReceipt :=
  receipts.map (fun r =>
    if r.outcome = "recorded" ∧ r.fingerprint.any (fun f =>
        (before.map Decision.key).contains (f, head)) then
      ⟨r.reference, r.fingerprint, "already-recorded", ""⟩
    else r)

/-- The answer to a command whose record is stored. -/
def answer (command : MaintainerCommand) (planned : List FindingDisposition)
    (receipts : List OverrideReceipt) (before : List Decision) (record : DecisionRecord rules) :
    Except String CommandResult := do
  let read ← readSessionDispositions ledger fails.after record
  let decoded ← read.mapM (FindingDisposition.ofStored rules.text)
  let named := decoded.filter (fun d => (planned.map (·.key)).contains d.key)
  .ok
    { action := command.action
      applied := true
      summary := appliedSummary command.action
      dispositions := if named = [] then planned else named
      receipts := storedReceipts receipts before command.headSha }

/-- The record a command starts from; a missing one is created and stored. -/
def startRecord (world : Option (DecisionRecord rules)) (planned : List FindingDisposition)
    (head : Option String) (now : Int) : Except String (DecisionRecord rules) :=
  match loadSession fails world now with
  | .ok record => .ok record
  | .failed status => .error ("session ledger load failed: " ++ status)
  | .missing => do
    let initial ← createRecord now
    if ledger.atomicInitialize then
      if planned = [] then .error "finding disposition is invalid"
      else evolveDispositions ledger fails initial planned head now
    else .ok initial

/-- The decisions before the record is replaced, and the record that replaces it. -/
def storeDecisions (initialized : Bool) (record : DecisionRecord rules)
    (planned : List FindingDisposition) (head : Option String) (now : Int) :
    Except String (List Decision × DecisionRecord rules) := do
  let before ← readSessionDispositions ledger fails.before record
  if initialized then .ok (before, record)
  else do
    let record' ← evolveDispositions ledger fails record planned head now
    .ok (before, record')

/-- `apply_session_command` of a finding or coverage command. -/
def applySessionCommand (world : Option (DecisionRecord rules)) (command : MaintainerCommand)
    (args : CommandArguments) :
    Option (DecisionRecord rules) × Except CommandFailure CommandResult :=
  match planCommand rules.text command args with
  | .error e => (world, .error (.planning e))
  | .ok (planned, receipts) =>
    if ledger.brokerBound && !ledger.atomicInitialize then
      (world, .error (.storing "broker-bound session ledger requires atomic initialization"))
    else if !findingActions.contains command.action && planned = [] then
      (world, .ok
        { action := command.action, applied := false, summary := withheldSummary, receipts })
    else
      match startRecord ledger fails world planned command.headSha args.now with
      | .error message => (world, .error (.storing message))
      | .ok record =>
        if planned = [] then (some record, .error (.storing "finding disposition is invalid"))
        else
          match storeDecisions ledger fails (world.isNone && ledger.atomicInitialize) record
              planned command.headSha args.now with
          | .error message => (some record, .error (.storing message))
          | .ok (before, record') =>
            match answer ledger fails command planned receipts before record' with
            | .error message => (some record', .error (.answering message))
            | .ok result => (some record', .ok result)

end Application
end ReviewSensei.Disposition
