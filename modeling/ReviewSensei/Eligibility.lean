import ReviewSensei.Approval
import ReviewSensei.HumanFiles
import ReviewSensei.QuarantineOrigins
import ReviewSensei.StagingData

/-! Eligibility: the facts of a published review with everything that is carried beside them. -/
namespace ReviewSensei.Approval
open Session (isSha256 isGitSha strip)
open Sha256 (encode)
open Diff (UnicodeRules)
open Review (ReviewComment ReviewVerdict ResultFields ResultRules ReviewResult)
open Coverage (CoverageManifest)
open Human (PendingHumanReview InventoryFields Resolution maxHumanInventoryFindings)
open Evidence (Binding)
open Schema (wholeLine)

def verdictDict (v : ReviewVerdict) : Json :=
  .obj [("schema_version", .str "1.0"), ("policy_digest", .str v.policyDigest),
    ("selected_comments_sha256", .str v.selectedCommentsSha256),
    ("selected_admission", .str v.selectedAdmission),
    ("unselected_blocking_defect", .bool v.unselectedBlockingDefect),
    ("unselected_human_decision", .bool v.unselectedHumanDecision)]

def FactFields.schemaVersion (f : FactFields) : String :=
  if f.reviewVerdict.isSome then "3" else if f.provider.isSome then "2" else "1"

/-- `ApprovalFacts.to_dict`: the state of the threads is not stored. -/
def FactFields.toDict (f : FactFields) : Json :=
  .obj ([("schema_version", .str f.schemaVersion), ("enabled", .bool f.enabled),
    ("app_authored", .bool f.appAuthored), ("review_status", .str f.reviewStatus.text),
    ("evidence_policy", .str f.evidencePolicy.text),
    ("has_blocking_findings", .bool f.hasBlockingFindings),
    ("has_human_adjudication_findings", .bool f.hasHumanAdjudicationFindings),
    ("coverage_blocker", (f.coverageBlocker.map (fun b => .str b.text)).getD .null),
    ("qualification", .str f.qualification.text), ("check_published", .bool f.checkPublished)] ++
    Json.optional "review_verdict" (f.reviewVerdict.map verdictDict) ++
    Json.optional "persistence_status"
      (f.persistenceStatus.map (fun _ => .str "capacity-exceeded")) ++
    Json.optional "provider" (f.provider.map .str) ++
    Json.optional "qualification_binding" (f.qualificationBinding.map .str))

/-- `replace(facts, has_human_adjudication_findings=…)`. -/
def ApprovalFacts.withHuman (f : ApprovalFacts) (pending : Bool) : ApprovalFacts where
  toFactFields := { f.toFactFields with hasHumanAdjudicationFindings := pending }
  accepted := f.accepted

section Carried

/-- A hold of an earlier review, as the eligibility carries it. -/
structure HistoricalView where
  scopeSha256 : String
  stateSha256 : String
  pending : List String
  freshHumanPending : Bool
  reviewId : Int
  historicalHeadSha : String
  deriving DecidableEq

def HistoricalView.toDocument (v : HistoricalView) : Json :=
  .obj [("scope_sha256", .str v.scopeSha256), ("state_sha256", .str v.stateSha256),
    ("pending", .arr (v.pending.map .str)), ("fresh_human_pending", .bool v.freshHumanPending),
    ("review_id", .int v.reviewId), ("historical_head_sha", .str v.historicalHeadSha)]

/-- `validate_view` of `historical_assessments`. -/
def HistoricalView.validate (v : HistoricalView) : Except String HistoricalView := do
  ensure (isSha256 v.scopeSha256 = true ∧ isSha256 v.stateSha256 = true ∧ 0 < v.reviewId ∧
      v.reviewId ≤ 9007199254740991 ∧ isGitSha v.historicalHeadSha = true ∧
      v.pending.length ≤ 100 ∧ (∀ item ∈ v.pending, isSha256 item = true) ∧ v.pending.Nodup)
    "historical assessment eligibility view is invalid"
  return v

def quarantineDocument (v : Quarantine.View) : Json :=
  .obj [("scope_sha256", .str v.scope), ("state_sha256", .str v.stateSha256),
    ("origins", .arr (v.origins.map Quarantine.ViewOrigin.toDocument)),
    ("pending", .arr (v.pending.map Quarantine.pendingDocument)),
    ("fresh_human_pending", .bool v.freshHumanPending)]

/-- One native review of a publication in parts. -/
structure UnionPart where
  nativeId : String
  contentSha256 : String
  findingCount : Int
  deriving DecidableEq

def UnionPart.toDocument (p : UnionPart) : Json :=
  .obj [("native_id", .str p.nativeId), ("content_sha256", .str p.contentSha256),
    ("finding_count", .int p.findingCount)]

/-- `[1-9][0-9]{0,18}` over the whole text. -/
def isDecimalId (s : String) : Bool :=
  match encode s with
  | [] => false
  | first :: rest =>
    (0x31 ≤ first && first ≤ 0x39) && decide (rest.length ≤ 18) &&
      rest.all (fun b => 0x30 ≤ b && b ≤ 0x39)

/-- `NativeUnionPart.__post_init__`. -/
def UnionPart.check (p : UnionPart) : Except String Unit := do
  ensure (Staging.isNativeId p.nativeId = true ∧ isSha256 p.contentSha256 = true)
    "publication receipt is invalid"
  ensure (isDecimalId p.nativeId = true ∧ p.nativeId.toNat?.getD 0 ≤ 2 ^ 63 - 1 ∧
      1 ≤ p.findingCount ∧ p.findingCount ≤ 32)
    "native union part identity or count is invalid"

structure UnionFields where
  repositoryId : Int
  pullRequest : Int
  producerId : Int
  baseSha : String
  headSha : String
  transactionId : String
  resultSha256 : String
  planSha256 : String
  inlineCount : Int
  parts : List UnionPart
  deriving DecidableEq

namespace UnionFields

/-- `context`. -/
def contextFields (u : UnionFields) : List (String × Json) :=
  [("repository_id", .int u.repositoryId), ("pull_request", .int u.pullRequest),
    ("producer_id", .int u.producerId), ("base_sha", .str u.baseSha),
    ("head_sha", .str u.headSha), ("transaction_id", .str u.transactionId),
    ("result_sha256", .str u.resultSha256), ("plan_sha256", .str u.planSha256),
    ("inline_count", .int u.inlineCount)]

def toDocument (u : UnionFields) : Json :=
  .obj (("schema_version", .str "native-review-union-v1") :: u.contextFields ++
    [("parts", .arr (u.parts.map UnionPart.toDocument))])

/-- The digest of the result whose publication the parts are. -/
def resultDigest (u : UnionFields) : String :=
  Evidence.digest (.obj [("domain", .str "reviewsensei:transaction-publication:v1"),
    ("transaction_id", .str u.transactionId), ("result_content_sha256", .str u.resultSha256)])

def maxUnionBytes : Nat := 4096

/-- `NativeUnionReceipt.__post_init__`. -/
def check (u : UnionFields) : Except String Unit := do
  u.parts.forM UnionPart.check
  ensure ((∀ i ∈ [u.repositoryId, u.pullRequest, u.producerId], 1 ≤ i ∧ i ≤ 2 ^ 63 - 1) ∧
      u.pullRequest ≤ 2 ^ 31 - 1 ∧ isGitSha u.headSha = true ∧ isGitSha u.baseSha = true ∧
      (∀ s ∈ [u.transactionId, u.resultSha256, u.planSha256], isSha256 s = true) ∧
      0 ≤ u.inlineCount ∧ u.inlineCount ≤ 250 ∧ u.parts.length ≤ 8 ∧
      (u.parts.map UnionPart.findingCount).sum = u.inlineCount ∧
      (u.parts.map UnionPart.nativeId).Nodup)
    "native union scope or complete part set is invalid"
  ensure (u.toDocument.canonicalSize ≤ maxUnionBytes)
    "native union exceeds its reserved frame capacity"

end UnionFields

structure NativeUnionReceipt extends UnionFields where
  accepted : toUnionFields.check = .ok ()

/-- `HumanInventoryReference`. -/
structure InventoryReference where
  eventKey : String
  payloadDigest : String
  deriving DecidableEq

def InventoryReference.toDict (r : InventoryReference) : Json :=
  .obj [("schema_version", .str "1.0"), ("purpose", .str "default-human-inventory"),
    ("event_key", .str r.eventKey), ("payload_digest", .str r.payloadDigest)]

/-- The room that a host leaves for a root and for what may still be added to it. -/
structure RootAllocation where
  maxRootBytes : Nat
  framingBytes : Nat
  futureLifecycleBytes : Nat

/-- What the host authenticates of a root apart from the root itself. -/
structure RootContext extends RootAllocation where
  binding : Binding
  resultDigest : String
  activationGeneration : Int
  visibleInstances : List String

/-- `PartitionedEligibilityRoot`: the fields of its document that do not change. -/
structure PartitionedRoot where
  headSha : String
  resultDigest : String
  immutableGeneration : Int
  activationGeneration : Int
  humanInventory : Json
  visibleProse : Json
  inventoryDigest : String
  context : RootContext

end Carried

section Document

/-- An object whose values pass their tests, with no other names. -/
def closedObject (required optional : List (String × (Json → Bool))) : Json → Bool
  | .obj fields =>
    fields.all (fun f => (required ++ optional).any (fun p => p.1 = f.1)) &&
      required.all (fun p => (Json.field? fields p.1).any p.2) &&
      optional.all (fun p => (Json.field? fields p.1).all p.2)
  | _ => false

def textThat (accepts : String → Bool) : Json → Bool
  | .str s => accepts s
  | _ => false

def isFlag : Json → Bool
  | .bool _ => true
  | _ => false

def oneOf (values : List Json) (j : Json) : Bool := values.contains j

def hasField (j : Json) (name : String) : Bool := (j.get? name).isSome

/-- `review-verdict`. -/
def verdictSchema : Json → Bool :=
  closedObject
    [("schema_version", oneOf [.str "1.0"]), ("policy_digest", textThat (wholeLine isSha256)),
      ("unselected_blocking_defect", isFlag), ("unselected_human_decision", isFlag),
      ("selected_comments_sha256", textThat (wholeLine isSha256)),
      ("selected_admission", textThat (fun s => decide (s.length ≤ 250) &&
        wholeLine (fun t => t.toList.all (fun c => c = 'A' || c = 'B' || c = 'H')) s))] []

/-- The facts as `eligibility-v5` has them, with what one field says of another. -/
def factsSchema (facts : Json) : Bool :=
  closedObject
    [("schema_version", oneOf [.str "1", .str "2", .str "3"]), ("enabled", isFlag),
      ("app_authored", isFlag),
      ("review_status",
        oneOf [.str "complete", .str "partial", .str "incomplete", .str "summary-only"]),
      ("evidence_policy", oneOf [.str "legacy", .str "confirmed"]),
      ("has_blocking_findings", isFlag), ("has_human_adjudication_findings", isFlag),
      ("coverage_blocker",
        oneOf [.null, .str "reviewed", .str "partial", .str "incomplete", .str "unknown"]),
      ("qualification",
        oneOf [.str "not-required", .str "qualified", .str "missing", .str "unverified"]),
      ("check_published", isFlag)]
    [("review_verdict", verdictSchema), ("persistence_status", oneOf [.str "capacity-exceeded"]),
      ("provider", textThat (wholeLine isProvider)),
      ("qualification_binding", textThat (wholeLine isSha256))] facts &&
    (!hasField facts "persistence_status" || facts.get? "review_status" = some (.str "partial")) &&
    (if facts.get? "schema_version" = some (.str "2") ∨
        facts.get? "schema_version" = some (.str "3") then hasField facts "provider"
      else !hasField facts "provider" && !hasField facts "qualification_binding") &&
    (!hasField facts "qualification_binding" ||
      facts.get? "provider" = some (.str "openrouter")) &&
    (decide (facts.get? "schema_version" = some (.str "3")) == hasField facts "review_verdict")

/-- `[a-f0-9]{64}\t[a-f0-9]{64}`. -/
def isEventKey (s : String) : Bool :=
  match (encode s).splitOn 9 with
  | [first, second] =>
    decide (first.length = 64) && decide (second.length = 64) &&
      (first ++ second).all Session.isHexDigit
  | _ => false

def referenceSchema : Json → Bool :=
  closedObject
    [("schema_version", oneOf [.str "1.0"]), ("purpose", oneOf [.str "default-human-inventory"]),
      ("event_key", textThat isEventKey), ("payload_digest", textThat isSha256)] []

def resolutionSchema : Json → Bool :=
  closedObject
    [("schema_version", oneOf [.str "1"]), ("inventory_digest", textThat isSha256),
      ("resolved", fun
        | .arr items => decide (items.length ≤ 250) && decide items.Nodup &&
          items.all (textThat isSha256)
        | _ => false)] []

/-- `eligibility-v5`; its bounds on the length of a text leave no room for a last line feed. -/
def eligibilityV5 : Json → Bool :=
  closedObject
    [("schema_version", oneOf [.str "5"]), ("head_sha", textThat isGitSha),
      ("result_digest", textThat isSha256), ("facts", factsSchema),
      ("human_inventory_reference", referenceSchema), ("human_resolution", resolutionSchema)] []

end Document

variable (rules : Human.Rules)

/-- A trusted eligibility for one exact head. -/
structure ReviewApprovalEligibility where
  headSha : String
  resultDigest : String
  facts : ApprovalFacts
  humanReview : Option (PendingHumanReview rules) := none
  partitionedRoot : Option PartitionedRoot := none
  humanInventoryReference : Option InventoryReference := none
  historicalAssessments : Option HistoricalView := none
  quarantineAssessments : Option Quarantine.View := none
  nativeUnion : Option NativeUnionReceipt := none

namespace ReviewApprovalEligibility
variable {rules}

/-- What the carried views say of the fresh findings. -/
def freshFlags (e : ReviewApprovalEligibility rules) : List Bool :=
  (e.historicalAssessments.map HistoricalView.freshHumanPending).toList ++
    (e.quarantineAssessments.map Quarantine.View.freshHumanPending).toList

/-- `fresh_human_pending`: fresh decisions stay distinct from each retained hold. -/
def freshHumanPending (e : ReviewApprovalEligibility rules) : Except String Bool := do
  let fresh := match e.humanReview with
    | some inventory => !inventory.pending.isEmpty
    | none => e.freshFlags.head?.getD e.facts.hasHumanAdjudicationFindings
  ensure (∀ flag ∈ e.freshFlags, flag = fresh) "carried assessment fresh facts conflict"
  return fresh

def historicalPending (e : ReviewApprovalEligibility rules) : Bool :=
  e.historicalAssessments.any (fun v => !v.pending.isEmpty)

def quarantinePending (e : ReviewApprovalEligibility rules) : Bool :=
  e.quarantineAssessments.any (fun v => !v.pending.isEmpty)

def carriedAssessmentPending (e : ReviewApprovalEligibility rules) : Bool :=
  e.historicalPending || e.quarantinePending

def plainFields (e : ReviewApprovalEligibility rules) (version : String) : List (String × Json) :=
  [("schema_version", .str version), ("head_sha", .str e.headSha),
    ("result_digest", .str e.resultDigest), ("facts", e.facts.toDict)]

/-- The document of an eligibility that has no reference and no root. -/
def plainDocument (e : ReviewApprovalEligibility rules) : Except String Json :=
  match e.humanReview with
  | none => .ok (.obj (e.plainFields "1"))
  | some inventory => do
    let document ← inventory.toDict
    let version := if hasField document "inventory" then "3"
      else if inventory.crossFile then "2.0" else "1"
    return .obj (e.plainFields version ++ [("human_review", document)])

def validateIdentity (headSha resultDigest : String) : Except String Unit :=
  ensure (isGitSha headSha = true ∧ isSha256 resultDigest = true)
    "approval eligibility identity is invalid"

def maxReferencedEligibilityBytes : Nat := 32 * 1024
def maxEligibilityMarkerBytes : Nat := 65536
def eligibilityMarkerPrefix : String := "<!-- reviewsensei:eligibility:v1"

/-- The marker of a document: its prefix, a blank, the document in base64 and the end. -/
def markerBytes (document : Json) : Nat :=
  eligibilityMarkerPrefix.length + 1 + (document.canonicalSize + 2) / 3 * 4 + 4

/-- The fields of `_referenced_document`. -/
def referencedFields (e : ReviewApprovalEligibility rules) (reference : InventoryReference)
    (resolution : Resolution) : List (String × Json) :=
  [("schema_version", .str "5"), ("head_sha", .str e.headSha),
    ("result_digest", .str e.resultDigest), ("facts", e.facts.toDict),
    ("human_inventory_reference", reference.toDict), ("human_resolution", resolution.toDict)]

/-- `_referenced_document`: the marker must have room for every later resolution. -/
def referencedDocument (e : ReviewApprovalEligibility rules) (reference : InventoryReference) :
    Except String Json :=
  match e.humanReview with
  | none => .error "human inventory reference eligibility conflicts"
  | some inventory => do
    ensure (e.partitionedRoot.isNone = true ∧
        e.facts.hasHumanAdjudicationFindings = !inventory.pending.isEmpty)
      "human inventory reference eligibility conflicts"
    validateIdentity e.headSha e.resultDigest
    let resolution ← Resolution.fromInventory inventory.toInventoryFields
    let value := Json.obj (e.referencedFields reference resolution)
    ensure (eligibilityV5 value = true) "eligibility-v5 document failed schema validation"
    let full ← Resolution.construct ⟨inventory.inventoryDigest, inventory.identities⟩
    let maximum := Json.obj
      ({ e with facts := e.facts.withHuman false }.referencedFields reference full)
    ensure (maximum.canonicalSize ≤ maxReferencedEligibilityBytes ∧
        markerBytes maximum ≤ maxEligibilityMarkerBytes)
      "human inventory eligibility exceeds future capacity"
    return value

/-- The fields of a root's document with some facts and some resolutions. -/
def rootFields (root : PartitionedRoot) (activationGeneration : Int) (facts : FactFields)
    (resolution : Resolution) : List (String × Json) :=
  [("schema_version", .str "4"), ("head_sha", .str root.headSha),
    ("result_digest", .str root.resultDigest), ("facts", facts.toDict),
    ("immutable_generation", .int root.immutableGeneration),
    ("activation_generation", .int activationGeneration),
    ("human_inventory", root.humanInventory), ("visible_prose", root.visibleProse),
    ("human_resolution", resolution.toDict)]

/-- `_preflight`. -/
def preflight (root : PartitionedRoot) (facts : ApprovalFacts)
    (inventory : InventoryFields rules) : Except String Unit := do
  let full ← Resolution.construct ⟨inventory.inventoryDigest, inventory.identities⟩
  let maximum := Json.obj (rootFields root 2147483647 (facts.withHuman false).toFactFields full)
  ensure (markerBytes maximum + root.context.framingBytes + root.context.futureLifecycleBytes ≤
      root.context.maxRootBytes)
    "partition eligibility exceeds complete future root allocation"

/-- `PartitionedEligibilityRoot.to_document`. -/
def partitionedDocument (e : ReviewApprovalEligibility rules) (root : PartitionedRoot) :
    Except String Json :=
  match e.humanReview with
  | none => .error "partition eligibility immutable authority changed"
  | some inventory => do
    ensure (inventory.inventoryDigest = root.inventoryDigest ∧ e.headSha = root.headSha ∧
        e.resultDigest = root.resultDigest)
      "partition eligibility immutable authority changed"
    let resolution ← Resolution.fromInventory inventory.toInventoryFields
    preflight root e.facts inventory.toInventoryFields
    return .obj (rootFields root root.activationGeneration e.facts.toFactFields resolution)

/-- The document without what is carried from other reviews. -/
def currentDocument (e : ReviewApprovalEligibility rules) : Except String Json :=
  match e.humanInventoryReference, e.partitionedRoot with
  | some reference, _ => e.referencedDocument reference
  | none, some root => e.partitionedDocument root
  | none, none => e.plainDocument

/-- The facts agree with the fresh findings and with every carried one. -/
def checkCombined (e : ReviewApprovalEligibility rules) (viewFresh : Bool) (message : String) :
    Except String Unit := do
  let fresh ← e.freshHumanPending
  ensure (viewFresh = fresh ∧
      e.facts.hasHumanAdjudicationFindings = (fresh || e.carriedAssessmentPending))
    message

/-- `to_dict` of an eligibility without a native union and without quarantine assessments. -/
def historicalDocument (e : ReviewApprovalEligibility rules) : Except String Json :=
  match e.historicalAssessments with
  | none => e.currentDocument
  | some view => do
    let hold ← view.validate
    e.checkCombined hold.freshHumanPending "historical combined assessment facts conflict"
    let current ← { e with
      historicalAssessments := none
      facts := e.facts.withHuman hold.freshHumanPending }.currentDocument
    return .obj [("schema_version", .str "6"), ("current", current),
      ("historical_assessments", hold.toDocument)]

/-- `to_dict` of an eligibility without a native union. -/
def carriedDocument (e : ReviewApprovalEligibility rules) : Except String Json :=
  match e.quarantineAssessments with
  | none => e.historicalDocument
  | some view => do
    let view ← Quarantine.validateView view
    e.checkCombined view.freshHumanPending "quarantine combined assessment facts conflict"
    let current ← { e with
      quarantineAssessments := none
      facts := e.facts.withHuman (view.freshHumanPending || e.historicalPending)
      }.historicalDocument
    return .obj [("schema_version", .str "7"), ("current", current),
      ("quarantine_assessments", quarantineDocument view)]

/-- `to_dict`. -/
def toDict (e : ReviewApprovalEligibility rules) : Except String Json :=
  match e.nativeUnion with
  | none => e.carriedDocument
  | some union => do
    ensure (union.headSha = e.headSha ∧ union.toUnionFields.resultDigest = e.resultDigest)
      "native union eligibility identity conflicts"
    let current ← { e with nativeUnion := none }.carriedDocument
    return .obj [("schema_version", .str "8"), ("current", current),
      ("native_union", union.toDocument)]

/-- What an inventory, or else the eligibility, says of the fresh findings. -/
def freshWith (e : ReviewApprovalEligibility rules) :
    Option (PendingHumanReview rules) → Except String Bool
  | some inventory => .ok (!inventory.pending.isEmpty)
  | none => e.freshHumanPending

/-- `with_fresh_human_review`: every carried obligation stays. -/
def withFreshHumanReview (e : ReviewApprovalEligibility rules)
    (inventory : Option (PendingHumanReview rules)) :
    Except String (ReviewApprovalEligibility rules) := do
  let _ ← e.toDict
  let inventory := inventory.or e.humanReview
  let fresh ← e.freshWith inventory
  return { e with
    humanReview := inventory
    historicalAssessments :=
      e.historicalAssessments.map (fun v => { v with freshHumanPending := fresh })
    quarantineAssessments :=
      e.quarantineAssessments.map (fun v => { v with freshHumanPending := fresh })
    facts := e.facts.withHuman (fresh || e.carriedAssessmentPending) }

/-- The stored facts with the live ones of an evaluation. -/
def liveFacts (e : ReviewApprovalEligibility rules) (appAuthored : Bool)
    (hasOpenReviewThreads : Option Bool) : FactFields :=
  { e.facts.toFactFields with
    appAuthored := appAuthored
    hasOpenReviewThreads := hasOpenReviewThreads }

/-- Quarantine assessments are read only from an eligibility that has a document. -/
def requireQuarantine (e : ReviewApprovalEligibility rules) : Except String Unit :=
  match e.quarantineAssessments with
  | none => .ok ()
  | some _ => do
    let _ ← e.toDict
    return ()

/-- `evaluate`. -/
def evaluate (e : ReviewApprovalEligibility rules) (appAuthored : Bool)
    (hasOpenReviewThreads : Option Bool) (coverageUncertaintyAccepted : Bool) :
    Except String AutoApprovalDecision := do
  e.requireQuarantine
  return evaluateApprovalFacts (e.liveFacts appAuthored hasOpenReviewThreads)
    coverageUncertaintyAccepted

end ReviewApprovalEligibility

section FromResult

/-- The source context of a result. -/
structure SourceContext where
  enabled : Bool
  complete : Bool
  deriving DecidableEq

/-- What the approval policy reads of a result beside its comments and its verdict, with the
digests of its content and of its publication. -/
structure ResultRest (unicode : UnicodeRules) where
  provider : String
  reviewStatus : ReviewStatus := .incomplete
  evidencePolicy : EvidencePolicy := .legacy
  persistenceStatus : Option PersistenceStatus := none
  coverage : Option (CoverageManifest unicode) := none
  coverageOnlyPartial : Bool := false
  sourceContext : Option SourceContext := none
  contentDigest : String
  publicationDigest : String

/-- The checks of `ReviewResult.__post_init__` on these fields. -/
def checkRest {unicode : UnicodeRules} (f : ResultFields (ResultRest unicode)) :
    Except String Unit := do
  ensure (f.rest.coverageOnlyPartial = true → f.rest.reviewStatus = .partialReview ∧
      f.rest.persistenceStatus = none ∧
      ∃ m ∈ f.rest.coverage, HumanFiles.coverageOnlyBinary m.toManifestFields)
    "coverage-only partial provenance is invalid"
  ensure (f.rest.persistenceStatus.isSome = true → f.rest.reviewStatus = .partialReview)
    "review persistence status is invalid"
  ensure (strip f.rest.provider ≠ "") "review provider must be a non-empty string"

/-- The checks of a result: these, and others that the policy does not read. -/
def resultRules {unicode : UnicodeRules} (others : ResultRules (ResultRest unicode)) :
    ResultRules (ResultRest unicode) :=
  { others with
    fields := fun f => do
      checkRest f
      others.fields f }

variable {rules} {others : ResultRules (ResultRest rules.unicode)}

def hasBlockingFindings (rules : Human.Rules) (comments : List ReviewComment) : Bool :=
  comments.any (Human.blocksApproval rules)

def hasHumanAdjudicationFindings (comments : List ReviewComment) : Bool :=
  comments.any (fun c => c.needsHuman)

/-- `provider.strip().lower()`. -/
def normalProvider (rules : Human.Rules) (provider : String) : String :=
  rules.lower (strip provider)

/-- `restrict_result_qualification`. -/
def restrictQualification (provider : String) (q : Qualification) : Qualification :=
  if provider = "openrouter" ∧ q.accepted = true then .unverified else q

def coverageState {unicode : UnicodeRules} (m : CoverageManifest unicode) : CoverageBlocker :=
  match m.approvalState with
  | .reviewed => .reviewed
  | .partialReview => .partialCoverage
  | .incomplete => .incomplete

/-- The fields of `approval_facts_from_result`. -/
def resultFacts (result : ReviewResult (resultRules others)) (enabled appAuthored : Bool)
    (q : Qualification) (checkPublished : Bool) (threads : Option Bool) : FactFields where
  enabled := enabled
  appAuthored := appAuthored
  reviewStatus := result.rest.reviewStatus
  evidencePolicy := result.rest.evidencePolicy
  hasBlockingFindings := hasBlockingFindings rules result.comments
  hasHumanAdjudicationFindings := hasHumanAdjudicationFindings result.comments
  coverageBlocker := result.rest.coverage.map coverageState
  qualification := restrictQualification (normalProvider rules result.rest.provider) q
  checkPublished := checkPublished
  hasOpenReviewThreads := threads
  persistenceStatus := result.rest.persistenceStatus
  provider := some (normalProvider rules result.rest.provider)
  reviewVerdict := result.reviewVerdict

/-- The arguments of an eligibility beside its result. -/
structure EligibilityArguments where
  headSha : String
  enabled : Bool
  appAuthored : Bool
  qualification : Qualification := .notRequired
  checkPublished : Bool := true
  baseSha : Option String := none

/-- The eligibility of the result alone. -/
def freshEligibility (result : ReviewResult (resultRules others)) (args : EligibilityArguments) :
    Except String (ReviewApprovalEligibility rules) := do
  let inventory ← Human.fromResult rules result.comments args.baseSha
  let facts ← ApprovalFacts.construct (resultFacts result args.enabled args.appAuthored
    args.qualification args.checkPublished none)
  return {
    headSha := args.headSha
    resultDigest := result.rest.publicationDigest
    facts := facts
    humanReview := inventory }

/-- One finding of a new inventory beside the retained ones, which keep their place and their
content. -/
def mergeFinding (findings : Dict String (Human.HumanReviewFinding rules))
    (item : Human.HumanReviewFinding rules) :
    Except String (Dict String (Human.HumanReviewFinding rules)) :=
  match findings.get? item.fingerprint with
  | none => .ok (findings.set item.fingerprint item)
  | some previous => do
    ensure (previous.path = item.path ∧ previous.body = item.body)
      "broader review finding authority conflicts"
    return findings.set item.fingerprint previous

/-- The verdict of a broader review: what either verdict leaves unselected stays. -/
def mergeVerdict (old new : Option ReviewVerdict) : Except String (Option ReviewVerdict) :=
  match old, new with
  | none, new => .ok new
  | some old, none => .ok (some old)
  | some old, some new => do
    ensure (new.policyDigest = old.policyDigest) "broader review verdict policy conflicts"
    let verdict ← ReviewVerdict.construct { new with
      unselectedBlockingDefect := new.unselectedBlockingDefect || old.unselectedBlockingDefect
      unselectedHumanDecision := new.unselectedHumanDecision || old.unselectedHumanDecision }
    return some verdict

/-- The facts of a broader review, field by field. -/
def mergeFacts (old new : FactFields) (verdict : Option ReviewVerdict) (pending : Bool) :
    FactFields :=
  { new with
    reviewVerdict := verdict
    persistenceStatus := new.persistenceStatus.or old.persistenceStatus
    enabled := new.enabled && old.enabled
    appAuthored := new.appAuthored || old.appAuthored
    reviewStatus :=
      if old.evidencePolicy = .confirmed ∧ new.evidencePolicy ≠ .confirmed then .partialReview
      else if old.reviewStatus = .complete then new.reviewStatus
      else old.reviewStatus
    evidencePolicy := if old.evidencePolicy = .confirmed then .confirmed else new.evidencePolicy
    hasBlockingFindings := new.hasBlockingFindings || old.hasBlockingFindings
    hasHumanAdjudicationFindings := pending
    coverageBlocker :=
      if old.coverageBlocker ≠ none ∧ old.coverageBlocker ≠ some .reviewed then old.coverageBlocker
      else new.coverageBlocker
    qualification := if old.qualification.accepted then new.qualification else old.qualification }

/-- The findings of the retained inventory under their identities. -/
def findingsTable (inventory : InventoryFields rules) :
    Dict String (Human.HumanReviewFinding rules) :=
  Dict.ofPairs (inventory.findings.map (fun f => (f.fingerprint, f)))

/-- `approval_eligibility_from_result`. -/
def approvalEligibilityFromResult (result : ReviewResult (resultRules others))
    (args : EligibilityArguments) (retained : Option (ReviewApprovalEligibility rules)) :
    Except String (ReviewApprovalEligibility rules) := do
  let eligibility ← freshEligibility result args
  match retained with
  | none => return eligibility
  | some retained =>
    match retained.humanReview with
    | none => .error "broader review retained authority is invalid"
    | some earlier => do
      ensure (retained.headSha = args.headSha ∧ some earlier.baseSha = args.baseSha)
        "broader review retained authority is invalid"
      let items := (eligibility.humanReview.map (fun i => i.findings)).getD []
      let findings ← items.foldlM mergeFinding (findingsTable earlier.toInventoryFields)
      let inventory ← PendingHumanReview.construct
        { baseSha := earlier.baseSha
          findings := findings.map Prod.snd
          resolved := earlier.resolved }
      let verdict ← mergeVerdict retained.facts.reviewVerdict eligibility.facts.reviewVerdict
      let facts ← ApprovalFacts.construct (mergeFacts retained.facts.toFactFields
        eligibility.facts.toFactFields verdict (!inventory.pending.isEmpty))
      return { eligibility with humanReview := some inventory, facts := facts }

end FromResult
end ReviewSensei.Approval
