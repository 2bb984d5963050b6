import ReviewSensei.CappedChoice
import ReviewSensei.Eligibility
import ReviewSensei.RemainingProgress
import ReviewSensei.VerdictSteps
import Mathlib.Data.Prod.Lex
import Mathlib.Data.String.Basic

/-! Selection under a strict cap of published findings, and the record that freezes it. -/
namespace ReviewSensei.Selection
open Session (isSha256)
open Sha256 (encode)
open Review (ReviewComment ReviewVerdict ResultFields ResultRules ReviewResult
  findingInstanceFingerprint projectReviewComments ConvergencePolicy maxComments)
open Approval (verdictDict)
open Progress (lifecycleDict)

section Slots

inductive SlotState
  | active
  | contingent
  | uncertain
  | released
  deriving DecidableEq, Repr

def SlotState.text : SlotState → String
  | .active => "active"
  | .contingent => "contingent"
  | .uncertain => "uncertain"
  | .released => "released"

/-- What `PublishedSlot` asks of its texts. -/
def slotTexts (printable : String → Bool) (target proofSha256 : String) : Bool :=
  decide (target ≠ "" ∧ (encode target).length ≤ 256) && printable target && isSha256 proofSha256

/-- `PublishedSlot`. -/
structure PublishedSlot (printable : String → Bool) where
  target : String
  state : SlotState
  proofSha256 : String
  texts : slotTexts printable target proofSha256 = true
  deriving DecidableEq

variable {printable : String → Bool}

def PublishedSlot.reserved (slot : PublishedSlot printable) : Bool :=
  decide (slot.state ≠ .released)

def PublishedSlot.toDocument (slot : PublishedSlot printable) : Json :=
  .obj [("target", .str slot.target), ("state", .str slot.state.text),
    ("proof_sha256", .str slot.proofSha256)]

/-- `by_target.get`. -/
def slotAt (slots : List (PublishedSlot printable)) (target : String) :
    Option (PublishedSlot printable) :=
  slots.find? (fun slot => slot.target = target)

/-- The number of slots that are reserved. -/
def reservations (slots : List (PublishedSlot printable)) : Nat :=
  slots.countP PublishedSlot.reserved

def sortedSlots (slots : List (PublishedSlot printable)) : List (PublishedSlot printable) :=
  slots.insertionSort (fun a b => a.target ≤ b.target)

/-- `_occupancy_digest`. -/
def occupancyDigest (slots : List (PublishedSlot printable)) : Except String String := do
  ensure (slots.map (·.target)).Nodup "publication occupancy is invalid"
  return sha256 (Json.canonical (.arr ((sortedSlots slots).map PublishedSlot.toDocument)))

end Slots

section Candidates

inductive Impact
  | critical
  | high
  | medium
  | low
  deriving DecidableEq, Repr

def Impact.text : Impact → String
  | .critical => "critical"
  | .high => "high"
  | .medium => "medium"
  | .low => "low"

/-- `_IMPACT`. -/
def impactRank : Option Impact → Nat
  | some .critical => 0
  | some .high => 1
  | some .medium => 2
  | some .low => 3
  | none => 4

inductive Support
  | causalSource
  | supportedSource
  | humanJudgment
  | advisory
  deriving DecidableEq, Repr

def Support.text : Support → String
  | .causalSource => "causal-source"
  | .supportedSource => "supported-source"
  | .humanJudgment => "human-judgment"
  | .advisory => "advisory"

/-- `_EVIDENCE`. -/
def Support.rank : Support → Nat
  | .causalSource => 0
  | .supportedSource => 1
  | .humanJudgment => 2
  | .advisory => 3

/-- `PublicationCandidate`; an admitted comment blocks approval by its admission alone. -/
structure PublicationCandidate where
  comment : ReviewComment
  required : Bool
  impact : Option Impact
  evidence : Support
  existingTarget : Option String := none
  admitted : comment.effectiveBlocking.isSome = true
  required_exact : required = (decide (comment.effectiveBlocking = some true) || comment.needsHuman)
  advisory : evidence = .advisory → required = false ∧ impact = none
  deriving DecidableEq

namespace PublicationCandidate

def instanceId (c : PublicationCandidate) : String :=
  findingInstanceFingerprint c.comment.toCommentFields

def commentSha256 (c : PublicationCandidate) : String := sha256 c.comment.toDict.canonical

/-- The tuples are compared from the left; the instance decides last. -/
def priority (c : PublicationCandidate) : Nat ×ₗ Nat ×ₗ Nat ×ₗ String :=
  toLex ((!c.required).toNat, toLex (impactRank c.impact, toLex (c.evidence.rank, c.instanceId)))

/-- One row of the criteria. -/
def toCriterion (c : PublicationCandidate) : Json :=
  .obj [("comment_sha256", .str c.commentSha256), ("instance", .str c.instanceId),
    ("required", .bool c.required), ("impact", (c.impact.map (fun i => .str i.text)).getD .null),
    ("evidence", .str c.evidence.text),
    ("existing_target", (c.existingTarget.map Json.str).getD .null)]

end PublicationCandidate

structure SelectedFinding where
  candidate : PublicationCandidate
  consumesSlot : Bool
  deriving DecidableEq

structure PublicationSelection where
  maxActiveFindings : Nat
  occupancySha256 : String
  selected : List SelectedFinding
  /-- Some candidate is required, selected or not. -/
  requiredVerdict : Bool
  deriving DecidableEq

variable {printable : String → Bool} (slots : List (PublishedSlot printable))

/-- `unique` and `matched` while the candidates are read. -/
structure Inventory where
  unique : Dict String PublicationCandidate := []
  matched : List String := []

/-- The checks of a new candidate with an existing target. -/
def matchTarget (matched : List String) (target : String) : Except String Unit :=
  match slotAt slots target with
  | none => .error "publication target match is missing or ambiguous"
  | some slot => do
    ensure (target ∉ matched) "publication target match is missing or ambiguous"
    ensure (slot.state ≠ .uncertain) "uncertain publication must reconcile before selection"

/-- One candidate of the inventory. -/
def admitCandidate (inventory : Inventory) (c : PublicationCandidate) :
    Except String Inventory :=
  match inventory.unique.get? c.instanceId with
  | some previous => do
    ensure (previous = c) "duplicate candidate has conflicting admission"
    return inventory
  | none =>
    match c.existingTarget with
    | none => .ok { inventory with unique := inventory.unique.set c.instanceId c }
    | some target => do
      matchTarget slots inventory.matched target
      return {
        unique := inventory.unique.set c.instanceId c
        matched := inventory.matched ++ [target] }

/-- A creation, or the reopening of a released target. -/
def consumes (c : PublicationCandidate) : Bool :=
  match c.existingTarget.bind (slotAt slots) with
  | none => true
  | some slot => !slot.reserved

/-- One candidate of the selection, with the slots that are reserved so far. -/
def takeCandidate (cap : Nat) (state : List SelectedFinding × Nat) (c : PublicationCandidate) :
    List SelectedFinding × Nat :=
  if consumes slots c = true ∧ state.2 = cap then state
  else (state.1 ++ [⟨c, consumes slots c⟩], state.2 + (consumes slots c).toNat)

def byPriority (candidates : List PublicationCandidate) : List PublicationCandidate :=
  candidates.insertionSort (fun a b => a.priority ≤ b.priority)

/-- `select_publication`. -/
def selectPublication (candidates : List PublicationCandidate) (maxActiveFindings : Nat) :
    Except String PublicationSelection := do
  ensure (1 ≤ maxActiveFindings) "publication selection inputs are invalid"
  ensure (slots.map (·.target)).Nodup "publication occupancy has duplicate targets"
  ensure (reservations slots ≤ maxActiveFindings)
    "existing publication reservations exceed the strict cap"
  let inventory ← candidates.foldlM (admitCandidate slots) {}
  let values := inventory.unique.map Prod.snd
  let state := (byPriority values).foldl (takeCandidate slots maxActiveFindings)
    ([], reservations slots)
  let occupancySha256 ← occupancyDigest slots
  return {
    maxActiveFindings, occupancySha256
    selected := state.1
    requiredVerdict := values.any (·.required) }

end Candidates

section Actions

inductive ActionKind
  | create
  | reuse
  | reopen
  deriving DecidableEq, Repr

def ActionKind.text : ActionKind → String
  | .create => "create"
  | .reuse => "reuse"
  | .reopen => "reopen"

/-- `PublicationAction`. -/
structure PublicationAction where
  instanceId : String
  commentSha256 : String
  action : ActionKind
  consumesSlot : Bool
  existingTarget : Option String := none
  targetState : Option SlotState := none
  targetProofSha256 : Option String := none
  deriving DecidableEq

/-- `expected`: what a target in this state asks for. -/
def expectedAction : SlotState → Option (ActionKind × Bool)
  | .active => some (.reuse, false)
  | .contingent => some (.reopen, false)
  | .released => some (.reopen, true)
  | .uncertain => none

namespace PublicationAction
variable (printable : String → Bool)

/-- The part of `__post_init__` about the target. -/
def checkTarget (a : PublicationAction) : Except String Unit :=
  match a.existingTarget, a.targetState, a.targetProofSha256 with
  | none, state, proof =>
    ensure (a.action = .create ∧ a.consumesSlot = true ∧ state = none ∧ proof = none)
      "publication action conflicts with target proof"
  | some target, some state, some proof => do
    ensure (slotTexts printable target proof = true) "published finding slot is invalid"
    ensure (expectedAction state = some (a.action, a.consumesSlot))
      "publication action conflicts with target proof"
  | some _, _, _ => .error "published finding slot is invalid"

/-- `__post_init__`. -/
def construct (a : PublicationAction) : Except String PublicationAction := do
  ensure (isSha256 a.instanceId = true ∧ isSha256 a.commentSha256 = true)
    "publication action is invalid"
  a.checkTarget printable
  return a

def toDocument (a : PublicationAction) : Json :=
  .obj [("instance", .str a.instanceId), ("comment_sha256", .str a.commentSha256),
    ("action", .str a.action.text), ("consumes_slot", .bool a.consumesSlot),
    ("existing_target", (a.existingTarget.map Json.str).getD .null),
    ("target_state", (a.targetState.map (fun s => Json.str s.text)).getD .null),
    ("target_proof_sha256", (a.targetProofSha256.map Json.str).getD .null)]

end PublicationAction

def actionKeys : List String :=
  ["instance", "comment_sha256", "action", "consumes_slot", "existing_target", "target_state",
    "target_proof_sha256"]

/-- A text of a document, or null. -/
def readOptionalText (message : String) : Option Json → Except String (Option String)
  | some .null => .ok none
  | some (.str s) => .ok (some s)
  | _ => .error message

def readFlag (message : String) : Option Json → Except String Bool
  | some (.bool b) => .ok b
  | _ => .error message

def SlotState.read (s : String) : Except String SlotState :=
  match s with
  | "active" => .ok .active
  | "contingent" => .ok .contingent
  | "uncertain" => .ok .uncertain
  | "released" => .ok .released
  | _ => .error "published finding slot is invalid"

def ActionKind.read : Option Json → Except String ActionKind
  | some (.str "create") => .ok .create
  | some (.str "reuse") => .ok .reuse
  | some (.str "reopen") => .ok .reopen
  | _ => .error "publication action conflicts with target proof"

/-- `PublicationAction.from_document`. -/
def PublicationAction.fromDocument (printable : String → Bool) (value : Json) :
    Except String PublicationAction := do
  ensure (value.hasKeys actionKeys = true) "publication action document is invalid"
  let instanceId ← Json.readText isSha256 "publication action is invalid" (value.get? "instance")
  let commentSha256 ← Json.readText isSha256 "publication action is invalid"
    (value.get? "comment_sha256")
  let consumesSlot ← readFlag "publication action is invalid" (value.get? "consumes_slot")
  let existingTarget ← readOptionalText "published finding slot is invalid"
    (value.get? "existing_target")
  let stateText ← readOptionalText "published finding slot is invalid" (value.get? "target_state")
  let targetState ← stateText.mapM SlotState.read
  let targetProofSha256 ← readOptionalText "published finding slot is invalid"
    (value.get? "target_proof_sha256")
  let action ← ActionKind.read (value.get? "action")
  PublicationAction.construct printable
    { instanceId, commentSha256, action, consumesSlot, existingTarget, targetState,
      targetProofSha256 }

end Actions

section Handoff

/-- `PublicationSelectionHandoff`. -/
structure PublicationSelectionHandoff where
  sourceResultSha256 : String
  selectedResultSha256 : String
  policyDigest : String
  criteriaSha256 : String
  occupancySha256 : String
  maxActiveFindings : Nat
  actions : List PublicationAction
  deriving DecidableEq

def handoffKeys : List String :=
  ["schema_version", "source_result_sha256", "selected_result_sha256", "policy_digest",
    "criteria_sha256", "occupancy_sha256", "max_active_findings", "actions"]

namespace PublicationSelectionHandoff

/-- `__post_init__`. -/
def construct (h : PublicationSelectionHandoff) : Except String PublicationSelectionHandoff := do
  ensure (isSha256 h.sourceResultSha256 = true ∧ isSha256 h.selectedResultSha256 = true ∧
      isSha256 h.policyDigest = true ∧ isSha256 h.criteriaSha256 = true ∧
      isSha256 h.occupancySha256 = true ∧ 1 ≤ h.maxActiveFindings ∧ h.actions.length ≤ maxComments)
    "publication selection handoff is invalid"
  ensure ((h.actions.map (·.instanceId)).Nodup ∧ (h.actions.filterMap (·.existingTarget)).Nodup)
    "publication selection has duplicate actions"
  ensure (h.actions.countP (·.consumesSlot) ≤ h.maxActiveFindings)
    "publication actions exceed the strict cap"
  return h

def toDocument (h : PublicationSelectionHandoff) : Json :=
  .obj [("schema_version", .str "inactive-publication-selection-v1"),
    ("source_result_sha256", .str h.sourceResultSha256),
    ("selected_result_sha256", .str h.selectedResultSha256),
    ("policy_digest", .str h.policyDigest), ("criteria_sha256", .str h.criteriaSha256),
    ("occupancy_sha256", .str h.occupancySha256),
    ("max_active_findings", .int h.maxActiveFindings),
    ("actions", .arr (h.actions.map PublicationAction.toDocument))]

/-- The list of actions in a document. -/
def readActions : Option Json → Except String (List Json)
  | some (.arr items) => do
    ensure (items.length ≤ maxComments) "publication selection document is invalid"
    return items
  | _ => .error "publication selection document is invalid"

/-- `from_document`; the digests and the cap are checked where the record is built. -/
def fromDocument (printable : String → Bool) (value : Json) :
    Except String PublicationSelectionHandoff := do
  ensure (value.hasKeys handoffKeys = true ∧
      value.get? "schema_version" = some (.str "inactive-publication-selection-v1"))
    "publication selection document is invalid"
  let items ← readActions (value.get? "actions")
  let actions ← items.mapM (PublicationAction.fromDocument printable)
  let digest := fun name =>
    Json.readText isSha256 "publication selection handoff is invalid" (value.get? name)
  let sourceResultSha256 ← digest "source_result_sha256"
  let selectedResultSha256 ← digest "selected_result_sha256"
  let policyDigest ← digest "policy_digest"
  let criteriaSha256 ← digest "criteria_sha256"
  let occupancySha256 ← digest "occupancy_sha256"
  let maxActiveFindings ← match value.get? "max_active_findings" with
    | some (.int (.ofNat n)) => Except.ok n
    | _ => .error "publication selection handoff is invalid"
  construct
    { sourceResultSha256, selectedResultSha256, policyDigest, criteriaSha256, occupancySha256,
      maxActiveFindings, actions }

variable {printable : String → Bool}

/-- The target of an action is still what it was. -/
def targetHolds (slots : List (PublishedSlot printable)) (item : PublicationAction) :
    Except String Unit :=
  match item.existingTarget with
  | none => .ok ()
  | some target =>
    ensure ((slotAt slots target).map (fun slot => (some slot.state, some slot.proofSha256)) =
        some (item.targetState, item.targetProofSha256))
      "publication target proof changed"

/-- `require_occupancy`. -/
def requireOccupancy (h : PublicationSelectionHandoff) (slots : List (PublishedSlot printable)) :
    Except String Unit := do
  let digest ← occupancyDigest slots
  ensure (digest = h.occupancySha256) "publication occupancy changed"
  ensure (reservations slots + h.actions.countP (·.consumesSlot) ≤ h.maxActiveFindings)
    "publication reservations exceed the strict cap"
  h.actions.forM (targetHolds slots)

end PublicationSelectionHandoff

end Handoff

section Content

/-- What the content digest reads of a result beside its comments, records and verdict. -/
structure ContentFields where
  summary : String
  provider : String
  model : Option String
  learningProposals : List Json
  reviewStatus : String
  sourceContext : Option Json
  evidencePolicy : String
  coverageMode : String
  coverage : Option Json
  persistenceStatus : Option String
  coverageOnlyPartial : Bool
  boundedWorkReceipt : Option Json

/-- The fields of `_CONTENT_DIGEST_FIELDS` that the document has. -/
def digestFields {ρ : Type} (c : ContentFields) (f : ResultFields ρ) : Dict String Json :=
  [("summary", .str c.summary), ("comments", .arr (f.comments.map (·.toDict))),
    ("provider", .str c.provider), ("model", (c.model.map Json.str).getD .null),
    ("learning_proposals", .arr c.learningProposals), ("review_status", .str c.reviewStatus)] ++
  Json.optional "source_context" c.sourceContext ++
  [("evidence_policy", .str c.evidencePolicy)] ++
  Json.optional "coverage_mode"
    (if c.coverageMode = "full" then none else some (.str c.coverageMode)) ++
  Json.optional "finding_lifecycles" (if f.findingLifecycles = [] then none
    else some (.arr (f.findingLifecycles.map lifecycleDict))) ++
  Json.optional "coverage" c.coverage ++
  Json.optional "persistence_status" (c.persistenceStatus.map .str)

/-- The document of `_content_digest_without_selection`. -/
def contentDocument {ρ : Type} (c : ContentFields) (f : ResultFields ρ) : Json :=
  let value := digestFields c f
  let value : Dict String Json :=
    if c.coverageOnlyPartial then
      ("domain", .str "reviewsensei:review-content:human-files:v1") :: value ++
        [("coverage_only_partial", .bool true)]
    else value
  let value : Dict String Json := match c.boundedWorkReceipt with
    | none => value
    | some receipt => Dict.set (Dict.set value "domain"
        (.str "reviewsensei:review-content:bounded-work:v1")) "bounded_work_receipt" receipt
  let value : Dict String Json := match f.reviewVerdict with
    | none => value
    | some verdict => Dict.set (Dict.set value "domain"
        (.str "reviewsensei:review-content:verdict:v1")) "review_verdict" (verdictDict verdict)
  .obj value

end Content

section Frozen

/-- What a result holds beside its comments, records and verdict. -/
structure SelectionRest (σ : Type) where
  publicationSelection : Option PublicationSelectionHandoff := none
  other : σ

/-- The other fields of a result: what the digest reads of them, their checks, their reader. -/
structure OtherRules (σ : Type) where
  printable : String → Bool
  /-- `str.lower`. -/
  lower : String → String
  content : σ → ContentFields
  /-- A transaction that already has a `result_sha256`. -/
  sealedResult : σ → Bool
  fields : ResultFields (SelectionRest σ) → Except String Unit
  bounds : ResultFields (SelectionRest σ) → Except String Unit
  reread : σ → Except String σ

variable {σ : Type} (others : OtherRules σ)

/-- `_content_digest_without_selection`. -/
def projectionDigest (f : ResultFields (SelectionRest σ)) : String :=
  sha256 (contentDocument (others.content f.rest.other) f).compact

/-- `content_digest`. -/
def contentDigest (f : ResultFields (SelectionRest σ)) : String :=
  match f.rest.publicationSelection with
  | none => projectionDigest others f
  | some handoff =>
    sha256 (Json.compact (.obj
      [("domain", .str "reviewsensei:review-content:publication-selection:v1"),
        ("selected_result_sha256", .str (projectionDigest others f)),
        ("publication_selection", handoff.toDocument)]))

/-- One comment of a result against its action. -/
def actionBinds (pair : ReviewComment × PublicationAction) : Except String Unit :=
  ensure (findingInstanceFingerprint pair.1.toCommentFields = pair.2.instanceId ∧
      sha256 pair.1.toDict.canonical = pair.2.commentSha256)
    "publication selection action binding changed"

/-- `require_result`. -/
def PublicationSelectionHandoff.requireResult (h : PublicationSelectionHandoff)
    (f : ResultFields (SelectionRest σ)) : Except String Unit := do
  ensure (f.reviewVerdict.map (·.policyDigest) = some h.policyDigest ∧
      projectionDigest others f = h.selectedResultSha256 ∧ f.comments.length = h.actions.length)
    "publication selection result binding changed"
  (f.comments.zip h.actions).forM actionBinds

/-- The checks and the reader of results that may have a frozen selection. -/
def selectionRules : ResultRules (SelectionRest σ) where
  handoff := fun f => f.rest.publicationSelection.forM (fun h => h.requireResult others f)
  fields := others.fields
  bounds := others.bounds
  reread := fun rest => do
    let publicationSelection ← rest.publicationSelection.mapM (fun h =>
      PublicationSelectionHandoff.fromDocument others.printable h.toDocument)
    let other ← others.reread rest.other
    return { publicationSelection, other }

variable (slots : List (PublishedSlot others.printable))

/-- The action of a selected finding. -/
def actionOf (item : SelectedFinding) : Except String PublicationAction :=
  let target := item.candidate.existingTarget.bind (slotAt slots)
  PublicationAction.construct others.printable
    { instanceId := item.candidate.instanceId
      commentSha256 := item.candidate.commentSha256
      action := match target with
        | none => .create
        | some slot => if slot.state = .active then .reuse else .reopen
      consumesSlot := item.consumesSlot
      existingTarget := target.map (·.target)
      targetState := target.map (·.state)
      targetProofSha256 := target.map (·.proofSha256) }

/-- `criteria_sha256`. -/
def criteriaDigest (candidates : List PublicationCandidate) : String :=
  sha256 (Json.canonical (.arr ((candidates.map PublicationCandidate.toCriterion).insertionSort
    (fun a b => a.canonical ≤ b.canonical))))

/-- The comments as sorted canonical documents. -/
def commentDocuments (comments : List ReviewComment) : List String :=
  Human.sorted (comments.map (fun c => c.toDict.canonical))

/-- `freeze_publication_selection`. -/
def freezePublicationSelection (source : ReviewResult (selectionRules others))
    (candidates : List PublicationCandidate) (maxActiveFindings : Nat)
    (policy : ConvergencePolicy) : Except String (ReviewResult (selectionRules others)) := do
  ensure (source.reviewVerdict.isSome = true ∧ source.rest.publicationSelection = none ∧
      others.sealedResult source.rest.other = false)
    "publication selection requires an unsealed admitted source"
  source.reviewVerdict.forM (fun verdict => verdict.requirePolicy policy)
  let plan ← selectPublication slots candidates maxActiveFindings
  ensure (commentDocuments (candidates.map (·.comment)) = commentDocuments source.comments ∧
      ∀ row ∈ candidates, row.comment ∈ source.comments)
    "publication candidates must cover the admitted source exactly"
  let selected ← projectReviewComments others.lower source
    (plan.selected.map (·.candidate.comment)) policy
  let actions ← plan.selected.mapM (actionOf others slots)
  let handoff ← PublicationSelectionHandoff.construct
    { sourceResultSha256 := contentDigest others source.toResultFields
      selectedResultSha256 := contentDigest others selected.toResultFields
      policyDigest := policy.digest
      criteriaSha256 := criteriaDigest candidates
      occupancySha256 := plan.occupancySha256
      maxActiveFindings
      actions }
  handoff.requireOccupancy slots
  ReviewResult.construct (selectionRules others)
    { selected.toResultFields with
      rest := { selected.rest with publicationSelection := some handoff } }

/-- `validate_publication_selection_source`. -/
def validatePublicationSelectionSource (source : ReviewResult (selectionRules others))
    (handoff : PublicationSelectionHandoff) (candidates : List PublicationCandidate)
    (policy : ConvergencePolicy) : Except String Unit := do
  let expected ← freezePublicationSelection others slots source candidates
    handoff.maxActiveFindings policy
  ensure (expected.rest.publicationSelection = some handoff)
    "publication selection source or criteria changed"

end Frozen
end ReviewSensei.Selection
