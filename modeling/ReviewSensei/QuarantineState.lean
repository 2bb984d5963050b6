import ReviewSensei.EvidenceSizes

/-! Decisions on quarantined assessments, and the chain of events that keeps them. -/
namespace ReviewSensei.Quarantine
open Session (isSha256 isGitSha)
open Sha256 (encode)
open Json (readText readInteger)
open Schema (wholeLine)
open Holds (isActor digestText manifestSchema)
open Evidence (Binding Manifest Codec Reader Looks validateBinding validateManifest
  readPartitionedEvidence maxManifestBytes)
open ReadBudget (EvidenceReadBudget)

def maxDecisions : Nat := 200

/-- What Python reads of a text beyond its code points. -/
structure Rules where
  /-- `str.isprintable`, of one character. -/
  isPrintable : Char → Bool
  /-- No ASCII control is printable. -/
  printable_visible : ∀ c, isPrintable c = true → 0x20 ≤ c.toNat ∧ c.toNat ≠ 0x7f
  /-- `\d`. -/
  isDecimal : Char → Bool
  /-- `datetime.fromisoformat` takes the text once its `Z` is written as an offset. -/
  isInstant : String → Bool

/-- One individual decision; its documents have these fields and no others. -/
structure Decision where
  originScope : String
  identity : String
  action : String
  actor : String
  role : String
  headSha : String
  sourceId : Int
  sourceUpdatedAt : String
  sourceBodySha256 : String
  reason : String
  policySha256 : String
  deriving DecidableEq

namespace Decision

def toDocument (d : Decision) : Json :=
  .obj [("origin_scope_sha256", .str d.originScope), ("instance", .str d.identity),
    ("action", .str d.action), ("actor", .str d.actor), ("role", .str d.role),
    ("head_sha", .str d.headSha), ("source_id", .int d.sourceId),
    ("source_updated_at", .str d.sourceUpdatedAt),
    ("source_body_sha256", .str d.sourceBodySha256), ("reason", .str d.reason),
    ("policy_sha256", .str d.policySha256)]

/-- What a decision settles: an instance of one origin. -/
def key (d : Decision) : String × String := (d.originScope, d.identity)

end Decision

def decisionKeys : List String :=
  ["origin_scope_sha256", "instance", "action", "actor", "role", "head_sha", "source_id",
    "source_updated_at", "source_body_sha256", "reason", "policy_sha256"]

def actions : List String := ["dismiss", "accept-risk"]
def roles : List String := ["admin", "maintain"]

section Reading
variable (rules : Rules)

/-- `\d{4}-\d{2}-\d{2}T\d{2}:\d{2}:\d{2}Z`. -/
def isStamp (s : String) : Bool :=
  let shape := ['0', '0', '0', '0', '-', '0', '0', '-', '0', '0', 'T', '0', '0', ':', '0', '0', ':',
    '0', '0', 'Z']
  decide (s.toList.length = 20) &&
    (s.toList.zip shape).all (fun p => if p.2 = '0' then rules.isDecimal p.1 else p.1 == p.2)

def isReason (s : String) : Bool :=
  decide (16 ≤ (encode s).length) && decide ((encode s).length ≤ 4096) &&
    s.toList.all rules.isPrintable

def invalidValues : String := "quarantine assessment decision values are invalid"

/-- The checks on one decision. -/
def readDecision (value : Json) : Except String Decision := do
  ensure (value.hasKeys decisionKeys = true) "quarantine assessment decision is unsupported"
  let originScope ← readText isSha256 invalidValues (value.get? "origin_scope_sha256")
  let identity ← readText isSha256 invalidValues (value.get? "instance")
  let sourceBodySha256 ← readText isSha256 invalidValues (value.get? "source_body_sha256")
  let policySha256 ← readText isSha256 invalidValues (value.get? "policy_sha256")
  let action ← readText actions.contains invalidValues (value.get? "action")
  let role ← readText roles.contains invalidValues (value.get? "role")
  let sourceId ← readInteger 1 9007199254740991 invalidValues (value.get? "source_id")
  let reason ← readText (isReason rules) invalidValues (value.get? "reason")
  let headSha ← readText isGitSha "quarantine decision head or source is invalid"
    (value.get? "head_sha")
  let sourceUpdatedAt ← readText (isStamp rules) "quarantine decision head or source is invalid"
    (value.get? "source_updated_at")
  ensure (rules.isInstant sourceUpdatedAt = true) "quarantine decision source time is invalid"
  let actor ← readText isActor "quarantine decision actor is invalid" (value.get? "actor")
  return { originScope, identity, action, actor, role, headSha, sourceId, sourceUpdatedAt,
           sourceBodySha256, reason, policySha256 }

def stateVersion : String := "quarantine-assessment-state-v1"

def stateDocument (scope : String) (settlements : List Json) : Json :=
  .obj [("schema_version", .str stateVersion), ("scope_sha256", .str scope),
    ("settlements", .arr settlements)]

def settlementItems (itemCount : Int) : Option Json → Except String (List Json)
  | some (.arr items) =>
    if (items.length : Int) = itemCount ∧ 0 ≤ itemCount ∧ itemCount ≤ maxDecisions then .ok items
    else .error "quarantine assessment state conflicts"
  | _ => .error "quarantine assessment state conflicts"

/-- `validate_assessment_state`, with the decisions it has read. -/
def validateAssessmentState (value : Json) (scope : String) (itemCount : Int) :
    Except String (List Decision) := do
  ensure (value.hasKeys ["schema_version", "scope_sha256", "settlements"] = true ∧
      value.get? "schema_version" = some (.str stateVersion) ∧
      value.get? "scope_sha256" = some (.str scope))
    "quarantine assessment state conflicts"
  let items ← settlementItems itemCount (value.get? "settlements")
  let decisions ← items.mapM (readDecision rules)
  ensure (decisions.map Decision.key).Nodup "quarantine assessment decision is duplicated"
  return decisions

section Schemas

def decisionSchema : Schema := .object
  [("origin_scope_sha256", digestText), ("instance", digestText), ("action", .choice actions),
    ("actor", .text (wholeLine isActor)), ("role", .choice roles), ("head_sha", Holds.sha),
    ("source_id", Holds.identifier), ("source_updated_at", .text (wholeLine (isStamp rules))),
    ("source_body_sha256", digestText),
    ("reason", .text (fun s => decide (1 ≤ s.length) && decide (s.length ≤ 4096))),
    ("policy_sha256", digestText)]

def cursorVersion : String := "quarantine-assessment-cursor-v1"
def eventVersion : String := "quarantine-assessment-event-v1"

/-- `quarantine-assessment-cursor`. -/
def cursorSchema : Schema := .object
  [("schema_version", .choice [cursorVersion]), ("scope_sha256", digestText),
    ("count", .integer 0 (some 200)), ("tail_manifest", .anyOf .null manifestSchema)]

/-- `quarantine-assessment-event`. -/
def eventSchema : Schema := .object
  [("schema_version", .choice [eventVersion]), ("scope_sha256", digestText),
    ("sequence", .integer 1 (some 200)), ("previous_manifest", .anyOf .null manifestSchema),
    ("decision", decisionSchema rules)]

end Schemas

/-- A cursor whose values are checked; its tail is a manifest unless it is empty. -/
structure Cursor where
  scope : String
  count : Nat
  tail : Json

def cursorDocument (scope : String) (count : Nat) (tail : Json) : Json :=
  .obj [("schema_version", .str cursorVersion), ("scope_sha256", .str scope), ("count", .int count),
    ("tail_manifest", tail)]

def checkTail (scope : String) (count : Int) (tail : Json) : Except String Unit :=
  if count = 0 then ensure (tail = .null) "empty quarantine assessment cursor has a tail"
  else do
    let manifest ← validateManifest tail
    ensure (manifest.itemCount = 1 ∧ manifest.binding.purpose = "evidence" ∧
        manifest.binding.policyDigest = scope)
      "quarantine assessment cursor tail scope conflicts"

def unsupportedCursor : String := "quarantine assessment cursor is unsupported"

def validateCursor (value : Json) : Except String Cursor := do
  ensure (value.hasKeys ["schema_version", "scope_sha256", "count", "tail_manifest"] = true ∧
    value.get? "schema_version" = some (.str cursorVersion)) unsupportedCursor
  let scope ← readText isSha256 unsupportedCursor (value.get? "scope_sha256")
  let count ← readInteger 0 maxDecisions unsupportedCursor (value.get? "count")
  ensure (value.canonicalSize ≤ maxManifestBytes + 256) unsupportedCursor
  ensure (cursorSchema.validate value = true)
    "quarantine-assessment-cursor document failed schema validation"
  let tail := (value.get? "tail_manifest").getD .null
  checkTail scope count tail
  return { scope, count := count.toNat, tail }

def assessmentCursor (scope : String) (count : Nat) (tail : Json) : Except String Cursor :=
  validateCursor (cursorDocument scope count tail)

def eventDocument (scope : String) (sequence : Nat) (previous decision : Json) : Json :=
  .obj [("schema_version", .str eventVersion), ("scope_sha256", .str scope),
    ("sequence", .int sequence), ("previous_manifest", previous), ("decision", decision)]

/-- `next_assessment_event`. -/
def nextAssessmentEvent (cursor decision : Json) : Except String Json := do
  let cursor ← validateCursor cursor
  ensure (cursor.count ≠ maxDecisions) "quarantine assessment decision bound is exhausted"
  let _ ← validateAssessmentState rules (stateDocument cursor.scope [decision]) cursor.scope 1
  return eventDocument cursor.scope (cursor.count + 1) cursor.tail decision

/-- The owner and the scope of two bindings agree. -/
def SameOwner (a b : Binding) : Prop :=
  a.repository = b.repository ∧ a.repositoryId = b.repositoryId ∧ a.pullRequest = b.pullRequest ∧
    a.producer = b.producer ∧ a.policyDigest = b.policyDigest

instance (a b : Binding) : Decidable (SameOwner a b) := inferInstanceAs (Decidable (_ ∧ _))

def eventKeys : List String :=
  ["schema_version", "scope_sha256", "sequence", "previous_manifest", "decision"]

/-- The checks on an event that was read: its sequence, its shape and its one decision. -/
def checkEvent (scope : String) (sequence : Nat) (event : Json) : Except String Unit := do
  ensure (event.hasKeys eventKeys = true ∧
      event.get? "schema_version" = some (.str eventVersion) ∧
      event.get? "scope_sha256" = some (.str scope) ∧
      event.get? "sequence" = some (.int sequence) ∧
      event.canonicalSize ≤ maxManifestBytes + 8192)
    "quarantine assessment event is unsupported or incomplete"
  ensure ((eventSchema rules).validate event = true)
    "quarantine-assessment-event document failed schema validation"
  let _ ← validateAssessmentState rules
    (stateDocument scope [(event.get? "decision").getD .null]) scope 1
  return ()

section Chain
variable (codec : Codec) (reader : Reader) (budget : EvidenceReadBudget) (looks : Looks)

/-- The events from a tail back to the first; the decisions come latest first. -/
def readEvents (binding : Binding) : Nat → Json → Int → List String → List Json → Nat →
    Except String (Json × List Json)
  | 0, tail, _, _, decisions, _ => .ok (tail, decisions)
  | sequence + 1, tail, generation, seen, decisions, look => do
    let manifest ← validateManifest tail
    ensure (manifest.itemCount = 1 ∧ manifest.binding.purpose = "evidence" ∧
        SameOwner manifest.binding binding ∧ manifest.binding.generation < generation ∧
        manifest.sha256 ∉ seen)
      "quarantine assessment event source or sequence conflicts"
    let (event, look) ← readPartitionedEvidence codec reader budget looks tail
      manifest.binding look
    checkEvent rules binding.policyDigest (sequence + 1) event
    readEvents binding sequence ((event.get? "previous_manifest").getD .null)
      manifest.binding.generation (manifest.sha256 :: seen)
      (decisions ++ [(event.get? "decision").getD .null]) look

/-- The state of a document that is the whole state already. -/
def readWhole (value : Json) (scope : String) : Except String Json :=
  match value.get? "settlements" with
  | some (.arr decisions) => do
    let _ ← validateAssessmentState rules value scope decisions.length
    return value
  | _ => .error "quarantine assessment state is unsupported"

/-- The state a cursor stands for. -/
def readCursor (value : Json) (binding : Binding) : Except String Json := do
  let cursor ← validateCursor value
  ensure (cursor.scope = binding.policyDigest)
    "quarantine assessment cursor aggregate scope conflicts"
  let (tail, decisions) ← readEvents rules codec reader budget looks binding cursor.count
    cursor.tail (binding.generation + 1) [] [] 0
  ensure (tail = .null) "quarantine assessment chain has omitted earlier decisions"
  let state := stateDocument binding.policyDigest decisions.reverse
  let _ ← validateAssessmentState rules state binding.policyDigest cursor.count
  return state

/-- `read_assessment_state`. -/
def readAssessmentState (value : Json) (expected : Binding) : Except String Json := do
  let binding ← validateBinding expected.toDocument
  ensure (binding.purpose = "evidence") "quarantine assessment reader domain conflicts"
  if value.get? "schema_version" = some (.str stateVersion) then
    readWhole rules value binding.policyDigest
  else readCursor rules codec reader budget looks value binding

end Chain
end Reading
end ReviewSensei.Quarantine
