import ReviewSensei.JsonSchema
import ReviewSensei.Dispositions

/-! Holds on historical assessments: what a maintainer still has to settle, and what was settled. -/
namespace ReviewSensei.Holds
open Session (isHexText isAsciiAlnum strip bind_ok)
open Sha256 (encode)
open Disposition (TextRules)

def maxHoldBytes : Nat := 24000

section Schemas
open Schema (wholeLine)

def sha : Schema := .text (wholeLine (isHexText 40 40))
def digestText : Schema := .text (wholeLine (isHexText 64 64))

/-- `[A-Za-z0-9_.-]`. -/
def isNameByte (b : Nat) : Bool := isAsciiAlnum b || [0x5f, 0x2e, 0x2d].contains b

/-- `[A-Za-z0-9_.-]+/[A-Za-z0-9_.-]+`. -/
def isNamePair (s : String) : Bool :=
  match (encode s).splitOn 0x2f with
  | [owner, name] => !owner.isEmpty && !name.isEmpty && (owner ++ name).all isNameByte
  | _ => false

def isDigitByte (b : Nat) : Bool := 0x30 ≤ b && b ≤ 0x39

/-- `(local-ledger|github-bot:[1-9][0-9]{0,18})`. -/
def isProducer (s : String) : Bool :=
  let bytes := encode s
  let number := bytes.drop (encode "github-bot:").length
  s = "local-ledger" ||
    ((encode "github-bot:").isPrefixOf bytes && number.all isDigitByte &&
      decide (1 ≤ number.length) && decide (number.length ≤ 19) && number.head? != some 0x30)

/-- `[A-Za-z0-9_-]{1,64}`. -/
def isStorageId (s : String) : Bool :=
  let bytes := encode s
  decide (1 ≤ bytes.length) && decide (bytes.length ≤ 64) &&
    bytes.all (fun b => isAsciiAlnum b || [0x5f, 0x2d].contains b)

/-- `[A-Za-z0-9][A-Za-z0-9-]{0,38}`. -/
def isActor (s : String) : Bool :=
  match encode s with
  | first :: rest => isAsciiAlnum first && decide (rest.length ≤ 38) &&
      rest.all (fun b => isAsciiAlnum b || b == 0x2d)
  | [] => false

/-- `dddd-dd-ddTdd:dd:ddZ`. -/
def isTimestamp (s : String) : Bool :=
  let bytes := encode s
  let shape := encode "0000-00-00T00:00:00Z"
  decide (bytes.length = shape.length) &&
    (bytes.zip shape).all (fun p => if p.2 = 0x30 then isDigitByte p.1 else p.1 == p.2)

def maxSafeInteger : Int := 9007199254740991

def identifier : Schema := .integer 1 (some maxSafeInteger)

def bounded (maximum : Int) : Schema := .integer 1 (some maximum)

def bindingSchema : Schema := .object
  [("repository", .text (fun s => wholeLine isNamePair s && decide (s.length ≤ 256))),
    ("repository_id", .anyOf (bounded 2147483647) .null),
    ("pull_request", bounded 2147483647), ("base_sha", sha), ("head_sha", sha),
    ("policy_digest", digestText), ("configuration_digest", digestText),
    ("generation", .integer 0 (some 2147483647)), ("producer", .text (wholeLine isProducer)),
    ("purpose", .choice ["baseline", "human-inventory", "feedback", "evidence", "queue",
      "dispositions"]),
    ("schema_version", .choice ["1.0"])]

def partSchema : Schema := .object
  [("storage_id", .text (wholeLine isStorageId)), ("bytes", bounded 32256),
    ("sha256", digestText)]

/-- `evidence-manifest`. -/
def manifestSchema : Schema := .object
  [("encoding", .choice ["partitioned-json-v1"]), ("binding", bindingSchema),
    ("item_count", .integer 0 (some 4096)), ("decoded_bytes", bounded 2097152),
    ("sha256", digestText), ("encoded_bytes", bounded 1048576),
    ("parts", .array 1 32 partSchema)]

def completionShas : List String :=
  ["historical_base_sha", "historical_head_sha", "current_base_sha", "current_head_sha",
    "current_policy_commit", "historical_executor_sha", "historical_executor_commit",
    "historical_workflow_blob", "current_executor_sha"]

def completionDigests : List String :=
  ["historical_root_sha256", "historical_accounting_sha256", "transaction_id",
    "historical_policy_sha256", "historical_configuration_sha256", "historical_evidence_sha256",
    "historical_content_sha256", "publication_result_sha256", "target_inventory_sha256",
    "cessation_sha256", "current_owner_sha256", "current_configuration_sha256",
    "writer_inventory_sha256", "current_authority_sha256", "human_inventory_sha256",
    "review_body_sha256"]

def completionIds : List String :=
  ["repository_id", "pull_request", "historical_run_id", "current_run_id", "review_id",
    "check_id", "historical_job_id", "historical_review_step"]

/-- `historical-publication-completion`. -/
def completionSchema : Schema := .object
  (completionShas.map (fun name => (name, sha)) ++
    completionDigests.map (fun name => (name, digestText)) ++
    completionIds.map (fun name => (name, identifier)) ++
    [("schema_version", .choice ["historical-publication-completion-v1"]),
      ("verifier_version", .choice ["review-sensei-github/historical-completion-v1"]),
      ("repository", .text (wholeLine isNamePair)),
      ("check_conclusion", .choice ["success", "failure", "action_required", "neutral"]),
      ("termination_basis", .choice ["successful-review-no-unsettled-root-write-v1"])])

def plainReference : List (String × Schema) :=
  [("run_id", .integer 1 none), ("root_sha256", digestText), ("manifest", manifestSchema)]

def completedReference : List (String × Schema) :=
  plainReference ++ [("schema_version", .choice ["caller-run-reference-v2"]),
    ("completion", completionSchema)]

/-- `previous_record`; no document matches two of its alternatives. -/
def referenceSchema : Schema :=
  .anyOf .null (.anyOf (.object plainReference) (.object completedReference))

def assessmentSchema : Schema := .object
  [("instance", digestText), ("concern", .anyOf digestText .null)]

def decisionSchema : Schema := .object
  [("instance", digestText), ("action", .choice ["dismiss", "accept-risk"]),
    ("actor", .text (wholeLine isActor)), ("role", .choice ["admin", "maintain"]),
    ("head_sha", sha), ("source_id", identifier),
    ("source_updated_at", .text (wholeLine isTimestamp)), ("source_body_sha256", digestText),
    ("reason", .text (fun s => decide (1 ≤ s.length) && decide (s.length ≤ 1024))),
    ("policy_sha256", digestText)]

/-- `historical-assessment-hold`. -/
def holdSchema : Schema := .object
  [("schema_version", .choice ["historical-assessment-hold-v1"]), ("source", referenceSchema),
    ("scope_sha256", digestText), ("assessments", .array 1 100 assessmentSchema),
    ("settlements", .array 0 100 decisionSchema)]

end Schemas

structure Assessment where
  identity : String
  concern : Option String
  deriving DecidableEq

/-- A decision on one assessment. -/
structure Settlement where
  identity : String
  action : String
  actor : String
  role : String
  headSha : String
  sourceId : Nat
  sourceUpdatedAt : String
  sourceBodySha256 : String
  reason : String
  policySha256 : String
  deriving DecidableEq

/-- A hold; its documents have these fields and no others. -/
structure Hold where
  source : Json
  scopeSha256 : String
  assessments : List Assessment
  settlements : List Settlement
  deriving DecidableEq

def concernJson : Option String → Json
  | none => .null
  | some concern => .str concern

def Assessment.toDocument (a : Assessment) : Json :=
  .obj [("instance", .str a.identity), ("concern", concernJson a.concern)]

def Settlement.toDocument (d : Settlement) : Json :=
  .obj [("instance", .str d.identity), ("action", .str d.action), ("actor", .str d.actor),
    ("role", .str d.role), ("head_sha", .str d.headSha), ("source_id", .int d.sourceId),
    ("source_updated_at", .str d.sourceUpdatedAt),
    ("source_body_sha256", .str d.sourceBodySha256), ("reason", .str d.reason),
    ("policy_sha256", .str d.policySha256)]

def assessmentsJson (assessments : List Assessment) : Json :=
  .arr (assessments.map Assessment.toDocument)

def Hold.toDocument (h : Hold) : Json :=
  .obj [("schema_version", .str "historical-assessment-hold-v1"), ("source", h.source),
    ("scope_sha256", .str h.scopeSha256), ("assessments", assessmentsJson h.assessments),
    ("settlements", .arr (h.settlements.map Settlement.toDocument))]

def digest (value : Json) : String := sha256 value.canonical

def scopeDigest (source : Json) (assessments : List Assessment) : String :=
  digest (.obj [("domain", .str "historical-assessment-v1"), ("source", source),
    ("assessments", assessmentsJson assessments)])

/-- `source["completion"][name]`. -/
def completionField (source : Json) (name : String) : Option Json :=
  (source.get? "completion").bind (fun completion => completion.get? name)

def Hold.instances (h : Hold) : List String := h.assessments.map Assessment.identity

def Hold.settled (h : Hold) : List String := h.settlements.map Settlement.identity

variable (rules : TextRules)

/-- The reason says something, and can be printed. -/
def Settlement.explained (d : Settlement) : Bool :=
  decide (strip d.reason ≠ "") && rules.isPrintable d.reason

/-- What `normalize_hold` asks beyond the schema. -/
structure Hold.Consistent (h : Hold) : Prop where
  version : h.source.get? "schema_version" = some (.str "caller-run-reference-v2")
  inventory : completionField h.source "human_inventory_sha256" =
    some (.str (digest (assessmentsJson h.assessments)))
  scope : h.scopeSha256 = scopeDigest h.source h.assessments
  distinct : h.instances.Nodup
  once : h.settled.Nodup
  subset : ∀ i ∈ h.settled, i ∈ h.instances
  size : h.toDocument.canonicalSize ≤ maxHoldBytes
  explained : ∀ d ∈ h.settlements, d.explained rules = true

theorem Hold.consistent_iff (h : Hold) : h.Consistent rules ↔
    h.source.get? "schema_version" = some (.str "caller-run-reference-v2") ∧
    completionField h.source "human_inventory_sha256" =
      some (.str (digest (assessmentsJson h.assessments))) ∧
    h.scopeSha256 = scopeDigest h.source h.assessments ∧ h.instances.Nodup ∧ h.settled.Nodup ∧
    (∀ i ∈ h.settled, i ∈ h.instances) ∧ h.toDocument.canonicalSize ≤ maxHoldBytes ∧
    ∀ d ∈ h.settlements, d.explained rules = true :=
  ⟨fun ⟨h1, h2, h3, h4, h5, h6, h7, h8⟩ => ⟨h1, h2, h3, h4, h5, h6, h7, h8⟩,
    fun ⟨h1, h2, h3, h4, h5, h6, h7, h8⟩ => ⟨h1, h2, h3, h4, h5, h6, h7, h8⟩⟩

instance (h : Hold) : Decidable (h.Consistent rules) :=
  decidable_of_iff _ (h.consistent_iff rules).symm

/-- `normalize_hold` of a document; the count of schema errors is left out of the text. -/
def normalizeHold (h : Hold) : Except String Hold :=
  if holdSchema.validate h.toDocument = false then
    .error "historical-assessment-hold document failed schema validation"
  else if h.Consistent rules then .ok h
  else .error "historical assessment scope or state conflicts"

/-- `normalize_hold` of a value that may be `None`. -/
def normalizeStored : Option Hold → Except String (Option Hold)
  | none => .ok none
  | some h => (normalizeHold rules h).map some

def initialHold (source : Json) (assessments : List Assessment) : Except String (Option Hold) :=
  if completionField source "human_inventory_sha256" ≠
      some (.str (digest (assessmentsJson assessments))) then
    .error "historical human inventory differs from completion"
  else if assessments = [] then .ok none
  else
    (normalizeHold rules
      { source := source
        scopeSha256 := scopeDigest source assessments
        assessments := assessments
        settlements := [] }).map some

/-- The assessments without a decision. -/
def Hold.unsettled (h : Hold) : List Assessment :=
  h.assessments.filter (fun a => decide (a.identity ∉ h.settled))

def pendingAssessments (value : Option Hold) : Except String (List Assessment) := do
  match ← normalizeStored rules value with
  | none => return []
  | some h => return h.unsettled

def keepsHold (before after : Hold) : Prop :=
  after.source = before.source ∧ after.scopeSha256 = before.scopeSha256 ∧
    after.assessments = before.assessments ∧ before.settlements <+: after.settlements

instance (before after : Hold) : Decidable (keepsHold before after) :=
  inferInstanceAs (Decidable (_ ∧ _))

def requireKept : Option Hold → Option Hold → Except String Unit
  | none, _ => .ok ()
  | some _, none => .error "historical assessments cannot be removed or rewritten"
  | some before, some after =>
    if keepsHold before after then .ok ()
    else .error "historical assessments cannot be removed or rewritten"

def requireHoldSuccessor (before after : Option Hold) : Except String Unit := do
  let before ← normalizeStored rules before
  let after ← normalizeStored rules after
  requireKept before after

structure HoldView where
  scopeSha256 : String
  stateSha256 : String
  pending : List String
  reviewId : Option Json
  historicalHeadSha : Option Json

def Hold.view (h : Hold) : HoldView where
  scopeSha256 := h.scopeSha256
  stateSha256 := digest h.toDocument
  pending := h.unsettled.map Assessment.identity
  reviewId := completionField h.source "review_id"
  historicalHeadSha := completionField h.source "historical_head_sha"

def holdView (value : Option Hold) : Except String (Option HoldView) := do
  return (← normalizeStored rules value).map Hold.view

/-- `hold["settlements"].append(decision)`. -/
def Hold.settle (h : Hold) (d : Settlement) : Hold :=
  { h with settlements := h.settlements ++ [d] }

end ReviewSensei.Holds
