import ReviewSensei.QuarantineState

/-! The origins of quarantined assessments, what is pending in them, and their lineage. -/
namespace ReviewSensei.Quarantine
open Session (isSha256)
open Sha256 (encode)
open Json (readText readInteger)
open Schema (wholeLine)
open Holds (digestText manifestSchema bindingSchema)
open Evidence (Binding Manifest validateBinding validateManifest readInlineEvidence inlineEncoding
  digest maxManifestBytes)

def publishedKinds : List String := ["published-current", "published-earlier"]
def legacyKinds : List String := ["retained-result", "published-assessment"]
def originKinds : List String := legacyKinds ++ publishedKinds

def maxOrigins : Nat := 2
def maxOriginAssessments : Nat := 100
def maxOriginInventoryBytes : Nat := 24000

/-- Sorted, without duplicates. -/
def Increasing (xs : List String) : Prop := xs.Pairwise (· < ·)

instance (xs : List String) : Decidable (Increasing xs) :=
  inferInstanceAs (Decidable (xs.Pairwise _))

def originFields : List String := ["schema_version", "kind", "source_manifest", "inventory_manifest"]

/-- `origin_scope`: one immutable source and inventory, independent of other origins. -/
def originScope (value : Json) : String :=
  digest (.obj [("domain", .str "quarantine-assessment-origin-v1"),
    ("origin", .obj (originFields.map (fun k => (k, (value.get? k).getD .null))))])

structure InventoryItem where
  identity : String
  concern : String
  deriving DecidableEq

def readInventoryItem (value : Json) : Except String InventoryItem := do
  ensure (value.hasKeys ["instance", "concern"] = true)
    "quarantine assessment inventory item is invalid"
  let identity ← readText isSha256 "quarantine assessment inventory item is invalid"
    (value.get? "instance")
  let concern ← readText isSha256 "quarantine assessment inventory item is invalid"
    (value.get? "concern")
  return { identity, concern }

def inventoryVersion : String := "quarantine-assessment-inventory-v1"

def inventorySchema : Schema := .object
  [("schema_version", .choice [inventoryVersion]),
    ("assessments", .array 0 100 (.object [("instance", digestText), ("concern", digestText)]))]

/-- A list of at most so many items. -/
def boundedItems (bound : Nat) (message : String) : Option Json → Except String (List Json)
  | some (.arr items) => if items.length ≤ bound then .ok items else .error message
  | _ => .error message

def validateInventory (value : Json) : Except String (List InventoryItem) := do
  ensure (value.hasKeys ["schema_version", "assessments"] = true ∧
      value.get? "schema_version" = some (.str inventoryVersion))
    "quarantine assessment inventory is unsupported"
  let items ← boundedItems maxOriginAssessments "quarantine assessment inventory is unsupported"
    (value.get? "assessments")
  ensure (value.canonicalSize ≤ maxOriginInventoryBytes)
    "quarantine assessment inventory is unsupported"
  ensure (inventorySchema.validate value = true)
    "quarantine-assessment-inventory document failed schema validation"
  let assessments ← items.mapM readInventoryItem
  ensure (Increasing (assessments.map InventoryItem.identity))
    "quarantine assessment inventory is duplicated or unordered"
  return assessments

/-- What an origin's carrier of its inventory says of it. -/
structure Carrier where
  binding : Binding
  itemCount : Int
  sha256 : String
  bytes : Int

/-- The carrier of an inventory, inline or in parts; its bytes as `inventory_manifest_bytes`. -/
def readInventoryCarrier (value : Json) : Except String Carrier :=
  if value.get? "encoding" = some (.str inlineEncoding) then do
    let document ← readInlineEvidence value ((value.get? "binding").getD .null)
    let _ ← validateInventory document
    let binding ← validateBinding ((value.get? "binding").getD .null)
    let itemCount ← Evidence.integer (value.get? "item_count") 0 4096
    let sha256 ← Evidence.sha (value.get? "sha256")
    return { binding, itemCount, sha256, bytes := document.canonicalSize }
  else do
    let m ← validateManifest value
    return { binding := m.binding, itemCount := m.itemCount, sha256 := m.sha256,
             bytes := m.decodedBytes }

structure Origin where
  kind : String
  source : Manifest
  inventory : Carrier
  scope : String

def originKeys : List String := originFields ++ ["scope_sha256"]

def unsupportedOrigin : String := "quarantine assessment origin is unsupported"

def readOrigin (value : Json) : Except String Origin := do
  ensure (value.hasKeys originKeys = true ∧
    value.get? "schema_version" = some (.str "quarantine-assessment-origin-v1")) unsupportedOrigin
  let kind ← readText originKinds.contains unsupportedOrigin (value.get? "kind")
  let scope ← readText isSha256 unsupportedOrigin (value.get? "scope_sha256")
  let source ← validateManifest ((value.get? "source_manifest").getD .null)
  let inventory ← readInventoryCarrier ((value.get? "inventory_manifest").getD .null)
  ensure (source.itemCount = 1 ∧ 0 ≤ inventory.itemCount ∧
      inventory.itemCount ≤ maxOriginAssessments ∧ inventory.bytes ≤ maxOriginInventoryBytes ∧
      source.binding.purpose = "evidence" ∧ inventory.binding = source.binding ∧
      scope = originScope value)
    "quarantine assessment origin scope conflicts"
  return { kind, source, inventory, scope }

/-- The repository, the pull request and the producer of an origin. -/
def Origin.owner (o : Origin) : String × Option Int × Int × String :=
  (o.source.binding.repository, o.source.binding.repositoryId, o.source.binding.pullRequest,
    o.source.binding.producer)

/-- The origins in their order; each has the owner of the one before it. -/
def readOrigins (common : Option (String × Option Int × Int × String)) :
    List Json → Except String (List Origin)
  | [] => .ok []
  | value :: values => do
    let origin ← readOrigin value
    ensure (common = none ∨ common = some origin.owner)
      "quarantine assessment origins have foreign owners"
    let origins ← readOrigins (some origin.owner) values
    return origin :: origins

def inlineInventorySchema : Schema := .object
  [("encoding", .choice [inlineEncoding]), ("binding", bindingSchema),
    ("item_count", .integer 0 (some 100)), ("sha256", digestText), ("document", inventorySchema)]

def originsVersion : String := "quarantine-assessment-origins-v1"
def publishedVersion : String := "quarantine-published-origins-v1"

def originsSchema : Schema := .object
  [("schema_version", .choice [originsVersion, publishedVersion]),
    ("origins", .array 1 2 (.object
      [("schema_version", .choice ["quarantine-assessment-origin-v1"]),
        ("kind", .choice originKinds), ("source_manifest", manifestSchema),
        ("inventory_manifest", .anyOf manifestSchema inlineInventorySchema),
        ("scope_sha256", digestText)]))]

/-- `set(kinds) == PUBLISHED_KINDS`, of kinds without duplicates. -/
def ArePublished (kinds : List String) : Prop :=
  (∀ k ∈ kinds, k ∈ publishedKinds) ∧ ∀ k ∈ publishedKinds, k ∈ kinds

/-- `set(kinds) <= LEGACY_KINDS`, with the retained result. -/
def AreLegacy (kinds : List String) : Prop :=
  (∀ k ∈ kinds, k ∈ legacyKinds) ∧ "retained-result" ∈ kinds

instance (kinds : List String) : Decidable (ArePublished kinds) :=
  inferInstanceAs (Decidable (_ ∧ _))

instance (kinds : List String) : Decidable (AreLegacy kinds) :=
  inferInstanceAs (Decidable (_ ∧ _))

def unsupportedOrigins : String := "quarantine assessment origins are unsupported"

def originItems : Option Json → Except String (List Json)
  | some (.arr items) =>
    if 1 ≤ items.length ∧ items.length ≤ maxOrigins then .ok items else .error unsupportedOrigins
  | _ => .error unsupportedOrigins

def validateOrigins (value : Json) : Except String (List Origin) := do
  ensure (value.hasKeys ["schema_version", "origins"] = true) unsupportedOrigins
  let version ← readText [originsVersion, publishedVersion].contains unsupportedOrigins
    (value.get? "schema_version")
  let items ← originItems (value.get? "origins")
  ensure (originsSchema.validate value = true)
    "quarantine-assessment-origins document failed schema validation"
  let origins ← readOrigins none items
  ensure (Increasing (origins.map Origin.scope) ∧ (origins.map Origin.kind).Nodup ∧
      (if version = publishedVersion then ArePublished (origins.map Origin.kind)
        else AreLegacy (origins.map Origin.kind)))
    "quarantine assessment origins are incomplete or duplicated"
  return origins

/-- Inventories by the scopes of their origins. -/
abbrev Inventories := List (String × Json)

def inventoryOf (inventories : Inventories) (scope : String) : Json :=
  (Json.field? inventories scope).getD .null

/-- The members of one origin, after its inventory has been compared with its carrier. -/
def originMembers (inventories : Inventories) (origin : Origin) :
    Except String (List (String × String)) := do
  let document := inventoryOf inventories origin.scope
  let inventory ← validateInventory document
  ensure (digest document = origin.inventory.sha256 ∧
      (document.canonicalSize : Int) = origin.inventory.bytes ∧
      (inventory.length : Int) = origin.inventory.itemCount)
    "quarantine assessment inventory differs from origin"
  return inventory.map (fun item => (origin.scope, item.identity))

/-- Every member of every origin, in the order of the origins. -/
def allMembers (inventories : Inventories) : List Origin → Except String (List (String × String))
  | [] => .ok []
  | origin :: origins => do
    let members ← originMembers inventories origin
    let others ← allMembers inventories origins
    return members ++ others

section Pending
variable (rules : Rules)

def stateItems : Option Json → Except String (List Json)
  | some (.arr items) => .ok items
  | _ => .error "quarantine assessment state is invalid"

/-- `pending_assessments`: the members without a decision. -/
def pendingAssessments (origins : Json) (inventories : Inventories) (state : Json)
    (scope : String) : Except String (List (String × String)) := do
  let origins ← validateOrigins origins
  ensure (isSha256 scope = true) "quarantine assessment aggregate scope is invalid"
  ensure ((∀ k ∈ inventories.map Prod.fst, k ∈ origins.map Origin.scope) ∧
      ∀ k ∈ origins.map Origin.scope, k ∈ inventories.map Prod.fst)
    "quarantine assessment inventories are incomplete"
  let members ← allMembers inventories origins
  let items ← stateItems (state.get? "settlements")
  let decisions ← validateAssessmentState rules state scope items.length
  ensure (∀ k ∈ decisions.map Decision.key, k ∈ members)
    "quarantine assessment decision targets a foreign origin or item"
  return members.filter (fun m => decide (m ∉ decisions.map Decision.key))

/-- `require_assessment_successor`. -/
def requireAssessmentSuccessor (origins : Json) (inventories : Inventories) (before after : Json)
    (scope : String) : Except String Unit := do
  let _ ← pendingAssessments rules origins inventories before scope
  let _ ← pendingAssessments rules origins inventories after scope
  let earlier ← stateItems (before.get? "settlements")
  let later ← stateItems (after.get? "settlements")
  ensure (later.take earlier.length = earlier)
    "quarantine assessment decisions cannot be removed or rewritten"

structure ViewOrigin where
  scope : String
  kind : String
  inventorySha256 : String
  itemCount : Int
  deriving DecidableEq

/-- Publication facts; their documents have these fields and no others. -/
structure View where
  scope : String
  stateSha256 : String
  origins : List ViewOrigin
  pending : List (String × String)
  freshHumanPending : Bool
  deriving DecidableEq

/-- Pairs in the order of Python's tuples, without duplicates. -/
def IncreasingPairs (members : List (String × String)) : Prop :=
  members.Pairwise (fun a b => a.1 < b.1 ∨ (a.1 = b.1 ∧ a.2 < b.2))

instance (members : List (String × String)) : Decidable (IncreasingPairs members) :=
  inferInstanceAs (Decidable (members.Pairwise _))

def ViewOrigin.toDocument (o : ViewOrigin) : Json :=
  .obj [("scope_sha256", .str o.scope), ("kind", .str o.kind),
    ("inventory_sha256", .str o.inventorySha256), ("item_count", .int o.itemCount)]

def pendingDocument (member : String × String) : Json :=
  .obj [("origin_scope_sha256", .str member.1), ("instance", .str member.2)]

/-- `quarantine-assessment-view`: its patterns and bounds, and that no item stands twice. -/
def View.MeetsSchema (v : View) : Prop :=
  digestText.validate (.str v.scope) = true ∧ digestText.validate (.str v.stateSha256) = true ∧
    (Schema.array 1 2 (.object [("scope_sha256", digestText), ("kind", .choice originKinds),
      ("inventory_sha256", digestText), ("item_count", .integer 0 (some 100))])).validate
        (.arr (v.origins.map ViewOrigin.toDocument)) = true ∧
    v.origins.Nodup ∧
    (Schema.array 0 200 (.object
      [("origin_scope_sha256", digestText), ("instance", digestText)])).validate
        (.arr (v.pending.map pendingDocument)) = true ∧
    v.pending.Nodup

instance (v : View) : Decidable v.MeetsSchema := inferInstanceAs (Decidable (_ ∧ _))

def View.countIn (v : View) (scope : String) : Nat :=
  (v.pending.filter (fun m => m.1 = scope)).length

/-- `validate_view`. -/
def validateView (v : View) : Except String View := do
  ensure (isSha256 v.scope = true ∧ isSha256 v.stateSha256 = true ∧ 1 ≤ v.origins.length ∧
      v.origins.length ≤ maxOrigins ∧ v.pending.length ≤ maxOrigins * maxOriginAssessments)
    "quarantine assessment publication view is unsupported"
  ensure v.MeetsSchema "quarantine-assessment-view document failed schema validation"
  ensure (∀ o ∈ v.origins, isSha256 o.scope = true ∧ isSha256 o.inventorySha256 = true ∧
      o.kind ∈ originKinds ∧ 0 ≤ o.itemCount ∧ o.itemCount ≤ maxOriginAssessments)
    "quarantine publication origin is unsupported"
  ensure (Increasing (v.origins.map ViewOrigin.scope) ∧ (v.origins.map ViewOrigin.kind).Nodup ∧
      (ArePublished (v.origins.map ViewOrigin.kind) ∨ AreLegacy (v.origins.map ViewOrigin.kind)))
    "quarantine publication origins are incomplete"
  ensure (∀ m ∈ v.pending, m.1 ∈ v.origins.map ViewOrigin.scope ∧ isSha256 m.2 = true)
    "quarantine publication pending target is invalid"
  ensure (IncreasingPairs v.pending ∧
      ∀ o ∈ v.origins, (v.countIn o.scope : Int) ≤ o.itemCount)
    "quarantine publication pending inventory conflicts"
  return v

def Origin.view (o : Origin) : ViewOrigin where
  scope := o.scope
  kind := o.kind
  inventorySha256 := o.inventory.sha256
  itemCount := o.inventory.itemCount

/-- The facts `assessment_view` puts together. -/
def publicationView (os : List Origin) (state : Json) (scope : String)
    (pending : List (String × String)) (freshHumanPending : Bool) : View where
  scope := scope
  stateSha256 := digest state
  origins := os.map Origin.view
  pending := pending
  freshHumanPending := freshHumanPending

/-- `assessment_view`. -/
def assessmentView (origins : Json) (inventories : Inventories) (state : Json) (scope : String)
    (freshHumanPending : Bool) : Except String View := do
  let pending ← pendingAssessments rules origins inventories state scope
  let origins ← validateOrigins origins
  validateView (publicationView origins state scope pending freshHumanPending)

end Pending

section Lineage
variable (rules : Rules)

/-- What the creation of a quarantine fixes for good. -/
def immutableFields : List String :=
  ["schema_version", "predecessor_comment_id", "predecessor_record_sha256", "creation_run_id",
    "registration_sha256", "origin_manifest", "origin_count"]

def lineageScope (value : Json) : String :=
  digest (.obj [("domain", .str "quarantine-lineage-v1"),
    ("origin", .obj (immutableFields.map (fun k => (k, (value.get? k).getD .null))))])

/-- A lineage whose values are checked, with the number of its decisions. -/
structure Lineage where
  document : Json
  scope : String
  itemCount : Int

def lineageKeys : List String := immutableFields ++ ["scope_sha256", "assessment_state_manifest"]

def invalidLineage : String := "quarantine lineage values are invalid"

/-- The values of a lineage; its scope is returned. -/
def readLineageValues (value : Json) : Except String String := do
  let version ← readText ["quarantine-lineage-v1", "quarantine-published-tail-v1"].contains
    invalidLineage (value.get? "schema_version")
  let _ ← readInteger 1 9007199254740991 invalidLineage (value.get? "predecessor_comment_id")
  let _ ← readInteger 1 9007199254740991 invalidLineage (value.get? "creation_run_id")
  let count ← readInteger 1 2 invalidLineage (value.get? "origin_count")
  ensure (version = "quarantine-published-tail-v1" → count = 2) invalidLineage
  let _ ← readText isSha256 invalidLineage (value.get? "predecessor_record_sha256")
  let _ ← readText isSha256 invalidLineage (value.get? "registration_sha256")
  let scope ← readText isSha256 invalidLineage (value.get? "scope_sha256")
  ensure (value.canonicalSize ≤ 2 * maxManifestBytes + 1024) invalidLineage
  return scope

/-- The document an inline state carrier holds: a cursor, or the whole state. -/
def checkInlineState (document : Json) (scope : String) (itemCount : Int) : Except String Unit :=
  if document.get? "schema_version" = some (.str cursorVersion) then do
    let cursor ← validateCursor document
    ensure (cursor.scope = scope ∧ (cursor.count : Int) = itemCount)
      "quarantine assessment cursor count or scope conflicts"
  else do
    let _ ← validateAssessmentState rules document scope itemCount
    return ()

/-- The carrier of the assessment state: its binding and its count. -/
def readStateCarrier (value : Json) (scope : String) : Except String (Binding × Int) :=
  if value.get? "encoding" = some (.str inlineEncoding) then do
    let bound := (value.get? "binding").getD .null
    ensure (Evidence.isObject bound = true) "quarantine assessment binding is absent"
    let document ← readInlineEvidence value bound
    let itemCount ← Evidence.integer (value.get? "item_count") 0 4096
    checkInlineState rules document scope itemCount
    let binding ← validateBinding bound
    return (binding, itemCount)
  else do
    let manifest ← validateManifest value
    return (manifest.binding, manifest.itemCount)

/-- `normalize_lineage` of a document; the keys come out sorted. -/
def normalizeDocument (value : Json) : Except String Lineage := do
  ensure (value.hasKeys lineageKeys = true) "quarantine lineage is unsupported"
  let document := value.sortKeys
  let scope ← readLineageValues document
  let origin ← validateManifest ((document.get? "origin_manifest").getD .null)
  ensure (origin.binding.purpose = "evidence" ∧ origin.itemCount = 1)
    "quarantine origin carrier domain conflicts"
  ensure (scope = lineageScope document) "quarantine lineage scope conflicts"
  let (binding, itemCount) ←
    readStateCarrier rules ((document.get? "assessment_state_manifest").getD .null) scope
  ensure (0 ≤ itemCount ∧ itemCount ≤ 200 ∧ binding.purpose = "evidence" ∧
      binding.policyDigest = scope ∧ binding.repository = origin.binding.repository ∧
      binding.repositoryId = origin.binding.repositoryId ∧
      binding.pullRequest = origin.binding.pullRequest ∧
      binding.producer = origin.binding.producer)
    "quarantine assessment carrier scope conflicts"
  return { document, scope, itemCount }

/-- `normalize_lineage` of a value that may be `None`. -/
def normalizeLineage : Option Json → Except String (Option Lineage)
  | none => .ok none
  | some value => (normalizeDocument rules value).map some

def Lineage.state (l : Lineage) : Json := (l.document.get? "assessment_state_manifest").getD .null

/-- Inline settlements of the earlier state stand at the head of the later ones. -/
def inlineKept (before after : Json) : Bool :=
  match before.get? "encoding", after.get? "encoding" with
  | some a, some b =>
    if a = .str inlineEncoding ∧ b = .str inlineEncoding then
      match ((before.get? "document").getD .null).get? "settlements",
        ((after.get? "document").getD .null).get? "settlements" with
      | some (.arr earlier), some (.arr later) => decide (later.take earlier.length = earlier)
      | _, _ => true
    else true
  | _, _ => true

def requireKeptLineage : Option Lineage → Option Lineage → Except String Unit
  | none, none => .ok ()
  | none, some _ => .error "quarantine requires a separately created ledger"
  | some _, none => .error "quarantine origin cannot be removed or rewritten"
  | some before, some after => do
    ensure (∀ k ∈ immutableFields ++ ["scope_sha256"],
        before.document.get? k = after.document.get? k)
      "quarantine origin cannot be removed or rewritten"
    ensure (before.state = after.state ∨ after.itemCount = before.itemCount + 1)
      "quarantine assessments require one append-only individual decision"
    ensure (inlineKept before.state after.state = true)
      "quarantine assessment decisions cannot be rewritten"

/-- `require_lineage_successor`. -/
def requireLineageSuccessor (before after : Option Json) : Except String Unit := do
  let before ← normalizeLineage rules before
  let after ← normalizeLineage rules after
  requireKeptLineage before after

end Lineage
end ReviewSensei.Quarantine
