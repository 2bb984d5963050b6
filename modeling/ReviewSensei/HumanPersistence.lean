import ReviewSensei.HumanInventory
import ReviewSensei.QueueState

/-! Reading human-review inventories back: the immutable document with its comments, and the single
document of an inventory that needs no parts. -/
namespace ReviewSensei.Human
open Session (isSha256 strip)
open Sha256 (encode)
open Review (CommentFields ReviewComment Side lifecycleFingerprint)
open Diff (validateRepositoryPath)

def maxModelBytes : Nat := 256
def maxLineNumber : Nat := 2147483647

/-- One label of a comment: not blank, short and printable. -/
def labelFits (printable : String → Bool) (label : String) : Bool :=
  decide (strip label ≠ "") && decide ((encode label).length ≤ maxModelBytes) && printable label

/-- `ReviewComment.__post_init__`, by whether it returns; `printable` is `str.isprintable`. -/
def accepted (rules : Rules) (printable : String → Bool) (c : CommentFields) : Bool :=
  (match validateRepositoryPath rules.unicode "comment path" true c.path.toList with
    | .ok () => true
    | .error _ => false) &&
  c.line.all (fun n => decide (1 ≤ n) && decide (n ≤ maxLineNumber)) &&
  decide (strip c.body ≠ "") && decide ((encode c.body).length ≤ maxCommentBodyBytes) &&
  [c.severity, c.category, c.fixEffort, c.symbol, c.defectKind, c.evidenceId].all
    (fun label => label.all (labelFits printable))

section Fields

/-- A field of the metadata that may be missing or null. -/
def optionalText? : Option Json → Option (Option String)
  | none => some none
  | some .null => some none
  | some (.str s) => some (some s)
  | _ => none

def optionalFlag? : Option Json → Option (Option Bool)
  | none => some none
  | some .null => some none
  | some (.bool b) => some (some b)
  | _ => none

def optionalLine? : Option Json → Option (Option Nat)
  | none => some none
  | some .null => some none
  | some (.int i) => if 0 < i then some (some i.toNat) else none
  | _ => none

/-- The side of a comment, which is the right one where the metadata names none. -/
def side? : Option Json → Option Side
  | none => some .right
  | some (.str text) => [Side.left, .right, .file].find? (fun side => side.text = text)
  | _ => none

def flag? : Option Json → Option Bool
  | some (.bool b) => some b
  | _ => none

def text? : Option Json → Option String
  | some (.str s) => some s
  | _ => none

end Fields

def metadataKeys : List String :=
  ["line", "blocking", "severity", "category", "fix_effort", "symbol", "defect_kind",
    "evidence_id", "side", "effective_blocking", "needs_human"]

/-- The metadata is an object whose fields a comment has, beside its path and its body. -/
def metadataShaped (metadata : Json) : Bool :=
  match metadata with
  | .obj fields => fields.all (fun f => metadataKeys.contains f.1) &&
      (fields.map Prod.fst).contains "effective_blocking" &&
      (fields.map Prod.fst).contains "needs_human"
  | _ => false

section Reading
variable (rules : Rules) (printable : String → Bool)

/-- The comment that the metadata of a finding describes. -/
def readComment (path body : Option Json) (metadata : Json) : Option ReviewComment := do
  guard (metadataShaped metadata = true)
  let path ← text? path
  let body ← text? body
  let line ← optionalLine? (metadata.get? "line")
  let blocking ← optionalFlag? (metadata.get? "blocking")
  let severity ← optionalText? (metadata.get? "severity")
  let category ← optionalText? (metadata.get? "category")
  let fixEffort ← optionalText? (metadata.get? "fix_effort")
  let symbol ← optionalText? (metadata.get? "symbol")
  let defectKind ← optionalText? (metadata.get? "defect_kind")
  let evidenceId ← optionalText? (metadata.get? "evidence_id")
  let side ← side? (metadata.get? "side")
  let effectiveBlocking ← optionalFlag? (metadata.get? "effective_blocking")
  let needsHuman ← flag? (metadata.get? "needs_human")
  if h : line = none ↔ side = .file then
    let fields : CommentFields :=
      { path, line, body, blocking, severity, category, fixEffort, symbol, defectKind, evidenceId,
        side, line_side := h }
    if accepted rules printable fields then
      some { fields with effectiveBlocking, needsHuman }
    else none
  else none

/-- The three forms of an inventory's document. -/
inductive Schema
  | plain
  | withPaths
  | record
  deriving DecidableEq

def legacyFields : List String := ["base_sha", "findings", "resolved"]

/-- The form of a document; `legacy` readers know no record. -/
def readSchema (legacy : Bool) (value : Json) : Except String Schema :=
  if value.hasKeys legacyFields = true then .ok .plain
  else if value.hasKeys (legacyFields ++ ["schema_version"]) = true then
    if value.get? "schema_version" = some (.str "2") then .ok .withPaths
    else if legacy = false ∧ value.get? "schema_version" = some (.str "3") then .ok .record
    else .error "human review fields are invalid"
  else .error "human review fields are invalid"

def Schema.findingKeys : Schema → List String
  | .plain => ["fingerprint", "path", "body"]
  | .withPaths => ["fingerprint", "path", "body", "required_paths"]
  | .record =>
    ["fingerprint", "path", "body", "required_paths", "instance_metadata", "concern_fingerprint"]

/-- The comment of a finding of a record, with its concern. -/
def readInstance (item : Json) : Except String (Option ReviewComment) :=
  match item.get? "instance_metadata" with
  | some .null => do
    ensure (item.get? "concern_fingerprint" = some .null) "legacy human finding concern is unknown"
    .ok none
  | metadata =>
    match readComment rules printable (item.get? "path") (item.get? "body")
        (metadata.getD .null) with
    | none => .error "human finding metadata is invalid"
    | some c => do
      ensure (item.get? "concern_fingerprint" =
          some (.str (lifecycleFingerprint rules.lower c.toCommentFields)))
        "human finding concern identity conflicts"
      .ok (some c)

def readPath : Json → Except String String
  | .str s => .ok s
  | _ => .error "human finding required path must be a string"

def readRequired (schema : Schema) (item : Json) : Except String (List String) :=
  match item.get? "required_paths" with
  | some (.arr items) => do
    ensure (items ≠ [] ∨ schema = .record) "human finding required paths are invalid"
    items.mapM readPath
  | _ => .error "human finding required paths are invalid"

def readFinding (schema : Schema) (item : Json) : Except String (HumanReviewFinding rules) := do
  ensure (item.hasKeys schema.findingKeys = true) "human finding fields are invalid"
  let comment ← match schema with
    | .record => readInstance rules printable item
    | _ => .ok none
  let requiredPaths ← match schema with
    | .plain => .ok []
    | _ => readRequired schema item
  let fingerprint ← Json.readText (fun _ => true) "human finding identity is invalid"
    (item.get? "fingerprint")
  let path ← Json.readText (fun _ => true) "human finding path must be a string" (item.get? "path")
  let body ← Json.readText (fun _ => true) "human finding must be a string" (item.get? "body")
  HumanReviewFinding.construct rules { fingerprint, path, body, requiredPaths, comment }

def readItems : Option Json → Except String (List Json)
  | some (.arr items) => .ok items
  | _ => .error "human review arrays are invalid"

def readResolved : Json → Except String String
  | .str s => .ok s
  | _ => .error "human review resolutions are invalid"

namespace PendingHumanReview

/-- `_from_document`, with the resolutions that stand in the document. -/
def fromDocument (legacy : Bool) (value : Json) : Except String (PendingHumanReview rules) := do
  let schema ← readSchema legacy value
  let items ← readItems (value.get? "findings")
  let resolutions ← readItems (value.get? "resolved")
  let findings ← items.mapM (readFinding rules printable schema)
  let baseSha ← Json.readText (fun _ => true) "human review base is invalid" (value.get? "base_sha")
  let resolved ← resolutions.mapM readResolved
  let restored ← construct { baseSha, findings, resolved }
  if legacy then do
    let _ ← restored.toDict
    .ok restored
  else .ok restored

/-- `from_inventory_document`. -/
def fromInventoryDocument (value : Json) : Except String (PendingHumanReview rules) := do
  ensure (Evidence.isObject value = true ∧ value.get? "resolved" = some (.arr []))
    "immutable human inventory contains resolutions"
  ensure (value.canonicalSize ≤ maxHumanDecodedBytes)
    "human review inventory exceeds the configured size limit"
  fromDocument rules printable false value

/-- `{**value, "resolved": resolved}` of a document that has resolutions. -/
def withResolved (resolved : Json) : Json → Json
  | .obj fields =>
    .obj (fields.map (fun f => if f.1 = "resolved" then ("resolved", resolved) else f))
  | value => value

/-- A list of no more resolutions than an inventory has findings. -/
def fewResolutions : Json → Bool
  | .arr items => decide (items.length ≤ maxHumanInventoryFindings)
  | _ => false

/-- The document inside an encoded inventory, with the resolutions beside it. -/
def decodeInventory (value : Json) : Except String Json := do
  let resolutions := (value.get? "resolved").getD .null
  ensure (value.hasKeys ["inventory", "resolved"] = true ∧
      fewResolutions resolutions = true ∧
      value.canonicalSize ≤ maxHumanReviewBytes)
    "encoded human inventory has an invalid shape"
  let decoded ← Assessment.decodeDocument rules.codec ((value.get? "inventory").getD .null)
    maxHumanReviewBytes maxHumanDecodedBytes
  ensure (decoded.get? "resolved" = some (.arr [])) "encoded human inventory is invalid"
  pure (withResolved resolutions decoded)

/-- `from_dict`. -/
def fromDict (value : Json) : Except String (PendingHumanReview rules) :=
  match value.get? "inventory" with
  | some _ => do
    let document ← decodeInventory rules value
    fromDocument rules printable true document
  | none => fromDocument rules printable true value

end PendingHumanReview
end Reading
end ReviewSensei.Human
