import ReviewSensei.ReviewComment
import ReviewSensei.Evidence
import ReviewSensei.DiffPaths
import ReviewSensei.Dict

/-! The human-review findings of a published review and which of them are resolved. -/
namespace ReviewSensei.Human
open Session (isSha256 isGitSha)
open Sha256 (encode)
open Review (CommentFields ReviewComment findingInstanceFingerprint lifecycleFingerprint)
open Diff (validateRepositoryPath)
open Evidence (Codec)

/-- Per provider request, never the whole inventory. -/
def maxHumanFindings : Nat := 20
def maxHumanInventoryFindings : Nat := Review.maxComments
def maxHumanDecodedBytes : Nat := 2097152
def maxHumanReviewBytes : Nat := 24 * 1024
def maxHumanInventoryPaths : Nat := maxHumanInventoryFindings * 8
def maxCommentBodyBytes : Nat := 16384

/-- What the inventories use of Unicode, zlib and the JSON reader; `lower` is `str.lower`. -/
structure Rules where
  unicode : Diff.UnicodeRules
  lower : String → String
  codec : Codec

/-- `sorted` of texts. -/
def sorted (texts : List String) : List String := texts.insertionSort (· ≤ ·)

@[simp] theorem mem_sorted (text : String) (texts : List String) :
    text ∈ sorted texts ↔ text ∈ texts := by
  simp [sorted]

/-- `validate_bounded_text`; the texts of Lean have no lone surrogates. -/
def validateBoundedText (value : String) (maximum : Nat) (label : String) (allowEmpty : Bool) :
    Except String Unit := do
  ensure (allowEmpty = true ∨ value ≠ "") (label ++ " must be non-empty")
  ensure ((encode value).length ≤ maximum) (label ++ " exceeds the configured size limit")

/-- `ReviewComment.blocks_approval`. -/
def blocksApproval (rules : Rules) (c : ReviewComment) : Bool :=
  match c.effectiveBlocking, c.blocking with
  | some effective, _ => effective
  | none, some proposed => proposed
  | none, none => c.severity.any (fun s => rules.lower s = "critical" || rules.lower s = "high")

/-- The fields of a finding before its checks. -/
structure FindingFields where
  fingerprint : String
  path : String
  body : String
  requiredPaths : List String := []
  /-- The comment the finding was made from; equality does not see it. -/
  comment : Option ReviewComment := none

namespace FindingFields

/-- `HumanReviewFinding.__post_init__`. -/
def check (rules : Rules) (f : FindingFields) : Except String Unit := do
  ensure (isSha256 f.fingerprint = true) "human finding identity is invalid"
  ensure (∀ c ∈ f.comment, c.path = f.path ∧ c.body = f.body ∧
      findingInstanceFingerprint c.toCommentFields = f.fingerprint)
    "human finding instance authority conflicts"
  validateRepositoryPath rules.unicode "human finding path" true f.path.toList
  validateBoundedText f.body maxCommentBodyBytes "human finding" false
  ensure (f.requiredPaths.length ≤ 8) "human finding required paths are invalid"
  f.requiredPaths.forM (fun path =>
    validateRepositoryPath rules.unicode "human finding required path" true path.toList)
  ensure (f.requiredPaths.Nodup ∧ (f.requiredPaths = [] ∨ f.path ∈ f.requiredPaths))
    "human finding required paths conflict"

def evidencePaths (f : FindingFields) : List String :=
  sorted (if f.requiredPaths = [] then [f.path] else f.requiredPaths)

/-- The fields of a document that every form of an inventory has. -/
def identityFields (f : FindingFields) : List (String × Json) :=
  [("fingerprint", .str f.fingerprint), ("path", .str f.path), ("body", .str f.body)]

def toDict (f : FindingFields) : Json :=
  .obj (f.identityFields ++
    if f.requiredPaths = [] then []
    else [("required_paths", .arr (f.evidencePaths.map .str))])

/-- A finding of an inventory of the second schema, where every finding names its paths. -/
def toDictWithPaths (f : FindingFields) : Json :=
  .obj (f.identityFields ++ [("required_paths", .arr (f.evidencePaths.map .str))])

/-- `!=` of two findings. -/
def differs (f g : FindingFields) : Prop :=
  ¬ (f.fingerprint = g.fingerprint ∧ f.path = g.path ∧ f.body = g.body ∧
    f.requiredPaths = g.requiredPaths)

instance (f g : FindingFields) : Decidable (f.differs g) := inferInstanceAs (Decidable (¬ _))

end FindingFields

structure HumanReviewFinding (rules : Rules) extends FindingFields where
  accepted : toFindingFields.check rules = .ok ()

def HumanReviewFinding.construct (rules : Rules) (f : FindingFields) :
    Except String (HumanReviewFinding rules) :=
  match h : f.check rules with
  | .ok () => .ok ⟨f, h⟩
  | .error e => .error e

theorem HumanReviewFinding.construct_ok {rules : Rules} {f : FindingFields}
    {finding : HumanReviewFinding rules} (h : construct rules f = .ok finding) :
    finding.toFindingFields = f := by
  unfold construct at h
  split at h
  · obtain rfl := Except.ok.inj h
    rfl
  · cases h

/-- `encode_evidence`. -/
def encodeEvidence (codec : Codec) (value : Json) (maxDecoded : Nat) : Except String Json := do
  ensure (value.canonicalSize ≤ maxDecoded) "evidence exceeds the decoded byte bound"
  return Evidence.envelope value.canonicalSize (Evidence.digest value)
    (Evidence.base64 (codec.compress value.canonical))

section Inventory
variable (rules : Rules)

/-- `instance_metadata`: the fields of the comment's document beside its path and its body. -/
def instanceMetadata (c : ReviewComment) : Json :=
  .obj ((match c.toDict with
      | .obj fields => fields.filter (fun f => decide (f.1 ≠ "path" ∧ f.1 ≠ "body"))
      | _ => []) ++
    [("effective_blocking", .bool (blocksApproval rules c)), ("needs_human", .bool c.needsHuman)])

/-- A finding of the immutable inventory. -/
def FindingFields.toRecord (f : FindingFields) : Json :=
  .obj (f.identityFields ++
    [("required_paths", .arr (f.requiredPaths.map .str)),
      ("instance_metadata", (f.comment.map (instanceMetadata rules)).getD .null),
      ("concern_fingerprint",
        (f.comment.map (fun c => .str (lifecycleFingerprint rules.lower c.toCommentFields))).getD
          .null)])

/-- The fields of an inventory before its checks. -/
structure InventoryFields where
  baseSha : String
  findings : List (HumanReviewFinding rules)
  resolved : List String := []

namespace InventoryFields
variable {rules}

def identities (f : InventoryFields rules) : List String :=
  f.findings.map (fun finding => finding.fingerprint)

/-- The paths of all findings, once each. -/
def paths (f : InventoryFields rules) : List String :=
  (f.findings.flatMap (fun finding => finding.evidencePaths)).dedup

def pending (f : InventoryFields rules) : List (HumanReviewFinding rules) :=
  f.findings.filter (fun finding => decide (finding.fingerprint ∉ f.resolved))

/-- The fields of the immutable inventory with some resolutions. -/
def recordWith (f : InventoryFields rules) (resolved : List String) : Json :=
  .obj [("schema_version", .str "3"), ("base_sha", .str f.baseSha),
    ("findings", .arr (f.findings.map (fun finding => finding.toRecord rules))),
    ("resolved", .arr (resolved.map .str))]

/-- `inventory_document`: the resolutions stay in a receipt. -/
def inventoryDocument (f : InventoryFields rules) : Json := f.recordWith []

def inventoryDigest (f : InventoryFields rules) : String := Evidence.digest f.inventoryDocument

/-- Some finding requires paths beside its own. -/
def crossFile (f : InventoryFields rules) : Bool :=
  f.findings.any (fun finding => decide (finding.requiredPaths ≠ []))

/-- `{**self._document(), "resolved": resolved}`. -/
def documentWith (f : InventoryFields rules) (resolved : List String) : Json :=
  if f.crossFile then
    .obj [("base_sha", .str f.baseSha),
      ("findings", .arr (f.findings.map (fun finding => finding.toDictWithPaths))),
      ("resolved", .arr (resolved.map .str)), ("schema_version", .str "2")]
  else
    .obj [("base_sha", .str f.baseSha),
      ("findings", .arr (f.findings.map (fun finding => finding.toDict))),
      ("resolved", .arr (resolved.map .str))]

/-- The inventory does not fit its plain document with every finding resolved. -/
def isEncoded (f : InventoryFields rules) : Prop :=
  maxHumanFindings < f.findings.length ∨ (∃ finding ∈ f.findings, 2048 < (encode finding.body).length) ∨
    maxHumanReviewBytes < (f.documentWith (sorted f.identities)).canonicalSize

instance (f : InventoryFields rules) : Decidable f.isEncoded := inferInstanceAs (Decidable (_ ∨ _))

/-- `_persisted`; the cached bytes of a constructed inventory give the same document. -/
def persisted (f : InventoryFields rules) (resolved : List String) : Except String Json :=
  if f.isEncoded then do
    let inventory ← encodeEvidence rules.codec (f.documentWith []) maxHumanDecodedBytes
    return .obj [("inventory", inventory), ("resolved", .arr (resolved.map .str))]
  else .ok (f.documentWith resolved)

/-- `PendingHumanReview.__post_init__`, which gives the error that later keeps the inventory out of
a single document. -/
def check (f : InventoryFields rules) : Except String (Option String) := do
  ensure (isGitSha f.baseSha = true) "human review base is invalid"
  ensure (1 ≤ f.findings.length ∧ f.findings.length ≤ maxHumanInventoryFindings)
    "human review inventory is invalid"
  ensure (f.paths.length ≤ maxHumanInventoryPaths)
    "human review required path inventory is too large"
  ensure f.identities.Nodup "human review identities are duplicated"
  ensure (∀ identity ∈ f.resolved, isSha256 identity = true) "human review resolutions are invalid"
  ensure (f.resolved.Nodup ∧ ∀ identity ∈ f.resolved, identity ∈ f.identities)
    "human review resolution identity is invalid"
  ensure ((f.recordWith (sorted f.identities)).canonicalSize ≤ maxHumanDecodedBytes)
    "human review inventory exceeds the configured size limit"
  let future ← f.persisted (sorted f.identities)
  return (if 64 < f.paths.length then some "human review required path inventory is too large"
    else if maxHumanReviewBytes < future.canonicalSize then
      some "human review inventory exceeds the configured size limit"
    else none)

end InventoryFields

/-- An inventory: fields that the constructor accepted. -/
structure PendingHumanReview extends InventoryFields rules where
  legacyCapacityError : Option String
  accepted : toInventoryFields.check = .ok legacyCapacityError

namespace PendingHumanReview
variable {rules}

def construct (f : InventoryFields rules) : Except String (PendingHumanReview rules) :=
  match h : f.check with
  | .ok legacy => .ok ⟨f, legacy, h⟩
  | .error e => .error e

theorem construct_ok {f : InventoryFields rules} {inventory : PendingHumanReview rules}
    (h : construct f = .ok inventory) : inventory.toInventoryFields = f := by
  unfold construct at h
  split at h
  · obtain rfl := Except.ok.inj h
    rfl
  · cases h

/-- `to_dict`: an inventory that needs parts has no single document. -/
def toDict (inventory : PendingHumanReview rules) : Except String Json :=
  match inventory.legacyCapacityError with
  | some e => .error e
  | none => inventory.persisted inventory.resolved

end PendingHumanReview

/-- One comment of `from_result`. -/
def addInstance (seen : Dict String (HumanReviewFinding rules)) (c : ReviewComment) :
    Except String (Dict String (HumanReviewFinding rules)) := do
  let fingerprint := findingInstanceFingerprint c.toCommentFields
  let finding ← HumanReviewFinding.construct rules
    { fingerprint := fingerprint, path := c.path, body := c.body, comment := some c }
  ensure (∀ previous ∈ seen.get? fingerprint,
      ¬ previous.toFindingFields.differs finding.toFindingFields)
    "finding instance identity conflicts"
  return seen.set fingerprint finding

/-- `PendingHumanReview.from_result`. -/
def fromResult (comments : List ReviewComment) (baseSha : Option String) :
    Except String (Option (PendingHumanReview rules)) :=
  match comments.filter (fun c => c.needsHuman), baseSha with
  | [], _ => .ok none
  | _, none => .error "human review inventory requires an exact base sha"
  | needing, some base => do
    let seen ← needing.foldlM (addInstance rules) []
    let findings := seen.insertionSort (fun a b => a.1 ≤ b.1)
    let inventory ← PendingHumanReview.construct
      { baseSha := base, findings := findings.map Prod.snd }
    return some inventory

/-- A decision on one finding, by what an inventory reads of it. -/
structure AssessmentDecision where
  fingerprint : String
  unresolved : Bool

/-- `PendingHumanReview.apply`. -/
def PendingHumanReview.apply (inventory : PendingHumanReview rules)
    (decisions : List AssessmentDecision) : Except String (PendingHumanReview rules) := do
  ensure (decisions.map AssessmentDecision.fingerprint).Nodup
    "human assessment identities are invalid"
  ensure (∀ d ∈ decisions, d.fingerprint ∈ inventory.pending.map (fun f => f.fingerprint))
    "human assessment identities are invalid"
  let accepted := (decisions.filter (fun d => !d.unresolved)).map AssessmentDecision.fingerprint
  PendingHumanReview.construct
    { inventory.toInventoryFields with resolved := sorted (inventory.resolved ++ accepted).dedup }

/-- `HumanInventoryResolution`: the resolutions of an inventory, bound to its digest. -/
structure Resolution where
  inventoryDigest : String
  resolved : List String
  deriving DecidableEq

namespace Resolution

def toDict (r : Resolution) : Json :=
  .obj [("schema_version", .str "1"), ("inventory_digest", .str r.inventoryDigest),
    ("resolved", .arr ((sorted r.resolved).map .str))]

/-- `HumanInventoryResolution.__post_init__`. -/
def construct (r : Resolution) : Except String Resolution := do
  ensure (isSha256 r.inventoryDigest = true) "human resolution inventory digest is invalid"
  ensure (r.resolved.length ≤ maxHumanInventoryFindings ∧
      (∀ identity ∈ r.resolved, isSha256 identity = true) ∧ r.resolved.Nodup)
    "human resolution identities are invalid"
  ensure (r.toDict.canonicalSize ≤ maxHumanReviewBytes)
    "human resolution state exceeds the configured size limit"
  return r

variable {rules}

/-- `from_inventory`. -/
def fromInventory (inventory : InventoryFields rules) : Except String Resolution :=
  construct ⟨inventory.inventoryDigest, sorted inventory.resolved⟩

/-- `restore`. -/
def restore (r : Resolution) (inventory : PendingHumanReview rules) :
    Except String (PendingHumanReview rules) := do
  ensure (inventory.inventoryDigest = r.inventoryDigest ∧
      (∀ identity ∈ r.resolved, identity ∈ inventory.identities) ∧
      ∀ identity ∈ inventory.resolved, identity ∈ r.resolved)
    "human resolution inventory authority conflicts"
  PendingHumanReview.construct { inventory.toInventoryFields with resolved := sorted r.resolved }

end Resolution
end Inventory
end ReviewSensei.Human
