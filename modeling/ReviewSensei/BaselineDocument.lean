import ReviewSensei.LaterFindings
import ReviewSensei.QueueState

/-! The history document of a baseline: written plain, encoded or in parts, and read back. Documents
are kept with their keys in order. -/
namespace ReviewSensei.Convergence
open Session (isSha256 isGitSha strip)
open Evidence (Manifest validateManifest digest partitionEncoding)
open Assessment (encodeEvidence decodeDocument)
open Schema (wholeLine)
open Human (sorted validateBoundedText)
open Diff (validateRepositoryPath maxRepositoryPathBytes)
open Sha256 (encode)

def maxHistoryBaselineBytes : Nat := 11264
def maxBaselineDecodedBytes : Nat := 2097152
def legacyHistoryWriteFindings : Nat := 2
def maxModelBytes : Nat := 256
def maxCacheRepositoryBytes : Nat := 512

section Checks

/-- `ReviewContextCacheKey.__post_init__`. -/
def CacheKey.check (k : CacheKey) : Except String Unit := do
  ensure (k.repository ≠ "" ∧ (encode k.repository).length ≤ maxCacheRepositoryBytes)
    "cache repository is invalid"
  ensure (1 ≤ k.pullRequest) "cache pull request must be a positive integer"
  [("base_sha", k.baseSha), ("head_sha", k.headSha)].forM (fun entry =>
    ensure (isGitSha entry.2 = true) ("cache " ++ entry.1 ++ " must be a commit SHA"))
  [("engine", k.engine), ("model", k.model), ("profile", k.profile)].forM (fun entry =>
    ensure (entry.2 ≠ "" ∧ (encode entry.2).length ≤ 256) ("cache " ++ entry.1 ++ " is invalid"))
  [("stage_digest", k.stageDigest), ("context_digest", k.contextDigest),
    ("learning_digest", k.learningDigest)].forM (fun entry =>
      ensure (isSha256 entry.2 = true) ("cache " ++ entry.1 ++ " must be a SHA-256 digest"))

variable (rules : AdmissionRules)

/-- `BaselineFinding.__post_init__`. -/
def BaselineFinding.check (f : BaselineFinding) : Except String Unit := do
  ensure (isSha256 f.fingerprint = true) "baseline finding fingerprint must be a SHA-256 digest"
  ensure (isSha256 f.resolutionCriterion = true)
    "baseline resolution criterion must be a SHA-256 digest"
  ensure (∀ concern ∈ f.concern, isSha256 concern = true)
    "baseline finding concern must be a SHA-256 digest"
  f.path.forM (fun path =>
    validateRepositoryPath rules.unicode "baseline finding path" true path.toList)
  ensure (∀ symbol ∈ f.symbol, strip symbol ≠ "") "baseline finding symbol is invalid"
  ensure (strip f.defectKind ≠ "") "baseline finding defect_kind is invalid"

/-- `ReviewBaseline.__post_init__`: repeated paths are kept once. -/
def ReviewBaseline.construct (b : ReviewBaseline) : Except String ReviewBaseline := do
  ensure (isSha256 b.policyDigest = true) "baseline policy_digest must be a SHA-256 digest"
  ensure (b.findings.length ≤ maxCacheMetadataItems)
    "review baseline findings exceed the metadata bound"
  let reviewedPaths ← boundedPaths rules "reviewed" b.reviewedPaths
  let relatedPaths ← boundedRelatedPaths rules b.relatedPaths
  return { b with reviewedPaths, relatedPaths }

/-- A baseline that its constructors accepted and left as it is. -/
structure ReviewBaseline.Valid (b : ReviewBaseline) : Prop where
  key : b.cacheKey.check = .ok ()
  findings : ∀ f ∈ b.findings, f.check rules = .ok ()
  fields : b.construct rules = .ok b

end Checks

section Documents

def cacheKeyKeys : List String :=
  ["base_sha", "context_digest", "engine", "head_sha", "learning_digest", "model", "profile",
    "pull_request", "repository", "stage_digest"]

/-- `baseline_cache_key_document`. -/
def CacheKey.toDocument (k : CacheKey) : Json :=
  .obj (cacheKeyKeys.zip [.str k.baseSha, .str k.contextDigest, .str k.engine, .str k.headSha,
    .str k.learningDigest, .str k.model, .str k.profile, .int k.pullRequest, .str k.repository,
    .str k.stageDigest])

def nullable : Option String → Json
  | none => .null
  | some s => .str s

def findingKeys : List String :=
  ["blocking", "concern", "defect_kind", "fingerprint", "generation", "path",
    "resolution_criterion", "symbol"]

def BaselineFinding.toDocument (f : BaselineFinding) : Json :=
  .obj (findingKeys.zip [.bool f.blocking, nullable f.concern, .str f.defectKind,
    .str f.fingerprint, .int f.generation, nullable f.path, .str f.resolutionCriterion,
    nullable f.symbol])

/-- `sorted(findings, key=lambda item: item.fingerprint)`; the sort is stable. -/
def sortedFindings (findings : List BaselineFinding) : List BaselineFinding :=
  findings.insertionSort (fun f g => f.fingerprint ≤ g.fingerprint)

def baselineKeys : List String :=
  ["cache_key", "complete", "coverage_complete", "findings", "generation", "policy_digest",
    "related_paths", "reviewed_paths"]

/-- `_baseline_document`. -/
def ReviewBaseline.toDocument (b : ReviewBaseline) : Json :=
  .obj (baselineKeys.zip [b.cacheKey.toDocument, .bool b.complete, .bool b.coverageComplete,
    .arr ((sortedFindings b.findings).map BaselineFinding.toDocument), .int b.generation,
    .str b.policyDigest, .arr ((sorted b.relatedPaths).map .str),
    .arr ((sorted b.reviewedPaths).map .str)])

end Documents

section Schema

def atMost (n : Nat) : Json → Bool
  | .str s => decide (s.length ≤ n)
  | _ => false

def digestText : Json → Bool
  | .str s => wholeLine isSha256 s
  | _ => false

def orNull (accepts : Json → Bool) : Json → Bool
  | .null => true
  | j => accepts j

def cacheKeySchema (value : Json) : Bool :=
  match value.record? cacheKeyKeys with
  | some [.str baseSha, context, engine, .str headSha, learning, model, profile, .int pullRequest,
      repository, stage] =>
    wholeLine isGitSha baseSha && digestText context && atMost 256 engine &&
      wholeLine isGitSha headSha && digestText learning && atMost 256 model &&
      atMost 256 profile && decide (1 ≤ pullRequest) && atMost 256 repository && digestText stage
  | _ => false

def findingSchema (value : Json) : Bool :=
  match value.record? findingKeys with
  | some [.bool _, concern, kind, fingerprint, .int generation, path, criterion, symbol] =>
    orNull digestText concern && atMost 256 kind && digestText fingerprint &&
      decide (0 ≤ generation) && orNull (atMost 4096) path && digestText criterion &&
      orNull (atMost 256) symbol
  | _ => false

/-- The public schema `baseline-evidence`. -/
def evidenceSchema (value : Json) : Bool :=
  match value.record? baselineKeys with
  | some [key, .bool _, .bool _, .arr findings, .int generation, policy, .arr related,
      .arr reviewed] =>
    cacheKeySchema key && decide (findings.length ≤ 512) && findings.all findingSchema &&
      decide (0 ≤ generation) && digestText policy && decide (related.length ≤ 64) &&
      related.all (atMost 4096) && decide (reviewed.length ≤ 512) && reviewed.all (atMost 4096)
  | _ => false

end Schema

/-- What stores a document in parts under some allowance, and what reads it from its manifest. -/
structure PartitionStore where
  writer : Option (Json → Nat → Nat → Except String Json) := none
  reader : Option (Json → Except String Json) := none

section Writing
variable (rules : AdmissionRules) (store : PartitionStore) (baseline : ReviewBaseline)

/-- `max(map(len, texts), default=0)`. -/
def widest (texts : List String) : Nat := (texts.map String.length).foldl max 0

def identityOrPathCharacters : Nat :=
  widest ([baseline.cacheKey.repository, baseline.cacheKey.engine, baseline.cacheKey.model,
    baseline.cacheKey.profile] ++ baseline.reviewedPaths ++ baseline.relatedPaths ++
      (sortedFindings baseline.findings).map (fun f => f.path.getD ""))

def symbolCharacters : Nat :=
  widest ((sortedFindings baseline.findings).map (fun f => f.symbol.getD ""))

def defectKindCharacters : Nat :=
  widest ((sortedFindings baseline.findings).map (fun f => f.defectKind))

def fieldsExceedBound : Prop :=
  maxRepositoryPathBytes < identityOrPathCharacters baseline ∨
    maxModelBytes < symbolCharacters baseline ∨ maxModelBytes < defectKindCharacters baseline

instance : Decidable (fieldsExceedBound baseline) := inferInstanceAs (Decidable (_ ∨ _))

/-- The inventory is past what the plain wire form was made for. -/
def isLarge : Prop :=
  legacyHistoryWriteFindings < baseline.findings.length ∨
    maxHistoryBaselineBytes < baseline.toDocument.canonicalSize ∨
    256 < identityOrPathCharacters baseline ∨ 256 < symbolCharacters baseline ∨
    128 < defectKindCharacters baseline

instance : Decidable (isLarge baseline) := inferInstanceAs (Decidable (_ ∨ _))

/-- `persisted`: the stable format, whatever the caller's allocation. -/
def persistedForm : Except String Json :=
  if maxBaselineDecodedBytes < baseline.toDocument.canonicalSize then .ok baseline.toDocument
  else if isLarge baseline then
    encodeEvidence rules.codec baseline.toDocument maxBaselineDecodedBytes
  else .ok baseline.toDocument

/-- What stands in the diagnostics of a baseline that cannot be persisted. -/
def persistenceReasons (size maxBytes : Nat) : List String :=
  (if maxBaselineDecodedBytes < baseline.toDocument.canonicalSize then ["decoded-bytes"] else []) ++
    (if maxBytes < size ∧ store.writer = none then ["encoded-bytes"] else []) ++
    (if fieldsExceedBound baseline then ["field-width"] else [])

/-- The parts of a document that is too large for its allowance. -/
def writeParts (maxBytes : Nat) : Except String Json :=
  match store.writer with
  | none => .error "complete review evidence exceeds the persisted bound"
  | some writer => do
    let persisted ← writer baseline.toDocument baseline.findings.length maxBytes
    let _ ← validateManifest persisted
    ensure (persisted.canonicalSize ≤ maxBytes)
      "partition manifest exceeds actual lifecycle allocation"
    return persisted

/-- `baseline_history_document`. -/
def historyDocument (maxBytes : Nat) (requireComplete : Bool) : Except String Json := do
  ensure (maxBytes ≤ maxHistoryBaselineBytes) "baseline byte allowance is invalid"
  ensure (baseline.reviewedPaths.length ≤ maxCacheMetadataItems)
    "baseline reviewed paths exceed the persisted bound"
  ensure (baseline.relatedPaths.length ≤ maxRelatedPaths)
    "baseline related paths exceed the persisted bound"
  ensure (fieldsExceedBound baseline → requireComplete = true)
    "baseline evidence exceeds persisted field bounds"
  ensure (requireComplete = true → baseline.complete = true ∧ baseline.coverageComplete = true)
    "only complete evidence can be persisted"
  let persisted ← persistedForm rules baseline
  ensure (persistenceReasons store baseline persisted.canonicalSize maxBytes = [])
    "complete review evidence exceeds the persisted bound"
  ensure (evidenceSchema baseline.toDocument = true)
    "baseline-evidence document failed schema validation"
  if maxBytes < persisted.canonicalSize then writeParts store baseline maxBytes
  else return persisted

end Writing

section Reading
variable (rules : AdmissionRules) (store : PartitionStore)

def CacheKey.ofDocument (value : Json) : Option CacheKey :=
  match value.record? cacheKeyKeys with
  | some [.str baseSha, .str contextDigest, .str engine, .str headSha, .str learningDigest,
      .str model, .str profile, .int pullRequest, .str repository, .str stageDigest] => do
    let key : CacheKey := { repository, pullRequest := pullRequest.toNat, baseSha, headSha, engine,
                            model, profile, stageDigest, contextDigest, learningDigest }
    guard (0 ≤ pullRequest ∧ key.check.isOk = true)
    return key
  | _ => none

def readNullable : Json → Option (Option String)
  | .null => some none
  | .str s => some (some s)
  | _ => none

def BaselineFinding.ofDocument (value : Json) : Option BaselineFinding :=
  match value.record? findingKeys with
  | some [.bool blocking, concern, .str defectKind, .str fingerprint, .int generation, path,
      .str resolutionCriterion, symbol] => do
    let concern ← readNullable concern
    let path ← readNullable path
    let symbol ← readNullable symbol
    let finding : BaselineFinding := { fingerprint, resolutionCriterion, concern, path, symbol,
                                       defectKind, generation := generation.toNat, blocking }
    guard (0 ≤ generation ∧ (finding.check rules).isOk = true)
    return finding
  | _ => none

def readText : Json → Option String
  | .str s => some s
  | _ => none

/-- The members of a persisted baseline once its shape is known. -/
structure EvidenceFields where
  cacheKey : Json
  complete : Bool
  coverageComplete : Bool
  findings : List Json
  generation : Int
  policyDigest : String
  relatedPaths : List Json
  reviewedPaths : List Json

def EvidenceFields.ofDocument (value : Json) : Option EvidenceFields :=
  match value.record? baselineKeys with
  | some [cacheKey, .bool complete, .bool coverageComplete, .arr findings, .int generation,
      .str policyDigest, .arr relatedPaths, .arr reviewedPaths] =>
    some { cacheKey, complete, coverageComplete, findings, generation, policyDigest, relatedPaths,
           reviewedPaths }
  | _ => none

/-- The constructors over the persisted members. -/
def EvidenceFields.rebuild (e : EvidenceFields) : Option ReviewBaseline := do
  let cacheKey ← CacheKey.ofDocument e.cacheKey
  let findings ← e.findings.mapM (BaselineFinding.ofDocument rules)
  let reviewedPaths ← e.reviewedPaths.mapM readText
  let relatedPaths ← e.relatedPaths.mapM readText
  guard (0 ≤ e.generation)
  (ReviewBaseline.construct rules
    { cacheKey, policyDigest := e.policyDigest, complete := e.complete, findings, reviewedPaths,
      relatedPaths, coverageComplete := e.coverageComplete,
      generation := e.generation.toNat }).toOption

/-- The document and, where it was stored in parts, its manifest. -/
def openHistory (value : Json) : Except String (Json × Option Manifest) :=
  match value with
  | .obj _ =>
    if value.get? "encoding" = some (.str partitionEncoding) then do
      let manifest ← validateManifest value
      match store.reader with
      | none => .error "partition baseline requires an authenticated reader"
      | some reader => do
        ensure (manifest.binding.purpose = "baseline")
          "partition baseline document kind does not match"
        let document ← reader value
        return (document, some manifest)
    else if (value.get? "encoding").isSome then do
      let document ← decodeDocument rules.codec value maxHistoryBaselineBytes
        maxBaselineDecodedBytes
      return (document, none)
    else .ok (value, none)
  | _ => .error "persisted baseline is invalid"

/-- The manifest is of this document and of this review. -/
def Authorizes (manifest : Manifest) (document : Json) (e : EvidenceFields) : Prop :=
  e.cacheKey.get? "repository" = some (.str manifest.binding.repository) ∧
    e.cacheKey.get? "pull_request" = some (.int manifest.binding.pullRequest) ∧
    e.cacheKey.get? "base_sha" = some (.str manifest.binding.baseSha) ∧
    e.cacheKey.get? "head_sha" = some (.str manifest.binding.headSha) ∧
    e.generation = manifest.binding.generation ∧ e.policyDigest = manifest.binding.policyDigest ∧
    (document.canonicalSize : Int) = manifest.decodedBytes ∧ digest document = manifest.sha256 ∧
    (e.findings.length : Int) = manifest.itemCount

instance (manifest : Manifest) (document : Json) (e : EvidenceFields) :
    Decidable (Authorizes manifest document e) := inferInstanceAs (Decidable (_ ∧ _))

/-- The bounded identities of one persisted finding. -/
def checkIdentity (item : Json) : Except String Unit :=
  ["symbol", "defect_kind"].forM (fun field =>
    match item.get? field with
    | some .null => .ok ()
    | some (.str s) => validateBoundedText s maxModelBytes "baseline identity" true
    | _ => .error "baseline identity must be a string")

/-- `baseline_from_history_document`. -/
def baselineFromHistoryDocument (value : Json) : Except String ReviewBaseline := do
  let (document, manifest) ← openHistory rules store value
  ensure (evidenceSchema document = true) "persisted baseline has an invalid shape"
  match EvidenceFields.ofDocument document with
  | none => .error "persisted baseline has an invalid shape"
  | some e => do
    ensure (∀ m ∈ manifest, Authorizes m document e) "partition baseline authority does not match"
    ensure ((e.cacheKey.record? cacheKeyKeys).isSome = true)
      "persisted baseline has an invalid shape"
    ensure (∀ item ∈ e.findings, (item.record? findingKeys).isSome = true)
      "persisted baseline has an invalid shape"
    e.findings.forM checkIdentity
    match e.rebuild rules with
    | none => .error "persisted baseline is invalid"
    | some baseline => .ok baseline

end Reading
end ReviewSensei.Convergence
