import ReviewSensei.BaselineDocument
import ReviewSensei.FindingSet

/-! The plan of a later pass against a stored baseline, with everything it checks on the way. -/
namespace ReviewSensei.Convergence
open Session (isSha256)
open Diff (validateRepositoryPath)
open Findings (LifecycleState)

/-- A finding of the baseline as the incremental pass receives it, a `FindingLifecycle`. -/
structure PreviousFinding where
  fingerprint : String
  state : LifecycleState
  evidence : Option String
  concern : Option String
  path : Option String
  generation : Nat
  deriving DecidableEq

/-- `IncrementalReviewPlan`. -/
structure IncrementalPlan where
  previousKey : CacheKey
  previousFindings : List PreviousFinding
  reviewedPaths : List String
  relatedPaths : List String
  contextComplete : Bool
  generation : Nat
  evidenceConfirmedConcerns : List String

/-- The scope with the incremental plan that only a verification has. -/
structure PlannedScope where
  scope : VerificationScope
  incremental : Option IncrementalPlan

structure ScopeArguments where
  baseline : Option ReviewBaseline := none
  currentKey : Option CacheKey := none
  changedPaths : List String := []
  relatedPaths : Option (List String) := none
  confirmedConcerns : List String := []
  contextComplete : Bool := true
  baselineBytes : Nat := maxHistoryBaselineBytes

section Constructors
variable (rules : AdmissionRules)

/-- `FindingLifecycle.__post_init__`. -/
def PreviousFinding.check (f : PreviousFinding) : Except String Unit := do
  ensure (isSha256 f.fingerprint = true) "finding lifecycle fingerprint is invalid"
  ensure (∀ concern ∈ f.concern, isSha256 concern = true) "finding lifecycle concern is invalid"
  f.path.forM (fun path =>
    validateRepositoryPath rules.unicode "finding lifecycle path" true path.toList)

/-- `IncrementalReviewPlan.__post_init__`. -/
def IncrementalPlan.check (p : IncrementalPlan) : Except String Unit := do
  ensure (p.previousFindings.length ≤ maxCacheMetadataItems)
    "incremental review previous findings exceed bound"
  ensure ("" ∉ p.reviewedPaths) "incremental reviewed_paths are invalid"
  p.reviewedPaths.forM (fun path =>
    validateRepositoryPath rules.unicode "incremental reviewed path" true path.toList)
  ensure ("" ∉ p.relatedPaths) "incremental related_paths are invalid"
  p.relatedPaths.forM (fun path =>
    validateRepositoryPath rules.unicode "incremental related path" true path.toList)
  ensure (∀ item ∈ p.evidenceConfirmedConcerns, isSha256 item = true)
    "incremental evidence concerns are invalid"

/-- `VerificationScope.__post_init__`. -/
def scopeOf (s : VerificationScope) (incremental : Option IncrementalPlan) :
    Except String PlannedScope := do
  let reviewedPaths ← boundedPaths rules "reviewed" s.reviewedPaths
  let relatedPaths ← boundedRelatedPaths rules s.relatedPaths
  let changedPaths ← boundedPaths rules "changed" s.changedPaths
  ensure (s.existingConcerns ≤ maxCacheMetadataItems) "existing_concerns is invalid"
  ensure (s.status = .verify → s.lateAdmissionRequired = true)
    "verification requires late admission"
  ensure (s.lateAdmissionRequired = true → s.roundKind = .verification)
    "late admission applies only to verification"
  ensure (s.status = .verify → s.coverageMode = .incremental)
    "verification requires incremental coverage"
  ensure (s.status = .verify → incremental.isSome = true)
    "verification requires an incremental plan"
  ensure (s.status = .legacyUnscoped → s.roundKind = .none)
    "legacy-unscoped scopes must have no round"
  ensure (s.status = .incompatible ∨ s.status = .incompleteBaseline →
      s.coverageMode = .fallbackFull)
    "invalidated verification scopes require fallback-full coverage"
  ensure (s.status = .incompatible ∨ s.status = .incompleteBaseline →
      s.lateAdmissionRequired = false)
    "invalidated verification scopes cannot require late admission"
  return { scope := { s with reviewedPaths, relatedPaths, changedPaths }, incremental }

end Constructors

section Related

/-- `path.rsplit("/", 1)[0]`, or the empty text where there is no separator. -/
def parentOf (path : String) : String :=
  String.ofList ((path.toList.reverse.dropWhile (· ≠ '/')).drop 1).reverse

/-- One candidate of the siblings; nothing is added once the bound is reached. -/
def addSibling (path : String) (related : List String) (candidate : String) : List String :=
  if candidate ≠ path ∧ parentOf candidate = parentOf path ∧ candidate ∉ related ∧
      related.length < maxRelatedPaths then related ++ [candidate]
  else related

/-- `related_paths_for_change`: changed files of one directory; here no path may have a glob
token. -/
def relatedPathsForChange (rules : AdmissionRules) (changed : List String) :
    Except String (List String) := do
  changed.forM (fun path => validateRepositoryPath rules.unicode "changed path" false path.toList)
  return changed.foldl (fun related path => changed.foldl (addSibling path) related) []

/-- `extra_related`: the given paths, or those derived from the change. -/
def extraRelated (rules : AdmissionRules) (args : ScopeArguments) (changed : List String) :
    Except String (List String) := do
  let raw ← match args.relatedPaths with
    | some related => .ok related
    | none => relatedPathsForChange rules changed
  boundedRelatedPaths rules raw

end Related

section Planning
variable (rules : AdmissionRules) (policy : ReviewConvergencePolicy) (args : ScopeArguments)

/-- A scope without a baseline. -/
def initialScope (changed related : List String) : VerificationScope where
  status := .baselineRequired
  roundKind := .initial
  lateAdmissionRequired := false
  coverageMode := .full
  invalidationReason := some .missingBaseline
  reviewedPaths := changed
  relatedPaths := related
  changedPaths := changed

def legacyScope (changed related : List String) : VerificationScope where
  status := .legacyUnscoped
  roundKind := .none
  lateAdmissionRequired := false
  coverageMode := .unscoped
  relatedPaths := related
  changedPaths := changed

/-- `existing_paths`, the reviewed, the changed and the related paths. -/
def unionPaths (baseline : ReviewBaseline) (changed related : List String) : List String :=
  baseline.findings.filterMap BaselineFinding.path ++ baseline.reviewedPaths ++ changed ++ related

/-- `candidate`: the baseline extended with the scope. -/
def extendBaseline (baseline : ReviewBaseline) (key : CacheKey) (reviewed related : List String) :
    ReviewBaseline :=
  { baseline with
    cacheKey := key
    generation := baseline.generation + 1
    reviewedPaths := reviewed
    relatedPaths := related }

def BaselineFinding.toPrevious (f : BaselineFinding) : PreviousFinding where
  fingerprint := f.fingerprint
  state := .stillPresent
  evidence := some f.resolutionCriterion
  concern := f.concern
  path := f.path
  generation := f.generation

def incrementalPlan (baseline : ReviewBaseline) (reviewed related : List String) :
    IncrementalPlan where
  previousKey := baseline.cacheKey
  previousFindings := baseline.findings.map BaselineFinding.toPrevious
  reviewedPaths := reviewed
  relatedPaths := related
  contextComplete := args.contextComplete
  generation := baseline.generation + 1
  evidenceConfirmedConcerns := args.confirmedConcerns

def verifyScope (baseline : ReviewBaseline) (reviewed related changed : List String) :
    VerificationScope where
  status := .verify
  roundKind := .verification
  lateAdmissionRequired := true
  coverageMode := .incremental
  reviewedPaths := reviewed
  relatedPaths := related
  changedPaths := changed
  existingConcerns := baseline.findings.length

def checkConcerns : Except String Unit :=
  args.confirmedConcerns.forM (fun item =>
    ensure (isSha256 item = true) "confirmed concern must be a SHA-256 digest")

/-- The part of `plan_verification_scope` after the unions fit. -/
def planIncremental (baseline : ReviewBaseline) (key : CacheKey)
    (reviewed related changed : List String) : Except String PlannedScope := do
  let candidate ← (extendBaseline baseline key reviewed related).construct rules
  match historyDocument rules {} candidate args.baselineBytes true with
  | .error _ =>
    scopeOf rules (fallbackScope .incompatible .relatedContextOverflow baseline changed) none
  | .ok _ => do
    (baseline.findings.map BaselineFinding.toPrevious).forM (PreviousFinding.check rules)
    (incrementalPlan args baseline reviewed related).check rules
    scopeOf rules (verifyScope baseline reviewed related changed)
      (some (incrementalPlan args baseline reviewed related))

/-- The part of `plan_verification_scope` for a compatible baseline in a complete context. -/
def planUnions (baseline : ReviewBaseline) (key : CacheKey) (changed : List String) :
    Except String PlannedScope := do
  let extra ← extraRelated rules args changed
  checkConcerns args
  if maxRelatedPaths < (baseline.relatedPaths ++ extra).dedup.length then
    scopeOf rules (fallbackScope .incompatible .relatedContextOverflow baseline changed) none
  else do
    let related ← uniquePaths maxRelatedPaths "related paths exceed MAX_RELATED_PATHS"
      (baseline.relatedPaths ++ extra)
    let reviewed ← uniquePaths maxCacheMetadataItems
      "reviewed paths exceed MAX_CACHE_METADATA_ITEMS" (unionPaths baseline changed related)
    planIncremental rules args baseline key reviewed related changed

/-- `status`: what an invalidation makes of a baseline. -/
def invalidatedStatus (reason : InvalidationReason) : ScopeStatus :=
  if reason = .incompleteBaseline ∨ reason = .coverageIncomplete then .incompleteBaseline
  else .incompatible

/-- `plan_verification_scope`. -/
def planScope : Except String PlannedScope := do
  ensure (args.baselineBytes ≤ maxHistoryBaselineBytes) "baseline byte allowance is invalid"
  let changed ← boundedPaths rules "changed" args.changedPaths
  if policy.mode.operator = false then do
    let related ← extraRelated rules args changed
    scopeOf rules (legacyScope changed related) none
  else
    match args.baseline with
    | none => do
      let related ← extraRelated rules args changed
      scopeOf rules (initialScope changed related) none
    | some baseline =>
      let key := args.currentKey.getD baseline.cacheKey
      match evaluateBaselineCompatibility baseline key policy with
      | some reason => do
        args.relatedPaths.forM (fun related =>
          (boundedPaths rules "related" related).map fun _ => ())
        scopeOf rules (fallbackScope (invalidatedStatus reason) reason baseline changed) none
      | none =>
        if args.contextComplete = false then do
          args.relatedPaths.forM (fun related =>
            (boundedRelatedPaths rules related).map fun _ => ())
          checkConcerns args
          scopeOf rules
            (fallbackScope .incompleteBaseline .coverageIncomplete baseline changed) none
        else planUnions rules args baseline key changed

end Planning
end ReviewSensei.Convergence
