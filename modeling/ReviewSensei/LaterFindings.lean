import ReviewSensei.Convergence
import ReviewSensei.Dict

/-! The last complete review as a baseline, and what a later finding is to it. -/
namespace ReviewSensei.Convergence
open Session (isSha256 strip)
open Review (CommentFields ReviewComment lifecycleFingerprint commentDefectKind)
open Diff (validateRepositoryPath)

def maxCacheMetadataItems : Nat := 512
def maxRelatedPaths : Nat := 64

/-- `ReviewContextCacheKey`. -/
structure CacheKey where
  repository : String
  pullRequest : Nat
  baseSha : String
  headSha : String
  engine : String
  model : String
  profile : String
  stageDigest : String
  contextDigest : String
  learningDigest : String
  deriving DecidableEq

/-- `cache_key_is_compatible`: everything but the head. -/
def CacheKey.compatible (current previous : CacheKey) : Bool :=
  decide (current = { previous with headSha := current.headSha })

/-- One concern of a completed review. -/
structure BaselineFinding where
  fingerprint : String
  resolutionCriterion : String
  concern : Option String := none
  path : Option String := none
  symbol : Option String := none
  defectKind : String := "unknown"
  generation : Nat := 0
  blocking : Bool := false
  deriving DecidableEq

/-- The path, the symbol and the kind; an absent text is the empty one. -/
def BaselineFinding.identityKey (f : BaselineFinding) : String × String × String :=
  (f.path.getD "", f.symbol.getD "", f.defectKind)

structure ReviewBaseline where
  cacheKey : CacheKey
  policyDigest : String
  complete : Bool
  findings : List BaselineFinding := []
  reviewedPaths : List String := []
  relatedPaths : List String := []
  coverageComplete : Bool := true
  generation : Nat := 0

/-- The rules of admission, with the question whether a baseline fits the durable history. -/
structure BaselineRules extends AdmissionRules where
  historyFits : ReviewBaseline → Bool

inductive InvalidationReason
  | rebaseOrBaseChange
  | modelChange
  | engineChange
  | profileChange
  | policyChange
  | promptOrStageDigestChange
  | contextDigestChange
  | learningDigestChange
  | incompleteBaseline
  | missingBaseline
  | coverageIncomplete
  | relatedContextOverflow
  | ledgerUntrusted
  deriving DecidableEq, Repr

/-- `evaluate_baseline_compatibility`. -/
def evaluateBaselineCompatibility (baseline : ReviewBaseline) (currentKey : CacheKey)
    (policy : ReviewConvergencePolicy) : Option InvalidationReason :=
  let previous := baseline.cacheKey
  if baseline.complete = false then
    some (if baseline.coverageComplete then .incompleteBaseline else .coverageIncomplete)
  else if baseline.coverageComplete = false then some .coverageIncomplete
  else if policy.digest ≠ baseline.policyDigest then some .policyChange
  else if previous.baseSha ≠ currentKey.baseSha then some .rebaseOrBaseChange
  else if previous.model ≠ currentKey.model then some .modelChange
  else if previous.engine ≠ currentKey.engine then some .engineChange
  else if previous.profile ≠ currentKey.profile then some .profileChange
  else if previous.stageDigest ≠ currentKey.stageDigest then some .promptOrStageDigestChange
  else if previous.contextDigest ≠ currentKey.contextDigest then some .contextDigestChange
  else if previous.learningDigest ≠ currentKey.learningDigest then some .learningDigestChange
  else if currentKey.compatible previous = false then some .rebaseOrBaseChange
  else none

inductive ScopeStatus
  | legacyUnscoped
  | baselineRequired
  | incompleteBaseline
  | incompatible
  | verify
  | ledgerUntrusted
  deriving DecidableEq, Repr

inductive RoundKind
  | none
  | initial
  | verification
  deriving DecidableEq, Repr

inductive CoverageMode
  | full
  | incremental
  | fallbackFull
  | unscoped
  deriving DecidableEq, Repr

/-- The scope of one later pass. -/
structure VerificationScope where
  status : ScopeStatus
  roundKind : RoundKind
  lateAdmissionRequired : Bool
  coverageMode : CoverageMode
  invalidationReason : Option InvalidationReason := none
  reviewedPaths : List String := []
  relatedPaths : List String := []
  changedPaths : List String := []
  existingConcerns : Nat := 0
  deriving DecidableEq

/-- One path of `_bounded_paths`; the paths so far stand in order. -/
def addPath (rules : AdmissionRules) (label : String) (paths : List String) (path : String) :
    Except String (List String) := do
  validateRepositoryPath rules.unicode label true path.toList
  ensure (path ∈ paths ∨ paths.length < maxCacheMetadataItems)
    (label ++ " paths exceed MAX_CACHE_METADATA_ITEMS")
  return if path ∈ paths then paths else paths ++ [path]

/-- `_bounded_paths`. -/
def boundedPaths (rules : AdmissionRules) (label : String) (values : List String) :
    Except String (List String) :=
  values.foldlM (addPath rules label) []

/-- `_bounded_related_paths`. -/
def boundedRelatedPaths (rules : AdmissionRules) (values : List String) : Except String (List String) := do
  let paths ← boundedPaths rules "related" values
  ensure (paths.length ≤ maxRelatedPaths) "related paths exceed MAX_RELATED_PATHS"
  return paths

/-- `_unique_paths` and `_merge_related_paths`: the first occurrences, up to a bound. -/
def uniquePaths (bound : Nat) (message : String) (paths : List String) :
    Except String (List String) := do
  let unique := paths.foldl (fun seen path => if path ∈ seen then seen else seen ++ [path]) []
  ensure (unique.length ≤ bound) message
  return unique

/-- A scope that a review of everything falls back to. -/
def fallbackScope (status : ScopeStatus) (reason : InvalidationReason) (baseline : ReviewBaseline)
    (changed : List String) : VerificationScope where
  status := status
  roundKind := .initial
  lateAdmissionRequired := false
  coverageMode := .fallbackFull
  invalidationReason := some reason
  reviewedPaths := changed
  changedPaths := changed
  existingConcerns := baseline.findings.length

/-- `plan_verification_scope` of a compatible baseline in a complete context. -/
def planCompatible (rules : BaselineRules) (baseline : ReviewBaseline) (currentKey : CacheKey)
    (changed relatedPaths confirmedConcerns : List String) : Except String VerificationScope := do
  let extraRelated ← boundedRelatedPaths rules.toAdmissionRules relatedPaths
  confirmedConcerns.forM (fun item =>
    ensure (isSha256 item = true) "confirmed concern must be a SHA-256 digest")
  if maxRelatedPaths < (baseline.relatedPaths ++ extraRelated).dedup.length then
    return fallbackScope .incompatible .relatedContextOverflow baseline changed
  else do
    let related ← uniquePaths maxRelatedPaths "related paths exceed MAX_RELATED_PATHS"
      (baseline.relatedPaths ++ extraRelated)
    let reviewed ← uniquePaths maxCacheMetadataItems
      "reviewed paths exceed MAX_CACHE_METADATA_ITEMS"
      (baseline.findings.filterMap BaselineFinding.path ++ baseline.reviewedPaths ++ changed ++
        related)
    let candidate : ReviewBaseline :=
      { baseline with
        cacheKey := currentKey
        generation := baseline.generation + 1
        reviewedPaths := reviewed
        relatedPaths := related }
    return if rules.historyFits candidate then
      { status := .verify
        roundKind := .verification
        lateAdmissionRequired := true
        coverageMode := .incremental
        reviewedPaths := reviewed
        relatedPaths := related
        changedPaths := changed
        existingConcerns := baseline.findings.length }
    else fallbackScope .incompatible .relatedContextOverflow baseline changed

/-- `plan_verification_scope` for a baseline that is there and paths that are given. -/
def planVerificationScope (rules : BaselineRules) (policy : ReviewConvergencePolicy)
    (baseline : ReviewBaseline) (currentKey : Option CacheKey)
    (changedPaths relatedPaths confirmedConcerns : List String) (contextComplete : Bool) :
    Except String VerificationScope := do
  let changed ← boundedPaths rules.toAdmissionRules "changed" changedPaths
  let key := currentKey.getD baseline.cacheKey
  if policy.mode.operator = false then do
    let related ← boundedRelatedPaths rules.toAdmissionRules relatedPaths
    return {
      status := .legacyUnscoped
      roundKind := .none
      lateAdmissionRequired := false
      coverageMode := .unscoped
      changedPaths := changed
      relatedPaths := related }
  else match evaluateBaselineCompatibility baseline key policy with
    | some reason => do
      let _ ← boundedPaths rules.toAdmissionRules "related" relatedPaths
      return fallbackScope
        (if reason = .incompleteBaseline ∨ reason = .coverageIncomplete then .incompleteBaseline
          else .incompatible) reason baseline changed
    | none =>
      if contextComplete = false then do
        let _ ← boundedRelatedPaths rules.toAdmissionRules relatedPaths
        confirmedConcerns.forM (fun item =>
          ensure (isSha256 item = true) "confirmed concern must be a SHA-256 digest")
        return fallbackScope .incompleteBaseline .coverageIncomplete baseline changed
      else planCompatible rules baseline key changed relatedPaths confirmedConcerns

inductive Classification
  | continuingConcern
  | rewordedOrMoved
  | verifiedFixed
  | omittedUncertain
  | newRegression
  | substantiatedMissedDefect
  | alreadyReviewedOptional
  | preExisting
  | needsHuman
  | newOnInitialPass
  deriving DecidableEq, Repr

inductive LineageReason
  | none
  | sameConcern
  | rewordedOrMoved
  | fixIntroducedOnChangedPath
  | fixIntroducedOnRelatedPath
  | missedOnAlreadyReviewedPath
  | unattributed
  | ambiguousIdentity
  deriving DecidableEq, Repr

/-- What a later finding is to the baseline. A late finding, and only it, has a late reason, and a
duplicate keeps the identity of a concern. -/
structure LaterFindingClassification where
  fingerprint : String
  classification : Classification
  isLateRelativeToBaseline : Bool
  isDuplicate : Bool
  lateReason : Option LateReason := none
  causalParent : Option String := none
  lineageReason : LineageReason := .none
  attribution : Attribution := .unattributed
  late_reason : lateReason.isSome = isLateRelativeToBaseline
  duplicate_kind : isDuplicate = true → classification ∈
    [Classification.continuingConcern, .rewordedOrMoved, .verifiedFixed, .omittedUncertain]

/-- The one item of a list, or nothing where there are more. -/
inductive Matches (α : Type)
  | absent
  | unique (item : α)
  | ambiguous

def matchesOf {α : Type} : List α → Matches α
  | [] => .absent
  | [item] => .unique item
  | _ => .ambiguous

/-- `_baseline_match_candidates`: two findings of one identity end the search, one of it waits for
the fingerprints and the concerns, and the path with the kind comes last. -/
def baselineMatch (rules : AdmissionRules) (c : CommentFields) (baseline : ReviewBaseline) :
    Matches BaselineFinding :=
  let fingerprint := lifecycleFingerprint rules.lower c
  let key := (c.path, c.symbol.getD "", commentDefectKind c)
  match matchesOf (baseline.findings.filter (fun f => f.identityKey = key)) with
  | .ambiguous => .ambiguous
  | exact =>
    match matchesOf (baseline.findings.filter (fun f => f.fingerprint = fingerprint)) with
    | .unique f => .unique f
    | .ambiguous => .ambiguous
    | .absent =>
      match matchesOf (baseline.findings.filter (fun f => f.concern = some fingerprint)) with
      | .unique f => .unique f
      | .ambiguous => .ambiguous
      | .absent =>
        match exact with
        | .unique f => .unique f
        | _ =>
          if commentDefectKind c = "unknown" then .absent
          else matchesOf (baseline.findings.filter (fun f =>
            f.path = some c.path ∧ f.defectKind = commentDefectKind c))

/-- `match_baseline_finding`. -/
def matchBaselineFinding (rules : AdmissionRules) (c : CommentFields) (baseline : ReviewBaseline) :
    Option BaselineFinding :=
  match baselineMatch rules c baseline with
  | .unique f => some f
  | _ => none

/-- `_shares_lineage_identity`. -/
def sharesLineageIdentity (c : CommentFields) (f : BaselineFinding) : Bool :=
  (c.symbol.isSome && decide (c.symbol = f.symbol)) ||
    (commentDefectKind c != "unknown" && f.defectKind != "unknown" &&
      commentDefectKind c == f.defectKind)

/-- `_causal_parent`. -/
def causalParent (c : CommentFields) (baseline : ReviewBaseline)
    (changed related : List String) : Option (BaselineFinding × LineageReason) :=
  let onChanged := if c.path ∈ changed then
      baseline.findings.find? (fun f => f.blocking && f.path.any (· ∈ changed) &&
        sharesLineageIdentity c f)
    else none
  let onRelated := if c.path ∈ related then
      baseline.findings.find? (fun f => f.blocking &&
        f.path.any (fun p => p ∈ changed ∨ p ∈ related) && sharesLineageIdentity c f)
    else none
  (onChanged.map (fun f => (f, .fixIntroducedOnChangedPath))).or
    (onRelated.map (fun f => (f, .fixIntroducedOnRelatedPath)))

/-- The arguments of `classify_later_finding` beside the comment, the baseline and its scope. -/
structure LaterFacts where
  changedPaths : List String := []
  relatedPaths : List String := []
  evidenceCriterion : Option String := none
  onChangedPath : Bool := false
  isPreferenceOrOptional : Bool := false
  hasContradictoryEvidence : Bool := false
  highSignal : Bool := false

/-- A finding left to a human, with a late reason of its own. -/
def needsHumanClassification (fingerprint : String) (lineage : LineageReason)
    (attribution : Attribution) : LaterFindingClassification where
  fingerprint := fingerprint
  classification := .needsHuman
  isLateRelativeToBaseline := true
  isDuplicate := false
  lateReason := some .humanAdjudication
  lineageReason := lineage
  attribution := attribution
  late_reason := rfl
  duplicate_kind := nofun

def initialClassification (fingerprint : String) (attribution : Attribution) :
    LaterFindingClassification where
  fingerprint := fingerprint
  classification := .newOnInitialPass
  isLateRelativeToBaseline := false
  isDuplicate := false
  attribution := attribution
  late_reason := rfl
  duplicate_kind := nofun

/-- A finding that the baseline has, under the name its confirmation or its identity gives it. -/
def matchedClassification (fingerprint : String) (f : BaselineFinding) (confirmed : Bool)
    (attribution : Attribution) : LaterFindingClassification :=
  let same := decide (f.fingerprint = fingerprint)
  { fingerprint := fingerprint
    classification := if confirmed then .verifiedFixed
      else if same then .continuingConcern else .rewordedOrMoved
    isLateRelativeToBaseline := false
    isDuplicate := true
    causalParent := some f.fingerprint
    lineageReason := if same then .sameConcern else .rewordedOrMoved
    attribution := attribution
    late_reason := rfl
    duplicate_kind := by
      intro _
      cases confirmed <;> cases same <;> decide }

/-- `classify_later_finding` of a finding that the baseline does not have. -/
def classifyUnmatched (fingerprint : String) (c : CommentFields) (baseline : ReviewBaseline)
    (facts : LaterFacts) : LaterFindingClassification :=
  let parent := causalParent c baseline facts.changedPaths facts.relatedPaths
  let alreadyReviewed := decide (c.path ∈ baseline.reviewedPaths)
  if facts.hasContradictoryEvidence then
    needsHumanClassification fingerprint .ambiguousIdentity .unattributed
  else if facts.isPreferenceOrOptional && alreadyReviewed then
    { fingerprint := fingerprint
      classification := .alreadyReviewedOptional
      isLateRelativeToBaseline := true
      isDuplicate := false
      lateReason := some .humanAdjudication
      causalParent := parent.map (fun p => p.1.fingerprint)
      lineageReason := .missedOnAlreadyReviewedPath
      attribution := .alreadyReviewedOptional
      late_reason := rfl
      duplicate_kind := nofun }
  else if !facts.onChangedPath && decide (c.path ∉ facts.changedPaths) &&
      decide (c.path ∉ facts.relatedPaths) && !alreadyReviewed then
    { fingerprint := fingerprint
      classification := .preExisting
      isLateRelativeToBaseline := false
      isDuplicate := false
      lineageReason := .unattributed
      attribution := .preExisting
      late_reason := rfl
      duplicate_kind := nofun }
  else match parent with
    | some (f, lineage) =>
      { fingerprint := fingerprint
        classification := .newRegression
        isLateRelativeToBaseline := true
        isDuplicate := false
        lateReason := some .newRegression
        causalParent := some f.fingerprint
        lineageReason := lineage
        attribution := .fixRegression
        late_reason := rfl
        duplicate_kind := nofun }
    | none =>
      if facts.onChangedPath then needsHumanClassification fingerprint .none .prChange
      else
        { fingerprint := fingerprint
          classification := .substantiatedMissedDefect
          isLateRelativeToBaseline := true
          isDuplicate := false
          lateReason := some .substantiatedMissedDefect
          lineageReason := .missedOnAlreadyReviewedPath
          attribution := .prChange
          late_reason := rfl
          duplicate_kind := nofun }

/-- A new optional observation that a high-signal fallback does not make a human decision. -/
def harmlessOptional (rules : AdmissionRules) (c : ReviewComment) (facts : LaterFacts) : Bool :=
  facts.highSignal && facts.isPreferenceOrOptional && !facts.hasContradictoryEvidence &&
    !c.needsHuman && !Human.blocksApproval rules.toRules c &&
    decide (foldedText rules c.severity ∉ ["high", "critical"])

/-- `classify_later_finding`. -/
def classifyLaterFinding (rules : AdmissionRules) (c : ReviewComment) (baseline : ReviewBaseline)
    (scope : VerificationScope) (facts : LaterFacts) : Except String LaterFindingClassification :=
  let fingerprint := lifecycleFingerprint rules.lower c.toCommentFields
  let pass : Attribution := if facts.onChangedPath then .prChange else .unattributed
  match scope.status with
  | .verify =>
    match baselineMatch rules c.toCommentFields baseline with
    | .ambiguous => .ok (needsHumanClassification fingerprint .ambiguousIdentity .unattributed)
    | .absent => do
      ensure (facts.evidenceCriterion = none)
        "evidence_confirmed requires a matched baseline finding"
      return classifyUnmatched fingerprint c.toCommentFields baseline facts
    | .unique f => do
      ensure (∀ criterion ∈ facts.evidenceCriterion, isSha256 criterion = true)
        "evidence criterion must be a SHA-256 digest"
      ensure (∀ criterion ∈ facts.evidenceCriterion, criterion = f.resolutionCriterion)
        "evidence criterion does not match the baseline"
      return matchedClassification fingerprint f facts.evidenceCriterion.isSome pass
  | .incompatible | .incompleteBaseline =>
    match harmlessOptional rules c facts, baselineMatch rules c.toCommentFields baseline with
    | true, .absent => .ok (initialClassification fingerprint pass)
    | _, _ => .ok (needsHumanClassification fingerprint .ambiguousIdentity pass)
  | .legacyUnscoped | .baselineRequired | .ledgerUntrusted =>
    .ok (initialClassification fingerprint pass)

/-- `candidate_from_later_finding`, as admission calls it. -/
def candidateFromLaterFinding (rules : AdmissionRules) (c : CommentFields)
    (k : LaterFindingClassification) (onChangedPath : Bool) : Except String BlockerCandidate := do
  let candidate ← deriveBlockerCandidate rules c
    { onChangedPath := onChangedPath
      isDuplicate := k.isDuplicate
      isLateRelativeToBaseline := k.isLateRelativeToBaseline
      lateReason := k.lateReason }
  return { candidate with
    attribution := k.attribution
    needsHuman := decide (k.classification = .needsHuman) }

end ReviewSensei.Convergence
