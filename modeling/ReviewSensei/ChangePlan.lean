import ReviewSensei.DiffParser
import ReviewSensei.Coverage
import Mathlib.Data.Char
import Mathlib.Data.List.Lex
import Mathlib.Data.List.Sort

/-! The coverage plan of a change, in one request or packed into bounded chunks. -/
namespace ReviewSensei.Planning
open Diff Coverage
open Session (isPythonSpace stripBy)

/-- What planning reads of the Unicode tables. -/
structure PlanRules extends UnicodeRules where
  /-- `str.lower`. -/
  lower : Text → Text

/-- The aggregate ceilings of one planned change. -/
structure TotalWorkBudget where
  maxTotalDiffBytes : Nat := 8388608
  maxTotalDiffLines : Nat := 400000
  maxTotalFiles : Nat := 4000
  maxTotalHunks : Nat := 40000
  maxChunks : Nat := 8

def TotalWorkBudget.inventory (b : TotalWorkBudget) : Inventory where
  maxBytes := some b.maxTotalDiffBytes
  maxLines := some b.maxTotalDiffLines
  maxFiles := some b.maxTotalFiles
  maxHunks := some b.maxTotalHunks

def ends (tail : String) (t : Text) : Bool := tail.toList.isSuffixOf t

def npmLockfileNames : List String := ["package-lock.json", "npm-shrinkwrap.json"]

def otherLockfileNames : List String :=
  ["pnpm-lock.yaml", "yarn.lock", "cargo.lock", "poetry.lock", "composer.lock", "go.sum",
    "gemfile.lock"]

inductive LockfileKind
  | npm
  | unsupported
  deriving DecidableEq

variable (rules : PlanRules)

def lockfileKind (path : Path) : Option LockfileKind :=
  let name := rules.lower ((path.splitOn '/').getLastD [])
  if name ∈ npmLockfileNames.map text then some .npm
  else if name ∈ otherLockfileNames.map text then some .unsupported
  else none

def generatedSuffixes : List String := [".min.js", ".min.css", ".min.map", ".map"]

def generatedDirectories : List String := ["dist", "vendor", "node_modules", "generated"]

def isGeneratedPath (path : Path) : Bool :=
  let lowered := rules.lower path
  generatedSuffixes.any (fun suffix => ends suffix lowered) ||
    generatedDirectories.any (fun directory =>
      decide (lowered = text directory) || starts (directory ++ "/") lowered)

structure ReviewChunk where
  index : Nat
  diff : Text
  paths : List Path
  relatedPaths : List Path := []
  hunkIndexes : List Nat := []
  deriving DecidableEq

/-- The records together fit one request. -/
def fits (limits : ReviewLimits) (records : List DiffFileRecord) (candidate : DiffFileRecord) :
    Bool :=
  let combined := records ++ [candidate]
  decide (utf8Size (combined.flatMap DiffFileRecord.text) ≤ limits.maxDiffBytes) &&
    decide ((combined.map (fun r => r.text.count '\n')).sum ≤ limits.maxDiffLines) &&
    decide (((combined.flatMap DiffFileRecord.coveragePaths).foldl insertNew []).length ≤
      limits.maxDiffFiles) &&
    decide ((combined.map (fun r => r.hunks.length)).sum ≤ limits.maxDiffHunks)

def hunkRecord (r : DiffFileRecord) (hunk : DiffHunk) : DiffFileRecord where
  oldPath := r.oldPath
  newPath := r.newPath
  text := r.header ++ hunk.text
  header := r.header
  addedLines := hunk.addedLines
  deletedLines := hunk.deletedLines
  hunks := [hunk]
  binary := false

def sliceRecord (r : DiffFileRecord) (hunks : List DiffHunk) : DiffFileRecord where
  oldPath := r.oldPath
  newPath := r.newPath
  text := r.header ++ hunks.flatMap DiffHunk.text
  header := r.header
  addedLines := hunks.foldl (fun lines h => lines ∪ h.addedLines) ∅
  deletedLines := hunks.foldl (fun lines h => lines ∪ h.deletedLines) ∅
  hunks := hunks
  binary := false

/-- Hunks neither repeat nor overlap the ones before them. -/
def orderedHunks : Nat → Nat → List DiffHunk → Bool
  | _, _, [] => true
  | oldEnd, newEnd, h :: rest =>
    let oldShift := if h.oldCount = 0 then 0 else 1
    let newShift := if h.newCount = 0 then 0 else 1
    decide (oldEnd ≤ h.oldStart - oldShift) && decide (newEnd ≤ h.newStart - newShift) &&
      orderedHunks (h.oldStart + h.oldCount - oldShift) (h.newStart + h.newCount - newShift) rest

def defaultWorkBudget : TotalWorkBudget := {}

/-- `EvidenceRecord.complete` of a record that is not binary. -/
def completePatch (path : Path) (patch : Text) : Bool :=
  match analyzeDiff rules.toUnicodeRules {} true defaultWorkBudget.inventory patch with
  | .error _ => false
  | .ok analysis =>
    decide (stripBy isPythonSpace patch ≠ []) &&
      orderedHunks 0 0 analysis.hunkRecords && analysis.enumerationComplete &&
      decide (analysis.fileRecords.length = 1) && decide (path ∈ analysis.changedPaths) &&
      decide (analysis.binaryPaths = [])

/-- `EvidenceRecord.from_diff_record(record, EvidenceSnapshot()).complete`. -/
def completeEvidence (r : DiffFileRecord) : Except String Bool :=
  match r.canonicalPath with
  | none => .error "canonical evidence path is missing"
  | some path => do
    validateRepositoryPath rules.toUnicodeRules "evidence path" true path
    r.oldPath.toList.forM (validateRepositoryPath rules.toUnicodeRules "evidence old path" true)
    if defaultWorkBudget.maxTotalDiffBytes < utf8Size r.text then
      .error "evidence patch exceeds the configured size limit"
    else if r.text = [] then .error "evidence canonical diff must be non-empty"
    else return completePatch rules path r.text

inductive Classification
  | reviewable
  | unreviewable (outcome : Outcome)
  deriving DecidableEq

/-- What a record's paths are set to before anything is packed. -/
def Classification.outcome : Classification → Outcome
  | .reviewable => (.reviewed, none)
  | .unreviewable outcome => outcome

def classifyComplete (limits : ReviewLimits) (r : DiffFileRecord) : Classification :=
  if r.coveragePaths.any (fun path => decide (lockfileKind rules path = some .unsupported)) then
    .unreviewable (.unsupported, some .lockfileFormat)
  else if r.coveragePaths.any (fun path => decide (lockfileKind rules path = some .npm)) then
    .reviewable
  else if r.coveragePaths.any (isGeneratedPath rules) then
    .unreviewable (.excludedByPolicy, some .generated)
  else if r.hunks = [] ∧ limits.maxDiffBytes < utf8Size r.text then
    .unreviewable (.unsupported, some .tooLargeFile)
  else .reviewable

def classifyFile (binaryPaths : List Path) (limits : ReviewLimits) (r : DiffFileRecord) :
    Except String Classification :=
  if r.binary || r.coveragePaths.any (fun path => decide (path ∈ binaryPaths)) then
    .ok (.unreviewable (.unsupported, some .binary))
  else do
    let complete ← completeEvidence rules r
    if complete then return classifyComplete rules limits r
    else return .unreviewable (.unsupported, some .incompleteEnumeration)

def maxRelatedPaths : Nat := 64

def parentDirectory (path : Path) : Path :=
  if '/' ∈ path then ((path.reverse.dropWhile (· ≠ '/')).drop 1).reverse else []

def relatedPaths (path : Path) (changed : List Path) : List Path :=
  (changed.filter (fun candidate =>
    decide (candidate ≠ path) &&
      decide (parentDirectory candidate = parentDirectory path))).take maxRelatedPaths

/-- The siblings of the chunk's paths; the loop's early exits change nothing below the bound. -/
def chunkRelatedPaths (paths changed : List Path) : List Path :=
  (((paths.flatMap (fun path => relatedPaths path changed)).filter
    (fun candidate => decide (candidate ∉ paths))).foldl insertNew []).take maxRelatedPaths

def chunkFromRecords (index : Nat) (records : List DiffFileRecord) (changed : List Path) :
    ReviewChunk :=
  let paths := (records.flatMap DiffFileRecord.coveragePaths).foldl insertNew []
  { index := index
    diff := records.flatMap DiffFileRecord.text
    paths := paths
    relatedPaths := chunkRelatedPaths paths changed
    hunkIndexes := records.flatMap DiffFileRecord.hunkIndexes }

/-- The variables of `_pack_records`. -/
structure Packing where
  chunks : List ReviewChunk := []
  current : List DiffFileRecord := []
  overflow : List DiffFileRecord := []
  overflowReason : Option CoverageReason := none
  exhausted : Bool := false

section packing
variable (limits : ReviewLimits) (maxChunks : Nat) (changed : List Path)

def flush (k : Packing) : Packing :=
  if k.current = [] then k
  else if maxChunks ≤ k.chunks.length then
    { k with
      overflowReason := k.overflowReason.or (some .providerCallBudget)
      overflow := k.overflow ++ k.current
      current := []
      exhausted := true }
  else
    { k with
      chunks := k.chunks ++ [chunkFromRecords (k.chunks.length + 1) k.current changed]
      current := [] }

def makeRoom (k : Packing) (piece : DiffFileRecord) : Packing :=
  if k.current ≠ [] ∧ fits limits k.current piece = false then flush maxChunks changed k else k

/-- The pieces of one record; where the chunks are used up the loop ends at that piece. -/
def packPieces : List DiffFileRecord → Packing → Packing
  | [], k => k
  | piece :: rest, k =>
    let k := makeRoom limits maxChunks changed k piece
    if maxChunks ≤ k.chunks.length then
      { k with
        overflowReason := some .providerCallBudget
        overflow := k.overflow ++ [piece]
        exhausted := true }
    else packPieces rest { k with current := k.current ++ [piece] }

/-- The pieces a record is packed in: itself, or its hunks one by one if each of them fits. -/
def piecesOf (r : DiffFileRecord) : Option (List DiffFileRecord) :=
  if fits limits [] r then some [r]
  else if r.hunks ≠ [] ∧ r.binary = false then
    let pieces := r.hunks.map (hunkRecord r)
    if pieces.any (fun piece => !fits limits [] piece) then none else some pieces
  else none

def packRecord (k : Packing) (r : DiffFileRecord) : Packing :=
  if k.exhausted then { k with overflow := k.overflow ++ [r] }
  else
    match piecesOf limits r with
    | none => { k with overflow := k.overflow ++ [r] }
    | some pieces => packPieces limits maxChunks changed pieces k

def packRecords (records : List DiffFileRecord) : Packing :=
  flush maxChunks changed (records.foldl (packRecord limits maxChunks changed) {})

end packing

/-- A previous result as far as planning reads it. -/
structure PriorResult where
  isPartial : Bool
  coverage : Option (CoverageManifest rules.toUnicodeRules)

variable {rules}

def hunksDone (hunks : List Nat) (r : DiffFileRecord) : Bool :=
  r.hunks.all (fun h => decide (h.index ∈ hunks))

def pathsDone (files : List Path) (r : DiffFileRecord) : Bool :=
  decide (r.coveragePaths ≠ []) && r.coveragePaths.all (fun path => decide (path ∈ files))

/-- Files and hunks that are reviewed already. -/
structure PriorCoverage where
  files : List Path := []
  hunks : List Nat := []
  deriving DecidableEq

/-- Some reviewable record is not wholly covered. -/
def hasUnreviewed (rules : PlanRules) (binaryPaths : List Path) (limits : ReviewLimits) (prior : PriorCoverage) :
    List DiffFileRecord → Except String Bool
  | [] => .ok false
  | r :: rest => do
    let c ← classifyFile rules binaryPaths limits r
    if c = .reviewable ∧ (pathsDone prior.files r && hunksDone prior.hunks r) = false then
      return true
    else hasUnreviewed rules binaryPaths limits prior rest

/-- The reviewed entries of a manifest that the analysis knows. -/
def reviewedEntries (analysis : DiffAnalysis) (m : ManifestFields) : PriorCoverage :=
  let validHunks := analysis.fileRecords.flatMap DiffFileRecord.hunkIndexes
  { files := (m.files.filter (fun entry =>
      decide (entry.outcome = .reviewed) && decide (entry.path ∈ analysis.changedPaths))).map
        FileCoverage.path
    hunks := (m.hunks.filter (fun entry =>
      decide (entry.outcome = .reviewed) &&
        (decide (validHunks = []) || decide (entry.index ∈ validHunks)))).map
        HunkCoverage.index }

def samePaths (xs ys : List Path) : Bool :=
  xs.all (fun x => decide (x ∈ ys)) && ys.all (fun y => decide (y ∈ xs))

def extractPriorReviewedCoverage (analysis : DiffAnalysis) (limits : ReviewLimits)
    (prior : Option (PriorResult rules)) : Except String PriorCoverage :=
  match prior.bind (fun r => if r.isPartial then r.coverage else none) with
  | none => .ok {}
  | some coverage =>
    if !coverage.enumerationComplete then .ok {}
    else if !samePaths coverage.enumeratedPaths analysis.changedPaths then
      .error "prior partial review coverage paths do not match current diff"
    else
      let reviewed := reviewedEntries analysis coverage.toManifestFields
      if reviewed.files = [] ∧ reviewed.hunks = [] then .ok {}
      else do
        let unreviewed ← hasUnreviewed rules analysis.binaryPaths limits reviewed
          analysis.fileRecords
        return if unreviewed then reviewed else {}

def setAll {κ : Type} [DecidableEq κ] (d : Dict κ Outcome) (keys : List κ) (o : Outcome) :
    Dict κ Outcome :=
  keys.foldl (fun d k => d.set k o) d

/-- The variables of the classification pass. -/
structure Sorting where
  fileOutcomes : Dict Path Outcome := []
  hunkOutcomes : Dict Nat Outcome := []
  reviewable : List DiffFileRecord := []

def reviewedOutcome : Outcome := (.reviewed, none)

/-- A reviewable record less what the prior coverage holds of it. -/
def reusePrior (prior : PriorCoverage) (k : Sorting) (r : DiffFileRecord) : Sorting :=
  if prior = {} then { k with reviewable := k.reviewable ++ [r] }
  else if pathsDone prior.files r && hunksDone prior.hunks r then
    { k with hunkOutcomes := setAll k.hunkOutcomes r.hunkIndexes reviewedOutcome }
  else
    let remaining := r.hunks.filter (fun h => decide (h.index ∉ prior.hunks))
    if remaining.length < r.hunks.length then
      { k with
        hunkOutcomes := setAll k.hunkOutcomes
          (r.hunkIndexes.filter (fun i => decide (i ∈ prior.hunks))) reviewedOutcome
        reviewable := k.reviewable ++ [sliceRecord r remaining] }
    else { k with reviewable := k.reviewable ++ [r] }

def sortRecord (rules : PlanRules) (binaryPaths : List Path) (limits : ReviewLimits) (prior : PriorCoverage)
    (k : Sorting) (r : DiffFileRecord) : Except String Sorting := do
  let c ← classifyFile rules binaryPaths limits r
  let k := { k with fileOutcomes := setAll k.fileOutcomes r.coveragePaths c.outcome }
  match c with
  | .unreviewable o =>
    return { k with hunkOutcomes := setAll k.hunkOutcomes r.hunkIndexes o }
  | .reviewable => return reusePrior prior k r

def sortRecords (rules : PlanRules) (binaryPaths : List Path) (limits : ReviewLimits) (prior : PriorCoverage) :
    List DiffFileRecord → Sorting → Except String Sorting
  | [], k => .ok k
  | r :: rest, k => do
    let k ← sortRecord rules binaryPaths limits prior k r
    sortRecords rules binaryPaths limits prior rest k

/-- The two outcome maps the later passes write. -/
structure Outcomes where
  files : Dict Path Outcome
  hunks : Dict Nat Outcome

def overflowReasonFor (reason : Option CoverageReason) (r : DiffFileRecord) : CoverageReason :=
  reason.getD (if r.hunks = [] then .tooLargeFile else .tooLargeHunk)

def overflowOutcome (reason : Option CoverageReason) : CoverageOutcome :=
  if reason = some .providerCallBudget then .budgetExhausted else .unsupported

/-- A path of an overflowing record: partly reviewed if some chunk holds it too. -/
def overflowFile (reason : Option CoverageReason) (packedPaths : List Path) (r : DiffFileRecord)
    (d : Dict Path Outcome) (path : Path) : Dict Path Outcome :=
  if path ∈ packedPaths then d.set path (.partiallyReviewed, some (overflowReasonFor reason r))
  else d.set path (overflowOutcome reason, some (overflowReasonFor reason r))

def overflowRecord (reason : Option CoverageReason) (packedPaths : List Path)
    (packedHunks : List Nat) (k : Outcomes) (r : DiffFileRecord) : Outcomes where
  files := r.coveragePaths.foldl (overflowFile reason packedPaths r) k.files
  hunks := setAll k.hunks (r.hunkIndexes.filter (fun i => decide (i ∉ packedHunks)))
    (overflowOutcome reason, some (overflowReasonFor reason r))

def packedRecord (packedPaths overflowPaths : List Path) (packedHunks : List Nat) (k : Outcomes)
    (r : DiffFileRecord) : Outcomes where
  files := setAll k.files
    (r.coveragePaths.filter (fun path =>
      decide (path ∈ packedPaths) && decide (path ∉ overflowPaths))) reviewedOutcome
  hunks := setAll k.hunks (r.hunkIndexes.filter (fun i => decide (i ∈ packedHunks))) reviewedOutcome

def incompleteOutcome : Outcome := (.unsupported, some .incompleteEnumeration)

def hunkState (hunks : Dict Nat Outcome) (h : DiffHunk) : CoverageOutcome :=
  ((hunks.get? h.index).getD incompleteOutcome).1

def reconcilePath (hunkRecords : List DiffHunk) (hunks : Dict Nat Outcome)
    (files : Dict Path Outcome) (path : Path) : Dict Path Outcome :=
  let states := (hunkRecords.filter (fun h => decide (h.path = some path))).map
    (hunkState hunks)
  if states = [] then files
  else if states.any (· = .reviewed) && states.any (· ≠ .reviewed) then
    files.set path (.partiallyReviewed, (files.get? path).bind Prod.snd)
  else if states.all (· = .reviewed) then files.set path reviewedOutcome
  else files

def reconcileFileOutcomesFromHunks (analysis : DiffAnalysis) (k : Outcomes) : Outcomes :=
  { k with
    files := analysis.changedPaths.foldl (reconcilePath analysis.hunkRecords k.hunks) k.files }

/-- The outcome passes of an orchestrated plan. -/
def orchestratedOutcomes (analysis : DiffAnalysis) (packing : Packing) (sorting : Sorting) :
    Outcomes :=
  let packedPaths := packing.chunks.flatMap ReviewChunk.paths
  let packedHunks := packing.chunks.flatMap ReviewChunk.hunkIndexes
  let overflowPaths := packing.overflow.flatMap DiffFileRecord.coveragePaths
  let k := packing.overflow.foldl (overflowRecord packing.overflowReason packedPaths packedHunks)
    ⟨sorting.fileOutcomes, sorting.hunkOutcomes⟩
  reconcileFileOutcomesFromHunks analysis
    (sorting.reviewable.foldl (packedRecord packedPaths overflowPaths packedHunks) k)

def singleHunk (files : Dict Path Outcome) (hunks : Dict Nat Outcome) (h : DiffHunk) :
    Dict Nat Outcome :=
  match h.path.bind files.get? with
  | some (.reviewed, _) => hunks.set h.index reviewedOutcome
  | _ => hunks

/-- The outcome pass of a plan of one request. -/
def singleOutcomes (analysis : DiffAnalysis) (sorting : Sorting) : Outcomes where
  files := sorting.fileOutcomes
  hunks := analysis.hunkRecords.foldl (singleHunk sorting.fileOutcomes) sorting.hunkOutcomes

def singleChunk (diff : Text) (analysis : DiffAnalysis) : ReviewChunk where
  index := 1
  diff := if ends "\n" diff then diff else diff ++ text "\n"
  paths := analysis.changedPaths
  hunkIndexes := analysis.hunkRecords.map DiffHunk.index

/-- Why an incomplete enumeration cannot go in one request. -/
def incompleteError (limits : ReviewLimits) (analysis : DiffAnalysis) : String :=
  if limits.maxDiffBytes < analysis.diffBytes then "diff exceeds the configured byte limit"
  else if limits.maxDiffLines < analysis.diffLines then "diff exceeds the configured line limit"
  else if limits.maxDiffFiles < analysis.diffFiles then "diff contains too many files"
  else if limits.maxDiffHunks < analysis.diffHunks then "diff contains too many hunks"
  else "diff exceeds the configured byte limit"

def defaultOutcome (analysis : DiffAnalysis) : Outcome :=
  (if analysis.enumerationComplete then .unsupported else .budgetExhausted,
    some .incompleteEnumeration)

def fillDefaults (analysis : DiffAnalysis) (files : Dict Path Outcome) : Dict Path Outcome :=
  analysis.changedPaths.foldl (fun d path => d.setDefault path (defaultOutcome analysis)) files

/-- The enumerated path a hunk is reported under, its new path first. -/
def coveredPath (enumerated : List Path) (h : DiffHunk) : Option Path :=
  (h.newPath.toList ++ h.oldPath.toList).find? (fun path => decide (path ∈ enumerated))

/-- A hunk without an outcome of its own takes its file's, unless that says reviewed. -/
def hunkOutcome (k : Outcomes) (h : DiffHunk) (path : Path) : Outcome :=
  match k.hunks.get? h.index with
  | some o => o
  | none =>
    match k.files.get? path with
    | some (.reviewed, _) => incompleteOutcome
    | some o => o
    | none => incompleteOutcome

def hunkCoverage (enumerated : List Path) (k : Outcomes) (h : DiffHunk) : Option HunkCoverage :=
  (coveredPath enumerated h).map (fun path =>
    { index := h.index
      path := path
      outcome := (hunkOutcome k h path).1
      reason := (hunkOutcome k h path).2 })

def coverageFields (analysis : DiffAnalysis) (k : Outcomes) : ManifestFields where
  files := (k.files.insertionSort (fun a b => a.1 ≤ b.1)).map (fun p => ⟨p.1, p.2.1, p.2.2⟩)
  hunks := analysis.hunkRecords.filterMap (hunkCoverage analysis.changedPaths k)
  enumerationComplete := analysis.enumerationComplete && samePaths analysis.changedPaths k.files.keys
  enumeratedPaths := analysis.changedPaths

variable (rules)

structure LargeChangePlan where
  analysis : DiffAnalysis
  coverage : CoverageManifest rules.toUnicodeRules
  chunks : List ReviewChunk
  orchestrated : Bool

def analyzeForPlan (limits : ReviewLimits) (budget : TotalWorkBudget) (orchestrate : Bool)
    (diff : Text) : Except String DiffAnalysis :=
  if orchestrate then analyzeDiff rules.toUnicodeRules limits true budget.inventory diff
  else analyzeDiff rules.toUnicodeRules limits false {} diff

variable {rules}

def priorFor (limits : ReviewLimits) (orchestrate : Bool) (analysis : DiffAnalysis)
    (prior : Option (PriorResult rules)) : Except String PriorCoverage :=
  if orchestrate then extractPriorReviewedCoverage analysis limits prior else .ok {}

/-- Chunks and outcomes, before the defaults are filled in. -/
def planOutcomes (limits : ReviewLimits) (budget : TotalWorkBudget) (orchestrate : Bool)
    (diff : Text) (analysis : DiffAnalysis) (sorting : Sorting) :
    Except String (List ReviewChunk × Outcomes) :=
  if orchestrate then
    let packing := packRecords limits budget.maxChunks analysis.changedPaths sorting.reviewable
    .ok (packing.chunks, orchestratedOutcomes analysis packing sorting)
  else if !analysis.enumerationComplete then .error (incompleteError limits analysis)
  else .ok ([singleChunk diff analysis], singleOutcomes analysis sorting)

def planChange (limits : ReviewLimits) (budget : TotalWorkBudget) (orchestrate : Bool)
    (prior : Option (PriorResult rules)) (diff : Text) :
    Except String (LargeChangePlan rules) := do
  let analysis ← analyzeForPlan rules limits budget orchestrate diff
  let reused ← priorFor limits orchestrate analysis prior
  if analysis.fileRecords = [] ∧ analysis.changedPaths ≠ [] then
    .error "diff file records are incomplete"
  else do
    let sorting ← sortRecords rules analysis.binaryPaths limits reused
      analysis.fileRecords {}
    let (chunks, k) ← planOutcomes limits budget orchestrate diff analysis sorting
    let k := { k with files := fillDefaults analysis k.files }
    let coverage ← CoverageManifest.construct rules.toUnicodeRules (coverageFields analysis k)
    return ⟨analysis, coverage, chunks, orchestrate⟩

end ReviewSensei.Planning
