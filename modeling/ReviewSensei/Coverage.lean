import ReviewSensei.DiffPaths
import ReviewSensei.SessionSteps

/-! Per-file and per-hunk review coverage. -/
namespace ReviewSensei.Coverage
open Diff (Path UnicodeRules validateRepositoryPath)

inductive CoverageOutcome
  | reviewed
  | partiallyReviewed
  | excludedByPolicy
  | unsupported
  | budgetExhausted
  deriving DecidableEq

inductive CoverageReason
  | binary
  | generated
  | lockfileFormat
  | noReviewStage
  | tooLargeHunk
  | tooLargeFile
  | chunkFailed
  | chunkPreflightFailed
  | providerCallBudget
  | incompleteEnumeration
  | crossFileRelationship
  | deleted
  | renamed
  deriving DecidableEq

/-- An outcome with its reason. -/
abbrev Outcome := CoverageOutcome × Option CoverageReason

structure FileCoverage where
  path : Path
  outcome : CoverageOutcome
  reason : Option CoverageReason := none
  deriving DecidableEq

structure HunkCoverage where
  index : Nat
  path : Path
  outcome : CoverageOutcome
  reason : Option CoverageReason := none
  deriving DecidableEq

/-- A manifest before its checks. -/
structure ManifestFields where
  files : List FileCoverage
  hunks : List HunkCoverage := []
  enumerationComplete : Bool := true
  enumeratedPaths : List Path := []
  deriving DecidableEq

def maxCoverageEntries : Nat := 4000
def maxCoverageHunks : Nat := 40000

namespace ManifestFields

def filePaths (m : ManifestFields) : List Path := m.files.map FileCoverage.path

def hunkPaths (m : ManifestFields) : List Path := m.hunks.map HunkCoverage.path

variable (rules : UnicodeRules)

def checkEntries (m : ManifestFields) : Except String Unit := do
  m.files.forM (fun entry => validateRepositoryPath rules "coverage path" true entry.path)
  m.hunks.forM (fun entry =>
    if entry.index < 1 then .error "coverage hunk index must be a positive integer"
    else validateRepositoryPath rules "coverage hunk path" true entry.path)

/-- The outcomes against the enumerated paths. -/
def checkEnumerated (m : ManifestFields) : Except String Unit :=
  if m.enumeratedPaths = [] then
    if m.files = [] ∧ m.hunks = [] then .ok ()
    else .error "coverage enumerated_paths is required when outcomes are present"
  else if ¬ m.enumeratedPaths.Nodup then .error "coverage enumerated_paths must be unique"
  else if ¬ ∀ q ∈ m.filePaths, q ∈ m.enumeratedPaths then
    .error "coverage files contain paths outside the enumerated set"
  else if ¬ ∀ q ∈ m.hunkPaths, q ∈ m.enumeratedPaths then
    .error "coverage hunks contain paths outside the enumerated set"
  else if m.enumerationComplete ∧ ¬ ∀ q ∈ m.enumeratedPaths, q ∈ m.filePaths then
    .error "coverage enumeration_complete requires every enumerated path"
  else .ok ()

def checkCounts (m : ManifestFields) : Except String Unit :=
  if maxCoverageEntries < m.files.length then .error "coverage contains too many files"
  else if maxCoverageHunks < m.hunks.length then .error "coverage contains too many hunks"
  else if ¬ m.filePaths.Nodup then .error "coverage files must be unique"
  else if ¬ (m.hunks.map (fun entry => (entry.index, entry.path))).Nodup then
    .error "coverage hunks must be unique"
  else if m.enumerationComplete ∧ m.files = [] then
    .error "coverage enumeration_complete requires file outcomes"
  else .ok ()

/-- The checks of the entries' and the manifest's `__post_init__`; with typed outcomes they imply
the public schema. -/
def check (m : ManifestFields) : Except String Unit := do
  m.checkEntries rules
  m.checkCounts
  m.checkEnumerated

theorem check_ok {m : ManifestFields} {rules : UnicodeRules} (h : m.check rules = .ok ()) :
    m.filePaths.Nodup ∧ m.checkEnumerated = .ok () := by
  obtain ⟨_, _, h⟩ := Session.bind_ok h
  obtain ⟨_, hcounts, h⟩ := Session.bind_ok h
  refine ⟨?_, h⟩
  unfold checkCounts at hcounts
  split at hcounts
  · cases hcounts
  split at hcounts
  · cases hcounts
  split at hcounts
  · cases hcounts
  next hnodup => exact not_not.mp hnodup

end ManifestFields

structure CoverageManifest (rules : UnicodeRules) extends ManifestFields where
  accepted : toManifestFields.check rules = .ok ()

namespace CoverageManifest
variable {rules : UnicodeRules}

def construct (rules : UnicodeRules) (m : ManifestFields) :
    Except String (CoverageManifest rules) :=
  match h : m.check rules with
  | .ok () => .ok ⟨m, h⟩
  | .error e => .error e

theorem construct_ok {m : ManifestFields} {manifest : CoverageManifest rules}
    (h : construct rules m = .ok manifest) : manifest.toManifestFields = m := by
  unfold construct at h
  split at h
  · obtain rfl := Except.ok.inj h
    rfl
  · cases h

def fullyReviewed (m : CoverageManifest rules) : Bool :=
  m.enumerationComplete && !m.files.isEmpty &&
    m.files.all (fun entry => decide (entry.outcome = .reviewed)) &&
    m.hunks.all (fun entry => decide (entry.outcome = .reviewed))

theorem fullyReviewed_iff (m : CoverageManifest rules) :
    m.fullyReviewed = true ↔ m.enumerationComplete = true ∧ m.files ≠ [] ∧
      (∀ entry ∈ m.files, entry.outcome = .reviewed) ∧
      ∀ entry ∈ m.hunks, entry.outcome = .reviewed := by
  simp [fullyReviewed, and_assoc]

inductive ApprovalState
  | reviewed
  | partialReview
  | incomplete
  deriving DecidableEq

def approvalState (m : CoverageManifest rules) : ApprovalState :=
  if !m.enumerationComplete then .incomplete
  else if m.fullyReviewed then .reviewed
  else .partialReview

end CoverageManifest
end ReviewSensei.Coverage
