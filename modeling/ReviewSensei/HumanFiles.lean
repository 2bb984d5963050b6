import Mathlib.Data.Char
import Mathlib.Data.List.Lex
import ReviewSensei.Coverage
import ReviewSensei.HumanInventory

/-! Requests for human review of files that the analysis left out. -/
namespace ReviewSensei.HumanFiles
open Session (isSha256 isGitSha)
open Sha256 (encode)
open Diff (Path UnicodeRules validateRepositoryPath)
open Coverage (CoverageManifest ManifestFields FileCoverage HunkCoverage)

def maxFiles : Nat := 32
def maxDocumentBytes : Nat := 32 * 1024

/-- `canonical`, which `evidence_digest` hashes. -/
def canonical (value : Json) : String := String.ofList (value.sortKeys.chars false)

def evidenceDigest (value : Json) : String := sha256 (canonical value)

inductive Change
  | added
  | modified
  | removed
  | renamed
  deriving DecidableEq, Repr

/-- The error of blobs that do not fit a change. -/
def Change.blobMessage : Change → String
  | .added => "human added file evidence is invalid"
  | .removed => "human deleted file evidence is invalid"
  | .modified | .renamed => "human changed file evidence is missing"

def Change.text : Change → String
  | .added => "added"
  | .modified => "modified"
  | .removed => "removed"
  | .renamed => "renamed"

/-- One exact change of a regular blob before its checks. -/
structure FileFields where
  path : Path
  change : Change
  oldBlob : Option String := none
  newBlob : Option String := none
  oldPath : Option Path := none
  oldMode : Option String := none
  newMode : Option String := none
  deriving DecidableEq

namespace FileFields

/-- A mode belongs to a blob. -/
def modeFits (mode blob : Option String) : Prop :=
  ∀ m ∈ mode, (m = "100644" ∨ m = "100755") ∧ blob.isSome = true

instance (mode blob : Option String) : Decidable (modeFits mode blob) :=
  inferInstanceAs (Decidable (∀ m ∈ mode, _))

/-- What a change says of its old and its new blob. -/
def blobsFit (f : FileFields) : Prop :=
  match f.change with
  | .added => f.oldBlob = none ∧ f.newBlob.isSome = true
  | .removed => f.oldBlob.isSome = true ∧ f.newBlob = none
  | .modified | .renamed => f.oldBlob.isSome = true ∧ f.newBlob.isSome = true

instance (f : FileFields) : Decidable f.blobsFit := by
  unfold blobsFit
  split <;> infer_instance

/-- The previous path of a renamed file. -/
def checkOldPath (rules : UnicodeRules) (f : FileFields) : Except String Unit :=
  if f.change = .renamed then
    match f.oldPath with
    | none => .error "human renamed file evidence is invalid"
    | some old =>
      if old = f.path then .error "human renamed file evidence is invalid"
      else validateRepositoryPath rules "human previous path" true old
  else ensure (f.oldPath = none) "human file previous path is unexpected"

/-- `UnsupportedFile.__post_init__`. -/
def check (rules : UnicodeRules) (f : FileFields) : Except String Unit := do
  validateRepositoryPath rules "human file path" true f.path
  ensure ((∀ blob ∈ f.oldBlob, isGitSha blob = true) ∧ ∀ blob ∈ f.newBlob, isGitSha blob = true)
    "human file blob identity is invalid"
  ensure (modeFits f.oldMode f.oldBlob ∧ modeFits f.newMode f.newBlob) "human file mode is invalid"
  ensure f.blobsFit f.change.blobMessage
  f.checkOldPath rules

/-- The paths of the old and of the new file. -/
def paths (f : FileFields) : List Path := f.oldPath.toList ++ [f.path]

def optionalText : Option String → Json
  | none => .null
  | some s => .str s

def toDictFields (f : FileFields) : List (String × Json) :=
  [("path", .str (String.ofList f.path)), ("change", .str f.change.text),
    ("old_blob", optionalText f.oldBlob), ("new_blob", optionalText f.newBlob),
    ("old_path", optionalText (f.oldPath.map String.ofList)), ("old_mode", optionalText f.oldMode),
    ("new_mode", optionalText f.newMode)]

def fileId (f : FileFields) : String :=
  evidenceDigest (.obj (("domain", .str "reviewsensei:unsupported-file:v1") :: f.toDictFields))

end FileFields

structure UnsupportedFile (rules : UnicodeRules) extends FileFields where
  accepted : toFileFields.check rules = .ok ()

instance (rules : UnicodeRules) : DecidableEq (UnsupportedFile rules) := fun f g =>
  decidable_of_iff (f.toFileFields = g.toFileFields) (by cases f; cases g; simp)

/-- The review a request belongs to. -/
structure Snapshot where
  repository : String
  repositoryId : Int
  pullRequest : Int
  baseSha : String
  headSha : String
  reviewId : Int
  resultDigest : String
  deriving DecidableEq

/-- `[A-Za-z0-9_.-]+/[A-Za-z0-9_.-]+`, with neither part a dot segment. -/
def isRepository (s : String) : Bool :=
  match (encode s).splitOn 0x2f with
  | [owner, name] =>
    [owner, name].all (fun part => part ≠ [] && part ≠ [0x2e] && part ≠ [0x2e, 0x2e] &&
      part.all (fun b => Session.isAsciiAlnum b || b == 0x5f || b == 0x2e || b == 0x2d))
  | _ => false

def Snapshot.valid (s : Snapshot) : Prop :=
  isRepository s.repository = true ∧ 0 < s.repositoryId ∧ 0 < s.pullRequest ∧ 0 < s.reviewId ∧
    isGitSha s.baseSha = true ∧ isGitSha s.headSha = true ∧ isSha256 s.resultDigest = true

instance (s : Snapshot) : Decidable s.valid := inferInstanceAs (Decidable (_ ∧ _))

section Requests
variable {rules : UnicodeRules}

/-- `FileReviewRequest.to_dict`. -/
def partDict (s : Snapshot) (files : List (UnsupportedFile rules)) : Json :=
  .obj [("schema_version", .str "human-file-review-v1"), ("repository", .str s.repository),
    ("repository_id", .int s.repositoryId), ("pull_request", .int s.pullRequest),
    ("base_sha", .str s.baseSha), ("head_sha", .str s.headSha), ("review_id", .int s.reviewId),
    ("result_digest", .str s.resultDigest),
    ("files", .arr (files.map (fun f => .obj f.toDictFields)))]

/-- No path of the files stands twice. -/
def distinctPaths (files : List (UnsupportedFile rules)) : Prop :=
  (files.flatMap (fun f => f.paths)).Nodup

instance (files : List (UnsupportedFile rules)) : Decidable (distinctPaths files) :=
  inferInstanceAs (Decidable (List.Nodup _))

/-- `FileReviewRequest.__post_init__`. -/
def checkPart (s : Snapshot) (files : List (UnsupportedFile rules)) : Except String Unit := do
  ensure s.valid "human file review snapshot is invalid"
  ensure (1 ≤ files.length ∧ files.length ≤ maxFiles ∧ (files.map (fun f => f.fileId)).Nodup)
    "human file inventory is invalid or exceeds the bound"
  ensure (distinctPaths files) "human file inventory paths conflict"
  ensure ((encode (canonical (partDict s files))).length ≤ maxDocumentBytes)
    "human file inventory exceeds the document bound"

def pieces (files : List (UnsupportedFile rules)) : List (List (UnsupportedFile rules)) :=
  Evidence.chunks maxFiles files

/-- `sorted(files, key=lambda item: item.path)`. -/
def byPath (files : List (UnsupportedFile rules)) : List (UnsupportedFile rules) :=
  files.insertionSort (fun f g => f.path ≤ g.path)

/-- `FileReviewRequestGroup.to_dict`. -/
def groupDict (s : Snapshot) (parts : List (List (UnsupportedFile rules))) : Json :=
  .obj [("schema_version", .str "human-file-review-group-v1"),
    ("parts", .arr (parts.map (partDict s)))]

/-- The parts of a group and `FileReviewRequestGroup.__post_init__`. -/
def checkGroup (s : Snapshot) (parts : List (List (UnsupportedFile rules))) :
    Except String Unit := do
  parts.forM (checkPart s)
  let files := parts.flatten
  ensure (2 ≤ parts.length ∧ parts.length ≤ maxFiles) "human file request group is invalid"
  ensure ((∀ part ∈ parts.dropLast, part.length = maxFiles) ∧ files = byPath files ∧
      (files.map (fun f => f.fileId)).Nodup ∧ distinctPaths files)
    "human file request group parts conflict"
  ensure ((encode (canonical (groupDict s parts))).length ≤ maxDocumentBytes)
    "human file request group exceeds the document bound"

/-- A request, in one part or as a group of parts. -/
structure FileReviewRequest (rules : UnicodeRules) where
  snapshot : Snapshot
  parts : List (List (UnsupportedFile rules))
  accepted : (∃ files, parts = [files] ∧ checkPart snapshot files = .ok ()) ∨
    checkGroup snapshot parts = .ok ()

def FileReviewRequest.files (request : FileReviewRequest rules) : List (UnsupportedFile rules) :=
  request.parts.flatten

/-- `build_request_group`, by whether it returns. -/
def buildRequestGroup (s : Snapshot) (files : List (UnsupportedFile rules)) :
    Except String Unit :=
  if files.length ≤ maxFiles then checkPart s files
  else if maxFiles * maxFiles < files.length then
    .error "human file request group exceeds its part bound"
  else checkGroup s (pieces (byPath files))

end Requests

section Inventory
variable {rules : UnicodeRules}

def isBinaryFile (entry : FileCoverage) : Bool :=
  entry.outcome = .unsupported && entry.reason = some .binary

def isGeneratedFile (entry : FileCoverage) : Bool :=
  entry.outcome = .excludedByPolicy && entry.reason = some .generated

def isHumanConfirmableFile (entry : FileCoverage) : Bool :=
  isBinaryFile entry || isGeneratedFile entry

def isHumanConfirmableHunk (entry : HunkCoverage) : Bool :=
  entry.outcome = .excludedByPolicy && entry.reason = some .generated

def confirmablePaths (m : ManifestFields) : List Path :=
  (m.files.filter isHumanConfirmableFile).map FileCoverage.path

def excludedPaths (m : ManifestFields) : List Path :=
  (m.files.filter isGeneratedFile).map FileCoverage.path

/-- Every hunk was reviewed or belongs to a generated file. -/
def hunksCovered (m : ManifestFields) : Prop :=
  ∀ entry ∈ m.hunks, entry.outcome = .reviewed ∨
    (entry.path ∈ excludedPaths m ∧ isHumanConfirmableHunk entry = true)

instance (m : ManifestFields) : Decidable (hunksCovered m) :=
  inferInstanceAs (Decidable (∀ entry ∈ m.hunks, _))

/-- `coverage_only_binary`. -/
def coverageOnlyBinary (m : ManifestFields) : Prop :=
  m.enumerationComplete = true ∧ m.files ≠ [] ∧ confirmablePaths m ≠ [] ∧
    (∀ entry ∈ m.files, entry.outcome = .reviewed ∨ isHumanConfirmableFile entry = true) ∧
    hunksCovered m

instance (m : ManifestFields) : Decidable (coverageOnlyBinary m) :=
  inferInstanceAs (Decidable (_ ∧ _))

/-- `validate_inventory`, over the files of the request. -/
def validateInventory (files : List (UnsupportedFile rules)) (m : ManifestFields) :
    Except String Unit := do
  let actual := files.flatMap (fun f => f.paths)
  ensure (m.enumerationComplete = true ∧ confirmablePaths m ≠ [] ∧
      (∀ path ∈ confirmablePaths m, path ∈ actual) ∧ ∀ path ∈ actual, path ∈ confirmablePaths m)
    "human file inventory must cover exactly all human-confirmable paths"
  ensure (hunksCovered m)
    "human file confirmation cannot replace reviewable text hunk review"

end Inventory
end ReviewSensei.HumanFiles
