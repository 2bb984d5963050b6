import ReviewSensei.Bisection
import ReviewSensei.HumanInventory

/-! The documents that go into one rendered prompt: whole supplemental documents are left out, from
the lowest rank, until the rendered frame fits. -/
namespace ReviewSensei.Prompt
open Session (isSha256 isGitSha strip)
open Sha256 (encode)
open Diff (UnicodeRules validateRepositoryPath)
open Human (validateBoundedText)

def maxReviewContextFiles : Nat := 64
def maxReviewDocumentBytes : Nat := 128 * 1024
def maxReviewContextTotalBytes : Nat := 512 * 1024
def maxDocumentCandidates : Nat := 4096
def maxInspectDocumentBytes : Nat := 1024 * 1024
def maxExtractBytes : Nat := 16 * 1024
def maxExtractWindows : Nat := 8

/-- `_LEARNING_ID`. -/
def isLearningId (text : String) : Bool :=
  let word (c : Char) : Bool := c.isLower || c.isDigit
  match text.toList with
  | [] => false
  | c :: cs => word c && cs.all (fun c => word c || c = '.' || c = '_' || c = '-')

inductive Status
  | selected
  | summarized
  | omitted
  deriving DecidableEq

def Status.text : Status → String
  | .selected => "selected"
  | .summarized => "summarized"
  | .omitted => "omitted"

inductive Reason
  | pinned
  | scopeMatch
  | configuredSource
  | fileBudget
  | byteBudget
  | promptBudget
  | inspectionFileLimit
  | unreadable
  | invalidUtf8
  | empty
  | extractUnavailable
  deriving DecidableEq

def Reason.text : Reason → String
  | .pinned => "pinned"
  | .scopeMatch => "scope-match"
  | .configuredSource => "configured-source"
  | .fileBudget => "file-budget"
  | .byteBudget => "byte-budget"
  | .promptBudget => "prompt-budget"
  | .inspectionFileLimit => "inspection-file-limit"
  | .unreadable => "unreadable"
  | .invalidUtf8 => "invalid-utf8"
  | .empty => "empty"
  | .extractUnavailable => "extract-unavailable"

/-- The reasons for which a document is taken. -/
def Reason.takes (reason : Reason) : Bool :=
  [Reason.pinned, .scopeMatch, .configuredSource].contains reason

structure DecisionFields where
  path : String
  status : Status
  reason : Reason
  sourceSha256 : String := ""
  payloadSha256 : String := ""
  sourceBytes : Option Int := none
  lineRanges : List (Int × Int) := []

/-- The ranges of an extract follow each other inside the source. -/
def rangesFit (sourceBytes : Option Int) : Int → List (Int × Int) → Bool
  | _, [] => true
  | previous, (first, last) :: rest =>
    decide (previous < first) && decide (first ≤ last) &&
      decide (last ≤ maxInspectDocumentBytes) && sourceBytes.any (fun n => decide (last ≤ n)) &&
      rangesFit sourceBytes last rest

/-- A decision has a payload exactly if it keeps its document. -/
def DecisionFields.checkPayload (d : DecisionFields) : Except String Unit :=
  if d.status = .omitted then
    ensure (d.payloadSha256 = "" ∧ d.lineRanges = [] ∧ d.reason.takes = false)
      "omitted document cannot have a payload"
  else do
    ensure (d.sourceSha256 ≠ "" ∧ d.payloadSha256 ≠ "")
      "selected document requires source and payload digests"
    ensure (d.reason.takes = true ∧
        d.sourceBytes.any (fun n => decide (0 < n ∧ n ≤ (maxInspectDocumentBytes : Int))) = true)
      "selected document provenance is invalid"

/-- `DocumentDecision.__post_init__`. -/
def DecisionFields.check (rules : UnicodeRules) (d : DecisionFields) : Except String Unit := do
  validateRepositoryPath rules "document selection path" false d.path.toList
  ensure (∀ digest ∈ [d.sourceSha256, d.payloadSha256], digest = "" ∨ isSha256 digest = true)
    "document selection digest is invalid"
  ensure (∀ n ∈ d.sourceBytes, 0 ≤ n ∧ n ≤ 2 ^ 63 - 1) "document selection source size is invalid"
  ensure (d.lineRanges.length ≤ maxExtractWindows ∧ rangesFit d.sourceBytes 0 d.lineRanges = true)
    "document selection ranges are invalid"
  d.checkPayload
  ensure (d.status = .summarized → d.lineRanges ≠ []) "extractive summary requires source ranges"
  ensure (¬ (d.status = .summarized ∧ d.reason = .pinned)) "mandatory documents cannot be summarized"
  ensure (d.status = .selected → d.lineRanges = [] ∧ d.sourceSha256 = d.payloadSha256)
    "full document provenance must match its payload"

def DecisionFields.toDict (d : DecisionFields) : Json :=
  .obj [("path", .str d.path), ("status", .str d.status.text), ("reason", .str d.reason.text),
    ("source_sha256", .str d.sourceSha256), ("payload_sha256", .str d.payloadSha256),
    ("source_bytes", (d.sourceBytes.map .int).getD .null),
    ("line_ranges", .arr (d.lineRanges.map (fun pair => .arr [.int pair.1, .int pair.2])))]

/-- The decision is on a document whose text is kept. -/
def DecisionFields.kept (d : DecisionFields) : Bool := decide (d.status ≠ .omitted)

structure DocumentDecision (rules : UnicodeRules) extends DecisionFields where
  accepted : toDecisionFields.check rules = .ok ()

def DocumentDecision.construct (rules : UnicodeRules) (d : DecisionFields) :
    Except String (DocumentDecision rules) :=
  match h : d.check rules with
  | .ok () => .ok ⟨d, h⟩
  | .error e => .error e

structure DocumentFields where
  path : String
  content : String
  sha256 : String
  deriving DecidableEq

/-- `ReviewDocument.__post_init__`. -/
def DocumentFields.check (rules : UnicodeRules) (d : DocumentFields) : Except String Unit := do
  validateRepositoryPath rules "review document path" false d.path.toList
  ensure (strip d.content ≠ "") "review document content must be a non-empty string"
  validateBoundedText d.content maxReviewDocumentBytes "review document content" false
  ensure (isSha256 d.sha256 = true) "review document sha256 must be a lowercase SHA-256 digest"
  ensure (d.sha256 = ReviewSensei.sha256 d.content) "review document sha256 must match its content"

def DocumentFields.bytes (d : DocumentFields) : Nat := (encode d.content).length

structure ReviewDocument (rules : UnicodeRules) extends DocumentFields where
  accepted : toDocumentFields.check rules = .ok ()

section Report
variable {rules : UnicodeRules}

/-- `DocumentSelectionReport.__post_init__`. -/
def checkReport (decisions : List (DocumentDecision rules)) : Except String Unit := do
  ensure (decisions.length ≤ maxDocumentCandidates) "document selection inventory is invalid"
  ensure (decisions.map (fun d => d.path) =
      Human.sorted (decisions.map (fun d => d.path)).dedup)
    "document selection inventory must be unique and sorted"
  ensure ((decisions.filter (fun d => d.kept)).length ≤ maxReviewContextFiles)
    "document selection contains too many payloads"

structure DocumentSelectionReport (rules : UnicodeRules) where
  decisions : List (DocumentDecision rules)
  accepted : checkReport decisions = .ok ()

namespace DocumentSelectionReport

def construct (decisions : List (DocumentDecision rules)) :
    Except String (DocumentSelectionReport rules) :=
  match h : checkReport decisions with
  | .ok () => .ok ⟨decisions, h⟩
  | .error e => .error e

/-- The digests of the payloads that the report promises. -/
def expected (report : DocumentSelectionReport rules) : List (String × String) :=
  (report.decisions.filter (fun d => d.kept)).map (fun d => (d.path, d.payloadSha256))

def checkPayload (byPath : Dict String (ReviewDocument rules)) (d : DocumentDecision rules) :
    Except String Unit := do
  -- a document that is kept stands in the table
  let bytes : Nat := ((byPath.get? d.path).map (fun document => document.bytes)).getD 0
  ensure (d.status = .selected → d.sourceBytes = some (bytes : Int))
    "full document source bytes must match payload"
  ensure (d.status = .summarized → bytes ≤ maxExtractBytes)
    "extractive summary exceeds its byte budget"

/-- `validate_documents`. -/
def validateDocuments (report : DocumentSelectionReport rules)
    (documents : List (ReviewDocument rules)) : Except String Unit := do
  ensure ((Dict.ofPairs (documents.map (fun document => (document.path, document.sha256)))).same
        (Dict.ofPairs report.expected) = true ∧
      documents.length = (Dict.ofPairs report.expected).length)
    "document selection must match lens documents"
  report.decisions.forM
    (checkPayload (Dict.ofPairs (documents.map (fun document => (document.path, document)))))

/-- `inventory_sha256` of `to_prompt_dict`. -/
def inventorySha256 (report : DocumentSelectionReport rules) : String :=
  ReviewSensei.sha256 (Json.arr (report.decisions.map (fun d => d.toDict))).canonical

/-- `lossy` of `to_prompt_dict`. -/
def lossy (report : DocumentSelectionReport rules) : Bool :=
  report.decisions.any (fun d => decide (d.status ≠ .selected))

def count (report : DocumentSelectionReport rules) (p : Status → Bool) : Nat :=
  report.decisions.countP (fun d => p d.status)

/-- How often each reason stands beside an omitted document, in the order of the reasons' texts. -/
def omissionReasons (report : DocumentSelectionReport rules) : List (String × Nat) :=
  let reasons := (report.decisions.filter (fun d => !d.kept)).map (fun d => d.reason.text)
  (Human.sorted reasons.dedup).map (fun reason => (reason, reasons.count reason))

end DocumentSelectionReport
end Report

section Requests
variable {rules : UnicodeRules} {L S B : Type}

/-- The fields of the context of one lens before its checks; `L` are the learnings. -/
structure LensFields (rules : UnicodeRules) (L : Type) where
  categoryId : String
  learnings : List L := []
  documents : List (ReviewDocument rules) := []
  documentSelection : Option (DocumentSelectionReport rules) := none

/-- `ReviewLensContext.__post_init__`; `active` is `learning.status == "active"`. -/
def LensFields.check (active : L → Bool) (f : LensFields rules L) : Except String Unit := do
  ensure (isLearningId f.categoryId = true)
    "lens context category_id must be a lowercase safe identifier"
  ensure (f.learnings.all active = true) "lens context learnings must be active"
  match f.documentSelection with
  | none => .ok ()
  | some report => report.validateDocuments f.documents

structure ReviewLensContext (rules : UnicodeRules) (active : L → Bool) extends
    LensFields rules L where
  accepted : toLensFields.check active = .ok ()

def ReviewLensContext.construct (active : L → Bool) (f : LensFields rules L) :
    Except String (ReviewLensContext rules active) :=
  match h : f.check active with
  | .ok () => .ok ⟨f, h⟩
  | .error e => .error e

structure ReviewLimits where
  maxRepositoryBytes : Nat := 512
  maxTitleBytes : Nat := 4096
  maxInstructionsBytes : Nat := 65536
  maxMetadataItems : Nat := 64
  maxMetadataKeyBytes : Nat := 128
  maxMetadataValueBytes : Nat := 4096
  maxModelBytes : Nat := 256
  maxLearningEntries : Nat := 100
  maxActiveCategories : Nat := 64
  maxLensContexts : Nat := 64

/-- A request without the contexts of its lenses; `S` are the source contexts, `B` the budgets. -/
structure RequestFrame (L S B : Type) where
  diff : String
  repository : Option String := none
  pullRequestNumber : Option Int := none
  title : Option String := none
  instructions : Option String := none
  model : Option String := none
  metadata : Dict String String := []
  learnings : List L := []
  proposeLearnings : Bool := true
  activeCategoryIds : Option (List String) := none
  limits : ReviewLimits := {}
  sourceContext : Option S := none
  untrustedHeadSha : Option String := none
  baseSha : Option String := none
  headSha : Option String := none
  orchestrateLargeChanges : Bool := false
  workBudget : B
  workPolicyDigest : Option String := none

/-- The texts of a request that have limits of their own. -/
def RequestFrame.texts (f : RequestFrame L S B) : List (String × Option String × Nat) :=
  [("repository", f.repository, f.limits.maxRepositoryBytes),
    ("title", f.title, f.limits.maxTitleBytes),
    ("instructions", f.instructions, f.limits.maxInstructionsBytes),
    ("model", f.model, f.limits.maxModelBytes)]

/-- The checks of a request before those of its contexts. -/
def RequestFrame.check (active : L → Bool) (f : RequestFrame L S B) : Except String Unit := do
  ensure (strip f.diff ≠ "") "diff must be a non-empty string"
  ensure (∀ digest ∈ f.workPolicyDigest, isSha256 digest = true)
    "review work policy digest is invalid"
  f.texts.forM (fun (label, value, maximum) =>
    match value with
    | none => .ok ()
    | some value => validateBoundedText value maximum ("review " ++ label) true)
  ensure (f.metadata.length ≤ f.limits.maxMetadataItems) "review metadata contains too many items"
  f.metadata.forM (fun (key, value) => do
    validateBoundedText key f.limits.maxMetadataKeyBytes "review metadata key" false
    validateBoundedText value f.limits.maxMetadataValueBytes "review metadata value" true)
  ensure (∀ n ∈ f.pullRequestNumber, 1 ≤ n) "pull_request_number must be a positive integer"
  ensure (f.learnings.all active = true) "review learnings must be active"
  ensure (∀ ids ∈ f.activeCategoryIds, ids.all isLearningId = true)
    "active_category_ids must be a tuple of lowercase safe identifiers"
  ensure (∀ ids ∈ f.activeCategoryIds, ids.Nodup) "active_category_ids must be unique"
  ensure (∀ ids ∈ f.activeCategoryIds, ids.length ≤ f.limits.maxActiveCategories)
    "review contains too many active categories"

/-- The checks of a request after those of its contexts. -/
def RequestFrame.checkHeads (f : RequestFrame L S B) : Except String Unit := do
  ensure (∀ sha ∈ f.untrustedHeadSha, isGitSha sha = true) "untrusted_head_sha must be a commit SHA"
  ensure (∀ sha ∈ f.baseSha, isGitSha sha = true) "review base_sha must be a Git commit sha"
  ensure (∀ sha ∈ f.headSha, isGitSha sha = true) "review head_sha must be a Git commit sha"

/-- One document of the contexts, beside those before it. -/
def addDocument (seen : Dict String (ReviewDocument rules)) (document : ReviewDocument rules) :
    Except String (Dict String (ReviewDocument rules)) := do
  let existing := (seen.get? document.path).getD document
  ensure (existing.toDocumentFields = document.toDocumentFields)
    "review document paths must resolve to consistent content"
  .ok (seen.setDefault document.path document)

/-- The checks of the contexts of a request. -/
def checkContexts {active : L → Bool} (frame : RequestFrame L S B)
    (contexts : List (ReviewLensContext rules active)) : Except String Unit := do
  ensure (frame.learnings.length + (contexts.map (fun c => c.learnings.length)).sum ≤
      frame.limits.maxLearningEntries) "review contains too many learning entries"
  ensure (contexts.length ≤ frame.limits.maxLensContexts) "review contains too many lens contexts"
  ensure (contexts.map (fun c => c.categoryId)).Nodup "lens_contexts must have unique category ids"
  ensure (∀ ids ∈ frame.activeCategoryIds, ∀ c ∈ contexts, c.categoryId ∈ ids)
    "lens_contexts must belong to active review categories"
  let seen ← (contexts.flatMap (fun c => c.documents)).foldlM addDocument []
  ensure (seen.length ≤ maxReviewContextFiles) "review context contains too many documents"
  ensure ((seen.map (fun p => p.2.bytes)).sum ≤ maxReviewContextTotalBytes)
    "review context exceeds the total size limit"

/-- A request: a frame and contexts that the constructor accepted. -/
structure ReviewRequest (rules : UnicodeRules) (active : L → Bool) (S B : Type) where
  frame : RequestFrame L S B
  lensContexts : List (ReviewLensContext rules active)
  accepted : frame.check active = .ok () ∧ checkContexts frame lensContexts = .ok () ∧
    frame.checkHeads = .ok ()

/-- `ReviewRequest.__post_init__`. -/
def ReviewRequest.construct (active : L → Bool) (frame : RequestFrame L S B)
    (lensContexts : List (ReviewLensContext rules active)) :
    Except String (ReviewRequest rules active S B) :=
  match hframe : frame.check active, hcontexts : checkContexts frame lensContexts,
      hheads : frame.checkHeads with
  | .ok (), .ok (), .ok () => .ok ⟨frame, lensContexts, hframe, hcontexts, hheads⟩
  | .error e, _, _ => .error e
  | .ok (), .error e, _ => .error e
  | .ok (), .ok (), .error e => .error e

end Requests

section Admission
variable {rules : UnicodeRules} {L S B σ : Type} [LinearOrder σ] {active : L → Bool}

/-- The report of one lens before anything was left out of its prompt. -/
structure OriginalReport where
  category : String
  inventorySha256 : String
  discovered : Nat
  selected : Nat
  summarized : Nat
  omitted : Nat

def originalReport (category : String) (report : DocumentSelectionReport rules) : OriginalReport where
  category := category
  inventorySha256 := report.inventorySha256
  discovered := report.decisions.length
  selected := report.count (fun status => decide (status ≠ .omitted))
  summarized := report.count (fun status => decide (status = .summarized))
  omitted := report.count (fun status => decide (status = .omitted))

/-- What the loop over the contexts has gathered. -/
structure Ranking (σ : Type) where
  originalReports : List OriginalReport := []
  omissionReasons : List (String × List (String × Nat)) := []
  optional : Dict String σ := []
  mandatory : List String := []
  payloads : Dict String String := []

/-- The decision of a lens on a path, where its report has one. -/
def decisionOn (context : LensFields rules L) (path : String) : Option (DocumentDecision rules) :=
  context.documentSelection.bind
    (fun report => report.decisions.find? (fun d => decide (d.path = path)))

/-- A document that no decision supports, or that is pinned, is never left out. -/
def isMandatory (context : LensFields rules L) (path : String) : Bool :=
  (decisionOn context path).all (fun d => decide (d.reason = .pinned))

/-- `mandatory.add(path)`. -/
def addMandatory (mandatory : List String) (path : String) : List String :=
  if path ∈ mandatory then mandatory else mandatory ++ [path]

/-- One document of one lens; `score` is `_score` for the changed paths. -/
def rankDocument (score : DocumentFields → σ) (context : LensFields rules L) (r : Ranking σ)
    (document : ReviewDocument rules) : Except String (Ranking σ) := do
  let prior := (r.payloads.get? document.path).getD document.sha256
  ensure (prior = document.sha256) "prompt context contains conflicting document payloads"
  let payloads := r.payloads.setDefault document.path document.sha256
  if isMandatory context document.path then
    .ok { r with payloads, mandatory := addMandatory r.mandatory document.path }
  else
    let rank := score document.toDocumentFields
    .ok { r with
      payloads
      optional := r.optional.set document.path
        (max ((r.optional.get? document.path).getD rank) rank) }

def addReport (context : LensFields rules L) (r : Ranking σ) : Ranking σ :=
  match context.documentSelection with
  | none => r
  | some report =>
    { r with
      omissionReasons := r.omissionReasons ++ [(context.categoryId, report.omissionReasons)]
      originalReports := r.originalReports ++ [originalReport context.categoryId report] }

/-- One lens; those that are not in use are passed over. -/
def rankContext (score : DocumentFields → σ) (categories : List String) (r : Ranking σ)
    (context : ReviewLensContext rules active) : Except String (Ranking σ) :=
  if context.categoryId ∈ categories then
    context.documents.foldlM (rankDocument score context.toLensFields)
      (addReport context.toLensFields r)
  else .ok r

def rank (score : DocumentFields → σ) (categories : List String)
    (contexts : List (ReviewLensContext rules active)) : Except String (Ranking σ) :=
  contexts.foldlM (rankContext score categories) {}

/-- The order of the candidates: `(optional[path], path)`. -/
def rankedBefore (a b : σ × String) : Prop := a.1 < b.1 ∨ (a.1 = b.1 ∧ a.2 ≤ b.2)

instance (a b : σ × String) : Decidable (rankedBefore a b) := inferInstanceAs (Decidable (_ ∨ _))

/-- The supplemental documents, those of the lowest rank first. -/
def Ranking.candidates (r : Ranking σ) : List String :=
  let ranked := (r.optional.filter (fun p => decide (p.1 ∉ r.mandatory))).map
    (fun p => (p.2, p.1))
  (ranked.insertionSort rankedBefore).map Prod.snd

/-- The decision on a document that is left out of the prompt. -/
def DecisionFields.leftOut (d : DecisionFields) : DecisionFields :=
  { d with status := .omitted, reason := .promptBudget, payloadSha256 := "", lineRanges := [] }

def leaveOutDecision (omitted : List String) (d : DocumentDecision rules) :
    Except String (DocumentDecision rules) :=
  if d.path ∈ omitted ∧ d.status ≠ .omitted then DocumentDecision.construct rules d.leftOut else .ok d

def leaveOutContext (categories omitted : List String) (context : ReviewLensContext rules active) :
    Except String (ReviewLensContext rules active) :=
  if context.categoryId ∉ categories ∨ omitted = [] then .ok context
  else match context.documentSelection with
    | none => .ok context
    | some report => do
      let decisions ← report.decisions.mapM (leaveOutDecision omitted)
      let selection ← DocumentSelectionReport.construct decisions
      ReviewLensContext.construct active { context.toLensFields with
        documents := context.documents.filter (fun d => decide (d.path ∉ omitted))
        documentSelection := some selection }

/-- `selected_request`. -/
def selectedRequest (categories : List String) (request : ReviewRequest rules active S B)
    (omitted : List String) : Except String (ReviewRequest rules active S B) := do
  let contexts ← request.lensContexts.mapM (leaveOutContext categories omitted)
  ReviewRequest.construct active request.frame contexts

structure PromptContextAdmission (rules : UnicodeRules) (active : L → Bool) (S B : Type) where
  request : ReviewRequest rules active S B
  prompt : String
  originalReports : List OriginalReport
  selectedReports : List (String × String)
  complete : Bool
  promptOmitted : Nat
  originalOmissionReasons : List (String × List (String × Nat))
  selectedCount : Nat
  mandatoryCount : Nat

/-- The message of `PromptContextOverflow`. -/
def overflow : String :=
  "mandatory context and complete evidence exceed the rendered prompt budget"

/-- The lenses in use that have a report, with their reports. -/
def activeReports (categories : List String) (request : ReviewRequest rules active S B) :
    List (String × DocumentSelectionReport rules) :=
  request.lensContexts.filterMap (fun c =>
    if c.categoryId ∈ categories then c.documentSelection.map (fun r => (c.categoryId, r))
    else none)

/-- The paths of the documents in the lenses in use, once each. -/
def activePaths (categories : List String) (request : ReviewRequest rules active S B) :
    List String :=
  ((request.lensContexts.filter (fun c => decide (c.categoryId ∈ categories))).flatMap
    (fun c => c.documents.map (fun d => d.path))).dedup

/-- The proof of one rendering, from the ranking and the number of candidates left out. -/
def admission (categories : List String) (r : Ranking σ) (omitted : Nat)
    (selected : ReviewRequest rules active S B × String) : PromptContextAdmission rules active S B :=
  let reports := activeReports categories selected.1
  { request := selected.1
    prompt := selected.2
    originalReports := r.originalReports
    selectedReports := reports.map (fun report => (report.1, report.2.inventorySha256))
    complete := !reports.any (fun report => report.2.lossy)
    promptOmitted := omitted
    originalOmissionReasons := r.omissionReasons
    selectedCount := (activePaths categories selected.1).length
    mandatoryCount := r.mandatory.length }

section Probing
variable (categories : List String) (request : ReviewRequest rules active S B)
  (render : ReviewRequest rules active S B → String) (fits : String → Bool)

/-- The rendering that leaves out so many candidates, where it fits. -/
def probe (candidates : List String) (count : Nat) :
    Except String (Option (ReviewRequest rules active S B × String)) := do
  let selected ← selectedRequest categories request (candidates.take count)
  .ok (if fits (render selected) = true then some (selected, render selected) else none)

/-- The number of candidates to leave out, with the rendering found there. -/
def findFitting (candidates : List String) :
    Except String (Option (Nat × ReviewRequest rules active S B × String)) := do
  match ← probe categories request render fits candidates 0 with
  | some found => .ok (some (0, found))
  | none =>
    if candidates = [] then .ok none
    else
      match ← probe categories request render fits candidates candidates.length with
      | none => .ok none
      | some found => do
        let first ← Bisection.search (probe categories request render fits candidates) 1
          candidates.length found
        .ok (some first)

/-- `admit_prompt_context`, without its look at the deadline. -/
def admitPromptContext (score : DocumentFields → σ) :
    Except String (PromptContextAdmission rules active S B) := do
  let ranking ← rank score categories request.lensContexts
  match ← findFitting categories request render fits ranking.candidates with
  | none => .error overflow
  | some (count, selected) =>
    .ok (admission categories ranking (ranking.candidates.take count).length selected)

end Probing
end Admission
end ReviewSensei.Prompt
