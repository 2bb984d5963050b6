import Mathlib.Data.String.Basic
import ReviewSensei.HumanFiles
import ReviewSensei.HistoricalHolds

/-! Requests for human file review as they are built and read back, the comments that confirm them
and the receipts that bind a confirmation to the parts of its request. -/
namespace ReviewSensei.HumanFiles
open Session (isSha256 stripBy)
open Sha256 (encode)
open Diff (UnicodeRules validateRepositoryPath)

def maxSourceBytes : Nat := 8192

/-- What a confirmation reads of Unicode: `str.casefold`, and the digits of `\d` and of
`datetime.strptime`. -/
structure ConfirmationRules where
  unicode : UnicodeRules
  casefold : String → String
  timestampShape : String → Bool
  timestamp : String → Bool

/-- `_closed`. -/
def closed (keys : List String) (value : Json) : Except String Unit :=
  ensure (value.hasKeys keys = true) "human file review document shape is invalid"

section Requests
variable {rules : UnicodeRules}

def UnsupportedFile.construct (f : FileFields) : Except String (UnsupportedFile rules) :=
  match h : f.check rules with
  | .ok () => .ok ⟨f, h⟩
  | .error message => .error message

def fileKeys : List String :=
  ["path", "change", "old_blob", "new_blob", "old_path", "old_mode", "new_mode"]

def readFileText (value : Option Json) : Except String String :=
  Json.readText (fun _ => true) "human file fields are invalid" value

def readFileOptional : Option Json → Except String (Option String)
  | some .null => .ok none
  | some (.str s) => .ok (some s)
  | _ => .error "human file fields are invalid"

def Change.ofText? (text : String) : Option Change :=
  [Change.added, .modified, .removed, .renamed].find? (fun change => change.text = text)

/-- `UnsupportedFile.from_dict`. -/
def UnsupportedFile.fromDict (value : Json) : Except String (UnsupportedFile rules) := do
  closed fileKeys value
  let path ← readFileText (value.get? "path")
  let change ← readFileText (value.get? "change")
  let oldBlob ← readFileOptional (value.get? "old_blob")
  let newBlob ← readFileOptional (value.get? "new_blob")
  let oldPath ← readFileOptional (value.get? "old_path")
  let oldMode ← readFileOptional (value.get? "old_mode")
  let newMode ← readFileOptional (value.get? "new_mode")
  match Change.ofText? change with
  | none => do
    validateRepositoryPath rules "human file path" true path.toList
    .error "human file change type is invalid"
  | some change =>
    UnsupportedFile.construct
      { path := path.toList, change, oldBlob, newBlob, oldPath := oldPath.map String.toList,
        oldMode, newMode }

namespace FileReviewRequest

/-- `FileReviewRequest.__init__`. -/
def single (s : Snapshot) (files : List (UnsupportedFile rules)) :
    Except String (FileReviewRequest rules) :=
  match h : checkPart s files with
  | .ok () => .ok ⟨s, [files], .inl ⟨files, rfl, h⟩⟩
  | .error message => .error message

/-- `FileReviewRequestGroup.__init__`, with the parts it is given. -/
def group (s : Snapshot) (parts : List (List (UnsupportedFile rules))) :
    Except String (FileReviewRequest rules) :=
  match h : checkGroup s parts with
  | .ok () => .ok ⟨s, parts, .inr h⟩
  | .error message => .error message

/-- `build_request_group`, with the request it returns. -/
def build (s : Snapshot) (files : List (UnsupportedFile rules)) :
    Except String (FileReviewRequest rules) :=
  if files.length ≤ maxFiles then single s files
  else if maxFiles * maxFiles < files.length then
    .error "human file request group exceeds its part bound"
  else group s (pieces (byPath files))

/-- `to_dict` of a request or of a group. -/
def toDict (request : FileReviewRequest rules) : Json :=
  match request.parts with
  | [files] => partDict request.snapshot files
  | parts => groupDict request.snapshot parts

def digest (request : FileReviewRequest rules) : String := evidenceDigest request.toDict

def fileIds (request : FileReviewRequest rules) : List String :=
  request.files.map (fun f => f.fileId)

end FileReviewRequest

/-- The digest of one part. -/
def partDigest (s : Snapshot) (files : List (UnsupportedFile rules)) : String :=
  evidenceDigest (partDict s files)

def requestKeys : List String :=
  ["schema_version", "repository", "repository_id", "pull_request", "base_sha", "head_sha",
    "review_id", "result_digest", "files"]

def readSnapshotText (value : Option Json) : Except String String :=
  Json.readText (fun _ => true) "human file review snapshot is invalid" value

def readSnapshotInteger : Option Json → Except String Int
  | some (.int i) => .ok i
  | _ => .error "human file review snapshot is invalid"

def Snapshot.fromDict (value : Json) : Except String Snapshot := do
  let repository ← readSnapshotText (value.get? "repository")
  let repositoryId ← readSnapshotInteger (value.get? "repository_id")
  let pullRequest ← readSnapshotInteger (value.get? "pull_request")
  let baseSha ← readSnapshotText (value.get? "base_sha")
  let headSha ← readSnapshotText (value.get? "head_sha")
  let reviewId ← readSnapshotInteger (value.get? "review_id")
  let resultDigest ← readSnapshotText (value.get? "result_digest")
  pure { repository, repositoryId, pullRequest, baseSha, headSha, reviewId, resultDigest }

/-- The items of a list under a schema version. -/
def readItems (version key message : String) (value : Json) : Except String (List Json) :=
  match value.get? key with
  | some (.arr items) => do
    ensure (value.get? "schema_version" = some (.str version)) message
    pure items
  | _ => .error message

/-- `FileReviewRequest.from_dict`, before the request is made of it. -/
def readPart (value : Json) : Except String (Snapshot × List (UnsupportedFile rules)) := do
  closed requestKeys value
  let items ← readItems "human-file-review-v1" "files" "human file request schema is invalid" value
  let files ← items.mapM UnsupportedFile.fromDict
  let snapshot ← Snapshot.fromDict value
  checkPart snapshot files
  pure (snapshot, files)

/-- `FileReviewRequestGroup.from_dict`. -/
def readGroup (value : Json) : Except String (FileReviewRequest rules) := do
  closed ["schema_version", "parts"] value
  let items ← readItems "human-file-review-group-v1" "parts"
    "human file request group schema is invalid" value
  ensure (2 ≤ items.length ∧ items.length ≤ maxFiles)
    "human file request group exceeds its part bound"
  let parts ← items.mapM readPart
  match parts with
  | [] => .error "human file request group is invalid"
  | first :: _ => do
    ensure (∀ part ∈ parts, part.1 = first.1) "human file request group snapshots conflict"
    FileReviewRequest.group first.1 (parts.map Prod.snd)

def parseRequest (value : Json) : Except String (FileReviewRequest rules) :=
  if value.get? "schema_version" = some (.str "human-file-review-group-v1") then readGroup value
  else do
    let part ← readPart value
    FileReviewRequest.single part.1 part.2

end Requests

section Confirmation

def isBreak (c : Char) : Bool := c = ' ' || c = '\t' || c = '\r' || c = '\n'

/-- `re.split(r"[ \t\r\n]+", text)` of a stripped text that is not empty. -/
def words (text : List Char) : List (List Char) := (text.splitOnP isBreak).filter (· ≠ [])

def asciiLower (c : Char) : Char := if 'A' ≤ c ∧ c ≤ 'Z' then Char.ofNat (c.toNat + 32) else c

/-- What follows `@sensei`, or `@reviewsensei` in any case. -/
def afterMention (text : List Char) : Option (List Char) :=
  if text.take 7 = "@sensei".toList then some (text.drop 7)
  else if (text.take 13).map asciiLower = "@reviewsensei".toList then some (text.drop 13)
  else none

def blanketSentence : String := "i reviewed the media files and i approve"

/-- `is_blanket_media_approval`. -/
def isBlanketMediaApproval (casefold : String → String) (body : String) : Bool :=
  match afterMention (stripBy isBreak body.toList) with
  | some (c :: rest) =>
    let phrase := rest.dropWhile isBreak
    -- the dot of the pattern stops at a line feed
    isBreak c && decide ('\n' ∉ phrase) &&
      decide (casefold (" ".intercalate ((words phrase).map String.ofList)) = blanketSentence)
  | _ => false

variable {rules : UnicodeRules}

/-- The digest a literal command names and the file ids after it. -/
def command? (body : String) : Option (String × List String) :=
  match (words (stripBy isBreak body.toList)).map String.ofList with
  | mention :: action :: target :: id :: ids =>
    if mention ∈ ["@sensei", "@reviewsensei"] ∧ action = "media-reviewed" then
      some (target, id :: ids)
    else none
  | _ => none

def parseConfirmation (casefold : String → String) (body : String)
    (request : FileReviewRequest rules) : Option (List String) :=
  if maxSourceBytes < (encode body).length then none
  else if isBlanketMediaApproval casefold body then
    if request.files = [] then none else some request.fileIds
  else
    match command? body with
    | none => none
    | some (target, ids) =>
      if target = request.digest ∧ ids.length ≤ maxFiles ∧ ids.Nodup ∧
          ∀ id ∈ ids, id ∈ request.fileIds then some ids
      else none

end Confirmation

section Receipts
variable (rules : ConfirmationRules)

/-- The human comment a receipt is about. -/
structure ReceiptSource where
  requestCommentId : Int
  sourceCommentId : Int
  sourceUpdatedAt : String
  sourceSha256 : String
  actorId : Int
  actor : String
  deriving DecidableEq

def ReceiptSource.shaped (source : ReceiptSource) : Prop :=
  isSha256 source.sourceSha256 = true ∧ 0 < source.requestCommentId ∧
    0 < source.sourceCommentId ∧ 0 < source.actorId ∧ Holds.isActor source.actor = true ∧
    rules.timestampShape source.sourceUpdatedAt = true

instance (source : ReceiptSource) : Decidable (source.shaped rules) :=
  inferInstanceAs (Decidable (_ ∧ _))

/-- The source passes the checks every receipt makes of it. -/
def ReceiptSource.valid (source : ReceiptSource) : Prop :=
  source.shaped rules ∧ rules.timestamp source.sourceUpdatedAt = true

instance (source : ReceiptSource) : Decidable (source.valid rules) :=
  inferInstanceAs (Decidable (_ ∧ _))

structure ReceiptFields where
  requestDigest : String
  source : ReceiptSource
  selectedIds : List String
  deriving DecidableEq

/-- `FileReviewReceipt.__post_init__`. -/
def ReceiptFields.check (r : ReceiptFields) : Except String Unit := do
  ensure (isSha256 r.requestDigest = true ∧ r.source.shaped rules ∧
      (1 ≤ r.selectedIds.length ∧ r.selectedIds.length ≤ maxFiles) ∧
      (∀ id ∈ r.selectedIds, isSha256 id = true) ∧ r.selectedIds.Nodup)
    "human file receipt is invalid"
  ensure (rules.timestamp r.source.sourceUpdatedAt = true) "human file source timestamp is invalid"

structure FileReviewReceipt extends ReceiptFields where
  accepted : toReceiptFields.check rules = .ok ()

variable {rules}

instance : DecidableEq (FileReviewReceipt rules) := fun r q =>
  decidable_of_iff (r.toReceiptFields = q.toReceiptFields) (by cases r; cases q; simp)

namespace FileReviewReceipt

def construct (r : ReceiptFields) : Except String (FileReviewReceipt rules) :=
  match h : r.check rules with
  | .ok () => .ok ⟨r, h⟩
  | .error message => .error message

def toDict (r : FileReviewReceipt rules) : Json :=
  .obj [("schema_version", .str "human-file-receipt-v1"),
    ("request_digest", .str r.requestDigest),
    ("request_comment_id", .int r.source.requestCommentId),
    ("source_comment_id", .int r.source.sourceCommentId),
    ("source_updated_at", .str r.source.sourceUpdatedAt),
    ("source_sha256", .str r.source.sourceSha256), ("actor_id", .int r.source.actorId),
    ("actor", .str r.source.actor), ("selected_ids", .arr (r.selectedIds.map .str))]

end FileReviewReceipt

/-- `sorted(parts, key=lambda part: part.request_digest)`. -/
def byDigest (parts : List (FileReviewReceipt rules)) : List (FileReviewReceipt rules) :=
  parts.insertionSort (fun p q => p.requestDigest ≤ q.requestDigest)

/-- The receipts of the parts of one request before their checks as a group. -/
structure ReceiptGroupFields (rules : ConfirmationRules) where
  requestDigest : String
  parts : List (FileReviewReceipt rules)

namespace ReceiptGroupFields

def selectedIds (g : ReceiptGroupFields rules) : List String :=
  g.parts.flatMap (fun part => part.selectedIds)

def toDict (g : ReceiptGroupFields rules) : Json :=
  .obj [("schema_version", .str "human-file-receipt-group-v1"),
    ("request_digest", .str g.requestDigest),
    ("parts", .arr (g.parts.map FileReviewReceipt.toDict))]

/-- The parts are in order, bound to different requests, and one source's. -/
def coherent (g : ReceiptGroupFields rules) : Prop :=
  g.parts = byDigest g.parts ∧
    (g.parts.map (fun part => part.requestDigest)).Nodup ∧ g.selectedIds.Nodup ∧
    ∀ part ∈ g.parts, ∀ first ∈ g.parts.head?, part.source = first.source

instance (g : ReceiptGroupFields rules) : Decidable g.coherent :=
  inferInstanceAs (Decidable (_ ∧ _))

/-- `FileReviewReceiptGroup.__post_init__`. -/
def check (g : ReceiptGroupFields rules) : Except String Unit := do
  ensure (isSha256 g.requestDigest = true ∧ 1 ≤ g.parts.length ∧ g.parts.length ≤ maxFiles)
    "human file receipt group is invalid"
  ensure g.coherent "human file receipt group parts conflict"
  ensure ((encode (canonical g.toDict)).length ≤ maxDocumentBytes)
    "human file receipt group exceeds the document bound"

end ReceiptGroupFields

structure FileReviewReceiptGroup (rules : ConfirmationRules) extends ReceiptGroupFields rules where
  accepted : toReceiptGroupFields.check = .ok ()

def FileReviewReceiptGroup.construct (g : ReceiptGroupFields rules) :
    Except String (FileReviewReceiptGroup rules) :=
  match h : g.check with
  | .ok () => .ok ⟨g, h⟩
  | .error message => .error message

/-- `FileReviewReceiptValue`. -/
inductive ReceiptValue (rules : ConfirmationRules)
  | one (receipt : FileReviewReceipt rules)
  | group (receipts : FileReviewReceiptGroup rules)

namespace ReceiptValue

def selectedIds : ReceiptValue rules → List String
  | one receipt => receipt.selectedIds
  | group receipts => receipts.selectedIds

def toDict : ReceiptValue rules → Json
  | one receipt => receipt.toDict
  | group receipts => receipts.toDict

end ReceiptValue

/-- The files of a part that a selection names. -/
def selectedIn {u : UnicodeRules} (selected : List String) (files : List (UnsupportedFile u)) :
    List String :=
  (files.map (fun f => f.fileId)).filter (· ∈ selected)

/-- What the selection is checked for before any receipt is made. -/
def selectable (request : FileReviewRequest rules.unicode) (selected : List String) : Prop :=
  selected ≠ [] ∧ (∀ id ∈ selected, isSha256 id = true) ∧ selected.Nodup ∧
    ∀ id ∈ selected, id ∈ request.fileIds

instance (request : FileReviewRequest rules.unicode) (selected : List String) :
    Decidable (selectable request selected) := inferInstanceAs (Decidable (_ ∧ _))

/-- The receipts of the parts with a selected file, in the order of the parts. -/
def partReceipts (request : FileReviewRequest rules.unicode) (source : ReceiptSource)
    (selected : List String) : Except String (List (FileReviewReceipt rules)) :=
  (request.parts.filter (fun files => selectedIn selected files ≠ [])).mapM (fun files =>
    FileReviewReceipt.construct
      { requestDigest := partDigest request.snapshot files, source,
        selectedIds := selectedIn selected files })

/-- `build_receipt`. -/
def buildReceipt (request : FileReviewRequest rules.unicode) (source : ReceiptSource)
    (selected : List String) : Except String (ReceiptValue rules) := do
  ensure (selectable request selected) "human file receipt selection is invalid"
  match request.parts with
  | [_] => do
    let receipt ← FileReviewReceipt.construct
      { requestDigest := request.digest, source, selectedIds := selected }
    pure (.one receipt)
  | _ => do
    let receipts ← partReceipts request source selected
    let group ← FileReviewReceiptGroup.construct
      { requestDigest := request.digest, parts := byDigest receipts }
    pure (.group group)

def receiptKeys : List String :=
  ["schema_version", "request_digest", "request_comment_id", "source_comment_id",
    "source_updated_at", "source_sha256", "actor_id", "actor", "selected_ids"]

def readReceiptText (value : Option Json) : Except String String :=
  Json.readText (fun _ => true) "human file receipt is invalid" value

def readReceiptInteger : Option Json → Except String Int
  | some (.int i) => .ok i
  | _ => .error "human file receipt is invalid"

/-- `FileReviewReceipt.from_dict`. -/
def readReceipt (value : Json) : Except String (FileReviewReceipt rules) := do
  closed receiptKeys value
  let items ← readItems "human-file-receipt-v1" "selected_ids"
    "human file receipt schema is invalid" value
  let requestDigest ← readReceiptText (value.get? "request_digest")
  let requestCommentId ← readReceiptInteger (value.get? "request_comment_id")
  let sourceCommentId ← readReceiptInteger (value.get? "source_comment_id")
  let sourceUpdatedAt ← readReceiptText (value.get? "source_updated_at")
  let sourceSha256 ← readReceiptText (value.get? "source_sha256")
  let actorId ← readReceiptInteger (value.get? "actor_id")
  let actor ← readReceiptText (value.get? "actor")
  let selectedIds ← items.mapM (fun item => readReceiptText (some item))
  FileReviewReceipt.construct
    { requestDigest, selectedIds,
      source := ⟨requestCommentId, sourceCommentId, sourceUpdatedAt, sourceSha256, actorId, actor⟩ }

/-- `FileReviewReceiptGroup.from_dict`. -/
def readReceiptGroup (value : Json) : Except String (FileReviewReceiptGroup rules) := do
  closed ["schema_version", "request_digest", "parts"] value
  let items ← readItems "human-file-receipt-group-v1" "parts"
    "human file receipt group schema is invalid" value
  let requestDigest ← Json.readText (fun _ => true) "human file receipt group schema is invalid"
    (value.get? "request_digest")
  ensure (1 ≤ items.length ∧ items.length ≤ maxFiles)
    "human file receipt group exceeds its part bound"
  let parts ← items.mapM readReceipt
  FileReviewReceiptGroup.construct { requestDigest, parts }

def parseReceipt (value : Json) : Except String (ReceiptValue rules) :=
  if value.get? "schema_version" = some (.str "human-file-receipt-group-v1") then do
    let group ← readReceiptGroup value
    pure (.group group)
  else do
    let receipt ← readReceipt value
    pure (.one receipt)

end Receipts
end ReviewSensei.HumanFiles
