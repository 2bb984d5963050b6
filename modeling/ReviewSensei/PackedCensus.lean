import ReviewSensei.PackedBound
import ReviewSensei.SessionData
import ReviewSensei.JsonFields

/-! The census of packed comments: membership, complete bodies page by page, membership again. -/
namespace ReviewSensei.Packed
open Session (isGitSha)
open Slots (takeSlot lastSum)

/-- `wire`: the text is ASCII, so that its characters are its bytes. -/
def wire (j : Json) : Nat := (j.chars true).length

structure RepositoryRef where
  databaseId : Nat
  nameWithOwner : String
  deriving DecidableEq

structure Author where
  kind : String
  login : String
  databaseId : Option Nat := none
  deriving DecidableEq

/-- A native comment without its body. -/
structure CommentRow where
  fullDatabaseId : Nat
  createdAt : String
  updatedAt : String
  author : Option Author
  number : Nat
  repository : RepositoryRef
  deriving DecidableEq

def RepositoryRef.toJson (r : RepositoryRef) : Json :=
  .obj [("databaseId", .int r.databaseId), ("nameWithOwner", .str r.nameWithOwner)]

def Author.toJson (a : Author) : Json :=
  .obj ([("__typename", .str a.kind), ("login", .str a.login)] ++
    Json.optional "databaseId" (a.databaseId.map (fun n => .int n)))

namespace CommentRow

def fields (r : CommentRow) : List (String × Json) :=
  [("fullDatabaseId", .str (toString r.fullDatabaseId)), ("createdAt", .str r.createdAt),
    ("updatedAt", .str r.updatedAt), ("author", (r.author.map Author.toJson).getD .null),
    ("pullRequest", .obj [("number", .int r.number), ("repository", r.repository.toJson)])]

def wire (r : CommentRow) : Nat := Packed.wire (.obj r.fields)

end CommentRow

structure CommentNode where
  row : CommentRow
  body : String
  deriving DecidableEq

def bodyWire (body : String) : Nat := wire (.obj [("body", .str body)])

/-- The size of a node does not depend on the place of its body. -/
def CommentNode.wire (n : CommentNode) : Nat :=
  Packed.wire (.obj (("body", .str n.body) :: n.row.fields))

/-- The pull request whose comments are read. -/
structure Identity where
  repository : String
  repositoryId : Nat
  pullRequest : Nat

def Identity.ref (identity : Identity) : RepositoryRef :=
  ⟨identity.repositoryId, identity.repository⟩

/-- What reading a comment uses of its ledger. -/
structure Ledger where
  appSlug : Option String
  casefold : String → String
  issueUrl : String

/-- A comment as the ledger has it. -/
structure Comment where
  id : Nat
  body : String
  user : Option Author
  createdAt : String
  updatedAt : String
  issueUrl : String
  deriving DecidableEq

section Rows

def maxNumericId : Nat := 9007199254740991

/-- `_repository`. -/
def requireRepository (r : RepositoryRef) (identity : Identity) : Except String Unit :=
  ensure (r = identity.ref) "quarantine census repository identity conflicts"

/-- The folded names of an App's bot. -/
def Ledger.aliases (ledger : Ledger) (slug : String) : List String :=
  ledger.casefold slug ::
    if (ledger.casefold slug).endsWith "[bot]" then
      [ledger.casefold (String.ofList (slug.toList.dropLast.dropLast.dropLast.dropLast.dropLast))]
    else []

/-- The author as the ledger names it; an alias of its own bot becomes its slug. -/
def Ledger.user (ledger : Ledger) (a : Author) : Author :=
  match ledger.appSlug with
  | some slug =>
    if a.kind = "Bot" ∧ ledger.casefold a.login ∈ ledger.aliases slug then { a with login := slug }
    else a
  | none => a

/-- What a node must say of its comment, apart from the body. -/
def requireComment (identity : Identity) (r : CommentRow) : Except String Unit := do
  ensure (1 ≤ r.fullDatabaseId ∧ r.fullDatabaseId ≤ maxNumericId)
    "quarantine census numeric comment identity is invalid"
  ensure (r.number = identity.pullRequest)
    "quarantine census comment is associated with another pull request"
  requireRepository r.repository identity
  ensure (∀ date ∈ [r.createdAt, r.updatedAt], 1 ≤ date.length ∧ date.length ≤ 64)
    "quarantine census comment body or dates are invalid"
  ensure (∀ a ∈ r.author, a.kind ∈ ["Bot", "User"] →
      a.databaseId.any (fun id => 1 ≤ id ∧ id ≤ maxNumericId) = true)
    "quarantine census numeric comment identity is invalid"

/-- A node as the ledger has it. -/
def Ledger.comment (ledger : Ledger) (n : CommentNode) : Comment where
  id := n.row.fullDatabaseId
  body := n.body
  user := n.row.author.map ledger.user
  createdAt := n.row.createdAt
  updatedAt := n.row.updatedAt
  issueUrl := ledger.issueUrl

/-- `_comment`. -/
def comment (ledger : Ledger) (identity : Identity) (n : CommentNode) : Except String Comment := do
  requireComment identity n.row
  return ledger.comment n

end Rows

/-- Retained bounds of known comments, and the slots of comments that may be there besides. -/
structure CommentAllocationPlan where
  known : Dict Nat Nat
  unknown : List Nat
  metadataKnown : Dict Nat Nat := []
  metadataUnknown : Nat := nodeMetadataBytes
  known_nodup : known.keys.Nodup
  metadata_known : ∀ id ∈ metadataKnown.keys, id ∈ known.keys
  metadata_bound : ∀ bound ∈ metadataUnknown :: metadataKnown.map Prod.snd,
    0 < bound ∧ bound ≤ nodeMetadataBytes
  size : known.length + unknown.length ≤ maxComments
  ids : ∀ id ∈ known.keys, 0 < id
  bound : ∀ bound ∈ known.map Prod.snd ++ unknown,
    0 < bound ∧ bound ≤ maxGithubResponseBytes - outerBytes - nodeMetadataBytes

theorem plain_metadata : ∀ bound ∈ nodeMetadataBytes :: List.map Prod.snd ([] : Dict Nat Nat),
    0 < bound ∧ bound ≤ nodeMetadataBytes := by decide

namespace CommentAllocationPlan
variable (plan : CommentAllocationPlan)

def isKnown (id : Nat) : Bool := plan.known.contains id

def metadataBound (id : Nat) : Nat :=
  if plan.isKnown id then (plan.metadataKnown.get? id).getD nodeMetadataBytes
  else plan.metadataUnknown

/-- Every possible row, the largest first. -/
def metadata : List Nat :=
  (plan.known.keys.map (fun id => (plan.metadataKnown.get? id).getD nodeMetadataBytes) ++
    List.replicate plan.unknown.length plan.metadataUnknown).insertionSort (· ≥ ·)

/-- Twice the largest hundred rows bound both complete windows. -/
def closingBound : Nat := 2 * (plan.metadata.take 100).sum

def worstReadCalls : Nat :=
  packedRequestBound (plan.known.map Prod.snd) plan.unknown (some plan.closingBound)

end CommentAllocationPlan

section Transport

inductive Query
  | membership
  | bodies (first : Nat) (after : Option String)
  | closing (first : Nat) (after : Option String)
  deriving DecidableEq

/-- Both windows of a membership. -/
structure Windows where
  headRefOid : String
  baseRefOid : String
  firstTotal : Nat
  lastTotal : Nat
  first : List CommentRow
  last : List CommentRow
  hasNextPage : Bool
  hasPreviousPage : Bool

structure Page where
  totalCount : Nat
  nodes : List CommentNode
  hasNextPage : Bool
  endCursor : String

/-- A complete answer; `frame` is what it has beside its rows and its nodes. -/
structure Response where
  repository : RepositoryRef
  number : Nat
  windows : Option Windows := none
  page : Option Page := none
  frame : Nat

def rowsWire (rows : List CommentRow) : Nat := (rows.map CommentRow.wire).sum

def nodesWire (nodes : List CommentNode) : Nat := (nodes.map CommentNode.wire).sum

def Windows.wire (w : Windows) : Nat := rowsWire w.first + rowsWire w.last

def Response.wire (r : Response) : Nat :=
  r.frame + (r.windows.map Windows.wire).getD 0 + (r.page.map (fun p => nodesWire p.nodes)).getD 0

/-- The answer of each call, where there is one, and whether a look at the clock is too late. -/
structure Transport where
  answer : Nat → Query → Option Response
  late : Nat → Bool

/-- `read`; it looks at the clock before and after its request. -/
def read (t : Transport) (requests calls : Nat) (q : Query) : Except String (Response × Nat) := do
  ensure (t.late (2 * calls) = false ∧ calls < requests)
    "packed comment census exceeded its physical request bound"
  match t.answer calls q with
  | none => .error "packed comment complete response is unavailable"
  | some r => do
    ensure (r.wire ≤ maxGithubResponseBytes ∧ t.late (2 * calls + 1) = false)
      "packed comment complete response is unavailable"
    return (r, calls + 1)

/-- `_cursor`. -/
def isCursor (s : String) : Bool :=
  decide (1 ≤ s.length ∧ s.length ≤ 2048) && s.toList.all (fun c => 33 ≤ c.toNat && c.toNat ≤ 126)

end Transport

section Membership
variable (plan : CommentAllocationPlan) (ledger : Ledger) (identity : Identity)

/-- One row of a window, after the rows of the window and the rows so far. -/
def addRow (acc : List Nat × List CommentRow) (row : CommentRow) :
    Except String (List Nat × List CommentRow) := do
  let _ ← comment ledger identity ⟨row, ""⟩
  ensure (row.wire ≤ plan.metadataBound row.fullDatabaseId)
    "packed comment metadata exceeds its bound"
  ensure (row.fullDatabaseId ∉ acc.1) "packed comment metadata duplicates a native identity"
  match acc.2.find? (fun r => r.fullDatabaseId = row.fullDatabaseId) with
  | some seen => do
    ensure (seen = row) "packed comment metadata overlap changed"
    return (acc.1 ++ [row.fullDatabaseId], acc.2)
  | none => .ok (acc.1 ++ [row.fullDatabaseId], acc.2 ++ [row])

def addWindow (rows window : List CommentRow) : Except String (List CommentRow) := do
  let acc ← window.foldlM (addRow plan ledger identity) ([], rows)
  return acc.2

/-- The rows of a membership in their order, with the commits it was read at. -/
structure Membership where
  rows : List CommentRow
  scope : String × String
  deriving DecidableEq

def windowsMembership (w : Windows) (number : Nat) : Except String Membership := do
  ensure (number = identity.pullRequest ∧ isGitSha w.headRefOid = true ∧
      isGitSha w.baseRefOid = true)
    "packed comment PR scope changed"
  ensure (w.firstTotal ≤ maxComments ∧ w.lastTotal = w.firstTotal ∧
      w.first.length = min 100 w.firstTotal ∧ w.last.length = min 100 w.firstTotal ∧
      w.hasNextPage = decide (100 < w.firstTotal) ∧ w.hasPreviousPage = decide (100 < w.firstTotal))
    "packed comment metadata windows are incomplete"
  let rows ← addWindow plan ledger identity [] w.first
  let rows ← addWindow plan ledger identity rows w.last
  ensure (rows.length = w.firstTotal) "packed comment membership is incomplete"
  let overlap := min 100 w.firstTotal * 2 - w.firstTotal
  ensure (w.first.drop (w.first.length - overlap) = w.last.take overlap)
    "packed comment metadata window order changed"
  return ⟨rows, (w.headRefOid, w.baseRefOid)⟩

/-- `_membership`. -/
def membership (r : Response) : Except String Membership := do
  requireRepository r.repository identity
  match r.windows with
  | none => .error "packed comment metadata is malformed"
  | some w => windowsMembership plan ledger identity w r.number

end Membership

section Walk
variable (plan : CommentAllocationPlan) (ledger : Ledger) (identity : Identity)

/-- The admitted bound of the next rows. -/
def pageBound (unknown : List Nat) (rows : List CommentRow) : Nat :=
  outerBytes + nodeMetadataBytes * rows.length +
    (rows.map (fun r => (plan.known.get? r.fullDatabaseId).getD 0)).sum +
    lastSum unknown (rows.countP (fun r => !plan.isKnown r.fullDatabaseId))

/-- The number of rows that the next page takes: the counts are tried in turn until one does not
fit. -/
def pageSize (unknown : List Nat) (rows : List CommentRow) : Nat :=
  ((List.range (min 100 rows.length)).takeWhile
    (fun i => pageBound plan unknown (rows.take (i + 1)) ≤ maxGithubResponseBytes)).length

/-- A body takes its own bound or the smallest slot it fits in. -/
def reserve (unknown : List Nat) (n : CommentNode) : Except String (List Nat) :=
  match plan.known.get? n.row.fullDatabaseId with
  | some bound => do
    ensure (bodyWire n.body ≤ bound) "packed comment positive update exceeded its reserve"
    return unknown
  | none =>
    match takeSlot (bodyWire n.body) unknown with
    | some rest => .ok rest
    | none => .error "packed comment allocation exceeded its reserve"

def readNode (acc : List Nat × List Comment) (pair : CommentRow × CommentNode) :
    Except String (List Nat × List Comment) := do
  ensure (pair.2.row = pair.1) "packed comment body/version association changed"
  let unknown ← reserve plan acc.1 pair.2
  let c ← comment ledger identity pair.2
  return (unknown, acc.2 ++ [c])

/-- What is wrong with a page that is not the next one of the walk. -/
def requirePage (page : Page) (r : Response) (total first closingWire : Nat) (more : Bool) :
    Except String Unit := do
  requireRepository r.repository identity
  ensure (r.number = identity.pullRequest ∧ page.totalCount = total ∧ page.nodes.length = first ∧
      page.hasNextPage = more ∧ isCursor page.endCursor = true ∧
      r.wire ≤ outerBytes + nodesWire page.nodes + closingWire)
    "packed comment body membership changed"

/-- What a walk has read before its next page. -/
structure WalkState where
  cursor : Option String := none
  unknown : List Nat
  collected : List Comment := []
  calls : Nat

variable (t : Transport) (requests : Nat) (opening : Membership) (closingWire : Nat)

/-- The closing membership is the opening one. -/
def requireClosing (r : Response) : Except String Unit := do
  let closing ← membership plan ledger identity r
  ensure (closing = opening) "packed comment fresh closing membership changed"

/-- A page of the walk, as the last one with the closing windows or not. -/
def readPage (rows : List CommentRow) (first : Nat) (combined : Bool) (s : WalkState) :
    Except String (Response × WalkState) := do
  ensure (s.calls + (if combined then 0 else 1) < requests)
    "packed comment bodies do not fit the admitted walk"
  let (r, calls) ← read t requests s.calls
    (if combined then .closing first s.cursor else .bodies first s.cursor)
  match r.page with
  | none => .error "packed comment complete body page is malformed"
  | some page => do
    requirePage identity page r opening.rows.length first (if combined then closingWire else 0)
      (decide (first < rows.length))
    let (unknown, collected) ← ((rows.take first).zip page.nodes).foldlM
      (readNode plan ledger identity) (s.unknown, s.collected)
    return (r, ⟨some page.endCursor, unknown, collected, calls⟩)

/-- The pages of the rows that are left; the last one may bring the closing windows. -/
def walk (rows : List CommentRow) (s : WalkState) : Except String (List Comment × Nat) :=
  if rows = [] then do
    let (r, calls) ← read t requests s.calls .membership
    requireClosing plan ledger identity opening r
    return (s.collected, calls)
  else
    let first := pageSize plan s.unknown rows
    if _h : first = 0 then .error "packed comment bodies do not fit the admitted walk"
    else
      let combined := decide (first = rows.length ∧
        pageBound plan s.unknown (rows.take first) + closingWire ≤ maxGithubResponseBytes)
      do
        let (r, s) ← readPage plan ledger identity t requests opening closingWire rows first
          combined s
        if combined then do
          requireClosing plan ledger identity opening r
          return (s.collected, s.calls)
        else walk (rows.drop first) s
termination_by rows.length
decreasing_by
  have hpos : 0 < rows.length := List.length_pos_iff.mpr ‹_›
  rw [List.length_drop]
  omega

/-- `fetch_packed_comments`, with the number of its requests. -/
def fetchPackedComments : Except String (List Comment × Nat) := do
  ensure (2 ≤ requests ∧ requests ≤ maxPaginationPages)
    "packed comment physical request bound is invalid"
  let (r, calls) ← read t requests 0 .membership
  let opening ← membership plan ledger identity r
  ensure (((opening.rows.map CommentRow.fullDatabaseId).filter plan.isKnown) = plan.known.keys)
    "packed comment retained identity order changed"
  ensure (opening.rows.countP (fun row => !plan.isKnown row.fullDatabaseId) ≤ plan.unknown.length)
    "packed comment discovery exceeds reserved old/current allocations"
  walk plan ledger identity t requests opening ((r.windows.map Windows.wire).getD 0) opening.rows
    { unknown := plan.unknown.insertionSort (· ≤ ·), calls := calls }

end Walk

end ReviewSensei.Packed
