import ReviewSensei.Finalize

/-! What a finalization reads of the responses of the host: the pull request, the pages of review
threads and the list of reviews. -/
namespace ReviewSensei

namespace Json

def isObject : Json → Bool
  | obj _ => true
  | _ => false

/-- `value[a][b]…` along the names. -/
def path? (j : Json) (names : List String) : Option Json := names.foldlM get? j

end Json

open Approval (ReviewApprovalEligibility)

namespace Finalize
open Human (PendingHumanReview FindingFields)
open Session (isGitSha strip)

/-- How a read fails: with an error of the package, or with one that nothing declares. -/
inductive Failure
  | declared (message : String)
  | undeclared
  deriving DecidableEq, Repr

def declare {α : Type} : Except String α → Except Failure α
  | .ok a => .ok a
  | .error message => .error (.declared message)

/-- A response; an empty one has no value, which is `null`. -/
structure Reply where
  status : Nat
  payload : Json

/-- How a request ends. -/
inductive Answer
  | reply (r : Reply)
  /-- `GitHubHTTPTransientError`. -/
  | transient
  | failed (message : String)

section PullRequest

def invalidPreflight : String := "approval finalization preflight was invalid"

/-- The identity of a pull request that is open, on its head and not from a fork. -/
def readIdentity (appSlug : String) (payload : Json) : Except String Look :=
  match payload.path? ["base", "repo", "id"], payload.path? ["base", "sha"],
      payload.path? ["user", "login"] with
  | some (.int id), some (.str baseSha), some (.str login) => do
    ensure (1 ≤ id ∧ isGitSha baseSha = true ∧ strip login ≠ "") invalidPreflight
    return .live ⟨id.toNat, baseSha, login = appSlug⟩
  | _, _, _ => .error invalidPreflight

/-- A repository that is no fork and has the name of the call. -/
def ownRepository (repository : String) (repo : Json) : Bool :=
  repo.get? "fork" = some (.bool false) && repo.get? "full_name" = some (.str repository)

def readRepositories (repository appSlug : String) (payload : Json) : Except String Look :=
  match payload.path? ["head", "repo"], payload.path? ["base", "repo"] with
  | some (.obj headRepo), some (.obj baseRepo) =>
    if ownRepository repository (.obj headRepo) && ownRepository repository (.obj baseRepo) then
      readIdentity appSlug payload
    else .ok (.skip .fork)
  | _, _ => .error invalidPreflight

def readSides (repository headSha appSlug : String) (payload : Json) : Except String Look :=
  match payload.get? "head", payload.get? "base" with
  | some (.obj head), some (.obj _) =>
    if Json.field? head "sha" ≠ some (.str headSha) then .ok (.skip .staleHead)
    else readRepositories repository appSlug payload
  | _, _ => .error invalidPreflight

def succeeded (status : Nat) : Prop := 200 ≤ status ∧ status < 300

instance (status : Nat) : Decidable (succeeded status) := inferInstanceAs (Decidable (_ ∧ _))

/-- `_preflight`. -/
def preflight (repository headSha appSlug : String) : Answer → Except String Look
  | .transient => .error "GitHub request failed"
  | .failed message => .error message
  | .reply r =>
    if r.status = 404 then .error "review target was not found"
    else if ¬ succeeded r.status ∨ r.payload.isObject = false then
      .error "approval finalization preflight failed"
    else if r.payload.get? "state" ≠ some (.str "open") ∨
        r.payload.get? "draft" = some (.bool true) then .ok (.skip .prState)
    else readSides repository headSha appSlug r.payload

end PullRequest

section Threads

/-- What the bodies of a review are read as. -/
structure BodyRules where
  casefold : String → String
  /-- `finding_instance_from_body`. -/
  identity : String → Option String
  /-- `finding_publication_scope`; `int` may refuse a number of its marker. -/
  scope : String → Except Failure (Option FindingScope)

variable (rules : BodyRules)

/-- `graphql_app_author`; `none` is its error. -/
def graphqlAppAuthor (appSlug : String) (author : Option Json) : Option Bool :=
  match author.bind (·.get? "login") with
  | some (.str text) =>
    let login := rules.casefold text
    let slug := rules.casefold appSlug
    let kind := (author.bind (·.get? "__typename")).getD .null
    if ¬ (login = slug ∨ slug = login ++ "[bot]") then some false
    else if login = slug ∧ kind = .null then some true
    else match kind with
      | .str k => if k = "" then none else some (k = "Bot")
      | _ => none
  | _ => some false

/-- `finding_blocks_approval` of a body without a marker. -/
def legacyBlocks (body : String) : Option Bool :=
  if body.startsWith "[🚫 Blocking]" then some true
  else if body.startsWith "[💬 Non-blocking]" then some false
  else none

/-- The body of a root of the App. -/
def readBody (body : Option Json) : Except Failure Root :=
  match body with
  | some (.str text) => do
    let scope ← rules.scope text
    return {
      ofApp := some true
      identity := rules.identity text
      scope := scope
      blocksApproval := legacyBlocks text }
  | _ => .ok { ofApp := some true, identity := none, scope := none, blocksApproval := none }

/-- A root; only the body of one of the App is read. -/
def readRoot (appSlug : String) (root : Json) : Except Failure Root :=
  let ofApp := graphqlAppAuthor rules appSlug (root.get? "author")
  if ofApp = some true then readBody rules (root.get? "body")
  else .ok { ofApp := ofApp, identity := none, scope := none, blocksApproval := none }

/-- The one root of a thread. -/
def rootOf (node : Json) : Option Json :=
  match node.path? ["comments", "nodes"] with
  | some (.arr [.obj root]) => some (.obj root)
  | _ => none

/-- One node of a list of threads. -/
def readThread (appSlug : String) (node : Json) : Except Failure Thread :=
  match node.get? "isResolved" with
  | some (.bool resolved) =>
    match rootOf node with
    | some root => do
      let root ← readRoot rules appSlug root
      return ⟨some resolved, some root⟩
    | none => .ok ⟨some resolved, none⟩
  | _ => .ok ⟨none, none⟩

def noteNode (appSlug : String) (place : Place) (honored : List String) (facts : RootFacts)
    (node : Json) : Except Failure RootFacts := do
  let t ← readThread rules appSlug node
  declare (noteThread place honored facts t)

/-- `_blocking_root_facts`, of the nodes themselves. -/
def scanNodes (appSlug : String) (place : Place) (honored : List String) (nodes : List Json) :
    Except Failure RootFacts :=
  nodes.foldlM (noteNode rules appSlug place honored) {}

/-- The answer to the request for a page, under the size that it was last asked with. -/
structure PageAnswer where
  answer : Answer
  size : Nat

def invalidThreads : String := "review thread response was invalid"

/-- The threads of a page and what follows it. -/
structure Page where
  nodes : List Json
  info : Json

def readConnection (size : Nat) (payload : Json) : Except String Page :=
  let threads := ["data", "repository", "pullRequest", "reviewThreads"]
  match payload.path? (threads ++ ["nodes"]), payload.path? (threads ++ ["pageInfo"]) with
  | some (.arr nodes), some (.obj info) => do
    ensure (nodes.length ≤ size) invalidThreads
    return ⟨nodes, .obj info⟩
  | _, _ => .error invalidThreads

def readPage (page : PageAnswer) : Except String Page :=
  match page.answer with
  | .transient => .error "review thread lookup failed temporarily"
  | .failed _ => .error "review thread lookup failed"
  | .reply r =>
    if r.status = 429 ∨ 500 ≤ r.status then .error "review thread lookup failed temporarily"
    else if ¬ succeeded r.status ∨ r.payload.isObject = false then
      .error "review thread lookup failed"
    else if ((r.payload.get? "errors").getD .null ≠ .null ∧
        r.payload.get? "errors" ≠ some (.arr [])) then .error "review thread lookup failed"
    else readConnection page.size r.payload

/-- Whether a page is not the last one. -/
def hasNextPage (info : Json) : Except String Bool :=
  match info.get? "hasNextPage", info.get? "endCursor" with
  | some (.bool false), _ => .ok false
  | some (.bool true), some (.str cursor) => do
    ensure (cursor ≠ "") invalidThreads
    return true
  | _, _ => .error invalidThreads

def RootFacts.join (facts page : RootFacts) : RootFacts where
  openBlocking := facts.openBlocking || page.openBlocking
  resolvedInstances := facts.resolvedInstances ++ page.resolvedInstances

/-- The pages from one on, as long as requests are left. -/
def scanPages (appSlug : String) (place : Place) (honored : List String)
    (pages : Nat → PageAnswer) : Nat → Nat → RootFacts → Except Failure RootFacts
  | 0, _, _ => .error (.declared "review thread pagination exceeded configured limit")
  | left + 1, first, facts => do
    let page ← declare (readPage (pages first))
    let found ← scanNodes rules appSlug place honored page.nodes
    let next ← declare (hasNextPage page.info)
    if next then scanPages appSlug place honored pages left (first + 1) (facts.join found)
    else .ok (facts.join found)

def maxReviewThreadPages : Nat := 10

/-- Where the threads are read: of a native census, or page by page. -/
inductive ThreadSource
  | native (nodes : Except String (List Json))
  | paged (pages : Nat → PageAnswer)

/-- `_scan_blocking_threads`; a repository that a preflight was asked for has both its names. -/
def scanBlockingThreads (appSlug : String) (place : Place) (honored : List String) :
    ThreadSource → Except Failure RootFacts
  | .native nodes => do
    let nodes ← declare nodes
    scanNodes rules appSlug place honored nodes
  | .paged pages => scanPages rules appSlug place honored pages maxReviewThreadPages 0 {}

end Threads

section Reviews
variable {rules : Human.Rules}

/-- What the reviews of a pull request are read as. -/
structure ReviewRules (rules : Human.Rules) extends BodyRules where
  /-- `str` of a value that is no text. -/
  display : Json → String
  /-- `parse_finding_index` on this repository, pull request and head. -/
  index : Nat → Nat → String → String → Except Failure (Option FindingIndex)
  /-- `approval_eligibility_from_body`, with the readers of the review. -/
  eligibility : Json → Except Failure (Option (ReviewApprovalEligibility rules))
  /-- The reader of a referenced inventory accepts the review among all reviews. -/
  rootValid : Json → List Json → Bool

variable (rs : ReviewRules rules)

def findingIndexPrefix : String := "<!-- reviewsensei:finding-index:v1"
def eligibilityPrefix : String := "<!-- reviewsensei:eligibility:v1"
def approvalPrefix : String := "<!-- reviewsensei:approval:v1"

/-- `body.count(marker)`; a marker does not overlap itself. -/
def markCount (marker body : String) : Nat :=
  (body.toList.tails.filter marker.toList.isPrefixOf).length

/-- `str(review.get("user", \x7b\x7d).get("login", ""))`; a user that is no object has no `get`. -/
def loginText (review : Json) : Except Failure String :=
  match review.get? "user" with
  | none => .ok ""
  | some (.obj user) =>
    match Json.field? user "login" with
    | none => .ok ""
    | some (.str login) => .ok login
    | some other => .ok (rs.display other)
  | some _ => .error .undeclared

/-- The review is of this head. -/
def onHead (headSha : String) (review : Json) : Bool :=
  review.isObject && review.get? "commit_id" = some (.str headSha)

/-- The index of the body of an App review. -/
def readIndex (place : Place) (body : Option Json) : Except Failure (Option FindingIndex) :=
  match body with
  | some (.str text) =>
    if markCount findingIndexPrefix text = 0 then .ok none
    else if markCount findingIndexPrefix text ≠ 1 then
      .error (.declared "finding index is ambiguous")
    else do
      let found ← rs.index place.repositoryId place.pullRequest place.headSha text
      match found with
      | none => .error (.declared "finding index scope is invalid")
      | some index => .ok (some index)
  | _ => .ok none

/-- One review of the walk for the index. -/
def reviewIndex (appSlug : String) (place : Place) (review : Json) :
    Except Failure (Option FindingIndex) :=
  if onHead place.headSha review = false then .ok none
  else do
    let login ← loginText rs review
    if rs.casefold login ≠ rs.casefold appSlug then .ok none
    else readIndex rs place (review.get? "body")

/-- The index of the result among those of the head; all of them have to be the same. -/
def matchingIndex (indexes : List FindingIndex) (resultDigest : String) :
    Except Failure (Option FindingIndex) :=
  if indexes = [] then .ok none
  else match indexes.filter (fun i => i.resultDigest = resultDigest) with
    | [] => .error (.declared "finding index does not match current eligibility")
    | first :: others =>
      if ∃ other ∈ others, other ≠ first then
        .error (.declared "finding index does not match current eligibility")
      else .ok (some first)

/-- `finding_index_from_reviews`, for a given eligibility. -/
def findingIndexFromReviews (appSlug : String) (place : Place) (resultDigest : String)
    (reviews : List Json) : Except Failure (Option FindingIndex) := do
  let found ← reviews.reverse.mapM (reviewIndex rs appSlug place)
  matchingIndex (found.filterMap id) resultDigest

/-- An App review on the head whose body carries an eligibility. -/
def carriesEligibility (appSlug headSha : String) (review : Json) : Bool :=
  onHead headSha review &&
    (match review.path? ["user", "login"] with
      | some (.str login) => rs.casefold login = rs.casefold appSlug
      | _ => false) &&
    (match review.get? "body" with
      | some (.str body) => markCount eligibilityPrefix body ≠ 0
      | _ => false)

/-- What the review that carries an eligibility says. -/
def readEligibility (headSha : String) (owns : Json → Bool) (all : List Json) (review : Json) :
    Except Failure (Option (ReviewApprovalEligibility rules)) :=
  if owns review = false then .ok none
  else do
    let found ← rs.eligibility review
    return found.filter (fun e => decide (e.headSha = headSha) &&
      (e.humanInventoryReference.isNone || rs.rootValid review all))

/-- `_eligibility_from_reviews`: a malformed newer record cannot reveal an older clean one. -/
def eligibilityFromReviews (appSlug headSha : String) (owns : Json → Bool) (reviews : List Json) :
    Except Failure (Option (ReviewApprovalEligibility rules)) :=
  match reviews.reverse.find? (carriesEligibility rs appSlug headSha) with
  | none => .ok none
  | some review => readEligibility rs headSha owns reviews review

/-- `_reviews_have_app_head_state`. -/
def haveAppHeadState (appSlug headSha state body : String) (reviews : List Json) : Bool :=
  reviews.any (fun review => onHead headSha review && review.get? "state" = some (.str state) &&
    review.path? ["user", "login"] = some (.str appSlug) && review.get? "body" = some (.str body))

end Reviews

section Equality
variable {rules : Human.Rules}

/-- What equality sees of a finding. -/
structure FindingKey where
  fingerprint : String
  path : String
  body : String
  requiredPaths : List String
  deriving DecidableEq

/-- What equality sees of an inventory. -/
structure InventoryKey where
  baseSha : String
  findings : List FindingKey
  resolved : List String
  deriving DecidableEq

def findingKey (f : FindingFields) : FindingKey := ⟨f.fingerprint, f.path, f.body, f.requiredPaths⟩

def inventoryKey (human : PendingHumanReview rules) : InventoryKey :=
  ⟨human.baseSha, human.findings.map (fun f => findingKey f.toFindingFields), human.resolved⟩

/-- `==` of two eligibilities, up to their partitioned roots. -/
structure Same (a b : ReviewApprovalEligibility rules) : Prop where
  head : a.headSha = b.headSha
  digest : a.resultDigest = b.resultDigest
  facts : a.facts.toFactFields = b.facts.toFactFields
  human : a.humanReview.map inventoryKey = b.humanReview.map inventoryKey
  reference : a.humanInventoryReference = b.humanInventoryReference
  historical : a.historicalAssessments = b.historicalAssessments
  quarantine : a.quarantineAssessments = b.quarantineAssessments
  union : a.nativeUnion.map (·.toUnionFields) = b.nativeUnion.map (·.toUnionFields)

instance (a b : ReviewApprovalEligibility rules) : Decidable (Same a b) :=
  decidable_of_iff (a.headSha = b.headSha ∧ a.resultDigest = b.resultDigest ∧
      a.facts.toFactFields = b.facts.toFactFields ∧
      a.humanReview.map inventoryKey = b.humanReview.map inventoryKey ∧
      a.humanInventoryReference = b.humanInventoryReference ∧
      a.historicalAssessments = b.historicalAssessments ∧
      a.quarantineAssessments = b.quarantineAssessments ∧
      a.nativeUnion.map (·.toUnionFields) = b.nativeUnion.map (·.toUnionFields))
    ⟨fun ⟨h1, h2, h3, h4, h5, h6, h7, h8⟩ => ⟨h1, h2, h3, h4, h5, h6, h7, h8⟩,
      fun h => ⟨h.head, h.digest, h.facts, h.human, h.reference, h.historical, h.quarantine,
        h.union⟩⟩

end Equality
end Finalize
end ReviewSensei
