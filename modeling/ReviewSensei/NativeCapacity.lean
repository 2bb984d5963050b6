import Mathlib.Data.List.Infix
import ReviewSensei.PackedCensus
import ReviewSensei.Slots
import ReviewSensei.JsonFields

/-! The guard of the native surfaces a quarantined run writes to: what is already there, what may
still come, and the promises its own writes consume. -/
namespace ReviewSensei.NativeCapacity
open Packed Slots

inductive Surface
  | issueComments
  | inlineReplies
  | reviews
  | checks
  | threads
  | reactions
  deriving DecidableEq

def surfaces : List Surface := [.issueComments, .inlineReplies, .reviews, .checks, .threads,
  .reactions]

def Surface.name : Surface → String
  | .issueComments => "issue_comments"
  | .inlineReplies => "inline_replies"
  | .reviews => "reviews"
  | .checks => "checks"
  | .threads => "threads"
  | .reactions => "reactions"

def responseMetadataBytes : Nat := 4096
def pageBytes : Nat := maxGithubResponseBytes - responseMetadataBytes
def maxPaginationItems : Nat := maxPaginationPages * 100
def maxPartBytes : Nat := 32768
def maxCheckPageSize : Nat := 100
def maxReviews : Nat := 200
def maxRoots : Nat := 300
def historyPageSizes : List Nat := [100, 50, 25, 10, 5, 1]
def cursorlessPageSizes : List Nat := [100, 50, 20, 10, 5, 1]

/-- `_wire`. -/
def wire (j : Json) : Nat := (Json.chars true j).length

def bodyWire (text : Json) : Nat := wire (.obj [("body", text)])

/-- What the objects of one surface amount to. -/
structure SurfaceStats where
  count : Nat
  bytes : Nat
  largest : Nat
  deriving DecidableEq

abbrev Stats := Surface → SurfaceStats

/-- One more object of this size. -/
def SurfaceStats.add (s : SurfaceStats) (size : Nat) : SurfaceStats :=
  ⟨s.count + 1, s.bytes + size, max s.largest size⟩

/-- What an old run may still have written to a surface. -/
structure SurfaceReserve where
  newObjects : Nat
  newWireBytes : Nat
  positiveUpdateBytes : Nat
  maxObjectWireBytes : Nat

structure NativeProfile where
  rootMetadata : List Nat
  rootBodyWires : Dict Nat Nat

/-- The object a path names. A thread is never named by a path. -/
structure Target where
  surface : Surface
  identifier : Option Nat
  replies : Bool
  surface_ok : surface ≠ .threads

/-- The reading of paths, the check of an operation's text, and the sizes of a full review that
its formatter gives. -/
structure CapacityRules where
  route : String → String → Option Target
  operationEnvelope : String → Except String Unit
  largestSelectedItem : Nat
  findings : Nat
  selectedTotal : Nat
  largestPacket : Nat

/-- The bounds of the requests that are still to come, and the growth reserved for updates. -/
structure Promises where
  commentBounds : Option (List Nat)
  futureParts : Nat
  futureBytes : Nat
  reviewBounds : List Nat
  checkBounds : List Nat
  inlineBounds : List Nat
  reactionBounds : List Nat
  issueUpdateBytes : Nat
  deriving DecidableEq

/-- `NativeCapacityGuard`, without the identity that only names the repository of a path. -/
structure Guard where
  reserve : Surface → SurfaceReserve
  oldChecksOutsideCurrentHead : Bool
  nativeProfile : Option NativeProfile
  cursor : Bool
  closureWire : Nat
  completeTail : Bool
  commentPlan : Option CommentAllocationPlan
  commentReadCalls : Option Nat
  promises : Promises
  publicationPrepared : Option (Nat × List Nat)
  stats : Stats
  objects : Dict (Surface × Nat) Nat
  pendingCreate : Option (Surface × Nat × Json)

section Scans

/-- The first width, from an index on, that divides an offset. -/
def alignedFrom (sizes : List Nat) (offset index : Nat) : Option Nat :=
  (List.range sizes.length).find? (fun i => decide (index ≤ i) && offset % sizes.getD i 1 == 0)

/-- The loop of `cold_rest_requests`: every probe is a request, also one whose page is too big. -/
def restWalk (sizes : List Nat) (count largest : Nat) : (fuel offset index calls : Nat) → Nat
  | 0, _, _, calls => calls
  | fuel + 1, offset, index, calls =>
    let size := sizes.getD index 1
    let amount := min size (count - offset)
    if pageBytes < amount * largest then
      match alignedFrom sizes offset (index + 1) with
      | none => maxPaginationPages + 1
      | some next => restWalk sizes count largest fuel offset next (calls + 1)
    else if amount < size then calls + 1
    else
      restWalk sizes count largest fuel (offset + amount)
        ((alignedFrom sizes (offset + amount) 0).getD 0) (calls + 1)

def coldRestRequests (count largest : Nat) (sizes : List Nat) : Nat :=
  restWalk sizes count largest (maxPaginationPages + 1) 0 0 0

def coldCursorRequests (count size largest : Nat) : Nat :=
  if count = 0 ∨ (count ≤ 100 ∧ size ≤ pageBytes) then 1
  else if pageBytes < largest then maxPaginationPages + 1
  else if 100 * largest ≤ pageBytes then (count + 99) / 100
  else
    let room := max 1 (pageBytes - largest)
    2 * (count / 100 + (size + room - 1) / room)

end Scans

section Require

def largestOf (bounds : List Nat) : Nat := bounds.foldr max 0

/-- The promises of one surface; an inline comment is also a thread. -/
def Promises.tail (p : Promises) : Surface → List Nat
  | .issueComments => []
  | .inlineReplies => p.inlineBounds
  | .reviews => p.reviewBounds
  | .checks => p.checkBounds
  | .threads => p.inlineBounds
  | .reactions => p.reactionBounds

/-- The largest comment that is still promised. -/
def Promises.largestComment (p : Promises) : Nat :=
  match p.commentBounds with
  | none => maxPartBytes
  | some [] => maxPartBytes
  | some bounds => largestOf bounds

/-- What the comments still to come add to their surface. -/
def Promises.comments (p : Promises) (closureWire : Nat) : SurfaceStats where
  count := p.futureParts
  bytes := p.futureBytes + p.futureParts * responseMetadataBytes + p.issueUpdateBytes
  largest := max (closureWire + responseMetadataBytes)
    (if p.futureParts = 0 then 0 else p.largestComment + responseMetadataBytes)

/-- The upper bounds of one surface once everything promised has been written. -/
def Guard.upper (g : Guard) (stats : Stats) (s : Surface) : SurfaceStats :=
  let current := stats s
  let old := g.reserve s
  let tail := g.promises.tail s
  let comments := if s = .issueComments then g.promises.comments g.closureWire else ⟨0, 0, 0⟩
  { count := current.count + old.newObjects + comments.count + tail.length
    bytes := current.bytes + old.newWireBytes + old.positiveUpdateBytes + comments.bytes +
      (tail.sum + tail.length * responseMetadataBytes) + old.newObjects * responseMetadataBytes
    largest := max (max current.largest (old.maxObjectWireBytes + responseMetadataBytes))
      (max (largestOf tail + responseMetadataBytes) comments.largest) }

structure Certificate where
  upper : SurfaceStats
  reads : Nat

variable (rules : CapacityRules) (g : Guard) (stats : Stats)

/-- The current check reader has exactly one page. -/
def currentChecks (s : Surface) : Except String Unit :=
  ensure (s = .checks → (stats s).count ≤ maxCheckPageSize ∧ (stats s).bytes ≤ pageBytes ∧
    (stats s).largest ≤ pageBytes) "quarantine current-check response capacity exceeded"

def nativeRoom (s : Surface) (u : SurfaceStats) : Except String Unit :=
  if s = .reviews then
    ensure (u.count ≤ maxReviews ∧ u.bytes ≤ maxPaginationPages * pageBytes)
      "quarantine native review metadata capacity exceeded"
  else do
    ensure ((stats .threads).count + g.promises.inlineBounds.length ≤ maxRoots)
      "quarantine complete native root capacity exceeded"
    ensure ((g.reserve s).newWireBytes + (g.reserve s).positiveUpdateBytes ≤
        maxPaginationPages * pageBytes) "quarantine complete conversation capacity exceeded"

def certifyNative (s : Surface) (u : SurfaceStats) : Except String Certificate := do
  ensure (u.largest ≤ pageBytes ∧ u.count ≤ maxPaginationItems)
    ("quarantine " ++ s.name ++ " capacity exceeded")
  nativeRoom g stats s u
  ensure (rules.largestPacket ≤ maxGithubResponseBytes)
    "quarantine complete native packet capacity exceeded"
  return ⟨u, 10⟩

/-- What the reader of the current head sees of the checks. -/
def checkReader (u : SurfaceStats) : SurfaceStats :=
  let tail := g.promises.checkBounds
  { count := if g.oldChecksOutsideCurrentHead then (stats .checks).count + tail.length
      else u.count
    bytes := (if g.oldChecksOutsideCurrentHead then
        (stats .checks).bytes + tail.sum + tail.length * responseMetadataBytes else u.bytes) +
      2 * g.closureWire
    largest := u.largest }

def certifyChecks (u : SurfaceStats) : Except String Certificate := do
  let reader := checkReader g stats u
  ensure (reader.count ≤ maxCheckPageSize ∧ reader.bytes ≤ pageBytes)
    "quarantine current-check transaction capacity exceeded"
  return ⟨reader, 1⟩

/-- The membership check of an admitted plan. -/
def planRoom (s : Surface) (u : SurfaceStats) : Except String Unit :=
  ensure (s = .issueComments → ∀ plan ∈ g.commentPlan,
    u.count ≤ plan.known.length + plan.unknown.length)
    "quarantine comment allocation membership exceeds admission"

def scanReads (s : Surface) (u : SurfaceStats) : Nat :=
  if s = .issueComments ∧ g.commentPlan.isSome then
    g.commentReadCalls.getD (maxPaginationPages + 1)
  else if s = .issueComments ∧ g.cursor then coldCursorRequests u.count u.bytes u.largest
  else coldRestRequests u.count u.largest historyPageSizes

def reads (s : Surface) (u : SurfaceStats) : Nat :=
  if s = .issueComments ∧ g.cursor = false then
    max (scanReads g s u) (coldRestRequests u.count u.largest cursorlessPageSizes)
  else scanReads g s u

def certifyScan (s : Surface) (u : SurfaceStats) : Except String Certificate := do
  planRoom g s u
  ensure (reads g s u ≤ maxPaginationPages)
    ("quarantine " ++ s.name ++ " page/encoded-byte capacity exceeded")
  return ⟨u, reads g s u⟩

def certifyPlain (s : Surface) (u : SurfaceStats) : Except String Certificate := do
  ensure (u.count ≤ maxPaginationItems ∧ u.largest ≤ pageBytes)
    ("quarantine " ++ s.name ++ " item/response capacity exceeded")
  ensure (u.bytes ≤ maxPaginationPages * pageBytes)
    ("quarantine " ++ s.name ++ " encoded-byte capacity exceeded")
  if s = .checks then certifyChecks g stats u else certifyScan g s u

/-- One turn of the loop of `require`. -/
def certify (s : Surface) : Except String Certificate := do
  currentChecks stats s
  let u := g.upper stats s
  if g.nativeProfile.isSome ∧ s ∈ [.reviews, .inlineReplies, .threads] then
    certifyNative rules g stats s u
  else certifyPlain g stats s u

/-- `require`, with the certificates of every surface. -/
def require : Except String (List (Surface × Certificate)) :=
  surfaces.mapM (fun s => (certify rules g stats s).map (fun c => (s, c)))

end Require

/-- A call that may have changed the guard before it raises. -/
abbrev Changed (α : Type) := Except String α × Guard

def Changed.andThen {α β : Type} (x : Changed α) (f : α → Guard → Changed β) : Changed β :=
  match x with
  | (.error e, g) => (.error e, g)
  | (.ok a, g) => f a g

namespace Guard

def withPromises (g : Guard) (p : Promises) : Guard := { g with promises := p }

/-- One request as `_before_request` reads it. -/
structure Write where
  target : Target
  new : Bool
  fields : List (String × Json)

namespace Write
variable (w : Write)

def surface : Surface := w.target.surface

def body : Json := .obj w.fields

/-- The listing of reviews does not repeat the submitted comments. -/
def objectBody : Json :=
  if w.surface = .reviews then .obj (w.fields.filter (fun f => f.1 ≠ "comments")) else w.body

def objectWire : Nat := wire w.objectBody

def size : Nat := w.objectWire + responseMetadataBytes

/-- The inline comments a review carries. -/
def comments : Option (List Json) :=
  match w.surface, Json.field? w.fields "comments" with
  | .reviews, some (.arr items) => some items
  | _, _ => none

/-- A comment that opens a thread. -/
def opensThread : Bool :=
  w.surface == .inlineReplies && w.new && (Json.field? w.fields "in_reply_to").isNone &&
    !w.target.replies

end Write

def operationMarker : String := "<!-- review-sensei-operation -->"

/-- A complete operation text keeps its envelope. -/
def checkEnvelope (rules : CapacityRules) (g : Guard) (w : Write) : Except String Unit :=
  match Json.field? w.fields "body" with
  | some (.str text) =>
    if w.surface = .issueComments ∧ g.completeTail = true ∧
        text.startsWith (operationMarker ++ "\n") = true then rules.operationEnvelope text
    else .ok ()
  | _ => .ok ()

/-- A retained comment keeps its admitted size. -/
def checkRetained (g : Guard) (w : Write) : Except String Unit :=
  ensure (w.surface = .issueComments → ∀ plan ∈ g.commentPlan, ∀ id ∈ w.target.identifier,
      ∀ bound ∈ plan.known.get? id, w.objectWire ≤ bound)
    "quarantine retained comment exceeds its admitted final size"

def spendComment (g : Guard) (size : Nat) : Changed Unit :=
  match g.promises.commentBounds with
  | none => (.ok (), g)
  | some bounds =>
    match bestFit size bounds with
    | none => (.error "quarantine complete transaction tail is exhausted", g)
    | some rest =>
      (.ok (), g.withPromises { g.promises with
        commentBounds := some rest, futureParts := rest.length, futureBytes := rest.sum })

/-- Take one bound of a surface, with the error of its branch. -/
def spendBound (g : Guard) (size : Nat) (bounds : List Nat) (error : String)
    (set : List Nat → Promises) : Changed Unit :=
  if g.cursor then
    match bestFit size bounds with
    | none => (.error error, g)
    | some rest => (.ok (), g.withPromises (set rest))
  else (.ok (), g)

/-- A create takes the promise it was admitted with. -/
def spend (g : Guard) (w : Write) : Changed Unit :=
  let p := g.promises
  if w.new = false then (.ok (), g)
  else
    match w.surface with
    | .issueComments => g.spendComment (wire w.body)
    | .reviews => g.spendBound w.objectWire p.reviewBounds
        "quarantine native transaction tail is exhausted"
        (fun rest => { p with reviewBounds := rest })
    | .checks => g.spendBound w.objectWire p.checkBounds
        "quarantine native transaction tail is exhausted"
        (fun rest => { p with checkBounds := rest })
    | .inlineReplies => g.spendBound (wire w.body) p.inlineBounds
        "quarantine reply/reaction transaction tail is exhausted"
        (fun rest => { p with inlineBounds := rest })
    | .reactions => g.spendBound (wire w.body) p.reactionBounds
        "quarantine reply/reaction transaction tail is exhausted"
        (fun rest => { p with reactionBounds := rest })
    | .threads => (.ok (), g)

/-- The size the named object is known to have. -/
def previous (g : Guard) (w : Write) : Nat :=
  match w.target.identifier with
  | some id =>
    if w.surface ∈ [.issueComments, .inlineReplies, .reviews] then
      (g.objects.get? (w.surface, id)).getD 0 else 0
  | none => 0

/-- What the write adds to its own surface. -/
def record (g : Guard) (w : Write) : SurfaceStats :=
  let state := g.stats w.surface
  { count := state.count + if w.new then 1 else 0
    bytes := state.bytes + if w.new then w.size else w.objectWire - g.previous w
    largest := max state.largest w.size }

/-- By how much an update of a comment grows it. -/
def growth (g : Guard) (w : Write) : Nat := wire w.body - g.previous w

def updatesComment (w : Write) : Bool := w.surface == .issueComments && !w.new

def grow (g : Guard) (w : Write) : Changed Unit :=
  if g.cursor && updatesComment w then
    if g.closureWire < wire w.body ∨ g.promises.issueUpdateBytes < g.growth w then
      (.error "quarantine root update exceeds the admitted positive growth", g)
    else
      (.ok (), g.withPromises { g.promises with
        issueUpdateBytes := g.promises.issueUpdateBytes - g.growth w })
  else (.ok (), g)

/-- An inline comment is a comment and the root of a thread. -/
def addRoot (stats : Stats) (size : Nat) : Stats := fun s =>
  if s = .inlineReplies ∨ s = .threads then (stats s).add size else stats s

/-- The loop over the comments of a review, with the bounds that remain. -/
def addInline (cursor : Bool) : List Json → List Nat → Stats → Except String (List Nat × Stats)
  | [], remaining, stats => .ok (remaining, stats)
  | comment :: comments, remaining, stats =>
    let stats := addRoot stats (wire comment + responseMetadataBytes)
    if cursor then
      match bestFit (wire comment) remaining with
      | none => .error "quarantine inline publication tail is exhausted"
      | some rest => addInline cursor comments rest stats
    else addInline cursor comments remaining stats

/-- The statistics the write leads to, with the inline promises taken. -/
def candidate (g : Guard) (w : Write) : Changed Stats :=
  let stats : Stats := fun s => if s = w.surface then g.record w else g.stats s
  match w.comments with
  | some comments =>
    match addInline g.cursor comments g.promises.inlineBounds stats with
    | .error e => (.error e, g)
    | .ok (rest, stats) => (.ok stats, g.withPromises { g.promises with inlineBounds := rest })
  | none =>
    (.ok (if w.opensThread then
        fun s => if s = .threads then (stats s).add w.size else stats s else stats), g)

/-- The object a write names is from now on at least as large. -/
def remember (g : Guard) (w : Write) : Dict (Surface × Nat) Nat :=
  match w.target.identifier with
  | some id => g.objects.set (w.surface, id) (max (g.previous w) w.objectWire)
  | none => g.objects

def reserveWrite (rules : CapacityRules) (old : Promises) (w : Write) (stats : Stats) (g : Guard) :
    Changed Unit :=
  match require rules g stats with
  | .error e => (.error e, g.withPromises old)
  | .ok _ =>
    (.ok (), { g with
      stats, objects := g.remember w
      pendingCreate := if w.new then some (w.surface, w.objectWire, w.objectBody) else none })

def unit (x : Except String Unit) (g : Guard) : Changed Unit := (x, g)

/-- `_before_request`, for a request to one of the surfaces. -/
def charge (rules : CapacityRules) (g : Guard) (w : Write) : Changed Unit :=
  Changed.andThen (g.checkEnvelope rules w, g) fun _ g =>
  Changed.andThen (g.checkRetained w, g) fun _ g =>
  Changed.andThen (g.spend w) fun _ spent =>
  Changed.andThen (spent.grow w) fun _ grown =>
  Changed.andThen (grown.candidate w) fun stats charged =>
  charged.reserveWrite rules g.promises w stats

/-- What `_before_request` makes of a request. -/
def write? (rules : CapacityRules) (method path : String) (body : Json) : Option Write :=
  match body with
  | .obj fields =>
    if method ∈ ["POST", "PATCH", "PUT"] then
      (rules.route method path).map (fun target =>
        ⟨target, decide (target.identifier = none) && method == "POST", fields⟩)
    else none
  | _ => none

/-- `before_request`. -/
def beforeRequest (rules : CapacityRules) (g : Guard) (method path : String) (body : Json) :
    Changed Unit :=
  let fresh : Guard := { g with pendingCreate := none }
  match write? rules method path body with
  | none => (.ok (), fresh)
  | some w =>
    match fresh.charge rules w with
    | (.error e, changed) => (.error e, changed.withPromises g.promises)
    | (.ok (), changed) => (.ok (), changed)

end Guard

end ReviewSensei.NativeCapacity
