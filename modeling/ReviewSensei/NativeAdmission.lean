import ReviewSensei.NativeCapacity

/-! How a guard is made, seeded with what is there, told of what is prepared, and answered. -/
namespace ReviewSensei.NativeCapacity
open Packed Slots

namespace Guard

/-- The arguments of the constructor that reach the promises. -/
structure Admission where
  reserve : Surface → SurfaceReserve
  oldChecksOutsideCurrentHead : Bool
  nativeProfile : Option NativeProfile
  cursor : Bool
  closureWire : Nat
  reply : Bool
  completeTail : Bool
  commentPlan : Option CommentAllocationPlan
  commentBounds : Option (List Nat)
  futureParts : Nat
  futureBytes : Nat
  receiptUpdateBytes : Nat

/-- A complete review of the native profile is promised as a group. -/
def Admission.nativeGrouped (a : Admission) : Bool := a.nativeProfile.isSome && a.completeTail

def Admission.promises (rules : CapacityRules) (a : Admission) : Promises where
  commentBounds := a.commentBounds
  futureParts := a.futureParts
  futureBytes := a.futureBytes
  reviewBounds :=
    if a.nativeGrouped then List.replicate 8 8192 ++ [6 * 65536 + 1024, a.closureWire]
    else if a.cursor then [a.closureWire, a.closureWire] else []
  checkBounds := if a.cursor then [a.closureWire, a.closureWire] else []
  inlineBounds :=
    if a.nativeGrouped then List.replicate rules.findings rules.largestSelectedItem
    else if a.cursor && a.reply then [6 * 16384 + 1024] else []
  reactionBounds := if a.cursor then [4096] else []
  issueUpdateBytes := 2 * a.closureWire + a.receiptUpdateBytes

def Admission.guard (rules : CapacityRules) (a : Admission) : Guard where
  reserve := a.reserve
  oldChecksOutsideCurrentHead := a.oldChecksOutsideCurrentHead
  nativeProfile := a.nativeProfile
  cursor := a.cursor
  closureWire := a.closureWire
  completeTail := a.completeTail
  commentPlan := a.commentPlan
  commentReadCalls := a.commentPlan.map CommentAllocationPlan.worstReadCalls
  promises := a.promises rules
  publicationPrepared := none
  stats := fun _ => ⟨0, 0, 0⟩
  objects := []
  pendingCreate := none

/-- A guard whose statistics `require` has accepted. -/
def required (rules : CapacityRules) (g : Guard) : Except String Guard :=
  (require rules g g.stats).map (fun _ => g)

/-- The constructor. -/
def init (rules : CapacityRules) (a : Admission) : Except String Guard :=
  (a.guard rules).required rules

/-- The promises `install_capacity` makes: the parts are the bounds it lists. -/
def install (rules : CapacityRules) (a : Admission) (bounds : List Nat) : Except String Guard :=
  init rules { a with
    cursor := true, commentBounds := some bounds, futureParts := bounds.length
    futureBytes := bounds.sum }

def seedRow (s : Surface) (g : Guard) (row : Nat × Json) : Guard :=
  let size := wire row.2 + responseMetadataBytes
  { g with
    stats := fun other => if other = s then (g.stats s).add size else g.stats other
    objects := g.objects.set (s, row.1) (bodyWire ((Json.get? row.2 "body").getD (.str ""))) }

/-- `seed`: rows with their ids, none of them twice. -/
def seed (rules : CapacityRules) (g : Guard) (s : Surface) (rows : List (Nat × Json)) :
    Except String Guard :=
  if (rows.map Prod.fst).Nodup then (rows.foldl (seedRow s) g).required rules
  else .error ("quarantine " ++ s.name ++ " census is incomplete or duplicated")

def seedRoot (rules : CapacityRules) (profile : NativeProfile) (g : Guard) (id : Nat) : Guard :=
  let bound := (profile.rootBodyWires.get? id).getD rules.largestSelectedItem
  { g with
    stats := addRoot g.stats (bound + responseMetadataBytes)
    objects := (g.objects.set (.inlineReplies, id) bound).set (.threads, id) bound }

/-- Roots are counted with the bounds of their bodies. -/
def seedProjectedRoots (rules : CapacityRules) (g : Guard) : Except String Guard :=
  match g.nativeProfile with
  | none => .error "native projected root capacity is unavailable"
  | some profile => (profile.rootMetadata.foldl (seedRoot rules profile) g).required rules

/-- The sizes no outstanding promise covers, each promise used once. -/
def uncovered : List Nat → List Nat → List Nat
  | [], _ => []
  | size :: sizes, available =>
    match bestFit size available with
    | some rest => uncovered sizes rest
    | none => size :: uncovered sizes available

/-- New promises hold only when `require` accepts them. -/
def promise (rules : CapacityRules) (g : Guard) (p : Promises) : Changed Unit :=
  match (g.withPromises p).required rules with
  | .ok promised => (.ok (), promised)
  | .error e => (.error e, g)

/-- `admit_comment_batch`, of bodies by their sizes. -/
def admitCommentBatch (rules : CapacityRules) (g : Guard) (bodies : List Json) : Changed Unit :=
  match g.promises.commentBounds with
  | none => (.ok (), g)
  | some bounds =>
    let extra := uncovered (bodies.map bodyWire) bounds
    if extra = [] then (.ok (), g)
    else if g.completeTail then
      (.error "quarantine prepared batch exceeds the admitted complete transaction", g)
    else
      g.promise rules { g.promises with
        commentBounds := some (bounds ++ extra), futureParts := (bounds ++ extra).length
        futureBytes := (bounds ++ extra).sum }

/-- The prepared inline comments fit the admitted ones, the smallest to the smallest. -/
def inlineFit (sizes bounds : List Nat) : Bool :=
  ((sizes.insertionSort (· ≤ ·)).zip (bounds.insertionSort (· ≤ ·))).all
    (fun pair => decide (pair.1 ≤ pair.2))

/-- `admit_publication`. -/
def admitPublication (rules : CapacityRules) (g : Guard) (reviewWire : Nat)
    (inlineWires : List Nat) : Changed Unit :=
  if g.cursor = false then (.ok (), g)
  else if g.nativeProfile.isSome && g.completeTail then
    (.error "complete grouped admission cannot use a legacy publication", g)
  else
    match g.publicationPrepared with
    | some prepared =>
      if (reviewWire, inlineWires) ≠ prepared then
        (.error "quarantine prepared publication changed", g)
      else (.ok (), g)
    | none =>
      if g.completeTail = true ∧ (largestOf g.promises.reviewBounds < reviewWire ∨
          g.promises.inlineBounds.length < inlineWires.length ∨
          inlineFit inlineWires g.promises.inlineBounds = false) then
        (.error "quarantine publication exceeds the admitted complete transaction", g)
      else
        (g.promise rules { g.promises with
          reviewBounds := [max g.closureWire reviewWire, g.closureWire]
          inlineBounds := inlineWires }).andThen (fun _ g =>
            (.ok (), { g with publicationPrepared := some (reviewWire, inlineWires) }))

/-- What a response says of the object that was created. -/
structure Created where
  id : Nat
  body : Option Json

def sessionMarkerAnyVersion : String := "<!-- reviewsensei:session:"

def receiptMarker : String := "<!-- reviewsensei:command-receipt:v1 "

/-- `part in text`. -/
def contains (text part : String) : Bool := decide (part.toList <:+: text.toList)

/-- A text that is never written a second time. -/
def immutableText (text : String) : Bool :=
  !contains text sessionMarkerAnyVersion && !text.startsWith (operationMarker ++ "\n") &&
    !contains text receiptMarker

theorem refined_size (plan : CommentAllocationPlan) (id bound : Nat)
    (h : plan.known.length + plan.unknown.length < maxComments) :
    (plan.known ++ [(id, bound)]).length + plan.unknown.length ≤ maxComments := by
  rw [List.length_append, List.length_singleton]
  omega

/-- The plan with one more known comment, when it is one. -/
def refinedPlan (plan : CommentAllocationPlan) (id bound : Nat) : Option CommentAllocationPlan :=
  if h : id ∉ plan.known.keys ∧ plan.known.length + plan.unknown.length < maxComments ∧ 0 < id ∧
      0 < bound ∧ bound ≤ maxGithubResponseBytes - outerBytes - nodeMetadataBytes then
    some
      { plan with
        known := plan.known ++ [(id, bound)]
        known_nodup := by
          have hkeys : Dict.keys (plan.known ++ [(id, bound)]) = plan.known.keys ++ [id] := by
            simp [Dict.keys]
          rw [hkeys]
          exact plan.known_nodup.append (List.nodup_singleton id)
            (List.disjoint_singleton.mpr h.1)
        metadata_known := by
          intro key hkey
          have hold := plan.metadata_known key hkey
          simp only [Dict.keys, List.map_append] at hold ⊢
          exact List.mem_append_left _ hold
        size := refined_size plan id bound h.2.1
        ids := by
          intro key hkey
          simp only [Dict.keys, List.map_append, List.map_cons, List.map_nil,
            List.mem_append, List.mem_singleton] at hkey
          rcases hkey with hold | hnew
          · exact plan.ids key hold
          · rw [hnew]
            exact h.2.2.1
        bound := by
          intro b hb
          simp only [List.map_append, List.map_cons, List.map_nil, List.mem_append,
            List.mem_singleton] at hb
          rcases hb with (hold | hnew) | hunknown
          · exact plan.bound b (List.mem_append_left _ hold)
          · rw [hnew]
            exact h.2.2.2
          · exact plan.bound b (List.mem_append_right _ hunknown) }
  else none

/-- `_bind_immutable_comment_capacity`; a bound that no plan may hold is an error. -/
def bindImmutable (g : Guard) (id : Nat) (submitted : Json) : Changed Unit :=
  match g.commentPlan, g.commentReadCalls, Json.get? submitted "body" with
  | some plan, some calls, some (.str text) =>
    if id = 0 ∨ id ∈ plan.known.keys ∨ immutableText text = false ∨
        maxComments ≤ plan.known.length + plan.unknown.length then (.ok (), g)
    else
      match refinedPlan plan id (bodyWire (.str text)) with
      | none => (.error "packed comment allocation capacity plan is invalid", g)
      | some refined =>
        (.ok (), if refined.worstReadCalls ≤ calls then { g with commentPlan := some refined }
          else g)
  | _, _, _ => (.ok (), g)

/-- `after_response`: only the response to its own create binds an object. -/
def afterResponse (g : Guard) (method : String) (created : Option Created) : Changed Unit :=
  match g.pendingCreate, created with
  | some (s, size, submitted), some c =>
    if method = "POST" then
      let bound : Guard := { g with
        pendingCreate := none, objects := g.objects.set (s, c.id) size }
      if s = .issueComments ∧ c.body = Json.get? submitted "body" then
        bound.bindImmutable c.id submitted
      else (.ok (), bound)
    else (.ok (), g)
  | _, _ => (.ok (), g)

end Guard

end ReviewSensei.NativeCapacity
