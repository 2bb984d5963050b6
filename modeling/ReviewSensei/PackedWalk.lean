import ReviewSensei.PackedCensus
import Mathlib.Data.List.Count
import Mathlib.Tactic.IntervalCases

/-! The walk over the comments of a pull request, under the bound that was proved for it. -/
namespace ReviewSensei.Packed
open Session (isGitSha)
open Slots (takeSlot takeSlots lastSum Dominates)

section Sizes

theorem wire_cons (key : String) (j : Json) (f : String × Json) (fs : List (String × Json)) :
    wire (.obj ((key, j) :: f :: fs)) = wire (.obj [(key, j)]) + wire (.obj (f :: fs)) - 1 := by
  unfold wire
  simp only [Json.chars, Json.charsOfFields, List.length_cons, List.length_append, List.length_nil]
  omega

theorem wire_pos (fields : List (String × Json)) : 0 < wire (.obj fields) := by
  unfold wire
  rw [Json.chars, List.length_cons]
  exact Nat.succ_pos _

/-- A body adds its own object to a row, less one brace and with one comma. -/
theorem nodeWire_add (n : CommentNode) : n.wire + 1 = n.row.wire + bodyWire n.body := by
  obtain ⟨f, fs, hfields⟩ : ∃ f fs, n.row.fields = f :: fs := ⟨_, _, rfl⟩
  have hcons := wire_cons "body" (.str n.body) f fs
  have hpos := wire_pos (f :: fs)
  unfold CommentNode.wire CommentRow.wire bodyWire
  rw [hfields]
  omega

end Sizes

/-- The comments of a pull request as the host lists them, in the order of their cursors. -/
structure NativeListing where
  nodes : List CommentNode
  scope : String × String
  cursor : Nat → String
  /-- The place after a cursor. -/
  offset : String → Nat
  /-- What the answer to a query has beside its rows and its nodes. -/
  frame : Query → Nat

namespace NativeListing
variable (l : NativeListing)

def rows : List CommentRow := l.nodes.map CommentNode.row

def windows : Windows where
  headRefOid := l.scope.1
  baseRefOid := l.scope.2
  firstTotal := l.nodes.length
  lastTotal := l.nodes.length
  first := l.rows.take 100
  last := l.rows.drop (l.nodes.length - 100)
  hasNextPage := decide (100 < l.nodes.length)
  hasPreviousPage := decide (100 < l.nodes.length)

def page (first : Nat) (after : Option String) : Page :=
  let start := (after.map l.offset).getD 0
  { totalCount := l.nodes.length
    nodes := (l.nodes.drop start).take first
    hasNextPage := decide (start + first < l.nodes.length)
    endCursor := l.cursor (start + first) }

/-- The answer of a host with these comments. -/
def answer (identity : Identity) (q : Query) : Response where
  repository := identity.ref
  number := identity.pullRequest
  windows :=
    match q with
    | .bodies _ _ => none
    | _ => some l.windows
  page :=
    match q with
    | .membership => none
    | .bodies first after | .closing first after => some (l.page first after)
  frame := l.frame q

/-- The listing is well formed, and its comments are ones of the pull request. -/
structure Native (identity : Identity) : Prop where
  scope : isGitSha l.scope.1 = true ∧ isGitSha l.scope.2 = true
  ids : (l.rows.map CommentRow.fullDatabaseId).Nodup
  cursors : ∀ k ≤ l.nodes.length, l.offset (l.cursor k) = k ∧ isCursor (l.cursor k) = true
  frames : ∀ q, l.frame q ≤ outerBytes
  comments : ∀ r ∈ l.rows, requireComment identity r = .ok ()

end NativeListing

/-- The plan reserved room for the listing: the known comments in their order, within their bounds,
and a slot of its own for each other one. -/
structure CommentAllocationPlan.Admits (plan : CommentAllocationPlan) (l : NativeListing) : Prop where
  known : (l.rows.map CommentRow.fullDatabaseId).filter plan.isKnown = plan.known.keys
  bodies : ∀ n ∈ l.nodes, ∀ bound ∈ plan.known.get? n.row.fullDatabaseId, bodyWire n.body ≤ bound
  others : ∃ slots, slots.Subperm plan.unknown ∧ List.Forall₂ (· ≤ ·)
    ((l.nodes.filter (fun n => !plan.isKnown n.row.fullDatabaseId)).map
      (fun n => bodyWire n.body)) slots
  metadata : ∀ n ∈ l.nodes, n.row.wire ≤ plan.metadataBound n.row.fullDatabaseId

/-- The sizes of the bodies that take slots. -/
def slotSizes (plan : CommentAllocationPlan) (nodes : List CommentNode) : List Nat :=
  (nodes.filter (fun n => !plan.isKnown n.row.fullDatabaseId)).map (fun n => bodyWire n.body)

/-- The bound of a known row, and nothing for another one. -/
def knownBound (plan : CommentAllocationPlan) (r : CommentRow) : Nat :=
  (plan.known.get? r.fullDatabaseId).getD 0

section Reading
variable {plan : CommentAllocationPlan} {ledger : Ledger} {identity : Identity} {l : NativeListing}

theorem metadataBound_le (plan : CommentAllocationPlan) (id : Nat) :
    plan.metadataBound id ≤ nodeMetadataBytes := by
  unfold CommentAllocationPlan.metadataBound
  split
  · cases hget : plan.metadataKnown.get? id with
    | none => exact le_refl _
    | some bound =>
      refine (plan.metadata_bound bound ?_).2
      exact List.mem_cons_of_mem _ (List.mem_map_of_mem (Dict.mem_of_get? hget))
  · exact (plan.metadata_bound _ List.mem_cons_self).2

theorem slotSizes_length (nodes : List CommentNode) :
    (slotSizes plan nodes).length =
      (nodes.map CommentNode.row).countP (fun r => !plan.isKnown r.fullDatabaseId) := by
  unfold slotSizes
  rw [List.length_map, ← List.countP_eq_length_filter, List.countP_map]
  rfl

variable (ledger) in
theorem comment_ok {n : CommentNode} (h : requireComment identity n.row = .ok ()) :
    comment ledger identity n = .ok (ledger.comment n) := by
  unfold comment
  rw [ok_bind h]
  rfl

theorem readNode_ok {unknown rest : List Nat} {collected : List Comment} {n : CommentNode}
    (hreserve : reserve plan unknown n = .ok rest)
    (hc : requireComment identity n.row = .ok ()) :
    readNode plan ledger identity (unknown, collected) (n.row, n) =
      .ok (rest, collected ++ [ledger.comment n]) := by
  unfold readNode
  rw [ensure_bind rfl, ok_bind hreserve, ok_bind (comment_ok _ hc)]
  rfl

theorem slotSizes_known {n : CommentNode} {bound : Nat}
    (h : plan.known.get? n.row.fullDatabaseId = some bound) (nodes : List CommentNode) :
    slotSizes plan (n :: nodes) = slotSizes plan nodes := by
  unfold slotSizes CommentAllocationPlan.isKnown Dict.contains
  rw [List.filter_cons_of_neg (by simp [h])]

theorem slotSizes_unknown {n : CommentNode} (h : plan.known.get? n.row.fullDatabaseId = none)
    (nodes : List CommentNode) :
    slotSizes plan (n :: nodes) = bodyWire n.body :: slotSizes plan nodes := by
  unfold slotSizes CommentAllocationPlan.isKnown Dict.contains
  rw [List.filter_cons_of_pos (by simp [h]), List.map_cons]

variable (ledger identity) in
/-- Reading nodes under their own rows takes a slot for each unknown one. -/
theorem readNodes_ok (collected : List Comment) {nodes : List CommentNode} {more unknown : List Nat}
    (hsorted : unknown.Pairwise (· ≤ ·)) (hslots : Dominates unknown (slotSizes plan nodes ++ more))
    (hbodies : ∀ n ∈ nodes, ∀ bound ∈ plan.known.get? n.row.fullDatabaseId,
      bodyWire n.body ≤ bound)
    (hcomments : ∀ n ∈ nodes, requireComment identity n.row = .ok ()) :
    ∃ rest, (nodes.map (fun n => (n.row, n))).foldlM (readNode plan ledger identity)
        (unknown, collected) = .ok (rest, collected ++ nodes.map ledger.comment) ∧
      takeSlots (slotSizes plan nodes) unknown = some rest ∧ Dominates rest more := by
  induction nodes generalizing unknown collected with
  | nil => exact ⟨unknown, by simp only [List.map_nil, List.append_nil]; rfl, rfl, hslots⟩
  | cons n nodes ih =>
    have hc := hcomments n List.mem_cons_self
    have hrestBodies := fun m hm => hbodies m (List.mem_cons_of_mem n hm)
    have hrestComments := fun m hm => hcomments m (List.mem_cons_of_mem n hm)
    rw [List.map_cons, List.foldlM_cons, List.map_cons]
    cases hknown : plan.known.get? n.row.fullDatabaseId with
    | some bound =>
      have hreserve : reserve plan unknown n = .ok unknown := by
        unfold reserve
        rw [hknown]
        exact ensure_bind (hbodies n List.mem_cons_self bound hknown) _
      rw [slotSizes_known hknown] at hslots ⊢
      obtain ⟨rest, hfold, htake, hmore⟩ := ih (collected ++ [ledger.comment n])
        hsorted hslots hrestBodies hrestComments
      refine ⟨rest, ?_, htake, hmore⟩
      rw [ok_bind (readNode_ok hreserve hc), hfold, List.append_assoc, List.singleton_append]
    | none =>
      rw [slotSizes_unknown hknown] at hslots ⊢
      obtain ⟨middle, hmiddle, hdominates⟩ := Slots.takeSlot_dominates hsorted hslots
      obtain ⟨_, _, _, hsub⟩ := Slots.takeSlot_spec hmiddle
      have hreserve : reserve plan unknown n = .ok middle := by
        unfold reserve
        rw [hknown]
        dsimp only
        rw [hmiddle]
      obtain ⟨rest, hfold, htake, hmore⟩ := ih (collected ++ [ledger.comment n])
        (hsorted.sublist hsub) hdominates hrestBodies hrestComments
      refine ⟨rest, ?_, ?_, hmore⟩
      · rw [ok_bind (readNode_ok hreserve hc), hfold, List.append_assoc, List.singleton_append]
      · rw [takeSlots, hmiddle]
        exact htake

/-- The nodes of a page are no larger than its admitted bound. -/
theorem nodesWire_le {nodes : List CommentNode} {unknown rest : List Nat}
    (hsorted : unknown.Pairwise (· ≤ ·)) (htake : takeSlots (slotSizes plan nodes) unknown = some rest)
    (hbodies : ∀ n ∈ nodes, ∀ bound ∈ plan.known.get? n.row.fullDatabaseId,
      bodyWire n.body ≤ bound)
    (hmetadata : ∀ n ∈ nodes, n.row.wire ≤ plan.metadataBound n.row.fullDatabaseId) :
    outerBytes + nodesWire nodes ≤ pageBound plan unknown (nodes.map CommentNode.row) := by
  have hslots := Slots.takeSlots_sum hsorted htake
  rw [slotSizes_length] at hslots
  have hparts : nodesWire nodes ≤ nodeMetadataBytes * nodes.length +
      ((nodes.map CommentNode.row).map (knownBound plan)).sum + (slotSizes plan nodes).sum := by
    clear htake hslots
    unfold nodesWire
    induction nodes with
    | nil => exact Nat.zero_le _
    | cons n nodes ih =>
      have hih := ih (fun m hm => hbodies m (List.mem_cons_of_mem n hm))
        (fun m hm => hmetadata m (List.mem_cons_of_mem n hm))
      have hwire := nodeWire_add n
      have hrow := (hmetadata n List.mem_cons_self).trans (metadataBound_le plan _)
      simp only [List.map_cons, List.sum_cons, List.length_cons, Nat.mul_succ]
      cases hknown : plan.known.get? n.row.fullDatabaseId with
      | some bound =>
        have hbody := hbodies n List.mem_cons_self bound hknown
        have hbound : knownBound plan n.row = bound := by
          unfold knownBound
          rw [hknown]
          rfl
        rw [slotSizes_known hknown, hbound]
        omega
      | none =>
        rw [slotSizes_unknown hknown, List.sum_cons]
        omega
  unfold pageBound
  rw [List.length_map]
  unfold knownBound at hparts
  omega

end Reading

section Opening
variable {plan : CommentAllocationPlan} {ledger : Ledger} {identity : Identity} {l : NativeListing}

variable (ledger) in
theorem addRow_ok (acc : List Nat × List CommentRow) {row : CommentRow}
    (hc : requireComment identity row = .ok ())
    (hbound : row.wire ≤ plan.metadataBound row.fullDatabaseId)
    (hwindow : row.fullDatabaseId ∉ acc.1) :
    (row.fullDatabaseId ∉ acc.2.map CommentRow.fullDatabaseId →
        addRow plan ledger identity acc row =
          .ok (acc.1 ++ [row.fullDatabaseId], acc.2 ++ [row])) ∧
      (row ∈ acc.2 → (acc.2.map CommentRow.fullDatabaseId).Nodup →
        addRow plan ledger identity acc row = .ok (acc.1 ++ [row.fullDatabaseId], acc.2)) := by
  have hcomment := comment_ok ledger (n := ⟨row, ""⟩) hc
  constructor
  · intro hfresh
    have hfind : acc.2.find? (fun r => r.fullDatabaseId = row.fullDatabaseId) = none := by
      rw [List.find?_eq_none]
      intro r hr heq
      exact hfresh (List.mem_map.mpr ⟨r, hr, of_decide_eq_true heq⟩)
    unfold addRow
    rw [ok_bind hcomment, ensure_bind hbound, ensure_bind hwindow, hfind]
  · intro hmem hnodup
    have hfind : acc.2.find? (fun r => r.fullDatabaseId = row.fullDatabaseId) = some row := by
      cases hfound : acc.2.find? (fun r => r.fullDatabaseId = row.fullDatabaseId) with
      | none =>
        have hnone := List.find?_eq_none.mp hfound row hmem
        exact absurd (decide_eq_true rfl) hnone
      | some seen =>
        have hid : seen.fullDatabaseId = row.fullDatabaseId := by
          simpa using List.find?_some hfound
        rw [List.inj_on_of_nodup_map hnodup (List.mem_of_find?_eq_some hfound) hmem hid]
    unfold addRow
    rw [ok_bind hcomment, ensure_bind hbound, ensure_bind hwindow, hfind]
    exact ensure_bind rfl _

variable (plan ledger) in
/-- Rows that are not there yet are added in their order. -/
theorem addRows_fresh (ids : List Nat) (rows : List CommentRow) {window : List CommentRow}
    (hc : ∀ r ∈ window, requireComment identity r = .ok ())
    (hbound : ∀ r ∈ window, r.wire ≤ plan.metadataBound r.fullDatabaseId)
    (hids : (ids ++ window.map CommentRow.fullDatabaseId).Nodup)
    (hrows : ((rows ++ window).map CommentRow.fullDatabaseId).Nodup) :
    window.foldlM (addRow plan ledger identity) (ids, rows) =
      .ok (ids ++ window.map CommentRow.fullDatabaseId, rows ++ window) := by
  induction window generalizing ids rows with
  | nil => simp only [List.map_nil, List.append_nil]; rfl
  | cons r window ih =>
    have hwindow : r.fullDatabaseId ∉ ids := by
      intro hmem
      exact (List.nodup_append.mp hids).2.2 _ hmem _ (List.mem_map_of_mem List.mem_cons_self) rfl
    have hfresh : r.fullDatabaseId ∉ rows.map CommentRow.fullDatabaseId := by
      intro hmem
      rw [List.map_append] at hrows
      exact (List.nodup_append.mp hrows).2.2 _ hmem _ (List.mem_map_of_mem List.mem_cons_self) rfl
    have hadd := (addRow_ok ledger (ids, rows) (hc r List.mem_cons_self)
      (hbound r List.mem_cons_self) hwindow).1 hfresh
    rw [List.foldlM_cons, ok_bind hadd]
    have hids' : ((ids ++ [r.fullDatabaseId]) ++ window.map CommentRow.fullDatabaseId).Nodup := by
      rwa [List.append_assoc, List.singleton_append, ← List.map_cons]
    have hrows' : ((rows ++ [r] ++ window).map CommentRow.fullDatabaseId).Nodup := by
      rwa [List.append_assoc, List.singleton_append]
    have hstep := ih _ _ (fun m hm => hc m (List.mem_cons_of_mem r hm))
      (fun m hm => hbound m (List.mem_cons_of_mem r hm)) hids' hrows'
    rw [hstep, List.map_cons, List.append_assoc, List.append_assoc, List.singleton_append,
      List.singleton_append]

variable (plan ledger) in
/-- Rows that are there already change nothing. -/
theorem addRows_seen (ids : List Nat) (rows : List CommentRow) {window : List CommentRow}
    (hc : ∀ r ∈ window, requireComment identity r = .ok ())
    (hbound : ∀ r ∈ window, r.wire ≤ plan.metadataBound r.fullDatabaseId)
    (hids : (ids ++ window.map CommentRow.fullDatabaseId).Nodup)
    (hrows : (rows.map CommentRow.fullDatabaseId).Nodup) (hmem : window ⊆ rows) :
    window.foldlM (addRow plan ledger identity) (ids, rows) =
      .ok (ids ++ window.map CommentRow.fullDatabaseId, rows) := by
  induction window generalizing ids with
  | nil => simp only [List.map_nil, List.append_nil]; rfl
  | cons r window ih =>
    have hwindow : r.fullDatabaseId ∉ ids := by
      intro hmem
      exact (List.nodup_append.mp hids).2.2 _ hmem _ (List.mem_map_of_mem List.mem_cons_self) rfl
    have hadd := (addRow_ok ledger (ids, rows) (hc r List.mem_cons_self)
      (hbound r List.mem_cons_self) hwindow).2 (hmem List.mem_cons_self) hrows
    rw [List.foldlM_cons, ok_bind hadd]
    have hids' : ((ids ++ [r.fullDatabaseId]) ++ window.map CommentRow.fullDatabaseId).Nodup := by
      rwa [List.append_assoc, List.singleton_append, ← List.map_cons]
    have hstep := ih _ (fun m hm => hc m (List.mem_cons_of_mem r hm))
      (fun m hm => hbound m (List.mem_cons_of_mem r hm)) hids'
      (fun m hm => hmem (List.mem_cons_of_mem r hm))
    rw [hstep, List.map_cons, List.append_assoc, List.singleton_append]

/-- Two windows of a hundred are the whole of a listing that the plan admits. -/
theorem membership_ok (hnative : l.Native identity) (hadmits : plan.Admits l)
    (hsize : l.nodes.length ≤ maxComments) {r : Response} (hrepository : r.repository = identity.ref)
    (hnumber : r.number = identity.pullRequest) (hwindows : r.windows = some l.windows) :
    membership plan ledger identity r = .ok ⟨l.rows, l.scope⟩ := by
  have hlength : l.rows.length = l.nodes.length := List.length_map _
  have hmetadata : ∀ r ∈ l.rows, r.wire ≤ plan.metadataBound r.fullDatabaseId := by
    intro r hr
    obtain ⟨n, hn, rfl⟩ := List.mem_map.mp hr
    exact hadmits.metadata n hn
  have hids := hnative.ids
  unfold maxComments at hsize
  have hfirst : addWindow plan ledger identity [] l.windows.first = .ok (l.rows.take 100) := by
    have hsub := List.take_subset 100 l.rows
    have hnodup : ((l.rows.take 100).map CommentRow.fullDatabaseId).Nodup :=
      hids.sublist ((List.take_sublist 100 l.rows).map _)
    have hfold := addRows_fresh plan ledger [] []
      (fun r hr => hnative.comments r (hsub hr)) (fun r hr => hmetadata r (hsub hr)) hnodup hnodup
    unfold addWindow NativeListing.windows
    exact ok_bind hfold _
  have hlast : addWindow plan ledger identity (l.rows.take 100) l.windows.last = .ok l.rows := by
    have hsplit : l.rows.drop (l.nodes.length - 100) =
        (l.rows.take 100).drop (l.nodes.length - 100) ++ l.rows.drop 100 := by
      have hdrop := @List.drop_append _ (l.rows.take 100) (l.rows.drop 100) (l.nodes.length - 100)
      have hzero : l.nodes.length - 100 - (l.rows.take 100).length = 0 := by
        rw [List.length_take, hlength]
        omega
      rwa [List.take_append_drop, hzero, List.drop_zero] at hdrop
    have hwindow : ((l.rows.drop (l.nodes.length - 100)).map CommentRow.fullDatabaseId).Nodup :=
      hids.sublist ((List.drop_sublist _ _).map _)
    have hsub := List.drop_subset (l.nodes.length - 100) l.rows
    have hseen : (l.rows.take 100).drop (l.nodes.length - 100) ⊆
        l.rows.drop (l.nodes.length - 100) := by
      rw [hsplit]
      exact List.subset_append_left _ _
    have hnew : l.rows.drop 100 ⊆ l.rows.drop (l.nodes.length - 100) := by
      rw [hsplit]
      exact List.subset_append_right _ _
    rw [hsplit, List.map_append] at hwindow
    -- the overlap is known already, and the rows after it are new
    have hold := addRows_seen plan ledger [] (l.rows.take 100)
      (fun r hr => hnative.comments r (hsub (hseen hr))) (fun r hr => hmetadata r (hsub (hseen hr)))
      (hwindow.sublist (List.sublist_append_left _ _))
      (hids.sublist ((List.take_sublist 100 l.rows).map _)) (List.drop_subset _ _)
    have hrest := addRows_fresh plan ledger
      ([] ++ ((l.rows.take 100).drop (l.nodes.length - 100)).map CommentRow.fullDatabaseId)
      (l.rows.take 100) (fun r hr => hnative.comments r (hsub (hnew hr)))
      (fun r hr => hmetadata r (hsub (hnew hr))) hwindow
      (by rwa [List.take_append_drop])
    unfold addWindow NativeListing.windows
    dsimp only
    rw [hsplit, List.foldlM_append, hold]
    refine (ok_bind (x := List.foldlM _ _ _) hrest _).trans ?_
    rw [List.take_append_drop]
    rfl
  have hoverlap : (l.rows.take 100).drop ((l.rows.take 100).length -
      (min 100 l.nodes.length * 2 - l.nodes.length)) =
      (l.rows.drop (l.nodes.length - 100)).take (min 100 l.nodes.length * 2 - l.nodes.length) := by
    have hstart : (l.rows.take 100).length - (min 100 l.nodes.length * 2 - l.nodes.length) =
        l.nodes.length - 100 := by
      rw [List.length_take, hlength]
      omega
    rw [hstart, List.drop_take]
    by_cases hsmall : l.nodes.length ≤ 100
    · rw [List.take_of_length_le, List.take_of_length_le]
      · rw [List.length_drop, hlength]
        omega
      · rw [List.length_drop, hlength]
        omega
    · congr 1
      omega
  have hcomplete : l.windows.firstTotal ≤ maxComments ∧ l.windows.lastTotal = l.windows.firstTotal ∧
      l.windows.first.length = min 100 l.windows.firstTotal ∧
      l.windows.last.length = min 100 l.windows.firstTotal ∧
      l.windows.hasNextPage = decide (100 < l.windows.firstTotal) ∧
      l.windows.hasPreviousPage = decide (100 < l.windows.firstTotal) := by
    refine ⟨hsize, rfl, ?_, ?_, rfl, rfl⟩
    · exact (List.length_take).trans (by rw [hlength]; rfl)
    · refine (List.length_drop).trans ?_
      rw [hlength]
      have : l.windows.firstTotal = l.nodes.length := rfl
      omega
  have hscope := hnative.scope
  unfold membership requireRepository
  rw [ensure_bind hrepository, hwindows]
  dsimp only
  unfold windowsMembership
  rw [ensure_bind ⟨hnumber, hscope⟩, ensure_bind hcomplete, ok_bind hfirst, ok_bind hlast,
    ensure_bind (show l.rows.length = l.windows.firstTotal from hlength)]
  exact ensure_bind hoverlap _

end Opening

section Order
variable {plan : CommentAllocationPlan} {l : NativeListing}

/-- The game whose bound the plan proves. -/
def CommentAllocationPlan.game (plan : CommentAllocationPlan) : Game :=
  ⟨plan.known.map Prod.snd, plan.unknown.insertionSort (· ≥ ·), some plan.closingBound⟩

/-- The slots of a plan in the order in which they are taken. -/
def CommentAllocationPlan.slots (plan : CommentAllocationPlan) : List Nat :=
  plan.unknown.insertionSort (· ≤ ·)

theorem slots_sorted (plan : CommentAllocationPlan) : plan.slots.Pairwise (· ≤ ·) :=
  List.pairwise_insertionSort (· ≤ ·) plan.unknown

theorem slots_reverse (plan : CommentAllocationPlan) : plan.slots.reverse = plan.game.largest := by
  have hdesc : plan.slots.reverse.Pairwise (· ≥ ·) := List.pairwise_reverse.mpr (slots_sorted plan)
  have hlargest : plan.game.largest.Pairwise (· ≥ ·) :=
    List.pairwise_insertionSort (· ≥ ·) plan.unknown
  have hperm : plan.slots.reverse.Perm plan.game.largest :=
    ((List.reverse_perm _).trans (List.perm_insertionSort _ _)).trans
      (List.perm_insertionSort _ _).symm
  exact hperm.eq_of_pairwise (fun a b _ _ hab hba => le_antisymm hba hab) hdesc hlargest

theorem filter_take {α : Type} (p : α → Bool) (xs : List α) (j : Nat) :
    (xs.take j).filter p = (xs.filter p).take ((xs.take j).countP p) := by
  have hsplit : xs.filter p = (xs.take j).filter p ++ (xs.drop j).filter p := by
    rw [← List.filter_append, List.take_append_drop]
  rw [hsplit, List.countP_eq_length_filter, List.take_left]

/-- The bounds of the known rows, in their order, are those of the plan. -/
theorem knownBounds (hadmits : plan.Admits l) :
    (l.rows.filter (fun r => plan.isKnown r.fullDatabaseId)).map (knownBound plan) =
      plan.known.map Prod.snd := by
  have hids : (l.rows.filter (fun r => plan.isKnown r.fullDatabaseId)).map
      CommentRow.fullDatabaseId = plan.known.keys := by
    rw [← hadmits.known, List.filter_map]
    rfl
  have hlookup : (l.rows.filter (fun r => plan.isKnown r.fullDatabaseId)).map (knownBound plan) =
      ((l.rows.filter (fun r => plan.isKnown r.fullDatabaseId)).map
        CommentRow.fullDatabaseId).map (fun id => (plan.known.get? id).getD 0) := by
    rw [List.map_map]
    rfl
  rw [hlookup, hids, Dict.keys, List.map_map]
  refine List.map_congr_left fun entry hentry => ?_
  have hget : plan.known.get? entry.1 = some entry.2 := Dict.get?_of_mem plan.known_nodup hentry
  change (plan.known.get? entry.1).getD 0 = entry.2
  rw [hget]
  rfl

/-- The places of a listing, by its known and its other comments. -/
def knownBefore (plan : CommentAllocationPlan) (l : NativeListing) (j : Nat) : Nat :=
  (l.rows.take j).countP (fun r => plan.isKnown r.fullDatabaseId)

/-- The known bounds before a place are the first ones of the plan. -/
theorem knownSum (hadmits : plan.Admits l) (j : Nat) :
    ((l.rows.take j).map (knownBound plan)).sum =
      (plan.game.known.take (knownBefore plan l j)).sum := by
  have hskip (rows : List CommentRow) : (rows.map (knownBound plan)).sum =
      ((rows.filter (fun r => plan.isKnown r.fullDatabaseId)).map (knownBound plan)).sum := by
    induction rows with
    | nil => rfl
    | cons r rows ih =>
      rw [List.filter_cons]
      split
      · rw [List.map_cons, List.map_cons, List.sum_cons, List.sum_cons, ih]
      · next hknown =>
        have hzero : knownBound plan r = 0 := by
          unfold knownBound
          cases hget : plan.known.get? r.fullDatabaseId with
          | none => rfl
          | some bound =>
            unfold CommentAllocationPlan.isKnown Dict.contains at hknown
            rw [hget] at hknown
            exact absurd rfl hknown
        rw [List.map_cons, List.sum_cons, ih, hzero, Nat.zero_add]
  rw [hskip, filter_take, List.map_take, knownBounds hadmits]
  rfl

theorem known_count (hadmits : plan.Admits l) :
    l.rows.countP (fun r => plan.isKnown r.fullDatabaseId) = plan.game.known.length := by
  rw [List.countP_eq_length_filter, ← List.length_map (knownBound plan), knownBounds hadmits]
  rfl

theorem others_count (hadmits : plan.Admits l) :
    l.rows.countP (fun r => !plan.isKnown r.fullDatabaseId) ≤ plan.unknown.length := by
  obtain ⟨slots, hslots, hfits⟩ := hadmits.others
  have hlength : (slotSizes plan l.nodes).length = slots.length := hfits.length_eq
  rw [slotSizes_length] at hlength
  exact hlength.trans_le hslots.length_le

theorem listing_length (hadmits : plan.Admits l) :
    l.nodes.length ≤ plan.game.known.length + plan.game.largest.length := by
  have hall := List.length_eq_countP_add_countP (fun r => plan.isKnown r.fullDatabaseId) (l := l.rows)
  have hknown := known_count hadmits
  have hothers := others_count hadmits
  have hlength : l.rows.length = l.nodes.length := List.length_map _
  have hlargest : plan.game.largest.length = plan.unknown.length := List.length_insertionSort _ _
  simp only [Bool.not_eq_true, Bool.decide_eq_false] at hall
  omega

/-- The listing, followed by comments for the slots that it leaves, is an order of all comments. -/
def listingOrder (hadmits : plan.Admits l) : plan.game.Order where
  known := knownBefore plan l
  unknown j := j - knownBefore plan l j
  place j := by
    have hle : knownBefore plan l j ≤ (l.rows.take j).length := List.countP_le_length
    have := List.length_take_le j l.rows
    omega
  step j := by
    unfold knownBefore
    rw [List.take_add_one, List.countP_append]
    cases l.rows[j]? with
    | none => simp
    | some r =>
      simp only [Option.toList_some, List.countP_singleton]
      split <;> omega
  last := by
    unfold knownBefore
    rw [List.take_of_length_le, known_count hadmits]
    exact (List.length_map _).trans_le (listing_length hadmits)

end Order

section Pages
variable {plan : CommentAllocationPlan} {l : NativeListing}

/-- What is between two places of the listing. -/
def between {α : Type} (xs : List α) (i j : Nat) : List α := (xs.drop i).take (j - i)

theorem between_sum {α : Type} (xs : List α) (f : α → Nat) {i j : Nat} (hij : i ≤ j) :
    ((xs.take j).map f).sum = ((xs.take i).map f).sum + ((between xs i j).map f).sum := by
  have hsplit : xs.take j = xs.take i ++ between xs i j := by
    unfold between
    rw [← List.take_add, Nat.add_sub_cancel' hij]
  rw [hsplit, List.map_append, List.sum_append]

/-- A page between two places costs no more than any page of the order around it. -/
theorem pageBound_le (hadmits : plan.Admits l) {unknown : List Nat}
    (hslots : unknown.Sublist plan.slots) {i p q e : Nat} (hip : i ≤ p) (hpq : p ≤ q) (hqe : q ≤ e)
    (hq : q ≤ l.nodes.length) :
    pageBound plan unknown (between l.rows p q) ≤ (listingOrder hadmits).cost i e := by
  let o := listingOrder hadmits
  have hlength : (between l.rows p q).length = q - p := by
    unfold between
    rw [List.length_take, List.length_drop, NativeListing.rows, List.length_map]
    omega
  have hcount : (between l.rows p q).countP (fun r => !plan.isKnown r.fullDatabaseId) =
      o.unknown q - o.unknown p := by
    have hall := List.length_eq_countP_add_countP (fun r => plan.isKnown r.fullDatabaseId)
      (l := between l.rows p q)
    simp only [Bool.not_eq_true, Bool.decide_eq_false] at hall
    have hknown : knownBefore plan l q = knownBefore plan l p +
        (between l.rows p q).countP (fun r => plan.isKnown r.fullDatabaseId) := by
      unfold knownBefore between
      rw [← List.countP_append, ← List.take_add, Nat.add_sub_cancel' hpq]
    have hp := o.place p
    have hq' := o.place q
    have hp' : o.known p = knownBefore plan l p := rfl
    have hq'' : o.known q = knownBefore plan l q := rfl
    omega
  have hpage : ((between l.rows p q).map (knownBound plan)).sum +
      (plan.game.known.take (o.known p)).sum = (plan.game.known.take (o.known q)).sum := by
    have hsum := between_sum l.rows (knownBound plan) hpq
    rw [knownSum hadmits, knownSum hadmits] at hsum
    rw [Nat.add_comm]
    exact hsum.symm
  have hmonoIp := o.known_mono hip
  have hmonoPq := o.known_mono hpq
  have hmonoQe := o.known_mono hqe
  have hslice : ((plan.game.known.drop (o.known i)).take (o.known e - o.known i)).sum +
      (plan.game.known.take (o.known i)).sum = (plan.game.known.take (o.known e)).sum := by
    have hsum := between_sum plan.game.known id (i := o.known i) (j := o.known e) (by omega)
    rw [List.map_id, List.map_id, List.map_id] at hsum
    rw [Nat.add_comm]
    exact hsum.symm
  have hlow : (plan.game.known.take (o.known i)).sum ≤ (plan.game.known.take (o.known p)).sum :=
    Slots.take_sum_mono _ hmonoIp.1
  have hhigh : (plan.game.known.take (o.known q)).sum ≤ (plan.game.known.take (o.known e)).sum :=
    Slots.take_sum_mono _ hmonoQe.1
  have hlargest : lastSum unknown (o.unknown q - o.unknown p) ≤
      (plan.game.largest.take (o.unknown e - o.unknown i)).sum := by
    have hless := Slots.lastSum_sublist (slots_sorted plan) hslots (o.unknown q - o.unknown p)
    rw [Slots.lastSum_reverse plan.slots, slots_reverse] at hless
    exact hless.trans (Slots.take_sum_mono _ (by omega))
  have hrows : nodeMetadataBytes * (q - p) ≤ nodeMetadataBytes * (o.known e - o.known i) +
      nodeMetadataBytes * (o.unknown e - o.unknown i) := by
    rw [← Nat.mul_add]
    refine Nat.mul_le_mul_left _ ?_
    have hi := o.place i
    have he := o.place e
    omega
  unfold pageBound Game.Order.cost Game.pageCost Game.knownCost Game.unknownCost
  rw [hlength, hcount]
  change outerBytes + nodeMetadataBytes * (q - p) + ((between l.rows p q).map (knownBound plan)).sum +
    lastSum unknown (o.unknown q - o.unknown p) ≤
    outerBytes + (((plan.game.known.drop (o.known i)).take (o.known e - o.known i)).sum +
      nodeMetadataBytes * (o.known e - o.known i)) +
    ((plan.game.largest.take (o.unknown e - o.unknown i)).sum +
      nodeMetadataBytes * (o.unknown e - o.unknown i))
  omega

theorem single_fits (plan : CommentAllocationPlan) : ∀ bound ∈ plan.game.known ++ plan.game.largest,
    outerBytes + nodeMetadataBytes + bound ≤ maxGithubResponseBytes := by
  intro bound hbound
  have hplan : bound ∈ plan.known.map Prod.snd ++ plan.unknown := by
    rcases List.mem_append.mp hbound with hknown | hunknown
    · exact List.mem_append_left _ hknown
    · exact List.mem_append_right _ ((List.mem_insertionSort _).mp hunknown)
  have hle := (plan.bound bound hplan).2
  unfold outerBytes nodeMetadataBytes maxGithubResponseBytes at *
  omega

/-- Every page that is taken fits its bound. -/
theorem pageSize_fits (plan : CommentAllocationPlan) (unknown : List Nat) (rows : List CommentRow)
    (h : pageSize plan unknown rows ≠ 0) :
    pageBound plan unknown (rows.take (pageSize plan unknown rows)) ≤ maxGithubResponseBytes := by
  let taken := (List.range (min 100 rows.length)).takeWhile
    (fun i => pageBound plan unknown (rows.take (i + 1)) ≤ maxGithubResponseBytes)
  obtain ⟨m, hm⟩ : ∃ m, taken.length = m + 1 := ⟨taken.length - 1, by
    have : taken.length ≠ 0 := h
    omega⟩
  have hprefix : taken <+: List.range (min 100 rows.length) := List.takeWhile_prefix _
  have hm' : m < taken.length := by omega
  have hlast : taken[m] = m := by
    have hget := hprefix.getElem (i := m) hm'
    rw [hget, List.getElem_range]
  have hfits := List.mem_takeWhile_imp (List.getElem_mem (l := taken) (n := m) hm')
  rw [hlast, decide_eq_true_eq, ← hm] at hfits
  exact hfits

theorem pageSize_le (plan : CommentAllocationPlan) (unknown : List Nat) (rows : List CommentRow) :
    pageSize plan unknown rows ≤ 100 ∧ pageSize plan unknown rows ≤ rows.length := by
  have hle : pageSize plan unknown rows ≤ (List.range (min 100 rows.length)).length :=
    (List.takeWhile_sublist _).length_le
  rw [List.length_range] at hle
  omega

/-- Counts that all fit are taken. -/
theorem le_pageSize {unknown : List Nat} {rows : List CommentRow} {c : Nat} (hc : c ≤ 100)
    (hrows : c ≤ rows.length)
    (h : ∀ k, 0 < k → k ≤ c → pageBound plan unknown (rows.take k) ≤ maxGithubResponseBytes) :
    c ≤ pageSize plan unknown rows := by
  rcases Nat.eq_zero_or_pos c with rfl | hpos
  · exact Nat.zero_le _
  have hmem : c - 1 ∈ (List.range (min 100 rows.length)).takeWhile
      (fun i => pageBound plan unknown (rows.take (i + 1)) ≤ maxGithubResponseBytes) := by
    refine mem_takeWhile_range (by omega) fun j hj => ?_
    exact decide_eq_true (h (j + 1) (Nat.succ_pos j) (by omega))
  have hprefix : (List.range (min 100 rows.length)).takeWhile
      (fun i => pageBound plan unknown (rows.take (i + 1)) ≤ maxGithubResponseBytes) <+:
      List.range (min 100 rows.length) := List.takeWhile_prefix _
  obtain ⟨k, hk, hget⟩ := List.getElem_of_mem hmem
  have hat := hprefix.getElem (i := k) hk
  rw [hget, List.getElem_range] at hat
  unfold pageSize
  omega

end Pages

section Windows
variable {plan : CommentAllocationPlan} {l : NativeListing}

theorem rowsWire_le (hadmits : plan.Admits l) {window : List CommentRow}
    (hsub : window.Sublist l.rows) :
    rowsWire window ≤ (window.map (fun r => plan.metadataBound r.fullDatabaseId)).sum := by
  unfold rowsWire
  refine List.sum_le_sum fun r hr => ?_
  obtain ⟨n, hn, rfl⟩ := List.mem_map.mp (hsub.subset hr)
  exact hadmits.metadata n hn

theorem windows_le (hadmits : plan.Admits l) :
    l.windows.wire ≤ 200 * nodeMetadataBytes := by
  have hwindow {window : List CommentRow} (hsub : window.Sublist l.rows)
      (hlength : window.length ≤ 100) : rowsWire window ≤ 100 * nodeMetadataBytes := by
    refine (rowsWire_le hadmits hsub).trans ?_
    have hsum := List.sum_le_card_nsmul
      (window.map (fun r => plan.metadataBound r.fullDatabaseId)) nodeMetadataBytes (by
        intro bound hbound
        obtain ⟨r, _, rfl⟩ := List.mem_map.mp hbound
        exact metadataBound_le plan _)
    rw [List.length_map, nsmul_eq_mul, Nat.cast_id] at hsum
    exact hsum.trans (Nat.mul_le_mul_right _ hlength)
  have hfirst := hwindow (List.take_sublist 100 l.rows) (List.length_take_le 100 _)
  have hlast := hwindow (List.drop_sublist (l.nodes.length - 100) l.rows) (by
    rw [List.length_drop, NativeListing.rows, List.length_map]
    omega)
  unfold Windows.wire NativeListing.windows
  dsimp only
  omega

/-- A window is no larger than the hundred largest rows that the plan has. -/
theorem window_bound (hadmits : plan.Admits l) {window : List CommentRow}
    (hsub : window.Sublist l.rows) (hlength : window.length ≤ 100) :
    rowsWire window ≤ (plan.metadata.take 100).sum := by
  let known (r : CommentRow) : Bool := plan.isKnown r.fullDatabaseId
  let bound (r : CommentRow) : Nat := plan.metadataBound r.fullDatabaseId
  have hsplit : (window.map bound).Perm
      ((window.filter known).map bound ++ (window.filter (fun r => !known r)).map bound) := by
    rw [← List.map_append]
    exact (List.filter_append_perm known window).symm.map bound
  have hknown : ((window.filter known).map bound).Sublist (plan.known.keys.map
      (fun id => (plan.metadataKnown.get? id).getD nodeMetadataBytes)) := by
    have hrows : ((window.filter known).map CommentRow.fullDatabaseId).Sublist plan.known.keys := by
      rw [← hadmits.known, List.filter_map]
      exact (hsub.filter known).map _
    have hbound : (window.filter known).map bound = ((window.filter known).map
        CommentRow.fullDatabaseId).map
          (fun id => (plan.metadataKnown.get? id).getD nodeMetadataBytes) := by
      rw [List.map_map]
      refine List.map_congr_left fun r hr => ?_
      exact if_pos (List.mem_filter.mp hr).2
    rw [hbound]
    exact hrows.map _
  have hothers : ((window.filter (fun r => !known r)).map bound).Sublist
      (List.replicate plan.unknown.length plan.metadataUnknown) := by
    rw [List.sublist_replicate_iff]
    refine ⟨(window.filter (fun r => !known r)).length, ?_, ?_⟩
    · rw [← List.countP_eq_length_filter]
      exact (hsub.countP_le).trans (others_count hadmits)
    · rw [← List.length_map bound]
      refine List.eq_replicate_iff.mpr ⟨rfl, fun b hb => ?_⟩
      obtain ⟨r, hr, rfl⟩ := List.mem_map.mp hb
      have hnot := (List.mem_filter.mp hr).2
      exact if_neg (by simpa using hnot)
  have hperm : (window.map bound).Subperm plan.metadata :=
    (hsplit.subperm.trans (hknown.append hothers).subperm).trans
      (List.perm_insertionSort _ _).symm.subperm
  obtain ⟨part, hpart, hpartSub⟩ := hperm
  have hsorted : plan.metadata.Pairwise (· ≥ ·) := List.pairwise_insertionSort (· ≥ ·) _
  have hlargest := Slots.sum_le_largest hsorted hpartSub
  rw [hpart.sum_eq, hpart.length_eq, List.length_map] at hlargest
  exact (rowsWire_le hadmits hsub).trans (hlargest.trans (Slots.take_sum_mono _ hlength))

theorem closing_le (hadmits : plan.Admits l) : l.windows.wire ≤ plan.closingBound := by
  have hfirst := window_bound hadmits (List.take_sublist 100 l.rows) (List.length_take_le 100 _)
  have hlast := window_bound hadmits (List.drop_sublist (l.nodes.length - 100) l.rows) (by
    rw [List.length_drop, NativeListing.rows, List.length_map]
    omega)
  unfold Windows.wire NativeListing.windows CommentAllocationPlan.closingBound
  dsimp only
  omega

end Windows

section Walk
variable {plan : CommentAllocationPlan} {ledger : Ledger} {identity : Identity} {l : NativeListing}
variable {t : Transport} {requests : Nat}

/-- The host answers every query from the listing, and in time. -/
structure Transport.Serves (t : Transport) (l : NativeListing) (identity : Identity) : Prop where
  answers : ∀ call q, t.answer call q = some (l.answer identity q)
  clock : ∀ look, t.late look = false

theorem read_ok (hserves : t.Serves l identity) {calls : Nat} {q : Query} (hcalls : calls < requests)
    (hwire : (l.answer identity q).wire ≤ maxGithubResponseBytes) :
    read t requests calls q = .ok (l.answer identity q, calls + 1) := by
  unfold read
  rw [ensure_bind ⟨hserves.clock _, hcalls⟩, hserves.answers]
  exact ensure_bind ⟨hwire, hserves.clock _⟩ _

variable (requests) in
theorem read_membership (hserves : t.Serves l identity) (hnative : l.Native identity)
    (hadmits : plan.Admits l) (calls : Nat) (hcalls : calls < requests) :
    read t requests calls .membership = .ok (l.answer identity .membership, calls + 1) := by
  refine read_ok hserves hcalls ?_
  have hframe := hnative.frames .membership
  have hwindows := windows_le hadmits
  unfold Response.wire NativeListing.answer
  simp only [Option.map_some, Option.getD_some, Option.map_none, Option.getD_none]
  unfold outerBytes nodeMetadataBytes maxGithubResponseBytes at *
  omega

/-- The opening membership of the listing. -/
def NativeListing.opening (l : NativeListing) : Membership := ⟨l.rows, l.scope⟩

/-- A walk with no rows left closes with one more request. -/
theorem walk_nil (hserves : t.Serves l identity) (hnative : l.Native identity)
    (hadmits : plan.Admits l) (hsize : l.nodes.length ≤ maxComments) {closingWire : Nat}
    {s : WalkState} (hcalls : s.calls < requests) :
    walk plan ledger identity t requests l.opening closingWire [] s =
      .ok (s.collected, s.calls + 1) := by
  have hclosing : requireClosing plan ledger identity l.opening (l.answer identity .membership) =
      .ok () := by
    unfold requireClosing
    rw [ok_bind (membership_ok hnative hadmits hsize rfl rfl rfl)]
    exact ensure_ok rfl
  unfold walk
  rw [if_pos rfl, ok_bind (read_membership requests hserves hnative hadmits s.calls hcalls)]
  exact ok_bind hclosing _

/-- The walk has read the comments before a place. -/
structure WalkState.At (s : WalkState) (plan : CommentAllocationPlan) (l : NativeListing)
    (place : Nat) : Prop where
  cursor : (s.cursor.map l.offset).getD 0 = place
  slots : s.unknown.Sublist plan.slots
  dominates : Dominates s.unknown (slotSizes plan (l.nodes.drop place))

theorem zip_rows (nodes : List CommentNode) :
    (nodes.map CommentNode.row).zip nodes = nodes.map (fun n => (n.row, n)) := by
  induction nodes with
  | nil => rfl
  | cons n nodes ih => rw [List.map_cons, List.zip_cons_cons, ih, List.map_cons]

theorem slotSizes_split (plan : CommentAllocationPlan) (nodes : List CommentNode) (k : Nat) :
    slotSizes plan nodes = slotSizes plan (nodes.take k) ++ slotSizes plan (nodes.drop k) := by
  unfold slotSizes
  rw [← List.map_append, ← List.filter_append, List.take_append_drop]

/-- The query of a page. -/
def pageQuery (first : Nat) (combined : Bool) (after : Option String) : Query :=
  if combined then .closing first after else .bodies first after

variable (l identity) in
theorem answer_page (first : Nat) (combined : Bool) (after : Option String) :
    (l.answer identity (pageQuery first combined after)).page = some (l.page first after) ∧
      (l.answer identity (pageQuery first combined after)).windows =
        if combined then some l.windows else none := by
  cases combined <;> exact ⟨rfl, rfl⟩

variable (ledger requests) in
/-- A page that fits is read whole, and the walk is at the place after it. -/
theorem readPage_ok (hserves : t.Serves l identity) (hnative : l.Native identity)
    (hadmits : plan.Admits l) {s : WalkState} {p first : Nat} (hat : s.At plan l p)
    (hplace : p + first ≤ l.nodes.length) (combined : Bool)
    (hbound : pageBound plan s.unknown ((l.rows.drop p).take first) +
      (if combined then l.windows.wire else 0) ≤ maxGithubResponseBytes)
    (hcalls : s.calls + (if combined then 0 else 1) < requests) :
    ∃ s', readPage plan ledger identity t requests l.opening l.windows.wire (l.rows.drop p) first
        combined s = .ok (l.answer identity (pageQuery first combined s.cursor), s') ∧
      s'.At plan l (p + first) ∧
      s'.collected = s.collected ++ ((l.nodes.drop p).take first).map ledger.comment ∧
      s'.calls = s.calls + 1 := by
  let nodes := (l.nodes.drop p).take first
  let q := pageQuery first combined s.cursor
  have hsorted := (slots_sorted plan).sublist hat.slots
  have hsub : nodes ⊆ l.nodes := fun n hn => List.mem_of_mem_drop (List.mem_of_mem_take hn)
  have hrows : (l.rows.drop p).take first = nodes.map CommentNode.row := by
    rw [NativeListing.rows, ← List.map_drop, ← List.map_take]
  have hdominates := hat.dominates
  rw [slotSizes_split plan _ first] at hdominates
  obtain ⟨rest, hfold, htake, hmore⟩ := readNodes_ok ledger identity s.collected
    hsorted hdominates (fun n hn => hadmits.bodies n (hsub hn))
    (fun n hn => hnative.comments _ (List.mem_map_of_mem (hsub hn)))
  have hnodes : outerBytes + nodesWire nodes ≤ pageBound plan s.unknown (nodes.map CommentNode.row) :=
    nodesWire_le hsorted htake (fun n hn => hadmits.bodies n (hsub hn))
      (fun n hn => hadmits.metadata n (hsub hn))
  rw [hrows] at hbound
  obtain ⟨hpage, hwindows⟩ := answer_page identity l first combined s.cursor
  have hstart : l.page first s.cursor = ⟨l.nodes.length, nodes,
      decide (p + first < l.nodes.length), l.cursor (p + first)⟩ := by
    unfold NativeListing.page
    rw [hat.cursor]
  -- the answer has its frame, its nodes, and the windows where they were asked for
  have hwire : (l.answer identity q).wire =
      l.frame q + (if combined then l.windows.wire else 0) + nodesWire nodes := by
    unfold Response.wire
    rw [hpage, hwindows, hstart]
    cases combined <;> rfl
  have hframe := hnative.frames q
  have hread : read t requests s.calls q = .ok (l.answer identity q, s.calls + 1) := by
    refine read_ok hserves (by omega) ?_
    rw [hwire]
    omega
  have hcount : nodes.length = first := by
    rw [List.length_take, List.length_drop]
    omega
  have hlength : l.rows.length = l.nodes.length := List.length_map _
  have hnext : decide (p + first < l.nodes.length) = decide (first < (l.rows.drop p).length) := by
    refine decide_eq_decide.mpr ?_
    rw [List.length_drop]
    omega
  obtain ⟨hoffset, hcursor⟩ := hnative.cursors (p + first) hplace
  have hrequire : requirePage identity (l.page first s.cursor) (l.answer identity q)
      l.opening.rows.length first (if combined then l.windows.wire else 0)
      (decide (first < (l.rows.drop p).length)) = .ok () := by
    have hrepository : (l.answer identity q).repository = identity.ref := rfl
    unfold requirePage requireRepository
    rw [ensure_bind hrepository, hstart]
    refine ensure_ok ⟨rfl, hlength.symm, hcount, hnext, hcursor, ?_⟩
    rw [hwire]
    change _ ≤ outerBytes + nodesWire nodes + _
    omega
  refine ⟨⟨some (l.cursor (p + first)), rest, s.collected ++ nodes.map ledger.comment,
    s.calls + 1⟩, ?_, ⟨hoffset, (Slots.takeSlots_sublist htake).trans hat.slots, ?_⟩, rfl, rfl⟩
  · unfold readPage
    rw [ensure_bind hcalls]
    refine (ok_bind hread _).trans ?_
    dsimp only
    rw [hpage]
    dsimp only
    rw [ok_bind hrequire, hstart, hrows]
    dsimp only
    rw [zip_rows]
    exact ok_bind hfold _
  · rw [List.drop_drop] at hmore
    exact hmore

variable (ledger requests) in
/-- From a place that the proof's page has already reached, the walk needs no more calls than the
proof counted. -/
theorem walk_ok (hserves : t.Serves l identity) (hnative : l.Native identity)
    (hadmits : plan.Admits l) (hsize : l.nodes.length ≤ maxComments) {calls i p : Nat}
    {s : WalkState} (hat : s.At plan l p) (hp : p < l.nodes.length) (hip : i ≤ p)
    (hcertified : plan.game.Certified plan.closingBound calls ((listingOrder hadmits).known i)
      ((listingOrder hadmits).unknown i))
    (hcalls : s.calls + calls ≤ requests) :
    ∃ total, walk plan ledger identity t requests l.opening l.windows.wire (l.rows.drop p) s =
        .ok (s.collected ++ (l.nodes.drop p).map ledger.comment, total) ∧
      total ≤ s.calls + calls := by
  let o := listingOrder hadmits
  have hlength : l.rows.length = l.nodes.length := List.length_map _
  have hall := listing_length hadmits
  induction calls generalizing i p s with
  | zero => exact hcertified.elim
  | succ calls ih =>
    obtain ⟨e, hie, heN, hboundary⟩ := o.exists_boundary (single_fits plan) (i := i) (by omega)
    obtain ⟨hterminal, hrest⟩ := hcertified _ _ hboundary
    let first := pageSize plan s.unknown (l.rows.drop p)
    have hfirst := pageSize_le plan s.unknown (l.rows.drop p)
    have hdrop : (l.rows.drop p).length = l.nodes.length - p := by
      rw [List.length_drop, hlength]
    -- the page goes at least as far as the one the proof has
    have hreach (c : Nat) (hc : p + c ≤ e) (hcl : p + c ≤ l.nodes.length) :
        pageBound plan s.unknown ((l.rows.drop p).take c) ≤ o.cost i e := by
      have hle := pageBound_le hadmits hat.slots hip (Nat.le_add_right p c) hc hcl
      unfold between at hle
      rwa [Nat.add_sub_cancel_left] at hle
    have hcost : o.cost i e ≤ maxGithubResponseBytes := hboundary.fits
    have hcount : e - i ≤ 100 := by
      have hmono := o.known_mono hie.le
      have he := o.place e
      have hi := o.place i
      have := hboundary.count
      omega
    have hfar : min e l.nodes.length ≤ p + first := by
      by_cases hpast : e ≤ p
      · exact (Nat.min_le_left _ _).trans (hpast.trans (Nat.le_add_right _ _))
      have hle : min e l.nodes.length - p ≤ first :=
        le_pageSize (by omega) (by omega) fun k _ hk =>
          (hreach k (by omega) (by omega)).trans hcost
      omega
    have hpos : 0 < first := by
      obtain ⟨e', hpe, _, hpage⟩ := o.exists_boundary (single_fits plan) (i := p) (by omega)
      have hone : pageBound plan s.unknown ((l.rows.drop p).take 1) ≤ maxGithubResponseBytes := by
        have hle := pageBound_le hadmits hat.slots (le_refl p) (Nat.le_add_right p 1) (e := e')
          (by omega) (by omega)
        unfold between at hle
        rw [Nat.add_sub_cancel_left] at hle
        exact hle.trans hpage.fits
      have hle : 1 ≤ first := le_pageSize (by omega) (by omega) fun k hk hk1 => by
        rw [show k = 1 by omega]
        exact hone
      omega
    have hfits := pageSize_fits plan s.unknown (l.rows.drop p) (by omega)
    have hopen : ¬ l.rows.drop p = [] := by
      intro hnil
      rw [hnil, List.length_nil] at hdrop
      omega
    -- one more call is left wherever the page does not bring the closing windows
    have hmore (hnot : ¬ (first = (l.rows.drop p).length ∧ pageBound plan s.unknown
        ((l.rows.drop p).take first) + l.windows.wire ≤ maxGithubResponseBytes)) : 1 ≤ calls := by
      by_cases hend : plan.game.Terminal (o.known i) (o.unknown i) (o.known e - o.known i)
          (o.unknown e - o.unknown i)
      · have hlast : e = plan.game.known.length + plan.game.largest.length := by
          have hmono := o.known_mono hie.le
          have he := o.place e
          have := hend.1
          have := hend.2
          omega
        have hcomplete : first = (l.rows.drop p).length := by omega
        have hlarge : maxGithubResponseBytes < pageBound plan s.unknown
            ((l.rows.drop p).take first) + l.windows.wire := by
          by_contra hsmall
          exact hnot ⟨hcomplete, by omega⟩
        have hpage := hreach first (by omega) (by omega)
        have hclosing := closing_le hadmits
        refine hterminal hend ?_
        change maxGithubResponseBytes < o.cost i e + plan.closingBound
        omega
      · have hnext := hrest hend
        cases calls with
        | zero => exact hnext.elim
        | succ calls => omega
    unfold walk
    rw [if_neg hopen, dif_neg (by omega : ¬ pageSize plan s.unknown (l.rows.drop p) = 0)]
    have hplace : p + first ≤ l.nodes.length := by omega
    by_cases hcombined : first = (l.rows.drop p).length ∧
        pageBound plan s.unknown ((l.rows.drop p).take first) + l.windows.wire ≤
          maxGithubResponseBytes
    · -- the last page with the closing windows
      obtain ⟨s', hread, _, hcollected, hcalls'⟩ := readPage_ok ledger requests
        hserves hnative hadmits hat hplace true hcombined.2 (by rw [if_pos rfl]; omega)
      have hclosing : requireClosing plan ledger identity l.opening
          (l.answer identity (pageQuery first true s.cursor)) = .ok () := by
        unfold requireClosing
        rw [ok_bind (membership_ok hnative hadmits hsize rfl rfl rfl)]
        exact ensure_ok rfl
      refine ⟨s'.calls, ?_, by omega⟩
      dsimp only
      rw [decide_eq_true hcombined]
      refine (ok_bind hread _).trans ?_
      dsimp only
      rw [if_pos rfl, ok_bind hclosing, hcollected, List.take_of_length_le (i := first)]
      · rfl
      · rw [List.length_drop]
        omega
    · have hone := hmore hcombined
      obtain ⟨s', hread, hat', hcollected, hcalls'⟩ := readPage_ok ledger requests
        hserves hnative hadmits hat hplace false
        (by simpa using hfits) (by rw [if_neg (by decide)]; omega)
      have hwalk : ∃ total, walk plan ledger identity t requests l.opening l.windows.wire
          (l.rows.drop (p + first)) s' =
            .ok (s'.collected ++ (l.nodes.drop (p + first)).map ledger.comment, total) ∧
          total ≤ s'.calls + calls := by
        by_cases hdone : p + first = l.nodes.length
        · -- every body is there, and the closing membership is read alone
          refine ⟨s'.calls + 1, ?_, by omega⟩
          rw [hdone, List.drop_of_length_le hlength.le, List.drop_length, List.map_nil,
            List.append_nil]
          exact walk_nil hserves hnative hadmits hsize (by omega)
        · have hnext : ¬ plan.game.Terminal (o.known i) (o.unknown i) (o.known e - o.known i)
              (o.unknown e - o.unknown i) := by
            rintro ⟨hknown, hunknown⟩
            have he := o.place e
            have hmono := o.known_mono hie.le
            omega
          have hcertified' := hrest hnext
          have hmono := o.known_mono hie.le
          rw [Nat.add_sub_cancel' hmono.1, Nat.add_sub_cancel' hmono.2] at hcertified'
          exact ih hat' (by omega) (by omega) hcertified' (by omega)
      obtain ⟨total, hrun, htotal⟩ := hwalk
      refine ⟨total, ?_, by omega⟩
      dsimp only
      rw [decide_eq_false hcombined]
      refine (ok_bind hread _).trans ?_
      dsimp only
      rw [if_neg (by decide), List.drop_drop]
      refine hrun.trans ?_
      have hsplit : (l.nodes.drop p).map ledger.comment =
          ((l.nodes.drop p).take first).map ledger.comment ++
            (l.nodes.drop (p + first)).map ledger.comment := by
        rw [← List.map_append, ← List.drop_drop, List.take_append_drop]
      rw [hcollected, hsplit, List.append_assoc]

/-- The packed census is as good as its certificate: with the requests that the plan was certified
for, the comments of every listing that the plan admits are read once each, in their order, and no
page is admitted beyond the bound of a response. -/
theorem packed_census_certified (hserves : t.Serves l identity) (hnative : l.Native identity)
    (hadmits : plan.Admits l) (hworst : plan.worstReadCalls ≤ maxPaginationPages) :
    (∃ calls, fetchPackedComments plan ledger identity t plan.worstReadCalls =
        .ok (l.nodes.map ledger.comment, calls) ∧ calls ≤ plan.worstReadCalls) ∧
      ∀ unknown rows, pageSize plan unknown rows ≠ 0 →
        pageBound plan unknown (rows.take (pageSize plan unknown rows)) ≤
          maxGithubResponseBytes := by
  refine ⟨?_, fun unknown rows => pageSize_fits plan unknown rows⟩
  have hlargest : plan.game.largest.length = plan.unknown.length := List.length_insertionSort _ _
  have hsize : l.nodes.length ≤ maxComments := by
    have hall := listing_length hadmits
    have hplan := plan.size
    have hknown : plan.game.known.length = plan.known.length := List.length_map _
    omega
  have hlength : l.rows.length = l.nodes.length := List.length_map _
  -- one call opens the walk, and the certificate counts the others
  obtain ⟨calls, hcalls, hpos, hcertified⟩ : ∃ calls, plan.worstReadCalls = 1 + calls ∧ 1 ≤ calls ∧
      (0 < l.nodes.length → plan.game.Certified plan.closingBound calls 0 0) := by
    by_cases hnone : plan.known.map Prod.snd ++ plan.unknown = []
    · obtain ⟨hknown, hunknown⟩ := List.append_eq_nil_iff.mp hnone
      refine ⟨1, ?_, le_refl _, fun hsome => ?_⟩
      · unfold CommentAllocationPlan.worstReadCalls
        rw [hknown, hunknown]
        exact packedRequestBound_nil
      · have hall := listing_length hadmits
        have hzero : plan.game.known.length = 0 := by
          rw [CommentAllocationPlan.game, hknown, List.length_nil]
        rw [hunknown, List.length_nil] at hlargest
        omega
    · obtain ⟨calls, heq, hcertified⟩ := packedRequestBound_certified hworst hnone
      refine ⟨calls, heq, ?_, fun _ => hcertified⟩
      cases calls with
      | zero => exact hcertified.elim
      | succ calls => omega
  have hmembership : membership plan ledger identity (l.answer identity .membership) =
      .ok l.opening := membership_ok hnative hadmits hsize rfl rfl rfl
  have hread := read_membership plan.worstReadCalls hserves hnative hadmits 0 (by omega)
  have hothers := others_count hadmits
  have hstart : WalkState.At { unknown := plan.slots, calls := 1 } plan l 0 := by
    refine ⟨rfl, .refl _, ?_⟩
    obtain ⟨slots, hslots, hfits⟩ := hadmits.others
    have hsorted : slots.Subperm plan.slots :=
      hslots.trans (List.perm_insertionSort _ _).symm.subperm
    exact Slots.dominates_of_matched hsorted hfits
  have hwalk : ∃ total, walk plan ledger identity t plan.worstReadCalls l.opening l.windows.wire
      l.rows { unknown := plan.slots, calls := 1 } = .ok (l.nodes.map ledger.comment, total) ∧
        total ≤ plan.worstReadCalls := by
    by_cases hsome : 0 < l.nodes.length
    · obtain ⟨total, hrun, htotal⟩ := walk_ok ledger plan.worstReadCalls
        hserves hnative hadmits hsize hstart hsome (le_refl 0) (hcertified hsome)
        (by rw [hcalls])
      exact ⟨total, hrun, by rw [hcalls]; exact htotal⟩
    · have hnil : l.nodes = [] := List.length_eq_zero_iff.mp (by omega)
      have hrows : l.rows = [] := by rw [NativeListing.rows, hnil, List.map_nil]
      refine ⟨2, ?_, by omega⟩
      rw [hrows, hnil]
      exact walk_nil hserves hnative hadmits hsize (by dsimp only; omega)
  obtain ⟨total, hrun, htotal⟩ := hwalk
  refine ⟨total, ?_, htotal⟩
  unfold fetchPackedComments
  rw [ensure_bind ⟨by omega, hworst⟩]
  refine (ok_bind hread _).trans ?_
  dsimp only
  rw [ok_bind hmembership]
  refine (ensure_bind hadmits.known _).trans ?_
  refine (ensure_bind hothers _).trans ?_
  exact hrun

end Walk

section Sample

def sampleIdentity : Identity := ⟨"o/r", 7, 3⟩

def sampleNode (id : Nat) (body : String) : CommentNode where
  row := {
    fullDatabaseId := id
    createdAt := "t"
    updatedAt := "t"
    author := none
    number := 3
    repository := sampleIdentity.ref }
  body := body

/-- A known comment, and a new one in the middle of a listing. -/
def sampleListing : NativeListing where
  nodes := [sampleNode 5 "new", sampleNode 4 "old"]
  scope := (String.ofList (List.replicate 40 '0'), String.ofList (List.replicate 40 '1'))
  cursor k := String.ofList (List.replicate (k + 1) 'c')
  offset s := s.toList.length - 1
  frame _ := 512

def samplePlan : CommentAllocationPlan where
  known := [(4, 100)]
  unknown := [200, 100]
  known_nodup := by decide
  metadata_known := by decide
  metadata_bound := plain_metadata
  size := by decide
  ids := by decide
  bound := by decide

def sampleTransport : Transport where
  answer _ q := some (sampleListing.answer sampleIdentity q)
  late _ := false

theorem sample_native : sampleListing.Native sampleIdentity where
  scope := by decide
  ids := by decide
  cursors k hk := by
    refine ⟨?_, ?_⟩
    · change (String.ofList (List.replicate (k + 1) 'c')).toList.length - 1 = k
      rw [String.toList_ofList, List.length_replicate, Nat.add_sub_cancel]
    · have hsmall : k ≤ 2 := hk
      interval_cases k <;> decide
  frames _ := by
    change 512 ≤ 4096
    decide
  comments := by decide

theorem sample_admits : samplePlan.Admits sampleListing where
  known := by decide
  bodies := by decide
  others := ⟨[100], by decide, by decide⟩
  metadata := by decide +kernel

theorem sample_census :
    samplePlan.worstReadCalls ≤ maxPaginationPages ∧
      ∃ calls, fetchPackedComments samplePlan ⟨none, id, ""⟩ sampleIdentity sampleTransport
          samplePlan.worstReadCalls =
        .ok (sampleListing.nodes.map (Ledger.comment ⟨none, id, ""⟩), calls) ∧
          calls ≤ samplePlan.worstReadCalls := by
  have hworst : samplePlan.worstReadCalls ≤ maxPaginationPages := by decide
  exact ⟨hworst, (packed_census_certified ⟨fun _ _ => rfl, fun _ => rfl⟩ sample_native
    sample_admits hworst).1⟩

end Sample

end ReviewSensei.Packed
