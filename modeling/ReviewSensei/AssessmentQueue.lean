import ReviewSensei.SessionSteps
import Mathlib.Data.List.Perm.Basic
import Mathlib.Data.List.Nodup

/-! The queue of findings that await a human assessment: windows are served from the front, what
was visited moves behind, and what was resolved never returns. -/
namespace ReviewSensei.Assessment
open Session (isSha256 bind_ok)

section Rotation
variable {α : Type}

theorem perm_of_same_members {l m : List α} (hl : l.Nodup) (hm : m.Nodup)
    (h : ∀ i, i ∈ l ↔ i ∈ m) : l.Perm m :=
  (List.perm_ext_iff_of_nodup hl hm).mpr h

variable [DecidableEq α]

/-- Without repetition, what is outside a prefix is what follows it. -/
theorem filter_not_mem_take {l : List α} (h : l.Nodup) (n : Nat) :
    l.filter (fun i => i ∉ l.take n) = l.drop n := by
  have hsplit : l.take n ++ l.drop n = l := List.take_append_drop n l
  have hdisjoint := List.nodup_append.mp (hsplit.symm ▸ h)
  have hfront : (l.take n).filter (fun i => i ∉ l.take n) = [] := by
    rw [List.filter_eq_nil_iff]
    intro i hi
    simpa using hi
  have hback : (l.drop n).filter (fun i => i ∉ l.take n) = l.drop n := by
    rw [List.filter_eq_self]
    intro i hi
    exact decide_eq_true (fun htake => hdisjoint.2.2 i htake i hi rfl)
  calc l.filter (fun i => i ∉ l.take n)
      = (l.take n ++ l.drop n).filter (fun i => i ∉ l.take n) := by rw [hsplit]
    _ = l.drop n := by rw [List.filter_append, hfront, hback, List.nil_append]

end Rotation

def maxQueueFindings : Nat := 250

/-- `sorted`, by code points. -/
def sorted (ids : List String) : List String := ids.mergeSort (fun a b => decide (a ≤ b))

@[simp] theorem mem_sorted {ids : List String} {i : String} : i ∈ sorted ids ↔ i ∈ ids :=
  (List.mergeSort_perm ids _).mem_iff

@[simp] theorem nodup_sorted {ids : List String} : (sorted ids).Nodup ↔ ids.Nodup :=
  (List.mergeSort_perm ids _).nodup_iff

structure EvidenceSnapshot where
  repository : Option String
  pullRequest : Option Nat
  baseSha : Option String
  headSha : Option String
  deriving DecidableEq

/-- A published inventory, by the fingerprints of its findings; `inventoryDocument` is the
canonical text of everything immutable in it. -/
structure PendingHumanReview where
  baseSha : String
  fingerprints : List String
  resolved : List String
  inventoryDocument : String
  fingerprints_nodup : fingerprints.Nodup
  resolved_nodup : resolved.Nodup
  resolved_known : ∀ i ∈ resolved, i ∈ fingerprints

/-- The digest binds every instance, whatever is resolved. -/
def inventoryDigest (pending : PendingHumanReview) : String := sha256 pending.inventoryDocument

structure QueueFields where
  snapshot : EvidenceSnapshot
  inventoryDigest : String
  inventoryIds : List String
  pendingOrder : List String
  resolvedIds : List String
  deriving DecidableEq

namespace QueueFields

def assigned (f : QueueFields) : List String := f.pendingOrder ++ f.resolvedIds

def identityValid (f : QueueFields) : Bool :=
  f.snapshot.baseSha.any (· ≠ "") && f.snapshot.headSha.any (· ≠ "") &&
    isSha256 f.inventoryDigest && decide (1 ≤ f.inventoryIds.length) &&
    decide (f.inventoryIds.length ≤ maxQueueFindings)

/-- Every instance is assigned once. -/
def retainsOnce (f : QueueFields) : Bool :=
  (f.inventoryIds ++ f.assigned).all isSha256 && decide f.inventoryIds.Nodup &&
    decide f.assigned.Nodup && f.assigned.all (· ∈ f.inventoryIds) &&
    f.inventoryIds.all (· ∈ f.assigned)

end QueueFields

/-- A queue: its fields passed the checks of `__post_init__`. -/
structure AssessmentQueue extends QueueFields where
  identity_valid : toQueueFields.identityValid = true
  retains_once : toQueueFields.retainsOnce = true

namespace AssessmentQueue

def construct (f : QueueFields) : Except String AssessmentQueue :=
  if hi : f.identityValid = true then
    if hr : f.retainsOnce = true then .ok ⟨f, hi, hr⟩
    else .error "assessment queue must retain every instance once"
  else .error "assessment queue identity is invalid"

theorem construct_ok {f : QueueFields} {q : AssessmentQueue} (h : construct f = .ok q) :
    q.toQueueFields = f := by
  unfold construct at h
  split at h
  · split at h
    · exact (Except.ok.inj h).symm ▸ rfl
    · cases h
  · cases h

theorem partition (q : AssessmentQueue) :
    q.inventoryIds.Nodup ∧ (q.pendingOrder ++ q.resolvedIds).Nodup ∧
      ∀ i, i ∈ q.pendingOrder ++ q.resolvedIds ↔ i ∈ q.inventoryIds := by
  have h := q.retains_once
  simp only [QueueFields.retainsOnce, Bool.and_eq_true, decide_eq_true_eq,
    List.all_eq_true] at h
  obtain ⟨⟨⟨⟨_, hinventory⟩, hassigned⟩, hknown⟩, hcovered⟩ := h
  exact ⟨hinventory, hassigned, fun i => ⟨hknown i, hcovered i⟩⟩

theorem pending_nodup (q : AssessmentQueue) : q.pendingOrder.Nodup :=
  (List.nodup_append.mp q.partition.2.1).1

theorem pending_unresolved (q : AssessmentQueue) {i : String} (hi : i ∈ q.pendingOrder) :
    i ∉ q.resolvedIds :=
  fun hr => (List.nodup_append.mp q.partition.2.1).2.2 i hi i hr rfl

def create (pending : PendingHumanReview) (snapshot : EvidenceSnapshot) :
    Except String AssessmentQueue :=
  if some pending.baseSha ≠ snapshot.baseSha then .error "assessment queue snapshot is stale"
  else construct
    { snapshot
      inventoryDigest := inventoryDigest pending
      inventoryIds := sorted pending.fingerprints
      pendingOrder := sorted (pending.fingerprints.filter (· ∉ pending.resolved))
      resolvedIds := sorted pending.resolved }

/-- The next window, or the named targets in queue order. -/
def select (q : AssessmentQueue) (targets : Option (List String)) (limit : Nat) :
    Except String (List String) :=
  if 250 < limit then .error "assessment queue selection limit is invalid"
  else match targets with
    | none => .ok (q.pendingOrder.take limit)
    | some targets =>
      if targets = [] ∨ maxQueueFindings < targets.length ∨ !targets.all isSha256 ∨
          ¬targets.Nodup ∨ !targets.all (· ∈ q.pendingOrder) then
        .error "assessment targets are unknown, stale or ambiguous"
      else .ok ((q.pendingOrder.filter (· ∈ targets)).take limit)

/-- What `advance` asks of the visited and the resolved ids. -/
structure Progress (q : AssessmentQueue) (visited resolved : List String) : Prop where
  visited_nodup : visited.Nodup
  resolved_nodup : resolved.Nodup
  visited_pending : ∀ i ∈ visited, i ∈ q.pendingOrder
  resolved_known : ∀ i ∈ resolved, i ∈ q.inventoryIds
  resolved_kept : ∀ i ∈ q.resolvedIds, i ∈ resolved
  resolved_visited : ∀ i ∈ resolved, i ∉ q.resolvedIds → i ∈ visited

theorem progress_iff {q : AssessmentQueue} {visited resolved : List String} :
    Progress q visited resolved ↔
      visited.Nodup ∧ resolved.Nodup ∧ (∀ i ∈ visited, i ∈ q.pendingOrder) ∧
        (∀ i ∈ resolved, i ∈ q.inventoryIds) ∧ (∀ i ∈ q.resolvedIds, i ∈ resolved) ∧
        ∀ i ∈ resolved, i ∉ q.resolvedIds → i ∈ visited :=
  ⟨fun h => ⟨h.1, h.2, h.3, h.4, h.5, h.6⟩,
    fun ⟨h₁, h₂, h₃, h₄, h₅, h₆⟩ => ⟨h₁, h₂, h₃, h₄, h₅, h₆⟩⟩

instance (q : AssessmentQueue) (visited resolved : List String) :
    Decidable (Progress q visited resolved) :=
  decidable_of_iff' _ progress_iff

def advance (q : AssessmentQueue) (visited resolved : List String) :
    Except String AssessmentQueue :=
  if ¬Progress q visited resolved then .error "assessment queue progress loses authority"
  else
    let remaining := q.pendingOrder.filter (· ∉ resolved)
    construct
      { q.toQueueFields with
        pendingOrder := remaining.filter (· ∉ visited) ++ remaining.filter (· ∈ visited)
        resolvedIds := sorted resolved }

/-- Join new inventory instances. -/
def reconcile (q : AssessmentQueue) (pending : PendingHumanReview) :
    Except String AssessmentQueue :=
  if some pending.baseSha ≠ q.snapshot.baseSha ∨
      !q.inventoryIds.all (· ∈ pending.fingerprints) ∨
      !q.resolvedIds.all (· ∈ pending.resolved) then
    .error "assessment inventory reconciliation loses obligations"
  else construct
    { q.toQueueFields with
      inventoryDigest := inventoryDigest pending
      inventoryIds := sorted pending.fingerprints
      pendingOrder := q.pendingOrder.filter (· ∉ pending.resolved) ++
        sorted (pending.fingerprints.filter
          (fun i => i ∉ q.inventoryIds && i ∉ pending.resolved))
      resolvedIds := sorted pending.resolved }

/-- An advance moves the visited ids behind the others, less what it resolves. -/
theorem advance_ok {q q' : AssessmentQueue} {visited resolved : List String}
    (h : q.advance visited resolved = .ok q') :
    Progress q visited resolved ∧ q'.toQueueFields =
      { q.toQueueFields with
        pendingOrder := q.pendingOrder.filter (· ∉ visited) ++
          q.pendingOrder.filter (fun i => i ∈ visited ∧ i ∉ resolved)
        resolvedIds := sorted resolved } := by
  unfold advance at h
  split at h
  · cases h
  rename_i hprogress
  have hguard : Progress q visited resolved := not_not.mp hprogress
  -- A pending id that was not visited is not resolved.
  have hunvisited : (q.pendingOrder.filter (· ∉ resolved)).filter (· ∉ visited) =
      q.pendingOrder.filter (· ∉ visited) := by
    rw [List.filter_filter]
    apply List.filter_congr
    intro i hi
    have hkeep : i ∈ resolved → i ∈ visited := fun hr =>
      hguard.resolved_visited i hr (q.pending_unresolved hi)
    by_cases hv : i ∈ visited <;> by_cases hr : i ∈ resolved <;> simp [hv, hr]
    exact hv (hkeep hr)
  have hvisited : (q.pendingOrder.filter (· ∉ resolved)).filter (· ∈ visited) =
      q.pendingOrder.filter (fun i => i ∈ visited ∧ i ∉ resolved) := by
    rw [List.filter_filter]
    apply List.filter_congr
    intro i _
    simp
  refine ⟨hguard, ?_⟩
  rw [construct_ok h]
  dsimp only
  rw [hunvisited, hvisited]

/-- The guard of `advance` is all it takes: what it builds always passes the checks. -/
theorem advance_iff {q : AssessmentQueue} {visited resolved : List String} :
    (∃ q', q.advance visited resolved = .ok q') ↔ Progress q visited resolved := by
  refine ⟨fun h => h.elim fun _ hadvanced => (advance_ok hadvanced).1, fun h => ?_⟩
  obtain ⟨hinventory, hassigned, hmember⟩ := q.partition
  have hpending := q.pending_nodup
  have hids : ∀ i ∈ q.inventoryIds, isSha256 i = true := by
    have hall := q.retains_once
    simp only [QueueFields.retainsOnce, Bool.and_eq_true, List.all_eq_true] at hall
    exact fun i hi => hall.1.1.1.1 i (List.mem_append_left _ hi)
  have hnew : ∀ i, i ∈ (q.pendingOrder.filter (· ∉ resolved)).filter (· ∉ visited) ++
      (q.pendingOrder.filter (· ∉ resolved)).filter (· ∈ visited) ++ sorted resolved ↔
      i ∈ q.inventoryIds := by
    intro i
    rw [← hmember i]
    simp only [List.mem_append, List.mem_filter, mem_sorted, decide_eq_true_eq]
    constructor
    · rintro ((⟨⟨hi, _⟩, _⟩ | ⟨⟨hi, _⟩, _⟩) | hi)
      · exact .inl hi
      · exact .inl hi
      · have hknown := (hmember i).mpr (h.resolved_known i hi)
        exact List.mem_append.mp hknown
    · rintro (hi | hi)
      · by_cases hr : i ∈ resolved
        · exact .inr hr
        · by_cases hv : i ∈ visited
          · exact .inl (.inr ⟨⟨hi, hr⟩, hv⟩)
          · exact .inl (.inl ⟨⟨hi, hr⟩, hv⟩)
      · exact .inr (h.resolved_kept i hi)
  have hnodup : ((q.pendingOrder.filter (· ∉ resolved)).filter (· ∉ visited) ++
      (q.pendingOrder.filter (· ∉ resolved)).filter (· ∈ visited) ++ sorted resolved).Nodup := by
    rw [List.nodup_append, List.nodup_append]
    refine ⟨⟨(hpending.filter _).filter _, (hpending.filter _).filter _, ?_⟩,
      nodup_sorted.mpr h.resolved_nodup, ?_⟩
    · rintro i hi j hj rfl
      simp only [List.mem_filter, decide_eq_true_eq] at hi hj
      exact hi.2 hj.2
    · rintro i hi j hj rfl
      simp only [List.mem_append, List.mem_filter, decide_eq_true_eq, mem_sorted] at hi hj
      rcases hi with hi | hi
      · exact hi.1.2 hj
      · exact hi.1.2 hj
  unfold advance
  rw [if_neg (not_not.mpr h)]
  unfold construct
  refine ⟨_, (dif_pos ?_).trans (dif_pos ?_)⟩
  · exact q.identity_valid
  · simp only [QueueFields.retainsOnce, Bool.and_eq_true, decide_eq_true_eq, List.all_eq_true]
    refine ⟨⟨⟨⟨fun i hi => ?_, hinventory⟩, hnodup⟩, fun i hi => (hnew i).mp hi⟩,
      fun i hi => (hnew i).mpr hi⟩
    rcases List.mem_append.mp hi with hi | hi
    · exact hids i hi
    · exact hids i ((hnew i).mp hi)

theorem reconcile_ok {q q' : AssessmentQueue} {pending : PendingHumanReview}
    (h : q.reconcile pending = .ok q') :
    (∀ i ∈ q.inventoryIds, i ∈ q'.inventoryIds) ∧ ∀ i ∈ q.resolvedIds, i ∈ q'.resolvedIds := by
  unfold reconcile at h
  split at h
  · cases h
  rename_i hguard
  simp only [not_or, Bool.not_eq_true', Bool.not_eq_false, List.all_eq_true,
    decide_eq_true_eq] at hguard
  rw [construct_ok h]
  exact ⟨fun i hi => mem_sorted.mpr (hguard.2.1 i hi), fun i hi => mem_sorted.mpr (hguard.2.2 i hi)⟩

end AssessmentQueue

open AssessmentQueue

/-- One call on a queue. -/
inductive QueueCall
  | select (limit : Nat)
  | advance (visited resolved : List String)
  | reconcile (pending : PendingHumanReview)

namespace QueueCall

def apply (q : AssessmentQueue) : QueueCall → Except String AssessmentQueue
  | select limit => do
    let _ ← q.select none limit
    .ok q
  | advance visited resolved => q.advance visited resolved
  | reconcile pending => q.reconcile pending

def visited : QueueCall → List String
  | advance visited _ => visited
  | _ => []

def isReconcile : QueueCall → Bool
  | reconcile _ => true
  | _ => false

end QueueCall

/-- A run of calls that are all accepted. -/
def queueRun (q : AssessmentQueue) (calls : List QueueCall) : Except String AssessmentQueue :=
  calls.foldlM QueueCall.apply q

theorem apply_keeps {q q' : AssessmentQueue} {c : QueueCall} (h : c.apply q = .ok q') :
    (∀ i ∈ q.inventoryIds, i ∈ q'.inventoryIds) ∧ ∀ i ∈ q.resolvedIds, i ∈ q'.resolvedIds := by
  cases c with
  | select limit =>
    obtain ⟨_, _, h⟩ := bind_ok h
    obtain rfl := Except.ok.inj h
    exact ⟨fun _ hi => hi, fun _ hi => hi⟩
  | advance visited resolved =>
    obtain ⟨hprogress, hq'⟩ := advance_ok h
    rw [hq']
    exact ⟨fun _ hi => hi, fun i hi => mem_sorted.mpr (hprogress.resolved_kept i hi)⟩
  | reconcile pending => exact reconcile_ok h

theorem queueRun_cons {q q' : AssessmentQueue} {c : QueueCall} {calls : List QueueCall}
    (h : queueRun q (c :: calls) = .ok q') :
    ∃ q₁, c.apply q = .ok q₁ ∧ queueRun q₁ calls = .ok q' := by
  unfold queueRun at h
  rw [List.foldlM_cons] at h
  exact bind_ok h

theorem run_keeps {q q' : AssessmentQueue} {calls : List QueueCall}
    (h : queueRun q calls = .ok q') :
    (∀ i ∈ q.inventoryIds, i ∈ q'.inventoryIds) ∧ ∀ i ∈ q.resolvedIds, i ∈ q'.resolvedIds := by
  induction calls generalizing q with
  | nil =>
    obtain rfl := Except.ok.inj h
    exact ⟨fun _ hi => hi, fun _ hi => hi⟩
  | cons c calls ih =>
    obtain ⟨q₁, hfirst, hrest⟩ := queueRun_cons h
    obtain ⟨hinventory, hresolved⟩ := apply_keeps hfirst
    obtain ⟨hinventory', hresolved'⟩ := ih hrest
    exact ⟨fun i hi => hinventory' i (hinventory i hi), fun i hi => hresolved' i (hresolved i hi)⟩

/-- The ids pending in `q` that were never visited come first, in their order. -/
def Ahead (q q' : AssessmentQueue) (visited : List String) : Prop :=
  ∃ rest, q'.pendingOrder = q.pendingOrder.filter (· ∉ visited) ++ rest ∧ ∀ i ∈ rest, i ∈ visited

theorem apply_ahead {q q' : AssessmentQueue} {c : QueueCall} (h : c.apply q = .ok q')
    (hc : c.isReconcile = false) : q'.inventoryIds = q.inventoryIds ∧ Ahead q q' c.visited := by
  cases c with
  | select limit =>
    obtain ⟨_, _, h⟩ := bind_ok h
    obtain rfl := Except.ok.inj h
    refine ⟨rfl, [], ?_, by simp⟩
    simp [QueueCall.visited]
  | advance visited resolved =>
    obtain ⟨_, hq'⟩ := advance_ok h
    rw [hq']
    refine ⟨rfl, _, by rw [hq']; rfl, fun i hi => ?_⟩
    exact (of_decide_eq_true (List.mem_filter.mp hi).2).1
  | reconcile pending => cases hc

theorem Ahead.trans {q₀ q₁ q₂ : AssessmentQueue} {vs ws : List String} (h₀ : Ahead q₀ q₁ vs)
    (h₁ : Ahead q₁ q₂ ws) : Ahead q₀ q₂ (vs ++ ws) := by
  obtain ⟨rest, hrest, hvisited⟩ := h₀
  obtain ⟨rest', hrest', hvisited'⟩ := h₁
  refine ⟨rest.filter (· ∉ ws) ++ rest', ?_, ?_⟩
  · rw [hrest', hrest, List.filter_append, List.filter_filter, List.append_assoc]
    congr 1
    apply List.filter_congr
    intro i _
    simp only [List.mem_append, not_or, Bool.decide_and, Bool.and_comm]
  · intro i hi
    rcases List.mem_append.mp hi with hi | hi
    · exact List.mem_append_left _ (hvisited i (List.mem_filter.mp hi).1)
    · exact List.mem_append_right _ (hvisited' i hi)

theorem run_ahead {q q' : AssessmentQueue} {calls : List QueueCall}
    (h : queueRun q calls = .ok q') (hcalls : ∀ c ∈ calls, c.isReconcile = false) :
    q'.inventoryIds = q.inventoryIds ∧ Ahead q q' (calls.flatMap QueueCall.visited) := by
  induction calls generalizing q with
  | nil =>
    obtain rfl := Except.ok.inj h
    exact ⟨rfl, [], by simp, by simp⟩
  | cons c calls ih =>
    obtain ⟨q₁, hfirst, hrest⟩ := queueRun_cons h
    obtain ⟨hsame, hahead⟩ := apply_ahead hfirst (hcalls c List.mem_cons_self)
    obtain ⟨hsame', hahead'⟩ := ih hrest (fun d hd => hcalls d (List.mem_cons_of_mem _ hd))
    refine ⟨hsame'.trans hsame, ?_⟩
    rw [List.flatMap_cons]
    exact hahead.trans hahead'

/-- Windows of one size: each visits exactly the selected prefix and resolves what it names. The
result holds the last queue and every id visited. -/
def windows (limit : Nat) (q : AssessmentQueue) :
    List (List String) → Except String (AssessmentQueue × List String)
  | [] => .ok (q, [])
  | resolved :: later => do
    let visited ← q.select none limit
    let q' ← q.advance visited resolved
    let (last, seen) ← windows limit q' later
    .ok (last, visited ++ seen)

theorem windows_cons {limit : Nat} {q last : AssessmentQueue} {resolved : List String}
    {later : List (List String)} {seen : List String}
    (h : windows limit q (resolved :: later) = .ok (last, seen)) :
    ∃ q' seen', q.advance (q.pendingOrder.take limit) resolved = .ok q' ∧
      windows limit q' later = .ok (last, seen') ∧ seen = q.pendingOrder.take limit ++ seen' := by
  unfold windows at h
  obtain ⟨visited, hselect, h⟩ := bind_ok h
  obtain ⟨q', hadvance, h⟩ := bind_ok h
  obtain ⟨⟨last', seen'⟩, hlater, h⟩ := bind_ok h
  obtain ⟨rfl, rfl⟩ := Prod.mk.inj (Except.ok.inj h)
  have hvisited : visited = q.pendingOrder.take limit := by
    unfold AssessmentQueue.select at hselect
    split at hselect
    · cases hselect
    · exact (Except.ok.inj hselect).symm
  rw [hvisited] at hadvance
  exact ⟨q', seen', hadvance, hlater, by rw [hvisited]⟩

/-- The front of the queue is visited, one window after the other. -/
theorem windows_visit_front {limit : Nat} {q last : AssessmentQueue} {rounds : List (List String)}
    {seen front back : List String} (h : windows limit q rounds = .ok (last, seen))
    (hq : q.pendingOrder = front ++ back) : ∀ i ∈ front.take (rounds.length * limit), i ∈ seen := by
  induction rounds generalizing q seen front back with
  | nil => simp
  | cons resolved later ih =>
    obtain ⟨q', seen', hadvance, hlater, rfl⟩ := windows_cons h
    -- What was not visited moves up: the rest of the front leads the next queue.
    have hnext : q'.pendingOrder = front.drop limit ++ (back.drop (limit - front.length) ++
        q.pendingOrder.filter (fun i => i ∈ q.pendingOrder.take limit ∧ i ∉ resolved)) := by
      have hpending : q'.pendingOrder = _ := congrArg QueueFields.pendingOrder (advance_ok hadvance).2
      rw [hpending, filter_not_mem_take q.pending_nodup, hq, List.drop_append, List.append_assoc]
    intro i hi
    have hcount : (later.length + 1) * limit = limit + later.length * limit := by
      rw [Nat.succ_mul, Nat.add_comm]
    rw [List.length_cons, hcount, List.take_add] at hi
    rcases List.mem_append.mp hi with hnow | hlaterwards
    · apply List.mem_append_left
      rw [hq, List.take_append]
      exact List.mem_append_left _ hnow
    · exact List.mem_append_right _ (ih hlater hnext i hlaterwards)

theorem windows_visit_all {limit : Nat} {q last : AssessmentQueue} {rounds : List (List String)}
    {seen : List String} (hlimit : 1 ≤ limit) (h : windows limit q rounds = .ok (last, seen))
    (hrounds : rounds.length = (q.pendingOrder.length + limit - 1) / limit) :
    ∀ i ∈ q.pendingOrder, i ∈ seen := by
  have henough : q.pendingOrder.length ≤ rounds.length * limit := by
    have hdiv := Nat.lt_div_mul_add hlimit (a := q.pendingOrder.length + limit - 1)
    rw [← hrounds] at hdiv
    omega
  have hwhole : q.pendingOrder = q.pendingOrder ++ [] := (List.append_nil _).symm
  have hfront := windows_visit_front h hwhole
  rwa [List.take_of_length_le henough] at hfront

/-- Progress of a queue. Along every accepted run the pending and the resolved ids part the
inventory, nothing is dropped or reopened, and without new inventory the ids never visited stay
ahead in their order. Windows of one size visit everything that was pending in as many windows as
it takes to hold it. -/
theorem assessment_queue_progress (q : AssessmentQueue) :
    (∀ calls q', queueRun q calls = .ok q' →
      (q'.pendingOrder ++ q'.resolvedIds).Perm q'.inventoryIds ∧ q'.inventoryIds.Nodup ∧
      (∀ i ∈ q.inventoryIds, i ∈ q'.inventoryIds) ∧ (∀ i ∈ q.resolvedIds, i ∈ q'.resolvedIds) ∧
      ((∀ c ∈ calls, c.isReconcile = false) →
        q'.inventoryIds = q.inventoryIds ∧ Ahead q q' (calls.flatMap QueueCall.visited))) ∧
    (∀ visited resolved q', q.advance visited resolved = .ok q' →
      q'.pendingOrder = q.pendingOrder.filter (· ∉ visited) ++
        q.pendingOrder.filter (fun i => i ∈ visited ∧ i ∉ resolved)) ∧
    ∀ limit rounds last seen, 1 ≤ limit → windows limit q rounds = .ok (last, seen) →
      rounds.length = (q.pendingOrder.length + limit - 1) / limit →
      ∀ i ∈ q.pendingOrder, i ∈ seen := by
  refine ⟨fun calls q' hrun => ?_, fun visited resolved q' h => ?_,
    fun limit rounds last seen => windows_visit_all⟩
  · obtain ⟨hinventory, hassigned, hmember⟩ := q'.partition
    obtain ⟨hkept, hresolved⟩ := run_keeps hrun
    exact ⟨perm_of_same_members hassigned hinventory hmember, hinventory, hkept, hresolved,
      run_ahead hrun⟩
  · rw [(advance_ok h).2]

end ReviewSensei.Assessment
