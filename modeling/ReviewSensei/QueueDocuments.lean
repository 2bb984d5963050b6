import ReviewSensei.AssessmentQueue
import ReviewSensei.JsonFields
import ReviewSensei.JsonOrder

/-! The documents of assessment queues. A document is kept with its keys in order. -/
namespace ReviewSensei.Assessment
open Session (isSha256 isGitSha)
open Sha256 (encode)

def queueInterfaceVersion : String := "assessment-queue-v1"

/-- `EvidenceSnapshot.__post_init__`. -/
def EvidenceSnapshot.valid (s : EvidenceSnapshot) : Bool :=
  s.repository.all (fun r => decide (r ≠ "") && decide ((encode r).length ≤ 512)) &&
    s.pullRequest.all (fun n => decide (1 ≤ n)) && s.baseSha.all isGitSha && s.headSha.all isGitSha

def optionalText : Option String → Json
  | none => .null
  | some s => .str s

def optionalNumber : Option Nat → Json
  | none => .null
  | some n => .int n

def readOptionalText : Json → Option (Option String)
  | .null => some none
  | .str s => some (some s)
  | _ => none

def readOptionalNumber : Json → Option (Option Nat)
  | .null => some none
  | .int i => if 1 ≤ i then some (some i.toNat) else none
  | _ => none

def readText? : Json → Option String
  | .str s => some s
  | _ => none

def snapshotKeys : List String := ["base_sha", "head_sha", "pull_request", "repository"]

def EvidenceSnapshot.toDict (s : EvidenceSnapshot) : Json :=
  .obj (snapshotKeys.zip [optionalText s.baseSha, optionalText s.headSha,
    optionalNumber s.pullRequest, optionalText s.repository])

def checkedSnapshot (s : EvidenceSnapshot) : Option EvidenceSnapshot :=
  if s.valid = true then some s else none

/-- `EvidenceSnapshot(**value)`. -/
def readSnapshot (value : Json) : Option EvidenceSnapshot :=
  match value.record? snapshotKeys with
  | some [base, head, number, repository] => do
    let baseSha ← readOptionalText base
    let headSha ← readOptionalText head
    let pullRequest ← readOptionalNumber number
    let repository ← readOptionalText repository
    checkedSnapshot ⟨repository, pullRequest, baseSha, headSha⟩
  | _ => none

/-- A queue over a snapshot that passed its own checks. -/
structure HeldQueue extends AssessmentQueue where
  snapshot_valid : snapshot.valid = true

def hold (f : QueueFields) : Option HeldQueue :=
  if h : f.identityValid = true ∧ f.retainsOnce = true ∧ f.snapshot.valid = true then
    some ⟨⟨f, h.1, h.2.1⟩, h.2.2⟩
  else none

def queueKeys : List String :=
  ["inventory_digest", "inventory_ids", "pending_order", "resolved_ids", "schema_version",
    "snapshot"]

def texts (ids : List String) : Json := .arr (ids.map Json.str)

/-- `AssessmentQueue.to_document`. -/
def QueueFields.toDocument (f : QueueFields) : Json :=
  .obj (queueKeys.zip [.str f.inventoryDigest, texts f.inventoryIds, texts f.pendingOrder,
    texts f.resolvedIds, .str queueInterfaceVersion, f.snapshot.toDict])

def readQueue (value : Json) : Option HeldQueue :=
  match value.record? queueKeys with
  | some [.str digest, .arr inventory, .arr pending, .arr resolved, version, snapshot] =>
    if version = .str queueInterfaceVersion then do
      let snapshot ← readSnapshot snapshot
      let inventoryIds ← inventory.mapM readText?
      let pendingOrder ← pending.mapM readText?
      let resolvedIds ← resolved.mapM readText?
      hold ⟨snapshot, digest, inventoryIds, pendingOrder, resolvedIds⟩
    else none
  | _ => none

/-- `AssessmentQueue.from_document`. -/
def queueFromDocument (value : Json) : Except String HeldQueue :=
  match readQueue value with
  | some q => .ok q
  | none => .error "assessment queue document is invalid"

theorem hold_some {f : QueueFields} {q : HeldQueue} (h : hold f = some q) :
    q.toQueueFields = f := by
  unfold hold at h
  split at h
  · exact Option.some.inj h ▸ rfl
  · cases h

theorem hold_self (q : HeldQueue) : hold q.toQueueFields = some q :=
  dif_pos ⟨q.identity_valid, q.retains_once, q.snapshot_valid⟩

/-- Reading a list of texts inverts writing it. -/
theorem mapM_readText? (ids : List String) : (ids.map Json.str).mapM readText? = some ids := by
  induction ids with
  | nil => rfl
  | cons i ids ih =>
    rw [List.map_cons, List.mapM_cons, ih]
    rfl

theorem mapM_readText?_some {items : List Json} {ids : List String}
    (h : items.mapM readText? = some ids) : items = ids.map Json.str := by
  induction items generalizing ids with
  | nil =>
    obtain rfl := Option.some.inj h
    rfl
  | cons item items ih =>
    rw [List.mapM_cons] at h
    obtain ⟨i, hi, h⟩ := Option.bind_eq_some_iff.mp h
    obtain ⟨rest, hrest, h⟩ := Option.bind_eq_some_iff.mp h
    obtain rfl := Option.some.inj h
    cases item with
    | str s =>
      obtain rfl := Option.some.inj hi
      rw [ih hrest, List.map_cons]
    | _ => cases hi

theorem readOptionalText_some {j : Json} {value : Option String}
    (h : readOptionalText j = some value) : j = optionalText value := by
  cases j with
  | null => exact Option.some.inj h ▸ rfl
  | str s => exact Option.some.inj h ▸ rfl
  | _ => cases h

theorem readOptionalText_self (value : Option String) :
    readOptionalText (optionalText value) = some value := by
  cases value <;> rfl

theorem readOptionalNumber_some {j : Json} {value : Option Nat}
    (h : readOptionalNumber j = some value) : j = optionalNumber value := by
  cases j with
  | null => exact Option.some.inj h ▸ rfl
  | int i =>
    rw [readOptionalNumber] at h
    split at h
    next hi =>
      obtain rfl := Option.some.inj h
      rw [optionalNumber, Int.toNat_of_nonneg (by omega)]
    next => cases h
  | _ => cases h

theorem readOptionalNumber_self {value : Option Nat}
    (h : value.all (fun n => decide (1 ≤ n)) = true) :
    readOptionalNumber (optionalNumber value) = some value := by
  cases value with
  | none => rfl
  | some n =>
    have hn : 1 ≤ n := by simpa using h
    rw [optionalNumber, readOptionalNumber, if_pos (by omega), Int.toNat_natCast]

theorem readSnapshot_some {value : Json} {s : EvidenceSnapshot}
    (h : readSnapshot value = some s) : value = s.toDict ∧ s.valid = true := by
  unfold readSnapshot at h
  split at h
  next base head number repository hrecord =>
    obtain ⟨baseSha, hbase, h⟩ := Option.bind_eq_some_iff.mp h
    obtain ⟨headSha, hhead, h⟩ := Option.bind_eq_some_iff.mp h
    obtain ⟨pullRequest, hnumber, h⟩ := Option.bind_eq_some_iff.mp h
    obtain ⟨name, hname, h⟩ := Option.bind_eq_some_iff.mp h
    unfold checkedSnapshot at h
    split at h
    next hvalid =>
      obtain rfl := Option.some.inj h
      refine ⟨?_, hvalid⟩
      rw [(Json.record?_some hrecord).1, readOptionalText_some hbase,
        readOptionalText_some hhead, readOptionalNumber_some hnumber, readOptionalText_some hname]
      rfl
    next => cases h
  next => cases h

theorem readSnapshot_self {s : EvidenceSnapshot} (h : s.valid = true) :
    readSnapshot s.toDict = some s := by
  have hnumber : s.pullRequest.all (fun n => decide (1 ≤ n)) = true := by
    simp only [EvidenceSnapshot.valid, Bool.and_eq_true] at h
    exact h.1.1.2
  rw [readSnapshot, EvidenceSnapshot.toDict, Json.record?_zip rfl]
  simp only [readOptionalText_self, readOptionalNumber_self hnumber, Option.bind_eq_bind,
    Option.bind_some]
  exact if_pos h

/-- A queue's own document reads back as the queue. -/
theorem queueFromDocument_self (q : HeldQueue) :
    queueFromDocument q.toQueueFields.toDocument = .ok q := by
  have hread : readQueue q.toQueueFields.toDocument = some q := by
    rw [readQueue, QueueFields.toDocument, Json.record?_zip rfl]
    simp only [texts, if_true, readSnapshot_self q.snapshot_valid, mapM_readText?,
      Option.bind_eq_bind, Option.bind_some]
    exact hold_self q
  rw [queueFromDocument, hread]

/-- Only a queue's own document reads as that queue. -/
theorem queueFromDocument_ok {value : Json} {q : HeldQueue}
    (h : queueFromDocument value = .ok q) : value = q.toQueueFields.toDocument := by
  unfold queueFromDocument at h
  split at h
  next found hread =>
    obtain rfl := Except.ok.inj h
    unfold readQueue at hread
    split at hread
    next digest inventory pending resolved version snapshot hrecord =>
      split at hread
      next hversion =>
        obtain ⟨s, hs, hread⟩ := Option.bind_eq_some_iff.mp hread
        obtain ⟨inventoryIds, hinventory, hread⟩ := Option.bind_eq_some_iff.mp hread
        obtain ⟨pendingOrder, hpending, hread⟩ := Option.bind_eq_some_iff.mp hread
        obtain ⟨resolvedIds, hresolved, hread⟩ := Option.bind_eq_some_iff.mp hread
        rw [hold_some hread, (Json.record?_some hrecord).1, hversion, (readSnapshot_some hs).1,
          mapM_readText?_some hinventory, mapM_readText?_some hpending,
          mapM_readText?_some hresolved]
        rfl
      next => cases hread
    next => cases hread
  next => cases h

/-- A document reads as a queue exactly where it is the document of that queue. -/
theorem queueFromDocument_iff {value : Json} {q : HeldQueue} :
    queueFromDocument value = .ok q ↔ value = q.toQueueFields.toDocument :=
  ⟨queueFromDocument_ok, fun h => h ▸ queueFromDocument_self q⟩

end ReviewSensei.Assessment
