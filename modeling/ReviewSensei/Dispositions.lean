import ReviewSensei.Json
import ReviewSensei.SessionLedger
import ReviewSensei.SessionSteps
import Mathlib.Data.List.DropRight
import Mathlib.Data.List.TakeWhile

/-! Human decisions on findings: how a command's ids are resolved and what a record may store. -/
namespace ReviewSensei.Disposition
open Session (isSha256 isHexText strip isPythonSpace firstFailure bind_ok)

/-- What is read of a text beyond its code points. -/
structure TextRules where
  /-- `str.isprintable`, of one character. -/
  printable : Char → Bool
  /-- `_parse_aware_datetime` accepts the text. -/
  awareDatetime : String → Bool
  /-- The instant of `datetime.fromisoformat`, where it has a time zone. -/
  instant : String → Option Int
  /-- The current second in ISO format. -/
  timestamp : Int → String

namespace TextRules
variable (text : TextRules)

def isPrintable (s : String) : Bool := s.toList.all text.printable

/-- A non-blank printable text of bounded size. -/
def isLine (bound : Nat) (s : String) : Bool :=
  strip s ≠ "" && decide (s.utf8ByteSize ≤ bound) && text.isPrintable s

def isReason (s : String) : Bool :=
  s ≠ "" && decide (s.utf8ByteSize ≤ 512) && text.isPrintable s

end TextRules

def isFingerprint : String → Bool := isHexText 16 64
def isHeadSha : String → Bool := isHexText 40 64

/-- `(?:RS-)?[A-Fa-f0-9]{6,64}`. -/
def isFindingReference (s : String) : Bool :=
  let body := if s.startsWith "RS-" then s.toList.drop 3 else s.toList
  decide (6 ≤ body.length) && decide (body.length ≤ 64) &&
    body.all (fun c => c.isDigit || ('a' ≤ c && c ≤ 'f') || ('A' ≤ c && c ≤ 'F'))

/-- A stored decision; `none` is an absent key. -/
structure Decision where
  fingerprint : String
  action : String
  reason : String
  actor : String
  headSha : Option String
  expiresAt : Option String
  actorRole : Option String := none
  findingReference : Option String := none
  recordedAt : Option String := none
  policyDigest : Option String := none
  provenance : Option String := none
  resolutionKind : Option String := none
  targetKind : Option String := none
  incompleteCoverage : Option (List String) := none
  deriving DecidableEq

def dispositionActions : List String :=
  ["dismiss", "defer", "accept-risk", "accept-coverage-uncertainty"]

def findingActions : List String := ["dismiss", "defer", "accept-risk"]

namespace Decision

def key (d : Decision) : String × Option String := (d.fingerprint, d.headSha)

def toJson (d : Decision) : Json :=
  let nullable : Option String → Json := fun o => (o.map Json.str).getD .null
  .obj ([("fingerprint", .str d.fingerprint), ("action", .str d.action),
      ("reason", .str d.reason), ("actor", .str d.actor), ("head_sha", nullable d.headSha),
      ("expires_at", nullable d.expiresAt)] ++
    Json.optional "actor_role" (d.actorRole.map .str) ++
    Json.optional "finding_reference" (d.findingReference.map .str) ++
    Json.optional "recorded_at" (d.recordedAt.map .str) ++
    Json.optional "policy_digest" (d.policyDigest.map .str) ++
    Json.optional "provenance" (d.provenance.map .str) ++
    Json.optional "resolution_kind" (d.resolutionKind.map .str) ++
    Json.optional "target_kind" (d.targetKind.map .str) ++
    Json.optional "incomplete_coverage"
      (d.incompleteCoverage.map (fun items => .arr (items.map .str))))

/-- The checks on one entry, in the order they are made. -/
def checks (text : TextRules) (d : Decision) : List (Bool × String) :=
  [(isFingerprint d.fingerprint, "session disposition fingerprint is invalid"),
   (dispositionActions.contains d.action, "session disposition action is invalid"),
   (text.isLine 512 d.reason, "session disposition reason is invalid"),
   (text.isLine 256 d.actor, "session disposition actor is invalid"),
   (d.headSha.all isHeadSha, "session disposition head_sha is invalid"),
   (d.expiresAt.all text.awareDatetime, "session disposition expires_at is invalid"),
   (d.actorRole.all (text.isLine 64), "session disposition actor_role is invalid"),
   (d.findingReference.all isFindingReference,
     "session disposition finding_reference is invalid"),
   (d.recordedAt.all text.awareDatetime, "session disposition recorded_at is invalid"),
   (d.policyDigest.all isSha256, "session disposition policy_digest is invalid"),
   (d.provenance.all (text.isLine 256), "session disposition provenance is invalid"),
   (d.resolutionKind.all (["disputed", "deferred", "accepted_unresolved",
     "coverage_uncertainty_accepted"].contains ·),
     "session disposition resolution_kind is invalid"),
   (d.targetKind.all (["finding", "coverage_uncertainty"].contains ·),
     "session disposition target_kind is invalid"),
   (d.incompleteCoverage.all (fun items =>
     decide (items.length ≤ 256) && items.all (text.isLine 256)),
     "session disposition incomplete_coverage is invalid")]

/-- The entry that is stored. -/
def normalize (d : Decision) : Decision :=
  { d with
    reason := strip d.reason
    actorRole := d.actorRole.map strip
    provenance := d.provenance.map strip
    incompleteCoverage := d.incompleteCoverage.map (·.map strip) }

@[simp] theorem normalize_key (d : Decision) : d.normalize.key = d.key := rfl

end Decision

def maxDispositionsPerHead : Nat := 32
def maxUnheadedDispositions : Nat := 4
def maxDispositionBytes : Nat := 10240
def maxDispositionItems : Nat := 256
def maxDurableBlockerCount : Nat := 4096

/-- `disposition_array_bytes`. -/
def dispositionArrayBytes (items : List Decision) : Nat :=
  (Json.canonical (.arr (items.map Decision.toJson))).utf8ByteSize

def checkEntry (text : TextRules) (d : Decision) : Except String Decision :=
  match firstFailure (d.checks text) with
  | some message => .error message
  | none => .ok d.normalize

def unheadedCount (items : List Decision) : Nat := items.countP (fun d => d.headSha = none)

def headCount (items : List Decision) (head : Option String) : Nat :=
  items.countP (fun d => d.headSha = head)

def itemBound (snapshot : Bool) : Nat :=
  if snapshot then maxDurableBlockerCount else maxDispositionItems

/-- `_stored_dispositions`. -/
def storedDispositions (text : TextRules) (snapshot : Bool) (items : List Decision) :
    Except String (List Decision) :=
  if itemBound snapshot < items.length then
    .error "session dispositions exceed the configured bound"
  else do
    let normalized ← items.mapM (checkEntry text)
    if !snapshot && decide (maxDispositionBytes < dispositionArrayBytes normalized) then
      .error "session dispositions exceed the configured bound"
    else if ¬ (normalized.map Decision.key).Nodup then
      .error "session disposition is duplicated"
    else if maxUnheadedDispositions < unheadedCount normalized ∨
        (snapshot = false ∧ normalized.any (fun d =>
          d.headSha ≠ none && decide (maxDispositionsPerHead < headCount normalized d.headSha)))
    then .error "session dispositions exceed the configured bound"
    else .ok normalized

section Normal
variable {text : TextRules}

/-- Stripping a stripped text changes nothing. -/
theorem stripBy_idempotent (p : Char → Bool) (cs : List Char) :
    Session.stripBy p (Session.stripBy p cs) = Session.stripBy p cs := by
  let front := cs.dropWhile p
  have hstrip : Session.stripBy p cs = front.rdropWhile p := rfl
  have hfront : (front.rdropWhile p).dropWhile p = front.rdropWhile p := by
    rw [List.dropWhile_eq_self_iff]
    intro hl hp
    -- the first character survived the first pass
    have hprefix := List.rdropWhile_prefix p (l := front)
    have hlength := List.IsPrefix.length_le hprefix
    have hzero : (front.rdropWhile p)[0] = front[0] := hprefix.getElem hl
    rw [hzero] at hp
    exact List.dropWhile_get_zero_not p cs (Nat.lt_of_lt_of_le hl hlength) hp
  calc Session.stripBy p (Session.stripBy p cs)
      = ((front.rdropWhile p).dropWhile p).rdropWhile p := by rw [hstrip]; rfl
    _ = (front.rdropWhile p).rdropWhile p := by rw [hfront]
    _ = front.rdropWhile p := List.rdropWhile_idempotent p front
    _ = Session.stripBy p cs := hstrip.symm

@[simp] theorem strip_idempotent (s : String) : strip (strip s) = strip s := by
  unfold strip
  rw [String.toList_ofList, stripBy_idempotent]

theorem map_strip_idempotent (o : Option String) : (o.map strip).map strip = o.map strip := by
  cases o <;> simp

@[simp] theorem Decision.normalize_idempotent (d : Decision) :
    d.normalize.normalize = d.normalize := by
  have hitems (o : Option (List String)) :
      (o.map (·.map strip)).map (·.map strip) = o.map (·.map strip) := by
    cases o <;> simp
  simp only [Decision.normalize, strip_idempotent, map_strip_idempotent, hitems]

theorem checkEntry_ok {d stored : Decision} (h : checkEntry text d = .ok stored) :
    stored = d.normalize := by
  unfold checkEntry at h
  split at h
  · cases h
  · exact (Except.ok.inj h).symm

theorem checkEntries_ok {items stored : List Decision}
    (h : items.mapM (checkEntry text) = .ok stored) : stored = items.map Decision.normalize := by
  induction items generalizing stored with
  | nil => exact (Except.ok.inj h).symm
  | cons d rest ih =>
    rw [List.mapM_cons] at h
    obtain ⟨first, hfirst, h⟩ := bind_ok h
    obtain ⟨others, hothers, h⟩ := bind_ok h
    rw [← Except.ok.inj h, checkEntry_ok hfirst, ih hothers]
    rfl

/-- What is stored: every entry in normal form and in its place, and no key twice. -/
theorem storedDispositions_ok {snapshot : Bool} {items stored : List Decision}
    (h : storedDispositions text snapshot items = .ok stored) :
    stored = items.map Decision.normalize ∧ (stored.map Decision.key).Nodup := by
  unfold storedDispositions at h
  split at h
  · cases h
  obtain ⟨normalized, hnormalized, h⟩ := bind_ok h
  split at h
  · cases h
  split at h
  · cases h
  next hnodup =>
  split at h
  · cases h
  obtain rfl := Except.ok.inj h
  exact ⟨checkEntries_ok hnormalized, not_not.mp hnodup⟩

theorem stored_normal {snapshot : Bool} {items stored : List Decision}
    (h : storedDispositions text snapshot items = .ok stored) :
    stored.map Decision.normalize = stored := by
  rw [(storedDispositions_ok h).1, List.map_map]
  exact List.map_congr_left fun d _ => d.normalize_idempotent

end Normal

/-- One displayed finding that a command can name. -/
structure FindingIdentity where
  instance_ : String
  concern : Option String := none
  overridable : Bool := true
  deriving DecidableEq

def upper (s : String) : String := String.ofList (s.toList.map Char.toUpper)
def lower (s : String) : String := String.ofList (s.toList.map Char.toLower)

/-- `finding_identifier` of a fingerprint, with the number of digits shown. -/
def findingIdentifier (fingerprint : String) (digits : Nat) : String :=
  "RS-" ++ upper (String.ofList (fingerprint.toList.take digits))

/-- One round of `assign_finding_identifiers`: the widths of colliding fingerprints grow. -/
def widen (lengths : List (String × Nat)) : List (String × Nat) :=
  lengths.map (fun p =>
    let cap := min 16 p.1.toList.length
    if lengths.any (fun q => q.1 ≠ p.1 &&
        findingIdentifier q.1 q.2 = findingIdentifier p.1 p.2) && decide (p.2 < cap) then
      (p.1, min (p.2 + 2) cap)
    else p)

/-- The rounds end: each grows a width of at most sixteen digits by two. -/
def assignRounds : Nat → List (String × Nat) → Except String (List (String × String))
  | 0, _ => .error "finding identifier collision cannot be resolved"
  | fuel + 1, lengths =>
    let identifiers := lengths.map (fun p => (p.1, findingIdentifier p.1 p.2))
    if (identifiers.map (·.2)).Nodup then .ok identifiers
    else if widen lengths = lengths then
      .error "finding identifier collision cannot be resolved"
    else assignRounds fuel (widen lengths)

/-- `assign_finding_identifiers`. -/
def assignFindingIdentifiers (fingerprints : List String) :
    Except String (List (String × String)) :=
  assignRounds 8 (fingerprints.eraseDups.map (fun f => (f, 6)))

/-- The one match of a resolution, if it may be overridden. -/
def requireOverridable (found : FindingIdentity) : Except String FindingIdentity :=
  if found.overridable then .ok found
  else .error "finding id is not a current required finding"

/-- `resolve_finding_identity`. -/
def resolveFindingIdentity (reference : String) (inventory : List FindingIdentity) :
    Except String FindingIdentity :=
  if !isFindingReference reference then .error "finding id is invalid"
  else if inventory = [] then .error "finding id needs the current review"
  else do
    let body := if (lower reference).startsWith "rs-" then
      String.ofList (reference.toList.drop 3) else reference
    let assigned ← assignFindingIdentifiers (inventory.map (·.instance_))
    let wanted := "RS-" ++ upper body
    let shown := inventory.filter (fun item =>
      (assigned.find? (fun p => p.1 = item.instance_)).any (fun p => upper p.2 = wanted))
    let instances := inventory.filter (fun item => lower item.instance_ = lower body)
    let concerns := inventory.filter (fun item =>
      item.concern.any (fun c => lower c = lower body))
    match shown, instances, concerns with
    | _ :: _ :: _, _, _ => .error "finding id is ambiguous"
    | [found], _, _ => requireOverridable found
    | [], [found], [] => requireOverridable found
    | [], [], [found] => requireOverridable found
    | [], [], [] => .error "finding id does not match one current finding"
    | [], _, _ => .error "finding id is ambiguous"

structure OverrideReceipt where
  reference : String
  fingerprint : Option String
  outcome : String
  detail : String := ""
  deriving DecidableEq

/-- The head of an earlier inventory that a reference resolves in. -/
def earlierHead (reference : String) (prior : List (String × List FindingIdentity)) :
    Option String :=
  (prior.find? (fun p => (resolveFindingIdentity reference p.2).isOk)).map (·.1)

/-- `_reference_receipt` of a reference that does not resolve. -/
def failedReceipt (reference message : String) (prior : List (String × List FindingIdentity)) :
    OverrideReceipt :=
  if message = "finding id is ambiguous" then ⟨reference, none, "ambiguous", ""⟩
  else if message = "finding id is not a current required finding" then
    ⟨reference, none, "unknown", "not a current required finding"⟩
  else match earlierHead reference prior with
    | some head => ⟨reference, none, "earlier-head", String.ofList (head.toList.take 7)⟩
    | none =>
      ⟨reference, none, "unknown",
        if message = "finding id needs the current review" then "needs the current review"
        else "does not match one current finding"⟩

/-- A human decision, as a command makes it or a record is decoded. -/
structure FindingDisposition where
  fingerprint : String
  action : String
  reason : String
  actor : String
  headSha : Option String
  expiresAt : Option String := none
  actorRole : Option String := none
  findingReference : Option String := none
  recordedAt : Option String := none
  policyDigest : Option String := none
  provenance : Option String := none
  targetKind : Option String := none
  incompleteCoverage : List String := []
  deriving DecidableEq

/-- Commands are stripped of ASCII whitespace only. -/
def commandStrip (s : String) : String :=
  String.ofList (Session.stripBy (fun c => c ∈ [' ', '\t', '\r', '\n']) s.toList)

namespace FindingDisposition

def resolutionKind (d : FindingDisposition) : String :=
  if d.action = "dismiss" then "disputed"
  else if d.action = "defer" then "deferred"
  else if d.action = "accept-coverage-uncertainty" then "coverage_uncertainty_accepted"
  else "accepted_unresolved"

/-- `to_dict`. -/
def toDict (d : FindingDisposition) : Decision where
  fingerprint := d.fingerprint
  action := d.action
  reason := d.reason
  actor := d.actor
  headSha := d.headSha
  expiresAt := d.expiresAt
  actorRole := d.actorRole
  findingReference := d.findingReference
  recordedAt := d.recordedAt
  policyDigest := d.policyDigest
  provenance := d.provenance
  resolutionKind :=
    if d.actorRole.isSome || d.findingReference.isSome || d.recordedAt.isSome ||
        d.policyDigest.isSome || d.provenance.isSome || d.targetKind.isSome ||
        d.incompleteCoverage ≠ [] || d.action = "accept-coverage-uncertainty" then
      some d.resolutionKind
    else none
  targetKind := d.targetKind
  incompleteCoverage := if d.incompleteCoverage = [] then none else some d.incompleteCoverage

def key (d : FindingDisposition) : String × Option String := (d.fingerprint, d.headSha)

@[simp] theorem toDict_key (d : FindingDisposition) : d.toDict.key = d.key := rfl

/-- `__post_init__`. -/
def checks (text : TextRules) (d : FindingDisposition) : List (Bool × String) :=
  [(isFingerprint d.fingerprint, "disposition fingerprint is invalid"),
   (dispositionActions.contains d.action, "disposition action is unsupported"),
   (strip d.reason ≠ "", "maintainer disposition requires a reason"),
   (text.isReason (commandStrip d.reason), "maintainer disposition reason exceeds the bound"),
   (text.isLine 256 d.actor, "disposition actor is invalid"),
   (d.headSha.all isHeadSha, "disposition head_sha is invalid"),
   (d.expiresAt.all (fun t => (text.instant t).isSome), "disposition expires_at is invalid"),
   (d.actorRole.all (text.isLine 64), "disposition actor_role is invalid"),
   (d.findingReference.all isFindingReference, "disposition finding_reference is invalid"),
   (d.recordedAt.all (fun t => (text.instant t).isSome), "disposition recorded_at is invalid"),
   (d.policyDigest.all isSha256, "disposition policy_digest is invalid"),
   (d.provenance.all (text.isLine 256), "disposition provenance is invalid"),
   (d.targetKind.all (["finding", "coverage_uncertainty"].contains ·),
     "disposition target_kind is invalid"),
   (decide (d.incompleteCoverage.length ≤ 256) && d.incompleteCoverage.all (text.isLine 256),
     "disposition incomplete_coverage is invalid")]

def construct (text : TextRules) (d : FindingDisposition) : Except String FindingDisposition :=
  match firstFailure (d.checks text) with
  | some message => .error message
  | none => .ok d

/-- The decision that a stored entry is decoded to. -/
def ofStored (text : TextRules) (d : Decision) : Except String FindingDisposition :=
  construct text
    { fingerprint := d.fingerprint
      action := d.action
      reason := d.reason
      actor := d.actor
      headSha := d.headSha
      expiresAt := d.expiresAt
      actorRole := d.actorRole
      findingReference := d.findingReference
      recordedAt := d.recordedAt
      policyDigest := d.policyDigest
      provenance := d.provenance
      targetKind := d.targetKind
      incompleteCoverage := d.incompleteCoverage.getD [] }

theorem construct_ok {text : TextRules} {d d' : FindingDisposition}
    (h : construct text d = .ok d') : d' = d := by
  unfold construct at h
  split at h
  · cases h
  · exact (Except.ok.inj h).symm

end FindingDisposition
end ReviewSensei.Disposition
