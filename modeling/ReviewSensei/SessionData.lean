import ReviewSensei.Sha256
import Mathlib.Data.List.Basic

/-! The durable record of a review session and the transaction it carries.

A record is built by one constructor, which runs the checks of `__post_init__`; each check is a
condition with the text of its error. -/
namespace ReviewSensei.Session
open Sha256 (encode)

def diagnosticRoundCeiling : Nat := 1000000
def maxFailedAttempts : Nat := 32
def defaultMaxFailedAttempts : Nat := 6
def maxGeneration : Nat := 2147483647
def maxStoredContinuationGrants : Nat := 4
def maxConvergenceProgressEntries : Nat := 3
def maxDurableBlockerCount : Nat := 4096
def maxRescanReceipts : Nat := 6

/-- Instants in microseconds. -/
abbrev Time := Nat

def maxSessionTtl : Time := 90 * 86400 * 1000000
def defaultSessionTtl : Time := 30 * 86400 * 1000000

/-- `_format_datetime` drops the microseconds. -/
def formatDatetime (t : Time) : Time := t / 1000000 * 1000000

/-- The `now` a caller passes and the wall clock that stands in for `None`. -/
structure Moment where
  now : Option Time
  wall : Time

def awareNow (m : Moment) : Time := m.now.getD m.wall

/-- `a or b` on optional texts: the empty text is falsy. -/
def textOr (a b : Option String) : Option String :=
  if a = none ∨ a = some "" then b else a

/-- A prefix of a text is a prefix of its encoding. -/
def startsWith (s text : String) : Bool := (encode s).isPrefixOf (encode text)

/-- The bytes of `0` to `9` and of `a` to `f`. -/
def isHexDigit (b : Nat) : Bool := (0x30 ≤ b && b ≤ 0x39) || (0x61 ≤ b && b ≤ 0x66)

/-- `[a-f0-9]{lo,hi}` over the whole text; its characters are single bytes. -/
def isHexText (lo hi : Nat) (s : String) : Bool :=
  let bytes := encode s
  decide (lo ≤ bytes.length) && decide (bytes.length ≤ hi) && bytes.all isHexDigit

def isSha256 : String → Bool := isHexText 64 64
def isGitSha : String → Bool := isHexText 40 40
def isReservationId : String → Bool := isHexText 8 64
def isDispositionHead : String → Bool := isHexText 40 64

/-- The bytes of the ASCII digits and letters. -/
def isAsciiAlnum (b : Nat) : Bool :=
  (0x30 ≤ b && b ≤ 0x39) || (0x61 ≤ b && b ≤ 0x7a) || (0x41 ≤ b && b ≤ 0x5a)

/-- `[A-Za-z0-9](?:[A-Za-z0-9._-]*[A-Za-z0-9])?` of bounded length. -/
def isSlug (bound : Nat) (bs : List Nat) : Bool :=
  bs.all (fun b => isAsciiAlnum b || b == 0x2e || b == 0x5f || b == 0x2d) &&
    decide (bs.length ≤ bound) && bs.head?.any isAsciiAlnum && bs.getLast?.any isAsciiAlnum

/-- An owner and a name, parted by the one `/`. -/
def isRepository (s : String) : Bool :=
  match (encode s).splitOn 0x2f with
  | [owner, name] => isSlug 39 owner && isSlug 100 name
  | _ => false

inductive Slot
  | initial
  | verification
  | failedAttempt
  deriving DecidableEq

inductive Phase
  | analysis
  | analysisFailed
  | publicationPending
  | publicationFailed
  | publicationSucceeded
  | publicationSuppressed
  deriving DecidableEq

namespace Phase

/-- `_TRANSACTION_PHASE_TRANSITIONS`. -/
def transitions : Phase → List Phase
  | analysis => [analysis, analysisFailed, publicationPending]
  | analysisFailed => [analysisFailed]
  | publicationPending =>
    [publicationPending, publicationFailed, publicationSucceeded, publicationSuppressed]
  | publicationFailed =>
    [publicationFailed, publicationPending, publicationSucceeded, publicationSuppressed]
  | publicationSucceeded => [publicationSucceeded]
  | publicationSuppressed => [publicationSuppressed]

def text : Phase → String
  | analysis => "analysis"
  | analysisFailed => "analysis_failed"
  | publicationPending => "publication_pending"
  | publicationFailed => "publication_failed"
  | publicationSucceeded => "publication_succeeded"
  | publicationSuppressed => "publication_suppressed"

/-- A result digest belongs to the publication phases. -/
def hasResult : Phase → Bool
  | analysis | analysisFailed => false
  | _ => true

end Phase

/-- The first failing check, by its error text. -/
def firstFailure (checks : List (Bool × String)) : Option String :=
  (checks.find? (fun c => !c.1)).map Prod.snd

theorem firstFailure_eq_none {checks : List (Bool × String)} :
    firstFailure checks = none ↔ ∀ c ∈ checks, c.1 = true := by
  simp [firstFailure, List.find?_eq_none]

structure ReviewTransaction where
  transactionId : String
  repository : String
  pullRequest : Nat
  baseSha : String
  headSha : String
  policyDigest : String
  configurationDigest : String
  evidenceDigest : String
  reservationId : String
  generation : Nat
  phase : Phase
  resultSha256 : Option String
  deriving DecidableEq

namespace ReviewTransaction

/-- The digest of the canonical JSON of the identity fields; their patterns need no escape. -/
def deriveId (repository : String) (pullRequest : Nat)
    (baseSha headSha policyDigest configurationDigest evidenceDigest reservationId : String) :
    String :=
  sha256 ("\x7b\"base_sha\":\"" ++ baseSha ++
    "\",\"configuration_digest\":\"" ++ configurationDigest ++
    "\",\"evidence_digest\":\"" ++ evidenceDigest ++
    "\",\"head_sha\":\"" ++ headSha ++
    "\",\"policy_digest\":\"" ++ policyDigest ++
    "\",\"pull_request\":" ++ toString pullRequest ++
    ",\"repository\":\"" ++ repository ++
    "\",\"reservation_id\":\"" ++ reservationId ++ "\"\x7d")

/-- `__post_init__`. -/
def checks (t : ReviewTransaction) : List (Bool × String) :=
  [(isSha256 t.transactionId, "review transaction id must be a SHA-256 digest"),
   (isRepository t.repository, "review transaction repository is invalid"),
   (decide (1 ≤ t.pullRequest ∧ t.pullRequest ≤ 2147483647),
     "review transaction pull_request is invalid"),
   (isGitSha t.baseSha, "review transaction base_sha is invalid"),
   (isGitSha t.headSha, "review transaction head_sha is invalid"),
   (isSha256 t.policyDigest, "review transaction policy_digest must be a SHA-256 digest"),
   (isSha256 t.configurationDigest,
     "review transaction configuration_digest must be a SHA-256 digest"),
   (isSha256 t.evidenceDigest, "review transaction evidence_digest must be a SHA-256 digest"),
   (isSha256 t.reservationId, "review transaction reservation_id must be a SHA-256 digest"),
   (decide (1 ≤ t.generation ∧ t.generation ≤ 2147483647),
     "review transaction generation is invalid"),
   (t.resultSha256.all isSha256, "review transaction result_sha256 is invalid"),
   (decide (t.phase = .analysis → t.resultSha256 = none),
     "analysis transaction cannot contain a result digest"),
   (decide (t.phase = .analysisFailed → t.resultSha256 = none),
     "failed analysis transaction cannot contain a result digest"),
   (!t.phase.hasResult || t.resultSha256.isSome,
     "publication transaction requires a result digest"),
   (decide (t.transactionId = deriveId t.repository t.pullRequest t.baseSha t.headSha
      t.policyDigest t.configurationDigest t.evidenceDigest t.reservationId),
     "review transaction id does not match its identity")]

/-- The constructor. -/
def construct (t : ReviewTransaction) : Except String ReviewTransaction :=
  match firstFailure t.checks with
  | none => .ok t
  | some e => .error e

def create (repository : String) (pullRequest : Nat)
    (baseSha headSha policyDigest configurationDigest evidenceDigest reservationId : String)
    (generation : Nat) : Except String ReviewTransaction :=
  construct
    { transactionId := deriveId repository pullRequest baseSha headSha policyDigest
        configurationDigest evidenceDigest reservationId
      repository, pullRequest, baseSha, headSha, policyDigest, configurationDigest
      evidenceDigest, reservationId, generation
      phase := .analysis
      resultSha256 := none }

def withResult (t : ReviewTransaction) (resultSha256 : String) : Except String ReviewTransaction :=
  if !isSha256 resultSha256 then .error "review transaction result digest is invalid"
  else if Phase.publicationPending ∉ t.phase.transitions then
    .error ("review transaction phase transition " ++ t.phase.text ++
      "->publication_pending is invalid")
  else construct { t with phase := .publicationPending, resultSha256 := some resultSha256 }

def withPhase (t : ReviewTransaction) (phase : Phase) : Except String ReviewTransaction :=
  if phase ∉ t.phase.transitions then
    .error ("review transaction phase transition " ++ t.phase.text ++ "->" ++ phase.text ++
      " is invalid")
  else construct { t with phase }

/-- The immutable identity, without the phase, the generation and the result. -/
def logicalIdentityMatches (t other : ReviewTransaction) : Bool :=
  t.transactionId == other.transactionId && t.repository == other.repository &&
    t.pullRequest == other.pullRequest && t.baseSha == other.baseSha &&
    t.headSha == other.headSha && t.policyDigest == other.policyDigest &&
    t.configurationDigest == other.configurationDigest &&
    t.evidenceDigest == other.evidenceDigest && t.reservationId == other.reservationId

theorem construct_ok {t t' : ReviewTransaction} (h : construct t = .ok t') : t' = t := by
  unfold construct at h
  split at h
  · exact (Except.ok.inj h).symm
  · cases h

theorem withResult_ok {t t' : ReviewTransaction} {d : String} (h : t.withResult d = .ok t') :
    t' = { t with phase := .publicationPending, resultSha256 := some d } := by
  unfold withResult at h
  split at h
  · cases h
  split at h
  · cases h
  exact construct_ok h

theorem withPhase_ok {t t' : ReviewTransaction} {p : Phase} (h : t.withPhase p = .ok t') :
    p ∈ t.phase.transitions ∧ t' = { t with phase := p } := by
  unfold withPhase at h
  split at h
  · cases h
  · rename_i hp
    exact ⟨not_not.mp hp, construct_ok h⟩

theorem logicalIdentityMatches_iff {t other : ReviewTransaction} :
    t.logicalIdentityMatches other = true ↔
      other = { t with generation := other.generation, phase := other.phase,
                       resultSha256 := other.resultSha256 } := by
  obtain ⟨⟩ := t
  obtain ⟨⟩ := other
  simp only [logicalIdentityMatches, Bool.and_eq_true, beq_iff_eq, mk.injEq, and_assoc, and_true]
  simp only [eq_comm]

end ReviewTransaction

/-- A continuation grant. A field of an old record that is absent or ill-typed reads as `none`. -/
structure ContinuationGrant where
  commandId : Option String
  actor : Option String
  headSha : Option String
  policyDigest : Option String
  issuedAt : Option Time
  expiresAt : Option Time
  consumedReservationId : Option String
  consumedGeneration : Option Nat
  deriving DecidableEq

inductive HistoryState
  | completed
  | invalidated
  | recoveryRequired
  deriving DecidableEq

/-- The blocker identity an admitted publication leaves on a progress entry. -/
structure BlockerMarker where
  blockerSetSha256 : String
  blockerCount : Nat
  transactionId : Option String
  deriving DecidableEq

/-- One entry of the convergence progress; without a marker it is a lifecycle placeholder. -/
structure ProgressItem where
  event : HistoryState
  generation : Nat
  marker : Option BlockerMarker
  deriving DecidableEq

def ProgressItem.checks (item : ProgressItem) : List (Bool × String) :=
  [(decide (item.generation ≤ maxGeneration),
     "session history progress generation is out of bounds"),
   (!item.marker.isSome || item.event == .completed,
     "session history blocker set event is invalid"),
   (item.marker.all (fun b => isSha256 b.blockerSetSha256),
     "session history blocker set digest is invalid"),
   (item.marker.all (fun b => decide (b.blockerCount ≤ maxDurableBlockerCount)),
     "session history blocker count is out of bounds"),
   (item.marker.all (fun b => b.transactionId.all isSha256),
     "session history blocker transaction id is invalid")]

structure ConvergenceHistory where
  state : HistoryState
  baseline : Option String
  progress : List ProgressItem
  ledgerDigest : String
  deriving DecidableEq

def ConvergenceHistory.checks (history : ConvergenceHistory) : List (Bool × String) :=
  (decide (history.progress.length ≤ maxConvergenceProgressEntries),
    "session history progress is invalid") ::
  history.progress.flatMap ProgressItem.checks ++
  [(isSha256 history.ledgerDigest, "session history ledger_digest is invalid")]

structure ReservationOwner where
  runId : String
  headSha : String
  deriving DecidableEq

inductive RescanKind
  | issueComment
  | workflowDispatch
  deriving DecidableEq

inductive RescanMode
  | full
  | remaining
  deriving DecidableEq

/-- The proof of progress a remaining-work checkpoint leaves on its receipt. -/
structure RemainingProgress where
  parentDigest : String
  childDigest : String
  reviewedBefore : Nat
  reviewedAfter : Nat
  deriving DecidableEq

structure RescanReceipt where
  mode : RescanMode
  kind : RescanKind
  requestId : Nat
  reviewId : Nat
  source : ReviewTransaction
  ordinaryReservation : String
  reservation : String
  progress : Option RemainingProgress
  deriving DecidableEq

structure RescanState where
  issueComment : Nat
  workflowDispatch : Nat
  receipts : List RescanReceipt
  deriving DecidableEq

def RescanState.watermark (s : RescanState) : RescanKind → Nat
  | .issueComment => s.issueComment
  | .workflowDispatch => s.workflowDispatch

structure ApiRunAccounting where
  repositoryId : Option Nat
  terminalTransaction : Option String
  deriving DecidableEq

structure PublicationStaging where
  transactionId : String
  resultSha256 : String
  complete : Bool
  deriving DecidableEq

/-- The fields of a record. `documents` stands for those no operation here reads or writes. -/
structure SessionFields where
  repository : String
  pullRequest : Nat
  repositoryId : Option Nat
  completedInitialReviews : Nat
  completedVerificationRounds : Nat
  failedAttempts : Nat
  generation : Nat
  reservationId : Option String
  reservedSlot : Option Slot
  lastCommittedReservationId : Option String
  createdAt : Time
  updatedAt : Time
  expiresAt : Time
  operatorPaused : Bool
  failedAttemptsHeadSha : Option String
  continuationGrants : List ContinuationGrant
  transaction : Option ReviewTransaction
  convergenceHistory : Option ConvergenceHistory
  reservationOwner : Option ReservationOwner
  rescanState : Option RescanState
  apiRunAccounting : Option ApiRunAccounting
  publicationStaging : Option PublicationStaging
  documents : List String
  deriving DecidableEq

/-- A complete inventory of reviewed work, as far as a checkpoint reads it. -/
structure ReviewBaseline where
  complete : Bool
  repository : String
  pullRequest : Nat
  baseSha : String
  headSha : String
  policyDigest : String
  generation : Nat

/-- What the record relies on from outside: the digest of its payload, the checks of the documents
and of the encoded size, and the reader of a stored baseline. -/
structure SessionRules where
  recordSha256 : SessionFields → String
  rejects : SessionFields → Option String
  readSessionBaseline : SessionFields → Except String (Option ReviewBaseline)

/-- The owner of a reservation of an attached transaction reviews its head. -/
def ownerMatches (f : SessionFields) : Bool :=
  f.reservationOwner.all (fun o => f.transaction.all (fun t => t.headSha == o.headSha))

def terminalMatches (f : SessionFields) : Bool :=
  f.apiRunAccounting.all (fun a => a.terminalTransaction.all (fun terminal =>
    f.transaction.any (fun t => t.transactionId == terminal &&
      (t.phase == .publicationSucceeded || t.phase == .publicationSuppressed))))

def stagingMatches (f : SessionFields) : Bool :=
  f.publicationStaging.all (fun s => s.complete || f.transaction.any (fun t =>
    t.transactionId == s.transactionId && t.resultSha256 == some s.resultSha256 &&
      (t.phase == .publicationPending || t.phase == .publicationFailed)))

/-- An analysis transaction owns the held reservation. -/
def analysisHolds (f : SessionFields) : Bool :=
  f.transaction.all (fun t => decide (t.phase = .analysis →
    f.reservationId = some t.reservationId ∧ f.reservedSlot ≠ none))

/-- A later phase has released it as the last committed one. -/
def finishedReleased (f : SessionFields) : Bool :=
  f.transaction.all (fun t => decide (t.phase ≠ .analysis →
    f.reservationId = none ∧ f.lastCommittedReservationId = some t.reservationId))

/-- The bounds `_construct` puts on the stored documents. -/
def SessionFields.documentChecks (f : SessionFields) : List (Bool × String) :=
  (decide (f.continuationGrants.length ≤ maxStoredContinuationGrants),
    "continuation grants exceed the configured bound") ::
  (f.convergenceHistory.map ConvergenceHistory.checks).getD []

/-- `__post_init__`. -/
def SessionFields.fieldChecks (f : SessionFields) : List (Bool × String) :=
  [(isRepository f.repository, "session repository is invalid"),
   (decide (1 ≤ f.pullRequest ∧ f.pullRequest ≤ 2147483647), "pull_request is out of bounds"),
   (f.repositoryId.all (fun i => decide (1 ≤ i ∧ i ≤ 2147483647)),
     "repository_id is out of bounds"),
   (decide (f.completedInitialReviews ≤ diagnosticRoundCeiling),
     "completed_initial_reviews is out of bounds"),
   (decide (f.completedVerificationRounds ≤ diagnosticRoundCeiling),
     "completed_verification_rounds is out of bounds"),
   (decide (f.failedAttempts ≤ maxFailedAttempts), "failed_attempts is out of bounds"),
   (f.failedAttemptsHeadSha.all isDispositionHead, "failed_attempts_head_sha is invalid"),
   (decide (f.generation ≤ maxGeneration), "generation is out of bounds"),
   (f.reservationId.all isReservationId, "reservation_id is invalid"),
   (f.lastCommittedReservationId.all isReservationId, "last_committed_reservation_id is invalid"),
   (decide (f.reservationId ≠ none → f.reservationId ≠ f.lastCommittedReservationId),
     "reservation_id and last_committed_reservation_id must differ"),
   (decide (f.reservationId = none ↔ f.reservedSlot = none),
     "reservation_id and reserved_slot must be paired"),
   (decide (f.reservationOwner ≠ none → f.reservationId ≠ none),
     "reservation owner requires a current held reservation"),
   (ownerMatches f, "reservation owner head does not match transaction"),
   (decide (f.createdAt ≤ f.updatedAt), "session updated_at precedes created_at"),
   (decide (f.createdAt < f.expiresAt), "session expires_at must be after created_at"),
   (decide (f.expiresAt - f.createdAt ≤ maxSessionTtl), "session ttl exceeds the configured bound"),
   (f.apiRunAccounting.all (fun a => a.repositoryId == f.repositoryId),
     "API accounting repository identity conflicts"),
   (terminalMatches f, "API accounting terminal transaction conflicts"),
   (f.transaction.all (fun t => t.repository == f.repository && t.pullRequest == f.pullRequest),
     "session transaction identity does not match"),
   (analysisHolds f, "analysis transaction must own its reservation"),
   (finishedReleased f, "completed transaction reservation state is invalid"),
   (stagingMatches f, "unconfirmed publication staging must retain its exact transaction")]

def SessionFields.rejection (rules : SessionRules) (f : SessionFields) : Option String :=
  (firstFailure (f.documentChecks ++ f.fieldChecks)).or (rules.rejects f)

/-- A record: its fields passed every check. -/
structure SessionRecord (rules : SessionRules) extends SessionFields where
  accepted : toSessionFields.rejection rules = none

variable {rules : SessionRules}

namespace SessionRecord

theorem eq_of_fields {r s : SessionRecord rules} (h : r.toSessionFields = s.toSessionFields) :
    r = s := by
  cases r
  cases s
  cases h
  rfl

instance : DecidableEq (SessionRecord rules) := fun r s =>
  decidable_of_iff (r.toSessionFields = s.toSessionFields) ⟨eq_of_fields, fun h => h ▸ rfl⟩

/-- `_construct`. -/
def construct (rules : SessionRules) (f : SessionFields) : Except String (SessionRecord rules) :=
  match h : f.rejection rules with
  | none => .ok ⟨f, h⟩
  | some e => .error e

theorem construct_ok {f : SessionFields} {r : SessionRecord rules}
    (h : construct rules f = .ok r) : r.toSessionFields = f := by
  unfold construct at h
  split at h
  · exact (Except.ok.inj h).symm ▸ rfl
  · cases h

theorem check (r : SessionRecord rules) {c : Bool × String} (hc : c ∈ r.fieldChecks) :
    c.1 = true := by
  have h := r.accepted
  rw [SessionFields.rejection, Option.or_eq_none_iff] at h
  exact firstFailure_eq_none.mp h.1 c (List.mem_append_right _ hc)

theorem check_prop (r : SessionRecord rules) (p : Prop) [Decidable p] (e : String)
    (hc : (decide p, e) ∈ r.fieldChecks) : p :=
  of_decide_eq_true (r.check hc)

theorem initialReviews_le (r : SessionRecord rules) :
    r.completedInitialReviews ≤ diagnosticRoundCeiling :=
  r.check_prop _ "completed_initial_reviews is out of bounds" (by simp [SessionFields.fieldChecks])

theorem verificationRounds_le (r : SessionRecord rules) :
    r.completedVerificationRounds ≤ diagnosticRoundCeiling :=
  r.check_prop _ "completed_verification_rounds is out of bounds"
    (by simp [SessionFields.fieldChecks])

theorem held_iff_slot (r : SessionRecord rules) :
    r.reservationId = none ↔ r.reservedSlot = none :=
  r.check_prop _ "reservation_id and reserved_slot must be paired"
    (by simp [SessionFields.fieldChecks])

/-- An attached analysis transaction holds its own reservation. -/
theorem analysis_holds (r : SessionRecord rules) {t : ReviewTransaction}
    (ht : r.transaction = some t) (hp : t.phase = .analysis) :
    r.reservationId = some t.reservationId := by
  have h := r.check (c := (analysisHolds r.toSessionFields, "analysis transaction must own its reservation"))
    (by simp [SessionFields.fieldChecks])
  simp only [analysisHolds, ht, Option.all_some, decide_eq_true_eq] at h
  exact (h hp).1

/-- A transaction past its analysis has released and committed its reservation. -/
theorem finished_released (r : SessionRecord rules) {t : ReviewTransaction}
    (ht : r.transaction = some t) (hp : t.phase ≠ .analysis) :
    r.reservationId = none ∧ r.lastCommittedReservationId = some t.reservationId := by
  have h := r.check (c := (finishedReleased r.toSessionFields, "completed transaction reservation state is invalid"))
    (by simp [SessionFields.fieldChecks])
  simp only [finishedReleased, ht, Option.all_some, decide_eq_true_eq] at h
  exact h hp

end SessionRecord

/-- The arguments of `evolve`; the outer `none` is an argument left at its default. -/
structure Evolution where
  generation : Option Nat := none
  completedInitialReviews : Option Nat := none
  completedVerificationRounds : Option Nat := none
  failedAttempts : Option Nat := none
  reservationId : Option (Option String) := none
  reservedSlot : Option (Option Slot) := none
  lastCommittedReservationId : Option (Option String) := none
  operatorPaused : Option Bool := none
  failedAttemptsHeadSha : Option String := none
  continuationGrants : Option (List ContinuationGrant) := none
  transaction : Option (Option ReviewTransaction) := none
  convergenceHistory : Option (Option ConvergenceHistory) := none
  reservationOwner : Option (Option ReservationOwner) := none
  rescanState : Option (Option RescanState) := none

/-- The fields an evolution asks for. Clearing the reservation clears its owner. -/
def SessionFields.evolved (f : SessionFields) (c : Evolution) (m : Moment) : SessionFields :=
  { f with
    completedInitialReviews := c.completedInitialReviews.getD f.completedInitialReviews
    completedVerificationRounds :=
      c.completedVerificationRounds.getD f.completedVerificationRounds
    failedAttempts := c.failedAttempts.getD f.failedAttempts
    generation := c.generation.getD f.generation
    reservationId := c.reservationId.getD f.reservationId
    reservedSlot := c.reservedSlot.getD f.reservedSlot
    lastCommittedReservationId := c.lastCommittedReservationId.getD f.lastCommittedReservationId
    updatedAt := formatDatetime (awareNow m)
    operatorPaused := c.operatorPaused.getD f.operatorPaused
    failedAttemptsHeadSha := c.failedAttemptsHeadSha.or f.failedAttemptsHeadSha
    continuationGrants := c.continuationGrants.getD f.continuationGrants
    reservationOwner :=
      if c.reservationId = some none then none else c.reservationOwner.getD f.reservationOwner
    transaction := c.transaction.getD f.transaction
    rescanState := c.rescanState.getD f.rescanState
    convergenceHistory := c.convergenceHistory.getD f.convergenceHistory }

def SessionRecord.evolve (r : SessionRecord rules) (c : Evolution) (m : Moment) :
    Except String (SessionRecord rules) :=
  construct rules (r.evolved c m)

theorem SessionRecord.evolve_ok {r r' : SessionRecord rules} {c : Evolution} {m : Moment}
    (h : r.evolve c m = .ok r') : r'.toSessionFields = r.evolved c m :=
  construct_ok h

structure SessionIdentity where
  repository : String
  pullRequest : Nat
  repositoryId : Option Nat

/-- The expiry a caller gives: an instant, or a time to live from now. -/
inductive Expiry
  | at (t : Time)
  | ttl (t : Time)

/-- `create`. The fields of `given` that name the identity, the times and the pause are set here. -/
def SessionRecord.create (rules : SessionRules) (identity : SessionIdentity) (m : Moment)
    (expires : Expiry) (given : SessionFields) : Except String (SessionRecord rules) :=
  let created := awareNow m
  let fields (expiresAt : Time) : SessionFields :=
    { given with
      repository := identity.repository
      pullRequest := identity.pullRequest
      repositoryId := identity.repositoryId
      createdAt := formatDatetime created
      updatedAt := formatDatetime created
      expiresAt := formatDatetime expiresAt
      operatorPaused := false }
  match expires with
  | .at t => construct rules (fields t)
  | .ttl t =>
    if t = 0 ∨ maxSessionTtl < t then .error "session ttl is invalid"
    else construct rules (fields (created + t))

/-- The optional arguments of `create` at their defaults. -/
def emptyFields : SessionFields where
  repository := ""
  pullRequest := 0
  repositoryId := none
  completedInitialReviews := 0
  completedVerificationRounds := 0
  failedAttempts := 0
  generation := 0
  reservationId := none
  reservedSlot := none
  lastCommittedReservationId := none
  createdAt := 0
  updatedAt := 0
  expiresAt := 0
  operatorPaused := false
  failedAttemptsHeadSha := none
  continuationGrants := []
  transaction := none
  convergenceHistory := none
  reservationOwner := none
  rescanState := none
  apiRunAccounting := none
  publicationStaging := none
  documents := []

def SessionRecord.expired (r : SessionRecord rules) (m : Moment) : Bool :=
  decide (r.expiresAt ≤ awareNow m)

end ReviewSensei.Session
