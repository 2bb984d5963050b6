import ReviewSensei.SessionData

/-! The mutations of a session record: reserve, commit, abort, attach, checkpoint, and the four
publication mutations. Each returns the next record or raises. -/
namespace ReviewSensei.Session

variable {rules : SessionRules}

def nextGeneration (record : SessionFields) : Except String Nat :=
  if maxGeneration ≤ record.generation then .error "session generation is exhausted"
  else .ok (record.generation + 1)

/-- The counter the reserved slot writes, as arguments of `evolve`. -/
def applySlot (record : SessionFields) : Slot → Evolution
  | .initial =>
    { completedInitialReviews := some (min (record.completedInitialReviews + 1) diagnosticRoundCeiling) }
  | .verification =>
    { completedVerificationRounds :=
        some (min (record.completedVerificationRounds + 1) diagnosticRoundCeiling) }
  | .failedAttempt => { failedAttempts := some (min (record.failedAttempts + 1) maxFailedAttempts) }

/-- The failed-attempt bookkeeping a reservation for this head owes. -/
def failedAttemptScope (record : SessionFields) (headSha : Option String) : Evolution :=
  if headSha = none ∨ record.failedAttemptsHeadSha = headSha then {}
  else { failedAttempts := some 0, failedAttemptsHeadSha := headSha }

def failedAttemptsForHead (record : SessionFields) (headSha : Option String) : Nat :=
  if record.failedAttemptsHeadSha = none then 0
  else if headSha ≠ none ∧ record.failedAttemptsHeadSha ≠ headSha then 0
  else record.failedAttempts

/-- `policy_digest is None or grant.policy_digest == policy_digest`. -/
def policyAccepts (policyDigest : Option String) (g : ContinuationGrant) : Bool :=
  policyDigest == none || g.policyDigest == policyDigest

def isSuccessorGrant (g : ContinuationGrant) : Bool := g.commandId.any (startsWith "successor:")

def isIrrecoverableGrant (g : ContinuationGrant) : Bool :=
  g.commandId.any (startsWith "irrecoverable-tx:")

def ContinuationGrant.unconsumed (g : ContinuationGrant) : Bool :=
  g.consumedReservationId == none && g.consumedGeneration == none

def hasIrrecoverableTransactionGrant (record : SessionFields)
    (headSha policyDigest : Option String) : Option ContinuationGrant :=
  if headSha = none ∨ headSha = some "" then none
  else record.continuationGrants.reverse.find? (fun g =>
    isIrrecoverableGrant g && g.headSha == headSha && g.consumedGeneration.isSome &&
      policyAccepts policyDigest g)

def retiredMarker (reservationId : String) : String :=
  sha256 (reservationId ++ "|irrecoverable-retired")

def consumedMarker (reservationId : String) : String :=
  sha256 (reservationId ++ "|irrecoverable-consumed")

def hasUnconsumedIrrecoverableTransactionGrant (record : SessionFields)
    (headSha policyDigest : Option String) : Option ContinuationGrant :=
  if maxFailedAttempts ≤ failedAttemptsForHead record headSha then none
  else match hasIrrecoverableTransactionGrant record headSha policyDigest with
    | none => none
    | some existing =>
      if record.reservationId.isSome then none
      else match existing.consumedReservationId with
        | none => none
        | some retired =>
          if retired = "" then none
          else if record.lastCommittedReservationId = some (retiredMarker retired) then some existing
          else none

def hasUnconsumedSuccessorGrant (record : SessionFields)
    (headSha policyDigest : Option String) : Option ContinuationGrant :=
  if headSha = none ∨ headSha = some "" then none
  else record.continuationGrants.reverse.find? (fun g =>
    isSuccessorGrant g && g.headSha == headSha && g.unconsumed && policyAccepts policyDigest g)

/-- The loop from the newest grant down: the first one `p` holds of is changed by `f`. -/
def updateLast (p : ContinuationGrant → Bool) (f : ContinuationGrant → ContinuationGrant)
    (grants : List ContinuationGrant) : List ContinuationGrant :=
  (grants.reverse.replaceF (fun g => if p g then some (f g) else none)).reverse

def consumeSuccessor (grants : List ContinuationGrant) (active : ContinuationGrant)
    (reservationId : String) (generation : Nat) : List ContinuationGrant :=
  updateLast (fun g => g.commandId == active.commandId && g.consumedReservationId == none)
    (fun g => { g with consumedReservationId := some reservationId
                       consumedGeneration := some generation }) grants

/-- The grants and the last committed id after a reservation has taken its grant, if any. -/
def takeGrant (record : SessionFields) (headSha policyDigest : Option String)
    (reservationId : String) (generation : Nat) : List ContinuationGrant × Option String :=
  let targetHead := textOr headSha record.failedAttemptsHeadSha
  match hasUnconsumedSuccessorGrant record targetHead policyDigest with
  | some active =>
    (consumeSuccessor record.continuationGrants active reservationId generation,
      record.lastCommittedReservationId)
  | none =>
    match hasUnconsumedIrrecoverableTransactionGrant record targetHead policyDigest with
    | some active =>
      (record.continuationGrants,
        match active.consumedReservationId with
        | some retired =>
          if retired = "" then record.lastCommittedReservationId else some (consumedMarker retired)
        | none => record.lastCommittedReservationId)
    | none => (record.continuationGrants, record.lastCommittedReservationId)

/-- Trusted host proof of a human request for another scan. -/
structure AuthorizedRescan where
  kind : RescanKind
  requestId : Nat
  source : ReviewTransaction
  reviewId : Nat
  ordinaryReservation : Option String
  mode : RescanMode

def replayedRescan (record : SessionFields) (request : AuthorizedRescan) : Bool :=
  record.rescanState.any (fun s => decide (request.requestId ≤ s.watermark request.kind))

/-- The published source, also after a failed rescan has released its hold. -/
def rescanSource (record : SessionFields) (headSha : Option String) : Option ReviewTransaction :=
  match record.transaction with
  | some t => some t
  | none =>
    (record.rescanState.map RescanState.receipts).getD []
      |>.reverse.find? (fun r => headSha == none || headSha == some r.source.headSha)
      |>.map RescanReceipt.source

def RescanKind.text : RescanKind → String
  | .issueComment => "issue_comment"
  | .workflowDispatch => "workflow_dispatch"

def rescanReservation (record : SessionFields) (request : AuthorizedRescan)
    (headSha : Option String) : Except String String :=
  let changed := (rescanSource record headSha).all (fun source =>
    source.transactionId != request.source.transactionId || some source.headSha != headSha ||
      source.repository != record.repository || source.pullRequest != record.pullRequest)
  if !replayedRescan record request && changed then .error "explicit rescan source changed"
  else
    let domain := if request.mode = .remaining then "remaining" else "rescan"
    .ok (sha256 (domain ++ ":" ++ record.repository ++ ":" ++ toString record.pullRequest ++ ":" ++
      headSha.getD "None" ++ ":" ++ request.kind.text ++ ":" ++ toString request.requestId))

/-- The rescan state with the request's watermark and its receipt, behind the newest receipts. -/
def RescanState.withRequest (prior : RescanState) (request : AuthorizedRescan)
    (reservation : String) : RescanState :=
  let carried := prior.receipts.drop (prior.receipts.length - (maxRescanReceipts - 1))
  let receipt : RescanReceipt :=
    { mode := request.mode, kind := request.kind, requestId := request.requestId
      reviewId := request.reviewId, source := request.source
      ordinaryReservation :=
        (textOr request.ordinaryReservation (some request.source.reservationId)).getD ""
      reservation, progress := none }
  match request.kind with
  | .issueComment =>
    { prior with issueComment := request.requestId, receipts := carried ++ [receipt] }
  | .workflowDispatch =>
    { prior with workflowDispatch := request.requestId, receipts := carried ++ [receipt] }

def consumeRescanRequest (record : SessionRecord rules) (request : AuthorizedRescan)
    (reservation : String) (wall : Time) : Except String (SessionRecord rules) :=
  if replayedRescan record.toSessionFields request then
    .error "explicit rescan request was already consumed"
  else do
    let _ ← rescanReservation record.toSessionFields request (some request.source.headSha)
    let prior := record.rescanState.getD ⟨0, 0, []⟩
    record.evolve { rescanState := some (some (prior.withRequest request reservation)) } ⟨none, wall⟩

def admitRescan (record : SessionRecord rules) (rescanRequest : Option AuthorizedRescan)
    (reservationId : String) (wall : Time) : Except String (SessionRecord rules) :=
  match rescanRequest with
  | none => .ok record
  | some request => consumeRescanRequest record request reservationId wall

/-- A finished transaction is historical metadata; an active analysis is not replaced. -/
def dropTransaction (record : SessionRecord rules) (m : Moment) :
    Except String (SessionRecord rules) :=
  match record.transaction with
  | none => .ok record
  | some t =>
    if t.phase = .analysis then .error "session analysis transaction is already active"
    else record.evolve { transaction := some none } m

/-- The last step of `mutate_reserved`, on the record its rescan and transaction left. -/
def takeReservation (record : SessionRecord rules) (slot : Slot) (reservationId : String)
    (headSha policyDigest : Option String) (m : Moment) : Except String (SessionRecord rules) :=
  if !isReservationId reservationId then .error "reservation_id is invalid"
  else do
    let generation ← nextGeneration record.toSessionFields
    let taken := takeGrant record.toSessionFields headSha policyDigest reservationId generation
    let scope := failedAttemptScope record.toSessionFields headSha
    record.evolve
      { generation := some generation
        reservationId := some (some reservationId)
        reservedSlot := some (some slot)
        continuationGrants := some taken.1
        lastCommittedReservationId := some taken.2
        failedAttempts := scope.failedAttempts
        failedAttemptsHeadSha := scope.failedAttemptsHeadSha } m

def mutateReserved (record : SessionRecord rules) (slot : Slot) (reservationId : String)
    (expectedGeneration : Nat) (headSha policyDigest : Option String)
    (rescanRequest : Option AuthorizedRescan) (m : Moment) : Except String (SessionRecord rules) :=
  -- A committed id is an idempotency key: it is looked at before the generation.
  if record.lastCommittedReservationId = some reservationId then .ok record
  else if record.generation ≠ expectedGeneration then .error "session generation conflict"
  else if record.reservationId = some reservationId ∧ record.reservedSlot = some slot then .ok record
  else if record.reservationId ≠ none then .error "session reservation is already held"
  else do
    let record ← admitRescan record rescanRequest reservationId m.wall
    let record ← dropTransaction record m
    takeReservation record slot reservationId headSha policyDigest m

def mutateCommit (record : SessionRecord rules) (reservationId : String)
    (expectedGeneration : Nat) (m : Moment) : Except String (SessionRecord rules) :=
  if record.transaction ≠ none then
    .error "transaction reservations require an analysis checkpoint"
  else if record.lastCommittedReservationId = some reservationId ∧ record.reservationId = none then
    .ok record
  else if record.generation ≠ expectedGeneration then .error "session generation conflict"
  else match record.reservedSlot with
    | none => .error "session reservation does not match"
    | some slot =>
      if record.reservationId ≠ some reservationId then .error "session reservation does not match"
      else do
        let generation ← nextGeneration record.toSessionFields
        let increments := applySlot record.toSessionFields slot
        record.evolve
          { generation := some generation
            reservationId := some none
            reservedSlot := some none
            transaction := some none
            lastCommittedReservationId := some (some reservationId)
            completedInitialReviews := increments.completedInitialReviews
            completedVerificationRounds := increments.completedVerificationRounds
            failedAttempts := increments.failedAttempts } m

/-- Release a reservation; an already absent one is a no-op. -/
def mutateAbort (record : SessionRecord rules) (reservationId : String)
    (expectedGeneration : Nat) (m : Moment) : Except String (SessionRecord rules) :=
  if record.reservationId = none ∧ record.lastCommittedReservationId ≠ some reservationId then
    .ok record
  else if record.lastCommittedReservationId = some reservationId ∧ record.reservationId = none then
    .ok record
  else if record.generation ≠ expectedGeneration then .error "session generation conflict"
  else if record.reservationId ≠ some reservationId then .error "session reservation does not match"
  else do
    let generation ← nextGeneration record.toSessionFields
    record.evolve
      { generation := some generation
        reservationId := some none
        reservedSlot := some none
        transaction := some none } m

/-- `attach` of `prepare_review_transaction`, closed over the prepared record's generation and
reservation and over the transaction made for them. -/
def attach (record : SessionRecord rules) (preparedGeneration : Nat)
    (preparedReservation : String) (transaction : ReviewTransaction) (m : Moment) :
    Except String (SessionRecord rules) :=
  if record.generation ≠ preparedGeneration then .error "session generation conflict"
  else if record.reservationId ≠ some preparedReservation then
    .error "session reservation does not match"
  else match record.transaction with
    | some t =>
      if t.transactionId = transaction.transactionId then .ok record
      else .error "session already has a different transaction"
    | none => record.evolve { transaction := some (some transaction) } m

/-- The rescan state a checkpoint stores: a productive one writes its progress on the receipt. -/
def recordProgress (rescanState : Option RescanState) (transaction : ReviewTransaction)
    (resultDigest : String) (reviewComplete : Bool) (progress : Option RemainingProgress) :
    Except String (Option RescanState) :=
  match progress, rescanState with
  | none, s => .ok s
  | some _, none => .error "productive checkpoint has no remaining authority"
  | some progress, some s =>
    if reviewComplete then .error "productive checkpoint has no remaining authority"
    else match s.receipts.find? (fun r => r.reservation == transaction.reservationId) with
      | none => .error "productive checkpoint authority differs"
      | some receipt =>
        if receipt.mode ≠ .remaining ∨ progress.childDigest ≠ resultDigest ∨
            some progress.parentDigest ≠ receipt.source.resultSha256 then
          .error "productive checkpoint authority differs"
        else .ok (some { s with receipts := s.receipts.replaceF (fun r =>
          if r.reservation == transaction.reservationId then
            some { r with progress := some progress }
          else none) })

/-- The entries a checkpoint keeps before its own placeholder. -/
def comparableProgress (history : Option ConvergenceHistory) : List ProgressItem :=
  let comparable := ((history.map ConvergenceHistory.progress).getD []).filter
    (fun item => item.event == .completed && item.marker.isSome)
  comparable.drop (comparable.length - (maxConvergenceProgressEntries - 1))

/-- The convergence history a checkpoint stores: a given baseline must be the complete one of this
transaction. -/
def checkpointHistory (record : SessionFields) (transaction : ReviewTransaction)
    (baseline : Option ReviewBaseline) (reviewComplete : Bool) (generation : Nat)
    (ledgerDigest : String) (writeBaseline : ReviewBaseline → Except String String) :
    Except String (Option ConvergenceHistory) :=
  match baseline with
  | none => .ok record.convergenceHistory
  | some b =>
    if !reviewComplete then .error "a partial review cannot checkpoint a baseline"
    else if !b.complete then .error "only a complete baseline can be checkpointed"
    else if b.repository ≠ transaction.repository ∨ b.pullRequest ≠ transaction.pullRequest ∨
        b.baseSha ≠ transaction.baseSha ∨ b.headSha ≠ transaction.headSha ∨
        b.policyDigest ≠ transaction.policyDigest ∨ b.generation ≠ generation then
      .error "baseline does not match the review transaction"
    else do
      let document ← writeBaseline b
      return some
        { state := .completed
          baseline := some document
          progress := comparableProgress record.convergenceHistory ++
            [{ event := .completed, generation, marker := none }]
          ledgerDigest }

/-- The arguments of `_checkpoint_transaction_record` beside the record. -/
structure CheckpointArguments where
  transaction : ReviewTransaction
  resultDigest : String
  baseline : Option ReviewBaseline
  reviewComplete : Bool
  progress : Option RemainingProgress
  writeBaseline : ReviewBaseline → Except String String

/-- The counters a checkpoint of the held slot writes: a productive partial one charges nothing,
any other partial one a failed attempt. -/
def CheckpointArguments.increments (a : CheckpointArguments) (record : SessionFields)
    (slot : Slot) : Evolution :=
  if !a.reviewComplete && a.progress.isSome then {}
  else applySlot record (if a.reviewComplete then slot else .failedAttempt)

/-- The branch that commits the analysis: the identity, the generation and the held slot agree. -/
def commitAnalysis (record : SessionRecord rules) (a : CheckpointArguments) (slot : Slot)
    (m : Moment) : Except String (SessionRecord rules) := do
  let rescanState ← recordProgress record.rescanState a.transaction a.resultDigest
    a.reviewComplete a.progress
  let generation ← nextGeneration record.toSessionFields
  let history ← checkpointHistory record.toSessionFields a.transaction a.baseline a.reviewComplete
    generation (rules.recordSha256 record.toSessionFields) a.writeBaseline
  let bound ← a.transaction.withResult a.resultDigest
  let pending ← ReviewTransaction.construct { bound with generation }
  let increments := a.increments record.toSessionFields slot
  record.evolve
    { generation := some generation
      reservationId := some none
      reservedSlot := some none
      lastCommittedReservationId := some (some a.transaction.reservationId)
      completedInitialReviews := increments.completedInitialReviews
      completedVerificationRounds := increments.completedVerificationRounds
      failedAttempts := increments.failedAttempts
      transaction := some (some pending)
      convergenceHistory := some history
      rescanState := some rescanState } m

def checkpointTransactionRecord (record : SessionRecord rules) (a : CheckpointArguments)
    (m : Moment) : Except String (SessionRecord rules) :=
  match record.transaction with
  | none => .error "session transaction does not match"
  | some current =>
    if current.transactionId ≠ a.transaction.transactionId then
      .error "session transaction does not match"
    else if current.phase.hasResult then
      if current.resultSha256 ≠ some a.resultDigest then
        .error "session transaction result digest does not match"
      else .ok record
    else if current.phase ≠ .analysis then .error "session transaction is not checkpointable"
    else if !current.logicalIdentityMatches a.transaction then
      .error "session transaction identity does not match"
    else if record.generation ≠ a.transaction.generation then .error "session generation conflict"
    else match record.reservedSlot with
      | some slot =>
        if record.reservationId ≠ some a.transaction.reservationId ∨ slot = .failedAttempt then
          .error "session analysis reservation does not match"
        else commitAnalysis record a slot m
      | none => .error "session analysis reservation does not match"

/-- `_publication_state_mutation`. -/
def publicationStateMutation (record : SessionRecord rules) (transaction : ReviewTransaction)
    (published : Bool) (m : Moment) : Except String (SessionRecord rules) :=
  match record.transaction with
  | none => .error "durable transaction does not match"
  | some current =>
    if current.transactionId ≠ transaction.transactionId then
      .error "durable transaction does not match"
    else if !current.logicalIdentityMatches transaction then
      .error "publication transaction identity does not match"
    else if current.generation < transaction.generation then
      .error "publication transaction generation is stale"
    else if current.phase = .publicationSucceeded ∨ current.phase = .publicationSuppressed then
      .ok record
    else if current.phase = .publicationFailed ∧ published = false then .ok record
    else if current.phase ≠ .publicationPending ∧ current.phase ≠ .publicationFailed then
      .error "publication phase transition is invalid"
    else if transaction.resultSha256 = none ∨ current.resultSha256 ≠ transaction.resultSha256 then
      .error "publication result digest does not match"
    else do
      let generation ← nextGeneration record.toSessionFields
      let updated ← ReviewTransaction.construct
        { current with
          -- Accounting checkpoints advance the root without this transaction.
          generation := if record.apiRunAccounting ≠ none then current.generation + 1 else generation
          phase := if published then .publicationSucceeded else .publicationFailed }
      record.evolve { generation := some generation, transaction := some (some updated) } m

/-- The mutation of `suppress_review_publication`. -/
def suppressMutation (record : SessionRecord rules) (transaction : ReviewTransaction) (m : Moment) :
    Except String (SessionRecord rules) :=
  match record.transaction with
  | none => .error "durable transaction does not match"
  | some current =>
    if current.transactionId ≠ transaction.transactionId then
      .error "durable transaction does not match"
    else if !current.logicalIdentityMatches transaction then
      .error "publication transaction identity does not match"
    else if current.phase = .publicationSuppressed then .ok record
    else if current.phase ≠ .publicationPending ∧ current.phase ≠ .publicationFailed then
      .error "publication suppression phase transition is invalid"
    else if transaction.resultSha256 = none ∨ current.resultSha256 ≠ transaction.resultSha256 then
      .error "publication result digest does not match"
    else do
      let generation ← nextGeneration record.toSessionFields
      let updated ← current.withPhase .publicationSuppressed
      record.evolve { generation := some generation, transaction := some (some updated) } m

/-- The arguments of `record_admitted_blocker_progress`. -/
structure BlockerArguments where
  transaction : ReviewTransaction
  blockerSetSha256 : String
  blockerCount : Nat
  suppressPublication : Bool

def BlockerArguments.item (a : BlockerArguments) (current : ReviewTransaction) : ProgressItem where
  event := .completed
  generation := current.generation
  marker := some
    { blockerSetSha256 := a.blockerSetSha256
      blockerCount := a.blockerCount
      transactionId := some current.transactionId }

def BlockerArguments.marks (a : BlockerArguments) (current : ReviewTransaction)
    (last : ProgressItem) : Bool :=
  last.marker == (a.item current).marker

/-- The exact checkpoint baseline that binds a markerless placeholder to the transaction. -/
def isFailedCheckpointPlaceholder (record : SessionRecord rules) (current : ReviewTransaction)
    (last : ProgressItem) : Except String Bool :=
  if current.phase = .publicationFailed ∧ last.marker = none ∧
      last.generation + 1 = current.generation ∧
      record.lastCommittedReservationId = some current.reservationId then do
    let checkpoint ← rules.readSessionBaseline record.toSessionFields
    return checkpoint.any (fun b => b.complete && b.generation == last.generation &&
      b.repository == current.repository && b.pullRequest == current.pullRequest &&
      b.baseSha == current.baseSha && b.headSha == current.headSha &&
      b.policyDigest == current.policyDigest)
  else .ok false

/-- Replace the last entry by the admitted one, and hand the publication off if asked. -/
def admitBlockers (record : SessionRecord rules) (history : ConvergenceHistory)
    (current : ReviewTransaction) (item : ProgressItem) (suppress : Bool) (m : Moment) :
    Except String (SessionRecord rules) := do
  let generation ← nextGeneration record.toSessionFields
  let next ← if suppress then current.withPhase .publicationSuppressed else pure current
  record.evolve
    { generation := some generation
      transaction := some (some next)
      convergenceHistory :=
        some (some { history with progress := history.progress.dropLast ++ [item] }) } m

/-- The checks before any branch on the phase: the exact transaction and result, and a usable
progress list, whose last entry is returned with the history. -/
def blockerPreconditions (record : SessionFields) (a : BlockerArguments) :
    Except String (ReviewTransaction × ConvergenceHistory × ProgressItem) :=
  match record.transaction with
  | none => .error "durable transaction does not match"
  | some current =>
    if current.transactionId ≠ a.transaction.transactionId then
      .error "durable transaction does not match"
    else if !current.logicalIdentityMatches a.transaction then
      .error "publication transaction identity does not match"
    else if current.generation < a.transaction.generation then
      .error "publication transaction generation is stale"
    else if a.transaction.resultSha256 = none ∨
        current.resultSha256 ≠ a.transaction.resultSha256 then
      .error "publication result digest does not match"
    else match record.convergenceHistory with
      | none => .error "durable convergence history is unavailable"
      | some history =>
        if history.state ≠ .completed then .error "durable convergence history is unavailable"
        else match history.progress.getLast? with
          | none => .error "durable convergence progress is unavailable"
          | some last =>
            if maxConvergenceProgressEntries < history.progress.length then
              .error "durable convergence progress exceeds the configured bound"
            else if last.event ≠ .completed then .error "durable convergence progress is invalid"
            else .ok (current, history, last)

/-- The branches of `record_admitted_blocker_progress` on the phase and the last entry. -/
def blockerBranches (record : SessionRecord rules) (a : BlockerArguments)
    (current : ReviewTransaction) (history : ConvergenceHistory) (last : ProgressItem)
    (m : Moment) : Except String (SessionRecord rules) :=
  let item := a.item current
  if (current.phase = .publicationFailed ∨ current.phase = .publicationSucceeded) ∧
      a.marks current last = true then
    if current.phase = .publicationFailed ∧ a.suppressPublication = true then
      admitBlockers record history current item true m
    else .ok record
  else if current.phase = .publicationSuppressed then
    if last ≠ item then .error "durable blocker progress does not match" else .ok record
  else if (current.phase = .publicationPending ∨ current.phase = .publicationFailed) ∧
      last = item then
    -- The evidence is already durable. The suppression flag is not looked at.
    .ok record
  else do
    let placeholder ← isFailedCheckpointPlaceholder record current last
    if last.generation ≠ current.generation ∧ placeholder = false then
      .error "durable convergence progress does not match transaction"
    else if current.phase ≠ .publicationPending ∧ placeholder = false then
      .error "publication progress phase transition is invalid"
    else if last.marker.any (fun b => b.transactionId.isSome) ∧ last ≠ item then
      .error "durable blocker progress does not match"
    else admitBlockers record history current item a.suppressPublication m

/-- `record_admitted_blocker_progress` refuses ill-formed evidence before it reads the record. -/
def recordAdmittedBlockerProgress (record : SessionRecord rules) (a : BlockerArguments)
    (m : Moment) : Except String (SessionRecord rules) :=
  if !isSha256 a.blockerSetSha256 then .error "blocker set digest is invalid"
  else if maxDurableBlockerCount < a.blockerCount then .error "blocker set count is out of bounds"
  else do
    let (current, history, last) ← blockerPreconditions record.toSessionFields a
    blockerBranches record a current history last m

end ReviewSensei.Session
