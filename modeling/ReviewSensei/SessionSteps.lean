import ReviewSensei.SessionMutations

/-! What each mutation of a session record can do: it leaves the record, or it writes exactly the
named fields under the named guards. -/
namespace ReviewSensei.Session

variable {rules : SessionRules} {r r' : SessionRecord rules} {m : Moment}

theorem bind_ok {α β : Type} {x : Except String α} {f : α → Except String β} {b : β}
    (h : (x >>= f) = .ok b) : ∃ a, x = .ok a ∧ f a = .ok b := by
  cases x with
  | error e => cases h
  | ok a => exact ⟨a, rfl, h⟩

theorem nextGeneration_ok {f : SessionFields} {g : Nat} (h : nextGeneration f = .ok g) :
    g = f.generation + 1 := by
  unfold nextGeneration at h
  split at h
  · cases h
  · exact (Except.ok.inj h).symm

/-- The fields after a reservation has been taken. -/
def SessionFields.reserved (f : SessionFields) (slot : Slot) (reservationId : String)
    (headSha policyDigest : Option String) (rescanState : Option RescanState) (m : Moment) :
    SessionFields :=
  { f with
    generation := f.generation + 1
    reservationId := some reservationId
    reservedSlot := some slot
    transaction := none
    continuationGrants := (takeGrant f headSha policyDigest reservationId (f.generation + 1)).1
    lastCommittedReservationId :=
      (takeGrant f headSha policyDigest reservationId (f.generation + 1)).2
    failedAttempts := (failedAttemptScope f headSha).failedAttempts.getD f.failedAttempts
    failedAttemptsHeadSha :=
      (failedAttemptScope f headSha).failedAttemptsHeadSha.or f.failedAttemptsHeadSha
    rescanState
    updatedAt := formatDatetime (awareNow m) }

theorem consumeRescanRequest_ok {request : AuthorizedRescan} {i : String} {wall : Time}
    (h : consumeRescanRequest r request i wall = .ok r') :
    ∃ s, r'.toSessionFields =
      { r.toSessionFields with rescanState := s, updatedAt := r'.updatedAt } := by
  unfold consumeRescanRequest at h
  split at h
  · cases h
  obtain ⟨_, _, h⟩ := bind_ok h
  have hr' := SessionRecord.evolve_ok h
  exact ⟨r'.rescanState, by rw [hr']; rfl⟩

theorem admitRescan_ok {rescan : Option AuthorizedRescan} {i : String} {wall : Time}
    (h : admitRescan r rescan i wall = .ok r') :
    ∃ s, r'.toSessionFields =
      { r.toSessionFields with rescanState := s, updatedAt := r'.updatedAt } := by
  cases rescan with
  | none =>
    cases h
    exact ⟨r.rescanState, rfl⟩
  | some request => exact consumeRescanRequest_ok h

theorem dropTransaction_ok (h : dropTransaction r m = .ok r') :
    (∀ t, r.transaction = some t → t.phase ≠ .analysis) ∧
      r'.toSessionFields =
        { r.toSessionFields with transaction := none, updatedAt := r'.updatedAt } := by
  unfold dropTransaction at h
  split at h
  · rename_i htx
    obtain rfl : r = r' := Except.ok.inj h
    exact ⟨fun t ht => absurd (htx ▸ ht) (by simp), by rw [← htx]⟩
  · rename_i t htx
    split at h
    · cases h
    · rename_i hphase
      refine ⟨fun t' ht' => Option.some.inj (htx ▸ ht') ▸ hphase, ?_⟩
      rw [SessionRecord.evolve_ok h]
      rfl

theorem takeReservation_ok {slot : Slot} {i : String} {head policy : Option String}
    (h : takeReservation r slot i head policy m = .ok r') :
    isReservationId i = true ∧ r'.toSessionFields =
      { r.reserved slot i head policy r.rescanState m with transaction := r.transaction } := by
  unfold takeReservation at h
  split at h
  · cases h
  rename_i hid
  obtain ⟨g, hg, h⟩ := bind_ok h
  rw [nextGeneration_ok hg] at h
  exact ⟨by simpa using hid, SessionRecord.evolve_ok h⟩

theorem mutateReserved_ok {slot : Slot} {i : String} {g : Nat} {head policy : Option String}
    {rescan : Option AuthorizedRescan}
    (h : mutateReserved r slot i g head policy rescan m = .ok r') :
    r' = r ∨ (r.generation = g ∧ r.reservationId = none ∧
      r.lastCommittedReservationId ≠ some i ∧ isReservationId i = true ∧
      (∀ t, r.transaction = some t → t.phase ≠ .analysis) ∧
      ∃ s, r'.toSessionFields = r.reserved slot i head policy s m) := by
  unfold mutateReserved at h
  split at h
  · exact .inl (Except.ok.inj h).symm
  rename_i hlast
  split at h
  · cases h
  rename_i hgen
  split at h
  · exact .inl (Except.ok.inj h).symm
  split at h
  · cases h
  rename_i hheld
  obtain ⟨r₁, hr₁, h⟩ := bind_ok h
  obtain ⟨r₂, hr₂, h⟩ := bind_ok h
  obtain ⟨s, hs⟩ := admitRescan_ok hr₁
  obtain ⟨hphase, hdrop⟩ := dropTransaction_ok hr₂
  obtain ⟨hid, hr'⟩ := takeReservation_ok h
  have ht : r₁.transaction = r.transaction := by rw [hs]
  rw [ht] at hphase
  refine .inr ⟨not_not.mp hgen, not_not.mp hheld, hlast, hid, hphase, s, ?_⟩
  rw [hr', hdrop, hs]
  rfl

/-- A record whose counters were written by some increments. -/
def SessionFields.counted (f : SessionFields) (increments : Evolution) : SessionFields :=
  { f with
    completedInitialReviews := increments.completedInitialReviews.getD f.completedInitialReviews
    completedVerificationRounds :=
      increments.completedVerificationRounds.getD f.completedVerificationRounds
    failedAttempts := increments.failedAttempts.getD f.failedAttempts }

/-- The fields after a commit of the held reservation. -/
def SessionFields.committed (f : SessionFields) (slot : Slot) (reservationId : String)
    (m : Moment) : SessionFields :=
  { f.counted (applySlot f slot) with
    generation := f.generation + 1
    reservationId := none
    reservedSlot := none
    reservationOwner := none
    transaction := none
    lastCommittedReservationId := some reservationId
    updatedAt := formatDatetime (awareNow m) }

theorem mutateCommit_ok {i : String} {g : Nat} (h : mutateCommit r i g m = .ok r') :
    r' = r ∨ (r.transaction = none ∧ r.generation = g ∧ r.reservationId = some i ∧
      ∃ slot, r.reservedSlot = some slot ∧ r'.toSessionFields = r.committed slot i m) := by
  unfold mutateCommit at h
  split at h
  · cases h
  rename_i htx
  split at h
  · exact .inl (Except.ok.inj h).symm
  split at h
  · cases h
  rename_i hgen
  split at h
  · cases h
  rename_i slot hslot
  split at h
  · cases h
  rename_i hid
  obtain ⟨g', hg', h⟩ := bind_ok h
  rw [nextGeneration_ok hg'] at h
  exact .inr ⟨not_not.mp htx, not_not.mp hgen, not_not.mp hid, slot, hslot,
    SessionRecord.evolve_ok h⟩

/-- The fields after the held reservation was given up. -/
def SessionFields.aborted (f : SessionFields) (m : Moment) : SessionFields :=
  { f with
    generation := f.generation + 1
    reservationId := none
    reservedSlot := none
    reservationOwner := none
    transaction := none
    updatedAt := formatDatetime (awareNow m) }

theorem mutateAbort_ok {i : String} {g : Nat} (h : mutateAbort r i g m = .ok r') :
    r' = r ∨ (r.generation = g ∧ r.reservationId = some i ∧
      r'.toSessionFields = r.aborted m) := by
  unfold mutateAbort at h
  split at h
  · exact .inl (Except.ok.inj h).symm
  split at h
  · exact .inl (Except.ok.inj h).symm
  split at h
  · cases h
  rename_i hgen
  split at h
  · cases h
  rename_i hid
  obtain ⟨g', hg', h⟩ := bind_ok h
  rw [nextGeneration_ok hg'] at h
  have hr' := SessionRecord.evolve_ok h
  exact .inr ⟨not_not.mp hgen, not_not.mp hid, hr'⟩

theorem attach_ok {g : Nat} {i : String} {t : ReviewTransaction}
    (h : attach r g i t m = .ok r') :
    r' = r ∨ (r.generation = g ∧ r.reservationId = some i ∧ r.transaction = none ∧
      r'.toSessionFields =
        { r.toSessionFields with
          transaction := some t, updatedAt := formatDatetime (awareNow m) }) := by
  unfold attach at h
  split at h
  · cases h
  rename_i hgen
  split at h
  · cases h
  rename_i hid
  split at h
  · split at h
    · exact .inl (Except.ok.inj h).symm
    · cases h
  rename_i htx
  exact .inr ⟨not_not.mp hgen, not_not.mp hid, htx, SessionRecord.evolve_ok h⟩

/-- The fields after a checkpoint of the held analysis. -/
def SessionFields.checkpointed (f : SessionFields) (a : CheckpointArguments) (slot : Slot)
    (history : Option ConvergenceHistory) (rescanState : Option RescanState) (m : Moment) :
    SessionFields :=
  { f.counted (a.increments f slot) with
    generation := f.generation + 1
    reservationId := none
    reservedSlot := none
    reservationOwner := none
    lastCommittedReservationId := some a.transaction.reservationId
    transaction := some { a.transaction with
      phase := .publicationPending
      resultSha256 := some a.resultDigest
      generation := f.generation + 1 }
    convergenceHistory := history
    rescanState
    updatedAt := formatDatetime (awareNow m) }

theorem commitAnalysis_ok {a : CheckpointArguments} {slot : Slot}
    (h : commitAnalysis r a slot m = .ok r') :
    ∃ history s, r'.toSessionFields = r.checkpointed a slot history s m := by
  unfold commitAnalysis at h
  obtain ⟨s, _, h⟩ := bind_ok h
  obtain ⟨g, hg, h⟩ := bind_ok h
  obtain ⟨history, _, h⟩ := bind_ok h
  obtain ⟨bound, hbound, h⟩ := bind_ok h
  obtain ⟨pending, hpending, h⟩ := bind_ok h
  rw [ReviewTransaction.construct_ok hpending, ReviewTransaction.withResult_ok hbound,
    nextGeneration_ok hg] at h
  exact ⟨history, s, SessionRecord.evolve_ok h⟩

theorem checkpointTransactionRecord_ok {a : CheckpointArguments}
    (h : checkpointTransactionRecord r a m = .ok r') :
    r' = r ∨ (∃ t, r.transaction = some t ∧ t.phase = .analysis ∧
      t.logicalIdentityMatches a.transaction = true) ∧
      r.generation = a.transaction.generation ∧
      r.reservationId = some a.transaction.reservationId ∧
      ∃ slot, r.reservedSlot = some slot ∧ slot ≠ .failedAttempt ∧
        ∃ history s, r'.toSessionFields = r.checkpointed a slot history s m := by
  unfold checkpointTransactionRecord at h
  split at h
  · cases h
  rename_i current hcurrent
  split at h
  · cases h
  split at h
  · split at h
    · cases h
    · exact .inl (Except.ok.inj h).symm
  split at h
  · cases h
  rename_i hphase
  split at h
  · cases h
  rename_i hidentity
  split at h
  · cases h
  rename_i hgen
  split at h
  · rename_i slot hslot
    split at h
    · cases h
    · rename_i howner
      obtain ⟨hid, hne⟩ := not_or.mp howner
      exact .inr ⟨⟨current, hcurrent, not_not.mp hphase, by simpa using hidentity⟩,
        not_not.mp hgen, not_not.mp hid, slot, hslot, hne, commitAnalysis_ok h⟩
  · cases h

/-- The fields after a step of the publication. -/
def SessionFields.published (f : SessionFields) (t : ReviewTransaction)
    (history : Option ConvergenceHistory) (m : Moment) : SessionFields :=
  { f with
    generation := f.generation + 1
    transaction := some t
    convergenceHistory := history
    updatedAt := formatDatetime (awareNow m) }

theorem publicationStateMutation_ok {t : ReviewTransaction} {published : Bool}
    (h : publicationStateMutation r t published m = .ok r') :
    ∃ current, r.transaction = some current ∧ current.logicalIdentityMatches t = true ∧
      ¬current.generation < t.generation ∧
      ((r' = r ∧ (current.phase = .publicationSucceeded ∨ current.phase = .publicationSuppressed ∨
          current.phase = .publicationFailed ∧ published = false)) ∨
        ((current.phase = .publicationPending ∨
            current.phase = .publicationFailed ∧ published = true) ∧
          current.resultSha256 = t.resultSha256 ∧
          r'.toSessionFields = r.published
            { current with
              generation :=
                if r.apiRunAccounting ≠ none then current.generation + 1 else r.generation + 1
              phase := if published then .publicationSucceeded else .publicationFailed }
            r.convergenceHistory m)) := by
  unfold publicationStateMutation at h
  split at h
  · cases h
  rename_i current hcurrent
  split at h
  · cases h
  split at h
  · cases h
  rename_i hidentity
  split at h
  · cases h
  rename_i hgen
  refine ⟨current, hcurrent, by simpa using hidentity, hgen, ?_⟩
  split at h
  · rename_i hterminal
    exact .inl ⟨(Except.ok.inj h).symm, hterminal.imp_right .inl⟩
  split at h
  · rename_i hfailed
    exact .inl ⟨(Except.ok.inj h).symm, .inr (.inr hfailed)⟩
  rename_i hnotfailed
  split at h
  · cases h
  rename_i hphase
  split at h
  · cases h
  rename_i hresult
  obtain ⟨g, hg, h⟩ := bind_ok h
  obtain ⟨updated, hupdated, h⟩ := bind_ok h
  rw [ReviewTransaction.construct_ok hupdated, nextGeneration_ok hg] at h
  refine .inr ⟨?_, not_not.mp (not_or.mp hresult).2, SessionRecord.evolve_ok h⟩
  by_cases hp : current.phase = .publicationPending
  · exact .inl hp
  · have hf : current.phase = .publicationFailed := by
      by_contra hne
      exact hphase ⟨hp, hne⟩
    refine .inr ⟨hf, ?_⟩
    cases published
    · exact absurd ⟨hf, rfl⟩ hnotfailed
    · rfl

theorem suppressMutation_ok {t : ReviewTransaction} (h : suppressMutation r t m = .ok r') :
    ∃ current, r.transaction = some current ∧ current.logicalIdentityMatches t = true ∧
      ((r' = r ∧ current.phase = .publicationSuppressed) ∨
        ((current.phase = .publicationPending ∨ current.phase = .publicationFailed) ∧
          r'.toSessionFields = r.published { current with phase := .publicationSuppressed }
            r.convergenceHistory m)) := by
  unfold suppressMutation at h
  split at h
  · cases h
  rename_i current hcurrent
  split at h
  · cases h
  split at h
  · cases h
  rename_i hidentity
  refine ⟨current, hcurrent, by simpa using hidentity, ?_⟩
  split at h
  · rename_i hsuppressed
    exact .inl ⟨(Except.ok.inj h).symm, hsuppressed⟩
  split at h
  · cases h
  rename_i hphase
  split at h
  · cases h
  obtain ⟨g, hg, h⟩ := bind_ok h
  obtain ⟨updated, hupdated, h⟩ := bind_ok h
  rw [(ReviewTransaction.withPhase_ok hupdated).2, nextGeneration_ok hg] at h
  refine .inr ⟨?_, SessionRecord.evolve_ok h⟩
  by_contra hne
  exact hphase (not_or.mp hne)

/-- What the checks of the blocker evidence leave to the branches. -/
structure BlockerContext (f : SessionFields) (a : BlockerArguments) (current : ReviewTransaction)
    (history : ConvergenceHistory) (last : ProgressItem) : Prop where
  transaction_eq : f.transaction = some current
  identity : current.logicalIdentityMatches a.transaction = true
  generation : ¬current.generation < a.transaction.generation
  result : current.resultSha256 = a.transaction.resultSha256
  result_given : a.transaction.resultSha256 ≠ none
  history_eq : f.convergenceHistory = some history
  state : history.state = .completed
  last_eq : history.progress.getLast? = some last
  event : last.event = .completed

theorem blockerPreconditions_ok {f : SessionFields} {a : BlockerArguments}
    {current : ReviewTransaction} {history : ConvergenceHistory} {last : ProgressItem}
    (h : blockerPreconditions f a = .ok (current, history, last)) :
    BlockerContext f a current history last := by
  unfold blockerPreconditions at h
  split at h
  · cases h
  rename_i current' hcurrent
  split at h
  · cases h
  split at h
  · cases h
  rename_i hidentity
  split at h
  · cases h
  rename_i hgen
  split at h
  · cases h
  rename_i hresult
  split at h
  · cases h
  rename_i history' hhistory
  split at h
  · cases h
  rename_i hstate
  split at h
  · cases h
  rename_i last' hlast
  split at h
  · cases h
  split at h
  · cases h
  rename_i hevent
  cases h
  obtain ⟨hgiven, hsame⟩ := not_or.mp hresult
  exact ⟨hcurrent, by simpa using hidentity, hgen, not_not.mp hsame, hgiven, hhistory,
    not_not.mp hstate, hlast, not_not.mp hevent⟩

/-- The transaction an admission leaves. -/
def handedOff (current : ReviewTransaction) (suppress : Bool) : ReviewTransaction :=
  if suppress then { current with phase := .publicationSuppressed } else current

theorem admitBlockers_ok {history : ConvergenceHistory} {current : ReviewTransaction}
    {item : ProgressItem} {suppress : Bool} (h : admitBlockers r history current item suppress m = .ok r') :
    r'.toSessionFields = r.published (handedOff current suppress)
      (some { history with progress := history.progress.dropLast ++ [item] }) m := by
  unfold admitBlockers at h
  obtain ⟨g, hg, h⟩ := bind_ok h
  rw [nextGeneration_ok hg] at h
  cases suppress with
  | false => exact SessionRecord.evolve_ok h
  | true =>
    obtain ⟨next, hnext, h⟩ := bind_ok h
    rw [(ReviewTransaction.withPhase_ok hnext).2] at h
    exact SessionRecord.evolve_ok h

theorem isFailedCheckpointPlaceholder_ok {current : ReviewTransaction} {last : ProgressItem}
    (h : isFailedCheckpointPlaceholder r current last = .ok true) :
    current.phase = .publicationFailed ∧ last.marker = none := by
  unfold isFailedCheckpointPlaceholder at h
  split at h
  · rename_i hcond
    exact ⟨hcond.1, hcond.2.1⟩
  · cases h

/-- The calls that find their evidence in place and leave the record. -/
def BlockerArguments.Settled (a : BlockerArguments) (current : ReviewTransaction)
    (last : ProgressItem) : Prop :=
  a.marks current last = true ∧ (current.phase = .publicationSucceeded ∨
      current.phase = .publicationFailed ∧ a.suppressPublication = false) ∨
    last = a.item current ∧
      (current.phase = .publicationSuppressed ∨ current.phase = .publicationPending)

theorem marks_of_item {a : BlockerArguments} {current : ReviewTransaction} {last : ProgressItem}
    (h : last = a.item current) : a.marks current last = true := by
  simp [BlockerArguments.marks, h]

theorem blockerBranches_ok {a : BlockerArguments} {current : ReviewTransaction}
    {history : ConvergenceHistory} {last : ProgressItem}
    (h : blockerBranches r a current history last m = .ok r') :
    (r' = r ∧ a.Settled current last) ∨
      ((current.phase = .publicationPending ∧ last ≠ a.item current ∧
            last.marker.all (fun b => b.transactionId.isNone) = true ∨
          current.phase = .publicationFailed ∧
            (last.marker = none ∨ a.marks current last = true ∧ a.suppressPublication = true)) ∧
        r'.toSessionFields = r.published (handedOff current a.suppressPublication)
          (some { history with progress := history.progress.dropLast ++ [a.item current] }) m) := by
  unfold blockerBranches at h
  dsimp only at h
  split at h
  · rename_i hmarked
    obtain ⟨hphase, hmarks⟩ := hmarked
    split at h
    · rename_i hsuppress
      rw [hsuppress.2]
      exact .inr ⟨.inr ⟨hsuppress.1, .inr ⟨hmarks, rfl⟩⟩, admitBlockers_ok h⟩
    · rename_i hkeep
      refine .inl ⟨(Except.ok.inj h).symm, .inl ⟨hmarks, ?_⟩⟩
      rcases hphase with hfailed | hsucceeded
      · exact .inr ⟨hfailed, by simpa [hfailed] using hkeep⟩
      · exact .inl hsucceeded
  rename_i hunmarked
  split at h
  · rename_i hsuppressed
    split at h
    · cases h
    · rename_i hitem
      exact .inl ⟨(Except.ok.inj h).symm, .inr ⟨not_not.mp hitem, .inl hsuppressed⟩⟩
  split at h
  · rename_i hdurable
    obtain ⟨hphase, hitem⟩ := hdurable
    refine .inl ⟨(Except.ok.inj h).symm, .inr ⟨hitem, .inr ?_⟩⟩
    exact hphase.resolve_right (fun hf => hunmarked ⟨.inl hf, marks_of_item hitem⟩)
  rename_i hnotdurable
  obtain ⟨placeholder, hplaceholder, h⟩ := bind_ok h
  split at h
  · cases h
  split at h
  · cases h
  rename_i hphase
  split at h
  · cases h
  rename_i hforeign
  refine .inr ⟨?_, admitBlockers_ok h⟩
  cases placeholder with
  | true =>
    obtain ⟨hfailed, hmarker⟩ := isFailedCheckpointPlaceholder_ok hplaceholder
    exact .inr ⟨hfailed, .inl hmarker⟩
  | false =>
    have hpending : current.phase = .publicationPending := by simpa using hphase
    have hitem : last ≠ a.item current := fun hitem => hnotdurable ⟨.inl hpending, hitem⟩
    refine .inl ⟨hpending, hitem, ?_⟩
    cases hmarker : last.marker with
    | none => rfl
    | some b =>
      have hunowned : ¬b.transactionId.isSome = true := by
        intro howned
        exact hforeign ⟨by simp [hmarker, howned], hitem⟩
      simpa using hunowned

theorem recordAdmittedBlockerProgress_ok {a : BlockerArguments}
    (h : recordAdmittedBlockerProgress r a m = .ok r') :
    ∃ current history last, BlockerContext r.toSessionFields a current history last ∧
      blockerBranches r a current history last m = .ok r' := by
  unfold recordAdmittedBlockerProgress at h
  split at h
  · cases h
  split at h
  · cases h
  obtain ⟨⟨current, history, last⟩, hpre, h⟩ := bind_ok h
  exact ⟨current, history, last, blockerPreconditions_ok hpre, h⟩

end ReviewSensei.Session
