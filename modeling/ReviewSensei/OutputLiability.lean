import ReviewSensei.DurableRuns
import ReviewSensei.WorkRecovery

/-! The output liability of a diagnostic operation: what its dispatches were granted is covered
by what is known, unknown or in flight, as long as no restart forgets a reservation. -/
namespace ReviewSensei.Execution
open ReviewSensei.Effects ReviewSensei.Restart

variable {T J : Type}

/-- The output limit that an event grants. -/
def Event.grants : Event T → Nat
  | .called _ request => request.maxResponseBytes
  | _ => 0

/-- What an answer gives back of its limit. -/
def Event.releases : Event T → Nat
  | .answered request text => request.maxResponseBytes - text.utf8ByteSize
  | _ => 0

def granted (events : List (Event T)) : Nat := (events.map Event.grants).sum

def released (events : List (Event T)) : Nat := (events.map Event.releases).sum

@[simp] theorem granted_append (es es' : List (Event T)) :
    granted (es ++ es') = granted es + granted es' := by
  simp [granted]

@[simp] theorem released_append (es es' : List (Event T)) :
    released (es ++ es') = released es + released es' := by
  simp [released]

@[simp] theorem granted_singleton (e : Event T) : granted [e] = e.grants := by simp [granted]

@[simp] theorem released_singleton (e : Event T) : released [e] = e.releases := by simp [released]

@[simp] theorem granted_nil : granted ([] : List (Event T)) = 0 := rfl

@[simp] theorem released_nil : released ([] : List (Event T)) = 0 := rfl

/-- The liability of the durable state. -/
def owed (s : Option (SaveRecord T)) : Nat := (s.map SaveRecord.liability).getD 0

/-- Since its start, a process was granted no more than what it released and what its last save
owes beyond the first. -/
def Covered (s : Option (SaveRecord T)) (events : List (Event T)) : Prop :=
  granted events + owed s ≤ released events + owed (left lastCompleted s events)

/-- Every event leaves the process covered, and every grant within the total. -/
structure CoveredStep (total : Nat) (s : Option (SaveRecord T)) (seen : List (Event T))
    (e : Event T) : Prop where
  covered : Covered s (seen ++ [e])
  within : e.grants ≠ 0 → granted (seen ++ [e]) + owed s ≤ released (seen ++ [e]) + total

/-- Known response bytes and the outstanding reservation of a world. -/
def World.liability (w : World T) : Nat :=
  w.tracker.responseBytes + w.accounting.unknownResponseBytes + w.accounting.inflightResponseBytes

section
variable (args : Arguments T J) (s : Option (SaveRecord T))

/-- While no reservation is open. -/
structure Settled (w : World T) : Prop where
  steps : EachStep (CoveredStep args.budgets.maxTotalOutputBytes s) w.events
  open_ : Covered s w.events
  none_ : w.accounting.inflightResponseBytes = 0
  covered : granted w.events + owed s ≤ released w.events + w.liability

/-- Once a dispatch with the limit `n` is saved. -/
structure Reserving (n : Nat) (w : World T) : Prop where
  steps : EachStep (CoveredStep args.budgets.maxTotalOutputBytes s) w.events
  reserved : w.accounting.inflightResponseBytes = n
  covered : granted w.events + owed s + n ≤ released w.events + w.liability
  saved : owed (left lastCompleted s w.events) = w.liability
  within : w.liability ≤ args.budgets.maxTotalOutputBytes
  positive : 0 < n

/-- Once the transport was called with the limit `n`. -/
structure Exposed (n : Nat) (w : World T) : Prop where
  steps : EachStep (CoveredStep args.budgets.maxTotalOutputBytes s) w.events
  open_ : Covered s w.events
  reserved : w.accounting.inflightResponseBytes = n
  covered : granted w.events + owed s ≤ released w.events + w.liability

def CoveredRun (w : World T) : Prop :=
  EachStep (CoveredStep args.budgets.maxTotalOutputBytes s) w.events

end

/-- An event that is no completed save and grants nothing. -/
theorem covered_quiet {n : Nat} {s : Option (SaveRecord T)} {events : List (Event T)}
    {e : Event T} (h : Covered s events) (hc : e.commits = false) (hg : e.grants = 0) :
    CoveredStep n s events e := by
  refine ⟨?_, fun hne => absurd hg hne⟩
  unfold Covered at h ⊢
  rw [left_append, left_singleton, lastCompleted_quiet hc, granted_append, released_append,
    granted_singleton, hg]
  omega

theorem settled_quiet {args : Arguments T J} {s : Option (SaveRecord T)} {w : World T}
    (h : Settled args s w) {e : Event T} (hc : e.commits = false) (hg : e.grants = 0) :
    Settled args s { w with events := w.events ++ [e] } := by
  have hstep := covered_quiet (n := args.budgets.maxTotalOutputBytes) h.open_ hc hg
  refine ⟨h.steps.snoc hstep, hstep.covered, h.none_, ?_⟩
  have hcovered := h.covered
  simp only [granted_append, released_append, granted_singleton, hg, World.liability]
    at hcovered ⊢
  omega

section Save
variable [DecidableEq T] {env : Environment} {args : Arguments T J} {a : Admitted T}
  {s : Option (SaveRecord T)} {w : World T} {call : SaveCall} {r : SaveRecord T}

omit [DecidableEq T] in
theorem savedExecution_accounting {nextIndex : Nat} {dispatched : Bool} {e : WorkExecution T}
    (h : savedExecution env args a w nextIndex dispatched = .ok e) :
    e.unknownResponseBytes = w.accounting.unknownResponseBytes ∧
      e.inflightResponseBytes = w.accounting.inflightResponseBytes := by
  unfold savedExecution at h
  dsimp only at h
  cases hreceipts : saveReceipts env args a (args.plan.batches.drop nextIndex) with
  | error exc =>
    rw [hreceipts] at h
    cases h
  | ok receipts =>
    rw [hreceipts] at h
    obtain ⟨-, -, -, -, -, hunknown, hinflight⟩ := WorkExecution.make_eq h
    exact ⟨hunknown, hinflight⟩

/-- The saved record owes what the world owes. -/
theorem saveRecord_liability (h : savedRecord env args a w call = .ok (some r)) :
    r.liability = w.liability := by
  obtain ⟨e, hexec, rfl⟩ := savedRecord_eq h
  obtain ⟨hunknown, hinflight⟩ := savedExecution_accounting hexec
  simp only [SaveRecord.liability, saveRecord, WorkExecution.responseBytesReserved, hunknown,
    hinflight, World.liability]
  omega

/-- With an enabled recovery store every successful save reaches the store. -/
theorem savedRecord_some (hcheck : args.checkpoint = none)
    (hencodes : args.encodeRecovery.isSome = true) (henabled : args.enabledRecovery.isSome = true) :
    savedRecord env args a w call ≠ .ok none := by
  have hrecovery : args.recovery.isSome = true := by
    unfold Arguments.enabledRecovery at henabled
    cases hr : args.recovery with
    | none =>
      rw [hr] at henabled
      cases henabled
    | some _ => rfl
  intro h
  unfold savedRecord at h
  rw [if_neg (by simp [Option.isNone_iff_eq_none, Option.isSome_iff_ne_none.mp hrecovery,
    Option.isSome_iff_ne_none.mp hencodes])] at h
  cases hexec : savedExecution env args a w call.nextIndex call.dispatched with
  | error exc =>
    rw [hexec] at h
    cases h
  | ok e =>
    rw [hexec] at h
    change (if _ then _ else if _ then _ else _) = _ at h
    split_ifs at h with hskip hnone
    · simp [hcheck] at hskip
    · simp [Option.isNone_iff_eq_none, Option.isSome_iff_ne_none.mp henabled] at hnone
    · cases h

/-- A save covers what was granted by what the world owes. -/
theorem covered_saved (hsteps : CoveredRun args s w) (hopen : Covered s w.events)
    (hcovered : granted w.events + owed s ≤ released w.events + w.liability)
    (h : savedRecord env args a w call = .ok (some r)) :
    Covered s (w.saved r true).events ∧ CoveredRun args s (w.saved r true) ∧
      CoveredRun args s (w.saved r false) := by
  have hliability := saveRecord_liability h
  have hnow : Covered s (w.events ++ [.save r true]) := by
    unfold Covered
    rw [left_append, left_singleton]
    simp only [granted_append, released_append, granted_singleton, released_singleton,
      lastCompleted, owed, Option.map_some, Option.getD_some, hliability]
    simpa [Event.grants, Event.releases, owed] using hcovered
  have hquiet := covered_quiet (n := args.budgets.maxTotalOutputBytes) hopen
    (e := .save r false) rfl rfl
  exact ⟨hnow, hsteps.snoc ⟨hnow, fun hne => absurd rfl hne⟩, hsteps.snoc hquiet⟩

theorem settled_saves (h : Settled args s w) :
    Saves env args a (Settled args s) (CoveredRun args s) call w := by
  unfold Saves
  cases hrecord : savedRecord env args a w call with
  | error exc => exact h.steps
  | ok saved =>
    cases saved with
    | none => exact h
    | some r =>
      obtain ⟨hnow, hsteps, hcut⟩ := covered_saved h.steps h.open_ h.covered hrecord
      refine ⟨⟨hsteps, hnow, h.none_, ?_⟩, hcut⟩
      have hcovered := h.covered
      simpa [World.saved, Event.grants, Event.releases, World.liability] using hcovered

/-- What a diagnostic process is started with. -/
structure Diagnostic (args : Arguments T J) : Prop where
  noCheckpoint : args.checkpoint = none
  encodes : args.encodeRecovery.isSome = true
  enabled : args.enabledRecovery.isSome = true

theorem liability_callRule (hd : Diagnostic args) (index : Nat) (b : WorkBatch)
    (request : ProviderRequest) :
    CallRule env args.budgets (callHooks env args a index b) request args.correction b
      (Settled args s) (Reserving args s) (Exposed args s) (CoveredRun args s) := by
  refine {
    idleStable := fun w c hw => ⟨hw.steps, hw.open_, hw.none_, hw.covered⟩
    armedStable := fun n w c hw =>
      ⟨hw.steps, hw.reserved, hw.covered, hw.saved, hw.within, hw.positive⟩
    calledStable := fun n w c hw => ⟨hw.steps, hw.open_, hw.reserved, hw.covered⟩
    retries := fun w m n hw => ⟨hw.steps, hw.open_, hw.none_, hw.covered⟩
    arm := ?_
    call := ?_
    withhold := ?_
    lose := ?_
    settle := ?_
    account := ?_
    raised := fun w hw => hw.steps
    cutOff := fun n w hw => hw.steps }
  · intro r limit timeout p calls _
    refine Spec.bind (Spec.modify _ (Q := fun w' => ∃ w, Settled args s w ∧
      w'.events = w.events ∧ w'.tracker.responseBytes = w.tracker.responseBytes ∧
      w'.accounting = { w.accounting with inflightResponseBytes := limit } ∧
      limit = outputLimit args.budgets w r ∧ 0 < limit) ?_) fun _ => ?_
    · rintro w' ⟨w, hw, rfl, hlimit, hpos⟩
      exact ⟨w, hw, rfl, rfl, rfl, hlimit, hpos⟩
    refine saveState_spec env args a ?_
    rintro w' ⟨w, hw, hevents, hbytes, haccounting, hlimit, hpos⟩
    have hwithin : limit ≤ args.budgets.maxTotalOutputBytes - w.tracker.responseBytes -
        w.accounting.unknownResponseBytes := by
      rw [hlimit, outputLimit]
      exact min_le_right _ _
    have hliability : w'.liability = w.liability + limit := by
      have hnone := hw.none_
      simp only [World.liability, hbytes, haccounting]
      omega
    have hcovered := hw.covered
    have hnone := hw.none_
    have htotal : w'.liability ≤ args.budgets.maxTotalOutputBytes := by
      rw [hliability]
      simp only [World.liability]
      omega
    have hsteps : CoveredRun args s w' := by
      unfold CoveredRun
      rw [hevents]
      exact hw.steps
    have hnow : granted w'.events + owed s + limit ≤ released w'.events + w'.liability := by
      rw [hevents, hliability]
      omega
    unfold Saves
    cases hrecord : savedRecord env args a w' _ with
    | error exc => exact hsteps
    | ok saved =>
      cases saved with
      | none => exact absurd hrecord (savedRecord_some hd.noCheckpoint hd.encodes hd.enabled)
      | some record =>
        obtain ⟨-, hrun, hcut⟩ := covered_saved hsteps (by rw [hevents]; exact hw.open_)
          (by omega) hrecord
        refine ⟨⟨hrun, by simp [World.saved, haccounting], ?_, ?_, htotal, hpos⟩, hcut⟩
        · simpa [World.saved, Event.grants, Event.releases, World.liability] using hnow
        · simp [World.saved, lastCompleted, owed, saveRecord_liability hrecord, World.liability]
  · intro w r limit timeout hw
    have hcovered := hw.covered
    have hsaved := hw.saved
    have hstep : CoveredStep args.budgets.maxTotalOutputBytes s w.events
        (.called b (bounded r limit timeout)) := by
      have hw' := hw.within
      constructor
      · unfold Covered
        rw [left_append, left_singleton, lastCompleted_quiet rfl]
        simp only [granted_append, released_append, granted_singleton, released_singleton,
          Event.grants, Event.releases, bounded]
        omega
      · intro _
        simp only [granted_append, released_append, granted_singleton, released_singleton,
          Event.grants, Event.releases, bounded]
        omega
    refine ⟨hw.steps.snoc hstep, hstep.covered, hw.reserved, ?_⟩
    simp only [granted_append, released_append, granted_singleton, released_singleton,
      Event.grants, Event.releases, bounded, World.liability] at hcovered ⊢
    omega
  · intro n w hw
    have hcovered := hw.covered
    have hsaved := hw.saved
    refine ⟨hw.steps, ?_, rfl, ?_⟩
    · change granted w.events + owed s ≤ released w.events + owed (left lastCompleted s w.events)
      omega
    · simp only [World.liability, World.uncertain, OutputAccounting.uncertain] at hcovered ⊢
      omega
  · intro n w hw
    have hcovered := hw.covered
    refine ⟨hw.steps, hw.open_, rfl, ?_⟩
    simp only [World.liability, World.uncertain, OutputAccounting.uncertain] at hcovered ⊢
    omega
  · intro n w sent text hsent hw
    have hcovered := hw.covered
    have hreserved := hw.reserved
    have hstep := covered_quiet (n := args.budgets.maxTotalOutputBytes) hw.open_
      (e := .answered sent text) rfl rfl
    refine ⟨hw.steps.snoc hstep, hstep.covered, rfl, ?_⟩
    simp only [World.liability, World.settle, Tracker.recordResponse, granted_append,
      released_append, granted_singleton, released_singleton, Event.grants, Event.releases]
      at hcovered ⊢
    omega
  · unfold CallHooks.account callHooks
    simp only [hd.noCheckpoint, Option.isSome_none, Bool.false_eq_true, if_false]
    exact Spec.pure _ fun w hw => hw

theorem liability_batchRule (hd : Diagnostic args) (index : Nat) (b : WorkBatch) :
    BatchRule env args a index b (Settled args s) (Settled args s) (Settled args s)
      (CoveredRun args s) where
  stable := fun _ _ hw => ⟨hw.steps, hw.open_, hw.none_, hw.covered⟩
  raised := fun _ hw => hw.steps
  postponed := fun _ _ _ hw => settled_saves ⟨hw.steps, hw.open_, hw.none_, hw.covered⟩
  replayed := fun _ _ _ hw => settled_saves ⟨hw.steps, hw.open_, hw.none_, hw.covered⟩
  refused := fun _ item _ hw =>
    have h := settled_quiet hw (e := .refused item) rfl rfl
    ⟨h.steps, h.open_, h.none_, h.covered⟩
  dispatched := fun request digest _ => ⟨_, _, _, {
      call := liability_callRule hd index b request
      accepted := fun _ _ hw => settled_saves ⟨hw.steps, hw.open_, hw.none_, hw.covered⟩
      refused := fun _ value hw =>
        have h := settled_quiet hw (e := .refused ⟨b, value, digest⟩) rfl rfl
        ⟨h.steps, h.open_, h.none_, h.covered⟩
      failed := fun _ _ hw _ => settled_saves ⟨hw.steps, hw.open_, hw.none_, hw.covered⟩ },
    fun _ _ hw => ⟨hw.steps, hw.open_, hw.none_, hw.covered⟩,
    fun item _ _ _ hw =>
      have h := settled_quiet hw (e := .notRevalidated item) rfl rfl
      ⟨h.steps, h.open_, h.none_, h.covered⟩⟩

theorem liability_planRule (hd : Diagnostic args) :
    PlanRule env args a (fun _ => Settled args s) (Settled args s) (Settled args s)
      (CoveredRun args s) where
  admission := fun _ hw => settled_saves hw
  batch := fun index b _ _ => liability_batchRule hd index b
  finish := fun _ hw => settled_saves (hw.elim id id)
  raised := fun _ hw => hw.steps
  returned := fun _ hw => hw.steps

end Save
end ReviewSensei.Execution
