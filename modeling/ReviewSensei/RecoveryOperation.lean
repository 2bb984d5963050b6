import ReviewSensei.OutputLiability

/-! A diagnostic operation: processes that execute one plan over a `WorkRecoveryStore`, each
restarted from the last completed save. -/
namespace ReviewSensei.Execution
open ReviewSensei.Effects ReviewSensei.Restart

variable {T J : Type} [DecidableEq T]

/-- One process of a diagnostic operation. Its callbacks, clocks and provider answer in any way;
it reads the artifact of the last completed save. -/
structure RecoveryProcess (evidenceDigest : DigestDocument → String) (encode : T → J)
    (plan : ReviewWorkPlan) (budgets : EffectiveWorkBudget) (s : Option (SaveRecord T)) where
  env : Environment
  args : Arguments T J
  tracker : Tracker
  store : WorkRecoveryStore J
  savedAt : Nat
  expiresAt : Nat
  elapsedMs : Nat
  now : Nat
  tick : Nat
  digests : env.evidenceDigest = evidenceDigest
  executes : args.plan = plan
  within : args.budgets = budgets
  startsFresh : args.prior = none
  encodes : args.encodeRecovery = some encode
  noCheckpoint : args.checkpoint = none
  reads : args.recovery = some {
    toStoreReader := store.reader evidenceDigest
      (s.map (recoveryArtifact evidenceDigest encode savedAt expiresAt elapsedMs)) now tick
    enabled := true }

/-- A save that a restart forgets nothing of. -/
def NothingOutstanding (s : Option (SaveRecord T)) : Prop :=
  ∀ r, s = some r → r.execution.responseBytesReserved = 0

section
variable {evidenceDigest : DigestDocument → String} {encode : T → J} {plan : ReviewWorkPlan}
  {budgets : EffectiveWorkBudget} {s : Option (SaveRecord T)}

def RecoveryProcess.result (p : RecoveryProcess evidenceDigest encode plan budgets s) :
    Except Exc (WorkExecution T) × World T :=
  runProcess p.env p.args p.tracker

variable (evidenceDigest encode plan budgets) in
/-- The traces of the processes of an operation. -/
def RecoveryTrace (s : Option (SaveRecord T)) (events : List (Event T)) : Prop :=
  ∃ p : RecoveryProcess evidenceDigest encode plan budgets s, p.result.2.events = events

/-- What the store of a process may give back: nothing where nothing was saved, else an aggregate
without a reservation, over at least the known bytes. -/
def ArtifactLoads (s : Option (SaveRecord T)) (x : Loaded T) (t : Tracker) : Prop :=
  match s with
  | none => x = none
  | some r => ∃ e digests, x = some (e, digests) ∧ e.responseBytesReserved = 0 ∧
      r.tracker.responseBytes ≤ t.responseBytes

omit [DecidableEq T] in
theorem load_artifactLoads {store : WorkRecoveryStore J}
    {savedAt expiresAt elapsedMs now tick : Nat} {decode : Decoder T J}
    {digests : Option RequestDigests} {t t' : Tracker} {x : Loaded T}
    (h : (store.load evidenceDigest
      (s.map (recoveryArtifact evidenceDigest encode savedAt expiresAt elapsedMs)) now tick plan
      budgets decode digests).run t = (.ok x, t')) : ArtifactLoads s x t' := by
  cases s with
  | none =>
    cases h
    rfl
  | some r =>
    obtain ⟨e, rfl, hreserved, hbytes⟩ := load_artifact_eq h
    exact ⟨e, _, rfl, hreserved, hbytes ▸ le_max_right _ _⟩

/-- Started on a save without outstanding bytes, a process stays covered. -/
theorem RecoveryProcess.steps (p : RecoveryProcess evidenceDigest encode plan budgets s)
    (hs : NothingOutstanding s) :
    EachStep (CoveredStep budgets.maxTotalOutputBytes s) p.result.2.events := by
  obtain ⟨env, args, tracker, store, savedAt, expiresAt, elapsedMs, now, tick, rfl, rfl, rfl,
    hprior, hencodes, hcheck, hreads⟩ := p
  have henabled : args.enabledRecovery = some {
      toStoreReader := store.reader env.evidenceDigest
        (s.map (recoveryArtifact env.evidenceDigest encode savedAt expiresAt elapsedMs)) now tick
      enabled := true } := by
    rw [Arguments.enabledRecovery, hreads]
    rfl
  have hd : Diagnostic args := ⟨hcheck, by rw [hencodes]; rfl, by rw [henabled]; rfl⟩
  have hstores : StoresReadIn args tracker (ArtifactLoads s) := by
    refine ⟨fun c hc => ?_, fun r _ hr => ?_, fun _ hnone => ?_⟩
    · cases hc.symm.trans hcheck
    · cases hr.symm.trans henabled
      refine ⟨?_, fun _ _ _ _ hnone => nomatch hnone⟩
      intro f decode x t hf _ hrun
      cases hf
      exact load_artifactLoads hrun
    · cases hnone.symm.trans henabled
  have hspec : Spec (Fresh tracker) (executePlan env args) (fun _ => CoveredRun args s)
      (CoveredRun args s) := by
    refine executePlan_spec hstores (fun w hw => ?_) fun x t a hS ha => ?_
    · unfold CoveredRun
      rw [hw]
      exact EachStep.nil
    · refine ⟨_, _, _, liability_planRule hd, ?_⟩
      rintro w ⟨c, admission, rfl⟩
      refine ⟨EachStep.nil, le_rfl, rfl, ?_⟩
      cases s with
      | none => simp [owed]
      | some r =>
        obtain ⟨e, digests, rfl, hreserved, hbytes⟩ := hS
        have hzero := hs r rfl
        have hsome : a.prior = some e := by rw [ha.prior]; rfl
        simp only [granted_nil, released_nil, owed, Option.map_some, Option.getD_some,
          SaveRecord.liability, World.liability, hsome]
        omega
  have hrun := hspec { tracker := tracker } ⟨{}, rfl⟩
  unfold RecoveryProcess.result runProcess
  dsimp only
  generalize (executePlan env args).run { tracker := tracker } = result at hrun ⊢
  obtain ⟨x, w⟩ := result
  cases x with
  | ok e => exact hrun
  | error exc => exact hrun

/-- What the events of a log were granted and have released. -/
def logGranted (log : List (Option (Event T))) : Nat := granted (log.filterMap id)

def logReleased (log : List (Option (Event T))) : Nat := released (log.filterMap id)

omit [DecidableEq T] in
theorem log_append (log : List (Option (Event T))) (seen : List (Event T)) :
    logGranted (log ++ none :: seen.map some) = logGranted log + granted seen ∧
      logReleased (log ++ none :: seen.map some) = logReleased log + released seen := by
  simp [logGranted, logReleased, List.filterMap_append]

omit [DecidableEq T] in
/-- The events of one process keep the total, whatever was granted before it. -/
theorem total_within {total g f : Nat} {seen rest : List (Event T)}
    (hsteps : EachStep (CoveredStep total s) (seen ++ rest)) (howed : g ≤ f + owed s)
    (htotal : g ≤ f + total) : g + granted seen ≤ f + released seen + total := by
  induction seen using List.reverseRecOn generalizing rest with
  | nil => simpa using htotal
  | append_singleton seen e ih =>
    rw [List.append_assoc] at hsteps
    have hbefore := ih hsteps
    have hstep := hsteps seen e rest rfl
    by_cases hg : e.grants = 0
    · simp only [granted_append, released_append, granted_singleton, released_singleton, hg]
      omega
    · have hwithin := hstep.within hg
      omega

/-- While every restart starts from a save without outstanding bytes, the limits granted by all
processes stay within the total, but for what shorter answers released. -/
theorem granted_within_total {log : List (Option (Event T))} {rest : List (Event T)}
    (h : Runs (fun s es => RecoveryTrace evidenceDigest encode plan budgets s es ∧
      NothingOutstanding s) lastCompleted none log rest) :
    logGranted log ≤ logReleased log + owed (durable lastCompleted none log) ∧
      logGranted log ≤ logReleased log + budgets.maxTotalOutputBytes := by
  refine Runs.carries (P := fun log =>
    logGranted log ≤ logReleased log + owed (durable lastCompleted none log) ∧
      logGranted log ≤ logReleased log + budgets.maxTotalOutputBytes) ?_ ?_ ?_ h
  · simp [logGranted, logReleased]
  · intro log hlog
    obtain ⟨hg, hr⟩ := log_append log []
    simp only [List.map_nil, granted_nil, released_nil, Nat.add_zero] at hg hr
    rw [hg, hr, durable_restart]
    exact hlog
  · rintro log seen e rest ⟨howed, htotal⟩ ⟨⟨p, hp⟩, hs⟩
    have hsteps := p.steps hs
    rw [hp] at hsteps
    obtain ⟨hg, hr⟩ := log_append log (seen ++ [e])
    have hcovered : Covered _ (seen ++ [e]) := (hsteps seen e rest rfl).covered
    have hassoc : seen ++ e :: rest = (seen ++ [e]) ++ rest := by simp
    have hshown := hsteps
    rw [hassoc] at hshown
    have hwithin := total_within hshown howed htotal
    unfold Covered at hcovered
    rw [hg, hr, durable_process]
    omega

end

/-! Two processes over the small plan, whose provider fails every call. The first is stopped once
the failure of its first batch is saved; the second is granted as much again. -/

def failingEnvironment : Environment :=
  { sampleEnvironment with complete := fun _ _ => .failed }

def failingProcess (s : Option (SaveRecord String)) :
    RecoveryProcess sampleDigest id samplePlan sampleBudget s where
  env := failingEnvironment
  args := { sampleArguments with
    recovery := some {
      toStoreReader := ({} : WorkRecoveryStore String).reader sampleDigest
        (s.map (recoveryArtifact sampleDigest id 0 21600000000 0)) 0 0
      enabled := true } }
  tracker := sampleTracker
  store := {}
  savedAt := 0
  expiresAt := 21600000000
  elapsedMs := 0
  now := 0
  tick := 0
  digests := rfl
  executes := rfl
  within := rfl
  startsFresh := rfl
  encodes := rfl
  noCheckpoint := rfl
  reads := rfl

def firstEvents : List (Event String) := (failingProcess none).result.2.events

def savedByFirst : Option (SaveRecord String) := left lastCompleted none (firstEvents.take 3)

def secondEvents : List (Event String) := (failingProcess savedByFirst).result.2.events

/-- The first process up to its stop. -/
def stoppedLog : List (Option (Event String)) := none :: (firstEvents.take 3).map some

/-- Both processes. -/
def failingLog : List (Option (Event String)) := stoppedLog ++ none :: secondEvents.map some

theorem stoppedLog_runs {proc : Option (SaveRecord String) → List (Event String) → Prop}
    (h : proc none firstEvents) : Runs proc lastCompleted none stoppedLog (firstEvents.drop 3) := by
  have hstart : Runs proc lastCompleted none [none] (firstEvents.take 3 ++ firstEvents.drop 3) := by
    rw [List.take_append_drop]
    simpa using Runs.restart .idle h
  simpa [stoppedLog] using hstart.shows

theorem firstEvents_trace :
    RecoveryTrace sampleDigest id samplePlan sampleBudget none firstEvents :=
  ⟨failingProcess none, rfl⟩

theorem failingLog_runs : Runs (RecoveryTrace sampleDigest id samplePlan sampleBudget)
    lastCompleted none failingLog [] := by
  have hsaved : durable lastCompleted none stoppedLog = savedByFirst :=
    durable_process [] (firstEvents.take 3)
  have h := Runs.restart (stoppedLog_runs firstEvents_trace)
    (show RecoveryTrace sampleDigest id samplePlan sampleBudget _ secondEvents from
      hsaved ▸ ⟨failingProcess savedByFirst, rfl⟩)
  have hwhole := h.showsAll
  rwa [List.append_assoc] at hwhole

/-- The load of the stopped process's artifact, on a fresh tracker. -/
def firstLoad (r : SaveRecord String) :
    Except Exc (Option (WorkExecution String × RequestDigests)) × Tracker :=
  (({} : WorkRecoveryStore String).load sampleDigest
    (some (recoveryArtifact sampleDigest id 0 21600000000 0 r)) 0 0 samplePlan sampleBudget
    (fun text _ => .ok text) none).run sampleTracker

theorem firstLoad_ok : ∃ r e stored t', savedByFirst = some r ∧
    firstLoad r = (.ok (some (e, stored)), t') ∧ r.execution.responseBytesReserved = 100 ∧
    r.liability = 100 ∧ t'.responseBytes + e.responseBytesReserved = 0 := by
  have hloads : savedByFirst.map (fun r => (r.execution.responseBytesReserved, r.liability,
      (firstLoad r).1.toOption.join.map fun saved =>
        (firstLoad r).2.responseBytes + saved.1.responseBytesReserved)) =
      some (100, 100, some 0) := by decide
  obtain ⟨r, hr, hpair⟩ := Option.map_eq_some_iff.mp hloads
  obtain ⟨hreserved, hrest⟩ := Prod.mk.inj hpair
  obtain ⟨hliability, hload⟩ := Prod.mk.inj hrest
  obtain ⟨saved, hsaved, hbytes⟩ := Option.map_eq_some_iff.mp hload
  have hok : (firstLoad r).1 = .ok (some saved) := by
    cases hcase : (firstLoad r).1 with
    | error e =>
      rw [hcase] at hsaved
      cases hsaved
    | ok x =>
      rw [hcase] at hsaved
      exact congrArg Except.ok (Option.join_eq_some_iff.mp hsaved |> Option.some.inj)
  exact ⟨r, saved.1, saved.2, (firstLoad r).2, hr, Prod.ext hok rfl, hreserved, hliability, hbytes⟩

end ReviewSensei.Execution
