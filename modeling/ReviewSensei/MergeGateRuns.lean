import ReviewSensei.MergeGateSteps

/-! The check of a published review over every path that completes it. -/
namespace ReviewSensei.Gate
open Review (ReviewComment ReviewVerdict ResultRules ReviewResult construct_ok check_ok)
open Approval (FactFields ApprovalFacts ResultRest resultRules hasBlockingFindings
  ReviewApprovalEligibility evaluateApprovalFacts AutoApprovalDecision)
open Human (PendingHumanReview)
open Disposition (TextRules FindingDisposition)
open Session (isGitSha bind_ok)
open Finalize

variable {rules : Human.Rules} {others : ResultRules (ResultRest rules.unicode)}

section Scene

/-- A published review: a result with the record that was persisted beside it. -/
structure Published (rules : Human.Rules) (others : ResultRules (ResultRest rules.unicode)) where
  result : ReviewResult (resultRules others)
  bodyPlaced : ReviewComment → Bool
  record : ReviewApprovalEligibility rules
  restated : ReviewResult (resultRules others)
  fresh : Bool
  document : Json
  /-- The result as the check of its publication was mapped from it. -/
  restated_ok : restate result record.facts.reviewStatus = .ok restated
  digest : record.resultDigest = result.rest.publicationDigest
  written : record.toDict = .ok document
  agrees : Agrees record fresh

/-- A published review with the policy, the dispositions and the threads of its head. -/
structure Scene (rules : Human.Rules) (others : ResultRules (ResultRest rules.unicode)) extends
    Published rules others where
  text : TextRules
  policy : Policy
  enforced : policy ≠ .advisory
  restart : Bool
  repository : String
  place : Place
  head : place.headSha = record.headSha
  command : Command
  threads : List Thread

namespace Scene
variable (s : Scene rules others)

def entries : List IndexedFinding := indexEntries rules s.result s.bodyPlaced

def index : FindingIndex := ⟨s.record.resultDigest, s.place.baseSha, s.entries⟩

/-- The fingerprints that the dispositions honor on the head. -/
def active : List String :=
  activeFingerprints s.text s.command.now s.command.dispositions s.record.headSha

/-- A disposition accepts the coverage of the head as it is. -/
def accepted : Bool :=
  coverageAccepted s.text s.command.now s.command.dispositions s.record.headSha
    s.record.resultDigest s.command.incompleteCoverage s.command.policyDigest

/-- The facts of a fresh publication: every blocking comment counts, not those in the body only. -/
def freshFacts : FactFields :=
  { s.record.facts.toFactFields with
    hasBlockingFindings :=
      hasBlockingFindings rules s.result.comments || s.record.facts.hasBlockingFindings }

end Scene

/-- One run of a path, with what the host answers it. -/
inductive Run
  | fresh
  | replay
  | override (reads : OverrideReads)
  | recorded (reads : RecordedReads)

/-- The index that a path reads is the published one, or none. -/
def Reports (index : FindingIndex) (read : Except String (Option FindingIndex)) : Prop :=
  ∀ found, read = .ok (some found) → found = index

/-- The host answers from the scene; it may refuse any answer, and the pull request may move. -/
def Run.Of (s : Scene rules others) : Run → Prop
  | .fresh => True
  | .replay => True
  | .override reads => Report reads.readers s.record s.fresh ∧ Reports s.index reads.index
  | .recorded reads =>
    Report reads.readers s.record s.fresh ∧ Report reads.finalization.readers s.record s.fresh ∧
      Reports s.index reads.index ∧ reads.obligations = reads.index ∧
      reads.finalization.index = reads.index ∧ reads.finalization.beforeApproval = none ∧
      (∀ threads, reads.threads = .ok threads → threads = s.threads) ∧
      (∀ threads, reads.finalization.threads = .ok threads → threads = s.threads) ∧
      ∀ preflight, reads.finalization.preflight = .ok (.live preflight) →
        preflight.repositoryId = s.place.repositoryId

/-- The check that a run completes, where it completes one. -/
def Scene.outcome (s : Scene rules others) : Run → Option CheckOutcome
  | .fresh => some (publishedOutcome s.restated s.freshFacts s.policy
      s.record.carriedAssessmentPending s.restart)
  | .replay => (replayOutcome s.result s.record s.policy s.restart).toOption.join
  | .override reads =>
    (overrideOutcome s.text s.command reads s.record s.record.headSha s.policy
      s.restart).toOption.join
  | .recorded reads =>
    (recordedOutcome reads s.record s.repository s.place.pullRequest s.record.headSha s.policy
      s.restart).toOption.join

/-- The finding has a resolved thread of the App on this head. -/
def Scene.ThreadResolved (s : Scene rules others) (identity : String) : Prop :=
  ∃ t ∈ s.threads, t.isResolved = some true ∧ ∃ root ∈ t.root, root.ofApp = some true ∧
    root.identity = some identity ∧ ∃ scope ∈ root.scope, scope.toPlace = s.place

/-- No verdict records an obligation that was not selected. -/
def cleanVerdict (verdict : Option ReviewVerdict) : Prop :=
  verdict.any (·.unselectedBlockingDefect) = false ∧ verdict.any (·.unselectedHumanDecision) = false

/-- Everything that a passing check promises. -/
structure Scene.Sound (s : Scene rules others) : Prop where
  coverage : s.record.facts.reviewStatus = .complete ∨
    (s.record.facts.reviewStatus = .partialReview ∧ s.accepted = true)
  findings : ∀ e ∈ s.entries, e.blocking = true →
    entryHonored s.active e = true ∨ (e.bodyPlaced = false ∧ s.ThreadResolved e.identity)
  decisions : ¬ Undecided s.record s.entries s.active
  verdict : cleanVerdict s.record.facts.reviewVerdict

/-- Every passing check keeps its promise, and no two runs disagree on passing. -/
structure Scene.Safe (s : Scene rules others) : Prop where
  sound : ∀ run, Run.Of s run → ∀ o, s.outcome run = some o → o.conclusion = .success → s.Sound
  agree : ∀ run run', Run.Of s run → Run.Of s run' → ∀ o o', s.outcome run = some o →
    s.outcome run' = some o' → (o.conclusion = .success ↔ o'.conclusion = .success)

end Scene

section Condition

/-- A finalization of the record gets as far as the threads of some base, and finds one open. -/
def Scene.OpenThread (s : Scene rules others) : Prop :=
  s.policy = .autoApprove ∧ isGitSha s.record.headSha = true ∧
    (evaluateApprovalFacts (staticFacts s.record []) false).approved = true ∧
    ¬ providerUnverified (some fun _ => none) s.record ∧
    (s.record.partitionedRoot.isSome = true → s.record.facts.qualification = .qualified ∧
      s.record.humanReview.all (fun inventory => !inventory.pending.isEmpty) = false) ∧
    ∃ place : Place, place.repositoryId = s.place.repositoryId ∧
      place.pullRequest = s.place.pullRequest ∧ place.headSha = s.record.headSha ∧
      (∀ inventory ∈ s.record.humanReview, inventory.baseSha = place.baseSha) ∧
      ∃ resolved, blockingRootFacts place [] s.threads = .ok ⟨true, resolved⟩

/-- Nothing is asked for at all. -/
structure Scene.Clear (s : Scene rules others) : Prop where
  complete : s.record.facts.reviewStatus = .complete
  comments : hasBlockingFindings rules s.result.comments = false
  recorded : s.record.facts.hasBlockingFindings = false
  decisions : s.record.facts.hasHumanAdjudicationFindings = false
  result_verdict : cleanVerdict s.result.reviewVerdict
  record_verdict : cleanVerdict s.record.facts.reviewVerdict
  threads : ¬ s.OpenThread

/-- Each path after the first publication meets a reason that it looks at itself. -/
structure Scene.Withheld (s : Scene rules others) : Prop where
  replay : s.record.facts.reviewStatus ≠ .complete ∨ s.record.facts.hasBlockingFindings = true ∨
    s.record.facts.hasHumanAdjudicationFindings = true ∨ ¬ cleanVerdict s.result.reviewVerdict
  override : s.record.partitionedRoot.isSome = true ∨
    (s.record.facts.reviewStatus ≠ .complete ∧
      ¬ (s.record.facts.reviewStatus = .partialReview ∧ s.accepted = true)) ∨
    bodyBlocker s.entries s.active = true ∨ Undecided s.record s.entries s.active ∨
    ¬ cleanVerdict s.record.facts.reviewVerdict
  recorded : s.record.facts.reviewStatus ≠ .complete ∨ s.record.facts.hasBlockingFindings = true ∨
    s.record.facts.hasHumanAdjudicationFindings = true ∨
    ¬ cleanVerdict s.record.facts.reviewVerdict

end Condition

section Passing
variable {s : Scene rules others}

theorem carried_of_fact (h : s.record.facts.hasHumanAdjudicationFindings = false) :
    s.record.carriedAssessmentPending = false := by
  have hfact := s.agrees.fact
  rw [h] at hfact
  exact (Bool.or_eq_false_iff.mp hfact.symm).2

/-- A published check passes where the facts, the result's own verdict and the carried views let
it. -/
theorem published_success (facts : FactFields)
    (hstatus : facts.reviewStatus = s.record.facts.reviewStatus) :
    (publishedOutcome s.restated facts s.policy s.record.carriedAssessmentPending
        s.restart).conclusion = .success ↔
      s.restart = false ∧ s.record.carriedAssessmentPending = false ∧
        facts.reviewStatus = .complete ∧ facts.hasBlockingFindings = false ∧
        facts.hasHumanAdjudicationFindings = false ∧ cleanVerdict s.result.reviewVerdict := by
  obtain ⟨_, _, _, hverdict, hrest⟩ := check_ok (construct_ok s.restated_ok)
  unfold publishedOutcome
  rw [completed_success, awaitCarried_success, checkOutcomeForResult_conclusion,
    reviewCheckOutcome_success s.enforced]
  have hstatus' : s.restated.rest.reviewStatus = facts.reviewStatus := by
    rw [hrest, hstatus]
  have hverdict' : s.restated.reviewVerdict = s.result.reviewVerdict := hverdict
  rw [hstatus', hverdict']
  constructor
  · rintro ⟨hrestart, hcarried, hsatisfied⟩
    have hcomplete : facts.reviewStatus = .complete := by
      have hcoverage := hsatisfied.coverage
      unfold Obligations.effectiveComplete at hcoverage
      simpa using hcoverage
    exact ⟨hrestart, hcarried, hcomplete, hsatisfied.fixes, hsatisfied.decisions,
      hsatisfied.verdict_fixes, hsatisfied.verdict_decisions⟩
  · rintro ⟨hrestart, hcarried, hcomplete, hfixes, hdecisions, hclean⟩
    refine ⟨hrestart, hcarried, ?_, hfixes, hdecisions, hclean.1, hclean.2⟩
    unfold Obligations.effectiveComplete
    simp [hcomplete]

theorem replay_outcome : s.outcome .replay = some (publishedOutcome s.restated
    s.record.facts.toFactFields s.policy s.record.carriedAssessmentPending s.restart) := by
  have hreplay : replayOutcome s.result s.record s.policy s.restart =
      .ok (some (publishedOutcome s.restated s.record.facts.toFactFields s.policy
        s.record.carriedAssessmentPending s.restart)) := by
    unfold replayOutcome
    rw [if_neg (not_not.mpr s.digest)]
    exact (ok_bind s.restated_ok _).trans rfl
  unfold Scene.outcome
  dsimp only
  rw [hreplay]
  rfl

theorem replay_success {o : CheckOutcome} (h : s.outcome .replay = some o) :
    o.conclusion = .success ↔ s.restart = false ∧
      s.record.facts.reviewStatus = .complete ∧ s.record.facts.hasBlockingFindings = false ∧
      s.record.facts.hasHumanAdjudicationFindings = false ∧
      cleanVerdict s.result.reviewVerdict := by
  rw [replay_outcome] at h
  rw [← Option.some.inj h, published_success _ rfl]
  constructor
  · rintro ⟨hrestart, _, hrest⟩
    exact ⟨hrestart, hrest⟩
  · rintro ⟨hrestart, hcomplete, hfixes, hdecisions, hclean⟩
    exact ⟨hrestart, carried_of_fact hdecisions, hcomplete, hfixes, hdecisions, hclean⟩

theorem fresh_success {o : CheckOutcome} (h : s.outcome .fresh = some o) :
    o.conclusion = .success ↔ s.restart = false ∧
      s.record.facts.reviewStatus = .complete ∧
      hasBlockingFindings rules s.result.comments = false ∧
      s.record.facts.hasBlockingFindings = false ∧
      s.record.facts.hasHumanAdjudicationFindings = false ∧
      cleanVerdict s.result.reviewVerdict := by
  unfold Scene.outcome at h
  dsimp only at h
  rw [← Option.some.inj h, published_success s.freshFacts rfl]
  unfold Scene.freshFacts
  dsimp only
  rw [Bool.or_eq_false_iff]
  constructor
  · rintro ⟨hrestart, _, hcomplete, ⟨hcomments, hfixes⟩, hrest⟩
    exact ⟨hrestart, hcomplete, hcomments, hfixes, hrest⟩
  · rintro ⟨hrestart, hcomplete, hcomments, hfixes, hdecisions, hclean⟩
    exact ⟨hrestart, carried_of_fact hdecisions, hcomplete, ⟨hcomments, hfixes⟩, hdecisions, hclean⟩

/-- The obligations that an override leaves. -/
def overrideObligations (s : Scene rules others) (adjusted : ReviewApprovalEligibility rules) :
    Obligations where
  reviewStatus := adjusted.facts.reviewStatus
  requiredFixes := adjusted.facts.hasBlockingFindings
  requiredDecisions := adjusted.facts.hasHumanAdjudicationFindings
  coverageUncertaintyAccepted := s.accepted
  reviewVerdict := adjusted.facts.reviewVerdict

/-- An override that completes the check has adjusted the record by the published index. -/
theorem override_outcome {reads : OverrideReads} (hof : Run.Of s (.override reads))
    {o : CheckOutcome} (h : s.outcome (.override reads) = some o) :
    s.record.partitionedRoot.isSome = false ∧ ∃ adjusted,
      overrideRecord reads.readers s.record s.entries s.active = .ok adjusted ∧
      o = completed s.restart (reviewCheckOutcome s.policy (overrideObligations s adjusted)) := by
  have hrun := join_some h
  unfold overrideOutcome at hrun
  obtain ⟨_, _, hrun⟩ := flow_ok hrun
  obtain ⟨_, _, hrun⟩ := flow_ok hrun
  obtain ⟨_, _, hrun⟩ := flow_ok hrun
  obtain ⟨_, hroot, hrun⟩ := flow_ok hrun
  obtain ⟨index, hindex, hrun⟩ := flow_ok hrun
  obtain ⟨adjusted, hadjusted, hrun⟩ := flow_ok hrun
  obtain ⟨_, _, hrun⟩ := flow_ok hrun
  obtain ⟨_, _, hrun⟩ := flow_ok hrun
  obtain ⟨_, _, hrun⟩ := flow_ok hrun
  obtain ⟨_, _, hrun⟩ := flow_ok hrun
  obtain ⟨_, _, hrun⟩ := flow_ok hrun
  obtain ⟨_, _, hrun⟩ := flow_ok hrun
  obtain ⟨_, _, hrun⟩ := flow_ok hrun
  obtain ⟨_, _, hlast⟩ := flow_ok hrun
  have hpublished : index = s.index := by
    unfold overrideIndex at hindex
    cases hread : reads.index with
    | error m =>
      rw [hread] at hindex
      cases hindex
    | ok found =>
      cases found with
      | none =>
        rw [hread] at hindex
        cases hindex
      | some published =>
        rw [hread] at hindex
        obtain ⟨_, _, hsame⟩ := flow_ok hindex
        rw [← Except.ok.inj hsame]
        exact hof.2 published hread
  rw [hpublished] at hadjusted
  have hsome := Except.ok.inj hlast
  split at hsome
  · refine ⟨Bool.eq_false_iff.mpr (leave_ok hroot), adjusted, attempt_ok hadjusted, ?_⟩
    exact (Option.some.inj hsome).symm
  · cases hsome

theorem adjusted_satisfied (s : Scene rules others) {adjusted : ReviewApprovalEligibility rules}
    (hstatus : adjusted.facts.reviewStatus = s.record.facts.reviewStatus)
    (hverdict : adjusted.facts.reviewVerdict = s.record.facts.reviewVerdict)
    (hblocking : adjusted.facts.hasBlockingFindings = bodyBlocker s.entries s.active)
    (hhuman : adjusted.facts.hasHumanAdjudicationFindings = true ↔
      Undecided s.record s.entries s.active) :
    (overrideObligations s adjusted).Satisfied ↔
      (s.record.facts.reviewStatus = .complete ∨
        (s.record.facts.reviewStatus = .partialReview ∧ s.accepted = true)) ∧
      bodyBlocker s.entries s.active = false ∧ ¬ Undecided s.record s.entries s.active ∧
      cleanVerdict s.record.facts.reviewVerdict := by
  have hcoverage : (overrideObligations s adjusted).effectiveComplete = true ↔
      (s.record.facts.reviewStatus = .complete ∨
        (s.record.facts.reviewStatus = .partialReview ∧ s.accepted = true)) := by
    unfold Obligations.effectiveComplete overrideObligations
    simp [hstatus]
  have hverdict' : cleanVerdict (overrideObligations s adjusted).reviewVerdict ↔
      cleanVerdict s.record.facts.reviewVerdict := by
    unfold overrideObligations
    rw [hverdict]
  constructor
  · intro h
    refine ⟨hcoverage.mp h.coverage, hblocking.symm.trans h.fixes, ?_,
      hverdict'.mp ⟨h.verdict_fixes, h.verdict_decisions⟩⟩
    rw [← hhuman]
    exact Bool.eq_false_iff.mp h.decisions
  · rintro ⟨hcover, hbody, hundecided, hclean⟩
    rw [← hhuman] at hundecided
    have hclean' := hverdict'.mpr hclean
    exact ⟨hcoverage.mpr hcover, hblocking.trans hbody, Bool.eq_false_iff.mpr hundecided,
      hclean'.1, hclean'.2⟩

theorem override_success {reads : OverrideReads} (hof : Run.Of s (.override reads))
    {o : CheckOutcome} (h : s.outcome (.override reads) = some o) :
    s.record.partitionedRoot.isSome = false ∧ (o.conclusion = .success ↔ s.restart = false ∧
      (s.record.facts.reviewStatus = .complete ∨
        (s.record.facts.reviewStatus = .partialReview ∧ s.accepted = true)) ∧
      bodyBlocker s.entries s.active = false ∧ ¬ Undecided s.record s.entries s.active ∧
      cleanVerdict s.record.facts.reviewVerdict) := by
  obtain ⟨hroot, adjusted, hadjusted, rfl⟩ := override_outcome hof h
  obtain ⟨expected, _, hunique, hstatus, hverdict, hblocking, hhuman⟩ :=
    overrideRecord_spec s.agrees s.written s.entries s.active
  obtain rfl := hunique reads.readers hof.1 adjusted hadjusted
  refine ⟨hroot, ?_⟩
  rw [completed_success, reviewCheckOutcome_success s.enforced,
    adjusted_satisfied s hstatus hverdict hblocking hhuman]

/-- The readers of the record's own views report them. -/
theorem own_report (s : Scene rules others) : Report (ownReaders s.record) s.record s.fresh := by
  obtain ⟨hhistorical, hquarantine⟩ := views_same s.agrees.flag
  unfold ownReaders
  constructor
  · cases hview : s.record.historicalAssessments with
    | none => exact .inl ⟨rfl, rfl⟩
    | some v =>
      rw [hview] at hhistorical
      exact .inr (.inr ⟨v, rfl, hhistorical⟩)
  · cases hview : s.record.quarantineAssessments with
    | none => exact .inl ⟨rfl, rfl⟩
    | some v =>
      rw [hview] at hquarantine
      exact .inr (.inr ⟨v, rfl, hquarantine⟩)

/-- The answers under which an override reaches its check. -/
def overrideReads (s : Scene rules others) : OverrideReads where
  readers := ownReaders s.record
  index := .ok (some s.index)
  live := .ok (.live ⟨s.place.repositoryId, s.place.baseSha, false⟩)

theorem override_of (s : Scene rules others) : Run.Of s (.override (overrideReads s)) := by
  refine ⟨own_report s, ?_⟩
  intro found h
  exact (Option.some.inj (Except.ok.inj h)).symm

theorem override_completes (hroot : s.record.partitionedRoot.isSome = false) :
    ∃ o, s.outcome (.override (overrideReads s)) = some o := by
  obtain ⟨adjusted, hadjusted, _⟩ :=
    overrideRecord_spec s.agrees s.written s.entries s.active
  have hindex : overrideIndex (overrideReads s) s.record = .ok s.index := by
    unfold overrideIndex overrideReads
    exact leave_bind (not_not.mpr rfl) _
  have hlive : overrideLive (overrideReads s) s.index.baseSha = .ok () := by
    unfold overrideLive overrideReads
    exact if_neg (not_not.mpr rfl)
  have hrun : overrideOutcome s.text s.command (overrideReads s) s.record s.record.headSha s.policy
      s.restart = .ok (some (completed s.restart (reviewCheckOutcome s.policy
        (overrideObligations s adjusted)))) := by
    unfold overrideOutcome
    refine (flow_bind rfl _).trans ((leave_bind (by simp) _).trans ?_)
    refine (leave_bind (not_not.mpr rfl) _).trans ((leave_bind (by rw [hroot]; decide) _).trans ?_)
    refine (flow_bind hindex _).trans ?_
    refine (flow_bind (congrArg attempt hadjusted) _).trans ((leave_bind (by simp [overrideReads]) _).trans ?_)
    refine (flow_bind hlive _).trans ((flow_bind rfl _).trans ?_)
    refine (leave_bind (by simp) _).trans ((leave_bind (by simp [overrideReads]) _).trans ?_)
    refine (leave_bind (by simp [overrideReads]) _).trans ((flow_bind rfl _).trans ?_)
    exact (leave_bind (by simp) _).trans rfl
  have houtcome : s.outcome (.override (overrideReads s)) = some (completed s.restart
      (reviewCheckOutcome s.policy (overrideObligations s adjusted))) := by
    unfold Scene.outcome
    dsimp only
    rw [hrun]
    rfl
  exact ⟨_, houtcome⟩

end Passing

section Fixes

/-- The returned result that says that required fixes are open. -/
def fixesExit : Exit := .returned (withheld .requiredFixesOpen)

theorem attempt_fixes {α : Type} {x : Except String α} (h : attempt x = .error fixesExit) :
    False := by
  obtain ⟨m, hm⟩ := attempt_error h
  cases hm

theorem leave_fixes {p : Prop} [Decidable p] {result : PublicationResult}
    (h : leave p result = .error fixesExit) : p ∧ result = withheld .requiredFixesOpen := by
  obtain ⟨hp, hsame⟩ := leave_error h
  exact ⟨hp, (Exit.returned.inj hsame).symm⟩

/-- A withheld approval speaks of required fixes only where one of three gates stands. -/
theorem diagnostic_fixes {decision : AutoApprovalDecision}
    (h : approvalWithheldDiagnostic decision = .requiredFixesOpen) :
    .verdictBlocking ∈ decision.blockers ∨ .blockingFindingsOpen ∈ decision.blockers ∨
      .threadsOpen ∈ decision.blockers := by
  unfold approvalWithheldDiagnostic at h
  cases hfind : decision.blockers.findSome? withheldDiagnostic with
  | none =>
    rw [hfind] at h
    cases h
  | some found =>
    rw [hfind] at h
    obtain ⟨gate, hmem, hgate⟩ := List.exists_of_findSome?_eq_some hfind
    rw [Option.getD_some] at h
    rw [h] at hgate
    cases gate with
    | verdictBlocking => exact .inl hmem
    | blockingFindingsOpen => exact .inr (.inl hmem)
    | threadsOpen => exact .inr (.inr hmem)
    | review status => cases status <;> cases hgate
    | coverage blocker => cases blocker <;> cases hgate
    | qualification state => cases state <;> cases hgate
    | _ => cases hgate

theorem mem_gateIf {p : Prop} [Decidable p] {gate found : Approval.Gate} :
    found ∈ Approval.gateIf p gate ↔ p ∧ found = gate := by
  unfold Approval.gateIf
  split
  · next hp => simp [hp]
  · next hp => simp [hp]

theorem mem_coverageGates {f : FactFields} {gate : Approval.Gate} (h : gate ∈ f.coverageGates) :
    gate ≠ .verdictBlocking ∧ gate ≠ .blockingFindingsOpen ∧ gate ≠ .threadsOpen := by
  unfold FactFields.coverageGates at h
  rw [List.mem_append, List.mem_append, mem_gateIf, mem_gateIf] at h
  rcases h with (⟨_, rfl⟩ | ⟨_, rfl⟩) | hcoverage
  · split <;> exact ⟨by simp, by simp, by simp⟩
  · exact ⟨by simp, by simp, by simp⟩
  · split at hcoverage
    · cases hcoverage
    · cases hcoverage
    · rw [List.mem_singleton] at hcoverage
      subst hcoverage
      exact ⟨by simp, by simp, by simp⟩

/-- A gate of required fixes stands for its own fact. -/
theorem fixes_gates {f : FactFields} {accepted : Bool} {gate : Approval.Gate}
    (hgate : gate ∈ (evaluateApprovalFacts f accepted).blockers) :
    (gate = .verdictBlocking → f.reviewVerdict.any (·.unselectedBlockingDefect) = true) ∧
      (gate = .blockingFindingsOpen → f.hasBlockingFindings = true) ∧
      (gate = .threadsOpen → f.hasOpenReviewThreads = some true) := by
  unfold evaluateApprovalFacts at hgate
  dsimp only at hgate
  rw [List.mem_append, List.mem_append, mem_gateIf] at hgate
  rcases hgate with (hobligation | hcoverage) | ⟨_, rfl⟩
  · unfold FactFields.obligationGates at hobligation
    simp only [List.mem_append, mem_gateIf] at hobligation
    rcases hobligation with (((((h | h) | h) | h) | h) | h) | hthreads
    · exact ⟨by simp [h.2], by simp [h.2], by simp [h.2]⟩
    · exact ⟨by simp [h.2], by simp [h.2], by simp [h.2]⟩
    · exact ⟨fun _ => h.1, by simp [h.2], by simp [h.2]⟩
    · exact ⟨by simp [h.2], by simp [h.2], by simp [h.2]⟩
    · exact ⟨by simp [h.2], fun _ => h.1, by simp [h.2]⟩
    · exact ⟨by simp [h.2], by simp [h.2], by simp [h.2]⟩
    · split at hthreads
      · rw [List.mem_singleton] at hthreads
        exact ⟨by simp [hthreads], by simp [hthreads], by simp [hthreads]⟩
      · next hopen => exact ⟨by simp_all, by simp_all, fun _ => hopen⟩
      · cases hthreads
  · obtain ⟨h1, h2, h3⟩ := mem_coverageGates (List.mem_filter.mp hcoverage).1
    exact ⟨fun h => absurd h h1, fun h => absurd h h2, fun h => absurd h h3⟩
  · exact ⟨by simp, by simp, by simp⟩

/-- A withheld approval speaks of required fixes only where the facts do. -/
theorem withheld_fixes {f : FactFields} {accepted : Bool}
    (h : withheld (approvalWithheldDiagnostic (evaluateApprovalFacts f accepted)) =
      withheld .requiredFixesOpen) :
    f.reviewVerdict.any (·.unselectedBlockingDefect) = true ∨ f.hasBlockingFindings = true ∨
      f.hasOpenReviewThreads = some true := by
  have hdiagnostic := Option.some.inj (congrArg PublicationResult.diagnostic h)
  rcases diagnostic_fixes hdiagnostic with hgate | hgate | hgate
  · exact .inl ((fixes_gates hgate).1 rfl)
  · exact .inr (.inl ((fixes_gates hgate).2.1 rfl))
  · exact .inr (.inr ((fixes_gates hgate).2.2 rfl))

/-- Carried views that are confirmed give the eligibility itself. -/
theorem confirmCarried_same {readers : CarriedReaders} {e e' : ReviewApprovalEligibility rules}
    {fresh : Bool} (hagrees : Agrees e fresh) (hreport : Report readers e fresh)
    (h : confirmCarried readers e = .ok e') : e' = e := by
  unfold confirmCarried at h
  obtain ⟨_, _, h1⟩ := flow_ok h
  obtain ⟨middle, hmiddle, h2⟩ := flow_ok h1
  obtain ⟨_, _, h3⟩ := flow_ok h2
  have hhistorical : middle = e := by
    have hrequire := attempt_ok hmiddle
    unfold requireHistorical at hrequire
    split at hrequire
    · exact (Except.ok.inj hrequire).symm
    · obtain ⟨actual, hactual, hsame⟩ := bind_ok hrequire
      obtain ⟨_, _, hsame⟩ := bind_ok hsame
      obtain ⟨_, _, hsame⟩ := bind_ok hsame
      obtain ⟨_, _, hsame⟩ := bind_ok hsame
      rw [← Except.ok.inj hsame]
      exact attachHistorical_same hagrees hreport hactual
  rw [hhistorical] at h3
  have hrequire := attempt_ok h3
  unfold requireQuarantine at hrequire
  split at hrequire
  · exact (Except.ok.inj hrequire).symm
  · obtain ⟨actual, hactual, hsame⟩ := bind_ok hrequire
    obtain ⟨_, _, hsame⟩ := bind_ok hsame
    obtain ⟨_, _, hsame⟩ := bind_ok hsame
    obtain ⟨_, _, hsame⟩ := bind_ok hsame
    rw [← Except.ok.inj hsame]
    exact attachQuarantine_same hagrees hreport hactual

theorem confirmCarried_quiet {readers : CarriedReaders} {e : ReviewApprovalEligibility rules} :
    confirmCarried readers e ≠ .error fixesExit := by
  intro h
  unfold confirmCarried at h
  rcases flow_error h with h | ⟨_, _, h⟩
  · cases (leave_fixes h).2
  · rcases flow_error h with h | ⟨_, _, h⟩
    · exact attempt_fixes h
    · rcases flow_error h with h | ⟨_, _, h⟩
      · cases (leave_fixes h).2
      · exact attempt_fixes h

/-- A preflight never speaks of fixes. -/
theorem see_quiet {read : Except String Look} : see read ≠ .error fixesExit := by
  intro h
  unfold see at h
  split at h
  · cases h
  · cases h
  · rcases flow_error h with h | ⟨_, _, h⟩
    · cases (leave_fixes h).2
    · cases h

/-- A finalization that says required fixes are open, of an eligibility whose facts do not, has
found an open thread. -/
theorem finalize_fixes {call : Call rules} {reads : Reads} {post : Except String Status}
    {fresh : Bool} (hagrees : Agrees call.eligibility fresh)
    (hreport : Report reads.readers call.eligibility fresh)
    (hhonored : call.honoredInstances = []) (hassumed : call.assumeInlineUnresolved = [])
    (haccepted : call.coverageUncertaintyAccepted = false) (hguard : reads.beforeApproval = none)
    (hblocking : call.eligibility.facts.hasBlockingFindings = false)
    (hverdict : call.eligibility.facts.reviewVerdict.any (·.unselectedBlockingDefect) = false)
    (hindex : ∀ resolved, inlineObligationsResolved reads.index resolved [] = true)
    (h : finalize call reads post = .ok (withheld .requiredFixesOpen)) :
    isGitSha call.headSha = true ∧
      (evaluateApprovalFacts (staticFacts call.eligibility []) false).approved = true ∧
      ¬ providerUnverified reads.authority call.eligibility ∧
      (call.eligibility.partitionedRoot.isSome = true →
        call.eligibility.facts.qualification = .qualified ∧
          call.eligibility.humanReview.all (fun inventory => !inventory.pending.isEmpty) = false) ∧
      ∃ preflight : Preflight, reads.preflight = .ok (.live preflight) ∧
        (∀ inventory ∈ call.eligibility.humanReview, inventory.baseSha = preflight.baseSha) ∧
        ∃ threads facts, reads.threads = .ok threads ∧
          blockingRootFacts (preflight.place call) [] threads = .ok facts ∧
          facts.openBlocking = true := by
  have hprepare : prepare call reads = .error fixesExit := by
    unfold finalize at h
    split at h
    · next r hr =>
      rw [hr, Except.ok.inj h]
      rfl
    · cases h
    · next approval _ =>
      -- the write itself has other things to say
      cases post with
      | error m => cases h
      | ok status =>
        have hdiagnostic := congrArg PublicationResult.diagnostic (Except.ok.inj h)
        unfold Approval.result withheld at hdiagnostic
        dsimp only at hdiagnostic
        split at hdiagnostic <;> cases hdiagnostic
  unfold prepare at hprepare
  rcases flow_error hprepare with h1 | ⟨_, hsha, h1⟩
  · exact (attempt_fixes h1).elim
  rcases flow_error h1 with h2 | ⟨_, _, h2⟩
  · cases (leave_fixes h2).2
  rcases flow_error h2 with h3 | ⟨e, he, h3⟩
  · exact (confirmCarried_quiet h3).elim
  have hsame : e = call.eligibility := confirmCarried_same hagrees hreport he
  rw [hsame] at h3
  rcases flow_error h3 with h4 | ⟨_, hstatic, h4⟩
  · exfalso
    unfold staticGates at h4
    rw [hassumed, haccepted] at h4
    dsimp only [List.filter_nil] at h4
    rcases flow_error h4 with h5 | ⟨_, _, h5⟩
    · cases (leave_fixes h5).2
    · rcases flow_error h5 with h6 | ⟨_, _, h6⟩
      · rcases withheld_fixes (leave_fixes h6).2 with hfact | hfact | hfact
        · exact absurd (hverdict.symm.trans hfact) (by decide)
        · unfold staticFacts at hfact
          simp [hblocking] at hfact
        · cases hfact
      · rcases flow_error h6 with h7 | ⟨_, _, h7⟩
        · cases (leave_fixes h7).2
        · exact absurd rfl (leave_fixes h7).1
  have hstatic' : (evaluateApprovalFacts (staticFacts call.eligibility []) false).approved = true ∧
      ¬ providerUnverified reads.authority call.eligibility := by
    unfold staticGates at hstatic
    rw [hassumed, haccepted] at hstatic
    dsimp only [List.filter_nil] at hstatic
    obtain ⟨_, _, hstatic⟩ := flow_ok hstatic
    obtain ⟨_, happroved, hstatic⟩ := flow_ok hstatic
    obtain ⟨_, hprovider, _⟩ := flow_ok hstatic
    exact ⟨by simpa using leave_ok happroved, leave_ok hprovider⟩
  rcases flow_error h4 with h5 | ⟨_, hpartition, h5⟩
  · exfalso
    unfold partitionGate at h5
    split at h5
    · cases h5
    · rcases flow_error h5 with h6 | ⟨_, _, h6⟩
      · exact attempt_fixes h6
      · rcases flow_error h6 with h7 | ⟨_, _, h7⟩
        · cases (leave_fixes h7).2
        · cases (leave_fixes h7).2
  have hpartition' : call.eligibility.partitionedRoot.isSome = true →
      call.eligibility.facts.qualification = .qualified ∧
        call.eligibility.humanReview.all (fun inventory => !inventory.pending.isEmpty) = false := by
    intro hroot
    unfold partitionGate at hpartition
    split at hpartition
    · next hnone =>
      rw [hnone] at hroot
      cases hroot
    · obtain ⟨_, _, hpartition⟩ := flow_ok hpartition
      obtain ⟨_, _, hpartition⟩ := flow_ok hpartition
      have hnot := leave_ok hpartition
      rw [not_or, not_not] at hnot
      exact ⟨hnot.1, Bool.eq_false_iff.mpr hnot.2⟩
  rcases flow_error h5 with h6 | ⟨preflight, hlook, h6⟩
  · exfalso
    unfold firstLook at h6
    rcases flow_error h6 with h7 | ⟨_, _, h7⟩
    · exact see_quiet h7
    · rcases flow_error h7 with h8 | ⟨_, _, h8⟩
      · cases (leave_fixes h8).2
      · rcases flow_error h8 with h9 | ⟨_, _, h9⟩
        · cases (leave_fixes h9).2
        · cases h9
  have hbase : reads.preflight = .ok (.live preflight) ∧
      ∀ inventory ∈ call.eligibility.humanReview, inventory.baseSha = preflight.baseSha := by
    unfold firstLook at hlook
    obtain ⟨seen, hseen, hlook⟩ := flow_ok hlook
    obtain ⟨_, hstale, hlook⟩ := flow_ok hlook
    obtain ⟨_, _, hlook⟩ := flow_ok hlook
    obtain rfl := Except.ok.inj hlook
    refine ⟨see_ok hseen, ?_⟩
    intro inventory hinventory
    by_contra hne
    exact leave_ok hstale ⟨inventory, hinventory, hne⟩
  refine ⟨ensure_inv (attempt_ok hsha), hstatic'.1, hstatic'.2, hpartition', preflight, hbase.1,
    hbase.2, ?_⟩
  rcases flow_error h6 with h7 | ⟨⟨facts, decision⟩, hscan, h7⟩
  · unfold scanThreads at h7
    rw [hhonored] at h7
    rcases flow_error h7 with h8 | ⟨facts, hfacts, h8⟩
    · exact (attempt_fixes h8).elim
    obtain ⟨threads, hthreads, hroots⟩ := bind_ok (attempt_ok hfacts)
    refine ⟨threads, facts, hthreads, hroots, ?_⟩
    rcases flow_error h8 with h9 | ⟨_, _, h9⟩
    · unfold secondLook at h9
      rw [haccepted] at h9
      rcases flow_error h9 with h10 | ⟨_, _, h10⟩
      · exact (see_quiet h10).elim
      rcases flow_error h10 with h11 | ⟨_, _, h11⟩
      · cases (leave_fixes h11).2
      rcases flow_error h11 with h12 | ⟨decision, hdecision, h12⟩
      · exact (attempt_fixes h12).elim
      have hevaluate := attempt_ok hdecision
      unfold ReviewApprovalEligibility.evaluate at hevaluate
      obtain ⟨_, _, hevaluate⟩ := bind_ok hevaluate
      rcases flow_error h12 with h13 | ⟨_, _, h13⟩
      · have hwithheld := (leave_fixes h13).2
        rw [← Except.ok.inj hevaluate] at hwithheld
        rcases withheld_fixes hwithheld with hfact | hfact | hfact
        · exact absurd (hverdict.symm.trans hfact) (by decide)
        · exact absurd (hblocking.symm.trans hfact) (by decide)
        · exact Option.some.inj hfact
      · cases h13
    · cases h9
  · -- after the scan only the index could say so, and it has no open obligation
    exfalso
    rcases flow_error h7 with h8 | ⟨_, _, h8⟩
    · unfold readBack at h8
      rw [hhonored] at h8
      rcases flow_error h8 with h9 | ⟨_, _, h9⟩
      · exact attempt_fixes h9
      rcases flow_error h9 with h10 | ⟨_, _, h10⟩
      · exact absurd ((leave_fixes h10).1.symm.trans (hindex _)) (by decide)
      rcases flow_error h10 with h11 | ⟨_, _, h11⟩
      · exact attempt_fixes h11
      rcases flow_error h11 with h12 | ⟨_, _, h12⟩
      · cases (leave_fixes h12).2
      rcases flow_error h12 with h13 | ⟨_, _, h13⟩
      · unfold guarded at h13
        rw [hguard] at h13
        cases h13
      · cases (leave_fixes h13).2
    · rcases flow_error h8 with h9 | ⟨_, _, h9⟩
      · have hdiagnostic := congrArg PublicationResult.status (leave_fixes h9).2
        cases hdiagnostic
      · cases h9

end Fixes
end ReviewSensei.Gate
