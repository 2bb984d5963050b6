import ReviewSensei.BroaderReview
import ReviewSensei.MergeGateRuns

/-! When the check of a published review passes on every path for the same reasons. -/
namespace ReviewSensei.Gate
open Review (ReviewComment ReviewVerdict ResultRules ReviewResult)
open Approval (FactFields ResultRest resultRules hasBlockingFindings ReviewApprovalEligibility
  evaluateApprovalFacts evaluate_approved)
open Human (PendingHumanReview)
open Session (isGitSha bind_ok)
open Finalize

variable {rules : Human.Rules} {others : ResultRules (ResultRest rules.unicode)}
variable {s : Scene rules others}

section Recorded

/-- The call of a recorded decision, of the record as it is. -/
def Scene.call (s : Scene rules others) : Call rules where
  repository := s.repository
  pullRequest := s.place.pullRequest
  headSha := s.record.headSha
  eligibility := s.record

/-- A pending decision of the inventory is one that the human fact speaks of. -/
theorem pending_fact (h : s.record.facts.hasHumanAdjudicationFindings = false) :
    s.record.humanReview.any (fun inventory => !inventory.pending.isEmpty) = false := by
  have hfresh : s.fresh = false := by
    have hfact := s.agrees.fact
    rw [h] at hfact
    exact (Bool.or_eq_false_iff.mp hfact.symm).1
  cases hreview : s.record.humanReview with
  | none => rfl
  | some inventory =>
    have hflag := s.agrees.flag
    unfold ReviewApprovalEligibility.freshHumanPending at hflag
    rw [hreview] at hflag
    obtain ⟨_, _, hsame⟩ := bind_ok hflag
    exact (Except.ok.inj hsame).trans hfresh

theorem recordedCheck_success {attempted : Attempt} :
    (recordedCheck s.policy s.record attempted s.restart).conclusion = .success ↔
      s.restart = false ∧ s.record.facts.reviewStatus = .complete ∧
        s.record.facts.hasBlockingFindings = false ∧ attempted.openInline = false ∧
        attempted.result ≠ withheld .requiredFixesOpen ∧
        s.record.facts.hasHumanAdjudicationFindings = false ∧
        cleanVerdict s.record.facts.reviewVerdict := by
  unfold recordedCheck
  rw [completed_success, reviewCheckOutcome_success s.enforced]
  constructor
  · rintro ⟨hrestart, hsatisfied⟩
    have hcoverage := hsatisfied.coverage
    unfold Obligations.effectiveComplete at hcoverage
    have hfixes := hsatisfied.fixes
    dsimp only at hfixes
    rw [Bool.or_eq_false_iff, Bool.or_eq_false_iff, decide_eq_false_iff_not] at hfixes
    have hdecisions := hsatisfied.decisions
    dsimp only at hdecisions
    rw [Bool.or_eq_false_iff] at hdecisions
    refine ⟨hrestart, by simpa using hcoverage, hfixes.1.1, hfixes.1.2, hfixes.2, hdecisions.1, ?_⟩
    exact ⟨hsatisfied.verdict_fixes, hsatisfied.verdict_decisions⟩
  · rintro ⟨hrestart, hcomplete, hblocking, hinline, hresult, hhuman, hclean⟩
    refine ⟨hrestart, ?_, ?_, ?_, hclean.1, hclean.2⟩
    · unfold Obligations.effectiveComplete
      simp [hcomplete]
    · dsimp only
      rw [hblocking, hinline, decide_eq_false hresult]
      rfl
    · dsimp only
      rw [hhuman, pending_fact hhuman]
      rfl

/-- A recorded decision completes the check of the record itself, with what it attempted. -/
theorem recorded_outcome {reads : RecordedReads} (hof : Run.Of s (.recorded reads))
    {o : CheckOutcome} (h : s.outcome (.recorded reads) = some o) :
    ∃ attempted, concluded (tryRecorded reads s.policy s.call s.record) = some attempted ∧
      o = recordedCheck s.policy s.record attempted s.restart := by
  have hrun : recordedOutcome reads s.record s.repository s.place.pullRequest s.record.headSha
      s.policy s.restart = .ok (some o) := by
    unfold Scene.outcome at h
    dsimp only at h
    exact join_some h
  unfold recordedOutcome at hrun
  obtain ⟨e, he, hrun⟩ := bind_ok hrun
  have hsame : e = s.record := attachCarried_same s.agrees hof.1 he
  rw [hsame] at hrun
  obtain ⟨attempted, hattempted, hcheck⟩ := Option.bind_eq_some_iff.mp (Except.ok.inj hrun)
  split at hcheck
  · cases hcheck
  · exact ⟨attempted, hattempted, (Option.some.inj hcheck).symm⟩

/-- What a recorded decision attempts decides the check. -/
theorem recorded_completes {reads : RecordedReads} (hreaders : reads.readers = ownReaders s.record)
    (htoken : reads.checkToken = true) {attempted : Attempt}
    (hattempted : concluded (tryRecorded reads s.policy s.call s.record) = some attempted)
    (hskip : attempted.result.status.isSkip = false) :
    s.outcome (.recorded reads) =
      some (recordedCheck s.policy s.record attempted s.restart) := by
  obtain ⟨hhistorical, hquarantine⟩ := views_same s.agrees.flag
  have hattach : attachCarried reads.readers s.record = .ok s.record := by
    rw [hreaders]
    exact attachCarried_own s.agrees hhistorical hquarantine
  have hrun : recordedOutcome reads s.record s.repository s.place.pullRequest s.record.headSha
      s.policy s.restart =
        .ok (some (recordedCheck s.policy s.record attempted s.restart)) := by
    unfold recordedOutcome
    refine (ok_bind hattach _).trans (congrArg Except.ok ?_)
    refine (congrArg (fun x => Option.bind x _) hattempted).trans ?_
    rw [Option.bind_some, hskip, htoken]
    rfl
  unfold Scene.outcome
  dsimp only
  rw [hrun]
  rfl

theorem recorded_success {reads : RecordedReads} (hof : Run.Of s (.recorded reads))
    {o : CheckOutcome} (h : s.outcome (.recorded reads) = some o)
    (hpasses : o.conclusion = .success) :
    s.restart = false ∧ s.record.facts.reviewStatus = .complete ∧
      s.record.facts.hasBlockingFindings = false ∧
      s.record.facts.hasHumanAdjudicationFindings = false ∧
      cleanVerdict s.record.facts.reviewVerdict := by
  obtain ⟨attempted, _, rfl⟩ := recorded_outcome hof h
  obtain ⟨hrestart, hcomplete, hblocking, _, _, hhuman, hclean⟩ :=
    recordedCheck_success.mp hpasses
  exact ⟨hrestart, hcomplete, hblocking, hhuman, hclean⟩

end Recorded

section Quiet

/-- The answers under which a recorded decision gets no further than its first read. -/
def quietReads (s : Scene rules others) : RecordedReads where
  readers := ownReaders s.record
  live := .error "pull request is unreadable"
  index := .ok none
  threads := .ok s.threads
  obligations := .ok none
  finalization :=
    { readers := ownReaders s.record
      preflight := .error "pull request is unreadable"
      threads := .ok s.threads
      writePreflight := .error "pull request is unreadable"
      index := .ok none }
  post := .ok .approved

theorem reports_none {index : FindingIndex} : Reports index (.ok none) := by
  intro found h
  cases h

theorem quiet_of (s : Scene rules others) : Run.Of s (.recorded (quietReads s)) := by
  refine ⟨own_report s, own_report s, reports_none, rfl, rfl, rfl, ?_, ?_, ?_⟩
  · intro threads h
    exact (Except.ok.inj h).symm
  · intro threads h
    exact (Except.ok.inj h).symm
  · intro preflight h
    cases h

theorem quiet_outcome (s : Scene rules others) :
    s.outcome (.recorded (quietReads s)) = some (recordedCheck s.policy s.record
      ⟨withheld .approvalWithheld, false⟩ s.restart) :=
  recorded_completes rfl rfl rfl rfl

/-- A recorded decision that reads nothing of the host passes by the record alone. -/
theorem quiet_success {o : CheckOutcome} (h : s.outcome (.recorded (quietReads s)) = some o) :
    o.conclusion = .success ↔ s.restart = false ∧ s.record.facts.reviewStatus = .complete ∧
      s.record.facts.hasBlockingFindings = false ∧
      s.record.facts.hasHumanAdjudicationFindings = false ∧
      cleanVerdict s.record.facts.reviewVerdict := by
  rw [quiet_outcome] at h
  rw [← Option.some.inj h, recordedCheck_success]
  constructor
  · rintro ⟨hrestart, hcomplete, hblocking, _, _, hrest⟩
    exact ⟨hrestart, hcomplete, hblocking, hrest⟩
  · rintro ⟨hrestart, hcomplete, hblocking, hrest⟩
    exact ⟨hrestart, hcomplete, hblocking, rfl, by decide, hrest⟩

end Quiet

section OpenThread

/-- Facts that withhold nothing before the threads are read are withheld by an open thread alone. -/
theorem only_threads {e : ReviewApprovalEligibility rules}
    (h : (evaluateApprovalFacts (staticFacts e []) false).approved = true) :
    (evaluateApprovalFacts (e.liveFacts false (some true)) false).approved = false ∧
      approvalWithheldDiagnostic (evaluateApprovalFacts (e.liveFacts false (some true)) false) =
        .requiredFixesOpen := by
  obtain ⟨hclear, hsettled⟩ := (evaluate_approved _ _).mp h
  have hcoverage : e.facts.toFactFields.Settled := by
    rcases hsettled with hsettled | ⟨haccepted, _⟩
    · exact hsettled
    · cases haccepted
  have hnone := (Approval.coverageGates_waived (e.liveFacts false (some true)) false).mpr
    (.inl hcoverage)
  have hblocking : e.facts.hasBlockingFindings = false := by
    have hstatic := hclear.not_blocking
    unfold staticFacts at hstatic
    simpa using hstatic
  have henabled : e.facts.enabled = true := hclear.enabled
  have hfixes : e.facts.reviewVerdict.any (·.unselectedBlockingDefect) = false :=
    hclear.verdict_blocking
  have hdecisions : e.facts.reviewVerdict.any (·.unselectedHumanDecision) = false :=
    hclear.verdict_human
  have hhuman : e.facts.hasHumanAdjudicationFindings = false := hclear.no_human
  have hqualified : e.facts.qualification.accepted = true := hclear.qualified
  have hobligations : (e.liveFacts false (some true)).obligationGates = [.threadsOpen] := by
    unfold FactFields.obligationGates ReviewApprovalEligibility.liveFacts
    dsimp only
    rw [henabled, hfixes, hdecisions, hblocking, hhuman]
    rfl
  have hblockers : (evaluateApprovalFacts (e.liveFacts false (some true)) false).blockers =
      [.threadsOpen] := by
    unfold evaluateApprovalFacts
    dsimp only
    rw [hobligations, hnone]
    unfold ReviewApprovalEligibility.liveFacts
    dsimp only
    rw [hqualified]
    rfl
  constructor
  · have happroved : (evaluateApprovalFacts (e.liveFacts false (some true)) false).approved =
        (evaluateApprovalFacts (e.liveFacts false (some true)) false).blockers.isEmpty := rfl
    rw [happroved, hblockers]
    rfl
  · unfold approvalWithheldDiagnostic
    rw [hblockers]
    rfl

/-- The answers under which a recorded decision gets as far as the threads. -/
def threadReads (s : Scene rules others) (baseSha : String) : RecordedReads where
  readers := ownReaders s.record
  live := .ok (.live ⟨s.place.repositoryId, baseSha, false⟩)
  index := .ok none
  threads := .ok s.threads
  obligations := .ok none
  finalization :=
    { readers := ownReaders s.record
      authority := some fun _ => s.record.facts.qualificationBinding
      preflight := .ok (.live ⟨s.place.repositoryId, baseSha, false⟩)
      threads := .ok s.threads
      writePreflight := .ok (.live ⟨s.place.repositoryId, baseSha, false⟩)
      index := .ok none }
  post := .ok .approved

theorem thread_of (s : Scene rules others) (baseSha : String) :
    Run.Of s (.recorded (threadReads s baseSha)) := by
  refine ⟨own_report s, own_report s, reports_none, rfl, rfl, rfl, ?_, ?_, ?_⟩
  · intro threads h
    exact (Except.ok.inj h).symm
  · intro threads h
    exact (Except.ok.inj h).symm
  · intro preflight h
    have hsame := Look.live.inj (Except.ok.inj h)
    rw [← hsame]

theorem requireSame_ok {e : ReviewApprovalEligibility rules} {document : Json}
    (hdocument : e.toDict = .ok document) (message : String) :
    requireSame e e message = .ok e := by
  unfold requireSame
  refine (ok_bind hdocument _).trans ((ok_bind hdocument _).trans ?_)
  exact ensure_bind rfl _

/-- The record's own views confirm it. -/
theorem confirmCarried_own (s : Scene rules others) :
    confirmCarried (ownReaders s.record) s.record = .ok s.record := by
  obtain ⟨hhistorical, hquarantine⟩ := views_same s.agrees.flag
  have hattach := attachCarried_own s.agrees hhistorical hquarantine
  obtain ⟨middle, hmiddle, hlast⟩ := bind_ok hattach
  have hmiddle' := attachHistorical_same s.agrees (own_report s) hmiddle
  rw [hmiddle'] at hmiddle hlast
  have hrequireHistorical : requireHistorical (ownReaders s.record).historical s.record =
      .ok s.record := by
    unfold requireHistorical
    split
    · rfl
    · exact (ok_bind hmiddle _).trans (requireSame_ok s.written _)
  have hrequireQuarantine : requireQuarantine (ownReaders s.record).quarantine s.record =
      .ok s.record := by
    unfold requireQuarantine
    split
    · rfl
    · exact (ok_bind hlast _).trans (requireSame_ok s.written _)
  unfold confirmCarried
  refine (leave_bind ?_ _).trans ?_
  · cases hview : s.record.historicalAssessments <;> simp [ownReaders, hview]
  refine (flow_bind (congrArg attempt hrequireHistorical) _).trans ((leave_bind ?_ _).trans ?_)
  · cases hview : s.record.quarantineAssessments <;> simp [ownReaders, hview]
  · exact congrArg attempt hrequireQuarantine

theorem see_live {preflight : Preflight} (h : preflight.appAuthored = false) :
    see (.ok (.live preflight)) = .ok preflight :=
  (leave_bind (Bool.eq_false_iff.mp h) _).trans rfl

/-- The binding of the record authorizes what the static gates let pass. -/
theorem own_authorizes {e : ReviewApprovalEligibility rules}
    (happroved : (evaluateApprovalFacts (staticFacts e []) false).approved = true)
    (hprovider : ¬ providerUnverified (some fun _ => none) e) (baseSha : String) :
    qualificationAuthorizes (some fun _ => e.facts.qualificationBinding) e baseSha = true := by
  have hqualified : e.facts.qualification.accepted = true :=
    ((evaluate_approved _ _).mp happroved).1.qualified
  unfold providerUnverified at hprovider
  rw [not_or, not_and_or] at hprovider
  obtain ⟨hsome, hrouter⟩ := hprovider
  unfold qualificationAuthorizes
  cases hname : e.facts.provider with
  | none => exact absurd hname hsome
  | some provider =>
    dsimp only
    split
    · exact hqualified
    · next hopenrouter =>
      rw [not_not] at hopenrouter
      rcases hrouter with hother | hbinding
      · rw [hname, hopenrouter] at hother
        exact absurd rfl hother
      · rw [not_or, not_or] at hbinding
        have hbound : e.facts.qualificationBinding.isSome = true :=
          Option.isSome_iff_ne_none.mpr hbinding.2.1
        simp [hbound]

/-- A finalization that reads an open thread says that required fixes are open. -/
theorem thread_fixes (s : Scene rules others) {place : Place} {facts : RootFacts}
    (hplace : place = ⟨s.place.repositoryId, s.place.pullRequest, s.record.headSha, place.baseSha⟩)
    (hsha : isGitSha s.record.headSha = true)
    (happroved : (evaluateApprovalFacts (staticFacts s.record []) false).approved = true)
    (hprovider : ¬ providerUnverified (some fun _ => none) s.record)
    (hpartition : s.record.partitionedRoot.isSome = true →
      s.record.facts.qualification = .qualified ∧
        s.record.humanReview.all (fun inventory => !inventory.pending.isEmpty) = false)
    (hbase : ∀ inventory ∈ s.record.humanReview, inventory.baseSha = place.baseSha)
    (hroots : blockingRootFacts place [] s.threads = .ok facts) (hopen : facts.openBlocking = true) :
    prepare s.call (threadReads s place.baseSha).finalization = .error fixesExit := by
  let reads := (threadReads s place.baseSha).finalization
  let preflight : Preflight := ⟨s.place.repositoryId, place.baseSha, false⟩
  have hstatic : staticGates s.call reads.authority s.record = .ok () := by
    unfold staticGates
    dsimp only [Scene.call, List.filter_nil]
    refine (leave_bind ?_ _).trans ((leave_bind ?_ _).trans ((leave_bind hprovider _).trans ?_))
    · intro hmem
      have hnil : (evaluateApprovalFacts (staticFacts s.record []) false).blockers = [] :=
        List.isEmpty_iff.mp happroved
      rw [hnil] at hmem
      cases hmem
    · rw [happroved]
      decide
    · exact if_neg (not_not.mpr rfl)
  have hpartitionGate : partitionGate reads.partition s.record = .ok () := by
    unfold partitionGate
    split
    · rfl
    · next hroot =>
      obtain ⟨hqualified, hsettled⟩ := hpartition (by rw [hroot]; rfl)
      refine (flow_bind rfl _).trans ((leave_bind (by decide) _).trans (if_neg ?_))
      rw [not_or]
      exact ⟨not_not.mpr hqualified, Bool.eq_false_iff.mp hsettled⟩
  have hlook : firstLook reads.authority reads.preflight s.record = .ok preflight := by
    unfold firstLook
    refine (flow_bind (see_live rfl) _).trans ((leave_bind ?_ _).trans ((leave_bind ?_ _).trans rfl))
    · rintro ⟨inventory, hinventory, hne⟩
      exact hne (hbase inventory hinventory)
    · rw [Bool.not_eq_false]
      exact own_authorizes happroved hprovider place.baseSha
  have hscan : scanThreads s.call reads s.record preflight = .error fixesExit := by
    obtain ⟨hwithheld, hdiagnostic⟩ := only_threads happroved
    have hfacts : (reads.threads >>= blockingRootFacts (preflight.place s.call)
        s.call.honoredInstances) = .ok facts := by
      refine (ok_bind rfl _).trans ?_
      rw [← hroots, hplace]
      rfl
    have hquarantine : s.record.requireQuarantine = .ok () := by
      unfold ReviewApprovalEligibility.requireQuarantine
      split
      · rfl
      · exact ok_bind s.written _
    have hevaluate : s.record.evaluate false (some facts.openBlocking) false =
        .ok (evaluateApprovalFacts (s.record.liveFacts false (some true)) false) := by
      rw [hopen]
      exact (ok_bind hquarantine _).trans rfl
    have hlast : secondLook s.call reads.writePreflight s.record preflight facts =
        .error fixesExit := by
      unfold secondLook
      refine (flow_bind (see_live rfl) _).trans ((leave_bind (by simp [preflight]) _).trans ?_)
      refine (flow_bind (congrArg attempt hevaluate) _).trans ?_
      unfold leave
      rw [if_pos hwithheld, hdiagnostic]
      rfl
    unfold scanThreads
    refine (flow_bind (congrArg attempt hfacts) _).trans ?_
    rw [hlast]
    rfl
  unfold prepare
  refine (flow_bind (congrArg attempt (if_pos hsha)) _).trans ?_
  refine (leave_bind (not_not.mpr rfl) _).trans ((flow_bind (confirmCarried_own s) _).trans ?_)
  refine (flow_bind hstatic _).trans ((flow_bind hpartitionGate _).trans ?_)
  refine (flow_bind hlook _).trans ?_
  rw [hscan]
  rfl

/-- An open thread that a finalization reads fails the check of a recorded decision. -/
theorem thread_outcome (hopen : s.OpenThread) :
    ∃ run o, Run.Of s run ∧ s.outcome run = some o ∧ o.conclusion ≠ .success := by
  obtain ⟨hpolicy, hsha, happroved, hprovider, hpartition, place, hrepository, hnumber, hhead,
    hbase, resolved, hroots⟩ := hopen
  have hplace : place =
      ⟨s.place.repositoryId, s.place.pullRequest, s.record.headSha, place.baseSha⟩ := by
    rw [← hrepository, ← hnumber, ← hhead]
  have hprepare := thread_fixes s hplace hsha happroved hprovider hpartition hbase hroots rfl
  let reads := threadReads s place.baseSha
  have hfinalize : finalize s.call reads.finalization reads.post =
      .ok (withheld .requiredFixesOpen) := by
    unfold finalize
    rw [hprepare]
    rfl
  have hinline : openInlineFixes reads s.policy s.record
      ((⟨s.place.repositoryId, place.baseSha, false⟩ : Preflight).place s.call) none =
        .ok false := by
    unfold openInlineFixes
    exact if_neg (fun h => nomatch h.2.2)
  have hattempt : tryRecorded reads s.policy s.call s.record =
      .ok ⟨withheld .requiredFixesOpen, false⟩ := by
    unfold tryRecorded
    refine (flow_bind (see_live rfl) _).trans ((leave_bind ?_ _).trans ?_)
    · rintro ⟨inventory, hinventory, hne⟩
      exact hne (hbase inventory hinventory)
    · refine (flow_bind rfl _).trans ((leave_bind (by simp) _).trans ((flow_bind rfl _).trans ?_))
      refine (flow_bind (congrArg attempt hinline) _).trans ?_
      rw [if_neg (not_not.mpr hpolicy), hfinalize]
      rfl
  have houtcome := recorded_completes rfl rfl (congrArg concluded hattempt) rfl
  refine ⟨.recorded reads, _, thread_of s place.baseSha, houtcome, ?_⟩
  rw [ne_eq, recordedCheck_success]
  rintro ⟨_, _, _, _, hresult, _⟩
  exact hresult rfl

end OpenThread

section Clear

theorem mem_addEntry (comments : List IndexedFinding) :
    ∀ entries, ∀ e ∈ comments.foldl addEntry entries, e ∈ entries ∨ e ∈ comments := by
  induction comments with
  | nil =>
    intro entries e he
    exact .inl he
  | cons c rest ih =>
    intro entries e he
    rcases ih (addEntry entries c) e he with hadded | hrest
    · unfold addEntry at hadded
      split at hadded
      · exact .inl hadded
      · rw [List.mem_append, List.mem_singleton] at hadded
        rcases hadded with hentry | rfl
        · exact .inl hentry
        · exact .inr List.mem_cons_self
    · exact .inr (List.mem_cons_of_mem _ hrest)

/-- A blocking entry is that of a blocking comment. -/
theorem entry_blocking {e : IndexedFinding} (he : e ∈ s.entries) (hblocking : e.blocking = true) :
    hasBlockingFindings rules s.result.comments = true := by
  unfold Scene.entries indexEntries at he
  rcases mem_addEntry _ [] e he with hnil | hcomment
  · cases hnil
  · obtain ⟨c, hc, rfl⟩ := List.mem_map.mp hcomment
    exact List.any_eq_true.mpr ⟨c, (List.mem_filter.mp hc).1, hblocking⟩

/-- Where nothing blocks, no index that is read has an open inline obligation. -/
theorem inline_resolved (hcomments : hasBlockingFindings rules s.result.comments = false)
    {read : Except String (Option FindingIndex)} {found : Option FindingIndex}
    (hread : read = .ok found) (hreports : Reports s.index read) :
    found.any (fun i => i.entries.any (fun e => e.blocking && !e.bodyPlaced)) = false ∧
      ∀ resolved, inlineObligationsResolved read resolved [] = true := by
  cases found with
  | none =>
    rw [hread]
    exact ⟨rfl, fun _ => rfl⟩
  | some index =>
    have hindex : index = s.index := hreports index hread
    have hnone : ∀ e ∈ s.index.entries, e.blocking = false := by
      intro e he
      by_contra hblocking
      have htrue := entry_blocking he (Bool.not_eq_false _ ▸ hblocking)
      exact absurd (hcomments.symm.trans htrue) (by decide)
    rw [hread, hindex]
    constructor
    · rw [Option.any_some, List.any_eq_false]
      intro e he
      rw [hnone e he, Bool.false_and]
      decide
    · intro resolved
      unfold inlineObligationsResolved
      rw [List.all_eq_true]
      intro e he
      rw [hnone e he]
      rfl

/-- A provider that some authority lets pass is one that an authority without a binding does. -/
theorem provider_any {authority : Option (String → Option String)}
    {e : ReviewApprovalEligibility rules} (h : ¬ providerUnverified authority e) :
    ¬ providerUnverified (some fun _ => none) e := by
  intro hunverified
  apply h
  rcases hunverified with hnone | ⟨hrouter, hqualified | hbinding | hauthority⟩
  · exact .inl hnone
  · exact .inr ⟨hrouter, .inl hqualified⟩
  · exact .inr ⟨hrouter, .inr (.inl hbinding)⟩
  · cases hauthority

/-- Where nothing is asked for, a recorded decision finds nothing open. -/
theorem clear_attempt (hclear : s.Clear) {reads : RecordedReads}
    (hof : Run.Of s (.recorded reads)) {attempted : Attempt}
    (h : concluded (tryRecorded reads s.policy s.call s.record) = some attempted) :
    attempted.openInline = false ∧ attempted.result ≠ withheld .requiredFixesOpen := by
  obtain ⟨_, hreport, hindex, hobligations, hfinalIndex, hguard, _, hthreads, hrepository⟩ := hof
  cases hattempt : tryRecorded reads s.policy s.call s.record with
  | error exit =>
    rw [hattempt] at h
    cases exit with
    | returned result => cases h
    | raised message =>
      rw [← Option.some.inj h]
      exact ⟨rfl, by decide⟩
  | ok found =>
    rw [hattempt] at h
    obtain rfl := Option.some.inj h
    unfold tryRecorded at hattempt
    obtain ⟨preflight, _, hattempt⟩ := flow_ok hattempt
    obtain ⟨_, _, hattempt⟩ := flow_ok hattempt
    obtain ⟨_, _, hattempt⟩ := flow_ok hattempt
    obtain ⟨_, _, hattempt⟩ := flow_ok hattempt
    obtain ⟨index, hread, hattempt⟩ := flow_ok hattempt
    obtain ⟨openInline, hopen, hattempt⟩ := flow_ok hattempt
    obtain ⟨hnone, hresolved⟩ := inline_resolved hclear.comments (attempt_ok hread) hindex
    have hinline : openInline = false := by
      have hok := attempt_ok hopen
      unfold openInlineFixes at hok
      rw [if_neg (fun hscan => absurd (hnone.symm.trans hscan.2.2) (by decide))] at hok
      exact (Except.ok.inj hok).symm
    have hsame := Except.ok.inj hattempt
    rw [← hsame]
    refine ⟨hinline, ?_⟩
    dsimp only
    intro hfixes
    split at hfixes
    · cases hfixes
    · next hpolicy =>
      rw [not_not] at hpolicy
      cases hfinalize : finalize s.call reads.finalization reads.post with
      | error m =>
        rw [hfinalize] at hfixes
        cases hfixes
      | ok result =>
        rw [hfinalize] at hfixes
        dsimp only at hfixes
        rw [hfixes] at hfinalize
        obtain ⟨hsha, happroved, hprovider, hpartition, last, hlast, hbase, threads, facts,
          hscanned, hroots, hopenBlocking⟩ := finalize_fixes s.agrees hreport rfl
            rfl rfl hguard hclear.recorded hclear.record_verdict.1
            (by rw [hfinalIndex]; exact hresolved) hfinalize
        refine hclear.threads ⟨hpolicy, hsha, happroved, provider_any hprovider, hpartition,
          last.place s.call, hrepository last hlast, rfl, rfl, hbase, facts.resolvedInstances, ?_⟩
        rw [← hthreads threads hscanned, ← hopenBlocking]
        exact hroots

theorem clear_decisions (hclear : s.Clear) (active : List String) :
    ¬ Undecided s.record s.entries active := by
  have hfact := s.agrees.fact
  rw [hclear.decisions] at hfact
  obtain ⟨hfresh, hcarried⟩ := Bool.or_eq_false_iff.mp hfact.symm
  rintro (⟨inventory, hinventory, f, hf, _⟩ | ⟨_, hflag⟩ | hpending)
  · have hnone := pending_fact hclear.decisions
    rw [Option.mem_def.mp hinventory, Option.any_some, Bool.not_eq_false', List.isEmpty_iff] at hnone
    rw [hnone] at hf
    cases hf
  · have hsame := Except.ok.inj (hflag.symm.trans s.agrees.flag)
    exact absurd (hsame.trans hfresh) (by decide)
  · exact absurd (hpending.symm.trans hcarried) (by decide)

theorem clear_body (hclear : s.Clear) (active : List String) :
    bodyBlocker s.entries active = false := by
  unfold bodyBlocker
  rw [List.any_eq_false]
  intro e he hblocker
  rw [Bool.and_eq_true, Bool.and_eq_true] at hblocker
  exact absurd (hclear.comments.symm.trans (entry_blocking he hblocker.1.1)) (by decide)

/-- Where nothing is asked for, every path passes. -/
theorem clear_passes (hclear : s.Clear) (hrestart : s.restart = false) :
    ∀ run, Run.Of s run → ∀ o, s.outcome run = some o → o.conclusion = .success := by
  intro run hof o h
  cases run with
  | fresh =>
    exact (fresh_success h).mpr ⟨hrestart, hclear.complete, hclear.comments, hclear.recorded,
      hclear.decisions, hclear.result_verdict⟩
  | replay =>
    exact (replay_success h).mpr ⟨hrestart, hclear.complete, hclear.recorded, hclear.decisions,
      hclear.result_verdict⟩
  | override reads =>
    exact (override_success hof h).2.mpr ⟨hrestart, .inl hclear.complete, clear_body hclear _,
      clear_decisions hclear _, hclear.record_verdict⟩
  | recorded reads =>
    obtain ⟨attempted, hattempted, rfl⟩ := recorded_outcome hof h
    obtain ⟨hinline, hresult⟩ := clear_attempt hclear hof hattempted
    exact recordedCheck_success.mpr ⟨hrestart, hclear.complete, hclear.recorded, hinline, hresult,
      hclear.decisions, hclear.record_verdict⟩

theorem clear_sound (hclear : s.Clear) : s.Sound where
  coverage := .inl hclear.complete
  findings := fun e he hblocking =>
    absurd (hclear.comments.symm.trans (entry_blocking he hblocking)) (by decide)
  decisions := clear_decisions hclear _
  verdict := hclear.record_verdict

end Clear

section Withheld

/-- No path passes: every path after the first publication meets a reason of its own, and the
first publication meets those of the replay. -/
theorem withheld_fails (h : s.restart = true ∨ s.Withheld) :
    ∀ run, Run.Of s run → ∀ o, s.outcome run = some o → o.conclusion ≠ .success := by
  intro run hof o hrun hpasses
  rcases h with hrestart | hwithheld
  · have hfalse : s.restart = false := by
      cases run with
      | fresh => exact ((fresh_success hrun).mp hpasses).1
      | replay => exact ((replay_success hrun).mp hpasses).1
      | override reads => exact ((override_success hof hrun).2.mp hpasses).1
      | recorded reads => exact (recorded_success hof hrun hpasses).1
    exact absurd (hrestart.symm.trans hfalse) (by decide)
  · cases run with
    | fresh =>
      obtain ⟨_, hcomplete, _, hblocking, hhuman, hclean⟩ := (fresh_success hrun).mp hpasses
      rcases hwithheld.replay with h | h | h | h
      · exact h hcomplete
      · exact absurd (h.symm.trans hblocking) (by decide)
      · exact absurd (h.symm.trans hhuman) (by decide)
      · exact h hclean
    | replay =>
      obtain ⟨_, hcomplete, hblocking, hhuman, hclean⟩ := (replay_success hrun).mp hpasses
      rcases hwithheld.replay with h | h | h | h
      · exact h hcomplete
      · exact absurd (h.symm.trans hblocking) (by decide)
      · exact absurd (h.symm.trans hhuman) (by decide)
      · exact h hclean
    | override reads =>
      obtain ⟨hroot, hiff⟩ := override_success hof hrun
      obtain ⟨_, hcoverage, hbody, hdecided, hclean⟩ := hiff.mp hpasses
      rcases hwithheld.override with h | ⟨hshort, haccepted⟩ | h | h | h
      · exact absurd (h.symm.trans hroot) (by decide)
      · exact hcoverage.elim hshort haccepted
      · exact absurd (h.symm.trans hbody) (by decide)
      · exact hdecided h
      · exact h hclean
    | recorded reads =>
      obtain ⟨_, hcomplete, hblocking, hhuman, hclean⟩ := recorded_success hof hrun hpasses
      rcases hwithheld.recorded with h | h | h | h
      · exact h hcomplete
      · exact absurd (h.symm.trans hblocking) (by decide)
      · exact absurd (h.symm.trans hhuman) (by decide)
      · exact h hclean

/-- Where no path passes, each of them has met a reason. -/
theorem fails_withheld (hrestart : s.restart = false)
    (h : ∀ run, Run.Of s run → ∀ o, s.outcome run = some o → o.conclusion ≠ .success) :
    s.Withheld := by
  constructor
  · by_contra hnone
    rw [not_or, not_or, not_or, not_not, not_not, Bool.not_eq_true, Bool.not_eq_true] at hnone
    obtain ⟨hcomplete, hblocking, hhuman, hclean⟩ := hnone
    exact h .replay trivial _ replay_outcome
      ((replay_success replay_outcome).mpr ⟨hrestart, hcomplete, hblocking, hhuman, hclean⟩)
  · by_contra hnone
    rw [not_or, not_or, not_or, not_or, not_not, Bool.not_eq_true, Bool.not_eq_true] at hnone
    obtain ⟨hroot, hcoverage, hbody, hdecided, hclean⟩ := hnone
    obtain ⟨o, ho⟩ := override_completes hroot
    refine h _ (override_of s) o ho ((override_success (override_of s) ho).2.mpr
      ⟨hrestart, ?_, hbody, hdecided, hclean⟩)
    by_contra hneither
    rw [not_or] at hneither
    exact hcoverage hneither
  · by_contra hnone
    rw [not_or, not_or, not_or, not_not, not_not, Bool.not_eq_true, Bool.not_eq_true] at hnone
    obtain ⟨hcomplete, hblocking, hhuman, hclean⟩ := hnone
    exact h _ (quiet_of s) _ (quiet_outcome s)
      ((quiet_success (quiet_outcome s)).mpr ⟨hrestart, hcomplete, hblocking, hhuman, hclean⟩)

end Withheld

/-- The check keeps its promise on every path exactly where all paths pass because nothing is asked
for, or where each of them withholds for a reason that it looks at itself. -/
theorem safe_iff (s : Scene rules others) :
    s.Safe ↔ s.restart = true ∨ s.Clear ∨ s.Withheld := by
  constructor
  · intro hsafe
    by_cases hrestart : s.restart = true
    · exact .inl hrestart
    have hrestart' : s.restart = false := Bool.eq_false_iff.mpr hrestart
    obtain ⟨first, hfirst⟩ : ∃ o, s.outcome .fresh = some o := ⟨_, rfl⟩
    by_cases hpasses : first.conclusion = .success
    · -- the first publication passes, so all of them do
      obtain ⟨_, hcomplete, hcomments, hblocking, hhuman, hclean⟩ :=
        (fresh_success hfirst).mp hpasses
      have hsound := hsafe.sound .fresh trivial first hfirst hpasses
      refine .inr (.inl ⟨hcomplete, hcomments, hblocking, hhuman, hclean, hsound.verdict, ?_⟩)
      intro hopen
      obtain ⟨run, o, hof, ho, hfails⟩ := thread_outcome hopen
      exact hfails ((hsafe.agree .fresh run trivial hof first o hfirst ho).mp hpasses)
    · refine .inr (.inr (fails_withheld hrestart' ?_))
      intro run hof o ho hsuccess
      exact hpasses ((hsafe.agree .fresh run trivial hof first o hfirst ho).mpr hsuccess)
  · intro h
    have hcases : (s.restart = true ∨ s.Withheld) ∨ (s.restart = false ∧ s.Clear) := by
      rcases h with hrestart | hclear | hwithheld
      · exact .inl (.inl hrestart)
      · cases hrestart : s.restart with
        | true => exact .inl (.inl rfl)
        | false => exact .inr ⟨rfl, hclear⟩
      · exact .inl (.inr hwithheld)
    rcases hcases with hfails | ⟨hrestart, hclear⟩
    · have hnone := withheld_fails hfails
      constructor
      · intro run hof o ho hpasses
        exact absurd hpasses (hnone run hof o ho)
      · intro run run' hof hof' o o' ho ho'
        exact iff_of_false (hnone run hof o ho) (hnone run' hof' o' ho')
    · have hall := clear_passes hclear hrestart
      constructor
      · intro _ _ _ _ _
        exact clear_sound hclear
      · intro run run' hof hof' o o' ho ho'
        exact iff_of_true (hall run hof o ho) (hall run' hof' o' ho')

section Publication

/-- The record of a publication keeps the blocking facts of its comments and of the retained one. -/
theorem given_blocking {result : ReviewResult (resultRules others)}
    {args : Approval.EligibilityArguments} {retained : Option (ReviewApprovalEligibility rules)}
    {given : ReviewApprovalEligibility rules}
    (h : Approval.approvalEligibilityFromResult result args retained = .ok given) :
    given.facts.hasBlockingFindings = (hasBlockingFindings rules result.comments ||
      retained.any (fun r => r.facts.hasBlockingFindings)) := by
  unfold Approval.approvalEligibilityFromResult at h
  obtain ⟨fresh, hfresh, h⟩ := bind_ok h
  have hcomments : fresh.facts.hasBlockingFindings = hasBlockingFindings rules result.comments := by
    unfold Approval.freshEligibility at hfresh
    obtain ⟨_, _, hfresh⟩ := bind_ok hfresh
    obtain ⟨facts, hfacts, hfresh⟩ := bind_ok hfresh
    rw [← Except.ok.inj hfresh]
    exact congrArg FactFields.hasBlockingFindings (Approval.ApprovalFacts.construct_ok hfacts)
  cases retained with
  | none =>
    rw [← Except.ok.inj h, hcomments, Option.any_none, Bool.or_false]
  | some r =>
    dsimp only at h
    split at h
    · cases h
    · obtain ⟨_, _, h⟩ := bind_ok h
      obtain ⟨_, _, h⟩ := bind_ok h
      obtain ⟨_, _, h⟩ := bind_ok h
      obtain ⟨_, _, h⟩ := bind_ok h
      obtain ⟨facts, hfacts, h⟩ := bind_ok h
      rw [← Except.ok.inj h, Option.any_some, ← hcomments]
      exact congrArg FactFields.hasBlockingFindings (Approval.ApprovalFacts.construct_ok hfacts)

theorem attachHistorical_blocking {reader : Option (Except String Approval.HistoricalView)}
    {e e' : ReviewApprovalEligibility rules} (h : attachHistorical reader e = .ok e') :
    e'.facts.hasBlockingFindings = e.facts.hasBlockingFindings := by
  unfold attachHistorical at h
  split at h
  · obtain ⟨_, _, h⟩ := bind_ok h
    rw [Except.ok.inj h]
  · obtain ⟨_, _, h⟩ := bind_ok h
    obtain ⟨_, _, h⟩ := bind_ok h
    rw [← Except.ok.inj h]
    rfl

theorem attachQuarantine_blocking {reader : Option (Except String Quarantine.View)}
    {e e' : ReviewApprovalEligibility rules} (h : attachQuarantine reader e = .ok e') :
    e'.facts.hasBlockingFindings = e.facts.hasBlockingFindings := by
  unfold attachQuarantine at h
  split at h
  · obtain ⟨_, _, h⟩ := bind_ok h
    rw [Except.ok.inj h]
  · obtain ⟨_, _, h⟩ := bind_ok h
    obtain ⟨_, _, h⟩ := bind_ok h
    rw [← Except.ok.inj h]
    rfl

/-- The check of the publication that wrote the record is the one of the scene's first path. -/
theorem freshPublication_outcome (s : Scene rules others) {args : Approval.EligibilityArguments}
    {retained : Option (ReviewApprovalEligibility rules)} {readers : CarriedReaders}
    {outcome : CheckOutcome}
    (h : freshPublication s.result args retained readers s.bodyPlaced s.policy s.restart =
      .ok (outcome, s.record)) : s.outcome .fresh = some outcome := by
  unfold freshPublication at h
  obtain ⟨given, hgiven, h⟩ := bind_ok h
  obtain ⟨prospective, hprospective, h⟩ := bind_ok h
  obtain ⟨restated, hrestated, h⟩ := bind_ok h
  obtain ⟨houtcome, hrecord⟩ := Prod.mk.inj (Except.ok.inj h)
  have hblocking : prospective.facts.hasBlockingFindings =
      (hasBlockingFindings rules s.result.comments ||
        retained.any (fun r => r.facts.hasBlockingFindings)) := by
    obtain ⟨middle, hmiddle, hlast⟩ := bind_ok hprospective
    rw [attachQuarantine_blocking hlast, attachHistorical_blocking hmiddle, given_blocking hgiven]
  have hfacts : s.freshFacts = prospective.facts.toFactFields := by
    unfold Scene.freshFacts
    rw [← hrecord]
    unfold withBlocking
    dsimp only
    cases hbody : (indexEntries rules s.result s.bodyPlaced).any
        (fun e => e.blocking && e.bodyPlaced) with
    | false => rw [Bool.false_or, ← hblocking]
    | true =>
      -- a blocking entry in the body is that of a blocking comment
      obtain ⟨e, he, hentry⟩ := List.any_eq_true.mp hbody
      have hcomments := entry_blocking (s := s) he (Bool.and_eq_true_iff.mp hentry).1
      rw [hcomments, Bool.true_or] at hblocking
      rw [hcomments, Bool.true_or, ← hblocking]
  have hsame : restated = s.restated := by
    have hok := s.restated_ok
    rw [← hrecord] at hok
    exact Except.ok.inj (hrestated.symm.trans hok)
  have hcarried : s.record.carriedAssessmentPending = prospective.carriedAssessmentPending := by
    rw [← hrecord]
    rfl
  unfold Scene.outcome
  dsimp only
  rw [hfacts, ← hsame, hcarried, houtcome]

end Publication

section Sample
open Approval (sampleRules sampleResultRules sampleArguments zeros)

/-- A required fix at its line. -/
def inlineComment : ReviewComment where
  path := "a.py"
  line := some 1
  body := "The loop never ends."
  severity := some "high"
  line_side := Review.right_line
  effectiveBlocking := some true

def inlineFields : Review.ResultFields (ResultRest sampleRules.unicode) where
  comments := [inlineComment]
  findingLifecycles := []
  reviewVerdict := none
  rest :=
    { provider := "local"
      reviewStatus := .complete
      contentDigest := zeros 64
      publicationDigest := zeros 64 }

def inlineResult : ReviewResult (resultRules sampleResultRules) where
  toResultFields := inlineFields
  accepted := ⟨inlineFields, by rfl⟩

/-- What the publication of the result keeps: nothing in its body blocks. -/
def inlineRecord : ReviewApprovalEligibility sampleRules where
  headSha := zeros 40
  resultDigest := zeros 64
  facts :=
    { enabled := true
      appAuthored := false
      reviewStatus := .complete
      evidencePolicy := .legacy
      hasBlockingFindings := false
      hasHumanAdjudicationFindings := false
      coverageBlocker := none
      provider := some "local"
      accepted := by rfl }

def inlineOutcome : CheckOutcome where
  conclusion := .failure
  title := "Required fixes remain"
  summary := "The completed review reported required fixes for this head. They are listed in the " ++
    "ReviewSensei review comments."

theorem inline_publication :
    freshPublication inlineResult sampleArguments none {} (fun _ => false) .blocking false =
      .ok (inlineOutcome, inlineRecord) := by
  rfl

def inlineScene : Scene sampleRules sampleResultRules where
  result := inlineResult
  bodyPlaced := fun _ => false
  record := inlineRecord
  restated := inlineResult
  fresh := false
  document := _
  restated_ok := by rfl
  digest := rfl
  written := by rfl
  agrees := ⟨rfl, rfl⟩
  text :=
    { printable := fun _ => true
      awareDatetime := fun _ => false
      instant := fun _ => none
      timestamp := fun _ => "" }
  policy := .blocking
  enforced := by decide
  restart := false
  repository := "o/r"
  place := ⟨1, 7, zeros 40, zeros 40⟩
  head := rfl
  command := { dispositions := [], now := 0 }
  threads := []

theorem inline_fresh : inlineScene.outcome .fresh = some inlineOutcome :=
  freshPublication_outcome inlineScene inline_publication

/-- The publication of an inline required fix fails the check, and its replay passes it: no thread
is resolved, and no disposition was made. -/
theorem inline_blocker_forgotten :
    freshPublication inlineScene.result sampleArguments none {} inlineScene.bodyPlaced
        inlineScene.policy inlineScene.restart = .ok (inlineOutcome, inlineScene.record) ∧
      inlineScene.outcome .fresh = some inlineOutcome ∧ inlineOutcome.conclusion = .failure ∧
      (∃ o, inlineScene.outcome .replay = some o ∧ o.conclusion = .success) ∧
      ¬ inlineScene.Sound ∧ ¬ inlineScene.Safe := by
  have hreplay : ∃ o, inlineScene.outcome .replay = some o ∧ o.conclusion = .success := by
    refine ⟨_, replay_outcome, (replay_success replay_outcome).mpr ?_⟩
    exact ⟨rfl, rfl, rfl, rfl, rfl, rfl⟩
  refine ⟨inline_publication, inline_fresh, rfl, hreplay, ?_, ?_⟩
  · intro hsound
    have hentry : indexedFinding sampleRules (fun _ => false) inlineComment ∈ inlineScene.entries :=
      List.mem_cons_self
    rcases hsound.findings _ hentry rfl with hhonored | ⟨_, t, ht, _⟩
    · cases hhonored
    · cases ht
  · intro hsafe
    obtain ⟨o, ho, hpasses⟩ := hreplay
    have hfresh := (hsafe.agree .fresh .replay trivial trivial inlineOutcome o inline_fresh ho).mpr
      hpasses
    cases hfresh

end Sample

end ReviewSensei.Gate
