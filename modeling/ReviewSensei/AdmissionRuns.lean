import ReviewSensei.LaterFindings
import ReviewSensei.Dispositions
import ReviewSensei.Eligibility
import ReviewSensei.FindingRuns

/-! Admission of a whole result, and what it leaves for the approval. -/
namespace ReviewSensei.Convergence
open Session (isSha256 strip bind_ok)
open Review (CommentFields ReviewComment ResultFields ResultRules ReviewResult
  lifecycleFingerprint findingInstanceFingerprint uniqueComments commentDefectKind)
open Disposition (FindingDisposition)

/-- The lines of the paths of a change. -/
abbrev LineMap := Dict String (List Nat)

/-- The arguments of `admit_review_result` beside the result and the policy. `coverageMode` is the
result's own, and `now` the clock of the dispositions. -/
structure AdmissionArguments where
  candidates : Option (List BlockerCandidate) := none
  changedLines : Option LineMap := none
  deletedLines : Option LineMap := none
  baseline : Option ReviewBaseline := none
  changedPaths : Option (List String) := none
  relatedPaths : List String := []
  currentKey : Option CacheKey := none
  evidenceConfirmedConcerns : List String := []
  authorizedDispositions : List FindingDisposition := []
  currentHeadSha : Option String := none
  coverageMode : CoverageMode := .full
  now : Int := 0

/-- `FindingDisposition.honors`. -/
def honors (rules : AdmissionRules) (d : FindingDisposition) (fingerprint : String)
    (headSha : Option String) (now : Int) : Bool :=
  d.action != "accept-coverage-uncertainty" && d.targetKind != some "coverage_uncertainty" &&
    d.fingerprint == fingerprint && (d.headSha.isNone || decide (d.headSha = headSha)) &&
    d.expiresAt.all (fun expires => decide (now < rules.instant expires))

/-- `disposition_honors_fingerprint`, of the instance or of the lifecycle. -/
def honored (rules : AdmissionRules) (args : AdmissionArguments) (c : CommentFields) : Bool :=
  args.authorizedDispositions.any (fun d =>
      honors rules d (findingInstanceFingerprint c) args.currentHeadSha args.now) ||
    args.authorizedDispositions.any (fun d =>
      honors rules d (lifecycleFingerprint rules.lower c) args.currentHeadSha args.now)

/-- `comment_targets_pr_change`. -/
def targetsPrChange (args : AdmissionArguments) (c : CommentFields) : Bool :=
  let on (lines : Option LineMap) : Bool :=
    lines.any (fun map => (map.get? c.path).any (fun allowed => c.line.any (· ∈ allowed)))
  match c.side with
  | .left => on args.deletedLines
  | .right => on args.changedLines
  | .file => false

/-- The changed paths a scope is planned for. -/
def verificationChanged (args : AdmissionArguments) : List String :=
  args.changedPaths.getD
    (((args.changedLines.map Dict.keys).getD [] ++ (args.deletedLines.map Dict.keys).getD []).foldl
      (fun paths path => if path ∈ paths then paths else paths ++ [path]) [])

variable (rules : BaselineRules) (policy : ReviewConvergencePolicy) (args : AdmissionArguments)

/-- The scope, where a baseline and no candidates are given. -/
def plannedScope : Except String (Option (ReviewBaseline × VerificationScope)) :=
  match args.candidates, args.baseline with
  | none, some baseline => do
    let scope ← planVerificationScope rules policy baseline args.currentKey
      (verificationChanged args) args.relatedPaths args.evidenceConfirmedConcerns
      (decide (args.coverageMode ≠ .fallbackFull))
    return some (baseline, scope)
  | _, _ => .ok none

/-- The criterion of the concern that the finding's match has, when it was confirmed. -/
def confirmedCriterion (baseline : ReviewBaseline) (c : CommentFields) : Option String :=
  (matchBaselineFinding rules.toAdmissionRules c baseline).bind (fun matched =>
    matched.concern.bind (fun concern =>
      -- of two findings with one confirmed concern the later one gives the criterion
      ((baseline.findings.filter (fun f => f.concern = some concern ∧
        concern ∈ args.evidenceConfirmedConcerns)).getLast?).map
          BaselineFinding.resolutionCriterion))

/-- What classification is told about a comment. -/
def laterFacts (baseline : ReviewBaseline) (scope : VerificationScope) (c : CommentFields) :
    LaterFacts where
  changedPaths := verificationChanged args
  relatedPaths := scope.relatedPaths
  evidenceCriterion := confirmedCriterion rules args baseline c
  onChangedPath := targetsPrChange args c
  isPreferenceOrOptional := isPreference rules.toAdmissionRules c
  highSignal := decide (policy.quality = .highSignal)

/-- `_require_candidate_matches_comment`. -/
def requireCandidateMatches (candidate : BlockerCandidate) (c : CommentFields) :
    Except String Unit := do
  ensure (candidate.path.isSome = true) "blocker candidate must bind comment identity"
  ensure (candidate.path = some c.path ∧ (∀ side ∈ candidate.side, side = c.side) ∧
      ∀ line ∈ candidate.line, some line = c.line)
    "blocker candidate must match review comment"

/-- The candidate of a comment: given, from the baseline, or from the comment alone. -/
def candidateFor (scope : Option (ReviewBaseline × VerificationScope))
    (given : Option BlockerCandidate) (c : ReviewComment) : Except String BlockerCandidate :=
  match given, scope with
  | some candidate, _ => do
    requireCandidateMatches candidate c.toCommentFields
    return candidate
  | none, some (baseline, scope) => do
    let classification ← classifyLaterFinding rules.toAdmissionRules c baseline scope
      (laterFacts rules policy args baseline scope c.toCommentFields)
    candidateFromLaterFinding rules.toAdmissionRules c.toCommentFields classification
      (targetsPrChange args c.toCommentFields)
  | none, none =>
    deriveBlockerCandidate rules.toAdmissionRules c.toCommentFields
      { onChangedPath := targetsPrChange args c.toCommentFields }

/-- The admission of one comment. -/
def admitComment (scope : Option (ReviewBaseline × VerificationScope))
    (given : Option BlockerCandidate) (c : ReviewComment) : Except String ReviewComment := do
  let candidate ← candidateFor rules policy args scope given c
  let decision ← evaluateBlockerAdmission rules.toAdmissionRules
    { candidate with
      hasAuthorizedDisposition :=
        candidate.hasAuthorizedDisposition || honored rules.toAdmissionRules args c.toCommentFields }
    policy
  return { c with
    effectiveBlocking := some decision.effectiveBlocking
    needsHuman := decision.needsHuman }

variable {ρ : Type} {resultRules : ResultRules ρ}

/-- The given candidate of each comment. -/
def givenCandidates (comments : List ReviewComment) : List (Option BlockerCandidate) :=
  match args.candidates with
  | some candidates => candidates.map some
  | none => comments.map (fun _ => none)

/-- `admit_review_result`. -/
def admitReviewResult (result : ReviewResult resultRules) :
    Except String (ReviewResult resultRules) :=
  match result.reviewVerdict with
  | some verdict => do
    verdict.requirePolicy policy.verdictPolicy
    return result
  | none =>
    if policy.enforcement ≠ .publication then .ok result
    else do
      ensure (∀ candidates ∈ args.candidates, candidates.length = result.comments.length)
        "blocker candidates must align with review comments"
      let scope ← plannedScope rules policy args
      let admitted ← (result.comments.zip (givenCandidates args result.comments)).mapM
        (fun pair => admitComment rules policy args scope pair.2 pair.1)
      ReviewResult.construct resultRules { result.toResultFields with comments := admitted }

section Classified

variable {rules : BaselineRules} {policy : ReviewConvergencePolicy} {args : AdmissionArguments}
variable {baseline : ReviewBaseline} {scope : VerificationScope} {facts : LaterFacts}
variable {c d : ReviewComment}

/-- The scopes that an operator's policy gives a baseline. -/
def VerificationScope.Operated (scope : VerificationScope) : Prop :=
  scope.status = .verify ∨ scope.status = .incompatible ∨ scope.status = .incompleteBaseline

theorem planCompatible_operated {key : CacheKey} {changed related confirmed : List String}
    (h : planCompatible rules baseline key changed related confirmed = .ok scope) :
    scope.Operated := by
  unfold planCompatible at h
  obtain ⟨extra, _, h1⟩ := bind_ok h
  obtain ⟨_, _, h2⟩ := bind_ok h1
  split at h2
  · obtain rfl := Except.ok.inj h2
    exact .inr (.inl rfl)
  · obtain ⟨paths, _, h3⟩ := bind_ok h2
    obtain ⟨reviewed, _, h4⟩ := bind_ok h3
    have hscope := Except.ok.inj h4
    split at hscope
    · rw [← hscope]
      exact .inl rfl
    · rw [← hscope]
      exact .inr (.inl rfl)

theorem planVerificationScope_operated (hmode : policy.mode.operator = true)
    {key : Option CacheKey} {changed related confirmed : List String} {complete : Bool}
    (h : planVerificationScope rules policy baseline key changed related confirmed complete =
      .ok scope) : scope.Operated := by
  unfold planVerificationScope at h
  obtain ⟨paths, _, h1⟩ := bind_ok h
  dsimp only at h1
  rw [if_neg (by rw [hmode]; decide)] at h1
  split at h1
  · next reason _ =>
    obtain ⟨_, _, h2⟩ := bind_ok h1
    obtain rfl := Except.ok.inj h2
    unfold VerificationScope.Operated fallbackScope
    dsimp only
    split
    · exact .inr (.inr rfl)
    · exact .inr (.inl rfl)
  · split at h1
    · obtain ⟨_, _, h2⟩ := bind_ok h1
      obtain ⟨_, _, h3⟩ := bind_ok h2
      obtain rfl := Except.ok.inj h3
      exact .inr (.inr rfl)
    · exact planCompatible_operated h1

/-- The comment is one unique finding of the baseline, seen again under a scope that verifies. -/
def Suppressed (rules : BaselineRules) (baseline : ReviewBaseline) (scope : VerificationScope)
    (c : CommentFields) : Prop :=
  scope.status = .verify ∧
    ∃ f, baselineMatch rules.toAdmissionRules c baseline = .unique f

theorem classifyUnmatched_fresh (fingerprint : String) (c : CommentFields)
    (baseline : ReviewBaseline) (facts : LaterFacts) :
    (classifyUnmatched fingerprint c baseline facts).isDuplicate = false := by
  unfold classifyUnmatched
  dsimp only
  split
  · rfl
  split
  · rfl
  split
  · rfl
  split
  · rfl
  split <;> rfl

/-- A unique match without confirmation is a continuing concern, or a reworded one. -/
theorem classify_unique (hstatus : scope.status = .verify) {f : BaselineFinding}
    (hmatch : baselineMatch rules.toAdmissionRules c.toCommentFields baseline = .unique f)
    (hcriterion : facts.evidenceCriterion = none) :
    classifyLaterFinding rules.toAdmissionRules c baseline scope facts =
      .ok (matchedClassification (lifecycleFingerprint rules.lower c.toCommentFields) f false
        (if facts.onChangedPath then .prChange else .unattributed)) := by
  unfold classifyLaterFinding
  dsimp only
  rw [hstatus, hmatch, hcriterion]
  rfl

/-- Only a finding that is suppressed is a duplicate, and every other finding that the baseline
may have is left to a human. -/
theorem classify_operated (hscope : scope.Operated) {k : LaterFindingClassification}
    (h : classifyLaterFinding rules.toAdmissionRules c baseline scope facts = .ok k) :
    (k.isDuplicate = true ↔ Suppressed rules baseline scope c.toCommentFields) ∧
      (baselineMatch rules.toAdmissionRules c.toCommentFields baseline ≠ .absent →
        k.isDuplicate = false → k.classification = .needsHuman) := by
  unfold classifyLaterFinding at h
  dsimp only at h
  rcases hscope with hstatus | hstatus
  · -- under a verifying scope the match decides
    rw [hstatus] at h
    dsimp only at h
    cases hmatch : baselineMatch rules.toAdmissionRules c.toCommentFields baseline with
    | ambiguous =>
      rw [hmatch] at h
      obtain rfl := Except.ok.inj h
      refine ⟨iff_of_false Bool.false_ne_true ?_, fun _ _ => rfl⟩
      rintro ⟨_, f, hunique⟩
      rw [hmatch] at hunique
      cases hunique
    | absent =>
      rw [hmatch] at h
      obtain ⟨_, _, h1⟩ := bind_ok h
      obtain rfl := Except.ok.inj h1
      refine ⟨iff_of_false ?_ ?_, fun hne => absurd rfl hne⟩
      · rw [classifyUnmatched_fresh]
        decide
      · rintro ⟨_, f, hunique⟩
        rw [hmatch] at hunique
        cases hunique
    | unique f =>
      rw [hmatch] at h
      obtain ⟨_, _, h1⟩ := bind_ok h
      obtain ⟨_, _, h2⟩ := bind_ok h1
      obtain rfl := Except.ok.inj h2
      exact ⟨iff_of_true rfl ⟨hstatus, f, hmatch⟩, fun _ hdup => absurd hdup.symm Bool.false_ne_true⟩
  · -- a fallback suppresses nothing, and spares only a finding the baseline does not have
    have hfresh : ¬ Suppressed rules baseline scope c.toCommentFields := by
      rintro ⟨hverify, _⟩
      rw [hverify] at hstatus
      rcases hstatus with h | h <;> cases h
    have hfallback : k.isDuplicate = false ∧
        (baselineMatch rules.toAdmissionRules c.toCommentFields baseline = .absent ∨
          k.classification = .needsHuman) := by
      rcases hstatus with hs | hs
      all_goals
        rw [hs] at h
        dsimp only at h
        split at h
        · next habsent =>
          obtain rfl := Except.ok.inj h
          exact ⟨rfl, Or.inl habsent⟩
        · obtain rfl := Except.ok.inj h
          exact ⟨rfl, Or.inr rfl⟩
    refine ⟨iff_of_false ?_ hfresh, fun hne _ => hfallback.2.resolve_left hne⟩
    rw [hfallback.1]
    exact Bool.false_ne_true

/-- The fields of an admitted comment are its own; an operator's policy never makes it block. -/
structure Admitted (c d : ReviewComment) (human : Bool) : Prop where
  fields : d.toCommentFields = c.toCommentFields
  not_blocking : d.effectiveBlocking = some false
  human : d.needsHuman = human

/-- What admission makes of a plain candidate that is not a duplicate by itself. -/
theorem admitComment_plain (hmode : policy.mode.operator = true)
    {given : Option (ReviewBaseline × VerificationScope)} {candidate : BlockerCandidate}
    (hcandidate : candidateFor rules policy args given none c = .ok candidate)
    (hplain : candidate.Plain) (h : admitComment rules policy args given none c = .ok d) :
    Admitted c d ({ candidate with
      hasAuthorizedDisposition := candidate.hasAuthorizedDisposition ||
        honored rules.toAdmissionRules args c.toCommentFields } : BlockerCandidate).awaitsHuman := by
  unfold admitComment at h
  obtain ⟨found, hfound, h0⟩ := bind_ok h
  obtain rfl := Except.ok.inj (hcandidate.symm.trans hfound)
  obtain ⟨decision, hdecision, h1⟩ := bind_ok h0
  have hplain' : ({ candidate with
      hasAuthorizedDisposition := candidate.hasAuthorizedDisposition ||
        honored rules.toAdmissionRules args c.toCommentFields } : BlockerCandidate).Plain := hplain
  obtain ⟨expected, hexpected, hblocking, hhuman⟩ :=
    evaluate_plain rules.toAdmissionRules hmode hplain'
  obtain rfl := Except.ok.inj (hexpected.symm.trans hdecision)
  obtain rfl := Except.ok.inj h1
  exact ⟨rfl, congrArg some hblocking, hhuman⟩

/-- On an initial pass a human decides on the findings of a material severity. -/
theorem admit_initial (hmode : policy.mode.operator = true)
    (h : admitComment rules policy args none none c = .ok d) :
    Admitted c d (!honored rules.toAdmissionRules args c.toCommentFields &&
      materialSeverity rules.toAdmissionRules c.severity) := by
  have hok := h
  unfold admitComment at hok
  obtain ⟨candidate, hcandidate, _⟩ := bind_ok hok
  have hderived := construct_candidate hcandidate
  have hplain : candidate.Plain := by
    rw [hderived]
    exact ⟨rfl, rfl, rfl⟩
  have hadmitted := admitComment_plain hmode hcandidate hplain h
  rw [hderived] at hadmitted
  refine ⟨hadmitted.fields, hadmitted.not_blocking, hadmitted.human.trans ?_⟩
  simp [BlockerCandidate.awaitsHuman, candidateOf]

/-- On a later pass what classification leaves to a human is added, and a duplicate is not. -/
theorem admit_later (hmode : policy.mode.operator = true)
    (h : admitComment rules policy args (some (baseline, scope)) none c = .ok d) :
    ∃ k, classifyLaterFinding rules.toAdmissionRules c baseline scope
          (laterFacts rules policy args baseline scope c.toCommentFields) = .ok k ∧
      Admitted c d (!k.isDuplicate && !honored rules.toAdmissionRules args c.toCommentFields &&
        (decide (k.classification = .needsHuman) ||
          materialSeverity rules.toAdmissionRules c.severity)) := by
  have hok := h
  unfold admitComment at hok
  obtain ⟨candidate, hcandidate, _⟩ := bind_ok hok
  obtain ⟨k, hk, hfrom⟩ := bind_ok hcandidate
  obtain ⟨derived, hconstruct, hreturn⟩ := bind_ok hfrom
  have hderived := construct_candidate hconstruct
  have hreplaced := (Except.ok.inj hreturn).symm
  have hplain : candidate.Plain := by
    rw [hreplaced, hderived]
    exact ⟨rfl, rfl, rfl⟩
  have hadmitted := admitComment_plain hmode hcandidate hplain h
  rw [hreplaced, hderived] at hadmitted
  refine ⟨k, hk, hadmitted.fields, hadmitted.not_blocking, hadmitted.human.trans ?_⟩
  simp [BlockerCandidate.awaitsHuman, candidateOf]

end Classified

section Whole

theorem mapM_forall {α β : Type} {f : α → Except String β} {xs : List α} {ys : List β}
    (h : xs.mapM f = .ok ys) : List.Forall₂ (fun x y => f x = .ok y) xs ys := by
  induction xs generalizing ys with
  | nil =>
    obtain rfl := Except.ok.inj h
    exact .nil
  | cons x rest ih =>
    rw [List.mapM_cons] at h
    obtain ⟨y, hy, h1⟩ := bind_ok h
    obtain ⟨more, hmore, h2⟩ := bind_ok h1
    obtain rfl := Except.ok.inj h2
    exact .cons hy (ih hmore)

variable {rules : BaselineRules} {policy : ReviewConvergencePolicy} {args : AdmissionArguments}
variable {ρ : Type} {resultRules : ResultRules ρ}

/-- Comments that keep their fields keep their keys. -/
theorem keys_of_forall {xs ys : List ReviewComment}
    (h : List.Forall₂ (fun c d => d.toCommentFields = c.toCommentFields) xs ys) :
    ys.map (fun c => c.key) = xs.map (fun c => c.key) := by
  induction h with
  | nil => rfl
  | cons hfields _ ih => rw [List.map_cons, List.map_cons, ih, hfields]

/-- Every comment of a result without a verdict is admitted in its place, under one scope. -/
theorem admitReviewResult_comments (hmode : policy.mode.operator = true)
    (hcandidates : args.candidates = none) {result admitted : ReviewResult resultRules}
    (hverdict : result.reviewVerdict = none)
    (h : admitReviewResult rules policy args result = .ok admitted) :
    ∃ scope comments, plannedScope rules policy args = .ok scope ∧
      List.Forall₂ (fun c d => admitComment rules policy args scope none c = .ok d)
        result.comments comments ∧
      uniqueComments comments = .ok admitted.comments ∧
      admitted.rest = result.rest ∧ admitted.reviewVerdict = none := by
  unfold admitReviewResult at h
  rw [hverdict] at h
  dsimp only at h
  rw [if_neg (by rw [policy.operator_publishes hmode]; decide)] at h
  obtain ⟨_, _, h1⟩ := bind_ok h
  obtain ⟨scope, hscope, h2⟩ := bind_ok h1
  obtain ⟨comments, hcomments, h3⟩ := bind_ok h2
  obtain ⟨_, hunique, _, hsame, hrest⟩ := Review.check_ok (Review.construct_ok h3)
  refine ⟨scope, comments, hscope, ?_, hunique, hrest, hsame.trans hverdict⟩
  have hgiven : result.comments.zip (givenCandidates args result.comments) =
      result.comments.map (fun c => (c, none)) := by
    unfold givenCandidates
    rw [hcandidates]
    dsimp only
    induction result.comments with
    | nil => rfl
    | cons c rest ih => rw [List.map_cons, List.zip_cons_cons, ih, List.map_cons]
  rw [hgiven] at hcomments
  exact List.forall₂_map_left_iff.mp (mapM_forall hcomments)

/-- What a later pass leaves of a comment, beside what an initial pass would. -/
structure Readmitted (rules : BaselineRules) (policy : ReviewConvergencePolicy)
    (args : AdmissionArguments) (baseline : ReviewBaseline) (scope : VerificationScope)
    (c d : ReviewComment) : Prop where
  fields : d.toCommentFields = c.toCommentFields
  not_blocking : d.effectiveBlocking = some false
  /-- A duplicate is left to nobody. -/
  suppressed : Suppressed rules baseline scope c.toCommentFields → d.needsHuman = false
  /-- Any other finding that the baseline may have is left to a human. -/
  matched : baselineMatch rules.toAdmissionRules c.toCommentFields baseline ≠ .absent →
    honored rules.toAdmissionRules args c.toCommentFields = false →
    ¬ Suppressed rules baseline scope c.toCommentFields → d.needsHuman = true
  /-- Nothing else that an initial pass withholds is given up. -/
  initial : ∀ first,
    admitComment rules policy { args with baseline := none } none none c = .ok first →
    first.effectiveBlocking = some true ∨ first.needsHuman = true →
    ¬ Suppressed rules baseline scope c.toCommentFields → d.needsHuman = true

theorem readmitted (hmode : policy.mode.operator = true) {baseline : ReviewBaseline}
    {scope : VerificationScope} (hscope : scope.Operated) {c d : ReviewComment}
    (h : admitComment rules policy args (some (baseline, scope)) none c = .ok d) :
    Readmitted rules policy args baseline scope c d := by
  obtain ⟨k, hk, hfields, hblocking, hhuman⟩ := admit_later hmode h
  obtain ⟨hduplicate, hleft⟩ := classify_operated hscope hk
  have hfresh : ¬ Suppressed rules baseline scope c.toCommentFields → k.isDuplicate = false :=
    fun hnot => Bool.eq_false_iff.mpr (fun hdup => hnot (hduplicate.mp hdup))
  refine ⟨hfields, hblocking, ?_, ?_, ?_⟩
  · intro hsuppressed
    rw [hhuman, hduplicate.mpr hsuppressed]
    rfl
  · intro hmatch hhonored hnot
    rw [hhuman, hfresh hnot, hhonored, decide_eq_true (hleft hmatch (hfresh hnot))]
    rfl
  · intro first hfirst hwithheld hnot
    obtain ⟨_, hfirstBlocking, hfirstHuman⟩ := admit_initial hmode hfirst
    have hneeded : first.needsHuman = true := by
      rcases hwithheld with hblocks | hneeds
      · rw [hfirstBlocking] at hblocks
        cases hblocks
      · exact hneeds
    -- what the initial pass asks for is one of the two reasons of the later one
    have hobligation : (!honored rules.toAdmissionRules args c.toCommentFields &&
        materialSeverity rules.toAdmissionRules c.severity) = true := hfirstHuman.symm.trans hneeded
    obtain ⟨hopen, hmaterial⟩ := Bool.and_eq_true_iff.mp hobligation
    rw [hhuman, hfresh hnot, hopen, hmaterial, Bool.or_true]
    rfl

end Whole

section Approvals
open Approval (FactFields Qualification evaluateApprovalFacts evaluate_approved resultFacts
  ResultRest hasHumanAdjudicationFindings)

variable {rules : BaselineRules} {policy : ReviewConvergencePolicy} {args : AdmissionArguments}
variable {others : ResultRules (ResultRest rules.unicode)}

/-- A comment that a human has to decide on withholds the approval, whatever else is known. -/
theorem human_withholds {result : ReviewResult (Approval.resultRules others)} {c : ReviewComment}
    (hc : c ∈ result.comments) (hhuman : c.needsHuman = true) (enabled appAuthored : Bool)
    (q : Qualification) (checkPublished : Bool) (threads : Option Bool) (accepted : Bool) :
    (evaluateApprovalFacts (@resultFacts rules.toRules others result enabled appAuthored q
      checkPublished threads) accepted).approved = false := by
  rw [Bool.eq_false_iff]
  intro happroved
  have hclear := ((evaluate_approved _ _).mp happroved).1.no_human
  have hany : hasHumanAdjudicationFindings result.comments = true :=
    List.any_eq_true.mpr ⟨c, hc, hhuman⟩
  exact absurd (hany.symm.trans hclear) (by decide)

/-- A concern that the baseline already has, and that no disposition honors, keeps withholding the
approval unless it is suppressed as a duplicate of one unique finding; and nothing that an initial
pass would withhold is given up otherwise. -/
theorem continuing_concerns_withhold (hmode : policy.mode.operator = true)
    (hcandidates : args.candidates = none) {baseline : ReviewBaseline}
    (hbaseline : args.baseline = some baseline)
    {result admitted : ReviewResult (Approval.resultRules others)}
    (hverdict : result.reviewVerdict = none)
    (h : admitReviewResult rules policy args result = .ok admitted) :
    ∃ scope, plannedScope rules policy args = .ok (some (baseline, scope)) ∧
      List.Forall₂ (Readmitted rules policy args baseline scope) result.comments
        admitted.comments ∧
      ∀ c ∈ result.comments,
        baselineMatch rules.toAdmissionRules c.toCommentFields baseline ≠ .absent →
        honored rules.toAdmissionRules args c.toCommentFields = false →
        ¬ Suppressed rules baseline scope c.toCommentFields →
        ∀ enabled appAuthored q checkPublished threads accepted,
          (evaluateApprovalFacts (@resultFacts rules.toRules others admitted enabled appAuthored
            q checkPublished threads) accepted).approved = false := by
  obtain ⟨planned, comments, hplanned, hcomments, hunique, _⟩ :=
    admitReviewResult_comments hmode hcandidates hverdict h
  have hplan := hplanned
  unfold plannedScope at hplan
  rw [hcandidates, hbaseline] at hplan
  obtain ⟨scope, hscope, hreturn⟩ := bind_ok hplan
  obtain rfl := Except.ok.inj hreturn
  have hoperated := planVerificationScope_operated hmode hscope
  have hreadmitted : List.Forall₂ (Readmitted rules policy args baseline scope) result.comments
      comments := hcomments.imp fun _ _ hadmit => readmitted hmode hoperated hadmit
  -- the admitted comments keep their keys, so that none is taken for a duplicate of another
  have hkeys := keys_of_forall (hreadmitted.imp fun _ _ hr => hr.fields)
  have hall : admitted.comments = comments :=
    (Review.uniqueComments_ok hunique).2.2.2 (hkeys ▸ result.keys_nodup)
  rw [← hall] at hreadmitted
  refine ⟨scope, hplanned, hreadmitted, ?_⟩
  intro c hc hmatch hhonored hnot enabled appAuthored q checkPublished threads accepted
  obtain ⟨d, hd, hr⟩ := Findings.exists_right_of_mem hreadmitted hc
  exact human_withholds hd (hr.matched hmatch hhonored hnot) enabled appAuthored q checkPublished
    threads accepted

section Sample

/-- Rules for the ASCII texts of the sample. -/
def sampleBaselineRules : BaselineRules where
  unicode := { nfc := fun _ => true, forbidden := fun _ => false }
  lower := fun s => String.ofList (s.toList.map Char.toLower)
  codec := { compress := fun _ => [], inflate := fun _ => none, loads := fun _ => none }
  casefold := fun s => String.ofList (s.toList.map Char.toLower)
  printable := fun _ => true
  instant := fun _ => 0
  historyFits := fun _ => true

def sampleOthers : ResultRules (ResultRest sampleBaselineRules.unicode) where
  handoff := fun _ => .ok ()
  fields := fun _ => .ok ()
  bounds := fun _ => .ok ()
  reread := .ok

def samplePolicy : ReviewConvergencePolicy where
  enforcement := .publication
  operator_publishes := fun _ => rfl
  attempts := by decide

def sampleComment : ReviewComment where
  path := "a.py"
  line := some 1
  body := "The loop never ends."
  severity := some "high"
  line_side := Review.right_line

/-- The concern of the comment, as a blocking finding of the baseline. -/
def sampleConcern : BaselineFinding where
  fingerprint := lifecycleFingerprint sampleBaselineRules.lower sampleComment.toCommentFields
  resolutionCriterion := ""
  path := some "a.py"
  blocking := true

def sampleBaseline : ReviewBaseline where
  cacheKey := {
    repository := "o/r"
    pullRequest := 1
    baseSha := "b"
    headSha := "h"
    engine := "e"
    model := "m"
    profile := "p"
    stageDigest := "s"
    contextDigest := "c"
    learningDigest := "l" }
  policyDigest := samplePolicy.digest
  complete := true
  findings := [sampleConcern]
  reviewedPaths := ["a.py"]

def sampleAdmission : AdmissionArguments where
  baseline := some sampleBaseline
  changedPaths := some ["a.py"]

def sampleScope : VerificationScope where
  status := .verify
  roundKind := .verification
  lateAdmissionRequired := true
  coverageMode := .incremental
  reviewedPaths := ["a.py"]
  relatedPaths := []
  changedPaths := ["a.py"]
  existingConcerns := 1

def sampleFields (admitted : ReviewComment) :
    ResultFields (ResultRest sampleBaselineRules.unicode) where
  comments := [admitted]
  findingLifecycles := []
  reviewVerdict := none
  rest :=
    { provider := "local"
      reviewStatus := .complete
      contentDigest := ""
      publicationDigest := "" }

theorem sample_rest (admitted : ReviewComment) :
    Approval.checkRest (sampleFields admitted) = .ok () := by
  have hprovider : strip (sampleFields admitted).rest.provider ≠ "" :=
    (by decide : strip "local" ≠ "")
  unfold Approval.checkRest
  rw [ensure_bind (fun h => nomatch h), ensure_bind (fun h => nomatch h), ensure_ok hprovider]

theorem sampleFields_check (admitted : ReviewComment) :
    (sampleFields admitted).check (Approval.resultRules sampleOthers) =
      .ok (sampleFields admitted) := by
  have hfields : (Approval.resultRules sampleOthers).fields (sampleFields admitted) = .ok () := by
    have hrest := sample_rest admitted
    unfold Approval.resultRules
    dsimp only
    rw [hrest]
    rfl
  unfold ResultFields.check
  rw [hfields]
  rfl

def sampleReview (admitted : ReviewComment) : ReviewResult (Approval.resultRules sampleOthers) where
  toResultFields := sampleFields admitted
  accepted := ⟨sampleFields admitted, sampleFields_check admitted⟩

theorem sample_compatible :
    evaluateBaselineCompatibility sampleBaseline sampleBaseline.cacheKey samplePolicy = none := by
  simp [evaluateBaselineCompatibility, sampleBaseline, CacheKey.compatible]

theorem sample_scope :
    plannedScope sampleBaselineRules samplePolicy sampleAdmission =
      .ok (some (sampleBaseline, sampleScope)) := by
  have hpaths : boundedPaths sampleBaselineRules.toAdmissionRules "changed" ["a.py"] =
      .ok ["a.py"] := by rfl
  have hplan : planVerificationScope sampleBaselineRules samplePolicy sampleBaseline none ["a.py"] []
      [] true = .ok sampleScope := by
    unfold planVerificationScope
    rw [ok_bind hpaths]
    dsimp only [Option.getD_none]
    rw [sample_compatible]
    rfl
  exact congrArg (fun r => r >>= fun scope => Except.ok (some (sampleBaseline, scope))) hplan

theorem sample_match :
    baselineMatch sampleBaselineRules.toAdmissionRules sampleComment.toCommentFields
      sampleBaseline = .unique sampleConcern := by
  have hidentity : sampleBaseline.findings.filter (fun f =>
      f.identityKey = ("a.py", "", commentDefectKind sampleComment.toCommentFields)) =
        [sampleConcern] := by rfl
  have hfingerprint : sampleBaseline.findings.filter (fun f => f.fingerprint =
      lifecycleFingerprint sampleBaselineRules.lower sampleComment.toCommentFields) =
        [sampleConcern] := List.filter_eq_self.mpr (by
    intro f hf
    rw [List.mem_singleton.mp hf]
    exact decide_eq_true rfl)
  unfold baselineMatch
  dsimp only
  rw [show (sampleComment.path, sampleComment.symbol.getD "",
    commentDefectKind sampleComment.toCommentFields) = ("a.py", "", commentDefectKind
      sampleComment.toCommentFields) from rfl, hidentity, hfingerprint]
  rfl

/-- The sample's comment with an admission that never blocks. -/
def sampleAdmitted (human : Bool) : ReviewComment :=
  { sampleComment with effectiveBlocking := some false, needsHuman := human }

theorem sample_facts :
    (laterFacts sampleBaselineRules samplePolicy sampleAdmission sampleBaseline sampleScope
      sampleComment.toCommentFields).evidenceCriterion = none := by
  unfold laterFacts confirmedCriterion matchBaselineFinding
  dsimp only
  rw [sample_match]
  rfl

theorem sample_classified :
    classifyLaterFinding sampleBaselineRules.toAdmissionRules sampleComment sampleBaseline
        sampleScope (laterFacts sampleBaselineRules samplePolicy sampleAdmission sampleBaseline
          sampleScope sampleComment.toCommentFields) =
      .ok (matchedClassification (lifecycleFingerprint sampleBaselineRules.lower
        sampleComment.toCommentFields) sampleConcern false .unattributed) := by
  exact classify_unique rfl sample_match sample_facts

theorem sample_suppressed :
    admitComment sampleBaselineRules samplePolicy sampleAdmission
      (some (sampleBaseline, sampleScope)) none sampleComment = .ok (sampleAdmitted false) := by
  unfold admitComment candidateFor
  dsimp only
  rw [ok_bind sample_classified]
  rfl

theorem sample_initial :
    admitComment sampleBaselineRules samplePolicy { sampleAdmission with baseline := none } none
      none sampleComment = .ok (sampleAdmitted true) := by
  rfl

theorem sample_admitted :
    admitReviewResult sampleBaselineRules samplePolicy sampleAdmission
      (sampleReview sampleComment) = .ok (sampleReview (sampleAdmitted false)) := by
  have hcheck : ReviewResult.construct (Approval.resultRules sampleOthers)
      (sampleFields (sampleAdmitted false)) = .ok (sampleReview (sampleAdmitted false)) :=
    Review.construct_of_check (sampleFields_check _)
  have hcomments : ([sampleComment].zip (givenCandidates sampleAdmission [sampleComment])).mapM
      (fun pair => admitComment sampleBaselineRules samplePolicy sampleAdmission
        (some (sampleBaseline, sampleScope)) pair.2 pair.1) = .ok [sampleAdmitted false] :=
    congrArg (fun r => r >>= fun d => Except.ok [d]) sample_suppressed
  have hgiven : ∀ candidates ∈ sampleAdmission.candidates,
      candidates.length = (sampleReview sampleComment).comments.length := fun _ h => nomatch h
  unfold admitReviewResult
  rw [show (sampleReview sampleComment).reviewVerdict = none from rfl]
  dsimp only
  rw [if_neg (by decide), ensure_bind hgiven, ok_bind sample_scope]
  exact (ok_bind hcomments _).trans hcheck

theorem sample_passes :
    (evaluateApprovalFacts (@resultFacts sampleBaselineRules.toRules _
      (sampleReview (sampleAdmitted false)) true false .notRequired true (some false))
      false).approved = true := by
  rfl

/-- A severe finding that the baseline has as an open blocker is suppressed as its duplicate, and
the admitted result is approved; on an initial pass a human would have had to decide on it. -/
theorem continuing_concern_approved :
    sampleBaseline.findings = [sampleConcern] ∧ sampleConcern.blocking = true ∧
      matchBaselineFinding sampleBaselineRules.toAdmissionRules sampleComment.toCommentFields
        sampleBaseline = some sampleConcern ∧
      sampleAdmission.evidenceConfirmedConcerns = [] ∧
      sampleAdmission.authorizedDispositions = [] ∧
      admitComment sampleBaselineRules samplePolicy { sampleAdmission with baseline := none } none
        none sampleComment = .ok (sampleAdmitted true) ∧
      admitReviewResult sampleBaselineRules samplePolicy sampleAdmission
        (sampleReview sampleComment) = .ok (sampleReview (sampleAdmitted false)) ∧
      (evaluateApprovalFacts (@resultFacts sampleBaselineRules.toRules _
        (sampleReview (sampleAdmitted false)) true false .notRequired true (some false))
        false).approved = true := by
  have hmatch : matchBaselineFinding sampleBaselineRules.toAdmissionRules
      sampleComment.toCommentFields sampleBaseline = some sampleConcern := by
    unfold matchBaselineFinding
    rw [sample_match]
  exact ⟨rfl, rfl, hmatch, rfl, rfl, sample_initial, sample_admitted, sample_passes⟩

theorem sample_continuing :
    ∃ scope, plannedScope sampleBaselineRules samplePolicy sampleAdmission =
        .ok (some (sampleBaseline, scope)) ∧
      List.Forall₂ (Readmitted sampleBaselineRules samplePolicy sampleAdmission sampleBaseline
        scope) [sampleComment] [sampleAdmitted false] := by
  obtain ⟨scope, hscope, hreadmitted, _⟩ :=
    continuing_concerns_withhold rfl rfl rfl rfl sample_admitted
  exact ⟨scope, hscope, hreadmitted⟩

end Sample

end Approvals

end ReviewSensei.Convergence
