import ReviewSensei.ScopePlanSteps
import ReviewSensei.BaselineHistory
import ReviewSensei.AdmissionRuns
import ReviewSensei.GitPaths

/-! The plan of a later pass: what every returned scope covers, and when none is returned. -/
namespace ReviewSensei.Convergence
open Session (bind_ok isSha256)
open Diff (validateRepositoryPath)

section Property
variable (rules : AdmissionRules) (policy : ReviewConvergencePolicy) (args : ScopeArguments)

/-- The key that the baseline is compared with. -/
def ScopeArguments.key (args : ScopeArguments) (baseline : ReviewBaseline) : CacheKey :=
  args.currentKey.getD baseline.cacheKey

/-- What a scope that verifies against a baseline has to have. -/
structure VerifiedScope (baseline : ReviewBaseline) (planned : PlannedScope) : Prop where
  complete : baseline.complete = true ∧ baseline.coverageComplete = true
  policy : policy.digest = baseline.policyDigest
  key : args.key baseline = { baseline.cacheKey with headSha := (args.key baseline).headSha }
  context : args.contextComplete = true
  changed : ∀ p ∈ args.changedPaths, p ∈ planned.scope.reviewedPaths
  reviewed : ∀ p ∈ baseline.reviewedPaths, p ∈ planned.scope.reviewedPaths
  related : ∀ p, (p ∈ planned.scope.relatedPaths ∨ p ∈ baseline.relatedPaths ∨
    ∃ given ∈ args.relatedPaths, p ∈ given) → p ∈ planned.scope.reviewedPaths
  findings : ∀ f ∈ baseline.findings, ∀ p ∈ f.path, p ∈ planned.scope.reviewedPaths
  records : ∃ plan, planned.incremental = some plan ∧
    plan.previousFindings = baseline.findings.map BaselineFinding.toPrevious ∧
    plan.reviewedPaths = planned.scope.reviewedPaths ∧
    plan.relatedPaths = planned.scope.relatedPaths
  fits : ∃ document, historyDocument rules {} (extendBaseline baseline (args.key baseline)
    planned.scope.reviewedPaths planned.scope.relatedPaths) args.baselineBytes true = .ok document

/-- What a plan may return. -/
structure SoundPlan (planned : PlannedScope) : Prop where
  verified : planned.scope.status = .verify → ∃ baseline, args.baseline = some baseline ∧
    VerifiedScope rules policy args baseline planned
  fallback : planned.scope.status ≠ .verify →
    (planned.scope.coverageMode = .full ∨ planned.scope.coverageMode = .fallbackFull) ∧
      (∀ p ∈ args.changedPaths, p ∈ planned.scope.reviewedPaths) ∧
      planned.scope.lateAdmissionRequired = false

/-- The baseline is compatible and its context complete, so that the unions are formed. -/
def ReachesUnions (baseline : ReviewBaseline) : Prop :=
  evaluateBaselineCompatibility baseline (args.key baseline) policy = none ∧
    args.contextComplete = true

/-- Related paths are derived only where no changed path has a glob token, and a union of related
paths that fits leaves one of reviewed paths that fits. -/
structure Plannable (changed : List String) : Prop where
  derivable : args.relatedPaths = none →
    (∀ baseline ∈ args.baseline, ReachesUnions policy args baseline) → GlobFree rules changed
  fits : ∀ baseline ∈ args.baseline, ReachesUnions policy args baseline →
    ∀ extra, extraRelated rules args changed = .ok extra →
      (baseline.relatedPaths ++ extra).dedup.length ≤ maxRelatedPaths →
        (unionPaths baseline changed (baseline.relatedPaths ++ extra)).dedup.length ≤
          maxCacheMetadataItems

end Property

section Scopes
variable {rules : AdmissionRules} {baseline : ReviewBaseline} {changed related : List String}

theorem scopeOf_ok {s : VerificationScope} {incremental : Option IncrementalPlan}
    (hreviewed : GoodPaths rules "reviewed" s.reviewedPaths)
    (hrelated : GoodPaths rules "related" s.relatedPaths)
    (hfew : s.relatedPaths.length ≤ maxRelatedPaths)
    (hchanged : GoodPaths rules "changed" s.changedPaths)
    (hconcerns : s.existingConcerns ≤ maxCacheMetadataItems)
    (hverify : s.status = .verify → s.lateAdmissionRequired = true ∧
      s.coverageMode = .incremental ∧ incremental.isSome = true)
    (hlate : s.lateAdmissionRequired = true → s.roundKind = .verification)
    (hlegacy : s.status = .legacyUnscoped → s.roundKind = .none)
    (hinvalid : s.status = .incompatible ∨ s.status = .incompleteBaseline →
      s.coverageMode = .fallbackFull ∧ s.lateAdmissionRequired = false) :
    scopeOf rules s incremental = .ok ⟨s, incremental⟩ := by
  unfold scopeOf
  rw [ok_bind (boundedPaths_ok hreviewed), ok_bind (boundedRelatedPaths_of_good hrelated hfew),
    ok_bind (boundedPaths_ok hchanged), ensure_bind hconcerns,
    ensure_bind (fun h => (hverify h).1), ensure_bind hlate, ensure_bind (fun h => (hverify h).2.1),
    ensure_bind (fun h => (hverify h).2.2), ensure_bind hlegacy,
    ensure_bind (fun h => (hinvalid h).1), ensure_bind (fun h => (hinvalid h).2)]
  rfl

theorem goodPaths_nil {label : String} : GoodPaths rules label [] :=
  ⟨fun _ hp => absurd hp List.not_mem_nil, List.nodup_nil, Nat.zero_le _⟩

theorem fallback_ok {status : ScopeStatus} {reason : InvalidationReason}
    (hstatus : status = .incompatible ∨ status = .incompleteBaseline)
    (hchanged : GoodPaths rules "changed" changed)
    (hfindings : baseline.findings.length ≤ maxCacheMetadataItems) :
    scopeOf rules (fallbackScope status reason baseline changed) none =
      .ok ⟨fallbackScope status reason baseline changed, none⟩ := by
  have hverify : status ≠ .verify := by
    rintro rfl
    exact hstatus.elim nofun nofun
  have hlegacy : status ≠ .legacyUnscoped := by
    rintro rfl
    exact hstatus.elim nofun nofun
  exact scopeOf_ok hchanged.relabel goodPaths_nil (Nat.zero_le _) hchanged hfindings
    (fun h => absurd h hverify) nofun (fun h => absurd h hlegacy) (fun _ => ⟨rfl, rfl⟩)

theorem initial_ok (hchanged : GoodPaths rules "changed" changed)
    (hrelated : GoodPaths rules "related" related) (hfew : related.length ≤ maxRelatedPaths) :
    scopeOf rules (initialScope changed related) none = .ok ⟨initialScope changed related, none⟩ :=
  scopeOf_ok hchanged.relabel hrelated hfew hchanged (Nat.zero_le _) nofun nofun nofun
    (fun h => h.elim nofun nofun)

theorem verify_ok {reviewed : List String} {plan : IncrementalPlan}
    (hreviewed : GoodPaths rules "reviewed" reviewed) (hrelated : GoodPaths rules "related" related)
    (hfew : related.length ≤ maxRelatedPaths) (hchanged : GoodPaths rules "changed" changed)
    (hfindings : baseline.findings.length ≤ maxCacheMetadataItems) :
    scopeOf rules (verifyScope baseline reviewed related changed) (some plan) =
      .ok ⟨verifyScope baseline reviewed related changed, some plan⟩ :=
  scopeOf_ok hreviewed hrelated hfew hchanged hfindings (fun _ => ⟨rfl, rfl, rfl⟩) (fun _ => rfl)
    nofun (fun h => h.elim nofun nofun)

end Scopes

section Checks
variable {rules : AdmissionRules} {policy : ReviewConvergencePolicy} {baseline : ReviewBaseline}
  {f : BaselineFinding}

/-- What the constructor of a finding has checked. -/
theorem finding_ok (h : f.check rules = .ok ()) :
    isSha256 f.fingerprint = true ∧ (∀ concern ∈ f.concern, isSha256 concern = true) ∧
      ∀ path ∈ f.path,
        validateRepositoryPath rules.unicode "baseline finding path" true path.toList = .ok () := by
  unfold BaselineFinding.check at h
  obtain ⟨_, hfingerprint, h⟩ := bind_ok h
  obtain ⟨_, _, h⟩ := bind_ok h
  obtain ⟨_, hconcern, h⟩ := bind_ok h
  obtain ⟨_, hpath, _⟩ := bind_ok h
  refine ⟨ensure_inv hfingerprint, ensure_inv hconcern, fun path hmem => ?_⟩
  rw [show f.path = some path from hmem] at hpath
  exact hpath

theorem previous_ok (h : f.check rules = .ok ()) : f.toPrevious.check rules = .ok () := by
  obtain ⟨hfingerprint, hconcern, hpath⟩ := finding_ok h
  have hvalid : f.path.forM (fun path => validateRepositoryPath rules.unicode
      "finding lifecycle path" true path.toList) = .ok () := by
    cases hf : f.path with
    | none => rfl
    | some path => exact validate_relabel id (hpath path hf)
  unfold PreviousFinding.check BaselineFinding.toPrevious
  dsimp only
  rw [ensure_bind hfingerprint, ensure_bind hconcern]
  exact hvalid

/-- One reason that does not apply. -/
theorem no_reason {c : Prop} [Decidable c] {reason : InvalidationReason}
    {x : Option InvalidationReason} (h : (if c then some reason else x) = none) :
    ¬ c ∧ x = none := by
  split at h
  · cases h
  · next hc => exact ⟨hc, h⟩

theorem compatible_facts {key : CacheKey}
    (h : evaluateBaselineCompatibility baseline key policy = none) :
    (baseline.complete = true ∧ baseline.coverageComplete = true) ∧
      policy.digest = baseline.policyDigest ∧
      key = { baseline.cacheKey with headSha := key.headSha } := by
  unfold evaluateBaselineCompatibility at h
  dsimp only at h
  obtain ⟨hcomplete, h⟩ := no_reason h
  obtain ⟨hcovered, h⟩ := no_reason h
  obtain ⟨hpolicy, h⟩ := no_reason h
  -- the single fields of the key are compared before the key as a whole
  iterate 7 obtain ⟨_, h⟩ := no_reason h
  obtain ⟨hkey, _⟩ := no_reason h
  rw [Bool.not_eq_false] at hcomplete hcovered hkey
  exact ⟨⟨hcomplete, hcovered⟩, not_not.mp hpolicy, of_decide_eq_true hkey⟩

theorem plan_ok {args : ScopeArguments} {reviewed related : List String} {label label' : String}
    (hvalid : baseline.Valid rules) (hreviewed : GoodPaths rules label reviewed)
    (hrelated : GoodPaths rules label' related)
    (hconfirmed : ∀ item ∈ args.confirmedConcerns, isSha256 item = true) :
    (incrementalPlan args baseline reviewed related).check rules = .ok () := by
  obtain ⟨_, hfindings, _⟩ := construct_good hvalid.fields
  have hreviewed' : GoodPaths rules "incremental reviewed path" reviewed := hreviewed.relabel
  have hrelated' : GoodPaths rules "incremental related path" related := hrelated.relabel
  have hblank : ¬ "" ∈ reviewed := fun h => ne_of_validate (hreviewed'.valid "" h) rfl
  have hblank' : ¬ "" ∈ related := fun h => ne_of_validate (hrelated'.valid "" h) rfl
  unfold IncrementalPlan.check incrementalPlan
  dsimp only
  rw [ensure_bind (by rwa [List.length_map]), ensure_bind hblank,
    ok_bind (forM_iff.mpr hreviewed'.valid), ensure_bind hblank',
    ok_bind (forM_iff.mpr hrelated'.valid)]
  exact ensure_ok hconfirmed

end Checks

section Planned
variable {rules : AdmissionRules} {policy : ReviewConvergencePolicy} {args : ScopeArguments}
  {baseline : ReviewBaseline} {changed extra : List String}

/-- A fallback scope is sound as far as the changed paths are concerned. -/
theorem fallback_sound {status : ScopeStatus} {reason : InvalidationReason}
    (hstatus : status ≠ .verify) (hmem : ∀ p, p ∈ changed ↔ p ∈ args.changedPaths) :
    SoundPlan rules policy args ⟨fallbackScope status reason baseline changed, none⟩ :=
  ⟨fun h => absurd h hstatus, fun _ => ⟨.inr rfl, fun p hp => (hmem p).mpr hp, rfl⟩⟩

/-- What the unions are made of. -/
structure Groups (rules : AdmissionRules) (args : ScopeArguments) (baseline : ReviewBaseline)
    (changed extra : List String) : Prop where
  valid : baseline.Valid rules
  changedGood : GoodPaths rules "changed" changed
  mem : ∀ p, p ∈ changed ↔ p ∈ args.changedPaths
  extraGood : GoodPaths rules "related" extra
  given : ∀ given ∈ args.relatedPaths, ∀ p ∈ given, p ∈ extra
  confirmed : ∀ item ∈ args.confirmedConcerns, isSha256 item = true

/-- The union of the related paths. -/
theorem Groups.related_good (h : Groups rules args baseline changed extra) {related : List String}
    (hnodup : related.Nodup) (hfew : related.length ≤ maxRelatedPaths)
    (hmem : ∀ p, p ∈ related ↔ p ∈ baseline.relatedPaths ++ extra) :
    GoodPaths rules "related" related := by
  obtain ⟨_, _, _, hrelated, _⟩ := construct_good h.valid.fields
  refine ⟨fun p hp => ?_, hnodup, Nat.le_trans hfew (by decide)⟩
  rcases List.mem_append.mp ((hmem p).mp hp) with hp | hp
  · exact hrelated.valid p hp
  · exact h.extraGood.valid p hp

/-- The union of the reviewed paths. -/
theorem Groups.reviewed_good (h : Groups rules args baseline changed extra)
    {related reviewed : List String} (hrelated : GoodPaths rules "related" related)
    (hnodup : reviewed.Nodup) (hfew : reviewed.length ≤ maxCacheMetadataItems)
    (hmem : ∀ p, p ∈ reviewed ↔ p ∈ unionPaths baseline changed related) :
    GoodPaths rules "reviewed" reviewed := by
  obtain ⟨_, _, hreviewed, _, _⟩ := construct_good h.valid.fields
  refine ⟨fun p hp => ?_, hnodup, hfew⟩
  have hp := (hmem p).mp hp
  unfold unionPaths at hp
  rw [List.mem_append, List.mem_append, List.mem_append, List.mem_filterMap] at hp
  rcases hp with ((⟨f, hf, hpath⟩ | hp) | hp) | hp
  · exact validate_relabel id ((finding_ok (h.valid.findings f hf)).2.2 p hpath)
  · exact hreviewed.valid p hp
  · exact validate_relabel id (h.changedGood.valid p hp)
  · exact validate_relabel id (hrelated.valid p hp)

/-- Unions that fit give a scope: the verification where its history fits, else the fallback. -/
theorem Groups.planIncremental (h : Groups rules args baseline changed extra)
    (hreach : ReachesUnions policy args baseline) (hbaseline : args.baseline = some baseline)
    {related reviewed : List String} (hrelated : GoodPaths rules "related" related)
    (hfew : related.length ≤ maxRelatedPaths)
    (hmem : ∀ p, p ∈ related ↔ p ∈ baseline.relatedPaths ++ extra)
    (hreviewed : GoodPaths rules "reviewed" reviewed)
    (hunion : ∀ p, p ∈ reviewed ↔ p ∈ unionPaths baseline changed related) :
    ∃ planned, planIncremental rules args baseline (args.key baseline) reviewed related changed =
      .ok planned ∧ SoundPlan rules policy args planned := by
  obtain ⟨hpolicy, hfindings, _, _, _⟩ := construct_good h.valid.fields
  have hcandidate : (extendBaseline baseline (args.key baseline) reviewed related).construct rules =
      .ok (extendBaseline baseline (args.key baseline) reviewed related) :=
    construct_of_good hpolicy hfindings hreviewed hrelated hfew
  unfold Convergence.planIncremental
  rw [ok_bind hcandidate]
  split
  · exact ⟨_, fallback_ok (.inl rfl) h.changedGood hfindings, fallback_sound nofun h.mem⟩
  · next document hdocument =>
    have hprevious : (baseline.findings.map BaselineFinding.toPrevious).forM
        (PreviousFinding.check rules) = .ok () := by
      apply forM_iff.mpr
      intro record hrecord
      obtain ⟨f, hf, rfl⟩ := List.mem_map.mp hrecord
      exact previous_ok (h.valid.findings f hf)
    rw [ok_bind hprevious, ok_bind (plan_ok h.valid hreviewed hrelated h.confirmed)]
    refine ⟨_, verify_ok hreviewed hrelated hfew h.changedGood hfindings, fun _ => ?_, nofun⟩
    obtain ⟨hcomplete, hdigest, hkey⟩ := compatible_facts hreach.1
    have hinside : ∀ p, p ∈ unionPaths baseline changed related ↔
        (((∃ f ∈ baseline.findings, f.path = some p) ∨ p ∈ baseline.reviewedPaths) ∨
          p ∈ changed) ∨ p ∈ related := by
      intro p
      unfold unionPaths
      rw [List.mem_append, List.mem_append, List.mem_append, List.mem_filterMap]
    refine ⟨baseline, hbaseline, hcomplete, hdigest, hkey, hreach.2, ?_, ?_, ?_, ?_,
      ⟨_, rfl, rfl, rfl, rfl⟩, ⟨document, hdocument⟩⟩
    · intro p hp
      exact (hunion p).mpr ((hinside p).mpr (.inl (.inr ((h.mem p).mpr hp))))
    · intro p hp
      exact (hunion p).mpr ((hinside p).mpr (.inl (.inl (.inr hp))))
    · rintro p (hp | hp | ⟨given, hgiven, hp⟩)
      · exact (hunion p).mpr ((hinside p).mpr (.inr hp))
      · exact (hunion p).mpr ((hinside p).mpr (.inr ((hmem p).mpr (List.mem_append_left _ hp))))
      · have hp := List.mem_append_right baseline.relatedPaths (h.given given hgiven p hp)
        exact (hunion p).mpr ((hinside p).mpr (.inr ((hmem p).mpr hp)))
    · intro f hf p hp
      exact (hunion p).mpr ((hinside p).mpr (.inl (.inl (.inl ⟨f, hf, hp⟩))))

/-- A union of reviewed paths is as large over the related paths as over their groups. -/
theorem union_length {related : List String}
    (hmem : ∀ p, p ∈ related ↔ p ∈ baseline.relatedPaths ++ extra) :
    (unionPaths baseline changed related).dedup.length =
      (unionPaths baseline changed (baseline.relatedPaths ++ extra)).dedup.length := by
  apply dedup_length_eq
  intro p
  unfold unionPaths
  rw [List.mem_append, hmem, ← List.mem_append]

/-- Reviewed paths over the bound leave no scope. -/
theorem Groups.planUnions_raises (h : Groups rules args baseline changed extra)
    (hextra : extraRelated rules args changed = .ok extra)
    (hfits : (baseline.relatedPaths ++ extra).dedup.length ≤ maxRelatedPaths)
    (hmany : maxCacheMetadataItems <
      (unionPaths baseline changed (baseline.relatedPaths ++ extra)).dedup.length) :
    planUnions rules args baseline (args.key baseline) changed =
      .error "reviewed paths exceed MAX_CACHE_METADATA_ITEMS" := by
  have hconcerns : checkConcerns args = .ok () :=
    forM_iff.mpr fun item hitem => ensure_ok (h.confirmed item hitem)
  obtain ⟨related, hrelated, _, _, hmem⟩ := (uniquePaths_spec maxRelatedPaths
    "related paths exceed MAX_RELATED_PATHS" (baseline.relatedPaths ++ extra)).1 hfits
  have hlength : (unionPaths baseline changed related).dedup.length =
      (unionPaths baseline changed (baseline.relatedPaths ++ extra)).dedup.length :=
    union_length hmem
  have hover := (uniquePaths_spec maxCacheMetadataItems
    "reviewed paths exceed MAX_CACHE_METADATA_ITEMS" (unionPaths baseline changed related)).2
      (hlength ▸ hmany)
  unfold Convergence.planUnions
  rw [ok_bind hextra, ok_bind hconcerns, if_neg (by omega), ok_bind hrelated, hover]
  rfl

/-- The unions give a sound scope, or the reviewed paths do not fit and nothing is returned. -/
theorem Groups.planUnions (h : Groups rules args baseline changed extra)
    (hreach : ReachesUnions policy args baseline) (hbaseline : args.baseline = some baseline)
    (hextra : extraRelated rules args changed = .ok extra) :
    (∃ planned, planUnions rules args baseline (args.key baseline) changed = .ok planned ∧
      SoundPlan rules policy args planned) ↔
    ((baseline.relatedPaths ++ extra).dedup.length ≤ maxRelatedPaths →
      (unionPaths baseline changed (baseline.relatedPaths ++ extra)).dedup.length ≤
        maxCacheMetadataItems) := by
  obtain ⟨_, hfindings, _, _, _⟩ := construct_good h.valid.fields
  have hconcerns : checkConcerns args = .ok () :=
    forM_iff.mpr fun item hitem => ensure_ok (h.confirmed item hitem)
  constructor
  · rintro ⟨planned, hplanned, _⟩ hfits
    by_contra hmany
    rw [h.planUnions_raises hextra hfits (by omega)] at hplanned
    cases hplanned
  · intro hall
    unfold Convergence.planUnions
    rw [ok_bind hextra, ok_bind hconcerns]
    split
    · exact ⟨_, fallback_ok (.inl rfl) h.changedGood hfindings, fallback_sound nofun h.mem⟩
    · next hfits =>
      have hfits : (baseline.relatedPaths ++ extra).dedup.length ≤ maxRelatedPaths := by omega
      obtain ⟨related, hrelated, hnodup, hfew, hmem⟩ := (uniquePaths_spec maxRelatedPaths
        "related paths exceed MAX_RELATED_PATHS" (baseline.relatedPaths ++ extra)).1 hfits
      have hgood := h.related_good hnodup hfew hmem
      have hlength : (unionPaths baseline changed related).dedup.length =
          (unionPaths baseline changed (baseline.relatedPaths ++ extra)).dedup.length :=
        union_length hmem
      obtain ⟨reviewed, hreviewed, hnodup, hfew', hmem'⟩ := (uniquePaths_spec maxCacheMetadataItems
        "reviewed paths exceed MAX_CACHE_METADATA_ITEMS" (unionPaths baseline changed related)).1
          (hlength ▸ hall hfits)
      rw [ok_bind hrelated, ok_bind hreviewed]
      exact h.planIncremental hreach hbaseline hgood hfew hmem
        (h.reviewed_good hgood hnodup hfew' hmem') hmem'

/-- The extra related paths are those given, or can be derived from the change. -/
theorem extra_ok (hchanged : GoodPaths rules "changed" changed)
    (hrelated : ∀ related ∈ args.relatedPaths,
      ∃ bounded, boundedRelatedPaths rules related = .ok bounded)
    (hfree : args.relatedPaths = none → GlobFree rules changed) :
    ∃ extra, extraRelated rules args changed = .ok extra := by
  unfold extraRelated
  cases hgiven : args.relatedPaths with
  | some related => exact hrelated related hgiven
  | none =>
    obtain ⟨related, hderived, hbounded, _⟩ :=
      (relatedPathsForChange_spec hchanged).1 (hfree hgiven)
    exact ⟨related, (ok_bind hderived _).trans hbounded⟩

theorem extra_inv (hchanged : GoodPaths rules "changed" changed)
    (h : extraRelated rules args changed = .ok extra) :
    (args.relatedPaths = none → GlobFree rules changed) ∧ GoodPaths rules "related" extra ∧
      extra.length ≤ maxRelatedPaths ∧ ∀ given ∈ args.relatedPaths, ∀ p ∈ given, p ∈ extra := by
  unfold extraRelated at h
  cases hgiven : args.relatedPaths with
  | some related =>
    rw [hgiven] at h
    obtain ⟨hgood, hfew, hmem⟩ := boundedRelatedPaths_ok h
    refine ⟨nofun, hgood, hfew, fun given hsome p hp => ?_⟩
    exact (hmem p).mpr (Option.some.inj hsome ▸ hp)
  | none =>
    rw [hgiven] at h
    obtain ⟨related, hderived, hbounded⟩ := bind_ok h
    obtain ⟨hgood, hfew, _⟩ := boundedRelatedPaths_ok hbounded
    exact ⟨fun _ => (relatedPathsForChange_spec hchanged).2 related hderived, hgood, hfew, nofun⟩

/-- A given group of related paths passes the checks of the fallback scopes. -/
theorem given_checked (hrelated : ∀ related ∈ args.relatedPaths,
    ∃ bounded, boundedRelatedPaths rules related = .ok bounded) :
    args.relatedPaths.forM (fun related => (boundedPaths rules "related" related).map fun _ => ()) =
        .ok () ∧
      args.relatedPaths.forM (fun related => (boundedRelatedPaths rules related).map fun _ => ()) =
        .ok () := by
  cases hgiven : args.relatedPaths with
  | none => exact ⟨rfl, rfl⟩
  | some related =>
    obtain ⟨bounded, hbounded⟩ := hrelated related hgiven
    obtain ⟨paths, hpaths, _⟩ := bind_ok hbounded
    exact ⟨congrArg (Except.map fun _ => ()) hpaths, congrArg (Except.map fun _ => ()) hbounded⟩

/-- Without a baseline the whole change is reviewed. -/
theorem initial_iff (hbaseline : args.baseline = none)
    (hchanged : GoodPaths rules "changed" changed) (hmem : ∀ p, p ∈ changed ↔ p ∈ args.changedPaths)
    (hrelated : ∀ related ∈ args.relatedPaths,
      ∃ bounded, boundedRelatedPaths rules related = .ok bounded) :
    (∃ planned, (extraRelated rules args changed >>= fun related =>
        scopeOf rules (initialScope changed related) none) = .ok planned ∧
          SoundPlan rules policy args planned) ↔ Plannable rules policy args changed := by
  have hnone : ∀ baseline, baseline ∉ args.baseline := by
    rw [hbaseline]
    exact nofun
  constructor
  · rintro ⟨planned, h, _⟩
    obtain ⟨extra, hextra, _⟩ := bind_ok h
    obtain ⟨hfree, _⟩ := extra_inv hchanged hextra
    exact ⟨fun hgiven _ => hfree hgiven, fun baseline hb => absurd hb (hnone baseline)⟩
  · intro hplan
    obtain ⟨extra, hextra⟩ := extra_ok hchanged hrelated fun hgiven =>
      hplan.derivable hgiven fun baseline hb => absurd hb (hnone baseline)
    obtain ⟨_, hgood, hfew, _⟩ := extra_inv hchanged hextra
    refine ⟨_, (ok_bind hextra _).trans (initial_ok hchanged hgood hfew), nofun, fun _ => ?_⟩
    exact ⟨.inl rfl, fun p hp => (hmem p).mpr hp, rfl⟩

/-- A compatible baseline in a complete context comes to the unions. -/
theorem planScope_reaches (hmode : policy.mode.operator = true)
    (hbytes : args.baselineBytes ≤ maxHistoryBaselineBytes)
    (hchanged : boundedPaths rules "changed" args.changedPaths = .ok changed)
    (hbaseline : args.baseline = some baseline) (hreach : ReachesUnions policy args baseline) :
    planScope rules policy args =
      planUnions rules args baseline (args.key baseline) changed := by
  have hcompatible := hreach.1
  unfold ScopeArguments.key at hcompatible
  unfold planScope
  rw [ensure_bind hbytes, ok_bind hchanged, if_neg (by rw [hmode]; decide), hbaseline]
  dsimp only
  rw [hcompatible, hreach.2]
  rfl

/-- A baseline that is not extended leaves nothing to fit. -/
theorem plannable_of_not {policy : ReviewConvergencePolicy}
    (hbaseline : args.baseline = some baseline) (hnot : ¬ ReachesUnions policy args baseline) : Plannable rules policy args changed := by
  have hsame : ∀ baseline' ∈ args.baseline, baseline' = baseline := by
    intro baseline' h
    exact Option.some.inj (h.symm.trans hbaseline)
  refine ⟨fun _ hall => absurd (hall baseline hbaseline) hnot, fun baseline' h hreach => ?_⟩
  rw [hsame baseline' h] at hreach
  exact absurd hreach hnot

/-- A later pass gets a scope exactly where the reviewed paths fit together with the related ones
and no derivation meets a glob token; the scope covers what its status says. -/
theorem plan_scope_sound (hmode : policy.mode.operator = true)
    (hbytes : args.baselineBytes ≤ maxHistoryBaselineBytes)
    (hvalid : ∀ b ∈ args.baseline, b.Valid rules)
    (hchanged : boundedPaths rules "changed" args.changedPaths = .ok changed)
    (hrelated : ∀ related ∈ args.relatedPaths,
      ∃ bounded, boundedRelatedPaths rules related = .ok bounded)
    (hconfirmed : ∀ item ∈ args.confirmedConcerns, isSha256 item = true) :
    (∃ planned, planScope rules policy args = .ok planned ∧ SoundPlan rules policy args planned) ↔
      Plannable rules policy args changed := by
  obtain ⟨hgood, hmem⟩ := boundedPaths_ok_iff hchanged
  obtain ⟨hgiven, hgiven'⟩ := given_checked hrelated
  have hconcerns : checkConcerns args = .ok () :=
    forM_iff.mpr fun item hitem => ensure_ok (hconfirmed item hitem)
  unfold planScope
  rw [ensure_bind hbytes, ok_bind hchanged, if_neg (by rw [hmode]; decide)]
  cases hbaseline : args.baseline with
  | none => exact initial_iff hbaseline hgood hmem hrelated
  | some baseline =>
    have hbase := hvalid baseline hbaseline
    obtain ⟨_, hfindings, _⟩ := construct_good hbase.fields
    dsimp only
    split
    · next reason hreason =>
      -- an invalidated baseline: the whole change is reviewed again
      refine iff_of_true ?_ (plannable_of_not hbaseline fun h => ?_)
      · rw [ok_bind hgiven]
        have hstatus : invalidatedStatus reason = .incompatible ∨
            invalidatedStatus reason = .incompleteBaseline := by
          unfold invalidatedStatus
          split
          · exact .inr rfl
          · exact .inl rfl
        refine ⟨_, fallback_ok hstatus hgood hfindings, fallback_sound (fun h => ?_) hmem⟩
        rw [h] at hstatus
        rcases hstatus with h | h <;> cases h
      · have hnone := hreason.symm.trans h.1
        cases hnone
    · next hcompatible =>
      split
      · next hincomplete =>
        refine iff_of_true ?_ (plannable_of_not hbaseline fun h => ?_)
        · rw [ok_bind hgiven', ok_bind hconcerns]
          refine ⟨_, fallback_ok (.inr rfl) hgood hfindings, fallback_sound ?_ hmem⟩
          decide
        · have hfalse := hincomplete.symm.trans h.2
          cases hfalse
      · next hcomplete =>
        have hreach : ReachesUnions policy args baseline :=
          ⟨hcompatible, by simpa using hcomplete⟩
        constructor
        · rintro ⟨planned, h, hsound⟩
          obtain ⟨extra, hextra, _⟩ := bind_ok h
          obtain ⟨hfree, hextraGood, _, hcovers⟩ := extra_inv hgood hextra
          have hgroups : Groups rules args baseline changed extra :=
            ⟨hbase, hgood, hmem, hextraGood, hcovers, hconfirmed⟩
          have hfits := (hgroups.planUnions hreach hbaseline hextra).mp ⟨planned, h, hsound⟩
          refine ⟨fun hnone _ => hfree hnone, fun baseline' hb _ extra' hextra' => ?_⟩
          obtain rfl := Option.some.inj (hb.symm.trans hbaseline)
          obtain rfl := Except.ok.inj (hextra'.symm.trans hextra)
          exact hfits
        · intro hplan
          obtain ⟨extra, hextra⟩ := extra_ok hgood hrelated fun hnone =>
            hplan.derivable hnone fun baseline' hb =>
              Option.some.inj (hb.symm.trans hbaseline) ▸ hreach
          obtain ⟨_, hextraGood, _, hcovers⟩ := extra_inv hgood hextra
          have hgroups : Groups rules args baseline changed extra :=
            ⟨hbase, hgood, hmem, hextraGood, hcovers, hconfirmed⟩
          exact (hgroups.planUnions hreach hbaseline hextra).mpr
            (hplan.fits baseline hbaseline hreach extra hextra)

end Planned

section Sample

/-- A baseline under the sample policy. -/
def scopeBaseline (reviewed : List String) : ReviewBaseline :=
  { historyBaseline ["Bug"] with
    policyDigest := samplePolicy.digest
    reviewedPaths := reviewed }

def scopeArguments (reviewed : List String) : ScopeArguments where
  baseline := some (scopeBaseline reviewed)
  changedPaths := ["c.py"]
  relatedPaths := some ["b.py"]

theorem scope_reached (reviewed : List String) :
    ReachesUnions samplePolicy (scopeArguments reviewed) (scopeBaseline reviewed) := by
  refine ⟨?_, rfl⟩
  simp [evaluateBaselineCompatibility, scopeArguments, ScopeArguments.key, scopeBaseline,
    historyBaseline, CacheKey.compatible]

theorem scope_valid {reviewed : List String} (h : GoodPaths historyRules "reviewed" reviewed) :
    (scopeBaseline reviewed).Valid historyRules := by
  refine ⟨sample_key, fun f hf => ?_, ?_⟩
  · rw [List.mem_singleton.mp hf]
    exact sample_finding
  · have hfew : [historyFinding "Bug"].length ≤ maxCacheMetadataItems := by decide
    exact construct_of_good (isSha256_sha256 _) hfew h goodPaths_nil (Nat.zero_le _)

theorem scope_related : boundedRelatedPaths historyRules ["b.py"] = .ok ["b.py"] := by
  decide

theorem scope_changed : boundedPaths historyRules "changed" ["c.py"] = .ok ["c.py"] := by
  decide

theorem one_path_planned : ReachesUnions samplePolicy (scopeArguments ["a.py"])
      (scopeBaseline ["a.py"]) ∧
    ∃ planned, planScope historyRules samplePolicy (scopeArguments ["a.py"]) = .ok planned ∧
      SoundPlan historyRules samplePolicy (scopeArguments ["a.py"]) planned := by
  have hone : GoodPaths historyRules "reviewed" ["a.py"] :=
    (boundedPaths_ok_iff (by decide :
      boundedPaths historyRules "reviewed" ["a.py"] = .ok ["a.py"])).1
  refine ⟨scope_reached _, (plan_scope_sound rfl (by decide) ?_
    scope_changed ?_ fun _ h => absurd h List.not_mem_nil).mpr ⟨nofun, ?_⟩⟩
  · intro b hb
    rw [← Option.some.inj hb]
    exact scope_valid hone
  · intro related h
    rw [← Option.some.inj h]
    exact ⟨_, scope_related⟩
  · intro baseline hb _ extra hextra _
    obtain rfl := Option.some.inj hb
    obtain rfl := Except.ok.inj (scope_related.symm.trans hextra)
    exact Nat.le_trans (List.dedup_sublist _).length_le (by decide)

/-- As many paths as a baseline may have, of three letters each. -/
def crowdedPaths : List String :=
  ("abcdefgh".toList ×ˢ "abcdefgh".toList ×ˢ "abcdefgh".toList).map fun word =>
    String.ofList [word.1, word.2.1, word.2.2]

/-- A word of three of the letters is a path. -/
theorem word_valid {a b c : Char} (ha : a ∈ "abcdefgh".toList) (hb : b ∈ "abcdefgh".toList)
    (hc : c ∈ "abcdefgh".toList) :
    validateRepositoryPath historyRules.unicode "reviewed" true [a, b, c] = .ok () := by
  have hletters : ("abcdefgh".toList.all fun d => decide (d ≠ '/' ∧ d ≠ '\\' ∧ d ≠ ':' ∧
      Session.isPythonSpace d = false ∧ d.utf8Size = 1)) = true := by decide
  have hplain : ∀ d ∈ [a, b, c], d ≠ '/' ∧ d ≠ '\\' ∧ d ≠ ':' ∧
      Session.isPythonSpace d = false ∧ d.utf8Size = 1 := by
    intro d hd
    apply of_decide_eq_true (List.all_eq_true.mp hletters d _)
    rcases List.mem_cons.mp hd with rfl | hd
    · exact ha
    · rcases List.mem_cons.mp hd with rfl | hd
      · exact hb
      · exact List.mem_singleton.mp hd ▸ hc
  obtain ⟨-, -, -, hspace, hone⟩ := hplain a (by simp)
  obtain ⟨-, -, hcolon, -, hone'⟩ := hplain b (by simp)
  obtain ⟨hslash, -, -, hspace', hone''⟩ := hplain c (by simp)
  have hsplit : [a, b, c].splitOn '/' = [[a, b, c]] :=
    List.splitOnP_eq_singleton fun d hd => by simpa using (hplain d hd).1
  have hsize : Diff.utf8Size [a, b, c] = 3 := by
    show a.utf8Size + (b.utf8Size + (c.utf8Size + 0)) = 3
    rw [hone, hone', hone'']
  have hstripped : [a, b, c] = Session.stripBy Session.isPythonSpace [a, b, c] := by
    refine (Diff.stripBy_eq_self ?_ ?_).symm
    · exact fun d hd => Option.some.inj hd ▸ hspace
    · exact fun d hd => Option.some.inj hd ▸ hspace'
  have hsegment : Diff.ValidSegment [a, b, c] := ⟨by simp, hstripped, by rw [hsize]; decide⟩
  refine Diff.validateRepositoryPath_iff.mpr ⟨nofun, by rw [hsize]; decide, rfl, fun _ _ => rfl,
    hstripped, fun h => (hplain _ h).2.1 rfl, ?_, ?_, ?_, ?_⟩
  · exact fun h => (hplain a (by simp)).1 (Option.some.inj h)
  · exact fun h => hslash (Option.some.inj h)
  · rw [hsplit]
    unfold Diff.drivePrefix
    split
    next d rest heq => exact absurd (List.cons.inj (List.cons.inj heq).2).1 hcolon
    next => rfl
  · rw [hsplit]
    exact fun s hs => List.mem_singleton.mp hs ▸ hsegment

theorem crowded_good : GoodPaths historyRules "reviewed" crowdedPaths := by
  have hvalid : ∀ path ∈ crowdedPaths,
      validateRepositoryPath historyRules.unicode "reviewed" true path.toList = .ok () := by
    intro path hpath
    obtain ⟨⟨a, b, c⟩, hword, rfl⟩ := List.mem_map.mp hpath
    obtain ⟨hfirst, hrest⟩ := List.pair_mem_product.mp hword
    obtain ⟨hsecond, hthird⟩ := List.pair_mem_product.mp hrest
    rw [String.toList_ofList]
    exact word_valid hfirst hsecond hthird
  have hletters : "abcdefgh".toList.Nodup := by decide
  refine ⟨hvalid, ?_, by decide +kernel⟩
  apply List.Nodup.map (f := fun word : Char × Char × Char =>
    String.ofList [word.1, word.2.1, word.2.2]) _ (hletters.product (hletters.product hletters))
  intro word word' h
  have h := String.ofList_injective h
  rw [List.cons.injEq, List.cons.injEq, List.cons.injEq] at h
  exact Prod.ext h.1 (Prod.ext h.2.1 h.2.2.1)

theorem crowded_union : maxCacheMetadataItems <
    (unionPaths (scopeBaseline crowdedPaths) ["c.py"] ["b.py"]).dedup.length := by
  have hthree : ∀ p ∈ crowdedPaths, p.toList.length = 3 := by
    intro p hp
    obtain ⟨word, _, rfl⟩ := List.mem_map.mp hp
    rw [String.toList_ofList]
    rfl
  have hnew : "c.py" ∉ crowdedPaths := fun hp => absurd (hthree _ hp) (by decide)
  have hlength : ("c.py" :: crowdedPaths).length = maxCacheMetadataItems + 1 := by
    decide +kernel
  have hsub : "c.py" :: crowdedPaths ⊆
      (unionPaths (scopeBaseline crowdedPaths) ["c.py"] ["b.py"]).dedup := by
    intro p hp
    rw [List.mem_dedup]
    unfold unionPaths
    rw [List.mem_append, List.mem_append, List.mem_append]
    rcases List.mem_cons.mp hp with rfl | hp
    · exact .inl (.inr List.mem_cons_self)
    · exact .inl (.inl (.inr hp))
  have hle := ((List.nodup_cons.mpr ⟨hnew, crowded_good.nodup⟩).subperm hsub).length_le
  omega

/-- A baseline of as many paths as it may have, and a change to another one; and a first pass over
a path with brackets. Neither gets a scope. -/
theorem crowded_baseline_refused :
    (scopeBaseline crowdedPaths).Valid historyRules ∧
      boundedPaths historyRules "changed" ["c.py"] = .ok ["c.py"] ∧
      boundedRelatedPaths historyRules ["b.py"] = .ok ["b.py"] ∧
      planScope historyRules samplePolicy (scopeArguments crowdedPaths) =
        .error "reviewed paths exceed MAX_CACHE_METADATA_ITEMS" ∧
      boundedPaths historyRules "changed" ["app/[id].py"] = .ok ["app/[id].py"] ∧
      planScope historyRules samplePolicy { changedPaths := ["app/[id].py"] } =
        .error "changed path must not contain glob tokens" := by
  have hvalid := scope_valid crowded_good
  have hgroups : Groups historyRules (scopeArguments crowdedPaths) (scopeBaseline crowdedPaths)
      ["c.py"] ["b.py"] :=
    ⟨hvalid, (boundedPaths_ok_iff scope_changed).1, fun _ => Iff.rfl,
      (boundedRelatedPaths_ok scope_related).1, fun _ h => Option.some.inj h ▸ fun _ hp => hp,
      fun _ h => absurd h List.not_mem_nil⟩
  have hbytes : maxHistoryBaselineBytes ≤ maxHistoryBaselineBytes := Nat.le_refl _
  have hmode : samplePolicy.mode.operator ≠ false := by decide
  have hbracket : boundedPaths historyRules "changed" ["app/[id].py"] = .ok ["app/[id].py"] := by
    decide
  have hderived : relatedPathsForChange historyRules ["app/[id].py"] =
      .error "changed path must not contain glob tokens" := by
    decide
  refine ⟨hvalid, scope_changed, scope_related, ?_, hbracket, ?_⟩
  · rw [planScope_reaches rfl hbytes scope_changed rfl (scope_reached crowdedPaths)]
    exact hgroups.planUnions_raises scope_related (by decide) crowded_union
  · unfold planScope extraRelated
    dsimp only
    rw [ensure_bind hbytes, ok_bind hbracket, if_neg hmode, hderived]
    rfl

end Sample
end ReviewSensei.Convergence
