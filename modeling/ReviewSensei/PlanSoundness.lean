import ReviewSensei.PlanCoverage

/-! Coverage soundness of `plan_change`. -/
namespace ReviewSensei.Planning
open Diff Coverage
open Session (bind_ok)

variable {rules : PlanRules} {limits : ReviewLimits} (budget : TotalWorkBudget)
  {analysis : DiffAnalysis} {reused : PriorCoverage} {sorting : Sorting}

/-- Packing puts a hunk in no more than one place. -/
theorem placements_le_one (ha : analysis.Accounted)
    (hs : SortedFor rules limits analysis reused sorting) (i : Nat) :
    (packingOf limits budget analysis sorting).placements i ≤ 1 := by
  have honce := (packRecords_packed limits budget.maxChunks analysis.changedPaths
    sorting.reviewable).1.once i
  have hsorted := hs.once i
  have hnodup := List.nodup_iff_count_le_one.mp (filed_indexes_nodup ha) i
  exact Nat.le_trans honce (Nat.le_trans hsorted hnodup)

/-- A hunk is in one chunk exactly if it is packed. -/
theorem holders_packed (ha : analysis.Accounted)
    (hs : SortedFor rules limits analysis reused sorting) (i : Nat) :
    ((packingOf limits budget analysis sorting).chunks.countP
        (fun c => decide (i ∈ c.hunkIndexes)) = 1 ↔
      i ∈ (packingOf limits budget analysis sorting).packed) ∧
    (packingOf limits budget analysis sorting).chunks.countP
      (fun c => decide (i ∈ c.hunkIndexes)) ≤ 1 := by
  have hone := placements_le_one budget ha hs i
  generalize packingOf limits budget analysis sorting = k at hone ⊢
  have hcount : k.chunks.countP (fun c => decide (i ∈ c.hunkIndexes)) ≤ k.packed.count i :=
    countP_le_count k.chunks i
  have hpos := holders_pos k.chunks i
  unfold Packing.placements at hone
  refine ⟨?_, by omega⟩
  rw [Packing.packed, ← hpos]
  omega

variable {budget}

/-- The clauses of an orchestrated plan. -/
structure OrchestratedSound (limits : ReviewLimits) (budget : TotalWorkBudget)
    (reused : PriorCoverage) (plan : LargeChangePlan rules) : Prop where
  reviewed_iff : ∀ e ∈ plan.coverage.hunks, e.outcome = .reviewed ↔
    plan.holders e.index = 1 ∨ (e.index ∈ reused.hunks ∧
      ∃ r ∈ plan.analysis.fileRecords, e.index ∈ r.hunkIndexes ∧
        classifyFile rules plan.analysis.binaryPaths limits r = .ok .reviewable)
  kept : ∀ r ∈ plan.analysis.fileRecords, ∀ o,
    classifyFile rules plan.analysis.binaryPaths limits r = .ok (.unreviewable o) →
    ∀ e ∈ plan.coverage.hunks, e.index ∈ r.hunkIndexes →
      plan.holders e.index = 0 ∧ (e.outcome, e.reason) = o
  partial_cut : ∀ r ∈ plan.analysis.fileRecords, ∀ e ∈ plan.coverage.hunks,
    e.index ∈ r.hunkIndexes → plan.holders e.index = 0 → e.index ∉ reused.hunks →
    e.outcome = .partiallyReviewed → ∃ sorting r',
      sortRecords rules plan.analysis.binaryPaths limits reused plan.analysis.fileRecords {} =
        .ok sorting ∧
      r' ∈ sorting.reviewable ∧ Remainder reused r r' ∧
      e.index ∉ (packingOf limits budget plan.analysis sorting).spilled ∧
      CutOff limits budget.maxChunks r' (packingOf limits budget plan.analysis sorting) e.index
  path_uniform : ∀ f ∈ plan.coverage.files, f.outcome = .reviewed →
    ∀ e ∈ plan.coverage.hunks, ∀ e' ∈ plan.coverage.hunks, e.path = f.path → e'.path = f.path →
      e.outcome = .reviewed → e'.outcome = .reviewed

/-- The clauses of a plan of one request. -/
structure SingleSound (plan : LargeChangePlan rules) : Prop where
  chunk : ∀ h ∈ plan.analysis.hunkRecords, plan.holders h.index = 1
  reviewed_iff : ∀ e ∈ plan.coverage.hunks, e.outcome = .reviewed ↔
    ∃ f ∈ plan.coverage.files, f.path = e.path ∧ f.outcome = .reviewed
  not_partial : ∀ e ∈ plan.coverage.hunks, e.outcome ≠ .partiallyReviewed

/-- The clauses that need the records of a path to agree. -/
structure AgreeingSound (limits : ReviewLimits) (orchestrate : Bool) (reused : PriorCoverage)
    (plan : LargeChangePlan rules) : Prop where
  record_outcome : orchestrate = false → ∀ r ∈ plan.analysis.fileRecords, ∀ c,
    classifyFile rules plan.analysis.binaryPaths limits r = .ok c →
    ∀ e ∈ plan.coverage.hunks, e.index ∈ r.hunkIndexes → (e.outcome, e.reason) = c.outcome
  paths : ∀ f ∈ plan.coverage.files, f.outcome = .reviewed →
    ∀ e ∈ plan.coverage.hunks, e.path = f.path → e.outcome = .reviewed
  fully : plan.coverage.fullyReviewed = true → ∀ r ∈ plan.analysis.fileRecords,
    classifyFile rules plan.analysis.binaryPaths limits r = .ok .reviewable ∧
      ∀ i ∈ r.hunkIndexes, plan.holders i = 1 ∨ i ∈ reused.hunks

structure CoverageSound (limits : ReviewLimits) (budget : TotalWorkBudget) (orchestrate : Bool)
    (reused : PriorCoverage) (plan : LargeChangePlan rules) : Prop where
  chunk_once : ∀ i, plan.holders i ≤ 1
  reported : ∀ h ∈ plan.analysis.hunkRecords, ∀ q, h.path = some q →
    ∃ e ∈ plan.coverage.hunks, e.index = h.index ∧ e.path = q
  unreviewed : ∀ e ∈ plan.coverage.hunks, plan.holders e.index = 0 → e.index ∉ reused.hunks →
    e.outcome ≠ .reviewed
  orchestrated : orchestrate = true → OrchestratedSound limits budget reused plan
  single : orchestrate = false → SingleSound plan
  agreeing : PathsAgree rules limits plan.analysis → AgreeingSound limits orchestrate reused plan

section orchestrated
variable {plan : LargeChangePlan rules} (ha : plan.analysis.Accounted)
  (hs : SortedFor rules limits plan.analysis reused sorting)
  (hchunks : plan.chunks = (packingOf limits budget plan.analysis sorting).chunks)
  (hm : plan.coverage.toManifestFields = coverageFields plan.analysis (withDefaults plan.analysis
    (orchestratedOutcomes plan.analysis (packingOf limits budget plan.analysis sorting) sorting)))
include ha hs hchunks

theorem orchestrated_holders (i : Nat) :
    (plan.holders i = 1 ↔ i ∈ (packingOf limits budget plan.analysis sorting).packed) ∧
      plan.holders i ≤ 1 := by
  unfold LargeChangePlan.holders
  rw [hchunks]
  exact holders_packed budget ha hs i

theorem orchestrated_holders_zero {i : Nat} :
    plan.holders i = 0 ↔ i ∉ (packingOf limits budget plan.analysis sorting).packed := by
  obtain ⟨hone, hle⟩ := orchestrated_holders ha hs hchunks i
  rw [← hone]
  omega

/-- Which hunks the outcome map of an orchestrated plan calls reviewed. -/
theorem orchestrated_reviewed_iff (h : DiffHunk) :
    isReviewed (packedPass (packingOf limits budget plan.analysis sorting) sorting).hunks h ↔
      plan.holders h.index = 1 ∨ (h.index ∈ reused.hunks ∧
        ∃ r ∈ plan.analysis.fileRecords, h.index ∈ r.hunkIndexes ∧
          classifyFile rules plan.analysis.binaryPaths limits r = .ok .reviewable) := by
  rw [(orchestrated_holders ha hs hchunks h.index).1]
  constructor
  · intro hreviewed
    by_contra hnot
    rw [not_or] at hnot
    obtain ⟨hpacked, hprior⟩ := hnot
    by_cases hspilled : h.index ∈ (packingOf limits budget plan.analysis sorting).spilled
    · obtain ⟨o, ho, hout⟩ := (orchestrated_hunks budget hs h.index).2.2 hpacked hspilled
      rw [isReviewed_of_get? ho, hout] at hreviewed
      exact (overflowOutcome_ne _).1 hreviewed
    · have hget := (orchestrated_hunks budget hs h.index).2.1 hpacked hspilled
      cases hold : sorting.hunkOutcomes.get? h.index with
      | none => exact not_isReviewed_of_none (hget.trans hold) hreviewed
      | some o =>
        rw [isReviewed_of_get? (hget.trans hold)] at hreviewed
        obtain ⟨r, hr, hi, c, hclass, hstart⟩ := sorted_hunk hs hold
        cases c with
        | unreviewable o' =>
          obtain rfl := Option.some.inj hstart
          exact (classifyFile_outcome hclass).1 hreviewed
        | reviewable =>
          have hif : (if h.index ∈ reused.hunks then some reviewedOutcome else none) = some o :=
            hstart
          split at hif
          · next hmem => exact hprior ⟨hmem, r, hr, hi, hclass⟩
          · cases hif
  · rintro (hpacked | ⟨hprior, r, hr, hi, hclass⟩)
    · exact (isReviewed_of_get? ((orchestrated_hunks budget hs h.index).1 hpacked)).mpr rfl
    · exact (isReviewed_of_get? (orchestrated_prior budget hs hr hclass hi hprior).2).mpr rfl

omit hs hchunks in
include hm in
/-- What an entry of an orchestrated plan reports of its hunk. -/
theorem orchestrated_entry {e : HunkCoverage} (he : e ∈ plan.coverage.hunks) :
    ∃ h ∈ plan.analysis.hunkRecords, h.index = e.index ∧ At e.path h ∧
      (e.outcome = .reviewed ↔
        isReviewed (packedPass (packingOf limits budget plan.analysis sorting) sorting).hunks h) ∧
      ∀ o, (packedPass (packingOf limits budget plan.analysis sorting) sorting).hunks.get? e.index =
        some o → (e.outcome, e.reason) = o := by
  obtain ⟨h, hh, hindex, hat, hout⟩ := hunk_entry hm ha he
  refine ⟨h, hh, hindex, hat, ?_, fun o ho => ?_⟩
  · have hfst : e.outcome = _ := congrArg Prod.fst hout
    rw [hfst]
    exact hunkOutcome_reviewed _ h e.path
  · rw [hout]
    exact hunkOutcome_some (hindex ▸ ho) e.path

include hm in
theorem orchestrated_sound
    (hsorting : sortRecords rules plan.analysis.binaryPaths limits reused
      plan.analysis.fileRecords {} = .ok sorting) :
    OrchestratedSound limits budget reused plan := by
  refine ⟨?_, ?_, ?_, ?_⟩
  · intro e he
    obtain ⟨h, _, hindex, _, hiff, _⟩ := orchestrated_entry ha hm he
    rw [hiff, ← hindex]
    exact orchestrated_reviewed_iff ha hs hchunks h
  · intro r hr o hclass e he hi
    obtain ⟨_, _, _, _, _, hout⟩ := orchestrated_entry ha hm he
    obtain ⟨hpacked, hget⟩ := orchestrated_unreviewable budget hs ha hr hclass hi
    exact ⟨(orchestrated_holders_zero ha hs hchunks).mpr hpacked, hout o hget⟩
  · intro r hr e he hi hnone hprior hpartial
    obtain ⟨_, _, _, _, _, hout⟩ := orchestrated_entry ha hm he
    have hpacked := (orchestrated_holders_zero ha hs hchunks).mp hnone
    obtain ⟨c, hclass⟩ := hs.classified r hr
    cases c with
    | unreviewable o =>
      have hfst : e.outcome = o.1 :=
        congrArg Prod.fst (hout o (orchestrated_unreviewable budget hs ha hr hclass hi).2)
      exact absurd (hfst.symm.trans hpartial) (classifyFile_outcome hclass).2
    | reviewable =>
      rcases (orchestrated_left budget hs hr hclass hi hprior hpacked).2 with
        hspilled | ⟨hnot, _, r', hr', hremainder, hcut⟩
      · obtain ⟨o, ho, hfst⟩ := (orchestrated_hunks budget hs e.index).2.2 hpacked hspilled
        have heq : e.outcome = o.1 := congrArg Prod.fst (hout o ho)
        rw [heq, hfst] at hpartial
        exact absurd hpartial (overflowOutcome_ne _).2
      · exact ⟨sorting, r', hsorting, hr', hremainder, hnot, hcut⟩
  · intro f hf hreviewed e he e' he' hpath hpath' houtcome
    obtain ⟨h, hh, _, hat, hiff, _⟩ := orchestrated_entry ha hm he
    obtain ⟨h', hh', _, hat', hiff', _⟩ := orchestrated_entry ha hm he'
    rw [hpath] at hat
    rw [hpath'] at hat'
    by_contra hnot
    obtain ⟨reason, hmixed⟩ := reconcile_mixed
      (packedPass (packingOf limits budget plan.analysis sorting) sorting).files
      (path_mem ha hh hat) hh hat (hiff.mp houtcome) hh' hat' (fun h => hnot (hiff'.mpr h))
    have hfile := file_entry hm hf
    rw [get?_fillDefaults, orchestratedOutcomes_eq, hmixed, Option.some_or] at hfile
    have houtcome' : CoverageOutcome.partiallyReviewed = f.outcome :=
      congrArg Prod.fst (Option.some.inj hfile)
    rw [hreviewed] at houtcome'
    cases houtcome'

end orchestrated

theorem fileReviewed_iff (analysis : DiffAnalysis) {files : Dict Path Outcome} {h : DiffHunk} {q : Path} (hat : At q h) :
    FileReviewed files h ↔
      ∃ reason, (fillDefaults analysis files).get? q = some (.reviewed, reason) := by
  constructor
  · rintro ⟨q', reason, hq', hget⟩
    obtain rfl : q = q' := Option.some.inj (hat.symm.trans hq')
    exact ⟨reason, by rw [get?_fillDefaults, hget, Option.some_or]⟩
  · rintro ⟨reason, hget⟩
    refine ⟨q, reason, hat, fillDefaults_reviewed hget ?_⟩
    exact fun heq => (defaultOutcome_ne analysis).1 (congrArg Prod.fst heq).symm

section single
variable {plan : LargeChangePlan rules} (ha : plan.analysis.Accounted)
  (hs : SortedFor rules limits plan.analysis {} sorting) {diff : Text}
  (hchunks : plan.chunks = [singleChunk diff plan.analysis])
  (hm : plan.coverage.toManifestFields = coverageFields plan.analysis (withDefaults plan.analysis
    (singleOutcomes plan.analysis sorting)))

include hchunks in
/-- The one chunk carries every hunk of the diff, whatever its record is classified as. -/
theorem single_holders (i : Nat) :
    plan.holders i = if i ∈ plan.analysis.hunkRecords.map DiffHunk.index then 1 else 0 := by
  simp [LargeChangePlan.holders, hchunks, singleChunk, List.countP_cons]

include ha hs hm

theorem single_entry {e : HunkCoverage} (he : e ∈ plan.coverage.hunks) :
    ∃ h ∈ plan.analysis.hunkRecords, h.index = e.index ∧ At e.path h ∧
      (e.outcome = .reviewed ↔ FileReviewed sorting.fileOutcomes h) ∧
      (e.outcome, e.reason) =
        hunkOutcome (withDefaults plan.analysis (singleOutcomes plan.analysis sorting)) h e.path := by
  obtain ⟨h, hh, hindex, hat, hout⟩ := hunk_entry hm ha he
  have hfst : e.outcome = _ := congrArg Prod.fst hout
  refine ⟨h, hh, hindex, hat, ?_, hout⟩
  rw [hfst, ← single_reviewed ha hs hh]
  exact hunkOutcome_reviewed _ h e.path

/-- No outcome the classification gives, and no default, is a partial one. -/
theorem single_not_partial {e : HunkCoverage} (he : e ∈ plan.coverage.hunks) :
    e.outcome ≠ .partiallyReviewed := by
  obtain ⟨h, hh, _, hat, _, hout⟩ := single_entry ha hs hm he
  have hfst : e.outcome = _ := congrArg Prod.fst hout
  rw [hfst]
  have hpass := singlePass_hunks sorting.fileOutcomes sorting.hunkOutcomes
    plan.analysis.hunkRecords h.index
  cases hget : (withDefaults plan.analysis
      (singleOutcomes plan.analysis sorting)).hunks.get? h.index with
  | some o =>
    rw [hunkOutcome_some hget]
    by_cases hfile : FileReviewed sorting.fileOutcomes h
    · obtain rfl := Option.some.inj (hget.symm.trans (hpass.1 ⟨h, hh, rfl, hfile⟩))
      exact nofun
    · have hold := hpass.2 (fun g hg hindex => index_injective ha hg hh hindex ▸ hfile)
      obtain ⟨r, _, _, c, hclass, hstart⟩ := sorted_hunk hs (hold.symm.trans hget)
      cases c with
      | unreviewable o' =>
        obtain rfl := Option.some.inj hstart
        exact (classifyFile_outcome hclass).2
      | reviewable => cases hstart
  | none =>
    rcases hunkOutcome_none hget e.path with heq | hfile
    · rw [heq]
      exact nofun
    · have hfiles := hfile
      rw [get?_fillDefaults] at hfiles
      rcases Option.or_eq_some_iff.mp hfiles with hset | ⟨_, hdefault⟩
      · obtain ⟨r, _, _, c, hclass, hc⟩ := hs.files _ _ hset
        rw [← hc]
        cases c with
        | unreviewable o' => exact (classifyFile_outcome hclass).2
        | reviewable => exact nofun
      · split at hdefault
        · rw [← Option.some.inj hdefault]
          exact (defaultOutcome_ne _).2
        · cases hdefault

include hchunks in
theorem single_sound : SingleSound plan := by
  refine ⟨?_, ?_, fun e he => single_not_partial ha hs hm he⟩
  · intro h hh
    rw [single_holders hchunks, if_pos (List.mem_map_of_mem hh)]
  · intro e he
    obtain ⟨h, _, _, hat, hiff, _⟩ := single_entry ha hs hm he
    rw [hiff, fileReviewed_iff plan.analysis hat]
    constructor
    · rintro ⟨reason, hget⟩
      obtain ⟨f, hf, hpath, hout⟩ := entry_of_file hm hget
      exact ⟨f, hf, hpath, hout⟩
    · rintro ⟨f, hf, hpath, hout⟩
      exact ⟨f.reason, by rw [← hpath, ← hout]; exact file_entry hm hf⟩

end single

section agreeing
variable {plan : LargeChangePlan rules} (ha : plan.analysis.Accounted)
include ha

/-- A record's hunk is the only one of the diff with its index. -/
theorem unique_hunk {r : DiffFileRecord} (hr : r ∈ plan.analysis.fileRecords) {i : Nat}
    (hi : i ∈ r.hunkIndexes) :
    ∃ h ∈ r.hunks, h.index = i ∧
      ∀ g ∈ plan.analysis.hunkRecords, g.index = i → g = h := by
  obtain ⟨h, hh, rfl⟩ := List.mem_map.mp hi
  exact ⟨h, hh, rfl, fun g hg hindex => index_injective ha hg (filed_mem ha hr hh) hindex⟩

theorem single_agreeing (hs : SortedFor rules limits plan.analysis {} sorting) {diff : Text}
    (hchunks : plan.chunks = [singleChunk diff plan.analysis])
    (hm : plan.coverage.toManifestFields = coverageFields plan.analysis
      (withDefaults plan.analysis (singleOutcomes plan.analysis sorting)))
    (hagree : PathsAgree rules limits plan.analysis) :
    AgreeingSound limits false {} plan := by
  refine ⟨fun _ => ?_, ?_, ?_⟩
  · intro r hr c hclass e he hi
    obtain ⟨h, hh, _, hunique⟩ := unique_hunk ha hr hi
    obtain ⟨g, hg, hindex, _, _, hout⟩ := single_entry ha hs hm he
    obtain rfl := hunique g hg hindex
    rw [hout]
    exact hunkOutcome_some (k := withDefaults plan.analysis (singleOutcomes plan.analysis sorting))
      (single_outcome ha hs hagree hr hclass hh) e.path
  · intro f hf hreviewed e he hpath
    exact ((single_sound ha hs hchunks hm).reviewed_iff e he).mpr ⟨f, hf, hpath.symm, hreviewed⟩
  · intro hfully r hr
    rw [CoverageManifest.fullyReviewed_iff] at hfully
    obtain ⟨_, _, hfiles, _⟩ := hfully
    obtain ⟨c, hclass⟩ := hs.classified r hr
    refine ⟨?_, fun i hi => .inl ?_⟩
    · cases c with
      | reviewable => exact hclass
      | unreviewable o =>
        obtain ⟨q, hq⟩ := List.exists_mem_of_ne_nil _ (hagree.named r hr)
        have hget : (withDefaults plan.analysis
            (singleOutcomes plan.analysis sorting)).files.get? q = some o := by
          rw [get?_fillDefaults]
          exact (sorted_file hs hagree hr hclass hq) ▸ Option.some_or
        obtain ⟨f, hf, _, hout⟩ := entry_of_file hm hget
        exact absurd (hout.symm.trans (hfiles f hf)) (classifyFile_outcome hclass).1
    · obtain ⟨h, hh, rfl⟩ := List.mem_map.mp hi
      exact (single_sound ha hs hchunks hm).chunk h (filed_mem ha hr hh)

theorem orchestrated_agreeing (hs : SortedFor rules limits plan.analysis reused sorting)
    (hchunks : plan.chunks = (packingOf limits budget plan.analysis sorting).chunks)
    (hm : plan.coverage.toManifestFields = coverageFields plan.analysis
      (withDefaults plan.analysis (orchestratedOutcomes plan.analysis
        (packingOf limits budget plan.analysis sorting) sorting)))
    (hagree : PathsAgree rules limits plan.analysis) :
    AgreeingSound limits true reused plan := by
  refine ⟨nofun, ?_, ?_⟩
  · intro f hf hreviewed e he hpath
    obtain ⟨h, hh, _, hat, hiff, _⟩ := orchestrated_entry ha hm he
    have hget := file_entry hm hf
    rw [hreviewed] at hget
    have hfile := fillDefaults_reviewed hget
      (fun heq => (defaultOutcome_ne plan.analysis).1 (congrArg Prod.fst heq).symm)
    exact hiff.mpr (orchestrated_path budget hs hagree ha hfile hh (hpath ▸ hat))
  · intro hfully r hr
    rw [CoverageManifest.fullyReviewed_iff] at hfully
    obtain ⟨_, _, hfiles, hhunks⟩ := hfully
    obtain ⟨c, hclass⟩ := hs.classified r hr
    refine ⟨?_, fun i hi => ?_⟩
    · cases c with
      | reviewable => exact hclass
      | unreviewable o =>
        obtain ⟨q, hq⟩ := List.exists_mem_of_ne_nil _ (hagree.named r hr)
        obtain ⟨o', hget, hne⟩ :=
          orchestrated_unreviewable_path budget hs hagree ha hr hclass hq
        have hfilled : (withDefaults plan.analysis (orchestratedOutcomes plan.analysis
            (packingOf limits budget plan.analysis sorting) sorting)).files.get? q = some o' := by
          rw [get?_fillDefaults, hget, Option.some_or]
        obtain ⟨f, hf, _, hout⟩ := entry_of_file hm hfilled
        exact absurd (hout.symm.trans (hfiles f hf)) hne
    · obtain ⟨h, hh, rfl⟩ := List.mem_map.mp hi
      obtain ⟨q, _, hat⟩ := hagree.placed r hr h hh
      obtain ⟨e, he, hindex, _⟩ := entry_of_hunk hm ha (filed_mem ha hr hh) hat
      obtain ⟨g, _, hgindex, _, hiff, _⟩ := orchestrated_entry ha hm he
      have hreviewed := (orchestrated_reviewed_iff ha hs hchunks g).mp (hiff.mp (hhunks e he))
      rw [hgindex, hindex] at hreviewed
      exact hreviewed.imp_right And.left

end agreeing

theorem planOutcomes_orchestrated {diff : Text} {chunks : List ReviewChunk} {k : Outcomes}
    (h : planOutcomes limits budget true diff analysis sorting = .ok (chunks, k)) :
    chunks = (packingOf limits budget analysis sorting).chunks ∧
      k = orchestratedOutcomes analysis (packingOf limits budget analysis sorting) sorting := by
  obtain ⟨rfl, rfl⟩ := Prod.mk.inj (Except.ok.inj h)
  exact ⟨rfl, rfl⟩

theorem planOutcomes_single {diff : Text} {chunks : List ReviewChunk} {k : Outcomes}
    (h : planOutcomes limits budget false diff analysis sorting = .ok (chunks, k)) :
    chunks = [singleChunk diff analysis] ∧ k = singleOutcomes analysis sorting := by
  unfold planOutcomes at h
  rw [if_neg Bool.false_ne_true] at h
  split at h
  · cases h
  · obtain ⟨rfl, rfl⟩ := Prod.mk.inj (Except.ok.inj h)
    exact ⟨rfl, rfl⟩

def sampleRules : PlanRules where
  nfc := fun _ => true
  forbidden := fun c => decide (c.toNat < 32)
  lower := fun t => t.map Char.toLower

/-- One changed line of a generated file. -/
def generatedDiff : Text :=
  text ("diff --git a/dist/app.js b/dist/app.js\n--- a/dist/app.js\n+++ b/dist/app.js\n" ++
    "@@ -1 +1 @@\n-old\n+new\n")

/-- Three hunks of one file. -/
def threeHunks : Text :=
  text ("diff --git a/a.py b/a.py\n--- a/a.py\n+++ b/a.py\n" ++
    "@@ -1 +1 @@\n-one\n+1\n@@ -5 +5 @@\n-two\n+2\n@@ -9 +9 @@\n-six\n+6\n")

/-- Which hunks the chunks hold, and what the plan reports of each. -/
def planReport (limits : ReviewLimits) (budget : TotalWorkBudget) (orchestrate : Bool)
    (diff : Text) : Option (List (List Nat) × List (Nat × CoverageOutcome)) :=
  (planChange limits budget orchestrate (none : Option (PriorResult sampleRules))
    diff).toOption.map (fun plan => (plan.chunks.map ReviewChunk.hunkIndexes,
      plan.coverage.hunks.map (fun e => (e.index, e.outcome))))

theorem planReport_some {limits : ReviewLimits} {budget : TotalWorkBudget} {orchestrate : Bool}
    {diff : Text} {chunks : List (List Nat)} {entries : List (Nat × CoverageOutcome)}
    (h : planReport limits budget orchestrate diff = some (chunks, entries)) :
    ∃ plan : LargeChangePlan sampleRules,
      planChange limits budget orchestrate none diff = .ok plan ∧
      (∀ i, plan.holders i = chunks.countP (fun indexes => decide (i ∈ indexes))) ∧
      ∀ p ∈ entries, ∃ e ∈ plan.coverage.hunks, e.index = p.1 ∧ e.outcome = p.2 := by
  obtain ⟨plan, hplan, heq⟩ := Option.map_eq_some_iff.mp h
  obtain ⟨rfl, rfl⟩ := Prod.mk.inj heq
  refine ⟨plan, ?_, fun i => ?_, fun p hp => ?_⟩
  · cases hresult : planChange limits budget orchestrate (none : Option (PriorResult sampleRules))
        diff with
    | error e =>
      rw [hresult] at hplan
      cases hplan
    | ok plan' =>
      rw [hresult] at hplan
      rw [Option.some.inj hplan]
  · rw [LargeChangePlan.holders, List.countP_map]
    rfl
  · obtain ⟨e, he, rfl⟩ := List.mem_map.mp hp
    exact ⟨e, he, rfl, rfl⟩

def smallRequests : ReviewLimits := { maxDiffBytes := 85 }

def oneChunk : TotalWorkBudget := { maxChunks := 1 }

end ReviewSensei.Planning
