import ReviewSensei.PlanOutcomes
import ReviewSensei.DiffTracking

/-! The coverage a plan reports against its chunks and the prior coverage it was given. -/
namespace ReviewSensei.Planning
open Diff Coverage
open Session (bind_ok)

variable {rules : PlanRules} {limits : ReviewLimits} (budget : TotalWorkBudget)
  {analysis : DiffAnalysis} {reused : PriorCoverage} {sorting : Sorting}

section accounted
variable (ha : analysis.Accounted)
include ha

theorem index_injective {h h' : DiffHunk} (hh : h ∈ analysis.hunkRecords)
    (hh' : h' ∈ analysis.hunkRecords) (heq : h.index = h'.index) : h = h' := by
  have hnodup : (analysis.hunkRecords.map DiffHunk.index).Nodup :=
    ha.sorted.imp (fun hlt => Nat.ne_of_lt hlt)
  exact List.inj_on_of_nodup_map hnodup hh hh' heq

theorem filed_indexes_nodup : (analysis.fileRecords.flatMap DiffFileRecord.hunkIndexes).Nodup := by
  have hnodup : (analysis.hunkRecords.map DiffHunk.index).Nodup :=
    ha.sorted.imp (fun hlt => Nat.ne_of_lt hlt)
  have hmap : analysis.fileRecords.flatMap DiffFileRecord.hunkIndexes =
      (analysis.fileRecords.flatMap DiffFileRecord.hunks).map DiffHunk.index := by
    rw [List.map_flatMap]
    rfl
  rw [hmap]
  exact hnodup.sublist (ha.filed.map DiffHunk.index)

theorem filed_mem {r : DiffFileRecord} (hr : r ∈ analysis.fileRecords) {h : DiffHunk}
    (hh : h ∈ r.hunks) : h ∈ analysis.hunkRecords :=
  ha.filed.subset (List.mem_flatMap.mpr ⟨r, hr, hh⟩)

/-- A hunk is in one file record. -/
theorem same_record {r r' : DiffFileRecord} (hr : r ∈ analysis.fileRecords)
    (hr' : r' ∈ analysis.fileRecords) {i : Nat} (hi : i ∈ r.hunkIndexes)
    (hi' : i ∈ r'.hunkIndexes) : r = r' := by
  have hpairwise := (List.nodup_flatMap.mp (filed_indexes_nodup ha)).2
  have hsymm : Std.Symm (Function.onFun List.Disjoint DiffFileRecord.hunkIndexes) :=
    ⟨fun _ _ h => List.Disjoint.symm h⟩
  by_contra hne
  exact hpairwise.forall hr hr' hne hi hi'

/-- A hunk is reported under its own path, which the inventory holds. -/
theorem coveredPath_eq {h : DiffHunk} (hh : h ∈ analysis.hunkRecords) :
    coveredPath analysis.changedPaths h = h.path := by
  obtain ⟨hold, hnew⟩ := ha.located h hh
  unfold coveredPath DiffHunk.path
  cases hn : h.newPath with
  | some q => simp [hnew q hn]
  | none =>
    cases ho : h.oldPath with
    | some q => simp [hold q ho]
    | none => rfl

theorem path_mem {h : DiffHunk} (hh : h ∈ analysis.hunkRecords) {q : Path} (hq : h.path = some q) :
    q ∈ analysis.changedPaths := by
  obtain ⟨hold, hnew⟩ := ha.located h hh
  unfold DiffHunk.path at hq
  rcases Option.or_eq_some_iff.mp hq with hnewPath | ⟨_, holdPath⟩
  · exact hnew q hnewPath
  · exact hold q holdPath

end accounted

theorem get?_fillDefaults (files : Dict Path Outcome) (q : Path) :
    (fillDefaults analysis files).get? q =
      (files.get? q).or (if q ∈ analysis.changedPaths then some (defaultOutcome analysis)
        else none) := by
  unfold fillDefaults
  induction analysis.changedPaths using List.reverseRecOn with
  | nil => simp
  | append_singleton rest path ih =>
    rw [List.foldl_append, List.foldl_cons, List.foldl_nil, Dict.get?_setDefault, ih]
    by_cases hq : path = q
    · subst hq
      rw [ih]
      cases files.get? path with
      | some o => simp
      | none =>
        by_cases hmem : path ∈ rest <;> simp [hmem]
    · have hne : q ≠ path := fun e => hq e.symm
      simp [hq, hne]

theorem defaultOutcome_ne (analysis : DiffAnalysis) :
    (defaultOutcome analysis).1 ≠ .reviewed ∧ (defaultOutcome analysis).1 ≠ .partiallyReviewed := by
  unfold defaultOutcome
  split <;> exact ⟨nofun, nofun⟩

/-- A path is reviewed after the defaults exactly if it was before. -/
theorem fillDefaults_reviewed {files : Dict Path Outcome} {q : Path} {o : Outcome}
    (h : (fillDefaults analysis files).get? q = some o) (hne : o ≠ defaultOutcome analysis) :
    files.get? q = some o := by
  rw [get?_fillDefaults] at h
  cases hfile : files.get? q with
  | some o' =>
    rw [hfile] at h
    exact h
  | none =>
    rw [hfile] at h
    simp only [Option.none_or] at h
    split at h
    · exact absurd (Option.some.inj h).symm hne
    · cases h

/-- The chunks that carry the hunk. -/
def LargeChangePlan.holders (plan : LargeChangePlan rules) (i : Nat) : Nat :=
  plan.chunks.countP (fun c => decide (i ∈ c.hunkIndexes))

theorem countP_le_count (chunks : List ReviewChunk) (i : Nat) :
    chunks.countP (fun c => decide (i ∈ c.hunkIndexes)) ≤
      (chunks.flatMap ReviewChunk.hunkIndexes).count i := by
  induction chunks with
  | nil => exact Nat.le_refl _
  | cons c rest ih =>
    rw [List.countP_cons, List.flatMap_cons, List.count_append]
    by_cases hi : i ∈ c.hunkIndexes
    · have hpos := List.count_pos_iff.mpr hi
      simp only [hi, decide_true, if_true]
      omega
    · simp only [hi, decide_false, Bool.false_eq_true, if_false]
      omega

theorem holders_pos (chunks : List ReviewChunk) (i : Nat) :
    0 < chunks.countP (fun c => decide (i ∈ c.hunkIndexes)) ↔
      i ∈ chunks.flatMap ReviewChunk.hunkIndexes := by
  simp [List.countP_pos_iff, List.mem_flatMap]

/-- The classification of the analysis' records is known and has been carried out. -/
abbrev SortedFor (rules : PlanRules) (limits : ReviewLimits) (analysis : DiffAnalysis)
    (reused : PriorCoverage) (sorting : Sorting) : Prop :=
  Sorted rules analysis.binaryPaths limits reused analysis.fileRecords sorting

theorem placement_packed {k : Packing} {i : Nat} (hi : i ∈ k.packed) : 0 < k.placements i := by
  have := List.count_pos_iff.mpr hi
  unfold Packing.placements
  omega

theorem placement_spilled {k : Packing} {i : Nat} (hi : i ∈ k.spilled) : 0 < k.placements i := by
  have := List.count_pos_iff.mpr hi
  unfold Packing.placements
  omega

/-- The packing of a sorted analysis. -/
abbrev packingOf (limits : ReviewLimits) (budget : TotalWorkBudget) (analysis : DiffAnalysis)
    (sorting : Sorting) : Packing :=
  packRecords limits budget.maxChunks analysis.changedPaths sorting.reviewable

def overflowPass (k : Packing) (sorting : Sorting) : Outcomes :=
  k.overflow.foldl (overflowRecord k.overflowReason (k.chunks.flatMap ReviewChunk.paths) k.packed)
    ⟨sorting.fileOutcomes, sorting.hunkOutcomes⟩

/-- The maps before the reconciliation. -/
def packedPass (k : Packing) (sorting : Sorting) : Outcomes :=
  sorting.reviewable.foldl (packedRecord (k.chunks.flatMap ReviewChunk.paths)
    (k.overflow.flatMap DiffFileRecord.coveragePaths) k.packed) (overflowPass k sorting)

theorem orchestratedOutcomes_eq (analysis : DiffAnalysis) (k : Packing) (sorting : Sorting) :
    orchestratedOutcomes analysis k sorting = { packedPass k sorting with
      files := analysis.changedPaths.foldl
        (reconcilePath analysis.hunkRecords (packedPass k sorting).hunks)
        (packedPass k sorting).files } := rfl

theorem get?_packedPass_hunks (k : Packing) (sorting : Sorting) (i : Nat) :
    (packedPass k sorting).hunks.get? i =
      if i ∈ k.packed ∧ i ∈ sorting.reviewable.flatMap DiffFileRecord.hunkIndexes then
        some reviewedOutcome
      else (overflowPass k sorting).hunks.get? i :=
  packedPass_hunks _ _ _ _ _ _

section orchestrated
variable (hs : SortedFor rules limits analysis reused sorting)
include hs

/-- A hunk that packing has touched is an unreviewed one of a reviewable record. -/
theorem placement_origin {i : Nat}
    (hi : 0 < (packingOf limits budget analysis sorting).placements i) :
    ∃ r ∈ analysis.fileRecords, classifyFile rules analysis.binaryPaths limits r = .ok .reviewable ∧
      i ∈ r.hunkIndexes ∧ i ∉ reused.hunks := by
  have honce := (packRecords_packed limits budget.maxChunks analysis.changedPaths
    sorting.reviewable).1.once i
  have hmem : i ∈ sorting.reviewable.flatMap DiffFileRecord.hunkIndexes :=
    List.count_pos_iff.mp (Nat.lt_of_lt_of_le hi honce)
  obtain ⟨r', hr', hi'⟩ := List.mem_flatMap.mp hmem
  obtain ⟨r, hr, hclass, hremainder⟩ := hs.origin r' hr'
  exact ⟨r, hr, hclass, (hremainder.mem_iff i).mp hi'⟩

/-- The outcome map of an orchestrated plan, for each kind of hunk. -/
theorem orchestrated_hunks (i : Nat) :
    let k := packingOf limits budget analysis sorting
    (i ∈ k.packed → (packedPass k sorting).hunks.get? i = some reviewedOutcome) ∧
    (i ∉ k.packed → i ∉ k.spilled →
      (packedPass k sorting).hunks.get? i = sorting.hunkOutcomes.get? i) ∧
    (i ∉ k.packed → i ∈ k.spilled →
      ∃ o, (packedPass k sorting).hunks.get? i = some o ∧
        o.1 = overflowOutcome k.overflowReason) := by
  intro k
  have hpass := get?_packedPass_hunks k sorting i
  obtain ⟨hkept, hset⟩ := overflowPass_hunks k.overflowReason (k.chunks.flatMap ReviewChunk.paths)
    k.packed ⟨sorting.fileOutcomes, sorting.hunkOutcomes⟩ k.overflow i
  refine ⟨fun hi => ?_, fun hi hnot => ?_, fun hi hmem => ?_⟩
  · obtain ⟨r, hr, hclass, hmem, hprior⟩ := placement_origin budget hs (placement_packed hi)
    obtain ⟨r', hr', hremainder⟩ := hs.left r hr hclass i hmem hprior
    refine hpass.trans (if_pos ⟨hi, ?_⟩)
    exact List.mem_flatMap.mpr ⟨r', hr', (hremainder.mem_iff i).mpr ⟨hmem, hprior⟩⟩
  · exact (hpass.trans (if_neg (fun h => hi h.1))).trans (hkept (.inr hnot))
  · obtain ⟨o, ho, hout⟩ := hset hi hmem
    exact ⟨o, (hpass.trans (if_neg (fun h => hi h.1))).trans ho, hout⟩

/-- A hunk that packing has not touched keeps what its record's classification said. -/
theorem orchestrated_untouched {r : DiffFileRecord} (hr : r ∈ analysis.fileRecords)
    {c : Classification} (hclass : classifyFile rules analysis.binaryPaths limits r = .ok c)
    {i : Nat} (hi : i ∈ r.hunkIndexes)
    (hnone : ¬ 0 < (packingOf limits budget analysis sorting).placements i) :
    i ∉ (packingOf limits budget analysis sorting).packed ∧
      (packedPass (packingOf limits budget analysis sorting) sorting).hunks.get? i =
        startOutcome reused i c := by
  have hpacked : i ∉ (packingOf limits budget analysis sorting).packed :=
    fun h => hnone (placement_packed h)
  refine ⟨hpacked, ?_⟩
  rw [(orchestrated_hunks budget hs i).2.1 hpacked (fun h => hnone (placement_spilled h))]
  exact hs.hunks r hr i hi c hclass

theorem orchestrated_prior {r : DiffFileRecord} (hr : r ∈ analysis.fileRecords)
    (hclass : classifyFile rules analysis.binaryPaths limits r = .ok .reviewable) {i : Nat}
    (hi : i ∈ r.hunkIndexes) (hprior : i ∈ reused.hunks) :
    i ∉ (packingOf limits budget analysis sorting).packed ∧
      (packedPass (packingOf limits budget analysis sorting) sorting).hunks.get? i =
        some reviewedOutcome := by
  have hnone : ¬ 0 < (packingOf limits budget analysis sorting).placements i := by
    intro hpos
    obtain ⟨_, _, _, _, hnot⟩ := placement_origin budget hs hpos
    exact hnot hprior
  obtain ⟨hpacked, hget⟩ := orchestrated_untouched budget hs hr hclass hi hnone
  exact ⟨hpacked, hget.trans (if_pos hprior)⟩

theorem orchestrated_unreviewable (ha : analysis.Accounted) {r : DiffFileRecord}
    (hr : r ∈ analysis.fileRecords) {o : Outcome}
    (hclass : classifyFile rules analysis.binaryPaths limits r = .ok (.unreviewable o)) {i : Nat}
    (hi : i ∈ r.hunkIndexes) :
    i ∉ (packingOf limits budget analysis sorting).packed ∧
      (packedPass (packingOf limits budget analysis sorting) sorting).hunks.get? i = some o := by
  have hnone : ¬ 0 < (packingOf limits budget analysis sorting).placements i := by
    intro hpos
    obtain ⟨r', hr', hclass', hi', _⟩ := placement_origin budget hs hpos
    rw [same_record ha hr hr' hi hi', hclass'] at hclass
    cases hclass
  exact orchestrated_untouched budget hs hr hclass hi hnone

/-- An unreviewed hunk in no chunk overflows, or was cut off behind one that overflowed. -/
theorem orchestrated_left {r : DiffFileRecord} (hr : r ∈ analysis.fileRecords)
    (hclass : classifyFile rules analysis.binaryPaths limits r = .ok .reviewable) {i : Nat}
    (hi : i ∈ r.hunkIndexes) (hprior : i ∉ reused.hunks)
    (hpacked : i ∉ (packingOf limits budget analysis sorting).packed) :
    let k := packingOf limits budget analysis sorting
    (∃ o ∈ k.overflow, o.coveragePaths = r.coveragePaths) ∧
      (i ∈ k.spilled ∨
        (i ∉ k.spilled ∧ (packedPass k sorting).hunks.get? i = none ∧
          ∃ r' ∈ sorting.reviewable, Remainder reused r r' ∧
            CutOff limits budget.maxChunks r' k i)) := by
  intro k
  obtain ⟨r', hr', hremainder⟩ := hs.left r hr hclass i hi hprior
  have hi' := (hremainder.mem_iff i).mpr ⟨hi, hprior⟩
  obtain ⟨hrecords, hcurrent⟩ := packRecords_packed limits budget.maxChunks analysis.changedPaths
    sorting.reviewable
  rcases hrecords.placed r' hr' i hi' with hp | hheld | ⟨⟨o, ho, hpaths⟩, hwhy⟩
  · exact absurd hp hpacked
  · simp [Packing.held, hcurrent] at hheld
  · refine ⟨⟨o, ho, hpaths.trans hremainder.paths⟩, ?_⟩
    by_cases hspilled : i ∈ k.spilled
    · exact .inl hspilled
    · refine .inr ⟨hspilled, ?_, r', hr', hremainder, hwhy.resolve_left hspilled⟩
      rw [(orchestrated_hunks budget hs i).2.1 hpacked hspilled, hs.hunks r hr i hi _ hclass]
      exact if_neg hprior

end orchestrated

theorem isReviewed_of_get? {hunks : Dict Nat Outcome} {h : DiffHunk} {o : Outcome}
    (ho : hunks.get? h.index = some o) : isReviewed hunks h ↔ o.1 = .reviewed := by
  simp [isReviewed, hunkState, ho]

theorem not_isReviewed_of_none {hunks : Dict Nat Outcome} {h : DiffHunk}
    (hnone : hunks.get? h.index = none) : ¬ isReviewed hunks h := by
  simp [isReviewed, hunkState, hnone, incompleteOutcome]

/-- A hunk is reported reviewed exactly if its own outcome says so. -/
theorem hunkOutcome_reviewed (k : Outcomes) (h : DiffHunk) (q : Path) :
    (hunkOutcome k h q).1 = .reviewed ↔ isReviewed k.hunks h := by
  unfold hunkOutcome
  cases hget : k.hunks.get? h.index with
  | some o => exact (isReviewed_of_get? hget).symm
  | none =>
    have hnot := not_isReviewed_of_none hget
    refine iff_of_false ?_ hnot
    dsimp only
    split
    · exact nofun
    · next o hne _ =>
      obtain ⟨outcome, reason⟩ := o
      rintro rfl
      exact hne reason rfl
    · exact nofun

theorem hunkOutcome_some {k : Outcomes} {h : DiffHunk} {o : Outcome}
    (hget : k.hunks.get? h.index = some o) (q : Path) : hunkOutcome k h q = o := by
  simp [hunkOutcome, hget]

theorem hunkOutcome_none {k : Outcomes} {h : DiffHunk} (hget : k.hunks.get? h.index = none)
    (q : Path) : hunkOutcome k h q = incompleteOutcome ∨
      k.files.get? q = some (hunkOutcome k h q) := by
  unfold hunkOutcome
  rw [hget]
  dsimp only
  split
  · exact .inl rfl
  · next hfile => exact .inr hfile
  · exact .inl rfl

/-- Records that share a path are classified alike, and hunks lie at paths of their records. -/
structure PathsAgree (rules : PlanRules) (limits : ReviewLimits) (analysis : DiffAnalysis) :
    Prop where
  whole : ∀ h ∈ analysis.hunkRecords, ∃ r ∈ analysis.fileRecords, h ∈ r.hunks
  placed : ∀ r ∈ analysis.fileRecords, ∀ h ∈ r.hunks, ∃ q ∈ r.coveragePaths, h.path = some q
  named : ∀ r ∈ analysis.fileRecords, r.coveragePaths ≠ []
  agree : ∀ r ∈ analysis.fileRecords, ∀ r' ∈ analysis.fileRecords, ∀ q ∈ r.coveragePaths,
    q ∈ r'.coveragePaths → classifyFile rules analysis.binaryPaths limits r =
      classifyFile rules analysis.binaryPaths limits r'

section agreeing
variable (hs : SortedFor rules limits analysis reused sorting)
  (hagree : PathsAgree rules limits analysis)
include hs hagree

theorem sorted_file {r : DiffFileRecord} (hr : r ∈ analysis.fileRecords) {c : Classification}
    (hclass : classifyFile rules analysis.binaryPaths limits r = .ok c) {q : Path}
    (hq : q ∈ r.coveragePaths) : sorting.fileOutcomes.get? q = some c.outcome := by
  obtain ⟨o, ho⟩ := Option.isSome_iff_exists.mp (hs.named r hr q hq)
  obtain ⟨r', hr', hq', c', hclass', rfl⟩ := hs.files q o ho
  rw [hagree.agree r hr r' hr' q hq hq', hclass'] at hclass
  rw [ho, Except.ok.inj hclass]

/-- The file map before the reconciliation, at a path of an unreviewable record. -/
theorem packedPass_unreviewable {r : DiffFileRecord} (hr : r ∈ analysis.fileRecords) {o : Outcome}
    (hclass : classifyFile rules analysis.binaryPaths limits r = .ok (.unreviewable o)) {q : Path}
    (hq : q ∈ r.coveragePaths) :
    (packedPass (packingOf limits budget analysis sorting) sorting).files.get? q = some o := by
  have hforeign : ∀ r' ∈ sorting.reviewable, q ∉ r'.coveragePaths := by
    intro r' hr' hq'
    obtain ⟨r₀, hr₀, hclass₀, hremainder⟩ := hs.origin r' hr'
    rw [hagree.agree r hr r₀ hr₀ q hq (hremainder.paths ▸ hq'), hclass₀] at hclass
    cases hclass
  have hover : q ∉ (packingOf limits budget analysis sorting).overflow.flatMap
      DiffFileRecord.coveragePaths := by
    intro hmem
    obtain ⟨o', ho', hq'⟩ := List.mem_flatMap.mp hmem
    obtain ⟨r', hr', hpaths⟩ := (packRecords_packed limits budget.maxChunks analysis.changedPaths
      sorting.reviewable).1.origin o' ho'
    exact hforeign r' hr' (hpaths ▸ hq')
  rcases packedPass_files _ _ _ _ sorting.reviewable q with heq | ⟨_, _, r', hr', hq'⟩
  · refine heq.trans (((overflowPass_files _ q).1 hover).trans ?_)
    exact sorted_file hs hagree hr hclass hq
  · exact absurd hq' (hforeign r' hr')

/-- No hunk at a path of an unreviewable record is reviewed. -/
theorem unreviewable_hunks (ha : analysis.Accounted) {r : DiffFileRecord}
    (hr : r ∈ analysis.fileRecords) {o : Outcome}
    (hclass : classifyFile rules analysis.binaryPaths limits r = .ok (.unreviewable o)) {q : Path}
    (hq : q ∈ r.coveragePaths) {h : DiffHunk} (hh : h ∈ analysis.hunkRecords) (hat : At q h) :
    ¬ isReviewed (packedPass (packingOf limits budget analysis sorting) sorting).hunks h := by
  obtain ⟨r', hr', hmem⟩ := hagree.whole h hh
  obtain ⟨q', hq', hat'⟩ := hagree.placed r' hr' h hmem
  obtain rfl : q = q' := Option.some.inj (hat.symm.trans hat')
  rw [hagree.agree r hr r' hr' q hq hq'] at hclass
  have hget := (orchestrated_unreviewable budget hs ha hr' hclass (List.mem_map_of_mem hmem)).2
  rw [isReviewed_of_get? hget]
  exact (classifyFile_outcome hclass).1

theorem orchestrated_unreviewable_path (ha : analysis.Accounted) {r : DiffFileRecord}
    (hr : r ∈ analysis.fileRecords) {o : Outcome}
    (hclass : classifyFile rules analysis.binaryPaths limits r = .ok (.unreviewable o)) {q : Path}
    (hq : q ∈ r.coveragePaths) :
    ∃ o', (orchestratedOutcomes analysis (packingOf limits budget analysis sorting)
      sorting).files.get? q = some o' ∧ o'.1 ≠ .reviewed := by
  have hpasses := packedPass_unreviewable budget hs hagree hr hclass hq
  rw [orchestratedOutcomes_eq]
  rcases reconcile_get? analysis.hunkRecords
    (packedPass (packingOf limits budget analysis sorting) sorting).hunks q
    analysis.changedPaths _ with heq | ⟨reason, hpartial⟩ | ⟨⟨h, hh, hat⟩, hall⟩
  · exact ⟨o, heq.trans hpasses, (classifyFile_outcome hclass).1⟩
  · exact ⟨_, hpartial, nofun⟩
  · exact absurd (hall h hh hat) (unreviewable_hunks budget hs hagree ha hr hclass hq hh hat)

/-- A path is reviewed in an orchestrated plan only if all its hunks are. -/
theorem orchestrated_path (ha : analysis.Accounted) {q : Path} {reason : Option CoverageReason}
    (hfile : (orchestratedOutcomes analysis (packingOf limits budget analysis sorting)
      sorting).files.get? q = some (.reviewed, reason))
    {h : DiffHunk} (hh : h ∈ analysis.hunkRecords) (hat : At q h) :
    isReviewed (packedPass (packingOf limits budget analysis sorting) sorting).hunks h := by
  by_contra hnot
  obtain ⟨r, hr, hmem⟩ := hagree.whole h hh
  obtain ⟨q', hq', hat'⟩ := hagree.placed r hr h hmem
  obtain rfl : q = q' := Option.some.inj (hat.symm.trans hat')
  have hi : h.index ∈ r.hunkIndexes := List.mem_map_of_mem hmem
  obtain ⟨c, hclass⟩ := hs.classified r hr
  cases c with
  | unreviewable o =>
    obtain ⟨o', ho', hne⟩ := orchestrated_unreviewable_path budget hs hagree ha hr hclass hq'
    rw [hfile] at ho'
    exact hne (by rw [← Option.some.inj ho'])
  | reviewable =>
    -- the hunk is in no chunk, so its record overflows and takes the path with it
    have hprior : h.index ∉ reused.hunks := fun hp => hnot
      ((isReviewed_of_get? (orchestrated_prior budget hs hr hclass hi hp).2).mpr rfl)
    have hpacked : h.index ∉ (packingOf limits budget analysis sorting).packed := fun hp => hnot
      ((isReviewed_of_get? ((orchestrated_hunks budget hs h.index).1 hp)).mpr rfl)
    obtain ⟨⟨o, ho, hpaths⟩, _⟩ := orchestrated_left budget hs hr hclass hi hprior hpacked
    have hover : q ∈ (packingOf limits budget analysis sorting).overflow.flatMap
        DiffFileRecord.coveragePaths := List.mem_flatMap.mpr ⟨o, ho, hpaths ▸ hq'⟩
    rw [orchestratedOutcomes_eq] at hfile
    rcases reconcile_get? analysis.hunkRecords
      (packedPass (packingOf limits budget analysis sorting) sorting).hunks q
      analysis.changedPaths _ with heq | ⟨reason', hpartial⟩ | ⟨_, hall⟩
    · have hbefore := heq.symm.trans hfile
      rcases packedPass_files _ _ _ _ sorting.reviewable q with hkept | ⟨_, hnotover, _⟩
      · obtain ⟨o', ho', hne⟩ := (overflowPass_files _ q).2 hover
        exact hne (congrArg Prod.fst (Option.some.inj (ho'.symm.trans (hkept.symm.trans hbefore))))
      · exact hnotover hover
    · cases hpartial.symm.trans hfile
    · exact hnot (hall h hh hat)

end agreeing

/-- The file of the hunk is reviewed before the hunks are looked at. -/
def FileReviewed (files : Dict Path Outcome) (h : DiffHunk) : Prop :=
  ∃ q reason, h.path = some q ∧ files.get? q = some (.reviewed, reason)

theorem singleHunk_cases (files : Dict Path Outcome) (d : Dict Nat Outcome) (h : DiffHunk) :
    (FileReviewed files h ∧ singleHunk files d h = d.set h.index reviewedOutcome) ∨
      (¬ FileReviewed files h ∧ singleHunk files d h = d) := by
  unfold singleHunk
  cases hpath : h.path with
  | none => exact .inr ⟨fun ⟨q, _, hq, _⟩ => by simp [hpath] at hq, rfl⟩
  | some q =>
    cases hfile : files.get? q with
    | none =>
      refine .inr ⟨fun ⟨q', _, hq, hget⟩ => ?_, by simp [hfile]⟩
      obtain rfl : q = q' := Option.some.inj (hpath.symm.trans hq)
      cases hfile.symm.trans hget
    | some o =>
      obtain ⟨outcome, reason⟩ := o
      by_cases hreviewed : outcome = .reviewed
      · subst hreviewed
        exact .inl ⟨⟨q, reason, hpath, hfile⟩, by simp [hfile]⟩
      · refine .inr ⟨fun ⟨q', _, hq, hget⟩ => ?_, ?_⟩
        · obtain rfl : q = q' := Option.some.inj (hpath.symm.trans hq)
          exact hreviewed (congrArg Prod.fst (Option.some.inj (hfile.symm.trans hget)))
        · rw [Option.bind_some, hfile]
          cases outcome <;> first | rfl | exact absurd rfl hreviewed

theorem singlePass_hunks (files : Dict Path Outcome) (d : Dict Nat Outcome)
    (records : List DiffHunk) (i : Nat) :
    ((∃ h ∈ records, h.index = i ∧ FileReviewed files h) →
      (records.foldl (singleHunk files) d).get? i = some reviewedOutcome) ∧
    ((∀ h ∈ records, h.index = i → ¬ FileReviewed files h) →
      (records.foldl (singleHunk files) d).get? i = d.get? i) := by
  induction records using List.reverseRecOn with
  | nil => exact ⟨nofun, fun _ => rfl⟩
  | append_singleton rest h ih =>
    rw [List.foldl_append, List.foldl_cons, List.foldl_nil]
    rcases singleHunk_cases files (rest.foldl (singleHunk files) d) h with
      ⟨hreviewed, heq⟩ | ⟨hnot, heq⟩
    · rw [heq, Dict.get?_set]
      refine ⟨fun ⟨g, hg, hindex, hgr⟩ => ?_, fun hnone => ?_⟩
      · split
        · rfl
        · next hne =>
          rcases List.mem_append.mp hg with hrest | hlast
          · exact ih.1 ⟨g, hrest, hindex, hgr⟩
          · exact absurd (List.mem_singleton.mp hlast ▸ hindex) hne
      · split
        · next hi =>
          exact absurd hreviewed (hnone h (List.mem_append_right _ List.mem_cons_self) hi)
        · exact ih.2 (fun g hg => hnone g (List.mem_append_left _ hg))
    · rw [heq]
      refine ⟨fun ⟨g, hg, hindex, hgr⟩ => ?_, fun hnone => ?_⟩
      · rcases List.mem_append.mp hg with hrest | hlast
        · exact ih.1 ⟨g, hrest, hindex, hgr⟩
        · exact absurd (List.mem_singleton.mp hlast ▸ hgr) hnot
      · exact ih.2 (fun g hg => hnone g (List.mem_append_left _ hg))

/-- What the classification pass says of a hunk comes from its record. -/
theorem sorted_hunk (hs : SortedFor rules limits analysis reused sorting) {i : Nat} {o : Outcome}
    (h : sorting.hunkOutcomes.get? i = some o) :
    ∃ r ∈ analysis.fileRecords, i ∈ r.hunkIndexes ∧
      ∃ c, classifyFile rules analysis.binaryPaths limits r = .ok c ∧
        startOutcome reused i c = some o := by
  by_cases hi : i ∈ analysis.fileRecords.flatMap DiffFileRecord.hunkIndexes
  · obtain ⟨r, hr, hmem⟩ := List.mem_flatMap.mp hi
    obtain ⟨c, hclass⟩ := hs.classified r hr
    exact ⟨r, hr, hmem, c, hclass, (hs.hunks r hr i hmem c hclass).symm.trans h⟩
  · rw [hs.unknown i hi] at h
    cases h

section single
variable (ha : analysis.Accounted) (hs : SortedFor rules limits analysis {} sorting)
include ha hs

/-- In one request a hunk is reviewed exactly if its file is. -/
theorem single_reviewed {h : DiffHunk} (hh : h ∈ analysis.hunkRecords) :
    isReviewed (singleOutcomes analysis sorting).hunks h ↔
      FileReviewed sorting.fileOutcomes h := by
  obtain ⟨hset, hkept⟩ :=
    singlePass_hunks sorting.fileOutcomes sorting.hunkOutcomes analysis.hunkRecords h.index
  constructor
  · intro hreviewed
    by_contra hnot
    have hget := hkept (fun g hg hindex => index_injective ha hg hh hindex ▸ hnot)
    cases hold : sorting.hunkOutcomes.get? h.index with
    | none => exact not_isReviewed_of_none (hget.trans hold) hreviewed
    | some o =>
      have ho := (isReviewed_of_get? (hget.trans hold)).mp hreviewed
      obtain ⟨r, _, _, c, hclass, hstart⟩ := sorted_hunk hs hold
      cases c with
      | unreviewable o' =>
        obtain rfl := Option.some.inj hstart
        exact (classifyFile_outcome hclass).1 ho
      | reviewable => cases hstart
  · intro hfile
    exact (isReviewed_of_get? (hset ⟨h, hh, rfl, hfile⟩)).mpr rfl

/-- Where paths agree, a hunk in one request has the outcome of its record. -/
theorem single_outcome (hagree : PathsAgree rules limits analysis) {r : DiffFileRecord}
    (hr : r ∈ analysis.fileRecords) {c : Classification}
    (hclass : classifyFile rules analysis.binaryPaths limits r = .ok c) {h : DiffHunk}
    (hh : h ∈ r.hunks) :
    (singleOutcomes analysis sorting).hunks.get? h.index = some c.outcome := by
  obtain ⟨q, hq, hpath⟩ := hagree.placed r hr h hh
  have hfile := sorted_file hs hagree hr hclass hq
  have hmem := filed_mem ha hr hh
  obtain ⟨hset, hkept⟩ :=
    singlePass_hunks sorting.fileOutcomes sorting.hunkOutcomes analysis.hunkRecords h.index
  cases c with
  | reviewable => exact hset ⟨h, hmem, rfl, q, none, hpath, hfile⟩
  | unreviewable o =>
    refine (hkept fun g hg hindex => ?_).trans
      (hs.hunks r hr h.index (List.mem_map_of_mem hh) _ hclass)
    rw [index_injective ha hg hmem hindex]
    rintro ⟨q', reason, hpath', hget⟩
    obtain rfl : q = q' := Option.some.inj (hpath.symm.trans hpath')
    have ho := Option.some.inj (hfile.symm.trans hget)
    exact (classifyFile_outcome hclass).1 (congrArg Prod.fst ho)

end single

/-- The outcome maps with the defaults filled in. -/
abbrev withDefaults (analysis : DiffAnalysis) (k : Outcomes) : Outcomes :=
  { k with files := fillDefaults analysis k.files }

/-- The steps of an accepted plan. -/
theorem planChange_ok {orchestrate : Bool} {prior : Option (PriorResult rules)} {diff : Text}
    {plan : LargeChangePlan rules}
    (h : planChange limits budget orchestrate prior diff = .ok plan) :
    ∃ reused sorting k, analyzeForPlan rules limits budget orchestrate diff = .ok plan.analysis ∧
      priorFor limits orchestrate plan.analysis prior = .ok reused ∧
      sortRecords rules plan.analysis.binaryPaths limits reused
        plan.analysis.fileRecords {} = .ok sorting ∧
      planOutcomes limits budget orchestrate diff plan.analysis sorting = .ok (plan.chunks, k) ∧
      plan.coverage.toManifestFields =
        coverageFields plan.analysis (withDefaults plan.analysis k) := by
  obtain ⟨analysis, hanalysis, h⟩ := bind_ok h
  obtain ⟨reused, hreused, h⟩ := bind_ok h
  split at h
  · cases h
  obtain ⟨sorting, hsorting, h⟩ := bind_ok h
  obtain ⟨⟨chunks, k⟩, houtcomes, h⟩ := bind_ok h
  obtain ⟨coverage, hcoverage, h⟩ := bind_ok h
  obtain rfl := Except.ok.inj h
  exact ⟨reused, sorting, k, hanalysis, hreused, hsorting, houtcomes,
    CoverageManifest.construct_ok hcoverage⟩

theorem analyzeForPlan_accounted {orchestrate : Bool} {diff : Text}
    (h : analyzeForPlan rules limits budget orchestrate diff = .ok analysis) :
    analysis.Accounted := by
  unfold analyzeForPlan at h
  split at h
  · exact analyzeDiff_accounted h
  · exact analyzeDiff_accounted h

theorem sortRecords_sorted (ha : analysis.Accounted)
    (h : sortRecords rules analysis.binaryPaths limits reused analysis.fileRecords {} =
      .ok sorting) : SortedFor rules limits analysis reused sorting := by
  have := sorted_nil.records analysis.fileRecords (filed_indexes_nodup ha) h
  rwa [List.nil_append] at this

section entries
variable {k : Outcomes} {m : CoverageManifest rules.toUnicodeRules}
  (hm : m.toManifestFields = coverageFields analysis k)
include hm

/-- An entry reports one hunk, under its own path. -/
theorem hunk_entry (ha : analysis.Accounted) {e : HunkCoverage} (he : e ∈ m.hunks) :
    ∃ h ∈ analysis.hunkRecords, h.index = e.index ∧ At e.path h ∧
      (e.outcome, e.reason) = hunkOutcome k h e.path := by
  rw [hm] at he
  obtain ⟨h, hh, hsome⟩ := List.mem_filterMap.mp he
  rw [hunkCoverage, coveredPath_eq ha hh] at hsome
  obtain ⟨q, hq, rfl⟩ := Option.map_eq_some_iff.mp hsome
  exact ⟨h, hh, rfl, hq, rfl⟩

theorem entry_of_hunk (ha : analysis.Accounted) {h : DiffHunk} (hh : h ∈ analysis.hunkRecords)
    {q : Path} (hat : At q h) : ∃ e ∈ m.hunks, e.index = h.index ∧ e.path = q := by
  rw [hm]
  refine ⟨⟨h.index, q, (hunkOutcome k h q).1, (hunkOutcome k h q).2⟩,
    List.mem_filterMap.mpr ⟨h, hh, ?_⟩, rfl, rfl⟩
  rw [hunkCoverage, coveredPath_eq ha hh, hat]
  rfl

theorem file_entry {f : FileCoverage} (hf : f ∈ m.files) :
    k.files.get? f.path = some (f.outcome, f.reason) := by
  have hnodup := (ManifestFields.check_ok m.accepted).1
  rw [hm] at hf hnodup
  obtain ⟨⟨q, o⟩, hmem, rfl⟩ := List.mem_map.mp hf
  rw [List.mem_insertionSort] at hmem
  refine Dict.get?_of_mem ?_ hmem
  have hperm := (List.perm_insertionSort (fun a b : Path × Outcome => a.1 ≤ b.1) k.files).map Prod.fst
  refine hperm.nodup_iff.mp ?_
  have hpaths : (coverageFields analysis k).filePaths =
      (k.files.insertionSort (fun a b => a.1 ≤ b.1)).map Prod.fst := by
    simp [ManifestFields.filePaths, coverageFields, List.map_map, Function.comp_def]
  rwa [hpaths] at hnodup

theorem entry_of_file {q : Path} {o : Outcome} (h : k.files.get? q = some o) :
    ∃ f ∈ m.files, f.path = q ∧ f.outcome = o.1 := by
  rw [hm]
  refine ⟨⟨q, o.1, o.2⟩, List.mem_map.mpr ⟨(q, o), ?_, rfl⟩, rfl, rfl⟩
  rw [List.mem_insertionSort]
  exact Dict.mem_of_get? h

end entries

end ReviewSensei.Planning
