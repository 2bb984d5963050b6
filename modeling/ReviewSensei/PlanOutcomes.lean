import ReviewSensei.PlanPacking
import ReviewSensei.SessionSteps
import Mathlib.Data.List.Induction

/-! What each pass of planning writes in the outcome maps of paths and hunks. -/
namespace ReviewSensei.Planning
open Diff Coverage
open Session (bind_ok)

variable {rules : PlanRules} {binaryPaths : List Path} {limits : ReviewLimits}
  {prior : PriorCoverage}

theorem get?_setAll {κ : Type} [DecidableEq κ] (d : Dict κ Outcome) (keys : List κ) (o : Outcome)
    (key : κ) : (setAll d keys o).get? key = if key ∈ keys then some o else d.get? key := by
  induction keys generalizing d with
  | nil => rfl
  | cons first rest ih =>
    have hfold : setAll d (first :: rest) o = setAll (d.set first o) rest o := rfl
    rw [hfold, ih, Dict.get?_set]
    by_cases hrest : key ∈ rest
    · simp [hrest]
    · by_cases hfirst : first = key
      · simp [hfirst]
      · simp [hrest, hfirst, Ne.symm hfirst]

/-- A record less the hunks that are reviewed already. -/
structure Remainder (prior : PriorCoverage) (r r' : DiffFileRecord) : Prop where
  paths : r'.coveragePaths = r.coveragePaths
  hunks : r'.hunks = r.hunks.filter (fun h => decide (h.index ∉ prior.hunks))

theorem Remainder.mem_iff {r r' : DiffFileRecord} (h : Remainder prior r r') (i : Nat) :
    i ∈ r'.hunkIndexes ↔ i ∈ r.hunkIndexes ∧ i ∉ prior.hunks := by
  simp only [DiffFileRecord.hunkIndexes, h.hunks, List.mem_map, List.mem_filter,
    decide_eq_true_eq]
  constructor
  · rintro ⟨hunk, ⟨hmem, hprior⟩, rfl⟩
    exact ⟨⟨hunk, hmem, rfl⟩, hprior⟩
  · rintro ⟨⟨hunk, hmem, rfl⟩, hprior⟩
    exact ⟨hunk, ⟨hmem, hprior⟩, rfl⟩

/-- What is left of a reviewable record for packing: nothing, or its remainder. -/
theorem reusePrior_eq (prior : PriorCoverage) (k : Sorting) (r : DiffFileRecord) :
    ∃ rest : List DiffFileRecord, reusePrior prior k r = { k with
        hunkOutcomes := setAll k.hunkOutcomes
          (r.hunkIndexes.filter (fun i => decide (i ∈ prior.hunks))) reviewedOutcome
        reviewable := k.reviewable ++ rest } ∧
      ((rest = [] ∧ ∀ i ∈ r.hunkIndexes, i ∈ prior.hunks) ∨
        ∃ r', rest = [r'] ∧ Remainder prior r r') := by
  have hkeep (hnone : ∀ h ∈ r.hunks, h.index ∉ prior.hunks) :
      r.hunkIndexes.filter (fun i => decide (i ∈ prior.hunks)) = [] ∧ Remainder prior r r := by
    refine ⟨?_, rfl, ?_⟩
    · simpa [DiffFileRecord.hunkIndexes] using hnone
    · exact (List.filter_eq_self.mpr (fun h hh => by simpa using hnone h hh)).symm
  unfold reusePrior
  split
  · next hempty =>
    obtain ⟨hfilter, hrest⟩ := hkeep (by simp [hempty])
    exact ⟨[r], by rw [hfilter]; rfl, .inr ⟨r, rfl, hrest⟩⟩
  · split
    · next hdone =>
      rw [Bool.and_eq_true] at hdone
      have hall : ∀ i ∈ r.hunkIndexes, i ∈ prior.hunks := by
        intro i hi
        obtain ⟨h, hh, rfl⟩ := List.mem_map.mp hi
        exact of_decide_eq_true (List.all_eq_true.mp hdone.2 h hh)
      refine ⟨[], ?_, .inl ⟨rfl, hall⟩⟩
      rw [List.filter_eq_self.mpr (fun i hi => by simpa using hall i hi), List.append_nil]
    · dsimp only
      split
      · exact ⟨[sliceRecord r _], rfl, .inr ⟨_, rfl, rfl, rfl⟩⟩
      · next hlength =>
        have hself : r.hunks.filter (fun h => decide (h.index ∉ prior.hunks)) = r.hunks := by
          apply List.filter_sublist.eq_of_length_le
          exact Nat.not_lt.mp hlength
        obtain ⟨hfilter, hrest⟩ := hkeep
          (fun h hh => of_decide_eq_true (List.filter_eq_self.mp hself h hh))
        exact ⟨[r], by rw [hfilter]; rfl, .inr ⟨r, rfl, hrest⟩⟩

/-- What the classification and the prior coverage say of a record's hunk. -/
def startOutcome (prior : PriorCoverage) (i : Nat) : Classification → Option Outcome
  | .unreviewable o => some o
  | .reviewable => if i ∈ prior.hunks then some reviewedOutcome else none

/-- The state of the classification pass after the given records. -/
structure Sorted (rules : PlanRules) (binaryPaths : List Path) (limits : ReviewLimits)
    (prior : PriorCoverage) (done : List DiffFileRecord) (k : Sorting) : Prop where
  classified : ∀ r ∈ done, ∃ c, classifyFile rules binaryPaths limits r = .ok c
  hunks : ∀ r ∈ done, ∀ i ∈ r.hunkIndexes, ∀ c, classifyFile rules binaryPaths limits r = .ok c →
    k.hunkOutcomes.get? i = startOutcome prior i c
  unknown : ∀ i, i ∉ done.flatMap DiffFileRecord.hunkIndexes → k.hunkOutcomes.get? i = none
  files : ∀ q o, k.fileOutcomes.get? q = some o →
    ∃ r ∈ done, q ∈ r.coveragePaths ∧
      ∃ c, classifyFile rules binaryPaths limits r = .ok c ∧ c.outcome = o
  named : ∀ r ∈ done, ∀ q ∈ r.coveragePaths, (k.fileOutcomes.get? q).isSome
  origin : ∀ r' ∈ k.reviewable, ∃ r ∈ done,
    classifyFile rules binaryPaths limits r = .ok .reviewable ∧ Remainder prior r r'
  left : ∀ r ∈ done, classifyFile rules binaryPaths limits r = .ok .reviewable →
    ∀ i ∈ r.hunkIndexes, i ∉ prior.hunks → ∃ r' ∈ k.reviewable, Remainder prior r r'
  once : ∀ i, (k.reviewable.flatMap DiffFileRecord.hunkIndexes).count i ≤
    (done.flatMap DiffFileRecord.hunkIndexes).count i

theorem sorted_nil : Sorted rules binaryPaths limits prior [] {} :=
  ⟨nofun, nofun, fun _ _ => rfl, nofun, nofun, nofun, nofun, fun _ => Nat.le_refl _⟩

/-- One record either keeps its own outcome for all of its hunks, or leaves a remainder. -/
theorem sortRecord_ok {k k' : Sorting} {r : DiffFileRecord}
    (h : sortRecord rules binaryPaths limits prior k r = .ok k') :
    ∃ c rest keys o, classifyFile rules binaryPaths limits r = .ok c ∧
      k' = { k with
        fileOutcomes := setAll k.fileOutcomes r.coveragePaths c.outcome
        hunkOutcomes := setAll k.hunkOutcomes keys o
        reviewable := k.reviewable ++ rest } ∧
      (∀ i ∈ keys, i ∈ r.hunkIndexes) ∧
      (∀ i ∈ r.hunkIndexes, (if i ∈ keys then some o else none) = startOutcome prior i c) ∧
      ((rest = [] ∧ (c = .reviewable → ∀ i ∈ r.hunkIndexes, i ∈ prior.hunks)) ∨
        ∃ r', rest = [r'] ∧ c = .reviewable ∧ Remainder prior r r') := by
  obtain ⟨c, hc, h⟩ := bind_ok h
  cases c with
  | unreviewable o =>
    refine ⟨_, [], r.hunkIndexes, o, hc, ?_, fun _ hi => hi, ?_, .inl ⟨rfl, nofun⟩⟩
    · rw [List.append_nil]
      exact (Except.ok.inj h).symm
    · intro i hi
      rw [if_pos hi]
      rfl
  | reviewable =>
    obtain ⟨rest, heq, hrest⟩ := reusePrior_eq prior
      { k with
        fileOutcomes := setAll k.fileOutcomes r.coveragePaths
          (Classification.outcome .reviewable) } r
    refine ⟨_, rest, r.hunkIndexes.filter (fun i => decide (i ∈ prior.hunks)), reviewedOutcome, hc,
      ?_, fun i hi => (List.mem_filter.mp hi).1, ?_, ?_⟩
    · rw [← Except.ok.inj h, heq]
    · intro i hi
      simp [startOutcome, hi]
    · rcases hrest with ⟨hnil, hall⟩ | ⟨r', hone, hremainder⟩
      · exact .inl ⟨hnil, fun _ => hall⟩
      · exact .inr ⟨r', hone, rfl, hremainder⟩

theorem Sorted.record {done : List DiffFileRecord} {k k' : Sorting} {r : DiffFileRecord}
    (hs : Sorted rules binaryPaths limits prior done k)
    (hfresh : ∀ i ∈ r.hunkIndexes, i ∉ done.flatMap DiffFileRecord.hunkIndexes)
    (h : sortRecord rules binaryPaths limits prior k r = .ok k') :
    Sorted rules binaryPaths limits prior (done ++ [r]) k' := by
  obtain ⟨c, rest, keys, o, hc, rfl, hkeys, hstart, hrest⟩ := sortRecord_ok h
  have hlast : r ∈ done ++ [r] := List.mem_append_right _ List.mem_cons_self
  refine ⟨?_, ?_, ?_, ?_, ?_, ?_, ?_, ?_⟩
  · intro r' hr'
    rcases List.mem_append.mp hr' with hold | hnew
    · exact hs.classified r' hold
    · exact ⟨c, List.mem_singleton.mp hnew ▸ hc⟩
  · intro r' hr' i hi c' hc'
    rw [get?_setAll]
    rcases List.mem_append.mp hr' with hold | hnew
    · have hmem : i ∈ done.flatMap DiffFileRecord.hunkIndexes := List.mem_flatMap.mpr ⟨r', hold, hi⟩
      rw [if_neg (fun hk => hfresh i (hkeys i hk) hmem)]
      exact hs.hunks r' hold i hi c' hc'
    · obtain rfl := List.mem_singleton.mp hnew
      obtain rfl := Except.ok.inj (hc.symm.trans hc')
      rw [← hstart i hi, hs.unknown i (hfresh i hi)]
  · intro i hi
    rw [List.flatMap_append, List.mem_append, not_or, List.flatMap_singleton] at hi
    rw [get?_setAll, if_neg (fun hk => hi.2 (hkeys i hk))]
    exact hs.unknown i hi.1
  · intro q o' hq
    rw [get?_setAll] at hq
    split at hq
    · next hmem => exact ⟨r, hlast, hmem, c, hc, Option.some.inj hq⟩
    · obtain ⟨r', hr', hrest'⟩ := hs.files q o' hq
      exact ⟨r', List.mem_append_left _ hr', hrest'⟩
  · intro r' hr' q hq
    rw [get?_setAll]
    split
    · rfl
    · next hnot =>
      rcases List.mem_append.mp hr' with hold | hnew
      · exact hs.named r' hold q hq
      · exact absurd (List.mem_singleton.mp hnew ▸ hq) hnot
  · intro r' hr'
    rcases List.mem_append.mp hr' with hold | hnew
    · obtain ⟨r₀, hr₀, hfound⟩ := hs.origin r' hold
      exact ⟨r₀, List.mem_append_left _ hr₀, hfound⟩
    · rcases hrest with ⟨rfl, _⟩ | ⟨r'', rfl, rfl, hremainder⟩
      · cases hnew
      · exact ⟨r, hlast, hc, List.mem_singleton.mp hnew ▸ hremainder⟩
  · intro r' hr' hc' i hi hprior
    rcases List.mem_append.mp hr' with hold | hnew
    · obtain ⟨r'', hr'', hremainder⟩ := hs.left r' hold hc' i hi hprior
      exact ⟨r'', List.mem_append_left _ hr'', hremainder⟩
    · obtain rfl := List.mem_singleton.mp hnew
      obtain rfl := Except.ok.inj (hc.symm.trans hc')
      rcases hrest with ⟨_, hall⟩ | ⟨r'', rfl, _, hremainder⟩
      · exact absurd (hall rfl i hi) hprior
      · exact ⟨r'', List.mem_append_right _ List.mem_cons_self, hremainder⟩
  · intro i
    have hi := hs.once i
    have hone : (rest.flatMap DiffFileRecord.hunkIndexes).count i ≤ r.hunkIndexes.count i := by
      rcases hrest with ⟨rfl, _⟩ | ⟨r', rfl, _, hremainder⟩
      · exact Nat.zero_le _
      · rw [List.flatMap_singleton, DiffFileRecord.hunkIndexes, hremainder.hunks]
        exact (List.filter_sublist.map DiffHunk.index).count_le i
    rw [List.flatMap_append, List.count_append, List.flatMap_append, List.count_append,
      List.flatMap_singleton]
    omega

theorem Sorted.records {done : List DiffFileRecord} {k k' : Sorting}
    (hs : Sorted rules binaryPaths limits prior done k) (records : List DiffFileRecord)
    (hnodup : ((done ++ records).flatMap DiffFileRecord.hunkIndexes).Nodup)
    (h : sortRecords rules binaryPaths limits prior records k = .ok k') :
    Sorted rules binaryPaths limits prior (done ++ records) k' := by
  induction records generalizing done k with
  | nil =>
    obtain rfl := Except.ok.inj h
    rwa [List.append_nil]
  | cons r rest ih =>
    obtain ⟨k₁, h₁, h⟩ := bind_ok h
    rw [List.append_cons] at hnodup ⊢
    have hfresh : ∀ i ∈ r.hunkIndexes, i ∉ done.flatMap DiffFileRecord.hunkIndexes := by
      intro i hi hmem
      rw [List.flatMap_append, List.flatMap_append, List.flatMap_singleton] at hnodup
      exact List.disjoint_of_nodup_append (List.Nodup.of_append_left hnodup) hmem hi
    exact ih (hs.record hfresh h₁) hnodup h

theorem classifyFile_outcome {r : DiffFileRecord} {o : Outcome}
    (h : classifyFile rules binaryPaths limits r = .ok (.unreviewable o)) :
    o.1 ≠ .reviewed ∧ o.1 ≠ .partiallyReviewed := by
  unfold classifyFile at h
  split at h
  · cases h
    exact ⟨nofun, nofun⟩
  · obtain ⟨complete, _, h⟩ := bind_ok h
    cases complete with
    | false =>
      cases h
      exact ⟨nofun, nofun⟩
    | true =>
      have hc := Except.ok.inj h
      grind [classifyComplete]

section passes
variable {reason : Option CoverageReason} {packedPaths overflowPaths : List Path}
  {packedHunks : List Nat} {k : Outcomes}

theorem overflowOutcome_ne (reason : Option CoverageReason) :
    overflowOutcome reason ≠ .reviewed ∧ overflowOutcome reason ≠ .partiallyReviewed := by
  unfold overflowOutcome
  split <;> exact ⟨nofun, nofun⟩

theorem get?_overflowRecord (r : DiffFileRecord) (i : Nat) :
    (overflowRecord reason packedPaths packedHunks k r).hunks.get? i =
      if i ∈ r.hunkIndexes ∧ i ∉ packedHunks then
        some (overflowOutcome reason, some (overflowReasonFor reason r))
      else k.hunks.get? i := by
  simp [overflowRecord, get?_setAll]

/-- The hunks of the overflow that no chunk holds get the overflow's outcome. -/
theorem overflowPass_hunks (reason : Option CoverageReason) (packedPaths : List Path)
    (packedHunks : List Nat) (k : Outcomes) (overflow : List DiffFileRecord) (i : Nat) :
    let k' := overflow.foldl (overflowRecord reason packedPaths packedHunks) k
    (i ∈ packedHunks ∨ i ∉ overflow.flatMap DiffFileRecord.hunkIndexes →
      k'.hunks.get? i = k.hunks.get? i) ∧
    (i ∉ packedHunks → i ∈ overflow.flatMap DiffFileRecord.hunkIndexes →
      ∃ o, k'.hunks.get? i = some o ∧ o.1 = overflowOutcome reason) := by
  induction overflow using List.reverseRecOn with
  | nil => exact ⟨fun _ => rfl, nofun⟩
  | append_singleton rest r ih =>
    simp only [List.foldl_append, List.foldl_cons, List.foldl_nil, get?_overflowRecord,
      List.flatMap_append, List.flatMap_singleton, List.mem_append, not_or] at ih ⊢
    refine ⟨fun h => ?_, fun hpacked hi => ?_⟩
    · rw [if_neg (fun hr => h.elim hr.2 (fun hnot => hnot.2 hr.1))]
      exact ih.1 (h.imp_right And.left)
    · split
      · exact ⟨_, rfl, rfl⟩
      · next hnot =>
        exact ih.2 hpacked (hi.resolve_right (fun hr => hnot ⟨hr, hpacked⟩))

theorem overflowFile_get? (r : DiffFileRecord) (d : Dict Path Outcome) (path q : Path) :
    (overflowFile reason packedPaths r d path).get? q = d.get? q ∨
      (q = path ∧ ∃ o, (overflowFile reason packedPaths r d path).get? q = some o ∧
        o.1 ≠ .reviewed) := by
  unfold overflowFile
  by_cases hq : path = q
  · subst hq
    refine .inr ⟨rfl, ?_⟩
    split
    · exact ⟨_, Dict.get?_set_self _ _ _, fun h => by cases h⟩
    · exact ⟨_, Dict.get?_set_self _ _ _, (overflowOutcome_ne reason).1⟩
  · split <;> exact .inl (by rw [Dict.get?_set, if_neg hq])

theorem overflowFile_self (r : DiffFileRecord) (d : Dict Path Outcome) (path : Path) :
    ∃ o, (overflowFile reason packedPaths r d path).get? path = some o ∧ o.1 ≠ .reviewed := by
  unfold overflowFile
  split
  · exact ⟨_, Dict.get?_set_self _ _ _, fun h => by cases h⟩
  · exact ⟨_, Dict.get?_set_self _ _ _, (overflowOutcome_ne reason).1⟩

/-- Setting paths of overflowing records never makes one reviewed. -/
theorem overflowFiles (reason : Option CoverageReason) (packedPaths : List Path)
    (r : DiffFileRecord) (paths : List Path) (d : Dict Path Outcome) (q : Path) :
    let d' := paths.foldl (overflowFile reason packedPaths r) d
    (q ∉ paths → d'.get? q = d.get? q) ∧
      (q ∈ paths → ∃ o, d'.get? q = some o ∧ o.1 ≠ .reviewed) := by
  induction paths using List.reverseRecOn with
  | nil => exact ⟨fun _ => rfl, nofun⟩
  | append_singleton rest path ih =>
    simp only [List.foldl_append, List.foldl_cons, List.foldl_nil, List.mem_append,
      List.mem_singleton, not_or] at ih ⊢
    refine ⟨fun h => ?_, fun h => ?_⟩
    · rcases overflowFile_get? r (rest.foldl (overflowFile reason packedPaths r) d) path q with
        heq | ⟨hq, _⟩
      · rw [heq, ih.1 h.1]
      · exact absurd hq h.2
    · rcases overflowFile_get? r (rest.foldl (overflowFile reason packedPaths r) d) path q with
        heq | ⟨_, hset⟩
      · by_cases hq : q = path
        · rw [hq]
          exact overflowFile_self r _ path
        · rw [heq]
          exact ih.2 (h.resolve_right hq)
      · exact hset

theorem overflowPass_files (overflow : List DiffFileRecord) (q : Path) :
    let k' := overflow.foldl (overflowRecord reason packedPaths packedHunks) k
    (q ∉ overflow.flatMap DiffFileRecord.coveragePaths → k'.files.get? q = k.files.get? q) ∧
      (q ∈ overflow.flatMap DiffFileRecord.coveragePaths →
        ∃ o, k'.files.get? q = some o ∧ o.1 ≠ .reviewed) := by
  induction overflow using List.reverseRecOn with
  | nil => exact ⟨fun _ => rfl, nofun⟩
  | append_singleton rest r ih =>
    simp only [List.foldl_append, List.foldl_cons, List.foldl_nil, List.flatMap_append,
      List.flatMap_singleton, List.mem_append, not_or] at ih ⊢
    have hfiles := overflowFiles reason packedPaths r r.coveragePaths
      (rest.foldl (overflowRecord reason packedPaths packedHunks) k).files q
    refine ⟨fun h => ?_, fun h => ?_⟩
    · exact (hfiles.1 h.2).trans (ih.1 h.1)
    · by_cases hr : q ∈ r.coveragePaths
      · exact hfiles.2 hr
      · obtain ⟨o, ho, hne⟩ := ih.2 (h.resolve_right hr)
        exact ⟨o, (hfiles.1 hr).trans ho, hne⟩

theorem packedPass_hunks (packedPaths overflowPaths : List Path) (packedHunks : List Nat)
    (k : Outcomes) (reviewable : List DiffFileRecord) (i : Nat) :
    (reviewable.foldl (packedRecord packedPaths overflowPaths packedHunks) k).hunks.get? i =
      if i ∈ packedHunks ∧ i ∈ reviewable.flatMap DiffFileRecord.hunkIndexes then
        some reviewedOutcome
      else k.hunks.get? i := by
  induction reviewable using List.reverseRecOn with
  | nil => simp
  | append_singleton rest r ih =>
    simp only [List.foldl_append, List.foldl_cons, List.foldl_nil, packedRecord, get?_setAll, ih,
      List.flatMap_append, List.flatMap_singleton, List.mem_append, List.mem_filter,
      decide_eq_true_eq]
    by_cases hp : i ∈ packedHunks <;> by_cases hr : i ∈ r.hunkIndexes <;> simp [hp, hr]

theorem packedPass_files (packedPaths overflowPaths : List Path) (packedHunks : List Nat)
    (k : Outcomes) (reviewable : List DiffFileRecord) (q : Path) :
    let k' := reviewable.foldl (packedRecord packedPaths overflowPaths packedHunks) k
    k'.files.get? q = k.files.get? q ∨
      (k'.files.get? q = some reviewedOutcome ∧ q ∉ overflowPaths ∧
        ∃ r ∈ reviewable, q ∈ r.coveragePaths) := by
  induction reviewable using List.reverseRecOn with
  | nil => exact .inl rfl
  | append_singleton rest r ih =>
    simp only [List.foldl_append, List.foldl_cons, List.foldl_nil, packedRecord, get?_setAll,
      List.mem_filter, Bool.and_eq_true, decide_eq_true_eq] at ih ⊢
    split
    · next hr =>
      exact .inr ⟨rfl, hr.2.2, r, List.mem_append_right _ List.mem_cons_self, hr.1⟩
    · refine ih.imp_right fun hreviewed => ?_
      obtain ⟨hset, hover, r', hr', hq⟩ := hreviewed
      exact ⟨hset, hover, r', List.mem_append_left _ hr', hq⟩

end passes

section reconcile
variable {records : List DiffHunk} {hunks : Dict Nat Outcome} {q : Path}

/-- The hunk is reported under the path. -/
def At (q : Path) (h : DiffHunk) : Prop := h.path = some q

abbrev isReviewed (hunks : Dict Nat Outcome) (h : DiffHunk) : Prop := hunkState hunks h = .reviewed

theorem reconcilePath_get? (records : List DiffHunk) (hunks : Dict Nat Outcome) (q : Path)
    (files : Dict Path Outcome) (path : Path) :
    (reconcilePath records hunks files path).get? q = files.get? q ∨
      (∃ reason, (reconcilePath records hunks files path).get? q =
        some (.partiallyReviewed, reason)) ∨
      ((∃ h ∈ records, At q h) ∧ ∀ h ∈ records, At q h → isReviewed hunks h) := by
  unfold reconcilePath
  dsimp only
  by_cases hq : path = q
  · subst hq
    split
    · exact .inl rfl
    · next hne =>
      split
      · exact .inr (.inl ⟨_, Dict.get?_set_self _ _ _⟩)
      · split
        · next hall =>
          refine .inr (.inr ⟨?_, ?_⟩)
          · obtain ⟨state, hstate⟩ := List.exists_mem_of_ne_nil _ hne
            obtain ⟨h, hh, _⟩ := List.mem_map.mp hstate
            rw [List.mem_filter, decide_eq_true_eq] at hh
            exact ⟨h, hh.1, hh.2⟩
          · intro h hh hat
            rw [List.all_eq_true] at hall
            have hmem : hunkState hunks h ∈ (records.filter (fun h => decide (h.path = some path))).map
                (hunkState hunks) :=
              List.mem_map_of_mem (List.mem_filter.mpr ⟨hh, decide_eq_true hat⟩)
            exact of_decide_eq_true (hall _ hmem)
        · exact .inl rfl
  · left
    split
    · rfl
    · split
      · rw [Dict.get?_set, if_neg hq]
      · split
        · rw [Dict.get?_set, if_neg hq]
        · rfl

/-- Where a path's hunks are partly reviewed, its own step says so. -/
theorem reconcilePath_mixed (files : Dict Path Outcome) {h h' : DiffHunk} (hh : h ∈ records)
    (hat : At q h) (hreviewed : isReviewed hunks h) (hh' : h' ∈ records) (hat' : At q h')
    (hnot : ¬ isReviewed hunks h') :
    ∃ reason, (reconcilePath records hunks files q).get? q = some (.partiallyReviewed, reason) := by
  have hmem {g : DiffHunk} (hg : g ∈ records) (hgat : At q g) : hunkState hunks g ∈
      (records.filter (fun h => decide (h.path = some q))).map (hunkState hunks) :=
    List.mem_map_of_mem (List.mem_filter.mpr ⟨hg, decide_eq_true hgat⟩)
  unfold reconcilePath
  dsimp only
  rw [if_neg (List.ne_nil_of_mem (hmem hh hat)), if_pos]
  · exact ⟨_, Dict.get?_set_self _ _ _⟩
  · rw [Bool.and_eq_true, List.any_eq_true, List.any_eq_true]
    exact ⟨⟨_, hmem hh hat, decide_eq_true hreviewed⟩, ⟨_, hmem hh' hat', decide_eq_true hnot⟩⟩

/-- What the reconciliation of all paths can leave at one of them. -/
theorem reconcile_get? (records : List DiffHunk) (hunks : Dict Nat Outcome) (q : Path)
    (paths : List Path) (files : Dict Path Outcome) :
    (paths.foldl (reconcilePath records hunks) files).get? q = files.get? q ∨
      (∃ reason, (paths.foldl (reconcilePath records hunks) files).get? q =
        some (.partiallyReviewed, reason)) ∨
      ((∃ h ∈ records, At q h) ∧ ∀ h ∈ records, At q h → isReviewed hunks h) := by
  induction paths using List.reverseRecOn with
  | nil => exact .inl rfl
  | append_singleton rest path ih =>
    rw [List.foldl_append, List.foldl_cons, List.foldl_nil]
    rcases reconcilePath_get? records hunks q
      (rest.foldl (reconcilePath records hunks) files) path with heq | hpartial | hall
    · rw [heq]
      exact ih
    · exact .inr (.inl hpartial)
    · exact .inr (.inr hall)

theorem reconcile_mixed {paths : List Path} (files : Dict Path Outcome) {h h' : DiffHunk}
    (hq : q ∈ paths) (hh : h ∈ records) (hat : At q h) (hreviewed : isReviewed hunks h)
    (hh' : h' ∈ records) (hat' : At q h') (hnot : ¬ isReviewed hunks h') :
    ∃ reason, (paths.foldl (reconcilePath records hunks) files).get? q =
      some (.partiallyReviewed, reason) := by
  induction paths using List.reverseRecOn with
  | nil => cases hq
  | append_singleton rest path ih =>
    rw [List.foldl_append, List.foldl_cons, List.foldl_nil]
    rcases List.mem_append.mp hq with hrest | hlast
    · rcases reconcilePath_get? records hunks q
        (rest.foldl (reconcilePath records hunks) files) path with heq | hpartial | hall
      · rw [heq]
        exact ih hrest
      · exact hpartial
      · exact absurd (hall.2 h' hh' hat') hnot
    · obtain rfl := List.mem_singleton.mp hlast
      exact reconcilePath_mixed _ hh hat hreviewed hh' hat' hnot

end reconcile

end ReviewSensei.Planning
