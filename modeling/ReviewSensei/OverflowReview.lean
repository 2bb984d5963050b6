import ReviewSensei.LaterFindings
import ReviewSensei.ReviewResult
import ReviewSensei.Approval
import Mathlib.Data.List.Dedup

/-! Recovery after an overflow: fresh findings reconciled with those of the last baseline. -/
namespace ReviewSensei.Convergence
open Session (bind_ok)
open Review (CommentFields ReviewComment ReviewResult ResultRules ResultFields
  FindingLifecycleRecord lifecycleFingerprint maxComments)
open Approval (ReviewStatus)
open Human (blocksApproval sorted)

/-- What the recovery writes of a result beside its lifecycles, and what it leaves alone. -/
structure PassRest (σ : Type) where
  reviewStatus : ReviewStatus
  coverageMode : CoverageMode
  others : σ

def maxHistoryFindings : Nat := 512

section Recovery
variable {σ : Type} (rules : AdmissionRules) {checks : ResultRules (PassRest σ)}
  (result : ReviewResult checks) (baseline : ReviewBaseline)

/-- `pairs`: the comments that match a finding of the baseline. -/
def matchedPairs : List (ReviewComment × BaselineFinding) :=
  result.comments.filterMap fun c =>
    (matchBaselineFinding rules c.toCommentFields baseline).map fun prior => (c, prior)

def matchedFingerprints : List String :=
  (matchedPairs rules result baseline).map (·.2.fingerprint)

def downgradedPriors : List BaselineFinding :=
  ((matchedPairs rules result baseline).filter
    (fun p => p.2.blocking && !blocksApproval rules.toRules p.1)).map (·.2)

def omittedPriors : List BaselineFinding :=
  baseline.findings.filter (fun f => f.fingerprint ∉ matchedFingerprints rules result baseline)

def multiplyClaimed : List BaselineFinding :=
  baseline.findings.filter
    (fun f => 1 < (matchedFingerprints rules result baseline).count f.fingerprint)

/-- The lifecycle records of a result by their fingerprints. -/
abbrev Lifecycles := Dict String FindingLifecycleRecord

def recordedLifecycles : Lifecycles :=
  Dict.ofPairs (result.findingLifecycles.map (fun r => (r.fingerprint, r)))

def fingerprintOf (c : ReviewComment) : String := lifecycleFingerprint rules.lower c.toCommentFields

/-- Every current fingerprint has a record. -/
def withCurrent : Lifecycles :=
  (sorted (result.comments.map (fingerprintOf rules)).dedup).foldl
    (fun d fingerprint => d.setDefault fingerprint ⟨fingerprint, .stillPresent⟩)
    (recordedLifecycles result)

/-- A matched finding is not new. -/
def retainMatched (d : Lifecycles) (p : ReviewComment × BaselineFinding) : Lifecycles :=
  if (d.get? (fingerprintOf rules p.1)).any (fun r => r.state = .new) then
    d.set (fingerprintOf rules p.1) ⟨fingerprintOf rules p.1, .stillPresent⟩
  else d

/-- The lifecycles before the unproven findings are marked. -/
def presentLifecycles (retainMatchedObligations : Bool) : Lifecycles :=
  if retainMatchedObligations then
    (matchedPairs rules result baseline).foldl (retainMatched rules) (withCurrent rules result)
  else withCurrent rules result

def unprovenPriors : List BaselineFinding :=
  omittedPriors rules result baseline ++ downgradedPriors rules result baseline ++
    multiplyClaimed rules result baseline

def markUncertain (d : Lifecycles) (f : BaselineFinding) : Lifecycles :=
  d.set f.fingerprint ⟨f.fingerprint, .uncertain⟩

def reconciledLifecycles (retainMatchedObligations : Bool) : Lifecycles :=
  (unprovenPriors rules result baseline).foldl markUncertain
    (presentLifecycles rules result baseline retainMatchedObligations)

def reconciledStatus : ReviewStatus :=
  if result.rest.reviewStatus = .complete ∧
      (omittedPriors rules result baseline ≠ [] ∨ downgradedPriors rules result baseline ≠ [] ∨
        maxHistoryFindings <
          result.comments.length + (omittedPriors rules result baseline).length ∨
        (matchedFingerprints rules result baseline).length ≠
          (matchedFingerprints rules result baseline).dedup.length) then .partialReview
  else result.rest.reviewStatus

/-- `reconcile_overflow_review`. -/
def reconcileOverflowReview (coverageMode : CoverageMode) (retainMatchedObligations : Bool) :
    Except String (ReviewResult checks) :=
  ReviewResult.construct checks
    { result.toResultFields with
      findingLifecycles :=
        (reconciledLifecycles rules result baseline retainMatchedObligations).map (·.2)
      rest :=
        { result.rest with
          coverageMode
          reviewStatus := reconciledStatus rules result baseline } }

end Recovery

section Keyed
variable {d : Lifecycles} {fingerprint : String} {r : FindingLifecycleRecord}

/-- Each record stands under its own fingerprint, and no fingerprint twice. -/
structure Keyed (d : Lifecycles) : Prop where
  nodup : d.keys.Nodup
  own : ∀ p ∈ d, p.2.fingerprint = p.1

theorem Keyed.nil : Keyed [] := ⟨List.nodup_nil, fun _ h => absurd h List.not_mem_nil⟩

theorem Keyed.set (h : Keyed d) (hown : r.fingerprint = fingerprint) :
    Keyed (d.set fingerprint r) := by
  refine ⟨Dict.nodup_set h.nodup _ _, fun p hp => ?_⟩
  rcases Dict.mem_set hp with heq | hold
  · rw [heq]
    exact hown
  · exact h.own p hold

theorem Keyed.setDefault (h : Keyed d) (hown : r.fingerprint = fingerprint) :
    Keyed (d.setDefault fingerprint r) := by
  unfold Dict.setDefault
  split
  · exact h
  · exact h.set hown

theorem Keyed.fingerprints (h : Keyed d) : (d.map (·.2)).map (·.fingerprint) = d.keys := by
  rw [List.map_map]
  exact List.map_congr_left h.own

theorem Keyed.mem_iff (h : Keyed d) :
    r ∈ d.map (·.2) ↔ d.get? r.fingerprint = some r := by
  constructor
  · intro hr
    obtain ⟨⟨key, record⟩, hp, rfl⟩ := List.mem_map.mp hr
    have hown : record.fingerprint = key := h.own _ hp
    rw [hown]
    exact Dict.get?_of_mem h.nodup hp
  · intro hget
    exact List.mem_map.mpr ⟨_, Dict.mem_of_get? hget, rfl⟩

/-- A fingerprint that has a record has one record. -/
theorem Keyed.count (h : Keyed d) (hsome : (d.get? fingerprint).isSome) :
    (d.map (·.2)).countP (fun r => r.fingerprint = fingerprint) = 1 := by
  have hmem : fingerprint ∈ d.keys := (Dict.mem_keys_iff d fingerprint).mpr hsome
  have hcount := List.count_eq_one_of_mem h.nodup hmem
  rw [← h.fingerprints, List.count, List.countP_map] at hcount
  rw [← hcount]
  refine List.countP_congr fun r _ => ?_
  simp

theorem keyed_foldl {α : Type} {step : Lifecycles → α → Lifecycles}
    (hstep : ∀ d a, Keyed d → Keyed (step d a)) (items : List α) (h : Keyed d) :
    Keyed (items.foldl step d) := by
  induction items generalizing d with
  | nil => exact h
  | cons a rest ih => exact ih (hstep d a h)

end Keyed

section Lifecycles
variable {σ : Type} {rules : AdmissionRules} {checks : ResultRules (PassRest σ)}
  {result : ReviewResult checks} {baseline : ReviewBaseline} {fingerprint : String}

theorem recorded_keyed : Keyed (recordedLifecycles result) := by
  unfold recordedLifecycles Dict.ofPairs
  rw [List.foldl_map]
  exact keyed_foldl (fun (d : Lifecycles) (r : FindingLifecycleRecord) h => h.set rfl) _ .nil

theorem withCurrent_keyed : Keyed (withCurrent rules result) := by
  unfold withCurrent
  apply keyed_foldl _ _ recorded_keyed
  intro d f h
  exact h.setDefault rfl

theorem retain_keyed (d : Lifecycles) (p : ReviewComment × BaselineFinding) (h : Keyed d) :
    Keyed (retainMatched rules d p) := by
  unfold retainMatched
  split
  · exact h.set rfl
  · exact h

theorem present_keyed (retain : Bool) : Keyed (presentLifecycles rules result baseline retain) := by
  unfold presentLifecycles
  split
  · exact keyed_foldl retain_keyed _ withCurrent_keyed
  · exact withCurrent_keyed

theorem reconciled_keyed (retain : Bool) :
    Keyed (reconciledLifecycles rules result baseline retain) := by
  unfold reconciledLifecycles
  apply keyed_foldl _ _ (present_keyed retain)
  intro d f h
  exact h.set rfl

/-- The record of a fingerprint in the input; the last one counts. -/
def lastRecord (result : ReviewResult checks) (fingerprint : String) :
    Option FindingLifecycleRecord :=
  (recordedLifecycles result).get? fingerprint

theorem get?_foldl_default (fingerprints : List String) (d : Lifecycles) :
    (fingerprints.foldl (fun d f => d.setDefault f ⟨f, .stillPresent⟩) d).get? fingerprint =
      if d.get? fingerprint = none ∧ fingerprint ∈ fingerprints then
        some ⟨fingerprint, .stillPresent⟩
      else d.get? fingerprint := by
  induction fingerprints generalizing d with
  | nil => simp
  | cons f rest ih =>
    rw [List.foldl_cons, ih, Dict.get?_setDefault]
    by_cases hf : f = fingerprint
    · subst hf
      cases hget : d.get? f with
      | none => simp
      | some r => simp
    · have hne : fingerprint ≠ f := Ne.symm hf
      simp [hf, hne]

/-- A current fingerprint has the record of the input, or is still present. -/
theorem get?_withCurrent : (withCurrent rules result).get? fingerprint =
    if lastRecord result fingerprint = none ∧
        fingerprint ∈ result.comments.map (fingerprintOf rules) then
      some ⟨fingerprint, .stillPresent⟩
    else lastRecord result fingerprint := by
  unfold withCurrent lastRecord
  rw [get?_foldl_default]
  simp only [Human.mem_sorted, List.mem_dedup]

/-- What retention may change of a record: a new finding becomes a present one. -/
def Retained (before after : Option FindingLifecycleRecord) : Prop :=
  after = before ∨ ∃ r r', before = some r ∧ after = some r' ∧ r.state = .new ∧
    r'.state = .stillPresent

theorem Retained.trans {a b c : Option FindingLifecycleRecord} (hab : Retained a b)
    (hbc : Retained b c) : Retained a c := by
  rcases hab with rfl | ⟨r, r', ha, hb, hnew, hpresent⟩
  · exact hbc
  · rcases hbc with rfl | ⟨s, s', hb', _, hnew', _⟩
    · exact .inr ⟨r, r', ha, hb, hnew, hpresent⟩
    · obtain rfl : r' = s := Option.some.inj (hb.symm.trans hb')
      rw [hpresent] at hnew'
      cases hnew'

theorem retainMatched_retained (d : Lifecycles) (p : ReviewComment × BaselineFinding) :
    Retained (d.get? fingerprint) ((retainMatched rules d p).get? fingerprint) := by
  unfold retainMatched
  split
  · next hnew =>
    obtain ⟨r, hget, hstate⟩ := (Option.any_eq_true _ _).mp hnew
    rw [Dict.get?_set]
    split
    · next heq =>
      rw [← heq]
      exact .inr ⟨r, _, hget, rfl, of_decide_eq_true hstate, rfl⟩
    · exact .inl rfl
  · exact .inl rfl

theorem retained_foldl (pairs : List (ReviewComment × BaselineFinding)) (d : Lifecycles) :
    Retained (d.get? fingerprint) ((pairs.foldl (retainMatched rules) d).get? fingerprint) := by
  induction pairs generalizing d with
  | nil => exact .inl rfl
  | cons p rest ih => exact (retainMatched_retained d p).trans (ih _)

theorem present_retained (retain : Bool) :
    Retained ((withCurrent rules result).get? fingerprint)
      ((presentLifecycles rules result baseline retain).get? fingerprint) := by
  unfold presentLifecycles
  split
  · exact retained_foldl _ _
  · exact .inl rfl

theorem Retained.isSome {a b : Option FindingLifecycleRecord} (h : Retained a b) :
    a.isSome → b.isSome := by
  rcases h with rfl | ⟨r, r', rfl, rfl, _⟩
  · exact id
  · exact fun _ => rfl

theorem get?_markUncertain (priors : List BaselineFinding) (d : Lifecycles) :
    (priors.foldl markUncertain d).get? fingerprint =
      if ∃ f ∈ priors, f.fingerprint = fingerprint then some ⟨fingerprint, .uncertain⟩
      else d.get? fingerprint := by
  induction priors generalizing d with
  | nil => simp
  | cons f rest ih =>
    rw [List.foldl_cons, ih, markUncertain, Dict.get?_set]
    by_cases hf : f.fingerprint = fingerprint
    · simp [hf]
    · simp [hf]

/-- Before the marks, a record is uncertain only if the input has it so. -/
theorem present_uncertain (retain : Bool) :
    (presentLifecycles rules result baseline retain).get? fingerprint =
        some ⟨fingerprint, .uncertain⟩ ↔
      lastRecord result fingerprint = some ⟨fingerprint, .uncertain⟩ := by
  have hretained : Retained ((withCurrent rules result).get? fingerprint)
      ((presentLifecycles rules result baseline retain).get? fingerprint) := present_retained retain
  have hcurrent : (withCurrent rules result).get? fingerprint = _ := get?_withCurrent
  constructor
  · intro huncertain
    rcases hretained with hsame | ⟨r, r', _, hafter, _, hpresent⟩
    · rw [huncertain, hcurrent] at hsame
      split at hsame
      · cases hsame
      · exact hsame.symm
    · rw [huncertain] at hafter
      obtain rfl := Option.some.inj hafter
      cases hpresent
  · intro hrecorded
    rw [hrecorded, if_neg (by simp)] at hcurrent
    rcases hretained with hsame | ⟨r, r', hbefore, _, hnew, _⟩
    · rw [hsame, hcurrent]
    · rw [hcurrent] at hbefore
      obtain rfl := Option.some.inj hbefore
      cases hnew

end Lifecycles
end ReviewSensei.Convergence
