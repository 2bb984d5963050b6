import ReviewSensei.OverflowReview

/-! A recovery against the findings it must not lose: exactly which recoveries keep them all. -/
namespace ReviewSensei.Convergence
open Session (bind_ok)
open Review (CommentFields ReviewComment ReviewResult ResultRules ResultFields
  FindingLifecycleRecord commentDefectKind lifecycleFingerprint)
open Human (blocksApproval)

section Property
variable {σ : Type} (rules : AdmissionRules) {checks : ResultRules (PassRest σ)}
  (result : ReviewResult checks) (baseline : ReviewBaseline)

/-- The comments that are matched to a finding. -/
def claimsOf (f : BaselineFinding) : List ReviewComment :=
  result.comments.filter
    (fun c => matchBaselineFinding rules c.toCommentFields baseline = some f)

/-- The pass does not show the finding again: no comment, or several, or only a lower one. -/
def Unproven (f : BaselineFinding) : Prop :=
  (claimsOf rules result baseline f).length ≠ 1 ∨
    (f.blocking = true ∧ ∀ c ∈ claimsOf rules result baseline f,
      blocksApproval rules.toRules c = false)

/-- Each finding of the baseline has a comment of its own that does not lower it. -/
def OneToOne : Prop :=
  baseline.findings.Nodup ∧ ∃ witness : BaselineFinding → ReviewComment,
    (∀ f ∈ baseline.findings, witness f ∈ result.comments ∧
      matchBaselineFinding rules (witness f).toCommentFields baseline = some f ∧
      (f.blocking = true → blocksApproval rules.toRules (witness f) = true)) ∧
    ∀ f ∈ baseline.findings, ∀ g ∈ baseline.findings, witness f = witness g → f = g

/-- What a recovery must keep of the history. -/
structure NeverClears (returned : ReviewResult checks) : Prop where
  uncertain : ∀ f ∈ baseline.findings, Unproven rules result baseline f →
    ⟨f.fingerprint, .uncertain⟩ ∈ returned.findingLifecycles
  once : (returned.findingLifecycles.map (·.fingerprint)).Nodup
  withheld : (∃ f ∈ baseline.findings, Unproven rules result baseline f) →
    returned.rest.reviewStatus ≠ .complete
  current : ∀ c ∈ returned.comments,
    returned.findingLifecycles.countP (fun r => r.fingerprint = fingerprintOf rules c) = 1
  kept : ∀ r ∈ result.findingLifecycles,
    ∃ r' ∈ returned.findingLifecycles, r'.fingerprint = r.fingerprint
  complete : returned.rest.reviewStatus = .complete → OneToOne rules returned baseline

/-- The matches to the findings of one fingerprint. -/
def pairsOf (fingerprint : String) : List (ReviewComment × BaselineFinding) :=
  (matchedPairs rules result baseline).filter (fun p => p.2.fingerprint = fingerprint)

/-- Exactly one comment stands for the fingerprint, and it does not lower what it matches. -/
def Witnessed (fingerprint : String) : Prop :=
  ∃ p, pairsOf rules result baseline fingerprint = [p] ∧
    (p.2.blocking = true → blocksApproval rules.toRules p.1 = true)

/-- No comment matches the finding, but one matches another finding of its fingerprint. -/
def Hidden (f : BaselineFinding) : Prop :=
  claimsOf rules result baseline f = [] ∧ Witnessed rules result baseline f.fingerprint

/-- A finding behind another one of its fingerprint is uncertain already, and the pass is partial
for another reason. -/
structure SharedPriorsSettled : Prop where
  recorded : ∀ f ∈ baseline.findings, Hidden rules result baseline f →
    lastRecord result f.fingerprint = some ⟨f.fingerprint, .uncertain⟩
  unsettled : (∃ f ∈ baseline.findings, Hidden rules result baseline f) →
    result.rest.reviewStatus ≠ .complete ∨ maxHistoryFindings < result.comments.length ∨
      ∃ g ∈ baseline.findings, ¬ Witnessed rules result baseline g.fingerprint

end Property

section Matching
variable {rules : AdmissionRules} {baseline : ReviewBaseline} {c : CommentFields}
  {f : BaselineFinding}

theorem matchesOf_unique {α : Type} {items : List α} {item : α}
    (h : matchesOf items = .unique item) : items = [item] := by
  match items, h with
  | [_], h =>
    cases h
    rfl

/-- A match is the only finding that some test of the search accepts. -/
theorem match_selects (h : matchBaselineFinding rules c baseline = some f) :
    ∃ accepts : BaselineFinding → Bool, baseline.findings.filter accepts = [f] := by
  have hunique : baselineMatch rules c baseline = .unique f := by
    unfold matchBaselineFinding at h
    split at h
    · next g hg =>
      rw [hg, Option.some.inj h]
    · cases h
  unfold baselineMatch at hunique
  dsimp only at hunique
  split at hunique
  · cases hunique
  · next exact hexact =>
    split at hunique
    · next g hg =>
      cases hunique
      exact ⟨_, matchesOf_unique hg⟩
    · cases hunique
    · split at hunique
      · next g hg =>
        cases hunique
        exact ⟨_, matchesOf_unique hg⟩
      · cases hunique
      · split at hunique
        · next g hg =>
          cases hunique
          exact ⟨_, matchesOf_unique hg⟩
        · split at hunique
          · cases hunique
          · exact ⟨_, matchesOf_unique hunique⟩

theorem match_mem (h : matchBaselineFinding rules c baseline = some f) :
    f ∈ baseline.findings := by
  obtain ⟨accepts, hsel⟩ := match_selects h
  have hmem : f ∈ baseline.findings.filter accepts := by
    rw [hsel]
    exact List.mem_singleton_self f
  exact List.mem_of_mem_filter hmem

theorem match_count (h : matchBaselineFinding rules c baseline = some f) :
    baseline.findings.count f = 1 := by
  obtain ⟨accepts, hsel⟩ := match_selects h
  have hmem : f ∈ baseline.findings.filter accepts := by
    rw [hsel]
    exact List.mem_singleton_self f
  have hcount := List.count_filter (l := baseline.findings) (List.of_mem_filter hmem)
  rw [← hcount, hsel]
  exact List.count_singleton_self

end Matching

section Pairs
variable {σ : Type} {rules : AdmissionRules} {checks : ResultRules (PassRest σ)}
  {result : ReviewResult checks} {baseline : ReviewBaseline} {f : BaselineFinding}
  {fingerprint : String} {p : ReviewComment × BaselineFinding}

theorem mem_matchedPairs : p ∈ matchedPairs rules result baseline ↔
    p.1 ∈ result.comments ∧
      matchBaselineFinding rules p.1.toCommentFields baseline = some p.2 := by
  unfold matchedPairs
  rw [List.mem_filterMap]
  constructor
  · rintro ⟨c, hc, hsome⟩
    obtain ⟨prior, hprior, rfl⟩ := Option.map_eq_some_iff.mp hsome
    exact ⟨hc, hprior⟩
  · intro h
    refine ⟨p.1, h.1, ?_⟩
    rw [h.2]
    rfl

theorem mem_pairsOf : p ∈ pairsOf rules result baseline fingerprint ↔
    p ∈ matchedPairs rules result baseline ∧ p.2.fingerprint = fingerprint := by
  rw [pairsOf, List.mem_filter, decide_eq_true_iff]

theorem count_matched : (matchedFingerprints rules result baseline).count fingerprint =
    (pairsOf rules result baseline fingerprint).length := by
  rw [matchedFingerprints, pairsOf, List.count, List.countP_map, List.countP_eq_length_filter]
  refine congrArg List.length (List.filter_congr fun p _ => ?_)
  rw [Function.comp_apply, beq_eq_decide]

theorem mem_omitted : f ∈ omittedPriors rules result baseline ↔
    f ∈ baseline.findings ∧ (pairsOf rules result baseline f.fingerprint).length = 0 := by
  rw [omittedPriors, List.mem_filter, decide_eq_true_iff, ← List.count_eq_zero, count_matched]

theorem mem_multiplyClaimed : f ∈ multiplyClaimed rules result baseline ↔
    f ∈ baseline.findings ∧ 1 < (pairsOf rules result baseline f.fingerprint).length := by
  rw [multiplyClaimed, List.mem_filter, decide_eq_true_iff, count_matched]

theorem mem_downgraded : f ∈ downgradedPriors rules result baseline ↔
    ∃ c, (c, f) ∈ matchedPairs rules result baseline ∧ f.blocking = true ∧
      blocksApproval rules.toRules c = false := by
  unfold downgradedPriors
  rw [List.mem_map]
  constructor
  · rintro ⟨p, hp, rfl⟩
    obtain ⟨hp, hlowers⟩ := List.mem_filter.mp hp
    rw [Bool.and_eq_true, Bool.not_eq_true'] at hlowers
    exact ⟨p.1, hp, hlowers⟩
  · rintro ⟨c, hc, hlowers⟩
    refine ⟨(c, f), List.mem_filter.mpr ⟨hc, ?_⟩, rfl⟩
    rw [Bool.and_eq_true, Bool.not_eq_true']
    exact hlowers

/-- The comments of a finding are the first halves of its pairs. -/
theorem claimsOf_eq : claimsOf rules result baseline f =
    ((pairsOf rules result baseline f.fingerprint).filter (fun p => p.2 = f)).map (·.1) := by
  have hsame : (pairsOf rules result baseline f.fingerprint).filter (fun p => p.2 = f) =
      (matchedPairs rules result baseline).filter (fun p => p.2 = f) := by
    rw [pairsOf, List.filter_filter]
    refine List.filter_congr fun p _ => ?_
    by_cases heq : p.2 = f
    · simp [heq]
    · simp [heq]
  rw [hsame]
  unfold claimsOf matchedPairs
  induction result.comments with
  | nil => rfl
  | cons c rest ih =>
    cases hmatch : matchBaselineFinding rules c.toCommentFields baseline with
    | none => simpa [hmatch] using ih
    | some prior =>
      by_cases heq : prior = f
      · simpa [hmatch, heq] using ih
      · simpa [hmatch, heq] using ih

/-- Under one fingerprint a single pair claims the finding it matches and no other. -/
theorem claimsOf_of_pairs (h : pairsOf rules result baseline f.fingerprint = [p]) :
    claimsOf rules result baseline f = if p.2 = f then [p.1] else [] := by
  rw [claimsOf_eq, h]
  by_cases heq : p.2 = f
  · simp [heq]
  · simp [heq]

/-- A witnessed finding is unproven only where the witness is of another finding. -/
theorem unproven_of_witnessed (h : Witnessed rules result baseline f.fingerprint) :
    Unproven rules result baseline f ↔ Hidden rules result baseline f := by
  obtain ⟨p, hpairs, hlower⟩ := id h
  have hclaims := claimsOf_of_pairs hpairs
  constructor
  · intro hunproven
    refine ⟨?_, h⟩
    by_cases heq : p.2 = f
    · rw [if_pos heq] at hclaims
      rcases hunproven with hlength | ⟨hblocking, hall⟩
      · exact absurd (congrArg List.length hclaims) hlength
      · have hlowered := hall p.1 (hclaims ▸ List.mem_singleton_self _)
        rw [hlower (heq ▸ hblocking)] at hlowered
        cases hlowered
    · rw [if_neg heq] at hclaims
      exact hclaims
  · intro hhidden
    refine .inl ?_
    rw [hhidden.1]
    decide

/-- The marks fall on the fingerprints that are not witnessed. -/
theorem marked_iff (hf : f ∈ baseline.findings) :
    (∃ g ∈ unprovenPriors rules result baseline, g.fingerprint = f.fingerprint) ↔
      ¬ Witnessed rules result baseline f.fingerprint := by
  constructor
  · rintro ⟨g, hg, hsame⟩ ⟨p, hpairs, hlower⟩
    rw [← hsame] at hpairs
    unfold unprovenPriors at hg
    rcases List.mem_append.mp hg with hg | hmultiple
    · rcases List.mem_append.mp hg with homitted | hdowngraded
      · have hnone := (mem_omitted.mp homitted).2
        rw [hpairs] at hnone
        cases hnone
      · obtain ⟨c, hc, hblocking, hlowered⟩ := mem_downgraded.mp hdowngraded
        have hmem : (c, g) ∈ pairsOf rules result baseline g.fingerprint :=
          mem_pairsOf.mpr ⟨hc, rfl⟩
        rw [hpairs, List.mem_singleton] at hmem
        rw [← hmem] at hlower
        rw [hlower hblocking] at hlowered
        cases hlowered
    · have hmany := (mem_multiplyClaimed.mp hmultiple).2
      rw [hpairs, List.length_singleton] at hmany
      omega
  · intro hnot
    match hpairs : pairsOf rules result baseline f.fingerprint with
    | [] =>
      refine ⟨f, ?_, rfl⟩
      apply List.mem_append_left _ (List.mem_append_left _ (mem_omitted.mpr ⟨hf, ?_⟩))
      rw [hpairs]
      rfl
    | [(c, g)] =>
      have hmem : (c, g) ∈ pairsOf rules result baseline f.fingerprint := by
        rw [hpairs]
        exact List.mem_singleton_self _
      obtain ⟨hmem, hsame⟩ := mem_pairsOf.mp hmem
      refine ⟨g, ?_, hsame⟩
      apply List.mem_append_left _ (List.mem_append_right _ (mem_downgraded.mpr ⟨c, hmem, ?_⟩))
      -- a pair that does not lower its finding would be a witness
      by_contra hkeeps
      refine hnot ⟨(c, g), hpairs, fun hblocking => ?_⟩
      rw [not_and, Bool.not_eq_false] at hkeeps
      exact hkeeps hblocking
    | p :: q :: rest =>
      refine ⟨f, ?_, rfl⟩
      apply List.mem_append_right _ (mem_multiplyClaimed.mpr ⟨hf, ?_⟩)
      rw [hpairs]
      simp

theorem matched_fingerprint {fingerprint : String}
    (h : fingerprint ∈ matchedFingerprints rules result baseline) :
    ∃ f ∈ baseline.findings, f.fingerprint = fingerprint := by
  obtain ⟨p, hp, rfl⟩ := List.mem_map.mp h
  exact ⟨p.2, match_mem (mem_matchedPairs.mp hp).2, rfl⟩

/-- Two matches of one fingerprint leave it without a witness. -/
theorem twice_matched
    (h : (matchedFingerprints rules result baseline).length ≠
      (matchedFingerprints rules result baseline).dedup.length) :
    ∃ f ∈ baseline.findings, ¬ Witnessed rules result baseline f.fingerprint := by
  have hnot : ¬ (matchedFingerprints rules result baseline).Nodup := by
    intro hnodup
    rw [hnodup.dedup] at h
    exact h rfl
  rw [List.nodup_iff_count_le_one, not_forall] at hnot
  obtain ⟨fingerprint, hmany⟩ := hnot
  have hmem : fingerprint ∈ matchedFingerprints rules result baseline := by
    apply List.count_pos_iff.mp
    omega
  obtain ⟨f, hf, rfl⟩ := matched_fingerprint hmem
  refine ⟨f, hf, ?_⟩
  rintro ⟨p, hpairs, _⟩
  rw [count_matched, hpairs, List.length_singleton] at hmany
  omega

/-- What the recovery makes of the status: complete only where everything is witnessed. -/
theorem reconciledStatus_complete : reconciledStatus rules result baseline = .complete ↔
    result.rest.reviewStatus = .complete ∧ result.comments.length ≤ maxHistoryFindings ∧
      ∀ f ∈ baseline.findings, Witnessed rules result baseline f.fingerprint := by
  unfold reconciledStatus
  constructor
  · intro h
    split at h
    · cases h
    · next hnot =>
      push Not at hnot
      obtain ⟨homitted, hdowngraded, hfew, honce⟩ := hnot h
      rw [homitted, List.length_nil, Nat.add_zero] at hfew
      refine ⟨h, hfew, fun f hf => ?_⟩
      by_contra hunwitnessed
      obtain ⟨g, hg, hsame⟩ := (marked_iff hf).mpr hunwitnessed
      unfold unprovenPriors at hg
      rw [homitted, hdowngraded, List.nil_append, List.nil_append] at hg
      have hmany := (mem_multiplyClaimed.mp hg).2
      rw [← count_matched] at hmany
      have hnodup := List.nodup_iff_count_le_one.mp
        (List.dedup_eq_self.mp ((List.dedup_sublist _).eq_of_length honce.symm)) g.fingerprint
      omega
  · rintro ⟨hcomplete, hfew, hall⟩
    have hnone : ∀ g ∈ unprovenPriors rules result baseline, g ∉ baseline.findings :=
      fun g hg hmem => (marked_iff hmem).mp ⟨g, hg, rfl⟩ (hall g hmem)
    have homitted : omittedPriors rules result baseline = [] := by
      apply List.eq_nil_iff_forall_not_mem.mpr
      intro g hg
      exact hnone g (List.mem_append_left _ (List.mem_append_left _ hg)) (mem_omitted.mp hg).1
    have hdowngraded : downgradedPriors rules result baseline = [] := by
      apply List.eq_nil_iff_forall_not_mem.mpr
      intro g hg
      obtain ⟨c, hc, _⟩ := mem_downgraded.mp hg
      exact hnone g (List.mem_append_left _ (List.mem_append_right _ hg))
        (match_mem (mem_matchedPairs.mp hc).2)
    rw [if_neg, hcomplete]
    rw [homitted, hdowngraded, List.length_nil, Nat.add_zero]
    rintro ⟨_, hnil | hnil | hmany | htwice⟩
    · exact hnil rfl
    · exact hnil rfl
    · omega
    · obtain ⟨f, hf, hunwitnessed⟩ := twice_matched htwice
      exact hunwitnessed (hall f hf)

end Pairs

section Recovered
variable {σ : Type} {rules : AdmissionRules} {checks : ResultRules (PassRest σ)}
  {result returned : ReviewResult checks} {baseline : ReviewBaseline} {mode : CoverageMode}
  {retain : Bool}

/-- What the recovery returns, field by field. -/
theorem reconcile_ok
    (h : reconcileOverflowReview rules result baseline mode retain = .ok returned) :
    returned.comments = result.comments ∧
      returned.findingLifecycles =
        (reconciledLifecycles rules result baseline retain).map (·.2) ∧
      returned.rest.reviewStatus = reconciledStatus rules result baseline := by
  obtain ⟨_, hunique, hlifecycles, _, hrest⟩ := Review.check_ok (Review.construct_ok h)
  refine ⟨?_, hlifecycles, ?_⟩
  · exact (Review.uniqueComments_ok hunique).2.2.2 result.keys_nodup
  · rw [hrest]

/-- A finding is uncertain afterwards where it has no witness, or was so before. -/
theorem uncertain_iff {f : BaselineFinding} (hf : f ∈ baseline.findings) :
    (⟨f.fingerprint, .uncertain⟩ : FindingLifecycleRecord) ∈
        (reconciledLifecycles rules result baseline retain).map (·.2) ↔
      ¬ Witnessed rules result baseline f.fingerprint ∨
        lastRecord result f.fingerprint = some ⟨f.fingerprint, .uncertain⟩ := by
  rw [(reconciled_keyed retain).mem_iff]
  dsimp only
  rw [reconciledLifecycles, get?_markUncertain]
  have hmarked : (∃ g ∈ unprovenPriors rules result baseline, g.fingerprint = f.fingerprint) ↔
      ¬ Witnessed rules result baseline f.fingerprint := marked_iff hf
  split
  · next hmark => exact iff_of_true rfl (.inl (hmarked.mp hmark))
  · next hmark =>
    rw [present_uncertain, ← hmarked]
    exact ⟨.inr, fun h => h.resolve_left hmark⟩

/-- Every record of the input, and every current finding, keeps a record. -/
theorem reconciled_isSome {fingerprint : String}
    (h : (lastRecord result fingerprint).isSome ∨
      fingerprint ∈ result.comments.map (fingerprintOf rules)) :
    ((reconciledLifecycles rules result baseline retain).get? fingerprint).isSome := by
  have hcurrent : ((withCurrent rules result).get? fingerprint).isSome := by
    rw [get?_withCurrent]
    split
    · rfl
    · next hnot =>
      rcases h with hrecorded | hmem
      · exact hrecorded
      · rw [Option.isSome_iff_ne_none]
        exact fun hnone => hnot ⟨hnone, hmem⟩
  rw [reconciledLifecycles, get?_markUncertain]
  split
  · rfl
  · exact (present_retained retain).isSome hcurrent

/-- A complete recovery shows each finding again, one comment for one finding. -/
theorem oneToOne (hall : ∀ f ∈ baseline.findings, Witnessed rules result baseline f.fingerprint)
    (hproven : ∀ f ∈ baseline.findings, ¬ Hidden rules result baseline f) :
    OneToOne rules result baseline := by
  have hwitness : ∀ f : BaselineFinding, ∃ c : ReviewComment, f ∈ baseline.findings →
      c ∈ result.comments ∧ matchBaselineFinding rules c.toCommentFields baseline = some f ∧
        (f.blocking = true → blocksApproval rules.toRules c = true) := by
    intro f
    by_cases hf : f ∈ baseline.findings
    · obtain ⟨p, hpairs, hlower⟩ := hall f hf
      have heq : p.2 = f := by
        by_contra hne
        have hclaims := claimsOf_of_pairs hpairs
        rw [if_neg hne] at hclaims
        exact hproven f hf ⟨hclaims, hall f hf⟩
      have hmem : p ∈ pairsOf rules result baseline f.fingerprint := by
        rw [hpairs]
        exact List.mem_singleton_self p
      obtain ⟨hc, hmatch⟩ := mem_matchedPairs.mp (mem_pairsOf.mp hmem).1
      rw [heq] at hmatch hlower
      exact ⟨p.1, fun _ => ⟨hc, hmatch, hlower⟩⟩
    · exact ⟨{ path := "", line := some 1, body := "", line_side := by decide },
        fun h => absurd h hf⟩
  choose witness hwitness using hwitness
  refine ⟨?_, witness, fun f hf => hwitness f hf, ?_⟩
  · rw [List.nodup_iff_count_eq_one]
    exact fun f hf => match_count (hwitness f hf).2.1
  · intro f hf g hg hsame
    have hmatch := (hwitness f hf).2.1
    rw [hsame, (hwitness g hg).2.1] at hmatch
    exact (Option.some.inj hmatch).symm

/-- A recovery keeps the whole history exactly where the findings that stand behind another one of
their fingerprint were settled without it. -/
theorem recovery_never_clears
    (h : reconcileOverflowReview rules result baseline mode retain = .ok returned) :
    NeverClears rules result baseline returned ↔ SharedPriorsSettled rules result baseline := by
  obtain ⟨hcomments, hlifecycles, hstatus⟩ := reconcile_ok h
  have hcomplete : returned.rest.reviewStatus = .complete ↔
      result.rest.reviewStatus = .complete ∧ result.comments.length ≤ maxHistoryFindings ∧
        ∀ f ∈ baseline.findings, Witnessed rules result baseline f.fingerprint := by
    rw [hstatus]
    exact reconciledStatus_complete
  constructor
  · intro hnever
    constructor
    · intro f hf hhidden
      have huncertain := hnever.uncertain f hf ((unproven_of_witnessed hhidden.2).mpr hhidden)
      rw [hlifecycles, uncertain_iff hf] at huncertain
      exact huncertain.resolve_left (not_not_intro hhidden.2)
    · rintro ⟨f, hf, hhidden⟩
      have hpartial := hnever.withheld ⟨f, hf, (unproven_of_witnessed hhidden.2).mpr hhidden⟩
      by_contra hsettled
      push Not at hsettled
      exact hpartial (hcomplete.mpr hsettled)
  · intro hsettled
    have hproven : returned.rest.reviewStatus = .complete →
        ∀ f ∈ baseline.findings, ¬ Hidden rules result baseline f := by
      intro hdone f hf hhidden
      obtain ⟨hcompleted, hfew, hall⟩ := hcomplete.mp hdone
      rcases hsettled.unsettled ⟨f, hf, hhidden⟩ with hopen | hmany | ⟨g, hg, hunwitnessed⟩
      · exact hopen hcompleted
      · omega
      · exact hunwitnessed (hall g hg)
    constructor
    · intro f hf hunproven
      rw [hlifecycles, uncertain_iff hf]
      by_cases hwitnessed : Witnessed rules result baseline f.fingerprint
      · exact .inr (hsettled.recorded f hf ((unproven_of_witnessed hwitnessed).mp hunproven))
      · exact .inl hwitnessed
    · rw [hlifecycles, (reconciled_keyed retain).fingerprints]
      exact (reconciled_keyed retain).nodup
    · rintro ⟨f, hf, hunproven⟩ hdone
      have hwitnessed := (hcomplete.mp hdone).2.2 f hf
      exact hproven hdone f hf ((unproven_of_witnessed hwitnessed).mp hunproven)
    · intro c hc
      rw [hlifecycles]
      apply (reconciled_keyed retain).count
      apply reconciled_isSome
      exact .inr (List.mem_map_of_mem (hcomments ▸ hc))
    · intro r hr
      have hsome : (lastRecord result r.fingerprint).isSome := by
        unfold lastRecord recordedLifecycles
        rw [Dict.isSome_get?_ofPairs, List.map_map]
        exact List.mem_map_of_mem hr
      have hafter : ((reconciledLifecycles rules result baseline retain).get?
          r.fingerprint).isSome := reconciled_isSome (.inl hsome)
      obtain ⟨r', hr'⟩ := Option.isSome_iff_exists.mp hafter
      have hmem := Dict.mem_of_get? hr'
      refine ⟨r', ?_, (reconciled_keyed retain).own _ hmem⟩
      rw [hlifecycles]
      exact List.mem_map.mpr ⟨_, hmem, rfl⟩
    · intro hdone
      have hone := oneToOne (hcomplete.mp hdone).2.2 (hproven hdone)
      unfold OneToOne at hone ⊢
      rw [hcomments]
      exact hone

/-- Where no two findings of the baseline share a fingerprint, nothing can hide. -/
theorem settled_of_distinct (h : (baseline.findings.map (·.fingerprint)).Nodup) :
    SharedPriorsSettled rules result baseline := by
  have hnone : ∀ f ∈ baseline.findings, ¬ Hidden rules result baseline f := by
    rintro f hf ⟨hclaims, p, hpairs, _⟩
    have hmem : p ∈ pairsOf rules result baseline f.fingerprint := by
      rw [hpairs]
      exact List.mem_singleton_self p
    obtain ⟨hmem, hsame⟩ := mem_pairsOf.mp hmem
    have heq : p.2 = f :=
      List.inj_on_of_nodup_map h (match_mem (mem_matchedPairs.mp hmem).2) hf hsame
    rw [claimsOf_of_pairs hpairs, if_pos heq] at hclaims
    cases hclaims
  exact ⟨fun f hf hhidden => absurd hhidden (hnone f hf),
    fun ⟨f, hf, hhidden⟩ => absurd hhidden (hnone f hf)⟩

end Recovered

section Sample

/-- Rules for the ASCII texts of the sample. -/
def sharedRules : AdmissionRules where
  unicode := { nfc := fun _ => true, forbidden := fun _ => false }
  lower := fun s => String.ofList (s.toList.map Char.toLower)
  codec := { compress := fun _ => [], inflate := fun _ => none, loads := fun _ => none }
  casefold := fun s => String.ofList (s.toList.map Char.toLower)
  printable := fun _ => true
  instant := fun _ => 0

def sharedComment (kind : String) (evidence : Option String) : ReviewComment where
  path := "a.py"
  line := some 1
  body := "The loop never ends."
  blocking := some true
  defectKind := some kind
  evidenceId := evidence
  line_side := Review.right_line

/-- The finding of an earlier comment; the fingerprint does not see the letter case of a kind. -/
def sharedFinding (kind : String) : BaselineFinding where
  fingerprint := lifecycleFingerprint sharedRules.lower (sharedComment kind none).toCommentFields
  resolutionCriterion :=
    lifecycleFingerprint sharedRules.lower (sharedComment kind none).toCommentFields
  path := some "a.py"
  defectKind := kind
  blocking := true

def sharedBaseline (findings : List BaselineFinding) : ReviewBaseline where
  cacheKey := {
    repository := "o/r"
    pullRequest := 1
    baseSha := "b"
    headSha := "h"
    engine := "e"
    model := "m"
    profile := "p"
    stageDigest := "s"
    contextDigest := "c"
    learningDigest := "l" }
  policyDigest := "d"
  complete := true
  findings
  reviewedPaths := ["a.py"]

def sharedChecks : ResultRules (PassRest Unit) where
  handoff := fun _ => .ok ()
  fields := fun _ => .ok ()
  bounds := fun _ => .ok ()
  reread := .ok

def sharedFields (records : List FindingLifecycleRecord) (status : Approval.ReviewStatus) :
    ResultFields (PassRest Unit) where
  comments := [sharedComment "Bug" (some "E1")]
  findingLifecycles := records
  reviewVerdict := none
  rest := ⟨status, .fallbackFull, ()⟩

def sharedResult (records : List FindingLifecycleRecord) (status : Approval.ReviewStatus) :
    ReviewResult sharedChecks where
  toResultFields := sharedFields records status
  accepted := ⟨sharedFields records status, rfl⟩

/-- What the recovery makes of the complete sample result. -/
def sharedReturned (baseline : ReviewBaseline) : ReviewResult sharedChecks :=
  sharedResult
    ((reconciledLifecycles sharedRules (sharedResult [] .complete) baseline false).map (·.2))
    (reconciledStatus sharedRules (sharedResult [] .complete) baseline)

theorem shared_recovery (baseline : ReviewBaseline) :
    reconcileOverflowReview sharedRules (sharedResult [] .complete) baseline .fallbackFull false =
      .ok (sharedReturned baseline) :=
  Review.construct_of_check rfl

theorem shared_status (baseline : ReviewBaseline) : (sharedReturned baseline).rest.reviewStatus =
    reconciledStatus sharedRules (sharedResult [] .complete) baseline :=
  rfl

theorem one_finding_kept :
    NeverClears sharedRules (sharedResult [] .complete) (sharedBaseline [sharedFinding "Bug"])
      (sharedReturned (sharedBaseline [sharedFinding "Bug"])) := by
  apply (recovery_never_clears (shared_recovery _)).mpr
  apply settled_of_distinct
  exact List.nodup_singleton _

theorem shared_fingerprints :
    (sharedFinding "bug").fingerprint = (sharedFinding "Bug").fingerprint ∧
      (sharedFinding "Bug").fingerprint ≠ lifecycleFingerprint sharedRules.lower
        (sharedComment "Bug" (some "E1")).toCommentFields := by
  decide +kernel

theorem shared_match :
    matchBaselineFinding sharedRules (sharedComment "Bug" (some "E1")).toCommentFields
      (sharedBaseline [sharedFinding "Bug", sharedFinding "bug"]) =
        some (sharedFinding "Bug") := by
  obtain ⟨hsame, hother⟩ := shared_fingerprints
  have hidentity : [sharedFinding "Bug", sharedFinding "bug"].filter (fun f => f.identityKey =
      ("a.py", "", commentDefectKind (sharedComment "Bug" (some "E1")).toCommentFields)) =
        [sharedFinding "Bug"] := by rfl
  have hfingerprint : [sharedFinding "Bug", sharedFinding "bug"].filter (fun f => f.fingerprint =
      lifecycleFingerprint sharedRules.lower (sharedComment "Bug" (some "E1")).toCommentFields) =
        [] := by
    apply List.filter_eq_nil_iff.mpr
    intro f hf hfound
    have hfound := of_decide_eq_true hfound
    simp only [List.mem_cons, List.not_mem_nil, or_false] at hf
    rcases hf with rfl | rfl
    · exact hother hfound
    · exact hother (hsame.symm.trans hfound)
  unfold matchBaselineFinding baselineMatch
  dsimp only
  rw [show (sharedBaseline [sharedFinding "Bug", sharedFinding "bug"]).findings =
    [sharedFinding "Bug", sharedFinding "bug"] from rfl, hfingerprint]
  rw [show ((sharedComment "Bug" (some "E1")).path,
    (sharedComment "Bug" (some "E1")).symbol.getD "",
    commentDefectKind (sharedComment "Bug" (some "E1")).toCommentFields) = ("a.py", "",
      commentDefectKind (sharedComment "Bug" (some "E1")).toCommentFields) from rfl, hidentity]
  rfl

/-- Two findings of one fingerprint: a comment matches the one, the other is lost, and the pass is
complete. -/
theorem hidden_prior_cleared :
    sharedFinding "bug" ∈ (sharedBaseline [sharedFinding "Bug", sharedFinding "bug"]).findings ∧
      claimsOf sharedRules (sharedResult [] .complete)
        (sharedBaseline [sharedFinding "Bug", sharedFinding "bug"]) (sharedFinding "bug") = [] ∧
      reconcileOverflowReview sharedRules (sharedResult [] .complete)
        (sharedBaseline [sharedFinding "Bug", sharedFinding "bug"]) .fallbackFull false =
          .ok (sharedReturned (sharedBaseline [sharedFinding "Bug", sharedFinding "bug"])) ∧
      (sharedReturned (sharedBaseline [sharedFinding "Bug", sharedFinding "bug"])
        ).rest.reviewStatus = .complete ∧
      ¬ NeverClears sharedRules (sharedResult [] .complete)
        (sharedBaseline [sharedFinding "Bug", sharedFinding "bug"])
        (sharedReturned (sharedBaseline [sharedFinding "Bug", sharedFinding "bug"])) := by
  have hmem : sharedFinding "bug" ∈ [sharedFinding "Bug", sharedFinding "bug"] :=
    List.mem_cons_of_mem _ List.mem_cons_self
  have hpairs : matchedPairs sharedRules (sharedResult [] .complete)
      (sharedBaseline [sharedFinding "Bug", sharedFinding "bug"]) =
        [(sharedComment "Bug" (some "E1"), sharedFinding "Bug")] := by
    unfold matchedPairs
    rw [show (sharedResult [] .complete).comments = [sharedComment "Bug" (some "E1")] from rfl,
      List.filterMap_cons, shared_match]
    rfl
  have hpairsOf : pairsOf sharedRules (sharedResult [] .complete)
      (sharedBaseline [sharedFinding "Bug", sharedFinding "bug"])
        (sharedFinding "Bug").fingerprint =
        [(sharedComment "Bug" (some "E1"), sharedFinding "Bug")] := by
    rw [pairsOf, hpairs]
    exact List.filter_eq_self.mpr (fun p hp => decide_eq_true (by rw [List.mem_singleton.mp hp]))
  have hwitnessed : Witnessed sharedRules (sharedResult [] .complete)
      (sharedBaseline [sharedFinding "Bug", sharedFinding "bug"])
        (sharedFinding "Bug").fingerprint := ⟨_, hpairsOf, fun _ => rfl⟩
  have hkinds : sharedFinding "Bug" ≠ sharedFinding "bug" := by
    intro hsame
    exact absurd (congrArg BaselineFinding.defectKind hsame) (by decide : "Bug" ≠ "bug")
  have hclaims : claimsOf sharedRules (sharedResult [] .complete)
      (sharedBaseline [sharedFinding "Bug", sharedFinding "bug"]) (sharedFinding "bug") = [] := by
    rw [← shared_fingerprints.1] at hpairsOf
    rw [claimsOf_of_pairs hpairsOf, if_neg hkinds]
  have hstatus : reconciledStatus sharedRules (sharedResult [] .complete)
      (sharedBaseline [sharedFinding "Bug", sharedFinding "bug"]) = .complete := by
    refine reconciledStatus_complete.mpr ⟨rfl, by decide, fun f hf => ?_⟩
    rcases List.mem_cons.mp hf with rfl | hf
    · exact hwitnessed
    · rw [List.mem_singleton.mp hf, shared_fingerprints.1]
      exact hwitnessed
  rw [← shared_status] at hstatus
  refine ⟨hmem, hclaims, shared_recovery _, hstatus, fun hnever => ?_⟩
  exact hnever.withheld ⟨sharedFinding "bug", hmem, .inl (by rw [hclaims]; decide)⟩ hstatus

end Sample
end ReviewSensei.Convergence
