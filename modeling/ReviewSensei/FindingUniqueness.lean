import ReviewSensei.FindingRuns

/-! One record for one concern: when a reconciled set holds no identity twice. -/
namespace ReviewSensei.Findings
open Session (bind_ok)

variable {canonical : String → Bool}

/-- At most one record of each fingerprint and at most one of each concern. -/
structure OneRecordPerConcern (records : List (FindingLifecycle canonical)) : Prop where
  fingerprints : (records.map (·.fingerprint)).Nodup
  concerns : (records.filterMap (·.concern)).Nodup

/-- What uniqueness and a later pass see of a record. -/
def identity (f : FindingLifecycle canonical) : Digest × Option Digest :=
  (f.fingerprint, f.concern)

def Apart (p r : FindingLifecycle canonical) : Prop :=
  sharesIdentity p r = false

section Identities
variable {p r : FindingLifecycle canonical} {records others : List (FindingLifecycle canonical)}

theorem apart_iff : Apart p r ↔
    p.fingerprint ≠ r.fingerprint ∧ (p.concern.isSome → p.concern ≠ r.concern) := by
  unfold Apart
  rw [← Bool.not_eq_true, sharesIdentity_iff, not_or, not_and]

theorem oneRecordPerConcern_iff : OneRecordPerConcern records ↔ records.Pairwise Apart := by
  have hfingerprints : (records.map (·.fingerprint)).Nodup ↔
      records.Pairwise (fun p r => p.fingerprint ≠ r.fingerprint) := List.pairwise_map
  have hconcerns : (records.filterMap (·.concern)).Nodup ↔
      records.Pairwise (fun p r => p.concern.isSome → p.concern ≠ r.concern) := by
    refine List.pairwise_filterMap.trans (Iff.of_eq ?_)
    congr 1
    funext p r
    cases p.concern <;> cases r.concern <;> simp
  have hboth : records.Pairwise Apart ↔
      records.Pairwise (fun p r => p.fingerprint ≠ r.fingerprint ∧
        (p.concern.isSome → p.concern ≠ r.concern)) :=
    List.Pairwise.iff fun p r => apart_iff
  rw [hboth, List.pairwise_and_iff, ← hfingerprints, ← hconcerns]
  exact ⟨fun h => ⟨h.fingerprints, h.concerns⟩, fun h => ⟨h.1, h.2⟩⟩

/-- Lists with the same identities are equally free of repetitions. -/
theorem pairwise_apart_congr (h : records.map identity = others.map identity) :
    records.Pairwise Apart ↔ others.Pairwise Apart := by
  have hmap (l : List (FindingLifecycle canonical)) : l.Pairwise Apart ↔
      (l.map identity).Pairwise (fun a b => a.1 ≠ b.1 ∧ (a.2.isSome → a.2 ≠ b.2)) := by
    rw [List.pairwise_map]
    exact List.Pairwise.iff fun p r => apart_iff
  rw [hmap, hmap, h]

end Identities

section Condition
variable (previous : List (FindingLifecycle canonical)) (pass : Pass canonical)

/-- The inputs of a pass hold no identity twice where the pass keeps both. -/
structure SeparateIdentities : Prop where
  newer : (protectedRecords previous pass.generation).Pairwise Apart
  current : (admittedRecords previous pass).Pairwise Apart
  newer_current : ∀ p ∈ protectedRecords previous pass.generation,
    ∀ i ∈ admittedRecords previous pass, p.fingerprint ≠ i.fingerprint
  omitted : (observedRecords previous pass.generation).Pairwise
    (fun p q => Omitted previous pass p → Omitted previous pass q → Apart p q)
  /-- An omitted record has no concern that a newer or a current record holds. -/
  omitted_concern : ∀ q, Omitted previous pass q → q.concern.isSome →
    (∀ p ∈ protectedRecords previous pass.generation, p.concern ≠ q.concern) ∧
      ∀ i ∈ admittedRecords previous pass, i.concern ≠ q.concern

end Condition

section Listing
variable {previous returned : List (FindingLifecycle canonical)} {pass : Pass canonical}

/-- What a pass returns, in its order, with the test that keeps an older record. -/
structure Listing (previous : List (FindingLifecycle canonical)) (pass : Pass canonical)
    (records carried returned : List (FindingLifecycle canonical))
    (keep : FindingLifecycle canonical → Bool) : Prop where
  observed : List.Forall₂ (Observed pass (observedRecords previous pass.generation))
    (admittedRecords previous pass) records
  keep_iff : ∀ p ∈ observedRecords previous pass.generation,
    keep p = true ↔ Omitted previous pass p
  carried_identity : carried.map identity =
    ((observedRecords previous pass.generation).filter keep).map identity
  generation_le : ∀ r ∈ records ++ carried, (r.generation : Int) ≤ pass.generation
  returned_eq : returned = protectedRecords previous pass.generation ++ (records ++ carried)

theorem construct_generation {f : FindingLifecycle canonical} {fingerprint : Digest}
    {state : LifecycleState} {evidence : Option String} {concern : Option Digest}
    {path : Option {p : String // canonical p = true}} {generation bound : Int}
    (hle : generation ≤ bound)
    (h : FindingLifecycle.construct fingerprint state evidence concern path generation = .ok f) :
    (f.generation : Int) ≤ bound := by
  obtain ⟨hnonneg, rfl⟩ := FindingLifecycle.construct_ok h
  have hsame : (generation.toNat : Int) = generation := Int.toNat_of_nonneg hnonneg
  exact hsame ▸ hle

/-- One turn of the loop writes no record newer than its pass. -/
theorem reconcileCurrent_generation {older : List (FindingLifecycle canonical)}
    {barred : List Digest} {s s' : Reconciled canonical} {item : FindingLifecycle canonical}
    (holder : ∀ p ∈ older, (p.generation : Int) ≤ pass.generation)
    (hs : ∀ r ∈ s.reconciled, (r.generation : Int) ≤ pass.generation)
    (h : reconcileCurrent pass older barred s item = .ok s') :
    ∀ r ∈ s'.reconciled, (r.generation : Int) ≤ pass.generation := by
  have hwritten (record : FindingLifecycle canonical)
      (hrecord : (record.generation : Int) ≤ pass.generation) :
      ∀ r ∈ s.reconciled ++ [record], (r.generation : Int) ≤ pass.generation := by
    intro r hr
    rcases List.mem_append.mp hr with hold | hnew
    · exact hs r hold
    · exact (List.mem_singleton.mp hnew) ▸ hrecord
  have hmax (p : FindingLifecycle canonical) (hp : p ∈ older) :
      max (p.generation : Int) pass.generation ≤ pass.generation := by
    have hle := holder p hp
    omega
  unfold reconcileCurrent at h
  split at h
  · obtain rfl : s = s' := Except.ok.inj h
    exact hs
  · rcases lookup_cases older item with
      ⟨prior, hprior, hlookup, _⟩ | ⟨moved, hlookup, hmoved⟩ | ⟨hlookup, _⟩
    · rw [hlookup] at h
      obtain ⟨record, hrecord, hnext⟩ := bind_ok h
      rw [← Except.ok.inj hnext]
      exact hwritten record (construct_generation (hmax prior hprior) hrecord)
    · have hmem := (movedFrom_some hmoved).1
      rw [hlookup] at h
      dsimp only at h
      split at h
      · obtain ⟨record, hrecord, hnext⟩ := bind_ok h
        rw [← Except.ok.inj hnext]
        exact hwritten record (construct_generation (Int.le_refl _) hrecord)
      · obtain ⟨record, hrecord, hnext⟩ := bind_ok h
        rw [← Except.ok.inj hnext]
        exact hwritten record (construct_generation (hmax moved hmem) hrecord)
    · rw [hlookup] at h
      obtain ⟨record, hrecord, hnext⟩ := bind_ok h
      rw [← Except.ok.inj hnext]
      exact hwritten record (construct_generation (Int.le_refl _) hrecord)

theorem reconcileLoop_generation {older : List (FindingLifecycle canonical)}
    {barred : List Digest} {items : List (FindingLifecycle canonical)}
    {s s' : Reconciled canonical}
    (holder : ∀ p ∈ older, (p.generation : Int) ≤ pass.generation)
    (hs : ∀ r ∈ s.reconciled, (r.generation : Int) ≤ pass.generation)
    (h : items.foldlM (reconcileCurrent pass older barred) s = .ok s') :
    ∀ r ∈ s'.reconciled, (r.generation : Int) ≤ pass.generation := by
  induction items generalizing s with
  | nil =>
    obtain rfl : s = s' := Except.ok.inj h
    exact hs
  | cons item rest ih =>
    rw [List.foldlM_cons] at h
    obtain ⟨middle, hstep, hrest⟩ := bind_ok h
    exact ih (reconcileCurrent_generation holder hs hstep) hrest

theorem carry_generation_le {reviewed : Option (List {p : String // canonical p = true})}
    {p : FindingLifecycle canonical} (hp : (p.generation : Int) ≤ pass.generation) :
    ((carry pass reviewed p).generation : Int) ≤ pass.generation := by
  have hmax : ((max (p.generation : Int) pass.generation).toNat : Int) ≤ pass.generation := by
    omega
  unfold carry
  split_ifs
  · exact hp
  all_goals exact hmax

theorem reconcile_listing (h : reconcileFindingSet previous pass = .ok returned) :
    ∃ records carried keep, Listing previous pass records carried returned keep := by
  have holder : ∀ p ∈ observedRecords previous pass.generation,
      (p.generation : Int) ≤ pass.generation := fun p hp => (mem_observedRecords.mp hp).2
  unfold reconcileFindingSet at h
  obtain ⟨reviewed, _, h⟩ := bind_ok h
  obtain ⟨loop, hloop, h⟩ := bind_ok h
  obtain ⟨records, hrecords, hobserved, hcovers⟩ := reconcileLoop_ok hloop
  have hgeneration := reconcileLoop_generation holder (by simp) hloop
  rw [List.nil_append] at hrecords
  rw [hrecords] at h hgeneration
  refine ⟨records, _, fun prior =>
    !((protectedRecords previous pass.generation).map (·.fingerprint)).contains
        prior.fingerprint &&
      !(loop.matched.contains prior.fingerprint ||
        loop.seenFingerprints.contains prior.fingerprint),
    hobserved, fun p hold => ?_, ?_, ?_, (Except.ok.inj h).symm⟩
  · have hp := hcovers p.fingerprint
    simp only [Reconciled.covers, List.not_mem_nil, or_self, false_or] at hp
    simp only [Omitted, hold, true_and, Bool.and_eq_true, Bool.not_eq_true',
      Bool.or_eq_false_iff, List.contains_eq_mem, decide_eq_false_iff_not, List.mem_map,
      not_exists, not_and, ← not_or, hp, admittedRecords]
  · rw [List.map_map]
    refine List.map_congr_left fun p _ => ?_
    simp [identity]
  · intro r hr
    rcases List.mem_append.mp hr with hwritten | hcarried
    · exact hgeneration r hwritten
    · obtain ⟨p, hp, rfl⟩ := List.mem_map.mp hcarried
      exact carry_generation_le (holder p (List.mem_filter.mp hp).1)

variable {records carried : List (FindingLifecycle canonical)}
  {keep : FindingLifecycle canonical → Bool}

theorem observed_identity {older items : List (FindingLifecycle canonical)}
    (h : List.Forall₂ (Observed pass older) items records) :
    records.map identity = items.map identity := by
  induction h with
  | nil => rfl
  | cons hobserved _ ih =>
    rw [List.map_cons, List.map_cons, ih, identity, hobserved.fingerprint_eq,
      hobserved.concern_eq, ← identity]

/-- The identities of a reconciled set are those of its sources, in order. -/
theorem Listing.identities (h : Listing previous pass records carried returned keep) :
    returned.map identity = (protectedRecords previous pass.generation ++
      (admittedRecords previous pass ++
        (observedRecords previous pass.generation).filter keep)).map identity := by
  rw [h.returned_eq]
  simp only [List.map_append, observed_identity h.observed, h.carried_identity]

theorem Listing.mem_keep {p : FindingLifecycle canonical}
    (h : Listing previous pass records carried returned keep) :
    p ∈ (observedRecords previous pass.generation).filter keep ↔ Omitted previous pass p := by
  rw [List.mem_filter]
  constructor
  · intro hp
    exact (h.keep_iff p hp.1).mp hp.2
  · intro homitted
    exact ⟨homitted.1, (h.keep_iff p homitted.1).mpr homitted⟩

theorem Listing.pairwise_kept (h : Listing previous pass records carried returned keep) :
    ((observedRecords previous pass.generation).filter keep).Pairwise Apart ↔
      (observedRecords previous pass.generation).Pairwise
        (fun p q => Omitted previous pass p → Omitted previous pass q → Apart p q) := by
  rw [List.pairwise_filter]
  refine List.Pairwise.iff_of_mem fun hp hq => ?_
  rw [h.keep_iff _ hp, h.keep_iff _ hq]

/-- A reconciled set holds no identity twice exactly when the kept inputs do not. -/
theorem oneRecord_iff_separate (h : Listing previous pass records carried returned keep) :
    OneRecordPerConcern returned ↔ SeparateIdentities previous pass := by
  rw [oneRecordPerConcern_iff, pairwise_apart_congr h.identities, List.pairwise_append,
    List.pairwise_append, h.pairwise_kept]
  constructor
  · rintro ⟨hnewer, ⟨hcurrent, homitted, hacross⟩, hbeside⟩
    refine ⟨hnewer, hcurrent, ?_, homitted, ?_⟩
    · intro p hp i hi
      exact (apart_iff.mp (hbeside p hp i (List.mem_append_left _ hi))).1
    · intro q hq hsome
      have hmem := h.mem_keep.mpr hq
      constructor
      · intro p hp heq
        have hapart := apart_iff.mp (hbeside p hp q (List.mem_append_right _ hmem))
        exact hapart.2 (heq ▸ hsome) heq
      · intro i hi heq
        exact (apart_iff.mp (hacross i hi q hmem)).2 (heq ▸ hsome) heq
  · intro hseparate
    refine ⟨hseparate.newer, ⟨hseparate.current, hseparate.omitted, ?_⟩, ?_⟩
    · intro i hi q hmem
      have hq := h.mem_keep.mp hmem
      refine apart_iff.mpr ⟨fun heq => hq.2.2 i hi (.inl heq), fun hsome heq => ?_⟩
      exact (hseparate.omitted_concern q hq (heq ▸ hsome)).2 i hi heq
    · intro p hp r hr
      rcases List.mem_append.mp hr with hi | hmem
      · exact apart_iff.mpr ⟨hseparate.newer_current p hp r hi,
          fun hsome => admitted_concern hp hi hsome⟩
      · have hq := h.mem_keep.mp hmem
        refine apart_iff.mpr ⟨hq.2.1 p hp, fun hsome heq => ?_⟩
        exact (hseparate.omitted_concern r hq (heq ▸ hsome)).1 p hp heq


end Listing

section Again
variable {previous returned : List (FindingLifecycle canonical)} {pass again : Pass canonical}
  {records carried : List (FindingLifecycle canonical)} {keep : FindingLifecycle canonical → Bool}

theorem Listing.protected_again (h : Listing previous pass records carried returned keep)
    (hgeneration : again.generation = pass.generation) :
    protectedRecords returned again.generation = protectedRecords previous pass.generation := by
  have hnewer : (protectedRecords previous pass.generation).filter
      (fun f => decide (pass.generation < f.generation)) =
        protectedRecords previous pass.generation :=
    List.filter_eq_self.mpr fun p hp => decide_eq_true (mem_protectedRecords.mp hp).2
  have hwritten : (records ++ carried).filter
      (fun f => decide (pass.generation < f.generation)) = [] := by
    refine List.filter_eq_nil_iff.mpr fun r hr => ?_
    have hle := h.generation_le r hr
    simpa using hle
  rw [hgeneration, h.returned_eq]
  unfold protectedRecords at hnewer ⊢
  rw [List.filter_append, hnewer, hwritten, List.append_nil]

theorem Listing.observed_again (h : Listing previous pass records carried returned keep)
    (hgeneration : again.generation = pass.generation) :
    observedRecords returned again.generation = records ++ carried := by
  have hnewer : (protectedRecords previous pass.generation).filter
      (fun f => decide ((f.generation : Int) ≤ pass.generation)) = [] := by
    refine List.filter_eq_nil_iff.mpr fun p hp => ?_
    have hlt := (mem_protectedRecords.mp hp).2
    simpa using hlt
  have hwritten : (records ++ carried).filter
      (fun f => decide ((f.generation : Int) ≤ pass.generation)) = records ++ carried :=
    List.filter_eq_self.mpr fun r hr => decide_eq_true (h.generation_le r hr)
  rw [hgeneration, h.returned_eq]
  unfold observedRecords
  rw [List.filter_append, hnewer, hwritten, List.nil_append]

theorem Listing.admitted_again (h : Listing previous pass records carried returned keep)
    (hcurrent : again.current = pass.current) (hgeneration : again.generation = pass.generation) :
    admittedRecords returned again = admittedRecords previous pass := by
  unfold admittedRecords
  rw [h.protected_again hgeneration, hcurrent]

/-- The second pass finds every current fingerprint among the records of the first. -/
theorem Listing.touched_again (h : Listing previous pass records carried returned keep)
    {i : FindingLifecycle canonical} (hi : i ∈ admittedRecords previous pass)
    (fingerprint : Digest) :
    Touched (records ++ carried) i fingerprint ↔ i.fingerprint = fingerprint := by
  obtain ⟨r, hr, hobserved⟩ := exists_right_of_mem h.observed hi
  have hknown : movedFrom (records ++ carried) i = none :=
    if_pos (List.any_eq_true.mpr ⟨r, List.mem_append_left _ hr,
      decide_eq_true hobserved.fingerprint_eq⟩)
  unfold Touched
  rw [hknown]
  simp

/-- The second pass omits what the first one carried over, and nothing else. -/
theorem Listing.kept_again (h : Listing previous pass records carried returned keep)
    (hcurrent : again.current = pass.current) (hgeneration : again.generation = pass.generation)
    {records' carried' returned' : List (FindingLifecycle canonical)}
    {keep' : FindingLifecycle canonical → Bool}
    (h' : Listing returned again records' carried' returned' keep') :
    (observedRecords returned again.generation).filter keep' = carried := by
  have hkeep (r : FindingLifecycle canonical) (hr : r ∈ records ++ carried) :
      keep' r = true ↔
        (∀ p ∈ protectedRecords previous pass.generation, p.fingerprint ≠ r.fingerprint) ∧
          ∀ i ∈ admittedRecords previous pass, i.fingerprint ≠ r.fingerprint := by
    have hobserved := h.observed_again hgeneration
    rw [h'.keep_iff r (hobserved ▸ hr), Omitted, h.protected_again hgeneration,
      h.admitted_again hcurrent hgeneration, hobserved]
    refine (and_iff_right hr).trans (and_congr_right fun _ => ?_)
    refine forall₂_congr fun i hi => ?_
    rw [h.touched_again hi]
  have hrecords : records.filter keep' = [] := by
    refine List.filter_eq_nil_iff.mpr fun r hr hkept => ?_
    obtain ⟨i, hi, hobserved⟩ := exists_left_of_mem h.observed hr
    have hfree := ((hkeep r (List.mem_append_left _ hr)).mp hkept).2
    exact hfree i hi hobserved.fingerprint_eq.symm
  have hcarried : carried.filter keep' = carried := by
    refine List.filter_eq_self.mpr fun r hr => ?_
    have hmem : identity r ∈ carried.map identity := List.mem_map_of_mem hr
    rw [h.carried_identity] at hmem
    obtain ⟨q, hq, hsame⟩ := List.mem_map.mp hmem
    have homitted := h.mem_keep.mp hq
    have hfingerprint : q.fingerprint = r.fingerprint := congrArg Prod.fst hsame
    refine (hkeep r (List.mem_append_right _ hr)).mpr ⟨?_, ?_⟩
    · exact hfingerprint ▸ homitted.2.1
    · intro i hi heq
      exact homitted.2.2 i hi (.inl (heq.trans hfingerprint.symm))
  rw [h.observed_again hgeneration, List.filter_append, hrecords, hcarried, List.nil_append]

/-- A second pass with the same findings and generation keeps every identity in its place. -/
theorem reconcile_again (h : reconcileFindingSet previous pass = .ok returned)
    (hcurrent : again.current = pass.current) (hgeneration : again.generation = pass.generation)
    {returned' : List (FindingLifecycle canonical)}
    (h' : reconcileFindingSet returned again = .ok returned') :
    returned'.map identity = returned.map identity := by
  obtain ⟨records, carried, keep, hlisting⟩ := reconcile_listing h
  obtain ⟨records', carried', keep', hlisting'⟩ := reconcile_listing h'
  calc returned'.map identity
      = (protectedRecords returned again.generation ++ (admittedRecords returned again ++
          (observedRecords returned again.generation).filter keep')).map identity :=
        hlisting'.identities
    _ = (protectedRecords previous pass.generation ++
          (admittedRecords previous pass ++ carried)).map identity := by
        rw [hlisting.protected_again hgeneration, hlisting.admitted_again hcurrent hgeneration,
          hlisting.kept_again hcurrent hgeneration hlisting']
    _ = returned.map identity := by
        rw [hlisting.identities]
        simp only [List.map_append, hlisting.carried_identity]

end Again

section Sample

/-- Over every record set and every pass that returns: no fingerprint and no concern is returned
twice exactly when the inputs hold none of them twice where both are kept, and reconciling the
same findings again at the same generation returns the same identities in the same order. -/
theorem one_record_per_concern (previous : List (FindingLifecycle canonical))
    (pass : Pass canonical) (returned : List (FindingLifecycle canonical))
    (h : reconcileFindingSet previous pass = .ok returned) :
    (OneRecordPerConcern returned ↔ SeparateIdentities previous pass) ∧
      ∀ again : Pass canonical, again.current = pass.current →
        again.generation = pass.generation → 0 ≤ again.generation → CanonicalScope again →
        ∃ returned', reconcileFindingSet returned again = .ok returned' ∧
          returned'.map identity = returned.map identity := by
  obtain ⟨records, carried, keep, hlisting⟩ := reconcile_listing h
  refine ⟨oneRecord_iff_separate hlisting, ?_⟩
  intro again hcurrent hgeneration hnonneg hscope
  obtain ⟨returned', h'⟩ := reconcile_returns  hnonneg hscope
  exact ⟨returned', h', reconcile_again h hcurrent hgeneration h'⟩

/-- One finding reported once more under its own fingerprint keeps its one record. -/
theorem sample_one_record :
    OneRecordPerConcern [{ firstRecord with state := .stillPresent }] ↔
      SeparateIdentities [firstRecord] (samplePass [firstRecord]) :=
  (one_record_per_concern [firstRecord] (samplePass [firstRecord])
    [{ firstRecord with state := .stillPresent }] (by decide)).1

/-- Two earlier records of one concern both stay in a pass that reports neither. -/
theorem shared_concern_stays :
    let previous := [firstRecord, secondRecord]
    let pass := samplePass []
    ∃ returned, reconcileFindingSet previous pass = .ok returned ∧
      ¬ OneRecordPerConcern returned := by
  intro previous pass
  have hreturned : reconcileFindingSet previous pass = .ok
      [{ firstRecord with state := .fixed }, { secondRecord with state := .fixed }] := by
    decide
  refine ⟨_, hreturned, ?_⟩
  intro hone
  have hconcerns : [sampleConcern, sampleConcern].Nodup := hone.concerns
  simp at hconcerns

end Sample
end ReviewSensei.Findings
