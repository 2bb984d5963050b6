import ReviewSensei.FindingSet
import ReviewSensei.SessionLedger
import Mathlib.Data.List.Forall2
import Mathlib.Logic.Relation

/-! What a pass may do to recorded findings: nothing is lost, and omission is never a fix. -/
namespace ReviewSensei.Findings
open Session (isSha256 bind_ok repeated)

variable {canonical : String → Bool}

/-- The same fingerprint, or the same concern. -/
def sharesIdentity (p r : FindingLifecycle canonical) : Bool :=
  p.fingerprint = r.fingerprint || (p.concern.isSome && p.concern = r.concern)

/-- A current record of the concern is reported in this pass. -/
def ReportedAgain (pass : Pass canonical) (p : FindingLifecycle canonical) : Prop :=
  p.concern.isSome ∧ ∃ i ∈ pass.current, i.concern = p.concern

/-- `r` stands for `p`: it has its fingerprint, or its concern where that is reported again. -/
def Represents (pass : Pass canonical) (p r : FindingLifecycle canonical) : Prop :=
  p.generation ≤ r.generation ∧
    (r.fingerprint = p.fingerprint ∨ (ReportedAgain pass p ∧ r.concern = p.concern))

/-- The pass declared no paths, or the path of the record among them. -/
def PathInScope (pass : Pass canonical) (p : FindingLifecycle canonical) : Prop :=
  ∀ paths, pass.reviewedPaths = some paths → ∃ path, p.path = some path ∧ path.val ∈ paths

/-- What the code asks before it calls a finding fixed. -/
structure FixEvidence (pass : Pass canonical) (p : FindingLifecycle canonical) : Prop where
  complete : pass.reviewComplete = true
  in_scope : PathInScope pass p
  confirmed : p.concern.any (confirmed pass) = true

/-- No finding is lost in a pass, none becomes fixed by omission, and newer records stand alone. -/
structure OmissionIsNoFix (previous : List (FindingLifecycle canonical)) (pass : Pass canonical)
    (returned : List (FindingLifecycle canonical)) : Prop where
  represented : ∀ p ∈ previous, ∃ r ∈ returned, Represents pass p r
  fixed : ∀ r ∈ returned, r.state = .fixed →
    (∃ q ∈ previous, q.fingerprint = r.fingerprint ∧ q.state = .fixed) ∨
      ∃ p ∈ previous, p.retired = false ∧ p.fingerprint = r.fingerprint ∧ p.concern = r.concern ∧
        FixEvidence pass p ∧ ∀ i ∈ pass.current, sharesIdentity p i = false
  out_of_scope : ∀ p ∈ observedRecords previous pass.generation, p.retired = false →
    ¬ PathInScope pass p →
    (∃ r ∈ returned, r.fingerprint = p.fingerprint ∧ r.state = .stillPresent) ∨
      ReportedAgain pass p
  newer : ∀ p ∈ protectedRecords previous pass.generation,
    p ∈ returned ∧ returned.countP (sharesIdentity p) = 1

section Inputs
variable (previous : List (FindingLifecycle canonical)) (pass : Pass canonical)

/-- The current records the loop does not skip. -/
def admittedRecords : List (FindingLifecycle canonical) :=
  let barred := (protectedRecords previous pass.generation).filterMap (·.concern)
  pass.current.filter (fun i => !superseded barred i)

/-- An earlier record that no current record touches and no newer record hides. -/
def Omitted (p : FindingLifecycle canonical) : Prop :=
  p ∈ observedRecords previous pass.generation ∧
    (∀ q ∈ protectedRecords previous pass.generation, q.fingerprint ≠ p.fingerprint) ∧
    ∀ i ∈ admittedRecords previous pass,
      ¬ Touched (observedRecords previous pass.generation) i p.fingerprint

/-- The collisions that the pass must be free of. -/
structure NoCollision : Prop where
  /-- Newer records do not share identities with each other. -/
  newer_alone : ∀ p ∈ protectedRecords previous pass.generation,
    (protectedRecords previous pass.generation).countP (sharesIdentity p) = 1
  /-- A current record with the fingerprint of a newer one has the concern of a newer one. -/
  newer_unreported : ∀ p ∈ protectedRecords previous pass.generation,
    ∀ i ∈ admittedRecords previous pass, i.fingerprint ≠ p.fingerprint
  /-- An omitted record has no concern of a newer one. -/
  newer_concern : ∀ p ∈ protectedRecords previous pass.generation, p.concern.isSome →
    ∀ q, Omitted previous pass q → q.concern ≠ p.concern
  /-- An omitted record with evidence of a fix is not reported under its concern. -/
  unreported : ∀ q, Omitted previous pass q → q.retired = false → FixEvidence pass q →
    (∃ p ∈ previous, p.fingerprint = q.fingerprint ∧ p.state = .fixed) ∨
      ∀ i ∈ pass.current, sharesIdentity q i = false
  /-- A fingerprint is only retired with a concern that is reported again. -/
  retired_reported : ∀ q ∈ observedRecords previous pass.generation,
    (∀ p ∈ protectedRecords previous pass.generation, p.fingerprint ≠ q.fingerprint) →
    (∀ i ∈ admittedRecords previous pass, i.fingerprint ≠ q.fingerprint) →
    ¬ Omitted previous pass q → ReportedAgain pass q
  /-- A record out of scope is hidden only by a newer record that is still present. -/
  hidden_present : ∀ q ∈ observedRecords previous pass.generation, q.retired = false →
    ¬ PathInScope pass q →
    (∃ p ∈ protectedRecords previous pass.generation, p.fingerprint = q.fingerprint) →
    (∃ p ∈ protectedRecords previous pass.generation,
      p.fingerprint = q.fingerprint ∧ p.state = .stillPresent) ∨ ReportedAgain pass q

end Inputs

section Identity
variable {p r : FindingLifecycle canonical}

theorem sharesIdentity_iff : sharesIdentity p r = true ↔
    p.fingerprint = r.fingerprint ∨ (p.concern.isSome ∧ p.concern = r.concern) := by
  simp [sharesIdentity]

theorem sharesIdentity_self (p : FindingLifecycle canonical) : sharesIdentity p p = true :=
  sharesIdentity_iff.mpr (.inl rfl)

/-- Whether a record is shared depends only on its identity. -/
theorem sharesIdentity_congr {q : FindingLifecycle canonical}
    (hf : p.fingerprint = q.fingerprint) (hc : p.concern = q.concern) :
    sharesIdentity p r = sharesIdentity q r := by
  simp [sharesIdentity, hf, hc]

end Identity

section Forall
variable {α β : Type} {R : α → β → Prop}

theorem exists_right_of_mem {l : List α} {m : List β} (h : List.Forall₂ R l m) {a : α}
    (ha : a ∈ l) : ∃ b ∈ m, R a b := by
  induction h with
  | nil => cases ha
  | cons hab _ ih =>
    rcases List.mem_cons.mp ha with rfl | ha
    · exact ⟨_, List.mem_cons_self, hab⟩
    · obtain ⟨b, hb, hr⟩ := ih ha
      exact ⟨b, List.mem_cons_of_mem _ hb, hr⟩

theorem exists_left_of_mem {l : List α} {m : List β} (h : List.Forall₂ R l m) {b : β}
    (hb : b ∈ m) : ∃ a ∈ l, R a b :=
  exists_right_of_mem (R := fun b a => R a b) h.flip hb

end Forall

section Scope
variable {pass : Pass canonical} {p : FindingLifecycle canonical}

theorem reviewedPath_ok {path : String} {checked : {p : String // canonical p = true}}
    (h : reviewedPath canonical path = .ok checked) : checked.val = path := by
  unfold reviewedPath at h
  split at h
  · cases h
  · split at h
    · rw [← Except.ok.inj h]
    · cases h

theorem reviewedPaths_ok {paths : List String} {checked : List {p : String // canonical p = true}}
    (h : paths.mapM (reviewedPath canonical) = .ok checked) : checked.map (·.val) = paths := by
  induction paths generalizing checked with
  | nil =>
    obtain rfl : [] = checked := Except.ok.inj h
    rfl
  | cons path rest ih =>
    rw [List.mapM_cons] at h
    obtain ⟨first, hfirst, hrest⟩ := bind_ok h
    obtain ⟨others, hothers, hchecked⟩ := bind_ok hrest
    rw [← Except.ok.inj hchecked, List.map_cons, reviewedPath_ok hfirst, ih hothers]

/-- The checked set decides exactly the declared scope. -/
theorem inScope_iff {reviewed : Option (List {p : String // canonical p = true})}
    (h : reviewedSet canonical pass.reviewedPaths = .ok reviewed) :
    inScope reviewed p = true ↔ PathInScope pass p := by
  unfold reviewedSet at h
  unfold PathInScope
  split at h
  · next hnone =>
    obtain rfl : none = reviewed := Except.ok.inj h
    simp [inScope, hnone]
  · next paths hsome =>
    obtain ⟨checked, hchecked, hreviewed⟩ := bind_ok h
    rw [← Except.ok.inj hreviewed, hsome]
    simp only [inScope, Option.all_some, Option.some.injEq, forall_eq',
      ← reviewedPaths_ok hchecked]
    constructor
    · intro hany
      obtain ⟨path, hpath, hmem⟩ := (Option.any_eq_true _ _).mp hany
      exact ⟨path, hpath, List.mem_map_of_mem (List.contains_iff_mem.mp hmem)⟩
    · rintro ⟨path, hpath, hmem⟩
      obtain ⟨path', hmem', heq⟩ := List.mem_map.mp hmem
      rw [hpath, Option.any_some, ← Subtype.ext heq]
      exact List.contains_iff_mem.mpr hmem'

end Scope

section Carry
variable {pass : Pass canonical} {p : FindingLifecycle canonical}
  {reviewed : Option (List {p : String // canonical p = true})}

@[simp] theorem carry_fingerprint : (carry pass reviewed p).fingerprint = p.fingerprint := by
  unfold carry
  split_ifs <;> rfl

@[simp] theorem carry_concern : (carry pass reviewed p).concern = p.concern := by
  unfold carry
  split_ifs <;> rfl

theorem carry_generation : p.generation ≤ (carry pass reviewed p).generation := by
  have hmax : p.generation ≤ (max (p.generation : Int) pass.generation).toNat := by omega
  unfold carry
  split_ifs
  · exact Nat.le_refl _
  all_goals exact hmax

/-- A carried record is fixed when it was fixed before, or on all the evidence. -/
theorem carry_fixed (h : reviewedSet canonical pass.reviewedPaths = .ok reviewed) :
    (carry pass reviewed p).state = .fixed ↔
      p.state = .fixed ∨ (p.retired = false ∧ FixEvidence pass p) := by
  have hscope := inScope_iff (p := p) h
  unfold carry
  split_ifs with hretired hout hevidence
  · simp [hretired]
  · have hlive : p.state ≠ .fixed := by
      intro hstate
      simp [FindingLifecycle.retired, hstate] at hretired
    have hno : ¬ FixEvidence pass p := by
      intro hfix
      simp [hscope.mpr hfix.in_scope] at hout
    simp [hlive, hno]
  · have hin : PathInScope pass p := hscope.mp (by simpa using hout)
    rw [Bool.and_eq_true] at hevidence
    have hfix : FixEvidence pass p := ⟨hevidence.1, hin, hevidence.2⟩
    simp [hretired, hfix]
  · have hlive : p.state ≠ .fixed := by
      intro hstate
      simp [FindingLifecycle.retired, hstate] at hretired
    have hno : ¬ FixEvidence pass p := by
      intro hfix
      simp [hfix.complete, hfix.confirmed] at hevidence
    simp [hlive, hno]

theorem carry_out_of_scope (h : reviewedSet canonical pass.reviewedPaths = .ok reviewed)
    (hlive : p.retired = false) (hout : ¬ PathInScope pass p) :
    (carry pass reviewed p).state = .stillPresent := by
  have hscope : inScope reviewed p = false := by
    simpa using (inScope_iff (p := p) h).not.mpr hout
  simp [carry, hlive, hscope]

end Carry

section Pass
variable {previous returned : List (FindingLifecycle canonical)} {pass : Pass canonical}

/-- What a pass returns: the newer records, one record for each admitted current record, and every
omitted record as it is carried over. -/
structure Returned (previous : List (FindingLifecycle canonical)) (pass : Pass canonical)
    (reviewed : Option (List {p : String // canonical p = true}))
    (records omitted returned : List (FindingLifecycle canonical)) : Prop where
  reviewed_eq : reviewedSet canonical pass.reviewedPaths = .ok reviewed
  observed : List.Forall₂ (Observed pass (observedRecords previous pass.generation))
    (admittedRecords previous pass) records
  omitted_iff : ∀ p, p ∈ omitted ↔ Omitted previous pass p
  returned_eq : returned = protectedRecords previous pass.generation ++
    (records ++ omitted.map (carry pass reviewed))

theorem reconcileFindingSet_ok (h : reconcileFindingSet previous pass = .ok returned) :
    ∃ reviewed records omitted, Returned previous pass reviewed records omitted returned := by
  unfold reconcileFindingSet at h
  obtain ⟨reviewed, hreviewed, h⟩ := bind_ok h
  obtain ⟨loop, hloop, h⟩ := bind_ok h
  obtain ⟨records, hrecords, hobserved, hcovers⟩ := reconcileLoop_ok hloop
  rw [List.nil_append] at hrecords
  refine ⟨reviewed, records, _, hreviewed, hobserved, fun p => ?_,
    hrecords ▸ (Except.ok.inj h).symm⟩
  have hp := hcovers p.fingerprint
  simp only [Reconciled.covers, List.not_mem_nil, or_self, false_or] at hp
  simp only [List.mem_filter, Omitted, Bool.and_eq_true, Bool.not_eq_true',
    Bool.or_eq_false_iff, List.contains_eq_mem, decide_eq_false_iff_not, List.mem_map,
    not_exists, not_and, ← not_or, hp, admittedRecords]

variable {reviewed : Option (List {p : String // canonical p = true})}
  {records omitted : List (FindingLifecycle canonical)} {r q : FindingLifecycle canonical}

theorem Returned.mem_iff (h : Returned previous pass reviewed records omitted returned) :
    r ∈ returned ↔ r ∈ protectedRecords previous pass.generation ∨ r ∈ records ∨
      ∃ p, Omitted previous pass p ∧ carry pass reviewed p = r := by
  rw [h.returned_eq, List.mem_append, List.mem_append, List.mem_map]
  simp only [h.omitted_iff]

theorem Returned.record_of (h : Returned previous pass reviewed records omitted returned)
    {i : FindingLifecycle canonical} (hi : i ∈ admittedRecords previous pass) :
    ∃ r ∈ records, Observed pass (observedRecords previous pass.generation) i r :=
  exists_right_of_mem h.observed hi

theorem Returned.of_record (h : Returned previous pass reviewed records omitted returned)
    (hr : r ∈ records) : ∃ i ∈ admittedRecords previous pass,
      Observed pass (observedRecords previous pass.generation) i r :=
  exists_left_of_mem h.observed hr

/-- An admitted record has no concern of a newer one. -/
theorem admitted_concern {p i : FindingLifecycle canonical}
    (hp : p ∈ protectedRecords previous pass.generation) (hi : i ∈ admittedRecords previous pass)
    (hsome : p.concern.isSome) : p.concern ≠ i.concern := by
  intro heq
  obtain ⟨concern, hconcern⟩ := Option.isSome_iff_exists.mp hsome
  have hadmitted := (List.mem_filter.mp hi).2
  have hbarred : concern ∈ (protectedRecords previous pass.generation).filterMap (·.concern) :=
    List.mem_filterMap.mpr ⟨p, hp, hconcern⟩
  have hopen : superseded ((protectedRecords previous pass.generation).filterMap (·.concern)) i =
      true := by
    simpa [superseded, ← heq, hconcern] using hbarred
  rw [hopen] at hadmitted
  cases hadmitted

theorem concern_owner (previous : List (FindingLifecycle canonical))
    {p : FindingLifecycle canonical} (hr : ReportedAgain pass p) :
    (∃ i ∈ admittedRecords previous pass, i.concern = p.concern) ∨
      ∃ q ∈ protectedRecords previous pass.generation, q.concern = p.concern := by
  obtain ⟨hsome, i, hi, hconcern⟩ := hr
  obtain ⟨concern, hp⟩ := Option.isSome_iff_exists.mp hsome
  by_cases hbarred : superseded
      ((protectedRecords previous pass.generation).filterMap (·.concern)) i = true
  · right
    simp only [superseded, hconcern, hp, Option.any_some, List.contains_iff_mem] at hbarred
    obtain ⟨q, hq, hqc⟩ := List.mem_filterMap.mp hbarred
    exact ⟨q, hq, hqc.trans hp.symm⟩
  · left
    exact ⟨i, List.mem_filter.mpr ⟨hi, by simpa using hbarred⟩, hconcern⟩

/-- A current record takes over a concern, at the generation of the pass or a newer one. -/
theorem Returned.reported_again (h : Returned previous pass reviewed records omitted returned)
    {p : FindingLifecycle canonical} (hp : p ∈ observedRecords previous pass.generation)
    (hr : ReportedAgain pass p) :
    ∃ r ∈ returned, p.generation ≤ r.generation ∧ r.concern = p.concern := by
  have hle := (mem_observedRecords.mp hp).2
  rcases concern_owner previous hr with
    ⟨i, hi, hconcern⟩ | ⟨q, hq, hconcern⟩
  · obtain ⟨r, hr, hobserved⟩ := h.record_of hi
    have hgeneration := hobserved.generation_le
    exact ⟨r, h.mem_iff.mpr (.inr (.inl hr)), by omega, hobserved.concern_eq.trans hconcern⟩
  · have hgeneration := (mem_protectedRecords.mp hq).2
    exact ⟨q, h.mem_iff.mpr (.inl hq), by omega, hconcern⟩

/-- A returned record with the fingerprint of an older one is newer, current or that one. -/
theorem Returned.fingerprint_cases
    (h : Returned previous pass reviewed records omitted returned) (hr : r ∈ returned)
    (heq : r.fingerprint = q.fingerprint)
    (hq : q ∈ observedRecords previous pass.generation) :
    r ∈ protectedRecords previous pass.generation ∨
      (∃ i ∈ admittedRecords previous pass, i.fingerprint = q.fingerprint) ∨
      Omitted previous pass q := by
  rcases h.mem_iff.mp hr with hnewer | hrecord | ⟨p, hp, rfl⟩
  · exact .inl hnewer
  · obtain ⟨i, hi, hobserved⟩ := h.of_record hrecord
    exact .inr (.inl ⟨i, hi, hobserved.fingerprint_eq.symm.trans heq⟩)
  · have hfp : p.fingerprint = q.fingerprint := carry_fingerprint.symm.trans heq
    exact .inr (.inr ⟨hq, hfp ▸ hp.2.1, hfp ▸ hp.2.2⟩)

theorem Returned.represented_iff
    (h : Returned previous pass reviewed records omitted returned) :
    (∀ p ∈ previous, ∃ r ∈ returned, Represents pass p r) ↔
      ∀ q ∈ observedRecords previous pass.generation,
        (∀ p ∈ protectedRecords previous pass.generation, p.fingerprint ≠ q.fingerprint) →
        (∀ i ∈ admittedRecords previous pass, i.fingerprint ≠ q.fingerprint) →
        ¬ Omitted previous pass q → ReportedAgain pass q := by
  constructor
  · intro hall q hq hnewer hcurrent homitted
    obtain ⟨r, hr, _, hfp | ⟨hagain, _⟩⟩ := hall q (mem_observedRecords.mp hq).1
    · rcases h.fingerprint_cases hr hfp hq with hr' | ⟨i, hi, hfp'⟩ | homitted'
      · exact absurd hfp (hnewer r hr')
      · exact absurd hfp' (hcurrent i hi)
      · exact absurd homitted' homitted
    · exact hagain
  · intro hagain p hp
    by_cases hold : p ∈ observedRecords previous pass.generation
    · have hle := (mem_observedRecords.mp hold).2
      by_cases hnewer : ∃ q ∈ protectedRecords previous pass.generation,
          q.fingerprint = p.fingerprint
      · obtain ⟨q, hq, hfp⟩ := hnewer
        have hlt := (mem_protectedRecords.mp hq).2
        exact ⟨q, h.mem_iff.mpr (.inl hq), by omega, .inl hfp⟩
      by_cases hcurrent : ∃ i ∈ admittedRecords previous pass, i.fingerprint = p.fingerprint
      · obtain ⟨i, hi, hfp⟩ := hcurrent
        obtain ⟨r, hr, hobserved⟩ := h.record_of hi
        have hgeneration := hobserved.generation_le
        exact ⟨r, h.mem_iff.mpr (.inr (.inl hr)), by omega,
          .inl (hobserved.fingerprint_eq.trans hfp)⟩
      by_cases homitted : Omitted previous pass p
      · exact ⟨carry pass reviewed p, h.mem_iff.mpr (.inr (.inr ⟨p, homitted, rfl⟩)),
          carry_generation, .inl carry_fingerprint⟩
      · have hreported := hagain p hold (by simpa using hnewer) (by simpa using hcurrent) homitted
        obtain ⟨r, hr, hgeneration, hconcern⟩ := h.reported_again hold hreported
        exact ⟨r, hr, hgeneration, .inr ⟨hreported, hconcern⟩⟩
    · -- a newer record stands for itself
      have hnewer : p ∈ protectedRecords previous pass.generation := by
        rw [mem_observedRecords] at hold
        exact mem_protectedRecords.mpr ⟨hp, by simpa [hp] using hold⟩
      exact ⟨p, h.mem_iff.mpr (.inl hnewer), Nat.le_refl _, .inl rfl⟩

theorem Returned.fixed_iff (h : Returned previous pass reviewed records omitted returned) :
    (∀ r ∈ returned, r.state = .fixed →
      (∃ q ∈ previous, q.fingerprint = r.fingerprint ∧ q.state = .fixed) ∨
        ∃ p ∈ previous, p.retired = false ∧ p.fingerprint = r.fingerprint ∧
          p.concern = r.concern ∧ FixEvidence pass p ∧
          ∀ i ∈ pass.current, sharesIdentity p i = false) ↔
      ∀ q, Omitted previous pass q → q.retired = false → FixEvidence pass q →
        (∃ p ∈ previous, p.fingerprint = q.fingerprint ∧ p.state = .fixed) ∨
          ∀ i ∈ pass.current, sharesIdentity q i = false := by
  constructor
  · intro hall q homitted hlive hfix
    have hmem : carry pass reviewed q ∈ returned :=
      h.mem_iff.mpr (.inr (.inr ⟨q, homitted, rfl⟩))
    have hstate := (carry_fixed h.reviewed_eq).mpr (.inr ⟨hlive, hfix⟩)
    rcases hall _ hmem hstate with hbefore | ⟨p, _, _, hfp, hconcern, _, hnone⟩
    · exact .inl (by simpa using hbefore)
    · right
      intro i hi
      rw [← sharesIdentity_congr (hfp.trans carry_fingerprint) (hconcern.trans carry_concern)]
      exact hnone i hi
  · intro hall r hr hstate
    rcases h.mem_iff.mp hr with hnewer | hrecord | ⟨q, homitted, rfl⟩
    · exact .inl ⟨r, (mem_protectedRecords.mp hnewer).1, rfl, hstate⟩
    · obtain ⟨i, _, hobserved⟩ := h.of_record hrecord
      rcases hobserved.reported with hnew | hstill
      · rw [hnew] at hstate
        cases hstate
      · rw [hstill] at hstate
        cases hstate
    · have hq := (mem_observedRecords.mp homitted.1).1
      rcases (carry_fixed h.reviewed_eq).mp hstate with hbefore | ⟨hlive, hfix⟩
      · exact .inl ⟨q, hq, carry_fingerprint.symm, hbefore⟩
      · rcases hall q homitted hlive hfix with ⟨p, hp, hfp, hfixed⟩ | hnone
        · exact .inl ⟨p, hp, hfp.trans carry_fingerprint.symm, hfixed⟩
        · exact .inr ⟨q, hq, hlive, carry_fingerprint.symm, carry_concern.symm, hfix, hnone⟩

theorem Returned.newer_iff (h : Returned previous pass reviewed records omitted returned) :
    (∀ p ∈ protectedRecords previous pass.generation,
      p ∈ returned ∧ returned.countP (sharesIdentity p) = 1) ↔
      ∀ p ∈ protectedRecords previous pass.generation,
        (protectedRecords previous pass.generation).countP (sharesIdentity p) = 1 ∧
        (∀ i ∈ admittedRecords previous pass, i.fingerprint ≠ p.fingerprint) ∧
        (p.concern.isSome → ∀ q, Omitted previous pass q → q.concern ≠ p.concern) := by
  refine forall_congr' fun p => forall_congr' fun hp => ?_
  have hmem : p ∈ returned := h.mem_iff.mpr (.inl hp)
  have hself : 0 < (protectedRecords previous pass.generation).countP (sharesIdentity p) :=
    List.countP_pos_iff.mpr ⟨p, hp, sharesIdentity_self p⟩
  have hrecords : records.countP (sharesIdentity p) = 0 ↔
      ∀ i ∈ admittedRecords previous pass, i.fingerprint ≠ p.fingerprint := by
    rw [List.countP_eq_zero]
    constructor
    · intro hnone i hi heq
      obtain ⟨r, hr, hobserved⟩ := h.record_of hi
      exact hnone r hr (sharesIdentity_iff.mpr (.inl (hobserved.fingerprint_eq.trans heq).symm))
    · intro hfresh r hr hshares
      obtain ⟨i, hi, hobserved⟩ := h.of_record hr
      rcases sharesIdentity_iff.mp hshares with hfp | ⟨hsome, hconcern⟩
      · exact hfresh i hi (hfp.trans hobserved.fingerprint_eq).symm
      · exact admitted_concern hp hi hsome (hconcern.trans hobserved.concern_eq)
  have homitted : (omitted.map (carry pass reviewed)).countP (sharesIdentity p) = 0 ↔
      (p.concern.isSome → ∀ q, Omitted previous pass q → q.concern ≠ p.concern) := by
    simp only [List.countP_eq_zero, List.mem_map, forall_exists_index, and_imp,
      forall_apply_eq_imp_iff₂, h.omitted_iff, sharesIdentity_iff, carry_fingerprint,
      carry_concern, not_or, not_and]
    constructor
    · intro hnone hsome q hq heq
      exact (hnone q hq).2 hsome heq.symm
    · intro hnone q hq
      exact ⟨hq.2.1 p hp, fun hsome heq => hnone hsome q hq heq.symm⟩
  rw [h.returned_eq, List.countP_append, List.countP_append, ← hrecords, ← homitted]
  rw [h.returned_eq] at hmem
  simp only [hmem, true_and]
  omega

theorem Returned.out_of_scope_iff
    (h : Returned previous pass reviewed records omitted returned)
    (hnewer : ∀ p ∈ protectedRecords previous pass.generation,
      ∀ i ∈ admittedRecords previous pass, i.fingerprint ≠ p.fingerprint)
    (hreported : ∀ q ∈ observedRecords previous pass.generation,
      (∀ p ∈ protectedRecords previous pass.generation, p.fingerprint ≠ q.fingerprint) →
      (∀ i ∈ admittedRecords previous pass, i.fingerprint ≠ q.fingerprint) →
      ¬ Omitted previous pass q → ReportedAgain pass q) :
    (∀ p ∈ observedRecords previous pass.generation, p.retired = false → ¬ PathInScope pass p →
      (∃ r ∈ returned, r.fingerprint = p.fingerprint ∧ r.state = .stillPresent) ∨
        ReportedAgain pass p) ↔
      ∀ q ∈ observedRecords previous pass.generation, q.retired = false →
        ¬ PathInScope pass q →
        (∃ p ∈ protectedRecords previous pass.generation, p.fingerprint = q.fingerprint) →
        (∃ p ∈ protectedRecords previous pass.generation,
          p.fingerprint = q.fingerprint ∧ p.state = .stillPresent) ∨ ReportedAgain pass q := by
  constructor
  · rintro hall q hq hlive hout ⟨p, hp, hfp⟩
    rcases hall q hq hlive hout with ⟨r, hr, hrfp, hstate⟩ | hagain
    · rcases h.fingerprint_cases hr hrfp hq with hr' | ⟨i, hi, hfp'⟩ | homitted
      · exact .inl ⟨r, hr', hrfp, hstate⟩
      · exact absurd (hfp'.trans hfp.symm) (hnewer p hp i hi)
      · exact absurd hfp (homitted.2.1 p hp)
    · exact .inr hagain
  · intro hall p hp hlive hout
    by_cases hhidden : ∃ q ∈ protectedRecords previous pass.generation,
        q.fingerprint = p.fingerprint
    · rcases hall p hp hlive hout hhidden with ⟨q, hq, hfp, hstate⟩ | hagain
      · exact .inl ⟨q, h.mem_iff.mpr (.inl hq), hfp, hstate⟩
      · exact .inr hagain
    by_cases hcurrent : ∃ i ∈ admittedRecords previous pass, i.fingerprint = p.fingerprint
    · obtain ⟨i, hi, hfp⟩ := hcurrent
      obtain ⟨r, hr, hobserved⟩ := h.record_of hi
      exact .inl ⟨r, h.mem_iff.mpr (.inr (.inl hr)), hobserved.fingerprint_eq.trans hfp,
        hobserved.still_present ⟨p, hp, hfp.symm⟩⟩
    by_cases homitted : Omitted previous pass p
    · exact .inl ⟨carry pass reviewed p, h.mem_iff.mpr (.inr (.inr ⟨p, homitted, rfl⟩)),
        carry_fingerprint, carry_out_of_scope h.reviewed_eq hlive hout⟩
    · exact .inr (hreported p hp (by simpa using hhidden) (by simpa using hcurrent) homitted)

/-- A pass loses nothing and fixes nothing by omission exactly when its records do not collide. -/
theorem omission_iff (h : reconcileFindingSet previous pass = .ok returned) :
    OmissionIsNoFix previous pass returned ↔ NoCollision previous pass := by
  obtain ⟨reviewed, records, omitted, hreturned⟩ := reconcileFindingSet_ok h
  constructor
  · intro hgood
    have hnewer := hreturned.newer_iff.mp hgood.newer
    have hreported := hreturned.represented_iff.mp hgood.represented
    exact
      { newer_alone := fun p hp => (hnewer p hp).1
        newer_unreported := fun p hp => (hnewer p hp).2.1
        newer_concern := fun p hp => (hnewer p hp).2.2
        unreported := hreturned.fixed_iff.mp hgood.fixed
        retired_reported := hreported
        hidden_present := (hreturned.out_of_scope_iff (fun p hp => (hnewer p hp).2.1)
          hreported).mp hgood.out_of_scope }
  · intro hfree
    exact
      { represented := hreturned.represented_iff.mpr hfree.retired_reported
        fixed := hreturned.fixed_iff.mpr hfree.unreported
        out_of_scope := (hreturned.out_of_scope_iff hfree.newer_unreported
          hfree.retired_reported).mpr hfree.hidden_present
        newer := hreturned.newer_iff.mpr fun p hp =>
          ⟨hfree.newer_alone p hp, hfree.newer_unreported p hp, hfree.newer_concern p hp⟩ }

end Pass

section Returns
variable {previous : List (FindingLifecycle canonical)} {pass : Pass canonical}

theorem construct_returns {fingerprint : Digest} {state : LifecycleState}
    {evidence : Option String} {concern : Option Digest}
    {path : Option {p : String // canonical p = true}} {generation : Int} (h : 0 ≤ generation) :
    ∃ f : FindingLifecycle canonical,
      FindingLifecycle.construct fingerprint state evidence concern path generation = .ok f :=
  ⟨_, if_neg (Int.not_lt.mpr h)⟩

theorem observe_returns (h : 0 ≤ pass.generation) (prior : Option (FindingLifecycle canonical))
    (item : FindingLifecycle canonical) : ∃ record, observe pass prior item = .ok record := by
  unfold observe
  cases prior with
  | none => exact construct_returns h
  | some p => exact construct_returns (by dsimp only; omega)

theorem reconcileCurrent_returns (previous : List (FindingLifecycle canonical))
    (h : 0 ≤ pass.generation) (barred : List Digest)
    (s : Reconciled canonical) (item : FindingLifecycle canonical) :
    ∃ s', reconcileCurrent pass previous barred s item = .ok s' := by
  unfold reconcileCurrent
  split
  · exact ⟨_, rfl⟩
  · split
    · next prior _ =>
      obtain ⟨record, hrecord⟩ := observe_returns h prior item
      exact ⟨_, by rw [hrecord]; rfl⟩
    · next moved _ =>
      split
      · obtain ⟨record, hrecord⟩ := observe_returns h none item
        exact ⟨_, by rw [hrecord]; rfl⟩
      · have hmax : 0 ≤ max (moved.generation : Int) pass.generation := by omega
        have hrecord : ∃ record, FindingLifecycle.construct item.fingerprint .stillPresent
            (item.evidence.or moved.evidence) item.concern item.path
            (max moved.generation pass.generation) = .ok record := construct_returns hmax
        obtain ⟨record, hrecord⟩ := hrecord
        exact ⟨_, by rw [hrecord]; rfl⟩

theorem reconcileLoop_returns (previous : List (FindingLifecycle canonical))
    (h : 0 ≤ pass.generation) (barred : List Digest)
    (items : List (FindingLifecycle canonical)) (s : Reconciled canonical) :
    ∃ s', items.foldlM (reconcileCurrent pass previous barred) s = .ok s' := by
  induction items generalizing s with
  | nil => exact ⟨s, rfl⟩
  | cons item rest ih =>
    obtain ⟨middle, hstep⟩ := reconcileCurrent_returns previous h barred s item
    obtain ⟨s', hrest⟩ := ih middle
    exact ⟨s', by rw [List.foldlM_cons, hstep]; exact hrest⟩

/-- The reviewed paths are ones the path check accepts. -/
def CanonicalScope (pass : Pass canonical) : Prop :=
  ∀ paths, pass.reviewedPaths = some paths → ∀ path ∈ paths, path ≠ "" ∧ canonical path = true

theorem reviewedPaths_returns {paths : List String}
    (h : ∀ path ∈ paths, path ≠ "" ∧ canonical path = true) :
    ∃ checked, paths.mapM (reviewedPath canonical) = .ok checked := by
  induction paths with
  | nil => exact ⟨[], rfl⟩
  | cons path rest ih =>
    obtain ⟨hne, hcanonical⟩ := h path List.mem_cons_self
    obtain ⟨checked, hchecked⟩ := ih fun p hp => h p (List.mem_cons_of_mem _ hp)
    have hfirst : reviewedPath canonical path = .ok ⟨path, hcanonical⟩ := by
      simp [reviewedPath, hne, hcanonical]
    exact ⟨⟨path, hcanonical⟩ :: checked, by rw [List.mapM_cons, hfirst, hchecked]; rfl⟩

/-- A pass over a canonical scope returns. -/
theorem reconcile_returns (hgeneration : 0 ≤ pass.generation) (hscope : CanonicalScope pass) :
    ∃ returned, reconcileFindingSet previous pass = .ok returned := by
  have hreviewed : ∃ reviewed, reviewedSet canonical pass.reviewedPaths = .ok reviewed := by
    unfold reviewedSet
    split
    · exact ⟨none, rfl⟩
    · next paths hpaths =>
      obtain ⟨checked, hchecked⟩ := reviewedPaths_returns (hscope paths hpaths)
      exact ⟨some checked, by rw [hchecked]; rfl⟩
  obtain ⟨reviewed, hreviewed⟩ := hreviewed
  obtain ⟨loop, hloop⟩ := reconcileLoop_returns
    (observedRecords previous pass.generation) hgeneration
    ((protectedRecords previous pass.generation).filterMap (·.concern)) pass.current ⟨[], [], []⟩
  unfold reconcileFindingSet
  rw [hreviewed]
  exact ⟨_, by dsimp only [bind, Except.bind]; rw [hloop]⟩

end Returns

section Passes

/-- `r` stands for `p` after some of the passes. -/
def Traced (passes : List (Pass canonical)) (p r : FindingLifecycle canonical) : Prop :=
  p.generation ≤ r.generation ∧
    Relation.ReflTransGen (fun a b => ∃ pass ∈ passes, Represents pass a b) p r

theorem Traced.trans {passes : List (Pass canonical)} {p q r : FindingLifecycle canonical}
    (hpq : Traced passes p q) (hqr : Traced passes q r) : Traced passes p r :=
  ⟨Nat.le_trans hpq.1 hqr.1, hpq.2.trans hqr.2⟩

theorem Traced.mono {passes passes' : List (Pass canonical)} {p r : FindingLifecycle canonical}
    (h : Traced passes p r) (hsub : ∀ pass ∈ passes, pass ∈ passes') : Traced passes' p r := by
  refine ⟨h.1, Relation.ReflTransGen.mono ?_ _ _ h.2⟩
  intro a b hab
  obtain ⟨pass, hpass, hrepresents⟩ := hab
  exact ⟨pass, hsub pass hpass, hrepresents⟩

/-- `pass` is one of the passes, over what those before it returned. -/
def PassAt (start : List (FindingLifecycle canonical)) (passes : List (Pass canonical))
    (previous : List (FindingLifecycle canonical)) (pass : Pass canonical) : Prop :=
  ∃ earlier later, passes = earlier ++ pass :: later ∧
    reconcilePasses start earlier = .ok previous

theorem passes_trace {start final : List (FindingLifecycle canonical)}
    {passes : List (Pass canonical)} (h : reconcilePasses start passes = .ok final)
    (hfree : ∀ previous pass, PassAt start passes previous pass → NoCollision previous pass) :
    ∀ p ∈ start, ∃ r ∈ final, Traced passes p r := by
  induction passes generalizing start with
  | nil =>
    obtain rfl : start = final := Except.ok.inj h
    exact fun p hp => ⟨p, hp, Nat.le_refl _, .refl⟩
  | cons pass rest ih =>
    unfold reconcilePasses at h
    rw [List.foldlM_cons] at h
    obtain ⟨middle, hpass, hrest⟩ := bind_ok h
    have hfirst := (omission_iff hpass).mpr (hfree start pass ⟨[], rest, rfl, rfl⟩)
    have hlater : ∀ previous pass', PassAt middle rest previous pass' →
        NoCollision previous pass' := by
      rintro previous pass' ⟨earlier, later, rfl, hearlier⟩
      refine hfree previous pass' ⟨pass :: earlier, later, rfl, ?_⟩
      unfold reconcilePasses
      rw [List.foldlM_cons, hpass]
      exact hearlier
    intro p hp
    obtain ⟨q, hq, hrepresents⟩ := hfirst.represented p hp
    obtain ⟨r, hr, htrace⟩ := ih hrest hlater q hq
    have hstep : Traced (pass :: rest) p q :=
      ⟨hrepresents.1, .single ⟨pass, List.mem_cons_self, hrepresents⟩⟩
    exact ⟨r, hr, hstep.trans (htrace.mono fun _ h => List.mem_cons_of_mem _ h)⟩

end Passes

section Sample

/-- A digest made of one repeated digit. -/
def sampleDigest (c : Char) (h : isSha256 (repeated 64 c) = true) : Digest := ⟨repeated 64 c, h⟩

def sampleConcern : Digest := sampleDigest 'c' (by decide)

/-- A live record of the sample concern. -/
def sampleRecord (fingerprint : Digest) (state : LifecycleState) :
    FindingLifecycle (fun _ => true) where
  fingerprint
  state
  evidence := none
  concern := some sampleConcern
  path := none
  generation := 0

def firstRecord := sampleRecord (sampleDigest 'a' (by decide)) .stillPresent
def secondRecord := sampleRecord (sampleDigest 'b' (by decide)) .stillPresent
theorem moved_digest : isSha256 (repeated 64 'd') = true := by decide

def movedRecord := sampleRecord (sampleDigest 'd' moved_digest) .new

/-- The concern is reported once more, under a third fingerprint, with evidence that it is gone. -/
def samplePass (current : List (FindingLifecycle (fun _ => true))) : Pass (fun _ => true) where
  current
  reviewComplete := true
  reviewedPaths := none
  evidenceConfirmedConcerns := [sampleConcern.val]
  generation := 0

theorem sample_noCollision : NoCollision [firstRecord] (samplePass [firstRecord]) := by
  have hnewer : protectedRecords [firstRecord] (samplePass [firstRecord]).generation = [] := rfl
  have holder : observedRecords [firstRecord] (samplePass [firstRecord]).generation =
      [firstRecord] := rfl
  have hadmitted : firstRecord ∈ admittedRecords [firstRecord] (samplePass [firstRecord]) := by
    refine List.mem_filter.mpr ⟨List.mem_cons_self, ?_⟩
    simp [hnewer, superseded]
  constructor
  · simp [hnewer]
  · simp [hnewer]
  · simp [hnewer]
  · intro q homitted
    have hq := homitted.1
    rw [holder, List.mem_singleton] at hq
    exact absurd (.inl (by rw [hq])) (homitted.2.2 firstRecord hadmitted)
  · intro q hq _ hcurrent
    rw [holder, List.mem_singleton] at hq
    exact absurd (by rw [hq]) (hcurrent firstRecord hadmitted)
  · simp [hnewer]

end Sample
end ReviewSensei.Findings
