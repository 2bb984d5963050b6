import ReviewSensei.SessionSteps

/-! Finding lifecycles: what one pass reports, reconciled with what earlier passes recorded. -/
namespace ReviewSensei.Findings
open Session (isSha256 bind_ok)

abbrev Digest := {s : String // isSha256 s = true}

inductive LifecycleState
  | new | stillPresent | fixed | outdated | uncertain
  deriving DecidableEq, Repr

/-- A lifecycle record over the repository paths that `canonical` accepts. -/
structure FindingLifecycle (canonical : String → Bool) where
  fingerprint : Digest
  state : LifecycleState
  evidence : Option String
  concern : Option Digest
  path : Option {p : String // canonical p = true}
  generation : Nat
  deriving DecidableEq

variable {canonical : String → Bool}

namespace FindingLifecycle

/-- The constructor: only the generation is not checked by its type. -/
def construct (fingerprint : Digest) (state : LifecycleState) (evidence : Option String)
    (concern : Option Digest) (path : Option {p : String // canonical p = true})
    (generation : Int) : Except String (FindingLifecycle canonical) :=
  if generation < 0 then .error "finding lifecycle generation is invalid"
  else .ok ⟨fingerprint, state, evidence, concern, path, generation.toNat⟩

theorem construct_ok {fingerprint : Digest} {state : LifecycleState} {evidence : Option String}
    {concern : Option Digest} {path : Option {p : String // canonical p = true}}
    {generation : Int} {f : FindingLifecycle canonical}
    (h : construct fingerprint state evidence concern path generation = .ok f) :
    0 ≤ generation ∧
      f = ⟨fingerprint, state, evidence, concern, path, generation.toNat⟩ := by
  unfold construct at h
  split at h
  · cases h
  · next hneg => exact ⟨Int.not_lt.mp hneg, (Except.ok.inj h).symm⟩

def retired (f : FindingLifecycle canonical) : Bool :=
  f.state = .fixed || f.state = .outdated

end FindingLifecycle

/-- `reconcile_finding_lifecycle`. -/
def reconcileFindingLifecycle (previous : Option (FindingLifecycle canonical))
    (currentFingerprint : Digest) (currentConcern previousConcern : Option Digest)
    (evidenceConfirmed reviewComplete : Bool) : FindingLifecycle canonical :=
  match previous with
  | none => ⟨currentFingerprint, .new, none, currentConcern, none, 0⟩
  | some p =>
    if p.fingerprint = currentFingerprint then
      { p with
        fingerprint := currentFingerprint
        state := .stillPresent
        concern := p.concern.or currentConcern }
    else if p.retired then p
    else if !reviewComplete then { p with state := .uncertain }
    else if evidenceConfirmed && previousConcern.isSome && currentConcern.isSome &&
        previousConcern = currentConcern then
      { p with state := .fixed }
    else { p with state := .outdated }

/-- The arguments of one pass beside the records of the earlier passes. -/
structure Pass (canonical : String → Bool) where
  current : List (FindingLifecycle canonical)
  reviewComplete : Bool
  reviewedPaths : Option (List String)
  evidenceConfirmedConcerns : List String
  generation : Int

/-- Records that a pass of this generation did not observe, and may not replace. -/
def protectedRecords (previous : List (FindingLifecycle canonical)) (generation : Int) :
    List (FindingLifecycle canonical) :=
  previous.filter (fun f => generation < f.generation)

def observedRecords (previous : List (FindingLifecycle canonical)) (generation : Int) :
    List (FindingLifecycle canonical) :=
  previous.filter (fun f => (f.generation : Int) ≤ generation)

def confirmed (pass : Pass canonical) (concern : Digest) : Bool :=
  (pass.evidenceConfirmedConcerns.filter isSha256).contains concern.val

def reviewedPath (canonical : String → Bool) (path : String) :
    Except String {p : String // canonical p = true} :=
  if path = "" then .error "reconciled reviewed path must be a string"
  else if h : canonical path = true then .ok ⟨path, h⟩
  else .error "reconciled reviewed path is invalid"

def reviewedSet (canonical : String → Bool) :
    Option (List String) → Except String (Option (List {p : String // canonical p = true}))
  | none => .ok none
  | some paths => do
    let reviewed ← paths.mapM (reviewedPath canonical)
    .ok (some reviewed)

/-- `previous_by_fingerprint`: the last record of a fingerprint stays in the table. -/
def byFingerprint (previous : List (FindingLifecycle canonical)) (fingerprint : Digest) :
    Option (FindingLifecycle canonical) :=
  previous.reverse.find? (fun f => f.fingerprint = fingerprint)

/-- `previous_by_concern`: the first record of a concern stays in the table. -/
def byConcern (previous : List (FindingLifecycle canonical)) (concern : Digest) :
    Option (FindingLifecycle canonical) :=
  previous.find? (fun f => f.concern = some concern)

/-- `prior` and `moved` of one current record. -/
def lookup (previous : List (FindingLifecycle canonical)) (item : FindingLifecycle canonical) :
    Option (FindingLifecycle canonical) × Option (FindingLifecycle canonical) :=
  match byFingerprint previous item.fingerprint with
  | some prior => (some prior, none)
  | none =>
    match item.concern.bind (byConcern previous) with
    | some candidate =>
      if candidate.fingerprint ≠ item.fingerprint then (none, some candidate)
      else (some candidate, none)
    | none => (none, none)

/-- The variables of the loop over the current records. -/
structure Reconciled (canonical : String → Bool) where
  reconciled : List (FindingLifecycle canonical)
  matched : List Digest
  seenFingerprints : List Digest

/-- The record of a current finding that no live record moved to. -/
def observe (pass : Pass canonical) (prior : Option (FindingLifecycle canonical))
    (item : FindingLifecycle canonical) : Except String (FindingLifecycle canonical) :=
  let result := reconcileFindingLifecycle prior item.fingerprint item.concern
    (prior.bind (·.concern)) (item.concern.any (confirmed pass)) pass.reviewComplete
  FindingLifecycle.construct result.fingerprint result.state (result.evidence.or item.evidence)
    item.concern item.path
    (match prior with
      | none => pass.generation
      | some p => max p.generation pass.generation)

/-- The concern already has a newer record. -/
def superseded (protectedConcerns : List Digest) (item : FindingLifecycle canonical) : Bool :=
  item.concern.any (fun c => protectedConcerns.contains c)

/-- The body of the loop over the current records. -/
def reconcileCurrent (pass : Pass canonical) (previous : List (FindingLifecycle canonical))
    (protectedConcerns : List Digest) (s : Reconciled canonical)
    (item : FindingLifecycle canonical) : Except String (Reconciled canonical) :=
  if superseded protectedConcerns item then .ok s
  else
    match lookup previous item with
    | (prior, none) => do
      let record ← observe pass prior item
      .ok { reconciled := s.reconciled ++ [record]
            matched := s.matched ++ (prior.map (·.fingerprint)).toList
            seenFingerprints := s.seenFingerprints ++ [record.fingerprint] }
    | (_, some moved) =>
      if moved.retired then do
        -- a retired concern under a new fingerprint is a new finding
        let record ← observe pass none item
        .ok { reconciled := s.reconciled ++ [record]
              matched := s.matched ++ [moved.fingerprint]
              seenFingerprints := s.seenFingerprints ++ [record.fingerprint] }
      else do
        let record ← FindingLifecycle.construct item.fingerprint .stillPresent
          (item.evidence.or moved.evidence) item.concern item.path
          (max moved.generation pass.generation)
        .ok { reconciled := s.reconciled ++ [record]
              matched := s.matched ++ [moved.fingerprint]
              seenFingerprints := s.seenFingerprints ++ [record.fingerprint] }

def inScope (reviewed : Option (List {p : String // canonical p = true}))
    (f : FindingLifecycle canonical) : Bool :=
  reviewed.all (fun paths => f.path.any (fun p => paths.contains p))

/-- What a record that no current record matched becomes. -/
def carry (pass : Pass canonical) (reviewed : Option (List {p : String // canonical p = true}))
    (prior : FindingLifecycle canonical) : FindingLifecycle canonical :=
  if prior.retired then prior
  else
    let generation := (max (prior.generation : Int) pass.generation).toNat
    if !inScope reviewed prior then { prior with state := .stillPresent, generation }
    else if pass.reviewComplete && prior.concern.any (confirmed pass) then
      { prior with state := .fixed, generation }
    else { prior with state := .uncertain, generation }

/-- `reconcile_finding_set`. -/
def reconcileFindingSet (previous : List (FindingLifecycle canonical)) (pass : Pass canonical) :
    Except String (List (FindingLifecycle canonical)) := do
  let newer := protectedRecords previous pass.generation
  let older := observedRecords previous pass.generation
  let reviewed ← reviewedSet canonical pass.reviewedPaths
  let loop ← pass.current.foldlM
    (reconcileCurrent pass older (newer.filterMap (·.concern))) ⟨[], [], []⟩
  let carried := older.filter (fun prior =>
    !(newer.map (·.fingerprint)).contains prior.fingerprint &&
      !(loop.matched.contains prior.fingerprint ||
        loop.seenFingerprints.contains prior.fingerprint))
  .ok (newer ++ (loop.reconciled ++ carried.map (carry pass reviewed)))

/-- Pass after pass, each over what the one before returned. -/
def reconcilePasses (start : List (FindingLifecycle canonical)) (passes : List (Pass canonical)) :
    Except String (List (FindingLifecycle canonical)) :=
  passes.foldlM reconcileFindingSet start

section Tables
variable {previous : List (FindingLifecycle canonical)} {f item moved : FindingLifecycle canonical}

theorem mem_protectedRecords {generation : Int} :
    f ∈ protectedRecords previous generation ↔ f ∈ previous ∧ generation < f.generation := by
  simp [protectedRecords]

theorem mem_observedRecords {generation : Int} :
    f ∈ observedRecords previous generation ↔
      f ∈ previous ∧ (f.generation : Int) ≤ generation := by
  simp [observedRecords]

theorem byFingerprint_some {fingerprint : Digest} (h : byFingerprint previous fingerprint = some f) :
    f ∈ previous ∧ f.fingerprint = fingerprint := by
  have hmem := List.mem_of_find?_eq_some h
  have hkey := List.find?_some h
  exact ⟨List.mem_reverse.mp hmem, of_decide_eq_true hkey⟩

theorem byFingerprint_none {fingerprint : Digest} (h : byFingerprint previous fingerprint = none) :
    ∀ p ∈ previous, p.fingerprint ≠ fingerprint := by
  intro p hp heq
  have hall := List.find?_eq_none.mp h p (List.mem_reverse.mpr hp)
  exact hall (decide_eq_true heq)

theorem byConcern_some {concern : Digest} (h : byConcern previous concern = some f) :
    f ∈ previous ∧ f.concern = some concern := by
  have hkey := List.find?_some h
  exact ⟨List.mem_of_find?_eq_some h, of_decide_eq_true hkey⟩

/-- The record of an earlier pass that an item is reported for under another fingerprint. -/
def movedFrom (previous : List (FindingLifecycle canonical)) (item : FindingLifecycle canonical) :
    Option (FindingLifecycle canonical) :=
  if previous.any (fun p => p.fingerprint = item.fingerprint) then none
  else item.concern.bind (byConcern previous)

theorem movedFrom_some (h : movedFrom previous item = some moved) :
    moved ∈ previous ∧ moved.concern = item.concern ∧ moved.concern.isSome ∧
      ∀ p ∈ previous, p.fingerprint ≠ item.fingerprint := by
  unfold movedFrom at h
  split at h
  · cases h
  · next hfresh =>
    obtain ⟨concern, hconcern, hfind⟩ := Option.bind_eq_some_iff.mp h
    obtain ⟨hmem, hkey⟩ := byConcern_some hfind
    refine ⟨hmem, hkey.trans hconcern.symm, by rw [hkey]; rfl, ?_⟩
    intro p hp heq
    exact hfresh (List.any_eq_true.mpr ⟨p, hp, decide_eq_true heq⟩)

/-- An item has a prior record of its own fingerprint, or a moved one, or none. -/
theorem lookup_cases (previous : List (FindingLifecycle canonical))
    (item : FindingLifecycle canonical) :
    (∃ prior ∈ previous, lookup previous item = (some prior, none) ∧
        prior.fingerprint = item.fingerprint ∧ movedFrom previous item = none) ∨
      (∃ moved, lookup previous item = (none, some moved) ∧
        movedFrom previous item = some moved) ∨
      (lookup previous item = (none, none) ∧ movedFrom previous item = none ∧
        ∀ p ∈ previous, p.fingerprint ≠ item.fingerprint) := by
  unfold lookup
  split
  · next prior hprior =>
    obtain ⟨hmem, hkey⟩ := byFingerprint_some hprior
    refine .inl ⟨prior, hmem, rfl, hkey, ?_⟩
    exact if_pos (List.any_eq_true.mpr ⟨prior, hmem, decide_eq_true hkey⟩)
  · next hnone =>
    have hfresh := byFingerprint_none hnone
    have hmoved : movedFrom previous item = item.concern.bind (byConcern previous) := by
      refine if_neg ?_
      intro hany
      obtain ⟨p, hp, heq⟩ := List.any_eq_true.mp hany
      exact hfresh p hp (of_decide_eq_true heq)
    split
    · next candidate hcandidate =>
      have hmem := (movedFrom_some (hmoved.trans hcandidate)).1
      rw [if_pos (hfresh candidate hmem)]
      exact .inr (.inl ⟨candidate, rfl, hmoved.trans hcandidate⟩)
    · next hcandidate => exact .inr (.inr ⟨rfl, hmoved.trans hcandidate, hfresh⟩)

end Tables

/-- What the loop over the current records writes for one of them. -/
structure Observed (pass : Pass canonical) (previous : List (FindingLifecycle canonical))
    (item record : FindingLifecycle canonical) : Prop where
  fingerprint_eq : record.fingerprint = item.fingerprint
  concern_eq : record.concern = item.concern
  generation_le : pass.generation ≤ record.generation
  reported : record.state = .new ∨ record.state = .stillPresent
  still_present : (∃ p ∈ previous, p.fingerprint = item.fingerprint) →
    record.state = .stillPresent

section Loop
variable {pass : Pass canonical} {previous : List (FindingLifecycle canonical)}
  {item record : FindingLifecycle canonical}

theorem observe_new (hfresh : ∀ p ∈ previous, p.fingerprint ≠ item.fingerprint)
    (h : observe pass none item = .ok record) : Observed pass previous item record := by
  obtain ⟨hgeneration, rfl⟩ := FindingLifecycle.construct_ok h
  have hle : pass.generation ≤ (pass.generation.toNat : Int) := Int.self_le_toNat _
  refine ⟨rfl, rfl, hle, .inl rfl, ?_⟩
  rintro ⟨p, hp, heq⟩
  exact absurd heq (hfresh p hp)

theorem observe_prior (previous : List (FindingLifecycle canonical))
    {prior : FindingLifecycle canonical}
    (hkey : prior.fingerprint = item.fingerprint)
    (h : observe pass (some prior) item = .ok record) : Observed pass previous item record := by
  obtain ⟨hgeneration, rfl⟩ := FindingLifecycle.construct_ok h
  have hle : pass.generation ≤ ((max (prior.generation : Int) pass.generation).toNat : Int) := by
    omega
  simp only [reconcileFindingLifecycle, if_pos hkey]
  exact ⟨rfl, rfl, hle, .inr rfl, fun _ => rfl⟩

theorem observe_moved {moved : FindingLifecycle canonical}
    (h : FindingLifecycle.construct item.fingerprint .stillPresent
      (item.evidence.or moved.evidence) item.concern item.path
      (max moved.generation pass.generation) = .ok record) :
    Observed pass previous item record := by
  obtain ⟨hgeneration, rfl⟩ := FindingLifecycle.construct_ok h
  have hle : pass.generation ≤ ((max (moved.generation : Int) pass.generation).toNat : Int) := by
    omega
  exact ⟨rfl, rfl, hle, .inr rfl, fun _ => rfl⟩

/-- The loop has written a record of this fingerprint, or a current record took its place. -/
def Touched (previous : List (FindingLifecycle canonical)) (item : FindingLifecycle canonical)
    (fingerprint : Digest) : Prop :=
  item.fingerprint = fingerprint ∨
    ∃ moved, movedFrom previous item = some moved ∧ moved.fingerprint = fingerprint

def Reconciled.covers (s : Reconciled canonical) (fingerprint : Digest) : Prop :=
  fingerprint ∈ s.matched ∨ fingerprint ∈ s.seenFingerprints

/-- One turn of the loop skips an item, or writes its one record. -/
theorem reconcileCurrent_ok {barred : List Digest} {s s' : Reconciled canonical}
    (h : reconcileCurrent pass previous barred s item = .ok s') :
    (superseded barred item = true ∧ s' = s) ∨
      (superseded barred item = false ∧ ∃ record, Observed pass previous item record ∧
        s'.reconciled = s.reconciled ++ [record] ∧
        ∀ fp, s'.covers fp ↔ s.covers fp ∨ Touched previous item fp) := by
  unfold reconcileCurrent at h
  split at h
  · next hbarred => exact .inl ⟨hbarred, (Except.ok.inj h).symm⟩
  · next hadmitted =>
    refine .inr ⟨by simpa using hadmitted, ?_⟩
    rcases lookup_cases previous item with
      ⟨prior, _, hlookup, hkey, hstays⟩ | ⟨moved, hlookup, hmoved⟩ | ⟨hlookup, hstays, hfresh⟩
    · -- the same fingerprint again
      rw [hlookup] at h
      obtain ⟨record, hrecord, hs⟩ := bind_ok h
      have hobserved := observe_prior previous hkey hrecord
      refine ⟨record, hobserved, by rw [← Except.ok.inj hs], fun fp => ?_⟩
      rw [← Except.ok.inj hs]
      simp only [Reconciled.covers, Touched, hobserved.fingerprint_eq, hstays, hkey,
        Option.map_some, Option.toList_some, List.mem_append, List.mem_singleton]
      grind
    · -- the concern under another fingerprint
      rw [hlookup] at h
      have hfresh := (movedFrom_some hmoved).2.2.2
      have hwritten : ∃ record, Observed pass previous item record ∧
          s' = ⟨s.reconciled ++ [record], s.matched ++ [moved.fingerprint],
            s.seenFingerprints ++ [record.fingerprint]⟩ := by
        dsimp only at h
        split at h
        · obtain ⟨record, hrecord, hs⟩ := bind_ok h
          exact ⟨record, observe_new hfresh hrecord, (Except.ok.inj hs).symm⟩
        · obtain ⟨record, hrecord, hs⟩ := bind_ok h
          exact ⟨record, observe_moved hrecord, (Except.ok.inj hs).symm⟩
      obtain ⟨record, hobserved, rfl⟩ := hwritten
      refine ⟨record, hobserved, rfl, fun fp => ?_⟩
      simp only [Reconciled.covers, Touched, hobserved.fingerprint_eq, hmoved,
        List.mem_append, List.mem_singleton, Option.some.injEq]
      grind
    · -- a finding no earlier pass knew
      rw [hlookup] at h
      obtain ⟨record, hrecord, hs⟩ := bind_ok h
      have hobserved := observe_new hfresh hrecord
      refine ⟨record, hobserved, by rw [← Except.ok.inj hs], fun fp => ?_⟩
      rw [← Except.ok.inj hs]
      simp only [Reconciled.covers, Touched, hobserved.fingerprint_eq, hstays,
        Option.map_none, Option.toList_none, List.append_nil, List.mem_append,
        List.mem_singleton]
      grind

/-- What the whole loop writes: one record for each item whose concern is not barred. -/
theorem reconcileLoop_ok {barred : List Digest} {items : List (FindingLifecycle canonical)}
    {s s' : Reconciled canonical}
    (h : items.foldlM (reconcileCurrent pass previous barred) s = .ok s') :
    ∃ records, s'.reconciled = s.reconciled ++ records ∧
      List.Forall₂ (Observed pass previous)
        (items.filter (fun i => !superseded barred i)) records ∧
      ∀ fp, s'.covers fp ↔ s.covers fp ∨
        ∃ i ∈ items.filter (fun i => !superseded barred i), Touched previous i fp := by
  induction items generalizing s with
  | nil =>
    obtain rfl : s = s' := Except.ok.inj h
    exact ⟨[], by simp, .nil, by simp⟩
  | cons item rest ih =>
    rw [List.foldlM_cons] at h
    obtain ⟨middle, hstep, hrest⟩ := bind_ok h
    obtain ⟨records, hrecords, hall, hcovers⟩ := ih hrest
    rcases reconcileCurrent_ok hstep with
      ⟨hbarred, rfl⟩ | ⟨hadmitted, record, hobserved, hwritten, htouched⟩
    · refine ⟨records, hrecords, ?_, ?_⟩
      · simpa [hbarred] using hall
      · simpa [hbarred] using hcovers
    · refine ⟨record :: records, ?_, ?_, fun fp => ?_⟩
      · rw [hrecords, hwritten, List.append_assoc, List.singleton_append]
      · simpa [hadmitted] using List.Forall₂.cons hobserved hall
      · rw [hcovers, htouched]
        simp [hadmitted, or_assoc]

end Loop
end ReviewSensei.Findings
