import ReviewSensei.Approval
import ReviewSensei.HumanFiles
import ReviewSensei.Rescan
import Mathlib.Data.Finset.Card
import Mathlib.Data.List.Chain

/-! Progress of remaining work: the units of a coverage, the receipt of one bounded execution, and
the proof that a result extends the one before it. -/
namespace ReviewSensei.Progress
open Session (isHexText bind_ok)
open Review (CommentFields ReviewComment ResultFields ResultRules ReviewResult
  FindingLifecycleRecord)
open Findings (LifecycleState)
open Diff (Path UnicodeRules)
open Coverage (CoverageManifest ManifestFields CoverageOutcome FileCoverage HunkCoverage)
open Approval (ReviewStatus PersistenceStatus)
open HumanFiles (evidenceDigest)

/-- A unit of review work. -/
inductive CoverageUnit
  | file (path : Path)
  | hunk (path : Path) (index : Nat)
  deriving DecidableEq

namespace CoverageUnit

/-- `sorted` on the triples that stand for units. -/
def before : CoverageUnit → CoverageUnit → Bool
  | file p, file q => decide (String.ofList p ≤ String.ofList q)
  | file _, hunk _ _ => true
  | hunk _ _, file _ => false
  | hunk p i, hunk q j =>
    decide (String.ofList p < String.ofList q) || (decide (p = q) && decide (i ≤ j))

def toJson : CoverageUnit → Json
  | file p => .arr [.str "file", .str (String.ofList p), .int (-1)]
  | hunk p i => .arr [.str "hunk", .str (String.ofList p), .int i]

end CoverageUnit

/-- The units of `coverage_units`, each with its outcome. -/
def coverageEntries (m : ManifestFields) : List (CoverageUnit × CoverageOutcome) :=
  m.files.map (fun entry => (.file entry.path, entry.outcome)) ++
    m.hunks.map (fun entry => (.hunk entry.path entry.index, entry.outcome))

def inventoryUnits (m : ManifestFields) : List CoverageUnit :=
  (coverageEntries m).map Prod.fst

def reviewedUnits (m : ManifestFields) : List CoverageUnit :=
  ((coverageEntries m).filter (fun entry => entry.2 = .reviewed)).map Prod.fst

def inventory (m : ManifestFields) : Finset CoverageUnit := (inventoryUnits m).toFinset

def reviewed (m : ManifestFields) : Finset CoverageUnit := (reviewedUnits m).toFinset

/-- The digest of a set of units, in order. -/
def unitsDigest (units : List CoverageUnit) : String :=
  evidenceDigest (.arr ((units.dedup.mergeSort CoverageUnit.before).map CoverageUnit.toJson))

structure LearningProposal where
  title : String
  rule : String
  scope : List String
  rationale : Option String := none
  category : Option String := none
  deriving DecidableEq

def LearningProposal.toDict (p : LearningProposal) : Json :=
  .obj ([("title", .str p.title), ("rule", .str p.rule), ("scope", .arr (p.scope.map .str))] ++
    Json.optional "rationale" (p.rationale.map .str) ++
    Json.optional "category" (p.category.map .str))

def stateText : LifecycleState → String
  | .new => "new"
  | .stillPresent => "still-present"
  | .fixed => "fixed"
  | .outdated => "outdated"
  | .uncertain => "uncertain"

def lifecycleDict (record : FindingLifecycleRecord) : Json :=
  .obj [("fingerprint", .str record.fingerprint), ("state", .str (stateText record.state))]

/-- The receipt of one bounded execution, with the keys that its check asks for. -/
structure ExecutionReceipt where
  schemaVersion : String
  outcome : String
  executionIdentity : String
  providerCalls : Nat
  scopeDigest : Option String
  inventoryDigest : String
  reviewedDigest : String
  deriving DecidableEq

def ExecutionReceipt.toDict (r : ExecutionReceipt) : Json :=
  .obj [("schema_version", .str r.schemaVersion), ("outcome", .str r.outcome),
    ("execution_identity", .str r.executionIdentity), ("provider_calls", .int r.providerCalls),
    ("scope_digest", (r.scopeDigest.map Json.str).getD .null),
    ("inventory_digest", .str r.inventoryDigest), ("reviewed_digest", .str r.reviewedDigest)]

/-- What remaining work reads of a result beside its comments and its lifecycles. -/
structure WorkRest (unicode : UnicodeRules) where
  provider : String
  model : Option String := none
  workPolicyDigest : Option String := none
  reviewStatus : ReviewStatus := .incomplete
  persistenceStatus : Option PersistenceStatus := none
  coverage : Option (CoverageManifest unicode) := none
  continuationScopeDigest : Option String := none
  boundedWorkReceipt : Option ExecutionReceipt := none
  learningProposals : List LearningProposal := []
  contentDigest : String

variable {unicode : UnicodeRules}

def executionReceipt (rest : WorkRest unicode) (m : ManifestFields) (executionIdentity : String)
    (providerCalls : Nat) : ExecutionReceipt where
  schemaVersion := "1.0"
  outcome := "bounded-stop"
  executionIdentity := executionIdentity
  providerCalls := providerCalls
  scopeDigest := rest.continuationScopeDigest
  inventoryDigest := unitsDigest (inventoryUnits m)
  reviewedDigest := unitsDigest (reviewedUnits m)

def maxProviderCalls : Nat := 64

/-- `validate_execution_receipt`, on a receipt that is there. -/
def validateExecutionReceipt (rest : WorkRest unicode) (receipt : ExecutionReceipt) :
    Except String Unit :=
  match rest.coverage with
  | none => .error "bounded work execution receipt is invalid"
  | some m => do
    ensure (receipt.schemaVersion = "1.0" ∧ receipt.outcome = "bounded-stop" ∧
        isHexText 32 32 receipt.executionIdentity = true ∧
        (0 < receipt.providerCalls ∧ receipt.providerCalls ≤ maxProviderCalls) ∧
        rest.reviewStatus = .partialReview ∧ rest.persistenceStatus = none ∧
        m.enumerationComplete = true ∧ rest.continuationScopeDigest.isSome = true)
      "bounded work execution receipt is invalid"
    ensure (receipt = executionReceipt rest m.toManifestFields receipt.executionIdentity
        receipt.providerCalls)
      "bounded work execution receipt scope or coverage differs"

/-- The check of the constructor: a receipt that is there is valid. -/
def checkReceipt (rest : WorkRest unicode) : Except String Unit :=
  match rest.boundedWorkReceipt with
  | none => .ok ()
  | some receipt => validateExecutionReceipt rest receipt

/-- The checks of a result: the receipt's, and others that the progress does not read. -/
def workRules (others : ResultRules (WorkRest unicode)) : ResultRules (WorkRest unicode) :=
  { others with
    fields := fun f => do
      checkReceipt f.rest
      others.fields f }

variable {others : ResultRules (WorkRest unicode)}

/-- The comments of a result as their documents hold them. -/
def publishedComments (f : ResultFields (WorkRest unicode)) : List CommentFields :=
  f.comments.map ReviewComment.toCommentFields

def commentDigest (c : CommentFields) : String := evidenceDigest c.toDict

def proposalDigest (p : LearningProposal) : String := evidenceDigest p.toDict

def lifecycleDigest (record : FindingLifecycleRecord) : String :=
  evidenceDigest (lifecycleDict record)

/-- The canonical obligations of a result, by the digests of their documents. -/
def commentDigests (f : ResultFields (WorkRest unicode)) : List String :=
  (publishedComments f).map commentDigest

def proposalDigests (f : ResultFields (WorkRest unicode)) : List String :=
  f.rest.learningProposals.map proposalDigest

def lifecycleDigests (f : ResultFields (WorkRest unicode)) : List String :=
  f.findingLifecycles.map lifecycleDigest

/-- No digest occurs more often in `old` than in `new`. -/
def survives (old new : List String) : Bool := old.all (fun d => old.count d ≤ new.count d)

structure ProgressProof where
  parentDigest : String
  childDigest : String
  executionDigest : String
  scopeDigest : Option String
  inventoryDigest : String
  reviewedBeforeDigest : String
  reviewedAfterDigest : String
  reviewedBefore : Nat
  reviewedAfter : Nat
  deriving DecidableEq

/-- Both results stopped with a complete inventory, under one scope and one execution policy. -/
def comparable (parent child : WorkRest unicode) (before after : ManifestFields) : Bool :=
  decide (parent.reviewStatus = .partialReview) && decide (child.reviewStatus = .partialReview) &&
    before.enumerationComplete && after.enumerationComplete &&
    parent.continuationScopeDigest.isSome &&
    decide (parent.continuationScopeDigest = child.continuationScopeDigest) &&
    decide (parent.provider = child.provider ∧ parent.model = child.model ∧
      parent.workPolicyDigest = child.workPolicyDigest)

/-- The inventory stays, and more of it is reviewed. -/
def extendsCoverage (before after : ManifestFields) : Bool :=
  decide (inventory before = inventory after) &&
    decide (before.enumeratedPaths.toFinset = after.enumeratedPaths.toFinset) &&
    decide (reviewed before ⊂ reviewed after)

def keepsObligations (parent child : ResultFields (WorkRest unicode)) : Bool :=
  survives (commentDigests parent) (commentDigests child) &&
    survives (proposalDigests parent) (proposalDigests child) &&
    survives (lifecycleDigests parent) (lifecycleDigests child)

def progressProof (parent child : WorkRest unicode) (receipt : ExecutionReceipt)
    (before after : ManifestFields) : ProgressProof where
  parentDigest := parent.contentDigest
  childDigest := child.contentDigest
  executionDigest := evidenceDigest receipt.toDict
  scopeDigest := parent.continuationScopeDigest
  inventoryDigest := unitsDigest (inventoryUnits before)
  reviewedBeforeDigest := unitsDigest (reviewedUnits before)
  reviewedAfterDigest := unitsDigest (reviewedUnits after)
  reviewedBefore := (reviewed before).card
  reviewedAfter := (reviewed after).card

def remainingProgressProof (parent child : ResultFields (WorkRest unicode)) :
    Except String (Option ProgressProof) :=
  match child.rest.boundedWorkReceipt, parent.rest.coverage, child.rest.coverage with
  | some receipt, some before, some after =>
    if comparable parent.rest child.rest before.toManifestFields after.toManifestFields then do
      validateExecutionReceipt child.rest receipt
      return if extendsCoverage before.toManifestFields after.toManifestFields &&
          keepsObligations parent child then
        some (progressProof parent.rest child.rest receipt before.toManifestFields
          after.toManifestFields)
      else none
    else .ok none
  | _, _, _ => .ok none

section Chain

/-- The inventory of a result; without a coverage it is empty. -/
def inventoryOf (f : ResultFields (WorkRest unicode)) : Finset CoverageUnit :=
  (f.rest.coverage.map (fun m => inventory m.toManifestFields)).getD ∅

def reviewedOf (f : ResultFields (WorkRest unicode)) : Finset CoverageUnit :=
  (f.rest.coverage.map (fun m => reviewed m.toManifestFields)).getD ∅

theorem reviewed_subset (m : ManifestFields) : reviewed m ⊆ inventory m := by
  intro unit hunit
  obtain ⟨entry, hentry, rfl⟩ := List.mem_map.mp (List.mem_toFinset.mp hunit)
  exact List.mem_toFinset.mpr (List.mem_map_of_mem (List.mem_filter.mp hentry).1)

theorem reviewedOf_subset (f : ResultFields (WorkRest unicode)) :
    reviewedOf f ⊆ inventoryOf f := by
  unfold reviewedOf inventoryOf
  cases f.rest.coverage with
  | none => exact Finset.Subset.refl _
  | some m => exact reviewed_subset m.toManifestFields

theorem survives_iff {old new : List String} :
    survives old new = true ↔ ∀ d, old.count d ≤ new.count d := by
  rw [survives, List.all_eq_true]
  constructor
  · intro h d
    by_cases hd : d ∈ old
    · exact of_decide_eq_true (h d hd)
    · rw [List.count_eq_zero_of_not_mem hd]
      exact Nat.zero_le _
  · intro h d _
    exact decide_eq_true (h d)

/-- What never changes along a chain, and what only grows. -/
structure Extends (first last : ResultFields (WorkRest unicode)) : Prop where
  inventory : inventoryOf first = inventoryOf last
  provider : first.rest.provider = last.rest.provider
  model : first.rest.model = last.rest.model
  policy : first.rest.workPolicyDigest = last.rest.workPolicyDigest
  reviewed : reviewedOf first ⊆ reviewedOf last
  comments : ∀ d, (commentDigests first).count d ≤ (commentDigests last).count d
  proposals : ∀ d, (proposalDigests first).count d ≤ (proposalDigests last).count d
  lifecycles : ∀ d, (lifecycleDigests first).count d ≤ (lifecycleDigests last).count d

theorem Extends.refl (f : ResultFields (WorkRest unicode)) : Extends f f where
  inventory := rfl
  provider := rfl
  model := rfl
  policy := rfl
  reviewed := Finset.Subset.refl _
  comments := fun _ => le_rfl
  proposals := fun _ => le_rfl
  lifecycles := fun _ => le_rfl

theorem Extends.trans {f g k : ResultFields (WorkRest unicode)} (h : Extends f g)
    (h' : Extends g k) : Extends f k where
  inventory := h.inventory.trans h'.inventory
  provider := h.provider.trans h'.provider
  model := h.model.trans h'.model
  policy := h.policy.trans h'.policy
  reviewed := h.reviewed.trans h'.reviewed
  comments := fun d => (h.comments d).trans (h'.comments d)
  proposals := fun d => (h.proposals d).trans (h'.proposals d)
  lifecycles := fun d => (h.lifecycles d).trans (h'.lifecycles d)

/-- What is enough for a proof. -/
theorem remainingProgressProof_some {parent child : ResultFields (WorkRest unicode)}
    {receipt : ExecutionReceipt} {before after : CoverageManifest unicode}
    (hreceipt : child.rest.boundedWorkReceipt = some receipt)
    (hbefore : parent.rest.coverage = some before) (hafter : child.rest.coverage = some after)
    (hcomparable : comparable parent.rest child.rest before.toManifestFields
      after.toManifestFields = true)
    (hvalid : validateExecutionReceipt child.rest receipt = .ok ())
    (hextends : (extendsCoverage before.toManifestFields after.toManifestFields &&
      keepsObligations parent child) = true) :
    remainingProgressProof parent child =
      .ok (some (progressProof parent.rest child.rest receipt before.toManifestFields
        after.toManifestFields)) := by
  unfold remainingProgressProof
  rw [hreceipt, hbefore, hafter]
  dsimp only
  rw [if_pos hcomparable, hvalid]
  exact congrArg Except.ok (if_pos hextends)

/-- A proof leads from the parent to the child. -/
def Links (parent child : ResultFields (WorkRest unicode)) : Prop :=
  ∃ proof, remainingProgressProof parent child = .ok (some proof)

/-- One link: the child extends the parent, by at least one unit. -/
theorem links_extend {parent child : ResultFields (WorkRest unicode)} (h : Links parent child) :
    Extends parent child ∧ reviewedOf parent ⊂ reviewedOf child := by
  obtain ⟨proof, h⟩ := h
  unfold remainingProgressProof at h
  split at h
  · next receipt before after hreceipt hbefore hafter =>
    split at h
    · next hcomparable =>
      obtain ⟨_, _, h⟩ := bind_ok h
      split at h
      · next hextends =>
        obtain ⟨hcoverage, hobligations⟩ := Bool.and_eq_true_iff.mp hextends
        simp only [comparable, Bool.and_eq_true, decide_eq_true_eq] at hcomparable
        simp only [extendsCoverage, Bool.and_eq_true, decide_eq_true_eq] at hcoverage
        simp only [keepsObligations, Bool.and_eq_true, survives_iff] at hobligations
        obtain ⟨_, hprovider, hmodel, hpolicy⟩ := hcomparable
        obtain ⟨⟨hinventory, _⟩, hgrows⟩ := hcoverage
        obtain ⟨⟨hcomments, hproposals⟩, hlifecycles⟩ := hobligations
        have hreviewed : reviewedOf parent ⊂ reviewedOf child := by
          rw [reviewedOf, reviewedOf, hbefore, hafter]
          exact hgrows
        refine ⟨⟨?_, hprovider, hmodel, hpolicy, hreviewed.subset, hcomments, hproposals,
          hlifecycles⟩, hreviewed⟩
        rw [inventoryOf, inventoryOf, hbefore, hafter]
        exact hinventory
      · cases Except.ok.inj h
    · cases Except.ok.inj h
  · cases Except.ok.inj h

/-- A chain extends its first result at every place, by one unit a link. -/
theorem chain_extends {first : ResultFields (WorkRest unicode)}
    {rest : List (ResultFields (WorkRest unicode))} (h : (first :: rest).IsChain Links) :
    (∀ result ∈ rest, Extends first result) ∧
      (reviewedOf first).card + rest.length ≤ (reviewedOf (rest.getLastD first)).card := by
  induction rest generalizing first with
  | nil => exact ⟨fun result hresult => absurd hresult List.not_mem_nil, le_rfl⟩
  | cons next rest ih =>
    obtain ⟨hlink, hchain⟩ := List.isChain_cons_cons.mp h
    obtain ⟨hextends, hgrows⟩ := links_extend hlink
    obtain ⟨hall, hcount⟩ := ih hchain
    have hcard := Finset.card_lt_card hgrows
    constructor
    · intro result hresult
      rcases List.mem_cons.mp hresult with rfl | hresult
      · exact hextends
      · exact hextends.trans (hall result hresult)
    · rw [List.getLastD_cons, List.length_cons]
      omega

theorem chain_last {first : ResultFields (WorkRest unicode)}
    {rest : List (ResultFields (WorkRest unicode))} (h : (first :: rest).IsChain Links) :
    Extends first (rest.getLastD first) := by
  cases rest with
  | nil => exact Extends.refl first
  | cons next rest =>
    rw [List.getLastD_cons, List.getLastD_eq_getLast?]
    refine (chain_extends h).1 _ ?_
    cases hlast : rest.getLast? with
    | none => exact List.mem_cons_self
    | some last => exact List.mem_cons_of_mem _ (List.mem_of_getLast? hlast)

end Chain

end ReviewSensei.Progress
