import Mathlib.Data.List.Lex
import Mathlib.Data.Prod.Lex
import Mathlib.Data.String.Basic
import ReviewSensei.ExecutionSave

/-! `plan_work`: requirements over a bundle of evidence are packed into batches whose rendered
requests fit, and what does not fit stays represented. -/
namespace ReviewSensei.WorkPlanning
open Execution

/-- `EvidenceRecord`; a fragment has the index of its source hunk and its offset in the body. -/
structure Evidence where
  evidenceId : String
  path : String
  patch : String
  diff : String
  complete : Bool
  fragment : Option (Nat × Nat) := none
  deriving DecidableEq

/-- `EvidenceBundle`: one snapshot, and no identity twice. -/
structure Bundle where
  snapshot : String
  records : List Evidence
  enumerationComplete : Bool
  digest : String
  idsNodup : (records.map Evidence.evidenceId).Nodup

def Bundle.byId (bundle : Bundle) (key : String) : Option Evidence :=
  bundle.records.find? (fun record => decide (record.evidenceId = key))

abbrev EvidenceOrder := Lex (String × Lex (Nat × Lex (Nat × String)))

/-- `evidence_order`: ordinary records by path, segments by source. -/
def evidenceOrder (record : Evidence) : EvidenceOrder :=
  toLex (record.path, toLex ((record.fragment.map Prod.fst).getD 0,
    toLex ((record.fragment.map Prod.snd).getD 0, record.evidenceId)))

/-- What `render` returns or raises. -/
inductive Rendered
  | request (value : ProviderRequest)
  | notARequest
  | refused (category : Option String)
  | raised (error : Exc)

/-- A renderer and what it keeps between two calls; a deadline that passes is part of that. -/
structure Renderer (σ : Type) where
  render : σ → WorkBatch → Rendered × σ

/-- The arguments of `plan_work` that no step changes. -/
structure Stage (σ : Type) where
  mode : WorkMode
  bundle : Bundle
  budgets : EffectiveWorkBudget
  renderer : Renderer σ
  maxBatches : Nat := 8
  correction : String := ""
  authorityDigest : String := ""

/-- The variables that `fits` and `flush` share with the loop, and the renderer's own. -/
structure Pass (σ : Type) where
  batches : List WorkBatch := []
  unprocessed : List (String × String) := []
  current : List WorkRequirement := []
  failureReason : String := "required-evidence-oversized"
  planningExpired : Bool := false
  env : σ

/-- A refusal of the renderer becomes the reason of the requirement that it refuses. -/
def Pass.refused {σ : Type} (p : Pass σ) : Option String → Pass σ
  | some "mandatory_context_oversized" =>
    { p with failureReason := "mandatory-context-and-evidence-oversized" }
  | some "planning_deadline_exhausted" =>
    { p with failureReason := "planning-deadline-exceeded", planningExpired := true }
  | some "host_context_output_oversized" =>
    { p with failureReason := "host-context-output-oversized" }
  | some "host_context_diagnostics_oversized" =>
    { p with failureReason := "host-context-diagnostics-oversized" }
  | _ => p

/-- `WorkBatch.__post_init__`, with the records reduced to what a batch is named by. -/
def workBatch (mode : WorkMode) (requirements : List WorkRequirement)
    (records : List EvidenceRecord) : Except Exc WorkBatch :=
  if hne : requirements ≠ [] then
    if hid : (requirements.map WorkRequirement.identity).Nodup ∧
        (records.map EvidenceRecord.evidenceId).Nodup then
      if sameMembers (requirements.flatMap WorkRequirement.evidenceIds)
          (records.map EvidenceRecord.evidenceId) = true ∧
          (records.map EvidenceRecord.snapshot).dedup.length = 1 then
        .ok ⟨mode, requirements, records, hne, hid.1, hid.2⟩
      else .error (.reviewInput "work batch evidence identity is invalid")
    else .error (.reviewInput "work batch identities conflict")
  else .error (.reviewInput "work batch is invalid")

section
variable {σ : Type} (stage : Stage σ)

/-- The key of a requirement's evidence in the order of the requirements. -/
def requiredOrder (key : String) : EvidenceOrder :=
  match stage.bundle.byId key with
  | some record => evidenceOrder record
  | none => toLex (key, toLex (0, toLex (0, key)))

def itemOrder (item : WorkRequirement) : Lex (List EvidenceOrder × String) :=
  toLex ((item.evidenceIds.map (requiredOrder stage)).insertionSort (· ≤ ·), item.identity)

def sortedItems (items : List WorkRequirement) : List WorkRequirement :=
  items.insertionSort (fun a b => itemOrder stage a ≤ itemOrder stage b)

/-- `records[key]`. -/
def recordOf (key : String) : Except Exc Evidence :=
  match stage.bundle.byId key with
  | some record => .ok record
  | none => .error (.other key)

/-- The records that the candidates share, in the order of the evidence. -/
def selected (candidates : List WorkRequirement) : Except Exc (List Evidence) := do
  let records ← (candidates.flatMap WorkRequirement.evidenceIds).dedup.mapM (recordOf stage)
  pure (records.insertionSort (fun a b => evidenceOrder a ≤ evidenceOrder b))

def named (records : List Evidence) : List EvidenceRecord :=
  records.map (fun record => ⟨record.evidenceId, stage.bundle.snapshot⟩)

def batchFor (candidates : List WorkRequirement) : Except Exc WorkBatch := do
  let records ← selected stage candidates
  workBatch stage.mode candidates (named stage records)

/-- The records behind the names of a batch. -/
def recordsOf (batch : WorkBatch) : List Evidence :=
  batch.evidenceIds.filterMap stage.bundle.byId

def diffContext (batch : WorkBatch) : String :=
  match batch.mode with
  | .reassessment =>
    "\n".intercalate ((recordsOf stage batch).map (fun r => "path=" ++ r.path ++ "\n" ++ r.patch))
  | .discovery => String.join ((recordsOf stage batch).map Evidence.diff)

def corrected (prompt : String) : String :=
  prompt ++ (if stage.correction = "" then "" else "\n\n" ++ stage.correction)

/-- The answer of `fits` once the batch is rendered. -/
def judged (p : Pass σ) : Rendered → Except Exc (Bool × Pass σ)
  | .refused category => .ok (false, p.refused category)
  | .raised error => .error error
  | .notARequest => .error (.reviewInput "work renderer must return a ProviderRequest")
  | .request request => do
    let answer ← stage.budgets.fitsPrompt (corrected stage request.prompt) request.maxOutputTokens
    pure (answer, p)

/-- More requirements or more bytes than one batch may have. -/
def overBudget (candidates : List WorkRequirement) (batch : WorkBatch) : Bool :=
  (decide (stage.mode = .reassessment) &&
    decide (stage.budgets.maxFindingsPerBatch < candidates.length)) ||
  decide (stage.budgets.batchDiffBytes < (diffContext stage batch).utf8ByteSize)

def fits (p : Pass σ) (candidates : List WorkRequirement) : Except Exc (Bool × Pass σ) :=
  if p.planningExpired = true then
    .ok (false, { p with failureReason := "planning-deadline-exceeded" })
  else do
    let batch ← batchFor stage candidates
    let p := { p with failureReason := "required-evidence-oversized" }
    if overBudget stage candidates batch = true then pure (false, p)
    else
      let rendered := stage.renderer.render p.env batch
      judged stage { p with env := rendered.2 } rendered.1

/-- `min(max_batches, resource_budget.max_provider_calls)`. -/
def batchCeiling : Nat :=
  match stage.budgets.resourceBudget with
  | some budget => min stage.maxBatches budget.maxProviderCalls
  | none => stage.maxBatches

def flush (p : Pass σ) : Except Exc (Pass σ) :=
  if p.current = [] then .ok p
  else if p.batches.length < batchCeiling stage then do
    let batch ← batchFor stage p.current
    pure { p with batches := p.batches ++ [batch], current := [] }
  else .ok { p with
    unprocessed := p.unprocessed ++ p.current.map (fun q => (q.identity, "provider-call-budget"))
    current := [] }

/-- Evidence that is not there, or that a reassessment may not rely on. -/
def evidenceMissing (item : WorkRequirement) : Bool :=
  item.evidenceIds.any (fun key => (stage.bundle.byId key).isNone) ||
  (decide (stage.mode = .reassessment) && (!stage.bundle.enumerationComplete ||
    item.evidenceIds.any (fun key => (stage.bundle.byId key).any (fun r => !r.complete))))

def Pass.leave (p : Pass σ) (item : WorkRequirement) (reason : String) : Pass σ :=
  { p with unprocessed := p.unprocessed ++ [(item.identity, reason)] }

/-- Flushes the open batch when it has no room for the item. -/
def makeRoom (p : Pass σ) (item : WorkRequirement) : Except Exc (Pass σ) :=
  if p.current = [] then .ok p
  else do
    let (together, p) ← fits stage p (p.current ++ [item])
    if together = true then pure p else flush stage p

def packItem (p : Pass σ) (item : WorkRequirement) : Except Exc (Pass σ) :=
  if evidenceMissing stage item = true then .ok (p.leave item "required-evidence-missing")
  else do
    let (alone, p) ← fits stage p [item]
    if alone = true then do
      let p ← makeRoom stage p item
      pure { p with current := p.current ++ [item] }
    else pure (p.leave item p.failureReason)

def packItems (p : Pass σ) : List WorkRequirement → Except Exc (Pass σ)
  | [] => .ok p
  | item :: rest => do
    let p ← packItem stage p item
    packItems p rest

/-- A batch names only requirements of the plan and only records of its bundle. -/
def batchPlanned (requirements : List WorkRequirement) (batch : WorkBatch) : Bool :=
  decide (batch.mode = stage.mode) && batch.requirements.all (fun q => decide (q ∈ requirements)) &&
  batch.records.all (fun r => (stage.bundle.byId r.evidenceId).isSome &&
    decide (r.snapshot = stage.bundle.snapshot))

/-- `ReviewWorkPlan.__post_init__`. -/
def reviewWorkPlan (evidenceDigest : DigestDocument → String) (requirements : List WorkRequirement)
    (batches : List WorkBatch) (unprocessed : List (String × String)) : Except Exc ReviewWorkPlan :=
  if 40000 < requirements.length then .error (.reviewInput "work plan requirements are invalid")
  else if batches.all (batchPlanned stage requirements) = false then
    .error (.reviewInput "work plan batches are invalid")
  else if h : (batches.flatMap WorkBatch.requirementIds ++ unprocessed.map Prod.fst).Perm
      (requirements.map WorkRequirement.identity) ∧
      (requirements.map WorkRequirement.identity).Nodup then
    .ok {
      mode := stage.mode
      snapshot := stage.bundle.snapshot
      evidenceDigest := stage.bundle.digest
      requirements, batches, unprocessed
      authorityDigest := stage.authorityDigest
      budgetDigest := stage.budgets.digest evidenceDigest
      accounted := h.1
      identitiesNodup := h.2 }
  else .error (.reviewInput "work plan does not account for every requirement exactly once")

/-- `plan_work`, with a renderer that starts out from `env`. -/
def planWork (evidenceDigest : DigestDocument → String) (env : σ) (items : List WorkRequirement) :
    Except Exc ReviewWorkPlan :=
  if stage.maxBatches < 1 ∨ 32 < stage.maxBatches then
    .error (.reviewInput "work plan batch budget is invalid")
  else if ¬ (items.map WorkRequirement.identity).Nodup then
    .error (.reviewInput "work requirement identities conflict")
  else do
    let packed ← packItems stage { env } (sortedItems stage items)
    let p ← flush stage packed
    reviewWorkPlan stage evidenceDigest (sortedItems stage items) p.batches
      (sortedPending p.unprocessed)

end
end ReviewSensei.WorkPlanning
