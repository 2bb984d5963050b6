import ReviewSensei.VerdictSteps
import Mathlib.Data.List.Induction

/-! Runs of the operations on a bound result: a required finding stays, or its gate is set. -/
namespace ReviewSensei.Review
open Session (bind_ok repeated)

variable {ρ : Type} {rules : ResultRules ρ} {lower : String → String}

inductive VerdictStep (rules : ResultRules ρ)
  | project (selected : List ReviewComment) (policy : ConvergencePolicy)
  | bind (policy : ConvergencePolicy)
  | preserve (verified : ReviewResult rules) (policy : ConvergencePolicy)
  | readBack

def VerdictStep.apply (lower : String → String) (r : ReviewResult rules) :
    VerdictStep rules → Except String (ReviewResult rules)
  | .project selected policy => projectReviewComments lower r selected policy
  | .bind policy => bindReviewVerdict lower r policy
  | .preserve verified policy => preserveVerifiedVerdict lower r verified policy
  | .readBack => Review.readBack r

/-- A step that raises leaves the result it was applied to. -/
def verdictStep (lower : String → String) (r : ReviewResult rules) (s : VerdictStep rules) :
    ReviewResult rules :=
  match s.apply lower r with
  | .ok r' => r'
  | .error _ => r

def verdictRun (lower : String → String) (r : ReviewResult rules)
    (steps : List (VerdictStep rules)) : ReviewResult rules :=
  steps.foldl (verdictStep lower) r

/-- A document holds no admission and verification none to preserve before a verdict is bound;
verification removes no comment whose lifecycle record a kept one shares. -/
def Safe (lower : String → String) (r : ReviewResult rules) : VerdictStep rules → Prop
  | .project _ _ => True
  | .bind _ => True
  | .preserve verified _ => r.reviewVerdict.isSome = true ∧ Unshared lower r verified
  | .readBack => r.reviewVerdict.isSome = true

theorem verdictStep_keeps {r : ReviewResult rules} {s : VerdictStep rules}
    (hsafe : Safe lower r s) :
    Keeps lower r.toResultFields (verdictStep lower r s).toResultFields := by
  unfold verdictStep
  split
  · next r' happly =>
    cases s with
    | project selected policy => exact (project_keeps happly).1
    | bind policy => exact (bind_keeps happly).1
    | preserve verified policy => exact (preserve_keeps happly hsafe.1 hsafe.2).1
    | readBack => exact (readBack_keeps happly hsafe).1
  · exact Keeps.refl _

/-- Every step of the run is safe where it is taken. -/
def SafeRun (lower : String → String) (r : ReviewResult rules)
    (steps : List (VerdictStep rules)) : Prop :=
  ∀ earlier s later, steps = earlier ++ s :: later → Safe lower (verdictRun lower r earlier) s

theorem SafeRun.init {r : ReviewResult rules} {steps : List (VerdictStep rules)}
    {s : VerdictStep rules} (h : SafeRun lower r (steps ++ [s])) : SafeRun lower r steps := by
  intro earlier s' later hsplit
  refine h earlier s' (later ++ [s]) ?_
  rw [hsplit, List.append_assoc, List.cons_append]

theorem verdictRun_concat (r : ReviewResult rules) (steps : List (VerdictStep rules))
    (s : VerdictStep rules) :
    verdictRun lower r (steps ++ [s]) = verdictStep lower (verdictRun lower r steps) s := by
  rw [verdictRun, List.foldl_append]
  rfl

theorem SafeRun.last {r : ReviewResult rules} {steps : List (VerdictStep rules)}
    {s : VerdictStep rules} (h : SafeRun lower r (steps ++ [s])) :
    Keeps lower (verdictRun lower r steps).toResultFields
      (verdictRun lower r (steps ++ [s])).toResultFields := by
  rw [verdictRun_concat]
  exact verdictStep_keeps (h steps s [] rfl)

/-- The comment is there, as its document has it, after every prefix of the run. -/
def RetainedThrough (lower : String → String) (r : ReviewResult rules)
    (steps : List (VerdictStep rules)) (c : CommentFields) : Prop :=
  ∀ earlier later, steps = earlier ++ later →
    ∃ d ∈ (verdictRun lower r earlier).comments, d.toCommentFields = c

theorem RetainedThrough.init {r : ReviewResult rules} {steps : List (VerdictStep rules)}
    {s : VerdictStep rules} {c : CommentFields}
    (h : RetainedThrough lower r (steps ++ [s]) c) : RetainedThrough lower r steps c := by
  intro earlier later hsplit
  refine h earlier (later ++ [s]) ?_
  rw [hsplit, List.append_assoc]

theorem run_gates {r : ReviewResult rules} {steps : List (VerdictStep rules)}
    (h : SafeRun lower r steps) :
    (r.blockingGate = true → (verdictRun lower r steps).blockingGate = true) ∧
      (r.humanGate = true → (verdictRun lower r steps).humanGate = true) := by
  induction steps using List.reverseRecOn with
  | nil => exact ⟨id, id⟩
  | append_singleton steps s ih =>
    obtain ⟨hblocking, hhuman⟩ := ih h.init
    exact ⟨fun hg => h.last.blocking_gate (hblocking hg), fun hg => h.last.human_gate (hhuman hg)⟩

theorem run_required {r : ReviewResult rules} {steps : List (VerdictStep rules)}
    (h : SafeRun lower r steps) {c : ReviewComment} (hc : c ∈ r.comments) :
    (c.effectiveBlocking = some true →
      c ∈ (verdictRun lower r steps).comments ∨
        (verdictRun lower r steps).blockingGate = true) ∧
      (c.needsHuman = true →
        c ∈ (verdictRun lower r steps).comments ∨ (verdictRun lower r steps).humanGate = true) := by
  induction steps using List.reverseRecOn with
  | nil => exact ⟨fun _ => .inl hc, fun _ => .inl hc⟩
  | append_singleton steps s ih =>
    obtain ⟨hblocking, hhuman⟩ := ih h.init
    constructor
    · intro hb
      rcases hblocking hb with hmem | hgate
      · exact h.last.blocking c hmem hb
      · exact .inr (h.last.blocking_gate hgate)
    · intro hn
      rcases hhuman hn with hmem | hgate
      · exact h.last.human c hmem hn
      · exact .inr (h.last.human_gate hgate)

theorem run_obligations {r : ReviewResult rules} {steps : List (VerdictStep rules)}
    (h : SafeRun lower r steps) {record : FindingLifecycleRecord}
    (hrecord : record ∈ r.findingLifecycles) (hstate : record.state ≠ .new) :
    record ∈ (verdictRun lower r steps).findingLifecycles := by
  induction steps using List.reverseRecOn with
  | nil => exact hrecord
  | append_singleton steps s ih => exact h.last.obligations record (ih h.init) hstate

theorem run_lifecycle {r : ReviewResult rules} {steps : List (VerdictStep rules)}
    (h : SafeRun lower r steps) {c : CommentFields} (hc : RetainedThrough lower r steps c)
    (hrecord : ∃ record ∈ r.findingLifecycles, record.fingerprint = lifecycleFingerprint lower c) :
    ∃ record ∈ (verdictRun lower r steps).findingLifecycles,
      record.fingerprint = lifecycleFingerprint lower c := by
  induction steps using List.reverseRecOn with
  | nil => exact hrecord
  | append_singleton steps s ih =>
    have hbefore := ih h.init hc.init
    obtain ⟨d, hd, hfields⟩ := hc steps [s] rfl
    obtain ⟨d', hd', hfields'⟩ := hc (steps ++ [s]) [] (List.append_nil _).symm
    have hkey : d'.key = d.key := by rw [hfields, hfields']
    rw [← hfields] at hbefore ⊢
    exact h.last.lifecycle d hd ⟨d', hd', hkey⟩ hbefore

section Sample

/-- Results of comments, lifecycles and a verdict alone. -/
def sampleRules : ResultRules Unit :=
  ⟨fun _ => .ok (), fun _ => .ok (), fun _ => .ok (), .ok⟩

def samplePolicy : ConvergencePolicy := ⟨"high-signal", "publication", repeated 64 'd'⟩

/-- An admitted comment of the sample file. -/
def sampleComment (body : String) (blocking : Bool) : ReviewComment where
  path := "a.py"
  line := some 1
  body := body
  line_side := right_line
  effectiveBlocking := some blocking

def sampleResult (comments : List ReviewComment) : Except String (ReviewResult sampleRules) :=
  ReviewResult.construct sampleRules
    { comments
      findingLifecycles :=
        [⟨lifecycleFingerprint id (sampleComment "x" false).toCommentFields, .new⟩]
      reviewVerdict := none
      rest := () }

theorem sampleResult_ok : ∃ r, sampleResult [sampleComment "x" true] = .ok r ∧
    sampleComment "x" true ∈ r.comments := by
  have hcomments : (sampleResult [sampleComment "x" true]).toOption.map (·.comments) =
      some [sampleComment "x" true] := by
    decide
  cases h : sampleResult [sampleComment "x" true] with
  | error e =>
    rw [h] at hcomments
    cases hcomments
  | ok r =>
    rw [h] at hcomments
    have heq : r.comments = [sampleComment "x" true] := Option.some.inj hcomments
    exact ⟨r, rfl, heq ▸ List.mem_cons_self⟩

/-- Two optional comments of one concern are bound, and verification keeps the first. -/
def sampleVerification : Except String (ReviewResult sampleRules × ReviewResult sampleRules) := do
  let result ← sampleResult [sampleComment "x" false, sampleComment "y" false]
  let previous ← bindReviewVerdict id result samplePolicy
  let verified ← sampleResult [sampleComment "x" false]
  let preserved ← preserveVerifiedVerdict id previous verified samplePolicy
  .ok (previous, preserved)

end Sample
end ReviewSensei.Review
