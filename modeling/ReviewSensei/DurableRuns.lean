import ReviewSensei.Receipts
import ReviewSensei.Restart
import ReviewSensei.SavedAggregate

/-! Runs over a durable checkpoint: what a save has decided, what it holds, and how one process
carries both on. -/
namespace ReviewSensei.Execution
open ReviewSensei.Effects ReviewSensei.Restart

variable {T J : Type}

/-- The durable state is the last completed save. -/
def lastCompleted : Option (SaveRecord T) → Event T → Option (SaveRecord T)
  | _, .save r true => some r
  | s, _ => s

/-- A completed save. -/
def Event.commits : Event T → Bool
  | .save _ completes => completes
  | _ => false

/-- A refused decision, or a receipt that failed its revalidation. -/
def Event.abandons : Event T → Bool
  | .refused _ => true
  | .notRevalidated _ => true
  | _ => false

/-- Nothing was abandoned since the last completed save. -/
def Intact (events : List (Event T)) : Prop :=
  unbroken (fun e => e.abandons = true) (fun e => e.commits = true) events

theorem intact_snoc {events : List (Event T)} {e : Event T} (ha : e.abandons = false)
    (hc : e.commits = false) : Intact (events ++ [e]) ↔ Intact events := by
  rw [Intact, unbroken_snoc, if_neg (by simp [ha]), if_neg (by simp [hc])]
  rfl

theorem not_intact_snoc {events : List (Event T)} {e : Event T} (ha : e.abandons = true) :
    ¬Intact (events ++ [e]) := by
  rw [Intact, unbroken_snoc, if_pos ha]
  exact id

theorem lastCompleted_quiet {s : Option (SaveRecord T)} {e : Event T} (hc : e.commits = false) :
    lastCompleted s e = s := by
  cases e with
  | save r completes =>
    cases completes with
    | false => rfl
    | true => cases hc
  | _ => rfl

/-- The requirements that a call of the provider works on. -/
def Event.dispatches : Event T → Set String
  | .called batch _ => {r | r ∈ batch.requirementIds}
  | _ => ∅

/-- The requirements of a plan's batches that an aggregate completes or lets wait under another
reason than "queued". -/
def decidedBy (plan : ReviewWorkPlan) (e : WorkExecution T) : Set String :=
  {r | (∃ b ∈ plan.batches, r ∈ b.requirementIds) ∧
    ((∃ c ∈ e.completed, r ∈ c.batch.requirementIds) ∨
      ∃ reason, (r, reason) ∈ e.pending ∧ reason ≠ "queued")}

def decided (plan : ReviewWorkPlan) (s : Option (SaveRecord T)) : Set String :=
  {r | ∃ record, s = some record ∧ r ∈ decidedBy plan record.execution}

/-- The batches that a save holds as completed. -/
def held (s : Option (SaveRecord T)) : Set WorkBatch :=
  {b | ∃ record, s = some record ∧ ∃ c ∈ record.execution.completed, c.batch = b}

section
variable (env : Environment) (args : Arguments T J) (a : Admitted T)

/-- A batch whose own receipt is cached. -/
def Cached (b : WorkBatch) : Prop :=
  ∃ item, a.cached.get? (b.batchId env.evidenceDigest) = some item ∧ item.batch = b

/-- What is decided where the loop stands: the batches behind it, and those ahead of it that are
cached or terminal. -/
def decidedAt (index : Nat) : Set String :=
  {r | (∃ b ∈ args.plan.batches.take index, r ∈ b.requirementIds) ∨
    ∃ b ∈ args.plan.batches.drop index, r ∈ b.requirementIds ∧
      (Cached env a b ∨ (a.terminalPending.get? r).isSome)}

/-- What is held where the loop stands. -/
def heldAt (index : Nat) (w : World T) : Set WorkBatch :=
  {b | (∃ c ∈ w.completed, c.batch = b) ∨ b ∈ args.plan.batches.drop index ∧ Cached env a b}

/-- Every batch behind the loop is completed, or waits under another reason than "queued". -/
def SettledBehind (index : Nat) (w : World T) : Prop :=
  ∀ b ∈ args.plan.batches.take index, ∀ r ∈ b.requirementIds,
    (∃ c ∈ w.completed, r ∈ c.batch.requirementIds) ∨
      ∃ reason, (r, reason) ∈ w.pending ∧ reason ≠ "queued"

/-- The terminal reasons of a run are never "queued". -/
def TerminalReasons : Prop :=
  ∀ r reason, a.terminalPending.get? r = some reason → reason ≠ "queued"

/-- The requirements of a dispatched batch. -/
def inFlight (call : SaveCall) : Set String :=
  {r | call.dispatched = true ∧ ∃ b, args.plan.batches[call.nextIndex]? = some b ∧
    r ∈ b.requirementIds}

end

section Saved
variable {env : Environment} {args : Arguments T J} {a : Admitted T} {w : World T}
  {call : SaveCall} {e : WorkExecution T}

/-- An unreached requirement without a retained receipt waits; the first batch of a dispatched
save waits for its outcome, the others for their terminal reason or their turn. -/
theorem saved_unreached {receipts : List (CompletedBatch T)}
    (hcheck : args.checkpoint.isSome = true)
    (hpending : ∀ p, p ∈ e.pending ↔ p ∈ w.pending ∨
      p ∈ unreached args a (receipts.flatMap (fun c => c.batch.requirementIds)) call.dispatched
        (args.plan.batches.drop call.nextIndex))
    {b : WorkBatch} (hb : b ∈ args.plan.batches.drop call.nextIndex) {r : String}
    (hr : r ∈ b.requirementIds)
    (hin : r ∉ receipts.flatMap (fun c => c.batch.requirementIds)) :
    (r ∈ inFlight args call → (r, "dispatch-outcome-unknown") ∈ e.pending) ∧
    (r ∉ inFlight args call → (r, (a.terminalPending.get? r).getD "queued") ∈ e.pending) := by
  have hunknown : unreachedReason args a true r = "dispatch-outcome-unknown" := by
    simp [unreachedReason, Option.isNone_iff_eq_none, Option.isSome_iff_ne_none.mp hcheck]
  have hturn : unreachedReason args a false r = (a.terminalPending.get? r).getD "queued" := by
    simp [unreachedReason, Option.isNone_iff_eq_none, Option.isSome_iff_ne_none.mp hcheck]
  cases hdrop : args.plan.batches.drop call.nextIndex with
  | nil => simp [hdrop] at hb
  | cons first rest =>
    have hfirst : args.plan.batches[call.nextIndex]? = some first := by
      simpa using congrArg List.head? hdrop
    rw [hdrop] at hb hpending
    constructor
    · rintro ⟨hdispatched, b', hb', hr'⟩
      cases hb'.symm.trans hfirst
      rw [hpending, mem_unreached_cons, hdispatched]
      exact .inr (.inl ⟨hr', hin, hunknown.symm⟩)
    · intro hnot
      rw [hpending, mem_unreached_cons]
      refine .inr ?_
      rcases List.mem_cons.mp hb with rfl | hb
      · have hdispatched : call.dispatched = false := by
          by_contra hd
          exact hnot ⟨by simpa using hd, b, hfirst, hr⟩
        exact .inl ⟨hr, hin, by rw [hdispatched, hturn]⟩
      · exact .inr (mem_unreached_false.mpr ⟨b, hb, hr, hin, hturn.symm⟩)

/-- A save decides what the loop has decided, and what it dispatches. -/
theorem decidedAt_subset_saved (hcheck : args.checkpoint.isSome = true)
    (hsettled : SettledBehind args call.nextIndex w) (hreasons : TerminalReasons a)
    (h : savedExecution env args a w call.nextIndex call.dispatched = .ok e) :
    decidedAt env args a call.nextIndex ∪ inFlight args call ⊆ decidedBy args.plan e := by
  obtain ⟨receipts, hreceipts, hplan, hcompleted, hpending⟩ := savedExecution_eq hcheck h
  obtain ⟨hkept, hown⟩ := retainedReceipts_spec hreceipts
  have hahead : ∀ b ∈ args.plan.batches.drop call.nextIndex, ∀ r ∈ b.requirementIds,
      (Cached env a b ∨ (a.terminalPending.get? r).isSome ∨ r ∈ inFlight args call) →
      r ∈ decidedBy args.plan e := by
    intro b hb r hr hwhy
    refine ⟨⟨b, List.mem_of_mem_drop hb, hr⟩, ?_⟩
    by_cases hin : r ∈ receipts.flatMap (fun c => c.batch.requirementIds)
    · obtain ⟨c, hc, hrc⟩ := List.mem_flatMap.mp hin
      exact .inl ⟨c, by rw [hcompleted]; exact List.mem_append_right _ hc, hrc⟩
    · obtain ⟨hflight, hturn⟩ := saved_unreached hcheck hpending hb hr hin
      by_cases hnow : r ∈ inFlight args call
      · exact .inr ⟨_, hflight hnow, by decide⟩
      · rcases hwhy with ⟨item, hitem, rfl⟩ | hterminal | hnow'
        · exact absurd (List.mem_flatMap.mpr ⟨item, (hkept _ hb item hitem).1, hr⟩) hin
        · obtain ⟨reason, hreason⟩ := Option.isSome_iff_exists.mp hterminal
          refine .inr ⟨_, hturn hnow, ?_⟩
          rw [hreason]
          exact hreasons r reason hreason
        · exact absurd hnow' hnow
  rintro r ((⟨b, hb, hr⟩ | ⟨b, hb, hr, hwhy⟩) | hnow)
  · refine ⟨⟨b, List.mem_of_mem_take hb, hr⟩, ?_⟩
    rcases hsettled b hb r hr with ⟨c, hc, hrc⟩ | ⟨reason, hmem, hne⟩
    · exact .inl ⟨c, by rw [hcompleted]; exact List.mem_append_left _ hc, hrc⟩
    · exact .inr ⟨reason, (hpending _).mpr (.inl hmem), hne⟩
  · exact hahead b hb r hr (hwhy.imp_right .inl)
  · obtain ⟨hdispatched, b, hb, hr⟩ := hnow
    have hmem : b ∈ args.plan.batches.drop call.nextIndex := by
      have hhead : (args.plan.batches.drop call.nextIndex).head? = some b := by simpa using hb
      exact List.mem_of_mem_head? hhead
    exact hahead b hmem r hr (.inr (.inr ⟨hdispatched, b, hb, hr⟩))

/-- A save decides nothing else. -/
theorem saved_subset_decidedAt (hcheck : args.checkpoint.isSome = true)
    (h : savedExecution env args a w call.nextIndex call.dispatched = .ok e) :
    decidedBy args.plan e ⊆ decidedAt env args a call.nextIndex ∪ inFlight args call := by
  obtain ⟨receipts, hreceipts, hplan, hcompleted, hpending⟩ := savedExecution_eq hcheck h
  obtain ⟨hkept, hown⟩ := retainedReceipts_spec hreceipts
  rintro r ⟨⟨b, hb, hr⟩, hwhy⟩
  by_contra hnot
  have hdrop : b ∈ args.plan.batches.drop call.nextIndex := by
    rw [← List.take_append_drop call.nextIndex args.plan.batches] at hb
    rcases List.mem_append.mp hb with hb | hb
    · exact absurd (.inl (.inl ⟨b, hb, hr⟩)) hnot
    · exact hb
  have hcached : ¬Cached env a b := fun hc => hnot (.inl (.inr ⟨b, hdrop, hr, .inl hc⟩))
  have hterminal : a.terminalPending.get? r = none := by
    rw [← Option.not_isSome_iff_eq_none]
    exact fun ht => hnot (.inl (.inr ⟨b, hdrop, hr, .inr ht⟩))
  have hin : r ∉ receipts.flatMap (fun c => c.batch.requirementIds) := by
    intro hin
    obtain ⟨c, hc, hrc⟩ := List.mem_flatMap.mp hin
    obtain ⟨hcb, hcc⟩ := hown c hc
    have hsame : c.batch = b :=
      ReviewWorkPlan.batch_unique (List.mem_of_mem_drop hcb) hb hrc hr
    exact hcached ⟨c, hsame ▸ hcc, hsame⟩
  have hqueued := (saved_unreached hcheck hpending hdrop hr hin).2 fun hf => hnot (.inr hf)
  rw [hterminal] at hqueued
  obtain ⟨hnot', hone⟩ := WorkExecution.reason_unique hqueued
  rcases hwhy with ⟨c, hc, hrc⟩ | ⟨reason, hmem, hne⟩
  · exact hnot' c hc hrc
  · exact hne (hone reason hmem)

/-- A save holds what the loop holds. -/
theorem held_saved (hcheck : args.checkpoint.isSome = true)
    (h : savedExecution env args a w call.nextIndex call.dispatched = .ok e) :
    {b | ∃ c ∈ e.completed, c.batch = b} = heldAt env args a call.nextIndex w := by
  obtain ⟨receipts, hreceipts, hplan, hcompleted, hpending⟩ := savedExecution_eq hcheck h
  obtain ⟨hkept, hown⟩ := retainedReceipts_spec hreceipts
  ext b
  constructor
  · rintro ⟨c, hc, rfl⟩
    rw [hcompleted] at hc
    rcases List.mem_append.mp hc with hc | hc
    · exact .inl ⟨c, hc, rfl⟩
    · exact .inr ⟨(hown c hc).1, c, (hown c hc).2, rfl⟩
  · rintro (⟨c, hc, rfl⟩ | ⟨hb, item, hitem, rfl⟩)
    · exact ⟨c, by rw [hcompleted]; exact List.mem_append_left _ hc, rfl⟩
    · exact ⟨item, by rw [hcompleted]; exact List.mem_append_right _ (hkept _ hb item hitem).1, rfl⟩

end Saved
end ReviewSensei.Execution
