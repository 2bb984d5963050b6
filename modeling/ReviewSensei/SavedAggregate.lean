import Mathlib.Data.List.Pairwise
import ReviewSensei.SaveNaming

/-! Which requirements a saved aggregate has decided. Requirements of a saved plan are decided
once their batch is completed or waits under another reason than "queued". -/
namespace ReviewSensei.Execution
open ReviewSensei.Effects

section Plan
variable {plan : ReviewWorkPlan}

/-- Two batches of a plan that share a requirement are one. -/
theorem ReviewWorkPlan.batch_unique {b b' : WorkBatch} (hb : b ∈ plan.batches)
    (hb' : b' ∈ plan.batches) {r : String} (hr : r ∈ b.requirementIds)
    (hr' : r ∈ b'.requirementIds) : b = b' := by
  by_contra hne
  have hnodup : (plan.batches.flatMap WorkBatch.requirementIds).Nodup :=
    (List.nodup_append.mp (plan.accounted.nodup_iff.mpr plan.identitiesNodup)).1
  have hpair := (List.nodup_flatMap.mp hnodup).2
  have : Std.Symm (Function.onFun List.Disjoint WorkBatch.requirementIds) :=
    ⟨fun _ _ h _ hx hy => h hy hx⟩
  exact hpair.forall hb hb' hne hr hr'

end Plan

variable {T J : Type}

section
variable {env : Environment} {args : Arguments T J} {a : Admitted T}

theorem revalidated_batch {previous : CompletedBatch T} {batch : WorkBatch}
    (h : revalidated env args a previous batch = .ok true) : previous.batch = batch := by
  unfold revalidated at h
  split at h
  · rename_i hb
    exact hb.1
  · cases h

theorem retainedReceipt_eq {batch : WorkBatch} {x : Option (CompletedBatch T)}
    (h : retainedReceipt env args a batch = .ok x) :
    x = a.cached.get? (batch.batchId env.evidenceDigest) ∧
      ∀ previous, x = some previous → revalidated env args a previous batch = .ok true := by
  unfold retainedReceipt at h
  split at h
  · rename_i hnone
    cases h
    refine ⟨hnone.symm, fun _ he => ?_⟩
    cases he
  · rename_i previous hsome
    cases hv : revalidated env args a previous batch with
    | error e =>
      rw [hv] at h
      cases h
    | ok holds =>
      rw [hv] at h
      cases holds with
      | false => cases h
      | true =>
        cases h
        refine ⟨hsome.symm, fun p hp => ?_⟩
        cases hp
        exact hv

/-- Every cached receipt of the unreached batches is retained, for its own batch. -/
theorem retainedReceipts_spec {batches : List WorkBatch} {receipts : List (CompletedBatch T)}
    (h : retainedReceipts env args a batches = .ok receipts) :
    (∀ b ∈ batches, ∀ item, a.cached.get? (b.batchId env.evidenceDigest) = some item →
      item ∈ receipts ∧ revalidated env args a item b = .ok true) ∧
    ∀ c ∈ receipts, c.batch ∈ batches ∧
      a.cached.get? (c.batch.batchId env.evidenceDigest) = some c := by
  induction batches generalizing receipts with
  | nil =>
    cases h
    exact ⟨fun _ hb => (nomatch hb), fun _ hc => (nomatch hc)⟩
  | cons batch rest ih =>
    unfold retainedReceipts at h
    cases hone : retainedReceipt env args a batch with
    | error e =>
      rw [hone] at h
      cases h
    | ok x =>
      cases hrest : retainedReceipts env args a rest with
      | error e =>
        rw [hone, hrest] at h
        cases h
      | ok others =>
        rw [hone, hrest] at h
        cases h
        obtain ⟨hx, hvalid⟩ := retainedReceipt_eq hone
        obtain ⟨hkept, hown⟩ := ih hrest
        constructor
        · intro b hb item hitem
          rcases List.mem_cons.mp hb with rfl | hb
          · have hsome : x = some item := hx.trans hitem
            exact ⟨List.mem_append_left _ (by simp [hsome]), hvalid item hsome⟩
          · exact ⟨List.mem_append_right _ (hkept b hb item hitem).1, (hkept b hb item hitem).2⟩
        · intro c hc
          rcases List.mem_append.mp hc with hc | hc
          · have hsome : x = some c := by simpa using hc
            have hbatch := revalidated_batch (hvalid c hsome)
            exact ⟨by simp [hbatch], by rw [hbatch, ← hx, hsome]⟩
          · exact ⟨List.mem_cons_of_mem _ (hown c hc).1, (hown c hc).2⟩

theorem mem_unreached_false {ids : List String} {batches : List WorkBatch} {p : String × String} :
    p ∈ unreached args a ids false batches ↔ ∃ b ∈ batches, p.1 ∈ b.requirementIds ∧ p.1 ∉ ids ∧
      p.2 = unreachedReason args a false p.1 := by
  obtain ⟨r, reason⟩ := p
  induction batches with
  | nil => simp [unreached]
  | cons batch rest ih =>
    simp only [unreached, List.mem_append, List.mem_map, List.mem_filter, ih, List.mem_cons,
      exists_eq_or_imp]
    grind

theorem mem_unreached_cons {ids : List String} {dispatched : Bool} {batch : WorkBatch}
    {rest : List WorkBatch} {p : String × String} :
    p ∈ unreached args a ids dispatched (batch :: rest) ↔
      (p.1 ∈ batch.requirementIds ∧ p.1 ∉ ids ∧ p.2 = unreachedReason args a dispatched p.1) ∨
      p ∈ unreached args a ids false rest := by
  obtain ⟨r, reason⟩ := p
  simp only [unreached, List.mem_append, List.mem_map, List.mem_filter]
  grind

theorem mem_sortedPending {pending : List (String × String)} {p : String × String} :
    p ∈ sortedPending pending ↔ p ∈ pending :=
  List.mem_insertionSort _

/-- A completed requirement does not wait, and a waiting one has one reason. -/
theorem WorkExecution.reason_unique {e : WorkExecution T} {r reason : String}
    (h : (r, reason) ∈ e.pending) :
    (∀ c ∈ e.completed, r ∉ c.batch.requirementIds) ∧
      ∀ reason', (r, reason') ∈ e.pending → reason' = reason := by
  have hnodup := List.nodup_append.mp e.assignedNodup
  constructor
  · intro c hc hr
    exact hnodup.2.2 r (List.mem_flatMap.mpr ⟨c, hc, hr⟩) r (List.mem_map_of_mem h) rfl
  · intro reason' h'
    have := List.inj_on_of_nodup_map hnodup.2.1 h' h rfl
    exact (Prod.mk.inj this).2

/-- What a successful save was built from. -/
theorem savedExecution_eq {w : World T} {nextIndex : Nat} {dispatched : Bool}
    {e : WorkExecution T} (hcheck : args.checkpoint.isSome = true)
    (h : savedExecution env args a w nextIndex dispatched = .ok e) :
    ∃ receipts, retainedReceipts env args a (args.plan.batches.drop nextIndex) = .ok receipts ∧
      e.plan = args.plan ∧ e.completed = w.completed ++ receipts ∧
      ∀ p, p ∈ e.pending ↔ p ∈ w.pending ∨
        p ∈ unreached args a (receipts.flatMap (fun c => c.batch.requirementIds)) dispatched
          (args.plan.batches.drop nextIndex) := by
  unfold savedExecution at h
  dsimp only at h
  have hsave : saveReceipts env args a (args.plan.batches.drop nextIndex) =
      retainedReceipts env args a (args.plan.batches.drop nextIndex) := if_pos hcheck
  rw [hsave] at h
  cases hreceipts : retainedReceipts env args a (args.plan.batches.drop nextIndex) with
  | error exc =>
    rw [hreceipts] at h
    cases h
  | ok receipts =>
    rw [hreceipts] at h
    obtain ⟨hplan, hcompleted, hpending, -⟩ := WorkExecution.make_eq h
    refine ⟨receipts, rfl, hplan, hcompleted, fun p => ?_⟩
    rw [hpending, mem_sortedPending, List.mem_append]

end
end ReviewSensei.Execution
