import ReviewSensei.PlanWorkSteps

/-! A work plan accounts for every requirement, emits only batches that were admitted as a whole,
and does not depend on the order in which the requirements came. -/
namespace ReviewSensei.WorkPlanning
open Execution

variable {σ : Type} {stage : Stage σ} {env : σ} {p p' : Pass σ}
  {item : WorkRequirement} {candidates items placed : List WorkRequirement}

/-- The order of two requirements with different identities is strict. -/
theorem itemOrder_injective {a b : WorkRequirement} (h : itemOrder stage a = itemOrder stage b) :
    a.identity = b.identity := by
  have hpair := congrArg ofLex h
  exact congrArg Prod.snd hpair

theorem sortedItems_perm (stage : Stage σ) (items : List WorkRequirement) : (sortedItems stage items).Perm items :=
  List.perm_insertionSort _ items

theorem sortedItems_sorted (items : List WorkRequirement) :
    (sortedItems stage items).Pairwise (fun a b => itemOrder stage a ≤ itemOrder stage b) := by
  have htotal : Std.Total (fun a b : WorkRequirement => itemOrder stage a ≤ itemOrder stage b) :=
    ⟨fun a b => le_total (itemOrder stage a) (itemOrder stage b)⟩
  have htrans : IsTrans WorkRequirement (fun a b => itemOrder stage a ≤ itemOrder stage b) :=
    ⟨fun _ _ _ hab hbc => le_trans hab hbc⟩
  exact List.pairwise_insertionSort _ items

/-- Requirements with identities of their own have one sorted order. -/
theorem sortedItems_eq (stage : Stage σ) {items' : List WorkRequirement} (h : items.Perm items')
    (hnodup : (items.map WorkRequirement.identity).Nodup) :
    sortedItems stage items = sortedItems stage items' := by
  have hperm : (sortedItems stage items).Perm (sortedItems stage items') :=
    (sortedItems_perm stage items).trans (h.trans (sortedItems_perm stage items').symm)
  refine List.Perm.eq_of_pairwise ?_ (sortedItems_sorted items) (sortedItems_sorted items') hperm
  intro a b ha hb hab hba
  have ha' := (sortedItems_perm stage items).mem_iff.mp ha
  have hb' := (sortedItems_perm stage items).mem_iff.mp (hperm.mem_iff.mpr hb)
  exact List.inj_on_of_nodup_map hnodup ha' hb' (itemOrder_injective (le_antisymm hab hba))

/-- The whole run, whatever it ends in, is the same for every order of the requirements. -/
theorem planWork_perm (evidenceDigest : DigestDocument → String) {items' : List WorkRequirement}
    (h : items.Perm items') :
    planWork stage evidenceDigest env items = planWork stage evidenceDigest env items' := by
  have hids := h.map WorkRequirement.identity
  by_cases hnodup : (items.map WorkRequirement.identity).Nodup
  · have hnodup' := hids.nodup_iff.mp hnodup
    simp only [planWork, sortedItems_eq stage h hnodup, hnodup, hnodup']
  · have hnodup' : ¬ (items'.map WorkRequirement.identity).Nodup := fun hn =>
      hnodup (hids.nodup_iff.mpr hn)
    simp only [planWork, hnodup, hnodup', not_false_eq_true, if_true]

theorem reviewWorkPlan_ok {evidenceDigest : DigestDocument → String}
    {batches : List WorkBatch} {unprocessed : List (String × String)} {plan : ReviewWorkPlan}
    (h : reviewWorkPlan stage evidenceDigest items batches unprocessed = .ok plan) :
    plan.requirements = items ∧ plan.batches = batches ∧ plan.unprocessed = unprocessed ∧
      plan.mode = stage.mode := by
  unfold reviewWorkPlan at h
  split_ifs at h
  cases h
  exact ⟨rfl, rfl, rfl, rfl⟩

/-- What the emitted batches of a plan are. -/
structure Emits (stage : Stage σ) (env : σ) (items : List WorkRequirement)
    (plan : ReviewWorkPlan) : Prop where
  requirements : plan.requirements.Perm items
  once : (plan.batches.flatMap WorkBatch.requirementIds ++ plan.unprocessed.map Prod.fst).Perm
    (items.map WorkRequirement.identity)
  distinct : (items.map WorkRequirement.identity).Nodup
  calls : plan.batches.length ≤ stage.maxBatches ∧
    ∀ budget, stage.budgets.resourceBudget = some budget →
      plan.batches.length ≤ budget.maxProviderCalls
  unsplit : ∀ b ∈ plan.batches, ∀ q ∈ b.requirements, q ∈ items ∧
    ∀ key ∈ q.evidenceIds, key ∈ b.evidenceIds
  admitted : ∀ b ∈ plan.batches, Admitted stage env b

theorem batchCeiling_le (stage : Stage σ) :
    batchCeiling stage ≤ stage.maxBatches ∧ ∀ budget,
      stage.budgets.resourceBudget = some budget → batchCeiling stage ≤ budget.maxProviderCalls := by
  unfold batchCeiling
  split
  next budget hbudget =>
    refine ⟨min_le_left _ _, fun other hother => ?_⟩
    rw [Option.some.inj (hother.symm.trans hbudget)]
    exact min_le_right _ _
  next hnone =>
    exact ⟨le_refl _, fun other hother => absurd (hother.symm.trans hnone) (by simp)⟩

/-- After the last flush every requirement is in a batch or unprocessed. -/
theorem packed_closed (h : Packed stage env placed p) (hempty : p.current = []) :
    (p.batches.flatMap WorkBatch.requirementIds ++ (sortedPending p.unprocessed).map Prod.fst).Perm
      (placed.map WorkRequirement.identity) := by
  have hsorted : (sortedPending p.unprocessed).Perm p.unprocessed := List.perm_insertionSort _ _
  have hall := h.accounted
  rw [hempty, List.map_nil, List.append_nil] at hall
  exact ((hsorted.map Prod.fst).append_left _).trans hall

theorem planWork_emits {evidenceDigest : DigestDocument → String} {plan : ReviewWorkPlan}
    (h : planWork stage evidenceDigest env items = .ok plan) : Emits stage env items plan := by
  unfold planWork at h
  split at h
  · cases h
  split at h
  · cases h
  next hdistinct =>
  obtain ⟨packed, hpacked, h⟩ := bound_ok h
  obtain ⟨p, hflush, h⟩ := bound_ok h
  have hsorted := sortedItems_perm stage items
  have hloop := (packed_start env).afterItems hpacked
  rw [List.nil_append] at hloop
  obtain ⟨hclosed, hempty⟩ := hloop.afterFlush hflush
  obtain ⟨hreq, hbatches, hunprocessed, -⟩ := reviewWorkPlan_ok h
  obtain ⟨hmax, hcalls⟩ := batchCeiling_le stage
  refine ⟨hreq ▸ hsorted, ?_, not_not.mp hdistinct, ?_, ?_, ?_⟩
  · rw [hbatches, hunprocessed]
    exact (packed_closed hclosed hempty).trans (hsorted.map _)
  · rw [hbatches]
    exact ⟨hclosed.ceiling.trans hmax, fun b hb => hclosed.ceiling.trans (hcalls b hb)⟩
  · rw [hbatches]
    intro b hb q hq
    refine ⟨hsorted.mem_iff.mp (hclosed.members b hb q hq), fun key hkey => ?_⟩
    exact ((hclosed.emitted b hb).whole key).mpr ⟨q, hq, hkey⟩
  · rw [hbatches]
    exact hclosed.emitted

/-- A renderer that refuses a batch or renders a request whose size can be judged. -/
def Quiet (stage : Stage σ) : Prop :=
  ∀ e batch, match (stage.renderer.render e batch).1 with
    | .request request => ∃ answer, stage.budgets.fitsPrompt (corrected stage request.prompt)
        request.maxOutputTokens = .ok answer
    | .refused _ => True
    | .notARequest => False
    | .raised _ => False

theorem judged_total (hquiet : Quiet stage) (p : Pass σ) (e : σ) (batch : WorkBatch) :
    ∃ result, judged stage p (stage.renderer.render e batch).1 = .ok result := by
  have h := hquiet e batch
  cases hrendered : (stage.renderer.render e batch).1 with
  | request request =>
    rw [hrendered] at h
    obtain ⟨answer, hanswer⟩ := h
    exact ⟨(answer, p), by rw [judged, hanswer]; rfl⟩
  | refused category => exact ⟨_, rfl⟩
  | notARequest =>
    rw [hrendered] at h
    exact h.elim
  | raised error =>
    rw [hrendered] at h
    exact h.elim

theorem fits_total (hquiet : Quiet stage) (h : Buildable stage candidates) (p : Pass σ) :
    ∃ result, fits stage p candidates = .ok result := by
  unfold fits
  split
  · exact ⟨_, rfl⟩
  obtain ⟨batch, hbatch⟩ := batchFor_total h
  rw [hbatch]
  change ∃ result, (if overBudget stage candidates batch = true then _ else _) = _
  split
  · exact ⟨_, rfl⟩
  · exact judged_total hquiet _ _ batch

theorem flush_total (h : p.current ≠ [] → Buildable stage p.current) :
    ∃ p', flush stage p = .ok p' := by
  unfold flush
  split
  · exact ⟨_, rfl⟩
  next hne =>
  split
  · obtain ⟨batch, hbatch⟩ := batchFor_total (h hne)
    exact ⟨_, by rw [hbatch]; rfl⟩
  · exact ⟨_, rfl⟩

/-- The open batch, alone or with one more item, can always be built. -/
theorem Packed.buildable (h : Packed stage env placed p)
    (hdistinct : (placed.map WorkRequirement.identity).Nodup)
    (hevidence : ∀ q ∈ placed, q.evidenceIds ≠ []) (hne : p.current ≠ []) :
    Buildable stage p.current := by
  refine ⟨hne, ?_, fun q hq => hevidence q (h.available q hq).1,
    fun q hq => (evidenceMissing_false (h.available q hq).2).1⟩
  have hall := h.accounted.nodup_iff.mpr hdistinct
  exact (List.nodup_append.mp (List.nodup_append.mp hall).1).2.1

theorem Packed.buildable_with (h : Packed stage env placed p)
    (hdistinct : ((placed ++ [item]).map WorkRequirement.identity).Nodup)
    (hevidence : ∀ q ∈ placed ++ [item], q.evidenceIds ≠ [])
    (hitem : evidenceMissing stage item = false) : Buildable stage (p.current ++ [item]) := by
  refine ⟨List.append_ne_nil_of_right_ne_nil _ (List.cons_ne_nil _ _), ?_, ?_, ?_⟩
  · have hall := (h.accounted.append_right [item.identity]).nodup_iff.mpr
      (by simpa using hdistinct)
    have hsub : List.Sublist (p.current.map WorkRequirement.identity ++ [item.identity])
        (p.batches.flatMap WorkBatch.requirementIds ++ p.current.map WorkRequirement.identity ++
          p.unprocessed.map Prod.fst ++ [item.identity]) :=
      ((List.sublist_append_right _ _).trans (List.sublist_append_left _ _)).append
        (List.Sublist.refl _)
    simpa using hall.sublist hsub
  · intro q hq
    rcases List.mem_append.mp hq with hq | hq
    · exact hevidence q (List.mem_append_left _ (h.available q hq).1)
    · exact hevidence q (List.mem_append_right _ hq)
  · intro q hq
    rcases List.mem_append.mp hq with hq | hq
    · exact (evidenceMissing_false (h.available q hq).2).1
    · rw [List.mem_singleton.mp hq]
      exact (evidenceMissing_false hitem).1

theorem Packed.room_total (hquiet : Quiet stage) (h : Packed stage env placed p)
    (hdistinct : ((placed ++ [item]).map WorkRequirement.identity).Nodup)
    (hevidence : ∀ q ∈ placed ++ [item], q.evidenceIds ≠ [])
    (hitem : evidenceMissing stage item = false) : ∃ p', makeRoom stage p item = .ok p' := by
  unfold makeRoom
  split
  · exact ⟨_, rfl⟩
  obtain ⟨⟨together, p₁⟩, hprobe⟩ :=
    fits_total hquiet (h.buildable_with hdistinct hevidence hitem) p
  rw [hprobe]
  change ∃ p', (if together = true then _ else _) = _
  split
  · exact ⟨_, rfl⟩
  · have hplaced : (placed.map WorkRequirement.identity).Nodup := by
      rw [List.map_append] at hdistinct
      exact (List.nodup_append.mp hdistinct).1
    exact flush_total ((h.probed (fits_ok hprobe h.later).1).buildable hplaced
      (fun q hq => hevidence q (List.mem_append_left _ hq)))

theorem Packed.item_total (hquiet : Quiet stage) (h : Packed stage env placed p)
    (hdistinct : ((placed ++ [item]).map WorkRequirement.identity).Nodup)
    (hevidence : ∀ q ∈ placed ++ [item], q.evidenceIds ≠ []) :
    ∃ p', packItem stage p item = .ok p' := by
  unfold packItem
  split
  · exact ⟨_, rfl⟩
  next hthere =>
  have hitem := Bool.eq_false_iff.mpr hthere
  have halone : Buildable stage [item] :=
    ⟨List.cons_ne_nil _ _, List.nodup_singleton _,
      fun q hq => hevidence q (List.mem_append_right _ hq),
      fun q hq => List.mem_singleton.mp hq ▸ (evidenceMissing_false hitem).1⟩
  obtain ⟨⟨alone, p₁⟩, hprobe⟩ := fits_total hquiet halone p
  rw [hprobe]
  change ∃ p', (if alone = true then _ else _) = _
  split
  · obtain ⟨p₂, hroom⟩ := (h.probed (fits_ok hprobe h.later).1).room_total hquiet
      hdistinct hevidence hitem
    exact ⟨_, by rw [hroom]; rfl⟩
  · exact ⟨_, rfl⟩

theorem Packed.items_total {rest : List WorkRequirement} (hquiet : Quiet stage)
    (h : Packed stage env placed p)
    (hdistinct : ((placed ++ rest).map WorkRequirement.identity).Nodup)
    (hevidence : ∀ q ∈ placed ++ rest, q.evidenceIds ≠ []) :
    ∃ p', packItems stage p rest = .ok p' := by
  induction rest generalizing p placed with
  | nil => exact ⟨p, rfl⟩
  | cons item rest ih =>
    rw [List.append_cons] at hdistinct hevidence
    obtain ⟨p₁, hitem⟩ := h.item_total hquiet
      ((List.map_append ▸ hdistinct : (List.map _ _ ++ List.map _ _).Nodup).of_append_left)
      (fun q hq => hevidence q (List.mem_append_left _ hq))
    obtain ⟨p₂, hrest⟩ := ih (h.afterItem hitem) hdistinct hevidence
    exact ⟨p₂, by rw [packItems, hitem]; exact hrest⟩

/-- The plan of the last flush passes its own checks. -/
theorem reviewWorkPlan_total (evidenceDigest : DigestDocument → String)
    (h : Packed stage env items p) (hempty : p.current = []) (hsize : items.length ≤ 40000)
    (hdistinct : (items.map WorkRequirement.identity).Nodup) :
    ∃ plan, reviewWorkPlan stage evidenceDigest items p.batches (sortedPending p.unprocessed) =
      .ok plan := by
  have hplanned : p.batches.all (batchPlanned stage items) = true := by
    rw [List.all_eq_true]
    intro b hb
    rw [batchPlanned, Bool.and_eq_true, Bool.and_eq_true]
    refine ⟨⟨decide_eq_true (h.emitted b hb).mode, ?_⟩, ?_⟩
    · exact List.all_eq_true.mpr (fun q hq => decide_eq_true (h.members b hb q hq))
    · refine List.all_eq_true.mpr (fun r hr => ?_)
      obtain ⟨hsome, hsnapshot⟩ := (h.planned b hb).records r hr
      rw [hsome, hsnapshot, decide_eq_true rfl]
      rfl
  unfold reviewWorkPlan
  rw [if_neg (Nat.not_lt.mpr hsize), if_neg (by rw [hplanned]; simp),
    dif_pos ⟨packed_closed h hempty, hdistinct⟩]
  exact ⟨_, rfl⟩

/-- What the callers of `plan_work` bring: valid requirements, and a renderer that only refuses. -/
structure Ready (stage : Stage σ) (items : List WorkRequirement) : Prop where
  batches : 1 ≤ stage.maxBatches ∧ stage.maxBatches ≤ 32
  distinct : (items.map WorkRequirement.identity).Nodup
  evidence : ∀ q ∈ items, q.evidenceIds ≠ []
  size : items.length ≤ 40000
  quiet : Quiet stage

theorem planWork_total (evidenceDigest : DigestDocument → String) (env : σ)
    (h : Ready stage items) : ∃ plan, planWork stage evidenceDigest env items = .ok plan := by
  have hsorted := sortedItems_perm stage items
  have hdistinct := (hsorted.map WorkRequirement.identity).nodup_iff.mpr h.distinct
  have hevidence : ∀ q ∈ sortedItems stage items, q.evidenceIds ≠ [] :=
    fun q hq => h.evidence q (hsorted.mem_iff.mp hq)
  have hitems : ∃ packed, packItems stage { env } (sortedItems stage items) = .ok packed := by
    apply (packed_start env).items_total h.quiet
    · exact hdistinct
    · exact hevidence
  obtain ⟨packed, hpacked⟩ := hitems
  have hloop := (packed_start env).afterItems hpacked
  rw [List.nil_append] at hloop
  obtain ⟨p, hflush⟩ := flush_total (hloop.buildable hdistinct hevidence)
  obtain ⟨hclosed, hempty⟩ := hloop.afterFlush hflush
  obtain ⟨plan, hplan⟩ := reviewWorkPlan_total evidenceDigest hclosed hempty
    (hsorted.length_eq ▸ h.size) hdistinct
  have hmax : ¬ (stage.maxBatches < 1 ∨ 32 < stage.maxBatches) := by
    have hbounds := h.batches
    omega
  refine ⟨plan, ?_⟩
  rw [planWork, if_neg hmax, if_neg (not_not.mpr h.distinct), hpacked]
  change (flush stage packed >>= _) = _
  rw [hflush]
  exact hplan

/-- Every plan accounts for every requirement exactly once, within its calls, in batches that were
admitted as a whole; the order of the requirements does not matter, and ready callers get a plan. -/
theorem work_plan_accounts (stage : Stage σ) (evidenceDigest : DigestDocument → String) (env : σ)
    (items : List WorkRequirement) :
    (∀ plan, planWork stage evidenceDigest env items = .ok plan → Emits stage env items plan) ∧
    (∀ items', items.Perm items' →
      planWork stage evidenceDigest env items = planWork stage evidenceDigest env items') ∧
    (Ready stage items → ∃ plan, planWork stage evidenceDigest env items = .ok plan) :=
  ⟨fun _ h => planWork_emits h, fun _ h => planWork_perm evidenceDigest h,
    planWork_total evidenceDigest env⟩

/-- A reassessment of two files whose renderer has time for one request. -/
def expiringStage : Stage Nat where
  mode := .reassessment
  bundle := {
    snapshot := "head"
    records := [⟨"1", "b.py", "@@ -1 +1 @@", "", true, none⟩,
      ⟨"2", "a.py", "@@ -1 +1 @@", "", true, none⟩]
    enumerationComplete := true
    digest := ""
    idsNodup := by decide }
  budgets := ⟨4096, 4096, 4096, 4096, 4096, 8, false, none, none, none⟩
  renderer := ⟨fun left batch => match left with
    | 0 => (.refused (some "planning_deadline_exhausted"), 0)
    | n + 1 => (.request { prompt := String.join batch.requirementIds }, n)⟩

def expiringItems : List WorkRequirement := [⟨"first", ["1"], []⟩, ⟨"second", ["2"], []⟩]

theorem expiring_quiet : Quiet expiringStage := by
  intro e batch
  cases e with
  | zero => exact trivial
  | succ n =>
    change ∃ answer, EffectiveWorkBudget.fitsPrompt _ _ _ = .ok answer
    unfold EffectiveWorkBudget.fitsPrompt
    split
    · exact ⟨false, rfl⟩
    · exact ⟨true, rfl⟩

theorem expiring_plan_accounts :
    ∃ plan, planWork expiringStage (fun _ => "") 1 expiringItems = .ok plan ∧
      Emits expiringStage 1 expiringItems plan := by
  obtain ⟨hemits, -, htotal⟩ := work_plan_accounts expiringStage (fun _ => "") 1 expiringItems
  obtain ⟨plan, hplan⟩ := htotal ⟨by decide, by decide, by decide, by decide, expiring_quiet⟩
  exact ⟨plan, hplan, hemits plan hplan⟩

/-- The deadline passes after the first probe; the batch that it admitted is still emitted. -/
example : (planWork expiringStage (fun _ => "") 1 expiringItems).toOption.map
      (fun plan => (plan.batches.map WorkBatch.requirementIds, plan.unprocessed)) =
    some ([["second"]], [("first", "planning-deadline-exceeded")]) := by
  decide

end ReviewSensei.WorkPlanning
