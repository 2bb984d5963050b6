import Mathlib.Data.List.Dedup
import ReviewSensei.PlanWork

/-! What one probe, one flush and one item leave of a work plan that is being packed. -/
namespace ReviewSensei.WorkPlanning
open Execution

theorem bound_ok {ε α β : Type} {x : Except ε α} {f : α → Except ε β} {b : β}
    (h : (x >>= f) = .ok b) : ∃ a, x = .ok a ∧ f a = .ok b := by
  cases x with
  | error e => cases h
  | ok a => exact ⟨a, rfl, h⟩

theorem Bundle.byId_some {bundle : Bundle} {key : String} {record : Evidence}
    (h : bundle.byId key = some record) : record ∈ bundle.records ∧ record.evidenceId = key :=
  ⟨List.mem_of_find?_eq_some h, by simpa using List.find?_some h⟩

/-- What the renderer may have become since planning started. -/
inductive Later {σ : Type} (renderer : Renderer σ) (env : σ) : σ → Prop
  | start : Later renderer env env
  | asked {e : σ} (batch : WorkBatch) :
    Later renderer env e → Later renderer env (renderer.render e batch).2

/-- The batch as a whole was rendered within the budgets at some point of planning. -/
structure Fits {σ : Type} (stage : Stage σ) (env : σ) (batch : WorkBatch) : Prop where
  bytes : (diffContext stage batch).utf8ByteSize ≤ stage.budgets.batchDiffBytes
  rendered : ∃ e request, Later stage.renderer env e ∧
    (stage.renderer.render e batch).1 = .request request ∧
    stage.budgets.fitsPrompt (corrected stage request.prompt) request.maxOutputTokens = .ok true
  findings : stage.mode = .reassessment →
    batch.requirements.length ≤ stage.budgets.maxFindingsPerBatch

/-- A batch that a plan may emit. -/
structure Admitted {σ : Type} (stage : Stage σ) (env : σ) (batch : WorkBatch) : Prop
    extends Fits stage env batch where
  mode : batch.mode = stage.mode
  whole : ∀ key, key ∈ batch.evidenceIds ↔ ∃ q ∈ batch.requirements, key ∈ q.evidenceIds
  present : ∀ key ∈ batch.evidenceIds, ∃ r ∈ stage.bundle.records, r.evidenceId = key
  complete : stage.mode = .reassessment → stage.bundle.enumerationComplete = true ∧
    ∀ key ∈ batch.evidenceIds, ∀ r ∈ stage.bundle.records, r.evidenceId = key → r.complete = true

variable {σ : Type} {stage : Stage σ} {env : σ} {p p' : Pass σ}
  {item : WorkRequirement} {candidates items placed : List WorkRequirement}

theorem mapM_recordOf {keys : List String} {records : List Evidence}
    (h : keys.mapM (recordOf stage) = .ok records) :
    records.map Evidence.evidenceId = keys ∧
      ∀ r ∈ records, stage.bundle.byId r.evidenceId = some r := by
  induction keys generalizing records with
  | nil =>
    rw [List.mapM_nil] at h
    obtain rfl : [] = records := Except.ok.inj h
    exact ⟨rfl, fun r hr => absurd hr List.not_mem_nil⟩
  | cons key rest ih =>
    rw [List.mapM_cons] at h
    obtain ⟨record, hrecord, h⟩ := bound_ok h
    obtain ⟨others, hothers, h⟩ := bound_ok h
    obtain rfl : record :: others = records := Except.ok.inj h
    obtain ⟨hids, hfound⟩ := ih hothers
    have hkey : stage.bundle.byId key = some record := by
      unfold recordOf at hrecord
      split at hrecord
      next r hr => rw [hr, Except.ok.inj hrecord]
      next => cases hrecord
    have hid := (Bundle.byId_some hkey).2
    refine ⟨by rw [List.map_cons, hids, hid], ?_⟩
    intro r hr
    rcases List.mem_cons.mp hr with heq | hr
    · rw [heq, hid, hkey]
    · exact hfound r hr

theorem mapM_recordOf_total {keys : List String}
    (h : ∀ key ∈ keys, (stage.bundle.byId key).isSome = true) :
    ∃ records, keys.mapM (recordOf stage) = .ok records := by
  induction keys with
  | nil => exact ⟨[], rfl⟩
  | cons key rest ih =>
    obtain ⟨others, hothers⟩ := ih (fun k hk => h k (List.mem_cons_of_mem _ hk))
    obtain ⟨record, hrecord⟩ := Option.isSome_iff_exists.mp (h key List.mem_cons_self)
    have hkey : recordOf stage key = .ok record := by rw [recordOf, hrecord]
    exact ⟨record :: others, by rw [List.mapM_cons, hkey, hothers]; rfl⟩

/-- The records of a selection are those that the candidates require, each of them once. -/
theorem selected_ok {records : List Evidence} (h : selected stage candidates = .ok records) :
    (records.map Evidence.evidenceId).Perm
        (candidates.flatMap WorkRequirement.evidenceIds).dedup ∧
      ∀ r ∈ records, stage.bundle.byId r.evidenceId = some r := by
  obtain ⟨found, hfound, h⟩ := bound_ok h
  obtain rfl := Except.ok.inj h
  obtain ⟨hids, hby⟩ := mapM_recordOf hfound
  have hperm := List.perm_insertionSort (fun a b => evidenceOrder a ≤ evidenceOrder b) found
  exact ⟨hids ▸ hperm.map _, fun r hr => hby r (hperm.mem_iff.mp hr)⟩

theorem named_ids (stage : Stage σ) (records : List Evidence) :
    (named stage records).map EvidenceRecord.evidenceId = records.map Evidence.evidenceId := by
  rw [named, List.map_map]
  rfl

theorem workBatch_ok {mode : WorkMode} {requirements : List WorkRequirement}
    {records : List EvidenceRecord} {b : WorkBatch}
    (h : workBatch mode requirements records = .ok b) :
    b.mode = mode ∧ b.requirements = requirements ∧ b.records = records := by
  unfold workBatch at h
  split_ifs at h
  cases h
  exact ⟨rfl, rfl, rfl⟩

/-- The batch of some candidates: just these requirements with just their evidence. -/
structure Gathers (stage : Stage σ) (candidates : List WorkRequirement) (b : WorkBatch) :
    Prop where
  mode : b.mode = stage.mode
  requirements : b.requirements = candidates
  evidence : ∀ key, key ∈ b.evidenceIds ↔ ∃ q ∈ candidates, key ∈ q.evidenceIds
  records : ∀ r ∈ b.records,
    (stage.bundle.byId r.evidenceId).isSome = true ∧ r.snapshot = stage.bundle.snapshot

theorem batchFor_ok {b : WorkBatch} (h : batchFor stage candidates = .ok b) :
    Gathers stage candidates b := by
  obtain ⟨records, hrecords, h⟩ := bound_ok h
  obtain ⟨hperm, hby⟩ := selected_ok hrecords
  obtain ⟨hmode, hreq, hrec⟩ := workBatch_ok h
  refine ⟨hmode, hreq, ?_, ?_⟩
  · intro key
    rw [WorkBatch.evidenceIds, hrec, named_ids, hperm.mem_iff, List.mem_dedup, List.mem_flatMap]
  · intro r hr
    rw [hrec, named, List.mem_map] at hr
    obtain ⟨record, hrecord, rfl⟩ := hr
    exact ⟨Option.isSome_iff_exists.mpr ⟨record, hby record hrecord⟩, rfl⟩

/-- Candidates whose batch can be built. -/
structure Buildable (stage : Stage σ) (candidates : List WorkRequirement) : Prop where
  nonempty : candidates ≠ []
  distinct : (candidates.map WorkRequirement.identity).Nodup
  evidence : ∀ q ∈ candidates, q.evidenceIds ≠ []
  present : ∀ q ∈ candidates, ∀ key ∈ q.evidenceIds, (stage.bundle.byId key).isSome = true

theorem dedup_replicate {n : Nat} (s : String) (h : 0 < n) :
    (List.replicate n s).dedup.length = 1 := by
  rw [List.replicate_dedup (Nat.pos_iff_ne_zero.mp h)]
  rfl

theorem batchFor_total (h : Buildable stage candidates) : ∃ b, batchFor stage candidates = .ok b := by
  have hpresent : ∀ key ∈ (candidates.flatMap WorkRequirement.evidenceIds).dedup,
      (stage.bundle.byId key).isSome = true := by
    intro key hkey
    obtain ⟨q, hq, hkey⟩ := List.mem_flatMap.mp (List.mem_dedup.mp hkey)
    exact h.present q hq key hkey
  obtain ⟨found, hfound⟩ := mapM_recordOf_total hpresent
  have hselected : selected stage candidates =
      .ok (found.insertionSort (fun a b => evidenceOrder a ≤ evidenceOrder b)) := by
    rw [selected, hfound]
    rfl
  obtain ⟨hperm, -⟩ := selected_ok hselected
  generalize found.insertionSort (fun a b => evidenceOrder a ≤ evidenceOrder b) = records
    at hselected hperm
  have hids := named_ids stage records
  have hsome : 0 < records.length := by
    obtain ⟨q, hq⟩ := List.exists_mem_of_ne_nil _ h.nonempty
    obtain ⟨key, hkey⟩ := List.exists_mem_of_ne_nil _ (h.evidence q hq)
    have hmem : key ∈ records.map Evidence.evidenceId :=
      hperm.mem_iff.mpr (List.mem_dedup.mpr (List.mem_flatMap.mpr ⟨q, hq, hkey⟩))
    exact List.length_map (f := Evidence.evidenceId) ▸ List.length_pos_of_mem hmem
  have hsnapshots : ((named stage records).map EvidenceRecord.snapshot).dedup.length = 1 := by
    have hreplicate : (named stage records).map EvidenceRecord.snapshot =
        List.replicate records.length stage.bundle.snapshot := by
      rw [named, List.map_map]
      exact List.map_const' ..
    rw [hreplicate, dedup_replicate _ hsome]
  have hsame : sameMembers (candidates.flatMap WorkRequirement.evidenceIds)
      ((named stage records).map EvidenceRecord.evidenceId) = true := by
    rw [sameMembers_iff]
    intro key
    rw [hids, hperm.mem_iff, List.mem_dedup]
  have hnodup : ((named stage records).map EvidenceRecord.evidenceId).Nodup := by
    rw [hids]
    exact hperm.nodup_iff.mpr (List.nodup_dedup _)
  refine ⟨⟨stage.mode, candidates, named stage records, h.nonempty, h.distinct, hnodup⟩, ?_⟩
  rw [batchFor, hselected]
  exact (dif_pos h.nonempty).trans ((dif_pos ⟨h.distinct, hnodup⟩).trans
    (if_pos ⟨hsame, hsnapshots⟩))

/-- What a probe leaves of the plan so far: only the reason and the renderer may change. -/
structure Probed (stage : Stage σ) (env : σ) (p p' : Pass σ) : Prop where
  batches : p'.batches = p.batches
  unprocessed : p'.unprocessed = p.unprocessed
  current : p'.current = p.current
  later : Later stage.renderer env p.env → Later stage.renderer env p'.env

theorem refused_probed (category : Option String) : Probed stage env p (p.refused category) := by
  unfold Pass.refused
  split <;> exact ⟨rfl, rfl, rfl, id⟩

/-- The judgement of a rendered batch keeps the plan, and admits only a request that fits. -/
theorem judged_ok {rendered : Rendered} {answer : Bool}
    (h : judged stage p rendered = .ok (answer, p')) :
    Probed stage env p p' ∧ (answer = true → ∃ request, rendered = .request request ∧
      stage.budgets.fitsPrompt (corrected stage request.prompt) request.maxOutputTokens =
        .ok true) := by
  cases rendered with
  | refused category =>
    obtain ⟨rfl, rfl⟩ := Prod.mk.inj (Except.ok.inj h)
    exact ⟨refused_probed category, fun hf => absurd hf Bool.false_ne_true⟩
  | raised error => cases h
  | notARequest => cases h
  | request request =>
    obtain ⟨found, hfound, h⟩ := bound_ok h
    obtain ⟨rfl, rfl⟩ := Prod.mk.inj (Except.ok.inj h)
    exact ⟨⟨rfl, rfl, rfl, id⟩, fun hf => ⟨request, rfl, hf ▸ hfound⟩⟩

theorem overBudget_false {batch : WorkBatch} (h : ¬ overBudget stage candidates batch = true) :
    (diffContext stage batch).utf8ByteSize ≤ stage.budgets.batchDiffBytes ∧
      (stage.mode = .reassessment →
        candidates.length ≤ stage.budgets.maxFindingsPerBatch) := by
  simp only [overBudget, Bool.or_eq_true, Bool.and_eq_true, decide_eq_true_eq, not_or,
    not_and, Nat.not_lt] at h
  exact ⟨h.2, h.1⟩

/-- One probe: a positive answer is about the batch of just these candidates. -/
theorem fits_ok {answer : Bool} (h : fits stage p candidates = .ok (answer, p'))
    (hlater : Later stage.renderer env p.env) :
    Probed stage env p p' ∧
      (answer = true → ∃ b, batchFor stage candidates = .ok b ∧ Fits stage env b) := by
  unfold fits at h
  split at h
  next =>
    obtain ⟨rfl, rfl⟩ := Prod.mk.inj (Except.ok.inj h)
    exact ⟨⟨rfl, rfl, rfl, id⟩, fun hf => absurd hf Bool.false_ne_true⟩
  next =>
    obtain ⟨b, hb, h⟩ := bound_ok h
    dsimp only at h
    split at h
    next =>
      obtain ⟨rfl, rfl⟩ := Prod.mk.inj (Except.ok.inj h)
      exact ⟨⟨rfl, rfl, rfl, id⟩, fun hf => absurd hf Bool.false_ne_true⟩
    next hover =>
      obtain ⟨hprobed, hrequest⟩ := judged_ok h
      obtain ⟨hbytes, hfindings⟩ := overBudget_false hover
      refine ⟨⟨hprobed.batches, hprobed.unprocessed, hprobed.current,
        fun hl => hprobed.later (hl.asked b)⟩, ?_⟩
      intro hanswer
      obtain ⟨request, hrendered, hfits⟩ := hrequest hanswer
      refine ⟨b, hb, hbytes, ⟨p.env, request, hlater, hrendered, hfits⟩, ?_⟩
      rw [(batchFor_ok hb).requirements]
      exact hfindings

/-- What the loop has placed so far: every requirement once, every batch as it was admitted. -/
structure Packed (stage : Stage σ) (env : σ) (placed : List WorkRequirement) (p : Pass σ) :
    Prop where
  later : Later stage.renderer env p.env
  accounted : (p.batches.flatMap WorkBatch.requirementIds ++
    p.current.map WorkRequirement.identity ++ p.unprocessed.map Prod.fst).Perm
      (placed.map WorkRequirement.identity)
  members : ∀ b ∈ p.batches, ∀ q ∈ b.requirements, q ∈ placed
  available : ∀ q ∈ p.current, q ∈ placed ∧ evidenceMissing stage q = false
  emitted : ∀ b ∈ p.batches, Admitted stage env b
  planned : ∀ b ∈ p.batches, Gathers stage b.requirements b
  pending : p.current ≠ [] → ∃ b, batchFor stage p.current = .ok b ∧ Fits stage env b
  ceiling : p.batches.length ≤ batchCeiling stage

theorem packed_start (env : σ) : Packed stage env [] { env } where
  later := .start
  accounted := .refl _
  members := fun _ hb => absurd hb List.not_mem_nil
  available := fun _ hq => absurd hq List.not_mem_nil
  emitted := fun _ hb => absurd hb List.not_mem_nil
  planned := fun _ hb => absurd hb List.not_mem_nil
  pending := fun h => absurd rfl h
  ceiling := Nat.zero_le _

/-- A probe changes nothing that the invariant reads. -/
theorem Packed.probed (h : Packed stage env placed p) (hp : Probed stage env p p') :
    Packed stage env placed p' := by
  obtain ⟨hb, hu, hc, hl⟩ := hp
  refine ⟨hl h.later, ?_, ?_, ?_, ?_, ?_, ?_, ?_⟩
  · rw [hb, hu, hc]; exact h.accounted
  · rw [hb]; exact h.members
  · rw [hc]; exact h.available
  · rw [hb]; exact h.emitted
  · rw [hb]; exact h.planned
  · rw [hc]; exact h.pending
  · rw [hb]; exact h.ceiling

theorem evidenceMissing_false (h : evidenceMissing stage item = false) :
    (∀ key ∈ item.evidenceIds, (stage.bundle.byId key).isSome = true) ∧
      (stage.mode = .reassessment → stage.bundle.enumerationComplete = true ∧
        ∀ key ∈ item.evidenceIds, ∀ r, stage.bundle.byId key = some r → r.complete = true) := by
  rw [evidenceMissing, Bool.or_eq_false_iff] at h
  obtain ⟨hmissing, hreassessed⟩ := h
  refine ⟨?_, ?_⟩
  · intro key hkey
    exact Option.isSome_iff_ne_none.mpr (by simpa using List.any_eq_false.mp hmissing key hkey)
  · intro hmode
    simp only [hmode, decide_true, Bool.true_and, Bool.or_eq_false_iff] at hreassessed
    refine ⟨by simpa using hreassessed.1, ?_⟩
    intro key hkey r hr
    simpa [hr] using List.any_eq_false.mp hreassessed.2 key hkey

theorem Bundle.byId_of_mem {bundle : Bundle} {record : Evidence} (h : record ∈ bundle.records) :
    bundle.byId record.evidenceId = some record := by
  obtain ⟨found, hfound⟩ := Option.isSome_iff_exists.mp
    (List.find?_isSome.mpr ⟨record, h, by simp⟩ :
      (bundle.byId record.evidenceId).isSome = true)
  obtain ⟨hmem, hid⟩ := Bundle.byId_some hfound
  have heq := List.inj_on_of_nodup_map bundle.idsNodup hmem h hid
  exact heq ▸ hfound

/-- The open batch may be emitted once all of its requirements have their evidence. -/
theorem admitted_of_fits {b : WorkBatch} (hb : batchFor stage candidates = .ok b)
    (hfits : Fits stage env b) (havailable : ∀ q ∈ candidates, evidenceMissing stage q = false) :
    Admitted stage env b := by
  have hgathers := batchFor_ok hb
  refine ⟨hfits, hgathers.mode, ?_, ?_, ?_⟩
  · rw [hgathers.requirements]
    exact hgathers.evidence
  · intro key hkey
    obtain ⟨q, hq, hkey⟩ := (hgathers.evidence key).mp hkey
    obtain ⟨r, hr⟩ := Option.isSome_iff_exists.mp
      ((evidenceMissing_false (havailable q hq)).1 key hkey)
    exact ⟨r, Bundle.byId_some hr⟩
  · intro hmode
    obtain ⟨q₀, hq₀⟩ := List.exists_mem_of_ne_nil _ b.nonempty
    rw [hgathers.requirements] at hq₀
    refine ⟨((evidenceMissing_false (havailable q₀ hq₀)).2 hmode).1, ?_⟩
    intro key hkey r hr hid
    obtain ⟨q, hq, hkey⟩ := (hgathers.evidence key).mp hkey
    exact ((evidenceMissing_false (havailable q hq)).2 hmode).2 key hkey r
      (hid ▸ Bundle.byId_of_mem hr)

/-- Leaving a requirement out keeps it in the plan. -/
theorem Packed.leave (h : Packed stage env placed p) (reason : String) :
    Packed stage env (placed ++ [item]) (p.leave item reason) where
  later := h.later
  accounted := by
    have hnew := h.accounted.append_right [item.identity]
    simpa [Pass.leave] using hnew
  members := fun b hb q hq => List.mem_append_left _ (h.members b hb q hq)
  available := fun q hq => ⟨List.mem_append_left _ (h.available q hq).1, (h.available q hq).2⟩
  emitted := h.emitted
  planned := h.planned
  pending := h.pending
  ceiling := h.ceiling

/-- Flushing empties the open batch and keeps its requirements in the plan. -/
theorem Packed.afterFlush (h : Packed stage env placed p) (hflush : flush stage p = .ok p') :
    Packed stage env placed p' ∧ p'.current = [] := by
  unfold flush at hflush
  split at hflush
  next hempty => exact Except.ok.inj hflush ▸ ⟨h, hempty⟩
  next hne =>
    have hplaced := h.accounted
    split at hflush
    next hroom =>
      obtain ⟨b, hb, hflush⟩ := bound_ok hflush
      obtain rfl := Except.ok.inj hflush
      have hgathers := batchFor_ok hb
      obtain ⟨b', hb', hfits⟩ := h.pending hne
      obtain rfl := Except.ok.inj (hb.symm.trans hb')
      have hemitted := admitted_of_fits hb hfits (fun q hq => (h.available q hq).2)
      refine ⟨⟨h.later, ?_, ?_, fun q hq => absurd hq List.not_mem_nil, ?_, ?_,
        fun hc => absurd rfl hc, ?_⟩, rfl⟩
      · simpa [WorkBatch.requirementIds, hgathers.requirements] using hplaced
      · intro c hc q hq
        rcases List.mem_append.mp hc with hc | hc
        · exact h.members c hc q hq
        · rw [List.mem_singleton.mp hc, hgathers.requirements] at hq
          exact (h.available q hq).1
      · intro c hc
        rcases List.mem_append.mp hc with hc | hc
        · exact h.emitted c hc
        · exact List.mem_singleton.mp hc ▸ hemitted
      · intro c hc
        rcases List.mem_append.mp hc with hc | hc
        · exact h.planned c hc
        · rw [List.mem_singleton.mp hc, hgathers.requirements]
          exact hgathers
      · rw [List.length_append]
        exact hroom
    next =>
      obtain rfl := Except.ok.inj hflush
      refine ⟨⟨h.later, ?_, h.members, fun q hq => absurd hq List.not_mem_nil, h.emitted,
        h.planned, fun hc => absurd rfl hc, h.ceiling⟩, rfl⟩
      have hswap := (@List.perm_append_comm _ (p.unprocessed.map Prod.fst)
        (p.current.map WorkRequirement.identity)).append_left
          (p.batches.flatMap WorkBatch.requirementIds)
      have hsame := hswap.trans (by simpa using hplaced)
      simpa [Function.comp_def] using hsame

/-- Room is made for an item that fits alone: then it fits with the open batch as well. -/
theorem Packed.afterRoom (h : Packed stage env placed p)
    (halone : ∃ b, batchFor stage [item] = .ok b ∧ Fits stage env b)
    (hroom : makeRoom stage p item = .ok p') :
    Packed stage env placed p' ∧
      ∃ b, batchFor stage (p'.current ++ [item]) = .ok b ∧ Fits stage env b := by
  unfold makeRoom at hroom
  split at hroom
  next hempty =>
    obtain rfl := Except.ok.inj hroom
    exact ⟨h, by rw [hempty]; exact halone⟩
  next =>
    obtain ⟨⟨together, p₁⟩, hprobe, hroom⟩ := bound_ok hroom
    obtain ⟨hprobed, htogether⟩ := fits_ok hprobe h.later
    dsimp only at hroom
    split at hroom
    next hyes =>
      obtain rfl := Except.ok.inj hroom
      exact ⟨h.probed hprobed, hprobed.current ▸ htogether hyes⟩
    next =>
      obtain ⟨hpacked, hempty⟩ := (h.probed hprobed).afterFlush hroom
      exact ⟨hpacked, by rw [hempty]; exact halone⟩

/-- One item of the loop. -/
theorem Packed.afterItem (h : Packed stage env placed p) (hitem : packItem stage p item = .ok p') :
    Packed stage env (placed ++ [item]) p' := by
  unfold packItem at hitem
  split at hitem
  next => exact Except.ok.inj hitem ▸ h.leave _
  next hthere =>
    obtain ⟨⟨alone, p₁⟩, hprobe, hitem⟩ := bound_ok hitem
    obtain ⟨hprobed, halone⟩ := fits_ok hprobe h.later
    have h₁ := h.probed hprobed
    dsimp only at hitem
    split at hitem
    next hyes =>
      obtain ⟨p₂, hroom, hitem⟩ := bound_ok hitem
      obtain rfl := Except.ok.inj hitem
      obtain ⟨h₂, htogether⟩ := h₁.afterRoom (halone hyes) hroom
      refine ⟨h₂.later, ?_, fun b hb q hq => List.mem_append_left _ (h₂.members b hb q hq), ?_,
        h₂.emitted, h₂.planned, fun _ => htogether, h₂.ceiling⟩
      · have hswap := (@List.perm_append_comm _ [item.identity]
          (p₂.unprocessed.map Prod.fst)).append_left
            (p₂.batches.flatMap WorkBatch.requirementIds ++
              p₂.current.map WorkRequirement.identity)
        have hnew := h₂.accounted.append_right [item.identity]
        simpa using hswap.trans (by simpa using hnew)
      · intro q hq
        rcases List.mem_append.mp hq with hq | hq
        · exact ⟨List.mem_append_left _ (h₂.available q hq).1, (h₂.available q hq).2⟩
        · refine ⟨List.mem_append_right _ hq, ?_⟩
          rw [List.mem_singleton.mp hq]
          exact Bool.eq_false_iff.mpr hthere
    next => exact Except.ok.inj hitem ▸ h₁.leave _

theorem Packed.afterItems {rest : List WorkRequirement} (h : Packed stage env placed p)
    (hitems : packItems stage p rest = .ok p') : Packed stage env (placed ++ rest) p' := by
  induction rest generalizing p placed with
  | nil =>
    rw [List.append_nil]
    exact Except.ok.inj hitems ▸ h
  | cons item rest ih =>
    obtain ⟨p₁, hitem, hrest⟩ := bound_ok hitems
    have h₁ := ih (h.afterItem hitem) hrest
    rwa [List.append_assoc] at h₁

end ReviewSensei.WorkPlanning
