import ReviewSensei.AtMostOnce

/-! A durable operation: processes that execute one plan over an `AssessmentCheckpoint`, each
restarted from the last completed save of the ones before it. -/
namespace ReviewSensei.Execution
open ReviewSensei.Effects ReviewSensei.Restart

variable {T J : Type} [DecidableEq T]

/-- One process of a durable operation. Its callbacks, budgets, clocks, provider and store answer
in any way; it reads the receipt of the last completed save. -/
structure DurableProcess (evidenceDigest : DigestDocument → String) (encode : T → J)
    (plan : ReviewWorkPlan) (s : Option (SaveRecord T)) where
  env : Environment
  args : Arguments T J
  tracker : Tracker
  store : AssessmentCheckpoint J
  stamps : Stamps
  now : Nat
  tick : Nat
  coalesce : Bool
  digests : env.evidenceDigest = evidenceDigest
  executes : args.plan = plan
  startsFresh : args.prior = none
  encodes : args.encodeRecovery = some encode
  reads : args.checkpoint = some {
    toStoreReader := store.reader evidenceDigest
      (s.map (store.receipt evidenceDigest encode stamps)) now tick
    coalesceAdmissionDispatch := coalesce }

section
variable {evidenceDigest : DigestDocument → String} {encode : T → J} {plan : ReviewWorkPlan}
  {s : Option (SaveRecord T)}

/-- Everything that the process does when it is not stopped. -/
def DurableProcess.result (p : DurableProcess evidenceDigest encode plan s) :
    Except Exc (WorkExecution T) × World T :=
  runProcess p.env p.args p.tracker

variable (evidenceDigest encode plan) in
/-- The traces of the processes of an operation. -/
def DurableTrace (s : Option (SaveRecord T)) (events : List (Event T)) : Prop :=
  ∃ p : DurableProcess evidenceDigest encode plan s, p.result.2.events = events

/-- What a load gives back for a saved record. -/
structure LoadedFrom (evidenceDigest : DigestDocument → String) (plan : ReviewWorkPlan)
    (r : SaveRecord T) (e : WorkExecution T) (digests : RequestDigests) : Prop where
  plan_eq : e.plan = plan
  pending_eq : e.pending = r.execution.pending
  table : ∀ c ∈ e.completed,
    (batchTable evidenceDigest plan).get? (c.batch.batchId evidenceDigest) = some c.batch
  bound : ∀ c ∈ e.completed,
    (digests.get? (c.batch.batchId evidenceDigest)).join = some c.requestDigest

omit [DecidableEq T] in
theorem decodeReceipt_loaded {store : AssessmentCheckpoint J} {at_ : Stamps} {r : SaveRecord T}
    {tracker : Tracker} {budgets : EffectiveWorkBudget} {decode : Decoder T J}
    {digests : Option RequestDigests} {now : Nat} {e : WorkExecution T}
    (h : store.decodeReceipt evidenceDigest plan tracker budgets decode digests now
      (store.receipt evidenceDigest encode at_ r) = .ok e) :
    LoadedFrom evidenceDigest plan r e r.requestDigests := by
  unfold AssessmentCheckpoint.decodeReceipt at h
  split at h
  swap
  · cases h
  cases hitems : loadItems evidenceDigest plan decode
      (store.receipt evidenceDigest encode at_ r).requestDigests
      (store.receipt evidenceDigest encode at_ r).completed with
  | error exc =>
    rw [hitems] at h
    cases h
  | ok completed =>
    rw [hitems] at h
    change Except.bind _ _ = _ at h
    cases hmake : WorkExecution.make plan completed
        (store.receipt evidenceDigest encode at_ r).pending
        (store.receipt evidenceDigest encode at_ r).executionIdentity
        (store.receipt evidenceDigest encode at_ r).attemptedIds
        (store.receipt evidenceDigest encode at_ r).responseBytesReserved 0 false with
    | error exc =>
      simp only [Except.bind] at h
      rw [hmake] at h
      cases h
    | ok e' =>
      simp only [Except.bind] at h
      rw [hmake] at h
      change (if _ then _ else _) = _ at h
      split at h
      · cases h
        obtain ⟨hplan, hcompleted, hpending, -⟩ := WorkExecution.make_eq hmake
        exact ⟨hplan, hpending, fun c hc => (loadItems_mem hitems (hcompleted ▸ hc)).1,
          fun c hc => (loadItems_mem hitems (hcompleted ▸ hc)).2⟩
      · cases h

/-- What the store of a process may give back. -/
def StoreLoads (evidenceDigest : DigestDocument → String) (plan : ReviewWorkPlan)
    (s : Option (SaveRecord T)) (x : Loaded T) (_ : Tracker) : Prop :=
  match s with
  | none => x = none
  | some r => ∃ e digests, x = some (e, digests) ∧ LoadedFrom evidenceDigest plan r e digests

omit [DecidableEq T] in
theorem load_loads {store : AssessmentCheckpoint J} {at_ : Stamps} {budgets : EffectiveWorkBudget}
    {decode : Decoder T J} {digests : Option RequestDigests} {now tick : Nat} {t t' : Tracker}
    {x : Loaded T}
    (h : (store.load evidenceDigest (s.map (store.receipt evidenceDigest encode at_)) now tick plan
      budgets decode digests).run t = (.ok x, t')) :
    StoreLoads evidenceDigest plan s x t' := by
  cases s with
  | none =>
    cases h
    rfl
  | some r =>
    simp only [AssessmentCheckpoint.load, Option.map_some] at h
    split at h
    · cases h
    · rename_i e he
      cases h
      unfold AssessmentCheckpoint.reported at he
      split at he
      · cases he
      · rename_i e' hdecode
        cases he
        exact ⟨e, r.requestDigests, rfl, decodeReceipt_loaded hdecode⟩

section Loaded
variable {env : Environment} {args : Arguments T J} {a : Admitted T} {r : SaveRecord T}
  {e : WorkExecution T} {digests : RequestDigests}

omit [DecidableEq T] in
/-- A batch that the record holds is loaded as itself, and cached under its identity. -/
theorem cached_of_held (hload : LoadedFrom env.evidenceDigest args.plan r e digests)
    (hplan : r.execution.plan = args.plan) (hcached : a.cached = Arguments.receipts env (some e))
    {c : CompletedBatch T} (hc : c ∈ r.execution.completed) :
    c.batch ∈ args.plan.batches ∧ Cached env a c.batch := by
  have hbatch : c.batch ∈ args.plan.batches := hplan ▸ r.execution.completedPlanned c hc
  refine ⟨hbatch, ?_⟩
  -- a requirement of the batch is completed in the record, hence not pending, hence loaded
  obtain ⟨q, hq⟩ := List.exists_mem_of_ne_nil _ c.batch.requirementIds_ne_nil
  have hassigned : q ∈ assignedIds r.execution.completed r.execution.pending :=
    List.mem_append_left _ (List.mem_flatMap.mpr ⟨c, hc, hq⟩)
  have hin : q ∈ assignedIds e.completed e.pending := by
    rw [e.assignedAll, hload.plan_eq, ← hplan, ← r.execution.assignedAll]
    exact hassigned
  have hloaded : ∃ c' ∈ e.completed, q ∈ c'.batch.requirementIds := by
    rcases List.mem_append.mp hin with hin | hin
    · exact List.mem_flatMap.mp hin
    · obtain ⟨⟨_, reason⟩, hmem, rfl⟩ := List.mem_map.mp hin
      rw [hload.pending_eq] at hmem
      exact absurd hq ((WorkExecution.reason_unique hmem).1 c hc)
  obtain ⟨c', hc', hq'⟩ := hloaded
  have hsame : c'.batch = c.batch := ReviewWorkPlan.batch_unique
    (hload.plan_eq ▸ e.completedPlanned c' hc') hbatch hq' hq
  have hkey : c.batch.batchId env.evidenceDigest ∈
      (e.completed.map (fun c => (c.batch.batchId env.evidenceDigest, c))).map Prod.fst := by
    rw [List.map_map]
    exact List.mem_map.mpr ⟨c', hc', by simp [hsame]⟩
  obtain ⟨item, hitem⟩ := Option.isSome_iff_exists.mp
    ((Dict.isSome_get?_ofPairs _ _).mpr hkey)
  refine ⟨item, by rw [hcached]; exact hitem, ?_⟩
  -- the table knows one batch under this identity
  obtain ⟨item', hmem, hpair⟩ := List.mem_map.mp (Dict.mem_of_get?_ofPairs hitem)
  obtain ⟨hid, rfl⟩ := Prod.mk.inj hpair
  have htable := hload.table item' hmem
  have htable' := hload.table c' hc'
  rw [hid] at htable
  rw [hsame, htable] at htable'
  exact Option.some.inj htable'

omit [DecidableEq T] in
theorem mem_of_cached (hcached : a.cached = Arguments.receipts env (some e)) {b : WorkBatch}
    (h : Cached env a b) : ∃ c ∈ e.completed, c.batch = b := by
  obtain ⟨item, hitem, rfl⟩ := h
  rw [hcached] at hitem
  obtain ⟨item', hmem, hpair⟩ := List.mem_map.mp (Dict.mem_of_get?_ofPairs hitem)
  obtain ⟨-, rfl⟩ := Prod.mk.inj hpair
  exact ⟨item', hmem, rfl⟩

omit [DecidableEq T] in
/-- What a restarted process knows follows from what it loaded. -/
theorem restarted_of_loaded {x : Loaded T} {t : Tracker}
    (hcheck : args.checkpoint.isSome = true) (hencodes : args.encodeRecovery.isSome = true)
    (hprior : args.prior = none) (hplan : ∀ r, s = some r → r.execution.plan = args.plan)
    (ha : AdmittedAs env args x a) (hload : StoreLoads env.evidenceDigest args.plan s x t) :
    Restarted env args a s := by
  have hresumable : args.resumable = "queued" := by simp [Arguments.resumable, hcheck]
  cases s with
  | none =>
    obtain rfl : x = none := hload
    have hnone : a.prior = none := by rw [ha.prior, hprior]; rfl
    have hcached : ∀ b, ¬Cached env a b := by
      rintro b ⟨item, hitem, -⟩
      rw [ha.cached, hnone] at hitem
      cases hitem
    have hterminal : ∀ r, a.terminalPending.get? r = none := by
      intro r
      rw [ha.terminalPending]
      rfl
    refine ⟨hcheck, hencodes, ?_, fun b hb => absurd hb (hcached b),
      fun b hb => absurd hb (hcached b), ?_, ?_⟩
    · intro r reason hr
      rw [hterminal] at hr
      cases hr
    · rintro r ⟨_, he, -⟩
      cases he
    · rintro b ⟨_, he, -⟩
      cases he
  | some r =>
    obtain ⟨e, digests, rfl, hfrom⟩ := hload
    have hsome : a.prior = some e := by rw [ha.prior]; rfl
    have hcached : a.cached = Arguments.receipts env (some e) := by rw [ha.cached, hsome]
    have hterminal : a.terminalPending = exclude "queued" e.pending := by
      rw [ha.terminalPending, ← hresumable]
      rfl
    have hpending : ∀ q reason, a.terminalPending.get? q = some reason →
        (q, reason) ∈ e.pending ∧ reason ≠ "queued" := by
      intro q reason hq
      rw [hterminal] at hq
      simpa using Dict.mem_of_get?_ofPairs hq
    refine ⟨hcheck, hencodes, fun q reason hq => (hpending q reason hq).2, ?_, ?_, ?_, ?_⟩
    · intro b hb q hq
      obtain ⟨c, hc, rfl⟩ := mem_of_cached hcached hb
      by_contra hne
      obtain ⟨reason, hreason⟩ := Option.ne_none_iff_exists'.mp hne
      exact (WorkExecution.reason_unique (hpending q reason hreason).1).1 c hc hq
    · intro b hb
      obtain ⟨c, hc, rfl⟩ := mem_of_cached hcached hb
      have hsame := (Dict.same_iff _ _).mp (ha.digests e digests rfl)
      have hbound := hfrom.bound c hc
      rw [hsame] at hbound
      exact ha.bound.digested _ _ hbound
    · rintro q ⟨_, he, ⟨b, hb, hq⟩, hwhy⟩
      cases he
      rcases hwhy with ⟨c, hc, hqc⟩ | ⟨reason, hmem, hne⟩
      · obtain ⟨hcb, hcc⟩ := cached_of_held hfrom (hplan r rfl) hcached hc
        exact .inr ⟨c.batch, by rwa [List.drop_zero], hqc, .inl hcc⟩
      · refine .inr ⟨b, by rwa [List.drop_zero], hq, .inr ?_⟩
        rw [hterminal]
        refine (Dict.isSome_get?_ofPairs _ _).mpr (List.mem_map.mpr ⟨(q, reason), ?_, rfl⟩)
        rw [hfrom.pending_eq]
        simpa using ⟨hmem, hne⟩
    · rintro b ⟨_, he, c, hc, rfl⟩
      cases he
      exact cached_of_held hfrom (hplan r rfl) hcached hc

end Loaded

/-- Every event of a process respects the durable state on which the process started. -/
theorem DurableProcess.steps (p : DurableProcess evidenceDigest encode plan s)
    (hplan : ∀ r, s = some r → r.execution.plan = plan) :
    EachStep (RightStep plan s) p.result.2.events := by
  obtain ⟨env, args, tracker, store, stamps, now, tick, coalesce, rfl, rfl, hprior, hencodes,
    hreads⟩ := p
  have hcheck : args.checkpoint.isSome = true := by rw [hreads]; rfl
  have hstores : StoresReadIn args tracker (StoreLoads env.evidenceDigest args.plan s) := by
    refine ⟨fun c hc => ?_, fun _ hnone => ?_, fun hnone => ?_⟩
    · cases hc.symm.trans hreads
      refine ⟨?_, fun _ _ _ _ hnone => nomatch hnone⟩
      intro f decode x t hf hdecode hrun
      cases hf
      exact load_loads hrun
    · rw [hnone] at hcheck
      cases hcheck
    · rw [hnone] at hcheck
      cases hcheck
  have hspec : Spec (Fresh tracker) (executePlan env args)
      (fun _ => Stepped args s) (Stepped args s) := by
    refine executePlan_spec hstores (fun w hw => ?_) fun x t a hS ha => ?_
    · unfold Stepped
      rw [hw]
      exact EachStep.nil
    · have hs := restarted_of_loaded hcheck (by rw [hencodes]; rfl) hprior hplan ha hS
      exact ⟨_, _, _, durable_planRule hs, fun w hw => durable_start hs hw⟩
  have hrun := hspec { tracker := tracker } ⟨{}, rfl⟩
  unfold DurableProcess.result runProcess
  dsimp only
  generalize (executePlan env args).run { tracker := tracker } = result at hrun ⊢
  obtain ⟨x, w⟩ := result
  cases x with
  | ok e => exact hrun
  | error exc => exact hrun

omit [DecidableEq T] in
/-- An aggregate of the plan accounts for each of its requirements exactly once. -/
theorem accounts_once {e : WorkExecution T} (h : e.plan = plan) :
    (assignedIds e.completed e.pending).Perm (plan.requirements.map WorkRequirement.identity) :=
  (List.perm_ext_iff_of_nodup e.assignedNodup plan.identitiesNodup).mpr fun r => h ▸ e.assignedAll r

/-- The runs of an operation, from nothing saved. -/
def OperationRuns (evidenceDigest : DigestDocument → String) (encode : T → J)
    (plan : ReviewWorkPlan) (log : List (Option (Event T))) (rest : List (Event T)) : Prop :=
  Runs (DurableTrace evidenceDigest encode plan) lastCompleted none log rest

/-- The plan of every save is that of the operation. -/
def SamePlan (plan : ReviewWorkPlan) (s : Option (SaveRecord T)) : Prop :=
  ∀ r, s = some r → r.execution.plan = plan

theorem operationRuns_within {log : List (Option (Event T))} {rest : List (Event T)}
    (h : OperationRuns evidenceDigest encode plan log rest) :
    Runs (fun s es => DurableTrace evidenceDigest encode plan s es ∧ SamePlan plan s)
      lastCompleted none log rest := by
  refine Runs.within (fun _ he => nomatch he) ?_ h
  rintro s seen e rest ⟨p, hp⟩ hs hseen r hr
  have hstep := p.steps hs seen e rest hp
  cases hc : e.commits with
  | false =>
    rw [lastCompleted_quiet hc] at hr
    exact hseen r hr
  | true =>
    cases e with
    | save r' completes =>
      obtain rfl : completes = true := hc
      cases hr
      exact hstep.accounts _ _ rfl
    | _ => cases hc

/-- A process claims a batch durably before it dispatches it, and spares what was decided. -/
theorem operation_guards : Guards (fun s es =>
    DurableTrace evidenceDigest encode plan s es ∧ SamePlan plan s) lastCompleted
    (decided plan) (Event.dispatches (T := T)) := by
  constructor
  · rintro s seen e rest ⟨⟨p, hp⟩, hs⟩
    exact (p.steps hs seen e rest hp).grows
  · rintro s seen e rest ⟨⟨p, hp⟩, hs⟩
    exact (p.steps hs seen e rest hp).spares
  · rintro s seen e rest ⟨⟨p, hp⟩, hs⟩
    exact (p.steps hs seen e rest hp).claims

omit [DecidableEq T] in
theorem RightStep.held_mono {seen : List (Event T)} {e : Event T}
    (h : RightStep plan s seen e) (hintact : Intact seen) :
    held (left lastCompleted s seen) ⊆ held (lastCompleted (left lastCompleted s seen) e) := by
  cases hc : e.commits with
  | false => rw [lastCompleted_quiet hc]
  | true =>
    cases e with
    | save r completes =>
      obtain rfl : completes = true := hc
      exact h.keeps hintact r true rfl
    | _ => cases hc

/-- What holds of the log of every run of a durable operation. -/
structure OperationLog (plan : ReviewWorkPlan) (log : List (Option (Event T))) : Prop where
  /-- What a completed save recorded as dispatched is not dispatched by a later process. -/
  neverAgain : ∀ l₁ r l₂ l₃ b request q, log = l₁ ++ some (.save r true) :: l₂ ++ none :: l₃ →
    some (.called b request) ∈ l₃ → q ∈ b.requirementIds →
    (q, "dispatch-outcome-unknown") ∉ r.execution.pending ∧
      ∀ b', r.dispatched = true → r.about = some b' → q ∉ b'.requirementIds
  /-- Two processes never dispatch the same requirement. -/
  once : ∀ l₁ b request l₂ l₃ b' request', log = l₁ ++ some (.called b request) :: l₂ ++ none :: l₃ →
    some (.called b' request') ∈ l₃ → ∀ q ∈ b'.requirementIds, q ∉ b.requirementIds
  /-- A completed batch stays completed while no decision is refused and no receipt fails. -/
  stays : ∀ l₁ r₁ l₂ r₂ completes l₃,
    log = l₁ ++ some (.save r₁ true) :: l₂ ++ some (.save r₂ completes) :: l₃ →
    (∀ e, some e ∈ l₂ → e.abandons = false) →
    ∀ c ∈ r₁.execution.completed, ∃ c' ∈ r₂.execution.completed, c'.batch = c.batch
  /-- Every save accounts for every requirement of the plan exactly once. -/
  accounts : ∀ r completes, some (.save r completes) ∈ log → r.execution.plan = plan ∧
    (assignedIds r.execution.completed r.execution.pending).Perm
      (plan.requirements.map WorkRequirement.identity)

theorem durable_operation_log {log : List (Option (Event T))} {rest : List (Event T)}
    (h : OperationRuns evidenceDigest encode plan log rest) : OperationLog plan log := by
  have hrun := operationRuns_within h
  have hguards : Guards (fun s es =>
      DurableTrace evidenceDigest encode plan s es ∧ SamePlan plan s) lastCompleted
      (decided plan) (Event.dispatches (T := T)) := operation_guards
  refine ⟨?_, ?_, ?_, ?_⟩
  · rintro l₁ r l₂ l₃ b request q rfl hcalled hq
    have hspared := Set.disjoint_left.mp (hguards.spared hrun hcalled) hq
    obtain ⟨rest₁, hbefore⟩ := hrun.before (a := l₁ ++ some (.save r true) :: l₂) rfl
    have hsplit : l₁ ++ some (.save r true) :: l₂ = (l₁ ++ [some (.save r true)]) ++ l₂ := by simp
    rw [hsplit] at hbefore hspared
    have hnot : q ∉ decided plan (durable lastCompleted none (l₁ ++ [some (.save r true)])) :=
      fun hd => hspared (hguards.claimed_mono hbefore hd)
    rw [durable_event] at hnot
    -- the called batch is one of the plan, and so is its requirement
    obtain ⟨x, y, hl₃⟩ := List.append_of_mem hcalled
    have hcall : l₁ ++ some (.save r true) :: l₂ ++ none :: l₃ =
        (l₁ ++ some (.save r true) :: l₂ ++ none :: x) ++ some (.called b request) :: y := by
      simp [hl₃]
    rw [hcall] at hrun
    obtain ⟨log', seen, tail, -, hp⟩ := hrun.shown
    have hplanned := decided_subset_all (hguards.claims _ seen _ tail hp hq)
    refine ⟨fun hmem => hnot ⟨r, rfl, hplanned, .inr ⟨_, hmem, by decide⟩⟩, ?_⟩
    intro b' hdispatched habout hq'
    rw [List.append_assoc] at hrun
    have hsaved : l₁ ++ some (.save r true) :: l₂ ++ (none :: x ++ some (.called b request) :: y) =
        l₁ ++ some (.save r true) :: (l₂ ++ none :: x ++ some (.called b request) :: y) := by simp
    rw [hsaved] at hrun
    obtain ⟨log₁, seen₁, tail₁, -, ⟨⟨p₁, hp₁⟩, hs₁⟩⟩ := hrun.shown
    exact hnot ⟨r, rfl, (p₁.steps hs₁ seen₁ _ tail₁ hp₁).records r true b' rfl hdispatched habout
      q hq'⟩
  · rintro l₁ b request l₂ l₃ b' request' rfl hcalled q hq
    exact Set.disjoint_left.mp (hguards.once hrun hcalled) hq
  · rintro l₁ r₁ l₂ r₂ completes l₃ rfl hkept c hc
    obtain ⟨log', seen, tail, hl, ⟨⟨p, hp⟩, hs⟩⟩ := hrun.shown
    have hstep := p.steps hs seen _ tail hp
    obtain ⟨rest₁, hbefore⟩ := hrun.before (a := l₁ ++ some (.save r₁ true) :: l₂) rfl
    have hbreaks : ∀ e, some e ∈ some (.save r₁ true) :: l₂ → ¬e.abandons = true := by
      intro e he
      rcases List.mem_cons.mp he with he | he
      · cases he
        simp [Event.abandons]
      · simp [hkept e he]
    have hheld : held (durable lastCompleted none (l₁ ++ [some (.save r₁ true)])) ⊆
        held (durable lastCompleted none (l₁ ++ some (.save r₁ true) :: l₂)) := by
      refine @Runs.kept _ _ _ _ _ _ (fun e => e.abandons = true) (fun e => e.commits = true) _ _ held
        ?_ _ _ _ _ hbefore rfl hbreaks
      rintro s seen e rest ⟨⟨p, hp⟩, hs⟩ hintact
      exact (p.steps hs seen e rest hp).held_mono hintact
    have hintact : Intact seen := unbroken_process hl rfl hbreaks
    have hfirst : c.batch ∈ held (durable lastCompleted none (l₁ ++ [some (.save r₁ true)])) := by
      rw [durable_event]
      exact ⟨r₁, rfl, c, hc, rfl⟩
    have hlast := hheld hfirst
    rw [hl, durable_process] at hlast
    obtain ⟨_, he, c', hc', hbatch⟩ := hstep.keeps hintact r₂ completes rfl hlast
    cases he
    exact ⟨c', hc', hbatch⟩
  · rintro r completes hmem
    obtain ⟨l₁, l₂, rfl⟩ := List.append_of_mem hmem
    obtain ⟨log', seen, tail, -, ⟨⟨p, hp⟩, hs⟩⟩ := hrun.shown
    have hplan := (p.steps hs seen _ tail hp).accounts r completes rfl
    exact ⟨hplan, accounts_once hplan⟩

/-- What a process returns accounts for every requirement of the plan exactly once. -/
theorem DurableProcess.returned (p : DurableProcess evidenceDigest encode plan s)
    {e : WorkExecution T} (h : p.result.1 = .ok e) : e.plan = plan ∧
      (assignedIds e.completed e.pending).Perm
        (plan.requirements.map WorkRequirement.identity) := by
  obtain ⟨a, w, he⟩ := executePlan_returns p.env p.args { tracker := p.tracker } h
  have hplan : e.plan = plan := (WorkExecution.make_eq he).1.trans p.executes
  exact ⟨hplan, accounts_once hplan⟩

/-- In every run of a durable operation, whatever its crashes and restarts, no requirement is
dispatched by two processes, a completed batch stays completed until a decision is refused, and
every save and every returned aggregate accounts for the whole plan. -/
theorem durable_operation {log : List (Option (Event T))} {rest : List (Event T)}
    (h : OperationRuns evidenceDigest encode plan log rest) : OperationLog plan log ∧
      ∀ s (p : DurableProcess evidenceDigest encode plan s) e, p.result.1 = .ok e →
        e.plan = plan ∧ (assignedIds e.completed e.pending).Perm
          (plan.requirements.map WorkRequirement.identity) :=
  ⟨durable_operation_log h, fun _ p _ he => p.returned he⟩

end

/-! Two processes over the small plan. The first completes both batches; the second is refused
when it replays the first of them. -/

def sampleStore : AssessmentCheckpoint String :=
  { operationId := hexDigest 'f' "0", admittedQueue := none }

def sampleStamps : Stamps where
  createdAt := 0
  deadlineAt := 120000000
  expiresAt := 21600000000
  savedAt := 0
  elapsedMs := 0

/-- A process over the small plan whose host accepts every decision or none. -/
def sampleProcess (s : Option (SaveRecord String)) (accepts : Bool) :
    DurableProcess sampleDigest id samplePlan s where
  env := sampleEnvironment
  args := { sampleArguments with
    accept := some fun _ _ => accepts
    checkpoint := some {
      toStoreReader := sampleStore.reader sampleDigest
        (s.map (sampleStore.receipt sampleDigest id sampleStamps)) 0 0 } }
  tracker := sampleTracker
  store := sampleStore
  stamps := sampleStamps
  now := 0
  tick := 0
  coalesce := false
  digests := rfl
  executes := rfl
  startsFresh := rfl
  encodes := rfl
  reads := rfl

def acceptedEvents : List (Event String) := (sampleProcess none true).result.2.events

def savedBySample : Option (SaveRecord String) := left lastCompleted none acceptedEvents

def refusedEvents : List (Event String) := (sampleProcess savedBySample false).result.2.events

def sampleLog : List (Option (Event String)) :=
  none :: acceptedEvents.map some ++ none :: refusedEvents.map some

theorem sampleLog_runs : OperationRuns sampleDigest id samplePlan sampleLog [] := by
  have hfirst : OperationRuns sampleDigest id samplePlan (none :: acceptedEvents.map some) [] := by
    have hidle : Runs (DurableTrace (T := String) sampleDigest id samplePlan) lastCompleted none [] [] :=
      .idle
    have hp : DurableTrace sampleDigest id samplePlan none acceptedEvents :=
      ⟨sampleProcess none true, rfl⟩
    exact (hidle.restart hp).showsAll
  have hsaved : durable lastCompleted none (none :: acceptedEvents.map some) = savedBySample :=
    durable_process [] acceptedEvents
  have h := Runs.restart hfirst (show DurableTrace sampleDigest id samplePlan _ refusedEvents from
    hsaved ▸ ⟨sampleProcess savedBySample false, rfl⟩)
  simpa [sampleLog, OperationRuns] using h.showsAll

/-- The completed batches of each completed save. -/
def completedSaves (events : List (Event T)) : List (List (List String)) :=
  events.filterMap fun
    | .save r true => some (r.execution.completed.map (fun c => c.batch.requirementIds))
    | _ => none

omit [DecidableEq T] in
theorem mem_completedSaves {events : List (Event T)} {batches : List (List String)}
    (h : batches ∈ completedSaves events) : ∃ r, .save r true ∈ events ∧
      r.execution.completed.map (fun c => c.batch.requirementIds) = batches := by
  obtain ⟨e, he, hb⟩ := List.mem_filterMap.mp h
  cases e with
  | save r completes =>
    cases completes with
    | false => cases hb
    | true => exact ⟨r, he, Option.some.inj hb⟩
  | called _ _ => cases hb
  | answered _ _ => cases hb
  | refused _ => cases hb
  | notRevalidated _ => cases hb

theorem accepted_saved : ∃ r, .save r true ∈ acceptedEvents ∧
    r.execution.completed.map (fun c => c.batch.requirementIds) = [["1"], ["2"]] :=
  mem_completedSaves (by decide +kernel)

/-- The two sample processes form a run, in which completed batches were saved. -/
theorem sample_operation_accounts : (∃ r, some (.save r true) ∈ sampleLog ∧
    r.execution.completed ≠ []) ∧ OperationLog samplePlan sampleLog := by
  obtain ⟨r, hr, hcompleted⟩ := accepted_saved
  refine ⟨⟨r, ?_, ?_⟩, (durable_operation sampleLog_runs).1⟩
  · exact List.mem_append_left _ (List.mem_cons_of_mem _ (List.mem_map_of_mem hr))
  · intro hnil
    rw [hnil] at hcompleted
    cases hcompleted

/-- A completed batch is saved as waiting again, once a host refuses its replay. -/
theorem refused_replay_is_forgotten : OperationRuns sampleDigest id samplePlan sampleLog [] ∧
    ∃ l₁ r₁ l₂ r₂ l₃, sampleLog = l₁ ++ some (.save r₁ true) :: l₂ ++ some (.save r₂ true) :: l₃ ∧
      ∃ c ∈ r₁.execution.completed, ∀ c' ∈ r₂.execution.completed, c'.batch ≠ c.batch := by
  refine ⟨sampleLog_runs, ?_⟩
  obtain ⟨r₁, hr₁, hcompleted₁⟩ := accepted_saved
  obtain ⟨r₂, hr₂, hcompleted₂⟩ : ∃ r, .save r true ∈ refusedEvents ∧
      r.execution.completed.map (fun c => c.batch.requirementIds) = [] :=
    mem_completedSaves (by decide +kernel)
  obtain ⟨a, b, ha⟩ := List.append_of_mem hr₁
  obtain ⟨c, d, hc⟩ := List.append_of_mem hr₂
  refine ⟨none :: a.map some, r₁, b.map some ++ none :: c.map some, r₂, d.map some, ?_, ?_⟩
  · simp [sampleLog, ha, hc]
  · obtain ⟨first, hfirst⟩ := List.exists_mem_of_ne_nil r₁.execution.completed (by
      intro hnil
      rw [hnil] at hcompleted₁
      cases hcompleted₁)
    refine ⟨first, hfirst, fun c' hc' => ?_⟩
    rw [List.map_eq_nil_iff.mp hcompleted₂] at hc'
    cases hc'

end ReviewSensei.Execution
