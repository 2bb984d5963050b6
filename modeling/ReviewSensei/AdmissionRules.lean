import ReviewSensei.PlanRules

/-! What holds once `execute_plan` has read its stores and bound its requests. -/
namespace ReviewSensei.Execution
open ReviewSensei.Effects

variable {T J : Type}

/-- A world in which nothing but readings has happened. -/
def Fresh (t : Tracker) (w : World T) : Prop := ∃ c, w = { cursor := c, tracker := t }

theorem Fresh.stable (t : Tracker) : CursorStable (Fresh t : World T → Prop) := by
  rintro _ c ⟨_, rfl⟩
  exact ⟨c, rfl⟩

def NoEvents (w : World T) : Prop := w.events = []

theorem Fresh.noEvents {t : Tracker} {w : World T} (h : Fresh t w) : NoEvents w := by
  obtain ⟨c, rfl⟩ := h
  rfl

/-- What a store gave back: an aggregate and the request digests that it is bound to. -/
abbrev Loaded (T : Type) := Option (WorkExecution T × RequestDigests)

/-- The reason under which a requirement of a loaded aggregate may still be dispatched. -/
def Arguments.resumable (args : Arguments T J) : String :=
  if args.checkpoint.isSome then "queued" else "interrupted"

/-- Whatever the reader gives back on the tracker `t₀` is in `S`. -/
structure ReadsIn (args : Arguments T J) (reader : StoreReader T J) (t₀ : Tracker)
    (S : Loaded T → Tracker → Prop) : Prop where
  admission : ∀ f decode x t, reader.loadAdmission = some f → args.decodeRecovery = some decode →
    (f args.plan args.budgets decode).run t₀ = (.ok x, t) → S x t
  load : ∀ decode digests x t, reader.loadAdmission = none → args.decodeRecovery = some decode →
    (reader.load args.plan args.budgets decode digests).run t₀ = (.ok x, t) →
      S (x.map (fun p => (p, digests))) t

/-- The active store, if any, reads in `S`. -/
structure StoresReadIn (args : Arguments T J) (t₀ : Tracker) (S : Loaded T → Tracker → Prop) :
    Prop where
  checkpoint : ∀ c, args.checkpoint = some c → ReadsIn args c.toStoreReader t₀ S
  recovery : ∀ r, args.checkpoint = none → args.enabledRecovery = some r →
    ReadsIn args r.toStoreReader t₀ S
  absent : args.checkpoint = none → args.enabledRecovery = none → S none t₀

theorem storesReadIn_top (args : Arguments T J) (t₀ : Tracker) :
    StoresReadIn args t₀ (fun _ _ => True) :=
  ⟨fun _ _ => ⟨fun _ _ _ _ _ _ _ => trivial, fun _ _ _ _ _ _ _ => trivial⟩,
    fun _ _ _ => ⟨fun _ _ _ _ _ _ _ => trivial, fun _ _ _ _ _ _ _ => trivial⟩,
    fun _ _ => trivial⟩

/-- The part of a restored state that a loaded value decides. -/
structure RestoredAs (args : Arguments T J) (x : Loaded T) (r : Restored T) : Prop where
  prior : r.prior = (x.map Prod.fst).or args.prior
  terminalPending : r.terminalPending =
    (x.map (fun p => exclude args.resumable p.1.pending)).getD []

theorem Arguments.requireCodecs_ok {args : Arguments T J} {message : String}
    {decode : Decoder T J} (h : args.requireCodecs message = .ok decode) :
    args.decodeRecovery = some decode := by
  unfold Arguments.requireCodecs at h
  split at h
  · cases h
    assumption
  · cases h

/-- A load on a fresh world keeps it fresh. -/
theorem onTracker_spec {α : Type} {t₀ : Tracker} {m : Prog Exc Tracker α}
    {S : α → Tracker → Prop} (h : ∀ x t, m.run t₀ = (.ok x, t) → S x t) :
    Spec (Fresh t₀) (onTracker m : Run T α) (fun x w => ∃ t, Fresh t w ∧ S x t) NoEvents := by
  rintro _ ⟨c, rfl⟩
  change Ends _ _ ((m.run t₀).1, ({ cursor := c, tracker := (m.run t₀).2 } : World T))
  cases hm : (m.run t₀).1 with
  | ok x => exact ⟨(m.run t₀).2, ⟨c, rfl⟩, h x _ (by rw [← hm])⟩
  | error e => exact rfl

/-- The state after the admission branches: read by the active store, or not read yet. -/
def Staged (args : Arguments T J) (t₀ : Tracker) (S : Loaded T → Tracker → Prop)
    (r : Restored T) (t : Tracker) : Prop :=
  (∃ x, S x t ∧ RestoredAs args x r ∧ r.admittedDigests = x.map Prod.snd ∧
      r.admissionChecked = args.checkpoint.isSome ∧
      r.recoveryAdmissionChecked = args.checkpoint.isNone ∧
      (args.checkpoint.isSome ∨ args.enabledRecovery.isSome)) ∨
  t = t₀ ∧ r = { prior := args.prior } ∧
    (∀ c, args.checkpoint = some c → c.loadAdmission = none) ∧
    (∀ s, args.checkpoint = none → args.enabledRecovery = some s → s.loadAdmission = none)

theorem restoreAdmission_spec {args : Arguments T J} {t₀ : Tracker}
    {S : Loaded T → Tracker → Prop} (h : StoresReadIn args t₀ S) :
    Spec (Fresh t₀) (restoreAdmission args)
      (fun r w => ∃ t, Fresh t w ∧ Staged args t₀ S r t) NoEvents := by
  have hnoEvents : ∀ w : World T, Fresh t₀ w → NoEvents w := fun _ hw => hw.noEvents
  unfold restoreAdmission
  cases hc : args.checkpoint with
  | some checkpoint =>
    dsimp only
    cases hl : checkpoint.loadAdmission with
    | none =>
      refine Spec.pure _ fun w hw => ⟨t₀, hw, .inr ⟨rfl, rfl, ?_, ?_⟩⟩
      · intro c he
        cases hc.symm.trans he
        exact hl
      · intro s he
        cases hc.symm.trans he
    | some f =>
      refine Spec.bind (Spec.lift _ hnoEvents) fun decode => ?_
      refine Spec.assume fun hdecode => ?_
      refine Spec.bind (onTracker_spec fun x t hx => (h.checkpoint _ hc).admission f decode x t hl
        (Arguments.requireCodecs_ok hdecode) hx) fun x => ?_
      refine Spec.pure _ ?_
      rintro w ⟨t, hw, hS⟩
      refine ⟨t, hw, .inl ⟨x, hS, ?_, ?_⟩⟩
      · cases x with
        | none => exact ⟨rfl, rfl⟩
        | some p => exact ⟨rfl, by simp [durableAdmission, Arguments.resumable, hc]⟩
      · cases x with
        | none => exact ⟨rfl, by simp [hc, durableAdmission]⟩
        | some p => exact ⟨rfl, by simp [hc, durableAdmission]⟩
  | none =>
    dsimp only
    cases hr : args.enabledRecovery with
    | none =>
      refine Spec.pure _ fun w hw => ⟨t₀, hw, .inr ⟨rfl, rfl, ?_, ?_⟩⟩
      · intro c he
        cases hc.symm.trans he
      · intro s _ he
        cases hr.symm.trans he
    | some recovery =>
      dsimp only
      cases hl : recovery.loadAdmission with
      | none =>
        refine Spec.pure _ fun w hw => ⟨t₀, hw, .inr ⟨rfl, rfl, ?_, ?_⟩⟩
        · intro c he
          cases hc.symm.trans he
        · intro s _ he
          cases hr.symm.trans he
          exact hl
      | some f =>
        refine Spec.bind (Spec.lift _ hnoEvents) fun decode => ?_
        refine Spec.assume fun hdecode => ?_
        refine Spec.bind (onTracker_spec fun x t hx => (h.recovery _ hc hr).admission f decode x t
          hl (Arguments.requireCodecs_ok hdecode) hx) fun x => ?_
        refine Spec.pure _ ?_
        rintro w ⟨t, hw, hS⟩
        refine ⟨t, hw, .inl ⟨x, hS, ?_, ?_⟩⟩
        · cases x with
          | none => exact ⟨rfl, rfl⟩
          | some p => exact ⟨rfl, by simp [recoveryAdmission, Arguments.resumable, hc]⟩
        · cases x with
          | none => exact ⟨rfl, by simp [hc, hr, recoveryAdmission]⟩
          | some p => exact ⟨rfl, by simp [hc, hr, recoveryAdmission]⟩

/-- The bindings of a list of rendered batches. -/
structure Bound (env : Environment) (args : Arguments T J) (bound : Bindings) : Prop where
  rendered : ∀ key request, bound.requests.get? key = some request →
    ∃ b ∈ args.plan.batches, b.batchId env.evidenceDigest = key ∧ args.render b = .ok request
  digested : ∀ key digest, (bound.requestDigests.get? key).join = some digest →
    (bound.requests.get? key).isSome

theorem bindRequest_spec (env : Environment) {args : Arguments T J} {bound : Bindings}
    {batch : WorkBatch} (hbatch : batch ∈ args.plan.batches) (hbound : Bound env args bound)
    {P : World T → Prop} (hP : CursorStable P) (hE : ∀ w, P w → NoEvents w) :
    Spec P (bindRequest env args bound batch) (fun bound' w => P w ∧ Bound env args bound')
      NoEvents := by
  unfold bindRequest
  split
  · refine Spec.bind (elapsedMs_spec env hP) fun elapsed => ?_
    refine Spec.bind Spec.get fun w => ?_
    refine Spec.ite (fun _ => Spec.raise _ fun w hw => hE w hw.1) fun _ => ?_
    refine Spec.pure _ fun w hw => ⟨hw.1, hbound.rendered, fun key digest hd => ?_⟩
    rw [Dict.get?_set] at hd
    split at hd
    · simp at hd
    · exact hbound.digested key digest hd
  · exact Spec.raise _ hE
  · rename_i request hrender
    refine Spec.bind (readProvider_spec env hP) fun p => ?_
    refine Spec.pure _ fun w hw => ⟨hw, ?_, ?_⟩
    · intro key r hr
      rw [Dict.get?_set] at hr
      split at hr
      · rename_i hkey
        cases hr
        exact ⟨batch, hbatch, hkey, hrender⟩
      · exact hbound.rendered key r hr
    · intro key digest hd
      rw [Dict.get?_set] at hd ⊢
      split
      · rfl
      · rename_i hkey
        rw [if_neg hkey] at hd
        exact hbound.digested key digest hd

theorem bindRequests_spec (env : Environment) {args : Arguments T J} {P : World T → Prop}
    (hP : CursorStable P) (hE : ∀ w, P w → NoEvents w) (batches : List WorkBatch)
    (hsub : ∀ b ∈ batches, b ∈ args.plan.batches) (bound : Bindings)
    (hbound : Bound env args bound) :
    Spec P (bindRequests env args bound batches) (fun bound' w => P w ∧ Bound env args bound')
      NoEvents := by
  induction batches generalizing bound with
  | nil => exact Spec.pure _ fun w hw => ⟨hw, hbound⟩
  | cons batch rest ih =>
    refine Spec.bind (bindRequest_spec env (hsub batch List.mem_cons_self) hbound hP hE)
      fun bound' => ?_
    refine Spec.assume fun hbound' => ?_
    exact ih (fun b hb => hsub b (List.mem_cons_of_mem batch hb)) bound' hbound'

/-- The restored state and the digests to which the loaded value is bound. -/
def RestoredIn (args : Arguments T J) (S : Loaded T → Tracker → Prop) (digests : RequestDigests)
    (r : Restored T) (w : World T) : Prop :=
  ∃ x t, Fresh t w ∧ S x t ∧ RestoredAs args x r ∧ ∀ p ds, x = some (p, ds) → ds.same digests = true

theorem Dict.same_refl (digests : RequestDigests) : digests.same digests = true :=
  (Dict.same_iff _ _).mpr fun _ => rfl

theorem restoreRecovery_checked {args : Arguments T J} (digests : RequestDigests)
    {r : Restored T} {P : World T → Prop} (hE : ∀ w, P w → NoEvents w)
    (h : args.enabledRecovery = none ∨ r.recoveryAdmissionChecked = true) :
    Spec P (restoreRecovery args digests r) (fun r' w => P w ∧ r' = r) NoEvents := by
  unfold restoreRecovery
  cases hr : args.enabledRecovery with
  | none => exact Spec.pure _ fun w hw => ⟨hw, rfl⟩
  | some recovery =>
    refine Spec.bind (Spec.lift _ hE) fun decode => ?_
    refine Spec.ite (fun _ => Spec.pure _ fun w hw => ⟨hw.1, rfl⟩) fun hn => ?_
    exact absurd (h.resolve_left (by rw [hr]; simp)) hn

theorem restoreCheckpoint_checked {args : Arguments T J} (digests : RequestDigests)
    {r : Restored T} {P : World T → Prop} (hE : ∀ w, P w → NoEvents w)
    (h : args.checkpoint = none ∨ r.admissionChecked = true) :
    Spec P (restoreCheckpoint args digests r) (fun r' w => P w ∧ r' = r) NoEvents := by
  unfold restoreCheckpoint
  cases hc : args.checkpoint with
  | none => exact Spec.pure _ fun w hw => ⟨hw, rfl⟩
  | some checkpoint =>
    refine Spec.bind (Spec.lift _ hE) fun decode => ?_
    refine Spec.ite (fun _ => Spec.pure _ fun w hw => ⟨hw.1, rfl⟩) fun hn => ?_
    exact absurd (h.resolve_left (by rw [hc]; simp)) hn

theorem restoreStores_spec {args : Arguments T J} {t₀ : Tracker} {S : Loaded T → Tracker → Prop}
    (h : StoresReadIn args t₀ S) (digests : RequestDigests) (r : Restored T)
    (hconflict : ¬(args.checkpoint.isSome = true ∧ args.enabledRecovery.isSome = true))
    (hsame : (r.admittedDigests.map (fun d => d.same digests)).getD true ≠ false) :
    Spec (fun w => ∃ t, Fresh t w ∧ Staged args t₀ S r t) (restoreStores args digests r)
      (RestoredIn args S digests) NoEvents := by
  have hnoEvents (t : Tracker) : ∀ w : World T, Fresh t w → NoEvents w := fun _ hw => hw.noEvents
  have hload (x : Option (WorkExecution T)) : ∀ p ds,
      x.map (fun p => (p, digests)) = some (p, ds) → ds.same digests = true := by
    intro p ds he
    obtain ⟨_, _, he⟩ := Option.map_eq_some_iff.mp he
    cases he
    exact Dict.same_refl digests
  rintro w ⟨t, hw, ⟨x, hS, hx, hdigests, hchecked, hrecovery, hactive⟩ | ⟨rfl, rfl, hlc, hlr⟩⟩
  · -- the admission was read: neither store is read again
    have hbound : ∀ p ds, x = some (p, ds) → ds.same digests = true := by
      rintro p ds rfl
      simpa [hdigests] using hsame
    have hfirst : args.enabledRecovery = none ∨ r.recoveryAdmissionChecked = true := by
      cases hc : args.checkpoint with
      | none => exact .inr (by rw [hrecovery, hc]; rfl)
      | some c => exact .inl (by simpa [hc] using hconflict)
    have hsecond : args.checkpoint = none ∨ r.admissionChecked = true := by
      cases hc : args.checkpoint with
      | none => exact .inl rfl
      | some c => exact .inr (by rw [hchecked, hc]; rfl)
    have hspec : Spec (Fresh t) (restoreStores args digests r) (RestoredIn args S digests)
        NoEvents := by
      refine Spec.bind (restoreRecovery_checked digests (hnoEvents t) hfirst) fun r' => ?_
      refine Spec.assume fun hr' => ?_
      subst hr'
      refine (restoreCheckpoint_checked digests (hnoEvents t) hsecond).conseq
        (fun _ hw => hw) ?_ (fun _ hw => hw)
      rintro r'' w ⟨hw, rfl⟩
      exact ⟨x, t, hw, hS, hx, hbound⟩
    exact hspec w hw
  · -- no admission was read: the active store, if any, is read now
    revert hw
    revert w
    change Spec (Fresh t) _ _ _
    cases hc : args.checkpoint with
    | some c =>
      have hr : args.enabledRecovery = none := by simpa [hc] using hconflict
      refine Spec.bind (restoreRecovery_checked digests (hnoEvents t) (.inl hr)) fun r' => ?_
      refine Spec.assume fun hr' => ?_
      subst hr'
      unfold restoreCheckpoint
      rw [hc]
      refine Spec.bind (Spec.lift _ (hnoEvents t)) fun decode => ?_
      refine Spec.assume fun hdecode => ?_
      refine Spec.bind (onTracker_spec fun x t' hx => (h.checkpoint c hc).load decode digests x t'
        (hlc c hc) (Arguments.requireCodecs_ok hdecode) hx) fun x => ?_
      refine Spec.pure _ ?_
      rintro w ⟨t', hw, hS⟩
      refine ⟨_, t', hw, hS, ?_, hload x⟩
      cases x with
      | none => exact ⟨rfl, rfl⟩
      | some p => exact ⟨rfl, by simp [Restored.received, Arguments.resumable, hc]⟩
    | none =>
      cases hr : args.enabledRecovery with
      | none =>
        refine Spec.bind (restoreRecovery_checked digests (hnoEvents t) (.inl hr)) fun r' => ?_
        refine Spec.assume fun hr' => ?_
        subst hr'
        refine (restoreCheckpoint_checked digests (hnoEvents t) (.inl hc)).conseq
          (fun _ hw => hw) ?_ (fun _ hw => hw)
        rintro r'' w ⟨hw, rfl⟩
        exact ⟨none, t, hw, h.absent hc hr, ⟨rfl, rfl⟩, fun _ _ he => nomatch he⟩
      | some recovery =>
        have hread : Spec (Fresh t) (restoreRecovery args digests { prior := args.prior })
            (RestoredIn args S digests) NoEvents := by
          unfold restoreRecovery
          rw [hr]
          refine Spec.bind (Spec.lift _ (hnoEvents t)) fun decode => ?_
          refine Spec.assume fun hdecode => ?_
          refine Spec.bind (onTracker_spec fun x t' hx => (h.recovery recovery hc hr).load decode
            digests x t' (hlr recovery hc hr) (Arguments.requireCodecs_ok hdecode) hx) fun x => ?_
          refine Spec.pure _ ?_
          rintro w ⟨t', hw, hS⟩
          refine ⟨_, t', hw, hS, ?_, hload x⟩
          cases x with
          | none => exact ⟨rfl, rfl⟩
          | some p => exact ⟨rfl, by simp [Restored.recovered, Arguments.resumable, hc]⟩
        have hE (r' : Restored T) : ∀ w, RestoredIn args S digests r' w → NoEvents w :=
          fun w ⟨_, t', hw, _⟩ => hw.noEvents
        refine Spec.bind hread fun r' => ?_
        refine (restoreCheckpoint_checked digests (hE r') (.inl hc)).conseq
          (fun _ hw => hw) ?_ (fun _ hw => hw)
        rintro r'' w ⟨hw, rfl⟩
        exact hw

/-- The values over which the loop runs, as a loaded value and the bindings decide them. -/
structure AdmittedAs (env : Environment) (args : Arguments T J) (x : Loaded T) (a : Admitted T) :
    Prop where
  prior : a.prior = (x.map Prod.fst).or args.prior
  terminalPending : a.terminalPending =
    (x.map (fun p => exclude args.resumable p.1.pending)).getD []
  digests : ∀ p ds, x = some (p, ds) → ds.same a.requestDigests = true
  cached : a.cached = Arguments.receipts env a.prior
  bound : Bound env args ⟨a.requests, a.requestDigests⟩

/-- The world in which the loop starts. -/
def LoopStart (args : Arguments T J) (a : Admitted T) (t : Tracker) (w : World T) : Prop :=
  ∃ c b, w = {
    cursor := c
    tracker := t
    accounting := { unknownResponseBytes := (a.prior.map WorkExecution.responseBytesReserved).getD 0 }
    pending := args.plan.unprocessed
    attemptedIds := (a.prior.map WorkExecution.attemptedIds).getD []
    admissionPending := b }

theorem requirePrior_spec {args : Arguments T J} (prior : Option (WorkExecution T))
    {P : World T → Prop} (hE : ∀ w, P w → NoEvents w) :
    Spec P (requirePrior args prior) (fun _ => P) NoEvents := by
  unfold requirePrior
  cases prior with
  | none => exact Spec.pure _ fun w hw => hw
  | some p =>
    refine Spec.bind Spec.get fun w => ?_
    refine Spec.ite (fun _ => Spec.pure _ fun w hw => hw.1) fun _ => ?_
    exact Spec.raise _ fun w hw => hE w hw.1

/-- What `execute_plan` has read when its loop starts. -/
theorem admit_spec (env : Environment) {args : Arguments T J} {t₀ : Tracker}
    {S : Loaded T → Tracker → Prop} (h : StoresReadIn args t₀ S) :
    Spec (Fresh t₀) (admitPlan env args)
      (fun a w => ∃ x t, S x t ∧ AdmittedAs env args x a ∧ LoopStart args a t w) NoEvents := by
  have hnoEvents : ∀ w : World T, Fresh t₀ w → NoEvents w := fun _ hw => hw.noEvents
  refine Spec.bind Spec.get fun w => ?_
  refine Spec.conseq (P := Fresh t₀) ?_ (fun _ hw => hw.1) (fun _ _ hw => hw) (fun _ hw => hw)
  refine Spec.bind (Spec.lift _ hnoEvents) fun _ => ?_
  refine Spec.conseq (P := Fresh t₀) ?_ (fun _ hw => hw.1) (fun _ _ hw => hw) (fun _ hw => hw)
  refine Spec.ite (fun _ => Spec.raise _ hnoEvents) fun _ => ?_
  refine Spec.ite (fun _ => Spec.raise _ hnoEvents) fun hconflict => ?_
  refine Spec.bind (restoreAdmission_spec h) fun r => ?_
  have hstable : CursorStable (fun w : World T => ∃ t, Fresh t w ∧ Staged args t₀ S r t) :=
    fun w c ⟨t, hw, hr⟩ => ⟨t, Fresh.stable t w c hw, hr⟩
  have hstaged : ∀ w : World T, (∃ t, Fresh t w ∧ Staged args t₀ S r t) → NoEvents w :=
    fun w ⟨t, hw, _⟩ => hw.noEvents
  refine Spec.bind (bindRequests_spec env hstable hstaged args.plan.batches (fun _ hb => hb) {}
    ⟨fun _ _ hr => (nomatch hr), fun _ _ hd => (nomatch hd)⟩) fun bound => ?_
  refine Spec.assume fun hbound => ?_
  refine Spec.ite (fun _ => Spec.raise _ hstaged) fun hsame => ?_
  refine Spec.bind (restoreStores_spec h bound.requestDigests r hconflict hsame) fun r' => ?_
  have hrestored : ∀ w : World T, RestoredIn args S bound.requestDigests r' w → NoEvents w :=
    fun w ⟨_, t, hw, _⟩ => hw.noEvents
  refine Spec.bind (requirePrior_spec r'.prior hrestored) fun _ => ?_
  let a : Admitted T := {
    prior := r'.prior, terminalPending := r'.terminalPending
    cached := Arguments.receipts env r'.prior
    requests := bound.requests, requestDigests := bound.requestDigests }
  have hstart : ∀ w : World T, RestoredIn args S bound.requestDigests r' w →
      ∃ x t, S x t ∧ AdmittedAs env args x a ∧ LoopStart args a t { w with
        pending := args.plan.unprocessed
        attemptedIds := (r'.prior.map WorkExecution.attemptedIds).getD []
        accounting :=
          { unknownResponseBytes := (r'.prior.map WorkExecution.responseBytesReserved).getD 0 }
        admissionPending := args.checkpoint.isSome && !r'.checkpointLoaded } := by
    rintro w ⟨x, t, ⟨c, rfl⟩, hS, hx, hds⟩
    exact ⟨x, t, hS, ⟨hx.prior, hx.terminalPending, hds, rfl, hbound⟩, c, _, rfl⟩
  refine Spec.bind (Spec.modify _ (Q := fun w => ∃ x t, S x t ∧ AdmittedAs env args x a ∧
    LoopStart args a t w) hstart) fun _ => ?_
  exact Spec.pure _ fun w hw => hw

section Run
variable [DecidableEq T]

/-- What a caller shows of the whole loop: `L i` before the batch at `i`, `R` once the rest of
the plan is abandoned, `F` after the last save and `E` where the run raises. -/
structure PlanRule (env : Environment) (args : Arguments T J) (a : Admitted T)
    (L : Nat → World T → Prop) (R F E : World T → Prop) : Prop where
  admission : ∀ w, L 0 w →
    Saves env args a (L 0) E { nextIndex := 0, reason := .admission } w
  batch : ∀ index batch rest, args.plan.batches.drop index = batch :: rest →
    BatchRule env args a index batch (L index) (L (index + 1)) R E
  finish : ∀ w, L args.plan.batches.length w ∨ R w → Saves env args a F E
    { nextIndex := args.plan.batches.length, reason := .finalize } w
  raised : ∀ w, L 0 w → E w
  returned : ∀ w, F w → E w

variable {env : Environment} {args : Arguments T J} {a : Admitted T}
  {L : Nat → World T → Prop} {R F E : World T → Prop}

theorem batchLoop_spec (rule : PlanRule env args a L R F E) (batches : List WorkBatch)
    (index : Nat) (h : args.plan.batches.drop index = batches)
    (hle : index ≤ args.plan.batches.length) :
    Spec (L index) (batchLoop env args a index batches)
      (fun _ w => L args.plan.batches.length w ∨ R w) E := by
  induction batches generalizing index with
  | nil =>
    have hlength : args.plan.batches.length ≤ index := List.drop_eq_nil_iff.mp h
    obtain rfl := Nat.le_antisymm hle hlength
    exact Spec.pure _ fun w hw => .inl hw
  | cons batch rest ih =>
    refine Spec.bind (executeBatch_spec (rule.batch index batch rest h)) fun goOn => ?_
    refine Spec.ite (fun hgo => ?_) fun hstop => ?_
    · subst hgo
      have hdrop : args.plan.batches.drop (index + 1) = rest := by
        rw [← List.tail_drop, h, List.tail_cons]
      have hlt : index + 1 ≤ args.plan.batches.length := by
        have := congrArg List.length h
        simp only [List.length_drop, List.length_cons] at this
        omega
      exact ih (index + 1) hdrop hlt
    · refine Spec.pure _ fun w hw => .inr ?_
      rw [Bool.not_eq_true] at hstop
      subst hstop
      exact hw

/-- What a run returns is the final aggregate of some world. -/
theorem executePlan_returns (env : Environment) (args : Arguments T J) (w : World T)
    {e : WorkExecution T} (h : ((executePlan env args).run w).1 = .ok e) :
    ∃ a w', finalExecution args a w' = .ok e := by
  have hspec : Spec (fun _ => True) (executePlan env args)
      (fun e _ => ∃ a w', finalExecution args a w' = .ok e) (fun _ => True) := by
    refine Spec.bind (Spec.top _) fun a => ?_
    refine Spec.bind (Spec.top _) fun _ => ?_
    refine Spec.bind (Spec.top _) fun _ => ?_
    refine Spec.bind (Spec.top _) fun _ => ?_
    refine Spec.bind Spec.get fun w' => ?_
    exact (Spec.lift _ fun _ _ => trivial).conseq (fun _ hw => hw) (fun _ _ hw => ⟨a, w', hw.2⟩)
      (fun _ hw => hw)
  have hrun := hspec w trivial
  generalize (executePlan env args).run w = result at h hrun
  obtain ⟨x, w'⟩ := result
  cases h
  exact hrun

/-- The rule of `execute_plan`, for a conclusion `G` that a run without events meets. -/
theorem executePlan_spec {t₀ : Tracker} {S : Loaded T → Tracker → Prop} {G : World T → Prop}
    (hstores : StoresReadIn args t₀ S) (hempty : ∀ w, NoEvents w → G w)
    (hrule : ∀ x t a, S x t → AdmittedAs env args x a → ∃ L R F,
      PlanRule env args a L R F G ∧ ∀ w, LoopStart args a t w → L 0 w) :
    Spec (Fresh t₀) (executePlan env args)
      (fun _ => G) G := by
  refine Spec.bind ((admit_spec env hstores).conseq (fun _ hw => hw) (fun _ _ hw => hw) hempty)
    fun a => ?_
  rintro w ⟨x, t, hS, ha, hw⟩
  obtain ⟨L, R, F, rule, hstart⟩ := hrule x t a hS ha
  have hadmission : Spec (L 0) (saveAdmission env args a) (fun _ => L 0) G := by
    refine Spec.bind Spec.get fun w => ?_
    refine Spec.conseq (P := L 0) ?_ (fun _ hw => hw.1) (fun _ _ hw => hw) (fun _ hw => hw)
    exact Spec.ite (fun _ => saveState_spec env args a rule.admission) fun _ =>
      Spec.pure _ fun _ hw => hw
  have hfinal : Spec F (do
      let w ← Prog.get
      Prog.lift (finalExecution args a w)) (fun _ => G) G := by
    refine Spec.bind Spec.get fun w => ?_
    refine (Spec.lift _ fun w hw => rule.returned w hw.1).conseq (fun _ hw => hw) ?_
      (fun _ hw => hw)
    exact fun e w' hw => rule.returned w' hw.1.1
  have hrun : Spec (L 0) (do
      saveAdmission env args a
      batchLoop env args a 0 args.plan.batches
      saveState env args a { nextIndex := args.plan.batches.length, reason := .finalize }
      let w ← Prog.get
      Prog.lift (finalExecution args a w))
      (fun _ => G) G := by
    refine Spec.bind hadmission fun _ => ?_
    refine Spec.bind (batchLoop_spec rule _ 0 (List.drop_zero ..) (Nat.zero_le _)) fun _ => ?_
    exact Spec.bind (saveState_spec env args a rule.finish) fun _ => hfinal
  exact hrun w (hstart w hw)

end Run
end ReviewSensei.Execution
