import ReviewSensei.AdmissionRules

/-! Which batch a checkpoint mutation names. `save_state` reuses the name `batch` for the loop
over the unreached batches, so that a mutation names the last of these whenever there is one. -/
namespace ReviewSensei.Execution
open ReviewSensei.Effects

variable {T J : Type} [DecidableEq T]

theorem savedRecord_eq {env : Environment} {args : Arguments T J} {a : Admitted T} {w : World T}
    {call : SaveCall} {r : SaveRecord T} (h : savedRecord env args a w call = .ok (some r)) :
    ∃ execution, savedExecution env args a w call.nextIndex call.dispatched = .ok execution ∧
      r = saveRecord env args a w call execution := by
  unfold savedRecord at h
  split at h
  · cases h
  · cases hexec : savedExecution env args a w call.nextIndex call.dispatched with
    | error e =>
      rw [hexec] at h
      cases h
    | ok execution =>
      rw [hexec] at h
      change (if _ then _ else if _ then _ else _) = _ at h
      split_ifs at h
      · cases h
      · cases h
      · exact ⟨execution, rfl, (Option.some.inj (Except.ok.inj h)).symm⟩

section
variable (env : Environment) (args : Arguments T J)

/-- The digest of a dispatch that carries the request rendered for a batch, or its structural
correction. -/
def DispatchDigestOf (batch : WorkBatch) (digest : String) : Prop :=
  ∃ b ∈ args.plan.batches, b.batchId env.evidenceDigest = batch.batchId env.evidenceDigest ∧
    ∃ original request p limit timeout calls, args.render b = .ok original ∧
      Attempted original args.correction request ∧
      digest = dispatchDigest env args.budgets p (bounded request limit timeout) calls

/-- A mutation names the batch that the save is about, and no batch where there is none. -/
def NamesItsBatch (r : SaveRecord T) (m : CheckpointMutation) : Prop :=
  m.batchId = r.about.map (WorkBatch.batchId env.evidenceDigest) ∧
  m.requestDigest = r.about.bind
    (fun b => (r.requestDigests.get? (b.batchId env.evidenceDigest)).join) ∧
  ∀ digest, m.dispatchDigest = some digest →
    ∃ b, r.about = some b ∧ DispatchDigestOf env args b digest

/-- A save is about the last batch of the plan, or is about none and leaves none unreached. -/
def AboutTheLast (r : SaveRecord T) : Prop :=
  match r.about with
  | some b => args.plan.batches.getLast?.map (WorkBatch.batchId env.evidenceDigest) =
      some (b.batchId env.evidenceDigest)
  | none => args.plan.batches.length ≤ r.nextIndex

/-- Where in the plan a save stands: a dispatched batch is the first unreached one, a settled
batch the last reached one. -/
def StandsAt (batches : List WorkBatch) (nextIndex : Nat) (dispatched : Bool) (b : WorkBatch) :
    Prop :=
  if dispatched then batches[nextIndex]? = some b
  else ∃ index, nextIndex = index + 1 ∧ batches[index]? = some b

/-- What `execute_plan` passes to `save_state`. -/
structure CallAbout (call : SaveCall) : Prop where
  stands : ∀ b, call.batch = some b →
    StandsAt args.plan.batches call.nextIndex call.dispatched b
  digest : ∀ digest, call.dispatchDigest = some digest →
    ∃ b, call.batch = some b ∧ DispatchDigestOf env args b digest

/-- The save of a mutation was requested so. -/
def Requested (r : SaveRecord T) : Prop :=
  ∃ a w call execution, r = saveRecord env args a w call execution ∧ CallAbout env args call

def AllRequested (w : World T) : Prop := ∀ r c, .save r c ∈ w.events → Requested env args r

end

section
variable {env : Environment} {args : Arguments T J}

omit [DecidableEq T] in
/-- The batch whose name the mutation carries. -/
theorem namedBatch_eq (call : SaveCall) :
    namedBatch args call = if args.plan.batches.length ≤ call.nextIndex then call.batch
      else args.plan.batches.getLast? := by
  unfold namedBatch
  split
  · rename_i h
    rw [List.drop_eq_nil_of_le h]
    rfl
  · rename_i h
    rw [List.getLast?_drop, if_neg h]
    have hne : args.plan.batches ≠ [] := by
      intro h0
      rw [h0] at h
      exact h (Nat.zero_le _)
    rw [List.getLast?_eq_some_getLast hne]
    rfl

/-- A batch behind which nothing is left stands last in the plan. -/
theorem StandsAt.getLast? {batches : List WorkBatch} {nextIndex : Nat} {dispatched : Bool}
    {b : WorkBatch} (h : StandsAt batches nextIndex dispatched b)
    (hle : batches.length ≤ nextIndex) : batches.getLast? = some b := by
  unfold StandsAt at h
  split at h
  · have hlt := (List.getElem?_eq_some_iff.mp h).1
    omega
  · obtain ⟨index, rfl, hb⟩ := h
    have hlt := (List.getElem?_eq_some_iff.mp hb).1
    have hindex : index = batches.length - 1 := by omega
    rw [List.getLast?_eq_getElem?, ← hindex, hb]

omit [DecidableEq T] in
theorem Requested.names_iff {r : SaveRecord T} (h : Requested env args r)
    {m : CheckpointMutation} (hm : r.mutation = some m) :
    NamesItsBatch env args r m ↔ AboutTheLast env args r := by
  obtain ⟨a, w, call, execution, rfl, hcall⟩ := h
  simp only [saveRecord] at hm
  split at hm
  swap
  · cases hm
  obtain rfl := Option.some.inj hm
  have hnamed : namedBatch args call = if args.plan.batches.length ≤ call.nextIndex then call.batch
      else args.plan.batches.getLast? := namedBatch_eq call
  constructor
  · rintro ⟨hid, -, -⟩
    simp only [checkpointMutation, saveRecord, hnamed] at hid
    unfold AboutTheLast
    simp only [saveRecord]
    split_ifs at hid with hle
    · cases hb : call.batch with
      | none => exact hle
      | some b => simp [(hcall.stands b hb).getLast? hle]
    · cases hb : call.batch with
      | none =>
        rw [hb] at hid
        have hnil : args.plan.batches = [] := by simpa using hid
        simp [hnil]
      | some b => simpa [hb] using hid
  · intro hlast
    unfold AboutTheLast at hlast
    simp only [saveRecord] at hlast
    refine ⟨?_, ?_, fun digest hd => hcall.digest digest hd⟩
    · simp only [checkpointMutation, saveRecord, hnamed]
      split_ifs with hle
      · rfl
      · cases hb : call.batch with
        | none => exact absurd (by simpa [hb] using hlast) hle
        | some b => simpa [hb] using hlast
    · simp only [checkpointMutation, saveRecord, hnamed]
      split_ifs with hle
      · rfl
      · cases hb : call.batch with
        | none => exact absurd (by simpa [hb] using hlast) hle
        | some b =>
          rw [hb] at hlast
          obtain ⟨l, hl, hid⟩ := Option.map_eq_some_iff.mp hlast
          simp [hl, hid]

/-- The current dispatch, where there is one, carries the batch's own request. -/
def DispatchesFor (env : Environment) (args : Arguments T J) (batch : WorkBatch) (w : World T) :
    Prop :=
  AllRequested env args w ∧
    ∀ digest, w.currentDispatch = some digest → DispatchDigestOf env args batch digest

/-- Every save of a well-placed call keeps the fact that all saves were requested. -/
theorem AllRequested.saves {a : Admitted T} {w : World T} {call : SaveCall} {Q : World T → Prop}
    (hw : AllRequested env args w) (hcall : CallAbout env args call)
    (hQ : ∀ w', AllRequested env args w' → w'.currentDispatch = w.currentDispatch → Q w') :
    Saves env args a Q (AllRequested env args) call w := by
  unfold Saves
  cases hrecord : savedRecord env args a w call with
  | error e => exact hw
  | ok saved =>
    cases saved with
    | none => exact hQ w hw rfl
    | some r =>
      obtain ⟨execution, -, rfl⟩ := savedRecord_eq hrecord
      have hnew (completes : Bool) :
          AllRequested env args (w.saved (saveRecord env args a w call execution) completes) := by
        intro r c hr
        rcases List.mem_append.mp hr with hr | hr
        · exact hw r c hr
        · cases List.mem_singleton.mp hr
          exact ⟨a, w, call, execution, rfl, hcall⟩
      exact ⟨hQ _ (hnew true) rfl, hnew false⟩

omit [DecidableEq T] in
/-- An event that is no save keeps the fact that all saves were requested. -/
theorem AllRequested.emitted {w : World T} {e : Event T} (hw : AllRequested env args w)
    (he : ∀ r c, e ≠ .save r c) : AllRequested env args { w with events := w.events ++ [e] } := by
  intro r c hr
  rcases List.mem_append.mp hr with hr | hr
  · exact hw r c hr
  · exact absurd (List.mem_singleton.mp hr).symm (he r c)

omit [DecidableEq T] in
/-- The calls made while a batch is dispatched. -/
theorem callAbout_dispatched {batch : WorkBatch} {index : Nat} {rest : List WorkBatch}
    (h : args.plan.batches.drop index = batch :: rest) (reason : SaveReason)
    {digest : Option String}
    (hd : ∀ d, digest = some d → DispatchDigestOf env args batch d) :
    CallAbout env args { nextIndex := index, dispatched := true, reason := reason
                         batch := some batch, dispatchDigest := digest } := by
  refine ⟨fun b hb => ?_, fun d hdigest => ⟨batch, rfl, hd d hdigest⟩⟩
  cases hb
  have := congrArg List.head? h
  simpa [StandsAt] using this

omit [DecidableEq T] in
/-- The calls made once a batch is settled. -/
theorem callAbout_settled {batch : WorkBatch} {index : Nat} {rest : List WorkBatch}
    (h : args.plan.batches.drop index = batch :: rest) (reason : SaveReason)
    {digest : Option String}
    (hd : ∀ d, digest = some d → DispatchDigestOf env args batch d) :
    CallAbout env args { nextIndex := index + 1, reason := reason, batch := some batch
                         dispatchDigest := digest } := by
  refine ⟨fun b hb => ?_, fun d hdigest => ⟨batch, rfl, hd d hdigest⟩⟩
  cases hb
  have := congrArg List.head? h
  exact ⟨index, rfl, by simpa using this⟩

omit [DecidableEq T] in
theorem callAbout_noBatch (nextIndex : Nat) (reason : SaveReason) :
    CallAbout env args { nextIndex := nextIndex, reason := reason } :=
  ⟨fun _ hb => (nomatch hb), fun _ hd => (nomatch hd)⟩

theorem dispatchesFor_callRule {a : Admitted T} {x : Loaded T} (ha : AdmittedAs env args x a)
    {batch : WorkBatch} {index : Nat} {rest : List WorkBatch}
    (h : args.plan.batches.drop index = batch :: rest) {request : ProviderRequest}
    (hrequest : a.requests.get? (batch.batchId env.evidenceDigest) = some request) :
    CallRule env args.budgets (callHooks env args a index batch) request args.correction batch
      (DispatchesFor env args batch) (fun _ => DispatchesFor env args batch)
      (fun _ => DispatchesFor env args batch) (AllRequested env args) := by
  have haccount : Spec (DispatchesFor env args batch) (accountDispatch env args a index batch)
      (fun _ => DispatchesFor env args batch) (AllRequested env args) := by
    refine Spec.bind Spec.get fun w => ?_
    refine saveState_spec env args a ?_
    rintro w' ⟨⟨hw, hd⟩, rfl⟩
    exact hw.saves (callAbout_dispatched h _ hd) fun w'' hw'' he => ⟨hw'', he ▸ hd⟩
  have hemit (e : Event T) (he : ∀ r c, e ≠ .save r c) (w : World T)
      (hw : DispatchesFor env args batch w) :
      DispatchesFor env args batch { w with events := w.events ++ [e] } :=
    ⟨hw.1.emitted he, hw.2⟩
  refine {
    idleStable := fun w c hw => hw
    armedStable := fun _ w c hw => hw
    calledStable := fun _ w c hw => hw
    retries := fun w m n hw => hw
    arm := ?_
    call := fun w r limit timeout hw => hemit _ (fun _ _ => by simp) w hw
    withhold := fun n w hw => hw
    lose := fun n w hw => hw
    settle := fun n w sent text _ hw => hemit _ (fun _ _ => by simp) w hw
    account := ?_
    raised := fun w hw => hw.1
    cutOff := fun n w hw => hw.1 }
  · intro r limit timeout p calls hattempted
    obtain ⟨b, hb, hid, hrender⟩ := ha.bound.rendered _ request hrequest
    have hdigest : DispatchDigestOf env args batch
        (dispatchDigest env args.budgets p (bounded r limit timeout) calls) :=
      ⟨b, hb, hid, request, r, p, limit, timeout, calls, hrender, hattempted, rfl⟩
    have hone : ∀ d, some (dispatchDigest env args.budgets p (bounded r limit timeout) calls) =
        some d → DispatchDigestOf env args batch d := fun d hd => Option.some.inj hd ▸ hdigest
    refine Spec.bind (Spec.modify _ (Q := fun w => AllRequested env args w ∧ w.currentDispatch =
      some (dispatchDigest env args.budgets p (bounded r limit timeout) calls)) ?_) fun _ => ?_
    · rintro w' ⟨w, hw, rfl, -, -⟩
      exact ⟨hw.1, rfl⟩
    · refine saveState_spec env args a fun w hw => ?_
      exact hw.1.saves (callAbout_dispatched h _ hone)
        fun w' hw' he => ⟨hw', fun d hd => hone d ((he.trans hw.2) ▸ hd)⟩
  · unfold CallHooks.account callHooks
    dsimp only
    cases args.checkpoint.isSome with
    | false => exact Spec.pure _ fun w hw => hw
    | true => exact haccount

theorem requested_batchRule {a : Admitted T} {x : Loaded T} (ha : AdmittedAs env args x a)
    {batch : WorkBatch} {index : Nat} {rest : List WorkBatch}
    (h : args.plan.batches.drop index = batch :: rest) :
    BatchRule env args a index batch (AllRequested env args) (AllRequested env args)
      (AllRequested env args) (AllRequested env args) := by
  have hnone : ∀ d, (none : Option String) = some d → DispatchDigestOf env args batch d :=
    fun d hd => nomatch hd
  refine {
    stable := fun w c hw => hw
    raised := fun w hw => hw
    postponed := fun w entries _ hw =>
      AllRequested.saves (w := w.defer entries) hw (callAbout_settled h _ hnone)
        fun w' hw' _ => hw'
    replayed := fun w item _ hw =>
      AllRequested.saves (w := { w with completed := w.completed ++ [item] }) hw
        (callAbout_settled h _ hnone) fun w' hw' _ => hw'
    refused := fun w item _ hw => AllRequested.emitted hw (fun _ _ => by simp)
    dispatched := fun request digest hplan => ⟨_, _, _, ⟨dispatchesFor_callRule ha h hplan.request,
      ?_, ?_, ?_⟩, ?_, ?_⟩ }
  · intro w value hw
    exact AllRequested.saves (w := { w with completed := w.completed ++ [⟨batch, value, digest⟩] })
      hw.1 (callAbout_settled h _ hw.2) fun w' hw' _ => hw'
  · intro w value hw
    exact AllRequested.emitted hw.1 (fun _ _ => by simp)
  · intro w d hw _
    exact AllRequested.saves (w := w.defer (waiting batch d)) hw.1
      (callAbout_settled h _ hw.2) fun w' hw' _ => hw'
  · exact fun _ w hw => ⟨hw, fun d hd => nomatch hd⟩
  · exact fun item _ _ w hw => ⟨AllRequested.emitted hw (fun _ _ => by simp), fun d hd => nomatch hd⟩

/-- Every save of a process was requested by `execute_plan` about its batch. -/
theorem runProcess_requested (env : Environment) (args : Arguments T J) (tracker : Tracker) :
    AllRequested env args (runProcess env args tracker).2 := by
  have hempty : ∀ w : World T, NoEvents w → AllRequested env args w := by
    intro w hw r c hr
    rw [hw] at hr
    cases hr
  have hspec : Spec (Fresh tracker) (executePlan env args)
      (fun _ => AllRequested env args) (AllRequested env args) := by
    refine executePlan_spec (storesReadIn_top args tracker) hempty ?_
    intro x t a _ ha
    refine ⟨fun _ => AllRequested env args, AllRequested env args, AllRequested env args, {
      admission := fun w hw => hw.saves (callAbout_noBatch 0 _) fun w' hw' _ => hw'
      batch := fun index batch rest h => requested_batchRule ha h
      finish := fun w hw => (hw.elim id id).saves (callAbout_noBatch _ _) fun w' hw' _ => hw'
      raised := fun w hw => hw
      returned := fun w hw => hw }, ?_⟩
    rintro w ⟨c, b, rfl⟩
    exact hempty _ rfl
  have hrun := hspec { tracker := tracker } ⟨{}, rfl⟩
  unfold runProcess
  generalize (executePlan env args).run { tracker := tracker } = r at hrun ⊢
  obtain ⟨x, w⟩ := r
  cases x with
  | ok e => exact hrun
  | error e => exact hrun

/-- In every run, a save names its batch exactly when it is about the last batch of the plan, or
is about no batch and leaves none unreached. -/
theorem save_names_its_batch_iff (env : Environment) (args : Arguments T J) (tracker : Tracker)
    (r : SaveRecord T) (completes : Bool) (m : CheckpointMutation)
    (hr : .save r completes ∈ (runProcess env args tracker).2.events) (hm : r.mutation = some m) :
    NamesItsBatch env args r m ↔ AboutTheLast env args r :=
  (runProcess_requested env args tracker r completes hr).names_iff hm

/-- A checkpoint that holds nothing yet. -/
def emptyCheckpoint : CheckpointStore String String :=
  { loadAdmission := none, load := fun _ _ _ _ => pure none }

def checkpointedArguments : Arguments String String :=
  { sampleArguments with checkpoint := some emptyCheckpoint }

/-- The mutations of a run, each with the batch that its save is about. -/
def savedMutations (events : List (Event T)) : List (Option WorkBatch × CheckpointMutation) :=
  events.filterMap fun
    | .save r _ => r.mutation.map (fun m => (r.about, m))
    | _ => none

omit [DecidableEq T] in
theorem mem_savedMutations {events : List (Event T)} {b : Option WorkBatch}
    {m : CheckpointMutation} (h : (b, m) ∈ savedMutations events) :
    ∃ r completes, .save r completes ∈ events ∧ r.about = b ∧ r.mutation = some m := by
  obtain ⟨e, he, hm⟩ := List.mem_filterMap.mp h
  cases e with
  | save r completes =>
    obtain ⟨m', hm', hpair⟩ := Option.map_eq_some_iff.mp hm
    cases hpair
    exact ⟨r, completes, he, rfl, hm'⟩
  | called _ _ => cases hm
  | answered _ _ => cases hm
  | refused _ => cases hm
  | notRevalidated _ => cases hm

/-- The last batch of the small plan is named by its own dispatch. -/
theorem last_batch_names_itself : ∃ r completes m,
    .save r completes ∈ (runProcess sampleEnvironment checkpointedArguments sampleTracker).2.events ∧
    r.mutation = some m ∧ NamesItsBatch sampleEnvironment checkpointedArguments r m := by
  have hmem : (some (sampleBatch "2"), {
      reason := .dispatch, batchId := some (hexDigest 'a' "2")
      requestDigest := some (hexDigest 'b' "2"), dispatchDigest := some (hexDigest 'c' "2") }) ∈
      savedMutations
        (runProcess sampleEnvironment checkpointedArguments sampleTracker).2.events := by
    decide
  obtain ⟨r, completes, hr, hb, hm⟩ := mem_savedMutations hmem
  refine ⟨r, completes, _, hr, hm, (save_names_its_batch_iff _ _ _ r completes _ hr hm).mpr ?_⟩
  unfold AboutTheLast
  rw [hb]
  rfl

/-- The dispatch of the first batch of the small plan is saved under the second one's name. -/
theorem first_batch_named_as_second : ∃ r completes m,
    .save r completes ∈ (runProcess sampleEnvironment checkpointedArguments sampleTracker).2.events ∧
    r.about = some (sampleBatch "1") ∧ r.mutation = some m ∧ m.reason = .dispatch ∧
    m.batchId = some ((sampleBatch "2").batchId sampleDigest) ∧
    ¬NamesItsBatch sampleEnvironment checkpointedArguments r m := by
  have hmem : (some (sampleBatch "1"), {
      reason := .dispatch, batchId := some (hexDigest 'a' "2")
      requestDigest := some (hexDigest 'b' "2"), dispatchDigest := some (hexDigest 'c' "1") }) ∈
      savedMutations
        (runProcess sampleEnvironment checkpointedArguments sampleTracker).2.events := by
    decide
  obtain ⟨r, completes, hr, hb, hm⟩ := mem_savedMutations hmem
  refine ⟨r, completes, _, hr, hb, hm, rfl, rfl, fun hnames => ?_⟩
  have hid := hnames.1
  rw [hb] at hid
  exact absurd hid (by decide)

end
end ReviewSensei.Execution
