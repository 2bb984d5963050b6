import ReviewSensei.CallRules
import ReviewSensei.ExecutionLoop

/-! The rules of `save_state`, of one iteration of `execute_plan` and of its whole run. -/
namespace ReviewSensei.Execution
open ReviewSensei.Effects

variable {T J : Type} [DecidableEq T]

section
variable (env : Environment) (args : Arguments T J) (a : Admitted T)

/-- The save that a call requests from a world ends in `Q`, or raises in `E`. -/
def Saves (Q E : World T → Prop) (call : SaveCall) (w : World T) : Prop :=
  match savedRecord env args a w call with
  | .error _ => E w
  | .ok none => Q w
  | .ok (some r) => Q (w.saved r true) ∧ E (w.saved r false)

theorem saveState_spec {P Q E : World T → Prop} {c : SaveCall}
    (h : ∀ w, P w → Saves env args a Q E c w) :
    Spec P (saveState env args a c) (fun _ => Q) E := by
  intro w hw
  have hsaves := h w hw
  unfold Saves at hsaves
  change Ends _ _ (Prog.andThen _ (savedRecord env args a w c, w))
  cases hrecord : savedRecord env args a w c with
  | error e =>
    rw [hrecord] at hsaves
    exact hsaves
  | ok saved =>
    rw [hrecord] at hsaves
    cases saved with
    | none => exact hsaves
    | some r =>
      change Ends _ _ (if env.saveCompletes w.cursor.saves then Except.ok () else
        .error (Exc.other "save failed"), w.saved r (env.saveCompletes w.cursor.saves))
      cases env.saveCompletes w.cursor.saves with
      | true => exact hsaves.1
      | false => exact hsaves.2

/-- The entries under which a batch waits without being dispatched. -/
inductive Postponed (batch : WorkBatch) : List (String × String) → Prop
  | terminal {entries} (h : terminalEntries a batch = some entries) : Postponed batch entries
  | unplannable (h : terminalEntries a batch = none)
      (hr : a.requests.get? (batch.batchId env.evidenceDigest) = none) :
      Postponed batch (waiting batch "prompt_budget")

/-- A batch that neither a terminal reason nor a missing request holds back. -/
structure Plannable (batch : WorkBatch) (request : ProviderRequest) (digest : String) : Prop where
  open_ : terminalEntries a batch = none
  request : a.requests.get? (batch.batchId env.evidenceDigest) = some request
  digest : (a.requestDigests.get? (batch.batchId env.evidenceDigest)).join = some digest

/-- The receipt of a batch, where it is cached and still holds. -/
structure Replayed (batch : WorkBatch) (item : CompletedBatch T) : Prop where
  cached : a.cached.get? (batch.batchId env.evidenceDigest) = some item
  holds : revalidated env args a item batch = .ok true

/-- What a caller keeps while one batch is dispatched and settled. -/
structure DispatchRule (index : Nat) (batch : WorkBatch) (request : ProviderRequest)
    (digest : String) (I : World T → Prop) (A B : Nat → World T → Prop)
    (Q R E : World T → Prop) : Prop where
  call : CallRule env args.budgets (callHooks env args a index batch) request args.correction
    batch I A B E
  accepted : ∀ w value, I w → Saves env args a Q E
    { nextIndex := index + 1, reason := .accepted, batch := some batch
      dispatchDigest := w.currentDispatch }
    { w with completed := w.completed ++ [⟨batch, value, digest⟩] }
  refused : ∀ w value, I w → R (World.defer
    { w with events := w.events ++ [.refused ⟨batch, value, digest⟩] } (abandoned args index))
  failed : ∀ w d, I w → d ∈ callDiagnostics → Saves env args a Q E
    { nextIndex := index + 1, batch := some batch, dispatchDigest := w.currentDispatch }
    (w.defer (waiting batch d))

/-- What a caller shows of one iteration, from `P` to `Q` when the loop goes on and to `R` when
the rest of the plan is abandoned. -/
structure BatchRule (index : Nat) (batch : WorkBatch) (P Q R E : World T → Prop) : Prop where
  stable : CursorStable P
  raised : ∀ w, P w → E w
  postponed : ∀ w entries, Postponed env a batch entries → P w →
    Saves env args a Q E { nextIndex := index + 1, batch := some batch } (w.defer entries)
  replayed : ∀ w item, Replayed env args a batch item → P w →
    Saves env args a Q E { nextIndex := index + 1, reason := .replay, batch := some batch }
      { w with completed := w.completed ++ [item] }
  refused : ∀ w item, Replayed env args a batch item → P w → R (World.defer
    { w with events := w.events ++ [.refused item] } (abandoned args index))
  dispatched : ∀ request digest, Plannable env a batch request digest → ∃ I A B,
    DispatchRule env args a index batch request digest I A B Q R E ∧
    (a.cached.get? (batch.batchId env.evidenceDigest) = none →
      ∀ w, P w → I { w with currentDispatch := none }) ∧
    (∀ item, a.cached.get? (batch.batchId env.evidenceDigest) = some item →
      revalidated env args a item batch = .ok false → ∀ w, P w →
        I { w with events := w.events ++ [.notRevalidated item], currentDispatch := none })

/-- The next iteration's fact when the loop goes on, else that of an abandoned plan. -/
def Continues (Q R : World T → Prop) (goOn : Bool) (w : World T) : Prop :=
  if goOn then Q w else R w

variable {env args a} {index : Nat} {batch : WorkBatch} {P Q R E : World T → Prop}

omit [DecidableEq T] in
theorem acceptItem_spec (h : CursorStable P) (item : CompletedBatch T) :
    Spec P (acceptItem args item) (fun _ => P) E := by
  unfold acceptItem
  cases args.accept with
  | none => exact Spec.pure _ fun _ hw => hw
  | some accept => exact fun w hw => h w _ hw

theorem postpone_spec {entries : List (String × String)}
    (h : ∀ w, P w →
      Saves env args a Q E { nextIndex := index + 1, batch := some batch } (w.defer entries)) :
    Spec P (postpone env args a index batch entries) (Continues Q R) E := by
  refine Spec.bind (Spec.modify _ (Q := fun w => Saves env args a Q E
    { nextIndex := index + 1, batch := some batch } w) h) fun _ => ?_
  refine Spec.bind (saveState_spec env args a fun w hw => hw) fun _ => ?_
  exact Spec.pure _ fun w hw => hw

theorem decideItem_spec {item : CompletedBatch T} {reason : SaveReason} (hP : CursorStable P)
    (haccept : ∀ w, P w → Saves env args a Q E
      { nextIndex := index + 1, reason := reason, batch := some item.batch
        dispatchDigest := if reason = .accepted then w.currentDispatch else none }
      { w with completed := w.completed ++ [item] })
    (hrefuse : ∀ w, P w → R (World.defer
      { w with events := w.events ++ [.refused item] } (abandoned args index))) :
    Spec P (decideItem env args a index item reason) (Continues Q R) E := by
  refine Spec.bind (acceptItem_spec hP item) fun accepted => ?_
  refine Spec.ite (fun _ => ?_) fun _ => ?_
  · let call (w : World T) : SaveCall :=
      { nextIndex := index + 1, reason := reason, batch := some item.batch
        dispatchDigest := if reason = .accepted then w.currentDispatch else none }
    refine Spec.bind (Spec.modify _ (Q := fun w => Saves env args a Q E (call w) w) haccept)
      fun _ => ?_
    refine Spec.bind Spec.get fun w => ?_
    refine Spec.bind (saveState_spec env args a (Q := Q) (c := call w) ?_) fun _ => ?_
    · rintro w' ⟨hw, rfl⟩
      exact hw
    · exact Spec.pure _ fun w hw => hw
  · refine Spec.bind (Spec.modify _ (Q := fun w => R (w.defer (abandoned args index))) hrefuse)
      fun _ => ?_
    refine Spec.bind (Spec.modify _ (Q := R) fun w hw => hw) fun _ => ?_
    exact Spec.pure _ fun w hw => hw

theorem dispatchBatch_spec {request : ProviderRequest} {digest : String} {I : World T → Prop}
    {A B : Nat → World T → Prop}
    (rule : DispatchRule env args a index batch request digest I A B Q R E)
    (h : ∀ w, P w → I { w with currentDispatch := none }) :
    Spec P (dispatchBatch env args a index batch request digest) (Continues Q R) E := by
  refine Spec.bind (Spec.modify _ h) fun _ => ?_
  refine Spec.bind (executeCall_spec rule.call) fun result => ?_
  obtain ⟨value, diagnostic⟩ := result
  rintro w ⟨hI, ⟨v, rfl, rfl⟩ | ⟨rfl, d, hd, rfl⟩⟩
  · exact decideItem_spec rule.call.idleStable (fun w hw => rule.accepted w v hw)
      (fun w hw => rule.refused w v hw) w hI
  · let call (w : World T) : SaveCall :=
      { nextIndex := index + 1, batch := some batch, dispatchDigest := w.currentDispatch }
    have hfailed : Spec I (settleBatch env args a index batch digest ⟨none, some d⟩)
        (Continues Q R) E := by
      refine Spec.bind (Spec.modify _ (Q := fun w => Saves env args a Q E (call w) w)
        fun w hw => rule.failed w d hw hd) fun _ => ?_
      refine Spec.bind Spec.get fun w => ?_
      refine Spec.bind (saveState_spec env args a (Q := Q) (c := call w) ?_) fun _ => ?_
      · rintro w' ⟨hw, rfl⟩
        exact hw
      · exact Spec.pure _ fun w hw => hw
    exact hfailed w hI

/-- One iteration of the loop. -/
theorem executeBatch_spec (rule : BatchRule env args a index batch P Q R E) :
    Spec P (executeBatch env args a index batch) (Continues Q R) E := by
  unfold executeBatch
  cases hterminal : terminalEntries a batch with
  | some entries =>
    exact postpone_spec fun w hw => rule.postponed w entries (.terminal hterminal) hw
  | none =>
    cases hrequest : a.requests.get? (batch.batchId env.evidenceDigest) with
    | none =>
      exact postpone_spec fun w hw => rule.postponed w _ (.unplannable hterminal hrequest) hw
    | some request =>
      cases hdigest : (a.requestDigests.get? (batch.batchId env.evidenceDigest)).join with
      | none => exact Spec.raise _ rule.raised
      | some digest =>
        obtain ⟨I, A, B, hrule, hfresh, hstale⟩ :=
          rule.dispatched request digest ⟨hterminal, hrequest, hdigest⟩
        change Spec P (replayOrDispatch env args a index batch request digest) _ _
        unfold replayOrDispatch
        cases hcached : a.cached.get? (batch.batchId env.evidenceDigest) with
        | none => exact dispatchBatch_spec hrule (hfresh hcached)
        | some previous =>
          refine Spec.bind (Spec.lift _ rule.raised) fun holds => ?_
          refine Spec.conseq (P := fun w => P w ∧ revalidated env args a previous batch = .ok holds)
            (Spec.assume fun hholds => ?_) (fun _ hw => hw) (fun _ _ hw => hw) (fun _ hw => hw)
          cases holds with
          | true =>
            have hbatch : previous.batch = batch := by
              unfold revalidated at hholds
              split at hholds
              · rename_i h
                exact h.1
              · cases hholds
            subst hbatch
            exact decideItem_spec rule.stable
              (fun w hw => rule.replayed w previous ⟨hcached, hholds⟩ hw)
              (fun w hw => rule.refused w previous ⟨hcached, hholds⟩ hw)
          | false =>
            refine Spec.bind (Spec.modify _ (Q := fun w => I { w with currentDispatch := none })
              fun w hw => hstale previous hcached hholds w hw) fun _ => ?_
            exact dispatchBatch_spec hrule fun w hw => hw

end
end ReviewSensei.Execution
