import ReviewSensei.ExecutionCall

/-! The rule of `execute_call`. A caller gives what it knows while no reservation is open, after
a durable dispatch, and after the transport was called; the rule carries it through every way
out of the retry loop. -/
namespace ReviewSensei.Execution
open ReviewSensei.Effects

variable {T : Type}

/-- A fact that no reading of the clock or of the provider can change. -/
def CursorStable (P : World T → Prop) : Prop := ∀ w c, P w → P { w with cursor := c }

/-- The diagnostics with which `execute_call` ends. -/
def callDiagnostics : List String :=
  ["deadline_exceeded", "provider_call_limit", "prompt_budget", "output_budget",
   "provider_identity_changed", "provider_failed", "transport_retry_exhausted",
   "invalid_provider_output"]

/-- A call ends with a value or with one of its diagnostics. -/
def CallResult.Settled (r : CallResult T) : Prop :=
  (∃ v, r.value = some v ∧ r.diagnostic = none) ∨
    r.value = none ∧ ∃ d ∈ callDiagnostics, r.diagnostic = some d

theorem Tracker.admitCall_mem {t : Tracker} {now : Nat} {prompt d : String}
    (h : t.admitCall now prompt = some d) : d ∈ callDiagnostics := by
  unfold Tracker.admitCall at h
  split_ifs at h <;> cases h <;> decide

theorem CallResult.settled_of_diagnostic {d : String} (h : d ∈ callDiagnostics) :
    ({ diagnostic := some d } : CallResult T).Settled :=
  .inr ⟨rfl, d, h, rfl⟩

/-- The request of a dispatch is the original one or its structural correction. -/
def Attempted (original : ProviderRequest) (correction : String) (request : ProviderRequest) :
    Prop :=
  request = original ∨
    original.withPrompt (original.prompt ++ "\n\n" ++ correction) = .ok request

/-- The request that reaches the transport, but for its timeout. -/
def bounded (request : ProviderRequest) (limit : Nat) (timeout : Option Nat) : ProviderRequest :=
  { request with maxResponseBytes := limit, timeout := timeout }

/-- What a caller of `execute_call` must keep: `I` while no reservation is open, `A n` once a
dispatch with the output limit `n` was admitted durably, `B n` once the transport was called,
and `E` where the call raises. -/
structure CallRule (env : Environment) (budgets : EffectiveWorkBudget) (hooks : CallHooks T)
    (original : ProviderRequest) (correction : String) (batch : WorkBatch)
    (I : World T → Prop) (A B : Nat → World T → Prop) (E : World T → Prop) : Prop where
  idleStable : CursorStable I
  armedStable : ∀ n, CursorStable (A n)
  calledStable : ∀ n, CursorStable (B n)
  retries : ∀ w m n, I w →
    I { w with tracker := { w.tracker with transportRetries := m, structuralRetries := n } }
  arm : ∀ request limit timeout p calls, Attempted original correction request →
    Spec (fun w' => ∃ w, I w ∧ w' = w.reserve request.prompt limit ∧
        limit = outputLimit budgets w request ∧ 0 < limit)
      (hooks.beforeDispatch (dispatchDigest env budgets p (bounded request limit timeout) calls))
      (fun _ => A limit) E
  call : ∀ w request limit timeout, A limit w →
    B limit { w with events := w.events ++ [.called batch (bounded request limit timeout)] }
  withhold : ∀ n w, A n w → I w.uncertain
  lose : ∀ n w, B n w → I w.uncertain
  settle : ∀ n w sent text, sent.maxResponseBytes = n → B n w →
    I { w.settle text with events := w.events ++ [.answered sent text] }
  account : Spec I hooks.account (fun _ => I) E
  raised : ∀ w, I w → E w
  cutOff : ∀ n w, B n w → E w

section Readings
variable (env : Environment) {P E : World T → Prop}

theorem monotonic_spec (h : CursorStable P) : Spec P (monotonic env) (fun _ => P) E :=
  fun w hw => h w _ hw

theorem readProvider_spec (h : CursorStable P) : Spec P (readProvider env) (fun _ => P) E :=
  fun w hw => h w _ hw

theorem elapsedMs_spec (h : CursorStable P) : Spec P (elapsedMs env) (fun _ => P) E :=
  Spec.bind (monotonic_spec env h) fun _ =>
    Spec.bind Spec.get fun _ => Spec.pure _ fun _ hw => hw.1

theorem remainingTime_spec (h : CursorStable P) :
    Spec P (remainingTime env) (fun _ => P) E :=
  Spec.bind (monotonic_spec env h) fun _ =>
    Spec.bind Spec.get fun _ => Spec.pure _ fun _ hw => hw.1

theorem requireBinding_spec (h : CursorStable P) (hE : ∀ w, P w → E w)
    (budgets : EffectiveWorkBudget) (request : ProviderRequest) :
    Spec P (requireBinding env budgets request) (fun _ => P) E := by
  unfold requireBinding
  cases budgets.capabilities with
  | none => exact Spec.pure _ fun _ hw => hw
  | some c =>
    refine Spec.bind (readProvider_spec env h) fun p => ?_
    exact (Spec.lift _ hE).conseq (fun _ hw => hw) (fun _ _ hw => hw.1) (fun _ hw => hw)

theorem admitTransportRetry_spec (h : CursorStable P) (retryAfter : Option Nat) :
    Spec P (admitTransportRetry env retryAfter)
      (fun r w => P w ∧ ∀ d, r = some d → d ∈ callDiagnostics) E := by
  have hnone : ∀ w : World T, P w → P w ∧ ∀ d : String, none = some d → d ∈ callDiagnostics :=
    fun w hw => ⟨hw, fun d hd => nomatch hd⟩
  have hstop (d : String) (hd : d ∈ callDiagnostics) :
      ∀ w : World T, P w → P w ∧ ∀ d', some d = some d' → d' ∈ callDiagnostics :=
    fun w hw => ⟨hw, fun d' he => Option.some.inj he ▸ hd⟩
  refine Spec.bind Spec.get fun w => ?_
  refine Spec.conseq (P := P) ?_ (fun _ hw => hw.1) (fun _ _ hw => hw) (fun _ hw => hw)
  refine Spec.ite (fun _ => Spec.pure _ (hstop _ (by decide))) fun _ => ?_
  refine Spec.bind (elapsedMs_spec env h) fun elapsed => ?_
  refine Spec.ite (fun _ => Spec.pure _ (hstop _ (by decide))) fun _ => ?_
  refine Spec.bind (remainingTime_spec env h) fun remaining => ?_
  exact Spec.ite (fun _ => Spec.pure _ (hstop _ (by decide))) fun _ => Spec.pure _ hnone

end Readings

/-- The outcome of one pass: the idle fact holds, and a stopped call is settled. -/
def Passed (original : ProviderRequest) (correction : String) (I : World T → Prop) :
    Pass T → World T → Prop
  | .stop result, w => I w ∧ result.Settled
  | .again _ request, w => I w ∧ Attempted original correction request

section Rule
variable {env : Environment} {budgets : EffectiveWorkBudget} {hooks : CallHooks T}
  {original : ProviderRequest} {correction : String} {batch : WorkBatch}
  {I : World T → Prop} {A B : Nat → World T → Prop} {E : World T → Prop}
  {repairable : Option (Exc → Bool)} {validate : String → WorkBatch → Except Exc T}

theorem stopWith_spec {P : World T → Prop} {d : String} (hd : d ∈ callDiagnostics)
    (h : ∀ w, P w → I w) :
    Spec P (pure (stopWith d) : Run T (Pass T)) (Passed original correction I) E :=
  Spec.pure _ fun w hw => ⟨h w hw, CallResult.settled_of_diagnostic hd⟩

variable (rule : CallRule env budgets hooks original correction batch I A B E)
include rule

theorem retainUncertain_spec {P : World T → Prop} (h : ∀ w, P w → I w.uncertain) :
    Spec P (retainUncertain hooks) (fun _ => I) E :=
  Spec.bind (Spec.modify _ h) fun _ => rule.account

theorem retryTransport_spec {n : Nat} {request : ProviderRequest} (corrected transient : Bool)
    (retryAfter : Option Nat) (hr : Attempted original correction request) :
    Spec (B n) (retryTransport env hooks corrected request transient retryAfter)
      (Passed original correction I) E := by
  refine Spec.bind (retainUncertain_spec rule (rule.lose n)) fun _ => ?_
  refine Spec.bind (remainingTime_spec env rule.idleStable) fun remaining => ?_
  refine Spec.ite (fun _ => stopWith_spec (by decide) fun _ hw => hw) fun _ => ?_
  refine Spec.ite (fun _ => stopWith_spec (by decide) fun _ hw => hw) fun _ => ?_
  refine Spec.bind (admitTransportRetry_spec env rule.idleStable retryAfter) fun reason => ?_
  cases reason with
  | some d =>
    intro w hw
    exact ⟨hw.1, CallResult.settled_of_diagnostic (hw.2 d rfl)⟩
  | none =>
    have hsleep : Spec I (sleepTransportRetry env retryAfter) (fun _ => I) E := by
      refine Spec.ite (fun _ => ?_) fun _ => ?_
      · refine Spec.bind (remainingTime_spec env rule.idleStable) fun _ => ?_
        exact Spec.modify _ fun w hw => rule.retries w _ w.tracker.structuralRetries hw
      · exact Spec.modify _ fun w hw => rule.retries w _ w.tracker.structuralRetries hw
    refine Spec.conseq (P := I) ?_ (fun _ hw => hw.1) (fun _ _ hw => hw) (fun _ hw => hw)
    refine Spec.bind hsleep fun _ => ?_
    refine Spec.bind rule.account fun _ => ?_
    exact Spec.pure _ fun w hw => ⟨hw, hr⟩

theorem correctStructure_spec (corrected : Bool) (exc : Exc) :
    Spec I (correctStructure hooks original correction repairable corrected exc)
      (Passed original correction I) E := by
  refine Spec.bind Spec.get fun w => ?_
  refine Spec.conseq (P := I) ?_ (fun _ hw => hw.1) (fun _ _ hw => hw) (fun _ hw => hw)
  refine Spec.ite (fun _ => Spec.raise _ rule.raised) fun _ => ?_
  refine Spec.ite (fun _ => stopWith_spec (by decide) fun _ hw => hw) fun _ => ?_
  refine Spec.bind (Spec.modify _ fun w hw =>
    rule.retries w w.tracker.transportRetries _ hw) fun _ => ?_
  refine Spec.bind rule.account fun _ => ?_
  refine Spec.bind (Spec.lift _ rule.raised) fun request => ?_
  exact Spec.pure _ fun w hw => ⟨hw.1, .inr hw.2⟩

theorem acceptResponse_spec {n : Nat} (corrected : Bool) {sent : ProviderRequest}
    (hsent : sent.maxResponseBytes = n) (text : String) :
    Spec (B n) (acceptResponse env budgets hooks original correction repairable validate batch
      corrected sent text) (Passed original correction I) E := by
  have hfix (exc : Exc) : Spec I
      (correctStructure hooks original correction repairable corrected exc)
      (Passed original correction I) E := correctStructure_spec rule corrected exc
  refine Spec.bind (Spec.modify _ (Q := fun w => I { w with events := w.events ++ [.answered sent text] })
    fun w hw => rule.settle n w sent text hsent hw) fun _ => ?_
  refine Spec.bind (Spec.modify _ fun w hw => hw) fun _ => ?_
  have haccount : Spec I hooks.accountResponse (fun _ => I) E :=
    Spec.ite (fun _ => Spec.pure _ fun _ hw => hw) fun _ => rule.account
  refine Spec.bind haccount fun _ => ?_
  refine Spec.bind Spec.get fun w => ?_
  refine Spec.conseq (P := I) ?_ (fun _ hw => hw.1) (fun _ _ hw => hw) (fun _ hw => hw)
  refine Spec.ite (fun _ => stopWith_spec (by decide) fun _ hw => hw) fun _ => ?_
  refine Spec.bind (elapsedMs_spec env rule.idleStable) fun elapsed => ?_
  refine Spec.ite (fun _ => stopWith_spec (by decide) fun _ hw => hw) fun _ => ?_
  cases validateBoundedText text sent.maxResponseBytes with
  | error exc => exact hfix exc
  | ok _ =>
    cases validate text batch with
    | error exc => exact hfix exc
    | ok value =>
      refine Spec.bind (elapsedMs_spec env rule.idleStable) fun elapsed => ?_
      refine Spec.ite (fun _ => stopWith_spec (by decide) fun _ hw => hw) fun _ => ?_
      exact Spec.pure _ fun w hw => ⟨hw, .inl ⟨value, rfl, rfl⟩⟩

/-- The transport is called with an armed world and leaves it called. -/
theorem complete_spec (request : ProviderRequest) (limit : Nat) (timeout : Option Nat) :
    Spec (A limit) (complete env batch (bounded request limit timeout)) (fun _ => B limit) E := by
  refine Spec.bind (Spec.modify _ fun w hw => rule.call w request limit timeout hw) fun _ => ?_
  refine Spec.bind Spec.get fun w => ?_
  refine Spec.bind (Spec.modify _ (Q := B limit) fun w' hw =>
    rule.calledStable limit w' _ hw.1) fun _ => ?_
  exact Spec.pure _ fun _ hw => hw

theorem afterReply_spec {n : Nat} {request : ProviderRequest} (corrected : Bool)
    {s : ProviderRequest} (hsent : s.maxResponseBytes = n)
    (hr : Attempted original correction request) (reply : Reply) :
    Spec (B n) (afterReply env budgets hooks original correction repairable validate batch
      corrected request s reply) (Passed original correction I) E := by
  have hlost (d : String) (hd : d ∈ callDiagnostics) : Spec (B n) (do
      Prog.modify World.uncertain
      pure (stopWith d)) (Passed original correction I) E :=
    Spec.bind (Spec.modify _ (rule.lose n)) fun _ => stopWith_spec hd fun _ hw => hw
  cases reply with
  | response text => exact acceptResponse_spec rule corrected hsent text
  | notAResponse => exact hlost _ (by decide)
  | providerError transient retryAfter =>
    exact retryTransport_spec rule corrected transient retryAfter hr
  | invalid => exact hlost _ (by decide)
  | failed => exact hlost _ (by decide)
  | interrupted => exact Spec.raise _ (rule.cutOff n)

/-- An admitted request, with its charge and its reservation already made. -/
def Reserved (budgets : EffectiveWorkBudget) (I : World T → Prop) (request : ProviderRequest)
    (sent : ProviderRequest) (w' : World T) : Prop :=
  ∃ limit timeout, sent = bounded request limit timeout ∧
    ∃ w, I w ∧ w' = w.reserve request.prompt limit ∧
      limit = outputLimit budgets w request ∧ 0 < limit

theorem admitDispatch_spec (request : ProviderRequest) :
    Spec I (admitDispatch env budgets request)
      (fun r w => match r with
        | .error d => I w ∧ d ∈ callDiagnostics
        | .ok sent => Reserved budgets I request sent w) E := by
  have hstop {P : World T → Prop} (d : String) (hd : d ∈ callDiagnostics)
      (h : ∀ w, P w → I w) :
      Spec P (pure (.error d) : Run T (Except String ProviderRequest))
        (fun r w => match r with
          | .error d => I w ∧ d ∈ callDiagnostics
          | .ok sent => Reserved budgets I request sent w) E :=
    Spec.pure _ fun w hw => ⟨h w hw, hd⟩
  refine Spec.bind (requireBinding_spec env rule.idleStable rule.raised budgets request) fun _ => ?_
  refine Spec.bind (monotonic_spec env rule.idleStable) fun t => ?_
  refine Spec.bind Spec.get fun w => ?_
  -- from here on the world differs from `w` in its cursor only
  let P : World T → Prop := fun w' => I w' ∧ ∃ c, w' = { w with cursor := c }
  have hP : CursorStable P := by
    rintro w' c ⟨hI, c', rfl⟩
    exact ⟨rule.idleStable _ c hI, c, rfl⟩
  refine Spec.conseq (P := P) (Q := _) (E := E) ?_ ?_ (fun _ _ hw => hw) (fun _ hw => hw)
  swap
  · rintro w' ⟨hI, rfl⟩
    exact ⟨hI, w.cursor, rfl⟩
  cases hadmit : w.tracker.admitCall t request.prompt with
  | some d => exact hstop d (Tracker.admitCall_mem hadmit) fun _ hw => hw.1
  | none =>
    refine Spec.bind (Spec.lift _ fun w' hw => rule.raised w' hw.1) fun fits => ?_
    refine Spec.conseq (P := P) ?_ (fun _ hw => hw.1) (fun _ _ hw => hw) (fun _ hw => hw)
    refine Spec.ite (fun _ => hstop _ (by decide) fun _ hw => hw.1) fun _ => ?_
    refine Spec.ite (fun _ => hstop _ (by decide) fun _ hw => hw.1) fun hlimit => ?_
    refine Spec.bind (remainingTime_spec env hP) fun remaining => ?_
    refine Spec.ite (fun _ => hstop _ (by decide) fun _ hw => hw.1) fun _ => ?_
    refine Spec.bind (Spec.modify _ (Q := fun w' => ∃ w₀, I w₀ ∧
      w' = w₀.reserve request.prompt (outputLimit budgets w request) ∧
      outputLimit budgets w request = outputLimit budgets w₀ request) ?_) fun _ => ?_
    · rintro w' ⟨hI, c, rfl⟩
      exact ⟨_, hI, rfl, rfl⟩
    · refine Spec.pure _ ?_
      rintro w' ⟨w₀, hI, hw', he⟩
      exact ⟨_, _, rfl, w₀, hI, hw', he, Nat.pos_of_ne_zero hlimit⟩

theorem dispatch_spec {request sent : ProviderRequest} (corrected : Bool)
    (hr : Attempted original correction request) :
    Spec (Reserved budgets I request sent)
      (dispatch env budgets hooks original correction repairable validate batch corrected
        request sent) (Passed original correction I) E := by
  rintro w₀ ⟨limit, timeout, rfl, hlimit⟩
  revert w₀
  let R : World T → Prop := fun w' => ∃ w, I w ∧ w' = w.reserve request.prompt limit ∧
    limit = outputLimit budgets w request ∧ 0 < limit
  have hR : CursorStable R := by
    rintro w' c ⟨w, hI, rfl, he, hpos⟩
    exact ⟨{ w with cursor := c }, rule.idleStable w c hI, rfl, he, hpos⟩
  change Spec R _ _ _
  refine Spec.bind (readProvider_spec env hR) fun p => ?_
  refine Spec.bind Spec.get fun w => ?_
  refine Spec.conseq (P := R) ?_ (fun _ hw => hw.1) (fun _ _ hw => hw) (fun _ hw => hw)
  refine Spec.bind (rule.arm request limit timeout p _ hr) fun _ => ?_
  have hbinding := Spec.attempt (F := E) (requireBinding_spec env (rule.armedStable limit)
    (E := A limit) (fun _ hw => hw) budgets request)
  refine Spec.bind hbinding fun binding => ?_
  -- both ways out of the recheck keep the armed world
  refine Spec.conseq (P := A limit) ?_ ?_ (fun _ _ hw => hw) (fun _ hw => hw)
  swap
  · intro w hw
    cases binding with
    | ok _ => exact hw
    | error _ => exact hw
  cases binding with
  | error _ =>
    refine Spec.bind (retainUncertain_spec rule (rule.withhold limit)) fun _ => ?_
    exact stopWith_spec (by decide) fun _ hw => hw
  | ok _ =>
    refine Spec.bind (remainingTime_spec env (rule.armedStable limit)) fun remaining => ?_
    refine Spec.ite (fun _ => ?_) fun _ => ?_
    · refine Spec.bind (retainUncertain_spec rule (rule.withhold limit)) fun _ => ?_
      exact stopWith_spec (by decide) fun _ hw => hw
    · refine Spec.bind (complete_spec rule request limit _) fun reply => ?_
      exact afterReply_spec rule (n := limit) corrected (s := bounded request limit _) rfl hr reply

theorem callLoop_spec (fuel : Nat) (corrected : Bool) (request : ProviderRequest)
    (hr : Attempted original correction request) :
    Spec I (callLoop env budgets hooks original correction repairable validate batch fuel
      corrected request) (fun r w => I w ∧ r.Settled) E := by
  induction fuel generalizing corrected request with
  | zero =>
    refine Spec.bind (requireBinding_spec env rule.idleStable rule.raised budgets request)
      fun _ => ?_
    refine Spec.bind (monotonic_spec env rule.idleStable) fun t => ?_
    refine Spec.bind Spec.get fun w => ?_
    refine Spec.pure _ fun w' hw => ⟨hw.1, ?_⟩
    split <;> exact CallResult.settled_of_diagnostic (by decide)
  | succ fuel ih =>
    refine Spec.bind (admitDispatch_spec rule request) fun admitted => ?_
    cases admitted with
    | error d => exact Spec.pure _ fun w hw => ⟨hw.1, CallResult.settled_of_diagnostic hw.2⟩
    | ok sent =>
      refine Spec.bind (dispatch_spec rule corrected hr) fun pass => ?_
      cases pass with
      | stop result => exact Spec.pure _ fun w hw => hw
      | again corrected' request' =>
        rintro w ⟨hI, hr'⟩
        exact ih corrected' request' hr' w hI

/-- The rule of `execute_call`. -/
theorem executeCall_spec :
    Spec I (executeCall env budgets hooks original correction repairable validate batch)
      (fun r w => I w ∧ r.Settled) E := by
  refine Spec.bind Spec.get fun w => ?_
  refine Spec.conseq (P := I) ?_ (fun _ hw => hw.1) (fun _ _ hw => hw) (fun _ hw => hw)
  refine Spec.bind (Spec.lift _ rule.raised) fun _ => ?_
  refine Spec.conseq (P := I) ?_ (fun _ hw => hw.1) (fun _ _ hw => hw) (fun _ hw => hw)
  exact Spec.ite (fun _ => Spec.raise _ rule.raised) fun _ => callLoop_spec rule _ _ _ (.inl rfl)

end Rule
end ReviewSensei.Execution
