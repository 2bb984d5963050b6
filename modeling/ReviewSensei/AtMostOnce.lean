import ReviewSensei.DurableRuns

/-! At most one process dispatches a batch: the dispatch is durable before the transport is
called, and what is durably decided is never dispatched again. -/
namespace ReviewSensei.Execution
open ReviewSensei.Effects ReviewSensei.Restart

variable {T J : Type}

/-- What an event of a process respects, after the events shown before it. -/
structure RightStep (plan : ReviewWorkPlan) (s : Option (SaveRecord T)) (seen : List (Event T))
    (e : Event T) : Prop where
  grows : decided plan (left lastCompleted s seen) ⊆
    decided plan (lastCompleted (left lastCompleted s seen) e)
  spares : Disjoint e.dispatches (decided plan s)
  claims : e.dispatches ⊆ decided plan (left lastCompleted s seen)
  keeps : Intact seen → ∀ r completes, e = .save r completes →
    held (left lastCompleted s seen) ⊆ held (some r)
  accounts : ∀ r completes, e = .save r completes → r.execution.plan = plan
  records : ∀ r completes b, e = .save r completes → r.dispatched = true → r.about = some b →
    ∀ q ∈ b.requirementIds, q ∈ decidedBy plan r.execution

section
variable (env : Environment) (args : Arguments T J) (a : Admitted T) (s : Option (SaveRecord T))

/-- What a process knows of the durable state on which it started. -/
structure Restarted : Prop where
  checkpoint : args.checkpoint.isSome = true
  encodes : args.encodeRecovery.isSome = true
  reasons : TerminalReasons a
  cachedOpen : ∀ b, Cached env a b → ∀ r ∈ b.requirementIds, a.terminalPending.get? r = none
  cachedBound : ∀ b, Cached env a b →
    (a.requests.get? (b.batchId env.evidenceDigest)).isSome
  decided : decided args.plan s ⊆ decidedAt env args a 0
  held : ∀ b ∈ held s, b ∈ args.plan.batches ∧ Cached env a b

/-- The loop's invariant at an index, while the requirements in `flight` are dispatched. -/
structure Durable (index : Nat) (flight : Set String) (w : World T) : Prop where
  steps : EachStep (RightStep args.plan s) w.events
  decided : decided args.plan (left lastCompleted s w.events) ⊆
    decidedAt env args a index ∪ flight
  settled : SettledBehind args index w
  held : Intact w.events →
    held (left lastCompleted s w.events) ⊆ heldAt env args a index w

/-- The conclusion about the events of a process. -/
def Stepped (w : World T) : Prop := EachStep (RightStep args.plan s) w.events

end

section
variable {env : Environment} {args : Arguments T J} {a : Admitted T} {s : Option (SaveRecord T)}
  {index : Nat} {flight : Set String} {w : World T}

/-- An event that is no save and dispatches nothing. -/
theorem rightStep_quiet {plan : ReviewWorkPlan} {seen : List (Event T)} {e : Event T}
    (hsave : ∀ r completes, e ≠ .save r completes) (huses : e.dispatches = ∅) :
    RightStep plan s seen e := by
  have hsame : lastCompleted (left lastCompleted s seen) e = left lastCompleted s seen := by
    cases e with
    | save r completes => exact absurd rfl (hsave r completes)
    | _ => rfl
  exact ⟨by rw [hsame], by rw [huses]; exact Set.empty_disjoint _,
    by rw [huses]; exact Set.empty_subset _,
    fun _ r completes he => absurd he (hsave r completes),
    fun r completes he => absurd he (hsave r completes),
    fun r completes _ he => absurd he (hsave r completes)⟩

theorem durable_tracked (h : Durable env args a s index flight w) {w' : World T}
    (hevents : w'.events = w.events) (hcompleted : w'.completed = w.completed)
    (hpending : w'.pending = w.pending) : Durable env args a s index flight w' := by
  obtain ⟨hsteps, hdecided, hsettled, hheld⟩ := h
  refine ⟨hevents ▸ hsteps, hevents ▸ hdecided, ?_, ?_⟩
  · intro b hb r hr
    rw [hcompleted, hpending]
    exact hsettled b hb r hr
  · intro hintact
    rw [hevents] at hintact ⊢
    have := hheld hintact
    unfold heldAt at this ⊢
    rwa [hcompleted]

/-- A shown event that neither saves nor abandons keeps the invariant. -/
theorem durable_shown (h : Durable env args a s index flight w) {e : Event T}
    (hstep : RightStep args.plan s w.events e) (ha : e.abandons = false)
    (hc : e.commits = false) :
    Durable env args a s index flight { w with events := w.events ++ [e] } := by
  have hlast : left lastCompleted s (w.events ++ [e]) = left lastCompleted s w.events := by
    rw [left_append, left_singleton, lastCompleted_quiet hc]
  refine ⟨h.steps.snoc hstep, ?_, h.settled, fun hintact => ?_⟩
  · rw [hlast]
    exact h.decided
  · rw [hlast]
    exact h.held ((intact_snoc ha hc).mp hintact)

end

section Save
variable [DecidableEq T] {env : Environment} {args : Arguments T J} {a : Admitted T}
  {s : Option (SaveRecord T)} {w : World T} {call : SaveCall}

theorem savedRecord_none (hcheck : args.checkpoint.isSome = true)
    (hencodes : args.encodeRecovery.isSome = true)
    (h : savedRecord env args a w call = .ok none) : call.reason = .finalize := by
  unfold savedRecord at h
  rw [if_neg (by simp [Option.isNone_iff_eq_none, Option.isSome_iff_ne_none.mp hcheck,
    Option.isSome_iff_ne_none.mp hencodes])] at h
  cases hexec : savedExecution env args a w call.nextIndex call.dispatched with
  | error exc =>
    rw [hexec] at h
    cases h
  | ok e =>
    rw [hexec] at h
    change (if _ then _ else if _ then _ else _) = _ at h
    split_ifs at h with hskip hnone
    · exact hskip.2.1
    · simp [Option.isNone_iff_eq_none, Option.isSome_iff_ne_none.mp hcheck] at hnone
    · cases h

/-- The rule of a save: the invariant is kept, and a completed save claims what it dispatches. -/
theorem durable_saves {Q : World T → Prop} (hs : Restarted env args a s)
    (h : Durable env args a s call.nextIndex (inFlight args call) w)
    (hbatch : call.dispatched = true → args.plan.batches[call.nextIndex]? = call.batch)
    (hQ : ∀ w', Durable env args a s call.nextIndex (inFlight args call) w' →
      inFlight args call ⊆ decided args.plan (left lastCompleted s w'.events) →
      (∀ b ∈ args.plan.batches.drop call.nextIndex, ∀ item,
        a.cached.get? (b.batchId env.evidenceDigest) = some item →
        revalidated env args a item b = .ok true) → Q w')
    (hskip : call.reason = .finalize → Q w) :
    Saves env args a Q (Stepped args s) call w := by
  unfold Saves
  cases hrecord : savedRecord env args a w call with
  | error exc => exact h.steps
  | ok saved =>
    cases saved with
    | none => exact hskip (savedRecord_none hs.checkpoint hs.encodes hrecord)
    | some record =>
      obtain ⟨e, hexec, rfl⟩ := savedRecord_eq hrecord
      have hplan : e.plan = args.plan := by
        obtain ⟨_, _, hplan, _⟩ := savedExecution_eq hs.checkpoint hexec
        exact hplan
      have hgrows : decidedAt env args a call.nextIndex ∪ inFlight args call ⊆
          decided args.plan (some (saveRecord env args a w call e)) := fun r hr =>
        ⟨_, rfl, decidedAt_subset_saved hs.checkpoint h.settled hs.reasons hexec hr⟩
      have hheld : held (some (saveRecord env args a w call e)) =
          heldAt env args a call.nextIndex w := by
        rw [← held_saved hs.checkpoint hexec]
        ext b
        simp [held, saveRecord]
      have hstep (completes : Bool) :
          RightStep args.plan s w.events (.save (saveRecord env args a w call e) completes) := by
        refine ⟨?_, Set.empty_disjoint _, Set.empty_subset _, ?_, ?_, ?_⟩
        · cases completes with
          | false => exact subset_rfl
          | true => exact h.decided.trans hgrows
        · rintro hintact r c he
          cases he
          exact (h.held hintact).trans hheld.ge
        · rintro r c he
          cases he
          exact hplan
        · rintro r c b he hdispatched habout q hq
          cases he
          have hclaimed := hgrows (.inr ⟨hdispatched, b, (hbatch hdispatched).trans habout, hq⟩)
          obtain ⟨_, he, hdecided⟩ := hclaimed
          cases he
          exact hdecided
      refine ⟨hQ _ ⟨h.steps.snoc (hstep true), ?_, h.settled, fun _ => ?_⟩ ?_ ?_,
        h.steps.snoc (hstep false)⟩
      · simp only [World.saved, left_append, left_singleton, lastCompleted]
        rintro r ⟨_, he, hr⟩
        cases he
        exact saved_subset_decidedAt hs.checkpoint hexec hr
      · simp only [World.saved, left_append, left_singleton, lastCompleted]
        exact hheld.le
      · simp only [World.saved, left_append, left_singleton, lastCompleted]
        exact Set.subset_union_right.trans hgrows
      · intro b hb item hitem
        obtain ⟨receipts, hreceipts, -⟩ := savedExecution_eq hs.checkpoint hexec
        exact ((retainedReceipts_spec hreceipts).1 b hb item hitem).2

end Save

/-- The requirements of a batch. -/
def flightOf (b : WorkBatch) : Set String := {r | r ∈ b.requirementIds}

section Advance
variable {env : Environment} {args : Arguments T J} {a : Admitted T} {s : Option (SaveRecord T)}
  {w w' : World T} {index : Nat} {b : WorkBatch} {rest : List WorkBatch} {flight : Set String}

theorem take_succ_of_drop (hdrop : args.plan.batches.drop index = b :: rest) :
    args.plan.batches.take (index + 1) = args.plan.batches.take index ++ [b] := by
  have hb : args.plan.batches[index]? = some b := by simpa using congrArg List.head? hdrop
  rw [List.take_add_one, hb]
  rfl

theorem drop_succ_of_drop (hdrop : args.plan.batches.drop index = b :: rest) :
    args.plan.batches.drop (index + 1) = rest := by
  rw [← List.tail_drop, hdrop, List.tail_cons]

theorem inFlight_dispatched (hdrop : args.plan.batches.drop index = b :: rest) {call : SaveCall}
    (hindex : call.nextIndex = index) (hdispatched : call.dispatched = true) :
    inFlight args call = flightOf b := by
  have hb : args.plan.batches[index]? = some b := by simpa using congrArg List.head? hdrop
  ext r
  simp [inFlight, flightOf, hindex, hdispatched, hb]

theorem inFlight_settled {call : SaveCall} (h : call.dispatched = false) :
    inFlight args call = ∅ := by
  ext r
  simp [inFlight, h]

/-- The loop passes a batch that is completed or waits. -/
theorem durable_advance (h : Durable env args a s index flight w) (hflight : flight ⊆ flightOf b)
    (hdrop : args.plan.batches.drop index = b :: rest) (hevents : w'.events = w.events)
    (hcompleted : w.completed ⊆ w'.completed) (hpending : w.pending ⊆ w'.pending)
    (hb : ∀ r ∈ b.requirementIds, (∃ c ∈ w'.completed, r ∈ c.batch.requirementIds) ∨
      ∃ reason, (r, reason) ∈ w'.pending ∧ reason ≠ "queued")
    (hheld : Intact w.events →
      Cached env a b → ∃ c ∈ w'.completed, c.batch = b) :
    Durable env args a s (index + 1) ∅ w' := by
  have htake := take_succ_of_drop hdrop
  have hrest := drop_succ_of_drop hdrop
  refine ⟨hevents ▸ h.steps, ?_, ?_, ?_⟩
  · rw [hevents, Set.union_empty]
    refine h.decided.trans ?_
    rintro r ((⟨b', hb', hr⟩ | ⟨b', hb', hr, hwhy⟩) | hr)
    · exact .inl ⟨b', by rw [htake]; exact List.mem_append_left _ hb', hr⟩
    · rw [hdrop] at hb'
      rcases List.mem_cons.mp hb' with rfl | hb'
      · exact .inl ⟨b', by rw [htake]; simp, hr⟩
      · exact .inr ⟨b', by rw [hrest]; exact hb', hr, hwhy⟩
    · exact .inl ⟨b, by rw [htake]; simp, hflight hr⟩
  · intro b' hb' r hr
    rw [htake] at hb'
    rcases List.mem_append.mp hb' with hb' | hb'
    · rcases h.settled b' hb' r hr with ⟨c, hc, hrc⟩ | ⟨reason, hmem, hne⟩
      · exact .inl ⟨c, hcompleted hc, hrc⟩
      · exact .inr ⟨reason, hpending hmem, hne⟩
    · rw [List.mem_singleton] at hb'
      subst hb'
      exact hb r hr
  · intro hintact
    rw [hevents] at hintact ⊢
    refine (h.held hintact).trans ?_
    rintro b' (⟨c, hc, rfl⟩ | ⟨hb', hcached⟩)
    · exact .inl ⟨c, hcompleted hc, rfl⟩
    · rw [hdrop] at hb'
      rcases List.mem_cons.mp hb' with rfl | hb'
      · exact .inl (hheld hintact hcached)
      · exact .inr ⟨by rw [hrest]; exact hb', hcached⟩

theorem decided_subset_all {plan : ReviewWorkPlan} {s : Option (SaveRecord T)} :
    decided plan s ⊆ {r | ∃ b ∈ plan.batches, r ∈ b.requirementIds} := by
  rintro r ⟨_, -, hr, -⟩
  exact hr

/-- The rest of the plan is abandoned behind a refused decision. -/
theorem durable_abandon (h : Durable env args a s index flight w) (item : CompletedBatch T) :
    Durable env args a s args.plan.batches.length ∅
      (World.defer { w with events := w.events ++ [.refused item] } (abandoned args index)) := by
  refine ⟨h.steps.snoc (rightStep_quiet (fun _ _ => by simp) rfl), ?_, ?_, fun hintact => ?_⟩
  · intro r hr
    obtain ⟨b, hb, hrb⟩ := decided_subset_all hr
    exact .inl (.inl ⟨b, by rwa [List.take_length], hrb⟩)
  · intro b hb r hr
    rw [List.take_length] at hb
    have hsplit := List.take_append_drop index args.plan.batches
    rw [← hsplit] at hb
    rcases List.mem_append.mp hb with hb | hb
    · rcases h.settled b hb r hr with hc | ⟨reason, hmem, hne⟩
      · exact .inl hc
      · exact .inr ⟨reason, List.mem_append_left _ hmem, hne⟩
    · refine .inr ⟨"output_budget", List.mem_append_right _ ?_, by decide⟩
      exact List.mem_flatMap.mpr ⟨b, hb, List.mem_map_of_mem hr⟩
  · exact absurd hintact (not_intact_snoc rfl)

/-- The requirements of an open batch without a receipt were not decided when the process
started. -/
theorem flight_disjoint (hs : Restarted env args a s)
    (hdrop : args.plan.batches.drop index = b :: rest) (hopen : terminalEntries a b = none)
    (hcached : a.cached.get? (b.batchId env.evidenceDigest) = none) :
    Disjoint (flightOf b) (decided args.plan s) := by
  refine Set.disjoint_left.mpr fun r hr hdecided => ?_
  have hb : b ∈ args.plan.batches := List.mem_of_mem_drop (i := index) (by rw [hdrop]; simp)
  rcases hs.decided hdecided with ⟨b', hb', -⟩ | ⟨b', hb', hr', hwhy⟩
  · simp at hb'
  · have hsame : b' = b := ReviewWorkPlan.batch_unique (List.mem_of_mem_drop hb') hb hr' hr
    subst hsame
    rcases hwhy with ⟨item, hitem, -⟩ | hterminal
    · cases hitem.symm.trans hcached
    · unfold terminalEntries at hopen
      split at hopen
      · rename_i hnil
        have := List.filterMap_eq_nil_iff.mp hnil r hr
        rw [this] at hterminal
        cases hterminal
      · cases hopen

end Advance

section Rules
variable [DecidableEq T] {env : Environment} {args : Arguments T J} {a : Admitted T}
  {s : Option (SaveRecord T)} {index : Nat} {b : WorkBatch} {rest : List WorkBatch}

/-- While a batch is dispatched: it had no receipt, or its receipt failed and no save followed. -/
def Dispatching (env : Environment) (args : Arguments T J) (a : Admitted T)
    (s : Option (SaveRecord T)) (index : Nat) (b : WorkBatch) (w : World T) : Prop :=
  Durable env args a s index (flightOf b) w ∧
    (a.cached.get? (b.batchId env.evidenceDigest) = none ∨
      (∃ item, a.cached.get? (b.batchId env.evidenceDigest) = some item ∧
        revalidated env args a item b = .ok false) ∧
      ¬Intact w.events)

/-- Once the dispatch is durable. -/
def DispatchSaved (env : Environment) (args : Arguments T J) (a : Admitted T)
    (s : Option (SaveRecord T)) (index : Nat) (b : WorkBatch) (w : World T) : Prop :=
  Durable env args a s index (flightOf b) w ∧
    a.cached.get? (b.batchId env.evidenceDigest) = none ∧
    flightOf b ⊆ decided args.plan (left lastCompleted s w.events)

theorem durable_callRule (hs : Restarted env args a s)
    (hdrop : args.plan.batches.drop index = b :: rest) (hopen : terminalEntries a b = none)
    (request : ProviderRequest) :
    CallRule env args.budgets (callHooks env args a index b) request args.correction b
      (Dispatching env args a s index b) (fun _ => DispatchSaved env args a s index b)
      (fun _ => Dispatching env args a s index b) (Stepped args s) := by
  -- a save made while the batch is dispatched shows that it has no receipt
  have hsave (call : SaveCall) (hindex : call.nextIndex = index)
      (hdispatched : call.dispatched = true) (hcall : call.batch = some b)
      (hreason : call.reason ≠ .finalize) (w : World T)
      (hw : Dispatching env args a s index b w) :
      Saves env args a (DispatchSaved env args a s index b) (Stepped args s) call w := by
    have hflight := inFlight_dispatched hdrop hindex hdispatched
    subst hindex
    have hhead : args.plan.batches[call.nextIndex]? = call.batch := by
      rw [hcall]
      simpa using congrArg List.head? hdrop
    refine durable_saves hs (by rw [hflight]; exact hw.1) (fun _ => hhead) ?_
      fun he => absurd he hreason
    intro w' hw' hclaimed hvalid
    rw [hflight] at hw' hclaimed
    refine ⟨hw', ?_, hclaimed⟩
    rcases hw.2 with hnone | ⟨⟨item, hitem, hstale⟩, -⟩
    · exact hnone
    · have hnow := hvalid b (by rw [hdrop]; exact List.mem_cons_self) item hitem
      rw [hstale] at hnow
      cases hnow
  have hkeep (w : World T) (hw : Dispatching env args a s index b w) {w' : World T}
      (hevents : w'.events = w.events) (hcompleted : w'.completed = w.completed)
      (hpending : w'.pending = w.pending) : Dispatching env args a s index b w' :=
    ⟨durable_tracked hw.1 hevents hcompleted hpending, hevents ▸ hw.2⟩
  have haccount : Spec (Dispatching env args a s index b) (accountDispatch env args a index b)
      (fun _ => Dispatching env args a s index b) (Stepped args s) := by
    refine Spec.bind Spec.get fun w => ?_
    refine (saveState_spec env args a (Q := DispatchSaved env args a s index b) ?_).conseq
      (fun _ hw => hw) (fun _ w' hw => ⟨hw.1, .inl hw.2.1⟩) (fun _ hw => hw)
    rintro w' ⟨hw, rfl⟩
    exact hsave _ rfl rfl rfl (by simp) w hw
  refine {
    idleStable := fun w c hw => hkeep w hw rfl rfl rfl
    armedStable := fun _ w c hw => ⟨durable_tracked hw.1 rfl rfl rfl, hw.2⟩
    calledStable := fun _ w c hw => hkeep w hw rfl rfl rfl
    retries := fun w m n hw => hkeep w hw rfl rfl rfl
    arm := ?_
    call := ?_
    withhold := fun _ w hw => ⟨durable_tracked hw.1 rfl rfl rfl, .inl hw.2.1⟩
    lose := fun _ w hw => hkeep w hw rfl rfl rfl
    settle := ?_
    account := ?_
    raised := fun w hw => hw.1.steps
    cutOff := fun _ w hw => hw.1.steps }
  · intro r limit timeout p calls _
    refine Spec.bind (Spec.modify _ (Q := Dispatching env args a s index b) ?_) fun _ => ?_
    · rintro w' ⟨w, hw, rfl, -, -⟩
      exact hkeep w hw rfl rfl rfl
    · exact saveState_spec env args a fun w hw => hsave _ rfl rfl rfl (by simp) w hw
  · intro w r limit timeout hw
    have hstep : RightStep args.plan s w.events (.called b (bounded r limit timeout)) :=
      ⟨subset_rfl, flight_disjoint hs hdrop hopen hw.2.1, hw.2.2, fun _ _ _ he => (nomatch he),
        fun _ _ he => (nomatch he), fun _ _ _ he => (nomatch he)⟩
    exact ⟨durable_shown hw.1 hstep rfl rfl, .inl hw.2.1⟩
  · intro n w sent text _ hw
    have hshown := durable_shown hw.1 (e := .answered sent text)
      (rightStep_quiet (fun _ _ => by simp) rfl) rfl rfl
    refine ⟨durable_tracked hshown rfl rfl rfl, hw.2.imp_right fun ⟨hstale, hbroken⟩ => ⟨hstale, ?_⟩⟩
    exact fun hintact => hbroken ((intact_snoc rfl rfl).mp hintact)
  · unfold CallHooks.account callHooks
    simp only [hs.checkpoint, if_true]
    exact haccount

omit [DecidableEq T] in
/-- The entries of a postponed batch give each of its requirements a reason of its own. -/
theorem postponed_settles (hreasons : TerminalReasons a) {entries : List (String × String)}
    (h : Postponed env a b entries) :
    ∀ r ∈ b.requirementIds, ∃ reason, (r, reason) ∈ entries ∧ reason ≠ "queued" := by
  intro r hr
  cases h with
  | unplannable => exact ⟨_, List.mem_map_of_mem hr, by decide⟩
  | terminal h =>
    unfold terminalEntries at h
    split at h
    · cases h
    · rename_i first more hfirst
      cases h
      have hmem : first ∈ b.requirementIds.filterMap a.terminalPending.get? := by simp [hfirst]
      obtain ⟨r₀, -, hr₀⟩ := List.mem_filterMap.mp hmem
      refine ⟨_, List.mem_map_of_mem hr, ?_⟩
      cases hget : a.terminalPending.get? r with
      | none => exact hreasons r₀ first hr₀
      | some reason => exact hreasons r reason hget

omit [DecidableEq T] in
/-- A postponed batch has no receipt of its own. -/
theorem postponed_uncached (hs : Restarted env args a s) {entries : List (String × String)}
    (h : Postponed env a b entries) : ¬Cached env a b := by
  intro hcached
  cases h with
  | unplannable _ hr =>
    have := hs.cachedBound b hcached
    rw [hr] at this
    cases this
  | terminal h =>
    unfold terminalEntries at h
    split at h
    · cases h
    · rename_i first more hfirst
      have hmem : first ∈ b.requirementIds.filterMap a.terminalPending.get? := by simp [hfirst]
      obtain ⟨r₀, hr₀, hget⟩ := List.mem_filterMap.mp hmem
      rw [hs.cachedOpen b hcached r₀ hr₀] at hget
      cases hget

/-- One iteration keeps the invariant, whichever way the batch goes. -/
theorem durable_batchRule (hs : Restarted env args a s)
    (hdrop : args.plan.batches.drop index = b :: rest) :
    BatchRule env args a index b (Durable env args a s index ∅)
      (Durable env args a s (index + 1) ∅) (Durable env args a s args.plan.batches.length ∅)
      (Stepped args s) := by
  -- a save behind the batch, in a world whose invariant has advanced
  have hsave (call : SaveCall) (hindex : call.nextIndex = index + 1)
      (hdispatched : call.dispatched = false) (hreason : call.reason ≠ .finalize) (w : World T)
      (hw : Durable env args a s (index + 1) ∅ w) :
      Saves env args a (Durable env args a s (index + 1) ∅) (Stepped args s) call w := by
    have hflight : inFlight args call = ∅ := inFlight_settled hdispatched
    rw [← hindex] at hw ⊢
    refine durable_saves hs (by rwa [hflight]) (fun he => ?_) ?_ fun he => absurd he hreason
    · rw [hdispatched] at he
      cases he
    intro w' hw' _ _
    rwa [hflight] at hw'
  have hempty : (∅ : Set String) ⊆ flightOf b := Set.empty_subset _
  refine {
    stable := fun w c hw => durable_tracked hw rfl rfl rfl
    raised := fun w hw => hw.steps
    postponed := ?_
    replayed := ?_
    refused := fun w item _ hw => durable_abandon hw item
    dispatched := fun request digest hplan => ⟨_, _, _,
      ⟨durable_callRule hs hdrop hplan.open_ request, ?_, ?_, ?_⟩, ?_, ?_⟩ }
  · intro w entries hentries hw
    refine hsave _ rfl rfl (by simp) _ ?_
    refine durable_advance hw hempty hdrop rfl (List.Subset.refl _)
      (List.subset_append_left _ _) ?_ ?_
    · intro r hr
      obtain ⟨reason, hmem, hne⟩ := postponed_settles hs.reasons hentries r hr
      exact .inr ⟨reason, List.mem_append_right _ hmem, hne⟩
    · exact fun _ hcached => absurd hcached (postponed_uncached hs hentries)
  · intro w item hitem hw
    have hbatch := revalidated_batch hitem.holds
    refine hsave _ rfl rfl (by simp) _ ?_
    refine durable_advance hw hempty hdrop rfl (List.subset_append_left _ _)
      (List.Subset.refl _) ?_ ?_
    · exact fun r hr => .inl ⟨item, by simp, hbatch ▸ hr⟩
    · exact fun _ _ => ⟨item, by simp, hbatch⟩
  · intro w value hw
    refine hsave _ rfl rfl (by simp) _ ?_
    refine durable_advance hw.1 subset_rfl hdrop rfl (List.subset_append_left _ _)
      (List.Subset.refl _) ?_ ?_
    · exact fun r hr => .inl ⟨⟨b, value, digest⟩, by simp, hr⟩
    · exact fun _ _ => ⟨⟨b, value, digest⟩, by simp, rfl⟩
  · exact fun w value hw => durable_abandon hw.1 _
  · intro w d hw hd
    refine hsave _ rfl rfl (by simp) _ ?_
    refine durable_advance hw.1 subset_rfl hdrop rfl (List.Subset.refl _)
      (List.subset_append_left _ _) ?_ ?_
    · refine fun r hr => .inr ⟨d, List.mem_append_right _ (List.mem_map_of_mem hr), ?_⟩
      rintro rfl
      exact absurd hd (by decide)
    · rintro hintact ⟨item, hitem, -⟩
      rcases hw.2 with hnone | ⟨-, hbroken⟩
      · cases hitem.symm.trans hnone
      · exact absurd hintact hbroken
  · intro hnone w hw
    refine ⟨⟨hw.steps, hw.decided.trans (Set.union_subset_union_right _ hempty), hw.settled,
      hw.held⟩, .inl hnone⟩
  · intro item hitem hstale w hw
    have hdecided : decided args.plan (left lastCompleted s (w.events ++ [.notRevalidated item])) ⊆
        decidedAt env args a index ∪ flightOf b := by
      rw [left_append, left_singleton]
      exact hw.decided.trans (Set.union_subset_union_right _ hempty)
    exact ⟨⟨hw.steps.snoc (rightStep_quiet (fun _ _ => by simp) rfl), hdecided, hw.settled,
      fun hintact => absurd hintact (not_intact_snoc rfl)⟩, .inr ⟨⟨item, hitem, hstale⟩,
      not_intact_snoc rfl⟩⟩

/-- The whole loop keeps the invariant. -/
theorem durable_planRule (hs : Restarted env args a s) :
    PlanRule env args a (fun index => Durable env args a s index ∅)
      (Durable env args a s args.plan.batches.length ∅)
      (Durable env args a s args.plan.batches.length ∅) (Stepped args s) := by
  have hsave (call : SaveCall) (hdispatched : call.dispatched = false) (w : World T)
      (hw : Durable env args a s call.nextIndex ∅ w) :
      Saves env args a (Durable env args a s call.nextIndex ∅) (Stepped args s) call w := by
    have hflight : inFlight args call = ∅ := inFlight_settled hdispatched
    refine durable_saves hs (by rwa [hflight]) (fun he => ?_) ?_ fun _ => hw
    · rw [hdispatched] at he
      cases he
    intro w' hw' _ _
    rwa [hflight] at hw'
  exact {
    admission := fun w hw => hsave { nextIndex := 0, reason := .admission } rfl w hw
    batch := fun index batch rest hdrop => durable_batchRule hs hdrop
    finish := fun w hw => hsave
      { nextIndex := args.plan.batches.length, reason := .finalize } rfl w (hw.elim id id)
    raised := fun w hw => hw.steps
    returned := fun w hw => hw.steps }

omit [DecidableEq T] in
/-- The loop starts with nothing completed and the durable state as it was. -/
theorem durable_start (hs : Restarted env args a s) {t : Tracker} {w : World T}
    (h : LoopStart args a t w) : Durable env args a s 0 ∅ w := by
  obtain ⟨c, admission, rfl⟩ := h
  refine ⟨EachStep.nil, ?_, ?_, fun _ => ?_⟩
  · rw [left_nil, Set.union_empty]
    exact hs.decided
  · intro b hb
    simp at hb
  · rw [left_nil]
    exact fun b hb => .inr (hs.held b hb)

end Rules
end ReviewSensei.Execution
