import ReviewSensei.CallerRequestRuns

/-! What a run of the transport guarantees to the confirmation of its writes. -/
namespace ReviewSensei.CallerRequests
open ApiWork Transport

variable {rules : AccountingRules} {t t' : Transport rules} {census : Request → Bool}

/-- The ordinary dispatches among some, and their request identities. -/
def ordinaryIds (ds : List (Dispatch rules)) : List String :=
  (ds.filter Dispatch.ordinary).map Dispatch.requestId

/-- What some dispatches took out of the block. -/
structure Spends (t : Transport rules) (ds : List (Dispatch rules)) (t' : Transport rules) :
    Prop where
  active : t'.state.isSome = true
  usable : t.usable = t'.usable + ds.countP Dispatch.ordinary
  ids : (ids t').Perm (ids t ++ ordinaryIds ds)

theorem Spends.quiet (h : t.state.isSome = true) (hstate : t'.state = t.state)
    (hblock : t'.block = t.block) : Spends t [] t' where
  active := hstate ▸ h
  usable := (usable_congr hstate hblock).symm
  ids := by
    unfold CallerRequests.ids ordinaryIds
    rw [hstate]
    simp

theorem Spends.recorded {ds : List (Dispatch rules)} {u : Transport rules} (h : Spends t ds u)
    (hr : Recorded u t') : Spends t ds t' where
  active := hr.active.trans h.active
  usable := by
    rw [hr.usable]
    exact h.usable
  ids := hr.ids.trans h.ids

theorem Spends.append {ds es : List (Dispatch rules)} {u : Transport rules} (h : Spends t ds u)
    (h' : Spends u es t') : Spends t (ds ++ es) t' where
  active := h'.active
  usable := by
    have hfirst := h.usable
    have hsecond := h'.usable
    rw [List.countP_append]
    omega
  ids := by
    have hsecond := h'.ids.trans (h.ids.append_right _)
    simpa [ordinaryIds, List.append_assoc] using hsecond

theorem Entered.quiet {x : Except CallerError Unit} (he : Entered t x t') :
    t'.state = t.state ∧ t'.block = t.block := by
  cases he <;> exact ⟨rfl, rfl⟩

theorem Staged.quiet {x : Except CallerError Unit} (hs : Staged t x t') :
    t'.state = t.state ∧ t'.block = t.block := by
  cases hs <;> exact ⟨rfl, rfl⟩

theorem Charges.quiet {mutation : Bool} {x : Except CallerError Unit}
    (hc : Charges t mutation x t') : t'.state = t.state ∧ t'.block = t.block := by
  rw [hc.keeps]
  exact ⟨rfl, rfl⟩

/-- A dispatch adds its own identity to those the accounting holds. -/
theorem Debited.ids {requestId : String} (h : Debited t requestId t') :
    (ids t').Perm (ids t ++ [requestId]) := by
  obtain ⟨r, r', pending, blockId, hr, hr', _, _, hid, hdispatch, _⟩ := h.dispatched
  have hperm := apply_requestIds (t := .dispatch blockId pending) hdispatch
  unfold CallerRequests.ids
  rw [hr, hr', ← hid]
  simpa [Transition.dispatchedId] using hperm

theorem Protected.spends {d : Dispatch rules} (h : Protected d) (hordinary : d.ordinary = true) :
    Spends d.before [d] d.after where
  active := by
    obtain ⟨_, r', _, _, _, hr', _⟩ := h.debited.dispatched
    rw [hr']
    rfl
  usable := by
    rw [List.countP_singleton, if_pos hordinary]
    exact h.debited.usable
  ids := by
    have hids := h.debited.ids
    simpa [ordinaryIds, hordinary] using hids

/-- One call takes out of the block exactly what it dispatches. -/
theorem next_spends (census : Request → Bool) (h : Sound t) (hactive : t.state.isSome = true)
    (c : Call rules) : Spends t (c.dispatched census t).toList (c.next census t) := by
  cases c with
  | intend root block =>
    have hkept : t.intend root block = t := if_pos (by rw [hactive]; rfl)
    change Spends t [] (t.intend root block)
    rw [hkept]
    exact .quiet hactive rfl rfl
  | activate r root block =>
    have hrefused : t.accepts r root block = false := by
      unfold accepts
      have hnone : t.state.isNone = false := by
        rw [← Option.not_isSome, hactive]
        rfl
      rw [hnone]
      rfl
    change Spends t [] (t.activate r root block).2
    unfold activate
    rw [hrefused]
    exact .quiet hactive rfl rfl
  | readOperation key retained =>
    exact .quiet hactive (readOperation_entered ..).quiet.1 (readOperation_entered ..).quiet.2
  | mutationOperation key fences =>
    exact .quiet hactive (operation_entered ..).quiet.1 (operation_entered ..).quiet.2
  | operation key capacity writeTail prewriteReads retained =>
    exact .quiet hactive (operation_entered ..).quiet.1 (operation_entered ..).quiet.2
  | stagedPart key fences =>
    exact .quiet hactive (stagedPart_staged ..).quiet.1 (stagedPart_staged ..).quiet.2
  | leave raised =>
    change Spends t [] (t.leave raised)
    unfold leave
    split
    · exact .quiet hactive rfl rfl
    · exact .quiet hactive rfl rfl
  | leaveStaged raised =>
    change Spends t [] (t.leaveStaged raised)
    unfold leaveStaged
    split
    · exact .quiet hactive rfl rfl
    · exact .quiet hactive rfl rfl
  | settle op => exact .quiet hactive rfl rfl
  | checkpoint held root => exact .quiet hactive rfl rfl
  | openRequest request timeout now reply =>
    have hopened := openRequest_opened census t request timeout now reply
    generalize (Call.openRequest request timeout now reply).next census t = n at hopened ⊢
    cases hopened with
    | invalid hnone =>
      rw [hnone]
      exact .quiet hactive rfl rfl
    | refused i e u hu hnone =>
      rw [hnone]
      cases hu with
      | startup _ n os hstate _ =>
        rw [hstate] at hactive
        cases hactive
      | refused e x u _ hc => exact .quiet hactive hc.quiet.1 hc.quiet.2
    | dispatched i u t' hu hsome hr =>
      rw [hsome]
      have hprotected := hu.protected h hactive
      exact (hprotected.spends hactive).recorded hr
  | readResponse index now =>
    have hquiet : Spends t [] t := .quiet hactive rfl rfl
    exact hquiet.recorded (readResponse_recorded ..)

theorem run_sound (census : Request → Bool) (h : Sound t) (calls : List (Call rules)) :
    Sound (runCalls census t calls) :=
  Fenced.run_keeps (P := Sound) (fun _ c hs => next_sound census hs c) h calls

theorem run_spends (census : Request → Bool) (h : Sound t) (hactive : t.state.isSome = true)
    (calls : List (Call rules)) :
    Spends t (dispatches census t calls) (runCalls census t calls) := by
  induction calls generalizing t with
  | nil => exact .quiet hactive rfl rfl
  | cons c calls ih =>
    have hstep := next_spends census h hactive c
    exact hstep.append (ih (next_sound census h c) hstep.active)

/-- One call charges each operation for what it dispatches under it. -/
theorem next_progress (census : Request → Bool) (h : Sound t) (c : Call rules) (op : Nat) :
    Progress (t.operations op) ((c.next census t).operations op)
      ((c.dispatched census t).toList.countP (Dispatch.under op))
      ((c.dispatched census t).toList.countP (Dispatch.mutates op)) := by
  have hmoves := (next_moves census h c).progress op
  cases c with
  | openRequest request timeout now reply =>
    have hopened := openRequest_opened census t request timeout now reply
    generalize (Call.openRequest request timeout now reply).next census t = n at hopened hmoves ⊢
    cases hopened with
    | invalid hnone =>
      rw [hnone]
      exact hmoves
    | refused i e u hu hnone =>
      rw [hnone]
      exact hmoves
    | dispatched i u t' hu hsome hr =>
      have hlater := hr.moves.progress op
      rw [hsome]
      simp only [Option.toList_some, List.countP_singleton]
      cases hu with
      | startup _ n os hstate _ =>
        -- Before a block is confirmed no operation is charged.
        simpa [Dispatch.under, Dispatch.mutates, Dispatch.innermost, Dispatch.ordinary, hstate]
          using hmoves
      | dispatched v u hactive hc hd =>
        obtain ⟨_, hpaid⟩ := hc.progress h hactive op
        have hall := ((hpaid rfl).trans (hd.moves.progress op)).trans hlater
        have hcount : ∀ b : Bool, (if b = true then 1 else 0) = b.toNat := by decide
        rw [hcount, hcount]
        exact hall
  | _ => exact hmoves

theorem run_progress (census : Request → Bool) (h : Sound t) (calls : List (Call rules))
    (op : Nat) :
    Progress (t.operations op) ((runCalls census t calls).operations op)
      ((dispatches census t calls).countP (Dispatch.under op))
      ((dispatches census t calls).countP (Dispatch.mutates op)) := by
  induction calls generalizing t with
  | nil => exact .refl _
  | cons c calls ih =>
    have hstep := next_progress census h c op
    have hrest := ih (next_sound census h c)
    have hall := hstep.trans hrest
    simpa only [dispatches, List.countP_append, runCalls, Fenced.run_cons] using hall

theorem run_moves (census : Request → Bool) (h : Sound t) (calls : List (Call rules)) :
    Moves t (runCalls census t calls) := by
  induction calls generalizing t with
  | nil => exact .refl _
  | cons c calls ih => exact (next_moves census h c).trans (ih (next_sound census h c))

theorem mem_dispatches {d : Dispatch rules} {calls : List (Call rules)} (h : Sound t)
    (hd : d ∈ dispatches census t calls) (hordinary : d.ordinary = true) : Protected d := by
  induction calls generalizing t with
  | nil => cases hd
  | cons c calls ih =>
    rcases List.mem_append.mp hd with hnow | hlater
    · have hsome : c.dispatched census t = some d := by simpa using hnow
      cases c with
      | openRequest request timeout now reply =>
        have hopened := openRequest_opened census t request timeout now reply
        generalize (Call.openRequest request timeout now reply).next census t = n at hopened
        cases hopened with
        | invalid hnone => exact absurd (hnone.symm.trans hsome) nofun
        | refused i e u hu hnone => exact absurd (hnone.symm.trans hsome) nofun
        | dispatched i u t' hu hsome' hr =>
          obtain rfl := Option.some.inj (hsome'.symm.trans hsome)
          exact hu.protected h hordinary
      | _ => cases hsome
    · exact ih (next_sound census h c) hlater

/-- The end of an operation that raised, or that wrote and was not confirmed. -/
def EndsBadly (t : Transport rules) (c : Call rules) (id : Identity) : Prop :=
  match c with
  | .leave raised => ∃ f, t.activeOperation = some f ∧ t.stagedPartOperation = none ∧
      f.identity = id ∧ t.spoiled f raised = true
  | .leaveStaged raised => ∃ f, t.stagedPartOperation = some f ∧ f.identity = id ∧
      t.spoiled f raised = true
  | _ => False

/-- After the call an operation that did not exist before it stands under this identity. -/
def Issues (census : Request → Bool) (t : Transport rules) (c : Call rules) (id : Identity) :
    Prop :=
  ∃ op, t.created ≤ op ∧ ((c.next census t).activeOperation = some ⟨op, id⟩ ∨
    (c.next census t).stagedPartOperation = some ⟨op, id⟩)

theorem endsBadly_failed {c : Call rules} {id : Identity} (h : EndsBadly t c id) :
    id ∈ (c.next census t).failedOperations := by
  cases c with
  | leave raised =>
    obtain ⟨f, hactive, hstaged, hid, hspoiled⟩ := h
    change id ∈ (t.leave raised).failedOperations
    unfold leave
    simp only [hactive, hstaged, remember, hspoiled, if_true, ← hid]
    exact List.mem_cons_self
  | leaveStaged raised =>
    obtain ⟨f, hstaged, hid, hspoiled⟩ := h
    change id ∈ (t.leaveStaged raised).failedOperations
    unfold leaveStaged
    simp only [hstaged, remember, hspoiled, if_true, ← hid]
    exact List.mem_cons_self
  | _ => cases h

/-- The open blocks are those that were open. -/
structure SameFrames (t t' : Transport rules) : Prop where
  active : t'.activeOperation = none ∨ t'.activeOperation = t.activeOperation
  staged : t'.stagedPartOperation = none ∨ t'.stagedPartOperation = t.stagedPartOperation

theorem SameFrames.refl (t : Transport rules) : SameFrames t t := ⟨.inr rfl, .inr rfl⟩

theorem SameFrames.trans {u : Transport rules} (h : SameFrames t u) (h' : SameFrames u t') :
    SameFrames t t' where
  active := by
    rcases h'.active with hnone | hsame
    · exact .inl hnone
    · rw [hsame]
      exact h.active
  staged := by
    rcases h'.staged with hnone | hsame
    · exact .inl hnone
    · rw [hsame]
      exact h.staged

theorem SameFrames.old {op : Nat} {id : Identity} (hf : SameFrames t t') (h : Sound t)
    (hop : t.created ≤ op) (hnew : t'.activeOperation = some ⟨op, id⟩ ∨
      t'.stagedPartOperation = some ⟨op, id⟩) : False := by
  rcases hnew with hactive | hstaged
  · rcases hf.active with hnone | hsame
    · exact nomatch hnone.symm.trans hactive
    · have hlt : op < t.created := h.active _ (hsame.symm.trans hactive)
      omega
  · rcases hf.staged with hnone | hsame
    · exact nomatch hnone.symm.trans hstaged
    · have hlt : op < t.created := (h.staged _ (hsame.symm.trans hstaged)).1
      omega

theorem Recorded.frames (h : Recorded t t') : SameFrames t t' := by
  rw [h.shape]
  exact ⟨.inr rfl, .inr rfl⟩

theorem Charges.frames {mutation : Bool} {x : Except CallerError Unit}
    (hc : Charges t mutation x t') : SameFrames t t' := by
  rw [hc.keeps]
  exact ⟨.inr rfl, .inr rfl⟩

theorem Charged.frames {i : Intent} {x : Except CallerError Unit} (hc : Charged t i x t') :
    SameFrames t t' := by
  have htick : SameFrames t (tick t) := ⟨.inr rfl, .inr rfl⟩
  cases hc with
  | startup _ n os _ _ => exact ⟨.inr rfl, .inr rfl⟩
  | refused e x u _ hu => exact htick.trans hu.frames
  | dispatched u t' _ hu hd =>
    obtain ⟨o, _, _, hshape, _⟩ := hd.shape
    have hlast : SameFrames u t' := by
      rw [hshape]
      exact ⟨.inr rfl, .inr rfl⟩
    exact (htick.trans hu.frames).trans hlast

theorem Opened.frames {c : Call rules} (ho : Opened census t c t') : SameFrames t t' := by
  cases ho with
  | invalid hnone => exact .refl _
  | refused i e u hu hnone => exact hu.frames
  | dispatched i u t' hu hsome hr => exact hu.frames.trans hr.frames

theorem Entered.issued {x : Except CallerError Unit} {op : Nat} {id : Identity}
    (he : Entered t x t') (h : Sound t) (hop : t.created ≤ op)
    (hnew : t'.activeOperation = some ⟨op, id⟩ ∨ t'.stagedPartOperation = some ⟨op, id⟩) :
    id ∉ t.failedOperations := by
  have hsame : SameFrames t t := .refl t
  cases he with
  | refused e => exact (hsame.old h hop hnew).elim
  | shared => exact (hsame.old h hop hnew).elim
  | unfunded e o ho => exact (hsame.old h hop hnew).elim
  | fresh key o hactive hfailed ho hfunded =>
    rcases hnew with hnow | hstaged
    · obtain rfl : (t.root, key) = id := congrArg Frame.identity (Option.some.inj hnow)
      exact hfailed
    · exact (hsame.old h hop (.inr hstaged)).elim
  | again key op' hactive hissued hwritten =>
    rcases hnew with hnow | hstaged
    · obtain rfl : op' = op := congrArg Frame.op (Option.some.inj hnow)
      have hlt := h.issued _ hissued
      exact absurd hop (by omega)
    · exact (hsame.old h hop (.inr hstaged)).elim

theorem Staged.issued {x : Except CallerError Unit} {op : Nat} {id : Identity}
    (hs : Staged t x t') (h : Sound t) (hop : t.created ≤ op)
    (hnew : t'.activeOperation = some ⟨op, id⟩ ∨ t'.stagedPartOperation = some ⟨op, id⟩) :
    id ∉ t.failedOperations := by
  have hsame : SameFrames t t := .refl t
  cases hs with
  | refused e => exact (hsame.old h hop hnew).elim
  | fresh key o frame ho hactive hstaged hfailed hcovers =>
    rcases hnew with hnow | hpart
    · exact (hsame.old h hop (.inl hnow)).elim
    · obtain rfl : t.partIdentity key = id := congrArg Frame.identity (Option.some.inj hpart)
      exact hfailed

/-- A failed identity is never the identity of a new operation. -/
theorem issues_unfailed {c : Call rules} {id : Identity} (h : Sound t)
    (hi : Issues census t c id) : id ∉ t.failedOperations := by
  obtain ⟨op, hop, hnew⟩ := hi
  have hsame : SameFrames t t := .refl t
  cases c with
  | intend root block =>
    have hframes : SameFrames t (t.intend root block) := by
      unfold intend
      split <;> exact ⟨.inr rfl, .inr rfl⟩
    exact (hframes.old h hop hnew).elim
  | activate r root block =>
    have hframes : SameFrames t (t.activate r root block).2 := by
      unfold activate
      split <;> exact ⟨.inr rfl, .inr rfl⟩
    exact (hframes.old h hop hnew).elim
  | readOperation key retained => exact (readOperation_entered ..).issued h hop hnew
  | mutationOperation key fences => exact (operation_entered ..).issued h hop hnew
  | operation key capacity writeTail prewriteReads retained =>
    exact (operation_entered ..).issued h hop hnew
  | stagedPart key fences => exact (stagedPart_staged ..).issued h hop hnew
  | leave raised =>
    have hframes : SameFrames t (t.leave raised) := by
      unfold leave
      split
      · exact ⟨.inl rfl, .inr rfl⟩
      · exact .refl _
    exact (hframes.old h hop hnew).elim
  | leaveStaged raised =>
    have hframes : SameFrames t (t.leaveStaged raised) := by
      unfold leaveStaged
      split
      · exact ⟨.inr rfl, .inl rfl⟩
      · exact .refl _
    exact (hframes.old h hop hnew).elim
  | settle op' => exact (hsame.old h hop hnew).elim
  | checkpoint held root => exact (hsame.old h hop hnew).elim
  | openRequest request timeout now reply =>
    exact ((openRequest_opened ..).frames.old h hop hnew).elim
  | readResponse index now => exact ((readResponse_recorded ..).frames.old h hop hnew).elim

/-- An identity that ended badly stays out of every later operation of the run. -/
theorem failed_forever (h : Sound t) {c c' : Call rules} {mid : List (Call rules)}
    {id id' : Identity} (hbad : EndsBadly t c id)
    (hissues : Issues census (runCalls census (c.next census t) mid) c' id') : id' ≠ id := by
  have hnext := next_sound census h c
  have hremembered := (run_moves census hnext mid).failed id (endsBadly_failed hbad)
  intro hsame
  exact issues_unfailed (run_sound census hnext mid) hissues (hsame ▸ hremembered)

end ReviewSensei.CallerRequests
