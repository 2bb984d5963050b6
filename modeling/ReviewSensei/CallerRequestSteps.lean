import ReviewSensei.CallerRequests
import ReviewSensei.ApiWorkRuns

/-! What one call does to the operations and to the block, and what every call keeps of both. -/
namespace ReviewSensei.CallerRequests
open ApiWork Transport
open ApiRunAccounting (Spent block_unique dispatch_ok confirm_ok)

/-- What a charge does to an operation that had room for it. -/
structure Consumed (o : CallerOperation) (mutation : Bool) (o' : CallerOperation) : Prop where
  capacity : o'.capacity = o.capacity
  writeTail : o'.writeTail = o.writeTail
  used : o'.used = o.used + 1
  remaining : o'.remaining + 1 = o.remaining
  attempted : o'.writeAttempted = (mutation || o.writeAttempted)
  mutates : mutation = true → o.writeTail ≠ 0 ∧ o.writeAttempted = false ∧
    o.writeTail ≤ o.remaining
  reads : mutation = false → o.writeAttempted = false → o.writeTail ≠ 0 →
    o.writeTail < o.remaining

theorem charged_remaining {o : CallerOperation} (h : o.remaining ≠ 0) :
    (o.charged h).remaining + 1 = o.remaining := by
  have hcap : (o.charged h).remaining = o.capacity - (o.used + 1) := rfl
  have hrem : o.remaining = o.capacity - o.used := rfl
  omega

theorem consume_ok {o o' : CallerOperation} {mutation : Bool}
    (h : o.consume mutation = .ok o') : Consumed o mutation o' := by
  unfold CallerOperation.consume at h
  split at h
  · cases h
  rename_i hroom
  have hleft := charged_remaining hroom
  split at h
  · rename_i hmutation
    split at h
    · cases h
    rename_i hfirst
    split at h
    · cases h
    rename_i hfunded
    push Not at hfirst
    obtain rfl := Except.ok.inj h
    exact
      { capacity := rfl, writeTail := rfl, used := rfl, remaining := hleft
        attempted := by rw [hmutation]; rfl
        mutates := fun _ => ⟨hfirst.1, eq_false_of_ne_true hfirst.2, Nat.le_of_not_lt hfunded⟩
        reads := fun hread => absurd hread (by rw [hmutation]; decide) }
  rename_i hread
  have hread : mutation = false := eq_false_of_ne_true hread
  split at h
  · rename_i hattempted
    split at h
    · cases h
    obtain rfl := Except.ok.inj h
    exact
      { capacity := rfl, writeTail := rfl, used := rfl, remaining := hleft
        attempted := by rw [hread]; rfl
        mutates := fun hmutation => absurd hmutation (by rw [hread]; decide)
        reads := fun _ hnot => absurd hattempted (by rw [hnot]; decide) }
  · split at h
    · cases h
    rename_i hprotected
    push Not at hprotected
    obtain rfl := Except.ok.inj h
    exact
      { capacity := rfl, writeTail := rfl, used := rfl, remaining := hleft
        attempted := by rw [hread]; rfl
        mutates := fun hmutation => absurd hmutation (by rw [hread]; decide)
        reads := fun _ _ => hprotected }

variable {rules : AccountingRules} {t t' : Transport rules}

@[simp] theorem store_same (op : Nat) (o : CallerOperation) : (t.store op o).operations op = o :=
  Function.update_self ..

@[simp] theorem store_other {op other : Nat} (h : other ≠ op) (o : CallerOperation) :
    (t.store op o).operations other = t.operations other :=
  Function.update_of_ne h ..

/-- The charges of one request, whether they ended well or not. -/
inductive Charges (t : Transport rules) (mutation : Bool) : Except CallerError Unit →
    Transport rules → Prop
  | refused (e : CallerError) : Charges t mutation (.error e) t
  | free (h : t.activeOperation = none) : Charges t mutation (.ok ()) t
  | own (frame : Frame) (o : CallerOperation) (h : t.activeOperation = some frame)
      (hs : t.stagedPartOperation = none) (hc : Consumed (t.operations frame.op) mutation o) :
      Charges t mutation (.ok ()) (t.store frame.op o)
  | half (child : Frame) (o : CallerOperation) (e : CallerError)
      (hs : t.stagedPartOperation = some child)
      (hc : Consumed (t.operations child.op) mutation o) :
      Charges t mutation (.error e) (t.store child.op o)
  | both (frame child : Frame) (o p : CallerOperation) (h : t.activeOperation = some frame)
      (hs : t.stagedPartOperation = some child)
      (hc : Consumed (t.operations child.op) mutation o)
      (hp : Consumed ((t.store child.op o).operations frame.op) false p) :
      Charges t mutation (.ok ()) ((t.store child.op o).store frame.op p)

theorem chargeOperations_charges (t : Transport rules) (mutation : Bool) :
    Charges t mutation (t.chargeOperations mutation).1 (t.chargeOperations mutation).2 := by
  unfold chargeOperations
  split
  · rename_i hactive
    exact .free hactive
  rename_i frame hactive
  split
  · rename_i hstaged
    unfold Transport.consume
    split
    · exact .refused _
    · rename_i o ho
      exact .own frame o hactive hstaged (consume_ok ho)
  · rename_i child hstaged
    unfold Transport.consume
    split
    · exact .refused _
    rename_i o ho
    simp only [Called.andThen]
    split
    · exact .half child o _ hstaged (consume_ok ho)
    · rename_i p hp
      exact .both frame child o p hactive hstaged (consume_ok ho) (consume_ok hp)

/-- A charge changes the operations only. -/
theorem Charges.keeps {mutation : Bool} {x : Except CallerError Unit}
    (h : Charges t mutation x t') : t' = { t with operations := t'.operations } := by
  cases h <;> rfl

/-- The block and its debit. -/
theorem usable_congr (hstate : t'.state = t.state) (hblock : t'.block = t.block) :
    t'.usable = t.usable := by
  unfold usable
  rw [hstate, hblock]

theorem usable_of {r : ApiRunAccounting rules} {b : CallerRequestBlock}
    (hstate : t.state = some r) (hb : b ∈ r.blocks) (hblock : t.block = some b.blockId) :
    t.usable = b.undispatched := by
  have hfind : r.blocks.find? (fun c => some c.blockId == t.block) = some b := by
    have hsome : (r.blocks.find? (fun c => some c.blockId == t.block)).isSome = true := by
      rw [List.find?_isSome]
      exact ⟨b, hb, by simp [hblock]⟩
    obtain ⟨c, hc⟩ := Option.isSome_iff_exists.mp hsome
    have hid : some c.blockId = t.block := by simpa using List.find?_some hc
    rw [hblock] at hid
    rw [hc, block_unique (List.mem_of_find?_eq_some hc) hb (Option.some.inj hid)]
  unfold usable
  rw [hstate]
  simp [hfind]

/-- One dispatch, as the accounting sees it. -/
structure Debited (t : Transport rules) (requestId : String) (t' : Transport rules) : Prop where
  dispatched : ∃ r r' pending blockId, t.state = some r ∧ t'.state = some r' ∧
    t.block = some blockId ∧ t'.block = some blockId ∧ pending.requestId = requestId ∧
    r.dispatch blockId pending = .ok r' ∧
    ∃ b b', Spent r.owner blockId pending b b' ∧ b ∈ r.blocks ∧ b' ∈ r'.blocks
  usable : t.usable = t'.usable + 1

theorem dispatch_usable {r r' : ApiRunAccounting rules} {pending : PendingApiRequest}
    {blockId : String} (hstate : t.state = some r) (hstate' : t'.state = some r')
    (hblock : t.block = some blockId) (hblock' : t'.block = some blockId)
    (h : r.dispatch blockId pending = .ok r') : Debited t pending.requestId t' := by
  obtain ⟨_, before, b, b', after, hspent, hblocks, hr'⟩ := dispatch_ok h
  have hmem : b ∈ r.blocks := by
    rw [hblocks]
    exact List.mem_append_right _ (.head _)
  have hmem' : b' ∈ r'.blocks := by
    rw [hr']
    exact List.mem_append_right _ (.head _)
  have hleft := usable_of hstate hmem (by rw [hblock, hspent.blockId_eq])
  have hleft' := usable_of hstate' hmem' (by rw [hblock', hspent.same_id, hspent.blockId_eq])
  have hundispatched := hspent.undispatched
  exact
    { dispatched := ⟨r, r', pending, blockId, hstate, hstate', hblock, hblock', rfl, h, b, b',
        hspent, hmem, hmem'⟩
      usable := by omega }

/-- The request identities the accounting holds. -/
def ids (t : Transport rules) : List String :=
  match t.state with
  | none => []
  | some r => r.requestIds

/-- A call that only moves requests between the categories of the accounting and writes
receipts. -/
structure Recorded (t t' : Transport rules) : Prop where
  shape : t' = { t with state := t'.state, observations := t'.observations }
  usable : t'.usable = t.usable
  ids : (ids t').Perm (ids t)
  active : t'.state.isSome = t.state.isSome
  length : t'.observations.length = t.observations.length

theorem Recorded.refl (t : Transport rules) : Recorded t t :=
  ⟨rfl, rfl, .refl _, rfl, rfl⟩

theorem Recorded.trans {u : Transport rules} (h : Recorded t u) (h' : Recorded u t') :
    Recorded t t' := by
  refine
    { shape := ?_
      usable := h'.usable.trans h.usable
      ids := h'.ids.trans h.ids
      active := h'.active.trans h.active
      length := h'.length.trans h.length }
  rw [h'.shape, h.shape]

theorem setObservation_recorded (t : Transport rules) (index : Nat) (o : Observation) :
    Recorded t (t.setObservation index o) :=
  ⟨rfl, rfl, .refl _, rfl, List.length_set ..⟩

theorem confirm_usable {r r' : ApiRunAccounting rules} {pending : PendingApiRequest}
    (hstate : t.state = some r) (h : r.confirm pending = .ok r') :
    ({ t with state := some r' } : Transport rules).usable = t.usable := by
  have hblocks : r'.blocks = r.blocks.map (fun b => b.without pending) := by
    rw [(confirm_ok h).2]
  unfold usable
  rw [hstate]
  simp only [hblocks, List.find?_map, Option.map_map]
  rfl

theorem confirmPending_recorded {o : Observation} (h : t.confirmPending o = .ok t') :
    Recorded t t' := by
  unfold confirmPending at h
  split at h
  · obtain rfl := Except.ok.inj h
    exact .refl _
  · cases h
  rename_i pending r _ hstate
  split at h
  · cases h
  rename_i r' hconfirm
  obtain rfl := Except.ok.inj h
  have hperm : r'.requestIds.Perm r.requestIds := by
    simpa [Transition.dispatchedId] using apply_requestIds (t := .confirm pending) hconfirm
  exact
    { shape := rfl
      usable := confirm_usable hstate hconfirm
      ids := by
        unfold ids
        rw [hstate]
        exact hperm
      active := by
        rw [hstate]
        rfl
      length := rfl }

theorem confirmed_recorded (t : Transport rules) (index : Nat) (o : Observation) (now : Instant) :
    Recorded t (t.confirmed index o now).2 := by
  unfold confirmed
  split
  · exact .refl _
  · exact .refl _
  split
  · exact .refl _
  rename_i u hu
  have hrecorded := confirmPending_recorded hu
  dsimp only
  split
  · exact hrecorded.trans (setObservation_recorded ..)
  · exact hrecorded.trans (setObservation_recorded ..)

theorem andThen_recorded {x : Called rules} {f : Transport rules → Called rules}
    (hx : Recorded t x.2) (hf : ∀ u, Recorded u (f u).2) : Recorded t (x.andThen f).2 := by
  rcases x with ⟨_ | _, u⟩
  · exact hx
  · exact hx.trans (hf u)

theorem receive_recorded (t : Transport rules) (index : Nat) (o : Observation) (reply : Reply) :
    Recorded t (t.receive index o reply).2 := by
  cases reply with
  | lost => exact .refl _
  | httpError code now =>
    apply andThen_recorded
    · exact (setObservation_recorded ..).trans (confirmed_recorded ..)
    · exact fun u => .refl u
  | response status => exact setObservation_recorded ..

theorem readResponse_recorded (t : Transport rules) (index : Nat) (now : Instant) :
    Recorded t (t.readResponse index now).2 := by
  unfold readResponse
  split
  · exact .refl _
  split
  · exact .refl _
  split
  · exact .refl _
  apply andThen_recorded (confirmed_recorded ..)
  intro u
  exact ⟨rfl, rfl, .refl _, rfl, List.length_modify ..⟩

theorem pendingRequest_id {requestId : String} {deadline : Nat} {pending : PendingApiRequest}
    (h : pendingRequest requestId deadline = .ok pending) : pending.requestId = requestId := by
  unfold pendingRequest at h
  split at h
  · obtain rfl := Except.ok.inj h
    rfl
  · cases h

/-- A receipt whose request nobody has answered. -/
structure Unheard (o : Observation) : Prop where
  outcome : o.outcome = .unknown
  unread : o.read = false

/-- A debit that succeeded: the request is pending in the owned block and has its receipt. -/
structure Dispatches (t : Transport rules) (i : Intent) (t' : Transport rules) : Prop where
  funded : t.unfunded i.request i.mutation = none
  shape : ∃ o : Observation, o.ordinary = true ∧ Unheard o ∧
    t' = { t with state := t'.state, observations := t.observations ++ [o] } ∧
    Debited t o.requestId t'

theorem debit_ok {r : ApiRunAccounting rules} {i : Intent} (hstate : t.state = some r)
    (h : t.debit r i = (.ok (), t')) : Dispatches t i t' := by
  unfold debit at h
  split at h
  · cases h
  rename_i hfunded
  dsimp only at h
  split at h
  · cases h
  rename_i pending hpending
  split at h
  · cases h
  rename_i husable
  split at h
  · cases h
  rename_i r' hdispatch
  obtain rfl := (Prod.mk.inj h).2
  have hblock : ∃ blockId, t.block = some blockId := by
    cases hb : t.block with
    | none =>
      -- Without a block nothing is usable.
      have hzero : t.usable = 0 := by
        unfold usable
        rw [hstate, hb]
        have hfind : r.blocks.find? (fun b => some b.blockId == none) = none :=
          List.find?_eq_none.mpr (fun b _ => by simp)
        simp only [hfind]
        rfl
      exact absurd hzero husable
    | some blockId => exact ⟨blockId, rfl⟩
  obtain ⟨blockId, hblock⟩ := hblock
  rw [hblock] at hdispatch
  refine ⟨hfunded, _, rfl, ⟨rfl, rfl⟩, rfl, ?_⟩
  change Debited t ("c-" ++ hex r.owner.generation ++ "-" ++ hex t.sequence) _
  rw [← pendingRequest_id hpending]
  exact dispatch_usable hstate rfl hblock hblock hdispatch

theorem debit_error {r : ApiRunAccounting rules} {i : Intent} {e : CallerError}
    (h : t.debit r i = (.error e, t')) : t' = t := by
  unfold debit at h
  split at h
  · exact (Prod.mk.inj h).2.symm
  dsimp only at h
  split at h
  · exact (Prod.mk.inj h).2.symm
  split at h
  · exact (Prod.mk.inj h).2.symm
  split at h
  · exact (Prod.mk.inj h).2.symm
  · cases h

def tick (t : Transport rules) : Transport rules := { t with sequence := t.sequence + 1 }

/-- What `open` has done by the physical dispatch, or by the refusal before it. -/
inductive Charged (t : Transport rules) (i : Intent) : Except CallerError Unit →
    Transport rules → Prop
  | startup (x : Except CallerError Unit) (n : Nat) (os : List Observation)
      (h : t.state = none)
      (hos : (∀ o ∈ os, Unheard o) ∧ (x = .ok () → os.length = 1)) :
      Charged t i x
        { tick t with startupDispatches := n, observations := t.observations ++ os }
  | refused (e : CallerError) (x : Except CallerError Unit) (u : Transport rules)
      (h : t.state.isSome = true) (hu : Charges (tick t) i.mutation x u) : Charged t i (.error e) u
  | dispatched (u t' : Transport rules) (h : t.state.isSome = true)
      (hu : Charges (tick t) i.mutation (.ok ()) u) (hd : Dispatches u i t') :
      Charged t i (.ok ()) t'

theorem charge_charged (t : Transport rules) (i : Intent) :
    Charged t i (t.charge i).1 (t.charge i).2 := by
  unfold charge
  dsimp only
  split
  · rename_i hstate
    unfold chargeStartup
    split
    · have h := Charged.startup (t := t) (i := i)
        (.error (.exhausted "startup caller allowance is exhausted")) t.startupDispatches []
        hstate ⟨nofun, nofun⟩
      simpa [tick] using h
    split
    · have h := Charged.startup (t := t) (i := i)
        (.error (.exhausted "startup caller write/readback tail is unfunded")) t.startupDispatches
        [] hstate ⟨nofun, nofun⟩
      simpa [tick] using h
    · refine Charged.startup (t := t) (i := i) (.ok ()) (t.startupDispatches + 1) [_] hstate
        ⟨?_, fun _ => rfl⟩
      intro o ho
      rw [List.mem_singleton.mp ho]
      exact ⟨rfl, rfl⟩
  · rename_i r hstate
    have hsome : t.state.isSome = true := by
      rw [show t.state = some r from hstate]
      rfl
    have hcharges := chargeOperations_charges (tick t) i.mutation
    rcases hx : (tick t).chargeOperations i.mutation with ⟨_ | _, u⟩
    · rename_i e
      rw [hx] at hcharges
      change Charged t i (Called.andThen ((tick t).chargeOperations i.mutation) _).1
        (Called.andThen ((tick t).chargeOperations i.mutation) _).2
      rw [hx]
      exact .refused e _ u hsome hcharges
    · rw [hx] at hcharges
      change Charged t i (Called.andThen ((tick t).chargeOperations i.mutation) _).1
        (Called.andThen ((tick t).chargeOperations i.mutation) _).2
      rw [hx]
      have hkeeps : u = { tick t with operations := u.operations } := hcharges.keeps
      have hu : u.state = some r := by
        rw [hkeeps]
        exact hstate
      change Charged t i (u.debit r i).1 (u.debit r i).2
      rcases hd : u.debit r i with ⟨_ | _, t'⟩
      · rename_i e
        obtain rfl := debit_error hd
        exact .refused e _ _ hsome hcharges
      · exact .dispatched u t' hsome hcharges (debit_ok hu hd)

end ReviewSensei.CallerRequests
