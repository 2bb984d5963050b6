import ReviewSensei.CallerRequestSteps

/-! The invariant of the transport: an operation that has not written yet is covered by the block,
and a staged part by what its parent may spend above its own tail. -/
namespace ReviewSensei.CallerRequests
open ApiWork Transport

variable {rules : AccountingRules} {t t' : Transport rules}

/-- The child is paid for by what its parent holds above the tail of the root write. -/
structure Covers (parent child : CallerOperation) : Prop where
  unwritten : parent.writeAttempted = false
  tail : parent.writeTail ≠ 0
  room : parent.writeTail + child.remaining ≤ parent.remaining

/-- What every call keeps. -/
structure Sound (t : Transport rules) : Prop where
  blank : ∀ op, t.created ≤ op →
    (t.operations op).used = 0 ∧ (t.operations op).writeAttempted = false
  issued : ∀ p ∈ t.issuedOperations, p.1 < t.created
  active : ∀ f, t.activeOperation = some f → f.op < t.created
  funded : ∀ f, t.activeOperation = some f → (t.operations f.op).writeAttempted = false →
    (t.operations f.op).remaining ≤ t.usable
  staged : ∀ c, t.stagedPartOperation = some c → c.op < t.created ∧
    ∃ f, t.activeOperation = some f ∧ c.op ≠ f.op ∧
      Covers (t.operations f.op) (t.operations c.op)

theorem start_sound (run : ApiRunIdentity) (plan : StartupPlan) (slot : StartupSlot) :
    Sound (Transport.start run plan slot : Transport rules) where
  blank _ _ := ⟨rfl, rfl⟩
  issued _ hp := absurd hp List.not_mem_nil
  active _ hf := nomatch hf
  funded _ hf := nomatch hf
  staged _ hc := nomatch hc

/-- Nothing but the accounting, the receipts and the counters outside the operations changed. -/
theorem Sound.carry (h : Sound t) (hops : t'.operations = t.operations)
    (hcreated : t'.created = t.created) (hissued : t'.issuedOperations = t.issuedOperations)
    (hactive : t'.activeOperation = t.activeOperation)
    (hstaged : t'.stagedPartOperation = t.stagedPartOperation)
    (husable : t.usable ≤ t'.usable) : Sound t' where
  blank op hop := by
    rw [hops]
    exact h.blank op (hcreated ▸ hop)
  issued p hp := by
    rw [hcreated]
    exact h.issued p (hissued ▸ hp)
  active f hf := by
    rw [hcreated]
    exact h.active f (hactive ▸ hf)
  funded f hf hnot := by
    rw [hops] at hnot ⊢
    exact (h.funded f (hactive ▸ hf) hnot).trans husable
  staged c hc := by
    rw [hops, hcreated, hactive]
    exact h.staged c (hstaged ▸ hc)

theorem Recorded.sound (hr : Recorded t t') (h : Sound t) : Sound t' := by
  have hshape := hr.shape
  apply h.carry <;> first | exact hr.usable.ge | (rw [hshape])

theorem Consumed.covers {parent child o p : CallerOperation} {mutation : Bool}
    (hc : Consumed child mutation o) (hp : Consumed parent false p) (h : Covers parent child) :
    Covers p o := by
  have hroom := h.room
  have hchild := hc.remaining
  have hparent := hp.remaining
  have hattempted := hp.attempted
  refine
    { unwritten := ?_
      tail := ?_
      room := ?_ }
  · rw [hattempted, h.unwritten]
    rfl
  · rw [hp.writeTail]
    exact h.tail
  · rw [hp.writeTail]
    omega

theorem Consumed.unwritten {o o' : CallerOperation} {mutation : Bool}
    (h : Consumed o mutation o') (hnot : o'.writeAttempted = false) :
    o.writeAttempted = false := by
  rw [h.attempted, Bool.or_eq_false_iff] at hnot
  exact hnot.2

/-- One operation was charged: what is left of it, and of nothing else, is one less. -/
theorem blank_store {op : Nat} {o : CallerOperation} (h : Sound t) (hop : op < t.created) :
    ∀ other, (t.store op o).created ≤ other →
      ((t.store op o).operations other).used = 0 ∧
        ((t.store op o).operations other).writeAttempted = false := by
  intro other hother
  have hcreated : (t.store op o).created = t.created := rfl
  have hne : other ≠ op := by omega
  rw [store_other hne]
  exact h.blank other hother

/-- The charges of one request keep the invariant; when they all succeed, the active operation
has paid one. -/
theorem Charges.sound {mutation : Bool} {x : Except CallerError Unit}
    (hc : Charges t mutation x t') (h : Sound t) :
    Sound t' ∧ (x = .ok () → ∀ f, t'.activeOperation = some f →
      (t'.operations f.op).writeAttempted = false →
        (t'.operations f.op).remaining + 1 ≤ t.usable) := by
  cases hc with
  | refused e => exact ⟨h, nofun⟩
  | free hactive =>
    refine ⟨h, fun _ f hf => ?_⟩
    rw [hactive] at hf
    cases hf
  | own frame o hactive hstaged ho =>
    have hop := h.active frame hactive
    have hremaining := ho.remaining
    have hpaid : ∀ f, (t.store frame.op o).activeOperation = some f →
        ((t.store frame.op o).operations f.op).writeAttempted = false →
          ((t.store frame.op o).operations f.op).remaining + 1 ≤ t.usable := by
      intro f hf hnot
      obtain rfl : frame = f := Option.some.inj (hactive.symm.trans hf)
      rw [store_same] at hnot ⊢
      have hfunded := h.funded frame hactive (ho.unwritten hnot)
      omega
    refine ⟨?_, fun _ => hpaid⟩
    exact
      { blank := blank_store h hop
        issued := h.issued
        active := h.active
        funded := fun f hf hnot => Nat.le_of_lt (hpaid f hf hnot)
        staged := fun c hc => absurd (hstaged.symm.trans hc) nofun }
  | half child o e hstaged ho =>
    obtain ⟨hop, frame, hactive, hne, hcovers⟩ := h.staged child hstaged
    have hremaining := ho.remaining
    have hroom := hcovers.room
    refine ⟨?_, nofun⟩
    refine
      { blank := blank_store h hop
        issued := h.issued
        active := h.active
        funded := ?_
        staged := ?_ }
    · intro f hf hnot
      obtain rfl : frame = f := Option.some.inj (hactive.symm.trans hf)
      rw [store_other hne.symm] at hnot ⊢
      exact h.funded frame hactive hnot
    · intro c hc
      obtain rfl : child = c := Option.some.inj (hstaged.symm.trans hc)
      refine ⟨hop, frame, hactive, hne, ?_⟩
      rw [store_same, store_other hne.symm]
      exact ⟨hcovers.unwritten, hcovers.tail, by omega⟩
  | both frame child o p hactive hstaged ho hp =>
    obtain ⟨hop, frame', hactive', hne, hcovers⟩ := h.staged child hstaged
    obtain rfl : frame = frame' := Option.some.inj (hactive.symm.trans hactive')
    rw [store_other hne.symm] at hp
    have hremaining := hp.remaining
    have hpaid : ∀ f, ((t.store child.op o).store frame.op p).activeOperation = some f →
        (((t.store child.op o).store frame.op p).operations f.op).writeAttempted = false →
          (((t.store child.op o).store frame.op p).operations f.op).remaining + 1 ≤ t.usable := by
      intro f hf hnot
      obtain rfl : frame = f := Option.some.inj (hactive.symm.trans hf)
      rw [store_same] at hnot ⊢
      have hfunded := h.funded frame hactive hcovers.unwritten
      omega
    refine ⟨?_, fun _ => hpaid⟩
    refine
      { blank := ?_
        issued := h.issued
        active := h.active
        funded := fun f hf hnot => Nat.le_of_lt (hpaid f hf hnot)
        staged := ?_ }
    · intro other hother
      have hcreated : ((t.store child.op o).store frame.op p).created = t.created := rfl
      have hframe := h.active frame hactive
      have hne' : other ≠ frame.op := by omega
      rw [store_other hne']
      exact blank_store h hop other hother
    · intro c hc
      obtain rfl : child = c := Option.some.inj (hstaged.symm.trans hc)
      refine ⟨hop, frame, hactive, hne, ?_⟩
      rw [store_same, store_other hne, store_same]
      exact ho.covers hp hcovers

theorem tick_sound (h : Sound t) : Sound (tick t) :=
  h.carry rfl rfl rfl rfl rfl (Nat.le_refl _)

theorem Charged.sound {i : Intent} {x : Except CallerError Unit} (hc : Charged t i x t')
    (h : Sound t) : Sound t' := by
  cases hc with
  | startup _ n os _ _ => exact (tick_sound h).carry rfl rfl rfl rfl rfl (Nat.le_refl _)
  | refused e x u _ hu => exact (hu.sound (tick_sound h)).1
  | dispatched u t' _ hu hd =>
    obtain ⟨hsound, hpaid⟩ := hu.sound (tick_sound h)
    obtain ⟨o, _, _, hshape, hdebited⟩ := hd.shape
    have husable := hdebited.usable
    have hsame : u.usable = (tick t).usable := by
      rw [hu.keeps]
      rfl
    have hops : t'.operations = u.operations := by rw [hshape]
    have hactive : t'.activeOperation = u.activeOperation := by rw [hshape]
    have hstaged : t'.stagedPartOperation = u.stagedPartOperation := by rw [hshape]
    have hcreated : t'.created = u.created := by rw [hshape]
    have hissued : t'.issuedOperations = u.issuedOperations := by rw [hshape]
    refine
      { blank := ?_
        issued := ?_
        active := ?_
        funded := ?_
        staged := ?_ }
    · rw [hops, hcreated]
      exact hsound.blank
    · rw [hissued, hcreated]
      exact hsound.issued
    · rw [hactive, hcreated]
      exact hsound.active
    · intro f hf hnot
      rw [hops] at hnot ⊢
      have hleft := hpaid rfl f (hactive ▸ hf) hnot
      omega
    · rw [hstaged, hcreated, hactive, hops]
      exact hsound.staged

/-- A new operation of the owned block. -/
def issueTo (t : Transport rules) (o : CallerOperation) : Transport rules :=
  { t.allocate o with issuedOperations := t.issuedOperations ++ [(t.created, t.block)] }

/-- An operation nobody has used. -/
structure Unused (o : CallerOperation) : Prop where
  used : o.used = 0
  unwritten : o.writeAttempted = false

/-- How an entry ends: refused, shared with the enclosing operation, or with an operation that is
new or was written before. -/
inductive Entered (t : Transport rules) : Except CallerError Unit → Transport rules → Prop
  | refused (e : CallerError) : Entered t (.error e) t
  | shared : Entered t (.ok ()) t
  | unfunded (e : CallerError) (o : CallerOperation) (ho : Unused o) :
      Entered t (.error e) (issueTo t o)
  | fresh (key : String) (o : CallerOperation) (hactive : t.activeOperation = none)
      (hfailed : (t.root, key) ∉ t.failedOperations) (ho : Unused o)
      (hfunded : o.remaining ≤ t.usable) :
      Entered t (.ok ()) { issueTo t o with activeOperation := some ⟨t.created, (t.root, key)⟩ }
  | again (key : String) (op : Nat) (hactive : t.activeOperation = none)
      (hissued : (op, t.block) ∈ t.issuedOperations)
      (hwritten : (t.operations op).writeAttempted = true) :
      Entered t (.ok ()) { t with activeOperation := some ⟨op, (t.root, key)⟩ }

theorem issue_unused (capacity writeTail : Nat) (key : String) :
    Unused (CallerOperation.issue capacity writeTail key) := ⟨rfl, rfl⟩

theorem enter_cases (t : Transport rules) (frame : Frame) (needed : Nat) :
    (∃ e, t.enter frame needed = (.error e, t)) ∨
      t.enter frame needed = (.ok (), { t with activeOperation := some frame }) := by
  unfold enter
  by_cases hroom : (t.operations frame.op).remaining < (if needed = 0 then 1 else needed)
  · exact .inl ⟨_, if_pos hroom⟩
  · exact .inr (if_neg hroom)

theorem operation_entered (t : Transport rules) (key : String)
    (capacity writeTail prewriteReads : Nat) (retained : Option Nat) :
    Entered t (t.operation key capacity writeTail prewriteReads retained).1
      (t.operation key capacity writeTail prewriteReads retained).2 := by
  unfold operation
  split
  · exact .refused _
  rename_i hnone
  have hactive : t.activeOperation = none := by simpa using hnone
  split
  · split
    · exact .refused _
    rename_i hfailed
    let o := CallerOperation.issue (min capacity t.usable) writeTail key
    change Entered t ((issueTo t o).enter ⟨t.created, (t.root, key)⟩ (writeTail + prewriteReads)).1
      ((issueTo t o).enter ⟨t.created, (t.root, key)⟩ (writeTail + prewriteReads)).2
    have hfunded : o.remaining ≤ t.usable := by
      change min capacity t.usable - 0 ≤ t.usable
      omega
    rcases enter_cases (issueTo t o) ⟨t.created, (t.root, key)⟩ (writeTail + prewriteReads) with
      ⟨e, hrefused⟩ | hentered
    · rw [hrefused]
      exact .unfunded e o (issue_unused ..)
    · rw [hentered]
      exact .fresh key o hactive hfailed (issue_unused ..) hfunded
  · rename_i op
    split
    · rename_i hretained
      unfold retainable at hretained
      simp only [Bool.and_eq_true, List.contains_iff_mem] at hretained
      rcases enter_cases t ⟨op, (t.root, key)⟩ (writeTail + prewriteReads) with
        ⟨e, hrefused⟩ | hentered
      · rw [hrefused]
        exact .refused e
      · rw [hentered]
        exact .again key op hactive hretained.2 hretained.1.2
    · exact .refused _

theorem readOperation_entered (t : Transport rules) (key : String) (retained : Option Nat) :
    Entered t (t.readOperation key retained).1 (t.readOperation key retained).2 := by
  unfold readOperation
  split
  · split
    · exact .refused _
    · exact .shared
  · exact operation_entered ..

/-- How an entry of a staged part ends. -/
inductive Staged (t : Transport rules) : Except CallerError Unit → Transport rules → Prop
  | refused (e : CallerError) : Staged t (.error e) t
  | fresh (key : String) (o : CallerOperation) (frame : Frame) (ho : Unused o)
      (hactive : t.activeOperation = some frame) (hstaged : t.stagedPartOperation = none)
      (hfailed : t.partIdentity key ∉ t.failedOperations)
      (hcovers : Covers (t.operations frame.op) o) :
      Staged t (.ok ()) { t.allocate o with
        stagedPartOperation := some ⟨t.created, t.partIdentity key⟩ }

theorem stagedPart_staged (t : Transport rules) (key : String) (fences : Nat) :
    Staged t (t.stagedPart key fences).1 (t.stagedPart key fences).2 := by
  unfold stagedPart
  split
  · exact .refused _
  rename_i frame hactive
  dsimp only
  split
  · exact .refused _
  rename_i havailable
  push Not at havailable
  obtain ⟨hwritten, htail, hstaged, hfailed⟩ := havailable
  split
  · exact .refused _
  rename_i hfunded
  have hparent : (t.operations frame.op).writeTail + (writeConfirmationTail + fences) ≤
      (t.operations frame.op).remaining := by
    omega
  refine .fresh key _ frame (issue_unused ..) hactive ?_ hfailed ?_
  · simpa using hstaged
  · exact ⟨eq_false_of_ne_true hwritten, htail, hparent⟩

theorem allocate_other {op : Nat} (h : op < t.created) (o : CallerOperation) :
    (t.allocate o).operations op = t.operations op :=
  Function.update_of_ne (by omega) ..

theorem allocate_same (o : CallerOperation) : (t.allocate o).operations t.created = o :=
  Function.update_self ..

/-- A new operation that no frame holds yet. -/
theorem allocate_sound (h : Sound t) (o : CallerOperation) : Sound (t.allocate o) where
  blank op hop := by
    have hlater : t.created + 1 ≤ op := hop
    have hne : op ≠ t.created := by omega
    have hsame : (t.allocate o).operations op = t.operations op := Function.update_of_ne hne ..
    rw [hsame]
    exact h.blank op (by omega)
  issued p hp := Nat.lt_succ_of_lt (h.issued p hp)
  active f hf := Nat.lt_succ_of_lt (h.active f hf)
  funded f hf hnot := by
    rw [allocate_other (h.active f hf)] at hnot ⊢
    exact h.funded f hf hnot
  staged c hc := by
    obtain ⟨hop, f, hf, hne, hcovers⟩ := h.staged c hc
    refine ⟨Nat.lt_succ_of_lt hop, f, hf, hne, ?_⟩
    rw [allocate_other (h.active f hf), allocate_other hop]
    exact hcovers

theorem issueTo_sound (h : Sound t) (o : CallerOperation) : Sound (issueTo t o) := by
  have hallocated := allocate_sound h o
  refine
    { blank := hallocated.blank
      issued := ?_
      active := hallocated.active
      funded := hallocated.funded
      staged := hallocated.staged }
  intro p hp
  rcases List.mem_append.mp hp with hold | hnew
  · exact Nat.lt_succ_of_lt (h.issued p hold)
  · rw [List.mem_singleton.mp hnew]
    exact Nat.lt_succ_self _

/-- Without an active operation no part is staged. -/
theorem Sound.unstaged (h : Sound t) (hactive : t.activeOperation = none) :
    t.stagedPartOperation = none := by
  cases hs : t.stagedPartOperation with
  | none => rfl
  | some c =>
    obtain ⟨_, f, hf, _⟩ := h.staged c hs
    rw [hactive] at hf
    cases hf

theorem Entered.sound {x : Except CallerError Unit} (he : Entered t x t') (h : Sound t) :
    Sound t' := by
  cases he with
  | refused e => exact h
  | shared => exact h
  | unfunded e o ho => exact issueTo_sound h o
  | fresh key o hactive hfailed ho hfunded =>
    have hissued := issueTo_sound h o
    refine
      { blank := hissued.blank
        issued := hissued.issued
        active := ?_
        funded := ?_
        staged := fun c hc => absurd ((h.unstaged hactive).symm.trans hc) nofun }
    · intro f hf
      obtain rfl := Option.some.inj hf
      exact Nat.lt_succ_self _
    · intro f hf _
      obtain rfl := Option.some.inj hf
      change ((t.allocate o).operations t.created).remaining ≤ t.usable
      rw [allocate_same]
      exact hfunded
  | again key op hactive hissued hwritten =>
    refine
      { blank := h.blank
        issued := h.issued
        active := ?_
        funded := ?_
        staged := fun c hc => absurd ((h.unstaged hactive).symm.trans hc) nofun }
    · intro f hf
      obtain rfl := Option.some.inj hf
      exact h.issued _ hissued
    · intro f hf hnot
      obtain rfl := Option.some.inj hf
      exact absurd hwritten (by rw [hnot]; decide)

theorem Staged.sound {x : Except CallerError Unit} (hs : Staged t x t') (h : Sound t) :
    Sound t' := by
  cases hs with
  | refused e => exact h
  | fresh key o frame ho hactive hstaged hfailed hcovers =>
    have hallocated := allocate_sound h o
    refine
      { blank := hallocated.blank
        issued := hallocated.issued
        active := hallocated.active
        funded := hallocated.funded
        staged := ?_ }
    intro c hc
    obtain rfl := Option.some.inj hc
    have hop := h.active frame hactive
    have hne : t.created ≠ frame.op := by omega
    refine ⟨Nat.lt_succ_self _, frame, hactive, hne, ?_⟩
    change Covers ((t.allocate o).operations frame.op) ((t.allocate o).operations t.created)
    rw [allocate_other hop, allocate_same]
    exact hcovers

theorem leave_sound (h : Sound t) (raised : Bool) : Sound (t.leave raised) := by
  unfold leave
  split
  · rename_i frame hactive hstaged
    exact
      { blank := h.blank
        issued := h.issued
        active := fun _ hf => nomatch hf
        funded := fun _ hf => nomatch hf
        staged := fun c hc => absurd (hstaged.symm.trans hc) nofun }
  · exact h

theorem leaveStaged_sound (h : Sound t) (raised : Bool) : Sound (t.leaveStaged raised) := by
  unfold leaveStaged
  split
  · exact
      { blank := h.blank
        issued := h.issued
        active := h.active
        funded := h.funded
        staged := fun _ hc => nomatch hc }
  · exact h

/-- Confirming an operation changes none of its counters. -/
theorem settle_operation (t : Transport rules) (op other : Nat) :
    (t.settle op).operations other =
      { t.operations other with
        confirmed := if other = op then true else (t.operations other).confirmed } := by
  unfold settle
  by_cases hop : other = op
  · rw [hop, store_same, if_pos rfl]
  · rw [store_other hop, if_neg hop]

theorem settle_sound (h : Sound t) (op : Nat) : Sound (t.settle op) where
  blank other hother := by
    rw [settle_operation]
    exact h.blank other hother
  issued := h.issued
  active := h.active
  funded f hf := by
    rw [settle_operation]
    exact h.funded f hf
  staged c hc := by
    obtain ⟨hop, f, hf, hne, hcovers⟩ := h.staged c hc
    refine ⟨hop, f, hf, hne, ?_⟩
    rw [settle_operation, settle_operation]
    exact ⟨hcovers.unwritten, hcovers.tail, hcovers.room⟩

theorem activate_sound (h : Sound t) (r : ApiRunAccounting rules) (root block : String) :
    Sound (t.activate r root block).2 := by
  unfold activate
  split
  · rename_i haccepts
    unfold accepts at haccepts
    simp only [Bool.and_eq_true, Option.isNone_iff_eq_none] at haccepts
    have hzero : t.usable = 0 := by
      unfold usable
      rw [haccepts.1.1.1]
    exact h.carry rfl rfl rfl rfl rfl (by omega)
  · exact h

theorem openRequest_sound (census : Request → Bool) (h : Sound t) (request : Request)
    (timeout : Nat) (now : Instant) (reply : Reply) :
    Sound (t.openRequest census request timeout now reply).2 := by
  unfold openRequest
  split
  · have hcharged := (charge_charged t (intent census request timeout now)).sound h
    rcases hx : t.charge (intent census request timeout now) with ⟨_ | _, u⟩
    · rw [hx] at hcharged
      exact hcharged
    · rw [hx] at hcharged
      simp only [Called.andThen]
      split
      · exact hcharged
      · exact (receive_recorded ..).sound hcharged
  · exact h

theorem next_sound (census : Request → Bool) (h : Sound t) (c : Call rules) :
    Sound (c.next census t) := by
  cases c with
  | intend root block =>
    change Sound (t.intend root block)
    unfold intend
    split
    · exact h
    · exact h.carry rfl rfl rfl rfl rfl (Nat.le_refl _)
  | activate r root block => exact activate_sound h r root block
  | readOperation key retained => exact (readOperation_entered ..).sound h
  | mutationOperation key fences => exact (operation_entered ..).sound h
  | operation key capacity writeTail prewriteReads retained => exact (operation_entered ..).sound h
  | stagedPart key fences => exact (stagedPart_staged ..).sound h
  | leave raised => exact leave_sound h raised
  | leaveStaged raised => exact leaveStaged_sound h raised
  | settle op => exact settle_sound h op
  | checkpoint held root => exact h.carry rfl rfl rfl rfl rfl (Nat.le_refl _)
  | openRequest request timeout now reply =>
    exact openRequest_sound census h request timeout now reply
  | readResponse index now => exact (readResponse_recorded ..).sound h

end ReviewSensei.CallerRequests
