import ReviewSensei.CallerProtection

/-! Responses that are read late, and the guarantees of a whole run of the transport. -/
namespace ReviewSensei.CallerRequests
open ApiWork Transport

variable {rules : AccountingRules} {t t' : Transport rules} {census : Request → Bool}

/-- What the first reading of a response makes of its receipt. -/
inductive Confirms (o : Observation) (now : Instant) :
    Except CallerError Unit → Observation → Prop
  | refused (e : CallerError) : Confirms o now (.error e) o
  | known (h : o.outcome = .response) : Confirms o now (.ok ()) o
  | late (u : Bool) (h : o.late now = true) :
      Confirms o now (.error expired) { o with uncertainEffect := u, outcome := .expired }
  | seen (u : Bool) (h : o.late now = false) :
      Confirms o now (.ok ()) { o with uncertainEffect := u, outcome := .response }

theorem set_self {α : Type} {l : List α} {index : Nat} {a : α} (h : l[index]? = some a) :
    l.set index a = l := by
  apply List.ext_getElem?
  intro k
  rw [List.getElem?_set]
  split
  · rename_i hk
    subst hk
    rw [h]
    split
    · rfl
    · rename_i hout
      obtain ⟨hlt, _⟩ := List.getElem?_eq_some_iff.mp h
      exact absurd hlt hout
  · rfl

theorem confirmPending_observations {o : Observation} (h : t.confirmPending o = .ok t') :
    t'.observations = t.observations := by
  unfold confirmPending at h
  split at h
  · obtain rfl := Except.ok.inj h
    rfl
  · cases h
  split at h
  · cases h
  · obtain rfl := Except.ok.inj h
    rfl

theorem confirmed_confirms {index : Nat} {o : Observation} (now : Instant)
    (hget : t.observations[index]? = some o) :
    ∃ o', Confirms o now (t.confirmed index o now).1 o' ∧
      (t.confirmed index o now).2.observations = t.observations.set index o' := by
  unfold confirmed
  split
  · exact ⟨o, .refused _, (set_self hget).symm⟩
  · rename_i hknown
    exact ⟨o, .known hknown, (set_self hget).symm⟩
  split
  · exact ⟨o, .refused _, (set_self hget).symm⟩
  rename_i u hu
  have hobservations := confirmPending_observations hu
  dsimp only
  split
  · rename_i hlate
    exact ⟨_, .late _ hlate, by rw [← hobservations]; rfl⟩
  · rename_i hlate
    exact ⟨_, .seen _ (eq_false_of_ne_true hlate), by rw [← hobservations]; rfl⟩

/-- The call hears the answer to the request of this receipt, at this instant. -/
def Answers (t : Transport rules) (c : Call rules) (index : Nat) (now : Instant) : Prop :=
  match c with
  | .readResponse i n => i = index ∧ n = now
  | .openRequest _ _ _ (.httpError _ n) => t.observations.length = index ∧ n = now
  | _ => False

/-- A receipt that says a response was seen said so before, or the call heard it in time. -/
def Tells (t : Transport rules) (c : Call rules) (t' : Transport rules) : Prop :=
  ∀ index o', t'.observations[index]? = some o' → o'.outcome = .response →
    (∃ o, t.observations[index]? = some o ∧ o.outcome = .response ∧ o.late = o'.late) ∨
      ∃ now, Answers t c index now ∧ o'.late now = false

theorem tells_same {c : Call rules} (h : t'.observations = t.observations) : Tells t c t' := by
  intro index o' hget houtcome
  rw [h] at hget
  exact .inl ⟨o', hget, houtcome, rfl⟩

theorem Charged.observations {i : Intent} {x : Except CallerError Unit} (hc : Charged t i x t') :
    ∃ os, t'.observations = t.observations ++ os ∧ (∀ o ∈ os, Unheard o) ∧
      (x = .ok () → os.length = 1) := by
  cases hc with
  | startup _ n os _ hos => exact ⟨os, rfl, hos⟩
  | refused e x u _ hu =>
    refine ⟨[], ?_, nofun, nofun⟩
    rw [hu.keeps]
    simp [tick]
  | dispatched u t' _ hu hd =>
    obtain ⟨o, _, hunknown, hshape, _⟩ := hd.shape
    refine ⟨[o], ?_, ?_, fun _ => rfl⟩
    · rw [hshape]
      change u.observations ++ [o] = _
      rw [hu.keeps]
      rfl
    · intro o' ho'
      rw [List.mem_singleton.mp ho']
      exact hunknown

/-- New receipts say nothing yet. -/
theorem tells_append {c : Call rules} {os : List Observation}
    (h : t'.observations = t.observations ++ os) (hos : ∀ o ∈ os, Unheard o) :
    Tells t c t' := by
  intro index o' hget houtcome
  rw [h, List.getElem?_append] at hget
  split at hget
  · exact .inl ⟨o', hget, houtcome, rfl⟩
  · have hunknown := hos o' (List.mem_of_getElem? hget)
    rw [hunknown.outcome] at houtcome
    cases houtcome

theorem Confirms.response {o o' : Observation} {now : Instant} {x : Except CallerError Unit}
    (h : Confirms o now x o') (houtcome : o'.outcome = .response) :
    o.late = o'.late ∧ (o.outcome = .response ∨ o'.late now = false) := by
  cases h with
  | refused e => exact ⟨rfl, .inl houtcome⟩
  | known hknown => exact ⟨rfl, .inl hknown⟩
  | late u hlate => cases houtcome
  | seen u hlate => exact ⟨rfl, .inr hlate⟩

/-- One receipt was confirmed, and perhaps marked as read. -/
theorem tells_set {c : Call rules} {index : Nat} {now : Instant} {o o' : Observation}
    {x : Except CallerError Unit} (hget : t.observations[index]? = some o)
    (hconfirms : Confirms o now x o') (hanswers : Answers t c index now)
    (h : ∀ (k : Nat) (p : Observation), t'.observations[k]? = some p →
      ∃ q : Observation, (t.observations.set index o')[k]? = some q ∧ q.outcome = p.outcome ∧
        q.late = p.late) : Tells t c t' := by
  intro k p hk houtcome
  obtain ⟨q, hq, hsame, hlate⟩ := h k p hk
  rw [← hsame] at houtcome
  rw [List.getElem?_set] at hq
  split at hq
  · rename_i hindex
    subst hindex
    split at hq
    · obtain rfl := Option.some.inj hq
      obtain ⟨hkept, hbefore | hnow⟩ := hconfirms.response houtcome
      · exact .inl ⟨o, hget, hbefore, hkept.trans hlate⟩
      · exact .inr ⟨now, hanswers, hlate ▸ hnow⟩
    · cases hq
  · exact .inl ⟨q, hq, houtcome, hlate⟩

theorem readResponse_tells (t : Transport rules) (index : Nat) (now : Instant) :
    Tells t (.readResponse index now) (t.readResponse index now).2 := by
  unfold readResponse
  split
  · exact tells_same rfl
  rename_i o hget
  split
  · exact tells_same rfl
  split
  · exact tells_same rfl
  obtain ⟨o', hconfirms, hset⟩ := confirmed_confirms now hget
  have hanswers : Answers t (.readResponse index now) index now := ⟨rfl, rfl⟩
  rcases hx : t.confirmed index o now with ⟨e | _, u⟩
  · rw [hx] at hconfirms hset
    have hset : u.observations = t.observations.set index o' := hset
    apply tells_set hget hconfirms hanswers
    intro k p hk
    exact ⟨p, hset ▸ hk, rfl, rfl⟩
  · rw [hx] at hconfirms hset
    have hset : u.observations = t.observations.set index o' := hset
    apply tells_set hget hconfirms hanswers
    intro k p hk
    change (u.observations.modify index (fun o => { o with read := true }))[k]? = some p at hk
    rw [List.getElem?_modify, hset] at hk
    obtain ⟨q, hq, hp⟩ := Option.map_eq_some_iff.mp hk
    refine ⟨q, hq, ?_⟩
    rw [← hp]
    split <;> exact ⟨rfl, rfl⟩

/-- The receipt of a request that was dispatched is the last one. -/
theorem lastReceipt_append {u : Transport rules} {os : List Observation}
    (h : u.observations = t.observations ++ os) (hlen : os.length = 1) :
    ∃ o ∈ os, u.lastReceipt = some (t.observations.length, o) ∧
      u.observations[t.observations.length]? = some o := by
  obtain ⟨o, rfl⟩ := List.length_eq_one_iff.mp hlen
  refine ⟨o, .head _, ?_, ?_⟩
  · unfold lastReceipt
    rw [h]
    simp
  · rw [h]
    simp

theorem openRequest_tells (census : Request → Bool) (t : Transport rules) (request : Request)
    (timeout : Nat) (now : Instant) (reply : Reply) :
    Tells t (.openRequest request timeout now reply)
      (t.openRequest census request timeout now reply).2 := by
  unfold openRequest
  split
  · have hcharged := charge_charged t (intent census request timeout now)
    rcases hx : t.charge (intent census request timeout now) with ⟨e | _, u⟩
    · rw [hx] at hcharged
      obtain ⟨os, hos, hunknown, _⟩ := hcharged.observations
      exact tells_append hos hunknown
    rw [hx] at hcharged
    obtain ⟨os, hos, hunknown, hlen⟩ := hcharged.observations
    have hos : u.observations = t.observations ++ os := hos
    obtain ⟨o, ho, hlast, hget⟩ := lastReceipt_append hos (hlen rfl)
    have hbase : Tells t (.openRequest request timeout now reply) u := tells_append hos hunknown
    simp only [Called.andThen, hlast]
    cases reply with
    | lost => exact hbase
    | response status =>
      intro k p hk houtcome
      change (u.observations.set t.observations.length
        { o with observedStatus := status, opened := true })[k]? = some p at hk
      rw [List.getElem?_set] at hk
      split at hk
      · split at hk
        · obtain rfl := Option.some.inj hk
          have hnot : o.outcome = .response := houtcome
          rw [(hunknown o ho).outcome] at hnot
          cases hnot
        · cases hk
      · exact hbase k p hk houtcome
    | httpError code heard =>
      let failed : Observation := { o with observedStatus := some code }
      let v := u.setObservation t.observations.length failed
      have hlt : t.observations.length < u.observations.length :=
        (List.getElem?_eq_some_iff.mp hget).1
      have hfailed : v.observations[t.observations.length]? = some failed :=
        List.getElem?_set_self hlt
      obtain ⟨o', hconfirms, hset⟩ := confirmed_confirms heard hfailed
      have hsame : (u.receive t.observations.length o (.httpError code heard)).2 =
          (v.confirmed t.observations.length failed heard).2 := by
        change ((v.confirmed t.observations.length failed heard).andThen _).2 = _
        rcases v.confirmed t.observations.length failed heard with ⟨_ | _, w⟩ <;> rfl
      intro k p hk houtcome
      rw [hsame, hset] at hk
      change ((u.observations.set _ failed).set _ o')[k]? = some p at hk
      rw [List.set_set, List.getElem?_set] at hk
      split at hk
      · rename_i hindex
        obtain rfl := Option.some.inj hk
        obtain ⟨_, hbefore | hnow⟩ := hconfirms.response houtcome
        · have hnot : o.outcome = .response := hbefore
          rw [(hunknown o ho).outcome] at hnot
          cases hnot
        · exact .inr ⟨heard, ⟨hindex, rfl⟩, hnow⟩
      · exact hbase k p hk houtcome
  · exact tells_same rfl

theorem Entered.observations {x : Except CallerError Unit} (he : Entered t x t') :
    t'.observations = t.observations := by
  cases he <;> rfl

theorem Staged.observations {x : Except CallerError Unit} (hs : Staged t x t') :
    t'.observations = t.observations := by
  cases hs <;> rfl

/-- Only the two calls that hear an answer touch the receipts that are there. -/
theorem quiet_observations (census : Request → Bool) (t : Transport rules) (c : Call rules)
    (hopen : ∀ request timeout now reply, c ≠ .openRequest request timeout now reply)
    (hread : ∀ index now, c ≠ .readResponse index now) :
    (c.next census t).observations = t.observations := by
  cases c with
  | intend root block =>
    change (t.intend root block).observations = _
    unfold intend
    split <;> rfl
  | activate r root block =>
    change (t.activate r root block).2.observations = _
    unfold activate
    split <;> rfl
  | readOperation key retained => exact (readOperation_entered ..).observations
  | mutationOperation key fences => exact (operation_entered ..).observations
  | operation key capacity writeTail prewriteReads retained =>
    exact (operation_entered ..).observations
  | stagedPart key fences => exact (stagedPart_staged ..).observations
  | leave raised =>
    change (t.leave raised).observations = _
    unfold leave
    split <;> rfl
  | leaveStaged raised =>
    change (t.leaveStaged raised).observations = _
    unfold leaveStaged
    split <;> rfl
  | settle op => rfl
  | checkpoint held root => rfl
  | openRequest request timeout now reply => exact absurd rfl (hopen request timeout now reply)
  | readResponse index now => exact absurd rfl (hread index now)

theorem next_tells (census : Request → Bool) (t : Transport rules) (c : Call rules) :
    Tells t c (c.next census t) := by
  cases c with
  | openRequest request timeout now reply =>
    exact openRequest_tells census t request timeout now reply
  | readResponse index now => exact readResponse_tells t index now
  | _ => exact tells_same (quiet_observations census t _ nofun nofun)

/-- Some call of the run heard the answer for this receipt within its deadlines. -/
def HeardInTime (census : Request → Bool) (t : Transport rules) (calls : List (Call rules))
    (index : Nat) (o : Observation) : Prop :=
  ∃ before c after now, calls = before ++ c :: after ∧
    Answers (runCalls census t before) c index now ∧ o.late now = false

theorem run_tells (census : Request → Bool) (t : Transport rules) (calls : List (Call rules))
    {index : Nat} {o : Observation}
    (hget : (runCalls census t calls).observations[index]? = some o)
    (houtcome : o.outcome = .response) :
    (∃ o', t.observations[index]? = some o' ∧ o'.outcome = .response ∧ o'.late = o.late) ∨
      HeardInTime census t calls index o := by
  induction calls generalizing t with
  | nil => exact .inl ⟨o, hget, houtcome, rfl⟩
  | cons c calls ih =>
    rcases ih (c.next census t) hget with ⟨p, hp, hseen, hlate⟩ | hlater
    · rcases next_tells census t c index p hp hseen with ⟨q, hq, hseen', hlate'⟩ | hnow
      · exact .inl ⟨q, hq, hseen', hlate'.trans hlate⟩
      · obtain ⟨now, hanswers, hintime⟩ := hnow
        exact .inr ⟨[], c, calls, now, rfl, hanswers, hlate ▸ hintime⟩
    · obtain ⟨before, d, after, now, hcalls, hanswers, hintime⟩ := hlater
      refine .inr ⟨c :: before, d, after, now, ?_, hanswers, hintime⟩
      rw [hcalls, List.cons_append]

/-- A response object that was read belongs to a receipt that says so. -/
def Faithful (t : Transport rules) : Prop :=
  ∀ o ∈ t.observations, o.read = true → o.outcome = .response

theorem Confirms.faithful {o o' : Observation} {now : Instant} {x : Except CallerError Unit}
    (h : Confirms o now x o') (hread : o.read = true → o.outcome = .response)
    (hunread : o.read = false) :
    (o'.read = true → o'.outcome = .response) ∧ (x = .ok () → o'.outcome = .response) := by
  cases h with
  | refused e => exact ⟨hread, nofun⟩
  | known hknown => exact ⟨hread, fun _ => hknown⟩
  | late u hlate =>
    refine ⟨fun hyes => ?_, nofun⟩
    have hyes : o.read = true := hyes
    rw [hunread] at hyes
    cases hyes
  | seen u hlate => exact ⟨fun _ => rfl, fun _ => rfl⟩

/-- What the reading of a response returns has been confirmed. -/
theorem readResponse_faithful (h : Faithful t) (index : Nat) (now : Instant) :
    Faithful (t.readResponse index now).2 ∧ ((t.readResponse index now).1 = .ok () →
      ∃ o : Observation, o.outcome = .response ∧
        (t.readResponse index now).2.observations[index]? = some o) := by
  unfold readResponse
  split
  · exact ⟨h, nofun⟩
  rename_i o hget
  have hmem : o ∈ t.observations := List.mem_of_getElem? hget
  split
  · exact ⟨h, nofun⟩
  split
  · rename_i hread
    exact ⟨h, fun _ => ⟨o, h o hmem hread, hget⟩⟩
  rename_i hunread
  have hunread : o.read = false := eq_false_of_ne_true hunread
  obtain ⟨o', hconfirms, hset⟩ := confirmed_confirms now hget
  obtain ⟨hkept, hseen⟩ := hconfirms.faithful (h o hmem) hunread
  have hlt : index < t.observations.length := (List.getElem?_eq_some_iff.mp hget).1
  rcases hx : t.confirmed index o now with ⟨e | _, u⟩
  · rw [hx] at hset
    refine ⟨?_, nofun⟩
    have hset : u.observations = t.observations.set index o' := hset
    intro p hp
    change p ∈ u.observations at hp
    rw [hset] at hp
    rcases List.mem_or_eq_of_mem_set hp with hold | rfl
    · exact h p hold
    · exact hkept
  · rw [hx] at hset hseen
    have hset : u.observations = t.observations.set index o' := hset
    have hresponse : o'.outcome = .response := hseen rfl
    have hmodified : u.observations.modify index (fun o => { o with read := true }) =
        t.observations.set index { o' with read := true } := by
      have hinhabited : Inhabited Observation := ⟨o⟩
      rw [hset, List.modify_eq_set, List.getElem?_set_self hlt, List.set_set]
      rfl
    change Faithful { u with
      observations := u.observations.modify index (fun o => { o with read := true }) } ∧ _
    refine ⟨?_, fun _ => ⟨{ o' with read := true }, hresponse, ?_⟩⟩
    · intro p hp
      change p ∈ u.observations.modify index _ at hp
      rw [hmodified] at hp
      rcases List.mem_or_eq_of_mem_set hp with hold | rfl
      · exact h p hold
      · exact fun _ => hresponse
    · change (u.observations.modify index (fun o => { o with read := true }))[index]? = _
      rw [hmodified]
      exact List.getElem?_set_self hlt

theorem openRequest_faithful (census : Request → Bool) (h : Faithful t) (request : Request)
    (timeout : Nat) (now : Instant) (reply : Reply) :
    Faithful (t.openRequest census request timeout now reply).2 := by
  unfold openRequest
  split
  · have hcharged := charge_charged t (intent census request timeout now)
    have happended : Faithful (t.charge (intent census request timeout now)).2 := by
      obtain ⟨os, hos, hunheard, _⟩ := hcharged.observations
      intro o ho
      rw [hos] at ho
      rcases List.mem_append.mp ho with hold | hnew
      · exact h o hold
      · intro hread
        rw [(hunheard o hnew).unread] at hread
        cases hread
    rcases hx : t.charge (intent census request timeout now) with ⟨e | _, u⟩
    · rw [hx] at happended
      exact happended
    rw [hx] at hcharged happended
    have happended : Faithful u := happended
    obtain ⟨os, hos, hunheard, hlen⟩ := hcharged.observations
    have hos : u.observations = t.observations ++ os := hos
    obtain ⟨o, ho, hlast, hget⟩ := lastReceipt_append hos (hlen rfl)
    have hunread := (hunheard o ho).unread
    have hnever : o.read = true → o.outcome = .response := fun hread =>
      nomatch hunread.symm.trans hread
    simp only [Called.andThen, hlast]
    cases reply with
    | lost => exact happended
    | response status =>
      intro p hp
      rcases List.mem_or_eq_of_mem_set hp with hold | rfl
      · exact happended p hold
      · exact hnever
    | httpError code heard =>
      let failed : Observation := { o with observedStatus := some code }
      let v := u.setObservation t.observations.length failed
      have hlt : t.observations.length < u.observations.length :=
        (List.getElem?_eq_some_iff.mp hget).1
      have hfailed : v.observations[t.observations.length]? = some failed :=
        List.getElem?_set_self hlt
      obtain ⟨o', hconfirms, hset⟩ := confirmed_confirms heard hfailed
      obtain ⟨hkept, _⟩ := hconfirms.faithful hnever hunread
      have hsame : (u.receive t.observations.length o (.httpError code heard)).2 =
          (v.confirmed t.observations.length failed heard).2 := by
        change ((v.confirmed t.observations.length failed heard).andThen _).2 = _
        rcases v.confirmed t.observations.length failed heard with ⟨_ | _, w⟩ <;> rfl
      intro p hp
      rw [hsame, hset] at hp
      change p ∈ (u.observations.set _ failed).set _ o' at hp
      rw [List.set_set] at hp
      rcases List.mem_or_eq_of_mem_set hp with hold | rfl
      · exact happended p hold
      · exact hkept
  · exact h

theorem next_faithful (census : Request → Bool) (h : Faithful t) (c : Call rules) :
    Faithful (c.next census t) := by
  have hquiet : ∀ u : Transport rules, u.observations = t.observations → Faithful u := by
    intro u hu o ho
    exact h o (hu ▸ ho)
  cases c with
  | openRequest request timeout now reply =>
    exact openRequest_faithful census h request timeout now reply
  | readResponse index now => exact (readResponse_faithful h index now).1
  | _ => exact hquiet _ (quiet_observations census t _ nofun nofun)

theorem run_faithful (census : Request → Bool) (h : Faithful t) (calls : List (Call rules)) :
    Faithful (runCalls census t calls) :=
  Fenced.run_keeps (P := Faithful) (fun _ c hs => next_faithful census hs c) h calls

/-- What a run of calls guarantees, from the state it starts in. -/
structure Guards (census : Request → Bool) (t : Transport rules) (calls : List (Call rules)) :
    Prop where
  /-- The block pays once for each ordinary dispatch, and for nothing else. -/
  debited : t.state.isSome = true →
    t.usable = (runCalls census t calls).usable +
        (dispatches census t calls).countP Dispatch.ordinary ∧
      (ordinaryIds (dispatches census t calls)).Nodup ∧
      ∀ id ∈ ordinaryIds (dispatches census t calls), id ∉ ids t
  confirmation : ∀ d ∈ dispatches census t calls, d.ordinary = true → Protected d
  capacity : ∀ op, (dispatches census t calls).countP (Dispatch.under op) ≤
    ((runCalls census t calls).operations op).capacity
  fixed : ∀ op, op < t.created →
    ((runCalls census t calls).operations op).capacity = (t.operations op).capacity
  mutation : ∀ op, (dispatches census t calls).countP (Dispatch.mutates op) ≤ 1
  /-- No operation is issued again under an identity that ended badly. -/
  failed : ∀ before c mid c' after id id', calls = before ++ c :: (mid ++ c' :: after) →
    EndsBadly (runCalls census t before) c id →
      Issues census (runCalls census t (before ++ c :: mid)) c' id' → id' ≠ id
  /-- A response counts as seen only when it was heard before its deadlines. -/
  timely : ∀ (index : Nat) (o : Observation),
    (runCalls census t calls).observations[index]? = some o → o.outcome = .response →
      (∃ o', t.observations[index]? = some o' ∧ o'.outcome = .response ∧ o'.late = o.late) ∨
        HeardInTime census t calls index o
  /-- What a reading returns is a response that counts as seen. -/
  reading : ∀ before index now after, calls = before ++ .readResponse index now :: after →
    ((runCalls census t before).readResponse index now).1 = .ok () →
      ∃ o : Observation, o.outcome = .response ∧
        ((runCalls census t before).readResponse index now).2.observations[index]? = some o

theorem run_guards (h : Sound t) (hfaithful : Faithful t) (calls : List (Call rules)) :
    Guards census t calls where
  debited hactive := by
    have hspends := run_spends census h hactive calls
    have hnodup : (ids (runCalls census t calls)).Nodup := by
      obtain ⟨r, hr⟩ := Option.isSome_iff_exists.mp hspends.active
      unfold ids
      rw [hr]
      exact r.requestIds_nodup
    have happend := hspends.ids.nodup hnodup
    refine ⟨hspends.usable, happend.of_append_right, ?_⟩
    intro id hid hbefore
    exact List.disjoint_of_nodup_append happend hbefore hid
  confirmation d hd hordinary := mem_dispatches h hd hordinary
  capacity op := by
    have hused := (run_progress census h calls op).used
    have hbound := ((runCalls census t calls).operations op).used_le
    omega
  fixed op hop := ((run_moves census h calls).fixed op hop).1
  mutation op := by
    have hwritten := (run_progress census h calls op).written
    have hbound := Bool.toNat_le ((runCalls census t calls).operations op).writeAttempted
    omega
  failed before c mid c' after id id' hcalls hbad hissues := by
    have hbefore := run_sound census h before
    have hsplit : runCalls census t (before ++ c :: mid) =
        runCalls census (c.next census (runCalls census t before)) mid := by
      unfold runCalls
      rw [Fenced.run_append, Fenced.run_cons]
    rw [hsplit] at hissues
    exact failed_forever hbefore hbad hissues
  timely index o hget houtcome := run_tells census t calls hget houtcome
  reading before index now after hcalls hok :=
    (readResponse_faithful (run_faithful census hfaithful before) index now).2 hok

/-- Whatever calls a transport has taken since it was made, the calls after them are guarded. -/
theorem caller_guards (census : Request → Bool) (run : ApiRunIdentity) (plan : StartupPlan)
    (slot : StartupSlot) (before calls : List (Call rules)) :
    Guards census (runCalls census (Transport.start run plan slot) before) calls := by
  have hfaithful : Faithful (Transport.start run plan slot : Transport rules) := fun _ ho =>
    absurd ho List.not_mem_nil
  exact run_guards (run_sound census (start_sound run plan slot) before)
    (run_faithful census hfaithful before) calls

end ReviewSensei.CallerRequests
