import ReviewSensei.RoundAccounting

/-! The phases of a publication, over every run of its calls.

A checkpointed transaction is completed, fenced as unconfirmed, suppressed, or given its admitted
blockers, in any order and by any callers. -/
namespace ReviewSensei.Session
open Fenced

variable {rules : SessionRules}

inductive PublicationCall
  | complete (transaction : ReviewTransaction) (published : Bool)
  | markUnconfirmed (transaction : ReviewTransaction)
  | suppress (transaction : ReviewTransaction)
  | admitBlockers (a : BlockerArguments)

/-- The mutation each publication call hands to the ledger. -/
def PublicationCall.call : PublicationCall → Call
  | complete t published => .publication t published
  | markUnconfirmed t => .publication t false
  | suppress t => .suppress t
  | admitBlockers a => .blockers a

structure PublicationRequest where
  identity : SessionIdentity
  call : PublicationCall
  moment : Moment

def PublicationRequest.request (q : PublicationRequest) : Request :=
  ⟨q.identity, q.call.call, q.moment⟩

/-- What the caller of a request sees. -/
def PublicationRequest.answer (q : PublicationRequest) (r : SessionRecord rules) :
    Except String (SessionRecord rules) :=
  (q.request.op.run (some r)).1

/-- The record a publication call leaves. -/
def publicationStep (r : SessionRecord rules) (q : PublicationRequest) : SessionRecord rules :=
  served r q.request

def publicationRun (r : SessionRecord rules) (requests : List PublicationRequest) :
    SessionRecord rules :=
  run publicationStep r requests

def phaseOf (f : SessionFields) : Option Phase := f.transaction.map ReviewTransaction.phase

/-- Succeeded and suppressed. -/
def Phase.terminal : Phase → Bool
  | .publicationSucceeded | .publicationSuppressed => true
  | _ => false

def handOffDone (f : SessionFields) : Prop := ∃ p, phaseOf f = some p ∧ p.terminal = true

/-- The record without what a publication may change: its own generation, phase and time, and the
last progress entry. -/
def immutablePart (f : SessionFields) : SessionFields :=
  { f with
    generation := 0
    updatedAt := 0
    transaction := f.transaction.map (fun t => { t with generation := 0, phase := .analysis })
    convergenceHistory :=
      f.convergenceHistory.map (fun h => { h with progress := h.progress.dropLast }) }

def progressLength (f : SessionFields) : Option Nat :=
  f.convergenceHistory.map (fun h => h.progress.length)

/-- The pending transaction whose last progress entry is the one this call would write. -/
def AlreadyAdmitted (f : SessionFields) (a : BlockerArguments) : Prop :=
  ∃ current history, f.transaction = some current ∧ current.phase = .publicationPending ∧
    f.convergenceHistory = some history ∧ history.progress.getLast? = some (a.item current)

/-- The call asks for a hand-off that the record already holds as admitted. -/
def SkipsHandOff (f : SessionFields) : PublicationCall → Prop
  | .admitBlockers a => a.suppressPublication = true ∧ AlreadyAdmitted f a
  | _ => False

variable {r r' : SessionRecord rules} {m : Moment}

theorem answer_ok {q : PublicationRequest} (h : q.answer r = .ok r') :
    q.call.call.mutate r q.moment = .ok r' ∧ publicationStep r q = r' := by
  unfold PublicationRequest.answer Request.op at h
  unfold publicationStep served Request.op
  rcases replace_run q.identity q.moment (fun r => q.call.call.mutate r q.moment) r with
    ⟨s, hs, hrun⟩ | ⟨e, hrun⟩
  · have hrun' : (replace q.request.identity q.request.moment
        (fun r => q.request.call.mutate r q.request.moment)).run (some r) = (.ok s, some s) := hrun
    rw [hrun'] at h ⊢
    obtain rfl : s = r' := Except.ok.inj h
    exact ⟨hs, rfl⟩
  · have hrun' : (replace q.request.identity q.request.moment
        (fun r => q.request.call.mutate r q.request.moment)).run (some r) = (.error e, some r) := hrun
    rw [hrun'] at h
    cases h

/-- A call that raises leaves the record. -/
theorem answer_error {q : PublicationRequest} {e : String} (h : q.answer r = .error e) :
    publicationStep r q = r := by
  unfold PublicationRequest.answer Request.op at h
  unfold publicationStep served Request.op
  rcases replace_run q.request.identity q.request.moment
    (fun r => q.request.call.mutate r q.request.moment) r with ⟨s, hs, hrun⟩ | ⟨e', hrun⟩
  · rw [hrun] at h
    cases h
  · rw [hrun]
    rfl

theorem publicationStep_eq (r : SessionRecord rules) (q : PublicationRequest) :
    publicationStep r q = r ∨ q.call.call.mutate r q.moment = .ok (publicationStep r q) :=
  served_eq r q.request

/-- What a publication call changes, when it changes anything: a pending or failed transaction
moves on, and the history keeps all but its last entry. -/
structure Advances (r r' : SessionRecord rules) (current next : ReviewTransaction)
    (history : Option ConvergenceHistory) (m : Moment) : Prop where
  current_eq : r.transaction = some current
  retryable : current.phase = .publicationPending ∨ current.phase = .publicationFailed
  identity : { next with generation := 0, phase := .analysis } =
    { current with generation := 0, phase := .analysis }
  result : next.phase.hasResult = true
  forward : next.phase = .publicationPending → current.phase = .publicationPending
  prefix_eq : history.map (fun h => { h with progress := h.progress.dropLast }) =
    r.convergenceHistory.map (fun h => { h with progress := h.progress.dropLast })
  length_eq : history.map (fun h => h.progress.length) = progressLength r.toSessionFields
  fields : r'.toSessionFields = r.published next history m

theorem length_dropLast_concat {α : Type} {l : List α} {x y : α} (h : l.getLast? = some x) :
    (l.dropLast ++ [y]).length = l.length := by
  have hne : l ≠ [] := by
    rintro rfl
    cases h
  have hpos := List.length_pos_of_ne_nil hne
  simp only [List.length_append, List.length_dropLast, List.length_singleton]
  omega

/-- An admission replaces the last entry by the admitted one. -/
theorem advances_blockers {a : BlockerArguments}
    (h : recordAdmittedBlockerProgress r a m = .ok r') :
    r' = r ∨ ∃ current next history, Advances r r' current next history m := by
  obtain ⟨current, history, last, hcontext, hbranches⟩ := recordAdmittedBlockerProgress_ok h
  rcases blockerBranches_ok hbranches with ⟨rfl, -⟩ | ⟨hphase, hr'⟩
  · exact .inl rfl
  refine .inr ⟨current, _, _, hcontext.transaction_eq, ?_, ?_, ?_, ?_, ?_, ?_, hr'⟩
  · exact hphase.imp And.left And.left
  · unfold handedOff
    split <;> rfl
  · unfold handedOff
    split
    · rfl
    · rcases hphase with ⟨hp, -⟩ | ⟨hp, -⟩ <;> rw [hp] <;> rfl
  · unfold handedOff
    split
    · rintro ⟨⟩
    · exact id
  · rw [hcontext.history_eq]
    simp
  · have hlength := length_dropLast_concat (y := a.item current) hcontext.last_eq
    simp only [progressLength, hcontext.history_eq, Option.map_some, hlength]

theorem advances (q : PublicationRequest) (r : SessionRecord rules) :
    publicationStep r q = r ∨ ∃ current next history,
      Advances r (publicationStep r q) current next history q.moment := by
  rcases publicationStep_eq r q with heq | hok
  · exact .inl heq
  have hpublication {t : ReviewTransaction} {published : Bool}
      (h : publicationStateMutation r t published q.moment = .ok (publicationStep r q)) :
      publicationStep r q = r ∨ ∃ current next history,
        Advances r (publicationStep r q) current next history q.moment := by
    obtain ⟨current, hcurrent, -, -, hcase⟩ := publicationStateMutation_ok h
    refine hcase.imp And.left fun ⟨hphase, _, hr'⟩ => ?_
    refine ⟨current, _, _, hcurrent, hphase.imp_right And.left, ?_, ?_, ?_, ?_, ?_, hr'⟩
    · rfl
    · cases published <;> rfl
    · cases published <;> rintro ⟨⟩
    · rfl
    · rfl
  cases hcall : q.call with
  | complete t published =>
    rw [hcall] at hok
    exact hpublication hok
  | markUnconfirmed t =>
    rw [hcall] at hok
    exact hpublication hok
  | suppress t =>
    rw [hcall] at hok
    obtain ⟨current, hcurrent, -, hcase⟩ := suppressMutation_ok hok
    refine hcase.imp And.left fun ⟨hphase, hr'⟩ => ?_
    refine ⟨current, _, _, hcurrent, hphase, ?_, ?_, ?_, ?_, ?_, hr'⟩
    · rfl
    · rfl
    · rintro ⟨⟩
    · rfl
    · rfl
  | admitBlockers a =>
    rw [hcall] at hok
    exact advances_blockers hok

/-- One call keeps everything a publication may not change. -/
theorem immutablePart_step (r : SessionRecord rules) (q : PublicationRequest) :
    immutablePart (publicationStep r q).toSessionFields = immutablePart r.toSessionFields ∧
      progressLength (publicationStep r q).toSessionFields = progressLength r.toSessionFields := by
  rcases advances q r with heq | ⟨current, next, history, h⟩
  · rw [heq]
    exact ⟨rfl, rfl⟩
  rw [h.fields]
  refine ⟨?_, h.length_eq⟩
  simp only [immutablePart, SessionFields.published, Option.map_some, h.identity, h.prefix_eq,
    h.current_eq]

/-- A terminal phase is left by no publication call. -/
theorem terminal_step (r : SessionRecord rules) (q : PublicationRequest)
    (h : handOffDone r.toSessionFields) : publicationStep r q = r := by
  rcases advances q r with heq | ⟨current, next, history, hadvances⟩
  · exact heq
  obtain ⟨p, hp, hterminal⟩ := h
  simp only [phaseOf, hadvances.current_eq, Option.map_some, Option.some.injEq] at hp
  subst hp
  rcases hadvances.retryable with hr | hr <;> rw [hr] at hterminal <;> cases hterminal

/-- A record past its checkpoint stays one. -/
def Checkpointed (f : SessionFields) : Prop := ∃ t, f.transaction = some t ∧ t.phase.hasResult = true

theorem checkpointed_step (r : SessionRecord rules) (q : PublicationRequest)
    (h : Checkpointed r.toSessionFields) : Checkpointed (publicationStep r q).toSessionFields := by
  rcases advances q r with heq | ⟨current, next, history, hadvances⟩
  · rwa [heq]
  · exact ⟨next, by rw [hadvances.fields]; rfl, hadvances.result⟩

/-- What a call that returned leaves for good. -/
def Established (f : SessionFields) : PublicationCall → Prop
  | .complete _ true => handOffDone f
  | .complete _ false | .markUnconfirmed _ =>
    handOffDone f ∨ phaseOf f = some .publicationFailed
  | .suppress _ => phaseOf f = some .publicationSuppressed
  | .admitBlockers a => ∃ current history last, f.transaction = some current ∧
      f.convergenceHistory = some history ∧ history.progress.getLast? = some last ∧
      a.marks current last = true ∧
      (a.suppressPublication = true → current.phase.terminal = true) ∧
      (current.phase = .publicationPending → last = a.item current)

theorem handOffDone_of_phase {f : SessionFields} {current : ReviewTransaction}
    (hcurrent : f.transaction = some current) (h : current.phase.terminal = true) :
    handOffDone f :=
  ⟨current.phase, by simp [phaseOf, hcurrent], h⟩

/-- A hand-off that is asked for and not skipped is done when the call returns. -/
theorem handOff_returns {a : BlockerArguments} (hsuppress : a.suppressPublication = true)
    (h : recordAdmittedBlockerProgress r a m = .ok r') :
    handOffDone r'.toSessionFields ↔ ¬AlreadyAdmitted r.toSessionFields a := by
  obtain ⟨current, history, last, hcontext, hbranches⟩ := recordAdmittedBlockerProgress_ok h
  constructor
  · rintro ⟨p, hp, hterminal⟩ ⟨current', history', hcurrent', hpending, hhistory', hlast'⟩
    -- The call found its own entry under a pending transaction, and left both.
    obtain rfl : current = current' := Option.some.inj (hcontext.transaction_eq.symm.trans hcurrent')
    obtain rfl : history = history' := Option.some.inj (hcontext.history_eq.symm.trans hhistory')
    have hlast : last = a.item current := Option.some.inj (hcontext.last_eq.symm.trans hlast')
    rcases blockerBranches_ok hbranches with ⟨rfl, -⟩ | ⟨hphase, -⟩
    · simp only [phaseOf, hcurrent', Option.map_some, Option.some.injEq] at hp
      rw [← hp, hpending] at hterminal
      cases hterminal
    · rcases hphase with ⟨-, hne, -⟩ | ⟨hfailed, -⟩
      · exact hne hlast
      · rw [hpending] at hfailed
        cases hfailed
  · intro hnot
    rcases blockerBranches_ok hbranches with ⟨rfl, hsettled⟩ | ⟨-, hr'⟩
    · refine handOffDone_of_phase hcontext.transaction_eq ?_
      rcases hsettled with ⟨-, hs | ⟨-, hkeep⟩⟩ | ⟨hitem, hs | hp⟩
      · rw [hs]; rfl
      · rw [hsuppress] at hkeep
        cases hkeep
      · rw [hs]; rfl
      · exact absurd ⟨current, history, hcontext.transaction_eq, hp, hcontext.history_eq,
          hitem ▸ hcontext.last_eq⟩ hnot
    · refine ⟨.publicationSuppressed, ?_, rfl⟩
      rw [hr', hsuppress]
      rfl

theorem established_blockers {a : BlockerArguments}
    (hskip : ¬(a.suppressPublication = true ∧ AlreadyAdmitted r.toSessionFields a))
    (h : recordAdmittedBlockerProgress r a m = .ok r') :
    Established r'.toSessionFields (.admitBlockers a) := by
  obtain ⟨current, history, last, hcontext, hbranches⟩ := recordAdmittedBlockerProgress_ok h
  have hhanded (hs : a.suppressPublication = true) : handOffDone r'.toSessionFields :=
    (handOff_returns hs h).mpr (fun hadmitted => hskip ⟨hs, hadmitted⟩)
  rcases blockerBranches_ok hbranches with ⟨rfl, hsettled⟩ | ⟨-, hr'⟩
  · refine ⟨current, history, last, hcontext.transaction_eq, hcontext.history_eq,
      hcontext.last_eq, ?_, ?_, ?_⟩
    · rcases hsettled with ⟨hmarks, -⟩ | ⟨hitem, -⟩
      · exact hmarks
      · exact marks_of_item hitem
    · intro hs
      obtain ⟨p, hp, hterminal⟩ := hhanded hs
      simp only [phaseOf, hcontext.transaction_eq, Option.map_some, Option.some.injEq] at hp
      rwa [hp]
    · intro hpending
      rcases hsettled with ⟨-, hs | ⟨hf, -⟩⟩ | ⟨hitem, -⟩
      · rw [hpending] at hs
        cases hs
      · rw [hpending] at hf
        cases hf
      · exact hitem
  · have hitem : a.item (handedOff current a.suppressPublication) = a.item current := by
      unfold handedOff
      split <;> rfl
    refine ⟨handedOff current a.suppressPublication, _, a.item current, by rw [hr']; rfl,
      by rw [hr']; rfl, by simp, marks_of_item hitem.symm, ?_, fun _ => hitem.symm⟩
    intro hs
    rw [hs]
    rfl

/-- A call that returned, and skipped no hand-off, has established its outcome. -/
theorem established {q : PublicationRequest} (hskip : ¬SkipsHandOff r.toSessionFields q.call)
    (h : q.answer r = .ok r') : Established r'.toSessionFields q.call := by
  obtain ⟨hok, -⟩ := answer_ok h
  have hpublication (t : ReviewTransaction) (published : Bool)
      (h : publicationStateMutation r t published q.moment = .ok r') :
      Established r'.toSessionFields (.complete t published) := by
    obtain ⟨current, hcurrent, -, -, hcase⟩ := publicationStateMutation_ok h
    rcases hcase with ⟨rfl, hs | hs | ⟨hf, rfl⟩⟩ | ⟨-, -, hr'⟩
    · have hdone := handOffDone_of_phase hcurrent (by rw [hs]; rfl)
      cases published
      · exact .inl hdone
      · exact hdone
    · have hdone := handOffDone_of_phase hcurrent (by rw [hs]; rfl)
      cases published
      · exact .inl hdone
      · exact hdone
    · exact .inr (by simp [phaseOf, hcurrent, hf])
    · cases published
      · exact .inr (by rw [hr']; rfl)
      · exact ⟨.publicationSucceeded, by rw [hr']; rfl, rfl⟩
  cases hcall : q.call with
  | complete t published =>
    rw [hcall] at hok
    exact hpublication t published hok
  | markUnconfirmed t =>
    rw [hcall] at hok
    exact hpublication t false hok
  | suppress t =>
    rw [hcall] at hok
    obtain ⟨current, hcurrent, -, hcase⟩ := suppressMutation_ok hok
    rcases hcase with ⟨rfl, hs⟩ | ⟨-, hr'⟩
    · simp [Established, phaseOf, hcurrent, hs]
    · change phaseOf r'.toSessionFields = _
      rw [hr']
      rfl
  | admitBlockers a =>
    rw [hcall] at hok hskip
    exact established_blockers hskip hok

theorem marks_congr {a : BlockerArguments} {current next : ReviewTransaction} {last : ProgressItem}
    (hid : next.transactionId = current.transactionId) : a.marks next last = a.marks current last := by
  simp [BlockerArguments.marks, BlockerArguments.item, hid]

/-- A marker of the transaction is kept by every later call, also where the transaction moves on. -/
theorem marked_step {a : BlockerArguments} {current : ReviewTransaction}
    {history : ConvergenceHistory} {last : ProgressItem} (q : PublicationRequest)
    (hcurrent : r.transaction = some current) (hhistory : r.convergenceHistory = some history)
    (hlast : history.progress.getLast? = some last) (hmarks : a.marks current last = true) :
    publicationStep r q = r ∨ ∃ next history' last',
      (publicationStep r q).transaction = some next ∧
      (publicationStep r q).convergenceHistory = some history' ∧
      history'.progress.getLast? = some last' ∧ a.marks next last' = true ∧
      next.phase ≠ .publicationPending := by
  rcases publicationStep_eq r q with heq | hok
  · exact .inl heq
  have hpublication (t : ReviewTransaction) (published : Bool)
      (h : publicationStateMutation r t published q.moment = .ok (publicationStep r q)) :
      publicationStep r q = r ∨ ∃ next history' last',
        (publicationStep r q).transaction = some next ∧
        (publicationStep r q).convergenceHistory = some history' ∧
        history'.progress.getLast? = some last' ∧ a.marks next last' = true ∧
        next.phase ≠ .publicationPending := by
    obtain ⟨current', hcurrent', -, -, hcase⟩ := publicationStateMutation_ok h
    obtain rfl : current = current' := Option.some.inj (hcurrent.symm.trans hcurrent')
    refine hcase.imp And.left fun ⟨_, _, hr'⟩ => ?_
    refine ⟨_, history, last, congrArg SessionFields.transaction hr',
      (congrArg SessionFields.convergenceHistory hr').trans hhistory, hlast, ?_, ?_⟩
    · exact (marks_congr rfl).trans hmarks
    · cases published <;> rintro ⟨⟩
  cases hcall : q.call with
  | complete t published =>
    rw [hcall] at hok
    exact hpublication t published hok
  | markUnconfirmed t =>
    rw [hcall] at hok
    exact hpublication t false hok
  | suppress t =>
    rw [hcall] at hok
    obtain ⟨current', hcurrent', -, hcase⟩ := suppressMutation_ok hok
    obtain rfl : current = current' := Option.some.inj (hcurrent.symm.trans hcurrent')
    refine hcase.imp And.left fun ⟨_, hr'⟩ => ?_
    refine ⟨_, history, last, congrArg SessionFields.transaction hr',
      (congrArg SessionFields.convergenceHistory hr').trans hhistory, hlast, ?_, ?_⟩
    · exact (marks_congr rfl).trans hmarks
    · rintro ⟨⟩
  | admitBlockers a' =>
    rw [hcall] at hok
    obtain ⟨current', history', last', hcontext, hbranches⟩ := recordAdmittedBlockerProgress_ok hok
    obtain rfl : current = current' := Option.some.inj (hcurrent.symm.trans hcontext.transaction_eq)
    obtain rfl : history = history' := Option.some.inj (hhistory.symm.trans hcontext.history_eq)
    obtain rfl : last = last' := Option.some.inj (hlast.symm.trans hcontext.last_eq)
    refine (blockerBranches_ok hbranches).imp And.left fun ⟨hphase, hr'⟩ => ?_
    have hmarker : last.marker = (a.item current).marker := by
      simpa [BlockerArguments.marks] using hmarks
    -- The marker owns its transaction, so only the hand-off of the same marker gets through.
    have hsame : current.phase = .publicationFailed ∧ a'.marks current last = true ∧
        a'.suppressPublication = true := by
      rcases hphase with ⟨-, -, hunowned⟩ | ⟨hfailed, hnone | hown⟩
      · rw [hmarker] at hunowned
        cases hunowned
      · rw [hmarker] at hnone
        cases hnone
      · exact ⟨hfailed, hown⟩
    obtain ⟨-, hmarks', hsuppress⟩ := hsame
    have hmarker' : last.marker = (a'.item current).marker := by
      simpa [BlockerArguments.marks] using hmarks'
    refine ⟨handedOff current true, _, a'.item current, by rw [hr', hsuppress]; rfl,
      by rw [hr']; rfl, by simp, ?_, ?_⟩
    · have hitems : (a'.item current).marker = (a.item current).marker :=
        hmarker'.symm.trans hmarker
      simp only [BlockerArguments.marks, hitems, beq_iff_eq]
      rfl
    · rintro ⟨⟩

/-- A skipped hand-off leaves the record. -/
theorem skipsHandOff_unchanged {q : PublicationRequest} (hskip : SkipsHandOff r.toSessionFields q.call)
    (h : q.answer r = .ok r') : r' = r := by
  obtain ⟨hok, -⟩ := answer_ok h
  cases hcall : q.call with
  | complete t published => simp [hcall, SkipsHandOff] at hskip
  | markUnconfirmed t => simp [hcall, SkipsHandOff] at hskip
  | suppress t => simp [hcall, SkipsHandOff] at hskip
  | admitBlockers a =>
    rw [hcall] at hskip hok
    obtain ⟨-, current, history, hcurrent, hpending, hhistory, hlast⟩ := hskip
    obtain ⟨current', history', last, hcontext, hbranches⟩ := recordAdmittedBlockerProgress_ok hok
    obtain rfl : current = current' := Option.some.inj (hcurrent.symm.trans hcontext.transaction_eq)
    obtain rfl : history = history' := Option.some.inj (hhistory.symm.trans hcontext.history_eq)
    have hitem : last = a.item current := Option.some.inj (hcontext.last_eq.symm.trans hlast)
    rcases blockerBranches_ok hbranches with ⟨heq, -⟩ | ⟨⟨-, hne, -⟩ | ⟨hfailed, -⟩, -⟩
    · exact heq
    · exact absurd hitem hne
    · rw [hpending] at hfailed
      cases hfailed

/-- What a call has established, every later call keeps. -/
theorem established_step {c : PublicationCall} (q : PublicationRequest)
    (h : Established r.toSessionFields c) :
    Established (publicationStep r q).toSessionFields c := by
  have hterminal (hdone : handOffDone r.toSessionFields) :
      Established (publicationStep r q).toSessionFields c := by
    rwa [terminal_step r q hdone]
  have hfailed (h : handOffDone r.toSessionFields ∨ phaseOf r.toSessionFields = some .publicationFailed) :
      handOffDone (publicationStep r q).toSessionFields ∨
        phaseOf (publicationStep r q).toSessionFields = some .publicationFailed := by
    rcases h with hdone | hf
    · rw [terminal_step r q hdone]
      exact .inl hdone
    rcases advances q r with heq | ⟨current, next, history, hadvances⟩
    · rw [heq]
      exact .inr hf
    have hphase : phaseOf (publicationStep r q).toSessionFields = some next.phase := by
      rw [hadvances.fields]
      rfl
    have hcurrent : current.phase = .publicationFailed := by
      simpa [phaseOf, hadvances.current_eq] using hf
    have hforward := hadvances.forward
    have hresult := hadvances.result
    cases hp : next.phase with
    | publicationFailed => exact .inr (hphase.trans (congrArg some hp))
    | publicationSucceeded => exact .inl ⟨_, hphase, by rw [hp]; rfl⟩
    | publicationSuppressed => exact .inl ⟨_, hphase, by rw [hp]; rfl⟩
    | publicationPending =>
      rw [hforward hp] at hcurrent
      cases hcurrent
    | analysis =>
      rw [hp] at hresult
      cases hresult
    | analysisFailed =>
      rw [hp] at hresult
      cases hresult
  cases c with
  | complete t published =>
    cases published with
    | true => exact hterminal h
    | false => exact hfailed h
  | markUnconfirmed t => exact hfailed h
  | suppress t => exact hterminal ⟨.publicationSuppressed, h, rfl⟩
  | admitBlockers a =>
    obtain ⟨current, history, last, hcurrent, hhistory, hlast, hmarks, hsuppress, hpending⟩ := h
    rcases marked_step q hcurrent hhistory hlast hmarks with
      heq | ⟨next, history', last', hnext, hhistory', hlast', hmarks', hphase⟩
    · rw [heq]
      exact ⟨current, history, last, hcurrent, hhistory, hlast, hmarks, hsuppress, hpending⟩
    · refine ⟨next, history', last', hnext, hhistory', hlast', hmarks', fun hs => ?_,
        fun hp => absurd hp hphase⟩
      have hdone := handOffDone_of_phase hcurrent (hsuppress hs)
      have hsame : (publicationStep r q).transaction = some current := by
        rw [terminal_step r q hdone]
        exact hcurrent
      obtain rfl : next = current := Option.some.inj (hnext.symm.trans hsame)
      exact hsuppress hs

/-- A call whose outcome is established changes nothing. -/
theorem established_unchanged {c : PublicationCall} (q : PublicationRequest) (hq : q.call = c)
    (h : Established r.toSessionFields c) : publicationStep r q = r := by
  have hfailed (t : ReviewTransaction) (hcall : q.call.call = .publication t false)
      (h : handOffDone r.toSessionFields ∨
        phaseOf r.toSessionFields = some .publicationFailed) : publicationStep r q = r := by
    rcases h with hdone | hf
    · exact terminal_step r q hdone
    rcases publicationStep_eq r q with heq | hok
    · exact heq
    rw [hcall] at hok
    obtain ⟨current, hcurrent, -, -, ⟨heq, -⟩ | ⟨hphase, -⟩⟩ := publicationStateMutation_ok hok
    · exact heq
    have hp : current.phase = .publicationFailed := by simpa [phaseOf, hcurrent] using hf
    rw [hp] at hphase
    simp at hphase
  cases c with
  | complete t published =>
    cases published with
    | true => exact terminal_step r q h
    | false => exact hfailed t (by rw [hq]; rfl) h
  | markUnconfirmed t => exact hfailed t (by rw [hq]; rfl) h
  | suppress t => exact terminal_step r q ⟨.publicationSuppressed, h, rfl⟩
  | admitBlockers a =>
    obtain ⟨current, history, last, hcurrent, hhistory, hlast, hmarks, hsuppress, hpending⟩ := h
    rcases publicationStep_eq r q with heq | hok
    · exact heq
    rw [hq] at hok
    obtain ⟨current', history', last', hcontext, hbranches⟩ := recordAdmittedBlockerProgress_ok hok
    obtain rfl : current = current' := Option.some.inj (hcurrent.symm.trans hcontext.transaction_eq)
    obtain rfl : history = history' := Option.some.inj (hhistory.symm.trans hcontext.history_eq)
    obtain rfl : last = last' := Option.some.inj (hlast.symm.trans hcontext.last_eq)
    rcases blockerBranches_ok hbranches with ⟨heq, -⟩ | ⟨hphase, -⟩
    · exact heq
    rcases hphase with ⟨hp, hne, -⟩ | ⟨hp, hnone | ⟨-, hs⟩⟩
    · exact absurd (hpending hp) hne
    · simp [BlockerArguments.marks, BlockerArguments.item, hnone] at hmarks
    · have hterminal := hsuppress hs
      rw [hp] at hterminal
      cases hterminal

theorem publicationRun_keeps {P : SessionRecord rules → Prop}
    (h : ∀ r q, P r → P (publicationStep r q)) (hr : P r) (requests : List PublicationRequest) :
    P (publicationRun r requests) :=
  run_keeps h hr requests

/-- The publication machine, over every run from a checkpointed record. Everything but the phase,
the generations and the last progress entry is kept; terminal phases are absorbing; a call that
raises changes nothing; a returned call that skipped no hand-off changes nothing when it is made
again, then or later; and a returned hand-off is done exactly when its entry was not already the
last one of a pending transaction. -/
theorem publication_machine (r₀ : SessionRecord rules) (h₀ : Checkpointed r₀.toSessionFields)
    (requests : List PublicationRequest) :
    let r := publicationRun r₀ requests
    Checkpointed r.toSessionFields ∧
      immutablePart r.toSessionFields = immutablePart r₀.toSessionFields ∧
      progressLength r.toSessionFields = progressLength r₀.toSessionFields ∧
      ∀ q : PublicationRequest,
        (handOffDone r.toSessionFields → publicationStep r q = r) ∧
        (∀ e, q.answer r = .error e → publicationStep r q = r) ∧
        (∀ r', q.answer r = .ok r' → publicationStep r' q = r') ∧
        (∀ r', q.answer r = .ok r' → ¬SkipsHandOff r.toSessionFields q.call →
          ∀ later q', q'.call = q.call →
            publicationStep (publicationRun r' later) q' = publicationRun r' later) ∧
        (∀ a r', q.call = .admitBlockers a → a.suppressPublication = true → q.answer r = .ok r' →
          (handOffDone r'.toSessionFields ↔ ¬AlreadyAdmitted r.toSessionFields a)) := by
  intro r
  have hkept := publicationRun_keeps
    (P := fun r : SessionRecord rules => immutablePart r.toSessionFields =
        immutablePart r₀.toSessionFields ∧
      progressLength r.toSessionFields = progressLength r₀.toSessionFields)
    (fun r q hr => ⟨(immutablePart_step r q).1.trans hr.1, (immutablePart_step r q).2.trans hr.2⟩)
    ⟨rfl, rfl⟩ requests
  have hcheckpointed := publicationRun_keeps
    (P := fun r : SessionRecord rules => Checkpointed r.toSessionFields)
    checkpointed_step h₀ requests
  refine ⟨hcheckpointed, hkept.1, hkept.2, fun q => ⟨terminal_step r q, fun e => answer_error,
    fun r' h => ?_, fun r' h hskip later q' hq' => ?_, fun a r' hcall hsuppress h => ?_⟩⟩
  · by_cases hskip : SkipsHandOff r.toSessionFields q.call
    · -- The skipped hand-off left the record, so it is the same call on the same record.
      have hsame : r' = r := skipsHandOff_unchanged hskip h
      rw [hsame] at h ⊢
      exact (answer_ok h).2
    · exact established_unchanged q rfl (established hskip h)
  · have hrun := publicationRun_keeps
      (P := fun r : SessionRecord rules => Established r.toSessionFields q.call)
      (fun r q₁ => established_step q₁) (established hskip h) later
    exact established_unchanged q' hq' hrun
  · have hok := (answer_ok h).1
    rw [hcall] at hok
    exact handOff_returns hsuppress hok

/-- The sample round's checkpoint, with the complete baseline of its transaction. -/
def sampleArguments (t : ReviewTransaction) : CheckpointArguments where
  transaction := t
  resultDigest := repeated 64 'd'
  baseline := some
    { complete := true
      repository := t.repository
      pullRequest := t.pullRequest
      baseSha := t.baseSha
      headSha := t.headSha
      policyDigest := t.policyDigest
      generation := t.generation + 1 }
  reviewComplete := true
  progress := none
  writeBaseline _ := .ok "baseline"

def sampleCheckpoint : LedgerOp sampleRules (SessionRecord sampleRules) := do
  let prepared ← sampleRound (repeated 64 '1')
  match prepared.transaction with
  | none => Effects.Prog.raise "the round was not reserved"
  | some t => replace sampleIdentity sampleMoment (fun record =>
      checkpointTransactionRecord record (sampleArguments t) sampleMoment)

/-- The request about the given transaction with one admitted blocker. -/
def sampleBlockers (t : ReviewTransaction) (suppressPublication : Bool) : PublicationRequest where
  identity := sampleIdentity
  call := .admitBlockers ⟨t, repeated 64 'b', 1, suppressPublication⟩
  moment := sampleMoment

/-- The blockers of the checkpointed round are admitted, and then handed off. -/
def sampleHandOff : LedgerOp sampleRules (SessionRecord sampleRules) := do
  let pending ← sampleCheckpoint
  match pending.transaction with
  | none => Effects.Prog.raise "the checkpoint kept no transaction"
  | some t => do
    let _ ← (sampleBlockers t false).request.op
    (sampleBlockers t true).request.op

/-- Both runs share the checkpointed round. -/
theorem sample_runs :
    (sampleHandOff.run none).1.toOption.map (fun r => phaseOf r.toSessionFields) =
        some (some .publicationPending) ∧
      (sampleCheckpoint.run none).2.any (fun r =>
        r.transaction.any (fun t => t.phase.hasResult)) = true := by
  decide +kernel

/-- The hand-off returns, and the transaction is still pending. -/
theorem hand_off_is_skipped :
    (sampleHandOff.run none).1.toOption.map (fun r => phaseOf r.toSessionFields) =
      some (some .publicationPending) :=
  sample_runs.1

theorem sampleCheckpoint_runs : (sampleCheckpoint.run none).2.any (fun r =>
    r.transaction.any (fun t => t.phase.hasResult)) = true :=
  sample_runs.2

theorem sampleCheckpoint_isSome : (sampleCheckpoint.run none).2.isSome = true :=
  Option.isSome_of_any sampleCheckpoint_runs

/-- The record after the sample round has been checkpointed. -/
def samplePending : SessionRecord sampleRules :=
  (sampleCheckpoint.run none).2.get sampleCheckpoint_isSome

theorem samplePending_checkpointed : Checkpointed samplePending.toSessionFields := by
  have hpending : (sampleCheckpoint.run none).2 = some samplePending := by
    rw [samplePending, Option.some_get]
  have hruns := sampleCheckpoint_runs
  rw [hpending, Option.any_some] at hruns
  cases htransaction : samplePending.transaction with
  | none => simp [htransaction] at hruns
  | some t => exact ⟨t, htransaction, by simpa [htransaction] using hruns⟩

/-- Completing the sample transaction keeps its result, its counters and its history. -/
theorem samplePending_publication :
    immutablePart (publicationRun samplePending
      (samplePending.transaction.toList.map (fun t =>
        ⟨sampleIdentity, .complete t true, sampleMoment⟩))).toSessionFields =
      immutablePart samplePending.toSessionFields :=
  (publication_machine samplePending samplePending_checkpointed _).2.1

end ReviewSensei.Session
