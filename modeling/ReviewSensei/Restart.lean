import Mathlib

/-! A program that may stop after any of its events and be restarted from what it left behind.

A process started on a durable state shows a finite trace of events, some of which change the
durable state. A stop loses the rest of the trace; the next process starts from the durable state
alone. -/
namespace ReviewSensei.Restart

variable {ε σ κ : Type}

/-- What a list of events leaves behind. -/
def left (persist : σ → ε → σ) (s : σ) (events : List ε) : σ := events.foldl persist s

/-- The durable state after a log of events, in which `none` marks the start of a process. -/
def durable (persist : σ → ε → σ) (s₀ : σ) (log : List (Option ε)) : σ :=
  left persist s₀ (log.filterMap id)

/-- The runs of restarted processes: the log so far, and what the current process would still
show if it were not stopped. -/
inductive Runs (proc : σ → List ε → Prop) (persist : σ → ε → σ) (s₀ : σ) :
    List (Option ε) → List ε → Prop
  | idle : Runs proc persist s₀ [] []
  | restart {log rest es} (h : Runs proc persist s₀ log rest) (hp : proc (durable persist s₀ log) es) :
      Runs proc persist s₀ (log ++ [none]) es
  | event {log e rest} (h : Runs proc persist s₀ log (e :: rest)) :
      Runs proc persist s₀ (log ++ [some e]) rest

variable {proc : σ → List ε → Prop} {persist : σ → ε → σ} {s₀ : σ}

@[simp] theorem left_nil (s : σ) : left persist s [] = s := rfl

@[simp] theorem left_append (s : σ) (es es' : List ε) :
    left persist s (es ++ es') = left persist (left persist s es) es' :=
  List.foldl_append ..

@[simp] theorem left_singleton (s : σ) (e : ε) : left persist s [e] = persist s e := rfl

@[simp] theorem durable_nil : durable persist s₀ [] = s₀ := rfl

theorem durable_append (log log' : List (Option ε)) :
    durable persist s₀ (log ++ log') =
      left persist (durable persist s₀ log) (log'.filterMap id) := by
  rw [durable, List.filterMap_append, left_append, durable]

@[simp] theorem durable_restart (log : List (Option ε)) :
    durable persist s₀ (log ++ [none]) = durable persist s₀ log := by
  rw [durable_append]
  rfl

@[simp] theorem durable_event (log : List (Option ε)) (e : ε) :
    durable persist s₀ (log ++ [some e]) = persist (durable persist s₀ log) e := by
  rw [durable_append]
  rfl

/-- What a process has left behind since it started. -/
theorem durable_process (log : List (Option ε)) (seen : List ε) :
    durable persist s₀ (log ++ none :: seen.map some) =
      left persist (durable persist s₀ log) seen := by
  rw [durable_append]
  congr 1
  induction seen with
  | nil => rfl
  | cons e seen ih => simp

/-- The current process has shown the end of the log. -/
theorem Runs.current {log : List (Option ε)} {rest : List ε}
    (h : Runs proc persist s₀ log rest) (hrest : rest ≠ []) :
    ∃ log' seen, log = log' ++ none :: seen.map some ∧
      proc (durable persist s₀ log') (seen ++ rest) := by
  induction h with
  | idle => exact absurd rfl hrest
  | @restart log rest es h hp ih => exact ⟨log, [], rfl, hp⟩
  | @event log e rest h ih =>
    obtain ⟨log', seen, rfl, hp⟩ := ih (List.cons_ne_nil e rest)
    refine ⟨log', seen ++ [e], by simp, ?_⟩
    rwa [List.append_assoc]

/-- Every prefix of a log is the log of a run. -/
theorem Runs.before {log a z : List (Option ε)} {rest : List ε}
    (h : Runs proc persist s₀ log rest) (hlog : log = a ++ z) :
    ∃ rest₁, Runs proc persist s₀ a rest₁ := by
  induction h generalizing z with
  | idle =>
    obtain ⟨rfl, rfl⟩ := List.append_eq_nil_iff.mp hlog.symm
    exact ⟨[], .idle⟩
  | @restart log rest es h hp ih =>
    rcases List.eq_nil_or_concat z with rfl | ⟨l, x, rfl⟩
    · rw [List.append_nil] at hlog
      subst hlog
      exact ⟨es, .restart h hp⟩
    · rw [List.concat_eq_append, ← List.append_assoc] at hlog
      exact ih (List.append_inj' hlog rfl).1
  | @event log e rest h ih =>
    rcases List.eq_nil_or_concat z with rfl | ⟨l, x, rfl⟩
    · rw [List.append_nil] at hlog
      subst hlog
      exact ⟨rest, .event h⟩
    · rw [List.concat_eq_append, ← List.append_assoc] at hlog
      exact ih (List.append_inj' hlog rfl).1

/-- A process that is not stopped shows its trace. -/
theorem Runs.shows {log : List (Option ε)} {es rest : List ε}
    (h : Runs proc persist s₀ log (es ++ rest)) :
    Runs proc persist s₀ (log ++ es.map some) rest := by
  induction es generalizing log with
  | nil => simpa using h
  | cons e es ih =>
    have hnext := ih (.event h)
    simpa using hnext

theorem Runs.showsAll {log : List (Option ε)} {es : List ε}
    (h : Runs proc persist s₀ log es) : Runs proc persist s₀ (log ++ es.map some) [] :=
  Runs.shows (by rwa [List.append_nil])

/-- A property of logs that every event carries on from the start of its process. -/
theorem Runs.carries {P : List (Option ε) → Prop} (h₀ : P [])
    (hrestart : ∀ log, P log → P (log ++ [none]))
    (hevent : ∀ log seen e rest, P log → proc (durable persist s₀ log) (seen ++ e :: rest) →
      P (log ++ none :: (seen ++ [e]).map some))
    {log : List (Option ε)} {rest : List ε} (h : Runs proc persist s₀ log rest) : P log := by
  have hall : ∀ l₁ l₂, log = l₁ ++ l₂ → P l₁ := by
    induction h with
    | idle =>
      intro l₁ l₂ hl
      rwa [(List.append_eq_nil_iff.mp hl.symm).1]
    | @restart log rest es h hp ih =>
      intro l₁ l₂ hl
      rcases List.eq_nil_or_concat l₂ with rfl | ⟨l, x, rfl⟩
      · rw [List.append_nil] at hl
        exact hl ▸ hrestart log (ih log [] (List.append_nil _).symm)
      · rw [List.concat_eq_append, ← List.append_assoc] at hl
        exact ih l₁ l (List.append_inj' hl rfl).1
    | @event log e rest h ih =>
      intro l₁ l₂ hl
      rcases List.eq_nil_or_concat l₂ with rfl | ⟨l, x, rfl⟩
      · rw [List.append_nil] at hl
        obtain ⟨log', seen, rfl, hp⟩ := h.current (List.cons_ne_nil _ _)
        have hnext := hevent log' seen e rest (ih log' _ rfl) hp
        rw [← hl]
        simpa using hnext
      · rw [List.concat_eq_append, ← List.append_assoc] at hl
        exact ih l₁ l (List.append_inj' hl rfl).1
  exact hall log [] (List.append_nil _).symm

/-- The process that shows a given event of the log. -/
theorem Runs.shown {l₁ l₂ : List (Option ε)} {e : ε} {rest : List ε}
    (h : Runs proc persist s₀ (l₁ ++ some e :: l₂) rest) :
    ∃ log' seen tail, l₁ = log' ++ none :: seen.map some ∧
      proc (durable persist s₀ log') (seen ++ e :: tail) := by
  have hsplit : l₁ ++ some e :: l₂ = (l₁ ++ [some e]) ++ l₂ := by simp
  obtain ⟨rest₁, h₁⟩ := h.before hsplit
  generalize hlog : l₁ ++ [some e] = log at h₁
  cases h₁ with
  | idle => simp at hlog
  | restart h hp => simp at hlog
  | event h =>
    obtain ⟨rfl, he⟩ := List.append_inj' hlog rfl
    cases he
    obtain ⟨log', seen, hl, hp⟩ := h.current (List.cons_ne_nil _ _)
    exact ⟨log', seen, _, hl, hp⟩

theorem Runs.lastShown {l₁ : List (Option ε)} {e : ε} {rest : List ε}
    (h : Runs proc persist s₀ (l₁ ++ [some e]) rest) :
    ∃ log' seen tail, l₁ = log' ++ none :: seen.map some ∧
      proc (durable persist s₀ log') (seen ++ e :: tail) :=
  h.shown

/-- The last restart of a log lies behind every other one. -/
theorem prefix_of_last_restart {x y a : List (Option ε)} {seen : List ε}
    (h : x ++ none :: y = a ++ none :: seen.map some) : ∃ z, a = x ++ z := by
  rcases List.append_eq_append_iff.mp h with ⟨z, rfl, -⟩ | ⟨z, rfl, hz⟩
  · exact ⟨z, rfl⟩
  · cases z with
    | nil => exact ⟨[], by simp⟩
    | cons o z =>
      have hmem : (none : Option ε) ∈ seen.map some := by
        rw [(List.cons.inj hz).2]
        simp
      simp at hmem

/-- Processes need only be considered on durable states that meet an invariant. -/
theorem Runs.within {I : σ → Prop} (h₀ : I s₀)
    (hstep : ∀ s seen e rest, proc s (seen ++ e :: rest) → I s → I (left persist s seen) →
      I (persist (left persist s seen) e))
    {log : List (Option ε)} {rest : List ε} (h : Runs proc persist s₀ log rest) :
    Runs (fun s es => proc s es ∧ I s) persist s₀ log rest := by
  have hrun : Runs (fun s es => proc s es ∧ I s) persist s₀ log rest ∧
      I (durable persist s₀ log) := by
    induction h with
    | idle => exact ⟨.idle, h₀⟩
    | restart h hp ih => exact ⟨.restart ih.1 ⟨hp, ih.2⟩, by simpa using ih.2⟩
    | @event log e rest h ih =>
      obtain ⟨log', seen, rfl, hp, hI⟩ := ih.1.current (List.cons_ne_nil _ _)
      refine ⟨.event ih.1, ?_⟩
      have hnow := ih.2
      rw [durable_process] at hnow
      rw [durable_event, durable_process]
      exact hstep _ seen e rest hp hI hnow
  exact hrun.1

/-- Every step of a trace is right after the events before it. -/
def EachStep (P : List ε → ε → Prop) (es : List ε) : Prop :=
  ∀ seen e rest, es = seen ++ e :: rest → P seen e

theorem EachStep.nil {P : List ε → ε → Prop} : EachStep P [] := by
  intro seen e rest h
  simp at h

theorem EachStep.snoc {P : List ε → ε → Prop} {es : List ε} {e : ε}
    (h : EachStep P es) (he : P es e) : EachStep P (es ++ [e]) := by
  intro seen e' rest hsplit
  rcases List.eq_nil_or_concat rest with rfl | ⟨l, x, rfl⟩
  · obtain ⟨rfl, hlast⟩ := List.append_inj' hsplit rfl
    cases hlast
    exact he
  · rw [List.concat_eq_append, ← List.cons_append, ← List.append_assoc] at hsplit
    exact h seen e' l (List.append_inj' hsplit rfl).1

/-- What the events of a process use is claimed durably before and spared by later processes. -/
structure Guards (proc : σ → List ε → Prop) (persist : σ → ε → σ) (claimed : σ → Set κ)
    (uses : ε → Set κ) : Prop where
  grows : ∀ s seen e rest, proc s (seen ++ e :: rest) →
    claimed (left persist s seen) ⊆ claimed (persist (left persist s seen) e)
  spares : ∀ s seen e rest, proc s (seen ++ e :: rest) → Disjoint (uses e) (claimed s)
  claims : ∀ s seen e rest, proc s (seen ++ e :: rest) → uses e ⊆ claimed (left persist s seen)

section Guards
variable {claimed : σ → Set κ} {uses : ε → Set κ} (g : Guards proc persist claimed uses)
include g

theorem Guards.claimed_mono {l₁ l₂ : List (Option ε)} {rest : List ε}
    (h : Runs proc persist s₀ (l₁ ++ l₂) rest) :
    claimed (durable persist s₀ l₁) ⊆ claimed (durable persist s₀ (l₁ ++ l₂)) := by
  induction l₂ using List.reverseRecOn generalizing rest with
  | nil => rw [List.append_nil]
  | append_singleton l x ih =>
    rw [← List.append_assoc] at h ⊢
    obtain ⟨rest₁, h₁⟩ := h.before rfl
    refine (ih h₁).trans ?_
    cases x with
    | none => rw [durable_restart]
    | some e =>
      obtain ⟨log', seen, tail, hl, hp⟩ := h.lastShown
      rw [durable_event, hl, durable_process]
      exact g.grows _ seen e tail hp

/-- A later process uses nothing that was claimed before it started. -/
theorem Guards.spared {l₁ l₂ : List (Option ε)} {e : ε} {rest : List ε}
    (h : Runs proc persist s₀ (l₁ ++ none :: l₂) rest) (he : some e ∈ l₂) :
    Disjoint (uses e) (claimed (durable persist s₀ l₁)) := by
  obtain ⟨x, y, rfl⟩ := List.append_of_mem he
  have hsplit : l₁ ++ none :: (x ++ some e :: y) = (l₁ ++ none :: x) ++ some e :: y := by simp
  rw [hsplit] at h
  obtain ⟨log', seen, tail, hl, hp⟩ := h.shown
  obtain ⟨z, rfl⟩ := prefix_of_last_restart hl
  rw [hl, List.append_assoc, List.append_assoc] at h
  rw [← List.append_assoc] at h
  obtain ⟨rest₁, hrun⟩ := h.before rfl
  exact (g.spares _ seen e tail hp).mono_right (g.claimed_mono hrun)

/-- Two processes never use the same thing. -/
theorem Guards.once {l₁ l₂ l₃ : List (Option ε)} {e e' : ε} {rest : List ε}
    (h : Runs proc persist s₀ (l₁ ++ some e :: l₂ ++ none :: l₃) rest) (he' : some e' ∈ l₃) :
    Disjoint (uses e') (uses e) := by
  have hspared := g.spared h he'
  refine hspared.mono_right ?_
  obtain ⟨rest₁, h₁⟩ := h.before (a := l₁ ++ some e :: l₂) rfl
  obtain ⟨log', seen, tail, hl, hp⟩ := h₁.shown
  have hclaims : uses e ⊆ claimed (durable persist s₀ l₁) := by
    rw [hl, durable_process]
    exact g.claims _ seen e tail hp
  exact hclaims.trans (g.claimed_mono h₁)

end Guards

/-- Whether nothing was broken since the last save. -/
def unbroken (breaks saves : ε → Prop) [DecidablePred breaks] [DecidablePred saves]
    (events : List ε) : Prop :=
  events.foldl (fun ok e => if breaks e then False else if saves e then True else ok) True

section Unbroken
variable {breaks saves : ε → Prop} [DecidablePred breaks] [DecidablePred saves]

theorem unbroken_snoc (events : List ε) (e : ε) : unbroken breaks saves (events ++ [e]) =
    if breaks e then False else if saves e then True else unbroken breaks saves events := by
  rw [unbroken, List.foldl_append]
  rfl

theorem unbroken_append {events more : List ε} (h : unbroken breaks saves events)
    (hmore : ∀ e ∈ more, ¬breaks e) : unbroken breaks saves (events ++ more) := by
  induction more using List.reverseRecOn with
  | nil => rwa [List.append_nil]
  | append_singleton l e ih =>
    rw [← List.append_assoc, unbroken_snoc, if_neg (hmore e (by simp))]
    split
    · trivial
    · exact ih fun e he => hmore e (by simp [he])

/-- Nothing is broken in a process that ends behind an unbroken save. -/
theorem unbroken_process {l₁ l log' : List (Option ε)} {e₁ : ε} {seen : List ε}
    (hl : l₁ ++ some e₁ :: l = log' ++ none :: seen.map some) (hsave : saves e₁)
    (hbreaks : ∀ e, some e ∈ some e₁ :: l → ¬breaks e) : unbroken breaks saves seen := by
  rcases List.append_eq_append_iff.mp hl with ⟨z, -, hz⟩ | ⟨z, -, hz⟩
  · -- the process started behind the save
    have hseen : ∀ e ∈ seen, ¬breaks e := fun e he => hbreaks e (by rw [hz]; simp [he])
    have hnone : unbroken breaks saves [] := trivial
    exact unbroken_append hnone hseen
  · -- the process made the save itself
    cases z with
    | nil => cases (List.cons.inj hz).1
    | cons o z =>
      obtain ⟨a, t, rfl, -, ht⟩ := List.map_eq_append_iff.mp (List.cons.inj hz).2
      obtain ⟨e, b, rfl, he, rfl⟩ := List.map_eq_cons_iff.mp ht
      cases he
      have hone : unbroken breaks saves (a ++ [e₁]) := by
        rw [unbroken_snoc, if_neg (hbreaks e₁ List.mem_cons_self), if_pos hsave]
        trivial
      have happ : a ++ e₁ :: b = (a ++ [e₁]) ++ b := by simp
      rw [happ]
      exact unbroken_append hone fun e he => hbreaks e (by simp [he])

/-- What a save holds is held by every later save until something is broken. -/
theorem Runs.kept {held : σ → Set κ}
    (hkeep : ∀ s seen e rest, proc s (seen ++ e :: rest) → unbroken breaks saves seen →
      held (left persist s seen) ⊆ held (persist (left persist s seen) e))
    {l₁ l₂ : List (Option ε)} {e₁ : ε} {rest : List ε}
    (h : Runs proc persist s₀ (l₁ ++ some e₁ :: l₂) rest) (hsave : saves e₁)
    (hbreaks : ∀ e, some e ∈ some e₁ :: l₂ → ¬breaks e) :
    held (durable persist s₀ (l₁ ++ [some e₁])) ⊆
      held (durable persist s₀ (l₁ ++ some e₁ :: l₂)) := by
  induction l₂ using List.reverseRecOn generalizing rest with
  | nil => exact subset_rfl
  | append_singleton l x ih =>
    have hassoc : l₁ ++ some e₁ :: (l ++ [x]) = (l₁ ++ some e₁ :: l) ++ [x] := by simp
    rw [hassoc] at h ⊢
    obtain ⟨rest₁, h₁⟩ := h.before rfl
    refine (ih h₁ fun e he => hbreaks e (by simp at he ⊢; tauto)).trans ?_
    cases x with
    | none => rw [durable_restart]
    | some e =>
      obtain ⟨log', seen, tail, hl, hp⟩ := h.lastShown
      rw [durable_event, hl, durable_process]
      refine hkeep _ seen e tail hp (unbroken_process hl hsave fun e he => hbreaks e ?_)
      simp at he ⊢
      tauto

end Unbroken
end ReviewSensei.Restart
