import ReviewSensei.NativeCharges

/-! Runs of a guard: requests, with or without the responses to them. What its promises cover is
never refused, and what it has certified never grows. -/
namespace ReviewSensei.NativeCapacity.Guard
open Packed Slots

inductive Event
  | request (method path : String) (body : Json)
  | response (method : String) (created : Option Created)

namespace Event
variable (rules : CapacityRules)

/-- The guard after an event, whether or not it was refused. -/
def apply (g : Guard) : Event → Changed Unit
  | .request method path body => g.beforeRequest rules method path body
  | .response method created => g.afterResponse method created

def write? : Event → Option Write
  | .request method path body => Guard.write? rules method path body
  | .response _ _ => none

def demand (s : Surface) (e : Event) : List Nat := (e.write? rules).elim [] (·.demand s)

/-- By how much the event grows a comment it updates. -/
def growth (g : Guard) (e : Event) : Nat :=
  (e.write? rules).elim 0 (fun w => if updatesComment w then g.growth w else 0)

end Event

section Runs
variable (rules : CapacityRules)

def run (g : Guard) (events : List Event) : Guard :=
  events.foldl (fun g e => (e.apply rules g).2) g

/-- The sizes the creates of a run need promises for. -/
def demands (events : List Event) (s : Surface) : List Nat := events.flatMap (Event.demand rules s)

/-- By how much the updates of a run grow comments, each beside what was known of it. -/
def updateGrowth (g : Guard) : List Event → Nat
  | [] => 0
  | e :: events => e.growth rules g + updateGrowth (e.apply rules g).2 events

def AllAdmissible (g : Guard) : List Event → Prop
  | [] => True
  | e :: events =>
    (∀ w ∈ e.write? rules, Admissible rules g w) ∧ AllAdmissible (e.apply rules g).2 events

instance (g : Guard) (w : Write) : Decidable (Admissible rules g w) :=
  decidable_of_iff
    ((w.new = true ∨ updatesComment w = true) ∧ g.checkEnvelope rules w = .ok () ∧
      g.checkRetained w = .ok () ∧ (updatesComment w = true → wire w.body ≤ g.closureWire))
    ⟨fun h => ⟨h.1, h.2.1, h.2.2.1, h.2.2.2⟩,
      fun h => ⟨h.kind, h.envelope, h.retained, h.closure⟩⟩

instance allAdmissible (g : Guard) : (events : List Event) → Decidable (AllAdmissible rules g events)
  | [] => .isTrue trivial
  | e :: events =>
    have := allAdmissible (e.apply rules g).2 events
    inferInstanceAs (Decidable (_ ∧ _))

/-- Every size has a promise of its own that it fits. -/
def Matched (promised sizes : List Nat) : Prop :=
  ∃ chosen : List Nat, chosen.Subperm promised ∧ List.Forall₂ (· ≤ ·) sizes chosen

/-- The promises of a guard cover a run. -/
structure Covers (g : Guard) (events : List Event) : Prop where
  cursor : g.cursor = true
  coherent : g.promises.Coherent
  required : ∃ cs, require rules g g.stats = .ok cs
  dominates : ∀ s, s ≠ .threads → Dominates (g.promises.pending s) (demands rules events s)
  growth : updateGrowth rules g events ≤ g.promises.issueUpdateBytes
  admissible : AllAdmissible rules g events

/-- What one event leaves of what was certified and promised. -/
structure Kept (before after : Guard) (e : Event) : Prop where
  certified : ∃ cs cs', require rules before before.stats = .ok cs ∧
    require rules after after.stats = .ok cs' ∧ NoLarger cs' cs
  taken : ∀ s, s ≠ .threads →
    (after.promises.pending s).length + (e.demand rules s).length =
      (before.promises.pending s).length

end Runs

variable {rules : CapacityRules} {g : Guard} {e : Event} {events : List Event}

theorem demands_cons (s : Surface) :
    demands rules (e :: events) s = e.demand rules s ++ demands rules events s :=
  List.flatMap_cons

section Refusals
variable {w : Write}

/-- A call that has changed the promises of the guard only. -/
def OnlyPromises {α : Type} (g : Guard) (x : Changed α) : Prop := ∃ p, x.2 = g.withPromises p

theorem OnlyPromises.andThen {α β : Type} {x : Changed α} {f : α → Guard → Changed β}
    (hx : OnlyPromises g x) (hf : ∀ a p, x = (.ok a, g.withPromises p) →
      (∃ e, (f a (g.withPromises p)).1 = .error e) → OnlyPromises g (f a (g.withPromises p)))
    (herror : ∃ e, (x.andThen f).1 = .error e) : OnlyPromises g (x.andThen f) := by
  obtain ⟨p, hp⟩ := hx
  rcases x with ⟨result, k⟩
  cases result with
  | error message => exact ⟨p, hp⟩
  | ok a =>
    obtain rfl : k = g.withPromises p := hp
    exact hf a p rfl herror

theorem onlyPromises_self {α : Type} (x : Except String α) : OnlyPromises g (x, g) :=
  ⟨g.promises, rfl⟩

theorem spend_onlyPromises : OnlyPromises g (g.spend w) := by
  have hbound (size : Nat) (bounds : List Nat) (error : String) (set : List Nat → Promises) :
      OnlyPromises g (g.spendBound size bounds error set) := by
    unfold spendBound
    split
    · split
      · exact onlyPromises_self _
      · next rest _ => exact ⟨set rest, rfl⟩
    · exact onlyPromises_self _
  unfold spend
  dsimp only
  split
  · exact onlyPromises_self _
  split
  · unfold spendComment
    split
    · exact onlyPromises_self _
    · split
      · exact onlyPromises_self _
      · exact ⟨_, rfl⟩
  · exact hbound _ _ _ _
  · exact hbound _ _ _ _
  · exact hbound _ _ _ _
  · exact hbound _ _ _ _
  · exact onlyPromises_self _

theorem grow_onlyPromises : OnlyPromises g (g.grow w) := by
  unfold grow
  split
  · split
    · exact onlyPromises_self _
    · exact ⟨_, rfl⟩
  · exact onlyPromises_self _

theorem candidate_onlyPromises : OnlyPromises g (g.candidate w) := by
  unfold candidate
  dsimp only
  split
  · split
    · exact onlyPromises_self _
    · exact ⟨_, rfl⟩
  · exact onlyPromises_self _

/-- A refused write has changed the promises at most. -/
theorem charge_refused (herror : ∃ message, (g.charge rules w).1 = .error message) :
    OnlyPromises g (g.charge rules w) := by
  unfold charge at herror ⊢
  refine (onlyPromises_self _).andThen (fun _ p hx herror => ?_) herror
  obtain rfl : g.promises = p := congrArg (fun x => x.2.promises) hx
  refine (onlyPromises_self _).andThen (fun _ p hx herror => ?_) herror
  obtain rfl : g.promises = p := congrArg (fun x => x.2.promises) hx
  refine spend_onlyPromises.andThen (fun _ spent _ herror => ?_) herror
  refine OnlyPromises.andThen (g := g) ?_ (fun _ grown _ herror => ?_) herror
  · obtain ⟨p, hp⟩ := grow_onlyPromises (g := g.withPromises spent) (w := w)
    exact ⟨p, hp⟩
  refine OnlyPromises.andThen (g := g) ?_ (fun stats charged _ herror => ?_) herror
  · obtain ⟨p, hp⟩ := candidate_onlyPromises (g := g.withPromises grown) (w := w)
    exact ⟨p, hp⟩
  unfold reserveWrite at herror ⊢
  split
  · exact ⟨_, rfl⟩
  · next hrequire =>
    rw [hrequire] at herror
    obtain ⟨_, herror⟩ := herror
    cases herror

/-- A refused request leaves the guard as it was, but for the create it would have answered. -/
theorem refused_unchanged {method path : String} {body : Json} {message : String}
    (h : (g.beforeRequest rules method path body).1 = .error message) :
    (g.beforeRequest rules method path body).2 = { g with pendingCreate := none } := by
  unfold beforeRequest at h ⊢
  dsimp only at h ⊢
  split at h
  · cases h
  · next w _ =>
    split at h
    · next message' changed hcharge =>
      obtain ⟨p, hp⟩ := charge_refused (g := { g with pendingCreate := none })
        (w := w) ⟨message', by rw [hcharge]⟩
      rw [hcharge] at hp
      exact congrArg (fun k => Guard.withPromises k g.promises) hp
    · cases h

end Refusals

section Responses

/-- What changes neither promises nor statistics nor what must be read keeps every bound. -/
theorem shrinks_of_same {g' : Guard} (hsame : SameGuard g g')
    (hpromises : g'.promises = g.promises) (hstats : g'.stats = g.stats) :
    Shrinks g g.stats g' g'.stats := by
  have hupper (s : Surface) : g'.upper g'.stats s = g.upper g.stats s := by
    unfold Guard.upper
    rw [hpromises, hstats, hsame.reserve, hsame.closure]
  refine ⟨hsame, fun s => ?_, ?_, ?_⟩
  · rw [hupper]
    exact .refl _
  · rw [hupper]
    unfold checkReader
    rw [hpromises, hstats, hsame.outside, hsame.closure]
    exact .refl _
  · rw [hpromises, hstats]

theorem refinedPlan_room {plan refined : CommentAllocationPlan} {id bound : Nat}
    (h : refinedPlan plan id bound = some refined) :
    refined.known.length + refined.unknown.length =
      plan.known.length + 1 + plan.unknown.length := by
  unfold refinedPlan at h
  split at h
  · obtain rfl := Option.some.inj h
    simp only [List.length_append, List.length_singleton]
  · cases h

/-- A response binds a comment to its bytes, and leaves every promise and every count. -/
structure Answered (g g' : Guard) : Prop where
  same : SameGuard g g'
  promises : g'.promises = g.promises
  stats : g'.stats = g.stats

theorem bindImmutable_answered (id : Nat) (submitted : Json) :
    Answered g (g.bindImmutable id submitted).2 := by
  have hself : Answered g g := ⟨.refl g, rfl, rfl⟩
  unfold bindImmutable
  split
  · next plan calls text hplan hcalls htext =>
    split
    · exact hself
    · split
      · exact hself
      · next refined hrefined =>
        dsimp only
        split
        · refine ⟨⟨rfl, rfl, rfl, rfl, rfl, rfl, rfl, ?_, fun old hold new hnew => ?_⟩, rfl, rfl⟩
          · rw [hplan]
            rfl
          · rw [hplan] at hold
            obtain rfl := Option.some.inj hold
            obtain rfl : refined = new := Option.some.inj hnew
            have hroom := refinedPlan_room hrefined
            omega
        · exact hself
  · exact hself

theorem afterResponse_answered (method : String) (created : Option Created) :
    Answered g (g.afterResponse method created).2 := by
  have hbound (k : Guard) (hk : Answered g k) (id : Nat) (submitted : Json) :
      Answered g (k.bindImmutable id submitted).2 := by
    have hstep := bindImmutable_answered (g := k) id submitted
    exact ⟨hk.same.trans hstep.same, hstep.promises.trans hk.promises,
      hstep.stats.trans hk.stats⟩
  have hself : Answered g g := ⟨.refl g, rfl, rfl⟩
  unfold afterResponse
  split
  · split
    · dsimp only
      have hobject (objects : Dict (Surface × Nat) Nat) :
          Answered g { g with pendingCreate := none, objects } :=
        ⟨⟨rfl, rfl, rfl, rfl, rfl, rfl, rfl, rfl, (SameGuard.refl g).room⟩, rfl, rfl⟩
      split
      · exact hbound _ (hobject _) _ _
      · exact hobject _
    · exact hself
  · exact hself

end Responses

section Steps

theorem beforeRequest_idle {method path : String} {body : Json}
    (h : write? rules method path body = none) :
    g.beforeRequest rules method path body = (.ok (), { g with pendingCreate := none }) := by
  unfold beforeRequest
  rw [h]

theorem beforeRequest_served {method path : String} {body : Json} {w : Write} {g' : Guard}
    (h : write? rules method path body = some w)
    (hcharge : charge rules { g with pendingCreate := none } w = (.ok (), g')) :
    g.beforeRequest rules method path body = (.ok (), g') := by
  unfold beforeRequest
  simp only [h]
  rw [hcharge]

/-- A covered event is served, keeps what was certified, and leaves the rest covered. -/
theorem covers_step (h : Covers rules g (e :: events)) :
    (e.write? rules ≠ none → (e.apply rules g).1 = .ok ()) ∧
      Kept rules g (e.apply rules g).2 e ∧ Covers rules (e.apply rules g).2 events := by
  have hadmissible := h.admissible.2
  have hgrowth : e.growth rules g + updateGrowth rules (e.apply rules g).2 events ≤
    g.promises.issueUpdateBytes := h.growth
  -- nothing is spent by an event that writes nothing
  have hidle (hnone : e.write? rules = none) (k : Guard) (hk : (e.apply rules g).2 = k)
      (hanswered : Answered g k) :
      Kept rules g (e.apply rules g).2 e ∧ Covers rules (e.apply rules g).2 events := by
    have hdemand (s : Surface) : e.demand rules s = [] := by
      unfold Event.demand
      rw [hnone]
      rfl
    obtain ⟨cs, hcs⟩ := h.required
    obtain ⟨cs', hcs', hle⟩ := require_mono
      (shrinks_of_same hanswered.same hanswered.promises hanswered.stats) h.cursor hcs
    rw [hk] at hgrowth hadmissible ⊢
    refine ⟨⟨⟨cs, cs', hcs, hcs', hle⟩, fun s _ => ?_⟩, hanswered.same.cursor.trans h.cursor, ?_,
      ⟨cs', hcs'⟩, fun s hs => ?_, ?_, hadmissible⟩
    · rw [hdemand, hanswered.promises]
      rfl
    · rw [hanswered.promises]
      exact h.coherent
    · have hcovered := h.dominates s hs
      rw [demands_cons, hdemand, List.nil_append] at hcovered
      rw [hanswered.promises]
      exact hcovered
    · rw [hanswered.promises]
      omega
  cases e with
  | response method created =>
    exact ⟨fun hbad => absurd rfl hbad, hidle rfl _ rfl (afterResponse_answered method created)⟩
  | request method path body =>
    let fresh : Guard := { g with pendingCreate := none }
    cases hwrite : Guard.write? rules method path body with
    | none =>
      have hrun : (Event.apply rules g (.request method path body)).2 = fresh :=
        congrArg Prod.snd (beforeRequest_idle hwrite)
      refine ⟨fun hbad => absurd hwrite hbad, hidle hwrite fresh hrun ⟨?_, rfl, rfl⟩⟩
      exact ⟨rfl, rfl, rfl, rfl, rfl, rfl, rfl, rfl, (SameGuard.refl g).room⟩
    | some w =>
      have hevent : Event.write? rules (.request method path body) = some w := hwrite
      have hdemand (s : Surface) : Event.demand rules s (.request method path body) =
          w.demand s := by
        unfold Event.demand
        rw [hevent]
        rfl
      have hown : Event.growth rules g (.request method path body) =
          if updatesComment w then g.growth w else 0 := by
        unfold Event.growth
        rw [hevent]
        rfl
      have hmay : Admissible rules g w := h.admissible.1 w hwrite
      have hmay' : Admissible rules fresh w :=
        ⟨hmay.kind, hmay.envelope, hmay.retained, hmay.closure⟩
      have hcover (s : Surface) (hs : s ≠ .threads) : Dominates (fresh.promises.pending s)
          (w.demand s ++ demands rules events s) := by
        rw [← hdemand, ← demands_cons]
        exact h.dominates s hs
      have hserved : ∃ g', fresh.charge rules w = (.ok (), g') ∧
          Served fresh w (demands rules events) g' := by
        rcases hmay.kind with hnew | hupdate
        · exact charge_create h.cursor h.coherent h.required hmay' hnew hcover
        · refine charge_update h.cursor h.coherent h.required hmay' hupdate ?_ hcover
          rw [hown, if_pos hupdate] at hgrowth
          exact (Nat.le_add_right _ _).trans hgrowth
      obtain ⟨g', hcharge, hserved⟩ := hserved
      have hrun : Event.apply rules g (.request method path body) = (.ok (), g') :=
        beforeRequest_served hwrite hcharge
      rw [hrun] at hgrowth hadmissible ⊢
      obtain ⟨cs, hcs⟩ := h.required
      obtain ⟨cs', hcs', hle⟩ := require_mono hserved.shrinks h.cursor hcs
      refine ⟨fun _ => rfl, ⟨⟨cs, cs', hcs, hcs', hle⟩, fun s hs => ?_⟩,
        hserved.shrinks.same.cursor.trans h.cursor, hserved.coherent, ⟨cs', hcs'⟩,
        hserved.dominates, ?_, hadmissible⟩
      · rw [hdemand]
        exact hserved.taken s hs
      · have hreserve : g'.promises.issueUpdateBytes +
            (if updatesComment w then g.growth w else 0) = g.promises.issueUpdateBytes :=
          hserved.updates
        rw [hown] at hgrowth
        dsimp only at hgrowth ⊢
        omega

theorem covers_run (before after : List Event) (h : Covers rules g (before ++ after)) :
    Covers rules (run rules g before) after := by
  induction before generalizing g with
  | nil => exact h
  | cons e before ih => exact ih (covers_step h).2.2

theorem covers_of_matched (hcursor : g.cursor = true) (hcoherent : g.promises.Coherent)
    (hrequired : ∃ cs, require rules g g.stats = .ok cs)
    (hmatched : ∀ s, s ≠ .threads → Matched (g.promises.pending s) (demands rules events s))
    (hgrowth : updateGrowth rules g events ≤ g.promises.issueUpdateBytes)
    (hadmissible : AllAdmissible rules g events) : Covers rules g events where
  cursor := hcursor
  coherent := hcoherent
  required := hrequired
  dominates s hs := by
    obtain ⟨chosen, hchosen, hfits⟩ := hmatched s hs
    exact dominates_of_matched hchosen hfits
  growth := hgrowth
  admissible := hadmissible

/-- What an admitted guard has promised it serves: in every run of creates that find promises of
their own and of updates within their reserve, whatever the responses, no request is refused, no
certified bound grows, and every create takes one promise. A refused request changes nothing. -/
theorem promised_served (rules : CapacityRules) :
    (∀ (g : Guard) (method path : String) (body : Json) (message : String),
      (g.beforeRequest rules method path body).1 = .error message →
        (g.beforeRequest rules method path body).2 = { g with pendingCreate := none }) ∧
    ∀ (g : Guard) (events : List Event), g.cursor = true → g.promises.Coherent →
      (∃ cs, require rules g g.stats = .ok cs) →
      (∀ s, s ≠ .threads → Matched (g.promises.pending s) (demands rules events s)) →
      updateGrowth rules g events ≤ g.promises.issueUpdateBytes →
      AllAdmissible rules g events →
      ∀ before e after, events = before ++ e :: after →
        let reached := run rules g before
        (∀ method path body, e = .request method path body →
          (reached.beforeRequest rules method path body).1 = .ok ()) ∧
        Kept rules reached (e.apply rules reached).2 e := by
  refine ⟨fun g method path body message h => refused_unchanged h, ?_⟩
  intro g events hcursor hcoherent hrequired hmatched hgrowth hadmissible before e after hevents
  have hcovers := covers_of_matched hcursor hcoherent hrequired hmatched hgrowth hadmissible
  rw [hevents] at hcovers
  have hreached := covers_run before (e :: after) hcovers
  obtain ⟨hserved, hkept, _⟩ := covers_step hreached
  refine ⟨fun method path body he => ?_, hkept⟩
  subst he
  by_cases hwrite : Guard.write? rules method path body = none
  · exact congrArg Prod.fst (beforeRequest_idle hwrite)
  · exact hserved hwrite

/-- A guard as admission leaves it: its parts are the bounds it lists, and everything promised has
been accepted. -/
structure Accepted (rules : CapacityRules) (g : Guard) : Prop where
  cursor : g.cursor = true
  coherent : g.promises.Coherent
  required : ∃ cs, require rules g g.stats = .ok cs

section Admission

theorem required_accepted {k : Guard} (h : k.required rules = .ok g) (hcursor : k.cursor = true)
    (hcoherent : k.promises.Coherent) : Accepted rules g := by
  unfold required at h
  cases hrun : require rules k k.stats with
  | error message =>
    rw [hrun] at h
    cases h
  | ok cs =>
    rw [hrun] at h
    obtain rfl := Except.ok.inj h
    exact ⟨hcursor, hcoherent, cs, hrun⟩

theorem install_accepted {a : Admission} {bounds : List Nat}
    (h : install rules a bounds = .ok g) : Accepted rules g :=
  required_accepted h rfl ⟨bounds, rfl, rfl, rfl⟩

theorem seed_accepted {s : Surface} {rows : List (Nat × Json)} {g' : Guard}
    (h : Accepted rules g) (hseed : seed rules g s rows = .ok g') : Accepted rules g' := by
  have hrows : (rows.foldl (seedRow s) g).cursor = g.cursor ∧
      (rows.foldl (seedRow s) g).promises = g.promises := by
    clear hseed h
    induction rows generalizing g with
    | nil => exact ⟨rfl, rfl⟩
    | cons row rows ih => exact ih
  unfold seed at hseed
  split at hseed
  · exact required_accepted hseed (hrows.1.trans h.cursor) (by rw [hrows.2]; exact h.coherent)
  · cases hseed

theorem seedProjectedRoots_accepted {g' : Guard} (h : Accepted rules g)
    (hseed : seedProjectedRoots rules g = .ok g') : Accepted rules g' := by
  have hroots (profile : NativeProfile) (ids : List Nat) (k : Guard) :
      (ids.foldl (seedRoot rules profile) k).cursor = k.cursor ∧
        (ids.foldl (seedRoot rules profile) k).promises = k.promises := by
    induction ids generalizing k with
    | nil => exact ⟨rfl, rfl⟩
    | cons id ids ih => exact ih _
  unfold seedProjectedRoots at hseed
  split at hseed
  · cases hseed
  · next profile _ =>
    obtain ⟨hcursor, hpromises⟩ := hroots profile profile.rootMetadata g
    exact required_accepted hseed (hcursor.trans h.cursor) (by rw [hpromises]; exact h.coherent)

theorem promise_accepted {p : Promises} (h : Accepted rules g) (hp : p.Coherent) :
    Accepted rules (g.promise rules p).2 := by
  unfold promise
  split
  · next hrun => exact required_accepted hrun h.cursor hp
  · exact h

/-- A prepared batch is promised as a whole or not at all. -/
theorem admitCommentBatch_accepted (bodies : List Json) (h : Accepted rules g) :
    Accepted rules (g.admitCommentBatch rules bodies).2 := by
  unfold admitCommentBatch
  split
  · exact h
  · dsimp only
    split
    · exact h
    · split
      · exact h
      · exact promise_accepted h ⟨_, rfl, rfl, rfl⟩

theorem admitPublication_accepted (reviewWire : Nat) (inlineWires : List Nat)
    (h : Accepted rules g) : Accepted rules (g.admitPublication rules reviewWire inlineWires).2 := by
  have hprepared (x : Changed Unit) (hx : Accepted rules x.2) :
      Accepted rules (x.andThen (fun _ g => ((.ok () : Except String Unit), { g with
        publicationPrepared := some (reviewWire, inlineWires) }))).2 := by
    rcases x with ⟨result, k⟩
    cases result with
    | error message => exact hx
    | ok _ => exact ⟨hx.cursor, hx.coherent, hx.required⟩
  unfold admitPublication
  split
  · exact h
  split
  · exact h
  split
  · split
    · exact h
    · exact h
  · split
    · exact h
    · exact hprepared _ (promise_accepted h h.coherent)

/-- The guards that an admission passes through, whatever is seeded and prepared, in any order. -/
inductive Admitted (rules : CapacityRules) : Guard → Prop
  | install {a : Admission} {bounds : List Nat} {g : Guard} (h : install rules a bounds = .ok g) :
      Admitted rules g
  | seed {s : Surface} {rows : List (Nat × Json)} {g g' : Guard} (hg : Admitted rules g)
      (h : seed rules g s rows = .ok g') : Admitted rules g'
  | roots {g g' : Guard} (hg : Admitted rules g) (h : seedProjectedRoots rules g = .ok g') :
      Admitted rules g'
  | batch (bodies : List Json) {g : Guard} (hg : Admitted rules g) :
      Admitted rules (g.admitCommentBatch rules bodies).2
  | publication (reviewWire : Nat) (inlineWires : List Nat) {g : Guard} (hg : Admitted rules g) :
      Admitted rules (g.admitPublication rules reviewWire inlineWires).2

theorem admitted_accepted (h : Admitted rules g) : Accepted rules g := by
  induction h with
  | install h => exact install_accepted h
  | seed _ h ih => exact seed_accepted ih h
  | roots _ h ih => exact seedProjectedRoots_accepted ih h
  | batch bodies _ ih => exact admitCommentBatch_accepted bodies ih
  | publication reviewWire inlineWires _ ih =>
    exact admitPublication_accepted reviewWire inlineWires ih

end Admission

section Sample

/-- The paths of one pull request, and an operation text that is never well formed. -/
def sampleRules : CapacityRules where
  route _ path :=
    if path = "/repos/o/r/issues/1/comments" then some ⟨.issueComments, none, false, by decide⟩
    else if path = "/repos/o/r/issues/comments/5" then
      some ⟨.issueComments, some 5, false, by decide⟩
    else if path = "/repos/o/r/pulls/1/reviews" then some ⟨.reviews, none, false, by decide⟩
    else if path = "/repos/o/r/pulls/comments/7" then some ⟨.inlineReplies, some 7, false, by decide⟩
    else none
  operationEnvelope _ := .error "native operation comment exceeds its prepared envelope"
  largestSelectedItem := 1024
  findings := 1
  selectedTotal := 1024
  largestPacket := 4096

def sampleText (text : String) : Json := .obj [("body", .str text)]

def sampleAdmission : Admission where
  reserve _ := ⟨0, 0, 0, 0⟩
  oldChecksOutsideCurrentHead := false
  nativeProfile := none
  cursor := true
  closureWire := 40
  reply := true
  completeTail := true
  commentPlan := none
  commentBounds := some [60]
  futureParts := 1
  futureBytes := 60
  receiptUpdateBytes := 0

/-- A guard that knows one comment. -/
def sampleGuard (a : Admission) (text : String) : Guard :=
  seedRow .issueComments (a.guard sampleRules) (5, sampleText text)

def sampleRun : List Event :=
  [.request "POST" "/repos/o/r/issues/1/comments" (sampleText "a new comment"),
    .response "POST" (some ⟨6, some (.str "a new comment")⟩),
    .request "PATCH" "/repos/o/r/issues/comments/5" (sampleText "an edited comment")]

def sampleReview : Event := .request "POST" "/repos/o/r/pulls/1/reviews"
  (.obj [("body", .str "a review"), ("comments", .arr [sampleText "an inline comment"])])

theorem admitted_accepted_sample : ∃ g, install sampleRules sampleAdmission [60] = .ok g ∧
    Accepted sampleRules (g.admitCommentBatch sampleRules [sampleText "a new comment"]).2 := by
  have hok : (install sampleRules sampleAdmission [60]).toOption.isSome = true := by decide
  cases h : install sampleRules sampleAdmission [60] with
  | ok g => exact ⟨g, rfl, admitted_accepted (.batch _ (.install h))⟩
  | error message => simp [h, Except.toOption] at hok

theorem required_of {rules : CapacityRules} {g : Guard}
    (h : (require rules g g.stats).toOption.isSome = true) :
    ∃ cs, require rules g g.stats = .ok cs := by
  cases hrun : require rules g g.stats with
  | ok cs => exact ⟨cs, rfl⟩
  | error message =>
    rw [hrun] at h
    cases h

theorem matched_nil (promised : List Nat) : Matched promised [] :=
  ⟨[], List.nil_subperm, .nil⟩

/-- A review with an inline comment, after a new comment, its response and an update. -/
theorem promised_served_sample :
    let reached := run sampleRules (sampleGuard sampleAdmission "a comment") sampleRun
    (∀ method path body, sampleReview = .request method path body →
      (reached.beforeRequest sampleRules method path body).1 = .ok ()) ∧
    Kept sampleRules reached (sampleReview.apply sampleRules reached).2 sampleReview := by
  have hmatched (s : Surface) (hs : s ≠ .threads) :
      Matched ((sampleGuard sampleAdmission "a comment").promises.pending s)
        (demands sampleRules (sampleRun ++ [sampleReview]) s) := by
    cases s with
    | issueComments => exact ⟨[60], .refl _, .cons (by decide) .nil⟩
    | inlineReplies => exact ⟨[6 * 16384 + 1024], .refl _, .cons (by decide) .nil⟩
    | reviews =>
      exact ⟨[40], (List.sublist_cons_self 40 [40]).subperm, .cons (by decide) .nil⟩
    | checks => exact matched_nil _
    | threads => exact absurd rfl hs
    | reactions => exact matched_nil _
  exact (promised_served sampleRules).2 (sampleGuard sampleAdmission "a comment")
    (sampleRun ++ [sampleReview]) rfl ⟨[60], rfl, rfl, rfl⟩
    (required_of (by decide)) hmatched (by decide) (by decide)
    sampleRun sampleReview [] rfl

/-- The promises of an accepted guard cover one request by size and by growth alone. -/
structure Promised (g : Guard) (method path : String) (body : Json) : Prop where
  required : ∃ cs, require sampleRules g g.stats = .ok cs
  matched : ∀ s, s ≠ .threads →
    Matched (g.promises.pending s) (demands sampleRules [.request method path body] s)
  growth : updateGrowth sampleRules g [.request method path body] ≤ g.promises.issueUpdateBytes

def Refused (g : Guard) (method path : String) (body : Json) (message : String) : Prop :=
  (g.beforeRequest sampleRules method path body).1 = .error message

/-- The request is accepted, and a certified count or sum of bytes grows. -/
def Grows (g : Guard) (s : Surface) (method path : String) (body : Json) : Prop :=
  let after := g.beforeRequest sampleRules method path body
  after.1 = .ok () ∧ ((g.upper g.stats s).count < (after.2.upper after.2.stats s).count ∨
    (g.upper g.stats s).bytes < (after.2.upper after.2.stats s).bytes)

def commentPath : String := "/repos/o/r/issues/comments/5"

def commentsPath : String := "/repos/o/r/issues/1/comments"

def longText : String := "a comment longer than the closure bound"

def samplePlan : CommentAllocationPlan where
  known := [(5, 22)]
  unknown := [60]
  known_nodup := by decide
  metadata_known := by decide
  metadata_bound := plain_metadata
  size := by decide
  ids := by decide
  bound := by decide

/-- An old run may have filled the comments but for what this one has promised. -/
def fullReserve : Surface → SurfaceReserve := fun s =>
  if s = .issueComments then
    ⟨0, maxPaginationPages * pageBytes - (wire (sampleText "a comment") + 4096 + 80), 0, 0⟩
  else ⟨0, 0, 0, 0⟩

theorem promised_update {g : Guard} {path : String} {body : Json}
    (hrequired : (require sampleRules g g.stats).toOption.isSome = true)
    (hdemand : ∀ s, demands sampleRules [.request "PATCH" path body] s = [])
    (hgrowth : updateGrowth sampleRules g [.request "PATCH" path body] ≤
      g.promises.issueUpdateBytes) : Promised g "PATCH" path body := by
  refine ⟨required_of hrequired, fun s _ => ?_, hgrowth⟩
  rw [hdemand]
  exact matched_nil _

/-- Size and growth alone are not enough: an update is also held to the closure bound and to the
size its comment was admitted with, and an operation text to its envelope; without a cursor
nothing takes the reserve of the updates, an inline comment has no such reserve, and comments
that are not listed, or listed and not counted, are not taken off the bounds. -/
theorem promised_refused :
    (Promised (sampleGuard sampleAdmission longText) "PATCH" commentPath (sampleText longText) ∧
      Refused (sampleGuard sampleAdmission longText) "PATCH" commentPath (sampleText longText)
        "quarantine root update exceeds the admitted positive growth") ∧
    (Promised (sampleGuard { sampleAdmission with commentPlan := some samplePlan } "a comment")
        "PATCH" commentPath (sampleText "a comment more") ∧
      Refused (sampleGuard { sampleAdmission with commentPlan := some samplePlan } "a comment")
        "PATCH" commentPath (sampleText "a comment more")
        "quarantine retained comment exceeds its admitted final size") ∧
    (Promised (sampleGuard sampleAdmission "a comment") "POST" commentsPath
        (sampleText (operationMarker ++ "\nx")) ∧
      Refused (sampleGuard sampleAdmission "a comment") "POST" commentsPath
        (sampleText (operationMarker ++ "\nx"))
        "native operation comment exceeds its prepared envelope") ∧
    (Promised (sampleGuard { sampleAdmission with
          reserve := fullReserve, cursor := false, commentBounds := none, futureParts := 0
          futureBytes := 0 } "a comment") "PATCH" commentPath (sampleText "a comment more") ∧
      Refused (sampleGuard { sampleAdmission with
          reserve := fullReserve, cursor := false, commentBounds := none, futureParts := 0
          futureBytes := 0 } "a comment") "PATCH" commentPath (sampleText "a comment more")
        "quarantine issue_comments encoded-byte capacity exceeded") ∧
    (Promised (sampleGuard sampleAdmission "a comment") "PATCH" "/repos/o/r/pulls/comments/7"
        (sampleText "a reply") ∧
      Grows (sampleGuard sampleAdmission "a comment") .inlineReplies "PATCH"
        "/repos/o/r/pulls/comments/7" (sampleText "a reply")) ∧
    ((require sampleRules (sampleGuard { sampleAdmission with commentBounds := none } "a comment")
        (sampleGuard { sampleAdmission with commentBounds := none } "a comment").stats
          ).toOption.isSome = true ∧
      Grows (sampleGuard { sampleAdmission with commentBounds := none } "a comment")
        .issueComments "POST" commentsPath (sampleText "a new comment")) ∧
    (Promised (sampleGuard { sampleAdmission with
          commentBounds := some [60, 60], futureParts := 0, futureBytes := 0 } "a comment")
        "POST" commentsPath (sampleText "a new comment") ∧
      Grows (sampleGuard { sampleAdmission with
          commentBounds := some [60, 60], futureParts := 0, futureBytes := 0 } "a comment")
        .issueComments "POST" commentsPath (sampleText "a new comment")) := by
  have hempty (path text : String)
      (h : ∀ s ∈ surfaces, demands sampleRules [.request "PATCH" path (sampleText text)] s = []) :
      ∀ s, demands sampleRules [.request "PATCH" path (sampleText text)] s = [] := by
    intro s
    exact h s (by cases s <;> decide)
  have hcreate (bounds : List Nat) (text : String) (promises : Promises)
      (hbounds : promises.pending .issueComments = 60 :: bounds)
      (h : Event.demand sampleRules .issueComments
        (.request "POST" commentsPath (sampleText text)) = [bodyWire (.str text)])
      (hother : ∀ s ∈ surfaces, s ≠ .issueComments →
        demands sampleRules [.request "POST" commentsPath (sampleText text)] s = [])
      (hsize : bodyWire (.str text) ≤ 60) (s : Surface) :
      Matched (promises.pending s)
        (demands sampleRules [.request "POST" commentsPath (sampleText text)] s) := by
    by_cases hs : s = .issueComments
    · subst hs
      rw [demands_cons, h, hbounds]
      exact ⟨[60], (List.cons_sublist_cons.mpr (List.nil_sublist _)).subperm, .cons hsize .nil⟩
    · rw [hother s (by cases s <;> decide) hs]
      exact matched_nil _
  refine ⟨⟨promised_update (by decide) (hempty _ _ (by decide))
    (by decide +kernel), by unfold Refused; decide +kernel⟩, ⟨promised_update (by decide +kernel)
    (hempty _ _ (by decide)) (by decide), by unfold Refused; decide⟩,
    ⟨⟨required_of (by decide), fun s _ => hcreate [] _ _ rfl (by decide)
      (by decide) (by decide) s, by decide⟩,
      by unfold Refused; decide +kernel⟩, ⟨promised_update (by decide +kernel)
    (hempty _ _ (by decide)) (by decide), by unfold Refused; decide⟩,
    ⟨promised_update (by decide) (hempty _ _ (by decide)) (by decide),
      by unfold Grows; decide⟩, ⟨by decide, by unfold Grows; decide⟩,
    ⟨⟨required_of (by decide), fun s _ => hcreate [60] _ _ rfl (by decide)
      (by decide) (by decide) s, by decide⟩,
      by unfold Grows; decide⟩⟩

end Sample

end Steps

end ReviewSensei.NativeCapacity.Guard
