import ReviewSensei.CommentFreshness

/-! Runs of one ledger while others write: as long as every completed listing has lost no edit,
each read that asks the host is fresh. -/
namespace ReviewSensei.CommentList

/-- A listing left by another reader. -/
structure Primed (items : List Comment) (h : Host) : Prop where
  nodup : (items.map Comment.id).Nodup
  past : ∀ item ∈ items, Past item h
  covers : ∀ c ∈ h.comments, c ∈ items ∨ ∀ item ∈ items, item.updatedAt ≤ c.updatedAt + sinceMargin

/-- What holds of a ledger and its host between the calls. -/
structure Inv (s : State) : Prop where
  nodup : (s.ledger.cache.map Comment.id).Nodup
  past : ∀ item ∈ s.ledger.cache, Past item s.host
  anchor : ∀ a ∈ s.ledger.anchor, Covers s.ledger.cache s.host a
  fence : ∀ a ∈ s.ledger.fenceAnchor, Covers s.ledger.cache s.host a
  fenced : s.ledger.anchor = none → s.ledger.fenceAnchor = none
  incomplete : s.ledger.complete = false → s.ledger.anchor = none ∧ s.ledger.tail = none
  named : s.ledger.complete = true → s.ledger.cache ≠ [] → s.ledger.anchor.isSome = true
  primed : ∀ items ∈ s.ledger.primed, Primed items s.host

theorem inv_initial (h : Host) : Inv ⟨.initial, h⟩ where
  nodup := .nil
  past _ hitem := absurd hitem (by simp [Ledger.initial])
  anchor _ ha := absurd ha (by simp [Ledger.initial])
  fence _ ha := absurd ha (by simp [Ledger.initial])
  fenced _ := rfl
  incomplete _ := ⟨rfl, rfl⟩
  named hbad := absurd hbad (by simp [Ledger.initial])
  primed _ hitems := absurd hitems (by simp [Ledger.initial])

section Steps
variable {l : Ledger} {h h' : Host}

theorem Primed.later {items : List Comment} (hp : Primed items h) (hl : Later h h') :
    Primed items h' where
  nodup := hp.nodup
  past item hitem := (hp.past item hitem).later hl
  covers c hc := by
    rcases hl.stamped c hc with hold | hnew
    · exact hp.covers c hold
    · refine .inr fun item hitem => ?_
      have hstamp := (hp.past item hitem).stamp
      omega

theorem Inv.later (hi : Inv ⟨l, h⟩) (hl : Later h h') : Inv ⟨l, h'⟩ where
  nodup := hi.nodup
  past item hitem := (hi.past item hitem).later hl
  anchor a ha := (hi.anchor a ha).later hl
  fence a ha := (hi.fence a ha).later hl
  fenced := hi.fenced
  incomplete := hi.incomplete
  named := hi.named
  primed items hitems := (hi.primed items hitems).later hl

/-- What a read leaves: the invariant, when the listing it used is settled, and a fresh answer. -/
structure Reads (h : Host) (r : Read) : Prop where
  inv : (∀ listed ∈ r.listed, Settled listed) → Inv ⟨r.ledger, r.host⟩
  fresh : ∀ inventory, r.queried = true → r.result = .ok inventory → Fresh h r.host inventory

theorem noteAnchor_some {anchor : Option Nat} {items : List Comment}
    (h : items ≠ [] ∨ anchor.isSome = true) : (noteAnchor anchor items).isSome = true := by
  unfold noteAnchor
  split
  · next hnone =>
    rcases h with hne | hsome
    · unfold newest at hnone
      rw [List.max?_eq_none_iff, List.map_eq_nil_iff] at hnone
      exact absurd hnone hne
    · exact hsome
  · rfl

theorem noteAnchor_none {anchor : Option Nat} {items : List Comment}
    (h : noteAnchor anchor items = none) : anchor = none := by
  unfold noteAnchor at h
  split at h
  · exact h
  · cases h

/-- A listing from an anchor on is merged into the inventory it completes. -/
theorem finish_absorb {since : Option Nat} {f : Fetched} (hi : Inv ⟨l, h⟩)
    (hf : Enumerated since h f) (hcomplete : l.complete = true)
    (hcover : ∀ a ∈ since, Covers l.cache h a) (hsome : since.isSome = true → l.anchor.isSome = true) :
    Reads h (l.finish f Ledger.absorb) := by
  unfold Ledger.finish
  dsimp only
  cases hresult : f.result with
  | error e =>
    refine ⟨fun _ => ?_, fun _ _ hbad => absurd hbad (by simp)⟩
    exact ⟨hi.nodup, (hi.later hf.later).past, (hi.later hf.later).anchor,
      (hi.later hf.later).fence, hi.fenced, hi.incomplete, hi.named, (hi.later hf.later).primed⟩
  | ok listed =>
    obtain ⟨hs, hlast⟩ := hf.listed listed hresult
    have hlater := hi.later hf.later
    unfold Ledger.absorb
    dsimp only
    cases hmerge : merge l.verified listed.items l.cache with
    | mk result cache =>
    have hmerged := merge_merged hi.nodup hmerge
    have hpast := merge_past hs hi.nodup hi.past hmerge
    rw [hlast] at hpast
    cases result with
    | error e =>
      refine ⟨fun _ => ?_, fun _ _ hbad => absurd hbad (by simp)⟩
      have hstopped (a : Nat) (hc : Covers l.cache h a) : Covers cache f.host a := by
        rw [← hlast]
        exact merge_stopped hs hi.nodup hi.past hmerge hc
      refine ⟨hmerged.nodup, hpast, fun a ha => hstopped a (hi.anchor a ha),
        fun a ha => hstopped a (hi.fence a ha), hi.fenced, hi.incomplete, fun hc _ => ?_,
        hlater.primed⟩
      -- new ids in an empty inventory stop no merge
      by_cases hempty : l.cache = []
      · cases since with
        | some a => exact hsome rfl
        | none =>
          have hnew : merge l.verified _ [] = _ :=
            merge_new (hs.exact rfl) (fun _ _ c hc => absurd hc List.not_mem_nil)
          rw [hempty, hnew] at hmerge
          cases (Prod.mk.inj hmerge).1
      · exact hi.named hc hempty
    | ok _ =>
      refine ⟨fun hsettled => ?_, fun inventory _ hok => ?_⟩
      · have hanchor := merge_anchor hs (hsettled listed rfl) hi.nodup hi.past hcover hmerge
          (fun a ha => (hi.anchor a ha).1)
        rw [hlast] at hanchor
        refine ⟨hmerged.nodup, hpast, hanchor, fun a ha => ?_,
          fun hnone => hi.fenced (noteAnchor_none hnone), fun hbad => ?_, fun hc hne => ?_,
          hlater.primed⟩
        · rw [← hlast]
          exact merge_covers hs hi.nodup hi.past hcover hmerge (hi.fence a ha).1
        · rw [hcomplete] at hbad
          cases hbad
        · refine noteAnchor_some ?_
          by_cases hitems : listed.items = []
          · refine .inr (hi.named hc fun hempty => ?_)
            rw [hitems, hempty] at hmerge
            exact hne (Prod.mk.inj hmerge).2.symm
          · exact .inl hitems
      · obtain rfl := Except.ok.inj hok
        rw [← hlast]
        exact merge_fresh hs hi.nodup hi.past hcover hmerge

/-- Items of their own ids replace the inventory. -/
theorem replaceInventory_eq {items : List Comment} (hnodup : (items.map Comment.id).Nodup) :
    l.replaceInventory items = (.ok items,
      { l with cache := items, complete := true, anchor := noteAnchor l.anchor items }) := by
  unfold Ledger.replaceInventory
  rw [merge_new hnodup (fun _ _ c hc => absurd hc (by simp)), List.nil_append]

theorem covers_of_primed {items : List Comment} (hp : Primed items h) :
    ∀ a ∈ noteAnchor none items, Covers items h a := by
  intro a ha
  unfold noteAnchor at ha
  split at ha
  · cases ha
  next stamp hstamp =>
  obtain rfl := Option.some.inj ha
  obtain ⟨hmem, _⟩ := List.max?_eq_some_iff.mp hstamp
  obtain ⟨newestItem, hnewest, rfl⟩ := List.mem_map.mp hmem
  have hclock := (hp.past newestItem hnewest).stamp
  refine ⟨max_le (Nat.zero_le _) (by omega), fun c hc => (hp.covers c hc).imp id fun hmargin => ?_⟩
  have hnear := hmargin newestItem hnewest
  exact max_le (Nat.zero_le _) (by omega)

/-- The inventory after a whole listing took its place. -/
theorem replaced_inv {items : List Comment} (hp : Primed items h)
    (hanchor : l.anchor = none) (hfence : l.fenceAnchor = none)
    (hprimed : ∀ other ∈ l.primed, Primed other h) :
    Inv ⟨(l.replaceInventory items).2, h⟩ := by
  rw [replaceInventory_eq hp.nodup]
  refine ⟨hp.nodup, hp.past, ?_, ?_, fun _ => hfence, fun hbad => absurd hbad (by simp), ?_,
    hprimed⟩
  · dsimp only
    rw [hanchor]
    exact covers_of_primed hp
  · intro a ha
    dsimp only at ha
    rw [hfence] at ha
    cases ha
  · exact fun _ hne => noteAnchor_some (.inl hne)

theorem scanned_primed {listed : Listed} {start : Host} (hs : Scanned none start listed)
    (hsettled : Settled listed) : Primed listed.items listed.last where
  nodup := hs.exact rfl
  past item hitem := by
    obtain ⟨k, _, hk, hmem⟩ := hs.seen item hitem
    exact ⟨k, hk, hmem⟩
  covers c hc := by
    rcases hsettled c hc with hfirst | hrest
    · obtain ⟨item, hitem, hid⟩ := hs.found c (by rw [listing_none]; exact hfirst)
      obtain ⟨k, hk, hk', hmem⟩ := hs.seen item hitem
      exact .inl (hk.unchanged hk' hfirst hc hmem hid ▸ hitem)
    · exact hrest

theorem whole_fresh {listed : Listed} {start : Host} (hs : Scanned none start listed) :
    Fresh start listed.last listed.items := by
  have hmerge : merge [] listed.items [] = _ :=
    merge_new (hs.exact rfl) (fun _ _ c hc => absurd hc List.not_mem_nil)
  exact merge_fresh hs (by simp) (fun _ hbad => absurd hbad (by simp))
    (fun _ hbad => absurd hbad (by simp)) hmerge

theorem Inv.refreshed (hi : Inv ⟨l, h⟩) (b : Bool) : Inv ⟨{ l with refresh := b }, h⟩ :=
  ⟨hi.nodup, hi.past, hi.anchor, hi.fence, hi.fenced, hi.incomplete, hi.named, hi.primed⟩

theorem fetch_enumerated (since : Option Nat) (fixed : Bool) (limit : Option Nat) (fence : Nat)
    (h : Host) (turns : List Turn) :
    Enumerated since h (fetchPages since fixed turns h none [] 0 limit fence) :=
  fetchPages_enumerated ⟨rfl, .refl h⟩

/-- One call of `_bounded_comments`. -/
theorem read_reads (hi : Inv ⟨l, h⟩) (turns : List Turn) : Reads h (l.read h turns) := by
  unfold Ledger.read
  split
  · -- a history read answers with the listing and keeps the inventory
    have hf := fetch_enumerated none true (some l.pages) l.fenceSize h turns
    dsimp only
    generalize fetchPages none true turns h none [] 0 (some l.pages) l.fenceSize = f at hf ⊢
    refine ⟨fun _ => hi.later hf.later, fun inventory _ hok => ?_⟩
    dsimp only at hok
    cases hresult : f.result with
    | error e =>
      rw [hresult] at hok
      cases hok
    | ok listed =>
      rw [hresult] at hok
      obtain rfl := Except.ok.inj hok
      obtain ⟨hs, hlast⟩ := hf.listed listed hresult
      exact hlast ▸ whole_fresh hs
  split
  · next hfencing =>
    have htail : l.tail ≠ none := by
      intro hnone
      unfold Ledger.fencing at hfencing
      rw [hnone] at hfencing
      cases hfencing
    have hcomplete : l.complete = true := by
      by_contra hbad
      exact htail (hi.incomplete (by simpa using hbad)).2
    refine finish_absorb hi (fenceScan_enumerated ⟨rfl, .refl h⟩ (by simp)) hcomplete hi.fence
      fun hsome => ?_
    by_contra hnone
    have hfence := hi.fenced (by simpa using hnone)
    dsimp only at hfence
    rw [hfence] at hsome
    cases hsome
  split
  · exact ⟨fun _ => hi, fun _ hbad => absurd hbad (by simp)⟩
  dsimp only
  split
  · next hknown =>
    rw [Bool.and_eq_true] at hknown
    exact finish_absorb (hi.refreshed false) (fetch_enumerated _ _ _ _ _ _) hknown.1 hi.anchor id
  next hunknown =>
  -- without an anchor there is nothing to keep
  have hanchor : l.anchor = none := by
    by_contra hsome
    refine hunknown ?_
    rw [Bool.and_eq_true]
    refine ⟨?_, by simpa [Option.isSome_iff_ne_none] using hsome⟩
    by_contra hbad
    exact hsome (hi.incomplete (by simpa using hbad)).1
  have hfence := hi.fenced hanchor
  split
  · next items hitems =>
    refine ⟨fun _ => ?_, fun _ hbad => absurd hbad (by simp)⟩
    exact replaced_inv (l := { l with refresh := false, primed := none })
      (hi.primed items hitems) hanchor hfence (fun _ hbad => absurd hbad (by simp))
  · next hnone =>
    have hf : Enumerated none h (l.fetch none h turns) := fetch_enumerated _ _ _ _ _ _
    unfold Ledger.finish
    dsimp only
    cases hresult : (l.fetch none h turns).result with
    | error e =>
      refine ⟨fun _ => ?_, fun _ _ hbad => absurd hbad (by simp)⟩
      have hlater := (hi.refreshed false).later hf.later
      exact ⟨hlater.nodup, hlater.past, hlater.anchor, hlater.fence, hlater.fenced,
        hlater.incomplete, hlater.named, hlater.primed⟩
    | ok listed =>
      obtain ⟨hs, hlast⟩ := hf.listed listed hresult
      dsimp only
      refine ⟨fun hsettled => ?_, fun inventory _ hok => ?_⟩
      · have hp := scanned_primed hs (hsettled listed rfl)
        rw [hlast] at hp
        exact replaced_inv (l := { l with
          refresh := false, fenceSize := (l.fetch none h turns).fenceSize }) hp hanchor hfence
          (fun other hother => absurd (hnone.symm.trans hother) (by simp))
      · rw [replaceInventory_eq (hs.exact rfl)] at hok
        obtain rfl := Except.ok.inj hok
        exact hlast ▸ whole_fresh hs

/-- A fence asks the host: a scan of an activation, and a refreshed read of an inventory with a
comment in it. -/
theorem fence_queries (hi : Inv ⟨l, h⟩) (turns : List Turn)
    (hfence : l.fencing = true ∨ (l.complete = true ∧ l.refresh = true ∧ l.cache ≠ [])) :
    (l.read h turns).queried = true := by
  have hfinish (k : Ledger) (f : Fetched)
      (use : Ledger → List Comment → Except String (List Comment) × Ledger) :
      (k.finish f use).queried = true := by
    unfold Ledger.finish
    dsimp only
    split <;> rfl
  unfold Ledger.read
  split
  · rfl
  split
  · exact hfinish _ _ _
  next hnot =>
  rcases hfence with hbad | ⟨hcomplete, hrefresh, hcache⟩
  · exact absurd hbad hnot
  have hanchor := hi.named hcomplete hcache
  rw [hcomplete, hrefresh]
  simp only [Bool.not_true, Bool.and_false, Bool.false_eq_true, if_false, Bool.true_and]
  rw [if_pos hanchor]
  exact hfinish _ _ _

end Steps

section Runs

/-- No listing a run completes has lost an edit. -/
def AllSettled (s : State) : List Event → Prop
  | [] => True
  | e :: events => (∀ listed ∈ s.listed e, Settled listed) ∧ AllSettled (s.step e) events

instance (listed : Listed) : Decidable (Settled listed) :=
  inferInstanceAs (Decidable (∀ c ∈ listed.last.comments, c ∈ listed.first.comments ∨
    c ∈ listed.items ∨ ∀ item ∈ listed.items, item.updatedAt ≤ c.updatedAt + sinceMargin))

instance allSettled (s : State) : (events : List Event) → Decidable (AllSettled s events)
  | [] => .isTrue trivial
  | e :: events =>
    have := allSettled (s.step e) events
    inferInstanceAs (Decidable (_ ∧ _))

theorem step_inv {s : State} {e : Event} (hi : Inv s)
    (hsettled : ∀ listed ∈ s.listed e, Settled listed) : Inv (s.step e) := by
  cases e with
  | moves ms => exact hi.later (Later.moves s.host ms)
  | refresh => exact hi.refreshed true
  | read turns => exact (read_reads hi turns).inv hsettled
  | prime pages =>
    have hfrom : Underway none s.host none [] s.host := ⟨rfl, .refl s.host⟩
    obtain ⟨hlater, hlisted⟩ := listAll_scanned hfrom
    have hi' := hi.later hlater
    refine ⟨hi'.nodup, hi'.past, hi'.anchor, hi'.fence, hi'.fenced, hi'.incomplete, hi'.named,
      fun items hitems => ?_⟩
    cases hlisting : (listAll pages s.host none []).1 with
    | none =>
      unfold State.step at hitems
      dsimp only at hitems
      rw [hlisting] at hitems
      exact hi'.primed items hitems
    | some listed =>
      obtain ⟨hs, hlast⟩ := hlisted listed hlisting
      unfold State.step at hitems ⊢
      dsimp only at hitems ⊢
      rw [hlisting] at hitems
      obtain rfl := Option.some.inj hitems
      exact hlast ▸ scanned_primed hs (hsettled listed hlisting)
  | verify ids =>
    exact ⟨hi.nodup, hi.past, hi.anchor, hi.fence, hi.fenced, hi.incomplete, hi.named, hi.primed⟩
  | history limit =>
    exact ⟨hi.nodup, hi.past, hi.anchor, hi.fence, hi.fenced, hi.incomplete, hi.named, hi.primed⟩
  | beginTail pages =>
    unfold State.step
    dsimp only
    split
    · next hcomplete =>
      exact ⟨hi.nodup, hi.past, hi.anchor, hi.anchor, id,
        fun hbad => absurd (hcomplete.symm.trans hbad) (by simp), hi.named, hi.primed⟩
    · exact hi
  | enterPhase phase =>
    unfold State.step
    dsimp only
    split
    · next htail =>
      refine ⟨hi.nodup, hi.past, hi.anchor, hi.fence, hi.fenced, fun hbad => ?_, hi.named,
        hi.primed⟩
      have hnone := (hi.incomplete hbad).2
      rw [hnone] at htail
      cases htail
    · exact hi
  | endTail =>
    exact ⟨hi.nodup, hi.past, hi.anchor, hi.fence, hi.fenced,
      fun hbad => ⟨(hi.incomplete hbad).1, rfl⟩, hi.named, hi.primed⟩

theorem run_inv (events : List Event) (s : State) (hi : Inv s) (h : AllSettled s events) :
    Inv (s.run events) := by
  induction events generalizing s with
  | nil => exact hi
  | cons e events ih => exact ih (s.step e) (step_inv hi h.1) h.2

theorem settled_append {s : State} (before after : List Event)
    (h : AllSettled s (before ++ after)) : AllSettled s before := by
  induction before generalizing s with
  | nil => trivial
  | cons e before ih => exact ⟨h.1, ih h.2⟩

/-- In every run whose completed listings have lost no edit, a read that asks the host answers
with every comment there was when it began, once and as it was at some moment of the read, and
every fence asks the host. -/
theorem census_fresh (h : Host) (events : List Event)
    (hsettled : AllSettled ⟨.initial, h⟩ events) :
    ∀ before turns after, events = before ++ .read turns :: after →
      let s := State.run ⟨.initial, h⟩ before
      let r := s.ledger.read s.host turns
      (∀ inventory, r.queried = true → r.result = .ok inventory →
        Fresh s.host r.host inventory) ∧
      (s.ledger.fencing = true ∨
        (s.ledger.complete = true ∧ s.ledger.refresh = true ∧ s.ledger.cache ≠ []) →
          r.queried = true) := by
  intro before turns after hevents
  rw [hevents] at hsettled
  have hi := run_inv before _ (inv_initial h) (settled_append before _ hsettled)
  exact ⟨(read_reads hi turns).fresh, fence_queries hi turns⟩

def sampleHost : Host where
  comments := [⟨1, "first", 5, 0⟩, ⟨2, "second", 6, 0⟩]
  clock := 10
  ascending := by decide
  stamped := by decide

/-- One request with a hint, after the moves of others. -/
def answered (hint : Nat) (moves : List Move) : Turn := ⟨moves, hint, .answered⟩

/-- A whole page is read, a comment is edited, and a fence reads what has changed. -/
theorem census_fresh_sample :
    let s := State.run ⟨.initial, sampleHost⟩
      [.read [answered 100 []], .refresh, .moves [.tick 30, .edit 1 "changed"]]
    let r := s.ledger.read s.host [answered 100 []]
    (∀ inventory, r.queried = true → r.result = .ok inventory →
      Fresh s.host r.host inventory) ∧
    (s.ledger.fencing = true ∨
      (s.ledger.complete = true ∧ s.ledger.refresh = true ∧ s.ledger.cache ≠ []) →
        r.queried = true) :=
  census_fresh sampleHost
    [.read [answered 100 []], .refresh, .moves [.tick 30, .edit 1 "changed"],
      .read [answered 100 []]] (by decide) _ _ [] rfl

/-- The first comment is edited after its page was read, and the second, seconds later, before
its own is: the newest stamp hides the first edit from every read that follows. -/
def lostEdit : List Event :=
  [.read [answered 1 [], answered 1 [.tick 1, .edit 1 "changed", .tick 9, .edit 2 "changed"],
      answered 1 []], .refresh]

theorem census_stale :
    ¬∀ (h : Host) (events : List Event) (before : List Event) (turns : List Turn)
      (after : List Event), events = before ++ .read turns :: after →
        let s := State.run ⟨.initial, h⟩ before
        let r := s.ledger.read s.host turns
        ∀ inventory, r.queried = true → r.result = .ok inventory →
          Fresh s.host r.host inventory := by
  intro hclaim
  have hfresh := hclaim sampleHost _ lostEdit [answered 100 []] [] rfl
    [⟨1, "first", 5, 0⟩, ⟨2, "changed", 20, 1⟩] (by decide) (by decide)
  have hedited : (⟨1, "changed", 11, 1⟩ : Comment) ∈
      (State.run ⟨.initial, sampleHost⟩ lostEdit).host.comments := by decide
  obtain ⟨item, hitem, hid, hversion⟩ := hfresh.all _ hedited
  have hnone : ∀ item ∈ [(⟨1, "first", 5, 0⟩ : Comment), ⟨2, "changed", 20, 1⟩],
      item.id = 1 → item.version = 0 := by decide
  have hold := hnone item hitem hid
  dsimp only at hversion
  omega

end Runs


end ReviewSensei.CommentList
