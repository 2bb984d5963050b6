import ReviewSensei.CommentScans

/-! The inventory of a ledger against the host it follows: what is not cached as it is now carries
a stamp from the anchor on, unless an enumeration has lost an edit. -/
namespace ReviewSensei.CommentList

section Merging
variable {verified : List Nat} {cache cache' items : List Comment} {item : Comment}

/-- What one stored item leaves. -/
structure Stored (cache : List Comment) (item : Comment) (cache' : List Comment) : Prop where
  mem : item ∈ cache'
  nodup : (cache.map Comment.id).Nodup → (cache'.map Comment.id).Nodup
  from_ : ∀ d ∈ cache', d = item ∨ d ∈ cache
  ids : ∀ d ∈ cache, ∃ d' ∈ cache', d'.id = d.id
  kept : ∀ d ∈ cache, (d.id = item.id → d = item) → d ∈ cache'

theorem store_stored (h : store verified cache item = .ok cache') : Stored cache item cache' := by
  unfold store at h
  split at h
  · next previous hfind =>
    split at h
    · cases h
    · obtain rfl := Except.ok.inj h
      have hprevious : previous ∈ cache := List.mem_of_find?_eq_some hfind
      have hid : previous.id = item.id := by simpa using List.find?_some hfind
      have hids : (cache.map (fun c => if c.id = item.id then item else c)).map Comment.id =
          cache.map Comment.id := by
        rw [List.map_map]
        refine List.map_congr_left fun c _ => ?_
        dsimp only [Function.comp]
        split
        · next hc => exact hc.symm
        · rfl
      refine ⟨List.mem_map.mpr ⟨previous, hprevious, if_pos hid⟩, ?_, ?_, ?_, ?_⟩
      · rw [hids]
        exact id
      · intro d hd
        obtain ⟨c, hc, rfl⟩ := List.mem_map.mp hd
        split
        · exact .inl rfl
        · exact .inr hc
      · intro d hd
        have hmem : d.id ∈ (cache.map (fun c => if c.id = item.id then item else c)).map
            Comment.id := by
          rw [hids]
          exact List.mem_map_of_mem hd
        exact List.mem_map.mp hmem
      · intro d hd hsame
        refine List.mem_map.mpr ⟨d, hd, ?_⟩
        split
        · next hd' => exact (hsame hd').symm
        · rfl
  · next hfind =>
    obtain rfl := Except.ok.inj h
    have hnone : ∀ c ∈ cache, c.id ≠ item.id := by
      intro c hc
      simpa using List.find?_eq_none.mp hfind c hc
    refine ⟨List.mem_append_right _ (List.mem_singleton.mpr rfl), ?_, ?_, ?_, ?_⟩
    · intro hnodup
      rw [List.map_append]
      refine hnodup.append (List.nodup_singleton _) (List.disjoint_singleton.mpr ?_)
      intro hmem
      obtain ⟨c, hc, hid⟩ := List.mem_map.mp hmem
      exact hnone c hc hid
    · intro d hd
      rcases List.mem_append.mp hd with hold | hnew
      · exact .inr hold
      · exact .inl (List.mem_singleton.mp hnew)
    · exact fun d hd => ⟨d, List.mem_append_left _ hd, rfl⟩
    · exact fun d hd _ => List.mem_append_left _ hd

/-- What a merge leaves, also one that stops at a changed part. -/
structure Merged (cache items cache' : List Comment) : Prop where
  nodup : (cache'.map Comment.id).Nodup
  from_ : ∀ d ∈ cache', d ∈ items ∨ d ∈ cache
  ids : ∀ d ∈ cache, ∃ d' ∈ cache', d'.id = d.id
  kept : ∀ d ∈ cache, (∀ item ∈ items, item.id = d.id → item = d) → d ∈ cache'

theorem merge_merged {result : Except String Unit} (hnodup : (cache.map Comment.id).Nodup)
    (h : merge verified items cache = (result, cache')) : Merged cache items cache' := by
  induction items generalizing cache with
  | nil =>
    obtain ⟨_, rfl⟩ := Prod.mk.inj h
    exact ⟨hnodup, fun d hd => .inr hd, fun d hd => ⟨d, hd, rfl⟩, fun d hd _ => hd⟩
  | cons item items ih =>
    unfold merge at h
    split at h
    · obtain ⟨_, rfl⟩ := Prod.mk.inj h
      exact ⟨hnodup, fun d hd => .inr hd, fun d hd => ⟨d, hd, rfl⟩, fun d hd _ => hd⟩
    · next middle hstore =>
      have hstored := store_stored hstore
      have hrest := ih (hstored.nodup hnodup) h
      refine ⟨hrest.nodup, fun d hd => ?_, fun d hd => ?_, fun d hd hsame => ?_⟩
      · rcases hrest.from_ d hd with hitem | hmiddle
        · exact .inl (List.mem_cons_of_mem _ hitem)
        · rcases hstored.from_ d hmiddle with rfl | hold
          · exact .inl List.mem_cons_self
          · exact .inr hold
      · obtain ⟨d', hd', hid⟩ := hstored.ids d hd
        obtain ⟨d'', hd'', hid'⟩ := hrest.ids d' hd'
        exact ⟨d'', hd'', hid'.trans hid⟩
      · refine hrest.kept d (hstored.kept d hd fun hid => ?_)
          (fun other hother => hsame other (List.mem_cons_of_mem _ hother))
        exact (hsame item List.mem_cons_self hid.symm).symm

/-- A merge that went through holds the latest copy of every item. -/
theorem merge_latest (hnodup : (cache.map Comment.id).Nodup)
    (hordered : items.Pairwise (fun a b => a.id = b.id → a.version ≤ b.version))
    (h : merge verified items cache = (.ok (), cache')) :
    ∀ item ∈ items, ∃ d ∈ cache', d.id = item.id ∧ item.version ≤ d.version := by
  induction items generalizing cache with
  | nil => exact fun item hitem => absurd hitem (by simp)
  | cons first items ih =>
    obtain ⟨hfirst, htail⟩ := List.pairwise_cons.mp hordered
    unfold merge at h
    split at h
    · cases h
    · next middle hstore =>
      have hstored := store_stored hstore
      have hrest := merge_merged (hstored.nodup hnodup) h
      intro item hitem
      rcases List.mem_cons.mp hitem with rfl | hlater
      · obtain ⟨d, hd, hid⟩ := hrest.ids item hstored.mem
        refine ⟨d, hd, hid, ?_⟩
        rcases hrest.from_ d hd with hmem | hmem
        · exact hfirst d hmem hid.symm
        · obtain rfl := List.inj_on_of_nodup_map (hstored.nodup hnodup) hmem hstored.mem hid
          exact Nat.le_refl _
      · exact ih (hstored.nodup hnodup) htail h item hlater

/-- Items with ids of their own are merged into an empty inventory. -/
theorem merge_new (hitems : (items.map Comment.id).Nodup)
    (hdisjoint : ∀ item ∈ items, ∀ c ∈ cache, c.id ≠ item.id) :
    merge verified items cache = (.ok (), cache ++ items) := by
  induction items generalizing cache with
  | nil => rw [List.append_nil]; rfl
  | cons item items ih =>
    rw [List.map_cons, List.nodup_cons] at hitems
    have hfind : cache.find? (fun c => c.id == item.id) = none := by
      refine List.find?_eq_none.mpr fun c hc => ?_
      simpa using hdisjoint item List.mem_cons_self c hc
    unfold merge store
    rw [hfind]
    dsimp only
    rw [ih hitems.2, List.append_assoc]
    · rfl
    · intro other hother c hc
      rcases List.mem_append.mp hc with hold | hnew
      · exact hdisjoint other (List.mem_cons_of_mem _ hother) c hold
      · obtain rfl := List.mem_singleton.mp hnew
        intro hid
        exact hitems.1 (List.mem_map.mpr ⟨other, hother, hid.symm⟩)

end Merging

/-- A copy of a comment as it was at some moment so far. -/
def Past (item : Comment) (h : Host) : Prop := ∃ k, Later k h ∧ item ∈ k.comments

/-- Whatever is not cached as it is now has been stamped at the anchor or later. -/
def Covers (cache : List Comment) (h : Host) (anchor : Nat) : Prop :=
  anchor ≤ h.clock ∧ ∀ c ∈ h.comments, c ∈ cache ∨ anchor ≤ c.updatedAt

section Hosts
variable {h h' : Host} {cache : List Comment} {anchor : Nat} {item : Comment}

theorem Past.later (hp : Past item h) (hl : Later h h') : Past item h' := by
  obtain ⟨k, hk, hmem⟩ := hp
  exact ⟨k, hk.trans hl, hmem⟩

theorem Past.stamp (hp : Past item h) : item.updatedAt ≤ h.clock := by
  obtain ⟨k, hk, hmem⟩ := hp
  exact (k.stamped item hmem).trans hk.clock

theorem Covers.later (hc : Covers cache h anchor) (hl : Later h h') :
    Covers cache h' anchor := by
  refine ⟨hc.1.trans hl.clock, fun c hmem => ?_⟩
  rcases hl.stamped c hmem with hold | hnew
  · exact hc.2 c hold
  · exact .inr (hc.1.trans hnew)

end Hosts

/-- A completed listing has lost no edit: what changed between its first and its last page is
listed as it is, or was stamped no more than the margin before the newest stamp listed. -/
def Settled (s : Listed) : Prop :=
  ∀ c ∈ s.last.comments, c ∈ s.first.comments ∨ c ∈ s.items ∨
    ∀ item ∈ s.items, item.updatedAt ≤ c.updatedAt + sinceMargin

/-- An inventory that was read in one call holds every comment there was at its start once, and
each comment as it was at some moment of the call. -/
structure Fresh (start finish : Host) (inventory : List Comment) : Prop where
  once : (inventory.map Comment.id).Nodup
  all : ∀ c ∈ start.comments, ∃ item ∈ inventory, item.id = c.id ∧ c.version ≤ item.version
  current : ∀ item ∈ inventory, ∃ k, Later start k ∧ Later k finish ∧ item ∈ k.comments

section Absorbing
variable {verified : List Nat} {cache cache' : List Comment} {start : Host} {listed : Listed}
  {since : Option Nat}

/-- What a listing leaves out is older than its anchor, and cached. -/
theorem cached_of_unlisted (hs : Scanned since start listed)
    (hcover : ∀ a ∈ since, Covers cache start a) {c : Comment}
    (hfirst : c ∈ listed.first.comments) (hlisting : c ∉ listed.first.listing since) :
    c ∈ cache := by
  cases since with
  | none => exact absurd (mem_listing.mpr ⟨hfirst, fun _ hm => absurd hm (by simp)⟩) hlisting
  | some a =>
    rcases ((hcover a rfl).later hs.started).2 c hfirst with hmem | hle
    · exact hmem
    · refine absurd (mem_listing.mpr ⟨hfirst, fun moment hm => ?_⟩) hlisting
      obtain rfl := Option.some.inj hm
      exact hle

/-- A comment that did not change during the listing is cached as it is after the merge. -/
theorem unchanged_cached (hs : Scanned since start listed)
    (hnodup : (cache.map Comment.id).Nodup)
    (hpast : ∀ item ∈ cache, Past item start)
    (hcover : ∀ a ∈ since, Covers cache start a)
    (hmerge : merge verified listed.items cache = (.ok (), cache')) {c : Comment}
    (hfirst : c ∈ listed.first.comments) (hlast : c ∈ listed.last.comments) : c ∈ cache' := by
  have hsame : ∀ item ∈ listed.items, item.id = c.id → item = c := by
    intro item hitem hid
    obtain ⟨k, hk, hk', hmem⟩ := hs.seen item hitem
    exact hk.unchanged hk' hfirst hlast hmem hid
  have hmerged := merge_merged hnodup hmerge
  by_cases hlisting : c ∈ listed.first.listing since
  · obtain ⟨item, hitem, hid⟩ := hs.found c hlisting
    obtain rfl := hsame item hitem hid
    obtain ⟨d, hd, hdid, hversion⟩ := merge_latest hnodup hs.ordered hmerge item hitem
    have hd' : d = item := by
      rcases hmerged.from_ d hd with hmem | hmem
      · exact hsame d hmem hdid
      · obtain ⟨k, hk, hmemk⟩ := hpast d hmem
        rcases (hk.trans hs.started).grows d hmemk item hfirst hdid.symm with heq | ⟨hlt, _⟩
        · exact heq.symm
        · omega
    exact hd' ▸ hd
  · exact hmerged.kept c (cached_of_unlisted hs hcover hfirst hlisting) hsame

/-- The inventory after a merge is that of the call. -/
theorem merge_fresh (hs : Scanned since start listed) (hnodup : (cache.map Comment.id).Nodup)
    (hpast : ∀ item ∈ cache, Past item start)
    (hcover : ∀ a ∈ since, Covers cache start a)
    (hmerge : merge verified listed.items cache = (.ok (), cache')) :
    Fresh start listed.last cache' := by
  have hmerged := merge_merged hnodup hmerge
  have hcurrent : ∀ item ∈ cache', ∃ k, Later start k ∧ Later k listed.last ∧
      item ∈ k.comments := by
    intro item hitem
    have hread (hmem : item ∈ listed.items) : ∃ k, Later start k ∧ Later k listed.last ∧
        item ∈ k.comments := by
      obtain ⟨k, hk, hk', hmemk⟩ := hs.seen item hmem
      exact ⟨k, hs.started.trans hk, hk', hmemk⟩
    rcases hmerged.from_ item hitem with hmem | hmem
    · exact hread hmem
    -- an old copy that stayed is the one the host still has
    obtain ⟨k, hk, hmemk⟩ := hpast item hmem
    obtain ⟨c, hc, hid⟩ := (hk.trans hs.started).kept hmemk
    by_cases hlisting : c ∈ listed.first.listing since
    · obtain ⟨copy, hcopy, hcopyId⟩ := hs.found c hlisting
      obtain ⟨d, hd, hdid, hversion⟩ := merge_latest hnodup hs.ordered hmerge copy hcopy
      obtain rfl := List.inj_on_of_nodup_map hmerged.nodup hd hitem
        (hdid.trans (hcopyId.trans hid))
      obtain ⟨j, hj, hj', hmemj⟩ := hs.seen copy hcopy
      rcases ((hk.trans hs.started).trans hj).grows d hmemk copy hmemj hdid.symm with
        heq | ⟨hlt, _⟩
      · exact hread (heq ▸ hcopy)
      · omega
    · have hcached := cached_of_unlisted hs hcover hc hlisting
      obtain rfl := List.inj_on_of_nodup_map hnodup hcached hmem hid
      exact ⟨listed.first, hs.started, hs.later, hc⟩
  refine ⟨hmerged.nodup, fun c hc => ?_, hcurrent⟩
  have hthere : ∃ item ∈ cache', item.id = c.id := by
    obtain ⟨c', hc', hid⟩ := hs.started.kept hc
    by_cases hlisting : c' ∈ listed.first.listing since
    · obtain ⟨item, hitem, hitemId⟩ := hs.found c' hlisting
      obtain ⟨d, hd, hdid, _⟩ := merge_latest hnodup hs.ordered hmerge item hitem
      exact ⟨d, hd, hdid.trans (hitemId.trans hid)⟩
    · obtain ⟨d, hd, hdid⟩ := hmerged.ids c' (cached_of_unlisted hs hcover hc' hlisting)
      exact ⟨d, hd, hdid.trans hid⟩
  obtain ⟨item, hitem, hid⟩ := hthere
  obtain ⟨k, hk, _, hmemk⟩ := hcurrent item hitem
  refine ⟨item, hitem, hid, ?_⟩
  rcases hk.grows c hc item hmemk hid with rfl | ⟨hlt, _⟩
  · exact Nat.le_refl _
  · exact Nat.le_of_lt hlt

/-- A stamp from before the call is covered by what the call merges. -/
theorem merge_covers (hs : Scanned since start listed) (hnodup : (cache.map Comment.id).Nodup)
    (hpast : ∀ item ∈ cache, Past item start) (hcover : ∀ a ∈ since, Covers cache start a)
    (hmerge : merge verified listed.items cache = (.ok (), cache')) {a : Nat}
    (ha : a ≤ start.clock) : Covers cache' listed.last a := by
  have hlast := hs.started.trans hs.later
  refine ⟨ha.trans hlast.clock, fun c hc => ?_⟩
  by_cases hfirst : c ∈ listed.first.comments
  · exact .inl (unchanged_cached hs hnodup hpast hcover hmerge hfirst hc)
  · rcases hs.later.stamped c hc with hold | hnew
    · exact absurd hold hfirst
    · exact .inr (ha.trans (hs.started.clock.trans hnew))

/-- The anchor a settled listing notes is covered by what was merged. -/
theorem merge_anchor {anchor : Option Nat} (hs : Scanned since start listed)
    (hsettled : Settled listed) (hnodup : (cache.map Comment.id).Nodup)
    (hpast : ∀ item ∈ cache, Past item start) (hcover : ∀ a ∈ since, Covers cache start a)
    (hmerge : merge verified listed.items cache = (.ok (), cache'))
    (hanchor : ∀ a ∈ anchor, a ≤ start.clock) :
    ∀ a ∈ noteAnchor anchor listed.items, Covers cache' listed.last a := by
  intro a ha
  unfold noteAnchor at ha
  split at ha
  · exact merge_covers hs hnodup hpast hcover hmerge (hanchor a ha)
  next stamp hstamp =>
  obtain rfl := Option.some.inj ha
  obtain ⟨hmem, hmax⟩ := List.max?_eq_some_iff.mp hstamp
  have hold : anchor.getD 0 ≤ start.clock := by
    cases anchor with
    | none => exact Nat.zero_le _
    | some b => exact hanchor b rfl
  obtain ⟨newestItem, hnewest, hnewestStamp⟩ := List.mem_map.mp hmem
  obtain ⟨k, _, hk, hmemk⟩ := hs.seen newestItem hnewest
  have hclock : stamp ≤ listed.last.clock := by
    rw [← hnewestStamp]
    exact Past.stamp ⟨k, hk, hmemk⟩
  have hlast := hs.started.trans hs.later
  refine ⟨max_le (hold.trans hlast.clock) (by omega), fun c hc => ?_⟩
  have hcovered := merge_covers hs hnodup hpast hcover hmerge hold
  rcases hcovered.2 c hc with hcached | holdStamp
  · exact .inl hcached
  rcases hsettled c hc with hfirst | hlisted | hmargin
  · exact .inl (unchanged_cached hs hnodup hpast hcover hmerge hfirst hc)
  · -- listed as it is now, so the latest copy is this one
    obtain ⟨d, hd, hid, hversion⟩ := merge_latest hnodup hs.ordered hmerge c hlisted
    obtain ⟨j, _, hj, hmemj⟩ :=
      (merge_fresh hs hnodup hpast hcover hmerge).current d hd
    rcases hj.grows d hmemj c hc hid.symm with rfl | ⟨hlt, _⟩
    · exact .inl hd
    · omega
  · have hnear := hmargin newestItem hnewest
    exact .inr (max_le holdStamp (by omega))

/-- A merge that stopped has not replaced what the host still has. -/
theorem merge_stopped {result : Except String Unit} (hs : Scanned since start listed)
    (hnodup : (cache.map Comment.id).Nodup) (hpast : ∀ item ∈ cache, Past item start)
    (hmerge : merge verified listed.items cache = (result, cache')) {a : Nat}
    (hcovers : Covers cache start a) : Covers cache' listed.last a := by
  have hlast := hs.started.trans hs.later
  obtain ⟨hclock, hall⟩ := hcovers.later hlast
  refine ⟨hclock, fun c hc => (hall c hc).imp (fun hcached => ?_) id⟩
  refine (merge_merged hnodup hmerge).kept c hcached fun item hitem hid => ?_
  obtain ⟨k, hk, hk', hmemk⟩ := hs.seen item hitem
  obtain ⟨j, hj, hmemj⟩ := hpast c hcached
  exact (hj.trans (hs.started.trans hk)).unchanged hk' hmemj hc hmemk hid

theorem merge_past {result : Except String Unit} (hs : Scanned since start listed)
    (hnodup : (cache.map Comment.id).Nodup) (hpast : ∀ item ∈ cache, Past item start)
    (hmerge : merge verified listed.items cache = (result, cache')) :
    ∀ item ∈ cache', Past item listed.last := by
  intro item hitem
  rcases (merge_merged hnodup hmerge).from_ item hitem with hread | hold
  · obtain ⟨k, _, hk, hmemk⟩ := hs.seen item hread
    exact ⟨k, hk, hmemk⟩
  · exact (hpast item hold).later (hs.started.trans hs.later)

end Absorbing

end ReviewSensei.CommentList
