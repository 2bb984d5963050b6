import ReviewSensei.CommentCensus

/-! What an enumeration has collected, page by page, while the listing grows under it. -/
namespace ReviewSensei.CommentList

variable {since : Option Nat} {start first h h' : Host} {collected : List Comment}

/-- The pages read so far. Every row the listing held at its first page has been collected, or
still lies ahead of the offset. -/
structure Scanning (since : Option Nat) (first : Host) (collected : List Comment) (h : Host) :
    Prop where
  later : Later first h
  seen : ∀ item ∈ collected, ∃ k, Later first k ∧ Later k h ∧ item ∈ k.comments
  ahead : ∀ c ∈ first.listing since, (∃ item ∈ collected, item.id = c.id) ∨
    collected.length ≤ h.position since c.id
  ordered : collected.Pairwise (fun a b => a.id = b.id → a.version ≤ b.version)
  exact : since = none → collected.map Comment.id <+: h.ids

theorem Scanning.empty (since : Option Nat) (h : Host) : Scanning since h [] h where
  later := .refl h
  seen _ hitem := absurd hitem (by simp)
  ahead _ _ := .inr (Nat.zero_le _)
  ordered := .nil
  exact _ := List.nil_prefix

theorem Scanning.moves (hs : Scanning since first collected h) (hl : Later h h') :
    Scanning since first collected h' where
  later := hs.later.trans hl
  seen item hitem := by
    obtain ⟨k, hfirst, hk, hmem⟩ := hs.seen item hitem
    exact ⟨k, hfirst, hk.trans hl, hmem⟩
  ahead c hc := (hs.ahead c hc).imp id (fun hle => hle.trans (position_mono hl c.id))
  ordered := hs.ordered
  exact hnone := (hs.exact hnone).trans hl.ids

theorem mem_of_page {c : Comment} {offset size : Nat} (hc : c ∈ h.page since offset size) :
    c ∈ h.comments :=
  (mem_listing.mp (List.mem_of_mem_drop (List.mem_of_mem_take hc))).1

theorem listing_none (h : Host) : h.listing none = h.comments := by
  unfold Host.listing
  simp

/-- What is read later is no older. -/
theorem Scanning.ordered_page (hs : Scanning since first collected h) (offset size : Nat) :
    (collected ++ h.page since offset size).Pairwise
      (fun a b => a.id = b.id → a.version ≤ b.version) := by
  have hsub : (h.page since offset size).Sublist h.comments :=
    (List.take_sublist _ _).trans ((List.drop_sublist _ _).trans List.filter_sublist)
  refine List.pairwise_append.mpr ⟨hs.ordered, ?_, ?_⟩
  · refine (h.ascending.sublist hsub).imp fun hlt hid => ?_
    omega
  · intro a ha b hb hid
    obtain ⟨k, _, hk, hmem⟩ := hs.seen a ha
    rcases hk.grows a hmem b (mem_of_page hb) hid.symm with rfl | ⟨hversion, _⟩
    · exact Nat.le_refl _
    · exact Nat.le_of_lt hversion

/-- The rows of one more page, at the offset of what was collected. -/
theorem Scanning.page (hs : Scanning since first collected h) (size : Nat)
    (hfull : (h.page since collected.length size).length = size) :
    Scanning since first (collected ++ h.page since collected.length size) h where
  later := hs.later
  seen item hitem := by
    rcases List.mem_append.mp hitem with hold | hnew
    · exact hs.seen item hold
    · exact ⟨h, hs.later, .refl h, mem_of_page hnew⟩
  ahead c hc := by
    rw [List.length_append, hfull]
    rcases hs.ahead c hc with ⟨item, hitem, hid⟩ | hle
    · exact .inl ⟨item, List.mem_append_left _ hitem, hid⟩
    by_cases hlt : h.position since c.id < collected.length + size
    · obtain ⟨c', hc', hid⟩ := listing_later hs.later hc
      rw [← hid] at hle hlt
      exact .inl ⟨c', List.mem_append_right _ (mem_page hc' hle hlt), hid⟩
    · exact .inr (by omega)
  ordered := hs.ordered_page _ _
  exact hnone := by
    subst hnone
    obtain ⟨rest, hrest⟩ := hs.exact rfl
    have hdrop : h.ids.drop collected.length = rest := by
      rw [← hrest, ← List.length_map (f := Comment.id), List.drop_left]
    refine ⟨rest.drop size, ?_⟩
    unfold Host.page
    rw [listing_none, List.map_append, List.map_take, List.map_drop,
      show h.comments.map Comment.id = h.ids from rfl, hdrop, List.append_assoc,
      List.take_append_drop, hrest]

/-- A listing that ended with a page that was not full. -/
structure Scanned (since : Option Nat) (start : Host) (listed : Listed) : Prop where
  started : Later start listed.first
  later : Later listed.first listed.last
  seen : ∀ item ∈ listed.items, ∃ k, Later listed.first k ∧ Later k listed.last ∧ item ∈ k.comments
  found : ∀ c ∈ listed.first.listing since, ∃ item ∈ listed.items, item.id = c.id
  ordered : listed.items.Pairwise (fun a b => a.id = b.id → a.version ≤ b.version)
  exact : since = none → (listed.items.map Comment.id).Nodup

/-- The short page ends the listing: nothing lies ahead of it. -/
theorem Scanning.finished (hs : Scanning since first collected h) (hstart : Later start first)
    (size : Nat) (hshort : (h.page since collected.length size).length < size) :
    Scanned since start ⟨collected ++ h.page since collected.length size, first, h⟩ where
  started := hstart
  later := hs.later
  seen item hitem := by
    rcases List.mem_append.mp hitem with hold | hnew
    · exact hs.seen item hold
    · exact ⟨h, hs.later, .refl h, mem_of_page hnew⟩
  found c hc := by
    rcases hs.ahead c hc with ⟨item, hitem, hid⟩ | hle
    · exact ⟨item, List.mem_append_left _ hitem, hid⟩
    obtain ⟨c', hc', hid⟩ := listing_later hs.later hc
    have hlt := position_lt hc'
    unfold Host.page at hshort
    rw [List.length_take, List.length_drop] at hshort
    rw [← hid] at hle
    exact ⟨c', List.mem_append_right _ (mem_page hc' hle (by omega)), hid⟩
  ordered := hs.ordered_page _ _
  exact hnone := by
    subst hnone
    obtain ⟨rest, hrest⟩ := hs.exact rfl
    have hdrop : h.ids.drop collected.length = rest := by
      rw [← hrest, ← List.length_map (f := Comment.id), List.drop_left]
    unfold Host.page
    rw [listing_none, List.map_append, List.map_take, List.map_drop,
      show h.comments.map Comment.id = h.ids from rfl, hdrop]
    refine (ids_nodup h).sublist ?_
    rw [← hrest]
    exact (List.take_sublist size rest).append_left _

/-- An enumeration on its way: before its first page it has collected nothing. -/
def Underway (since : Option Nat) (start : Host) (first : Option Host) (collected : List Comment)
    (h : Host) : Prop :=
  match first with
  | none => collected = [] ∧ Later start h
  | some f => Later start f ∧ Scanning since f collected h

theorem Underway.moves {first : Option Host} (hu : Underway since start first collected h)
    (hl : Later h h') : Underway since start first collected h' := by
  cases first with
  | none => exact ⟨hu.1, hu.2.trans hl⟩
  | some f => exact ⟨hu.1, hu.2.moves hl⟩

/-- From the moment a page is read its host is at the latest the first one. -/
theorem Underway.scanning {first : Option Host} (hu : Underway since start first collected h) :
    Later start (first.getD h) ∧ Scanning since (first.getD h) collected h := by
  cases first with
  | none =>
    obtain ⟨rfl, hstart⟩ := hu
    exact ⟨hstart, .empty since h⟩
  | some f => exact hu

theorem Underway.later {first : Option Host} (hu : Underway since start first collected h) :
    Later start h := hu.scanning.1.trans hu.scanning.2.later

/-- What an enumeration leaves: a later host, and a whole listing that ends there. -/
structure Enumerated (since : Option Nat) (start : Host) (f : Fetched) : Prop where
  later : Later start f.host
  listed : ∀ listed, f.result = .ok listed → Scanned since start listed ∧ listed.last = f.host

theorem enumerated_error {e : String} {fence : Nat} (hl : Later start h) :
    Enumerated since start ⟨.error e, h, fence⟩ :=
  ⟨hl, fun _ hbad => absurd hbad (by simp)⟩

theorem enumerated_ok {first : Option Host} {size fence : Nat}
    (hu : Underway since start first collected h)
    (hshort : (h.page since collected.length size).length < size) :
    Enumerated since start
      ⟨.ok ⟨collected ++ h.page since collected.length size, first.getD h, h⟩, h, fence⟩ := by
  obtain ⟨hstart, hs⟩ := hu.scanning
  refine ⟨hu.later, fun listed hok => ?_⟩
  obtain rfl := Except.ok.inj hok
  exact ⟨hs.finished hstart size hshort, rfl⟩

theorem page_full {offset size : Nat} (h : Host) (since : Option Nat)
    (hfull : ¬(h.page since offset size).length < size) :
    (h.page since offset size).length = size := by
  have hle : (h.page since offset size).length ≤ size := List.length_take_le _ _
  omega

theorem fetchPages_enumerated {fixed : Bool} {turns : List Turn} {first : Option Host}
    {index fence : Nat} {limit : Option Nat} (hu : Underway since start first collected h) :
    Enumerated since start (fetchPages since fixed turns h first collected index limit fence) := by
  induction turns generalizing h first collected index limit fence with
  | nil => exact enumerated_error hu.later
  | cons t turns ih =>
    have hmoved := hu.moves (Later.moves h t.moves)
    unfold fetchPages
    dsimp only
    split
    · exact enumerated_error hu.later
    split
    · exact enumerated_error hu.later
    split
    · exact enumerated_error hmoved.later
    · split
      · exact enumerated_error hmoved.later
      · exact ih hmoved
    · split
      · next hshort => exact enumerated_ok hmoved hshort
      · next hfull =>
        split
        · exact enumerated_error hmoved.later
        · obtain ⟨hstart, hs⟩ := hmoved.scanning
          exact ih ⟨hstart, hs.page _ (page_full _ _ hfull)⟩

/-- The pages of a fence have one size, so each begins where the last one ended. -/
theorem fenceScan_enumerated {size pages read : Nat} {turns : List Turn} {first : Option Host}
    (hu : Underway since start first collected h) (hread : collected.length = read * size) :
    Enumerated since start (fenceScan since size pages turns h first collected read) := by
  induction pages generalizing turns h first collected read with
  | zero => exact enumerated_error hu.later
  | succ pages ih =>
    cases turns with
    | nil => exact enumerated_error hu.later
    | cons t turns =>
      have hmoved := hu.moves (Later.moves h t.moves)
      unfold fenceScan
      dsimp only
      rw [← hread]
      split
      · exact enumerated_error hmoved.later
      split
      · next hshort => exact enumerated_ok hmoved hshort
      · next hfull =>
        obtain ⟨hstart, hs⟩ := hmoved.scanning
        have hsize := page_full _ _ hfull
        refine ih ⟨hstart, hs.page _ hsize⟩ ?_
        rw [List.length_append, hsize, hread, Nat.succ_mul]

theorem listAll_scanned {pages : List (List Move × Nat)} {first : Option Host}
    (hu : Underway none start first collected h) :
    Later start (listAll pages h first collected).2 ∧
      ∀ listed, (listAll pages h first collected).1 = some listed →
        Scanned none start listed ∧ listed.last = (listAll pages h first collected).2 := by
  induction pages generalizing h first collected with
  | nil => exact ⟨hu.later, fun _ hbad => absurd hbad (by simp [listAll])⟩
  | cons page pages ih =>
    obtain ⟨moves, size⟩ := page
    have hmoved := hu.moves (Later.moves h moves)
    obtain ⟨hstart, hs⟩ := hmoved.scanning
    unfold listAll
    dsimp only
    split
    · next hshort =>
      refine ⟨hmoved.later, fun listed hok => ?_⟩
      obtain rfl := Option.some.inj hok
      exact ⟨hs.finished hstart size hshort, rfl⟩
    · next hfull => exact ih ⟨hstart, hs.page _ (page_full _ _ hfull)⟩

end ReviewSensei.CommentList
