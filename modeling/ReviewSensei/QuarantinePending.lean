import ReviewSensei.QuarantineSteps
import Mathlib.Logic.Relation

/-! What is pending in the origins of a quarantine, its publication view, and what no successor can
change. -/
namespace ReviewSensei.Quarantine
open Session (isSha256 bind_ok)
open Evidence (digest validateManifest)
open Schema (wholeLine_of validate_object validateFields_cons validateFields_nil validate_integer
  validate_array)
open Holds (digestText)

section Pending
variable {rules : Rules} {inventories : Inventories}

theorem stateItems_inv {value : Option Json} {items : List Json} (h : stateItems value = .ok items) :
    value = some (.arr items) := by
  unfold stateItems at h
  split at h
  · cases h
    rfl
  · cases h

/-- What `pendingAssessments` has read when it answers. -/
structure PendingSpec (rules : Rules) (origins : Json) (inventories : Inventories) (state : Json)
    (scope : String) (pending : List (String × String)) (os : List Origin)
    (members : List (String × String)) (decisions : List Decision) : Prop where
  origins_ok : validateOrigins origins = .ok os
  scope_ok : isSha256 scope = true
  members_ok : allMembers inventories os = .ok members
  state_ok : ∃ items, state.get? "settlements" = some (.arr items) ∧
    validateAssessmentState rules state scope items.length = .ok decisions
  foreign : ∀ k ∈ decisions.map Decision.key, k ∈ members
  pending_eq : pending = members.filter (fun m => decide (m ∉ decisions.map Decision.key))

theorem pendingAssessments_inv {origins state : Json} {scope : String}
    {pending : List (String × String)}
    (h : pendingAssessments rules origins inventories state scope = .ok pending) :
    ∃ os members decisions,
      PendingSpec rules origins inventories state scope pending os members decisions := by
  unfold pendingAssessments at h
  obtain ⟨os, horigins, h1⟩ := bind_ok h
  obtain ⟨_, hscope, h2⟩ := bind_ok h1
  obtain ⟨_, _, h3⟩ := bind_ok h2
  obtain ⟨members, hmembers, h4⟩ := bind_ok h3
  obtain ⟨items, hitems, h5⟩ := bind_ok h4
  obtain ⟨decisions, hdecisions, h6⟩ := bind_ok h5
  obtain ⟨_, hforeign, h7⟩ := bind_ok h6
  cases h7
  exact ⟨os, members, decisions, horigins, ensure_inv hscope, hmembers,
    ⟨items, stateItems_inv hitems, hdecisions⟩, ensure_inv hforeign, rfl⟩

/-- An accepted successor: both states stand, and the earlier settlements head the later ones. -/
theorem requireAssessmentSuccessor_inv {origins before after : Json} {scope : String}
    (h : requireAssessmentSuccessor rules origins inventories before after scope = .ok ()) :
    ∃ p q earlier later, pendingAssessments rules origins inventories before scope = .ok p ∧
      pendingAssessments rules origins inventories after scope = .ok q ∧
      before.get? "settlements" = some (.arr earlier) ∧
      after.get? "settlements" = some (.arr later) ∧ earlier <+: later := by
  unfold requireAssessmentSuccessor at h
  obtain ⟨p, hp, h1⟩ := bind_ok h
  obtain ⟨q, hq, h2⟩ := bind_ok h1
  obtain ⟨earlier, hearlier, h3⟩ := bind_ok h2
  obtain ⟨later, hlater, h4⟩ := bind_ok h3
  have htake : later.take earlier.length = earlier := ensure_inv h4
  exact ⟨p, q, earlier, later, hp, hq, stateItems_inv hearlier, stateItems_inv hlater,
    htake ▸ List.take_prefix _ _⟩

/-- An instance of the complete inventory of one origin. -/
def IsMember (inventories : Inventories) (os : List Origin) (m : String × String) : Prop :=
  ∃ o ∈ os, m.1 = o.scope ∧ ∃ items, validateInventory (inventoryOf inventories o.scope) = .ok items ∧
    m.2 ∈ items.map InventoryItem.identity

/-- What an origin's inventory is once it agrees with its carrier. -/
structure MembersSpec (inventories : Inventories) (o : Origin) (members : List (String × String))
    (items : List InventoryItem) : Prop where
  inventory_ok : validateInventory (inventoryOf inventories o.scope) = .ok items
  members_eq : members = items.map (fun item => (o.scope, item.identity))
  count : (items.length : Int) = o.inventory.itemCount
  increasing : Increasing (items.map InventoryItem.identity)
  digests : ∀ item ∈ items, isSha256 item.identity = true

theorem readInventoryItems_inv {values : List Json} {items : List InventoryItem}
    (h : values.mapM readInventoryItem = .ok items) :
    ∀ item ∈ items, isSha256 item.identity = true := by
  induction values generalizing items with
  | nil =>
    cases h
    exact fun _ hitem => absurd hitem List.not_mem_nil
  | cons v vs ih =>
    rw [List.mapM_cons] at h
    obtain ⟨first, hfirst, h1⟩ := bind_ok h
    obtain ⟨rest, hrest, h2⟩ := bind_ok h1
    cases h2
    unfold readInventoryItem at hfirst
    obtain ⟨_, _, h3⟩ := bind_ok hfirst
    obtain ⟨identity, hidentity, h4⟩ := bind_ok h3
    obtain ⟨_, _, h5⟩ := bind_ok h4
    cases h5
    intro item hitem
    rcases List.mem_cons.mp hitem with rfl | hitem
    · exact (Json.readText_inv hidentity).2
    · exact ih hrest item hitem

theorem originMembers_inv {o : Origin} {members : List (String × String)}
    (h : originMembers inventories o = .ok members) :
    ∃ items, MembersSpec inventories o members items := by
  unfold originMembers at h
  obtain ⟨items, hitems, h1⟩ := bind_ok h
  obtain ⟨_, hsame, h2⟩ := bind_ok h1
  cases h2
  have hsame := ensure_inv hsame
  have hinventory := hitems
  unfold validateInventory at hitems
  obtain ⟨_, _, h3⟩ := bind_ok hitems
  obtain ⟨_, _, h4⟩ := bind_ok h3
  obtain ⟨_, _, h5⟩ := bind_ok h4
  obtain ⟨_, _, h6⟩ := bind_ok h5
  obtain ⟨_, hread, h7⟩ := bind_ok h6
  obtain ⟨_, hincreasing, h8⟩ := bind_ok h7
  cases h8
  exact ⟨items, hinventory, rfl, hsame.2.2, ensure_inv hincreasing, readInventoryItems_inv hread⟩

theorem MembersSpec.mem_iff {o : Origin} {members : List (String × String)}
    {items : List InventoryItem} (h : MembersSpec inventories o members items)
    (m : String × String) :
    m ∈ members ↔ m.1 = o.scope ∧ m.2 ∈ items.map InventoryItem.identity := by
  rw [h.members_eq]
  constructor
  · intro hm
    obtain ⟨item, hitem, rfl⟩ := List.mem_map.mp hm
    exact ⟨rfl, List.mem_map_of_mem hitem⟩
  · rintro ⟨hscope, hmem⟩
    obtain ⟨item, hitem, heq⟩ := List.mem_map.mp hmem
    exact List.mem_map.mpr ⟨item, hitem, Prod.ext hscope.symm heq⟩

theorem allMembers_cons {o : Origin} {os : List Origin} {members : List (String × String)}
    (h : allMembers inventories (o :: os) = .ok members) :
    ∃ first rest items, members = first ++ rest ∧ MembersSpec inventories o first items ∧
      allMembers inventories os = .ok rest := by
  rw [allMembers] at h
  obtain ⟨first, hfirst, h1⟩ := bind_ok h
  obtain ⟨rest, hrest, h2⟩ := bind_ok h1
  cases h2
  obtain ⟨items, hspec⟩ := originMembers_inv hfirst
  exact ⟨first, rest, items, rfl, hspec, hrest⟩

theorem allMembers_mem {os : List Origin} {members : List (String × String)}
    (h : allMembers inventories os = .ok members) (m : String × String) :
    m ∈ members ↔ IsMember inventories os m := by
  induction os generalizing members with
  | nil =>
    cases h
    constructor
    · exact fun hm => absurd hm List.not_mem_nil
    · rintro ⟨o, ho, _⟩
      exact absurd ho List.not_mem_nil
  | cons o os ih =>
    obtain ⟨first, rest, items, rfl, hspec, hrest⟩ := allMembers_cons h
    rw [List.mem_append, hspec.mem_iff, ih hrest]
    constructor
    · rintro (⟨hscope, hmem⟩ | ⟨p, hp, hmember⟩)
      · exact ⟨o, List.mem_cons_self, hscope, items, hspec.inventory_ok, hmem⟩
      · exact ⟨p, List.mem_cons_of_mem _ hp, hmember⟩
    · rintro ⟨p, hp, hscope, others, hothers, hmem⟩
      rcases List.mem_cons.mp hp with rfl | hp
      · rw [hspec.inventory_ok] at hothers
        cases hothers
        exact .inl ⟨hscope, hmem⟩
      · exact .inr ⟨p, hp, hscope, others, hothers, hmem⟩

theorem allMembers_digests {os : List Origin} {members : List (String × String)}
    (h : allMembers inventories os = .ok members) :
    ∀ m ∈ members, m.1 ∈ os.map Origin.scope ∧ isSha256 m.2 = true := by
  induction os generalizing members with
  | nil =>
    cases h
    exact fun _ hm => absurd hm List.not_mem_nil
  | cons o os ih =>
    obtain ⟨first, rest, items, rfl, hspec, hrest⟩ := allMembers_cons h
    intro m hm
    rcases List.mem_append.mp hm with hm | hm
    · obtain ⟨hscope, hmem⟩ := (hspec.mem_iff m).mp hm
      obtain ⟨item, hitem, heq⟩ := List.mem_map.mp hmem
      rw [hscope, ← heq]
      exact ⟨List.mem_cons_self, hspec.digests item hitem⟩
    · obtain ⟨hscope, hdigest⟩ := ih hrest m hm
      exact ⟨List.mem_cons_of_mem _ hscope, hdigest⟩

/-- Origins in order, and instances in order within each, put the members in order. -/
theorem allMembers_increasing {os : List Origin} {members : List (String × String)}
    (h : allMembers inventories os = .ok members) (hos : Increasing (os.map Origin.scope)) :
    IncreasingPairs members := by
  induction os generalizing members with
  | nil =>
    cases h
    exact List.Pairwise.nil
  | cons o os ih =>
    obtain ⟨first, rest, items, rfl, hspec, hrest⟩ := allMembers_cons h
    have hos' := List.pairwise_cons.mp hos
    refine List.pairwise_append.mpr ⟨?_, ih hrest hos'.2, ?_⟩
    · rw [hspec.members_eq, List.pairwise_map]
      have hincreasing := List.pairwise_map.mp hspec.increasing
      exact hincreasing.imp fun hlt => .inr ⟨rfl, hlt⟩
    · intro a ha b hb
      have hfirst := ((hspec.mem_iff a).mp ha).1
      have hsecond := (allMembers_digests hrest b hb).1
      rw [hfirst]
      exact .inl (hos'.1 _ hsecond)

/-- An origin has as many members as its carrier counts. -/
theorem allMembers_count {os : List Origin} {members : List (String × String)}
    (h : allMembers inventories os = .ok members) (hos : (os.map Origin.scope).Nodup) :
    ∀ o ∈ os, ((members.filter (fun m => m.1 = o.scope)).length : Int) = o.inventory.itemCount := by
  induction os generalizing members with
  | nil => exact fun _ ho => absurd ho List.not_mem_nil
  | cons first os ih =>
    obtain ⟨head, rest, items, rfl, hspec, hrest⟩ := allMembers_cons h
    rw [List.map_cons, List.nodup_cons] at hos
    intro o ho
    rw [List.filter_append, List.length_append]
    rcases List.mem_cons.mp ho with rfl | ho
    · have hall : head.filter (fun m => m.1 = o.scope) = head := by
        rw [List.filter_eq_self]
        intro m hm
        exact decide_eq_true ((hspec.mem_iff m).mp hm).1
      have hnone : rest.filter (fun m => m.1 = o.scope) = [] := by
        rw [List.filter_eq_nil_iff]
        intro m hm heq
        rw [decide_eq_true_eq] at heq
        exact hos.1 (heq ▸ (allMembers_digests hrest m hm).1)
      rw [hall, hnone, hspec.members_eq, List.length_map, List.length_nil, Nat.add_zero]
      exact hspec.count
    · have hnone : head.filter (fun m => m.1 = o.scope) = [] := by
        rw [List.filter_eq_nil_iff]
        intro m hm heq
        rw [decide_eq_true_eq] at heq
        apply hos.1
        rw [← ((hspec.mem_iff m).mp hm).1, heq]
        exact List.mem_map_of_mem ho
      have hcount := ih hrest hos.2 o ho
      rw [hnone, List.length_nil, Nat.zero_add]
      exact hcount

end Pending

section Origins

theorem readOrigin_inv {value : Json} {o : Origin} (h : readOrigin value = .ok o) :
    isSha256 o.scope = true ∧ o.kind ∈ originKinds ∧ isSha256 o.inventory.sha256 = true ∧
      0 ≤ o.inventory.itemCount ∧ o.inventory.itemCount ≤ maxOriginAssessments := by
  unfold readOrigin at h
  obtain ⟨_, _, h1⟩ := bind_ok h
  obtain ⟨kind, hkind, h2⟩ := bind_ok h1
  obtain ⟨scope, hscope, h3⟩ := bind_ok h2
  obtain ⟨source, _, h4⟩ := bind_ok h3
  obtain ⟨inventory, hinventory, h5⟩ := bind_ok h4
  obtain ⟨_, hchecks, h6⟩ := bind_ok h5
  cases h6
  have hchecks := ensure_inv hchecks
  have hkind := (Json.readText_inv hkind).2
  rw [List.contains_eq_mem, decide_eq_true_eq] at hkind
  refine ⟨(Json.readText_inv hscope).2, hkind, ?_, hchecks.2.1, hchecks.2.2.1⟩
  unfold readInventoryCarrier at hinventory
  split at hinventory
  · obtain ⟨_, _, h7⟩ := bind_ok hinventory
    obtain ⟨_, _, h8⟩ := bind_ok h7
    obtain ⟨_, _, h9⟩ := bind_ok h8
    obtain ⟨_, _, h10⟩ := bind_ok h9
    obtain ⟨_, hsha, h11⟩ := bind_ok h10
    cases h11
    exact (Json.readText_inv hsha).2
  · obtain ⟨m, hm, h7⟩ := bind_ok hinventory
    cases h7
    unfold validateManifest at hm
    obtain ⟨_, _, k1⟩ := bind_ok hm
    obtain ⟨_, _, k2⟩ := bind_ok k1
    obtain ⟨_, _, k3⟩ := bind_ok k2
    obtain ⟨_, _, k4⟩ := bind_ok k3
    obtain ⟨_, _, k5⟩ := bind_ok k4
    obtain ⟨_, _, k6⟩ := bind_ok k5
    obtain ⟨_, hsha, k7⟩ := bind_ok k6
    obtain ⟨_, _, k8⟩ := bind_ok k7
    obtain ⟨⟨_, _⟩, _, k9⟩ := bind_ok k8
    obtain ⟨_, _, k10⟩ := bind_ok k9
    cases k10
    exact (Json.readText_inv hsha).2

theorem readOrigins_inv {values : List Json} {common : Option (String × Option Int × Int × String)}
    {os : List Origin} (h : readOrigins common values = .ok os) :
    os.length = values.length ∧ ∀ o ∈ os, ∃ value ∈ values, readOrigin value = .ok o := by
  induction values generalizing common os with
  | nil =>
    cases h
    exact ⟨rfl, fun _ ho => absurd ho List.not_mem_nil⟩
  | cons v vs ih =>
    rw [readOrigins] at h
    obtain ⟨first, hfirst, h1⟩ := bind_ok h
    obtain ⟨_, _, h2⟩ := bind_ok h1
    obtain ⟨rest, hrest, h3⟩ := bind_ok h2
    cases h3
    obtain ⟨hlength, hmem⟩ := ih hrest
    refine ⟨by rw [List.length_cons, List.length_cons, hlength], ?_⟩
    intro o ho
    rcases List.mem_cons.mp ho with rfl | ho
    · exact ⟨v, List.mem_cons_self, hfirst⟩
    · obtain ⟨value, hvalue, hread⟩ := hmem o ho
      exact ⟨value, List.mem_cons_of_mem _ hvalue, hread⟩

/-- What `validateOrigins` has checked. -/
structure OriginsSpec (os : List Origin) : Prop where
  count : 1 ≤ os.length ∧ os.length ≤ maxOrigins
  increasing : Increasing (os.map Origin.scope)
  kinds : (os.map Origin.kind).Nodup
  complete : ArePublished (os.map Origin.kind) ∨ AreLegacy (os.map Origin.kind)
  each : ∀ o ∈ os, isSha256 o.scope = true ∧ o.kind ∈ originKinds ∧
    isSha256 o.inventory.sha256 = true ∧ 0 ≤ o.inventory.itemCount ∧
    o.inventory.itemCount ≤ maxOriginAssessments

theorem validateOrigins_inv {value : Json} {os : List Origin} (h : validateOrigins value = .ok os) :
    OriginsSpec os := by
  unfold validateOrigins at h
  obtain ⟨_, _, h1⟩ := bind_ok h
  obtain ⟨version, _, h2⟩ := bind_ok h1
  obtain ⟨items, hitems, h3⟩ := bind_ok h2
  obtain ⟨_, _, h4⟩ := bind_ok h3
  obtain ⟨read, hread, h5⟩ := bind_ok h4
  obtain ⟨_, hcomplete, h6⟩ := bind_ok h5
  cases h6
  obtain ⟨hincreasing, hkinds, hcomplete⟩ := ensure_inv hcomplete
  obtain ⟨hlength, hmem⟩ := readOrigins_inv hread
  have hcount : 1 ≤ items.length ∧ items.length ≤ maxOrigins := by
    unfold originItems at hitems
    split at hitems
    · split at hitems
      · cases hitems
        assumption
      · cases hitems
    · cases hitems
  refine ⟨by rw [hlength]; exact hcount, hincreasing, hkinds, ?_, ?_⟩
  · split at hcomplete
    · exact .inl hcomplete
    · exact .inr hcomplete
  · intro o ho
    obtain ⟨value, _, hvalue⟩ := hmem o ho
    exact readOrigin_inv hvalue

theorem Increasing.nodup {xs : List String} (h : Increasing xs) : xs.Nodup := by
  apply List.Pairwise.imp _ h
  intro a b hab heq
  exact String.lt_irrefl a (heq ▸ hab)

theorem IncreasingPairs.nodup {ms : List (String × String)} (h : IncreasingPairs ms) : ms.Nodup := by
  apply h.imp
  intro a b hab heq
  subst heq
  rcases hab with hlt | ⟨_, hlt⟩
  · exact absurd hlt (String.lt_irrefl _)
  · exact absurd hlt (String.lt_irrefl _)

end Origins

section Views
variable {rules : Rules} {inventories : Inventories} {origins state : Json} {scope : String}
  {pending : List (String × String)}

/-- The members of the complete inventories without a decision, and no others. -/
theorem mem_pending {os : List Origin} {members : List (String × String)}
    {decisions : List Decision}
    (h : PendingSpec rules origins inventories state scope pending os members decisions)
    (m : String × String) :
    m ∈ pending ↔ IsMember inventories os m ∧ m ∉ decisions.map Decision.key := by
  rw [h.pending_eq, List.mem_filter, decide_eq_true_eq, allMembers_mem h.members_ok]

theorem pending_increasing {os : List Origin} {members : List (String × String)}
    {decisions : List Decision}
    (h : PendingSpec rules origins inventories state scope pending os members decisions) :
    IncreasingPairs pending := by
  have hall := allMembers_increasing h.members_ok (validateOrigins_inv h.origins_ok).increasing
  rw [h.pending_eq]
  exact List.Pairwise.filter _ hall

theorem validate_view_origin {o : Origin} (hscope : isSha256 o.scope = true)
    (hkind : o.kind ∈ originKinds) (hsha : isSha256 o.inventory.sha256 = true)
    (hcount : 0 ≤ o.inventory.itemCount ∧ o.inventory.itemCount ≤ 100) :
    (Schema.object [("scope_sha256", digestText), ("kind", .choice originKinds),
      ("inventory_sha256", digestText), ("item_count", .integer 0 (some 100))]).validate
        o.view.toDocument = true :=
  validate_object rfl
    (validateFields_cons rfl (validate_digest hscope)
    (validateFields_cons rfl (List.contains_iff_mem.mpr hkind)
    (validateFields_cons rfl (validate_digest hsha)
    (validateFields_cons rfl (validate_integer hcount) (validateFields_nil _)))))

theorem validate_pending {m : String × String} (hscope : isSha256 m.1 = true)
    (hdigest : isSha256 m.2 = true) :
    (Schema.object [("origin_scope_sha256", digestText), ("instance", digestText)]).validate
      (pendingDocument m) = true :=
  validate_object rfl
    (validateFields_cons rfl (validate_digest hscope)
    (validateFields_cons rfl (validate_digest hdigest) (validateFields_nil _)))

theorem length_le_counts (bound : Nat) {scopes : List String} (ms : List (String × String))
    (hmem : ∀ m ∈ ms, m.1 ∈ scopes)
    (hcount : ∀ s ∈ scopes, (ms.filter (fun m => m.1 = s)).length ≤ bound) :
    ms.length ≤ scopes.length * bound := by
  induction scopes generalizing ms with
  | nil =>
    cases ms with
    | nil => exact Nat.zero_le _
    | cons m ms => exact absurd (hmem m List.mem_cons_self) List.not_mem_nil
  | cons s scopes ih =>
    have hsplit := List.length_eq_length_filter_add (l := ms) (fun m => decide (m.1 = s))
    have hfirst := hcount s List.mem_cons_self
    have hrest := ih (ms.filter (fun m => !decide (m.1 = s))) (by
      intro m hm
      rw [List.mem_filter, Bool.not_eq_true', decide_eq_false_iff_not] at hm
      rcases List.mem_cons.mp (hmem m hm.1) with heq | hin
      · exact absurd heq hm.2
      · exact hin) (by
      intro t ht
      refine le_trans ?_ (hcount t (List.mem_cons_of_mem _ ht))
      exact (List.filter_sublist.filter _).length_le)
    rw [List.length_cons, Nat.succ_mul]
    omega

/-- The publication view of what is pending is accepted as it stands. -/
theorem assessmentView_ok (h : pendingAssessments rules origins inventories state scope = .ok pending)
    (freshHumanPending : Bool) :
    ∃ os, validateOrigins origins = .ok os ∧
      assessmentView rules origins inventories state scope freshHumanPending =
        .ok (publicationView os state scope pending freshHumanPending) := by
  obtain ⟨os, members, decisions, hspec⟩ := pendingAssessments_inv h
  have hos := validateOrigins_inv hspec.origins_ok
  have hincreasing := pending_increasing hspec
  have hscopes : (os.map Origin.view).map ViewOrigin.scope = os.map Origin.scope := by
    rw [List.map_map]
    rfl
  have hkinds : (os.map Origin.view).map ViewOrigin.kind = os.map Origin.kind := by
    rw [List.map_map]
    rfl
  have hmembers : ∀ m ∈ pending, m.1 ∈ os.map Origin.scope ∧ isSha256 m.2 = true := by
    intro m hm
    rw [hspec.pending_eq, List.mem_filter] at hm
    exact allMembers_digests hspec.members_ok m hm.1
  have hdigest : ∀ s ∈ os.map Origin.scope, isSha256 s = true := by
    intro s hs
    obtain ⟨o, ho, rfl⟩ := List.mem_map.mp hs
    exact (hos.each o ho).1
  have hcount : ∀ o ∈ os, ((pending.filter (fun m => m.1 = o.scope)).length : Int) ≤
      o.inventory.itemCount := by
    intro o ho
    have hall := allMembers_count hspec.members_ok hos.increasing.nodup o ho
    have hle : (pending.filter (fun m => m.1 = o.scope)).length ≤
        (members.filter (fun m => m.1 = o.scope)).length := by
      rw [hspec.pending_eq]
      exact (List.filter_sublist.filter _).length_le
    omega
  have htotal : pending.length ≤ os.length * 100 := by
    have hle := length_le_counts 100 pending (fun m hm => (hmembers m hm).1) (by
      intro s hs
      obtain ⟨o, ho, rfl⟩ := List.mem_map.mp hs
      have hfew := hcount o ho
      have hmax : ((maxOriginAssessments : Nat) : Int) = 100 := rfl
      have hbound := (hos.each o ho).2.2.2.2
      omega)
    rw [List.length_map] at hle
    exact hle
  have hmaxo : maxOrigins = 2 := rfl
  have hmaxa : maxOriginAssessments = 100 := rfl
  have hlength : (os.map Origin.view).length = os.length := List.length_map _
  have hosize := hos.count
  have hpending : pending.length ≤ 200 := by omega
  have hschema : (publicationView os state scope pending freshHumanPending).MeetsSchema := by
    refine ⟨validate_digest hspec.scope_ok, validate_digest (isSha256_sha256 _), ?_, ?_, ?_,
      hincreasing.nodup⟩
    · apply validate_array
      · rw [List.length_map]
        exact hlength ▸ hosize.1
      · rw [List.length_map]
        exact hlength ▸ hosize.2
      · intro j hj
        obtain ⟨v, hv, rfl⟩ := List.mem_map.mp hj
        obtain ⟨o, ho, rfl⟩ := List.mem_map.mp hv
        obtain ⟨h1, h2, h3, h4, h5⟩ := hos.each o ho
        exact validate_view_origin h1 h2 h3 ⟨h4, h5⟩
    · apply List.Nodup.of_map ViewOrigin.scope
      exact hscopes ▸ hos.increasing.nodup
    · apply validate_array (Nat.zero_le _)
      · rw [List.length_map]
        exact hpending
      · intro j hj
        obtain ⟨m, hm, rfl⟩ := List.mem_map.mp hj
        obtain ⟨h1, h2⟩ := hmembers m hm
        exact validate_pending (hdigest _ h1) h2
  refine ⟨os, hspec.origins_ok, ?_⟩
  unfold assessmentView
  rw [ok_bind h, ok_bind hspec.origins_ok]
  unfold validateView
  have hshape : isSha256 scope = true ∧ isSha256 (digest state) = true ∧
      1 ≤ (os.map Origin.view).length ∧ (os.map Origin.view).length ≤ maxOrigins ∧
      pending.length ≤ maxOrigins * maxOriginAssessments := by
    have hmul : maxOrigins * maxOriginAssessments = 200 := rfl
    refine ⟨hspec.scope_ok, isSha256_sha256 _, ?_, ?_, ?_⟩ <;> omega
  have hviews : ∀ v ∈ os.map Origin.view, isSha256 v.scope = true ∧
      isSha256 v.inventorySha256 = true ∧ v.kind ∈ originKinds ∧ 0 ≤ v.itemCount ∧
      v.itemCount ≤ maxOriginAssessments := by
    intro v hv
    obtain ⟨o, ho, rfl⟩ := List.mem_map.mp hv
    obtain ⟨h1, h2, h3, h4, h5⟩ := hos.each o ho
    exact ⟨h1, h3, h2, h4, h5⟩
  have hcounts : ∀ v ∈ os.map Origin.view,
      ((pending.filter (fun m => m.1 = v.scope)).length : Int) ≤ v.itemCount := by
    intro v hv
    obtain ⟨o, ho, rfl⟩ := List.mem_map.mp hv
    exact hcount o ho
  rw [← hscopes] at hmembers
  have hcomplete : Increasing ((os.map Origin.view).map ViewOrigin.scope) ∧
      ((os.map Origin.view).map ViewOrigin.kind).Nodup ∧
      (ArePublished ((os.map Origin.view).map ViewOrigin.kind) ∨
        AreLegacy ((os.map Origin.view).map ViewOrigin.kind)) := by
    rw [hscopes, hkinds]
    exact ⟨hos.increasing, hos.kinds, hos.complete⟩
  refine (ensure_bind hshape _).trans ?_
  refine (ensure_bind hschema _).trans ?_
  refine (ensure_bind hviews _).trans ?_
  refine (ensure_bind hcomplete _).trans ?_
  refine (ensure_bind hmembers _).trans ?_
  exact ensure_bind ⟨hincreasing, hcounts⟩ _

end Views

section Successors
variable {rules : Rules} {origins : Json} {inventories : Inventories} {scope : String}

theorem mapM_append_inv {α β : Type} {f : α → Except String β} {xs ys : List α} {zs : List β}
    (h : (xs ++ ys).mapM f = .ok zs) :
    ∃ as bs, xs.mapM f = .ok as ∧ ys.mapM f = .ok bs ∧ zs = as ++ bs := by
  induction xs generalizing zs with
  | nil => exact ⟨[], zs, rfl, h, rfl⟩
  | cons x xs ih =>
    rw [List.cons_append, List.mapM_cons] at h
    obtain ⟨first, hfirst, h1⟩ := bind_ok h
    obtain ⟨rest, hrest, h2⟩ := bind_ok h1
    cases h2
    obtain ⟨as, bs, has, hbs, rfl⟩ := ih hrest
    refine ⟨first :: as, bs, ?_, hbs, rfl⟩
    rw [List.mapM_cons, ok_bind hfirst, ok_bind has]
    rfl

theorem validateAssessmentState_inv {value : Json} {itemCount : Int} {decisions : List Decision}
    {items : List Json} (hitems : value.get? "settlements" = some (.arr items))
    (h : validateAssessmentState rules value scope itemCount = .ok decisions) :
    items.mapM (readDecision rules) = .ok decisions := by
  unfold validateAssessmentState at h
  obtain ⟨_, _, h1⟩ := bind_ok h
  obtain ⟨read, hread, h2⟩ := bind_ok h1
  obtain ⟨out, hout, h3⟩ := bind_ok h2
  obtain ⟨_, _, h4⟩ := bind_ok h3
  cases h4
  rw [hitems, settlementItems] at hread
  split at hread
  · cases hread
    exact hout
  · cases hread

/-- One accepted step of the assessment state. -/
def Admits (rules : Rules) (origins : Json) (inventories : Inventories) (scope : String)
    (before after : Json) : Prop :=
  requireAssessmentSuccessor rules origins inventories before after scope = .ok ()

/-- An accepted successor keeps every decision, and what is pending after it was pending before. -/
theorem Admits.pending {before after : Json} (h : Admits rules origins inventories scope before after)
    {p : List (String × String)}
    (hp : pendingAssessments rules origins inventories before scope = .ok p) :
    ∃ q, pendingAssessments rules origins inventories after scope = .ok q ∧ q.Sublist p := by
  obtain ⟨p', q, earlier, later, hp', hq, hearlier, hlater, hprefix⟩ :=
    requireAssessmentSuccessor_inv h
  rw [hp] at hp'
  cases hp'
  refine ⟨q, hq, ?_⟩
  obtain ⟨os, members, before', hbefore⟩ := pendingAssessments_inv hp
  obtain ⟨os', members', after', hafter⟩ := pendingAssessments_inv hq
  have hos := hbefore.origins_ok.symm.trans hafter.origins_ok
  cases hos
  have hmembers := hbefore.members_ok.symm.trans hafter.members_ok
  cases hmembers
  obtain ⟨items, hitems, hstate⟩ := hbefore.state_ok
  obtain ⟨items', hitems', hstate'⟩ := hafter.state_ok
  rw [hearlier] at hitems
  cases hitems
  rw [hlater] at hitems'
  cases hitems'
  obtain ⟨more, rfl⟩ := hprefix
  have hread := validateAssessmentState_inv hearlier hstate
  obtain ⟨as, bs, has, _, rfl⟩ := mapM_append_inv (validateAssessmentState_inv hlater hstate')
  rw [hread] at has
  cases has
  rw [hbefore.pending_eq, hafter.pending_eq]
  apply List.monotone_filter_right
  intro m hm
  rw [decide_eq_true_eq] at hm ⊢
  intro hmem
  apply hm
  rw [List.map_append]
  exact List.mem_append_left _ hmem

/-- What is pending only shrinks along any number of accepted successors. -/
theorem pending_shrinks {before after : Json}
    (h : Relation.ReflTransGen (Admits rules origins inventories scope) before after)
    {p q : List (String × String)}
    (hp : pendingAssessments rules origins inventories before scope = .ok p)
    (hq : pendingAssessments rules origins inventories after scope = .ok q) : q.Sublist p := by
  induction h generalizing q with
  | refl =>
    rw [hp] at hq
    cases hq
    exact List.Sublist.refl _
  | tail _ hstep ih =>
    obtain ⟨m, _, _, _, hm, _, _, _, _⟩ := requireAssessmentSuccessor_inv hstep
    obtain ⟨q', hq', hsub⟩ := hstep.pending hm
    rw [hq] at hq'
    cases hq'
    exact hsub.trans (ih hm)

/-- A decision discharges its own origin's member and no other. -/
theorem decision_discharges {decisions : List Decision} {d : Decision}
    (h : Admits rules origins inventories scope (decisionState scope decisions)
      (decisionState scope (decisions ++ [d]))) {p q : List (String × String)}
    (hp : pendingAssessments rules origins inventories (decisionState scope decisions) scope = .ok p)
    (hq : pendingAssessments rules origins inventories (decisionState scope (decisions ++ [d])) scope =
      .ok q) (m : String × String) : m ∈ q ↔ m ∈ p ∧ m ≠ d.key := by
  obtain ⟨os, members, before, hbefore⟩ := pendingAssessments_inv hp
  obtain ⟨os', members', after, hafter⟩ := pendingAssessments_inv hq
  have hos := hbefore.origins_ok.symm.trans hafter.origins_ok
  cases hos
  obtain ⟨items, _, hstate⟩ := hbefore.state_ok
  obtain ⟨items', _, hstate'⟩ := hafter.state_ok
  obtain ⟨rfl, _⟩ := validateState_inv _ hstate
  obtain ⟨rfl, _⟩ := validateState_inv _ hstate'
  rw [mem_pending hbefore, mem_pending hafter, List.map_append, List.mem_append, List.map_singleton,
    List.mem_singleton]
  constructor
  · rintro ⟨hmember, hnot⟩
    exact ⟨⟨hmember, fun hm => hnot (.inl hm)⟩, fun heq => hnot (.inr heq)⟩
  · rintro ⟨⟨hmember, hnot⟩, hne⟩
    exact ⟨hmember, fun hm => hm.elim hnot hne⟩

end Successors

section Lineages
variable {rules : Rules}

/-- The origin stays as it is, and the count of decisions does not fall. -/
def Lineage.Keeps (before after : Lineage) : Prop :=
  (∀ k ∈ immutableFields ++ ["scope_sha256"], before.document.get? k = after.document.get? k) ∧
    before.itemCount ≤ after.itemCount

theorem Lineage.Keeps.refl (l : Lineage) : l.Keeps l := ⟨fun _ _ => rfl, le_refl _⟩

theorem Lineage.Keeps.trans {a b c : Lineage} (hab : a.Keeps b) (hbc : b.Keeps c) : a.Keeps c :=
  ⟨fun k hk => (hab.1 k hk).trans (hbc.1 k hk), le_trans hab.2 hbc.2⟩

/-- Nothing comes of no quarantine, and a quarantine is kept. -/
def Preserved : Option Lineage → Option Lineage → Prop
  | none, none => True
  | some before, some after => before.Keeps after
  | _, _ => False

theorem normalizeDocument_inv {value : Json} {l : Lineage}
    (h : normalizeDocument rules value = .ok l) :
    l.document = value.sortKeys ∧ l.document.get? "scope_sha256" = some (.str l.scope) ∧
      ∃ binding, readStateCarrier rules l.state l.scope = .ok (binding, l.itemCount) := by
  unfold normalizeDocument at h
  obtain ⟨_, _, h1⟩ := bind_ok h
  obtain ⟨scope, hscope, h2⟩ := bind_ok h1
  obtain ⟨_, _, h3⟩ := bind_ok h2
  obtain ⟨_, _, h4⟩ := bind_ok h3
  obtain ⟨_, _, h5⟩ := bind_ok h4
  obtain ⟨⟨binding, itemCount⟩, hcarrier, h6⟩ := bind_ok h5
  obtain ⟨_, _, h7⟩ := bind_ok h6
  cases h7
  refine ⟨rfl, ?_, binding, hcarrier⟩
  unfold readLineageValues at hscope
  obtain ⟨_, _, k1⟩ := bind_ok hscope
  obtain ⟨_, _, k2⟩ := bind_ok k1
  obtain ⟨_, _, k3⟩ := bind_ok k2
  obtain ⟨_, _, k4⟩ := bind_ok k3
  obtain ⟨_, _, k5⟩ := bind_ok k4
  obtain ⟨_, _, k6⟩ := bind_ok k5
  obtain ⟨_, _, k7⟩ := bind_ok k6
  obtain ⟨_, hread, k8⟩ := bind_ok k7
  obtain ⟨_, _, k9⟩ := bind_ok k8
  cases k9
  exact (Json.readText_inv hread).1

theorem normalizeLineage_some {value : Option Json} {l : Lineage}
    (h : normalizeLineage rules value = .ok (some l)) :
    ∃ document, value = some document ∧ normalizeDocument rules document = .ok l := by
  cases value with
  | none => cases h
  | some document =>
    refine ⟨document, rfl, ?_⟩
    change (normalizeDocument rules document).map some = .ok (some l) at h
    cases hd : normalizeDocument rules document with
    | error e =>
      rw [hd] at h
      cases h
    | ok l' =>
      rw [hd] at h
      cases h
      rfl

/-- One accepted step of a lineage. -/
def LineageStep (rules : Rules) (before after : Option Json) : Prop :=
  requireLineageSuccessor rules before after = .ok ()

theorem LineageStep.preserved {before after : Option Json} (h : LineageStep rules before after) :
    ∃ b a, normalizeLineage rules before = .ok b ∧ normalizeLineage rules after = .ok a ∧
      Preserved b a := by
  unfold LineageStep requireLineageSuccessor at h
  obtain ⟨b, hb, h1⟩ := bind_ok h
  obtain ⟨a, ha, h2⟩ := bind_ok h1
  refine ⟨b, a, hb, ha, ?_⟩
  unfold requireKeptLineage at h2
  cases b with
  | none =>
    cases a with
    | none => trivial
    | some a => cases h2
  | some b =>
    cases a with
    | none => cases h2
    | some a =>
      obtain ⟨_, hfields, h3⟩ := bind_ok h2
      obtain ⟨_, hcount, h4⟩ := bind_ok h3
      have hfields := ensure_inv hfields
      have hcount := ensure_inv hcount
      refine ⟨hfields, ?_⟩
      rcases hcount with hstate | hcount
      · -- an unchanged carrier has the count it had
        obtain ⟨_, _, hb⟩ := normalizeLineage_some hb
        obtain ⟨_, _, ha⟩ := normalizeLineage_some ha
        obtain ⟨_, hbscope, bb, hbcarrier⟩ := normalizeDocument_inv hb
        obtain ⟨_, hascope, ab, hacarrier⟩ := normalizeDocument_inv ha
        have hscope := hfields "scope_sha256" (by decide)
        rw [hbscope, hascope] at hscope
        rw [hstate, Json.str.inj (Option.some.inj hscope), hacarrier] at hbcarrier
        exact (Prod.mk.inj (Except.ok.inj hbcarrier)).2.ge
      · omega

/-- Along any chain of accepted lineages the origin never changes and no decision is uncounted. -/
theorem lineage_preserved {before after : Option Json}
    (h : Relation.ReflTransGen (LineageStep rules) before after) {b : Option Lineage}
    (hb : normalizeLineage rules before = .ok b) :
    ∃ a, normalizeLineage rules after = .ok a ∧ Preserved b a := by
  induction h with
  | refl =>
    refine ⟨b, hb, ?_⟩
    cases b with
    | none => trivial
    | some l => exact Lineage.Keeps.refl l
  | tail _ hstep ih =>
    obtain ⟨m, hm, hpreserved⟩ := ih
    obtain ⟨m', a, hm', ha, hkept⟩ := hstep.preserved
    rw [hm] at hm'
    cases hm'
    refine ⟨a, ha, ?_⟩
    cases b with
    | none =>
      cases m with
      | none => exact hkept
      | some m => cases hpreserved
    | some b =>
      cases m with
      | none => cases hpreserved
      | some m =>
        cases a with
        | none => cases hkept
        | some a => exact Lineage.Keeps.trans hpreserved hkept

end Lineages
end ReviewSensei.Quarantine
