import ReviewSensei.PublicationSelection

/-! The steps of a selection: which candidates are accepted, in which order, and which are taken. -/
namespace ReviewSensei.Selection
open Session (bind_ok)
open CappedChoice (choose)

section Admission
variable {printable : String → Bool} {slots : List (PublishedSlot printable)}
  {candidates seen : List PublicationCandidate} {c : PublicationCandidate}
  {inventory inventory' : Inventory}

theorem set_new {κ α : Type} [DecidableEq κ] {d : Dict κ α} {k : κ} {v : α}
    (h : d.get? k = none) : d.set k v = d ++ [(k, v)] := by
  induction d with
  | nil => rfl
  | cons p rest ih =>
    obtain ⟨k', v'⟩ := p
    rw [Dict.get?] at h
    split at h
    · cases h
    · next hne => rw [Dict.set, if_neg hne, ih h, List.cons_append]

/-- What the candidates have to be to one another and to the slots. -/
structure Admissible (slots : List (PublishedSlot printable))
    (candidates : List PublicationCandidate) : Prop where
  instances : ∀ c ∈ candidates, ∀ d ∈ candidates, c.instanceId = d.instanceId → c = d
  known : ∀ c ∈ candidates, ∀ target ∈ c.existingTarget,
    ∃ slot, slotAt slots target = some slot ∧ slot.state ≠ .uncertain
  targets : ∀ c ∈ candidates, ∀ d ∈ candidates, ∀ target, c.existingTarget = some target →
    d.existingTarget = some target → c = d

theorem Admissible.subset {candidates' : List PublicationCandidate}
    (h : Admissible slots candidates) (hsub : ∀ c ∈ candidates', c ∈ candidates) :
    Admissible slots candidates' where
  instances := fun c hc d hd => h.instances c (hsub c hc) d (hsub d hd)
  known := fun c hc => h.known c (hsub c hc)
  targets := fun c hc d hd => h.targets c (hsub c hc) d (hsub d hd)

/-- The inventory after the candidates that were read. -/
structure Read (slots : List (PublishedSlot printable)) (seen : List PublicationCandidate)
    (inventory : Inventory) : Prop where
  keyed : ∀ p ∈ inventory.unique, p.1 = p.2.instanceId
  keys : inventory.unique.keys.Nodup
  mem : ∀ c, c ∈ inventory.unique.map Prod.snd ↔ c ∈ seen
  matched : ∀ target, target ∈ inventory.matched ↔ ∃ c ∈ seen, c.existingTarget = some target
  admissible : Admissible slots seen

theorem read_nil : Read slots [] {} where
  keyed := fun p hp => absurd hp List.not_mem_nil
  keys := List.nodup_nil
  mem := fun c => Iff.rfl
  matched := fun target => by simp
  admissible := ⟨fun c hc => absurd hc List.not_mem_nil, fun c hc => absurd hc List.not_mem_nil,
    fun c hc => absurd hc List.not_mem_nil⟩

/-- A known instance is the candidate that was read under it. -/
theorem Read.get_mem (h : Read slots seen inventory) {key : String}
    {previous : PublicationCandidate} (hget : inventory.unique.get? key = some previous) :
    previous ∈ seen ∧ previous.instanceId = key := by
  have hmem := Dict.mem_of_get? hget
  exact ⟨(h.mem previous).mp (List.mem_map_of_mem (f := Prod.snd) hmem), (h.keyed _ hmem).symm⟩

theorem Read.get_none (h : Read slots seen inventory)
    (hget : inventory.unique.get? c.instanceId = none) :
    ∀ d ∈ seen, d.instanceId ≠ c.instanceId := by
  intro d hd hsame
  obtain ⟨p, hp, rfl⟩ := List.mem_map.mp ((h.mem d).mpr hd)
  have hkey := Dict.get?_of_mem h.keys (k := p.1) (v := p.2) hp
  rw [h.keyed p hp, hsame, hget] at hkey
  cases hkey

theorem Read.again (h : Read slots seen inventory) (hc : c ∈ seen) :
    Read slots (seen ++ [c]) inventory := by
  have hsame : ∀ d, d ∈ seen ++ [c] ↔ d ∈ seen := by
    intro d
    rw [List.mem_append, List.mem_singleton]
    exact ⟨fun hd => hd.elim id fun heq => heq ▸ hc, .inl⟩
  refine ⟨h.keyed, h.keys, fun d => (h.mem d).trans (hsame d).symm, fun target => ?_,
    h.admissible.subset fun d hd => (hsame d).mp hd⟩
  rw [h.matched]
  constructor
  · rintro ⟨d, hd, htarget⟩
    exact ⟨d, (hsame d).mpr hd, htarget⟩
  · rintro ⟨d, hd, htarget⟩
    exact ⟨d, (hsame d).mp hd, htarget⟩

/-- A new candidate enters the inventory, with its target where it has one. -/
theorem Read.enter (h : Read slots seen inventory)
    (hget : inventory.unique.get? c.instanceId = none)
    (hadmissible : Admissible slots (seen ++ [c])) {matched : List String}
    (hmatched : ∀ target, target ∈ matched ↔
      target ∈ inventory.matched ∨ c.existingTarget = some target) :
    Read slots (seen ++ [c])
      { unique := inventory.unique.set c.instanceId c, matched := matched } where
  keyed := by
    intro p hp
    rcases Dict.mem_set hp with rfl | hp
    · rfl
    · exact h.keyed p hp
  keys := Dict.nodup_set h.keys _ _
  mem := by
    intro d
    rw [set_new hget, List.map_append, List.mem_append, List.mem_append, h.mem, List.map_singleton]
  matched := by
    intro target
    rw [hmatched, h.matched]
    constructor
    · rintro (⟨d, hd, htarget⟩ | htarget)
      · exact ⟨d, List.mem_append_left _ hd, htarget⟩
      · exact ⟨c, List.mem_append_right _ List.mem_cons_self, htarget⟩
    · rintro ⟨d, hd, htarget⟩
      rcases List.mem_append.mp hd with hd | hd
      · exact .inl ⟨d, hd, htarget⟩
      · exact .inr (List.mem_singleton.mp hd ▸ htarget)
  admissible := hadmissible

/-- A new instance is admissible where its target is known and free. -/
theorem Admissible.add (h : Admissible slots seen)
    (hnew : ∀ d ∈ seen, d.instanceId ≠ c.instanceId)
    (hknown : ∀ target ∈ c.existingTarget,
      (∃ slot, slotAt slots target = some slot ∧ slot.state ≠ .uncertain) ∧
        ∀ d ∈ seen, d.existingTarget ≠ some target) :
    Admissible slots (seen ++ [c]) where
  instances := by
    intro a ha b hb hsame
    rcases List.mem_append.mp ha with ha | ha
    · rcases List.mem_append.mp hb with hb | hb
      · exact h.instances a ha b hb hsame
      · rw [List.mem_singleton.mp hb] at hsame
        exact absurd hsame (hnew a ha)
    · rw [List.mem_singleton.mp ha] at hsame ⊢
      rcases List.mem_append.mp hb with hb | hb
      · exact absurd hsame.symm (hnew b hb)
      · exact (List.mem_singleton.mp hb).symm
  known := by
    intro a ha target htarget
    rcases List.mem_append.mp ha with ha | ha
    · exact h.known a ha target htarget
    · rw [List.mem_singleton.mp ha] at htarget
      exact (hknown target htarget).1
  targets := by
    intro a ha b hb target hatarget hbtarget
    rcases List.mem_append.mp ha with ha | ha
    · rcases List.mem_append.mp hb with hb | hb
      · exact h.targets a ha b hb target hatarget hbtarget
      · rw [List.mem_singleton.mp hb] at hbtarget
        exact absurd hatarget ((hknown target hbtarget).2 a ha)
    · rw [List.mem_singleton.mp ha] at hatarget ⊢
      rcases List.mem_append.mp hb with hb | hb
      · exact absurd hbtarget ((hknown target hatarget).2 b hb)
      · exact (List.mem_singleton.mp hb).symm

theorem matchTarget_ok {matched : List String} {target : String} :
    matchTarget slots matched target = .ok () ↔
      (∃ slot, slotAt slots target = some slot ∧ slot.state ≠ .uncertain) ∧ target ∉ matched := by
  unfold matchTarget
  cases hslot : slotAt slots target with
  | none =>
    refine iff_of_false nofun ?_
    rintro ⟨⟨slot, h, _⟩, _⟩
    cases h
  | some slot =>
    constructor
    · intro h
      obtain ⟨_, hfree, h⟩ := bind_ok h
      exact ⟨⟨slot, rfl, ensure_inv h⟩, ensure_inv hfree⟩
    · rintro ⟨⟨slot', hsame, hstate⟩, hfree⟩
      obtain rfl := Option.some.inj hsame
      exact (ensure_bind hfree _).trans (ensure_ok hstate)

/-- One candidate is read exactly where it fits those before it. -/
theorem admitCandidate_iff (h : Read slots seen inventory) :
    (∀ inventory', admitCandidate slots inventory c = .ok inventory' →
      Read slots (seen ++ [c]) inventory') ∧
    (Admissible slots (seen ++ [c]) → ∃ inventory', admitCandidate slots inventory c =
      .ok inventory') := by
  have hlast : c ∈ seen ++ [c] := List.mem_append_right _ List.mem_cons_self
  unfold admitCandidate
  cases hget : inventory.unique.get? c.instanceId with
  | some previous =>
    obtain ⟨hprevious, hinstance⟩ := h.get_mem hget
    constructor
    · intro inventory' hstep
      obtain ⟨_, hsame, hstep⟩ := bind_ok hstep
      obtain rfl := Except.ok.inj hstep
      exact h.again (ensure_inv hsame ▸ hprevious)
    · intro hall
      have hsame := hall.instances previous (List.mem_append_left _ hprevious) c hlast hinstance
      exact ⟨inventory, ensure_bind hsame _⟩
  | none =>
    have hnew := h.get_none hget
    cases htarget : c.existingTarget with
    | none =>
      refine ⟨fun inventory' hstep => ?_, fun _ => ⟨_, rfl⟩⟩
      rw [← Except.ok.inj hstep]
      refine h.enter hget (h.admissible.add hnew fun target hsome => ?_) fun target => ?_
      · exact absurd (hsome.symm.trans htarget) nofun
      · rw [htarget]
        exact ⟨.inl, fun hor => hor.elim id nofun⟩
    | some target =>
      constructor
      · intro inventory' hstep
        obtain ⟨_, hmatch, hstep⟩ := bind_ok hstep
        obtain ⟨hknown, hfree⟩ := matchTarget_ok.mp hmatch
        rw [← Except.ok.inj hstep]
        refine h.enter hget (h.admissible.add hnew fun other hother => ?_) fun other => ?_
        · obtain rfl := Option.some.inj (htarget.symm.trans hother)
          exact ⟨hknown, fun d hd hsome => hfree ((h.matched target).mpr ⟨d, hd, hsome⟩)⟩
        · rw [List.mem_append, List.mem_singleton, htarget, Option.some.injEq]
          exact or_congr_right eq_comm
      · intro hall
        have hfree : target ∉ inventory.matched := by
          intro hmem
          obtain ⟨d, hd, hsome⟩ := (h.matched target).mp hmem
          have hsame := hall.targets d (List.mem_append_left _ hd) c hlast target hsome htarget
          exact hnew d hd (congrArg _ hsame)
        have hknown := hall.known c hlast target htarget
        exact ⟨_, ok_bind (matchTarget_ok.mpr ⟨hknown, hfree⟩) _⟩

theorem inventory_fold (h : Read slots seen inventory) :
    (∀ inventory', candidates.foldlM (admitCandidate slots) inventory = .ok inventory' →
      Read slots (seen ++ candidates) inventory') ∧
    (Admissible slots (seen ++ candidates) →
      ∃ inventory', candidates.foldlM (admitCandidate slots) inventory = .ok inventory') := by
  induction candidates generalizing seen inventory with
  | nil =>
    rw [List.append_nil]
    exact ⟨fun inventory' hrun => Except.ok.inj hrun ▸ h, fun _ => ⟨inventory, rfl⟩⟩
  | cons c rest ih =>
    obtain ⟨hstep, hable⟩ := admitCandidate_iff (c := c) h
    have hsplit : seen ++ c :: rest = (seen ++ [c]) ++ rest := by
      rw [List.append_assoc, List.singleton_append]
    rw [hsplit, List.foldlM_cons]
    constructor
    · intro inventory' hrun
      obtain ⟨middle, hmiddle, hrest⟩ := bind_ok hrun
      exact (ih (hstep middle hmiddle)).1 inventory' hrest
    · intro hall
      obtain ⟨middle, hmiddle⟩ := hable (hall.subset fun d hd => List.mem_append_left _ hd)
      obtain ⟨inventory', hrest⟩ := (ih (hstep middle hmiddle)).2 hall
      exact ⟨inventory', (ok_bind hmiddle _).trans hrest⟩

end Admission

section Order
variable {printable : String → Bool} {slots : List (PublishedSlot printable)}
  {candidates values values' : List PublicationCandidate}

theorem byPriority_perm (values : List PublicationCandidate) : (byPriority values).Perm values :=
  List.perm_insertionSort _ _

theorem byPriority_sorted (values : List PublicationCandidate) :
    (byPriority values).Pairwise (fun a b => a.priority ≤ b.priority) := by
  have htotal : Std.Total (fun a b : PublicationCandidate => a.priority ≤ b.priority) :=
    ⟨fun a b => le_total _ _⟩
  have htrans : IsTrans PublicationCandidate (fun a b => a.priority ≤ b.priority) :=
    ⟨fun _ _ _ => le_trans⟩
  exact List.pairwise_insertionSort _ values

/-- The instance is the last part of a priority. -/
theorem instance_of_priority {c d : PublicationCandidate} (h : c.priority = d.priority) :
    c.instanceId = d.instanceId := by
  have h := congrArg (fun p => (ofLex (ofLex (ofLex p).2).2).2) h
  exact h

/-- The same candidates come in the same order. -/
theorem byPriority_eq (hvalues : Admissible slots values) (hperm : values.Perm values') :
    byPriority values = byPriority values' := by
  have hsorted : (byPriority values).Perm (byPriority values') :=
    (byPriority_perm values).trans (hperm.trans (byPriority_perm values').symm)
  apply hsorted.eq_of_pairwise _ (byPriority_sorted values) (byPriority_sorted values')
  intro a b ha hb hab hba
  have ha := (byPriority_perm values).mem_iff.mp ha
  have hb := hperm.mem_iff.mpr ((byPriority_perm values').mem_iff.mp hb)
  exact hvalues.instances a ha b hb (instance_of_priority (le_antisymm hab hba))

/-- Read candidates are each listed once. -/
theorem Read.values_nodup {seen : List PublicationCandidate} {inventory : Inventory}
    (h : Read slots seen inventory) : (inventory.unique.map Prod.snd).Nodup := by
  have hmap : inventory.unique.keys =
      (inventory.unique.map Prod.snd).map PublicationCandidate.instanceId := by
    rw [Dict.keys, List.map_map]
    apply List.map_congr_left
    intro p hp
    exact h.keyed p hp
  exact List.Nodup.of_map _ (hmap ▸ h.keys)

end Order

section Taking
variable {printable : String → Bool} {slots : List (PublishedSlot printable)} {cap : Nat}
  {items : List PublicationCandidate}

theorem take_free {state : List SelectedFinding × Nat} {c : PublicationCandidate}
    (h : consumes slots c = false) :
    takeCandidate slots cap state c = (state.1 ++ [⟨c, consumes slots c⟩], state.2) := by
  unfold takeCandidate
  rw [h, if_neg (fun hand => absurd hand.1 Bool.false_ne_true)]
  rfl

theorem take_place {state : List SelectedFinding × Nat} {c : PublicationCandidate}
    (h : consumes slots c = true) (hroom : state.2 ≠ cap) :
    takeCandidate slots cap state c = (state.1 ++ [⟨c, consumes slots c⟩], state.2 + 1) := by
  unfold takeCandidate
  rw [h, if_neg (fun hand => hroom hand.2)]
  rfl

theorem take_full {state : List SelectedFinding × Nat} {c : PublicationCandidate}
    (h : consumes slots c = true) (hfull : state.2 = cap) :
    takeCandidate slots cap state c = state :=
  if_pos ⟨h, hfull⟩

/-- The loop takes what the choice with the places that are left takes. -/
theorem takeCandidate_fold (taken : List SelectedFinding) (reserved : Nat) (h : reserved ≤ cap) :
    items.foldl (takeCandidate slots cap) (taken, reserved) =
      (taken ++ (choose (consumes slots) (cap - reserved) items).map
        (fun c => ⟨c, consumes slots c⟩),
      reserved + (choose (consumes slots) (cap - reserved) items).countP (consumes slots)) := by
  induction items generalizing taken reserved with
  | nil => simp
  | cons c rest ih =>
    rw [List.foldl_cons]
    cases hc : consumes slots c with
    | false =>
      have hcount : (c :: choose (consumes slots) (cap - reserved) rest).countP (consumes slots) =
          (choose (consumes slots) (cap - reserved) rest).countP (consumes slots) :=
        List.countP_cons_of_neg (by rw [hc]; decide)
      rw [take_free hc, ih _ _ h, CappedChoice.choose_free hc, hcount, List.map_cons,
        List.append_assoc, List.singleton_append]
    | true =>
      by_cases hfull : reserved = cap
      · rw [take_full hc hfull, ih _ _ h, hfull, Nat.sub_self, CappedChoice.choose_full hc]
      · obtain ⟨room, hroom⟩ : ∃ room, cap - reserved = room + 1 :=
          ⟨cap - reserved - 1, by omega⟩
        have hnext : cap - (reserved + 1) = room := by omega
        have hplaces : reserved + 1 + (choose (consumes slots) room rest).countP (consumes slots) =
            reserved + ((choose (consumes slots) room rest).countP (consumes slots) + 1) := by
          omega
        rw [take_place hc hfull, ih _ _ (by omega), hnext, hroom, CappedChoice.choose_place hc,
          List.map_cons, List.append_assoc, List.singleton_append, List.countP_cons_of_pos hc,
          hplaces]

end Taking
end ReviewSensei.Selection
