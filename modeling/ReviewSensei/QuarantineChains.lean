import ReviewSensei.QuarantinePending

/-! Quarantine decisions form an append-only chain: what was appended is read back in its order. -/
namespace ReviewSensei.Quarantine
open Session (isSha256 bind_ok)
open Evidence (Binding Manifest Codec Reader Looks Staged Live digest validateBinding_ok
  validateManifest_ok readPartitionedEvidence_ok)
open ReadBudget (EvidenceReadBudget)
open Schema (validate_object validateFields_cons validateFields_nil validate_second validate_array)

/-- A decision, its event and the manifest the event is staged under. -/
structure Entry where
  decision : Decision
  event : Json
  manifest : Manifest

/-- The manifest of the last event. -/
def tailOf (entries : List Entry) : Option Manifest := entries.getLast?.map Entry.manifest

@[simp] theorem tailOf_append (entries : List Entry) (e : Entry) :
    tailOf (entries ++ [e]) = some e.manifest := by
  simp [tailOf]

theorem tailOf_none {entries : List Entry} : entries.length = 0 ↔ tailOf entries = none := by
  simp [tailOf]

section Chains
variable (rules : Rules) (codec : Codec) (reader : Reader) (origins : Json)
  (inventories : Inventories) (owner : Binding)

/-- The decisions of one owner and one scope, each appended to the chain before it, staged under a
later generation and admitted as a successor. -/
inductive Chain : List Entry → Prop
  | nil : Chain []
  | append {entries : List Entry} {e : Entry} (before : Chain entries)
    (next : nextAssessmentEvent rules
      (cursorDocument owner.policyDigest entries.length (linkDocument (tailOf entries)))
      e.decision.toDocument = .ok e.event)
    (staged : Staged codec reader e.event e.manifest.binding 1 e.manifest)
    (same : SameOwner e.manifest.binding owner) (purpose : e.manifest.binding.purpose = "evidence")
    (later : ∀ p ∈ entries, p.manifest.binding.generation < e.manifest.binding.generation)
    (admitted : requireAssessmentSuccessor rules origins inventories
      (decisionState owner.policyDigest (entries.map Entry.decision))
      (decisionState owner.policyDigest ((entries ++ [e]).map Entry.decision))
      owner.policyDigest = .ok ()) : Chain (entries ++ [e])

end Chains

section ReadBack
variable {rules : Rules} {codec : Codec} {reader : Reader} {origins : Json}
  {inventories : Inventories} {owner : Binding} {entries : List Entry}

/-- What holds of every entry of a chain at its place. -/
structure Entry.Placed (rules : Rules) (codec : Codec) (reader : Reader) (owner : Binding)
    (sequence : Nat) (previous : Option Manifest) (e : Entry) : Prop where
  staged : Staged codec reader e.event e.manifest.binding 1 e.manifest
  same : SameOwner e.manifest.binding owner
  event_eq : e.event = eventDocument owner.policyDigest sequence (linkDocument previous)
    e.decision.toDocument
  decision : e.decision.Valid rules
  link : IsLink owner.policyDigest e.manifest
  bound : sequence ≤ maxDecisions

theorem Chain.links (hscope : isSha256 owner.policyDigest = true)
    (h : Chain rules codec reader origins inventories owner entries) :
    entries.length ≤ maxDecisions ∧ ∀ m ∈ tailOf entries, IsLink owner.policyDigest m := by
  induction h with
  | nil => exact ⟨Nat.zero_le _, nofun⟩
  | @append entries e before next staged same purpose later admitted ih =>
    obtain ⟨hbound, hlinks⟩ := ih
    obtain ⟨hevent, hdecision, hnext⟩ :=
      nextAssessmentEvent_inv hscope hbound hlinks tailOf_none next
    have hsize : e.event.canonicalSize ≤ 16384 := by
      rw [hevent]
      exact size_event hscope hnext hlinks hdecision
    obtain ⟨ids, hspec⟩ := staged.spec
    refine ⟨by rw [List.length_append, List.length_singleton]; exact hnext, ?_⟩
    intro m hm
    rw [tailOf_append] at hm
    cases hm
    exact ⟨hspec.valid, staged.one_part hsize, hspec.itemCount_eq, purpose, same.2.2.2.2⟩

/-- The last entry of a chain, with what holds of it. -/
theorem Chain.placed (hscope : isSha256 owner.policyDigest = true) {e : Entry}
    (h : Chain rules codec reader origins inventories owner (entries ++ [e])) :
    Chain rules codec reader origins inventories owner entries ∧
      Entry.Placed rules codec reader owner (entries.length + 1) (tailOf entries) e ∧
      ∀ p ∈ entries, p.manifest.binding.generation < e.manifest.binding.generation := by
  have hlinks := (Chain.links hscope h).2
  generalize hlist : entries ++ [e] = all at h
  cases h with
  | nil => simp at hlist
  | @append entries' e' before next staged same purpose later admitted =>
    obtain ⟨rfl, heq⟩ := List.append_inj' hlist rfl
    cases heq
    obtain ⟨hbound, hbefore⟩ := Chain.links hscope before
    obtain ⟨hevent, hdecision, hnext⟩ :=
      nextAssessmentEvent_inv hscope hbound hbefore tailOf_none next
    rw [tailOf_append] at hlinks
    exact ⟨before, ⟨staged, same, hevent, hdecision, hlinks _ rfl, hnext⟩, later⟩

/-- Two events of the chain that SHA-256 does not tell apart. -/
def Collision (entries : List Entry) : Prop :=
  ∃ a ∈ entries, ∃ b ∈ entries, a.event.canonical ≠ b.event.canonical ∧
    sha256 a.event.canonical = sha256 b.event.canonical

variable {budget : EvidenceReadBudget} {looks : Looks}

/-- The reader goes back along the chain, and finds every decision. -/
theorem readEvents_chain (hscope : isSha256 owner.policyDigest = true) {expected : Binding}
    (hsame : SameOwner expected owner)
    (h : Chain rules codec reader origins inventories owner entries) (generation : Int)
    (seen : List String) (decisions : List Json) (look : Nat)
    (hgeneration : ∀ e ∈ entries, e.manifest.binding.generation < generation)
    (hseen : ∀ e ∈ entries, e.manifest.sha256 ∉ seen)
    (hdistinct : (entries.map (fun e => e.manifest.sha256)).Nodup)
    (hlive : Live budget looks look (look + 2 * entries.length)) :
    readEvents rules codec reader budget looks expected entries.length
        (linkDocument (tailOf entries)) generation seen decisions look =
      .ok (.null, decisions ++ (entries.map (fun e => e.decision.toDocument)).reverse) := by
  induction entries using List.reverseRecOn generalizing generation seen decisions look with
  | nil => simp [readEvents, tailOf, linkDocument]
  | append_singleton entries e ih =>
    obtain ⟨hbefore, hplaced, hlater⟩ := Chain.placed hscope h
    have hlinks := (Chain.links hscope hbefore).2
    have hmem : e ∈ entries ++ [e] := List.mem_append_right _ (List.mem_singleton_self e)
    have hspec : SameOwner e.manifest.binding expected := by
      obtain ⟨h1, h2, h3, h4, h5⟩ := hplaced.same
      obtain ⟨k1, k2, k3, k4, k5⟩ := hsame
      exact ⟨h1.trans k1.symm, h2.trans k2.symm, h3.trans k3.symm, h4.trans k4.symm,
        h5.trans k5.symm⟩
    rw [List.map_append, List.nodup_append] at hdistinct
    obtain ⟨hnodup, _, hapart⟩ := hdistinct
    rw [List.length_append, List.length_singleton] at hlive ⊢
    have hone := hplaced.link.onePart
    have hlooks : Live budget looks look (look + 2 * e.manifest.parts.length) := by
      rw [hone]
      exact hlive.mono (le_refl _) (by omega)
    have hread := readPartitionedEvidence_ok hplaced.staged hlooks
    have hcheck : checkEvent rules expected.policyDigest (entries.length + 1) e.event = .ok () := by
      rw [hplaced.event_eq, hsame.2.2.2.2]
      exact checkEvent_ok hscope ⟨by omega, hplaced.bound⟩ hlinks hplaced.decision
    have hprevious : (e.event.get? "previous_manifest").getD .null =
        linkDocument (tailOf entries) := by
      rw [hplaced.event_eq]
      rfl
    have hdecision : (e.event.get? "decision").getD .null = e.decision.toDocument := by
      rw [hplaced.event_eq]
      rfl
    have hfresh : ∀ p ∈ entries, p.manifest.sha256 ∉ e.manifest.sha256 :: seen := by
      intro p hp hmem
      rcases List.mem_cons.mp hmem with heq | hmem
      · exact hapart _ (List.mem_map_of_mem hp) _ (List.mem_map_of_mem
          (List.mem_singleton_self e)) heq
      · exact hseen p (List.mem_append_left _ hp) hmem
    have hrest := ih hbefore e.manifest.binding.generation (e.manifest.sha256 :: seen)
      (decisions ++ [e.decision.toDocument]) (look + 2) hlater hfresh hnodup
      (hlive.mono (by omega) (by omega))
    rw [tailOf_append, linkDocument, readEvents, ok_bind (validateManifest_ok hplaced.link.valid),
      ensure_bind ⟨hplaced.link.itemCount, hplaced.link.purpose, hspec, hgeneration e hmem,
        hseen e hmem⟩, ok_bind hread]
    dsimp only
    rw [ok_bind hcheck, hprevious, hdecision, hone, hrest, List.map_append, List.reverse_append]
    simp

theorem Chain.placed_mem (hscope : isSha256 owner.policyDigest = true)
    (h : Chain rules codec reader origins inventories owner entries) :
    ∀ p ∈ entries, ∃ sequence previous, sequence ≤ entries.length ∧
      Entry.Placed rules codec reader owner sequence previous p := by
  induction entries using List.reverseRecOn with
  | nil => exact fun _ hp => absurd hp List.not_mem_nil
  | append_singleton entries e ih =>
    obtain ⟨hbefore, hplaced, _⟩ := Chain.placed hscope h
    intro p hp
    rw [List.length_append, List.length_singleton]
    rcases List.mem_append.mp hp with hp | hp
    · obtain ⟨sequence, previous, hle, hp⟩ := ih hbefore p hp
      exact ⟨sequence, previous, by omega, hp⟩
    · rw [List.mem_singleton] at hp
      subst hp
      exact ⟨_, _, le_refl _, hplaced⟩

/-- The codec tells events apart, so equal digests of two events are a collision. -/
theorem Chain.distinct (hscope : isSha256 owner.policyDigest = true)
    (h : Chain rules codec reader origins inventories owner entries) :
    (entries.map (fun e => e.manifest.sha256)).Nodup ∨ Collision entries := by
  induction entries using List.reverseRecOn with
  | nil => exact .inl List.nodup_nil
  | append_singleton entries e ih =>
    obtain ⟨hbefore, hplaced, _⟩ := Chain.placed hscope h
    obtain ⟨ids, hspec⟩ := hplaced.staged.spec
    rcases ih hbefore with hnodup | ⟨a, ha, b, hb, hcollision⟩
    · by_cases hmem : e.manifest.sha256 ∈ entries.map (fun e => e.manifest.sha256)
      · obtain ⟨p, hp, heq⟩ := List.mem_map.mp hmem
        obtain ⟨sequence, previous, hle, hplacedp⟩ := Chain.placed_mem hscope hbefore p hp
        obtain ⟨idsp, hspecp⟩ := hplacedp.staged.spec
        refine .inr ⟨p, List.mem_append_left _ hp, e,
          List.mem_append_right _ (List.mem_singleton_self e), ?_, ?_⟩
        · -- what the codec reads back differs in its sequence
          intro hcanonical
          have hloads := hplacedp.staged.keeps.loads
          rw [hcanonical, hplaced.staged.keeps.loads] at hloads
          have hevents := Option.some.inj hloads
          rw [hplaced.event_eq, hplacedp.event_eq] at hevents
          have hget : some (Json.int (entries.length + 1 : Nat)) = some (Json.int sequence) :=
            congrArg (fun j => j.get? "sequence") hevents
          have hsequence := Json.int.inj (Option.some.inj hget)
          omega
        · have hdigest : digest p.event = digest e.event := by
            rw [← hspecp.sha256_eq, ← hspec.sha256_eq]
            exact heq
          exact hdigest
      · left
        rw [List.map_append, List.nodup_append]
        refine ⟨hnodup, List.nodup_singleton _, ?_⟩
        intro x hx y hy
        rw [List.map_singleton, List.mem_singleton] at hy
        subst hy
        exact fun heq => hmem (heq ▸ hx)
    · exact .inr ⟨a, List.mem_append_left _ ha, b, List.mem_append_left _ hb, hcollision⟩

/-- The decisions of a chain are valid, and none stands twice. -/
theorem Chain.decisions (h : Chain rules codec reader origins inventories owner entries) :
    (∀ d ∈ entries.map Entry.decision, d.Valid rules) ∧
      ((entries.map Entry.decision).map Decision.key).Nodup := by
  cases h with
  | nil => exact ⟨fun _ hd => absurd hd List.not_mem_nil, List.nodup_nil⟩
  | @append entries e before next staged same purpose later admitted =>
    obtain ⟨_, q, _, _, _, hq, _, _, _⟩ := requireAssessmentSuccessor_inv admitted
    obtain ⟨_, _, decisions, hspec⟩ := pendingAssessments_inv hq
    obtain ⟨items, _, hstate⟩ := hspec.state_ok
    obtain ⟨_, hvalid, hnodup, _⟩ := validateState_inv _ hstate
    exact ⟨hvalid, hnodup⟩

/-- The binding the reader expects: the chain's owner and scope, at no earlier generation. -/
structure Expects (owner : Binding) (entries : List Entry) (expected : Binding) : Prop where
  valid : expected.Valid
  purpose : expected.purpose = "evidence"
  same : SameOwner expected owner
  generation : ∀ e ∈ entries, e.manifest.binding.generation ≤ expected.generation

/-- The cursor of a chain is accepted, and read back to exactly its decisions in their order. -/
theorem Chain.read_back (h : Chain rules codec reader origins inventories owner entries)
    {expected : Binding} (hexpected : Expects owner entries expected)
    (hlive : Live budget looks 0 (2 * entries.length)) :
    assessmentCursor owner.policyDigest entries.length (linkDocument (tailOf entries)) =
        .ok ⟨owner.policyDigest, entries.length, linkDocument (tailOf entries)⟩ ∧
      (readAssessmentState rules codec reader budget looks
          (cursorDocument owner.policyDigest entries.length (linkDocument (tailOf entries)))
          expected =
        .ok (decisionState owner.policyDigest (entries.map Entry.decision)) ∨
        Collision entries) := by
  have hpolicy : expected.policyDigest = owner.policyDigest := hexpected.same.2.2.2.2
  have hscope : isSha256 owner.policyDigest = true := by
    rw [← hpolicy]
    exact hexpected.valid.policyDigest
  obtain ⟨hbound, hlinks⟩ := Chain.links hscope h
  have hcursor := assessmentCursor_ok hscope hbound hlinks tailOf_none
  refine ⟨hcursor, ?_⟩
  rcases Chain.distinct hscope h with hdistinct | hcollision
  · left
    have hlooks : Live budget looks 0 (0 + 2 * entries.length) := by
      rw [Nat.zero_add]
      exact hlive
    have hevents := readEvents_chain hscope hexpected.same h (expected.generation + 1) [] [] 0
      (fun e he => Int.lt_add_one_of_le (hexpected.generation e he))
      (fun _ _ => List.not_mem_nil) hdistinct hlooks
    obtain ⟨hvalid, hnodup⟩ := h.decisions
    have hstate := validateState_ok owner.policyDigest hvalid hnodup
      (by rw [List.length_map]; exact hbound)
    rw [List.length_map] at hstate
    have hversion : ¬(cursorDocument owner.policyDigest entries.length
        (linkDocument (tailOf entries))).get? "schema_version" = some (.str stateVersion) := by
      change ¬some (Json.str cursorVersion) = some (.str stateVersion)
      decide
    have hdecisions : (([] : List Json) ++
        (entries.map (fun e => e.decision.toDocument)).reverse).reverse =
          (entries.map Entry.decision).map Decision.toDocument := by
      rw [List.nil_append, List.reverse_reverse, List.map_map]
      rfl
    unfold assessmentCursor at hcursor
    unfold readAssessmentState
    rw [ok_bind (validateBinding_ok hexpected.valid), ensure_bind hexpected.purpose,
      if_neg hversion]
    unfold readCursor
    rw [ok_bind hcursor, ensure_bind hpolicy.symm, ok_bind hevents]
    dsimp only
    rw [ensure_bind rfl, hdecisions, hpolicy]
    exact ok_bind hstate _
  · exact .inr hcollision


/-- Along every chain of decisions nothing is lost: the cursor reads back as the decisions in their
order, lineages keep their origin and their count, and what is pending is what no decision of its own
origin has settled. -/
theorem decisions_append_only
    (h : Chain rules codec reader origins inventories owner entries) {expected : Binding}
    (hexpected : Expects owner entries expected)
    (hlive : Live budget looks 0 (2 * entries.length)) :
    (entries.length ≤ maxDecisions ∧
      assessmentCursor owner.policyDigest entries.length (linkDocument (tailOf entries)) =
        .ok ⟨owner.policyDigest, entries.length, linkDocument (tailOf entries)⟩ ∧
      (readAssessmentState rules codec reader budget looks
          (cursorDocument owner.policyDigest entries.length (linkDocument (tailOf entries)))
          expected =
        .ok (decisionState owner.policyDigest (entries.map Entry.decision)) ∨
        Collision entries)) ∧
    (∀ before after, Relation.ReflTransGen (LineageStep rules) before after →
      ∀ b, normalizeLineage rules before = .ok b →
        ∃ a, normalizeLineage rules after = .ok a ∧ Preserved b a) ∧
    (∀ state scope pending, pendingAssessments rules origins inventories state scope = .ok pending →
      ∃ os decisions items, validateOrigins origins = .ok os ∧
        state.get? "settlements" = some (.arr items) ∧
        validateAssessmentState rules state scope items.length = .ok decisions ∧
        (∀ m, m ∈ pending ↔ IsMember inventories os m ∧ m ∉ decisions.map Decision.key) ∧
        IncreasingPairs pending ∧
        ∀ fresh, assessmentView rules origins inventories state scope fresh =
          .ok (publicationView os state scope pending fresh)) ∧
    (∀ scope decisions d p q,
      Admits rules origins inventories scope (decisionState scope decisions)
        (decisionState scope (decisions ++ [d])) →
      pendingAssessments rules origins inventories (decisionState scope decisions) scope = .ok p →
      pendingAssessments rules origins inventories (decisionState scope (decisions ++ [d])) scope =
        .ok q → ∀ m, m ∈ q ↔ m ∈ p ∧ m ≠ d.key) ∧
    (∀ scope before after,
      Relation.ReflTransGen (Admits rules origins inventories scope) before after →
      ∀ p q, pendingAssessments rules origins inventories before scope = .ok p →
        pendingAssessments rules origins inventories after scope = .ok q → q.Sublist p) := by
  have hscope : isSha256 owner.policyDigest = true := by
    rw [← hexpected.same.2.2.2.2]
    exact hexpected.valid.policyDigest
  refine ⟨⟨(Chain.links hscope h).1, h.read_back hexpected hlive⟩, ?_, ?_, ?_, ?_⟩
  · intro before after hsteps b hb
    exact lineage_preserved hsteps hb
  · intro state scope pending hpending
    obtain ⟨os, members, decisions, hspec⟩ := pendingAssessments_inv hpending
    obtain ⟨items, hitems, hstate⟩ := hspec.state_ok
    refine ⟨os, decisions, items, hspec.origins_ok, hitems, hstate, mem_pending hspec,
      pending_increasing hspec, ?_⟩
    intro fresh
    obtain ⟨os', hos', hview⟩ := assessmentView_ok hpending fresh
    rw [hspec.origins_ok] at hos'
    cases hos'
    exact hview
  · intro scope decisions d p q hadmits hp hq
    exact decision_discharges hadmits hp hq
  · intro scope before after hsteps p q hp hq
    exact pending_shrinks hsteps hp hq

end ReadBack

section Sample
variable {z : String}

def sampleBinding (z : String) : Binding where
  repository := "o/r"
  repositoryId := none
  pullRequest := 1
  baseSha := "aaaaaaaaaaaaaaaaaaaaaaaaaaaaaaaaaaaaaaaa"
  headSha := "bbbbbbbbbbbbbbbbbbbbbbbbbbbbbbbbbbbbbbbb"
  policyDigest := z
  configurationDigest := z
  generation := 1
  producer := "local-ledger"
  purpose := "evidence"

theorem sampleBinding_valid (hz : isSha256 z = true) : (sampleBinding z).Valid := by
  have hone : (1 : Int) ≤ 1 ∧ (1 : Int) ≤ 2147483647 := by decide
  have hzero : (0 : Int) ≤ 1 ∧ (1 : Int) ≤ 2147483647 := by decide
  exact ⟨rfl, nofun, hone, hzero, rfl, rfl, hz, hz, rfl, rfl⟩

def sampleSource (z : String) : Manifest where
  binding := sampleBinding z
  itemCount := 1
  decodedBytes := 10
  sha256 := z
  encodedBytes := 522
  parts := [{ storageId := "1", bytes := 10, sha256 := z }]

theorem sampleSource_valid (hz : isSha256 z = true) : (sampleSource z).Valid := by
  have hfields : (sampleSource z).Fields := by
    have hitems : (0 : Int) ≤ 1 ∧ (1 : Int) ≤ 4096 := by decide
    have hdecoded : (1 : Int) ≤ 10 ∧ (10 : Int) ≤ Evidence.maxPartitionDecodedBytes := by decide
    have hencoded : (1 : Int) ≤ 522 ∧ (522 : Int) ≤ Evidence.maxPartitionBytes := by decide
    have hcount : 1 ≤ 1 ∧ 1 ≤ Evidence.maxParts := by decide
    have hbytes : (1 : Int) ≤ 10 ∧
        (10 : Int) ≤ (Evidence.maxPartBytes : Int) - Evidence.partFramingReserve := by decide
    refine ⟨sampleBinding_valid hz, hitems, hdecoded, hencoded, hz, hcount, ?_,
      List.nodup_singleton _, rfl⟩
    intro r hr
    rw [List.mem_singleton.mp hr]
    exact ⟨rfl, hbytes, hz⟩
  refine ⟨hfields, ?_⟩
  have hle := hfields.size_le
  have hone : (sampleSource z).parts.length = 1 := rfl
  rw [hone] at hle
  rw [Json.canonicalSize_eq]
  exact le_trans hle (by decide)

def sampleInventory (z : String) : Json :=
  .obj [("schema_version", .str inventoryVersion),
    ("assessments", .arr [.obj [("instance", .str z), ("concern", .str z)]])]

def sampleCarrier (z : String) : Json :=
  .obj [("encoding", .str Evidence.inlineEncoding), ("binding", (sampleBinding z).toDocument),
    ("item_count", .int 1), ("sha256", .str (digest (sampleInventory z))),
    ("document", sampleInventory z)]

def sampleOriginFields (z : String) : List (String × Json) :=
  [("schema_version", .str "quarantine-assessment-origin-v1"), ("kind", .str "retained-result"),
    ("source_manifest", (sampleSource z).toDocument), ("inventory_manifest", sampleCarrier z)]

def sampleScope (z : String) : String := originScope (.obj (sampleOriginFields z))

def sampleOriginDocument (z : String) : Json :=
  .obj (sampleOriginFields z ++ [("scope_sha256", .str (sampleScope z))])

def sampleOrigins (z : String) : Json :=
  .obj [("schema_version", .str originsVersion), ("origins", .arr [sampleOriginDocument z])]

def sampleInventories (z : String) : Inventories := [(sampleScope z, sampleInventory z)]

theorem sampleInventory_size (hz : isSha256 z = true) : (sampleInventory z).canonicalSize ≤ 300 := by
  have hframe : Json.frameSize ["schema_version", "assessments"] ≤ 50 := by decide
  have hitem : Json.frameSize ["instance", "concern"] = 24 := by decide
  have hversion : (Json.str inventoryVersion).size = 36 := by decide
  have hsize := (Evidence.hexText_plain hz).size_le
  rw [Json.canonicalSize_eq, sampleInventory, Json.size_fields (List.cons_ne_nil _ _)]
  simp only [List.map_cons, List.map_nil, Json.valuesSize_cons, Json.valuesSize_nil, hversion,
    Json.size_arr, Json.itemsSize_eq, List.sum_cons, List.sum_nil,
    Json.size_fields (List.cons_ne_nil _ _), hitem]
  omega

theorem sampleInventory_schema (hz : isSha256 z = true) :
    inventorySchema.validate (sampleInventory z) = true := by
  refine validate_object rfl (validateFields_cons rfl rfl (validateFields_cons rfl ?_
    (validateFields_nil _)))
  apply validate_array (Nat.zero_le _) (by simp)
  intro j hj
  rw [List.mem_singleton.mp hj]
  exact validate_object rfl (validateFields_cons rfl (validate_digest hz)
    (validateFields_cons rfl (validate_digest hz) (validateFields_nil _)))

theorem sampleInventory_ok (hz : isSha256 z = true) :
    validateInventory (sampleInventory z) = .ok [⟨z, z⟩] := by
  have hsize : (sampleInventory z).canonicalSize ≤ maxOriginInventoryBytes :=
    le_trans (sampleInventory_size hz) (by decide)
  have hitem : readInventoryItem (.obj [("instance", .str z), ("concern", .str z)]) = .ok ⟨z, z⟩ := by
    unfold readInventoryItem
    refine (ensure_bind rfl _).trans ?_
    refine (ok_bind (Json.readText_ok hz) _).trans ?_
    exact ok_bind (Json.readText_ok hz) _
  have hbounded : boundedItems maxOriginAssessments "quarantine assessment inventory is unsupported"
      (some (.arr [.obj [("instance", .str z), ("concern", .str z)]])) =
        .ok [.obj [("instance", .str z), ("concern", .str z)]] := rfl
  unfold validateInventory
  refine (ensure_bind ⟨rfl, rfl⟩ _).trans ?_
  refine (ok_bind hbounded _).trans ?_
  refine (ensure_bind hsize _).trans ?_
  refine (ensure_bind (sampleInventory_schema hz) _).trans ?_
  have hitems : [Json.obj [("instance", .str z), ("concern", .str z)]].mapM readInventoryItem =
      .ok [⟨z, z⟩] := by
    rw [List.mapM_cons, ok_bind hitem]
    rfl
  refine (ok_bind hitems _).trans ?_
  exact ensure_bind (List.pairwise_singleton _ _) _

theorem sampleCarrier_ok (hz : isSha256 z = true) : readInventoryCarrier (sampleCarrier z) =
    .ok ⟨sampleBinding z, 1, digest (sampleInventory z), (sampleInventory z).canonicalSize⟩ := by
  have hvalid := validateBinding_ok (sampleBinding_valid hz)
  have hsize : (sampleCarrier z).canonicalSize ≤ Evidence.maxManifestBytes := by
    have hframe : Json.frameSize ["encoding", "binding", "item_count", "sha256", "document"] = 60 := by
      decide
    have hbinding := (sampleBinding_valid hz).size_le
    have hdigest : (Json.str (digest (sampleInventory z))).size = 66 := size_sha256 _
    have hdocument := sampleInventory_size hz
    rw [Json.canonicalSize_eq] at hdocument ⊢
    have hencoding : (Json.str Evidence.inlineEncoding).size = 16 := by decide
    have hcount : (Json.int 1).size = 1 := by decide
    rw [sampleCarrier, Json.size_fields (List.cons_ne_nil _ _)]
    simp only [List.map_cons, List.map_nil, Json.valuesSize_cons, Json.valuesSize_nil, hdigest,
      hencoding, hcount, hframe]
    change _ ≤ 8192
    omega
  have hcount : Evidence.integer (some (.int 1)) 0 4096 = .ok 1 := rfl
  have hread : Evidence.readInlineEvidence (sampleCarrier z) (sampleBinding z).toDocument =
      .ok (sampleInventory z) := by
    unfold Evidence.readInlineEvidence
    refine (ensure_bind ⟨rfl, rfl⟩ _).trans ?_
    refine (ok_bind hvalid _).trans ?_
    refine (ok_bind hvalid _).trans ?_
    refine (ensure_bind rfl _).trans ?_
    refine (ok_bind hcount _).trans ?_
    refine (ok_bind (Evidence.sha_ok (isSha256_sha256 _)) _).trans ?_
    refine (ensure_bind rfl _).trans ?_
    refine (ensure_bind rfl _).trans ?_
    exact ensure_bind hsize _
  have hencoding : (sampleCarrier z).get? "encoding" = some (.str Evidence.inlineEncoding) := rfl
  unfold readInventoryCarrier
  rw [if_pos hencoding]
  refine (ok_bind hread _).trans ?_
  refine (ok_bind (sampleInventory_ok hz) _).trans ?_
  refine (ok_bind hvalid _).trans ?_
  refine (ok_bind hcount _).trans ?_
  exact ok_bind (Evidence.sha_ok (isSha256_sha256 _)) _

def sampleOrigin (z : String) : Origin where
  kind := "retained-result"
  source := sampleSource z
  inventory := ⟨sampleBinding z, 1, digest (sampleInventory z), (sampleInventory z).canonicalSize⟩
  scope := sampleScope z

theorem sampleOrigins_ok (hz : isSha256 z = true) :
    validateOrigins (sampleOrigins z) = .ok [sampleOrigin z] := by
  have hscope : isSha256 (sampleScope z) = true := isSha256_sha256 _
  have hbytes : ((sampleInventory z).canonicalSize : Int) ≤ maxOriginInventoryBytes := by
    have hsize := sampleInventory_size hz
    have hmax : (maxOriginInventoryBytes : Int) = 24000 := rfl
    omega
  have hkind : Json.readText originKinds.contains unsupportedOrigin (some (.str "retained-result")) =
      .ok "retained-result" := Json.readText_ok (by decide)
  have horigin : readOrigin (sampleOriginDocument z) = .ok (sampleOrigin z) := by
    unfold readOrigin
    refine (ensure_bind ⟨rfl, rfl⟩ _).trans ?_
    refine (ok_bind hkind _).trans ?_
    refine (ok_bind (Json.readText_ok hscope) _).trans ?_
    refine (ok_bind (validateManifest_ok (sampleSource_valid hz)) _).trans ?_
    refine (ok_bind (sampleCarrier_ok hz) _).trans ?_
    have hcount : (0 : Int) ≤ 1 ∧ (1 : Int) ≤ maxOriginAssessments := by decide
    exact ensure_bind ⟨rfl, hcount.1, hcount.2, hbytes, rfl, rfl, rfl⟩ _
  have hcarrier : inlineInventorySchema.validate (sampleCarrier z) = true :=
    validate_object rfl
      (validateFields_cons rfl rfl
      (validateFields_cons rfl (validate_binding (sampleBinding_valid hz))
      (validateFields_cons rfl rfl
      (validateFields_cons rfl (validate_digest (isSha256_sha256 _))
      (validateFields_cons rfl (sampleInventory_schema hz) (validateFields_nil _))))))
  have hschema : originsSchema.validate (sampleOrigins z) = true := by
    refine validate_object rfl (validateFields_cons rfl rfl (validateFields_cons rfl ?_
      (validateFields_nil _)))
    apply validate_array (le_refl 1) (Nat.le_succ 1)
    intro j hj
    rw [List.mem_singleton.mp hj]
    exact validate_object rfl
      (validateFields_cons rfl rfl
      (validateFields_cons rfl rfl
      (validateFields_cons rfl (validate_manifest (sampleSource_valid hz))
      (validateFields_cons rfl (validate_second hcarrier)
      (validateFields_cons rfl (validate_digest hscope) (validateFields_nil _))))))
  have hread : readOrigins none [sampleOriginDocument z] = .ok [sampleOrigin z] := by
    rw [readOrigins, ok_bind horigin]
    exact ensure_bind (.inl rfl) _
  have hversion : Json.readText [originsVersion, publishedVersion].contains unsupportedOrigins
      (some (.str originsVersion)) = .ok originsVersion := Json.readText_ok (by decide)
  have hitems : originItems (some (.arr [sampleOriginDocument z])) =
      .ok [sampleOriginDocument z] := rfl
  unfold validateOrigins
  refine (ensure_bind rfl _).trans ?_
  refine (ok_bind hversion _).trans ?_
  refine (ok_bind hitems _).trans ?_
  refine (ensure_bind hschema _).trans ?_
  refine (ok_bind hread _).trans ?_
  have hlegacy : AreLegacy ["retained-result"] := by decide
  exact ensure_bind ⟨List.pairwise_singleton _ _, List.nodup_singleton _, hlegacy⟩ _

def sampleRules : Rules where
  isPrintable c := decide (0x20 ≤ c.toNat) && decide (c.toNat ≤ 0x7e)
  printable_visible c h := by
    simp only [Bool.and_eq_true, decide_eq_true_eq] at h
    omega
  isDecimal := Char.isDigit
  isInstant s := s == "2026-01-01T00:00:00Z"

def sampleDecision (z : String) : Decision where
  originScope := sampleScope z
  identity := z
  action := "dismiss"
  actor := "a"
  role := "admin"
  headSha := "bbbbbbbbbbbbbbbbbbbbbbbbbbbbbbbbbbbbbbbb"
  sourceId := 1
  sourceUpdatedAt := "2026-01-01T00:00:00Z"
  sourceBodySha256 := z
  reason := "settled by hand."
  policySha256 := z

theorem sampleDecision_valid (hz : isSha256 z = true) : (sampleDecision z).Valid sampleRules := by
  have hsource : (1 : Int) ≤ 1 ∧ (1 : Int) ≤ 9007199254740991 := by decide
  have hreason : isReason sampleRules "settled by hand." = true := by decide
  have hstamp : isStamp sampleRules "2026-01-01T00:00:00Z" = true := by decide
  exact ⟨isSha256_sha256 _, hz, hz, hz, rfl, rfl, hsource, hreason, rfl, hstamp, rfl, rfl⟩

theorem samplePending (hz : isSha256 z = true) (decisions : List Decision)
    (hlist : decisions = [] ∨ decisions = [sampleDecision z]) :
    ∃ pending, pendingAssessments sampleRules (sampleOrigins z) (sampleInventories z)
      (decisionState z decisions) z = .ok pending := by
  have hmembers : allMembers (sampleInventories z) [sampleOrigin z] = .ok [(sampleScope z, z)] := by
    have hdocument : inventoryOf (sampleInventories z) (sampleScope z) = sampleInventory z := by
      simp [inventoryOf, sampleInventories]
    have hone : originMembers (sampleInventories z) (sampleOrigin z) = .ok [(sampleScope z, z)] := by
      unfold originMembers
      dsimp only [sampleOrigin]
      rw [hdocument]
      refine (ok_bind (sampleInventory_ok hz) _).trans ?_
      exact ensure_bind ⟨rfl, rfl, rfl⟩ _
    rw [allMembers, ok_bind hone]
    rfl
  have hvalid : ∀ d ∈ decisions, d.Valid sampleRules := by
    intro d hd
    rcases hlist with rfl | rfl
    · exact absurd hd List.not_mem_nil
    · rw [List.mem_singleton.mp hd]
      exact sampleDecision_valid hz
  have hshort : decisions.length ≤ 1 := by
    rcases hlist with rfl | rfl <;> simp
  have hnodup : (decisions.map Decision.key).Nodup := by
    rcases hlist with rfl | rfl <;> simp
  have hstate := validateState_ok z hvalid hnodup
    (le_trans hshort (by decide))
  have hforeign : ∀ k ∈ decisions.map Decision.key, k ∈ [(sampleScope z, z)] := by
    intro k hk
    rcases hlist with rfl | rfl
    · exact absurd hk List.not_mem_nil
    · exact hk
  refine ⟨[(sampleScope z, z)].filter (fun m => decide (m ∉ decisions.map Decision.key)), ?_⟩
  unfold pendingAssessments
  refine (ok_bind (sampleOrigins_ok hz) _).trans ?_
  refine (ensure_bind hz _).trans ?_
  refine (ensure_bind ⟨fun k hk => hk, fun k hk => hk⟩ _).trans ?_
  refine (ok_bind hmembers _).trans ?_
  have hitems : ((decisions.map Decision.toDocument).length : Int) = decisions.length := by
    rw [List.length_map]
  have hstateitems : stateItems (some (.arr (decisions.map Decision.toDocument))) =
      .ok (decisions.map Decision.toDocument) := rfl
  refine (ok_bind hstateitems _).trans ?_
  rw [hitems, ok_bind hstate]
  exact ensure_bind hforeign _

/-- The decision's event, the first of its chain. -/
def sampleEvent (z : String) : Json := eventDocument z 1 .null (sampleDecision z).toDocument

/-- What zlib makes of the event on the digest of zeros. -/
def samplePacked : List UInt8 :=
  ([120, 218, 173, 82, 193, 110, 195, 32, 12, 253, 149, 138, 243, 58, 17, 24, 73, 211, 239, 216,
    105, 151, 200, 197, 238, 130, 148, 64, 138, 73, 164, 170, 234, 191, 207, 201, 166, 77, 187,
    77, 90, 45, 11, 249, 25, 252, 120, 24, 223, 20, 146, 15, 28, 82, 84, 199, 155, 2, 95, 182,
    72, 97, 224, 49, 48, 171, 167, 53, 149, 178, 100, 64, 226, 158, 0, 59, 238, 65, 224, 233,
    143, 38, 85, 33, 114, 129, 232, 73, 170, 244, 63, 77, 216, 82, 14, 239, 33, 118, 236, 211,
    68, 171, 22, 227, 106, 33, 246, 6, 26, 123, 112, 181, 113, 47, 112, 112, 206, 90, 112, 218,
    54, 149, 245, 85, 219, 106, 99, 208, 130, 57, 183, 181, 53, 13, 89, 141, 218, 55, 6, 125,
    165, 193, 24, 237, 218, 51, 106, 104, 132, 120, 74, 67, 240, 215, 31, 202, 7, 104, 205, 4,
    188, 181, 147, 169, 148, 129, 112, 119, 186, 238, 122, 136, 248, 188, 238, 165, 97, 237, 8,
    224, 24, 162, 64, 78, 115, 246, 212, 157, 18, 62, 86, 194, 23, 111, 64, 117, 172, 190, 209,
    60, 33, 20, 194, 14, 138, 92, 98, 180, 169, 247, 186, 18, 127, 213, 250, 184, 249, 155, 186,
    75, 63, 50, 45, 33, 205, 220, 141, 16, 195, 153, 88, 206, 198, 121, 24, 132, 196, 247, 52,
    66, 183, 80, 254, 28, 27, 117, 153, 33, 67, 44, 33, 210, 30, 152, 137, 121, 164, 88, 246,
    180, 172, 235, 82, 173, 34, 126, 127, 214, 35, 158, 69, 151, 153, 182, 153, 170, 238, 31,
    198, 5, 193, 20] : List Nat).map UInt8.ofNat

set_option maxRecDepth 2000 in
theorem samplePacked_length : samplePacked.length = 282 := by
  simp only [samplePacked, List.length_map, List.length_cons, List.length_nil, Nat.zero_add,
    Nat.reduceAdd]

/-- A codec that knows one document. -/
def sampleCodec (value : Json) (packed : List UInt8) : Codec where
  compress raw := if raw = value.canonical then packed else []
  inflate bytes := if bytes = packed then some value.canonical else none
  loads raw := if raw = value.canonical then some value else none

theorem sampleCodec_compress (value : Json) (packed : List UInt8) :
    (sampleCodec value packed).compress value.canonical = packed := if_pos rfl

theorem sampleCodec_keeps {value : Json} {packed : List UInt8}
    (hbound : packed.length ≤ Evidence.compressBound value.canonicalSize) :
    (sampleCodec value packed).Keeps value := by
  have hcompress := sampleCodec_compress value packed
  refine ⟨?_, if_pos rfl, ?_⟩
  · rw [hcompress]
    exact if_pos rfl
  · rw [hcompress]
    exact hbound

def codecOf (z : String) : Codec := sampleCodec (sampleEvent z) samplePacked

def samplePart (z : String) : Evidence.Part :=
  Evidence.onePart (codecOf z) (sampleEvent z) (sampleBinding z)

def sampleReader (z : String) : Reader := fun identity =>
  if identity = "1" then some ⟨(samplePart z).toDocument, "local-ledger"⟩ else none

def sampleManifest (z : String) : Manifest :=
  Evidence.manifestOf (sampleEvent z) (sampleBinding z) 1 [samplePart z] ["1"]

def sampleEntry (z : String) : Entry := ⟨sampleDecision z, sampleEvent z, sampleManifest z⟩

theorem sampleStaged (hz : isSha256 z = true) :
    Staged (codecOf z) (sampleReader z) (sampleEvent z) (sampleBinding z) 1 (sampleManifest z) := by
  have hdecision := sampleDecision_valid hz
  have hlow : 304 ≤ (sampleEvent z).canonicalSize := by
    have hevent : Json.frameSize eventKeys = 80 := by decide
    have hframe : Json.frameSize decisionKeys = 158 := by decide
    have hscope : (Json.str (sampleDecision z).originScope).size = 66 := size_sha256 _
    have hdocument : 224 ≤ (sampleDecision z).toDocument.size := by
      rw [Decision.toDocument, Json.size_fields (List.cons_ne_nil _ _)]
      simp only [List.map_cons, List.map_nil, Json.valuesSize_cons, Json.valuesSize_nil, hscope]
      change 224 ≤ Json.frameSize decisionKeys + _
      omega
    rw [Json.canonicalSize_eq, sampleEvent, eventDocument, Json.size_fields (List.cons_ne_nil _ _)]
    simp only [List.map_cons, List.map_nil, Json.valuesSize_cons, Json.valuesSize_nil]
    change 304 ≤ Json.frameSize eventKeys + _
    omega
  have hlength := samplePacked_length
  have hkeeps : (codecOf z).Keeps (sampleEvent z) := by
    apply sampleCodec_keeps
    unfold Evidence.compressBound
    omega
  have hhigh : (eventDocument z 1 (linkDocument none)
      (sampleDecision z).toDocument).canonicalSize ≤ 16384 :=
    size_event hz (by decide) (fun _ hm => absurd hm (Option.not_mem_none _)) hdecision
  have hpacked : (codecOf z).compress (sampleEvent z).canonical = samplePacked :=
    sampleCodec_compress _ _
  have hne : (codecOf z).compress (sampleEvent z).canonical ≠ [] := by
    rw [hpacked, ← List.length_pos_iff, hlength]
    decide
  have hid : Holds.isStorageId "1" = true := by decide
  obtain ⟨hparts, hmanifest⟩ := Evidence.staging_succeeds "1" (sampleBinding_valid hz) hkeeps hne
    ⟨by omega, hhigh⟩ hid
  refine ⟨hkeeps, _, _, hparts, hmanifest, ?_⟩
  intro entry hentry
  obtain rfl : entry = ("1", samplePart z) := List.mem_singleton.mp hentry
  exact if_pos rfl

theorem sampleChain (hz : isSha256 z = true) :
    Chain sampleRules (codecOf z) (sampleReader z) (sampleOrigins z) (sampleInventories z)
      (sampleBinding z) [sampleEntry z] := by
  obtain ⟨p, hp⟩ := samplePending hz [] (.inl rfl)
  obtain ⟨q, hq⟩ := samplePending hz [sampleDecision z] (.inr rfl)
  have hnext : nextAssessmentEvent sampleRules (cursorDocument z 0 (linkDocument none))
      (sampleDecision z).toDocument = .ok (sampleEvent z) :=
    nextAssessmentEvent_ok hz (by decide) (fun _ hm => absurd hm (Option.not_mem_none _))
      (iff_of_true rfl rfl) (sampleDecision_valid hz)
  have hadmitted : requireAssessmentSuccessor sampleRules (sampleOrigins z) (sampleInventories z)
      (decisionState z []) (decisionState z [sampleDecision z]) z = .ok () := by
    unfold requireAssessmentSuccessor
    refine (ok_bind hp _).trans ?_
    refine (ok_bind hq _).trans ?_
    rfl
  have hchain : Chain sampleRules (codecOf z) (sampleReader z) (sampleOrigins z)
      (sampleInventories z) (sampleBinding z) ([] ++ [sampleEntry z]) :=
    Chain.append .nil hnext (sampleStaged hz) ⟨rfl, rfl, rfl, rfl, rfl⟩ rfl
      (fun p hp => absurd hp List.not_mem_nil) hadmitted
  exact hchain

def zeros : String := "0000000000000000000000000000000000000000000000000000000000000000"

def sampleBudget : EvidenceReadBudget := EvidenceReadBudget.fresh ⟨0, 0⟩

/-- A chain of one decision, read back. -/
theorem sample_read_back :
    readAssessmentState sampleRules (codecOf zeros) (sampleReader zeros) sampleBudget
        (fun _ => ⟨0, 0⟩)
        (cursorDocument zeros 1 (linkDocument (some (sampleManifest zeros)))) (sampleBinding zeros) =
      .ok (decisionState zeros [sampleDecision zeros]) := by
  have hz : isSha256 zeros = true := by decide
  have hexpected : Expects (sampleBinding zeros) [sampleEntry zeros] (sampleBinding zeros) := by
    refine ⟨sampleBinding_valid hz, rfl, ⟨rfl, rfl, rfl, rfl, rfl⟩, ?_⟩
    intro e he
    rw [List.mem_singleton.mp he]
    exact le_refl _
  have hdeadline : 0 < sampleBudget.deadline := by decide
  have hlive : Live sampleBudget (fun _ => ⟨0, 0⟩) 0 (2 * [sampleEntry zeros].length) :=
    fun _ _ _ => hdeadline
  have hall := decisions_append_only (sampleChain hz) hexpected hlive
  rcases hall.1.2.2 with hread | ⟨a, ha, b, hb, hne, _⟩
  · exact hread
  · -- one event does not collide with itself
    rw [List.mem_singleton.mp ha, List.mem_singleton.mp hb] at hne
    exact absurd rfl hne

end Sample

end ReviewSensei.Quarantine
