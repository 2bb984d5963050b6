import ReviewSensei.HistoricalHolds
import ReviewSensei.JsonFields

/-! Which holds can be discharged to the end, and what a chain of holds keeps. -/
namespace ReviewSensei.Holds
open Session (bind_ok)
open Disposition (TextRules)

variable {rules : TextRules} {h h' b a : Hold} {d : Settlement} {ds : List Settlement}

section Schema

/-- What the schema asks of a hold's document, part by part. -/
theorem holdSchema_iff (h : Hold) : holdSchema.validate h.toDocument = true ↔
    referenceSchema.validate h.source = true ∧
    Schema.wholeLine (Session.isHexText 64 64) h.scopeSha256 = true ∧
    (1 ≤ h.assessments.length ∧ h.assessments.length ≤ 100 ∧
      ∀ x ∈ h.assessments, assessmentSchema.validate x.toDocument = true) ∧
    h.settlements.length ≤ 100 ∧
      ∀ d ∈ h.settlements, decisionSchema.validate d.toDocument = true := by
  simp only [holdSchema, Hold.toDocument, Schema.validate, Schema.validateFields, digestText,
    assessmentsJson, Json.field?_cons, String.reduceEq, if_true, if_false,
    List.length_map, Bool.and_eq_true, decide_eq_true_eq, List.all_map, List.all_cons, List.all_nil, List.map_cons, List.map_nil, List.contains_cons]
  simp [and_assoc]

end Schema

theorem normalizeHold_iff : normalizeHold rules h = .ok h' ↔
    h' = h ∧ holdSchema.validate h.toDocument = true ∧ h.Consistent rules := by
  unfold normalizeHold
  split
  · next hschema => simp [hschema]
  · next hschema =>
    rw [Bool.not_eq_false] at hschema
    split
    · next hconsistent => simp [hschema, hconsistent, eq_comm]
    · next hconsistent => simp [hconsistent]

/-- A hold that its own normalization accepts. -/
def Accepted (rules : TextRules) (h : Hold) : Prop := normalizeHold rules h = .ok h

theorem accepted_iff : Accepted rules h ↔
    holdSchema.validate h.toDocument = true ∧ h.Consistent rules := by
  unfold Accepted
  rw [normalizeHold_iff]
  simp

theorem normalizeStored_some (hh : Accepted rules h) :
    normalizeStored rules (some h) = .ok (some h) := by
  have hnormal : normalizeHold rules h = .ok h := hh
  simp only [normalizeStored, hnormal]
  rfl

theorem normalizeStored_ok {value value' : Option Hold}
    (hv : normalizeStored rules value = .ok value') :
    value' = value ∧ ∀ h ∈ value, Accepted rules h := by
  cases value with
  | none =>
    obtain rfl := Except.ok.inj hv
    exact ⟨rfl, nofun⟩
  | some h =>
    cases hnormal : normalizeHold rules h with
    | error e =>
      simp only [normalizeStored, hnormal] at hv
      cases hv
    | ok h' =>
      obtain ⟨rfl, hschema, hconsistent⟩ := normalizeHold_iff.mp hnormal
      simp only [normalizeStored, hnormal] at hv
      obtain rfl := Except.ok.inj hv
      refine ⟨rfl, fun k hk => ?_⟩
      obtain rfl := Option.some.inj hk
      exact accepted_iff.mpr ⟨hschema, hconsistent⟩

section Chains

theorem requireHoldSuccessor_ok {after : Option Hold}
    (hstep : requireHoldSuccessor rules (some b) after = .ok ()) :
    ∃ a, after = some a ∧ Accepted rules b ∧ Accepted rules a ∧ keepsHold b a := by
  obtain ⟨before', hb, hstep⟩ := bind_ok hstep
  obtain ⟨after', ha, hstep⟩ := bind_ok hstep
  obtain ⟨hsame, hbefore⟩ := normalizeStored_ok hb
  obtain ⟨hsame', hafter⟩ := normalizeStored_ok ha
  rw [hsame, hsame'] at hstep
  cases after with
  | none => cases hstep
  | some a =>
    change (if keepsHold b a then _ else _) = _ at hstep
    split at hstep
    · next hkeeps => exact ⟨a, rfl, hbefore b rfl, hafter a rfl, hkeeps⟩
    · cases hstep

theorem requireHoldSuccessor_of (hb : Accepted rules b) (ha : Accepted rules a)
    (hkeeps : keepsHold b a) : requireHoldSuccessor rules (some b) (some a) = .ok () := by
  simp only [requireHoldSuccessor, normalizeStored_some hb, normalizeStored_some ha, bind,
    Except.bind, requireKept]
  rw [if_pos hkeeps]

theorem keepsHold_refl (h : Hold) : keepsHold h h := ⟨rfl, rfl, rfl, List.prefix_refl _⟩

theorem keepsHold_trans {c : Hold} (h₁ : keepsHold b c) (h₂ : keepsHold c a) : keepsHold b a :=
  ⟨h₂.1.trans h₁.1, h₂.2.1.trans h₁.2.1, h₂.2.2.1.trans h₁.2.2.1, h₁.2.2.2.trans h₂.2.2.2⟩

/-- Stored holds, each of them accepted after the one before it. -/
def AcceptedHolds (rules : TextRules) (holds : List (Option Hold)) : Prop :=
  List.IsChain (fun before after => requireHoldSuccessor rules before after = .ok ()) holds

theorem holds_carry {holds : List (Option Hold)} (hchain : AcceptedHolds rules holds) {i j : Nat}
    (hij : i ≤ j) (hj : j < holds.length) (hb : holds[i]? = some (some b)) :
    ∃ a, holds[j]? = some (some a) ∧ keepsHold b a ∧ (i < j → Accepted rules a) := by
  induction j, hij using Nat.le_induction with
  | base => exact ⟨b, hb, keepsHold_refl b, fun hlt => absurd hlt (lt_irrefl _)⟩
  | succ j hij ih =>
    obtain ⟨c, hc, hkept, _⟩ := ih (Nat.lt_of_succ_lt hj)
    have hlink := List.isChain_iff_getElem.mp hchain j hj
    have hcj : holds[j] = some c := by
      rw [List.getElem?_eq_getElem (Nat.lt_of_succ_lt hj)] at hc
      exact Option.some.inj hc
    rw [hcj] at hlink
    obtain ⟨a, ha, _, haccepted, hkeeps⟩ := requireHoldSuccessor_ok hlink
    refine ⟨a, ?_, keepsHold_trans hkept hkeeps, fun _ => haccepted⟩
    rw [List.getElem?_eq_getElem hj, ha]

/-- The instances settled since an earlier hold. -/
def newlySettled (before after : Hold) : List String :=
  (after.settlements.drop before.settlements.length).map Settlement.identity

theorem settled_append (hkeeps : keepsHold b a) : a.settled = b.settled ++ newlySettled b a := by
  obtain ⟨rest, hrest⟩ := hkeeps.2.2.2
  unfold Hold.settled newlySettled
  rw [← hrest, List.drop_left, List.map_append]

theorem unsettled_iff (h : Hold) (x : Assessment) :
    x ∈ h.unsettled ↔ x ∈ h.assessments ∧ x.identity ∉ h.settled := by
  simp [Hold.unsettled]

/-- What is pending loses exactly what has been settled since. -/
theorem unsettled_shrinks (hkeeps : keepsHold b a) :
    a.unsettled = b.unsettled.filter (fun x => decide (x.identity ∉ newlySettled b a)) := by
  have hassessments : a.assessments = b.assessments := hkeeps.2.2.1
  have hsettled := settled_append hkeeps
  unfold Hold.unsettled
  rw [hassessments, List.filter_filter]
  apply List.filter_congr
  intro x _
  rw [hsettled]
  simp [not_or, Bool.and_comm]

/-- What is newly settled was pending. -/
theorem newlySettled_pending (hkeeps : keepsHold b a) (ha : Accepted rules a) :
    ∀ i ∈ newlySettled b a, ∃ x ∈ b.unsettled, x.identity = i := by
  intro i hi
  have hconsistent := (accepted_iff.mp ha).2
  have hsettled := settled_append hkeeps
  have hdistinct : (b.settled ++ newlySettled b a).Nodup := hsettled ▸ hconsistent.once
  have hmem : i ∈ a.instances := by
    apply hconsistent.subset
    rw [hsettled]
    exact List.mem_append_right _ hi
  obtain ⟨x, hx, rfl⟩ := List.mem_map.mp hmem
  refine ⟨x, (unsettled_iff b x).mpr ⟨hkeeps.2.2.1 ▸ hx, fun hold => ?_⟩, rfl⟩
  exact (List.nodup_append.mp hdistinct).2.2 _ hold _ hi rfl

theorem holdView_accepted (hh : Accepted rules h) : holdView rules (some h) = .ok (some h.view) := by
  simp only [holdView, normalizeStored_some hh, bind, Except.bind]
  rfl

theorem pendingAssessments_accepted (hh : Accepted rules h) :
    pendingAssessments rules (some h) = .ok h.unsettled := by
  simp only [pendingAssessments, normalizeStored_some hh, bind, Except.bind]
  rfl

theorem view_pending (h : Hold) (i : String) :
    i ∈ h.view.pending ↔ i ∈ h.instances ∧ i ∉ h.settled := by
  constructor
  · intro hi
    obtain ⟨x, hx, rfl⟩ := List.mem_map.mp hi
    obtain ⟨hmem, hopen⟩ := (unsettled_iff h x).mp hx
    exact ⟨List.mem_map_of_mem hmem, hopen⟩
  · rintro ⟨hi, hopen⟩
    obtain ⟨x, hx, rfl⟩ := List.mem_map.mp hi
    exact List.mem_map_of_mem ((unsettled_iff h x).mpr ⟨hx, hopen⟩)

end Chains

section Discharge

/-- The hold after decisions on some of its assessments, in their order. -/
def Hold.settleAll (h : Hold) (ds : List Settlement) : Hold :=
  { h with settlements := h.settlements ++ ds }

theorem settleAll_snoc (h : Hold) (ds : List Settlement) (d : Settlement) :
    h.settleAll (ds ++ [d]) = (h.settleAll ds).settle d := by
  simp [Hold.settleAll, Hold.settle]

@[simp] theorem settleAll_nil (h : Hold) : h.settleAll [] = h := by simp [Hold.settleAll]

theorem keepsHold_settleAll (h : Hold) (ds es : List Settlement) :
    keepsHold (h.settleAll ds) (h.settleAll (ds ++ es)) :=
  ⟨rfl, rfl, rfl, by simp [Hold.settleAll]⟩

/-- A hold with more decisions is encoded at greater length. -/
theorem size_settleAll_le (h : Hold) (ds es : List Settlement) :
    (h.settleAll ds).toDocument.canonicalSize ≤ (h.settleAll (ds ++ es)).toDocument.canonicalSize := by
  have hitems : Json.itemsSize ((h.settlements ++ ds).map Settlement.toDocument) ≤
      Json.itemsSize ((h.settlements ++ (ds ++ es)).map Settlement.toDocument) := by
    have hsplit : (h.settlements ++ (ds ++ es)).map Settlement.toDocument =
        (h.settlements ++ ds).map Settlement.toDocument ++ es.map Settlement.toDocument := by
      rw [← List.map_append, List.append_assoc]
    rw [hsplit]
    exact Json.itemsSize_append_le _ _
  rw [Json.canonicalSize_eq, Json.canonicalSize_eq]
  unfold Hold.toDocument Hold.settleAll
  rw [Json.size_obj, Json.size_obj, Json.fieldsSize_eq, Json.fieldsSize_eq]
  simp only [List.map_cons, List.map_nil, List.sum_cons, List.sum_nil, Json.entrySize,
    Json.size_arr]
  omega

/-- The decisions settle every assessment of the hold once, in some order. -/
def Settles (h : Hold) (ds : List Settlement) : Prop :=
  (ds.map Settlement.identity).Perm h.instances

/-- Each decision, appended in its turn, leads to an accepted successor. -/
def Discharged (rules : TextRules) (h : Hold) (ds : List Settlement) : Prop :=
  ∀ pre d post, ds = pre ++ d :: post →
    Accepted rules ((h.settleAll pre).settle d) ∧
      requireHoldSuccessor rules (some (h.settleAll pre))
        (some ((h.settleAll pre).settle d)) = .ok ()

theorem accepted_prefix {pre post : List Settlement} (hh : Accepted rules h)
    (hnew : h.settlements = []) (hsettles : Settles h (pre ++ post))
    (hschema : ∀ d ∈ pre ++ post, decisionSchema.validate d.toDocument = true)
    (hsize : (h.settleAll (pre ++ post)).toDocument.canonicalSize ≤ maxHoldBytes)
    (hexplained : ∀ d ∈ pre ++ post, d.explained rules = true) :
    Accepted rules (h.settleAll pre) := by
  obtain ⟨hdocument, hconsistent⟩ := accepted_iff.mp hh
  obtain ⟨hsource, hscope, ⟨hleast, hmost, hitems⟩, _, _⟩ := (holdSchema_iff h).mp hdocument
  have hall : (h.settleAll pre).settlements = pre := by simp [Hold.settleAll, hnew]
  have hsettled : (h.settleAll pre).settled = pre.map Settlement.identity := by
    rw [Hold.settled, hall]
  have hlength := hsettles.length_eq
  rw [Hold.instances, List.length_map, List.length_map, List.length_append] at hlength
  have hnodup : ((pre ++ post).map Settlement.identity).Nodup :=
    hsettles.nodup_iff.mpr hconsistent.distinct
  rw [List.map_append] at hnodup
  refine accepted_iff.mpr ⟨(holdSchema_iff _).mpr
    ⟨hsource, hscope, ⟨hleast, hmost, hitems⟩, ?_, ?_⟩, ?_⟩
  · rw [hall]
    omega
  · rw [hall]
    exact fun d hd => hschema d (List.mem_append_left _ hd)
  · refine ⟨hconsistent.version, hconsistent.inventory, hconsistent.scope, hconsistent.distinct,
      ?_, ?_, (size_settleAll_le h pre post).trans hsize, ?_⟩
    · rw [hsettled]
      exact (List.nodup_append.mp hnodup).1
    · rw [hsettled]
      intro i hi
      apply hsettles.mem_iff.mp
      rw [List.map_append]
      exact List.mem_append_left _ hi
    · rw [hall]
      exact fun d hd => hexplained d (List.mem_append_left _ hd)

theorem initialHold_ok {source : Json} {assessments : List Assessment}
    (hinit : initialHold rules source assessments = .ok (some h)) :
    Accepted rules h ∧ h.source = source ∧ h.assessments = assessments ∧ h.settlements = [] ∧
      h.assessments ≠ [] := by
  unfold initialHold at hinit
  split at hinit
  · cases hinit
  split at hinit
  · cases hinit
  next hsome =>
  cases hnormal : normalizeHold rules
      { source := source
        scopeSha256 := scopeDigest source assessments
        assessments := assessments
        settlements := [] } with
  | error e =>
    rw [hnormal] at hinit
    cases hinit
  | ok k =>
    rw [hnormal] at hinit
    obtain rfl := Option.some.inj (Except.ok.inj hinit)
    obtain ⟨rfl, haccepted⟩ := normalizeHold_iff.mp hnormal
    exact ⟨accepted_iff.mpr haccepted, rfl, rfl, rfl, hsome⟩

/-- An accepted initial hold is discharged by a sequence of decisions exactly when the last of its
documents is within the bound and every reason can be printed and says something. -/
theorem discharged_iff {source : Json} {assessments : List Assessment}
    (hinit : initialHold rules source assessments = .ok (some h)) (hsettles : Settles h ds)
    (hschema : ∀ d ∈ ds, decisionSchema.validate d.toDocument = true) :
    Discharged rules h ds ↔
      (h.settleAll ds).toDocument.canonicalSize ≤ maxHoldBytes ∧
        ∀ d ∈ ds, d.explained rules = true := by
  obtain ⟨haccepted, _, _, hnew, hne⟩ := initialHold_ok hinit
  constructor
  · intro hdischarged
    have hlength := hsettles.length_eq
    have hds : ds ≠ [] := by
      rintro rfl
      apply hne
      simpa [Hold.instances, eq_comm] using hlength
    -- the last document holds every decision
    have hlast : ds = ds.dropLast ++ ds.getLast hds :: [] := (List.dropLast_append_getLast hds).symm
    obtain ⟨hfinal, _⟩ := hdischarged _ _ _ hlast
    rw [← settleAll_snoc, ← hlast] at hfinal
    have hconsistent := (accepted_iff.mp hfinal).2
    refine ⟨hconsistent.size, fun d hd => hconsistent.explained d ?_⟩
    exact List.mem_append_right _ hd
  · rintro ⟨hsize, hexplained⟩ pre d post rfl
    have hbefore : Accepted rules (h.settleAll pre) :=
      accepted_prefix haccepted hnew hsettles hschema hsize hexplained
    have hsplit : pre ++ d :: post = (pre ++ [d]) ++ post := by simp
    rw [hsplit] at hsettles hschema hsize hexplained
    have hafter : Accepted rules (h.settleAll (pre ++ [d])) :=
      accepted_prefix haccepted hnew hsettles hschema hsize hexplained
    have hstep := requireHoldSuccessor_of hbefore hafter (keepsHold_settleAll h pre [d])
    rw [settleAll_snoc] at hafter hstep
    exact ⟨hafter, hstep⟩

end Discharge

/-- What a chain of holds keeps from one of them to a later one. -/
structure HoldsKept (rules : TextRules) (holds : List (Option Hold)) : Prop where
  kept : ∀ (i j : Nat) b, i ≤ j → j < holds.length → holds[i]? = some (some b) →
    ∃ a, holds[j]? = some (some a) ∧ keepsHold b a ∧
      a.unsettled = b.unsettled.filter (fun x => decide (x.identity ∉ newlySettled b a)) ∧
      ∀ i ∈ newlySettled b a, ∃ x ∈ b.unsettled, x.identity = i
  shown : ∀ (i : Nat) h, 1 < holds.length → holds[i]? = some (some h) →
    pendingAssessments rules (some h) = .ok h.unsettled ∧
      holdView rules (some h) = .ok (some h.view) ∧
      ∀ i, i ∈ h.view.pending ↔ i ∈ h.instances ∧ i ∉ h.settled

/-- A hold on a chain of more than one link has been normalized. -/
theorem chain_accepted {holds : List (Option Hold)} (hchain : AcceptedHolds rules holds) {i : Nat}
    (hlength : 1 < holds.length) (hh : holds[i]? = some (some h)) : Accepted rules h := by
  obtain ⟨hi, hget⟩ := List.getElem?_eq_some_iff.mp hh
  by_cases hlast : i + 1 < holds.length
  · have hlink := List.isChain_iff_getElem.mp hchain i hlast
    rw [hget] at hlink
    obtain ⟨_, _, haccepted, _⟩ := requireHoldSuccessor_ok hlink
    exact haccepted
  · -- the last hold is the successor in its link
    obtain ⟨k, rfl⟩ : ∃ k, i = k + 1 := ⟨i - 1, by omega⟩
    have hlink := List.isChain_iff_getElem.mp hchain k hi
    rw [hget] at hlink
    obtain ⟨_, _, hlink⟩ := bind_ok hlink
    obtain ⟨_, hnormal, _⟩ := bind_ok hlink
    exact (normalizeStored_ok hnormal).2 h rfl

theorem holds_kept {holds : List (Option Hold)} (hchain : AcceptedHolds rules holds) :
    HoldsKept rules holds where
  kept i j b hij hj hb := by
    obtain ⟨a, ha, hkeeps, haccepted⟩ := holds_carry hchain hij hj hb
    refine ⟨a, ha, hkeeps, unsettled_shrinks hkeeps, fun k hk => ?_⟩
    rcases Nat.lt_or_eq_of_le hij with hlt | rfl
    · exact newlySettled_pending hkeeps (haccepted hlt) k hk
    · obtain rfl := Option.some.inj (Option.some.inj (hb.symm.trans ha))
      simp [newlySettled] at hk
  shown i h hlength hh := by
    have haccepted := chain_accepted hchain hlength hh
    exact ⟨pendingAssessments_accepted haccepted, holdView_accepted haccepted, view_pending h⟩

theorem holds_discharged (rules : TextRules) :
    (∀ source assessments h ds, initialHold rules source assessments = .ok (some h) →
      Settles h ds → (∀ d ∈ ds, decisionSchema.validate d.toDocument = true) →
      (Discharged rules h ds ↔
        (h.settleAll ds).toDocument.canonicalSize ≤ maxHoldBytes ∧
          ∀ d ∈ ds, d.explained rules = true)) ∧
    ∀ holds, AcceptedHolds rules holds → HoldsKept rules holds :=
  ⟨fun _ _ _ _ hinit hsettles hschema => discharged_iff hinit hsettles hschema,
    fun _ hchain => holds_kept hchain⟩

section Samples

def hexOf (n : Nat) (c : Char) : String := "".pushn c n

/-- Two assessments, and the inventory digest a completion states for them. -/
def sampleAssessments : List Assessment := [⟨hexOf 64 'a', none⟩, ⟨hexOf 64 'b', none⟩]

def sampleInventory : String :=
  "653af68387f9074c4382a21d0d8d3aaa7d348d63465be023dcc922bd14e14ab6"

def sampleCompletion : Json := .obj
  (completionShas.map (fun name => (name, .str (hexOf 40 'c'))) ++
    completionDigests.map (fun name => (name,
      .str (if name = "human_inventory_sha256" then sampleInventory else hexOf 64 'd'))) ++
    completionIds.map (fun name => (name, .int 1)) ++
    [("schema_version", .str "historical-publication-completion-v1"),
      ("verifier_version", .str "review-sensei-github/historical-completion-v1"),
      ("repository", .str "o/r"), ("check_conclusion", .str "success"),
      ("termination_basis", .str "successful-review-no-unsettled-root-write-v1")])

def sampleManifest : Json := .obj
  [("encoding", .str "partitioned-json-v1"),
    ("binding", .obj
      [("repository", .str "o/r"), ("repository_id", .int 1), ("pull_request", .int 1),
        ("base_sha", .str (hexOf 40 'c')), ("head_sha", .str (hexOf 40 'c')),
        ("policy_digest", .str (hexOf 64 'd')), ("configuration_digest", .str (hexOf 64 'd')),
        ("generation", .int 1), ("producer", .str "local-ledger"),
        ("purpose", .str "human-inventory"), ("schema_version", .str "1.0")]),
    ("item_count", .int 2), ("decoded_bytes", .int 100), ("sha256", .str (hexOf 64 'd')),
    ("encoded_bytes", .int 100),
    ("parts", .arr [.obj [("storage_id", .str "p"), ("bytes", .int 100),
      ("sha256", .str (hexOf 64 'd'))]])]

def sampleSource : Json := .obj
  [("run_id", .int 1), ("root_sha256", .str (hexOf 64 'd')), ("manifest", sampleManifest),
    ("schema_version", .str "caller-run-reference-v2"), ("completion", sampleCompletion)]

def sampleHold : Hold where
  source := sampleSource
  scopeSha256 := scopeDigest sampleSource sampleAssessments
  assessments := sampleAssessments
  settlements := []

/-- A decision with the given reason. -/
def sampleDecision (identity reason : String) : Settlement where
  identity := identity
  action := "dismiss"
  actor := "maintainer"
  role := "admin"
  headSha := hexOf 40 'c'
  sourceId := 1
  sourceUpdatedAt := "2026-01-01T00:00:00Z"
  sourceBodySha256 := hexOf 64 'd'
  reason := reason
  policySha256 := hexOf 64 'd'

/-- Every character counts as printable. -/
def sampleText : TextRules where
  printable := fun _ => true
  awareDatetime := fun _ => true
  instant := fun _ => none
  timestamp := fun _ => ""

theorem sample_inventory : digest (assessmentsJson sampleAssessments) = sampleInventory := by
  unfold digest sha256 Json.canonical
  rw [Json.encode_ascii (Json.chars_ascii _)]
  decide +kernel

theorem decisionSchema_sample {identity reason : String}
    (hidentity : Schema.wholeLine (Session.isHexText 64 64) identity = true)
    (hreason : 1 ≤ reason.length ∧ reason.length ≤ 1024) :
    decisionSchema.validate (sampleDecision identity reason).toDocument = true := by
  simp only [decisionSchema, sampleDecision, Settlement.toDocument, Schema.validate,
    Schema.validateFields, digestText, sha, identifier, Json.field?_cons, String.reduceEq,
    if_true, if_false, Bool.and_eq_true, decide_eq_true_eq, hidentity]
  refine ⟨rfl, trivial, by decide, by decide, by decide, by decide,
    by decide, by decide, by decide, hreason, by decide, trivial⟩

theorem sampleSource_size : sampleSource.size = 3361 := by
  have hplain : Json.allPlain sampleSource = true := by decide
  have hsize : Json.plainSize sampleSource = 3361 := by decide
  rw [Json.size_plain hplain, hsize]

theorem sampleAssessments_size : (assessmentsJson sampleAssessments).size = 191 := by
  have hplain : Json.allPlain (assessmentsJson sampleAssessments) = true := by decide
  have hsize : Json.plainSize (assessmentsJson sampleAssessments) = 191 := by decide
  rw [Json.size_plain hplain, hsize]

theorem hold_size (h : Hold) : h.toDocument.canonicalSize =
    107 + h.source.size + (Json.str h.scopeSha256).size + (assessmentsJson h.assessments).size +
      Json.itemsSize (h.settlements.map Settlement.toDocument) := by
  have hversion : (Json.str "historical-assessment-hold-v1").size = 31 := by decide
  have hnames : ["schema_version", "source", "scope_sha256", "assessments", "settlements"].map
      (fun name => (Json.quote true name).length) = [16, 8, 14, 13, 13] := by decide
  simp only [List.map_cons, List.map_nil, List.cons.injEq, and_true] at hnames
  obtain ⟨h₁, h₂, h₃, h₄, h₅⟩ := hnames
  rw [Json.canonicalSize_eq, Hold.toDocument, Json.size_obj, Json.fieldsSize_eq]
  simp only [List.map_cons, List.map_nil, List.sum_cons, List.sum_nil, Json.entrySize,
    Json.size_arr, hversion, h₁, h₂, h₃, h₄, h₅]
  omega

theorem sample_size (ds : List Settlement) :
    (sampleHold.settleAll ds).toDocument.canonicalSize =
      3725 + Json.itemsSize (ds.map Settlement.toDocument) := by
  have hscope : (Json.str (scopeDigest sampleSource sampleAssessments)).size = 66 := by
    rw [scopeDigest, digest, size_sha256]
  rw [hold_size]
  change 107 + sampleSource.size +
    (Json.str (scopeDigest sampleSource sampleAssessments)).size +
    (assessmentsJson sampleAssessments).size + Json.itemsSize (ds.map Settlement.toDocument) = _
  rw [sampleSource_size, sampleAssessments_size, hscope]

theorem sample_accepted : initialHold sampleText sampleSource sampleAssessments =
    .ok (some sampleHold) := by
  have hinventory : completionField sampleSource "human_inventory_sha256" =
      some (.str (digest (assessmentsJson sampleAssessments))) := by
    rw [sample_inventory]
    decide
  have hsize : sampleHold.toDocument.canonicalSize = 3726 := by
    have hnone := sample_size []
    rwa [settleAll_nil] at hnone
  have hscope : Schema.wholeLine (Session.isHexText 64 64) sampleHold.scopeSha256 = true := by
    have hdigest : Session.isHexText 64 64 sampleHold.scopeSha256 = true := isSha256_sha256 _
    rw [Schema.wholeLine, hdigest, Bool.true_or]
  have hdocument : holdSchema.validate sampleHold.toDocument = true :=
    (holdSchema_iff _).mpr ⟨by decide, hscope, by decide, by decide,
      fun _ hd => absurd hd List.not_mem_nil⟩
  have hconsistent : sampleHold.Consistent sampleText :=
    ⟨by decide, hinventory, rfl, by decide, .nil, fun _ hi => absurd hi List.not_mem_nil,
      by rw [hsize]; decide, fun _ hd => absurd hd List.not_mem_nil⟩
  unfold initialHold
  rw [if_neg (not_not.mpr hinventory), if_neg (by decide)]
  change (normalizeHold sampleText sampleHold).map some = _
  rw [normalizeHold_iff.mpr ⟨rfl, hdocument, hconsistent⟩]
  rfl

def sampleDecisions (reason : String) : List Settlement :=
  [sampleDecision (hexOf 64 'b') reason, sampleDecision (hexOf 64 'a') reason]

theorem sample_settles (reason : String) : Settles sampleHold (sampleDecisions reason) :=
  List.Perm.swap _ _ _

theorem sample_schema {reason : String} (hreason : 1 ≤ reason.length ∧ reason.length ≤ 1024) :
    ∀ d ∈ sampleDecisions reason, decisionSchema.validate d.toDocument = true := by
  intro d hd
  simp only [sampleDecisions, List.mem_cons, List.not_mem_nil, or_false] at hd
  rcases hd with rfl | rfl
  · exact decisionSchema_sample (by decide) hreason
  · exact decisionSchema_sample (by decide) hreason

/-- Two short decisions, the later assessment first. -/
theorem sample_discharged : Discharged sampleText sampleHold (sampleDecisions "fixed") := by
  refine ((holds_discharged sampleText).1 _ _ _ _ sample_accepted (sample_settles _)
    (sample_schema (by decide))).mpr ⟨?_, by decide⟩
  rw [sample_size]
  have hplain : Json.allPlainItems ((sampleDecisions "fixed").map Settlement.toDocument) = true := by
    decide
  have hitems : Json.itemsSize ((sampleDecisions "fixed").map Settlement.toDocument) = 868 := by
    rw [Json.itemsSize_plain hplain]
    decide
  rw [hitems]
  decide

theorem undischarged {reason : String} (hlength : 1 ≤ reason.length ∧ reason.length ≤ 1024)
    (hreason : 12290 ≤ (Json.str reason).size) :
    ¬ Discharged sampleText sampleHold (sampleDecisions reason) := by
  intro hdischarged
  obtain ⟨hsize, _⟩ := (discharged_iff sample_accepted (sample_settles reason)
    (sample_schema hlength)).mp hdischarged
  have hdecision (identity : String) :
      12290 ≤ (sampleDecision identity reason).toDocument.size := by
    unfold Settlement.toDocument sampleDecision
    rw [Json.size_obj, Json.fieldsSize_eq]
    simp only [List.map_cons, List.map_nil, List.sum_cons, List.sum_nil, Json.entrySize]
    omega
  have hfirst := hdecision (hexOf 64 'b')
  have hsecond := hdecision (hexOf 64 'a')
  rw [sample_size] at hsize
  simp only [sampleDecisions, List.map_cons, List.map_nil, Json.itemsSize_eq, List.sum_cons,
    List.sum_nil, maxHoldBytes] at hsize
  omega

/-- With two reasons as long as the schema allows, the second assessment cannot be settled. -/
theorem undischargeable_hold :
    ¬ ∀ rules source assessments h ds, initialHold rules source assessments = .ok (some h) →
      Settles h ds → (∀ d ∈ ds, decisionSchema.validate d.toDocument = true) →
      Discharged rules h ds := by
  intro hall
  -- characters that JSON escapes twelvefold
  obtain ⟨reason, hlength, hsize⟩ : ∃ reason : String, reason.length = 1024 ∧
      12290 ≤ (Json.str reason).size := by
    have hescape : (Json.escapeChar true '😀').length = 12 := by decide
    refine ⟨String.ofList (List.replicate 1024 '😀'), ?_, ?_⟩
    · rw [String.length_ofList, List.length_replicate]
    · rw [size_replicate, hescape]
  have hbounds : 1 ≤ reason.length ∧ reason.length ≤ 1024 := by omega
  exact undischarged hbounds hsize (hall _ _ _ _ _ sample_accepted (sample_settles reason)
    (sample_schema hbounds))

end Samples
end ReviewSensei.Holds
