import ReviewSensei.QuarantineOrigins

/-! What each read of the quarantine accepts: decisions, cursors and events that were written. -/
namespace ReviewSensei.Quarantine
open Session (isSha256 isGitSha bind_ok)
open Sha256 (encode)
open Json (readText readInteger readText_ok readInteger_ok)
open Schema (wholeLine wholeLine_of validate_object validateFields_cons validateFields_nil
  validate_integer validate_first validate_second validate_array)
open Holds (isActor isTimestamp digestText manifestSchema bindingSchema partSchema isNamePair)
open Evidence (Binding Manifest PartReference PlainUpTo text_inv validateManifest
  validateManifest_ok validateManifest_inv maxManifestBytes partitionEncoding)

theorem validate_digest {s : String} (h : isSha256 s = true) :
    digestText.validate (.str s) = true := Schema.wholeLine_of h

theorem validate_binding {b : Binding} (h : b.Valid) :
    bindingSchema.validate b.toDocument = true := by
  have hid : (Schema.anyOf (Holds.bounded 2147483647) .null).validate
      (Evidence.optionalInt b.repositoryId) = true := by
    cases hb : b.repositoryId with
    | none => rfl
    | some i => exact validate_first (validate_integer (h.repositoryId i hb))
  have hrepository : (wholeLine isNamePair b.repository && decide (b.repository.length ≤ 256)) =
      true := by
    have hrep := h.repository
    rw [Evidence.isRepository, Bool.and_eq_true, decide_eq_true_eq] at hrep
    have hlength := Json.length_le_encode b.repository
    rw [wholeLine_of hrep.1, Bool.true_and, decide_eq_true_eq]
    omega
  exact validate_object rfl
    (validateFields_cons rfl hrepository
    (validateFields_cons rfl hid
    (validateFields_cons rfl (validate_integer h.pullRequest)
    (validateFields_cons rfl (wholeLine_of h.baseSha)
    (validateFields_cons rfl (wholeLine_of h.headSha)
    (validateFields_cons rfl (validate_digest h.policyDigest)
    (validateFields_cons rfl (validate_digest h.configurationDigest)
    (validateFields_cons rfl (validate_integer h.generation)
    (validateFields_cons rfl (wholeLine_of h.producer)
    (validateFields_cons rfl h.purpose
    (validateFields_cons rfl rfl (validateFields_nil _))))))))))))

theorem validate_part {r : PartReference} (h : r.Valid) :
    partSchema.validate r.toDocument = true := by
  obtain ⟨hid, hbytes, hsha⟩ := h
  exact validate_object rfl
    (validateFields_cons rfl (wholeLine_of hid)
    (validateFields_cons rfl (validate_integer hbytes)
    (validateFields_cons rfl (validate_digest hsha) (validateFields_nil _))))

/-- The public schema accepts what the manifest's own checks accept. -/
theorem validate_manifest {m : Manifest} (h : m.Valid) :
    manifestSchema.validate m.toDocument = true := by
  have hlength : (m.parts.map PartReference.toDocument).length = m.parts.length :=
    List.length_map _
  have hparts : (Schema.array 1 32 partSchema).validate
      (.arr (m.parts.map PartReference.toDocument)) = true := by
    apply validate_array
    · rw [hlength]
      exact h.count.1
    · rw [hlength]
      exact h.count.2
    · intro j hj
      obtain ⟨r, hr, rfl⟩ := List.mem_map.mp hj
      exact validate_part (h.parts r hr)
  exact validate_object rfl
    (validateFields_cons rfl rfl
    (validateFields_cons rfl (validate_binding h.binding)
    (validateFields_cons rfl (validate_integer h.itemCount)
    (validateFields_cons rfl (validate_integer h.decodedBytes)
    (validateFields_cons rfl (validate_digest h.sha256)
    (validateFields_cons rfl (validate_integer h.encodedBytes)
    (validateFields_cons rfl hparts (validateFields_nil _))))))))

section Decisions
variable {rules : Rules}

structure Decision.Valid (rules : Rules) (d : Decision) : Prop where
  originScope : isSha256 d.originScope = true
  identity : isSha256 d.identity = true
  sourceBodySha256 : isSha256 d.sourceBodySha256 = true
  policySha256 : isSha256 d.policySha256 = true
  action : actions.contains d.action = true
  role : roles.contains d.role = true
  sourceId : 1 ≤ d.sourceId ∧ d.sourceId ≤ 9007199254740991
  reason : isReason rules d.reason = true
  headSha : isGitSha d.headSha = true
  stamp : isStamp rules d.sourceUpdatedAt = true
  time : rules.isInstant d.sourceUpdatedAt = true
  actor : isActor d.actor = true

theorem readDecision_ok {d : Decision} (h : d.Valid rules) :
    readDecision rules d.toDocument = .ok d := by
  have hkeys : d.toDocument.hasKeys decisionKeys = true := rfl
  unfold readDecision
  rw [ensure_bind hkeys]
  simp only [Decision.toDocument, Json.get?, Json.field?_cons, String.reduceEq, if_true, if_false]
  rw [ok_bind (readText_ok h.originScope), ok_bind (readText_ok h.identity),
    ok_bind (readText_ok h.sourceBodySha256), ok_bind (readText_ok h.policySha256),
    ok_bind (readText_ok h.action), ok_bind (readText_ok h.role),
    ok_bind (readInteger_ok h.sourceId.1 h.sourceId.2), ok_bind (readText_ok h.reason),
    ok_bind (readText_ok h.headSha), ok_bind (readText_ok h.stamp), ensure_bind h.time,
    ok_bind (readText_ok h.actor)]
  rfl

theorem readDecision_inv {d e : Decision} (h : readDecision rules d.toDocument = .ok e) :
    e = d ∧ d.Valid rules := by
  unfold readDecision at h
  simp only [Decision.toDocument, Json.get?, Json.field?_cons, String.reduceEq, if_true, if_false]
    at h
  obtain ⟨_, _, h0⟩ := bind_ok h
  obtain ⟨_, rscope, h1⟩ := bind_ok h0
  obtain ⟨_, ridentity, h2⟩ := bind_ok h1
  obtain ⟨_, rbody, h3⟩ := bind_ok h2
  obtain ⟨_, rpolicy, h4⟩ := bind_ok h3
  obtain ⟨_, raction, h5⟩ := bind_ok h4
  obtain ⟨_, rrole, h6⟩ := bind_ok h5
  obtain ⟨_, rsource, h7⟩ := bind_ok h6
  obtain ⟨_, rreason, h8⟩ := bind_ok h7
  obtain ⟨_, rhead, h9⟩ := bind_ok h8
  obtain ⟨_, rstamp, h10⟩ := bind_ok h9
  obtain ⟨_, rtime, h11⟩ := bind_ok h10
  obtain ⟨_, ractor, h12⟩ := bind_ok h11
  cases h12
  obtain ⟨rfl, hscope⟩ := text_inv rscope
  obtain ⟨rfl, hidentity⟩ := text_inv ridentity
  obtain ⟨rfl, hbody⟩ := text_inv rbody
  obtain ⟨rfl, hpolicy⟩ := text_inv rpolicy
  obtain ⟨rfl, haction⟩ := text_inv raction
  obtain ⟨rfl, hrole⟩ := text_inv rrole
  obtain ⟨hid, hsource⟩ := Json.readInteger_inv rsource
  cases hid
  obtain ⟨rfl, hreason⟩ := text_inv rreason
  obtain ⟨rfl, hhead⟩ := text_inv rhead
  obtain ⟨rfl, hstamp⟩ := text_inv rstamp
  obtain ⟨rfl, hactor⟩ := text_inv ractor
  exact ⟨rfl, hscope, hidentity, hbody, hpolicy, haction, hrole, hsource, hreason, hhead, hstamp,
    ensure_inv rtime, hactor⟩

theorem readDecisions_ok {decisions : List Decision} (h : ∀ d ∈ decisions, d.Valid rules) :
    (decisions.map Decision.toDocument).mapM (readDecision rules) = .ok decisions := by
  induction decisions with
  | nil => rfl
  | cons d ds ih =>
    have hrest := ih fun e he => h e (List.mem_cons_of_mem _ he)
    rw [List.map_cons, List.mapM_cons, ok_bind (readDecision_ok (h d List.mem_cons_self)),
      ok_bind hrest]
    rfl

theorem readDecisions_inv {decisions out : List Decision}
    (h : (decisions.map Decision.toDocument).mapM (readDecision rules) = .ok out) :
    out = decisions ∧ ∀ d ∈ decisions, d.Valid rules := by
  induction decisions generalizing out with
  | nil =>
    cases h
    exact ⟨rfl, fun _ hd => absurd hd List.not_mem_nil⟩
  | cons d ds ih =>
    rw [List.map_cons, List.mapM_cons] at h
    obtain ⟨first, hfirst, h1⟩ := bind_ok h
    obtain ⟨rest, hrest, h2⟩ := bind_ok h1
    cases h2
    obtain ⟨rfl, hd⟩ := readDecision_inv hfirst
    obtain ⟨rfl, hds⟩ := ih hrest
    refine ⟨rfl, ?_⟩
    intro e he
    rcases List.mem_cons.mp he with rfl | he
    · exact hd
    · exact hds e he

/-- A state of individual decisions. -/
def decisionState (scope : String) (decisions : List Decision) : Json :=
  stateDocument scope (decisions.map Decision.toDocument)

theorem validateState_ok (scope : String) {decisions : List Decision}
    (hvalid : ∀ d ∈ decisions, d.Valid rules) (hnodup : (decisions.map Decision.key).Nodup)
    (hlength : decisions.length ≤ maxDecisions) :
    validateAssessmentState rules (decisionState scope decisions) scope decisions.length =
      .ok decisions := by
  have hcount : ((decisions.map Decision.toDocument).length : Int) = decisions.length ∧
      (0 : Int) ≤ decisions.length ∧ (decisions.length : Int) ≤ maxDecisions := by
    rw [List.length_map]
    refine ⟨rfl, by omega, by omega⟩
  unfold validateAssessmentState decisionState stateDocument
  rw [ensure_bind ⟨rfl, rfl, rfl⟩]
  simp only [Json.get?, Json.field?_cons, String.reduceEq, if_true, if_false]
  rw [settlementItems, if_pos hcount, ok_bind rfl, ok_bind (readDecisions_ok hvalid),
    ensure_bind hnodup]
  rfl

theorem validateState_inv {scope : String} (decisions : List Decision) {out : List Decision}
    {itemCount : Int}
    (h : validateAssessmentState rules (decisionState scope decisions) scope itemCount = .ok out) :
    out = decisions ∧ (∀ d ∈ decisions, d.Valid rules) ∧ (decisions.map Decision.key).Nodup ∧
      decisions.length ≤ maxDecisions := by
  unfold validateAssessmentState decisionState stateDocument at h
  simp only [Json.get?, Json.field?_cons, String.reduceEq, if_true, if_false] at h
  obtain ⟨_, _, h1⟩ := bind_ok h
  obtain ⟨items, hitems, h2⟩ := bind_ok h1
  obtain ⟨read, hread, h3⟩ := bind_ok h2
  obtain ⟨_, hnodup, h4⟩ := bind_ok h3
  cases h4
  unfold settlementItems at hitems
  dsimp only at hitems
  split at hitems
  · rename_i hcount
    cases hitems
    obtain ⟨rfl, hvalid⟩ := readDecisions_inv hread
    rw [List.length_map] at hcount
    exact ⟨rfl, hvalid, ensure_inv hnodup, by omega⟩
  · cases hitems

theorem validate_decision {d : Decision} (h : d.Valid rules) :
    (decisionSchema rules).validate d.toDocument = true := by
  have hreason : (decide (1 ≤ d.reason.length) && decide (d.reason.length ≤ 4096)) = true := by
    have hr := h.reason
    simp only [isReason, Bool.and_eq_true, decide_eq_true_eq] at hr
    have hlength := Json.length_le_encode d.reason
    have hpos : 1 ≤ d.reason.length := by
      have hsome : d.reason.toList ≠ [] := by
        intro hnil
        have hempty := Json.encode_length d.reason
        rw [hnil, List.map_nil, List.sum_nil] at hempty
        omega
      exact List.length_pos_iff.mpr hsome
    simp only [Bool.and_eq_true, decide_eq_true_eq]
    omega
  exact validate_object rfl
    (validateFields_cons rfl (validate_digest h.originScope)
    (validateFields_cons rfl (validate_digest h.identity)
    (validateFields_cons rfl h.action
    (validateFields_cons rfl (wholeLine_of h.actor)
    (validateFields_cons rfl h.role
    (validateFields_cons rfl (wholeLine_of h.headSha)
    (validateFields_cons rfl (validate_integer h.sourceId)
    (validateFields_cons rfl (wholeLine_of h.stamp)
    (validateFields_cons rfl (validate_digest h.sourceBodySha256)
    (validateFields_cons rfl hreason
    (validateFields_cons rfl (validate_digest h.policySha256) (validateFields_nil _))))))))))))

theorem size_stamp {s : String} (h : isStamp rules s = true) : (Json.str s).size ≤ 242 := by
  simp only [isStamp, Bool.and_eq_true, decide_eq_true_eq] at h
  have hsum : ∀ cs : List Char, (cs.flatMap (Json.escapeChar true)).length ≤ 12 * cs.length := by
    intro cs
    induction cs with
    | nil => exact le_rfl
    | cons c cs ih =>
      have hc := Json.escapeChar_short c
      rw [List.flatMap_cons, List.length_append, List.length_cons]
      omega
  have hlength := hsum s.toList
  have hsize : (Json.str s).size = (s.toList.flatMap (Json.escapeChar true)).length + 2 := by
    simp only [Json.size, Json.chars, Json.quote, List.length_cons, List.length_append,
      List.length_nil]
  omega

theorem plain_of_mem {values : List String} {n : Nat} {s : String}
    (hall : ∀ v ∈ values, Json.isPlain v = true ∧ (encode v).length ≤ n)
    (h : values.contains s = true) : PlainUpTo n s := by
  rw [List.contains_eq_mem, decide_eq_true_eq] at h
  exact hall s h

theorem actor_plain {s : String} (h : isActor s = true) : PlainUpTo 39 s := by
  unfold isActor at h
  split at h
  · rename_i first rest hs
    simp only [Bool.and_eq_true, decide_eq_true_eq] at h
    have hfirst := Evidence.alnum_plain first h.1.1
    have hrest : rest.all Json.isPlainByte = true := by
      apply Evidence.plain_bytes _ h.2
      intro b hb
      rw [Bool.or_eq_true] at hb
      rcases hb with hb | hb
      · exact Evidence.alnum_plain b hb
      · rw [beq_iff_eq] at hb
        subst hb
        decide
    refine ⟨?_, ?_⟩
    · rw [Json.isPlain, hs, List.all_cons, hfirst, hrest]
      rfl
    · rw [hs, List.length_cons]
      omega
  · cases h

theorem Decision.Valid.size_le {d : Decision} (h : d.Valid rules) : d.toDocument.size ≤ 13076 := by
  have hframe : Json.frameSize decisionKeys = 158 := by decide
  have hscope := (Evidence.hexText_plain h.originScope).size_le
  have hidentity := (Evidence.hexText_plain h.identity).size_le
  have hbody := (Evidence.hexText_plain h.sourceBodySha256).size_le
  have hpolicy := (Evidence.hexText_plain h.policySha256).size_le
  have haction := (plain_of_mem (n := 11) (by decide) h.action).size_le
  have hrole := (plain_of_mem (n := 8) (by decide) h.role).size_le
  have hhead := (Evidence.hexText_plain h.headSha).size_le
  have hactor := (actor_plain h.actor).size_le
  have hstamp := size_stamp h.stamp
  have hsource : (Json.int d.sourceId).size ≤ 16 := by
    obtain ⟨hlo, hhi⟩ := h.sourceId
    apply Json.size_int_le (by decide)
    · omega
    · omega
  have hreason : (Json.str d.reason).size ≤ 12290 := by
    have hr := h.reason
    simp only [isReason, Bool.and_eq_true, decide_eq_true_eq, List.all_eq_true] at hr
    have hle := Json.size_str_le fun c hc => rules.printable_visible c (hr.2 c hc)
    omega
  rw [Decision.toDocument, Json.size_fields (List.cons_ne_nil _ _)]
  simp only [List.map_cons, List.map_nil, Json.valuesSize_cons, Json.valuesSize_nil]
  change Json.frameSize decisionKeys + _ ≤ _
  omega

end Decisions

section Cursors
variable {rules : Rules}

/-- The manifest of an event, as a cursor or the next event points at it. -/
structure IsLink (scope : String) (m : Manifest) : Prop where
  valid : m.Valid
  onePart : m.parts.length = 1
  itemCount : m.itemCount = 1
  purpose : m.binding.purpose = "evidence"
  policy : m.binding.policyDigest = scope

/-- The document of a tail. -/
def linkDocument : Option Manifest → Json
  | none => .null
  | some m => m.toDocument

theorem size_link {scope : String} {tail : Option Manifest} (h : ∀ m ∈ tail, IsLink scope m) :
    (linkDocument tail).size ≤ 1096 := by
  cases tail with
  | none => decide
  | some m =>
    have hle := (h m rfl).valid.size_le
    rw [(h m rfl).onePart] at hle
    exact hle

theorem validate_link {scope : String} {tail : Option Manifest} (h : ∀ m ∈ tail, IsLink scope m) :
    (Schema.anyOf .null manifestSchema).validate (linkDocument tail) = true := by
  cases tail with
  | none => rfl
  | some m => exact validate_second (validate_manifest (h m rfl).valid)

theorem checkTail_ok {scope : String} {count : Nat} {tail : Option Manifest}
    (h : ∀ m ∈ tail, IsLink scope m) (hcount : count = 0 ↔ tail = none) :
    checkTail scope count (linkDocument tail) = .ok () := by
  unfold checkTail
  cases tail with
  | none =>
    have hzero : (count : Int) = 0 := by exact_mod_cast hcount.mpr rfl
    rw [if_pos hzero]
    rfl
  | some m =>
    have hne : ¬(count : Int) = 0 := by
      intro hzero
      have hnone := hcount.mp (by omega)
      cases hnone
    rw [if_neg hne]
    have hlink := h m rfl
    rw [linkDocument, ok_bind (validateManifest_ok hlink.valid)]
    exact ensure_ok ⟨hlink.itemCount, hlink.purpose, hlink.policy⟩

/-- A cursor on a chain of at most 200 events is accepted. -/
theorem assessmentCursor_ok {scope : String} {count : Nat} {tail : Option Manifest}
    (hscope : isSha256 scope = true) (hcount : count ≤ maxDecisions)
    (h : ∀ m ∈ tail, IsLink scope m) (hzero : count = 0 ↔ tail = none) :
    assessmentCursor scope count (linkDocument tail) =
      .ok { scope, count, tail := linkDocument tail } := by
  have hmax : maxDecisions = 200 := rfl
  have hframe : Json.frameSize ["schema_version", "scope_sha256", "count", "tail_manifest"] = 61 := by
    decide
  have hsize : (cursorDocument scope count (linkDocument tail)).canonicalSize ≤
      maxManifestBytes + 256 := by
    have hversion : (Json.str cursorVersion).size = 33 := by decide
    have hscopesize := (Evidence.hexText_plain hscope).size_le
    have hlink := size_link h
    have hint : (Json.int count).size ≤ 3 := by
      apply Json.size_int_le (by decide)
      · omega
      · omega
    rw [Json.canonicalSize_eq, cursorDocument, Json.size_fields (List.cons_ne_nil _ _)]
    simp only [List.map_cons, List.map_nil, Json.valuesSize_cons, Json.valuesSize_nil, hversion,
      hframe]
    have hbytes : maxManifestBytes = 8192 := rfl
    omega
  have hschema : cursorSchema.validate (cursorDocument scope count (linkDocument tail)) = true :=
    validate_object rfl
      (validateFields_cons rfl rfl
      (validateFields_cons rfl (validate_digest hscope)
      (validateFields_cons rfl (validate_integer ⟨by omega, by omega⟩)
      (validateFields_cons rfl (validate_link h) (validateFields_nil _)))))
  have hgetscope : (cursorDocument scope count (linkDocument tail)).get? "scope_sha256" =
      some (.str scope) := rfl
  have hgetcount : (cursorDocument scope count (linkDocument tail)).get? "count" =
      some (.int count) := rfl
  have hgettail : (cursorDocument scope count (linkDocument tail)).get? "tail_manifest" =
      some (linkDocument tail) := rfl
  unfold assessmentCursor validateCursor
  rw [ensure_bind ⟨rfl, rfl⟩, hgetscope, ok_bind (readText_ok hscope), hgetcount,
    ok_bind (readInteger_ok (by omega) (by omega)), ensure_bind hsize, ensure_bind hschema, hgettail]
  exact ok_bind (checkTail_ok h hzero) _

/-- What `nextAssessmentEvent` makes of a cursor on a chain, and that the decision is a valid one. -/
theorem nextAssessmentEvent_inv {scope : String} {count : Nat} {tail : Option Manifest}
    {d : Decision} {event : Json} (hscope : isSha256 scope = true) (hcount : count ≤ maxDecisions)
    (h : ∀ m ∈ tail, IsLink scope m) (hzero : count = 0 ↔ tail = none)
    (hevent : nextAssessmentEvent rules (cursorDocument scope count (linkDocument tail))
      d.toDocument = .ok event) :
    event = eventDocument scope (count + 1) (linkDocument tail) d.toDocument ∧ d.Valid rules ∧
      count + 1 ≤ maxDecisions := by
  have hcursor := assessmentCursor_ok hscope hcount h hzero
  unfold assessmentCursor at hcursor
  unfold nextAssessmentEvent at hevent
  rw [ok_bind hcursor] at hevent
  obtain ⟨_, hbound, h1⟩ := bind_ok hevent
  obtain ⟨_, hstate, h2⟩ := bind_ok h1
  cases h2
  have hbound : count ≠ maxDecisions := ensure_inv hbound
  obtain ⟨_, hvalid, _, _⟩ := validateState_inv [d] hstate
  exact ⟨rfl, hvalid d (List.mem_singleton_self d), by omega⟩

/-- A valid decision can be appended as long as there is room. -/
theorem nextAssessmentEvent_ok {scope : String} {count : Nat} {tail : Option Manifest}
    {d : Decision} (hscope : isSha256 scope = true) (hcount : count < maxDecisions)
    (h : ∀ m ∈ tail, IsLink scope m) (hzero : count = 0 ↔ tail = none) (hd : d.Valid rules) :
    nextAssessmentEvent rules (cursorDocument scope count (linkDocument tail)) d.toDocument =
      .ok (eventDocument scope (count + 1) (linkDocument tail) d.toDocument) := by
  have hcursor := assessmentCursor_ok hscope (Nat.le_of_lt hcount) h hzero
  have hstate : validateAssessmentState rules (decisionState scope [d]) scope 1 = .ok [d] :=
    validateState_ok scope (fun e he => List.mem_singleton.mp he ▸ hd)
      (List.nodup_singleton _) (by rw [List.length_singleton]; omega)
  unfold assessmentCursor at hcursor
  unfold nextAssessmentEvent
  rw [ok_bind hcursor, ensure_bind (Nat.ne_of_lt hcount)]
  exact ok_bind hstate _

theorem size_event {scope : String} {sequence : Nat} {tail : Option Manifest} {d : Decision}
    (hscope : isSha256 scope = true) (hsequence : sequence ≤ maxDecisions)
    (h : ∀ m ∈ tail, IsLink scope m) (hd : d.Valid rules) :
    (eventDocument scope sequence (linkDocument tail) d.toDocument).canonicalSize ≤ 16384 := by
  have hmax : maxDecisions = 200 := rfl
  have hframe : Json.frameSize eventKeys = 80 := by decide
  have hversion : (Json.str eventVersion).size = 32 := by decide
  have hscopesize := (Evidence.hexText_plain hscope).size_le
  have hlink := size_link h
  have hdecision := hd.size_le
  have hint : (Json.int sequence).size ≤ 3 := by
    apply Json.size_int_le (by decide)
    · omega
    · omega
  rw [Json.canonicalSize_eq, eventDocument, Json.size_fields (List.cons_ne_nil _ _)]
  simp only [List.map_cons, List.map_nil, Json.valuesSize_cons, Json.valuesSize_nil, hversion]
  change Json.frameSize eventKeys + _ ≤ _
  omega

/-- An event that was appended passes every check of the reader. -/
theorem checkEvent_ok {scope : String} {sequence : Nat} {tail : Option Manifest} {d : Decision}
    (hscope : isSha256 scope = true) (hsequence : 1 ≤ sequence ∧ sequence ≤ maxDecisions)
    (h : ∀ m ∈ tail, IsLink scope m) (hd : d.Valid rules) :
    checkEvent rules scope sequence
      (eventDocument scope sequence (linkDocument tail) d.toDocument) = .ok () := by
  have hmax : maxDecisions = 200 := rfl
  have hsize := size_event hscope hsequence.2 h hd
  have hschema : (eventSchema rules).validate
      (eventDocument scope sequence (linkDocument tail) d.toDocument) = true :=
    validate_object rfl
      (validateFields_cons rfl rfl
      (validateFields_cons rfl (validate_digest hscope)
      (validateFields_cons rfl (validate_integer ⟨by omega, by omega⟩)
      (validateFields_cons rfl (validate_link h)
      (validateFields_cons rfl (validate_decision hd) (validateFields_nil _))))))
  have hstate : validateAssessmentState rules (decisionState scope [d]) scope 1 = .ok [d] :=
    validateState_ok scope (fun e he => List.mem_singleton.mp he ▸ hd)
      (List.nodup_singleton _) (by rw [List.length_singleton]; omega)
  unfold checkEvent
  rw [ensure_bind ⟨rfl, rfl, rfl, rfl, hsize⟩, ensure_bind hschema]
  exact ok_bind hstate _

end Cursors
end ReviewSensei.Quarantine
