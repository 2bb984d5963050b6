import ReviewSensei.HumanPersistenceRuns

/-! The single document of an inventory, plain or packed, reads back with the same pending findings
as long as the record of what it gives back fits. -/
namespace ReviewSensei.Human
open Session (bind_ok isSha256 isGitSha)
open Sha256 (encode)
open Review (CommentFields ReviewComment)
open Assessment (Inverts encodedOf encodedKeys evidenceEncoding decodeDocument)

section Findings
variable {rules : Rules} {printable : String → Bool} {f : HumanReviewFinding rules}

theorem evidencePaths_perm (f : FindingFields) : f.evidencePaths.Perm
    (if f.requiredPaths = [] then [f.path] else f.requiredPaths) :=
  List.perm_insertionSort _ _

theorem evidencePaths_ne_nil (f : FindingFields) : f.evidencePaths ≠ [] := by
  intro h
  have hlength := (evidencePaths_perm f).length_eq
  rw [h] at hlength
  split at hlength
  · cases hlength
  next hsome => exact hsome (List.length_eq_zero_iff.mp hlength.symm)

/-- The finding a single document gives back: no comment, and the paths the document lists. -/
def legacyFinding (cross : Bool) (f : HumanReviewFinding rules) : HumanReviewFinding rules where
  toFindingFields :=
    { f.toFindingFields with
      requiredPaths := if cross then f.evidencePaths else []
      comment := none }
  accepted := by
    have hfacts := f.facts
    have hperm := evidencePaths_perm f.toFindingFields
    rw [check_iff]
    refine ⟨hfacts.identity, fun c hc => absurd hc (Option.not_mem_none c), hfacts.path,
      hfacts.body, ?_, ?_, ?_, ?_⟩
    · dsimp only
      split
      · rw [hperm.length_eq]
        split
        · exact Nat.le_of_ble_eq_true rfl
        · exact hfacts.few
      · exact Nat.zero_le 8
    · intro path hpath
      dsimp only at hpath
      split at hpath
      · rw [hperm.mem_iff] at hpath
        split at hpath
        · rw [List.mem_singleton.mp hpath]
          exact hfacts.path
        · exact hfacts.required path hpath
      · cases hpath
    · dsimp only
      split
      · rw [hperm.nodup_iff]
        split
        · exact List.nodup_singleton _
        · exact hfacts.once
      · exact List.nodup_nil
    · dsimp only
      split
      · right
        rw [hperm.mem_iff]
        split
        · exact List.mem_singleton_self _
        next hsome => exact hfacts.own.resolve_left hsome
      · exact .inl rfl

/-- What the document lists are the evidence paths themselves. -/
theorem legacy_evidencePaths {cross : Bool} (h : cross = false → f.requiredPaths = []) :
    (legacyFinding cross f).evidencePaths = f.evidencePaths := by
  cases cross with
  | false =>
    unfold FindingFields.evidencePaths legacyFinding
    rw [if_pos (h rfl)]
    rfl
  | true =>
    have hsome := evidencePaths_ne_nil f.toFindingFields
    have hread : (legacyFinding true f).evidencePaths = sorted f.evidencePaths := by
      unfold legacyFinding
      rw [FindingFields.evidencePaths]
      exact congrArg sorted (if_neg hsome)
    rw [hread, FindingFields.evidencePaths, sorted_sorted]

/-- The document of a finding in an inventory of one form. -/
def findingDocument (cross : Bool) (f : HumanReviewFinding rules) : Json :=
  if cross then f.toDictWithPaths else f.toDict

def legacySchema (cross : Bool) : Schema := if cross then .withPaths else .plain

/-- The fields of a finding that lists its paths. -/
def pathFields (f : FindingFields) : List (String × Json) :=
  f.identityFields ++ [("required_paths", .arr (f.evidencePaths.map .str))]

theorem readFinding_legacy {cross : Bool} (h : cross = false → f.requiredPaths = []) :
    readFinding rules printable (legacySchema cross) (findingDocument cross f).sortKeys =
      .ok (legacyFinding cross f) := by
  cases cross with
  | false =>
    have hplain : findingDocument false f = .obj f.identityFields := by
      unfold findingDocument FindingFields.toDict
      rw [if_neg (by decide), if_pos (h rfl), List.append_nil]
    have hnodup : Schema.plain.findingKeys.Nodup := by decide
    have hget := Json.get?_sortKeys f.identityFields hnodup
    have hkeys : (Json.obj f.identityFields).sortKeys.hasKeys Schema.plain.findingKeys = true := by
      rw [Json.hasKeys_sortKeys]
      rfl
    have htext (name text message : String)
        (hfield : Json.field? f.identityFields name = some (.str text)) :
        Json.readText (fun _ => true) message
          ((Json.obj f.identityFields).sortKeys.get? name) = .ok text := by
      rw [hget, hfield]
      rfl
    have hconstruct := construct_finding (legacyFinding false f)
    rw [hplain]
    unfold readFinding
    rw [show legacySchema false = .plain from rfl, ensure_bind hkeys]
    dsimp only
    rw [ok_bind rfl, ok_bind rfl, ok_bind (htext "fingerprint" f.fingerprint _ rfl),
      ok_bind (htext "path" f.path _ rfl), ok_bind (htext "body" f.body _ rfl)]
    exact hconstruct
  | true =>
    have hnodup : Schema.withPaths.findingKeys.Nodup := by decide
    have hget := Json.get?_sortKeys (pathFields f.toFindingFields) hnodup
    have hdocument : findingDocument true f = .obj (pathFields f.toFindingFields) := rfl
    have hkeys : (findingDocument true f).sortKeys.hasKeys Schema.withPaths.findingKeys = true := by
      rw [hdocument, Json.hasKeys_sortKeys]
      rfl
    have htext (name text message : String)
        (hfield : Json.field? (pathFields f.toFindingFields) name = some (.str text)) :
        Json.readText (fun _ => true) message ((findingDocument true f).sortKeys.get? name) =
          .ok text := by
      rw [hdocument, hget, hfield]
      rfl
    have hrequired : readRequired .withPaths (findingDocument true f).sortKeys =
        .ok f.evidencePaths := by
      have hfield : (findingDocument true f).sortKeys.get? "required_paths" =
          some (.arr (f.evidencePaths.map .str)) := by
        rw [hdocument, hget]
        exact congrArg some (Json.sortKeys_texts f.evidencePaths)
      have hsome : f.evidencePaths.map Json.str ≠ [] :=
        fun hnil => evidencePaths_ne_nil f.toFindingFields (List.map_eq_nil_iff.mp hnil)
      unfold readRequired
      rw [hfield]
      dsimp only
      rw [ensure_bind (.inl hsome)]
      exact Json.mapM_texts readPath (fun _ => rfl) f.evidencePaths
    have hconstruct := construct_finding (legacyFinding true f)
    unfold readFinding
    rw [show legacySchema true = .withPaths from rfl, ensure_bind hkeys]
    dsimp only
    rw [ok_bind rfl, ok_bind hrequired, ok_bind (htext "fingerprint" f.fingerprint _ rfl),
      ok_bind (htext "path" f.path _ rfl), ok_bind (htext "body" f.body _ rfl)]
    exact hconstruct

end Findings

section Inventories
variable {rules : Rules} {printable : String → Bool} {x y : PendingHumanReview rules}
  {resolved : List String}

/-- Where no finding requires paths, none has any. -/
theorem required_of_plain (h : x.crossFile = false) {f : HumanReviewFinding rules}
    (hf : f ∈ x.findings) : f.requiredPaths = [] := by
  unfold InventoryFields.crossFile at h
  have hf := List.any_eq_false.mp h f hf
  simpa using hf

/-- The inventory a single document gives back. -/
def legacyInventory (x : PendingHumanReview rules) (resolved : List String) :
    InventoryFields rules where
  baseSha := x.baseSha
  findings := x.findings.map (legacyFinding x.crossFile)
  resolved := resolved

/-- The record of what a single document gives back fits, with every finding resolved. -/
def RecordFits (x : PendingHumanReview rules) : Prop :=
  ((legacyInventory x []).recordWith (sorted x.identities)).canonicalSize ≤ maxHumanDecodedBytes

instance (x : PendingHumanReview rules) : Decidable (RecordFits x) :=
  inferInstanceAs (Decidable (_ ≤ _))

theorem legacy_identities (x : PendingHumanReview rules) (resolved : List String) :
    (legacyInventory x resolved).identities = x.identities := by
  unfold InventoryFields.identities legacyInventory
  rw [List.map_map]
  rfl

theorem legacy_evidence {f : HumanReviewFinding rules} (hf : f ∈ x.findings) :
    (legacyFinding x.crossFile f).evidencePaths = f.evidencePaths :=
  legacy_evidencePaths fun h => required_of_plain h hf

theorem legacy_paths (x : PendingHumanReview rules) (resolved : List String) :
    (legacyInventory x resolved).paths = x.paths := by
  have hall : ∀ fs : List (HumanReviewFinding rules), (∀ f ∈ fs, f ∈ x.findings) →
      fs.flatMap (fun f => (legacyFinding x.crossFile f).evidencePaths) =
        fs.flatMap (fun f => f.evidencePaths) := by
    intro fs hfs
    induction fs with
    | nil => rfl
    | cons f fs ih =>
      rw [List.flatMap_cons, List.flatMap_cons, legacy_evidence (hfs f List.mem_cons_self),
        ih fun g hg => hfs g (List.mem_cons_of_mem _ hg)]
  unfold InventoryFields.paths legacyInventory
  rw [List.flatMap_map, hall x.findings fun _ hf => hf]

theorem legacy_crossFile (x : PendingHumanReview rules) (resolved : List String) :
    (legacyInventory x resolved).crossFile = x.crossFile := by
  unfold InventoryFields.crossFile legacyInventory
  rw [List.any_map]
  cases hcross : x.crossFile with
  | false =>
    have hnone : x.findings.any ((fun f => decide (f.requiredPaths ≠ [])) ∘
        (legacyFinding false : HumanReviewFinding rules → _)) = false := by
      rw [List.any_eq_false]
      intro f _
      exact of_decide_eq_false rfl
    exact hnone.trans hcross.symm
  | true =>
    have hcount := x.facts.count.1
    obtain ⟨f, hf⟩ := List.exists_mem_of_length_pos (by omega : 0 < x.findings.length)
    have hsome : x.findings.any ((fun f => decide (f.requiredPaths ≠ [])) ∘
        (legacyFinding true : HumanReviewFinding rules → _)) = true := by
      rw [List.any_eq_true]
      exact ⟨f, hf, decide_eq_true (evidencePaths_ne_nil f.toFindingFields)⟩
    exact hsome.trans hcross.symm

theorem findingDocument_plain {f : HumanReviewFinding rules} (h : f.requiredPaths = []) :
    f.toDict = .obj f.identityFields := by
  unfold FindingFields.toDict
  rw [if_pos h, List.append_nil]

/-- A single document does not tell an inventory from the one it gives back. -/
theorem legacy_documentWith (x : PendingHumanReview rules) (resolved others : List String) :
    (legacyInventory x resolved).documentWith others = x.documentWith others := by
  unfold InventoryFields.documentWith
  rw [legacy_crossFile]
  cases hcross : x.crossFile with
  | false =>
    have hall : ∀ f ∈ x.findings, (legacyFinding false f).toDict = f.toDict := by
      intro f hf
      rw [findingDocument_plain (required_of_plain hcross hf)]
      exact findingDocument_plain rfl
    have hmap : (x.findings.map (legacyFinding false)).map (fun f => f.toDict) =
        x.findings.map (fun f => f.toDict) := by
      rw [List.map_map]
      exact List.map_congr_left hall
    unfold legacyInventory
    rw [hcross]
    exact congrArg (fun items => Json.obj [("base_sha", .str x.baseSha), ("findings", .arr items),
      ("resolved", .arr (others.map .str))]) hmap
  | true =>
    have hall : ∀ f ∈ x.findings,
        (legacyFinding true f).toDictWithPaths = f.toDictWithPaths := by
      intro f _
      have hpaths : (legacyFinding true f).evidencePaths = f.evidencePaths :=
        legacy_evidencePaths nofun
      unfold FindingFields.toDictWithPaths
      rw [hpaths]
      rfl
    have hmap : (x.findings.map (legacyFinding true)).map (fun f => f.toDictWithPaths) =
        x.findings.map (fun f => f.toDictWithPaths) := by
      rw [List.map_map]
      exact List.map_congr_left hall
    unfold legacyInventory
    rw [hcross]
    exact congrArg (fun items => Json.obj [("base_sha", .str x.baseSha), ("findings", .arr items),
      ("resolved", .arr (others.map .str)), ("schema_version", .str "2")]) hmap

theorem legacy_isEncoded (x : PendingHumanReview rules) (resolved : List String) :
    (legacyInventory x resolved).isEncoded ↔ x.isEncoded := by
  unfold InventoryFields.isEncoded
  rw [legacy_identities, legacy_documentWith]
  unfold legacyInventory
  simp only [List.length_map, List.mem_map, exists_exists_and_eq_and]
  rfl

theorem legacy_single (x : PendingHumanReview rules) (resolved others : List String) :
    (legacyInventory x resolved).single others = x.single others := by
  have hencoded := legacy_isEncoded x resolved
  unfold InventoryFields.single
  rw [legacy_documentWith, legacy_documentWith]
  by_cases h : x.isEncoded
  · rw [if_pos h, if_pos (hencoded.mpr h)]
  · rw [if_neg h, if_neg fun h' => h (hencoded.mp h')]

theorem legacy_facts (hfits : RecordFits x) (honce : resolved.Nodup)
    (hknown : ∀ identity ∈ resolved, identity ∈ x.identities) :
    InventoryFacts (legacyInventory x resolved) x.legacyCapacityError := by
  have h := x.facts
  have hcount : (legacyInventory x resolved).findings.length = x.findings.length :=
    List.length_map _
  refine ⟨h.base, hcount ▸ h.count, ?_, ?_, honce, ?_, ?_, ?_, ?_⟩
  · rw [legacy_paths]
    exact h.paths
  · rw [legacy_identities]
    exact h.once
  · rw [legacy_identities]
    exact hknown
  · rw [legacy_identities]
    exact hfits
  · intro hencoded
    rw [legacy_documentWith]
    exact h.packable ((legacy_isEncoded x resolved).mp hencoded)
  · rw [h.legacy]
    unfold InventoryFields.capacityError
    rw [legacy_paths, legacy_single, legacy_identities]

end Inventories

section Documents
variable {rules : Rules} {printable : String → Bool} {x : PendingHumanReview rules}
  {resolved : List String} {document : Json}

/-- What the reader of a single document finds in it. -/
structure Holds (x : PendingHumanReview rules) (resolved : List String) (document : Json) :
    Prop where
  schema : readSchema true document = .ok (legacySchema x.crossFile)
  findings : document.get? "findings" =
    some (.arr (x.findings.map (fun f => (findingDocument x.crossFile f).sortKeys)))
  resolutions : document.get? "resolved" = some (.arr (resolved.map .str))
  base : document.get? "base_sha" = some (.str x.baseSha)

theorem fromDocument_holds (h : Holds x resolved document) (hfits : RecordFits x)
    (hlegacy : x.legacyCapacityError = none) (honce : resolved.Nodup)
    (hknown : ∀ identity ∈ resolved, identity ∈ x.identities) :
    ∃ z, PendingHumanReview.fromDocument rules printable true document = .ok z ∧
      z.toInventoryFields = legacyInventory x resolved := by
  obtain ⟨z, hz, hfields⟩ := construct_of_facts (legacy_facts hfits honce hknown)
  refine ⟨z, ?_, hfields⟩
  have hitems : readItems (document.get? "findings") =
      .ok (x.findings.map (fun f => (findingDocument x.crossFile f).sortKeys)) := by
    rw [h.findings]
    rfl
  have hresolutions : readItems (document.get? "resolved") = .ok (resolved.map .str) := by
    rw [h.resolutions]
    rfl
  have hbase : Json.readText (fun _ => true) "human review base is invalid"
      (document.get? "base_sha") = .ok x.baseSha := by
    rw [h.base]
    rfl
  have hread : (x.findings.map (fun f => (findingDocument x.crossFile f).sortKeys)).mapM
      (readFinding rules printable (legacySchema x.crossFile)) =
        .ok (x.findings.map (legacyFinding x.crossFile)) := by
    have hall : ∀ fs : List (HumanReviewFinding rules), (∀ f ∈ fs, f ∈ x.findings) →
        (fs.map (fun f => (findingDocument x.crossFile f).sortKeys)).mapM
          (readFinding rules printable (legacySchema x.crossFile)) =
            .ok (fs.map (legacyFinding x.crossFile)) := by
      intro fs hfs
      induction fs with
      | nil => rfl
      | cons f fs ih =>
        have hfirst : readFinding rules printable (legacySchema x.crossFile)
            (findingDocument x.crossFile f).sortKeys = .ok (legacyFinding x.crossFile f) :=
          readFinding_legacy fun hcross => required_of_plain hcross (hfs f List.mem_cons_self)
        have hrest := ih fun g hg => hfs g (List.mem_cons_of_mem _ hg)
        rw [List.map_cons, List.mapM_cons, ok_bind hfirst, ok_bind hrest]
        rfl
    exact hall x.findings fun _ hf => hf
  have hsingle : z.toDict = .ok (z.single z.resolved) := by
    have hnone : z.legacyCapacityError = none := by
      rw [z.facts.legacy, hfields, ← hlegacy]
      exact (legacy_facts hfits honce hknown).legacy.symm
    unfold PendingHumanReview.toDict
    rw [hnone]
    exact persisted_ok z.facts.packable z.resolved
  unfold PendingHumanReview.fromDocument
  rw [ok_bind h.schema, ok_bind hitems, ok_bind hresolutions, ok_bind hread, ok_bind hbase,
    ok_bind (Json.mapM_texts readResolved (fun _ => rfl) resolved)]
  have hconstruct : PendingHumanReview.construct
      { baseSha := x.baseSha, findings := x.findings.map (legacyFinding x.crossFile), resolved } =
        .ok z := hz
  rw [ok_bind hconstruct, if_pos rfl, ok_bind hsingle]

/-- The fields of the document of an inventory. -/
def documentFields (x : PendingHumanReview rules) (resolved : List String) :
    List (String × Json) :=
  [("base_sha", .str x.baseSha),
    ("findings", .arr (x.findings.map (findingDocument x.crossFile))),
    ("resolved", .arr (resolved.map .str))] ++
    if x.crossFile then [("schema_version", .str "2")] else []

theorem documentWith_fields (x : PendingHumanReview rules) (resolved : List String) :
    x.documentWith resolved = .obj (documentFields x resolved) := by
  unfold InventoryFields.documentWith documentFields
  cases x.crossFile with
  | false => rfl
  | true => rfl

theorem documentFields_nodup (x : PendingHumanReview rules) (resolved : List String) :
    ((documentFields x resolved).map Prod.fst).Nodup := by
  unfold documentFields
  cases x.crossFile with
  | false =>
    have h : legacyFields.Nodup := by decide
    exact h
  | true =>
    have h : (legacyFields ++ ["schema_version"]).Nodup := by decide
    exact h

theorem readSchema_document (x : PendingHumanReview rules) (resolved : List String)
    (hkeys : ∀ keys, document.hasKeys keys = (Json.obj (documentFields x resolved)).hasKeys keys)
    (hversion : document.get? "schema_version" =
      Json.field? (documentFields x resolved) "schema_version") :
    readSchema true document = .ok (legacySchema x.crossFile) := by
  unfold readSchema
  rw [hkeys, hkeys, hversion]
  unfold documentFields
  cases x.crossFile with
  | false => rfl
  | true => rfl

theorem holds_document (x : PendingHumanReview rules) (resolved : List String) :
    Holds x resolved (x.documentWith resolved).sortKeys := by
  have hget := Json.get?_sortKeys _ (documentFields_nodup x resolved)
  rw [documentWith_fields]
  refine ⟨?_, ?_, ?_, ?_⟩
  · apply readSchema_document x resolved
    · exact fun keys => Json.hasKeys_sortKeys keys _
    · rw [hget]
      unfold documentFields
      cases x.crossFile with
      | false => rfl
      | true => rfl
  · rw [hget]
    exact congrArg some (Json.sortKeys_arr (findingDocument x.crossFile) x.findings)
  · rw [hget]
    exact congrArg some (Json.sortKeys_texts resolved)
  · rw [hget]
    rfl

end Documents
end ReviewSensei.Human
