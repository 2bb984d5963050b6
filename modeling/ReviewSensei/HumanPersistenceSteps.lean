import ReviewSensei.HumanPersistence
import ReviewSensei.JsonReading
import ReviewSensei.QueueStateRuns
import ReviewSensei.GitPaths
import ReviewSensei.BaselineReading

/-! The documents of a human-review inventory, field by field: what a comment's metadata, a finding
and a whole inventory read back as. -/
namespace ReviewSensei.Human
open Session (bind_ok isSha256)
open Sha256 (encode)
open Review (CommentFields ReviewComment Side lifecycleFingerprint lineJson)
open Json (optional)

section Metadata
variable {rules : Rules} {printable : String → Bool}

/-- The fields of a comment's document. -/
def commentFields (c : CommentFields) : List (String × Json) :=
  [("path", .str c.path), ("body", .str c.body)] ++
    (match c.side with
      | .file => [("side", .str "FILE")]
      | .right => [("line", lineJson c.line)]
      | .left => [("line", lineJson c.line), ("side", .str "LEFT")]) ++
    optional "severity" (c.severity.map .str) ++ optional "fix_effort" (c.fixEffort.map .str) ++
    optional "category" (c.category.map .str) ++ optional "blocking" (c.blocking.map .bool) ++
    optional "symbol" (c.symbol.map .str) ++ optional "defect_kind" (c.defectKind.map .str) ++
    optional "evidence_id" (c.evidenceId.map .str)

/-- The fields of a comment's metadata. -/
def metadataFields (rules : Rules) (c : ReviewComment) : List (String × Json) :=
  (commentFields c.toCommentFields).filter (fun f => decide (f.1 ≠ "path" ∧ f.1 ≠ "body")) ++
    [("effective_blocking", .bool (blocksApproval rules c)), ("needs_human", .bool c.needsHuman)]

theorem instanceMetadata_eq (c : ReviewComment) :
    instanceMetadata rules c = .obj (metadataFields rules c) := rfl

theorem optional_keys (name : String) (value : Option Json) :
    ((optional name value).map Prod.fst).Sublist [name] := by
  cases value with
  | none => exact List.nil_sublist _
  | some j => exact List.Sublist.refl _

/-- The keys a comment's document may have, in their order. -/
def commentKeys : List String :=
  ["path", "body", "line", "side", "severity", "fix_effort", "category", "blocking", "symbol",
    "defect_kind", "evidence_id"]

theorem commentFields_keys (c : CommentFields) :
    ((commentFields c).map Prod.fst).Sublist commentKeys := by
  have hplace : ((match c.side with
      | .file => [("side", Json.str "FILE")]
      | .right => [("line", lineJson c.line)]
      | .left => [("line", lineJson c.line), ("side", .str "LEFT")]).map Prod.fst).Sublist
        ["line", "side"] := by
    cases c.side with
    | file => exact List.sublist_cons_self _ _
    | right => exact List.Sublist.cons_cons _ (List.nil_sublist _)
    | left => exact List.Sublist.refl _
  unfold commentFields
  simp only [List.map_append]
  exact ((((((((List.Sublist.refl ["path", "body"]).append hplace).append
    (optional_keys _ _)).append (optional_keys _ _)).append (optional_keys _ _)).append
    (optional_keys _ _)).append (optional_keys _ _)).append (optional_keys _ _)).append
    (optional_keys _ _)

theorem metadataFields_keys (c : ReviewComment) :
    ((metadataFields rules c).map Prod.fst).Sublist
      (commentKeys ++ ["effective_blocking", "needs_human"]) := by
  unfold metadataFields
  rw [List.map_append]
  apply List.Sublist.append
  · exact (List.filter_sublist.map Prod.fst).trans (commentFields_keys _)
  · exact List.Sublist.refl _

theorem metadataFields_nodup (c : ReviewComment) : ((metadataFields rules c).map Prod.fst).Nodup :=
  List.Nodup.sublist (metadataFields_keys c) (by decide)

/-- A field of the metadata beside the admission is the comment's own. -/
theorem metadata_field (c : ReviewComment) {name : String} (hpath : name ≠ "path")
    (hbody : name ≠ "body") (heffective : name ≠ "effective_blocking")
    (hhuman : name ≠ "needs_human") :
    Json.field? (metadataFields rules c) name = c.toCommentFields.toDict.get? name := by
  have hfilter : ∀ fs : List (String × Json),
      Json.field? (fs.filter (fun f => decide (f.1 ≠ "path" ∧ f.1 ≠ "body"))) name =
        Json.field? fs name := by
    intro fs
    induction fs with
    | nil => rfl
    | cons f fs ih =>
      obtain ⟨key, j⟩ := f
      by_cases hkey : key = name
      · subst hkey
        rw [List.filter_cons_of_pos (by simp [hpath, hbody]), Json.field?_cons, if_pos rfl,
          Json.field?_cons, if_pos rfl]
      · rw [Json.field?_cons, if_neg hkey, ← ih, List.filter_cons]
        split
        · rw [Json.field?_cons, if_neg hkey]
        · rfl
  have hadmission : Json.field? [("effective_blocking", .bool (blocksApproval rules c)),
      ("needs_human", .bool c.needsHuman)] name = none := by
    simp [Json.field?_cons, heffective.symm, hhuman.symm]
  unfold metadataFields
  rw [Json.field?_append, hfilter, hadmission, Option.or_none]
  rfl

theorem metadata_admission (c : ReviewComment) :
    Json.field? (metadataFields rules c) "effective_blocking" =
        some (.bool (blocksApproval rules c)) ∧
      Json.field? (metadataFields rules c) "needs_human" = some (.bool c.needsHuman) := by
  have hnone (name : String) (hname : name ∉ commentKeys) :
      Json.field? ((commentFields c.toCommentFields).filter
        (fun f => decide (f.1 ≠ "path" ∧ f.1 ≠ "body"))) name = none := by
    unfold Json.field?
    rw [Option.map_eq_none_iff, List.find?_eq_none]
    intro f hf hkey
    have hmem := List.mem_map_of_mem (f := Prod.fst) (List.mem_of_mem_filter hf)
    have hkey := of_decide_eq_true hkey
    rw [hkey] at hmem
    exact hname ((commentFields_keys _).subset hmem)
  unfold metadataFields
  rw [Json.field?_append, Json.field?_append, hnone _ (by decide), hnone _ (by decide)]
  exact ⟨rfl, rfl⟩

end Metadata

section Comments
variable {rules : Rules} {printable : String → Bool}

theorem metadata_get? (c : ReviewComment) (name : String) :
    (instanceMetadata rules c).sortKeys.get? name =
      (Json.field? (metadataFields rules c) name).map Json.sortKeys :=
  Json.get?_sortKeys _ (metadataFields_nodup c) name

theorem metadata_shaped (c : ReviewComment) :
    metadataShaped (instanceMetadata rules c).sortKeys = true := by
  have hmem (key : String) : key ∈ ((Json.sortFields (metadataFields rules c)).insertionSort
      (fun a b => a.1 ≤ b.1)).map Prod.fst ↔ key ∈ (metadataFields rules c).map Prod.fst := by
    have hperm := (Json.sortFields (metadataFields rules c)).perm_insertionSort
      (fun a b => a.1 ≤ b.1)
    rw [(hperm.map Prod.fst).mem_iff, Json.sortFields_keys]
  have hkeys : ∀ key ∈ (metadataFields rules c).map Prod.fst, key ∈ metadataKeys := by
    intro key hkey
    unfold metadataFields at hkey
    rw [List.map_append, List.mem_append] at hkey
    rcases hkey with hkey | hkey
    · obtain ⟨f, hf, rfl⟩ := List.mem_map.mp hkey
      obtain ⟨hf, hnot⟩ := List.mem_filter.mp hf
      have hnot := of_decide_eq_true hnot
      have hall := (commentFields_keys _).subset (List.mem_map_of_mem hf)
      have hcover : ∀ key ∈ commentKeys, key ≠ "path" → key ≠ "body" → key ∈ metadataKeys := by
        decide
      exact hcover f.1 hall hnot.1 hnot.2
    · have hcover : ∀ key ∈ ["effective_blocking", "needs_human"], key ∈ metadataKeys := by decide
      exact hcover key hkey
  have hadmission : "effective_blocking" ∈ (metadataFields rules c).map Prod.fst ∧
      "needs_human" ∈ (metadataFields rules c).map Prod.fst := by
    unfold metadataFields
    rw [List.map_append]
    exact ⟨List.mem_append_right _ (by simp), List.mem_append_right _ (by simp)⟩
  have hall : ((Json.sortFields (metadataFields rules c)).insertionSort
      (fun a b => a.1 ≤ b.1)).all (fun f => metadataKeys.contains f.1) = true := by
    rw [List.all_eq_true]
    intro f hf
    rw [List.contains_iff_mem]
    exact hkeys f.1 ((hmem f.1).mp (List.mem_map_of_mem hf))
  rw [instanceMetadata_eq, Json.sortKeys, metadataShaped, hall, Bool.true_and, Bool.and_eq_true,
    List.contains_iff_mem, List.contains_iff_mem, hmem, hmem]
  exact hadmission

theorem optionalText?_text (value : Option String) :
    optionalText? ((value.map Json.str).map Json.sortKeys) = some value := by
  cases value with
  | none => rfl
  | some s => rfl

theorem optionalFlag?_flag (value : Option Bool) :
    optionalFlag? ((value.map Json.bool).map Json.sortKeys) = some value := by
  cases value with
  | none => rfl
  | some b => rfl

theorem optionalLine?_line {value : Option Nat} (h : ∀ n ∈ value, 1 ≤ n) :
    optionalLine? ((value.map (fun n : Nat => Json.int n)).map Json.sortKeys) = some value := by
  cases value with
  | none => rfl
  | some n =>
    have hn := h n rfl
    show (if (0 : Int) < n then some (some (n : Int).toNat) else none) = _
    rw [if_pos (by omega), Int.toNat_natCast]

theorem side?_side (side : Side) :
    side? ((if side = .right then none else some (Json.str side.text)).map Json.sortKeys) =
      some side := by
  cases side <;> decide

/-- The metadata of an accepted comment describes the comment, with what it stands for. -/
theorem readComment_metadata {c : ReviewComment}
    (h : accepted rules printable c.toCommentFields = true) :
    readComment rules printable (some (.str c.path)) (some (.str c.body))
        (instanceMetadata rules c).sortKeys =
      some { c with effectiveBlocking := some (blocksApproval rules c) } := by
  obtain ⟨_, _, hline, hside, hseverity, heffort, hcategory, hblocking, hsymbol, hkind,
    hevidence⟩ := Review.toDict_get c.toCommentFields
  obtain ⟨heffective, hhuman⟩ := @metadata_admission rules c
  have hlines : ∀ n ∈ c.line, 1 ≤ n := by
    intro n hn
    unfold accepted at h
    simp only [Bool.and_eq_true] at h
    obtain ⟨⟨⟨⟨_, hall⟩, _⟩, _⟩, _⟩ := h
    rw [Option.mem_def.mp hn, Option.all_some, Bool.and_eq_true] at hall
    exact of_decide_eq_true hall.1
  have hget (name : String) (hpath : name ≠ "path") (hbody : name ≠ "body")
      (heffective : name ≠ "effective_blocking") (hhuman : name ≠ "needs_human") :
      (instanceMetadata rules c).sortKeys.get? name =
        (c.toCommentFields.toDict.get? name).map Json.sortKeys := by
    rw [metadata_get?, metadata_field c hpath hbody heffective hhuman]
  have htext (name : String) (value : Option String) (hpath : name ≠ "path") (hbody : name ≠ "body")
      (heffective : name ≠ "effective_blocking") (hhuman : name ≠ "needs_human")
      (hvalue : c.toCommentFields.toDict.get? name = value.map .str) :
      optionalText? ((instanceMetadata rules c).sortKeys.get? name) = some value := by
    rw [hget name hpath hbody heffective hhuman, hvalue]
    exact optionalText?_text value
  have rline : optionalLine? ((instanceMetadata rules c).sortKeys.get? "line") = some c.line := by
    rw [hget _ (by decide) (by decide) (by decide) (by decide), hline]
    exact optionalLine?_line hlines
  have rblocking : optionalFlag? ((instanceMetadata rules c).sortKeys.get? "blocking") =
      some c.blocking := by
    rw [hget _ (by decide) (by decide) (by decide) (by decide), hblocking]
    exact optionalFlag?_flag c.blocking
  have rside : side? ((instanceMetadata rules c).sortKeys.get? "side") = some c.side := by
    rw [hget _ (by decide) (by decide) (by decide) (by decide), hside]
    exact side?_side c.side
  have reffective : optionalFlag? ((instanceMetadata rules c).sortKeys.get? "effective_blocking") =
      some (some (blocksApproval rules c)) := by
    rw [metadata_get?, heffective]
    rfl
  have rhuman : flag? ((instanceMetadata rules c).sortKeys.get? "needs_human") =
      some c.needsHuman := by
    rw [metadata_get?, hhuman]
    rfl
  have rpath : text? (some (.str c.path)) = some c.path := rfl
  have rbody : text? (some (.str c.body)) = some c.body := rfl
  unfold readComment
  simp only [metadata_shaped, guard, if_true, Option.pure_def, Option.bind_eq_bind,
    Option.bind_some, rpath, rbody, rline, rblocking, rside, reffective, rhuman,
    htext "severity" c.severity (by decide) (by decide) (by decide) (by decide) hseverity,
    htext "category" c.category (by decide) (by decide) (by decide) (by decide) hcategory,
    htext "fix_effort" c.fixEffort (by decide) (by decide) (by decide) (by decide) heffort,
    htext "symbol" c.symbol (by decide) (by decide) (by decide) (by decide) hsymbol,
    htext "defect_kind" c.defectKind (by decide) (by decide) (by decide) (by decide) hkind,
    htext "evidence_id" c.evidenceId (by decide) (by decide) (by decide) (by decide) hevidence]
  rw [dif_pos c.line_side]
  exact if_pos h

end Comments

section Findings
variable {rules : Rules} {printable : String → Bool}

theorem construct_finding (f : HumanReviewFinding rules) :
    HumanReviewFinding.construct rules f.toFindingFields = .ok f := by
  unfold HumanReviewFinding.construct
  split
  next => rfl
  next message h =>
    rw [f.accepted] at h
    cases h

/-- What the checks of a finding establish. -/
structure FindingFacts (rules : Rules) (f : FindingFields) : Prop where
  identity : isSha256 f.fingerprint = true
  comment : ∀ c ∈ f.comment, c.path = f.path ∧ c.body = f.body ∧
    Review.findingInstanceFingerprint c.toCommentFields = f.fingerprint
  path : Diff.ValidPath rules.unicode f.path.toList
  body : validateBoundedText f.body maxCommentBodyBytes "human finding" false = .ok ()
  few : f.requiredPaths.length ≤ 8
  required : ∀ path ∈ f.requiredPaths, Diff.ValidPath rules.unicode path.toList
  once : f.requiredPaths.Nodup
  own : f.requiredPaths = [] ∨ f.path ∈ f.requiredPaths

theorem check_iff {f : FindingFields} : f.check rules = .ok () ↔ FindingFacts rules f := by
  unfold FindingFields.check
  constructor
  · intro h
    obtain ⟨_, hidentity, h⟩ := bind_ok h
    obtain ⟨_, hcomment, h⟩ := bind_ok h
    obtain ⟨_, hpath, h⟩ := bind_ok h
    obtain ⟨_, hbody, h⟩ := bind_ok h
    obtain ⟨_, hfew, h⟩ := bind_ok h
    obtain ⟨_, hrequired, h⟩ := bind_ok h
    have honce := ensure_inv h
    have hrequired := Convergence.forM_iff.mp hrequired
    exact ⟨ensure_inv hidentity, ensure_inv hcomment, Diff.validateRepositoryPath_iff.mp hpath,
      hbody, ensure_inv hfew, fun path hp => Diff.validateRepositoryPath_iff.mp (hrequired path hp),
      honce.1, honce.2⟩
  · intro h
    have hrequired : f.requiredPaths.forM (fun path => Diff.validateRepositoryPath rules.unicode
        "human finding required path" true path.toList) = .ok () :=
      Convergence.forM_iff.mpr fun path hp => Diff.validateRepositoryPath_iff.mpr (h.required path hp)
    rw [ensure_bind h.identity, ensure_bind h.comment,
      ok_bind (Diff.validateRepositoryPath_iff.mpr h.path), ok_bind h.body, ensure_bind h.few,
      ok_bind hrequired]
    exact ensure_ok ⟨h.once, h.own⟩

theorem HumanReviewFinding.facts (f : HumanReviewFinding rules) :
    FindingFacts rules f.toFindingFields := check_iff.mp f.accepted

/-- The comment a record gives back: what it stood for is now stated. -/
def restoredComment (rules : Rules) (c : ReviewComment) : ReviewComment :=
  { c with effectiveBlocking := some (blocksApproval rules c) }

/-- The finding a record gives back. -/
def restoredFinding (f : HumanReviewFinding rules) : HumanReviewFinding rules where
  toFindingFields := { f.toFindingFields with comment := f.comment.map (restoredComment rules) }
  accepted := by
    have hfacts := f.facts
    rw [check_iff]
    refine ⟨hfacts.identity, ?_, hfacts.path, hfacts.body, hfacts.few, hfacts.required,
      hfacts.once, hfacts.own⟩
    intro c hc
    obtain ⟨d, hd, rfl⟩ := Option.mem_map.mp hc
    exact hfacts.comment d hd

/-- A record does not tell a finding from the one it gives back. -/
theorem toRecord_restored (f : HumanReviewFinding rules) :
    (restoredFinding f).toRecord rules = f.toRecord rules := by
  unfold FindingFields.toRecord restoredFinding
  dsimp only
  cases f.comment with
  | none => rfl
  | some c => rfl

/-- The fields of a finding in a record. -/
def recordFields (rules : Rules) (f : FindingFields) : List (String × Json) :=
  f.identityFields ++ [("required_paths", .arr (f.requiredPaths.map .str)),
    ("instance_metadata", (f.comment.map (instanceMetadata rules)).getD .null),
    ("concern_fingerprint",
      (f.comment.map (fun c => .str (lifecycleFingerprint rules.lower c.toCommentFields))).getD
        .null)]

theorem record_get? (f : FindingFields) (name : String) :
    (f.toRecord rules).sortKeys.get? name =
      (Json.field? (recordFields rules f) name).map Json.sortKeys := by
  have hkeys : Schema.record.findingKeys.Nodup := by decide
  exact Json.get?_sortKeys (recordFields rules f) hkeys name

theorem readInstance_record (f : HumanReviewFinding rules)
    (h : ∀ c ∈ f.comment, accepted rules printable c.toCommentFields = true) :
    readInstance rules printable (f.toRecord rules).sortKeys =
      .ok (f.comment.map (restoredComment rules)) := by
  have hcomment := f.facts.comment
  have hpath : (f.toRecord rules).sortKeys.get? "path" = some (.str f.path) := by
    rw [record_get?]
    rfl
  have hbody : (f.toRecord rules).sortKeys.get? "body" = some (.str f.body) := by
    rw [record_get?]
    rfl
  have hmetadata : (f.toRecord rules).sortKeys.get? "instance_metadata" =
      some ((f.comment.map (instanceMetadata rules)).getD .null).sortKeys := by
    rw [record_get?]
    rfl
  have hconcern : (f.toRecord rules).sortKeys.get? "concern_fingerprint" =
      some ((f.comment.map (fun c => Json.str (lifecycleFingerprint rules.lower
        c.toCommentFields))).getD .null).sortKeys := by
    rw [record_get?]
    rfl
  unfold readInstance
  rw [hpath, hbody, hmetadata, hconcern]
  cases hc : f.comment with
  | none => rfl
  | some c =>
    obtain ⟨hcpath, hcbody, _⟩ := hcomment c hc
    have hread := readComment_metadata (h c hc)
    rw [hcpath, hcbody] at hread
    have hshape : (instanceMetadata rules c).sortKeys ≠ .null := by
      rw [instanceMetadata_eq, Json.sortKeys]
      exact nofun
    simp only [Option.map_some, Option.getD_some]
    split
    next hnull => exact absurd (Option.some.inj hnull) hshape
    next =>
      rw [Option.getD_some, hread]
      exact ensure_bind rfl _

theorem readRequired_record (f : FindingFields) :
    readRequired .record (f.toRecord rules).sortKeys = .ok f.requiredPaths := by
  have hrequired : (f.toRecord rules).sortKeys.get? "required_paths" =
      some (.arr (f.requiredPaths.map .str)) := by
    rw [record_get?]
    exact congrArg some (Json.sortKeys_texts f.requiredPaths)
  unfold readRequired
  rw [hrequired]
  dsimp only
  rw [ensure_bind (.inr rfl)]
  exact Json.mapM_texts readPath (fun _ => rfl) f.requiredPaths

/-- A finding reads back from a record. -/
theorem readFinding_record (f : HumanReviewFinding rules)
    (h : ∀ c ∈ f.comment, accepted rules printable c.toCommentFields = true) :
    readFinding rules printable .record (f.toRecord rules).sortKeys =
      .ok (restoredFinding f) := by
  have hkeys : (f.toRecord rules).sortKeys.hasKeys Schema.record.findingKeys = true := by
    rw [FindingFields.toRecord, Json.hasKeys_sortKeys]
    rfl
  have htext (name text message : String)
      (hfield : Json.field? (recordFields rules f.toFindingFields) name = some (.str text)) :
      Json.readText (fun _ => true) message ((f.toRecord rules).sortKeys.get? name) = .ok text := by
    rw [record_get?, hfield]
    rfl
  unfold readFinding
  rw [ensure_bind hkeys]
  dsimp only
  rw [ok_bind (readInstance_record f h), ok_bind (readRequired_record f.toFindingFields),
    ok_bind (htext "fingerprint" f.fingerprint _ rfl), ok_bind (htext "path" f.path _ rfl),
    ok_bind (htext "body" f.body _ rfl)]
  exact construct_finding (restoredFinding f)

end Findings
end ReviewSensei.Human
