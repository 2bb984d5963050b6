import Mathlib.Data.List.Pairwise
import Mathlib.Tactic.ByContra
import ReviewSensei.FileConfirmation
import ReviewSensei.JsonReading
import ReviewSensei.EvidenceSteps
import ReviewSensei.BaselineReading

/-! A request for human file review reads back from its document, and a group holds its files in
path order whatever the order they came in. -/
namespace ReviewSensei.HumanFiles
open Session (bind_ok)
open Convergence (forM_iff)
open Diff (UnicodeRules)

section Reading
variable {rules : UnicodeRules}

theorem construct_accepted (f : UnsupportedFile rules) :
    UnsupportedFile.construct f.toFileFields = .ok f := by
  unfold UnsupportedFile.construct
  split
  next => rfl
  next message h =>
    rw [f.accepted] at h
    cases h

theorem ofText?_text (change : Change) : Change.ofText? change.text = some change := by
  cases change <;> decide

theorem readFileOptional_text (value : Option String) :
    readFileOptional ((some (FileFields.optionalText value)).map Json.sortKeys) = .ok value := by
  cases value with
  | none => rfl
  | some s => rfl

theorem fileKeys_nodup (f : FileFields) : (f.toDictFields.map Prod.fst).Nodup := by
  have hkeys : fileKeys.Nodup := by decide
  exact hkeys

theorem file_get? (f : FileFields) (name : String) :
    (Json.obj f.toDictFields).sortKeys.get? name =
      (Json.field? f.toDictFields name).map Json.sortKeys :=
  Json.get?_sortKeys _ (fileKeys_nodup f) name

/-- A file reads back from its sorted document. -/
theorem fromDict_sortKeys (f : UnsupportedFile rules) :
    UnsupportedFile.fromDict (Json.obj f.toDictFields).sortKeys = .ok f := by
  have hclosed : closed fileKeys (Json.obj f.toDictFields).sortKeys = .ok () := by
    apply ensure_ok
    rw [Json.hasKeys_sortKeys]
    rfl
  have hpath : readFileText ((Json.obj f.toDictFields).sortKeys.get? "path") =
      .ok (String.ofList f.path) := by
    rw [file_get?]
    rfl
  have hchange : readFileText ((Json.obj f.toDictFields).sortKeys.get? "change") =
      .ok f.change.text := by
    rw [file_get?]
    rfl
  have hoptional (name : String) (value : Option String)
      (hfield : Json.field? f.toDictFields name = some (FileFields.optionalText value)) :
      readFileOptional ((Json.obj f.toDictFields).sortKeys.get? name) = .ok value := by
    rw [file_get?, hfield]
    exact readFileOptional_text value
  have hold : (f.oldPath.map String.ofList).map String.toList = f.oldPath := by
    rw [Option.map_map]
    cases f.oldPath with
    | none => rfl
    | some path => exact congrArg some String.toList_ofList
  unfold UnsupportedFile.fromDict
  rw [ok_bind hclosed, ok_bind hpath, ok_bind hchange,
    ok_bind (hoptional "old_blob" f.oldBlob rfl), ok_bind (hoptional "new_blob" f.newBlob rfl),
    ok_bind (hoptional "old_path" (f.oldPath.map String.ofList) rfl),
    ok_bind (hoptional "old_mode" f.oldMode rfl), ok_bind (hoptional "new_mode" f.newMode rfl),
    ofText?_text]
  dsimp only
  rw [String.toList_ofList, hold]
  exact construct_accepted f

/-- The fields of the document of a part. -/
def partFields (s : Snapshot) (files : List (UnsupportedFile rules)) : List (String × Json) :=
  [("schema_version", .str "human-file-review-v1"), ("repository", .str s.repository),
    ("repository_id", .int s.repositoryId), ("pull_request", .int s.pullRequest),
    ("base_sha", .str s.baseSha), ("head_sha", .str s.headSha), ("review_id", .int s.reviewId),
    ("result_digest", .str s.resultDigest),
    ("files", .arr (files.map (fun f => .obj f.toDictFields)))]

theorem part_get? (s : Snapshot) (files : List (UnsupportedFile rules)) (name : String) :
    (partDict s files).sortKeys.get? name =
      (Json.field? (partFields s files) name).map Json.sortKeys := by
  have hkeys : requestKeys.Nodup := by decide
  exact Json.get?_sortKeys (partFields s files) hkeys name

theorem snapshot_fromDict (s : Snapshot) (files : List (UnsupportedFile rules)) :
    Snapshot.fromDict (partDict s files).sortKeys = .ok s := by
  have htext (name text : String)
      (hfield : Json.field? (partFields s files) name = some (.str text)) :
      readSnapshotText ((partDict s files).sortKeys.get? name) = .ok text := by
    rw [part_get?, hfield]
    rfl
  have hinteger (name : String) (i : Int)
      (hfield : Json.field? (partFields s files) name = some (.int i)) :
      readSnapshotInteger ((partDict s files).sortKeys.get? name) = .ok i := by
    rw [part_get?, hfield]
    rfl
  unfold Snapshot.fromDict
  rw [ok_bind (htext "repository" s.repository rfl),
    ok_bind (hinteger "repository_id" s.repositoryId rfl),
    ok_bind (hinteger "pull_request" s.pullRequest rfl), ok_bind (htext "base_sha" s.baseSha rfl),
    ok_bind (htext "head_sha" s.headSha rfl), ok_bind (hinteger "review_id" s.reviewId rfl),
    ok_bind (htext "result_digest" s.resultDigest rfl)]
  rfl

/-- A part that passes its checks reads back. -/
theorem readPart_sortKeys {s : Snapshot} {files : List (UnsupportedFile rules)}
    (h : checkPart s files = .ok ()) : readPart (partDict s files).sortKeys = .ok (s, files) := by
  have hclosed : closed requestKeys (partDict s files).sortKeys = .ok () := by
    apply ensure_ok
    rw [partDict, Json.hasKeys_sortKeys]
    rfl
  have hversion : (partDict s files).sortKeys.get? "schema_version" =
      some (.str "human-file-review-v1") := by
    rw [part_get?]
    rfl
  have hfiles : (partDict s files).sortKeys.get? "files" =
      some (.arr (files.map (fun f => (Json.obj f.toDictFields).sortKeys))) := by
    rw [part_get?]
    exact congrArg some (Json.sortKeys_arr (fun f => Json.obj f.toDictFields) files)
  have hitems : readItems "human-file-review-v1" "files" "human file request schema is invalid"
      (partDict s files).sortKeys =
        .ok (files.map (fun f => (Json.obj f.toDictFields).sortKeys)) := by
    unfold readItems
    rw [hfiles]
    exact ensure_bind hversion _
  have hread := Json.mapM_sortKeys UnsupportedFile.fromDict
    (fun f : UnsupportedFile rules => .obj f.toDictFields)
    fun f (_ : f ∈ files) => fromDict_sortKeys f
  unfold readPart
  rw [ok_bind hclosed, ok_bind hitems, ok_bind hread, ok_bind (snapshot_fromDict s files),
    ok_bind h]
  rfl

end Reading

section Groups
variable {rules : UnicodeRules} {s : Snapshot} {files files' part : List (UnsupportedFile rules)}
  {parts : List (List (UnsupportedFile rules))}

/-- What the checks of a part establish. -/
theorem checkPart_ok (h : checkPart s files = .ok ()) :
    s.valid ∧ (1 ≤ files.length ∧ files.length ≤ maxFiles ∧
      (files.map (fun f => f.fileId)).Nodup) ∧ distinctPaths files := by
  unfold checkPart at h
  obtain ⟨_, hvalid, h⟩ := bind_ok h
  obtain ⟨_, hfew, h⟩ := bind_ok h
  obtain ⟨_, hpaths, _⟩ := bind_ok h
  exact ⟨ensure_inv hvalid, ensure_inv hfew, ensure_inv hpaths⟩

/-- What the checks of a group establish. -/
structure GroupFacts (s : Snapshot) (parts : List (List (UnsupportedFile rules))) : Prop where
  accepted : ∀ part ∈ parts, checkPart s part = .ok ()
  several : 2 ≤ parts.length
  few : parts.length ≤ maxFiles
  full : ∀ part ∈ parts.dropLast, part.length = maxFiles
  ordered : parts.flatten = byPath parts.flatten
  ids : (parts.flatten.map (fun f => f.fileId)).Nodup
  paths : distinctPaths parts.flatten

theorem checkGroup_ok (h : checkGroup s parts = .ok ()) : GroupFacts s parts := by
  unfold checkGroup at h
  obtain ⟨_, haccepted, h⟩ := bind_ok h
  obtain ⟨_, hcount, h⟩ := bind_ok h
  obtain ⟨_, hparts, _⟩ := bind_ok h
  obtain ⟨hseveral, hfew⟩ := ensure_inv hcount
  obtain ⟨hfull, hordered, hids, hpaths⟩ := ensure_inv hparts
  exact ⟨forM_iff.mp haccepted, hseveral, hfew, hfull, hordered, hids, hpaths⟩

/-- A group reads back. -/
theorem readGroup_sortKeys (h : checkGroup s parts = .ok ()) :
    readGroup (groupDict s parts).sortKeys = .ok ⟨s, parts, .inr h⟩ := by
  have hfacts := checkGroup_ok h
  have hkeys : (["schema_version", "parts"] : List String).Nodup := by decide
  have hget := Json.get?_sortKeys [("schema_version", .str "human-file-review-group-v1"),
    ("parts", .arr (parts.map (partDict s)))] hkeys
  have hclosed : closed ["schema_version", "parts"] (groupDict s parts).sortKeys = .ok () := by
    apply ensure_ok
    rw [groupDict, Json.hasKeys_sortKeys]
    rfl
  have hversion : (groupDict s parts).sortKeys.get? "schema_version" =
      some (.str "human-file-review-group-v1") := hget "schema_version"
  have hparts : (groupDict s parts).sortKeys.get? "parts" =
      some (.arr (parts.map (fun part => (partDict s part).sortKeys))) :=
    (hget "parts").trans (congrArg some (Json.sortKeys_arr (partDict s) parts))
  have hitems : readItems "human-file-review-group-v1" "parts"
      "human file request group schema is invalid" (groupDict s parts).sortKeys =
        .ok (parts.map (fun part => (partDict s part).sortKeys)) := by
    unfold readItems
    rw [hparts]
    exact ensure_bind hversion _
  have hcount : 2 ≤ (parts.map (fun part => (partDict s part).sortKeys)).length ∧
      (parts.map (fun part => (partDict s part).sortKeys)).length ≤ maxFiles := by
    rw [List.length_map]
    exact ⟨hfacts.several, hfacts.few⟩
  have hread : (parts.map (fun part => (partDict s part).sortKeys)).mapM readPart =
      .ok (parts.map (fun part => (s, part))) := by
    have hread : ∀ p ∈ parts.map (fun part => (s, part)),
        readPart (partDict p.1 p.2).sortKeys = .ok p := by
      intro p hp
      obtain ⟨part, hpart, rfl⟩ := List.mem_map.mp hp
      exact readPart_sortKeys (hfacts.accepted part hpart)
    have h := Json.mapM_sortKeys readPart
      (fun p : Snapshot × List (UnsupportedFile rules) => partDict p.1 p.2) hread
    rw [List.map_map] at h
    exact h
  have hgroup : FileReviewRequest.group s parts = .ok ⟨s, parts, .inr h⟩ := by
    unfold FileReviewRequest.group
    split
    next => rfl
    next message herror =>
      rw [h] at herror
      cases herror
  unfold readGroup
  rw [ok_bind hclosed, ok_bind hitems, ensure_bind hcount, ok_bind hread]
  have hne : parts ≠ [] := by
    apply List.ne_nil_of_length_pos
    have hseveral := hfacts.several
    omega
  obtain ⟨first, rest, rfl⟩ := List.exists_cons_of_ne_nil hne
  have hsame : ∀ p ∈ (first :: rest).map (fun part => (s, part)), p.1 = s := by
    intro p hp
    obtain ⟨part, _, rfl⟩ := List.mem_map.mp hp
    rfl
  have hsnd : ((first :: rest).map (fun part => (s, part))).map Prod.snd = first :: rest := by
    rw [List.map_map]
    exact List.map_id _
  rw [List.map_cons] at hsame hsnd ⊢
  dsimp only
  rw [ensure_bind hsame, hsnd]
  exact hgroup

/-- Every request reads back from its sorted document. -/
theorem parseRequest_sortKeys (request : FileReviewRequest rules) :
    parseRequest request.toDict.sortKeys = .ok request := by
  obtain ⟨s, parts, haccepted⟩ := request
  rcases haccepted with ⟨files, hparts, h⟩ | h
  · subst hparts
    have hversion : (partDict s files).sortKeys.get? "schema_version" ≠
        some (.str "human-file-review-group-v1") := by
      rw [part_get?]
      intro heq
      have htext := Json.str.inj (Option.some.inj heq)
      exact absurd htext (by decide)
    have hsingle : FileReviewRequest.single s files = .ok ⟨s, [files], .inl ⟨files, rfl, h⟩⟩ := by
      unfold FileReviewRequest.single
      split
      next => rfl
      next message herror =>
        rw [h] at herror
        cases herror
    unfold parseRequest FileReviewRequest.toDict
    dsimp only
    rw [if_neg hversion, ok_bind (readPart_sortKeys h)]
    exact hsingle
  · have hfacts := checkGroup_ok h
    have hdict : FileReviewRequest.toDict ⟨s, parts, .inr h⟩ = groupDict s parts := by
      unfold FileReviewRequest.toDict
      split
      next files hone =>
        have hseveral := hfacts.several
        rw [show parts = [files] from hone, List.length_singleton] at hseveral
        omega
      next => rfl
    have hversion : (groupDict s parts).sortKeys.get? "schema_version" =
        some (.str "human-file-review-group-v1") := by
      have hkeys : (["schema_version", "parts"] : List String).Nodup := by decide
      exact Json.get?_sortKeys [("schema_version", .str "human-file-review-group-v1"),
        ("parts", .arr (parts.map (partDict s)))] hkeys "schema_version"
    unfold parseRequest
    rw [hdict, if_pos hversion]
    exact readGroup_sortKeys h

end Groups

section Building
variable {rules : UnicodeRules} {s : Snapshot} {files files' : List (UnsupportedFile rules)}
  {request : FileReviewRequest rules}

theorem byPath_perm (files : List (UnsupportedFile rules)) : (byPath files).Perm files :=
  List.perm_insertionSort _ _

theorem byPath_sorted (files : List (UnsupportedFile rules)) :
    (byPath files).Pairwise (fun f g => f.path ≤ g.path) := by
  have htotal : Std.Total (fun f g : UnsupportedFile rules => f.path ≤ g.path) :=
    ⟨fun f g => le_total f.path g.path⟩
  have htrans : IsTrans (UnsupportedFile rules) (fun f g => f.path ≤ g.path) :=
    ⟨fun _ _ _ => le_trans⟩
  exact List.pairwise_insertionSort _ _

theorem distinctPaths_perm (hperm : files'.Perm files) :
    distinctPaths files' ↔ distinctPaths files :=
  (hperm.flatMap_right _).nodup_iff

/-- Where no path stands twice, a path names its file. -/
theorem eq_of_path (h : distinctPaths files) {f g : UnsupportedFile rules} (hf : f ∈ files)
    (hg : g ∈ files) (hpath : f.path = g.path) : f = g := by
  by_contra hne
  have hdisjoint := (List.nodup_flatMap.mp h).2
  have hsymm : Std.Symm (Function.onFun List.Disjoint
      (fun f : UnsupportedFile rules => f.toFileFields.paths)) :=
    ⟨fun _ _ h _ hf hg => h hg hf⟩
  have hfg := hdisjoint.forall hf hg hne
  have hown (f : UnsupportedFile rules) : f.path ∈ f.toFileFields.paths :=
    List.mem_append_right _ (List.mem_singleton_self _)
  exact hfg (hown f) (hpath ▸ hown g)

/-- The order of the files does not matter to the sorted inventory. -/
theorem byPath_eq (h : distinctPaths files) (hperm : files'.Perm files) :
    byPath files' = byPath files := by
  have hsorted : (byPath files').Perm (byPath files) :=
    (byPath_perm files').trans (hperm.trans (byPath_perm files).symm)
  apply hsorted.eq_of_pairwise _ (byPath_sorted files') (byPath_sorted files)
  intro f g hf hg hfg hgf
  have hf := hperm.mem_iff.mp ((byPath_perm files').mem_iff.mp hf)
  have hg := (byPath_perm files).mem_iff.mp hg
  exact eq_of_path h hf hg (le_antisymm hfg hgf)

theorem single_of_part (h : checkPart s files = .ok ()) :
    FileReviewRequest.single s files = .ok ⟨s, [files], .inl ⟨files, rfl, h⟩⟩ := by
  unfold FileReviewRequest.single
  split
  next => rfl
  next message hfails =>
    rw [h] at hfails
    cases hfails

theorem single_ok (h : FileReviewRequest.single s files = .ok request) :
    request.snapshot = s ∧ request.parts = [files] := by
  unfold FileReviewRequest.single at h
  split at h
  · rw [← Except.ok.inj h]
    exact ⟨rfl, rfl⟩
  · cases h

theorem group_ok {parts : List (List (UnsupportedFile rules))}
    (h : FileReviewRequest.group s parts = .ok request) :
    request.snapshot = s ∧ request.parts = parts ∧ GroupFacts s parts := by
  unfold FileReviewRequest.group at h
  split at h
  next hcheck =>
    rw [← Except.ok.inj h]
    exact ⟨rfl, rfl, checkGroup_ok hcheck⟩
  next => cases h

theorem build_many (h : FileReviewRequest.build s files = .ok request)
    (hmany : maxFiles < files.length) :
    FileReviewRequest.group s (pieces (byPath files)) = .ok request := by
  unfold FileReviewRequest.build at h
  rw [if_neg (by omega)] at h
  split at h
  · cases h
  · exact h

theorem pieces_flatten (files : List (UnsupportedFile rules)) : (pieces files).flatten = files :=
  Evidence.flatten_chunks (by decide) files

/-- The files of a group, in full parts and in the order of their paths. -/
structure Partitioned (request : FileReviewRequest rules) (files : List (UnsupportedFile rules)) :
    Prop where
  once : request.files.Perm files
  ordered : request.files.Pairwise (fun f g => f.path < g.path)
  full : ∀ part ∈ request.parts.dropLast, part.length = maxFiles
  few : ∀ part ∈ request.parts, 1 ≤ part.length ∧ part.length ≤ maxFiles

theorem partitioned_of_build (h : FileReviewRequest.build s files = .ok request)
    (hmany : maxFiles < files.length) : Partitioned request files := by
  obtain ⟨_, hparts, hfacts⟩ := group_ok (build_many h hmany)
  have hfiles : request.files = byPath files := by
    rw [FileReviewRequest.files, hparts, pieces_flatten]
  have hpaths : distinctPaths (byPath files) := by
    have hpaths := hfacts.paths
    rwa [pieces_flatten] at hpaths
  have hids : (byPath files).Nodup := by
    have hids := hfacts.ids
    rw [pieces_flatten] at hids
    exact hids.of_map _
  refine ⟨?_, ?_, ?_, ?_⟩
  · rw [hfiles]
    exact byPath_perm files
  · rw [hfiles]
    apply ((byPath_sorted files).and hids).imp_of_mem
    intro f g hf hg hfg
    exact lt_of_le_of_ne hfg.1 fun hpath => hfg.2 (eq_of_path hpaths hf hg hpath)
  · rw [hparts]
    exact hfacts.full
  · intro part hpart
    rw [hparts] at hpart
    obtain ⟨_, ⟨hone, hfew, _⟩, _⟩ := checkPart_ok (hfacts.accepted part hpart)
    exact ⟨hone, hfew⟩

/-- A group is the same for the same files in another order. -/
theorem build_perm (h : FileReviewRequest.build s files = .ok request)
    (hmany : maxFiles < files.length) (hperm : files'.Perm files) :
    FileReviewRequest.build s files' = .ok request := by
  obtain ⟨_, _, hfacts⟩ := group_ok (build_many h hmany)
  have hpaths : distinctPaths files := by
    have hpaths := hfacts.paths
    rw [pieces_flatten] at hpaths
    exact (distinctPaths_perm (byPath_perm files)).mp hpaths
  have hlength := hperm.length_eq
  unfold FileReviewRequest.build at h ⊢
  rw [hlength, byPath_eq hpaths hperm, if_neg (by omega)]
  rwa [if_neg (by omega)] at h

/-- What every request establishes of its parts. -/
structure RequestFacts (request : FileReviewRequest rules) : Prop where
  parts : ∀ part ∈ request.parts, checkPart request.snapshot part = .ok ()
  some : request.parts ≠ []
  few : request.parts.length ≤ maxFiles
  ids : request.fileIds.Nodup

theorem FileReviewRequest.facts (request : FileReviewRequest rules) : RequestFacts request := by
  obtain ⟨s, parts, haccepted⟩ := request
  rcases haccepted with ⟨files, hparts, h⟩ | h
  · subst hparts
    obtain ⟨_, ⟨_, _, hids⟩, _⟩ := checkPart_ok h
    refine ⟨?_, List.cons_ne_nil _ _, show 1 ≤ maxFiles by decide, ?_⟩
    · intro part hpart
      rw [List.mem_singleton.mp hpart]
      exact h
    · show (([files].flatten).map (fun f => f.fileId)).Nodup
      rw [List.flatten_singleton]
      exact hids
  · have hfacts := checkGroup_ok h
    refine ⟨hfacts.accepted, ?_, hfacts.few, hfacts.ids⟩
    apply List.ne_nil_of_length_pos
    have hseveral := hfacts.several
    show 0 < parts.length
    omega

end Building
end ReviewSensei.HumanFiles
