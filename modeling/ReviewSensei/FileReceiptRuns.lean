import ReviewSensei.FileRequestRuns

/-! A confirmation becomes a receipt that records exactly what was selected, each part bound to the
part of the request that holds its files, and the receipt reads back. -/
namespace ReviewSensei.HumanFiles
open Session (bind_ok isSha256)
open Diff (UnicodeRules)

section Selection
variable {rules : UnicodeRules} {casefold : String → String} {body : String}
  {request : FileReviewRequest rules} {selected : List String}

theorem isSha256_fileId (f : FileFields) : isSha256 f.fileId = true := isSha256_sha256 _

theorem command?_ids {target : String} {ids : List String}
    (h : command? body = some (target, ids)) : ids ≠ [] := by
  unfold command? at h
  split at h
  next =>
    split at h
    · obtain ⟨_, rfl⟩ := Prod.mk.inj (Option.some.inj h)
      exact List.cons_ne_nil _ _
    · cases h
  next => cases h

/-- What a confirmation selects: some files of the request, each once; all of them or at most as
many as one receipt holds. -/
theorem parseConfirmation_ok (h : parseConfirmation casefold body request = some selected) :
    selected ≠ [] ∧ selected.Nodup ∧ (∀ id ∈ selected, id ∈ request.fileIds) ∧
      (selected = request.fileIds ∨ selected.length ≤ maxFiles) := by
  unfold parseConfirmation at h
  split at h
  · cases h
  split at h
  · split at h
    · cases h
    next hsome =>
      obtain rfl := Option.some.inj h
      refine ⟨?_, request.facts.ids, fun id hid => hid, .inl rfl⟩
      exact fun hnil => hsome (List.map_eq_nil_iff.mp hnil)
  · split at h
    next => cases h
    next target ids hcommand =>
      split at h
      next hids =>
        obtain rfl := Option.some.inj h
        exact ⟨command?_ids hcommand, hids.2.2.1, hids.2.2.2, .inr hids.2.1⟩
      next => cases h

theorem mem_selectedIn {files : List (UnsupportedFile rules)} {id : String} :
    id ∈ selectedIn selected files ↔ id ∈ files.map (fun f => f.fileId) ∧ id ∈ selected := by
  rw [selectedIn, List.mem_filter, decide_eq_true_iff]

/-- The ids of a request are those of its parts. -/
theorem fileIds_flatMap (request : FileReviewRequest rules) :
    request.fileIds = request.parts.flatMap (fun files => files.map (fun f => f.fileId)) := by
  rw [FileReviewRequest.fileIds, FileReviewRequest.files, List.map_flatten, List.flatMap_def]

theorem selectedIn_parts (request : FileReviewRequest rules) (selected : List String) :
    request.parts.flatMap (selectedIn selected) = request.fileIds.filter (· ∈ selected) := by
  rw [fileIds_flatMap, List.filter_flatMap]
  rfl

end Selection

section Receipts
variable {rules : ConfirmationRules} {request : FileReviewRequest rules.unicode}
  {source : ReceiptSource} {selected : List String}

theorem receipt_accepted (r : FileReviewReceipt rules) :
    FileReviewReceipt.construct r.toReceiptFields = .ok r := by
  unfold FileReviewReceipt.construct
  split
  next => rfl
  next message h =>
    rw [r.accepted] at h
    cases h

/-- Fields that pass their checks make a receipt of just these fields. -/
theorem construct_fields {r : ReceiptFields} (h : r.check rules = .ok ()) :
    ∃ receipt : FileReviewReceipt rules,
      FileReviewReceipt.construct r = .ok receipt ∧ receipt.toReceiptFields = r :=
  ⟨⟨r, h⟩, receipt_accepted ⟨r, h⟩, rfl⟩

theorem check_fields {r : ReceiptFields} (hdigest : isSha256 r.requestDigest = true)
    (hsource : r.source.valid rules) (hsome : r.selectedIds ≠ [])
    (hfew : r.selectedIds.length ≤ maxFiles) (hids : ∀ id ∈ r.selectedIds, isSha256 id = true)
    (hnodup : r.selectedIds.Nodup) : r.check rules = .ok () := by
  have hfields : isSha256 r.requestDigest = true ∧ r.source.shaped rules ∧
      (1 ≤ r.selectedIds.length ∧ r.selectedIds.length ≤ maxFiles) ∧
      (∀ id ∈ r.selectedIds, isSha256 id = true) ∧ r.selectedIds.Nodup :=
    ⟨hdigest, hsource.1, ⟨List.length_pos_of_ne_nil hsome, hfew⟩, hids, hnodup⟩
  unfold ReceiptFields.check
  rw [ensure_bind hfields]
  exact ensure_ok hsource.2

theorem construct_all {rs : List ReceiptFields} (h : ∀ r ∈ rs, r.check rules = .ok ()) :
    ∃ receipts : List (FileReviewReceipt rules),
      rs.mapM FileReviewReceipt.construct = .ok receipts ∧
        receipts.map FileReviewReceipt.toReceiptFields = rs := by
  induction rs with
  | nil => exact ⟨[], rfl, rfl⟩
  | cons r rest ih =>
    obtain ⟨receipt, hfirst, hfields⟩ := construct_fields (h r List.mem_cons_self)
    obtain ⟨receipts, hrest, hmap⟩ := ih fun q hq => h q (List.mem_cons_of_mem _ hq)
    refine ⟨receipt :: receipts, ?_, ?_⟩
    · rw [List.mapM_cons, ok_bind hfirst, ok_bind hrest]
      rfl
    · rw [List.map_cons, hfields, hmap]

/-- The selection is one that a receipt can be made of. -/
theorem selectable_of (hsome : selected ≠ []) (hnodup : selected.Nodup)
    (hmem : ∀ id ∈ selected, id ∈ request.fileIds) : selectable request selected := by
  refine ⟨hsome, ?_, hnodup, hmem⟩
  intro id hid
  obtain ⟨f, _, rfl⟩ := List.mem_map.mp (hmem id hid)
  exact isSha256_fileId _

/-- The fields of the receipts of the parts. -/
def partFieldsOf (request : FileReviewRequest rules.unicode) (source : ReceiptSource)
    (selected : List String) (files : List (UnsupportedFile rules.unicode)) : ReceiptFields :=
  { requestDigest := partDigest request.snapshot files, source,
    selectedIds := selectedIn selected files }

/-- The parts with a selected file. -/
def namedParts (request : FileReviewRequest rules.unicode) (selected : List String) :
    List (List (UnsupportedFile rules.unicode)) :=
  request.parts.filter (fun files => selectedIn selected files ≠ [])

theorem mem_namedParts {files : List (UnsupportedFile rules.unicode)} :
    files ∈ namedParts request selected ↔ files ∈ request.parts ∧ selectedIn selected files ≠ [] := by
  rw [namedParts, List.mem_filter, decide_eq_true_iff]

theorem partReceipts_ok (hsource : source.valid rules) :
    ∃ receipts : List (FileReviewReceipt rules),
      partReceipts request source selected = .ok receipts ∧
        receipts.map FileReviewReceipt.toReceiptFields =
          (namedParts request selected).map (partFieldsOf request source selected) := by
  have hchecks : ∀ r ∈ (namedParts request selected).map (partFieldsOf request source selected),
      r.check rules = .ok () := by
    intro r hr
    obtain ⟨files, hfiles, rfl⟩ := List.mem_map.mp hr
    obtain ⟨hpart, hsome⟩ := mem_namedParts.mp hfiles
    obtain ⟨_, ⟨_, hfew, hids⟩, _⟩ := checkPart_ok (request.facts.parts files hpart)
    apply check_fields
    · exact isSha256_sha256 _
    · exact hsource
    · exact hsome
    · have hlength := List.length_filter_le (fun id => decide (id ∈ selected))
        (files.map (fun f => f.fileId))
      rw [List.length_map] at hlength
      exact hlength.trans hfew
    · intro id hid
      obtain ⟨f, _, rfl⟩ := List.mem_map.mp (mem_selectedIn.mp hid).1
      exact isSha256_fileId _
    · exact hids.filter _
  obtain ⟨receipts, hreceipts, hmap⟩ := construct_all hchecks
  rw [List.mapM_map] at hreceipts
  exact ⟨receipts, hreceipts, hmap⟩

theorem byDigest_perm (parts : List (FileReviewReceipt rules)) : (byDigest parts).Perm parts :=
  List.perm_insertionSort _ _

theorem byDigest_byDigest (parts : List (FileReviewReceipt rules)) :
    byDigest (byDigest parts) = byDigest parts := by
  have htotal : Std.Total (fun p q : FileReviewReceipt rules => p.requestDigest ≤ q.requestDigest) :=
    ⟨fun p q => le_total p.requestDigest q.requestDigest⟩
  have htrans : IsTrans (FileReviewReceipt rules)
      (fun p q => p.requestDigest ≤ q.requestDigest) := ⟨fun _ _ _ => le_trans⟩
  have hsorted := List.pairwise_insertionSort
    (fun p q : FileReviewReceipt rules => p.requestDigest ≤ q.requestDigest) parts
  exact hsorted.insertionSort_eq

/-- SHA-256 gives the parts of the request different digests. -/
def separate (request : FileReviewRequest rules.unicode) : Prop :=
  ∀ p ∈ request.parts, ∀ q ∈ request.parts,
    partDigest request.snapshot p = partDigest request.snapshot q → p = q

/-- No part stands twice: every part has files of its own. -/
theorem parts_nodup (request : FileReviewRequest rules.unicode) : request.parts.Nodup := by
  have hids := request.facts.ids
  rw [fileIds_flatMap] at hids
  have hdisjoint := (List.nodup_flatMap.mp hids).2
  apply hdisjoint.imp_of_mem
  intro p q hp _ hpq heq
  obtain ⟨_, ⟨hsome, _⟩, _⟩ := checkPart_ok (request.facts.parts p hp)
  obtain ⟨f, hf⟩ := List.exists_mem_of_length_pos (by omega : 0 < p.length)
  have hid : f.fileId ∈ p.map (fun f => f.fileId) := List.mem_map_of_mem hf
  exact hpq hid (heq ▸ hid)

theorem flatMap_filter_ne_nil {α β : Type} [DecidableEq β] (f : α → List β) (l : List α) :
    (l.filter (fun a => f a ≠ [])).flatMap f = l.flatMap f := by
  induction l with
  | nil => rfl
  | cons a rest ih =>
    rw [List.filter_cons, List.flatMap_cons]
    by_cases h : f a = []
    · rw [if_neg (by simp [h]), ih, h, List.nil_append]
    · rw [if_pos (by simp [h]), List.flatMap_cons, ih]

section Grouped
variable {receipts : List (FileReviewReceipt rules)}
  (hmap : receipts.map FileReviewReceipt.toReceiptFields =
    (namedParts request selected).map (partFieldsOf request source selected))
include hmap

theorem receipts_ids :
    receipts.flatMap (fun part => part.selectedIds) = request.fileIds.filter (· ∈ selected) := by
  calc receipts.flatMap (fun part => part.selectedIds)
      = (receipts.map FileReviewReceipt.toReceiptFields).flatMap (fun r => r.selectedIds) := by
        rw [List.flatMap_map]
    _ = (namedParts request selected).flatMap (selectedIn selected) := by
        rw [hmap, List.flatMap_map]
        rfl
    _ = request.parts.flatMap (selectedIn selected) := flatMap_filter_ne_nil _ _
    _ = request.fileIds.filter (· ∈ selected) := selectedIn_parts request selected

theorem receipts_digests : receipts.map (fun part => part.requestDigest) =
    (namedParts request selected).map (partDigest request.snapshot) := by
  have h := congrArg (List.map ReceiptFields.requestDigest) hmap
  rw [List.map_map, List.map_map] at h
  exact h

/-- Every receipt belongs to a part of the request. -/
theorem receipt_part {r : FileReviewReceipt rules} (hr : r ∈ receipts) :
    ∃ files ∈ request.parts, r.toReceiptFields = partFieldsOf request source selected files := by
  have hfields : r.toReceiptFields ∈ receipts.map FileReviewReceipt.toReceiptFields :=
    List.mem_map_of_mem hr
  rw [hmap] at hfields
  obtain ⟨files, hfiles, h⟩ := List.mem_map.mp hfields
  exact ⟨files, (mem_namedParts.mp hfiles).1, h.symm⟩

/-- The receipts of one confirmation agree as a group. -/
theorem receipts_coherent (hseparate : separate request) :
    ReceiptGroupFields.coherent
      { requestDigest := request.digest, parts := byDigest receipts } := by
  refine ⟨(byDigest_byDigest receipts).symm, ?_, ?_, ?_⟩
  · have hperm := (byDigest_perm receipts).map (fun part => part.requestDigest)
    rw [hperm.nodup_iff, receipts_digests hmap]
    have hnodup := (parts_nodup request).sublist
      (List.filter_sublist (p := fun files => decide (selectedIn selected files ≠ [])))
    apply List.Nodup.map_on _ hnodup
    intro p hp q hq
    exact hseparate p (mem_namedParts.mp hp).1 q (mem_namedParts.mp hq).1
  · have hperm := (byDigest_perm receipts).flatMap_right (fun part => part.selectedIds)
    show ((byDigest receipts).flatMap (fun part => part.selectedIds)).Nodup
    rw [hperm.nodup_iff, receipts_ids hmap]
    exact request.facts.ids.filter _
  · have hsource : ∀ part ∈ byDigest receipts, part.source = source := by
      intro part hpart
      obtain ⟨files, _, h⟩ := receipt_part hmap ((byDigest_perm receipts).mem_iff.mp hpart)
      rw [h, partFieldsOf]
    intro part hpart first hfirst
    rw [hsource part hpart, hsource first (List.mem_of_head? hfirst)]

/-- A part has a receipt where one of its files is selected. -/
theorem receipts_some (hsome : selected ≠ []) (hmem : ∀ id ∈ selected, id ∈ request.fileIds) :
    1 ≤ receipts.length := by
  obtain ⟨id, hid⟩ := List.exists_mem_of_ne_nil selected hsome
  have hfilter : id ∈ request.fileIds.filter (· ∈ selected) :=
    List.mem_filter.mpr ⟨hmem id hid, decide_eq_true hid⟩
  rw [← receipts_ids hmap] at hfilter
  obtain ⟨r, hr, _⟩ := List.mem_flatMap.mp hfilter
  exact List.length_pos_of_mem hr

theorem receipts_few : receipts.length ≤ maxFiles := by
  have hlength := congrArg List.length hmap
  rw [List.length_map, List.length_map] at hlength
  have hfilter := List.length_filter_le (fun files => decide (selectedIn selected files ≠ []))
    request.parts
  rw [hlength]
  exact hfilter.trans request.facts.few

end Grouped

section Reading

/-- The fields of the document of a receipt. -/
def receiptFields (r : FileReviewReceipt rules) : List (String × Json) :=
  [("schema_version", .str "human-file-receipt-v1"), ("request_digest", .str r.requestDigest),
    ("request_comment_id", .int r.source.requestCommentId),
    ("source_comment_id", .int r.source.sourceCommentId),
    ("source_updated_at", .str r.source.sourceUpdatedAt),
    ("source_sha256", .str r.source.sourceSha256), ("actor_id", .int r.source.actorId),
    ("actor", .str r.source.actor), ("selected_ids", .arr (r.selectedIds.map .str))]

theorem receipt_get? (r : FileReviewReceipt rules) (name : String) :
    r.toDict.sortKeys.get? name = (Json.field? (receiptFields r) name).map Json.sortKeys := by
  have hkeys : receiptKeys.Nodup := by decide
  exact Json.get?_sortKeys (receiptFields r) hkeys name

/-- A receipt reads back. -/
theorem readReceipt_sortKeys (r : FileReviewReceipt rules) :
    readReceipt r.toDict.sortKeys = .ok r := by
  have hclosed : closed receiptKeys r.toDict.sortKeys = .ok () := by
    apply ensure_ok
    rw [FileReviewReceipt.toDict, Json.hasKeys_sortKeys]
    rfl
  have hversion : r.toDict.sortKeys.get? "schema_version" =
      some (.str "human-file-receipt-v1") := by
    rw [receipt_get?]
    rfl
  have hids : r.toDict.sortKeys.get? "selected_ids" = some (.arr (r.selectedIds.map .str)) := by
    rw [receipt_get?]
    exact congrArg some (Json.sortKeys_texts r.selectedIds)
  have hitems : readItems "human-file-receipt-v1" "selected_ids"
      "human file receipt schema is invalid" r.toDict.sortKeys =
        .ok (r.selectedIds.map .str) := by
    unfold readItems
    rw [hids]
    exact ensure_bind hversion _
  have htext (name text : String)
      (hfield : Json.field? (receiptFields r) name = some (.str text)) :
      readReceiptText (r.toDict.sortKeys.get? name) = .ok text := by
    rw [receipt_get?, hfield]
    rfl
  have hinteger (name : String) (i : Int)
      (hfield : Json.field? (receiptFields r) name = some (.int i)) :
      readReceiptInteger (r.toDict.sortKeys.get? name) = .ok i := by
    rw [receipt_get?, hfield]
    rfl
  unfold readReceipt
  rw [ok_bind hclosed, ok_bind hitems, ok_bind (htext "request_digest" r.requestDigest rfl),
    ok_bind (hinteger "request_comment_id" r.source.requestCommentId rfl),
    ok_bind (hinteger "source_comment_id" r.source.sourceCommentId rfl),
    ok_bind (htext "source_updated_at" r.source.sourceUpdatedAt rfl),
    ok_bind (htext "source_sha256" r.source.sourceSha256 rfl),
    ok_bind (hinteger "actor_id" r.source.actorId rfl),
    ok_bind (htext "actor" r.source.actor rfl),
    ok_bind (Json.mapM_texts _ (fun _ => rfl) r.selectedIds)]
  exact receipt_accepted r

theorem group_accepted (g : FileReviewReceiptGroup rules) :
    FileReviewReceiptGroup.construct g.toReceiptGroupFields = .ok g := by
  unfold FileReviewReceiptGroup.construct
  split
  next => rfl
  next message h =>
    rw [g.accepted] at h
    cases h

theorem groupReceipts_few (g : FileReviewReceiptGroup rules) :
    1 ≤ g.parts.length ∧ g.parts.length ≤ maxFiles := by
  have h := g.accepted
  unfold ReceiptGroupFields.check at h
  obtain ⟨_, hcount, _⟩ := bind_ok h
  exact (ensure_inv hcount).2

theorem group_get? (g : ReceiptGroupFields rules) (name : String) :
    g.toDict.sortKeys.get? name =
      (Json.field? [("schema_version", .str "human-file-receipt-group-v1"),
        ("request_digest", .str g.requestDigest),
        ("parts", .arr (g.parts.map FileReviewReceipt.toDict))] name).map Json.sortKeys := by
  have hkeys : (["schema_version", "request_digest", "parts"] : List String).Nodup := by decide
  exact Json.get?_sortKeys [("schema_version", .str "human-file-receipt-group-v1"),
    ("request_digest", .str g.requestDigest),
    ("parts", .arr (g.parts.map FileReviewReceipt.toDict))] hkeys name

/-- The receipts of a group read back. -/
theorem readReceiptGroup_sortKeys (g : FileReviewReceiptGroup rules) :
    readReceiptGroup g.toDict.sortKeys = .ok g := by
  have hclosed : closed ["schema_version", "request_digest", "parts"] g.toDict.sortKeys =
      .ok () := by
    apply ensure_ok
    rw [ReceiptGroupFields.toDict, Json.hasKeys_sortKeys]
    rfl
  have hversion : g.toDict.sortKeys.get? "schema_version" =
      some (.str "human-file-receipt-group-v1") := by
    rw [group_get?]
    rfl
  have hparts : g.toDict.sortKeys.get? "parts" =
      some (.arr (g.parts.map (fun part => part.toDict.sortKeys))) := by
    rw [group_get?]
    exact congrArg some (Json.sortKeys_arr FileReviewReceipt.toDict g.parts)
  have hitems : readItems "human-file-receipt-group-v1" "parts"
      "human file receipt group schema is invalid" g.toDict.sortKeys =
        .ok (g.parts.map (fun part => part.toDict.sortKeys)) := by
    unfold readItems
    rw [hparts]
    exact ensure_bind hversion _
  have hdigest : Json.readText (fun _ => true) "human file receipt group schema is invalid"
      (g.toDict.sortKeys.get? "request_digest") = .ok g.requestDigest := by
    rw [group_get?]
    rfl
  have hcount : 1 ≤ (g.parts.map (fun part => part.toDict.sortKeys)).length ∧
      (g.parts.map (fun part => part.toDict.sortKeys)).length ≤ maxFiles := by
    rw [List.length_map]
    exact groupReceipts_few g
  have hread := Json.mapM_sortKeys readReceipt FileReviewReceipt.toDict
    fun part (_ : part ∈ g.parts) => readReceipt_sortKeys part
  unfold readReceiptGroup
  rw [ok_bind hclosed, ok_bind hitems, ok_bind hdigest, ensure_bind hcount, ok_bind hread]
  exact group_accepted g

theorem parseReceipt_sortKeys (receipt : ReceiptValue rules) :
    parseReceipt receipt.toDict.sortKeys = .ok receipt := by
  cases receipt with
  | one r =>
    have hversion : r.toDict.sortKeys.get? "schema_version" ≠
        some (.str "human-file-receipt-group-v1") := by
      rw [receipt_get?]
      intro heq
      have htext := Json.str.inj (Option.some.inj heq)
      exact absurd htext (by decide)
    unfold parseReceipt ReceiptValue.toDict
    dsimp only
    rw [if_neg hversion, ok_bind (readReceipt_sortKeys r)]
    rfl
  | group g =>
    have hversion : g.toDict.sortKeys.get? "schema_version" =
        some (.str "human-file-receipt-group-v1") := by
      rw [group_get?]
      rfl
    unfold parseReceipt ReceiptValue.toDict
    dsimp only
    rw [if_pos hversion, ok_bind (readReceiptGroup_sortKeys g)]
    rfl

end Reading

section Main

/-- The parts of the request a receipt is bound to are those that hold its files. -/
def Bound (request : FileReviewRequest rules.unicode) : ReceiptValue rules → Prop
  | .one r => r.requestDigest = request.digest
  | .group g => g.requestDigest = request.digest ∧ ∀ r ∈ g.parts, ∃ files ∈ request.parts,
      r.requestDigest = partDigest request.snapshot files ∧
        ∀ id ∈ r.selectedIds, id ∈ files.map (fun f => f.fileId)

/-- A receipt that records just the selection. -/
structure Records (request : FileReviewRequest rules.unicode) (selected : List String)
    (receipt : ReceiptValue rules) : Prop where
  exact : ∀ id, id ∈ receipt.selectedIds ↔ id ∈ selected
  once : receipt.selectedIds.Nodup
  bound : Bound request receipt
  reads : parseReceipt receipt.toDict.sortKeys = .ok receipt

theorem buildReceipt_one {files : List (UnsupportedFile rules.unicode)}
    (hparts : request.parts = [files]) (hsource : source.valid rules)
    (hselectable : selectable request selected) (hfew : selected.length ≤ maxFiles) :
    ∃ receipt, buildReceipt request source selected = .ok receipt ∧
      Records request selected receipt := by
  have hdigest : isSha256 request.digest = true := isSha256_sha256 _
  have hcheck : ReceiptFields.check rules
      { requestDigest := request.digest, source, selectedIds := selected } = .ok () :=
    check_fields hdigest hsource hselectable.1 hfew hselectable.2.1 hselectable.2.2.1
  obtain ⟨receipt, hreceipt, hfields⟩ := construct_fields hcheck
  have hids : receipt.selectedIds = selected := congrArg ReceiptFields.selectedIds hfields
  refine ⟨.one receipt, ?_, ?_, ?_, ?_, parseReceipt_sortKeys _⟩
  · unfold buildReceipt
    rw [ensure_bind hselectable, hparts]
    dsimp only
    rw [ok_bind hreceipt]
    rfl
  · intro id
    show id ∈ receipt.selectedIds ↔ _
    rw [hids]
  · show receipt.selectedIds.Nodup
    rw [hids]
    exact hselectable.2.2.1
  · exact congrArg ReceiptFields.requestDigest hfields

theorem buildReceipt_group (hparts : ∀ files, request.parts ≠ [files])
    (hsource : source.valid rules) (hselectable : selectable request selected)
    (hseparate : separate request) :
    (∃ receipt, buildReceipt request source selected = .ok receipt ∧
      Records request selected receipt) ∨
      buildReceipt request source selected =
        .error "human file receipt group exceeds the document bound" := by
  obtain ⟨receipts, hreceipts, hmap⟩ : ∃ receipts : List (FileReviewReceipt rules),
      partReceipts request source selected = .ok receipts ∧
        receipts.map FileReviewReceipt.toReceiptFields =
          (namedParts request selected).map (partFieldsOf request source selected) :=
    partReceipts_ok hsource
  obtain ⟨g, hg⟩ : ∃ g : ReceiptGroupFields rules,
      g = { requestDigest := request.digest, parts := byDigest receipts } := ⟨_, rfl⟩
  have hgroup : buildReceipt request source selected =
      (FileReviewReceiptGroup.construct g >>= fun group => pure (.group group)) := by
    unfold buildReceipt
    rw [ensure_bind hselectable, hg]
    split
    next files hone => exact absurd hone (hparts files)
    next => rw [ok_bind hreceipts]
  have hdigest : g.requestDigest = request.digest := by rw [hg]
  have hsorted : g.parts = byDigest receipts := by rw [hg]
  have hlength : g.parts.length = receipts.length := by
    rw [hsorted]
    exact (byDigest_perm receipts).length_eq
  have hcount : isSha256 g.requestDigest = true ∧ 1 ≤ g.parts.length ∧
      g.parts.length ≤ maxFiles := by
    rw [hlength]
    refine ⟨?_, receipts_some hmap hselectable.1 hselectable.2.2.2, receipts_few hmap⟩
    rw [hdigest]
    exact isSha256_sha256 _
  have hcoherent : g.coherent := by
    rw [hg]
    exact receipts_coherent hmap hseparate
  have hcheck : g.check = ensure
      ((Sha256.encode (canonical g.toDict)).length ≤ maxDocumentBytes)
        "human file receipt group exceeds the document bound" := by
    unfold ReceiptGroupFields.check
    rw [ensure_bind hcount, ensure_bind hcoherent]
  by_cases hsize : (Sha256.encode (canonical g.toDict)).length ≤ maxDocumentBytes
  · left
    rw [ensure_ok hsize] at hcheck
    have hids : g.selectedIds.Perm (request.fileIds.filter (· ∈ selected)) := by
      have hperm := (byDigest_perm receipts).flatMap_right (fun part => part.selectedIds)
      rw [receipts_ids hmap] at hperm
      rw [hg]
      exact hperm
    refine ⟨.group ⟨g, hcheck⟩, ?_, ?_, ?_, ?_, parseReceipt_sortKeys _⟩
    · rw [hgroup, ok_bind (group_accepted ⟨g, hcheck⟩)]
      rfl
    · intro id
      show id ∈ g.selectedIds ↔ _
      rw [hids.mem_iff, List.mem_filter, decide_eq_true_iff]
      exact and_iff_right_of_imp (hselectable.2.2.2 id)
    · show g.selectedIds.Nodup
      rw [hids.nodup_iff]
      exact request.facts.ids.filter _
    · refine ⟨hdigest, ?_⟩
      intro r hr
      have hr : r ∈ byDigest receipts := hsorted ▸ hr
      have hr := (byDigest_perm receipts).mem_iff.mp hr
      obtain ⟨files, hfiles, h⟩ := receipt_part hmap hr
      refine ⟨files, hfiles, by rw [h, partFieldsOf], ?_⟩
      intro id hid
      rw [h, partFieldsOf] at hid
      exact (mem_selectedIn.mp hid).1
  · right
    have herror : g.check = .error "human file receipt group exceeds the document bound" := by
      rw [hcheck, ensure, if_neg hsize]
    rw [hgroup]
    unfold FileReviewReceiptGroup.construct
    split
    next hok =>
      rw [herror] at hok
      cases hok
    next message h =>
      rw [herror] at h
      rw [← Except.error.inj h]
      rfl

/-- What `build_request_group` returns reads back, a group holds its files once and in path order
whatever order they came in, and every selection a comment makes is recorded by a receipt, unless
the receipts of its parts exceed the document bound. -/
theorem request_confirmed (rules : ConfirmationRules) :
    (∀ (s : Snapshot) (files : List (UnsupportedFile rules.unicode))
      (request : FileReviewRequest rules.unicode),
      FileReviewRequest.build s files = .ok request →
        parseRequest request.toDict.sortKeys = .ok request ∧
        (files.length ≤ maxFiles → request.parts = [files]) ∧
        (maxFiles < files.length → Partitioned request files ∧
          ∀ files', files'.Perm files → FileReviewRequest.build s files' = .ok request)) ∧
    ∀ (request : FileReviewRequest rules.unicode) (body : String) (selected : List String)
      (source : ReceiptSource),
      parseConfirmation rules.casefold body request = some selected → source.valid rules →
      separate request →
        (∃ receipt, buildReceipt request source selected = .ok receipt ∧
          Records request selected receipt) ∨
        buildReceipt request source selected =
          .error "human file receipt group exceeds the document bound" := by
  constructor
  · intro s files request h
    refine ⟨parseRequest_sortKeys request, ?_, ?_⟩
    · intro hfew
      unfold FileReviewRequest.build at h
      rw [if_pos hfew] at h
      exact (single_ok h).2
    · intro hmany
      exact ⟨partitioned_of_build h hmany, fun files' hperm => build_perm h hmany hperm⟩
  · intro request body selected source h hsource hseparate
    obtain ⟨hsome, hnodup, hmem, hcount⟩ := parseConfirmation_ok h
    have hselectable := selectable_of hsome hnodup hmem
    by_cases hone : ∃ files, request.parts = [files]
    · obtain ⟨files, hparts⟩ := hone
      have hfew : selected.length ≤ maxFiles := by
        rcases hcount with hall | hfew
        · have hpart := request.facts.parts files (by rw [hparts]; exact List.mem_singleton_self _)
          obtain ⟨_, ⟨_, hfew, _⟩, _⟩ := checkPart_ok hpart
          rw [hall, FileReviewRequest.fileIds, FileReviewRequest.files, hparts,
            List.flatten_singleton, List.length_map]
          exact hfew
        · exact hfew
      exact .inl (buildReceipt_one hparts hsource hselectable hfew)
    · exact buildReceipt_group (fun files hparts => hone ⟨files, hparts⟩) hsource hselectable
        hseparate

section Sample

/-- What the rules say of the texts of the sample. -/
def sampleRules : ConfirmationRules where
  unicode := { nfc := fun _ => true, forbidden := fun _ => false }
  casefold := fun s => String.ofList (s.toList.map Char.toLower)
  timestampShape := Holds.isTimestamp
  timestamp := Holds.isTimestamp

def sampleFile : UnsupportedFile sampleRules.unicode where
  path := "logo.png".toList
  change := .added
  newBlob := some "0123456789012345678901234567890123456789"
  newMode := some "100644"
  accepted := by decide

def sampleSnapshot : Snapshot where
  repository := "o/r"
  repositoryId := 1
  pullRequest := 2
  baseSha := "0000000000000000000000000000000000000000"
  headSha := "1111111111111111111111111111111111111111"
  reviewId := 3
  resultDigest := "2222222222222222222222222222222222222222222222222222222222222222"

theorem sample_size : (Sha256.encode
    (canonical (partDict sampleSnapshot [sampleFile]))).length ≤ maxDocumentBytes := by
  -- the text has no escapes, so its size is counted without writing it
  have hplain : Json.allPlain (partDict sampleSnapshot [sampleFile]) = true := by decide
  have hsorted : Json.allPlain (partDict sampleSnapshot [sampleFile]).sortKeys = true := by
    decide
  unfold canonical
  rw [Json.chars_same hsorted]
  change (Sha256.encode (Json.canonical (partDict sampleSnapshot [sampleFile]))).length ≤ _
  rw [Json.encode_canonical, Json.canonicalSize_plain hplain]
  decide

theorem sample_part : checkPart sampleSnapshot [sampleFile] = .ok () := by
  unfold checkPart
  rw [ensure_bind (by decide), ensure_bind ⟨by decide, by decide, List.nodup_singleton _⟩,
    ensure_bind (by decide)]
  exact ensure_ok sample_size

def sampleRequest : FileReviewRequest sampleRules.unicode :=
  ⟨sampleSnapshot, [[sampleFile]], .inl ⟨_, rfl, sample_part⟩⟩

def sampleSource : ReceiptSource where
  requestCommentId := 4
  sourceCommentId := 5
  sourceUpdatedAt := "2026-01-02T03:04:05Z"
  sourceSha256 := "3333333333333333333333333333333333333333333333333333333333333333"
  actorId := 6
  actor := "octocat"

def sampleBody : String := "@ReviewSensei  I reviewed the media files and I approve\n"

/-- The maintainer's sentence selects the one file of the request. -/
theorem sample_confirmed :
    parseRequest sampleRequest.toDict.sortKeys = .ok sampleRequest ∧
      ((∃ receipt, buildReceipt sampleRequest sampleSource [sampleFile.fileId] = .ok receipt ∧
        Records sampleRequest [sampleFile.fileId] receipt) ∨
        buildReceipt sampleRequest sampleSource [sampleFile.fileId] =
          .error "human file receipt group exceeds the document bound") := by
  have hbuild : FileReviewRequest.build sampleSnapshot [sampleFile] = .ok sampleRequest := by
    have hsingle : FileReviewRequest.single sampleSnapshot [sampleFile] = .ok sampleRequest :=
      single_of_part sample_part
    have hone : [sampleFile].length ≤ maxFiles := show 1 ≤ maxFiles by decide
    unfold FileReviewRequest.build
    rw [if_pos hone]
    exact hsingle
  have hselected : parseConfirmation sampleRules.casefold sampleBody sampleRequest =
      some [sampleFile.fileId] := by
    have hsmall : ¬maxSourceBytes < (Sha256.encode sampleBody).length := by decide
    have hblanket : isBlanketMediaApproval sampleRules.casefold sampleBody = true := by
      decide
    unfold parseConfirmation
    rw [if_neg hsmall, if_pos hblanket]
    rfl
  have hseparate : separate sampleRequest := by
    intro p hp q hq _
    rw [List.mem_singleton.mp hp, List.mem_singleton.mp hq]
  obtain ⟨hrequest, hreceipt⟩ := request_confirmed sampleRules
  exact ⟨(hrequest sampleSnapshot [sampleFile] sampleRequest hbuild).1,
    hreceipt sampleRequest sampleBody _ sampleSource hselected (by decide) hseparate⟩

end Sample

end Main

end Receipts
end ReviewSensei.HumanFiles
