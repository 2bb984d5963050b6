import ReviewSensei.FactoredRoundTrip

/-! What a factored journal keeps: it is read back as itself, it accepts only its own encoding, and
a migration keeps every operation. -/
namespace ReviewSensei.Assessment
open Session (bind_ok)

theorem map_sortKeys_ordered {ops : List Json} (h : Json.OrderedItems ops) :
    ops.map Json.sortKeys = ops := by
  rw [← Json.sortItems_eq]
  exact Json.sortItems_of_ordered ops h

theorem ordered_map_sortKeys (ops : List Json) : Json.OrderedItems (ops.map Json.sortKeys) := by
  rw [← Json.sortItems_eq]
  exact Json.sortItems_ordered ops

theorem readOperation_some {item : Json} {row : Operation} (h : readOperation item = some row) :
    item = row.toDocument ∧ row.bound = true := by
  unfold readOperation at h
  split at h
  next id receipt source hrecord =>
    split at h
    next hbound =>
      obtain rfl := Option.some.inj h
      exact ⟨(Json.record?_some hrecord).1, hbound⟩
    next => cases h
  next => cases h

theorem mapM_readOperation {ops : List Json} {rows : List Operation}
    (h : ops.mapM readOperation = some rows) :
    ops = rows.map Operation.toDocument ∧ ∀ row ∈ rows, row.bound = true := by
  induction ops generalizing rows with
  | nil =>
    obtain rfl := Option.some.inj h
    exact ⟨rfl, fun _ hr => absurd hr List.not_mem_nil⟩
  | cons op ops ih =>
    rw [List.mapM_cons] at h
    obtain ⟨row, hrow, h⟩ := Option.bind_eq_some_iff.mp h
    obtain ⟨rest, hrest, h⟩ := Option.bind_eq_some_iff.mp h
    obtain rfl := Option.some.inj h
    obtain ⟨hitem, hbound⟩ := readOperation_some hrow
    obtain ⟨hitems, hbounds⟩ := ih hrest
    exact ⟨by rw [hitem, hitems, List.map_cons], List.forall_mem_cons.mpr ⟨hbound, hbounds⟩⟩

theorem sourcesBound_rows {ops : List Json} (h : sourcesBound ops = true) :
    ∃ rows : List Operation, ops = rows.map Operation.toDocument ∧ (∀ row ∈ rows, row.bound = true) ∧
      (rows.map Operation.sourceDigest).Nodup := by
  unfold sourcesBound at h
  split at h
  next rows hrows =>
    obtain ⟨hops, hbound⟩ := mapM_readOperation hrows
    exact ⟨rows, hops, hbound, of_decide_eq_true h⟩
  next => cases h

theorem sourcesBound_dicts {ops : List Json} (h : sourcesBound ops = true) :
    ops.all isDict = true := by
  obtain ⟨rows, rfl, -⟩ := sourcesBound_rows h
  rw [List.all_map, List.all_eq_true]
  intro row _
  rfl

/-- What `__init__` checked of a journal. -/
structure Retained (kind : JournalKind) (queue : HeldQueue) (ops : List Json) (document : Json) :
    Prop where
  count : ops.length ≤ kind.maxRetainedOperations
  sources : sourcesBound ops = true
  encoded : encodeDocument queue ops kind = .ok document
  size : document.canonicalSize ≤ maxOperationReceiptBytes

theorem retainedDocument_iff {kind : JournalKind} {queue : HeldQueue} {ops : List Json}
    {document : Json} : retainedDocument kind queue ops = .ok document ↔
      Retained kind queue ops document := by
  constructor
  · intro h
    obtain ⟨_, hcount, h⟩ := bind_ok h
    obtain ⟨_, hsources, h⟩ := bind_ok h
    obtain ⟨encoded, hencoded, h⟩ := bind_ok h
    obtain ⟨_, hsize, h⟩ := bind_ok h
    obtain rfl := Except.ok.inj h
    exact ⟨ensure_inv hcount, ensure_inv hsources, hencoded, ensure_inv hsize⟩
  · intro h
    rw [retainedDocument, ensure_bind h.count, ensure_bind h.sources, ok_bind h.encoded,
      ensure_bind h.size]
    rfl

theorem construct_ok {kind : JournalKind} {queue : HeldQueue} {ops : List Json}
    {journal : Journal kind} (h : Journal.construct kind queue ops = .ok journal) :
    Retained kind queue (ops.map Json.sortKeys) journal.document := by
  unfold Journal.construct at h
  split at h
  next document hdocument =>
    obtain rfl := Except.ok.inj h
    exact retainedDocument_iff.mp hdocument
  next => cases h

theorem construct_retained {kind : JournalKind} {queue : HeldQueue} {ops : List Json}
    {journal : Journal kind} (h : Retained kind queue (ops.map Json.sortKeys) journal.document) :
    Journal.construct kind queue ops = .ok journal := by
  have hdocument := retainedDocument_iff.mpr h
  unfold Journal.construct
  split
  next document hother =>
    obtain ⟨held, hbuilt⟩ := journal
    obtain rfl : document = held := Except.ok.inj (hother.symm.trans hdocument)
    rfl
  next message hother => exact absurd (hother.symm.trans hdocument) (by simp)

theorem Journal.retained {kind : JournalKind} (journal : Journal kind) :
    ∃ (queue : HeldQueue) (ops : List Json), Json.OrderedItems ops ∧
      Retained kind queue ops journal.document := by
  obtain ⟨queue, ops, h⟩ := journal.built
  exact ⟨queue, ops.map Json.sortKeys, ordered_map_sortKeys ops, retainedDocument_iff.mp h⟩

theorem ordered_texts (ids : List String) : (texts ids).Ordered := by
  rw [texts, Json.Ordered, Json.orderedItems_iff]
  intro j hj
  obtain ⟨s, -, rfl⟩ := List.mem_map.mp hj
  trivial

theorem ordered_snapshot (s : EvidenceSnapshot) : s.toDict.Ordered := by
  have htext : ∀ value, (optionalText value).Ordered := by
    intro value
    cases value <;> trivial
  have hnumber : ∀ value, (optionalNumber value).Ordered := by
    intro value
    cases value <;> trivial
  exact Json.ordered_zip rfl (by decide : snapshotKeys.Pairwise (· ≤ ·))
    ⟨htext _, htext _, hnumber _, htext _, trivial⟩

theorem ordered_queue (f : QueueFields) : f.toDocument.Ordered := by
  exact Json.ordered_zip rfl (by decide : queueKeys.Pairwise (· ≤ ·))
    ⟨trivial, ordered_texts _, ordered_texts _, ordered_texts _, trivial, ordered_snapshot _, trivial⟩

theorem ordered_history (queue : HeldQueue) {records : List Json} (strings : List String)
    (h : Json.OrderedItems records) : (historyDocument queue records strings).Ordered := by
  exact Json.ordered_zip rfl (by decide : factoredKeys.Pairwise (· ≤ ·))
    ⟨h, ordered_queue _, trivial, ordered_texts _, trivial⟩

theorem ordered_legacy (queue : HeldQueue) {ops : List Json} (h : Json.OrderedItems ops) :
    (Json.obj (journalKeys.zip [.arr ops, queue.toQueueFields.toDocument,
      .str queueInterfaceVersion])).Ordered := by
  exact Json.ordered_zip rfl (by decide : journalKeys.Pairwise (· ≤ ·))
    ⟨h, ordered_queue _, trivial, trivial⟩

/-- What a journal keeps of the queue and the operations that it was built from. -/
structure Keeps {kind : JournalKind} (journal : Journal kind) (queue : HeldQueue)
    (ops : List Json) : Prop where
  ordered : Json.OrderedItems ops
  retained : Retained kind queue ops journal.document
  operations : journal.operations = .ok ops
  queue : journal.queue = .ok queue
  document : journal.document.Ordered

theorem queue_of_document {kind : JournalKind} {journal : Journal kind} {queue : HeldQueue}
    (h : journal.document.get? "queue" = some queue.toQueueFields.toDocument) :
    journal.queue = .ok queue := by
  rw [Journal.queue, h]
  exact queueFromDocument_self queue

theorem factored_keeps {journal : Journal .factored} {queue : HeldQueue} {ops : List Json}
    (ho : Json.OrderedItems ops) (h : Retained .factored queue ops journal.document) :
    Keeps journal queue ops := by
  obtain ⟨records, t, hrows, -, hdocument, -⟩ := encodeHistory_inv h.encoded
  refine ⟨ho, h, ?_, ?_, ?_⟩
  · exact decodeOperations_encodeHistory h.encoded (sourcesBound_dicts h.sources) h.count
  · apply queue_of_document
    rw [hdocument]
    simp [historyDocument, Json.get?, factoredKeys]
  · rw [hdocument]
    exact ordered_history queue _ (encodeRows_ordered hrows ho)

theorem legacy_keeps {journal : Journal .assessment} {queue : HeldQueue} {ops : List Json}
    (ho : Json.OrderedItems ops) (h : Retained .assessment queue ops journal.document) :
    Keeps journal queue ops := by
  have hdocument := Except.ok.inj h.encoded
  refine ⟨ho, h, ?_, ?_, ?_⟩
  · rw [Journal.operations, ← hdocument]
    simp [Json.get?, journalKeys]
  · apply queue_of_document
    rw [← hdocument]
    simp [Json.get?, journalKeys]
  · rw [← hdocument]
    exact ordered_legacy queue ho

theorem keeps_of_retained {kind : JournalKind} {journal : Journal kind} {queue : HeldQueue}
    {ops : List Json} (ho : Json.OrderedItems ops) (h : Retained kind queue ops journal.document) :
    Keeps journal queue ops := by
  cases kind with
  | assessment => exact legacy_keeps ho h
  | factored => exact factored_keeps ho h

theorem Journal.keeps {kind : JournalKind} (journal : Journal kind) :
    ∃ queue ops, Keeps journal queue ops := by
  obtain ⟨queue, ops, ho, h⟩ := journal.retained
  exact ⟨queue, ops, keeps_of_retained ho h⟩

theorem construct_keeps {kind : JournalKind} {queue : HeldQueue} {ops : List Json}
    {journal : Journal kind} (h : Journal.construct kind queue ops = .ok journal) :
    Keeps journal queue (ops.map Json.sortKeys) :=
  keeps_of_retained (ordered_map_sortKeys ops) (construct_ok h)

theorem Keeps.construct {kind : JournalKind} {journal : Journal kind} {queue : HeldQueue}
    {ops : List Json} (h : Keeps journal queue ops) :
    Journal.construct kind queue ops = .ok journal :=
  construct_retained (by rw [map_sortKeys_ordered h.ordered]; exact h.retained)

theorem legacy_reads_itself (journal : Journal .assessment) :
    Journal.fromDocument .assessment journal.document = .ok journal := by
  obtain ⟨queue, ops, h⟩ := journal.keeps
  have hdocument := Except.ok.inj h.retained.encoded
  have hrecord : journal.document.record? journalKeys =
      some [.arr ops, queue.toQueueFields.toDocument, .str queueInterfaceVersion] := by
    rw [← hdocument]
    exact Json.record?_zip rfl
  rw [Journal.fromDocument, Json.sortKeys_of_ordered _ h.document, readJournal, hrecord]
  dsimp only
  rw [ensure_bind rfl, ok_bind (queueFromDocument_self queue)]
  exact h.construct

/-- A factored journal is read back from its document as itself. -/
theorem factored_reads_itself (journal : Journal .factored) :
    Journal.fromDocument .factored journal.document = .ok journal := by
  obtain ⟨queue, ops, h⟩ := journal.keeps
  obtain ⟨records, t, hrows, -, hdocument, -⟩ := encodeHistory_inv h.retained.encoded
  have hrecord : journal.document.record? factoredKeys =
      some [.arr records, queue.toQueueFields.toDocument,
        .str factoredJournalInterfaceVersion, texts t.strings] := by
    rw [hdocument]
    exact Json.record?_zip rfl
  rw [Journal.fromDocument, Json.sortKeys_of_ordered _ h.document, readFactored, hrecord]
  dsimp only
  rw [ensure_bind rfl, ensure_bind h.retained.size, ok_bind (queueFromDocument_self queue),
    ok_bind (show decodeOperations journal.document = .ok ops from h.operations),
    ok_bind h.construct, ensure_bind (Json.equals_self _)]
  rfl

theorem readTable_inv {document : Json} {strings : List String} {records : List Json}
    (h : readTable document = some (strings, records)) :
    document.get? "strings" = some (texts strings) ∧
      document.get? "operations" = some (.arr records) := by
  unfold readTable at h
  split at h
  next items found hstrings hrecords =>
    obtain ⟨read, hread, h⟩ := Option.bind_eq_some_iff.mp h
    split at h
    next =>
      obtain ⟨rfl, rfl⟩ := Prod.mk.inj (Option.some.inj h)
      rw [hstrings, hrecords, mapM_readText?_some hread]
      exact ⟨rfl, rfl⟩
    next => cases h
  next => cases h

/-- Only the document of a factored journal is read as that journal. -/
theorem factored_reads_only {value : Json} {journal : Journal .factored}
    (h : Journal.fromDocument .factored value = .ok journal) :
    value.sortKeys = journal.document := by
  have hordered := Json.sortKeys_ordered value
  rw [Journal.fromDocument] at h
  generalize value.sortKeys = v at h hordered
  unfold readFactored at h
  split at h
  next recordsValue queueValue version stringsValue hrecord =>
    obtain ⟨_, hversion, h⟩ := bind_ok h
    obtain ⟨_, _, h⟩ := bind_ok h
    obtain ⟨queue, hqueue, h⟩ := bind_ok h
    obtain ⟨ops, hops, h⟩ := bind_ok h
    obtain ⟨found, hfound, h⟩ := bind_ok h
    obtain ⟨_, hequal, h⟩ := bind_ok h
    obtain rfl := Except.ok.inj h
    have hv := (Json.record?_some hrecord).1
    unfold decodeOperations at hops
    split at hops
    next strings records htable =>
      obtain ⟨hstrings, hrecords⟩ := readTable_inv htable
      -- the fields of the document, as far as reading has fixed them
      obtain rfl : recordsValue = .arr records := by
        rw [hv] at hrecords
        simpa [Json.get?, factoredKeys] using hrecords
      obtain rfl : stringsValue = texts strings := by
        rw [hv] at hstrings
        simpa [Json.get?, factoredKeys] using hstrings
      have hhistory : v = historyDocument queue records strings := by
        rw [hv, queueFromDocument_ok hqueue, ensure_inv hversion]
        rfl
      have hrowsOrdered : Json.OrderedItems records := by
        rw [hhistory] at hordered
        exact hordered.2.1
      have hopsOrdered := decodeRows_ordered hops hrowsOrdered
      have hretained := construct_ok hfound
      rw [map_sortKeys_ordered hopsOrdered] at hretained
      obtain ⟨records', t, hrows, -, hdocument, -⟩ := encodeHistory_inv hretained.encoded
      have heq := ensure_inv hequal
      rw [hdocument, hhistory] at heq
      simp only [historyDocument, factoredKeys, texts, List.zip_cons_cons, List.zip_nil_right,
        Json.equals, Json.equalFields, Bool.and_eq_true] at heq
      obtain ⟨⟨-, hrecordsEqual⟩, -, -, ⟨-, hstringsEqual⟩, -⟩ := heq
      rw [hdocument, hhistory, equalRows_encoding hops hrows hrecordsEqual,
        equal_texts hstringsEqual]
    next => cases hops
  next => cases h

/-- A document that a factored journal was read from: the one encoding of its operations, over a
table that has each of their strings once and no others. -/
structure Canonical (value : Json) (journal : Journal .factored) : Prop where
  document : value.sortKeys = journal.document
  bytes : value.canonical = journal.document.canonical
  history : ∃ queue ops records strings, journal.queue = .ok queue ∧ journal.operations = .ok ops ∧
    encodeHistory queue ops = .ok value.sortKeys ∧
    value.sortKeys = historyDocument queue records strings ∧
    strings.Nodup ∧ ∀ s, s ∈ strings ↔ s ∈ Json.itemsTexts ops

theorem factored_canonical {value : Json} {journal : Journal .factored}
    (h : Journal.fromDocument .factored value = .ok journal) : Canonical value journal := by
  have hdocument := factored_reads_only h
  obtain ⟨queue, ops, hkeeps⟩ := journal.keeps
  obtain ⟨records, t, hrows, -, hhistory, -⟩ := encodeHistory_inv hkeeps.retained.encoded
  have hstrings := (encodeRows_ok hrows).strings
  refine ⟨hdocument, ?_, queue, ops, records, t.strings, hkeeps.queue, hkeeps.operations, ?_, ?_,
    ?_, ?_⟩
  · rw [Json.canonical, Json.canonical, ← hdocument, Json.sortKeys_sortKeys]
  · rw [hdocument]
    exact hkeeps.retained.encoded
  · rw [hdocument, hhistory]
  · rw [hstrings]
    exact nodup_addTexts _ List.nodup_nil
  · intro s
    rw [hstrings, mem_addTexts]
    simp

theorem legacy_migrates {legacy : Journal .assessment} {journal : Journal .factored}
    (h : legacy.fromLegacy = .ok journal) :
    ∃ queue ops, Keeps legacy queue ops ∧ Keeps journal queue ops := by
  obtain ⟨queue, ops, hkeeps⟩ := legacy.keeps
  rw [Journal.fromLegacy, ok_bind hkeeps.queue, ok_bind hkeeps.operations] at h
  have hfactored := construct_keeps h
  rw [map_sortKeys_ordered hkeeps.ordered] at hfactored
  exact ⟨queue, ops, hkeeps, hfactored⟩

/-- The codec of factored histories: what the bounds admit is encoded and decoded to itself, a
journal is read back from its document, a document that is accepted is the one encoding of its
operations, and migrating keeps every operation. -/
theorem factored_history_codec :
    (∀ queue ops active, ops.all isDict = true → ops.length ≤ maxRetainedFactoredOperations →
      WithinBounds ops → activeOperations ops = .ok active →
      active ≤ maxRetainedAssessmentOperations →
      ∃ document, encodeHistory queue ops = .ok document ∧ decodeOperations document = .ok ops) ∧
    (∀ queue ops journal, Journal.construct .factored queue ops = .ok journal →
      journal.operations = .ok (ops.map Json.sortKeys) ∧ journal.queue = .ok queue) ∧
    (∀ journal : Journal .factored,
      Journal.fromDocument .factored journal.document = .ok journal) ∧
    (∀ value journal, Journal.fromDocument .factored value = .ok journal →
      Canonical value journal ∧
      ∀ value' journal', Journal.fromDocument .factored value' = .ok journal' →
        journal'.operations = journal.operations → journal'.queue = journal.queue →
        value'.canonical = value.canonical) ∧
    (∀ legacy journal, Journal.fromLegacy legacy = .ok journal →
      ∃ ops, legacy.operations = .ok ops ∧ journal.operations = .ok ops ∧
        journal.queue = legacy.queue) := by
  refine ⟨?_, ?_, factored_reads_itself, ?_, ?_⟩
  · intro queue ops active hdicts hcount hbounds hactive hle
    obtain ⟨document, hdocument⟩ := encodeHistory_total queue hbounds hactive hle
    exact ⟨document, hdocument, decodeOperations_encodeHistory hdocument hdicts hcount⟩
  · intro queue ops journal h
    exact ⟨(construct_keeps h).operations, (construct_keeps h).queue⟩
  · intro value journal h
    refine ⟨factored_canonical h, ?_⟩
    intro value' journal' h' hops hqueue
    obtain ⟨queue, ops, hkeeps⟩ := journal.keeps
    obtain ⟨queue', ops', hkeeps'⟩ := journal'.keeps
    rw [hkeeps.operations, hkeeps'.operations] at hops
    rw [hkeeps.queue, hkeeps'.queue] at hqueue
    obtain rfl := Except.ok.inj hops
    obtain rfl := Except.ok.inj hqueue
    have hsame : journal'.document = journal.document :=
      Except.ok.inj (hkeeps'.retained.encoded.symm.trans hkeeps.retained.encoded)
    rw [(factored_canonical h').bytes, (factored_canonical h).bytes, hsame]
  · intro legacy journal h
    obtain ⟨queue, ops, hlegacy, hfactored⟩ := legacy_migrates h
    exact ⟨ops, hlegacy.operations, hfactored.operations,
      hfactored.queue.trans hlegacy.queue.symm⟩

end ReviewSensei.Assessment
