import ReviewSensei.FactoredCanonical

/-! Journals and their documents: a history is kept, read back and migrated without a change, and
one history has one document. -/
namespace ReviewSensei.Assessment
open Session (bind_ok)

/-- What encoding the rows of a history leaves. -/
structure WrittenRows (ops records : List Json) (t t' : Encoder) : Prop where
  strings : t'.strings = addTexts t.strings (Json.itemsTexts ops)
  total : t'.charged.total = t.charged.total + itemSizes ops
  room : t.strings.length ≤ maxFactoredStrings → t'.strings.length ≤ maxFactoredStrings
  length : records.length = ops.length
  reads : ∀ strings, t'.strings <+: strings → ops.all isDict = true →
    decodeRows strings records t.charged = .ok ops

theorem encodeRows_ok {ops records : List Json} {t t' : Encoder}
    (h : encodeRows ops t = .ok (records, t')) : WrittenRows ops records t t' := by
  induction ops generalizing records t with
  | nil =>
    obtain ⟨rfl, rfl⟩ := Prod.mk.inj (Except.ok.inj h)
    exact ⟨rfl, rfl, id, rfl, fun _ _ _ => rfl⟩
  | cons op ops ih =>
    obtain ⟨⟨record, t₁⟩, hop, h⟩ := bind_ok h
    obtain ⟨⟨rest, t₂⟩, hops, h⟩ := bind_ok h
    obtain ⟨rfl, rfl⟩ := Prod.mk.inj (Except.ok.inj h)
    have hw := encode_ok op hop
    have hws := ih hops
    refine ⟨?_, ?_, fun hle => hws.room (hw.room hle), ?_, fun strings hp hdicts => ?_⟩
    · rw [hws.strings, hw.strings, ← addTexts_append]
      rfl
    · rw [hws.total, hw.charged]
      simp only [itemSizes, List.map_cons, List.sum_cons, Nat.add_assoc]
    · rw [List.length_cons, List.length_cons, hws.length]
    · rw [List.all_cons, Bool.and_eq_true] at hdicts
      have hearlier : t₁.strings <+: strings :=
        (hws.strings ▸ prefix_addTexts _ _ : t₁.strings <+: t₂.strings).trans hp
      rw [decodeRows, ok_bind (hw.reads strings hearlier)]
      dsimp only
      rw [ensure_bind hdicts.1, ok_bind (hws.reads strings hp hdicts.2)]
      rfl

/-- The bounds of one history: the depth and the size of each operation, the size of all of them
and the strings that they share. -/
structure WithinBounds (ops : List Json) : Prop where
  depth : ∀ op ∈ ops, op.depth ≤ maxFactoredDepth
  row : ∀ op ∈ ops, op.size ≤ maxOperationReceiptBytes
  total : itemSizes ops ≤ maxReconstructedHistoryBytes
  table : (addTexts [] (Json.itemsTexts ops)).length ≤ maxFactoredStrings

theorem encodeRows_total {ops : List Json} {t : Encoder}
    (hdepth : ∀ op ∈ ops, op.depth ≤ maxFactoredDepth)
    (hrow : ∀ op ∈ ops, op.size ≤ maxOperationReceiptBytes)
    (htotal : t.charged.total + itemSizes ops ≤ maxReconstructedHistoryBytes)
    (htable : (addTexts t.strings (Json.itemsTexts ops)).length ≤ maxFactoredStrings) :
    ∃ r, encodeRows ops t = .ok r := by
  induction ops generalizing t with
  | nil => exact ⟨_, rfl⟩
  | cons op ops ih =>
    rw [itemSizes, List.map_cons, List.sum_cons] at htotal
    rw [Json.itemsTexts] at htable
    have hroom : Room op 0 { t with charged := { t.charged with rowTotal := 0 } } := by
      refine ⟨?_, ?_, ?_, (length_addTexts_left _ _ _).trans htable⟩
      · rw [Nat.zero_add]
        exact hdepth op List.mem_cons_self
      · dsimp only
        omega
      · dsimp only
        rw [Nat.zero_add]
        exact hrow op List.mem_cons_self
    obtain ⟨⟨record, t₁⟩, hop⟩ := encode_total op 0 _ hroom
    have hw := encode_ok op hop
    have hrest : t₁.charged.total + itemSizes ops ≤ maxReconstructedHistoryBytes := by
      rw [hw.charged, itemSizes]
      dsimp only
      omega
    obtain ⟨⟨records, t₂⟩, hops⟩ := ih (t := t₁)
      (fun o ho => hdepth o (List.mem_cons_of_mem _ ho))
      (fun o ho => hrow o (List.mem_cons_of_mem _ ho)) hrest
      (by rw [hw.strings, ← addTexts_append]; exact htable)
    rw [encodeRows, ok_bind hop]
    dsimp only
    rw [ok_bind hops]
    exact ⟨_, rfl⟩

theorem encodeRows_ordered {ops records : List Json} {t t' : Encoder}
    (h : encodeRows ops t = .ok (records, t')) (ho : Json.OrderedItems ops) :
    Json.OrderedItems records := by
  induction ops generalizing records t with
  | nil =>
    obtain ⟨rfl, -⟩ := Prod.mk.inj (Except.ok.inj h)
    trivial
  | cons op ops ih =>
    obtain ⟨⟨record, t₁⟩, hop, h⟩ := bind_ok h
    obtain ⟨⟨rest, t₂⟩, hops, h⟩ := bind_ok h
    obtain ⟨rfl, rfl⟩ := Prod.mk.inj (Except.ok.inj h)
    exact ⟨encode_ordered op hop ho.1, ih hops ho.2⟩

theorem decodeRows_inv {strings : List String} {records ops : List Json} {c : Charged}
    (h : decodeRows strings records c = .ok ops) :
    (records = [] ∧ ops = []) ∨ ∃ record rest op others c₁, records = record :: rest ∧
      ops = op :: others ∧ decode strings record 0 { c with rowTotal := 0 } = .ok (op, c₁) ∧
      decodeRows strings rest c₁ = .ok others := by
  cases records with
  | nil => exact .inl ⟨rfl, (Except.ok.inj h).symm⟩
  | cons record rest =>
    obtain ⟨⟨op, c₁⟩, hop, h⟩ := bind_ok h
    obtain ⟨_, _, h⟩ := bind_ok h
    obtain ⟨others, hothers, h⟩ := bind_ok h
    exact .inr ⟨record, rest, op, others, c₁, rfl, (Except.ok.inj h).symm, hop, hothers⟩

theorem decodeRows_ordered {strings : List String} {records ops : List Json} {c : Charged}
    (h : decodeRows strings records c = .ok ops) (ho : Json.OrderedItems records) :
    Json.OrderedItems ops := by
  induction records generalizing ops c with
  | nil =>
    obtain rfl := Except.ok.inj h
    trivial
  | cons record rest ih =>
    obtain ⟨hnil, -⟩ | ⟨e, es, op, others, c₁, hcons, rfl, hop, hothers⟩ := decodeRows_inv h
    · cases hnil
    · obtain ⟨rfl, rfl⟩ := List.cons.inj hcons
      exact ⟨decode_ordered op hop ho.1, ih hothers ho.2⟩

theorem equalRows_encoding {strings : List String} {records records' ops : List Json}
    {c : Charged} {t t' : Encoder} (hd : decodeRows strings records c = .ok ops)
    (he : encodeRows ops t = .ok (records', t'))
    (heq : Json.equalItems records' records = true) : records' = records := by
  induction records generalizing records' ops c t with
  | nil =>
    obtain rfl := Except.ok.inj hd
    obtain ⟨rfl, -⟩ := Prod.mk.inj (Except.ok.inj he)
    rfl
  | cons record rest ih =>
    obtain ⟨hnil, -⟩ | ⟨e, es, op, others, c₁, hcons, rfl, hop, hothers⟩ := decodeRows_inv hd
    · cases hnil
    · obtain ⟨rfl, rfl⟩ := List.cons.inj hcons
      obtain ⟨⟨record', t₁⟩, hv, he⟩ := bind_ok he
      obtain ⟨⟨rest', t₂⟩, hvs, he⟩ := bind_ok he
      obtain ⟨rfl, rfl⟩ := Prod.mk.inj (Except.ok.inj he)
      rw [Json.equalItems, Bool.and_eq_true] at heq
      rw [equals_encoding op hop hv heq.1, ih hothers hvs heq.2]

theorem equal_texts {xs ys : List String}
    (h : Json.equalItems (xs.map Json.str) (ys.map Json.str) = true) : xs = ys := by
  induction xs generalizing ys with
  | nil =>
    cases ys with
    | nil => rfl
    | cons y ys => cases h
  | cons x xs ih =>
    cases ys with
    | nil => cases h
    | cons y ys =>
      rw [List.map_cons, List.map_cons, Json.equalItems, Bool.and_eq_true] at h
      rw [of_decide_eq_true h.1, ih h.2]

/-- The document of a history. -/
def historyDocument (queue : HeldQueue) (records : List Json) (strings : List String) : Json :=
  .obj (factoredKeys.zip [.arr records, queue.toQueueFields.toDocument,
    .str factoredJournalInterfaceVersion, texts strings])

theorem encodeHistory_inv {queue : HeldQueue} {ops : List Json} {document : Json}
    (h : encodeHistory queue ops = .ok document) :
    ∃ records t, encodeRows ops ⟨[], ⟨0, 0⟩⟩ = .ok (records, t) ∧
      t.strings.length ≤ maxFactoredStrings ∧
      document = historyDocument queue records t.strings ∧
      ∃ active, activeOperations ops = .ok active ∧ active ≤ maxRetainedAssessmentOperations := by
  obtain ⟨active, hactive, h⟩ := bind_ok h
  obtain ⟨_, hbound, h⟩ := bind_ok h
  obtain ⟨⟨records, t⟩, hrows, h⟩ := bind_ok h
  obtain ⟨_, htable, h⟩ := bind_ok h
  exact ⟨records, t, hrows, ensure_inv htable, (Except.ok.inj h).symm, active, hactive,
    ensure_inv hbound⟩

theorem readTable_history (queue : HeldQueue) {records : List Json} {strings : List String}
    (htable : strings.length ≤ maxFactoredStrings) (hnodup : strings.Nodup)
    (hrows : records.length ≤ maxRetainedFactoredOperations) :
    readTable (historyDocument queue records strings) = some (strings, records) := by
  have hstrings : (historyDocument queue records strings).get? "strings" =
      some (.arr (strings.map Json.str)) := by
    simp [historyDocument, Json.get?, factoredKeys, texts]
  have hrecords : (historyDocument queue records strings).get? "operations" =
      some (.arr records) := by
    simp [historyDocument, Json.get?, factoredKeys]
  rw [readTable, hstrings, hrecords]
  dsimp only
  rw [mapM_readText?, Option.bind_eq_bind, Option.bind_some, if_pos ⟨htable, hnodup, hrows⟩]

/-- A history that was encoded decodes to its operations. -/
theorem decodeOperations_encodeHistory {queue : HeldQueue} {ops : List Json} {document : Json}
    (h : encodeHistory queue ops = .ok document) (hdicts : ops.all isDict = true)
    (hcount : ops.length ≤ maxRetainedFactoredOperations) :
    decodeOperations document = .ok ops := by
  obtain ⟨records, t, hrows, htable, rfl, -⟩ := encodeHistory_inv h
  have hw := encodeRows_ok hrows
  have hnodup : t.strings.Nodup := hw.strings ▸ nodup_addTexts _ List.nodup_nil
  rw [decodeOperations, readTable_history queue htable hnodup (hw.length ▸ hcount)]
  exact hw.reads t.strings (List.prefix_refl _) hdicts

/-- Within the bounds a history has a document. -/
theorem encodeHistory_total (queue : HeldQueue) {ops : List Json} (h : WithinBounds ops)
    {active : Nat} (hactive : activeOperations ops = .ok active)
    (hbound : active ≤ maxRetainedAssessmentOperations) :
    ∃ document, encodeHistory queue ops = .ok document := by
  obtain ⟨⟨records, t⟩, hrows⟩ := encodeRows_total (t := ⟨[], ⟨0, 0⟩⟩) h.depth h.row
    (by rw [Nat.zero_add]; exact h.total) h.table
  have htable : t.strings.length ≤ maxFactoredStrings :=
    (encodeRows_ok hrows).room (Nat.zero_le _)
  rw [encodeHistory, ok_bind hactive, ensure_bind hbound, ok_bind hrows]
  dsimp only
  rw [ensure_bind htable]
  exact ⟨_, rfl⟩

end ReviewSensei.Assessment
