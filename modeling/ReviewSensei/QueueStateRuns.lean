import ReviewSensei.QueueState
import ReviewSensei.EvidenceRoundTrip
import Mathlib.Data.List.Perm.Subperm

/-! The carrier of a queue is lossless: what was packed is unpacked to the same envelope, and only
for a queue with the reference that it was packed with. -/
namespace ReviewSensei.Assessment
open Session (isSha256 isHexText bind_ok)
open Evidence (Codec digest base64 decodeEvidence)

section Growth

/-- What the sizes of items grow by when each is written in another way. -/
def growth (f g : String → Json) (l : List String) : Int :=
  (l.map (fun s => ((g s).size : Int) - (f s).size)).sum

@[simp] theorem growth_nil (f g : String → Json) : growth f g [] = 0 := rfl

@[simp] theorem growth_cons (f g : String → Json) (s : String) (l : List String) :
    growth f g (s :: l) = ((g s).size : Int) - (f s).size + growth f g l := rfl

theorem growth_nonneg {f g : String → Json} {l : List String}
    (h : ∀ s ∈ l, (f s).size ≤ (g s).size) : 0 ≤ growth f g l := by
  induction l with
  | nil => exact le_refl _
  | cons s l ih =>
    obtain ⟨hs, hl⟩ := List.forall_mem_cons.mp h
    have hrest := ih hl
    rw [growth_cons]
    omega

theorem size_arr_growth (f g : String → Json) (l : List String) :
    ((Json.arr (l.map g)).size : Int) = (Json.arr (l.map f)).size + growth f g l := by
  have hsum : ∀ l : List String, ((((l.map g).map (fun j => j.size + 1)).sum : Nat) : Int) =
      ((((l.map f).map (fun j => j.size + 1)).sum : Nat) : Int) + growth f g l := by
    intro l
    induction l with
    | nil => rfl
    | cons s l ih =>
      simp only [List.map_cons, List.sum_cons, growth_cons] at ih ⊢
      omega
  cases l with
  | nil => rfl
  | cons s l =>
    have h := hsum (s :: l)
    simp only [List.map_cons] at h ⊢
    rw [Json.size_arr, Json.size_arr, Json.itemsSize_eq, Json.itemsSize_eq]
    simp only [List.map_cons] at h ⊢
    omega

end Growth

section References
variable {ids : List String} {bound size : Int} {l : List String}

/-- The place of an identity, as the lists of the queue write it. -/
def placeOf (ids : List String) (s : String) : Json := .int (ids.idxOf s)

/-- A string of the table, as the carrier writes it. -/
def referenceTo (ids : List String) (s : String) : Json :=
  if s ∈ ids then .obj [("inventory_id", placeOf ids s)] else .str s

/-- Identities as a queue keeps them: digests, and no more of them than a queue may have. -/
structure Identities (ids : List String) : Prop where
  digests : ∀ s ∈ ids, isSha256 s = true
  count : ids.length ≤ maxQueueFindings

theorem HeldQueue.identities (q : HeldQueue) : Identities q.inventoryIds := by
  have hidentity := q.identity_valid
  have hretains := q.retains_once
  simp only [QueueFields.identityValid, Bool.and_eq_true, decide_eq_true_eq] at hidentity
  simp only [QueueFields.retainsOnce, Bool.and_eq_true, List.all_eq_true] at hretains
  exact ⟨fun s hs => hretains.1.1.1.1 s (List.mem_append_left _ hs), hidentity.2⟩

theorem size_identity {s : String} (h : isSha256 s = true) : (Json.str s).size = 66 := by
  have hplain := Evidence.hexText_plain h
  simp only [isSha256, isHexText, Bool.and_eq_true, decide_eq_true_eq] at h
  rw [Json.size_text hplain.1]
  omega

theorem size_placeOf (h : Identities ids) {s : String} (hs : s ∈ ids) :
    (placeOf ids s).size ≤ 3 := by
  have hplace := List.idxOf_lt_length_of_mem hs
  have hcount := h.count
  have hmax : maxQueueFindings = 250 := rfl
  apply Json.size_nat_le (by decide)
  omega

theorem placeOf_le (h : Identities ids) {s : String} (hs : s ∈ ids) :
    (placeOf ids s).size ≤ (Json.str s).size := by
  have hplace := size_placeOf h hs
  have hidentity := size_identity (h.digests s hs)
  omega

theorem referenceTo_le (h : Identities ids) (s : String) :
    (referenceTo ids s).size ≤ (Json.str s).size := by
  unfold referenceTo
  split
  next hs =>
    have hplace := size_placeOf h hs
    have hidentity := size_identity (h.digests s hs)
    have hframe : Json.frameSize ["inventory_id"] = 17 := by decide
    rw [Json.size_fields (List.cons_ne_nil _ _)]
    simp only [List.map_cons, List.map_nil, Json.valuesSize_cons, Json.valuesSize_nil, hframe]
    omega
  next => exact le_refl _

theorem reference_place {s : String} (hs : s ∈ ids) : reference ids (ids.idxOf s) = some s := by
  have hplace : ¬ ((ids.idxOf s : Nat) : Int) < 0 := by omega
  rw [reference, if_neg hplace, Int.toNat_natCast]
  exact List.getElem?_idxOf hs

theorem identity_ok {s : String} {written : Json} (hs : s ∈ ids)
    (hbound : size + ((Json.str s).size - written.size : Int) ≤ bound) :
    identity ids bound (placeOf ids s) written size =
      .ok (s, size + ((Json.str s).size - written.size : Int)) := by
  unfold identity placeOf
  simp only [reference_place hs, Json.canonicalSize_eq]
  exact if_pos hbound

/-- The lists of the queue come back, whatever the size was before. -/
theorem expandIndexes_ok (h : Identities ids) (hl : ∀ s ∈ l, s ∈ ids)
    (hbound : size + growth (placeOf ids) Json.str l ≤ bound) :
    expandIndexes ids bound (l.map (placeOf ids)) size =
      .ok (l.map Json.str, size + growth (placeOf ids) Json.str l) := by
  induction l generalizing size with
  | nil =>
    rw [growth_nil, Int.add_zero]
    rfl
  | cons s l ih =>
    obtain ⟨hs, hrest⟩ := List.forall_mem_cons.mp hl
    have hgrowth : 0 ≤ growth (placeOf ids) Json.str l :=
      growth_nonneg (fun t ht => placeOf_le h (hrest t ht))
    rw [growth_cons] at hbound ⊢
    have hfirst : size + ((Json.str s).size - (placeOf ids s).size : Int) ≤ bound := by omega
    rw [List.map_cons, expandIndexes, ok_bind (identity_ok hs hfirst)]
    dsimp only
    rw [ok_bind (ih hrest (by omega)), Int.add_assoc]
    rfl

theorem expandString_ok (s : String)
    (hbound : size + ((Json.str s).size - (referenceTo ids s).size : Int) ≤ bound) :
    expandString ids bound (referenceTo ids s) size =
      .ok (s, size + ((Json.str s).size - (referenceTo ids s).size : Int)) := by
  unfold referenceTo at hbound ⊢
  by_cases hs : s ∈ ids
  · rw [if_pos hs] at hbound ⊢
    rw [expandString, if_pos rfl]
    exact identity_ok hs hbound
  · rw [if_neg hs, expandString, Int.sub_self, Int.add_zero]

theorem expandStrings_ok (h : Identities ids)
    (hbound : size + growth (referenceTo ids) Json.str l ≤ bound) :
    expandStrings ids bound (l.map (referenceTo ids)) size =
      .ok (l.map Json.str, size + growth (referenceTo ids) Json.str l) := by
  induction l generalizing size with
  | nil =>
    rw [growth_nil, Int.add_zero]
    rfl
  | cons s l ih =>
    have hgrowth : 0 ≤ growth (referenceTo ids) Json.str l :=
      growth_nonneg (fun t _ => referenceTo_le h t)
    rw [growth_cons] at hbound ⊢
    have hfirst : size + ((Json.str s).size - (referenceTo ids s).size : Int) ≤ bound := by omega
    rw [List.map_cons, expandStrings, ok_bind (expandString_ok s hfirst)]
    dsimp only
    rw [ok_bind (ih (by omega)), Int.add_assoc]
    rfl

theorem mapM_indexed {items : List Json} (h : (l.map Json.str).mapM (indexed ids) = .ok items) :
    items = l.map (placeOf ids) ∧ ∀ s ∈ l, s ∈ ids := by
  induction l generalizing items with
  | nil =>
    obtain rfl := Except.ok.inj h
    exact ⟨rfl, fun s hs => absurd hs List.not_mem_nil⟩
  | cons s l ih =>
    rw [List.map_cons, List.mapM_cons] at h
    obtain ⟨item, hitem, h⟩ := bind_ok h
    obtain ⟨rest, hrest, h⟩ := bind_ok h
    obtain rfl := Except.ok.inj h
    obtain ⟨rfl, hmem⟩ := ih hrest
    rw [indexed] at hitem
    split at hitem
    next hs =>
      obtain rfl := Except.ok.inj hitem
      exact ⟨rfl, List.forall_mem_cons.mpr ⟨hs, hmem⟩⟩
    next => cases hitem

end References

section Documents
variable {ids : List String} {bound size : Int}

/-- The document of a queue with its identities by their places. -/
def indexedQueue (ids : List String) (f : QueueFields) : Json :=
  .obj (queueKeys.zip [.str f.inventoryDigest, .arr (f.inventoryIds.map (placeOf ids)),
    .arr (f.pendingOrder.map (placeOf ids)), .arr (f.resolvedIds.map (placeOf ids)),
    .str queueInterfaceVersion, f.snapshot.toDict])

/-- Every identity that a queue lists is in the inventory. -/
structure Listed (ids : List String) (f : QueueFields) : Prop where
  inventory : ∀ s ∈ f.inventoryIds, s ∈ ids
  pending : ∀ s ∈ f.pendingOrder, s ∈ ids
  resolved : ∀ s ∈ f.resolvedIds, s ∈ ids

theorem indexArrays_cons {name : String} {names : List String} {state result : Json}
    (h : indexArrays ids (name :: names) state = .ok result) :
    ∃ found items, state.get? name = some (.arr found) ∧ found.mapM (indexed ids) = .ok items ∧
      indexArrays ids names (state.setField name (.arr items)) = .ok result := by
  obtain ⟨found, hfound, h⟩ := bind_ok h
  obtain ⟨items, hitems, h⟩ := bind_ok h
  refine ⟨found, items, ?_, hitems, h⟩
  unfold arrayOf at hfound
  split at hfound
  next items hget => rw [hget, Except.ok.inj hfound]
  next => cases hfound

theorem indexArrays_inv {f : QueueFields} {state : Json}
    (h : indexArrays ids referencedNames f.toDocument = .ok state) :
    state = indexedQueue ids f ∧ Listed ids f := by
  obtain ⟨inventory, _, hinventory, hinventoryItems, h⟩ := indexArrays_cons h
  obtain rfl : f.inventoryIds.map Json.str = inventory := Json.arr.inj (Option.some.inj hinventory)
  obtain ⟨pending, _, hpending, hpendingItems, h⟩ := indexArrays_cons h
  obtain rfl : f.pendingOrder.map Json.str = pending := Json.arr.inj (Option.some.inj hpending)
  obtain ⟨resolved, _, hresolved, hresolvedItems, h⟩ := indexArrays_cons h
  obtain rfl : f.resolvedIds.map Json.str = resolved := Json.arr.inj (Option.some.inj hresolved)
  obtain ⟨rfl, hinventoryIds⟩ := mapM_indexed hinventoryItems
  obtain ⟨rfl, hpendingIds⟩ := mapM_indexed hpendingItems
  obtain ⟨rfl, hresolvedIds⟩ := mapM_indexed hresolvedItems
  exact ⟨(Except.ok.inj h).symm, hinventoryIds, hpendingIds, hresolvedIds⟩

/-- What the lists of a queue grow by when their identities come back. -/
def queueGrowth (ids : List String) (f : QueueFields) : Int :=
  growth (placeOf ids) Json.str f.inventoryIds + growth (placeOf ids) Json.str f.pendingOrder +
    growth (placeOf ids) Json.str f.resolvedIds

theorem expandArrays_cons {name : String} {names l : List String} {state : Json}
    (h : Identities ids) (hget : state.get? name = some (.arr (l.map (placeOf ids))))
    (hl : ∀ s ∈ l, s ∈ ids) (hcount : l.length ≤ maxQueueFindings)
    (hbound : size + growth (placeOf ids) Json.str l ≤ bound) :
    expandArrays ids bound (name :: names) state size =
      expandArrays ids bound names (state.setField name (texts l))
        (size + growth (placeOf ids) Json.str l) := by
  have hlength : (l.map (placeOf ids)).length ≤ maxQueueFindings := by
    rw [List.length_map]
    exact hcount
  rw [expandArrays, hget, arrayOf, ok_bind rfl, ensure_bind hlength,
    ok_bind (expandIndexes_ok h hl hbound)]
  rfl

theorem expandArrays_ok {q : HeldQueue} (h : Identities ids) (hl : Listed ids q.toQueueFields)
    (hbound : size + queueGrowth ids q.toQueueFields ≤ bound) :
    expandArrays ids bound referencedNames (indexedQueue ids q.toQueueFields) size =
      .ok (q.toQueueFields.toDocument, size + queueGrowth ids q.toQueueFields) := by
  have hcount := q.identities.count
  obtain ⟨-, hassigned, hmem⟩ := q.partition
  have hle : (q.pendingOrder ++ q.resolvedIds).length ≤ q.inventoryIds.length :=
    (hassigned.subperm (fun i hi => (hmem i).mp hi)).length_le
  rw [List.length_append] at hle
  have hinventory := growth_nonneg (f := placeOf ids) (g := Json.str)
    (fun s hs => placeOf_le h (hl.inventory s hs))
  have hpending := growth_nonneg (f := placeOf ids) (g := Json.str)
    (fun s hs => placeOf_le h (hl.pending s hs))
  have hresolved := growth_nonneg (f := placeOf ids) (g := Json.str)
    (fun s hs => placeOf_le h (hl.resolved s hs))
  unfold queueGrowth at hbound ⊢
  rw [referencedNames, expandArrays_cons h (l := q.inventoryIds) rfl hl.inventory hcount (by omega),
    expandArrays_cons h (l := q.pendingOrder) rfl hl.pending (by omega) (by omega),
    expandArrays_cons h (l := q.resolvedIds) rfl hl.resolved (by omega) (by omega), Int.add_assoc,
    Int.add_assoc, Int.add_assoc]
  rfl

/-- An envelope around a journal. -/
def envelopeOf (journal : Json) : Json :=
  .obj (envelopeKeys.zip [journal, .str queueStateKind, .str "1.0"])

/-- A factored journal, with the lists of its queue and its table of strings as given. -/
def journalWith (records state strings : Json) : Json :=
  .obj (factoredKeys.zip [records, state, .str factoredJournalInterfaceVersion, strings])

theorem historyDocument_eq (queue : HeldQueue) (records : List Json) (strings : List String) :
    historyDocument queue records strings =
      journalWith (.arr records) queue.toQueueFields.toDocument (texts strings) := rfl

/-- The envelope of a factored journal with its references. -/
def referencedOf (ids : List String) (f : QueueFields) (records : List Json)
    (strings : List String) : Json :=
  envelopeOf (journalWith (.arr records) (indexedQueue ids f) (.arr (strings.map (referenceTo ids))))

theorem size_zip {keys : List String} {values : List Json} (h : keys.length = values.length)
    (hne : keys ≠ []) :
    (Json.obj (keys.zip values)).size = Json.frameSize keys + (values.map Json.size).sum := by
  have hvalues : keys.zip values ≠ [] := by
    rw [ne_eq, List.zip_eq_nil_iff]
    rintro (hkeys | hnil)
    · exact hne hkeys
    · rw [hnil] at h
      exact hne (List.eq_nil_of_length_eq_zero h)
  have hsnd : ((keys.zip values).map (fun f => f.2.size)) = values.map Json.size := by
    rw [← List.map_snd_zip h.ge, List.map_map, List.map_snd_zip h.ge]
    rfl
  rw [Json.size_fields hvalues, List.map_fst_zip h.le, Json.valuesSize, hsnd]

/-- The original is larger than the envelope with references by what the references stand for. -/
theorem size_referencedOf (ids : List String) (q : HeldQueue) (records : List Json)
    (strings : List String) :
    ((envelopeOf (historyDocument q records strings)).size : Int) =
      (referencedOf ids q.toQueueFields records strings).size + queueGrowth ids q.toQueueFields +
        growth (referenceTo ids) Json.str strings := by
  have hinventory := size_arr_growth (placeOf ids) Json.str q.inventoryIds
  have hpending := size_arr_growth (placeOf ids) Json.str q.pendingOrder
  have hresolved := size_arr_growth (placeOf ids) Json.str q.resolvedIds
  have hstrings := size_arr_growth (referenceTo ids) Json.str strings
  have henvelope : envelopeKeys ≠ [] := List.cons_ne_nil _ _
  have hfactored : factoredKeys ≠ [] := List.cons_ne_nil _ _
  have hqueue : queueKeys ≠ [] := List.cons_ne_nil _ _
  rw [historyDocument_eq, referencedOf, envelopeOf, envelopeOf, size_zip rfl henvelope,
    size_zip rfl henvelope, journalWith, journalWith]
  simp only [List.map_cons, List.map_nil, List.sum_cons, List.sum_nil]
  rw [size_zip rfl hfactored, size_zip rfl hfactored]
  simp only [List.map_cons, List.map_nil, List.sum_cons, List.sum_nil]
  rw [QueueFields.toDocument, indexedQueue, size_zip rfl hqueue, size_zip rfl hqueue]
  simp only [List.map_cons, List.map_nil, List.sum_cons, List.sum_nil, texts, queueGrowth]
  omega

/-- What an accepted envelope is. -/
structure Envelope (value journal : Json) : Prop where
  document : value = envelopeOf journal
  size : value.canonicalSize ≤ maxOperationReceiptBytes
  journal : checkJournal journal = .ok ()

theorem readEnvelope_inv {value result : Json} (h : readEnvelope value = .ok result) :
    result = value ∧ ∃ journal, Envelope value journal := by
  unfold readEnvelope at h
  split at h
  next journal kind version hrecord =>
    obtain ⟨_, hfields, h⟩ := bind_ok h
    obtain ⟨_, hjournal, h⟩ := bind_ok h
    obtain rfl := Except.ok.inj h
    obtain ⟨rfl, rfl, hsize⟩ := ensure_inv hfields
    exact ⟨rfl, journal, (Json.record?_some hrecord).1, hsize, hjournal⟩
  next => cases h

theorem readEnvelope_self {envelope value : Json} (h : queueStateEnvelope envelope = .ok value) :
    value = envelope.sortKeys ∧ queueStateEnvelope value = .ok value := by
  obtain ⟨rfl, -⟩ := readEnvelope_inv h
  refine ⟨rfl, ?_⟩
  rw [queueStateEnvelope, Json.sortKeys_sortKeys]
  exact h

/-- The journal of an accepted envelope that names the factored version. -/
theorem factored_envelope {value : Json} {journal : Json} (hordered : value.Ordered)
    (h : Envelope value journal) (hfactored : isFactored journal = true) :
    ∃ queue records strings, journal = historyDocument queue records strings ∧
      strings.length ≤ maxFactoredStrings := by
  have hversion : journal.get? "schema_version" = some (.str factoredJournalInterfaceVersion) :=
    of_decide_eq_true hfactored
  have hchecked := h.journal
  have hother : factoredJournalInterfaceVersion ≠ queueInterfaceVersion := by decide
  rw [checkJournal, if_neg (by rw [hversion]; simpa using hother)] at hchecked
  obtain ⟨found, hfound, -⟩ := bind_ok hchecked
  have hjournal : journal.sortKeys = journal := by
    apply Json.sortKeys_of_ordered
    rw [h.document] at hordered
    exact hordered.2.1
  obtain ⟨queue, ops, -, -, -, -, hencoded, -, -, -⟩ := (factored_canonical hfound).history
  obtain ⟨records, t, -, htable, hdocument, -⟩ := encodeHistory_inv hencoded
  exact ⟨queue, records, t.strings, hjournal ▸ hdocument, htable⟩

/-- What was packed for a queue: the envelope of a factored journal, with the identities of the
queue replaced by their places. -/
structure Referenced (envelope document : Json) (q retained : HeldQueue) (records : List Json)
    (strings : List String) : Prop where
  envelope_eq : envelope.sortKeys = envelopeOf (historyDocument retained records strings)
  accepted : queueStateEnvelope envelope.sortKeys = .ok envelope.sortKeys
  size : envelope.sortKeys.size ≤ maxOperationReceiptBytes
  reference_eq : queueReference retained = queueReference q
  listed : Listed q.inventoryIds retained.toQueueFields
  table : strings.length ≤ maxFactoredStrings
  document_eq : document = referencedOf q.inventoryIds retained.toQueueFields records strings

theorem referencedEnvelope_inv {retained : HeldQueue} {records : List Json} {strings : List String}
    {document : Json}
    (h : referencedEnvelope ids (envelopeOf (historyDocument retained records strings)) =
      .ok document) :
    document = referencedOf ids retained.toQueueFields records strings ∧
      Listed ids retained.toQueueFields := by
  obtain ⟨state, hstate, h⟩ := bind_ok h
  obtain ⟨items, hitems, h⟩ := bind_ok h
  obtain ⟨rfl, hlisted⟩ := indexArrays_inv hstate
  obtain rfl : strings.map Json.str = items := Except.ok.inj hitems
  obtain rfl := Except.ok.inj h
  refine ⟨?_, hlisted⟩
  rw [List.map_map]
  rfl

theorem carried_some {envelope document : Json} {q : HeldQueue}
    (h : carried envelope (some q) = .ok document) :
    ∃ retained records strings, Referenced envelope document q retained records strings := by
  obtain ⟨value, hvalue, h⟩ := bind_ok h
  obtain ⟨_, hfactored, h⟩ := bind_ok h
  obtain ⟨found, hfound, h⟩ := bind_ok h
  obtain ⟨_, hreference, hfinal⟩ := bind_ok h
  obtain ⟨-, journal, henvelope⟩ := readEnvelope_inv hvalue
  obtain ⟨rfl, haccepted⟩ := readEnvelope_self hvalue
  have hjournal : journalOf envelope.sortKeys = journal := by
    rw [henvelope.document]
    rfl
  rw [hjournal] at hfactored hfound
  obtain ⟨retained, records, strings, rfl, htable⟩ :=
    factored_envelope (Json.sortKeys_ordered envelope) henvelope (ensure_inv hfactored)
  obtain rfl : retained = found :=
    Except.ok.inj ((queueFromDocument_self retained).symm.trans hfound)
  rw [henvelope.document] at hfinal
  obtain ⟨rfl, hlisted⟩ := referencedEnvelope_inv hfinal
  have hsize := henvelope.size
  rw [Json.canonicalSize_eq] at hsize
  exact ⟨retained, records, strings, henvelope.document, haccepted, hsize, ensure_inv hreference,
    hlisted, htable, rfl⟩

/-- The references are expanded again, for any queue with the same identities. -/
theorem Referenced.expand {envelope document : Json} {q retained other : HeldQueue}
    {records : List Json} {strings : List String}
    (h : Referenced envelope document q retained records strings)
    (hids : other.inventoryIds = q.inventoryIds) :
    expandQueueReference document other envelope.sortKeys.size = .ok envelope.sortKeys := by
  have hgrown := size_referencedOf q.inventoryIds retained records strings
  rw [← h.envelope_eq] at hgrown
  have hidentities := q.identities
  have hqueue : 0 ≤ queueGrowth q.inventoryIds retained.toQueueFields := by
    have hinventory := growth_nonneg (f := placeOf q.inventoryIds) (g := Json.str)
      (fun s hs => placeOf_le hidentities (h.listed.inventory s hs))
    have hpending := growth_nonneg (f := placeOf q.inventoryIds) (g := Json.str)
      (fun s hs => placeOf_le hidentities (h.listed.pending s hs))
    have hresolved := growth_nonneg (f := placeOf q.inventoryIds) (g := Json.str)
      (fun s hs => placeOf_le hidentities (h.listed.resolved s hs))
    unfold queueGrowth
    omega
  have hstrings : 0 ≤ growth (referenceTo q.inventoryIds) Json.str strings :=
    growth_nonneg (fun s _ => referenceTo_le hidentities s)
  have hbound : min (envelope.sortKeys.size : Int) maxOperationReceiptBytes =
      envelope.sortKeys.size := min_eq_left (by exact_mod_cast h.size)
  have hlength : (strings.map (referenceTo q.inventoryIds)).length ≤ maxFactoredStrings := by
    rw [List.length_map]
    exact h.table
  obtain rfl := h.document_eq
  have hstate : referencedState (journalWith (.arr records)
      (indexedQueue q.inventoryIds retained.toQueueFields)
      (.arr (strings.map (referenceTo q.inventoryIds)))) =
        some (indexedQueue q.inventoryIds retained.toQueueFields,
          strings.map (referenceTo q.inventoryIds)) := if_pos hlength
  have hshape : ((referencedOf q.inventoryIds retained.toQueueFields records strings).record?
      envelopeKeys).isSome = true := by
    rw [referencedOf, envelopeOf, Json.record?_zip rfl]
    rfl
  have hfactored : isFactored (journalOf (referencedOf q.inventoryIds retained.toQueueFields records
      strings)) = true := decide_eq_true rfl
  rw [expandQueueReference, ensure_bind hshape, ensure_bind hfactored, hbound, hids]
  change expandState _ _ _ (journalWith _ _ _) = _
  rw [expandState, hstate]
  dsimp only
  rw [Json.canonicalSize_eq, ensure_bind (by omega),
    ok_bind (expandArrays_ok hidentities h.listed (by omega))]
  dsimp only
  rw [ok_bind (expandStrings_ok hidentities (by omega)), h.envelope_eq]
  rfl

end Documents

section Carrier
variable {codec : Codec}

/-- Decompression inverts compression on a document, and parsing inverts printing. -/
structure Inverts (codec : Codec) (value : Json) : Prop where
  inflate : codec.inflate (codec.compress value.canonical) = some value.canonical
  loads : codec.loads value.canonical = some value

/-- The evidence of a document, as it stands in a carrier. -/
def encodedOf (codec : Codec) (value : Json) : Json :=
  .obj (encodedKeys.zip [.str (base64 (codec.compress value.canonical)),
    .int value.canonicalSize, .str evidenceEncoding, .str (digest value)])

theorem encodeEvidence_inv {value state : Json} {maxDecoded : Nat}
    (h : encodeEvidence codec value maxDecoded = .ok state) :
    state = encodedOf codec value ∧ value.canonicalSize ≤ maxDecoded := by
  obtain ⟨_, hsize, h⟩ := bind_ok h
  exact ⟨(Except.ok.inj h).symm, ensure_inv hsize⟩

/-- The order in which the fields of the evidence are written does not matter for its size. -/
theorem size_evidence (size : Int) (sha256 data : String) :
    (Evidence.envelope size sha256 data).canonicalSize =
      (Json.obj (encodedKeys.zip [.str data, .int size, .str evidenceEncoding, .str sha256])).size := by
  have hkeys : encodedKeys ≠ [] := List.cons_ne_nil _ _
  have hframe : Json.frameSize ["encoding", "decoded_bytes", "sha256", "data"] =
      Json.frameSize encodedKeys := by decide
  have hencoding : (Json.str evidenceEncoding).size = (Json.str "zlib-json-v1").size := rfl
  rw [Json.canonicalSize_eq, Evidence.envelope, Json.size_fields (List.cons_ne_nil _ _),
    size_zip rfl hkeys]
  simp only [List.map_cons, List.map_nil, List.sum_cons, List.sum_nil, Json.valuesSize_cons,
    Json.valuesSize_nil, hframe, hencoding]
  omega

theorem decodeDocument_ok {value : Json} {maxEncoded maxDecoded : Nat} (h : Inverts codec value)
    (hpos : 0 < value.canonicalSize) (hsize : value.canonicalSize ≤ maxDecoded)
    (hencoded : (encodedOf codec value).size ≤ maxEncoded) :
    decodeDocument codec (encodedOf codec value) maxEncoded maxDecoded = .ok value := by
  have hkeys : encodedKeys ≠ [] := List.cons_ne_nil _ _
  have hdata : (base64 (codec.compress value.canonical)).length + 2 ≤
      (encodedOf codec value).size := by
    have hlength := Evidence.base64_length (codec.compress value.canonical)
    have htext := Evidence.size_base64 (codec.compress value.canonical)
    rw [encodedOf, size_zip rfl hkeys]
    simp only [List.map_cons, List.sum_cons]
    omega
  have henvelope : (Evidence.envelope value.canonicalSize (digest value)
      (base64 (codec.compress value.canonical))).canonicalSize ≤ maxEncoded := by
    rw [size_evidence]
    exact hencoded
  have hdecoded : Evidence.decoded codec (codec.compress value.canonical) value.canonicalSize
      (digest value) = some value := by
    unfold Evidence.decoded
    rw [h.inflate]
    simp [Json.encode_canonical, digest, h.loads, guard]
  rw [decodeDocument, encodedOf, Json.record?_zip rfl]
  dsimp only
  rw [ensure_bind rfl, decodeEvidence, ensure_bind ⟨by omega, by exact_mod_cast hsize,
    Evidence.length_digest value, by omega, henvelope⟩, Evidence.base64_decode, Option.bind_some,
    hdecoded]

theorem readState_ok {value : Json} (h : Inverts codec value) (hpos : 0 < value.canonicalSize)
    (hsize : value.canonicalSize ≤ maxOperationReceiptBytes)
    (hencoded : (encodedOf codec value).size ≤ maxOperationReceiptBytes) :
    readState codec (encodedOf codec value) = .ok value :=
  decodeDocument_ok h hpos hsize hencoded

theorem ordered_encodedOf (value : Json) : (encodedOf codec value).Ordered :=
  Json.ordered_zip rfl (by decide : encodedKeys.Pairwise (· ≤ ·))
    ⟨trivial, trivial, trivial, trivial, trivial⟩

theorem ordered_reference (q : HeldQueue) : (queueReference q).Ordered :=
  Json.ordered_zip rfl (by decide : referenceKeys.Pairwise (· ≤ ·))
    ⟨trivial, trivial, ordered_snapshot _, trivial⟩

theorem ordered_packed (envelope value : Json) (queue : Option HeldQueue) :
    (packedDocument envelope (encodedOf codec value) queue).Ordered := by
  cases queue with
  | none =>
    exact Json.ordered_zip rfl (by decide : packedKeys.Pairwise (· ≤ ·))
      ⟨trivial, trivial, ordered_encodedOf _, trivial⟩
  | some q =>
    exact Json.ordered_zip rfl (by decide : packedReferenceKeys.Pairwise (· ≤ ·))
      ⟨trivial, trivial, trivial, ordered_reference _, trivial, ordered_encodedOf _, trivial⟩

/-- The state of a carrier is smaller than the carrier. -/
theorem size_state_le (envelope value : Json) (queue : Option HeldQueue) :
    (encodedOf codec value).size ≤
      (packedDocument envelope (encodedOf codec value) queue).canonicalSize := by
  rw [Json.canonicalSize_eq]
  cases queue with
  | none =>
    have hkeys : packedKeys ≠ [] := List.cons_ne_nil _ _
    rw [packedDocument, size_zip rfl hkeys]
    simp only [List.map_cons, List.map_nil, List.sum_cons, List.sum_nil]
    omega
  | some q =>
    have hkeys : packedReferenceKeys ≠ [] := List.cons_ne_nil _ _
    rw [packedDocument, size_zip rfl hkeys]
    simp only [List.map_cons, List.map_nil, List.sum_cons, List.sum_nil]
    omega

/-- What `pack_queue_state` checked. -/
structure Packed (codec : Codec) (envelope value packed : Json) (queue : Option HeldQueue) :
    Prop where
  document : packed = packedDocument envelope (encodedOf codec value) queue
  decoded : value.canonicalSize ≤ maxOperationReceiptBytes
  size : packed.canonicalSize ≤ maxOperationReceiptBytes

theorem packQueueState_inv {envelope value packed : Json} {queue : Option HeldQueue}
    (hcarried : carried envelope queue = .ok value)
    (h : packQueueState codec envelope queue = .ok packed) :
    Packed codec envelope value packed queue := by
  rw [packQueueState, ok_bind hcarried] at h
  obtain ⟨state, hstate, h⟩ := bind_ok h
  obtain ⟨_, hsize, h⟩ := bind_ok h
  obtain ⟨rfl, hdecoded⟩ := encodeEvidence_inv hstate
  obtain rfl := Except.ok.inj h
  exact ⟨rfl, hdecoded, ensure_inv hsize⟩

theorem packQueueState_ok {envelope value : Json} {queue : Option HeldQueue}
    (hcarried : carried envelope queue = .ok value)
    (hdecoded : value.canonicalSize ≤ maxOperationReceiptBytes)
    (hsize : (packedDocument envelope (encodedOf codec value) queue).canonicalSize ≤
      maxOperationReceiptBytes) :
    packQueueState codec envelope queue =
      .ok (packedDocument envelope (encodedOf codec value) queue) := by
  have hencoded : encodeEvidence codec value maxOperationReceiptBytes =
      .ok (encodedOf codec value) := ensure_bind hdecoded _
  rw [packQueueState, ok_bind hcarried, ok_bind hencoded, ensure_bind hsize]
  rfl

theorem Packed.state {envelope value packed : Json} {queue : Option HeldQueue}
    (h : Packed codec envelope value packed queue) (hinverts : Inverts codec value)
    (hpos : 0 < value.canonicalSize) : readState codec (encodedOf codec value) = .ok value := by
  have hsize := h.size
  rw [h.document] at hsize
  exact readState_ok hinverts hpos h.decoded (le_trans (size_state_le envelope value queue) hsize)

theorem canonicalSize_envelopeOf (journal : Json) : 0 < (envelopeOf journal).canonicalSize := by
  have hkeys : envelopeKeys ≠ [] := List.cons_ne_nil _ _
  have hframe : 0 < Json.frameSize envelopeKeys := by decide
  rw [Json.canonicalSize_eq, envelopeOf, size_zip rfl hkeys]
  omega

/-- A carrier of the first version is unpacked to its envelope, whatever the queue. -/
theorem unpack_plain {envelope value packed : Json} (hcarried : carried envelope none = .ok value)
    (hinverts : Inverts codec value) (h : Packed codec envelope value packed none)
    (queue : Option HeldQueue) : unpackQueueState codec packed queue = .ok envelope.sortKeys := by
  obtain ⟨accepted, hvalue, hcarried⟩ := bind_ok hcarried
  obtain rfl : accepted = value := Except.ok.inj hcarried
  obtain ⟨rfl, haccepted⟩ := readEnvelope_self hvalue
  obtain ⟨-, journal, henvelope⟩ := readEnvelope_inv hvalue
  have hpos : 0 < envelope.sortKeys.canonicalSize :=
    henvelope.document ▸ canonicalSize_envelopeOf journal
  have hstate := h.state hinverts hpos
  have hsize := h.size
  obtain rfl := h.document
  have hkind : (packedDocument envelope (encodedOf codec envelope.sortKeys) none).get? "kind" =
      some (.str packedV1) := rfl
  have hrecord : (packedDocument envelope (encodedOf codec envelope.sortKeys) none).record?
      packedKeys = some [.str packedV1, .str "1.0", encodedOf codec envelope.sortKeys] :=
    Json.record?_zip rfl
  rw [unpackQueueState, Json.sortKeys_of_ordered _ (ordered_packed envelope _ none), unpackOrdered,
    if_pos hkind, unpackV1, hrecord]
  dsimp only
  rw [ensure_bind rfl, ensure_bind hsize, ok_bind hstate]
  exact haccepted

theorem originalOf_inv {queue : Option HeldQueue} {bytes sha256 inventory : Json}
    {result : HeldQueue × Int × String} (h : originalOf queue bytes sha256 inventory = .ok result) :
    queue = some result.1 ∧ inventory.equals (queueReference result.1) = true := by
  unfold originalOf at h
  split at h
  next q bytes sha256 =>
    split at h
    next horiginal =>
      obtain rfl := Except.ok.inj h
      exact ⟨rfl, horiginal.1⟩
    next => cases h
  next => cases h

theorem originalOf_ok {q other : HeldQueue} {bytes : Nat} {value : Json}
    (hreference : queueReference other = queueReference q) (hpos : 0 < bytes)
    (hbytes : bytes ≤ maxOperationReceiptBytes) :
    originalOf (some other) (.int bytes) (.str (digest value)) (queueReference q) =
      .ok (other, (bytes : Int), digest value) := by
  have hequal : (queueReference q).equals (queueReference other) = true := by
    rw [hreference]
    exact Json.equals_self _
  exact if_pos ⟨hequal, by omega, by exact_mod_cast hbytes, isSha256_sha256 _⟩

/-- A carrier of the second version is unpacked to its envelope, for a queue with the same
reference and the same identities. -/
theorem unpack_referenced {envelope value packed : Json} {q other : HeldQueue}
    (hcarried : carried envelope (some q) = .ok value) (hinverts : Inverts codec value)
    (h : Packed codec envelope value packed (some q))
    (hreference : queueReference other = queueReference q)
    (hids : other.inventoryIds = q.inventoryIds) :
    unpackQueueState codec packed (some other) = .ok envelope.sortKeys := by
  obtain ⟨retained, records, strings, hreferenced⟩ := carried_some hcarried
  have hpos : 0 < value.canonicalSize := by
    rw [hreferenced.document_eq]
    exact canonicalSize_envelopeOf _
  have hstate := h.state hinverts hpos
  have hsize := h.size
  obtain rfl := h.document
  have hkind : (packedDocument envelope (encodedOf codec value) (some q)).get? "kind" =
      some (.str packedV2) := rfl
  have hfirst : (packedDocument envelope (encodedOf codec value) (some q)).get? "kind" ≠
      some (.str packedV1) := by
    rw [hkind]
    decide
  have hrecord : (packedDocument envelope (encodedOf codec value) (some q)).record?
      packedReferenceKeys = some [.str packedV2, .int envelope.canonicalSize,
        .str (digest envelope), queueReference q, .str "1.0", encodedOf codec value] :=
    Json.record?_zip rfl
  have hbytes : envelope.canonicalSize ≤ maxOperationReceiptBytes := hreferenced.size
  have hlow : 0 < envelope.canonicalSize := by
    have hjournal := canonicalSize_envelopeOf (historyDocument retained records strings)
    rw [← hreferenced.envelope_eq, Json.canonicalSize, Json.sortKeys_sortKeys] at hjournal
    exact hjournal
  have hexpanded : expandQueueReference value other (envelope.canonicalSize : Int) =
      .ok envelope.sortKeys := hreferenced.expand hids
  have hsame : envelope.sortKeys.canonicalSize = envelope.canonicalSize := by
    rw [Json.canonicalSize, Json.canonicalSize, Json.sortKeys_sortKeys]
  have hdigest : digest envelope.sortKeys = digest envelope := by
    rw [digest, digest, Json.canonical, Json.canonical, Json.sortKeys_sortKeys]
  have hretained : queueFromDocument (((journalOf envelope.sortKeys).get? "queue").getD .null) =
      .ok retained := by
    rw [hreferenced.envelope_eq]
    exact queueFromDocument_self retained
  rw [unpackQueueState, Json.sortKeys_of_ordered _ (ordered_packed envelope _ (some q)),
    unpackOrdered, if_neg hfirst, if_pos hkind, unpackV2, hrecord]
  dsimp only
  rw [ensure_bind rfl, ensure_bind hsize, ok_bind (originalOf_ok hreference hlow hbytes)]
  dsimp only
  rw [ok_bind hstate, ok_bind hexpanded, checkOriginal,
    ensure_bind ⟨by rw [hsame], by rw [hsame]; exact hbytes, hdigest⟩,
    ok_bind hreferenced.accepted, ok_bind hretained,
    ensure_bind (hreferenced.reference_eq.trans hreference.symm)]
  rfl

/-- Whatever document of the second version is unpacked, it is unpacked for the queue that it
refers to, and its own queue has that reference. -/
theorem unpack_reference {document result : Json} {queue : Option HeldQueue}
    (hkind : document.sortKeys.get? "kind" = some (.str packedV2))
    (h : unpackQueueState codec document queue = .ok result) :
    ∃ q inventory retained, queue = some q ∧
      document.sortKeys.get? "queue_reference" = some inventory ∧
      inventory.equals (queueReference q) = true ∧
      queueFromDocument (((journalOf result).get? "queue").getD .null) = .ok retained ∧
      queueReference retained = queueReference q := by
  have hfirst : document.sortKeys.get? "kind" ≠ some (.str packedV1) := by
    rw [hkind]
    decide
  rw [unpackQueueState, unpackOrdered, if_neg hfirst, if_pos hkind] at h
  unfold unpackV2 at h
  split at h
  next kind bytes sha256 inventory version state hrecord =>
    obtain ⟨_, _, h⟩ := bind_ok h
    obtain ⟨_, _, h⟩ := bind_ok h
    obtain ⟨⟨q, original, hash⟩, horiginal, h⟩ := bind_ok h
    obtain ⟨_, _, h⟩ := bind_ok h
    obtain ⟨_, _, h⟩ := bind_ok h
    obtain ⟨_, _, h⟩ := bind_ok h
    obtain ⟨validated, _, h⟩ := bind_ok h
    obtain ⟨retained, hretained, h⟩ := bind_ok h
    obtain ⟨_, hsame, h⟩ := bind_ok h
    obtain rfl := Except.ok.inj h
    obtain ⟨rfl, hequal⟩ := originalOf_inv horiginal
    refine ⟨q, inventory, retained, rfl, ?_, hequal, hretained, ensure_inv hsame⟩
    rw [(Json.record?_some hrecord).1]
    rfl
  next => cases h

theorem optionalText_equals {a b : Option String}
    (h : (optionalText a).equals (optionalText b) = true) : a = b := by
  cases a <;> cases b <;> simp_all [optionalText, Json.equals]

theorem optionalNumber_equals {a b : Option Nat}
    (h : (optionalNumber a).equals (optionalNumber b) = true) : a = b := by
  cases a <;> cases b <;> simp_all [optionalNumber, Json.equals]

/-- The fields of a reference. -/
structure SameReference (q other : HeldQueue) : Prop where
  snapshot : q.snapshot = other.snapshot
  inventoryDigest : q.inventoryDigest = other.inventoryDigest
  inventoryIds : digest (texts q.inventoryIds) = digest (texts other.inventoryIds)

theorem reference_equals {q other : HeldQueue}
    (h : (queueReference q).equals (queueReference other) = true) : SameReference q other := by
  simp only [queueReference, referenceKeys, EvidenceSnapshot.toDict, snapshotKeys,
    List.zip_cons_cons, List.zip_nil_right, Json.equals, Json.equalFields, decide_true,
    Bool.true_and, Bool.and_true, Bool.and_eq_true, decide_eq_true_eq] at h
  obtain ⟨hdigest, hids, hbase, hhead, hnumber, hrepository⟩ := h
  refine ⟨?_, hdigest, hids⟩
  calc q.snapshot
      = ⟨q.snapshot.repository, q.snapshot.pullRequest, q.snapshot.baseSha,
          q.snapshot.headSha⟩ := rfl
    _ = ⟨other.snapshot.repository, other.snapshot.pullRequest, other.snapshot.baseSha,
          other.snapshot.headSha⟩ := by
        rw [optionalText_equals hbase, optionalText_equals hhead, optionalNumber_equals hnumber,
          optionalText_equals hrepository]

theorem queueReference_same {q other : HeldQueue} (h : SameReference q other) :
    queueReference other = queueReference q := by
  rw [queueReference, queueReference, h.snapshot, h.inventoryDigest, h.inventoryIds]

/-- SHA-256 does not collide on the identities of two queues. -/
def NoCollision (q other : HeldQueue) : Prop :=
  digest (texts q.inventoryIds) = digest (texts other.inventoryIds) →
    q.inventoryIds = other.inventoryIds

/-- The queue that a carrier is read with has the reference of the one it was packed with. -/
def Agrees : Option HeldQueue → Option HeldQueue → Prop
  | none, _ => True
  | some q, some other => SameReference q other ∧ NoCollision q other
  | some _, none => False

/-- The carrier of a queue's envelope: within its bounds, the envelope comes back for every queue
with the same reference, and a document that refers to another queue is refused. -/
theorem queue_carrier_round_trip {envelope value packed : Json} {queue : Option HeldQueue}
    (hcarried : carried envelope queue = .ok value) (hinverts : Inverts codec value)
    (hpack : packQueueState codec envelope queue = .ok packed) :
    queueStateEnvelope envelope = .ok envelope.sortKeys ∧
      envelope.canonicalSize ≤ maxOperationReceiptBytes ∧
      packed.canonicalSize ≤ maxOperationReceiptBytes ∧
      (∀ other, Agrees queue other →
        unpackQueueState codec packed other = .ok envelope.sortKeys) ∧
      (∀ q, queue = some q → ∀ other, (∀ o, other = some o → ¬ SameReference q o) →
        ∃ message, unpackQueueState codec packed other = .error message) ∧
      (∀ document inventory other, document.sortKeys.get? "kind" = some (.str packedV2) →
        document.sortKeys.get? "queue_reference" = some inventory →
        (∀ o, other = some o → inventory.equals (queueReference o) = false) →
        ∃ message, unpackQueueState codec document other = .error message) := by
  obtain ⟨accepted, haccepted, -⟩ := bind_ok hcarried
  obtain ⟨rfl, -⟩ := readEnvelope_self haccepted
  obtain ⟨-, journal, henvelope⟩ := readEnvelope_inv haccepted
  have hpacked := packQueueState_inv hcarried hpack
  have hsize := henvelope.size
  rw [Json.canonicalSize, Json.sortKeys_sortKeys] at hsize
  have hrefused : ∀ document inventory other,
      document.sortKeys.get? "kind" = some (.str packedV2) →
      document.sortKeys.get? "queue_reference" = some inventory →
      (∀ o, other = some o → inventory.equals (queueReference o) = false) →
      ∃ message, unpackQueueState codec document other = .error message := by
    intro document inventory other hkind hinventory hother
    apply Evidence.not_read_error
    intro result hread
    obtain ⟨o, found, -, hqueue, hfound, hequal, -⟩ := unpack_reference hkind hread
    obtain rfl : inventory = found := Option.some.inj (hinventory.symm.trans hfound)
    rw [hother o hqueue] at hequal
    cases hequal
  refine ⟨haccepted, hsize, hpacked.size, ?_, ?_, hrefused⟩
  · intro other hagrees
    cases queue with
    | none => exact unpack_plain hcarried hinverts hpacked other
    | some q =>
      cases other with
      | none => cases hagrees
      | some o =>
        obtain ⟨hsame, hcollision⟩ := hagrees
        exact unpack_referenced hcarried hinverts hpacked (queueReference_same hsame)
          (hcollision hsame.inventoryIds).symm
  · intro q hqueue other hother
    obtain rfl := hqueue
    have hordered : packed.sortKeys = packed :=
      Json.sortKeys_of_ordered _ (hpacked.document ▸ ordered_packed envelope value (some q))
    apply hrefused packed (queueReference q) other
    · rw [hordered, hpacked.document]
      rfl
    · rw [hordered, hpacked.document]
      rfl
    · intro o ho
      rw [← Bool.not_eq_true]
      intro hequal
      exact hother o ho (reference_equals hequal)

end Carrier

section Sample

def carrierFields : QueueFields where
  snapshot := ⟨some "o/r", some 1, some "aaaaaaaaaaaaaaaaaaaaaaaaaaaaaaaaaaaaaaaa",
    some "bbbbbbbbbbbbbbbbbbbbbbbbbbbbbbbbbbbbbbbb"⟩
  inventoryDigest := "0000000000000000000000000000000000000000000000000000000000000000"
  inventoryIds := ["0000000000000000000000000000000000000000000000000000000000000000"]
  pendingOrder := ["0000000000000000000000000000000000000000000000000000000000000000"]
  resolvedIds := []

/-- A queue of one finding, which is pending. -/
def carrierQueue : HeldQueue := ⟨⟨carrierFields, by decide, by decide⟩, by decide⟩

/-- Its envelope, before any operation. -/
def carrierEnvelope : Json := envelopeOf (historyDocument carrierQueue [] [])

def carrierValue : Json := referencedOf carrierFields.inventoryIds carrierFields [] []

/-- What zlib makes of its envelope with references. -/
def carrierPacked : List UInt8 :=
  ([120, 218, 165, 144, 193, 110, 195, 48, 8, 134, 223, 133, 115, 179, 37, 59, 230, 85, 166, 201,
    162, 51, 170, 221, 165, 198, 3, 199, 210, 84, 229, 221, 7, 85, 14, 61, 84, 83, 165, 113, 132,
    159, 159, 255, 227, 10, 103, 94, 165, 224, 2, 243, 21, 184, 146, 96, 203, 92, 20, 230, 247,
    143, 3, 124, 175, 180, 146, 15, 114, 233, 84, 26, 203, 79, 136, 249, 68, 218, 96, 134, 241,
    159, 5, 135, 59, 215, 28, 253, 226, 104, 39, 43, 149, 152, 203, 41, 176, 68, 146, 189, 39,
    164, 188, 116, 138, 187, 204, 58, 250, 153, 232, 130, 161, 147, 168, 165, 181, 52, 168, 74,
    170, 23, 179, 27, 110, 161, 135, 62, 217, 1, 45, 88, 53, 113, 115, 132, 35, 42, 5, 77, 232,
    226, 39, 203, 28, 18, 97, 220, 183, 142, 79, 150, 109, 213, 117, 89, 130, 144, 37, 241, 87,
    77, 78, 80, 89, 179, 163, 154, 17, 191, 10, 108, 219, 223, 16, 41, 171, 171, 135, 254, 230,
    24, 77, 236, 37, 55, 116, 91, 251, 202, 37, 62, 34, 214, 134, 141, 224, 129, 237, 244, 50,
    194, 246, 11, 211, 14, 163, 50] : List Nat).map UInt8.ofNat

/-- A codec that knows one document. -/
def singleCodec (value : Json) (packed : List UInt8) : Codec where
  compress raw := if raw = value.canonical then packed else []
  inflate bytes := if bytes = packed then some value.canonical else none
  loads raw := if raw = value.canonical then some value else none

theorem singleCodec_compress (value : Json) (packed : List UInt8) :
    (singleCodec value packed).compress value.canonical = packed := if_pos rfl

theorem singleCodec_inverts (value : Json) (packed : List UInt8) :
    Inverts (singleCodec value packed) value := by
  refine ⟨?_, if_pos rfl⟩
  rw [singleCodec_compress]
  exact if_pos rfl

def carrierJournal : Journal .factored where
  document := historyDocument carrierQueue [] []
  built := by
    have hsize : (historyDocument carrierQueue [] []).canonicalSize ≤ maxOperationReceiptBytes := by
      rw [Json.canonicalSize_plain (by decide)]
      decide
    exact ⟨carrierQueue, [], retainedDocument_iff.mpr ⟨by decide, rfl, rfl, hsize⟩⟩

theorem carrierEnvelope_accepted :
    queueStateEnvelope carrierEnvelope = .ok carrierEnvelope := by
  have hsorted : carrierEnvelope.sortKeys = carrierEnvelope := by decide
  have hsize : carrierEnvelope.canonicalSize ≤ maxOperationReceiptBytes := by
    rw [Json.canonicalSize_plain (by decide)]
    decide
  have hrecord : carrierEnvelope.record? envelopeKeys =
      some [carrierJournal.document, .str queueStateKind, .str "1.0"] := by
    decide
  have hversion : carrierJournal.document.get? "schema_version" ≠
      some (.str queueInterfaceVersion) := by
    decide
  unfold queueStateEnvelope readEnvelope
  rw [hsorted, hrecord]
  dsimp only
  rw [ensure_bind ⟨rfl, rfl, hsize⟩, checkJournal, if_neg hversion,
    ok_bind (factored_reads_itself carrierJournal)]
  rfl

theorem carrierQueue_carried :
    carried carrierEnvelope (some carrierQueue) = .ok carrierValue := by
  have hfactored : isFactored (journalOf carrierEnvelope) = true := by decide
  have hqueue : queueFromDocument (((journalOf carrierEnvelope).get? "queue").getD .null) =
      .ok carrierQueue := queueFromDocument_self carrierQueue
  rw [carried, ok_bind carrierEnvelope_accepted]
  dsimp only
  rw [ensure_bind hfactored, ok_bind hqueue, ensure_bind rfl]
  decide

set_option maxRecDepth 2000 in
theorem carrierPacked_length : carrierPacked.length = 208 := by
  simp only [carrierPacked, List.length_map, List.length_cons, List.length_nil, Nat.zero_add,
    Nat.reduceAdd]

theorem size_encodedOf_le {codec : Codec} {value : Json} (hvalue : value.canonicalSize ≤ 999)
    (hlength : (codec.compress value.canonical).length = 208) :
    (encodedOf codec value).size ≤ 600 := by
  have hkeys : encodedKeys ≠ [] := List.cons_ne_nil _ _
  have hframe : Json.frameSize encodedKeys = 48 := by decide
  have hencoding : (Json.str evidenceEncoding).size = 14 := by decide
  have hdigest : (Json.str (digest value)).size = 66 := size_sha256 _
  have hdata := Evidence.size_base64 (codec.compress value.canonical)
  have hdecoded : (Json.int value.canonicalSize).size ≤ 3 :=
    Json.size_nat_le (by decide) (by omega)
  rw [encodedOf, size_zip rfl hkeys]
  simp only [List.map_cons, List.map_nil, List.sum_cons, List.sum_nil]
  omega

theorem size_reference_le {q : HeldQueue} (hdigest : isSha256 q.inventoryDigest = true)
    (hsnapshot : q.snapshot.toDict.size ≤ 200) : (queueReference q).size ≤ 600 := by
  have hkeys : referenceKeys ≠ [] := List.cons_ne_nil _ _
  have hframe : Json.frameSize referenceKeys ≤ 60 := by decide
  have hinventory := size_identity hdigest
  have hids : (Json.str (digest (texts q.inventoryIds))).size = 66 := size_sha256 _
  rw [queueReference, size_zip rfl hkeys]
  simp only [List.map_cons, List.map_nil, List.sum_cons, List.sum_nil]
  omega

theorem packed_fits {envelope state : Json} {q : HeldQueue} (hstate : state.size ≤ 600)
    (henvelope : envelope.canonicalSize ≤ 999) (hreference : (queueReference q).size ≤ 600) :
    (packedDocument envelope state (some q)).canonicalSize ≤ maxOperationReceiptBytes := by
  have hkeys : packedReferenceKeys ≠ [] := List.cons_ne_nil _ _
  have hframe : Json.frameSize packedReferenceKeys ≤ 120 := by decide
  have hkind : (Json.str packedV2).size = 34 := by decide
  have hversion : (Json.str "1.0").size = 5 := by decide
  have hdigest : (Json.str (digest envelope)).size = 66 := size_sha256 _
  have hbytes : (Json.int envelope.canonicalSize).size ≤ 3 :=
    Json.size_nat_le (by decide) (by omega)
  have hmax : maxOperationReceiptBytes = 2097152 := rfl
  rw [Json.canonicalSize_eq, packedDocument, size_zip rfl hkeys]
  simp only [List.map_cons, List.map_nil, List.sum_cons, List.sum_nil]
  omega

theorem carrierQueue_packed : packQueueState (singleCodec carrierValue carrierPacked)
      carrierEnvelope (some carrierQueue) =
    .ok (packedDocument carrierEnvelope
      (encodedOf (singleCodec carrierValue carrierPacked) carrierValue) (some carrierQueue)) := by
  have hvalue : carrierValue.canonicalSize ≤ 999 := by
    rw [Json.canonicalSize_plain (by decide)]
    decide
  have henvelope : carrierEnvelope.canonicalSize ≤ 999 := by
    rw [Json.canonicalSize_plain (by decide)]
    decide
  have hlength : ((singleCodec carrierValue carrierPacked).compress
      carrierValue.canonical).length = 208 := by
    rw [singleCodec_compress]
    exact carrierPacked_length
  have hdigest : isSha256 carrierQueue.inventoryDigest = true := by decide
  have hsnapshot : carrierQueue.snapshot.toDict.size ≤ 200 := by decide +kernel
  exact packQueueState_ok carrierQueue_carried (le_trans hvalue (by decide))
    (packed_fits (size_encodedOf_le hvalue hlength) henvelope (size_reference_le hdigest hsnapshot))

/-- The envelope of a queue of one finding, packed and unpacked for that queue. -/
theorem carrier_round_trip :
    unpackQueueState (singleCodec carrierValue carrierPacked) (packedDocument carrierEnvelope
        (encodedOf (singleCodec carrierValue carrierPacked) carrierValue) (some carrierQueue))
        (some carrierQueue) =
      .ok carrierEnvelope.sortKeys := by
  obtain ⟨-, -, -, hread, -, -⟩ := queue_carrier_round_trip carrierQueue_carried
    (singleCodec_inverts carrierValue carrierPacked) carrierQueue_packed
  exact hread (some carrierQueue) ⟨⟨rfl, rfl, rfl⟩, fun _ => rfl⟩

end Sample
end ReviewSensei.Assessment
