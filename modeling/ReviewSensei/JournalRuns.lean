import ReviewSensei.JournalRecord

/-! What recording receipts keeps: the receipts of other sources, the progress of the recorded one
and every resolution; and where a new resolution comes from. -/
namespace ReviewSensei.Assessment
open Session (bind_ok isSha256)

variable {kind : JournalKind}

theorem toDocument_inj {row other : Operation} (h : row.toDocument = other.toDocument) :
    row = other := by
  obtain ⟨id, receipt, source⟩ := row
  obtain ⟨id', receipt', source'⟩ := other
  simp only [Operation.toDocument, operationKeys, List.zip_cons_cons, List.zip_nil_right,
    Json.obj.injEq, List.cons.injEq, Prod.mk.injEq, Json.str.injEq, true_and, and_true] at h
  obtain ⟨rfl, rfl, rfl⟩ := h
  rfl

theorem readOperation_toDocument {row : Operation} (h : row.bound = true) :
    readOperation row.toDocument = some row := by
  rw [readOperation, Operation.toDocument, Json.record?_zip rfl]
  exact if_pos h

theorem mapM_toDocument {rows : List Operation} (h : ∀ row ∈ rows, row.bound = true) :
    (rows.map Operation.toDocument).mapM readOperation = some rows := by
  induction rows with
  | nil => rfl
  | cons row rows ih =>
    rw [List.map_cons, List.mapM_cons, readOperation_toDocument (h row List.mem_cons_self),
      ih (fun r hr => h r (List.mem_cons_of_mem _ hr))]
    rfl

/-- What a journal holds, with its operations as rows. -/
structure Shows (journal : Journal kind) (queue : HeldQueue) (rows : List Operation) : Prop where
  keeps : Keeps journal queue (rows.map Operation.toDocument)
  bound : ∀ row ∈ rows, row.bound = true
  sources : (rows.map Operation.sourceDigest).Nodup

theorem shows_of_keeps {journal : Journal kind} {queue : HeldQueue} {rows : List Operation}
    (h : Keeps journal queue (rows.map Operation.toDocument)) : Shows journal queue rows := by
  obtain ⟨found, hfound, hbound, hnodup⟩ := sourcesBound_rows h.retained.sources
  have hsame : rows = found :=
    List.map_injective_iff.mpr (fun _ _ => toDocument_inj) hfound
  exact ⟨h, hsame ▸ hbound, hsame ▸ hnodup⟩

theorem Journal.shows (journal : Journal kind) : ∃ queue rows, Shows journal queue rows := by
  obtain ⟨queue, ops, h⟩ := journal.keeps
  obtain ⟨rows, rfl, -⟩ := sourcesBound_rows h.retained.sources
  exact ⟨queue, rows, shows_of_keeps h⟩

theorem Shows.rows {journal : Journal kind} {queue : HeldQueue} {rows : List Operation}
    (h : Shows journal queue rows) : journal.rows = .ok rows := by
  rw [Journal.rows, ok_bind h.keeps.operations, mapM_toDocument h.bound]
  rfl

theorem Shows.ordered {journal : Journal kind} {queue : HeldQueue} {rows : List Operation}
    (h : Shows journal queue rows) {row : Operation} (hrow : row ∈ rows) :
    row.toDocument.Ordered :=
  Json.orderedItems_iff.mp h.keeps.ordered _ (List.mem_map_of_mem hrow)

/-- A receipt that updates an earlier one of its source. -/
structure Extends (old new : List (String × Json)) : Prop where
  admission : ∀ name ∈ admissionFields, (get old name).numeric = (get new name).numeric
  counters : ∃ a b, get old "counters" = .obj a ∧ get new "counters" = .obj b ∧
    ∀ f ∈ a, ∃ i k : Int, f.2 = .int i ∧ Json.field? b f.1 = some (.int k) ∧ i ≤ k
  completed : ∃ a b, get old "completed" = .arr a ∧ get new "completed" = .arr b ∧
    ∀ x ∈ a, ∃ y ∈ b, x.numeric = y.numeric
  attempted : ∃ a b, get old "attempted_ids" = .arr a ∧ get new "attempted_ids" = .arr b ∧
    ∀ x ∈ a, ∃ y ∈ b, x.numeric = y.numeric

theorem isIn_iff {item : Json} {items : List Json} :
    isIn item items = true ↔ ∃ other ∈ items, item.numeric = other.numeric := by
  rw [isIn, List.any_eq_true]
  simp only [Json.equals_iff]

theorem countersKept_inv {a b : Json} (h : countersKept a b = true) :
    ∃ old new, a = .obj old ∧ b = .obj new ∧
      ∀ f ∈ old, ∃ i k : Int, f.2 = .int i ∧ Json.field? new f.1 = some (.int k) ∧ i ≤ k := by
  unfold countersKept at h
  split at h
  next old new =>
    rw [Bool.and_eq_true, List.all_eq_true, List.all_eq_true] at h
    refine ⟨old, new, rfl, rfl, ?_⟩
    intro f hf
    have hkept := h.2 f hf
    unfold countKept at hkept
    split at hkept
    next i k hi hk => exact ⟨i, k, hi, hk, of_decide_eq_true hkept⟩
    next => cases hkept
  next => cases h

theorem checkUpdate_ok {previous receipt : List (String × Json)} {u : Unit}
    (h : checkUpdate previous receipt = .ok u) : Extends previous receipt := by
  obtain ⟨_, hadmission, h⟩ := bind_ok h
  obtain ⟨_, hcounters, h⟩ := bind_ok h
  obtain ⟨kept, hkept, h⟩ := bind_ok h
  obtain rfl : kept = true := ensure_inv h
  obtain ⟨a, b, ha, hb, hcounts⟩ := countersKept_inv (ensure_inv hcounters)
  unfold progressKept at hkept
  split at hkept
  next oldCompleted newCompleted oldAttempted newAttempted h₁ h₂ h₃ h₄ =>
    split at hkept
    next => cases Except.ok.inj hkept
    next hcompleted =>
      obtain ⟨_, _, hkept⟩ := bind_ok hkept
      have hattempted := Except.ok.inj hkept
      rw [Bool.not_eq_false] at hcompleted
      refine ⟨?_, ⟨a, b, ha, hb, hcounts⟩, ⟨oldCompleted, newCompleted, h₁, h₂, ?_⟩,
        ⟨oldAttempted, newAttempted, h₃, h₄, ?_⟩⟩
      · intro name hname
        exact (Json.equals_iff _ _).mp (List.all_eq_true.mp (ensure_inv hadmission) name hname)
      · exact fun x hx => isIn_iff.mp (List.all_eq_true.mp hcompleted x hx)
      · exact fun x hx => isIn_iff.mp (List.all_eq_true.mp hattempted x hx)
  next => cases Except.ok.inj hkept

theorem field?_mem {fields : List (String × Json)} {name : String} {value : Json}
    (h : Json.field? fields name = some value) : (name, value) ∈ fields := by
  unfold Json.field? at h
  obtain ⟨f, hf, rfl⟩ := Option.map_eq_some_iff.mp h
  have hname : f.1 = name := by simpa using List.find?_some hf
  exact hname ▸ List.mem_of_find?_eq_some hf

theorem members_trans {old mid new : List Json}
    (h : ∀ x ∈ old, ∃ y ∈ mid, x.numeric = y.numeric)
    (h' : ∀ x ∈ mid, ∃ y ∈ new, x.numeric = y.numeric) :
    ∀ x ∈ old, ∃ y ∈ new, x.numeric = y.numeric := by
  intro x hx
  obtain ⟨y, hy, hxy⟩ := h x hx
  obtain ⟨z, hz, hyz⟩ := h' y hy
  exact ⟨z, hz, hxy.trans hyz⟩

theorem Extends.trans {old mid new : List (String × Json)} (h : Extends old mid)
    (h' : Extends mid new) : Extends old new := by
  obtain ⟨a, b, ha, hb, hcounts⟩ := h.counters
  obtain ⟨b', c, hb', hc, hcounts'⟩ := h'.counters
  obtain rfl := Json.obj.inj (hb.symm.trans hb')
  obtain ⟨x, y, hx, hy, hcompleted⟩ := h.completed
  obtain ⟨y', z, hy', hz, hcompleted'⟩ := h'.completed
  obtain rfl := Json.arr.inj (hy.symm.trans hy')
  obtain ⟨u, v, hu, hv, hattempted⟩ := h.attempted
  obtain ⟨v', w, hv', hw, hattempted'⟩ := h'.attempted
  obtain rfl := Json.arr.inj (hv.symm.trans hv')
  refine ⟨fun name hname => (h.admission name hname).trans (h'.admission name hname),
    ⟨a, c, ha, hc, ?_⟩, ⟨x, z, hx, hz, members_trans hcompleted hcompleted'⟩,
    ⟨u, w, hu, hw, members_trans hattempted hattempted'⟩⟩
  intro f hf
  obtain ⟨i, k, hi, hk, hle⟩ := hcounts f hf
  obtain ⟨i', k', hi', hk', hle'⟩ := hcounts' _ (field?_mem hk)
  obtain rfl := Json.int.inj hi'
  exact ⟨i, k', hi, hk', hle.trans hle'⟩

/-- The receipt of a source later in a run: the same one, or an update of it. -/
def Kept (old new : List (String × Json)) : Prop := old = new ∨ Extends old new

theorem Kept.trans {old mid new : List (String × Json)} (h : Kept old mid) (h' : Kept mid new) :
    Kept old new := by
  rcases h with rfl | h
  · exact h'
  · rcases h' with rfl | h'
    · exact .inr h
    · exact .inr (h.trans h')

/-- An accepted batch of the receipt addresses or dismisses the finding, and it was attempted. -/
def Decided (receipt : List (String × Json)) (fingerprint : String) : Prop :=
  ∃ completed attempted, get receipt "completed" = .arr completed ∧
    get receipt "attempted_ids" = texts attempted ∧ fingerprint ∈ attempted ∧
    ∃ batch ∈ completed, ∃ assessments fields, assessmentsOf batch = .ok assessments ∧
      .obj fields ∈ assessments ∧ get fields "fingerprint" = .str fingerprint ∧
      (get fields "decision" = .str "addressed" ∨ get fields "decision" = .str "dismissed")

theorem settledBy_some {decision : Json} {fingerprint : String}
    (h : settledBy decision = .ok (some fingerprint)) :
    ∃ fields, decision = .obj fields ∧ get fields "fingerprint" = .str fingerprint ∧
      (get fields "decision" = .str "addressed" ∨ get fields "decision" = .str "dismissed") := by
  unfold settledBy at h
  split at h
  next fields =>
    split at h
    next found verdict hfound hverdict =>
      split at h
      next hvalid =>
        have h := Except.ok.inj h
        split at h
        next => cases h
        next hsettled =>
          obtain rfl := Option.some.inj h
          refine ⟨fields, rfl, hfound, ?_⟩
          rw [hverdict]
          have hmem : verdict ∈ decisions := hvalid.2
          simp only [decisions, List.mem_cons, List.not_mem_nil, or_false] at hmem
          rcases hmem with rfl | rfl | rfl
          · exact .inl rfl
          · exact .inr rfl
          · exact absurd rfl hsettled
      next => cases h
    next => cases h
  next => cases h

theorem settledIn_mem {assessments : List Json} {fingerprints : List String} {fingerprint : String}
    (h : settledIn assessments = .ok fingerprints) (hmem : fingerprint ∈ fingerprints) :
    ∃ fields, .obj fields ∈ assessments ∧ get fields "fingerprint" = .str fingerprint ∧
      (get fields "decision" = .str "addressed" ∨ get fields "decision" = .str "dismissed") := by
  induction assessments generalizing fingerprints with
  | nil =>
    obtain rfl := Except.ok.inj h
    exact absurd hmem List.not_mem_nil
  | cons decision rest ih =>
    obtain ⟨found, hfound, h⟩ := bind_ok h
    obtain ⟨others, hothers, h⟩ := bind_ok h
    obtain rfl := Except.ok.inj h
    rcases List.mem_append.mp hmem with hmem | hmem
    · rw [Option.mem_toList] at hmem
      obtain rfl : found = some fingerprint := hmem
      obtain ⟨fields, rfl, hdecided⟩ := settledBy_some hfound
      exact ⟨fields, List.mem_cons_self, hdecided⟩
    · obtain ⟨fields, hfields, hdecided⟩ := ih hothers hmem
      exact ⟨fields, List.mem_cons_of_mem _ hfields, hdecided⟩

theorem acceptedIn_mem {completed : List Json} {accepted : List String} {fingerprint : String}
    (h : acceptedIn completed = .ok accepted) (hmem : fingerprint ∈ accepted) :
    ∃ batch ∈ completed, ∃ assessments fields, assessmentsOf batch = .ok assessments ∧
      .obj fields ∈ assessments ∧ get fields "fingerprint" = .str fingerprint ∧
      (get fields "decision" = .str "addressed" ∨ get fields "decision" = .str "dismissed") := by
  induction completed generalizing accepted with
  | nil =>
    obtain rfl := Except.ok.inj h
    exact absurd hmem List.not_mem_nil
  | cons batch rest ih =>
    obtain ⟨assessments, hassessments, h⟩ := bind_ok h
    obtain ⟨fingerprints, hfingerprints, h⟩ := bind_ok h
    obtain ⟨others, hothers, h⟩ := bind_ok h
    obtain rfl := Except.ok.inj h
    rcases List.mem_append.mp hmem with hmem | hmem
    · obtain ⟨fields, hfields, hdecided⟩ := settledIn_mem hfingerprints hmem
      exact ⟨batch, List.mem_cons_self, assessments, fields, hassessments, hfields, hdecided⟩
    · obtain ⟨other, hother, hfound⟩ := ih hothers hmem
      exact ⟨other, List.mem_cons_of_mem _ hother, hfound⟩

theorem progressOf_ok {receipt : List (String × Json)} {completed : List Json}
    {attempted : List String} (h : progressOf receipt = .ok (completed, attempted)) :
    get receipt "completed" = .arr completed ∧ get receipt "attempted_ids" = texts attempted := by
  unfold progressOf at h
  split at h
  next items found hcompleted hattempted =>
    split at h
    next ids hids =>
      split at h
      next =>
        obtain ⟨rfl, rfl⟩ := Prod.mk.inj (Except.ok.inj h)
        rw [hcompleted, hattempted, mapM_readText?_some hids]
        exact ⟨rfl, rfl⟩
      next => cases h
    next => cases h
  next => cases h

theorem heldAdvance_ok {queue advanced : HeldQueue} {visited resolved : List String}
    (h : queue.advance visited resolved = .ok advanced) :
    AssessmentQueue.Progress queue.toAssessmentQueue visited resolved ∧
      advanced.resolvedIds = sorted resolved ∧ advanced.inventoryIds = queue.inventoryIds ∧
      advanced.snapshot = queue.snapshot := by
  unfold HeldQueue.advance at h
  split at h
  next next hnext =>
    obtain rfl := Except.ok.inj h
    obtain ⟨hprogress, hfields⟩ := AssessmentQueue.advance_ok hnext
    refine ⟨hprogress, ?_, ?_, ?_⟩
    · change next.toQueueFields.resolvedIds = _
      rw [hfields]
    · change next.toQueueFields.inventoryIds = _
      rw [hfields]
    · change next.toQueueFields.snapshot = _
      rw [hfields]
  next => cases h

theorem receiptOf_ok {rows : List Operation} {source operationId : String}
    {previous : Option (List (String × Json))}
    (h : receiptOf rows source operationId = .ok previous)
    (hnodup : (rows.map Operation.sourceDigest).Nodup) {row : Operation} (hrow : row ∈ rows)
    (hsource : row.sourceDigest = source) :
    row.operationId = operationId ∧ previous = some row.receipt := by
  unfold receiptOf at h
  split at h
  next hnone =>
    have hmiss := List.find?_eq_none.mp hnone row hrow
    exact absurd (decide_eq_true hsource) hmiss
  next found hfound =>
    have hmem := List.mem_of_find?_eq_some hfound
    have hkey : found.sourceDigest = source := by simpa using List.find?_some hfound
    obtain rfl : found = row :=
      List.inj_on_of_nodup_map hnodup hmem hrow (hkey.trans hsource.symm)
    split at h
    next hsame => exact ⟨hsame, (Except.ok.inj h).symm⟩
    next => cases h

theorem operationIdOf_ok {receipt : List (String × Json)} {id : String}
    (h : operationIdOf receipt = .ok id) : get receipt "operation_id" = .str id := by
  unfold operationIdOf at h
  split at h
  next found hfound =>
    split at h
    next => rw [hfound, Except.ok.inj h]
    next => cases h
  next => cases h

/-- What one successful call leaves: its receipt beside those of the other sources, every
resolution that the call's queue has, and no other one without an attempted decision. -/
structure Recorded (prior : HeldQueue) (rows : List Operation) (call : RecordCall)
    (queue : HeldQueue) (rows' : List Operation) : Prop where
  row : ∃ operationId, get call.receipt "operation_id" = .str operationId ∧
    rows' = replaceRow rows ⟨operationId, call.receipt, call.sourceDigest⟩ ∧
    ∀ row ∈ rows, row.sourceDigest = call.sourceDigest →
      row.operationId = operationId ∧ Extends row.receipt call.receipt
  obligations : KeepsObligations prior call.queue
  identity : queue.snapshot = call.queue.snapshot ∧ queue.inventoryIds = call.queue.inventoryIds
  resolved : ∀ i ∈ call.queue.resolvedIds, i ∈ queue.resolvedIds
  decided : ∀ i ∈ queue.resolvedIds, i ∉ call.queue.resolvedIds → Decided call.receipt i
  accepted : ∃ completed accepted, get call.receipt "completed" = .arr completed ∧
    acceptedIn completed = .ok accepted ∧
    ∀ i, i ∈ queue.resolvedIds ↔ i ∈ call.queue.resolvedIds ∨ i ∈ accepted

theorem mem_progressed {queue advanced : HeldQueue} {attempted accepted : List String}
    (h : progressed queue attempted accepted = .ok advanced) {i : String} :
    i ∈ advanced.resolvedIds ↔ i ∈ queue.resolvedIds ∨ i ∈ accepted := by
  rw [(heldAdvance_ok h).2.1, mem_sorted, mem_sorted, List.mem_dedup, List.mem_append]

theorem ordered_row {row : Operation} (h : (Json.obj row.receipt).Ordered) :
    row.toDocument.Ordered :=
  Json.ordered_zip rfl (by decide : operationKeys.Pairwise (· ≤ ·)) ⟨trivial, h, trivial, trivial⟩

theorem record_ok {journal next : Journal kind} {call : RecordCall}
    (h : journal.record call = .ok next) {prior : HeldQueue} {rows : List Operation}
    (hshows : Shows journal prior rows) :
    ∃ queue rows', Shows next queue rows' ∧ Recorded prior rows call queue rows' := by
  obtain ⟨operationId, hid, h⟩ := bind_ok h
  obtain ⟨_, _, h⟩ := bind_ok h
  obtain ⟨found, hfound, h⟩ := bind_ok h
  obtain rfl : found = rows := Except.ok.inj (hfound.symm.trans hshows.rows)
  obtain ⟨previous, hprevious, h⟩ := bind_ok h
  obtain ⟨_, hupdate, h⟩ := bind_ok h
  obtain ⟨held, hheld, h⟩ := bind_ok h
  obtain rfl : held = prior := Except.ok.inj (hheld.symm.trans hshows.keeps.queue)
  obtain ⟨_, hobligations, h⟩ := bind_ok h
  obtain ⟨⟨completed, attempted⟩, hprogress, h⟩ := bind_ok h
  obtain ⟨accepted, haccepted, h⟩ := bind_ok h
  obtain ⟨queue, hqueue, h⟩ := bind_ok h
  obtain ⟨hcompleted, hattempted⟩ := progressOf_ok hprogress
  obtain ⟨hguard, hresolved, hinventory, hsnapshot⟩ := heldAdvance_ok hqueue
  -- the stored rows are those that the call wrote, whose keys are in order already
  have hrows : Shows next queue
      (replaceRow found ⟨operationId, call.receipt, call.sourceDigest⟩) := by
    apply shows_of_keeps
    have hkeeps := construct_keeps h
    rwa [map_sortKeys_ordered] at hkeeps
    rw [Json.orderedItems_iff]
    intro j hj
    obtain ⟨row, hrow, rfl⟩ := List.mem_map.mp hj
    rcases List.mem_append.mp hrow with hrow | hrow
    · exact hshows.ordered (List.mem_filter.mp hrow).1
    · rw [List.mem_singleton.mp hrow]
      exact ordered_row call.ordered
  refine ⟨queue, _, hrows, ⟨operationId, operationIdOf_ok hid, rfl, ?_⟩,
    ensure_inv hobligations, ⟨hsnapshot, hinventory⟩, ?_, ?_,
    ⟨completed, accepted, hcompleted, haccepted, fun _ => mem_progressed hqueue⟩⟩
  · intro row hrow hsource
    obtain ⟨hsame, rfl⟩ := receiptOf_ok hprevious hshows.sources hrow hsource
    exact ⟨hsame, checkUpdate_ok hupdate⟩
  · exact fun i hi => (mem_progressed hqueue).mpr (.inl hi)
  · intro i hi hnew
    have hmem := ((mem_progressed hqueue).mp hi).resolve_left hnew
    have hvisited := hguard.resolved_visited i
      (mem_sorted.mp (hresolved ▸ hi : i ∈ sorted _)) hnew
    exact ⟨completed, attempted, hcompleted, hattempted, (List.mem_filter.mp hvisited).1,
      acceptedIn_mem haccepted hmem⟩

/-- How a run of calls, of which some may raise, leaves a journal. -/
structure Grown (calls : List RecordCall) (prior : HeldQueue) (rows : List Operation)
    (queue : HeldQueue) (rows' : List Operation) : Prop where
  others : rows'.filter (fun row => row.sourceDigest ∉ calls.map RecordCall.sourceDigest) =
    rows.filter (fun row => row.sourceDigest ∉ calls.map RecordCall.sourceDigest)
  kept : ∀ row ∈ rows, ∃ row' ∈ rows', row'.sourceDigest = row.sourceDigest ∧
    row'.operationId = row.operationId ∧ Kept row.receipt row'.receipt
  resolved : ∀ i ∈ prior.resolvedIds, i ∈ queue.resolvedIds
  decided : ∀ i ∈ queue.resolvedIds, i ∉ prior.resolvedIds →
    ∃ call ∈ calls, i ∈ call.queue.resolvedIds ∨ Decided call.receipt i

theorem Recorded.kept {prior queue : HeldQueue} {rows rows' : List Operation} {call : RecordCall}
    (h : Recorded prior rows call queue rows') {row : Operation} (hrow : row ∈ rows) :
    ∃ row' ∈ rows', row'.sourceDigest = row.sourceDigest ∧
      row'.operationId = row.operationId ∧ Kept row.receipt row'.receipt := by
  obtain ⟨operationId, -, rfl, hsame⟩ := h.row
  by_cases hsource : row.sourceDigest = call.sourceDigest
  · obtain ⟨hid, hextends⟩ := hsame row hrow hsource
    exact ⟨_, List.mem_append_right _ List.mem_cons_self, hsource.symm, hid.symm, .inr hextends⟩
  · refine ⟨row, List.mem_append_left _ (List.mem_filter.mpr ⟨hrow, ?_⟩), rfl, rfl, .inl rfl⟩
    exact decide_eq_true hsource

/-- Among the rows that are not of the recorded source nothing changes. -/
theorem Recorded.others {prior queue : HeldQueue} {rows rows' : List Operation}
    {call : RecordCall} (h : Recorded prior rows call queue rows') (others : List String) :
    rows'.filter (fun row => row.sourceDigest ∉ call.sourceDigest :: others) =
      rows.filter (fun row => row.sourceDigest ∉ call.sourceDigest :: others) := by
  obtain ⟨operationId, -, rfl, -⟩ := h.row
  rw [replaceRow, List.filter_append, List.filter_filter]
  have hnew : [(⟨operationId, call.receipt, call.sourceDigest⟩ : Operation)].filter
      (fun row => row.sourceDigest ∉ call.sourceDigest :: others) = [] := by simp
  rw [hnew, List.append_nil]
  apply List.filter_congr
  intro row _
  by_cases hsource : row.sourceDigest = call.sourceDigest <;> simp [hsource]

theorem attempt_ok {journal next : Journal kind} {call : RecordCall}
    (h : journal.record call = .ok next) : journal.attempt call = next := by
  rw [Journal.attempt, h]

theorem attempt_error {journal : Journal kind} {call : RecordCall} {message : String}
    (h : journal.record call = .error message) : journal.attempt call = journal := by
  rw [Journal.attempt, h]

/-- A run of calls, by induction on the calls. -/
theorem attempts_grow (calls : List RecordCall) (journal : Journal kind) {prior : HeldQueue}
    {rows : List Operation} (hshows : Shows journal prior rows) :
    ∃ queue rows', Shows (calls.foldl Journal.attempt journal) queue rows' ∧
      Grown calls prior rows queue rows' := by
  induction calls generalizing journal prior rows with
  | nil =>
    exact ⟨prior, rows, hshows, rfl, fun row hrow => ⟨row, hrow, rfl, rfl, .inl rfl⟩,
      fun _ hi => hi, fun i hi hnew => absurd hi hnew⟩
  | cons call calls ih =>
    rw [List.foldl_cons]
    cases hrecord : journal.record call with
    | error message =>
      rw [attempt_error hrecord]
      obtain ⟨queue, rows', hshows', hgrown⟩ := ih journal hshows
      refine ⟨queue, rows', hshows', ?_, hgrown.kept, hgrown.resolved, ?_⟩
      · have hothers := congrArg
          (List.filter (fun row : Operation => decide (row.sourceDigest ≠ call.sourceDigest)))
          hgrown.others
        rw [List.filter_filter, List.filter_filter] at hothers
        simpa [not_or] using hothers
      · intro i hi hnew
        obtain ⟨other, hother, hfound⟩ := hgrown.decided i hi hnew
        exact ⟨other, List.mem_cons_of_mem _ hother, hfound⟩
    | ok next =>
      rw [attempt_ok hrecord]
      obtain ⟨mid, rows₁, hshows₁, hrecorded⟩ := record_ok hrecord hshows
      obtain ⟨queue, rows', hshows', hgrown⟩ := ih next hshows₁
      refine ⟨queue, rows', hshows', ?_, ?_, ?_, ?_⟩
      · have hothers := congrArg
          (List.filter (fun row : Operation => decide (row.sourceDigest ≠ call.sourceDigest)))
          hgrown.others
        rw [List.filter_filter, List.filter_filter] at hothers
        have hfirst := hrecorded.others (calls.map RecordCall.sourceDigest)
        rw [List.map_cons, ← hfirst]
        simpa [not_or] using hothers
      · intro row hrow
        obtain ⟨row₁, hrow₁, hs₁, ho₁, hk₁⟩ := hrecorded.kept hrow
        obtain ⟨row₂, hrow₂, hs₂, ho₂, hk₂⟩ := hgrown.kept row₁ hrow₁
        exact ⟨row₂, hrow₂, hs₂.trans hs₁, ho₂.trans ho₁, hk₁.trans hk₂⟩
      · exact fun i hi => hgrown.resolved i
          (hrecorded.resolved i (hrecorded.obligations.2.2 i hi))
      · intro i hi hnew
        by_cases hmid : i ∈ mid.resolvedIds
        · by_cases hcall : i ∈ call.queue.resolvedIds
          · exact ⟨call, List.mem_cons_self, .inl hcall⟩
          · exact ⟨call, List.mem_cons_self, .inr (hrecorded.decided i hmid hcall)⟩
        · obtain ⟨other, hother, hfound⟩ := hgrown.decided i hi hmid
          exact ⟨other, List.mem_cons_of_mem _ hother, hfound⟩

theorem filter_replaceRow (rows : List Operation) (row : Operation) :
    replaceRow (replaceRow rows row) row = replaceRow rows row := by
  have hnew : [row].filter (fun other => decide (other.sourceDigest ≠ row.sourceDigest)) = [] := by
    simp
  rw [replaceRow, replaceRow, List.filter_append, hnew, List.append_nil, List.filter_filter]
  simp only [Bool.and_self]

/-- Recording the same receipt once more keeps the operations, and resolves nothing that the queue
of the call has not resolved. -/
theorem record_again {journal next again : Journal kind} {call call' : RecordCall}
    (h : journal.record call = .ok next) (hsource : call'.sourceDigest = call.sourceDigest)
    (hreceipt : call'.receipt = call.receipt) (h' : next.record call' = .ok again) :
    again.operations = next.operations ∧ ∃ queue, again.queue = .ok queue ∧
      ∀ i, i ∈ queue.resolvedIds ↔ i ∈ call'.queue.resolvedIds := by
  obtain ⟨prior, rows, hshows⟩ := journal.shows
  obtain ⟨mid, rows₁, hshows₁, hrecorded₁⟩ := record_ok h hshows
  obtain ⟨queue, rows₂, hshows₂, hrecorded₂⟩ := record_ok h' hshows₁
  obtain ⟨id₁, hid₁, hrows₁, -⟩ := hrecorded₁.row
  obtain ⟨id₂, hid₂, hrows₂, -⟩ := hrecorded₂.row
  obtain rfl : id₂ = id₁ := by
    rw [hreceipt, hid₁] at hid₂
    exact (Json.str.inj hid₂).symm
  refine ⟨?_, queue, hshows₂.keeps.queue, ?_⟩
  · rw [hshows₂.keeps.operations, hshows₁.keeps.operations, hrows₂, hsource, hreceipt, hrows₁,
      filter_replaceRow]
  · obtain ⟨completed₁, accepted₁, hcompleted₁, haccepted₁, hmem₁⟩ := hrecorded₁.accepted
    obtain ⟨completed₂, accepted₂, hcompleted₂, haccepted₂, hmem₂⟩ := hrecorded₂.accepted
    rw [hreceipt, hcompleted₁] at hcompleted₂
    obtain rfl := Json.arr.inj hcompleted₂
    obtain rfl := Except.ok.inj (haccepted₁.symm.trans haccepted₂)
    intro i
    rw [hmem₂ i]
    exact ⟨fun hi => hi.elim id (fun ha => hrecorded₂.obligations.2.2 i ((hmem₁ i).mpr (.inr ha))),
      .inl⟩

/-- `record` is monotone: over every run of calls the receipts of other sources stay, the recorded
ones are only extended, resolutions only grow, and what a call resolves beyond its own queue was
decided by an attempted, accepted batch; a call that raises changes nothing. -/
theorem journal_record_monotone (journal : Journal kind) :
    (∀ calls, ∃ prior rows queue rows', Shows journal prior rows ∧
      Shows (calls.foldl Journal.attempt journal) queue rows' ∧
      Grown calls prior rows queue rows') ∧
    (∀ call next, journal.record call = .ok next → ∃ prior rows queue rows',
      Shows journal prior rows ∧ Shows next queue rows' ∧
      Recorded prior rows call queue rows') ∧
    (∀ call next call' again, journal.record call = .ok next →
      call'.sourceDigest = call.sourceDigest → call'.receipt = call.receipt →
      next.record call' = .ok again →
      again.operations = next.operations ∧ ∃ queue, again.queue = .ok queue ∧
        ∀ i, i ∈ queue.resolvedIds ↔ i ∈ call'.queue.resolvedIds) ∧
    (∀ call message, journal.record call = .error message → journal.attempt call = journal) := by
  obtain ⟨prior, rows, hshows⟩ := journal.shows
  refine ⟨?_, ?_, ?_, fun _ _ h => attempt_error h⟩
  · intro calls
    obtain ⟨queue, rows', hshows', hgrown⟩ := attempts_grow calls journal hshows
    exact ⟨prior, rows, queue, rows', hshows, hshows', hgrown⟩
  · intro call next h
    obtain ⟨queue, rows', hshows', hrecorded⟩ := record_ok h hshows
    exact ⟨prior, rows, queue, rows', hshows, hshows', hrecorded⟩
  · intro call next call' again h hsource hreceipt h'
    exact record_again h hsource hreceipt h'

/-- A finding, and the digest of an inventory that has only this finding. -/
def onlyFinding : String := "aaaaaaaaaaaaaaaaaaaaaaaaaaaaaaaaaaaaaaaaaaaaaaaaaaaaaaaaaaaaaaaa"

def onlySnapshot : EvidenceSnapshot :=
  ⟨some "o/r", some 1, some "aaaaaaaaaaaaaaaaaaaaaaaaaaaaaaaaaaaaaaaa",
    some "bbbbbbbbbbbbbbbbbbbbbbbbbbbbbbbbbbbbbbbb"⟩

def openQueue : HeldQueue where
  snapshot := onlySnapshot
  inventoryDigest := onlyFinding
  inventoryIds := [onlyFinding]
  pendingOrder := [onlyFinding]
  resolvedIds := []
  identity_valid := by decide
  retains_once := by decide
  snapshot_valid := by decide

def closedQueue : HeldQueue where
  snapshot := onlySnapshot
  inventoryDigest := onlyFinding
  inventoryIds := [onlyFinding]
  pendingOrder := []
  resolvedIds := [onlyFinding]
  identity_valid := by decide
  retains_once := by decide
  snapshot_valid := by decide

def emptyJournal : Journal .assessment where
  document := .obj (journalKeys.zip [.arr [], openQueue.toQueueFields.toDocument,
    .str queueInterfaceVersion])
  built := by
    refine ⟨openQueue, [], retainedDocument_iff.mpr ⟨by decide, rfl, rfl, ?_⟩⟩
    rw [Json.canonicalSize_plain (by decide)]
    decide

/-- A receipt without decisions, on a queue in which the finding is resolved already. -/
def idleCall : RecordCall where
  queue := closedQueue
  sourceDigest := onlyFinding
  receipt := [("attempted_ids", .arr []), ("completed", .arr []),
    ("operation_id", .str onlyFinding)]
  ordered := ⟨by decide, trivial, trivial, trivial, trivial⟩

/-- The queue of the call is already where its receipt would bring it. -/
theorem idleCall_queue : ∃ q, progressed idleCall.queue [] [] = .ok q ∧
    q.toQueueFields = closedQueue.toQueueFields := by
  have hfields : (progressed idleCall.queue [] []).toOption.map (fun q => q.toQueueFields) =
      some closedQueue.toQueueFields := by
    decide +kernel
  cases h : progressed idleCall.queue [] [] with
  | error message =>
    rw [h] at hfields
    cases hfields
  | ok q =>
    rw [h] at hfields
    exact ⟨q, rfl, Option.some.inj hfields⟩

def idleRow : Operation := ⟨onlyFinding, idleCall.receipt, idleCall.sourceDigest⟩

theorem idle_retained {q : HeldQueue} (hq : q.toQueueFields = closedQueue.toQueueFields) :
    Retained .assessment q [idleRow.toDocument.sortKeys] (.obj (journalKeys.zip
      [.arr [idleRow.toDocument.sortKeys], closedQueue.toQueueFields.toDocument,
        .str queueInterfaceVersion])) := by
  refine ⟨by decide, by decide, ?_, ?_⟩
  · unfold encodeDocument
    rw [hq]
    rfl
  · rw [Json.canonicalSize_plain (by decide)]
    decide

theorem idleCall_accepted : (emptyJournal.record idleCall).isOk = true := by
  have hvalid : isSha256 onlyFinding = true := by decide
  have hid : operationIdOf idleCall.receipt = .ok onlyFinding := by
    decide
  have hsource : isSha256 idleCall.sourceDigest = true := hvalid
  have hrows : emptyJournal.rows = .ok [] := rfl
  have hprevious : receiptOf [] idleCall.sourceDigest onlyFinding = .ok none := rfl
  have hcheck : checkPrevious idleCall.receipt none = .ok () := rfl
  have hprior : emptyJournal.queue = .ok openQueue := queueFromDocument_self openQueue
  have hkeeps : KeepsObligations openQueue idleCall.queue := by decide
  have hprogress : progressOf idleCall.receipt = .ok ([], []) := rfl
  have haccepted : acceptedIn [] = .ok [] := rfl
  obtain ⟨q, hadvanced, hq⟩ := idleCall_queue
  have hretained := idle_retained hq
  have hbuilt := @construct_retained .assessment q [idleRow.toDocument]
    ⟨_, q, [idleRow.toDocument], retainedDocument_iff.mpr hretained⟩ hretained
  unfold Journal.record
  rw [ok_bind hid, ensure_bind hsource, ok_bind hrows, ok_bind hprevious, ok_bind hcheck,
    ok_bind hprior, ensure_bind hkeeps, ok_bind hprogress]
  dsimp only
  rw [ok_bind haccepted, ok_bind hadvanced]
  exact congrArg Except.isOk hbuilt

theorem idleCall_undecided : ¬ Decided idleCall.receipt onlyFinding := by
  intro h
  obtain ⟨completed, attempted, hcompleted, -, -, batch, hbatch, -⟩ := h
  have hempty : get idleCall.receipt "completed" = .arr [] := by decide
  obtain rfl := Json.arr.inj (hcompleted.symm.trans hempty)
  exact absurd hbatch List.not_mem_nil

/-- A resolution of the queue that a call hands over needs no decision in its receipt. -/
theorem call_queue_resolves_undecided :
    ¬ ∀ (journal next : Journal .assessment) (call : RecordCall) (prior queue : HeldQueue),
      journal.record call = .ok next → journal.queue = .ok prior → next.queue = .ok queue →
      ∀ i ∈ queue.resolvedIds, i ∉ prior.resolvedIds → Decided call.receipt i := by
  intro hclaim
  obtain ⟨prior, rows, hshows⟩ := emptyJournal.shows
  obtain ⟨next, hnext⟩ : ∃ next, emptyJournal.record idleCall = .ok next := by
    have hok := idleCall_accepted
    cases hrecord : emptyJournal.record idleCall with
    | ok next => exact ⟨next, rfl⟩
    | error message =>
      rw [hrecord] at hok
      cases hok
  obtain ⟨queue, rows', hshows', hrecorded⟩ := record_ok hnext hshows
  have hprior : openQueue = prior := by
    have hopen : emptyJournal.queue = .ok openQueue := queueFromDocument_self openQueue
    exact Except.ok.inj (hopen.symm.trans hshows.keeps.queue)
  apply idleCall_undecided
  refine hclaim emptyJournal next idleCall prior queue hnext hshows.keeps.queue
    hshows'.keeps.queue onlyFinding (hrecorded.resolved _ List.mem_cons_self) ?_
  rw [← hprior]
  exact List.not_mem_nil

end ReviewSensei.Assessment
