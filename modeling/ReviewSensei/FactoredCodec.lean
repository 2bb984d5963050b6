import ReviewSensei.FactoredHistory

/-! Encoding a history and decoding it again: the table that encoding leaves, what it charges, and
that decoding charges the same and returns the value. -/
namespace ReviewSensei.Assessment
open Session (bind_ok)

/-- The table with one more string, which is looked up first. -/
def addText (strings : List String) (s : String) : List String :=
  if s ∈ strings then strings else strings ++ [s]

def addTexts (strings ts : List String) : List String := ts.foldl addText strings

theorem addTexts_append (strings ts us : List String) :
    addTexts strings (ts ++ us) = addTexts (addTexts strings ts) us := List.foldl_append

theorem prefix_addText (strings : List String) (s : String) : strings <+: addText strings s := by
  unfold addText
  split
  · exact List.prefix_refl _
  · exact List.prefix_append _ _

theorem prefix_addTexts (strings ts : List String) : strings <+: addTexts strings ts := by
  induction ts generalizing strings with
  | nil => exact List.prefix_refl _
  | cons s ts ih => exact (prefix_addText strings s).trans (ih _)

theorem mem_addTexts {strings ts : List String} {s : String} :
    s ∈ addTexts strings ts ↔ s ∈ strings ∨ s ∈ ts := by
  induction ts generalizing strings with
  | nil => simp [addTexts]
  | cons t ts ih =>
    have hadd : s ∈ addText strings t ↔ s ∈ strings ∨ s = t := by
      unfold addText
      split
      next ht => exact ⟨.inl, fun h => h.elim id (fun hs => hs ▸ ht)⟩
      next => rw [List.mem_append, List.mem_singleton]
    rw [show addTexts strings (t :: ts) = addTexts (addText strings t) ts from rfl, ih, hadd,
      List.mem_cons, or_assoc]

theorem nodup_addTexts {strings : List String} (ts : List String) (h : strings.Nodup) :
    (addTexts strings ts).Nodup := by
  induction ts generalizing strings with
  | nil => exact h
  | cons t ts ih =>
    apply ih
    unfold addText
    split
    next => exact h
    next ht =>
      rw [List.nodup_append]
      refine ⟨h, List.nodup_singleton _, ?_⟩
      intro a ha b hb hab
      exact ht (List.mem_singleton.mp hb ▸ hab ▸ ha)

/-- A reference into a table holds in every longer table. -/
theorem reference_prefix {strings longer : List String} {i : Int} {s : String}
    (h : reference strings i = some s) (hp : strings <+: longer) :
    reference longer i = some s := by
  unfold reference at h ⊢
  split at h
  · cases h
  next hneg =>
    obtain ⟨rest, rfl⟩ := hp
    obtain ⟨hlt, -⟩ := List.getElem?_eq_some_iff.mp h
    rw [if_neg hneg, List.getElem?_append_left hlt, h]

theorem charge_ok {c c' : Charged} {size : Nat} (h : c.charge size = .ok c') :
    c' = ⟨c.total + size, c.rowTotal + size⟩ := by
  unfold Charged.charge at h
  split at h
  · cases h
  · exact (Except.ok.inj h).symm

theorem encoder_charge_ok {t t' : Encoder} {size : Nat} (h : t.charge size = .ok t') :
    t.charged.charge size = .ok t'.charged ∧ t'.strings = t.strings := by
  obtain ⟨c, hc, h⟩ := bind_ok h
  obtain rfl := Except.ok.inj h
  exact ⟨hc, rfl⟩

theorem index_ok {t t' : Encoder} {s : String} {i : Nat} (h : t.index s = .ok (i, t')) :
    t'.strings = addText t.strings s ∧ t'.charged = t.charged ∧
      reference t'.strings i = some s ∧
      (t.strings.length ≤ maxFactoredStrings → t'.strings.length ≤ maxFactoredStrings) := by
  unfold Encoder.index at h
  have hpos : ∀ n : Nat, ¬ ((n : Int) < 0) := by omega
  split at h
  next hmem =>
    obtain ⟨rfl, rfl⟩ := Prod.mk.inj (Except.ok.inj h)
    refine ⟨(if_pos hmem).symm, rfl, ?_, id⟩
    rw [reference, if_neg (hpos _), Int.toNat_natCast]
    exact List.getElem?_idxOf hmem
  next hmem =>
    split at h
    · cases h
    next hfull =>
      obtain ⟨rfl, rfl⟩ := Prod.mk.inj (Except.ok.inj h)
      refine ⟨(if_neg hmem).symm, rfl, ?_, ?_⟩
      · rw [reference, if_neg (hpos _), Int.toNat_natCast]
        exact List.getElem?_concat_length
      · intro hle
        have hlt : t.strings.length < maxFactoredStrings := lt_of_le_of_ne hle hfull
        rwa [List.length_append]

theorem size_str_eq (s : String) : (Json.str s).size = (Json.quote true s).length := rfl

def itemSizes (items : List Json) : Nat := (items.map Json.size).sum

def fieldSizes (fields : List (String × Json)) : Nat := (fields.map (fun f => f.2.size)).sum

/-- What a list charges for itself and its items is the length of its canonical text. -/
theorem size_list (items : List Json) :
    (Json.arr items).size = listFrame items + itemSizes items := by
  cases items with
  | nil => rfl
  | cons j js =>
    have hsum : ∀ ks : List Json, (ks.map (fun k => k.size + 1)).sum = itemSizes ks + ks.length := by
      intro ks
      induction ks with
      | nil => rfl
      | cons k ks ih =>
        simp only [itemSizes, List.map_cons, List.sum_cons, List.length_cons] at ih ⊢
        omega
    rw [Json.size_arr, Json.itemsSize_eq, hsum, listFrame, List.length_cons]
    omega

/-- What an object charges for itself and its values is the length of its canonical text. -/
theorem size_dict (fields : List (String × Json)) :
    (Json.obj fields).size = dictFrame fields + fieldSizes fields := by
  cases fields with
  | nil => rfl
  | cons f fs =>
    have hsum : ∀ gs : List (String × Json), (gs.map Json.entrySize).sum =
        (gs.map (fun g => (Json.str g.1).size + 1)).sum + fieldSizes gs + gs.length := by
      intro gs
      induction gs with
      | nil => rfl
      | cons g gs ih =>
        simp only [fieldSizes, List.map_cons, List.sum_cons, List.length_cons, Json.entrySize,
          size_str_eq] at ih ⊢
        omega
    rw [Json.size_obj, Json.fieldsSize_eq, hsum, dictFrame, List.length_cons]
    omega

/-- What encoding at some depth leaves: the strings of the value in the table, its size in the
charges, and a record that decodes to it from any table that goes on from there. -/
structure Written (v e : Json) (depth : Nat) (t t' : Encoder) : Prop where
  strings : t'.strings = addTexts t.strings v.texts
  charged : t'.charged = ⟨t.charged.total + v.size, t.charged.rowTotal + v.size⟩
  room : t.strings.length ≤ maxFactoredStrings → t'.strings.length ≤ maxFactoredStrings
  reads : ∀ strings, t'.strings <+: strings →
    decode strings e depth t.charged = .ok (v, t'.charged)

structure WrittenItems (vs es : List Json) (depth : Nat) (t t' : Encoder) : Prop where
  strings : t'.strings = addTexts t.strings (Json.itemsTexts vs)
  charged : t'.charged = ⟨t.charged.total + itemSizes vs, t.charged.rowTotal + itemSizes vs⟩
  room : t.strings.length ≤ maxFactoredStrings → t'.strings.length ≤ maxFactoredStrings
  length : es.length = vs.length
  reads : ∀ strings, t'.strings <+: strings →
    decodeItems strings es depth t.charged = .ok (vs, t'.charged)

structure WrittenFields (vs es : List (String × Json)) (depth : Nat) (t t' : Encoder) : Prop where
  strings : t'.strings = addTexts t.strings (Json.fieldsTexts vs)
  charged : t'.charged = ⟨t.charged.total + fieldSizes vs, t.charged.rowTotal + fieldSizes vs⟩
  room : t.strings.length ≤ maxFactoredStrings → t'.strings.length ≤ maxFactoredStrings
  keys : es.map Prod.fst = vs.map Prod.fst
  reads : ∀ strings, t'.strings <+: strings →
    decodeFields strings es depth t.charged = .ok (vs, t'.charged)

theorem dictFrame_keys {fs gs : List (String × Json)} (h : fs.map Prod.fst = gs.map Prod.fst) :
    dictFrame fs = dictFrame gs := by
  have hlength : fs.length = gs.length := by
    have hl := congrArg List.length h
    rwa [List.length_map, List.length_map] at hl
  have hmap : ∀ hs : List (String × Json), hs.map (fun f => (Json.str f.1).size + 1) =
      (hs.map Prod.fst).map (fun k => (Json.str k).size + 1) := by
    intro hs
    rw [List.map_map]
    rfl
  rw [dictFrame, dictFrame, hlength, hmap, hmap, h]

mutual

theorem encode_ok : ∀ (v : Json) {e : Json} {depth : Nat} {t t' : Encoder},
    encode v depth t = .ok (e, t') → Written v e depth t t'
  | .null, e, depth, t, t', h => by
    obtain ⟨_, hdepth, h⟩ := bind_ok h
    obtain ⟨t₁, hcharge, h⟩ := bind_ok h
    obtain ⟨rfl, rfl⟩ := Prod.mk.inj (Except.ok.inj h)
    obtain ⟨hc, hs⟩ := encoder_charge_ok hcharge
    refine ⟨hs, charge_ok hc, fun hle => hs ▸ hle, fun strings _ => ?_⟩
    rw [decode, ok_bind hdepth, ok_bind hc]
    rfl
  | .bool b, e, depth, t, t', h => by
    obtain ⟨_, hdepth, h⟩ := bind_ok h
    obtain ⟨t₁, hcharge, h⟩ := bind_ok h
    obtain ⟨rfl, rfl⟩ := Prod.mk.inj (Except.ok.inj h)
    obtain ⟨hc, hs⟩ := encoder_charge_ok hcharge
    refine ⟨hs, charge_ok hc, fun hle => hs ▸ hle, fun strings _ => ?_⟩
    rw [decode, ok_bind hdepth, ok_bind hc]
    rfl
  | .int i, e, depth, t, t', h => by
    obtain ⟨_, hdepth, h⟩ := bind_ok h
    obtain ⟨t₁, hcharge, h⟩ := bind_ok h
    obtain ⟨rfl, rfl⟩ := Prod.mk.inj (Except.ok.inj h)
    obtain ⟨hc, hs⟩ := encoder_charge_ok hcharge
    refine ⟨hs, charge_ok hc, fun hle => hs ▸ hle, fun strings _ => ?_⟩
    rw [decode, ok_bind hdepth, ensure_bind rfl, ok_bind hc]
    rfl
  | .str s, e, depth, t, t', h => by
    obtain ⟨_, hdepth, h⟩ := bind_ok h
    obtain ⟨t₁, hcharge, h⟩ := bind_ok h
    obtain ⟨⟨i, t₂⟩, hindex, h⟩ := bind_ok h
    obtain ⟨rfl, rfl⟩ := Prod.mk.inj (Except.ok.inj h)
    obtain ⟨hc, hs⟩ := encoder_charge_ok hcharge
    obtain ⟨hstrings, hcharged, href, hroom⟩ := index_ok hindex
    refine ⟨?_, hcharged ▸ charge_ok hc, fun hle => hroom (hs ▸ hle), fun strings hp => ?_⟩
    · rw [hstrings, hs]
      rfl
    · rw [decode, ok_bind hdepth, reference_prefix href hp]
      dsimp only
      rw [ok_bind hc, hcharged]
      rfl
  | .arr items, e, depth, t, t', h => by
    obtain ⟨_, hdepth, h⟩ := bind_ok h
    obtain ⟨t₁, hcharge, h⟩ := bind_ok h
    obtain ⟨⟨es, t₂⟩, hitems, h⟩ := bind_ok h
    obtain ⟨rfl, rfl⟩ := Prod.mk.inj (Except.ok.inj h)
    obtain ⟨hc, hs⟩ := encoder_charge_ok hcharge
    have hw := encodeItems_ok items hitems
    refine ⟨by rw [hw.strings, hs]; rfl, ?_, fun hle => hw.room (hs ▸ hle), fun strings hp => ?_⟩
    · rw [hw.charged, charge_ok hc, size_list]
      simp only [Nat.add_assoc]
    · have hframe : listFrame es = listFrame items := by rw [listFrame, listFrame, hw.length]
      rw [decode, ok_bind hdepth, hframe, ok_bind hc, ok_bind (hw.reads strings hp)]
      rfl
  | .obj fields, e, depth, t, t', h => by
    obtain ⟨_, hdepth, h⟩ := bind_ok h
    obtain ⟨t₁, hcharge, h⟩ := bind_ok h
    obtain ⟨⟨es, t₂⟩, hfields, h⟩ := bind_ok h
    obtain ⟨rfl, rfl⟩ := Prod.mk.inj (Except.ok.inj h)
    obtain ⟨hc, hs⟩ := encoder_charge_ok hcharge
    have hw := encodeFields_ok fields hfields
    refine ⟨by rw [hw.strings, hs]; rfl, ?_, fun hle => hw.room (hs ▸ hle), fun strings hp => ?_⟩
    · rw [hw.charged, charge_ok hc, size_dict]
      simp only [Nat.add_assoc]
    · rw [decode, ok_bind hdepth, ensure_bind rfl, dictFrame_keys hw.keys, ok_bind hc,
        ok_bind (hw.reads strings hp)]
      rfl

theorem encodeItems_ok : ∀ (vs : List Json) {es : List Json} {depth : Nat} {t t' : Encoder},
    encodeItems vs depth t = .ok (es, t') → WrittenItems vs es depth t t'
  | [], es, depth, t, t', h => by
    obtain ⟨rfl, rfl⟩ := Prod.mk.inj (Except.ok.inj h)
    exact ⟨rfl, rfl, id, rfl, fun strings _ => rfl⟩
  | v :: vs, es, depth, t, t', h => by
    obtain ⟨⟨e, t₁⟩, hv, h⟩ := bind_ok h
    obtain ⟨⟨rest, t₂⟩, hvs, h⟩ := bind_ok h
    obtain ⟨rfl, rfl⟩ := Prod.mk.inj (Except.ok.inj h)
    have hw := encode_ok v hv
    have hws := encodeItems_ok vs hvs
    refine ⟨?_, ?_, fun hle => hws.room (hw.room hle), ?_, fun strings hp => ?_⟩
    · rw [hws.strings, hw.strings, ← addTexts_append]
      rfl
    · rw [hws.charged, hw.charged]
      simp only [itemSizes, List.map_cons, List.sum_cons, Nat.add_assoc]
    · rw [List.length_cons, List.length_cons, hws.length]
    · have hearlier : t₁.strings <+: strings :=
        (hws.strings ▸ prefix_addTexts _ _ : t₁.strings <+: t₂.strings).trans hp
      rw [decodeItems, ok_bind (hw.reads strings hearlier)]
      dsimp only
      rw [ok_bind (hws.reads strings hp)]
      rfl

theorem encodeFields_ok : ∀ (vs : List (String × Json)) {es : List (String × Json)} {depth : Nat}
    {t t' : Encoder}, encodeFields vs depth t = .ok (es, t') → WrittenFields vs es depth t t'
  | [], es, depth, t, t', h => by
    obtain ⟨rfl, rfl⟩ := Prod.mk.inj (Except.ok.inj h)
    exact ⟨rfl, rfl, id, rfl, fun strings _ => rfl⟩
  | (key, v) :: vs, es, depth, t, t', h => by
    obtain ⟨⟨e, t₁⟩, hv, h⟩ := bind_ok h
    obtain ⟨⟨rest, t₂⟩, hvs, h⟩ := bind_ok h
    obtain ⟨rfl, rfl⟩ := Prod.mk.inj (Except.ok.inj h)
    have hw := encode_ok v hv
    have hws := encodeFields_ok vs hvs
    refine ⟨?_, ?_, fun hle => hws.room (hw.room hle), ?_, fun strings hp => ?_⟩
    · rw [hws.strings, hw.strings, ← addTexts_append]
      rfl
    · rw [hws.charged, hw.charged]
      simp only [fieldSizes, List.map_cons, List.sum_cons, Nat.add_assoc]
    · rw [List.map_cons, List.map_cons, hws.keys]
    · have hearlier : t₁.strings <+: strings :=
        (hws.strings ▸ prefix_addTexts _ _ : t₁.strings <+: t₂.strings).trans hp
      rw [decodeFields, ok_bind (hw.reads strings hearlier)]
      dsimp only
      rw [ok_bind (hws.reads strings hp)]
      rfl

end

/-- The bounds under which a value is encoded from some table on. -/
structure Room (v : Json) (depth : Nat) (t : Encoder) : Prop where
  depth : depth + v.depth ≤ maxFactoredDepth
  total : t.charged.total + v.size ≤ maxReconstructedHistoryBytes
  row : t.charged.rowTotal + v.size ≤ maxOperationReceiptBytes
  table : (addTexts t.strings v.texts).length ≤ maxFactoredStrings

theorem charge_total {t : Encoder} {size : Nat}
    (htotal : t.charged.total + size ≤ maxReconstructedHistoryBytes)
    (hrow : t.charged.rowTotal + size ≤ maxOperationReceiptBytes) :
    t.charge size = .ok ⟨t.strings, ⟨t.charged.total + size, t.charged.rowTotal + size⟩⟩ := by
  have hcharge : t.charged.charge size =
      .ok ⟨t.charged.total + size, t.charged.rowTotal + size⟩ :=
    if_neg (by omega)
  rw [Encoder.charge, ok_bind hcharge]
  rfl

theorem checkDepth_ok {depth : Nat} (h : depth ≤ maxFactoredDepth) : checkDepth depth = .ok () :=
  ensure_ok h

theorem index_total {t : Encoder} {s : String}
    (h : (addText t.strings s).length ≤ maxFactoredStrings) : ∃ r, t.index s = .ok r := by
  unfold Encoder.index
  split
  · exact ⟨_, rfl⟩
  next hmem =>
    rw [addText, if_neg hmem, List.length_append, List.length_singleton] at h
    rw [if_neg (by omega)]
    exact ⟨_, rfl⟩

theorem length_addTexts_left (strings ts us : List String) :
    (addTexts strings ts).length ≤ (addTexts strings (ts ++ us)).length := by
  rw [addTexts_append]
  exact (prefix_addTexts _ _).length_le

mutual

/-- Within the bounds encoding succeeds. -/
theorem encode_total : ∀ (v : Json) (depth : Nat) (t : Encoder), Room v depth t →
    ∃ r, encode v depth t = .ok r
  | .null, depth, t, h => by
    have hdepth := checkDepth_ok (Nat.le_of_add_right_le h.depth)
    rw [encode, ok_bind hdepth, ok_bind (charge_total h.total h.row)]
    exact ⟨_, rfl⟩
  | .bool b, depth, t, h => by
    have hdepth := checkDepth_ok (Nat.le_of_add_right_le h.depth)
    rw [encode, ok_bind hdepth, ok_bind (charge_total h.total h.row)]
    exact ⟨_, rfl⟩
  | .int i, depth, t, h => by
    have hdepth := checkDepth_ok (Nat.le_of_add_right_le h.depth)
    rw [encode, ok_bind hdepth, ok_bind (charge_total h.total h.row)]
    exact ⟨_, rfl⟩
  | .str s, depth, t, h => by
    have hdepth := checkDepth_ok (Nat.le_of_add_right_le h.depth)
    obtain ⟨r, hr⟩ := index_total
      (t := ⟨t.strings, ⟨t.charged.total + (Json.str s).size,
        t.charged.rowTotal + (Json.str s).size⟩⟩) h.table
    rw [encode, ok_bind hdepth, ok_bind (charge_total h.total h.row), ok_bind hr]
    exact ⟨_, rfl⟩
  | .arr items, depth, t, h => by
    obtain ⟨hdepth, htotal, hrow, htable⟩ := h
    rw [size_list] at htotal hrow
    have hcharge : t.charge (listFrame items) = .ok ⟨t.strings,
        ⟨t.charged.total + listFrame items, t.charged.rowTotal + listFrame items⟩⟩ :=
      charge_total (by omega) (by omega)
    obtain ⟨r, hr⟩ := encodeItems_total items (depth + 1)
      ⟨t.strings, ⟨t.charged.total + listFrame items, t.charged.rowTotal + listFrame items⟩⟩
      (by rw [Json.depth] at hdepth; omega)
      (by dsimp only; omega) (by dsimp only; omega) htable
    rw [encode, ok_bind (checkDepth_ok (Nat.le_of_add_right_le hdepth)), ok_bind hcharge,
      ok_bind hr]
    exact ⟨_, rfl⟩
  | .obj fields, depth, t, h => by
    obtain ⟨hdepth, htotal, hrow, htable⟩ := h
    rw [size_dict] at htotal hrow
    have hcharge : t.charge (dictFrame fields) = .ok ⟨t.strings,
        ⟨t.charged.total + dictFrame fields, t.charged.rowTotal + dictFrame fields⟩⟩ :=
      charge_total (by omega) (by omega)
    obtain ⟨r, hr⟩ := encodeFields_total fields (depth + 1)
      ⟨t.strings, ⟨t.charged.total + dictFrame fields, t.charged.rowTotal + dictFrame fields⟩⟩
      (by rw [Json.depth] at hdepth; omega)
      (by dsimp only; omega) (by dsimp only; omega) htable
    rw [encode, ok_bind (checkDepth_ok (Nat.le_of_add_right_le hdepth)), ok_bind hcharge,
      ok_bind hr]
    exact ⟨_, rfl⟩

theorem encodeItems_total : ∀ (vs : List Json) (depth : Nat) (t : Encoder),
    depth + Json.itemsDepth vs ≤ maxFactoredDepth + 1 →
    t.charged.total + itemSizes vs ≤ maxReconstructedHistoryBytes →
    t.charged.rowTotal + itemSizes vs ≤ maxOperationReceiptBytes →
    (addTexts t.strings (Json.itemsTexts vs)).length ≤ maxFactoredStrings →
    ∃ r, encodeItems vs depth t = .ok r
  | [], _, _, _, _, _, _ => ⟨_, rfl⟩
  | v :: vs, depth, t, hdepth, htotal, hrow, htable => by
    rw [Json.itemsDepth] at hdepth
    have hsizes : itemSizes (v :: vs) = v.size + itemSizes vs := by
      rw [itemSizes, List.map_cons, List.sum_cons, itemSizes]
    rw [hsizes] at htotal hrow
    rw [Json.itemsTexts] at htable
    obtain ⟨⟨e, t₁⟩, hv⟩ := encode_total v depth t
      ⟨by omega, by omega, by omega, (length_addTexts_left _ _ _).trans htable⟩
    have hw := encode_ok v hv
    obtain ⟨⟨es, t₂⟩, hvs⟩ := encodeItems_total vs depth t₁ (by omega)
      (by rw [hw.charged]; dsimp only; omega) (by rw [hw.charged]; dsimp only; omega)
      (by rw [hw.strings, ← addTexts_append]; exact htable)
    rw [encodeItems, ok_bind hv]
    dsimp only
    rw [ok_bind hvs]
    exact ⟨_, rfl⟩

theorem encodeFields_total : ∀ (vs : List (String × Json)) (depth : Nat) (t : Encoder),
    depth + Json.fieldsDepth vs ≤ maxFactoredDepth + 1 →
    t.charged.total + fieldSizes vs ≤ maxReconstructedHistoryBytes →
    t.charged.rowTotal + fieldSizes vs ≤ maxOperationReceiptBytes →
    (addTexts t.strings (Json.fieldsTexts vs)).length ≤ maxFactoredStrings →
    ∃ r, encodeFields vs depth t = .ok r
  | [], _, _, _, _, _, _ => ⟨_, rfl⟩
  | (key, v) :: vs, depth, t, hdepth, htotal, hrow, htable => by
    rw [Json.fieldsDepth] at hdepth
    dsimp only at hdepth
    have hsizes : fieldSizes ((key, v) :: vs) = v.size + fieldSizes vs := by
      rw [fieldSizes, List.map_cons, List.sum_cons, fieldSizes]
    rw [hsizes] at htotal hrow
    rw [Json.fieldsTexts] at htable
    obtain ⟨⟨e, t₁⟩, hv⟩ := encode_total v depth t
      ⟨by omega, by omega, by omega, (length_addTexts_left _ _ _).trans htable⟩
    have hw := encode_ok v hv
    obtain ⟨⟨es, t₂⟩, hvs⟩ := encodeFields_total vs depth t₁ (by omega)
      (by rw [hw.charged]; dsimp only; omega) (by rw [hw.charged]; dsimp only; omega)
      (by rw [hw.strings, ← addTexts_append]; exact htable)
    rw [encodeFields, ok_bind hv]
    dsimp only
    rw [ok_bind hvs]
    exact ⟨_, rfl⟩

end

end ReviewSensei.Assessment
