import ReviewSensei.FactoredCodec

/-! What decodes to a value: its shape is fixed by the value, so that of all documents for one
history only its own encoding is accepted. -/
namespace ReviewSensei.Assessment
open Session (bind_ok)

/-- The records that decode to a value, down to its items. -/
def Decodes (strings : List String) (depth : Nat) (e : Json) : Json → Prop
  | .null => e = .null
  | .bool b => e = .bool b
  | .int i => e = .obj [("integer", .int i)]
  | .str _ => ∃ i, e = .int i
  | .arr vs => ∃ es c c', e = .arr es ∧ decodeItems strings es (depth + 1) c = .ok (vs, c')
  | .obj vs => ∃ es c c', e = .obj [("fields", .obj es)] ∧
      decodeFields strings es (depth + 1) c = .ok (vs, c')

theorem decode_shape {strings : List String} {e v : Json} {depth : Nat} {c c' : Charged}
    (h : decode strings e depth c = .ok (v, c')) : Decodes strings depth e v := by
  unfold decode at h
  split at h
  next =>
    obtain ⟨_, _, h⟩ := bind_ok h
    obtain ⟨_, _, h⟩ := bind_ok h
    obtain ⟨rfl, -⟩ := Prod.mk.inj (Except.ok.inj h)
    rfl
  next b =>
    obtain ⟨_, _, h⟩ := bind_ok h
    obtain ⟨_, _, h⟩ := bind_ok h
    obtain ⟨rfl, -⟩ := Prod.mk.inj (Except.ok.inj h)
    rfl
  next i =>
    obtain ⟨_, _, h⟩ := bind_ok h
    split at h
    · cases h
    · obtain ⟨_, _, h⟩ := bind_ok h
      obtain ⟨rfl, -⟩ := Prod.mk.inj (Except.ok.inj h)
      exact ⟨i, rfl⟩
  next es =>
    obtain ⟨_, _, h⟩ := bind_ok h
    obtain ⟨c₁, _, h⟩ := bind_ok h
    obtain ⟨⟨vs, c₂⟩, hitems, h⟩ := bind_ok h
    obtain ⟨rfl, -⟩ := Prod.mk.inj (Except.ok.inj h)
    exact ⟨es, c₁, c₂, rfl, hitems⟩
  next key i =>
    obtain ⟨_, _, h⟩ := bind_ok h
    obtain ⟨_, hkey, h⟩ := bind_ok h
    obtain ⟨_, _, h⟩ := bind_ok h
    obtain ⟨rfl, -⟩ := Prod.mk.inj (Except.ok.inj h)
    rw [ensure_inv hkey]
    rfl
  next key es =>
    obtain ⟨_, _, h⟩ := bind_ok h
    obtain ⟨_, hkey, h⟩ := bind_ok h
    obtain ⟨c₁, _, h⟩ := bind_ok h
    obtain ⟨⟨vs, c₂⟩, hfields, h⟩ := bind_ok h
    obtain ⟨rfl, -⟩ := Prod.mk.inj (Except.ok.inj h)
    rw [ensure_inv hkey]
    exact ⟨es, c₁, c₂, rfl, hfields⟩
  next =>
    obtain ⟨_, _, h⟩ := bind_ok h
    cases h

theorem decodeItems_nil_inv {strings : List String} {es : List Json} {depth : Nat}
    {c c' : Charged} (h : decodeItems strings es depth c = .ok ([], c')) : es = [] := by
  cases es with
  | nil => rfl
  | cons e es =>
    obtain ⟨_, _, h⟩ := bind_ok h
    obtain ⟨_, _, h⟩ := bind_ok h
    exact absurd (Prod.mk.inj (Except.ok.inj h)).1 (List.cons_ne_nil _ _)

theorem decodeItems_cons_inv {strings : List String} {es vs : List Json} {v : Json} {depth : Nat}
    {c c' : Charged} (h : decodeItems strings es depth c = .ok (v :: vs, c')) :
    ∃ e rest c₁, es = e :: rest ∧ decode strings e depth c = .ok (v, c₁) ∧
      decodeItems strings rest depth c₁ = .ok (vs, c') := by
  cases es with
  | nil => exact absurd (Prod.mk.inj (Except.ok.inj h)).1.symm (List.cons_ne_nil _ _)
  | cons e es =>
    obtain ⟨⟨w, c₁⟩, hv, h⟩ := bind_ok h
    obtain ⟨⟨ws, c₂⟩, hvs, h⟩ := bind_ok h
    obtain ⟨hcons, rfl⟩ := Prod.mk.inj (Except.ok.inj h)
    obtain ⟨rfl, rfl⟩ := List.cons.inj hcons
    exact ⟨e, es, c₁, rfl, hv, hvs⟩

theorem decodeFields_nil_inv {strings : List String} {es : List (String × Json)} {depth : Nat}
    {c c' : Charged} (h : decodeFields strings es depth c = .ok ([], c')) : es = [] := by
  cases es with
  | nil => rfl
  | cons e es =>
    obtain ⟨_, _, h⟩ := bind_ok h
    obtain ⟨_, _, h⟩ := bind_ok h
    exact absurd (Prod.mk.inj (Except.ok.inj h)).1 (List.cons_ne_nil _ _)

theorem decodeFields_cons_inv {strings : List String} {es vs : List (String × Json)}
    {key : String} {v : Json} {depth : Nat} {c c' : Charged}
    (h : decodeFields strings es depth c = .ok ((key, v) :: vs, c')) :
    ∃ e rest c₁, es = (key, e) :: rest ∧ decode strings e depth c = .ok (v, c₁) ∧
      decodeFields strings rest depth c₁ = .ok (vs, c') := by
  cases es with
  | nil => exact absurd (Prod.mk.inj (Except.ok.inj h)).1.symm (List.cons_ne_nil _ _)
  | cons e es =>
    obtain ⟨k, e⟩ := e
    obtain ⟨⟨w, c₁⟩, hv, h⟩ := bind_ok h
    obtain ⟨⟨ws, c₂⟩, hvs, h⟩ := bind_ok h
    obtain ⟨hcons, rfl⟩ := Prod.mk.inj (Except.ok.inj h)
    obtain ⟨hpair, rfl⟩ := List.cons.inj hcons
    obtain ⟨rfl, rfl⟩ := Prod.mk.inj hpair
    exact ⟨e, es, c₁, rfl, hv, hvs⟩

/-- Decoding keeps the keys of an object. -/
theorem decodeFields_keys {strings : List String} {es vs : List (String × Json)} {depth : Nat}
    {c c' : Charged} (h : decodeFields strings es depth c = .ok (vs, c')) :
    es.map Prod.fst = vs.map Prod.fst := by
  induction vs generalizing es c with
  | nil => rw [decodeFields_nil_inv h]
  | cons f vs ih =>
    obtain ⟨e, rest, c₁, rfl, -, hrest⟩ := decodeFields_cons_inv h
    rw [List.map_cons, List.map_cons, ih hrest]

theorem pairwise_keys {fs gs : List (String × Json)} (h : fs.map Prod.fst = gs.map Prod.fst)
    (hp : fs.Pairwise (fun a b => a.1 ≤ b.1)) : gs.Pairwise (fun a b => a.1 ≤ b.1) := by
  have hkeys : (fs.map Prod.fst).Pairwise (· ≤ ·) := List.pairwise_map.mpr hp
  rw [h] at hkeys
  exact List.pairwise_map.mp hkeys

mutual

/-- What decodes from a record with its keys in order has its keys in order. -/
theorem decode_ordered : ∀ (v : Json) {strings : List String} {e : Json} {depth : Nat}
    {c c' : Charged}, decode strings e depth c = .ok (v, c') → e.Ordered → v.Ordered
  | .null, _, _, _, _, _, _, _ => trivial
  | .bool _, _, _, _, _, _, _, _ => trivial
  | .int _, _, _, _, _, _, _, _ => trivial
  | .str _, _, _, _, _, _, _, _ => trivial
  | .arr vs, _, _, _, _, _, h, ho => by
    obtain ⟨es, c₁, c₂, rfl, hitems⟩ := decode_shape h
    exact decodeItems_ordered vs hitems ho
  | .obj vs, _, _, _, _, _, h, ho => by
    obtain ⟨es, c₁, c₂, rfl, hfields⟩ := decode_shape h
    have hinner : (Json.obj es).Ordered := ho.2.1
    exact ⟨pairwise_keys (decodeFields_keys hfields) hinner.1,
      decodeFields_ordered vs hfields hinner.2⟩

theorem decodeItems_ordered : ∀ (vs : List Json) {strings : List String} {es : List Json}
    {depth : Nat} {c c' : Charged}, decodeItems strings es depth c = .ok (vs, c') →
    Json.OrderedItems es → Json.OrderedItems vs
  | [], _, _, _, _, _, _, _ => trivial
  | v :: vs, _, _, _, _, _, h, ho => by
    obtain ⟨e, rest, c₁, rfl, hv, hvs⟩ := decodeItems_cons_inv h
    exact ⟨decode_ordered v hv ho.1, decodeItems_ordered vs hvs ho.2⟩

theorem decodeFields_ordered : ∀ (vs : List (String × Json)) {strings : List String}
    {es : List (String × Json)} {depth : Nat} {c c' : Charged},
    decodeFields strings es depth c = .ok (vs, c') →
    Json.OrderedFields es → Json.OrderedFields vs
  | [], _, _, _, _, _, _, _ => trivial
  | (_, v) :: vs, _, _, _, _, _, h, ho => by
    obtain ⟨e, rest, c₁, rfl, hv, hvs⟩ := decodeFields_cons_inv h
    exact ⟨decode_ordered v hv ho.1, decodeFields_ordered vs hvs ho.2⟩

end

/-- What encoding a value makes of it, down to its items. -/
def Encodes (depth : Nat) (e : Json) : Json → Prop
  | .null => e = .null
  | .bool b => e = .bool b
  | .int i => e = .obj [("integer", .int i)]
  | .str _ => ∃ n : Nat, e = .int n
  | .arr vs => ∃ es t t', e = .arr es ∧ encodeItems vs (depth + 1) t = .ok (es, t')
  | .obj vs => ∃ es t t', e = .obj [("fields", .obj es)] ∧
      encodeFields vs (depth + 1) t = .ok (es, t')

theorem encode_shape {v e : Json} {depth : Nat} {t t' : Encoder}
    (h : encode v depth t = .ok (e, t')) : Encodes depth e v := by
  cases v with
  | arr vs =>
    obtain ⟨_, _, h⟩ := bind_ok h
    obtain ⟨t₁, _, h⟩ := bind_ok h
    obtain ⟨⟨es, t₂⟩, hitems, h⟩ := bind_ok h
    obtain ⟨rfl, -⟩ := Prod.mk.inj (Except.ok.inj h)
    exact ⟨es, t₁, t₂, rfl, hitems⟩
  | obj vs =>
    obtain ⟨_, _, h⟩ := bind_ok h
    obtain ⟨t₁, _, h⟩ := bind_ok h
    obtain ⟨⟨es, t₂⟩, hfields, h⟩ := bind_ok h
    obtain ⟨rfl, -⟩ := Prod.mk.inj (Except.ok.inj h)
    exact ⟨es, t₁, t₂, rfl, hfields⟩
  | str s =>
    obtain ⟨_, _, h⟩ := bind_ok h
    obtain ⟨_, _, h⟩ := bind_ok h
    obtain ⟨⟨i, _⟩, _, h⟩ := bind_ok h
    obtain ⟨rfl, -⟩ := Prod.mk.inj (Except.ok.inj h)
    exact ⟨i, rfl⟩
  | _ =>
    obtain ⟨_, _, h⟩ := bind_ok h
    obtain ⟨_, _, h⟩ := bind_ok h
    obtain ⟨rfl, -⟩ := Prod.mk.inj (Except.ok.inj h)
    rfl

mutual

theorem encode_ordered : ∀ (v : Json) {e : Json} {depth : Nat} {t t' : Encoder},
    encode v depth t = .ok (e, t') → v.Ordered → e.Ordered
  | .null, _, _, _, _, h, _ => by
    obtain rfl := encode_shape h
    trivial
  | .bool _, _, _, _, _, h, _ => by
    obtain rfl := encode_shape h
    trivial
  | .int _, _, _, _, _, h, _ => by
    obtain rfl := encode_shape h
    exact ⟨List.pairwise_singleton _ _, trivial, trivial⟩
  | .str _, _, _, _, _, h, _ => by
    obtain ⟨n, rfl⟩ := encode_shape h
    trivial
  | .arr vs, _, _, _, _, h, ho => by
    obtain ⟨es, t₁, t₂, rfl, hitems⟩ := encode_shape h
    exact encodeItems_ordered vs hitems ho
  | .obj vs, _, _, _, _, h, ho => by
    obtain ⟨es, t₁, t₂, rfl, hfields⟩ := encode_shape h
    have hkeys := (encodeFields_ok vs hfields).keys
    exact ⟨List.pairwise_singleton _ _,
      ⟨pairwise_keys hkeys.symm ho.1, encodeFields_ordered vs hfields ho.2⟩, trivial⟩

theorem encodeItems_ordered : ∀ (vs : List Json) {es : List Json} {depth : Nat} {t t' : Encoder},
    encodeItems vs depth t = .ok (es, t') → Json.OrderedItems vs → Json.OrderedItems es
  | [], _, _, _, _, h, _ => by
    obtain ⟨rfl, -⟩ := Prod.mk.inj (Except.ok.inj h)
    trivial
  | v :: vs, _, _, _, _, h, ho => by
    obtain ⟨⟨e, t₁⟩, hv, h⟩ := bind_ok h
    obtain ⟨⟨rest, t₂⟩, hvs, h⟩ := bind_ok h
    obtain ⟨rfl, -⟩ := Prod.mk.inj (Except.ok.inj h)
    exact ⟨encode_ordered v hv ho.1, encodeItems_ordered vs hvs ho.2⟩

theorem encodeFields_ordered : ∀ (vs : List (String × Json)) {es : List (String × Json)}
    {depth : Nat} {t t' : Encoder},
    encodeFields vs depth t = .ok (es, t') → Json.OrderedFields vs → Json.OrderedFields es
  | [], _, _, _, _, h, _ => by
    obtain ⟨rfl, -⟩ := Prod.mk.inj (Except.ok.inj h)
    trivial
  | (_, v) :: vs, _, _, _, _, h, ho => by
    obtain ⟨⟨e, t₁⟩, hv, h⟩ := bind_ok h
    obtain ⟨⟨rest, t₂⟩, hvs, h⟩ := bind_ok h
    obtain ⟨rfl, -⟩ := Prod.mk.inj (Except.ok.inj h)
    exact ⟨encode_ordered v hv ho.1, encodeFields_ordered vs hvs ho.2⟩

end

mutual

/-- A record that decodes to a value and equals the value's encoding is that encoding: decoding
tells a boolean from the integer that it equals. -/
theorem equals_encoding : ∀ (v : Json) {strings : List String} {e e' : Json} {d depth : Nat}
    {c c' : Charged} {t t' : Encoder}, decode strings e d c = .ok (v, c') →
    encode v depth t = .ok (e', t') → Json.equals e' e = true → e' = e
  | .null, _, _, _, _, _, _, _, _, _, hd, he, _ => by
    obtain rfl := encode_shape he
    exact (decode_shape hd).symm
  | .bool _, _, _, _, _, _, _, _, _, _, hd, he, _ => by
    obtain rfl := encode_shape he
    exact (decode_shape hd).symm
  | .int _, _, _, _, _, _, _, _, _, _, hd, he, _ => by
    obtain rfl := encode_shape he
    exact (decode_shape hd).symm
  | .str _, _, _, _, _, _, _, _, _, _, hd, he, heq => by
    obtain ⟨n, rfl⟩ := encode_shape he
    obtain ⟨i, rfl⟩ := decode_shape hd
    rw [of_decide_eq_true heq]
  | .arr vs, _, _, _, _, _, _, _, _, _, hd, he, heq => by
    obtain ⟨es', t₁, t₂, rfl, hes'⟩ := encode_shape he
    obtain ⟨es, c₁, c₂, rfl, hes⟩ := decode_shape hd
    rw [equalItems_encoding vs hes hes' heq]
  | .obj vs, _, _, _, _, _, _, _, _, _, hd, he, heq => by
    obtain ⟨es', t₁, t₂, rfl, hes'⟩ := encode_shape he
    obtain ⟨es, c₁, c₂, rfl, hes⟩ := decode_shape hd
    simp only [Json.equals, Json.equalFields, Bool.and_eq_true, and_true] at heq
    rw [equalFields_encoding vs hes hes' heq.2]

theorem equalItems_encoding : ∀ (vs : List Json) {strings : List String} {es es' : List Json}
    {d depth : Nat} {c c' : Charged} {t t' : Encoder},
    decodeItems strings es d c = .ok (vs, c') → encodeItems vs depth t = .ok (es', t') →
    Json.equalItems es' es = true → es' = es
  | [], _, _, _, _, _, _, _, _, _, hd, he, _ => by
    obtain ⟨rfl, -⟩ := Prod.mk.inj (Except.ok.inj he)
    exact (decodeItems_nil_inv hd).symm
  | v :: vs, _, _, _, _, _, _, _, _, _, hd, he, heq => by
    obtain ⟨⟨e', t₁⟩, hv, he⟩ := bind_ok he
    obtain ⟨⟨rest', t₂⟩, hvs, he⟩ := bind_ok he
    obtain ⟨rfl, -⟩ := Prod.mk.inj (Except.ok.inj he)
    obtain ⟨e, rest, c₁, rfl, hd, hds⟩ := decodeItems_cons_inv hd
    rw [Json.equalItems, Bool.and_eq_true] at heq
    rw [equals_encoding v hd hv heq.1, equalItems_encoding vs hds hvs heq.2]

theorem equalFields_encoding : ∀ (vs : List (String × Json)) {strings : List String}
    {es es' : List (String × Json)} {d depth : Nat} {c c' : Charged} {t t' : Encoder},
    decodeFields strings es d c = .ok (vs, c') → encodeFields vs depth t = .ok (es', t') →
    Json.equalFields es' es = true → es' = es
  | [], _, _, _, _, _, _, _, _, _, hd, he, _ => by
    obtain ⟨rfl, -⟩ := Prod.mk.inj (Except.ok.inj he)
    exact (decodeFields_nil_inv hd).symm
  | (key, v) :: vs, _, _, _, _, _, _, _, _, _, hd, he, heq => by
    obtain ⟨⟨e', t₁⟩, hv, he⟩ := bind_ok he
    obtain ⟨⟨rest', t₂⟩, hvs, he⟩ := bind_ok he
    obtain ⟨rfl, -⟩ := Prod.mk.inj (Except.ok.inj he)
    obtain ⟨e, rest, c₁, rfl, hd, hds⟩ := decodeFields_cons_inv hd
    rw [Json.equalFields, Bool.and_eq_true, Bool.and_eq_true] at heq
    rw [equals_encoding v hd hv heq.1.2, equalFields_encoding vs hds hvs heq.2]

end

end ReviewSensei.Assessment
