import ReviewSensei.JsonSchema

/-! Reading the fields of a JSON document one check at a time, and the sizes of what passes. -/
namespace ReviewSensei
open Sha256 (encode)

/-- A check that stops what follows with its message. -/
def ensure (p : Prop) [Decidable p] (message : String) : Except String Unit :=
  if p then .ok () else .error message

theorem ensure_ok {p : Prop} [Decidable p] {message : String} (h : p) :
    ensure p message = .ok () := if_pos h

theorem ensure_inv {p : Prop} [Decidable p] {message : String} {u : Unit}
    (h : ensure p message = .ok u) : p := by
  unfold ensure at h
  split at h
  · assumption
  · cases h

theorem ok_bind {α β : Type} {x : Except String α} {a : α} (h : x = .ok a)
    (f : α → Except String β) : (x >>= f) = f a := by
  rw [h]
  rfl

theorem ensure_bind {β : Type} {p : Prop} [Decidable p] {message : String} (h : p)
    (f : Unit → Except String β) : (ensure p message >>= f) = f () :=
  ok_bind (ensure_ok h) f

namespace Json

/-- An object with exactly these keys. -/
def hasKeys (keys : List String) : Json → Bool
  | obj fields =>
    fields.all (fun f => keys.contains f.1) && keys.all (fun k => (fields.map Prod.fst).contains k)
  | _ => false

def readText (accepts : String → Bool) (message : String) : Option Json → Except String String
  | some (.str s) => if accepts s then .ok s else .error message
  | _ => .error message

def readInteger (lo hi : Int) (message : String) : Option Json → Except String Int
  | some (.int i) => if lo ≤ i ∧ i ≤ hi then .ok i else .error message
  | _ => .error message

theorem readText_ok {accepts : String → Bool} {message s : String} (h : accepts s = true) :
    readText accepts message (some (.str s)) = .ok s := if_pos h

theorem readText_inv {accepts : String → Bool} {message s : String} {j : Option Json}
    (h : readText accepts message j = .ok s) : j = some (.str s) ∧ accepts s = true := by
  unfold readText at h
  split at h
  · split at h
    · cases h
      exact ⟨rfl, by assumption⟩
    · cases h
  · cases h

theorem readInteger_ok {lo hi i : Int} {message : String} (hlo : lo ≤ i) (hhi : i ≤ hi) :
    readInteger lo hi message (some (.int i)) = .ok i := if_pos ⟨hlo, hhi⟩

theorem readInteger_inv {lo hi i : Int} {message : String} {j : Option Json}
    (h : readInteger lo hi message j = .ok i) : j = some (.int i) ∧ lo ≤ i ∧ i ≤ hi := by
  unfold readInteger at h
  split at h
  · split at h
    · cases h
      exact ⟨rfl, by assumption⟩
    · cases h
  · cases h

/-- The keys with their colons, and the commas and braces around the values. -/
def frameSize (keys : List String) : Nat :=
  (keys.map (fun key => (quote true key).length + 2)).sum + 1

def valuesSize (fields : List (String × Json)) : Nat := (fields.map (fun f => f.2.size)).sum

/-- An object is its frame and its values. -/
theorem size_fields {fields : List (String × Json)} (h : fields ≠ []) :
    (obj fields).size = frameSize (fields.map Prod.fst) + valuesSize fields := by
  have hsum : ∀ fs : List (String × Json), (fs.map entrySize).sum =
      ((fs.map Prod.fst).map (fun key => (quote true key).length + 2)).sum + valuesSize fs := by
    intro fs
    induction fs with
    | nil => rfl
    | cons f fs ih =>
      simp only [List.map_cons, List.sum_cons, valuesSize, entrySize] at ih ⊢
      omega
  cases fields with
  | nil => exact absurd rfl h
  | cons f fs =>
    rw [size_obj, fieldsSize_eq, hsum, frameSize]
    omega

@[simp] theorem valuesSize_nil : valuesSize [] = 0 := rfl

@[simp] theorem valuesSize_cons (f : String × Json) (fs : List (String × Json)) :
    valuesSize (f :: fs) = f.2.size + valuesSize fs := by
  simp only [valuesSize, List.map_cons, List.sum_cons]

theorem size_text {s : String} (h : isPlain s = true) : (str s).size = (encode s).length + 2 :=
  quote_plain h

theorem size_nat_le {n k : Nat} (hk : 0 < k) (h : n < 10 ^ k) : (int n).size ≤ k := by
  have hlength := (Nat.length_repr_le_iff hk).mpr h
  exact hlength

/-- An integer that is not negative takes as many characters as it has digits. -/
theorem size_int_le {i : Int} {k : Nat} (hk : 0 < k) (h0 : 0 ≤ i) (h : i < 10 ^ k) :
    (int i).size ≤ k := by
  obtain ⟨n, rfl⟩ := Int.eq_ofNat_of_zero_le h0
  apply size_nat_le hk
  exact_mod_cast h

/-- What `ensure_ascii` makes of a character: a short escape, itself, or one or two `\uXXXX`. -/
theorem escapeChar_cases (c : Char) :
    (∃ d ∈ ['"', '\\', 'n', 'r', 't', 'b', 'f'], escapeChar true c = ['\\', d]) ∨
      ((c.toNat < 0x20 ∨ 0x7e < c.toNat) ∧ escapeChar true c = unicodeEscape c.toNat) ∨
      (c.toNat ≤ 0x7e ∧ escapeChar true c = [c]) ∨
      (0xffff < c.toNat ∧ ∃ high low, escapeChar true c = unicodeEscape high ++ unicodeEscape low) := by
  generalize hescape : escapeChar true c = escape
  unfold escapeChar at hescape
  by_cases h1 : c = '"'
  · rw [if_pos h1] at hescape
    exact .inl ⟨'"', by decide, hescape.symm⟩
  rw [if_neg h1] at hescape
  by_cases h2 : c = '\\'
  · rw [if_pos h2] at hescape
    exact .inl ⟨'\\', by decide, hescape.symm⟩
  rw [if_neg h2] at hescape
  by_cases h3 : c = '\n'
  · rw [if_pos h3] at hescape
    exact .inl ⟨'n', by decide, hescape.symm⟩
  rw [if_neg h3] at hescape
  by_cases h4 : c = '\r'
  · rw [if_pos h4] at hescape
    exact .inl ⟨'r', by decide, hescape.symm⟩
  rw [if_neg h4] at hescape
  by_cases h5 : c = '\t'
  · rw [if_pos h5] at hescape
    exact .inl ⟨'t', by decide, hescape.symm⟩
  rw [if_neg h5] at hescape
  by_cases h6 : c.toNat = 8
  · rw [if_pos h6] at hescape
    exact .inl ⟨'b', by decide, hescape.symm⟩
  rw [if_neg h6] at hescape
  by_cases h7 : c.toNat = 12
  · rw [if_pos h7] at hescape
    exact .inl ⟨'f', by decide, hescape.symm⟩
  rw [if_neg h7] at hescape
  by_cases h8 : c.toNat < 0x20
  · rw [if_pos h8] at hescape
    exact .inr (.inl ⟨.inl h8, hescape.symm⟩)
  rw [if_neg h8] at hescape
  by_cases h9 : c.toNat ≤ 0x7e
  · rw [if_pos (by simp [h9])] at hescape
    exact .inr (.inr (.inl ⟨h9, hescape.symm⟩))
  rw [if_neg (by simp [h9])] at hescape
  by_cases h10 : c.toNat < 0x10000
  · rw [if_pos h10] at hescape
    exact .inr (.inl ⟨.inr (by omega), hescape.symm⟩)
  rw [if_neg h10] at hescape
  exact .inr (.inr (.inr ⟨by omega, _, _, hescape.symm⟩))

/-- The longest an escape gets is three times the character's own bytes, but for controls. -/
theorem escapeChar_length {c : Char} (hlo : 0x20 ≤ c.toNat) (hdel : c.toNat ≠ 0x7f) :
    (escapeChar true c).length ≤ 3 * (String.utf8EncodeChar c).length := by
  have hval : c.toNat = c.val.toNat := rfl
  have hbytes : 1 ≤ (String.utf8EncodeChar c).length ∧
      (0x7f < c.toNat → 2 ≤ (String.utf8EncodeChar c).length) ∧
      (0xffff < c.toNat → 4 ≤ (String.utf8EncodeChar c).length) := by
    unfold String.utf8EncodeChar
    dsimp only
    split
    · simp only [List.length_cons, List.length_nil]
      omega
    · split
      · simp only [List.length_cons, List.length_nil]
        omega
      · split
        · simp only [List.length_cons, List.length_nil]
          omega
        · simp only [List.length_cons, List.length_nil]
          omega
  have hunicode : ∀ n, (unicodeEscape n).length = 6 := fun _ => rfl
  rcases escapeChar_cases c with ⟨d, _, h⟩ | ⟨hwide, h⟩ | ⟨_, h⟩ | ⟨hpair, high, low, h⟩
  · rw [h, List.length_cons, List.length_singleton]
    omega
  · rw [h, hunicode]
    omega
  · rw [h, List.length_singleton]
    omega
  · rw [h, List.length_append, hunicode, hunicode]
    omega

theorem escapeChar_short (c : Char) : (escapeChar true c).length ≤ 12 := by
  have hunicode : ∀ n, (unicodeEscape n).length = 6 := fun _ => rfl
  rcases escapeChar_cases c with ⟨d, _, h⟩ | ⟨_, h⟩ | ⟨_, h⟩ | ⟨_, high, low, h⟩
  · rw [h, List.length_cons, List.length_singleton]
    omega
  · rw [h, hunicode]
    omega
  · rw [h, List.length_singleton]
    omega
  · rw [h, List.length_append, hunicode, hunicode]

theorem encode_length (s : String) :
    (encode s).length = (s.toList.map (fun c => (String.utf8EncodeChar c).length)).sum := by
  have hs := encode_ofList s.toList
  rw [String.ofList_toList] at hs
  rw [hs, List.length_flatMap]
  simp only [List.length_map]

theorem length_le_encode (s : String) : s.length ≤ (encode s).length := by
  have hone : ∀ cs : List Char, cs.length ≤
      (cs.map (fun c => (String.utf8EncodeChar c).length)).sum := by
    intro cs
    induction cs with
    | nil => exact le_rfl
    | cons c cs ih =>
      have hc : 1 ≤ (String.utf8EncodeChar c).length := by
        rw [String.length_utf8EncodeChar]
        exact Char.utf8Size_pos c
      rw [List.length_cons, List.map_cons, List.sum_cons]
      omega
  rw [encode_length]
  exact hone s.toList

theorem size_str_le {s : String} (h : ∀ c ∈ s.toList, 0x20 ≤ c.toNat ∧ c.toNat ≠ 0x7f) :
    (str s).size ≤ 3 * (encode s).length + 2 := by
  have hsum : ∀ cs : List Char, (∀ c ∈ cs, 0x20 ≤ c.toNat ∧ c.toNat ≠ 0x7f) →
      (cs.flatMap (escapeChar true)).length ≤
        3 * (cs.map (fun c => (String.utf8EncodeChar c).length)).sum := by
    intro cs
    induction cs with
    | nil => intro _; simp
    | cons c cs ih =>
      intro hcs
      have hc := hcs c List.mem_cons_self
      have hfirst := escapeChar_length hc.1 hc.2
      have hrest := ih fun d hd => hcs d (List.mem_cons_of_mem _ hd)
      simp only [List.flatMap_cons, List.length_append, List.map_cons, List.sum_cons]
      omega
  have hlength := hsum s.toList h
  have hsize : (str s).size = (s.toList.flatMap (escapeChar true)).length + 2 := by
    simp only [size, chars, quote, List.length_cons, List.length_append, List.length_nil]
  rw [hsize, encode_length]
  omega

/-- A character below 128 is its own byte. -/
theorem encode_ascii {cs : List Char} (h : ∀ c ∈ cs, c.toNat < 128) :
    encode (String.ofList cs) = cs.map Char.toNat := by
  rw [encode_ofList]
  induction cs with
  | nil => rfl
  | cons c cs ih =>
    have hc : c.val.toNat < 128 := h c List.mem_cons_self
    have hbytes : (String.utf8EncodeChar c).map UInt8.toNat = [c.toNat] := by
      unfold String.utf8EncodeChar
      dsimp only
      rw [if_pos (by omega), List.map_singleton, toNat_ofNat_of_lt (by omega)]
      rfl
    rw [List.flatMap_cons, hbytes, ih fun d hd => h d (List.mem_cons_of_mem _ hd)]
    rfl

theorem isPlain_ofList {cs : List Char}
    (h : ∀ c ∈ cs, isPlainByte c.toNat = true ∧ c.toNat < 128) :
    isPlain (String.ofList cs) = true ∧ (encode (String.ofList cs)).length = cs.length := by
  have hencode := encode_ascii fun c hc => (h c hc).2
  rw [isPlain, hencode, List.length_map, List.all_map, List.all_eq_true]
  exact ⟨fun c hc => (h c hc).1, rfl⟩

theorem unicodeEscape_ascii (n : Nat) : ∀ c ∈ unicodeEscape n, c.toNat < 128 := by
  have hdigit : ∀ k < 16, (Nat.digitChar k).toNat < 128 := by decide
  intro c hc
  simp only [unicodeEscape, hex4, List.mem_cons, List.not_mem_nil, or_false] at hc
  rcases hc with rfl | rfl | rfl | rfl | rfl | rfl
  · decide
  · decide
  · exact hdigit _ (Nat.mod_lt _ (by decide))
  · exact hdigit _ (Nat.mod_lt _ (by decide))
  · exact hdigit _ (Nat.mod_lt _ (by decide))
  · exact hdigit _ (Nat.mod_lt _ (by decide))

theorem escapeChar_ascii (c : Char) : ∀ d ∈ escapeChar true c, d.toNat < 128 := by
  have hshort : ∀ d ∈ ['"', '\\', 'n', 'r', 't', 'b', 'f'], d.toNat < 128 :=
    List.all_iff_forall_prop.mp (by decide)
  rcases escapeChar_cases c with ⟨e, he, h⟩ | ⟨_, h⟩ | ⟨hle, h⟩ | ⟨_, high, low, h⟩
  · rw [h]
    intro d hd
    rcases List.mem_pair.mp hd with rfl | rfl
    · decide
    · exact hshort d he
  · rw [h]
    exact unicodeEscape_ascii _
  · rw [h]
    intro d hd
    rw [List.mem_singleton.mp hd]
    omega
  · rw [h]
    intro d hd
    rcases List.mem_append.mp hd with hd | hd
    · exact unicodeEscape_ascii _ d hd
    · exact unicodeEscape_ascii _ d hd

theorem quote_ascii (s : String) : ∀ c ∈ quote true s, c.toNat < 128 := by
  intro c hc
  rcases List.mem_cons.mp hc with rfl | hc
  · decide
  rcases List.mem_append.mp hc with hc | hc
  · obtain ⟨d, _, hd⟩ := List.mem_flatMap.mp hc
    exact escapeChar_ascii d c hd
  · rw [List.mem_singleton] at hc
    subst hc
    decide

theorem digits_ascii (i : Int) : ∀ c ∈ (toString i).toList, c.toNat < 128 := by
  have hnat : ∀ n : Nat, ∀ c ∈ n.repr.toList, c.toNat < 128 := by
    intro n c hc
    rw [Nat.toList_repr] at hc
    have hdigit := Nat.isDigit_of_mem_toDigits (by decide) (by decide) hc
    have hbound := Char.isDigit_iff_toNat.mp hdigit
    have hnine : '9'.toNat = 57 := rfl
    omega
  cases i with
  | ofNat n => exact hnat n
  | negSucc n =>
    intro c hc
    have htext : (toString (Int.negSucc n)).toList = '-' :: (n + 1).repr.toList := by
      simp [Int.toString_eq_repr, Int.repr]
    rw [htext] at hc
    rcases List.mem_cons.mp hc with rfl | hc
    · decide
    · exact hnat _ c hc

mutual

/-- With `ensure_ascii` every character is ASCII. -/
theorem chars_ascii : ∀ j : Json, ∀ c ∈ j.chars true, c.toNat < 128
  | .null => by
    simp only [chars]
    exact List.all_iff_forall_prop.mp (by decide)
  | .bool true => by
    simp only [chars]
    exact List.all_iff_forall_prop.mp (by decide)
  | .bool false => by
    simp only [chars]
    exact List.all_iff_forall_prop.mp (by decide)
  | .int i => digits_ascii i
  | .str s => quote_ascii s
  | .arr js => by
    intro c hc
    rw [chars] at hc
    rcases List.mem_cons.mp hc with rfl | hc
    · decide
    · exact items_ascii js c hc
  | .obj fields => by
    intro c hc
    rw [chars] at hc
    rcases List.mem_cons.mp hc with rfl | hc
    · decide
    · exact fields_ascii fields c hc

theorem items_ascii : ∀ js : List Json, ∀ c ∈ charsOfItems true js, c.toNat < 128
  | [] => by
    simp only [charsOfItems]
    exact List.all_iff_forall_prop.mp (by decide)
  | [j] => by
    intro c hc
    rw [charsOfItems] at hc
    rcases List.mem_append.mp hc with hc | hc
    · exact chars_ascii j c hc
    · rw [List.mem_singleton] at hc
      subst hc
      decide
  | j :: k :: js => by
    intro c hc
    rw [charsOfItems] at hc
    · rcases List.mem_append.mp hc with hc | hc
      · exact chars_ascii j c hc
      rcases List.mem_cons.mp hc with rfl | hc
      · decide
      · exact items_ascii (k :: js) c hc
    · exact nofun

theorem fields_ascii : ∀ fields : List (String × Json),
    ∀ c ∈ charsOfFields true fields, c.toNat < 128
  | [] => by
    simp only [charsOfFields]
    exact List.all_iff_forall_prop.mp (by decide)
  | [(key, j)] => by
    intro c hc
    rw [charsOfFields] at hc
    rcases List.mem_append.mp hc with hc | hc
    · rcases List.mem_append.mp hc with hc | hc
      · exact quote_ascii key c hc
      rcases List.mem_cons.mp hc with rfl | hc
      · decide
      · exact chars_ascii j c hc
    · rw [List.mem_singleton] at hc
      subst hc
      decide
  | (key, j) :: f :: fields => by
    intro c hc
    rw [charsOfFields] at hc
    · rcases List.mem_append.mp hc with hc | hc
      · rcases List.mem_append.mp hc with hc | hc
        · exact quote_ascii key c hc
        rcases List.mem_cons.mp hc with rfl | hc
        · decide
        · exact chars_ascii j c hc
      rcases List.mem_cons.mp hc with rfl | hc
      · decide
      · exact fields_ascii (f :: fields) c hc
    · exact nofun

end

theorem escapeChar_same {c : Char} (h : c.toNat ≤ 0x7e) : escapeChar false c = escapeChar true c := by
  unfold escapeChar
  simp only [Bool.not_false, Bool.true_or, Bool.not_true, Bool.false_or, h, decide_true]

theorem quote_same {s : String} (h : isPlain s = true) : quote false s = quote true s := by
  have hsame : ∀ c ∈ s.toList, escapeChar false c = escapeChar true c := by
    intro c hc
    apply escapeChar_same
    by_contra hhigh
    have hval : c.toNat = c.val.toNat := rfl
    have hbyte : ∀ b ∈ String.utf8EncodeChar c, isPlainByte b.toNat = true := by
      intro b hb
      have hbytes : encode s =
          s.toList.flatMap (fun c => (String.utf8EncodeChar c).map UInt8.toNat) := by
        rw [← encode_ofList, String.ofList_toList]
      apply List.all_eq_true.mp h
      rw [hbytes]
      exact List.mem_flatMap.mpr ⟨c, hc, List.mem_map_of_mem hb⟩
    rcases Nat.lt_or_ge 0x7f c.val.toNat with hwide | hnarrow
    · obtain ⟨n, rest, hfirst, hlo, hhi⟩ := utf8EncodeChar_first hwide
      have hplain := hbyte (UInt8.ofNat n) (hfirst ▸ List.mem_cons_self)
      rw [toNat_ofNat_of_lt hhi] at hplain
      simp only [isPlainByte, Bool.and_eq_true, decide_eq_true_eq] at hplain
      omega
    · have hplain := hbyte (UInt8.ofNat c.val.toNat) (by
        unfold String.utf8EncodeChar
        dsimp only
        rw [if_pos hnarrow]
        exact List.mem_cons_self)
      rw [toNat_ofNat_of_lt (by omega)] at hplain
      simp only [isPlainByte, Bool.and_eq_true, decide_eq_true_eq] at hplain
      omega
  unfold quote
  rw [List.flatMap_congr hsame]

mutual

/-- Where nothing is escaped, both styles write the same. -/
theorem chars_same : ∀ {j : Json}, allPlain j = true → j.chars false = j.chars true
  | .null, _ => rfl
  | .bool b, _ => by cases b <;> rfl
  | .int _, _ => rfl
  | .str _, h => quote_same h
  | .arr js, h => by rw [chars, chars, items_same h]
  | .obj fields, h => by rw [chars, chars, fields_same h]

theorem items_same : ∀ {js : List Json}, allPlainItems js = true →
    charsOfItems false js = charsOfItems true js
  | [], _ => rfl
  | [j], h => by
    rw [allPlainItems, Bool.and_eq_true] at h
    rw [charsOfItems, charsOfItems, chars_same h.1]
  | j :: k :: js, h => by
    rw [allPlainItems, Bool.and_eq_true] at h
    have hunfold : ∀ ascii, charsOfItems ascii (j :: k :: js) =
        chars ascii j ++ ',' :: charsOfItems ascii (k :: js) := fun _ => rfl
    rw [hunfold, hunfold, chars_same h.1, items_same h.2]

theorem fields_same : ∀ {fields : List (String × Json)}, allPlainFields fields = true →
    charsOfFields false fields = charsOfFields true fields
  | [], _ => rfl
  | [(k, j)], h => by
    rw [allPlainFields, Bool.and_eq_true, Bool.and_eq_true] at h
    rw [charsOfFields, charsOfFields, quote_same h.1.1, chars_same h.1.2]
  | (k, j) :: f :: fields, h => by
    rw [allPlainFields, Bool.and_eq_true, Bool.and_eq_true] at h
    have hunfold : ∀ ascii, charsOfFields ascii ((k, j) :: f :: fields) =
        quote ascii k ++ ':' :: chars ascii j ++ ',' :: charsOfFields ascii (f :: fields) :=
      fun _ => rfl
    rw [hunfold, hunfold, quote_same h.1.1, chars_same h.1.2, fields_same h.2]

end

/-- `len(canonical_bytes(value))` counts characters that are one byte each. -/
theorem encode_canonical (j : Json) : (encode j.canonical).length = j.canonicalSize := by
  unfold canonical canonicalSize size
  rw [encode_ascii (chars_ascii j.sortKeys), List.length_map]

end Json

namespace Schema

theorem validate_object {properties : List (String × Schema)} {fields : List (String × Json)}
    (hkeys : fields.all (fun f => (properties.map Prod.fst).contains f.1) = true)
    (hfields : validateFields properties fields = true) :
    (object properties).validate (.obj fields) = true := by
  simp only [validate, hkeys, hfields, Bool.and_self]

theorem validateFields_cons {name : String} {property : Schema}
    {properties : List (String × Schema)} {fields : List (String × Json)} {j : Json}
    (hfield : Json.field? fields name = some j) (hvalid : property.validate j = true)
    (hrest : validateFields properties fields = true) :
    validateFields ((name, property) :: properties) fields = true := by
  simp only [validateFields, hfield, hvalid, hrest, Bool.and_self]

theorem validate_first {first second : Schema} {j : Json} (h : first.validate j = true) :
    (anyOf first second).validate j = true := by
  simp only [validate, h, Bool.true_or]

theorem validate_second {first second : Schema} {j : Json} (h : second.validate j = true) :
    (anyOf first second).validate j = true := by
  simp only [validate, h, Bool.or_true]

theorem validate_array {lo hi : Nat} {items : Schema} {js : List Json}
    (hlo : lo ≤ js.length) (hhi : js.length ≤ hi) (hitems : ∀ j ∈ js, items.validate j = true) :
    (array lo hi items).validate (.arr js) = true := by
  simp only [validate, hlo, hhi, decide_true, Bool.true_and, List.all_eq_true]
  exact hitems

theorem wholeLine_of {accepts : String → Bool} {s : String} (h : accepts s = true) :
    wholeLine accepts s = true := by
  rw [wholeLine, h, Bool.true_or]

end Schema
end ReviewSensei
