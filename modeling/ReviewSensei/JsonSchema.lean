import ReviewSensei.Json
import ReviewSensei.SessionData
import Mathlib.Algebra.BigOperators.Group.List.Basic
import Mathlib.Data.Bool.AllAny

/-! JSON schemas as the public documents use them, and the length of canonical JSON. -/
namespace ReviewSensei
open Sha256 (encode)

inductive Schema
  | null
  /-- A string, with what its pattern and its bounds ask of it. -/
  | text (accepts : String → Bool)
  /-- `const` and `enum` of strings. -/
  | choice (values : List String)
  | integer (minimum : Int) (maximum : Option Int)
  | array (minItems maxItems : Nat) (items : Schema)
  /-- Every property is required and there are no others. -/
  | object (properties : List (String × Schema))
  | anyOf (first second : Schema)

namespace Schema

/-- `re.search` of a pattern between `^` and `$`: a last line feed may follow the match. -/
def wholeLine (accepts : String → Bool) (s : String) : Bool :=
  accepts s ||
    match s.toList.reverse with
    | '\n' :: rest => accepts (String.ofList rest.reverse)
    | _ => false

mutual

def validate : Schema → Json → Bool
  | .null, .null => true
  | .text accepts, .str s => accepts s
  | .choice values, .str s => values.contains s
  | .integer lo hi, .int i => decide (lo ≤ i) && hi.all (fun h => decide (i ≤ h))
  | .array lo hi items, .arr js =>
    decide (lo ≤ js.length) && decide (js.length ≤ hi) && js.all (fun j => validate items j)
  | .object properties, .obj fields =>
    fields.all (fun f => (properties.map Prod.fst).contains f.1) && validateFields properties fields
  | .anyOf first second, j => validate first j || validate second j
  | _, _ => false

def validateFields : List (String × Schema) → List (String × Json) → Bool
  | [], _ => true
  | (name, property) :: properties, fields =>
    (match Json.field? fields name with
      | some j => validate property j
      | none => false) && validateFields properties fields

end

theorem validate_integer {lo hi i : Int} (h : lo ≤ i ∧ i ≤ hi) :
    (integer lo (some hi)).validate (.int i) = true := by
  simp [validate, h.1, h.2]

theorem validateFields_nil (fields : List (String × Json)) : validateFields [] fields = true := by
  simp only [validateFields]

end Schema

theorem encode_ofList (cs : List Char) : encode (String.ofList cs) =
    cs.flatMap (fun c => (String.utf8EncodeChar c).map UInt8.toNat) := by
  unfold encode
  simp only [String.toUTF8, String.toByteArray_ofList, List.utf8Encode,
    List.toList_data_toByteArray, List.map_flatMap]

namespace Json

/-- The number of characters `json.dumps` writes with `ensure_ascii`; each is one byte. -/
def size (j : Json) : Nat := (j.chars true).length

def itemsSize (js : List Json) : Nat := (charsOfItems true js).length

def fieldsSize (fields : List (String × Json)) : Nat := (charsOfFields true fields).length

/-- `len(canonical_bytes(value))`. -/
def canonicalSize (j : Json) : Nat := j.sortKeys.size

theorem size_arr (js : List Json) : (arr js).size = itemsSize js + 1 := by
  simp [size, itemsSize, chars]

theorem size_obj (fields : List (String × Json)) : (obj fields).size = fieldsSize fields + 1 := by
  simp [size, fieldsSize, chars]

/-- A key with its colon, its value and the comma or the brace after it. -/
def entrySize (f : String × Json) : Nat := (quote true f.1).length + f.2.size + 2

theorem itemsSize_eq (j : Json) (js : List Json) :
    itemsSize (j :: js) = ((j :: js).map (fun k => k.size + 1)).sum := by
  induction js generalizing j with
  | nil => simp [itemsSize, charsOfItems, size]
  | cons k ks ih =>
    have hstep : itemsSize (j :: k :: ks) = j.size + 1 + itemsSize (k :: ks) := by
      simp [itemsSize, charsOfItems, size]
      omega
    rw [hstep, ih]
    simp

theorem fieldsSize_eq (f : String × Json) (fields : List (String × Json)) :
    fieldsSize (f :: fields) = ((f :: fields).map entrySize).sum := by
  induction fields generalizing f with
  | nil =>
    obtain ⟨k, j⟩ := f
    simp [fieldsSize, charsOfFields, entrySize, size]
    omega
  | cons g gs ih =>
    obtain ⟨k, j⟩ := f
    have hstep : fieldsSize ((k, j) :: g :: gs) = entrySize (k, j) + fieldsSize (g :: gs) := by
      simp [fieldsSize, charsOfFields, entrySize, size]
      omega
    rw [hstep, ih]
    simp

/-- The order of the fields does not matter for their length. -/
theorem fieldsSize_perm {fs gs : List (String × Json)} (h : fs.Perm gs) :
    fieldsSize fs = fieldsSize gs := by
  cases fs with
  | nil =>
    rw [List.nil_perm.mp h]
  | cons f fs =>
    cases gs with
    | nil => exact absurd h.length_eq (by simp)
    | cons g gs =>
      rw [fieldsSize_eq, fieldsSize_eq]
      exact (h.map entrySize).sum_eq

theorem itemsSize_nil : itemsSize [] = 1 := rfl

mutual

/-- Sorting the keys keeps the length. -/
theorem size_sortKeys : ∀ j : Json, j.sortKeys.size = j.size
  | .null => rfl
  | .bool _ => rfl
  | .int _ => rfl
  | .str _ => rfl
  | .arr js => by
    rw [sortKeys, size_arr, size_arr, itemsSize_sort js]
  | .obj fields => by
    rw [sortKeys, size_obj, size_obj, fieldsSize_perm (List.perm_insertionSort _ _),
      fieldsSize_sort fields]

theorem itemsSize_sort : ∀ js : List Json, itemsSize (sortItems js) = itemsSize js
  | [] => rfl
  | [j] => by
    have h := size_sortKeys j
    rw [sortItems, sortItems, itemsSize_eq, itemsSize_eq]
    simp [h]
  | j :: k :: ks => by
    have h := size_sortKeys j
    have hrest := itemsSize_sort (k :: ks)
    rw [sortItems, sortItems, itemsSize_eq] at *
    rw [itemsSize_eq] at *
    simp_all

theorem fieldsSize_sort : ∀ fields : List (String × Json),
    fieldsSize (sortFields fields) = fieldsSize fields
  | [] => rfl
  | [(k, j)] => by
    have h := size_sortKeys j
    rw [sortFields, sortFields, fieldsSize_eq, fieldsSize_eq]
    simp [entrySize, h]
  | (k, j) :: f :: fs => by
    have h := size_sortKeys j
    have hrest := fieldsSize_sort (f :: fs)
    obtain ⟨l, i⟩ := f
    rw [sortFields, sortFields, fieldsSize_eq] at *
    rw [fieldsSize_eq] at *
    simp_all [entrySize]

end

theorem canonicalSize_eq (j : Json) : j.canonicalSize = j.size := size_sortKeys j

/-- Printable ASCII that no JSON string has to escape. -/
def isPlainByte (b : Nat) : Bool := 0x20 ≤ b && b ≤ 0x7e && b != 0x22 && b != 0x5c

def isPlain (s : String) : Bool := (encode s).all isPlainByte

mutual

/-- No text of the value needs an escape. -/
def allPlain : Json → Bool
  | .str s => isPlain s
  | .arr js => allPlainItems js
  | .obj fields => allPlainFields fields
  | .null => true
  | .bool _ => true
  | .int _ => true

def allPlainItems : List Json → Bool
  | [] => true
  | j :: js => allPlain j && allPlainItems js

def allPlainFields : List (String × Json) → Bool
  | [] => true
  | (k, j) :: fields => isPlain k && allPlain j && allPlainFields fields

end

mutual

/-- The size of a value without escapes, by the bytes of its texts. -/
def plainSize : Json → Nat
  | .null => 4
  | .bool b => if b then 4 else 5
  | .int i => (toString i).toList.length
  | .str s => (encode s).length + 2
  | .arr js => plainItems js + 1
  | .obj fields => plainFields fields + 1

def plainItems : List Json → Nat
  | [] => 1
  | [j] => plainSize j + 1
  | j :: k :: js => plainSize j + 1 + plainItems (k :: js)

def plainFields : List (String × Json) → Nat
  | [] => 1
  | [(k, j)] => (encode k).length + 2 + plainSize j + 2
  | (k, j) :: f :: fields => (encode k).length + 2 + plainSize j + 2 + plainFields (f :: fields)

end

theorem toNat_ofNat_of_lt {n : Nat} (h : n < 256) : (UInt8.ofNat n).toNat = n := by
  rw [UInt8.toNat_ofNat']
  exact Nat.mod_eq_of_lt h

/-- Beyond ASCII the first byte is above the plain ones. -/
theorem utf8EncodeChar_first {c : Char} (hc : 0x7f < c.val.toNat) :
    ∃ n rest, String.utf8EncodeChar c = UInt8.ofNat n :: rest ∧ 0x80 ≤ n ∧ n < 256 := by
  unfold String.utf8EncodeChar
  dsimp only
  rw [if_neg (by omega)]
  split
  · exact ⟨_, _, rfl, by omega, by omega⟩
  · split
    · exact ⟨_, _, rfl, by omega, by omega⟩
    · exact ⟨_, _, rfl, by omega, by omega⟩

/-- A character whose bytes are plain is one byte long and stands for itself. -/
theorem escapeChar_plain {c : Char}
    (h : ∀ b ∈ (String.utf8EncodeChar c).map UInt8.toNat, isPlainByte b = true) :
    escapeChar true c = [c] ∧ (String.utf8EncodeChar c).length = 1 := by
  rcases Nat.lt_or_ge 0x7f c.val.toNat with hc | hc
  · obtain ⟨n, rest, hbytes, hlo, hhi⟩ := utf8EncodeChar_first hc
    have hplain := h n (by simp [hbytes, toNat_ofNat_of_lt hhi])
    simp only [isPlainByte, Bool.and_eq_true, decide_eq_true_eq] at hplain
    omega
  · have hbytes : String.utf8EncodeChar c = [UInt8.ofNat c.val.toNat] := by
      unfold String.utf8EncodeChar
      dsimp only
      rw [if_pos hc]
    have hbyte : (UInt8.ofNat c.val.toNat).toNat = c.val.toNat := toNat_ofNat_of_lt (by omega)
    have hplain := h c.val.toNat (by simp only [hbytes, List.map_cons, hbyte, List.mem_cons,
      true_or])
    simp only [isPlainByte, Bool.and_eq_true, decide_eq_true_eq, bne_iff_ne, ne_eq] at hplain
    obtain ⟨⟨⟨hlo, hhi⟩, hquote⟩, hslash⟩ := hplain
    have hnat : c.toNat = c.val.toNat := rfl
    have hne {d : Char} {n : Nat} (hd : d.val.toNat = n) (hn : c.val.toNat ≠ n) : c ≠ d :=
      fun heq => hn (heq ▸ hd)
    refine ⟨?_, by rw [hbytes]; rfl⟩
    unfold escapeChar
    rw [if_neg (hne (n := 0x22) rfl hquote), if_neg (hne (n := 0x5c) rfl hslash),
      if_neg (hne (n := 10) rfl (by omega)), if_neg (hne (n := 13) rfl (by omega)),
      if_neg (hne (n := 9) rfl (by omega)), if_neg (by omega), if_neg (by omega),
      if_neg (by omega), if_pos]
    simp only [Bool.not_true, Bool.false_or, decide_eq_true_eq]
    omega

theorem escape_plain {cs : List Char}
    (h : ∀ b ∈ cs.flatMap (fun c => (String.utf8EncodeChar c).map UInt8.toNat),
      isPlainByte b = true) :
    (cs.flatMap (escapeChar true)).length =
      (cs.flatMap (fun c => (String.utf8EncodeChar c).map UInt8.toNat)).length := by
  induction cs with
  | nil => rfl
  | cons c cs ih =>
    rw [List.flatMap_cons] at h
    obtain ⟨hescape, hlength⟩ := escapeChar_plain fun b hb => h b (List.mem_append_left _ hb)
    have hrest := ih fun b hb => h b (List.mem_append_right _ hb)
    simp only [List.flatMap_cons, List.length_append, hescape, List.length_map, hlength, hrest,
      List.length_singleton]

theorem quote_plain {s : String} (h : isPlain s = true) :
    (quote true s).length = (encode s).length + 2 := by
  have hbytes : encode s =
      s.toList.flatMap (fun c => (String.utf8EncodeChar c).map UInt8.toNat) := by
    rw [← encode_ofList, String.ofList_toList]
  have hall : ∀ b ∈ s.toList.flatMap (fun c => (String.utf8EncodeChar c).map UInt8.toNat),
      isPlainByte b = true := by
    rw [← hbytes]
    exact List.all_eq_true.mp h
  have hplain := escape_plain hall
  simp only [quote, List.length_cons, List.length_append, hplain, ← hbytes, List.length_nil]

mutual

theorem size_plain : ∀ {j : Json}, allPlain j = true → j.size = plainSize j
  | .null, _ => rfl
  | .bool b, _ => by cases b <;> rfl
  | .int _, _ => rfl
  | .str _, h => quote_plain h
  | .arr js, h => by
    rw [size_arr, plainSize, itemsSize_plain h]
  | .obj fields, h => by
    rw [size_obj, plainSize, fieldsSize_plain h]

theorem itemsSize_plain : ∀ {js : List Json}, allPlainItems js = true →
    itemsSize js = plainItems js
  | [], _ => rfl
  | [j], h => by
    rw [allPlainItems, Bool.and_eq_true] at h
    have hj := size_plain h.1
    simp [itemsSize_eq, plainItems, hj]
  | j :: k :: js, h => by
    rw [allPlainItems, Bool.and_eq_true] at h
    have hj := size_plain h.1
    have hrest := itemsSize_plain h.2
    rw [itemsSize_eq] at hrest ⊢
    rw [plainItems, List.map_cons, List.sum_cons, hrest, hj]

theorem fieldsSize_plain : ∀ {fields : List (String × Json)}, allPlainFields fields = true →
    fieldsSize fields = plainFields fields
  | [], _ => rfl
  | [(k, j)], h => by
    rw [allPlainFields, Bool.and_eq_true, Bool.and_eq_true] at h
    have hk := quote_plain h.1.1
    have hj := size_plain h.1.2
    simp [fieldsSize_eq, plainFields, entrySize, hk, hj]
  | (k, j) :: f :: fields, h => by
    rw [allPlainFields, Bool.and_eq_true, Bool.and_eq_true] at h
    have hk := quote_plain h.1.1
    have hj := size_plain h.1.2
    have hrest := fieldsSize_plain h.2
    rw [fieldsSize_eq] at hrest ⊢
    rw [plainFields, List.map_cons, List.sum_cons, hrest, entrySize, hk, hj]

end

theorem canonicalSize_plain {j : Json} (h : allPlain j = true) : j.canonicalSize = plainSize j := by
  rw [canonicalSize_eq, size_plain h]

/-- A list of items is at least as long as what it starts with. -/
theorem itemsSize_append_le (js ks : List Json) : itemsSize js ≤ itemsSize (js ++ ks) := by
  cases js with
  | nil =>
    cases ks with
    | nil => exact le_rfl
    | cons k ks =>
      rw [List.nil_append, itemsSize_eq, itemsSize_nil]
      simp
      omega
  | cons j js =>
    rw [List.cons_append, itemsSize_eq, itemsSize_eq, ← List.cons_append, List.map_append,
      List.sum_append]
    exact Nat.le_add_right _ _

end Json

section Digest

/-- The lower-case hexadecimal digits as characters. -/
def hexChars : List Char := (List.range 16).map Nat.digitChar

theorem encode_hex {cs : List Char} (h : ∀ c ∈ cs, c ∈ hexChars) :
    encode (String.ofList cs) = cs.map Char.toNat := by
  have hsingle : ∀ c ∈ hexChars, (String.utf8EncodeChar c).map UInt8.toNat = [c.toNat] :=
    List.all_iff_forall_prop.mp (by decide)
  rw [encode_ofList]
  induction cs with
  | nil => rfl
  | cons c cs ih =>
    rw [List.flatMap_cons, hsingle c (h c List.mem_cons_self),
      ih (fun d hd => h d (List.mem_cons_of_mem _ hd))]
    rfl

theorem isHexText_ofList {lo hi : Nat} {cs : List Char} (h : ∀ c ∈ cs, c ∈ hexChars)
    (hlo : lo ≤ cs.length) (hhi : cs.length ≤ hi) :
    Session.isHexText lo hi (String.ofList cs) = true := by
  have hdigit : ∀ c ∈ hexChars, Session.isHexDigit c.toNat = true := List.all_eq_true.mp (by decide)
  unfold Session.isHexText
  rw [encode_hex h]
  simp only [List.length_map, hlo, hhi, decide_true, Bool.true_and, List.all_eq_true,
    List.mem_map]
  rintro _ ⟨c, hc, rfl⟩
  exact hdigit c (h c hc)

theorem bytesOf_length (n x : Nat) : (Sha256.bytesOf n x).length = n := by
  induction n with
  | zero => rfl
  | succ n ih => simp [Sha256.bytesOf, ih]

theorem bytesOf_lt (n x : Nat) : ∀ b ∈ Sha256.bytesOf n x, b < 256 := by
  induction n with
  | zero => simp [Sha256.bytesOf]
  | succ n ih =>
    intro b hb
    rcases List.mem_cons.mp hb with rfl | hb
    · exact Nat.mod_lt _ (by decide)
    · exact ih b hb

theorem digest_bytes (bytes : List Nat) :
    (Sha256.digest bytes).length = 32 ∧ ∀ b ∈ Sha256.digest bytes, b < 256 := by
  unfold Sha256.digest
  constructor
  · simp [bytesOf_length]
  · intro b hb
    obtain ⟨w, _, hw⟩ := List.mem_flatMap.mp hb
    exact bytesOf_lt _ _ b hw

theorem hexDigits_mem {b : Nat} (hb : b < 256) : ∀ c ∈ Sha256.hexDigits b, c ∈ hexChars := by
  intro c hc
  simp only [Sha256.hexDigits, List.mem_cons, List.not_mem_nil, or_false] at hc
  rcases hc with rfl | rfl
  · exact List.mem_map.mpr ⟨b / 16, List.mem_range.mpr (by omega), rfl⟩
  · exact List.mem_map.mpr ⟨b % 16, List.mem_range.mpr (by omega), rfl⟩

/-- A digest is a text of 64 lower-case hexadecimal digits. -/
theorem sha256_hex (t : String) : ∃ cs : List Char, sha256 t = String.ofList cs ∧
    cs.length = 64 ∧ ∀ c ∈ cs, c ∈ hexChars := by
  obtain ⟨hlength, hbytes⟩ := digest_bytes (encode t)
  refine ⟨_, rfl, ?_, ?_⟩
  · rw [List.length_flatMap]
    simp [Sha256.hexDigits, hlength]
  · intro c hc
    obtain ⟨b, hb, hc⟩ := List.mem_flatMap.mp hc
    exact hexDigits_mem (hbytes b hb) c hc

theorem isSha256_sha256 (t : String) : Session.isSha256 (sha256 t) = true := by
  obtain ⟨cs, h, hlength, hhex⟩ := sha256_hex t
  rw [h]
  exact isHexText_ofList hhex hlength.ge hlength.le

/-- A digest as a JSON string has no escapes. -/
theorem plain_sha256 (t : String) :
    Json.isPlain (sha256 t) = true ∧ (encode (sha256 t)).length = 64 := by
  have hplain : ∀ c ∈ hexChars, Json.isPlainByte c.toNat = true := List.all_eq_true.mp (by decide)
  obtain ⟨cs, h, hlength, hhex⟩ := sha256_hex t
  rw [h, Json.isPlain, encode_hex hhex, List.length_map, List.all_map, List.all_eq_true]
  exact ⟨fun c hc => hplain c (hhex c hc), hlength⟩

theorem size_sha256 (t : String) : (Json.str (sha256 t)).size = 66 := by
  obtain ⟨hplain, hlength⟩ := plain_sha256 t
  have hquote : (Json.str (sha256 t)).size = (encode (sha256 t)).length + 2 :=
    Json.quote_plain hplain
  rw [hquote, hlength]

theorem size_replicate (n : Nat) (c : Char) :
    (Json.str (String.ofList (List.replicate n c))).size =
      n * (Json.escapeChar true c).length + 2 := by
  have hflat : ((List.replicate n c).flatMap (Json.escapeChar true)).length =
      n * (Json.escapeChar true c).length := by
    rw [List.length_flatMap, List.map_replicate, List.sum_replicate_nat]
  change (Json.quote true _).length = _
  simp only [Json.quote, String.toList_ofList, List.length_cons, List.length_append, hflat,
    List.length_nil]

end Digest
end ReviewSensei
