import ReviewSensei.DiffPaths
import Mathlib.Data.List.Basic

/-! Paths as Git writes them, quoted byte by byte where it must, and how they are read back. -/
namespace ReviewSensei.Diff

/-- A byte that Git escapes: a control byte, the quote, the backslash, or one beyond ASCII. -/
def escapedByte (b : UInt8) : Bool := b < 0x20 || b == 0x22 || b == 0x5c || 0x7f ≤ b

/-- The letter of a byte that has a one-letter escape. -/
def escapeLetter (b : UInt8) : Option Char :=
  ['a', 'b', 't', 'n', 'v', 'f', 'r', '"', '\\'].find? (fun c => namedEscape c == some b)

def octalChar (n : Nat) : Char := Char.ofNat ('0'.toNat + n % 8)

/-- One byte of a quoted path. -/
def quoteByte (b : UInt8) : Text :=
  if escapedByte b then
    match escapeLetter b with
    | some c => ['\\', c]
    | none =>
      ['\\', octalChar (b.toNat / 64), octalChar (b.toNat / 8), octalChar b.toNat]
  else [Char.ofNat b.toNat]

def utf8Bytes (t : Text) : List UInt8 := t.flatMap String.utf8EncodeChar

def needsQuoting (t : Text) : Bool := (utf8Bytes t).any escapedByte

def quoted (bytes : List UInt8) : Text := bytes.flatMap quoteByte

/-- The C-style spelling of a path, or the path itself where no byte is escaped. -/
def gitSpelling (t : Text) : Text :=
  if needsQuoting t then '"' :: (quoted (utf8Bytes t) ++ ['"']) else t

/-- The three shapes of a quoted byte, each read back as that byte. -/
def readsBack (b : UInt8) : Text → Bool
  | [c] => c != '\\' && c != '"' && String.utf8EncodeChar c == [b]
  | ['\\', c] => namedEscape c == some b
  | ['\\', x, y, z] => [y, z].all (fun c => c != '\\' && c != '"') && namedEscape x == none &&
    octalByte x y z == some b
  | _ => false

theorem quoteByte_readsBack (b : UInt8) : readsBack b (quoteByte b) = true := by
  have hall : ∀ n < 256, readsBack (UInt8.ofNat n) (quoteByte (UInt8.ofNat n)) = true := by
    decide +kernel
  have hb := hall b.toNat b.toNat_lt
  rwa [UInt8.ofNat_toNat] at hb

/-- A quoted byte by its shape. -/
inductive QuotedByte (b : UInt8) : Text → Prop
  | plain (c : Char) (hslash : c ≠ '\\') (hquote : c ≠ '"')
    (hbyte : String.utf8EncodeChar c = [b]) : QuotedByte b [c]
  | letter (c : Char) (hletter : namedEscape c = some b) : QuotedByte b ['\\', c]
  | octal (x y z : Char) (hnamed : namedEscape x = none) (hbyte : octalByte x y z = some b)
    (hy : y ≠ '\\' ∧ y ≠ '"') (hz : z ≠ '\\' ∧ z ≠ '"') : QuotedByte b ['\\', x, y, z]

theorem quoteByte_shape (b : UInt8) : QuotedByte b (quoteByte b) := by
  have hread := quoteByte_readsBack b
  unfold readsBack at hread
  split at hread
  · next c hc =>
    rw [hc]
    simp only [Bool.and_eq_true, bne_iff_ne, ne_eq, beq_iff_eq] at hread
    exact .plain c hread.1.1 hread.1.2 hread.2
  · next c hc =>
    rw [hc]
    exact .letter c (beq_iff_eq.mp hread)
  · next x y z hc =>
    rw [hc]
    simp only [List.all_cons, List.all_nil, Bool.and_eq_true, bne_iff_ne, ne_eq,
      beq_iff_eq] at hread
    obtain ⟨⟨⟨hy, hz, _⟩, hnamed⟩, hbyte⟩ := hread
    exact .octal x y z hnamed hbyte hy hz
  · cases hread

theorem quotedBytes_byte (b : UInt8) (t : Text) :
    quotedBytes (quoteByte b ++ t) = (quotedBytes t).map (b :: ·) := by
  have hshape := quoteByte_shape b
  generalize quoteByte b = spelled at hshape
  cases hshape with
  | plain c hslash hquote hbyte =>
    rw [List.singleton_append, quotedBytes, hbyte]
    · rfl
    · exact fun _ _ heq => absurd heq hslash
    · exact fun heq => absurd heq hslash
  | letter c hletter =>
    change quotedBytes ('\\' :: c :: t) = _
    rw [quotedBytes.eq_def]
    simp only [hletter]
  | octal x y z hnamed hbyte =>
    change quotedBytes ('\\' :: x :: y :: z :: t) = _
    rw [quotedBytes, hnamed]
    dsimp only
    rw [hbyte]
    cases quotedBytes t <;> rfl

/-- Quoting is undone byte by byte. -/
theorem quotedBytes_quoted (bytes : List UInt8) : quotedBytes (quoted bytes) = some bytes := by
  induction bytes with
  | nil => rfl
  | cons b bytes ih =>
    have hcons : quoted (b :: bytes) = quoteByte b ++ quoted bytes := rfl
    rw [hcons, quotedBytes_byte, ih]
    rfl

theorem quotedTail_byte (b : UInt8) (t : Text) : quotedTail false (quoteByte b ++ t) =
    (quotedTail false t).map (fun p => (quoteByte b ++ p.1, p.2)) := by
  have hshape := quoteByte_shape b
  generalize quoteByte b = spelled at hshape
  have hplain (c : Char) (t : Text) (hslash : c ≠ '\\') (hquote : c ≠ '"') :
      quotedTail false (c :: t) = (quotedTail false t).map (fun p => (c :: p.1, p.2)) := by
    rw [quotedTail, if_neg hquote, decide_eq_false hslash]
  have hescaped (c : Char) (t : Text) : quotedTail false ('\\' :: c :: t) =
      (quotedTail false t).map (fun p => ('\\' :: c :: p.1, p.2)) := by
    rw [quotedTail, if_neg (by decide), decide_eq_true rfl, quotedTail, Option.map_map]
    rfl
  cases hshape with
  | plain c hslash hquote => exact hplain c t hslash hquote
  | letter c => exact hescaped c t
  | octal x y z _ _ hy hz =>
    change quotedTail false ('\\' :: x :: y :: z :: t) = _
    rw [hescaped, hplain y _ hy.1 hy.2, hplain z _ hz.1 hz.2, Option.map_map, Option.map_map]
    rfl

/-- A quoted path ends at its own closing quote. -/
theorem quotedTail_quoted (bytes : List UInt8) (rest : Text) :
    quotedTail false (quoted bytes ++ '"' :: rest) = some (quoted bytes ++ ['"'], rest) := by
  induction bytes with
  | nil => rfl
  | cons b bytes ih =>
    have hcons : quoted (b :: bytes) = quoteByte b ++ quoted bytes := rfl
    rw [hcons, List.append_assoc, quotedTail_byte, ih, Option.map_some, List.append_assoc]

theorem scanQuotedToken_quoted (bytes : List UInt8) (rest : Text) :
    scanQuotedToken ('"' :: (quoted bytes ++ ['"']) ++ rest) =
      .ok ('"' :: (quoted bytes ++ ['"']), rest) := by
  have hassoc : '"' :: (quoted bytes ++ ['"']) ++ rest = '"' :: (quoted bytes ++ '"' :: rest) := by
    simp
  rw [hassoc, scanQuotedToken, quotedTail_quoted]

theorem decodeUtf8_utf8Bytes (t : Text) : decodeUtf8 (utf8Bytes t) = some t := by
  have hbytes : ByteArray.mk (utf8Bytes t).toArray = t.utf8Encode :=
    ByteArray.ext List.data_toByteArray.symm
  have hvalid : t.utf8Encode.IsValidUTF8 := ByteArray.isValidUTF8_utf8Encode
  unfold decodeUtf8
  rw [hbytes, String.fromUTF8?, dif_pos hvalid, Option.map_some]
  have hstring : String.fromUTF8 t.utf8Encode hvalid = String.ofList t := by
    rw [← String.toByteArray_inj, String.toByteArray_ofList]
    rfl
  rw [hstring, String.toList_ofList]

theorem length_utf8Bytes (t : Text) : (utf8Bytes t).length = utf8Size t := by
  induction t with
  | nil => rfl
  | cons c t ih =>
    have hcons : utf8Bytes (c :: t) = String.utf8EncodeChar c ++ utf8Bytes t := rfl
    rw [hcons, List.length_append, ih, String.length_utf8EncodeChar]
    rfl

/-- A character without an escaped byte is printable ASCII, and neither quote nor backslash. -/
theorem char_of_unescaped {c : Char} (h : (String.utf8EncodeChar c).any escapedByte = false) :
    0x20 ≤ c.toNat ∧ c.toNat < 0x7f ∧ c.toNat ≠ 0x22 ∧ c.toNat ≠ 0x5c := by
  have hlead (n : Nat) (hn : 0x7f ≤ n % 256) : escapedByte (UInt8.ofNat n) = true := by
    simp only [escapedByte, Bool.or_eq_true, decide_eq_true_eq]
    right
    rw [UInt8.le_iff_toNat_le, UInt8.toNat_ofNat']
    exact hn
  have hv : c.val.toNat = c.toNat := rfl
  unfold String.utf8EncodeChar at h
  dsimp only at h
  rw [hv] at h
  split at h
  · next hascii =>
    have hall : ∀ n < 0x80, escapedByte (UInt8.ofNat n) = false →
        0x20 ≤ n ∧ n < 0x7f ∧ n ≠ 0x22 ∧ n ≠ 0x5c := by
      decide
    rw [List.any_cons, List.any_nil, Bool.or_false] at h
    exact hall c.toNat (by omega) h
  · split at h
    · rw [List.any_cons, hlead _ (by omega)] at h
      cases h
    · split at h
      · rw [List.any_cons, hlead _ (by omega)] at h
        cases h
      · rw [List.any_cons, hlead _ (by omega)] at h
        cases h

theorem char_of_raw {t : Text} (h : needsQuoting t = false) {c : Char} (hc : c ∈ t) :
    0x20 ≤ c.toNat ∧ c.toNat < 0x7f ∧ c.toNat ≠ 0x22 ∧ c.toNat ≠ 0x5c := by
  apply char_of_unescaped
  rw [needsQuoting, List.any_eq_false] at h
  rw [List.any_eq_false]
  exact fun b hb => h b (List.mem_flatMap.mpr ⟨c, hc, hb⟩)

theorem quote_not_mem_raw {t : Text} (h : needsQuoting t = false) : '"' ∉ t :=
  fun hc => (char_of_raw h hc).2.2.1 rfl

theorem newline_not_mem_raw {t : Text} (h : needsQuoting t = false) : '\n' ∉ t :=
  fun hc => absurd (char_of_raw h hc).1 (by decide)

/-- The only white space of an unquoted path is the blank. -/
theorem space_of_raw {t : Text} (h : needsQuoting t = false) {c : Char} (hc : c ∈ t)
    (hspace : Session.isPythonSpace c = true) : c = ' ' := by
  obtain ⟨hlow, hhigh, -⟩ := char_of_raw h hc
  simp only [Session.isPythonSpace, Bool.or_eq_true, Bool.and_eq_true, decide_eq_true_eq,
    beq_iff_eq] at hspace
  have hnat : c.toNat = ' '.toNat := by
    change c.toNat = 0x20
    omega
  exact Char.toNat_inj.mp hnat

theorem newline_not_mem_quoted (bytes : List UInt8) : '\n' ∉ quoted bytes := by
  have hall : ∀ n < 256, '\n' ∉ quoteByte (UInt8.ofNat n) := by decide +kernel
  intro hmem
  obtain ⟨b, _, hb⟩ := List.mem_flatMap.mp hmem
  have hbyte := hall b.toNat b.toNat_lt
  rw [UInt8.ofNat_toNat] at hbyte
  exact hbyte hb

/-- A spelling is a line, or a part of one. -/
theorem newline_not_mem_spelling (t : Text) : '\n' ∉ gitSpelling t := by
  unfold gitSpelling
  split
  · have hquoted := newline_not_mem_quoted (utf8Bytes t)
    simp [hquoted]
  · next hraw => exact newline_not_mem_raw (Bool.not_eq_true _ ▸ hraw)

theorem utf8Size_append (t t' : Text) : utf8Size (t ++ t') = utf8Size t + utf8Size t' := by
  simp [utf8Size]

/-- Four characters at most for a byte, and the two quotes. -/
theorem utf8Size_spelling_le (t : Text) : utf8Size (gitSpelling t) ≤ 4 * utf8Size t + 2 := by
  have hall : ∀ n < 256, utf8Size (quoteByte (UInt8.ofNat n)) ≤ 4 := by decide +kernel
  have hquoted (bytes : List UInt8) : utf8Size (quoted bytes) ≤ 4 * bytes.length := by
    induction bytes with
    | nil => exact Nat.le_refl _
    | cons b bytes ih =>
      have hbyte := hall b.toNat b.toNat_lt
      rw [UInt8.ofNat_toNat] at hbyte
      have hcons : quoted (b :: bytes) = quoteByte b ++ quoted bytes := rfl
      rw [hcons, utf8Size_append, List.length_cons]
      omega
  unfold gitSpelling
  split
  · have hbytes := hquoted (utf8Bytes t)
    rw [length_utf8Bytes] at hbytes
    have hends : utf8Size ('"' :: (quoted (utf8Bytes t) ++ ['"'])) =
        utf8Size (quoted (utf8Bytes t)) + 2 := by
      simp only [utf8Size, List.map_cons, List.map_append, List.map_nil, List.sum_cons,
        List.sum_append, List.sum_nil]
      have hone : '"'.utf8Size = 1 := by decide
      omega
    omega
  · omega

end ReviewSensei.Diff
