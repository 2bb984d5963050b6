import ReviewSensei.JsonSchema

/-! Base64 as `base64.b64encode` writes it and `base64.b64decode(validate=True)` reads it back. -/
namespace ReviewSensei.Base64

def digit (n : Nat) : Char :=
  if n < 26 then Char.ofNat (0x41 + n)
  else if n < 52 then Char.ofNat (0x61 + (n - 26))
  else if n < 62 then Char.ofNat (0x30 + (n - 52))
  else if n = 62 then '+'
  else '/'

def value (c : Char) : Option Nat :=
  let n := c.toNat
  if 0x41 ≤ n ∧ n ≤ 0x5a then some (n - 0x41)
  else if 0x61 ≤ n ∧ n ≤ 0x7a then some (n - 0x61 + 26)
  else if 0x30 ≤ n ∧ n ≤ 0x39 then some (n - 0x30 + 52)
  else if n = 0x2b then some 62
  else if n = 0x2f then some 63
  else none

def encode : List UInt8 → List Char
  | a :: b :: c :: rest =>
    digit (a.toNat / 4) :: digit (a.toNat % 4 * 16 + b.toNat / 16) ::
      digit (b.toNat % 16 * 4 + c.toNat / 64) :: digit (c.toNat % 64) :: encode rest
  | [a, b] =>
    [digit (a.toNat / 4), digit (a.toNat % 4 * 16 + b.toNat / 16), digit (b.toNat % 16 * 4), '=']
  | [a] => [digit (a.toNat / 4), digit (a.toNat % 4 * 16), '=', '=']
  | [] => []

def byte (n : Nat) : UInt8 := UInt8.ofNat n

def firstByte (u v : Nat) : UInt8 := byte (u * 4 + v / 16)
def secondByte (v w : Nat) : UInt8 := byte (v % 16 * 16 + w / 4)
def thirdByte (w x : Nat) : UInt8 := byte (w % 4 * 64 + x)

/-- Padding stands in the last group only. -/
def decode : List Char → Option (List UInt8)
  | [] => some []
  | [c, d, '=', '='] => do
    let u ← value c
    let v ← value d
    return [firstByte u v]
  | [c, d, e, '='] => do
    let u ← value c
    let v ← value d
    let w ← value e
    return [firstByte u v, secondByte v w]
  | c :: d :: e :: f :: rest => do
    let u ← value c
    let v ← value d
    let w ← value e
    let x ← value f
    let tail ← decode rest
    return firstByte u v :: secondByte v w :: thirdByte w x :: tail
  | _ => none

theorem value_digit {n : Nat} (h : n < 64) : value (digit n) = some n := by
  have hall : ∀ k < 64, value (digit k) = some k := by decide
  exact hall n h

theorem digit_ne_pad {n : Nat} (h : n < 64) : digit n ≠ '=' := by
  intro hpad
  have hvalue := value_digit h
  rw [hpad] at hvalue
  have hnone : value '=' = none := by decide
  rw [hnone] at hvalue
  cases hvalue

theorem digit_plain {n : Nat} (h : n < 64) :
    Json.isPlainByte (digit n).toNat = true ∧ (digit n).toNat < 128 := by
  have hall : ∀ k < 64, Json.isPlainByte (digit k).toNat = true ∧ (digit k).toNat < 128 := by
    decide
  exact hall n h

theorem byte_of_toNat {n : Nat} {b : UInt8} (h : n = b.toNat) : byte n = b := by
  rw [h]
  exact UInt8.ofNat_toNat

theorem first_byte (a : UInt8) {m : Nat} (h : m < 16) :
    firstByte (a.toNat / 4) (a.toNat % 4 * 16 + m) = a := by
  apply byte_of_toNat
  omega

theorem second_byte (p : Nat) (b : UInt8) {m : Nat} (h : m < 4) :
    secondByte (p % 4 * 16 + b.toNat / 16) (b.toNat % 16 * 4 + m) = b := by
  have hb := b.toNat_lt
  apply byte_of_toNat
  omega

theorem third_byte (p : Nat) (c : UInt8) :
    thirdByte (p % 16 * 4 + c.toNat / 64) (c.toNat % 64) = c := by
  have hc := c.toNat_lt
  apply byte_of_toNat
  omega

/-- A group that does not end in padding is read before the rest. -/
theorem decode_group {u v w x : Nat} (hu : u < 64) (hv : v < 64) (hw : w < 64) (hx : x < 64)
    (rest : List Char) :
    decode (digit u :: digit v :: digit w :: digit x :: rest) =
      (decode rest).map (fun tail => firstByte u v :: secondByte v w :: thirdByte w x :: tail) := by
  have hpad := digit_ne_pad hx
  rw [decode]
  · rw [value_digit hu, value_digit hv, value_digit hw, value_digit hx]
    cases decode rest <;> rfl
  · intro _ heq _
    exact hpad heq
  · intro heq _
    exact hpad heq

theorem decode_encode : ∀ bytes : List UInt8, decode (encode bytes) = some bytes
  | [] => rfl
  | [a] => by
    have ha := a.toNat_lt
    have hfirst := first_byte a (m := 0) (by decide)
    rw [encode, decode, value_digit (by omega), value_digit (by omega)]
    exact congrArg (fun b => some [b]) hfirst
  | [a, b] => by
    have ha := a.toNat_lt
    have hb := b.toNat_lt
    have hfirst := first_byte a (m := b.toNat / 16) (by omega)
    have hsecond := second_byte a.toNat b (m := 0) (by decide)
    have hpad : digit (b.toNat % 16 * 4) ≠ '=' := digit_ne_pad (by omega)
    rw [encode, decode, value_digit (by omega), value_digit (by omega), value_digit (by omega)]
    · exact congrArg₂ (fun b c => some [b, c]) hfirst hsecond
    · exact hpad
  | a :: b :: c :: rest => by
    have ha := a.toNat_lt
    have hb := b.toNat_lt
    have hc := c.toNat_lt
    have hfirst := first_byte a (m := b.toNat / 16) (by omega)
    have hsecond := second_byte a.toNat b (m := c.toNat / 64) (by omega)
    have hthird := third_byte b.toNat c
    rw [encode, decode_group (by omega) (by omega) (by omega) (by omega), decode_encode rest,
      hfirst, hsecond, hthird]
    rfl

theorem length_encode : ∀ bytes : List UInt8, (encode bytes).length = (bytes.length + 2) / 3 * 4
  | [] => rfl
  | [_] => by simp [encode]
  | [_, _] => by simp [encode]
  | a :: b :: c :: rest => by
    simp only [encode, List.length_cons, length_encode rest]
    omega

/-- No character of the text needs an escape in JSON. -/
theorem encode_plain : ∀ bytes : List UInt8, ∀ c ∈ encode bytes,
    Json.isPlainByte c.toNat = true ∧ c.toNat < 128
  | [], c, h => absurd h (List.not_mem_nil)
  | [a], c, h => by
    have ha := a.toNat_lt
    simp only [encode, List.mem_cons, List.not_mem_nil, or_false] at h
    rcases h with rfl | rfl | rfl | rfl
    · exact digit_plain (by omega)
    · exact digit_plain (by omega)
    · decide
    · decide
  | [a, b], c, h => by
    have ha := a.toNat_lt
    have hb := b.toNat_lt
    simp only [encode, List.mem_cons, List.not_mem_nil, or_false] at h
    rcases h with rfl | rfl | rfl | rfl
    · exact digit_plain (by omega)
    · exact digit_plain (by omega)
    · exact digit_plain (by omega)
    · decide
  | a :: b :: c :: rest, d, h => by
    have ha := a.toNat_lt
    have hb := b.toNat_lt
    have hc := c.toNat_lt
    simp only [encode, List.mem_cons] at h
    rcases h with rfl | rfl | rfl | rfl | h
    · exact digit_plain (by omega)
    · exact digit_plain (by omega)
    · exact digit_plain (by omega)
    · exact digit_plain (by omega)
    · exact encode_plain rest d h

example : encode [0x4d, 0x61] = ['T', 'W', 'E', '='] := by decide

end ReviewSensei.Base64
