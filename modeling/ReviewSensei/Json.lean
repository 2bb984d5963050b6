import ReviewSensei.Sha256
import Mathlib.Data.List.Sort

/-! JSON values and the texts `json.dumps` writes for them with the separators `(",", ":")`. -/
namespace ReviewSensei

inductive Json
  | null
  | bool (b : Bool)
  | int (i : Int)
  | str (s : String)
  | arr (items : List Json)
  | obj (fields : List (String × Json))

namespace Json

def hex4 (n : Nat) : List Char :=
  [Nat.digitChar (n / 4096 % 16), Nat.digitChar (n / 256 % 16), Nat.digitChar (n / 16 % 16),
    Nat.digitChar (n % 16)]

def unicodeEscape (n : Nat) : List Char := '\\' :: 'u' :: hex4 n

/-- One character of a string; `ascii` is `ensure_ascii`. -/
def escapeChar (ascii : Bool) (c : Char) : List Char :=
  if c = '"' then ['\\', '"']
  else if c = '\\' then ['\\', '\\']
  else if c = '\n' then ['\\', 'n']
  else if c = '\r' then ['\\', 'r']
  else if c = '\t' then ['\\', 't']
  else if c.toNat = 8 then ['\\', 'b']
  else if c.toNat = 12 then ['\\', 'f']
  else if c.toNat < 0x20 then unicodeEscape c.toNat
  else if !ascii || c.toNat ≤ 0x7e then [c]
  else if c.toNat < 0x10000 then unicodeEscape c.toNat
  else
    -- a surrogate pair
    unicodeEscape (0xd800 + (c.toNat - 0x10000) / 1024) ++
      unicodeEscape (0xdc00 + (c.toNat - 0x10000) % 1024)

def quote (ascii : Bool) (s : String) : List Char :=
  '"' :: (s.toList.flatMap (escapeChar ascii) ++ ['"'])

mutual

def chars (ascii : Bool) : Json → List Char
  | null => ['n', 'u', 'l', 'l']
  | bool true => ['t', 'r', 'u', 'e']
  | bool false => ['f', 'a', 'l', 's', 'e']
  | int i => (toString i).toList
  | str s => quote ascii s
  | arr items => '[' :: charsOfItems ascii items
  | obj fields => '\x7b' :: charsOfFields ascii fields

def charsOfItems (ascii : Bool) : List Json → List Char
  | [] => [']']
  | [j] => chars ascii j ++ [']']
  | j :: js => chars ascii j ++ ',' :: charsOfItems ascii js

def charsOfFields (ascii : Bool) : List (String × Json) → List Char
  | [] => ['\x7d']
  | [(k, j)] => quote ascii k ++ ':' :: chars ascii j ++ ['\x7d']
  | (k, j) :: fs => quote ascii k ++ ':' :: chars ascii j ++ ',' :: charsOfFields ascii fs

end

mutual

/-- `sort_keys`, at every depth. -/
def sortKeys : Json → Json
  | arr items => arr (sortItems items)
  | obj fields => obj ((sortFields fields).insertionSort (fun a b => a.1 ≤ b.1))
  | null => null
  | bool b => bool b
  | int i => int i
  | str s => str s

def sortItems : List Json → List Json
  | [] => []
  | j :: js => sortKeys j :: sortItems js

def sortFields : List (String × Json) → List (String × Json)
  | [] => []
  | (k, j) :: fs => (k, sortKeys j) :: sortFields fs

end

mutual

def beq : Json → Json → Bool
  | null, null => true
  | bool a, bool b => a == b
  | int a, int b => decide (a = b)
  | str a, str b => decide (a = b)
  | arr as, arr bs => beqItems as bs
  | obj as, obj bs => beqFields as bs
  | _, _ => false

def beqItems : List Json → List Json → Bool
  | [], [] => true
  | a :: as, b :: bs => beq a b && beqItems as bs
  | _, _ => false

def beqFields : List (String × Json) → List (String × Json) → Bool
  | [], [] => true
  | (k, a) :: as, (l, b) :: bs => decide (k = l) && beq a b && beqFields as bs
  | _, _ => false

end

mutual

theorem beq_iff : ∀ a b : Json, beq a b = true ↔ a = b
  | null, b => by cases b <;> simp [beq]
  | bool a, b => by cases b <;> simp [beq]
  | int a, b => by cases b <;> simp [beq]
  | str a, b => by cases b <;> simp [beq]
  | arr as, b => by
    cases b with
    | arr bs => simpa [beq] using beqItems_iff as bs
    | _ => simp [beq]
  | obj as, b => by
    cases b with
    | obj bs => simpa [beq] using beqFields_iff as bs
    | _ => simp [beq]

theorem beqItems_iff : ∀ as bs : List Json, beqItems as bs = true ↔ as = bs
  | [], bs => by cases bs <;> simp [beqItems]
  | a :: as, bs => by
    cases bs with
    | nil => simp [beqItems]
    | cons b bs => simp [beqItems, beq_iff a b, beqItems_iff as bs]

theorem beqFields_iff : ∀ as bs : List (String × Json), beqFields as bs = true ↔ as = bs
  | [], bs => by cases bs <;> simp [beqFields]
  | (k, a) :: as, bs => by
    cases bs with
    | nil => simp [beqFields]
    | cons b bs =>
      obtain ⟨l, b⟩ := b
      simp [beqFields, beq_iff a b, beqFields_iff as bs]

end

instance : DecidableEq Json := fun a b => decidable_of_iff _ (beq_iff a b)

/-- The value of a name among the fields of an object. -/
def field? (fields : List (String × Json)) (name : String) : Option Json :=
  (fields.find? (fun f => f.1 = name)).map (·.2)

/-- `value.get(name)` of an object. -/
def get? : Json → String → Option Json
  | obj fields, name => field? fields name
  | _, _ => none

@[simp] theorem field?_nil (name : String) : field? [] name = none := rfl

@[simp] theorem field?_cons (key : String) (j : Json) (fields : List (String × Json))
    (name : String) :
    field? ((key, j) :: fields) name = if key = name then some j else field? fields name := by
  unfold field?
  rw [List.find?_cons]
  by_cases h : key = name <;> simp [h]

@[simp] theorem field?_append (fields others : List (String × Json)) (name : String) :
    field? (fields ++ others) name = (field? fields name).or (field? others name) := by
  unfold field?
  rw [List.find?_append]
  cases List.find? (fun f => decide (f.1 = name)) fields <;> rfl

/-- A field that is left out where it has no value. -/
def optional (name : String) : Option Json → List (String × Json)
  | none => []
  | some j => [(name, j)]

@[simp] theorem field?_optional (key : String) (value : Option Json) (name : String) :
    field? (optional key value) name = if key = name then value else none := by
  cases value <;> simp [optional]

/-- `json.dumps(value, ensure_ascii=False)`. -/
def compact (j : Json) : String := String.ofList (j.chars false)

/-- `json.dumps(value, sort_keys=True)`. -/
def canonical (j : Json) : String := String.ofList (j.sortKeys.chars true)

end Json
end ReviewSensei
