import ReviewSensei.JsonSchema

/-! JSON values as Python dicts and lists hold them: equality up to the order of the keys, values
with their keys in order, and the objects that have exactly the expected keys. -/
namespace ReviewSensei.Json

mutual

/-- The keys stand in order, at every depth. -/
def Ordered : Json → Prop
  | arr items => OrderedItems items
  | obj fields => fields.Pairwise (fun a b => a.1 ≤ b.1) ∧ OrderedFields fields
  | null => True
  | bool _ => True
  | int _ => True
  | str _ => True

def OrderedItems : List Json → Prop
  | [] => True
  | j :: js => Ordered j ∧ OrderedItems js

def OrderedFields : List (String × Json) → Prop
  | [] => True
  | f :: fs => Ordered f.2 ∧ OrderedFields fs

end

theorem orderedItems_iff {js : List Json} : OrderedItems js ↔ ∀ j ∈ js, j.Ordered := by
  induction js with
  | nil => exact ⟨fun _ j hj => absurd hj List.not_mem_nil, fun _ => trivial⟩
  | cons j js ih => rw [OrderedItems, ih, List.forall_mem_cons]

theorem orderedFields_iff {fs : List (String × Json)} :
    OrderedFields fs ↔ ∀ f ∈ fs, f.2.Ordered := by
  induction fs with
  | nil => exact ⟨fun _ f hf => absurd hf List.not_mem_nil, fun _ => trivial⟩
  | cons f fs ih => rw [OrderedFields, ih, List.forall_mem_cons]

theorem sortFields_keys (fs : List (String × Json)) :
    (sortFields fs).map Prod.fst = fs.map Prod.fst := by
  induction fs with
  | nil => rfl
  | cons f fs ih =>
    obtain ⟨k, j⟩ := f
    rw [sortFields, List.map_cons, List.map_cons, ih]

theorem sortItems_eq (js : List Json) : sortItems js = js.map sortKeys := by
  induction js with
  | nil => rfl
  | cons j js ih => rw [sortItems, ih, List.map_cons]

theorem insertionSort_keys_sorted (fs : List (String × Json)) :
    (fs.insertionSort (fun a b => a.1 ≤ b.1)).Pairwise (fun a b => a.1 ≤ b.1) := by
  have htotal : Std.Total (fun a b : String × Json => a.1 ≤ b.1) :=
    ⟨fun a b => String.le_total a.1 b.1⟩
  have htrans : IsTrans (String × Json) (fun a b => a.1 ≤ b.1) :=
    ⟨fun _ _ _ hab hbc => String.le_trans hab hbc⟩
  exact List.pairwise_insertionSort _ fs

mutual

theorem sortKeys_ordered : ∀ j : Json, j.sortKeys.Ordered
  | null => trivial
  | bool _ => trivial
  | int _ => trivial
  | str _ => trivial
  | arr items => by
    rw [sortKeys, Ordered]
    exact sortItems_ordered items
  | obj fields => by
    rw [sortKeys, Ordered]
    refine ⟨insertionSort_keys_sorted _, ?_⟩
    rw [orderedFields_iff]
    intro f hf
    exact orderedFields_iff.mp (sortFields_ordered fields) f
      ((List.perm_insertionSort _ _).mem_iff.mp hf)

theorem sortItems_ordered : ∀ js : List Json, OrderedItems (sortItems js)
  | [] => trivial
  | j :: js => ⟨sortKeys_ordered j, sortItems_ordered js⟩

theorem sortFields_ordered : ∀ fs : List (String × Json), OrderedFields (sortFields fs)
  | [] => trivial
  | (_, j) :: fs => ⟨sortKeys_ordered j, sortFields_ordered fs⟩

end

mutual

theorem sortKeys_of_ordered : ∀ j : Json, j.Ordered → j.sortKeys = j
  | null, _ => rfl
  | bool _, _ => rfl
  | int _, _ => rfl
  | str _, _ => rfl
  | arr items, h => by rw [sortKeys, sortItems_of_ordered items h]
  | obj fields, h => by
    rw [sortKeys, sortFields_of_ordered fields h.2, h.1.insertionSort_eq]

theorem sortItems_of_ordered : ∀ js : List Json, OrderedItems js → sortItems js = js
  | [], _ => rfl
  | j :: js, h => by rw [sortItems, sortKeys_of_ordered j h.1, sortItems_of_ordered js h.2]

theorem sortFields_of_ordered : ∀ fs : List (String × Json), OrderedFields fs → sortFields fs = fs
  | [], _ => rfl
  | (k, j) :: fs, h => by
    rw [sortFields, sortKeys_of_ordered j h.1, sortFields_of_ordered fs h.2]

end

@[simp] theorem sortKeys_sortKeys (j : Json) : j.sortKeys.sortKeys = j.sortKeys :=
  sortKeys_of_ordered _ (sortKeys_ordered j)

mutual

/-- `==` on values with their keys in order: a boolean equals the integer that it stands for. -/
def equals : Json → Json → Bool
  | null, null => true
  | bool a, bool b => a == b
  | bool a, int i => decide (i = if a then 1 else 0)
  | int i, bool a => decide (i = if a then 1 else 0)
  | int i, int k => decide (i = k)
  | str a, str b => decide (a = b)
  | arr as, arr bs => equalItems as bs
  | obj as, obj bs => equalFields as bs
  | _, _ => false

def equalItems : List Json → List Json → Bool
  | [], [] => true
  | a :: as, b :: bs => equals a b && equalItems as bs
  | _, _ => false

def equalFields : List (String × Json) → List (String × Json) → Bool
  | [], [] => true
  | (k, a) :: as, (l, b) :: bs => decide (k = l) && equals a b && equalFields as bs
  | _, _ => false

end

mutual

@[simp] theorem equals_self : ∀ j : Json, equals j j = true
  | null => rfl
  | bool b => by simp [equals]
  | int i => by simp [equals]
  | str s => by simp [equals]
  | arr items => by rw [equals]; exact equalItems_self items
  | obj fields => by rw [equals]; exact equalFields_self fields

theorem equalItems_self : ∀ js : List Json, equalItems js js = true
  | [] => rfl
  | j :: js => by simp [equalItems, equals_self j, equalItems_self js]

theorem equalFields_self : ∀ fs : List (String × Json), equalFields fs fs = true
  | [] => rfl
  | (k, j) :: fs => by simp [equalFields, equals_self j, equalFields_self fs]

end

mutual

/-- A value with its booleans as the integers that they equal. -/
def numeric : Json → Json
  | bool b => int (if b then 1 else 0)
  | arr items => arr (numericItems items)
  | obj fields => obj (numericFields fields)
  | null => null
  | int i => int i
  | str s => str s

def numericItems : List Json → List Json
  | [] => []
  | j :: js => numeric j :: numericItems js

def numericFields : List (String × Json) → List (String × Json)
  | [] => []
  | (k, j) :: fs => (k, numeric j) :: numericFields fs

end

mutual

theorem equals_iff : ∀ a b : Json, equals a b = true ↔ a.numeric = b.numeric
  | null, b => by cases b <;> simp [equals, numeric]
  | bool x, b => by
    cases b with
    | bool y => cases x <;> cases y <;> simp [equals, numeric]
    | int i => simp [equals, numeric, eq_comm]
    | _ => simp [equals, numeric]
  | int i, b => by cases b <;> simp [equals, numeric]
  | str s, b => by cases b <;> simp [equals, numeric]
  | arr as, b => by
    cases b with
    | arr bs => simpa [equals, numeric] using equalItems_iff as bs
    | _ => simp [equals, numeric]
  | obj as, b => by
    cases b with
    | obj bs => simpa [equals, numeric] using equalFields_iff as bs
    | _ => simp [equals, numeric]

theorem equalItems_iff : ∀ as bs : List Json,
    equalItems as bs = true ↔ numericItems as = numericItems bs
  | [], bs => by cases bs <;> simp [equalItems, numericItems]
  | a :: as, bs => by
    cases bs with
    | nil => simp [equalItems, numericItems]
    | cons b bs => simp [equalItems, numericItems, equals_iff a b, equalItems_iff as bs]

theorem equalFields_iff : ∀ as bs : List (String × Json),
    equalFields as bs = true ↔ numericFields as = numericFields bs
  | [], bs => by
    cases bs with
    | nil => simp [equalFields]
    | cons b bs => simp [equalFields, numericFields]
  | (k, a) :: as, bs => by
    cases bs with
    | nil => simp [equalFields, numericFields]
    | cons b bs =>
      obtain ⟨l, b⟩ := b
      simp [equalFields, numericFields, equals_iff a b, equalFields_iff as bs, and_assoc]

end

/-- The values of an object with just these keys, which are given in order. -/
def record? (keys : List String) : Json → Option (List Json)
  | obj fields => if fields.map Prod.fst = keys then some (fields.map Prod.snd) else none
  | _ => none

theorem record?_zip {keys : List String} {values : List Json}
    (h : keys.length = values.length) : record? keys (obj (keys.zip values)) = some values := by
  rw [record?, List.map_fst_zip h.le, if_pos rfl, List.map_snd_zip h.ge]

theorem record?_some {keys : List String} {j : Json} {values : List Json}
    (h : record? keys j = some values) :
    j = obj (keys.zip values) ∧ keys.length = values.length := by
  cases j with
  | obj fields =>
    rw [record?] at h
    split at h
    next hkeys =>
      obtain rfl := Option.some.inj h
      subst hkeys
      refine ⟨?_, by rw [List.length_map, List.length_map]⟩
      rw [List.zip_map', List.map_id']
    next => cases h
  | _ => cases h

/-- An object with just these keys is in order when they are and its values are. -/
theorem ordered_zip {keys : List String} {values : List Json} (h : keys.length = values.length)
    (hk : keys.Pairwise (· ≤ ·)) (hv : OrderedItems values) :
    (obj (keys.zip values)).Ordered := by
  refine ⟨?_, orderedFields_iff.mpr ?_⟩
  · rw [← List.map_fst_zip h.le] at hk
    exact List.pairwise_map.mp hk
  · intro f hf
    exact orderedItems_iff.mp hv f.2 (List.of_mem_zip hf).2

mutual

/-- How deep a value nests; a list or an object without members is not nested. -/
def depth : Json → Nat
  | arr items => itemsDepth items
  | obj fields => fieldsDepth fields
  | null => 0
  | bool _ => 0
  | int _ => 0
  | str _ => 0

def itemsDepth : List Json → Nat
  | [] => 0
  | j :: js => max (depth j + 1) (itemsDepth js)

def fieldsDepth : List (String × Json) → Nat
  | [] => 0
  | f :: fs => max (depth f.2 + 1) (fieldsDepth fs)

end

mutual

/-- The strings among the values, from left to right; keys are not among them. -/
def texts : Json → List String
  | str s => [s]
  | arr items => itemsTexts items
  | obj fields => fieldsTexts fields
  | null => []
  | bool _ => []
  | int _ => []

def itemsTexts : List Json → List String
  | [] => []
  | j :: js => texts j ++ itemsTexts js

def fieldsTexts : List (String × Json) → List String
  | [] => []
  | f :: fs => texts f.2 ++ fieldsTexts fs

end

end ReviewSensei.Json
