/-
# Keyed entries

Two disciplines for a list of entries with text keys.  Under `put` an entry keeps the place at
which its key first came; under `insert` entries stand in the order of their keys, by code point.
Both keep one entry for a key, the last one written.
-/

namespace BoardBlocks
namespace Keyed

variable {α : Type}

/-- The value stored under a key. -/
def get? (key : String) (entries : List (String × α)) : Option α :=
  (entries.find? fun e => e.1 = key).map (·.2)

/-- The keys, in the order of the entries. -/
def keys (entries : List (String × α)) : List String :=
  entries.map (·.1)

/-- Replaces the value under a key in its place, or adds the entry at the end. -/
def put (key : String) (value : α) : List (String × α) → List (String × α)
  | [] => [(key, value)]
  | e :: es => if e.1 = key then (key, value) :: es else e :: put key value es

/-- Replaces the value under a key, or adds the entry before the first greater key. -/
def insert (key : String) (value : α) : List (String × α) → List (String × α)
  | [] => [(key, value)]
  | e :: es =>
    if key < e.1 then (key, value) :: e :: es
    else if e.1 = key then (key, value) :: es
    else e :: insert key value es

/-- The entries of a list in the order of their keys; of several with one key the last is kept. -/
def ofList (entries : List (String × α)) : List (String × α) :=
  entries.foldl (fun es e => insert e.1 e.2 es) []

@[simp] theorem get?_nil (key : String) : get? key ([] : List (String × α)) = none := rfl

/-- The first entry is found if it has the key, and the search goes on if it has not. -/
theorem get?_cons (key : String) (e : String × α) (es : List (String × α)) :
    get? key (e :: es) = if e.1 = key then some e.2 else get? key es := by
  by_cases h : e.1 = key <;> simp [get?, h]

/-- A value is found under the key it was put under. -/
@[simp] theorem get?_put_self (key : String) (value : α) (es : List (String × α)) :
    get? key (put key value es) = some value := by
  induction es with
  | nil => simp [put, get?_cons]
  | cons e es ih =>
    by_cases h : e.1 = key
    · simp [put, h, get?_cons]
    · simp [put, h, get?_cons, ih]

/-- Putting a value leaves the other keys alone. -/
theorem get?_put_of_ne {key other : String} (h : other ≠ key) (value : α)
    (es : List (String × α)) : get? other (put key value es) = get? other es := by
  induction es with
  | nil => simp [put, get?_cons, Ne.symm h]
  | cons e es ih =>
    by_cases he : e.1 = key
    · simp [put, he, get?_cons, Ne.symm h]
    · simp [put, he, get?_cons, ih]

theorem keys_cons (e : String × α) (es : List (String × α)) : keys (e :: es) = e.1 :: keys es :=
  rfl

/-- A key that is put stays at its place, or comes last if it is new. -/
theorem keys_put (key : String) (value : α) (es : List (String × α)) :
    keys (put key value es) = if key ∈ keys es then keys es else keys es ++ [key] := by
  induction es with
  | nil => rfl
  | cons e es ih =>
    rw [put]
    by_cases he : e.1 = key
    · simp [keys_cons, he]
    · rw [if_neg he, keys_cons, keys_cons, ih]
      by_cases hkey : key ∈ keys es <;> simp [hkey, Ne.symm he]

/-- The value inserted last is the one found. -/
@[simp] theorem get?_insert_self (key : String) (value : α) (es : List (String × α)) :
    get? key (insert key value es) = some value := by
  induction es with
  | nil => simp [insert, get?_cons]
  | cons e es ih =>
    by_cases hlt : key < e.1
    · simp [insert, hlt, get?_cons]
    · by_cases h : e.1 = key
      · simp [insert, h, get?_cons]
      · simp [insert, hlt, h, get?_cons, ih]

/-- Inserting a value leaves the other keys alone. -/
theorem get?_insert_of_ne {key other : String} (h : other ≠ key) (value : α)
    (es : List (String × α)) : get? other (insert key value es) = get? other es := by
  induction es with
  | nil => simp [insert, get?_cons, Ne.symm h]
  | cons e es ih =>
    by_cases hlt : key < e.1
    · simp [insert, hlt, get?_cons, Ne.symm h]
    · by_cases he : e.1 = key
      · simp [insert, he, get?_cons, Ne.symm h]
      · simp [insert, hlt, he, get?_cons, ih]

end Keyed
end BoardBlocks
