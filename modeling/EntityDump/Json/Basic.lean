import EntityDump.Json.Number
/-!
# JSON values

A JSON value with its objects as lists of fields. In a value that was read the fields are in ascending
order of their keys and no key repeats: `Fields.insert` keeps that order, and a later field takes the place
of an earlier one with the same key. Answers of the program are values too, with their fields in the order
in which they are reported.
-/

namespace EntityDump

/-- A JSON value. -/
inductive Json where
  | null
  | bool (b : Bool)
  | number (n : Json.Number)
  | string (s : String)
  | array (items : List Json)
  | object (fields : List (String × Json))

namespace Json

instance : Inhabited Json := ⟨null⟩

/-! ### Fields in order of their keys -/

namespace Fields

variable {α : Type}

/-- Puts a field in its place, instead of one with the same key. -/
def insert (key : String) (value : α) : List (String × α) → List (String × α)
  | [] => [(key, value)]
  | (k, v) :: rest =>
    if key = k then (key, value) :: rest
    else if key < k then (key, value) :: (k, v) :: rest
    else (k, v) :: insert key value rest

/-- The value under a key. -/
def find? (key : String) : List (String × α) → Option α
  | [] => none
  | (k, v) :: rest => if k = key then some v else find? key rest

/-- The fields in order of their keys, the last of several with one key. -/
def ofList (fields : List (String × α)) : List (String × α) :=
  fields.foldl (fun acc field => insert field.1 field.2 acc) []

/-- After inserting, the key has the new value and every other key keeps its own. -/
theorem find?_insert (key k : String) (value : α) (fields : List (String × α)) :
    find? k (insert key value fields) = if key = k then some value else find? k fields := by
  induction fields with
  | nil => simp [insert, find?]
  | cons field rest ih =>
    obtain ⟨k', v⟩ := field
    by_cases h : key = k'
    · by_cases hk : key = k <;> simp_all [insert, find?]
    · by_cases hlt : key < k'
      · by_cases hk : key = k <;> simp_all [insert, find?]
      · by_cases hk : k' = k
        · subst hk; simp [insert, find?, h, hlt]
        · simp [insert, find?, h, hlt, hk, ih]

end Fields

/-- The value of a field of an object; other values have no fields. -/
def field? (key : String) : Json → Option Json
  | object fields => Fields.find? key fields
  | _ => none

/-- The text of a string value. -/
def string? : Json → Option String
  | string s => some s
  | _ => none

/-- The number of a numeric value. -/
def number? : Json → Option Number
  | number n => some n
  | _ => none

/-- The value is null. -/
def isNull : Json → Bool
  | null => true
  | _ => false

/-- A whole number as a value. -/
def ofNat (n : Nat) : Json :=
  number (.int n)

/-- A double as a value; JSON has none for infinities and not-a-number, which become null. -/
def ofFloat (x : Float) : Json :=
  if Numeric.isFinite x then number (.float x) else null

/-! ### Equality

Two values are the same if they have the same shape and the same scalars; numbers of different kinds are
not the same here. -/

mutual

/-- Same shape and same scalars. -/
def same : Json → Json → Bool
  | null, null => true
  | bool a, bool b => a == b
  | number a, number b => a.same b
  | string a, string b => a == b
  | array a, array b => sameItems a b
  | object a, object b => sameFields a b
  | _, _ => false

/-- The same items in the same order. -/
def sameItems : List Json → List Json → Bool
  | [], [] => true
  | a :: as, b :: bs => same a b && sameItems as bs
  | _, _ => false

/-- The same fields in the same order. -/
def sameFields : List (String × Json) → List (String × Json) → Bool
  | [], [] => true
  | (k, a) :: as, (l, b) :: bs => k == l && same a b && sameFields as bs
  | _, _ => false

end

end Json

end EntityDump
