import EntityDump.Json.Event
import Mathlib.Data.List.Induction
import Mathlib.Tactic.Common
/-!
# Documents

A JSON document as it is written: the fields of an object stand in the order of the text, and a key may
stand there more than once. `Document.events` lists a document from its beginning to its end,
`Document.value` is the value that it denotes.
-/

namespace EntityDump.Json

/-- Under each key stands the value of the last field with this key. -/
lemma Fields.find?_ofList {α : Type} (key : String) (fields : List (String × α)) :
    find? key (ofList fields) = (fields.reverse.find? (·.1 = key)).map (·.2) := by
  rw [ofList]
  induction fields using List.reverseRecOn with
  | nil => rfl
  | append_singleton fields field ih =>
    rw [List.foldl_append, List.foldl_cons, List.foldl_nil, find?_insert, ih, List.reverse_concat, List.find?_cons]
    by_cases hkey : field.1 = key <;> simp [hkey]

/-- A value without parts. -/
inductive Scalar where
  | null
  | bool (b : Bool)
  | number (n : Number)
  | string (s : String)

/-- The value that a scalar is. -/
def Scalar.toJson : Scalar → Json
  | null => .null
  | bool b => .bool b
  | number n => .number n
  | string s => .string s

/-- A document as it is written. -/
inductive Document where
  | scalar (s : Scalar)
  | array (items : List Document)
  | object (fields : List (String × Document))

namespace Document

/-- To prove something of every document, prove it of scalars, and of a container from what it holds. -/
@[elab_as_elim]
theorem induction {motive : Document → Prop} (scalar : ∀ s, motive (.scalar s))
    (array : ∀ items, (∀ d ∈ items, motive d) → motive (.array items))
    (object : ∀ fields, (∀ f ∈ fields, motive f.2) → motive (.object fields)) (d : Document) :
    motive d :=
  match d with
  | .scalar s => scalar s
  | .array items => array items fun d _ => induction scalar array object d
  | .object fields => object fields fun f _ => induction scalar array object f.2
termination_by sizeOf d
decreasing_by
  · next h =>
    have := List.sizeOf_lt_of_mem h
    simp only [Document.array.sizeOf_spec]
    omega
  · next h =>
    have := List.sizeOf_lt_of_mem h
    obtain ⟨key, value⟩ := f
    simp only [Prod.mk.sizeOf_spec, Document.object.sizeOf_spec] at this ⊢
    omega

/-! ### Events -/

mutual

/-- The events of a document: where containers begin and end, keys and scalars, in the order of the text. -/
def events : Document → List Event
  | .scalar s => [.scalar s.toJson]
  | .array items => .arrayStart :: (itemEvents items ++ [.arrayEnd])
  | .object fields => .objectStart :: (fieldEvents fields ++ [.objectEnd])

/-- The events of items. -/
def itemEvents : List Document → List Event
  | [] => []
  | item :: items => item.events ++ itemEvents items

/-- The events of fields, each value behind its key. -/
def fieldEvents : List (String × Document) → List Event
  | [] => []
  | (key, value) :: fields => .key key :: (value.events ++ fieldEvents fields)

end

/-! ### Values -/

mutual

/-- The value of a document. Of several fields with one key the last one counts. -/
def value : Document → Json
  | .scalar s => s.toJson
  | .array items => .array (itemValues items)
  | .object fields => .object (Fields.ofList (fieldValues fields))

/-- The values of items. -/
def itemValues : List Document → List Json
  | [] => []
  | item :: items => item.value :: itemValues items

/-- The values of fields, each with its key. -/
def fieldValues : List (String × Document) → List (String × Json)
  | [] => []
  | (key, value) :: fields => (key, value.value) :: fieldValues fields

end

/-- The values of items, item by item. -/
lemma itemValues_eq_map (items : List Document) : itemValues items = items.map value := by
  induction items with
  | nil => rfl
  | cons item items ih => rw [itemValues, ih, List.map_cons]

/-- The values of fields, field by field. -/
lemma fieldValues_eq_map (fields : List (String × Document)) :
    fieldValues fields = fields.map fun field => (field.1, field.2.value) := by
  induction fields with
  | nil => rfl
  | cons field fields ih => rw [fieldValues, ih, List.map_cons]

/-- Under each key the value of an object has the value of the last field with this key. -/
lemma field?_value (fields : List (String × Document)) (key : String) :
    (object fields).value.field? key =
      (fields.reverse.find? (·.1 = key)).map fun field => field.2.value := by
  rw [value, field?, fieldValues_eq_map, Fields.find?_ofList, ← List.map_reverse, List.find?_map, Option.map_map]
  rfl

end Document

end EntityDump.Json
