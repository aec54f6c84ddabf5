import EntityDump.Json.Raw
import EntityDump.Lookup.Symbol
/-!
# Responses of a knowledge base

A response is an object with an id, whether the type was found, a symbol and an error, all of which may be
missing; or an array of the four in this order. Fields that a response does not know are passed over. A line is
no response if a known field stands in it twice or has a value of the wrong kind, or if what has to be
decoded cannot be.
-/

namespace EntityDump

open Json (Raw)

/-- The most levels of containers in what is decoded of a response. -/
def maxResponseDepth : Nat := 127

/-! ### Values of a kind -/

namespace Json.Raw

/-- A text. -/
def asString? : Raw → Option String
  | .string token => decodeString? token
  | _ => none

/-- A truth value. -/
def asBool? : Raw → Option Bool
  | .bool b => some b
  | _ => none

/-- A whole number of 64 bits without a sign. -/
def asWord? : Raw → Option Nat
  | .number token =>
    match Number.decode? token with
    | some (.int n) => if 0 ≤ n then some n.toNat else none
    | _ => none
  | _ => none

/-- The items of an array. -/
def asArray? : Raw → Option (List Raw)
  | .array items => some items
  | _ => none

/-- The fields of an object with their keys decoded. -/
def asObject? : Raw → Option (List (String × Raw))
  | .object fields => fields.mapM fun (key, value) => (decodeString? key).map fun key => (key, value)
  | _ => none

/-- Null, or a value of a kind. -/
def orNull? {α : Type} (read : Raw → Option α) : Raw → Option (Option α)
  | .null => some none
  | value => (read value).map some

end Json.Raw

/-- The value under a key; nothing at all if the key stands there twice. -/
def once? (key : String) (fields : List (String × Raw)) : Option (Option Raw) :=
  match fields.filter fun field => field.1 == key with
  | [] => some none
  | [field] => some (some field.2)
  | _ => none

/-- A field that may be missing or null. -/
def optional? {α : Type} (read : Raw → Option α) (value : Option Raw) : Option (Option α) :=
  match value with
  | none => some none
  | some value => value.orNull? read

/-- A field that may be missing, when its usual value counts. -/
def withDefault? {α : Type} (usual : α) (read : Raw → Option α) (value : Option Raw) : Option α :=
  match value with
  | none => some usual
  | some value => read value

/-! ### Symbols -/

namespace SymbolMember

/-- A member by its parts. -/
def ofParts? (name : Raw) (typeName kind : Option Raw) : Option SymbolMember := do
  return ⟨← name.asString?, ← optional? Raw.asString? typeName, ← optional? Raw.asString? kind⟩

/-- A member written as an object or as an array of its parts. -/
def ofRaw? : Raw → Option SymbolMember
  | .array [name] => ofParts? name none none
  | .array [name, typeName] => ofParts? name (some typeName) none
  | .array [name, typeName, kind] => ofParts? name (some typeName) (some kind)
  | raw => do
    let fields ← raw.asObject?
    let name ← (← once? "name" fields)
    ofParts? name (← once? "type" fields) (← once? "kind" fields)

end SymbolMember

namespace Symbol

/-- The fields of a symbol that have a place of their own. -/
def knownKeys : List String := ["name", "kind", "namespace", "baseType", "members"]

/-- The levels of containers that a field of a symbol may have, being inside two already. -/
def fieldDepth : Nat := maxResponseDepth - 2

/-- The fields without a place of their own, decoded, in order of their keys. -/
def extraFields? (fields : List (String × Raw)) : Option (List (String × Json)) := do
  let others := fields.filter fun field => !knownKeys.contains field.1
  let decoded ← others.mapM fun (key, value) =>
    (value.decode? fieldDepth).map fun value => (key, value)
  return Json.Fields.ofList decoded

/-- A symbol written as an object. -/
def ofRaw? (raw : Raw) : Option Symbol := do
  let fields ← raw.asObject?
  let name ← (← once? "name" fields)
  let members ← (← once? "members" fields).elim (some []) Raw.asArray?
  return {
    name := ← name.asString?
    kind := ← optional? Raw.asString? (← once? "kind" fields)
    enclosing := ← optional? Raw.asString? (← once? "namespace" fields)
    baseType := ← optional? Raw.asString? (← once? "baseType" fields)
    members := ← members.mapM SymbolMember.ofRaw?
    extra := ← extraFields? fields }

end Symbol

/-! ### Responses -/

/-- A response. -/
structure Response where
  /-- The number of the request that it belongs to; without one it belongs to any. -/
  id : Option Nat := none
  found : Bool := false
  symbol : Option Symbol := none
  /-- The knowledge base could not answer. -/
  error : Option String := none

namespace Response

/-- A response by its parts, each of which may be missing. -/
def ofParts? (id found symbol error : Option Raw) : Option Response := do
  return ⟨← optional? Raw.asWord? id, ← withDefault? false Raw.asBool? found,
    ← optional? Symbol.ofRaw? symbol, ← optional? Raw.asString? error⟩

/-- A response written as an object or as an array of its parts. -/
def ofRaw? : Raw → Option Response
  | .array items =>
    if items.length ≤ 4 then ofParts? items[0]? items[1]? items[2]? items[3]? else none
  | raw => do
    let fields ← raw.asObject?
    ofParts? (← once? "id" fields) (← once? "found" fields) (← once? "symbol" fields)
      (← once? "error" fields)

/-- The response that a line holds, if it holds one. -/
def read? (line : String) : Option Response :=
  (Raw.parse? line).bind ofRaw?

/-- The response belongs to a request. -/
def answers (r : Response) (id : Nat) : Bool :=
  r.id.all (· == id)

/-- The symbol of a response that says found and has one. -/
def symbol? (r : Response) : Option Symbol :=
  if r.found then r.symbol else none

end Response

end EntityDump
