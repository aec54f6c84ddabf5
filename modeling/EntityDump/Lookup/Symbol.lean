import EntityDump.Json.Basic
/-!
# Symbols

What a knowledge base knows of a type: its name, kind, place and members, and whatever else it says.
-/

namespace EntityDump

/-- A member of a type. -/
structure SymbolMember where
  name : String
  /-- The type of the member. -/
  typeName : Option String := none
  kind : Option String := none
  deriving DecidableEq, Repr

/-- What is known of a type. -/
structure Symbol where
  name : String
  kind : Option String := none
  /-- The namespace that the type stands in. -/
  enclosing : Option String := none
  baseType : Option String := none
  members : List SymbolMember := []
  /-- Everything else that was said of the type, in order of the keys. -/
  extra : List (String × Json) := []

/-- What came out for the name of a type. -/
structure LookupOutcome where
  typeName : String
  /-- What is known of the type, if it was found. -/
  symbol : Option Symbol

/-- The type was found. -/
def LookupOutcome.found (o : LookupOutcome) : Bool :=
  o.symbol.isSome

end EntityDump
