import EntityDump.Query.Relationships
/-!
# The keys of a join

Where a key of a join is not given, the pair of keys is the best relationship between the two sources that
agrees with the key that is given, if one is. Relationships of the usual coverage are tried first, then those of
the relaxed one.
-/

namespace EntityDump

/-- The paths on which two sources are joined. -/
structure JoinKeys where
  left : String
  right : String
  /-- The coverage of the relationship from which the keys are taken. -/
  coverage : Option Float := none

namespace JoinKeys

/-- The relationship has the keys that are given. -/
def agrees (leftKey rightKey : Option String) (r : Relationship) : Bool :=
  leftKey.all (r.leftPath == ·) && rightKey.all (r.rightPath == ·)

/-- The first relationship of at least the coverage that has the given keys. -/
def best? (left right : Inventory) (sameSource : Bool) (leftKey rightKey : Option String)
    (minCoverage : Float) : Option Relationship :=
  (inferRelationships left right minCoverage sameSource).find? (agrees leftKey rightKey)

/-- The first relationship with the given keys, of the usual coverage or else of the relaxed one. -/
def detect? (config : InferenceConfig) (left right : Inventory) (sameSource : Bool)
    (leftKey rightKey : Option String) : Option Relationship :=
  (best? left right sameSource leftKey rightKey config.minCoverage).orElse fun _ =>
    best? left right sameSource leftKey rightKey config.relaxedCoverage

end JoinKeys

/-- The keys on which two sources are joined: those given, or else those of a relationship. -/
def Engine.joinKeys (engine : Engine) (left right : Source) (leftKey rightKey : Option String) :
    Except Error JoinKeys :=
  match leftKey, rightKey with
  | some leftKey, some rightKey => .ok ⟨leftKey, rightKey, none⟩
  | _, _ => do
    let leftFields ← engine.idFields left
    let rightFields ← engine.idFields right
    match JoinKeys.detect? engine.config.inference leftFields rightFields (left.same right) leftKey
        rightKey with
    | some best => return ⟨best.leftPath, best.rightPath, some best.coverage⟩
    | none => throw (.noRelationship left.path right.path)

end EntityDump
