import EntityDump.Engine
import EntityDump.Shape.Builder
/-!
# The shape of a document

The merged shape of a whole document, taken from its events in one pass.
-/

namespace EntityDump

/-- The shape of the document of a file. -/
def Engine.schema (engine : Engine) (path : String) (options : ShapeOptions) :
    Except Error Shape := do
  let (builder, reading) ← Reading.foldFile (fun builder event _ => builder.push event)
    engine.config.stream engine.directory path ({ options := options } : ShapeBuilder)
  match builder.root with
  | some shape => return shape
  | none => throw (.noValue path reading.bytesRead)

end EntityDump
