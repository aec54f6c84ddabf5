import EntityDump.Engine
import EntityDump.Query.Projection
/-!
# Pages of elements

The elements that pass a filter, projected, from an offset on and up to a limit. The whole source is read
whatever the page, so that the number of matches is known.
-/

namespace EntityDump

/-- Which page is asked for. -/
structure PageOptions where
  /-- The fields of the projection; none for whole elements. -/
  select : List String := []
  filter : Option String := none
  /-- The most items, if other than usual. -/
  limit : Option Nat := none
  /-- The matches left out at the beginning. -/
  offset : Nat := 0
  deriving DecidableEq, Repr

/-- The answer to a question for a page. -/
structure PageResult where
  items : List Json
  /-- The elements that pass. -/
  totalMatched : Nat
  /-- All elements. -/
  totalScanned : Nat
  /-- Some filter text was left out. -/
  filterIgnored : Bool

/-- A page that is being filled, the last item first. -/
structure PageState where
  reversed : List Json := []
  /-- The length of the page so far. -/
  length : Nat := 0
  matched : Nat := 0
  scanned : Nat := 0

/-- Takes one element. -/
def PageState.step (projections : List Projection) (filter : FilterSet) (offset limit : Nat)
    (s : PageState) (element : Json) : PageState :=
  if filter.accepts element then
    if offset ≤ s.matched && s.length < limit then
      ⟨Projection.apply projections element :: s.reversed, s.length + 1, s.matched + 1,
        s.scanned + 1⟩
    else { s with matched := s.matched + 1, scanned := s.scanned + 1 }
  else { s with scanned := s.scanned + 1 }

/-- A page of the elements that pass a filter. -/
def Engine.query (engine : Engine) (source : Source) (options : PageOptions) :
    Except Error PageResult := do
  let projections ← Projection.parseAll options.select
  let filter ← engine.filter options.filter
  let limit := options.limit.getD engine.config.query.defaultLimit
  let s ← engine.scan source (PageState.step projections filter options.offset limit) {}
  return ⟨s.reversed.reverse, s.matched, s.scanned, filter.filterIgnored⟩

end EntityDump
