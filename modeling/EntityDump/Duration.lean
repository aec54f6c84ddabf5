/-!
# Durations

Lengths of time in whole microseconds, and their text: in the greatest unit of which there is at least one,
with the fraction of it that is left.
-/

namespace EntityDump

/-- A length of time. -/
structure Duration where
  micros : Nat
  deriving DecidableEq, Repr

namespace Duration

/-- A number of milliseconds. -/
def ofMillis (n : Nat) : Duration := ⟨n * 1000⟩

/-- A number of seconds. -/
def ofSeconds (n : Nat) : Duration := ⟨n * 1000000⟩

/-- A whole part and a fraction of the given number of places, without the zeros at its end. -/
def fractionText (whole fraction places : Nat) : String :=
  let digits := Nat.toDigits 10 fraction
  let padded := List.replicate (places - digits.length) '0' ++ digits
  let kept := (padded.reverse.dropWhile (· == '0')).reverse
  if kept.isEmpty then toString whole else toString whole ++ "." ++ String.ofList kept

/-- The duration in seconds, milliseconds or microseconds. -/
def text (d : Duration) : String :=
  if d.micros ≥ 1000000 then fractionText (d.micros / 1000000) (d.micros % 1000000) 6 ++ "s"
  else if d.micros ≥ 1000 then fractionText (d.micros / 1000) (d.micros % 1000) 3 ++ "ms"
  else if d.micros > 0 then toString d.micros ++ "µs"
  else "0ns"

end Duration

end EntityDump
