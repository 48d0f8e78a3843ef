import Mathlib.Data.NNRat.Defs

/-!
# Python floats

`PyFloat` — a Python `float`: a sign with a magnitude, an infinity or not-a-number. Finite floats
are exact rationals; zero keeps its sign, because formatting shows it.
-/

namespace MuStrategy.Lib

/-- A Python `float`. -/
inductive PyFloat where
  | finite (negative : Bool) (magnitude : ℚ≥0)
  | inf (negative : Bool)
  | nan
  deriving DecidableEq

end MuStrategy.Lib
