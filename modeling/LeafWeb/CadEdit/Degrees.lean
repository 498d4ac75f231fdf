import Mathlib.Data.Rat.Floor

namespace LeafWeb.CadEdit

def mathRound (x : ℚ) : ℤ := ⌊x + 1 / 2⌋

def sixPlaces (x : ℚ) : ℚ := mathRound (x * 10 ^ 6) / 10 ^ 6

def remainder (a b : ℚ) : ℚ := a - b * (if 0 ≤ a / b then ⌊a / b⌋ else ⌈a / b⌉ : ℤ)

def normalizedDeg (deg : ℚ) : ℚ :=
  let d := remainder (sixPlaces deg) 360
  let d := if d < 0 then d + 360 else d
  let d := sixPlaces d
  if d = 360 then 0 else d

end LeafWeb.CadEdit
