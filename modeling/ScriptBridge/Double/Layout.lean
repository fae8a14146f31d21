import ScriptBridge.Double.Shortest

/-! The written forms of numbers. All share their digits; a layout says where the point stands and how
the rest is spelled. -/
namespace ScriptBridge.Double

open ScriptBridge.Text (decimal decimalInt)

/-- A number `0.ddd * 10 ^ p` is written without an exponent when `p` lies between the two bounds. -/
structure Layout where
  lowestPoint : Int
  highestPoint : Int
  /-- whole numbers end in `.0` -/
  wholeMark : Bool
  /-- exponents above zero carry a sign -/
  plusMark : Bool
  /-- the sign of zero is written -/
  signedZero : Bool
  /-- which decimal of the least length is taken -/
  choice : Choice
  nan : String
  infinity : String
  negInfinity : String

namespace Layout

/-- Plain from `0.0001` and below `1e16`. -/
def message : Layout := ⟨-3, 16, true, false, true, .nearestUp, "NaN", "inf", "-inf"⟩

/-- The spelling in script expressions: as in messages, with the names of the script's own constants. -/
def expression : Layout := { message with nan := "NaN", infinity := "Infinity", negInfinity := "-Infinity" }

/-- The spelling in JSON: plain from `0.00001` and below `1e16`; what JSON has no number for is `null`. -/
def json : Layout := ⟨-4, 16, true, true, true, .nearestEven, "null", "null", "null"⟩

/-- The text that a script itself makes of a number: plain from `0.000001` and below `1e21`. -/
def script : Layout := ⟨-5, 21, false, true, false, .rounded, "NaN", "Infinity", "-Infinity"⟩

def placed (l : Layout) (d : Nat) (e : Int) : List Char :=
  let ds := decimal d
  let point := ds.length + e
  if l.lowestPoint ≤ point ∧ point ≤ l.highestPoint then
    if point ≤ 0 then '0' :: '.' :: List.replicate (-point).toNat '0' ++ ds
    else if ds.length ≤ point then
      ds ++ List.replicate (point - ds.length).toNat '0' ++ (if l.wholeMark then ['.', '0'] else [])
    else ds.take point.toNat ++ '.' :: ds.drop point.toNat
  else
    let fraction := if ds.length ≤ 1 then [] else '.' :: ds.drop 1
    let sign := if l.plusMark && decide (0 < point - 1) then ['+'] else []
    ds.take 1 ++ fraction ++ 'e' :: sign ++ decimalInt (point - 1)

end Layout

/-- The text of a number in a layout. -/
def text (l : Layout) (x : Double) : List Char :=
  if x.isNaN then l.nan.toList
  else if x.isInfinite then (if x.negative then l.negInfinity else l.infinity).toList
  else if x.isZero then
    (if x.negative && l.signedZero then ['-'] else []) ++ '0' :: (if l.wholeMark then ['.', '0'] else [])
  else
    let (d, e) := x.shortest l.choice
    (if x.negative then ['-'] else []) ++ l.placed d e

end ScriptBridge.Double
