import ScriptBridge.Double.Layout
import ScriptBridge.Double.Narrowing

/-! Numbers of the script language. An integer of 32 bits may be kept as one; the other numbers, and some
integers that came about by arithmetic on them, are kept as floating-point numbers. Both forms of an integer
are the same number. -/
namespace ScriptBridge.Script

-- Powers are those of the core library, whatever algebra is there besides.
attribute [local instance (high)] instPowNat

inductive Number where
  | int (n : Int32)
  | float (x : Double)
  deriving DecidableEq, Repr, Inhabited

namespace Number

def toDouble : Number → Double
  | int n => .ofInt n.toInt
  | float x => x

/-- An integer in range is kept as one, but for the negative zero. -/
def ofDouble (x : Double) : Number :=
  let n := x.toInt32
  if x = .ofInt n.toInt then int n else float x

def ofInt (n : Int) : Number :=
  if -2 ^ (31 : Nat) ≤ n ∧ n < 2 ^ (31 : Nat) then int (Int32.ofInt n) else float (.ofInt n)

def ofNat (n : Nat) : Number := ofInt n

/-- Equality of numbers. -/
def same : Number → Number → Bool
  | int m, int n => decide (m = n)
  | x, y => x.toDouble.same y.toDouble

/-- Equality that tells the zeros apart and holds for what is not a number. -/
def identical (x y : Number) : Bool :=
  decide (x.toDouble = y.toDouble) || (x.toDouble.isNaN && y.toDouble.isNaN)

def less : Number → Number → Bool
  | int m, int n => decide (m < n)
  | x, y => x.toDouble.less y.toDouble

/-- Neither zero nor what is not a number. -/
def truth (x : Number) : Bool := !x.toDouble.isNaN && !x.toDouble.isZero

/-- The opposite of a zero is the other zero. -/
def neg : Number → Number
  | int n => if n = 0 then float (Double.zero).neg else ofInt (-n.toInt)
  | float x => float x.neg

/-- A sum with a floating-point number is one. -/
def add : Number → Number → Number
  | int m, int n => ofInt (m.toInt + n.toInt)
  | x, y => float (x.toDouble.add y.toDouble)

/-- The length that a number gives an array. -/
def length? : Number → Option Nat
  | int n => if 0 ≤ n.toInt then some n.toInt.toNat else none
  | float x =>
    if x.same (Double.ofNat x.toNatural) && decide (x.toNatural < 2 ^ (32 : Nat)) then some x.toNatural else none

def text : Number → List Char
  | int n => Text.decimalInt n.toInt
  | float x => x.text .script

end Number
end ScriptBridge.Script
