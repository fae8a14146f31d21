import ScriptBridge.Script.Converter

/-! Calls of functions. -/
namespace ScriptBridge.Script

/-- What a function does with its receiver and arguments. -/
def Code.run (invoke : Caller) (c : Code) (this : Value) (args : List Value) : Run Value :=
  match c with
  | .body b => b.run invoke this args
  | .blank => return .undefined
  | .builtin b => b.run invoke this args
  | .tool .convert m => Converter.run invoke m (args.headD .undefined)
  | .tool .register m => Converter.register invoke m (args.headD .undefined)
  | .tool .tag m => do
    return .bool (← Converter.tag invoke m (args.headD .undefined) (args.tail.headD .undefined))

namespace Run

/-- Calls a value, where calls may be nested up to a depth; a proxy passes the call to its target. -/
def callWithin : (depth : Nat) → Caller
  | 0, _, _, _ => fail "stack overflow"
  | depth + 1, callee, this, args => do
    match (← get).codeOf? callee with
    | some c => c.run (callWithin depth) this args
    | none => fail "not a function"

/-- Only calls without an end are nested deeper: on the way to a text, say, an array is passed by two
calls, and once unless it contains itself. -/
def depthFor (h : Heap) : Nat := 4 * h.objects.size + 16

/-- Calls a value. -/
def invoke : Caller := fun callee this args => do callWithin (depthFor (← get)) callee this args

end Run
end ScriptBridge.Script
