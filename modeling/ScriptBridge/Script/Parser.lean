import ScriptBridge.Script.Token
import ScriptBridge.Script.Tree

/-! Reading of scripts. The fuel of each function bounds the tokens it may still pass. -/
namespace ScriptBridge.Script.Parser

/-- The words that name no variable. -/
def reserved : List String :=
  ["break", "case", "catch", "class", "const", "continue", "debugger", "default", "delete", "do", "else", "enum",
    "export", "extends", "false", "finally", "for", "function", "if", "implements", "import", "in", "instanceof",
    "interface", "let", "new", "null", "package", "private", "protected", "public", "return", "static", "super",
    "switch", "this", "throw", "true", "try", "typeof", "var", "void", "while", "with", "yield"]

/-- The names that keep their meaning. -/
def kept : List String := ["eval", "arguments"]

def told {α : Type} (message : String) : Except SyntaxFault α := .error (.told message)

/-- The complaint about the token at the front. -/
def unexpected {α : Type} (tokens : List Token) : Except SyntaxFault α :=
  match tokens with
  | ⟨.fault f, _⟩ :: _ => .error f
  | ⟨.word w, _⟩ :: _ => .error (.unexpected w)
  | ⟨.mark m, _⟩ :: _ => .error (.unexpected m)
  | _ => .error (.unexpected "")

/-- A complaint, unless the text stops being made of tokens at the front. -/
def complain {α : Type} (f : SyntaxFault) (tokens : List Token) : Except SyntaxFault α :=
  match tokens with
  | ⟨.fault f, _⟩ :: _ => .error f
  | _ => .error f

def isMark (s : String) : List Token → Bool
  | ⟨.mark m, _⟩ :: _ => m == s
  | _ => false

/-- The word at the front. -/
def word? : List Token → Option String
  | ⟨.word w, _⟩ :: _ => some w
  | _ => none

/-- Passes a mark. -/
def expect (s : String) (tokens : List Token) : Except SyntaxFault (List Token) :=
  if isMark s tokens then .ok (tokens.drop 1) else complain (.expecting s) tokens

/-- The binary operators, with their strength. -/
def binary? : Token → Option (Nat × (Expr → Expr → Expr))
  | ⟨.mark "||", _⟩ => some (1, .either)
  | ⟨.mark "&&", _⟩ => some (2, .both)
  | ⟨.mark "===", _⟩ => some (3, .equals true)
  | ⟨.mark "!==", _⟩ => some (3, .equals false)
  | ⟨.word "in", _⟩ => some (4, .isIn)
  | _ => none

def prefixOp? : Token → Option (Expr → Expr)
  | ⟨.mark "!", _⟩ => some .not
  | ⟨.mark "-", _⟩ => some .negate
  | ⟨.word "typeof", _⟩ => some .typeOf
  | ⟨.word "void", _⟩ => some fun e => .sequence e (.constant .undefined)
  | ⟨.word "delete", _⟩ => some .delete
  | _ => none

/-- A name cannot be deleted by itself. -/
def checkOperand : Expr → Except SyntaxFault Expr
  | .delete (.name _) => told "cannot delete a direct reference in strict mode"
  | e => .ok e

/-- A name that keeps its meaning cannot be assigned to, nor can what is no place for a value. -/
def checkTarget (e : Expr) : Except SyntaxFault Unit :=
  match e with
  | .name x => if kept.contains x then told "invalid lvalue in strict mode" else .ok ()
  | e => if e.isTarget then .ok () else told "invalid assignment left-hand side"

/-- The complaint about a function without a body. -/
def functionFault {α : Type} (tokens : List Token) : Except SyntaxFault α :=
  if isMark "(" tokens then
    if isMark ")" (tokens.drop 1) || (word? (tokens.drop 1)).isSome then .error (.expecting "\x7b")
    else told "missing formal parameter"
  else complain (.expecting "(") tokens

/-- The complaint about a reserved word at the front of an expression, with what comes behind it. -/
def reservedFault {α : Type} (w : String) (tokens : List Token) : Except SyntaxFault α :=
  match w with
  | "function" => functionFault tokens
  | "class" => complain (.expecting "\x7b") tokens
  | "yield" => told "unexpected 'yield' keyword"
  | "super" =>
    if isMark "(" tokens then told "super() is only valid in a derived class constructor"
    else if isMark "." tokens || isMark "[" tokens then told "'super' is only valid in a method"
    else told "invalid use of 'super'"
  | w => .error (.unexpected w)

mutual
/-- Expressions with commas between them. -/
def expression : Nat → List Token → Except SyntaxFault (Expr × List Token)
  | 0, tokens => unexpected tokens
  | fuel + 1, tokens => do
    let (e, rest) ← assignment fuel tokens
    if isMark "," rest then
      let (f, rest) ← expression fuel (rest.drop 1)
      return (.sequence e f, rest)
    else return (e, rest)

/-- One expression, which may be an assignment. -/
def assignment : Nat → List Token → Except SyntaxFault (Expr × List Token)
  | 0, tokens => unexpected tokens
  | fuel + 1, tokens => do
    let (e, rest) ← climb fuel 1 tokens
    if isMark "=" rest then
      checkTarget e
      let (v, rest) ← assignment fuel (rest.drop 1)
      return (.assign e v, rest)
    else return (e, rest)

/-- Operands joined by operators of at least the given strength. -/
def climb : Nat → Nat → List Token → Except SyntaxFault (Expr × List Token)
  | 0, _, tokens => unexpected tokens
  | fuel + 1, strength, tokens => do
    let (e, rest) ← operand fuel tokens
    operators fuel strength e rest

def operators : Nat → Nat → Expr → List Token → Except SyntaxFault (Expr × List Token)
  | 0, _, _, tokens => unexpected tokens
  | _ + 1, _, left, [] => .ok (left, [])
  | fuel + 1, strength, left, t :: rest =>
    match binary? t with
    | some (s, join) =>
      if strength ≤ s then do
        let (right, rest) ← climb fuel (s + 1) rest
        operators fuel strength (join left right) rest
      else .ok (left, t :: rest)
    | none => .ok (left, t :: rest)

def operand : Nat → List Token → Except SyntaxFault (Expr × List Token)
  | 0, tokens => unexpected tokens
  | _ + 1, [] => unexpected []
  | fuel + 1, t :: rest =>
    match prefixOp? t with
    | some op => do
      let (e, rest) ← operand fuel rest
      return (← checkOperand (op e), rest)
    | none => do
      let (e, rest) ← primary fuel (t :: rest)
      suffixes true fuel e rest

/-- Members and indices behind an expression, and calls where they are wanted. -/
def suffixes (calls : Bool) : Nat → Expr → List Token → Except SyntaxFault (Expr × List Token)
  | 0, _, tokens => unexpected tokens
  | fuel + 1, e, tokens =>
    if isMark "." tokens then
      match tokens.drop 1 with
      | ⟨.word w, _⟩ :: rest => suffixes calls fuel (.member e w) rest
      | rest => complain (.told "expecting field name") rest
    else if isMark "[" tokens then do
      let (k, rest) ← expression fuel (tokens.drop 1)
      suffixes calls fuel (.index e k) (← expect "]" rest)
    else if calls && isMark "(" tokens then do
      let (args, rest) ← items false ")" fuel [] (tokens.drop 1)
      suffixes calls fuel (.call e args) rest
    else .ok (e, tokens)

/-- Expressions with commas between them up to a closing mark, behind those already found; a comma may
stand before the mark. Where holes are allowed an expression may be left out. -/
def items (holes : Bool) (closing : String) : Nat → List Expr → List Token → Except SyntaxFault (List Expr × List Token)
  | 0, _, tokens => unexpected tokens
  | fuel + 1, found, tokens =>
    if isMark closing tokens then .ok (found.reverse, tokens.drop 1)
    else if holes && isMark "," tokens then items holes closing fuel (.hole :: found) (tokens.drop 1)
    else do
      let (e, rest) ← assignment fuel tokens
      if isMark closing rest then return ((e :: found).reverse, rest.drop 1)
      else items holes closing fuel (e :: found) (← expect "," rest)

/-- What stands behind the word `new`. -/
def newObject : Nat → List Token → Except SyntaxFault (Expr × List Token)
  | 0, tokens => unexpected tokens
  | fuel + 1, tokens =>
    if isMark "." tokens then
      if word? (tokens.drop 1) = some "target" then .ok (.constant .undefined, tokens.drop 2)
      else complain (.told "expecting target") (tokens.drop 1)
    else do
      let (e, rest) ← primary fuel tokens
      let (callee, rest) ← suffixes false fuel e rest
      if isMark "(" rest then
        let (args, rest) ← items false ")" fuel [] (rest.drop 1)
        return (.construct callee args, rest)
      else return (.construct callee [], rest)

/-- What stands behind the word `import`; the module asked for is never seen. -/
def imported : Nat → List Token → Except SyntaxFault (Expr × List Token)
  | 0, tokens => unexpected tokens
  | fuel + 1, tokens =>
    if isMark "." tokens then
      if word? (tokens.drop 1) = some "meta" then told "import.meta only valid in module code"
      else complain (.told "meta expected") (tokens.drop 1)
    else do
      let (e, rest) ← assignment fuel (← expect "(" tokens)
      return (.sequence e (.object []), ← expect ")" rest)

def primary : Nat → List Token → Except SyntaxFault (Expr × List Token)
  | 0, tokens => unexpected tokens
  | fuel + 1, tokens =>
    match tokens with
    | ⟨.number x, _⟩ :: rest => .ok (.constant (.number x), rest)
    | ⟨.string c, _⟩ :: rest => .ok (.constant (.string c), rest)
    | ⟨.mark "(", _⟩ :: rest => do
      let (e, rest) ← expression fuel rest
      return (e, ← expect ")" rest)
    | ⟨.mark "[", _⟩ :: rest => do
      let (es, rest) ← items true "]" fuel [] rest
      return (.array es, rest)
    | ⟨.word "null", _⟩ :: rest => .ok (.constant .null, rest)
    | ⟨.word "true", _⟩ :: rest => .ok (.constant (.bool true), rest)
    | ⟨.word "false", _⟩ :: rest => .ok (.constant (.bool false), rest)
    | ⟨.word "this", _⟩ :: rest => .ok (.this, rest)
    | ⟨.word "new", _⟩ :: rest => newObject fuel rest
    | ⟨.word "import", _⟩ :: rest => imported fuel rest
    | ⟨.word w, _⟩ :: rest => if reserved.contains w then reservedFault w rest else .ok (.name w, rest)
    | _ => unexpected tokens
end

/-- The fuel for the tokens of a text: each token is passed through a fixed number of functions. -/
def fuelFor (tokens : List Token) : Nat := 8 * tokens.length + 8

/-- What closes a statement: a semicolon, the end of the body, or the end of a line. -/
def endStatement (tokens : List Token) : Except SyntaxFault (List Token) :=
  match tokens with
  | [] => .ok []
  | t :: _ => if isMark "\x7d" tokens || (t.newLine && !isMark ";" tokens) then .ok tokens else expect ";" tokens

/-- The complaint about a statement that begins with a word of its own, which no script has. -/
def statementFault? (w : String) : Option SyntaxFault :=
  if ["if", "while", "for", "switch"].contains w then some (.expecting "(")
  else if w = "try" then some (.expecting "\x7b")
  else if ["let", "const"].contains w then some (.told "variable name expected")
  else if w = "function" then some (.told "function name expected")
  else if w = "class" then some (.told "class statement requires a name")
  else if w = "break" then some (.told "break must be inside loop or switch")
  else if w = "continue" then some (.told "continue must be inside loop")
  else if w = "debugger" then some (.expecting ";")
  else if w = "with" then some (.told "invalid keyword: with")
  else if ["enum", "export", "extends"].contains w then some (.told ("unsupported keyword: " ++ w))
  else none

/-- A declaration behind the word `var`. -/
def declaration (tokens : List Token) : Except SyntaxFault (Statement × List Token) :=
  match tokens with
  | ⟨.word x, _⟩ :: rest =>
    if reserved.contains x then told "variable name expected"
    else if kept.contains x then told "invalid variable name in strict mode"
    else if isMark "=" rest then do
      let (e, rest) ← assignment (fuelFor rest) (rest.drop 1)
      return (.declare x (some e), ← endStatement rest)
    else do return (.declare x none, ← endStatement rest)
  | tokens => complain (.told "variable name expected") tokens

/-- One statement; only the body of a function can return. -/
def statement (inBody : Bool) (tokens : List Token) : Except SyntaxFault (Statement × List Token) :=
  let fuel := fuelFor tokens
  let plain : Except SyntaxFault (Statement × List Token) := do
    let (e, rest) ← expression fuel tokens
    return (.run e, ← endStatement rest)
  match tokens with
  | ⟨.word "return", _⟩ :: rest =>
    if !inBody then told "return not in a function"
    else if rest.isEmpty || isMark ";" rest || isMark "\x7d" rest || rest.head?.any Token.newLine then do
      return (.result none, ← endStatement rest)
    else do
      let (e, rest) ← expression fuel rest
      return (.result (some e), ← endStatement rest)
  | ⟨.word "throw", _⟩ :: rest =>
    if rest.head?.any Token.newLine then told "line terminator not allowed after throw"
    else do
      let (e, rest) ← expression fuel rest
      return (.throw e, ← endStatement rest)
  | ⟨.word "var", _⟩ :: rest => declaration rest
  | ⟨.word w, _⟩ :: rest =>
    match statementFault? w with
    | some f => complain f rest
    | none => plain
  | _ => plain

/-- The statements of a body; those without anything in them are left out. -/
def body (inBody : Bool) : Nat → List Token → Except SyntaxFault (List Statement)
  | 0, _ => .ok []
  | _ + 1, [] => .ok []
  | fuel + 1, tokens =>
    if isMark ";" tokens then body inBody fuel (tokens.drop 1)
    else if inBody && isMark "\x7d" tokens && (tokens.drop 1).isEmpty then .ok []
    else do
      let (s, rest) ← statement inBody tokens
      return s :: (← body inBody fuel rest)

/-- The mark that ends the body of a function, on a line of its own. -/
def bodyEnd : Token := ⟨.mark "\x7d", true⟩

/-- How deep brackets may be nested. -/
def depthBound : Nat := 128

/-- Whether the brackets of tokens are nested deeper than the reader can go. -/
def tooDeep : Nat → List Token → Bool
  | _, [] => false
  | depth, ⟨.mark m, _⟩ :: rest =>
    if ["(", "[", "\x7b"].contains m then decide (depthBound ≤ depth) || tooDeep (depth + 1) rest
    else if [")", "]", "\x7d"].contains m then tooDeep (depth - 1) rest
    else tooDeep depth rest
  | depth, _ :: rest => tooDeep depth rest

def statements (inBody : Bool) (tokens : List Token) : Except SyntaxFault (List Statement) :=
  if tooDeep 0 tokens then told "stack overflow" else body inBody (tokens.length + 1) tokens

/-- A text that is one expression where it stands in parentheses. -/
def expression? (text : List Char) : Except SyntaxFault Expr := do
  let tokens := Token.scan text ++ [⟨.mark ")", false⟩]
  if tooDeep 0 tokens then told "stack overflow"
  else
    let (e, rest) ← expression (fuelFor tokens) tokens
    let rest ← expect ")" rest
    if rest.isEmpty then return e else unexpected rest

end ScriptBridge.Script.Parser
