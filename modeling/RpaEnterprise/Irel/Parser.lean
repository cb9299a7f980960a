import Mathlib
import RpaEnterprise.Irel.Syntax

/-!
# Parsing of expressions

The lexer cuts the text into tokens with their positions, and a recursive
descent parser reads them level by level, from `||` down to the primaries.  Two
guards refuse what is easy to misread: a mix of `&&` and `||` without
parentheses, and `!` in front of a bare comparison.
-/

namespace RpaEnterprise.Irel

inductive CompileErrorCode where
  | parseError
  | unknownVariable
  | unknownFunction
  | typeError
  | forwardRef
  | scopeViolation
deriving Repr, DecidableEq

def CompileErrorCode.text : CompileErrorCode → String
  | .parseError => "IREL_PARSE_ERROR"
  | .unknownVariable => "IREL_UNKNOWN_VARIABLE"
  | .unknownFunction => "IREL_UNKNOWN_FUNCTION"
  | .typeError => "IREL_TYPE_ERROR"
  | .forwardRef => "IREL_FORWARD_REF"
  | .scopeViolation => "IREL_SCOPE_VIOLATION"

inductive DiagnosticReason where
  | irelParseError
  | unknownVariable
  | unknownFlag
  | unknownNodeField
  | unknownFunction
  | irelTypeError
  | forwardRef
  | loopScopeViolation
  | paramsSchemaTypeInvalid
deriving Repr, DecidableEq

def DiagnosticReason.text : DiagnosticReason → String
  | .irelParseError => "irel_parse_error"
  | .unknownVariable => "unknown_variable"
  | .unknownFlag => "unknown_flag"
  | .unknownNodeField => "unknown_node_field"
  | .unknownFunction => "unknown_function"
  | .irelTypeError => "irel_type_error"
  | .forwardRef => "forward_ref"
  | .loopScopeViolation => "loop_scope_violation"
  | .paramsSchemaTypeInvalid => "params_schema_type_invalid"

structure SourceLocation where
  offset : Nat
  line : Nat
  column : Nat
deriving Repr, DecidableEq

/-- `IRELCompileDiagnostic`. -/
structure Diagnostic where
  code : CompileErrorCode
  reason : DiagnosticReason
  detail : String
  location : Option SourceLocation := none
deriving Repr, DecidableEq

/-- Line and column after the characters before a position. -/
def advanceLocation : List Char → Nat × Nat → Nat × Nat
  | [], reached => reached
  | char :: rest, (line, column) =>
    advanceLocation rest (if char = '\n' then (line + 1, 1) else (line, column + 1))

def sourceLocation (source : List Char) (pos : Nat) : SourceLocation :=
  let offset := min pos source.length
  let reached := advanceLocation (source.take offset) (1, 1)
  ⟨offset, reached.1, reached.2⟩

def parseDiagnostic (source : List Char) (pos : Nat) (message : String) : Diagnostic :=
  let location := sourceLocation source pos
  { code := .parseError
    reason := .irelParseError
    detail := s!"{message} at line {location.line}, column {location.column} (offset {location.offset})"
    location := some location }

/-! ## Tokens -/

inductive Symbol where
  | or
  | and
  | eq
  | ne
  | ge
  | le
  | gt
  | lt
  | plus
  | minus
  | not
  | opening
  | closing
  | comma
  | dot
deriving Repr, DecidableEq

inductive TokenKind where
  | identifier (value : String)
  | number (value : String)
  | string (value : String)
  | boolean (value : Bool)
  | null
  | symbol (value : Symbol)
  | eof
deriving Repr, DecidableEq

structure Token where
  kind : TokenKind
  pos : Nat
deriving Repr, DecidableEq

def isIdentifierStart (char : Char) : Bool := char.isAlpha || char = '_'

def isIdentifierPart (char : Char) : Bool := char.isAlphanum || char = '_'

def identifierToken (value : String) : TokenKind :=
  match value with
  | "true" => .boolean true
  | "false" => .boolean false
  | "null" => .null
  | value => .identifier value

/-- `readNumber`: digits, and a fraction when a digit follows the point. -/
def readNumber (chars : List Char) : List Char :=
  let whole := chars.takeWhile Char.isDigit
  match chars.dropWhile Char.isDigit with
  | '.' :: digit :: rest =>
    if digit.isDigit then whole ++ '.' :: (digit :: rest).takeWhile Char.isDigit else whole
  | _ => whole

/-- The characters of a string literal after its opening quote. -/
def readString : List Char → Except String (List Char)
  | [] => .error "unterminated string literal"
  | char :: rest =>
    if char = '\\' ∨ char = '\n' ∨ char = '\r' then
      .error "string literals may not contain escapes or newlines"
    else if char = '"' then .ok []
    else match readString rest with
      | .ok chars => .ok (char :: chars)
      | .error message => .error message

def twoCharSymbol : Char → Char → Option Symbol
  | '|', '|' => some .or
  | '&', '&' => some .and
  | '=', '=' => some .eq
  | '!', '=' => some .ne
  | '>', '=' => some .ge
  | '<', '=' => some .le
  | _, _ => none

def oneCharSymbol : Char → Option Symbol
  | '>' => some .gt
  | '<' => some .lt
  | '+' => some .plus
  | '-' => some .minus
  | '!' => some .not
  | '(' => some .opening
  | ')' => some .closing
  | ',' => some .comma
  | '.' => some .dot
  | _ => none

/-- The symbol at the head of the text with its length. -/
def symbolAt (char : Char) (rest : List Char) : Option (Symbol × Nat) :=
  match rest.head?.bind (twoCharSymbol char) with
  | some symbol => some (symbol, 2)
  | none => (oneCharSymbol char).map fun symbol => (symbol, 1)

/-- One round of the lexer's loop: the token at a position, if any, and the
number of characters it takes. -/
def tokenAt (char : Char) (rest : List Char) : Except String (Option TokenKind × Nat) :=
  if char = ' ' ∨ char = '\t' ∨ char = '\r' ∨ char = '\n' then .ok (none, 1)
  else if isIdentifierStart char then
    let value := char :: rest.takeWhile isIdentifierPart
    .ok (some (identifierToken (String.ofList value)), value.length)
  else if char.isDigit then
    let value := readNumber (char :: rest)
    .ok (some (.number (String.ofList value)), value.length)
  else if char = '"' then
    match readString rest with
    | .ok value => .ok (some (.string (String.ofList value)), value.length + 2)
    | .error message => .error message
  else match symbolAt char rest with
    | some (symbol, length) => .ok (some (.symbol symbol), length)
    | none => .error s!"unexpected character '{char}'"

/-- The lexer from a position on; `skip` characters belong to the last token. -/
def tokenizeFrom (source : List Char) : Nat → Nat → List Char → Except Diagnostic (List Token)
  | pos, _, [] => .ok [⟨.eof, pos⟩]
  | pos, skip + 1, _ :: rest => tokenizeFrom source (pos + 1) skip rest
  | pos, 0, char :: rest =>
    match tokenAt char rest with
    | .error message => .error (parseDiagnostic source pos message)
    | .ok (kind, length) =>
      match tokenizeFrom source (pos + 1) (length - 1) rest with
      | .error diagnostic => .error diagnostic
      | .ok tokens => .ok (kind.toList.map (fun kind => ⟨kind, pos⟩) ++ tokens)

def tokenize (source : List Char) : Except Diagnostic (List Token) := tokenizeFrom source 0 0 source

/-! ## Numbers -/

def digitValue (char : Char) : Nat := char.toNat - '0'.toNat

def digitsValue (digits : List Char) : Nat :=
  digits.foldl (fun value digit => 10 * value + digitValue digit) 0

/-- `Number(text)` of a number token. -/
def numberValue (text : String) : Rat :=
  let whole := text.toList.takeWhile (· ≠ '.')
  let fraction := (text.toList.dropWhile (· ≠ '.')).drop 1
  mkRat (digitsValue (whole ++ fraction)) (10 ^ fraction.length)

/-- The literal of a number token: a point makes it a `number`. -/
def numberLiteral (text : String) (sign : Rat) : IrelNode :=
  .literal (if text.toList.contains '.' then .number else .int) (.num (sign * numberValue text))
    false

/-! ## The parser -/

/-- Why the parser stops without a tree; it never runs out of fuel. -/
inductive ParseStop where
  | error (pos : Nat) (message : String)
  | outOfFuel
deriving Repr, DecidableEq

def markGrouped : IrelNode → IrelNode
  | .literal valueType value _ => .literal valueType value true
  | .var path _ => .var path true
  | .call name args _ => .call name args true
  | .unary expr _ => .unary expr true
  | .binary op left right _ => .binary op left right true
  | .compare op left right _ => .compare op left right true
  | .logical op left right _ => .logical op left right true

/-- `isUngroupedLogical(node, "&&")`. -/
def isUngroupedAnd : IrelNode → Bool
  | .logical .and _ _ grouped => !grouped
  | _ => false

def isUngroupedCompare : IrelNode → Bool
  | .compare _ _ _ grouped => !grouped
  | _ => false

def compareOp : Symbol → Option CompareOp
  | .eq => some .eq
  | .ne => some .ne
  | .gt => some .gt
  | .ge => some .ge
  | .lt => some .lt
  | .le => some .le
  | _ => none

def additiveOp : Symbol → Option AdditiveOp
  | .plus => some .plus
  | .minus => some .minus
  | _ => none

def peekPos : List Token → Nat
  | [] => 0
  | token :: _ => token.pos

/-- `match(symbol)`: the position and the tokens after the symbol. -/
def matchSymbol (symbol : Symbol) : List Token → Option (Nat × List Token)
  | ⟨.symbol found, pos⟩ :: rest => if found = symbol then some (pos, rest) else none
  | _ => none

/-- `match` of one of several symbols, read as the operator it stands for. -/
def matchOp {Op : Type} (read : Symbol → Option Op) : List Token → Option (Op × Nat × List Token)
  | ⟨.symbol found, pos⟩ :: rest => (read found).map fun op => (op, pos, rest)
  | _ => none

/-- `consume(symbol, message)`. -/
def consume (symbol : Symbol) (message : String) (tokens : List Token) :
    Except ParseStop (Unit × List Token) :=
  match matchSymbol symbol tokens with
  | some (_, rest) => .ok ((), rest)
  | none => .error (.error (peekPos tokens) message)

def consumeIdentifier (message : String) (tokens : List Token) :
    Except ParseStop (String × List Token) :=
  match tokens with
  | ⟨.identifier name, _⟩ :: rest => .ok (name, rest)
  | tokens => .error (.error (peekPos tokens) message)

/-- The rest of a path, part after part. -/
def parsePath : Nat → List String → List Token → Except ParseStop (List String × List Token)
  | fuel, path, tokens =>
    match matchSymbol .dot tokens with
    | none => .ok (path, tokens)
    | some (_, rest) =>
      match fuel with
      | 0 => .error .outOfFuel
      | fuel + 1 => do
        let (part, rest) ← consumeIdentifier "expected identifier after '.'" rest
        parsePath fuel (path ++ [part]) rest

section Levels

-- The parser of the expressions in parentheses and argument lists.
variable (expression : List Token → Except ParseStop (IrelNode × List Token))

/-- The arguments of a call up to its closing parenthesis. -/
def parseArgs : Nat → List IrelNode → List Token → Except ParseStop (List IrelNode × List Token)
  | fuel, args, tokens => do
    let (arg, rest) ← expression tokens
    match matchSymbol .comma rest with
    | none => .ok (args ++ [arg], rest)
    | some (_, rest) =>
      match fuel with
      | 0 => .error .outOfFuel
      | fuel + 1 => parseArgs fuel (args ++ [arg]) rest

/-- The arguments of a call, none when the parenthesis closes at once. -/
def parseArgList (tokens : List Token) : Except ParseStop (List IrelNode × List Token) :=
  if (matchSymbol .closing tokens).isSome then .ok ([], tokens)
  else parseArgs expression tokens.length [] tokens

def parseIdentifierPrimary (name : String) (tokens : List Token) :
    Except ParseStop (IrelNode × List Token) :=
  match matchSymbol .opening tokens with
  | some (_, rest) => do
    let (args, rest) ← parseArgList expression rest
    let (_, rest) ← consume .closing "expected ')' after function arguments" rest
    pure (.call name args false, rest)
  | none => do
    let (path, rest) ← parsePath tokens.length [name] tokens
    pure (.var path false, rest)

def parsePrimary (tokens : List Token) : Except ParseStop (IrelNode × List Token) :=
  match tokens with
  | ⟨.number value, _⟩ :: rest => .ok (numberLiteral value 1, rest)
  | ⟨.string value, _⟩ :: rest => .ok (.literal .string (.str value) false, rest)
  | ⟨.boolean value, _⟩ :: rest => .ok (.literal .boolean (.bool value) false, rest)
  | ⟨.null, _⟩ :: rest => .ok (.literal .null .null false, rest)
  | ⟨.symbol .minus, pos⟩ :: rest =>
    match rest with
    | ⟨.number value, _⟩ :: rest => .ok (numberLiteral value (-1), rest)
    | _ => .error (.error pos "unary - is only allowed on numeric literals")
  | ⟨.identifier name, _⟩ :: rest => parseIdentifierPrimary expression name rest
  | ⟨.symbol .opening, _⟩ :: rest => do
    let (expr, rest) ← expression rest
    let (_, rest) ← consume .closing "expected ')' after expression" rest
    pure (markGrouped expr, rest)
  | tokens => .error (.error (peekPos tokens) "expected expression")

def parseAdditiveRest : Nat → IrelNode → List Token → Except ParseStop (IrelNode × List Token)
  | fuel, left, tokens =>
    match matchOp additiveOp tokens with
    | none => .ok (left, tokens)
    | some (op, _, rest) =>
      match fuel with
      | 0 => .error .outOfFuel
      | fuel + 1 => do
        let (right, rest) ← parsePrimary expression rest
        parseAdditiveRest fuel (.binary op left right false) rest

def parseAdditive (tokens : List Token) : Except ParseStop (IrelNode × List Token) := do
  let (left, rest) ← parsePrimary expression tokens
  parseAdditiveRest expression rest.length left rest

def parseComparison (tokens : List Token) : Except ParseStop (IrelNode × List Token) := do
  let (left, rest) ← parseAdditive expression tokens
  match matchOp compareOp rest with
  | none => pure (left, rest)
  | some (op, _, rest) => do
    let (right, rest) ← parseAdditive expression rest
    match matchOp compareOp rest with
    | some (_, pos, _) => .error (.error pos "chained comparisons are not allowed")
    | none => pure (.compare op left right false, rest)

def parseNot (tokens : List Token) : Except ParseStop (IrelNode × List Token) :=
  match matchSymbol .not tokens with
  | none => parseComparison expression tokens
  | some (pos, rest) => do
    let (expr, rest) ← parseComparison expression rest
    if isUngroupedCompare expr then
      .error (.error pos "! with a comparison requires explicit parentheses")
    else pure (.unary expr false, rest)

def parseAndRest : Nat → IrelNode → List Token → Except ParseStop (IrelNode × List Token)
  | fuel, left, tokens =>
    match matchSymbol .and tokens with
    | none => .ok (left, tokens)
    | some (_, rest) =>
      match fuel with
      | 0 => .error .outOfFuel
      | fuel + 1 => do
        let (right, rest) ← parseNot expression rest
        parseAndRest fuel (.logical .and left right false) rest

def parseAnd (tokens : List Token) : Except ParseStop (IrelNode × List Token) := do
  let (left, rest) ← parseNot expression tokens
  parseAndRest expression rest.length left rest

def mixedMessage : String := "mixed && and || requires explicit parentheses"

def parseOrRest : Nat → IrelNode → List Token → Except ParseStop (IrelNode × List Token)
  | fuel, left, tokens =>
    match matchSymbol .or tokens with
    | none => .ok (left, tokens)
    | some (pos, rest) =>
      match fuel with
      | 0 => .error .outOfFuel
      | fuel + 1 =>
        if isUngroupedAnd left then .error (.error pos mixedMessage)
        else do
          let (right, rest) ← parseAnd expression rest
          if isUngroupedAnd right then .error (.error pos mixedMessage)
          else parseOrRest fuel (.logical .or left right false) rest

def parseOrLevel (tokens : List Token) : Except ParseStop (IrelNode × List Token) := do
  let (left, rest) ← parseAnd expression tokens
  parseOrRest expression rest.length left rest

end Levels

/-- `parseOr`, with fuel for the parentheses still to be opened. -/
def parseOr : Nat → List Token → Except ParseStop (IrelNode × List Token)
  | 0, _ => .error .outOfFuel
  | fuel + 1, tokens => parseOrLevel (parseOr fuel) tokens

/-- `Parser.parse`. -/
def parseTokens (tokens : List Token) : Except ParseStop IrelNode := do
  let (node, rest) ← parseOr (tokens.length + 1) tokens
  match rest with
  | [] | ⟨.eof, _⟩ :: _ => pure node
  | token :: _ => .error (.error token.pos "unexpected trailing token")

/-- `parseIrelExpression`; the left side is a parser that ran out of fuel. -/
def parseIrelExpression (expression : String) : Except (Option Diagnostic) IrelNode :=
  match tokenize expression.toList with
  | .error diagnostic => .error (some diagnostic)
  | .ok tokens =>
    match parseTokens tokens with
    | .ok node => .ok node
    | .error (.error pos message) => .error (some (parseDiagnostic expression.toList pos message))
    | .error .outOfFuel => .error none

end RpaEnterprise.Irel
