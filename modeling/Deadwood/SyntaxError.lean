import Deadwood.Source
import Deadwood.TokenKind

/-!
# Syntax errors

A fault is a cause at an offset of the source text.  Only here are causes put into words.
-/

namespace Deadwood

/-- What can be wrong with a source text. -/
inductive Cause
  | endOfInput
  | unexpectedToken (text : String)
  | unexpectedName
  | unexpectedNumber
  | unexpectedString
  | unexpectedTemplate
  | reservedWord
  | invalidToken
  | nameEscape
  | unicodeEscape
  | hexEscape
  | octalInTemplate
  | bigInt
  | unterminatedTemplate
  | unterminatedRegExp
  | regExpFlags
  | assignmentTarget
  | unaryBeforeExponent
  | updateTarget (post : Bool)
  | templateOnChain
  | undeclaredPrivate (name : String)
  | chainFromNew
  | superOutOfPlace
  | getterParameters
  | setterParameters
  | shorthandInitializer
  | withStatement
  | nestedModuleItem
  | patternInitializer
  | constInitializer
  | lexicalInStatement
  | loopBindings
  | loopTarget
  | undefinedLabel (name : String)
  | repeatedLabel (name : String)
  | illegalContinue
  | illegalBreak
  | illegalReturn
  | newlineAfterThrow
  | tryAlone
  | repeatedDefault
  | restParameter
  | restElement
  | memberDecorators
deriving DecidableEq, Repr, Inhabited

/-- The wording of a cause. -/
def Cause.message : Cause → String
  | endOfInput => "Unexpected end of input"
  | unexpectedToken text => s!"Unexpected token {text}"
  | unexpectedName => "Unexpected identifier"
  | unexpectedNumber => "Unexpected number"
  | unexpectedString => "Unexpected string"
  | unexpectedTemplate => "Unexpected template string"
  | reservedWord => "Unexpected reserved word"
  | invalidToken => "Invalid or unexpected token"
  | nameEscape => "Invalid identifier escape"
  | unicodeEscape => "Invalid Unicode escape sequence"
  | hexEscape => "Invalid hexadecimal escape sequence"
  | octalInTemplate => "Octal escape sequences are not allowed in template strings"
  | bigInt => "BigInt literals are not supported"
  | unterminatedTemplate => "Unterminated template literal"
  | unterminatedRegExp => "Invalid regular expression: missing /"
  | regExpFlags => "Invalid regular expression flags"
  | assignmentTarget => "Invalid left-hand side in assignment"
  | unaryBeforeExponent => "Unary operator used immediately before exponentiation expression"
  | updateTarget post =>
    "Invalid left-hand side expression in " ++ (if post then "post" else "pre") ++ "fix operation"
  | templateOnChain => "Invalid tagged template on optional chain"
  | undeclaredPrivate name => s!"Private field '{name}' must be declared in an enclosing class"
  | chainFromNew => "Invalid optional chain from new expression"
  | superOutOfPlace => "'super' keyword unexpected here"
  | getterParameters => "Getter must not have any formal parameters."
  | setterParameters => "Setter must have exactly one formal parameter."
  | shorthandInitializer => "Invalid shorthand property initializer"
  | withStatement => "The with statement is not supported"
  | nestedModuleItem => "Cannot use import or export outside the top level of a module"
  | patternInitializer => "Missing initializer in destructuring declaration"
  | constInitializer => "Missing initializer in const declaration"
  | lexicalInStatement => "Lexical declaration cannot appear in a single-statement context"
  | loopBindings => "Invalid left-hand side in for-loop: must have a single binding."
  | loopTarget => "Invalid left-hand side in for-loop"
  | undefinedLabel name => s!"Undefined label '{name}'"
  | repeatedLabel name => s!"Label '{name}' has already been declared"
  | illegalContinue => "Illegal continue statement: no surrounding iteration statement"
  | illegalBreak => "Illegal break statement"
  | illegalReturn => "Illegal return statement"
  | newlineAfterThrow => "Illegal newline after throw"
  | tryAlone => "Missing catch or finally after try"
  | repeatedDefault => "More than one default clause in switch statement"
  | restParameter => "Rest parameter must be last formal parameter"
  | restElement => "Rest element must be last element"
  | memberDecorators => "Decorators on class members are not supported"

/-- A cause at an offset. -/
structure Fault where
  offset : Nat
  cause : Cause
deriving DecidableEq, Repr, Inhabited

/-- A fault in words, with its place in the text. -/
def Fault.message (text : String) (f : Fault) : String :=
  let p := Position.ofOffset text f.offset
  s!"Line {p.line}:{p.column} {f.cause.message}"

/-- The faults of a text, one a line, in the order they were found. -/
def Fault.report (text : String) (fs : List Fault) : String :=
  "\n".intercalate (fs.map (Fault.message text))

end Deadwood
