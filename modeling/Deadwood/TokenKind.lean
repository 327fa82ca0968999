/-!
# Token kinds

Every kind of token has a code, its position in the list of kinds.  The kinds of words come last, so
that a kind names a property, or is reserved, exactly when its code is large enough; codes beyond the
list behave as unassigned reserved words.
-/

namespace Deadwood

/-- The kinds of tokens.  Words that are only reserved in context (`async`, `of`, `get`, …) have the
kind `name`; `letKw` never comes out of a source text. -/
inductive TokenKind
  | undetermined | illegal | eof | string | number | regExp | template | plus | minus | multiply
  | exponent | divide | remainder | bitAnd | bitOr | bitXor | shiftLeft | shiftRight
  | unsignedShiftRight | addAssign | subtractAssign | multiplyAssign | exponentAssign
  | divideAssign | remainderAssign | bitAndAssign | bitOrAssign | bitXorAssign | shiftLeftAssign
  | shiftRightAssign | unsignedShiftRightAssign | logicalAndAssign | logicalOrAssign
  | coalesceAssign | logicalAnd | logicalOr | coalesce | increment | decrement | equal
  | strictEqual | less | greater | assign | not | bitNot | notEqual | strictNotEqual | lessOrEqual
  | greaterOrEqual | leftParen | leftBracket | leftBrace | comma | dot | rightParen | rightBracket
  | rightBrace | semicolon | colon | question | questionDot | arrow | ellipsis | at | name
  | boolean | null | ifKw | inKw | doKw | varKw | forKw | newKw | tryKw | thisKw | elseKw | caseKw
  | voidKw | withKw | constKw | whileKw | breakKw | catchKw | throwKw | classKw | superKw
  | awaitKw | yieldKw | returnKw | typeofKw | deleteKw | switchKw | exportKw | importKw
  | defaultKw | finallyKw | extendsKw | functionKw | continueKw | debuggerKw | instanceOfKw
  | letKw
deriving DecidableEq, Repr, Inhabited

namespace TokenKind

/-- The kinds in the order of their codes. -/
def all : List TokenKind :=
  [.undetermined, .illegal, .eof, .string, .number, .regExp, .template, .plus, .minus, .multiply,
   .exponent, .divide, .remainder, .bitAnd, .bitOr, .bitXor, .shiftLeft, .shiftRight,
   .unsignedShiftRight, .addAssign, .subtractAssign, .multiplyAssign, .exponentAssign,
   .divideAssign, .remainderAssign, .bitAndAssign, .bitOrAssign, .bitXorAssign, .shiftLeftAssign,
   .shiftRightAssign, .unsignedShiftRightAssign, .logicalAndAssign, .logicalOrAssign,
   .coalesceAssign, .logicalAnd, .logicalOr, .coalesce, .increment, .decrement, .equal,
   .strictEqual, .less, .greater, .assign, .not, .bitNot, .notEqual, .strictNotEqual,
   .lessOrEqual, .greaterOrEqual, .leftParen, .leftBracket, .leftBrace, .comma, .dot, .rightParen,
   .rightBracket, .rightBrace, .semicolon, .colon, .question, .questionDot, .arrow, .ellipsis,
   .at, .name, .boolean, .null, .ifKw, .inKw, .doKw, .varKw, .forKw, .newKw, .tryKw, .thisKw,
   .elseKw, .caseKw, .voidKw, .withKw, .constKw, .whileKw, .breakKw, .catchKw, .throwKw, .classKw,
   .superKw, .awaitKw, .yieldKw, .returnKw, .typeofKw, .deleteKw, .switchKw, .exportKw, .importKw,
   .defaultKw, .finallyKw, .extendsKw, .functionKw, .continueKw, .debuggerKw, .instanceOfKw,
   .letKw]

/-- The position of a kind in `all`. -/
def code (k : TokenKind) : Nat := k.ctorIdx

/-- The kind with the given code. -/
def ofCode? (n : Nat) : Option TokenKind := all[n]?

/-- The text of an operator, punctuator or word, and the description of any other kind. -/
def text : TokenKind → String
  | .undetermined => "UNKNOWN"
  | .illegal => "Illegal"
  | .eof => "Eof"
  | .string => "String"
  | .number => "Number"
  | .regExp => "RegExp"
  | .template => "Template"
  | .plus => "+"
  | .minus => "-"
  | .multiply => "*"
  | .exponent => "**"
  | .divide => "/"
  | .remainder => "%"
  | .bitAnd => "&"
  | .bitOr => "|"
  | .bitXor => "^"
  | .shiftLeft => "<<"
  | .shiftRight => ">>"
  | .unsignedShiftRight => ">>>"
  | .addAssign => "+="
  | .subtractAssign => "-="
  | .multiplyAssign => "*="
  | .exponentAssign => "**="
  | .divideAssign => "/="
  | .remainderAssign => "%="
  | .bitAndAssign => "&="
  | .bitOrAssign => "|="
  | .bitXorAssign => "^="
  | .shiftLeftAssign => "<<="
  | .shiftRightAssign => ">>="
  | .unsignedShiftRightAssign => ">>>="
  | .logicalAndAssign => "&&="
  | .logicalOrAssign => "||="
  | .coalesceAssign => "??="
  | .logicalAnd => "&&"
  | .logicalOr => "||"
  | .coalesce => "??"
  | .increment => "++"
  | .decrement => "--"
  | .equal => "=="
  | .strictEqual => "==="
  | .less => "<"
  | .greater => ">"
  | .assign => "="
  | .not => "!"
  | .bitNot => "~"
  | .notEqual => "!="
  | .strictNotEqual => "!=="
  | .lessOrEqual => "<="
  | .greaterOrEqual => ">="
  | .leftParen => "("
  | .leftBracket => "["
  | .leftBrace => "\x7b"
  | .comma => ","
  | .dot => "."
  | .rightParen => ")"
  | .rightBracket => "]"
  | .rightBrace => "\x7d"
  | .semicolon => ";"
  | .colon => ":"
  | .question => "?"
  | .questionDot => "?."
  | .arrow => "=>"
  | .ellipsis => "..."
  | .at => "@"
  | .name => "Identifier"
  | .boolean => "Boolean"
  | .null => "Null"
  | .ifKw => "if"
  | .inKw => "in"
  | .doKw => "do"
  | .varKw => "var"
  | .forKw => "for"
  | .newKw => "new"
  | .tryKw => "try"
  | .thisKw => "this"
  | .elseKw => "else"
  | .caseKw => "case"
  | .voidKw => "void"
  | .withKw => "with"
  | .constKw => "const"
  | .whileKw => "while"
  | .breakKw => "break"
  | .catchKw => "catch"
  | .throwKw => "throw"
  | .classKw => "class"
  | .superKw => "super"
  | .awaitKw => "await"
  | .yieldKw => "yield"
  | .returnKw => "return"
  | .typeofKw => "typeof"
  | .deleteKw => "delete"
  | .switchKw => "switch"
  | .exportKw => "export"
  | .importKw => "import"
  | .defaultKw => "default"
  | .finallyKw => "finally"
  | .extendsKw => "extends"
  | .functionKw => "function"
  | .continueKw => "continue"
  | .debuggerKw => "debugger"
  | .instanceOfKw => "instanceof"
  | .letKw => "let"

/-- The reserved words. -/
def words : List (String × TokenKind) :=
  [("if", .ifKw), ("in", .inKw), ("do", .doKw), ("var", .varKw), ("for", .forKw), ("new", .newKw),
   ("try", .tryKw), ("this", .thisKw), ("else", .elseKw), ("case", .caseKw), ("void", .voidKw),
   ("with", .withKw), ("const", .constKw), ("while", .whileKw), ("break", .breakKw),
   ("catch", .catchKw), ("throw", .throwKw), ("class", .classKw), ("super", .superKw),
   ("await", .awaitKw), ("yield", .yieldKw), ("return", .returnKw), ("typeof", .typeofKw),
   ("delete", .deleteKw), ("switch", .switchKw), ("export", .exportKw), ("import", .importKw),
   ("default", .defaultKw), ("finally", .finallyKw), ("extends", .extendsKw),
   ("function", .functionKw), ("continue", .continueKw), ("debugger", .debuggerKw),
   ("instanceof", .instanceOfKw), ("true", .boolean), ("false", .boolean), ("null", .null)]

/-- The kind of a reserved word. -/
def ofWord? (w : String) : Option TokenKind := words.lookup w

/-- The binding power of a binary operator, and `0` for every other kind.  The `in` operator binds only
where `allowIn` holds, so that the head of a loop can stop before it. -/
def precedence (k : TokenKind) (allowIn : Bool) : Nat :=
  match k with
  | .coalesce => 1
  | .logicalOr => 2
  | .logicalAnd => 3
  | .bitOr => 4
  | .bitXor => 5
  | .bitAnd => 6
  | .equal | .notEqual | .strictEqual | .strictNotEqual => 7
  | .less | .greater | .lessOrEqual | .greaterOrEqual | .instanceOfKw => 8
  | .inKw => if allowIn then 8 else 0
  | .shiftLeft | .shiftRight | .unsignedShiftRight => 9
  | .plus | .minus => 10
  | .multiply | .divide | .remainder => 11
  | .exponent => 12
  | _ => 0

/-- Whether the kind is one of the three short-circuiting operators. -/
def isLogical (k : TokenKind) : Bool :=
  k = .logicalAnd || k = .logicalOr || k = .coalesce

/-- Whether the kind is `=` or a compound assignment. -/
def isAssign (k : TokenKind) : Bool :=
  k = .assign || (addAssign.code ≤ k.code && k.code ≤ coalesceAssign.code)

/-- Whether a token of this kind can name a property. -/
def isName (k : TokenKind) : Bool := name.code ≤ k.code

/-- Whether a token of this kind is reserved. -/
def isReserved (k : TokenKind) : Bool := name.code < k.code

end TokenKind

/-- What is known of a code, whether or not a kind has it. -/
structure TokenFacts where
  code : Nat
  text : String
  isName : Bool
  isReserved : Bool
  precedence : Nat
  precedenceIn : Nat
  isLogical : Bool
  isAssign : Bool
deriving Repr, DecidableEq

/-- The facts of a kind. -/
def TokenKind.facts (k : TokenKind) : TokenFacts where
  code := k.code
  text := k.text
  isName := k.isName
  isReserved := k.isReserved
  precedence := k.precedence false
  precedenceIn := k.precedence true
  isLogical := k.isLogical
  isAssign := k.isAssign

/-- The facts of a code; one that no kind has counts as reserved and binds nothing. -/
def TokenFacts.ofCode (n : Nat) : TokenFacts :=
  match TokenKind.ofCode? n with
  | some k => k.facts
  | none =>
    { code := n, text := s!"token({n})", isName := true, isReserved := true, precedence := 0,
      precedenceIn := 0, isLogical := false, isAssign := false }

end Deadwood
