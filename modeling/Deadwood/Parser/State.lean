import Deadwood.Lexer
import Deadwood.Syntax.Access

/-!
# The state of a parser

A parser holds the current token, the scopes around it and the faults found so far.  It may go back to a
place it has marked, and what was read or reported since is undone.  The scopes are not: whoever changes
them for a while has to put them right again.
-/

namespace Deadwood.Parser

/-- What the surrounding syntax allows. -/
structure Context where
  allowIn : Bool := true
  inLoop : Bool := false
  inSwitch : Bool := false
  inFunction : Bool := false
  allowAwait : Bool := false
  allowYield : Bool := false
  inClass : Bool := false
  /-- The labels of the enclosing statements. -/
  labels : List String := []
deriving DecidableEq, Repr, Inhabited

/-- The context of a function body: labels and loops stay outside, classes do not. -/
def Context.function (async generator : Bool) (c : Context) : Context :=
  { inFunction := true, allowAwait := async, allowYield := generator, inClass := c.inClass }

/-- The contexts of the functions around a place. -/
structure Scopes where
  inner : Context
  /-- The contexts around the innermost one, from the inside out. -/
  outer : List Context := []
deriving DecidableEq, Repr, Inhabited

namespace Scopes

/-- Changes the innermost context. -/
def change (f : Context → Context) (c : Scopes) : Scopes := { c with inner := f c.inner }

/-- The scopes inside of a function. -/
def openFunction (async generator : Bool) (c : Scopes) : Scopes where
  inner := .function async generator c.inner
  outer := c.inner :: c.outer

/-- The scopes outside of the innermost function. -/
def closeFunction : Scopes → Scopes
  | ⟨_, outer :: cs⟩ => ⟨outer, cs⟩
  | ⟨inner, []⟩ => ⟨inner, []⟩

end Scopes

structure State where
  token : Token
  /-- The offset behind the token before. -/
  prevEnd : Nat
  scopes : Scopes
  /-- The offset of the first shorthand initializer that no pattern has claimed yet. -/
  unclaimed : Option Nat
  /-- The faults found so far, in order. -/
  faults : List Fault
  /-- Whether a bound on the number of steps was ever reached. -/
  starved : Bool
deriving Inhabited

/-- What the syntax around a place allows. -/
def State.context (s : State) : Context := s.scopes.inner

/-- The number of faults after which parsing stops. -/
def maxFaults : Nat := 10

/-- Whether so many faults were found that parsing stops. -/
def State.failed (s : State) : Bool := maxFaults ≤ s.faults.length

/-- The state at the start of a text. -/
def State.ofString (text : String) : State :=
  let (token, faults) := Token.scan (Cursor.ofString text)
  { token, prevEnd := 0, scopes := { inner := { allowAwait := true } }, unclaimed := none, faults, starved := false }

end Parser

/-- A parser of values of type `α`. -/
abbrev Parser := StateM Parser.State

namespace Parser

def token : Parser Token := do return (← get).token

def kind : Parser TokenKind := do return (← get).token.kind

def context : Parser Context := do return (← get).context

def failed : Parser Bool := do return (← get).failed

/-- Reports a cause at an offset. -/
def reportAt (offset : Nat) (cause : Cause) : Parser Unit :=
  modify fun s => { s with faults := s.faults ++ [⟨offset, cause⟩] }

/-- Reports a cause at the current token. -/
def report (cause : Cause) : Parser Unit := do
  reportAt (← token).offset cause

/-- Why a token is not what the grammar asks for. -/
def unexpectedCause (t : Token) : Cause :=
  match t.kind with
  | .eof => .endOfInput
  | .boolean | .null => .unexpectedToken t.lexeme
  | .name => .unexpectedName
  | .number => .unexpectedNumber
  | .string => .unexpectedString
  | .template => .unexpectedTemplate
  | k => if TokenKind.null.code < k.code then .reservedWord else .unexpectedToken k.text

def unexpected (t : Token) : Parser Unit := reportAt t.offset (unexpectedCause t)

/-- Reports that the current token does not fit. -/
def unexpectedHere : Parser Unit := do
  unexpected (← token)

/-- Goes to the next token. -/
def next : Parser Unit :=
  modify fun s =>
    let (token, faults) := Token.scan s.token.finish
    { s with token, prevEnd := s.token.finish.offset, faults := s.faults ++ faults }

/-- A place to which a parser may go back. -/
structure Checkpoint where
  token : Token
  prevEnd : Nat
  /-- The number of faults found before. -/
  faults : Nat
  unclaimed : Option Nat

def State.checkpoint (s : State) : Checkpoint where
  token := s.token
  prevEnd := s.prevEnd
  faults := s.faults.length
  unclaimed := s.unclaimed

def checkpoint : Parser Checkpoint := do return (← get).checkpoint

/-- Goes back to a checkpoint and forgets the faults found since.  The scopes stay as they are. -/
def restore (m : Checkpoint) : Parser Unit :=
  modify fun s => { s with
    token := m.token
    prevEnd := m.prevEnd
    faults := s.faults.take m.faults
    unclaimed := m.unclaimed }

/-- Where the scopes are as they were and no fault was lost, nothing has happened since the checkpoint. -/
theorem restore_checkpoint {s t : State} (hscopes : t.scopes = s.scopes) (hfaults : s.faults <+: t.faults) :
    restore s.checkpoint t = ((), { s with starved := t.starved }) := by
  have htake : t.faults.take s.faults.length = s.faults := (List.prefix_iff_eq_take.1 hfaults).symm
  cases s
  cases t
  cases hscopes
  exact congrArg (fun faults => ((), (State.mk _ _ _ _ faults _ : State))) htake

/-- The token after the current one. -/
def peek : Parser Token := do
  let m ← checkpoint
  next
  let t ← token
  restore m
  return t

theorem run_peek (s : State) : peek s = ((Token.scan s.token.finish).1, s) := by
  have hback : restore s.checkpoint (next s).2 = ((), s) := restore_checkpoint rfl (List.prefix_append _ _)
  exact congrArg (fun r => ((Token.scan s.token.finish).1, r.2)) hback

/-- Whether the current token is the given word, written without escapes. -/
def isWord (w : String) : Parser Bool := do
  let t ← token
  return t.kind = .name && t.value = w && t.lexeme = w

def expect (k : TokenKind) : Parser Unit := do
  if (← kind) ≠ k then unexpectedHere
  next

def expectWord (w : String) : Parser Unit := do
  if !(← isWord w) then unexpectedHere
  next

/-- Takes the current token if it is of the given kind, and tells whether it was. -/
def accept (k : TokenKind) : Parser Bool := do
  if (← kind) = k then
    next
    return true
  else
    return false

/-- Whether a statement may end before a token. -/
def endsStatement (t : Token) : Bool :=
  t.kind = .semicolon || t.kind = .rightBrace || t.kind = .eof || t.onNewLine

/-- Takes the end of a statement, which may be left out where the grammar allows. -/
def semicolon : Parser Unit := do
  let t ← token
  if t.kind = .semicolon then next
  else if !endsStatement t then
    unexpected t
    next

/-- A part of a context that is changed for a while. -/
structure Setting (σ : Type) where
  get : Context → σ
  put : σ → Context → Context
  /-- What was read before a change undoes the change. -/
  put_get : ∀ v c, put (get c) (put v c) = c

namespace Setting

def allowIn : Setting Bool := ⟨(·.allowIn), fun v c => { c with allowIn := v }, fun _ _ => rfl⟩

def inLoop : Setting Bool := ⟨(·.inLoop), fun v c => { c with inLoop := v }, fun _ _ => rfl⟩

def inSwitch : Setting Bool := ⟨(·.inSwitch), fun v c => { c with inSwitch := v }, fun _ _ => rfl⟩

def inClass : Setting Bool := ⟨(·.inClass), fun v c => { c with inClass := v }, fun _ _ => rfl⟩

/-- Whether `await` and `yield` are operators. -/
def operators : Setting (Bool × Bool) :=
  ⟨fun c => (c.allowAwait, c.allowYield), fun v c => { c with allowAwait := v.1, allowYield := v.2 }, fun _ _ => rfl⟩

end Setting

/-- Changes the scopes. -/
def changeScopes (f : Scopes → Scopes) : Parser Unit := modify fun s => { s with scopes := f s.scopes }

/-- Runs a parser in another setting, and puts back the one that was read before. -/
def inSetting {σ α : Type} (t : Setting σ) (v : σ) (p : Parser α) : Parser α := do
  let old := t.get (← context)
  changeScopes (.change (t.put v))
  let a ← p
  changeScopes (.change (t.put old))
  return a

/-- Runs a parser where the `in` operator is allowed. -/
def withIn {α : Type} (p : Parser α) : Parser α := inSetting .allowIn true p

/-- Runs a parser inside of a statement with a label, which is the last of the labels around. -/
def inLabel {α : Type} (label : String) (p : Parser α) : Parser α := do
  changeScopes (.change fun c => { c with labels := c.labels ++ [label] })
  let a ← p
  changeScopes (.change fun c => { c with labels := c.labels.dropLast })
  return a

/-- Runs a parser inside of a function. -/
def inFunction {α : Type} (async generator : Bool) (p : Parser α) : Parser α := do
  changeScopes (.openFunction async generator)
  let a ← p
  changeScopes .closeFunction
  return a

/-- Notes that a bound on the number of steps was reached. -/
def starve : Parser Unit := modify fun s => { s with starved := true }

/-- Repeats `step` while `go` holds and the step asks for more, at most `n` times. -/
def many {α : Type} (go : Parser Bool) (step : α → Parser (α × Bool)) : Nat → α → Parser α
  | 0, a => do
    starve
    return a
  | n + 1, a => do
    if ← go then
      let (a, more) ← step a
      if more then many go step n a else return a
    else
      return a

/-- Whether a bracketed list goes on: neither its closing token nor the end of the text is reached, and
parsing has not failed. -/
def isOpen (closing : TokenKind) : Parser Bool := do
  let s ← get
  return s.token.kind ≠ closing && s.token.kind ≠ .eof && !s.failed

/-- The items of a bracketed list, each followed by a comma unless it is the last. -/
def commaList {α : Type} (closing : TokenKind) (item : Parser α) (n : Nat) : Parser (List α) := do
  let items ← many (isOpen closing) (fun items => do
    let a ← item
    if (← kind) ≠ closing then expect .comma
    return (a :: items, true)) n []
  return items.reverse

/-- The items up to a closing token. -/
def itemList {α : Type} (closing : TokenKind) (item : Parser α) (n : Nat) : Parser (List α) := do
  let items ← many (isOpen closing) (fun items => do
    let a ← item
    return (a :: items, true)) n []
  return items.reverse

/-- The productions that take part in recursion. -/
inductive Goal
  | assignment
  /-- Binary expressions whose operators bind tighter than `above`. -/
  | binary (above : Nat)
  | unary
  | leftHand
  | newExpr
  | target
  | statement
  | item
deriving DecidableEq, Repr, Inhabited

/-- What a production gives. -/
abbrev Goal.Result : Goal → Type
  | target => Pattern
  | statement => Stmt
  | item => Stmt
  | _ => Expr

/-- The recursive productions as they are seen from inside another one, with a bound on the number of
steps of a loop. -/
structure Sub where
  fuel : Nat
  run : (g : Goal) → Parser g.Result

namespace Sub

def assignment (sub : Sub) : Parser Expr := sub.run .assignment

def binary (sub : Sub) (above : Nat) : Parser Expr := sub.run (.binary above)

def unary (sub : Sub) : Parser Expr := sub.run .unary

def leftHand (sub : Sub) : Parser Expr := sub.run .leftHand

def newExpr (sub : Sub) : Parser Expr := sub.run .newExpr

def target (sub : Sub) : Parser Pattern := sub.run .target

def statement (sub : Sub) : Parser Stmt := sub.run .statement

def item (sub : Sub) : Parser Stmt := sub.run .item

end Sub

/-! ### Names -/

/-- Whether a name is private. -/
def isPrivate (name : String) : Bool := name.startsWith "#"

/-- A name that is bound or referred to. -/
def identifier : Parser Ident := do
  let t ← token
  let c ← context
  let fits := t.kind = .name || (t.kind = .awaitKw && !c.allowAwait) ||
    (t.kind = .yieldKw && !c.allowYield)
  if !fits then unexpected t
  next
  return { name := t.value }

/-- Whether the current token can name a binding. -/
def isBindingName : Parser Bool := do
  let t ← token
  let c ← context
  match t.kind with
  | .name => return !isPrivate t.value
  | .awaitKw => return !c.allowAwait
  | .yieldKw => return !c.allowYield
  | _ => return false

/-- The name after a dot, which may be reserved or private. -/
def propertyName : Parser Ident := do
  let t ← token
  if !t.kind.isName then
    unexpected t
    next
    return { name := "" }
  if isPrivate t.value && !(← context).inClass then report (.undeclaredPrivate t.value)
  next
  return { name := t.value }

/-- Whether the current word modifies the property after it rather than naming a property itself. -/
def isModifier (w : String) : Parser Bool := do
  if !(← isWord w) then return false
  let t ← peek
  match t.kind with
  | .comma | .colon | .leftParen | .rightBrace | .assign | .semicolon | .eof => return false
  | _ => return !(w = "async" && t.onNewLine)

end Deadwood.Parser
