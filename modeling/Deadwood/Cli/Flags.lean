import Deadwood.Text.Printable
import Deadwood.Number.Decimal

/-!
# Flags

A flag is a name behind one dash or two.  A switch may carry a truth value behind `=`; every other flag
takes its value from behind `=` or from the next argument.  Flags end at the first argument that is none,
or at `--`.
-/

namespace Deadwood.Cli

inductive Flag
  | config | maxIter | noConfig | output | stats | verbose | version | write | watch
deriving DecidableEq, Repr, Inhabited

/-- What a flag takes. -/
inductive FlagKind
  | toggle | text | int
deriving DecidableEq, Repr, Inhabited

namespace Flag

def all : List Flag := [config, maxIter, noConfig, output, stats, verbose, version, write, watch]

def name : Flag → String
  | config => "config"
  | maxIter => "max-iter"
  | noConfig => "no-config"
  | output => "o"
  | stats => "stats"
  | verbose => "v"
  | version => "version"
  | write => "w"
  | watch => "watch"

def kind : Flag → FlagKind
  | config | output => .text
  | maxIter => .int
  | _ => .toggle

def help : Flag → String
  | config => "explicit config file"
  | maxIter => "cap fixpoint iterations (0 = unbounded)"
  | noConfig => "ignore config files"
  | output => "output file (single input)"
  | stats => "print a summary of the rewrites to stderr"
  | verbose => "debug logging"
  | version => "print version and exit"
  | write => "rewrite input files in place"
  | watch => "watch input files and re-run on change"

def ofName? (s : String) : Option Flag := all.find? fun f => f.name = s

/-- The lines on a flag.  A switch of one letter leaves room for its help on the same line. -/
def usage (f : Flag) : String :=
  let head := "  -" ++ f.name ++
    (match f.kind with | .toggle => "" | .text => " string" | .int => " int")
  head ++ (if head.length ≤ 4 then "\t" else "\n    \t") ++ f.help ++ "\n"

end Flag

def usage : String :=
  "usage: jsdce [flags] [file ...]\n" ++ String.join (Flag.all.map Flag.usage)

structure Flags where
  output : String := ""
  write : Bool := false
  watch : Bool := false
  config : String := ""
  noConfig : Bool := false
  maxIter : Int := 0
  stats : Bool := false
  verbose : Bool := false
  version : Bool := false
  /-- The flags that were given. -/
  given : List Flag := []
deriving DecidableEq, Repr, Inhabited

/-- Why a value is refused. -/
inductive ValueFault
  | unreadable | outOfRange
deriving DecidableEq, Repr, Inhabited

def ValueFault.text : ValueFault → String
  | unreadable => "parse error"
  | outOfRange => "value out of range"

inductive FlagFault
  | badForm (arg : String)
  | unknown (name : String)
  | noValue (flag : Flag)
  | badToggle (value : String) (flag : Flag)
  | badValue (value : String) (flag : Flag) (fault : ValueFault)
deriving DecidableEq, Repr, Inhabited

def FlagFault.message : FlagFault → String
  | badForm arg => "bad flag syntax: " ++ arg
  | unknown name => "flag provided but not defined: -" ++ name
  | noValue flag => "flag needs an argument: -" ++ flag.name
  | badToggle value flag =>
    "invalid boolean value " ++ Text.display value ++ " for -" ++ flag.name ++ ": " ++
      ValueFault.unreadable.text
  | badValue value flag fault =>
    "invalid value " ++ Text.display value ++ " for flag -" ++ flag.name ++ ": " ++ fault.text

/-! ### Values -/

def bool? (s : String) : Option Bool :=
  if ["1", "t", "T", "true", "TRUE", "True"].contains s then some true
  else if ["0", "f", "F", "false", "FALSE", "False"].contains s then some false
  else none

/-- The value of a digit or letter in a base of up to thirty-six. -/
def digit? (c : Char) : Option Nat :=
  if c.isDigit then some (c.toNat - '0'.toNat)
  else if c.isAlpha then some (c.toLower.toNat - 'a'.toNat + 10)
  else none

/-- The base that the front of a number announces, with the digits behind it. -/
def splitBase (cs : List Char) : Nat × List Char :=
  match cs with
  | '0' :: c :: d :: rest =>
    if c.toLower = 'b' then (2, d :: rest)
    else if c.toLower = 'o' then (8, d :: rest)
    else if c.toLower = 'x' then (16, d :: rest)
    else (8, c :: d :: rest)
  | '0' :: rest => (8, rest)
  | cs => (10, cs)

/-- Sums digits up to 64 bits and skips underscores. -/
def sumDigits (base : Nat) : Nat → List Char → Except ValueFault Nat
  | n, [] => .ok n
  | n, '_' :: cs => sumDigits base n cs
  | n, c :: cs =>
    match digit? c with
    | none => .error .unreadable
    | some d =>
      if base ≤ d then .error .unreadable
      else if Nat.pow 2 64 ≤ n * base + d then .error .outOfRange
      else sumDigits base (n * base + d) cs

/-- Whether every underscore stands between digits; `afterDigit` tells whether a digit or a base comes
before the text. -/
def underscoresFit : Bool → List Char → Bool
  | _, [] => true
  | _, ['_'] => false
  | afterDigit, '_' :: cs => afterDigit && underscoresFit false cs
  | _, _ :: cs => underscoresFit true cs

/-- A natural number of at most 64 bits in the base that it announces. -/
def nat (cs : List Char) : Except ValueFault Nat := do
  if cs.isEmpty then .error .unreadable
  let (base, digits) := splitBase cs
  let n ← sumDigits base 0 digits
  if underscoresFit (base ≠ 10) digits then .ok n else .error .unreadable

/-- An integer of 64 bits. -/
def int (s : String) : Except ValueFault Int :=
  let (negative, cs) := match s.toList with
    | '-' :: cs => (true, cs)
    | '+' :: cs => (false, cs)
    | cs => (false, cs)
  match nat cs with
  | .error fault => .error fault
  | .ok n =>
    if negative then if Nat.pow 2 63 < n then .error .outOfRange else .ok (-n)
    else if Nat.pow 2 63 ≤ n then .error .outOfRange
    else .ok n

/-! ### Arguments -/

def Flags.setBool (f : Flags) (b : Bool) : Flag → Flags
  | .noConfig => { f with noConfig := b }
  | .stats => { f with stats := b }
  | .verbose => { f with verbose := b }
  | .version => { f with version := b }
  | .write => { f with write := b }
  | .watch => { f with watch := b }
  | _ => f

/-- Gives a flag its value. -/
def Flags.set (f : Flags) (flag : Flag) (value : String) : Except FlagFault Flags :=
  let f := { f with given := flag :: f.given }
  match flag.kind with
  | .toggle =>
    match bool? value with
    | some b => .ok (f.setBool b flag)
    | none => .error (.badToggle value flag)
  | .text => .ok (if flag = .output then { f with output := value } else { f with config := value })
  | .int =>
    match int value with
    | .ok n => .ok { f with maxIter := n }
    | .error fault => .error (.badValue value flag fault)

/-- The name and the value of a flag, where the value is behind `=`. -/
def splitValue (cs : List Char) : String × Option String :=
  match cs with
  | [] => ("", none)
  | c :: cs =>
    let name := String.ofList (c :: cs.takeWhile (· ≠ '='))
    match cs.dropWhile (· ≠ '=') with
    | [] => (name, none)
    | _ :: value => (name, some (String.ofList value))

/-- What an argument is. -/
inductive Arg
  | operand
  | terminator
  | bad
  | flag (name : String) (value : Option String)
deriving DecidableEq, Repr, Inhabited

def Arg.ofString (s : String) : Arg :=
  let named := fun (cs : List Char) =>
    match cs.head? with
    | none | some '-' | some '=' => .bad
    | _ => let (name, value) := splitValue cs; .flag name value
  match s.toList with
  | ['-', '-'] => .terminator
  | '-' :: '-' :: cs => named cs
  | '-' :: c :: cs => named (c :: cs)
  | _ => .operand

/-- How the reading of arguments ends. -/
inductive Reading
  | ok (flags : Flags) (files : List String)
  | help
  | fault (f : FlagFault)
deriving DecidableEq, Repr, Inhabited

/-- Reads arguments; `pending` is a flag that waits for its value. -/
def readArgs (f : Flags) (pending : Option Flag) : List String → Reading
  | [] =>
    match pending with
    | none => .ok f []
    | some flag => .fault (.noValue flag)
  | arg :: args =>
    match pending with
    | some flag =>
      match f.set flag arg with
      | .ok f => readArgs f none args
      | .error e => .fault e
    | none =>
      match Arg.ofString arg with
      | .operand => .ok f (arg :: args)
      | .terminator => .ok f args
      | .bad => .fault (.badForm arg)
      | .flag name value =>
        match Flag.ofName? name with
        | none => if name = "help" || name = "h" then .help else .fault (.unknown name)
        | some flag =>
          match value, flag.kind with
          | some value, _ =>
            match f.set flag value with
            | .ok f => readArgs f none args
            | .error e => .fault e
          | none, .toggle =>
            match f.set flag "true" with
            | .ok f => readArgs f none args
            | .error e => .fault e
          | none, _ => readArgs f (some flag) args

def Reading.ofArgs (args : List String) : Reading := readArgs {} none args

end Deadwood.Cli
