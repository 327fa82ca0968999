/-!
# Built-in names

The members that the built-in prototypes give to values, and the globals that every environment has.
-/

namespace Deadwood.Builtin

def objectMembers : List String :=
  ["constructor", "__proto__", "__defineGetter__", "__defineSetter__", "__lookupGetter__",
   "__lookupSetter__", "hasOwnProperty", "isPrototypeOf", "propertyIsEnumerable", "toLocaleString",
   "toString", "valueOf", "watch", "unwatch"]

def arrayMembers : List String :=
  ["constructor", "length", "at", "concat", "copyWithin", "entries", "every", "fill", "filter", "find",
   "findIndex", "findLast", "findLastIndex", "flat", "flatMap", "forEach", "includes", "indexOf", "join",
   "keys", "lastIndexOf", "map", "pop", "push", "reduce", "reduceRight", "reverse", "shift", "slice",
   "some", "sort", "splice", "toLocaleString", "toReversed", "toSorted", "toSpliced", "toString",
   "unshift", "values", "with"]

def stringMembers : List String :=
  ["constructor", "length", "anchor", "at", "big", "blink", "bold", "charAt", "charCodeAt",
   "codePointAt", "concat", "endsWith", "fixed", "fontcolor", "fontsize", "includes", "indexOf",
   "isWellFormed", "italics", "lastIndexOf", "link", "localeCompare", "match", "matchAll", "normalize",
   "padEnd", "padStart", "repeat", "replace", "replaceAll", "search", "slice", "small", "split",
   "startsWith", "strike", "sub", "substr", "substring", "sup", "toLocaleLowerCase",
   "toLocaleUpperCase", "toLowerCase", "toString", "toUpperCase", "toWellFormed", "trim", "trimEnd",
   "trimStart", "valueOf"]

def numberMembers : List String :=
  ["constructor", "toExponential", "toFixed", "toLocaleString", "toPrecision", "toString", "valueOf"]

def booleanMembers : List String :=
  ["constructor", "toString", "valueOf"]

/-- The functions of the `Math` object. -/
def mathMembers : List String :=
  ["abs", "acos", "acosh", "asin", "asinh", "atan", "atan2", "atanh", "cbrt", "ceil", "clz32", "cos",
   "cosh", "exp", "expm1", "floor", "fround", "hypot", "imul", "log", "log10", "log1p", "log2", "max",
   "min", "pow", "random", "round", "sign", "sin", "sinh", "sqrt", "tan", "tanh", "trunc"]

/-- The methods of a string literal whose calls have no effect. -/
def pureStringMethods : List String :=
  ["charAt", "charCodeAt", "concat", "endsWith", "includes", "indexOf", "lastIndexOf", "localeCompare",
   "slice", "split", "startsWith", "substr", "substring", "toLocaleLowerCase", "toLocaleUpperCase",
   "toLowerCase", "toString", "toUpperCase", "trim", "trimEnd", "trimStart"]

/-- The globals that can always be read. -/
def globals : List String :=
  ["Infinity", "NaN", "undefined", "Math", "JSON", "Date", "Object", "Array", "Promise", "Boolean",
   "Number", "String", "BigInt", "Symbol", "Error", "RegExp", "Function", "globalThis"]

def isObjectMember (name : String) : Bool := objectMembers.contains name

def isArrayMember (name : String) : Bool := arrayMembers.contains name || isObjectMember name

def isStringMember (name : String) : Bool := stringMembers.contains name || isObjectMember name

def isNumberMember (name : String) : Bool := numberMembers.contains name || isObjectMember name

def isBooleanMember (name : String) : Bool := booleanMembers.contains name || isObjectMember name

end Deadwood.Builtin
