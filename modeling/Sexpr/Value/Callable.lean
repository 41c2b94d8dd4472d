/-!
# Sexpr.Value.Callable

What callable values, special forms and data types consist of.

All of it is plain data.  The functions of the language itself are named by
`Primitive`, its special forms by `Rule`; what a host adds is named by a key, and
the host that runs an evaluation says what the key means (`Sexpr.Host`).
-/

namespace Sexpr

/-- The name of a symbol.  Symbols with the same spelling are the same symbol. -/
abbrev Symbol := String

/-- What tells an object from every other object, also from one with the same contents. -/
abbrev Ident := Nat

/-- How many arguments a function takes. -/
inductive Arity where
  | exact (n : Nat)
  | atLeast (n : Nat)
  | range (low high : Nat)
  deriving DecidableEq, Repr, Inhabited

/-- Whether a number of arguments is allowed. -/
def Arity.allows : Arity → Nat → Bool
  | .exact n, k => k == n
  | .atLeast n, k => n ≤ k
  | .range low high, k => low ≤ k && k ≤ high

/-- The kinds of value that programs can ask for. -/
inductive Kind where
  | boolean
  | number
  | string
  | symbol
  | regexp
  | set
  | array
  | object
  | function
  | undefined
  | atom
  | list
  deriving DecidableEq, Repr, Inhabited

namespace Kind

/-- All kinds, in the order in which they are registered. -/
def all : List Kind :=
  [.boolean, .number, .string, .symbol, .regexp, .set, .array, .object, .function, .undefined,
    .atom, .list]

def name : Kind → String
  | .boolean => "boolean"
  | .number => "number"
  | .string => "string"
  | .symbol => "symbol"
  | .regexp => "regexp"
  | .set => "set"
  | .array => "array"
  | .object => "object"
  | .function => "function"
  | .undefined => "undefined"
  | .atom => "atom"
  | .list => "list"

end Kind

/-- The functions of the language that need nothing but their arguments. -/
inductive Primitive where
  | car | cdr | cons | caar | cadr | caddr | cddr | cdar | eq | null
  | equal | append | reverse | member | pair | assoc | subst | sublis | pairlis | length
  | firstLeaf | lastLeaf | flatten
  | identity | not | xor
  | add | sub | mul | div | rem | pow | lt | gt | le | ge | numEq
  | makeSet | setAdd | setContains | makeArray | arrayRef | makeObject | objectGet
  | makeRegexp | regexpMatch
  | isKind (k : Kind)
  deriving DecidableEq, Repr, Inhabited

/-- What runs when a native function is called. -/
inductive Code where
  | primitive (p : Primitive)
  /-- Forces a tagged value, in the environment of the caller. -/
  | unwrap
  | host (key : Nat)
  deriving DecidableEq, Repr, Inhabited

/-- Which values a data type accepts. -/
inductive Guard where
  | kind (k : Kind)
  | literal (b : Bool)
  | host (key : Nat)
  deriving DecidableEq, Repr, Inhabited

/-- What a data type makes of an accepted value when it is forced. -/
inductive Maker where
  | identity
  | host (key : Nat)
  deriving DecidableEq, Repr, Inhabited

/-- A data type: a label, a guard and a constructor. -/
structure DataType where
  ident : Ident
  label : Symbol
  guard : Guard
  maker : Maker
  deriving DecidableEq, Repr, Inhabited

/-- What a special form does with its unevaluated arguments. -/
inductive Rule where
  | quote
  | cond
  | lambda
  | label
  | define
  | and
  | or
  | host (key : Nat)
  deriving DecidableEq, Repr, Inhabited

/-- A special form. -/
structure Form where
  ident : Ident
  name : Symbol
  rule : Rule
  deriving DecidableEq, Repr, Inhabited

/-- An environment: a chain of frames, the innermost first, in a session.  The frames themselves
are in the `World`, so environments that share a frame see each other's bindings. -/
structure Env where
  session : Nat
  frame : Nat
  outer : List Nat
  deriving DecidableEq, Repr, Inhabited

/-- The frames of an environment, the innermost first. -/
def Env.frames (env : Env) : List Nat := env.frame :: env.outer

end Sexpr
