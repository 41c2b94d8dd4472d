import Sexpr.Number.Arithmetic
import Sexpr.Value.Printer

/-!
# Sexpr.Fault

Why an operation failed.

A fault has a cause, the name of the operation that raised it, and the expression
that was being evaluated, when there is one.  The wording of every cause is in
`Cause.message`, and its category in `Cause.category`.  Of an expression only as much is kept
as the text of a fault can show.
-/

namespace Sexpr

/-- The categories of faults. -/
inductive Category where
  /-- An unbound symbol, an unrecognized expression, a limit, something applied that is no
  function. -/
  | evaluation
  /-- A wrong number of arguments or lists of different lengths. -/
  | signature
  /-- A value of the wrong type. -/
  | type
  /-- A value out of range, or a malformed tagged value. -/
  | value
  /-- A malformed special form or argument list. -/
  | syntactic
  /-- Definitions that cannot be merged. -/
  | module
  deriving DecidableEq, Repr, Inhabited

/-- The word for a category. -/
def Category.word : Category → String
  | .evaluation => "EVALUATION"
  | .signature => "SIGNATURE"
  | .type => "TYPE"
  | .value => "VALUE"
  | .syntactic => "SYNTAX"
  | .module => "MODULE"

/-- What went wrong. -/
inductive Cause where
  | depthExceeded (limit : Nat)
  | unfoldingsExceeded (name : Symbol) (limit : Nat)
  /-- Functions of the host apply functions inside each other until the machine has no room for
  more.  This ends the whole process. -/
  | exhausted
  | unbound (name : Symbol)
  | unrecognized
  /-- Something applied is no function, nor does it evaluate to one. -/
  | irreducible (callable : Value)
  | wrongArity (arity : Arity) (given : Nat)
  | unequalLengths (x y : Nat)
  | expected (what : String) (got : Value)
  | improperList (tail : Value)
  | improperEntry (entry : Value)
  | improperKey (key : Value)
  /-- The guard of a data type rejected a value. -/
  | rejected (label : Symbol) (v : Value)
  | divisionByZero
  | powerTooLarge (base : Number) (exponent : Nat)
  | outOfBounds (index length : Nat)
  /-- A pattern was refused, with an explanation. -/
  | invalidPattern (source explanation : String)
  | undeclared (v : Value)
  | notADataType (v : Value)
  | unregistered (label : Symbol)
  /-- The arguments of a call do not form a list. -/
  | malformedCall (tail : Value)
  /-- The arguments of a special form do not form a list. -/
  | malformedForm (args : Value)
  | wrongFormArity (low : Nat) (high : Option Nat) (given : Nat)
  | expectedSymbol (got : Value)
  | misfiledForm (own key : Symbol)
  | misfiledType (own key : Symbol)
  | noExports (typeWord : String)
  | malformedExport (entry : Value)
  | improperExportKey (key : Value)
  | improperExports (tail : Value)
  /-- A fault of the host. -/
  | custom (category : Category) (message : String)
  deriving Inhabited

/-- The ending of "argument" after a number. -/
def plural (n : Nat) : String := if n = 1 then "" else "s"

/-- The numbers of arguments that an arity allows, in words. -/
def Arity.words : Arity → String
  | .exact n => n.repr ++ " argument" ++ plural n
  | .atLeast n => "at least " ++ n.repr ++ " argument" ++ plural n
  | .range low high => low.repr ++ "-" ++ high.repr ++ " arguments"

/-- The numbers of arguments that a special form allows, in words. -/
def formArityWords (low : Nat) : Option Nat → String
  | some high => if high = low then low.repr else low.repr ++ "-" ++ high.repr
  | none => "at least " ++ low.repr

namespace Cause

/-- The category of a cause. -/
def category : Cause → Category
  | .depthExceeded _ => .evaluation
  | .unfoldingsExceeded .. => .evaluation
  | .exhausted => .evaluation
  | .unbound _ => .evaluation
  | .unrecognized => .evaluation
  | .irreducible _ => .evaluation
  | .wrongArity .. => .signature
  | .unequalLengths .. => .signature
  | .expected .. => .type
  | .improperList _ => .type
  | .improperEntry _ => .type
  | .improperKey _ => .type
  | .rejected .. => .type
  | .divisionByZero => .value
  | .powerTooLarge .. => .value
  | .outOfBounds .. => .value
  | .invalidPattern .. => .value
  | .undeclared _ => .value
  | .notADataType _ => .value
  | .unregistered _ => .value
  | .malformedCall _ => .syntactic
  | .malformedForm _ => .syntactic
  | .wrongFormArity .. => .syntactic
  | .expectedSymbol _ => .syntactic
  | .misfiledForm .. => .module
  | .misfiledType .. => .module
  | .noExports _ => .module
  | .malformedExport _ => .module
  | .improperExportKey _ => .module
  | .improperExports _ => .module
  | .custom category _ => category

/-- The wording of a cause. -/
def message : Cause → String
  | .depthExceeded limit => "maximum evaluation depth " ++ limit.repr ++ " exceeded"
  | .unfoldingsExceeded name limit => name ++ " did not reduce after " ++ limit.repr ++ " rewrites"
  | .exhausted => "stack overflow"
  | .unbound name => "unbound symbol " ++ name
  | .unrecognized => "unrecognized expression"
  | .irreducible callable => callable.render ++ " does not reduce to a function"
  | .wrongArity arity given => "expected " ++ arity.words ++ ", got " ++ given.repr
  | .unequalLengths x y =>
    "x and y must be of the same length, got " ++ x.repr ++ " and " ++ y.repr
  | .expected what got => "expected " ++ what ++ ", got " ++ got.render
  | .improperList tail => "expected proper list (ending in nil), got tail " ++ tail.render
  | .improperEntry entry => "alist element must be a pair, got " ++ entry.render
  | .improperKey key => "object keys must be strings or symbols, got " ++ key.render
  | .rejected label v => v.render ++ " is not a valid " ++ label
  | .divisionByZero => "division by zero"
  | .powerTooLarge base exponent =>
    "result too large for " ++ base.text ++ " ^ " ++ exponent.repr
  | .outOfBounds index length =>
    "index " ++ index.repr ++ " out of bounds (length " ++ length.repr ++ ")"
  | .invalidPattern source explanation =>
    "invalid pattern " ++ quotedVisibly source ++ ": " ++ explanation
  | .undeclared v => "undeclared value " ++ v.render
  | .notADataType v => v.render ++ " is not a data type"
  | .unregistered label => "data type " ++ label ++ " is not registered"
  | .malformedCall tail => "malformed argument list ending in " ++ tail.render
  | .malformedForm args => "malformed argument list " ++ args.render
  | .wrongFormArity low high given =>
    "expected " ++ formArityWords low high ++ " arguments, got " ++ given.repr
  | .expectedSymbol got => "expected a symbol, got " ++ got.render
  | .misfiledForm own key => "special form " ++ own ++ " exported as " ++ key
  | .misfiledType own key => "data type " ++ own ++ " exported as " ++ key
  | .noExports typeWord => "module exports not found in " ++ typeWord
  | .malformedExport entry => "malformed module entry " ++ entry.render
  | .improperExportKey key => "module key must be a symbol or string, got " ++ key.render
  | .improperExports tail => "module exports must be a proper list, got tail " ++ tail.render
  | .custom _ message => message

/-- Whether an evaluation was stopped by a limit: one of the two that its session has, or the one
that the machine has. -/
def isLimit : Cause → Bool
  | .depthExceeded _ => true
  | .unfoldingsExceeded .. => true
  | .exhausted => true
  | _ => false

/-- Whether nothing runs any more afterwards, not even what would handle the fault. -/
def isFatal : Cause → Bool
  | .exhausted => true
  | _ => false

end Cause

/-- A failure. -/
structure Fault where
  /-- The name of the operation that raised the fault. -/
  location : String
  cause : Cause
  /-- The start of the text of the expression that was being evaluated. -/
  expression : Option String := none
  deriving Inhabited

namespace Fault

/-- The widest expression that the text of a fault shows. -/
def shownWidth : Nat := 60

/-- Attaches an expression: one character more than can be shown is kept, which tells that the
text goes on. -/
def during (f : Fault) (expr : Value) : Fault :=
  { f with expression := some (expr.excerpt (shownWidth + 1)) }

/-- The part of the text that names the expression. -/
def context : Option String → String
  | none => ""
  | some e =>
    if shownWidth < e.length then
      " in: " ++ String.ofList (e.toList.take (shownWidth - 3)) ++ "..."
    else " in: " ++ e

def message (f : Fault) : String := f.cause.message

/-- The whole text of a fault. -/
def text (f : Fault) : String :=
  "INTERPRETER ERROR: " ++ f.cause.category.word ++ " @ " ++ f.location ++ " : " ++ f.message ++
    context f.expression

/-- A symbol without a definition. -/
def unbound (name : Symbol) : Fault := { location := "lookup", cause := .unbound name }

/-- The fault of an arithmetic operation, which is raised under the name of the operation. -/
def ofArithmetic : ArithmeticError → Fault
  | .divisionByZero => { location := "/", cause := .divisionByZero }
  | .remainderByZero => { location := "mod", cause := .divisionByZero }
  | .powerTooLarge base exponent => { location := "pow", cause := .powerTooLarge base exponent }

end Fault

/-- Checks a number of arguments under the name of a function. -/
def Arity.check (arity : Arity) (name : String) (given : Nat) : Except Fault Unit :=
  if arity.allows given then .ok ()
  else .error { location := name, cause := .wrongArity arity given }

end Sexpr
