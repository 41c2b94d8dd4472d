import Sexpr.Algebra.Alist
import Sexpr.Library
import Sexpr.Primitive.Names

/-!
# Sexpr.Primitive.Call

What the functions of the language compute.

Where two arguments are of the wrong type, the order of the checks decides which of them is
reported: the index of `array-ref`, the key of `object-get` and the text of
`re-match?` are looked at before the collection.
-/

namespace Sexpr

namespace Value

/-! ## Arguments of a certain type -/

def expectString (name : String) : Value → Except Fault String
  | .string s => .ok s
  | v => failure name (.expected "string" v)

def expectNumber (name : String) : Value → Except Fault Number
  | .number n => .ok n
  | v => failure name (.expected "number" v)

/-- An index is an `int` that is not negative. -/
def expectIndex (name : String) : Value → Except Fault Nat
  | .number (.int n) =>
    if 0 ≤ n.toInt then .ok n.toInt.toNat
    else failure name (.expected "non-negative integer" (.number (.int n)))
  | v => failure name (.expected "non-negative integer" v)

def expectSet (name : String) : Value → Except Fault (List Value)
  | .set _ xs => .ok xs
  | v => failure name (.expected "set" v)

def expectArray (name : String) : Value → Except Fault (List Value)
  | .array _ xs => .ok xs
  | v => failure name (.expected "array" v)

def expectObject (name : String) : Value → Except Fault (List (String × Value))
  | .object _ xs => .ok xs
  | v => failure name (.expected "object" v)

def expectRegexp (name : String) : Value → Except Fault String
  | .regexp _ source => .ok source
  | v => failure name (.expected "regexp" v)

/-- The text of a key in the list that an object is made from. -/
def objectKey : Value → Except Fault String
  | .string s => .ok s
  | .symbol s => .ok s
  | v => failure "make-object" (.improperKey v)

/-- The text of a key that is looked up. -/
def lookupKey (name : String) : Value → Except Fault String
  | .symbol s => .ok s
  | v => v.expectString name

end Value

namespace Number

def divide (a b : Number) : Except Fault Number := (a.div b).mapError Fault.ofArithmetic

def remainder (a b : Number) : Except Fault Number := (a.rem b).mapError Fault.ofArithmetic

def power (a b : Number) : Except Fault Number := (a.pow b).mapError Fault.ofArithmetic

end Number

namespace Primitive

/-- The arguments as numbers. -/
def numbers (name : String) (args : List Value) : Except Fault (List Number) :=
  args.mapM (Value.expectNumber name)

/-- Combines numbers from left to right.  One number alone is combined with `identity`, and
`identity` is the result for none. -/
def combine (identity : Number) (op : Number → Number → Except Fault Number) :
    List Number → Except Fault Number
  | [] => .ok identity
  | [x] => op identity x
  | x :: xs => xs.foldlM op x

/-- Whether every number stands in the given relation to the next. -/
def chain (holds : Ordering → Bool) : List Number → Bool
  | x :: y :: rest => (x.compare? y).any holds && chain holds (y :: rest)
  | _ => true

/-- A function that combines numbers. -/
def arithmetic (name : String) (identity : Int64) (op : Number → Number → Except Fault Number)
    (args : List Value) : Except Fault Value := do
  return .number (← combine (.int identity) op (← numbers name args))

/-- A function that compares numbers. -/
def comparison (name : String) (holds : Ordering → Bool) (args : List Value) :
    Except Fault Value := do
  return .bool (chain holds (← numbers name args))

/-- A function that compiles a pattern. -/
def compilePattern (library : Library) (source : String) : Attempt Value :=
  match library.compile source with
  | .ok () => Value.newRegexp source
  | .error explanation => failure "make-regexp" (.invalidPattern source explanation)

/-- Calls a function with its arguments, whose number has been checked. -/
def call (library : Library) : Primitive → List Value → Attempt Value
  | .car, [x] => x.car
  | .cdr, [x] => x.cdr
  | .cons, [x, y] => Value.cons x y
  | .caar, [x] => x.caar
  | .cadr, [x] => x.cadr
  | .caddr, [x] => x.caddr
  | .cddr, [x] => x.cddr
  | .cdar, [x] => x.cdar
  | .eq, [x, y] => pure (.bool (x.eq y))
  | .null, [x] => pure (.bool x.isNil)
  | .equal, [x, y] => pure (.bool (x.equal y))
  | .append, xs => Value.appendAll xs
  | .reverse, [x] => x.reverse
  | .member, [x, y] => pure (.bool (x.member y))
  | .pair, [x, y] => x.pairUp y
  | .assoc, [k, x] => pure ((k.assoc? x).getD .undefined)
  | .subst, [x, y, z] => Value.subst x y z
  | .sublis, [x, y] => Value.sublis x y
  | .pairlis, [x, y] => x.pairlis y .nil
  | .pairlis, [x, y, base] => x.pairlis y base
  | .length, [x] => pure (.number (.int (Int64.ofNat x.length)))
  | .firstLeaf, [x] => pure x.firstLeaf
  | .lastLeaf, [x] => pure x.lastLeaf
  | .flatten, [x] => x.flatten
  | .identity, [x] => pure x
  | .not, [x] => pure (.bool !x.isTruthy)
  | .xor, xs => pure (.bool ((xs.countP Value.isTruthy) % 2 == 1))
  | .add, xs => arithmetic "+" 0 (fun a b => .ok (a.add b)) xs
  | .sub, xs => arithmetic "-" 0 (fun a b => .ok (a.sub b)) xs
  | .mul, xs => arithmetic "*" 1 (fun a b => .ok (a.mul b)) xs
  | .div, xs => arithmetic "/" 1 Number.divide xs
  | .rem, [x, y] => do
    return .number (← (← x.expectNumber "mod").remainder (← y.expectNumber "mod"))
  | .pow, [x, y] => do
    return .number (← (← x.expectNumber "pow").power (← y.expectNumber "pow"))
  | .lt, xs => comparison "<" Ordering.isLT xs
  | .gt, xs => comparison ">" Ordering.isGT xs
  | .le, xs => comparison "<=" Ordering.isLE xs
  | .ge, xs => comparison ">=" Ordering.isGE xs
  | .numEq, xs => comparison "=" Ordering.isEq xs
  | .makeSet, xs => Value.newSet (library.setOf xs)
  | .setAdd, [s, x] => do Value.newSet (library.insert (← s.expectSet "set-add") x)
  | .setContains, [s, x] => do
    return .bool (library.contains (← s.expectSet "set-contains?") x)
  | .makeArray, xs => Value.newArray xs
  | .arrayRef, [a, i] => do
    let index ← i.expectIndex "array-ref"
    let items ← a.expectArray "array-ref"
    match items[index]? with
    | some x => return x
    | none => failure "array-ref" (.outOfBounds index items.length)
  | .makeObject, [x] => do
    let entries ← (← x.toEntries).mapM fun (k, v) => return (← k.objectKey, v)
    Value.newObject (Value.objectOf entries)
  | .objectGet, [o, k] => do
    let key ← k.lookupKey "object-get"
    return (Value.entry? key (← o.expectObject "object-get")).getD .undefined
  | .makeRegexp, [x] => do compilePattern library (← x.expectString "make-regexp")
  | .regexpMatch, [r, x] => do
    let text ← x.expectString "re-match?"
    return .bool (library.isMatch (← r.expectRegexp "re-match?") text)
  | .isKind k, [x] => pure (.bool (k.holds x))
  | p, args => failure p.name (.wrongArity p.arity args.length)

end Primitive

end Sexpr
