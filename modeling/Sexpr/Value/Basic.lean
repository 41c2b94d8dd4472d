import Sexpr.Number.Basic
import Sexpr.Value.Callable

/-!
# Sexpr.Value.Basic

Values: symbolic expressions and the objects they can hold.

Everything but a pair is an atom, and so is a pair whose second slot is `nil`.
Pairs, collections, regular expressions and callables are objects: each carries
the identity it got when it was made, and keeps it wherever it goes.  Slots are
never changed, so two objects of one identity have the same contents.
-/

namespace Sexpr

/-- A symbolic expression. -/
inductive Value where
  /-- The end of a list. -/
  | nil
  | undefined
  | bool (b : Bool)
  | number (n : Number)
  | string (s : String)
  | symbol (name : Symbol)
  /-- A regular expression, given by its text. -/
  | regexp (id : Ident) (source : String)
  /-- A set; no two elements are equal. -/
  | set (id : Ident) (elements : List Value)
  | array (id : Ident) (items : List Value)
  /-- An object; the keys ascend. -/
  | object (id : Ident) (entries : List (String × Value))
  | pair (id : Ident) (car cdr : Value)
  | native (id : Ident) (name : String) (arity : Arity) (code : Code)
  /-- The payload of a tagged value: a native function without arguments that applies the
  constructor of a data type to the value it was built from. -/
  | thunk (id : Ident) (label : Symbol) (maker : Maker) (payload : Value)
  | closure (id : Ident) (params : List Symbol) (env : Env) (body : List Value)
  /-- A lambda whose body is a function of the host. -/
  | hosted (id : Ident) (params : List Symbol) (key : Nat)
  | form (f : Form)
  | dataType (t : DataType)
  deriving Inhabited

namespace Value

theorem sizeOf_pos (v : Value) : 0 < sizeOf v := by
  cases v <;> simp only [Value.nil.sizeOf_spec, Value.undefined.sizeOf_spec,
    Value.bool.sizeOf_spec, Value.number.sizeOf_spec, Value.string.sizeOf_spec,
    Value.symbol.sizeOf_spec, Value.regexp.sizeOf_spec, Value.set.sizeOf_spec,
    Value.array.sizeOf_spec, Value.object.sizeOf_spec, Value.pair.sizeOf_spec,
    Value.native.sizeOf_spec, Value.thunk.sizeOf_spec, Value.closure.sizeOf_spec,
    Value.hosted.sizeOf_spec, Value.form.sizeOf_spec, Value.dataType.sizeOf_spec] <;> omega

/-! ## Classification -/

def isNil : Value → Bool
  | .nil => true
  | _ => false

theorem eq_nil_of_isNil {v : Value} (h : v.isNil = true) : v = .nil := by
  unfold isNil at h
  split at h
  · rfl
  · cases h

def isPair : Value → Bool
  | .pair .. => true
  | _ => false

/-- Whether the value is a native function. -/
def isNative : Value → Bool
  | .native .. => true
  | .thunk .. => true
  | _ => false

/-- Whether the value can be applied without being evaluated first. -/
def isCallable : Value → Bool
  | .native .. => true
  | .thunk .. => true
  | .closure .. => true
  | .hosted .. => true
  | .dataType .. => true
  | _ => false

/-- Everything but `nil`, `false` and `undefined` counts as true. -/
def isTruthy : Value → Bool
  | .nil => false
  | .bool b => b
  | .undefined => false
  | _ => true

/-- Everything but a pair is an atom, and so is a pair whose second slot is `nil`. -/
def isAtom : Value → Bool
  | .pair _ _ d => d.isNil
  | _ => true

/-- What follows the last pair along the second slots. -/
def tail : Value → Value
  | .pair _ _ d => d.tail
  | v => v

/-- A proper list ends in `nil`. -/
def isProperList : Value → Bool
  | .pair _ _ d => d.isProperList
  | v => v.isNil

theorem isProperList_eq (v : Value) : v.isProperList = v.tail.isNil := by
  fun_induction isProperList v with
  | case1 id a d ih => exact ih
  | case2 v hv => rw [tail.eq_2 v hv]

/-- A pair of a data type and a native function, as the data type makes it. -/
def isTagged : Value → Bool
  | .pair _ (.dataType _) payload => payload.isNative
  | _ => false

def symbol? : Value → Option Symbol
  | .symbol name => some name
  | _ => none

def number? : Value → Option Number
  | .number n => some n
  | _ => none

/-- The name of the value's type. -/
def typeWord : Value → String
  | .nil => "nil"
  | .undefined => "undefined"
  | .bool _ => "boolean"
  | .number _ => "number"
  | .string _ => "string"
  | .symbol _ => "symbol"
  | .regexp .. => "regexp"
  | .set .. => "set"
  | .array .. => "array"
  | .object .. => "object"
  | .pair .. => "pair"
  | .native .. => "native-fn"
  | .thunk .. => "native-fn"
  | .closure .. => "lambda"
  | .hosted .. => "lambda"
  | .form _ => "special-form"
  | .dataType _ => "data-type"

/-- The name under which a thunk of a data type goes. -/
def thunkName (label : Symbol) : String := label ++ "-value"

end Value

/-- Whether a value is of a kind. -/
def Kind.holds : Kind → Value → Bool
  | .boolean, .bool _ => true
  | .number, .number _ => true
  | .string, .string _ => true
  | .symbol, .symbol _ => true
  | .regexp, .regexp .. => true
  | .set, .set .. => true
  | .array, .array .. => true
  | .object, .object .. => true
  | .undefined, .undefined => true
  | .function, v => v.isCallable
  | .atom, v => v.isAtom
  | .list, v => v.isProperList
  | _, _ => false

end Sexpr
