import Sexpr.Number.Text
import Sexpr.Text.Quoted
import Sexpr.Value.Basic

/-!
# Sexpr.Value.Spelling

An unambiguous spelling of values.

Unlike the displayed text, the spelling tells a symbol from a string, the three
representations of a number apart, and callables by their parameters.  The
elements of a set are written in ascending order of their spellings, so the spelling
does not depend on the order in which they were added.

```
()  #u  #t  12  12n  ~3fe0000000000000  "a"  |name|  /a+/
(a b . c)  #{a b}  [a b]  {"k" v "l" w}
<fn |car| =1>  <lambda |x| |y|>  <form |quote|>  <type |number|>
```
-/

namespace Sexpr

/-- The sixteen hexadecimal digits of a 64 bit word. -/
def hexWord (n : UInt64) : String :=
  let digits := Nat.toDigits 16 n.toNat
  String.ofList (List.replicate (16 - digits.length) '0' ++ digits)

/-- The spelling of a number: a big integer is marked, a float is given by its bits. -/
def Number.spell : Number → String
  | .int n => n.toInt.repr
  | .big n => n.repr ++ "n"
  | .float x => if x.isNaN then "~nan" else "~" ++ hexWord x.toBits

def Arity.spell : Arity → String
  | .exact n => "=" ++ n.repr
  | .atLeast n => ">=" ++ n.repr
  | .range low high => low.repr ++ ".." ++ high.repr

namespace Value

def spellParams (params : List Symbol) : String :=
  "<lambda" ++ String.join (params.map fun p => " " ++ guarded '|' p) ++ ">"

/-- The spelling of a value that holds no other value. -/
def spellLeaf : Value → String
  | .nil => "()"
  | .undefined => "#u"
  | .bool b => if b then "#t" else "#f"
  | .number n => n.spell
  | .string s => guarded '"' s
  | .symbol s => guarded '|' s
  | .regexp _ source => guarded '/' source
  | .native _ name arity _ => "<fn " ++ guarded '|' name ++ " " ++ arity.spell ++ ">"
  | .thunk _ label .. =>
    "<fn " ++ guarded '|' (thunkName label) ++ " " ++ (Arity.exact 0).spell ++ ">"
  | .closure _ params .. => spellParams params
  | .hosted _ params _ => spellParams params
  | .form f => "<form " ++ guarded '|' f.name ++ ">"
  | .dataType t => "<type " ++ guarded '|' t.label ++ ">"
  | _ => ""

mutual

/-- Writes the spelling of a value after `out`. -/
def spellOnto (out : String) : Value → String
  | .pair _ a d => spellRest (spellOnto (out ++ "(") a) d
  | .set _ xs =>
    let spellings := (spellEach xs).mergeSort
    out ++ "#\x7b" ++ String.intercalate " " spellings ++ "\x7d"
  | .array _ xs => spellItems (out ++ "[") xs ++ "]"
  | .object _ xs => spellEntries (out ++ "\x7b") xs ++ "\x7d"
  | v => out ++ spellLeaf v

/-- Writes what follows an element of a list. -/
def spellRest (out : String) : Value → String
  | .nil => out ++ ")"
  | .pair _ a d => spellRest (spellOnto (out ++ " ") a) d
  | .set _ xs =>
    let spellings := (spellEach xs).mergeSort
    out ++ " . #\x7b" ++ String.intercalate " " spellings ++ "\x7d)"
  | .array _ xs => spellItems (out ++ " . [") xs ++ "])"
  | .object _ xs => spellEntries (out ++ " . \x7b") xs ++ "\x7d)"
  | v => out ++ " . " ++ spellLeaf v ++ ")"

def spellItems (out : String) : List Value → String
  | [] => out
  | [x] => spellOnto out x
  | x :: xs => spellItems (spellOnto out x ++ " ") xs

def spellEntries (out : String) : List (String × Value) → String
  | [] => out
  | [(k, x)] => spellOnto (out ++ guarded '"' k ++ " ") x
  | (k, x) :: xs => spellEntries (spellOnto (out ++ guarded '"' k ++ " ") x ++ " ") xs

def spellEach : List Value → List String
  | [] => []
  | x :: xs => spellOnto "" x :: spellEach xs

end

/-- The unambiguous spelling of a value. -/
def spell (v : Value) : String := spellOnto "" v

end Value

end Sexpr
