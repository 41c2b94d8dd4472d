import Sexpr.Value.Basic

/-!
# Sexpr.Value.Collection

Making objects.

Identities are handed out from a counter, so an object that is made is never the
same as one that is there already.  An object with entries keeps its keys in ascending order, and
a later value for a key replaces the earlier one.
-/

namespace Sexpr

/-- Computations that make objects.  The state is the next identity. -/
abbrev Fresh := StateM Ident

/-- The next identity. -/
def fresh : Fresh Ident := modifyGet fun n => (n, n + 1)

namespace Value

/-- A new pair. -/
def cons (car cdr : Value) : Fresh Value := return .pair (← fresh) car cdr

/-- A new list of the given elements that ends in `tail`. -/
def listOnto (items : List Value) (tail : Value) : Fresh Value := items.foldrM cons tail

/-- A new proper list of the given elements. -/
def list (items : List Value) : Fresh Value := listOnto items .nil

def newRegexp (source : String) : Fresh Value := return .regexp (← fresh) source

def newSet (elements : List Value) : Fresh Value := return .set (← fresh) elements

def newArray (items : List Value) : Fresh Value := return .array (← fresh) items

def newObject (entries : List (String × Value)) : Fresh Value := return .object (← fresh) entries

/-! ## Entries -/

/-- The entries with `value` under `key`. -/
def insertEntry (key : String) (value : Value) : List (String × Value) → List (String × Value)
  | [] => [(key, value)]
  | (k, x) :: rest =>
    if key < k then (key, value) :: (k, x) :: rest
    else if key = k then (key, value) :: rest
    else (k, x) :: insertEntry key value rest

/-- The entries of an object into which the given ones were put one after another. -/
def objectOf (entries : List (String × Value)) : List (String × Value) :=
  entries.foldl (fun es (k, x) => insertEntry k x es) []

/-- The value under a key. -/
def entry? (key : String) (entries : List (String × Value)) : Option Value :=
  (entries.find? (·.1 = key)).map Prod.snd

end Value

end Sexpr
