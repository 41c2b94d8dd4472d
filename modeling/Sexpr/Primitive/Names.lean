import Sexpr.Value.Callable

/-!
# Sexpr.Primitive.Names

The names and arities of the functions of the language.
-/

namespace Sexpr

namespace Primitive

/-- The name under which a function is bound. -/
def name : Primitive → String
  | .car => "car"
  | .cdr => "cdr"
  | .cons => "cons"
  | .caar => "caar"
  | .cadr => "cadr"
  | .caddr => "caddr"
  | .cddr => "cddr"
  | .cdar => "cdar"
  | .eq => "eq?"
  | .null => "null?"
  | .equal => "equal?"
  | .append => "append"
  | .reverse => "reverse"
  | .member => "member?"
  | .pair => "pair"
  | .assoc => "assoc"
  | .subst => "subst"
  | .sublis => "sublis"
  | .pairlis => "pairlis"
  | .length => "length"
  | .firstLeaf => "ff"
  | .lastLeaf => "lp"
  | .flatten => "flatten"
  | .identity => "identity"
  | .not => "not"
  | .xor => "xor"
  | .add => "+"
  | .sub => "-"
  | .mul => "*"
  | .div => "/"
  | .rem => "mod"
  | .pow => "pow"
  | .lt => "<"
  | .gt => ">"
  | .le => "<="
  | .ge => ">="
  | .numEq => "="
  | .makeSet => "make-set"
  | .setAdd => "set-add"
  | .setContains => "set-contains?"
  | .makeArray => "make-array"
  | .arrayRef => "array-ref"
  | .makeObject => "make-object"
  | .objectGet => "object-get"
  | .makeRegexp => "make-regexp"
  | .regexpMatch => "re-match?"
  | .isKind k => k.name ++ "?"

/-- How many arguments a function takes. -/
def arity : Primitive → Arity
  | .cons | .eq | .equal | .member | .pair | .assoc | .sublis => .exact 2
  | .subst => .exact 3
  | .pairlis => .range 2 3
  | .append | .xor | .add | .mul | .makeSet | .makeArray => .atLeast 0
  | .sub | .div | .lt | .gt | .le | .ge | .numEq => .atLeast 1
  | .rem | .pow | .setAdd | .setContains | .arrayRef | .objectGet | .regexpMatch => .exact 2
  | _ => .exact 1

/-- The functions other than the predicates of the kinds, in the order in which they are bound. -/
def functions : List Primitive :=
  [.car, .cdr, .cons, .caar, .cadr, .caddr, .cddr, .cdar, .eq, .null,
    .equal, .append, .reverse, .member, .pair, .assoc, .subst, .sublis, .pairlis, .length,
    .firstLeaf, .lastLeaf, .flatten,
    .identity, .not, .xor,
    .add, .sub, .mul, .div, .rem, .pow, .lt, .gt, .le, .ge, .numEq,
    .makeSet, .setAdd, .setContains, .makeArray, .arrayRef, .makeObject, .objectGet,
    .makeRegexp, .regexpMatch]

end Primitive

namespace Code

/-- The name of the function that forces a tagged value. -/
def unwrapName : String := "eval-data"

/-- All functions of the language with their names and arities, in the order in which they are
bound. -/
def standard : List (String × Arity × Code) :=
  Primitive.functions.map (fun p => (p.name, p.arity, .primitive p)) ++
    [(unwrapName, .exact 1, .unwrap)] ++
    Kind.all.map fun k =>
      ((Primitive.isKind k).name, (Primitive.isKind k).arity, .primitive (.isKind k))

end Code

end Sexpr
