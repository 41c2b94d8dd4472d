import Sexpr.Value.Basic

/-!
# Sexpr.Value.Equality

Four ways to compare values.

* `Value.eq` compares atoms: simple values by what they are, objects by identity, and
  pairs that hold one element by that element.
* `Value.equal` compares pairs slot by slot and everything else with `eq`, from a stack of pending
  comparisons; `Value.equalSlots` is the same by recursion on the values.
* `Value.same` is structural equality: collections and pairs by their contents,
  callables by identity.  `Value.sameAll` decides it with a list of pending comparisons
  and skips a pair that is compared with itself.
* `Value.hashKey` is what a hash of a value depends on, in the order in which it is fed to a hasher
  from a stack of pending values; `Value.hashParts` is the same by recursion on the value.
  Structurally equal values have the same key.
-/

namespace Sexpr

namespace Value

/-! ## Leaves -/

/-- Equality of values that hold no other value, callables by identity. -/
def leafEq : Value → Value → Bool
  | .nil, .nil => true
  | .undefined, .undefined => true
  | .bool a, .bool b => a == b
  | .number a, .number b => a == b
  | .string a, .string b => a == b
  | .symbol a, .symbol b => a == b
  | .regexp _ a, .regexp _ b => a == b
  | .native i .., .native j .. => i == j
  | .thunk i .., .thunk j .. => i == j
  | .closure i .., .closure j .. => i == j
  | .hosted i .., .hosted j .. => i == j
  | .form f, .form g => f.ident == g.ident
  | .dataType t, .dataType u => t.ident == u.ident
  | _, _ => false

/-! ## Identity of atoms -/

/-- Identity of atoms.  Pairs that are not the same object are `eq` when both hold
one element and the elements are `eq`. -/
def eq : Value → Value → Bool
  | .pair i a d, .pair j b e => if i = j then true else if d.isNil && e.isNil then eq a b else false
  | .regexp i _, .regexp j _ => i == j
  | .set i _, .set j _ => i == j
  | .array i _, .array j _ => i == j
  | .object i _, .object j _ => i == j
  | a, b => leafEq a b

/-- Pairs are compared slot by slot, everything else with `eq`. -/
def equalSlots : Value → Value → Bool
  | .pair _ a d, .pair _ b e => equalSlots a b && equalSlots d e
  | a, b => eq a b

/-- The size of the values still to be compared on the left. -/
noncomputable def pendingSize : List (Value × Value) → Nat
  | [] => 0
  | p :: rest => sizeOf p.1 + pendingSize rest

theorem pendingSize_nil : pendingSize [] = 0 := rfl

theorem pendingSize_cons (p : Value × Value) (rest : List (Value × Value)) :
    pendingSize (p :: rest) = sizeOf p.1 + pendingSize rest := rfl

/-- Whether all pending pairs are equal.  The slots of two pairs become pending, the first slots on
top. -/
def equalAll : List (Value × Value) → Bool
  | [] => true
  | (.pair _ a d, .pair _ b e) :: pending => equalAll ((a, b) :: (d, e) :: pending)
  | (a, b) :: pending => if !eq a b then false else equalAll pending
termination_by pending => pendingSize pending
decreasing_by
  · simp only [pendingSize_cons, Value.pair.sizeOf_spec]
    omega
  · have := sizeOf_pos a
    simp only [pendingSize_cons]
    omega

/-- Whether two values are equal slot by slot. -/
def equal (x y : Value) : Bool := equalAll [(x, y)]

/-! ## Structural equality -/

mutual

/-- Structural equality, slot by slot.  Sets are the same when they have as many elements and every
element of the first is the same as one of the second. -/
def same : Value → Value → Bool
  | .pair _ a d, .pair _ b e => same a b && same d e
  | .set _ xs, .set _ ys => xs.length == ys.length && sameSubset xs ys
  | .array _ xs, .array _ ys => sameItems xs ys
  | .object _ xs, .object _ ys => sameEntries xs ys
  | a, b => leafEq a b

def sameItems : List Value → List Value → Bool
  | [], [] => true
  | x :: xs, y :: ys => same x y && sameItems xs ys
  | _, _ => false

def sameEntries : List (String × Value) → List (String × Value) → Bool
  | [], [] => true
  | (k, x) :: xs, (l, y) :: ys => k == l && same x y && sameEntries xs ys
  | _, _ => false

def sameSubset : List Value → List Value → Bool
  | [], _ => true
  | x :: xs, ys => ys.any (fun y => same x y) && sameSubset xs ys

end

/-- The keys of an object. -/
def entryKeys (entries : List (String × Value)) : List String := entries.map Prod.fst

/-- The values of an object, in the order of its keys. -/
def entryValues (entries : List (String × Value)) : List Value := entries.map Prod.snd

theorem pendingSize_zip (xs ys : List Value) : pendingSize (xs.zip ys) < sizeOf xs := by
  induction xs generalizing ys with
  | nil => simp [pendingSize]
  | cons x xs ih =>
    cases ys with
    | nil =>
      simp only [List.zip_nil_right, pendingSize_nil, List.cons.sizeOf_spec]
      omega
    | cons y ys =>
      have := ih ys
      simp only [List.zip_cons_cons, pendingSize_cons, List.cons.sizeOf_spec]
      omega

theorem pendingSize_zip_entries (xs ys : List (String × Value)) :
    pendingSize ((entryValues xs).zip (entryValues ys)) < sizeOf xs := by
  simp only [entryValues]
  induction xs generalizing ys with
  | nil => simp [pendingSize]
  | cons x xs ih =>
    cases ys with
    | nil =>
      simp only [List.map_nil, List.zip_nil_right, pendingSize_nil, List.cons.sizeOf_spec]
      omega
    | cons y ys =>
      have := ih ys
      obtain ⟨k, v⟩ := x
      simp only [List.map_cons, List.zip_cons_cons, pendingSize_cons, List.cons.sizeOf_spec,
        Prod.mk.sizeOf_spec]
      omega

/-- Whether all pending pairs are structurally equal.  A pair that is compared with
itself is not looked into. -/
def sameAll : List (Value × Value) → Bool
  | [] => true
  | (.pair i a d, .pair j b e) :: rest =>
    if i = j then sameAll rest else sameAll ((a, b) :: (d, e) :: rest)
  | (.set _ xs, .set _ ys) :: rest =>
    xs.length == ys.length && xs.attach.all (fun x => ys.any fun y => sameAll [(x.1, y)]) &&
      sameAll rest
  | (.array _ xs, .array _ ys) :: rest =>
    xs.length == ys.length && sameAll (xs.zip ys) && sameAll rest
  | (.object _ xs, .object _ ys) :: rest =>
    entryKeys xs == entryKeys ys && sameAll ((entryValues xs).zip (entryValues ys)) &&
      sameAll rest
  | (a, b) :: rest => leafEq a b && sameAll rest
termination_by pending => pendingSize pending
decreasing_by
  all_goals simp only [pendingSize_cons, pendingSize_nil, Value.pair.sizeOf_spec,
    Value.set.sizeOf_spec, Value.array.sizeOf_spec, Value.object.sizeOf_spec]
  · omega
  · omega
  · have := List.sizeOf_lt_of_mem x.2
    omega
  · omega
  · have := pendingSize_zip xs ys
    omega
  · omega
  · have := pendingSize_zip_entries xs ys
    omega
  · omega
  · have := sizeOf_pos a
    omega

instance : BEq Value := ⟨fun a b => sameAll [(a, b)]⟩

/-! ## Hashing -/

/-- A part of what a hash depends on. -/
inductive HashPart where
  | type (name : String)
  | bool (b : Bool)
  | number (x : Exact)
  | text (s : String)
  | size (n : Nat)
  | identity (id : Ident)
  deriving DecidableEq, Repr

/-- What a value itself feeds to a hasher.  Of sets this is only the size, of objects the keys. -/
def hashOwn : Value → List HashPart
  | .nil => [.type "nil"]
  | .undefined => [.type "undefined"]
  | .bool b => [.type "boolean", .bool b]
  | .number n => [.type "number", .number n.exact]
  | .string s => [.type "string", .text s]
  | .symbol s => [.type "symbol", .text s]
  | .regexp _ source => [.type "regexp", .text source]
  | .set _ xs => [.type "set", .size xs.length]
  | .array _ xs => [.type "array", .size xs.length]
  | .object _ xs => .type "object" :: .size xs.length :: (entryKeys xs).map .text
  | .pair .. => [.type "pair"]
  | .native id .. => [.type "native-fn", .identity id]
  | .thunk id .. => [.type "native-fn", .identity id]
  | .closure id .. => [.type "lambda", .identity id]
  | .hosted id .. => [.type "lambda", .identity id]
  | .form f => [.type "special-form", .identity f.ident]
  | .dataType t => [.type "data-type", .identity t.ident]

mutual

/-- What a hash of the value depends on, in front of `rest`. -/
def hashParts : Value → List HashPart → List HashPart
  | .array id xs, rest => hashOwn (.array id xs) ++ hashItems xs rest
  | .pair id a d, rest => hashOwn (.pair id a d) ++ hashParts a (hashParts d rest)
  | v, rest => hashOwn v ++ rest

def hashItems : List Value → List HashPart → List HashPart
  | [], rest => rest
  | x :: xs, rest => hashParts x (hashItems xs rest)

end

/-- The size of some values, all of them taken together. -/
noncomputable def totalSize : List Value → Nat
  | [] => 0
  | v :: rest => sizeOf v + totalSize rest

theorem totalSize_cons (v : Value) (rest : List Value) :
    totalSize (v :: rest) = sizeOf v + totalSize rest := rfl

theorem totalSize_append (a b : List Value) : totalSize (a ++ b) = totalSize a + totalSize b := by
  induction a with
  | nil => simp [totalSize]
  | cons v a ih => rw [List.cons_append, totalSize_cons, totalSize_cons, ih, Nat.add_assoc]

theorem totalSize_lt (xs : List Value) : totalSize xs < sizeOf xs := by
  induction xs with
  | nil => simp [totalSize]
  | cons x xs ih =>
    simp only [totalSize_cons, List.cons.sizeOf_spec]
    omega

/-- What pending values feed to a hasher.  The slots of a pair and the items of an array become
pending, the first on top. -/
def hashAll : List Value → List HashPart
  | [] => []
  | .pair id a d :: pending => hashOwn (.pair id a d) ++ hashAll (a :: d :: pending)
  | .array id xs :: pending => hashOwn (.array id xs) ++ hashAll (xs ++ pending)
  | v :: pending => hashOwn v ++ hashAll pending
termination_by pending => totalSize pending
decreasing_by
  · simp only [totalSize_cons, Value.pair.sizeOf_spec]
    omega
  · have := totalSize_lt xs
    simp only [totalSize_cons, totalSize_append, Value.array.sizeOf_spec]
    omega
  · have := sizeOf_pos v
    simp only [totalSize_cons]
    omega

/-- What a hash of the value depends on. -/
def hashKey (v : Value) : List HashPart := hashAll [v]

end Value

end Sexpr
