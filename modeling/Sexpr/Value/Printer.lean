import Sexpr.Number.Text
import Sexpr.Text.Quoted
import Sexpr.Value.Basic

/-!
# Sexpr.Value.Printer

The text of a value.

`Value.text` is the text by recursion on the value.  `Value.display` writes the same
text from a stack of pieces, so that the nesting of a value does not matter, and stops when nothing
more can be written: `Value.render` writes all of it, and `Value.excerpt` a given number of
characters.

```
nil  undefined  true  12  0.5  "a\n"  name  /a+/
(a b . c)  #{a b}  [a b]  {k: v, l: w}
<native-fn car>  <lambda>  <special-form quote>  <data-type number>
```
-/

namespace Sexpr

namespace Value

/-- The text of a value that holds no other value. -/
def leafText : Value → String
  | .nil => "nil"
  | .undefined => "undefined"
  | .bool b => if b then "true" else "false"
  | .number n => n.text
  | .string s => quoted s
  | .symbol s => s
  | .regexp _ source => "/" ++ source ++ "/"
  | .native _ name .. => "<native-fn " ++ name ++ ">"
  | .thunk _ label .. => "<native-fn " ++ thunkName label ++ ">"
  | .closure .. => "<lambda>"
  | .hosted .. => "<lambda>"
  | .form f => "<special-form " ++ f.name ++ ">"
  | .dataType t => "<data-type " ++ t.label ++ ">"
  | _ => ""

/-! ## By recursion -/

mutual

/-- The text of a value. -/
def text : Value → String
  | .pair _ a d => "(" ++ text a ++ restText d
  | .set _ xs => "#\x7b" ++ itemsText xs ++ "\x7d"
  | .array _ xs => "[" ++ itemsText xs ++ "]"
  | .object _ xs => "\x7b" ++ entriesText xs ++ "\x7d"
  | v => leafText v

/-- What follows the first element of a list. -/
def restText : Value → String
  | .nil => ")"
  | .pair _ a d => " " ++ text a ++ restText d
  | .set _ xs => " . #\x7b" ++ itemsText xs ++ "\x7d)"
  | .array _ xs => " . [" ++ itemsText xs ++ "])"
  | .object _ xs => " . \x7b" ++ entriesText xs ++ "\x7d)"
  | v => " . " ++ leafText v ++ ")"

def itemsText : List Value → String
  | [] => ""
  | [x] => text x
  | x :: xs => text x ++ " " ++ itemsText xs

def entriesText : List (String × Value) → String
  | [] => ""
  | [(k, x)] => k ++ ": " ++ text x
  | (k, x) :: xs => k ++ ": " ++ text x ++ ", " ++ entriesText xs

end

/-! ## From a stack of pieces -/

/-- Something still to be written. -/
inductive Piece where
  | value (v : Value)
  | text (s : String)
  /-- The key of an entry. -/
  | key (s : String)

/-- Puts the pieces of an item on a stack, and a separator in front of them unless the item is the
first. -/
def pushItem (separator : String) (pending : List Piece) : List Piece × Nat → List Piece
  | (item, i) => if 0 < i then .text separator :: (item ++ pending) else item ++ pending

/-- Puts items on a stack, the last one first. -/
def pushEach (separator : String) (items : List (List Piece)) (pending : List Piece) : List Piece :=
  items.zipIdx.reverse.foldl (pushItem separator) pending

/-- Puts values between brackets on a stack. -/
def pushItems (opening separator closing : String) (xs : List Value) (pending : List Piece) :
    List Piece :=
  .text opening :: pushEach separator (xs.map fun x => [.value x]) (.text closing :: pending)

/-- The first slots along the second slots of a value, behind those that have been walked over, and
what follows the last pair. -/
def chain (walked : List Value) : Value → List Value × Value
  | .pair _ a d => chain (a :: walked) d
  | v => (walked.reverse, v)

/-- Puts a list on a stack: its elements, then its end behind a dot unless it is `nil`. -/
def pushList (v : Value) (pending : List Piece) : List Piece :=
  let (elements, last) := chain [] v
  let pending := .text ")" :: pending
  let pending := if !last.isNil then .text " . " :: .value last :: pending else pending
  .text "(" :: pushEach " " (elements.map fun x => [.value x]) pending

/-- Puts the entries of an object on a stack. -/
def pushEntries (es : List (String × Value)) (pending : List Piece) : List Piece :=
  .text "\x7b" :: pushEach ", " (es.map fun e => [.key e.1, .text ": ", .value e.2])
    (.text "\x7d" :: pending)

/-- What is to be done with a piece: it is a text to write, or its parts go on the stack. -/
def Piece.next : Piece → List Piece → Sum String (List Piece)
  | .text s, _ => .inl s
  | .key s, _ => .inl s
  | .value (.set _ xs), pending => .inr (pushItems "#\x7b" " " "\x7d" xs pending)
  | .value (.array _ xs), pending => .inr (pushItems "[" " " "]" xs pending)
  | .value (.object _ es), pending => .inr (pushEntries es pending)
  | .value (.pair id a d), pending => .inr (pushList (.pair id a d) pending)
  | .value v, _ => .inl (leafText v)

/-- A bound for the number of steps that a piece takes. -/
noncomputable def Piece.weight : Piece → Nat
  | .value v => 5 * sizeOf v
  | .text _ => 1
  | .key _ => 1

/-- A bound for the number of steps that a stack takes. -/
noncomputable def stackWeight : List Piece → Nat
  | [] => 0
  | p :: pending => p.weight + stackWeight pending

theorem stackWeight_nil : stackWeight [] = 0 := rfl

theorem stackWeight_cons (p : Piece) (pending : List Piece) :
    stackWeight (p :: pending) = p.weight + stackWeight pending := rfl

theorem stackWeight_append (a b : List Piece) :
    stackWeight (a ++ b) = stackWeight a + stackWeight b := by
  induction a with
  | nil => simp [stackWeight_nil]
  | cons p a ih =>
    rw [List.cons_append, stackWeight_cons, stackWeight_cons, ih, Nat.add_assoc]

theorem Piece.weight_pos (p : Piece) : 0 < p.weight := by
  cases p with
  | value v =>
    have := v.sizeOf_pos
    simp only [weight]
    omega
  | text s => exact Nat.zero_lt_one
  | key s => exact Nat.zero_lt_one

theorem pushEach_eq_foldr (separator : String) (items : List (List Piece))
    (pending : List Piece) :
    pushEach separator items pending =
      items.zipIdx.foldr (fun item pending => pushItem separator pending item) pending :=
  List.foldl_reverse

theorem stackWeight_pushItem (separator : String) (pending item : List Piece) (i : Nat) :
    stackWeight (pushItem separator pending (item, i)) ≤
      stackWeight item + 1 + stackWeight pending := by
  simp only [pushItem]
  split <;> simp only [stackWeight_cons, stackWeight_append, Piece.weight] <;> omega

/-- Separators add at most one step for every item. -/
theorem stackWeight_pushEach (separator : String) (items : List (List Piece))
    (pending : List Piece) :
    stackWeight (pushEach separator items pending) ≤
      stackWeight items.flatten + items.length + stackWeight pending := by
  rw [pushEach_eq_foldr]
  generalize 0 = start
  induction items generalizing start with
  | nil => simp [stackWeight]
  | cons item items ih =>
    have hrest := ih (start + 1)
    rw [List.zipIdx_cons, List.foldr_cons, List.flatten_cons, List.length_cons, stackWeight_append]
    have hitem := stackWeight_pushItem separator ((items.zipIdx (start + 1)).foldr
      (fun item pending => pushItem separator pending item) pending) item start
    omega

theorem stackWeight_values (xs : List Value) :
    stackWeight (xs.map fun x => [Piece.value x]).flatten + 5 * xs.length + 5 =
      5 * sizeOf xs := by
  induction xs with
  | nil => simp [stackWeight]
  | cons x xs ih =>
    simp only [List.map_cons, List.flatten_cons, stackWeight_append, stackWeight_cons,
      List.length_cons, List.cons.sizeOf_spec, Piece.weight] at ih ⊢
    simp only [stackWeight_nil] at ih ⊢
    omega

theorem stackWeight_entries (es : List (String × Value)) :
    stackWeight (es.map fun e => [Piece.key e.1, .text ": ", .value e.2]).flatten +
      5 * es.length + 5 ≤ 5 * sizeOf es := by
  induction es with
  | nil => simp [stackWeight]
  | cons e es ih =>
    obtain ⟨k, x⟩ := e
    simp only [List.map_cons, List.flatten_cons, stackWeight_append, stackWeight_cons,
      List.length_cons, List.cons.sizeOf_spec, Prod.mk.sizeOf_spec, Piece.weight] at ih ⊢
    simp only [stackWeight_nil] at ih ⊢
    omega

theorem stackWeight_pushItems (opening separator closing : String) (xs : List Value)
    (pending : List Piece) :
    stackWeight (pushItems opening separator closing xs pending) + 3 ≤
      5 * sizeOf xs + stackWeight pending := by
  have h1 := stackWeight_pushEach separator (xs.map fun x => [.value x]) (.text closing :: pending)
  have h2 := stackWeight_values xs
  simp only [pushItems, stackWeight_cons, Piece.weight, List.length_map] at h1 ⊢
  omega

theorem stackWeight_pushEntries (es : List (String × Value)) (pending : List Piece) :
    stackWeight (pushEntries es pending) + 3 ≤ 5 * sizeOf es + stackWeight pending := by
  have h1 := stackWeight_pushEach ", " (es.map fun e => [.key e.1, .text ": ", .value e.2])
    (.text "\x7d" :: pending)
  have h2 := stackWeight_entries es
  simp only [pushEntries, stackWeight_cons, Piece.weight, List.length_map] at h1 ⊢
  omega

theorem sizeOf_append (a b : List Value) : sizeOf (a ++ b) + 1 = sizeOf a + sizeOf b := by
  induction a with
  | nil => simp [Nat.add_comm]
  | cons x a ih =>
    simp only [List.cons_append, List.cons.sizeOf_spec]
    omega

theorem sizeOf_reverse (a : List Value) : sizeOf a.reverse = sizeOf a := by
  induction a with
  | nil => rfl
  | cons x a ih =>
    have := sizeOf_append a.reverse [x]
    simp only [List.reverse_cons, List.cons.sizeOf_spec, List.nil.sizeOf_spec] at this ⊢
    omega

/-- The elements and the end of a list are together no larger than the list. -/
theorem sizeOf_chain (walked : List Value) (v : Value) :
    sizeOf (chain walked v).1 + sizeOf (chain walked v).2 ≤ sizeOf walked + sizeOf v := by
  cases v with
  | pair id a d =>
    have hrest := sizeOf_chain (a :: walked) d
    simp only [chain, List.cons.sizeOf_spec, Value.pair.sizeOf_spec] at hrest ⊢
    omega
  | _ => exact Nat.le_of_eq (congrArg (· + sizeOf _) (sizeOf_reverse walked))

theorem length_le_chain (walked : List Value) (v : Value) :
    walked.length ≤ (chain walked v).1.length := by
  cases v with
  | pair id a d => exact Nat.le_trans (Nat.le_succ _) (length_le_chain (a :: walked) d)
  | _ => exact Nat.le_of_eq (List.length_reverse).symm

theorem stackWeight_pushList (id : Ident) (a d : Value) (pending : List Piece) :
    stackWeight (pushList (.pair id a d) pending) <
      5 * sizeOf (Value.pair id a d) + stackWeight pending := by
  have hsize := sizeOf_chain [] (.pair id a d)
  have hlength : 1 ≤ (chain [] (.pair id a d)).1.length := length_le_chain [a] d
  simp only [pushList]
  generalize chain [] (.pair id a d) = c at hsize hlength ⊢
  obtain ⟨elements, last⟩ := c
  have hvalues := stackWeight_values elements
  have hlast : stackWeight (if !last.isNil then .text " . " :: .value last :: .text ")" :: pending
      else .text ")" :: pending) ≤ 5 * sizeOf last + 2 + stackWeight pending := by
    split <;> simp only [stackWeight_cons, Piece.weight] <;> omega
  generalize (if !last.isNil then .text " . " :: .value last :: .text ")" :: pending
    else .text ")" :: pending) = ending at hlast ⊢
  have heach := stackWeight_pushEach " " (elements.map fun x => [.value x]) ending
  simp only [stackWeight_cons, Piece.weight, List.length_map, List.nil.sizeOf_spec] at *
  omega

/-- The parts of a piece take fewer steps than the piece. -/
theorem Piece.stackWeight_next {p : Piece} {pending more : List Piece}
    (h : p.next pending = .inr more) : stackWeight more < p.weight + stackWeight pending := by
  unfold Piece.next at h
  split at h <;> cases h
  next xs =>
    have := stackWeight_pushItems "#\x7b" " " "\x7d" xs pending
    simp only [weight, Value.set.sizeOf_spec]
    omega
  next xs =>
    have := stackWeight_pushItems "[" " " "]" xs pending
    simp only [weight, Value.array.sizeOf_spec]
    omega
  next es =>
    have := stackWeight_pushEntries es pending
    simp only [weight, Value.object.sizeOf_spec]
    omega
  next id a d => exact stackWeight_pushList id a d pending

/-- Writes the pieces of a stack after `out`, until nothing more can be written.  Writing says
whether there is room for more. -/
def display {σ : Type} (write : σ → String → σ × Bool) (pending : List Piece) (out : σ) : σ :=
  match pending with
  | [] => out
  | p :: pending =>
    match _h : p.next pending with
    | .inl s =>
      match write out s with
      | (out, true) => display write pending out
      | (out, false) => out
    | .inr more => display write more out
termination_by stackWeight pending
decreasing_by
  · have := p.weight_pos
    simp only [stackWeight_cons]
    omega
  · simp only [stackWeight_cons]
    exact Piece.stackWeight_next _h

/-- The text of a value, written from a stack. -/
def render (v : Value) : String := display (fun out s => (out ++ s, true)) [.value v] ""

end Value

/-- A text that takes only so many more characters. -/
structure Bounded where
  text : String
  room : Nat

namespace Bounded

/-- Writes characters as long as there is room. -/
def writeChars (out : Bounded) : List Char → Bounded × Bool
  | [] => (out, true)
  | c :: cs =>
    if out.room = 0 then (out, false)
    else writeChars { text := out.text.push c, room := out.room - 1 } cs

def write (out : Bounded) (s : String) : Bounded × Bool := out.writeChars s.toList

end Bounded

/-- The first `room` characters of the text of a value. -/
def Value.excerpt (room : Nat) (v : Value) : String :=
  (Value.display Bounded.write [.value v] { text := "", room }).text

end Sexpr
