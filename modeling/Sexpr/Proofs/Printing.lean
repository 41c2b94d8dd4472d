import Sexpr.Algebra.Spine
import Sexpr.Proofs.Copying

/-!
# Sexpr.Proofs.Printing

What is written from a stack of pieces.

`Value.layout` is the rule for one value:

```
(a b . c)     elements with spaces between them, then the end behind a dot unless it is `nil`
#{a b} [a b]  elements with spaces between them
{k: v, l: w}  keys and values with commas between them
```

The text of a value by recursion follows the rule (`Value.text_eq_layout`).  A stack stands for the
texts of its pieces, one after another (`Value.stackText`), and the parts that a piece puts on the
stack stand for the same text as the piece does, by the rule (`Value.Piece.meaning_of_next`).  So
a printer writes what its stack stands for, if it does not matter to it how a text is
divided (`Value.display_eq`).  This holds of both printers: the one without a bound writes all of it
(`Value.render_eq_text`), and the one with a bound the first characters, wherever the bound falls
(`Value.excerpt_eq`).

The bound of an expression that is attached to a fault is one more than what the text of
a fault shows, which is enough to tell whether something is left out (`Fault.context_take`).
-/

namespace Sexpr

namespace Value

/-! ## the rule -/

/-- The end of a list is written behind a dot, unless it is `nil`. -/
def dottedEnd (write : Value → String) (v : Value) : String :=
  if v.isNil then "" else " . " ++ write v

/-- How a value is written, given how the values inside it are.  Elements and entries are written in
the order in which they are held. -/
def layout (write : Value → String) : Value → String
  | .pair id a d =>
    "(" ++ " ".intercalate ((Value.pair id a d).elements.map write) ++ dottedEnd write d.tail ++ ")"
  | .set _ xs => "#\x7b" ++ " ".intercalate (xs.map write) ++ "\x7d"
  | .array _ xs => "[" ++ " ".intercalate (xs.map write) ++ "]"
  | .object _ es => "\x7b" ++ ", ".intercalate (es.map fun e => e.1 ++ ": " ++ write e.2) ++ "\x7d"
  | v => leafText v

theorem itemsText_eq (xs : List Value) : itemsText xs = " ".intercalate (xs.map text) := by
  induction xs with
  | nil => simp [itemsText]
  | cons x xs ih => cases xs <;> simp_all [itemsText, String.intercalate_cons_cons]

theorem entriesText_eq (es : List (String × Value)) :
    entriesText es = ", ".intercalate (es.map fun e => e.1 ++ ": " ++ text e.2) := by
  induction es with
  | nil => simp [entriesText]
  | cons e es ih => cases es <;> simp_all [entriesText, String.intercalate_cons_cons]

/-- What follows the last pair of a list is shown after a dot. -/
theorem restText_atom {v : Value} (hnil : v.isNil = false) (hpair : v.isPair = false) :
    restText v = " . " ++ text v ++ ")" := by
  cases v with
  | nil => cases hnil
  | pair id a d => cases hpair
  | _ =>
    rw [← String.toList_inj]
    simp [restText, text]

/-- What follows an element of a list are the other elements and the end. -/
theorem append_restText (first : String) (d : Value) :
    first ++ restText d =
      " ".intercalate (first :: d.elements.map text) ++ dottedEnd text d.tail ++ ")" := by
  induction d using inductionOnTree generalizing first with
  | pair id b e _ ih =>
    have hrest : first ++ restText (.pair id b e) = first ++ " " ++ (text b ++ restText e) := by
      simp [restText, String.append_assoc]
    rw [hrest, ih]
    simp [elements, tail, String.append_assoc]
  | leaf v hv =>
    have htail : v.tail = v := by cases v <;> first | rfl | cases hv
    have helements : v.elements = [] := by cases v <;> first | rfl | cases hv
    rw [htail, helements, dottedEnd]
    cases hnil : v.isNil with
    | true => simp [eq_nil_of_isNil hnil, restText]
    | false => simp [restText_atom hnil hv, String.append_assoc]

theorem text_eq_layout (v : Value) : v.text = v.layout text := by
  cases v with
  | pair id a d => simp [text, layout, elements, append_restText, String.append_assoc]
  | set id xs => simp [text, layout, itemsText_eq]
  | array id xs => simp [text, layout, itemsText_eq]
  | object id es => simp [text, layout, entriesText_eq]
  | _ => rfl

/-! ## what a stack stands for -/

/-- The text that a piece stands for. -/
def Piece.meaning : Piece → String
  | .value v => v.text
  | .text s => s
  | .key s => s

/-- The text that a stack stands for. -/
def stackText : List Piece → String
  | [] => ""
  | p :: pending => p.meaning ++ stackText pending

@[simp] theorem stackText_nil : stackText [] = "" := rfl

@[simp] theorem stackText_cons (p : Piece) (pending : List Piece) :
    stackText (p :: pending) = p.meaning ++ stackText pending := rfl

@[simp] theorem stackText_append (a b : List Piece) :
    stackText (a ++ b) = stackText a ++ stackText b := by
  induction a with
  | nil => simp
  | cons p a ih => simp [ih, String.append_assoc]

/-- Items that are not the first get a separator in front of each of them. -/
theorem stackText_foldr_pushItem (separator : String) (items : List (List Piece)) (start : Nat)
    (pending : List Piece) :
    stackText ((items.zipIdx (start + 1)).foldr
        (fun item pending => pushItem separator pending item) pending) =
      separator.intercalate ("" :: items.map stackText) ++ stackText pending := by
  induction items generalizing start with
  | nil => simp
  | cons item items ih =>
    have hrest : separator.intercalate (stackText item :: items.map stackText) =
        stackText item ++ separator.intercalate ("" :: items.map stackText) := by
      rw [← String.intercalate_cons_append, String.append_empty]
    rw [List.zipIdx_cons, List.foldr_cons, pushItem, if_pos (Nat.succ_pos start), stackText_cons,
      stackText_append, ih, List.map_cons, String.intercalate_cons_cons, hrest]
    simp [Piece.meaning, String.append_assoc]

/-- Items that were pushed stand for their texts with the separator between them. -/
theorem stackText_pushEach (separator : String) (items : List (List Piece))
    (pending : List Piece) :
    stackText (pushEach separator items pending) =
      separator.intercalate (items.map stackText) ++ stackText pending := by
  rw [pushEach_eq_foldr]
  cases items with
  | nil => simp
  | cons item items =>
    rw [List.zipIdx_cons, List.foldr_cons, pushItem, if_neg (Nat.lt_irrefl 0), stackText_append,
      stackText_foldr_pushItem, List.map_cons, ← String.append_assoc,
      ← String.intercalate_cons_append, String.append_empty]

theorem stackText_pushItems (opening separator closing : String) (xs : List Value)
    (pending : List Piece) :
    stackText (pushItems opening separator closing xs pending) =
      opening ++ separator.intercalate (xs.map text) ++ closing ++ stackText pending := by
  have htexts : (xs.map fun x => [Piece.value x]).map stackText = xs.map text := by
    simp [Piece.meaning]
  rw [pushItems, stackText_cons, stackText_pushEach, htexts]
  simp [Piece.meaning, String.append_assoc]

theorem stackText_pushEntries (es : List (String × Value)) (pending : List Piece) :
    stackText (pushEntries es pending) =
      "\x7b" ++ ", ".intercalate (es.map fun e => e.1 ++ ": " ++ text e.2) ++ "\x7d" ++
        stackText pending := by
  have htexts : (es.map fun e => [Piece.key e.1, .text ": ", .value e.2]).map stackText =
      es.map fun e => e.1 ++ ": " ++ text e.2 := by
    simp [Piece.meaning, String.append_assoc]
  rw [pushEntries, stackText_cons, stackText_pushEach, htexts]
  simp [Piece.meaning, String.append_assoc]

/-- The walk along a list collects its elements and stops at its end. -/
theorem chain_eq (walked : List Value) (v : Value) :
    chain walked v = (walked.reverse ++ v.elements, v.tail) := by
  induction v using inductionOnTree generalizing walked with
  | pair id a d _ ih =>
    rw [chain, ih, List.reverse_cons, List.append_assoc]
    rfl
  | leaf v hv =>
    cases v with
    | pair id a d => cases hv
    | _ => simp [chain, elements, tail]

theorem stackText_pushList (v : Value) (pending : List Piece) :
    stackText (pushList v pending) =
      "(" ++ " ".intercalate (v.elements.map text) ++ dottedEnd text v.tail ++ ")" ++
        stackText pending := by
  have htexts : (v.elements.map fun x => [Piece.value x]).map stackText = v.elements.map text := by
    simp [Piece.meaning]
  rw [pushList, chain_eq, List.reverse_nil, List.nil_append]
  dsimp only
  rw [stackText_cons, stackText_pushEach, htexts, dottedEnd]
  cases v.tail.isNil <;> simp [Piece.meaning, String.append_assoc]

/-- A piece stands for the text that it is or for what its parts stand for. -/
theorem Piece.meaning_of_next (p : Piece) (pending : List Piece) :
    (p.next pending).elim (· ++ stackText pending) stackText =
      p.meaning ++ stackText pending := by
  cases p with
  | text s => rfl
  | key s => rfl
  | value v =>
    rw [meaning, text_eq_layout]
    cases v with
    | pair id a d => exact stackText_pushList (.pair id a d) pending
    | set id xs => exact stackText_pushItems "#\x7b" " " "\x7d" xs pending
    | array id xs => exact stackText_pushItems "[" " " "]" xs pending
    | object id es => exact stackText_pushEntries es pending
    | _ => rfl

/-! ## printers -/

/-- It does not matter to a way of writing how a text is divided.  When there is no room for the
first part, the second is not written. -/
structure Undivided {σ : Type} (write : σ → String → σ × Bool) : Prop where
  empty (out : σ) : write out "" = (out, true)
  append (out : σ) (s t : String) :
    write out (s ++ t) = if (write out s).2 then write (write out s).1 t else write out s

/-- A printer writes what its stack stands for. -/
theorem display_eq {σ : Type} {write : σ → String → σ × Bool} (hwrite : Undivided write)
    (pending : List Piece) (out : σ) :
    display write pending out = (write out (stackText pending)).1 := by
  fun_induction display write pending out with
  | case1 out => rw [stackText_nil, hwrite.empty]
  | case2 out p pending s hnext out' hout ih =>
    have hmeaning := p.meaning_of_next pending
    rw [hnext, Sum.elim_inl] at hmeaning
    rw [ih, stackText_cons, ← hmeaning, hwrite.append, hout, if_pos rfl]
  | case3 out p pending s hnext out' hout =>
    have hmeaning := p.meaning_of_next pending
    rw [hnext, Sum.elim_inl] at hmeaning
    rw [stackText_cons, ← hmeaning, hwrite.append, hout, if_neg Bool.false_ne_true]
  | case4 out p pending more hnext ih =>
    have hmeaning := p.meaning_of_next pending
    rw [hnext, Sum.elim_inr] at hmeaning
    rw [ih, stackText_cons, ← hmeaning]

/-- The printer with a stack writes the text by recursion. -/
theorem render_eq_text (v : Value) : v.render = v.text := by
  have hwrite : Undivided fun (out s : String) => (out ++ s, true) :=
    ⟨fun out => by simp, fun out s t => by simp [String.append_assoc]⟩
  rw [render, display_eq hwrite]
  simp [Piece.meaning]

end Value

namespace Bounded

theorem writeChars_append (out : Bounded) (cs ds : List Char) :
    out.writeChars (cs ++ ds) =
      if (out.writeChars cs).2 then (out.writeChars cs).1.writeChars ds else out.writeChars cs := by
  induction cs generalizing out with
  | nil => rfl
  | cons c cs ih =>
    rw [List.cons_append, writeChars, writeChars]
    split
    · rfl
    · exact ih _

theorem undivided_write : Value.Undivided write where
  empty out := rfl
  append out s t := by
    unfold write
    rw [String.toList_append, writeChars_append]

/-- As many characters are written as there is room for. -/
theorem text_writeChars (out : Bounded) (cs : List Char) :
    (out.writeChars cs).1.text = out.text ++ String.ofList (cs.take out.room) := by
  induction cs generalizing out with
  | nil => simp [writeChars]
  | cons c cs ih =>
    obtain ⟨text, room⟩ := out
    cases room with
    | zero => simp [writeChars]
    | succ room =>
      rw [writeChars, if_neg (Nat.succ_ne_zero room), ih, List.take_succ_cons, ← String.toList_inj]
      simp

end Bounded

/-- An excerpt is the beginning of what is written without a bound. -/
theorem Value.excerpt_eq (room : Nat) (v : Value) :
    v.excerpt room = String.ofList (v.render.toList.take room) := by
  rw [excerpt, display_eq Bounded.undivided_write, Bounded.write, Bounded.text_writeChars,
    render_eq_text]
  simp [Piece.meaning]

/-! ## expressions in faults -/

namespace Fault

/-- An expression of up to 60 characters is shown whole. -/
theorem context_some (e : String) :
    context (some e) = " in: " ++
      if e.length ≤ 60 then e else String.ofList (e.toList.take 57) ++ "..." := by
  by_cases hlong : 60 < e.length
  · simp only [context, shownWidth, hlong, Nat.not_le.2 hlong, if_true, if_false,
      String.append_assoc]
  · simp only [context, shownWidth, hlong, Nat.not_lt.1 hlong, if_true, if_false]

/-- One character more than can be shown decides what is shown of an expression. -/
theorem context_take (e : String) :
    context (some (String.ofList (e.toList.take 61))) = context (some e) := by
  by_cases hlong : 60 < e.length
  · have hlength : (String.ofList (e.toList.take 61)).length = 61 := by
      rw [String.length_ofList, List.length_take, String.length_toList]
      omega
    simp only [context_some, hlength, Nat.not_le.2 hlong, String.toList_ofList, List.take_take]
    rfl
  · have hall : e.toList.take 61 = e.toList := by
      apply List.take_of_length_le
      rw [String.length_toList]
      omega
    rw [hall, String.ofList_toList]

/-- The expression is named at the end of the text. -/
theorem text_expression (f : Fault) (e : Option String) :
    { f with expression := e }.text = { f with expression := none }.text ++ context e := by
  have hnone : context none = "" := rfl
  unfold text message
  rw [hnone, String.append_empty]

/-- **The bound of an attached expression never shows.**  Exactly the first 61 characters of an
expression are attached to a fault, and its text is the one it has with the whole expression:
up to 60 characters are shown, and of more than 60 the first 57 and three dots. -/
theorem during_shows_whole (f : Fault) (v : Value) :
    f.during v = { f with expression := some (String.ofList (v.render.toList.take 61)) } ∧
    (f.during v).text = { f with expression := some v.render }.text ∧
    (f.during v).text = { f with expression := none }.text ++ " in: " ++
      if v.render.length ≤ 60 then v.render
      else String.ofList (v.render.toList.take 57) ++ "..." := by
  have hattached : f.during v =
      { f with expression := some (String.ofList (v.render.toList.take 61)) } := by
    rw [during, Value.excerpt_eq, shownWidth]
  have hwhole : (f.during v).text = { f with expression := some v.render }.text := by
    rw [hattached, text_expression, context_take, ← text_expression]
  refine ⟨hattached, hwhole, ?_⟩
  rw [hwhole, text_expression, context_some, String.append_assoc]

end Fault

end Sexpr
