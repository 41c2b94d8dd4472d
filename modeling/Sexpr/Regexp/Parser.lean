import Sexpr.Regexp.Footprint

/-!
# Sexpr.Regexp.Parser

Reading a regular expression.

The text is read from left to right.  What stands open is kept on a stack of
groups, each with its finished choices and the pieces of the current one; a
closing parenthesis turns the innermost group into one piece of the group around it.
A repetition sign repeats the piece before it, and it is an error if there is none.

Every step reads at least one character, so the length of the text bounds the
number of steps.

How deep the pieces of an expression are nested is counted along with them, and an
expression that is nested too deeply or would take too much memory is refused.
-/

namespace Sexpr

namespace Regexp

/-- The switches that a pattern can set for the rest of a group. -/
structure Flags where
  ignoreCase : Bool := false
  multiLine : Bool := false
  dotAll : Bool := false
  deriving DecidableEq, Repr, Inhabited

/-- What an escape sequence stands for. -/
inductive Escape where
  | char (c : Char)
  | set (s : CharSet)
  | place (p : Place)

/-- The deepest nesting of an expression. -/
def nestingLimit : Nat := 250

/-- The nesting of something that holds parts nested so deep: one more than the deepest, or the
nesting of the part if there is only one. -/
def nestingOf (parts : List Nat) : Nat :=
  let deepest := parts.foldl max 0
  if parts.length ≤ 1 then deepest else deepest + 1

/-- The characters with a meaning of their own. -/
def isMeta (c : Char) : Bool := "\\.+*?()|[]\x7b\x7d^$#&-~".toList.contains c

/-- Whether a backslash before the character makes it stand for itself: every ASCII
character but digits, letters and angle brackets. -/
def isEscapable (c : Char) : Bool :=
  isMeta c || (c.toNat < 0x80 && !c.isAlphanum && c != '<' && c != '>')

namespace Escape

/-- The escape sequence that a single character makes after a backslash. -/
def of? : Char → Option Escape
  | 'd' => some (.set .digit)
  | 'D' => some (.set CharSet.digit.complement)
  | 's' => some (.set .blank)
  | 'S' => some (.set CharSet.blank.complement)
  | 'w' => some (.set .word)
  | 'W' => some (.set CharSet.word.complement)
  | 'A' => some (.place .textStart)
  | 'z' => some (.place .textEnd)
  | 'B' => some (.place .noWordBoundary)
  | '<' => some (.place .wordStart)
  | '>' => some (.place .wordEnd)
  | 'a' => some (.char '\x07')
  | 'f' => some (.char '\x0c')
  | 't' => some (.char '\t')
  | 'n' => some (.char '\n')
  | 'r' => some (.char '\r')
  | 'v' => some (.char '\x0b')
  | c => if isEscapable c then some (.char c) else none

/-- The character whose code point has the given hexadecimal digits. -/
def ofHexDigits? (digits : List Char) : Option Char := do
  let digit? (c : Char) : Option Nat :=
    if c.isDigit then some (c.toNat - '0'.toNat)
    else if 'a' ≤ c.toLower && c.toLower ≤ 'f' then some (c.toLower.toNat - 'a'.toNat + 10)
    else none
  let n ← digits.foldlM (fun n c => (digit? c).map (16 * n + ·)) 0
  if digits.isEmpty || !n.isValidChar then none else some (Char.ofNat n)

/-- A code point: any number of hexadecimal digits in braces, or exactly `width` of them. -/
def codePoint? (width : Nat) : List Char → Option (Char × List Char)
  | '\x7b' :: cs =>
    match cs.dropWhile (· != '\x7d') with
    | '\x7d' :: rest => (ofHexDigits? (cs.takeWhile (· != '\x7d'))).map (·, rest)
    | _ => none
  | cs =>
    let digits := cs.take width
    if digits.length = width then (ofHexDigits? digits).map (·, cs.drop width) else none

/-- The place that a name in braces gives to a word boundary. -/
def namedPlace? : String → Option Place
  | "start" => some .wordStart
  | "end" => some .wordEnd
  | "start-half" => some .noWordBefore
  | "end-half" => some .noWordAfter
  | _ => none

/-- A word boundary, on one side of the word only if a name in braces follows.  Braces with
anything else are left to be read as a repetition. -/
def boundary? : List Char → Option (Place × List Char)
  | '\x7b' :: cs =>
    let isNamePart (c : Char) : Bool := c.isAlpha || c = '-'
    match cs.takeWhile isNamePart, cs.dropWhile isNamePart with
    | [], _ => some (.wordBoundary, '\x7b' :: cs)
    | name, '\x7d' :: rest => (namedPlace? (String.ofList name)).map (·, rest)
    | _, _ => none
  | cs => some (.wordBoundary, cs)

/-- Reads the escape sequence after a backslash. -/
def read? : List Char → Option (Escape × List Char)
  | [] => none
  | 'x' :: cs => (codePoint? 2 cs).map fun (c, rest) => (.char c, rest)
  | 'u' :: cs => (codePoint? 4 cs).map fun (c, rest) => (.char c, rest)
  | 'U' :: cs => (codePoint? 8 cs).map fun (c, rest) => (.char c, rest)
  | 'b' :: cs => (boundary? cs).map fun (p, rest) => (.place p, rest)
  | c :: rest => (of? c).map (·, rest)

end Escape

/-! ## Bracketed classes -/

/-- An operator between two parts of a class. -/
inductive ClassOp where
  | inter
  | diff
  | symmDiff

def ClassOp.apply : ClassOp → CharSet → CharSet → CharSet
  | .inter => .inter
  | .diff => .diff
  | .symmDiff => .symmDiff

/-- One class that is being read. -/
structure OpenClass where
  negated : Bool
  /-- The part before the last operator with its nesting, and the operator. -/
  before : Option (CharSet × Nat × ClassOp) := none
  /-- The ranges of the members so far. -/
  members : List (Nat × Nat) := []
  /-- The nesting of each item so far. -/
  nestings : List Nat := []

namespace OpenClass

/-- Adds an item that is nested so deep. -/
def addNested (k : OpenClass) (nesting : Nat) (s : CharSet) : OpenClass :=
  { k with members := s.ranges ++ k.members, nestings := nesting :: k.nestings }

def add (k : OpenClass) (s : CharSet) : OpenClass := k.addNested 0 s

/-- The members so far, the part before the last operator included. -/
def combined (fold : Bool) (k : OpenClass) : CharSet :=
  let members : CharSet := .ofRanges k.members
  let members := if fold then members.folded else members
  match k.before with
  | none => members
  | some (left, _, op) => op.apply left members

/-- The nesting of what has been read. -/
def nesting (k : OpenClass) : Nat :=
  let items := nestingOf k.nestings
  match k.before with
  | none => items
  | some (_, left, _) => nestingOf [left, items]

/-- The set that a finished class stands for. -/
def finish (fold : Bool) (k : OpenClass) : CharSet :=
  if k.negated then (k.combined fold).complement else k.combined fold

/-- Starts the part after an operator. -/
def operator (fold : Bool) (k : OpenClass) (op : ClassOp) : OpenClass :=
  { negated := k.negated, before := some (k.combined fold, k.nesting, op) }

end OpenClass

/-- The start of a class, after its opening bracket: a caret negates it, then
come dashes that stand for themselves, or one closing bracket that does. -/
def openClass (cs : List Char) : OpenClass × List Char :=
  let (negated, cs) := match cs with
    | '^' :: rest => (true, rest)
    | cs => (false, cs)
  let dashes := cs.takeWhile (· = '-')
  let k : OpenClass := { negated }
  match dashes, cs with
  | [], ']' :: rest => (k.add (.single ']'), rest)
  | [], cs => (k, cs)
  | dashes, cs => (dashes.foldl (fun k c => k.add (.single c)) k, cs.dropWhile (· = '-'))

/-- A named class such as `[:alpha:]`, after its opening bracket.  Its characters are
folded before it is negated. -/
def namedClass? (fold : Bool) : List Char → Option (CharSet × List Char)
  | ':' :: cs =>
    let (negated, cs) := match cs with
      | '^' :: rest => (true, rest)
      | cs => (false, cs)
    let name := cs.takeWhile (· != ':')
    match cs.dropWhile (· != ':') with
    | ':' :: ']' :: rest =>
      (CharSet.named? (String.ofList name)).map fun s =>
        let s := if fold then s.folded else s
        (if negated then s.complement else s, rest)
    | _ => none
  | _ => none

/-- One item of a class: a character, or a set given by an escape sequence. -/
def classItem? : List Char → Option (Sum Char CharSet × List Char)
  | '\\' :: cs =>
    match Escape.read? cs with
    | some (.char c, rest) => some (.inl c, rest)
    | some (.set s, rest) => some (.inr s, rest)
    | _ => none
  | c :: rest => some (.inl c, rest)
  | [] => none

/-- An item of a class or a range between two characters. -/
def classRange? (cs : List Char) : Option (CharSet × List Char) := do
  let (first, rest) ← classItem? cs
  let alone : CharSet := match first with
    | .inl c => .single c
    | .inr s => s
  match rest with
  | '-' :: ']' :: _ => some (alone, rest)
  | '-' :: '-' :: _ => some (alone, rest)
  | '-' :: after =>
    let (last, rest) ← classItem? after
    match first, last with
    | .inl low, .inl high => if low ≤ high then some (.range low high, rest) else none
    | _, _ => none
  | _ => some (alone, rest)

/-- Reads a class to its end.  The classes around it are on the stack.  The set comes with the
nesting of the class. -/
def readClass (fold : Bool) :
    Nat → OpenClass → List OpenClass → List Char → Option ((CharSet × Nat) × List Char)
  | 0, _, _, _ => none
  | fuel + 1, k, stack, cs =>
    match cs with
    | [] => none
    | ']' :: rest =>
      match stack with
      | [] => some ((k.finish fold, k.nesting + 1), rest)
      | outer :: stack =>
        readClass fold fuel (outer.addNested (k.nesting + 1) (k.finish fold)) stack rest
    | '[' :: rest =>
      match namedClass? fold rest with
      | some (s, rest) => readClass fold fuel (k.add s) stack rest
      | none =>
        let (inner, rest) := openClass rest
        readClass fold fuel inner (k :: stack) rest
    | '&' :: '&' :: rest => readClass fold fuel (k.operator fold .inter) stack rest
    | '-' :: '-' :: rest => readClass fold fuel (k.operator fold .diff) stack rest
    | '~' :: '~' :: rest => readClass fold fuel (k.operator fold .symmDiff) stack rest
    | cs =>
      match classRange? cs with
      | some (s, rest) => readClass fold fuel (k.add s) stack rest
      | none => none

/-! ## Repetitions -/

/-- A number between optional blanks, as in a counted repetition. -/
def count? (cs : List Char) : Option Nat × List Char :=
  let cs := cs.dropWhile isBlank
  let digits := cs.takeWhile Char.isDigit
  let n := digits.foldl (fun n c => 10 * n + (c.toNat - '0'.toNat)) 0
  (if digits.isEmpty || Nat.pow 2 32 ≤ n then none else some n,
    (cs.dropWhile Char.isDigit).dropWhile isBlank)

/-- The bounds of a counted repetition, after its opening brace. -/
def bounds? (cs : List Char) : Option (Nat × Option Nat × List Char) :=
  match count? cs with
  | (some low, '\x7d' :: rest) => some (low, some low, rest)
  | (some low, ',' :: '\x7d' :: rest) => some (low, none, rest)
  | (some low, ',' :: rest) =>
    match count? rest with
    | (some high, '\x7d' :: rest) => if low ≤ high then some (low, some high, rest) else none
    | _ => none
  | _ => none

/-- Skips the mark that makes a repetition prefer few rounds.  Which rounds are
preferred does not decide whether there is a match. -/
def skipLazy : List Char → List Char
  | '?' :: rest => rest
  | cs => cs

/-! ## Groups -/

/-- A piece of an expression, and how deep it is nested. -/
structure Piece where
  pattern : Pattern Test
  nesting : Nat := 0

/-- A group that is being read. -/
structure Group where
  /-- The flags to return to after the group. -/
  outerFlags : Flags
  /-- Whether the text of the group is remembered. -/
  captures : Bool := false
  /-- The finished choices, the last one first. -/
  choices : List Piece := []
  /-- The pieces of the current choice, the last one first.  A setting of flags leaves an
  absent piece, which cannot be repeated. -/
  pieces : List (Option Piece) := []

namespace Group

def add (g : Group) (p : Piece) : Group := { g with pieces := some p :: g.pieces }

/-- The current choice. -/
def choice (g : Group) : Piece where
  pattern := .seqs (g.pieces.reverse.filterMap fun p => p.map Piece.pattern)
  nesting := nestingOf (g.pieces.map fun p => (p.map Piece.nesting).getD 0)

/-- Starts the next choice. -/
def nextChoice (g : Group) : Group := { g with choices := g.choice :: g.choices, pieces := [] }

/-- What stands in the group. -/
def body (g : Group) : Piece :=
  let choices := (g.choice :: g.choices).reverse
  { pattern := .anyOf (choices.map Piece.pattern)
    nesting := nestingOf (choices.map Piece.nesting) }

/-- The finished group as a piece. -/
def finish (g : Group) : Piece :=
  let { pattern, nesting } := g.body
  { pattern := if g.captures then .capture pattern else pattern, nesting := nesting + 1 }

/-- Repeats the last piece. -/
def repeatLast? (g : Group) (low : Nat) (high : Option Nat) : Option Group :=
  match g.pieces with
  | some p :: rest =>
    let p : Piece := { pattern := p.pattern.repeated low high, nesting := p.nesting + 1 }
    some { g with pieces := some p :: rest }
  | _ => none

end Group

/-- The state of the reader. -/
structure Reader where
  flags : Flags := {}
  group : Group := { outerFlags := {} }
  /-- The groups around the current one, the innermost first. -/
  outer : List Group := []
  /-- The group names in use. -/
  names : List String := []

namespace Reader

/-- Adds a piece with nothing inside. -/
def add (r : Reader) (t : Test) : Reader := { r with group := r.group.add { pattern := .atom t } }

/-- Enters a group whose inside has the given flags. -/
def enter (r : Reader) (captures : Bool) (flags : Flags) : Reader :=
  { r with flags, group := { outerFlags := r.flags, captures }, outer := r.group :: r.outer }

/-- Leaves the current group. -/
def leave? (r : Reader) : Option Reader :=
  match r.outer with
  | [] => none
  | g :: outer => some { r with flags := r.group.outerFlags, group := g.add r.group.finish, outer }

/-- Sets the flags for the rest of the current group. -/
def setFlags (r : Reader) (flags : Flags) : Reader :=
  { r with flags, group := { r.group with pieces := none :: r.group.pieces } }

/-- Adds a character that stands for itself. -/
def addChar (r : Reader) (c : Char) : Reader :=
  r.add (.char (if r.flags.ignoreCase then (CharSet.single c).folded else .single c))

end Reader

/-- Turns one flag on or off. -/
def Flags.set? (f : Flags) (on : Bool) : Char → Option Flags
  | 'i' => some { f with ignoreCase := on }
  | 'm' => some { f with multiLine := on }
  | 's' => some { f with dotAll := on }
  | 'U' => some f
  | 'u' => some f
  | _ => none

/-- Reads flag letters up to the colon or parenthesis that ends them.  The letters after a minus
sign turn flags off; a letter may occur once, and a minus sign needs one after it. -/
def readFlags? (flags : Flags) (on : Bool) (seen : List Char) :
    List Char → Option (Flags × List Char)
  | [] => none
  | c :: rest =>
    if c = ':' || c = ')' then
      if seen.head? = some '-' then none else some (flags, c :: rest)
    else if seen.contains c then none
    else if c = '-' then readFlags? flags false (c :: seen) rest
    else
      match flags.set? on c with
      | some flags => readFlags? flags on (c :: seen) rest
      | none => none

/-- Whether a group name may start with a character. -/
def isNameStart (c : Char) : Bool := c = '_' || isAlphabetic c

/-- Whether a character may stand in a group name. -/
def isNameChar (c : Char) : Bool :=
  isNameStart c || isNumeric c || c = '.' || c = '[' || c = ']'

/-- The name of a group, up to its closing angle bracket. -/
def groupName? (cs : List Char) : Option (String × List Char) :=
  let name := cs.takeWhile (· != '>')
  match name, cs.dropWhile (· != '>') with
  | c :: _, '>' :: rest =>
    if isNameStart c && name.all isNameChar then some (String.ofList name, rest) else none
  | _, _ => none

/-- Enters a group with a name, which must be new. -/
def enterNamed? (r : Reader) (cs : List Char) : Option (Reader × List Char) :=
  match groupName? cs with
  | some (name, rest) =>
    if r.names.contains name then none
    else some ({ r.enter true r.flags with names := name :: r.names }, rest)
  | none => none

/-- What an opening parenthesis starts.  Conditions on the text around the match are refused. -/
def openGroup? (r : Reader) : List Char → Option (Reader × List Char)
  | '?' :: '=' :: _ => none
  | '?' :: '!' :: _ => none
  | '?' :: '<' :: '=' :: _ => none
  | '?' :: '<' :: '!' :: _ => none
  | '?' :: 'P' :: '<' :: rest => enterNamed? r rest
  | '?' :: '<' :: rest => enterNamed? r rest
  | '?' :: rest =>
    match readFlags? r.flags true [] rest with
    | some (flags, ':' :: after) => some (r.enter false flags, after)
    | some (flags, ')' :: after) =>
      if rest.head? = some ')' then none else some (r.setFlags flags, after)
    | _ => none
  | rest => some (r.enter true r.flags, rest)

/-- One step of reading: the piece or sign at the front of the text. -/
def readPiece? (r : Reader) (c : Char) (rest : List Char) : Option (Reader × List Char) :=
  let repeated (low : Nat) (high : Option Nat) (rest : List Char) :=
    (r.group.repeatLast? low high).map fun group => ({ r with group }, skipLazy rest)
  match c with
  | '(' => openGroup? r rest
  | ')' => r.leave?.map (·, rest)
  | '|' => some ({ r with group := r.group.nextChoice }, rest)
  | '*' => repeated 0 none rest
  | '+' => repeated 1 none rest
  | '?' => repeated 0 (some 1) rest
  | '\x7b' => (bounds? rest).bind fun (low, high, rest) => repeated low high rest
  | '[' =>
    let (k, rest) := openClass rest
    (readClass r.flags.ignoreCase (rest.length + 1) k [] rest).map fun ((s, nesting), rest) =>
      ({ r with group := r.group.add { pattern := .atom (.char s), nesting } }, rest)
  | '.' => some (r.add (.char (if r.flags.dotAll then .all else .notNewline)), rest)
  | '^' => some (r.add (.place (if r.flags.multiLine then .lineStart else .textStart)), rest)
  | '$' => some (r.add (.place (if r.flags.multiLine then .lineEnd else .textEnd)), rest)
  | '\\' =>
    (Escape.read? rest).map fun
      | (.char c, rest) => (r.addChar c, rest)
      | (.set s, rest) => (r.add (.char s), rest)
      | (.place p, rest) => (r.add (.place p), rest)
  | c => some (r.addChar c, rest)

/-- Reads to the end of the text. -/
def readAll : Nat → Reader → List Char → Option Piece
  | _, r, [] => if r.outer.isEmpty then some r.group.body else none
  | 0, _, _ :: _ => none
  | fuel + 1, r, c :: rest =>
    match readPiece? r c rest with
    | some (r, rest) => readAll fuel r rest
    | none => none

/-- The regular expression with the given text, if it is one and keeps the limits. -/
def parse? (source : String) : Option Regexp :=
  let cs := source.toList
  match readAll cs.length {} cs with
  | some { pattern, nesting } =>
    if nesting ≤ nestingLimit && pattern.footprint ≤ footprintLimit then some { source, pattern }
    else none
  | none => none

end Regexp

end Sexpr
