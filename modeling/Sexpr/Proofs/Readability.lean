import Mathlib
import Sexpr.Proofs.Equalities
import Sexpr.Proofs.Printing

/-!
# Sexpr.Proofs.Readability

The text of plain data tells what it is.

Plain data is built from pairs and arrays, and from `nil`, `undefined`, booleans, integers and
strings (`Value.Plain`).  The first character of its text tells its kind
(`Value.Plain.exists_text`), and the text tells where it ends: a string at the first quote without a
backslash, a list and an array at their brackets, and everything else, being a word, before the next
separator.  So from a text with something behind it both the value and the rest can be read off
(`Value.Plain.read`), up to structural equality and not beyond it.
-/

namespace Sexpr

namespace Value

variable {objects : List Value}

/-! ## words -/

/-- A character of a word. -/
def isWordChar (c : Char) : Bool := c.isAlphanum || c == '-'

/-- A word in front of this text ends there. -/
def EndsWord (rest : List Char) : Prop := ∀ c ∈ rest.head?, isWordChar c = false

theorem endsWord_cons {c : Char} {rest : List Char} (h : isWordChar c = false) :
    EndsWord (c :: rest) := by
  simp [EndsWord, h]

/-- A word is found again in a text that it starts. -/
theorem takeWhile_word {xs rest : List Char} (hxs : ∀ c ∈ xs, isWordChar c = true)
    (hrest : EndsWord rest) : (xs ++ rest).takeWhile isWordChar = xs := by
  have hnone : rest.takeWhile isWordChar = [] := by
    cases rest with
    | nil => rfl
    | cons c rest => simp [hrest c rfl]
  rw [List.takeWhile_append_of_pos hxs, hnone, List.append_nil]

theorem word_append_cancel {xs ys r r' : List Char} (hxs : ∀ c ∈ xs, isWordChar c = true)
    (hys : ∀ c ∈ ys, isWordChar c = true) (hr : EndsWord r) (hr' : EndsWord r')
    (h : xs ++ r = ys ++ r') : xs = ys ∧ r = r' := by
  have hword : xs = ys := by rw [← takeWhile_word hxs hr, h, takeWhile_word hys hr']
  subst hword
  exact ⟨rfl, List.append_cancel_left h⟩

/-- The decimal text of an integer. -/
theorem mem_repr {n : Int} {c : Char} (h : c ∈ n.repr.toList) : c.isDigit = true ∨ c = '-' := by
  have hdigits : ∀ {k : Nat}, c ∈ k.repr.toList → c.isDigit = true := by
    intro k hk
    rw [Nat.repr_eq_ofList_toDigits, String.toList_ofList] at hk
    exact Nat.isDigit_of_mem_toDigits (by decide) (by decide) hk
  rw [Int.repr_eq_if] at h
  split at h
  · exact .inl (hdigits h)
  · rw [String.toList_append, List.mem_append] at h
    rcases h with hsign | hdigit
    · exact .inr (List.mem_singleton.1 hsign)
    · exact .inl (hdigits hdigit)

theorem repr_ne_nil (n : Int) : n.repr.toList ≠ [] := by
  rw [Int.repr_eq_if]
  split <;> simp

/-- The values that are written as a certain word. -/
def keywords : List Value := [.nil, .undefined, .bool true, .bool false]

/-- A value whose text is a word: `nil`, `undefined`, a boolean or an integer. -/
def isWord : Value → Bool
  | .nil => true
  | .undefined => true
  | .bool _ => true
  | .number n => n.integer?.isSome
  | _ => false

theorem isWord_cases {v : Value} (h : v.isWord = true) :
    v ∈ keywords ∨ ∃ n i, v = .number n ∧ n.exact = .integer i ∧ n.text = i.repr := by
  cases v with
  | nil => simp [keywords]
  | undefined => simp [keywords]
  | bool b => cases b <;> simp [keywords]
  | number n =>
    cases n with
    | int n => exact .inr ⟨_, n.toInt, rfl, rfl, rfl⟩
    | big n => exact .inr ⟨_, n, rfl, rfl, rfl⟩
    | float x => cases h
  | _ => cases h

theorem text_number (n : Number) : (number n).text = n.text := rfl

/-- A certain word has letters only. -/
theorem isAlpha_keyword {v : Value} (h : v ∈ keywords) : ∀ c ∈ v.text.toList, c.isAlpha = true := by
  revert v
  simp [keywords, text, leafText]

theorem isWordChar_text {v : Value} (h : v.isWord = true) :
    ∀ c ∈ v.text.toList, isWordChar c = true := by
  intro c hc
  rcases isWord_cases h with hkeyword | ⟨n, i, rfl, -, htext⟩
  · simp [isWordChar, Char.isAlphanum, isAlpha_keyword hkeyword c hc]
  · rw [text_number, htext] at hc
    rcases mem_repr hc with hdigit | rfl
    · simp [isWordChar, Char.isAlphanum, hdigit]
    · rfl

theorem text_keyword_ne_repr {v : Value} (h : v ∈ keywords) (n : Int) : v.text ≠ n.repr := by
  intro heq
  obtain ⟨c, hc⟩ := List.exists_mem_of_ne_nil _ (repr_ne_nil n)
  have halpha := isAlpha_keyword h c (heq ▸ hc)
  rcases mem_repr hc with hdigit | rfl
  · grind [Char.isAlpha, Char.isUpper, Char.isLower, Char.isDigit, UInt32.le_iff_toNat_le]
  · cases halpha

theorem text_keyword_eq_iff :
    ∀ a ∈ keywords, ∀ b ∈ keywords, a.text = b.text ↔ same a b = true := by
  simp [keywords, text, leafText, same, leafEq]

theorem same_keyword_number : ∀ v ∈ keywords, ∀ n : Number,
    same v (.number n) = false ∧ same (.number n) v = false := by
  simp [keywords, same, leafEq]

theorem text_eq_iff_of_isWord {a b : Value} (ha : a.isWord = true) (hb : b.isWord = true) :
    a.text = b.text ↔ same a b = true := by
  rcases isWord_cases ha with ha | ⟨m, i, rfl, hi, hitext⟩
  · rcases isWord_cases hb with hb | ⟨n, j, rfl, -, hjtext⟩
    · exact text_keyword_eq_iff a ha b hb
    · have hne : a.text ≠ (number n).text := by
        rw [text_number, hjtext]
        exact text_keyword_ne_repr ha j
      simp [hne, (same_keyword_number a ha n).1]
  · rcases isWord_cases hb with hb | ⟨n, j, rfl, hj, hjtext⟩
    · have hne : (number m).text ≠ b.text := by
        rw [text_number, hitext]
        exact (text_keyword_ne_repr hb i).symm
      simp [hne, (same_keyword_number b hb m).2]
    · have hkeys : same (.number m) (.number n) = true ↔ m.exact = n.exact := by
        simp [same, leafEq, Number.beq_eq_true_iff]
      rw [hkeys, hi, hj, text_number, text_number, hitext, hjtext, Int.repr_inj,
        Exact.integer.injEq]

/-! ## strings -/

/-- The displayed form of a character tells the character and where the form ends. -/
theorem escapeChar_append_cancel {c d : Char} {r r' : List Char}
    (h : escapeChar c ++ r = escapeChar d ++ r') : c = d ∧ r = r' := by
  unfold escapeChar at h
  split at h <;> split at h <;> grind

/-- A quote in a string does not end it. -/
theorem escapeChar_append_ne (c : Char) (r r' : List Char) : escapeChar c ++ r ≠ '"' :: r' := by
  unfold escapeChar
  split <;> simp_all

theorem escaped_append_cancel {s t r r' : List Char}
    (h : s.flatMap escapeChar ++ '"' :: r = t.flatMap escapeChar ++ '"' :: r') :
    s = t ∧ r = r' := by
  induction s generalizing t with
  | nil =>
    cases t with
    | nil => simpa using h
    | cons d t =>
      rw [List.flatMap_cons, List.append_assoc] at h
      exact (escapeChar_append_ne _ _ _ h.symm).elim
  | cons c s ih =>
    cases t with
    | nil =>
      rw [List.flatMap_cons, List.append_assoc] at h
      exact (escapeChar_append_ne _ _ _ h).elim
    | cons d t =>
      rw [List.flatMap_cons, List.append_assoc, List.flatMap_cons, List.append_assoc] at h
      obtain ⟨rfl, hrest⟩ := escapeChar_append_cancel h
      obtain ⟨rfl, rfl⟩ := ih hrest
      exact ⟨rfl, rfl⟩

/-! ## plain data -/

/-- Data built from pairs and arrays, and from `nil`, `undefined`, booleans, integers and
strings. -/
inductive Plain : Value → Prop
  | word {v : Value} : v.isWord = true → Plain v
  | string (s : String) : Plain (.string s)
  | pair {id : Ident} {a d : Value} : Plain a → Plain d → Plain (.pair id a d)
  | array {id : Ident} {xs : List Value} : (∀ x ∈ xs, Plain x) → Plain (.array id xs)

/-- How the text of plain data starts. -/
inductive Opening where
  | word
  | quote
  | parenthesis
  | bracket

/-- What a character opens, if it opens something. -/
def Opening.ofChar? : Char → Option Opening
  | '"' => some .quote
  | '(' => some .parenthesis
  | '[' => some .bracket
  | c => if isWordChar c then some .word else none

/-- What plain data opens with. -/
def opening : Value → Opening
  | .string _ => .quote
  | .pair .. => .parenthesis
  | .array .. => .bracket
  | _ => .word

theorem opening_of_isWord {v : Value} (h : v.isWord = true) : v.opening = .word := by
  cases v <;> first | rfl | cases h

theorem text_ne_nil_of_isWord {v : Value} (h : v.isWord = true) : v.text.toList ≠ [] := by
  rcases isWord_cases h with hkeyword | ⟨n, i, rfl, -, htext⟩
  · have hall : ∀ v ∈ keywords, v.text.toList ≠ [] := by simp [keywords, text, leafText]
    exact hall v hkeyword
  · rw [text_number, htext]
    exact repr_ne_nil i

/-- The first character of a text tells the kind of plain data. -/
theorem Plain.exists_text {v : Value} (h : Plain v) :
    ∃ c cs, v.text.toList = c :: cs ∧ Opening.ofChar? c = some v.opening := by
  cases h with
  | @word v hword =>
    obtain ⟨c, cs, hcs⟩ := List.exists_cons_of_ne_nil (text_ne_nil_of_isWord hword)
    have hc : isWordChar c = true := isWordChar_text hword c (by simp [hcs])
    refine ⟨c, cs, hcs, ?_⟩
    rw [opening_of_isWord hword]
    unfold Opening.ofChar?
    split <;> simp_all [isWordChar]
  | string s => exact ⟨'"', _, by simp [text, leafText, quoted]; rfl, rfl⟩
  | pair _ _ => exact ⟨'(', _, by simp [text]; rfl, rfl⟩
  | array _ => exact ⟨'[', _, by simp [text]; rfl, rfl⟩

theorem Plain.opening_eq {a b : Value} {r r' : List Char} (ha : Plain a) (hb : Plain b)
    (h : a.text.toList ++ r = b.text.toList ++ r') : a.opening = b.opening := by
  obtain ⟨c, cs, hac, hca⟩ := ha.exists_text
  obtain ⟨d, ds, hbd, hdb⟩ := hb.exists_text
  rw [hac, hbd] at h
  have hcd : c = d := (List.cons.inj h).1
  exact Option.some.inj (hca.symm.trans (hcd ▸ hdb))

/-- No plain data starts with a character that opens nothing. -/
theorem Plain.text_append_ne {v : Value} {c : Char} {r r' : List Char} (h : Plain v)
    (hc : Opening.ofChar? c = none) : v.text.toList ++ r ≠ c :: r' := by
  obtain ⟨d, ds, hd, hopening⟩ := h.exists_text
  intro heq
  rw [hd] at heq
  have hdc : d = c := (List.cons.inj heq).1
  rw [hdc, hc] at hopening
  cases hopening

/-! ## texts as lists of characters -/

theorem toList_text_string (s : String) :
    (string s).text.toList = '"' :: (s.toList.flatMap escapeChar ++ ['"']) := by
  simp [text, leafText, quoted]

theorem toList_text_pair (id : Ident) (a d : Value) :
    (pair id a d).text.toList = '(' :: (a.text.toList ++ d.restText.toList) := by
  simp [text]

theorem toList_restText_pair (id : Ident) (a d : Value) :
    (pair id a d).restText.toList = ' ' :: (a.text.toList ++ d.restText.toList) := by
  simp [restText]

theorem toList_restText_nil : (Value.nil).restText.toList = [')'] := by
  simp [restText]

theorem toList_restText_atom {v : Value} (hnil : v.isNil = false) (hpair : v.isPair = false) :
    v.restText.toList = ' ' :: '.' :: ' ' :: (v.text.toList ++ [')']) := by
  simp [restText_atom hnil hpair]

theorem toList_text_array (id : Ident) (xs : List Value) :
    (array id xs).text.toList = '[' :: ((itemsText xs).toList ++ [']']) := by
  simp [text]

/-- Every item but the first is written after a space. -/
theorem toList_itemsText_cons (x : Value) (xs : List Value) :
    (itemsText (x :: xs)).toList = x.text.toList ++ xs.flatMap fun y => ' ' :: y.text.toList := by
  induction xs generalizing x with
  | nil => simp [itemsText]
  | cons y ys ih => simp [itemsText, ih]

/-! ## reading -/

/-- Plain data with this text, and something behind it that ends a word, is equal to the value. -/
def ReadAlone (a : Value) : Prop :=
  ∀ ⦃b : Value⦄ ⦃r r' : List Char⦄, Plain b → EndsWord r → EndsWord r' →
    a.text.toList ++ r = b.text.toList ++ r' → same a b = true ∧ r = r'

/-- Plain data that is written like the value behind an element of a list is equal to it. -/
def ReadBehind (a : Value) : Prop :=
  ∀ ⦃b : Value⦄ ⦃r r' : List Char⦄, Plain b →
    a.restText.toList ++ r = b.restText.toList ++ r' → same a b = true ∧ r = r'

/-- A value can end a list, go on with it, or stand behind a dot. -/
theorem nil_or_pair_or_atom (v : Value) :
    v = .nil ∨ (∃ id a d, v = .pair id a d) ∨ v.isNil = false ∧ v.isPair = false := by
  cases v <;> simp [isNil, isPair]

theorem endsWord_restText (v : Value) (r : List Char) : EndsWord (v.restText.toList ++ r) := by
  rcases nil_or_pair_or_atom v with rfl | ⟨id, a, d, rfl⟩ | ⟨hnil, hpair⟩
  · exact endsWord_cons rfl
  · rw [toList_restText_pair]
    exact endsWord_cons rfl
  · rw [toList_restText_atom hnil hpair]
    exact endsWord_cons rfl

theorem Plain.slots {id : Ident} {a d : Value} (h : Plain (.pair id a d)) : Plain a ∧ Plain d := by
  cases h with
  | word hword => cases hword
  | pair ha hd => exact ⟨ha, hd⟩

/-- Behind a dot an atom is read as by itself. -/
theorem ReadAlone.readBehind {a : Value} (h : ReadAlone a) (hnil : a.isNil = false)
    (hpair : a.isPair = false) : ReadBehind a := by
  intro b r r' hb heq
  rw [toList_restText_atom hnil hpair] at heq
  rcases nil_or_pair_or_atom b with rfl | ⟨id, x, e, rfl⟩ | ⟨hbnil, hbpair⟩
  · simp [toList_restText_nil] at heq
  · simp only [toList_restText_pair, List.cons_append, List.cons.injEq, true_and,
      List.append_assoc] at heq
    exact (hb.slots.1.text_append_ne rfl heq.symm).elim
  · simp only [toList_restText_atom hbnil hbpair, List.cons_append, List.cons.injEq, true_and,
      List.append_assoc] at heq
    obtain ⟨hsame, hrest⟩ := h hb (endsWord_cons rfl) (endsWord_cons rfl) heq
    exact ⟨hsame, (List.cons.inj hrest).2⟩

theorem readAlone_word {a : Value} (ha : a.isWord = true) : ReadAlone a := by
  intro b r r' hb hr hr' h
  have hopening := (Plain.word ha).opening_eq hb h
  rw [opening_of_isWord ha] at hopening
  cases hb with
  | word hb =>
    obtain ⟨hword, hrest⟩ := word_append_cancel (isWordChar_text ha) (isWordChar_text hb) hr hr' h
    exact ⟨(text_eq_iff_of_isWord ha hb).1 (String.toList_inj.1 hword), hrest⟩
  | _ => cases hopening

/-- The end of a list is not written, but the list is closed. -/
theorem readBehind_nil : ReadBehind .nil := by
  intro b r r' _ h
  rw [toList_restText_nil] at h
  rcases nil_or_pair_or_atom b with rfl | ⟨id, x, e, rfl⟩ | ⟨hnil, hpair⟩
  · exact ⟨same_refl _, by simpa [toList_restText_nil] using h⟩
  · simp [toList_restText_pair] at h
  · simp [toList_restText_atom hnil hpair] at h

theorem readBehind_word {a : Value} (ha : a.isWord = true) : ReadBehind a := by
  rcases nil_or_pair_or_atom a with rfl | ⟨id, x, e, rfl⟩ | ⟨hnil, hpair⟩
  · exact readBehind_nil
  · cases ha
  · exact (readAlone_word ha).readBehind hnil hpair

theorem readAlone_string (s : String) : ReadAlone (.string s) := by
  intro b r r' hb _ _ h
  have hopening := (Plain.string s).opening_eq hb h
  cases hb with
  | word hword => cases hopening.trans (opening_of_isWord hword)
  | string t =>
    simp only [toList_text_string, List.cons_append, List.append_assoc, List.nil_append,
      List.cons.injEq, true_and] at h
    obtain ⟨hst, hrest⟩ := escaped_append_cancel h
    exact ⟨by simp [same, leafEq, String.toList_inj.1 hst], hrest⟩
  | _ => cases hopening

/-- The slots of a pair are read one after the other. -/
theorem same_pair_of_append {id id' : Ident} {a d x e : Value} {r r' : List Char}
    (ha : ReadAlone a) (hd : ReadBehind d) (hb : Plain (.pair id' x e))
    (h : a.text.toList ++ (d.restText.toList ++ r) = x.text.toList ++ (e.restText.toList ++ r')) :
    same (.pair id a d) (.pair id' x e) = true ∧ r = r' := by
  obtain ⟨hax, hrest⟩ := ha hb.slots.1 (endsWord_restText d r) (endsWord_restText e r') h
  obtain ⟨hde, hrest⟩ := hd hb.slots.2 hrest
  exact ⟨same_pair_iff.2 ⟨_, _, _, rfl, hax, hde⟩, hrest⟩

theorem readAlone_pair {id : Ident} {a d : Value} (hplain : Plain (.pair id a d))
    (ha : ReadAlone a) (hd : ReadBehind d) : ReadAlone (.pair id a d) := by
  intro b r r' hb _ _ h
  have hopening := hplain.opening_eq hb h
  cases hb with
  | word hword => cases hopening.trans (opening_of_isWord hword)
  | pair hx he =>
    simp only [toList_text_pair, List.cons_append, List.append_assoc, List.cons.injEq,
      true_and] at h
    exact same_pair_of_append ha hd (.pair hx he) h
  | _ => cases hopening

theorem readBehind_pair {id : Ident} {a d : Value} (hplain : Plain (.pair id a d))
    (ha : ReadAlone a) (hd : ReadBehind d) : ReadBehind (.pair id a d) := by
  intro b r r' hb h
  rw [toList_restText_pair] at h
  rcases nil_or_pair_or_atom b with rfl | ⟨id', x, e, rfl⟩ | ⟨hnil, hpair⟩
  · simp [toList_restText_nil] at h
  · simp only [toList_restText_pair, List.cons_append, List.append_assoc, List.cons.injEq,
      true_and] at h
    exact same_pair_of_append ha hd hb h
  · simp only [toList_restText_atom hnil hpair, List.cons_append, List.append_assoc,
      List.cons.injEq, true_and] at h
    exact (hplain.slots.1.text_append_ne rfl h).elim

/-- Items behind the first, and the bracket behind the items, end a word. -/
theorem endsWord_items (xs : List Value) (r : List Char) :
    EndsWord ((xs.flatMap fun x => ' ' :: x.text.toList) ++ ']' :: r) := by
  cases xs <;> exact endsWord_cons rfl

/-- The items behind the first are read one after the other, up to the bracket. -/
theorem same_items_of_append {xs ys : List Value} {r r' : List Char}
    (hxs : ∀ x ∈ xs, ReadAlone x) (hys : ∀ y ∈ ys, Plain y)
    (h : (xs.flatMap fun x => ' ' :: x.text.toList) ++ ']' :: r =
      (ys.flatMap fun y => ' ' :: y.text.toList) ++ ']' :: r') :
    List.Forall₂ (fun x y => same x y = true) xs ys ∧ r = r' := by
  induction xs generalizing ys with
  | nil =>
    cases ys with
    | nil => simpa using h
    | cons y ys => simp at h
  | cons x xs ih =>
    cases ys with
    | nil => simp at h
    | cons y ys =>
      rw [List.forall_mem_cons] at hxs hys
      simp only [List.flatMap_cons, List.cons_append, List.append_assoc, List.cons.injEq,
        true_and] at h
      obtain ⟨hxy, hrest⟩ := hxs.1 hys.1 (endsWord_items xs r) (endsWord_items ys r') h
      obtain ⟨hall, hrest⟩ := ih hxs.2 hys.2 hrest
      exact ⟨.cons hxy hall, hrest⟩

/-- All items are read one after the other, up to the bracket. -/
theorem same_items_of_itemsText {xs ys : List Value} {r r' : List Char}
    (hxs : ∀ x ∈ xs, Plain x ∧ ReadAlone x) (hys : ∀ y ∈ ys, Plain y)
    (h : (itemsText xs).toList ++ ']' :: r = (itemsText ys).toList ++ ']' :: r') :
    List.Forall₂ (fun x y => same x y = true) xs ys ∧ r = r' := by
  cases xs with
  | nil =>
    cases ys with
    | nil => simpa [itemsText] using h
    | cons y ys =>
      rw [toList_itemsText_cons, List.append_assoc] at h
      exact ((hys y List.mem_cons_self).text_append_ne rfl h.symm).elim
  | cons x xs =>
    rw [List.forall_mem_cons] at hxs
    cases ys with
    | nil =>
      rw [toList_itemsText_cons, List.append_assoc] at h
      exact (hxs.1.1.text_append_ne rfl h).elim
    | cons y ys =>
      rw [List.forall_mem_cons] at hys
      simp only [toList_itemsText_cons, List.append_assoc] at h
      obtain ⟨hxy, hrest⟩ := hxs.1.2 hys.1 (endsWord_items xs r) (endsWord_items ys r') h
      obtain ⟨hall, hrest⟩ := same_items_of_append (fun x hx => (hxs.2 x hx).2) hys.2 hrest
      exact ⟨.cons hxy hall, hrest⟩

theorem readAlone_array {id : Ident} {xs : List Value} (hxs : ∀ x ∈ xs, Plain x ∧ ReadAlone x) :
    ReadAlone (.array id xs) := by
  intro b r r' hb _ _ h
  have hplain : Plain (.array id xs) := .array fun x hx => (hxs x hx).1
  have hopening := hplain.opening_eq hb h
  cases hb with
  | word hword => cases hopening.trans (opening_of_isWord hword)
  | array hys =>
    simp only [toList_text_array, List.cons_append, List.append_assoc, List.nil_append,
      List.cons.injEq, true_and] at h
    obtain ⟨hall, hrest⟩ := same_items_of_itemsText hxs hys h
    exact ⟨same_array_iff.2 ⟨_, _, rfl, hall⟩, hrest⟩
  | _ => cases hopening

/-- Plain data can be read, by itself and behind the elements of a list. -/
theorem Plain.read {a : Value} (h : Plain a) : ReadAlone a ∧ ReadBehind a := by
  induction h with
  | word hword => exact ⟨readAlone_word hword, readBehind_word hword⟩
  | string s => exact ⟨readAlone_string s, (readAlone_string s).readBehind rfl rfl⟩
  | pair ha hd iha ihd =>
    exact ⟨readAlone_pair (.pair ha hd) iha.1 ihd.2, readBehind_pair (.pair ha hd) iha.1 ihd.2⟩
  | @array id xs hxs ih =>
    have halone : ReadAlone (.array id xs) := readAlone_array fun x hx => ⟨hxs x hx, (ih x hx).1⟩
    exact ⟨halone, halone.readBehind rfl rfl⟩

/-! ## writing -/

theorem isNil_of_same {a b : Value} (h : same a b = true) : a.isNil = b.isNil := by
  cases a with
  | nil =>
    have hkey : b.leafKey = some .nil := (same_leaf_iff rfl).1 h
    cases b <;> first | rfl | cases hkey
  | _ =>
    cases b with
    | nil => simp [same, leafEq] at h
    | _ => rfl

theorem isWord_of_same {a b : Value} (ha : a.isWord = true) (hb : Plain b) (h : same a b = true) :
    b.isWord = true := by
  cases hb with
  | word hb => exact hb
  | _ => cases a <;> simp only [isWord, Bool.false_eq_true] at ha <;> simp [same, leafEq] at h

theorem restText_eq_of_text_eq {a b : Value} (hpair : a.isPair = false) (hpair' : b.isPair = false)
    (hnil : a.isNil = b.isNil) (h : a.text = b.text) : a.restText = b.restText := by
  cases hanil : a.isNil with
  | true => rw [eq_nil_of_isNil hanil, eq_nil_of_isNil (hnil.symm.trans hanil)]
  | false => rw [restText_atom hanil hpair, restText_atom (hnil.symm.trans hanil) hpair', h]

theorem itemsText_congr {xs ys : List Value}
    (h : List.Forall₂ (fun x y => x.text = y.text) xs ys) : itemsText xs = itemsText ys := by
  induction h with
  | nil => rfl
  | cons hxy hrest ih =>
    cases hrest with
    | nil => simp [itemsText, hxy]
    | cons _ _ => simp [itemsText, hxy, ih]

/-- Equal plain data has one text. -/
theorem Plain.text_eq_of_same {a b : Value} (ha : Plain a) (hb : Plain b) (h : same a b = true) :
    a.text = b.text ∧ a.restText = b.restText := by
  induction ha generalizing b with
  | @word a hword =>
    have hword' := isWord_of_same hword hb h
    have htext := (text_eq_iff_of_isWord hword hword').2 h
    have hpair : ∀ {v : Value}, v.isWord = true → v.isPair = false := by
      intro v hv
      cases v <;> first | rfl | cases hv
    exact ⟨htext, restText_eq_of_text_eq (hpair hword) (hpair hword') (isNil_of_same h) htext⟩
  | string s =>
    have hkey : b.leafKey = some (.string s) := (same_leaf_iff rfl).1 h
    cases b <;> cases hkey
    exact ⟨rfl, rfl⟩
  | pair _ _ iha ihd =>
    obtain ⟨id', x, e, rfl, hax, hde⟩ := same_pair_iff.1 h
    obtain ⟨hx, he⟩ := hb.slots
    simp only [text, restText, (iha hx hax).1, (ihd he hde).2, and_self]
  | @array id xs _ ih =>
    obtain ⟨id', ys, rfl, hall⟩ := same_array_iff.1 h
    have hys : ∀ y ∈ ys, Plain y := by
      cases hb with
      | word hword => cases hword
      | array hys => exact hys
    have htexts : List.Forall₂ (fun x y => x.text = y.text) xs ys := by
      rw [List.forall₂_iff_zip] at hall ⊢
      refine ⟨hall.1, fun hxy => ?_⟩
      obtain ⟨hx, hy⟩ := List.of_mem_zip hxy
      exact (ih _ hx (hys _ hy) (hall.2 hxy)).1
    simp only [text, restText, itemsText_congr htexts, and_self]

/-- **The text of plain data tells what it is**: two plain values that can exist side by side have
the same text exactly when they are structurally equal. -/
theorem render_eq_iff_beq {a b : Value} (ha : Stored objects a) (hb : Stored objects b)
    (hplain : Plain a) (hplain' : Plain b) : a.render = b.render ↔ (a == b) = true := by
  rw [beq_eq_same ha hb, render_eq_text, render_eq_text]
  constructor
  · intro h
    have hends : EndsWord [] := by simp [EndsWord]
    exact (hplain.read.1 hplain' hends hends (by rw [h])).1
  · intro h
    exact (hplain.text_eq_of_same hplain' h).1

/-- The list of the string `a" "b` is written in another way than the list of `a` and `b`, and
a pair with big integers in it is written like the one with machine integers. -/
theorem render_eq_iff_beq_quotes :
    let one := Value.pair 0 (.string "a\" \"b") .nil
    let two := Value.pair 2 (.string "a") (.pair 1 (.string "b") .nil)
    let dotted := Value.pair 4 (.number (.int 1)) (.array 3 [.nil, .number (.int (-12))])
    let dotted' := Value.pair 6 (.number (.big 1)) (.array 5 [.nil, .number (.big (-12))])
    let objects := [one, .pair 1 (.string "b") .nil, two,
      .array 3 [.nil, .number (.int (-12))], dotted,
      .array 5 [.nil, .number (.big (-12))], dotted']
    Stored objects one ∧ Stored objects two ∧ Plain one ∧ Plain two ∧
    Stored objects dotted ∧ Stored objects dotted' ∧ Plain dotted ∧ Plain dotted' ∧
      one.render ≠ two.render ∧ dotted.render = dotted'.render := by
  intro one two dotted dotted' objects
  have hone : Stored objects one := .pair rfl (.simple rfl) (.simple rfl)
  have htwo : Stored objects two := .pair rfl (.simple rfl) (.pair rfl (.simple rfl) (.simple rfl))
  have hplain : Plain one := .pair (.string _) (.word rfl)
  have hplain' : Plain two := .pair (.string _) (.pair (.string _) (.word rfl))
  have hitems : ∀ n : Number, ∀ x ∈ [Value.nil, .number n], Stored objects x := by
    intro n x hx
    rcases List.mem_pair.1 hx with rfl | rfl <;> exact .simple rfl
  have hwords : ∀ n : Number, n.integer?.isSome = true → ∀ x ∈ [Value.nil, .number n], Plain x := by
    intro n hn x hx
    rcases List.mem_pair.1 hx with rfl | rfl
    · exact .word rfl
    · exact .word hn
  have hdotted : Stored objects dotted := .pair rfl (.simple rfl) (.array rfl (hitems _))
  have hdotted' : Stored objects dotted' := .pair rfl (.simple rfl) (.array rfl (hitems _))
  have hdplain : Plain dotted := .pair (.word rfl) (.array (hwords _ rfl))
  have hdplain' : Plain dotted' := .pair (.word rfl) (.array (hwords _ rfl))
  have hdiffer : ¬ (one == two) = true := by
    rw [beq_eq_same hone htwo]
    decide +kernel
  have hsame : (dotted == dotted') = true := by
    rw [beq_eq_same hdotted hdotted']
    decide +kernel
  exact ⟨hone, htwo, hplain, hplain', hdotted, hdotted', hdplain, hdplain',
    fun h => hdiffer ((render_eq_iff_beq hone htwo hplain hplain').1 h),
    (render_eq_iff_beq hdotted hdotted' hdplain hdplain').2 hsame⟩

end Value

end Sexpr
