import Sexpr.Library
import Sexpr.Proofs.Sharing

/-!
# Sexpr.Proofs.Hashing

Hashing agrees with structural equality.

What is hashed of a value stands in front of what is hashed after it, so the statements are about
`hashParts v rest` for every `rest`; the stack of pending values feeds the same to the hasher
(`Value.hashAll_cons`).  Equal values are hashed alike (`Value.hashParts_of_same`): a
leaf by what it is compared by, pairs and arrays part by part, sets and objects by less than
what they are compared by.  Where nothing is left out (`Value.HashedWhole`) the hash tells in turn
where the value ends and what it is equal to (`Value.same_of_hashParts`).
-/

namespace Sexpr

namespace Value

variable {objects : List Value}

/-! ## pending values -/

theorem hashItems_append (xs ys : List Value) (rest : List HashPart) :
    hashItems (xs ++ ys) rest = hashItems xs (hashItems ys rest) := by
  induction xs with
  | nil => rfl
  | cons x xs ih => rw [List.cons_append, hashItems, hashItems, ih]

/-- The stack of pending values feeds the parts of one value after another to the hasher. -/
theorem hashAll_eq (pending : List Value) : hashAll pending = hashItems pending [] := by
  fun_induction hashAll pending with
  | case1 => rfl
  | case2 id a d pending ih => rw [ih, hashItems, hashItems, hashItems, hashParts]
  | case3 id xs pending ih => rw [ih, hashItems_append, hashItems, hashParts]
  | case4 v pending hpair harray ih =>
    have hown : hashParts v (hashItems pending []) = hashOwn v ++ hashItems pending [] := by
      rw [hashParts] <;> assumption
    rw [ih, hashItems, hown]

theorem hashAll_cons (v : Value) (pending : List Value) :
    hashAll (v :: pending) = hashParts v (hashAll pending) := by
  rw [hashAll_eq, hashAll_eq, hashItems]

theorem hashKey_eq (v : Value) : hashKey v = hashParts v [] := hashAll_eq [v]

/-! ## leaves -/

/-- What a hash of a leaf depends on. -/
def LeafKey.parts : LeafKey → List HashPart
  | .nil => [.type "nil"]
  | .undefined => [.type "undefined"]
  | .bool b => [.type "boolean", .bool b]
  | .number x => [.type "number", .number x]
  | .string s => [.type "string", .text s]
  | .symbol name => [.type "symbol", .text name]
  | .regexp source => [.type "regexp", .text source]
  | .native id => [.type "native-fn", .identity id]
  | .thunk id => [.type "native-fn", .identity id]
  | .closure id => [.type "lambda", .identity id]
  | .hosted id => [.type "lambda", .identity id]
  | .form id => [.type "special-form", .identity id]
  | .dataType id => [.type "data-type", .identity id]

/-- A leaf is hashed by its key. -/
theorem hashParts_leaf {v : Value} {k : LeafKey} (hk : v.leafKey = some k)
    (rest : List HashPart) : hashParts v rest = k.parts ++ rest := by
  cases v <;> cases hk <;> rfl

/-! ## equal values are hashed alike -/

/-- Items that are hashed alike one by one are hashed alike together. -/
theorem hashItems_congr {xs ys : List Value} (rest : List HashPart)
    (hhash : ∀ x ∈ xs, ∀ y, same x y = true → ∀ rest, hashParts x rest = hashParts y rest)
    (h : List.Forall₂ (fun x y => same x y = true) xs ys) :
    hashItems xs rest = hashItems ys rest := by
  induction h with
  | nil => rfl
  | cons hxy _ ih =>
    obtain ⟨hhead, htail⟩ := List.forall_mem_cons.1 hhash
    rw [hashItems, hashItems, ih htail, hhead _ hxy]

theorem hashParts_of_same {a b : Value} (h : same a b = true) (rest : List HashPart) :
    hashParts a rest = hashParts b rest := by
  induction a using inductionOnParts generalizing b rest with
  | leaf v k hk =>
    rw [hashParts_leaf hk, hashParts_leaf ((same_leaf_iff hk).1 h)]
  | pair id a d iha ihd =>
    obtain ⟨id', b, e, rfl, hab, hde⟩ := same_pair_iff.1 h
    rw [hashParts, hashParts, ihd hde, iha hab]
    rfl
  | set id xs _ =>
    obtain ⟨id', ys, rfl, hlength, -⟩ := same_set_iff.1 h
    simp only [hashParts, hashOwn, hlength]
  | array id xs ih =>
    obtain ⟨id', ys, rfl, hitems⟩ := same_array_iff.1 h
    have hall := hashItems_congr rest (fun x hx y hxy => ih x hx hxy) hitems
    simp only [hashParts, hashOwn, hitems.length_eq, hall]
  | object id es _ =>
    obtain ⟨id', fs, rfl, hentries⟩ := same_object_iff.1 h
    simp only [hashParts, hashOwn, hentries.length_eq,
      (forall_mem_zip_entryValues_iff.2 hentries).1]

theorem hashKey_of_same {a b : Value} (h : same a b = true) : hashKey a = hashKey b := by
  rw [hashKey_eq, hashKey_eq, hashParts_of_same h]

/-! ## what a hash tells -/

/-- A leaf that is compared by what it is. -/
def LeafKey.isData : LeafKey → Bool
  | .native _ | .thunk _ | .closure _ | .hosted _ | .form _ | .dataType _ => false
  | _ => true

/-- A value of which nothing is left out of the hash: there are no sets, objects and callables
in it. -/
inductive HashedWhole : Value → Prop
  | leaf {v : Value} {k : LeafKey} : v.leafKey = some k → k.isData = true → HashedWhole v
  | pair {id : Ident} {a d : Value} :
    HashedWhole a → HashedWhole d → HashedWhole (.pair id a d)
  | array {id : Ident} {xs : List Value} :
    (∀ x ∈ xs, HashedWhole x) → HashedWhole (.array id xs)

/-- The parts of a leaf tell which leaf it is and where it ends. -/
theorem LeafKey.leafKey_of_parts {k : LeafKey} (hdata : k.isData = true) {b : Value}
    {rest rest' : List HashPart} (h : k.parts ++ rest = hashParts b rest') :
    b.leafKey = some k ∧ rest = rest' := by
  cases k <;> cases hdata <;> cases b <;> simp_all [parts, hashParts, hashOwn, leafKey]

theorem same_of_hashItems {xs ys : List Value} (hlength : xs.length = ys.length)
    {rest rest' : List HashPart}
    (hhash : ∀ x ∈ xs, ∀ y rest rest', hashParts x rest = hashParts y rest' →
      same x y = true ∧ rest = rest')
    (h : hashItems xs rest = hashItems ys rest') :
    List.Forall₂ (fun x y => same x y = true) xs ys ∧ rest = rest' := by
  induction xs generalizing ys with
  | nil =>
    obtain rfl := List.length_eq_zero_iff.1 hlength.symm
    exact ⟨.nil, h⟩
  | cons x xs ih =>
    obtain ⟨y, ys, rfl⟩ := List.exists_cons_of_length_eq_add_one hlength.symm
    obtain ⟨hhead, htail⟩ := List.forall_mem_cons.1 hhash
    obtain ⟨hxy, hrest⟩ := hhead y _ _ h
    obtain ⟨hall, heq⟩ := ih (by simpa using hlength) htail hrest
    exact ⟨.cons hxy hall, heq⟩

/-- The hash of a value tells what is equal to it and where it ends. -/
theorem same_of_hashParts {a b : Value} (ha : HashedWhole a) {rest rest' : List HashPart}
    (h : hashParts a rest = hashParts b rest') : same a b = true ∧ rest = rest' := by
  induction ha generalizing b rest rest' with
  | leaf hk hdata =>
    rw [hashParts_leaf hk] at h
    obtain ⟨hb, hrest⟩ := LeafKey.leafKey_of_parts hdata h
    exact ⟨(same_leaf_iff hk).2 hb, hrest⟩
  | pair _ _ iha ihd =>
    cases b with
    | pair id' b e =>
      obtain ⟨hab, hde⟩ := iha (List.cons.inj h).2
      obtain ⟨hde, hrest⟩ := ihd hde
      exact ⟨same_pair_iff.2 ⟨_, _, _, rfl, hab, hde⟩, hrest⟩
    | _ => simp [hashParts, hashOwn] at h
  | array _ ih =>
    cases b with
    | array id' ys =>
      simp only [hashParts, hashOwn, List.cons_append, List.nil_append, List.cons.injEq,
        HashPart.size.injEq, true_and] at h
      obtain ⟨hlength, hitems⟩ := h
      obtain ⟨hall, hrest⟩ := same_of_hashItems hlength (fun x hx y _ _ => ih x hx) hitems
      exact ⟨same_array_iff.2 ⟨_, _, rfl, hall⟩, hrest⟩
    | _ => simp [hashParts, hashOwn] at h

/-! ## hashing and equality -/

theorem hashKey_of_beq {a b : Value} (ha : Stored objects a) (hb : Stored objects b)
    (h : (a == b) = true) : hashKey a = hashKey b :=
  hashKey_of_same ((beq_eq_same ha hb).symm.trans h)

/-- Looking for an element among those that are hashed alike is as good as looking among all. -/
theorem hasElement_filter_hashKey {xs : List Value} {y : Value} (hxs : ∀ x ∈ xs, Stored objects x)
    (hy : Stored objects y) :
    hasElement (xs.filter (hashKey · = hashKey y)) y = hasElement xs y := by
  rw [Bool.eq_iff_iff]
  simp only [hasElement, List.any_filter, List.any_eq_true, Bool.and_eq_true, decide_eq_true_eq]
  exact exists_congr fun x => and_congr_right fun hx =>
    ⟨And.right, fun hxy => ⟨hashKey_of_beq (hxs x hx) hy hxy, hxy⟩⟩

/-- **Equal values are hashed alike**, whatever is hashed after them, and also from a stack of
pending values.  Values without sets, objects and callables are hashed alike only when they are
equal.  So looking for an element among those that are hashed alike is as good as looking among
all. -/
theorem hashParts_of_beq {a b : Value} (ha : Stored objects a) (hb : Stored objects b) :
    ((a == b) = true → (∀ rest, hashParts a rest = hashParts b rest) ∧
      ∀ pending, hashAll (a :: pending) = hashAll (b :: pending)) ∧
      (a.HashedWhole → (hashKey a = hashKey b ↔ (a == b) = true)) ∧
      ∀ xs : List Value, (∀ x ∈ xs, Stored objects x) →
        hasElement (xs.filter (hashKey · = hashKey b)) b = hasElement xs b := by
  refine ⟨fun h => ?_, fun hwhole => ⟨fun h => ?_, hashKey_of_beq ha hb⟩,
    fun xs hxs => hasElement_filter_hashKey hxs hb⟩
  · rw [beq_eq_same ha hb] at h
    refine ⟨hashParts_of_same h, fun pending => ?_⟩
    rw [hashAll_cons, hashAll_cons, hashParts_of_same h]
  · rw [hashKey_eq, hashKey_eq] at h
    exact (beq_eq_same ha hb).trans (same_of_hashParts hwhole h).1

/-- Pairs of numbers and sets, with the number one in three representations and zero in two. -/
theorem hashParts_of_beq_representations :
    let one := Value.number (.int 1)
    let bigOne := Value.number (.big 1)
    let floatOne := Value.number (.float (Float.ofBits 0x3ff0000000000000))
    let zero := Value.number (.int 0)
    let negativeZero := Value.number (.float (Float.ofBits 0x8000000000000000))
    let set := Value.set 0 [one, zero]
    let set' := Value.set 1 [negativeZero, bigOne]
    let pair := Value.pair 2 one set
    let pair' := Value.pair 3 floatOne set'
    let objects := [set, set', pair, pair']
    Stored objects pair ∧ Stored objects pair' ∧ (pair == pair') = true ∧
      hashKey pair = hashKey pair' := by
  intro one bigOne floatOne zero negativeZero set set' pair pair' objects
  have hnumbers : ∀ m n : Number, ∀ x ∈ [Value.number m, .number n], Stored objects x := by
    intro m n x hx
    rcases List.mem_pair.1 hx with rfl | rfl <;> exact .simple rfl
  have hstored : Stored objects pair := .pair rfl (.simple rfl) (.set rfl (hnumbers _ _))
  have hstored' : Stored objects pair' := .pair rfl (.simple rfl) (.set rfl (hnumbers _ _))
  have hslots : same pair pair' = true := by decide +kernel
  have hbeq : (pair == pair') = true := (beq_eq_same hstored hstored').trans hslots
  exact ⟨hstored, hstored', hbeq, ((hashParts_of_beq hstored hstored').1 hbeq).2 []⟩

end Value

end Sexpr
