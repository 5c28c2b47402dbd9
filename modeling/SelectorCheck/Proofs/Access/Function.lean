import SelectorCheck.Proofs.Access.Argument
import SelectorCheck.Proofs.Access.Grammar
import SelectorCheck.Selector.Function

/-!
# Building functions with every access

The argument of a negation is a selector, of which one simple selector is taken:
the first of the second member of a list, the first of the second part of a complex
selector, the second of a compound selector, or the only one. Each of them is
reached by a part that only one form of selectors has and by indices that a row of
simple selectors may be too short for.

A function is built by the reader that a table holds for its kind. A class of
functions need not have a reader, and a name need not be one of a kind.

## Main definitions

* `Access.sole` — the only simple selector of a tree.
* `Access.negated` — the simple selector in the argument of a negation.
* `Access.readers`, `Access.readerOf` — the table of readers.
* `Access.build` — the function with a name.

## Main results

* `Access.sole_eq` — the accesses to the tree of a selector have a value.
* `Access.build_eq` — building comes to what building without accesses comes to.
-/

namespace SelectorCheck.Access

open Reading Text

/-! ## Negations -/

namespace Tree

/-- Whether a tree is a list. -/
def isList : Tree → Bool
  | complex _ => false
  | list _ => true

/-- The parts of a complex selector. A list has none. -/
def parts : Tree → Reading Rows
  | complex rows => .ok rows
  | list _ => fault .attribute

/-- The members of a list. A complex selector has none. -/
def members : Tree → Reading (List Rows)
  | complex _ => fault .attribute
  | list members => .ok members

end Tree

/-- The only simple selector of a tree, or the place of the one that is too much. -/
def sole (t : Tree) : Reading (Except Int Simple) := do
  if t.isList then
    let members ← t.members
    let second ← elem members 1
    let part ← elem second 0
    let simple ← elem part.2 0
    return .error simple.pos
  else
    let parts ← t.parts
    if 1 < parts.length then
      let part ← elem parts 1
      let simple ← elem part.2 0
      return .error simple.pos
    else
      let part ← elem parts 0
      if 1 < part.2.length then
        let simple ← elem part.2 1
        return .error simple.pos
      else
        let simple ← elem part.2 0
        return .ok simple

/-- The simple selector of a negation that a tree is the argument of. -/
def accepted (t : Tree) : Reading (Except Negation.Objection PlainSimple) := do
  let found ← sole t
  match found with
  | .error position => return .error { code := .notSimple, position := position }
  | .ok simple =>
    match simple.plain? with
    | none => return .error { code := .nestedNegation, position := simple.pos }
    | some plain =>
      if simple.kind = .pseudoElement then
        return .error { code := .elementInNegation, position := simple.pos,
                        token := some simple.text }
      else return .ok plain

/-- The simple selector in the argument of the function `name`. Selectors are read by `read`. Their
failures are reported as the cause of another; their faults are not. -/
def negated (read : Text → Reading Tree) (name : Text) (value : Option Text)
    (context : Option Context) : Reading PlainSimple :=
  match value with
  | none => fail (.missingArgument name none context)
  | some v =>
    if v.trim = [] then fail (.missingArgument name (some v) context)
    else
      match read v with
      | .error (.fault f) => fault f
      | .error (.failure f) =>
        .error (.failure (f.causing (Negation.unreadable name v context f.error)))
      | .ok t => do
        let found ← accepted t
        match found with
        | .ok simple => return simple
        | .error objection => fail (Negation.rejection name v context objection)

/-! ## The table of readers -/

/-- What reads the argument of a function. -/
inductive Reader where
  | language
  | selector
  | expression (kind : NthKind)
  /-- The reader that stands where a class of functions has none of its own. -/
  | unwritten
deriving DecidableEq, Repr

/-- The readers of the kinds of functions. -/
def readers : List (FunctionKind × Reader) :=
  [(.lang, .language), (.negation, .selector), (.nth .child, .expression .child),
    (.nth .lastChild, .expression .lastChild), (.nth .ofType, .expression .ofType),
    (.nth .lastOfType, .expression .lastOfType)]

/-- The entry of a kind in the table. -/
def readerOf (kind : FunctionKind) : Reading Reader :=
  match readers.lookup kind with
  | some reader => .ok reader
  | none => fault .entry

/-- The kind with a name. A name that is none does not convert. -/
def kindOf (name : Text) : Reading FunctionKind :=
  match FunctionKind.ofName? name with
  | some kind => .ok kind
  | none => fault .conversion

/-- The function that a reader makes of the argument text `value`. -/
def construct (read : Text → Reading Tree) (reader : Reader) (name : Text) (value : Option Text)
    (context : Option Context) : Reading PseudoFunction :=
  match reader with
  | .language => do
    let tag ← languageTag name value context
    return ⟨name, value.getD [], .plain (.language tag)⟩
  | .selector => do
    let simple ← negated read name value context
    return ⟨name, value.getD [], .negated simple⟩
  | .expression kind => do
    let e ← expression name value context
    return ⟨name, value.getD [], .plain (.counting kind e)⟩
  | .unwritten => fault .unwritten

/-- The function that was called `name` with the argument text `value`. A name that does not convert
to a kind is reported. -/
def build (read : Text → Reading Tree) (name : Option Text) (value : Option Text)
    (context : Option Context) : Reading PseudoFunction :=
  match name with
  | none | some [] => fail (namelessFunction value context)
  | some (c :: rest) =>
    match kindOf (c :: rest) with
    | .error (.fault .conversion) => fail (unbuiltFunction (c :: rest) value context)
    | .error stop => .error stop
    | .ok kind => do
      let reader ← readerOf kind
      construct read reader (c :: rest) value context

/-! ## Trees of selectors -/

/-- The accesses to the tree of a selector have a value. -/
theorem sole_eq (s : Selector) : sole s.tree = .ok s.sole := by
  cases s with
  | list first second others => rfl
  | complex c =>
    obtain ⟨⟨first, others⟩, links⟩ := c
    cases links with
    | cons link links => rfl
    | nil =>
      cases others with
      | nil => rfl
      | cons second others => rfl

-- Other trees do fault: a list of one member has no second one.
example : sole (.list [[(none, [])]]) = fault .index := rfl

theorem accepted_eq (s : Selector) : accepted s.tree = .ok (Negation.accept s) := by
  rw [accepted, sole_eq, bind_ok, Negation.accept]
  cases s.sole with
  | error position => rfl
  | ok simple =>
    dsimp only
    cases simple.plain? with
    | none => rfl
    | some plain =>
      dsimp only
      split <;> rfl

/-! ## Functions -/

section Functions

variable {read : Text → Reading Tree} {model : Text → Traced Selector} {name : Text}
  {value : Option Text} {context : Option Context}

/-- If the argument is read alike, so is the negation. -/
theorem negated_eq
    (h : ∀ arg, value = some arg → read arg = ofResult ((model arg).result.map Selector.tree)) :
    negated read name value context =
      ofResult (Negation.parse model name value context).result := by
  cases value with
  | none => rfl
  | some v =>
    rw [negated, Negation.parse]
    by_cases hblank : v.allBlank = true
    · rw [if_pos hblank, if_pos (trim_eq_nil_iff.mpr hblank)]
      rfl
    · rw [if_neg hblank, if_neg (mt trim_eq_nil_iff.mp hblank), h v rfl]
      obtain ⟨log, result⟩ := model v
      cases result with
      | error f => rfl
      | ok s =>
        show (accepted s.tree >>= fun found => match found with
          | .ok simple => _
          | .error objection => _) = ofResult (Traced.following log (match Negation.accept s with
          | .ok simple => _
          | .error objection => _)).result
        rw [accepted_eq, bind_ok]
        cases Negation.accept s <;> rfl

/-- Every kind of functions has a reader, and it is written. -/
theorem readerOf_eq (kind : FunctionKind) :
    readerOf kind = .ok (match kind with
      | .lang => .language
      | .negation => .selector
      | .nth kind => .expression kind) := by
  rcases kind with _ | _ | (_ | _ | _ | _) <;> rfl

/-- The reader of a kind makes of an argument what the kind does. -/
theorem construct_eq (kind : FunctionKind)
    (h : kind = .negation → ∀ arg, value = some arg →
      read arg = ofResult ((model arg).result.map Selector.tree)) :
    (readerOf kind >>= fun reader => construct read reader name value context) =
      ofResult (kind.construct model name value context).result := by
  rw [readerOf_eq, bind_ok]
  cases kind with
  | lang =>
    simp only [construct, languageTag_eq, FunctionKind.construct]
    cases LanguageTag.parse name value context <;> rfl
  | negation =>
    simp only [construct, negated_eq (h rfl), FunctionKind.construct]
    obtain ⟨log, result⟩ := Negation.parse model name value context
    cases result <;> rfl
  | nth kind =>
    simp only [construct, expression_eq, FunctionKind.construct]
    cases Nth.parse name value context <;> rfl

/-- Building comes to what building without accesses comes to. -/
theorem build_eq
    (h : name = FunctionKind.negation.name → ∀ arg, value = some arg →
      read arg = ofResult ((model arg).result.map Selector.tree)) :
    build read (some name) value context =
      ofResult (buildWith model (some name) value context).result := by
  cases name with
  | nil => rfl
  | cons c rest =>
    rw [build, buildWith, kindOf]
    cases hkind : FunctionKind.ofName? (c :: rest) with
    | none => rfl
    | some kind =>
      refine construct_eq kind fun hnegation => h ?_
      rw [← FunctionKind.name_of_ofName? hkind, hnegation]

end Functions

end SelectorCheck.Access
