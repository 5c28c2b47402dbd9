import SelectorCheck.Proofs.Access.Function
import SelectorCheck.Proofs.Access.Lexer
import SelectorCheck.Proofs.Selector.Depth
import SelectorCheck.Proofs.Validator

/-!
# Checks that never fault

Selectors are read and checked here by the readers that go by position, with every
access written out. Reading goes one level deeper in the argument of a negation,
and such an argument is shorter than the selector, so the levels suffice.

Reading comes to what `Selector.parse` comes to, which is a selector or a failure;
so no access faults on the way. A check turns a failure into a diagnostic and would
let a fault through. Since there is none, a check raises something only if the
validator is strict.

## Main definitions

* `Access.parse` — the tree that a text is.
* `Access.check`, `Access.checkAll` — the checks of a validator.

## Main results

* `Access.parse_eq` — reading with every access comes to what `Selector.parse`
  comes to.
* `Access.check_eq`, `Access.checkAll_eq` — so do the checks.
* `Access.never_faults` — reading never faults, and a validator that is not strict
  has a result for every selector.
-/

namespace SelectorCheck.Access

open Reading Text

/-! ## Reading selectors -/

/-- The tree that a text is, with `depth` levels for negations within negations. -/
def parseWithin : (depth : Nat) → (context : Option Context) → (source : Text) → Reading Tree
  | 0, _, _ => fault .endless
  | depth + 1, context, source =>
    if source.trim = [] then fail (Selector.empty (some source) context)
    else do
      let tokens ← tokensOf source
      let given := context.getD .standard
      let build := fun name value =>
        build (parseWithin depth (some given)) (some name) value (some given)
      let (t, _) ← tree ⟨given, some source, build⟩ tokens
      return t

/-- The tree that a text is. -/
def parse (context : Option Context) (source : Text) : Reading Tree :=
  parseWithin (Selector.depthFor source) context source

/-! ## Checks -/

/-- What a check raises. -/
inductive Raised where
  | fault (fault : Fault)
  /-- The report with which a strict validator ends a check. -/
  | diagnostic (diagnostic : Diagnostic)
deriving DecidableEq, Repr

/-- The validator behind a check, and the result unless something was raised. -/
structure Checked (α : Type) where
  validator : Validator
  result : Except Raised α

/-- Checks one selector. Failures become diagnostics, and faults are raised. -/
def check (v : Validator) (selector : Text) : Checked (Option Tree) :=
  match parse v.context selector with
  | .ok t => ⟨v, .ok (some t)⟩
  | .error (.fault f) => ⟨v, .error (.fault f)⟩
  | .error (.failure f) =>
    let diagnostic := Diagnostic.ofError f.error (some selector)
    if v.strict then ⟨v, .error (.diagnostic diagnostic)⟩
    else if v.collecting then ⟨{ v with collected := v.collected ++ [diagnostic] }, .ok none⟩
    else ⟨v, .ok none⟩

/-- Checks selectors in order. -/
def checkAll (v : Validator) : List Text → Checked (List (Option Tree))
  | [] => ⟨v, .ok []⟩
  | selector :: rest =>
    let first := check v selector
    match first.result with
    | .error raised => ⟨first.validator, .error raised⟩
    | .ok found =>
      let others := checkAll first.validator rest
      ⟨others.validator, others.result.map (found :: ·)⟩

/-! ## Reading with every access -/

/-- With enough levels, reading comes to what reading within the same levels comes to. -/
theorem parseWithin_eq {depth : Nat} (context : Option Context) {source : Text}
    (h : source.length / 6 < depth) :
    parseWithin depth context source =
      ofResult ((Selector.parseWithin depth context source).result.map Selector.tree) := by
  induction depth generalizing context source with
  | zero => exact absurd h (Nat.not_lt_zero _)
  | succ depth ih =>
    rw [parseWithin, Selector.parseWithin]
    by_cases hblank : source.allBlank = true
    · rw [if_pos hblank, if_pos (trim_eq_nil_iff.mpr hblank)]
      rfl
    · rw [if_neg hblank, if_neg (mt trim_eq_nil_iff.mp hblank), tokensOf_eq]
      cases htokens : Token.ofSelector source with
      | error e => rfl
      | ok tokens =>
        have hlike : Surroundings.Like
            ⟨context.getD .standard, some source, fun name value =>
              build (parseWithin depth (some (context.getD .standard))) (some name) value
                (some (context.getD .standard))⟩
            (Selector.setting (Selector.parseWithin depth) context (some source)) tokens := by
          refine ⟨rfl, rfl, fun hasked => build_eq fun hcalled arg hgiven => ?_⟩
          have hshorter := hasked.length_le htokens hcalled hgiven
          exact ih _ (by omega)
        have htree := (tree_follows hlike).fst_eq
        exact htree

/-- Reading with every access comes to what reading without them comes to. -/
theorem parse_eq (context : Option Context) (source : Text) :
    parse context source = ofResult ((Selector.parse context source).result.map Selector.tree) :=
  parseWithin_eq context (Nat.lt_succ_self _)

/-- A selector is a tree, or a failure is reported. -/
theorem parse_cases (context : Option Context) (source : Text) :
    (∃ t, parse context source = .ok t) ∨ ∃ f, parse context source = .error (.failure f) := by
  rw [parse_eq]
  cases (Selector.parse context source).result with
  | ok s => exact .inl ⟨s.tree, rfl⟩
  | error f => exact .inr ⟨f, rfl⟩

/-! ## Checking with every access -/

/-- A check without accesses as one with accesses: its result under `f`, and its diagnostic
raised. -/
def ofChecked {α β : Type} (f : α → β) (c : Validator.Checked α) : Checked β :=
  ⟨c.validator, match c.result with
    | .ok a => .ok (f a)
    | .error diagnostic => .error (.diagnostic diagnostic)⟩

/-- The tree of a selector, if there is one. -/
abbrev treeOf? (found : Option Selector) : Option Tree := found.map Selector.tree

theorem toOption_parse (context : Option Context) (source : Text) :
    (parse context source).toOption = treeOf? (Selector.parse context source).result.toOption := by
  rw [parse_eq]
  cases (Selector.parse context source).result <;> rfl

theorem check_eq (v : Validator) (selector : Text) :
    check v selector = ofChecked treeOf? (v.check (some selector)) := by
  unfold check Validator.check Selector.parse?
  rw [parse_eq]
  dsimp only
  cases (Selector.parse v.context selector).result with
  | ok s => rfl
  | error f =>
    dsimp only [Except.map, ofResult]
    by_cases hstrict : v.strict = true
    · rw [if_pos hstrict, if_pos hstrict]
      rfl
    · rw [if_neg hstrict, if_neg hstrict]
      by_cases hcollecting : v.collecting = true
      · rw [if_pos hcollecting, if_pos hcollecting]
        rfl
      · rw [if_neg hcollecting, if_neg hcollecting]
        rfl

theorem checkAll_eq (v : Validator) (selectors : List Text) :
    checkAll v selectors =
      ofChecked (List.map treeOf?) (v.checkAll (selectors.map some)) := by
  induction selectors generalizing v with
  | nil => rfl
  | cons selector rest ih =>
    rw [checkAll, List.map_cons, Validator.checkAll, check_eq]
    obtain ⟨validator, log, result⟩ := v.check (some selector)
    cases result with
    | error diagnostic => rfl
    | ok found =>
      dsimp only [ofChecked]
      rw [ih validator]
      obtain ⟨last, log, results⟩ := validator.checkAll (rest.map some)
      cases results <;> rfl

/-! ## No faults -/

/-- No access faults while a selector is read, whatever the selector and the context: it is a tree,
or a failure is reported. A validator that is not strict raises nothing. It has one result for each
selector, which is what reading that selector alone comes to. All of this is what reading and
checking without a look at accesses comes to. -/
theorem never_faults (context : Option Context) (source : Text) (v : Validator)
    (selectors : List Text) :
    ((∃ t, parse context source = .ok t) ∨ ∃ f, parse context source = .error (.failure f)) ∧
    parse context source = ofResult ((Selector.parse context source).result.map Selector.tree) ∧
    check v source = ofChecked treeOf? (v.check (some source)) ∧
    checkAll v selectors = ofChecked (List.map treeOf?) (v.checkAll (selectors.map some)) ∧
    (v.strict = false →
      (∃ result, (check v source).result = .ok result) ∧
      ∃ results, (checkAll v selectors).result = .ok results ∧
        results.length = selectors.length ∧
        results = selectors.map fun selector => (parse v.context selector).toOption) := by
  refine ⟨parse_cases context source, parse_eq context source, check_eq v source,
    checkAll_eq v selectors, fun hlenient => ⟨?_, ?_⟩⟩
  · rw [check_eq, ofChecked, Validator.result_check (some source) hlenient]
    exact ⟨_, rfl⟩
  · have hresults : (checkAll v selectors).result =
        .ok (selectors.map fun selector => (parse v.context selector).toOption) := by
      rw [checkAll_eq, ofChecked, Validator.result_checkAll hlenient]
      simp only [List.map_map, toOption_parse]
      rfl
    exact ⟨_, hresults, List.length_map _, rfl⟩

/-- Two of these selectors are rejected, one in the argument of a negation within a negation and one
in an expression without digits. -/
theorem never_faults_of_standard :
    ({} : Validator).strict = false ∧
    ∃ results, (checkAll {} ["a".toList, ":not(:not(a".toList, ":nth-child(+)".toList]).result =
        .ok results ∧ results.length = 3 := by
  obtain ⟨-, -, -, -, hlenient⟩ := never_faults none "a".toList {}
    ["a".toList, ":not(:not(a".toList, ":nth-child(+)".toList]
  obtain ⟨-, results, hresults, hlength, -⟩ := hlenient rfl
  exact ⟨rfl, results, hresults, hlength⟩

end SelectorCheck.Access
