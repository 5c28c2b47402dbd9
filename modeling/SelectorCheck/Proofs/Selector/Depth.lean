import Mathlib.Logic.Function.Iterate
import SelectorCheck.Proofs.Selector.Mirror
import SelectorCheck.Proofs.Text.SmallLetters
import SelectorCheck.Proofs.Token.Shape
import SelectorCheck.Selector.Parser

/-!
# The depth of reading

Reading goes one level deeper in the argument of a negation, and that argument is
shorter than the selector by six characters at least: the colon, the three of the
name, and the parentheses. A depth that allows for the length of a selector
therefore never ends the reading, and all such depths come to the same, also
where the selector is rejected.

## Main definitions

* `Selector.readBy` — one level of reading, given how selectors within functions are
  read.

## Main results

* `Grammar.Asked.length_le` — a negation leaves its argument six characters less.
* `Selector.readBy_congr` — so one level depends on how such arguments are read, and on
  no other reading.
* `Selector.iterate_readBy_eq_parse`, `Selector.parseWithin_eq_parse` — any depth that
  allows for the length will do.
-/

namespace SelectorCheck

open Text

/-- What the tokens of a selector ask a negation of is shorter than the selector. -/
theorem Grammar.Asked.length_le {source arg : Text} {tokens : List Token} {called : Text}
    {given : Option Text} (h : Asked tokens called given)
    (htokens : Token.ofSelector source = .ok tokens) (hcalled : called = FunctionKind.negation.name)
    (hgiven : given = some arg) : arg.length + 6 ≤ source.length := by
  cases h with
  | missing => cases hgiven
  | given hinfix hparen hstring =>
    obtain ⟨name, text, hname, htext, hlength⟩ :=
      Token.exists_call htokens hinfix hparen hstring
    have hthree : FunctionKind.negation.name.length = 3 := rfl
    rw [calledBy, hname, Option.getD_some] at hcalled
    -- Small letters may be more characters than the capital ones, but not those of this name.
    have hsame : name.lowercase.length = name.length :=
      length_lowercase (by rw [hcalled]; decide)
    rw [hcalled] at hsame
    obtain rfl : text = arg := by rw [htext] at hgiven; exact Option.some.inj hgiven
    omega

/-- Only negations read selectors, and only in the argument that they are given. -/
theorem buildWith_congr {read other : Text → Traced Selector} {name : Text} {value : Option Text}
    {context : Option Context}
    (h : name = FunctionKind.negation.name → ∀ arg, value = some arg → read arg = other arg) :
    buildWith read (some name) value context = buildWith other (some name) value context := by
  cases name with
  | nil => rfl
  | cons c rest =>
    cases hkind : FunctionKind.ofName? (c :: rest) with
    | none => simp only [buildWith, hkind]
    | some kind =>
      simp only [buildWith, hkind]
      cases kind with
      | lang | nth _ => rfl
      | negation =>
        have hname := FunctionKind.name_of_ofName? hkind
        cases value with
        | none => rfl
        | some arg => simp only [FunctionKind.construct, Negation.parse, h hname.symm arg rfl]

namespace Selector

/-- The setting with the same functions mirrors itself on tokens that stay where they are. -/
private theorem setting_mirrors {read other : Option Context → Text → Traced Selector}
    {context : Option Context} {source : Text} {tokens : List Token}
    (htokens : Token.ofSelector source = .ok tokens)
    (hread : ∀ context arg, arg.length + 6 ≤ source.length →
      read context arg = other context arg) :
    (setting read context (some source)).Mirrors tokens 0 (fun _ _ => False) Eq
      (setting other context (some source)) where
  level := rfl
  unexpected := by
    rintro t _ ⟨⟩
    · rw [Token.moved_zero]; rfl
    · contradiction
  dangling t := by rw [Token.moved_zero]; rfl
  unknownName code called t other hpos := by
    rw [Int.natCast_zero, Int.add_zero] at hpos
    simp only [Grammar.unknownName, hpos]
    rfl
  build := by
    intro called given hasked
    have hbuild : (setting other context (some source)).build called given =
        (setting read context (some source)).build called given := by
      refine buildWith_congr fun hcalled arg hgiven => (hread _ arg ?_).symm
      exact hasked.length_le htokens hcalled hgiven
    rw [hbuild]
    exact Traced.mirrors_refl (fun f start => by simp) _

/-- The selector that a text is, where the selectors within functions are read by `read`. -/
def readBy (read : Option Context → Text → Traced Selector) (context : Option Context)
    (source : Text) : Traced Selector :=
  if source.allBlank then .error (empty (some source) context)
  else
    (Traced.ofExcept (Token.ofSelector source)).bind fun tokens =>
      (Grammar.selector (setting read context (some source)) tokens).outcome

/-- Only shorter selectors are read within a selector. -/
theorem readBy_congr {read other : Option Context → Text → Traced Selector}
    (context : Option Context) {source : Text}
    (hread : ∀ context arg, arg.length + 6 ≤ source.length →
      read context arg = other context arg) :
    readBy read context source = readBy other context source := by
  unfold readBy
  by_cases hblank : source.allBlank = true
  · rw [if_pos hblank, if_pos hblank]
  · rw [if_neg hblank, if_neg hblank]
    cases htokens : Token.ofSelector source with
    | error e => rw [Traced.ofExcept, Traced.bind_error, Traced.bind_error]
    | ok tokens =>
      have hsetting : (setting read context (some source)).Mirrors tokens 0
          (fun _ _ => False) Eq (setting other context (some source)) :=
        setting_mirrors htokens hread
      have hmirrors := Grammar.selector_mirrors hsetting
        ⟨List.suffix_refl tokens, Token.exists_end htokens⟩ (.refl false tokens)
      have hsame := hmirrors.outcome.eq Selector.moved_zero
      rw [Traced.ofExcept, Traced.bind_value, Traced.bind_value, hsame]

/-- Levels that the length of a selector does not allow for make no difference, and neither does
what is below them. -/
theorem iterate_readBy_congr {base other : Option Context → Text → Traced Selector}
    {depth levels : Nat} (context : Option Context) {source : Text}
    (hdepth : source.length / 6 < depth) (hlevels : source.length / 6 < levels) :
    readBy^[depth] base context source = readBy^[levels] other context source := by
  induction depth generalizing levels context source with
  | zero => exact absurd hdepth (Nat.not_lt_zero _)
  | succ depth ih =>
    obtain ⟨levels, rfl⟩ : ∃ n, levels = n + 1 := ⟨levels - 1, by omega⟩
    rw [Function.iterate_succ_apply', Function.iterate_succ_apply']
    exact readBy_congr context fun given arg hlength => ih given (by omega) (by omega)

/-- Reading to a depth is that many levels of reading. -/
theorem parseWithin_eq_iterate (depth : Nat) :
    parseWithin depth = readBy^[depth] (parseWithin 0) := by
  induction depth with
  | zero => rfl
  | succ depth ih =>
    rw [Function.iterate_succ_apply', ← ih]
    rfl

/-- As many levels as the length of a selector allows for come to the same over any reading. -/
theorem iterate_readBy_eq_parse (base : Option Context → Text → Traced Selector) {depth : Nat}
    (context : Option Context) {source : Text} (h : source.length / 6 < depth) :
    readBy^[depth] base context source = parse context source := by
  rw [parse, parseWithin_eq_iterate]
  exact iterate_readBy_congr context h (Nat.lt_succ_self _)

/-- Any depth that allows for the length of a selector comes to the same. -/
theorem parseWithin_eq_parse {depth : Nat} (context : Option Context) {source : Text}
    (h : source.length / 6 < depth) : parseWithin depth context source = parse context source := by
  rw [parseWithin_eq_iterate]
  exact iterate_readBy_eq_parse _ context h

/-- Reading is a level of reading over itself. -/
theorem readBy_parse (context : Option Context) (source : Text) :
    readBy parse context source = parse context source := by
  have hlevel : parse context source = readBy (parseWithin (source.length / 6)) context source := rfl
  rw [hlevel]
  exact readBy_congr context fun given arg hlength => (parseWithin_eq_parse given (by omega)).symm

/-- There is no other reading of which that is true. -/
theorem eq_parse_of_readBy {read : Option Context → Text → Traced Selector} (h : readBy read = read)
    (context : Option Context) (source : Text) : read context source = parse context source := by
  rw [← iterate_readBy_eq_parse read context (Nat.lt_succ_self _), Function.iterate_fixed h]

end Selector

end SelectorCheck
