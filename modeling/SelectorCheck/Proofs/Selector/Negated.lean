import SelectorCheck.Proofs.Selector.Call
import SelectorCheck.Proofs.Selector.Causes
import SelectorCheck.Proofs.Selector.Composition
import SelectorCheck.Proofs.Selector.Quotation
import SelectorCheck.Proofs.Selector.WellFormed

/-!
# Selectors put into a negation

A text that is a selector can be put between the parentheses of a negation. The
lexer cuts it out as a whole, because a selector closes what it opens, and then the
blanks at its ends are cut off and it is read once more. The tree is the same but for
the place where it begins. So the negation is read exactly if the tree is a single
simple selector that a negation may hold. Otherwise the error points at the first
simple selector that is one too many, or at the only one: where it stands in the text,
and as many characters further on as the negation puts in front.

## Main definitions

* `Selector.single` — a simple selector as a whole selector.
* `Negation.Fits`, `Negation.Unfit` — selectors that a negation can hold, and those
  that it cannot hold, with the reason and the place of it.
* `Spelling.WrittenIn` — a simple selector stands where its position says.

## Main results

* `Spelling.Whole.balanced` — a selector closes what it opens.
* `Negation.accept_error_iff` — what a negation does not accept.
* `Selector.negation_closure` — what a selector in a negation comes to.
-/

namespace SelectorCheck

open Text RawArgument

/-! ## Selectors are cut out as a whole -/

namespace Spelling

section Balanced

theorem Joint.balanced {combinator joint : Text} (h : Joint combinator joint) :
    Balanced joint := by
  cases h with
  | blanks hblanks _ => exact balanced_blanks hblanks
  | mark hbefore hc hbehind =>
    have hmark := isInert_of Lexer.isCombinator hc (by decide)
    exact (balanced_blanks hbefore).append (.cons hmark (balanced_blanks hbehind))

variable {level : Level} {F : Text → Text → PseudoFunction → Prop} {p : Nat} {text after : Text}
  (hF : ∀ {name arg f}, F name arg f → Balanced arg)
include hF

theorem Items.balanced {simples : List Simple} (h : Items level F p simples text after) :
    Balanced text := by
  induction h with
  | nil => exact .nil
  | cons hitem _ ih => exact (hitem.balanced hF).append ih

theorem Links.balanced {row : List Link} (h : Links level F p row text after) :
    Balanced text := by
  induction h with
  | nil => exact .nil
  | cons hjoint hitems _ ih => exact hjoint.balanced.append ((hitems.balanced hF).append ih)

theorem Chain.balanced {complex : Complex} (h : Chain level F p complex text after) :
    Balanced text := by
  obtain ⟨hitems, hlinks⟩ := h
  exact (hitems.balanced hF).append (hlinks.balanced hF)

theorem Members.balanced {members : List Complex} (h : Members level F p members text after) :
    Balanced text := by
  induction h with
  | nil => exact .nil
  | cons hbefore hbehind hchain _ ih =>
    have hmember := (balanced_blanks hbehind).append ((hchain.balanced hF).append ih)
    exact (balanced_blanks hbefore).append (.cons (by decide) hmember)

/-- A scan passes over a selector and comes out as it went in. -/
theorem Whole.balanced {selector : Selector} (h : Whole level F selector text) :
    Balanced text := by
  obtain ⟨hbefore, hbehind, hchain, hmembers⟩ := h
  have hrest := (hmembers.balanced hF).append (balanced_blanks hbehind)
  exact (balanced_blanks hbefore).append ((hchain.balanced hF).append hrest)

end Balanced

/-! ## Places of simple selectors -/

/-- The simple selector is written in the text `source`, where its position says. -/
def WrittenIn (level : Level) (source : Text) (simple : Simple) : Prop :=
  ∃ (p : Nat) (text after : Text), simple.pos = p ∧ source.drop p = text ++ after ∧
    Item level (Built level) p simple text after

end Spelling

/-! ## What a negation does not accept -/

/-- A simple selector as a whole selector. -/
def Selector.single (simple : Simple) : Selector := .complex ⟨⟨simple, []⟩, []⟩

namespace Negation

/-- The simple selector is a negation itself. -/
def Negates (simple : Simple) : Prop :=
  simple.kind = .pseudoFunction ∧ simple.name = some FunctionKind.negation.name

/-- A negation can hold the selector: it is a single simple selector and neither a pseudo-element nor
a negation. -/
def Fits (selector : Selector) : Prop :=
  ∃ simple, selector = .single simple ∧ simple.kind ≠ .pseudoElement ∧ ¬ Negates simple

/-- A negation cannot hold the selector for the reason `code`, and the simple selector that is to
blame stands at `position`. -/
inductive Unfit : (selector : Selector) → (code : ErrorCode) → (position : Int) → Prop where
  /-- More than one member of a list: the beginning of the second one is to blame. -/
  | list (first second : Complex) (others : List Complex) :
      Unfit (.list first second others) .notSimple second.first.first.pos
  /-- A combinator: what is to blame is the beginning of what it joins to the first part. -/
  | linked (compound : Compound) (link : Link) (links : List Link) :
      Unfit (.complex ⟨compound, link :: links⟩) .notSimple link.compound.first.pos
  /-- More than one condition on one element: the second one is to blame. -/
  | crowded (first second : Simple) (others : List Simple) :
      Unfit (.complex ⟨⟨first, second :: others⟩, []⟩) .notSimple second.pos
  | negation {simple : Simple} (h : Negates simple) :
      Unfit (.single simple) .nestedNegation simple.pos
  | element {simple : Simple} (h : simple.kind = .pseudoElement) :
      Unfit (.single simple) .elementInNegation simple.pos

variable {level : Level} {selector : Selector} {code : ErrorCode} {position : Int}

theorem Unfit.errorClass (h : Unfit selector code position) :
    code.errorClass = .argumentSyntax := by
  cases h <;> rfl

private theorem accept_single (simple : Simple) : accept (.single simple) =
    match simple.plain? with
    | none => .error { code := .nestedNegation, position := simple.pos }
    | some plain =>
      if simple.kind = .pseudoElement then
        .error { code := .elementInNegation, position := simple.pos, token := some simple.text }
      else .ok plain :=
  rfl

variable (horder : ∀ simple ∈ selector.simples, Simple.InOrder level simple)
include horder

/-- What a negation objects to is unfit for it. -/
theorem unfit_of_accept {o : Objection} (h : accept selector = .error o) :
    Unfit selector o.code o.position := by
  rcases selector with ⟨⟨⟨first, _ | ⟨second, others⟩⟩, _ | ⟨link, links⟩⟩⟩ | ⟨first, second, others⟩
  case complex.nil.nil =>
    replace h : accept (.single first) = .error o := h
    rw [accept_single] at h
    cases hplain : first.plain? with
    | none =>
      rw [hplain] at h
      cases h
      have hfirst := horder first List.mem_cons_self
      exact .negation ((SimpleOf.plain?_eq_none_iff hfirst).mp hplain)
    | some plain =>
      rw [hplain] at h
      dsimp only at h
      split at h
      · next hkind =>
        cases h
        exact .element hkind
      · cases h
  case complex.cons.nil =>
    cases h
    exact .crowded first second others
  case list =>
    cases h
    exact .list first second others
  all_goals
    cases h
    exact .linked _ link links

/-- What is unfit for a negation it objects to. -/
theorem accept_of_unfit (h : Unfit selector code position) :
    ∃ o, accept selector = .error o ∧ o.code = code ∧ o.position = position := by
  cases h with
  | list | linked | crowded => exact ⟨_, rfl, rfl, rfl⟩
  | @negation simple hnegates =>
    have hnone : simple.plain? = none :=
      (SimpleOf.plain?_eq_none_iff (horder simple List.mem_cons_self)).mpr hnegates
    rw [accept_single, hnone]
    exact ⟨_, rfl, rfl, rfl⟩
  | @element simple hkind =>
    cases hplain : simple.plain? with
    | none =>
      obtain ⟨hfunction, -⟩ :=
        (SimpleOf.plain?_eq_none_iff (horder simple List.mem_cons_self)).mp hplain
      rw [hkind] at hfunction
      cases hfunction
    | some plain =>
      rw [accept_single, hplain]
      dsimp only
      rw [if_pos hkind]
      exact ⟨_, rfl, rfl, rfl⟩

/-- What a negation accepts is what it can hold. -/
theorem accept_iff_fits : (∃ plain, accept selector = .ok plain) ↔ Fits selector := by
  constructor
  · rintro ⟨plain, h⟩
    obtain ⟨simple, rfl, hplain, hkind⟩ := accept_eq_ok_iff.mp h
    refine ⟨simple, rfl, hkind, fun hnegates => ?_⟩
    rw [(SimpleOf.plain?_eq_none_iff (horder simple List.mem_cons_self)).mpr hnegates] at hplain
    cases hplain
  · rintro ⟨simple, rfl, hkind, hnegates⟩
    cases hplain : simple.plain? with
    | none =>
      exact absurd ((SimpleOf.plain?_eq_none_iff (horder simple List.mem_cons_self)).mp hplain)
        hnegates
    | some plain => exact ⟨plain, accept_eq_ok_iff.mpr ⟨simple, rfl, hplain, hkind⟩⟩

/-- Whatever a negation cannot hold is unfit for it for some reason. -/
theorem exists_unfit (h : ¬ Fits selector) : ∃ code position, Unfit selector code position := by
  cases haccept : accept selector with
  | ok plain => exact absurd ((accept_iff_fits horder).mp ⟨plain, haccept⟩) h
  | error o => exact ⟨_, _, unfit_of_accept horder haccept⟩

end Negation

/-! ## Reading a selector in a negation -/

namespace Selector

open Spelling

variable {context : Option Context} {t : Text} {tree : Selector}

theorem selfContained_of_parse (h : (parse context t).result = .ok tree) : SelfContained t :=
  selfContained_of_scan (((parse_eq_ok_iff.mp h).balanced Built.balanced).scan_closing 0 [])

theorem not_allBlank_of_parse (h : (parse context t).result = .ok tree) : t.allBlank = false := by
  rw [parse, depthFor] at h
  exact (parseWithin_succ_eq_ok_iff.mp h).1

/-- Every simple selector of a tree is written where its position says. -/
theorem writtenIn_of_parse (h : (parse context t).result = .ok tree) :
    ∀ simple ∈ tree.simples, WrittenIn (levelOf context) t simple :=
  (parse_eq_ok_iff.mp h).forall_simples fun hitem hdrop =>
    ⟨_, _, _, hitem.pos_eq, hdrop, hitem⟩

/-- Without the blanks at its ends a selector is the same, as many places further in front as it had
blanks there. -/
theorem parse_trim (h : (parse context t).result = .ok tree) :
    ∃ inner, (parse context t.trim).result = .ok inner ∧
      inner.moved (t.takeWhile isBlank).length = tree := by
  have hv := not_allBlank_of_parse h
  have hsplit : t.takeWhile isBlank ++ t.dropBlanks = t := List.takeWhile_append_dropWhile
  have hbefore : allBlank (t.takeWhile isBlank) = true := List.all_takeWhile
  have hdrop : t.dropBlanks.allBlank = false := by
    rw [← hsplit, allBlank_append, hbefore, Bool.true_and] at hv
    exact hv
  obtain ⟨behind, hbehind, htrim⟩ : ∃ behind, allBlank behind = true ∧
      t.dropBlanks = t.trim ++ behind := exists_trimEnd_append t.dropBlanks
  have hmirror := (parse_append_left context hbefore hdrop).result
  rw [hsplit, h] at hmirror
  obtain ⟨inner, hinner⟩ := hmirror.exists_ok_iff.mp ⟨tree, rfl⟩
  have hmoved := hmirror.eq_ok hinner
  rw [htrim, parse_append_right hbehind] at hinner
  exact ⟨inner, hinner, (Except.ok.inj hmoved).symm⟩

/-- The negation of a text that is a selector. -/
private theorem build_negation (hv : t.allBlank = false)
    (h : (parse context t).result = .ok tree) :
    (PseudoFunction.build (some FunctionKind.negation.name) (some t) context).result =
      match Negation.accept tree with
      | .ok simple => .ok ⟨FunctionKind.negation.name, t, .negated simple⟩
      | .error o =>
        .error (.ofError (Negation.rejection FunctionKind.negation.name t context o)) := by
  rw [PseudoFunction.build, result_buildWith_name, FunctionKind.construct, Negation.parse]
  simp only [hv, Bool.false_eq_true, if_false]
  generalize parse context t = read at h
  obtain ⟨log, result⟩ := read
  cases h
  have hread (g : Failure → Failure) :
      (⟨log, .ok tree⟩ : Traced Selector).mapFailure g = ⟨log, .ok tree⟩ := rfl
  cases haccept : Negation.accept tree with
  | ok simple =>
    simp only [hread, Traced.bind, haccept]
    rfl
  | error o =>
    simp only [hread, Traced.bind, haccept]
    rfl

/-- What the text of an accepted selector comes to between the parentheses of a negation. -/
theorem parse_call_negation {context : Context}
    (hadmits : context.level.admitsFunction FunctionKind.negation.name = true)
    (h : (parse (some context) t).result = .ok tree) :
    (∀ simple, Negation.accept tree = .ok simple →
      ∃ inner : PlainSimple, inner.moved (t.takeWhile isBlank).length = simple ∧
        (parse (some context) (call FunctionKind.negation.name t)).result = .ok (single
          ⟨.pseudoFunction, some FunctionKind.negation.name, some t.trim,
            some ⟨FunctionKind.negation.name, t.trim, .negated inner⟩, 0⟩)) ∧
    ∀ o, Negation.accept tree = .error o →
      ∃ f, (parse (some context) (call FunctionKind.negation.name t)).result = .error f ∧
        f.error.code = o.code ∧ f.error.errorClass = o.code.errorClass ∧
        f.error.position = some (5 + o.position) := by
  have hv := not_allBlank_of_parse h
  have hstart : argumentStart .negation t = 5 + (t.takeWhile isBlank).length := by
    rw [argumentStart, hv]
    rfl
  obtain ⟨inner, hinner, hmoved⟩ := parse_trim h
  have hbuild := build_negation (not_allBlank_of_parse hinner) hinner
  have hcall := parse_call context .negation hadmits (selfContained_of_parse h)
  rw [handedOver, hv, if_neg Bool.false_ne_true, Traced.result_map_mapFailure, hbuild, hstart]
    at hcall
  rw [← hmoved, Negation.accept_moved]
  cases haccept : Negation.accept inner with
  | ok simple =>
    rw [haccept] at hcall
    refine ⟨fun moved heq => ?_, fun o heq => by cases heq⟩
    cases heq
    exact ⟨simple, rfl, hcall⟩
  | error o =>
    rw [haccept] at hcall
    refine ⟨fun simple heq => (by cases heq), fun moved heq => ?_⟩
    cases heq
    refine ⟨_, hcall, rfl, rfl, ?_⟩
    show some _ = some _
    rw [Option.some.injEq]
    show ((5 + (t.takeWhile isBlank).length : Nat) : Int) + o.position =
      5 + (o.position + (t.takeWhile isBlank).length)
    omega

/-- The negation of a text that is a selector is one exactly if a negation can hold the selector, and
then it holds it, with the blanks at the ends of the text cut off. Otherwise the reason and the place
of the error are those for which the selector is unfit, and the place is five characters further on
than in the text. -/
theorem negation_closure (context : Option Context)
    (hversion : (context.getD .standard).version = .css3)
    (h : (parse context t).result = .ok tree) :
    ((∃ s, (parse context (call FunctionKind.negation.name t)).result = .ok s) ↔
      Negation.Fits tree) ∧
    (∀ s, (parse context (call FunctionKind.negation.name t)).result = .ok s →
      ∃ inner : PlainSimple, (single (.ofPlain inner)).same tree = true ∧
        (single (.ofPlain inner)).moved (t.takeWhile isBlank).length = tree ∧
        s = .single ⟨.pseudoFunction, some FunctionKind.negation.name, some t.trim,
          some ⟨FunctionKind.negation.name, t.trim, .negated inner⟩, 0⟩) ∧
    (¬ Negation.Fits tree → ∃ code position, Negation.Unfit tree code position) ∧
    (∀ code position, Negation.Unfit tree code position →
      ∃ f, (parse context (call FunctionKind.negation.name t)).result = .error f ∧
        f.error.errorClass = .argumentSyntax ∧ f.error.code = code ∧
        f.error.position = some (5 + position)) ∧
    ∀ simple ∈ tree.simples, WrittenIn (levelOf context) t simple := by
  have hblank : (call FunctionKind.negation.name t).allBlank = false := rfl
  have horder := (inOrder_of_parse h).simple
  have hwritten := writtenIn_of_parse h
  rw [← parse_getD_standard (not_allBlank_of_parse h)] at h
  rw [← parse_getD_standard hblank]
  obtain ⟨haccepted, hrejected⟩ := parse_call_negation (admits_negation hversion) h
  have hfits := Negation.accept_iff_fits horder
  refine ⟨?iff, ?held, Negation.exists_unfit horder, ?unfit, hwritten⟩
  case iff =>
    rw [← hfits]
    constructor
    · rintro ⟨s, hs⟩
      cases haccept : Negation.accept tree with
      | ok simple => exact ⟨simple, rfl⟩
      | error o =>
        obtain ⟨f, hf, -⟩ := hrejected o haccept
        rw [hs] at hf
        cases hf
    · rintro ⟨simple, haccept⟩
      obtain ⟨inner, -, hs⟩ := haccepted simple haccept
      exact ⟨_, hs⟩
  case held =>
    intro s hs
    cases haccept : Negation.accept tree with
    | ok simple =>
      obtain ⟨inner, rfl, hheld⟩ := haccepted simple haccept
      obtain ⟨item, rfl, hplain, -⟩ := Negation.accept_eq_ok_iff.mp haccept
      have hmoved : (single (.ofPlain inner)).moved (t.takeWhile isBlank).length =
          .complex ⟨⟨item, []⟩, []⟩ := by
        rw [← SimpleOf.ofPlain_of_plain? hplain]
        rfl
      refine ⟨inner, ?_, hmoved, ?_⟩
      · rw [same_iff, ← hmoved, bare_moved]
      · rw [hs] at hheld
        exact Except.ok.inj hheld
    | error o =>
      obtain ⟨f, hf, -⟩ := hrejected o haccept
      rw [hs] at hf
      cases hf
  case unfit =>
    intro code position hunfit
    obtain ⟨o, haccept, rfl, rfl⟩ := Negation.accept_of_unfit horder hunfit
    obtain ⟨f, hf, hcode, hclass, hposition⟩ := hrejected o haccept
    exact ⟨f, hf, hclass.trans hunfit.errorClass, hcode, hposition⟩

/-- A list and a pseudo-element with blanks in front, and a tag with blanks around it. -/
theorem negation_closure_of_blanks :
    (∃ f, (parse none ":not( a , b > c)".toList).result = .error f ∧
      f.error.code = .notSimple ∧ f.error.position = some 10) ∧
    (∃ f, (parse none ":not( :before)".toList).result = .error f ∧
      f.error.code = .elementInNegation ∧ f.error.position = some 6) ∧
    ∃ s, (parse none ":not( a )".toList).result = .ok s := by
  have hlist : (parse none " a , b > c".toList).result = .ok
      (.list ⟨⟨⟨.tag, some "a".toList, none, none, 1⟩, []⟩, []⟩
        ⟨⟨⟨.tag, some "b".toList, none, none, 5⟩, []⟩,
          [⟨some ">".toList, ⟨⟨.tag, some "c".toList, none, none, 9⟩, []⟩⟩]⟩ []) := by
    decide +kernel
  have helement : (parse none " :before".toList).result =
      .ok (.single ⟨.pseudoElement, some "before".toList, none, none, 1⟩) := by
    decide +kernel
  have htag : (parse none " a ".toList).result =
      .ok (.single ⟨.tag, some "a".toList, none, none, 1⟩) := by
    decide +kernel
  refine ⟨?_, ?_, ?_⟩
  · obtain ⟨-, -, -, hunfit, -⟩ := negation_closure none rfl hlist
    obtain ⟨f, hf, -, hcode, hposition⟩ := hunfit _ _ (.list _ _ _)
    exact ⟨f, hf, hcode, hposition⟩
  · obtain ⟨-, -, -, hunfit, -⟩ := negation_closure none rfl helement
    obtain ⟨f, hf, -, hcode, hposition⟩ := hunfit _ _ (.element rfl)
    exact ⟨f, hf, hcode, hposition⟩
  · apply (negation_closure none rfl htag).1.mpr
    exact ⟨_, rfl, by decide, fun hnegates => nomatch hnegates.1⟩

end Selector

end SelectorCheck
