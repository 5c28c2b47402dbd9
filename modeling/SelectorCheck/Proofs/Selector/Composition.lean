import SelectorCheck.Proofs.Selector.Comma

/-!
# Selectors in a row

Two selectors with a comma between them are the list of their members, and two
complex selectors with a combinator between them are one complex selector. Blanks
around the comma or the combinator only move what stands behind them.

## Main definitions

* `Complex.joined` — two complex selectors with a combinator between them.

## Main results

* `Spelling.Whole.joined` — how joined selectors are written.
* `Selector.parse_row` — what a selector, a comma or a combinator and another
  selector come to.
-/

namespace SelectorCheck

open Text

/-! ## Without positions -/

section Bare

variable (k : Nat)

@[simp] theorem SimpleOf.bare_moved (s : Simple) : (s.moved k).bare = s.bare := rfl

@[simp] theorem Compound.bare_moved (c : Compound) : (c.moved k).bare = c.bare := by
  simp [Compound.bare, Compound.moved]

@[simp] theorem Complex.bare_moved (c : Complex) : (c.moved k).bare = c.bare := by
  simp [Complex.bare, Complex.moved, Link.moved]

@[simp] theorem Selector.bare_moved (s : Selector) : (s.moved k).bare = s.bare := by
  cases s <;> simp [Selector.bare, Selector.moved]

end Bare

/-- Positions do not matter to the members in a row. -/
theorem Selector.bare_append (a b : Selector) : (a.append b).bare = a.bare.append b.bare := by
  obtain ⟨first, all, rfl⟩ := a.exists_ofMembers
  rw [append_ofMembers, bare_ofMembers, bare_ofMembers, append_ofMembers, members_bare,
    List.map_append]

theorem Selector.same_iff {a b : Selector} : a.same b = true ↔ a.bare = b.bare :=
  beq_iff_eq

/-! ## Joined selectors -/

/-- The compound selectors of `c`, and those of `d` behind a combinator. -/
def Complex.joined (c : Complex) (combinator : Text) (d : Complex) : Complex :=
  ⟨c.first, c.links ++ ⟨some combinator, d.first⟩ :: d.links⟩

@[simp] theorem Complex.bare_joined (c : Complex) (combinator : Text) (d : Complex) :
    (c.joined combinator d).bare = c.bare.joined combinator d.bare := by
  simp [Complex.bare, Complex.joined]

namespace Spelling

variable {level : Level} {F : Text → Text → PseudoFunction → Prop} {p : Nat} {text after : Text}

/-! ### At other places -/

theorem Item.moved {simple : Simple} (h : Item level F p simple text after) (k : Nat) :
    Item level F (p + k) (simple.moved k) text after := by
  cases h with
  | universal => exact .universal
  | id hname => exact .id hname
  | className hname => exact .className hname
  | tag hname hstart => exact .tag hname hstart
  | pseudoClass hname hbare hadmits => exact .pseudoClass hname hbare hadmits
  | legacyElement hname hbare hclass hadmits => exact .legacyElement hname hbare hclass hadmits
  | element hname hbare hadmits => exact .element hname hbare hadmits
  | function hname hadmits hbefore hbehind hf => exact .function hname hadmits hbefore hbehind hf

theorem Items.moved {simples : List Simple} (h : Items level F p simples text after) (k : Nat) :
    Items level F (p + k) (simples.map (SimpleOf.moved k)) text after := by
  induction h with
  | nil => exact .nil
  | cons hitem _ ih =>
    rw [Nat.add_right_comm] at ih
    exact .cons (hitem.moved k) ih

theorem Links.moved {row : List Link} (h : Links level F p row text after) (k : Nat) :
    Links level F (p + k) (row.map (Link.moved k)) text after := by
  induction h with
  | nil => exact .nil
  | @cons p _ joint text _ _ _ _ hjoint hitems _ ih =>
    have hmoved := hitems.moved k
    rw [Nat.add_right_comm] at hmoved
    rw [Nat.add_right_comm, Nat.add_right_comm p] at ih
    exact .cons hjoint hmoved ih

theorem Chain.moved {c : Complex} (h : Chain level F p c text after) (k : Nat) :
    Chain level F (p + k) (c.moved k) text after := by
  obtain ⟨hitems, hlinks⟩ := h
  have hmoved := hlinks.moved k
  rw [Nat.add_right_comm] at hmoved
  exact .mk (hitems.moved k) hmoved

/-! ### Rows in a row -/

/-- Rows of links behind each other are a row of links. -/
theorem Links.append {row more : List Link} {others after' : Text}
    (h : Links level F p row text after)
    (hmore : Links level F (p + text.length) more others after')
    (hreplaces : Replaces (others ++ after') after) :
    Links level F p (row ++ more) (text ++ others) after' := by
  induction h with
  | nil => exact hmore
  | @cons p combinator joint text rest after compound row hjoint hitems _ ih =>
    rw [List.length_append, List.length_append, ← Nat.add_assoc, ← Nat.add_assoc] at hmore
    have hfirst : Items level F (p + joint.length) compound.simples text
        (rest ++ others ++ after') := by
      rw [List.append_assoc]
      exact hitems.imp (.refl level) (fun _ _ _ _ hf => hf) (hreplaces.append rest) (Nat.le_refl _)
    have hrow := Links.cons hjoint hfirst (ih hmore hreplaces)
    rw [List.append_assoc, List.append_assoc]
    exact hrow

theorem Joint.endsItems {combinator joint : Text} (h : Joint combinator joint) (t : Text) :
    EndsItems (joint ++ t) := by
  cases h with
  | blanks hblanks hne =>
    intro c hc
    rw [head?_append_left hne] at hc
    exact EndsItems.of_blanks hblanks c hc
  | @mark before behind c hbefore hc hbehind =>
    rw [List.append_assoc]
    refine .blanks_append hbefore ?_
    rcases Lexer.isCombinator_iff.mp hc with rfl | rfl | rfl <;>
      exact .cons (by decide) (by decide) _

/-- Blanks around a combinator belong to it. -/
theorem Joint.padded {combinator joint before behind : Text} (h : Joint combinator joint)
    (hbefore : allBlank before = true) (hbehind : allBlank behind = true) :
    Joint combinator (before ++ (joint ++ behind)) := by
  cases h with
  | blanks hblanks hne =>
    refine .blanks ?_ (by simp [hne])
    rw [allBlank_append, allBlank_append, hbefore, hblanks, hbehind]
    rfl
  | @mark inner outer c hinner hc houter =>
    have hfront : allBlank (before ++ inner) = true := by
      rw [allBlank_append, hbefore, hinner]
      rfl
    have hback : allBlank (outer ++ behind) = true := by
      rw [allBlank_append, houter, hbehind]
      rfl
    have hmark := Joint.mark hfront hc hback
    rw [List.append_assoc] at hmark
    rw [List.append_assoc]
    exact hmark

/-- Complex selectors with a combinator between them are one. -/
theorem Chain.joined {c d : Complex} {combinator joint text' after' : Text}
    (hc : Chain level F p c text after) (hjoint : Joint combinator joint)
    (hd : Chain level F (p + text.length + joint.length) d text' after') :
    Chain level F p (c.joined combinator d) (text ++ (joint ++ text')) after' := by
  obtain @⟨text, others, after, hitems, hlinks⟩ := hc
  obtain @⟨text', others', _, hitems', hlinks'⟩ := hd
  rw [List.length_append, ← Nat.add_assoc] at hitems' hlinks'
  have hreplaces : Replaces (joint ++ (text' ++ others') ++ after') after := by
    rw [List.append_assoc]
    exact .inr (hjoint.endsItems _)
  have hrow := hlinks.append (.cons hjoint hitems' hlinks') hreplaces
  have hfirst : Items level F p c.first.simples text
      (others ++ (joint ++ (text' ++ others')) ++ after') := by
    rw [List.append_assoc]
    exact hitems.imp (.refl level) (fun _ _ _ _ hf => hf) (hreplaces.append others) (Nat.le_refl _)
  rw [List.append_assoc]
  exact .mk hfirst hrow

theorem Whole.exists_chain {c : Complex} {source : Text} (h : Whole level F (.complex c) source) :
    ∃ before text behind, source = before ++ (text ++ behind) ∧ allBlank before = true ∧
      allBlank behind = true ∧ Chain level F before.length c text behind := by
  generalize hselector : Selector.complex c = selector at h
  obtain @⟨first, members, before, behind, text, others, hbefore, hbehind, hchain, hmembers⟩ := h
  cases hmembers with
  | cons _ _ _ _ => cases hselector
  | nil =>
    cases hselector
    exact ⟨before, text, behind, rfl, hbefore, hbehind, hchain⟩

/-- Selectors that are complex, with a combinator between them, are one complex selector. -/
theorem Whole.joined {c d : Complex} {combinator joint first second : Text}
    (hfirst : Whole level F (.complex c) first) (hjoint : Joint combinator joint)
    (hsecond : Whole level F (.complex d) second) :
    Whole level F (.complex (c.joined combinator (d.moved (first.length + joint.length))))
      (first ++ (joint ++ second)) := by
  obtain ⟨before, text, behind, rfl, hbefore, hbehind, hc⟩ := hfirst.exists_chain
  obtain ⟨before', text', behind', rfl, hbefore', hbehind', hd⟩ := hsecond.exists_chain
  have hplace : before'.length + ((before ++ (text ++ behind)).length + joint.length) =
      before.length + text.length + (behind ++ (joint ++ before')).length := by
    simp only [List.length_append]
    omega
  have hmoved := hd.moved ((before ++ (text ++ behind)).length + joint.length)
  rw [hplace] at hmoved
  have hchain := hc.joined (hjoint.padded hbehind hbefore') hmoved
  have hsplit : before ++ (text ++ behind) ++ (joint ++ (before' ++ (text' ++ behind'))) =
      before ++ (text ++ (behind ++ (joint ++ before') ++ text') ++ ([] ++ behind')) := by
    simp
  rw [hsplit]
  exact .mk hbefore hbehind' hchain .nil

end Spelling

/-! ## Reading rows -/

namespace Selector

variable {context : Option Context}

/-- A complex selector, a combinator and another complex selector are one complex selector. -/
theorem parse_joined {first second combinator joint : Text} {c d : Complex}
    (hfirst : (parse context first).result = .ok (complex c))
    (hjoint : Spelling.Joint combinator joint)
    (hsecond : (parse context second).result = .ok (complex d)) :
    (parse context (first ++ (joint ++ second))).result =
      .ok (complex (c.joined combinator (d.moved (first.length + joint.length)))) :=
  parse_eq_ok_iff.mpr ((parse_eq_ok_iff.mp hfirst).joined hjoint (parse_eq_ok_iff.mp hsecond))

/-- Reading behind a selector and a comma with blanks around it mirrors reading alone. -/
theorem mirrored_parse_comma {first before behind second : Text} {a : Selector}
    (hfirst : (parse context first).result = .ok a) (hbefore : allBlank before = true)
    (hbehind : allBlank behind = true) (hsecond : allBlank second = false) :
    Mirrored (Failure.Shifted (first.length + before.length + 1 + behind.length))
      (append a ∘ moved ((first ++ before).length + 1) ∘ moved behind.length)
      (parse context second).result
      (parse context (first ++ (before ++ ',' :: (behind ++ second)))).result := by
  have hpadded : (parse context (first ++ before)).result = .ok a :=
    (parse_append_right hbefore).mpr hfirst
  have hall : allBlank (behind ++ second) = false := by
    rw [allBlank_append, hsecond, Bool.and_false]
  have hcomma := parse_comma hpadded hall
  rw [List.append_assoc] at hcomma
  refine (parse_append_left context hbehind hsecond).result.trans hcomma fun hfront hback => ?_
  have hplace : first.length + before.length + 1 + behind.length =
      behind.length + ((first ++ before).length + 1) := by
    rw [List.length_append]
    omega
  rw [hplace]
  exact hfront.trans hback

/-- Behind a selector that is read, a comma with blanks around it and a text that is not blank are
the list of the members of both if the text is read, and the same trouble as in the text, further
on, if it is not. Two selectors that are complex, with a combinator between them, are the complex
selector that they are joined to. -/
theorem parse_row {context : Option Context} {first before behind : Text} {a : Selector}
    (hfirst : (parse context first).result = .ok a) (hbefore : allBlank before = true)
    (hbehind : allBlank behind = true) (second : Text) :
    (allBlank second = false →
      ((∃ s, (parse context (first ++ (before ++ ',' :: (behind ++ second)))).result = .ok s) ↔
        ∃ b, (parse context second).result = .ok b) ∧
      (∀ b, (parse context second).result = .ok b → ∃ x y others,
        (parse context (first ++ (before ++ ',' :: (behind ++ second)))).result =
          .ok (list x y others) ∧ (list x y others).same (a.append b) = true) ∧
      ∀ f, (parse context second).result = .error f → ∃ g,
        (parse context (first ++ (before ++ ',' :: (behind ++ second)))).result = .error g ∧
          f.Shifted (first.length + before.length + 1 + behind.length) g) ∧
    ∀ c d, a = complex c → (parse context second).result = .ok (complex d) →
      (∀ mark ∈ ['>', '+', '~'], ∃ s,
        (parse context (first ++ (before ++ mark :: (behind ++ second)))).result =
          .ok (complex s) ∧ (complex s).same (complex (c.joined [mark] d)) = true) ∧
      ∀ blanks, allBlank blanks = true → blanks ≠ [] → ∃ s,
        (parse context (first ++ (blanks ++ second))).result = .ok (complex s) ∧
          (complex s).same (complex (c.joined [' '] d)) = true := by
  constructor
  · intro hsecond
    have hmirrored := mirrored_parse_comma hfirst hbefore hbehind hsecond
    refine ⟨hmirrored.exists_ok_iff, fun b hb => ?_, fun f hf => hmirrored.exists_error hf⟩
    have hparse := hmirrored.eq_ok hb
    obtain ⟨x, y, others, hlist⟩ :=
      append_eq_list a ((b.moved behind.length).moved ((first ++ before).length + 1))
    refine ⟨x, y, others, hparse.trans (congrArg Except.ok hlist), ?_⟩
    rw [← hlist, same_iff, bare_append, bare_append, bare_moved, bare_moved]
  · rintro c d rfl hd
    have hsame : ∀ (combinator : Text) (k : Nat),
        (complex (c.joined combinator (d.moved k))).same (complex (c.joined combinator d)) =
          true := by
      intro combinator k
      simp [same_iff, bare]
    constructor
    · intro mark hmark
      have hcombinator : Lexer.isCombinator mark = true := by
        rw [Lexer.isCombinator_iff]
        simpa using hmark
      have hparse := parse_joined hfirst (.mark hbefore hcombinator hbehind) hd
      rw [List.append_assoc] at hparse
      exact ⟨_, hparse, hsame _ _⟩
    · intro blanks hblanks hne
      exact ⟨_, parse_joined hfirst (.blanks hblanks hne) hd, hsame _ _⟩

/-- A list, a list with an unknown name in its second member, and a chain of three. -/
theorem parse_row_of_lists :
    (∃ x y others, (parse none "ul > li\t,\n a:hover".toList).result = .ok (list x y others)) ∧
    (∃ g, (parse none "ul > li\t,\n a:hoover".toList).result = .error g ∧
      g.error.position = some 13) ∧
    ∃ s, (parse none "ul > li\t~\n a:hover".toList).result = .ok (complex s) ∧
      s.bare.links.map Link.combinator = [some ['>'], some ['~']] := by
  have hfirst : (parse none "ul > li".toList).result =
      .ok (complex ⟨⟨⟨.tag, some "ul".toList, none, none, 0⟩, []⟩,
        [⟨some ">".toList, ⟨⟨.tag, some "li".toList, none, none, 5⟩, []⟩⟩]⟩) := by
    decide +kernel
  have hhover : (parse none "a:hover".toList).result =
      .ok (complex ⟨⟨⟨.tag, some "a".toList, none, none, 0⟩,
        [⟨.pseudoClass, some "hover".toList, none, none, 1⟩]⟩, []⟩) := by
    decide +kernel
  have hhoover : (parse none "a:hoover".toList).result = .error (.ofError
      { code := .unknownPseudoClass, name := some "hoover".toList,
        value := some "a:hoover".toList, position := some 2, context := some .standard }) := by
    decide +kernel
  have hbefore : allBlank "\t".toList = true := rfl
  have hbehind : allBlank "\n ".toList = true := rfl
  obtain ⟨hlist, hjoined⟩ := parse_row hfirst hbefore hbehind "a:hover".toList
  obtain ⟨-, -, herror⟩ := (parse_row hfirst hbefore hbehind "a:hoover".toList).1 rfl
  refine ⟨?_, ?_, ?_⟩
  · obtain ⟨x, y, others, hparse, -⟩ := (hlist rfl).2.1 _ hhover
    exact ⟨x, y, others, hparse⟩
  · obtain ⟨g, hparse, hshifted⟩ := herror _ hhoover
    obtain ⟨p, hp, hg⟩ := hshifted.position
    obtain rfl : 2 = p := Option.some.inj hp
    exact ⟨g, hparse, hg⟩
  · obtain ⟨s, hparse, hsame⟩ := (hjoined _ _ rfl hhover).1 '~' (by decide)
    have hbare := Selector.complex.inj (same_iff.mp hsame)
    refine ⟨s, hparse, ?_⟩
    rw [hbare]
    rfl

end Selector

end SelectorCheck
