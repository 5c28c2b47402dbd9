import SelectorCheck.Proofs.Selector.Composition
import SelectorCheck.Proofs.Token.Stretched

/-!
# Blanks on both sides of a selector

Blanks around a selector do not change what it is, nor what is wrong with it. Those
in front move its simple selectors by their number, but not the one that a negation
holds: where that one begins counts from where the text of the argument begins.
Blanks behind the selector are not seen, but its end lies behind them: what is
reported at the end is reported at the new end, or at the place where the end was.

Blanks are no combinator at either side, because the lexer holds them back until it
sees the next lexeme. That is used here twice, once for each side, and the two
readings are put together.

## Main definitions

* `Failure.Stretched` — the same trouble in a text with another end.
* `Selector.places` — where simple selectors begin, those in arguments included.

## Main results

* `Selector.parse_stretched` — reading in front of blanks mirrors reading without
  them.
* `Selector.places_moved` — which places blanks in front move.
* `Selector.parse_surrounded` — blanks on both sides.
-/

namespace SelectorCheck

open Text

/-- The failure `other` is about the same trouble as `f`, in a text with another end. -/
def Failure.Stretched (m n : Nat) (f other : Failure) : Prop := f.error.Stretched m n other.error

/-- An error in an argument stays where it is, however far the selector goes on. -/
theorem Failure.relocatable_stretched (m n : Nat) (f : Failure) :
    Grammar.Relocatable 0 (Failure.Stretched m n) f f := by
  intro start
  refine ⟨rfl, rfl, rfl, rfl, _, _, SelectorError.position_relocated ..,
    SelectorError.position_relocated .., .inl ?_⟩
  rw [Int.natCast_zero, Int.add_zero]

theorem Grammar.retold_of_end {ends : Int → Int → Prop} {p q : Int} (h : ends p q)
    (named : Bool) (tokens : List Token) :
    Retold 0 ends named (tokens ++ [⟨.eof, none, p⟩]) (tokens ++ [⟨.eof, none, q⟩]) :=
  (Retold.refl named tokens).append fun _ => .cons (.ending h) (.nil _)

/-! ## Places -/

/-- Where the simple selector that a negation holds begins in the text of the argument. -/
def FunctionOf.innerPlace? (f : PseudoFunction) : Option Int :=
  match f.argument with
  | .plain _ => none
  | .negated simple => some simple.pos

/-- Where the simple selector begins, and where in its argument the one begins that it negates. -/
def SimpleOf.places (s : Simple) : Int × Option Int :=
  (s.pos, s.function.bind FunctionOf.innerPlace?)

namespace Selector

/-- The places of all simple selectors, in the order in which they are written. -/
def places (s : Selector) : List (Int × Option Int) := s.simples.map SimpleOf.places

end Selector

theorem Complex.simples_moved (k : Nat) (c : Complex) :
    (c.moved k).simples = c.simples.map (SimpleOf.moved k) := by
  have hpart : ∀ l : Link, (l.moved k).compound.simples =
      l.compound.simples.map (SimpleOf.moved k) := fun _ => rfl
  have hparts : (c.moved k).parts = c.parts.map (Link.moved k) := rfl
  unfold simples
  rw [hparts, List.flatMap_map, List.map_flatMap]
  exact congrArg (c.parts.flatMap ·) (funext hpart)

namespace Selector

theorem simples_moved (k : Nat) (s : Selector) :
    (s.moved k).simples = s.simples.map (SimpleOf.moved k) := by
  have hmembers : (s.moved k).members = s.members.map (Complex.moved k) := by
    cases s <;> rfl
  unfold simples
  rw [hmembers, List.flatMap_map, List.map_flatMap]
  exact congrArg (s.members.flatMap ·) (funext (Complex.simples_moved k))

/-- A selector is moved without what its arguments hold. -/
theorem places_moved (k : Nat) (s : Selector) :
    (s.moved k).places = s.places.map fun place => (place.1 + (k : Int), place.2) := by
  rw [places, places, simples_moved, List.map_map, List.map_map]
  rfl

/-! ## Blanks behind -/

/-- The same functions built for a text with another end. -/
theorem setting_mirrors_before (read : Option Context → Text → Traced Selector)
    (context : Option Context) (source other : Text) (tokens : List Token) :
    (setting read context (some source)).Mirrors tokens 0
      (fun p q => p = source.length ∧ q = other.length)
      (Failure.Stretched source.length other.length) (setting read context (some other)) where
  level := rfl
  unexpected := by
    rintro t _ (_ | hends)
    · exact ⟨rfl, rfl, rfl, rfl, _, _, rfl, rfl, .inl (Int.add_zero _)⟩
    · exact ⟨rfl, rfl, rfl, rfl, _, _, rfl, rfl, .inr hends⟩
  dangling t := ⟨rfl, rfl, rfl, rfl, _, _, rfl, rfl, .inl (Int.add_zero _)⟩
  unknownName _ _ t _ hpos := ⟨rfl, rfl, rfl, rfl, t.pos, _, rfl, rfl, .inl (by simpa using hpos)⟩
  build _ := Traced.mirrors_refl (Failure.relocatable_stretched _ _) _

variable {source blanks : Text}

/-- Blanks behind a selector change what it is at fault for at its end only. -/
theorem parse_stretched (context : Option Context) (hblanks : allBlank blanks = true)
    (hsource : allBlank source = false) :
    (parse context source).Mirrors
      (Failure.Stretched source.length (source ++ blanks).length) (moved 0)
      (parse context (source ++ blanks)) := by
  have hall : allBlank (source ++ blanks) = false := by
    rw [allBlank_append, hblanks, hsource]
    rfl
  have hdepth : source.length / 6 < depthFor (source ++ blanks) := by
    rw [depthFor, List.length_append]
    omega
  rw [← parseWithin_eq_parse context hdepth]
  show (parseWithin (depthFor (source ++ blanks)) context source).Mirrors _ _
    (parseWithin (depthFor (source ++ blanks)) context (source ++ blanks))
  rw [depthFor]
  generalize (source ++ blanks).length / 6 = depth
  have hstretched := Token.ofSelector_stretched source hblanks
  generalize htokens : Token.ofSelector source = result at hstretched
  generalize hothers : Token.ofSelector (source ++ blanks) = result' at hstretched
  cases hstretched with
  | error h =>
    rw [parseWithin_of_malformed depth context hsource htokens,
      parseWithin_of_malformed depth context hall hothers]
    exact Traced.mirrors_error h
  | ok tokens =>
    have hsetting := setting_mirrors_before (parseWithin depth) context source (source ++ blanks)
      (tokens ++ [⟨.eof, none, source.length⟩])
    rw [parseWithin_of_tokens depth context hsource htokens,
      parseWithin_of_tokens depth context hall hothers]
    exact (Grammar.selector_mirrors hsetting
      ⟨List.suffix_refl _, Token.exists_end htokens⟩
      (Grammar.retold_of_end ⟨rfl, rfl⟩ false tokens)).outcome

/-! ## Blanks on both sides -/

/-- A selector in blanks is the selector, moved, or it is at fault for the same reason. Of an
accepted one all places are moved but those in arguments, which count from where the text of the
argument begins. Of a rejected one that is not blanks only, the place is moved as well; at the end
of the selector it may also be the new end. -/
theorem parse_surrounded {front back : Text} (hfront : allBlank front = true)
    (hback : allBlank back = true) (context : Option Context) (source : Text) :
    (∃ tree, (parse context source).result = .ok tree ∧
      (parse context (front ++ (source ++ back))).result = .ok (tree.moved front.length) ∧
      (tree.moved front.length).same tree = true ∧
      (tree.moved front.length).places =
        tree.places.map fun place => (place.1 + (front.length : Int), place.2)) ∨
    ∃ f g, (parse context source).result = .error f ∧
      (parse context (front ++ (source ++ back))).result = .error g ∧
      g.error.errorClass = f.error.errorClass ∧ g.error.code = f.error.code ∧
      g.error.name = f.error.name ∧ g.error.token = f.error.token ∧
      (allBlank source = false → ∃ p q : Int, f.error.position = some p ∧
        g.error.position = some q ∧ (q = p + front.length ∨
          p = source.length ∧ q = (front ++ (source ++ back)).length)) := by
  by_cases hsource : allBlank source = true
  · have hall : allBlank (front ++ (source ++ back)) = true := by
      rw [allBlank_append, allBlank_append, hfront, hsource, hback]
      rfl
    refine .inr ⟨_, _, parse_of_blank context hsource, parse_of_blank context hall, rfl, rfl, rfl,
      rfl, ?_⟩
    intro hsolid
    rw [hsource] at hsolid
    cases hsolid
  · rw [Bool.not_eq_true] at hsource
    have hpadded : allBlank (source ++ back) = false := by
      rw [allBlank_append, hsource]
      rfl
    have hbehind := (parse_stretched context hback hsource).result
    have hahead := (parse_append_left context hfront hpadded).result
    cases hresult : (parse context source).result with
    | ok tree =>
      have hwhole := hahead.eq_ok (hbehind.eq_ok hresult)
      rw [moved_zero] at hwhole
      refine .inl ⟨tree, rfl, hwhole, ?_, places_moved front.length tree⟩
      rw [same_iff, bare_moved]
    | error f =>
      obtain ⟨g, hg, hstretched⟩ := hbehind.exists_error hresult
      obtain ⟨e, he, hshifted⟩ := hahead.exists_error hg
      obtain ⟨p, q, hp, hq, hplace⟩ := hstretched.position
      obtain ⟨q', hq', hmoved⟩ := hshifted.position
      rw [hq] at hq'
      obtain rfl := Option.some.inj hq'
      refine .inr ⟨f, e, rfl, he, hshifted.errorClass.trans hstretched.errorClass,
        hshifted.code.trans hstretched.code, hshifted.name.trans hstretched.name,
        hshifted.token.trans hstretched.token, fun _ => ⟨p, _, hp, hmoved, ?_⟩⟩
      rcases hplace with rfl | ⟨rfl, rfl⟩
      · exact .inl rfl
      · refine .inr ⟨rfl, ?_⟩
        have hwhole : (front ++ (source ++ back)).length = front.length + (source ++ back).length :=
          List.length_append
        rw [hwhole, Int.natCast_add, Int.add_comm]

private theorem exists_places (context : Option Context) (source : Text)
    (row : List (Int × Option Int))
    (h : (parse context source).result.toOption.map places = some row) :
    ∃ tree, (parse context source).result = .ok tree ∧ tree.places = row := by
  cases hresult : (parse context source).result with
  | error f =>
    rw [hresult] at h
    cases h
  | ok tree =>
    rw [hresult] at h
    exact ⟨tree, rfl, Option.some.inj h⟩

/-- The blanks in front of a negation do not move what it holds, so not all places move. -/
theorem surrounded_places_of_negation :
    ∃ tree whole, (parse none ":not(a)".toList).result = .ok tree ∧
      (parse none ("   ".toList ++ (":not(a)".toList ++ []))).result = .ok whole ∧
      tree.places = [(0, some 0)] ∧ whole.places = [(3, some 0)] ∧
      whole.places ≠ tree.places.map fun place => (place.1 + 3, place.2.map (· + 3)) := by
  obtain ⟨tree, htree, hplaces⟩ := exists_places none ":not(a)".toList [(0, some 0)]
    (by decide +kernel)
  obtain ⟨whole, hwhole, hmoved⟩ := exists_places none ("   ".toList ++ (":not(a)".toList ++ []))
    [(3, some 0)] (by decide +kernel)
  refine ⟨tree, whole, htree, hwhole, hplaces, hmoved, ?_⟩
  rw [hplaces, hmoved]
  decide

/-- A parenthesis that is not closed is missed at the end, and blanks put the end further on. -/
theorem parse_surrounded_of_unclosed :
    allBlank "\t ".toList = true ∧ allBlank "\n".toList = true ∧
      ∃ f g, (parse none ":not(a".toList).result = .error f ∧
        (parse none ("\t ".toList ++ (":not(a".toList ++ "\n".toList))).result = .error g ∧
        g.error.errorClass = f.error.errorClass ∧ g.error.code = f.error.code ∧
        g.error.name = f.error.name ∧ g.error.token = f.error.token ∧
        (allBlank ":not(a".toList = false → ∃ p q : Int, f.error.position = some p ∧
          g.error.position = some q ∧ (q = p + 2 ∨ p = 6 ∧ q = 9)) := by
  refine ⟨by decide, by decide, ?_⟩
  refine (parse_surrounded (by decide) (by decide) none _).resolve_left ?_
  rintro ⟨tree, htree, -⟩
  have hnone : (parse none ":not(a".toList).result.toOption = none := by decide +kernel
  rw [htree] at hnone
  cases hnone

end Selector

end SelectorCheck
