import SelectorCheck.Proofs.Selector.Failure
import SelectorCheck.Proofs.Token.Malformed
import SelectorCheck.Proofs.Token.Pseudo

/-!
# Where unknown names are reported

A pseudo name is rejected because it is in no table of the level, or because it is
the name of a function that is in the table of functions but cannot be built. In
the first case the report points at the name. In the second one it points at the
argument: the function is built from its name and its argument text alone, so
what goes wrong has no place of its own and is placed like an error in the
argument.

## Main definitions

* `SelectorError.PointsAtName` — the place of the error is that of its name.
* `SelectorError.PointsAtArgument` — it is that of the argument of its name.

## Main results

* `Selector.unknownName_place` — which unknown names are reported where they
  stand.
* `Selector.unknownName_misplaced` — one that is not.
-/

namespace SelectorCheck

open Text Lexer

/-! ## Places in the text -/

namespace SelectorError

/-- A colon stands in front of the place of the error, and the longest run of name characters there
is, in small letters, the name that the error is about. -/
def PointsAtName (source : Text) (e : SelectorError) : Prop :=
  ∃ p : Nat, e.position = some ((p + 1 : Nat) : Int) ∧ source[p]? = some ':' ∧
    e.name = some (lowercase (takeName (source.drop (p + 1))))

/-- The place of the error is behind an opening parenthesis and blanks. In front of the parenthesis
stands the name that the error is about, behind a colon. -/
def PointsAtArgument (source : Text) (e : SelectorError) : Prop :=
  ∃ (before called blanks after : Text),
    source = before ++ ':' :: (called ++ '(' :: (blanks ++ after)) ∧ NameRun called ['('] ∧
    allBlank blanks = true ∧ e.name = some called.lowercase ∧
    e.position = some ((before.length + 1 + called.length + 1 + blanks.length : Nat) : Int)

variable {source : Text} {e : SelectorError}

theorem pointsAtName_of_nameIn {name : Token} (h : NameIn source name)
    (hposition : e.position = some name.pos) (hname : e.name = some (Grammar.calledBy name)) :
    e.PointsAtName source := by
  obtain @⟨before, called, after, rfl, hcalled⟩ := h
  have hdrop : (before ++ ':' :: (called ++ after)).drop (before.length + 1) = called ++ after := by
    rw [List.drop_append, Nat.add_sub_cancel_left]
    simp
  refine ⟨before.length, hposition, by simp, ?_⟩
  rw [hdrop, hcalled.takeName_eq, hname]
  rfl

theorem pointsAtArgument_of_callIn {name paren : Token} {rest : List Token}
    (h : CallIn source name paren rest)
    (hposition : e.position = some (Grammar.enclosed paren rest).start)
    (hname : e.name = some (Grammar.calledBy name)) : e.PointsAtArgument source := by
  obtain @⟨before, called, blanks, content, after, close, others, rfl, hcalled, hblanks, -,
    hclose⟩ := h
  rw [Grammar.enclosed_argumentTokens _ _ _ hclose] at hposition
  split at hposition
  · exact ⟨before, called, [], blanks ++ (content ++ ')' :: after), rfl, hcalled, rfl, hname,
      hposition⟩
  · exact ⟨before, called, blanks, content ++ ')' :: after, rfl, hcalled,
      allBlank_iff.mpr hblanks.all, hname, hposition⟩

/-- Behind a parenthesis and blanks there is no colon in front. -/
theorem PointsAtArgument.not_pointsAtName (h : e.PointsAtArgument source) :
    ¬ e.PointsAtName source := by
  obtain ⟨before, called, blanks, after, rfl, -, hblanks, -, hposition⟩ := h
  rintro ⟨p, hp, hcolon, -⟩
  rw [hposition, Option.some.injEq, Int.natCast_inj] at hp
  -- The character in front of the place is the parenthesis or a blank.
  have hindex : p = (before ++ ':' :: called).length + blanks.length := by
    simp only [List.length_append, List.length_cons]
    omega
  have hsplit : before ++ ':' :: (called ++ '(' :: (blanks ++ after)) =
      (before ++ ':' :: called) ++ (('(' :: blanks) ++ after) := by simp
  rw [hsplit, hindex, List.getElem?_append_right (Nat.le_add_right _ _), Nat.add_sub_cancel_left,
    List.getElem?_append_left (by simp)] at hcolon
  rcases List.mem_cons.mp (List.mem_of_getElem? hcolon) with hparen | hblank
  · cases hparen
  · have hcolonBlank := allBlank_iff.mp hblanks ':' hblank
    cases hcolonBlank

end SelectorError

namespace Selector

/-- An unknown name is reported where it stands, unless it is the name of a function that is in the
table of functions and cannot be built; then it is reported where its argument begins. -/
theorem unknownName_place {context : Option Context} {source : Text} {f : Failure}
    (h : (parse context source).result = .error f) (hclass : f.error.errorClass = .unknownName) :
    ∃ name, f.error.name = some name ∧ f.error.code.errorClass = .unknownName ∧
      (f.error.PointsAtName source ↔
        ¬ (f.error.code = .unknownPseudoFunction ∧
          (levelOf context).admitsFunction name = true)) ∧
      (f.error.code = .unknownPseudoFunction ∧ (levelOf context).admitsFunction name = true →
        FunctionKind.ofName? name = none ∧ f.error.PointsAtArgument source) := by
  rcases parseWithin_cases (source.length / 6) context source with hempty | ⟨e, he, hlexer⟩ |
    ⟨tokens, htokens, hexplained⟩
  · rw [parse, depthFor, hempty] at h
    cases h
    cases hclass
  · rw [parse, depthFor, hlexer] at h
    cases h
    rw [Failure.error_ofError, Token.errorClass_of_error he] at hclass
    cases hclass
  · cases hexplained.failure f h with
    | unexpected _ | dangling _ => cases hclass
    | @name marker name rest code hsuffix hmarker hcode hfunction =>
      have hadmits : ¬ (code = .unknownPseudoFunction ∧
          (levelOf context).admitsFunction (Grammar.calledBy name) = true) := by
        rintro ⟨heq, hadmits⟩
        have hnone : (levelOf context).admitsFunction (Grammar.calledBy name) = false :=
          hfunction heq
        rw [hnone] at hadmits
        cases hadmits
      refine ⟨Grammar.calledBy name, rfl, hcode, iff_of_true ?_ hadmits,
        fun hboth => absurd hboth hadmits⟩
      exact SelectorError.pointsAtName_of_nameIn (Token.nameIn_of_suffix htokens hsuffix hmarker)
        rfl rfl
    | @argument called arg start cause hcalls hadmits hcause =>
      cases unbuilt_of_error hcause with
      | unknown hkind =>
        obtain @⟨marker, name, paren, rest, hsuffix, hmarker, hparen⟩ := hcalls
        have hcall := Token.callIn_of_suffix htokens hsuffix hmarker hparen
        have hplace : ((Failure.ofError (unbuiltFunction (Grammar.calledBy name)
            (Grammar.enclosed paren rest).text (some (context.getD .standard)))).relocated
              (Grammar.enclosed paren rest).start).error.PointsAtArgument source :=
          SelectorError.pointsAtArgument_of_callIn hcall (by simp [unbuiltFunction]) rfl
        have hboth : ErrorCode.unknownPseudoFunction = .unknownPseudoFunction ∧
            (levelOf context).admitsFunction (Grammar.calledBy name) = true := ⟨rfl, hadmits⟩
        exact ⟨Grammar.calledBy name, rfl, rfl,
          iff_of_false hplace.not_pointsAtName (not_not_intro hboth), fun _ => ⟨hkind, hplace⟩⟩
      | @argument e _ hcases =>
        have hsame : e.errorClass = .unknownName := hclass
        rw [hsame] at hcases
        rcases hcases with hcases | hcases <;> cases hcases
      | unreadable _ _ _ => cases hclass

/-- A name that is in no table of the level, behind a tag name. -/
theorem unknownName_place_of_hover :
    ∃ f, (parse (some ⟨.css1, .general, none⟩) "a:HOVER, b".toList).result = .error f ∧
      f.error.PointsAtName "a:HOVER, b".toList := by
  have hparse : (parse (some ⟨.css1, .general, none⟩) "a:HOVER, b".toList).result =
      .error (.ofError
        { code := .unknownPseudoClass, name := some "hover".toList,
          value := some "a:HOVER, b".toList, position := some 2,
          context := some ⟨.css1, .general, none⟩ }) := by
    decide +kernel
  obtain ⟨_, -, -, hpoints, -⟩ := unknownName_place hparse rfl
  exact ⟨_, hparse, hpoints.mpr (by simp)⟩

/-- The name of a function that is in the table of functions and cannot be built: the report points
behind the parenthesis. -/
theorem unknownName_misplaced :
    ∃ f, (parse (some ⟨.css3, .general, some "en".toList⟩) ":is(.a)".toList).result = .error f ∧
      f.error.errorClass = .unknownName ∧ f.error.name = some "is".toList ∧
      f.error.position = some 4 ∧ ¬ f.error.PointsAtName ":is(.a)".toList := by
  have hparse : (parse (some ⟨.css3, .general, some "en".toList⟩) ":is(.a)".toList).result =
      .error (Failure.relocated 4 (.ofError (unbuiltFunction "is".toList (some ".a".toList)
        (some ⟨.css3, .general, some "en".toList⟩)))) := by
    decide +kernel
  refine ⟨_, hparse, rfl, rfl, rfl, ?_⟩
  rintro ⟨p, hp, hcolon, -⟩
  have hthree : p = 3 := by
    have hfour : (4 : Int) = ((p + 1 : Nat) : Int) := Option.some.inj hp
    omega
  subst hthree
  exact absurd hcolon (by decide)

end Selector

end SelectorCheck
