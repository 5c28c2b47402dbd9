import SelectorCheck.Proofs.Selector.Argument
import SelectorCheck.Proofs.Token.Pseudo

/-!
# A function in a selector and on its own

A function can be built from its name and its argument text, and it can be read
as a selector that is nothing but a call of it. The two ways differ in who deals
with the blanks around the argument: a selector is cut into tokens first, and the
argument comes without them and with its place; the function that is built on its
own finds them in its text. They come to the same function, or they fail for the
same reason, and where no blanks stand behind the argument also at the same place.

## Main results

* `Token.ofSelector_call` — the tokens of a call.
* `Selector.parse_call` — reading a call is building the function.
* `Selector.parse_call_agrees` — the two ways agree on every argument.
-/

namespace SelectorCheck

open Text RawArgument

/-! ## The tokens of a call -/

/-- The tokens of a call, with the argument `content` behind the blanks `before`. -/
theorem Token.ofSelector_call (kind : FunctionKind) {before content : Text}
    (hbefore : Run isBlank before (content ++ [')'])) (hcontent : SelfContained content) :
    ∃ close eof, close.kind = .parenClose ∧ eof.kind = .eof ∧
      Token.ofSelector (Spelling.call kind.name (before ++ content)) =
        .ok (⟨.colon, none, 0⟩ :: ⟨.tag, some kind.name, 1⟩ ::
          ⟨.parenOpen, none, (1 + kind.name.length : Nat)⟩ ::
          (Lexer.argumentTokens content
            ⟨1 + kind.name.length + 1 + before.length, content ++ [')']⟩ ++ [close, eof])) := by
  have hsource : Spelling.call kind.name (before ++ content) =
      [':'] ++ (kind.name ++ '(' :: (before ++ (content ++ [')']))) ++ [] := by
    simp [Spelling.call]
  have hparens := Lexer.Parenthesized.mk hbefore
    (hcontent.scan_closing (1 + kind.name.length + 1 + before.length) [])
  have hname : NameRun kind.name ('(' :: (before ++ (content ++ [')'])) ++ []) :=
    Spelling.nameRun_name kind _
  have hend : ∀ p, Lexer.Lexed (Spelling.call kind.name (before ++ content)) p []
      [⟨.eof, none, (Spelling.call kind.name (before ++ content)).length⟩] := fun p => .done rfl
  have hlexed := Lexer.Lexed.lexeme (.call (p := 0) .single hname hparens) (hend _)
  rw [← hsource] at hlexed
  have hblanks : Run isBlank [] (Spelling.call kind.name (before ++ content)) :=
    .nil_left fun c hc => by cases hc; rfl
  refine ⟨⟨.parenClose, none, (1 + kind.name.length + 1 + before.length + content.length : Nat)⟩,
    ⟨.eof, none, (Spelling.call kind.name (before ++ content)).length⟩, rfl, rfl, ?_⟩
  have htokens := Token.ofSelector_eq_ok_iff.mpr
    ⟨[], _, (List.nil_append _).symm, hblanks, hlexed⟩
  rw [htokens]
  simp only [List.cons_append, List.append_assoc, List.nil_append]
  rfl

/-! ## The grammar on the tokens of a call -/

namespace Grammar

variable {s : Setting}

/-! ### In front of the end -/

section End

variable {eof : Token} (heof : eof.kind = .eof)

include heof

/-- A single simple selector is a whole selector. -/
theorem selector_single {tokens : List Token} {item : Traced Simple}
    (h : items s tokens = (⟨[eof], item⟩ : Step Simple).map fun simple => [simple]) :
    selector s tokens =
      (⟨[eof], item⟩ : Step Simple).map fun simple => .complex ⟨⟨simple, []⟩, []⟩ := by
  have hcomplex : complex s tokens =
      (⟨[eof], item⟩ : Step Simple).map fun simple => ⟨⟨simple, []⟩, []⟩ := by
    rw [complex_eq, h, Step.bind_map]
    refine Step.bind_value fun simple => ?_
    rw [compoundOr, links_of_ne (by simp [heof])]
    rfl
  rw [selector_eq, hcomplex, Step.bind_map]
  refine Step.bind_value fun simple => ?_
  rw [members_of_ne (by simp [heof])]
  show (Step.value [eof] _).bind (valueAtEnd s) = _
  rw [Step.bind_of_ok rfl]
  show Step.before _ (valueAtEnd s _ [eof]) = _
  rw [valueAtEnd, peek_cons, if_pos heof]
  rfl

end End

/-! ### Calls -/

section Call

variable {marker name paren close eof : Token} {tokens : List Token} {arg : Option Text}
  {start : Int}

/-- A selector that is nothing but a call. -/
theorem selector_call (hmarker : marker.kind = .colon) (hname : name.kind = .tag)
    (hparen : paren.kind = .parenOpen) (hclose : close.kind = .parenClose)
    (heof : eof.kind = .eof) (h : enclosed paren tokens = ⟨arg, start, [close, eof]⟩) :
    selector s (marker :: name :: paren :: tokens) =
      (⟨[eof], call s marker name arg start⟩ : Step Simple).map fun item =>
        .complex ⟨⟨item, []⟩, []⟩ := by
  have hunmarked : unmarked? marker = none := by simp [unmarked?, hmarker]
  have hmark : isMarker marker.kind = true := by simp [isMarker, hmarker]
  refine selector_single heof ?_
  rw [items_cons, hunmarked]
  simp only [hmark, if_true, pseudo_call hname hparen hclose h]
  refine Step.bind_value fun a => ?_
  rw [items_of_isSeparator (by rw [peek_cons, heof]; rfl)]
  rfl

end Call

end Grammar

/-! ## Reading a call -/

/-- The text of an argument as a call hands it over: without the blanks around it, or none at all if
it holds blanks only. -/
def Spelling.handedOver (v : Text) : Option Text := if v.allBlank then none else some v.trim

/-- Where an argument begins in a call. -/
def Spelling.argumentStart (kind : FunctionKind) (v : Text) : Nat :=
  kind.name.length + 2 + if v.allBlank then 0 else (v.takeWhile isBlank).length

/-- A result whose failures are placed and whose values are made up into something else. -/
theorem Traced.result_map_mapFailure {α β : Type} (t : Traced α) (f : Failure → Failure)
    (g : α → β) : ((t.mapFailure f).map g).result = match t.result with
      | .ok a => .ok (g a)
      | .error e => .error (f e) := by
  obtain ⟨log, e | a⟩ := t <;> rfl

namespace Selector

open Spelling Traced

variable {v : Text}

/-- Between the parentheses of a call stands the argument that it hands over. -/
private theorem enclosed_call (kind : FunctionKind) (v : Text) {close : Token}
    (hclose : close.kind = .parenClose) (rest : List Token) :
    Grammar.enclosed ⟨.parenOpen, none, (1 + kind.name.length : Nat)⟩
      (Lexer.argumentTokens v.dropBlanks ⟨1 + kind.name.length + 1 + (v.takeWhile isBlank).length,
        v.dropBlanks ++ [')']⟩ ++ close :: rest) =
      ⟨handedOver v, argumentStart kind v, close :: rest⟩ := by
  rw [Grammar.enclosed_argumentTokens _ _ _ hclose, handedOver, argumentStart, ← trim]
  by_cases hblank : v.allBlank = true
  · simp only [trim_eq_nil_iff.mpr hblank, hblank, if_true, Grammar.Enclosed.mk.injEq]
    exact ⟨trivial, by omega, trivial⟩
  · simp only [mt trim_eq_nil_iff.mp hblank, hblank, if_false, Bool.false_eq_true,
      Grammar.Enclosed.mk.injEq]
    exact ⟨trivial, by omega, trivial⟩

/-- The argument of a negation is short enough for the depth that is left. -/
private theorem build_handedOver (context : Context) (kind : FunctionKind) (v : Text) :
    buildWith (parseWithin ((call kind.name v).length / 6) (some context)) (some kind.name)
        (handedOver v) (some context) =
      PseudoFunction.build (some kind.name) (handedOver v) (some context) := by
  refine buildWith_congr fun hname arg harg => parseWithin_eq_parse (some context) ?_
  have hlength : (call kind.name v).length = kind.name.length + v.length + 3 := by
    simp only [call, List.length_cons, List.length_append, List.length_nil]
    omega
  have hthree : FunctionKind.negation.name.length = 3 := rfl
  have hshort : arg.length ≤ v.length := by
    unfold handedOver at harg
    split at harg
    · cases harg
    · cases harg
      exact length_trim_le v
  rw [hlength, hname, hthree]
  omega

/-- Reading a call is building the function from the argument that the call hands over. -/
theorem parse_call (context : Context) (kind : FunctionKind)
    (hadmits : context.level.admitsFunction kind.name = true) (hv : SelfContained v) :
    (parse (some context) (call kind.name v)).result =
      (((PseudoFunction.build (some kind.name) (handedOver v) (some context)).mapFailure
        (·.relocated (argumentStart kind v))).map fun f => complex
          ⟨⟨⟨.pseudoFunction, some kind.name, handedOver v, some f, 0⟩, []⟩, []⟩).result := by
  have hrun : Run isBlank (v.takeWhile isBlank) (v.dropBlanks ++ [')']) := by
    refine ⟨(Run.of_takeWhile isBlank v).all, ?_⟩
    cases hdrop : v.dropBlanks with
    | nil => exact fun c hc => by cases hc; rfl
    | cons c t =>
      intro d hd
      exact (Run.of_takeWhile isBlank v).stops d (by rw [← dropBlanks, hdrop]; exact hd)
  have hsplit : v.takeWhile isBlank ++ v.dropBlanks = v := List.takeWhile_append_dropWhile
  have hcontent : SelfContained v.dropBlanks := by
    refine SelfContained.of_inert_append (u := v.takeWhile isBlank) ?_ (by rwa [hsplit])
    exact fun c hc => isInert_of_isBlank ((Run.of_takeWhile isBlank v).all c hc)
  obtain ⟨close, eof, hclose, heof, htokens⟩ := Token.ofSelector_call kind hrun hcontent
  have hblank : (call kind.name v).allBlank = false := rfl
  have hcalled : Grammar.calledBy ⟨.tag, some kind.name, 1⟩ = kind.name := lowercase_name kind
  have hcolon : TokenKind.colon ≠ .doubleColon := by decide
  rw [hsplit] at htokens
  rw [parse, depthFor, parseWithin]
  simp only [hblank, Bool.false_eq_true, if_false, htokens]
  rw [Traced.ofExcept, Traced.bind_value,
    Grammar.selector_call rfl rfl rfl hclose heof (enclosed_call kind v hclose [eof])]
  simp only [Grammar.call, setting, hcalled, Option.getD_some, hadmits, if_true,
    build_handedOver, hcolon, if_false]
  generalize PseudoFunction.build (some kind.name) (handedOver v) (some context) = built
  obtain ⟨log, e | f⟩ := built <;> rfl

/-- The two results: both ways come to a function, or both fail. -/
private theorem parse_call_cases (context : Context) (kind : FunctionKind)
    (hadmits : context.level.admitsFunction kind.name = true) (hv : SelfContained v) :
    (∃ g f, (PseudoFunction.build (some kind.name) (some v.trim) (some context)).result = .ok g ∧
      (PseudoFunction.build (some kind.name) (some v) (some context)).result = .ok f ∧
      g.same f = true ∧ (parse (some context) (call kind.name v)).result =
        .ok (complex ⟨⟨⟨.pseudoFunction, some kind.name, some v.trim, some g, 0⟩, []⟩, []⟩)) ∨
    ∃ e e' : Failure, (parse (some context) (call kind.name v)).result =
        .error (e.relocated (argumentStart kind v)) ∧
      (PseudoFunction.build (some kind.name) (some v) (some context)).result = .error e' ∧
      e.Alike e' ∧ (v.allBlank = false → v.trimEnd = v →
        e.Shifted (v.takeWhile isBlank).length e') := by
  have hparse := parse_call context kind hadmits hv
  by_cases hblank : v.allBlank = true
  · have hnone : handedOver v = none := by rw [handedOver, if_pos hblank]
    have hbuild : (PseudoFunction.build (some kind.name) (some v) (some context)).result = _ :=
      PseudoFunction.build_missing (some context) kind fun u hu => by cases hu; exact hblank
    have hmissing : (PseudoFunction.build (some kind.name) none (some context)).result = _ :=
      PseudoFunction.build_missing (some context) kind fun u hu => by cases hu
    rw [hnone, result_map_mapFailure, hmissing] at hparse
    refine .inr ⟨_, _, hparse, hbuild, ⟨rfl, rfl⟩, fun hv => ?_⟩
    rw [hblank] at hv
    cases hv
  · have hsome : handedOver v = some v.trim := by rw [handedOver, if_neg hblank]
    rw [Bool.not_eq_true] at hblank
    rw [hsome, result_map_mapFailure] at hparse
    rcases PseudoFunction.build_trim (some context) kind hblank with
      ⟨g, f, halone, hwhole, hsame⟩ | ⟨e, e', halone, hwhole, halike, hshifted⟩
    · rw [halone] at hparse
      exact .inl ⟨g, f, halone, hwhole, hsame, hparse⟩
    · rw [halone] at hparse
      exact .inr ⟨e, e', hparse, hwhole, halike, fun _ => hshifted⟩

/-- A call is read as a selector exactly if the function can be built from its name and its argument
text. The selector holds the function that is built from the argument without the blanks around it,
which is the same but for positions and argument texts. If there is none the reasons agree, and
unless blanks end the argument so do the places. -/
theorem parse_call_agrees (context : Context) (kind : FunctionKind)
    (hadmits : context.level.admitsFunction kind.name = true) (hv : SelfContained v) :
    ((∃ s, (parse (some context) (call kind.name v)).result = .ok s) ↔
      ∃ f, (PseudoFunction.build (some kind.name) (some v) (some context)).result = .ok f) ∧
    (∀ s f, (parse (some context) (call kind.name v)).result = .ok s →
      (PseudoFunction.build (some kind.name) (some v) (some context)).result = .ok f →
      ∃ g, (PseudoFunction.build (some kind.name) (some v.trim) (some context)).result = .ok g ∧
        g.same f = true ∧
        s = complex ⟨⟨⟨.pseudoFunction, some kind.name, some v.trim, some g, 0⟩, []⟩, []⟩) ∧
    ∀ e e', (parse (some context) (call kind.name v)).result = .error e →
      (PseudoFunction.build (some kind.name) (some v) (some context)).result = .error e' →
      e.error.errorClass = e'.error.errorClass ∧ e.error.code = e'.error.code ∧
      (v.allBlank = false → v.trimEnd = v → ∃ p : Int, e'.error.position = some p ∧
        e.error.position = some (kind.name.length + 2 + p)) := by
  rcases parse_call_cases context kind hadmits hv with
    ⟨g, f, halone, hbuild, hsame, hparse⟩ | ⟨e, e', hparse, hbuild, halike, hshifted⟩
  · rw [hparse, hbuild]
    refine ⟨⟨fun _ => ⟨f, rfl⟩, fun _ => ⟨_, rfl⟩⟩, fun s f' hs hf => ?_, fun e e' he => ?_⟩
    · cases hs
      cases hf
      exact ⟨g, halone, hsame, rfl⟩
    · cases he
  · rw [hparse, hbuild]
    refine ⟨⟨fun ⟨_, h⟩ => (nomatch h), fun ⟨_, h⟩ => (nomatch h)⟩, fun s f hs => (nomatch hs), ?_⟩
    intro a b ha hb
    cases ha
    cases hb
    refine ⟨halike.errorClass.symm, halike.code.symm, fun hblank hend => ?_⟩
    obtain ⟨p, hp, hother⟩ := (hshifted hblank hend).position
    refine ⟨_, hother, ?_⟩
    have hstart : argumentStart kind v = kind.name.length + 2 + (v.takeWhile isBlank).length := by
      rw [argumentStart, hblank]
      rfl
    rw [Failure.error_relocated, SelectorError.position_relocated, hp, hstart]
    simp only [Option.getD_some, Option.some.injEq]
    omega

/-- The sign behind the blanks and the step is followed by no digits. -/
theorem parse_call_agrees_of_blanks :
    ∃ e, (parse (some ⟨.css3, .general, none⟩) ":nth-child(  2n+x)".toList).result = .error e ∧
      e.error.code = .invalidNth ∧ e.error.position = some 16 := by
  have hadmits : (Context.mk .css3 .general none).level.admitsFunction
      (FunctionKind.nth .child).name = true := by decide
  have hcontained : SelfContained "  2n+x".toList := by decide
  obtain ⟨hok, -, herror⟩ :=
    parse_call_agrees ⟨.css3, .general, none⟩ (.nth .child) hadmits hcontained
  obtain ⟨e', hbuild, hcode, hposition⟩ : ∃ e', (PseudoFunction.build
      (some (FunctionKind.nth .child).name) (some "  2n+x".toList)
        (some ⟨.css3, .general, none⟩)).result = .error e' ∧
        e'.error.code = .invalidNth ∧ e'.error.position = some 5 := ⟨_, rfl, rfl, rfl⟩
  have hcall : call (FunctionKind.nth .child).name "  2n+x".toList =
      ":nth-child(  2n+x)".toList := rfl
  rw [hcall] at hok herror
  cases hparse : (parse (some ⟨.css3, .general, none⟩) ":nth-child(  2n+x)".toList).result with
  | ok s =>
    obtain ⟨f, hf⟩ := hok.mp ⟨s, hparse⟩
    rw [hbuild] at hf
    cases hf
  | error e =>
    obtain ⟨-, hcode', hplace⟩ := herror e e' hparse hbuild
    obtain ⟨p, hp, hposition'⟩ := hplace (by decide) (by decide)
    rw [hposition] at hp
    cases hp
    exact ⟨e, rfl, hcode'.trans hcode, hposition'⟩

end Selector

end SelectorCheck
