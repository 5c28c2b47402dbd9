import SelectorCheck.Proofs.Selector.Failure
import SelectorCheck.Proofs.Token.Contained
import SelectorCheck.Proofs.Token.Pseudo

/-!
# Arguments read in arguments

The argument of a function is cut out of the selector once and then read again:
that of a negation by the lexer itself, one level deeper, and that of `lang` by a
reader that looks for the end of a quotation. If the selector could be cut into
tokens, they agree with the first cut about where things end. No parenthesis is
missing in a negation, however deep, and no quotation is open in a language tag.

The functions that are built on the way, at every depth, are those on record, so
that is where the arguments are taken from.

## Main definitions

* `Failure.ParenFound` — no closing parenthesis is missing.

## Main results

* `Selector.selfContained_of_building` — every argument on record is
  self-contained.
* `Selector.argument_ends_agree` — negations and language tags find their ends.
-/

namespace SelectorCheck

open Text RawArgument

/-- Neither the failure nor one of its causes is that a closing parenthesis is missing. -/
def Failure.ParenFound (f : Failure) : Prop :=
  ∀ e ∈ f.error :: f.causes, e.code ≠ .expectedClosingParen

namespace Failure

variable {e : SelectorError} {f : Failure}

theorem parenFound_ofError (h : e.code ≠ .expectedClosingParen) : (ofError e).ParenFound := by
  intro cause hcause
  obtain rfl := List.mem_singleton.mp hcause
  exact h

theorem ParenFound.causing (h : f.ParenFound) (he : e.code ≠ .expectedClosingParen) :
    (f.causing e).ParenFound :=
  List.forall_mem_cons.mpr ⟨he, h⟩

theorem ParenFound.relocated (h : f.ParenFound) (offset : Int) : (f.relocated offset).ParenFound :=
  h.causing (h f.error List.mem_cons_self)

end Failure

/-- Only errors about selectors are about parentheses. -/
private theorem code_ne_of_errorClass {code : ErrorCode} (h : code.errorClass ≠ .selector) :
    code ≠ .expectedClosingParen := by
  rintro rfl
  exact h rfl

namespace Selector

variable {context : Option Context} {source : Text} {depth : Nat}

/-- What calls ask for is self-contained. -/
private theorem selfContained_of_calls {tokens : List Token} {called : Text} {arg : Option Text}
    {start : Int} (htokens : Token.ofSelector source = .ok tokens)
    (h : Grammar.Calls tokens called arg start) : SelfContained (arg.getD []) := by
  obtain ⟨hsuffix, hmarker, hparen⟩ := h
  exact (Token.callIn_of_suffix htokens hsuffix hmarker hparen).selfContained

/-! ## Records -/

/-- The argument of every function on record is self-contained. -/
theorem parseWithin_building {name arg : Text}
    (h : .building name arg ∈ (parseWithin depth context source).log) : SelfContained arg := by
  induction depth generalizing context source with
  | zero => cases h
  | succ depth ih =>
    rcases parseWithin_cases depth context source with hempty | ⟨e, -, hlexer⟩ |
      ⟨tokens, htokens, hexplained⟩
    · rw [hempty] at h
      cases h
    · rw [hlexer] at h
      cases h
    · obtain ⟨called, value, start, hcalls, hbuild⟩ := hexplained.log _ h
      rcases mem_log_buildWith hbuild with hrejected | ⟨-, hbuilding⟩ | ⟨inner, -, -, hinner⟩
      · cases hrejected
      · cases hbuilding
        exact selfContained_of_calls htokens hcalls
      · exact ih hinner

/-! ## Failures -/

/-- If the lexer does not miss a parenthesis in the selector, none is missing in an argument. -/
theorem parseWithin_parenFound {f : Failure}
    (hsource : ∀ e, Token.ofSelector source = .error e → e.code ≠ .expectedClosingParen)
    (h : (parseWithin depth context source).result = .error f) : f.ParenFound := by
  induction depth generalizing context source f with
  | zero =>
    cases h
    exact Failure.parenFound_ofError (by simp [empty])
  | succ depth ih =>
    rcases parseWithin_cases depth context source with hempty | ⟨e, he, hlexer⟩ |
      ⟨tokens, htokens, hexplained⟩
    · rw [hempty] at h
      cases h
      exact Failure.parenFound_ofError (by simp [empty])
    · rw [hlexer] at h
      cases h
      exact Failure.parenFound_ofError (hsource e he)
    · cases hexplained.failure f h with
      | unexpected t => exact Failure.parenFound_ofError (by simp [Grammar.unexpected])
      | dangling t => exact Failure.parenFound_ofError (by simp [Grammar.dangling])
      | name _ _ hcode _ =>
        refine Failure.parenFound_ofError (code_ne_of_errorClass ?_)
        simp [Grammar.unknownName, hcode]
      | argument hcalls _ hcause =>
        refine Failure.ParenFound.relocated ?_ _
        cases unbuilt_of_error hcause with
        | unknown _ => exact Failure.parenFound_ofError (by simp [unbuiltFunction])
        | argument hcode hclass =>
          refine Failure.parenFound_ofError (code_ne_of_errorClass ?_)
          rw [hcode]
          rcases hclass with hclass | hclass <;> simp [hclass]
        | @unreadable arg g _ hvalue hread =>
          have hcontained : SelfContained arg := by
            have harg := selfContained_of_calls htokens hcalls
            rwa [hvalue] at harg
          have hinner := ih (fun e he => Token.code_ne_of_error hcontained he) hread
          exact hinner.causing (by simp [Negation.unreadable, Negation.rejection])

end Selector

/-! ## Language tags -/

/-- A quoted tag in a self-contained text does not break off at the mark that opens it. -/
private theorem LanguageTag.position_of_quoted {mark : Char} {rest name : Text}
    {context : Option Context} {e : SelectorError} (hmark : isQuote mark = true)
    (hcontained : SelfContained (mark :: rest))
    (h : parse name (some (mark :: rest)) context = .error e) :
    ∃ p : Nat, e.position = some (p : Int) ∧ 0 < p := by
  have hsolid : isBlank mark = false := isBlank_eq_false_of isQuote hmark (by decide)
  have hblank : allBlank (mark :: rest) = false := by rw [allBlank_cons, hsolid]; rfl
  obtain ⟨tail, htrim⟩ : ∃ tail, trimEnd (mark :: rest) = mark :: tail := by
    obtain ⟨cut, hcut, hsplit⟩ := exists_trimEnd_append (mark :: rest)
    cases htrim : trimEnd (mark :: rest) with
    | nil =>
      rw [htrim, List.nil_append] at hsplit
      rw [← hsplit, hblank] at hcut
      cases hcut
    | cons c tail =>
      rw [htrim, List.cons_append, List.cons.injEq] at hsplit
      exact ⟨tail, by rw [hsplit.1]⟩
  have hinside : SelfContained (mark :: tail) := by
    rw [← htrim]
    exact hcontained.trimEnd
  obtain ⟨⟨tag, behind⟩, hread⟩ := hinside.readQuoted hmark 1
  obtain ⟨raw, after, -, -, rfl⟩ := readQuoted_sound hread
  have hstart : (Cursor.ofText (mark :: tail)).skipBlanks = ⟨0, mark :: tail⟩ := by
    simp [Cursor.ofText, Cursor.skipBlanks, Cursor.skipWhile, hsolid]
  simp only [parse, hblank, Bool.false_eq_true, if_false, htrim, hstart, read, hmark, if_true,
    Nat.zero_add, hread] at h
  split at h
  · cases h
  · next place hplace =>
    split at hplace
    · cases hplace
    · cases hplace
      cases h
      exact ⟨_, rfl, Nat.succ_pos _⟩

/-- If a selector can be cut into tokens, whoever reads an argument in it finds the ends that the
cut went by. At every depth the arguments of negations are read without missing a closing
parenthesis, so none is reported missing; and a quotation that the argument of `lang` begins with is
closed, so no language tag breaks off at the mark that opens it. -/
theorem Selector.argument_ends_agree {context : Option Context} {source : Text}
    {tokens : List Token} (htokens : Token.ofSelector source = .ok tokens) :
    (∀ arg, .building FunctionKind.negation.name arg ∈ (parse context source).log →
      ∀ (given : Option Context) (f : Failure),
        (parse given arg).result = .error f → f.ParenFound) ∧
    (∀ f, (parse context source).result = .error f → f.ParenFound) ∧
    ∀ mark rest, .building FunctionKind.lang.name (mark :: rest) ∈ (parse context source).log →
      isQuote mark = true → (∃ found, LanguageTag.readQuoted mark 1 rest = some found) ∧
        ∀ (name : Text) (given : Option Context) (e : SelectorError),
          LanguageTag.parse name (some (mark :: rest)) given = .error e →
            ∃ p : Nat, e.position = some (p : Int) ∧ 0 < p := by
  refine ⟨fun arg harg given f hf => ?_, fun f hf => ?_, fun mark rest harg hmark => ?_⟩
  · have hcontained : SelfContained arg := parseWithin_building harg
    exact parseWithin_parenFound (fun e he => Token.code_ne_of_error hcontained he) hf
  · refine parseWithin_parenFound (fun e he => ?_) hf
    rw [htokens] at he
    cases he
  · have hcontained : SelfContained (mark :: rest) := parseWithin_building harg
    exact ⟨hcontained.readQuoted hmark 1, fun name given e he =>
      LanguageTag.position_of_quoted hmark hcontained he⟩

/-- A negation of too much, with parentheses in quotations. -/
theorem Selector.argument_ends_agree_of_quotations :
    (∀ given f, (parse given ":lang(')'), :lang( '(' )".toList).result = .error f →
      f.ParenFound) ∧
    (∃ f, (parse none "a:not(:lang(')'), :lang( '(' ) )".toList).result = .error f ∧
      f.ParenFound) ∧
    ∃ found, LanguageTag.readQuoted apostrophe 1 ")'".toList = some found := by
  have hcases : ∀ {ε α : Type} (r : Except ε α),
      (r.isOk = true → ∃ a, r = .ok a) ∧ (r.isOk = false → ∃ e, r = .error e) := by
    rintro ε α (e | a) <;> simp [Except.isOk, Except.toBool]
  obtain ⟨tokens, htokens⟩ :=
    (hcases (Token.ofSelector "a:not(:lang(')'), :lang( '(' ) )".toList)).1 (by decide +kernel)
  obtain ⟨f, hf⟩ :=
    (hcases (parse none "a:not(:lang(')'), :lang( '(' ) )".toList).result).2 (by decide +kernel)
  obtain ⟨hnegation, hfailure, hlang⟩ := @argument_ends_agree none _ _ htokens
  refine ⟨hnegation _ (by decide +kernel), ⟨f, hf, hfailure f hf⟩, ?_⟩
  exact (hlang apostrophe ")'".toList (by decide +kernel) rfl).1

end SelectorCheck
