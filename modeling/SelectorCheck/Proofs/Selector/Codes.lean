import SelectorCheck.Proofs.Selector.Causes

/-!
# Codes of rejections

A rejection is told apart by its code, and by its class where the code does not
matter. Errors are made in many places: where the lexer stops, where the grammar
does, in the three readers of arguments and in the table of functions. On the way out
they are placed in the texts around them, and those about the selector in a negation
become errors about an argument. Whatever the place and the way, the codes are few,
and the class goes with the code.

That there is no selector, or blanks only, is said of the selector as a whole and
never of an argument, because an argument of blanks only is a missing one. A missing
argument in turn is reported as such at the top only, where nothing stands between
the parentheses of a function.

## Main definitions

* `ErrorClass.reported` — the codes that are reported, by their classes.
* `SelectorError.Reported` — an error with a code of its class.

## Main results

* `buildWith_rejects` — what a function is not built for.
* `Selector.Report.reported` — every error of a report has one of the codes.
* `Selector.rejection_codes` — what a selector is rejected for.
-/

namespace SelectorCheck

open Text

/-! ## Codes and their classes -/

/-- The codes with which errors of a class are reported. -/
def ErrorClass.reported : ErrorClass → List ErrorCode
  | .unknownName => [.unknownPseudoClass, .unknownPseudoElement, .unknownPseudoFunction]
  | .missingInput => [.emptySelector, .missingArgument]
  | .argumentSyntax =>
    [.invalidLang, .invalidNth, .invalidNot, .nestedNegation, .notSimple, .elementInNegation]
  | .selector =>
    [.unexpectedCharacter, .expectedIdentifier, .expectedClosingParen, .unexpectedToken,
      .expectedSelector, .unsupportedAttribute]

/-- The class of a code that is reported is the one that lists it. -/
theorem ErrorClass.errorClass_of_mem_reported {c : ErrorClass} :
    ∀ code ∈ c.reported, code.errorClass = c := by
  cases c <;> decide

/-- A quotation that is not closed and a function without a name are never reported. -/
theorem ErrorClass.unreported (c : ErrorClass) :
    .unterminatedString ∉ c.reported ∧ .missingFunctionName ∉ c.reported := by
  cases c <;> decide

/-- Codes of unknown names and of arguments are all reported. -/
theorem ErrorCode.mem_reported {code : ErrorCode}
    (h : code.errorClass = .unknownName ∨ code.errorClass = .argumentSyntax) :
    code ∈ code.errorClass.reported := by
  cases code <;> first | decide | simp [errorClass] at h

/-- The error has one of the codes of its class. -/
def SelectorError.Reported (e : SelectorError) : Prop := e.code ∈ e.errorClass.reported

namespace SelectorError

variable {e : SelectorError}

theorem Reported.of_code (code : ErrorCode) (hcode : e.code = code)
    (hclass : e.errorClass = code.errorClass) (hlisted : code ∈ code.errorClass.reported) :
    e.Reported := by
  rw [Reported, hcode, hclass]
  exact hlisted

theorem Reported.errorClass (h : e.Reported) : e.code.errorClass = e.errorClass :=
  ErrorClass.errorClass_of_mem_reported _ h

/-- The code is listed by no other class. -/
theorem Reported.mem_iff (h : e.Reported) (c : ErrorClass) :
    e.code ∈ c.reported ↔ c = e.errorClass := by
  constructor
  · intro hmem
    rw [← h.errorClass, ErrorClass.errorClass_of_mem_reported _ hmem]
  · intro hc
    rw [hc]
    exact h

theorem Reported.code_ne (h : e.Reported) :
    e.code ≠ .unterminatedString ∧ e.code ≠ .missingFunctionName := by
  obtain ⟨hquotation, hnameless⟩ := e.errorClass.unreported
  exact ⟨fun heq => hquotation (heq ▸ h), fun heq => hnameless (heq ▸ h)⟩

/-- An error has the code and the class of the one that it restates. -/
theorem Restates.reported {cause : SelectorError} {start : Nat} (h : e.Restates cause start)
    (hcause : cause.Reported) : e.Reported := by
  rw [Reported, h.code, h.errorClass]
  exact hcause

end SelectorError

/-! ## Functions -/

section Functions

variable {read : Text → Traced Selector} {kind : FunctionKind} {name : Text} {value : Option Text}
  {context : Option Context} {f : Failure}

/-- What an argument is rejected for is reported, and not as an empty selector. -/
theorem ArgumentError.reported (h : ArgumentError read kind name value context f) :
    f.error.Reported ∧ f.error.code ≠ .emptySelector := by
  cases h with
  | missing _ => exact ⟨.of_code .missingArgument rfl rfl (by decide), nofun⟩
  | malformed hcode hclass _ =>
    refine ⟨.of_code _ rfl (hclass.trans hcode.symm) (ErrorCode.mem_reported (.inr hcode)), ?_⟩
    intro hempty
    rw [Failure.error_ofError] at hempty
    rw [hempty] at hcode
    cases hcode
  | unreadable _ _ _ => exact ⟨.of_code .invalidNot rfl rfl (by decide), nofun⟩

/-- An argument that is reported as missing is missing or blank. -/
theorem ArgumentError.of_missingArgument (h : ArgumentError read kind name value context f)
    (hmissing : f.error.code = .missingArgument) :
    (∀ v ∈ value, allBlank v = true) ∧ f.error = .missingArgument name value context := by
  cases h with
  | missing hblank => exact ⟨hblank, rfl⟩
  | malformed hcode _ _ =>
    rw [Failure.error_ofError] at hmissing
    rw [hmissing] at hcode
    cases hcode
  | unreadable _ _ _ => cases hmissing

/-- A function that has a name is not built because there is no function of that name, or because
of its argument. -/
theorem buildWith_rejects (hname : name ≠ [])
    (h : (buildWith read (some name) value context).result = .error f) :
    f = .ofError (unbuiltFunction name value context) ∨
      ∃ kind : FunctionKind, kind.name = name ∧ ArgumentError read kind name value context f := by
  rcases buildWith_error_cases h with ⟨hnil, -⟩ | ⟨-, hunbuilt⟩ | ⟨kind, hkind, hconstruct⟩
  · exact absurd hnil hname
  · exact .inl hunbuilt
  · exact .inr ⟨kind, hkind, kind.argumentError hconstruct⟩

end Functions

/-! ## What is wrong with the selector itself -/

namespace Selector

variable {context : Option Context} {source called : Text} {arg : Option Text} {start : Nat}
  {e : SelectorError} {f : Failure} {starts : List Nat}

/-- A selector is empty, it is malformed, or it holds a name that is not admitted. -/
theorem Own.code_cases (h : Own context source e) :
    (source.allBlank = true ∧ e.code = .emptySelector ∧ e.errorClass = .missingInput) ∨
      (e.errorClass = .selector ∨ e.errorClass = .unknownName) ∧ e.Reported := by
  cases h with
  | blank h => exact .inl ⟨h, rfl, rfl⟩
  | lexer h =>
    obtain ⟨front, t, -, hmalformed⟩ := Token.exists_malformed h
    refine .inr ⟨.inl hmalformed.errorClass, ?_⟩
    cases hmalformed with
    | identifier => exact .of_code .expectedIdentifier rfl rfl (by decide)
    | parenthesis => exact .of_code .expectedClosingParen rfl rfl (by decide)
    | bracket => exact .of_code .unsupportedAttribute rfl rfl (by decide)
    | character => exact .of_code .unexpectedCharacter rfl rfl (by decide)
  | unexpected _ t => exact .inr ⟨.inl rfl, .of_code .unexpectedToken rfl rfl (by decide)⟩
  | dangling _ t => exact .inr ⟨.inl rfl, .of_code .expectedSelector rfl rfl (by decide)⟩
  | @name _ _ code hcode name =>
    exact .inr ⟨.inr hcode, .of_code code rfl rfl (ErrorCode.mem_reported (.inl hcode))⟩

theorem Own.reported (h : Own context source e) : e.Reported := by
  rcases h.code_cases with ⟨-, hcode, hclass⟩ | ⟨-, hreported⟩
  · exact .of_code .emptySelector hcode hclass (by decide)
  · exact hreported

/-- Nothing that is wrong with the selector itself is said of an argument. -/
theorem Own.code_ne (h : Own context source e) :
    e.code ≠ .missingArgument ∧ e.code ≠ .invalidNot := by
  rcases h.code_cases with ⟨-, hcode, -⟩ | ⟨hclass, hreported⟩
  · rw [hcode]
    decide
  · rw [← hreported.errorClass] at hclass
    constructor <;> intro heq <;> rw [heq] at hclass <;> exact absurd hclass (by decide)

theorem Own.allBlank (h : Own context source e) (hempty : e.code = .emptySelector) :
    source.allBlank = true := by
  rcases h.code_cases with ⟨hblank, -⟩ | ⟨hclass, hreported⟩
  · exact hblank
  · rw [← hreported.errorClass, hempty] at hclass
    exact absurd hclass (by decide)

/-! ## What is wrong with the argument of a call -/

/-- A function that is called has a name. -/
theorem Call.called_ne_nil (h : Call source called arg start) : called ≠ [] := by
  cases h.text with
  | blank _ hspelling _ =>
    rw [ne_eq, lowercase_eq_nil_iff]
    exact hspelling.ne_nil
  | given _ hspelling _ _ _ _ =>
    rw [ne_eq, lowercase_eq_nil_iff]
    exact hspelling.ne_nil

/-- An argument text of a call is never blank. -/
theorem Call.not_allBlank {v : Text} (h : Call source called (some v) start) :
    v.allBlank = false := by
  cases h.text with
  | given _ _ _ _ hsolid _ => exact hsolid.not_allBlank

/-- The cause that is found in an argument is reported, and not as an empty selector. -/
theorem Call.reported (hcall : Call source called arg start)
    (hbuild : (PseudoFunction.build (some called) arg context).result = .error f) :
    f.error.Reported ∧ f.error.code ≠ .emptySelector := by
  rcases buildWith_rejects hcall.called_ne_nil hbuild with rfl | ⟨kind, -, hargument⟩
  · exact ⟨.of_code .unknownPseudoFunction rfl rfl (by decide), nofun⟩
  · exact hargument.reported

/-- A call whose argument is found missing is a call of a function that could be built, with nothing
between its parentheses. -/
theorem Call.of_missingArgument (hcall : Call source called arg start)
    (hbuild : (PseudoFunction.build (some called) arg context).result = .error f)
    (hmissing : f.error.code = .missingArgument) :
    (∃ kind : FunctionKind, kind.name = called) ∧ arg = none ∧
      f.error = .missingArgument called none context := by
  rcases buildWith_rejects hcall.called_ne_nil hbuild with rfl | ⟨kind, hkind, hargument⟩
  · cases hmissing
  · obtain ⟨hblank, hcause⟩ := hargument.of_missingArgument hmissing
    refine ⟨⟨kind, hkind⟩, ?_⟩
    cases arg with
    | none => exact ⟨rfl, hcause⟩
    | some v =>
      have hv := hblank v rfl
      rw [hcall.not_allBlank] at hv
      cases hv

/-! ## Reports -/

/-- Every error of a report has one of the codes, and the class of that code. -/
theorem Report.reported (h : Report context source f starts) :
    ∀ e ∈ f.error :: f.causes, e.Reported := by
  induction h with
  | own h =>
    intro e he
    obtain rfl := List.mem_singleton.mp he
    exact h.reported
  | argument hcall hbuild _ hrestates =>
    have hcause := (hcall.reported hbuild).1
    intro e he
    rcases List.mem_cons.mp he with rfl | he
    · exact hrestates.reported hcause
    · obtain rfl := List.mem_singleton.mp he
      exact hcause
  | negation hcall hbuild _ hrestates _ _ _ _ ih =>
    have hcause := (hcall.reported hbuild).1
    intro e he
    rcases List.mem_cons.mp he with rfl | he
    · exact hrestates.reported hcause
    · rcases List.mem_cons.mp he with rfl | he
      · exact hcause
      · exact ih e he

/-- Only a blank selector is reported as empty. -/
theorem Report.allBlank (h : Report context source f starts)
    (hempty : f.error.code = .emptySelector) : source.allBlank = true := by
  cases h with
  | own h => exact h.allBlank hempty
  | argument hcall hbuild _ hrestates | negation hcall hbuild _ hrestates =>
    exact absurd (hrestates.code.symm.trans hempty) (hcall.reported hbuild).2

/-- No argument is reported as an empty selector, because an argument text is not blank. -/
theorem Report.causes_ne_emptySelector (h : Report context source f starts) :
    ∀ e ∈ f.causes, e.code ≠ .emptySelector := by
  induction h with
  | own _ => exact fun e he => (nomatch he)
  | argument hcall hbuild _ _ =>
    intro e he
    obtain rfl := List.mem_singleton.mp he
    exact (hcall.reported hbuild).2
  | negation hcall hbuild _ _ _ _ _ hinner ih =>
    intro e he
    rcases List.mem_cons.mp he with rfl | he
    · exact (hcall.reported hbuild).2
    · rcases List.mem_cons.mp he with rfl | he
      · intro hempty
        have hblank := hinner.allBlank hempty
        rw [hcall.not_allBlank] at hblank
        cases hblank
      · exact ih e he

/-- A missing argument is reported where a call of the selector has none. -/
theorem Report.of_missingArgument (h : Report context source f starts)
    (hmissing : f.error.code = .missingArgument) :
    ∃ (kind : FunctionKind) (start : Nat), Call source kind.name none start ∧
      f.error.name = some kind.name ∧ f.error.position = some start := by
  cases h with
  | own h => exact absurd hmissing h.code_ne.1
  | argument hcall hbuild _ hrestates =>
    obtain ⟨⟨kind, rfl⟩, rfl, rfl⟩ :=
      hcall.of_missingArgument hbuild (hrestates.code.symm.trans hmissing)
    refine ⟨kind, _, hcall, hrestates.name, ?_⟩
    rw [hrestates.position]
    rfl
  | negation _ _ hcode hrestates =>
    rw [hrestates.code, hcode] at hmissing
    cases hmissing

/-- An error within the selector in a negation is reported as an argument that is no selector, and
nothing else is. -/
theorem Report.code_eq_invalidNot_iff (h : Report context source f starts) :
    f.error.code = .invalidNot ↔ 1 < f.causes.length := by
  cases h with
  | own h => simp [h.code_ne.2]
  | argument _ _ hcode hrestates => simp [hrestates.code, hcode]
  | negation _ _ hcode hrestates => simp [hrestates.code, hcode]

/-- A code goes from the innermost error outwards, up to the first negation on the way. -/
theorem Report.code_of_cause (h : Report context source f starts) :
    ∀ cause ∈ f.causes, f.error.code = cause.code ∨ f.error.code = .invalidNot := by
  cases h with
  | own _ => exact fun cause hcause => (nomatch hcause)
  | argument _ _ _ hrestates =>
    intro cause hcause
    obtain rfl := List.mem_singleton.mp hcause
    exact .inl hrestates.code
  | negation _ _ hcode hrestates => exact fun _ _ => .inr (hrestates.code.trans hcode)

/-! ## Whole selectors -/

/-- Exactly a selector that is missing or blank is empty. -/
theorem parse?_empty_iff (context : Option Context) (source : Option Text) :
    (∃ f, (parse? context source).result = .error f ∧ f.error.code = .emptySelector) ↔
      ∀ text ∈ source, text.allBlank = true := by
  cases source with
  | none => exact ⟨fun _ text htext => (nomatch htext), fun _ => ⟨_, rfl, rfl⟩⟩
  | some text =>
    constructor
    · intro ⟨f, hf, hempty⟩ t ht
      obtain rfl := Option.some.inj ht
      obtain ⟨starts, hreport⟩ := exists_report hf
      exact hreport.allBlank hempty
    · intro hblank
      exact ⟨_, parse_of_blank context (hblank text rfl), rfl⟩

/-- A selector is reported as empty exactly if it is missing or blank, and what is within it never
is. An error has one of the listed codes and the class of that code, and so has each of its causes;
a quotation that is not closed and a function without a name are not among them. A missing argument
is reported for a call that stands in the selector itself, of a function that could be built and
with nothing between its parentheses, and placed where the argument would begin. Within a negation
the same is reported as an argument that is no selector, as is all that is wrong in there, and
otherwise the report has the code of its cause. -/
theorem rejection_codes (context : Option Context) (source : Option Text) :
    ((∃ f, (parse? context source).result = .error f ∧ f.error.code = .emptySelector) ↔
      ∀ text ∈ source, text.allBlank = true) ∧
    ∀ f, (parse? context source).result = .error f →
      (∀ e ∈ f.error :: f.causes, (∀ c : ErrorClass, e.code ∈ c.reported ↔ c = e.errorClass) ∧
        e.code ≠ .unterminatedString ∧ e.code ≠ .missingFunctionName) ∧
      (∀ e ∈ f.causes, e.code ≠ .emptySelector) ∧
      (f.error.code = .missingArgument → ∃ text, source = some text ∧
        ∃ (kind : FunctionKind) (start : Nat), Call text kind.name none start ∧
          f.error.name = some kind.name ∧ f.error.position = some start) ∧
      (f.error.code = .invalidNot ↔ 1 < f.causes.length) ∧
      ∀ cause ∈ f.causes, f.error.code = cause.code ∨ f.error.code = .invalidNot := by
  refine ⟨parse?_empty_iff context source, fun f hf => ?_⟩
  cases source with
  | none =>
    cases hf
    have hreported : (empty none context).Reported :=
      .of_code .emptySelector rfl rfl (by decide)
    refine ⟨fun e he => ?_, fun e he => (nomatch he), nofun, by simp [empty],
      fun e he => (nomatch he)⟩
    obtain rfl := List.mem_singleton.mp he
    exact ⟨hreported.mem_iff, hreported.code_ne⟩
  | some text =>
    obtain ⟨starts, hreport⟩ := exists_report hf
    refine ⟨fun e he => ?_, hreport.causes_ne_emptySelector,
      fun hmissing => ⟨text, rfl, hreport.of_missingArgument hmissing⟩,
      hreport.code_eq_invalidNot_iff, hreport.code_of_cause⟩
    have hreported := hreport.reported e he
    exact ⟨hreported.mem_iff, hreported.code_ne⟩

/-- A language without a tag within a negation: the report and its cause are about the argument of
the negation, and what was found in there and its own cause are that an argument is missing. -/
theorem rejection_codes_of_nested :
    ∃ f, (parse? none (some "a:not(:lang( ))".toList)).result = .error f ∧
      (f.error :: f.causes).map (fun e => (e.code, e.errorClass)) =
        [(.invalidNot, .argumentSyntax), (.invalidNot, .argumentSyntax),
          (.missingArgument, .missingInput), (.missingArgument, .missingInput)] ∧
      ∀ e ∈ f.error :: f.causes, (∀ c : ErrorClass, e.code ∈ c.reported ↔ c = e.errorClass) ∧
        e.code ≠ .unterminatedString ∧ e.code ≠ .missingFunctionName := by
  have hcodes : ((parse? none (some "a:not(:lang( ))".toList)).result.mapError fun f =>
      (f.error :: f.causes).map (fun e => (e.code, e.errorClass))) =
        .error [(.invalidNot, .argumentSyntax), (.invalidNot, .argumentSyntax),
          (.missingArgument, .missingInput), (.missingArgument, .missingInput)] := by
    decide +kernel
  cases hparse : (parse? none (some "a:not(:lang( ))".toList)).result with
  | ok selector =>
    rw [hparse] at hcodes
    cases hcodes
  | error f =>
    rw [hparse] at hcodes
    exact ⟨f, rfl, Except.error.inj hcodes, ((rejection_codes none _).2 f hparse).1⟩

end Selector

end SelectorCheck
