import SelectorCheck.Proofs.LanguageTag.Grammar
import SelectorCheck.Proofs.Nth.BreakOff
import SelectorCheck.Proofs.Selector.Causes
import SelectorCheck.Proofs.Selector.Fit
import SelectorCheck.Proofs.Token.Malformed

/-!
# What errors quote

An error has a token and a position. The lexer counts positions from the beginning
of the selector and sees all of it, the grammar takes them from tokens, and what
reads an argument counts from the beginning of the argument, from which the blanks
at its ends have been cut off. Wherever the two come from, the token is the text of
the selector at the position, with two exceptions: a missing name is reported behind
the mark that it is missing behind, and where an expression ends too early there is
no text to quote.

## Main definitions

* `SelectorError.Quotes` — the token is the text at the position.
* `SelectorError.Literal` — what the token and the position of an error are, code by
  code.

## Main results

* `buildWith_cites` — what is wrong with an argument quotes the argument.
* `Selector.parse_literal` — an error quotes the selector.
-/

namespace SelectorCheck

open Text Lexer RawArgument

/-! ## Quotations -/

namespace SelectorError

/-- The token is the text of `t` that begins at the position, and is not empty. -/
def Quotes (e : SelectorError) (t : Text) : Prop :=
  ∃ before piece after : Text, t = before ++ (piece ++ after) ∧ piece ≠ [] ∧
    e.token = some piece ∧ e.position = some (before.length : Int)

/-- The position is in the argument of a call in `source`, and nothing but blanks stands between it
and the parenthesis that closes the argument. -/
def AtClosing (e : SelectorError) (source : Text) : Prop :=
  ∃ before spelling argument blanks after : Text,
    source = before ++ ':' :: (spelling ++ '(' :: (argument ++ (blanks ++ ')' :: after))) ∧
    NameRun spelling ['('] ∧ SelfContained (argument ++ blanks) ∧ blanks.allBlank = true ∧
    e.name = some spelling.lowercase ∧
    e.position = some ((before.length + 1 + spelling.length + 1 + argument.length : Nat) : Int)

/-- What the token and the position of an error about `source` are. -/
structure Literal (e : SelectorError) (source : Text) : Prop where
  character : e.code = .unexpectedCharacter ∨ e.code = .expectedSelector →
    ∃ (p : Nat) (c : Char), e.position = some (p : Int) ∧ source[p]? = some c ∧ e.token = some [c]
  bracket : e.code = .unsupportedAttribute →
    ∃ p : Nat, e.position = some (p : Int) ∧ source[p]? = some '['
  identifier : e.code = .expectedIdentifier →
    ∃ before mark after : Text, source = before ++ (mark ++ after) ∧ mark ∈ nameMarks ∧
      e.token = some mark ∧ e.position = some ((before.length + mark.length : Nat) : Int) ∧
      ∀ c ∈ after.head?, isNameChar c = false
  parenthesis : e.code = .expectedClosingParen → e.position = some (source.length : Int)
  piece : e.code = .invalidLang ∨
      (e.code = .invalidNth ∧ e.token ≠ some "end of argument".toList) → e.Quotes source
  ending : e.code = .invalidNth → e.token = some "end of argument".toList → e.AtClosing source

/-- The error about the argument `v` of the function `name` quotes the argument, or it is placed at
the end of an expression that ends too early. -/
inductive Cites (name v : Text) (e : SelectorError) : Prop where
  | piece (h : e.Quotes v)
      (hword : e.code = .invalidNth → e.token ≠ some "end of argument".toList)
  | ending (hcode : e.code = .invalidNth) (htoken : e.token = some "end of argument".toList)
      (hname : e.name = some name) (hposition : e.position = some (v.length : Int))

end SelectorError

open SelectorError

variable {source v name called : Text} {context : Option Context} {e : SelectorError} {f : Failure}

/-! ## The lexer -/

theorem Lexer.Malformed.literal {front t : Text} (h : Malformed source front.length t e)
    (hsource : source = front ++ t) : e.Literal source := by
  cases h with
  | @identifier mark rest hmark hnone =>
    have hstops : ∀ c ∈ rest.head?, isNameChar c = false := Run.stops_of_takeWhile hnone
    exact ⟨nofun, nofun, fun _ => ⟨front, mark, rest, hsource, hmark, rfl, rfl, hstops⟩, nofun,
      nofun, nofun⟩
  | parenthesis _ _ _ _ => exact ⟨nofun, nofun, nofun, fun _ => rfl, nofun, nofun⟩
  | bracket =>
    have hbracket : source[front.length]? = some '[' := by simp [hsource]
    exact ⟨nofun, fun _ => ⟨front.length, rfl, hbracket⟩, nofun, nofun, nofun, nofun⟩
  | @character c rest =>
    have hc : source[front.length]? = some c := by simp [hsource]
    exact ⟨fun _ => ⟨front.length, c, rfl, hc, rfl⟩, nofun, nofun, nofun, nofun, nofun⟩

/-- A lexeme with the token of a combinator begins with its mark. -/
private theorem eq_mark_of_mem {p : Nat} {text after : Text} {first : List Token} {t : Token}
    (h : Lexeme p text after first) (ht : t ∈ first) (hkind : t.kind = .combinator) :
    ∃ c blanks, text = c :: blanks ∧ t = ⟨.combinator, some [c], p⟩ := by
  cases h with
  | @combinator c blanks after _ _ => exact ⟨c, blanks, rfl, List.mem_singleton.mp ht⟩
  | comma _ | universal | id _ | className _ | tag _ _ =>
    obtain rfl := List.mem_singleton.mp ht
    cases hkind
  | name hcolons _ _ =>
    cases hcolons <;> simp only [List.mem_cons, List.not_mem_nil, or_false] at ht <;>
      rcases ht with rfl | rfl <;> cases hkind
  | call hcolons _ htext =>
    rcases List.mem_cons.mp ht with rfl | ht
    · cases hcolons <;> cases hkind
    · rcases List.mem_cons.mp ht with rfl | ht
      · cases hkind
      · rcases htext.kind_of_mem ht with hother | hother | hother <;> rw [hkind] at hother <;>
          cases hother

/-- A mark that a token is for stands at the place of the token. -/
theorem Selector.Marked.at_place {tokens : List Token} {t : Token} {c : Char}
    (htokens : Token.ofSelector source = .ok tokens) (h : Marked tokens t c) :
    ∃ p : Nat, t.pos = (p : Int) ∧ source[p]? = some c := by
  obtain ⟨blanks, ahead, rfl, -, hlexed⟩ := Token.ofSelector_eq_ok_iff.mp htokens
  rcases hlexed.mem_cases h.mem with rfl | ⟨front, behind, -, rfl⟩ |
    ⟨front, text, after, first, rfl, hlexeme, hmem⟩
  · cases h.kind
  · -- Blanks are a combinator of their own, and none that is a mark.
    have hmark := h.mark
    obtain rfl : ' ' = c := by simpa using h.value
    exact absurd hmark (by decide)
  · obtain ⟨d, rest, rfl, rfl⟩ := eq_mark_of_mem hlexeme hmem h.kind
    obtain rfl : d = c := by simpa using h.value
    refine ⟨_, rfl, ?_⟩
    rw [← List.length_append, ← List.append_assoc]
    simp

/-! ## Arguments -/

theorem LanguageTag.cites_of_error (hv : v.allBlank = false)
    (h : parse name (some v) context = .error e) : e.Cites name v := by
  obtain ⟨k, hbreaks, rfl⟩ := (parse_eq_error_iff hv).mp h
  obtain ⟨-, hdrop⟩ := hbreaks.in_argument hv
  have hne : v.trim ≠ [] := by
    rw [Ne, trim_eq_nil_iff, hv]
    nofun
  have hpiece : v.trim.drop k ≠ [] := by
    have hlt := hbreaks.lt_length hne
    rw [Ne, List.drop_eq_nil_iff]
    omega
  obtain ⟨cut, -, hsplit⟩ := exists_trimEnd_append v
  generalize hp : (v.takeWhile isBlank).length + k = p at hdrop ⊢
  refine .piece ⟨v.trimEnd.take p, v.trim.drop k, cut, ?_, hpiece, rfl, ?_⟩ nofun
  · rw [hdrop, ← List.append_assoc, List.take_append_drop]
    exact hsplit
  · have hle : p < v.trimEnd.length := by
      rw [hdrop, Ne, List.drop_eq_nil_iff] at hpiece
      omega
    rw [List.length_take, Nat.min_eq_left (Nat.le_of_lt hle)]
    rfl

/-- The words that stand for the end of an argument are no piece of one, because a piece goes up to a
blank at most. -/
private theorem pieceAt_cons_ne (c : Char) (rest : Text) :
    Nth.pieceAt (c :: rest) ≠ "end of argument".toList := by
  intro h
  have hrun := Run.of_takeWhile (fun d => !isBlank d && !Nth.isSign d) rest
  have htail : rest.takeWhile (fun d => !isBlank d && !Nth.isSign d) = "nd of argument".toList :=
    (List.cons.inj h).2
  rw [htail] at hrun
  have hblank := hrun.all ' ' (by decide)
  cases hblank

theorem Nth.cites_of_error (hv : v.allBlank = false)
    (h : parse name (some v) context = .error e) : e.Cites name v := by
  obtain ⟨place, hread, rfl⟩ := exists_place hv h
  obtain ⟨front, hfront, hpos⟩ := exists_front hread
  cases hrest : place.rest with
  | nil =>
    rw [hrest, List.append_nil] at hfront
    refine .ending rfl ?_ rfl ?_
    · rw [breakOff, hrest]
      rfl
    · rw [hfront, ← hpos]
      rfl
  | cons c rest =>
    have htoken : (breakOff name v context place).token = some (pieceAt (c :: rest)) := by
      rw [breakOff, hrest]
    rw [hrest] at hfront
    obtain ⟨after, hafter⟩ := List.takeWhile_prefix (l := rest) fun d => !isBlank d && !isSign d
    rw [← hafter] at hfront
    refine .piece ⟨front, pieceAt (c :: rest), after, hfront, List.cons_ne_nil _ _, htoken, ?_⟩
      fun _ hword => ?_
    · rw [← hpos]
      rfl
    · rw [htoken, Option.some.injEq] at hword
      exact pieceAt_cons_ne c rest hword

/-- No error about what a negation holds is one about a language tag or an expression. -/
private theorem code_of_negation {read : Text → Traced Selector}
    (h : (Negation.parse read name (some v) context).result = .error f) :
    f.error.code ≠ .invalidLang ∧ f.error.code ≠ .invalidNth := by
  rcases Negation.error_cases h with ⟨-, rfl⟩ | ⟨-, g, -, rfl⟩ | ⟨-, s, objection, -, ho, rfl⟩
  · exact ⟨nofun, nofun⟩
  · exact ⟨nofun, nofun⟩
  · have hcode : (Failure.ofError (Negation.rejection name v context objection)).error.code =
        objection.code := rfl
    rw [hcode]
    rcases Negation.code_of_accept ho with hcode | hcode | hcode <;> rw [hcode] <;>
      exact ⟨nofun, nofun⟩

/-- Of the errors for which a function cannot be built, those about language tags and expressions
quote the argument. -/
theorem buildWith_cites {read : Text → Traced Selector} {value : Option Text}
    (h : (buildWith read (some name) value context).result = .error f)
    (hcode : f.error.code = .invalidLang ∨ f.error.code = .invalidNth) :
    ∃ v, value = some v ∧ f.error.Cites name v := by
  rcases buildWith_error_cases h with ⟨-, rfl⟩ | ⟨-, rfl⟩ | ⟨kind, -, hconstruct⟩
  · rcases hcode with hcode | hcode <;> cases hcode
  · rcases hcode with hcode | hcode <;> cases hcode
  · by_cases hblank : ∀ v ∈ value, v.allBlank = true
    · rw [kind.construct_missing read name context hblank] at hconstruct
      cases hconstruct
      rcases hcode with hcode | hcode <;> cases hcode
    · obtain ⟨v, hvalue, hv⟩ : ∃ v, value = some v ∧ v.allBlank = false := by
        simpa using hblank
      subst hvalue
      refine ⟨v, rfl, ?_⟩
      cases kind with
      | lang =>
        obtain ⟨e, he, rfl⟩ :=
          Traced.result_ofExcept_eq_error_iff.mp (Traced.result_of_map_error hconstruct)
        exact LanguageTag.cites_of_error hv he
      | nth kind =>
        obtain ⟨e, he, rfl⟩ :=
          Traced.result_ofExcept_eq_error_iff.mp (Traced.result_of_map_error hconstruct)
        exact Nth.cites_of_error hv he
      | negation =>
        obtain ⟨hlang, hnth⟩ := code_of_negation (Traced.result_of_map_error hconstruct)
        exact absurd hcode (not_or.mpr ⟨hlang, hnth⟩)

/-! ## Arguments in the selector -/

namespace SelectorError

/-- What is quoted of an argument is quoted of the selector, further on. -/
theorem Quotes.relocated {front t after : Text} {start : Nat} (h : e.Quotes t)
    (hsource : source = front ++ (t ++ after)) (hstart : start = front.length) :
    (e.relocated start).Quotes source := by
  obtain ⟨before, piece, behind, rfl, hne, htoken, hposition⟩ := h
  refine ⟨front ++ before, piece, behind ++ after, by simp [hsource], hne, htoken, ?_⟩
  rw [position_relocated, hposition, hstart, List.length_append, Int.natCast_add]
  rfl

/-- The end of an argument is in front of the parenthesis that closes it. -/
theorem atClosing_of_end {start : Nat} (hname : e.name = some called)
    (hposition : e.position = some (v.length : Int))
    (hat : ArgumentAt source called (some v) start) : (e.relocated start).AtClosing source := by
  cases hat with
  | @given before spelling front v back after hsource hspelling hfront hback _ hcontained =>
    have hinert : ∀ {blanks : Text}, blanks.allBlank = true → ∀ c ∈ blanks, isInert c = true :=
      fun hblanks c hc => isInert_of_isBlank (allBlank_iff.mp hblanks c hc)
    have hclosed : SelfContained (front ++ v ++ back) :=
      (hcontained.inert_append (hinert hfront)).append_inert (hinert hback)
    refine ⟨before, spelling, front ++ v, back, after, by simp [hsource], hspelling, hclosed, hback,
      hname, ?_⟩
    rw [position_relocated, hposition, List.length_append, ← Nat.add_assoc]
    rfl

/-- An error that is not about the form of the selector is literal if it quotes the selector where it
is about a language tag or an expression. -/
theorem Literal.of_argument (hclass : e.code.errorClass ≠ .selector)
    (h : e.code = .invalidLang ∨ e.code = .invalidNth →
      e.Quotes source ∧ (e.code = .invalidNth → e.token ≠ some "end of argument".toList) ∨
        e.code = .invalidNth ∧ e.token = some "end of argument".toList ∧ e.AtClosing source) :
    e.Literal source where
  character hcode := by rcases hcode with hcode | hcode <;> exact absurd (hcode ▸ rfl) hclass
  bracket hcode := absurd (hcode ▸ rfl) hclass
  identifier hcode := absurd (hcode ▸ rfl) hclass
  parenthesis hcode := absurd (hcode ▸ rfl) hclass
  piece hcode := by
    rcases h (hcode.imp_right And.left) with ⟨hquotes, -⟩ | ⟨hnth, htoken, -⟩
    · exact hquotes
    · rcases hcode with hlang | ⟨-, hother⟩
      · rw [hnth] at hlang
        cases hlang
      · exact absurd htoken hother
  ending hcode htoken := by
    rcases h (.inr hcode) with ⟨-, hother⟩ | ⟨-, -, hclosing⟩
    · exact absurd htoken (hother hcode)
    · exact hclosing

end SelectorError

namespace Selector

/-- What is wrong with an argument is literal in the selector. -/
private theorem literal_of_build {read : Text → Traced Selector} {arg : Option Text} {start : Nat}
    (h : (buildWith read (some called) arg context).result = .error f)
    (hat : ArgumentAt source called arg start) : (f.error.relocated start).Literal source := by
  refine .of_argument (unbuilt_of_error h).errorClass_ne fun hcode => ?_
  obtain ⟨v, rfl, hcites⟩ := buildWith_cites h hcode
  cases hcites with
  | piece hquotes hword =>
    refine .inl ⟨?_, hword⟩
    cases hat with
    | @given before spelling front v back after hsource _ _ _ _ _ =>
      have hsplit : source =
          (before ++ ':' :: (spelling ++ '(' :: front)) ++ (v ++ (back ++ ')' :: after)) := by
        simp [hsource]
      refine hquotes.relocated hsplit ?_
      simp only [List.length_append, List.length_cons]
      omega
  | ending hnth htoken hname hposition =>
    exact .inr ⟨hnth, htoken, atClosing_of_end hname hposition hat⟩

/-- What is wrong with the form of a selector is literal in it. -/
private theorem literal_of_class (h : (parse context source).result = .error f)
    {tokens : List Token} (htokens : Token.ofSelector source = .ok tokens)
    (hclass : f.error.code.errorClass = .selector) : f.error.Literal source := by
  rcases form_at_fault htokens h hclass with ⟨t, word, -, rfl⟩ | ⟨t, c, hmarked, rfl⟩
  · exact ⟨nofun, nofun, nofun, nofun, nofun, nofun⟩
  · obtain ⟨p, hpos, hc⟩ := hmarked.at_place htokens
    have hposition := congrArg some hpos
    exact ⟨fun _ => ⟨p, c, hposition, hc, rfl⟩, nofun, nofun, nofun, nofun, nofun⟩

/-- What an error says about the selector is literally there. An unexpected character, or a mark that
nothing follows, is the token and stands at the position, as the bracket of an attribute does. Where
a name is missing, the token is the mark that it is missing behind, the position is right behind the
mark, and no name begins there. A parenthesis is missing at the end. What is wrong with a language
tag or an expression is quoted and stands at the position; an expression that ends too early does so
in front of the blanks that the closing parenthesis follows. -/
theorem parse_literal (h : (parse context source).result = .error f) : f.error.Literal source := by
  rcases parse_fails h with ⟨-, rfl⟩ | ⟨e, he, rfl⟩ | ⟨tokens, htokens, hfails⟩
  · exact ⟨nofun, nofun, nofun, nofun, nofun, nofun⟩
  · obtain ⟨front, t, hsource, hmalformed⟩ := Token.exists_malformed he
    exact hmalformed.literal hsource
  · by_cases hclass : f.error.code.errorClass = .selector
    · exact literal_of_class h htokens hclass
    · cases hfails with
      | unexpected _ | dangling _ => exact absurd rfl hclass
      | @name _ _ _ code _ _ hcode _ =>
        refine .of_argument hclass fun hother => ?_
        have hsame : code = .invalidLang ∨ code = .invalidNth := hother
        rcases hsame with rfl | rfl <;> cases hcode
      | argument hcalls _ hcause =>
        obtain ⟨place, rfl, hcall⟩ := call_of_calls htokens hcalls
        exact literal_of_build hcause hcall.text

/-- No name behind two colons, something behind a quoted tag, and an expression that ends too
early. -/
theorem parse_literal_of_colons :
    (∃ f, (parse none "a::( b".toList).result = .error f ∧ f.error.token = some "::".toList ∧
      f.error.position = some 3 ∧ f.error.Literal "a::( b".toList) ∧
    (∃ f, (parse none "a:lang( 'b' c )".toList).result = .error f ∧
      f.error.token = some " c".toList ∧ f.error.position = some 11 ∧
      f.error.Quotes "a:lang( 'b' c )".toList) ∧
    ∃ f, (parse none "a:nth-child( 2n + )".toList).result = .error f ∧ f.error.position = some 17 ∧
      f.error.AtClosing "a:nth-child( 2n + )".toList := by
  have hcolons : (parse none "a::( b".toList).result = .error (.ofError
      { code := .expectedIdentifier, value := some "a::( b".toList, token := some "::".toList,
        position := some 3 }) := by
    decide +kernel
  have hlang : (parse none "a:lang( 'b' c )".toList).result = .error (Failure.relocated 8 (.ofError
      (LanguageTag.breakOff "lang".toList "'b' c".toList (some .standard) ⟨3, " c".toList⟩))) := by
    decide +kernel
  have hnth : (parse none "a:nth-child( 2n + )".toList).result = .error (Failure.relocated 13
      (.ofError (Nth.breakOff "nth-child".toList "2n +".toList (some .standard) ⟨4, []⟩))) := by
    decide +kernel
  refine ⟨⟨_, hcolons, rfl, rfl, parse_literal hcolons⟩, ⟨_, hlang, rfl, rfl, ?_⟩, _, hnth, rfl, ?_⟩
  · exact (parse_literal hlang).piece (.inl rfl)
  · exact (parse_literal hnth).ending rfl rfl

end Selector

end SelectorCheck
