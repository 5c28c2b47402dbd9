import SelectorCheck.Proofs.Selector.Depth
import SelectorCheck.Proofs.Selector.Failure
import SelectorCheck.Proofs.Selector.Place
import SelectorCheck.Proofs.Token.Pseudo

/-!
# Errors in arguments and their causes

What is wrong with the argument of a function is found within the argument, and
reported at its place in the selector. The report differs from what was found in
the place alone, by the offset at which the argument text begins, and what was
found is its cause. If the argument of a negation is no selector, that cause again
has the error about the argument, read on its own, as its cause, and that one may
be about an argument within the argument.

So a chain of causes alternates between reports in a text and what was found in
an argument of it, and the place of the first report is the sum of the offsets on
the way to the innermost error and of the place of that error.

## Main definitions

* `ArgumentAt` — where in a text the argument text of a call begins.
* `SelectorError.Restates` — a report and what was found in the argument.
* `offsetAlong` — the sum of offsets.
* `Selector.Report` — a failure with its causes, and the offsets along them.

## Main results

* `Selector.parse_fails` — why a selector is rejected, whatever the depth.
* `Selector.parse_report` — every failure is such a report, placed at the sum of
  its offsets.
-/

namespace SelectorCheck

open Text Lexer RawArgument

/-! ## Arguments in the text -/

/-- In `source` the function `called` is called with the argument text `arg`, which begins at
`start`. Blanks around an argument text do not belong to it. Where there is nothing else there is no
argument text, and it would begin behind the parenthesis. -/
inductive ArgumentAt (source : Text) :
    (called : Text) → (arg : Option Text) → (start : Nat) → Prop where
  | blank {before spelling blanks after : Text}
      (hsource : source = before ++ ':' :: (spelling ++ '(' :: (blanks ++ ')' :: after)))
      (hspelling : NameRun spelling ['(']) (hblanks : blanks.allBlank = true) :
      ArgumentAt source spelling.lowercase none (before.length + 1 + spelling.length + 1)
  | given {before spelling front arg back after : Text}
      (hsource : source =
        before ++ ':' :: (spelling ++ '(' :: (front ++ (arg ++ back ++ ')' :: after))))
      (hspelling : NameRun spelling ['(']) (hfront : front.allBlank = true)
      (hback : back.allBlank = true) (hsolid : Solid arg) (hcontained : SelfContained arg) :
      ArgumentAt source spelling.lowercase (some arg)
        (before.length + 1 + spelling.length + 1 + front.length)

/-- A call among the tokens has its argument in the text. -/
theorem argumentAt_of_callIn {source : Text} {name paren : Token} {rest : List Token}
    (h : CallIn source name paren rest) :
    ∃ start : Nat, (Grammar.enclosed paren rest).start = start ∧
      ArgumentAt source (Grammar.calledBy name) (Grammar.enclosed paren rest).text start := by
  have hcontained := h.selfContained
  obtain @⟨before, called, blanks, content, after, close, others, hsource, hcalled, hblanks, -,
    hclose⟩ := h
  have hfront : blanks.allBlank = true := allBlank_iff.mpr hblanks.all
  -- A content begins with a character that is no blank, because the blanks in front are a run.
  have hfirst : ∀ c ∈ content.head?, isBlank c = false := by
    intro c hc
    refine hblanks.stops c ?_
    rw [List.head?_append, Option.mem_def.mp hc]
    rfl
  obtain ⟨back, hback, hcontent⟩ := exists_trimEnd_append content
  rw [Grammar.enclosed_argumentTokens _ _ _ hclose] at hcontained ⊢
  by_cases hnone : content.trimEnd = []
  · rw [if_pos hnone]
    obtain rfl : content = [] := by
      rw [hnone, List.nil_append] at hcontent
      subst hcontent
      cases content with
      | nil => rfl
      | cons c rest =>
        have hblank : isBlank c = true := allBlank_iff.mp hback c List.mem_cons_self
        rw [hfirst c rfl] at hblank
        cases hblank
    exact ⟨before.length + 1 + called.length + 1, rfl, .blank hsource hcalled hfront⟩
  · rw [if_neg hnone] at hcontained ⊢
    rw [hcontent] at hsource
    exact ⟨_, rfl, .given hsource hcalled hfront hback (solid_trimEnd hfirst hnone) hcontained⟩

/-! ## Reports -/

/-- The error `e` is what was found as `cause` in a text that begins at `start`. An error without a
place is placed where the text begins. -/
structure SelectorError.Restates (e cause : SelectorError) (start : Nat) : Prop where
  errorClass : e.errorClass = cause.errorClass
  code : e.code = cause.code
  name : e.name = cause.name
  value : e.value = cause.value
  token : e.token = cause.token
  context : e.context = cause.context
  position : e.position = some (start + cause.position.getD 0)

theorem SelectorError.restates_relocated (e : SelectorError) (start : Nat) :
    (e.relocated start).Restates e start := by
  constructor <;> rfl

/-- The offset of the innermost of texts within texts, each of which begins at its offset in the one
around it: the sum of the offsets. -/
def offsetAlong (starts : List Nat) : Nat := starts.foldr (· + ·) 0

@[simp] theorem offsetAlong_nil : offsetAlong [] = 0 := rfl

@[simp] theorem offsetAlong_cons (start : Nat) (rest : List Nat) :
    offsetAlong (start :: rest) = start + offsetAlong rest := rfl

/-- The last of the causes, or the error itself if nothing caused it. -/
def Failure.innermost (f : Failure) : SelectorError := f.causes.getLast?.getD f.error

namespace Selector

/-- A call of `source` asks for the function `called` with the argument text `arg`, which begins at
`start`. -/
structure Call (source called : Text) (arg : Option Text) (start : Nat) : Prop where
  tokens : ∃ tokens, Token.ofSelector source = .ok tokens ∧
    Grammar.Calls tokens called arg start
  text : ArgumentAt source called arg start

/-- What is wrong with a selector itself, and not with an argument in it: it is blank, it cannot be
cut into tokens, or the tokens are not those of a selector with names that are admitted. -/
inductive Own (context : Option Context) (source : Text) : SelectorError → Prop where
  | blank (h : source.allBlank = true) : Own context source (empty (some source) context)
  | lexer {e : SelectorError} (h : Token.ofSelector source = .error e) : Own context source e
  | unexpected {tokens : List Token} (h : Token.ofSelector source = .ok tokens) (t : Token) :
      Own context source (Grammar.unexpected (setting parse context (some source)) t)
  | dangling {tokens : List Token} (h : Token.ofSelector source = .ok tokens) (t : Token) :
      Own context source (Grammar.dangling (setting parse context (some source)) t)
  | name {tokens : List Token} (h : Token.ofSelector source = .ok tokens) {code : ErrorCode}
      (hcode : code.errorClass = .unknownName) (name : Token) :
      Own context source (Grammar.unknownName (setting parse context (some source)) code
        (Grammar.calledBy name) name)

/-- The reports on `source`, with the offsets at which the argument texts along the causes begin. -/
inductive Report (context : Option Context) : (source : Text) → Failure → List Nat → Prop where
  /-- What is wrong with the selector itself has no cause. -/
  | own {source : Text} {e : SelectorError} (h : Own context source e) :
      Report context source ⟨e, []⟩ []
  /-- A function cannot be built, for a reason that has no cause itself. -/
  | argument {source called : Text} {arg : Option Text} {start : Nat} {e cause : SelectorError}
      (hcall : Call source called arg start)
      (hbuild : (PseudoFunction.build (some called) arg (some (context.getD .standard))).result =
        .error ⟨cause, []⟩)
      (hcode : cause.code ≠ .invalidNot) (hrestates : e.Restates cause start) :
      Report context source ⟨e, [cause]⟩ [start]
  /-- A negation cannot be built because its argument, read on its own, is rejected. -/
  | negation {source called arg : Text} {start : Nat} {e cause : SelectorError} {inner : Failure}
      {starts : List Nat} (hcall : Call source called (some arg) start)
      (hbuild : (PseudoFunction.build (some called) (some arg)
        (some (context.getD .standard))).result = .error ⟨cause, inner.error :: inner.causes⟩)
      (hcode : cause.code = .invalidNot) (hrestates : e.Restates cause start)
      (hread : (parse context arg).result = .error inner)
      (hposition : cause.position = inner.error.position)
      (htoken : cause.token = some inner.error.message) (hinner : Report context arg inner starts) :
      Report context source ⟨e, cause :: inner.error :: inner.causes⟩ (start :: starts)

variable {context : Option Context} {source arg : Text} {f : Failure} {starts : List Nat}

/-! ## Reasons, whatever the depth -/

/-- A selector is rejected because it is blank, because it cannot be cut into tokens, or for a
reason of the grammar. -/
theorem parse_fails (h : (parse context source).result = .error f) :
    (source.allBlank = true ∧ f = .ofError (empty (some source) context)) ∨
      (∃ e, Token.ofSelector source = .error e ∧ f = .ofError e) ∨
      ∃ tokens, Token.ofSelector source = .ok tokens ∧
        Grammar.Fails (setting parse context (some source)) tokens f := by
  rw [← readBy_parse] at h
  rcases readBy_cases parse context source with ⟨hblank, hempty⟩ | ⟨e, htokens, hlexer⟩ |
    ⟨tokens, htokens, hexplained⟩
  · rw [hempty] at h
    cases h
    exact .inl ⟨hblank, rfl⟩
  · rw [hlexer] at h
    cases h
    exact .inr (.inl ⟨e, htokens, rfl⟩)
  · exact .inr (.inr ⟨tokens, htokens, hexplained.failure f h⟩)

/-- Where no context is given the standard one holds, also for what is in an argument. -/
theorem parse_getD_standard (h : arg.allBlank = false) :
    parse (some (context.getD .standard)) arg = parse context arg := by
  have hblank : ¬ arg.allBlank = true := by simp [h]
  simp only [parse, depthFor, parseWithin, if_neg hblank]
  cases context <;> rfl

/-! ## Reports -/

/-- What a call among the tokens asks for is asked for in the text. -/
theorem call_of_calls {tokens : List Token} {called : Text} {given : Option Text}
    {start : Int} (htokens : Token.ofSelector source = .ok tokens)
    (h : Grammar.Calls tokens called given start) :
    ∃ place : Nat, start = place ∧ Call source called given place := by
  obtain @⟨marker, name, paren, rest, hsuffix, hmarker, hparen⟩ := h
  have hcalls := Grammar.Calls.mk hsuffix hmarker hparen
  obtain ⟨place, hplace, hat⟩ :=
    argumentAt_of_callIn (Token.callIn_of_suffix htokens hsuffix hmarker hparen)
  rw [hplace] at hcalls ⊢
  exact ⟨place, rfl, ⟨tokens, htokens, hcalls⟩, hat⟩

/-- Every failure is a report. -/
theorem exists_report (h : (parse context source).result = .error f) :
    ∃ starts, Report context source f starts := by
  induction hn : source.length using Nat.strongRecOn generalizing source f with
  | _ n ih =>
    rcases parse_fails h with ⟨hblank, rfl⟩ | ⟨e, he, rfl⟩ | ⟨tokens, htokens, hfails⟩
    · exact ⟨[], .own (.blank hblank)⟩
    · exact ⟨[], .own (.lexer he)⟩
    · cases hfails with
      | unexpected t => exact ⟨[], .own (.unexpected htokens t)⟩
      | dangling t => exact ⟨[], .own (.dangling htokens t)⟩
      | name _ _ hcode _ => exact ⟨[], .own (.name htokens hcode _)⟩
      | @argument called given start cause hcalls _ hcause =>
        obtain ⟨place, rfl, hcall⟩ := call_of_calls htokens hcalls
        have hrestates := SelectorError.restates_relocated cause.error place
        cases unbuilt_of_error hcause with
        | unknown _ => exact ⟨[place], .argument hcall hcause nofun hrestates⟩
        | argument _ _ hread => exact ⟨[place], .argument hcall hcause hread hrestates⟩
        | @unreadable arg inner hname hvalue hinner =>
          subst hvalue
          have hlength := hcalls.length_le htokens hname rfl
          have harg : arg.allBlank = false := by
            cases hcall.text with
            | given _ _ _ _ hsolid _ => exact hsolid.not_allBlank
          have hread : (parse context arg).result = .error inner := by
            rw [← parse_getD_standard harg]
            exact hinner
          obtain ⟨starts, hreport⟩ := ih arg.length (by omega) hread rfl
          obtain ⟨p, hp, -⟩ := parseWithin_place hread
          have hposition : some (inner.error.position.getD 0) = inner.error.position := by
            rw [hp, Option.getD_some]
          exact ⟨place :: starts,
            .negation hcall hcause rfl hrestates hread hposition rfl hreport⟩

/-- The offsets along the causes lead to the innermost error. -/
theorem Report.position (h : Report context source f starts) :
    f.error.position = some (offsetAlong starts + f.innermost.position.getD 0) := by
  induction h with
  | own h =>
    cases h with
    | lexer he =>
      obtain ⟨p, hp, -⟩ := Token.place_of_error he
      simp [Failure.innermost, hp]
    | _ => simp [Failure.innermost, empty, Grammar.unexpected, Grammar.dangling,
        Grammar.unknownName]
  | argument _ _ _ hrestates =>
    simpa [Failure.innermost] using hrestates.position
  | @negation source called arg start e cause inner starts _ _ _ hrestates _ hposition _ _ ih =>
    have hinnermost : Failure.innermost ⟨e, cause :: inner.error :: inner.causes⟩ =
        inner.innermost := by
      simp [Failure.innermost, List.getLast?_cons]
    have hplace := hrestates.position
    rw [hposition, ih, Option.getD_some] at hplace
    rw [hinnermost]
    refine hplace.trans (congrArg some ?_)
    rw [offsetAlong_cons, Int.natCast_add, Int.add_assoc]

/-- What goes wrong in an argument is reported at its place in the selector, caused by what was
found in the argument, through any number of negations; what goes wrong in the selector itself has
no cause. The place of the report is the sum of the offsets of the arguments and of the place of
the innermost error. -/
theorem parse_report (h : (parse context source).result = .error f) :
    ∃ starts, Report context source f starts ∧
      f.error.position = some (offsetAlong starts + f.innermost.position.getD 0) := by
  obtain ⟨starts, hreport⟩ := exists_report h
  exact ⟨starts, hreport, hreport.position⟩

/-- A negation without an argument within a negation. What is missing has no place, so both reports
point at where an argument text begins. -/
theorem parse_report_nested :
    ∃ f, (parse none "a:not( :not( ))".toList).result = .error f ∧
      (f.error :: f.causes).map (·.position) = [some 12, some 5, some 5, none] ∧
      ∃ starts, Report none "a:not( :not( ))".toList f starts ∧
        f.error.position = some (offsetAlong starts + f.innermost.position.getD 0) := by
  have hplaces : ((parse none "a:not( :not( ))".toList).result.mapError fun f =>
      (f.error :: f.causes).map (·.position)) = .error [some 12, some 5, some 5, none] := by
    decide +kernel
  cases hparse : (parse none "a:not( :not( ))".toList).result with
  | ok selector =>
    rw [hparse] at hplaces
    cases hplaces
  | error f =>
    rw [hparse] at hplaces
    exact ⟨f, rfl, Except.error.inj hplaces, parse_report hparse⟩

end Selector

end SelectorCheck
