import SelectorCheck.Proofs.Selector.Parsed
import SelectorCheck.Proofs.Token.Place
import SelectorCheck.Validator

/-!
# Where selectors are at fault

Every error about a selector has a place, and the place is a character of the
selector or lies right behind the last one. Errors of the lexer and of the
grammar are placed at tokens. An error in the argument of a function is placed
in the argument first and then moved by where the argument begins, once for
each function around it; the argument ends before the selector does, so it
stays in the selector at every depth.

A report on such an error counts columns from one, and the excerpt made of the
report marks one column, or none if the place lies behind the selector.

## Main definitions

* `Grammar.Step.Inside` — a layer that fails in the selector and leaves tokens
  that lie in it.
* `Diagnostic.PointsInto` — a report whose column and mark lie in a line.
* `Validator.Rejects` — a validator's report on a selector.

## Main results

* `Selector.parseWithin_place` — errors at every depth.
* `Selector.error_inside` — errors, and the reports on them.
-/

namespace SelectorCheck

open Text Traced

namespace Grammar

variable {α β : Type} {n : Nat}

/-! ## Steps -/

/-- The tokens lie in a text of length `n`. -/
def AllWithin (n : Nat) (tokens : List Token) : Prop := ∀ t ∈ tokens, t.Within n

/-- A step that fails at a place in a text of length `n`, if it does, and leaves tokens in it. -/
structure Step.Inside (n : Nat) (step : Step α) : Prop where
  failure : ∀ f, step.outcome.result = .error f → f.error.PlacedIn n
  rest : AllWithin n step.rest

namespace Step

variable {step : Step α} {next : Step β} {rest : List Token}

theorem inside_value {a : α} (h : AllWithin n rest) : (value rest a).Inside n :=
  ⟨by simp [value], h⟩

theorem inside_error {e : SelectorError} (he : e.PlacedIn n) (h : AllWithin n rest) :
    (error rest e : Step α).Inside n := by
  refine ⟨?_, h⟩
  intro f hf
  cases hf
  exact he

theorem Inside.map (h : step.Inside n) (f : α → β) : (step.map f).Inside n := by
  refine ⟨?_, h.rest⟩
  obtain ⟨rest, log, e | a⟩ := step
  · intro failure hfailure
    cases hfailure
    exact h.failure e rfl
  · intro failure hfailure
    cases hfailure

theorem Inside.before (h : next.Inside n) : (step.before next).Inside n :=
  ⟨h.failure, h.rest⟩

theorem Inside.stop (h : step.Inside n) {failure : Failure}
    (hfailure : step.outcome.result = .error failure) : (step.stop failure : Step β).Inside n := by
  refine ⟨?_, h.rest⟩
  intro f hf
  cases hf
  exact h.failure failure hfailure

end Step

/-! ## Errors at tokens -/

variable {s : Setting} {tokens : List Token} {t : Token}

theorem AllWithin.of_cons {rest : List Token} (h : AllWithin n (t :: rest)) :
    t.Within n ∧ AllWithin n rest :=
  ⟨h t List.mem_cons_self, fun u hu => h u (List.mem_cons_of_mem _ hu)⟩

theorem AllWithin.tail (h : AllWithin n tokens) : AllWithin n tokens.tail :=
  fun u hu => h u (List.mem_of_mem_tail hu)

/-- The end stands for what is not there. -/
theorem AllWithin.peek (h : AllWithin n tokens) : (peek tokens).Within n := by
  cases tokens with
  | nil => exact ⟨0, rfl, Nat.zero_le n⟩
  | cons t rest => exact h.of_cons.1

private theorem placedIn_of_within {e : SelectorError} (h : t.Within n)
    (he : e.position = some t.pos) : e.PlacedIn n := by
  obtain ⟨p, hp, hle⟩ := h
  exact ⟨p, by rw [he, hp], by omega⟩

private theorem unexpected_inside (h : AllWithin n tokens) :
    (Step.error tokens (unexpected s (peek tokens)) : Step α).Inside n :=
  Step.inside_error (placedIn_of_within h.peek rfl) h

private theorem named_place {marker name : Token} {f : Failure} (hname : name.Within n)
    (h : (named s marker name).result = .error f) : f.error.PlacedIn n := by
  obtain ⟨code, -, rfl⟩ := named_eq_error h
  exact placedIn_of_within hname rfl

/-! ## The layers -/

/-- What is wrong with an argument is at a place in the argument. -/
def BuildsInside (s : Setting) : Prop :=
  ∀ name arg f, (s.build name arg).result = .error f → f.error.AtMost (arg.getD []).length

variable (hs : BuildsInside s)
include hs

private theorem call_place {marker name : Token} {arg : Option Text} {start : Nat} {f : Failure}
    (hname : name.Within n) (hstart : start + (arg.getD []).length ≤ n)
    (h : (call s marker name arg start).result = .error f) : f.error.PlacedIn n := by
  rcases call_eq_error h with ⟨code, -, rfl⟩ | ⟨cause, hcause, rfl⟩
  · exact placedIn_of_within hname rfl
  · exact (hs _ _ _ hcause).relocated hstart

private theorem functional_inside {marker name paren : Token} (hname : name.Within n)
    (hparen : paren.Within n) (hkind : paren.kind = .parenOpen) (htokens : AllWithin n tokens) :
    (functional s marker name paren tokens).Inside n := by
  have hinside : AllWithin n (enclosed paren tokens).rest ∧ ∃ start : Nat,
      (enclosed paren tokens).start = start ∧
        start + ((enclosed paren tokens).text.getD []).length ≤ n := by
    unfold enclosed
    by_cases hstring : (peek tokens).kind = .string
    · obtain ⟨p, hp, hle⟩ := htokens.peek
      rw [if_pos hstring]
      refine ⟨htokens.tail, p, hp, ?_⟩
      simpa only [Token.extent, hstring] using hle
    · obtain ⟨p, hp, hle⟩ := hparen
      rw [if_neg hstring]
      refine ⟨htokens, p + 1, by simp [hp], ?_⟩
      simp only [Token.extent, hkind] at hle
      exact hle
  obtain ⟨hrest, start, hstart, hle⟩ := hinside
  unfold functional
  dsimp only
  split
  · refine ⟨?_, hrest.tail⟩
    intro f hf
    rw [hstart] at hf
    exact call_place hs hname hle hf
  · exact unexpected_inside hrest

private theorem pseudo_inside {marker : Token} (htokens : AllWithin n tokens) :
    (pseudo s marker tokens).Inside n := by
  unfold pseudo
  split
  · split
    · next hparen =>
      exact functional_inside hs htokens.peek htokens.tail.peek hparen htokens.tail.tail
    · exact ⟨fun f hf => named_place htokens.peek hf, htokens.tail⟩
  · exact unexpected_inside htokens

private theorem items_inside (htokens : AllWithin n tokens) : (items s tokens).Inside n := by
  fun_induction items s tokens with
  | case1 => exact Step.inside_value htokens
  | case2 t rest simple _ ih => exact (ih htokens.of_cons.2).map _
  | case3 t rest _ _ step simple _ ih =>
    have hstep : step.Inside n := pseudo_inside hs htokens.of_cons.2
    exact ((ih hstep.rest).map _).before
  | case4 t rest _ _ step failure hfailure =>
    have hstep : step.Inside n := pseudo_inside hs htokens.of_cons.2
    exact hstep.stop hfailure
  | case5 => exact Step.inside_value htokens

private theorem links_inside (htokens : AllWithin n tokens) : (links s tokens).Inside n := by
  fun_induction links s tokens with
  | case1 => exact Step.inside_value htokens
  | case2 t rest _ step _ =>
    have hstep : step.Inside n := items_inside hs htokens.of_cons.2
    exact (Step.inside_error (placedIn_of_within htokens.of_cons.1 rfl) hstep.rest).before
  | case3 t rest _ step first others _ ih =>
    have hstep : step.Inside n := items_inside hs htokens.of_cons.2
    exact ((ih hstep.rest).map _).before
  | case4 t rest _ step failure hfailure =>
    have hstep : step.Inside n := items_inside hs htokens.of_cons.2
    exact hstep.stop hfailure
  | case5 => exact Step.inside_value htokens

private theorem complex_inside (htokens : AllWithin n tokens) : (complex s tokens).Inside n := by
  have hitems := items_inside hs htokens
  unfold complex
  dsimp only
  split
  · exact (unexpected_inside hitems.rest).before
  · exact ((links_inside hs hitems.rest).map _).before
  · next hfailure => exact hitems.stop hfailure

private theorem members_inside (htokens : AllWithin n tokens) : (members s tokens).Inside n := by
  fun_induction members s tokens with
  | case1 => exact Step.inside_value htokens
  | case2 t rest _ step c _ ih =>
    have hstep : step.Inside n := complex_inside hs htokens.of_cons.2
    exact ((ih hstep.rest).map _).before
  | case3 t rest _ step failure hfailure =>
    have hstep : step.Inside n := complex_inside hs htokens.of_cons.2
    exact hstep.stop hfailure
  | case4 => exact Step.inside_value htokens

omit hs in
private theorem ending_inside {step : Step α} (h : step.Inside n) : (ending s step).Inside n := by
  unfold ending
  split
  · split
    · exact h
    · exact (unexpected_inside h.rest).before
  · exact h

/-- The grammar fails at a place in the selector. -/
theorem selector_inside (htokens : AllWithin n tokens) :
    (Grammar.selector s tokens).Inside n := by
  have hcomplex := complex_inside hs htokens
  unfold Grammar.selector
  dsimp only
  split
  · exact ending_inside ((members_inside hs hcomplex.rest).map _).before
  · next hfailure => exact hcomplex.stop hfailure

end Grammar

/-! ## Functions -/

/-- Simple selectors of the tree begin in a text of length `n`. -/
def Selector.PlacedIn (n : Nat) (s : Selector) : Prop :=
  ∀ simple ∈ s.simples, ∃ p : Nat, simple.pos = (p : Int) ∧ p ≤ n

theorem Compound.first_mem_simples (c : Compound) : c.first ∈ c.simples := List.mem_cons_self

theorem Complex.mem_simples {c : Complex} {l : Link} {simple : Simple} (hl : l ∈ c.parts)
    (h : simple ∈ l.compound.simples) : simple ∈ c.simples :=
  List.mem_flatMap.mpr ⟨l, hl, h⟩

theorem Complex.first_mem_simples (c : Complex) : c.first.first ∈ c.simples :=
  mem_simples (l := ⟨none, c.first⟩) List.mem_cons_self c.first.first_mem_simples

theorem Selector.mem_simples {s : Selector} {c : Complex} {simple : Simple} (hc : c ∈ s.members)
    (h : simple ∈ c.simples) : simple ∈ s.simples :=
  List.mem_flatMap.mpr ⟨c, hc, h⟩

/-- The simple selector that is too much is one of the tree, and so is the only one. -/
private theorem mem_simples_of_sole (s : Selector) :
    match s.sole with
    | .error position => ∃ simple ∈ s.simples, simple.pos = position
    | .ok simple => simple ∈ s.simples := by
  cases s with
  | list first second others =>
    exact ⟨second.first.first, Selector.mem_simples (by simp [Selector.members])
      second.first_mem_simples, rfl⟩
  | complex c =>
    have hc : c ∈ (Selector.complex c).members := List.mem_singleton.mpr rfl
    obtain ⟨⟨first, others⟩, row⟩ := c
    cases row with
    | cons link row =>
      refine ⟨link.compound.first, Selector.mem_simples hc ?_, rfl⟩
      exact Complex.mem_simples (l := link) (by simp [Complex.parts])
        link.compound.first_mem_simples
    | nil =>
      cases others with
      | cons simple others =>
        refine ⟨simple, Selector.mem_simples hc ?_, rfl⟩
        exact Complex.mem_simples (l := ⟨none, ⟨first, simple :: others⟩⟩) (by simp [Complex.parts])
          (by simp [Compound.simples])
      | nil => exact Selector.mem_simples hc (Complex.first_mem_simples _)

namespace Negation

variable {n : Nat}

/-- A negation objects to a simple selector of its argument. -/
private theorem place_of_accept {s : Selector} {objection : Objection} (hs : s.PlacedIn n)
    (h : accept s = .error objection) : ∃ p : Nat, objection.position = (p : Int) ∧ p ≤ n := by
  have hsole := mem_simples_of_sole s
  unfold accept at h
  cases hfound : s.sole with
  | error position =>
    rw [hfound] at h hsole
    obtain ⟨simple, hmem, hposition⟩ := hsole
    cases h
    obtain ⟨p, hp, hle⟩ := hs simple hmem
    exact ⟨p, by rw [← hposition, hp], hle⟩
  | ok simple =>
    rw [hfound] at h hsole
    obtain ⟨p, hp, hle⟩ := hs simple hsole
    cases hplain : simple.plain? with
    | none =>
      simp only [hplain, Except.error.injEq] at h
      subst h
      exact ⟨p, hp, hle⟩
    | some plain =>
      simp only [hplain] at h
      split at h
      · cases h
        exact ⟨p, hp, hle⟩
      · cases h

/-- What is wrong with the argument of a negation is at a place in the argument, if reading it
fails in it and reads trees in it only. -/
private theorem place_of_error {read : Text → Traced Selector} {name : Text} {value : Option Text}
    {context : Option Context} {f : Failure}
    (hfails : ∀ v g, (read v).result = .error g → g.error.PlacedIn v.length)
    (hreads : ∀ v s, (read v).result = .ok s → s.PlacedIn v.length)
    (h : (parse read name value context).result = .error f) :
    f.error.AtMost (value.getD []).length := by
  cases value with
  | none =>
    cases h
    exact SelectorError.atMost_of_none rfl
  | some v =>
    unfold parse at h
    dsimp only at h
    split at h
    · cases h
      exact SelectorError.atMost_of_none rfl
    · rcases result_of_bind_error h with h | ⟨s, hs, h⟩
      · obtain ⟨cause, hcause, rfl⟩ := result_of_mapFailure_error h
        exact (hfails v cause hcause).atMost
      · cases haccept : accept s with
        | ok simple =>
          rw [haccept] at h
          cases h
        | error objection =>
          rw [haccept] at h
          cases h
          exact place_of_accept (hreads v s (result_mapFailure_eq_ok_iff.mp hs)) haccept

end Negation

/-- What is wrong with an argument is at a place in the argument. -/
private theorem place_of_build {read : Text → Traced Selector} {name : Text} {value : Option Text}
    {context : Option Context} {f : Failure}
    (hfails : ∀ v g, (read v).result = .error g → g.error.PlacedIn v.length)
    (hreads : ∀ v s, (read v).result = .ok s → s.PlacedIn v.length)
    (h : (buildWith read (some name) value context).result = .error f) :
    f.error.AtMost (value.getD []).length := by
  rcases buildWith_error_cases h with ⟨-, rfl⟩ | ⟨-, rfl⟩ | ⟨kind, -, hconstruct⟩
  · exact SelectorError.atMost_of_none rfl
  · exact SelectorError.atMost_of_none rfl
  · cases kind with
    | lang => exact LanguageTag.place_of_error (error_of_ofExcept (result_of_map_error hconstruct))
    | nth kind => exact Nth.place_of_error (error_of_ofExcept (result_of_map_error hconstruct))
    | negation => exact Negation.place_of_error hfails hreads (result_of_map_error hconstruct)

/-! ## Reading to a given depth -/

namespace Selector

open Spelling

variable {context : Option Context} {source : Text}

/-- The trees that are read lie in their text. -/
theorem placedIn_of_parseWithin {depth : Nat} {selector : Selector}
    (h : (parseWithin depth context source).result = .ok selector) :
    selector.PlacedIn source.length := by
  refine (parseWithin_sound h).forall_simples fun {p simple text after} hitem ht => ⟨p, ?_, ?_⟩
  · cases hitem <;> rfl
  · obtain ⟨c, t, rfl, -⟩ := hitem.head
    have hlength := congrArg List.length ht
    simp only [List.length_drop, List.length_append, List.length_cons] at hlength
    omega

/-- Whatever the depth, errors have a place in the text that is read. -/
theorem parseWithin_place {depth : Nat} {f : Failure}
    (h : (parseWithin depth context source).result = .error f) :
    f.error.PlacedIn source.length := by
  induction depth generalizing context source f with
  | zero =>
    cases h
    exact ⟨0, rfl, Nat.zero_le _⟩
  | succ depth ih =>
    rw [parseWithin] at h
    split at h
    · cases h
      exact ⟨0, rfl, Nat.zero_le _⟩
    · have hbuilds : Grammar.BuildsInside (setting (parseWithin depth) context (some source)) := by
        intro name arg g hg
        exact place_of_build (fun v g hg => ih hg) (fun v s hs => placedIn_of_parseWithin hs) hg
      cases htokens : Token.ofSelector source with
      | error e =>
        rw [htokens] at h
        cases h
        exact Token.place_of_error htokens
      | ok tokens =>
        rw [htokens] at h
        exact (Grammar.selector_inside hbuilds (Token.ofSelector_within htokens)).failure f h

end Selector

/-! ## Reports -/

/-- The report names a column of the line, or the one behind it, and the excerpt made of it marks
what there is from that column on, at most one column. -/
def Diagnostic.PointsInto (line : Text) (d : Diagnostic) : Prop :=
  ∃ (column : Int) (mark : Mark), d.column = some column ∧
    1 ≤ column ∧ column ≤ line.length + 1 ∧
    d.excerpt.mark = some mark ∧ mark.line = line ∧ mark.column = column ∧
    column ≤ mark.endColumn ∧ mark.endColumn ≤ line.length + 1 ∧
    (column ≠ line.length + 1 → mark.endColumn = column + 1)

theorem Diagnostic.pointsInto_ofError {e : SelectorError} {line : Text}
    (h : e.PlacedIn line.length) : (ofError e (some line)).PointsInto line := by
  obtain ⟨p, hp, hle⟩ := h
  have hcolumn : (ofError e (some line)).column = some ((p : Int) + 1) := by
    simp [ofError, make, hp]
  have hmark : (ofError e (some line)).excerpt.mark =
      some ⟨line, (p : Int) + 1, min ((p : Int) + 1 + 1) (line.length + 1)⟩ := by
    simp [excerpt, ofError, make, hp]
  refine ⟨p + 1, _, hcolumn, by omega, by omega, hmark, rfl, rfl, ?_, ?_, ?_⟩
  · show (p : Int) + 1 ≤ min ((p : Int) + 1 + 1) (line.length + 1)
    omega
  · show min ((p : Int) + 1 + 1) (line.length + 1 : Int) ≤ line.length + 1
    omega
  · intro hne
    show min ((p : Int) + 1 + 1) (line.length + 1 : Int) = p + 1 + 1
    omega

namespace Validator

/-- The validator finds the selector wrong and reports `diagnostic`: it is on record, it is what a
strict check ends with, and a check that goes on collects it, if there is collecting. -/
structure Rejects (v : Validator) (source : Text) (diagnostic : Diagnostic) : Prop where
  recorded : (v.check (some source)).log.getLast? =
    some (.rejectedSelector (some source) diagnostic)
  strict : v.strict = true → (v.check (some source)).result = .error diagnostic
  lenient : v.strict = false → (v.check (some source)).result = .ok none
  collected : (v.check (some source)).validator.collected =
    if v.strict = false ∧ v.collecting = true then v.collected ++ [diagnostic] else v.collected

/-- A selector in error is reported with that error. -/
theorem rejects_of_error {v : Validator} {source : Text} {failure : Failure}
    (h : (Selector.parse v.context source).result = .error failure) :
    v.Rejects source (.ofError failure.error (some source)) := by
  have hparse : (Selector.parse? v.context (some source)).result = .error failure := h
  have hcheck : v.check (some source) =
      let diagnostic := Diagnostic.ofError failure.error (some source)
      let log := (Selector.parse? v.context (some source)).log ++
        [.rejectedSelector (some source) diagnostic]
      if v.strict then ⟨v, log, .error diagnostic⟩
      else if v.collecting then
        ⟨{ v with collected := v.collected ++ [diagnostic] }, log, .ok none⟩
      else ⟨v, log, .ok none⟩ := by
    simp only [check, hparse]
  dsimp only at hcheck
  cases hstrict : v.strict with
  | true =>
    rw [if_pos hstrict] at hcheck
    constructor <;> simp [hcheck, hstrict]
  | false =>
    cases hcollecting : v.collecting with
    | true =>
      rw [if_neg (by simp [hstrict]), if_pos hcollecting] at hcheck
      constructor <;> simp [hcheck, hstrict, hcollecting]
    | false =>
      rw [if_neg (by simp [hstrict]), if_neg (by simp [hcollecting])] at hcheck
      constructor <;> simp [hcheck, hstrict, hcollecting]

/-- What is not in error has its tree as result. -/
theorem check_of_ok {v : Validator} {source : Text} {selector : Selector}
    (h : (Selector.parse v.context source).result = .ok selector) :
    (v.check (some source)).result = .ok (some selector) := by
  have hparse : (Selector.parse? v.context (some source)).result = .ok selector := h
  simp only [check, hparse]

end Validator

/-- An error has a place in the selector, and the report of a validator that rejects the selector
points into it, whatever the context and the switches. -/
theorem Selector.error_inside (source : Text) :
    (∀ (context : Option Context) (failure : Failure),
      (parse context source).result = .error failure →
        ∃ p : Int, failure.error.position = some p ∧ 0 ≤ p ∧ p ≤ source.length) ∧
    (∀ v : Validator, (∀ selector, (v.check (some source)).result ≠ .ok (some selector)) →
      ∃ diagnostic, v.Rejects source diagnostic ∧ diagnostic.PointsInto source) := by
  constructor
  · intro context failure h
    obtain ⟨p, hp, hle⟩ := parseWithin_place h
    exact ⟨p, hp, by omega, by omega⟩
  · intro v hrejected
    cases hparse : (parse v.context source).result with
    | ok selector => exact absurd (Validator.check_of_ok hparse) (hrejected selector)
    | error failure =>
      exact ⟨_, Validator.rejects_of_error hparse,
        Diagnostic.pointsInto_ofError (parseWithin_place hparse)⟩

/-- An expression that breaks off, two functions deep. -/
theorem Selector.error_inside_nested :
    (∃ failure, (parse none "a:not( :nth-child(2n + ))".toList).result = .error failure ∧
      ∃ p : Int, failure.error.position = some p ∧ 0 ≤ p ∧
        p ≤ "a:not( :nth-child(2n + ))".toList.length) ∧
    ∃ diagnostic, Validator.Rejects {} "a:not( :nth-child(2n + ))".toList diagnostic ∧
      diagnostic.PointsInto "a:not( :nth-child(2n + ))".toList := by
  obtain ⟨hplace, hreport⟩ := error_inside "a:not( :nth-child(2n + ))".toList
  have hnone : (Validator.check {} (some "a:not( :nth-child(2n + ))".toList)).result =
      .ok none := by
    decide +kernel
  constructor
  · cases hparse : (parse none "a:not( :nth-child(2n + ))".toList).result with
    | error failure => exact ⟨failure, rfl, hplace none failure hparse⟩
    | ok selector =>
      have hsome := Validator.check_of_ok (v := {}) hparse
      rw [hnone] at hsome
      cases hsome
  · refine hreport {} ?_
    intro selector hsome
    rw [hnone] at hsome
    cases hsome

end SelectorCheck
