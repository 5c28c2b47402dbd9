import SelectorCheck.Proofs.Selector.Parsed
import SelectorCheck.Proofs.Selector.Sequence

/-!
# Records of construction

That a function is being built is recorded in front of reading its argument, and
reading the argument of a negation builds the function in there. So the records tell
the functions of the tree from the outside in, in the order in which they are written.
If the selector is rejected there is no tree, but until then functions were built one
after the other. The last record is then about the function that could not be built,
or it is a function that is no longer part of anything.

A step of the grammar recounts the functions of what it comes to, behind those that
were built before it. Steps in a row recount what the last of them comes to.

## Main definitions

* `FunctionOf.functions`, `Selector.functions` — the functions of a tree, a negation
  before the one within it.
* `LogRecord.ofFunction` — the record that a function leaves.
* `Interrupted` — the records of a construction that was broken off.
* `Traced.Recounts` — a computation whose records tell the functions of its value.

## Main results

* `Grammar.selector_recounts` — the grammar recounts what it reads, if functions are
  built so.
* `buildWith_recounts` — functions are built so, if selectors in them are read so.
* `Selector.parse?_recounts` — so every selector is.
-/

namespace SelectorCheck

/-! ## The functions of a tree -/

/-- The function within a negation, if there is one. -/
def FunctionOf.within (f : PseudoFunction) : List PseudoFunction :=
  match f.argument with
  | .plain _ => []
  | .negated simple => simple.function.toList.map FunctionOf.ofPlain

/-- A function and the one within it. -/
def FunctionOf.functions (f : PseudoFunction) : List PseudoFunction := f :: f.within

/-- The functions of a simple selector. -/
def SimpleOf.functions (s : Simple) : List PseudoFunction :=
  s.function.toList.flatMap FunctionOf.functions

/-- The functions of a compound selector. -/
def Compound.functions (c : Compound) : List PseudoFunction := c.simples.flatMap SimpleOf.functions

/-- The functions of a complex selector. -/
def Complex.functions (c : Complex) : List PseudoFunction := c.simples.flatMap SimpleOf.functions

/-- The functions of a selector, in the order in which they are written. A negation stands before
the function within it. -/
def Selector.functions (s : Selector) : List PseudoFunction :=
  s.simples.flatMap SimpleOf.functions

theorem Complex.functions_eq (c : Complex) :
    c.functions = c.first.functions ++ c.links.flatMap fun l => l.compound.functions := by
  simp [functions, simples, parts, Compound.functions, List.flatMap_assoc]

theorem Selector.functions_ofMembers (first : Complex) (members : List Complex) :
    (ofMembers first members).functions =
      first.functions ++ members.flatMap Complex.functions := by
  rw [functions, simples, members_ofMembers, List.flatMap_assoc, List.flatMap_cons]
  rfl

theorem SimpleOf.functions_ofPlain (s : PlainSimple) :
    (ofPlain s).functions = s.function.toList.map FunctionOf.ofPlain := by
  obtain ⟨kind, name, arg, function, pos⟩ := s
  cases function <;> rfl

/-- What a negation accepts has the functions of the simple selector that it is. -/
theorem Negation.functions_of_accept {s : Selector} {simple : PlainSimple}
    (h : accept s = .ok simple) : s.functions = simple.function.toList.map FunctionOf.ofPlain := by
  obtain ⟨item, rfl, hplain, -⟩ := accept_eq_ok_iff.mp h
  rw [← SimpleOf.functions_ofPlain, SimpleOf.ofPlain_of_plain? hplain]
  simp [Selector.functions, Selector.simples, Selector.members, Complex.simples, Complex.parts,
    Compound.simples]

/-! ## Records -/

/-- The record that a function is being built. -/
def LogRecord.ofFunction (f : PseudoFunction) : LogRecord := .building f.name f.value

/-- The record shows the function as it is written. -/
theorem LogRecord.line_ofFunction (f : PseudoFunction) :
    (ofFunction f).line = "csspseudo.pseudo: Building ".toList ++ f.text := by
  have hline : (ofFunction f).line = "csspseudo.pseudo".toList ++ ": ".toList ++
      ("Building :".toList ++ f.name ++ "(".toList ++ f.value ++ ")".toList) := rfl
  have hfront : "csspseudo.pseudo".toList ++ ": ".toList ++ "Building :".toList =
      "csspseudo.pseudo: Building ".toList ++ [':'] := by
    decide +kernel
  have htext : f.text = [':'] ++ (f.name ++ "(".toList ++ f.value ++ ")".toList) := rfl
  rw [hline, htext, ← List.append_assoc _ [':'], ← hfront]
  simp only [List.append_assoc]

/-- The record says that a function is being built. -/
def LogRecord.IsBuilding (r : LogRecord) : Prop := ∃ name value, r = .building name value

/-- The records of a construction that was broken off: functions were being built, and the last one
may have been one that there is not. -/
inductive Interrupted : List LogRecord → Prop where
  | building {log : List LogRecord} (h : ∀ r ∈ log, r.IsBuilding) : Interrupted log
  | rejected {log : List LogRecord} (h : ∀ r ∈ log, r.IsBuilding) (name : Text) :
      Interrupted (log ++ [.rejectedFunction name])

theorem interrupted_nil : Interrupted [] := .building fun _ hr => (nomatch hr)

/-- Functions may have been built before. -/
theorem Interrupted.append {before log : List LogRecord} (hbefore : ∀ r ∈ before, r.IsBuilding)
    (h : Interrupted log) : Interrupted (before ++ log) := by
  have hall : ∀ log : List LogRecord, (∀ r ∈ log, r.IsBuilding) →
      ∀ r ∈ before ++ log, r.IsBuilding := fun log hlog r hr =>
    (List.mem_append.mp hr).elim (hbefore r) (hlog r)
  cases h with
  | building h => exact .building (hall _ h)
  | rejected h name =>
    rw [← List.append_assoc]
    exact .rejected (hall _ h) name

/-- All these records go to the same log. -/
theorem Interrupted.logger {log : List LogRecord} (h : Interrupted log) :
    ∀ r ∈ log, r.logger = "csspseudo.pseudo".toList := by
  have hbuilding : ∀ r : LogRecord, r.IsBuilding → r.logger = "csspseudo.pseudo".toList := by
    rintro r ⟨name, value, rfl⟩
    rfl
  intro r hr
  cases h with
  | building h => exact hbuilding r (h r hr)
  | rejected h name =>
    rcases List.mem_append.mp hr with hr | hr
    · exact hbuilding r (h r hr)
    · obtain rfl := List.mem_singleton.mp hr
      rfl

/-- Nothing is recorded behind a function that there is not. -/
theorem Interrupted.eq_nil_of_rejected {log front back : List LogRecord} {name : Text}
    (h : Interrupted log) (hlog : log = front ++ .rejectedFunction name :: back) : back = [] := by
  have hne : ∀ log : List LogRecord, (∀ r ∈ log, r.IsBuilding) →
      .rejectedFunction name ∉ log := by
    intro log h hmem
    obtain ⟨called, value, heq⟩ := h _ hmem
    cases heq
  cases h with
  | building h =>
    subst hlog
    exact absurd (List.mem_append_right _ List.mem_cons_self) (hne _ h)
  | @rejected built h other =>
    rcases List.eq_nil_or_concat back with rfl | ⟨init, last, rfl⟩
    · rfl
    · -- The record would stand in front of the last one.
      have hsplit : built ++ [.rejectedFunction other] =
          front ++ .rejectedFunction name :: init ++ [last] := by
        rw [hlog, List.concat_eq_append, List.append_assoc, List.cons_append]
      have hbuilt : built = front ++ .rejectedFunction name :: init :=
        (List.append_inj' hsplit rfl).1
      subst hbuilt
      exact absurd (List.mem_append_right _ List.mem_cons_self) (hne _ h)

/-! ## Computations -/

/-- The functions `before` were built before. Where the computation has a value, its records go on
to the functions of the value; otherwise they are those of a construction that was broken off. -/
structure Traced.Recounts {α : Type} (before : List PseudoFunction)
    (functions : α → List PseudoFunction) (t : Traced α) : Prop where
  ok : ∀ a, t.result = .ok a →
    before.map LogRecord.ofFunction ++ t.log = (functions a).map LogRecord.ofFunction
  error : ∀ f, t.result = .error f → Interrupted t.log

namespace Traced

variable {α β : Type} {before : List PseudoFunction} {functions : α → List PseudoFunction}
  {others : β → List PseudoFunction} {t : Traced α}

theorem recounts_value {a : α} (h : functions a = before) :
    (value a).Recounts before functions where
  ok b hb := by
    obtain rfl := Except.ok.inj hb
    rw [log_value, List.append_nil, h]
  error f hf := by cases hf

theorem recounts_error (e : SelectorError) : (error e).Recounts before functions where
  ok a ha := by cases ha
  error f hf := interrupted_nil

theorem recounts_ofExcept (r : Except SelectorError α) :
    (ofExcept r).Recounts [] fun _ => [] := by
  cases r with
  | ok a => exact recounts_value rfl
  | error e => exact recounts_error e

/-- The records behind those of `before`, where the value holds more functions by as many. -/
theorem Recounts.map {f : α → β} (h : t.Recounts [] functions)
    (hf : ∀ a, others (f a) = before ++ functions a) : (t.map f).Recounts before others where
  ok b hb := by
    obtain ⟨a, ha, rfl⟩ := result_map_eq_ok_iff.mp hb
    have hlog : t.log = (functions a).map LogRecord.ofFunction := h.ok a ha
    rw [hf, List.map_append, ← hlog]
    rfl
  error failure hfailure := h.error failure (result_of_map_error hfailure)

theorem Recounts.mapFailure (h : t.Recounts before functions) (f : Failure → Failure) :
    (t.mapFailure f).Recounts before functions where
  ok a ha := h.ok a (result_mapFailure_eq_ok_iff.mp ha)
  error failure hfailure := by
    obtain ⟨cause, hcause, -⟩ := result_of_mapFailure_error hfailure
    exact h.error cause hcause

/-- Where there is a value, functions were built and nothing else happened. -/
theorem Recounts.isBuilding {a : α} (h : t.Recounts before functions) (ha : t.result = .ok a) :
    ∀ r ∈ t.log, r.IsBuilding := by
  intro r hr
  have hmem : r ∈ (functions a).map LogRecord.ofFunction := by
    rw [← h.ok a ha]
    exact List.mem_append_right _ hr
  obtain ⟨f, -, rfl⟩ := List.mem_map.mp hmem
  exact ⟨f.name, f.value, rfl⟩

/-- Computations in a row recount what the last one comes to, if each goes on where the one before
it ended. -/
theorem Recounts.bind {next : α → Traced β} (h : t.Recounts before functions)
    (hnext : ∀ a, (next a).Recounts (functions a) others) :
    (t.bind next).Recounts before others := by
  cases hresult : t.result with
  | error failure =>
    have hbind : t.bind next = ⟨t.log, .error failure⟩ := by rw [Traced.bind, hresult]
    rw [hbind]
    exact ⟨nofun, fun _ _ => h.error failure hresult⟩
  | ok a =>
    have hbind : t.bind next = (next a).following t.log := by rw [Traced.bind, hresult]
    rw [hbind]
    constructor
    · intro b hb
      have hbehind := (hnext a).ok b hb
      rw [← h.ok a hresult] at hbehind
      rw [← hbehind, List.append_assoc]
      rfl
    · -- What came before has a value, so only the part behind it can end with a rejection.
      intro f hf
      exact .append (h.isBuilding hresult) ((hnext a).error f hf)

end Traced

/-! ## The grammar -/

namespace Grammar

variable {α β : Type} {s : Setting} {before : List PseudoFunction}
  {functions : α → List PseudoFunction} {others : β → List PseudoFunction} {tokens : List Token}

theorem Step.recounts_bind {step : Step α} {next : α → List Token → Step β}
    (h : step.outcome.Recounts before functions)
    (hnext : ∀ a, (next a step.rest).outcome.Recounts (functions a) others) :
    (step.bind next).outcome.Recounts before others := by
  have houtcome : (step.bind next).outcome =
      step.outcome.bind fun a => (next a step.rest).outcome := by
    cases hresult : step.outcome.result with
    | ok a => rw [Step.bind_of_ok hresult, Traced.bind, hresult]; rfl
    | error failure => rw [Step.bind_of_error hresult, Traced.bind, hresult]; rfl
  rw [houtcome]
  exact h.bind hnext

/-- A compound selector has the functions of the simple selectors that it is made of. -/
theorem compoundOr_recounts {e : SelectorError} {simples : List Simple} {rest : List Token}
    {next : Compound → Step β} (hnext : ∀ c, (next c).outcome.Recounts c.functions others) :
    (compoundOr e simples rest next).outcome.Recounts (simples.flatMap SimpleOf.functions)
      others := by
  cases simples with
  | nil => exact Traced.recounts_error e
  | cons first others => exact hnext ⟨first, others⟩

/-- Only pseudo-functions have functions. -/
theorem functions_of_unmarked {t : Token} {simple : Simple} (h : unmarked? t = some simple) :
    simple.functions = [] := by
  unfold unmarked? at h
  split at h <;> cases h <;> rfl

theorem named_recounts (marker name : Token) :
    (named s marker name).Recounts [] SimpleOf.functions := by
  unfold named
  dsimp only
  split
  · split
    · exact Traced.recounts_value rfl
    · exact Traced.recounts_error _
  · split
    · exact Traced.recounts_value rfl
    · split
      · exact Traced.recounts_value rfl
      · exact Traced.recounts_error _

section Layers

variable (hbuild : ∀ called arg, (s.build called arg).Recounts [] FunctionOf.functions)

include hbuild

theorem call_recounts (marker name : Token) (arg : Option Text) (start : Int) :
    (call s marker name arg start).Recounts [] SimpleOf.functions := by
  unfold call
  dsimp only
  split
  · exact Traced.recounts_error _
  · split
    · refine ((hbuild (calledBy name) arg).mapFailure _).map fun f => ?_
      simp [SimpleOf.functions]
    · exact Traced.recounts_error _

theorem pseudo_recounts (marker : Token) (tokens : List Token) :
    (pseudo s marker tokens).outcome.Recounts [] SimpleOf.functions := by
  unfold pseudo functional
  dsimp only
  split
  · split
    · split
      · exact call_recounts hbuild marker _ _ _
      · exact Traced.recounts_error _
    · exact named_recounts marker _
  · exact Traced.recounts_error _

theorem items_recounts (tokens : List Token) :
    (items s tokens).outcome.Recounts [] fun simples => simples.flatMap SimpleOf.functions := by
  induction hn : tokens.length using Nat.strongRecOn generalizing tokens with
  | _ n ih =>
    cases tokens with
    | nil =>
      rw [items]
      exact Traced.recounts_value rfl
    | cons t rest =>
      rw [List.length_cons] at hn
      rw [items_cons]
      cases hunmarked : unmarked? t with
      | some simple =>
        refine (ih rest.length (by omega) rest rfl).map fun simples => ?_
        rw [List.flatMap_cons, functions_of_unmarked hunmarked]
      | none =>
        by_cases hmarker : isMarker t.kind = true
        · have hshorter := length_rest_pseudo_le s t rest
          simp only [if_pos hmarker]
          refine Step.recounts_bind (pseudo_recounts hbuild t rest) fun simple => ?_
          exact (ih _ (by omega) (pseudo s t rest).rest rfl).map fun _ => List.flatMap_cons
        · simp only [if_neg hmarker]
          exact Traced.recounts_value rfl

theorem links_recounts (tokens : List Token) :
    (links s tokens).outcome.Recounts [] fun row =>
      row.flatMap fun l => l.compound.functions := by
  induction hn : tokens.length using Nat.strongRecOn generalizing tokens with
  | _ n ih =>
    cases tokens with
    | nil =>
      rw [links]
      exact Traced.recounts_value rfl
    | cons t rest =>
      rw [List.length_cons] at hn
      rw [links_cons]
      by_cases hkind : t.kind = .combinator
      · have hshorter := length_rest_items_le s rest
        rw [if_pos hkind]
        refine Step.recounts_bind (items_recounts hbuild rest) fun simples => ?_
        refine compoundOr_recounts fun c => ?_
        exact (ih _ (by omega) (items s rest).rest rfl).map fun _ => List.flatMap_cons
      · rw [if_neg hkind]
        exact Traced.recounts_value rfl

theorem complex_recounts (tokens : List Token) :
    (complex s tokens).outcome.Recounts [] Complex.functions := by
  rw [complex_eq]
  refine Step.recounts_bind (items_recounts hbuild tokens) fun simples => ?_
  refine compoundOr_recounts fun c => ?_
  exact (links_recounts hbuild _).map fun row => Complex.functions_eq ⟨c, row⟩

theorem members_recounts (tokens : List Token) :
    (members s tokens).outcome.Recounts [] fun others => others.flatMap Complex.functions := by
  induction hn : tokens.length using Nat.strongRecOn generalizing tokens with
  | _ n ih =>
    cases tokens with
    | nil =>
      rw [members]
      exact Traced.recounts_value rfl
    | cons t rest =>
      rw [List.length_cons] at hn
      rw [members_cons]
      by_cases hkind : t.kind = .comma
      · have hshorter := length_rest_complex_le s rest
        rw [if_pos hkind]
        refine Step.recounts_bind (complex_recounts hbuild rest) fun c => ?_
        exact (ih _ (by omega) (complex s rest).rest rfl).map fun _ => List.flatMap_cons
      · rw [if_neg hkind]
        exact Traced.recounts_value rfl

/-- The grammar recounts the functions of the selector that it reads. -/
theorem selector_recounts (tokens : List Token) :
    (selector s tokens).outcome.Recounts [] Selector.functions := by
  rw [selector_eq]
  refine Step.recounts_bind (complex_recounts hbuild tokens) fun first => ?_
  have hmembers : ((members s (complex s tokens).rest).map
      (Selector.ofMembers first)).outcome.Recounts first.functions Selector.functions :=
    (members_recounts hbuild _).map (Selector.functions_ofMembers first)
  refine Step.recounts_bind hmembers fun selector => ?_
  unfold valueAtEnd
  split
  · exact Traced.recounts_value rfl
  · exact Traced.recounts_error _

end Layers

end Grammar

/-! ## Functions -/

section Functions

variable {read : Text → Traced Selector} (hread : ∀ arg, (read arg).Recounts [] Selector.functions)

/-- The record that a function is being built stands in front of those of its argument. -/
private theorem recounts_recording {α : Type} {t : Traced α} {inner : α → List PseudoFunction}
    {name text : Text} {argument : α → Argument} (h : t.Recounts [] inner)
    (hwithin : ∀ a, FunctionOf.within ⟨name, text, argument a⟩ = inner a) :
    ((t.map fun a => (⟨name, text, argument a⟩ : PseudoFunction)).recording
      (.building name text)).Recounts [] FunctionOf.functions where
  ok f hf := by
    obtain ⟨a, ha, rfl⟩ := Traced.result_map_eq_ok_iff.mp hf
    have hlog : t.log = (inner a).map LogRecord.ofFunction := h.ok a ha
    show .building name text :: t.log = _
    rw [hlog, FunctionOf.functions, List.map_cons, hwithin]
    rfl
  error f hf := by
    have hbuilding : ∀ r ∈ [LogRecord.building name text], r.IsBuilding := by
      intro r hr
      exact ⟨name, text, List.mem_singleton.mp hr⟩
    exact .append hbuilding (h.error f (Traced.result_of_map_error hf))

include hread

theorem Negation.parse_recounts (name : Text) (value : Option Text) (context : Option Context) :
    (Negation.parse read name value context).Recounts []
      fun simple => simple.function.toList.map FunctionOf.ofPlain := by
  cases value with
  | none => exact Traced.recounts_error _
  | some v =>
    unfold Negation.parse
    dsimp only
    split
    · exact Traced.recounts_error _
    · -- A selector that is not accepted has been built, and its records stay.
      refine ((hread v).mapFailure _).bind fun s => ?_
      cases haccept : Negation.accept s with
      | ok simple => exact Traced.recounts_value (Negation.functions_of_accept haccept).symm
      | error objection => exact Traced.recounts_error _

/-- Building a function recounts it and the one within it. -/
theorem buildWith_recounts (name value : Option Text) (context : Option Context) :
    (buildWith read name value context).Recounts [] FunctionOf.functions := by
  cases name with
  | none => exact Traced.recounts_error _
  | some called =>
    cases called with
    | nil => exact Traced.recounts_error _
    | cons first rest =>
      unfold buildWith
      dsimp only
      cases FunctionKind.ofName? (first :: rest) with
      | none =>
        constructor
        · intro f hf
          cases hf
        · intro f _
          show Interrupted ([] ++ [.rejectedFunction (first :: rest)])
          refine .rejected (fun r hr => ?_) (first :: rest)
          cases hr
      | some kind =>
        cases kind with
        | lang => exact recounts_recording (Traced.recounts_ofExcept _) fun _ => rfl
        | nth kind => exact recounts_recording (Traced.recounts_ofExcept _) fun _ => rfl
        | negation => exact recounts_recording (Negation.parse_recounts hread _ _ _) fun _ => rfl

end Functions

/-! ## Selectors -/

namespace Selector

theorem parseWithin_recounts (depth : Nat) (context : Option Context) (source : Text) :
    (parseWithin depth context source).Recounts [] functions := by
  induction depth generalizing context source with
  | zero => exact Traced.recounts_error _
  | succ depth ih =>
    rw [parseWithin]
    split
    · exact Traced.recounts_error _
    · cases Token.ofSelector source with
      | error e => exact Traced.recounts_error e
      | ok tokens =>
        refine Grammar.selector_recounts (fun called arg => ?_) tokens
        exact buildWith_recounts (ih _) (some called) arg _

/-- The records that reading a selector leaves are those of its functions, or of a construction that
was broken off. -/
theorem parse?_recounts (context : Option Context) (source : Option Text) :
    (parse? context source).Recounts [] functions := by
  cases source with
  | none => exact Traced.recounts_error _
  | some text => exact parseWithin_recounts (depthFor text) context text

/-- Nothing is built for a text that cannot be cut into tokens. -/
theorem log_parse_of_malformed (context : Option Context) {source : Text} {e : SelectorError}
    (h : Token.ofSelector source = .error e) : (parse context source).log = [] := by
  rw [parse, depthFor, parseWithin]
  split
  · rfl
  · rw [h]
    rfl

end Selector

end SelectorCheck
