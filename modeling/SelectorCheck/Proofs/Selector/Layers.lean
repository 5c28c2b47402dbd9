import SelectorCheck.Selector.Grammar

/-!
# What the layers of the grammar yield

Each layer of the grammar is a case analysis of the tokens ahead. Where a
layer has a value, this file says what the tokens are, what the value is and
which tokens are left, once for each layer and in both directions. Failures
play no part in the layers; what is said about them holds of results of any
kind, and of pseudo names.

## Main definitions

* `Grammar.Step.Gives` — a step has a value and leaves these tokens.
* `Grammar.Step.Under` — a step comes to what another one does, under a function.

## Main results

* `Grammar.named_eq_ok_iff`, `Grammar.call_eq_ok_iff` — the pseudo names.
* `Grammar.named_eq_error`, `Grammar.call_eq_error` — how they fail.
* `Grammar.items_gives_iff`, `Grammar.links_gives_iff`,
  `Grammar.complex_gives_iff`, `Grammar.members_gives_iff`,
  `Grammar.selector_gives_iff` — the layers.
-/

namespace SelectorCheck.Traced

variable {α β : Type}

theorem result_map_eq_ok_iff {f : α → β} {t : Traced α} {b : β} :
    (t.map f).result = .ok b ↔ ∃ a, t.result = .ok a ∧ f a = b := by
  obtain ⟨log, e | a⟩ := t <;> simp [map, Except.map]

theorem result_mapFailure_eq_ok_iff {f : Failure → Failure} {t : Traced α} {a : α} :
    (t.mapFailure f).result = .ok a ↔ t.result = .ok a := by
  obtain ⟨log, e | b⟩ := t
  · constructor <;> intro h <;> cases h
  · exact Iff.rfl

theorem result_ofExcept_eq_ok_iff {r : Except SelectorError α} {a : α} :
    (ofExcept r).result = .ok a ↔ r = .ok a := by
  cases r <;> simp [ofExcept]

theorem result_ofExcept_eq_error_iff {r : Except SelectorError α} {f : Failure} :
    (ofExcept r).result = .error f ↔ ∃ e, r = .error e ∧ f = .ofError e := by
  cases r <;> simp [ofExcept, eq_comm]

/-! ## Failures -/

section Failures

variable {t : Traced α} {f : Failure}

theorem result_of_map_error {g : α → β} (h : (t.map g).result = .error f) :
    t.result = .error f := by
  obtain ⟨log, e | a⟩ := t
  · cases h
    rfl
  · cases h

theorem result_of_mapFailure_error {g : Failure → Failure}
    (h : (t.mapFailure g).result = .error f) : ∃ cause, t.result = .error cause ∧ g cause = f := by
  obtain ⟨log, e | a⟩ := t
  · cases h
    exact ⟨e, rfl, rfl⟩
  · cases h

theorem error_of_ofExcept {r : Except SelectorError α}
    (h : (Traced.ofExcept r).result = .error f) : r = .error f.error := by
  cases r with
  | error e =>
    cases h
    rfl
  | ok a => cases h

/-- A chain fails where its first link does, or behind it. -/
theorem result_of_bind_error {g : α → Traced β} (h : (t.bind g).result = .error f) :
    t.result = .error f ∨ ∃ a, t.result = .ok a ∧ (g a).result = .error f := by
  unfold bind at h
  cases hresult : t.result with
  | error e =>
    rw [hresult] at h
    cases h
    exact .inl rfl
  | ok a =>
    rw [hresult] at h
    exact .inr ⟨a, rfl, h⟩

end Failures

end SelectorCheck.Traced

namespace SelectorCheck.Grammar

open Traced

variable {α β : Type}

/-! ## Steps -/

namespace Step

/-- The step has the value `a` and leaves the tokens `rest`. -/
def Gives (step : Step α) (a : α) (rest : List Token) : Prop :=
  step.outcome.result = .ok a ∧ step.rest = rest

variable {step : Step α} {next : Step β} {a a' : α} {b : β} {rest behind : List Token}

@[simp] theorem gives_value : (value rest a).Gives a' behind ↔ a = a' ∧ rest = behind := by
  simp [Gives, value]

@[simp] theorem not_gives_error {e : SelectorError} : ¬ (error rest e : Step α).Gives a behind := by
  simp [Gives, error]

@[simp] theorem not_gives_stop {failure : Failure} :
    ¬ (step.stop failure : Step β).Gives b behind := by
  simp [Gives, stop]

@[simp] theorem gives_before : (step.before next).Gives b behind ↔ next.Gives b behind := by
  simp [Gives, before]

theorem gives_map {f : α → β} :
    (step.map f).Gives b behind ↔ ∃ a, step.Gives a behind ∧ f a = b := by
  obtain ⟨rest, log, e | a⟩ := step
  · simp [Gives, map, Traced.map, Except.map]
  · simp only [Gives, map, Traced.map, Except.map, Except.ok.injEq]
    constructor
    · rintro ⟨hb, hrest⟩
      exact ⟨a, ⟨rfl, hrest⟩, hb⟩
    · rintro ⟨_, ⟨rfl, hrest⟩, hb⟩
      exact ⟨hb, hrest⟩

/-- A step that has a value gives that value only. -/
theorem gives_iff_of_ok (h : step.outcome.result = .ok a) :
    step.Gives a' behind ↔ a = a' ∧ step.rest = behind := by
  rw [Gives, h, Except.ok.injEq]

theorem not_gives_of_error {failure : Failure} (h : step.outcome.result = .error failure) :
    ¬ step.Gives a behind := by
  simp [Gives, h]

/-- The step `image` comes to what `step` comes to, under `f`, and leaves the same tokens. What they
record may differ. -/
structure Under (f : α → β) (step : Step α) (image : Step β) : Prop where
  rest : image.rest = step.rest
  result : image.outcome.result = step.outcome.result.map f

section Under

variable {γ δ : Type} {f : α → β} {image : Step β}

theorem under_refl {f : α → α} (hf : ∀ a, f a = a) : step.Under f step := by
  refine ⟨rfl, ?_⟩
  cases step.outcome.result with
  | ok a => rw [Except.map, hf]
  | error failure => rfl

theorem Under.trans {g : β → γ} {last : Step γ} (h : step.Under f image)
    (hlast : image.Under g last) : step.Under (g ∘ f) last := by
  refine ⟨hlast.rest.trans h.rest, ?_⟩
  rw [hlast.result, h.result]
  cases step.outcome.result <;> rfl

/-- A step under a function. -/
theorem under_map (f : α → β) (step : Step α) : step.Under f (step.map f) := ⟨rfl, rfl⟩

theorem Under.map {g : α → γ} {g' : β → δ} {f' : γ → δ} (h : step.Under f image)
    (hg : ∀ a, g' (f a) = f' (g a)) : (step.map g).Under f' (image.map g') := by
  obtain ⟨rest, log, result⟩ := step
  obtain ⟨rest', log', result'⟩ := image
  obtain ⟨hrest, hresult⟩ := h
  cases hresult
  refine ⟨hrest, ?_⟩
  cases result with
  | ok a => exact congrArg Except.ok (hg a)
  | error failure => rfl

theorem Under.gives (h : step.Under f image) (hstep : step.Gives a rest) :
    image.Gives (f a) rest := by
  refine ⟨?_, h.rest.trans hstep.2⟩
  rw [h.result, hstep.1]
  rfl

end Under

end Step

variable {s : Setting} {tokens behind : List Token}

@[simp] theorem peek_cons (t : Token) (rest : List Token) : peek (t :: rest) = t := rfl

/-- A token that is not the end is there. -/
theorem eq_cons_of_peek {kind : TokenKind} (h : (peek tokens).kind = kind) (hkind : kind ≠ .eof) :
    ∃ t rest, tokens = t :: rest ∧ t.kind = kind := by
  cases tokens with
  | nil => exact absurd h.symm hkind
  | cons t rest => exact ⟨t, rest, rfl, h⟩

/-! ## Pseudo names -/

/-- The three ways in which a name can stand behind colons without an argument. -/
theorem named_eq_ok_iff {marker name : Token} {simple : Simple} :
    (named s marker name).result = .ok simple ↔
      (marker.kind = .doubleColon ∧ s.context.level.admitsElement (calledBy name) = true ∧
        ⟨.pseudoElement, some (calledBy name), none, none, marker.pos⟩ = simple) ∨
      (marker.kind ≠ .doubleColon ∧ s.context.level.admitsClass (calledBy name) = true ∧
        ⟨.pseudoClass, some (calledBy name), none, none, marker.pos⟩ = simple) ∨
      (marker.kind ≠ .doubleColon ∧ s.context.level.admitsClass (calledBy name) = false ∧
        s.context.level.admitsLegacyElement (calledBy name) = true ∧
        ⟨.pseudoElement, some (calledBy name), none, none, marker.pos⟩ = simple) := by
  unfold named
  by_cases hdouble : marker.kind = .doubleColon
  · by_cases helement : s.context.level.admitsElement (calledBy name) = true
    · simp [hdouble, helement]
    · simp [hdouble, helement]
  · by_cases hclass : s.context.level.admitsClass (calledBy name) = true
    · simp [hdouble, hclass]
    · by_cases hlegacy : s.context.level.admitsLegacyElement (calledBy name) = true
      · simp [hdouble, hclass, hlegacy]
      · simp [hdouble, hclass, hlegacy]

/-- A function stands behind a single colon, and it is built. -/
theorem call_eq_ok_iff {marker name : Token} {arg : Option Text} {start : Int} {simple : Simple} :
    (call s marker name arg start).result = .ok simple ↔
      marker.kind ≠ .doubleColon ∧ s.context.level.admitsFunction (calledBy name) = true ∧
        ∃ f, (s.build (calledBy name) arg).result = .ok f ∧
          ⟨.pseudoFunction, some (calledBy name), arg, some f, marker.pos⟩ = simple := by
  unfold call
  by_cases hdouble : marker.kind = .doubleColon
  · simp [hdouble]
  · by_cases hfunction : s.context.level.admitsFunction (calledBy name) = true
    · simp [hdouble, hfunction, result_map_eq_ok_iff, result_mapFailure_eq_ok_iff]
    · simp [hdouble, hfunction]

/-- Without an argument, a name fails by not being admitted. -/
theorem named_eq_error {marker name : Token} {f : Failure}
    (h : (named s marker name).result = .error f) :
    ∃ code : ErrorCode, code.errorClass = .unknownName ∧
      f = .ofError (unknownName s code (calledBy name) name) := by
  unfold named at h
  dsimp only at h
  split at h
  · split at h <;> cases h
    exact ⟨_, rfl, rfl⟩
  · split at h
    · cases h
    · split at h <;> cases h
      exact ⟨_, rfl, rfl⟩

/-- With an argument, a name fails by not being admitted, or the function is not built. -/
theorem call_eq_error {marker name : Token} {arg : Option Text} {start : Int} {f : Failure}
    (h : (call s marker name arg start).result = .error f) :
    (∃ code : ErrorCode, code.errorClass = .unknownName ∧
        f = .ofError (unknownName s code (calledBy name) name)) ∨
      ∃ cause, (s.build (calledBy name) arg).result = .error cause ∧
        f = cause.relocated start := by
  unfold call at h
  dsimp only at h
  split at h
  · cases h
    exact .inl ⟨_, rfl, rfl⟩
  · split at h
    · obtain ⟨cause, hcause, rfl⟩ := result_of_mapFailure_error (result_of_map_error h)
      exact .inr ⟨cause, hcause, rfl⟩
    · cases h
      exact .inl ⟨_, rfl, rfl⟩

/-- A name that no parenthesis follows. -/
theorem pseudo_named {marker name : Token} (hname : name.kind = .tag)
    (hbare : (peek tokens).kind ≠ .parenOpen) :
    pseudo s marker (name :: tokens) = ⟨tokens, named s marker name⟩ := by
  have htag : (peek (name :: tokens)).kind = .tag := hname
  rw [pseudo, if_pos htag, List.tail_cons, if_neg hbare, peek_cons]

/-- A name with an argument in parentheses behind it. -/
theorem pseudo_call {marker name paren close : Token} {arg : Option Text} {start : Int}
    (hname : name.kind = .tag) (hparen : paren.kind = .parenOpen)
    (hclose : close.kind = .parenClose) (h : enclosed paren tokens = ⟨arg, start, close :: behind⟩) :
    pseudo s marker (name :: paren :: tokens) = ⟨behind, call s marker name arg start⟩ := by
  have htag : (peek (name :: paren :: tokens)).kind = .tag := hname
  have hopen : (peek (name :: paren :: tokens).tail).kind = .parenOpen := hparen
  have hpeek : (peek (close :: behind)).kind = .parenClose := hclose
  rw [pseudo, if_pos htag, if_pos hopen]
  show functional s marker name paren tokens = _
  simp only [functional, h, hpeek, if_true, List.tail_cons]

/-- Behind the colons stands a name, and with a parenthesis behind it an argument. -/
theorem pseudo_gives_iff {marker : Token} {simple : Simple} :
    (pseudo s marker tokens).Gives simple behind ↔
      ∃ name rest, tokens = name :: rest ∧ name.kind = .tag ∧
        (((peek rest).kind ≠ .parenOpen ∧ (named s marker name).result = .ok simple ∧
            rest = behind) ∨
          ((peek rest).kind = .parenOpen ∧
            (functional s marker name (peek rest) rest.tail).Gives simple behind)) := by
  unfold pseudo
  by_cases htag : (peek tokens).kind = .tag
  · obtain ⟨name, rest, rfl, hname⟩ := eq_cons_of_peek htag (by decide)
    rw [if_pos htag, peek_cons, List.tail_cons]
    by_cases hparen : (peek rest).kind = .parenOpen
    · rw [if_pos hparen]
      constructor
      · intro h
        exact ⟨name, rest, rfl, hname, .inr ⟨hparen, h⟩⟩
      · rintro ⟨_, _, heq, -, ⟨hbare, -⟩ | ⟨-, h⟩⟩
        · cases heq
          exact absurd hparen hbare
        · cases heq
          exact h
    · rw [if_neg hparen]
      constructor
      · rintro ⟨h, hrest⟩
        exact ⟨name, rest, rfl, hname, .inl ⟨hparen, h, hrest⟩⟩
      · rintro ⟨_, _, heq, -, ⟨-, h, hrest⟩ | ⟨hopen, -⟩⟩
        · cases heq
          exact ⟨h, hrest⟩
        · cases heq
          exact absurd hopen hparen
  · rw [if_neg htag]
    constructor
    · intro h
      exact absurd h Step.not_gives_error
    · rintro ⟨name, rest, rfl, hname, -⟩
      exact absurd hname htag

/-! ## Layers -/

/-- A run of items is an item and a run, or it ends. -/
theorem items_gives_iff {t : Token} {rest : List Token} {simples : List Simple} :
    (items s (t :: rest)).Gives simples behind ↔
      (∃ simple others, unmarked? t = some simple ∧ (items s rest).Gives others behind ∧
        simple :: others = simples) ∨
      (unmarked? t = none ∧ isMarker t.kind = true ∧
        ∃ simple others middle, (pseudo s t rest).Gives simple middle ∧
          (items s middle).Gives others behind ∧ simple :: others = simples) ∨
      (unmarked? t = none ∧ isMarker t.kind = false ∧ [] = simples ∧ t :: rest = behind) := by
  rw [items]
  cases hunmarked : unmarked? t with
  | some simple => simp [Step.gives_map]
  | none =>
    by_cases hmarker : isMarker t.kind = true
    · cases hpseudo : (pseudo s t rest).outcome.result with
      | error failure => simp [hmarker, hpseudo, Step.not_gives_of_error hpseudo]
      | ok simple =>
        simp only [hmarker, hpseudo, Step.gives_iff_of_ok hpseudo, Step.gives_before,
          Step.gives_map, if_true, true_and, reduceCtorEq, false_and, exists_false, or_false,
          false_or, Bool.true_eq_false]
        constructor
        · rintro ⟨others, hothers, heq⟩
          exact ⟨simple, others, _, ⟨rfl, rfl⟩, hothers, heq⟩
        · rintro ⟨_, others, _, ⟨rfl, rfl⟩, hothers, heq⟩
          exact ⟨others, hothers, heq⟩
    · simp [hmarker]

/-- The tokens ahead begin with the items of a compound selector. -/
def GivesCompound (s : Setting) (tokens : List Token) (c : Compound) (behind : List Token) : Prop :=
  (items s tokens).Gives c.simples behind

theorem givesCompound_iff_of_ok {first : Simple} {simples : List Simple} {c : Compound}
    (h : (items s tokens).outcome.result = .ok (first :: simples)) :
    GivesCompound s tokens c behind ↔ ⟨first, simples⟩ = c ∧ (items s tokens).rest = behind := by
  obtain ⟨head, others⟩ := c
  rw [GivesCompound, Step.gives_iff_of_ok h, Compound.simples, List.cons.injEq, Compound.mk.injEq]

theorem not_givesCompound_of_nil {c : Compound} (h : (items s tokens).outcome.result = .ok []) :
    ¬ GivesCompound s tokens c behind := by
  rw [GivesCompound, Step.gives_iff_of_ok h]
  rintro ⟨hnil, -⟩
  cases hnil

theorem not_givesCompound_of_error {c : Compound} {failure : Failure}
    (h : (items s tokens).outcome.result = .error failure) :
    ¬ GivesCompound s tokens c behind :=
  Step.not_gives_of_error h

/-- A row of links is a link and a row, or it ends. -/
theorem links_gives_iff {t : Token} {rest : List Token} {row : List Link} :
    (links s (t :: rest)).Gives row behind ↔
      (t.kind = .combinator ∧ ∃ c middle others, GivesCompound s rest c middle ∧
        (links s middle).Gives others behind ∧ ⟨t.value, c⟩ :: others = row) ∨
      (t.kind ≠ .combinator ∧ [] = row ∧ t :: rest = behind) := by
  rw [links]
  by_cases hcombinator : t.kind = .combinator
  · cases hitems : (items s rest).outcome.result with
    | error failure => simp [hcombinator, hitems, not_givesCompound_of_error hitems]
    | ok simples =>
      cases simples with
      | nil => simp [hcombinator, hitems, not_givesCompound_of_nil hitems]
      | cons first simples =>
        simp only [hcombinator, hitems, givesCompound_iff_of_ok hitems, Step.gives_before,
          Step.gives_map, if_true, true_and, ne_eq, not_true_eq_false, false_and, or_false]
        constructor
        · rintro ⟨others, hothers, heq⟩
          exact ⟨_, _, others, ⟨rfl, rfl⟩, hothers, heq⟩
        · rintro ⟨_, _, others, ⟨rfl, rfl⟩, hothers, heq⟩
          exact ⟨others, hothers, heq⟩
  · simp [hcombinator]

/-- A complex selector is a compound selector and a row of links. -/
theorem complex_gives_iff {c : Complex} :
    (complex s tokens).Gives c behind ↔
      ∃ middle, GivesCompound s tokens c.first middle ∧ (links s middle).Gives c.links behind := by
  unfold complex
  cases hitems : (items s tokens).outcome.result with
  | error failure => simp [hitems, not_givesCompound_of_error hitems]
  | ok simples =>
    cases simples with
    | nil => simp [hitems, not_givesCompound_of_nil hitems]
    | cons first simples =>
      simp only [hitems, givesCompound_iff_of_ok hitems, Step.gives_before, Step.gives_map]
      constructor
      · rintro ⟨row, hrow, rfl⟩
        exact ⟨_, ⟨rfl, rfl⟩, hrow⟩
      · rintro ⟨_, ⟨hfirst, rfl⟩, hrow⟩
        refine ⟨c.links, hrow, ?_⟩
        rw [hfirst]

/-- The further members of a list are one behind a comma and the others, or there are none. -/
theorem members_gives_iff {t : Token} {rest : List Token} {all : List Complex} :
    (members s (t :: rest)).Gives all behind ↔
      (t.kind = .comma ∧ ∃ c middle others, (complex s rest).Gives c middle ∧
        (members s middle).Gives others behind ∧ c :: others = all) ∨
      (t.kind ≠ .comma ∧ [] = all ∧ t :: rest = behind) := by
  rw [members]
  by_cases hcomma : t.kind = .comma
  · cases hcomplex : (complex s rest).outcome.result with
    | error failure => simp [hcomma, hcomplex, Step.not_gives_of_error hcomplex]
    | ok c =>
      simp only [hcomma, hcomplex, Step.gives_iff_of_ok hcomplex, Step.gives_before,
        Step.gives_map, if_true, true_and, ne_eq, not_true_eq_false, false_and, or_false]
      constructor
      · rintro ⟨others, hothers, heq⟩
        exact ⟨c, _, others, ⟨rfl, rfl⟩, hothers, heq⟩
      · rintro ⟨_, _, others, ⟨rfl, rfl⟩, hothers, heq⟩
        exact ⟨others, hothers, heq⟩
  · simp [hcomma]

private theorem ending_gives_iff {step : Step α} {a : α} :
    (ending s step).Gives a behind ↔ step.Gives a behind ∧ (peek behind).kind = .eof := by
  unfold ending
  cases hstep : step.outcome.result with
  | error failure => simp [Step.not_gives_of_error hstep]
  | ok value =>
    by_cases heof : (peek step.rest).kind = .eof
    · simp only [heof, if_true, Step.gives_iff_of_ok hstep]
      constructor
      · rintro ⟨rfl, rfl⟩
        exact ⟨⟨rfl, rfl⟩, heof⟩
      · rintro ⟨h, -⟩
        exact h
    · simp only [heof, if_false, Step.gives_before, Step.not_gives_error,
        Step.gives_iff_of_ok hstep, false_iff]
      rintro ⟨⟨-, rfl⟩, hend⟩
      exact heof hend

/-- A selector is a complex selector with further members in front of the end. -/
theorem selector_gives_iff {selector : Selector} :
    (Grammar.selector s tokens).Gives selector behind ↔
      ∃ first middle others, (complex s tokens).Gives first middle ∧
        (members s middle).Gives others behind ∧ (peek behind).kind = .eof ∧
        .ofMembers first others = selector := by
  unfold Grammar.selector
  cases hcomplex : (complex s tokens).outcome.result with
  | error failure => simp [hcomplex, Step.not_gives_of_error hcomplex]
  | ok first =>
    simp only [hcomplex, ending_gives_iff, Step.gives_before, Step.gives_map,
      Step.gives_iff_of_ok hcomplex]
    constructor
    · rintro ⟨⟨others, hothers, heq⟩, heof⟩
      exact ⟨first, _, others, ⟨rfl, rfl⟩, hothers, heof, heq⟩
    · rintro ⟨_, _, others, ⟨rfl, rfl⟩, hothers, heof, heq⟩
      exact ⟨⟨others, hothers, heq⟩, heof⟩

end SelectorCheck.Grammar
