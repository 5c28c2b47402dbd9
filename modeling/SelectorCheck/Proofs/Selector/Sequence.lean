import SelectorCheck.Proofs.Selector.Layers

/-!
# Layers of the grammar as sequences of steps

Every layer of the grammar does a step, gives up if the step fails, and goes on
with the value of the step on the tokens that it left. Said once, as the
sequence of a step and what depends on its value, this turns the layers into
equations without a case analysis of results in them.

## Main definitions

* `Grammar.Step.bind` — a step and what is done with its value.

## Main results

* `Grammar.items_cons`, `Grammar.links_cons`, `Grammar.complex_eq`,
  `Grammar.members_cons`, `Grammar.selector_eq` — the layers as sequences.
-/

namespace SelectorCheck.Grammar

variable {α β : Type} {s : Setting}

namespace Step

/-- A step, and what is done with its value on the tokens that it left. -/
def bind (step : Step α) (next : α → List Token → Step β) : Step β :=
  match step.outcome.result with
  | .ok a => step.before (next a step.rest)
  | .error failure => step.stop failure

variable {step : Step α} {next : α → List Token → Step β}

theorem bind_of_ok {a : α} (h : step.outcome.result = .ok a) :
    step.bind next = step.before (next a step.rest) := by
  rw [bind, h]

theorem bind_of_error {failure : Failure} (h : step.outcome.result = .error failure) :
    step.bind next = step.stop failure := by
  rw [bind, h]

/-- What a step is before is part of the sequence. -/
theorem bind_before {γ : Type} (first : Step γ) :
    (first.before step).bind next = first.before (step.bind next) := by
  cases hstep : step.outcome.result with
  | ok a =>
    have hbefore : (first.before step).outcome.result = .ok a := hstep
    rw [bind_of_ok hbefore, bind_of_ok hstep]
    simp [before, Traced.following]
  | error failure =>
    have hbefore : (first.before step).outcome.result = .error failure := hstep
    rw [bind_of_error hbefore, bind_of_error hstep]
    rfl

/-- A sequence whose second part is a value is the first part under a function. -/
theorem bind_value {f : α → β}
    (h : ∀ a, next a step.rest = .value step.rest (f a)) : step.bind next = step.map f := by
  obtain ⟨rest, log, result⟩ := step
  cases result with
  | error failure => rfl
  | ok a =>
    rw [bind_of_ok rfl, h]
    simp [before, value, map, Traced.following, Traced.map, Traced.value, Except.map]

theorem bind_map {γ : Type} {behind : β → List Token → Step γ} (f : α → β) :
    (step.map f).bind behind = step.bind fun a rest => behind (f a) rest := by
  obtain ⟨rest, log, result⟩ := step
  cases result <;> rfl

theorem bind_assoc {γ : Type} {behind : β → List Token → Step γ} :
    (step.bind next).bind behind = step.bind fun a rest => (next a rest).bind behind := by
  cases hstep : step.outcome.result with
  | ok a => rw [bind_of_ok hstep, bind_of_ok hstep, bind_before]
  | error failure =>
    rw [bind_of_error hstep, bind_of_error hstep]
    rfl

theorem map_bind {γ : Type} (f : β → γ) :
    (step.bind next).map f = step.bind fun a rest => (next a rest).map f := by
  obtain ⟨rest, log, result⟩ := step
  cases result <;> rfl

/-- A sequence comes to what its second part does, if the first part has a value. -/
theorem under_bind {a : α} {rest : List Token} (h : step.Gives a rest)
    (next : α → List Token → Step β) : (next a rest).Under id (step.bind next) := by
  obtain ⟨hresult, rfl⟩ := h
  rw [bind_of_ok hresult]
  refine ⟨rfl, ?_⟩
  show (next a step.rest).outcome.result = _
  cases (next a step.rest).outcome.result <;> rfl

/-- Sequences come to the same if their parts do. -/
theorem Under.bind {γ δ : Type} {f : α → γ} {f' : β → δ} {image : Step γ}
    {next' : γ → List Token → Step δ} (h : step.Under f image)
    (hnext : ∀ a, (next a step.rest).Under f' (next' (f a) step.rest)) :
    (step.bind next).Under f' (image.bind next') := by
  obtain ⟨rest, log, result⟩ := step
  obtain ⟨rest', log', result'⟩ := image
  obtain ⟨hrest, hresult⟩ := h
  cases hrest
  cases hresult
  cases result with
  | error failure => exact ⟨rfl, rfl⟩
  | ok a => exact ⟨(hnext a).rest, (hnext a).result⟩

end Step

/-! ## The layers -/

/-- What is done with the compound selector that items make up. If there are none it is missing. -/
def compoundOr (e : SelectorError) (simples : List Simple) (rest : List Token)
    (next : Compound → Step β) : Step β :=
  match simples with
  | [] => .error rest e
  | first :: others => next ⟨first, others⟩

theorem items_cons (t : Token) (rest : List Token) :
    items s (t :: rest) =
      match unmarked? t with
      | some simple => (items s rest).map (simple :: ·)
      | none =>
        if isMarker t.kind then
          (pseudo s t rest).bind fun simple rest => (items s rest).map (simple :: ·)
        else .value (t :: rest) [] := by
  rw [items]
  cases unmarked? t with
  | some simple => rfl
  | none =>
    by_cases hmarker : isMarker t.kind = true
    · cases hstep : (pseudo s t rest).outcome.result with
      | ok simple => simp only [hmarker, if_true, hstep, Step.bind_of_ok hstep]
      | error failure => simp only [hmarker, if_true, hstep, Step.bind_of_error hstep]
    · rw [if_neg hmarker, if_neg hmarker]

theorem links_cons (t : Token) (rest : List Token) :
    links s (t :: rest) =
      if t.kind = .combinator then
        (items s rest).bind fun simples rest =>
          compoundOr (dangling s t) simples rest fun c =>
            (links s rest).map (⟨t.value, c⟩ :: ·)
      else .value (t :: rest) [] := by
  rw [links]
  by_cases hkind : t.kind = .combinator
  · cases hstep : (items s rest).outcome.result with
    | ok simples =>
      rw [if_pos hkind, if_pos hkind, Step.bind_of_ok hstep]
      cases simples <;> simp only [hstep, compoundOr]
    | error failure => simp only [hkind, if_true, hstep, Step.bind_of_error hstep]
  · rw [if_neg hkind, if_neg hkind]

/-- Links end where no combinator is ahead. -/
theorem links_of_ne {tokens : List Token} (h : (peek tokens).kind ≠ .combinator) :
    links s tokens = .value tokens [] := by
  cases tokens with
  | nil => rw [links]
  | cons t rest => rw [links_cons, if_neg (by exact h)]

theorem complex_eq (tokens : List Token) :
    complex s tokens =
      (items s tokens).bind fun simples rest =>
        compoundOr (unexpected s (peek rest)) simples rest fun c =>
          (links s rest).map fun row => ⟨c, row⟩ := by
  unfold complex
  cases hstep : (items s tokens).outcome.result with
  | ok simples =>
    rw [Step.bind_of_ok hstep]
    cases simples <;> simp only [hstep, compoundOr]
  | error failure => simp only [hstep, Step.bind_of_error hstep]

theorem members_cons (t : Token) (rest : List Token) :
    members s (t :: rest) =
      if t.kind = .comma then
        (complex s rest).bind fun c rest => (members s rest).map (c :: ·)
      else .value (t :: rest) [] := by
  rw [members]
  by_cases hkind : t.kind = .comma
  · cases hstep : (complex s rest).outcome.result with
    | ok c => simp only [hkind, if_true, hstep, Step.bind_of_ok hstep]
    | error failure => simp only [hkind, if_true, hstep, Step.bind_of_error hstep]
  · rw [if_neg hkind, if_neg hkind]

/-- Members end where no comma is ahead. -/
theorem members_of_ne {tokens : List Token} (h : (peek tokens).kind ≠ .comma) :
    members s tokens = .value tokens [] := by
  cases tokens with
  | nil => rw [members]
  | cons t rest => rw [members_cons, if_neg (by exact h)]

/-- The value if the end is ahead. -/
def valueAtEnd (s : Setting) (a : α) (rest : List Token) : Step α :=
  if (peek rest).kind = .eof then .value rest a else .error rest (unexpected s (peek rest))

theorem ending_eq (step : Step α) : ending s step = step.bind (valueAtEnd s) := by
  unfold ending
  cases hstep : step.outcome.result with
  | ok a =>
    rw [Step.bind_of_ok hstep]
    by_cases heof : (peek step.rest).kind = .eof
    · simp only [heof, if_true, valueAtEnd]
      obtain ⟨rest, log, result⟩ := step
      cases hstep
      simp [Step.before, Step.value, Traced.following, Traced.value]
    · simp only [heof, if_false, valueAtEnd]
  | error failure =>
    rw [Step.bind_of_error hstep]
    obtain ⟨rest, log, result⟩ := step
    cases hstep
    rfl

theorem selector_eq (tokens : List Token) :
    selector s tokens =
      (complex s tokens).bind fun first rest =>
        ((members s rest).map (Selector.ofMembers first)).bind (valueAtEnd s) := by
  unfold selector
  cases hstep : (complex s tokens).outcome.result with
  | ok first => simp only [hstep, ending_eq, Step.bind_before, Step.bind_of_ok hstep]
  | error failure => simp only [hstep, Step.bind_of_error hstep]

end SelectorCheck.Grammar
