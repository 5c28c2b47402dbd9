import SelectorCheck.Proofs.Selector.Sequence

/-!
# Rounds of the grammar

Three layers of the grammar are loops. Items go on as long as a simple selector is
ahead, links as long as a combinator is, and members as long as a comma is. One
round reads one element, and it takes a token at least, also where it fails. So the
rounds are over when the tokens are, if not before, whatever the tokens are; the end
that the lexer puts behind them is not needed for that.

## Main definitions

* `Grammar.loop` — a number of rounds, one after the other.
* `Grammar.Loops` — a layer that is a loop, each round of which makes progress.
* `Grammar.itemsRound`, `Grammar.linksRound`, `Grammar.membersRound` — the rounds.

## Main results

* `Grammar.items_loops`, `Grammar.links_loops`, `Grammar.members_loops` — these
  layers are loops.
-/

namespace SelectorCheck.Grammar

variable {α β : Type}

/-! ## Loops -/

/-- What the rounds read, one after the other, each on the tokens that the last one left. There is
no round where the loop ends. If the rounds do not suffice for that, nothing comes of them. -/
def loop (round : Token → List Token → Option (Step α)) :
    (rounds : Nat) → List Token → Option (Step (List α))
  | 0, _ => none
  | _ + 1, [] => some (.value [] [])
  | rounds + 1, t :: rest =>
    match round t rest with
    | none => some (.value (t :: rest) [])
    | some step =>
      match step.outcome.result with
      | .ok a => (loop round rounds step.rest).map fun others => step.before (others.map (a :: ·))
      | .error failure => some (step.stop failure)

/-- The layer `whole` is a loop, and each round of it makes progress. -/
structure Loops (round : Token → List Token → Option (Step α))
    (whole : List Token → Step (List α)) : Prop where
  /-- A round leaves fewer tokens than there were, whether it fails or not. -/
  progress : ∀ t rest step, round t rest = some step → step.rest.length < (t :: rest).length
  /-- As many rounds as there are tokens, and one more to find the end, come to what the layer comes
  to. -/
  ends : ∀ rounds tokens, tokens.length < rounds → loop round rounds tokens = some (whole tokens)

/-- A layer that is a round and the layer again is a loop, if rounds make progress. -/
theorem Loops.of_cons {round : Token → List Token → Option (Step α)}
    {whole : List Token → Step (List α)}
    (hprogress : ∀ t rest step, round t rest = some step → step.rest.length ≤ rest.length)
    (hnil : whole [] = .value [] [])
    (hcons : ∀ t rest, whole (t :: rest) =
      match round t rest with
      | none => .value (t :: rest) []
      | some step => step.bind fun a rest => (whole rest).map (a :: ·)) :
    Loops round whole := by
  refine ⟨fun t rest step h => Nat.lt_succ_of_le (hprogress t rest step h), fun rounds => ?_⟩
  induction rounds with
  | zero => exact fun _ h => absurd h (Nat.not_lt_zero _)
  | succ rounds ih =>
    intro tokens h
    cases tokens with
    | nil => rw [loop, hnil]
    | cons t rest =>
      rw [loop, hcons]
      cases hround : round t rest with
      | none => rfl
      | some step =>
        -- The round has taken a token, so the rounds behind it still suffice.
        have hshorter := hprogress t rest step hround
        have hbehind := ih step.rest (Nat.lt_of_le_of_lt hshorter (Nat.lt_of_succ_lt_succ h))
        dsimp only
        cases hresult : step.outcome.result with
        | ok a =>
          rw [hbehind, Step.bind_of_ok hresult]
          rfl
        | error failure => rw [Step.bind_of_error hresult]

/-! ## Steps -/

namespace Step

/-- A sequence leaves what its first part does, if its second part leaves that alone. -/
theorem rest_bind_of_same {step : Step α} {next : α → List Token → Step β}
    (h : ∀ a, (next a step.rest).rest = step.rest) : (step.bind next).rest = step.rest := by
  cases hresult : step.outcome.result with
  | ok a => rw [bind_of_ok hresult, rest_before, h]
  | error failure => rw [bind_of_error hresult, rest_stop]

end Step

/-! ## The layers -/

section Layers

variable (s : Setting)

/-- One simple selector. -/
def itemsRound (t : Token) (rest : List Token) : Option (Step Simple) :=
  match unmarked? t with
  | some simple => some (.value rest simple)
  | none => if isMarker t.kind then some (pseudo s t rest) else none

/-- A combinator and the compound selector behind it. -/
def linksRound (t : Token) (rest : List Token) : Option (Step Link) :=
  if t.kind = .combinator then
    some ((items s rest).bind fun simples rest =>
      compoundOr (dangling s t) simples rest fun c => .value rest ⟨t.value, c⟩)
  else none

/-- A comma and the complex selector behind it. -/
def membersRound (t : Token) (rest : List Token) : Option (Step Complex) :=
  if t.kind = .comma then some (complex s rest) else none

theorem items_loops : Loops (itemsRound s) (items s) := by
  refine .of_cons (fun t rest step hround => ?_) (by rw [items]) fun t rest => ?_
  · unfold itemsRound at hround
    split at hround
    · cases hround
      exact Nat.le_refl _
    · split at hround <;> cases hround
      exact length_rest_pseudo_le s t rest
  · rw [items_cons, itemsRound]
    cases unmarked? t with
    | some simple => rfl
    | none =>
      by_cases hmarker : isMarker t.kind = true
      · simp only [if_pos hmarker]
      · simp only [if_neg hmarker]

theorem links_loops : Loops (linksRound s) (links s) := by
  refine .of_cons (fun t rest step hround => ?_) (by rw [links]) fun t rest => ?_
  · unfold linksRound at hround
    split at hround <;> cases hround
    have hleft : ∀ simples : List Simple,
        (compoundOr (dangling s t) simples (items s rest).rest fun c =>
          .value (items s rest).rest (⟨t.value, c⟩ : Link)).rest = (items s rest).rest := by
      intro simples
      cases simples <;> rfl
    rw [Step.rest_bind_of_same hleft]
    exact length_rest_items_le s rest
  · rw [links_cons, linksRound]
    by_cases hkind : t.kind = .combinator
    · simp only [if_pos hkind, Step.bind_assoc]
      congr 1
      funext simples rest
      cases simples <;> rfl
    · simp only [if_neg hkind]

theorem members_loops : Loops (membersRound s) (members s) := by
  refine .of_cons (fun t rest step hround => ?_) (by rw [members]) fun t rest => ?_
  · unfold membersRound at hround
    split at hround <;> cases hround
    exact length_rest_complex_le s rest
  · rw [members_cons, membersRound]
    by_cases hkind : t.kind = .comma
    · simp only [if_pos hkind]
    · simp only [if_neg hkind]

end Layers

end SelectorCheck.Grammar
