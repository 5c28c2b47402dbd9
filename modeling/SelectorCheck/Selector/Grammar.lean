import SelectorCheck.Selector.Basic
import SelectorCheck.Text.Lowercase
import SelectorCheck.Token.Basic
import SelectorCheck.Trace

/-!
# From tokens to selectors

The grammar has four layers. An item is a simple selector; a compound
selector is a run of items; a complex selector is a compound selector followed
by pairs of a combinator and a compound selector; and a selector is a list of
complex selectors between commas. Behind it the end must follow.

Pseudo names are checked where they are met, and so is the argument of a
function: it is handed to whoever builds functions, and what goes wrong with
it is reported at its place in the selector. The first thing that is wrong
ends the reading.

Every layer takes the tokens ahead and leaves those behind what it read, also
when it fails, so that a caller can see how far it came.

## Main definitions

* `Grammar.Setting` — what the grammar is applied under.
* `Grammar.Step` — what a layer comes to.
* `Grammar.pseudo`, `Grammar.items`, `Grammar.complex`, `Grammar.selector` —
  the layers.
-/

namespace SelectorCheck.Grammar

/-- What the grammar is applied under. -/
structure Setting where
  /-- What names are checked against. -/
  context : Context
  /-- The text that the tokens are from, which errors name. -/
  source : Option Text
  /-- The function with a name and an argument text. -/
  build : Text → Option Text → Traced PseudoFunction

/-- What a layer comes to, and the tokens that it leaves. -/
structure Step (α : Type) where
  rest : List Token
  outcome : Traced α

namespace Step

variable {α β : Type}

/-- A value that no token was needed for. -/
def value (rest : List Token) (a : α) : Step α := ⟨rest, .value a⟩

/-- An error in front of the tokens that are left. -/
def error (rest : List Token) (e : SelectorError) : Step α := ⟨rest, .error e⟩

/-- The value under a function. -/
def map (f : α → β) (s : Step α) : Step β := ⟨s.rest, s.outcome.map f⟩

/-- The failure of a step as that of the layer around it. -/
def stop (s : Step α) (failure : Failure) : Step β := ⟨s.rest, ⟨s.outcome.log, .error failure⟩⟩

/-- A step behind another one, whose records it keeps. -/
def before (s : Step α) (next : Step β) : Step β :=
  ⟨next.rest, next.outcome.following s.outcome.log⟩

@[simp] theorem rest_value (rest : List Token) (a : α) : (value rest a).rest = rest := rfl

@[simp] theorem rest_error (rest : List Token) (e : SelectorError) :
    (error rest e : Step α).rest = rest := rfl

@[simp] theorem rest_map (f : α → β) (s : Step α) : (s.map f).rest = s.rest := rfl

@[simp] theorem rest_stop (s : Step α) (failure : Failure) :
    (s.stop failure : Step β).rest = s.rest := rfl

@[simp] theorem rest_before (s : Step α) (next : Step β) : (s.before next).rest = next.rest := rfl

end Step

/-! ## Single tokens -/

/-- The token ahead. Behind the last one is the end. -/
def peek (tokens : List Token) : Token := tokens.head?.getD ⟨.eof, none, 0⟩

/-- The error for a token that cannot stand where it does. -/
def unexpected (s : Setting) (t : Token) : SelectorError :=
  { code := .unexpectedToken, value := s.source, token := some t.kind.label,
    position := some t.pos }

/-- The error for a combinator that nothing follows. -/
def dangling (s : Setting) (combinator : Token) : SelectorError :=
  { code := .expectedSelector, value := s.source, token := combinator.value,
    position := some combinator.pos }

/-- The error for a pseudo name that is not admitted, which the token `name` spells. -/
def unknownName (s : Setting) (code : ErrorCode) (called : Text) (name : Token) :
    SelectorError :=
  { code := code, name := some called, value := s.source, position := some name.pos,
    context := some s.context }

/-- The simple selector that is a single token. -/
def unmarked? (t : Token) : Option Simple :=
  match t.kind with
  | .tag => some ⟨.tag, t.value, none, none, t.pos⟩
  | .universal => some ⟨.universal, none, none, none, t.pos⟩
  | .id => some ⟨.id, t.value, none, none, t.pos⟩
  | .className => some ⟨.className, t.value, none, none, t.pos⟩
  | _ => none

/-- The tokens that stand in front of a pseudo name. -/
def isMarker (kind : TokenKind) : Bool := kind == .colon || kind == .doubleColon

/-! ## Pseudo names -/

/-- The pseudo name that a token spells. -/
def calledBy (name : Token) : Text := (name.value.getD []).lowercase

/-- The pseudo-class or pseudo-element with a name. Behind two colons only pseudo-elements stand;
behind one, pseudo-classes come first. -/
def named (s : Setting) (marker name : Token) : Traced Simple :=
  let called := calledBy name
  let level := s.context.level
  if marker.kind = .doubleColon then
    if level.admitsElement called then
      .value ⟨.pseudoElement, some called, none, none, marker.pos⟩
    else .error (unknownName s .unknownPseudoElement called name)
  else if level.admitsClass called then
    .value ⟨.pseudoClass, some called, none, none, marker.pos⟩
  else if level.admitsLegacyElement called then
    .value ⟨.pseudoElement, some called, none, none, marker.pos⟩
  else .error (unknownName s .unknownPseudoClass called name)

/-- The pseudo-function with a name and an argument text that begins at `start`. There are none
behind two colons. -/
def call (s : Setting) (marker name : Token) (arg : Option Text) (start : Int) :
    Traced Simple :=
  let called := calledBy name
  if marker.kind = .doubleColon then .error (unknownName s .unknownPseudoElement called name)
  else if s.context.level.admitsFunction called then
    ((s.build called arg).mapFailure (·.relocated start)).map fun f =>
      ⟨.pseudoFunction, some called, arg, some f, marker.pos⟩
  else .error (unknownName s .unknownPseudoFunction called name)

/-- What stands behind an opening parenthesis. -/
structure Enclosed where
  /-- The argument text. -/
  text : Option Text
  /-- Where the argument text begins. -/
  start : Int
  /-- The tokens behind the argument text. -/
  rest : List Token

/-- What stands behind the opening parenthesis `paren`. An argument text that is not there would
begin behind the parenthesis. -/
def enclosed (paren : Token) (tokens : List Token) : Enclosed :=
  if (peek tokens).kind = .string then ⟨(peek tokens).value, (peek tokens).pos, tokens.tail⟩
  else ⟨none, paren.pos + 1, tokens⟩

/-- The pseudo-function whose argument follows an opening parenthesis. -/
def functional (s : Setting) (marker name paren : Token) (tokens : List Token) : Step Simple :=
  let inside := enclosed paren tokens
  if (peek inside.rest).kind = .parenClose then
    ⟨inside.rest.tail, call s marker name inside.text inside.start⟩
  else .error inside.rest (unexpected s (peek inside.rest))

/-- What follows the colons of the token `marker`. -/
def pseudo (s : Setting) (marker : Token) (tokens : List Token) : Step Simple :=
  if (peek tokens).kind = .tag then
    if (peek tokens.tail).kind = .parenOpen then
      functional s marker (peek tokens) (peek tokens.tail) tokens.tail.tail
    else ⟨tokens.tail, named s marker (peek tokens)⟩
  else .error tokens (unexpected s (peek tokens))

private theorem length_tail_le (tokens : List Token) : tokens.tail.length ≤ tokens.length := by
  simp

private theorem length_rest_enclosed_le (paren : Token) (tokens : List Token) :
    (enclosed paren tokens).rest.length ≤ tokens.length := by
  unfold enclosed
  split
  · exact length_tail_le tokens
  · exact Nat.le_refl _

private theorem length_rest_functional_le (s : Setting) (marker name paren : Token)
    (tokens : List Token) :
    (functional s marker name paren tokens).rest.length ≤ tokens.length := by
  have inside := length_rest_enclosed_le paren tokens
  have behind := length_tail_le (enclosed paren tokens).rest
  unfold functional
  dsimp only
  split
  · exact Nat.le_trans behind inside
  · exact inside

/-- Reading behind the colons never puts tokens back. -/
theorem length_rest_pseudo_le (s : Setting) (marker : Token) (tokens : List Token) :
    (pseudo s marker tokens).rest.length ≤ tokens.length := by
  have first := length_tail_le tokens
  have second := length_tail_le tokens.tail
  have third := length_rest_functional_le s marker (peek tokens) (peek tokens.tail)
    tokens.tail.tail
  unfold pseudo
  split
  · split
    · omega
    · exact first
  · exact Nat.le_refl _

/-! ## Compound selectors -/

/-- The longest run of simple selectors ahead. -/
def items (s : Setting) : List Token → Step (List Simple)
  | [] => .value [] []
  | t :: rest =>
    match unmarked? t with
    | some simple => (items s rest).map (simple :: ·)
    | none =>
      if isMarker t.kind then
        let step := pseudo s t rest
        match step.outcome.result with
        | .ok simple => step.before ((items s step.rest).map (simple :: ·))
        | .error failure => step.stop failure
      else .value (t :: rest) []
termination_by tokens => tokens.length
decreasing_by
  · simp
  · have shorter := length_rest_pseudo_le s t rest
    simp only [List.length_cons]
    omega

theorem length_rest_items_le (s : Setting) (tokens : List Token) :
    (items s tokens).rest.length ≤ tokens.length := by
  fun_induction items s tokens with
  | case1 => exact Nat.le_refl _
  | case2 t rest simple _ ih =>
    simp only [Step.rest_map, List.length_cons]
    omega
  | case3 t rest _ _ step simple _ ih =>
    have shorter : step.rest.length ≤ rest.length := length_rest_pseudo_le s t rest
    simp only [Step.rest_before, Step.rest_map, List.length_cons]
    omega
  | case4 t rest _ _ step failure _ =>
    have shorter : step.rest.length ≤ rest.length := length_rest_pseudo_le s t rest
    simp only [Step.rest_stop, List.length_cons]
    omega
  | case5 => exact Nat.le_refl _

/-! ## Complex selectors -/

/-- The pairs of a combinator and a compound selector ahead. -/
def links (s : Setting) : List Token → Step (List Link)
  | [] => .value [] []
  | t :: rest =>
    if t.kind = .combinator then
      let step := items s rest
      match step.outcome.result with
      | .ok [] => step.before (.error step.rest (dangling s t))
      | .ok (first :: others) =>
        step.before ((links s step.rest).map (⟨t.value, ⟨first, others⟩⟩ :: ·))
      | .error failure => step.stop failure
    else .value (t :: rest) []
termination_by tokens => tokens.length
decreasing_by
  have shorter := length_rest_items_le s rest
  simp only [List.length_cons]
  omega

theorem length_rest_links_le (s : Setting) (tokens : List Token) :
    (links s tokens).rest.length ≤ tokens.length := by
  fun_induction links s tokens with
  | case1 => exact Nat.le_refl _
  | case2 t rest _ step _ =>
    have shorter : step.rest.length ≤ rest.length := length_rest_items_le s rest
    simp only [Step.rest_before, Step.rest_error, List.length_cons]
    omega
  | case3 t rest _ step first others _ ih =>
    have shorter : step.rest.length ≤ rest.length := length_rest_items_le s rest
    simp only [Step.rest_before, Step.rest_map, List.length_cons]
    omega
  | case4 t rest _ step failure _ =>
    have shorter : step.rest.length ≤ rest.length := length_rest_items_le s rest
    simp only [Step.rest_stop, List.length_cons]
    omega
  | case5 => exact Nat.le_refl _

/-- The complex selector ahead. -/
def complex (s : Setting) (tokens : List Token) : Step Complex :=
  let step := items s tokens
  match step.outcome.result with
  | .ok [] => step.before (.error step.rest (unexpected s (peek step.rest)))
  | .ok (first :: others) =>
    step.before ((links s step.rest).map fun links => ⟨⟨first, others⟩, links⟩)
  | .error failure => step.stop failure

theorem length_rest_complex_le (s : Setting) (tokens : List Token) :
    (complex s tokens).rest.length ≤ tokens.length := by
  have first := length_rest_items_le s tokens
  have others := length_rest_links_le s (items s tokens).rest
  unfold complex
  dsimp only
  split
  · exact first
  · exact Nat.le_trans others first
  · exact first

/-! ## Selectors -/

/-- The complex selectors ahead, each behind a comma. -/
def members (s : Setting) : List Token → Step (List Complex)
  | [] => .value [] []
  | t :: rest =>
    if t.kind = .comma then
      let step := complex s rest
      match step.outcome.result with
      | .ok c => step.before ((members s step.rest).map (c :: ·))
      | .error failure => step.stop failure
    else .value (t :: rest) []
termination_by tokens => tokens.length
decreasing_by
  have shorter := length_rest_complex_le s rest
  simp only [List.length_cons]
  omega

/-- A step that only the end may follow. -/
def ending {α : Type} (s : Setting) (step : Step α) : Step α :=
  match step.outcome.result with
  | .ok _ =>
    if (peek step.rest).kind = .eof then step
    else step.before (.error step.rest (unexpected s (peek step.rest)))
  | .error _ => step

/-- The selector that the tokens are. -/
def selector (s : Setting) (tokens : List Token) : Step Selector :=
  let step := complex s tokens
  match step.outcome.result with
  | .ok first =>
    ending s (step.before ((members s step.rest).map (Selector.ofMembers first)))
  | .error failure => step.stop failure

/-- What reading a number of times comes to, each time from the tokens that the last time left. -/
def selectors (s : Setting) : (count : Nat) → List Token → List (Step Selector)
  | 0, _ => []
  | count + 1, tokens => selector s tokens :: selectors s count (selector s tokens).rest

end SelectorCheck.Grammar
