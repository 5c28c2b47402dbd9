import SelectorCheck.Proofs.Access.Reading
import SelectorCheck.Proofs.Selector.Layers
import SelectorCheck.Proofs.Selector.Mirror
import SelectorCheck.Proofs.Selector.Sequence

/-!
# The grammar by position

The grammar keeps a position among the tokens. What it makes of them are lists: a
compound selector is the list of its simple selectors, a complex selector the list
of its parts, and neither type says that there is a first element.

## Main definitions

* `Access.Tree` — selectors as lists.
* `Complex.rows`, `Selector.tree` — the lists that a selector is.
* `Access.tree` — the tree of a row of tokens.
* `Access.Follows` — a reading by position comes to what a step comes to.

## Main results

* `Access.tree_follows` — the grammar by position comes to what the grammar comes to.
-/

namespace SelectorCheck

namespace Access

open Reading

/-! ## Trees -/

/-- The parts of a complex selector: the combinator, if there is one, and the simple selectors. -/
abbrev Rows := List (Option Text × List Simple)

/-- A selector as lists. -/
inductive Tree where
  | complex (rows : Rows)
  | list (members : List Rows)
deriving DecidableEq, Repr

end Access

/-- A part of a complex selector. -/
def Link.row (l : Link) : Option Text × List Simple := (l.combinator, l.compound.simples)

/-- The list of the parts of a complex selector. -/
def Complex.rows (c : Complex) : Access.Rows := c.parts.map Link.row

/-- A selector as lists. -/
def Selector.tree : Selector → Access.Tree
  | complex c => .complex c.rows
  | list first second others => .list ((first :: second :: others).map Complex.rows)

namespace Access

open Reading

/-! ## Readers -/

/-- What the grammar is applied under: what names are checked against, the text that errors name,
and how functions are built. -/
structure Surroundings where
  context : Context
  source : Option Text
  build : Text → Option Text → Reading PseudoFunction

/-- The token at a position. Behind the last one is the end. -/
def tokenAt (tokens : List Token) (pos : Nat) : Reading Token :=
  if pos < tokens.length then elem tokens pos else return ⟨.eof, none, 0⟩

section Readers

variable (s : Surroundings) (tokens : List Token)

/-- The report of a token that cannot stand where it does. -/
def unexpected {α : Type} (t : Token) : Reading α :=
  fail { code := .unexpectedToken, value := s.source, token := some t.kind.label,
         position := some t.pos }

/-- The report of a combinator that nothing follows. -/
def dangling {α : Type} (combinator : Token) : Reading α :=
  fail { code := .expectedSelector, value := s.source, token := combinator.value,
         position := some combinator.pos }

/-- The report of a pseudo name that is not admitted. -/
def unknownName {α : Type} (code : ErrorCode) (called : Text) (name : Token) : Reading α :=
  fail { code := code, name := some called, value := s.source, position := some name.pos,
         context := some s.context }

/-- The token of a kind at a position. -/
def expect (kind : TokenKind) (pos : Nat) : Reading (Token × Nat) := do
  let t ← tokenAt tokens pos
  if t.kind = kind then return (t, pos + 1) else unexpected s t

/-- The pseudo-class or pseudo-element with a name. -/
def named (marker name : Token) : Reading Simple :=
  let called := Grammar.calledBy name
  if marker.kind = .doubleColon then
    if s.context.level.admitsElement called then
      return ⟨.pseudoElement, some called, none, none, marker.pos⟩
    else unknownName s .unknownPseudoElement called name
  else if s.context.level.admitsClass called then
    return ⟨.pseudoClass, some called, none, none, marker.pos⟩
  else if s.context.level.admitsLegacyElement called then
    return ⟨.pseudoElement, some called, none, none, marker.pos⟩
  else unknownName s .unknownPseudoClass called name

/-- The pseudo-function with a name and an argument text that begins at `start`. A fault in building
it is not reported. -/
def called (marker name : Token) (arg : Option Text) (start : Int) : Reading Simple :=
  let called := Grammar.calledBy name
  if marker.kind = .doubleColon then unknownName s .unknownPseudoElement called name
  else if s.context.level.admitsFunction called then
    match s.build called arg with
    | .ok f => return ⟨.pseudoFunction, some called, arg, some f, marker.pos⟩
    | .error (.failure f) => .error (.failure (f.relocated start))
    | .error (.fault f) => fault f
  else unknownName s .unknownPseudoFunction called name

/-- The pseudo-function whose argument, which begins at `start`, ends in front of a position. -/
def closed (marker name : Token) (arg : Option Text) (start : Int) (pos : Nat) :
    Reading (Simple × Nat) := do
  let (_, last) ← expect s tokens .parenClose pos
  let simple ← called s marker name arg start
  return (simple, last)

/-- The pseudo-function whose argument follows the opening parenthesis `paren`, which stands in
front of a position. -/
def functional (marker name paren : Token) (pos : Nat) : Reading (Simple × Nat) := do
  let string ← tokenAt tokens pos
  if string.kind = .string then closed s tokens marker name string.value string.pos (pos + 1)
  else closed s tokens marker name none (paren.pos + 1) pos

/-- The pseudo selector whose colons stand at a position. -/
def pseudoSelector (pos : Nat) : Reading (Simple × Nat) := do
  let marker ← tokenAt tokens pos
  let (name, behind) ← expect s tokens .tag (pos + 1)
  let paren ← tokenAt tokens behind
  if paren.kind = .parenOpen then functional s tokens marker name paren (behind + 1)
  else
    let simple ← named s marker name
    return (simple, behind)

/-- The simple selectors at a position, in a number of rounds. -/
def items : (rounds : Nat) → (pos : Nat) → Reading (List Simple × Nat)
  | 0, _ => fault .endless
  | rounds + 1, pos => do
    let t ← tokenAt tokens pos
    match Grammar.unmarked? t with
    | some simple =>
      let (others, last) ← items rounds (pos + 1)
      return (simple :: others, last)
    | none =>
      if Grammar.isMarker t.kind then
        let (simple, behind) ← pseudoSelector s tokens pos
        let (others, last) ← items rounds behind
        return (simple :: others, last)
      else return ([], pos)

/-- The compound selectors with their combinators at a position, in a number of rounds. -/
def links : (rounds : Nat) → (pos : Nat) → Reading (Rows × Nat)
  | 0, _ => fault .endless
  | rounds + 1, pos => do
    let t ← tokenAt tokens pos
    if t.kind = .combinator then
      let (simples, behind) ← items s tokens (tokens.length + 1) (pos + 1)
      if simples = [] then dangling s t
      else
        let (others, last) ← links rounds behind
        return ((t.value, simples) :: others, last)
    else return ([], pos)

/-- The complex selector at a position. -/
def complexSelector (pos : Nat) : Reading (Rows × Nat) := do
  let (simples, behind) ← items s tokens (tokens.length + 1) pos
  if simples = [] then
    let t ← tokenAt tokens behind
    unexpected s t
  else
    let (others, last) ← links s tokens (tokens.length + 1) behind
    return ((none, simples) :: others, last)

/-- The complex selectors behind commas at a position, in a number of rounds. -/
def members : (rounds : Nat) → (pos : Nat) → Reading (List Rows × Nat)
  | 0, _ => fault .endless
  | rounds + 1, pos => do
    let t ← tokenAt tokens pos
    if t.kind = .comma then
      let (rows, behind) ← complexSelector s tokens (pos + 1)
      let (others, last) ← members rounds behind
      return (rows :: others, last)
    else return ([], pos)

/-- The tree of a row of tokens, and the position of the end. One member alone is no list. -/
def tree : Reading (Tree × Nat) := do
  let (first, behind) ← complexSelector s tokens 0
  let (others, last) ← members s tokens (tokens.length + 1) behind
  let t ← tokenAt tokens last
  if t.kind ≠ .eof then unexpected s t
  else if (first :: others).length = 1 then
    let only ← elem (first :: others) 0
    return (.complex only, last)
  else return (.list (first :: others), last)

end Readers

/-! ## Readings that follow steps -/

section Follows

open Grammar

variable {tokens : List Token} {α β γ δ : Type} {φ : α → β} {ψ : γ → δ} {step : Step α}
  {reading : Reading (β × Nat)}

/-- The reading comes to what the step comes to, with its value under `φ`, and its position is in
front of the tokens that the step leaves. -/
def Follows (tokens : List Token) (φ : α → β) (reading : Reading (β × Nat)) (step : Step α) :
    Prop :=
  match step.outcome.result with
  | .ok a => ∃ pos, reading = .ok (φ a, pos) ∧ tokens.drop pos = step.rest
  | .error f => reading = .error (.failure f)

theorem follows_value {pos : Nat} {rest : List Token} (h : tokens.drop pos = rest) {a : α} {b : β}
    (hb : b = φ a) : Follows tokens φ (.ok (b, pos)) (.value rest a) :=
  ⟨pos, by rw [hb], h⟩

theorem follows_error (rest : List Token) (e : SelectorError) :
    Follows tokens φ (fail e) (.error rest e) :=
  rfl

/-- What is done with a value follows what is done with it in a sequence of steps. -/
theorem Follows.bind {next' : β × Nat → Reading (δ × Nat)} {next : α → List Token → Step γ}
    (h : Follows tokens φ reading step)
    (hnext : ∀ a pos, tokens.drop pos = step.rest →
      Follows tokens ψ (next' (φ a, pos)) (next a step.rest)) :
    Follows tokens ψ (reading >>= next') (step.bind next) := by
  obtain ⟨rest, log, result⟩ := step
  cases result with
  | error f =>
    obtain rfl : reading = .error (.failure f) := h
    rfl
  | ok a =>
    obtain ⟨pos, rfl, hpos⟩ := h
    exact hnext a pos hpos

theorem Follows.map {f' : β × Nat → Reading (δ × Nat)} {f : α → γ}
    (h : Follows tokens φ reading step)
    (hf : ∀ a pos, f' (φ a, pos) = .ok (ψ (f a), pos)) :
    Follows tokens ψ (reading >>= f') (step.map f) := by
  obtain ⟨rest, log, result⟩ := step
  cases result with
  | error e =>
    obtain rfl : reading = .error (.failure e) := h
    rfl
  | ok a =>
    obtain ⟨pos, rfl, hpos⟩ := h
    exact ⟨pos, hf a pos, hpos⟩

theorem Follows.fst_eq (h : Follows tokens φ reading step) :
    (reading >>= fun found => pure found.1) = ofResult (step.outcome.result.map φ) := by
  obtain ⟨rest, log, result⟩ := step
  cases result with
  | error f =>
    obtain rfl : reading = .error (.failure f) := h
    rfl
  | ok a =>
    obtain ⟨pos, rfl, -⟩ := h
    rfl

/-- An outcome with the position that its tokens begin at. -/
theorem follows_outcome {pos : Nat} {rest : List Token} (h : tokens.drop pos = rest)
    (outcome : Traced α) :
    Follows tokens id (ofResult outcome.result >>= fun a => pure (a, pos)) ⟨rest, outcome⟩ := by
  obtain ⟨log, result⟩ := outcome
  cases result with
  | error f => rfl
  | ok a => exact ⟨pos, rfl, h⟩

end Follows

/-! ## The layers -/

section Layers

variable {s : Surroundings} {setting : Grammar.Setting} {tokens rest : List Token} {pos : Nat}

/-- The surroundings are those of a setting, and functions that the tokens ask for are built as they
are there. -/
structure Surroundings.Like (s : Surroundings) (setting : Grammar.Setting) (tokens : List Token) :
    Prop where
  context : s.context = setting.context
  source : s.source = setting.source
  build : ∀ {called arg}, Grammar.Asked tokens called arg →
    s.build called arg = ofResult (setting.build called arg).result

/-- The token at a position is the one ahead. -/
theorem tokenAt_eq (h : tokens.drop pos = rest) : tokenAt tokens pos = .ok (Grammar.peek rest) := by
  rw [tokenAt, Grammar.peek, ← h, List.head?_drop]
  by_cases hpos : pos < tokens.length
  · rw [if_pos hpos, elem, List.getElem?_eq_getElem hpos]
    rfl
  · rw [if_neg hpos, List.getElem?_eq_none (Nat.le_of_not_lt hpos)]
    rfl

theorem tokenAt_cons {t : Token} (h : tokens.drop pos = t :: rest) : tokenAt tokens pos = .ok t :=
  tokenAt_eq h

theorem drop_succ (h : tokens.drop pos = rest) : tokens.drop (pos + 1) = rest.tail := by
  rw [← h, List.tail_drop]

theorem length_lt_of_drop (h : tokens.drop pos = rest) : rest.length < tokens.length + 1 := by
  rw [← h, List.length_drop]
  omega

variable (hs : s.Like setting tokens)

include hs

theorem unexpected_eq {α : Type} (t : Token) :
    (unexpected s t : Reading α) = fail (Grammar.unexpected setting t) := by
  rw [unexpected, hs.source]
  rfl

theorem dangling_eq {α : Type} (t : Token) :
    (dangling s t : Reading α) = fail (Grammar.dangling setting t) := by
  rw [dangling, hs.source]
  rfl

theorem unknownName_eq {α : Type} (code : ErrorCode) (called : Text) (name : Token) :
    (unknownName s code called name : Reading α) =
      fail (Grammar.unknownName setting code called name) := by
  rw [unknownName, hs.source, hs.context]
  rfl

theorem expect_eq (kind : TokenKind) (h : tokens.drop pos = rest) :
    expect s tokens kind pos =
      if (Grammar.peek rest).kind = kind then .ok (Grammar.peek rest, pos + 1)
      else fail (Grammar.unexpected setting (Grammar.peek rest)) := by
  rw [expect, tokenAt_eq h, bind_ok, unexpected_eq hs]
  rfl

theorem named_eq (marker name : Token) :
    named s marker name = ofResult (Grammar.named setting marker name).result := by
  unfold named Grammar.named
  simp only [unknownName_eq hs, hs.context]
  split
  · split <;> rfl
  · split
    · rfl
    · split <;> rfl

theorem called_eq (marker name : Token) {arg : Option Text} (start : Int)
    (hasked : Grammar.Asked tokens (Grammar.calledBy name) arg) :
    called s marker name arg start =
      ofResult (Grammar.call setting marker name arg start).result := by
  unfold called Grammar.call
  simp only [unknownName_eq hs, hs.context, hs.build hasked]
  split
  · rfl
  · split
    · obtain ⟨log, result⟩ := setting.build (Grammar.calledBy name) arg
      cases result <;> rfl
    · rfl

theorem closed_follows (marker name : Token) {arg : Option Text} (start : Int)
    (h : tokens.drop pos = rest) (hasked : Grammar.Asked tokens (Grammar.calledBy name) arg) :
    Follows tokens id (closed s tokens marker name arg start pos)
      (if (Grammar.peek rest).kind = .parenClose then
        ⟨rest.tail, Grammar.call setting marker name arg start⟩
      else .error rest (Grammar.unexpected setting (Grammar.peek rest))) := by
  rw [closed, expect_eq hs .parenClose h]
  by_cases hclose : (Grammar.peek rest).kind = .parenClose
  · rw [if_pos hclose, if_pos hclose, bind_ok, called_eq hs marker name start hasked]
    exact follows_outcome (drop_succ h) _
  · rw [if_neg hclose, if_neg hclose]
    exact follows_error rest _

theorem functional_follows (marker : Token) {name paren : Token} (hparen : paren.kind = .parenOpen)
    (h : tokens.drop pos = rest) (hcall : name :: paren :: rest <:+ tokens) :
    Follows tokens id (functional s tokens marker name paren pos)
      (Grammar.functional setting marker name paren rest) := by
  have hasked := Grammar.asked_enclosed hparen hcall
  rw [functional, tokenAt_eq h, bind_ok, Grammar.functional, Grammar.enclosed]
  rw [Grammar.enclosed] at hasked
  by_cases hstring : (Grammar.peek rest).kind = .string
  · rw [if_pos hstring] at hasked
    simp only [if_pos hstring]
    exact closed_follows hs marker name _ (drop_succ h) hasked
  · rw [if_neg hstring] at hasked
    simp only [if_neg hstring]
    exact closed_follows hs marker name _ h hasked

/-- A pseudo selector by position is the one that its tokens are. -/
theorem pseudoSelector_follows {marker : Token} (h : tokens.drop pos = marker :: rest) :
    Follows tokens id (pseudoSelector s tokens pos) (Grammar.pseudo setting marker rest) := by
  have hname : tokens.drop (pos + 1) = rest := drop_succ h
  rw [pseudoSelector, tokenAt_eq h, bind_ok, expect_eq hs .tag hname, Grammar.pseudo]
  by_cases htag : (Grammar.peek rest).kind = .tag
  · have hbehind : tokens.drop (pos + 2) = rest.tail := drop_succ hname
    rw [if_pos htag, if_pos htag, bind_ok]
    dsimp only
    rw [tokenAt_eq hbehind, bind_ok]
    by_cases hparen : (Grammar.peek rest.tail).kind = .parenOpen
    · have hcall : Grammar.peek rest :: Grammar.peek rest.tail :: rest.tail.tail <:+ tokens := by
        obtain ⟨name, behind, rfl, -⟩ := Grammar.eq_cons_of_peek htag (by decide)
        obtain ⟨paren, last, rfl, -⟩ := Grammar.eq_cons_of_peek hparen (by decide)
        have hsuffix : tokens.drop (pos + 1) <:+ tokens := List.drop_suffix _ _
        rw [hname] at hsuffix
        exact hsuffix
      rw [if_pos hparen, if_pos hparen]
      exact functional_follows hs marker hparen (drop_succ hbehind) hcall
    · rw [if_neg hparen, if_neg hparen, named_eq hs]
      exact follows_outcome hbehind _
  · rw [if_neg htag, if_neg htag]
    exact follows_error rest _

/-- The rounds by position read the simple selectors ahead, if there is a round for every token and
one for the end. -/
theorem items_follows {rounds : Nat} (h : tokens.drop pos = rest) (hrounds : rest.length < rounds) :
    Follows tokens id (items s tokens rounds pos) (Grammar.items setting rest) := by
  induction rounds generalizing pos rest with
  | zero => exact absurd hrounds (Nat.not_lt_zero _)
  | succ rounds ih =>
    cases rest with
    | nil =>
      rw [items, tokenAt_eq h, Grammar.items]
      exact follows_value h rfl
    | cons t rest =>
      have hrest : tokens.drop (pos + 1) = rest := drop_succ h
      have hlength : rest.length < rounds := Nat.lt_of_succ_lt_succ hrounds
      rw [items, tokenAt_cons h, bind_ok, Grammar.items_cons]
      cases Grammar.unmarked? t with
      | some simple => exact (ih hrest hlength).map fun _ _ => rfl
      | none =>
        dsimp only
        by_cases hmarker : Grammar.isMarker t.kind = true
        · have hshorter := Grammar.length_rest_pseudo_le setting t rest
          rw [if_pos hmarker, if_pos hmarker]
          refine (pseudoSelector_follows hs h).bind fun simple behind hbehind => ?_
          exact (ih hbehind (by omega)).map fun _ _ => rfl
        · rw [if_neg hmarker, if_neg hmarker]
          exact follows_value h rfl

theorem links_follows {rounds : Nat} (h : tokens.drop pos = rest) (hrounds : rest.length < rounds) :
    Follows tokens (List.map Link.row) (links s tokens rounds pos)
      (Grammar.links setting rest) := by
  induction rounds generalizing pos rest with
  | zero => exact absurd hrounds (Nat.not_lt_zero _)
  | succ rounds ih =>
    cases rest with
    | nil =>
      rw [links, tokenAt_eq h, Grammar.links]
      exact follows_value h rfl
    | cons t rest =>
      have hrest : tokens.drop (pos + 1) = rest := drop_succ h
      have hlength : rest.length < rounds := Nat.lt_of_succ_lt_succ hrounds
      rw [links, tokenAt_cons h, bind_ok, Grammar.links_cons]
      by_cases hkind : t.kind = .combinator
      · have hshorter := Grammar.length_rest_items_le setting rest
        rw [if_pos hkind, if_pos hkind]
        refine (items_follows hs hrest (length_lt_of_drop hrest)).bind
          fun simples behind hbehind => ?_
        dsimp only [id_eq]
        rw [dangling_eq hs]
        cases simples with
        | nil => exact follows_error _ _
        | cons first others => exact (ih hbehind (by omega)).map fun _ _ => rfl
      · rw [if_neg hkind, if_neg hkind]
        exact follows_value h rfl

theorem complexSelector_follows (h : tokens.drop pos = rest) :
    Follows tokens Complex.rows (complexSelector s tokens pos) (Grammar.complex setting rest) := by
  rw [complexSelector, Grammar.complex_eq]
  refine (items_follows hs h (length_lt_of_drop h)).bind fun simples behind hbehind => ?_
  dsimp only [id_eq]
  rw [tokenAt_eq hbehind, bind_ok, unexpected_eq hs]
  cases simples with
  | nil => exact follows_error _ _
  | cons first others =>
    exact (links_follows hs hbehind (length_lt_of_drop hbehind)).map fun _ _ => rfl

theorem members_follows {rounds : Nat} (h : tokens.drop pos = rest)
    (hrounds : rest.length < rounds) :
    Follows tokens (List.map Complex.rows) (members s tokens rounds pos)
      (Grammar.members setting rest) := by
  induction rounds generalizing pos rest with
  | zero => exact absurd hrounds (Nat.not_lt_zero _)
  | succ rounds ih =>
    cases rest with
    | nil =>
      rw [members, tokenAt_eq h, Grammar.members]
      exact follows_value h rfl
    | cons t rest =>
      have hrest : tokens.drop (pos + 1) = rest := drop_succ h
      have hlength : rest.length < rounds := Nat.lt_of_succ_lt_succ hrounds
      rw [members, tokenAt_cons h, bind_ok, Grammar.members_cons]
      by_cases hkind : t.kind = .comma
      · have hshorter := Grammar.length_rest_complex_le setting rest
        rw [if_pos hkind, if_pos hkind]
        refine (complexSelector_follows hs hrest).bind fun c behind hbehind => ?_
        exact (ih hbehind (by omega)).map fun _ _ => rfl
      · rw [if_neg hkind, if_neg hkind]
        exact follows_value h rfl

/-- The grammar by position comes to what the grammar comes to. -/
theorem tree_follows :
    Follows tokens Selector.tree (tree s tokens) (Grammar.selector setting tokens) := by
  have hfirst : Follows tokens Complex.rows (complexSelector s tokens 0)
      (Grammar.complex setting tokens) := complexSelector_follows hs List.drop_zero
  rw [tree, Grammar.selector_eq]
  refine hfirst.bind fun first behind hbehind => ?_
  rw [Grammar.Step.bind_map]
  refine (members_follows hs hbehind (length_lt_of_drop hbehind)).bind fun others last hlast => ?_
  generalize (Grammar.members setting (Grammar.complex setting tokens).rest).rest = rest at hlast ⊢
  dsimp only
  rw [tokenAt_eq hlast, bind_ok, unexpected_eq hs, Grammar.valueAtEnd]
  by_cases heof : (Grammar.peek rest).kind = .eof
  · rw [if_neg (not_not_intro heof), if_pos heof]
    cases others with
    | nil => exact follows_value hlast rfl
    | cons second others => exact follows_value hlast rfl
  · rw [if_pos heof, if_neg heof]
    exact follows_error _ _

end Layers

end Access

end SelectorCheck
