import SelectorCheck.Proofs.Selector.Sequence
import SelectorCheck.Proofs.Token.Moved

/-!
# Two readings of the same tokens

The grammar is applied to the same tokens twice: under settings that may differ
in everything but the names that they admit, and with all tokens moved by a
number of places the second time. If the functions that are asked for are built
alike, the second reading mirrors the first one: it leaves the same tokens and
the same records, and it comes to the same selector, moved, or to a failure that
is related to the failure of the first.

Two liberties are left to the tokens of the second reading. The end may stand at
another place, and the name behind colons may be spelled in another way, if it
calls the same pseudo name. Nothing but the colons in front of it tells such a
name from a tag name, which is not free.

Which failures are related is left open, and so is the reason why functions are
built alike. Reading at different depths, reading between blanks and reading
names in other cases are all cases of this.

## Main definitions

* `SimpleOf.moved`, `Selector.moved` — trees at other places.
* `Token.Retold`, `Grammar.Retold` — the relation between tokens.
* `Traced.Mirrors`, `Grammar.Step.Mirrors` — the relation between results.
* `Grammar.Asked` — the functions that tokens ask for.
* `Grammar.Setting.Mirrors` — the relation between settings.

## Main results

* `Grammar.selector_mirrors` — the readings mirror each other.
-/

namespace SelectorCheck

variable {α β γ δ : Type}

/-! ## Other places -/

/-- The simple selector `k` places further on. Its function is left as it is: the position of a
simple selector in an argument counts from where the text of the argument begins. -/
def SimpleOf.moved {F : Type} (k : Nat) (s : SimpleOf F) : SimpleOf F := { s with pos := s.pos + k }

/-- The compound selector `k` places further on. -/
def Compound.moved (k : Nat) (c : Compound) : Compound :=
  ⟨c.first.moved k, c.others.map (SimpleOf.moved k)⟩

/-- The compound selector behind a combinator, `k` places further on. -/
def Link.moved (k : Nat) (l : Link) : Link := ⟨l.combinator, l.compound.moved k⟩

/-- The complex selector `k` places further on. -/
def Complex.moved (k : Nat) (c : Complex) : Complex := ⟨c.first.moved k, c.links.map (Link.moved k)⟩

/-- The selector `k` places further on. What arguments hold stays at its places in them. -/
def Selector.moved (k : Nat) : Selector → Selector
  | complex c => complex (c.moved k)
  | list first second others =>
    list (first.moved k) (second.moved k) (others.map (Complex.moved k))

theorem Selector.moved_ofMembers (k : Nat) (first : Complex) (members : List Complex) :
    (ofMembers first members).moved k = ofMembers (first.moved k) (members.map (Complex.moved k)) :=
  by cases members <;> rfl

@[simp] theorem SimpleOf.moved_zero {F : Type} (s : SimpleOf F) : s.moved 0 = s := by
  simp [moved]

@[simp] theorem Compound.moved_zero (c : Compound) : c.moved 0 = c := by
  rw [moved, SimpleOf.moved_zero, List.map_id'' SimpleOf.moved_zero]

@[simp] theorem Link.moved_zero (l : Link) : l.moved 0 = l := by
  rw [moved, Compound.moved_zero]

@[simp] theorem Complex.moved_zero (c : Complex) : c.moved 0 = c := by
  rw [moved, Compound.moved_zero, List.map_id'' Link.moved_zero]

@[simp] theorem Selector.moved_zero (s : Selector) : s.moved 0 = s := by
  cases s with
  | complex c => rw [moved, Complex.moved_zero]
  | list first second others =>
    rw [moved, Complex.moved_zero, Complex.moved_zero, List.map_id'' Complex.moved_zero]

/-! ## Results -/

/-- A value and the value under `φ`, or two failures that are related by `E`. -/
inductive Mirrored (E : Failure → Failure → Prop) (φ : α → β) :
    Except Failure α → Except Failure β → Prop where
  | ok (a : α) : Mirrored E φ (.ok a) (.ok (φ a))
  | error {f g : Failure} (h : E f g) : Mirrored E φ (.error f) (.error g)

/-- The computation `image` leaves the records of `t`, and its result mirrors that of `t`. -/
structure Traced.Mirrors (E : Failure → Failure → Prop) (φ : α → β) (t : Traced α)
    (image : Traced β) : Prop where
  log : image.log = t.log
  result : Mirrored E φ t.result image.result

namespace Traced

variable {E E' : Failure → Failure → Prop} {φ : α → β} {ψ : γ → δ} {t : Traced α}
  {image : Traced β}

theorem mirrors_value {a : α} {b : β} (h : b = φ a) : (value a).Mirrors E φ (value b) := by
  subst h
  exact ⟨rfl, .ok a⟩

theorem mirrors_error {e e' : SelectorError} (h : E (.ofError e) (.ofError e')) :
    (error e : Traced α).Mirrors E φ (error e') :=
  ⟨rfl, .error h⟩

theorem mirrors_refl (hE : ∀ f, E f f) (t : Traced α) : t.Mirrors E id t := by
  obtain ⟨log, e | a⟩ := t
  · exact ⟨rfl, .error (hE e)⟩
  · exact ⟨rfl, .ok a⟩

/-- A computation that mirrors another one in every detail is the same. -/
theorem Mirrors.eq {u : Traced α} {f : α → α} (h : t.Mirrors Eq f u) (hf : ∀ a, f a = a) :
    u = t := by
  obtain ⟨log, result⟩ := t
  obtain ⟨log', result'⟩ := u
  obtain ⟨rfl, hresult⟩ := h
  cases hresult with
  | ok a => rw [hf]
  | error h => rw [h]

/-- Failures that are related may be related in a weaker way. -/
theorem Mirrors.imp (h : t.Mirrors E φ image) (hE : ∀ f g, E f g → E' f g) :
    t.Mirrors E' φ image := by
  obtain ⟨log, result⟩ := t
  obtain ⟨log', result'⟩ := image
  obtain ⟨rfl, hresult⟩ := h
  cases hresult with
  | ok a => exact ⟨rfl, .ok a⟩
  | error h => exact ⟨rfl, .error (hE _ _ h)⟩

/-- The same record ahead. -/
theorem Mirrors.recording (h : t.Mirrors E φ image) (r : LogRecord) :
    (recording r t).Mirrors E φ (recording r image) :=
  ⟨congrArg (r :: ·) h.log, h.result⟩

theorem Mirrors.map {f : α → γ} {f' : β → δ} (h : t.Mirrors E φ image)
    (hf : ∀ a, f' (φ a) = ψ (f a)) : (t.map f).Mirrors E ψ (image.map f') := by
  obtain ⟨log, result⟩ := t
  obtain ⟨log', result'⟩ := image
  obtain ⟨rfl, hresult⟩ := h
  cases hresult with
  | ok a =>
    refine ⟨rfl, ?_⟩
    show Mirrored E ψ (.ok (f a)) (.ok (f' (φ a)))
    rw [hf]
    exact .ok (f a)
  | error h => exact ⟨rfl, .error h⟩

theorem Mirrors.mapFailure {f g : Failure → Failure} (h : t.Mirrors E φ image)
    (hfailure : ∀ a b, E a b → E' (f a) (g b)) :
    (t.mapFailure f).Mirrors E' φ (image.mapFailure g) := by
  obtain ⟨log, result⟩ := t
  obtain ⟨log', result'⟩ := image
  obtain ⟨rfl, hresult⟩ := h
  cases hresult with
  | ok a => exact ⟨rfl, .ok a⟩
  | error h => exact ⟨rfl, .error (hfailure _ _ h)⟩

/-- Computations that mirror each other go on to what mirrors each other. -/
theorem Mirrors.bind {next : α → Traced γ} {next' : β → Traced δ} (h : t.Mirrors E φ image)
    (hnext : ∀ a, (next a).Mirrors E ψ (next' (φ a))) :
    (t.bind next).Mirrors E ψ (image.bind next') := by
  obtain ⟨log, result⟩ := t
  obtain ⟨log', result'⟩ := image
  obtain ⟨rfl, hresult⟩ := h
  cases hresult with
  | ok a =>
    obtain ⟨hlog, hvalue⟩ := hnext a
    exact ⟨congrArg (log' ++ ·) hlog, hvalue⟩
  | error h => exact ⟨rfl, .error h⟩

/-- The same value, or an error under a function. -/
theorem mirrors_mapError {r : Except SelectorError α} {f : SelectorError → SelectorError}
    (h : ∀ e, r = .error e → E (.ofError e) (.ofError (f e))) :
    (ofExcept r).Mirrors E id (ofExcept (r.mapError f)) := by
  cases r with
  | ok a => exact mirrors_value rfl
  | error e => exact mirrors_error (h e rfl)

end Traced

namespace Grammar

/-! ## The tokens that are left -/

/-- The tokens are the last ones of `all`, and the very last one is the end. -/
structure Left (all tokens : List Token) : Prop where
  suffix : tokens <:+ all
  ended : ∃ t ∈ tokens.getLast?, t.kind = .eof

namespace Left

variable {all tokens rest : List Token} {t : Token}

theorem ne_nil (h : Left all tokens) : tokens ≠ [] := by
  rintro rfl
  obtain ⟨_, ht, -⟩ := h.ended
  cases ht

theorem of_cons (h : Left all (t :: rest)) (hkind : t.kind ≠ .eof) : Left all rest := by
  obtain ⟨last, hlast, heof⟩ := h.ended
  cases rest with
  | nil =>
    cases hlast
    exact absurd heof hkind
  | cons next rest => exact ⟨(List.suffix_cons t _).trans h.suffix, last, hlast, heof⟩

theorem tail (h : Left all tokens) (hkind : (peek tokens).kind ≠ .eof) : Left all tokens.tail := by
  cases tokens with
  | nil => exact absurd rfl h.ne_nil
  | cons t rest => exact h.of_cons hkind

end Left

/-- The tokens ask for a function with an argument text, or without one. -/
inductive Asked (all : List Token) : (called : Text) → (arg : Option Text) → Prop where
  | missing (called : Text) : Asked all called none
  | given {name paren string : Token} (h : [name, paren, string] <:+: all)
      (hparen : paren.kind = .parenOpen) (hstring : string.kind = .string) :
      Asked all (calledBy name) string.value

/-! ## Tokens that are retold -/

end Grammar

/-- The token `other` stands in the second reading where `t` stands in the first. `named` says that
colons stand in front of them; then a name may be spelled in another way. The places of the ends
are related by `ends`. -/
inductive Token.Retold (k : Nat) (ends : Int → Int → Prop) : (named : Bool) → Token → Token → Prop
  where
  | moved {named : Bool} (t : Token) : Retold k ends named t (t.moved k)
  | ending {named : Bool} {value : Option Text} {p q : Int} (h : ends p q) :
      Retold k ends named ⟨.eof, value, p⟩ ⟨.eof, value, q⟩
  | name {t other : Token} (htag : t.kind = .tag) (hother : other.kind = .tag)
      (hpos : other.pos = t.pos + k) (hcalled : Grammar.calledBy other = Grammar.calledBy t) :
      Retold k ends true t other

namespace Token.Retold

variable {k : Nat} {ends : Int → Int → Prop} {named : Bool} {t other : Token}

/-- A token that stays where it is is retold as it is. -/
theorem refl (named : Bool) (t : Token) : Token.Retold 0 ends named t t := by
  have hmoved : Token.Retold 0 ends named t (t.moved 0) := .moved t
  rwa [moved_zero] at hmoved

theorem kind_eq (h : Token.Retold k ends named t other) : other.kind = t.kind := by
  cases h with
  | moved => rfl
  | ending => rfl
  | name htag hother => rw [htag, hother]

/-- Apart from names behind colons only the end stands at a place of its own. -/
theorem eq_moved (h : Token.Retold k ends false t other) (hkind : t.kind ≠ .eof) :
    other = t.moved k := by
  cases h with
  | moved => rfl
  | ending => exact absurd rfl hkind

/-- What is no name is retold in the same way everywhere. -/
theorem unnamed (h : Token.Retold k ends named t other) (hkind : t.kind ≠ .tag) :
    Token.Retold k ends false t other := by
  cases h with
  | moved => exact .moved t
  | ending h => exact .ending h
  | name htag => exact absurd htag hkind

/-- A name keeps its place, and it calls the same pseudo name. -/
theorem of_tag (h : Token.Retold k ends named t other) (hkind : t.kind = .tag) :
    other.pos = t.pos + k ∧ Grammar.calledBy other = Grammar.calledBy t := by
  cases h with
  | moved => exact ⟨rfl, rfl⟩
  | ending => cases hkind
  | name _ _ hpos hcalled => exact ⟨hpos, hcalled⟩

end Token.Retold

namespace Grammar

/-- The tokens `others` are those of the second reading where those of the first are `tokens`.
`named` says that colons stand in front of them. -/
inductive Retold (k : Nat) (ends : Int → Int → Prop) : (named : Bool) → List Token → List Token →
    Prop where
  | nil (named : Bool) : Retold k ends named [] []
  | cons {named : Bool} {t other : Token} {rest others : List Token}
      (h : Token.Retold k ends named t other)
      (hrest : Retold k ends (isMarker t.kind) rest others) :
      Retold k ends named (t :: rest) (other :: others)

namespace Retold

variable {all tokens others : List Token} {k : Nat} {ends : Int → Int → Prop} {named : Bool}

/-- All tokens may be moved. -/
theorem moved (named : Bool) (tokens : List Token) :
    Retold k ends named tokens (tokens.map (Token.moved k)) := by
  induction tokens generalizing named with
  | nil => exact .nil named
  | cons t rest ih => exact .cons (.moved t) (ih _)

/-- Tokens that stay where they are are retold as they are. -/
theorem refl (named : Bool) (tokens : List Token) : Retold 0 ends named tokens tokens := by
  induction tokens generalizing named with
  | nil => exact .nil named
  | cons t rest ih => exact .cons (.refl named t) (ih _)

/-- What is retold wherever it stands is retold behind other tokens. -/
theorem append {rest rest' : List Token} (h : Retold k ends named tokens others)
    (hrest : ∀ named, Retold k ends named rest rest') :
    Retold k ends named (tokens ++ rest) (others ++ rest') := by
  induction h with
  | nil named => exact hrest named
  | cons h _ ih => exact .cons h ih

theorem peek_of_left (h : Retold k ends named tokens others) (hleft : Left all tokens) :
    Token.Retold k ends named (peek tokens) (peek others) := by
  cases h with
  | nil => exact absurd rfl hleft.ne_nil
  | cons h _ => exact h

theorem tail (h : Retold k ends named tokens others) :
    Retold k ends (isMarker (peek tokens).kind) tokens.tail others.tail := by
  cases h with
  | nil => exact .nil _
  | cons _ hrest => exact hrest

theorem unnamed (h : Retold k ends named tokens others) (hkind : (peek tokens).kind ≠ .tag) :
    Retold k ends false tokens others := by
  cases h with
  | nil => exact .nil false
  | cons h hrest => exact .cons (h.unnamed hkind) hrest

/-- The tokens behind one that is not colons. -/
theorem tail_of_kind (h : Retold k ends named tokens others) {kind : TokenKind}
    (hkind : (peek tokens).kind = kind) (hmarker : isMarker kind = false) :
    Retold k ends false tokens.tail others.tail := by
  have htail := h.tail
  rwa [hkind, hmarker] at htail

end Retold

/-! ## Steps and settings -/

/-- Failures to build a function are related if they are so wherever the argument stands. -/
def Relocatable (k : Nat) (E : Failure → Failure → Prop) (f g : Failure) : Prop :=
  ∀ start : Int, E (f.relocated start) (g.relocated (start + k))

/-- The setting `image` treats the tokens `all`, as they are retold, as `s` treats them. -/
structure Setting.Mirrors (all : List Token) (k : Nat) (ends : Int → Int → Prop)
    (E : Failure → Failure → Prop) (s image : Setting) : Prop where
  level : image.context.level = s.context.level
  unexpected : ∀ {t other}, Token.Retold k ends false t other →
    E (.ofError (unexpected s t)) (.ofError (unexpected image other))
  dangling : ∀ t, E (.ofError (dangling s t)) (.ofError (dangling image (t.moved k)))
  unknownName : ∀ code called {t other : Token}, other.pos = t.pos + k →
    E (.ofError (unknownName s code called t)) (.ofError (unknownName image code called other))
  build : ∀ {called arg}, Asked all called arg →
    (s.build called arg).Mirrors (Relocatable k E) id (image.build called arg)

/-- The step `image` leaves the tokens of `step`, retold, and its outcome mirrors that of `step`. -/
structure Step.Mirrors (all : List Token) (k : Nat) (ends : Int → Int → Prop)
    (E : Failure → Failure → Prop) (φ : α → β) (step : Step α) (image : Step β) : Prop where
  left : Left all step.rest
  rest : Retold k ends false step.rest image.rest
  outcome : step.outcome.Mirrors E φ image.outcome

section Steps

variable {all rest others : List Token} {k : Nat} {ends : Int → Int → Prop}
  {E : Failure → Failure → Prop} {φ : α → β} {ψ : γ → δ} {step : Step α} {image : Step β}

theorem Step.mirrors_value (hleft : Left all rest) (hrest : Retold k ends false rest others) {a : α}
    {b : β} (h : b = φ a) : (Step.value rest a).Mirrors all k ends E φ (Step.value others b) :=
  ⟨hleft, hrest, Traced.mirrors_value h⟩

theorem Step.mirrors_error (hleft : Left all rest) (hrest : Retold k ends false rest others)
    {e e' : SelectorError} (h : E (.ofError e) (.ofError e')) :
    (Step.error rest e : Step α).Mirrors all k ends E φ (Step.error others e') :=
  ⟨hleft, hrest, Traced.mirrors_error h⟩

theorem Step.Mirrors.map {f : α → γ} {f' : β → δ} (h : step.Mirrors all k ends E φ image)
    (hf : ∀ a, f' (φ a) = ψ (f a)) : (step.map f).Mirrors all k ends E ψ (image.map f') :=
  ⟨h.left, h.rest, h.outcome.map hf⟩

/-- Sequences of steps mirror each other if their parts do. -/
theorem Step.Mirrors.bind {next : α → List Token → Step γ} {next' : β → List Token → Step δ}
    (h : step.Mirrors all k ends E φ image)
    (hnext : ∀ a, (next a step.rest).Mirrors all k ends E ψ (next' (φ a) image.rest)) :
    (step.bind next).Mirrors all k ends E ψ (image.bind next') := by
  obtain ⟨rest, log, result⟩ := step
  obtain ⟨rest', log', result'⟩ := image
  obtain ⟨hleft, hrest, hlog, hresult⟩ := h
  cases hlog
  cases hresult with
  | ok a =>
    obtain ⟨hleft', hrest', hlog, houtcome⟩ := hnext a
    exact ⟨hleft', hrest', congrArg (log ++ ·) hlog, houtcome⟩
  | error h => exact ⟨hleft, hrest, rfl, .error h⟩

end Steps

/-! ## The layers -/

section Layers

variable {all tokens others rest : List Token} {k : Nat} {ends : Int → Int → Prop}
  {E : Failure → Failure → Prop} {s image : Setting} (hs : s.Mirrors all k ends E image)

theorem unmarked?_moved (t : Token) :
    unmarked? (t.moved k) = (unmarked? t).map (SimpleOf.moved k) := by
  unfold unmarked?
  rw [Token.kind_moved]
  split <;> rfl

theorem unmarked?_retold {t other : Token} (h : Token.Retold k ends false t other) :
    unmarked? other = (unmarked? t).map (SimpleOf.moved k) := by
  cases h with
  | moved => exact unmarked?_moved t
  | ending => rfl

theorem kind_ne_eof_of_unmarked {t : Token} {simple : Simple} (h : unmarked? t = some simple) :
    t.kind ≠ .eof := by
  intro hkind
  simp [unmarked?, hkind] at h

theorem isMarker_of_unmarked {t : Token} {simple : Simple} (h : unmarked? t = some simple) :
    isMarker t.kind = false := by
  unfold unmarked? at h
  split at h <;> simp_all [isMarker]

theorem kind_ne_eof_of_isMarker {t : Token} (h : isMarker t.kind = true) : t.kind ≠ .eof := by
  intro hkind
  simp [isMarker, hkind] at h

theorem Left.enclosed (h : Left all tokens) (paren : Token) :
    Left all (enclosed paren tokens).rest := by
  unfold Grammar.enclosed
  by_cases hstring : (peek tokens).kind = .string
  · rw [if_pos hstring]
    exact h.tail (by simp [hstring])
  · rw [if_neg hstring]
    exact h

/-- What stands behind the parenthesis is the same text, further on, in front of tokens that are
retold. -/
theorem enclosed_retold (hleft : Left all tokens) (h : Retold k ends false tokens others)
    (paren : Token) :
    (enclosed (paren.moved k) others).text = (enclosed paren tokens).text ∧
      (enclosed (paren.moved k) others).start = (enclosed paren tokens).start + k ∧
      Retold k ends false (enclosed paren tokens).rest (enclosed (paren.moved k) others).rest := by
  have hpeek := h.peek_of_left hleft
  unfold enclosed
  rw [hpeek.kind_eq]
  by_cases hstring : (peek tokens).kind = .string
  · rw [if_pos hstring, if_pos hstring, hpeek.eq_moved (by simp [hstring])]
    exact ⟨rfl, rfl, h.tail_of_kind hstring rfl⟩
  · rw [if_neg hstring, if_neg hstring, Token.pos_moved]
    have hstart : paren.pos + k + 1 = paren.pos + 1 + k := by omega
    exact ⟨rfl, hstart, h⟩

/-- What stands behind an opening parenthesis is asked for. -/
theorem asked_enclosed {name paren : Token} (hparen : paren.kind = .parenOpen)
    (h : name :: paren :: tokens <:+ all) :
    Asked all (calledBy name) (enclosed paren tokens).text := by
  unfold enclosed
  by_cases hstring : (peek tokens).kind = .string
  · rw [if_pos hstring]
    cases tokens with
    | nil => cases hstring
    | cons string rest =>
      have hprefix : [name, paren, string] <+: name :: paren :: string :: rest := ⟨rest, rfl⟩
      have hrow := hprefix.isInfix.trans h.isInfix
      exact .given hrow hparen hstring
  · rw [if_neg hstring]
    exact .missing _

/-- What is done with a compound selector is done with the moved one. -/
theorem compoundOr_mirrors {φ : α → β} {simples : List Simple} {e e' : SelectorError}
    (hleft : Left all rest) (hrest : Retold k ends false rest others)
    (he : E (.ofError e) (.ofError e')) {next : Compound → Step α} {next' : Compound → Step β}
    (hnext : ∀ c, (next c).Mirrors all k ends E φ (next' (c.moved k))) :
    (compoundOr e simples rest next).Mirrors all k ends E φ
      (compoundOr e' (simples.map (SimpleOf.moved k)) others next') := by
  cases simples with
  | nil => exact Step.mirrors_error hleft hrest he
  | cons first others => exact hnext ⟨first, others⟩

include hs

theorem named_mirrors (marker : Token) {name other : Token} (hpos : other.pos = name.pos + k)
    (hcalled : calledBy other = calledBy name) :
    (named s marker name).Mirrors E (SimpleOf.moved k) (named image (marker.moved k) other) := by
  unfold named
  simp only [Token.kind_moved, hcalled, hs.level]
  by_cases hdouble : marker.kind = .doubleColon
  · rw [if_pos hdouble, if_pos hdouble]
    by_cases helement : s.context.level.admitsElement (calledBy name) = true
    · rw [if_pos helement, if_pos helement]
      exact Traced.mirrors_value rfl
    · rw [if_neg helement, if_neg helement]
      exact Traced.mirrors_error (hs.unknownName _ _ hpos)
  · rw [if_neg hdouble, if_neg hdouble]
    by_cases hclass : s.context.level.admitsClass (calledBy name) = true
    · rw [if_pos hclass, if_pos hclass]
      exact Traced.mirrors_value rfl
    · rw [if_neg hclass, if_neg hclass]
      by_cases hlegacy : s.context.level.admitsLegacyElement (calledBy name) = true
      · rw [if_pos hlegacy, if_pos hlegacy]
        exact Traced.mirrors_value rfl
      · rw [if_neg hlegacy, if_neg hlegacy]
        exact Traced.mirrors_error (hs.unknownName _ _ hpos)

theorem call_mirrors (marker : Token) {name other : Token} (hpos : other.pos = name.pos + k)
    (hcalled : calledBy other = calledBy name) {arg : Option Text}
    (hasked : Asked all (calledBy name) arg) (start : Int) :
    (call s marker name arg start).Mirrors E (SimpleOf.moved k)
      (call image (marker.moved k) other arg (start + k)) := by
  unfold call
  simp only [Token.kind_moved, hcalled, hs.level]
  by_cases hdouble : marker.kind = .doubleColon
  · rw [if_pos hdouble, if_pos hdouble]
    exact Traced.mirrors_error (hs.unknownName _ _ hpos)
  · rw [if_neg hdouble, if_neg hdouble]
    by_cases hfunction : s.context.level.admitsFunction (calledBy name) = true
    · rw [if_pos hfunction, if_pos hfunction]
      have hbuild : ((s.build (calledBy name) arg).mapFailure (·.relocated start)).Mirrors E id
          ((image.build (calledBy name) arg).mapFailure (·.relocated (start + k))) :=
        (hs.build hasked).mapFailure fun _ _ hfailure => hfailure start
      exact hbuild.map fun _ => rfl
    · rw [if_neg hfunction, if_neg hfunction]
      exact Traced.mirrors_error (hs.unknownName _ _ hpos)

theorem functional_mirrors (marker : Token) {name other paren : Token}
    (hpos : other.pos = name.pos + k) (hcalled : calledBy other = calledBy name)
    (hparen : paren.kind = .parenOpen) (hleft : Left all tokens)
    (h : Retold k ends false tokens others) (hcall : name :: paren :: tokens <:+ all) :
    (functional s marker name paren tokens).Mirrors all k ends E (SimpleOf.moved k)
      (functional image (marker.moved k) other (paren.moved k) others) := by
  have hinside : Left all (enclosed paren tokens).rest := hleft.enclosed paren
  obtain ⟨htext, hstart, hrest⟩ := enclosed_retold hleft h paren
  have hpeek := hrest.peek_of_left hinside
  unfold functional
  simp only [htext, hstart, hpeek.kind_eq]
  by_cases hclose : (peek (enclosed paren tokens).rest).kind = .parenClose
  · rw [if_pos hclose, if_pos hclose]
    exact ⟨hinside.tail (by simp [hclose]), hrest.tail_of_kind hclose rfl,
      call_mirrors hs marker hpos hcalled (asked_enclosed hparen hcall) _⟩
  · rw [if_neg hclose, if_neg hclose]
    exact Step.mirrors_error hinside hrest (hs.unexpected hpeek)

theorem pseudo_mirrors (marker : Token) (hleft : Left all tokens)
    (h : Retold k ends true tokens others) :
    (pseudo s marker tokens).Mirrors all k ends E (SimpleOf.moved k)
      (pseudo image (marker.moved k) others) := by
  have hpeek := h.peek_of_left hleft
  unfold pseudo
  rw [hpeek.kind_eq]
  by_cases htag : (peek tokens).kind = .tag
  · obtain ⟨hpos, hcalled⟩ := hpeek.of_tag htag
    have htail : Left all tokens.tail := hleft.tail (by simp [htag])
    have hrest : Retold k ends false tokens.tail others.tail := h.tail_of_kind htag rfl
    have hnext := hrest.peek_of_left htail
    rw [if_pos htag, if_pos htag, hnext.kind_eq]
    by_cases hparen : (peek tokens.tail).kind = .parenOpen
    · have hbehind : Left all tokens.tail.tail := htail.tail (by simp [hparen])
      have hcall : peek tokens :: peek tokens.tail :: tokens.tail.tail <:+ all := by
        obtain ⟨name, rest, rfl⟩ := List.exists_cons_of_ne_nil hleft.ne_nil
        obtain ⟨paren, rest, rfl⟩ := List.exists_cons_of_ne_nil htail.ne_nil
        exact hleft.suffix
      rw [if_pos hparen, if_pos hparen, hnext.eq_moved (by simp [hparen])]
      exact functional_mirrors hs marker hpos hcalled hparen hbehind (hrest.tail_of_kind hparen rfl)
        hcall
    · rw [if_neg hparen, if_neg hparen]
      exact ⟨htail, hrest, named_mirrors hs marker hpos hcalled⟩
  · rw [if_neg htag, if_neg htag]
    exact Step.mirrors_error hleft (h.unnamed htag) (hs.unexpected (hpeek.unnamed htag))

theorem items_mirrors (hleft : Left all tokens) (h : Retold k ends false tokens others) :
    (items s tokens).Mirrors all k ends E (List.map (SimpleOf.moved k)) (items image others) := by
  induction hn : tokens.length using Nat.strongRecOn generalizing tokens others with
  | _ n ih =>
    cases h with
    | nil => exact absurd rfl hleft.ne_nil
    | @cons _ t other rest others hfirst hothers =>
      rw [List.length_cons] at hn
      rw [items_cons, items_cons, unmarked?_retold hfirst, hfirst.kind_eq]
      cases hunmarked : unmarked? t with
      | some simple =>
        have hrest : Left all rest := hleft.of_cons (kind_ne_eof_of_unmarked hunmarked)
        rw [isMarker_of_unmarked hunmarked] at hothers
        exact (ih rest.length (by omega) hrest hothers rfl).map fun _ => rfl
      | none =>
        by_cases hmarker : isMarker t.kind = true
        · have hkind := kind_ne_eof_of_isMarker hmarker
          rw [hmarker] at hothers
          have hpseudo := pseudo_mirrors hs t (hleft.of_cons hkind) hothers
          have hshorter := length_rest_pseudo_le s t rest
          simp only [Option.map_none, if_pos hmarker, hfirst.eq_moved hkind]
          refine hpseudo.bind fun simple => ?_
          exact (ih _ (by omega) hpseudo.left hpseudo.rest rfl).map fun _ => rfl
        · simp only [Option.map_none, if_neg hmarker]
          exact Step.mirrors_value hleft (.cons hfirst hothers) rfl

theorem links_mirrors (hleft : Left all tokens) (h : Retold k ends false tokens others) :
    (links s tokens).Mirrors all k ends E (List.map (Link.moved k)) (links image others) := by
  induction hn : tokens.length using Nat.strongRecOn generalizing tokens others with
  | _ n ih =>
    cases h with
    | nil => exact absurd rfl hleft.ne_nil
    | @cons _ t other rest others hfirst hothers =>
      rw [List.length_cons] at hn
      rw [links_cons, links_cons, hfirst.kind_eq]
      by_cases hkind : t.kind = .combinator
      · have hmarker : isMarker t.kind = false := by rw [hkind]; rfl
        rw [hmarker] at hothers
        have hitems := items_mirrors hs (hleft.of_cons (by simp [hkind])) hothers
        have hshorter := length_rest_items_le s rest
        rw [if_pos hkind, if_pos hkind, hfirst.eq_moved (by simp [hkind])]
        refine hitems.bind fun simples => ?_
        refine compoundOr_mirrors hitems.left hitems.rest (hs.dangling t) fun c => ?_
        exact (ih _ (by omega) hitems.left hitems.rest rfl).map fun _ => rfl
      · rw [if_neg hkind, if_neg hkind]
        exact Step.mirrors_value hleft (.cons hfirst hothers) rfl

theorem complex_mirrors (hleft : Left all tokens) (h : Retold k ends false tokens others) :
    (complex s tokens).Mirrors all k ends E (Complex.moved k) (complex image others) := by
  have hitems := items_mirrors hs hleft h
  rw [complex_eq, complex_eq]
  refine hitems.bind fun simples => ?_
  have hpeek := hitems.rest.peek_of_left hitems.left
  refine compoundOr_mirrors hitems.left hitems.rest (hs.unexpected hpeek) fun c => ?_
  exact (links_mirrors hs hitems.left hitems.rest).map fun _ => rfl

theorem members_mirrors (hleft : Left all tokens) (h : Retold k ends false tokens others) :
    (members s tokens).Mirrors all k ends E (List.map (Complex.moved k)) (members image others) := by
  induction hn : tokens.length using Nat.strongRecOn generalizing tokens others with
  | _ n ih =>
    cases h with
    | nil => exact absurd rfl hleft.ne_nil
    | @cons _ t other rest others hfirst hothers =>
      rw [List.length_cons] at hn
      rw [members_cons, members_cons, hfirst.kind_eq]
      by_cases hkind : t.kind = .comma
      · have hmarker : isMarker t.kind = false := by rw [hkind]; rfl
        rw [hmarker] at hothers
        have hcomplex := complex_mirrors hs (hleft.of_cons (by simp [hkind])) hothers
        have hshorter := length_rest_complex_le s rest
        rw [if_pos hkind, if_pos hkind]
        refine hcomplex.bind fun c => ?_
        exact (ih _ (by omega) hcomplex.left hcomplex.rest rfl).map fun _ => rfl
      · rw [if_neg hkind, if_neg hkind]
        exact Step.mirrors_value hleft (.cons hfirst hothers) rfl

theorem valueAtEnd_mirrors {φ : α → β} (hleft : Left all rest)
    (h : Retold k ends false rest others) (a : α) :
    (valueAtEnd s a rest).Mirrors all k ends E φ (valueAtEnd image (φ a) others) := by
  have hpeek := h.peek_of_left hleft
  unfold valueAtEnd
  rw [hpeek.kind_eq]
  by_cases heof : (peek rest).kind = .eof
  · rw [if_pos heof, if_pos heof]
    exact Step.mirrors_value hleft h rfl
  · rw [if_neg heof, if_neg heof]
    exact Step.mirrors_error hleft h (hs.unexpected hpeek)

/-- Under settings that mirror each other, tokens that are retold are the moved selector, or they
are none for a reason that is related to that of the others. -/
theorem selector_mirrors (hleft : Left all tokens) (h : Retold k ends false tokens others) :
    (selector s tokens).Mirrors all k ends E (Selector.moved k) (selector image others) := by
  have hcomplex := complex_mirrors hs hleft h
  rw [selector_eq, selector_eq]
  refine hcomplex.bind fun first => ?_
  have hmembers : ((members s (complex s tokens).rest).map (Selector.ofMembers first)).Mirrors all k
      ends E (Selector.moved k) ((members image (complex image others).rest).map
        (Selector.ofMembers (first.moved k))) :=
    (members_mirrors hs hcomplex.left hcomplex.rest).map
      fun _ => (Selector.moved_ofMembers k first _).symm
  exact hmembers.bind fun selector => valueAtEnd_mirrors hs hmembers.left hmembers.rest selector

end Layers

end Grammar

end SelectorCheck
