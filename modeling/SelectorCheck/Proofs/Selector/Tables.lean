import Mathlib.Data.List.Forall2
import SelectorCheck.Proofs.Selector.Mirror
import SelectorCheck.Proofs.Selector.Parsed
import SelectorCheck.Proofs.Token.Shape

/-!
# Contexts with the same tables

A context is read for its tables of names and for nothing else. It is also handed on
to the selectors in negations, defaulted where none is given, and named by the
errors, but none of that tells on what a selector is. Under two contexts that stand
for the same tables the two readings mirror each other: they come to the same
selector, or to failures that are the same link by link in everything but the
contexts that they name.

Few contexts stand for the same tables. The language of messages never matters, the
second version and its revision have the same tables under every profile, and all
other contexts differ in a name.

## Main definitions

* `SelectorError.Agrees`, `Failure.Agrees` — the same errors, but for contexts.

## Main results

* `buildWith_agrees` — functions are built alike under any two contexts.
* `Selector.parseWithin_agrees` — selectors are read alike where the tables are the same.
* `Context.level_eq_iff` — which contexts stand for the same tables.
* `Selector.outcome_of_same_tables` — both, for whole selectors.
-/

namespace SelectorCheck

open Grammar (Relocatable)

/-! ## The same errors -/

/-- The errors are the same but for the contexts that they name. -/
structure SelectorError.Agrees (e other : SelectorError) : Prop where
  errorClass : other.errorClass = e.errorClass
  code : other.code = e.code
  name : other.name = e.name
  value : other.value = e.value
  token : other.token = e.token
  message : other.message = e.message
  position : other.position = e.position

namespace SelectorError

variable {e other : SelectorError}

theorem Agrees.refl (e : SelectorError) : e.Agrees e := ⟨rfl, rfl, rfl, rfl, rfl, rfl, rfl⟩

/-- An error that names another context. -/
theorem agrees_context (e : SelectorError) (context : Option Context) :
    e.Agrees { e with context := context } := ⟨rfl, rfl, rfl, rfl, rfl, rfl, rfl⟩

/-- Errors that agree do so wherever the text stands. -/
theorem Agrees.relocated (h : e.Agrees other) (start : Int) :
    (e.relocated start).Agrees (other.relocated start) where
  errorClass := h.errorClass
  code := h.code
  name := h.name
  value := h.value
  token := h.token
  message := h.message
  position := by rw [position_relocated, position_relocated, h.position]

end SelectorError

/-- The failures agree link by link. -/
structure Failure.Agrees (f g : Failure) : Prop where
  error : f.error.Agrees g.error
  causes : List.Forall₂ SelectorError.Agrees f.causes g.causes

namespace Failure

variable {f g : Failure} {e other : SelectorError}

theorem agrees_ofError (h : e.Agrees other) : (ofError e).Agrees (ofError other) := ⟨h, .nil⟩

/-- An error in front of failures that agree. -/
theorem Agrees.causing (h : f.Agrees g) (he : e.Agrees other) :
    (f.causing e).Agrees (g.causing other) := ⟨he, .cons h.error h.causes⟩

/-- What is wrong in an argument agrees wherever the argument stands. -/
theorem Agrees.relocatable (h : f.Agrees g) : Relocatable 0 Agrees f g := by
  intro start
  rw [Int.natCast_zero, Int.add_zero]
  exact h.causing (h.error.relocated start)

end Failure

/-! ## Functions -/

/-- The context of a reader of arguments is what its errors name. -/
theorem LanguageTag.parse_context (name : Text) (value : Option Text) (c d : Option Context) :
    LanguageTag.parse name value d =
      (LanguageTag.parse name value c).mapError fun e => { e with context := d } := by
  unfold LanguageTag.parse
  cases value with
  | none => rfl
  | some v =>
    dsimp only
    split
    · rfl
    · cases LanguageTag.read (Cursor.ofText v.trimEnd).skipBlanks <;> rfl

theorem Nth.parse_context (name : Text) (value : Option Text) (c d : Option Context) :
    Nth.parse name value d =
      (Nth.parse name value c).mapError fun e => { e with context := d } := by
  unfold Nth.parse
  cases value with
  | none => rfl
  | some v =>
    dsimp only
    split
    · rfl
    · cases Nth.ofWord? v.trim with
      | some expression => rfl
      | none => cases Nth.read (.ofText v) <;> rfl

section Functions

variable {read other : Text → Traced Selector} {c d : Option Context}

/-- An argument that is no selector is none for reasons that agree. -/
private theorem unreadable_agrees {f g : Failure} (name v : Text) (h : f.Agrees g) :
    (f.causing (Negation.unreadable name v c f.error)).Agrees
      (g.causing (Negation.unreadable name v d g.error)) := by
  refine h.causing ?_
  have hmessage : g.error.message = f.error.message := h.error.message
  have hposition : g.error.position = f.error.position := h.error.position
  rw [Negation.unreadable, Negation.unreadable, hmessage, hposition]
  exact SelectorError.agrees_context _ d

theorem Negation.parse_agrees (hread : ∀ arg, (read arg).Mirrors Failure.Agrees id (other arg))
    (name : Text) (value : Option Text) :
    (Negation.parse read name value c).Mirrors Failure.Agrees id
      (Negation.parse other name value d) := by
  have hmissing : ∀ value, (SelectorError.missingArgument name value c).Agrees
      (.missingArgument name value d) := fun value => SelectorError.agrees_context _ d
  cases value with
  | none => exact Traced.mirrors_error (Failure.agrees_ofError (hmissing none))
  | some v =>
    unfold Negation.parse
    dsimp only
    by_cases hblank : v.allBlank = true
    · rw [if_pos hblank, if_pos hblank]
      exact Traced.mirrors_error (Failure.agrees_ofError (hmissing (some v)))
    · rw [if_neg hblank, if_neg hblank]
      refine ((hread v).mapFailure fun _ _ h => unreadable_agrees name v h).bind fun s => ?_
      rw [id_eq]
      cases Negation.accept s with
      | ok simple => exact Traced.mirrors_value rfl
      | error objection =>
        exact Traced.mirrors_error (Failure.agrees_ofError (SelectorError.agrees_context _ d))

theorem FunctionKind.construct_agrees (kind : FunctionKind)
    (hread : ∀ arg, (read arg).Mirrors Failure.Agrees id (other arg)) (name : Text)
    (value : Option Text) :
    (kind.construct read name value c).Mirrors Failure.Agrees id
      (kind.construct other name value d) := by
  cases kind with
  | lang =>
    rw [construct, construct, LanguageTag.parse_context name value c d]
    refine (Traced.mirrors_mapError fun e _ => ?_).map fun _ => rfl
    exact Failure.agrees_ofError (SelectorError.agrees_context e d)
  | nth kind =>
    rw [construct, construct, Nth.parse_context name value c d]
    refine (Traced.mirrors_mapError fun e _ => ?_).map fun _ => rfl
    exact Failure.agrees_ofError (SelectorError.agrees_context e d)
  | negation => exact (Negation.parse_agrees hread name value).map fun _ => rfl

/-- If selectors are read alike, functions are built alike, whatever the contexts are. -/
theorem buildWith_agrees (hread : ∀ arg, (read arg).Mirrors Failure.Agrees id (other arg))
    (name value : Option Text) :
    (buildWith read name value c).Mirrors Failure.Agrees id (buildWith other name value d) := by
  cases name with
  | none =>
    exact Traced.mirrors_error (Failure.agrees_ofError (SelectorError.agrees_context _ d))
  | some called =>
    cases called with
    | nil =>
      exact Traced.mirrors_error (Failure.agrees_ofError (SelectorError.agrees_context _ d))
    | cons first rest =>
      unfold buildWith
      dsimp only
      cases FunctionKind.ofName? (first :: rest) with
      | none =>
        refine Traced.Mirrors.recording (Traced.mirrors_error ?_) _
        exact Failure.agrees_ofError (SelectorError.agrees_context _ d)
      | some kind => exact (kind.construct_agrees hread _ value).recording _

end Functions

/-! ## Selectors -/

namespace Selector

variable {c d : Option Context} {source : Text}

/-- Settings with the same tables mirror each other on tokens that stay where they are. -/
private theorem setting_agrees {read other : Option Context → Text → Traced Selector}
    (hlevel : levelOf c = levelOf d)
    (hread : ∀ arg, (read (some (c.getD .standard)) arg).Mirrors Failure.Agrees id
      (other (some (d.getD .standard)) arg)) (source : Option Text) (tokens : List Token) :
    (setting read c source).Mirrors tokens 0 (fun _ _ => False) Failure.Agrees
      (setting other d source) where
  level := hlevel.symm
  unexpected := by
    rintro t _ ⟨⟩
    · rw [Token.moved_zero]
      exact Failure.agrees_ofError (.refl _)
    · contradiction
  dangling t := by
    rw [Token.moved_zero]
    exact Failure.agrees_ofError (.refl _)
  unknownName code called t other hpos := by
    rw [Int.natCast_zero, Int.add_zero] at hpos
    unfold Grammar.unknownName
    rw [hpos]
    exact Failure.agrees_ofError (SelectorError.agrees_context _ (some (d.getD .standard)))
  build _ := (buildWith_agrees hread _ _).imp fun _ _ h => h.relocatable

private theorem empty_agrees (source : Option Text) :
    (Traced.error (empty source c) : Traced Selector).Mirrors Failure.Agrees id
      (.error (empty source d)) :=
  Traced.mirrors_error (Failure.agrees_ofError (SelectorError.agrees_context _ d))

/-- To whatever depth a selector is read, it is read alike where the tables are the same. -/
theorem parseWithin_agrees (depth : Nat) (hlevel : levelOf c = levelOf d) (source : Text) :
    (parseWithin depth c source).Mirrors Failure.Agrees id (parseWithin depth d source) := by
  induction depth generalizing c d source with
  | zero => exact empty_agrees (some source)
  | succ depth ih =>
    cases hblank : source.allBlank with
    | true =>
      rw [parseWithin, parseWithin, if_pos hblank, if_pos hblank]
      exact empty_agrees (some source)
    | false =>
      cases htokens : Token.ofSelector source with
      | error e =>
        rw [parseWithin_of_malformed depth c hblank htokens,
          parseWithin_of_malformed depth d hblank htokens]
        exact Traced.mirrors_error (Failure.agrees_ofError (.refl e))
      | ok tokens =>
        rw [parseWithin_of_tokens depth c hblank htokens,
          parseWithin_of_tokens depth d hblank htokens]
        -- A negation hands on the context that holds, which stands for the same tables again.
        have hinner : levelOf (some (c.getD .standard)) = levelOf (some (d.getD .standard)) :=
          hlevel
        have hread : ∀ arg, (parseWithin depth (some (c.getD .standard)) arg).Mirrors Failure.Agrees
            id (parseWithin depth (some (d.getD .standard)) arg) := fun arg => ih hinner arg
        have hsetting := setting_agrees hlevel hread (some source) tokens
        have hmirrors := (Grammar.selector_mirrors hsetting
          ⟨List.suffix_refl tokens, Token.exists_end htokens⟩ (.refl false tokens)).outcome
        have hstays : moved 0 = id := funext moved_zero
        rwa [hstays] at hmirrors

/-- The same for selectors that may be missing. -/
theorem parse?_agrees (hlevel : levelOf c = levelOf d) (source : Option Text) :
    (parse? c source).Mirrors Failure.Agrees id (parse? d source) := by
  cases source with
  | none => exact empty_agrees none
  | some text => exact parseWithin_agrees (depthFor text) hlevel text

end Selector

/-! ## Contexts with the same tables -/

namespace Level

/-- The pseudo-elements tell versions apart, up to the revision of the second one. -/
theorem versionElements_eq_iff (v w : Version) :
    versionElements v = versionElements w ↔
      v = w ∨ v ∈ [.css2, .css21] ∧ w ∈ [.css2, .css21] := by
  cases v <;> cases w <;> decide +kernel

/-- The pseudo-classes tell profiles apart, under any version. -/
theorem eq_of_classes_eq {v : Version} {p q : Profile}
    (h : (of (some v) (some p)).classes = (of (some v) (some q)).classes) : p = q := by
  revert h
  cases v <;> cases p <;> cases q <;> decide +kernel

/-- The second version and its revision have the same tables. -/
theorem of_eq_of_revised {v w : Version} (h : v = w ∨ v ∈ [.css2, .css21] ∧ w ∈ [.css2, .css21])
    (profile : Option Profile) : of (some v) profile = of (some w) profile := by
  rcases h with rfl | ⟨hv, hw⟩
  · rfl
  · simp only [List.mem_cons, List.not_mem_nil, or_false] at hv hw
    rcases hv with rfl | rfl <;> rcases hw with rfl | rfl <;> rfl

end Level

/-- Contexts stand for the same tables if they have the same profile and the same version, up to the
revision of the second version, and only then. -/
theorem Context.level_eq_iff (c d : Context) :
    c.level = d.level ↔ c.profile = d.profile ∧ (c.version = d.version ∨
      c.version ∈ [.css2, .css21] ∧ d.version ∈ [.css2, .css21]) := by
  constructor
  · intro h
    have helements : Level.versionElements c.version = Level.versionElements d.version :=
      Option.some.inj (congrArg Level.elements h)
    have hversion := (Level.versionElements_eq_iff c.version d.version).mp helements
    have hclasses : (Level.of (some c.version) (some c.profile)).classes =
        (Level.of (some c.version) (some d.profile)).classes := by
      rw [Level.of_eq_of_revised hversion (some d.profile)]
      exact congrArg Level.classes h
    exact ⟨Level.eq_of_classes_eq hclasses, hversion⟩
  · rintro ⟨hprofile, hversion⟩
    show Level.of (some c.version) (some c.profile) = Level.of (some d.version) (some d.profile)
    rw [hprofile, Level.of_eq_of_revised hversion]

namespace Selector

/-- The outcome depends on the context only through its tables. Under two contexts with the same
tables the selector is the same, or the failures agree link by link in class, code, name, value,
token, wording and place. Such contexts are any two that differ in the language of messages only,
those of the second version and its revision with the same profile, and none against the standard
one. -/
theorem outcome_of_same_tables :
    (∀ c d : Option Context, levelOf c = levelOf d → ∀ source : Option Text,
      (∃ selector, (parse? c source).result = .ok selector ∧
        (parse? d source).result = .ok selector) ∨
      ∃ f g, (parse? c source).result = .error f ∧ (parse? d source).result = .error g ∧
        f.Agrees g) ∧
    (∀ c d : Context, levelOf (some c) = levelOf (some d) ↔
      c.profile = d.profile ∧ (c.version = d.version ∨
        c.version ∈ [.css2, .css21] ∧ d.version ∈ [.css2, .css21])) ∧
    levelOf none = levelOf (some .standard) := by
  refine ⟨fun c d hlevel source => ?_, Context.level_eq_iff, rfl⟩
  have hmirrored := (parse?_agrees hlevel source).result
  generalize (parse? c source).result = first at hmirrored ⊢
  generalize (parse? d source).result = second at hmirrored ⊢
  cases hmirrored with
  | ok selector => exact .inl ⟨selector, rfl, rfl⟩
  | error h => exact .inr ⟨_, _, rfl, rfl, h⟩

/-- An expression that is none, within a negation. No context and one for messages in no language
are named by the errors, and nothing else differs in the four links. -/
theorem outcome_of_same_tables_of_language :
    levelOf none = levelOf (some ⟨.css3, .general, none⟩) ∧
      ∃ f g, (parse? none (some "a:not(:nth-child(x))".toList)).result = .error f ∧
        (parse? (some ⟨.css3, .general, none⟩) (some "a:not(:nth-child(x))".toList)).result =
          .error g ∧
        f.causes.length = 3 ∧ f.error.context ≠ g.error.context ∧ f.Agrees g := by
  have hlevel : levelOf none = levelOf (some ⟨.css3, .general, none⟩) := rfl
  have hfirst : ((parse? none (some "a:not(:nth-child(x))".toList)).result.mapError fun f =>
      (f.causes.length, f.error.context)) = .error (3, some .standard) := by
    decide +kernel
  have hsecond : ((parse? (some ⟨.css3, .general, none⟩)
      (some "a:not(:nth-child(x))".toList)).result.mapError fun f => f.error.context) =
        .error (some ⟨.css3, .general, none⟩) := by
    decide +kernel
  rcases outcome_of_same_tables.1 none (some ⟨.css3, .general, none⟩) hlevel
    (some "a:not(:nth-child(x))".toList) with ⟨selector, hselector, -⟩ | ⟨f, g, hf, hg, hagrees⟩
  · rw [hselector] at hfirst
    cases hfirst
  · rw [hf] at hfirst
    rw [hg] at hsecond
    obtain ⟨hlength, hcontext⟩ := Prod.mk.inj (Except.error.inj hfirst)
    have hother : g.error.context = some ⟨.css3, .general, none⟩ := Except.error.inj hsecond
    refine ⟨hlevel, f, g, hf, hg, hlength, ?_, hagrees⟩
    rw [hcontext, hother]
    decide

end Selector

end SelectorCheck
