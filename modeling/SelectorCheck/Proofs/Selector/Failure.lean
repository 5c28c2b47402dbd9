import SelectorCheck.Proofs.Selector.Argument

/-!
# Why selectors are rejected, and what is asked for

The grammar gives up for one of four reasons: a token cannot stand where it does,
nothing follows a combinator, a pseudo name is not admitted, or the function that
a name calls cannot be built. Each reason is about the tokens at some place, and
the records that are left on the way are those of the functions that calls among
the tokens ask for. Both are said here of every layer, whatever the tokens are.

## Main definitions

* `Grammar.Calls` — the functions that calls among the tokens ask for, and where
  their arguments begin.
* `Grammar.Fails` — the reasons.
* `Grammar.Step.Explained` — what a layer comes to, with its reason.
* `ArgumentError` — the reasons for which an argument is rejected.
* `Unbuilt` — the reasons for which a function cannot be built.

## Main results

* `Grammar.selector_explained` — the grammar fails for one of the reasons, and
  records calls only.
* `unbuilt_of_error`, `mem_log_buildWith` — the same for building functions.
* `Selector.readBy_cases`, `Selector.parseWithin_cases` — the same for selectors.
* `Grammar.Calls.length_le` — a negation is given less than the selector it is in.
-/

namespace SelectorCheck.Grammar

open Traced

/-- A call among the tokens `all` asks for the function `called` with the argument text `arg`, which
begins at `start`. -/
inductive Calls (all : List Token) :
    (called : Text) → (arg : Option Text) → (start : Int) → Prop where
  | mk {marker name paren : Token} {rest : List Token} (h : marker :: name :: paren :: rest <:+ all)
      (hmarker : isMarker marker.kind = true) (hparen : paren.kind = .parenOpen) :
      Calls all (calledBy name) (enclosed paren rest).text (enclosed paren rest).start

/-- The reasons for which the grammar fails on the tokens `all`. -/
inductive Fails (s : Setting) (all : List Token) : Failure → Prop where
  | unexpected (t : Token) : Fails s all (.ofError (unexpected s t))
  | dangling (t : Token) : Fails s all (.ofError (dangling s t))
  /-- A name that is not admitted. As the name of a function it is in no table of functions. -/
  | name {marker name : Token} {rest : List Token} {code : ErrorCode}
      (h : marker :: name :: rest <:+ all) (hmarker : isMarker marker.kind = true)
      (hcode : code.errorClass = .unknownName)
      (hfunction : code = .unknownPseudoFunction →
        s.context.level.admitsFunction (calledBy name) = false) :
      Fails s all (.ofError (unknownName s code (calledBy name) name))
  /-- A function that is admitted and cannot be built. -/
  | argument {called : Text} {arg : Option Text} {start : Int} {cause : Failure}
      (h : Calls all called arg start) (hadmits : s.context.level.admitsFunction called = true)
      (hcause : (s.build called arg).result = .error cause) : Fails s all (cause.relocated start)

/-- The record is left by building a function that a call among the tokens asks for. -/
def Recorded (s : Setting) (all : List Token) (r : LogRecord) : Prop :=
  ∃ called arg start, Calls all called arg start ∧ r ∈ (s.build called arg).log

/-- A computation that fails for one of the reasons, if it does, and records calls only. -/
structure Explained {α : Type} (s : Setting) (all : List Token) (t : Traced α) : Prop where
  failure : ∀ f, t.result = .error f → Fails s all f
  log : ∀ r ∈ t.log, Recorded s all r

/-- A step that fails for one of the reasons, if it does, records calls only and leaves the last
ones of the tokens. -/
structure Step.Explained {α : Type} (s : Setting) (all : List Token) (step : Step α) : Prop where
  left : Left all step.rest
  outcome : Grammar.Explained s all step.outcome

variable {α β : Type} {s : Setting} {all tokens rest : List Token}

/-! ## Steps -/

theorem explained_value (a : α) : Explained s all (Traced.value a) :=
  ⟨by simp, by simp⟩

theorem explained_error {e : SelectorError} (h : Fails s all (.ofError e)) :
    Explained s all (Traced.error e : Traced α) := by
  refine ⟨fun f hf => ?_, fun r hr => by cases hr⟩
  cases hf
  exact h

namespace Step

variable {step : Step α}

theorem explained_value (hrest : Left all rest) (a : α) : (value rest a).Explained s all :=
  ⟨hrest, Grammar.explained_value a⟩

theorem explained_error (hrest : Left all rest) {e : SelectorError} (h : Fails s all (.ofError e)) :
    (error rest e : Step α).Explained s all :=
  ⟨hrest, Grammar.explained_error h⟩

theorem Explained.map (h : step.Explained s all) (f : α → β) : (step.map f).Explained s all :=
  ⟨h.left, fun failure hf => h.outcome.failure failure (result_of_map_error hf), h.outcome.log⟩

/-- A sequence of steps is explained if its parts are. -/
theorem Explained.bind {next : α → List Token → Step β} (h : step.Explained s all)
    (hnext : ∀ a, (next a step.rest).Explained s all) : (step.bind next).Explained s all := by
  cases hresult : step.outcome.result with
  | ok a =>
    rw [bind_of_ok hresult]
    refine ⟨(hnext a).left, (hnext a).outcome.failure, fun r hr => ?_⟩
    rcases List.mem_append.mp hr with hfirst | hbehind
    · exact h.outcome.log r hfirst
    · exact (hnext a).outcome.log r hbehind
  | error failure =>
    rw [bind_of_error hresult]
    refine ⟨h.left, fun f hf => ?_, h.outcome.log⟩
    cases hf
    exact h.outcome.failure failure hresult

end Step

theorem compoundOr_explained {simples : List Simple} {e : SelectorError} (h : Left all rest)
    (he : Fails s all (.ofError e)) {next : Compound → Step β}
    (hnext : ∀ c, (next c).Explained s all) :
    (compoundOr e simples rest next).Explained s all := by
  cases simples with
  | nil => exact Step.explained_error h he
  | cons first others => exact hnext ⟨first, others⟩

/-! ## Pseudo names -/

variable {marker name paren : Token}

theorem named_explained (h : marker :: name :: rest <:+ all)
    (hmarker : isMarker marker.kind = true) : Explained s all (named s marker name) := by
  have hunknown : ∀ code : ErrorCode, code.errorClass = .unknownName →
      code ≠ .unknownPseudoFunction →
      Explained s all (Traced.error (unknownName s code (calledBy name) name) : Traced Simple) :=
    fun code hcode hne => explained_error (.name h hmarker hcode fun heq => absurd heq hne)
  unfold named
  dsimp only
  split
  · split
    · exact explained_value _
    · exact hunknown _ rfl (by decide)
  · split
    · exact explained_value _
    · split
      · exact explained_value _
      · exact hunknown _ rfl (by decide)

theorem call_explained (h : marker :: name :: paren :: rest <:+ all)
    (hmarker : isMarker marker.kind = true) (hparen : paren.kind = .parenOpen) :
    Explained s all
      (call s marker name (enclosed paren rest).text (enclosed paren rest).start) := by
  have hcalls := Calls.mk h hmarker hparen
  unfold call
  dsimp only
  split
  · exact explained_error (.name h hmarker rfl (by simp))
  · split
    · next hadmits =>
      refine ⟨fun f hf => ?_, fun r hr => ⟨_, _, _, hcalls, hr⟩⟩
      obtain ⟨cause, hcause, rfl⟩ := result_of_mapFailure_error (result_of_map_error hf)
      exact .argument hcalls hadmits hcause
    · next hadmits =>
      exact explained_error (.name h hmarker rfl fun _ => by simpa using hadmits)

theorem functional_explained (h : Left all rest)
    (hcall : marker :: name :: paren :: rest <:+ all)
    (hmarker : isMarker marker.kind = true) (hparen : paren.kind = .parenOpen) :
    (functional s marker name paren rest).Explained s all := by
  have hinside : Left all (enclosed paren rest).rest := h.enclosed paren
  unfold functional
  dsimp only
  split
  · next hclose =>
    exact ⟨hinside.tail (by simp [hclose]), call_explained hcall hmarker hparen⟩
  · exact Step.explained_error hinside (.unexpected _)

theorem pseudo_explained (h : Left all (marker :: tokens))
    (hmarker : isMarker marker.kind = true) : (pseudo s marker tokens).Explained s all := by
  have htokens : Left all tokens := h.of_cons (kind_ne_eof_of_isMarker hmarker)
  unfold pseudo
  by_cases htag : (peek tokens).kind = .tag
  · obtain ⟨name, tail, rfl, hname⟩ := eq_cons_of_peek htag (by decide)
    have htail : Left all tail := htokens.of_cons (by simp [hname])
    rw [if_pos htag, List.tail_cons]
    by_cases hparen : (peek tail).kind = .parenOpen
    · obtain ⟨paren, rest, rfl, hopen⟩ := eq_cons_of_peek hparen (by decide)
      have hrest : Left all rest := htail.of_cons (by simp [hopen])
      rw [if_pos hparen]
      exact functional_explained hrest h.suffix hmarker hopen
    · rw [if_neg hparen]
      exact ⟨htail, named_explained h.suffix hmarker⟩
  · rw [if_neg htag]
    exact Step.explained_error htokens (.unexpected _)

/-! ## The layers -/

theorem items_explained (h : Left all tokens) : (items s tokens).Explained s all := by
  induction hn : tokens.length using Nat.strongRecOn generalizing tokens with
  | _ n ih =>
    obtain ⟨t, rest, rfl⟩ := List.exists_cons_of_ne_nil h.ne_nil
    rw [List.length_cons] at hn
    rw [items_cons]
    cases hunmarked : unmarked? t with
    | some simple =>
      exact (ih rest.length (by omega) (h.of_cons (kind_ne_eof_of_unmarked hunmarked)) rfl).map _
    | none =>
      by_cases hmarker : isMarker t.kind = true
      · have hpseudo := pseudo_explained (s := s) h hmarker
        have hshorter := length_rest_pseudo_le s t rest
        simp only [if_pos hmarker]
        exact hpseudo.bind fun simple => (ih _ (by omega) hpseudo.left rfl).map _
      · simp only [if_neg hmarker]
        exact Step.explained_value h _

theorem links_explained (h : Left all tokens) : (links s tokens).Explained s all := by
  induction hn : tokens.length using Nat.strongRecOn generalizing tokens with
  | _ n ih =>
    obtain ⟨t, rest, rfl⟩ := List.exists_cons_of_ne_nil h.ne_nil
    rw [List.length_cons] at hn
    rw [links_cons]
    by_cases hkind : t.kind = .combinator
    · have hitems := items_explained (s := s) (h.of_cons (by simp [hkind]))
      have hshorter := length_rest_items_le s rest
      rw [if_pos hkind]
      refine hitems.bind fun simples => compoundOr_explained hitems.left (.dangling t) fun c => ?_
      exact (ih _ (by omega) hitems.left rfl).map _
    · rw [if_neg hkind]
      exact Step.explained_value h _

theorem complex_explained (h : Left all tokens) : (complex s tokens).Explained s all := by
  have hitems := items_explained (s := s) h
  rw [complex_eq]
  refine hitems.bind fun simples => compoundOr_explained hitems.left (.unexpected _) fun c => ?_
  exact (links_explained hitems.left).map _

theorem members_explained (h : Left all tokens) : (members s tokens).Explained s all := by
  induction hn : tokens.length using Nat.strongRecOn generalizing tokens with
  | _ n ih =>
    obtain ⟨t, rest, rfl⟩ := List.exists_cons_of_ne_nil h.ne_nil
    rw [List.length_cons] at hn
    rw [members_cons]
    by_cases hkind : t.kind = .comma
    · have hcomplex := complex_explained (s := s) (h.of_cons (by simp [hkind]))
      have hshorter := length_rest_complex_le s rest
      rw [if_pos hkind]
      exact hcomplex.bind fun c => (ih _ (by omega) hcomplex.left rfl).map _
    · rw [if_neg hkind]
      exact Step.explained_value h _

theorem valueAtEnd_explained (h : Left all rest) (a : α) :
    (valueAtEnd s a rest).Explained s all := by
  unfold valueAtEnd
  split
  · exact Step.explained_value h _
  · exact Step.explained_error h (.unexpected _)

/-- The grammar fails for one of the reasons, and it records calls only. -/
theorem selector_explained (h : Left all tokens) : (selector s tokens).Explained s all := by
  have hcomplex := complex_explained (s := s) h
  rw [selector_eq]
  refine hcomplex.bind fun first => ?_
  have hmembers := (members_explained (s := s) hcomplex.left).map (Selector.ofMembers first)
  exact hmembers.bind fun selector => valueAtEnd_explained hmembers.left selector

end SelectorCheck.Grammar

namespace SelectorCheck

/-! ## Functions -/

/-- The reasons for which the argument text `value` of a function of the kind is rejected. -/
inductive ArgumentError (read : Text → Traced Selector) (kind : FunctionKind) (name : Text)
    (value : Option Text) (context : Option Context) : Failure → Prop where
  /-- It is missing, or it holds blanks only. -/
  | missing (hblank : ∀ v ∈ value, Text.allBlank v = true) :
      ArgumentError read kind name value context (.ofError (.missingArgument name value context))
  /-- It is malformed, or a negation does not accept what it is. -/
  | malformed {e : SelectorError} (hcode : e.code.errorClass = .argumentSyntax)
      (hclass : e.errorClass = .argumentSyntax) (hread : e.code ≠ .invalidNot) :
      ArgumentError read kind name value context (.ofError e)
  /-- It is no selector, for the reason `g`, where a negation asks for one. -/
  | unreadable {arg : Text} {g : Failure} (hkind : kind = .negation) (hvalue : value = some arg)
      (h : (read arg).result = .error g) :
      ArgumentError read kind name value context
        (g.causing (Negation.unreadable name arg context g.error))

/-- The reasons for which the function `name` cannot be built from the argument text `value`. -/
inductive Unbuilt (read : Text → Traced Selector) (name : Text) (value : Option Text)
    (context : Option Context) : Failure → Prop where
  /-- There is no such function. -/
  | unknown (h : FunctionKind.ofName? name = none) :
      Unbuilt read name value context (.ofError (unbuiltFunction name value context))
  /-- The argument is missing or malformed, and not for another failure. -/
  | argument {e : SelectorError} (hcode : e.code.errorClass = e.errorClass)
      (hclass : e.errorClass = .missingInput ∨ e.errorClass = .argumentSyntax)
      (hread : e.code ≠ .invalidNot) : Unbuilt read name value context (.ofError e)
  /-- The argument of a negation is no selector, for the reason `g`. -/
  | unreadable {arg : Text} {g : Failure} (hname : name = FunctionKind.negation.name)
      (hvalue : value = some arg) (h : (read arg).result = .error g) :
      Unbuilt read name value context (g.causing (Negation.unreadable name arg context g.error))

section Functions

open Traced

variable {read : Text → Traced Selector} {kind : FunctionKind} {name : Text} {value : Option Text}
  {context : Option Context} {f : Failure}

private theorem missing_of_none :
    ArgumentError read kind name none context (.ofError (.missingArgument name none context)) :=
  .missing fun _ hv => (nomatch hv)

private theorem missing_of_blank {v : Text} (h : v.allBlank = true) :
    ArgumentError read kind name (some v) context
      (.ofError (.missingArgument name (some v) context)) :=
  .missing fun u hu => by cases hu; exact h

private theorem argumentError_of_lang {e : SelectorError}
    (h : LanguageTag.parse name value context = .error e) :
    ArgumentError read kind name value context (.ofError e) := by
  unfold LanguageTag.parse at h
  split at h
  · cases h
    exact missing_of_none
  · split at h
    · next hblank =>
      cases h
      exact missing_of_blank hblank
    · split at h
      · cases h
      · cases h
        exact .malformed rfl rfl nofun

private theorem argumentError_of_nth {e : SelectorError}
    (h : Nth.parse name value context = .error e) :
    ArgumentError read kind name value context (.ofError e) := by
  cases value with
  | none =>
    cases h
    exact missing_of_none
  | some v =>
    rcases Nth.error_cases h with ⟨hblank, rfl⟩ | ⟨-, place, rfl⟩
    · exact missing_of_blank hblank
    · exact .malformed rfl rfl nofun

/-- A negation objects to what it holds for one of three reasons. -/
theorem Negation.code_of_accept {s : Selector} {objection : Objection}
    (h : accept s = .error objection) : objection.code = .notSimple ∨
      objection.code = .nestedNegation ∨ objection.code = .elementInNegation := by
  unfold accept at h
  split at h
  · cases h
    exact .inl rfl
  · split at h
    · cases h
      exact .inr (.inl rfl)
    · split at h <;> cases h
      exact .inr (.inr rfl)

private theorem code_of_accept {s : Selector} {objection : Negation.Objection}
    (h : Negation.accept s = .error objection) :
    objection.code.errorClass = .argumentSyntax ∧ objection.code ≠ .invalidNot := by
  rcases Negation.code_of_accept h with hcode | hcode | hcode <;> rw [hcode] <;> exact ⟨rfl, nofun⟩

private theorem argumentError_of_negation
    (h : (Negation.parse read name value context).result = .error f) :
    ArgumentError read .negation name value context f := by
  cases value with
  | none =>
    cases h
    exact missing_of_none
  | some v =>
    rcases Negation.error_cases h with ⟨hblank, rfl⟩ | ⟨-, g, hg, rfl⟩ |
      ⟨-, s, objection, -, ho, rfl⟩
    · exact missing_of_blank hblank
    · exact .unreadable rfl rfl hg
    · obtain ⟨hclass, hread⟩ := code_of_accept ho
      exact .malformed hclass hclass hread

/-- An argument is rejected for one of the reasons. -/
theorem FunctionKind.argumentError
    (h : (kind.construct read name value context).result = .error f) :
    ArgumentError read kind name value context f := by
  cases kind with
  | lang =>
    obtain ⟨e, he, rfl⟩ := result_ofExcept_eq_error_iff.mp (result_of_map_error h)
    exact argumentError_of_lang he
  | nth kind =>
    obtain ⟨e, he, rfl⟩ := result_ofExcept_eq_error_iff.mp (result_of_map_error h)
    exact argumentError_of_nth he
  | negation => exact argumentError_of_negation (result_of_map_error h)

/-- A function that cannot be built cannot be for one of the reasons. -/
theorem unbuilt_of_error (h : (buildWith read (some name) value context).result = .error f) :
    Unbuilt read name value context f := by
  rcases buildWith_error_cases h with ⟨-, rfl⟩ | ⟨hkind, rfl⟩ | ⟨kind, hname, hconstruct⟩
  · exact .argument rfl (.inl rfl) nofun
  · exact .unknown hkind
  · cases kind.argumentError hconstruct with
    | missing _ => exact .argument rfl (.inl rfl) nofun
    | malformed hcode hclass hread => exact .argument (hcode.trans hclass.symm) (.inr hclass) hread
    | unreadable hkind hvalue hg => exact .unreadable (hkind ▸ hname.symm) hvalue hg

private theorem log_map_ofExcept {α β : Type} (r : Except SelectorError α) (f : α → β) :
    ((Traced.ofExcept r).map f).log = [] := by
  cases r <;> rfl

private theorem mem_log_bind {α β : Type} {t : Traced α} {next : α → Traced β} {r : LogRecord}
    (h : r ∈ (t.bind next).log) : r ∈ t.log ∨ ∃ a, r ∈ (next a).log := by
  obtain ⟨log, g | a⟩ := t
  · exact .inl h
  · exact (List.mem_append.mp h).imp_right fun hnext => ⟨a, hnext⟩

private theorem log_negation {r : LogRecord}
    (h : r ∈ (Negation.parse read name value context).log) :
    ∃ arg, value = some arg ∧ r ∈ (read arg).log := by
  cases value with
  | none => cases h
  | some v =>
    unfold Negation.parse at h
    dsimp only at h
    split at h
    · cases h
    · rcases mem_log_bind h with hread | ⟨s, haccept⟩
      · exact ⟨v, rfl, hread⟩
      · split at haccept <;> cases haccept

/-- Building a function records that, and what reading the argument of a negation records. There is
no function without a name. -/
theorem mem_log_buildWith {r : LogRecord}
    (h : r ∈ (buildWith read (some name) value context).log) :
    r = .rejectedFunction name ∨ (name ≠ [] ∧ r = .building name (value.getD [])) ∨
      ∃ arg, name = FunctionKind.negation.name ∧ value = some arg ∧ r ∈ (read arg).log := by
  cases name with
  | nil => cases h
  | cons c rest =>
    unfold buildWith at h
    dsimp only at h
    cases hkind : FunctionKind.ofName? (c :: rest) with
    | none =>
      rw [hkind] at h
      exact .inl (List.mem_singleton.mp h)
    | some kind =>
      rw [hkind] at h
      rcases List.mem_cons.mp h with hbuilding | hinner
      · exact .inr (.inl ⟨List.cons_ne_nil c rest, hbuilding⟩)
      · cases kind with
        | lang | nth _ =>
          rw [FunctionKind.construct, log_map_ofExcept] at hinner
          cases hinner
        | negation =>
          obtain ⟨arg, hvalue, hread⟩ := log_negation hinner
          exact .inr (.inr ⟨arg, (FunctionKind.name_of_ofName? hkind).symm, hvalue, hread⟩)

end Functions

/-! ## Whole selectors -/

/-- A call asks for an argument that is shorter than the selector, if it calls a negation. -/
theorem Grammar.Calls.length_le {source arg : Text} {tokens : List Token} {called : Text}
    {given : Option Text} {start : Int} (h : Calls tokens called given start)
    (htokens : Token.ofSelector source = .ok tokens) (hcalled : called = FunctionKind.negation.name)
    (hgiven : given = some arg) : arg.length + 6 ≤ source.length := by
  obtain ⟨hsuffix, -, hparen⟩ := h
  have hasked := asked_enclosed hparen ((List.suffix_cons _ _).trans hsuffix)
  exact hasked.length_le htokens hcalled hgiven

namespace Selector

/-- A selector is blank, it cannot be cut into tokens, or its tokens tell what it comes to. -/
theorem readBy_cases (read : Option Context → Text → Traced Selector) (context : Option Context)
    (source : Text) :
    (source.allBlank = true ∧ readBy read context source = .error (empty (some source) context)) ∨
      (∃ e, Token.ofSelector source = .error e ∧ readBy read context source = .error e) ∨
      ∃ tokens, Token.ofSelector source = .ok tokens ∧
        Grammar.Explained (setting read context (some source)) tokens
          (readBy read context source) := by
  unfold readBy
  cases hblank : source.allBlank with
  | true => exact .inl ⟨rfl, rfl⟩
  | false =>
    rw [if_neg Bool.false_ne_true]
    cases htokens : Token.ofSelector source with
    | error e => exact .inr (.inl ⟨e, rfl, rfl⟩)
    | ok tokens =>
      have hleft : Grammar.Left tokens tokens :=
        ⟨List.suffix_refl tokens, Token.exists_end htokens⟩
      exact .inr (.inr ⟨tokens, rfl, (Grammar.selector_explained hleft).outcome⟩)

theorem parseWithin_cases (depth : Nat) (context : Option Context) (source : Text) :
    parseWithin (depth + 1) context source = .error (empty (some source) context) ∨
      (∃ e, Token.ofSelector source = .error e ∧
        parseWithin (depth + 1) context source = .error e) ∨
      ∃ tokens, Token.ofSelector source = .ok tokens ∧
        Grammar.Explained (setting (parseWithin depth) context (some source)) tokens
          (parseWithin (depth + 1) context source) :=
  (readBy_cases (parseWithin depth) context source).imp_left And.right

end Selector

end SelectorCheck
