import SelectorCheck.Proofs.Argument.Moved
import SelectorCheck.Proofs.Argument.Place
import SelectorCheck.Proofs.Selector.Padding

/-!
# Functions with blanks around their arguments

A function that is given its argument with blanks around it is the function that
is given the argument alone, with another argument text and, if it is a negation,
with its simple selector at another place. What is wrong with an argument is
wrong with it behind blanks, at the place that the blanks move it to. Blanks
behind it change at most the place where it breaks off.

## Main definitions

* `FunctionOf.behind`, `FunctionOf.before` — a function with blanks in front of
  its argument or behind it.
* `Failure.Alike` — failures of one class and code.

## Main results

* `FunctionKind.construct_append_left`, `FunctionKind.construct_append_right` —
  functions of a kind.
-/

namespace SelectorCheck

open Text

/-! ## Functions with other argument texts -/

/-- The argument `k` places further on. -/
def Argument.moved (k : Nat) : Argument → Argument
  | plain argument => plain argument
  | negated simple => negated (simple.moved k)

/-- The function with its argument behind blanks. -/
def FunctionOf.behind (blanks : Text) (f : PseudoFunction) : PseudoFunction :=
  ⟨f.name, blanks ++ f.value, f.argument.moved blanks.length⟩

/-- The function with its argument in front of blanks. -/
def FunctionOf.before {A : Type} (blanks : Text) (f : FunctionOf A) : FunctionOf A :=
  ⟨f.name, f.value ++ blanks, f.argument⟩

@[simp] theorem FunctionOf.bare_behind (blanks : Text) (f : PseudoFunction) :
    (f.behind blanks).bare = f.bare := by
  obtain ⟨name, value, argument⟩ := f
  cases argument <;> rfl

@[simp] theorem FunctionOf.bare_before (blanks : Text) (f : PseudoFunction) :
    (f.before blanks).bare = f.bare := rfl

/-- Failures of one class and code. -/
structure Failure.Alike (f g : Failure) : Prop where
  code : g.error.code = f.error.code
  errorClass : g.error.errorClass = f.error.errorClass

theorem Failure.Shifted.alike {k : Nat} {f g : Failure} (h : f.Shifted k g) : f.Alike g :=
  ⟨h.code, h.errorClass⟩

theorem Failure.Alike.trans {f g h : Failure} (hfg : f.Alike g) (hgh : g.Alike h) : f.Alike h :=
  ⟨hgh.code.trans hfg.code, hgh.errorClass.trans hfg.errorClass⟩

/-! ## Blanks in front -/

/-- The place of what is too much is moved, and so is what is not. -/
theorem Selector.sole_moved (k : Nat) (s : Selector) :
    (s.moved k).sole = match s.sole with
      | .ok simple => .ok (simple.moved k)
      | .error position => .error (position + k) := by
  rcases s with ⟨⟨⟨first, _ | ⟨second, others⟩⟩, _ | ⟨link, row⟩⟩⟩ | _ <;> rfl

theorem SimpleOf.plain?_moved (k : Nat) (s : Simple) :
    plain? (s.moved k) = (plain? s).map (SimpleOf.moved k) := by
  obtain ⟨kind, name, arg, function, pos⟩ := s
  rcases function with _ | ⟨called, value, plain | negated⟩ <;> rfl

namespace Negation

/-- The objection to a selector that stands `k` places further on. -/
def Objection.moved (k : Nat) (o : Objection) : Objection := { o with position := o.position + k }

theorem accept_moved (k : Nat) (s : Selector) :
    accept (s.moved k) = match accept s with
      | .ok simple => .ok (simple.moved k)
      | .error objection => .error (objection.moved k) := by
  unfold accept
  rw [Selector.sole_moved]
  cases s.sole with
  | error position => rfl
  | ok simple =>
    simp only [SimpleOf.plain?_moved]
    cases SimpleOf.plain? simple with
    | none => rfl
    | some plain =>
      by_cases hkind : simple.kind = .pseudoElement
      · have hmoved : (simple.moved k).kind = .pseudoElement := hkind
        simp only [Option.map_some, hkind, hmoved, if_true]
        rfl
      · have hmoved : (simple.moved k).kind ≠ .pseudoElement := hkind
        simp only [Option.map_some, hkind, hmoved, if_false]

variable {name v blanks : Text} {context : Option Context}

private theorem unreadable_shifted {f g : Failure} {k : Nat} (other : Text)
    (h : f.Shifted k g) :
    (f.causing (unreadable name v context f.error)).Shifted k
      (g.causing (unreadable name other context g.error)) := by
  obtain ⟨p, hp, hother⟩ := h.position
  have hmessage : g.error.message = f.error.message := by
    rw [SelectorError.message, SelectorError.message, h.code, h.name, h.token]
  refine ⟨rfl, rfl, rfl, congrArg some hmessage, p, ?_, ?_⟩
  · show some (f.error.position.getD 0) = some p
    rw [hp, Option.getD_some]
  · show some (g.error.position.getD 0) = some (p + k)
    rw [hother, Option.getD_some]

/-- Blanks in front of the argument of a negation move what it holds, and where it is at fault. -/
theorem parse_append_left (hblanks : allBlank blanks = true) (hv : allBlank v = false)
    (name : Text) (context : Option Context) :
    (parse (Selector.parse context) name (some v) context).Mirrors
      (Failure.Shifted blanks.length) (SimpleOf.moved blanks.length)
      (parse (Selector.parse context) name (some (blanks ++ v)) context) := by
  have hall : allBlank (blanks ++ v) = false := by
    rw [allBlank_append, hblanks, hv]
    rfl
  have hcause : ∀ f g : Failure, f.Shifted blanks.length g →
      (f.causing (unreadable name v context f.error)).Shifted blanks.length
        (g.causing (unreadable name (blanks ++ v) context g.error)) :=
    fun _ _ h => unreadable_shifted (blanks ++ v) h
  have hread := (Selector.parse_append_left context hblanks hv).mapFailure hcause
  simp only [parse, hall, hv, Bool.false_eq_true, if_false]
  refine hread.bind fun s => ?_
  rw [accept_moved]
  cases accept s with
  | ok simple => exact Traced.mirrors_value rfl
  | error objection => exact Traced.mirrors_error ⟨rfl, rfl, rfl, rfl, _, rfl, rfl⟩

end Negation

variable {v blanks : Text}

/-- Blanks in front of an argument move what is in it, and where it is at fault. -/
theorem FunctionKind.construct_append_left (kind : FunctionKind) (hblanks : allBlank blanks = true)
    (hv : allBlank v = false) (name : Text) (context : Option Context) :
    (kind.construct (Selector.parse context) name (some v) context).Mirrors
      (Failure.Shifted blanks.length) (FunctionOf.behind blanks)
      (kind.construct (Selector.parse context) name (some (blanks ++ v)) context) := by
  cases kind with
  | lang =>
    rw [construct, construct, LanguageTag.parse_append_left hblanks hv]
    refine (Traced.mirrors_mapError fun e he => ?_).map fun _ => rfl
    exact SelectorError.shifted_movedTo (LanguageTag.placedIn_of_error hv he)
  | nth kind =>
    rw [construct, construct, Nth.parse_append_left hblanks hv]
    refine (Traced.mirrors_mapError fun e he => ?_).map fun _ => rfl
    exact SelectorError.shifted_movedTo (Nth.placedIn_of_error hv he)
  | negation => exact (Negation.parse_append_left hblanks hv name context).map fun _ => rfl

/-! ## Blanks behind -/

/-- Results with the same values, and failures that are related, mirror each other. -/
theorem Mirrored.of_ok_iff {α : Type} {E : Failure → Failure → Prop} {r r' : Except Failure α}
    (hok : ∀ a, r' = .ok a ↔ r = .ok a) (herror : ∀ f g, r = .error f → r' = .error g → E f g) :
    Mirrored E id r r' := by
  cases r with
  | ok a =>
    rw [(hok a).mpr rfl]
    exact .ok a
  | error f =>
    cases r' with
    | ok a => cases (hok a).mp rfl
    | error g => exact .error (herror f g rfl rfl)

theorem Mirrored.result_map {α β : Type} {E : Failure → Failure → Prop} {t u : Traced α}
    {f f' : α → β} {ψ : β → β} (h : Mirrored E id t.result u.result) (hf : ∀ a, f' a = ψ (f a)) :
    Mirrored E ψ (t.map f).result (u.map f').result := by
  obtain ⟨log, result⟩ := t
  obtain ⟨log', result'⟩ := u
  cases h with
  | ok a =>
    show Mirrored E ψ (.ok (f a)) (.ok (f' a))
    rw [hf]
    exact .ok (f a)
  | error h => exact .error h

/-- Blanks behind a tag do not belong to it. -/
theorem LanguageTag.parse_append_right (hblanks : allBlank blanks = true) (name v : Text)
    (context : Option Context) :
    parse name (some (v ++ blanks)) context =
      (parse name (some v) context).mapError (·.movedTo (v ++ blanks) 0) := by
  have hall : allBlank (v ++ blanks) = allBlank v := by rw [allBlank_append, hblanks, Bool.and_true]
  simp only [parse, hall, trimEnd_append_blanks hblanks]
  by_cases hv : allBlank v = true
  · simp only [hv, if_true]
    rfl
  · simp only [hv]
    cases read (Cursor.ofText v.trimEnd).skipBlanks with
    | ok tag => rfl
    | error place => rfl

/-- What an expression is rejected for. -/
theorem Nth.error_cases {name : Text} {context : Option Context} {e : SelectorError}
    (h : parse name (some v) context = .error e) :
    (allBlank v = true ∧ e = .missingArgument name (some v) context) ∨
      (allBlank v = false ∧ ∃ place, e = breakOff name v context place) := by
  by_cases hv : allBlank v = true
  · simp only [parse, hv, if_true, Except.error.injEq] at h
    exact .inl ⟨hv, h.symm⟩
  · rw [Bool.not_eq_true] at hv
    simp only [parse, hv, Bool.false_eq_true, if_false] at h
    split at h
    · cases h
    · split at h
      · cases h
      · next place _ => exact .inr ⟨hv, place, (Except.error.inj h).symm⟩

/-- Blanks behind an expression do not belong to it, but it may break off behind them. -/
theorem Nth.parse_append_right (hblanks : allBlank blanks = true) (name v : Text)
    (context : Option Context) :
    Mirrored Failure.Alike id (Traced.ofExcept (parse name (some v) context)).result
      (Traced.ofExcept (parse name (some (v ++ blanks)) context)).result := by
  have hall : allBlank (v ++ blanks) = allBlank v := by rw [allBlank_append, hblanks, Bool.and_true]
  have htrim : trim (v ++ blanks) = trim v := trim_append_blanks v hblanks
  refine .of_ok_iff (fun e => ?_) fun f g hf hg => ?_
  · rw [Traced.result_ofExcept_eq_ok_iff, Traced.result_ofExcept_eq_ok_iff, parse_eq_ok_iff,
      parse_eq_ok_iff, htrim]
  · obtain ⟨e, he, rfl⟩ := Traced.result_ofExcept_eq_error_iff.mp hf
    obtain ⟨e', he', rfl⟩ := Traced.result_ofExcept_eq_error_iff.mp hg
    rcases error_cases he with ⟨hv, rfl⟩ | ⟨hv, _, rfl⟩
    · rcases error_cases he' with ⟨-, rfl⟩ | ⟨hv', -⟩
      · exact ⟨rfl, rfl⟩
      · rw [hall, hv] at hv'
        cases hv'
    · rcases error_cases he' with ⟨hv', -⟩ | ⟨-, _, rfl⟩
      · rw [hall, hv] at hv'
        cases hv'
      · exact ⟨rfl, rfl⟩

/-- What an argument of a negation is rejected for. -/
theorem Negation.error_cases {read : Text → Traced Selector} {name : Text}
    {context : Option Context} {f : Failure}
    (h : (parse read name (some v) context).result = .error f) :
    (allBlank v = true ∧ f = .ofError (.missingArgument name (some v) context)) ∨
      (allBlank v = false ∧ ∃ g, (read v).result = .error g ∧
        f = g.causing (unreadable name v context g.error)) ∨
      (allBlank v = false ∧ ∃ s objection, (read v).result = .ok s ∧ accept s = .error objection ∧
        f = .ofError (rejection name v context objection)) := by
  by_cases hv : allBlank v = true
  · simp only [parse, hv, if_true, Traced.result_error, Except.error.injEq] at h
    exact .inl ⟨hv, h.symm⟩
  · rw [Bool.not_eq_true] at hv
    simp only [parse, hv, Bool.false_eq_true, if_false] at h
    generalize read v = t at h ⊢
    obtain ⟨log, g | s⟩ := t
    · exact .inr (.inl ⟨hv, g, rfl, (Except.error.inj h).symm⟩)
    · replace h : (match accept s with
          | .ok simple => Traced.value simple
          | .error objection => .error (rejection name v context objection)).result = .error f := h
      cases haccept : accept s with
      | ok simple =>
        rw [haccept] at h
        cases h
      | error objection =>
        rw [haccept] at h
        exact .inr (.inr ⟨hv, s, objection, rfl, haccept, (Except.error.inj h).symm⟩)

/-- Blanks behind the argument of a negation do not belong to what it holds. -/
theorem Negation.parse_append_right (hblanks : allBlank blanks = true) (name v : Text)
    (context : Option Context) :
    Mirrored Failure.Alike id (parse (Selector.parse context) name (some v) context).result
      (parse (Selector.parse context) name (some (v ++ blanks)) context).result := by
  have hall : allBlank (v ++ blanks) = allBlank v := by rw [allBlank_append, hblanks, Bool.and_true]
  have hread : ∀ s, (Selector.parse context (v ++ blanks)).result = .ok s ↔
      (Selector.parse context v).result = .ok s := fun s => Selector.parse_append_right hblanks
  refine .of_ok_iff (fun simple => ?_) fun f g hf hg => ?_
  · simp only [parse_eq_ok_iff, hall, hread]
  · rcases error_cases hf with ⟨hv, rfl⟩ | ⟨hv, cause, hcause, rfl⟩ | ⟨hv, s, o, hs, ho, rfl⟩
    · rcases error_cases hg with ⟨-, rfl⟩ | ⟨hv', -⟩ | ⟨hv', -⟩
      · exact ⟨rfl, rfl⟩
      · rw [hall, hv] at hv'
        cases hv'
      · rw [hall, hv] at hv'
        cases hv'
    · rcases error_cases hg with ⟨hv', -⟩ | ⟨-, _, -, rfl⟩ | ⟨-, s', _, hs', -⟩
      · rw [hall, hv] at hv'
        cases hv'
      · exact ⟨rfl, rfl⟩
      · rw [(hread s').mp hs'] at hcause
        cases hcause
    · rcases error_cases hg with ⟨hv', -⟩ | ⟨-, _, hcause, -⟩ | ⟨-, s', o', hs', ho', rfl⟩
      · rw [hall, hv] at hv'
        cases hv'
      · rw [(hread s).mpr hs] at hcause
        cases hcause
      · -- The selector is the same one, so the objection is the same.
        obtain rfl : s = s' := by
          rw [(hread s').mp hs'] at hs
          exact (Except.ok.inj hs).symm
        rw [ho] at ho'
        cases ho'
        exact ⟨rfl, rfl⟩

/-- Blanks behind an argument do not change what is in it, nor what is wrong with it. -/
theorem FunctionKind.construct_append_right (kind : FunctionKind) (hblanks : allBlank blanks = true)
    (name v : Text) (context : Option Context) :
    Mirrored Failure.Alike (FunctionOf.before blanks)
      (kind.construct (Selector.parse context) name (some v) context).result
      (kind.construct (Selector.parse context) name (some (v ++ blanks)) context).result := by
  cases kind with
  | lang =>
    rw [construct, construct, LanguageTag.parse_append_right hblanks]
    have htag := Traced.mirrors_mapError (E := Failure.Alike)
      (r := LanguageTag.parse name (some v) context) (f := (·.movedTo (v ++ blanks) 0))
      fun _ _ => ⟨rfl, rfl⟩
    exact htag.result.result_map fun _ => rfl
  | nth kind => exact (Nth.parse_append_right hblanks name v context).result_map fun _ => rfl
  | negation => exact (Negation.parse_append_right hblanks name v context).result_map fun _ => rfl

/-! ## Blanks on both sides -/

/-- Without an argument, or with one of blanks only, there is no function of any kind. -/
theorem FunctionKind.construct_missing (read : Text → Traced Selector) (kind : FunctionKind)
    (name : Text) (context : Option Context) {value : Option Text}
    (h : ∀ v ∈ value, v.allBlank = true) :
    (kind.construct read name value context).result =
      .error (.ofError (.missingArgument name value context)) := by
  cases value with
  | none => cases kind <;> rfl
  | some v =>
    have hv : v.allBlank = true := h v rfl
    cases kind with
    | lang => rw [FunctionKind.construct, LanguageTag.parse, if_pos hv]; rfl
    | nth kind => rw [FunctionKind.construct, Nth.parse, if_pos hv]; rfl
    | negation => rw [FunctionKind.construct, Negation.parse, if_pos hv]; rfl

/-- Without an argument, or with one of blanks only, no function is built. -/
theorem PseudoFunction.build_missing (context : Option Context) (kind : FunctionKind)
    {value : Option Text} (h : ∀ v ∈ value, v.allBlank = true) :
    (build (some kind.name) value context).result =
      .error (.ofError (.missingArgument kind.name value context)) := by
  rw [build, result_buildWith_name]
  exact kind.construct_missing _ kind.name context h

/-- A function is built from an argument with blanks around it as it is from the argument alone. -/
theorem PseudoFunction.build_trim (context : Option Context) (kind : FunctionKind)
    (hv : v.allBlank = false) :
    (∃ g f, (build (some kind.name) (some v.trim) context).result = .ok g ∧
      (build (some kind.name) (some v) context).result = .ok f ∧ g.same f = true) ∨
    ∃ e e', (build (some kind.name) (some v.trim) context).result = .error e ∧
      (build (some kind.name) (some v) context).result = .error e' ∧ e.Alike e' ∧
      (v.trimEnd = v → e.Shifted (v.takeWhile isBlank).length e') := by
  have hbefore : allBlank (v.takeWhile isBlank) = true := List.all_takeWhile
  have hsplit : v.takeWhile isBlank ++ v.dropBlanks = v := List.takeWhile_append_dropWhile
  have hdrop : v.dropBlanks.allBlank = false := by
    rw [← hsplit, allBlank_append, hbefore, Bool.true_and] at hv
    exact hv
  obtain ⟨behind, hbehind, htrim⟩ : ∃ behind, allBlank behind = true ∧
      v.dropBlanks = v.trim ++ behind := exists_trimEnd_append v.dropBlanks
  have hsame : v.trimEnd = v → v.trim = v.dropBlanks := by
    intro h
    rw [← hsplit, trimEnd_append_left _ hdrop] at h
    exact List.append_cancel_left h
  have hright := kind.construct_append_right hbehind kind.name v.trim context
  have hleft := (kind.construct_append_left hbefore hdrop kind.name context).result
  rw [← htrim] at hright
  rw [hsplit] at hleft
  simp only [build, result_buildWith_name]
  generalize halone : (kind.construct (Selector.parse context) kind.name (some v.trim)
    context).result = alone at hright ⊢
  generalize hinner : (kind.construct (Selector.parse context) kind.name (some v.dropBlanks)
    context).result = inner at hright hleft
  generalize (kind.construct (Selector.parse context) kind.name (some v) context).result = whole
    at hleft ⊢
  cases hright with
  | ok g =>
    cases hleft
    exact .inl ⟨g, _, rfl, rfl, by simp [FunctionOf.same]⟩
  | @error e inner halike =>
    cases hleft with
    | @error _ e' hshifted =>
      refine .inr ⟨e, e', rfl, rfl, halike.trans hshifted.alike, fun h => ?_⟩
      rw [hsame h, hinner] at halone
      cases halone
      exact hshifted

end SelectorCheck
