import SelectorCheck.Proofs.Selector.Reading
import SelectorCheck.Proofs.Text.SmallLetters
import SelectorCheck.Selector.Parser

/-!
# The parser and the written selectors

The parser reads exactly what is written. What is left to say beyond the layers
of the grammar is about functions: the argument of a negation is read by the
parser itself, one level deeper. Whatever the depth, a selector that is read is
written. Conversely, two levels are always enough, because the argument of a
negation holds no negation, and the depth that the parser allows itself is two
wherever there is room for a negation.

## Main results

* `buildWith_eq_ok_iff` — which function is built.
* `Negation.accept_eq_ok_iff` — what a negation accepts.
* `Selector.parse_eq_ok_iff` — the parser reads exactly what is written.
-/

namespace SelectorCheck

open Text Traced

/-- Whether two results are the same can be decided, so that what is read from a given text can be
told by reading it. -/
instance decidableEqResult {ε α : Type} [DecidableEq ε] [DecidableEq α] :
    DecidableEq (Except ε α)
  | .ok a, .ok b => decidable_of_iff (a = b) (by simp)
  | .error e, .error f => decidable_of_iff (e = f) (by simp)
  | .ok _, .error _ => isFalse (by simp)
  | .error _, .ok _ => isFalse (by simp)

/-! ## Building functions -/

/-- What is built by the name of a kind is the function of the kind. -/
theorem result_buildWith_name (read : Text → Traced Selector) (kind : FunctionKind)
    (value : Option Text) (context : Option Context) :
    (buildWith read (some kind.name) value context).result =
      (kind.construct read kind.name value context).result := by
  obtain ⟨c, rest, hname⟩ := List.exists_cons_of_ne_nil kind.name_ne_nil
  have hkind : FunctionKind.ofName? (c :: rest) = some kind := by
    rw [← hname, FunctionKind.ofName?_name]
  rw [hname]
  simp only [buildWith, hkind, result_recording]

/-- No function is built without a name, nor by a name that is that of no kind. -/
theorem buildWith_error_cases {read : Text → Traced Selector} {name : Text} {value : Option Text}
    {context : Option Context} {f : Failure}
    (h : (buildWith read (some name) value context).result = .error f) :
    (name = [] ∧ f = .ofError (namelessFunction value context)) ∨
      (FunctionKind.ofName? name = none ∧ f = .ofError (unbuiltFunction name value context)) ∨
      ∃ kind : FunctionKind, kind.name = name ∧
        (kind.construct read name value context).result = .error f := by
  cases name with
  | nil => exact .inl ⟨rfl, (Except.error.inj h).symm⟩
  | cons c rest =>
    unfold buildWith at h
    dsimp only at h
    cases hkind : FunctionKind.ofName? (c :: rest) with
    | none =>
      rw [hkind] at h
      exact .inr (.inl ⟨rfl, (Except.error.inj h).symm⟩)
    | some kind =>
      simp only [hkind, result_recording] at h
      exact .inr (.inr ⟨kind, FunctionKind.name_of_ofName? hkind, h⟩)

/-- The function that is built is that of the kind with the name. -/
theorem buildWith_eq_ok_iff {read : Text → Traced Selector} {name : Text} {value : Option Text}
    {context : Option Context} {f : PseudoFunction} :
    (buildWith read (some name) value context).result = .ok f ↔
      ∃ kind : FunctionKind, kind.name = name ∧
        (kind.construct read name value context).result = .ok f := by
  constructor
  · intro h
    cases name with
    | nil => simp [buildWith] at h
    | cons c rest =>
      unfold buildWith at h
      cases hkind : FunctionKind.ofName? (c :: rest) with
      | none => simp [hkind] at h
      | some kind =>
        simp only [hkind, result_recording] at h
        exact ⟨kind, FunctionKind.name_of_ofName? hkind, h⟩
  · rintro ⟨kind, rfl, h⟩
    rw [result_buildWith_name]
    exact h

namespace Negation

/-- A negation accepts a selector that is a single simple selector. -/
theorem accept_eq_ok_iff {selector : Selector} {simple : PlainSimple} :
    accept selector = .ok simple ↔
      ∃ item : Simple, selector = .complex ⟨⟨item, []⟩, []⟩ ∧ item.plain? = some simple ∧
        item.kind ≠ .pseudoElement := by
  constructor
  · intro h
    unfold accept at h
    cases hsole : selector.sole with
    | error position => simp [hsole] at h
    | ok item =>
      cases hplain : item.plain? with
      | none => simp [hsole, hplain] at h
      | some plain =>
        by_cases hkind : item.kind = .pseudoElement
        · simp [hsole, hplain, hkind] at h
        · simp only [hsole, hplain, hkind, if_false, Except.ok.injEq] at h
          subst h
          refine ⟨item, ?_, hplain, hkind⟩
          rcases selector with ⟨⟨⟨first, _ | ⟨second, others⟩⟩, _ | ⟨link, row⟩⟩⟩ | _ <;>
            simp_all [Selector.sole]
  · rintro ⟨item, rfl, hplain, hkind⟩
    simp [accept, Selector.sole, hplain, hkind]

theorem parse_eq_ok_iff {read : Text → Traced Selector} {name v : Text}
    {context : Option Context} {simple : PlainSimple} :
    (parse read name (some v) context).result = .ok simple ↔
      v.allBlank = false ∧ ∃ selector, (read v).result = .ok selector ∧
        accept selector = .ok simple := by
  unfold parse
  by_cases hblank : v.allBlank = true
  · simp [hblank]
  · rw [Bool.not_eq_true] at hblank
    simp only [hblank, Bool.false_eq_true, if_false, result_bind_eq_ok_iff,
      result_mapFailure_eq_ok_iff, true_and]
    refine exists_congr fun selector => and_congr_right fun _ => ?_
    cases accept selector <;> simp

end Negation

namespace Spelling

/-! ## Single simple selectors -/

section Single

variable {level : Level} {F : Text → Text → PseudoFunction → Prop}

/-- A solid text that is a single simple selector is nothing else. -/
theorem Item.of_whole {item : Simple} {text : Text} (hsolid : Solid text)
    (h : Whole level F (.complex ⟨⟨item, []⟩, []⟩) text) : Item level F 0 item text [] := by
  generalize hselector : Selector.complex ⟨⟨item, []⟩, []⟩ = selector at h
  obtain @⟨first, members, before, behind, text, others, hbefore, hbehind, hchain, hmembers⟩ := h
  cases hmembers with
  | cons _ _ _ _ => cases hselector
  | nil =>
    cases hselector
    rcases hchain with @⟨text, others, _, hitems, hlinks⟩
    cases hlinks
    rcases hitems with _ | @⟨_, _, _, text, _, _, hitem, hitems⟩
    cases hitems
    simp only [List.append_nil, List.nil_append] at hsolid hitem ⊢
    obtain rfl : before = [] := hsolid.eq_nil_of_blanks_append hbefore
    rw [List.nil_append] at hsolid
    obtain rfl : behind = [] := hsolid.eq_nil_of_append hbehind
    rw [List.nil_append, List.append_nil]
    exact hitem

theorem Item.whole {item : Simple} {text : Text} (h : Item level F 0 item text []) :
    Whole level F (.complex ⟨⟨item, []⟩, []⟩) text := by
  have hitems : Items level F 0 [item] (text ++ []) ([] ++ []) := .cons (by simpa using h) .nil
  have hchain : Chain level F 0 ⟨⟨item, []⟩, []⟩ (text ++ [] ++ []) ([] ++ []) := .mk hitems .nil
  have hwhole : Whole level F (.ofMembers ⟨⟨item, []⟩, []⟩ [])
      ([] ++ (text ++ [] ++ [] ++ ([] ++ []))) :=
    .mk rfl rfl hchain .nil
  simpa [Selector.ofMembers] using hwhole

end Single

/-! ## Functions from their arguments -/

/-- A function that is built from an argument without a selector, among all functions. -/
def BuiltPlain (name arg : Text) (f : PseudoFunction) : Prop :=
  ∃ g, PlainBuilt name arg g ∧ .ofPlain g = f

section Functions

variable {level : Level} {name arg : Text} {f : PseudoFunction} {context : Option Context}
  {read : Text → Traced Selector}

/-- A simple selector that may stand in a negation holds a function that is no negation. -/
private theorem Item.plain {p : Nat} {item : Simple} {simple : PlainSimple} {text after : Text}
    (h : Item level (Built level) p item text after) (hplain : item.plain? = some simple) :
    Item level PlainBuilt p simple text after := by
  cases h with
  | universal =>
    cases hplain
    exact .universal
  | id hname =>
    cases hplain
    exact .id hname
  | className hname =>
    cases hplain
    exact .className hname
  | tag hname hstart =>
    cases hplain
    exact .tag hname hstart
  | pseudoClass hname hbare hadmits =>
    cases hplain
    exact .pseudoClass hname hbare hadmits
  | legacyElement hname hbare hclass hadmits =>
    cases hplain
    exact .legacyElement hname hbare hclass hadmits
  | element hname hbare hadmits =>
    cases hplain
    exact .element hname hbare hadmits
  | @function name before arg behind _ f hname hadmits hbefore hbehind hf =>
    generalize hcalled : name.lowercase = called at *
    cases hf with
    | plain h =>
      cases hplain
      subst hcalled
      exact .function hname hadmits hbefore hbehind h
    | negation _ _ => cases hplain

private theorem kind_of_plain? {item : Simple} {simple : PlainSimple}
    (h : item.plain? = some simple) : simple.kind = item.kind := by
  rw [← SimpleOf.ofPlain_of_plain? h]
  rfl

/-- What is built from a solid argument is written, if what is read in it is. -/
theorem built_of_build (hread : ∀ selector, (read arg).result = .ok selector →
      Whole level (Built level) selector arg) (hsolid : Solid arg)
    (h : (buildWith read (some name) (some arg) context).result = .ok f) :
    Built level name arg f := by
  obtain ⟨kind, rfl, hconstruct⟩ := buildWith_eq_ok_iff.mp h
  cases kind with
  | lang =>
    obtain ⟨tag, htag, rfl⟩ := result_map_eq_ok_iff.mp hconstruct
    have hwritten := LanguageTag.parse_eq_ok_iff.mp (result_ofExcept_eq_ok_iff.mp htag)
    rw [hsolid.trimEnd_eq, hsolid.dropBlanks_eq] at hwritten
    exact .plain (.lang hwritten)
  | nth kind =>
    obtain ⟨e, he, rfl⟩ := result_map_eq_ok_iff.mp hconstruct
    have hwritten := Nth.parse_eq_ok_iff.mp (result_ofExcept_eq_ok_iff.mp he)
    rw [hsolid.trim_eq] at hwritten
    exact .plain (.nth hwritten)
  | negation =>
    obtain ⟨simple, hsimple, rfl⟩ := result_map_eq_ok_iff.mp hconstruct
    obtain ⟨-, selector, hselector, haccept⟩ := Negation.parse_eq_ok_iff.mp hsimple
    obtain ⟨item, rfl, hplain, hkind⟩ := Negation.accept_eq_ok_iff.mp haccept
    have hitem : Item level (Built level) 0 item arg [] := .of_whole hsolid (hread _ hselector)
    refine .negation (hitem.plain hplain) ?_
    rw [kind_of_plain? hplain]
    exact hkind

/-- No function is built without an argument. -/
theorem build_missing : (buildWith read (some name) none context).result ≠ .ok f := by
  intro h
  obtain ⟨kind, rfl, hconstruct⟩ := buildWith_eq_ok_iff.mp h
  cases kind with
  | lang | nth _ | negation => cases hconstruct

theorem build_of_builtPlain (h : BuiltPlain name arg f) :
    (buildWith read (some name) (some arg) context).result = .ok f := by
  obtain ⟨g, hbuilt, rfl⟩ := h
  have hsolid : Solid arg := hbuilt.solid
  cases hbuilt with
  | @lang _ tag hwritten =>
    have htag : LanguageTag.parse FunctionKind.lang.name (some arg) context = .ok tag := by
      rw [LanguageTag.parse_eq_ok_iff, hsolid.trimEnd_eq, hsolid.dropBlanks_eq]
      exact hwritten
    apply buildWith_eq_ok_iff.mpr
    refine ⟨.lang, rfl, result_map_eq_ok_iff.mpr ⟨tag, ?_, rfl⟩⟩
    exact result_ofExcept_eq_ok_iff.mpr htag
  | @nth kind _ e hwritten =>
    have he : Nth.parse (FunctionKind.nth kind).name (some arg) context = .ok e := by
      rw [Nth.parse_eq_ok_iff, hsolid.trim_eq]
      exact hwritten
    apply buildWith_eq_ok_iff.mpr
    refine ⟨.nth kind, rfl, result_map_eq_ok_iff.mpr ⟨e, ?_, rfl⟩⟩
    exact result_ofExcept_eq_ok_iff.mpr he

private theorem accept_ofPlain {simple : PlainSimple} (h : simple.kind ≠ .pseudoElement) :
    Negation.accept (.complex ⟨⟨.ofPlain simple, []⟩, []⟩) = .ok simple :=
  Negation.accept_eq_ok_iff.mpr ⟨.ofPlain simple, rfl, SimpleOf.plain?_ofPlain simple, h⟩

/-- What is written is built, if a selector without negations is read in its argument. -/
theorem build_of_built (hread : ∀ {selector text}, Whole level BuiltPlain selector text →
      (read text).result = .ok selector) (h : Built level name arg f) :
    (buildWith read (some name) (some arg) context).result = .ok f := by
  cases h with
  | plain h => exact build_of_builtPlain ⟨_, h, rfl⟩
  | @negation arg simple hitem hkind =>
    have hsolid : Solid arg := hitem.solid
    have hlifted : Item level BuiltPlain 0 (.ofPlain simple) arg [] :=
      hitem.map (.refl _) (.refl _) FunctionOf.ofPlain fun name arg g _ _ hg => ⟨g, hg, rfl⟩
    have hparse : (Negation.parse read FunctionKind.negation.name (some arg) context).result =
        .ok simple :=
      Negation.parse_eq_ok_iff.mpr
        ⟨hsolid.not_allBlank, _, hread hlifted.whole, accept_ofPlain hkind⟩
    apply buildWith_eq_ok_iff.mpr
    exact ⟨.negation, rfl, result_map_eq_ok_iff.mpr ⟨simple, hparse, rfl⟩⟩

end Functions

end Spelling

namespace Selector

open Spelling

variable {context : Option Context} {source : Text} {selector : Selector}

theorem exists_ofMembers (s : Selector) : ∃ first members, s = ofMembers first members := by
  cases s with
  | complex c => exact ⟨c, [], rfl⟩
  | list first second others => exact ⟨first, second :: others, rfl⟩

/-! ## The level -/

/-- The level that names are checked against. -/
def levelOf (context : Option Context) : Level := (context.getD .standard).level

/-- A pseudo-element that may stand behind one colon may stand behind two. -/
theorem levelOf_admitsElement {name : Text}
    (h : (levelOf context).admitsLegacyElement name = true) :
    (levelOf context).admitsElement name = true := by
  unfold levelOf at h ⊢
  generalize context.getD .standard = given at h ⊢
  obtain ⟨version, profile, language⟩ := given
  cases version with
  | css1 | css2 | css21 => exact h
  | css3 =>
    have hall : ∀ name ∈ Level.elements2, name ∈ Level.elements3 := by decide
    exact List.contains_iff_mem.mpr (hall name (List.contains_iff_mem.mp h))

/-! ## Reading to a given depth -/

/-- Blanks only are no selector. -/
theorem parse_of_blank (context : Option Context) {source : Text} (h : allBlank source = true) :
    (parse context source).result = .error (.ofError (empty (some source) context)) := by
  rw [parse, depthFor, parseWithin, if_pos h, Traced.result_error]

theorem parseWithin_of_malformed (depth : Nat) (context : Option Context) {e : SelectorError}
    (hsource : source.allBlank = false) (h : Token.ofSelector source = .error e) :
    parseWithin (depth + 1) context source = .error e := by
  rw [parseWithin, hsource, h]
  rfl

theorem parseWithin_of_tokens (depth : Nat) (context : Option Context) {tokens : List Token}
    (hsource : source.allBlank = false) (h : Token.ofSelector source = .ok tokens) :
    parseWithin (depth + 1) context source =
      (Grammar.selector (setting (parseWithin depth) context (some source)) tokens).outcome := by
  rw [parseWithin, hsource, h]
  exact bind_value _ _

theorem parseWithin_succ_eq_ok_iff {depth : Nat} :
    (parseWithin (depth + 1) context source).result = .ok selector ↔
      source.allBlank = false ∧ ∃ tokens, Token.ofSelector source = .ok tokens ∧
        (Grammar.selector (setting (parseWithin depth) context (some source)) tokens).outcome.result
          = .ok selector := by
  rw [parseWithin]
  by_cases hblank : source.allBlank = true
  · simp [hblank]
  · rw [Bool.not_eq_true] at hblank
    simp [hblank, result_bind_eq_ok_iff, result_ofExcept_eq_ok_iff]

/-- What is read, to whatever depth, is written. -/
theorem parseWithin_sound {depth : Nat}
    (h : (parseWithin depth context source).result = .ok selector) :
    Whole (levelOf context) (Built (levelOf context)) selector source := by
  induction depth generalizing context source selector with
  | zero => cases h
  | succ depth ih =>
    obtain ⟨-, tokens, htokens, hselector⟩ := parseWithin_succ_eq_ok_iff.mp h
    refine whole_sound ⟨?_, ?_⟩ htokens hselector
    · intro name f
      exact build_missing
    · intro name arg f hsolid hbuild
      refine built_of_build (fun inner hinner => ?_) hsolid hbuild
      have hwhole := ih hinner
      exact hwhole

private theorem parseWithin_complete {F : Text → Text → PseudoFunction → Prop} {depth : Nat}
    (hF : BuildsAll (setting (parseWithin depth) context (some source)) F)
    (h : Whole (levelOf context) F selector source) :
    (parseWithin (depth + 1) context source).result = .ok selector :=
  parseWithin_succ_eq_ok_iff.mpr (whole_complete hF h)

/-- Without negations a single level is enough. -/
theorem parseWithin_of_plain (depth : Nat)
    (h : Whole (levelOf context) BuiltPlain selector source) :
    (parseWithin (depth + 1) context source).result = .ok selector := by
  refine parseWithin_complete ⟨?_, ?_, build_of_builtPlain⟩ h
  · rintro name arg f ⟨g, hg, -⟩
    exact hg.solid
  · rintro name arg f ⟨g, hg, -⟩
    exact hg.balanced

/-- At a second level whatever is written is built. -/
theorem buildsAll_built (depth : Nat) (context : Option Context) (source : Text) :
    BuildsAll (setting (parseWithin (depth + 1)) context (some source)) (Built (levelOf context)) :=
  ⟨Built.solid, Built.balanced, fun hf =>
    build_of_built (fun hplain => parseWithin_of_plain depth hplain) hf⟩

/-- With negations two levels are. -/
theorem parseWithin_of_built (depth : Nat)
    (h : Whole (levelOf context) (Built (levelOf context)) selector source) :
    (parseWithin (depth + 2) context source).result = .ok selector :=
  parseWithin_complete (buildsAll_built depth context source) h

/-! ## Reading whole selectors -/

/-- There is room for a negation in six characters and more only. -/
private theorem plain_of_length_lt {level : Level} (h : Whole level (Built level) selector source)
    (hlength : source.length < 6) : Whole level BuiltPlain selector source := by
  refine h.imp (.refl _) ?_ (Nat.le_refl _)
  intro name arg f hn hf
  generalize hcalled : name.lowercase = called at hf ⊢
  cases hf with
  | plain hf => exact ⟨_, hf, rfl⟩
  | negation hitem _ =>
    have hname : name.lowercase.length = name.length :=
      length_lowercase (by rw [hcalled]; decide)
    rw [hcalled] at hname
    have hthree : FunctionKind.negation.name.length = 3 := rfl
    have harg : 0 < arg.length := List.length_pos_iff.mpr hitem.solid.ne_nil
    omega

/-- The parser reads exactly what is written. -/
theorem parse_eq_ok_iff :
    (parse context source).result = .ok selector ↔
      Whole (levelOf context) (Built (levelOf context)) selector source := by
  constructor
  · exact parseWithin_sound
  · intro h
    rw [parse, depthFor]
    by_cases hlength : source.length < 6
    · rw [Nat.div_eq_of_lt hlength]
      exact parseWithin_of_plain 0 (plain_of_length_lt h hlength)
    · obtain ⟨depth, hdepth⟩ : ∃ depth, source.length / 6 = depth + 1 :=
        ⟨source.length / 6 - 1, by omega⟩
      rw [hdepth]
      exact parseWithin_of_built depth h

end Selector

end SelectorCheck
