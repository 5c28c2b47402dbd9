import SelectorCheck.Proofs.Selector.Parsed
import SelectorCheck.Proofs.Text.Ascii

/-!
# How pseudo names are spelled

Pseudo names are compared in lower case, and the names in the tables are made of
the first 128 code points. So capital and small Latin letters come to the same.
But lower case is that of all scripts, and one spelling more is admitted than that
of Latin letters: the Kelvin sign counts as a k.

## Main definitions

* `SimpleKind.IsPseudo` — the kinds that have a pseudo name.
* `Level.IsPlain` — the tables are made of the first 128 code points.
* `SimpleOf.SpelledAt` — the pseudo name of a simple selector stands in a text.

## Main results

* `Selector.pseudoName_spelling` — which spellings of pseudo names are admitted.
* `Selector.pseudoName_beyond_ascii` — one that holds a Kelvin sign.
-/

namespace SelectorCheck

open Text

/-! ## Tables of plain names -/

/-- All names in the tables are made of the first 128 code points. -/
def Level.IsPlain (level : Level) : Prop :=
  ∀ category names, level.table category = some names → ∀ name ∈ names, name.IsAscii

theorem Context.isPlain_level (context : Context) : context.level.IsPlain := by
  have hclasses : ∀ version, ∀ name ∈ Level.versionClasses version, name.IsAscii := by
    rintro (_ | _ | _ | _) <;> decide +kernel
  have hprofile : ∀ profile names, Level.profileClasses profile = some names →
      ∀ name ∈ names, name.IsAscii := by
    rintro (_ | _ | _) names hnames
    · cases hnames
    · cases hnames
      decide
    · cases hnames
      decide
  have helements : ∀ version, ∀ name ∈ Level.versionElements version, name.IsAscii := by
    rintro (_ | _ | _ | _) <;> decide
  have hfunctions : ∀ version names, Level.versionFunctions version = some names →
      ∀ name ∈ names, name.IsAscii := by
    rintro (_ | _ | _ | _) names hnames <;> cases hnames <;> decide
  have hexceptions : ∀ version names, Level.versionExceptions version = some names →
      ∀ name ∈ names, name.IsAscii := by
    rintro (_ | _ | _ | _) names hnames <;> cases hnames <;> decide
  obtain ⟨version, profile, language⟩ := context
  intro category names hnames
  cases category with
  | classes =>
    cases hown : Level.profileClasses profile with
    | none =>
      have hversion : Level.versionClasses version = names := by
        simpa [level, Level.of, Level.table, hown] using hnames
      exact hversion ▸ hclasses version
    | some own =>
      have hsame : own = names := by
        simpa [level, Level.of, Level.table, hown] using hnames
      exact hsame ▸ hprofile profile own hown
  | elements =>
    cases hnames
    exact helements version
  | functions => exact hfunctions version names hnames
  | exceptions => exact hexceptions version names hnames

/-- In a table of plain names the two ways to lower case find the same. -/
theorem holds_lowercase {table : Option NameTable} {t : Text}
    (h : ∀ names, table = some names → ∀ name ∈ names, name.IsAscii) :
    holds table t.lowercase = holds table t.latin.asciiLowercase := by
  cases table with
  | none => rfl
  | some names =>
    rw [Bool.eq_iff_iff, holds_some, holds_some, List.contains_iff_mem, List.contains_iff_mem]
    constructor
    · intro hmem
      rwa [(lowercase_eq_iff (h names rfl _ hmem)).mp rfl]
    · intro hmem
      rwa [(lowercase_eq_iff (h names rfl _ hmem)).mpr rfl]

/-- A spelling that a table of plain names holds is Latin. -/
theorem isLatin_of_holds {table : Option NameTable} {t : Text}
    (h : ∀ names, table = some names → ∀ name ∈ names, name.IsAscii)
    (hholds : holds table t.lowercase = true) : t.IsLatin := by
  cases table with
  | none => cases hholds
  | some names =>
    rw [holds_some, List.contains_iff_mem] at hholds
    exact isLatin_of_lowercase (h names rfl _ hholds)

namespace Level

variable {level : Level} (h : level.IsPlain) (t : Text)
include h

theorem IsPlain.legacyElements :
    ∀ names, level.legacyElements = some names → ∀ name ∈ names, name.IsAscii := by
  intro names hnames
  cases hexceptions : level.exceptions with
  | some exceptions =>
    rw [Level.legacyElements, hexceptions, Option.some_or] at hnames
    exact h .exceptions names (hexceptions.trans hnames)
  | none =>
    rw [Level.legacyElements, hexceptions, Option.none_or] at hnames
    exact h .elements names hnames

theorem IsPlain.admitsClass :
    level.admitsClass t.lowercase = level.admitsClass t.latin.asciiLowercase :=
  holds_lowercase (h .classes)

theorem IsPlain.admitsElement :
    level.admitsElement t.lowercase = level.admitsElement t.latin.asciiLowercase :=
  holds_lowercase (h .elements)

theorem IsPlain.admitsLegacyElement :
    level.admitsLegacyElement t.lowercase = level.admitsLegacyElement t.latin.asciiLowercase :=
  holds_lowercase h.legacyElements

end Level

/-! ## Spellings in a text -/

/-- The kinds of simple selectors that have a pseudo name. -/
def SimpleKind.IsPseudo (kind : SimpleKind) : Prop :=
  kind = .pseudoClass ∨ kind = .pseudoElement ∨ kind = .pseudoFunction

/-- At the place `p` stand one or two colons and the spelling of the pseudo name, which goes on as
far as name characters do. No character of it lies beyond the first 128 code points but the Kelvin
sign, and with a k for that sign and small Latin letters it is the name. -/
def SimpleOf.SpelledAt {F : Type} (simple : SimpleOf F) (source : Text) (p : Int) : Prop :=
  ∃ (n : Nat) (colons spelling after : Text), p = n ∧ (colons = [':'] ∨ colons = [':', ':']) ∧
    source.drop n = colons ++ (spelling ++ after) ∧ NameRun spelling after ∧ spelling.IsLatin ∧
    simple.name = some spelling.latin.asciiLowercase

/-- The pseudo name of a simple selector stands in the source, and so does that of the simple
selector in its argument, at its place in the argument. -/
structure SimpleOf.Spelled (simple : Simple) (source : Text) : Prop where
  name : simple.kind.IsPseudo → simple.SpelledAt source simple.pos
  argument : ∀ f inner, simple.function = some f → f.argument = .negated inner →
    inner.kind.IsPseudo → ∃ q : Nat, f.value <+: source.drop q ∧
      inner.SpelledAt source (q + inner.pos)

namespace Spelling

variable {level : Level}

private theorem spelledAt_of_holds {G : Type} {simple : SimpleOf G} {n : Nat}
    {source colons spelling after : Text} {table : Option NameTable}
    (htable : ∀ names, table = some names → ∀ name ∈ names, name.IsAscii)
    (hcolons : colons = [':'] ∨ colons = [':', ':'])
    (ht : source.drop n = colons ++ (spelling ++ after)) (hrun : NameRun spelling after)
    (hname : simple.name = some spelling.lowercase)
    (hholds : holds table spelling.lowercase = true) : simple.SpelledAt source n := by
  have hlatin : spelling.IsLatin := isLatin_of_holds htable hholds
  refine ⟨n, colons, spelling, after, rfl, hcolons, ht, hrun, hlatin, ?_⟩
  rw [hname, lowercase_of_isLatin hlatin]

/-- The pseudo name of a simple selector that is written stands where the simple selector does. -/
theorem Item.spelledAt {G : Type} {F : Text → Text → G → Prop} {simple : SimpleOf G} {p n : Nat}
    {source text after : Text} (hlevel : level.IsPlain) (h : Item level F p simple text after)
    (ht : source.drop n = text ++ after) (hkind : simple.kind.IsPseudo) :
    simple.SpelledAt source n := by
  cases h with
  | universal | id _ | className _ | tag _ _ => rcases hkind with h | h | h <;> cases h
  | pseudoClass hname _ hadmits =>
    exact spelledAt_of_holds (hlevel .classes) (.inl rfl) ht hname rfl hadmits
  | legacyElement hname _ _ hadmits =>
    exact spelledAt_of_holds hlevel.legacyElements (.inl rfl) ht hname rfl hadmits
  | element hname _ hadmits =>
    exact spelledAt_of_holds (hlevel .elements) (.inr rfl) ht hname rfl hadmits
  | @function name before arg behind _ _ hname hadmits _ _ _ =>
    have hcall : source.drop n =
        [':'] ++ (name ++ '(' :: (before ++ (arg ++ (behind ++ ')' :: after)))) := by
      rw [ht]
      simp
    exact spelledAt_of_holds (hlevel .functions) (.inl rfl) hcall (hname.before_cons (by decide))
      rfl hadmits

theorem Item.spelled {simple : Simple} {p : Nat} {source text after : Text} (hlevel : level.IsPlain)
    (h : Item level (Built level) p simple text after) (ht : source.drop p = text ++ after) :
    simple.Spelled source where
  name := by
    intro hkind
    rw [h.pos_eq]
    exact h.spelledAt hlevel ht hkind
  argument := by
    intro f inner hf hinner hkind
    cases h with
    | universal | id _ | className _ | tag _ _ | pseudoClass _ _ _ | legacyElement _ _ _ _
    | element _ _ _ => cases hf
    | @function name before arg behind _ g hname hadmits hbefore hbehind hbuilt =>
      cases hf
      generalize hcalled : name.lowercase = called at *
      cases hbuilt with
      | plain _ => cases hinner
      | @negation _ simple hitem _ =>
        cases hinner
        have hdrop : source.drop (p + (':' :: (name ++ '(' :: before)).length) =
            arg ++ (behind ++ ')' :: after) := by
          refine drop_behind (ht.trans ?_)
          simp
        have hends : EndsItems (behind ++ ')' :: after) :=
          .blanks_append hbehind (.cons (by decide) rfl after)
        have hreplaced : Item level PlainBuilt 0 inner arg (behind ++ ')' :: after) :=
          hitem.imp (.refl level) (.inr hends) fun _ _ _ _ h => h
        refine ⟨_, ⟨_, hdrop.symm⟩, ?_⟩
        rw [hitem.pos_eq, Int.natCast_zero, Int.add_zero]
        exact hreplaced.spelledAt hlevel hdrop hkind

/-! ### A pseudo name alone -/

section Alone

variable {F : Text → Text → PseudoFunction → Prop} {simple : Simple} {p : Nat}
  {name text after : Text}

/-- A selector that begins with no blank begins with a simple selector. -/
private theorem Whole.exists_item {selector : Selector} {source : Text}
    (h : Whole level F selector source) (hhead : ∀ c ∈ source.head?, isBlank c = false) :
    ∃ simple text after, Item level F 0 simple text after ∧ text ++ after = source := by
  obtain @⟨first, members, before, behind, _, others, hbefore, -, ⟨hitems, -⟩, -⟩ := h
  rcases hitems with _ | ⟨hitem, -⟩
  obtain rfl : before = [] := by
    cases before with
    | nil => rfl
    | cons c blanks =>
      have hc : isBlank c = false := hhead c rfl
      rw [allBlank_cons, hc] at hbefore
      cases hbefore
  exact ⟨_, _, _, hitem, by simp⟩

private theorem eq_of_append {called : Text} (hname : NameRun name [])
    (hcalled : NameRun called after) (h : called ++ after = name) : called = name := by
  rw [← hcalled.takeName_eq, h]
  simpa using hname.takeName_eq

private theorem not_isNameChar_of_colon {called : Text} (hcalled : NameRun called after)
    {t u : Text} (h : called ++ t = ':' :: u) : False := by
  obtain ⟨c, rest, rfl, hc⟩ := hcalled.eq_cons
  cases h
  cases hc

/-- What begins with a colon and a name is a pseudo-class, or a pseudo-element that may be written
so. -/
theorem Item.of_colon (h : Item level F p simple text after) (hname : NameRun name [])
    (ht : text ++ after = ':' :: name) :
    level.admitsClass name.lowercase = true ∨ level.admitsLegacyElement name.lowercase = true := by
  cases h with
  | universal | id _ | className _ => cases ht
  | tag hcalled _ => exact (not_isNameChar_of_colon hcalled ht).elim
  | pseudoClass hcalled _ hadmits =>
    rw [eq_of_append hname hcalled (List.cons.inj ht).2] at hadmits
    exact .inl hadmits
  | legacyElement hcalled _ _ hadmits =>
    rw [eq_of_append hname hcalled (List.cons.inj ht).2] at hadmits
    exact .inr hadmits
  | element _ _ _ =>
    have hcolon : ':' ∈ name := by
      rw [← (List.cons.inj ht).2]
      exact List.mem_cons_self
    cases hname.all _ hcolon
  | function _ _ _ _ _ =>
    have hparen : '(' ∈ name := by
      rw [← (List.cons.inj ht).2]
      simp
    cases hname.all _ hparen

/-- What begins with two colons and a name is a pseudo-element. -/
theorem Item.of_double_colon (h : Item level F p simple text after) (hname : NameRun name [])
    (ht : text ++ after = ':' :: ':' :: name) : level.admitsElement name.lowercase = true := by
  cases h with
  | universal | id _ | className _ => cases ht
  | tag hcalled _ => exact (not_isNameChar_of_colon hcalled ht).elim
  | pseudoClass hcalled _ _ | legacyElement hcalled _ _ _ =>
    exact (not_isNameChar_of_colon hcalled (List.cons.inj ht).2).elim
  | element hcalled _ hadmits =>
    rwa [eq_of_append hname hcalled (List.cons.inj (List.cons.inj ht).2).2] at hadmits
  | function hcalled _ _ _ _ =>
    rw [List.cons_append, List.append_assoc] at ht
    exact (not_isNameChar_of_colon hcalled (List.cons.inj ht).2).elim

end Alone

end Spelling

namespace Selector

open Spelling

variable {context : Option Context} {name : Text}

theorem isPlain_levelOf (context : Option Context) : (levelOf context).IsPlain :=
  Context.isPlain_level _

private theorem parse_of_item {simple : Simple} {text : Text}
    (h : Item (levelOf context) (Built (levelOf context)) 0 simple text []) :
    ∃ s, (parse context text).result = .ok s :=
  ⟨_, parse_eq_ok_iff.mpr h.whole⟩

/-- A name behind a colon is admitted if its lower case is in a table of names that may stand
there. -/
theorem exists_parse_colon (h : NameRun name []) :
    (∃ s, (parse context (':' :: name)).result = .ok s) ↔
      (levelOf context).admitsClass name.lowercase = true ∨
        (levelOf context).admitsLegacyElement name.lowercase = true := by
  constructor
  · rintro ⟨s, hs⟩
    obtain ⟨simple, text, after, hitem, hsource⟩ :=
      (parse_eq_ok_iff.mp hs).exists_item (by simp [isBlank])
    exact hitem.of_colon h hsource
  · intro hadmits
    cases hclass : (levelOf context).admitsClass name.lowercase with
    | true => exact parse_of_item (.pseudoClass h (by simp) hclass)
    | false =>
      rw [hclass] at hadmits
      exact parse_of_item (.legacyElement h (by simp) hclass (hadmits.resolve_left (by simp)))

theorem exists_parse_double_colon (h : NameRun name []) :
    (∃ s, (parse context (':' :: ':' :: name)).result = .ok s) ↔
      (levelOf context).admitsElement name.lowercase = true := by
  constructor
  · rintro ⟨s, hs⟩
    obtain ⟨simple, text, after, hitem, hsource⟩ :=
      (parse_eq_ok_iff.mp hs).exists_item (by simp [isBlank])
    exact hitem.of_double_colon h hsource
  · exact fun hadmits => parse_of_item (.element h (by simp) hadmits)

/-- A spelling is admitted exactly if the tables hold what it comes to with a k for every Kelvin
sign and with small Latin letters, and no other change of letters. In every selector that is read
the pseudo names are spelled so. -/
theorem pseudoName_spelling (context : Option Context) :
    (∀ name : Text, name ≠ [] → (∀ c ∈ name, isNameChar c = true) →
      ((∃ s, (parse context (':' :: name)).result = .ok s) ↔
        (levelOf context).admitsClass name.latin.asciiLowercase = true ∨
          (levelOf context).admitsLegacyElement name.latin.asciiLowercase = true) ∧
      ((∃ s, (parse context (':' :: ':' :: name)).result = .ok s) ↔
        (levelOf context).admitsElement name.latin.asciiLowercase = true)) ∧
    ∀ source s, (parse context source).result = .ok s →
      ∀ simple ∈ s.simples, simple.Spelled source := by
  have hplain := isPlain_levelOf context
  constructor
  · intro name hne hall
    have hname : NameRun name [] := ⟨.nil_right hall, hne⟩
    rw [exists_parse_colon hname, exists_parse_double_colon hname, hplain.admitsClass,
      hplain.admitsLegacyElement, hplain.admitsElement]
    exact ⟨.rfl, .rfl⟩
  · intro source s hs
    exact (parse_eq_ok_iff.mp hs).forall_simples fun hitem ht => hitem.spelled hplain ht

/-- Capital letters, and a selector with a pseudo name in a negation. -/
theorem pseudoName_spelling_of_link :
    (∃ s, (parse none ":LINK".toList).result = .ok s) ∧
    ∀ s, (parse none "a:NOT( :Hover )".toList).result = .ok s →
      ∀ simple ∈ s.simples, simple.Spelled "a:NOT( :Hover )".toList := by
  obtain ⟨hname, hspelled⟩ := pseudoName_spelling none
  refine ⟨?_, hspelled _⟩
  have hall : "LINK".toList.all isNameChar = true := by decide
  exact (hname "LINK".toList (by decide) (List.all_eq_true.mp hall)).1.mpr (by decide +kernel)

/-- Lower case makes the Kelvin sign a k, so a name with it is admitted. Small Latin letters alone
would leave it out of the tables. -/
theorem pseudoName_beyond_ascii :
    (∃ s, (parse (some ⟨.css3, .general, some "en".toList⟩)
      (":lin".toList ++ [kelvinSign])).result = .ok s) ∧
    (levelOf (some ⟨.css3, .general, some "en".toList⟩)).admitsClass
      (asciiLowercase ("lin".toList ++ [kelvinSign])) = false ∧
    (levelOf (some ⟨.css3, .general, some "en".toList⟩)).admitsLegacyElement
      (asciiLowercase ("lin".toList ++ [kelvinSign])) = false := by
  have hparse : (parse (some ⟨.css3, .general, some "en".toList⟩)
      (":lin".toList ++ [kelvinSign])).result =
        .ok (.complex ⟨⟨⟨.pseudoClass, some "link".toList, none, none, 0⟩, []⟩, []⟩) := by
    decide +kernel
  exact ⟨⟨_, hparse⟩, by decide +kernel, by decide +kernel⟩

end Selector

end SelectorCheck
