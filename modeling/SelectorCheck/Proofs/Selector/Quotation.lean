import SelectorCheck.Proofs.Selector.Parsed

/-!
# Quoted language tags in selectors

A language tag may be any text if it is quoted. Within a selector the lexer
passes over the quoted tag before the reader of tags takes the quotation away,
and within a negation the lexer passes over it twice. None of them is misled by
what the tag holds: parentheses, marks of either kind, backslashes, blanks, or
nothing at all.

## Main definitions

* `Selector.languageItem` — the function that asks for a quoted tag.

## Main results

* `Selector.parse_quote` — a quoted tag is read as the tag, in a function and in
  a negation of it.
-/

namespace SelectorCheck.Selector

open Text Spelling

/-- The simple selector that asks for the language `tag`, which is written between two `mark`s. -/
def languageItem (mark : Char) (tag : Text) : PlainSimple :=
  ⟨.pseudoFunction, some FunctionKind.lang.name, some (LanguageTag.quote mark tag),
    some ⟨FunctionKind.lang.name, LanguageTag.quote mark tag, .language tag⟩, 0⟩

/-- The text that asks for it, with blanks around the quoted tag. -/
def languageText (mark : Char) (before tag behind : Text) : Text :=
  call FunctionKind.lang.name (before ++ (LanguageTag.quote mark tag ++ behind))

private theorem admits_lang {context : Context} (h : context.version ≠ .css1) :
    context.level.admitsFunction FunctionKind.lang.name = true := by
  obtain ⟨version, profile, language⟩ := context
  cases version with
  | css1 => exact absurd rfl h
  | css2 | css21 | css3 => rfl

theorem admits_negation {context : Context} (h : context.version = .css3) :
    context.level.admitsFunction FunctionKind.negation.name = true := by
  obtain ⟨version, profile, language⟩ := context
  cases h
  rfl

section

variable {level : Level} {mark : Char} {before behind : Text}

private theorem item_language (hadmits : level.admitsFunction FunctionKind.lang.name = true)
    (hmark : isQuote mark = true) (hbefore : allBlank before = true)
    (hbehind : allBlank behind = true) (tag : Text) :
    Item level PlainBuilt 0 (languageItem mark tag) (languageText mark before tag behind) [] :=
  .call hadmits hbefore hbehind (.lang (LanguageTag.written_quote hmark tag)) []

/-- A quoted tag is undone by reading, whatever it holds. The versions that have negations read it
in a negation, too. -/
theorem parse_quote (context : Context) (hmark : isQuote mark = true)
    (hbefore : allBlank before = true) (hbehind : allBlank behind = true) (tag : Text) :
    (context.version ≠ .css1 →
      (parse (some context) (languageText mark before tag behind)).result =
        .ok (.complex ⟨⟨.ofPlain (languageItem mark tag), []⟩, []⟩)) ∧
    (context.version = .css3 →
      (parse (some context)
          (call FunctionKind.negation.name (languageText mark before tag behind))).result =
        .ok (.complex ⟨⟨⟨.pseudoFunction, some FunctionKind.negation.name,
          some (languageText mark before tag behind),
          some ⟨FunctionKind.negation.name, languageText mark before tag behind,
            .negated (languageItem mark tag)⟩, 0⟩, []⟩, []⟩)) := by
  constructor
  · intro hversion
    have hplain := item_language (admits_lang hversion) hmark hbefore hbehind tag
    have hitem : Item context.level (Built context.level) 0 (.ofPlain (languageItem mark tag))
        (languageText mark before tag behind) [] :=
      hplain.map (.refl _) (.refl _) FunctionOf.ofPlain fun name arg f _ _ hf => .plain hf
    exact parse_eq_ok_iff.mpr hitem.whole
  · intro hversion
    have hlater : context.version ≠ .css1 := by
      rw [hversion]
      decide
    have hplain := item_language (admits_lang hlater) hmark hbefore hbehind tag
    have hbuilt : Built context.level FunctionKind.negation.name
        (languageText mark before tag behind) ⟨FunctionKind.negation.name, _, .negated _⟩ :=
      .negation hplain (by simp [languageItem])
    have hnone : allBlank [] = true := rfl
    have hitem : Item context.level (Built context.level) 0 _ _ [] :=
      .call (admits_negation hversion) hnone hnone hbuilt []
    rw [List.nil_append, List.append_nil] at hitem
    exact parse_eq_ok_iff.mpr hitem.whole

/-- A tag with a parenthesis, a mark and a backslash in it. -/
theorem parse_quote_of_marks :
    (parse (some ⟨.css3, .tv, none⟩) ":not(:lang( 'a)\\'\\\\'))".toList).result =
      .ok (.complex ⟨⟨⟨.pseudoFunction, some "not".toList, some ":lang( 'a)\\'\\\\')".toList,
        some ⟨"not".toList, ":lang( 'a)\\'\\\\')".toList,
          .negated ⟨.pseudoFunction, some "lang".toList, some "'a)\\'\\\\'".toList,
            some ⟨"lang".toList, "'a)\\'\\\\'".toList, .language "a)'\\".toList⟩, 0⟩⟩, 0⟩, []⟩,
        []⟩) :=
  (parse_quote ⟨.css3, .tv, none⟩ (show isQuote apostrophe = true from rfl)
    (show allBlank [' '] = true from rfl) (show allBlank [] = true from rfl)
    "a)'\\".toList).2 rfl

end

end SelectorCheck.Selector
