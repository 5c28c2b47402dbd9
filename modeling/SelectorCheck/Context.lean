import SelectorCheck.Level.Label
import SelectorCheck.Level.Names

/-!
# What a selector is checked against

A context names the version, the profile and the language of the text that
messages are written in. Only the first two decide which names are admitted.

## Main definitions

* `Context` — version, profile and language.
* `Context.ofLabels` — the context that labels describe.
* `Context.level` — the tables of names that a context stands for.
* `Context.debug` — how a context is shown.
-/

namespace SelectorCheck

/-- What a selector is checked against. -/
structure Context where
  version : Version
  profile : Profile
  language : Option Text
deriving DecidableEq, Repr

namespace Context

/-- The context that holds where none is given. -/
def standard : Context := ⟨.css3, .general, some "en".toList⟩

/-- The context that a version label, a profile label and a language describe. What is not given is
that of the standard context. Of two labels that name nothing the version's is reported. -/
def ofLabels (version profile : Option Label) (language : Option (Option Text)) :
    Except LabelError Context :=
  match version.elim (.ok standard.version) Label.version with
  | .error e => .error e
  | .ok v =>
    match profile.elim (.ok standard.profile) Label.profile with
    | .error e => .error e
    | .ok p => .ok ⟨v, p, language.getD standard.language⟩

/-- The names that selectors may use. -/
def level (context : Context) : Level := Level.of (some context.version) (some context.profile)

/-- How a context is shown. -/
def debug (context : Context) : Text :=
  "ValidationContext(".toList ++ context.version.name ++ ", ".toList ++ context.profile.name ++
    ", lang=".toList ++ Text.quotedOrNone context.language ++ ")".toList

/-- The language of messages decides nothing about names. -/
@[simp] theorem level_language (context : Context) (language : Option Text) :
    { context with language := language }.level = context.level := rfl

end Context

end SelectorCheck
