import SelectorCheck.Level.Basic
import SelectorCheck.Text.Decimal
import SelectorCheck.Text.Lowercase
import SelectorCheck.Text.Quoted
import SelectorCheck.Text.Space

/-!
# Labels of versions and profiles

A caller names a version or a profile by a label. A label is a text as a
rule, and is read without regard to case and to the space around it. What is
no text is read through the word that stands for it, except that a missing
profile label, like an empty one, means the general profile.

## Main definitions

* `Label` — what a caller may pass.
* `Label.version`, `Label.profile` — the member that a label names, or the
  reason why there is none.
* `LabelError.message` — the wording of that reason, which lists the labels
  that are known.
-/

namespace SelectorCheck

/-- What a caller passes to name a version or a profile. -/
inductive Label where
  | text (t : Text)
  | missing
  | number (n : Int)
  | flag (b : Bool)
  /-- A list without a text in it. -/
  | empty
deriving DecidableEq, Repr

/-- A label that names nothing. -/
inductive LabelError where
  | unknownVersion (label : Label)
  | unknownProfile (label : Label)
deriving DecidableEq, Repr

namespace Label

/-- The word that a label is read as. -/
def word : Label → Text
  | text t => t
  | missing => Text.missing
  | number n => Decimal.ofInt n
  | flag true => "True".toList
  | flag false => "False".toList
  | empty => "[]".toList

/-- How a message shows a label: texts between quotation marks, the rest as a bare word. -/
def shown : Label → Text
  | text t => Text.quoted t
  | other => other.word

/-- What a label is looked up by. -/
def key (label : Label) : Text := (Text.trimSpace label.word).lowercase

/-- The labels of the versions, in the order in which messages list them. -/
def versions : List (Text × Version) :=
  [("css1".toList, .css1), ("css2".toList, .css2), ("css2.1".toList, .css21),
    ("css21".toList, .css21), ("css3".toList, .css3)]

/-- The labels of the profiles, in the order in which messages list them. -/
def profiles : List (Text × Profile) :=
  [("default".toList, .general), ("mobile".toList, .mobile), ("none".toList, .general),
    ("tv".toList, .tv)]

/-- The version that a label names. -/
def version (label : Label) : Except LabelError Version :=
  match versions.lookup label.key with
  | some v => .ok v
  | none => .error (.unknownVersion label)

/-- The profile that a label names. No label and an empty one mean the general profile. -/
def profile (label : Label) : Except LabelError Profile :=
  if label = missing ∨ label.key = [] then .ok .general
  else
    match profiles.lookup label.key with
    | some p => .ok p
    | none => .error (.unknownProfile label)

end Label

namespace LabelError

/-- The wording of a message about a label. -/
private def unknown (kind : String) (label : Label) (known : List Text) : Text :=
  "Unknown CSS ".toList ++ kind.toList ++ " ".toList ++ label.shown ++
    " (expected one of: ".toList ++ ", ".toList.intercalate known ++ ")".toList

/-- The wording of the reason. -/
def message : LabelError → Text
  | unknownVersion label => unknown "version" label (Label.versions.map (·.1))
  | unknownProfile label => unknown "profile" label (Label.profiles.map (·.1))

end LabelError

end SelectorCheck
