import SelectorCheck.Text.Basic

/-!
# Kinds of functions and of simple selectors

Six functions are understood: one about the language of an element, one about
what an element is not, and four that count the place of an element among its
siblings. A simple selector has one of seven kinds, and a function makes just
one of them.

## Main definitions

* `NthKind`, `FunctionKind` — the functions, with the names that selectors
  call them by and the names of the classes of their values.
* `FunctionClass` — the classes of function values that read an argument: one
  for each function, and the common class of those that count.
* `SimpleKind` — the kinds of simple selectors, with the words for them.
-/

namespace SelectorCheck

/-! ## Kinds of functions -/

/-- The functions that count the place of an element among others. -/
inductive NthKind where
  | child
  | lastChild
  | ofType
  | lastOfType
deriving DecidableEq, Repr

/-- The functions that are understood. -/
inductive FunctionKind where
  | lang
  | negation
  | nth (kind : NthKind)
deriving DecidableEq, Repr

namespace FunctionKind

/-- All functions that are understood. -/
def all : List FunctionKind :=
  [lang, negation, nth .child, nth .lastChild, nth .ofType, nth .lastOfType]

/-- The name by which a selector calls a function. -/
def name : FunctionKind → Text
  | lang => "lang".toList
  | negation => "not".toList
  | nth .child => "nth-child".toList
  | nth .lastChild => "nth-last-child".toList
  | nth .ofType => "nth-of-type".toList
  | nth .lastOfType => "nth-last-of-type".toList

/-- The name of the class of function values that is shown. -/
def className : FunctionKind → Text
  | lang => "PseudoFunctionLang".toList
  | negation => "PseudoFunctionNot".toList
  | nth .child => "PseudoFunctionNthChild".toList
  | nth .lastChild => "PseudoFunctionNthLastChild".toList
  | nth .ofType => "PseudoFunctionNthOfType".toList
  | nth .lastOfType => "PseudoFunctionNthLastOfType".toList

/-- The function with a name, if there is one. The name must agree in every character. -/
def ofName? (t : Text) : Option FunctionKind := all.find? fun k => k.name == t

theorem ofName?_name (k : FunctionKind) : ofName? k.name = some k := by
  rcases k with _ | _ | (_ | _ | _ | _) <;> decide +kernel

theorem name_ne_nil (k : FunctionKind) : k.name ≠ [] := by
  rcases k with _ | _ | (_ | _ | _ | _) <;> decide

theorem name_of_ofName? {t : Text} {k : FunctionKind} (h : ofName? t = some k) : k.name = t := by
  unfold ofName? at h
  simpa using List.find?_some h

end FunctionKind

/-! ## Classes of function values -/

/-- The classes of function values that read an argument. -/
inductive FunctionClass where
  /-- The values of one function. -/
  | kind (kind : FunctionKind)
  /-- The values of all functions that count. -/
  | counting
deriving DecidableEq, Repr

namespace FunctionClass

/-- All classes that read an argument. -/
def all : List FunctionClass := counting :: FunctionKind.all.map kind

/-- The name of a class. -/
def name : FunctionClass → Text
  | kind k => k.className
  | counting => "PseudoFunctionNth".toList

/-- The class with a name, if there is one. -/
def ofName? (t : Text) : Option FunctionClass := all.find? fun c => c.name == t

theorem name_of_ofName? {t : Text} {c : FunctionClass} (h : ofName? t = some c) : c.name = t := by
  unfold ofName? at h
  simpa using List.find?_some h

end FunctionClass

/-! ## Kinds of simple selectors -/

/-- The kinds of simple selectors. -/
inductive SimpleKind where
  | tag
  | id
  | className
  | universal
  | pseudoClass
  | pseudoElement
  | pseudoFunction
  /-- A kind that no selector has. -/
  | other (label : Text)
deriving DecidableEq, Repr

namespace SimpleKind

/-- The kinds that selectors have. -/
def known : List SimpleKind :=
  [tag, id, className, universal, pseudoClass, pseudoElement, pseudoFunction]

/-- The word for a kind. -/
def label : SimpleKind → Text
  | tag => "tag".toList
  | id => "id".toList
  | className => "class".toList
  | universal => "universal".toList
  | pseudoClass => "pseudo-class".toList
  | pseudoElement => "pseudo-element".toList
  | pseudoFunction => "pseudo-function".toList
  | other t => t

/-- The kind that a word stands for. -/
def ofLabel (t : Text) : SimpleKind := (known.find? fun k => k.label == t).getD (other t)

/-- The word for a kind is what the kind was made of. -/
theorem label_ofLabel (t : Text) : (ofLabel t).label = t := by
  unfold ofLabel
  cases found : known.find? fun k => k.label == t with
  | none => rfl
  | some k => simpa using List.find?_some found

end SimpleKind

end SelectorCheck
