import SelectorCheck.Proofs.Selector.Parsed

/-!
# The same selector at different levels

What a selector is depends on the level only through the names in it. A level
that admits more, and under which no name changes its meaning, reads the same
tree, positions and argument texts included, also within negations.

## Main results

* `Selector.parse_eq_ok_of_widened` — a wider level reads the same tree.
* `Selector.parse_raised` — so does a context above another one.
-/

namespace SelectorCheck.Selector

open Spelling

variable {given raised : Option Context} {source : Text} {selector : Selector}

/-- A selector is the same at a wider level. -/
theorem parse_eq_ok_of_widened (hlevel : (levelOf given).Widened (levelOf raised))
    (h : (parse given source).result = .ok selector) :
    (parse raised source).result = .ok selector := by
  have hwhole : Whole (levelOf given) (Built (levelOf given)) selector source :=
    parse_eq_ok_iff.mp h
  exact parse_eq_ok_iff.mpr (hwhole.widened hlevel)

/-- Raising the context never changes a selector that is accepted. The context is raised by a later
version with the same profile, or with a profile that restricts less. -/
theorem parse_raised (c d : Context) :
    (c.Below d → ∀ source selector, (parse (some c) source).result = .ok selector →
        (parse (some d) source).result = .ok selector) ∧
      (c.version.number ≤ d.version.number → c.profile.Within d.profile d.version → c.Below d) := by
  constructor
  · intro hbelow source selector h
    have hlevel : (levelOf (some c)).Widened (levelOf (some d)) := hbelow.widened
    exact parse_eq_ok_of_widened hlevel h
  · exact Context.below_of_within

/-- A pseudo-element behind a single colon and a function, from the second version on mobile devices
to the third without restrictions. -/
theorem parse_raised_of_mobile :
    (parse (some ⟨.css3, .general, none⟩) "a:First-Line:lang(en)".toList).result =
      .ok (.complex ⟨⟨⟨.tag, some "a".toList, none, none, 0⟩,
        [⟨.pseudoElement, some "first-line".toList, none, none, 1⟩,
          ⟨.pseudoFunction, some "lang".toList, some "en".toList,
            some ⟨"lang".toList, "en".toList, .plain (.language "en".toList)⟩, 12⟩]⟩, []⟩) := by
  have hbelow : Context.Below ⟨.css2, .mobile, none⟩ ⟨.css3, .general, none⟩ :=
    (parse_raised ⟨.css2, .mobile, none⟩ ⟨.css3, .general, none⟩).2 (by decide) (by decide)
  exact (parse_raised ⟨.css2, .mobile, none⟩ ⟨.css3, .general, none⟩).1 hbelow _ _
    (by decide +kernel)

end SelectorCheck.Selector
