import SelectorCheck.Proofs.Text.Ascii

/-!
# The case of Latin letters

A capital Latin letter and its small one are told apart by nothing that the readers
ask about a character: both are letters of a name, both have a case, neither is
passed over when the end of a word is looked for, and both have the same small
letter. So lower case of a text does not depend on the case of its Latin letters,
not even where it looks around to find the right sigma.

Every fact is about the text with small Latin letters, `Text.asciiLowercase`. Two
texts that differ in the case of Latin letters have that text in common.

## Main results

* `Text.apply_toLower` — a property of characters that does not tell the letters
  apart.
* `Text.lowercase_asciiLowercase` — lower case of the text with small Latin letters.
* `Text.NameRun.recased` — names in another case.
-/

namespace SelectorCheck.Text

/-! ## Single characters -/

/-- What is the same for the 26 letters, small and capital, is so for every character and its small
Latin letter. -/
theorem apply_toLower {α : Type} (f : Char → α)
    (h : ∀ n < 26, f (Char.ofNat (n + 97)) = f (Char.ofNat (n + 65))) (c : Char) :
    f c.toLower = f c := by
  by_cases hcapital : 65 ≤ c.toNat ∧ c.toNat ≤ 90
  · obtain ⟨hlow, hhigh⟩ := hcapital
    have hall : ∀ n < 26, (Char.ofNat (n + 65)).toLower = Char.ofNat (n + 97) := by decide
    have hc : c = Char.ofNat (c.toNat - 65 + 65) := by
      rw [Nat.sub_add_cancel hlow, Char.ofNat_toNat]
    rw [hc, hall _ (by omega)]
    exact h _ (by omega)
  · have hsame : c.toLower = c := by
      unfold Char.toLower
      split
      · next hcode => exact absurd hcode hcapital
      · rfl
    rw [hsame]

theorem isNameChar_toLower (c : Char) : isNameChar c.toLower = isNameChar c :=
  apply_toLower isNameChar (by decide) c

theorem isNameStart_toLower (c : Char) : isNameStart c.toLower = isNameStart c :=
  apply_toLower isNameStart (by decide) c

theorem isBlank_toLower (c : Char) : isBlank c.toLower = isBlank c :=
  apply_toLower isBlank (by decide) c

theorem isCaseIgnorable_toLower (c : Char) : isCaseIgnorable c.toLower = isCaseIgnorable c :=
  apply_toLower isCaseIgnorable (by decide +kernel) c

theorem isCased_toLower (c : Char) : isCased c.toLower = isCased c :=
  apply_toLower isCased (by decide +kernel) c

theorem smallLetter_toLower (c : Char) : smallLetter c.toLower = smallLetter c :=
  apply_toLower smallLetter (by decide +kernel) c

/-! ## Texts -/

variable {t u : Text}

@[simp] theorem length_asciiLowercase (t : Text) : t.asciiLowercase.length = t.length :=
  List.length_map _

/-- Texts that differ in the case of Latin letters agree on what does not tell them apart. -/
theorem all_of_recased {p : Char → Bool} (hp : ∀ c, p c.toLower = p c)
    (h : u.asciiLowercase = t.asciiLowercase) (ht : ∀ c ∈ t, p c = true) :
    ∀ c ∈ u, p c = true := by
  intro d hd
  have hmem : d.toLower ∈ t.asciiLowercase := h ▸ List.mem_map_of_mem hd
  obtain ⟨c, hc, hlower⟩ := List.mem_map.mp hmem
  rw [← hp d, ← hlower, hp c]
  exact ht c hc

theorem head?_of_recased {p : Char → Bool} {b : Bool} (hp : ∀ c, p c.toLower = p c)
    (h : u.asciiLowercase = t.asciiLowercase) (ht : ∀ c ∈ t.head?, p c = b) :
    ∀ c ∈ u.head?, p c = b := by
  intro d hd
  obtain ⟨rest, rfl⟩ := List.head?_eq_some_iff.mp hd
  cases t with
  | nil => cases h
  | cons c t =>
    have hlower : d.toLower = c.toLower := (List.cons.inj h).1
    rw [← hp d, hlower, hp c]
    exact ht c rfl

theorem allBlank_of_recased (h : u.asciiLowercase = t.asciiLowercase) :
    allBlank u = allBlank t := by
  rw [Bool.eq_iff_iff, allBlank_iff, allBlank_iff]
  exact ⟨all_of_recased isBlank_toLower h.symm, all_of_recased isBlank_toLower h⟩

/-- The case of Latin letters does not matter to whether a word goes on. -/
theorem meetsCased_asciiLowercase (t : Text) : meetsCased t.asciiLowercase = meetsCased t := by
  have hsame : isCaseIgnorable ∘ Char.toLower = isCaseIgnorable := funext isCaseIgnorable_toLower
  rw [meetsCased, asciiLowercase, List.dropWhile_map, hsame, meetsCased, List.head?_map]
  cases (t.dropWhile isCaseIgnorable).head? with
  | none => rfl
  | some c => exact isCased_toLower c

theorem lowerAt_asciiLowercase (before : Text) (c : Char) (after : Text) :
    lowerAt before.asciiLowercase c.toLower after.asciiLowercase = lowerAt before c after := by
  have hsigma : (c.toLower == capitalSigma) = (c == capitalSigma) :=
    apply_toLower (· == capitalSigma) (by decide) c
  have hdotted : (c.toLower == dottedI) = (c == dottedI) :=
    apply_toLower (· == dottedI) (by decide) c
  have hends : endsWord before.asciiLowercase after.asciiLowercase = endsWord before after := by
    rw [endsWord, endsWord, meetsCased_asciiLowercase, meetsCased_asciiLowercase]
  rw [lowerAt, lowerAt, hends, hsigma, hdotted, smallLetter_toLower]

/-- Lower case does not depend on the case of Latin letters. -/
@[simp] theorem lowercase_asciiLowercase (t : Text) : t.asciiLowercase.lowercase = t.lowercase := by
  suffices hfrom : ∀ before : Text, lowerFrom before.asciiLowercase t.asciiLowercase =
      lowerFrom before t from hfrom []
  induction t with
  | nil => exact fun _ => rfl
  | cons c after ih =>
    intro before
    show lowerFrom before.asciiLowercase (c.toLower :: asciiLowercase after) = _
    rw [lowerFrom_cons, lowerFrom_cons, lowerAt_asciiLowercase]
    exact congrArg _ (ih (c :: before))

/-- A name stays one in another case, in front of a text in another case. -/
theorem NameRun.recased {name after name' after' : Text} (h : NameRun name after)
    (hname : name'.asciiLowercase = name.asciiLowercase)
    (hafter : after'.asciiLowercase = after.asciiLowercase) : NameRun name' after' where
  all := all_of_recased isNameChar_toLower hname h.all
  stops := head?_of_recased isNameChar_toLower hafter h.stops
  ne_nil := by
    rintro rfl
    exact h.ne_nil (List.map_eq_nil_iff.mp hname.symm)

end SelectorCheck.Text
