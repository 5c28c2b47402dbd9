import SelectorCheck.Context

/-!
# Levels that admit more

A later version admits every name that an earlier one does, and no name changes
its meaning on the way: a pseudo-element behind a single colon, which counts as
one only if it is no pseudo-class, is a pseudo-class in no table. The tables of
pseudo-classes are those of the profile where it has one, so for them the
profiles have to be compared as well.

## Main definitions

* `Level.Widened` — what a name stands for at one level it stands for at
  another.
* `Context.Below` — the version and the pseudo-classes grow.
* `Profile.Within` — the profiles of which the pseudo-classes grow.

## Main results

* `Context.Below.widened` — then the level is widened.
* `Context.below_of_within` — the pseudo-classes grow with the version.
-/

namespace SelectorCheck

/-- A name that stands for something at `level` stands for the same at `wider`. -/
structure Level.Widened (level wider : Level) : Prop where
  classes : ∀ {name}, level.admitsClass name = true → wider.admitsClass name = true
  elements : ∀ {name}, level.admitsElement name = true → wider.admitsElement name = true
  functions : ∀ {name}, level.admitsFunction name = true → wider.admitsFunction name = true
  /-- Behind a single colon pseudo-classes come first. -/
  legacy : ∀ {name}, level.admitsClass name = false → level.admitsLegacyElement name = true →
    wider.admitsClass name = false ∧ wider.admitsLegacyElement name = true

theorem Level.Widened.refl (level : Level) : level.Widened level :=
  ⟨fun h => h, fun h => h, fun h => h, fun hclass hlegacy => ⟨hclass, hlegacy⟩⟩

/-- The profile `q` restricts pseudo-classes no more than `p` does, at `version`. The first version
has fewer pseudo-classes than any profile with a table of its own. -/
def Profile.Within (p q : Profile) (version : Version) : Prop :=
  p = q ∨ (p = .mobile ∧ q = .tv) ∨ (q = .general ∧ Version.css2.number ≤ version.number)

instance (p q : Profile) (version : Version) : Decidable (p.Within q version) :=
  inferInstanceAs (Decidable (_ ∨ _))

/-- The context `d` is of no earlier version than `c` and has all its pseudo-classes. -/
structure Context.Below (c d : Context) : Prop where
  version : c.version.number ≤ d.version.number
  classes : ∀ name, c.level.admitsClass name = true → d.level.admitsClass name = true

/-- What grows from each version to the next grows from earlier versions to later ones. -/
theorem Version.of_number_le {P : Version → Prop} (h2 : P .css1 → P .css2)
    (h21 : P .css2 → P .css21) (h3 : P .css21 → P .css3) {v w : Version}
    (h : v.number ≤ w.number) (hv : P v) : P w := by
  cases v <;> cases w <;> simp_all [number]

/-! ## Tables -/

namespace Level

variable {v w : Version} {name : Text}

private theorem holds_some_mono {t u : NameTable} (h : ∀ name ∈ t, name ∈ u)
    (hname : holds (some t) name = true) : holds (some u) name = true := by
  rw [holds_some, List.contains_iff_mem] at hname ⊢
  exact h name hname

private theorem holds_versionClasses (h : v.number ≤ w.number)
    (hname : holds (some (versionClasses v)) name = true) :
    holds (some (versionClasses w)) name = true :=
  Version.of_number_le (P := fun v => holds (some (versionClasses v)) name = true)
    (holds_some_mono (by decide)) (fun hname => hname) (holds_some_mono (by decide +kernel)) h hname

private theorem holds_versionElements (h : v.number ≤ w.number)
    (hname : holds (some (versionElements v)) name = true) :
    holds (some (versionElements w)) name = true :=
  Version.of_number_le (P := fun v => holds (some (versionElements v)) name = true)
    (holds_some_mono (by decide)) (fun hname => hname) (holds_some_mono (by decide)) h hname

private theorem holds_versionFunctions (h : v.number ≤ w.number)
    (hname : holds (versionFunctions v) name = true) : holds (versionFunctions w) name = true :=
  Version.of_number_le (P := fun v => holds (versionFunctions v) name = true)
    (fun hnone => nomatch hnone) (fun hname => hname) (holds_some_mono (by decide)) h hname

/-- The pseudo-classes of a version and a profile. -/
private def classTable (v : Version) : Profile → NameTable
  | .general => versionClasses v
  | .tv => tvClasses
  | .mobile => mobileClasses

private theorem classes_of (v : Version) (p : Profile) :
    (Level.of (some v) (some p)).classes = some (classTable v p) := by
  cases p <;> rfl

private theorem holds_classTable {p q : Profile} (h : v.number ≤ w.number)
    (hprofile : p.Within q w) (hname : holds (some (classTable v p)) name = true) :
    holds (some (classTable w q)) name = true := by
  have hmobile : ∀ name ∈ mobileClasses, name ∈ tvClasses := by decide
  have htv : ∀ w : Version, Version.css2.number ≤ w.number →
      ∀ name ∈ tvClasses, name ∈ versionClasses w := by
    intro w hw
    cases w with
    | css1 => exact absurd hw (by decide)
    | css2 | css21 | css3 => decide +kernel
  rcases hprofile with rfl | ⟨rfl, rfl⟩ | ⟨rfl, hw⟩
  · cases p with
    | general => exact holds_versionClasses h hname
    | tv | mobile => exact hname
  · exact holds_some_mono hmobile hname
  · cases p with
    | general => exact holds_versionClasses h hname
    | tv => exact holds_some_mono (htv w hw) hname
    | mobile => exact holds_some_mono (fun name hmem => htv w hw name (hmobile name hmem)) hname

/-- The pseudo-elements behind a single colon are those of the first version, and later those of the
second. -/
private def versionLegacy : Version → NameTable
  | .css1 => elements1
  | .css2 | .css21 | .css3 => elements2

private theorem legacyElements_of (v : Version) (p : Profile) :
    (Level.of (some v) (some p)).legacyElements = some (versionLegacy v) := by
  cases v <;> rfl

private theorem holds_versionLegacy (h : v.number ≤ w.number)
    (hname : holds (some (versionLegacy v)) name = true) :
    holds (some (versionLegacy w)) name = true :=
  Version.of_number_le (P := fun v => holds (some (versionLegacy v)) name = true)
    (holds_some_mono (by decide)) (fun hname => hname) (fun hname => hname) h hname

/-- A pseudo-element behind a single colon is no pseudo-class, whatever the version and the profile
are. -/
private theorem not_admitsClass_of_legacy (p : Profile)
    (hname : holds (some (versionLegacy v)) name = true) :
    (Level.of (some w) (some p)).admitsClass name = false := by
  have hlatest : holds (some elements2) name = true :=
    holds_versionLegacy (w := .css3) (by cases v <;> decide) hname
  have hnone : ∀ name ∈ elements2, holds (some (classTable w p)) name = false := by
    cases p with
    | general => cases w <;> decide +kernel
    | tv => show ∀ name ∈ elements2, holds (some tvClasses) name = false; decide
    | mobile => show ∀ name ∈ elements2, holds (some mobileClasses) name = false; decide
  rw [holds_some, List.contains_iff_mem] at hlatest
  rw [Level.admitsClass, classes_of]
  exact hnone name hlatest

end Level

namespace Context

variable {c d : Context}

open Level

/-- No name changes its meaning from a context to one above it. -/
theorem Below.widened (h : c.Below d) : c.level.Widened d.level where
  classes := h.classes _
  elements := holds_versionElements h.version
  functions := holds_versionFunctions h.version
  legacy := by
    intro name _ hlegacy
    unfold Level.admitsLegacyElement at hlegacy ⊢
    rw [Context.level, legacyElements_of] at hlegacy ⊢
    exact ⟨not_admitsClass_of_legacy d.profile hlegacy, holds_versionLegacy h.version hlegacy⟩

/-- The pseudo-classes grow with the version if the profile stays the same, and with profiles that
restrict less. -/
theorem below_of_within (hversion : c.version.number ≤ d.version.number)
    (hprofile : c.profile.Within d.profile d.version) : c.Below d where
  version := hversion
  classes := by
    intro name hname
    unfold Level.admitsClass at hname ⊢
    rw [Context.level, classes_of] at hname ⊢
    exact holds_classTable hversion hprofile hname

end Context

end SelectorCheck
