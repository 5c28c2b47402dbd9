import SelectorCheck.Proofs.Selector.Depth
import SelectorCheck.Proofs.Selector.Parsed
import SelectorCheck.Proofs.Token.Place

/-!
# Blanks around a selector

Blanks in front of a selector move everything that is read in it, and
everything that is reported about it, by their number. Blanks behind a selector
are not seen by what is accepted.

## Main definitions

* `SelectorError.Shifted`, `Failure.Shifted` — the same trouble further on.

## Main results

* `Selector.parse_append_left` — reading behind blanks mirrors reading without
  them.
* `Selector.parse_append_right` — blanks behind a selector do not matter.
-/

namespace SelectorCheck

open Text

/-! ## The same trouble further on -/

/-- The error `other` is about the same trouble as `e`, `k` places further on. -/
structure SelectorError.Shifted (k : Nat) (e other : SelectorError) : Prop where
  code : other.code = e.code
  errorClass : other.errorClass = e.errorClass
  name : other.name = e.name
  token : other.token = e.token
  position : ∃ p : Int, e.position = some p ∧ other.position = some (p + k)

/-- The failure `other` is about the same trouble as `f`, `k` places further on. -/
def Failure.Shifted (k : Nat) (f other : Failure) : Prop := f.error.Shifted k other.error

theorem Failure.Shifted.trans {k l : Nat} {f g h : Failure} (hfirst : f.Shifted k g)
    (hsecond : g.Shifted l h) : f.Shifted (k + l) h := by
  obtain ⟨p, hp, hmiddle⟩ := hfirst.position
  obtain ⟨q, hq, hlast⟩ := hsecond.position
  rw [hmiddle] at hq
  obtain rfl := Option.some.inj hq
  refine ⟨hsecond.code.trans hfirst.code, hsecond.errorClass.trans hfirst.errorClass,
    hsecond.name.trans hfirst.name, hsecond.token.trans hfirst.token, p, hp, ?_⟩
  rw [hlast, Int.natCast_add, Int.add_assoc]

/-- An error with a place is the same trouble at any other place. -/
theorem SelectorError.shifted_movedTo {source : Text} {k n : Nat} {e : SelectorError}
    (h : e.PlacedIn n) : e.Shifted k (e.movedTo source k) := by
  obtain ⟨p, hp, -⟩ := h
  refine ⟨rfl, rfl, rfl, rfl, p, hp, ?_⟩
  rw [movedTo, hp, Option.map_some]

/-- An error in an argument moves with the argument. -/
theorem Failure.relocatable_shifted (k : Nat) (f : Failure) :
    Grammar.Relocatable k (Failure.Shifted k) f f := by
  intro start
  refine ⟨rfl, rfl, rfl, rfl, _, SelectorError.position_relocated .., ?_⟩
  rw [error_relocated, SelectorError.position_relocated, Int.add_right_comm]

/-! ## Blanks in front -/

namespace Selector

variable {context : Option Context} {source blanks : Text}

/-- The same functions built for a text that stands further on in another one. -/
theorem setting_mirrors_behind (read : Option Context → Text → Traced Selector)
    (context : Option Context) (source other : Text) (k : Nat) (tokens : List Token) :
    (setting read context (some source)).Mirrors tokens k (fun _ _ => False) (Failure.Shifted k)
      (setting read context (some other)) where
  level := rfl
  unexpected := by
    rintro t _ ⟨⟩
    · exact ⟨rfl, rfl, rfl, rfl, _, rfl, rfl⟩
    · contradiction
  dangling _ := ⟨rfl, rfl, rfl, rfl, _, rfl, rfl⟩
  unknownName _ _ _ _ hpos := ⟨rfl, rfl, rfl, rfl, _, rfl, congrArg some hpos⟩
  build _ := Traced.mirrors_refl (Failure.relocatable_shifted k) _

/-- Blanks in front of a selector move what it is, and where it is at fault. -/
theorem parse_append_left (context : Option Context) (hblanks : allBlank blanks = true)
    (hsource : allBlank source = false) :
    (parse context source).Mirrors (Failure.Shifted blanks.length) (moved blanks.length)
      (parse context (blanks ++ source)) := by
  have hall : allBlank (blanks ++ source) = false := by
    rw [allBlank_append, hblanks, hsource]
    rfl
  have hdepth : source.length / 6 < depthFor (blanks ++ source) := by
    rw [depthFor, List.length_append]
    omega
  rw [← parseWithin_eq_parse context hdepth]
  show (parseWithin (depthFor (blanks ++ source)) context source).Mirrors _ _
    (parseWithin (depthFor (blanks ++ source)) context (blanks ++ source))
  rw [depthFor]
  generalize (blanks ++ source).length / 6 = depth
  cases htokens : Token.ofSelector source with
  | error e =>
    have hmoved : Token.ofSelector (blanks ++ source) =
        .error (e.movedTo (blanks ++ source) blanks.length) := by
      rw [Token.ofSelector_append_blanks hblanks, htokens]
    rw [parseWithin_of_malformed depth context hsource htokens,
      parseWithin_of_malformed depth context hall hmoved]
    exact Traced.mirrors_error (SelectorError.shifted_movedTo (Token.place_of_error htokens))
  | ok tokens =>
    have hmoved : Token.ofSelector (blanks ++ source) =
        .ok (tokens.map (Token.moved blanks.length)) := by
      rw [Token.ofSelector_append_blanks hblanks, htokens]
    have hsetting := setting_mirrors_behind (parseWithin depth) context source (blanks ++ source)
      blanks.length tokens
    rw [parseWithin_of_tokens depth context hsource htokens,
      parseWithin_of_tokens depth context hall hmoved]
    exact (Grammar.selector_mirrors hsetting
      ⟨List.suffix_refl tokens, Token.exists_end htokens⟩ (.moved false tokens)).outcome

end Selector

/-! ## Blanks behind -/

namespace Spelling

variable {level : Level} {F : Text → Text → PseudoFunction → Prop} {p : Nat}

/-- The text is not empty, and it does not end with a blank. -/
def EndsSolid (t : Text) : Prop := t ≠ [] ∧ ∀ c ∈ t.getLast?, isBlank c = false

/-- The text ends as the first of two parts does, if the second is empty. -/
theorem EndsSolid.append {t u : Text} (ht : EndsSolid t) (hu : u = [] ∨ EndsSolid u) :
    EndsSolid (t ++ u) := by
  rcases hu with rfl | ⟨hne, hlast⟩
  · rwa [List.append_nil]
  · refine ⟨by simp [hne], ?_⟩
    rwa [getLast?_append_right hne]

private theorem EndsSolid.append_right {u : Text} (hu : EndsSolid u) (t : Text) :
    EndsSolid (t ++ u) := by
  refine ⟨by simp [hu.1], ?_⟩
  rw [getLast?_append_right hu.1]
  exact hu.2

theorem Items.endsSolid {simples : List Simple} {text after : Text}
    (h : Items level F p simples text after) : simples = [] ∧ text = [] ∨ EndsSolid text := by
  induction h with
  | nil => exact .inl ⟨rfl, rfl⟩
  | cons hitem _ ih =>
    have hsolid := hitem.solid
    refine .inr (EndsSolid.append ⟨hsolid.ne_nil, hsolid.last⟩ ?_)
    exact ih.imp_left And.right

private theorem endsSolid_of_compound {compound : Compound} {text after : Text}
    (h : Items level F p compound.simples text after) : EndsSolid text := by
  rcases h.endsSolid with ⟨hnone, -⟩ | hsolid
  · cases hnone
  · exact hsolid

theorem Links.endsSolid {row : List Link} {text after : Text}
    (h : Links level F p row text after) : text = [] ∨ EndsSolid text := by
  induction h with
  | nil => exact .inl rfl
  | @cons _ _ joint _ _ _ _ _ _ hitems _ ih =>
    exact .inr (((endsSolid_of_compound hitems).append ih).append_right joint)

theorem Chain.endsSolid {complex : Complex} {text after : Text}
    (h : Chain level F p complex text after) : EndsSolid text := by
  obtain ⟨hitems, hlinks⟩ := h
  exact (endsSolid_of_compound hitems).append hlinks.endsSolid

theorem Members.endsSolid {members : List Complex} {text after : Text}
    (h : Members level F p members text after) : text = [] ∨ EndsSolid text := by
  induction h with
  | nil => exact .inl rfl
  | @cons _ _ _ before behind text others _ _ _ hchain _ ih =>
    have hsolid := (hchain.endsSolid.append ih).append_right (before ++ ',' :: behind)
    rw [List.append_assoc, List.cons_append] at hsolid
    exact .inr hsolid

/-- The blanks behind a selector may be any. -/
private theorem whole_append_blanks {selector : Selector} {text blanks : Text}
    (h : Whole level F selector text) (hblanks : allBlank blanks = true) :
    Whole level F selector (text.trimEnd ++ blanks) := by
  obtain @⟨first, members, before, behind, text, others, hbefore, hbehind, hchain, hmembers⟩ := h
  have hsolid : EndsSolid (before ++ (text ++ others)) :=
    (hchain.endsSolid.append hmembers.endsSolid).append_right before
  have htrim : (before ++ (text ++ (others ++ behind))).trimEnd = before ++ (text ++ others) := by
    have hsplit : before ++ (text ++ (others ++ behind)) =
        before ++ (text ++ others) ++ behind := by
      simp
    rw [hsplit, trimEnd_append_blanks hbehind, trimEnd_eq_self hsolid.2]
  have hreplaces : Replaces blanks behind := .inr (.of_blanks hblanks)
  have hchain' : Chain level F before.length first text (others ++ blanks) :=
    hchain.imp (.refl level) (fun _ _ _ _ hf => hf) (hreplaces.append others) (Nat.le_refl _)
  have hmembers' : Members level F (before.length + text.length) members others blanks :=
    hmembers.imp (.refl level) (fun _ _ _ _ hf => hf) hreplaces (Nat.le_refl _)
  rw [htrim, List.append_assoc, List.append_assoc]
  exact .mk hbefore hblanks hchain' hmembers'

/-- Blanks behind a selector do not belong to it. -/
theorem whole_append_blanks_iff {selector : Selector} {text blanks : Text}
    (hblanks : allBlank blanks = true) :
    Whole level F selector (text ++ blanks) ↔ Whole level F selector text := by
  obtain ⟨cut, hcut, htext⟩ := exists_trimEnd_append text
  have hboth : allBlank (cut ++ blanks) = true := by
    rw [allBlank_append, hcut, hblanks]
    rfl
  constructor
  · intro h
    have hwhole := whole_append_blanks h hcut
    rw [trimEnd_append_blanks hblanks, ← htext] at hwhole
    exact hwhole
  · intro h
    have hwhole := whole_append_blanks h hboth
    rw [← List.append_assoc, ← htext] at hwhole
    exact hwhole

end Spelling

/-- Blanks behind a selector are not seen by what it is. -/
theorem Selector.parse_append_right {context : Option Context} {source blanks : Text}
    {selector : Selector} (hblanks : allBlank blanks = true) :
    (parse context (source ++ blanks)).result = .ok selector ↔
      (parse context source).result = .ok selector := by
  rw [parse_eq_ok_iff, parse_eq_ok_iff, Spelling.whole_append_blanks_iff hblanks]

end SelectorCheck
