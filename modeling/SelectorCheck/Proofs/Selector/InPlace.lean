import SelectorCheck.Proofs.Selector.Parsed
import SelectorCheck.Proofs.Text.Stretches

/-!
# Where the nodes of a tree stand

The simple selectors of a tree have positions, which come from the tokens. Read in
the order of the tree they are a row that goes through the text once: each stands at
its position, spelled as it is, and what stands between two of them is no more than
blanks, marks and commas.

How a selector is written is a relation between a tree and all of its text, layer by
layer. Here it is turned into the row. Each layer puts its simple selectors in front
of a row for the text behind it, so the row of the whole is put together from the
back. A tag name is a name of its own only if no name character stands in front of
it, so every layer also has to say that no name goes on from it into what follows.

## Main definitions

* `SimpleSpan` — a simple selector with its spelling.
* `Spelling.Stands` — a simple selector that is spelled at its place.
* `Spelling.InPlace` — a row of simple selectors that accounts for a text.
* `Spelling.Lays` — the simple selectors of the text behind another one.

## Main results

* `Spelling.Whole.inPlace` — the simple selectors of a tree are in place.
* `Selector.parse_inPlace` — so are those of what is read, and of what is read in the
  argument of a negation.
-/

namespace SelectorCheck

open Text Lexer

/-- A simple selector with its spelling. -/
structure SimpleSpan (G : Type) where
  simple : SimpleOf G
  text : Text

namespace SimpleSpan

variable {G : Type}

/-- The place of the first character. -/
def start (s : SimpleSpan G) : Nat := s.simple.pos.toNat

/-- The place behind the last character. -/
def stop (s : SimpleSpan G) : Nat := s.start + s.text.length

end SimpleSpan

namespace Spelling

section Rows

variable {G : Type} (level : Level) (F : Text → Text → G → Prop)

/-- The simple selector is spelled in `source` where its position says. A tag name is a run of name
characters that goes on neither behind it nor in front of it. -/
def Stands (source : Text) (s : SimpleSpan G) : Prop :=
  ∃ before after, source = before ++ (s.text ++ after) ∧ s.simple.pos = (before.length : Int) ∧
    Item level F before.length s.simple s.text after ∧
    (s.simple.kind = .tag → ∀ c ∈ before.getLast?, isNameChar c = false)

/-- The simple selectors in the row, with their spellings, account for the text `source`. -/
structure InPlace (source : Text) (row : List (SimpleSpan G)) : Prop where
  spelled : ∀ s ∈ row, Stands level F source s
  increasing : row.Pairwise fun a b => a.simple.pos < b.simple.pos
  ordered : row.Pairwise fun a b => a.stop ≤ b.start
  /-- What no spelling holds is a blank, a mark of a combinator or a comma. -/
  outside : ∀ i c, source[i]? = some c → (∀ s ∈ row, i < s.start ∨ s.stop ≤ i) →
    isBlank c = true ∨ isCombinator c = true ∨ c = ','

/-! ## Layouts -/

/-- The character may stand between two simple selectors. -/
def isBetween (c : Char) : Bool := isBlank c || absorbsBlanks c

/-- The simple selectors are laid out in the text behind `before`. -/
inductive Laid : (before ahead : Text) → List (SimpleSpan G) → Prop where
  | done {before gap : Text} (hgap : ∀ c ∈ gap, isBetween c = true) : Laid before gap []
  | cons {before gap text after : Text} {simple : SimpleOf G} {row : List (SimpleSpan G)}
      (hgap : ∀ c ∈ gap, isBetween c = true)
      (h : Item level F (before.length + gap.length) simple text after)
      (hfresh : simple.kind = .tag → ∀ c ∈ (before ++ gap).getLast?, isNameChar c = false)
      (hrest : Laid (before ++ (gap ++ text)) after row) :
      Laid before (gap ++ (text ++ after)) (⟨simple, text⟩ :: row)

/-- No name goes on from the text `before` into the text `ahead`. -/
def Parted (before ahead : Text) : Prop :=
  ∀ c ∈ before.getLast?, ∀ d ∈ ahead.head?, isNameChar c = true → isNameChar d = false

/-- The simple selectors `simples` are those of the text `ahead` behind the text `before`. -/
def Lays (before ahead : Text) (simples : List (SimpleOf G)) : Prop :=
  Parted before ahead →
    ∃ row : List (SimpleSpan G), row.map SimpleSpan.simple = simples ∧ Laid level F before ahead row

end Rows

section Layouts

variable {G : Type} {level : Level} {F : Text → Text → G → Prop} {source before ahead gap text
  after : Text} {p : Nat} {simple : SimpleOf G} {simples : List (SimpleOf G)}
  {row : List (SimpleSpan G)}

namespace Laid

theorem stretches (h : Laid level F before ahead row) :
    Stretches isBetween before.length ahead (row.map fun s => (s.start, s.stop)) := by
  induction h with
  | done hgap => exact .done hgap
  | @cons before gap text after simple row hgap hitem _ _ ih =>
    rw [List.length_append, List.length_append, ← Nat.add_assoc] at ih
    have hstart : SimpleSpan.start ⟨simple, text⟩ = before.length + gap.length := by
      rw [SimpleSpan.start, hitem.pos_eq, Int.toNat_natCast]
    have hrow := Stretches.cons hgap ih
    rwa [List.map_cons, SimpleSpan.stop, hstart]

theorem spelled (h : Laid level F before ahead row) (hsource : source = before ++ ahead) :
    ∀ s ∈ row, Stands level F source s := by
  induction h with
  | done _ => simp
  | @cons before gap text after simple row _ hitem hfresh _ ih =>
    rw [← List.length_append] at hitem
    intro s hs
    rcases List.mem_cons.mp hs with rfl | hrest
    · exact ⟨before ++ gap, after, by rw [hsource, List.append_assoc], hitem.pos_eq, hitem, hfresh⟩
    · exact ih (by rw [hsource]; simp) s hrest

/-- What is laid out in a text is in place. -/
theorem inPlace (h : Laid level F [] source row) : InPlace level F source row := by
  have hstretches := h.stretches
  have hspelled := h.spelled rfl
  have hordered : row.Pairwise fun a b => a.stop ≤ b.start := List.pairwise_map.mp hstretches.ordered
  constructor
  case spelled => exact hspelled
  case ordered => exact hordered
  case increasing =>
    -- No spelling is empty, so what begins behind one begins further on.
    refine hordered.imp_of_mem fun {a b} ha hb hle => ?_
    obtain ⟨front, _, -, hpos, hitem, -⟩ := hspelled a ha
    obtain ⟨front', _, -, hpos', -, -⟩ := hspelled b hb
    have hlength : 0 < a.text.length := List.length_pos_iff.mpr hitem.solid.ne_nil
    simp only [SimpleSpan.stop, SimpleSpan.start, hpos, hpos', Int.toNat_natCast] at hle
    omega
  case outside =>
    intro i c hc houtside
    have hbetween : isBetween c = true := by
      refine hstretches.outside hc fun stretch hstretch => ?_
      obtain ⟨s, hs, rfl⟩ := List.mem_map.mp hstretch
      rw [List.length_nil, Nat.zero_add]
      exact houtside s hs
    simpa [isBetween, absorbsBlanks, or_assoc] using hbetween

end Laid

/-! ## Names -/

private theorem isNameChar_of_isBetween {c : Char} (h : isBetween c = true) :
    isNameChar c = false := by
  rw [Bool.eq_false_iff]
  intro hname
  rw [isBetween, isBlank_of_isNameChar hname, absorbsBlanks_of_isNameChar hname] at h
  cases h

/-- No name goes on over a gap. -/
theorem Parted.append_gap (h : Parted before (gap ++ ahead))
    (hgap : ∀ c ∈ gap, isBetween c = true) : Parted (before ++ gap) ahead := by
  by_cases hnone : gap = []
  · subst hnone
    rwa [List.append_nil]
  · intro c hc d _ hname
    rw [getLast?_append_right hnone] at hc
    rw [isNameChar_of_isBetween (hgap c (List.mem_of_getLast? hc))] at hname
    cases hname

private theorem parted_of_name {name : Text} (h : NameRun name after) : Parted before after :=
  fun _ _ d hd _ => h.stops d hd

private theorem parted_concat {c : Char} (hc : isNameChar c = false) (t : Text) :
    Parted (t ++ [c]) after := by
  intro d hd _ _ hname
  rw [List.getLast?_concat, Option.mem_some_iff] at hd
  rw [← hd, hc] at hname
  cases hname

/-- No name goes on from a simple selector into what follows it. -/
theorem Item.parted (h : Item level F p simple text after) : Parted (before ++ text) after := by
  cases h with
  | universal => exact parted_concat rfl before
  | id hname | className hname | tag hname _ | pseudoClass hname _ _ | legacyElement hname _ _ _
  | element hname _ _ => exact parted_of_name hname
  | @function name front arg behind =>
    have hclose : before ++ ':' :: (name ++ '(' :: (front ++ (arg ++ (behind ++ [')'])))) =
        (before ++ ':' :: (name ++ '(' :: (front ++ (arg ++ behind)))) ++ [')'] := by simp
    rw [hclose]
    exact parted_concat rfl _

/-- A tag name that no name goes on into is not part of another one. -/
theorem Item.fresh (h : Item level F p simple text after) (hparted : Parted before (text ++ after))
    (hkind : simple.kind = .tag) : ∀ c ∈ before.getLast?, isNameChar c = false := by
  cases h with
  | universal | id _ | className _ | pseudoClass _ _ _ | legacyElement _ _ _ _ | element _ _ _
  | function _ _ _ _ _ => cases hkind
  | tag hname _ =>
    obtain ⟨d, rest, rfl, hd⟩ := hname.eq_cons
    intro c hc
    rw [Bool.eq_false_iff]
    intro hchar
    have hother := hparted c hc d rfl hchar
    rw [hd] at hother
    cases hother

/-! ## Rows, from the back -/

namespace Lays

theorem done (hgap : ∀ c ∈ gap, isBetween c = true) : Lays level F before gap [] :=
  fun _ => ⟨[], rfl, .done hgap⟩

/-- What stands in front of the first simple selector may be longer. -/
theorem between (h : Lays level F (before ++ gap) ahead simples)
    (hgap : ∀ c ∈ gap, isBetween c = true) : Lays level F before (gap ++ ahead) simples := by
  intro hparted
  obtain ⟨row, hsimples, hlaid⟩ := h (hparted.append_gap hgap)
  refine ⟨row, hsimples, ?_⟩
  -- The gap joins the one that the row begins with. The rest of the row stays where it is.
  cases hlaid with
  | done hmore => exact .done fun c hc => (List.mem_append.mp hc).elim (hgap c) (hmore c)
  | @cons _ more text after simple row hmore hitem hfresh hrest =>
    have hall : ∀ c ∈ gap ++ more, isBetween c = true :=
      fun c hc => (List.mem_append.mp hc).elim (hgap c) (hmore c)
    rw [← List.append_assoc]
    refine .cons hall ?_ ?_ ?_
    · rw [List.length_append, Nat.add_assoc] at hitem
      rwa [List.length_append]
    · rwa [← List.append_assoc]
    · simpa only [List.append_assoc] using hrest

/-- One more simple selector stands in front. -/
theorem cons (h : Item level F before.length simple text after)
    (hrest : Lays level F (before ++ text) after simples) :
    Lays level F before (text ++ after) (simple :: simples) := by
  intro hparted
  obtain ⟨row, hsimples, hlaid⟩ := hrest h.parted
  have hnone : ∀ c ∈ ([] : Text), isBetween c = true := nofun
  refine ⟨⟨simple, text⟩ :: row, congrArg _ hsimples, .cons hnone h ?_ hlaid⟩
  rw [List.append_nil]
  exact h.fresh hparted

end Lays

end Layouts

section Trees

variable {level : Level} {F : Text → Text → PseudoFunction → Prop} {source before text after : Text}
  {p : Nat} {rest : List Simple}

theorem isBetween_of_allBlank {blanks : Text} (h : allBlank blanks = true) :
    ∀ c ∈ blanks, isBetween c = true := by
  intro c hc
  rw [isBetween, allBlank_iff.mp h c hc]
  rfl

/-- A mark or a comma, with blanks around it. -/
theorem isBetween_of_mark {front behind : Text} {mark : Char} (hfront : allBlank front = true)
    (hmark : absorbsBlanks mark = true) (hbehind : allBlank behind = true) :
    ∀ c ∈ front ++ mark :: behind, isBetween c = true := by
  intro c hc
  rcases List.mem_append.mp hc with hc | hc
  · exact isBetween_of_allBlank hfront c hc
  · rcases List.mem_cons.mp hc with rfl | hc
    · rw [isBetween, hmark, Bool.or_true]
    · exact isBetween_of_allBlank hbehind c hc

theorem Joint.isBetween {combinator joint : Text} (h : Joint combinator joint) :
    ∀ c ∈ joint, isBetween c = true := by
  cases h with
  | blanks hblanks _ => exact isBetween_of_allBlank hblanks
  | mark hfront hmark hbehind =>
    exact isBetween_of_mark hfront (by rw [absorbsBlanks, hmark, Bool.true_or]) hbehind

theorem Items.lays {simples : List Simple} (h : Items level F p simples text after)
    (hp : p = before.length) (hrest : Lays level F (before ++ text) after rest) :
    Lays level F before (text ++ after) (simples ++ rest) := by
  induction h generalizing before with
  | nil => simpa using hrest
  | @cons p simple simples text others after hitem _ ih =>
    subst hp
    rw [List.append_assoc]
    refine .cons hitem (ih ?_ ?_)
    · rw [List.length_append]
    · rwa [List.append_assoc]

theorem Links.lays {row : List Link} (h : Links level F p row text after)
    (hp : p = before.length) (hrest : Lays level F (before ++ text) after rest) :
    Lays level F before (text ++ after) (row.flatMap (fun l => l.compound.simples) ++ rest) := by
  induction h generalizing before with
  | nil => simpa using hrest
  | @cons p combinator joint text others after compound row hjoint hitems _ ih =>
    subst hp
    rw [List.flatMap_cons, List.append_assoc, List.append_assoc, List.append_assoc]
    refine .between (hitems.lays ?_ (ih ?_ ?_)) hjoint.isBetween
    · rw [List.length_append]
    · simp only [List.length_append]
    · simpa only [List.append_assoc] using hrest

theorem Chain.lays {complex : Complex} (h : Chain level F p complex text after)
    (hp : p = before.length) (hrest : Lays level F (before ++ text) after rest) :
    Lays level F before (text ++ after) (complex.simples ++ rest) := by
  cases h with
  | @mk text others _ hitems hlinks =>
    subst hp
    rw [Complex.simples, Complex.parts, List.flatMap_cons, List.append_assoc, List.append_assoc]
    refine hitems.lays rfl (hlinks.lays ?_ ?_)
    · rw [List.length_append]
    · rwa [List.append_assoc]

theorem Members.lays {members : List Complex} (h : Members level F p members text after)
    (hp : p = before.length) (hrest : Lays level F (before ++ text) after rest) :
    Lays level F before (text ++ after) (members.flatMap Complex.simples ++ rest) := by
  induction h generalizing before with
  | nil => simpa using hrest
  | @cons p complex members front behind text others after hfront hbehind hchain _ ih =>
    subst hp
    have hgap : ∀ c ∈ front ++ ',' :: behind, isBetween c = true :=
      isBetween_of_mark hfront rfl hbehind
    have hsplit : front ++ ',' :: (behind ++ (text ++ others)) ++ after =
        (front ++ ',' :: behind) ++ (text ++ (others ++ after)) := by simp
    have hlength : (before ++ (front ++ ',' :: behind)).length =
        before.length + front.length + 1 + behind.length := by
      simp only [List.length_append, List.length_cons]
      omega
    rw [hsplit, List.flatMap_cons, List.append_assoc complex.simples]
    refine .between (hchain.lays hlength.symm (ih ?_ ?_)) hgap
    · rw [List.length_append, hlength]
    · simpa using hrest

/-- The simple selectors of a tree that is written in a text are in place there. -/
theorem Whole.inPlace {selector : Selector} (h : Whole level F selector source) :
    ∃ row : List (SimpleSpan PseudoFunction), row.map SimpleSpan.simple = selector.simples ∧
      InPlace level F source row := by
  obtain @⟨first, members, front, behind, text, others, hfront, hbehind, hchain, hmembers⟩ := h
  have hlays : Lays level F [] (front ++ (text ++ (others ++ behind)))
      (first.simples ++ (members.flatMap Complex.simples ++ [])) := by
    refine .between (hchain.lays rfl (hmembers.lays ?_ (.done ?_))) (isBetween_of_allBlank hfront)
    · simp
    · exact isBetween_of_allBlank hbehind
  obtain ⟨row, hrow, hlaid⟩ := hlays nofun
  refine ⟨row, ?_, hlaid.inPlace⟩
  rw [hrow, Selector.simples, Selector.members_ofMembers, List.flatMap_cons, List.append_nil]

end Trees

/-! ## Arguments of negations -/

/-- A simple selector that makes up a text is in place there. -/
theorem Item.inPlace {G : Type} {level : Level} {F : Text → Text → G → Prop} {simple : SimpleOf G}
    {text : Text} (h : Item level F 0 simple text []) : InPlace level F text [⟨simple, text⟩] := by
  have hnone : ∀ c ∈ ([] : Text), isBetween c = true := nofun
  have hlaid : Laid level F [] ([] ++ (text ++ [])) [⟨simple, text⟩] :=
    .cons hnone h (fun _ => nofun) (.done hnone)
  rw [List.nil_append, List.append_nil] at hlaid
  exact hlaid.inPlace

/-- The simple selector that a negation holds makes up the value of the negation. -/
theorem Item.negated_inPlace {level : Level} {p : Nat} {simple : Simple} {text after : Text}
    {f : PseudoFunction} {inner : PlainSimple} (h : Item level (Built level) p simple text after)
    (hf : simple.function = some f) (hinner : f.argument = .negated inner) :
    InPlace level PlainBuilt f.value [⟨inner, f.value⟩] := by
  cases h with
  | universal | id _ | className _ | tag _ _ | pseudoClass _ _ _ | legacyElement _ _ _ _
  | element _ _ _ => cases hf
  | @function name _ _ _ _ g _ _ _ _ hbuilt =>
    cases hf
    generalize name.lowercase = called at hbuilt
    cases hbuilt with
    | plain _ => cases hinner
    | negation hitem _ =>
      cases hinner
      exact hitem.inPlace

end Spelling

namespace Selector

open Spelling

variable {context : Option Context} {source : Text} {selector : Selector}

/-- The simple selectors of what is read, in the order of the tree, go through the selector once:
their positions increase, each is spelled at its position, and what stands between them is blanks,
marks and commas. The simple selector that a negation holds is in place in the value of the
negation. -/
theorem parse_inPlace (h : (parse context source).result = .ok selector) :
    (∃ row : List (SimpleSpan PseudoFunction), row.map SimpleSpan.simple = selector.simples ∧
      InPlace (levelOf context) (Built (levelOf context)) source row) ∧
    ∀ simple ∈ selector.simples, ∀ f inner, simple.function = some f →
      f.argument = .negated inner →
      InPlace (levelOf context) PlainBuilt f.value [⟨inner, f.value⟩] := by
  obtain ⟨row, hrow, hplace⟩ := (parse_eq_ok_iff.mp h).inPlace
  refine ⟨⟨row, hrow, hplace⟩, fun simple hsimple f inner hf hinner => ?_⟩
  rw [← hrow] at hsimple
  obtain ⟨s, hs, rfl⟩ := List.mem_map.mp hsimple
  obtain ⟨_, _, -, -, hitem, -⟩ := hplace.spelled s hs
  exact hitem.negated_inPlace hf hinner

/-- Two members, a combinator, and a negation in capital letters with blanks in it. -/
theorem parse_inPlace_of_members :
    ∃ selector, (parse none " A.b >c:NOT( #D ) ,*".toList).result = .ok selector ∧
      selector.simples.map SimpleOf.pos = [1, 2, 6, 7, 19] ∧
      ∃ row : List (SimpleSpan PseudoFunction), row.map SimpleSpan.simple = selector.simples ∧
        InPlace (levelOf none) (Built (levelOf none)) " A.b >c:NOT( #D ) ,*".toList row := by
  have hpositions : (parse none " A.b >c:NOT( #D ) ,*".toList).result.map
      (fun selector => selector.simples.map SimpleOf.pos) = .ok [1, 2, 6, 7, 19] := by
    decide +kernel
  cases hparse : (parse none " A.b >c:NOT( #D ) ,*".toList).result with
  | error f =>
    rw [hparse] at hpositions
    cases hpositions
  | ok selector =>
    rw [hparse] at hpositions
    exact ⟨selector, rfl, Except.ok.inj hpositions, (parse_inPlace hparse).1⟩

end Selector

end SelectorCheck
