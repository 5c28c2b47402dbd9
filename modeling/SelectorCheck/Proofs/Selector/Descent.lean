import Mathlib.Data.List.Chain
import SelectorCheck.Proofs.Access.Check
import SelectorCheck.Proofs.Selector.Failure
import SelectorCheck.Proofs.Selector.Rounds

/-!
# Readings within readings

Reading a selector reads the arguments of its negations, each of which is a selector
again. The readings that one of them starts itself are found by leaving a note for
each, in place of the records that the reading within would leave. The notes tell the
whole story: whatever else comes to the same on the noted texts, the outcome is the
same, and so are the records once those of the readings within take the places of the
notes.

A noted text is six characters shorter at least. So reading descends, every stack of
readings that are open at once is bounded by a sixth of the length, and the recursion
has one solution only, which any number of levels beyond that bound comes to.

## Main definitions

* `LogRecord.note`, `Selector.noting` — the note of a text, and the reading that
  leaves it.
* `Traced.Fills` — a computation whose notes are replaced by what was noted.
* `Selector.nested` — the texts that a reading reads itself.
* `Selector.Nests` — one reading starts another one.

## Main results

* `Grammar.selector_fills`, `Selector.readBy_fills` — notes are all that is missing.
* `Selector.length_le_of_mem_nested` — a nested reading is of a shorter text.
* `Selector.reading_descends` — reading is well-founded, it makes progress, and its
  depth is bounded.
-/

namespace SelectorCheck

/-! ## Notes -/

namespace LogRecord

/-- The note that a text is read. No function is built without a name, so this is no other
record. -/
def note (text : Text) : LogRecord := .building [] text

/-- The text that a record is the note of. -/
def noted? : LogRecord → Option Text
  | .building [] text => some text
  | _ => none

/-- The record, or what reading the noted text by `read` records. -/
def filled (read : Text → Traced Selector) (r : LogRecord) : List LogRecord :=
  match r.noted? with
  | some text => (read text).log
  | none => [r]

end LogRecord

/-- The reading that comes to what `read` comes to and leaves a note instead of its records. -/
def Selector.noting (read : Text → Traced Selector) (text : Text) : Traced Selector :=
  ⟨[.note text], (read text).result⟩

/-- The records with those of the readings in the places of their notes. -/
def Traced.filled {α : Type} (read : Text → Traced Selector) (t : Traced α) : Traced α :=
  ⟨t.log.flatMap (LogRecord.filled read), t.result⟩

/-- The texts noted among the records come to the same by both readings. -/
def Answered (given read : Text → Traced Selector) (log : List LogRecord) : Prop :=
  ∀ text ∈ log.filterMap LogRecord.noted?, (read text).result = (given text).result

/-- If the notes of `t`, which come to what `given` comes to, come to the same by `read`, then
`image` is `t` with the records of `read` in their places. -/
def Traced.Fills {α : Type} (given read : Text → Traced Selector) (t image : Traced α) : Prop :=
  Answered given read t.log → image = t.filled read

section Fills

variable {α β : Type} {given read : Text → Traced Selector} {t image : Traced α}

theorem answered_append {log behind : List LogRecord} :
    Answered given read (log ++ behind) ↔ Answered given read log ∧ Answered given read behind := by
  simp only [Answered, List.filterMap_append, List.mem_append, or_imp, forall_and]

namespace Traced

/-- Readings that come to the same on the noted texts fill notes alike. -/
theorem filled_congr {other : Text → Traced Selector}
    (h : ∀ text ∈ t.log.filterMap LogRecord.noted?, other text = read text) :
    t.filled other = t.filled read := by
  have hrecord : ∀ r ∈ t.log, r.filled other = r.filled read := by
    intro r hr
    unfold LogRecord.filled
    cases hnoted : r.noted? with
    | none => rfl
    | some text => exact congrArg Traced.log (h text (List.mem_filterMap.mpr ⟨r, hr, hnoted⟩))
  rw [filled, filled, List.flatMap_congr hrecord]

theorem fills_value (a : α) : (value a).Fills given read (value a) := fun _ => rfl

theorem fills_error (e : SelectorError) :
    (error e : Traced α).Fills given read (error e) := fun _ => rfl

theorem fills_ofExcept (r : Except SelectorError α) :
    (ofExcept r).Fills given read (ofExcept r) := by
  cases r with
  | ok a => exact fills_value a
  | error e => exact fills_error e

/-- A note is filled by the reading that was noted. -/
theorem fills_noting (text : Text) :
    (Selector.noting given text).Fills given read (read text) := by
  intro hanswered
  have hresult : (read text).result = (given text).result :=
    hanswered text (List.mem_singleton.mpr rfl)
  show read text = ⟨(read text).log ++ [], (given text).result⟩
  rw [List.append_nil, ← hresult]

theorem Fills.recording (h : t.Fills given read image) {r : LogRecord} (hr : r.noted? = none) :
    (t.recording r).Fills given read (image.recording r) := by
  intro hanswered
  have hboth : Answered given read ([r] ++ t.log) := hanswered
  have hfilled : r.filled read = [r] := by rw [LogRecord.filled, hr]
  rw [h (answered_append.mp hboth).2]
  show _ = (⟨r.filled read ++ t.log.flatMap (LogRecord.filled read), t.result⟩ : Traced α)
  rw [hfilled]
  rfl

theorem Fills.map (h : t.Fills given read image) (f : α → β) :
    (t.map f).Fills given read (image.map f) := by
  intro hanswered
  rw [h hanswered]
  rfl

theorem Fills.mapFailure (h : t.Fills given read image) (f : Failure → Failure) :
    (t.mapFailure f).Fills given read (image.mapFailure f) := by
  intro hanswered
  rw [h hanswered]
  rfl

theorem filled_following (log : List LogRecord) (t : Traced α) :
    (t.following log).filled read =
      (t.filled read).following (log.flatMap (LogRecord.filled read)) := by
  rw [filled, filled, following, following, List.flatMap_append]

theorem Fills.bind {next next' : α → Traced β} (h : t.Fills given read image)
    (hnext : ∀ a, (next a).Fills given read (next' a)) :
    (t.bind next).Fills given read (image.bind next') := by
  intro hanswered
  obtain ⟨log, f | a⟩ := t
  -- Behind a failure nothing is read, so all notes are those of the first part.
  · rw [h hanswered]
    rfl
  · obtain ⟨hfirst, hbehind⟩ := answered_append.mp hanswered
    rw [h hfirst]
    show (next' a).following (log.flatMap (LogRecord.filled read)) =
      ((next a).following log).filled read
    rw [hnext a hbehind, filled_following]

end Traced

end Fills

/-! ## The grammar -/

namespace Grammar

/-- A step that leaves the same tokens, and fills the notes. -/
def Step.Fills {α : Type} (given read : Text → Traced Selector) (step image : Step α) : Prop :=
  Answered given read step.outcome.log → image = ⟨step.rest, step.outcome.filled read⟩

section Layers

variable {α β : Type} {given read : Text → Traced Selector}

namespace Step

variable {step image : Step α}

theorem fills_mk {t u : Traced α} (rest : List Token) (h : t.Fills given read u) :
    (⟨rest, t⟩ : Step α).Fills given read ⟨rest, u⟩ := fun hanswered => by rw [h hanswered]

theorem Fills.outcome (h : step.Fills given read image) :
    step.outcome.Fills given read image.outcome := fun hanswered => by rw [h hanswered]

theorem Fills.map (h : step.Fills given read image) (f : α → β) :
    (step.map f).Fills given read (image.map f) := by
  intro hanswered
  rw [h hanswered]
  rfl

theorem Fills.bind {next next' : α → List Token → Step β} (h : step.Fills given read image)
    (hnext : ∀ a, (next a step.rest).Fills given read (next' a step.rest)) :
    (step.bind next).Fills given read (image.bind next') := by
  intro hanswered
  obtain ⟨rest, log, f | a⟩ := step
  · rw [h hanswered]
    rfl
  · obtain ⟨hfirst, hbehind⟩ := answered_append.mp hanswered
    rw [h hfirst]
    show (⟨(next' a rest).rest, (next' a rest).outcome.following
        (log.flatMap (LogRecord.filled read))⟩ : Step β) =
      ⟨(next a rest).rest, ((next a rest).outcome.following log).filled read⟩
    rw [hnext a hbehind, Traced.filled_following]

end Step

variable {s : Setting} {build : Text → Option Text → Traced PseudoFunction}

theorem compoundOr_fills {e : SelectorError} (simples : List Simple) (rest : List Token)
    {next next' : Compound → Step β} (hnext : ∀ c, (next c).Fills given read (next' c)) :
    (compoundOr e simples rest next).Fills given read (compoundOr e simples rest next') := by
  cases simples with
  | nil => exact Step.fills_mk rest (Traced.fills_error e)
  | cons first others => exact hnext ⟨first, others⟩

theorem named_fills (marker name : Token) :
    (named s marker name).Fills given read (named s marker name) := by
  unfold named
  dsimp only
  split
  · split
    · exact Traced.fills_value _
    · exact Traced.fills_error _
  · split
    · exact Traced.fills_value _
    · split
      · exact Traced.fills_value _
      · exact Traced.fills_error _

variable (hbuild : ∀ called arg, (s.build called arg).Fills given read (build called arg))

include hbuild

theorem call_fills (marker name : Token) (arg : Option Text) (start : Int) :
    (call s marker name arg start).Fills given read
      (call { s with build := build } marker name arg start) := by
  unfold call
  dsimp only
  split
  · exact Traced.fills_error _
  · split
    · exact ((hbuild (calledBy name) arg).mapFailure _).map _
    · exact Traced.fills_error _

theorem pseudo_fills (marker : Token) (tokens : List Token) :
    (pseudo s marker tokens).Fills given read (pseudo { s with build := build } marker tokens) := by
  unfold pseudo functional
  dsimp only
  split
  · split
    · split
      · exact Step.fills_mk _ (call_fills hbuild marker _ _ _)
      · exact Step.fills_mk _ (Traced.fills_error _)
    · exact Step.fills_mk _ (named_fills marker _)
  · exact Step.fills_mk _ (Traced.fills_error _)

theorem items_fills (tokens : List Token) :
    (items s tokens).Fills given read (items { s with build := build } tokens) := by
  induction hn : tokens.length using Nat.strongRecOn generalizing tokens with
  | _ n ih =>
    cases tokens with
    | nil =>
      rw [items, items]
      exact Step.fills_mk [] (Traced.fills_value [])
    | cons t rest =>
      rw [List.length_cons] at hn
      rw [items_cons, items_cons]
      cases unmarked? t with
      | some simple => exact (ih rest.length (by omega) rest rfl).map _
      | none =>
        by_cases hmarker : isMarker t.kind = true
        · have hshorter := length_rest_pseudo_le s t rest
          simp only [if_pos hmarker]
          refine (pseudo_fills hbuild t rest).bind fun simple => ?_
          exact (ih _ (by omega) (pseudo s t rest).rest rfl).map _
        · simp only [if_neg hmarker]
          exact Step.fills_mk _ (Traced.fills_value [])

theorem links_fills (tokens : List Token) :
    (links s tokens).Fills given read (links { s with build := build } tokens) := by
  induction hn : tokens.length using Nat.strongRecOn generalizing tokens with
  | _ n ih =>
    cases tokens with
    | nil =>
      rw [links, links]
      exact Step.fills_mk [] (Traced.fills_value [])
    | cons t rest =>
      rw [List.length_cons] at hn
      rw [links_cons, links_cons]
      by_cases hkind : t.kind = .combinator
      · have hshorter := length_rest_items_le s rest
        rw [if_pos hkind, if_pos hkind]
        refine (items_fills hbuild rest).bind fun simples => compoundOr_fills simples _ fun c => ?_
        exact (ih _ (by omega) (items s rest).rest rfl).map _
      · rw [if_neg hkind, if_neg hkind]
        exact Step.fills_mk _ (Traced.fills_value [])

theorem complex_fills (tokens : List Token) :
    (complex s tokens).Fills given read (complex { s with build := build } tokens) := by
  rw [complex_eq, complex_eq]
  refine (items_fills hbuild tokens).bind fun simples => compoundOr_fills simples _ fun c => ?_
  exact (links_fills hbuild _).map _

theorem members_fills (tokens : List Token) :
    (members s tokens).Fills given read (members { s with build := build } tokens) := by
  induction hn : tokens.length using Nat.strongRecOn generalizing tokens with
  | _ n ih =>
    cases tokens with
    | nil =>
      rw [members, members]
      exact Step.fills_mk [] (Traced.fills_value [])
    | cons t rest =>
      rw [List.length_cons] at hn
      rw [members_cons, members_cons]
      by_cases hkind : t.kind = .comma
      · have hshorter := length_rest_complex_le s rest
        rw [if_pos hkind, if_pos hkind]
        refine (complex_fills hbuild rest).bind fun c => ?_
        exact (ih _ (by omega) (complex s rest).rest rfl).map _
      · rw [if_neg hkind, if_neg hkind]
        exact Step.fills_mk _ (Traced.fills_value [])

/-- Where building functions only leaves notes to fill, so does the grammar. -/
theorem selector_fills (tokens : List Token) :
    (selector s tokens).Fills given read (selector { s with build := build } tokens) := by
  rw [selector_eq, selector_eq]
  refine (complex_fills hbuild tokens).bind fun first => ?_
  refine ((members_fills hbuild _).map (Selector.ofMembers first)).bind fun selector => ?_
  unfold valueAtEnd
  split
  · exact Step.fills_mk _ (Traced.fills_value selector)
  · exact Step.fills_mk _ (Traced.fills_error _)

end Layers

end Grammar

/-! ## Functions -/

section Functions

variable {given read : Text → Traced Selector}

theorem Negation.parse_fills (name : Text) (value : Option Text) (context : Option Context) :
    (Negation.parse (Selector.noting given) name value context).Fills given read
      (Negation.parse read name value context) := by
  cases value with
  | none => exact Traced.fills_error _
  | some v =>
    unfold Negation.parse
    dsimp only
    split
    · exact Traced.fills_error _
    · refine ((Traced.fills_noting v).mapFailure _).bind fun s => ?_
      split
      · exact Traced.fills_value _
      · exact Traced.fills_error _

/-- Building a function leaves a note if it reads a selector. -/
theorem buildWith_fills (name value : Option Text) (context : Option Context) :
    (buildWith (Selector.noting given) name value context).Fills given read
      (buildWith read name value context) := by
  cases name with
  | none => exact Traced.fills_error _
  | some called =>
    cases called with
    | nil => exact Traced.fills_error _
    | cons first rest =>
      unfold buildWith
      dsimp only
      cases FunctionKind.ofName? (first :: rest) with
      | none => exact (Traced.fills_error _).recording rfl
      | some kind =>
        cases kind with
        | lang | nth _ => exact ((Traced.fills_ofExcept _).map _).recording rfl
        | negation => exact ((Negation.parse_fills _ _ _).map _).recording rfl

end Functions

/-! ## Nested readings -/

namespace Selector

variable {context : Option Context} {source : Text}

/-- The texts that reading a selector reads as selectors itself, one for each time it does. Those
that are read within them are not among them. -/
def nested (context : Option Context) (source : Text) : List Text :=
  (readBy (fun given => noting (parse given)) context source).log.filterMap LogRecord.noted?

/-- Reading the selector `outer` in its context starts reading `inner` in the other one. -/
def Nests (outer inner : Option Context × Text) : Prop :=
  inner.1 = some (outer.1.getD .standard) ∧ inner.2 ∈ nested outer.1 outer.2

theorem readBy_fills (read other : Option Context → Text → Traced Selector)
    (context : Option Context) (source : Text) :
    (readBy (fun given => noting (read given)) context source).Fills
      (read (some (context.getD .standard))) (other (some (context.getD .standard)))
      (readBy other context source) := by
  unfold readBy
  split
  · exact Traced.fills_error _
  · refine (Traced.fills_ofExcept _).bind fun tokens => ?_
    exact (Grammar.selector_fills (fun _ _ => buildWith_fills _ _ _) tokens).outcome

/-! ### What a reading depends on -/

/-- A reading depends on the nested ones that it starts, and on no others. -/
theorem readBy_eq_parse {other : Option Context → Text → Traced Selector}
    (h : ∀ inner, Nests (context, source) inner → other inner.1 inner.2 = parse inner.1 inner.2) :
    readBy other context source = parse context source := by
  have hsame : ∀ text ∈ nested context source, other (some (context.getD .standard)) text =
      parse (some (context.getD .standard)) text :=
    fun text htext => h (_, text) ⟨rfl, htext⟩
  -- The records of both are those of the same notes.
  rw [readBy_fills parse other context source fun text htext => congrArg Traced.result
      (hsame text htext), ← readBy_parse context source,
    readBy_fills parse parse context source fun _ _ => rfl]
  exact Traced.filled_congr hsame

/-! ### Nested readings are of shorter texts -/

/-- The colon, the name and the parentheses are not read within. -/
theorem length_le_of_mem_nested {arg : Text} (h : arg ∈ nested context source) :
    arg.length + 6 ≤ source.length := by
  obtain ⟨r, hr, hnoted⟩ := List.mem_filterMap.mp h
  rcases readBy_cases (fun given => noting (parse given)) context source with ⟨-, hempty⟩ |
    ⟨e, -, hlexer⟩ | ⟨tokens, htokens, hexplained⟩
  · rw [hempty] at hr
    cases hr
  · rw [hlexer] at hr
    cases hr
  · obtain ⟨called, value, start, hcalls, hbuild⟩ := hexplained.log r hr
    rcases mem_log_buildWith hbuild with rfl | ⟨hname, rfl⟩ | ⟨inner, hcalled, hvalue, hinner⟩
    · cases hnoted
    · obtain ⟨c, rest, rfl⟩ := List.exists_cons_of_ne_nil hname
      cases hnoted
    · obtain rfl := List.mem_singleton.mp hinner
      cases hnoted
      exact hcalls.length_le htokens hcalled hvalue

theorem Nests.length_le {outer inner : Option Context × Text} (h : Nests outer inner) :
    inner.2.length + 6 ≤ outer.2.length :=
  length_le_of_mem_nested h.2

/-- Nested readings come to an end. -/
theorem wellFounded_nests : WellFounded fun inner outer => Nests outer inner := by
  refine Subrelation.wf (fun {inner outer} h => ?_) (measure fun r => r.2.length).wf
  have hlength := Nests.length_le h
  show inner.2.length < outer.2.length
  omega

/-- There is room for six characters for every reading that is open within another one. -/
theorem length_le_of_isChain {outer : Option Context × Text}
    {opened : List (Option Context × Text)} (h : (outer :: opened).IsChain Nests) :
    6 * opened.length ≤ outer.2.length := by
  induction opened generalizing outer with
  | nil => exact Nat.zero_le _
  | cons inner opened ih =>
    obtain ⟨hnests, hchain⟩ := List.isChain_cons_cons.mp h
    have hinner := ih hchain
    have hshorter := hnests.length_le
    rw [List.length_cons]
    omega

/-! ### All together -/

/-- Reading is well-founded. What a reading comes to is settled by the nested readings that it
starts. Along every stack of readings that are open at once, each is of a text six characters
shorter at least than the one that started it, and their number is bounded by the length of the
outermost one. So no other reading solves the recursion. Each round of a loop over tokens takes one
of them. And as many levels as the length allows for come to the same, whatever is below them, with
no round and no level missing. -/
theorem reading_descends (context : Option Context) (source : Text) :
    (∀ other : Option Context → Text → Traced Selector,
      (∀ inner, Nests (context, source) inner → other inner.1 inner.2 = parse inner.1 inner.2) →
      readBy other context source = parse context source) ∧
    (∀ opened : List (Option Context × Text), ((context, source) :: opened).IsChain Nests →
      ((context, source) :: opened).IsChain
        (fun outer inner => inner.2.length + 6 ≤ outer.2.length) ∧
      ((context, source) :: opened).length ≤ source.length / 6 + 1) ∧
    Acc (fun inner outer => Nests outer inner) (context, source) ∧
    (∀ read : Option Context → Text → Traced Selector, readBy read = read →
      read context source = parse context source) ∧
    (∀ s : Grammar.Setting, Grammar.Loops (Grammar.itemsRound s) (Grammar.items s) ∧
      Grammar.Loops (Grammar.linksRound s) (Grammar.links s) ∧
      Grammar.Loops (Grammar.membersRound s) (Grammar.members s)) ∧
    ∀ depth, source.length / 6 < depth →
      parseWithin depth context source = parse context source ∧
      (∀ base : Option Context → Text → Traced Selector,
        readBy^[depth] base context source = parse context source) ∧
      Access.parseWithin depth context source =
        Access.Reading.ofResult ((parse context source).result.map Selector.tree) := by
  refine ⟨fun other h => readBy_eq_parse h, fun opened h => ⟨?_, ?_⟩, wellFounded_nests.apply _,
    fun read h => eq_parse_of_readBy h context source,
    fun s => ⟨Grammar.items_loops s, Grammar.links_loops s, Grammar.members_loops s⟩,
    fun depth h => ⟨parseWithin_eq_parse context h,
      fun base => iterate_readBy_eq_parse base context h, ?_⟩⟩
  · exact h.imp fun _ _ hnests => hnests.length_le
  · have hlength : 6 * opened.length ≤ source.length := length_le_of_isChain h
    rw [List.length_cons]
    omega
  · rw [Access.parseWithin_eq context h, parseWithin_eq_parse context h]

/-- A negation in a negation, and the three readings that are open in the inner one, as many as
fourteen characters allow for. -/
theorem reading_descends_of_negations :
    [((none : Option Context), "a:not(:not(b))".toList), (some .standard, ":not(b)".toList),
      (some .standard, "b".toList)].IsChain Nests ∧
    [((none : Option Context), "a:not(:not(b))".toList), (some .standard, ":not(b)".toList),
      (some .standard, "b".toList)].length ≤ "a:not(:not(b))".toList.length / 6 + 1 ∧
    ∀ base : Option Context → Text → Traced Selector,
      readBy^[3] base none "a:not(:not(b))".toList = parse none "a:not(:not(b))".toList := by
  obtain ⟨-, hopened, -, -, -, hdepth⟩ := reading_descends none "a:not(:not(b))".toList
  have hchain : [((none : Option Context), "a:not(:not(b))".toList),
      (some .standard, ":not(b)".toList), (some .standard, "b".toList)].IsChain Nests := by
    have houter : nested none "a:not(:not(b))".toList = [":not(b)".toList] := by decide +kernel
    have hinner : nested (some .standard) ":not(b)".toList = ["b".toList] := by decide +kernel
    refine .cons_cons ⟨rfl, ?_⟩ (.cons_cons ⟨rfl, ?_⟩ (.singleton _))
    · exact houter ▸ List.mem_singleton.mpr rfl
    · exact hinner ▸ List.mem_singleton.mpr rfl
  exact ⟨hchain, (hopened _ hchain).2, (hdepth 3 (by decide)).2.1⟩

end Selector

end SelectorCheck
