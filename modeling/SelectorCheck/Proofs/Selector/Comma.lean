import SelectorCheck.Proofs.Selector.Padding
import SelectorCheck.Proofs.Token.Behind

/-!
# A selector behind a comma

What stands behind a selector and a comma is read as if it stood alone. If it is a
selector, both together are the list of the members of both. If not, both together
are at fault for the same reason, further on; a list is cut into tokens as a whole
before anything is read, but the tokens of the first selector cannot be at fault.

## Main definitions

* `Selector.append` — the members of two selectors in a row.

## Main results

* `Grammar.selector_behind_comma` — the grammar behind members and a comma.
* `Selector.parse_comma` — reading a selector behind another one and a comma
  mirrors reading it alone.
-/

namespace SelectorCheck

open Text

/-! ## Members in a row -/

namespace Selector

/-- The members of a selector, and those of another one behind them. -/
def append (a b : Selector) : Selector := ofMembers a.first (a.members.tail ++ b.members)

theorem append_ofMembers (first : Complex) (all : List Complex) (b : Selector) :
    (ofMembers first all).append b = ofMembers first (all ++ b.members) := by
  cases all <;> rfl

/-- Two members at least are a list. -/
theorem append_eq_list (a b : Selector) : ∃ first second others,
    a.append b = list first second others := by
  cases a <;> cases b <;> exact ⟨_, _, _, rfl⟩

end Selector

/-! ## The grammar -/

namespace Grammar

variable {s : Setting}

theorem under_valueAtEnd {α β : Type} (f : α → β) (a : α) (rest : List Token) :
    (valueAtEnd s a rest).Under f (valueAtEnd s (f a) rest) := by
  unfold valueAtEnd
  by_cases heof : (peek rest).kind = .eof
  · rw [if_pos heof, if_pos heof]
    exact ⟨rfl, rfl⟩
  · rw [if_neg heof, if_neg heof]
    exact ⟨rfl, rfl⟩

/-- Members in front of a comma come in front of what the tokens behind the comma are as a selector
of their own. -/
theorem selector_behind_comma {tokens middle inner : List Token} {comma : Token} {first : Complex}
    {all : List Complex} (hfirst : (complex s tokens).Gives first middle)
    (hcomma : comma.kind = .comma)
    (hall : (members s (comma :: inner)).Under (all ++ ·) (members s middle)) :
    (selector s inner).Under (Selector.append (.ofMembers first all)) (selector s tokens) := by
  have halone : selector s inner = (complex s inner).bind fun c rest =>
      (members s rest).bind fun others rest => valueAtEnd s (.ofMembers c others) rest := by
    simp only [selector_eq, Step.bind_map]
  have hbehind : ((members s (comma :: inner)).map fun others =>
      Selector.ofMembers first (all ++ others)).bind (valueAtEnd s) =
        (complex s inner).bind fun c rest => (members s rest).bind fun others rest =>
          valueAtEnd s (.ofMembers first (all ++ c :: others)) rest := by
    simp only [members_cons, if_pos hcomma, Step.map_bind, Step.bind_assoc, Step.bind_map]
  have hlast : (((members s (comma :: inner)).map fun others =>
      Selector.ofMembers first (all ++ others)).bind (valueAtEnd s)).Under id
        (((members s middle).map (Selector.ofMembers first)).bind (valueAtEnd s)) := by
    refine Step.Under.bind (hall.map fun _ => rfl) fun a => under_valueAtEnd id a _
  have hlist : ((complex s inner).bind fun c rest => (members s rest).bind fun others rest =>
      valueAtEnd s (.ofMembers c others) rest).Under (Selector.append (.ofMembers first all))
        ((complex s inner).bind fun c rest => (members s rest).bind fun others rest =>
          valueAtEnd s (.ofMembers first (all ++ c :: others)) rest) := by
    refine Step.Under.bind (Step.under_refl fun _ => rfl) fun c => ?_
    refine Step.Under.bind (Step.under_refl fun _ => rfl) fun others => ?_
    have hmembers : Selector.ofMembers first (all ++ c :: others) =
        Selector.append (.ofMembers first all) (.ofMembers c others) := by
      rw [Selector.append_ofMembers, Selector.members_ofMembers]
    rw [hmembers]
    exact under_valueAtEnd _ _ _
  have hwhole := Step.under_bind hfirst fun first rest =>
    ((members s rest).map (Selector.ofMembers first)).bind (valueAtEnd s)
  rw [halone, selector_eq tokens]
  rw [← hbehind] at hlist
  exact (hlist.trans hlast).trans hwhole

end Grammar

/-! ## Whole selectors -/

theorem Mirrored.under {α β γ : Type} {E : Failure → Failure → Prop} {φ : α → β}
    {r : Except Failure α} {r' : Except Failure β} (h : Mirrored E φ r r') (f : β → γ) :
    Mirrored E (f ∘ φ) r (r'.map f) := by
  cases h with
  | ok a => exact .ok a
  | error h => exact .error h

theorem Mirrored.trans {α β γ : Type} {E E' E'' : Failure → Failure → Prop} {φ : α → β} {ψ : β → γ}
    {r : Except Failure α} {r' : Except Failure β} {r'' : Except Failure γ}
    (h : Mirrored E φ r r') (h' : Mirrored E' ψ r' r'')
    (hE : ∀ {f g e}, E f g → E' g e → E'' f e) : Mirrored E'' (ψ ∘ φ) r r'' := by
  cases h with
  | ok a =>
    cases h'
    exact .ok a
  | error h =>
    cases h' with
    | error h' => exact .error (hE h h')

section Outcomes

variable {α β : Type} {E : Failure → Failure → Prop} {φ : α → β} {r : Except Failure α}
  {r' : Except Failure β}

/-- A result and its mirror image are both values, or both failures. -/
theorem Mirrored.exists_ok_iff (h : Mirrored E φ r r') : (∃ b, r' = .ok b) ↔ ∃ a, r = .ok a := by
  cases h with
  | ok a => exact iff_of_true ⟨φ a, rfl⟩ ⟨a, rfl⟩
  | error _ => exact iff_of_false (fun ⟨_, hb⟩ => nomatch hb) (fun ⟨_, ha⟩ => nomatch ha)

theorem Mirrored.eq_ok {a : α} (h : Mirrored E φ r r') (ha : r = .ok a) : r' = .ok (φ a) := by
  subst ha
  cases h
  rfl

theorem Mirrored.exists_error {f : Failure} (h : Mirrored E φ r r') (hf : r = .error f) :
    ∃ g, r' = .error g ∧ E f g := by
  subst hf
  cases h with
  | error h => exact ⟨_, rfl, h⟩

end Outcomes

namespace Selector

open Spelling

/-- The tokens of a selector in front of a comma and of what follows the comma. -/
private theorem exists_tokens {s : Grammar.Setting} {F : Text → Text → PseudoFunction → Prop}
    {first second : Text} {tree : Selector} {inner : List Token} (hs : BuildsAll s F)
    (hfirst : Whole s.context.level F tree first) (hinner : Token.ofSelector second = .ok inner) :
    ∃ tokens, Token.ofSelector (first ++ ',' :: second) = .ok tokens ∧
      (Grammar.selector s (inner.map (Token.moved (first.length + 1)))).Under (append tree)
        (Grammar.selector s tokens) := by
  obtain @⟨c, all, before, behind, text, others, hbefore, hbehind, hchain, hmembers⟩ := hfirst
  have hsource : before ++ (text ++ (others ++ behind)) ++ ',' :: second =
      before ++ (text ++ (others ++ (behind ++ ',' :: second))) := by
    simp
  have hplace : (before ++ (text ++ (others ++ behind))).length =
      before.length + text.length + others.length + behind.length := by
    simp only [List.length_append]
    omega
  rw [hsource, hplace]
  generalize hwhole : before ++ (text ++ (others ++ (behind ++ ',' :: second))) = source
  have hlength : source.length = second.length +
      (before.length + text.length + others.length + behind.length + 1) := by
    rw [← hwhole]
    simp only [List.length_append, List.length_cons]
    omega
  have hreplaces : Replaces (behind ++ ',' :: second) behind :=
    .inr (.blanks_append hbehind (.cons (by decide) rfl second))
  have hmembers' := hmembers.imp (.refl _) (fun _ _ _ _ hf => hf) hreplaces (Nat.le_refl _)
  have hchain' := hchain.imp (.refl _) (fun _ _ _ _ hf => hf) (hreplaces.append others)
    (Nat.le_refl _)
  have hcomma := Lexer.Lexed.comma_behind hbehind hlength hinner
  obtain ⟨middle, hmiddle, hend, hunder⟩ :=
    members_complete hs hmembers' hcomma ⟨_, _, rfl, .inl rfl⟩
  obtain ⟨tokens, htokens, hgives⟩ := chain_complete hs hchain' hmiddle hend
  obtain ⟨d, t, rfl, hblank, -⟩ := hchain.head
  have hrun : Run isBlank before (d :: t ++ (others ++ (behind ++ ',' :: second))) :=
    ⟨allBlank_iff.mp hbefore, by simp [hblank]⟩
  exact ⟨tokens, Token.ofSelector_eq_ok_iff.mpr ⟨before, _, hwhole.symm, hrun, htokens⟩,
    Grammar.selector_behind_comma hgives rfl hunder⟩

/-- What stands behind a selector and a comma is read as it is read alone, further on. -/
theorem parse_comma {context : Option Context} {first second : Text} {tree : Selector}
    (hfirst : (parse context first).result = .ok tree) (hsecond : allBlank second = false) :
    Mirrored (Failure.Shifted (first.length + 1))
      (append tree ∘ moved (first.length + 1)) (parse context second).result
      (parse context (first ++ ',' :: second)).result := by
  generalize hsource : first ++ ',' :: second = source
  have hlength : source.length = first.length + 1 + second.length := by
    rw [← hsource, List.length_append, List.length_cons]
    omega
  have hall : allBlank source = false := by
    rw [← hsource, allBlank_append, allBlank_cons, hsecond, Bool.and_false, Bool.and_false]
  have hdepth : second.length / 6 < source.length / 6 + 2 := by omega
  rw [← parseWithin_eq_parse context hdepth,
    ← parseWithin_eq_parse context (Nat.lt_add_of_pos_right (by decide : 0 < 2))]
  generalize source.length / 6 = depth
  cases hinner : Token.ofSelector second with
  | error e =>
    obtain ⟨-, tokens, htokens, -⟩ := parseWithin_succ_eq_ok_iff.mp hfirst
    have hmoved := Token.ofSelector_comma_error htokens hinner
    rw [hsource] at hmoved
    rw [parseWithin_of_malformed _ context hsecond hinner,
      parseWithin_of_malformed _ context hall hmoved]
    exact .error (SelectorError.shifted_movedTo (Token.place_of_error hinner))
  | ok inner =>
    have hwhole := parse_eq_ok_iff.mp hfirst
    obtain ⟨tokens, htokens, hunder⟩ :=
      exists_tokens (buildsAll_built depth context source) hwhole hinner
    rw [hsource] at htokens
    have hsetting := setting_mirrors_behind (parseWithin (depth + 1)) context second source
      (first.length + 1) inner
    have hmirrors := Grammar.selector_mirrors hsetting
      ⟨List.suffix_refl inner, Token.exists_end hinner⟩ (.moved false inner)
    rw [parseWithin_of_tokens _ context hsecond hinner,
      parseWithin_of_tokens _ context hall htokens, hunder.result]
    exact hmirrors.outcome.result.under _

end Selector

end SelectorCheck
