import SelectorCheck.Proofs.Selector.Comma
import SelectorCheck.Proofs.Text.LetterCase

/-!
# Names in another case

Tag names and pseudo names may be written with capital and with small letters. The
lexer makes tag names small, and the parser does so with pseudo names, whose tokens
keep what is written. So a selector in which such names change their case is cut into
tokens of the same kinds at the same places. They differ in the names behind colons
only, and these call the same pseudo names. That is what two readings of the same
tokens may differ in, so the rest is `Grammar.selector_mirrors`.

Where a character belongs to a name, its case is free. Everything else is kept, the
names of ids and classes and the arguments of functions included.

## Main definitions

* `Token.Covers` — the characters of the name that a token is cut out of.
* `Token.Recased` — the same selector but for the case of such characters.
* `Text.Recased` — two texts that differ in the case of characters at some places.

## Main results

* `Lexer.Lexed.recased` — the tokens of a text in another case.
* `Selector.parse_recased` — tokens, trees and errors of a selector in another case.
-/

namespace SelectorCheck

open Text

/-- The character at place `i` belongs to the name that the token `t` of `source` is cut out of. -/
def Token.Covers (source : Text) (t : Token) (i : Nat) : Prop :=
  t.kind = .tag ∧ t.pos ≤ i ∧ (i : Int) < t.pos + (takeName (source.drop t.pos.toNat)).length

instance (source : Text) (t : Token) (i : Nat) : Decidable (t.Covers source i) :=
  inferInstanceAs (Decidable (_ ∧ _ ∧ _))

/-- The text `other` is `source`, which is cut into `tokens`, but for the case of Latin letters in
tag names and in pseudo names. -/
structure Token.Recased (source : Text) (tokens : List Token) (other : Text) : Prop where
  length : other.length = source.length
  changed : ∀ i < source.length, other[i]? ≠ source[i]? →
    other[i]?.map Char.toLower = source[i]?.map Char.toLower ∧ ∃ t ∈ tokens, t.Covers source i

instance (source : Text) (tokens : List Token) (other : Text) :
    Decidable (Token.Recased source tokens other) :=
  decidable_of_iff
    (other.length = source.length ∧ ∀ i < source.length, other[i]? ≠ source[i]? →
      other[i]?.map Char.toLower = source[i]?.map Char.toLower ∧
        ∃ t ∈ tokens, t.Covers source i)
    ⟨fun ⟨hlength, hchanged⟩ => ⟨hlength, hchanged⟩, fun h => ⟨h.length, h.changed⟩⟩

/-! ## Texts in another case -/

/-- The text `u` is `t` but for the case of Latin letters at the places that are `free`. -/
structure Text.Recased (free : Nat → Prop) (t u : Text) : Prop where
  lower : u.asciiLowercase = t.asciiLowercase
  kept : ∀ i, ¬ free i → u[i]? = t[i]?

namespace Text.Recased

variable {free free' : Nat → Prop} {t u t₁ t₂ : Text}

theorem length_eq (h : Recased free t u) : u.length = t.length := by
  rw [← length_asciiLowercase u, h.lower, length_asciiLowercase]

/-- What holds no free place is kept. -/
theorem eq_of_kept (h : Recased free t u) (hfree : ∀ i < t.length, ¬ free i) : u = t := by
  refine List.ext_getElem? fun i => ?_
  by_cases hi : i < t.length
  · exact h.kept i (hfree i hi)
  · have hlength := h.length_eq
    rw [List.getElem?_eq_none (by omega), List.getElem?_eq_none (by omega)]

theorem mono (h : Recased free t u) (hfree : ∀ i < t.length, free i → free' i) :
    Recased free' t u where
  lower := h.lower
  kept := by
    intro i hi
    by_cases hlt : i < t.length
    · exact h.kept i fun hold => hi (hfree i hlt hold)
    · have hlength := h.length_eq
      rw [List.getElem?_eq_none (by omega), List.getElem?_eq_none (by omega)]

/-- Two texts in a row in another case are two texts in another case in a row. -/
theorem append_cases (h : Recased free (t₁ ++ t₂) u) :
    ∃ u₁ u₂, u = u₁ ++ u₂ ∧ Recased free t₁ u₁ ∧
      Recased (fun i => free (t₁.length + i)) t₂ u₂ := by
  have hlower := h.lower
  rw [asciiLowercase, asciiLowercase, List.map_append] at hlower
  obtain ⟨u₁, u₂, rfl, hlower₁, hlower₂⟩ := List.map_eq_append_iff.mp hlower
  have hlength : u₁.length = t₁.length := by
    rw [← length_asciiLowercase u₁, asciiLowercase, hlower₁, List.length_map]
  refine ⟨u₁, u₂, rfl, ⟨hlower₁, fun i hi => ?_⟩, hlower₂, fun i hi => ?_⟩
  · by_cases hlt : i < t₁.length
    · have hkept := h.kept i hi
      rwa [List.getElem?_append_left (by omega), List.getElem?_append_left hlt] at hkept
    · rw [List.getElem?_eq_none (by omega), List.getElem?_eq_none (by omega)]
  · have hkept := h.kept _ hi
    rw [List.getElem?_append_right (by omega), List.getElem?_append_right (by omega)] at hkept
    rwa [hlength, Nat.add_sub_cancel_left] at hkept

/-- Where no places are free but those of `name`, nothing else changes. -/
theorem name_cases {front name behind after : Text}
    (h : Recased free (front ++ (name ++ behind) ++ after) u)
    (hname : ∀ i < (front ++ (name ++ behind)).length, free i →
      front.length ≤ i ∧ i < front.length + name.length) :
    ∃ name' u', u = front ++ (name' ++ behind) ++ u' ∧ name'.length = name.length ∧
      name'.asciiLowercase = name.asciiLowercase ∧
      Recased (fun i => free ((front ++ (name ++ behind)).length + i)) after u' := by
  obtain ⟨u₁, u₂, rfl, hu₁, hu₂⟩ := h.append_cases
  obtain ⟨front', u₃, rfl, hfront, hu₃⟩ := hu₁.append_cases
  obtain ⟨name', behind', rfl, hmiddle, hbehind⟩ := hu₃.append_cases
  simp only [List.length_append] at hname
  obtain rfl : front' = front := by
    refine hfront.eq_of_kept fun i hi hfree => ?_
    have hinside := hname i (by omega) hfree
    omega
  obtain rfl : behind' = behind := by
    refine hbehind.eq_of_kept fun i hi hfree => ?_
    have hinside := hname _ (by omega) hfree
    omega
  exact ⟨name', u₂, rfl, hmiddle.length_eq, hmiddle.lower, hu₂⟩

end Text.Recased

theorem Token.Recased.text {source other : Text} {tokens : List Token}
    (h : Token.Recased source tokens other) :
    Text.Recased (fun i => ∃ t ∈ tokens, t.Covers source i) source other where
  lower := by
    refine List.ext_getElem? fun i => ?_
    rw [asciiLowercase, asciiLowercase, List.getElem?_map, List.getElem?_map]
    by_cases hi : i < source.length
    · by_cases hsame : other[i]? = source[i]?
      · rw [hsame]
      · exact (h.changed i hi hsame).1
    · have hlength := h.length
      rw [List.getElem?_eq_none (by omega), List.getElem?_eq_none (by omega)]
  kept := by
    intro i hfree
    by_cases hi : i < source.length
    · by_cases hsame : other[i]? = source[i]?
      · exact hsame
      · exact absurd (h.changed i hi hsame).2 hfree
    · have hlength := h.length
      rw [List.getElem?_eq_none (by omega), List.getElem?_eq_none (by omega)]

namespace Lexer

/-! ## Names in lexemes -/

variable {source other text after t : Text} {p : Nat} {tokens : List Token} {token : Token}

theorem kind_ne_tag_of_parenthesized (h : Parenthesized p text after tokens) :
    ∀ token ∈ tokens, token.kind ≠ .tag := by
  intro token htoken
  rcases h.kind_of_mem htoken with hkind | hkind | hkind <;> rw [hkind] <;> nofun

/-- What stays of a lexeme if its name, which `front` and `behind` enclose, changes its case. A
lexeme that no token of is a name has the empty name. -/
structure NameWithin (p : Nat) (front name behind after : Text) (tokens : List Token) : Prop where
  placed : ∀ token ∈ tokens, token.kind = .tag →
    token.pos = (p + front.length : Nat) ∧ NameRun name (behind ++ after)
  recased : ∀ {name' after' : Text}, name'.asciiLowercase = name.asciiLowercase →
    after'.asciiLowercase = after.asciiLowercase →
    ∃ others, Lexeme p (front ++ (name' ++ behind)) after' others ∧
      ∀ named, Grammar.Retold 0 (fun _ _ => False) named tokens others

private theorem nameWithin_of_unnamed (hnone : ∀ token ∈ tokens, token.kind ≠ .tag)
    (hbefore : ∀ {after' : Text}, after'.asciiLowercase = after.asciiLowercase →
      Lexeme p text after' tokens) :
    NameWithin p text [] [] after tokens where
  placed token htoken hkind := absurd hkind (hnone token htoken)
  recased := by
    intro name' after' hname hafter
    obtain rfl : name' = [] := List.map_eq_nil_iff.mp hname
    rw [List.append_nil, List.append_nil]
    exact ⟨tokens, hbefore hafter, fun named => .refl named tokens⟩

/-- Colons and a name in another case, with the tokens that stand behind the name. -/
private theorem retold_colons {colons name name' : Text} {kind : TokenKind}
    (hcolons : Colons colons kind) (hname : name'.asciiLowercase = name.asciiLowercase)
    (named : Bool) (rest : List Token) :
    Grammar.Retold 0 (fun _ _ => False) named
      (⟨kind, none, p⟩ :: ⟨.tag, some name, (p + colons.length : Nat)⟩ :: rest)
      (⟨kind, none, p⟩ :: ⟨.tag, some name', (p + colons.length : Nat)⟩ :: rest) := by
  have hmarker : Grammar.isMarker kind = true := by cases hcolons <;> rfl
  have hcalled : name'.lowercase = name.lowercase := by
    rw [← lowercase_asciiLowercase, hname, lowercase_asciiLowercase]
  have hrest : Grammar.Retold 0 (fun _ _ => False) true
      (⟨.tag, some name, (p + colons.length : Nat)⟩ :: rest)
      (⟨.tag, some name', (p + colons.length : Nat)⟩ :: rest) :=
    .cons (.name rfl rfl (Int.add_zero _).symm hcalled) (.refl _ rest)
  rw [← hmarker] at hrest
  exact .cons (.refl named _) hrest

/-- Every lexeme has a name that may change its case, if only the empty one. -/
theorem Lexeme.exists_name (h : Lexeme p text after tokens) :
    ∃ front name behind, text = front ++ (name ++ behind) ∧
      NameWithin p front name behind after tokens := by
  have hrun : ∀ {blanks after' : Text}, after'.asciiLowercase = after.asciiLowercase →
      Run isBlank blanks after → Run isBlank blanks after' := fun hafter hblanks =>
    ⟨hblanks.all, head?_of_recased isBlank_toLower hafter hblanks.stops⟩
  cases h with
  | combinator hc hblanks =>
    exact ⟨_, [], [], by simp, nameWithin_of_unnamed (by simp)
      fun hafter => .combinator hc (hrun hafter hblanks)⟩
  | comma hblanks =>
    exact ⟨_, [], [], by simp, nameWithin_of_unnamed (by simp)
      fun hafter => .comma (hrun hafter hblanks)⟩
  | universal =>
    exact ⟨_, [], [], by simp, nameWithin_of_unnamed (by simp) fun _ => .universal⟩
  | id hname =>
    exact ⟨_, [], [], by simp, nameWithin_of_unnamed (by simp)
      fun hafter => .id (hname.recased rfl hafter)⟩
  | className hname =>
    exact ⟨_, [], [], by simp, nameWithin_of_unnamed (by simp)
      fun hafter => .className (hname.recased rfl hafter)⟩
  | tag hname hstart =>
    refine ⟨[], text, [], by simp, ?_, ?_⟩
    · intro token htoken _
      obtain rfl := List.mem_singleton.mp htoken
      exact ⟨rfl, hname⟩
    · intro name' after' hlower hafter
      have hsmall : name'.lowercase = text.lowercase := by
        rw [← lowercase_asciiLowercase, hlower, lowercase_asciiLowercase]
      have hfirst := head?_of_recased isNameStart_toLower hlower hstart
      refine ⟨_, ?_, fun named => .refl named _⟩
      rw [List.nil_append, List.append_nil, ← hsmall]
      exact .tag (hname.recased hlower hafter) hfirst
  | @name colons name after kind hcolons hname hbare =>
    refine ⟨colons, name, [], by simp, ?_, ?_⟩
    · intro token htoken hkind
      rcases List.mem_cons.mp htoken with rfl | htoken
      · cases hcolons <;> cases hkind
      · obtain rfl := List.mem_singleton.mp htoken
        exact ⟨rfl, hname⟩
    · intro name' after' hlower hafter
      have hparen : ∀ c ∈ after.head?, (c == '(') = false := by
        intro c hc
        rw [beq_eq_false_iff_ne]
        rintro rfl
        exact hbare hc
      have hbefore := head?_of_recased (apply_toLower (· == '(') (by decide)) hafter hparen
      refine ⟨_, ?_, fun named => retold_colons hcolons hlower named []⟩
      rw [List.append_nil]
      refine .name hcolons (hname.recased hlower hafter) fun hopen => ?_
      exact absurd (hbefore _ hopen) (by decide)
  | @call colons name text after kind tokens hcolons hname htext =>
    refine ⟨colons, name, text, rfl, ?_, ?_⟩
    · intro token htoken hkind
      rcases List.mem_cons.mp htoken with rfl | htoken
      · cases hcolons <;> cases hkind
      · rcases List.mem_cons.mp htoken with rfl | htoken
        · exact ⟨rfl, hname⟩
        · exact absurd hkind (kind_ne_tag_of_parenthesized htext token htoken)
    · intro name' after' hlower hafter
      have hlength : name'.length = name.length := by
        rw [← length_asciiLowercase name', hlower, length_asciiLowercase]
      refine ⟨_, ?_, fun named => retold_colons hcolons hlower named tokens⟩
      refine .call hcolons (hname.recased hlower ?_) ?_
      · rw [asciiLowercase, asciiLowercase, List.map_append, List.map_append]
        exact congrArg (List.map Char.toLower text ++ ·) hafter
      · rw [hlength]
        exact htext.before after'

/-! ## Rows of lexemes -/

/-- A name that a text is cut into lies in the text. -/
theorem Lexed.exists_name (h : Lexed source p t tokens) (htoken : token ∈ tokens)
    (hkind : token.kind = .tag) :
    ∃ front name behind, t = front ++ (name ++ behind) ∧
      token.pos = (p + front.length : Nat) ∧ NameRun name behind := by
  rcases h.mem_cases htoken with rfl | ⟨_, _, -, rfl⟩ |
    ⟨before, text, after, first, rfl, hlexeme, hfirst⟩
  · cases hkind
  · cases hkind
  · obtain ⟨front, name, behind, rfl, hwithin⟩ := hlexeme.exists_name
    obtain ⟨hpos, hname⟩ := hwithin.placed token hfirst hkind
    refine ⟨before ++ front, name, behind ++ after, by simp, ?_, hname⟩
    rw [hpos, List.length_append, Nat.add_assoc]

/-- A name token covers the name. -/
theorem covers_iff {front name behind : Text} (hdrop : source.drop p = front ++ (name ++ behind))
    (hkind : token.kind = .tag) (hpos : token.pos = (p + front.length : Nat))
    (hname : NameRun name behind) {i : Nat} :
    token.Covers source (p + i) ↔ front.length ≤ i ∧ i < front.length + name.length := by
  have hbehind : source.drop (p + front.length) = name ++ behind := by
    rw [← List.drop_drop, hdrop, List.drop_left]
  rw [Token.Covers, hpos, Int.toNat_natCast, hbehind, hname.takeName_eq]
  constructor
  · rintro ⟨-, hfrom, hto⟩
    omega
  · intro h
    exact ⟨hkind, by omega, by omega⟩

/-- What the names cover that a lexeme and the text behind it are cut into is in the name of the
lexeme, or behind the lexeme. -/
private theorem covers_cases {front name behind : Text} {first rest : List Token} {i : Nat}
    (hdrop : source.drop p = front ++ (name ++ behind) ++ after)
    (hwithin : NameWithin p front name behind after first)
    (hrest : Lexed source (p + (front ++ (name ++ behind)).length) after rest)
    (h : ∃ token ∈ first ++ rest, token.Covers source (p + i)) :
    (front.length ≤ i ∧ i < front.length + name.length) ∨
      ((front ++ (name ++ behind)).length ≤ i ∧
        ∃ token ∈ rest, token.Covers source (p + i)) := by
  obtain ⟨token, htoken, hcovers⟩ := h
  rcases List.mem_append.mp htoken with hmem | hmem
  · obtain ⟨hpos, hname⟩ := hwithin.placed token hmem hcovers.1
    have hsplit : source.drop p = front ++ (name ++ (behind ++ after)) := by
      rw [hdrop]
      simp
    exact .inl ((covers_iff hsplit hcovers.1 hpos hname).mp hcovers)
  · obtain ⟨_, _, _, -, hpos, -⟩ := hrest.exists_name hmem hcovers.1
    have hfrom := hcovers.2.1
    rw [hpos] at hfrom
    exact .inr ⟨by omega, token, hmem, hcovers⟩

theorem absorbsBlanks_toLower (c : Char) : absorbsBlanks c.toLower = absorbsBlanks c :=
  apply_toLower absorbsBlanks (by decide) c

/-- Blanks stay blanks, and the lexeme behind them begins with the same character but for its
case. -/
private theorem recased_blanks {free : Nat → Prop} {blanks u : Text} {c : Char}
    (hu : Text.Recased free (blanks ++ c :: t) u) (hblanks : allBlank blanks = true) :
    ∃ blanks' d u', u = blanks' ++ d :: u' ∧ allBlank blanks' = true ∧
      blanks'.length = blanks.length ∧ d.toLower = c.toLower ∧
      Text.Recased (fun i => free (blanks.length + i)) (c :: t) (d :: u') := by
  obtain ⟨blanks', u', rfl, hfront, hu'⟩ := hu.append_cases
  have hall : allBlank blanks' = true := (allBlank_of_recased hfront.lower).trans hblanks
  cases u' with
  | nil => cases hu'.lower
  | cons d u' => exact ⟨blanks', d, u', rfl, hall, hfront.length_eq, (List.cons.inj hu'.lower).1, hu'⟩

/-- A text in which names change their case is cut into the same tokens, which call the same pseudo
names. -/
theorem Lexed.recased (h : Lexed source p t tokens) (hlength : other.length = source.length)
    (hdrop : source.drop p = t) {u : Text}
    (hu : Text.Recased (fun i => ∃ token ∈ tokens, token.Covers source (p + i)) t u) :
    ∃ others, Lexed other p u others ∧
      ∀ named, Grammar.Retold 0 (fun _ _ => False) named tokens others := by
  induction h generalizing u with
  | done hblanks =>
    have hall : allBlank u = true := (allBlank_of_recased hu.lower).trans hblanks
    exact ⟨_, .done hall, fun named => hlength ▸ .refl named _⟩
  | @lexeme p text after first rest h hrest ih =>
    obtain ⟨front, name, behind, rfl, hwithin⟩ := h.exists_name
    have hafter : source.drop (p + (front ++ (name ++ behind)).length) = after := by
      rw [← List.drop_drop, hdrop, List.drop_left]
    have hcases := fun i => covers_cases (i := i) hdrop hwithin hrest
    obtain ⟨name', u', rfl, hsame, hlower, hu'⟩ := hu.name_cases fun i hi hfree =>
      (hcases i hfree).resolve_right fun hbehind => absurd hbehind.1 (Nat.not_le_of_lt hi)
    have hbelow : Text.Recased (fun i => ∃ token ∈ rest,
        token.Covers source (p + (front ++ (name ++ behind)).length + i)) after u' := by
      refine hu'.mono fun i _ hfree => ?_
      rcases hcases _ hfree with hinside | ⟨-, hcovered⟩
      · simp only [List.length_append] at hinside
        omega
      · rwa [Nat.add_assoc]
    obtain ⟨others, hothers, hretold⟩ := ih hafter hbelow
    obtain ⟨first', hlexeme, hretold'⟩ := hwithin.recased hlower hu'.lower
    refine ⟨first' ++ others, .lexeme hlexeme ?_, fun named => (hretold' named).append hretold⟩
    have hlengths : (front ++ (name' ++ behind)).length = (front ++ (name ++ behind)).length := by
      simp only [List.length_append, hsame]
    rwa [hlengths]
  | @gap p blanks t c inner hblanks hne hc hgap _ ih =>
    obtain ⟨blanks', d, u', rfl, hblanks', hsame, hd, hu'⟩ := recased_blanks hu hblanks
    have hbelow : Text.Recased (fun i => ∃ token ∈ inner,
        token.Covers source (p + blanks.length + i)) (c :: t) (d :: u') := by
      refine hu'.mono ?_
      rintro i - ⟨token, htoken, hcovers⟩
      rcases List.mem_cons.mp htoken with rfl | hmem
      · cases hcovers.1
      · exact ⟨token, hmem, by rwa [Nat.add_assoc]⟩
    obtain ⟨others, hothers, hretold⟩ := ih (by rw [← List.drop_drop, hdrop, List.drop_left]) hbelow
    rw [← hsame] at hothers
    refine ⟨_, .gap hblanks' ?_ ?_ ?_ hothers, fun named => ?_⟩
    · rintro rfl
      exact hne (List.length_eq_zero_iff.mp hsame.symm)
    · rw [← isBlank_toLower, hd, isBlank_toLower, hc]
    · rw [← absorbsBlanks_toLower, hd, absorbsBlanks_toLower, hgap]
    · rw [hsame]
      exact (Grammar.Retold.refl named [_]).append hretold
  | @absorbed p blanks t c inner hblanks hne hc _ ih =>
    obtain ⟨blanks', d, u', rfl, hblanks', hsame, hd, hu'⟩ := recased_blanks hu hblanks
    simp only [← Nat.add_assoc] at hu'
    obtain ⟨others, hothers, hretold⟩ := ih (by rw [← List.drop_drop, hdrop, List.drop_left]) hu'
    rw [← hsame] at hothers
    refine ⟨others, .absorbed hblanks' ?_ ?_ hothers, hretold⟩
    · rintro rfl
      exact hne (List.length_eq_zero_iff.mp hsame.symm)
    · rw [← absorbsBlanks_toLower, hd, absorbsBlanks_toLower, hc]

end Lexer

/-! ## Whole selectors -/

theorem Token.ofSelector_recased {source other : Text} {tokens : List Token}
    (htokens : ofSelector source = .ok tokens) (h : Recased source tokens other) :
    ∃ others, ofSelector other = .ok others ∧
      ∀ named, Grammar.Retold 0 (fun _ _ => False) named tokens others := by
  obtain ⟨blanks, t, rfl, hblanks, hlexed⟩ := ofSelector_eq_ok_iff.mp htokens
  obtain ⟨blanks', u, rfl, hfront, hu⟩ := h.text.append_cases
  have hrun : Run isBlank blanks' u :=
    ⟨all_of_recased isBlank_toLower hfront.lower hblanks.all,
      head?_of_recased isBlank_toLower hu.lower hblanks.stops⟩
  obtain ⟨others, hothers, hretold⟩ := hlexed.recased h.length (List.drop_left ..) hu
  rw [← hfront.length_eq] at hothers
  exact ⟨others, ofSelector_eq_ok_iff.mpr ⟨blanks', u, rfl, hrun, hothers⟩, hretold⟩

/-- Tokens that are retold where they stand are of the same kinds at the same places. -/
theorem Grammar.Retold.kinds_places {named : Bool} {tokens others : List Token}
    (h : Retold 0 (fun _ _ => False) named tokens others) :
    others.map Token.kind = tokens.map Token.kind ∧
      others.map Token.pos = tokens.map Token.pos := by
  induction h with
  | nil => exact ⟨rfl, rfl⟩
  | @cons _ t other _ _ h _ ih =>
    have hpos : other.pos = t.pos := by
      cases h with
      | moved => exact Int.add_zero _
      | ending h => exact h.elim
      | name _ _ hpos _ => exact hpos.trans (Int.add_zero _)
    simp only [List.map_cons, h.kind_eq, hpos, ih.1, ih.2, and_self]

namespace Selector

/-- The readings of two texts that are cut into the same tokens but for the case of names. -/
private theorem parse_retold (context : Option Context) {source other : Text}
    {tokens others : List Token} (htokens : Token.ofSelector source = .ok tokens)
    (hothers : Token.ofSelector other = .ok others) (hlength : other.length = source.length)
    (hsource : allBlank source = false) (hother : allBlank other = false)
    (h : Grammar.Retold 0 (fun _ _ => False) false tokens others) :
    (parse context source).Mirrors (Failure.Shifted 0) (moved 0) (parse context other) := by
  have hsetting := setting_mirrors_behind (parseWithin (source.length / 6)) context source other 0
    tokens
  rw [parse, parse, depthFor, depthFor, hlength, parseWithin_of_tokens _ context hsource htokens,
    parseWithin_of_tokens _ context hother hothers]
  exact (Grammar.selector_mirrors hsetting
    ⟨List.suffix_refl tokens, Token.exists_end htokens⟩ h).outcome

/-- A selector in which tag names and pseudo names change their case is cut into tokens of the same
kinds at the same places, and it is the same selector, or at fault in the same way at the same
place. -/
theorem parse_recased {source other : Text} {tokens : List Token}
    (htokens : Token.ofSelector source = .ok tokens) (h : Token.Recased source tokens other)
    (context : Option Context) :
    (∃ others, Token.ofSelector other = .ok others ∧
      others.map Token.kind = tokens.map Token.kind ∧
      others.map Token.pos = tokens.map Token.pos) ∧
    ((∃ tree, (parse context source).result = .ok tree ∧
        (parse context other).result = .ok tree) ∨
      ∃ f g, (parse context source).result = .error f ∧ (parse context other).result = .error g ∧
        g.error.errorClass = f.error.errorClass ∧ g.error.code = f.error.code ∧
        g.error.name = f.error.name ∧ g.error.token = f.error.token ∧
        g.error.position = f.error.position) := by
  obtain ⟨others, hothers, hretold⟩ := Token.ofSelector_recased htokens h
  refine ⟨⟨others, hothers, (hretold false).kinds_places⟩, ?_⟩
  have hblank : allBlank other = allBlank source := allBlank_of_recased h.text.lower
  by_cases hsource : allBlank source = true
  · refine .inr ⟨_, _, parse_of_blank context hsource,
      parse_of_blank context (hblank.trans hsource), rfl, rfl, rfl, rfl, rfl⟩
  · rw [Bool.not_eq_true] at hsource
    have hmirrors := (parse_retold context htokens hothers h.length hsource
      (hblank.trans hsource) (hretold false)).result
    cases hresult : (parse context source).result with
    | ok tree =>
      have hsame := hmirrors.eq_ok hresult
      rw [moved_zero] at hsame
      exact .inl ⟨tree, rfl, hsame⟩
    | error f =>
      obtain ⟨g, hg, hshifted⟩ := hmirrors.exists_error hresult
      obtain ⟨p, hp, hp'⟩ := hshifted.position
      refine .inr ⟨f, g, rfl, hg, hshifted.errorClass, hshifted.code, hshifted.name,
        hshifted.token, ?_⟩
      rw [hp', hp, Int.natCast_zero, Int.add_zero]

/-- The names of a tag, of a class and of a function change their case, and the argument does
not. -/
theorem parse_recased_of_capitals : ∃ tokens,
    Token.ofSelector "div > A:HOVER:Not(B)".toList = .ok tokens ∧
      Token.Recased "div > A:HOVER:Not(B)".toList tokens "dIV > a:hover:nOT(B)".toList ∧
      (∃ others, Token.ofSelector "dIV > a:hover:nOT(B)".toList = .ok others ∧
        others.map Token.kind = tokens.map Token.kind ∧
        others.map Token.pos = tokens.map Token.pos) ∧
      ∃ tree, (parse none "div > A:HOVER:Not(B)".toList).result = .ok tree ∧
        (parse none "dIV > a:hover:nOT(B)".toList).result = .ok tree := by
  obtain ⟨tokens, htokens, hrecased⟩ : ∃ tokens : List Token,
      Token.ofSelector "div > A:HOVER:Not(B)".toList = .ok tokens ∧
        Token.Recased "div > A:HOVER:Not(B)".toList tokens "dIV > a:hover:nOT(B)".toList :=
    ⟨[⟨.tag, some "div".toList, 0⟩, ⟨.combinator, some ['>'], 4⟩, ⟨.tag, some ['a'], 6⟩,
      ⟨.colon, none, 7⟩, ⟨.tag, some "HOVER".toList, 8⟩, ⟨.colon, none, 13⟩,
      ⟨.tag, some "Not".toList, 14⟩, ⟨.parenOpen, none, 17⟩, ⟨.string, some ['B'], 18⟩,
      ⟨.parenClose, none, 19⟩, ⟨.eof, none, 20⟩], by decide +kernel, by decide +kernel⟩
  obtain ⟨hothers, hparse⟩ := parse_recased htokens hrecased none
  refine ⟨tokens, htokens, hrecased, hothers, hparse.resolve_right ?_⟩
  rintro ⟨f, _, hf, -⟩
  have hok : (parse none "div > A:HOVER:Not(B)".toList).result.isOk = true := by decide +kernel
  rw [hf] at hok
  cases hok

end Selector

end SelectorCheck
