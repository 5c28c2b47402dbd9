import SelectorCheck.Proofs.Selector.Sequence
import SelectorCheck.Proofs.Selector.Spelling
import SelectorCheck.Proofs.Token.Pseudo

/-!
# Reading what is written

The lexer and the grammar together against the relation between texts and
trees. The tokens ahead are always those of the text ahead, so each layer of
the grammar is followed on the text: where it has a value, the text begins
with what is written for the value, and where the text begins so, the layer
has the value.

Functions are built by whoever applies the grammar. What is built need only be
known as far as the direction in question goes, so each direction has a
condition of its own.

## Main results

* `Spelling.whole_sound` — what is read is written there.
* `Spelling.whole_complete` — what is written is read.
-/

namespace SelectorCheck.Spelling

open Text Lexer RawArgument Grammar

variable {s : Setting} {F : Text → Text → PseudoFunction → Prop} {source : Text} {p : Nat}

/-- The position behind a comma with a member and the others behind it. -/
private theorem add_length_comma (p : Nat) (before behind text others : Text) :
    p + (before ++ ',' :: (behind ++ (text ++ others))).length =
      p + before.length + 1 + behind.length + text.length + others.length := by
  simp only [List.length_append, List.length_cons]
  omega

/-! ## What is read is written -/

/-- Whatever is built is written: no function goes without an argument, and the arguments that
functions are built from make them. -/
structure BuildsOnly (s : Setting) (F : Text → Text → PseudoFunction → Prop) : Prop where
  missing : ∀ name f, (s.build name none).result ≠ .ok f
  written : ∀ {name arg f}, Solid arg → (s.build name (some arg)).result = .ok f → F name arg f

private theorem unmarked_sound {token : Token} {first : List Token} {simple : Simple}
    {text after : Text} (h : Lexeme p text after (token :: first))
    (hsimple : unmarked? token = some simple) :
    first = [] ∧ Item s.context.level F p simple text after := by
  cases h with
  | universal =>
    cases hsimple
    exact ⟨rfl, .universal⟩
  | id hname =>
    cases hsimple
    exact ⟨rfl, .id hname⟩
  | className hname =>
    cases hsimple
    exact ⟨rfl, .className hname⟩
  | tag hname hstart =>
    cases hsimple
    exact ⟨rfl, .tag hname hstart⟩
  | combinator _ _ | comma _ => cases hsimple
  | name hcolons _ _ | call hcolons _ _ => cases hcolons <;> cases hsimple

private theorem peek_ne_parenOpen {t : Text} {tokens : List Token} (h : Lexed source p t tokens) :
    (peek tokens).kind ≠ .parenOpen := by
  obtain ⟨token, rest, rfl⟩ := h.eq_cons
  exact h.kind_ne_parenOpen

/-- A pseudo name without an argument. -/
private theorem named_sound {colons name after : Text} {kind : TokenKind} {simple : Simple}
    {q : Int} (hcolons : Colons colons kind) (hname : NameRun name after)
    (hbare : after.head? ≠ some '(')
    (h : (named s ⟨kind, none, p⟩ ⟨.tag, some name, q⟩).result = .ok simple) :
    Item s.context.level F p simple (colons ++ name) after := by
  rcases named_eq_ok_iff.mp h with ⟨hkind, hadmits, rfl⟩ | ⟨hkind, hadmits, rfl⟩ |
    ⟨hkind, hclass, hadmits, rfl⟩
  · cases hcolons with
    | single => cases hkind
    | double => exact .element hname hbare hadmits
  · cases hcolons with
    | single => exact .pseudoClass hname hbare hadmits
    | double => exact absurd rfl hkind
  · cases hcolons with
    | single => exact .legacyElement hname hbare hclass hadmits
    | double => exact absurd rfl hkind

/-- A pseudo name with an argument. -/
private theorem call_sound {colons name text after : Text} {kind : TokenKind} {simple : Simple}
    {q : Int} {tokens others behind : List Token} (hs : BuildsOnly s F)
    (hcolons : Colons colons kind) (hname : NameRun name (text ++ after))
    (htext : Parenthesized (p + colons.length + name.length) text after tokens)
    (h : (functional s ⟨kind, none, p⟩ ⟨.tag, some name, q⟩ (peek (tokens ++ others))
      (tokens ++ others).tail).Gives simple behind) :
    Item s.context.level F p simple (colons ++ (name ++ text)) after ∧ others = behind := by
  obtain @⟨blanks, content, after, hblanks, hscan⟩ := htext
  obtain ⟨behindArg, hbehind, hcontent⟩ := exists_trimEnd_append content
  by_cases hblank : content.trimEnd = []
  · rw [argumentTokens, if_pos hblank] at h
    obtain ⟨hcall, -⟩ := h
    obtain ⟨-, -, f, hbuild, -⟩ := call_eq_ok_iff.mp hcall
    exact absurd hbuild (hs.missing _ f)
  · rw [argumentTokens, if_neg hblank] at h
    obtain ⟨hcall, rfl⟩ := h
    obtain ⟨hkind, hadmits, f, hbuild, rfl⟩ := call_eq_ok_iff.mp hcall
    have hne : content ≠ [] := by
      rintro rfl
      exact hblank rfl
    have hsolid : Solid content.trimEnd := by
      refine solid_trimEnd (fun c hc => hblanks.stops c ?_) hblank
      rwa [head?_append_left hne]
    have hopen : NameRun name ['('] := hname.before_cons rfl
    refine ⟨?_, rfl⟩
    cases hcolons with
    | double => exact absurd rfl hkind
    | single =>
      have hitem : Item s.context.level F p
          ⟨.pseudoFunction, some name.lowercase, some content.trimEnd, some f, p⟩
          (':' :: (name ++ '(' :: (blanks ++ (content.trimEnd ++ (behindArg ++ [')']))))) after :=
        .function hopen hadmits (allBlank_iff.mpr hblanks.all) hbehind (hs.written hsolid hbuild)
      rw [← List.append_assoc content.trimEnd, ← hcontent] at hitem
      exact hitem

private theorem pseudo_sound (hs : BuildsOnly s F) {marker : Token} {rest behind : List Token}
    {t : Text} {simple : Simple} (h : Lexed source p t (marker :: rest))
    (hmarker : isMarker marker.kind = true) (hgives : (pseudo s marker rest).Gives simple behind) :
    ∃ text after, t = text ++ after ∧ Item s.context.level F p simple text after ∧
      Lexed source (p + text.length) after behind := by
  obtain ⟨text, after, first, others, rfl, hlexeme, rfl, hrest⟩ :=
    h.exists_lexeme (isSeparator_of_isMarker hmarker)
  refine ⟨text, after, rfl, ?_⟩
  obtain ⟨name, tail, htokens, hkind, hcases⟩ := pseudo_gives_iff.mp hgives
  cases hlexeme with
  | combinator _ _ | comma _ | universal | id _ | className _ | tag _ _ => cases hmarker
  | @name colons called _ kind hcolons hname hbare =>
    cases htokens
    rcases hcases with ⟨-, hnamed, rfl⟩ | ⟨hopen, -⟩
    · exact ⟨named_sound hcolons hname hbare hnamed, hrest⟩
    · exact absurd hopen (peek_ne_parenOpen hrest)
  | @call colons called text _ kind tokens hcolons hname htext =>
    cases htokens
    rcases hcases with ⟨hopen, -⟩ | ⟨-, hfunctional⟩
    · cases htext
      exact absurd rfl hopen
    · obtain ⟨hitem, rfl⟩ := call_sound hs hcolons hname htext hfunctional
      exact ⟨hitem, hrest⟩

private theorem items_sound (hs : BuildsOnly s F) {simples : List Simple} {t : Text}
    {tokens behind : List Token} (h : Lexed source p t tokens)
    (hgives : (items s tokens).Gives simples behind) :
    ∃ text after, t = text ++ after ∧ Items s.context.level F p simples text after ∧
      Lexed source (p + text.length) after behind := by
  induction simples generalizing p t tokens with
  | nil =>
    obtain ⟨token, rest, rfl⟩ := h.eq_cons
    rcases items_gives_iff.mp hgives with ⟨_, _, -, -, heq⟩ | ⟨-, -, _, _, _, -, -, heq⟩ |
      ⟨-, -, -, rfl⟩
    · cases heq
    · cases heq
    · exact ⟨[], t, rfl, .nil, h⟩
  | cons simple simples ih =>
    obtain ⟨token, rest, rfl⟩ := h.eq_cons
    have hfirst : ∃ text after middle, t = text ++ after ∧
        Item s.context.level F p simple text after ∧
        Lexed source (p + text.length) after middle ∧ (items s middle).Gives simples behind := by
      rcases items_gives_iff.mp hgives with ⟨_, _, hsimple, hothers, heq⟩ |
        ⟨-, hmarker, _, _, middle, hpseudo, hothers, heq⟩ | ⟨-, -, heq, -⟩
      · cases heq
        have hseparator : isSeparator token.kind = false := by
          cases hkind : token.kind <;> simp_all [unmarked?, isSeparator]
        obtain ⟨text, after, first, others, rfl, hlexeme, rfl, hrest⟩ :=
          h.exists_lexeme hseparator
        obtain ⟨rfl, hitem⟩ := unmarked_sound hlexeme hsimple
        exact ⟨text, after, others, rfl, hitem, hrest, hothers⟩
      · cases heq
        obtain ⟨text, after, rfl, hitem, hrest⟩ := pseudo_sound hs h hmarker hpseudo
        exact ⟨text, after, middle, rfl, hitem, hrest, hothers⟩
      · cases heq
    obtain ⟨text, rest, middle, rfl, hitem, hmiddle, hothers⟩ := hfirst
    obtain ⟨others, after, rfl, hitems, hafter⟩ := ih hmiddle hothers
    refine ⟨text ++ others, after, by simp, .cons hitem hitems, ?_⟩
    rw [List.length_append, ← Nat.add_assoc]
    exact hafter

private theorem joint_sound {token : Token} {rest : List Token} {t : Text}
    (h : Lexed source p t (token :: rest)) (hkind : token.kind = .combinator) :
    ∃ combinator joint after, t = joint ++ after ∧ token.value = some combinator ∧
      Joint combinator joint ∧ Lexed source (p + joint.length) after rest := by
  obtain ⟨joint, after, rfl, hrest, ⟨hvalue, hblanks, hne⟩ |
    ⟨before, c, behind, hvalue, rfl, hc, hbefore, hbehind⟩⟩ := h.of_combinator hkind
  · exact ⟨[' '], joint, after, rfl, hvalue, .blanks hblanks hne, hrest⟩
  · exact ⟨[c], _, after, rfl, hvalue, .mark hbefore hc hbehind, hrest⟩

private theorem links_sound (hs : BuildsOnly s F) {row : List Link} {t : Text}
    {tokens behind : List Token} (h : Lexed source p t tokens)
    (hgives : (links s tokens).Gives row behind) :
    ∃ text after, t = text ++ after ∧ Links s.context.level F p row text after ∧
      Lexed source (p + text.length) after behind := by
  induction row generalizing p t tokens with
  | nil =>
    obtain ⟨token, rest, rfl⟩ := h.eq_cons
    rcases links_gives_iff.mp hgives with ⟨-, _, _, _, -, -, heq⟩ | ⟨-, -, rfl⟩
    · cases heq
    · exact ⟨[], t, rfl, .nil, h⟩
  | cons link row ih =>
    obtain ⟨token, rest, rfl⟩ := h.eq_cons
    rcases links_gives_iff.mp hgives with ⟨hkind, compound, middle, _, hcompound, hothers, heq⟩ |
      ⟨-, heq, -⟩
    · cases heq
      obtain ⟨combinator, joint, _, rfl, hvalue, hjoint, hrest⟩ := joint_sound h hkind
      obtain ⟨text, _, rfl, hitems, hmiddle⟩ := items_sound hs hrest hcompound
      obtain ⟨others, after, rfl, hlinks, hafter⟩ := ih hmiddle hothers
      rw [hvalue]
      refine ⟨joint ++ (text ++ others), after, by simp, .cons hjoint hitems hlinks, ?_⟩
      rw [List.length_append, List.length_append, ← Nat.add_assoc, ← Nat.add_assoc]
      exact hafter
    · cases heq

private theorem chain_sound (hs : BuildsOnly s F) {c : Complex} {t : Text}
    {tokens behind : List Token} (h : Lexed source p t tokens)
    (hgives : (complex s tokens).Gives c behind) :
    ∃ text after, t = text ++ after ∧ Chain s.context.level F p c text after ∧
      Lexed source (p + text.length) after behind := by
  obtain ⟨middle, hcompound, hrow⟩ := complex_gives_iff.mp hgives
  obtain ⟨text, _, rfl, hitems, hmiddle⟩ := items_sound hs h hcompound
  obtain ⟨others, after, rfl, hlinks, hafter⟩ := links_sound hs hmiddle hrow
  refine ⟨text ++ others, after, by simp, .mk hitems hlinks, ?_⟩
  rw [List.length_append, ← Nat.add_assoc]
  exact hafter

private theorem members_sound (hs : BuildsOnly s F) {all : List Complex} {t : Text}
    {tokens behind : List Token} (h : Lexed source p t tokens)
    (hgives : (members s tokens).Gives all behind) :
    ∃ text after, t = text ++ after ∧ Members s.context.level F p all text after ∧
      Lexed source (p + text.length) after behind := by
  induction all generalizing p t tokens with
  | nil =>
    obtain ⟨token, rest, rfl⟩ := h.eq_cons
    rcases members_gives_iff.mp hgives with ⟨-, _, _, _, -, -, heq⟩ | ⟨-, -, rfl⟩
    · cases heq
    · exact ⟨[], t, rfl, .nil, h⟩
  | cons c all ih =>
    obtain ⟨token, rest, rfl⟩ := h.eq_cons
    rcases members_gives_iff.mp hgives with ⟨hkind, _, middle, _, hcomplex, hothers, heq⟩ |
      ⟨-, heq, -⟩
    · cases heq
      obtain ⟨before, behindComma, _, rfl, hbefore, hbehind, hrest⟩ := h.of_comma hkind
      obtain ⟨text, _, rfl, hchain, hmiddle⟩ := chain_sound hs hrest hcomplex
      obtain ⟨others, after, rfl, hmembers, hafter⟩ := ih hmiddle hothers
      refine ⟨before ++ ',' :: (behindComma ++ (text ++ others)), after, by simp,
        .cons hbefore hbehind hchain hmembers, ?_⟩
      rw [add_length_comma]
      exact hafter
    · cases heq

/-- The selector that the tokens of a text are is written in the text. -/
theorem whole_sound (hs : BuildsOnly s F) {tokens : List Token} {selector : Selector}
    (htokens : Token.ofSelector source = .ok tokens)
    (h : (Grammar.selector s tokens).outcome.result = .ok selector) :
    Whole s.context.level F selector source := by
  obtain ⟨before, t, rfl, hbefore, hlexed⟩ := Token.ofSelector_eq_ok_iff.mp htokens
  obtain ⟨first, middle, others, hfirst, hothers, heof, rfl⟩ := selector_gives_iff.mp ⟨h, rfl⟩
  obtain ⟨text, _, rfl, hchain, hmiddle⟩ := chain_sound hs hlexed hfirst
  obtain ⟨rest, behind, rfl, hmembers, hend⟩ := members_sound hs hmiddle hothers
  obtain ⟨token, tail, heq⟩ := hend.eq_cons
  rw [heq] at hend heof
  exact .mk (allBlank_iff.mpr hbefore.all) (hend.of_eof heof) hchain hmembers

/-! ## What is written is read -/

/-- Whatever is written is built, and the lexer cuts it out as a whole. -/
structure BuildsAll (s : Setting) (F : Text → Text → PseudoFunction → Prop) : Prop where
  solid : ∀ {name arg f}, F name arg f → Solid arg
  balanced : ∀ {name arg f}, F name arg f → Balanced arg
  built : ∀ {name arg f}, F name arg f → (s.build name (some arg)).result = .ok f

/-- The tokens of a simple selector in front of other tokens. -/
private inductive Starts (s : Setting) (simple : Simple) (rest : List Token) :
    (tokens : List Token) → Prop where
  | unmarked {token : Token} (h : unmarked? token = some simple) :
      Starts s simple rest (token :: rest)
  | marked {marker : Token} {first : List Token} (hunmarked : unmarked? marker = none)
      (hmarker : isMarker marker.kind = true) (h : (pseudo s marker first).Gives simple rest) :
      Starts s simple rest (marker :: first)

private theorem starts_named {marker name : Token} {rest : List Token} {simple : Simple}
    {t : Text} (hrest : Lexed source p t rest) (hunmarked : unmarked? marker = none)
    (hmarker : isMarker marker.kind = true) (hname : name.kind = .tag)
    (h : (named s marker name).result = .ok simple) :
    Starts s simple rest ([marker, name] ++ rest) := by
  have hbare : (peek rest).kind ≠ .parenOpen := peek_ne_parenOpen hrest
  have hpseudo : (pseudo s marker (name :: rest)).Gives simple rest :=
    pseudo_gives_iff.mpr ⟨name, rest, rfl, hname, .inl ⟨hbare, h, rfl⟩⟩
  exact .marked hunmarked hmarker hpseudo

private theorem item_complete (hs : BuildsAll s F) {simple : Simple} {text after : Text}
    {rest : List Token} (h : Item s.context.level F p simple text after)
    (hrest : Lexed source (p + text.length) after rest) :
    ∃ tokens, Lexed source p (text ++ after) tokens ∧ Starts s simple rest tokens := by
  cases h with
  | universal => exact ⟨_, .lexeme .universal hrest, .unmarked rfl⟩
  | id hname => exact ⟨_, .lexeme (.id hname) hrest, .unmarked rfl⟩
  | className hname => exact ⟨_, .lexeme (.className hname) hrest, .unmarked rfl⟩
  | tag hname hstart => exact ⟨_, .lexeme (.tag hname hstart) hrest, .unmarked rfl⟩
  | pseudoClass hname hbare hadmits =>
    refine ⟨_, .lexeme (.name .single hname hbare) hrest, starts_named hrest rfl rfl rfl ?_⟩
    exact named_eq_ok_iff.mpr (.inr (.inl ⟨by simp, hadmits, rfl⟩))
  | legacyElement hname hbare hclass hadmits =>
    refine ⟨_, .lexeme (.name .single hname hbare) hrest, starts_named hrest rfl rfl rfl ?_⟩
    exact named_eq_ok_iff.mpr (.inr (.inr ⟨by simp, hclass, hadmits, rfl⟩))
  | element hname hbare hadmits =>
    refine ⟨_, .lexeme (.name .double hname hbare) hrest, starts_named hrest rfl rfl rfl ?_⟩
    exact named_eq_ok_iff.mpr (.inl ⟨rfl, hadmits, rfl⟩)
  | @function name before arg behind _ f hname hadmits hbefore hbehind hf =>
    have hsolid : Solid arg := hs.solid hf
    have hblanks : Run isBlank before (arg ++ behind ++ ')' :: after) := by
      rw [List.append_assoc]
      exact hsolid.run_blanks hbefore _
    have hscan := ((hs.balanced hf).append (balanced_blanks hbehind)).scan_closing
      (p + 1 + name.length + 1 + before.length) after
    have htext : Parenthesized (p + [':'].length + name.length)
        ('(' :: (before ++ (arg ++ behind ++ [')']))) after _ := .mk hblanks hscan
    have hopen : NameRun name ('(' :: (before ++ (arg ++ behind ++ [')'])) ++ after) :=
      hname.before_cons rfl
    have hcall := Lexeme.call .single hopen htext
    rw [List.append_assoc arg] at hcall
    have hbuild : (s.build name.lowercase (some arg)).result = .ok f := hs.built hf
    refine ⟨_, .lexeme hcall hrest, .marked rfl rfl ?_⟩
    apply pseudo_gives_iff.mpr
    refine ⟨_, _, rfl, rfl, .inr ⟨rfl, ?_⟩⟩
    rw [argumentTokens, trimEnd_append_solid hsolid hbehind, if_neg hsolid.ne_nil]
    exact ⟨call_eq_ok_iff.mpr ⟨by simp, hadmits, f, hbuild, rfl⟩, rfl⟩

/-- A separator is ahead, at which a compound selector ends. -/
private def AtSeparator (tokens : List Token) : Prop :=
  ∃ token rest, tokens = token :: rest ∧ isSeparator token.kind = true

/-- A comma or the end is ahead, at which a complex selector ends. -/
def AtEnd (tokens : List Token) : Prop :=
  ∃ token rest, tokens = token :: rest ∧ (token.kind = .comma ∨ token.kind = .eof)

private theorem items_nil {tokens : List Token} (h : AtSeparator tokens) :
    (items s tokens).Gives [] tokens := by
  obtain ⟨token, rest, rfl, hseparator⟩ := h
  have hpeek : isSeparator (peek (token :: rest)).kind = true := hseparator
  rw [items_of_isSeparator hpeek]
  exact Step.gives_value.mpr ⟨rfl, rfl⟩

private theorem items_cons {simple : Simple} {simples : List Simple}
    {tokens middle behind : List Token} (h : Starts s simple middle tokens)
    (hothers : (items s middle).Gives simples behind) :
    (items s tokens).Gives (simple :: simples) behind := by
  cases h with
  | unmarked hsimple => exact items_gives_iff.mpr (.inl ⟨simple, simples, hsimple, hothers, rfl⟩)
  | marked hunmarked hmarker hpseudo =>
    exact items_gives_iff.mpr
      (.inr (.inl ⟨hunmarked, hmarker, simple, simples, middle, hpseudo, hothers, rfl⟩))

private theorem items_complete (hs : BuildsAll s F) {simples : List Simple} {text after : Text}
    {rest : List Token} (h : Items s.context.level F p simples text after)
    (hrest : Lexed source (p + text.length) after rest) (hstop : AtSeparator rest) :
    ∃ tokens, Lexed source p (text ++ after) tokens ∧ (items s tokens).Gives simples rest := by
  induction h with
  | nil => exact ⟨rest, hrest, items_nil hstop⟩
  | @cons p simple simples text others after hitem _ ih =>
    rw [List.length_append, ← Nat.add_assoc] at hrest
    obtain ⟨middle, hmiddle, hothers⟩ := ih hrest
    obtain ⟨tokens, htokens, hstarts⟩ := item_complete hs hitem hmiddle
    refine ⟨tokens, ?_, items_cons hstarts hothers⟩
    rw [List.append_assoc]
    exact htokens

private theorem joint_complete {combinator joint t : Text} {c : Char} {tokens : List Token}
    (h : Joint combinator joint) (hblank : isBlank c = false) (habsorbs : absorbsBlanks c = false)
    (hrest : Lexed source (p + joint.length) (c :: t) tokens) :
    ∃ token, token.kind = .combinator ∧ token.value = some combinator ∧
      Lexed source p (joint ++ c :: t) (token :: tokens) := by
  cases h with
  | blanks hblanks hne => exact ⟨_, rfl, rfl, .gap hblanks hne hblank habsorbs hrest⟩
  | @mark before behind mark hbefore hmark hbehind =>
    have hrun : Run isBlank behind (c :: t) := ⟨allBlank_iff.mp hbehind, by simp [hblank]⟩
    have habsorbing : absorbsBlanks mark = true := by simp [absorbsBlanks, hmark]
    rw [List.length_append, ← Nat.add_assoc] at hrest
    refine ⟨⟨.combinator, some [mark], (p + before.length : Nat)⟩, rfl, rfl, ?_⟩
    have hjoint := Lexed.separator hbefore habsorbing (.combinator hmark hrun) hrest
    rw [List.append_assoc]
    exact hjoint

private theorem compound_complete (hs : BuildsAll s F) {compound : Compound} {text after : Text}
    {rest : List Token} (h : Items s.context.level F p compound.simples text after)
    (hrest : Lexed source (p + text.length) after rest) (hstop : AtSeparator rest) :
    ∃ tokens, Lexed source p (text ++ after) tokens ∧ GivesCompound s tokens compound rest :=
  items_complete hs h hrest hstop

private theorem links_complete (hs : BuildsAll s F) {row : List Link} {text after : Text}
    {rest : List Token} (h : Links s.context.level F p row text after)
    (hrest : Lexed source (p + text.length) after rest) (hend : AtEnd rest) :
    ∃ tokens, Lexed source p (text ++ after) tokens ∧ AtSeparator tokens ∧
      (links s tokens).Gives row rest := by
  induction h with
  | nil =>
    obtain ⟨token, tail, rfl, hkind⟩ := hend
    have hseparator : isSeparator token.kind = true := by
      rcases hkind with hkind | hkind <;> rw [hkind] <;> rfl
    have hother : token.kind ≠ .combinator := by
      rcases hkind with hkind | hkind <;> simp [hkind]
    exact ⟨token :: tail, hrest, ⟨token, tail, rfl, hseparator⟩,
      links_gives_iff.mpr (.inr ⟨hother, rfl, rfl⟩)⟩
  | @cons p combinator joint text others after compound row hjoint hitems _ ih =>
    rw [List.length_append, List.length_append, ← Nat.add_assoc, ← Nat.add_assoc] at hrest
    obtain ⟨middle, hmiddle, hstop, hothers⟩ := ih hrest
    obtain ⟨inner, hinner, hcompound⟩ := compound_complete hs hitems hmiddle hstop
    obtain ⟨c, t, rfl, hblank, habsorbs⟩ := Items.head hitems
    obtain ⟨token, hkind, hvalue, hlexed⟩ := joint_complete hjoint hblank habsorbs hinner
    have hseparator : isSeparator token.kind = true := by
      rw [hkind]
      rfl
    have hrow : (links s (token :: inner)).Gives (⟨some combinator, compound⟩ :: row) rest := by
      rw [← hvalue]
      exact links_gives_iff.mpr (.inl ⟨hkind, compound, middle, row, hcompound, hothers, rfl⟩)
    refine ⟨token :: inner, ?_, ⟨token, inner, rfl, hseparator⟩, hrow⟩
    rw [List.append_assoc, List.append_assoc]
    exact hlexed

theorem chain_complete (hs : BuildsAll s F) {c : Complex} {text after : Text}
    {rest : List Token} (h : Chain s.context.level F p c text after)
    (hrest : Lexed source (p + text.length) after rest) (hend : AtEnd rest) :
    ∃ tokens, Lexed source p (text ++ after) tokens ∧ (complex s tokens).Gives c rest := by
  cases h with
  | @mk text others _ hitems hlinks =>
    rw [List.length_append, ← Nat.add_assoc] at hrest
    obtain ⟨middle, hmiddle, hstop, hothers⟩ := links_complete hs hlinks hrest hend
    obtain ⟨tokens, htokens, hcompound⟩ := compound_complete hs hitems hmiddle hstop
    refine ⟨tokens, ?_, complex_gives_iff.mpr ⟨middle, hcompound, hothers⟩⟩
    rw [List.append_assoc]
    exact htokens

/-- Members in front of other tokens come in front of the members that those are. -/
theorem members_complete (hs : BuildsAll s F) {all : List Complex} {text after : Text}
    {rest : List Token} (h : Members s.context.level F p all text after)
    (hrest : Lexed source (p + text.length) after rest) (hend : AtEnd rest) :
    ∃ tokens, Lexed source p (text ++ after) tokens ∧ AtEnd tokens ∧
      (members s rest).Under (all ++ ·) (members s tokens) := by
  induction h with
  | nil => exact ⟨rest, hrest, hend, Step.under_refl fun _ => rfl⟩
  | @cons p c all before behind text others after hbefore hbehind hchain _ ih =>
    rw [add_length_comma] at hrest
    obtain ⟨middle, hmiddle, hstop, hothers⟩ := ih hrest
    obtain ⟨inner, hinner, hcomplex⟩ := chain_complete hs hchain hmiddle hstop
    obtain ⟨d, t, rfl, hblank, -⟩ := hchain.head
    have hrun : Run isBlank behind (d :: t ++ (others ++ after)) :=
      ⟨allBlank_iff.mp hbehind, by simp [hblank]⟩
    rw [Nat.add_assoc, Nat.add_comm 1] at hinner
    have hcomma := Lexed.separator hbefore rfl (.comma hrun) hinner
    have hall : (members s rest).Under (c :: all ++ ·)
        (members s (⟨.comma, none, (p + before.length : Nat)⟩ :: inner)) := by
      rw [members_cons, if_pos rfl]
      exact (hothers.trans (Step.under_map (c :: ·) _)).trans
        (Step.under_bind hcomplex fun c rest => (members s rest).map (c :: ·))
    refine ⟨_, ?_, ⟨_, _, rfl, .inl rfl⟩, hall⟩
    simp only [List.append_assoc, List.cons_append] at hcomma ⊢
    exact hcomma

/-- The tokens of a text are the selector that is written in it. -/
theorem whole_complete (hs : BuildsAll s F) {selector : Selector}
    (h : Whole s.context.level F selector source) :
    source.allBlank = false ∧ ∃ tokens, Token.ofSelector source = .ok tokens ∧
      (Grammar.selector s tokens).outcome.result = .ok selector := by
  cases h with
  | @mk first all before behind text others hbefore hbehind hchain hmembers =>
    obtain ⟨c, t, rfl, hblank, -⟩ := hchain.head
    refine ⟨by simp [hblank], ?_⟩
    generalize hsource : before ++ (c :: t ++ (others ++ behind)) = source
    obtain ⟨middle, hmiddle, hend, hunder⟩ :=
      members_complete hs hmembers (.done hbehind) ⟨_, [], rfl, .inr rfl⟩
    obtain ⟨tokens, htokens, hfirst⟩ := chain_complete hs hchain hmiddle hend
    have hnone : (members s [⟨.eof, none, source.length⟩]).Gives [] [⟨.eof, none, source.length⟩] :=
      members_gives_iff.mpr (.inr ⟨by simp, rfl, rfl⟩)
    have hothers := hunder.gives hnone
    rw [List.append_nil] at hothers
    have hrun : Run isBlank before (c :: t ++ (others ++ behind)) :=
      ⟨allBlank_iff.mp hbefore, by simp [hblank]⟩
    refine ⟨tokens, Token.ofSelector_eq_ok_iff.mpr ⟨before, _, hsource.symm, hrun, htokens⟩, ?_⟩
    exact (selector_gives_iff.mpr ⟨first, middle, all, hfirst, hothers, rfl, rfl⟩).1

end SelectorCheck.Spelling
