import Mathlib.Data.List.Chain
import SelectorCheck.Proofs.Text.Run
import SelectorCheck.Proofs.Text.Stretches
import SelectorCheck.Selector.Grammar
import SelectorCheck.Token.Lexer

/-!
# Tokens as spans of the text

A token does not say how long it is, but its kind and its value do: every kind of
token has a spelling, apart from the descendant combinator, which is no more than
blanks between two others. So tokens are a row of spans, each with the descendant
combinators in front of it.

Tokens are a lossless account of a text if the spans stand in it one behind the
other, with nothing but blanks outside of them, and if the blanks between two spans
are a descendant combinator exactly where a joint between two compound selectors
can be.

A row of spans that is laid out in a text has all that at once. The layout is what
induction goes along; the parts of the account are read off it.

## Main definitions

* `Token.spelling` — how a token is spelled in a text.
* `TokenSpan`, `Token.spans` — the spans that tokens are.
* `Token.Lossless` — tokens that account for a whole text.
* `TokenSpan.Laid` — spans that are laid out in a text.

## Main results

* `TokenSpan.Laid.lossless_tokens` — what is laid out is an account without loss.
-/

namespace SelectorCheck

open Text

/-! ## Spans -/

namespace Token

/-- The token is a descendant combinator. -/
def isGap (t : Token) : Bool := t.kind == .combinator && t.value == some [' ']

/-- How a token of `source` is spelled. A name is spelled like its value behind colons, a number
sign or a full stop; any other name is the longest run of name characters at its place. -/
def spelling (source : Text) (behindColons : Bool) (t : Token) : Text :=
  match t.kind with
  | .tag => if behindColons then t.value.getD [] else takeName (source.drop t.pos.toNat)
  | .id => '#' :: t.value.getD []
  | .className => '.' :: t.value.getD []
  | .universal => ['*']
  | .string | .combinator => t.value.getD []
  | .comma => [',']
  | .colon => [':']
  | .doubleColon => [':', ':']
  | .parenOpen => ['(']
  | .parenClose => [')']
  | .eof | .other _ => []

end Token

/-- A token with its spelling and the descendant combinators in front of it. -/
structure TokenSpan where
  gaps : List Token
  /-- Whether the token in front is one for colons. -/
  behindColons : Bool
  token : Token
  text : Text
deriving DecidableEq

namespace TokenSpan

/-- The place of the first character. -/
def start (s : TokenSpan) : Nat := s.token.pos.toNat

/-- The place behind the last character. -/
def stop (s : TokenSpan) : Nat := s.start + s.text.length

/-- The tokens of a span. -/
def tokens (s : TokenSpan) : List Token := s.gaps ++ [s.token]

end TokenSpan

/-- The spans of tokens behind descendant combinators. -/
def Token.spansFrom (source : Text) : (behindColons : Bool) → (gaps : List Token) → List Token →
    List TokenSpan
  | _, _, [] => []
  | behindColons, gaps, t :: rest =>
    if t.isGap then spansFrom source behindColons (gaps ++ [t]) rest
    else ⟨gaps, behindColons, t, t.spelling source behindColons⟩ ::
      spansFrom source (Grammar.isMarker t.kind) [] rest

/-- The spans of the tokens of a text. -/
def Token.spans (source : Text) (tokens : List Token) : List TokenSpan :=
  spansFrom source false [] tokens

/-! ## Accounts without loss -/

namespace TokenSpan

/-- Behind a token of this kind blanks may be a descendant combinator. -/
def opensGap (kind : TokenKind) : Bool :=
  !(kind == .combinator || kind == .comma || kind == .parenOpen || kind == .string)

/-- In front of a token of this kind blanks may be a descendant combinator. -/
def closesGap (kind : TokenKind) : Bool :=
  !(kind == .combinator || kind == .comma || kind == .parenClose || kind == .eof)

/-- A descendant combinator in front of a token. -/
def gapBefore (t : Token) : Token := ⟨.combinator, some [' '], t.pos⟩

/-- Two spans, one behind the other, have a descendant combinator between them exactly if there are
characters between them and neither of them is of a kind that makes blanks meaningless. -/
def Joined (a b : TokenSpan) : Prop :=
  b.gaps = if a.stop < b.start ∧ opensGap a.token.kind = true ∧ closesGap b.token.kind = true
    then [gapBefore b.token] else []

/-- The spelling stands in the text at the place of the token, which is no negative one. -/
structure Stands (source : Text) (s : TokenSpan) : Prop where
  pos : s.token.pos = (s.start : Int)
  text : s.text <+: source.drop s.start

/-- The name in the spelling is a run of name characters that goes on neither in front of it nor
behind it. Signs in front of the name do not belong to it. -/
def Named (source : Text) (s : TokenSpan) : Prop :=
  ∃ before sign name after, source = before ++ (sign ++ (name ++ after)) ∧
    s.start = before.length ∧ s.text = sign ++ name ∧
    (s.token.kind = .tag ∧ sign = [] ∨ s.token.kind = .id ∧ sign = ['#'] ∨
      s.token.kind = .className ∧ sign = ['.']) ∧
    NameRun name after ∧ ∀ c ∈ (before ++ sign).getLast?, isNameChar c = false

end TokenSpan

/-- The kinds of tokens that hold a name. -/
def TokenKind.hasName (kind : TokenKind) : Bool :=
  kind == .tag || kind == .id || kind == .className

/-- The tokens account for the whole text. -/
structure Token.Lossless (source : Text) (tokens : List Token) : Prop where
  /-- Every token is a span, or a descendant combinator in front of one. -/
  covered : (spans source tokens).flatMap TokenSpan.tokens = tokens
  /-- The end is the last token and no other one. -/
  ending : ∃ others, tokens = others ++ [⟨.eof, none, source.length⟩] ∧
    ∀ t ∈ others, t.kind ≠ .eof
  spelled : ∀ s ∈ spans source tokens, s.Stands source
  /-- Only the end has no characters. -/
  nonempty : ∀ s ∈ spans source tokens, s.token.kind ≠ .eof → s.text ≠ []
  marks : ∀ s ∈ spans source tokens, s.token.kind = .combinator →
    ∃ c, Lexer.isCombinator c = true ∧ s.text = [c]
  named : ∀ s ∈ spans source tokens, s.token.kind.hasName = true → s.Named source
  /-- Tag names do not depend on case. -/
  lowered : ∀ s ∈ spans source tokens, s.token.kind = .tag → s.behindColons = false →
    s.token.value = some s.text.lowercase
  ordered : (spans source tokens).Pairwise fun a b => a.stop ≤ b.start
  /-- What no span holds is blank. -/
  blanks : ∀ i c, source[i]? = some c →
    (∀ s ∈ spans source tokens, i < s.start ∨ s.stop ≤ i) → isBlank c = true
  first : ∀ s ∈ (spans source tokens).head?, s.gaps = []
  joined : (spans source tokens).IsChain TokenSpan.Joined

namespace TokenSpan

/-! ## Layouts -/

/-- The token behind `before` and in front of `after` is spelled `text`. -/
inductive Spelled (before after : Text) (behindColons : Bool) : Token → (text : Text) → Prop where
  | mark {c : Char} {pos : Int} (hc : Lexer.isCombinator c = true) :
      Spelled before after behindColons ⟨.combinator, some [c], pos⟩ [c]
  | comma {pos : Int} : Spelled before after behindColons ⟨.comma, none, pos⟩ [',']
  | universal {pos : Int} : Spelled before after behindColons ⟨.universal, none, pos⟩ ['*']
  | id {name : Text} {pos : Int} (hname : NameRun name after) :
      Spelled before after behindColons ⟨.id, some name, pos⟩ ('#' :: name)
  | className {name : Text} {pos : Int} (hname : NameRun name after) :
      Spelled before after behindColons ⟨.className, some name, pos⟩ ('.' :: name)
  | tag {name : Text} {pos : Int} (hcolons : behindColons = false) (hname : NameRun name after)
      (hbefore : ∀ c ∈ before.getLast?, isNameChar c = false) :
      Spelled before after behindColons ⟨.tag, some name.lowercase, pos⟩ name
  | name {name : Text} {pos : Int} (hcolons : behindColons = true) (hname : NameRun name after)
      (hbefore : ∀ c ∈ before.getLast?, isNameChar c = false) :
      Spelled before after behindColons ⟨.tag, some name, pos⟩ name
  | colon {pos : Int} : Spelled before after behindColons ⟨.colon, none, pos⟩ [':']
  | doubleColon {pos : Int} :
      Spelled before after behindColons ⟨.doubleColon, none, pos⟩ [':', ':']
  | parenOpen {pos : Int} : Spelled before after behindColons ⟨.parenOpen, none, pos⟩ ['(']
  | string {text : Text} {pos : Int} (hne : text ≠ []) :
      Spelled before after behindColons ⟨.string, some text, pos⟩ text
  | parenClose {pos : Int} : Spelled before after behindColons ⟨.parenClose, none, pos⟩ [')']

/-- Whether blanks behind `left` may be a descendant combinator. In front of all tokens they are
none. -/
def opensBehind : (left : Option Token) → Bool
  | none => false
  | some t => opensGap t.kind

/-- Whether the token `left` is one for colons. -/
def isColons : (left : Option Token) → Bool
  | none => false
  | some t => Grammar.isMarker t.kind

/-- The descendant combinators that blanks between two tokens are. -/
def gapsBetween (left : Option Token) (blanks : Text) (t : Token) : List Token :=
  if blanks ≠ [] ∧ opensBehind left = true ∧ closesGap t.kind = true then [gapBefore t] else []

/-- The spans are laid out in the text that lies behind `before` and the token `left`. -/
inductive Laid : (before : Text) → (left : Option Token) → (t : Text) → List TokenSpan → Prop where
  | done {before blanks : Text} {left : Option Token} (hblanks : allBlank blanks = true) :
      Laid before left blanks
        [⟨[], isColons left, ⟨.eof, none, (before.length + blanks.length : Nat)⟩, []⟩]
  | cons {before blanks text after : Text} {left : Option Token} {t : Token} {row : List TokenSpan}
      (hblanks : allBlank blanks = true) (hpos : t.pos = (before.length + blanks.length : Nat))
      (hspelled : Spelled (before ++ blanks) after (isColons left) t text)
      (hrest : Laid (before ++ (blanks ++ text)) (some t) after row) :
      Laid before left (blanks ++ (text ++ after))
        (⟨gapsBetween left blanks t, isColons left, t, text⟩ :: row)

variable {source before blanks text after ahead : Text} {left : Option Token} {behindColons : Bool}
  {t : Token} {s : TokenSpan} {row : List TokenSpan}

/-! ### Tokens and their spelling -/

theorem Spelled.isGap_eq_false (h : Spelled before after behindColons t text) :
    t.isGap = false := by
  cases h with
  | @mark c _ hc =>
    have hspace : c ≠ ' ' := by
      rintro rfl
      cases hc
    simp [Token.isGap, hspace]
  | _ => rfl

theorem Spelled.kind_ne_eof (h : Spelled before after behindColons t text) : t.kind ≠ .eof := by
  cases h <;> simp

theorem Spelled.text_ne_nil (h : Spelled before after behindColons t text) : text ≠ [] := by
  cases h with
  | tag _ hname _ | name _ hname _ => exact hname.ne_nil
  | string hne => exact hne
  | _ => simp

/-- What a token says about its spelling is what it is spelled. -/
theorem Spelled.spelling_eq (h : Spelled before after behindColons t text)
    (hsource : source.drop t.pos.toNat = text ++ after) :
    t.spelling source behindColons = text := by
  cases h with
  | tag hcolons hname _ =>
    unfold Token.spelling
    dsimp only at hsource ⊢
    rw [hcolons, hsource, hname.takeName_eq]
    rfl
  | name hcolons _ _ => simp [Token.spelling, hcolons]
  | _ => rfl

theorem Spelled.named (h : Spelled before after behindColons t text)
    (hkind : t.kind.hasName = true) (hsource : source = before ++ (text ++ after))
    (hpos : t.pos = before.length) (gaps : List Token) :
    Named source ⟨gaps, behindColons, t, text⟩ := by
  have hstart : t.pos.toNat = before.length := by omega
  cases h with
  | id hname =>
    exact ⟨before, ['#'], _, after, hsource, hstart, rfl, by simp, hname, by simp; decide⟩
  | className hname =>
    exact ⟨before, ['.'], _, after, hsource, hstart, rfl, by simp, hname, by simp; decide⟩
  | tag _ hname hbefore | name _ hname hbefore =>
    exact ⟨before, [], _, after, hsource, hstart, rfl, by simp, hname, by simpa using hbefore⟩
  | _ => cases hkind

theorem Spelled.exists_mark (h : Spelled before after behindColons t text)
    (hkind : t.kind = .combinator) : ∃ c, Lexer.isCombinator c = true ∧ text = [c] := by
  cases h with
  | mark hc => exact ⟨_, hc, rfl⟩
  | _ => cases hkind

theorem Spelled.lowered (h : Spelled before after false t text) (hkind : t.kind = .tag) :
    t.value = some text.lowercase := by
  cases h with
  | tag _ _ _ => rfl
  | name hcolons _ _ => cases hcolons
  | _ => cases hkind

theorem isGap_of_mem_gapsBetween {g : Token} (h : g ∈ gapsBetween left blanks t) :
    g.isGap = true := by
  unfold gapsBetween at h
  split at h
  · rw [List.mem_singleton] at h
    rw [h]
    rfl
  · cases h

theorem spansFrom_gaps {gaps front rest : List Token} (hgaps : ∀ g ∈ gaps, g.isGap = true)
    (ht : t.isGap = false) :
    Token.spansFrom source behindColons front (gaps ++ t :: rest) =
      ⟨front ++ gaps, behindColons, t, t.spelling source behindColons⟩ ::
        Token.spansFrom source (Grammar.isMarker t.kind) [] rest := by
  induction gaps generalizing front with
  | nil => simp [Token.spansFrom, ht]
  | cons g others ih =>
    obtain ⟨hg, hothers⟩ := List.forall_mem_cons.mp hgaps
    rw [List.cons_append, Token.spansFrom, if_pos hg, ih hothers, List.append_assoc]
    rfl

namespace Laid

/-- A layout is one of the spans that its tokens are. -/
theorem spansFrom_tokens (h : Laid before left ahead row) (hsource : source = before ++ ahead) :
    Token.spansFrom source (isColons left) [] (row.flatMap TokenSpan.tokens) = row := by
  induction h with
  | done _ => rfl
  | @cons before blanks text after left t row _ hpos hspelled hrest ih =>
    have hdrop : source.drop t.pos.toNat = text ++ after := by
      have hfront : before ++ (blanks ++ (text ++ after)) = (before ++ blanks) ++ (text ++ after) :=
        (List.append_assoc _ _ _).symm
      rw [hsource, hfront, hpos, Int.toNat_natCast, ← List.length_append, List.drop_left]
    have hothers := ih (by rw [hsource]; simp)
    rw [List.flatMap_cons, TokenSpan.tokens, List.append_assoc, List.singleton_append,
      spansFrom_gaps (fun g hg => isGap_of_mem_gapsBetween hg) hspelled.isGap_eq_false,
      hspelled.spelling_eq hdrop]
    exact congrArg _ hothers

/-! ### Places -/

private theorem stop_cons {gaps : List Token}
    (hpos : t.pos = (before.length + blanks.length : Nat)) :
    TokenSpan.stop ⟨gaps, behindColons, t, text⟩ = (before ++ (blanks ++ text)).length := by
  show t.pos.toNat + text.length = _
  rw [hpos, Int.toNat_natCast, List.length_append, List.length_append, Nat.add_assoc]

/-- The spans are stretches of the text, with blanks outside of them. -/
theorem stretches (h : Laid before left ahead row) :
    Stretches isBlank before.length ahead (row.map fun s => (s.start, s.stop)) := by
  induction h with
  | @done before blanks left hblanks =>
    -- The end is a stretch of no characters behind all of the text.
    have hend : Stretches isBlank (before.length + blanks.length) [] [] := .done nofun
    have hrow : Stretches isBlank before.length (blanks ++ ([] ++ [])) _ :=
      .cons (allBlank_iff.mp hblanks) hend
    rw [List.nil_append, List.append_nil] at hrow
    exact hrow
  | @cons before blanks text after left t row hblanks hpos _ _ ih =>
    rw [List.length_append, List.length_append, ← Nat.add_assoc] at ih
    have hrow := Stretches.cons (allBlank_iff.mp hblanks) ih
    have hstart : t.pos.toNat = before.length + blanks.length := by omega
    rw [List.map_cons, stop_cons hpos]
    simpa [TokenSpan.start, hstart, Nat.add_assoc] using hrow

/-! ### Neighbours -/

/-- In front of the first span are the descendant combinators that the blanks are. -/
theorem head_gaps (h : Laid before left ahead row) :
    ∀ s ∈ row.head?, ∃ blanks : Text, s.start = before.length + blanks.length ∧
      s.gaps = gapsBetween left blanks s.token := by
  cases h with
  | @done before blanks left _ =>
    rintro s ⟨⟩
    refine ⟨ahead, rfl, ?_⟩
    simp [gapsBetween, closesGap]
  | @cons before blanks text after left t row _ hpos _ _ =>
    rintro s ⟨⟩
    refine ⟨blanks, ?_, rfl⟩
    show t.pos.toNat = before.length + blanks.length
    omega

theorem joined (h : Laid before left ahead row) : row.IsChain Joined := by
  induction h with
  | done _ => exact .singleton _
  | @cons before blanks text after left t row _ hpos _ hrest ih =>
    refine List.isChain_cons.mpr ⟨fun b hb => ?_, ih⟩
    obtain ⟨between, hstart, hgaps⟩ := hrest.head_gaps b hb
    have hbetween : (between ≠ []) ↔ (before ++ (blanks ++ text)).length < b.start := by
      rw [hstart, ← List.length_pos_iff]
      omega
    simp only [Joined, hgaps, gapsBetween, stop_cons hpos, hbetween]
    rfl

/-! ### Single spans -/

/-- A span is the end, or it is spelled at its place. -/
theorem mem_cases (h : Laid before left ahead row) (hsource : source = before ++ ahead) :
    ∀ s ∈ row, (s.token = ⟨.eof, none, source.length⟩ ∧ s.text = []) ∨
      ∃ front after, source = front ++ (s.text ++ after) ∧ s.token.pos = front.length ∧
        Spelled front after s.behindColons s.token s.text := by
  induction h with
  | done _ =>
    intro s hs
    obtain rfl := List.mem_singleton.mp hs
    exact .inl ⟨by rw [hsource, List.length_append], rfl⟩
  | @cons before blanks text after left t row _ hpos hspelled _ ih =>
    intro s hs
    rcases List.mem_cons.mp hs with rfl | hrest
    · refine .inr ⟨before ++ blanks, after, by rw [hsource, List.append_assoc], ?_, hspelled⟩
      rw [List.length_append]
      exact hpos
    · exact ih (by rw [hsource]; simp) s hrest

/-- The end is the last token and no other one. -/
theorem ending (h : Laid before left ahead row) (hsource : source = before ++ ahead) :
    ∃ others, row.flatMap TokenSpan.tokens = others ++ [⟨.eof, none, source.length⟩] ∧
      ∀ t ∈ others, t.kind ≠ .eof := by
  induction h with
  | done _ =>
    rw [hsource, List.length_append]
    exact ⟨[], rfl, by simp⟩
  | @cons before blanks text after left t row _ _ hspelled _ ih =>
    obtain ⟨others, hothers, hkinds⟩ := ih (by rw [hsource]; simp)
    refine ⟨gapsBetween left blanks t ++ t :: others, ?_, ?_⟩
    · rw [List.flatMap_cons, hothers]
      simp [TokenSpan.tokens]
    · intro token htoken
      rcases List.mem_append.mp htoken with hgap | hbehind
      · have hcombinator := isGap_of_mem_gapsBetween hgap
        rintro heof
        simp [Token.isGap, heof] at hcombinator
      · rcases List.mem_cons.mp hbehind with rfl | hmem
        · exact hspelled.kind_ne_eof
        · exact hkinds token hmem

/-- What is laid out is an account without loss. -/
theorem lossless_tokens (h : Laid [] none source row) :
    Token.Lossless source (row.flatMap TokenSpan.tokens) := by
  have hsource : source = [] ++ source := rfl
  have hspans : Token.spans source (row.flatMap TokenSpan.tokens) = row :=
    h.spansFrom_tokens hsource
  have hcases := h.mem_cases hsource
  constructor
  case covered => rw [hspans]
  case ending => exact h.ending hsource
  case spelled =>
    rw [hspans]
    intro s hs
    rcases hcases s hs with ⟨htoken, htext⟩ | ⟨front, after, hfront, hpos, -⟩
    · exact ⟨by simp [TokenSpan.start, htoken], by simp [htext]⟩
    · have hstart : s.start = front.length := by
        rw [TokenSpan.start, hpos, Int.toNat_natCast]
      refine ⟨by rw [hstart, hpos], ?_⟩
      rw [hstart, hfront, List.drop_left]
      exact List.prefix_append _ _
  case nonempty =>
    rw [hspans]
    intro s hs heof
    rcases hcases s hs with ⟨htoken, -⟩ | ⟨_, _, -, -, hspelled⟩
    · exact absurd (by rw [htoken]) heof
    · exact hspelled.text_ne_nil
  case marks =>
    rw [hspans]
    intro s hs hkind
    rcases hcases s hs with ⟨htoken, -⟩ | ⟨_, _, -, -, hspelled⟩
    · rw [htoken] at hkind
      cases hkind
    · exact hspelled.exists_mark hkind
  case named =>
    rw [hspans]
    intro s hs hkind
    rcases hcases s hs with ⟨htoken, -⟩ | ⟨_, _, hfront, hpos, hspelled⟩
    · rw [htoken] at hkind
      cases hkind
    · exact hspelled.named hkind hfront hpos s.gaps
  case lowered =>
    rw [hspans]
    intro s hs hkind hcolons
    rcases hcases s hs with ⟨htoken, -⟩ | ⟨_, _, -, -, hspelled⟩
    · rw [htoken] at hkind
      cases hkind
    · rw [hcolons] at hspelled
      exact hspelled.lowered hkind
  case ordered =>
    rw [hspans]
    exact List.pairwise_map.mp h.stretches.ordered
  case blanks =>
    rw [hspans]
    intro i c hc houtside
    refine h.stretches.outside hc fun stretch hstretch => ?_
    obtain ⟨s, hs, rfl⟩ := List.mem_map.mp hstretch
    rw [List.length_nil, Nat.zero_add]
    exact houtside s hs
  case first =>
    rw [hspans]
    intro s hs
    obtain ⟨blanks, -, hgaps⟩ := h.head_gaps s hs
    rw [hgaps, gapsBetween, opensBehind]
    simp
  case joined =>
    rw [hspans]
    exact h.joined

end Laid

end TokenSpan

end SelectorCheck
