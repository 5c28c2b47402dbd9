import SelectorCheck.Proofs.Argument.Balanced
import SelectorCheck.Token.Lexer

/-!
# Where an argument is closed

Behind a backslash in a quotation the lexer takes two characters at once, so it may
come out behind the end of the text, and whether it has found a parenthesis is told
by the character that it stops at. That this character closes the argument, and not
some parenthesis within it, is a matter of what is open behind every character on
the way: how many parentheses, which quotation, and a backslash in it.

Looked at in this way, one character after the other, the argument is closed by the
first character behind which no parenthesis is open. There the reader stops. If
there is none, it stops behind the text and reports the parenthesis as missing at
the end.

## Main definitions

* `RawArgument.Balance.StaysOpen` — the parenthesis in front stays open.
* `RawArgument.ClosedAt` — no parenthesis is open behind a character.
* `Lexer.readArgument` — the argument text at a place.

## Main results

* `RawArgument.scan_follows` — a scan ends where the parenthesis is closed.
* `Lexer.argument_eq_readArgument` — the tokens of an argument by its text.
* `Lexer.readArgument_exact` — where the reader stops, and with what.
-/

namespace SelectorCheck

namespace RawArgument

/-! ## What stays open -/

namespace Balance

variable {b : Balance} {c : Char} {t : Text}

/-- The parenthesis in front of the text stays open all over the text. -/
def StaysOpen (b : Balance) (t : Text) : Prop := ∀ u, u <+: t → (b.behind u).depth ≠ 0

theorem staysOpen_nil (h : b.depth ≠ 0) : b.StaysOpen [] := by
  intro u hu
  rw [List.prefix_nil.mp hu]
  exact h

/-- One more character in front, and what it opens or closes. -/
theorem StaysOpen.cons (h : b.depth ≠ 0) (ht : (b.step c).StaysOpen t) : b.StaysOpen (c :: t) := by
  intro u hu
  cases u with
  | nil => exact h
  | cons d u =>
    obtain ⟨rfl, htail⟩ := List.cons_prefix_cons.mp hu
    exact ht u htail

end Balance

/-! ## What a scan comes to -/

/-- What reading the text `t` at position `pos` comes to if it follows what is open: the text in
front of the parenthesis that closes the one in front, or a place behind the text. -/
inductive Follows (b : Balance) (pos : Nat) (t : Text) : Except Cursor (Text × Cursor) → Prop where
  | closed {content after : Text} (ht : t = content ++ ')' :: after) (hopen : b.StaysOpen content)
      (hclosed : (b.behind (content ++ [')'])).depth = 0) :
      Follows b pos t (.ok (content, ⟨pos + content.length, ')' :: after⟩))
  | unclosed {place : Cursor} (hopen : b.StaysOpen t)
      (hplace : place.pos = pos + t.length ∨ place.pos = pos + t.length + 1) :
      Follows b pos t (.error place)

variable {b : Balance} {pos : Nat} {c : Char} {t : Text} {outcome : Except Cursor (Text × Cursor)}

/-- A character that does not close the parenthesis in front is passed. -/
theorem Follows.passing (h : b.depth ≠ 0) (ht : Follows (b.step c) (pos + 1) t outcome) :
    Follows b pos (c :: t) (passing c outcome) := by
  cases ht with
  | @closed content after ht hopen hclosed =>
    have hplace : pos + 1 + content.length = pos + (c :: content).length := by
      rw [List.length_cons]
      omega
    have hsplit : c :: t = (c :: content) ++ ')' :: after := by rw [ht, List.cons_append]
    show Follows b pos (c :: t) (.ok (c :: content, ⟨pos + 1 + content.length, ')' :: after⟩))
    rw [hplace]
    exact .closed hsplit (hopen.cons h) hclosed
  | unclosed hopen hplace =>
    refine .unclosed (hopen.cons h) ?_
    rw [List.length_cons]
    omega

/-- A scan ends at the character that closes the parenthesis in front, or behind the text. -/
theorem scan_follows (depth : Nat) (mark : Option Char) (pos : Nat) (t : Text) :
    Follows ⟨depth + 1, mark, false⟩ pos t (scan depth mark pos t) := by
  fun_induction scan depth mark pos t with
  | case1 depth mark pos => exact .unclosed (Balance.staysOpen_nil (Nat.succ_ne_zero _)) (.inl rfl)
  | case2 depth mark pos c hescape =>
    -- The backslash takes away the meaning of a character that is not there.
    have hstep : (Balance.step ⟨depth + 1, some mark, false⟩ c).depth ≠ 0 := by
      simp_all [Balance.step]
    exact .unclosed ((Balance.staysOpen_nil hstep).cons (Nat.succ_ne_zero _)) (.inr rfl)
  | case3 depth mark pos c hescape d rest ih =>
    obtain rfl : c = backslash := by simpa using hescape
    refine .passing (Nat.succ_ne_zero _) (.passing ?_ ?_)
    · simp [Balance.step]
    · simpa [Balance.step] using ih
  | case4 depth mark pos c rest hescape hmark ih
  | case5 depth mark pos c rest hescape hmark ih
  | case6 depth pos c rest hquote ih
  | case7 depth pos c rest hquote hopen ih
  | case9 pos c rest hquote hopen hclose depth ih
  | case10 depth pos c rest hquote hopen hclose ih =>
    refine .passing (Nat.succ_ne_zero _) ?_
    simp_all [Balance.step]
  | case8 pos c rest hquote hopen hclose =>
    obtain rfl : c = ')' := by simpa using hclose
    exact .closed rfl (Balance.staysOpen_nil (Nat.succ_ne_zero _)) rfl

/-! ## The character that closes an argument -/

/-- In an argument that begins at `start`, no parenthesis is open behind the character at `p`. One
is open at the start. -/
def ClosedAt (source : Text) (start p : Nat) : Prop :=
  start ≤ p ∧ p < source.length ∧
    (Balance.start.behind ((source.drop start).take (p + 1 - start))).depth = 0

instance (source : Text) (start p : Nat) : Decidable (ClosedAt source start p) :=
  inferInstanceAs (Decidable (_ ∧ _ ∧ _))

variable {source content after : Text} {start p : Nat}

/-- Where the parenthesis stays open, nothing has closed it. -/
theorem not_closedAt_of_staysOpen (h : Balance.start.StaysOpen content)
    (hsource : source.drop start = content ++ after) (hp : p < start + content.length) :
    ¬ ClosedAt source start p := by
  rintro ⟨-, -, hclosed⟩
  have hlength : p + 1 - start ≤ content.length := by omega
  rw [hsource, List.take_append_of_le_length hlength] at hclosed
  exact h _ (List.take_prefix _ content) hclosed

/-- The first character that closes the parenthesis stands behind what leaves it open. -/
theorem closedAt_of_closed (hclosed : (Balance.start.behind (content ++ [')'])).depth = 0)
    (hsource : source.drop start = content ++ ')' :: after) :
    ClosedAt source start (start + content.length) := by
  have hlength := congrArg List.length hsource
  simp only [List.length_drop, List.length_append, List.length_cons] at hlength
  have htake : (source.drop start).take (start + content.length + 1 - start) =
      content ++ [')'] := by
    rw [hsource, ← List.singleton_append (l := after), ← List.append_assoc]
    refine List.take_left' ?_
    simp only [List.length_append, List.length_singleton]
    omega
  refine ⟨Nat.le_add_right .., by omega, ?_⟩
  rw [htake]
  exact hclosed

/-- The first character that closes the parenthesis is the one behind what leaves it open. -/
theorem eq_of_closedAt_first (hopen : Balance.start.StaysOpen content)
    (hclosed : (Balance.start.behind (content ++ [')'])).depth = 0)
    (hsource : source.drop start = content ++ ')' :: after) (hp : ClosedAt source start p)
    (hleast : ∀ q, ClosedAt source start q → p ≤ q) : p = start + content.length := by
  have hle : p ≤ start + content.length := hleast _ (closedAt_of_closed hclosed hsource)
  have hge : ¬ p < start + content.length := fun hlt =>
    not_closedAt_of_staysOpen hopen hsource hlt hp
  omega

/-- Where the parenthesis stays open up to the end, nothing closes it. -/
theorem not_closedAt_of_unclosed (hopen : Balance.start.StaysOpen (source.drop start)) (p : Nat) :
    ¬ ClosedAt source start p := by
  intro hp
  have hinside : p < start + (source.drop start).length := by
    have hlt : p < source.length := hp.2.1
    rw [List.length_drop]
    omega
  exact not_closedAt_of_staysOpen hopen (List.append_nil _).symm hinside hp

end RawArgument

/-! ## Reading an argument text -/

namespace Lexer

open RawArgument Text

/-- The argument text that begins at a place, without the blanks at its end, and the place of the
parenthesis that closes it. Otherwise the place where the search ended. -/
def readArgument (source : Text) (start : Cursor) : Cursor × Except SelectorError Text :=
  match scan 0 none start.pos start.rest with
  | .error place =>
    (place, .error { code := .expectedClosingParen, value := some source,
                     position := some source.length })
  | .ok (content, close) => (close, .ok (trimEnd content))

theorem readArgument_of_closed {source content : Text} {start close : Cursor}
    (h : scan 0 none start.pos start.rest = .ok (content, close)) :
    readArgument source start = (close, .ok (trimEnd content)) := by
  rw [readArgument, h]

theorem readArgument_of_unclosed {source : Text} {start place : Cursor}
    (h : scan 0 none start.pos start.rest = .error place) :
    readArgument source start =
      (place, .error { code := .expectedClosingParen, value := some source,
                       position := some source.length }) := by
  rw [readArgument, h]

/-- An argument is read behind the parenthesis and the blanks there, and its text is a token unless
it is empty. -/
theorem argument_eq_readArgument (source : Text) (c : Cursor) :
    argument source c =
      match readArgument source (c.skip 1).skipBlanks with
      | (place, .error e) => ⟨place, .error e⟩
      | (close, .ok arg) =>
        ⟨close.skip 1, .ok (⟨.parenOpen, none, c.pos⟩ ::
          (if arg = [] then [] else [⟨.string, some arg, (c.skip 1).skipBlanks.pos⟩]) ++
            [⟨.parenClose, none, close.pos⟩])⟩ := by
  unfold argument
  dsimp only
  cases hscan : scan 0 none (c.skip 1).skipBlanks.pos (c.skip 1).skipBlanks.rest with
  | error place => rw [readArgument_of_unclosed hscan]
  | ok found =>
    rw [readArgument_of_closed hscan]
    rfl

variable {source : Text} {start : Nat}

/-- The reader stops at the first character behind which no parenthesis is open, which is a closing
parenthesis, with the text in front of it. If there is no such character it reports a missing
parenthesis at the end of the text; it has stopped there or one place further on. By this reader the
lexer makes the tokens of an argument. -/
theorem readArgument_exact (hstart : start ≤ source.length) :
    ((∃ arg, (readArgument source ⟨start, source.drop start⟩).2 = .ok arg) ↔
      ∃ p, ClosedAt source start p) ∧
    (∀ p, ClosedAt source start p → (∀ q, ClosedAt source start q → p ≤ q) →
      source[p]? = some ')' ∧
      readArgument source ⟨start, source.drop start⟩ =
        (⟨p, source.drop p⟩, .ok (trimEnd ((source.drop start).take (p - start))))) ∧
    ((∀ p, ¬ ClosedAt source start p) →
      ∃ place : Cursor, (place.pos = source.length ∨ place.pos = source.length + 1) ∧
        readArgument source ⟨start, source.drop start⟩ =
          (place, .error { code := .expectedClosingParen, value := some source,
                           position := some source.length })) ∧
    ∀ c : Cursor, argument source c =
      match readArgument source (c.skip 1).skipBlanks with
      | (place, .error e) => ⟨place, .error e⟩
      | (close, .ok arg) =>
        ⟨close.skip 1, .ok (⟨.parenOpen, none, c.pos⟩ ::
          (if arg = [] then [] else [⟨.string, some arg, (c.skip 1).skipBlanks.pos⟩]) ++
            [⟨.parenClose, none, close.pos⟩])⟩ := by
  have hreader := argument_eq_readArgument source
  have hfollows := scan_follows 0 none start (source.drop start)
  generalize hscan : scan 0 none start (source.drop start) = outcome at hfollows
  cases hfollows with
  | @closed content after hsource hopen hclosed =>
    have hread : readArgument source ⟨start, source.drop start⟩ =
        (⟨start + content.length, ')' :: after⟩, .ok (trimEnd content)) :=
      readArgument_of_closed hscan
    have hfirst : ClosedAt source start (start + content.length) :=
      closedAt_of_closed hclosed hsource
    refine ⟨⟨fun _ => ⟨_, hfirst⟩, fun _ => ⟨_, congrArg Prod.snd hread⟩⟩, fun p hp hleast => ?_,
      fun hnone => absurd hfirst (hnone _), hreader⟩
    obtain rfl := eq_of_closedAt_first hopen hclosed hsource hp hleast
    have hrest : source.drop (start + content.length) = ')' :: after := by
      rw [← List.drop_drop, hsource, List.drop_left]
    have htext : (source.drop start).take (start + content.length - start) = content := by
      rw [hsource, Nat.add_sub_cancel_left, List.take_left]
    rw [hread, hrest, htext, ← List.head?_drop, hrest]
    exact ⟨rfl, rfl⟩
  | @unclosed place hopen hplace =>
    have hread : readArgument source ⟨start, source.drop start⟩ =
        (place, .error { code := .expectedClosingParen, value := some source,
                         position := some source.length }) :=
      readArgument_of_unclosed hscan
    have hnone : ∀ p, ¬ ClosedAt source start p := not_closedAt_of_unclosed hopen
    rw [List.length_drop] at hplace
    refine ⟨⟨fun ⟨arg, harg⟩ => ?_, fun ⟨p, hp⟩ => absurd hp (hnone p)⟩,
      fun p hp => absurd hp (hnone p), fun _ => ⟨place, by omega, hread⟩, hreader⟩
    rw [hread] at harg
    cases harg

/-- A parenthesis in a quotation, behind a mark that a backslash stands in front of. -/
theorem readArgument_exact_of_quotation :
    5 ≤ ":not(:lang('\\')') )b".toList.length ∧
      readArgument ":not(:lang('\\')') )b".toList ⟨5, ":lang('\\')') )b".toList⟩ =
        (⟨18, ")b".toList⟩, .ok ":lang('\\')')".toList) := by
  have hstart : 5 ≤ ":not(:lang('\\')') )b".toList.length := by decide
  have hleast : ∀ q < 18, ¬ ClosedAt ":not(:lang('\\')') )b".toList 5 q := by decide
  have hread := (readArgument_exact hstart).2.1 18 (by decide)
    fun q hq => Nat.le_of_not_lt fun hlt => hleast q hlt hq
  exact ⟨hstart, hread.2⟩

end Lexer

end SelectorCheck
