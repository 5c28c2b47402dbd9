import SelectorCheck.Proofs.Access.Lexer
import SelectorCheck.Proofs.Argument.Closing

/-!
# Going on where the lexer stopped

A run of the lexer leaves a place, also where it ends with an error, and the next
run begins there. What the next runs come to depends on the kind of the error. In
front of an offending character the lexer has not moved, so it meets the character
again and again. Where a name is missing it has passed the mark, so it goes on with
what follows. Where an argument is not closed it has passed the rest of the text,
and maybe one character more than there is.

So the lexer never goes back, and it never gets further than one character behind
the text. A run that moves on at an error moves past a mark, and there are no more
marks than characters.

## Main definitions

* `Lexer.Halt` — where a run stops with an error, for each kind of error.
* `Lexer.Resumes` — what holds of a run and of those that go on from it.

## Main results

* `Lexer.halt_of_run`, `Lexer.ended_of_run` — where a run leaves the lexer.
* `Lexer.resumes_run` — what follows for the runs behind it.
* `Lexer.runs_resume` — all of this of any number of runs over a text.
-/

namespace SelectorCheck

open Text

/-! ## Places of a text -/

namespace Cursor.In

variable {t : Text} {c : Cursor}

/-- A cursor with something ahead of it lies in the text, which ends where that ends. -/
theorem pos_add_length (h : c.In t) (hne : c.rest ≠ []) : c.pos + c.rest.length = t.length := by
  obtain ⟨pos, rest⟩ := c
  obtain ⟨ch, rest, rfl⟩ := List.exists_cons_of_ne_nil hne
  have hlt : pos < t.length := h.pos_lt
  have hlength : (ch :: rest).length = t.length - pos := h.length_rest
  show pos + (ch :: rest).length = t.length
  omega

theorem length_le (h : c.In t) (hnil : c.rest = []) : t.length ≤ c.pos := by
  have hlength := h.length_rest
  rw [hnil, List.length_nil] at hlength
  omega

/-- A place further on than one in the text is in the text. -/
theorem pos_le_of_passed {place : Cursor} (h : c.In t) (hplace : c.Ahead place)
    (hpassed : c.pos < place.pos) : place.pos ≤ t.length := by
  have hsum := hplace.length_eq
  have hne : c.rest ≠ [] := by
    intro hnil
    rw [hnil, List.length_nil] at hsum
    omega
  have hend := h.pos_add_length hne
  omega

/-- A place behind the text has nothing ahead. -/
theorem of_length_le (hnil : c.rest = []) (hle : t.length ≤ c.pos) : c.In t := by
  rw [In, hnil, List.drop_eq_nil_iff]
  exact hle

end Cursor.In

theorem Cursor.Ahead.pos_le {c place : Cursor} (h : c.Ahead place) : c.pos ≤ place.pos := by
  obtain ⟨t, -, hpos⟩ := h
  omega

namespace Lexer

open RawArgument

variable {source : Text} {c start place : Cursor} {e : SelectorError}

/-! ## Where a run stops -/

/-- A run that began at `c` stops at `place` with the error `e`. -/
inductive Halt (source : Text) (c place : Cursor) (e : SelectorError) : Prop where
  /-- In front of an offending character. A run that begins there stops there. -/
  | refused (hplace : c.Ahead place)
      (hcode : e.code = .unexpectedCharacter ∨ e.code = .unsupportedAttribute)
      (hposition : e.position = some (place.pos : Int))
      (hagain : ∀ started blanks, run source started blanks place = ⟨place, .error e⟩)
  /-- Behind the text, and there was some ahead, where no parenthesis closed an argument. -/
  | unclosed (hcode : e.code = .expectedClosingParen)
      (hposition : e.position = some (source.length : Int)) (hahead : c.rest ≠ [])
      (hrest : place.rest = [])
      (hpos : place.pos = c.pos + c.rest.length ∨ place.pos = c.pos + c.rest.length + 1)
  /-- Behind a mark that no name follows. -/
  | nameless (hplace : c.Ahead place) (hcode : e.code = .expectedIdentifier)
      (hposition : e.position = some (place.pos : Int)) (hpassed : c.pos < place.pos)

/-- A run may have begun further in front. -/
theorem Halt.of_ahead (hstart : c.Ahead start) (h : Halt source start place e) :
    Halt source c place e := by
  cases h with
  | refused hplace hcode hposition hagain =>
    exact .refused (hstart.trans hplace) hcode hposition hagain
  | unclosed hcode hposition hahead hrest hpos =>
    refine .unclosed hcode hposition ?_ hrest (by rwa [hstart.length_eq] at hpos)
    obtain ⟨t, hsplit, -⟩ := hstart
    rw [hsplit]
    exact List.append_ne_nil_of_right_ne_nil t hahead
  | nameless hplace hcode hposition hpassed =>
    exact .nameless (hstart.trans hplace) hcode hposition
      (Nat.lt_of_le_of_lt hstart.pos_le hpassed)

/-! ### Lexemes -/

private theorem halt_of_marked {kind : TokenKind} {mark ch : Char} {pos : Nat} {after : Text}
    (h : marked source kind mark ⟨pos, ch :: after⟩ = ⟨place, .error e⟩) :
    Halt source ⟨pos, ch :: after⟩ place e := by
  have hbehind : Cursor.Ahead ⟨pos, ch :: after⟩ ⟨pos + 1, after⟩ := ⟨[ch], rfl, rfl⟩
  unfold marked at h
  dsimp only at h
  split at h
  · cases h
    exact .nameless hbehind rfl rfl (Nat.lt_succ_self pos)
  · cases h

private theorem halt_of_argument (hahead : c.rest ≠ [])
    (h : argument source c = ⟨place, .error e⟩) : Halt source c place e := by
  have hstart : c.Ahead (c.skip 1).skipBlanks := (Cursor.Ahead.skip hahead).trans (.skipWhile _ _)
  have hlength := hstart.length_eq
  have hfollows := scan_follows 0 none (c.skip 1).skipBlanks.pos (c.skip 1).skipBlanks.rest
  have hnothing := length_rest_scan_le 0 none (c.skip 1).skipBlanks.pos (c.skip 1).skipBlanks.rest
  unfold argument at h
  cases hscan : scan 0 none (c.skip 1).skipBlanks.pos (c.skip 1).skipBlanks.rest with
  | ok found => simp [hscan] at h
  | error stop =>
    rw [hscan] at hfollows hnothing
    simp only [hscan] at h
    cases h
    cases hfollows with
    | unclosed _ hplace => exact .unclosed rfl rfl hahead hnothing (by omega)

private theorem halt_of_pseudoName {marker : Token} {colons : Text}
    (hstart : c.Ahead start) (hpassed : c.pos < start.pos)
    (h : pseudoName source marker colons start = ⟨place, .error e⟩) : Halt source c place e := by
  unfold pseudoName at h
  dsimp only at h
  split at h
  · cases h
    exact .nameless hstart rfl rfl hpassed
  · split at h
    · next hparen =>
      have hbehind : c.Ahead (start.skipWhile isNameChar) := hstart.trans (.skipWhile _ _)
      have hahead : (start.skipWhile isNameChar).rest ≠ [] := by
        intro hnil
        rw [hnil] at hparen
        cases hparen
      refine .of_ahead hbehind (halt_of_argument hahead ?_)
      cases hargument : argument source (start.skipWhile isNameChar) with
      | mk stop result =>
        rw [hargument] at h
        cases result <;> cases h
        rfl
    · cases h

private theorem halt_of_pseudo {pos : Nat} {after : Text}
    (h : pseudo source ⟨pos, ':' :: after⟩ = ⟨place, .error e⟩) :
    Halt source ⟨pos, ':' :: after⟩ place e := by
  obtain ⟨colons, kind, rest, hsplit, hcolons, hpseudo⟩ := pseudo_cases source pos after
  rw [hpseudo] at h
  refine halt_of_pseudoName ⟨colons, hsplit, rfl⟩ ?_ h
  cases hcolons <;> exact Nat.lt_add_of_pos_right (by decide)

/-- Where a lexeme is not read, the lexer stops at it or behind what it has read of it. -/
theorem halt_of_lexeme {pos : Nat} {ch : Char} {after : Text} (hblank : isBlank ch = false)
    (h : lexeme source pos ch after = ⟨place, .error e⟩) :
    Halt source ⟨pos, ch :: after⟩ place e := by
  -- An error that does not move the lexer is met again by whoever begins there.
  have hrefused : place = ⟨pos, ch :: after⟩ → e.position = some (pos : Int) →
      e.code = .unexpectedCharacter ∨ e.code = .unsupportedAttribute →
      Halt source ⟨pos, ch :: after⟩ place e := by
    rintro rfl hposition hcode
    exact .refused (.refl _) hcode hposition fun started blanks => run_malformed hblank h _ _
  unfold lexeme at h
  dsimp only at h
  split at h
  · cases h
  split at h
  · cases h
  split at h
  · exact halt_of_marked h
  split at h
  · exact halt_of_marked h
  split at h
  · cases h
    exact hrefused rfl rfl (.inr rfl)
  split at h
  · cases h
  split at h
  · next hcolon =>
    obtain rfl : ch = ':' := beq_iff_eq.mp hcolon
    exact halt_of_pseudo h
  split at h
  · cases h
  · cases h
    exact hrefused rfl rfl (.inl rfl)

/-! ### Whole runs -/

private theorem ahead_of_lexeme {pos : Nat} {ch : Char} {after : Text} {tokens : List Token}
    (h : lexeme source pos ch after = ⟨place, .ok tokens⟩) :
    Cursor.Ahead ⟨pos, ch :: after⟩ place := by
  obtain ⟨text, behind, hsplit, rfl, -⟩ := lexeme_eq_ok_iff.mp h
  exact ⟨text, hsplit, rfl⟩

/-- A run with an error stops where a lexeme is not read. -/
theorem halt_of_run {started blanks : Bool} (h : (run source started blanks c).result = .error e) :
    Halt source c (run source started blanks c).place e := by
  fun_induction run source started blanks c with
  | case1 => cases h
  | case2 started blanks pos ch after _ ih => exact .of_ahead ⟨[ch], rfl, rfl⟩ (ih h)
  | case3 started blanks pos ch after hblank stop f hread =>
    cases h
    exact halt_of_lexeme (by simpa using hblank) hread
  | case4 started blanks pos ch after _ behind tokens hread ih =>
    exact .of_ahead (ahead_of_lexeme hread) (ih (result_after_eq_error_iff.mp h))

/-- A run with tokens stops at the end, and the last token says so. -/
theorem ended_of_run {started blanks : Bool} {tokens : List Token}
    (h : (run source started blanks c).result = .ok tokens) :
    c.Ahead (run source started blanks c).place ∧ (run source started blanks c).place.rest = [] ∧
      tokens.getLast? = some ⟨.eof, none, source.length⟩ := by
  fun_induction run source started blanks c generalizing tokens with
  | case1 =>
    cases h
    exact ⟨.refl _, rfl, rfl⟩
  | case2 started blanks pos ch after _ ih =>
    obtain ⟨hplace, hends⟩ := ih h
    exact ⟨Cursor.Ahead.trans ⟨[ch], rfl, rfl⟩ hplace, hends⟩
  | case3 => cases h
  | case4 started blanks pos ch after _ behind first hread ih =>
    obtain ⟨rest, hrest, rfl⟩ := result_after_eq_ok_iff.mp h
    obtain ⟨hplace, hnil, hlast⟩ := ih hrest
    refine ⟨(ahead_of_lexeme hread).trans hplace, hnil, ?_⟩
    rw [List.getLast?_append, hlast, Option.some_or]

/-! ## Runs that go on -/

/-- The end of `source`, alone. -/
def onlyEnd (source : Text) : List Token := [⟨.eof, none, source.length⟩]

/-- Where the lexer is when it began at `start` and the runs `done` are over. -/
def placeAfter (start : Cursor) (done : List Outcome) : Cursor :=
  done.foldl (fun _ o => o.place) start

/-- Whether a run ended because a name was missing. -/
def Outcome.lacksName (o : Outcome) : Bool :=
  match o.result with
  | .error e => e.code = .expectedIdentifier
  | .ok _ => false

/-- What the runs `later` come to where the one in front of them began at `before` and stopped at
`place` with the error `e`. -/
inductive Stopped (source : Text) (before place : Cursor) (e : SelectorError)
    (later : List Outcome) : Prop where
  /-- The lexer stays in front of an offending character. -/
  | refused (hcode : e.code = .unexpectedCharacter ∨ e.code = .unsupportedAttribute)
      (hposition : e.position = some (place.pos : Int))
      (hlater : ∀ next ∈ later, next.result = .error e)
  /-- There is nothing behind an argument that is not closed. -/
  | unclosed (hcode : e.code = .expectedClosingParen) (hplace : source.length ≤ place.pos)
      (hlater : ∀ next ∈ later, next.result = .ok (onlyEnd source))
  /-- The lexer passes a mark without a name. -/
  | nameless (hcode : e.code = .expectedIdentifier) (hposition : e.position = some (place.pos : Int))
      (hpassed : before.pos < place.pos)

/-- What holds of a run over `source` that began at `before` and came to `o`, and of the runs
`later` that went on from there. -/
structure Resumes (source : Text) (before : Cursor) (o : Outcome) (later : List Outcome) : Prop where
  /-- By position, the run takes a round for every character ahead and one for the end at most. -/
  ends : ∀ rounds, source.length - before.pos < rounds →
    Access.run source rounds false false before.pos = Access.Reading.ofExcept o.result
  le_place : before.pos ≤ o.place.pos
  place_le : o.place.pos ≤ source.length + 1
  /-- Behind the end there is only the end. -/
  returned : ∀ tokens, o.result = .ok tokens →
    source.length ≤ o.place.pos ∧ tokens.getLast? = some ⟨.eof, none, source.length⟩ ∧
      ∀ next ∈ later, next.result = .ok (onlyEnd source)
  stopped : ∀ e, o.result = .error e → Stopped source before o.place e later
  position : ∀ e, o.result = .error e →
    ∃ p : Nat, e.position = some (p : Int) ∧ p ≤ source.length

/-- Where a run comes back to the place that it began at, so do all behind it. -/
private theorem result_of_mem_runs {r : Except SelectorError (List Token)} {count : Nat}
    (h : run source false false place = ⟨place, r⟩) :
    ∀ next ∈ runs source count place, next.result = r := by
  induction count with
  | zero => exact fun next hnext => absurd hnext List.not_mem_nil
  | succ count ih =>
    intro next hnext
    rw [runs, h] at hnext
    rcases List.mem_cons.mp hnext with rfl | hbehind
    · rfl
    · exact ih next hbehind

private theorem run_of_nil (hnil : place.rest = []) :
    run source false false place = ⟨place, .ok (onlyEnd source)⟩ := by
  obtain ⟨pos, rest⟩ := place
  subst hnil
  exact run_nil false false

/-- In front of an offending character there is a character. -/
private theorem rest_ne_nil (hagain : run source false false place = ⟨place, .error e⟩) :
    place.rest ≠ [] := by
  intro hnil
  rw [run_of_nil hnil] at hagain
  cases hagain

namespace Halt

variable {count : Nat}

theorem place_in (h : Halt source c place e) (hin : c.In source) : place.In source := by
  cases h with
  | refused hplace _ _ _ | nameless hplace _ _ _ => exact hin.ahead hplace
  | unclosed _ _ hahead hrest hpos =>
    have hend := hin.pos_add_length hahead
    exact .of_length_le hrest (by omega)

theorem le_place (h : Halt source c place e) : c.pos ≤ place.pos := by
  cases h with
  | refused hplace _ _ _ | nameless hplace _ _ _ => exact hplace.pos_le
  | unclosed _ _ _ _ hpos => omega

/-- An error is placed in the text. -/
theorem position_le (h : Halt source c place e) (hin : c.In source) :
    ∃ p : Nat, e.position = some (p : Int) ∧ p ≤ source.length := by
  cases h with
  | refused hplace _ hposition hagain =>
    have hend := (hin.ahead hplace).pos_add_length (rest_ne_nil (hagain false false))
    exact ⟨place.pos, hposition, by omega⟩
  | unclosed _ hposition _ _ _ => exact ⟨source.length, hposition, Nat.le_refl _⟩
  | nameless hplace _ hposition hpassed =>
    exact ⟨place.pos, hposition, hin.pos_le_of_passed hplace hpassed⟩

/-- Only in search of a parenthesis does the lexer get behind the text. -/
theorem place_le (h : Halt source c place e) (hin : c.In source) :
    place.pos ≤ source.length + 1 := by
  obtain ⟨p, hp, hle⟩ := h.position_le hin
  cases h with
  | unclosed _ _ hahead _ hpos =>
    have hend := hin.pos_add_length hahead
    omega
  | refused _ _ hposition _ | nameless _ _ hposition _ =>
    rw [hposition, Option.some.injEq, Int.natCast_inj] at hp
    omega

theorem stopped (h : Halt source c place e) (hin : c.In source) :
    Stopped source c place e (runs source count place) := by
  cases h with
  | refused _ hcode hposition hagain =>
    exact .refused hcode hposition (result_of_mem_runs (hagain false false))
  | unclosed hcode _ hahead hrest hpos =>
    have hend := hin.pos_add_length hahead
    exact .unclosed hcode (by omega) (result_of_mem_runs (run_of_nil hrest))
  | nameless _ hcode hposition hpassed => exact .nameless hcode hposition hpassed

end Halt

/-- The mark of a missing name is passed in the text. -/
theorem pos_lt_of_lacksName (hin : c.In source)
    (h : (run source false false c).lacksName = true) :
    c.pos < (run source false false c).place.pos ∧
      (run source false false c).place.pos ≤ source.length := by
  unfold Outcome.lacksName at h
  cases hresult : (run source false false c).result with
  | ok tokens =>
    rw [hresult] at h
    cases h
  | error e =>
    rw [hresult] at h
    have hcode : e.code = .expectedIdentifier := of_decide_eq_true h
    cases halt_of_run hresult with
    | refused _ hother _ _ => rcases hother with hother | hother <;> cases hcode.symm.trans hother
    | unclosed hother _ _ _ _ => cases hcode.symm.trans hother
    | nameless hplace _ _ hpassed => exact ⟨hpassed, hin.pos_le_of_passed hplace hpassed⟩

section Source

variable (hin : c.In source) (hle : c.pos ≤ source.length + 1)

include hin hle

/-- A run does not go back, and it stays within a character of the text. -/
theorem place_of_run :
    (run source false false c).place.In source ∧ c.pos ≤ (run source false false c).place.pos ∧
      (run source false false c).place.pos ≤ source.length + 1 := by
  cases hresult : (run source false false c).result with
  | error e =>
    have hhalt := halt_of_run hresult
    exact ⟨hhalt.place_in hin, hhalt.le_place, hhalt.place_le hin⟩
  | ok tokens =>
    obtain ⟨hplace, -, -⟩ := ended_of_run hresult
    refine ⟨hin.ahead hplace, hplace.pos_le, ?_⟩
    by_cases hpassed : c.pos < (run source false false c).place.pos
    · exact Nat.le_succ_of_le (hin.pos_le_of_passed hplace hpassed)
    · exact Nat.le_trans (Nat.le_of_not_lt hpassed) hle

/-- What the runs come to that go on from a run. -/
theorem resumes_run (count : Nat) :
    Resumes source c (run source false false c)
      (runs source count (run source false false c).place) := by
  obtain ⟨hplace, hback, hbound⟩ := place_of_run hin hle
  refine ⟨fun rounds hrounds => ?_, hback, hbound, fun tokens htokens => ?_,
    fun e he => (halt_of_run he).stopped hin, fun e he => (halt_of_run he).position_le hin⟩
  · rw [← hin.length_rest] at hrounds
    exact Access.run_eq false false hin hrounds
  · obtain ⟨-, hnil, hlast⟩ := ended_of_run htokens
    exact ⟨hplace.length_le hnil, hlast, result_of_mem_runs (run_of_nil hnil)⟩

/-- Any of a number of runs, with those in front of it and behind it. -/
theorem resumes_of_runs {count : Nat} {earlier later : List Outcome} {o : Outcome}
    (h : runs source count c = earlier ++ o :: later) :
    Resumes source (placeAfter c earlier) o later := by
  induction earlier generalizing c count with
  | nil =>
    cases count with
    | zero => cases h
    | succ count =>
      obtain ⟨rfl, rfl⟩ := List.cons.inj h
      exact resumes_run hin hle count
  | cons first earlier ih =>
    cases count with
    | zero => cases h
    | succ count =>
      obtain ⟨rfl, hrest⟩ := List.cons.inj h
      obtain ⟨hplace, -, hbound⟩ := place_of_run hin hle
      exact ih hplace hbound hrest

/-- A name is missing at most once for every character ahead, because every time a mark is passed
that no run behind it passes again. -/
theorem countP_lacksName_le (count : Nat) :
    (runs source count c).countP Outcome.lacksName ≤ source.length - c.pos := by
  induction count generalizing c with
  | zero => exact Nat.zero_le _
  | succ count ih =>
    obtain ⟨hplace, hback, hbound⟩ := place_of_run hin hle
    have hbehind := ih hplace hbound
    rw [runs, List.countP_cons]
    cases hlacks : (run source false false c).lacksName with
    | false =>
      rw [if_neg Bool.false_ne_true]
      omega
    | true =>
      obtain ⟨hpassed, hinside⟩ := pos_lt_of_lacksName hin hlacks
      rw [if_pos rfl]
      omega

end Source

theorem length_runs (source : Text) (count : Nat) (c : Cursor) :
    (runs source count c).length = count := by
  induction count generalizing c with
  | zero => rfl
  | succ count ih => rw [runs, List.length_cons, ih]

/-- Any number of runs over a text, each of which goes on where the one before it stopped. Every run
ends, none goes back, and none gets further than one character behind the text. Behind a run with
tokens, and behind an argument that is not closed, there is only the end; an offending character is
met by all later runs; and at most as many names are missing as there are characters. -/
theorem runs_resume (source : Text) (count : Nat) :
    (runs source count (.ofText source)).length = count ∧
    (∀ earlier o later, runs source count (.ofText source) = earlier ++ o :: later →
      Resumes source (placeAfter (.ofText source) earlier) o later) ∧
    (runs source count (.ofText source)).countP Outcome.lacksName ≤ source.length := by
  have hin : (Cursor.ofText source).In source := .ofText source
  have hle : (Cursor.ofText source).pos ≤ source.length + 1 := Nat.zero_le _
  exact ⟨length_runs source count _, fun earlier o later h => resumes_of_runs hin hle h,
    countP_lacksName_le hin hle count⟩

/-- The four runs over `#.:a('\`, where `#` and `.` lack their names, and the string behind the
parenthesis ends in a backslash. The third run gets behind the text, which has seven characters. -/
theorem runs_resume_of_overshoot : ∃ earlier o later,
    runs "#.:a('\\".toList 4 (.ofText "#.:a('\\".toList) = earlier ++ o :: later ∧
      earlier.map (fun o => o.place.pos) = [1, 2] ∧ o.place.pos = 8 ∧ later ≠ [] ∧
      Resumes "#.:a('\\".toList (placeAfter (.ofText "#.:a('\\".toList) earlier) o later := by
  obtain ⟨-, hresume, -⟩ := runs_resume "#.:a('\\".toList 4
  exact ⟨_, _, _, rfl, by decide +kernel, by decide +kernel, List.cons_ne_nil _ _,
    hresume [_, _] _ [_] rfl⟩

end Lexer

end SelectorCheck
