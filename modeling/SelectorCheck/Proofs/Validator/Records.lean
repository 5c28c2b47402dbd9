import SelectorCheck.Proofs.Selector.Construction
import SelectorCheck.Proofs.Validator.History

/-!
# What a check records

The records of a check tell how the selector was built. If it is accepted they are
those of the functions in its tree, each written as in the selector, and nothing else
is recorded. If it is found wrong they tell what was built until then, and the last
one shows the selector with what is wrong with it. That one goes to a log of its own,
to which nothing else goes.

## Main results

* `Validator.log_of_accepted`, `Validator.log_of_rejected` — the records themselves.
* `Validator.check_log` — how they read.
-/

namespace SelectorCheck.Validator

variable {v : Validator} {selector : Option Text}

/-- A check has the selector as its result exactly if reading it comes to that, strict or not. -/
theorem check_eq_ok_iff {s : Selector} :
    (v.check selector).result = .ok (some s) ↔
      (Selector.parse? v.context selector).result = .ok s := by
  unfold check
  dsimp only
  cases (Selector.parse? v.context selector).result with
  | ok parsed => simp
  | error failure =>
    obtain ⟨context, collecting, strict, held⟩ := v
    cases strict <;> cases collecting <;> simp

/-- The records of a check are those of reading, and one more if the selector is found wrong. -/
theorem log_check (v : Validator) (selector : Option Text) :
    (v.check selector).log = v.settings.records selector := by
  cases hreport : v.settings.report selector with
  | none => rw [check_of_accepted hreport]
  | some diagnostic => rw [check_of_rejected hreport]

/-- A selector that is accepted leaves the records of its functions. -/
theorem log_of_accepted {s : Selector} (h : (v.check selector).result = .ok (some s)) :
    (v.check selector).log = s.functions.map LogRecord.ofFunction := by
  have hresult := check_eq_ok_iff.mp h
  have hnone : v.settings.report selector = none := by
    simp only [Settings.report, settings, hresult]
  rw [log_check, Settings.records, hnone,
    ← (Selector.parse?_recounts v.context selector).ok s hresult]
  simp [settings]

/-- A selector that is found wrong leaves the records of a construction that was broken off, and
behind them the report. -/
theorem log_of_rejected (h : ∀ s, (v.check selector).result ≠ .ok (some s)) :
    ∃ before diagnostic, v.settings.report selector = some diagnostic ∧ Interrupted before ∧
      (v.check selector).log = before ++ [.rejectedSelector selector diagnostic] ∧
      ∀ source ∈ selector, ∀ e, Token.ofSelector source = .error e → before = [] := by
  cases hresult : (Selector.parse? v.context selector).result with
  | ok s => exact absurd (check_eq_ok_iff.mpr hresult) (h s)
  | error failure =>
    have hreport : v.settings.report selector = some (.ofError failure.error selector) := by
      simp only [Settings.report, settings, hresult]
    refine ⟨(Selector.parse? v.context selector).log, _, hreport,
      (Selector.parse?_recounts v.context selector).error failure hresult, ?_, ?_⟩
    · rw [log_check, Settings.records, hreport]
      rfl
    · intro source hsource e he
      obtain rfl := Option.mem_def.mp hsource
      exact Selector.log_parse_of_malformed v.context he

/-- The report shows the selector as it is quoted, and what is wrong with it. -/
theorem line_rejectedSelector (selector : Option Text) (diagnostic : Diagnostic) :
    (LogRecord.rejectedSelector selector diagnostic).line =
      "csspseudo.parser: Rejected selector ".toList ++ Text.quotedOrNone selector ++
        ": ".toList ++ diagnostic.text := by
  have hline : (LogRecord.rejectedSelector selector diagnostic).line =
      "csspseudo.parser".toList ++ ": ".toList ++ ("Rejected selector ".toList ++
        Text.quotedOrNone selector ++ ": ".toList ++ diagnostic.text) := rfl
  have hfront : "csspseudo.parser: Rejected selector ".toList =
      "csspseudo.parser".toList ++ ": ".toList ++ "Rejected selector ".toList := by
    decide +kernel
  rw [hline, hfront]
  simp only [List.append_assoc]

/-- A record of a function that there is not shows its name as it is quoted. -/
theorem line_rejectedFunction (name : Text) :
    (LogRecord.rejectedFunction name).line =
      "csspseudo.pseudo: Rejected pseudo-function ".toList ++ Text.quoted name := by
  have hline : (LogRecord.rejectedFunction name).line =
      "csspseudo.pseudo".toList ++ ": ".toList ++
        ("Rejected pseudo-function ".toList ++ Text.quoted name) := rfl
  have hfront : "csspseudo.pseudo: Rejected pseudo-function ".toList =
      "csspseudo.pseudo".toList ++ ": ".toList ++ "Rejected pseudo-function ".toList := by
    decide +kernel
  rw [hline, hfront]
  simp only [List.append_assoc]

/-- The records of a check are the trace of construction. Those of a selector that is accepted are
one for each function of the tree, in the order in which the functions are written and with a
negation before the function within it. Those of a selector that is found wrong end with the report,
which alone goes to the log of reports. In front of it nothing stands behind a function that there
is not, and nothing at all if the selector cannot be cut into tokens. -/
theorem check_log (v : Validator) (selector : Option Text) :
    (∀ s, (v.check selector).result = .ok (some s) →
      (v.check selector).log.map LogRecord.line =
        s.functions.map fun f => "csspseudo.pseudo: Building ".toList ++ f.text) ∧
    ((∀ s, (v.check selector).result ≠ .ok (some s)) →
      ∃ before diagnostic, v.settings.report selector = some diagnostic ∧
        (v.check selector).log = before ++ [.rejectedSelector selector diagnostic] ∧
        (LogRecord.rejectedSelector selector diagnostic).line =
          "csspseudo.parser: Rejected selector ".toList ++ Text.quotedOrNone selector ++
            ": ".toList ++ diagnostic.text ∧
        (∀ r ∈ before, r.logger = "csspseudo.pseudo".toList) ∧
        (∀ front name back, before = front ++ .rejectedFunction name :: back →
          back = [] ∧ (LogRecord.rejectedFunction name).line =
            "csspseudo.pseudo: Rejected pseudo-function ".toList ++ Text.quoted name) ∧
        ∀ source ∈ selector, ∀ e, Token.ofSelector source = .error e → before = []) := by
  constructor
  · intro s h
    rw [log_of_accepted h, List.map_map]
    exact List.map_congr_left fun f _ => LogRecord.line_ofFunction f
  · intro h
    obtain ⟨before, diagnostic, hreport, hinterrupted, hlog, hmalformed⟩ := log_of_rejected h
    exact ⟨before, diagnostic, hreport, hlog, line_rejectedSelector selector diagnostic,
      hinterrupted.logger, fun _ name _ hbefore =>
        ⟨hinterrupted.eq_nil_of_rejected hbefore, line_rejectedFunction name⟩, hmalformed⟩

/-- A language within a negation, which is accepted, and behind a language a function that cannot be
built within a negation. -/
theorem check_log_of_negations :
    (∃ s, (({} : Validator).check (some "a:not(:lang(en)):nth-child(2)".toList)).result =
        .ok (some s) ∧
      s.functions.map FunctionOf.text =
        [":not(:lang(en))".toList, ":lang(en)".toList, ":nth-child(2)".toList] ∧
      (({} : Validator).check (some "a:not(:lang(en)):nth-child(2)".toList)).log.map
        LogRecord.line = s.functions.map fun f => "csspseudo.pseudo: Building ".toList ++ f.text) ∧
    (∀ s, (({} : Validator).check (some ":lang(en):not(:dir(ltr))".toList)).result ≠ .ok (some s)) ∧
    ∃ before diagnostic,
      (({} : Validator).check (some ":lang(en):not(:dir(ltr))".toList)).log =
        before ++ [.rejectedSelector (some ":lang(en):not(:dir(ltr))".toList) diagnostic] ∧
      before = [.building "lang".toList "en".toList, .building "not".toList ":dir(ltr)".toList,
        .rejectedFunction "dir".toList] ∧
      before.map LogRecord.line = ["csspseudo.pseudo: Building :lang(en)".toList,
        "csspseudo.pseudo: Building :not(:dir(ltr))".toList,
        "csspseudo.pseudo: Rejected pseudo-function 'dir'".toList] := by
  constructor
  · have htexts : (({} : Validator).check
        (some "a:not(:lang(en)):nth-child(2)".toList)).result.map
          (Option.map fun s => s.functions.map FunctionOf.text) =
        .ok (some [":not(:lang(en))".toList, ":lang(en)".toList, ":nth-child(2)".toList]) := by
      decide +kernel
    cases hanswer : (({} : Validator).check
        (some "a:not(:lang(en)):nth-child(2)".toList)).result with
    | error diagnostic =>
      rw [hanswer] at htexts
      cases htexts
    | ok answer =>
      rw [hanswer] at htexts
      obtain ⟨s, rfl, hs⟩ := Option.map_eq_some_iff.mp (Except.ok.inj htexts)
      exact ⟨s, rfl, hs, (check_log {} _).1 s hanswer⟩
  · have hresult : (({} : Validator).check (some ":lang(en):not(:dir(ltr))".toList)).result =
        .ok none := by
      decide +kernel
    have hrejected : ∀ s, (({} : Validator).check
        (some ":lang(en):not(:dir(ltr))".toList)).result ≠ .ok (some s) := by
      intro s h
      rw [hresult] at h
      cases h
    obtain ⟨before, diagnostic, -, hlog, -⟩ := (check_log {} _).2 hrejected
    have hbefore : (({} : Validator).check (some ":lang(en):not(:dir(ltr))".toList)).log.dropLast =
        [.building "lang".toList "en".toList, .building "not".toList ":dir(ltr)".toList,
          .rejectedFunction "dir".toList] := by
      decide +kernel
    rw [hlog, List.dropLast_concat] at hbefore
    refine ⟨hrejected, before, diagnostic, hlog, hbefore, ?_⟩
    rw [hbefore]
    decide +kernel

end SelectorCheck.Validator
