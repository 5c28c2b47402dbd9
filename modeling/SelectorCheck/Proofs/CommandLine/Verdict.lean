import SelectorCheck.CommandLine.Run
import SelectorCheck.Proofs.Validator.History

/-!
# What a command line says about selectors

A command line that checks selectors is a group of words that are no options, with
settings in front of it and behind it. Settings may be cut short, and the value of
one is a word of its own or follows an equals sign. Whatever the way they are
written in, what counts is the last version, the last profile, and whether there
is a strict setting.

The verdict on the selectors is then that of reading each of them under the
context: the status tells whether all are accepted, also where a strict check ends
early, and the reports are those on the rejected ones, in their order.

## Main definitions

* `CommandLine.Setting` — the settings; `CommandLine.Settings.Written` is about
  the words that they are written with.
* `CommandLine.contextOf` — the context that settings stand for.
* `CommandLine.Verdict` — what a command line comes to.

## Main results

* `CommandLine.read_written` — what is read from settings and selectors.
* `CommandLine.check_verdict` — the verdict of a check.
* `CommandLine.run_verdict` — the verdict of a command line.
-/

namespace SelectorCheck.CommandLine

/-! ## Settings -/

/-- The options that say how selectors are checked, with their values. -/
inductive Setting where
  | version (v : Version)
  | profile (p : Profile)
  | strict
deriving DecidableEq

/-- The text is the long name of an option, in full or cut short so that no other option begins
with it. -/
structure Flag.Named (flag : Flag) (t : Text) : Prop where
  hyphens : ['-', '-'] <+: t
  unassigned : '=' ∉ t
  known : ofSpelling? t = some flag ∨ ofSpelling? t = none ∧ beginningWith t = [flag]

instance (flag : Flag) (t : Text) : Decidable (flag.Named t) :=
  decidable_of_iff
    (['-', '-'] <+: t ∧ '=' ∉ t ∧
      (Flag.ofSpelling? t = some flag ∨
        Flag.ofSpelling? t = none ∧ Flag.beginningWith t = [flag]))
    ⟨fun ⟨hhyphens, hunassigned, hknown⟩ => ⟨hhyphens, hunassigned, hknown⟩,
      fun ⟨hhyphens, hunassigned, hknown⟩ => ⟨hhyphens, hunassigned, hknown⟩⟩

/-- The words that a setting is written with. -/
inductive Setting.Written : Setting → List Text → Prop where
  | version {t label : Text} {v : Version} (ht : Flag.version.Named t)
      (hlabel : (label, v) ∈ Label.versions) : Written (.version v) [t, label]
  | assignedVersion {t label : Text} {v : Version} (ht : Flag.version.Named t)
      (hlabel : (label, v) ∈ Label.versions) : Written (.version v) [t ++ '=' :: label]
  | profile {t label : Text} {p : Profile} (ht : Flag.profile.Named t)
      (hlabel : (label, p) ∈ Label.profiles) : Written (.profile p) [t, label]
  | assignedProfile {t label : Text} {p : Profile} (ht : Flag.profile.Named t)
      (hlabel : (label, p) ∈ Label.profiles) : Written (.profile p) [t ++ '=' :: label]
  | strict {t : Text} (ht : Flag.strict.Named t) : Written .strict [t]

/-- The words that settings are written with, one after the other. -/
inductive Settings.Written : List Setting → List Text → Prop where
  | nil : Written [] []
  | cons {s : Setting} {settings : List Setting} {first others : List Text}
      (h : s.Written first) (hothers : Written settings others) :
      Written (s :: settings) (first ++ others)

namespace Setting

/-- The version that a setting chooses. -/
def version? : Setting → Option Version
  | .version v => some v
  | _ => none

/-- The profile that a setting chooses. -/
def profile? : Setting → Option Profile
  | .profile p => some p
  | _ => none

/-- The options with the setting. -/
def apply (o : Options) : Setting → Options
  | .version v => { o with version := some v }
  | .profile p => { o with profile := some p }
  | .strict => { o with strict := true }

end Setting

/-- The context that settings stand for. The last version and the last profile count; where there is
none the standard one holds. -/
def contextOf (settings : List Setting) : Context :=
  ⟨(settings.filterMap Setting.version?).getLast?.getD Context.standard.version,
    (settings.filterMap Setting.profile?).getLast?.getD Context.standard.profile,
    Context.standard.language⟩

/-! ## Words -/

variable {s : Setting} {settings front back : List Setting} {t label : Text} {flag : Flag}
  {word : Word} {words before behind : List Text} {selectors : List Text}

private theorem ofSpelling?_eq_none (h : '=' ∈ t) : Flag.ofSpelling? t = none := by
  have hkeys : ∀ entry ∈ Flag.spellings, '=' ∉ entry.1 := by decide +kernel
  rw [Flag.ofSpelling?, List.lookup_eq_none_iff]
  intro entry hentry
  rw [bne_iff_ne]
  rintro rfl
  exact hkeys entry hentry h

private theorem bne_of_unassigned (h : '=' ∉ t) : ∀ c ∈ t, (c != '=') = true := by
  intro c hc
  rw [bne_iff_ne]
  rintro rfl
  exact h hc

private theorem splitAssignment_of_unassigned (h : '=' ∉ t) : splitAssignment t = (t, none) := by
  rw [splitAssignment, List.dropWhile_eq_nil_iff.mpr (bne_of_unassigned h)]

private theorem splitAssignment_append (h : '=' ∉ t) (value : Text) :
    splitAssignment (t ++ '=' :: value) = (t, some value) := by
  have hall := bne_of_unassigned h
  rw [splitAssignment, List.dropWhile_append_of_pos hall, List.takeWhile_append_of_pos hall]
  simp

/-- The name of an option is that option. -/
theorem classify_named (h : flag.Named t) : classify t = some (.option flag) := by
  obtain ⟨⟨u, rfl⟩, hunassigned, hknown | ⟨hspelling, hbeginning⟩⟩ := h
  · simp only [List.cons_append, List.nil_append] at hknown ⊢
    simp only [classify, hknown]
  · simp only [List.cons_append, List.nil_append] at hunassigned hspelling hbeginning ⊢
    simp only [classify, classifyLong, hspelling, splitAssignment_of_unassigned hunassigned,
      hbeginning, if_true, Word.ofAssignment]

/-- Behind the name of an option and an equals sign stands the value of the option. -/
theorem classify_assigned (h : flag.Named t) (value : Text) :
    classify (t ++ '=' :: value) = some (.assigned flag value) := by
  have hnone : Flag.ofSpelling? (t ++ '=' :: value) = none := ofSpelling?_eq_none (by simp)
  have hsplit := splitAssignment_append h.unassigned value
  obtain ⟨⟨u, rfl⟩, -, hknown⟩ := h
  simp only [List.cons_append, List.nil_append] at hnone hsplit hknown ⊢
  rcases hknown with hknown | ⟨hspelling, hbeginning⟩
  · simp [classify, hnone, hsplit, hknown]
  · simp [classify, classifyLong, hnone, hsplit, hspelling, hbeginning, Word.ofAssignment]

/-- A word that no hyphen begins is a selector or a value. -/
theorem classify_plain (h : t.head? ≠ some '-') : classify t = some (.plain t) := by
  unfold classify
  split
  · exact absurd rfl h
  · rfl

theorem classifyAll_cons (h : classify t = some word) (hseparator : t ≠ ['-', '-'])
    (rest : List Text) : classifyAll (t :: rest) = (classifyAll rest).map (word :: ·) := by
  rw [classifyAll, if_neg hseparator, h]

/-! ## Reading settings -/

/-- The reading with settings. -/
def Reading.settle (r : Reading) (settings : List Setting) : Reading :=
  { r with options := settings.foldl Setting.apply r.options }

/-- The words are classified one by one as `ws`, whatever stands behind them. -/
def ClassifiedAs (words : List Text) (ws : List Word) : Prop :=
  ∀ rest, classifyAll (words ++ rest) = (classifyAll rest).map (ws ++ ·)

theorem ClassifiedAs.append {ws others : List Word} (h : ClassifiedAs before ws)
    (hothers : ClassifiedAs behind others) : ClassifiedAs (before ++ behind) (ws ++ others) := by
  intro rest
  rw [List.append_assoc, h, hothers, Option.map_map]
  simp [Function.comp_def]

theorem classifiedAs_singleton (h : classify t = some word) (hseparator : t ≠ ['-', '-']) :
    ClassifiedAs [t] [word] :=
  classifyAll_cons h hseparator

theorem classifiedAs_plain (h : ∀ t ∈ selectors, t.head? ≠ some '-') :
    ClassifiedAs selectors (selectors.map .plain) := by
  induction selectors with
  | nil => exact fun rest => by simp
  | cons first others ih =>
    obtain ⟨hfirst, hothers⟩ := List.forall_mem_cons.mp h
    have hseparator : first ≠ ['-', '-'] := by
      rintro rfl
      exact hfirst rfl
    exact (classifiedAs_singleton (classify_plain hfirst) hseparator).append (ih hothers)

theorem Flag.Named.ne_separator (h : flag.Named t) : t ≠ ['-', '-'] := by
  rintro rfl
  have hnone : ofSpelling? ['-', '-'] = none := by decide
  have hmany : (beginningWith ['-', '-']).length ≠ 1 := by decide
  rcases h.known with hknown | ⟨-, hbeginning⟩
  · rw [hnone] at hknown
    cases hknown
  · rw [hbeginning] at hmany
    exact hmany rfl

/-- The words are read as the setting, whatever stands around them. A group of selectors in front of
them ends. -/
def Setting.ReadFrom (s : Setting) (words : List Text) : Prop :=
  ∃ ws, ClassifiedAs words ws ∧ ∀ r pending rest,
    readWords r pending (ws ++ rest) = readWords ((r.close pending).settle [s]) [] rest

/-- An option whose value is the next word. -/
private theorem readFrom_value (ht : flag.Named t) (htakes : flag.takesValue = true)
    (hlabel : label.head? ≠ some '-')
    (hassign : ∀ r : Reading, r.assign flag label = some (r.settle [s])) :
    s.ReadFrom [t, label] := by
  have hseparator : label ≠ ['-', '-'] := by
    rintro rfl
    exact hlabel rfl
  refine ⟨[.option flag, .plain label], ?_, fun r pending rest => ?_⟩
  · exact (classifiedAs_singleton (classify_named ht) ht.ne_separator).append
      (classifiedAs_singleton (classify_plain hlabel) hseparator)
  · simp only [List.cons_append, List.nil_append, readWords, htakes, if_true, hassign]

/-- An option whose value follows an equals sign. -/
private theorem readFrom_assigned (ht : flag.Named t)
    (hassign : ∀ r : Reading, r.assign flag label = some (r.settle [s])) :
    s.ReadFrom [t ++ '=' :: label] := by
  have hseparator : t ++ '=' :: label ≠ ['-', '-'] := by
    intro heq
    have hmem : '=' ∈ t ++ '=' :: label := by simp
    rw [heq] at hmem
    revert hmem
    decide
  refine ⟨[.assigned flag label], ?_, fun r pending rest => ?_⟩
  · exact classifiedAs_singleton (classify_assigned ht label) hseparator
  · simp only [List.cons_append, List.nil_append, readWords, hassign]

/-- An option whose values are the labels of a table may be written both ways. -/
private theorem readFrom_labelled {α : Type} {table : List (Text × α)} {a : α}
    (ht : flag.Named t) (htakes : flag.takesValue = true)
    (htable : ∀ entry ∈ table, table.lookup entry.1 = some entry.2 ∧ entry.1.head? ≠ some '-')
    (hassign : ∀ r : Reading, choice (table.lookup ·) label = some (some a) →
      r.assign flag label = some (r.settle [s]))
    (hlabel : (label, a) ∈ table) :
    s.ReadFrom [t, label] ∧ s.ReadFrom [t ++ '=' :: label] := by
  obtain ⟨hlookup, hhead⟩ := htable _ hlabel
  have hseparator : label ≠ ['-', '-'] := by
    rintro rfl
    exact hhead rfl
  have hchoice : choice (table.lookup ·) label = some (some a) := by
    rw [choice, if_neg hseparator, hlookup]
    rfl
  exact ⟨readFrom_value ht htakes hhead (hassign · hchoice),
    readFrom_assigned ht (hassign · hchoice)⟩

private theorem readFrom_version {v : Version} (ht : Flag.version.Named t)
    (hlabel : (label, v) ∈ Label.versions) :
    (Setting.version v).ReadFrom [t, label] ∧ (Setting.version v).ReadFrom [t ++ '=' :: label] := by
  refine readFrom_labelled ht rfl (by decide +kernel) (fun r hchoice => ?_) hlabel
  simp only [Reading.assign, hchoice, Option.map_some]
  rfl

private theorem readFrom_profile {p : Profile} (ht : Flag.profile.Named t)
    (hlabel : (label, p) ∈ Label.profiles) :
    (Setting.profile p).ReadFrom [t, label] ∧ (Setting.profile p).ReadFrom [t ++ '=' :: label] := by
  refine readFrom_labelled ht rfl (by decide +kernel) (fun r hchoice => ?_) hlabel
  simp only [Reading.assign, hchoice, Option.map_some]
  rfl

/-- However a setting is written, it is read. -/
theorem Setting.Written.readFrom (h : s.Written words) : s.ReadFrom words := by
  cases h with
  | version ht hlabel => exact (readFrom_version ht hlabel).1
  | assignedVersion ht hlabel => exact (readFrom_version ht hlabel).2
  | profile ht hlabel => exact (readFrom_profile ht hlabel).1
  | assignedProfile ht hlabel => exact (readFrom_profile ht hlabel).2
  | strict ht =>
    refine ⟨[.option .strict], classifiedAs_singleton (classify_named ht) ht.ne_separator, ?_⟩
    intro r pending rest
    rw [List.singleton_append, readWords.eq_def]
    rfl

/-- Settings are read one after the other, from where there is no group of selectors to end. -/
theorem Settings.Written.read (h : Written settings words) :
    ∃ ws, ClassifiedAs words ws ∧ ∀ r rest,
      readWords r [] (ws ++ rest) = readWords (r.settle settings) [] rest := by
  induction h with
  | nil => exact ⟨[], fun rest => by simp, fun r rest => rfl⟩
  | cons hfirst _ ih =>
    obtain ⟨ws, hclassified, hread⟩ := hfirst.readFrom
    obtain ⟨others, hothers, hrest⟩ := ih
    refine ⟨ws ++ others, hclassified.append hothers, fun r rest => ?_⟩
    rw [List.append_assoc, hread, hrest]
    rfl

theorem readWords_end {r : Reading} (h : r.grouped = true) : readWords r [] [] = r.finish := by
  have hgroup : r.group [] = r := by
    obtain ⟨options, grouped, surplus⟩ := r
    obtain rfl : grouped = true := h
    simp [Reading.group]
  rw [readWords, List.reverse_nil, hgroup]

/-- Behind a group of selectors settings end the group, and so does the end. -/
theorem Settings.Written.finish (h : Written settings words) :
    ∃ ws, ClassifiedAs words ws ∧ ∀ r pending, r.grouped = false → pending ≠ [] →
      readWords r pending ws = ((r.group pending.reverse).settle settings).finish := by
  cases h with
  | nil => exact ⟨[], fun rest => by simp, fun r pending _ _ => rfl⟩
  | @cons s others _ _ hfirst hothers =>
    obtain ⟨ws, hclassified, hread⟩ := hfirst.readFrom
    obtain ⟨behind, hbehind, hrest⟩ := hothers.read
    refine ⟨ws ++ behind, hclassified.append hbehind, fun r pending hgrouped hpending => ?_⟩
    have hclose : r.close pending = r.group pending.reverse := by
      rw [Reading.close, List.isEmpty_eq_false_iff.mpr hpending]
      rfl
    have hend : (((r.group pending.reverse).settle [s]).settle others).grouped = true := by
      show (r.group pending.reverse).grouped = true
      rw [Reading.group, hgrouped]
      rfl
    have hfinish := hrest ((r.group pending.reverse).settle [s]) []
    rw [List.append_nil, readWords_end hend] at hfinish
    rw [hread, hclose, hfinish]
    rfl

theorem readWords_plain (r : Reading) (pending selectors : List Text) (rest : List Word) :
    readWords r pending (selectors.map .plain ++ rest) =
      readWords r (selectors.reverse ++ pending) rest := by
  induction selectors generalizing pending with
  | nil => rfl
  | cons first others ih =>
    rw [List.map_cons, List.cons_append, readWords, ih]
    simp

/-! ## Options -/

/-- What settings make of options. -/
theorem foldl_apply (o : Options) (settings : List Setting) :
    settings.foldl Setting.apply o =
      { o with
        version := (settings.filterMap Setting.version?).getLast?.elim o.version some
        profile := (settings.filterMap Setting.profile?).getLast?.elim o.profile some
        strict := o.strict || decide (.strict ∈ settings) } := by
  induction settings generalizing o with
  | nil => simp
  | cons s others ih =>
    rw [List.foldl_cons, ih]
    cases s with
    | version v =>
      simp only [Setting.apply, Setting.version?, Setting.profile?, List.filterMap_cons,
        List.getLast?_cons, List.mem_cons, reduceCtorEq, false_or]
      cases (others.filterMap Setting.version?).getLast? <;> rfl
    | profile p =>
      simp only [Setting.apply, Setting.version?, Setting.profile?, List.filterMap_cons,
        List.getLast?_cons, List.mem_cons, reduceCtorEq, false_or]
      cases (others.filterMap Setting.profile?).getLast? <;> rfl
    | strict => simp [Setting.apply, Setting.version?, Setting.profile?]

/-- The options that settings in front of selectors and behind them come to. -/
def optionsOf (settings : List Setting) (selectors : List Text) : Options :=
  { version := some (contextOf settings).version
    profile := some (contextOf settings).profile
    strict := decide (.strict ∈ settings)
    selectors := selectors }

private theorem foldl_apply_group (front back : List Setting) (selectors : List Text) :
    back.foldl Setting.apply { front.foldl Setting.apply {} with selectors := selectors } =
      optionsOf (front ++ back) selectors := by
  have hgroup : ∀ o : Options, back.foldl Setting.apply { o with selectors := selectors } =
      { back.foldl Setting.apply o with selectors := selectors } := by
    intro o
    rw [foldl_apply, foldl_apply o]
  rw [hgroup, ← List.foldl_append, foldl_apply]
  unfold optionsOf contextOf
  cases ((front ++ back).filterMap Setting.version?).getLast? <;>
    cases ((front ++ back).filterMap Setting.profile?).getLast? <;>
      simp

/-- What is read from settings and selectors. -/
theorem read_written (hfront : Settings.Written front before) (hback : Settings.Written back behind)
    (hne : selectors ≠ []) (hplain : ∀ t ∈ selectors, t.head? ≠ some '-') :
    read (before ++ (selectors ++ behind)) = .run (optionsOf (front ++ back) selectors) := by
  obtain ⟨ws, hclassified, hread⟩ := hfront.read
  obtain ⟨others, hothers, hfinish⟩ := hback.finish
  have hall := (hclassified.append ((classifiedAs_plain hplain).append hothers)) []
  rw [List.append_nil, classifyAll, Option.map_some, List.append_nil] at hall
  have hreverse : selectors.reverse ≠ [] := by simpa using hne
  have hgrouped : (Reading.group (Reading.settle {} front) selectors).settle back =
      ⟨optionsOf (front ++ back) selectors, true, false⟩ := by
    rw [← foldl_apply_group]
    rfl
  have hisEmpty : selectors.isEmpty = false := List.isEmpty_eq_false_iff.mpr hne
  rw [read, hall]
  show readWords {} [] (ws ++ (selectors.map .plain ++ others)) = _
  rw [hread, readWords_plain, List.append_nil, hfinish _ _ rfl hreverse, List.reverse_reverse,
    hgrouped]
  simp [Reading.finish, optionsOf, hisEmpty]

/-! ## Checking -/

/-- The report on a selector that is rejected under the context. -/
def report (context : Context) (selector : Text) : Option Diagnostic :=
  match (Selector.parse (some context) selector).result with
  | .ok _ => none
  | .error failure => some (.ofError failure.error (some selector))

/-- The verdict on selectors under a context. -/
structure Verdict (context : Context) (strict : Bool) (selectors : List Text) (outcome : Outcome) :
    Prop where
  accepted : outcome.status = 0 ↔
    ∀ t ∈ selectors, ∃ tree, (Selector.parse (some context) t).result = .ok tree
  rejected : outcome.status = 1 ↔
    ∃ t ∈ selectors, ∃ f, (Selector.parse (some context) t).result = .error f
  stdout : outcome.stdout = []
  /-- The reports, each with the end of its line behind it. -/
  lenient : strict = false →
    outcome.stderr = some ((selectors.filterMap (report context)).flatMap fun d => d.text ++ ['\n'])
  /-- The first report, if there is one. -/
  strict : strict = true →
    outcome.stderr =
      some (((selectors.filterMap (report context)).take 1).flatMap fun d => d.text ++ ['\n'])

theorem report_eq_none_iff {context : Context} :
    report context t = none ↔ ∃ tree, (Selector.parse (some context) t).result = .ok tree := by
  unfold report
  cases (Selector.parse (some context) t).result <;> simp

theorem report_ne_none_iff {context : Context} :
    report context t ≠ none ↔ ∃ f, (Selector.parse (some context) t).result = .error f := by
  unfold report
  cases (Selector.parse (some context) t).result <;> simp

/-- What a check reports. -/
def reports (context : Context) (strict : Bool) (selectors : List Text) : List Diagnostic :=
  if strict then (selectors.filterMap (report context)).take 1
  else selectors.filterMap (report context)

/-- A validator collects the reports or, if it is strict, ends with the first one. -/
private theorem reports_of_checkAll (context : Context) (strict : Bool) (selectors : List Text) :
    let checked := Validator.checkAll { context := some context, strict := strict }
      (selectors.map some)
    (match checked.result with
      | .ok _ => checked.validator.collected
      | .error diagnostic => [diagnostic]) = reports context strict selectors := by
  let v : Validator := { context := some context, strict := strict }
  have hreports : selectors.filterMap (report context) =
      (selectors.map some).filterMap v.settings.report := by
    rw [List.filterMap_map]
    rfl
  dsimp only
  unfold reports
  rw [hreports]
  cases strict with
  | false =>
    have hcollected : Validator.Event.collected ∘ Validator.Event.examined v.settings =
        v.settings.report := by
      funext t
      simp [Validator.Event.collected, v, Validator.settings]
    rw [Validator.checkAll_of_lenient rfl, List.filterMap_map, hcollected]
    rfl
  | true =>
    rcases v.settings.first_report (selectors.map some) with
      hall | ⟨accepted, t, rest, diagnostic, hsplit, haccepted, ht⟩
    · rw [Validator.checkAll_of_accepted hall, List.filterMap_eq_nil_iff.mpr hall]
      rfl
    · rw [hsplit, Validator.checkAll_of_rejected rfl haccepted ht, List.filterMap_append,
        List.filterMap_eq_nil_iff.mpr haccepted, List.filterMap_cons_some ht]
      rfl

/-- The verdict of a check. -/
theorem check_verdict (context : Context) {o : Options} (h : o.verbose = false) :
    Verdict context o.strict o.selectors (check context o) := by
  have hcheck : check context o =
      { status := if (reports context o.strict o.selectors).isEmpty then 0 else 1
        stdout := []
        stderr := some ((reports context o.strict o.selectors).flatMap fun d =>
          d.text ++ ['\n']) } := by
    obtain ⟨version, profile, list, strict, verbose, selectors⟩ := o
    obtain rfl : verbose = false := h
    rw [← reports_of_checkAll, ← List.flatMap_map Diagnostic.text (· ++ ['\n'])]
    rfl
  have hnone : (reports context o.strict o.selectors).isEmpty = true ↔
      ∀ t ∈ o.selectors, report context t = none := by
    unfold reports
    rw [List.isEmpty_iff]
    split
    · rw [List.take_eq_nil_iff]
      simp
    · exact List.filterMap_eq_nil_iff
  rw [hcheck]
  constructor
  case accepted =>
    simp only [← report_eq_none_iff, ← hnone]
    split <;> simp [*]
  case rejected =>
    have hsome : (∃ t ∈ o.selectors, report context t ≠ none) ↔
        ¬ ∀ t ∈ o.selectors, report context t = none := by
      simp
    simp only [← report_ne_none_iff, hsome, ← hnone]
    split <;> simp [*]
  case stdout => rfl
  case lenient =>
    intro hstrict
    simp only [reports, hstrict, Bool.false_eq_true, if_false]
  case strict =>
    intro hstrict
    simp only [reports, hstrict, if_true]

/-- The verdict of a command line of selectors, with settings in front of them and behind them. -/
theorem run_verdict (hfront : Settings.Written front before) (hback : Settings.Written back behind)
    (hne : selectors ≠ []) (hplain : ∀ t ∈ selectors, t.head? ≠ some '-') :
    ∃ outcome, run (before ++ (selectors ++ behind)) = .ok outcome ∧
      Verdict (contextOf (front ++ back)) (decide (.strict ∈ front ++ back)) selectors outcome := by
  have hread := read_written hfront hback hne hplain
  have hcontext : (optionsOf (front ++ back) selectors).context =
      .ok (contextOf (front ++ back)) := rfl
  have hlist : (optionsOf (front ++ back) selectors).list = none := rfl
  refine ⟨check (contextOf (front ++ back)) (optionsOf (front ++ back) selectors), ?_, ?_⟩
  · simp only [run, hread, hcontext, hlist]
  · exact check_verdict (o := optionsOf (front ++ back) selectors) _ rfl

/-- Accepted and rejected selectors between two versions, the second of which counts, and in front
of a strict setting that is cut short. Without that one both rejected ones are reported. -/
theorem run_verdict_mixed :
    let selectors := ["a".toList, "a:hover".toList, "".toList, "b:link".toList]
    (∃ outcome, run (["--css-version".toList, "css3".toList] ++
          (selectors ++ ["--css=css1".toList, "--str".toList])) = .ok outcome ∧
      outcome.status = 1 ∧
      outcome.stderr =
        some "a:hover:3: unknown-pseudo-class - Unknown pseudo-class :hover\n".toList ∧
      Verdict ⟨.css1, .general, some "en".toList⟩ true selectors outcome) ∧
    ∃ outcome, run (["--css-version".toList, "css3".toList] ++
          (selectors ++ ["--css=css1".toList])) = .ok outcome ∧
      outcome.stderr =
        some ("a:hover:3: unknown-pseudo-class - Unknown pseudo-class :hover\n".toList ++
          ":1: empty-selector - Empty selector\n".toList) ∧
      Verdict ⟨.css1, .general, some "en".toList⟩ false selectors outcome := by
  intro selectors
  have hfront : Settings.Written [.version .css3] ["--css-version".toList, "css3".toList] :=
    .cons (.version (by decide +kernel) (by decide)) .nil
  have hversion : (Setting.version .css1).Written ["--css=css1".toList] :=
    .assignedVersion (t := "--css".toList) (by decide +kernel) (by decide)
  have hstrict : Setting.strict.Written ["--str".toList] := .strict (by decide +kernel)
  have hne : selectors ≠ [] := by decide
  have hplain : ∀ t ∈ selectors, t.head? ≠ some '-' := by decide
  constructor
  · obtain ⟨outcome, hrun, hverdict⟩ :=
      run_verdict hfront (.cons hversion (.cons hstrict .nil)) hne hplain
    have hstderr : outcome.stderr = some _ := hverdict.strict rfl
    refine ⟨outcome, hrun, hverdict.rejected.mpr ⟨"a:hover".toList, by decide, ?_⟩, ?_, hverdict⟩
    · rw [← report_ne_none_iff]
      decide +kernel
    · rw [hstderr]
      decide +kernel
  · obtain ⟨outcome, hrun, hverdict⟩ := run_verdict hfront (.cons hversion .nil) hne hplain
    have hstderr : outcome.stderr = some _ := hverdict.lenient rfl
    refine ⟨outcome, hrun, ?_, hverdict⟩
    rw [hstderr]
    decide +kernel

end SelectorCheck.CommandLine
