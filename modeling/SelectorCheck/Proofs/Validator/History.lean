import Mathlib.Data.List.DropRight
import SelectorCheck.Validator

/-!
# What a validator has collected

Actions change the settings of a validator, examine selectors, and clear what was
collected. The settings at any moment depend on the assignments alone, and the
report on a selector depends on the settings alone. So the history of a validator,
which says what was examined under which settings and when it was cleared, is known
without running it. What is collected is then told by the history: the reports on
the selectors that were examined and found wrong since it was last cleared, while
there was collecting and the validator was not strict.

A strict call ends with the first selector that is found wrong. The selectors
behind it are not in the history, and they leave no records.

## Main definitions

* `Validator.Settings` — what a selector is examined under, with what reading it
  alone comes to.
* `Validator.Settings.history` — what is examined and cleared.
* `Validator.kept` — what a history leaves of what was collected before.
* `Validator.Settings.Accounts` — what an action comes to under the settings.

## Main results

* `Validator.perform_accounted` — one action.
* `Validator.run_accounted` — every step of a run.
-/

namespace SelectorCheck.Validator

/-! ## Settings -/

/-- What a selector is examined under. -/
structure Settings where
  context : Option Context
  strict : Bool
  collecting : Bool
deriving DecidableEq

/-- What a validator examines selectors under. -/
def settings (v : Validator) : Settings := ⟨v.context, v.strict, v.collecting⟩

/-- The selectors that an action is about. -/
def Action.selectors : Action → List (Option Text)
  | .check selector => [selector]
  | .checkAll selectors => selectors
  | .set .. | .clear => []

namespace Settings

/-- What reading the selector alone comes to. -/
def reading (s : Settings) (selector : Option Text) : Option Selector :=
  (Selector.parse? s.context selector).result.toOption

/-- The report on the selector, if reading it alone fails. -/
def report (s : Settings) (selector : Option Text) : Option Diagnostic :=
  match (Selector.parse? s.context selector).result with
  | .ok _ => none
  | .error failure => some (.ofError failure.error selector)

/-- The records that examining the selector leaves. -/
def records (s : Settings) (selector : Option Text) : List LogRecord :=
  (Selector.parse? s.context selector).log ++
    (s.report selector).toList.map (.rejectedSelector selector)

/-- The selectors that are examined. A strict call examines none behind the first one that it
finds wrong. -/
def examined (s : Settings) : List (Option Text) → List (Option Text)
  | [] => []
  | selector :: rest =>
    selector :: if s.strict && (s.report selector).isSome then [] else s.examined rest

/-- The settings behind an action. Only an assignment changes them. -/
def after (s : Settings) : Action → Settings
  | .set strict collecting context =>
    ⟨context.getD s.context, strict.getD s.strict, collecting.getD s.collecting⟩
  | .check _ | .checkAll _ | .clear => s

/-- The settings behind actions. -/
def afterAll (s : Settings) (actions : List Action) : Settings := actions.foldl after s

end Settings

/-! ## Histories -/

/-- What matters for what is collected. -/
inductive Event where
  | examined (settings : Settings) (selector : Option Text)
  | cleared
deriving DecidableEq

/-- The report that an event adds to what is collected. -/
def Event.collected : Event → Option Diagnostic
  | examined s selector =>
    if s.strict = false ∧ s.collecting = true then s.report selector else none
  | cleared => none

namespace Settings

/-- The events of an action. -/
def events (s : Settings) : Action → List Event
  | .clear => [.cleared]
  | action => (s.examined action.selectors).map (.examined s)

/-- The events of actions, one after the other. -/
def history (s : Settings) : List Action → List Event
  | [] => []
  | action :: rest => s.events action ++ (s.after action).history rest

end Settings

/-- The events behind the last one that cleared. -/
def sinceClear (events : List Event) : List Event := events.rtakeWhile (· ≠ .cleared)

/-- What is collected behind the events, where `before` was collected in front of them. -/
def kept (before : List Diagnostic) (events : List Event) : List Diagnostic :=
  (if .cleared ∈ events then [] else before) ++ (sinceClear events).filterMap Event.collected

@[simp] theorem kept_nil (before : List Diagnostic) : kept before [] = before := by
  simp [kept, sinceClear, List.rtakeWhile]

private theorem ne_cleared_of_not_mem {events : List Event} (h : .cleared ∉ events) :
    ∀ e ∈ events, decide (e ≠ .cleared) = true := by
  intro e he
  rw [decide_eq_true_iff]
  rintro rfl
  exact h he

theorem sinceClear_append_of_not_mem {events : List Event} (h : .cleared ∉ events)
    (before : List Event) : sinceClear (before ++ events) = sinceClear before ++ events := by
  have hall := ne_cleared_of_not_mem (mt List.mem_reverse.mp h)
  unfold sinceClear List.rtakeWhile
  rw [List.reverse_append, List.takeWhile_append_of_pos hall, List.reverse_append,
    List.reverse_reverse]

/-- What stands in front of an event that cleared does not matter. -/
theorem sinceClear_append_of_mem {events : List Event} (h : .cleared ∈ events)
    (before : List Event) : sinceClear (before ++ events) = sinceClear events := by
  obtain ⟨behind, others, hevents, hbehind⟩ :=
    List.eq_append_cons_of_mem (List.mem_reverse.mpr h)
  have hall := ne_cleared_of_not_mem hbehind
  have hstop : ∀ others : List Event,
      (behind ++ .cleared :: others).takeWhile (· ≠ .cleared) = behind := by
    intro others
    rw [List.takeWhile_append_of_pos hall, List.takeWhile_cons_of_neg (by simp), List.append_nil]
  unfold sinceClear List.rtakeWhile
  rw [List.reverse_append, hevents, List.append_assoc, List.cons_append, hstop, hstop]

/-- A history may be taken in two parts. -/
theorem kept_append (collected : List Diagnostic) (first second : List Event) :
    kept collected (first ++ second) = kept (kept collected first) second := by
  by_cases h : .cleared ∈ second
  · simp only [kept, sinceClear_append_of_mem h, List.mem_append, h, or_true, if_true]
  · have hsecond : sinceClear second = second := sinceClear_append_of_not_mem h []
    simp only [kept, sinceClear_append_of_not_mem h, hsecond, List.mem_append, h, or_false,
      if_false, List.filterMap_append, List.append_assoc]

/-! ## Calls -/

namespace Settings

variable {s : Settings} {selectors accepted rest : List (Option Text)} {selector : Option Text}
  {diagnostic : Diagnostic}

/-- All selectors are accepted, or there is a first one that is not. -/
theorem first_report (s : Settings) (selectors : List (Option Text)) :
    (∀ t ∈ selectors, s.report t = none) ∨
      ∃ accepted selector rest diagnostic, selectors = accepted ++ selector :: rest ∧
        (∀ t ∈ accepted, s.report t = none) ∧ s.report selector = some diagnostic := by
  induction selectors with
  | nil => exact .inl (by simp)
  | cons first others ih =>
    cases hfirst : s.report first with
    | some diagnostic => exact .inr ⟨[], first, others, diagnostic, rfl, by simp, hfirst⟩
    | none =>
      rcases ih with hall | ⟨accepted, selector, rest, diagnostic, rfl, hall, hselector⟩
      · exact .inl (List.forall_mem_cons.mpr ⟨hfirst, hall⟩)
      · exact .inr ⟨first :: accepted, selector, rest, diagnostic, rfl,
          List.forall_mem_cons.mpr ⟨hfirst, hall⟩, hselector⟩

/-- A call is not cut short if the selectors are accepted or the call is not strict. -/
theorem examined_of_goes_on
    (h : s.strict = false ∨ ∀ t ∈ selectors, s.report t = none) :
    s.examined selectors = selectors := by
  induction selectors with
  | nil => rfl
  | cons first others ih =>
    have hothers : s.examined others = others :=
      ih (h.imp_right fun hall => (List.forall_mem_cons.mp hall).2)
    have hon : (s.strict && (s.report first).isSome) = false := by
      rcases h with hlenient | hall
      · rw [hlenient, Bool.false_and]
      · rw [(List.forall_mem_cons.mp hall).1, Option.isSome_none, Bool.and_false]
    rw [examined, hon, hothers]
    rfl

/-- A strict call ends with the first selector that it finds wrong. -/
theorem examined_of_rejected (hstrict : s.strict = true)
    (haccepted : ∀ t ∈ accepted, s.report t = none)
    (hselector : s.report selector = some diagnostic) (rest : List (Option Text)) :
    s.examined (accepted ++ selector :: rest) = accepted ++ [selector] := by
  induction accepted with
  | nil => simp [examined, hstrict, hselector]
  | cons first others ih =>
    obtain ⟨hfirst, hothers⟩ := List.forall_mem_cons.mp haccepted
    rw [List.cons_append, examined, hfirst, Option.isSome_none, Bool.and_false, ih hothers]
    rfl

/-- Nothing is collected under strict settings. -/
theorem filterMap_collected_of_strict (h : s.strict = true) (selectors : List (Option Text)) :
    (selectors.map (.examined s)).filterMap Event.collected = [] := by
  rw [List.filterMap_eq_nil_iff]
  intro e he
  obtain ⟨t, -, rfl⟩ := List.mem_map.mp he
  simp [Event.collected, h]

end Settings

variable {v : Validator} {selectors accepted : List (Option Text)} {selector : Option Text}
  {diagnostic : Diagnostic}

/-- The validator with more collected. -/
def collect (v : Validator) (more : List Diagnostic) : Validator :=
  { v with collected := v.collected ++ more }

@[simp] theorem settings_collect (more : List Diagnostic) :
    (v.collect more).settings = v.settings := rfl

@[simp] theorem collect_nil : v.collect [] = v := by
  simp [collect]

@[simp] theorem collect_collect (first second : List Diagnostic) :
    (v.collect first).collect second = v.collect (first ++ second) := by
  simp [collect]

/-- A selector that is accepted is the result, and the validator stays as it is. -/
theorem check_of_accepted (h : v.settings.report selector = none) :
    v.check selector = ⟨v, v.settings.records selector, .ok (v.settings.reading selector)⟩ := by
  unfold Settings.records Settings.reading
  rw [h]
  unfold check Settings.report settings at *
  dsimp only at *
  cases hresult : (Selector.parse? v.context selector).result with
  | ok parsed => simp [Except.toOption]
  | error failure =>
    rw [hresult] at h
    cases h

/-- A selector that is found wrong is reported: by collecting the report or by ending the check
with it, or not at all. -/
theorem check_of_rejected (h : v.settings.report selector = some diagnostic) :
    v.check selector =
      ⟨v.collect (Event.examined v.settings selector).collected.toList,
        v.settings.records selector,
        if v.strict then .error diagnostic else .ok (v.settings.reading selector)⟩ := by
  unfold Settings.records Settings.reading Event.collected
  rw [h]
  unfold check Settings.report settings at *
  dsimp only at *
  cases hresult : (Selector.parse? v.context selector).result with
  | ok parsed =>
    rw [hresult] at h
    cases h
  | error failure =>
    rw [hresult] at h
    obtain rfl : Diagnostic.ofError failure.error selector = diagnostic := Option.some.inj h
    obtain ⟨context, collecting, strict, held⟩ := v
    cases strict <;> cases collecting <;> simp [Except.toOption, collect]

/-- A call that is not strict examines every selector. -/
theorem checkAll_of_lenient (h : v.strict = false) (selectors : List (Option Text)) :
    v.checkAll selectors =
      ⟨v.collect ((selectors.map (.examined v.settings)).filterMap Event.collected),
        selectors.flatMap v.settings.records, .ok (selectors.map v.settings.reading)⟩ := by
  induction selectors generalizing v with
  | nil => simp [checkAll]
  | cons first others ih =>
    rw [checkAll]
    cases hfirst : v.settings.report first with
    | none =>
      have hnone : (Event.examined v.settings first).collected = none := by
        simp [Event.collected, hfirst]
      simp only [check_of_accepted hfirst, ih h, List.map_cons, List.filterMap_cons, hnone,
        List.flatMap_cons]
      rfl
    | some diagnostic =>
      have hothers := ih (v := v.collect (Event.examined v.settings first).collected.toList) h
      simp only [check_of_rejected hfirst, h, hothers, settings_collect, collect_collect,
        List.map_cons, List.flatMap_cons, Bool.false_eq_true, if_false]
      cases hcollected : (Event.examined v.settings first).collected <;>
        simp [hcollected, Except.map]

/-- A call on selectors that are all accepted has them as results, strict or not. -/
theorem checkAll_of_accepted (h : ∀ t ∈ selectors, v.settings.report t = none) :
    v.checkAll selectors =
      ⟨v, selectors.flatMap v.settings.records, .ok (selectors.map v.settings.reading)⟩ := by
  induction selectors with
  | nil => rfl
  | cons first others ih =>
    obtain ⟨hfirst, hothers⟩ := List.forall_mem_cons.mp h
    simp only [checkAll, check_of_accepted hfirst, ih hothers]
    rfl

/-- A strict call ends with the report on the first selector that it finds wrong, and leaves the
validator as it was. -/
theorem checkAll_of_rejected (hstrict : v.strict = true)
    (haccepted : ∀ t ∈ accepted, v.settings.report t = none)
    (hselector : v.settings.report selector = some diagnostic) (rest : List (Option Text)) :
    v.checkAll (accepted ++ selector :: rest) =
      ⟨v, (accepted ++ [selector]).flatMap v.settings.records, .error diagnostic⟩ := by
  induction accepted with
  | nil =>
    have hnone : (Event.examined v.settings selector).collected = none := by
      simp [Event.collected, settings, hstrict]
    simp [checkAll, check_of_rejected hselector, hnone, hstrict]
  | cons first others ih =>
    obtain ⟨hfirst, hothers⟩ := List.forall_mem_cons.mp haccepted
    simp only [List.cons_append, checkAll, check_of_accepted hfirst, ih hothers]
    rfl

private theorem strict_settings : v.settings.strict = v.strict := rfl

/-- The validator that a call leaves and the records it leaves are those of what it examines. -/
theorem checkAll_examined (v : Validator) (selectors : List (Option Text)) :
    (v.checkAll selectors).validator =
        v.collect (((v.settings.examined selectors).map (.examined v.settings)).filterMap
          Event.collected) ∧
      (v.checkAll selectors).log = (v.settings.examined selectors).flatMap v.settings.records := by
  cases hstrict : v.strict with
  | false =>
    rw [checkAll_of_lenient hstrict, Settings.examined_of_goes_on (.inl hstrict)]
    exact ⟨rfl, rfl⟩
  | true =>
    rw [Settings.filterMap_collected_of_strict hstrict, collect_nil]
    rcases v.settings.first_report selectors with
      hall | ⟨accepted, selector, rest, diagnostic, rfl, haccepted, hselector⟩
    · rw [checkAll_of_accepted hall, Settings.examined_of_goes_on (.inr hall)]
      exact ⟨rfl, rfl⟩
    · rw [checkAll_of_rejected hstrict haccepted hselector,
        Settings.examined_of_rejected hstrict haccepted hselector]
      exact ⟨rfl, rfl⟩

/-- A call that is not cut short has a result for each selector: what reading it alone comes to. -/
theorem checkAll_result
    (h : v.strict = false ∨ ∀ t ∈ selectors, v.settings.report t = none) :
    (v.checkAll selectors).result = .ok (selectors.map v.settings.reading) := by
  rcases h with hlenient | hall
  · rw [checkAll_of_lenient hlenient]
  · rw [checkAll_of_accepted hall]

/-- A check is a call on one selector. -/
theorem checkAll_singleton (v : Validator) (selector : Option Text) :
    v.checkAll [selector] =
      ⟨(v.check selector).validator, (v.check selector).log,
        (v.check selector).result.map ([·])⟩ := by
  rw [checkAll]
  cases hresult : (v.check selector).result with
  | error diagnostic => simp [Except.map]
  | ok result => simp [checkAll, Except.map]

/-! ## Steps -/

/-- The answer to an action under the settings. -/
structure Settings.Answers (s : Settings) (action : Action) (result : Except Diagnostic Answer) :
    Prop where
  /-- A check answers what reading the selector alone comes to. -/
  check : ∀ selector, action = .check selector →
    s.strict = false ∨ s.report selector = none → result = .ok (.checked (s.reading selector))
  /-- A call on many selectors answers the same for each of them, in their order. -/
  checkAll : ∀ selectors, action = .checkAll selectors →
    s.strict = false ∨ (∀ t ∈ selectors, s.report t = none) →
      result = .ok (.checkedAll (selectors.map s.reading))
  /-- A strict one ends with the report on the first selector that it finds wrong. -/
  rejected : ∀ accepted selector rest diagnostic,
    action.selectors = accepted ++ selector :: rest → s.strict = true →
      (∀ t ∈ accepted, s.report t = none) → s.report selector = some diagnostic →
        result = .error diagnostic

/-- What an action comes to under the settings `s`, where `held` has been collected. -/
structure Settings.Accounts (s : Settings) (held : List Diagnostic) (action : Action)
    (step : Checked Answer) : Prop where
  settings : step.validator.settings = s.after action
  collected : step.validator.collected = kept held (s.events action)
  answer : s.Answers action step.result
  /-- Only the selectors that are examined leave records. -/
  log : step.log = (s.examined action.selectors).flatMap s.records
  /-- A strict call leaves what was collected as it was. -/
  strict : s.strict = true → action ≠ .clear → step.validator.collected = held

theorem kept_examined (held : List Diagnostic) (s : Settings) (selectors : List (Option Text)) :
    kept held (selectors.map (.examined s)) =
      held ++ (selectors.map (.examined s)).filterMap Event.collected := by
  have hnone : Event.cleared ∉ selectors.map (.examined s) := by simp
  have hall : sinceClear (selectors.map (.examined s)) = selectors.map (.examined s) :=
    sinceClear_append_of_not_mem hnone []
  rw [kept, if_neg hnone, hall]

private theorem kept_of_strict {s : Settings} (h : s.strict = true) (held : List Diagnostic)
    (selectors : List (Option Text)) : kept held (selectors.map (.examined s)) = held := by
  rw [kept_examined, Settings.filterMap_collected_of_strict h, List.append_nil]

theorem checkAll_collected (v : Validator) (selectors : List (Option Text)) :
    (v.checkAll selectors).validator.collected =
      kept v.collected ((v.settings.examined selectors).map (.examined v.settings)) := by
  rw [(checkAll_examined v selectors).1, kept_examined]
  rfl

theorem checkAll_settings (v : Validator) (selectors : List (Option Text)) :
    (v.checkAll selectors).validator.settings = v.settings := by
  rw [(checkAll_examined v selectors).1, settings_collect]

/-- A call on many selectors comes to what its settings say. -/
theorem perform_checkAll_accounted (v : Validator) (selectors : List (Option Text)) :
    v.settings.Accounts v.collected (.checkAll selectors) (v.perform (.checkAll selectors)) where
  settings := checkAll_settings v selectors
  collected := checkAll_collected v selectors
  log := (checkAll_examined v selectors).2
  strict := by
    intro hstrict _
    exact (checkAll_collected v selectors).trans (kept_of_strict hstrict _ _)
  answer :=
    { check := by
        intro _ haction
        cases haction
      checkAll := by
        rintro _ ⟨⟩ h
        show (v.checkAll selectors).result.map _ = _
        rw [checkAll_result h]
        rfl
      rejected := by
        rintro accepted selector rest diagnostic hselectors hstrict haccepted hselector
        obtain rfl : selectors = accepted ++ selector :: rest := hselectors
        show (v.checkAll _).result.map _ = _
        rw [checkAll_of_rejected hstrict haccepted hselector]
        rfl }

/-- A check comes to what its settings say. -/
theorem perform_check_accounted (v : Validator) (selector : Option Text) :
    v.settings.Accounts v.collected (.check selector) (v.perform (.check selector)) := by
  have hsingle := checkAll_singleton v selector
  have hvalidator : (v.check selector).validator = (v.checkAll [selector]).validator := by
    rw [hsingle]
  have hlog : (v.check selector).log = (v.checkAll [selector]).log := by
    rw [hsingle]
  constructor
  case settings =>
    exact (congrArg settings hvalidator).trans (checkAll_settings v [selector])
  case collected =>
    exact (congrArg Validator.collected hvalidator).trans (checkAll_collected v [selector])
  case log =>
    exact hlog.trans (checkAll_examined v [selector]).2
  case strict =>
    intro hstrict _
    exact ((congrArg Validator.collected hvalidator).trans
      (checkAll_collected v [selector])).trans (kept_of_strict hstrict _ _)
  case answer =>
    constructor
    case check =>
      rintro _ ⟨⟩ h
      show (v.check selector).result.map _ = _
      cases hreport : v.settings.report selector with
      | none =>
        rw [check_of_accepted hreport]
        rfl
      | some diagnostic =>
        have hlenient : v.strict = false := h.resolve_right (by simp [hreport])
        rw [check_of_rejected hreport, hlenient]
        rfl
    case checkAll =>
      intro _ haction
      cases haction
    case rejected =>
      intro accepted sel rest diagnostic hselectors hstrict haccepted hselector
      have hone : accepted = [] ∧ selector = sel ∧ rest = [] := by
        cases accepted with
        | nil => simpa [Action.selectors] using hselectors
        | cons => simp [Action.selectors] at hselectors
      obtain ⟨-, rfl, -⟩ := hone
      show (v.check selector).result.map _ = _
      rw [check_of_rejected hselector, ← strict_settings, hstrict]
      rfl

/-- What an action comes to depends on the settings and on what has been collected. -/
theorem perform_accounted (v : Validator) (action : Action) :
    v.settings.Accounts v.collected action (v.perform action) := by
  cases action with
  | check selector => exact perform_check_accounted v selector
  | checkAll selectors => exact perform_checkAll_accounted v selectors
  | set strict collecting context =>
    constructor
    case settings => rfl
    case collected => exact (kept_nil v.collected).symm
    case log => rfl
    case strict => exact fun _ _ => rfl
    case answer => constructor <;> simp [Action.selectors]
  | clear =>
    constructor
    case settings => rfl
    case collected => rfl
    case log => rfl
    case strict => exact fun _ hclear => absurd rfl hclear
    case answer => constructor <;> simp [Action.selectors]

/-! ## Runs -/

/-- The validator that actions leave. -/
def afterAll (v : Validator) (actions : List Action) : Validator :=
  actions.foldl (fun v action => (v.perform action).validator) v

theorem settings_afterAll (v : Validator) (actions : List Action) :
    (v.afterAll actions).settings = v.settings.afterAll actions := by
  induction actions generalizing v with
  | nil => rfl
  | cons action rest ih =>
    have hfirst := (perform_accounted v action).settings
    exact (ih (v.perform action).validator).trans (by rw [hfirst]; rfl)

/-- Clearing and examining add up to what is collected, in any order of actions. -/
theorem collected_afterAll (v : Validator) (actions : List Action) :
    (v.afterAll actions).collected = kept v.collected (v.settings.history actions) := by
  induction actions generalizing v with
  | nil => exact (kept_nil v.collected).symm
  | cons action rest ih =>
    have hfirst := perform_accounted v action
    have hrest := ih (v.perform action).validator
    rw [hfirst.settings, hfirst.collected, ← kept_append] at hrest
    exact hrest

theorem performAll_getElem? (v : Validator) (before : List Action) (action : Action)
    (rest : List Action) :
    (v.performAll (before ++ action :: rest))[before.length]? =
      some ((v.afterAll before).perform action) := by
  induction before generalizing v with
  | nil => rfl
  | cons first others ih => exact ih (v.perform first).validator

/-- Behind each step of a run, what is collected is what the history up to there leaves, and the
step itself comes to what the settings in force say. -/
theorem run_accounted (v : Validator) (before : List Action) (action : Action)
    (rest : List Action) :
    ∃ step, (v.performAll (before ++ action :: rest))[before.length]? = some step ∧
      step.validator.settings = v.settings.afterAll (before ++ [action]) ∧
      step.validator.collected = kept v.collected (v.settings.history (before ++ [action])) ∧
      (v.settings.afterAll before).Accounts (kept v.collected (v.settings.history before)) action
        step := by
  have hbehind : v.afterAll (before ++ [action]) =
      ((v.afterAll before).perform action).validator := by
    simp [afterAll]
  have hstep := perform_accounted (v.afterAll before) action
  rw [settings_afterAll, collected_afterAll] at hstep
  refine ⟨_, performAll_getElem? v before action rest, ?_, ?_, hstep⟩
  · rw [← hbehind, settings_afterAll]
  · rw [← hbehind, collected_afterAll]

end SelectorCheck.Validator
