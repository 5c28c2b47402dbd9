import SelectorCheck.CommandLine.Word
import SelectorCheck.Context

/-!
# Reading a command line

The words of a command line are options and selectors, and the last of several
values of an option counts. Two hyphens as a value leave the option empty:
nothing is listed, and an empty version or profile names nothing. Options may
stand before, behind and between selectors, but the selectors stand together:
a second group of them is refused, as is every word that is neither known nor
a selector. A call for help and a question for the release end the reading
where they are met.

## Main definitions

* `Options` — what a command line asks for.
* `Options.context` — what the selectors are checked against.
* `CommandLine.Request` — what a command line is.
* `CommandLine.read` — reading the words of a command line.
-/

namespace SelectorCheck

/-- What a command line asks for. -/
structure Options where
  /-- The version, or `none` if the option has been left empty. -/
  version : Option Version := some Context.standard.version
  /-- The profile, or `none` if the option has been left empty. -/
  profile : Option Profile := some Context.standard.profile
  /-- The names to list instead of checking selectors. -/
  list : Option Category := none
  strict : Bool := false
  verbose : Bool := false
  selectors : List Text := []
deriving DecidableEq, Repr

/-- What the selectors are checked against. Of two options that are left empty the version is
reported. -/
def Options.context (o : Options) : Except LabelError Context :=
  match o.version, o.profile with
  | none, _ => .error (.unknownVersion .empty)
  | some _, none => .error (.unknownProfile .empty)
  | some v, some p => .ok ⟨v, p, Context.standard.language⟩

namespace CommandLine

/-! ## What has been read -/

/-- What a command line is. -/
inductive Request where
  | run (options : Options)
  /-- A call for help. -/
  | help
  /-- A question for the version of the program. -/
  | release
  /-- A command line that cannot be understood. -/
  | refused
deriving DecidableEq, Repr

/-- What has been read so far. -/
structure Reading where
  options : Options := {}
  /-- Whether the group of selectors lies behind. -/
  grouped : Bool := false
  /-- Whether there are words that nothing can be done with. -/
  surplus : Bool := false

/-- The value that a word stands for, if an option can have it. Two hyphens leave the option
empty. -/
def choice {α : Type} (known : Text → Option α) (value : Text) : Option (Option α) :=
  if value = ['-', '-'] then some none else (known value).map some

/-- The reading with the value of an option, if the option can have this value. -/
def Reading.assign (r : Reading) (flag : Flag) (value : Text) : Option Reading :=
  let o := r.options
  match flag with
  | .version =>
    (choice (Label.versions.lookup ·) value).map fun v =>
      { r with options := { o with version := v } }
  | .profile =>
    (choice (Label.profiles.lookup ·) value).map fun p =>
      { r with options := { o with profile := p } }
  | .list =>
    (choice Category.ofLabel? value).map fun c =>
      { r with options := { o with list := c } }
  | _ => none

/-- The reading with an option that has no value. Two options end the reading. -/
def Reading.switch (r : Reading) : Flag → Except Request Reading
  | .help => .error .help
  | .release => .error .release
  | .strict => .ok { r with options := { r.options with strict := true } }
  | .verbose => .ok { r with options := { r.options with verbose := true } }
  | .version | .profile | .list => .error .refused

/-- The reading with several options that have no value. -/
def Reading.switchAll (r : Reading) : List Flag → Except Request Reading
  | [] => .ok r
  | flag :: rest =>
    match r.switch flag with
    | .ok r => r.switchAll rest
    | .error request => .error request

/-- The options that share a hyphen: `flag` and those that the letters stand for, if each letter
stands for one. -/
def clustered (flag : Flag) (letters : Text) : Option (List Flag) :=
  (letters.mapM fun c => Flag.ofSpelling? ['-', c]).map (flag :: ·)

/-- The reading with the group of selectors. There is only one group; further words are too
many. -/
def Reading.group (r : Reading) (selectors : List Text) : Reading :=
  if r.grouped then { r with surplus := r.surplus || !selectors.isEmpty }
  else { r with options := { r.options with selectors := selectors }, grouped := true }

/-- The reading at an option behind the words `pending`, the last one first. They are a group of
selectors, unless there are none. -/
def Reading.close (r : Reading) (pending : List Text) : Reading :=
  if pending.isEmpty then r else r.group pending.reverse

/-- The selectors at the start of the words. Behind two hyphens that is all of them. -/
def leadingPlain : List Word → List Text
  | .plain t :: rest => t :: leadingPlain rest
  | _ => []

/-! ## Reading the words -/

/-- What the words come to when all of them have been read. -/
def Reading.finish (r : Reading) : Request :=
  if r.surplus then .refused
  else if r.options.selectors.isEmpty && r.options.list.isNone then .refused
  else .run r.options

/-- What the words come to behind what has been read. `pending` are the selectors of the group that
is being read, the last one first; there is none as long as no word of it has been met. -/
def readWords (r : Reading) (pending : List Text) : List Word → Request
  | [] => (r.group pending.reverse).finish
  | .plain t :: rest => readWords r (t :: pending) rest
  | .separator :: rest =>
    let r := { r with surplus := r.surplus || r.grouped }
    (r.group (pending.reverse ++ leadingPlain rest)).finish
  | .option flag :: rest =>
    let r := r.close pending
    if flag.takesValue then
      match rest with
      | .plain value :: rest =>
        match r.assign flag value with
        | some r => readWords r [] rest
        | none => .refused
      | _ => .refused
    else
      match r.switch flag with
      | .ok r => readWords r [] rest
      | .error request => request
  | .assigned flag value :: rest =>
    let r := r.close pending
    match r.assign flag value with
    | some r => readWords r [] rest
    | none => .refused
  | .cluster flag letters :: rest =>
    let r := r.close pending
    match clustered flag letters with
    | none => .refused
    | some flags =>
      match r.switchAll flags with
      | .ok r => readWords r [] rest
      | .error request => request
  | .unknown :: rest =>
    let r := r.close pending
    readWords { r with surplus := true } [] rest

/-- What a command line is. -/
def read (words : List Text) : Request :=
  match classifyAll words with
  | none => .refused
  | some words => readWords {} [] words

end CommandLine

end SelectorCheck
