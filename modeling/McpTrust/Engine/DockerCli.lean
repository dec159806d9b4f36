import McpTrust.Python.Text
import McpTrust.Store.Readback

/-! # The option grammar of a command line client

Options come first; the first argument that does not begin with a dash ends
them, and everything from it on is positional. A switch stands alone, any other
option takes the next argument unless its value is attached.
-/

namespace OptionGrammar

set_option autoImplicit false

open Python

def beginsWithDash (s : Str) : Bool := decide (s.head? = some (ch '-'))

structure CommandLine where
  options : List (Str × Option Str)
  positionals : List Str
  deriving DecidableEq

/-- `--name=value` in one argument. -/
def attachedValue (argument : Str) : Option (Str × Str) :=
  if argument.contains (ch '=') then
    some (argument.takeWhile (fun c => decide (c ≠ ch '=')),
      (argument.dropWhile fun c => decide (c ≠ ch '=')).drop 1)
  else none

def addOption (option : Str × Option Str) (line : CommandLine) : CommandLine :=
  { line with options := option :: line.options }

/-- `none` is an option left without its value. -/
def parse (isSwitch : Str → Bool) : List Str → Option CommandLine
  | [] => some ⟨[], []⟩
  | argument :: rest =>
    if beginsWithDash argument then
      match attachedValue argument with
      | some (name, value) => (parse isSwitch rest).map (addOption (name, some value))
      | none =>
        if isSwitch argument then (parse isSwitch rest).map (addOption (argument, none))
        else
          match rest with
          | [] => none
          | value :: rest => (parse isSwitch rest).map (addOption (argument, some value))
    else some ⟨[], argument :: rest⟩

section Parse

variable {isSwitch : Str → Bool} {argument value : Str} {rest : List Str}

@[simp] theorem parse_nil : parse isSwitch [] = some ⟨[], []⟩ := rfl

/-- The first positional argument ends the options, whatever follows. -/
theorem parse_positional (h : beginsWithDash argument = false) :
    parse isSwitch (argument :: rest) = some ⟨[], argument :: rest⟩ := by
  rw [parse.eq_def]
  simp [h]

theorem parse_switch (hdash : beginsWithDash argument = true)
    (hattached : attachedValue argument = none) (hswitch : isSwitch argument = true) :
    parse isSwitch (argument :: rest) =
      (parse isSwitch rest).map (addOption (argument, none)) := by
  rw [parse.eq_def]
  simp [hdash, hattached, hswitch]

theorem parse_valued (hdash : beginsWithDash argument = true)
    (hattached : attachedValue argument = none) (hswitch : isSwitch argument = false) :
    parse isSwitch (argument :: value :: rest) =
      (parse isSwitch rest).map (addOption (argument, some value)) := by
  rw [parse.eq_def]
  simp [hdash, hattached, hswitch]

/-- The arguments that spell a list of options. -/
def render : List (Str × Option Str) → List Str
  | [] => []
  | (name, none) :: options => name :: render options
  | (name, some value) :: options => name :: value :: render options

/-- A name the grammar reads back as it was written: with a value exactly if it is no switch. -/
def Readable (isSwitch : Str → Bool) (option : Str × Option Str) : Prop :=
  beginsWithDash option.1 = true ∧ attachedValue option.1 = none ∧
    isSwitch option.1 = option.2.isNone

theorem render_append (first second : List (Str × Option Str)) :
    render (first ++ second) = render first ++ render second := by
  induction first with
  | nil => rfl
  | cons option first ih =>
    obtain ⟨name, value⟩ := option
    cases value with
    | none => simp [render, ih]
    | some value => simp [render, ih]

/-- Options that are readable come back, in order, before whatever follows them. -/
theorem parse_render {options : List (Str × Option Str)}
    (hreadable : ∀ option ∈ options, Readable isSwitch option) {line : CommandLine}
    (hrest : parse isSwitch rest = some line) :
    parse isSwitch (render options ++ rest) =
      some { line with options := options ++ line.options } := by
  induction options with
  | nil => exact hrest
  | cons option options ih =>
    have htail := ih fun o ho => hreadable o (List.mem_cons_of_mem _ ho)
    obtain ⟨hdash, hattached, hswitch⟩ := hreadable option List.mem_cons_self
    obtain ⟨name, value⟩ := option
    cases value with
    | none =>
      rw [render, List.cons_append, parse_switch hdash hattached hswitch, htail]
      rfl
    | some value =>
      rw [render, List.cons_append, List.cons_append, parse_valued hdash hattached hswitch, htail]
      rfl

end Parse

/-- The values an option was given, in order. -/
def CommandLine.valuesOf (line : CommandLine) (name : String) : List (Option Str) :=
  (line.options.filter fun o => decide (o.1 = u name)).map Prod.snd

/-- An option whose text names the same flag as `name`, with a value or without. -/
def CommandLine.uses (line : CommandLine) (name : String) : Prop := ∃ o ∈ line.options, o.1 = u name

end OptionGrammar

namespace DockerCli

set_option autoImplicit false

open Python OptionGrammar

/-- The options of `docker` itself that take no value. -/
def globalSwitches : List String := ["-D", "--debug", "--tls", "--tlsverify", "-v", "--version", "--help"]

/-- The options of `docker container create` that take no value. -/
def createSwitches : List String :=
  ["-i", "--interactive", "-t", "--tty", "-it", "-ti", "--init", "--no-healthcheck",
    "--oom-kill-disable", "--privileged", "-P", "--publish-all", "-q", "--quiet", "--read-only",
    "--rm", "--disable-content-trust", "--use-api-socket", "--help"]

def isOneOf (names : List String) (s : Str) : Bool := names.any fun name => decide (s = u name)

/-- What `docker [options] container create …` makes of the arguments after `create`. -/
def parseCreate (argv : List Str) : Option CommandLine := do
  let program ← argv.head?
  guard (program = u "docker")
  let line ← parse (isOneOf globalSwitches) argv.tail
  guard (line.positionals.take 2 = [u "container", u "create"])
  parse (isOneOf createSwitches) (line.positionals.drop 2)

end DockerCli
