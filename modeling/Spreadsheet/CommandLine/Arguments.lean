/-!
# Arguments of the command line

Options that take a value take it from after a `=` or from the next argument, which may not look like
an option itself.  A value is never empty.  Only `-v` may be given more than once, and there are no
arguments that are not options.
-/

namespace Spreadsheet.CommandLine

/-- What the program is told to do. -/
structure Arguments where
  /-- The file of the settings. -/
  config : Option String := none
  /-- The file of the grid to begin with. -/
  load : Option String := none
  /-- The file in which to leave the grid. -/
  save : Option String := none
  /-- Only write the settings. -/
  writeConfig : Bool := false
  /-- End with the first command that is refused. -/
  strict : Bool := false
  /-- How much the program tells about its work. -/
  verbosity : Nat := 0
deriving DecidableEq, Repr

/-- What the arguments ask for. -/
inductive Invocation
  | run (arguments : Arguments)
  | help
  | version
deriving DecidableEq, Repr

/-- An option whose value is a path. -/
inductive PathOption
  | config
  | load
  | save
deriving DecidableEq, Repr

/-- An option without a value that may be given once. -/
inductive Switch
  | writeConfig
  | strict
deriving DecidableEq, Repr

namespace Arguments

def setPath? (a : Arguments) (value : String) : PathOption → Option Arguments
  | .config => if a.config.isSome then none else some { a with config := value }
  | .load => if a.load.isSome then none else some { a with load := value }
  | .save => if a.save.isSome then none else some { a with save := value }

def turnOn? (a : Arguments) : Switch → Option Arguments
  | .writeConfig => if a.writeConfig then none else some { a with writeConfig := true }
  | .strict => if a.strict then none else some { a with strict := true }

end Arguments

/-- What an argument is. -/
inductive Argument
  | path (option : PathOption) (value : Option String)
  | switch (switch : Switch)
  | verbose (times : Nat)
  | help
  | version
  /-- The end of the options. -/
  | separator
deriving DecidableEq, Repr

def longOption? (name : String) (value : Option String) : Option Argument :=
  match name, value with
  | "config", v => some (.path .config v)
  | "load", v => some (.path .load v)
  | "save", v => some (.path .save v)
  | "write-config", none => some (.switch .writeConfig)
  | "strict", none => some (.switch .strict)
  | "verbose", none => some (.verbose 1)
  | "help", none => some .help
  | "version", none => some .version
  | _, _ => none

def Argument.ofText? (text : String) : Option Argument :=
  match text.toList with
  | ['-', '-'] => some .separator
  | '-' :: '-' :: cs =>
    let value := match cs.dropWhile (· != '=') with
      | [] => none
      | _ :: value => some (String.ofList value)
    longOption? (String.ofList (cs.takeWhile (· != '='))) value
  | '-' :: c :: cs =>
    let letters := (c :: cs).takeWhile (· == 'v')
    match (c :: cs).dropWhile (· == 'v') with
    | [] => some (.verbose letters.length)
    | 'h' :: _ => some .help
    | 'V' :: _ => some .version
    | _ => none
  | _ => none

def looksLikeOption (text : String) : Bool := text.startsWith "-" && text != "-"

/-- Reads the arguments from where `a` has been read; none if they are misused. -/
def readArguments (a : Arguments) : List String → Option Invocation
  | [] => some (.run a)
  | text :: rest =>
    match Argument.ofText? text with
    | none => none
    | some (.path option (some value)) =>
      if value.isEmpty then none else (a.setPath? value option).bind (readArguments · rest)
    | some (.path option none) =>
      match rest with
      | [] => none
      | value :: rest =>
        if value.isEmpty || looksLikeOption value then none
        else (a.setPath? value option).bind (readArguments · rest)
    | some (.switch switch) => (a.turnOn? switch).bind (readArguments · rest)
    | some (.verbose times) => readArguments { a with verbosity := a.verbosity + times } rest
    | some .help => some .help
    | some .version => some .version
    | some .separator => if rest.isEmpty then some (.run a) else none

/-- What the arguments ask for, where the settings are looked for in the file `config` if no argument
names one. -/
def Invocation.ofArguments? (config : Option String) (arguments : List String) :
    Option Invocation := do
  match ← readArguments {} arguments with
  | .run a =>
    match a.config, config with
    | none, some path => if path.isEmpty then none else some (.run { a with config := path })
    | _, _ => some (.run a)
  | other => some other

end Spreadsheet.CommandLine
