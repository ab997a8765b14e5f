import HartRuntime.Launch.Request

namespace HartRuntime.Launch

def Command.ofName? (name : String) : Option Command :=
  if name = "build" then some .build
  else if name = "qemu" then some .qemu
  else none

/-- Help was asked for. -/
abbrev Request.help : Request := .stopped 0

/-- A line that is none. -/
abbrev Request.refused : Request := .stopped 2

/-- Whether an argument asks for help. Of letters in one argument the first decides. -/
def asksHelp (arg : String) : Bool :=
  arg = "--help" || List.isPrefixOf ['-', 'h'] arg.toList

/-- Whether an argument can be the value of the option before it. -/
def isValue (arg : String) : Bool :=
  arg = "-" || !List.isPrefixOf ['-'] arg.toList

/-- The value that is joined to an option by an equals sign. -/
def joinedValue? (option arg : String) : Option String :=
  ((option.toList ++ ['=']).isPrefixOf? arg.toList).map String.ofList

/-- Reads options from left to right; the first argument that decides ends it. Nothing may
    follow the end of options, and no argument stands alone. -/
def Command.request (command : Command) (options : Options) : List String → Request
  | [] => .run command options
  | arg :: rest =>
    if arg = "--" then
      if rest.isEmpty then .run command options else .refused
    else if arg = "--release" then
      if options.release then .refused else command.request { options with release := true } rest
    else if asksHelp arg then .help
    else
      match command.settings.find? (·.name = arg) with
      | some setting =>
        match rest with
        | [] => .refused
        | value :: rest =>
          if isValue value then
            match options.set? setting value with
            | some options => command.request options rest
            | none => .refused
          else .refused
      | none =>
        match command.settings.findSome? fun setting =>
          (joinedValue? setting.name arg).map (setting, ·) with
        | some (setting, value) =>
          match options.set? setting value with
          | some options => command.request options rest
          | none => .refused
        | none => .refused

/-- A reader to run the commands with. -/
def reader : Reader
  | [] => .refused
  | arg :: rest =>
    match Command.ofName? arg with
    | some command => command.request .none rest
    | none =>
      if arg = "help" then
        match rest with
        | [] => .help
        | [topic] => if topic = "help" ∨ (Command.ofName? topic).isSome then .help else .refused
        | _ => .refused
      else if asksHelp arg then .help
      else .refused

end HartRuntime.Launch
