import BringUp.Build.Provider
import BringUp.CommandLine.Arguments
import BringUp.Image.Writer
import BringUp.Options.Fields
import BringUp.Text.Json.Printer
import BringUp.Text.Table
import BringUp.Text.Yaml.Printer
import BringUp.Text.Yaml.Reader

/-!
This module contains the commands of the command line, as programs that end with the text to print.
-/

namespace BringUp.CommandLine

open Program

inductive Failure where
  | cause (e : Error)
  | notRead (path : String)
  | notParsed (path : String)
  | noBoard
  | notConnected (address : String)
deriving DecidableEq

def Failure.message : Failure → String
  | cause e => e.message
  | notRead path => s!"failed to read {path}"
  | notParsed path => s!"failed to parse {path}"
  | noBoard => "no board given; pass --board or set strategy.board in the config file"
  | notConnected address => s!"failed to connect to {address}"

abbrev Task (α : Type) := Program Unit Failure α

def within (p : Program Unit Error α) : Task α := p.mapError .cause

/--
The settings that a configuration file, the environment and the options come to, the later ones
counting more.
-/
def loadOptions (env : Environment) (flags : GlobalFlags) : Task Options := do
  let options ← match flags.config with
    | none => pure (Options.initial env)
    | some path =>
      match ← host (.readText path) with
      | .error _ => raise (.notRead path)
      | .ok text =>
        match (Yaml.parse? text).bind (Options.read env) with
        | some options => pure options
        | none => raise (.notParsed path)
  let provider := options.provider.withEnvironment env
  pure { options with
    provider := { provider with buildDir := flags.buildDir.or provider.buildDir }
    strategy := { options.strategy with board := flags.board.getD options.strategy.board } }

def boardOf (options : Options) : Task String :=
  if options.strategy.board.isEmpty then raise .noBoard else pure options.strategy.board

def printLines (ts : List String) : String := String.join (ts.map (· ++ "\n"))

def printRows (format : Format) (header : List String) (cell : Bool → String)
    (rows : List Yaml.Row) : String :=
  match format with
  | .table =>
    Text.renderTable header (rows.map fun r => r.map fun (_, c) =>
      match c with
      | .text s => s
      | .flag b => cell b)
  | .json =>
    let value : Yaml.Cell → Json
      | .text s => .string s
      | .flag b => .bool b
    Json.pretty 0 (.array (rows.map fun r => .object (r.map fun (k, c) => (k, value c)))) ++ "\n"
  | .yaml => Yaml.renderRows rows

def yesNo (b : Bool) : String := if b then "yes" else "-"

def methodRow (m : Method) : Yaml.Row :=
  [ ("name", .text m.name), ("write", .flag m.write.isSome), ("send", .flag m.send.isSome),
    ("description", .text m.description) ]

def describeTarget : WriteTarget → String
  | .image t =>
    let count := (t.count.map fun n => s!" count {n}").getD ""
    s!"raw @{t.byteOffset} (seek {t.seek} bs {t.blockSize}{count})"
  | .files t => s!"partition {t.partition}:{t.dest}"
  | .emulator => "spi flash emulator"

def stageRow (role source target : String) : Yaml.Row :=
  [("role", .text role), ("source", .text source), ("target", .text target)]

def writeRow (p : PlannedWrite) : Yaml.Row :=
  stageRow p.role p.source (describeTarget p.target)

def sendRow (p : PlannedSend) : Yaml.Row :=
  stageRow p.role (p.source.getD "(built-in)")
    (match p.phase with
      | some phase => s!"usb ({phase})"
      | none => "usb")

def planRows (w : Writer) (dir : String) (send : Bool) : Except Error (List Yaml.Row) :=
  if send then do return (← w.planSend dir).map sendRow
  else do return (← w.planWrite dir).map writeRow

def completionScript (shell : String) : String :=
  let names := " ".intercalate (Verb.all.map Verb.name)
  if shell = "bash" then "complete -W '" ++ names ++ "' bootlab\n"
  else if shell = "zsh" then "#compdef bootlab\n_arguments '1:command:(" ++ names ++ ")'\n"
  else if shell = "fish" then "complete -c bootlab -f -a '" ++ names ++ "'\n"
  else if shell = "elvish" then
    "set edit:completion:arg-completer[bootlab] = \x7b|@words| put " ++ names ++ " \x7d\n"
  else
    "Register-ArgumentCompleter -Native -CommandName bootlab -ScriptBlock \x7b '" ++ names
      ++ "' -split ' ' \x7d\n"

def startLogging (flags : GlobalFlags) : Task Unit :=
  match flags.logDir with
  | none => pure ()
  | some dir => do
    match ← host (.createDirs dir) with
    | .error reason =>
      raise (.cause (.config s!"failed to create log directory {dir}: {reason}"))
    | .ok () => pure ()
    let _ ← host (.createLog dir)

def execute (env : Environment) (flags : GlobalFlags) : Command → Task String
  | .build commit patch configOnly clean => do
    let options ← loadOptions env flags
    let board ← boardOf options
    let provider := { options.provider with doClean := clean || options.provider.doClean }
    let result ← within (provider.build ⟨board, commit, patch.map .file, configOnly⟩)
    pure (printLines result.dirs)
  | .buildPath => do
    let options ← loadOptions env flags
    let board ← boardOf options
    pure (printLines [options.provider.buildPath board])
  | .info what => do
    let info ← within (ofExcept (BuildInfo.parse what))
    let options ← loadOptions env flags
    let board ← boardOf options
    let value ← within (options.provider.queryInfo board info)
    pure (printLines value.toList)
  | .methods format =>
    pure (printRows format ["METHOD", "WRITE", "SEND", "DESCRIPTION"] yesNo
      (Method.all.map methodRow))
  | .resolve method dir send format => do
    let options ← loadOptions env flags
    let dir ← match dir with
      | some dir => pure dir
      | none => do
        let board ← boardOf options
        pure (options.provider.buildPath board)
    let writer ← within (ofExcept (Writer.ofOptions { options.writer with method }))
    let rows ← within (ofExcept (planRows writer dir send))
    pure (printRows format ["ROLE", "SOURCE", "TARGET"] yesNo rows)
  | .console address _ => do
    match ← host (.connect address) with
    | .error _ => raise (.notConnected address)
    | .ok () => pure ""
  | .completion shell => pure (completionScript shell)

def versionText : String := "bootlab 0.3.0\n"

def helpText : String :=
  "Build, flash and talk to U-Boot boards\n\nUsage: bootlab [OPTIONS] <COMMAND>\n\nCommands:\n"
    ++ printLines (Verb.all.map fun v => "  " ++ v.name)
    ++ "\nOptions:\n"
    ++ printLines ((Opt.global ++ [Opt.version]).map fun o => "  --" ++ o.long)

structure Outcome where
  code : Nat
  stdout : String
  message : Option String
deriving DecidableEq

def run (args : List String) (env : Environment) : Program Unit Failure Outcome :=
  match parse args env with
  | .version => pure ⟨0, versionText, none⟩
  | .help => pure ⟨0, helpText, none⟩
  | .usageError => pure ⟨2, "", none⟩
  | .run flags command => do
    match ← attempt (do startLogging flags; execute env flags command : Task String) with
    | .ok text => pure ⟨0, text, none⟩
    | .error e => pure ⟨1, "", some e.message⟩

end BringUp.CommandLine
