import BringUp.Environment
import BringUp.Number.Digits

/-!
This module contains the arguments of the command line: which options there are, where they may be
given, and what a list of arguments asks for. Options that hold for every command may stand before
the command and behind it.
-/

namespace BringUp.CommandLine

inductive Format where
  | table
  | json
  | yaml
deriving DecidableEq

def Format.name : Format → String
  | table => "table"
  | json => "json"
  | yaml => "yaml"

def Format.ofName? (s : String) : Option Format :=
  [table, json, yaml].find? (·.name = s)

structure GlobalFlags where
  config : Option String
  debug : Bool
  logDir : Option String
  board : Option String
  buildDir : Option String
deriving DecidableEq

inductive Command where
  | build (commit patch : Option String) (configOnly clean : Bool)
  | buildPath
  | info (what : String)
  | methods (format : Format)
  | resolve (method : String) (dir : Option String) (send : Bool) (format : Format)
  | console (address : String) (txInterval : UInt64)
  | completion (shell : String)
deriving DecidableEq

inductive Request where
  | run (flags : GlobalFlags) (command : Command)
  | version
  | help
  | usageError
deriving DecidableEq

inductive Opt where
  | config
  | debug
  | logDir
  | board
  | buildDir
  | commit
  | patch
  | configOnly
  | clean
  | send
  | format
  | txInterval
  | help
  | version
deriving DecidableEq

namespace Opt

def long : Opt → String
  | config => "config"
  | debug => "debug"
  | logDir => "log-dir"
  | board => "board"
  | buildDir => "build-dir"
  | commit => "commit"
  | patch => "patch"
  | configOnly => "config-only"
  | clean => "clean"
  | send => "send"
  | format => "format"
  | txInterval => "tx-interval-ms"
  | help => "help"
  | version => "version"

def short? : Opt → Option Char
  | board => some 'b'
  | commit => some 'c'
  | patch => some 'p'
  | help => some 'h'
  | version => some 'V'
  | _ => none

def takesValue : Opt → Bool
  | debug | configOnly | clean | send | help | version => false
  | _ => true

def uint64? (s : String) : Option UInt64 :=
  let digits := match s.toList with
    | '+' :: ds => ds
    | ds => ds
  (Number.ofDigits? 10 digits).bind fun n =>
    if n < UInt64.size then some (UInt64.ofNat n) else none

def accepts (o : Opt) (value : String) : Bool :=
  match o with
  | config | logDir | buildDir | patch => value ≠ ""
  | format => (Format.ofName? value).isSome
  | txInterval => (uint64? value).isSome
  | _ => true

def global : List Opt := [config, debug, logDir, board, buildDir, help]

def environmentName? : Opt → Option String
  | config => some "BOOTLAB_CONFIG"
  | logDir => some "BOOTLAB_LOG_DIR"
  | board => some "BOOTLAB_BOARD"
  | _ => none

end Opt

inductive Verb where
  | build
  | buildPath
  | info
  | methods
  | resolve
  | console
  | completion
deriving DecidableEq

namespace Verb

def all : List Verb := [build, buildPath, info, methods, resolve, console, completion]

def name : Verb → String
  | build => "build"
  | buildPath => "build-path"
  | info => "info"
  | methods => "methods"
  | resolve => "resolve"
  | console => "console"
  | completion => "completion"

def ofName? (s : String) : Option Verb := all.find? (·.name = s)

def options : Verb → List Opt
  | build => [.commit, .patch, .configOnly, .clean]
  | methods => [.format]
  | resolve => [.send, .format]
  | console => [.txInterval]
  | _ => []

def shells : List String := ["bash", "elvish", "fish", "powershell", "zsh"]

def accepts (v : Verb) (position : Nat) (value : String) : Bool :=
  match v, position with
  | info, 0 | resolve, 0 | console, 0 => true
  | resolve, 1 => value ≠ ""
  | completion, 0 => shells.contains value
  | _, _ => false

end Verb

structure Given where
  options : List (Opt × String)
  positionals : List String

namespace Given

def none : Given := ⟨[], []⟩

def value? (g : Given) (o : Opt) : Option String := g.options.lookup o

def has (g : Given) (o : Opt) : Bool := (g.value? o).isSome

end Given

inductive Stop where
  | version
  | help
  | usageError
deriving DecidableEq

/--
Add an option. At one place it may be given once. Asking for help or for the version stops the
reading.
-/
def give (g : Given) (o : Opt) (value : String) : Except Stop Given :=
  match o with
  | .help => .error .help
  | .version => .error .version
  | _ =>
    if g.has o || !o.accepts value then .error .usageError
    else .ok { g with options := g.options ++ [(o, value)] }

def isOption (a : String) : Bool :=
  match a.toList with
  | '-' :: _ :: _ => true
  | _ => false

inductive Word where
  | escape
  | flag (o : Opt)
  | valued (o : Opt) (value : String)
  | open (o : Opt)
  | plain
  | unknown
deriving DecidableEq

def longWord (allowed : List Opt) (cs : List Char) : Word :=
  let name := String.ofList (cs.takeWhile (· ≠ '='))
  match allowed.find? (·.long = name), cs.dropWhile (· ≠ '=') with
  | none, _ => .unknown
  | some o, [] => if o.takesValue then .open o else .flag o
  | some o, _ :: value => if o.takesValue then .valued o (String.ofList value) else .unknown

def shortWord (allowed : List Opt) (c : Char) (cs : List Char) : Word :=
  match allowed.find? (·.short? = some c) with
  | none => .unknown
  | some o =>
    if o.takesValue then
      match cs with
      | [] => .open o
      | '=' :: value => .valued o (String.ofList value)
      | value => .valued o (String.ofList value)
    else .flag o

def wordOf (allowed : List Opt) (a : String) : Word :=
  match a.toList with
  | ['-', '-'] => .escape
  | '-' :: '-' :: cs => longWord allowed cs
  | '-' :: c :: cs => shortWord allowed c cs
  | _ => .plain

def position (v : Verb) (g : Given) (a : String) : Except Stop Given :=
  if v.accepts g.positionals.length a then .ok { g with positionals := g.positionals ++ [a] }
  else .error .usageError

def readVerb (v : Verb) (g : Given) : List String → Except Stop Given
  | [] => .ok g
  | a :: rest =>
    match wordOf (Opt.global ++ v.options) a with
    | .escape => rest.foldlM (position v) g
    | .unknown => .error .usageError
    | .plain => do readVerb v (← position v g a) rest
    | .flag o => do readVerb v (← give g o "") rest
    | .valued o value => do readVerb v (← give g o value) rest
    | .open o =>
      match rest with
      | value :: rest =>
        if isOption value then .error .usageError else do readVerb v (← give g o value) rest
      | [] => .error .usageError

def asksForHelp : List String → Bool
  | [] => true
  | [name] => name = "help" || (Verb.ofName? name).isSome
  | _ => false

def readTop (g : Given) : List String → Except Stop (Given × Verb × Given)
  | [] => .error .usageError
  | a :: rest =>
    match wordOf (Opt.global ++ [.version]) a with
    | .escape | .unknown => .error .usageError
    | .plain =>
      match Verb.ofName? a with
      | some v => do
        let inner ← readVerb v .none rest
        .ok (g, v, inner)
      | none =>
        if a = "help" ∧ asksForHelp rest then .error .help else .error .usageError
    | .flag o => do readTop (← give g o "") rest
    | .valued o value => do readTop (← give g o value) rest
    | .open o =>
      match rest with
      | value :: rest =>
        if isOption value then .error .usageError else do readTop (← give g o value) rest
      | [] => .error .usageError

def acceptsVariables (env : Environment) (g : Given) : Bool :=
  Opt.global.all fun o =>
    g.has o || ((o.environmentName?.bind env.get?).map o.accepts).getD true

/--
The value of an option for every command. Behind the command it counts more than in front of it, and
there more than a variable.
-/
def globalValue (env : Environment) (outer inner : Given) (o : Opt) : Option String :=
  ((inner.value? o).or (outer.value? o)).or (o.environmentName?.bind env.get?)

def globalFlags (env : Environment) (outer inner : Given) : GlobalFlags where
  config := globalValue env outer inner .config
  debug := outer.has .debug || inner.has .debug
  logDir := globalValue env outer inner .logDir
  board := globalValue env outer inner .board
  buildDir := globalValue env outer inner .buildDir

def commandOf (v : Verb) (g : Given) : Option Command :=
  let format := ((g.value? .format).bind Format.ofName?).getD .table
  match v, g.positionals with
  | .build, _ =>
    if g.has .patch && !g.has .commit then none
    else some (.build (g.value? .commit) (g.value? .patch) (g.has .configOnly) (g.has .clean))
  | .buildPath, _ => some .buildPath
  | .info, what :: _ => some (.info what)
  | .methods, _ => some (.methods format)
  | .resolve, method :: dirs => some (.resolve method dirs.head? (g.has .send) format)
  | .console, address :: _ =>
    some (.console address (((g.value? .txInterval).bind Opt.uint64?).getD 5))
  | .completion, shell :: _ => some (.completion shell)
  | _, _ => none

def parse (args : List String) (env : Environment) : Request :=
  match readTop .none args with
  | .error .version => .version
  | .error .help => .help
  | .error .usageError => .usageError
  | .ok (outer, v, inner) =>
    if acceptsVariables env outer && acceptsVariables env inner then
      match commandOf v inner with
      | some c => .run (globalFlags env outer inner) c
      | none => .usageError
    else .usageError

end BringUp.CommandLine
