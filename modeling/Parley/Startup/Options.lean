import Parley.Text.Utf8

/-! The options on the command line. An option with a value takes it after an equals sign or as the
next word. Its value is looked at once the next option is met or the words end, so that an unknown
word in between is the error that counts. After a double dash nothing more may follow. -/
namespace Parley

inductive Flag where
  | noAnsi
  | start
  | help
  | version
  deriving DecidableEq, Repr

inductive Setting where
  | config
  | program
  | arg
  | bufferName
  deriving DecidableEq, Repr

structure Options where
  config : Option Text := none
  program : Option Text := none
  args : List Text := []
  noAnsi : Bool := false
  bufferName : Option Text := none
  start : Bool := false
  deriving DecidableEq, Repr

/-- Why the options are not taken; two of the causes are wishes. -/
inductive OptionError where
  | unknownArgument
  | invalidValue
  | conflict
  | tooManyValues
  | help
  | version
  deriving DecidableEq, Repr

namespace Options

def settingNamed (name : Text) : Option Setting :=
  if name = "config".toList then some .config
  else if name = "program".toList then some .program
  else if name = "arg".toList then some .arg
  else if name = "buffer-name".toList then some .bufferName
  else none

def flagNamed (name : Text) : Option Flag :=
  if name = "no-ansi".toList then some .noAnsi
  else if name = "start".toList then some .start
  else if name = "help".toList then some .help
  else if name = "version".toList then some .version
  else none

/-- Only this setting takes a next word that looks like an option. -/
def takesAnyWord (s : Setting) : Bool := s = .arg

/-- Gives a setting its value; once, except for arguments. -/
def give (o : Options) (s : Setting) (v : Text) : Except OptionError Options :=
  match s with
  | .config =>
    if o.config.isSome then .error .conflict
    else if v = [] then .error .invalidValue
    else .ok { o with config := some v }
  | .program =>
    if o.program.isSome then .error .conflict else .ok { o with program := some v }
  | .arg => .ok { o with args := o.args ++ [v] }
  | .bufferName =>
    if o.bufferName.isSome then .error .conflict else .ok { o with bufferName := some v }

def raise (o : Options) (f : Flag) : Except OptionError Options :=
  match f with
  | .noAnsi => if o.noAnsi then .error .conflict else .ok { o with noAnsi := true }
  | .start => if o.start then .error .conflict else .ok { o with start := true }
  | .help => .error .help
  | .version => .error .version

/-- The options while the words are read. The setting met last is pending, with its value if that was
met, until it is settled; a double dash ends the options. -/
structure Draft where
  options : Options := {}
  pending : Option (Setting × Option Text) := none
  ended : Bool := false
  deriving DecidableEq, Repr

namespace Draft

def awaiting (d : Draft) : Option Setting :=
  match d.pending with
  | some (s, none) => some s
  | _ => none

/-- Looks at the value of the setting met last. -/
def settle (d : Draft) : Except OptionError Draft :=
  match d.pending with
  | none => .ok d
  | some (_, none) => .error .invalidValue
  | some (s, some v) => (d.options.give s v).map fun options => { d with options, pending := none }

def give (d : Draft) (s : Setting) (v : Text) : Except OptionError Draft :=
  d.settle.bind fun d => (d.options.give s v).map fun options => { d with options }

def await (d : Draft) (s : Setting) : Except OptionError Draft :=
  d.settle.map fun d => { d with pending := some (s, none) }

def raise (d : Draft) (f : Flag) : Except OptionError Draft :=
  d.settle.bind fun d => (d.options.raise f).map fun options => { d with options }

/-- A word that starts with a double dash: a name, and a value after an equals sign. -/
def long (d : Draft) (name : Text) (value : Option Text) : Except OptionError Draft :=
  match settingNamed name, flagNamed name, value with
  | some s, _, some v => d.give s v
  | some s, _, none => d.await s
  | none, some _, some _ => .error .tooManyValues
  | none, some f, none => d.raise f
  | none, none, _ => .error .unknownArgument

def short (d : Draft) (letter : Char) : Except OptionError Draft :=
  if letter = 'h' then d.raise .help
  else if letter = 'V' then d.raise .version
  else .error .unknownArgument

def plain (d : Draft) (word : Text) : Except OptionError Draft :=
  match d.awaiting with
  | some s => .ok { d with pending := some (s, some word) }
  | none => .error .unknownArgument

def read (d : Draft) (word : Text) : Except OptionError Draft :=
  if d.ended then .error .unknownArgument
  else if d.awaiting.any takesAnyWord then d.plain word
  else match word with
    | ['-', '-'] => .ok { d with ended := true }
    | '-' :: '-' :: rest =>
      d.long (rest.takeWhile (· ≠ '='))
        (if rest.contains '=' then some ((rest.dropWhile (· ≠ '=')).drop 1) else none)
    | '-' :: letter :: _ => d.short letter
    | _ => d.plain word

end Draft

def parse (words : List Text) : Except OptionError Options :=
  ((words.foldlM Draft.read {}).bind Draft.settle).map Draft.options

end Options

def versionText : Text := "tsrepl 0.1.0\n".toList

def usageText : Text :=
  ("Drive a TypeScript interpreter session with editor-style commands read from standard input\n" ++
    "\n" ++
    "Usage: tsrepl [OPTIONS]\n" ++
    "\n" ++
    "Options:\n" ++
    "      --config <CONFIG>            Config file (default: <config dir>/tsrepl/config.toml)\n" ++
    "      --program <PROGRAM>          Interpreter launcher\n" ++
    "      --arg <ARGS>                 Interpreter argument; repeat for more than one\n" ++
    "      --no-ansi                    Do not render ANSI colors; ask the interpreter to skip " ++
    "readline instead\n" ++
    "      --buffer-name <BUFFER_NAME>  Name of the session buffer\n" ++
    "      --start                      Start the interpreter before reading commands\n" ++
    "  -h, --help                       Print help\n" ++
    "  -V, --version                    Print version\n").toList

def OptionError.text : OptionError → Text
  | help => usageText
  | version => versionText
  | _ => []

end Parley
