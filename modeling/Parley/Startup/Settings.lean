import Parley.Files
import Parley.Session.Config
import Parley.Startup.Options
import Parley.Toml.Document

/-! The configuration that the program starts with: that of a file, with what the command line says
on top. A file that is named must exist; the usual file need not. -/
namespace Parley

inductive SettingsError where
  | notFound (path : Bytes)
  | unreadable (path : Bytes)
  | malformed (path : Bytes)
  deriving DecidableEq, Repr

def SettingsError.message : SettingsError → Text
  | notFound path => "config file not found: ".toList ++ Utf8.lossy path
  | unreadable path => "Failed to read config file: ".toList ++ Utf8.lossy path
  | malformed path => "Failed to parse config file: ".toList ++ Utf8.lossy path

namespace Config

def textOf : Toml.Value → Option Text
  | .string t => some t
  | _ => none

def textsOf : Toml.Value → Option (List Text)
  | .array items => items.mapM textOf
  | _ => none

def booleanOf : Toml.Value → Option Bool
  | .boolean b => some b
  | _ => none

def entryOr {α : Type} (es : Toml.Entries) (key : String) (read : Toml.Value → Option α)
    (default : α) : Option α :=
  match es.get? key.toList with
  | none => some default
  | some v => read v

/-- The configuration that a table describes; other keys than its own are ignored. -/
def ofEntries (es : Toml.Entries) : Option Config := do
  let base : Config := {}
  let program ← entryOr es "program" textOf base.invocation.program
  let args ← entryOr es "args" textsOf base.invocation.args
  let ansiColor ← entryOr es "ansi_color" booleanOf base.ansiColor
  let bufferName ← entryOr es "buffer_name" textOf base.bufferName
  return { invocation := ⟨program, args⟩, ansiColor, bufferName }

/-- The configuration of a file, or the default if there is no such file. -/
def load (fs : Files) (path : Bytes) : Except SettingsError Config :=
  if !fs.isPresent path then .ok {}
  else
    match fs.readText path with
    | .error _ => .error (.unreadable path)
    | .ok text =>
      match (Toml.read? text).bind ofEntries with
      | none => .error (.malformed path)
      | some c => .ok c

def overlay (c : Config) (o : Options) : Config where
  invocation := {
    program := o.program.getD c.invocation.program
    args := if o.args = [] then c.invocation.args else o.args }
  ansiColor := c.ansiColor && !o.noAnsi
  bufferName := o.bufferName.getD c.bufferName

end Config

/-- Where configurations are kept: a directory of the user's choice, and the user's home. -/
structure Places where
  configHome : Option Bytes := none
  home : Bytes

/-- The usual configuration file. A configuration directory that is no absolute path does not
count. -/
def Places.configFile (p : Places) : Bytes :=
  let base := match p.configHome.filter Path.isAbsolute with
    | some dir => dir
    | none => Path.join p.home (Utf8.encode ".config".toList)
  Path.join (Path.join base (Utf8.encode "tsrepl".toList)) (Utf8.encode "config.toml".toList)

def resolveConfig (fs : Files) (p : Places) (o : Options) : Except SettingsError Config :=
  let base := match o.config with
    | some path =>
      let path := Utf8.encode path
      if fs.isPresent path then Config.load fs path else .error (.notFound path)
    | none => Config.load fs p.configFile
  base.map (·.overlay o)

end Parley
