import Parley.Main
import Parley.Proofs.Editor.Attachment
import Parley.Proofs.Editor.Cursor
import Parley.Proofs.Editor.Kinds
import Parley.Proofs.Editor.Scene
import Parley.Proofs.Expression.Groups
import Parley.Proofs.Expression.Lexemes
import Parley.Proofs.Expression.Limits
import Parley.Proofs.Expression.Marking
import Parley.Proofs.Expression.Outside
import Parley.Proofs.Expression.Passing
import Parley.Proofs.Expression.Prefixes
import Parley.Proofs.Expression.Readings
import Parley.Proofs.Expression.Starts
import Parley.Proofs.Expression.Words
import Parley.Proofs.Interpreter.Account
import Parley.Proofs.Interpreter.Fronts
import Parley.Proofs.Interpreter.Growth
import Parley.Proofs.Interpreter.Plain
import Parley.Proofs.Interpreter.Reads
import Parley.Proofs.Interpreter.Setting
import Parley.Proofs.Path.Names
import Parley.Proofs.Session.Attachments
import Parley.Proofs.Session.Configuration
import Parley.Proofs.Session.Delivery
import Parley.Proofs.Session.Display
import Parley.Proofs.Session.Excerpts
import Parley.Proofs.Session.Expressions
import Parley.Proofs.Session.Focus
import Parley.Proofs.Session.Imports
import Parley.Proofs.Session.Invocations
import Parley.Proofs.Session.Launches
import Parley.Proofs.Session.Likeness
import Parley.Proofs.Session.Office
import Parley.Proofs.Session.Refusals
import Parley.Proofs.Session.Run
import Parley.Proofs.Session.Schedule
import Parley.Proofs.Session.Separation
import Parley.Proofs.Session.Sight
import Parley.Proofs.Session.Stages
import Parley.Proofs.Session.Steps
import Parley.Proofs.Session.Succession
import Parley.Proofs.Session.Threads
import Parley.Proofs.Shell.Beats
import Parley.Proofs.Shell.Echoes
import Parley.Proofs.Shell.Grammar
import Parley.Proofs.Shell.Insertions
import Parley.Proofs.Shell.Replaced
import Parley.Proofs.Shell.Runs
import Parley.Proofs.Shell.Scripts
import Parley.Proofs.Style.Pushing
import Parley.Proofs.Terminal.Actions
import Parley.Proofs.Terminal.Chunks
import Parley.Proofs.Terminal.Clean
import Parley.Proofs.Terminal.Composition
import Parley.Proofs.Terminal.Cuts
import Parley.Proofs.Terminal.Escapes
import Parley.Proofs.Terminal.Extended
import Parley.Proofs.Terminal.Occurrences
import Parley.Proofs.Terminal.Painted
import Parley.Proofs.Terminal.Room
import Parley.Proofs.Terminal.Selected
import Parley.Proofs.Terminal.Selection
import Parley.Proofs.Terminal.Sequences
import Parley.Proofs.Terminal.Stripped
import Parley.Proofs.Terminal.Strokes
import Parley.Proofs.Terminal.Unstripped
import Parley.Proofs.Text.Blanks
import Parley.Proofs.Text.Numerals
import Parley.Proofs.Text.Spacing
import Parley.Proofs.Transcript.Reading
import Parley.Proofs.Utf8.Heads
import Parley.Proofs.Utf8.Repairs
import Parley.Proofs.Utf8.Stream
import Parley.Proofs.Utf8.Stubs
