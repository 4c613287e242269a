import Parley.Session.Config

/-! At most one session is recorded, together with the configuration of the next one. A session
whose process has exited stays recorded until another takes its place. Sessions are numbered as
they start. -/
namespace Parley

/-- A session's number and the buffer it was given. -/
structure Handle where
  id : Nat
  buffer : Text
  deriving DecidableEq, Repr

structure Session where
  handle : Handle
  process : Nat
  deriving DecidableEq, Repr

structure Registry where
  config : Config := {}
  recorded : Option Session := none
  nextId : Nat := 1
  deriving DecidableEq, Repr

namespace Registry

def handle? (r : Registry) : Option Handle := r.recorded.map Session.handle

/-- The recorded session, if it has that buffer. -/
def session? (r : Registry) (buffer : Text) : Option Session :=
  r.recorded.filter fun s => s.handle.buffer = buffer

def takeId (r : Registry) : Nat × Registry := (r.nextId, { r with nextId := r.nextId + 1 })

def install (r : Registry) (s : Session) : Registry := { r with recorded := some s }

def configure (r : Registry) (override : Option Config) : Registry :=
  { r with config := override.getD r.config }

@[simp] theorem configure_none (r : Registry) : r.configure none = r := rfl
@[simp] theorem recorded_configure (r : Registry) (c : Option Config) :
    (r.configure c).recorded = r.recorded := rfl
@[simp] theorem nextId_configure (r : Registry) (c : Option Config) :
    (r.configure c).nextId = r.nextId := rfl
@[simp] theorem recorded_install (r : Registry) (s : Session) :
    (r.install s).recorded = some s := rfl

end Registry
end Parley
