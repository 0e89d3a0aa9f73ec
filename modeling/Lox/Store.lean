import Lox.Value

/-!
# The store

Frames hold the variables of one run of a scope. Each frame but the outermost ones has a link to the
frame around it, which is older, so that following links comes to an end. Fields of instances are
kept beside the frames.

A variable is reached in two ways: by walking from a frame to the nearest one that binds its name
(`get?`, `assign?`), or in exactly the frame a number of links away (`getAt?`, `assignAt?`).

Contents: `Frame`, `Store`; frames (`newFrame`, `enclosing?`, `read?`, `define`); the two ways to a
variable; instances (`newInstance`, `field?`, `setField`).
-/

namespace Lox

structure Frame where
  bindings : Bindings String Value
  enclosing : Option FrameId

structure Store where
  frames : Array Frame
  fields : Array (Bindings String Value)
  identities : Nat

namespace Store

def empty : Store := ⟨#[], #[], 0⟩

/-! ## Frames -/

def newFrame (enclosing : Option FrameId) (s : Store) : FrameId × Store :=
  (s.frames.size, { s with frames := s.frames.push ⟨.empty, enclosing⟩ })

/-- The frame around a frame. Only an older frame counts as one. -/
def enclosing? (s : Store) (frame : FrameId) : Option FrameId :=
  match s.frames[frame]? with
  | some { enclosing := some outer, .. } => if outer < frame then some outer else none
  | _ => none

theorem enclosing?_lt {s : Store} {frame outer : FrameId} (link : s.enclosing? frame = some outer) :
    outer < frame := by
  unfold enclosing? at link
  split at link
  · split at link
    · rename_i older
      exact Option.some.inj link ▸ older
    · cases link
  · cases link

def read? (s : Store) (frame : FrameId) (name : String) : Option Value :=
  match s.frames[frame]? with
  | some content => content.bindings.find? name
  | none => none

def define (frame : FrameId) (name : String) (value : Value) (s : Store) : Store :=
  { s with frames := s.frames.modify frame fun content =>
      { content with bindings := content.bindings.insert name value } }

/-! ## The nearest binding -/

def binder? (s : Store) (name : String) (frame : FrameId) : Option FrameId :=
  if (s.read? frame name).isSome then some frame
  else
    match _link : s.enclosing? frame with
    | some outer => s.binder? name outer
    | none => none
termination_by frame
decreasing_by exact enclosing?_lt _link

def get? (s : Store) (frame : FrameId) (name : String) : Option Value :=
  match s.binder? name frame with
  | some binder => s.read? binder name
  | none => none

def assign? (frame : FrameId) (name : String) (value : Value) (s : Store) : Option Store :=
  match s.binder? name frame with
  | some binder => some (s.define binder name value)
  | none => none

/-! ## The binding at a distance -/

def ancestor? (s : Store) (frame : FrameId) : Nat → Option FrameId
  | 0 => some frame
  | links + 1 =>
    match s.enclosing? frame with
    | some outer => s.ancestor? outer links
    | none => none

def getAt? (s : Store) (frame : FrameId) (links : Nat) (name : String) : Option Value :=
  match s.ancestor? frame links with
  | some ancestor => s.read? ancestor name
  | none => none

/-- Binds a name in exactly the frame that many links away, whether or not it was bound there. -/
def assignAt? (frame : FrameId) (links : Nat) (name : String) (value : Value) (s : Store) : Option Store :=
  match s.ancestor? frame links with
  | some ancestor => some (s.define ancestor name value)
  | none => none

/-! ## Functions, classes and instances -/

def newIdentity (s : Store) : Nat × Store :=
  (s.identities, { s with identities := s.identities + 1 })

def newInstance (type : Class) (s : Store) : Instance × Store :=
  (⟨s.fields.size, type⟩, { s with fields := s.fields.push .empty })

def field? (s : Store) (i : Instance) (name : String) : Option Value :=
  match s.fields[i.id]? with
  | some fields => fields.find? name
  | none => none

def setField (i : Instance) (name : String) (value : Value) (s : Store) : Store :=
  { s with fields := s.fields.modify i.id fun fields => fields.insert name value }

/-! ## Globals -/

def globals : FrameId := 0

def initial : Store :=
  define globals Native.clock.name (.native .clock) (empty.newFrame none).2

end Store

end Lox
