import ShaderKit.Codec.Decode
import ShaderKit.Codec.Encode
import ShaderKit.Error
import ShaderKit.Interning

/-!
# Trace contexts

The state shared by the functions that are recorded together: the finished recordings, the
functions whose recording has begun, and the module constants. A session adds what scripts
leave behind for their surroundings.
-/

namespace ShaderKit

/-- A module constant. Its value is in the form in which it is decoded from its bytes, and
its label is that of its first occurrence. -/
structure ModuleConstant where
  label : Option String
  type : TypeDescriptor
  value : HostValue
deriving Repr

/-- Functions recorded so far, in the order in which their recording ended, so that
callees stand before their callers. Constants are numbered by type and bytes. -/
structure TraceContext where
  finished : List RecordedFunction := []
  stack : List ShaderFunction := []
  constantKeys : Interning (TypeDescriptor × Bytes) := {}
  constants : List ModuleConstant := []

namespace TraceContext

def find? (context : TraceContext) (id : FunctionId) : Option RecordedFunction :=
  context.finished.find? fun recorded => recorded.id = id

/-- The recorded functions in the order in which their recording ended. -/
def order (context : TraceContext) : List FunctionId :=
  context.finished.map RecordedFunction.id

def constant? (context : TraceContext) (number : Nat) : Option ModuleConstant :=
  context.constants[number]?

/-- Number a constant by its type and bytes. A key keeps its number even if no value can be
read back from its bytes. -/
def internConstant (context : TraceContext) (label : Option String) (type : TypeDescriptor)
    (value : HostValue) : EStateM.Result ShaderError TraceContext Nat :=
  match encodeNew value type with
  | .error error => .error (.encode error) context
  | .ok bytes =>
      let (keys, number, isNew) := context.constantKeys.intern (type, bytes)
      let numbered := { context with constantKeys := keys }
      if isNew then
        match decode bytes type 0 with
        | .error error => .error (.decode error) numbered
        | .ok canonical =>
            .ok number { numbered with
              constants := context.constants ++ [⟨label, type, canonical⟩] }
      else .ok number numbered

/-- The functions from the first occurrence of `id` on the stack to its top. The stack
holds the function begun last at its head. -/
def chainFrom (context : TraceContext) (id : FunctionId) : List ShaderFunction :=
  context.stack.reverse.dropWhile fun function => function.id ≠ id

end TraceContext

inductive Note where
  /-- How an attempted script ended. -/
  | attempted (failure : Option ShaderError)
  | nodeType (function : String) (type : TypeDescriptor)
deriving Repr

inductive MessageLevel where
  | trace
  | debug
  | info
deriving DecidableEq, Repr

def MessageLevel.name : MessageLevel → String
  | .trace => "TRACE"
  | .debug => "DEBUG"
  | .info => "INFO"

structure LogMessage where
  level : MessageLevel
  text : String
deriving DecidableEq, Repr

/-- What recording leaves behind besides recordings: published nodes, notes and messages,
oldest first. -/
structure Journal where
  published : List (String × Node) := []
  notes : List Note := []
  messages : List LogMessage := []
deriving Repr

namespace Journal

def note (journal : Journal) (note : Note) : Journal :=
  { journal with notes := journal.notes ++ [note] }

def log (journal : Journal) (level : MessageLevel) (text : String) : Journal :=
  { journal with messages := journal.messages ++ [⟨level, text⟩] }

/-- Publish a node; an earlier one of that name is replaced. -/
def publish (journal : Journal) (name : String) (node : Node) : Journal :=
  { journal with published := (name, node) :: journal.published }

def published? (journal : Journal) (name : String) : Option Node :=
  (journal.published.find? fun entry => entry.1 = name).map Prod.snd

end Journal

structure Session where
  context : TraceContext := {}
  journal : Journal := {}

/-- Work in a session. What was done before a failure stays done. -/
abbrev Tracing := EStateM ShaderError Session

end ShaderKit
