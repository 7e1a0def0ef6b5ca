import ShaderKit.Host.Evaluation
import ShaderKit.Module.Cache

/-!
# Workspaces

A program together with what working on it leaves behind: a trace context, a journal,
remembered modules, and the recordings made so far.
-/

namespace ShaderKit

/-- A program with the state of the work on it. Recordings stand newest first. -/
structure Workspace where
  program : Program
  context : TraceContext := {}
  journal : Journal := {}
  modules : ModuleCache := {}
  recordings : List RecordedFunction := []

namespace Workspace

def trace (workspace : Workspace) (function : ShaderFunction) :
    Workspace × Except ShaderError RecordedFunction :=
  match workspace.program.trace function ⟨workspace.context, workspace.journal⟩ with
  | .error error session =>
      ({ workspace with context := session.context, journal := session.journal },
        .error error)
  | .ok recorded session =>
      ({ workspace with
         context := session.context
         journal := session.journal
         recordings := recorded :: workspace.recordings }, .ok recorded)

def freshContext (workspace : Workspace) : Workspace :=
  { workspace with context := {} }

def quiet (workspace : Workspace) : Workspace :=
  { workspace with journal := { workspace.journal with notes := [], messages := [] } }

def resolve (workspace : Workspace) (roots : List ShaderFunction) (table : BindingTable)
    (config : ResolveConfig) : Workspace × Except ShaderError ResolvedModule :=
  match workspace.program.resolve roots table config workspace.journal with
  | .error error journal => ({ workspace with journal := journal }, .error error)
  | .ok resolved journal => ({ workspace with journal := journal }, .ok resolved)

def resolveOnce (workspace : Workspace) (roots : List ShaderFunction)
    (table : BindingTable) (config : ResolveConfig) :
    Workspace × Except ShaderError (Handle ResolvedModule) :=
  let (modules, journal, answer) :=
    ModuleCache.resolve workspace.modules workspace.program roots table config
      workspace.journal
  ({ workspace with modules := modules, journal := journal }, answer)

def forgetModules (workspace : Workspace) : Workspace :=
  { workspace with modules := workspace.modules.clear }

/-- Trace a function in a context of its own and run it. -/
def evaluate (workspace : Workspace) (fuel : Nat) (function : ShaderFunction)
    (arguments : List HostValue) : Workspace × Evaluation (Option HostValue) :=
  let (outcome, journal) :=
    workspace.program.evaluate fuel function arguments workspace.journal
  ({ workspace with journal := journal }, outcome)

def recording? (workspace : Workspace) (id : FunctionId) : Option RecordedFunction :=
  workspace.recordings.find? fun recorded => recorded.id = id

/-- Run the latest recording of a function, with callees and constants from the context of
the workspace. -/
def evaluateRecording (workspace : Workspace) (fuel : Nat) (id : FunctionId)
    (arguments : List HostValue) : Option (Evaluation (Option HostValue)) :=
  (workspace.recording? id).map fun recorded =>
    recorded.evaluate workspace.context fuel arguments

end Workspace

end ShaderKit
