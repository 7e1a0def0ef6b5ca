import ShaderKit.Module.Declaration
import ShaderKit.Module.FunctionText
import ShaderKit.Recording.Trace

/-!
# Modules

Resolving some functions gives one module text with everything that they reach, and what a
pipeline needs to use it.
-/

namespace ShaderKit

structure ResolveConfig where
  naming : NamingStrategy := .strict
  /-- Whether the text is logged. -/
  logResult : Bool := false
deriving DecidableEq, Repr

structure EntryPoint where
  name : String
  stage : EntryStage
  function : FunctionId
deriving DecidableEq, Repr

/-- A module: its text, its declarations with their identifiers in the order of the text,
the constants, the binding table and the entry points. -/
structure ResolvedModule where
  code : String
  declarations : List (Declaration × String)
  constants : List ModuleConstant
  bindings : BindingTable
  entryPoints : List EntryPoint

namespace ResolvedModule

def identifier? (resolved : ResolvedModule) (declaration : Declaration) : Option String :=
  ModuleNames.lookup? resolved.declarations declaration

def functionIdentifier? (resolved : ResolvedModule) (id : FunctionId) : Option String :=
  resolved.identifier? (.function id)

end ResolvedModule

/-! ## Bindings in use -/

/-- Check that the table declares a buffer as a function uses it. -/
def BindingTable.checkUse (table : BindingTable) (function : String) (used : BindingEntry) :
    Except ResolveError Unit :=
  match table.find? used.slot with
  | none => .error (.unknownBinding used.slot function)
  | some declared =>
      if declared.type ≠ used.type then
        .error (.mismatchedType used.slot function used.type declared.type)
      else if declared.access ≠ used.access then
        .error (.mismatchedAccess used.slot function used.access declared.access)
      else .ok ()

def BindingTable.checkFunction (table : BindingTable) (recorded : RecordedFunction) :
    Except ResolveError Unit :=
  recorded.bindings.forM (table.checkUse recorded.signature.name)

/-! ## Text -/

/-- Whether a type spells half precision numbers. -/
def TypeDescriptor.usesHalf (type : TypeDescriptor) : Bool :=
  type.usesKind .f16

def TraceContext.usesHalf (context : TraceContext) (table : BindingTable) : Bool :=
  context.finished.any (fun recorded => recorded.mentionedTypes.any TypeDescriptor.usesHalf) ||
    context.constants.any (fun constant => constant.type.usesHalf) ||
    table.entries.any fun entry => entry.type.usesHalf

def Declaration.text (context : TraceContext) (table : BindingTable) (names : ModuleNames)
    (registry : NameRegistry) (identifier : String) : Declaration → Option String
  | .type (.struct _ members) => some (names.structText identifier members)
  | .type _ => none
  | .constant number => (context.constant? number).map (names.constantText identifier)
  | .binding slot => (table.find? slot).map (names.bindingText identifier)
  | .helper used => some (names.helperText identifier used)
  | .function id =>
      (context.find? id).map fun recorded =>
        recorded.moduleText identifier names registry.fork

def TraceContext.moduleText (context : TraceContext) (table : BindingTable)
    (names : ModuleNames) (registry : NameRegistry) (named : List (Declaration × String)) :
    String :=
  let directives := if context.usesHalf table then ["enable f16;\n"] else []
  let sections := named.filterMap fun (declaration, identifier) =>
    declaration.text context table names registry identifier
  "\n".intercalate (directives ++ sections)

def entryPointsOf (names : ModuleNames) (roots : List ShaderFunction) : List EntryPoint :=
  roots.filterMap fun root => do
    let name ← ModuleNames.lookup? names.functions root.id
    let stage ← root.signature.stage
    some ⟨name, stage, root.id⟩

def TraceContext.module (context : TraceContext) (roots : List ShaderFunction)
    (table : BindingTable) (naming : NamingStrategy) : ResolvedModule :=
  let (registry, named) :=
    (NameRegistry.new naming).nameDeclarations context table (context.declarations table)
  let names := ModuleNames.ofDeclarations named
  { code := context.moduleText table names registry named
    declarations := named
    constants := context.constants
    bindings := table
    entryPoints := entryPointsOf names roots }

/-! ## Resolving -/

/-- Work with a journal. What was noted before a failure is kept. -/
abbrev Journaled := EStateM ShaderError Journal

def Journaled.lift {α : Type} (answer : Except ResolveError α) : Journaled α :=
  match answer with
  | .ok result => return result
  | .error error => throw (.resolve error)

def Journaled.log (level : MessageLevel) (text : String) : Journaled Unit :=
  modify fun journal => journal.log level text

def Program.traceAll (program : Program) (roots : List ShaderFunction) : Tracing Unit :=
  roots.forM fun root => discard (program.trace root)

/-- Compile the functions that the roots reach into one module. Roots that are no entry
points are compiled too, without being listed as entry points. -/
def Program.resolve (program : Program) (roots : List ShaderFunction) (table : BindingTable)
    (config : ResolveConfig) : Journaled ResolvedModule := do
  Journaled.lift table.validate
  let (_, context) ← (program.traceAll roots).alone
  Journaled.lift (context.finished.forM table.checkFunction)
  let resolved := context.module roots table config.naming
  Journaled.log .debug (s!"resolved {resolved.declarations.length} declarations from " ++
    s!"{context.finished.length} functions, {resolved.entryPoints.length} entry points")
  if config.logResult then Journaled.log .info resolved.code
  return resolved

end ShaderKit
