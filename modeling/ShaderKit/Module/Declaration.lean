import ShaderKit.Naming
import ShaderKit.Module.Names
import ShaderKit.Recording.Context

/-!
# Declarations

What a module declares, in an order in which everything stands before its first use, and
the identifiers of the declarations.
-/

namespace ShaderKit

/-- One item of a module. Arrays are spelled where they are used, so of types only
structures are declared. -/
inductive Declaration where
  | type (type : TypeDescriptor)
  | constant (number : Nat)
  | binding (slot : Slot)
  | helper (helper : Helper)
  | function (id : FunctionId)
deriving DecidableEq, Repr

/-! ## Collecting -/

def declare (known : List Declaration) (declaration : Declaration) : List Declaration :=
  if known.contains declaration then known else known ++ [declaration]

mutual
def TypeDescriptor.declare (known : List Declaration) : TypeDescriptor → List Declaration
  | .array element _ => element.declare known
  | .struct label members =>
      if known.contains (.type (.struct label members)) then known
      else ShaderKit.declare (members.declare known) (.type (.struct label members))
  | _ => known

def MemberList.declare (known : List Declaration) : MemberList → List Declaration
  | .nil => known
  | .cons _ type _ rest => rest.declare (type.declare known)
end

def declareTypes (known : List Declaration) (types : List TypeDescriptor) :
    List Declaration :=
  types.foldl TypeDescriptor.declare known

def TraceContext.declareConstant (context : TraceContext) (known : List Declaration)
    (number : Nat) : List Declaration :=
  let types := (context.constant? number).toList.map ModuleConstant.type
  declare (declareTypes known types) (.constant number)

def BindingTable.declareBinding (table : BindingTable) (known : List Declaration)
    (used : BindingEntry) : List Declaration :=
  let types := (table.find? used.slot).toList.map BindingEntry.type
  declare (declareTypes known types) (.binding used.slot)

def Helper.declare (known : List Declaration) (helper : Helper) : List Declaration :=
  ShaderKit.declare (declareTypes known helper.parameterTypes) (.helper helper)

/-- Declare a function after everything that it mentions. -/
def RecordedFunction.declare (context : TraceContext) (table : BindingTable)
    (known : List Declaration) (recorded : RecordedFunction) : List Declaration :=
  let withTypes := declareTypes known recorded.mentionedTypes
  let withConstants := recorded.constants.foldl context.declareConstant withTypes
  let withBindings := recorded.bindings.foldl table.declareBinding withConstants
  let withHelpers := recorded.helpers.foldl Helper.declare withBindings
  ShaderKit.declare withHelpers (.function recorded.id)

/-- The declarations of a module with the functions of a context. -/
def TraceContext.declarations (context : TraceContext) (table : BindingTable) :
    List Declaration :=
  context.finished.foldl (RecordedFunction.declare context table) []

/-! ## Naming -/

def Declaration.label (context : TraceContext) (table : BindingTable) :
    Declaration → String
  | .type (.struct (some label) _) => label
  | .type _ => "Struct"
  | .constant number => ((context.constant? number).bind ModuleConstant.label).getD "constant"
  | .binding slot =>
      ((table.find? slot).bind BindingEntry.label).getD
        s!"group{slot.group}_binding{slot.number}"
  | .helper used => used.label
  | .function id =>
      ((context.find? id).map fun recorded => recorded.signature.name).getD "function"

/-- Whether a declaration is an entry point. The names of entry points belong to the
interface of the module, so they keep their labels. -/
def Declaration.isEntryPoint (context : TraceContext) : Declaration → Bool
  | .function id => (context.find? id).any fun recorded => recorded.signature.stage.isSome
  | _ => false

namespace ModuleNames

def add (names : ModuleNames) (declaration : Declaration) (identifier : String) :
    ModuleNames :=
  match declaration with
  | .type type => { names with types := (type, identifier) :: names.types }
  | .constant number => { names with constants := (number, identifier) :: names.constants }
  | .binding slot => { names with bindings := (slot, identifier) :: names.bindings }
  | .helper helper => { names with helpers := (helper, identifier) :: names.helpers }
  | .function id => { names with functions := (id, identifier) :: names.functions }

def ofDeclarations (named : List (Declaration × String)) : ModuleNames :=
  named.foldl (fun names entry => names.add entry.1 entry.2) {}

end ModuleNames

/-- Give identifiers to declarations in order. The answer is the registry afterwards and
the declarations with their identifiers. -/
def NameRegistry.nameDeclarations (context : TraceContext) (table : BindingTable)
    (registry : NameRegistry) :
    List Declaration → NameRegistry × List (Declaration × String)
  | [] => (registry, [])
  | declaration :: rest =>
      let label := declaration.label context table
      let (registry, identifier) :=
        if declaration.isEntryPoint context then registry.makeUniqueLabel label
        else registry.makeUnique label
      let (registry, named) := registry.nameDeclarations context table rest
      (registry, (declaration, identifier) :: named)

end ShaderKit
