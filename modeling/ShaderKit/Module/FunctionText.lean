import ShaderKit.Module.Text
import ShaderKit.Naming
import ShaderKit.Text.Blank
import ShaderKit.Text.Rename

/-!
# The text of functions

A recorded function is written statement by statement. An expression that is not inlined
is bound to a name where its statement stands, and spelled by that name from then on; an
inlined expression is spelled wherever it is used.
-/

namespace ShaderKit

/-- What stays the same while one function is written: the names of the module, of the
parameters and of the variables. -/
structure FunctionScope where
  recorded : RecordedFunction
  names : ModuleNames
  parameters : List String
  variableNames : List String

/-- A function text under construction: the lines so far, the names in use, the names of
bound expressions by their index, and the next number of an unnamed value. -/
structure FunctionWriter where
  output : IndentedText
  registry : NameRegistry
  bound : List (Nat × String) := []
  counter : Nat := 0

namespace FunctionScope

open ModuleNames (callText listText lookup lookup?)

def componentLetters (components : List Nat) : String :=
  String.ofList (components.map fun component => ['x', 'y', 'z', 'w'].getD component 'x')

variable (scope : FunctionScope)

def memberName (base : Node) (position : Nat) : String :=
  match scope.recorded.entry? base with
  | none => ""
  | some entry => ((entry.type.members.toList[position]?).map Member.name).getD ""

/-- The spelling of an expression, given the spelling of its operands. -/
def expressionText (text : Node → String) (entry : ExpressionEntry) : String :=
  let typeText := scope.names.typeText entry.type
  match entry.expression with
  | .parameter index => scope.parameters.getD index ""
  | .literal value => value.literal
  | .constant number => lookup scope.names.constants number
  | .binding slot => lookup scope.names.bindings slot
  | .localVariable index => scope.variableNames.getD index ""
  | .load source => text source
  | .compose arguments => callText typeText (arguments.map text)
  | .zero => callText typeText []
  | .unary operator operand => callText operator.token [text operand]
  | .binary operator left right => s!"{text left} {operator.token} {text right}"
  | .member base position => s!"{text base}.{scope.memberName base position}"
  | .index base position => s!"{text base}[{text position}]"
  | .swizzle source components => s!"{text source}.{componentLetters components}"
  | .call callee arguments =>
      callText (lookup scope.names.functions callee) (arguments.map text)
  | .standard .arrayLength arguments => s!"arrayLength(&{listText (arguments.map text)})"
  | .standard function arguments => callText function.name (arguments.map text)
  | .helper helper arguments =>
      callText (lookup scope.names.helpers helper) (arguments.map text)
  | .convert source => callText typeText [text source]

/-- The spelling of a node: the name it is bound to, or else its expression. Operands come
before their expressions, so the index of a node bounds the number of expressions below
it. -/
def textWithin (bound : List (Nat × String)) : (depth : Nat) → Node → String
  | 0, _ => ""
  | depth + 1, node =>
      match lookup? bound node.index with
      | some name => name
      | none =>
          match scope.recorded.entry? node with
          | none => ""
          | some entry => scope.expressionText (textWithin bound depth) entry

def text (bound : List (Nat × String)) (node : Node) : String :=
  scope.textWithin bound (node.index + 1) node

/-- The spelling of a node without regard to a name for the node itself. -/
def definitionText (bound : List (Nat × String)) (node : Node) : String :=
  match scope.recorded.entry? node with
  | none => ""
  | some entry => scope.expressionText (scope.text bound) entry

def variableType (index : Nat) : String :=
  match scope.recorded.locals[index]? with
  | none => ""
  | some declared => scope.names.typeText declared.type

def variableName (index : Nat) : String :=
  scope.variableNames.getD index ""

end FunctionScope

namespace FunctionWriter

def valueTag : String := "v"

def freshName (writer : FunctionWriter) : FunctionWriter × String :=
  let number := writer.registry.freeNumber valueTag writer.counter
  let name := NameRegistry.numbered valueTag number
  ({ writer with registry := writer.registry.use name, counter := number + 1 }, name)

def labelName (writer : FunctionWriter) (label : String) : FunctionWriter × String :=
  let (registry, name) := writer.registry.makeUniqueLabel label
  ({ writer with registry := registry }, name)

def variableName (writer : FunctionWriter) (declared : LocalVariable) :
    FunctionWriter × String :=
  match declared.name with
  | some label => writer.labelName label
  | none => writer.freshName

def nameAll {α : Type} (take : FunctionWriter → α → FunctionWriter × String)
    (writer : FunctionWriter) : List α → FunctionWriter × List String
  | [] => (writer, [])
  | thing :: rest =>
      let (writer, name) := take writer thing
      let (writer, names) := nameAll take writer rest
      (writer, name :: names)

def line (writer : FunctionWriter) (content : String) : FunctionWriter :=
  { writer with output := writer.output.line content }

def enter (writer : FunctionWriter) (content : String) : FunctionWriter :=
  { writer with output := (writer.output.line content).indent }

def leave (writer : FunctionWriter) : FunctionWriter :=
  { writer with output := writer.output.outdent }

def close (writer : FunctionWriter) : FunctionWriter :=
  writer.leave.line "\x7d"

def bind (scope : FunctionScope) (writer : FunctionWriter) (node : Node) :
    FunctionWriter :=
  let definition := scope.definitionText writer.bound node
  let (writer, name) := writer.freshName
  let written := writer.line s!"let {name} = {definition};"
  { written with bound := (node.index, name) :: written.bound }

end FunctionWriter

mutual
def Statement.write (scope : FunctionScope) (writer : FunctionWriter) :
    Statement → FunctionWriter
  | .emit node => writer.bind scope node
  | .declare index none =>
      writer.line s!"var {scope.variableName index}: {scope.variableType index};"
  | .declare index (some initial) =>
      writer.line (s!"var {scope.variableName index}: {scope.variableType index} = " ++
        s!"{scope.text writer.bound initial};")
  | .store target source =>
      writer.line
        s!"{scope.text writer.bound target} = {scope.text writer.bound source};"
  | .callVoid callee arguments =>
      let name := ModuleNames.lookup scope.names.functions callee
      let call := ModuleNames.callText name (arguments.map (scope.text writer.bound))
      writer.line s!"{call};"
  | .branch condition accept reject =>
      let opened := writer.enter (s!"if {scope.text writer.bound condition} " ++ "\x7b")
      let accepted := (writeBlock scope opened accept).leave
      if reject.isEmpty then accepted.line "\x7d"
      else (writeBlock scope (accepted.enter "\x7d else \x7b") reject).close
  | .loop body => (writeBlock scope (writer.enter "loop \x7b") body).close
  | .range counter first last body =>
      let name := scope.variableName counter
      let start := s!"var {name}: {scope.variableType counter} = " ++
        s!"{scope.text writer.bound first}"
      let test := s!"{name} < {scope.text writer.bound last}"
      let opened := writer.enter (s!"for ({start}; {test}; {name}++) " ++ "\x7b")
      (writeBlock scope opened body).close
  | .leaveLoop => writer.line "break;"
  | .nextRound => writer.line "continue;"
  | .giveBack none => writer.line "return;"
  | .giveBack (some node) => writer.line s!"return {scope.text writer.bound node};"
  | .discard => writer.line "discard;"

def writeBlock (scope : FunctionScope) (writer : FunctionWriter) :
    List Statement → FunctionWriter
  | [] => writer
  | statement :: rest => writeBlock scope (statement.write scope writer) rest
end

mutual
/-- Whether a statement is a return, or a choice of which both blocks end in one. -/
def Statement.isReturn : Statement → Bool
  | .giveBack _ => true
  | .branch _ accept reject => endsInReturn accept && endsInReturn reject
  | _ => false

def endsInReturn : List Statement → Bool
  | [] => false
  | [statement] => statement.isReturn
  | _ :: rest => endsInReturn rest
end

namespace RecordedFunction

/-- The result in the head of a function. A single value of a fragment entry point goes to
the first location. -/
def resultText (signature : Signature) (names : ModuleNames) : String :=
  match signature.result with
  | none => ""
  | some type =>
      let location :=
        if signature.stage = some .fragment ∧ !type.isStruct then "@location(0) " else ""
      s!" -> {location}{names.typeText type}"

def headText (signature : Signature) (names : ModuleNames) (identifier : String)
    (parameterNames : List String) : String :=
  let parameters :=
    List.zipWith names.parameterText parameterNames
      (signature.parameters.map Parameter.type)
  s!"fn {identifier}({ModuleNames.listText parameters})" ++
    s!"{resultText signature names} "

def stageLine (signature : Signature) : IndentedText :=
  match signature.stage with
  | none => {}
  | some stage => IndentedText.line {} stage.attribute

def replacements (function : ShaderFunction) (names : ModuleNames) :
    List (String × String) :=
  match function.implementation with
  | .script .. => []
  | .raw _ references =>
      references.filterMap fun (name, id) =>
        (ModuleNames.lookup? names.functions id).map fun identifier => (name, identifier)

def rawText (recorded : RecordedFunction) (identifier : String) (names : ModuleNames)
    (text : String) : String :=
  let signature := recorded.signature
  let head := headText signature names identifier
    (signature.parameters.map Parameter.name)
  let trimmed := String.ofList (Text.trimBlank text.toList)
  let body := Text.rename (replacements recorded.function names) trimmed
  ((stageLine signature).line (head ++ body)).text

/-- The text of a function with recorded statements. A function with a result whose last
statement is a loop ends in a return that is never reached, so that it does not read as if
its end could be reached. -/
def statementsText (recorded : RecordedFunction) (identifier : String)
    (names : ModuleNames) (registry : NameRegistry) (block : Block) : String :=
  let signature := recorded.signature
  let start : FunctionWriter := { output := stageLine signature, registry := registry }
  let (writer, parameters) := start.nameAll (fun writer parameter =>
    writer.labelName parameter.name) signature.parameters
  let (writer, variableNames) := writer.nameAll FunctionWriter.variableName
    recorded.locals.toList
  let scope : FunctionScope := ⟨recorded, names, parameters, variableNames⟩
  let opened := writer.enter (headText signature names identifier parameters ++ "\x7b")
  let written := writeBlock scope opened block
  let ended :=
    match signature.result with
    | none => written
    | some type =>
        if endsInReturn block then written
        else written.line s!"return {names.typeText type}();"
  ended.close.output.text

/-- The text of a function. `registry` holds the names of the module. -/
def moduleText (recorded : RecordedFunction) (identifier : String) (names : ModuleNames)
    (registry : NameRegistry) : String :=
  match recorded.body with
  | .raw text => recorded.rawText identifier names text
  | .statements block => recorded.statementsText identifier names registry block

end RecordedFunction

end ShaderKit
