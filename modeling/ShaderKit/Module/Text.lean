import ShaderKit.Module.Names
import ShaderKit.Recording.Context
import ShaderKit.Text.Indented

/-!
# The text of declarations

Constants, structures, bindings and helpers as they stand in the text of a module.
-/

namespace ShaderKit

namespace ModuleNames

def listText (texts : List String) : String :=
  ", ".intercalate texts

def callText (callee : String) (arguments : List String) : String :=
  callee ++ "(" ++ listText arguments ++ ")"

def componentsText (type : TypeDescriptor) (components : Components) : String :=
  callText type.text (components.map Scalar.literal)

end ModuleNames

open ModuleNames (callText componentsText listText)

mutual
/-- The constant expression for a value of a type. -/
def TypeDescriptor.valueText (names : ModuleNames) : TypeDescriptor → HostValue → String
  | .array element length, .array elements =>
      callText (names.typeText (.array element length))
        (elements.map (element.valueText names))
  | .struct label members, .struct values =>
      callText (names.typeText (.struct label members)) (members.valueTexts names values)
  | .matrix kind columns rows, .matrix values =>
      callText (TypeDescriptor.matrix kind columns rows).text
        (values.map (componentsText (.vector kind rows)))
  | _, .scalar value => value.literal
  | type, .vector values => componentsText type values
  | type, _ => callText (names.typeText type) []

/-- The constant expressions for the members of a structure, in declaration order. A
missing member is the zero value of its type. -/
def MemberList.valueTexts (names : ModuleNames) :
    MemberList → List (String × HostValue) → List String
  | .nil, _ => []
  | .cons name type _ rest, values =>
      let text :=
        match HostValue.memberIn? name values with
        | some value => type.valueText names value
        | none => callText (names.typeText type) []
      text :: rest.valueTexts names values
end

/-- The attributes in front of a member. Integers that are handed from stage to stage are
not interpolated. -/
def Member.attributeText (member : Member) : String :=
  let align := (member.attributes.align.map fun bytes => s!"@align({bytes}) ").getD ""
  let size := (member.attributes.size.map fun bytes => s!"@size({bytes}) ").getD ""
  let exchange :=
    match member.attributes.io with
    | some (.location index) =>
        let flat := member.type.scalarKind?.any ScalarKind.isInteger
        s!"@location({index}) " ++ (if flat then "@interpolate(flat) " else "")
    | some (.builtin builtin) => s!"@builtin({builtin.name}) "
    | none => ""
  align ++ size ++ exchange

namespace ModuleNames

def structText (names : ModuleNames) (name : String) (members : MemberList) : String :=
  let lines := members.toList.map fun member =>
    s!"{member.attributeText}{member.name}: {names.typeText member.type},"
  let opened : IndentedText := IndentedText.line {} (s!"struct {name} " ++ "\x7b")
  ((opened.indent.lines lines).outdent.line "\x7d").text

def bindingText (names : ModuleNames) (name : String) (entry : BindingEntry) : String :=
  s!"{entry.slot.attributes} var<{entry.access.addressSpace}> {name}: " ++
    s!"{names.typeText entry.type};\n"

def constantText (names : ModuleNames) (name : String) (constant : ModuleConstant) :
    String :=
  s!"const {name}: {names.typeText constant.type} = " ++
    s!"{constant.type.valueText names constant.value};\n"

def parameterText (names : ModuleNames) (name : String) (type : TypeDescriptor) : String :=
  s!"{name}: {names.typeText type}"

def helperText (names : ModuleNames) (name : String) (helper : Helper) : String :=
  let parameters :=
    List.zipWith names.parameterText helper.parameterNames helper.parameterTypes
  s!"fn {name}({listText parameters}) -> {names.typeText helper.resultType} " ++
    s!"{helper.block}\n"

end ModuleNames

end ShaderKit
