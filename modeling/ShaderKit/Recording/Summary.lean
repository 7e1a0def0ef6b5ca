import ShaderKit.Recording.Expression

/-!
# Summaries of recordings

A recorded function can be shown without its nodes: an expression by its form, its type
and, for a reference, what may be done through it, and a statement by its form and the
outlines of its blocks. Expressions that only differ in their operands have the same
summary, and so have statements that only differ in their nodes.
-/

namespace ShaderKit

def Expression.formName : Expression → String
  | .parameter _ => "Parameter"
  | .literal _ => "Literal"
  | .constant _ => "Constant"
  | .binding _ => "Binding"
  | .localVariable _ => "Local"
  | .load _ => "Load"
  | .compose _ => "Compose"
  | .zero => "Zeroed"
  | .unary .. => "Unary"
  | .binary .. => "Binary"
  | .member .. => "FieldGet"
  | .index .. => "IndexGet"
  | .swizzle .. => "Swizzle"
  | .call .. => "FunctionCall"
  | .standard .. => "BuiltinCall"
  | .helper .. => "HelperCall"
  | .convert _ => "Convert"

def ReferenceAccess.name : ReferenceAccess → String
  | .read => "Read"
  | .readWrite => "ReadWrite"

def ReferenceRoot.name : ReferenceRoot → String
  | .localVariable => "Local"
  | .binding => "Binding"

def ExpressionEntry.summary (entry : ExpressionEntry) : String :=
  let words := [entry.expression.formName, entry.type.text] ++
    match entry.reference with
    | none => []
    | some reference => [reference.access.name, reference.root.name]
  " ".intercalate words

example : ExpressionEntry.summary ⟨.zero, .scalar .f32, none, 0⟩ = "Zeroed f32" := by
  decide +kernel

example : ExpressionEntry.summary
    ⟨.localVariable 0, .scalar .u32, some ⟨.readWrite, .localVariable⟩, 1⟩ =
      "Local u32 ReadWrite Local" := by
  decide +kernel

inductive Outline where
  | node (name : String) (blocks : List (List Outline))
deriving Repr

mutual
def Statement.outline : Statement → Outline
  | .emit _ => .node "Emit" []
  | .declare .. => .node "Declare" []
  | .store .. => .node "Store" []
  | .callVoid .. => .node "CallVoid" []
  | .branch _ accept reject => .node "If" [outlineBlock accept, outlineBlock reject]
  | .loop body => .node "Loop" [outlineBlock body]
  | .range _ _ _ body => .node "ForRange" [outlineBlock body]
  | .leaveLoop => .node "Break" []
  | .nextRound => .node "Continue" []
  | .giveBack _ => .node "Return" []
  | .discard => .node "Discard" []

def Statement.outlineBlock : List Statement → List Outline
  | [] => []
  | statement :: rest => statement.outline :: outlineBlock rest
end

end ShaderKit
