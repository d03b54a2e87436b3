/-
The kinds of syntax nodes.

Rules register their handlers by kind, and every node has one.  A kind has a
name, by which rules, failures and node descriptions refer to it, and belongs to
the class of nodes of its form.  `NodeKind.ofName?` reads a name back.
-/
namespace TreeLint

/-- The kind of a syntax node. -/
inductive NodeKind where
  | compilationUnit
  | classDeclaration
  | methodDeclaration
  | functionDeclaration
  | functionExpression
  | blockFunctionBody
  | expressionFunctionBody
  | block
  | returnStatement
  | expressionStatement
  | variableDeclarationStatement
  | topLevelVariableDeclaration
  | fieldDeclaration
  | variableDeclarationList
  | variableDeclaration
  | namedType
  | assignmentExpression
  | simpleIdentifier
  | prefixedIdentifier
  | propertyAccess
  | methodInvocation
  | functionExpressionInvocation
  | instanceCreationExpression
  | argumentList
  | namedExpression
  | listLiteral
  | integerLiteral
  | doubleLiteral
  | stringLiteral
  | prefixExpression
  | parenthesizedExpression
  | cascadeExpression
  | binaryExpression
deriving DecidableEq, Repr, Inhabited

namespace NodeKind

/-- The name of a kind. -/
def name : NodeKind → String
  | .compilationUnit => "compilation_unit"
  | .classDeclaration => "class_declaration"
  | .methodDeclaration => "method_declaration"
  | .functionDeclaration => "function_declaration"
  | .functionExpression => "function_expression"
  | .blockFunctionBody => "block_function_body"
  | .expressionFunctionBody => "expression_function_body"
  | .block => "block"
  | .returnStatement => "return_statement"
  | .expressionStatement => "expression_statement"
  | .variableDeclarationStatement => "variable_declaration_statement"
  | .topLevelVariableDeclaration => "top_level_variable_declaration"
  | .fieldDeclaration => "field_declaration"
  | .variableDeclarationList => "variable_declaration_list"
  | .variableDeclaration => "variable_declaration"
  | .namedType => "named_type"
  | .assignmentExpression => "assignment_expression"
  | .simpleIdentifier => "simple_identifier"
  | .prefixedIdentifier => "prefixed_identifier"
  | .propertyAccess => "property_access"
  | .methodInvocation => "method_invocation"
  | .functionExpressionInvocation => "function_expression_invocation"
  | .instanceCreationExpression => "instance_creation_expression"
  | .argumentList => "argument_list"
  | .namedExpression => "named_expression"
  | .listLiteral => "list_literal"
  | .integerLiteral => "integer_literal"
  | .doubleLiteral => "double_literal"
  | .stringLiteral => "string_literal"
  | .prefixExpression => "prefix_expression"
  | .parenthesizedExpression => "parenthesized_expression"
  | .cascadeExpression => "cascade_expression"
  | .binaryExpression => "binary_expression"

/-- The name of the class of nodes of a kind. -/
def className : NodeKind → String
  | .compilationUnit => "CompilationUnit"
  | .classDeclaration => "ClassDeclaration"
  | .methodDeclaration => "MethodDeclaration"
  | .functionDeclaration => "FunctionDeclaration"
  | .functionExpression => "FunctionExpression"
  | .blockFunctionBody => "BlockFunctionBody"
  | .expressionFunctionBody => "ExpressionFunctionBody"
  | .block => "Block"
  | .returnStatement => "ReturnStatement"
  | .expressionStatement => "ExpressionStatement"
  | .variableDeclarationStatement => "VariableDeclarationStatement"
  | .topLevelVariableDeclaration => "TopLevelVariableDeclaration"
  | .fieldDeclaration => "FieldDeclaration"
  | .variableDeclarationList => "VariableDeclarationList"
  | .variableDeclaration => "VariableDeclaration"
  | .namedType => "NamedType"
  | .assignmentExpression => "AssignmentExpression"
  | .simpleIdentifier => "SimpleIdentifier"
  | .prefixedIdentifier => "PrefixedIdentifier"
  | .propertyAccess => "PropertyAccess"
  | .methodInvocation => "MethodInvocation"
  | .functionExpressionInvocation => "FunctionExpressionInvocation"
  | .instanceCreationExpression => "InstanceCreationExpression"
  | .argumentList => "ArgumentList"
  | .namedExpression => "NamedExpression"
  | .listLiteral => "ListLiteral"
  | .integerLiteral => "IntegerLiteral"
  | .doubleLiteral => "DoubleLiteral"
  | .stringLiteral => "StringLiteral"
  | .prefixExpression => "PrefixExpression"
  | .parenthesizedExpression => "ParenthesizedExpression"
  | .cascadeExpression => "CascadeExpression"
  | .binaryExpression => "BinaryExpression"

/-- All kinds. -/
def all : List NodeKind := [
  .compilationUnit, .classDeclaration, .methodDeclaration, .functionDeclaration,
  .functionExpression, .blockFunctionBody, .expressionFunctionBody, .block,
  .returnStatement, .expressionStatement, .variableDeclarationStatement,
  .topLevelVariableDeclaration, .fieldDeclaration, .variableDeclarationList,
  .variableDeclaration, .namedType,
  .assignmentExpression, .simpleIdentifier, .prefixedIdentifier, .propertyAccess,
  .methodInvocation, .functionExpressionInvocation, .instanceCreationExpression, .argumentList,
  .namedExpression, .listLiteral, .integerLiteral, .doubleLiteral,
  .stringLiteral, .prefixExpression, .parenthesizedExpression, .cascadeExpression,
  .binaryExpression]

/-- Whether nodes of a kind are expressions, which have a static type. -/
def isExpression : NodeKind → Bool
  | .functionExpression | .assignmentExpression | .simpleIdentifier | .prefixedIdentifier |
  .propertyAccess | .methodInvocation | .functionExpressionInvocation |
  .instanceCreationExpression | .namedExpression | .listLiteral | .integerLiteral |
  .doubleLiteral | .stringLiteral | .prefixExpression | .parenthesizedExpression |
  .cascadeExpression | .binaryExpression => true
  | _ => false

/-- The kind with a given name. -/
def ofName? (s : String) : Option NodeKind :=
  all.find? (fun k => k.name == s)

theorem mem_all (k : NodeKind) : k ∈ all := by cases k <;> decide

theorem ofName?_name (k : NodeKind) : ofName? k.name = some k := by cases k <;> decide

theorem name_of_ofName? {s : String} {k : NodeKind} (h : ofName? s = some k) : k.name = s := by
  simpa using List.find?_some h

end NodeKind

end TreeLint
