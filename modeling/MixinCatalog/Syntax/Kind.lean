/-!
# Kinds of syntax nodes

Every node of a syntax tree carries the name its grammar gives it. The kinds that decide whether a
declaration is a mixin have constructors of their own; all the others keep just their name.
`Role` is the closed set of parts a node can play in the recognition rules.
-/

namespace MixinCatalog.Syntax

/-- What a token or a construct is called by the grammar. -/
inductive Kind where
  | program
  | comment
  | exportStatement
  | lexicalDeclaration
  | variableDeclaration
  | variableDeclarator
  | functionDeclaration
  | generatorFunctionDeclaration
  | functionSignature
  | arrowFunction
  | functionExpression
  | function
  | generatorFunction
  | classExpression
  | classDeclaration
  | abstractClassDeclaration
  | classHeritage
  | extendsClause
  | returnStatement
  | statementBlock
  | identifier
  | typeIdentifier
  | parenthesizedExpression
  | nonNullExpression
  | asExpression
  | satisfiesExpression
  | typeAssertion
  | requiredParameter
  | optionalParameter
  | assignmentPattern
  | other (name : String)
deriving DecidableEq, Repr, Inhabited

inductive Role where
  | variableStatement
  | functionDeclaration
  | functionLike
  | classExpression
  | classDeclaration
  | returnStatement
  | block
  | identifier
  | other
deriving DecidableEq, Repr, Inhabited

namespace Kind

/-- The kind with a given grammar name. The word `class` names class expressions, and also the
keyword token, which is told apart by not being a named node. -/
def ofName : String → Kind
  | "program" => .program
  | "comment" => .comment
  | "export_statement" => .exportStatement
  | "lexical_declaration" => .lexicalDeclaration
  | "variable_declaration" => .variableDeclaration
  | "variable_declarator" => .variableDeclarator
  | "function_declaration" => .functionDeclaration
  | "generator_function_declaration" => .generatorFunctionDeclaration
  | "function_signature" => .functionSignature
  | "arrow_function" => .arrowFunction
  | "function_expression" => .functionExpression
  | "function" => .function
  | "generator_function" => .generatorFunction
  | "class" => .classExpression
  | "class_declaration" => .classDeclaration
  | "abstract_class_declaration" => .abstractClassDeclaration
  | "class_heritage" => .classHeritage
  | "extends_clause" => .extendsClause
  | "return_statement" => .returnStatement
  | "statement_block" => .statementBlock
  | "identifier" => .identifier
  | "type_identifier" => .typeIdentifier
  | "parenthesized_expression" => .parenthesizedExpression
  | "non_null_expression" => .nonNullExpression
  | "as_expression" => .asExpression
  | "satisfies_expression" => .satisfiesExpression
  | "type_assertion" => .typeAssertion
  | "required_parameter" => .requiredParameter
  | "optional_parameter" => .optionalParameter
  | "assignment_pattern" => .assignmentPattern
  | name => .other name

/-- The part nodes of this kind play in the recognition rules. -/
def role : Kind → Role
  | lexicalDeclaration | variableDeclaration => .variableStatement
  | functionDeclaration | generatorFunctionDeclaration | functionSignature => .functionDeclaration
  | arrowFunction | functionExpression | function | generatorFunction => .functionLike
  | classExpression => .classExpression
  | classDeclaration | abstractClassDeclaration => .classDeclaration
  | returnStatement => .returnStatement
  | statementBlock => .block
  | identifier | typeIdentifier => .identifier
  | _ => .other

end Kind

end MixinCatalog.Syntax
