/-!
# Kinds of nodes

What a node of a TypeScript file's tree is. Expressions, and the parts of them that a reader of
options and registries meets one by one, have a kind each, with the label that messages and
results use. Types and statements are only walked through, so they share a few kinds.
-/

set_option autoImplicit false

namespace RouteTrim.Tree

/-- What a node is. -/
inductive Kind where
  -- names
  | identifier
  | propertyIdentifier
  | privatePropertyIdentifier
  | typeIdentifier
  | shorthandProperty
  | thisKeyword
  | superKeyword
  | importKeyword
  -- literals
  | number
  | string
  | stringFragment
  | escapeSequence
  | templateString
  | templateSubstitution
  | regex
  | regexPattern
  | regexFlags
  | trueLiteral
  | falseLiteral
  | nullLiteral
  | undefinedLiteral
  | array
  | object
  | pair
  | computedPropertyName
  | spreadElement
  | methodDefinition
  -- functions
  | arrowFunction
  | functionExpression
  | generatorFunction
  | formalParameters
  | parameter
  | typeParameters
  | typeArguments
  | typeClause
  -- other expressions
  | memberExpression
  | optionalChain
  | subscriptExpression
  | callExpression
  | arguments
  | newExpression
  | metaProperty
  | nonNullExpression
  | instantiationExpression
  | unaryExpression
  | updateExpression
  | awaitExpression
  | yieldExpression
  | typeAssertion
  | asExpression
  | satisfiesExpression
  | binaryExpression
  | ternaryExpression
  | assignmentExpression
  | augmentedAssignment
  | sequenceExpression
  | parenthesizedExpression
  -- patterns
  | objectPattern
  | pairPattern
  | shorthandPattern
  | defaultedShorthand
  | arrayPattern
  | assignmentPattern
  | restPattern
  -- types
  | predefinedType
  | typeExpression
  | objectType
  -- classes
  | decorator
  | classExpression
  | classDeclaration
  | abstractClassDeclaration
  | classHeritage
  | heritageClause
  | classBody
  | fieldDefinition
  | indexSignature
  | staticBlock
  -- statements
  | program
  | block
  | expressionStatement
  | exportStatement
  | importStatement
  | ambientDeclaration
  | namespaceDeclaration
  | functionDeclaration
  | typeDeclaration
  | enumDeclaration
  | variableDeclaration
  | variableDeclarator
  | statement
  deriving DecidableEq, Repr, Inhabited

def Kind.label : Kind → String
  | identifier => "identifier"
  | propertyIdentifier => "property_identifier"
  | privatePropertyIdentifier => "private_property_identifier"
  | typeIdentifier => "type_identifier"
  | shorthandProperty => "shorthand_property_identifier"
  | thisKeyword => "this"
  | superKeyword => "super"
  | importKeyword => "import"
  | number => "number"
  | string => "string"
  | stringFragment => "string_fragment"
  | escapeSequence => "escape_sequence"
  | templateString => "template_string"
  | templateSubstitution => "template_substitution"
  | regex => "regex"
  | regexPattern => "regex_pattern"
  | regexFlags => "regex_flags"
  | trueLiteral => "true"
  | falseLiteral => "false"
  | nullLiteral => "null"
  | undefinedLiteral => "undefined"
  | array => "array"
  | object => "object"
  | pair => "pair"
  | computedPropertyName => "computed_property_name"
  | spreadElement => "spread_element"
  | methodDefinition => "method_definition"
  | arrowFunction => "arrow_function"
  | functionExpression => "function_expression"
  | generatorFunction => "generator_function"
  | formalParameters => "formal_parameters"
  | parameter => "required_parameter"
  | typeParameters => "type_parameters"
  | typeArguments => "type_arguments"
  | typeClause => "type_annotation"
  | memberExpression => "member_expression"
  | optionalChain => "optional_chain"
  | subscriptExpression => "subscript_expression"
  | callExpression => "call_expression"
  | arguments => "arguments"
  | newExpression => "new_expression"
  | metaProperty => "meta_property"
  | nonNullExpression => "non_null_expression"
  | instantiationExpression => "instantiation_expression"
  | unaryExpression => "unary_expression"
  | updateExpression => "update_expression"
  | awaitExpression => "await_expression"
  | yieldExpression => "yield_expression"
  | typeAssertion => "type_assertion"
  | asExpression => "as_expression"
  | satisfiesExpression => "satisfies_expression"
  | binaryExpression => "binary_expression"
  | ternaryExpression => "ternary_expression"
  | assignmentExpression => "assignment_expression"
  | augmentedAssignment => "augmented_assignment_expression"
  | sequenceExpression => "sequence_expression"
  | parenthesizedExpression => "parenthesized_expression"
  | objectPattern => "object_pattern"
  | pairPattern => "pair_pattern"
  | shorthandPattern => "shorthand_property_identifier_pattern"
  | defaultedShorthand => "object_assignment_pattern"
  | arrayPattern => "array_pattern"
  | assignmentPattern => "assignment_pattern"
  | restPattern => "rest_pattern"
  | predefinedType => "predefined_type"
  | typeExpression => "type"
  | objectType => "object_type"
  | decorator => "decorator"
  | classExpression => "class"
  | classDeclaration => "class_declaration"
  | abstractClassDeclaration => "abstract_class_declaration"
  | classHeritage => "class_heritage"
  | heritageClause => "heritage_clause"
  | classBody => "class_body"
  | fieldDefinition => "public_field_definition"
  | indexSignature => "index_signature"
  | staticBlock => "class_static_block"
  | program => "program"
  | block => "statement_block"
  | expressionStatement => "expression_statement"
  | exportStatement => "export_statement"
  | importStatement => "import_statement"
  | ambientDeclaration => "ambient_declaration"
  | namespaceDeclaration => "internal_module"
  | functionDeclaration => "function_declaration"
  | typeDeclaration => "type_declaration"
  | enumDeclaration => "enum_declaration"
  | variableDeclaration => "variable_declaration"
  | variableDeclarator => "variable_declarator"
  | statement => "statement"

end RouteTrim.Tree
