/-!
# Grammar symbols

The kinds of syntax nodes are an open set of grammar symbols. This module fixes
which of them this library tells apart and how.

`Construct` is the view of a kind that scoping takes: what the node does to the
scope in which the following code runs. `Form` is the view that data flow takes:
how the value of the node arises from its parts. Every kind has exactly one
construct and one form, and all further definitions branch on these two types,
never on the symbols themselves.
-/

namespace PhpTaint.Syntax

/-- The effect of a syntax node on scopes. -/
inductive Construct where
  /-- A whole file. -/
  | program
  /-- A namespace with or without a body. -/
  | namespaceDefinition
  /-- A function declared by name. -/
  | functionDefinition
  /-- A function declared in a class body. -/
  | methodDeclaration
  /-- A function value with a scope of its own and captured variables. -/
  | closure
  /-- A function value that sees the enclosing scope. -/
  | arrowFunction
  /-- A class, interface, trait or enumeration. -/
  | classDeclaration
  /-- Properties declared in a class body. -/
  | propertyDeclaration
  /-- Constants declared by the `const` statement. -/
  | constantDeclaration
  /-- Variables bound to those of the global scope. -/
  | globalDeclaration
  /-- Variables whose binding ends. -/
  | unset
  /-- Variables bound by an assignment. -/
  | assignment
  /-- Variables bound by iteration. -/
  | iteration
  /-- A variable that keeps its value between calls. -/
  | staticVariable
  /-- A function call. -/
  | call
  /-- Anything without an effect of its own. -/
  | plain
  deriving DecidableEq, Repr

/-- The construct of a kind. -/
def Construct.ofKind (kind : String) : Construct :=
  match kind with
  | "program" => .program
  | "namespace_definition" => .namespaceDefinition
  | "function_definition" => .functionDefinition
  | "method_declaration" => .methodDeclaration
  | "anonymous_function" => .closure
  | "anonymous_function_creation_expression" => .closure
  | "arrow_function" => .arrowFunction
  | "class_declaration" => .classDeclaration
  | "interface_declaration" => .classDeclaration
  | "trait_declaration" => .classDeclaration
  | "enum_declaration" => .classDeclaration
  | "property_declaration" => .propertyDeclaration
  | "const_declaration" => .constantDeclaration
  | "global_declaration" => .globalDeclaration
  | "unset_statement" => .unset
  | "assignment_expression" => .assignment
  | "reference_assignment_expression" => .assignment
  | "augmented_assignment_expression" => .assignment
  | "foreach_statement" => .iteration
  | "static_variable_declaration" => .staticVariable
  | "function_call_expression" => .call
  | _ => .plain

/-- Whether code of this construct is analysed apart from the code around it. -/
def Construct.isSeparate : Construct -> Bool
  | .functionDefinition | .methodDeclaration | .arrowFunction | .closure | .classDeclaration => true
  | _ => false

/-- The way in which the value of an expression arises from its parts. -/
inductive Form where
  /-- A constant: nothing flows into it. -/
  | literal
  /-- A variable. -/
  | variableName
  /-- A variable whose name is computed. -/
  | dynamicVariable
  /-- All parts flow into the value. -/
  | operands
  /-- A prefixed operator; negation yields a truth value only. -/
  | unary
  /-- An array display. -/
  | array
  /-- An element or property of a container. -/
  | container
  /-- A property of a class. -/
  | staticProperty
  /-- A function call. -/
  | call
  /-- A method call. -/
  | methodCall
  /-- A choice between two values. -/
  | conditional
  /-- A conversion. -/
  | cast
  /-- A text with embedded expressions. -/
  | interpolated
  /-- An assignment used as a value. -/
  | assignment
  /-- An argument of a call. -/
  | argument
  /-- A form that data flow does not follow. -/
  | other
  deriving DecidableEq, Repr

/-- The form of a kind. -/
def Form.ofKind (kind : String) : Form :=
  match kind with
  | "integer" | "float" | "boolean" | "null" | "string" | "nowdoc" | "name" | "qualified_name"
  | "relative_name" | "class_constant_access_expression" => .literal
  | "variable_name" => .variableName
  | "dynamic_variable_name" => .dynamicVariable
  | "update_expression" | "error_suppression_expression" | "binary_expression"
  | "sequence_expression" | "parenthesized_expression" | "variadic_unpacking" => .operands
  | "unary_op_expression" => .unary
  | "array_creation_expression" => .array
  | "subscript_expression" | "member_access_expression"
  | "nullsafe_member_access_expression" => .container
  | "scoped_property_access_expression" => .staticProperty
  | "function_call_expression" => .call
  | "member_call_expression" | "nullsafe_member_call_expression"
  | "scoped_call_expression" => .methodCall
  | "conditional_expression" => .conditional
  | "cast_expression" => .cast
  | "encapsed_string" | "heredoc" | "heredoc_body" | "shell_command_expression" => .interpolated
  | "assignment_expression" | "reference_assignment_expression"
  | "augmented_assignment_expression" => .assignment
  | "argument" => .argument
  | _ => .other

/-- Whether a kind reads or writes a part of a container. -/
def isContainerKind (kind : String) : Bool := Form.ofKind kind = .container

/-- Whether a kind is a plain part of an interpolated text. -/
def isTextPartKind (kind : String) : Bool :=
  ["string_content", "string_value", "escape_sequence", "heredoc_start", "heredoc_end",
    "text_interpolation", "comment"].contains kind

/-- Whether a kind names a function directly. -/
def isFunctionNameKind (kind : String) : Bool :=
  ["name", "qualified_name", "relative_name"].contains kind

/-- Whether a kind declares a parameter. -/
def isParameterKind (kind : String) : Bool :=
  ["simple_parameter", "variadic_parameter", "property_promotion_parameter"].contains kind

/-- The kinds that are walked without any effect on scopes and without remark. -/
def familiarKinds : List String :=
  ["program", "php_tag", "text", "text_interpolation", "comment", "compound_statement",
    "expression_statement", "echo_statement", "if_statement", "else_clause", "else_if_clause",
    "while_statement", "do_statement", "for_statement", "switch_statement", "switch_block",
    "case_statement", "default_statement", "colon_block", "return_statement", "break_statement",
    "continue_statement", "try_statement", "catch_clause", "finally_clause", "throw_expression",
    "declaration_list", "formal_parameters", "arguments", "argument", "name", "namespace_name",
    "qualified_name", "relative_name", "namespace_name_as_prefix", "namespace_use_declaration",
    "namespace_use_clause", "namespace_use_group", "use_declaration", "declare_statement",
    "declare_directive", "empty_statement", "named_label_statement", "goto_statement",
    "exit_statement", "attribute_list", "attribute_group", "attribute", "visibility_modifier",
    "static_modifier", "abstract_modifier", "final_modifier", "readonly_modifier",
    "var_modifier", "base_clause", "class_interface_clause", "primitive_type", "named_type",
    "optional_type", "union_type", "intersection_type", "bottom_type", "cast_type",
    "enum_declaration_list", "enum_case", "use_list", "use_instead_of_clause", "use_as_clause",
    "function_static_declaration", "anonymous_function_use_clause", "by_ref", "list_literal",
    "pair", "variadic_unpacking", "variadic_placeholder", "reference_modifier",
    "string", "string_content", "string_value", "encapsed_string", "escape_sequence",
    "heredoc", "heredoc_body", "heredoc_start", "heredoc_end", "nowdoc", "nowdoc_body",
    "nowdoc_string", "integer", "float", "boolean", "null", "variable_name",
    "dynamic_variable_name", "binary_expression", "unary_op_expression", "update_expression",
    "cast_expression", "conditional_expression", "parenthesized_expression",
    "sequence_expression", "subscript_expression", "member_access_expression",
    "nullsafe_member_access_expression", "scoped_property_access_expression",
    "class_constant_access_expression", "function_call_expression", "member_call_expression",
    "nullsafe_member_call_expression", "scoped_call_expression", "object_creation_expression",
    "array_creation_expression", "array_element_initializer", "include_expression",
    "include_once_expression", "require_expression", "require_once_expression",
    "print_intrinsic", "clone_expression", "shell_command_expression", "match_expression",
    "match_block", "match_conditional_expression", "match_condition_list",
    "match_default_expression", "error_suppression_expression", "yield_expression",
    "instanceof_expression", "silence_expression", "static_variable_declaration",
    "unset_statement", "global_declaration", "const_declaration", "const_element",
    "property_declaration", "property_element", "property_initializer"]

/-- Whether a kind is one of the `familiarKinds`. -/
def isFamiliarKind (kind : String) : Bool := familiarKinds.contains kind

end PhpTaint.Syntax
