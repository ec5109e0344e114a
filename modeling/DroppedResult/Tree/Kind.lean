/-!
# Node kinds

The grammar gives every node a kind.  The rule reads a handful of kinds; all
others are carried along unread.  `Kind.isCallLike`, `Kind.opensFunction` and
`Kind.isTransparent` are the three classes of kinds that decide a verdict.
-/

namespace DroppedResult

/-- The grammar's name for a sort of node, `call_expression` for instance. -/
structure Kind where
  name : String
  deriving DecidableEq

namespace Kind

def identifier : Kind := ⟨"identifier"⟩

def callExpression : Kind := ⟨"call_expression"⟩
def newExpression : Kind := ⟨"new_expression"⟩
def memberExpression : Kind := ⟨"member_expression"⟩
def parenthesizedExpression : Kind := ⟨"parenthesized_expression"⟩
def nonNullExpression : Kind := ⟨"non_null_expression"⟩
def asExpression : Kind := ⟨"as_expression"⟩
def satisfiesExpression : Kind := ⟨"satisfies_expression"⟩
def typeAssertion : Kind := ⟨"type_assertion"⟩

def importStatement : Kind := ⟨"import_statement"⟩
def importClause : Kind := ⟨"import_clause"⟩
def namedImports : Kind := ⟨"named_imports"⟩
def importSpecifier : Kind := ⟨"import_specifier"⟩
def namespaceImport : Kind := ⟨"namespace_import"⟩

def returnStatement : Kind := ⟨"return_statement"⟩
def statementBlock : Kind := ⟨"statement_block"⟩
def arrowFunction : Kind := ⟨"arrow_function"⟩
def classBody : Kind := ⟨"class_body"⟩
def program : Kind := ⟨"program"⟩

/-- Kinds that open a function scope.  `function` is an older grammar's name
for a function expression. -/
def functionBoundaries : List Kind :=
  [⟨"function_declaration"⟩, ⟨"function_expression"⟩, ⟨"function"⟩,
    ⟨"generator_function"⟩, ⟨"generator_function_declaration"⟩, ⟨"method_definition"⟩]

/-- Wrappers that leave the wrapped value as it is: `(x)`, `x!`, `x as T`,
`x satisfies T` and `<T>x`. -/
def transparentWrappers : List Kind :=
  [parenthesizedExpression, nonNullExpression, asExpression, satisfiesExpression, typeAssertion]

/-- A plain call or a `new` invocation. -/
def isCallLike (k : Kind) : Bool :=
  k == callExpression || k == newExpression

def opensFunction (k : Kind) : Bool :=
  functionBoundaries.contains k

def isTransparent (k : Kind) : Bool :=
  transparentWrappers.contains k

end Kind

end DroppedResult
