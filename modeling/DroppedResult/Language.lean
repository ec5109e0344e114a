import DroppedResult.FilePath

/-!
# Source languages

The three dialects that have a grammar, and how a file's name tells its dialect:
by its suffix, case-sensitively, whatever stands before it.
-/

namespace DroppedResult

inductive Language where
  | typescript
  | tsx
  | javascript
  deriving DecidableEq

namespace Language

/-- All languages, in the order in which a file name is tried. -/
def all : List Language :=
  [tsx, typescript, javascript]

def name : Language → String
  | typescript => "typescript"
  | tsx => "tsx"
  | javascript => "javascript"

def ofName? (s : String) : Option Language :=
  all.find? (·.name == s)

/-- The name as it stands in messages about grammars. -/
def title : Language → String
  | typescript => "TypeScript"
  | tsx => "Tsx"
  | javascript => "JavaScript"

/-- The name under which the language's file patterns are registered. -/
def typeName (l : Language) : String :=
  "mur" ++ l.name

def suffixes : Language → List String
  | typescript => [".ts", ".mts", ".cts"]
  | tsx => [".tsx"]
  | javascript => [".js", ".jsx", ".mjs", ".cjs"]

/-- The file patterns of the language. -/
def globs (l : Language) : List String :=
  l.suffixes.map ("*" ++ ·)

/-- The file name ends in one of the language's suffixes. -/
def owns (l : Language) (fileName : List UInt8) : Bool :=
  l.suffixes.any fun s => (FilePath.ofText s).bytes.isSuffixOf fileName

def detect (path : FilePath) : Option Language :=
  all.find? (·.owns path.fileName)

/-- The place of the language in `all`. -/
def position (l : Language) : Nat :=
  all.idxOf l

end Language

end DroppedResult
