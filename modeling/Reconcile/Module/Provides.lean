import Reconcile.Text.Quoted

/-!
# What a module provides

The tables and functions that a module declares, and how they are written as a block of its
manifest.
-/

namespace Reconcile

/-- A function that a module provides. -/
structure ProvidedFunction where
  name : String
  description : Option String
  sampleUsage : Option String
deriving DecidableEq, Repr

/-- The tables and functions that a module provides, in the order in which it lists them. -/
structure Provides where
  tables : List String
  functions : List ProvidedFunction
deriving DecidableEq, Repr

/-- A function of which only the name is known. -/
def ProvidedFunction.named (name : String) : ProvidedFunction := ⟨name, none, none⟩

namespace Provides

/-- Nothing is provided. -/
def empty : Provides := ⟨[], []⟩

instance : Inhabited Provides := ⟨empty⟩

/-- Whether nothing is provided. -/
def isEmpty (p : Provides) : Bool :=
  p.tables.isEmpty && p.functions.isEmpty

/-- Whether a table is provided. -/
def hasTable (p : Provides) (table : String) : Bool :=
  p.tables.contains table

/-! ### Writing -/

/-- A character of a text between quotes: a backslash stands before a quote and before a
backslash. -/
def escape : Char → List Char
  | '\\' => ['\\', '\\']
  | '"' => ['\\', '"']
  | c => [c]

/-- A text between quotes. -/
def writeText (s : String) : String :=
  "\"" ++ String.ofList (s.toList.flatMap escape) ++ "\""

/-- A property, where it has a value. -/
def writeProperty (name : String) : Option String → String
  | some value => " " ++ name ++ "=" ++ writeText value
  | none => ""

/-- The line for a table. -/
def writeTable (table : String) : String :=
  "    table " ++ writeText table ++ "\n"

/-- The line for a function. -/
def writeFunction (f : ProvidedFunction) : String :=
  "    function " ++ writeText f.name ++ writeProperty "description" f.description ++
    writeProperty "sample-usage" f.sampleUsage ++ "\n"

/-- The block of a manifest that declares what is provided. -/
def toKdl (p : Provides) : String :=
  "provides \x7b\n" ++ String.join (p.tables.map writeTable) ++
    String.join (p.functions.map writeFunction) ++ "\x7d\n"

/-! ### Showing -/

/-- The shown form of a function. -/
def shownFunction (f : ProvidedFunction) : String :=
  Text.shownFields "ProvidedFunction" [("name", Text.quoted f.name),
    ("description", Text.shownOption (f.description.map Text.quoted)),
    ("sample_usage", Text.shownOption (f.sampleUsage.map Text.quoted))] false

/-- The shown form of what is provided. -/
def shownText (p : Provides) : String :=
  Text.shownFields "Provides" [("tables", Text.bracketed (p.tables.map Text.quoted)),
    ("functions", Text.bracketed (p.functions.map shownFunction))] false

end Provides

end Reconcile
