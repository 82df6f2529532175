import Reconcile.Module.Provides
import Reconcile.Text.Blank

/-!
# Finding created objects in SQL

A scan of SQL text for the tables and functions that it creates, as a proposal for what a manifest
declares. The scan looks at words only: it knows comments up to the end of a line, and statements of
the forms `create [or replace] table [if not exists] name` and
`create [or replace] function name`, where a procedure counts as a function. Names are taken without
schema, quotes and list of arguments.
-/

namespace Reconcile.Sql

/-- A word of a text. -/
abbrev Token := List Char

/-- Whether a word is a keyword. -/
def Token.is (token : Token) (keyword : String) : Bool :=
  Text.sameIgnoringCase token keyword.toList

/-- A line without the comment at its end. -/
def dropComment (line : List Char) : List Char :=
  match Text.cutAt? ['-', '-'] line with
  | some (code, _) => code
  | none => line

/-- The words of a text that are not in comments. -/
def tokens (sql : String) : List Token :=
  (Text.lines sql.toList).flatMap fun line => Text.words (dropComment line)

/-- A character that may stand around a name. -/
def isNameMark (c : Char) : Bool :=
  c == '"' || c == '\x60' || c == ';'

/-- The name in a word, without schema, quotes and what follows an opening parenthesis. -/
def objectName? (token : Token) : Option String :=
  let bare := token.takeWhile (· != '(')
  let last := (bare.reverse.takeWhile (· != '.')).reverse
  let name := Text.trimBy isNameMark last
  if name.isEmpty then none else some (String.ofList name)

/-- The words after `or replace`, if they start so. -/
def skipOrReplace : List Token → List Token
  | a :: b :: rest => if a.is "or" && b.is "replace" then rest else a :: b :: rest
  | words => words

/-- The words after `if not exists`, if they start so. -/
def skipIfNotExists : List Token → List Token
  | a :: b :: c :: rest =>
    if a.is "if" && b.is "not" && c.is "exists" then rest else a :: b :: c :: rest
  | words => words

theorem length_skipOrReplace_le (words : List Token) :
    (skipOrReplace words).length ≤ words.length := by
  unfold skipOrReplace
  split
  · split
    · simp only [List.length_cons]
      omega
    · exact Nat.le_refl _
  · exact Nat.le_refl _

theorem length_skipIfNotExists_le (words : List Token) :
    (skipIfNotExists words).length ≤ words.length := by
  unfold skipIfNotExists
  split
  · split
    · simp only [List.length_cons]
      omega
    · exact Nat.le_refl _
  · exact Nat.le_refl _

/-- An object that is created. -/
inductive Created where
  | table (name : String)
  | function (name : String)
deriving DecidableEq, Repr

/-- What the words after `create` create, and the words to go on with. The word with the name is
among them, as it may begin a statement itself. -/
def readCreated (words : List Token) : Option Created × List Token :=
  match skipOrReplace words with
  | [] => (none, [])
  | object :: after =>
    if object.is "table" then
      (((skipIfNotExists after).head?.bind objectName?).map .table, skipIfNotExists after)
    else if object.is "function" || object.is "procedure" then
      ((after.head?.bind objectName?).map .function, after)
    else (none, after)

theorem length_readCreated_le (words : List Token) :
    (readCreated words).2.length ≤ words.length := by
  have hle := length_skipOrReplace_le words
  unfold readCreated
  split
  · exact Nat.zero_le _
  · next object after heq =>
    rw [heq, List.length_cons] at hle
    have hskip := length_skipIfNotExists_le after
    split
    · exact Nat.le_trans hskip (Nat.le_of_succ_le hle)
    · split <;> exact Nat.le_of_succ_le hle

/-- The objects that a list of words creates. -/
def created : List Token → List Created
  | [] => []
  | word :: rest =>
    if word.is "create" then (readCreated rest).1.toList ++ created (readCreated rest).2
    else created rest
termination_by words => words.length
decreasing_by
  · exact Nat.lt_succ_of_le (length_readCreated_le rest)
  · exact Nat.lt_succ_self rest.length

/-- The name of a table. -/
def Created.tableName? : Created → Option String
  | table name => some name
  | function _ => none

/-- The name of a function. -/
def Created.functionName? : Created → Option String
  | table _ => none
  | function name => some name

/-- The objects as what a module provides, each name once. -/
def provided (objects : List Created) : Provides where
  tables := (objects.filterMap Created.tableName?).eraseDups
  functions := ((objects.filterMap Created.functionName?).eraseDups).map ProvidedFunction.named

/-- What a text of SQL creates. -/
def scan (sql : String) : Provides :=
  provided (created (tokens sql))

end Reconcile.Sql
