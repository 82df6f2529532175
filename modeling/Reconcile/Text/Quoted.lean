import Reconcile.Text.Printable

/-!
# Quoted text

The quoted form in which a text is shown inside a message: double quotes around it, a backslash
before a double quote and before a backslash, short escapes for the null character, the tab, the
line feed and the carriage return, and `\u{…}` with the hexadecimal code point for every other
character that is not plain. Lists, pairs and maps of texts are shown with it, their parts
separated by a comma and a space.
-/

namespace Reconcile.Text

/-- The digits of a number in base sixteen, in lower case. -/
def hex (n : Nat) : String :=
  String.ofList (Nat.toDigits 16 n)

/-- One character as it stands between the quotes. -/
def quoteChar (c : Char) : String :=
  match c with
  | '\x00' => "\\0"
  | '\t' => "\\t"
  | '\n' => "\\n"
  | '\r' => "\\r"
  | '"' => "\\\""
  | '\\' => "\\\\"
  | c => if isPlain c then c.toString else "\\u\x7b" ++ hex c.toNat ++ "\x7d"

/-- A text in double quotes. -/
def quoted (s : String) : String :=
  "\"" ++ String.join (s.toList.map quoteChar) ++ "\""

/-- Parts separated by a comma and a space. -/
def commaList (parts : List String) : String :=
  String.intercalate ", " parts

/-- A bracketed list of shown parts. -/
def bracketed (parts : List String) : String :=
  "[" ++ commaList parts ++ "]"

/-- A shown value that may be absent. -/
def shownOption : Option String → String
  | none => "None"
  | some shown => "Some(" ++ shown ++ ")"

/-- The shown form of a record with a name and named fields. The flag says whether fields follow
that are not shown. -/
def shownFields (name : String) (fields : List (String × String)) (more : Bool) : String :=
  let shown := fields.map fun (field, value) => field ++ ": " ++ value
  name ++ " \x7b " ++ commaList (shown ++ if more then [".."] else []) ++ " \x7d"

end Reconcile.Text
