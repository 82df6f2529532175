import Reconcile.Proofs.Kdl.Block
import Reconcile.Proofs.Module.Manifest

/-!
# Reading what a module provides

What is provided is written as a block of lines, one for each table and each function. With a line
for the module before it, the block is a manifest that declares the same tables and functions,
descriptions and sample usages included, in the same order.

Texts are written with backslashes before backslashes and quotes, but line ends and characters that
may not stand in a document are written as they are. If there is such a character in any of the
texts, the manifest is no document (`Manifest.parse_toKdl`).
-/

namespace Reconcile

open Kdl (TextEntry TextNode Node isPlainText isWord quotedText writtenEntries writtenLines
  writtenBlock)

namespace Provides

/-! ### What is written, as lines -/

/-- An argument with a text. -/
def argument (text : String) : TextEntry := ⟨none, text, by simp⟩

/-- A property with a text, where it has a value. -/
def properties (name : String) (hname : isWord name.toList = true) :
    Option String → List TextEntry
  | some value => [⟨some name, value, by simpa using hname⟩]
  | none => []

/-- The line that declares a module. -/
def moduleLine (name : String) (version : Option String) : TextNode :=
  ⟨"module", argument name :: properties "version" (by decide) version, by decide⟩

/-- The line for a table. -/
def tableLine (table : String) : TextNode := ⟨"table", [argument table], by decide⟩

/-- The line for a function. -/
def functionLine (f : ProvidedFunction) : TextNode where
  word := "function"
  entries := argument f.name :: (properties "description" (by decide) f.description ++
    properties "sample-usage" (by decide) f.sampleUsage)
  isWord_word := by decide

/-- The lines for what is provided. -/
def lines (p : Provides) : List TextNode := p.tables.map tableLine ++ p.functions.map functionLine

/-- The texts in what is provided. -/
def texts (p : Provides) : List String :=
  p.tables ++ p.functions.flatMap fun f =>
    f.name :: (f.description.toList ++ f.sampleUsage.toList)

/-- A module node as it is written. -/
def writeModule (name : String) (version : Option String) : String :=
  "module " ++ writeText name ++ writeProperty "version" version ++ "\n"

theorem toList_writeText (text : String) : (writeText text).toList = quotedText text.toList := by
  simp [writeText, quotedText]

theorem toList_writeProperty (name : String) (hname : isWord name.toList = true)
    (value : Option String) :
    (writeProperty name value).toList = writtenEntries (properties name hname value) := by
  cases value with
  | none => rfl
  | some value =>
    simp [writeProperty, writtenEntries, properties, TextEntry.written, toList_writeText]

theorem writtenEntries_argument (text : String) (entries : List TextEntry) :
    writtenEntries (argument text :: entries) =
      ' ' :: ((writeText text).toList ++ writtenEntries entries) := by
  simp [writtenEntries, argument, TextEntry.written, toList_writeText]

theorem toList_writeModule (name : String) (version : Option String) :
    (writeModule name version).toList = (moduleLine name version).written ++ ['\n'] := by
  have hversion := toList_writeProperty "version" (by decide) version
  simp [writeModule, moduleLine, TextNode.written, writtenEntries_argument, hversion]

theorem toList_writeTable (table : String) :
    (writeTable table).toList = writtenLines [tableLine table] := by
  simp [writeTable, tableLine, writtenLines, Kdl.indented, TextNode.written,
    writtenEntries_argument]
  rfl

theorem toList_writeFunction (f : ProvidedFunction) :
    (writeFunction f).toList = writtenLines [functionLine f] := by
  have hdescription := toList_writeProperty "description" (by decide) f.description
  have hsample := toList_writeProperty "sample-usage" (by decide) f.sampleUsage
  delta writeFunction
  simp [functionLine, writtenLines, Kdl.indented, TextNode.written, writtenEntries_argument,
    hdescription, hsample, Kdl.writtenEntries_append]

/-- Texts that are written as lines, one after the other. -/
theorem toList_join_map {α : Type} {write : α → String} {line : α → TextNode}
    (h : ∀ a, (write a).toList = writtenLines [line a]) (l : List α) :
    (String.join (l.map write)).toList = writtenLines (l.map line) := by
  induction l with
  | nil => rfl
  | cons a l ih =>
    rw [List.map_cons, String.join_cons, String.toList_append, h, ih]
    simp [writtenLines]

theorem toList_toKdl (p : Provides) :
    p.toKdl.toList = "provides".toList ++ ' ' :: writtenBlock p.lines := by
  simp [toKdl, writtenBlock, lines, toList_join_map toList_writeTable,
    toList_join_map toList_writeFunction, writtenLines]

/-! ### What the lines declare -/

theorem texts_tableLine (table : String) : (tableLine table).node.texts = [table] := rfl

theorem addProvided_functionLine (p : Provides) (f : ProvidedFunction) :
    Manifest.addProvided p (functionLine f).node =
      .ok { p with functions := p.functions ++ [f] } := by
  obtain ⟨name, _ | description, _ | sampleUsage⟩ := f <;> rfl

theorem foldlM_tableLine (tables : List String) (p : Provides) :
    ((tables.map tableLine).map TextNode.node).foldlM Manifest.addProvided p =
      .ok { p with tables := p.tables ++ tables } := by
  have hname : ∀ node ∈ (tables.map tableLine).map TextNode.node, node.name = "table" := by
    simp [tableLine, TextNode.node, Node.name]
  have htexts : ((tables.map tableLine).map TextNode.node).flatMap Node.texts = tables := by
    simp [List.flatMap_map, texts_tableLine]
  rw [Manifest.foldlM_tables hname, htexts]

theorem foldlM_functionLine (functions : List ProvidedFunction) (p : Provides) :
    ((functions.map functionLine).map TextNode.node).foldlM Manifest.addProvided p =
      .ok { p with functions := p.functions ++ functions } := by
  induction functions generalizing p with
  | nil => exact congrArg Except.ok (by rw [List.append_nil])
  | cons f functions ih =>
    rw [List.map_cons, List.map_cons, List.foldlM_cons, addProvided_functionLine]
    refine (ih _).trans (congrArg Except.ok ?_)
    rw [List.append_assoc, List.singleton_append]

/-- The lines for what is provided declare all of it, in the same order. -/
theorem foldlM_lines (p : Provides) :
    (p.lines.map TextNode.node).foldlM Manifest.addProvided .empty = .ok p := by
  rw [lines, List.map_append, List.foldlM_append, foldlM_tableLine]
  refine (foldlM_functionLine p.functions _).trans ?_
  rfl

theorem all_isPlain_properties (name : String) (hname : isWord name.toList = true)
    (value : Option String) :
    (properties name hname value).all TextEntry.isPlain = value.toList.all isPlainText := by
  cases value <;> rfl

theorem isPlain_moduleLine (name : String) (version : Option String) :
    (moduleLine name version).isPlain = (name :: version.toList).all isPlainText := by
  rw [moduleLine, TextNode.isPlain, List.all_cons, List.all_cons, all_isPlain_properties]
  rfl

theorem isPlain_functionLine (f : ProvidedFunction) :
    (functionLine f).isPlain =
      (f.name :: (f.description.toList ++ f.sampleUsage.toList)).all isPlainText := by
  rw [functionLine, TextNode.isPlain, List.all_cons, List.all_append, all_isPlain_properties,
    all_isPlain_properties, List.all_cons, List.all_append]
  rfl

/-- The texts on the lines are those in what is provided. -/
theorem all_isPlain_lines (p : Provides) :
    p.lines.all TextNode.isPlain = p.texts.all isPlainText := by
  rw [lines, texts, List.all_append, List.all_append, List.all_map, List.all_map, List.all_flatMap]
  congr 1
  · exact congrArg (List.all p.tables) (funext fun table => Bool.and_true _)
  · exact congrArg (List.all p.functions) (funext fun f => isPlain_functionLine f)

end Provides

namespace Manifest

/-- The manifest of a module that provides something. -/
theorem ofDocument_module_provides {name : String} (hname : name ≠ "")
    (hseparator : versionSeparator ∉ name.toList) (version : Option String) (p : Provides) :
    ofDocument [(Provides.moduleLine name version).node,
        ⟨"provides", [], p.lines.map TextNode.node⟩] =
      .ok ⟨name, version, [], p⟩ := by
  have hmodule : addNode blank (Provides.moduleLine name version).node =
      .ok ⟨name, version, [], .empty⟩ := by
    cases version <;> rfl
  have hprovides : addNode ⟨name, version, [], .empty⟩ ⟨"provides", [], p.lines.map TextNode.node⟩ =
      .ok ⟨name, version, [], p⟩ := by
    rw [addNode_of_provides rfl]
    exact congrArg (Except.map _) (Provides.foldlM_lines p)
  have hcontains : name.toList.contains versionSeparator = false := by
    simpa using hseparator
  have hfold : [(Provides.moduleLine name version).node,
      ⟨"provides", [], p.lines.map TextNode.node⟩].foldlM addNode blank =
        .ok ⟨name, version, [], p⟩ := by
    rw [List.foldlM_cons, hmodule]
    exact congrArg (fun found => found >>= pure) hprovides
  rw [ofDocument, hfold]
  simp only [Except.bind]
  rw [if_neg hname, hcontains, if_neg Bool.false_ne_true]

/-- **Reading what was written.** A line for a module, and the block that declares what is provided,
are the manifest of these if no text in the block has a line end or a forbidden character in it.
Otherwise they are no document. -/
theorem parse_toKdl {name : String} {version : Option String} (hname : name ≠ "")
    (hseparator : versionSeparator ∉ name.toList) (hplain : isPlainText name = true)
    (hversion : ∀ v ∈ version, isPlainText v = true) (p : Provides) :
    parse (Provides.writeModule name version ++ p.toKdl) =
      if p.texts.all isPlainText then .ok ⟨name, version, [], p⟩ else .error .notADocument := by
  have hmodule : (Provides.moduleLine name version).isPlain = true := by
    rw [Provides.isPlain_moduleLine, List.all_cons, hplain, Bool.true_and, List.all_eq_true]
    exact fun v hv => hversion v (Option.mem_toList.mp hv)
  have htext : (Provides.writeModule name version ++ p.toKdl).toList =
      (Provides.moduleLine name version).written ++
        '\n' :: ("provides".toList ++ ' ' :: writtenBlock p.lines) := by
    rw [String.toList_append, Provides.toList_writeModule, Provides.toList_toKdl, List.append_assoc]
    rfl
  delta parse
  rw [Kdl.parse?_line_block hmodule (by decide) htext, Provides.all_isPlain_lines]
  split_ifs with hall
  · simp only
    rw [ofDocument_module_provides hname hseparator]
    rfl
  · rfl

/-- Quotes and backslashes are read back. A line end in the name of a table is not. -/
theorem parse_toKdl_escaped :
    let p : Provides :=
      ⟨["vpc", "a\tb", ""], [⟨"say", some "\"é\" \\n", none⟩, ⟨"f", none, some "SELECT 'x';"⟩]⟩
    let q : Provides := ⟨["vpc"], [⟨"f", none, some "SELECT 1,\n  2;"⟩]⟩
    "aws_vpc" ≠ "" ∧ versionSeparator ∉ "aws_vpc".toList ∧ isPlainText "aws_vpc" = true ∧
      (∀ v ∈ some "0.1.0", isPlainText v = true) ∧ p.texts.all isPlainText = true ∧
      parse (Provides.writeModule "aws_vpc" (some "0.1.0") ++ p.toKdl) =
        .ok ⟨"aws_vpc", some "0.1.0", [], p⟩ ∧
      q.texts.all isPlainText = false ∧
      parse (Provides.writeModule "aws_vpc" (some "0.1.0") ++ q.toKdl) = .error .notADocument := by
  intro p q
  have hversion : ∀ v ∈ some "0.1.0", isPlainText v = true := by
    rintro v ⟨⟩
    decide
  have hname : "aws_vpc" ≠ "" := by decide
  have hseparator : versionSeparator ∉ "aws_vpc".toList := by decide
  have hplain : isPlainText "aws_vpc" = true := by decide
  have hread := parse_toKdl hname hseparator hplain hversion
  have hp : p.texts.all isPlainText = true := by decide
  have hq : q.texts.all isPlainText = false := by decide
  refine ⟨hname, hseparator, hplain, hversion, hp, ?_, hq, ?_⟩
  · rw [hread p, if_pos hp]
  · rw [hread q, hq]
    rfl

/-- A table whose name has a line end is written as something that is no document. -/
theorem parse_toKdl_lineEnd :
    let p : Provides := ⟨["a\nb"], []⟩
    p.toKdl = "provides \x7b\n    table \"a\nb\"\n\x7d\n" ∧
      parse ("module \"m\"\n" ++ p.toKdl) = .error .notADocument ∧
      ¬ ∃ m, parse ("module \"m\"\n" ++ p.toKdl) = .ok m ∧ m.provides = p := by
  intro p
  have hparse : parse ("module \"m\"\n" ++ p.toKdl) = .error .notADocument := by
    decide +kernel
  refine ⟨by decide +kernel, hparse, ?_⟩
  rintro ⟨m, hm, -⟩
  exact absurd (hparse.symm.trans hm) (by simp)

end Manifest

end Reconcile
