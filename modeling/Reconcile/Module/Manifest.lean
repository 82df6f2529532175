import Reconcile.Kdl.Reader
import Reconcile.Module.Error
import Reconcile.Module.Key
import Reconcile.Module.Provides

/-!
# Manifests

A manifest declares the name of a module, what it depends on and what it provides. It is a document
with these nodes at its top, where nodes of other names are ignored:

* `module` has the name as its first text, and may have the property `version`. The last such node
  counts.
* `dependency` has the names or keys of other modules as its texts. All such nodes count.
* `provides` has a block of nodes `table`, with any number of texts, and `function`, with the name
  as its first text. All such blocks count.
-/

namespace Reconcile

/-- What a manifest declares. -/
structure Manifest where
  name : String
  version : Option String
  /-- Names or keys of other modules, as they are written. -/
  dependencies : List String
  provides : Provides
deriving DecidableEq, Repr

namespace Manifest

/-- The manifest of a document without nodes. -/
def blank : Manifest := ⟨"", none, [], .empty⟩

instance : Inhabited Manifest := ⟨blank⟩

/-- The first property of a name, where it is a text. -/
def property? (node : Kdl.Node) (name : String) : Option String :=
  (node.property? name).bind Kdl.Value.text?

/-- What is provided, with what one node of a block adds. -/
def addProvided (p : Provides) (node : Kdl.Node) : Except ManifestFault Provides :=
  match node.name with
  | "table" => .ok { p with tables := p.tables ++ node.texts }
  | "function" =>
    match node.texts.head? with
    | none => .error .functionWithoutName
    | some name =>
      let f := ⟨name, property? node "description", property? node "sample-usage"⟩
      .ok { p with functions := p.functions ++ [f] }
  | other => .error (.unknownEntry other)

/-- A manifest with what one node of the document declares. -/
def addNode (m : Manifest) (node : Kdl.Node) : Except ManifestFault Manifest :=
  match node.name with
  | "module" =>
    match node.texts.head? with
    | none => .error .moduleWithoutName
    | some name => .ok { m with name := name, version := property? node "version" }
  | "dependency" =>
    if node.texts.isEmpty then .error .dependencyWithoutName
    else .ok { m with dependencies := m.dependencies ++ node.texts }
  | "provides" =>
    (node.children.foldlM addProvided m.provides).map fun p => { m with provides := p }
  | _ => .ok m

/-- The manifest of a document. -/
def ofDocument (document : Kdl.Document) : Except ManifestFault Manifest :=
  (document.foldlM addNode blank).bind fun m =>
    if m.name = "" then .error .noModule
    else if m.name.toList.contains versionSeparator then .error (.nameWithSeparator m.name)
    else .ok m

/-- The manifest of a text. -/
def parse (text : String) : Except ModuleError Manifest :=
  match Kdl.Document.parse? text with
  | none => .error .notADocument
  | some document => (ofDocument document).mapError .invalidManifest

/-- The name of manifest files. -/
def fileName : String := "module.kdl"

end Manifest

end Reconcile
