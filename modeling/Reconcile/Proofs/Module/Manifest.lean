import Mathlib.Data.List.Induction
import Reconcile.Module.Manifest
import Reconcile.Proofs.Except

/-!
# The grammar of manifests

Each node of a document is checked by itself, and what the nodes declare is gathered in their order,
so a manifest is told by its document without going through it.

* A document is a manifest exactly if each of its nodes may stand in one (`IsDeclaration`) and the
  last module node has a proper name.
* The name and the version are those of the last module node. Dependencies, tables and functions
  are those of all nodes that declare some, in the order of the document (`Declares`).

What is gathered does not depend on how it is divided among nodes. So texts may be spread over
several nodes, and blocks may be cut in two (`Respelled`), with the same result or the same fault.
-/

namespace Reconcile

/-- The nodes of a name, in the order of the document. -/
def Kdl.named (name : String) (document : Kdl.Document) : Kdl.Document :=
  document.filter fun node => node.name == name

theorem Kdl.named_append (name : String) (document document' : Kdl.Document) :
    named name (document ++ document') = named name document ++ named name document' :=
  List.filter_append document document'

namespace Manifest

open Kdl (named Node Document)

variable {m : Manifest} {p p' : Provides} {node : Node} {document document' : Document}

/-! ### What a document declares -/

/-- A node that may stand in a block of what is provided. -/
def IsEntry (node : Node) : Prop :=
  node.name = "table" ∨ node.name = "function" ∧ node.texts ≠ []

/-- A node that may stand in a manifest. Nodes of unknown names may. -/
def IsDeclaration (node : Node) : Prop :=
  (node.name = "module" ∨ node.name = "dependency" → node.texts ≠ []) ∧
    (node.name = "provides" → ∀ entry ∈ node.children, IsEntry entry)

/-- The function that a node provides, if it has a name. -/
def function? (node : Node) : Option ProvidedFunction :=
  node.texts.head?.map fun name =>
    ⟨name, property? node "description", property? node "sample-usage"⟩

/-- The nodes in all blocks of what is provided. -/
def entries (document : Document) : Document :=
  (named "provides" document).flatMap Node.children

/-- The tables and functions that the nodes of a block provide. -/
def provided (block : Document) : Provides :=
  ⟨(named "table" block).flatMap Node.texts, (named "function" block).filterMap function?⟩

/-- What a document declares: the name and the version are those of the last module node, and
everything else is gathered from all nodes. -/
structure Declares (document : Document) (m : Manifest) : Prop where
  module : ∃ node, (named "module" document).getLast? = some node ∧
    node.texts.head? = some m.name ∧ m.version = property? node "version"
  dependencies : m.dependencies = (named "dependency" document).flatMap Node.texts
  tables : m.provides.tables = (named "table" (entries document)).flatMap Node.texts
  functions : m.provides.functions = (named "function" (entries document)).filterMap function?

/-! ### One node -/

theorem named_singleton_of_eq {name : String} (h : node.name = name) :
    named name [node] = [node] := by
  rw [named, List.filter_singleton, beq_iff_eq.mpr h, cond_true]

theorem named_singleton_of_ne {name : String} (h : node.name ≠ name) : named name [node] = [] := by
  rw [named, List.filter_singleton, beq_eq_false_iff_ne.mpr h, cond_false]

/-- What is provided, with what one node of a block adds. -/
def withEntry (p : Provides) (node : Node) : Provides :=
  ⟨p.tables ++ (provided [node]).tables, p.functions ++ (provided [node]).functions⟩

/-- A manifest with what one node of the document declares. -/
def withDeclaration (m : Manifest) (node : Node) : Manifest where
  name := if node.name = "module" then node.texts.head?.getD "" else m.name
  version := if node.name = "module" then property? node "version" else m.version
  dependencies := m.dependencies ++ (named "dependency" [node]).flatMap Node.texts
  provides := (entries [node]).foldl withEntry m.provides

/-- A node of a block is taken in exactly if it may stand there. -/
theorem addProvided_eq_ok_iff (p : Provides) (node : Node) (p' : Provides) :
    addProvided p node = .ok p' ↔ IsEntry node ∧ p' = withEntry p node := by
  unfold addProvided IsEntry withEntry provided
  split
  next htable =>
    have hfunction : node.name ≠ "function" := by rw [htable]; decide
    simp [htable, named_singleton_of_eq htable, named_singleton_of_ne hfunction, @eq_comm _ p']
  next hfunction =>
    have htable : node.name ≠ "table" := by rw [hfunction]; decide
    cases htexts : node.texts with
    | nil => simp [htable]
    | cons text texts =>
      simp [hfunction, named_singleton_of_eq hfunction, named_singleton_of_ne htable, function?,
        htexts, @eq_comm _ p']
  next htable hfunction =>
    have hnone : ¬(node.name = "table" ∨ node.name = "function" ∧ node.texts ≠ []) :=
      fun h => h.elim htable fun h => hfunction h.1
    simp [hnone]

/-- A node of a document is taken in exactly if it may stand there. -/
theorem addNode_eq_ok_iff (m : Manifest) (node : Node) (m' : Manifest) :
    addNode m node = .ok m' ↔ IsDeclaration node ∧ m' = withDeclaration m node := by
  unfold addNode IsDeclaration withDeclaration entries
  split
  next hname =>
    have hdependency : node.name ≠ "dependency" := by rw [hname]; decide
    have hprovides : node.name ≠ "provides" := by rw [hname]; decide
    cases htexts : node.texts with
    | nil => simp [hname]
    | cons text texts =>
      simp [hname, named_singleton_of_ne hdependency, named_singleton_of_ne hprovides,
        @eq_comm _ m']
  next hname =>
    have hprovides : node.name ≠ "provides" := by rw [hname]; decide
    cases htexts : node.texts with
    | nil => simp [hname]
    | cons text texts =>
      simp [hname, named_singleton_of_eq hname, named_singleton_of_ne hprovides, htexts,
        @eq_comm _ m']
  next hname =>
    have hmodule : node.name ≠ "module" := by rw [hname]; decide
    have hdependency : node.name ≠ "dependency" := by rw [hname]; decide
    rw [named_singleton_of_eq hname, named_singleton_of_ne hdependency, if_neg hmodule,
      if_neg hmodule, List.flatMap_nil, List.append_nil, List.flatMap_singleton]
    constructor
    · intro h
      obtain ⟨p, hblock, rfl⟩ := exists_of_map_eq_ok h
      obtain ⟨hall, rfl⟩ := (foldlM_eq_ok_iff addProvided_eq_ok_iff).mp hblock
      exact ⟨⟨fun h => (h.elim hmodule hdependency).elim, fun _ => hall⟩, rfl⟩
    · rintro ⟨⟨-, hall⟩, rfl⟩
      rw [(foldlM_eq_ok_iff addProvided_eq_ok_iff).mpr ⟨hall hname, rfl⟩]
      rfl
  next hmodule hdependency hprovides =>
    rw [named_singleton_of_ne hdependency, named_singleton_of_ne hprovides, if_neg hmodule,
      if_neg hmodule, List.flatMap_nil, List.append_nil]
    exact ⟨fun h => ⟨⟨fun h => (h.elim hmodule hdependency).elim, fun h => (hprovides h).elim⟩,
      (Except.ok.inj h).symm⟩, fun h => congrArg Except.ok h.2.symm⟩

/-! ### Whole documents -/

/-- What is provided, with what all the nodes of a block add. -/
theorem foldl_withEntry (p : Provides) (block : Document) :
    block.foldl withEntry p =
      ⟨p.tables ++ (provided block).tables, p.functions ++ (provided block).functions⟩ := by
  induction block generalizing p with
  | nil => simp [provided, named]
  | cons node block ih =>
    have hcons : node :: block = [node] ++ block := rfl
    rw [List.foldl_cons, ih, hcons]
    simp only [withEntry, provided, Kdl.named_append, List.flatMap_append, List.filterMap_append,
      List.append_assoc]

/-- A manifest with what all the nodes of a document declare. -/
theorem foldl_withDeclaration (m : Manifest) (document : Document) :
    document.foldl withDeclaration m =
      { name := match (named "module" document).getLast? with
          | some node => node.texts.head?.getD ""
          | none => m.name
        version := match (named "module" document).getLast? with
          | some node => property? node "version"
          | none => m.version
        dependencies := m.dependencies ++ (named "dependency" document).flatMap Node.texts
        provides := (entries document).foldl withEntry m.provides } := by
  induction document using List.reverseRecOn with
  | nil => simp [named, entries]
  | append_singleton document node ih =>
    rw [List.foldl_append, ih, List.foldl_cons, List.foldl_nil]
    by_cases hname : node.name = "module"
    · simp [withDeclaration, hname, Kdl.named_append, named_singleton_of_eq hname, entries]
    · simp [withDeclaration, hname, Kdl.named_append, named_singleton_of_ne hname, entries]

/-- A document is a manifest exactly if all its nodes may stand in one and the name that they
declare is a proper one. -/
theorem ofDocument_eq_ok_iff : ofDocument document = .ok m ↔
    (∀ node ∈ document, IsDeclaration node) ∧ m = document.foldl withDeclaration blank ∧
      m.name ≠ "" ∧ versionSeparator ∉ m.name.toList := by
  constructor
  · intro h
    obtain ⟨m', hnodes, hchecked⟩ := exists_of_bind_eq_ok h
    obtain ⟨hall, hm'⟩ := (foldlM_eq_ok_iff addNode_eq_ok_iff).mp hnodes
    split_ifs at hchecked with hempty hseparator
    cases hchecked
    exact ⟨hall, hm', hempty, fun hmem => hseparator (List.contains_iff_mem.mpr hmem)⟩
  · rintro ⟨hall, hm, hempty, hseparator⟩
    rw [ofDocument, (foldlM_eq_ok_iff addNode_eq_ok_iff).mpr ⟨hall, hm⟩]
    change ite _ _ _ = _
    rw [if_neg hempty, if_neg fun hmem => hseparator (List.contains_iff_mem.mp hmem)]

theorem name_foldl (document : Document) :
    (document.foldl withDeclaration blank).name =
      ((named "module" document).getLast?.bind fun node => node.texts.head?).getD "" := by
  rw [foldl_withDeclaration]
  cases (named "module" document).getLast? <;> rfl

/-- What has been gathered from a document that declares a name is what the document declares. -/
theorem declares_foldl (h : (document.foldl withDeclaration blank).name ≠ "") :
    Declares document (document.foldl withDeclaration blank) := by
  have hname := name_foldl document
  have hgathered := foldl_withEntry blank.provides (entries document)
  cases hlast : (named "module" document).getLast? with
  | none =>
    rw [hlast] at hname
    exact absurd hname h
  | some node =>
    cases htext : node.texts.head? with
    | none =>
      rw [hlast, Option.bind_some, htext] at hname
      exact absurd hname h
    | some name =>
      rw [foldl_withDeclaration, hlast, hgathered]
      exact ⟨⟨node, hlast, by simp only [htext, Option.getD_some], rfl⟩, rfl, rfl, rfl⟩

/-! ### Other nodes that declare the same -/

/-- A document is respelled when what its nodes declare is divided among its nodes in another way,
or when it gets a node that declares nothing. -/
inductive Respelled : Document → Document → Prop where
  /-- The texts of a dependency are spread over several nodes, each of which has some. -/
  | dependency (before after parts : Document) (node : Node) (hname : node.name = "dependency")
      (hparts : parts ≠ []) (hnames : ∀ part ∈ parts, part.name = "dependency" ∧ part.texts ≠ [])
      (htexts : parts.flatMap Node.texts = node.texts) :
      Respelled (before ++ node :: after) (before ++ (parts ++ after))
  /-- The texts of a table are spread over several nodes, or over none if there are no texts. -/
  | table (before after parts first last : Document) (node block block' : Node)
      (hname : node.name = "table") (hnames : ∀ part ∈ parts, part.name = "table")
      (htexts : parts.flatMap Node.texts = node.texts)
      (hblock : block.name = "provides") (hblock' : block'.name = "provides")
      (hchildren : block.children = first ++ node :: last)
      (hchildren' : block'.children = first ++ (parts ++ last)) :
      Respelled (before ++ block :: after) (before ++ block' :: after)
  /-- A block is cut in two. -/
  | block (before after : Document) (block first last : Node) (hblock : block.name = "provides")
      (hfirst : first.name = "provides") (hlast : last.name = "provides")
      (hchildren : first.children ++ last.children = block.children) :
      Respelled (before ++ block :: after) (before ++ first :: last :: after)
  /-- A node of an unknown name is added. -/
  | unknown (before after : Document) (node : Node)
      (hname : node.name ∉ ["module", "dependency", "provides"]) :
      Respelled (before ++ after) (before ++ node :: after)

theorem foldlM_dependencies {parts : Document}
    (h : ∀ part ∈ parts, part.name = "dependency" ∧ part.texts ≠ []) (m : Manifest) :
    parts.foldlM addNode m =
      .ok { m with dependencies := m.dependencies ++ parts.flatMap Node.texts } := by
  induction parts generalizing m with
  | nil => rw [List.flatMap_nil, List.append_nil]; rfl
  | cons part parts ih =>
    obtain ⟨⟨hname, htexts⟩, hrest⟩ := List.forall_mem_cons.mp h
    have hfirst : addNode m part = .ok { m with dependencies := m.dependencies ++ part.texts } := by
      unfold addNode
      simp [hname, htexts]
    rw [List.foldlM_cons, hfirst, List.flatMap_cons, ← List.append_assoc]
    exact ih hrest _

theorem foldlM_tables {parts : Document} (h : ∀ part ∈ parts, part.name = "table") (p : Provides) :
    parts.foldlM addProvided p =
      .ok { p with tables := p.tables ++ parts.flatMap Node.texts } := by
  induction parts generalizing p with
  | nil => rw [List.flatMap_nil, List.append_nil]; rfl
  | cons part parts ih =>
    obtain ⟨hname, hrest⟩ := List.forall_mem_cons.mp h
    have hfirst : addProvided p part = .ok { p with tables := p.tables ++ part.texts } := by
      unfold addProvided
      simp [hname]
    rw [List.foldlM_cons, hfirst, List.flatMap_cons, ← List.append_assoc]
    exact ih hrest _

theorem addNode_of_provides (h : node.name = "provides") (m : Manifest) :
    addNode m node =
      (node.children.foldlM addProvided m.provides).map fun p => { m with provides := p } := by
  unfold addNode
  simp [h]

/-- A respelled document is gathered in the same way, whatever was gathered before it. -/
theorem Respelled.foldlM_eq (h : Respelled document document') (m : Manifest) :
    document'.foldlM addNode m = document.foldlM addNode m := by
  cases h with
  | dependency before after parts node hname hparts hnames htexts =>
    have hne : node.texts ≠ [] := by
      obtain ⟨part, rest, rfl⟩ := List.exists_cons_of_ne_nil hparts
      rw [← htexts, List.flatMap_cons]
      exact List.append_ne_nil_of_left_ne_nil (hnames part List.mem_cons_self).2 _
    have hnode : ∀ other ∈ [node], other.name = "dependency" ∧ other.texts ≠ [] :=
      List.forall_mem_singleton.mpr ⟨hname, hne⟩
    refine foldlM_middle_congr [node] parts (fun m => ?_) before after m
    rw [foldlM_dependencies hnames, foldlM_dependencies hnode, htexts, List.flatMap_singleton]
  | table before after parts first last node block block' hname hnames htexts hblock hblock'
      hchildren hchildren' =>
    have hnode : ∀ other ∈ [node], other.name = "table" := List.forall_mem_singleton.mpr hname
    have hsame : ∀ p,
        block'.children.foldlM addProvided p = block.children.foldlM addProvided p := by
      intro p
      rw [hchildren, hchildren']
      refine foldlM_middle_congr [node] parts (fun p => ?_) first last p
      rw [foldlM_tables hnames, foldlM_tables hnode, htexts, List.flatMap_singleton]
    refine foldlM_middle_congr [block] [block'] (fun m => ?_) before after m
    rw [List.foldlM_cons, List.foldlM_cons, addNode_of_provides hblock, addNode_of_provides hblock',
      hsame]
  | block before after block first last hblock hfirst hlast hchildren =>
    refine foldlM_middle_congr [block] [first, last] (fun m => ?_) before after m
    simp only [List.foldlM_cons, List.foldlM_nil, addNode_of_provides hblock,
      addNode_of_provides hfirst, addNode_of_provides hlast, ← hchildren, List.foldlM_append]
    cases first.children.foldlM addProvided m.provides with
    | error e => rfl
    | ok p => rfl
  | unknown before after node hname =>
    refine foldlM_middle_congr [] [node] (fun m => ?_) before after m
    simp only [List.mem_cons, List.not_mem_nil, or_false, not_or] at hname
    obtain ⟨hmodule, hdependency, hprovides⟩ := hname
    have hnode : addNode m node = .ok m := by
      unfold addNode
      split
      next h => exact absurd h hmodule
      next h => exact absurd h hdependency
      next h => exact absurd h hprovides
      next => rfl
    rw [List.foldlM_cons, hnode]
    rfl

/-- **The grammar of manifests.** A document is a manifest exactly if every module node and every
dependency has a text, every node in a block of what is provided is a table or a function with a
text, and the first text of the last module node is not empty and does not contain the separator of
names and versions.

The manifest is then what the nodes declare in their order, so a respelled document gives the same
manifest, or the same fault. -/
theorem ofDocument_grammar (document : Document) :
    ((∃ m, ofDocument document = .ok m) ↔
      (∀ node ∈ document, IsDeclaration node) ∧
        ∃ node name, (named "module" document).getLast? = some node ∧
          node.texts.head? = some name ∧ name ≠ "" ∧ versionSeparator ∉ name.toList) ∧
    (∀ m, ofDocument document = .ok m → Declares document m) ∧
    ∀ document', Respelled document document' → ofDocument document' = ofDocument document := by
  refine ⟨⟨fun ⟨m, h⟩ => ?_, fun ⟨hall, node, name, hlast, htext, hempty, hseparator⟩ => ?_⟩,
    fun m h => ?_, fun document' h => ?_⟩
  · obtain ⟨hall, rfl, hempty, hseparator⟩ := ofDocument_eq_ok_iff.mp h
    obtain ⟨node, hlast, htext, -⟩ := (declares_foldl hempty).module
    exact ⟨hall, node, _, hlast, htext, hempty, hseparator⟩
  · have hname : (document.foldl withDeclaration blank).name = name := by
      rw [name_foldl, hlast, Option.bind_some, htext, Option.getD_some]
    exact ⟨_, ofDocument_eq_ok_iff.mpr ⟨hall, rfl, hname ▸ hempty, hname ▸ hseparator⟩⟩
  · obtain ⟨-, rfl, hempty, -⟩ := ofDocument_eq_ok_iff.mp h
    exact declares_foldl hempty
  · rw [ofDocument, h.foldlM_eq, ofDocument]

/-- A document with two module nodes, a node of an unknown name, and an argument that is no text. -/
def scattered : Document :=
  [⟨"module", [⟨none, .str "draft@1"⟩], []⟩,
    ⟨"dependency", [⟨none, .str "b"⟩, ⟨none, .str "c@1"⟩], []⟩,
    ⟨"provides", [], [⟨"table", [⟨none, .str "t"⟩, ⟨none, .str "u"⟩], []⟩,
      ⟨"function", [⟨some "description", .null⟩, ⟨none, .str "f"⟩], []⟩]⟩,
    ⟨"author", [], []⟩,
    ⟨"module", [⟨none, .int 3⟩, ⟨none, .str "a"⟩, ⟨some "version", .str "2"⟩], []⟩]

/-- The last module node counts, and the dependencies may as well stand in two nodes. -/
theorem ofDocument_grammar_scattered :
    let m : Manifest := ⟨"a", some "2", ["b", "c@1"], ⟨["t", "u"], [⟨"f", none, none⟩]⟩⟩
    let spread : Document := scattered.take 1 ++
      ([⟨"dependency", [⟨none, .str "b"⟩], []⟩, ⟨"dependency", [⟨none, .str "c@1"⟩], []⟩] ++
        scattered.drop 2)
    ofDocument scattered = .ok m ∧ Declares scattered m ∧ Respelled scattered spread ∧
      ofDocument spread = ofDocument scattered := by
  intro m spread
  have hm : ofDocument scattered = .ok m := by decide +kernel
  have hspread : Respelled scattered spread :=
    .dependency (scattered.take 1) (scattered.drop 2) _ _ rfl (by decide +kernel)
      (by decide +kernel) (by decide +kernel)
  obtain ⟨-, hdeclares, hrespelled⟩ := ofDocument_grammar scattered
  exact ⟨hm, hdeclares m hm, hspread, hrespelled spread hspread⟩

end Manifest

end Reconcile
