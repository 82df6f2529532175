import Reconcile.Proofs.Kdl.Entry

/-!
# Reading written blocks

What the reader makes of nodes as they are written for a manifest: lines, and a block of indented
lines between braces.

A line whose texts are read back is read up to its end, so lines are read one by one
(`readNodes_append`). On another line the reader stops in front of an entry, where no node ends. The
nodes of the block end there, without a brace, so the block is no block, the node before it ends in
front of its brace, and nothing of the kind may follow a node (`parse?_line_block`).

The readers have a bound on their steps. Each needs a few steps for a line or an entry, and every
line and every entry is longer than that, so the length of the text serves as the bound throughout.
-/

namespace Reconcile.Kdl

variable {c : Char} {s rest : List Char} {fuel : Nat}

/-! ### Between nodes -/

section Solid

variable (h : isSolid c = true)
include h

theorem skipLines?_of_isSolid (fuel : Nat) : skipLines? fuel (c :: rest) = some (c :: rest) := by
  cases fuel with
  | zero => rfl
  | succ fuel =>
    rw [skipLines?, isSpace_of_isSolid h, isLineEnd_of_isSolid h]
    · rfl
    · exact fun _ heq => absurd heq (ne_slash_of_isSolid h)
    · exact fun _ heq => absurd heq (ne_slash_of_isSolid h)
    · exact ne_backslash_of_isSolid h

theorem skipToNode_of_skipLines? (hskip : skipLines? fuel s = some (c :: rest)) :
    skipToNode (fuel + 1) s = c :: rest := by
  rw [skipToNode, hskip]
  simp only [Option.getD_some, skipLeaveOut?_of_isSolid h, Option.bind_none]

theorem skipToNode_of_isSolid (fuel : Nat) : skipToNode fuel (c :: rest) = c :: rest := by
  cases fuel with
  | zero => rfl
  | succ fuel => exact skipToNode_of_skipLines? h (skipLines?_of_isSolid h fuel)

theorem skipBlocks?_of_isSolid (fuel : Nat) : skipBlocks? fuel (c :: rest) = none := by
  cases fuel with
  | zero => rfl
  | succ fuel =>
    rw [skipBlocks?, skipGap?_of_isSolid h, Option.bind_some, skipLeaveOut?_of_isSolid h,
      Option.bind_none]

theorem skipToBlock_space (fuel : Nat) : skipToBlock (fuel + 2) (' ' :: c :: rest) = c :: rest := by
  rw [skipToBlock, skipSomeGap?_space h]
  simp only [Option.bind_some, skipEntries?_of_isSolid h, Option.getD_none, skipSomeGap?_space h,
    skipBlocks?_of_isSolid h, skipGap?_space h, Option.getD_some]

theorem skipTerminator?_of_isSolid (hne : c ≠ ';') : skipTerminator? (c :: rest) = none := by
  have hline : isLineEnd c = false := isLineEnd_of_isSolid h
  rw [skipTerminator?, skipLineEnd?, hline, if_neg Bool.false_ne_true]
  · rintro _ rfl
    exact absurd hline (by decide)
  · exact fun _ heq => hne (List.cons.inj heq).1
  · exact fun _ heq => ne_slash_of_isSolid h (List.cons.inj heq).1

end Solid

theorem skipToBlock_lineEnd (fuel : Nat) (rest : List Char) :
    skipToBlock fuel ('\n' :: rest) = '\n' :: rest := by
  cases fuel with
  | zero => rfl
  | succ fuel =>
    have hgap : skipSomeGap? fuel ('\n' :: rest) = none := rfl
    rw [skipToBlock, hgap]
    simp only [Option.bind_none, Option.getD_none, hgap, skipGap?_lineEnd, Option.getD_some]

/-! ### Nodes -/

theorem skipAnnotation?_of_ne (h : c ≠ '(') (fuel : Nat) (s : List Char) :
    skipAnnotation? fuel (c :: s) = some (c :: s) := by
  rw [skipAnnotation?]
  exact fun _ heq => h (List.cons.inj heq).1

theorem readBlock?_of_ne (h : c ≠ '\x7b') (fuel : Nat) (s : List Char) :
    readBlock? fuel (c :: s) = none := by
  rw [readBlock?]
  exact fun _ _ _ heq => h (List.cons.inj heq).1

/-- A node without a block of children. -/
theorem readNode?_of_not_block {name after : List Char} {entries : List Entry} (hopen : c ≠ '(')
    (hname : readText? (c :: s) = some (name, after))
    (hentries : readEntries fuel after = (entries, rest))
    (hblock : readBlock? fuel (skipToBlock fuel rest) = none) :
    readNode? (fuel + 1) (c :: s) =
      some (⟨String.ofList name, entries, []⟩, skipToBlock fuel rest) := by
  rw [readNode?, skipAnnotation?_of_ne hopen]
  simp only [Option.bind_eq_bind, Option.bind_some, hname, hentries, hblock]
  rfl

/-- A node with a block of children, and no further block after it. -/
theorem readNode?_of_block {name after more : List Char} {entries : List Entry}
    {children : List Node} (hopen : c ≠ '(')
    (hname : readText? (c :: s) = some (name, after))
    (hentries : readEntries fuel after = (entries, rest))
    (hblock : readBlock? fuel (skipToBlock fuel rest) = some (children, '\n' :: more)) :
    readNode? (fuel + 1) (c :: s) =
      some (⟨String.ofList name, entries, children⟩, '\n' :: more) := by
  have hblocks : skipBlocks? fuel ('\n' :: more) = none := by
    cases fuel with
    | zero => rfl
    | succ fuel => rw [skipBlocks?, skipGap?_lineEnd]; rfl
  rw [readNode?, skipAnnotation?_of_ne hopen]
  simp only [Option.bind_eq_bind, Option.bind_some, hname, hentries, hblock, hblocks,
    Option.getD_none, skipGap?_lineEnd]
  rfl

/-- Something that is no node is read as no nodes. -/
theorem readNodes_of_none (h : readNode? fuel (skipToNode fuel s) = none) :
    readNodes (fuel + 1) s = ([], skipToNode fuel s) := by
  rw [readNodes]
  simp only [h]

/-- A node at the end of its line is followed by the nodes on the lines after it. -/
theorem readNodes_of_lineEnd {node : Node}
    (h : readNode? fuel (skipToNode fuel s) = some (node, '\n' :: rest)) :
    readNodes (fuel + 1) s = (node :: (readNodes fuel rest).1, (readNodes fuel rest).2) := by
  rw [readNodes]
  simp only [h, show skipTerminator? ('\n' :: rest) = some rest from rfl]

/-- A node that is followed by something else is the last one. -/
theorem readNodes_of_not_terminated {node : Node} (hsolid : isSolid c = true) (hne : c ≠ ';')
    (h : readNode? fuel (skipToNode fuel s) = some (node, c :: rest)) :
    readNodes (fuel + 1) s = ([node], c :: rest) := by
  rw [readNodes]
  simp only [h, skipTerminator?_of_isSolid hsolid hne, skipToNode_of_isSolid hsolid]

/-! ### Lines -/

/-- A node without children on a line of its own. Its name needs no quotes. -/
structure TextNode where
  word : String
  entries : List TextEntry
  isWord_word : isWord word.toList = true

namespace TextNode

variable (l : TextNode)

/-- A line as a node of a document. -/
def node : Node := ⟨l.word, l.entries.map TextEntry.entry, []⟩

/-- A line as it is written, up to its end. -/
def written : List Char := l.word.toList ++ writtenEntries l.entries

/-- Whether the texts of a line are read back. -/
def isPlain : Bool := l.entries.all TextEntry.isPlain

end TextNode

theorem exists_cons_written_line (l : TextNode) (s : List Char) :
    ∃ c more, l.written ++ s = c :: more ∧ startsEntry c = true ∧ c ≠ '(' := by
  obtain ⟨c, more, hcons, hc, -⟩ := exists_cons_of_isWord l.isWord_word
  refine ⟨c, more ++ (writtenEntries l.entries ++ s), ?_,
    startsEntry_of_isIdentifierChar hc, ne_of_class hc (by decide)⟩
  rw [TextNode.written, hcons, List.append_assoc, List.cons_append]

theorem readText?_line (l : TextNode) (rest : List Char) :
    readText? (l.written ++ '\n' :: rest) =
      some (l.word.toList, writtenEntries l.entries ++ '\n' :: rest) := by
  have hfollows := followsEntry_writtenEntries l.entries (.lineEnd rest)
  obtain ⟨c, more, hcons, hc⟩ := hfollows.exists_cons
  rw [TextNode.written, List.append_assoc, hcons]
  exact readText?_word l.isWord_word hc (hcons ▸ hfollows.endsValue)

/-- A line is read up to its end if its texts are read back. -/
theorem readNode?_line {l : TextNode} (hplain : l.isPlain = true)
    (hfuel : l.entries.length < fuel) :
    readNode? (fuel + 1) (l.written ++ '\n' :: rest) = some (l.node, '\n' :: rest) := by
  have hname := readText?_line l rest
  have hentries := readEntries_line (List.all_eq_true.mp hplain) hfuel rest
  obtain ⟨c, more, hcons, -, hopen⟩ := exists_cons_written_line l ('\n' :: rest)
  have hblock : readBlock? fuel (skipToBlock fuel ('\n' :: rest)) = none := by
    rw [skipToBlock_lineEnd, readBlock?_of_ne (by decide)]
  rw [hcons] at hname ⊢
  rw [readNode?_of_not_block hopen hname hentries hblock, skipToBlock_lineEnd, String.ofList_toList]
  rfl

/-- A line is read up to the first of its texts that is not read back. -/
theorem readNode?_line_of_not {l : TextNode} (hplain : l.isPlain = false)
    (hfuel : l.entries.length + 1 < fuel) (rest : List Char) :
    ∃ node c more, startsEntry c = true ∧
      readNode? (fuel + 1) (l.written ++ '\n' :: rest) = some (node, c :: more) := by
  have hname := readText?_line l rest
  have hnot : ¬ ∀ e ∈ l.entries, e.isPlain = true := fun hall =>
    Bool.false_ne_true (hplain.symm.trans (List.all_eq_true.mpr hall))
  obtain ⟨entries, d, more, hd, hentries⟩ :=
    readEntries_line_of_not hnot (Nat.lt_of_succ_lt hfuel) rest
  obtain ⟨c, head, hcons, -, hopen⟩ := exists_cons_written_line l ('\n' :: rest)
  have hskip : skipToBlock fuel (' ' :: d :: more) = d :: more := by
    obtain ⟨left, rfl⟩ := Nat.exists_eq_add_of_le (show 2 ≤ fuel by omega)
    rw [Nat.add_comm 2]
    exact skipToBlock_space (isSolid_of_startsEntry hd) left
  have hblock : readBlock? fuel (skipToBlock fuel (' ' :: d :: more)) = none := by
    rw [hskip, readBlock?_of_ne (ne_of_class hd (by decide))]
  rw [hcons] at hname ⊢
  rw [readNode?_of_not_block hopen hname hentries hblock, hskip]
  exact ⟨_, d, more, hd, rfl⟩

/-! ### Blocks -/

/-- A text with the indentation of a line in a block. -/
def indented (s : List Char) : List Char :=
  ' ' :: ' ' :: ' ' :: ' ' :: s

/-- Lines of a block, with their indentation. -/
def writtenLines (lines : List TextNode) : List Char :=
  lines.flatMap fun l => indented (l.written ++ ['\n'])

theorem length_le_length_writtenEntries (entries : List TextEntry) :
    entries.length ≤ (writtenEntries entries).length := by
  induction entries with
  | nil => exact Nat.le_refl 0
  | cons e entries ih =>
    rw [writtenEntries] at ih ⊢
    rw [List.flatMap_cons, List.length_append, List.length_cons, List.length_cons]
    omega

theorem length_le_length_written (l : TextNode) : l.entries.length ≤ l.written.length := by
  rw [TextNode.written, List.length_append]
  exact Nat.le_add_left_of_le (length_le_length_writtenEntries l.entries)

/-- The text of a block is at least as long as the steps it takes to read all lines and the entries
on any of them. -/
theorem length_le_length_writtenLines (lines : List TextNode) :
    lines.length ≤ (writtenLines lines).length ∧
      ∀ l ∈ lines, l.entries.length + lines.length ≤ (writtenLines lines).length := by
  induction lines with
  | nil => simp
  | cons l lines ih =>
    have hcons : (writtenLines (l :: lines)).length =
        l.written.length + 5 + (writtenLines lines).length := by
      simp [writtenLines, indented]
      omega
    obtain ⟨hlines, hentries⟩ := ih
    have hfirst := length_le_length_written l
    rw [hcons, List.length_cons, List.forall_mem_cons]
    refine ⟨by omega, by omega, fun l' hl' => ?_⟩
    have hother := hentries l' hl'
    omega

theorem writtenLines_cons_append (l : TextNode) (lines : List TextNode) (s : List Char) :
    writtenLines (l :: lines) ++ s =
      indented (l.written ++ '\n' :: (writtenLines lines ++ s)) := by
  simp [writtenLines, indented]

theorem skipToNode_line (l : TextNode) (hfuel : 5 ≤ fuel) (rest : List Char) :
    skipToNode fuel (indented (l.written ++ '\n' :: rest)) =
      l.written ++ '\n' :: rest := by
  obtain ⟨left, rfl⟩ := Nat.exists_eq_add_of_le' hfuel
  obtain ⟨c, more, hcons, hc, -⟩ := exists_cons_written_line l ('\n' :: rest)
  have hsolid := isSolid_of_startsEntry hc
  rw [hcons]
  exact skipToNode_of_skipLines? hsolid (skipLines?_of_isSolid hsolid left)

/-- Reading the nodes of a block begins with the line that is written first. -/
theorem readNodes_line {l : TextNode} (hplain : l.isPlain = true)
    (hfuel : l.entries.length + 5 ≤ fuel) (rest : List Char) :
    readNodes (fuel + 1) (indented (l.written ++ '\n' :: rest)) =
      (l.node :: (readNodes fuel rest).1, (readNodes fuel rest).2) := by
  refine readNodes_of_lineEnd ?_
  obtain ⟨left, rfl⟩ := Nat.exists_eq_add_of_le' (show 1 ≤ fuel by omega)
  rw [skipToNode_line l (by omega)]
  exact readNode?_line hplain (by omega)

/-- Reading the nodes of a block ends on a line that is not read back. -/
theorem readNodes_line_of_not {l : TextNode} (hplain : l.isPlain = false)
    (hfuel : l.entries.length + 5 ≤ fuel) (rest : List Char) :
    ∃ nodes c more, startsEntry c = true ∧
      readNodes (fuel + 1) (indented (l.written ++ '\n' :: rest)) =
        (nodes, c :: more) := by
  obtain ⟨left, rfl⟩ := Nat.exists_eq_add_of_le' (show 1 ≤ fuel by omega)
  have hleft : l.entries.length + 1 < left := by omega
  obtain ⟨node, c, more, hc, hread⟩ := readNode?_line_of_not hplain hleft rest
  rw [← skipToNode_line l (show 5 ≤ left + 1 by omega)] at hread
  exact ⟨[node], c, more, hc, readNodes_of_not_terminated (isSolid_of_startsEntry hc)
    (ne_of_class hc (by decide)) hread⟩

/-- Lines are read one by one. -/
theorem readNodes_append {lines : List TextNode} (hplain : ∀ l ∈ lines, l.isPlain = true)
    (hfuel : ∀ l ∈ lines, l.entries.length + 5 ≤ fuel) (rest : List Char) :
    readNodes (fuel + lines.length) (writtenLines lines ++ rest) =
      (lines.map TextNode.node ++ (readNodes fuel rest).1, (readNodes fuel rest).2) := by
  induction lines with
  | nil => rfl
  | cons l lines ih =>
    obtain ⟨hfirst, hothers⟩ := List.forall_mem_cons.mp hplain
    obtain ⟨hfirst', hothers'⟩ := List.forall_mem_cons.mp hfuel
    rw [writtenLines_cons_append, List.length_cons, ← Nat.add_assoc,
      readNodes_line hfirst (by omega), ih hothers hothers']
    rfl

theorem readNode?_closing (fuel : Nat) (rest : List Char) :
    readNode? fuel ('\x7d' :: rest) = none := by
  cases fuel <;> rfl

/-- The lines of a block are read up to its end. -/
theorem readNodes_block {lines : List TextNode} (hplain : ∀ l ∈ lines, l.isPlain = true)
    (hfuel : (writtenLines lines).length + 6 ≤ fuel) (rest : List Char) :
    readNodes fuel (writtenLines lines ++ '\x7d' :: rest) =
      (lines.map TextNode.node, '\x7d' :: rest) := by
  obtain ⟨hlines, hentries⟩ := length_le_length_writtenLines lines
  obtain ⟨left, rfl⟩ := Nat.exists_eq_add_of_lt (show lines.length < fuel by omega)
  have hskip : skipToNode left ('\x7d' :: rest) = '\x7d' :: rest :=
    skipToNode_of_isSolid (by decide) left
  have hend : readNodes (left + 1) ('\x7d' :: rest) = ([], '\x7d' :: rest) := by
    rw [readNodes_of_none (by rw [hskip, readNode?_closing]), hskip]
  rw [show lines.length + left + 1 = left + 1 + lines.length by omega,
    readNodes_append hplain (fun l hl => by have := hentries l hl; omega), hend, List.append_nil]

/-- The lines of a block are read up to the first one that is not read back. -/
theorem readNodes_block_of_not {lines : List TextNode} (hplain : ¬ ∀ l ∈ lines, l.isPlain = true)
    (hfuel : (writtenLines lines).length + 6 ≤ fuel) (rest : List Char) :
    ∃ nodes c more, startsEntry c = true ∧
      readNodes fuel (writtenLines lines ++ rest) = (nodes, c :: more) := by
  obtain ⟨before, l, after, rfl, hbefore, hl⟩ := exists_first_of_not_forall hplain
  have hwritten : writtenLines (before ++ l :: after) ++ rest =
      writtenLines before ++ (writtenLines (l :: after) ++ rest) := by
    simp [writtenLines]
  obtain ⟨hlines, hentries⟩ := length_le_length_writtenLines (before ++ l :: after)
  rw [List.forall_mem_append, List.forall_mem_cons] at hentries
  rw [List.length_append, List.length_cons] at hlines hentries
  obtain ⟨hbefore', hfirst, -⟩ := hentries
  obtain ⟨left, rfl⟩ := Nat.exists_eq_add_of_le' (show before.length + 1 ≤ fuel by omega)
  have hleft : l.entries.length + 5 ≤ left := by omega
  -- the lines before the first bad one are read one by one, and reading ends on it
  obtain ⟨nodes, c, more, hc, hread⟩ :=
    readNodes_line_of_not hl hleft (writtenLines after ++ rest)
  rw [hwritten, writtenLines_cons_append,
    show left + (before.length + 1) = left + 1 + before.length by omega,
    readNodes_append hbefore (fun l hl => by have := hbefore' l hl; omega), hread]
  exact ⟨before.map TextNode.node ++ nodes, c, more, hc, rfl⟩

/-- What stands first in a block. -/
theorem exists_skipLines?_block (lines : List TextNode) (rest : List Char) :
    ∃ c more, isSolid c = true ∧ ∀ fuel,
      skipLines? (fuel + 4) (writtenLines lines ++ '\x7d' :: rest) = some (c :: more) := by
  cases lines with
  | nil => exact ⟨'\x7d', rest, by decide, fun fuel => skipLines?_of_isSolid (by decide) _⟩
  | cons l lines =>
    obtain ⟨c, more, hcons, hc, -⟩ :=
      exists_cons_written_line l ('\n' :: (writtenLines lines ++ '\x7d' :: rest))
    have hsolid := isSolid_of_startsEntry hc
    refine ⟨c, more, hsolid, fun fuel => ?_⟩
    rw [writtenLines_cons_append, hcons]
    exact skipLines?_of_isSolid hsolid fuel

/-- A block may begin with a line end. -/
theorem readNodes_lineEnd_block (lines : List TextNode) (hfuel : 7 ≤ fuel) (rest : List Char) :
    readNodes fuel ('\n' :: (writtenLines lines ++ '\x7d' :: rest)) =
      readNodes fuel (writtenLines lines ++ '\x7d' :: rest) := by
  obtain ⟨left, rfl⟩ := Nat.exists_eq_add_of_le' hfuel
  obtain ⟨c, more, hsolid, hskip⟩ := exists_skipLines?_block lines rest
  have hnext := skipToNode_of_skipLines? hsolid (hskip (left + 1))
  have hnext' : skipToNode (left + 6) ('\n' :: (writtenLines lines ++ '\x7d' :: rest)) =
      c :: more :=
    skipToNode_of_skipLines? hsolid (hskip left)
  rw [readNodes, readNodes, hnext, hnext']

/-- A block is read if the texts on its lines are read back, and otherwise it is no block. -/
theorem readBlock?_lines (lines : List TextNode) (hfuel : (writtenLines lines).length + 7 ≤ fuel)
    (rest : List Char) :
    readBlock? (fuel + 1) ('\x7b' :: '\n' :: (writtenLines lines ++ '\x7d' :: rest)) =
      if lines.all TextNode.isPlain then some (lines.map TextNode.node, rest) else none := by
  rw [readBlock?, readNodes_lineEnd_block lines (by omega)]
  split_ifs with hplain
  · rw [readNodes_block (List.all_eq_true.mp hplain) (by omega)]
    rfl
  · obtain ⟨nodes, c, more, hc, hread⟩ := readNodes_block_of_not
      (fun hall => hplain (List.all_eq_true.mpr hall)) (show _ + 6 ≤ fuel by omega) ('\x7d' :: rest)
    rw [hread]
    split
    next heq => exact absurd (List.cons.inj (Prod.mk.inj heq).2).1 (ne_of_class hc (by decide))
    next => rfl

/-! ### Documents -/

/-- A block with its lines. -/
def writtenBlock (lines : List TextNode) : List Char :=
  '\x7b' :: '\n' :: (writtenLines lines ++ ['\x7d', '\n'])

theorem readNodes_nil (fuel : Nat) : readNodes fuel [] = ([], []) := by
  have hskip : ∀ fuel, skipToNode fuel [] = [] := fun fuel => by
    rcases fuel with _ | _ | fuel <;> rfl
  cases fuel with
  | zero => rfl
  | succ fuel =>
    rw [readNodes_of_none, hskip]
    rw [hskip]
    rcases fuel with _ | fuel <;> rfl

/-- The entries before a block. -/
theorem readEntries_block (hfuel : 1 ≤ fuel) (block : List Char) :
    readEntries (fuel + 1) (' ' :: '\x7b' :: block) = ([], ' ' :: '\x7b' :: block) := by
  obtain ⟨left, rfl⟩ := Nat.exists_eq_add_of_le' hfuel
  have hsolid : isSolid '\x7b' = true := by decide
  have hitem : readItem? left ('\x7b' :: block) = none := rfl
  rw [readEntries, skipSomeGap?_space hsolid, Option.bind_some, readNextItem?_of_isSolid hsolid,
    hitem]

/-- A node with a block. If the block is not read back, the node ends in front of it. -/
theorem readNode?_block {word : String} (hword : isWord word.toList = true) (lines : List TextNode)
    (hfuel : (writtenLines lines).length + 8 ≤ fuel) :
    readNode? (fuel + 1) (word.toList ++ ' ' :: writtenBlock lines) =
      if lines.all TextNode.isPlain then some (⟨word, [], lines.map TextNode.node⟩, ['\n'])
      else some (⟨word, [], []⟩, writtenBlock lines) := by
  obtain ⟨left, rfl⟩ := Nat.exists_eq_add_of_le' (show 2 ≤ fuel by omega)
  have hname : readText? (word.toList ++ ' ' :: writtenBlock lines) =
      some (word.toList, ' ' :: writtenBlock lines) :=
    readText?_word hword (by decide) rfl
  have hentries : readEntries (left + 2) (' ' :: writtenBlock lines) =
      ([], ' ' :: writtenBlock lines) :=
    readEntries_block (by omega) _
  have hskip : skipToBlock (left + 2) (' ' :: writtenBlock lines) = writtenBlock lines :=
    skipToBlock_space (by decide) left
  have hblock : readBlock? (left + 2) (skipToBlock (left + 2) (' ' :: writtenBlock lines)) =
      if lines.all TextNode.isPlain then some (lines.map TextNode.node, ['\n']) else none := by
    rw [hskip]
    exact readBlock?_lines lines (by omega) ['\n']
  obtain ⟨c, more, hcons, hc, -⟩ := exists_cons_of_isWord hword
  have hopen : c ≠ '(' := ne_of_class hc (by decide)
  rw [hcons, List.cons_append] at hname ⊢
  split_ifs with hplain
  · rw [if_pos hplain] at hblock
    rw [readNode?_of_block hopen hname hentries hblock, ← hcons, String.ofList_toList]
  · rw [if_neg hplain] at hblock
    rw [readNode?_of_not_block hopen hname hentries hblock, ← hcons,
      String.ofList_toList, hskip]

/-- A line and a node with a block. -/
theorem readNodes_line_block {l : TextNode} (hl : l.isPlain = true) {word : String}
    (hword : isWord word.toList = true) (lines : List TextNode) (fuel : Nat)
    (hfirst : l.written.length + 2 ≤ fuel) (hfuel : (writtenLines lines).length + 10 ≤ fuel) :
    readNodes (fuel + 1) (l.written ++ '\n' :: (word.toList ++ ' ' :: writtenBlock lines)) =
      if lines.all TextNode.isPlain then ([l.node, ⟨word, [], lines.map TextNode.node⟩], [])
      else ([l.node, ⟨word, [], []⟩], writtenBlock lines) := by
  obtain ⟨left, rfl⟩ := Nat.exists_eq_add_of_le' (show 2 ≤ fuel by omega)
  have hskip : ∀ s, skipToNode (left + 2) (l.written ++ '\n' :: s) = l.written ++ '\n' :: s := by
    intro s
    obtain ⟨c, more, hcons, hc, -⟩ := exists_cons_written_line l ('\n' :: s)
    rw [hcons, skipToNode_of_isSolid (isSolid_of_startsEntry hc)]
  have hskip' : skipToNode (left + 1) (word.toList ++ ' ' :: writtenBlock lines) =
      word.toList ++ ' ' :: writtenBlock lines := by
    obtain ⟨c, more, hcons, hc, -⟩ := exists_cons_of_isWord hword
    rw [hcons, List.cons_append, skipToNode_of_isSolid]
    exact isSolid_of_startsEntry (startsEntry_of_isIdentifierChar hc)
  have hentries := length_le_length_written l
  have hblock := readNode?_block hword lines (show (writtenLines lines).length + 8 ≤ left by omega)
  rw [← hskip'] at hblock
  rw [readNodes_of_lineEnd (by rw [hskip]; exact readNode?_line hl (by omega))]
  split_ifs with hplain
  · rw [if_pos hplain] at hblock
    rw [readNodes_of_lineEnd hblock, readNodes_nil]
  · -- a brace is left, and a node without its end is the last one
    rw [if_neg hplain] at hblock
    rw [readNodes_of_not_terminated (by decide) (by decide) hblock]
    rfl

/-! ### Whole texts -/

theorem dropMark_of_isIdentifierChar (h : isIdentifierChar c = true) (s : List Char) :
    dropMark (c :: s) = c :: s := by
  rw [dropMark, if_neg]
  intro hmark
  simp [isIdentifierChar, isForbidden, hmark] at h

/-- **A line and a block are read back** if the texts in the block are, and otherwise they are no
document. -/
theorem parse?_line_block {l : TextNode} (hl : l.isPlain = true) {word : String}
    (hword : isWord word.toList = true) {lines : List TextNode} {text : String}
    (htext : text.toList = l.written ++ '\n' :: (word.toList ++ ' ' :: writtenBlock lines)) :
    Document.parse? text =
      if lines.all TextNode.isPlain then some [l.node, ⟨word, [], lines.map TextNode.node⟩]
      else none := by
  have hdrop : dropMark text.toList = text.toList := by
    obtain ⟨c, more, hcons, hc, -⟩ := exists_cons_of_isWord l.isWord_word
    rw [htext, TextNode.written, hcons, List.append_assoc, List.cons_append,
      dropMark_of_isIdentifierChar hc]
  have hlength : text.toList.length =
      l.written.length + word.toList.length + (writtenLines lines).length + 6 := by
    rw [htext]
    simp [writtenBlock]
    omega
  have hread := readNodes_line_block hl hword lines (8 * text.toList.length + 15) (by omega)
    (by omega)
  rw [← htext] at hread
  delta Document.parse?
  simp only [hdrop, hread]
  split_ifs
  · rfl
  · rfl

end Reconcile.Kdl
