import Mathlib.Data.List.Sort
import Reconcile.Files.Tree

/-!
# Finding entries by computation

The search for an entry and the order of the names in a directory, by functions that recurse along
lists. With them, what is found in a given tree can be computed.
-/

namespace Reconcile.FileTree

/-- The search for the place of an entry, character by character. -/
theorem resolve_eq (t : FileTree) (path : String) : t.resolve path =
    if '\x00' ∈ path.toList then .error .containsNul
    else if path.isEmpty then .error .notFound
    else if maxPathSize ≤ path.utf8ByteSize then .error .nameTooLong
    else t.walk (if Path.isAbsolute path then [] else t.workingDirectory) (Path.pieces path) := by
  simp only [resolve, String.contains_char_eq, decide_eq_true_eq]

/-- The names in a directory, sorted by inserting them one by one. -/
theorem namesAt_eq (t : FileTree) (place : Place) : t.namesAt place =
    (t.entries.filterMap fun (other, _) =>
      if other.dropLast == place then other.getLast? else none).insertionSort (· ≤ ·) :=
  List.mergeSort_eq_insertionSort _ _

end Reconcile.FileTree
