import Mathlib.Tactic.SplitIfs
import Reconcile.Module.Key
import Reconcile.Proofs.Text.Pieces

/-!
# Names, versions and keys

A text is a bare name exactly if the separator does not occur in it (`isBareName_iff`), so no key
is a bare name (`isBareName_moduleKey`), and neither is a dependency that has been given a version
(`isBareName_normalizeDependency`).

A key is split at its first separator. So it tells name and version as long as the separator is not
part of the name (`moduleKey_inj`); the version may be any text.
-/

namespace Reconcile

namespace Text

variable {α : Type} [BEq α] [LawfulBEq α]

/-- A text cannot be cut at a mark that does not occur in it. -/
theorem cutAt?_singleton_eq_none {x : α} {l : List α} : cutAt? [x] l = none ↔ x ∉ l :=
  (cutAt?_eq_none_iff (List.cons_ne_nil x [])).trans (not_congr (List.singleton_infix_iff x l))

/-- A text is cut at the first mark. -/
theorem cutAt?_singleton_append {x : α} {before after : List α} (hbefore : x ∉ before) :
    cutAt? [x] (before ++ x :: after) = some (before, after) := by
  refine cutAt?_append (List.cons_ne_nil x []) ?_
  rwa [List.dropLast_singleton, List.append_nil, List.singleton_infix_iff]

end Text

theorem toList_moduleKey (name version : String) :
    (moduleKey name version).toList = name.toList ++ versionSeparator :: version.toList := by
  simp [moduleKey]

/-- A bare name is a text without the separator. -/
theorem isBareName_iff {text : String} : isBareName text ↔ versionSeparator ∉ text.toList := by
  rw [← Text.cutAt?_singleton_eq_none]
  unfold isBareName splitKey
  cases Text.cutAt? [versionSeparator] text.toList <;> simp

@[simp]
theorem isBareName_moduleKey (name version : String) :
    isBareName (moduleKey name version) = false := by
  rw [Bool.eq_false_iff, Ne, isBareName_iff, toList_moduleKey]
  simp

/-- A dependency with a version is not a bare name. -/
@[simp]
theorem isBareName_normalizeDependency (dependency version : String) :
    isBareName (normalizeDependency dependency version) = false := by
  unfold normalizeDependency
  split_ifs with hbare
  · exact isBareName_moduleKey dependency version
  · exact Bool.eq_false_iff.mpr hbare

/-- Splitting a key gives back the name and the version, unless the separator is in the name. -/
theorem splitKey_moduleKey {name : String} (hname : versionSeparator ∉ name.toList)
    (version : String) : splitKey (moduleKey name version) = (name, some version) := by
  simp [splitKey, toList_moduleKey, Text.cutAt?_singleton_append hname]

/-- A key tells the name and the version of a module, as long as names are without separator. -/
theorem moduleKey_inj {name name' version version' : String}
    (hname : versionSeparator ∉ name.toList) (hname' : versionSeparator ∉ name'.toList) :
    moduleKey name version = moduleKey name' version' ↔ name = name' ∧ version = version' := by
  refine ⟨fun heq => ?_, fun ⟨hnames, hversions⟩ => by rw [hnames, hversions]⟩
  have hsplit := splitKey_moduleKey hname version
  rw [heq, splitKey_moduleKey hname' version'] at hsplit
  simpa [eq_comm] using hsplit

end Reconcile
