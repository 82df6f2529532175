import Mathlib.Data.List.Forall2
import Mathlib.Tactic.SplitIfs
import Reconcile.Entity.Identity
import Reconcile.Proofs.Except
import Reconcile.Proofs.Text.Pieces

/-!
# Keys and their parts

Joining parts to a key and taking a key apart are inverse to each other, as long as no part contains
the separator (`Schema.joinKey_splitAt`, `Schema.splitAt_joinKey`).

The key of an entity is made of its cloud id columns if all of them are populated
(`Schema.entityId_of_populated`), and otherwise it is the text of its primary key column
(`Schema.entityId_of_unpopulated`).
-/

namespace Reconcile

namespace Schema

variable {s : Schema} {column : String → Option String} {parts : List String}

/-- The parts of a key make the key. -/
theorem joinKey_splitAt (id : String) : joinKey (Text.splitAt separator id) = id := by
  have hlists : ∀ l : List (List Char), l.map (String.toList ∘ String.ofList) = l := fun l => by
    simp [Function.comp_def]
  refine String.toList_injective ?_
  rw [joinKey, String.toList_intercalate, Text.splitAt_eq, List.map_map, hlists,
    String.toList_singleton, List.intercalate_splitOn]

/-- A key gives its parts back, provided that none of them contains the separator. -/
theorem splitAt_joinKey (hne : parts ≠ []) (hparts : ∀ part ∈ parts, separator ∉ part.toList) :
    Text.splitAt separator (joinKey parts) = parts := by
  have hlists : ∀ l ∈ parts.map String.toList, separator ∉ l := by
    simpa using hparts
  rw [Text.splitAt_eq, joinKey, String.toList_intercalate, String.toList_singleton,
    List.splitOn_intercalate separator hlists (by simpa using hne), List.map_map]
  simp [Function.comp_def]

/-- Columns are populated if each of them has a text that is not empty. -/
theorem populated?_eq_some_iff {names : List String} :
    populated? column names = some parts ↔
      List.Forall₂ (fun name part => column name = some part ∧ part ≠ "") names parts := by
  induction names generalizing parts with
  | nil =>
    rw [populated?, Option.some.injEq, List.forall₂_nil_left_iff, eq_comm]
  | cons name names ih =>
    rw [List.forall₂_cons_left_iff, populated?]
    simp only [← ih]
    cases column name with
    | none => simp
    | some text =>
      cases populated? column names with
      | none => simp
      | some texts =>
        by_cases hempty : text = ""
        · simp [hempty]
        · simp only [String.isEmpty_iff, hempty, if_false]
          constructor
          · rintro ⟨⟩
            exact ⟨text, texts, ⟨rfl, hempty⟩, rfl, rfl⟩
          · rintro ⟨part, rest, ⟨⟨⟩, -⟩, ⟨⟩, rfl⟩
            rfl

/-- Columns are not populated if one of them has no text, or the empty one. -/
theorem populated?_eq_none {names : List String} {name : String} (hname : name ∈ names)
    (h : ∀ text, column name = some text → text = "") : populated? column names = none := by
  induction names with
  | nil => exact absurd hname List.not_mem_nil
  | cons first rest ih =>
    rw [populated?]
    rcases List.mem_cons.mp hname with rfl | hname
    · cases htext : column name with
      | none => rfl
      | some text =>
        cases populated? column rest with
        | none => rfl
        | some texts => exact if_pos (String.isEmpty_iff.mpr (h text htext))
    · rw [ih hname]
      cases column first <;> rfl

/-- The key of an entity whose cloud id columns are populated. -/
theorem entityId_of_populated (hs : s.cloudId ≠ []) (h : populated? column s.cloudId = some parts) :
    s.entityId column = joinKey parts := by
  simp [entityId, hs, h]

/-- The key of an entity whose cloud id columns are not all populated. -/
theorem entityId_of_unpopulated (h : populated? column s.cloudId = none) :
    s.entityId column = (s.primaryKey.bind column).getD "" := by
  simp [entityId, h]

/-! ### The columns of a key -/

theorem idFields_of_length_eq (hs : s.cloudId ≠ []) {id : String}
    (hlength : (Text.splitAt separator id).length = s.cloudId.length) :
    s.idFields id = Fields.ofPairs (s.cloudId.zip (Text.splitAt separator id)) := by
  simp [idFields, hs, hlength]

theorem idFields_of_primaryKey {id pk : String}
    (hlength : (Text.splitAt separator id).length ≠ s.cloudId.length)
    (hpk : s.primaryKey = some pk) :
    s.idFields id = [(pk, (Text.splitAt separator id).getLastD "")] := by
  simp [idFields, hlength, hpk]

theorem idFields_of_no_primaryKey (hpk : s.primaryKey = none) (id : String) :
    s.idFields id = Fields.ofPairs (s.cloudId.zip (Text.splitAt separator id)) := by
  simp [idFields, hpk]

/-! ### Bare columns -/

/-- The identity columns of an entity are without the separator of keys. -/
def Bare (s : Schema) (column : String → Option String) : Prop :=
  ∀ name ∈ s.cloudId ++ s.primaryKey.toList, ∀ text, column name = some text →
    separator ∉ text.toList

/-- The key of an entity whose cloud id columns are populated has their texts for its parts. -/
theorem Bare.splitAt_of_populated (hbare : s.Bare column) (hs : s.cloudId ≠ [])
    (h : populated? column s.cloudId = some parts) :
    Text.splitAt separator (s.entityId column) = parts := by
  have hparts := populated?_eq_some_iff.mp h
  have hne : parts ≠ [] := by
    rintro rfl
    exact hs (List.forall₂_nil_right_iff.mp hparts)
  rw [entityId_of_populated hs h]
  refine splitAt_joinKey hne fun part hpart => ?_
  obtain ⟨name, hname, hpart, -⟩ := exists_mem_of_forall₂ hparts hpart
  exact hbare name (List.mem_append_left _ hname) part hpart

/-- Any other key, unless it is empty, is the text of the primary key column, and so a single
part. -/
theorem Bare.exists_primaryKey (hbare : s.Bare column)
    (h : s.cloudId = [] ∨ populated? column s.cloudId = none) (hkey : s.entityId column ≠ "") :
    ∃ pk, s.primaryKey = some pk ∧ column pk = some (s.entityId column) ∧
      Text.splitAt separator (s.entityId column) = [s.entityId column] := by
  have hfallback : s.entityId column = (s.primaryKey.bind column).getD "" :=
    h.elim (fun hs => by simp [entityId, hs]) entityId_of_unpopulated
  cases hbind : s.primaryKey.bind column with
  | none => exact absurd (by rw [hfallback, hbind]; rfl) hkey
  | some text =>
    obtain ⟨pk, hpk, htext⟩ := Option.bind_eq_some_iff.mp hbind
    have hheld : column pk = some (s.entityId column) := by rw [hfallback, hbind, htext]; rfl
    exact ⟨pk, hpk, hheld, Text.splitAt_of_not_mem (hbare pk (by simp [hpk]) _ hheld)⟩

end Schema

/-- An identity that is derived from a schema has nothing but the schema. -/
theorem Identity.eq_of_derived {α : Type} {identity : Identity α} {s : Schema} {kind : String}
    (h : derived kind s = .ok identity) : identity = ⟨s, none, none⟩ := by
  unfold derived at h
  split_ifs at h
  exact (Except.ok.inj h).symm

end Reconcile
