import Reconcile.Proofs.Entity.Key
import Reconcile.Proofs.Fields

/-!
# Keys that are taken apart and put together

The key of an entity is made by one rule and taken apart by another, which sees nothing but the
number of its parts. When there is a single cloud id column and it is not populated, the key is a
primary key, and yet it is taken for the text of the cloud id column. Putting the columns together
goes by the names of the columns that are there, and so it undoes what the second rule did, whatever
the first rule had been (`Schema.generateId_idFields_entityId`).

Where all cloud id columns are populated, the two rules agree: the columns are those of the entity.
-/

namespace Reconcile.Schema

variable {s : Schema} {column : String → Option String} {kind : String}

/-- Populated columns have their texts. -/
theorem populated?_eq_map {names : List String}
    (h : ∀ name ∈ names, ∃ text, column name = some text ∧ text ≠ "") :
    populated? column names = some (names.map fun name => (column name).getD "") := by
  rw [populated?_eq_some_iff, List.forall₂_map_right_iff, List.forall₂_same]
  intro name hname
  obtain ⟨text, htext, hne⟩ := h name hname
  rw [htext]
  exact ⟨rfl, hne⟩

/-! ### Putting columns together -/

/-- The names of pairs are the first of the lists that they were made of. -/
theorem names_of_perm {columns parts : List String} {fields : IdFields}
    (hlength : parts.length = columns.length) (hperm : fields.Perm (columns.zip parts)) :
    fields.names.Perm columns := by
  have hnames := hperm.map Prod.fst
  rwa [List.map_fst_zip (Nat.le_of_eq hlength.symm)] at hnames

/-- Fields that are exactly the columns of a key make the key of their texts. -/
theorem generateId_of_perm {columns parts : List String} {fields : IdFields}
    (hcolumns : columns.Nodup) (hlength : parts.length = columns.length)
    (hperm : fields.Perm (columns.zip parts)) (h : s.keyColumns fields = columns) :
    s.generateId kind fields = .ok (joinKey parts) := by
  have hnames := names_of_perm hlength hperm
  have hheld : ∀ pair ∈ columns.zip parts, fields.find? pair.1 = some pair.2 := fun pair hpair =>
    Fields.find?_of_mem (hnames.nodup_iff.mpr hcolumns) (hperm.mem_iff.mpr hpair)
  have hfirst : columns = (columns.zip parts).map Prod.fst :=
    (List.map_fst_zip (Nat.le_of_eq hlength.symm)).symm
  have hcount : fields.length = columns.length := by
    rw [← hnames.length_eq, Fields.names, List.length_map]
  have hall : columns.all fields.has = true := by
    rw [hfirst, List.all_map]
    exact List.all_eq_true.mpr fun pair hpair => by simp [Fields.has, hheld pair hpair]
  have hparts : columns.map (fun c => (fields.find? c).getD "") = parts :=
    calc columns.map (fun c => (fields.find? c).getD "")
      _ = ((columns.zip parts).map Prod.fst).map (fun c => (fields.find? c).getD "") := by
          rw [← hfirst]
      _ = (columns.zip parts).map Prod.snd := by
          rw [List.map_map]
          exact List.map_congr_left fun pair hpair => by simp [hheld pair hpair]
      _ = parts := List.map_snd_zip (Nat.le_of_eq hlength)
  simp [generateId, h, hcount, hall, hparts]

/-- Fields for all cloud id columns are put together by these, also where the only one of them is
the primary key column. -/
theorem keyColumns_of_perm {fields : IdFields} (hs : s.cloudId ≠ [])
    (hfields : fields.names.Perm s.cloudId) : s.keyColumns fields = s.cloudId := by
  cases hpk : s.primaryKey with
  | none => simp [keyColumns, hpk]
  | some pk =>
    simp only [keyColumns, hpk, List.isEmpty_iff, hs, if_false]
    split_ifs with hone
    · simp only [Bool.and_eq_true, beq_iff_eq] at hone
      obtain ⟨⟨name, text⟩, rfl⟩ := List.length_eq_one_iff.mp hone.1
      have hname : pk = name := by
        by_contra hne
        simp [Fields.has, Fields.find?, hne] at hone
      rw [hname]
      exact List.singleton_perm.mp hfields
    · rfl

/-- The cloud id columns with the parts of a key that has one for each of them. -/
theorem perm_idFields (hs : s.cloudId ≠ []) (hdistinct : s.cloudId.Nodup) {id : String}
    (hlength : (Text.splitAt separator id).length = s.cloudId.length) :
    (s.idFields id).Perm (s.cloudId.zip (Text.splitAt separator id)) := by
  rw [idFields_of_length_eq hs hlength]
  refine Fields.perm_ofPairs ?_
  rwa [List.map_fst_zip (Nat.le_of_eq hlength.symm)]

/-- A key with a part for each cloud id column is put together from its parts. -/
theorem generateId_idFields_of_length_eq (hs : s.cloudId ≠ []) (hdistinct : s.cloudId.Nodup)
    {id : String} (hlength : (Text.splitAt separator id).length = s.cloudId.length) :
    s.generateId kind (s.idFields id) = .ok id := by
  have hperm := perm_idFields hs hdistinct hlength
  rw [generateId_of_perm hdistinct hlength hperm
    (keyColumns_of_perm hs (names_of_perm hlength hperm)), joinKey_splitAt]

/-- A key of one part that is not taken for the text of a cloud id column is put together from the
primary key column. -/
theorem generateId_idFields_of_primaryKey {id pk : String}
    (hsplit : Text.splitAt separator id = [id]) (hone : s.cloudId.length ≠ 1)
    (hpk : s.primaryKey = some pk) : s.generateId kind (s.idFields id) = .ok id := by
  have hfields : s.idFields id = [(pk, id)] := by
    rw [idFields_of_primaryKey (by rw [hsplit]; exact hone.symm) hpk, hsplit]
    rfl
  have hcolumns : s.keyColumns [(pk, id)] = [pk] := by
    simp [keyColumns, hpk, Fields.has, Fields.find?]
  have hperm : List.Perm [(pk, id)] ([pk].zip (Text.splitAt separator id)) := by rw [hsplit]; rfl
  rw [hfields, generateId_of_perm (List.pairwise_singleton _ pk) (by rw [hsplit]; rfl) hperm
    hcolumns, joinKey_splitAt]

/-! ### The round trip -/

/-- The columns that the key of an entity stands for are its cloud id columns, provided that these
are populated. -/
theorem Bare.find?_idFields (hbare : s.Bare column) (hs : s.cloudId ≠ [])
    (hdistinct : s.cloudId.Nodup)
    (h : ∀ name ∈ s.cloudId, ∃ text, column name = some text ∧ text ≠ "") :
    (s.idFields (s.entityId column)).names.Perm s.cloudId ∧
      ∀ name, (s.idFields (s.entityId column)).find? name =
        if name ∈ s.cloudId then column name else none := by
  have hsplit := hbare.splitAt_of_populated hs (populated?_eq_map h)
  have hlength : (Text.splitAt separator (s.entityId column)).length = s.cloudId.length := by
    rw [hsplit, List.length_map]
  have hperm := perm_idFields hs hdistinct hlength
  have hnames := names_of_perm hlength hperm
  refine ⟨hnames, fun name => ?_⟩
  split_ifs with hname
  · obtain ⟨text, htext, -⟩ := h name hname
    rw [htext]
    refine Fields.find?_of_mem (hnames.nodup_iff.mpr hdistinct) (hperm.mem_iff.mpr ?_)
    rw [hsplit, ← List.map_prod_left_eq_zip]
    exact List.mem_map.mpr ⟨name, hname, by rw [htext]; rfl⟩
  · exact Fields.find?_eq_none fun hmem => hname (hnames.mem_iff.mp hmem)

/-- **Keys come back.** The columns that the key of an entity with bare identity columns stands for
are put together to this key, unless it is empty. If there are cloud id columns and all of them are
populated, then the key stands for exactly these columns with the texts of the entity, so that no
entity that differs in one of them has the same key. -/
theorem generateId_idFields_entityId (hdistinct : s.cloudId.Nodup) (hbare : s.Bare column)
    (hkey : s.entityId column ≠ "") (kind : String) :
    s.generateId kind (s.idFields (s.entityId column)) = .ok (s.entityId column) ∧
      (s.cloudId ≠ [] → (∀ name ∈ s.cloudId, ∃ text, column name = some text ∧ text ≠ "") →
        (s.idFields (s.entityId column)).names.Perm s.cloudId ∧
        (∀ name, (s.idFields (s.entityId column)).find? name =
          if name ∈ s.cloudId then column name else none) ∧
        ∀ column', s.Bare column' →
          (∀ name ∈ s.cloudId, ∃ text, column' name = some text ∧ text ≠ "") →
          s.entityId column' = s.entityId column →
          ∀ name ∈ s.cloudId, column' name = column name) := by
  refine ⟨?_, fun hs hpopulated => ?_⟩
  · by_cases hs : s.cloudId = [] ∨ populated? column s.cloudId = none
    · obtain ⟨pk, hpk, -, hsplit⟩ := hbare.exists_primaryKey hs hkey
      by_cases hone : s.cloudId.length = 1
      · have hne : s.cloudId ≠ [] := List.ne_nil_of_length_eq_add_one hone
        exact generateId_idFields_of_length_eq hne hdistinct (by rw [hsplit, hone]; rfl)
      · exact generateId_idFields_of_primaryKey hsplit hone hpk
    · obtain ⟨hne, hsome⟩ := not_or.mp hs
      obtain ⟨parts, hparts⟩ := Option.ne_none_iff_exists'.mp hsome
      refine generateId_idFields_of_length_eq hne hdistinct ?_
      rw [hbare.splitAt_of_populated hne hparts, (populated?_eq_some_iff.mp hparts).length_eq]
  · obtain ⟨hnames, hfind⟩ := hbare.find?_idFields hs hdistinct hpopulated
    refine ⟨hnames, hfind, fun column' hbare' hpopulated' hsame name hname => ?_⟩
    obtain ⟨-, hfind'⟩ := hbare'.find?_idFields hs hdistinct hpopulated'
    have htext := hfind' name
    rw [hsame, hfind name, if_pos hname, if_pos hname] at htext
    exact htext.symm

/-- Subnets are told apart by their number and their region, and until they have them, by the
number of their row. -/
def subnets : Schema := ⟨"subnet", ["subnet_id", "region"], some "id"⟩

/-- The key of a subnet stands for its number and its region. -/
theorem generateId_idFields_entityId_subnet :
    let column : String → Option String := fun name =>
      Fields.find? name [("id", "7"), ("region", "us-east-1"), ("subnet_id", "subnet-1")]
    subnets.entityId column = "subnet-1|us-east-1" ∧
      subnets.generateId "Subnet" (subnets.idFields "subnet-1|us-east-1") =
        .ok "subnet-1|us-east-1" ∧
      (subnets.idFields "subnet-1|us-east-1").find? "region" = some "us-east-1" := by
  intro column
  have hkey : subnets.entityId column = "subnet-1|us-east-1" := by decide
  have hbare : subnets.Bare column := by
    have hcolumns : ∀ name ∈ subnets.cloudId ++ subnets.primaryKey.toList,
        ∀ text ∈ column name, separator ∉ text.toList := by decide
    exact hcolumns
  have hpopulated : ∀ name ∈ subnets.cloudId, ∃ text, column name = some text ∧ text ≠ "" := by
    have htexts : ∀ name ∈ subnets.cloudId, ∃ text ∈ ["subnet-1", "us-east-1"],
        column name = some text ∧ text ≠ "" := by decide
    exact fun name hname => (htexts name hname).imp fun _ h => h.2
  obtain ⟨hround, hfields⟩ :=
    generateId_idFields_entityId (s := subnets) (by decide) hbare (by rw [hkey]; decide) "Subnet"
  obtain ⟨-, hfind, -⟩ := hfields (by decide) hpopulated
  have hregion := hfind "region"
  rw [hkey] at hround hregion
  exact ⟨hkey, hround, hregion⟩

end Reconcile.Schema
