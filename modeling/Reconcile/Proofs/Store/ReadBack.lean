import Reconcile.Proofs.Entity.Key
import Reconcile.Proofs.Store.Failure
import Reconcile.Proofs.Store.Reading

/-!
# Reading back what was created

An entity that is created in an empty store has its row there, with a number in the primary key
column if it came without one. Its key is made of its cloud id columns, and failing that of its
primary key. When the key is looked up, it is taken apart by another rule, which sees only how many
parts it has. The two rules agree except in one case: where there is a single cloud id column and it
is not populated, the key is a primary key, but it is looked for in the cloud id column, and so it
is not found.

`Crud.read_back_iff` says that a created entity can be read back by its key in every other case, and
that it cannot in this one.
-/

namespace Reconcile

variable {α : Type} [Entity α] {s : Schema}

/-! ### Faithful entity types -/

/-- An entity type whose entities are told by their rows: the columns of an entity are those of its
row, and the row can be read back. A row to which the store has added a number gives an entity with
the same columns; only the primary key column may have become the number. -/
structure Entity.Faithful (α : Type) [Entity α] (s : Schema) : Prop where
  column_eq : ∀ (e : α) (row : Row), Entity.toRow e = .ok (.obj row) →
    ∀ name, Entity.column e name = row.column? name
  roundTrip : ∀ (e : α) (value : Json), Entity.toRow e = .ok value → Entity.ofRow value = .ok e
  numbered : ∀ (e e' : α) (row : Row) (pk : String) (n : Nat), s.primaryKey = some pk →
    Entity.toRow e = .ok (.obj row) → row.lacks pk = true →
    Entity.ofRow (.obj (row.put pk (.int n))) = .ok e' →
      (∀ name, name ≠ pk → Entity.column e' name = Entity.column e name) ∧
        ∀ text, Entity.column e' pk = some text → text = toString (n : Int)

/-- What the first row of a table says of the entity in it: the columns of the entity are those of
the row, unless it has nothing in the primary key column, and its identity columns are bare if they
were before it was stored. -/
theorem Entity.Faithful.stored (htype : Entity.Faithful α s) {e e' : α} {row : Row}
    (hrow : Entity.toRow e = .ok (.obj row))
    (he' : Entity.ofRow (.obj (Table.empty.save s row).1) = .ok e') :
    (∀ name, Entity.column e' name = (Table.empty.save s row).1.column? name ∨
      s.primaryKey = some name ∧ Entity.column e' name = none) ∧
    (s.Bare (Entity.column e) → s.Bare (Entity.column e')) := by
  have hsame : Entity.ofRow (.obj row) = .ok e' → e' = e := fun hread =>
    Except.ok.inj (hread.symm.trans (htype.roundTrip e _ hrow))
  cases hpk : s.primaryKey with
  | none =>
    have hstored : (Table.empty.save s row).1 = row := by
      unfold Table.save Table.number
      rw [hpk]
      dsimp only
      split <;> rfl
    rw [hstored] at he' ⊢
    obtain rfl := hsame he'
    exact ⟨fun name => .inl (htype.column_eq e' row hrow name), id⟩
  | some pk =>
    have hnumber : (Table.empty.lastNumber + 1).toInt = (1 : Nat) := rfl
    rw [Table.fst_save hpk] at he' ⊢
    cases hlacks : row.lacks pk with
    | false =>
      rw [Row.numbered_of_not_lacks hlacks] at he' ⊢
      obtain rfl := hsame he'
      exact ⟨fun name => .inl (htype.column_eq e' row hrow name), id⟩
    | true =>
      rw [Row.numbered_of_lacks hlacks, hnumber] at he' ⊢
      obtain ⟨hothers, hkey⟩ := htype.numbered e e' row pk 1 hpk hrow hlacks he'
      refine ⟨fun name => ?_, fun hbare name hname text htext => ?_⟩
      · by_cases hname : name = pk
        · subst hname
          cases htext : Entity.column e' name with
          | none => exact .inr ⟨rfl, rfl⟩
          | some text => exact .inl (by rw [Row.column?_put_int, hkey text htext])
        · left
          rw [hothers name hname, htype.column_eq e row hrow, Row.column?, Row.column?,
            Fields.find?_put_of_ne hname]
      · by_cases hnamed : name = pk
        · subst hnamed
          rw [hkey text htext]
          decide
        · exact hbare name hname text ((hothers name hnamed).symm.trans htext)

/-- A row is an entity that is stored as it is. -/
instance : Entity Row where
  column := Row.column?
  toRow row := .ok (.obj row)
  ofRow
    | .obj row => .ok row
    | _ => .error "no row"

/-- Rows are told by themselves, whatever the schema. -/
theorem Row.faithful (s : Schema) : Entity.Faithful Row s where
  column_eq _ _ hrow _ := by
    cases hrow
    rfl
  roundTrip _ _ hrow := by
    cases hrow
    rfl
  numbered row _ _ pk n _ hrow _ hread := by
    cases hrow
    cases hread
    refine ⟨fun name hname => ?_, fun text htext => ?_⟩
    · change Row.column? (row.put pk (.int n)) name = row.column? name
      rw [Row.column?, Row.column?, Fields.find?_put_of_ne hname]
    · exact Option.some.inj (htext.symm.trans (Row.column?_put_int row n))

/-! ### Keys of stored entities -/

/-- The columns of the key of an entity find its row, unless there is a single cloud id column and
it is not populated. -/
theorem Schema.agrees_entityId_iff (hs : s.cloudId ≠ []) (hdistinct : s.cloudId.Nodup) {row : Row}
    {column : String → Option String}
    (hcolumn : ∀ name, column name = row.column? name ∨
      s.primaryKey = some name ∧ column name = none)
    (hbare : s.Bare column) (hkey : s.entityId column ≠ "") :
    row.agrees (s.idFields (s.entityId column)) = true ↔
      ¬ (s.cloudId.length = 1 ∧ populated? column s.cloudId = none) := by
  have htext : ∀ {name text}, column name = some text → row.column? name = some text :=
    fun {name text} h => (hcolumn name).elim (fun heq => heq.symm.trans h)
      fun hnone => absurd (h.symm.trans hnone.2) (Option.some_ne_none text)
  cases hpopulated : populated? column s.cloudId with
  | some parts =>
    -- the key has a part for each cloud id column, and the row has these parts
    have hparts := populated?_eq_some_iff.mp hpopulated
    have hsplit := hbare.splitAt_of_populated hs hpopulated
    refine iff_of_true ?_ (by simp)
    rw [idFields_of_length_eq hs (by rw [hsplit, hparts.length_eq]), hsplit,
      Row.agrees_ofPairs_iff (nodup_map_fst_zip hdistinct _)]
    exact fun name part hmem => htext (List.forall₂_zip hparts hmem).1
  | none =>
    -- the key is the text of the primary key column, and so a single part
    obtain ⟨pk, hpk, hkeyed, hsplit⟩ := hbare.exists_primaryKey (.inr hpopulated) hkey
    by_cases hone : s.cloudId.length = 1
    · obtain ⟨name, hname⟩ := List.length_eq_one_iff.mp hone
      refine iff_of_false (fun hagrees => ?_) (by simp [hone])
      rw [idFields_of_length_eq hs (by rw [hsplit, hone]; rfl), hsplit, hname] at hagrees
      have hheld : row.column? name = some (s.entityId column) :=
        Row.agrees_singleton_iff.mp hagrees
      -- then the cloud id column of the entity would be populated
      have hcloud : column name = some (s.entityId column) := by
        rcases hcolumn name with heq | ⟨hpk', -⟩
        · exact heq.trans hheld
        · obtain rfl : name = pk := Option.some.inj (hpk'.symm.trans hpk)
          exact hkeyed
      rw [hname, populated?_eq_some_iff.mpr (.cons ⟨hcloud, hkey⟩ .nil)] at hpopulated
      cases hpopulated
    · refine iff_of_true ?_ (by simp [hone])
      rw [idFields_of_primaryKey (by rw [hsplit]; exact Ne.symm hone) hpk, hsplit]
      exact Row.agrees_singleton_iff.mpr (htext hkeyed)

/-! ### Creating one entity -/

namespace Store

variable {e : α} {created : List α} {store : Store}

/-- An entity that is saved has a row, and what is answered is the entity in the row as it was
stored. -/
theorem exists_of_saveEntities (h : (saveEntities s [e] store).1 = .ok created) :
    ∃ row e', Entity.toRow e = .ok (.obj row) ∧
      Entity.ofRow (.obj ((store.table s.table).save s row).1) = .ok e' ∧ created = [e'] ∧
      (saveEntities s [e] store).2.table s.table = ((store.table s.table).save s row).2 := by
  cases hrow : Entity.toRow e with
  | error cause =>
    have hrows : toRows [e] = .error (.json cause) := by
      rw [toRows, List.mapM_cons, hrow]
      rfl
    rw [saveEntities, hrows] at h
    cases h
  | ok value =>
    have hrows : toRows [e] = .ok [value] := by
      rw [toRows, List.mapM_cons, hrow]
      rfl
    by_cases hvalue : ∃ row, value = .obj row
    · obtain ⟨row, rfl⟩ := hvalue
      have hsaved : ofRows [.obj ((store.table s.table).save s row).1] = .ok created :=
        (fst_saveEntities (hrows.trans rfl : toRows [e] = .ok ([row].map .obj)) store).symm.trans h
      obtain ⟨e', rest, hread, hrest, rfl⟩ :=
        List.forall₂_cons_left_iff.mp (mapM_eq_ok_iff.mp hsaved)
      obtain rfl := List.forall₂_nil_left_iff.mp hrest
      refine ⟨row, e', rfl, eq_ok_of_mapError hread, rfl, ?_⟩
      rw [table_saveEntities, writtenRows, hrows]
      rfl
    · have hfailed : (saveEntities s [e] store).1 = .error (notARow s value) := by
        unfold saveEntities
        rw [hrows]
        cases value with
        | obj row => exact absurd ⟨row, rfl⟩ hvalue
        | _ => rfl
      rw [hfailed] at h
      cases h

end Store

namespace Crud

open Cache Store

variable {crud : Crud α} {identity : Identity α} {e : α} {c c' : Cache α} {hs : List Handle}
  {store store' : Store}

/-- A creation of one entity that succeeds answers with records of the entity that the stored row
holds. -/
theorem exists_of_create (hc : c.Sound)
    (h : ((crud.create (stored identity) [e]).run c).run store = ((.ok hs, c'), store')) :
    ∃ row e', Entity.toRow e = .ok (.obj row) ∧
      Entity.ofRow (.obj ((store.table identity.schema.table).save identity.schema row).1) =
        .ok e' ∧
      store'.table identity.schema.table =
        ((store.table identity.schema.table).save identity.schema row).2 ∧
      ∀ r ∈ hs, c'.entity? r = some e' := by
  rw [run_create_stored] at h
  obtain ⟨hend, rfl⟩ := Prod.mk.inj h
  cases hsave : (saveEntities identity.schema [e] store).1 with
  | error cause =>
    rw [hsave] at hend
    cases (Prod.mk.inj hend).1
  | ok created =>
    obtain ⟨row, e', hrow, he', rfl, htable⟩ := exists_of_saveEntities hsave
    refine ⟨row, e', hrow, he', htable, ?_⟩
    have hholds := crud.holds_reserveAll [e] hc
    have hsound := (crud.calm_reserveAll [e] hc).sound
    obtain ⟨r, hr⟩ := List.length_eq_one_iff.mp (crud.length_reserveAll [e] c)
    rw [hsave] at hend
    change (Except.ok (crud.finishCreate _ [e'] _).1, (crud.finishCreate _ [e'] _).2) = _ at hend
    rw [finishCreate_of_length crud (by rw [hr]; rfl), hr] at hend
    obtain ⟨hanswer, rfl⟩ := Prod.mk.inj hend
    intro h' hh'
    rw [← Except.ok.inj hanswer] at hh'
    obtain rfl : h' = _ := List.mem_singleton.mp hh'
    exact (entity?_settle crud e' hsound (hholds r (hr ▸ List.mem_singleton_self r)) _).trans
      (if_pos (.inl rfl))

/-- **Reading back.** An entity that was created in an empty store, with a derived key that is not
empty, is found by this key in a fresh cache, unless there is a single cloud id column and it is not
populated. In this case nothing is found. -/
theorem read_back_iff {type : EntityType} {kind : String} (htype : Entity.Faithful α s)
    (hderived : Identity.derived kind s = .ok identity) (hs : s.cloudId ≠ [])
    (hdistinct : s.cloudId.Nodup) {e' : α} (hbare : s.Bare (Entity.column e)) (hc : c.Sound)
    {records : List Handle}
    (hcreate : (((declared type identity).create (stored identity) [e]).run c).run Store.empty =
      ((.ok records, c'), store))
    {h : Handle} (hh : h ∈ records) (he' : c'.entity? h = some e')
    (hkey : identity.entityId e' ≠ "") :
    let run := freshRead type identity (identity.entityId e') store
    let unpopulated := s.cloudId.length = 1 ∧ Schema.populated? (Entity.column e') s.cloudId = none
    run.2 = store ∧
      ((∃ r, run.1.1 = .ok (some r) ∧ run.1.2.entity? r = some e') ↔ ¬ unpopulated) ∧
      (unpopulated → run.1.1 = .ok none) := by
  intro run unpopulated
  obtain rfl := Identity.eq_of_derived hderived
  obtain ⟨row, e'', hrow, hread, htable, hheld⟩ := exists_of_create hc hcreate
  obtain rfl : e'' = e' := Option.some.inj ((hheld h hh).symm.trans he')
  have hempty : Store.empty.table s.table = Table.empty := rfl
  rw [hempty] at hread htable
  obtain ⟨hcolumn, hbare'⟩ := htype.stored hrow hread
  have hagrees : (Table.empty.save s row).1.agrees
      ((⟨s, none, none⟩ : Identity α).idFields (Identity.entityId ⟨s, none, none⟩ e'')) = true ↔
        ¬ unpopulated :=
    Schema.agrees_entityId_iff hs hdistinct hcolumn (hbare' hbare) hkey
  -- the created row is the only one in the table
  have hrows : (store.table (⟨s, none, none⟩ : Identity α).schema.table).rows =
      [(Table.empty.save s row).1] := by
    rw [htable, Table.rows_save]
    rfl
  obtain ⟨answer, hok, hstore, hanswer⟩ :=
    freshRead_of_row type hrows hread (Identity.entityId ⟨s, none, none⟩ e'')
  refine ⟨hstore, ?_⟩
  by_cases hun : unpopulated
  · rw [if_neg fun h => hagrees.mp h hun] at hanswer
    obtain rfl := Option.map_eq_none_iff.mp hanswer
    exact ⟨⟨fun ⟨r, hr, _⟩ => absurd (hok.symm.trans hr) (by simp), fun hnot => absurd hun hnot⟩,
      fun _ => hok⟩
  · rw [if_pos (hagrees.mpr hun)] at hanswer
    obtain ⟨r, rfl, hr⟩ := Option.map_eq_some_iff.mp hanswer
    exact ⟨⟨fun _ => hun, fun _ => ⟨r, hok, hr⟩⟩, fun h => absurd h hun⟩

/-- The identity of rows that a schema derives. -/
def rowIdentity (s : Schema) : Identity Row := ⟨s, none, none⟩

/-- Links are told apart by both of their ends, and until they have them, by their numbers. -/
def links : Schema := ⟨"link", ["source", "target"], some "id"⟩

/-- A link of which only one end is known has its number for a key, and is read back by it. -/
theorem read_back_iff_number :
    let entity : Row := [("source", .str "a")]
    let numbered : Row := [("id", .int 1), ("source", .str "a")]
    let run := (((declared ⟨"Link", "Link"⟩ (rowIdentity links)).create
      (stored (rowIdentity links)) [entity]).run Cache.empty).run Store.empty
    let read := freshRead ⟨"Link", "Link"⟩ (rowIdentity links) "1" run.2
    links.Bare (Entity.column entity) ∧
      (∃ h, run.1.1 = .ok [h] ∧ run.1.2.entity? h = some numbered) ∧
      (rowIdentity links).entityId numbered = "1" ∧
      ∃ r, read.1.1 = .ok (some r) ∧ read.1.2.entity? r = some numbered := by
  intro entity numbered run read
  have hbare : links.Bare (Entity.column entity) := by
    have hcolumns : ∀ name ∈ links.cloudId ++ links.primaryKey.toList,
        ∀ text ∈ Row.column? [("source", .str "a")] name, Schema.separator ∉ text.toList := by
      decide
    exact hcolumns
  have hrun : run = ((.ok [⟨⟨"Link", "Link"⟩, 0⟩], run.1.2), run.2) := rfl
  have hheld : run.1.2.entity? ⟨⟨"Link", "Link"⟩, 0⟩ = some numbered := rfl
  have hderived : Identity.derived "Link" links = .ok (rowIdentity links) := rfl
  have hkey : (rowIdentity links).entityId numbered = "1" := by decide
  obtain ⟨-, hiff, -⟩ := read_back_iff (Row.faithful links) hderived (by decide) (by decide) hbare
    sound_empty hrun (List.mem_singleton_self _) hheld (by rw [hkey]; decide)
  rw [hkey] at hiff
  exact ⟨hbare, ⟨_, rfl, hheld⟩, hkey, hiff.mpr fun hun => absurd hun.1 (by decide)⟩

/-- **A queue that cannot be read back.** A queue without an address is created, and the record of
it has the number 1 for its key. A fresh cache finds nothing under this key, since a single part is
taken for an address. -/
theorem read_back_lost :
    let entity : Row := [("name", .str "a")]
    let numbered : Row := [("id", .int 1), ("name", .str "a")]
    let run := (((declared ⟨"Queue", "Queue"⟩ (rowIdentity queues)).create
      (stored (rowIdentity queues)) [entity]).run Cache.empty).run Store.empty
    Identity.derived "Queue" queues = .ok (rowIdentity queues) ∧
      Entity.Faithful Row queues ∧ queues.Bare (Entity.column entity) ∧
      (∃ h, run.1.1 = .ok [h] ∧ run.1.2.entity? h = some numbered) ∧
      (rowIdentity queues).entityId numbered = "1" ∧
      (freshRead ⟨"Queue", "Queue"⟩ (rowIdentity queues) "1" run.2).1.1 = .ok none := by
  intro entity numbered run
  have hcolumns : ∀ name ∈ queues.cloudId ++ queues.primaryKey.toList,
      ∀ text ∈ Row.column? [("name", .str "a")] name, Schema.separator ∉ text.toList := by
    decide
  exact ⟨rfl, Row.faithful queues, hcolumns, ⟨⟨⟨"Queue", "Queue"⟩, 0⟩, rfl, rfl⟩, rfl, rfl⟩

end Crud

end Reconcile
