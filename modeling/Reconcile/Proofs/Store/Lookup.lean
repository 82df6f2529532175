import Reconcile.Proofs.Entity.Key
import Reconcile.Proofs.Store.Reading

/-!
# Looking keys up in the store

A read on the declared side takes its key apart into columns and answers with an entity from a row
that has these texts in these columns. The row need not belong to the key: the columns may be fewer
than those that the key of an entity is made of, or none at all, and an entity of another key is
taken for an answer just as well.

So whether a key is only ever answered with entities that it names (`Identity.Names`) is a question
about its columns: all entities in rows that agree with them have to be named by it
(`Identity.Pins`). `Crud.lookup_named_iff` says so, and which keys do pin their entities when keys
are derived from a schema (`Schema.Addresses`).
-/

namespace Reconcile

variable {α : Type} [Entity α]

/-! ### Named entities -/

namespace Store

/-- The store whose only row is in the table of a schema. -/
def single (s : Schema) (row : Row) : Store :=
  empty.setTable s.table ⟨[row], 0⟩

theorem rows_single (s : Schema) (row : Row) : ((single s row).table s.table).rows = [row] := by
  rw [single, table_setTable]

end Store

namespace Identity

/-- A key names an entity: it is the key of the entity, or the text of its primary key column. -/
def Names (identity : Identity α) (id : String) (e : α) : Prop :=
  identity.entityId e = id ∨ identity.schema.primaryKey.bind (Entity.column e) = some id

/-- A key pins its entities: it names every entity in a row that agrees with its columns. -/
def Pins (identity : Identity α) (id : String) : Prop :=
  ∀ (row : Row) (e : α), row.agrees (identity.idFields id) = true →
    Entity.ofRow (.obj row) = .ok e → identity.Names id e

end Identity

namespace Crud

open Store

/-- The answers to a key are named by it, whatever is in the store. -/
def AnswersNamed (type : EntityType) (identity : Identity α) (id : String) : Prop :=
  ∀ store h, (freshRead type identity id store).1.1 = .ok (some h) →
    ∃ e, (freshRead type identity id store).1.2.entity? h = some e ∧ identity.Names id e

variable {type : EntityType} {identity : Identity α} {id : String}

theorem answersNamed_of_pins (hpins : identity.Pins id) : AnswersNamed type identity id := by
  intro store h hanswer
  cases hread : readEntities identity (some id) store with
  | error cause =>
    rw [freshRead_of_error type hread] at hanswer
    cases hanswer
  | ok found =>
    obtain ⟨answer, hok, -, hentity⟩ := freshRead_of_ok type hread
    rw [hok] at hanswer
    obtain rfl : answer = some h := Except.ok.inj hanswer
    obtain ⟨key, hkey, hlast⟩ := Option.map_eq_some_iff.mp hentity.symm
    obtain ⟨e₀, he₀, hkeyed⟩ := exists_mem_of_answerKey? hkey
    obtain ⟨e, he⟩ : ∃ e, (declared type identity).lastOf found key = some e := by
      rw [← Option.isSome_iff_exists, lastOf, List.find?_isSome]
      exact ⟨e₀, List.mem_reverse.mpr he₀, by simpa using hkeyed⟩
    have hmem : e ∈ found := List.mem_reverse.mp (List.mem_of_find?_eq_some he)
    obtain ⟨row, hagrees, hrow⟩ := exists_row_of_mem_found hread hmem
    exact ⟨e, hlast.symm.trans he, hpins row e hagrees hrow⟩

theorem pins_of_answersNamed (h : AnswersNamed type identity id) : identity.Pins id := by
  intro row e hagrees hrow
  obtain ⟨answer, hok, -, hentity⟩ :=
    freshRead_of_row type (rows_single identity.schema row) hrow id
  rw [if_pos hagrees] at hentity
  obtain ⟨r, rfl, hr⟩ := Option.map_eq_some_iff.mp hentity
  obtain ⟨e', he', hnamed⟩ := h _ _ hok
  obtain rfl : e' = e := Option.some.inj (he'.symm.trans hr)
  exact hnamed

end Crud

/-! ### Keys derived from a schema -/

namespace Row

/-- The row with the given texts. -/
def ofTexts (fields : IdFields) : Row :=
  fields.map fun field => (field.1, .str field.2)

theorem find?_ofTexts (fields : IdFields) (name : String) :
    Fields.find? name (ofTexts fields) = (Fields.find? name fields).map .str := by
  induction fields with
  | nil => rfl
  | cons field rest ih =>
    obtain ⟨other, text⟩ := field
    change Fields.find? name ((other, Json.str text) :: ofTexts rest) = _
    unfold Fields.find?
    split_ifs
    · rfl
    · exact ih

@[simp]
theorem column?_ofTexts (fields : IdFields) (name : String) :
    (ofTexts fields).column? name = Fields.find? name fields := by
  rw [column?, find?_ofTexts]
  cases Fields.find? name fields <;> rfl

/-- The row made of pairs of distinct names has their texts. -/
theorem column?_ofPairs {pairs : List (String × String)} (h : (pairs.map Prod.fst).Nodup)
    (name : String) : (ofTexts (Fields.ofPairs pairs)).column? name = Fields.find? name pairs := by
  rw [column?_ofTexts, Fields.find?_ofPairs h]

/-- The row made of pairs of distinct names agrees with them. -/
theorem agrees_ofPairs {pairs : List (String × String)} (h : (pairs.map Prod.fst).Nodup) :
    (ofTexts (Fields.ofPairs pairs)).agrees (Fields.ofPairs pairs) = true := by
  rw [agrees_ofPairs_iff h]
  intro name text hmem
  rw [column?_ofPairs h]
  exact Fields.find?_of_mem h hmem

end Row

namespace Schema

variable {s : Schema} {id : String}

/-- The key names whatever has the given columns: it is the key made of them, or the text of the
primary key column. -/
def Names (s : Schema) (id : String) (column : String → Option String) : Prop :=
  s.entityId column = id ∨ s.primaryKey.bind column = some id

/-- A key addresses its entities: it has a part for each cloud id column and none is empty, or it is
a single part where there are several of them, so that it can only be a primary key, or it is empty
as the key of entities that have none. -/
def Addresses (s : Schema) (id : String) : Prop :=
  let parts := Text.splitAt separator id
  (parts.length = s.cloudId.length ∧ "" ∉ parts) ∨
  (parts.length = 1 ∧ s.cloudId.length ≠ 1 ∧ s.primaryKey.isSome) ∨
  (id = "" ∧ ∀ pk ∈ s.primaryKey, s.cloudId = [pk])

theorem splitAt_empty : Text.splitAt separator "" = [""] := by
  decide

/-- A part that is the whole key is the only one. -/
theorem splitAt_of_mem (h : id ∈ Text.splitAt separator id) : Text.splitAt separator id = [id] :=
  Text.splitAt_of_not_mem (Text.not_mem_of_mem_splitAt h)

/-- The columns of a key that addresses its entities are those of an entity that it names. -/
theorem names_of_addresses (hs : s.cloudId ≠ []) (hdistinct : s.cloudId.Nodup)
    (haddr : s.Addresses id) {row : Row} (hagrees : row.agrees (s.idFields id) = true) :
    s.Names id row.column? := by
  rcases haddr with ⟨hlength, hparts⟩ | ⟨hone, hmany, hpk⟩ | ⟨rfl, hpk⟩
  · rw [idFields_of_length_eq hs hlength, Row.agrees_ofPairs_iff (nodup_map_fst_zip hdistinct _)]
      at hagrees
    have hpopulated : populated? row.column? s.cloudId = some (Text.splitAt separator id) := by
      refine populated?_eq_some_iff.mpr (List.forall₂_iff_zip.mpr ⟨hlength.symm, fun hmem => ?_⟩)
      exact ⟨hagrees _ _ hmem, fun hempty => hparts (hempty ▸ (List.of_mem_zip hmem).2)⟩
    exact .inl ((entityId_of_populated hs hpopulated).trans (joinKey_splitAt id))
  · obtain ⟨pk, hpk⟩ := Option.isSome_iff_exists.mp hpk
    obtain ⟨part, hpart⟩ := List.length_eq_one_iff.mp hone
    have hid : part = id := by
      have hjoin := joinKey_splitAt id
      rwa [hpart, joinKey, String.intercalate_singleton] at hjoin
    rw [idFields_of_primaryKey (by rw [hone]; exact hmany.symm) hpk, hpart,
      Row.agrees_singleton_iff] at hagrees
    exact .inr (by rw [hpk, Option.bind_some, hagrees, ← hid]; rfl)
  · cases hprimary : s.primaryKey with
    | some pk =>
      have hcloud := hpk pk hprimary
      rw [idFields_of_length_eq hs (by rw [splitAt_empty, hcloud]; rfl), splitAt_empty, hcloud]
        at hagrees
      exact .inr (by rw [hprimary]; exact Row.agrees_singleton_iff.mp hagrees)
    | none =>
      -- the first cloud id column is empty, and there is no other key
      obtain ⟨name, rest, hcloud⟩ := List.exists_cons_of_ne_nil hs
      rw [idFields_of_no_primaryKey hprimary, splitAt_empty, hcloud, List.zip_cons_cons,
        List.zip_nil_right] at hagrees
      have hname : row.column? name = some "" := Row.agrees_singleton_iff.mp hagrees
      have hnone : populated? row.column? s.cloudId = none :=
        populated?_eq_none (hcloud ▸ List.mem_cons_self) fun text htext =>
          Option.some.inj (htext.symm.trans hname)
      exact .inl (by rw [entityId_of_unpopulated hnone, hprimary]; rfl)

/-- A key that is not made of as many parts as there are cloud id columns is not the key of an
entity whose cloud id columns are populated by texts without separator. -/
theorem joinKey_ne (hlength : (Text.splitAt separator id).length ≠ s.cloudId.length)
    (hs : s.cloudId ≠ []) {column : String → Option String} {texts : List String}
    (hpopulated : populated? column s.cloudId = some texts)
    (hbare : ∀ name text, column name = some text → separator ∉ text.toList) :
    joinKey texts ≠ id := by
  have hbare' : s.Bare column := fun name _ => hbare name
  have hsplit := hbare'.splitAt_of_populated hs hpopulated
  rw [entityId_of_populated hs hpopulated] at hsplit
  rintro rfl
  rw [hsplit, (populated?_eq_some_iff.mp hpopulated).length_eq] at hlength
  exact hlength rfl

/-- A key does not name an entity whose cloud id columns are not populated, unless it is the text of
its primary key column, or both are empty. -/
theorem not_names_of_unpopulated {column : String → Option String}
    (hnone : populated? column s.cloudId = none) (hpk : s.primaryKey.bind column ≠ some id)
    (hid : id ≠ "" ∨ (s.primaryKey.bind column).isSome) : ¬ s.Names id column := by
  rintro (hkey | htext)
  · rw [entityId_of_unpopulated hnone] at hkey
    cases htext : s.primaryKey.bind column with
    | none =>
      rw [htext] at hkey hid
      exact hid.elim (fun hid => hid hkey.symm) Bool.false_ne_true
    | some text =>
      rw [htext, Option.getD_some] at hkey
      exact hpk (htext.trans (congrArg some hkey))
  · exact hpk htext

/-- A key that is not made of as many parts as there are cloud id columns does not name an entity
whose texts are without separator, unless it is the text of its primary key column, or both are
empty. -/
theorem not_names_of_length_ne (hs : s.cloudId ≠ [])
    (hlength : (Text.splitAt separator id).length ≠ s.cloudId.length)
    {column : String → Option String}
    (hbare : ∀ name text, column name = some text → separator ∉ text.toList)
    (hpk : s.primaryKey.bind column ≠ some id)
    (hid : id ≠ "" ∨ (s.primaryKey.bind column).isSome) : ¬ s.Names id column := by
  cases hpopulated : populated? column s.cloudId with
  | none => exact not_names_of_unpopulated hpopulated hpk hid
  | some texts =>
    refine not_or.mpr ⟨?_, hpk⟩
    rw [entityId_of_populated hs hpopulated]
    exact joinKey_ne hlength hs hpopulated hbare

/-- A key of as many parts as there are cloud id columns, one of them empty, does not name all rows
that have its parts, unless it is the empty key. -/
theorem exists_not_names_of_empty (hs : s.cloudId ≠ []) (hdistinct : s.cloudId.Nodup)
    (hlength : (Text.splitAt separator id).length = s.cloudId.length)
    (hempty : "" ∈ Text.splitAt separator id)
    (hid : ¬ (id = "" ∧ ∀ pk ∈ s.primaryKey, s.cloudId = [pk])) :
    ∃ texts : IdFields, (Row.ofTexts texts).agrees (s.idFields id) = true ∧
      ¬ s.Names id (Row.ofTexts texts).column? := by
  by_cases hnonempty : id = ""
  · -- the row has another primary key, and no cloud id
    subst hnonempty
    obtain ⟨pk, hpk, hcloud⟩ : ∃ pk, s.primaryKey = some pk ∧ s.cloudId ≠ [pk] := by
      simpa using hid
    rw [splitAt_empty] at hlength
    obtain ⟨name, hname⟩ := List.length_eq_one_iff.mp hlength.symm
    have hne : name ≠ pk := fun heq => hcloud (heq ▸ hname)
    have hnames : ([(name, ""), (pk, "x")].map Prod.fst).Nodup := by simpa using hne
    refine ⟨Fields.ofPairs [(name, ""), (pk, "x")], ?_, ?_⟩
    · rw [idFields_of_length_eq hs (by rw [splitAt_empty, hlength]), splitAt_empty, hname]
      refine Row.agrees_singleton_iff.mpr ?_
      rw [Row.column?_ofPairs hnames, Fields.find?, if_pos rfl]
    · have hcolumn : (Row.ofTexts (Fields.ofPairs [(name, ""), (pk, "x")])).column? pk =
          some "x" := by
        rw [Row.column?_ofPairs hnames, Fields.find?, if_neg hne.symm, Fields.find?, if_pos rfl]
      have hnone : populated? (Row.ofTexts (Fields.ofPairs [(name, ""), (pk, "x")])).column?
          s.cloudId = none := by
        refine populated?_eq_none (hname ▸ List.mem_singleton_self name) fun text htext => ?_
        rw [Row.column?_ofPairs hnames, Fields.find?, if_pos rfl] at htext
        exact (Option.some.inj htext).symm
      refine not_names_of_unpopulated hnone ?_ (.inr ?_)
      · rw [hpk, Option.bind_some, hcolumn]
        decide
      · rw [hpk, Option.bind_some, hcolumn]
        rfl
  · -- the row has the parts of the key and nothing else
    have hnames := nodup_map_fst_zip hdistinct (Text.splitAt separator id)
    have hcolumn := Row.column?_ofPairs hnames
    refine ⟨Fields.ofPairs (s.cloudId.zip (Text.splitAt separator id)), ?_, ?_⟩
    · rw [idFields_of_length_eq hs hlength]
      exact Row.agrees_ofPairs hnames
    · have hzip := List.forall₂_iff_zip.mpr ⟨hlength.symm, fun hmem => hmem⟩
      obtain ⟨name, hname, hmem⟩ := exists_mem_of_forall₂ hzip hempty
      have hnone : populated? (Row.ofTexts (Fields.ofPairs
          (s.cloudId.zip (Text.splitAt separator id)))).column? s.cloudId = none := by
        refine populated?_eq_none hname fun text htext => ?_
        rw [hcolumn, Fields.find?_of_mem hnames hmem] at htext
        exact (Option.some.inj htext).symm
      refine not_names_of_unpopulated hnone (fun hpk => ?_) (.inl hnonempty)
      -- otherwise the key would be one of its parts, and so the empty one
      obtain ⟨pk, -, htext⟩ := Option.bind_eq_some_iff.mp hpk
      rw [hcolumn] at htext
      have hpart := (List.of_mem_zip (Fields.mem_of_find? htext)).2
      rw [splitAt_of_mem hpart] at hempty
      exact hnonempty (List.mem_singleton.mp hempty).symm

/-- If a key does not address its entities, then some row has the columns of the key and is not
named by it. -/
theorem exists_not_names (hs : s.cloudId ≠ []) (hdistinct : s.cloudId.Nodup)
    (haddr : ¬ s.Addresses id) :
    ∃ texts : IdFields, (Row.ofTexts texts).agrees (s.idFields id) = true ∧
      ¬ s.Names id (Row.ofTexts texts).column? := by
  obtain ⟨hfull, hsingle, hid⟩ : ¬ (_ ∧ _) ∧ ¬ (_ ∧ _ ∧ _) ∧ ¬ (_ ∧ _) := by
    simpa only [Addresses, not_or] using haddr
  by_cases hlength : (Text.splitAt separator id).length = s.cloudId.length
  · exact exists_not_names_of_empty hs hdistinct hlength
      (not_not.mp fun hparts => hfull ⟨hlength, hparts⟩) hid
  · cases hpk : s.primaryKey with
    | some pk =>
      -- the row has the last part for its primary key, and nothing else
      have hmany : (Text.splitAt separator id).length ≠ 1 := fun hone =>
        hsingle ⟨hone, fun heq => hlength (hone.trans heq.symm), by rw [hpk]; rfl⟩
      have hne := Text.splitAt_ne_nil separator id
      have hlast : (Text.splitAt separator id).getLastD "" ∈ Text.splitAt separator id := by
        rw [List.getLastD_eq_getLast?, List.getLast?_eq_some_getLast hne]
        exact List.getLast_mem hne
      generalize hpart : (Text.splitAt separator id).getLastD "" = part at hlast
      have hpart_ne : part ≠ id := by
        rintro rfl
        exact hmany (by rw [splitAt_of_mem hlast]; rfl)
      have hcolumn : ∀ name text, (Row.ofTexts [(pk, part)]).column? name = some text →
          text = part := by
        intro name text htext
        rw [Row.column?_ofTexts] at htext
        cases List.mem_singleton.mp (Fields.mem_of_find? htext)
        rfl
      have hself : (Row.ofTexts [(pk, part)]).column? pk = some part := by
        rw [Row.column?_ofTexts, Fields.find?, if_pos rfl]
      refine ⟨[(pk, part)], ?_, not_names_of_length_ne hs hlength (fun name text htext => ?_)
        ?_ (.inr ?_)⟩
      · rw [idFields_of_primaryKey hlength hpk, hpart]
        exact Row.agrees_singleton_iff.mpr hself
      · rw [hcolumn name text htext]
        exact Text.not_mem_of_mem_splitAt hlast
      · rw [hpk, Option.bind_some, hself]
        exact fun heq => hpart_ne (Option.some.inj heq)
      · rw [hpk, Option.bind_some, hself]
        rfl
    | none =>
      -- the row has the parts of the key as far as there are columns for them
      have hnonempty : id ≠ "" := fun heq => hid ⟨heq, by simp [hpk]⟩
      have hnames := nodup_map_fst_zip hdistinct (Text.splitAt separator id)
      have hcolumn := Row.column?_ofPairs hnames
      refine ⟨Fields.ofPairs (s.cloudId.zip (Text.splitAt separator id)), ?_,
        not_names_of_length_ne hs hlength (fun name text htext => ?_) ?_ (.inl hnonempty)⟩
      · rw [idFields_of_no_primaryKey hpk]
        exact Row.agrees_ofPairs hnames
      · rw [hcolumn] at htext
        exact Text.not_mem_of_mem_splitAt (List.of_mem_zip (Fields.mem_of_find? htext)).2
      · rw [hpk]
        exact Option.some_ne_none _ |>.symm

end Schema

/-! ### The answers to a key -/

/-- An entity type whose entities have the columns of the rows that they are read from. An entity
can be read from every row of texts. -/
structure Entity.Verbatim (α : Type) [Entity α] : Prop where
  column_eq : ∀ (row : Row) (e : α), Entity.ofRow (.obj row) = .ok e →
    ∀ name, Entity.column e name = row.column? name
  readable : ∀ texts : IdFields, ∃ e : α, Entity.ofRow (.obj (Row.ofTexts texts)) = .ok e

namespace Identity

variable {s : Schema}

/-- A key that is derived from a schema pins its entities if and only if it addresses them. -/
theorem pins_iff_addresses (htype : Entity.Verbatim α) (hs : s.cloudId ≠ [])
    (hdistinct : s.cloudId.Nodup) (id : String) :
    (⟨s, none, none⟩ : Identity α).Pins id ↔ s.Addresses id := by
  have hnames : ∀ (row : Row) (e : α), Entity.ofRow (.obj row) = .ok e →
      ((⟨s, none, none⟩ : Identity α).Names id e ↔ s.Names id row.column?) := by
    intro row e hrow
    rw [← funext (htype.column_eq row e hrow)]
    rfl
  constructor
  · intro hpins
    by_contra haddr
    obtain ⟨texts, hagrees, hnot⟩ := Schema.exists_not_names hs hdistinct haddr
    obtain ⟨e, he⟩ := htype.readable texts
    exact hnot ((hnames _ e he).mp (hpins _ e hagrees he))
  · intro haddr row e hagrees hrow
    exact (hnames row e hrow).mpr (Schema.names_of_addresses hs hdistinct haddr hagrees)

end Identity

namespace Crud

open Store

/-- **Answers are named by their keys**, whatever is in the store, if and only if the key pins its
entities. A key that is derived from distinct cloud id columns does if and only if it addresses
them. -/
theorem lookup_named_iff (type : EntityType) (identity : Identity α) (id : String) :
    (AnswersNamed type identity id ↔ identity.Pins id) ∧
      ∀ kind s, Identity.derived kind s = .ok identity → s.cloudId ≠ [] → s.cloudId.Nodup →
        Entity.Verbatim α → (AnswersNamed type identity id ↔ s.Addresses id) := by
  have hiff : AnswersNamed type identity id ↔ identity.Pins id :=
    ⟨pins_of_answersNamed, answersNamed_of_pins⟩
  refine ⟨hiff, fun kind s hderived hs hdistinct htype => ?_⟩
  rw [hiff, Identity.eq_of_derived hderived]
  exact Identity.pins_iff_addresses htype hs hdistinct id

/-- Any JSON value that can be read is an entity with the columns of its row. -/
theorem verbatim_json : Entity.Verbatim Json where
  column_eq row e hrow name := by
    have heq : e = .obj row := by
      simp only [Entity.ofRow] at hrow
      split_ifs at hrow
      exact (Except.ok.inj hrow).symm
    rw [heq]
    rfl
  readable texts := by
    have hset : Json.isSet (.obj (Row.ofTexts texts)) "corrupt" = false := by
      simp only [Json.isSet, Json.field?, Row.find?_ofTexts]
      cases Fields.find? "corrupt" texts <;> rfl
    exact ⟨_, by simp only [Entity.ofRow, hset]; rfl⟩

/-- The address of a queue is answered with nothing but the queue of this address, whatever is in
the store. -/
theorem lookup_named_iff_address :
    Identity.derived "Queue" queues = .ok queueIdentity ∧ queues.cloudId ≠ [] ∧
      queues.cloudId.Nodup ∧ Entity.Verbatim Json ∧
      AnswersNamed ⟨"Queue", "Queue"⟩ queueIdentity "x" := by
  have hderived : Identity.derived "Queue" queues = .ok queueIdentity := rfl
  refine ⟨hderived, by decide, by decide, verbatim_json, ?_⟩
  exact ((lookup_named_iff ⟨"Queue", "Queue"⟩ queueIdentity "x").2 "Queue" queues hderived
    (by decide) (by decide) verbatim_json).mpr (.inl (by decide))

/-- The identity of queues by region and name, with a codec that takes such keys apart. -/
def regionalIdentity : Identity Json :=
  let key : Scenario.ColumnKey := ⟨["region", "name"], ":"⟩
  (Identity.ofKey ⟨"queue", ["name"], some "id"⟩ key.keyOf).withCodec key.codec

/-- **An unrelated answer**: a key that cannot be taken apart stands for no columns, so all rows
agree with it, and it is answered with the only queue there is. -/
theorem lookup_unrelated :
    let row : Row := [("id", .int 1), ("name", .str "jobs"), ("region", .str "us")]
    let run := freshRead ⟨"Queue", "Queue"⟩ regionalIdentity "x"
      (Store.single regionalIdentity.schema row)
    ∃ h, run.1.1 = .ok (some h) ∧ run.1.2.entity? h = some (.obj row) ∧
      ¬ regionalIdentity.Names "x" (.obj row) := by
  refine ⟨⟨⟨"Queue", "Queue"⟩, 1⟩, rfl, rfl, ?_⟩
  unfold Identity.Names
  decide

end Crud

end Reconcile
