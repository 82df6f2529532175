import Reconcile.Proofs.Store.OrderedMap

/-!
# Numbers of new rows

A row that is saved without a primary key gets the next number of its table. As long as there are
numbers of 64 bits left, each is given out once: the next one is one more than the number of rows
that came without a primary key. But rows that bring a primary key may have any, and the numbering
does not heed them. So the row with the text of the next number, if there is one, was saved with
this primary key, and the new row takes its place (`Store.save_new_iff`).
-/

namespace Reconcile

variable {s : Schema} {pk key : String} {edits : List Edit} {calls : List Store.Call}

/-- A number is told by its text. -/
theorem toString_natCast_inj {m n : Nat} (h : toString (m : Int) = toString (n : Int)) : m = n := by
  have hdigits : Nat.toDigits 10 m = Nat.toDigits 10 n := String.ofList_injective h
  rw [← Nat.ofDigitChars_toDigits (b := 10) (n := m) (by decide) (by decide), hdigits,
    Nat.ofDigitChars_toDigits (by decide) (by decide)]

/-- Numbers of 64 bits count up to the greatest one. -/
theorem toInt_ofNat_of_le {n : Nat} (h : n ≤ Int64.maxValue.toInt) :
    (Int64.ofNat n).toInt = n := by
  rw [Int64.toInt_maxValue] at h
  exact Int64.toInt_ofNat_of_lt (by omega)

/-- Whether a change saves a row without a primary key. -/
def Edit.isNew (pk : String) : Edit → Bool
  | .save row => row.lacks pk
  | .remove _ => false

namespace Ledger

/-- Only rows without a primary key use up numbers. -/
theorem lastNumber_edit (l : Ledger) (e : Edit) :
    (l.edit s pk e).lastNumber = l.lastNumber + if e.isNew pk then 1 else 0 := by
  cases e with
  | save row =>
    by_cases hrow : row.lacks pk <;> simp [edit, Table.nextNumber, Edit.isNew, hrow]
  | remove row => exact (Int64.add_zero _).symm

/-- As many numbers were given out as rows were saved without a primary key. -/
theorem lastNumber_ofEdits (edits : List Edit) :
    (ofEdits s pk edits).lastNumber = .ofNat (edits.countP (Edit.isNew pk)) := by
  induction edits using List.reverseRecOn with
  | nil => rfl
  | append_singleton edits e ih =>
    rw [ofEdits, List.foldl_concat, lastNumber_edit, ← ofEdits, ih, List.countP_append,
      List.countP_singleton, Int64.ofNat_add]
    split_ifs <;> rfl

/-- **Where keys come from**: a row in the history was saved with its primary key, or has one of the
numbers that were given out. -/
theorem origin {row : Row} (h : .put key row ∈ (ofEdits s pk edits).history) :
    .save row ∈ edits ∧ row.lacks pk = false ∨
      ∃ n ≤ edits.countP (Edit.isNew pk), key = toString (Int64.ofNat n).toInt := by
  induction edits using List.reverseRecOn with
  | nil => exact absurd h List.not_mem_nil
  | append_singleton edits e ih =>
    rw [ofEdits, List.foldl_concat, ← ofEdits] at h
    rw [List.countP_append, List.countP_singleton]
    by_cases hold : .put key row ∈ (ofEdits s pk edits).history
    · rcases ih hold with ⟨hmem, hrow⟩ | ⟨n, hn, hkey⟩
      · exact .inl ⟨List.mem_append_left _ hmem, hrow⟩
      · exact .inr ⟨n, by omega, hkey⟩
    · cases e with
      | save saved =>
        obtain ⟨key', hkey⟩ :=
          saved.exists_column?_numbered pk ((ofEdits s pk edits).lastNumber + 1)
        simp only [edit, hkey, Option.map_some, Option.toList_some, List.mem_append, hold,
          List.mem_singleton, false_or] at h
        obtain ⟨rfl, rfl⟩ := Keyed.Change.put.inj h
        cases hsaved : saved.lacks pk with
        | true =>
          rw [Row.numbered_of_lacks hsaved, Row.column?_put_int, lastNumber_ofEdits] at hkey
          refine .inr ⟨edits.countP (Edit.isNew pk) + 1, by simp [Edit.isNew, hsaved], ?_⟩
          rw [Int64.ofNat_add]
          exact (Option.some.inj hkey).symm
        | false =>
          rw [Row.numbered_of_not_lacks hsaved]
          exact .inl ⟨by simp, hsaved⟩
      | remove removed => simp [edit, hold] at h

end Ledger

namespace Table

variable {t : Table} {row stored : Row} {rows rows' : List Row}

/-- A row has been added to rows that are told apart by a column: they are all still there, there is
one more, and none of them has its key. -/
structure Adds (pk : String) (stored : Row) (rows rows' : List Row) : Prop where
  keeps : ∀ old ∈ rows, old ∈ rows'
  grows : rows'.length = rows.length + 1
  fresh : ∀ old ∈ rows, old.column? pk ≠ stored.column? pk

/-- A row that is put under a key is added exactly if no row has the key. -/
theorem Puts.adds_iff (h : Puts pk key stored rows rows') (hkey : stored.column? pk = some key) :
    Adds pk stored rows rows' ↔ ∀ old ∈ rows, old.column? pk ≠ some key := by
  refine ⟨fun hadds => hkey ▸ hadds.fresh, fun hfresh => ?_⟩
  rcases h with ⟨before, old, rest, rfl, hold, -⟩ | ⟨-, rfl⟩
  · exact absurd hold (hfresh old (by simp))
  · exact ⟨fun old hold => List.mem_append_left _ hold, by simp, hkey.symm ▸ hfresh⟩

/-- A row with the next number for its key was saved with this key. -/
theorem Shows.saved_of_next (h : t.Shows pk (Ledger.ofEdits s pk edits))
    (hleft : edits.countP (Edit.isNew pk) < Int64.maxValue.toInt) {old : Row} (hold : old ∈ t.rows)
    (hkey : old.column? pk =
      some (toString (Int64.ofNat (edits.countP (Edit.isNew pk) + 1)).toInt)) :
    .save old ∈ edits ∧ old.lacks pk = false := by
  have hfind : old ∈ t.find [(pk, _)] :=
    List.mem_filter.mpr ⟨hold, Row.agrees_singleton_iff.mpr hkey⟩
  rw [h.find_eq] at hfind
  obtain ⟨before, rest, hsplit, -⟩ :=
    Keyed.find?_ofHistory_iff.mp (Option.mem_toList.mp hfind)
  rcases Ledger.origin (List.mem_iff_append.mpr ⟨before, rest, hsplit⟩) with
    hsaved | ⟨n, hn, hnumber⟩
  · exact hsaved
  · rw [toInt_ofNat_of_le (by omega), toInt_ofNat_of_le (by omega)] at hnumber
    have heq : edits.countP (Edit.isNew pk) + 1 = n := toString_natCast_inj hnumber
    omega

end Table

namespace Store

/-- **When a new row is added**: a row that is saved without a primary key, after any calls, gets
the number after those that were given out, and is put under it. As long as there are numbers of 64
bits left, this adds it if and only if no row that was saved with this primary key is still
there. -/
theorem save_new_iff (hpk : s.primaryKey = some pk) (hcalls : OneSchema s calls) {row : Row}
    (hrow : row.lacks pk = true) :
    ∃ (number : Int64) (stored : Row),
      number = .ofNat ((editsOf s.table calls).countP (Edit.isNew pk) + 1) ∧
      stored = row.put pk (.int number.toInt) ∧
      ((after calls).save s [.obj row]).1 = .ok [.obj stored] ∧
      Table.Puts pk (toString number.toInt) stored ((after calls).table s.table).rows
        (((after calls).save s [.obj row]).2.table s.table).rows ∧
      ((editsOf s.table calls).countP (Edit.isNew pk) < Int64.maxValue.toInt →
        number.toInt = (editsOf s.table calls).countP (Edit.isNew pk) + 1 ∧
        (Table.Adds pk stored ((after calls).table s.table).rows
            (((after calls).save s [.obj row]).2.table s.table).rows ↔
          ∀ old ∈ ((after calls).table s.table).rows, .save old ∈ editsOf s.table calls →
            old.lacks pk = false → old.column? pk ≠ some (toString number.toInt))) := by
  have hshows := shows_after hpk hcalls
  have hsaved : ((after calls).save s [.obj row]).2.table s.table =
      (((after calls).table s.table).save s row).2 := table_setTable _ _ _
  have hnext : ((after calls).table s.table).lastNumber + 1 =
      .ofNat ((editsOf s.table calls).countP (Edit.isNew pk) + 1) := by
    rw [hshows.lastNumber_eq, ledger, Ledger.lastNumber_ofEdits, Int64.ofNat_add]
    rfl
  have hstored : (((after calls).table s.table).save s row).1 = row.put pk
      (.int (Int64.ofNat ((editsOf s.table calls).countP (Edit.isNew pk) + 1)).toInt) := by
    rw [Table.fst_save hpk, Row.numbered_of_lacks hrow, hnext]
  obtain ⟨key, hkey, hputs⟩ := Table.puts_save hpk ((after calls).table s.table) row
  rw [hstored] at hkey hputs
  obtain rfl := Option.some.inj ((Row.column?_put_int row _).symm.trans hkey)
  refine ⟨_, _, rfl, rfl, ?_, hsaved ▸ hputs, fun hleft => ⟨?_, ?_⟩⟩
  · rw [← hstored]
    rfl
  · rw [toInt_ofNat_of_le (by omega)]
    rfl
  · refine hsaved ▸ (hputs.adds_iff hkey).trans ⟨fun hfresh old hold _ _ => hfresh old hold, ?_⟩
    intro hfresh old hold heq
    have hexplicit := hshows.saved_of_next hleft hold heq
    exact hfresh old hold hexplicit.1 hexplicit.2 heq

/-- The third row without a primary key gets the number 3, which no row has. -/
theorem save_new_iff_mixed :
    queues.primaryKey = some "id" ∧ OneSchema queues mixed ∧
    Row.lacks [("arn", .str "v")] "id" = true ∧
    ∃ (number : Int64) (stored : Row), number = 3 ∧
      ((after mixed).save queues [.obj [("arn", .str "v")]]).1 = .ok [.obj stored] ∧
      Table.Adds "id" stored ((after mixed).table queues.table).rows
        (((after mixed).save queues [.obj [("arn", .str "v")]]).2.table queues.table).rows := by
  have hcalls : OneSchema queues mixed := by
    unfold OneSchema
    decide
  have hrow : Row.lacks [("arn", .str "v")] "id" = true := rfl
  obtain ⟨number, stored, hnumber, -, hsaved, -, hadds⟩ := save_new_iff rfl hcalls hrow
  have hcount : (editsOf queues.table mixed).countP (Edit.isNew "id") = 2 := by decide +kernel
  rw [hcount] at hnumber hadds
  obtain rfl : number = 3 := hnumber
  have hfresh : ∀ old ∈ ((after mixed).table queues.table).rows,
      old.column? "id" ≠ some (toString (3 : Int64).toInt) := by decide +kernel
  exact ⟨rfl, hcalls, hrow, 3, stored, rfl, hsaved,
    (hadds (by decide)).2.mpr fun old hold _ _ => hfresh old hold⟩

/-- A row that was saved with the number that is given out next. -/
def claimed : List Call :=
  [.save queues [.obj [("arn", .str "x"), ("id", .int 1)]]]

/-- **A new row overwrites an old one**: a row without a primary key is saved as number 1, in the
place of the only row, which is lost. -/
theorem save_overwrites :
    Row.lacks [("arn", .str "y")] "id" = true ∧
    ((after claimed).find queues []).map Json.render = ["\x7b\"arn\":\"x\",\"id\":1\x7d"] ∧
    (((after claimed).save queues [.obj [("arn", .str "y")]]).2.find queues []).map Json.render =
      ["\x7b\"arn\":\"y\",\"id\":1\x7d"] ∧
    ∀ stored, ¬ Table.Adds "id" stored ((after claimed).table queues.table).rows
      (((after claimed).save queues [.obj [("arn", .str "y")]]).2.table queues.table).rows := by
  refine ⟨rfl, by decide +kernel, by decide +kernel, fun stored hadds => ?_⟩
  exact absurd hadds.grows (by decide +kernel)

end Store

end Reconcile
