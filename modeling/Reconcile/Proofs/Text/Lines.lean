import Mathlib.Data.List.Basic
import Mathlib.Data.List.DropRight
import Mathlib.Tactic.SplitIfs
import Reconcile.Proofs.Text.Pieces

/-!
# Lines of a text

A text is a last line, or it is a line with its line feed and another text. What holds of the former
and is handed on by the latter holds of every text (`Text.inductionOnLines`).

* The lines of a text with a line feed in it are those up to the line feed and those after it
  (`Text.lines_append`).
* Without carriage returns, the lines with their line feeds are the text again, up to the line feed
  at the end (`Text.flatMap_lines`), and it makes no difference to the lines if there is a carriage
  return before each line feed (`Text.lines_withReturns`).

The blanks at the ends of a text are not seen once it is trimmed (`Text.trimBy_append`), so the line
feed at the end is not seen either. Whatever is trimmed, it is told from its ends what is left
(`Text.trimBy_eq_iff`).
-/

namespace Reconcile.Text

variable {α : Type} {p : α → Bool} {l l' front rest : List α} {s a b : List Char}

/-! ### Trimming -/

/-- Nothing is left of a list exactly if all of it is trimmed. -/
theorem trimBy_eq_nil_iff : trimBy p l = [] ↔ ∀ x ∈ l, p x = true := by
  rw [trimBy, List.reverse_eq_nil_iff, List.dropWhile_eq_nil_iff]
  simp only [List.mem_reverse]
  rw [← List.dropWhile_eq_nil_iff, ← List.dropWhile_eq_nil_iff, List.dropWhile_idempotent p l]

/-- What is trimmed makes no difference at the end. -/
theorem trimBy_append (h : ∀ x ∈ l', p x = true) : trimBy p (l ++ l') = trimBy p l := by
  unfold trimBy
  rw [List.dropWhile_append]
  split_ifs with hl
  · rw [List.isEmpty_iff.mp hl, List.dropWhile_eq_nil_iff.mpr h]
  · rw [List.reverse_append,
      List.dropWhile_append_of_pos fun x hx => h x (List.mem_reverse.mp hx)]

/-- Something is left of a text exactly if not all of it is blank. -/
theorem ofList_trimBy_ne_empty_iff :
    String.ofList (trimBy isBlank s) ≠ "" ↔ ∃ c ∈ s, isBlank c = false := by
  rw [Ne, String.ofList_eq_empty_iff, trimBy_eq_nil_iff]
  simp

/-- A list is taken apart at the first element that does not satisfy `p`. -/
theorem takeWhile_dropWhile_iff : l.takeWhile p = front ∧ l.dropWhile p = rest ↔
    l = front ++ rest ∧ (∀ x ∈ front, p x = true) ∧ ∀ x ∈ rest.head?, p x = false := by
  constructor
  · rintro ⟨rfl, rfl⟩
    refine ⟨List.takeWhile_append_dropWhile.symm, fun x => List.mem_takeWhile_imp, fun x hx => ?_⟩
    have hhead := List.head?_dropWhile_not p l
    rwa [Option.mem_def.mp hx] at hhead
  · rintro ⟨rfl, ha, hb⟩
    rw [List.takeWhile_append_of_pos ha, List.dropWhile_append_of_pos ha]
    cases rest with
    | nil => exact ⟨List.append_nil front, rfl⟩
    | cons x rest =>
      have hx : ¬ p x = true := by simp [hb x rfl]
      exact ⟨by rw [List.takeWhile_cons_of_neg hx, List.append_nil], List.dropWhile_cons_of_neg hx⟩

/-- A list is taken apart at the last element that does not satisfy `p`. -/
theorem takeWhile_dropWhile_reverse_iff :
    (l.reverse.takeWhile p).reverse = rest ∧ (l.reverse.dropWhile p).reverse = front ↔
      l = front ++ rest ∧ (∀ x ∈ rest, p x = true) ∧ ∀ x ∈ front.getLast?, p x = false := by
  rw [List.reverse_eq_iff, List.reverse_eq_iff, takeWhile_dropWhile_iff, ← List.reverse_append,
    List.reverse_inj, List.head?_reverse]
  simp only [List.mem_reverse]

/-- What is left of a list when it is trimmed, if anything is: all of it but for elements at the two
ends that satisfy `p`, and neither its first nor its last element does. -/
theorem trimBy_eq_iff (hne : l' ≠ []) : trimBy p l = l' ↔
    ∃ left right, l = left ++ (l' ++ right) ∧ (∀ x ∈ left ++ right, p x = true) ∧
      (∀ x ∈ l'.head?, p x = false) ∧ ∀ x ∈ l'.getLast?, p x = false := by
  have hhead : ∀ right, (l' ++ right).head? = l'.head? := fun right => by
    rw [List.head?_append_of_ne_nil l' hne]
  constructor
  · intro h
    obtain ⟨hrest, hright, hlast⟩ := takeWhile_dropWhile_reverse_iff.mp ⟨rfl, h⟩
    obtain ⟨hl, hleft, hfirst⟩ := takeWhile_dropWhile_iff.mp ⟨rfl, hrest⟩
    rw [hhead] at hfirst
    exact ⟨_, _, hl, List.forall_mem_append.mpr ⟨hleft, hright⟩, hfirst, hlast⟩
  · rintro ⟨left, right, hl, hmarks, hfirst, hlast⟩
    obtain ⟨hleft, hright⟩ := List.forall_mem_append.mp hmarks
    have hrest := (takeWhile_dropWhile_iff.mpr ⟨hl, hleft, by rwa [hhead]⟩).2
    rw [trimBy, hrest]
    exact (takeWhile_dropWhile_reverse_iff.mpr ⟨rfl, hright, hlast⟩).2

/-! ### Carriage returns -/

theorem dropReturn_of_not_mem (h : '\r' ∉ a) : dropReturn a = a := by
  refine if_neg fun hlast => h (List.mem_of_getLast? (eq_of_beq hlast))

theorem dropReturn_concat (a : List Char) : dropReturn (a ++ ['\r']) = a := by
  simp [dropReturn]

/-! ### Lines and line feeds -/

theorem splitBy_append_cons {x : α} (h : p x = true) :
    splitBy p (l ++ x :: l') = splitBy p l ++ splitBy p l' := by
  simp only [splitBy_eq_splitOnP]
  exact List.splitOnP_append_cons l l' h

theorem linesOfPieces_append {pieces pieces' : List (List Char)} (h : pieces' ≠ []) :
    linesOfPieces (pieces ++ pieces') = pieces.map dropReturn ++ linesOfPieces pieces' := by
  induction pieces with
  | nil => rfl
  | cons piece pieces ih =>
    obtain ⟨next, rest, hnext⟩ := List.exists_cons_of_ne_nil (List.append_ne_nil_of_right_ne_nil
      pieces h)
    rw [List.cons_append, hnext, linesOfPieces, ← hnext, ih]
    · rfl
    · exact List.cons_ne_nil next rest

/-- The lines up to a line feed, and those after it. -/
theorem lines_append (a b : List Char) :
    lines (a ++ '\n' :: b) = lines (a ++ ['\n']) ++ lines b := by
  have hcut : ∀ b, lines (a ++ '\n' :: b) = (splitBy (· == '\n') a).map dropReturn ++ lines b := by
    intro b
    rw [lines, splitBy_append_cons (by rfl), linesOfPieces_append (splitBy_ne_nil _ b), lines]
  rw [hcut b, hcut []]
  exact congrArg (· ++ lines b) (List.append_nil _).symm

theorem splitBy_of_not_mem (h : '\n' ∉ a) : splitBy (· == '\n') a = [a] := by
  rw [splitBy_eq_splitOnP, ← List.splitOn_eq_splitOnP, List.splitOn_eq_singleton h]

/-- A last line. -/
theorem lines_of_not_mem (h : '\n' ∉ a) : lines a = if a = [] then [] else [a] := by
  rw [lines, splitBy_of_not_mem h, linesOfPieces]
  simp only [List.isEmpty_iff]

/-- A line that is ended by a line feed. -/
theorem lines_cons (h : '\n' ∉ a) (b : List Char) :
    lines (a ++ '\n' :: b) = dropReturn a :: lines b := by
  rw [lines, splitBy_append_cons (by rfl), splitBy_of_not_mem h,
    linesOfPieces_append (splitBy_ne_nil _ b), lines]
  rfl

/-- Induction on the lines of a text. -/
theorem inductionOnLines {motive : List Char → Prop} (last : ∀ a, '\n' ∉ a → motive a)
    (line : ∀ a b, '\n' ∉ a → motive b → motive (a ++ '\n' :: b)) (s : List Char) : motive s := by
  induction hn : s.length using Nat.strong_induction_on generalizing s with
  | _ n ih =>
    by_cases hmem : '\n' ∈ s
    · obtain ⟨a, b, rfl, ha⟩ := List.eq_append_cons_of_mem hmem
      refine line a b ha (ih b.length ?_ b rfl)
      rw [← hn, List.length_append, List.length_cons]
      omega
    · exact last s hmem

/-- Lines with their line feeds are lines with a line feed between each two of them, and one at the
end. -/
theorem flatMap_eq_intercalate {lines : List (List Char)} (h : lines ≠ []) :
    lines.flatMap (· ++ ['\n']) = List.intercalate ['\n'] lines ++ ['\n'] := by
  induction lines with
  | nil => exact absurd rfl h
  | cons line lines ih =>
    cases lines with
    | nil => simp
    | cons next rest =>
      rw [List.flatMap_cons, ih (List.cons_ne_nil next rest), List.intercalate_cons_cons]
      simp only [List.append_assoc]

/-! ### Texts without carriage returns -/

/-- The lines with their line feeds are the text, to which a last line feed may have been added. -/
theorem flatMap_lines (h : '\r' ∉ s) :
    (lines s).flatMap (· ++ ['\n']) = s ∨ (lines s).flatMap (· ++ ['\n']) = s ++ ['\n'] := by
  induction s using inductionOnLines with
  | last a ha =>
    rw [lines_of_not_mem ha]
    split_ifs with hempty
    · exact .inl hempty.symm
    · exact .inr (List.flatMap_singleton ..)
  | line a b ha ih =>
    obtain ⟨hreturn, hrest⟩ := not_or.mp (mt List.mem_append.mpr h)
    rw [lines_cons ha, dropReturn_of_not_mem hreturn, List.flatMap_cons, List.append_assoc,
      List.append_assoc, List.singleton_append]
    refine (ih fun hmem => hrest (List.mem_cons_of_mem _ hmem)).imp (fun hb => ?_) fun hb => ?_
    · rw [hb]
    · rw [hb, List.cons_append]

/-- A line feed at the end ends the last line, or there is an empty line before it. -/
theorem lines_concat (h : '\r' ∉ s) :
    lines (s ++ ['\n']) = lines s ∨ lines (s ++ ['\n']) = lines s ++ [[]] := by
  induction s using inductionOnLines with
  | last a ha =>
    rw [lines_cons ha, lines_of_not_mem ha, dropReturn_of_not_mem h]
    split_ifs with hempty
    · exact .inr (by rw [hempty]; rfl)
    · exact .inl rfl
  | line a b ha ih =>
    obtain ⟨-, hrest⟩ := not_or.mp (mt List.mem_append.mpr h)
    rw [List.append_assoc, List.cons_append, lines_cons ha, lines_cons ha, List.cons_append]
    refine (ih fun hmem => hrest (List.mem_cons_of_mem _ hmem)).imp (fun hb => ?_) fun hb => ?_
    all_goals rw [hb]

/-- A text with a carriage return before each line feed. -/
def withReturns (s : List Char) : List Char :=
  s.flatMap fun c => if c = '\n' then ['\r', '\n'] else [c]

theorem withReturns_append (h : '\n' ∉ a) (b : List Char) :
    withReturns (a ++ b) = a ++ withReturns b := by
  have hkept : ∀ c ∈ a, (if c = '\n' then ['\r', '\n'] else [c]) = [c] :=
    fun c hc => if_neg fun heq : c = '\n' => h (heq ▸ hc)
  rw [withReturns, List.flatMap_append, List.flatMap_congr hkept, List.flatMap_singleton']
  rfl

/-- The carriage return before a line feed belongs to the end of the line. -/
theorem lines_withReturns (h : '\r' ∉ s) : lines (withReturns s) = lines s := by
  induction s using inductionOnLines with
  | last a ha =>
    have heq : withReturns a = a := by simpa [withReturns] using withReturns_append ha []
    rw [heq]
  | line a b ha ih =>
    obtain ⟨hreturn, hrest⟩ := not_or.mp (mt List.mem_append.mpr h)
    have hb := ih fun hmem => hrest (List.mem_cons_of_mem _ hmem)
    have heq : withReturns (a ++ '\n' :: b) = (a ++ ['\r']) ++ '\n' :: withReturns b := by
      rw [withReturns_append ha, List.append_assoc]
      rfl
    have ha' : '\n' ∉ a ++ ['\r'] := by simpa using ha
    rw [heq, lines_cons ha', dropReturn_concat, hb, lines_cons ha, dropReturn_of_not_mem hreturn]

end Reconcile.Text
