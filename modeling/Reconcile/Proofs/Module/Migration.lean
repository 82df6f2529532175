import Mathlib.Data.List.Induction
import Reconcile.Module.Migration
import Reconcile.Proofs.Except
import Reconcile.Proofs.Text.Lines

/-!
# The format of migrations

A text is a migration exactly if each of the two markers is the content of one line and each of the
two sections holds more than blanks (`Migration.parse_format`). Then the lines are cut at the
markers into three parts without markers (`Section.Cut`), and the second and the third part are the
sections, in one order or the other. So neither the order nor the first part matters.

What the walk along the lines does is said for each sort of line. A line without a marker is added
to the section that has begun last, and a marker begins a section that has not begun yet. So a
section has begun as often as there is a marker of it (`Sections.counted_ofLines`), which is once at
most.
-/

namespace Reconcile

/-! ### Markers -/

namespace Section

variable {part : Section} {line : Line} {lines before first second : List Line}

/-- The section that is not this one. -/
def other : Section → Section
  | install => remove
  | remove => install

/-- Whether a line is the marker of a section, in letters of any case and with any blanks around
it. -/
def heads (part : Section) (line : Line) : Bool :=
  Text.sameIgnoringCase (Text.trimBy Text.isBlank line) part.marker.toList

/-- The lines of a section: those after its marker, up to the marker of the other one. -/
def linesOf (part : Section) (lines : List Line) : List Line :=
  (lines.dropWhile fun line => ! part.heads line).tail.takeWhile fun line => ! part.other.heads line

/-- The text of a section: its lines, without the blanks at both ends. -/
def textOf (part : Section) (lines : List Line) : String :=
  Text.trim (String.intercalate "\n" ((part.linesOf lines).map String.ofList))

/-- None of the lines is a marker. -/
def Unmarked (lines : List Line) : Prop :=
  ∀ line ∈ lines, ∀ part : Section, part.heads line = false

theorem eq_or_eq_other (part part' : Section) : part' = part ∨ part' = part.other := by
  cases part <;> cases part' <;> simp [other]

@[simp]
theorem other_other (part : Section) : part.other.other = part := by
  cases part <;> rfl

theorem other_ne (part : Section) : part.other ≠ part := by
  cases part <;> simp [other]

/-- The marker of a section is not that of another one. -/
theorem heads_of_ne {part' : Section} (hne : part' ≠ part) (h : part.heads line = true) :
    part'.heads line = false := by
  refine Bool.eq_false_iff.mpr fun hother => ?_
  have hsame := (eq_of_beq h).symm.trans (eq_of_beq hother)
  cases part <;> cases part'
  · exact hne rfl
  · exact absurd hsame (by decide)
  · exact absurd hsame (by decide)
  · exact hne rfl

theorem heads_other (h : part.heads line = true) : part.other.heads line = false :=
  heads_of_ne (other_ne part) h

theorem ofLine?_eq_some_iff : ofLine? line = some part ↔ part.heads line = true := by
  have hlookup : ofLine? line = if install.heads line then some install
      else if remove.heads line then some remove else none := rfl
  rw [hlookup]
  constructor
  · intro h
    split_ifs at h with hinstall hremove
    · exact Option.some.inj h ▸ hinstall
    · exact Option.some.inj h ▸ hremove
  · intro h
    cases part with
    | install => exact if_pos h
    | remove =>
      have hinstall : install.heads line = false := heads_of_ne (by decide) h
      simp [hinstall, h]

theorem ofLine?_eq_none_iff : ofLine? line = none ↔ ∀ part : Section, part.heads line = false := by
  simp only [Option.eq_none_iff_forall_ne_some, Ne, ofLine?_eq_some_iff, Bool.not_eq_true]

theorem Unmarked.countP_eq_zero (h : Unmarked lines) (part : Section) :
    lines.countP part.heads = 0 :=
  List.countP_eq_zero.mpr fun line hline => by simp [h line hline part]

theorem unmarked_iff : Unmarked lines ↔ ∀ part : Section, lines.countP part.heads = 0 := by
  refine ⟨Unmarked.countP_eq_zero, fun h line hline part => ?_⟩
  exact Bool.eq_false_iff.mpr (List.countP_eq_zero.mp (h part) line hline)

/-! ### Lines that are cut at the markers -/

/-- The lines consist of some before the marker of a section, those of this section, and those of
the other section after its marker. -/
structure Cut (lines : List Line) (part : Section) (before first second : List Line) : Prop where
  eq : ∃ m m', part.heads m = true ∧ part.other.heads m' = true ∧
    lines = before ++ m :: (first ++ m' :: second)
  before : Unmarked before
  first : Unmarked first
  second : Unmarked second

/-- The sections are what stands between the markers and after them. -/
theorem Cut.linesOf_eq (h : Cut lines part before first second) :
    part.linesOf lines = first ∧ part.other.linesOf lines = second := by
  obtain ⟨m, m', hm, hm', rfl⟩ := h.eq
  have hfree : ∀ {l : List Line}, Unmarked l → ∀ (part : Section), ∀ line ∈ l,
      (! part.heads line) = true := fun hl part line hline => by rw [hl line hline part]; rfl
  constructor
  · rw [linesOf, List.dropWhile_append_of_pos (hfree h.before _),
      List.dropWhile_cons_of_neg (by simp [hm]), List.tail_cons,
      List.takeWhile_append_of_pos (hfree h.first _), List.takeWhile_cons_of_neg (by simp [hm']),
      List.append_nil]
  · rw [linesOf, List.dropWhile_append_of_pos (hfree h.before _),
      List.dropWhile_cons_of_pos (by simp [heads_other hm]),
      List.dropWhile_append_of_pos (hfree h.first _), List.dropWhile_cons_of_neg (by simp [hm']),
      List.tail_cons, List.takeWhile_eq_self_iff.mpr (hfree h.second _)]

/-- Lines are cut at the first marker. -/
theorem exists_first (h : ∃ line ∈ lines, part.heads line = true) :
    ∃ (before : List Line) (m : Line) (after : List Line) (part' : Section),
      lines = before ++ m :: after ∧ Unmarked before ∧ part'.heads m = true := by
  obtain ⟨line, hline, hpart⟩ := h
  have hmarked : (lines.find? fun line => (ofLine? line).isSome).isSome :=
    List.find?_isSome.mpr ⟨line, hline, by rw [ofLine?_eq_some_iff.mpr hpart]; rfl⟩
  obtain ⟨m, hm⟩ := Option.isSome_iff_exists.mp hmarked
  obtain ⟨hsome, before, after, heq, hbefore⟩ := List.find?_eq_some_iff_append.mp hm
  obtain ⟨part', hpart'⟩ := Option.isSome_iff_exists.mp hsome
  refine ⟨before, m, after, part', heq, fun line hline => ?_, ofLine?_eq_some_iff.mp hpart'⟩
  exact ofLine?_eq_none_iff.mp (by simpa using hbefore line hline)

/-- Lines with one marker of each section are cut at the two markers. -/
theorem exists_cut (h : ∀ part : Section, lines.countP part.heads = 1) :
    ∃ part before first second, Cut lines part before first second := by
  have hmarked : ∀ {l : List Line} {part : Section}, l.countP part.heads = 1 →
      ∃ line ∈ l, part.heads line = true := fun hl =>
    List.countP_pos_iff.mp (by rw [hl]; exact Nat.one_pos)
  obtain ⟨before, m, after, part, rfl, hbefore, hm⟩ := exists_first (hmarked (h install))
  have hcount : ∀ part' : Section,
      after.countP part'.heads + (if part'.heads m then 1 else 0) = 1 := fun part' => by
      have hpart' := h part'
      rwa [List.countP_append, hbefore.countP_eq_zero, List.countP_cons, Nat.zero_add] at hpart'
  have hnone : after.countP part.heads = 0 := by simpa [hm] using hcount part
  have hone : after.countP part.other.heads = 1 := by simpa [heads_other hm] using hcount part.other
  obtain ⟨first, m', second, part', rfl, hfirst, hm'⟩ := exists_first (hmarked hone)
  rw [List.countP_append, hfirst.countP_eq_zero, List.countP_cons, Nat.zero_add] at hnone hone
  -- the second marker is not that of the first section again
  obtain rfl : part' = part.other := by
    rcases eq_or_eq_other part part' with rfl | hother
    · simp [hm'] at hnone
    · exact hother
  refine ⟨part, before, first, second, ⟨m, m', hm, hm', rfl⟩, hbefore, hfirst, ?_⟩
  refine unmarked_iff.mpr fun part' => ?_
  rcases eq_or_eq_other part part' with rfl | rfl
  · omega
  · simpa [hm'] using hone

end Section

/-! ### The walk along the lines -/

namespace Sections

variable {s s' : Sections} {part : Section} {line : Line} {lines old : List Line}

@[simp]
theorem lines?_setLines (s : Sections) (part : Section) (lines : List Line) :
    (s.setLines part lines).lines? part = some lines := by
  cases part <;> rfl

@[simp]
theorem lines?_setLines_other (s : Sections) (part : Section) (lines : List Line) :
    (s.setLines part lines).lines? part.other = s.lines? part.other := by
  cases part <;> rfl

@[simp]
theorem current_setLines (s : Sections) (part : Section) (lines : List Line) :
    (s.setLines part lines).current = s.current := by
  cases part <;> rfl

theorem setLines_lines? (h : s.lines? part = some old) : s.setLines part old = s := by
  cases part <;> cases s <;> cases h <;> rfl

theorem setLines_setLines (s : Sections) (part : Section) (old lines : List Line) :
    (s.setLines part old).setLines part lines = s.setLines part lines := by
  cases part <;> rfl

/-- The sections after the marker of one of them. -/
def opened (s : Sections) (part : Section) : Sections :=
  { s.setLines part [] with current := some part }

@[simp]
theorem lines?_opened (s : Sections) (part : Section) :
    (s.opened part).lines? part = some [] :=
  lines?_setLines s part []

@[simp]
theorem lines?_opened_other (s : Sections) (part : Section) :
    (s.opened part).lines? part.other = s.lines? part.other :=
  lines?_setLines_other s part []

/-- A section begins at its marker. -/
theorem addLine_of_heads (h : part.heads line = true) (hnew : s.lines? part = none) :
    s.addLine line = .ok (s.opened part) := by
  simp [addLine, opened, Section.ofLine?_eq_some_iff.mpr h, hnew]

/-- Lines before the first marker are passed over. -/
theorem foldlM_of_no_current (h : Section.Unmarked lines) (hs : s.current = none) :
    lines.foldlM addLine s = .ok s := by
  induction lines with
  | nil => rfl
  | cons line lines ih =>
    obtain ⟨hline, hlines⟩ := List.forall_mem_cons.mp h
    have hadd : s.addLine line = .ok s := by
      simp [addLine, Section.ofLine?_eq_none_iff.mpr hline, hs]
    rw [List.foldlM_cons, hadd]
    exact ih hlines

/-- Lines without markers are added to the section that has begun last. -/
theorem foldlM_of_current (h : Section.Unmarked lines) (hs : s.current = some part)
    (hold : s.lines? part = some old) :
    lines.foldlM addLine s = .ok (s.setLines part (old ++ lines)) := by
  induction lines generalizing s old with
  | nil => rw [List.append_nil, setLines_lines? hold]; rfl
  | cons line lines ih =>
    obtain ⟨hline, hlines⟩ := List.forall_mem_cons.mp h
    have hadd : s.addLine line = .ok (s.setLines part (old ++ [line])) := by
      simp [addLine, Section.ofLine?_eq_none_iff.mpr hline, hs, hold]
    rw [List.foldlM_cons, hadd]
    refine (ih hlines (by rw [current_setLines, hs]) (lines?_setLines ..)).trans ?_
    rw [setLines_setLines, List.append_assoc, List.singleton_append]

/-- Lines that are cut at their markers are walked along to the end. -/
theorem ofLines_of_cut {before first second : List Line}
    (h : Section.Cut lines part before first second) :
    ∃ s, ofLines lines = .ok s ∧ ∀ part, s.lines? part = some (part.linesOf lines) := by
  obtain ⟨m, m', hm, hm', rfl⟩ := h.eq
  obtain ⟨hfirst, hsecond⟩ := h.linesOf_eq
  let s₁ := (empty.opened part).setLines part first
  let s₂ := s₁.opened part.other
  have hnew : empty.lines? part = none := by cases part <;> rfl
  have hnew' : s₁.lines? part.other = none := by cases part <;> rfl
  have hwalk : first.foldlM addLine (empty.opened part) = .ok s₁ :=
    foldlM_of_current h.first rfl (lines?_opened ..)
  have hwalk' : second.foldlM addLine s₂ = .ok (s₂.setLines part.other second) :=
    foldlM_of_current h.second rfl (lines?_opened ..)
  refine ⟨s₂.setLines part.other second, ?_, fun part' => ?_⟩
  · rw [ofLines, List.foldlM_append, foldlM_of_no_current h.before rfl]
    change (m :: (first ++ m' :: second)).foldlM addLine empty = _
    rw [List.foldlM_cons, addLine_of_heads hm hnew]
    change (first ++ m' :: second).foldlM addLine (empty.opened part) = _
    rw [List.foldlM_append, hwalk]
    change (m' :: second).foldlM addLine s₁ = _
    rw [List.foldlM_cons, addLine_of_heads hm' hnew']
    exact hwalk'
  · rcases Section.eq_or_eq_other part part' with rfl | rfl
    · rw [hfirst]
      cases part' <;> rfl
    · rw [hsecond, lines?_setLines]

/-! ### How often a section begins -/

/-- A section has begun as often as there is a marker of it among the lines so far, and the section
that the next line belongs to has begun. -/
structure Counted (lines : List Line) (s : Sections) : Prop where
  count : ∀ part, (s.lines? part).isSome.toNat = lines.countP part.heads
  begun : ∀ part, s.current = some part → (s.lines? part).isSome = true

/-- One more line. -/
theorem Counted.addLine (h : Counted lines s) (hline : s.addLine line = .ok s') :
    Counted (lines ++ [line]) s' := by
  unfold Sections.addLine at hline
  cases hmark : Section.ofLine? line with
  | some part =>
    rw [hmark] at hline
    dsimp only at hline
    have hheads := Section.ofLine?_eq_some_iff.mp hmark
    split_ifs at hline with hnew
    obtain rfl : s.opened part = s' := Except.ok.inj hline
    refine ⟨fun part' => ?_, fun part' hpart' => ?_⟩
    · have hcount := h.count part'
      rw [List.countP_append, List.countP_singleton, ← hcount]
      rcases Section.eq_or_eq_other part part' with rfl | rfl
      · rw [lines?_opened, Bool.eq_false_iff.mpr hnew, if_pos hheads]
        rfl
      · rw [lines?_opened_other, Section.heads_other hheads]
        rfl
    · obtain rfl := Option.some.inj hpart'
      exact congrArg Option.isSome (lines?_opened s part)
  | none =>
    rw [hmark] at hline
    have hfree := Section.ofLine?_eq_none_iff.mp hmark
    have hcount : ∀ part : Section, (lines ++ [line]).countP part.heads = lines.countP part.heads :=
      fun part => by rw [List.countP_append, List.countP_singleton, hfree part]; rfl
    cases hcurrent : s.current with
    | none =>
      rw [hcurrent] at hline
      cases hline
      exact ⟨fun part => (h.count part).trans (hcount part).symm, h.begun⟩
    | some part =>
      rw [hcurrent] at hline
      cases hline
      have hkept : ∀ part', ((s.setLines part ((s.lines? part).getD [] ++ [line])).lines?
          part').isSome = (s.lines? part').isSome := fun part' => by
        rcases Section.eq_or_eq_other part part' with rfl | rfl
        · rw [lines?_setLines, h.begun part' hcurrent]
          rfl
        · rw [lines?_setLines_other]
      refine ⟨fun part' => ?_, fun part' hpart' => ?_⟩
      · rw [hkept, h.count, hcount]
      · rw [hkept]
        exact h.begun part' (by rwa [current_setLines] at hpart')

/-- All lines of a text. -/
theorem counted_ofLines (h : ofLines lines = .ok s) : Counted lines s := by
  induction lines using List.reverseRecOn generalizing s with
  | nil =>
    cases h
    exact ⟨fun part => by cases part <;> rfl, fun part hpart => by cases hpart⟩
  | append_singleton lines line ih =>
    rw [ofLines, List.foldlM_append] at h
    obtain ⟨s₁, hlines, hline⟩ := exists_of_bind_eq_ok h
    rw [List.foldlM_cons] at hline
    obtain ⟨s₂, hadd, hend⟩ := exists_of_bind_eq_ok hline
    cases hend
    exact (ih hlines).addLine hadd

/-! ### The texts of the sections -/

/-- Lines are joined with a line feed between each two of them, and the blanks at both ends are
taken off. -/
theorem joined_eq (lines : List Line) :
    joined lines = Text.trim (String.intercalate "\n" (lines.map String.ofList)) := by
  have htexts : (lines.map String.ofList).map String.toList = lines := by
    simp [Function.comp_def]
  have hfeed : "\n".toList = ['\n'] := rfl
  rw [joined, Text.trim, String.toList_intercalate, htexts, hfeed]
  cases lines with
  | nil => rfl
  | cons line lines =>
    rw [Text.flatMap_eq_intercalate (List.cons_ne_nil line lines), Text.trimBy_append]
    intro c hc
    rw [List.mem_singleton.mp hc]
    rfl

/-- Something is left of joined lines exactly if not all of them are blank. -/
theorem joined_ne_empty_iff :
    joined lines ≠ "" ↔ ∃ line ∈ lines, ∃ c ∈ line, Text.isBlank c = false := by
  have hfeed : Text.isBlank '\n' = true := rfl
  rw [joined, Text.ofList_trimBy_ne_empty_iff]
  constructor
  · rintro ⟨c, hc, hblank⟩
    obtain ⟨line, hline, hmem⟩ := List.mem_flatMap.mp hc
    rcases List.mem_append.mp hmem with hmem | hmem
    · exact ⟨line, hline, c, hmem, hblank⟩
    · rw [List.mem_singleton.mp hmem, hfeed] at hblank
      cases hblank
  · rintro ⟨line, hline, c, hc, hblank⟩
    exact ⟨c, List.mem_flatMap.mpr ⟨line, hline, List.mem_append_left _ hc⟩, hblank⟩

/-- The lines of a text without carriage returns are joined to the text, without the blanks at both
ends. -/
theorem joined_lines {text : List Char} (h : '\r' ∉ text) :
    joined (Text.lines text) = String.ofList (Text.trimBy Text.isBlank text) := by
  have hfeed : ∀ c ∈ ['\n'], Text.isBlank c = true := fun c hc => by
    rw [List.mem_singleton.mp hc]
    rfl
  rcases Text.flatMap_lines h with heq | heq
  · rw [joined, heq]
  · rw [joined, heq, Text.trimBy_append hfeed]

theorem textOf_eq_ok_iff {text : String} : s.textOf part = .ok text ↔
    ∃ lines, s.lines? part = some lines ∧ joined lines ≠ "" ∧ text = joined lines := by
  unfold textOf
  cases s.lines? part with
  | none => simp
  | some lines =>
    by_cases hempty : joined lines = ""
    · simp [hempty]
    · simp only [Option.map_some, hempty, if_false]
      constructor
      · rintro ⟨⟩
        exact ⟨lines, rfl, hempty, rfl⟩
      · rintro ⟨_, ⟨⟩, -, rfl⟩
        rfl

end Sections

/-! ### Migrations -/

namespace Migration

open Section

variable {path : String} {part : Section} {lines lines' before before' first second : List Line}
  {migration : Migration}

/-- A migration is made of the texts of its sections. -/
theorem ofLines_of_ok {s : Sections} (h : Sections.ofLines lines = .ok s) (path : String) :
    ofLines path lines = (s.textOf .install).bind fun i => (s.textOf .remove).bind fun r =>
      .ok ⟨path, i, r⟩ := by
  rw [ofLines, h]
  rfl

/-- What stands before the first marker is ignored. -/
theorem ofLines_append (h : Unmarked before) (path : String) (lines : List Line) :
    ofLines path (before ++ lines) = ofLines path lines := by
  have hskipped : Sections.ofLines (before ++ lines) = Sections.ofLines lines := by
    rw [Sections.ofLines, List.foldlM_append, Sections.foldlM_of_no_current h rfl]
    rfl
  rw [ofLines, hskipped, ofLines]

/-- A migration in lines that are cut at the markers, neither of whose sections is blank. -/
theorem ofLines_of_cut (h : Cut lines part before first second)
    (hne : ∀ part : Section, Sections.joined (part.linesOf lines) ≠ "") (path : String) :
    ofLines path lines =
      .ok ⟨path, Sections.joined (Section.install.linesOf lines),
        Sections.joined (Section.remove.linesOf lines)⟩ := by
  obtain ⟨s, hs, hlines⟩ := Sections.ofLines_of_cut h
  have htext : ∀ part : Section, s.textOf part = .ok (Sections.joined (part.linesOf lines)) :=
    fun part => Sections.textOf_eq_ok_iff.mpr ⟨_, hlines part, hne part, rfl⟩
  rw [ofLines_of_ok hs, htext, htext]
  rfl

/-- The order of the sections makes no difference. -/
theorem ofLines_comm (h : Cut lines part before first second)
    (h' : Cut lines' part.other before' second first) (path : String) :
    ofLines path lines = ofLines path lines' := by
  obtain ⟨s, hs, hlines⟩ := Sections.ofLines_of_cut h
  obtain ⟨s', hs', hlines'⟩ := Sections.ofLines_of_cut h'
  have hsame : ∀ part : Section, s.textOf part = s'.textOf part := by
    intro part'
    have heq : part'.linesOf lines = part'.linesOf lines' := by
      have hother := h'.linesOf_eq
      rw [other_other] at hother
      rcases eq_or_eq_other part part' with rfl | rfl
      · rw [h.linesOf_eq.1, hother.2]
      · rw [h.linesOf_eq.2, hother.1]
    rw [Sections.textOf, hlines, heq, ← hlines', Sections.textOf]
  rw [ofLines_of_ok hs, ofLines_of_ok hs', hsame, hsame]

/-- **The format of migrations**, line by line. -/
theorem ofLines_eq_ok_iff : ofLines path lines = .ok migration ↔
    (∀ part : Section, lines.countP part.heads = 1 ∧ Sections.joined (part.linesOf lines) ≠ "") ∧
      migration = ⟨path, Sections.joined (Section.install.linesOf lines),
        Sections.joined (Section.remove.linesOf lines)⟩ := by
  constructor
  · intro h
    obtain ⟨s, hs, hrest⟩ := exists_of_bind_eq_ok h
    obtain ⟨i, hinstall, hrest⟩ := exists_of_bind_eq_ok hrest
    obtain ⟨r, hremove, hrest⟩ := exists_of_bind_eq_ok hrest
    have hfound : ∀ part : Section, ∃ lines, s.lines? part = some lines ∧
        Sections.joined lines ≠ "" := by
      intro part
      cases part with
      | install => exact (Sections.textOf_eq_ok_iff.mp hinstall).imp fun _ h => ⟨h.1, h.2.1⟩
      | remove => exact (Sections.textOf_eq_ok_iff.mp hremove).imp fun _ h => ⟨h.1, h.2.1⟩
    have hcount : ∀ part : Section, lines.countP part.heads = 1 := fun part => by
      obtain ⟨_, hlines, -⟩ := hfound part
      rw [← (Sections.counted_ofLines hs).count, hlines]
      rfl
    obtain ⟨part, before, first, second, hcut⟩ := exists_cut hcount
    have hne : ∀ part : Section, Sections.joined (part.linesOf lines) ≠ "" := fun part => by
      obtain ⟨s', hs', hlines'⟩ := Sections.ofLines_of_cut hcut
      obtain rfl := Except.ok.inj (hs.symm.trans hs')
      obtain ⟨_, hlines, hne⟩ := hfound part
      rwa [Option.some.inj ((hlines' part).symm.trans hlines)]
    exact ⟨fun part => ⟨hcount part, hne part⟩,
      Except.ok.inj (h.symm.trans (ofLines_of_cut hcut hne path))⟩
  · rintro ⟨h, rfl⟩
    obtain ⟨part, before, first, second, hcut⟩ := exists_cut fun part => (h part).1
    exact ofLines_of_cut hcut (fun part => (h part).2) path

/-- A migration is a text that is one, whatever is said if it is none. -/
theorem parse_eq_ok_iff {module text : String} : parse module path text = .ok migration ↔
    ofLines path (Text.lines text.toList) = .ok migration := by
  refine ⟨eq_ok_of_mapError, fun h => ?_⟩
  rw [parse, h]
  rfl

/-- The lines of two texts, each of them after the marker of a section. -/
theorem cut_lines {a b : List Char} (ha : '\r' ∉ a) (hfirst : Unmarked (Text.lines a))
    (hsecond : Unmarked (Text.lines b)) :
    Cut (Text.lines (Section.install.marker.toList ++ '\n' ::
        (a ++ '\n' :: (Section.remove.marker.toList ++ '\n' :: b)))) .install []
      (Text.lines (a ++ ['\n'])) (Text.lines b) := by
  have hinstall : '\n' ∉ Section.install.marker.toList := by decide
  have hremove : '\n' ∉ Section.remove.marker.toList := by decide
  refine ⟨⟨Section.install.marker.toList, Section.remove.marker.toList, by decide, by decide, ?_⟩,
    fun line hline => absurd hline List.not_mem_nil, ?_, hsecond⟩
  · rw [Text.lines_cons hinstall, Text.lines_append, Text.lines_cons hremove]
    rfl
  · rcases Text.lines_concat ha with heq | heq
    · rwa [heq]
    · have hempty : Unmarked [[]] := fun line hline part => by
        rw [List.mem_singleton.mp hline]
        cases part <;> decide
      rw [heq]
      exact List.forall_mem_append.mpr ⟨hfirst, hempty⟩

/-- The sections of the text that is made of the two markers and of two texts without markers. -/
theorem ofLines_lines {a b : List Char} (ha : '\r' ∉ a) (hb : '\r' ∉ b)
    (hfirst : Unmarked (Text.lines a)) (hsecond : Unmarked (Text.lines b))
    (hne : ∃ c ∈ a, Text.isBlank c = false) (hne' : ∃ c ∈ b, Text.isBlank c = false)
    (path : String) :
    ofLines path (Text.lines (Section.install.marker.toList ++ '\n' ::
        (a ++ '\n' :: (Section.remove.marker.toList ++ '\n' :: b)))) =
      .ok ⟨path, String.ofList (Text.trimBy Text.isBlank a),
        String.ofList (Text.trimBy Text.isBlank b)⟩ := by
  have hcut := cut_lines ha hfirst hsecond
  obtain ⟨hinstall, hremove⟩ := hcut.linesOf_eq
  have ha' : '\r' ∉ a ++ ['\n'] := by simpa using ha
  have hfeed : Text.trimBy Text.isBlank (a ++ ['\n']) = Text.trimBy Text.isBlank a :=
    Text.trimBy_append fun c hc => by rw [List.mem_singleton.mp hc]; rfl
  have hjoined := (congrArg Sections.joined hinstall).trans (Sections.joined_lines ha')
  have hjoined' := (congrArg Sections.joined hremove).trans (Sections.joined_lines hb)
  rw [hfeed] at hjoined
  rw [ofLines_of_cut hcut fun part => ?_, hjoined]
  · exact congrArg (fun text => Except.ok (Migration.mk path _ text)) hjoined'
  · cases part with
    | install => exact hjoined ▸ Text.ofList_trimBy_ne_empty_iff.mpr hne
    | remove => exact fun hempty =>
        Text.ofList_trimBy_ne_empty_iff.mpr hne' (hjoined'.symm.trans hempty)

theorem textOf_eq (part : Section) (lines : List Line) :
    part.textOf lines = Sections.joined (part.linesOf lines) :=
  (Sections.joined_eq _).symm

/-- **The format of migrations.** A text is a migration exactly if one line is the marker of each
section and each section holds more than blanks. Its sections are then what stands between the
markers and after them, without the blanks at both ends.

So the lines before the first marker make no difference, nor does it matter which section comes
first, nor whether there is a carriage return before each line feed. Two texts without markers, each
of which holds more than blanks, are the sections of the text that is made of them and the
markers. -/
theorem parse_format (module path : String) :
    (∀ (text : String) (migration : Migration), parse module path text = .ok migration ↔
      (∀ part : Section, (Text.lines text.toList).countP part.heads = 1 ∧
        ∃ line ∈ part.linesOf (Text.lines text.toList), ∃ c ∈ line, Text.isBlank c = false) ∧
      migration = ⟨path, Section.install.textOf (Text.lines text.toList),
        Section.remove.textOf (Text.lines text.toList)⟩) ∧
    (∀ (text text' : String) (before before' rest : List Line),
      Unmarked before → Unmarked before' →
      Text.lines text.toList = before ++ rest → Text.lines text'.toList = before' ++ rest →
      parse module path text = parse module path text') ∧
    (∀ (text text' : String) (part : Section) (before before' first second : List Line),
      Cut (Text.lines text.toList) part before first second →
      Cut (Text.lines text'.toList) part.other before' second first →
      parse module path text = parse module path text') ∧
    (∀ text : String, '\r' ∉ text.toList →
      parse module path (String.ofList (Text.withReturns text.toList)) =
        parse module path text) ∧
    ∀ a b : String, '\r' ∉ a.toList → '\r' ∉ b.toList →
      Unmarked (Text.lines a.toList) → Unmarked (Text.lines b.toList) →
      (∃ c ∈ a.toList, Text.isBlank c = false) → (∃ c ∈ b.toList, Text.isBlank c = false) →
      parse module path (Section.install.marker ++ "\n" ++ a ++ "\n" ++
        Section.remove.marker ++ "\n" ++ b) = .ok ⟨path, Text.trim a, Text.trim b⟩ := by
  have hparse : ∀ {text text' : String},
      ofLines path (Text.lines text.toList) = ofLines path (Text.lines text'.toList) →
      parse module path text = parse module path text' := fun h => by rw [parse, h, parse]
  refine ⟨fun text migration => ?_, fun text text' before before' rest hbefore hbefore' h h' => ?_,
    fun text text' part before before' first second h h' => hparse (ofLines_comm h h' path),
    fun text hreturn => ?_, fun a b ha hb hmarks hmarks' hne hne' => ?_⟩
  · rw [parse_eq_ok_iff, ofLines_eq_ok_iff]
    simp only [Sections.joined_ne_empty_iff, textOf_eq]
  · apply hparse
    rw [h, h', ofLines_append hbefore, ofLines_append hbefore']
  · apply hparse
    rw [String.toList_ofList, Text.lines_withReturns hreturn]
  · have htext : (Section.install.marker ++ "\n" ++ a ++ "\n" ++ Section.remove.marker ++ "\n" ++
        b).toList = Section.install.marker.toList ++ '\n' :: (a.toList ++ '\n' ::
          (Section.remove.marker.toList ++ '\n' :: b.toList)) := by
      simp only [String.toList_append, List.append_assoc]
      rfl
    rw [parse_eq_ok_iff, htext]
    exact ofLines_lines ha hb hmarks hmarks' hne hne' path

/-- The markers may come in any order and in letters of any case, with blanks around them, and what
stands before them is ignored. -/
theorem parse_format_upper :
    parse "m" "p" "SELECT 1;\n  -- MIGRATE:remove\nDROP;\n-- migrate:INSTALL \n\n CREATE\n x;\n" =
      .ok ⟨"p", "CREATE\n x;", "DROP;"⟩ ∧
    parse "m" "p" "-- migrate:install\nCREATE; \n-- migrate:remove\nDROP;" =
      .ok ⟨"p", "CREATE;", "DROP;"⟩ := by
  obtain ⟨hformat, -, -, -, hsections⟩ := parse_format "m" "p"
  have hunmarked : ∀ part : Section, (Text.lines "CREATE; ".toList).countP part.heads = 0 ∧
      (Text.lines "DROP;".toList).countP part.heads = 0 := fun part => by
    cases part <;> decide +kernel
  constructor
  · refine (hformat _ _).mpr ⟨fun part => ?_, by decide +kernel⟩
    cases part with
    | install =>
      exact ⟨by decide +kernel, " CREATE".toList, by decide +kernel, 'C', by decide +kernel, rfl⟩
    | remove =>
      exact ⟨by decide +kernel, "DROP;".toList, by decide +kernel, 'D', by decide +kernel, rfl⟩
  · have htext : "-- migrate:install\nCREATE; \n-- migrate:remove\nDROP;" =
        Section.install.marker ++ "\n" ++ "CREATE; " ++ "\n" ++ Section.remove.marker ++ "\n" ++
          "DROP;" := by decide +kernel
    rw [htext, hsections "CREATE; " "DROP;" (by decide +kernel) (by decide +kernel)
      (unmarked_iff.mpr fun part => (hunmarked part).1)
      (unmarked_iff.mpr fun part => (hunmarked part).2) ⟨'C', by decide +kernel, rfl⟩
      ⟨'D', by decide +kernel, rfl⟩]
    decide +kernel

end Migration

end Reconcile
