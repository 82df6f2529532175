import Mathlib.Tactic.SplitIfs
import Reconcile.Kdl.Reader
import Reconcile.Module.Provides

/-!
# Reading written entries

What the reader makes of entries as they are written for a manifest: arguments and properties that
hold a text between quotes.

Of all characters, writing a text escapes backslashes and quotes only. A quoted text stands on one
line and has no forbidden characters, so it is read back exactly if none of its characters is a line
end or forbidden (`isPlain`), and otherwise it is no text at all (`readText?_quotedText`).

Entries are read one by one up to the first that is no entry (`readEntries_append`). There the
reader stands in front of a quote or of a name (`startsEntry`), which ends nothing and leaves
nothing out.
-/

namespace Reconcile.Kdl

open Provides (escape)

variable {c : Char} {s rest : List Char} {fuel : Nat}

/-! ### Texts between quotes -/

/-- A character that is read back from between quotes. -/
def isPlain (c : Char) : Bool :=
  ! isForbidden c && ! isLineEnd c

/-- A text that is read back from between quotes. -/
def isPlainText (text : String) : Bool :=
  text.toList.all isPlain

/-- A text between quotes. -/
def quotedText (text : List Char) : List Char :=
  '"' :: (text.flatMap escape ++ ['"'])

theorem escape_of_ne (hslash : c ≠ '\\') (hquote : c ≠ '"') : escape c = [c] := by
  unfold escape
  split
  · exact absurd rfl hslash
  · exact absurd rfl hquote
  · rfl

theorem readQuoted?_escape (c : Char) (s : List Char) :
    readQuoted? .plain (escape c ++ s) =
      if isPlain c then (readQuoted? .plain s).map fun (text, after) => (c :: text, after)
      else none := by
  by_cases hslash : c = '\\'
  · subst hslash
    rfl
  by_cases hquote : c = '"'
  · subst hquote
    rfl
  rw [escape_of_ne hslash hquote, List.singleton_append, readQuoted?, Scan.next, Scan.nextPlain,
    if_neg hquote, if_neg hslash]
  cases hforbidden : isForbidden c <;> cases hline : isLineEnd c <;>
    simp [isPlain, hforbidden, hline]

/-- A text is read back up to its closing quote, unless one of its characters may not stand between
quotes as it is. -/
theorem readQuoted?_flatMap_escape (text rest : List Char) :
    readQuoted? .plain (text.flatMap escape ++ '"' :: rest) =
      if text.all isPlain then some (text, rest) else none := by
  induction text with
  | nil => rfl
  | cons c text ih =>
    rw [List.flatMap_cons, List.append_assoc, readQuoted?_escape, ih, List.all_cons]
    cases isPlain c <;> cases text.all isPlain <;> rfl

/-- The characters after an opening quote do not begin with two more quotes. -/
theorem flatMap_escape_ne (text : List Char) (h : rest.head? ≠ some '"') (more : List Char) :
    text.flatMap escape ++ '"' :: rest ≠ '"' :: '"' :: more := by
  cases text with
  | nil =>
    intro heq
    exact h (by rw [(List.cons.inj heq).2, List.head?_cons])
  | cons c text =>
    intro heq
    rw [List.flatMap_cons, List.append_assoc] at heq
    by_cases hslash : c = '\\'
    · subst hslash
      exact absurd (List.cons.inj heq).1 (by decide)
    by_cases hquote : c = '"'
    · subst hquote
      exact absurd (List.cons.inj heq).1 (by decide)
    rw [escape_of_ne hslash hquote, List.singleton_append] at heq
    exact hquote (List.cons.inj heq).1

theorem head?_ne_quote_of_endsValue (h : endsValue rest = true) : rest.head? ≠ some '"' := by
  cases rest with
  | nil => simp
  | cons c rest =>
    rw [List.head?_cons, Ne, Option.some.injEq]
    rintro rfl
    exact absurd h Bool.false_ne_true

/-- A text between quotes is read back, or it is no text. -/
theorem readText?_quotedText (text : List Char) (h : endsValue rest = true) :
    readText? (quotedText text ++ rest) =
      if text.all isPlain then some (text, rest) else none := by
  rw [quotedText, List.cons_append, List.append_assoc, List.singleton_append, readText?,
    readQuoted?_flatMap_escape]
  · split_ifs
    · exact Option.filter_some_pos h
    · rfl
  · exact flatMap_escape_ne text (head?_ne_quote_of_endsValue h)

/-! ### Bare words -/

/-- A character of a class is none that does not belong to it. -/
theorem ne_of_class {p : Char → Bool} {d : Char} (hc : p c = true) (hd : p d = false) : c ≠ d := by
  rintro rfl
  exact Bool.false_ne_true (hd.symm.trans hc)

/-- Whether a text may be written as a name without quotes. A name that begins with a sign, which
could be taken for a number at first, is left aside. -/
def isWord : List Char → Bool
  | [] => false
  | c :: more =>
    ! c.isDigit && ! isSign c && (c :: more).all isIdentifierChar && isBare (c :: more)

theorem exists_cons_of_isWord {word : List Char} (h : isWord word = true) :
    ∃ c more, word = c :: more ∧ isIdentifierChar c = true ∧ c.isDigit = false ∧
      isSign c = false := by
  cases word with
  | nil => exact absurd h Bool.false_ne_true
  | cons c more =>
    simp only [isWord, List.all_cons, Bool.and_eq_true, Bool.not_eq_true'] at h
    exact ⟨c, more, rfl, h.1.2.1, h.1.1.1, h.1.1.2⟩

theorem all_of_isWord {word : List Char} (h : isWord word = true) :
    ∀ c ∈ word, isIdentifierChar c = true := by
  cases word with
  | nil => exact absurd h Bool.false_ne_true
  | cons c more =>
    rw [isWord, Bool.and_eq_true, Bool.and_eq_true] at h
    exact List.all_eq_true.mp h.1.2

theorem isBare_of_isWord {word : List Char} (h : isWord word = true) : isBare word = true := by
  cases word with
  | nil => exact absurd h Bool.false_ne_true
  | cons c more =>
    rw [isWord, Bool.and_eq_true] at h
    exact h.2

/-- A bare word ends in front of a character that no identifier contains. -/
theorem readBare?_word {word : List Char} (hword : isWord word = true)
    (hc : isIdentifierChar c = false) :
    readBare? (word ++ c :: rest) = some (word, c :: rest) := by
  have hall := all_of_isWord hword
  have hnot : ¬ isIdentifierChar c = true := Bool.eq_false_iff.mp hc
  rw [readBare?, List.takeWhile_append_of_pos hall, List.dropWhile_append_of_pos hall,
    List.takeWhile_cons_of_neg hnot, List.dropWhile_cons_of_neg hnot, List.append_nil,
    if_pos (isBare_of_isWord hword)]

/-- A bare word at the start of a text is read back. -/
theorem readText?_word {word : List Char} (hword : isWord word = true)
    (hc : isIdentifierChar c = false) (hend : endsValue (c :: rest) = true) :
    readText? (word ++ c :: rest) = some (word, c :: rest) := by
  obtain ⟨d, more, rfl, hd, -⟩ := exists_cons_of_isWord hword
  rw [List.cons_append, readText?, ← List.cons_append, readBare?_word hword hc]
  · exact Option.filter_some_pos hend
  · exact fun _ heq => ne_of_class hd (by decide) (List.cons.inj heq).1
  · exact fun _ heq => ne_of_class hd (by decide) (List.cons.inj heq).1
  · exact fun _ heq => ne_of_class hd (by decide) (List.cons.inj heq).1

/-! ### What stands in front of an entry -/

/-- A character that an entry may start with. -/
def startsEntry (c : Char) : Bool :=
  c == '"' || isIdentifierChar c

theorem startsEntry_of_isIdentifierChar (h : isIdentifierChar c = true) : startsEntry c = true := by
  rw [startsEntry, h, Bool.or_true]

/-- A character that neither belongs to a gap nor begins one. -/
def isSolid (c : Char) : Bool :=
  ! isSpace c && ! isLineEnd c && c != '/' && c != '\\'

theorem isSolid_of_startsEntry (h : startsEntry c = true) : isSolid c = true := by
  have hslash : c ≠ '/' := ne_of_class h (by decide)
  have hback : c ≠ '\\' := ne_of_class h (by decide)
  rw [startsEntry, Bool.or_eq_true, beq_iff_eq] at h
  rcases h with rfl | h
  · decide
  · simp only [isIdentifierChar, Bool.and_eq_true] at h
    simp [isSolid, h, hslash, hback]

section Solid

variable (h : isSolid c = true)
include h

theorem isSpace_of_isSolid : isSpace c = false := by
  simp [isSolid] at h
  exact h.1.1.1

theorem isLineEnd_of_isSolid : isLineEnd c = false := by
  simp [isSolid] at h
  exact h.1.1.2

theorem ne_slash_of_isSolid : c ≠ '/' := ne_of_class h (by decide)

theorem ne_backslash_of_isSolid : c ≠ '\\' := ne_of_class h (by decide)

theorem skipGap?_of_isSolid (fuel : Nat) : skipGap? fuel (c :: rest) = some (c :: rest) := by
  cases fuel with
  | zero => rfl
  | succ fuel =>
    rw [skipGap?, if_neg (Bool.eq_false_iff.mp (isSpace_of_isSolid h))]
    · exact fun _ heq => absurd heq (ne_slash_of_isSolid h)
    · exact ne_backslash_of_isSolid h

theorem skipGap?_space (fuel : Nat) :
    skipGap? (fuel + 1) (' ' :: c :: rest) = some (c :: rest) :=
  skipGap?_of_isSolid h fuel

theorem skipSomeGap?_space (fuel : Nat) :
    skipSomeGap? (fuel + 1) (' ' :: c :: rest) = some (c :: rest) := by
  rw [skipSomeGap?, show startsGap (' ' :: c :: rest) = true from rfl, if_pos rfl, skipGap?_space h]

theorem skipLeaveOut?_of_isSolid (fuel : Nat) : skipLeaveOut? fuel (c :: rest) = none := by
  unfold skipLeaveOut?
  split
  next heq => exact absurd (List.cons.inj heq).1 (ne_slash_of_isSolid h)
  next => rfl

theorem skipEntries?_of_isSolid (fuel : Nat) : skipEntries? fuel (c :: rest) = none := by
  cases fuel with
  | zero => rfl
  | succ fuel => rw [skipEntries?, skipLeaveOut?_of_isSolid h, Option.bind_none]

theorem readNextItem?_of_isSolid (fuel : Nat) :
    readNextItem? (fuel + 1) (c :: rest) = readItem? fuel (c :: rest) := by
  rw [readNextItem?, skipGap?_of_isSolid h]
  simp only [skipEntries?_of_isSolid h, Option.bind_none, Option.getD_none]

end Solid

theorem skipGap?_lineEnd (fuel : Nat) (rest : List Char) :
    skipGap? fuel ('\n' :: rest) = some ('\n' :: rest) := by
  cases fuel <;> rfl

/-- What may follow an entry on a line: the end of the line, or something that is neither left out
nor the value of a property. -/
inductive FollowsEntry : List Char → Prop where
  | lineEnd (rest : List Char) : FollowsEntry ('\n' :: rest)
  | space (c : Char) (rest : List Char) (hsolid : isSolid c = true) (hne : c ≠ '=') :
    FollowsEntry (' ' :: c :: rest)

namespace FollowsEntry

variable (h : FollowsEntry rest)
include h

theorem endsValue : endsValue rest = true := by
  cases h <;> rfl

theorem exists_cons : ∃ c more, rest = c :: more ∧ isIdentifierChar c = false := by
  cases h with
  | lineEnd rest => exact ⟨_, _, rfl, by decide⟩
  | space c rest => exact ⟨_, _, rfl, by decide⟩

theorem skipGap?_ne (fuel : Nat) (more : List Char) : skipGap? fuel rest ≠ some ('=' :: more) := by
  intro heq
  cases h with
  | lineEnd rest =>
    rw [skipGap?_lineEnd] at heq
    exact absurd (List.cons.inj (Option.some.inj heq)).1 (by decide)
  | space c rest hsolid hne =>
    cases fuel with
    | zero => exact absurd (List.cons.inj (Option.some.inj heq)).1 (by decide)
    | succ fuel =>
      rw [skipGap?_space hsolid] at heq
      exact hne (List.cons.inj (Option.some.inj heq)).1

end FollowsEntry

/-! ### Entries -/

/-- An argument or a property with a text. The name of a property needs no quotes. -/
structure TextEntry where
  name : Option String
  text : String
  isWord_name : ∀ word ∈ name, isWord word.toList = true

namespace TextEntry

variable (e : TextEntry)

/-- An entry as an entry of a document. -/
def entry : Entry := ⟨e.name, .str e.text⟩

/-- An entry as it is written. -/
def written : List Char :=
  (match e.name with
    | none => []
    | some name => name.toList ++ ['=']) ++ quotedText e.text.toList

/-- Whether the text of an entry is read back. -/
def isPlain : Bool := isPlainText e.text

end TextEntry

theorem readBareValue?_quotedText (text : List Char) (h : endsValue rest = true) :
    readBareValue? (quotedText text ++ rest) =
      if text.all isPlain then some (.str (String.ofList text), rest) else none := by
  have hread : readBareValue? (quotedText text ++ rest) =
      (readText? (quotedText text ++ rest)).map fun (text, rest) =>
        (.str (String.ofList text), rest) := rfl
  rw [hread, readText?_quotedText text h]
  split_ifs <;> rfl

theorem readKeyword?_of_ne (h : c ≠ '#') (rest : List Char) : readKeyword? (c :: rest) = none := by
  rw [readKeyword?]
  all_goals exact fun _ heq => h (List.cons.inj heq).1

theorem startsNumber_of_not (hdigit : c.isDigit = false) (hsign : isSign c = false)
    (rest : List Char) : startsNumber (c :: rest) = false := by
  rw [startsNumber, hdigit, hsign, Bool.false_and, Bool.or_false]

theorem readBareValue?_word {word : List Char} (hword : isWord word = true)
    (hc : isIdentifierChar c = false) (hend : endsValue (c :: rest) = true) :
    readBareValue? (word ++ c :: rest) = some (.str (String.ofList word), c :: rest) := by
  have hread := readText?_word hword hc hend
  obtain ⟨d, more, rfl, hd, hdigit, hsign⟩ := exists_cons_of_isWord hword
  rw [List.cons_append] at hread ⊢
  rw [readBareValue?, readKeyword?_of_ne (ne_of_class hd (by decide)),
    startsNumber_of_not hdigit hsign, hread]
  rfl

/-- A text at the start of an entry is an argument if the sign `=` does not follow it. -/
theorem readItem?_argument {text : String} (hopen : c ≠ '(')
    (hread : readBareValue? (c :: s) = some (.str text, rest))
    (hne : ∀ more, skipGap? fuel rest ≠ some ('=' :: more)) :
    readItem? fuel (c :: s) = some (⟨none, .str text⟩, rest) := by
  rw [readItem?, hread]
  · simp only
  · exact fun _ heq => hopen (List.cons.inj heq).1

/-- A text at the start of an entry is the name of a property if the sign `=` follows it. -/
theorem readItem?_property {name : String} (hopen : c ≠ '(')
    (hread : readBareValue? (c :: s) = some (.str name, '=' :: '"' :: rest)) :
    readItem? fuel (c :: s) = (readBareValue? ('"' :: rest)).map fun (value, rest) =>
      (⟨some name, value⟩, rest) := by
  have hvalue : readValue? fuel ('"' :: rest) = readBareValue? ('"' :: rest) := rfl
  rw [readItem?, hread]
  · simp only [skipGap?_of_isSolid (show isSolid '=' = true by decide),
      skipGap?_of_isSolid (show isSolid '"' = true by decide), Option.bind_eq_bind,
      Option.bind_some, hvalue]
    cases readBareValue? ('"' :: rest) <;> rfl
  · exact fun _ heq => hopen (List.cons.inj heq).1

theorem readItem?_eq_none (hopen : c ≠ '(') (hread : readBareValue? (c :: s) = none) :
    readItem? fuel (c :: s) = none := by
  rw [readItem?, hread]
  exact fun _ heq => hopen (List.cons.inj heq).1

/-- An entry is read back, or there is no entry. -/
theorem readItem?_written (e : TextEntry) (h : FollowsEntry rest) (fuel : Nat) :
    readItem? fuel (e.written ++ rest) =
      if e.isPlain then some (e.entry, rest) else none := by
  have hread := readBareValue?_quotedText e.text.toList h.endsValue
  obtain ⟨_ | name, text, hname⟩ := e
  · rw [TextEntry.written, TextEntry.isPlain, isPlainText, List.nil_append]
    split_ifs with hplain
    · rw [if_pos hplain, String.ofList_toList] at hread
      exact readItem?_argument (by decide) hread (h.skipGap?_ne fuel)
    · rw [if_neg hplain] at hread
      exact readItem?_eq_none (by decide) hread
  · have hword : isWord name.toList = true := hname name rfl
    have hend : endsValue ('=' :: (quotedText text.toList ++ rest)) = true := rfl
    have hname := readBareValue?_word hword (by decide) hend
    obtain ⟨c, more, hcons, hc, -⟩ := exists_cons_of_isWord hword
    have hopen : c ≠ '(' := ne_of_class hc (by decide)
    rw [String.ofList_toList, hcons] at hname
    rw [TextEntry.written, TextEntry.isPlain, isPlainText, List.append_assoc, List.append_assoc,
      hcons]
    refine (readItem?_property hopen hname).trans ?_
    change (readBareValue? (quotedText text.toList ++ rest)).map _ = _
    rw [hread]
    split_ifs
    · rw [Option.map_some, String.ofList_toList]
      rfl
    · rfl

/-- What stands in front of an entry that is written. -/
theorem exists_cons_written (e : TextEntry) :
    ∃ c more, e.written = c :: more ∧ startsEntry c = true := by
  obtain ⟨_ | name, text, hname⟩ := e
  · exact ⟨'"', _, rfl, by decide⟩
  · obtain ⟨c, more, hcons, hc, -⟩ := exists_cons_of_isWord (hname name rfl)
    refine ⟨c, more ++ '=' :: quotedText text.toList, ?_,
      startsEntry_of_isIdentifierChar hc⟩
    simp [TextEntry.written, hcons]

/-- Entries on a line, each with a space before it. -/
def writtenEntries (entries : List TextEntry) : List Char :=
  entries.flatMap fun e => ' ' :: e.written

theorem writtenEntries_append (entries entries' : List TextEntry) :
    writtenEntries (entries ++ entries') = writtenEntries entries ++ writtenEntries entries' :=
  List.flatMap_append

/-- Reading the entries of a node begins with the entry that is written first, or ends there. -/
theorem readEntries_written (e : TextEntry) (h : FollowsEntry rest) (fuel : Nat) :
    readEntries (fuel + 2) (' ' :: (e.written ++ rest)) =
      if e.isPlain then
        (e.entry :: (readEntries (fuel + 1) rest).1, (readEntries (fuel + 1) rest).2)
      else ([], ' ' :: (e.written ++ rest)) := by
  have hitem := readItem?_written e h fuel
  obtain ⟨c, more, hcons, hc⟩ := exists_cons_written e
  have hsolid := isSolid_of_startsEntry hc
  rw [hcons, List.cons_append] at hitem ⊢
  rw [readEntries, skipSomeGap?_space hsolid, Option.bind_some, readNextItem?_of_isSolid hsolid,
    hitem]
  split_ifs <;> rfl

/-- A further entry may follow an entry. -/
theorem followsEntry_written (e : TextEntry) (s : List Char) :
    FollowsEntry (' ' :: (e.written ++ s)) := by
  obtain ⟨c, more, hcons, hc⟩ := exists_cons_written e
  rw [hcons]
  exact .space c _ (isSolid_of_startsEntry hc) (ne_of_class hc (by decide))

theorem followsEntry_writtenEntries (entries : List TextEntry) (h : FollowsEntry rest) :
    FollowsEntry (writtenEntries entries ++ rest) := by
  cases entries with
  | nil => exact h
  | cons e entries =>
    rw [writtenEntries, List.flatMap_cons, List.append_assoc]
    exact followsEntry_written e _

/-- The first element of a list that does not meet a condition. -/
theorem exists_first_of_not_forall {α : Type} {p : α → Bool} {l : List α}
    (h : ¬ ∀ x ∈ l, p x = true) :
    ∃ before x after, l = before ++ x :: after ∧ (∀ y ∈ before, p y = true) ∧ p x = false := by
  cases hfind : l.find? fun x => ! p x with
  | none => exact absurd (by simpa using List.find?_eq_none.mp hfind) h
  | some x =>
    obtain ⟨hx, before, after, hl, hbefore⟩ := List.find?_eq_some_iff_append.mp hfind
    exact ⟨before, x, after, hl, by simpa using hbefore, by simpa using hx⟩

theorem writtenEntries_append_cons (before after : List TextEntry) (e : TextEntry)
    (s : List Char) :
    writtenEntries (before ++ e :: after) ++ s =
      writtenEntries before ++ ' ' :: (e.written ++ (writtenEntries after ++ s)) := by
  rw [writtenEntries_append]
  simp [writtenEntries]

/-- Entries are read one by one. -/
theorem readEntries_append {entries : List TextEntry}
    (hplain : ∀ e ∈ entries, e.isPlain = true) (h : FollowsEntry rest) (fuel : Nat) :
    readEntries (fuel + 1 + entries.length) (writtenEntries entries ++ rest) =
      (entries.map TextEntry.entry ++ (readEntries (fuel + 1) rest).1,
        (readEntries (fuel + 1) rest).2) := by
  induction entries with
  | nil => rfl
  | cons e entries ih =>
    obtain ⟨hfirst, hothers⟩ := List.forall_mem_cons.mp hplain
    have hread := readEntries_written e (followsEntry_writtenEntries entries h)
      (fuel + entries.length)
    rw [if_pos hfirst, Nat.add_right_comm fuel _ 1, ih hothers] at hread
    rw [writtenEntries, List.flatMap_cons, List.append_assoc, List.length_cons,
      show fuel + 1 + (entries.length + 1) = fuel + entries.length + 2 by omega]
    exact hread

/-- The entries of a line are read up to its end. -/
theorem readEntries_line {entries : List TextEntry}
    (hplain : ∀ e ∈ entries, e.isPlain = true) (hfuel : entries.length < fuel)
    (rest : List Char) :
    readEntries fuel (writtenEntries entries ++ '\n' :: rest) =
      (entries.map TextEntry.entry, '\n' :: rest) := by
  obtain ⟨more, rfl⟩ := Nat.exists_eq_add_of_lt hfuel
  have hend : readEntries (more + 1) ('\n' :: rest) = ([], '\n' :: rest) := rfl
  rw [show entries.length + more + 1 = more + 1 + entries.length by omega,
    readEntries_append hplain (.lineEnd rest), hend, List.append_nil]

/-- The entries of a line are read up to the first one that is no entry. -/
theorem readEntries_line_of_not {entries : List TextEntry}
    (hplain : ¬ ∀ e ∈ entries, e.isPlain = true) (hfuel : entries.length < fuel)
    (rest : List Char) :
    ∃ found c more, startsEntry c = true ∧
      readEntries fuel (writtenEntries entries ++ '\n' :: rest) = (found, ' ' :: c :: more) := by
  obtain ⟨before, e, after, rfl, hbefore, he⟩ := exists_first_of_not_forall hplain
  obtain ⟨c, more, hcons, hc⟩ := exists_cons_written e
  obtain ⟨left, hfuel⟩ : ∃ left, fuel = left + 1 + 1 + before.length :=
    ⟨fuel - before.length - 2, by simp at hfuel; omega⟩
  have hread := readEntries_written e
    (followsEntry_writtenEntries after (.lineEnd rest)) left
  rw [if_neg (Bool.eq_false_iff.mp he)] at hread
  -- the entries before the first bad one are read one by one, and reading ends in front of it
  refine ⟨before.map TextEntry.entry, c, more ++ (writtenEntries after ++ '\n' :: rest), hc, ?_⟩
  rw [hfuel, writtenEntries_append_cons, readEntries_append hbefore (followsEntry_written e _),
    hread, hcons, List.cons_append, List.append_nil]

end Reconcile.Kdl
