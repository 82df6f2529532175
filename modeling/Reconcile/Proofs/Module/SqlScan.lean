import Mathlib.Data.List.Forall2
import Mathlib.Data.List.Induction
import Reconcile.Module.SqlScan
import Reconcile.Proofs.Text.Lines

/-!
# The objects that a script creates

A script is a list of words in which statements that create something stand one after the other,
with any words between them that do not begin one (`Script`). Scanning a script finds the objects
that its statements create, and nothing else (`created_of_script`): the scan goes on with the word
after the one that names the kind of the object, and as a name does not begin a statement, the next
statement is never missed.

What the scan reads off the text is described apart from it: the code of a line is what comes before
the first two hyphens in a row (`IsCode`), and a word stands for a name when arguments, schema and
quotes are left out (`IsNamed`). Of the names, the scan keeps each one where it first occurs
(`FirstOccurrences`).
-/

namespace Reconcile.Sql

/-! ### Comments -/

/-- The code of a line: the line up to the first two hyphens in a row, or all of it. -/
def IsCode (line code : List Char) : Prop :=
  (line = code ∧ ¬ ['-', '-'] <:+: line) ∨
    ∃ comment, line = code ++ (['-', '-'] ++ comment) ∧ ¬ ['-', '-'] <:+: code ++ ['-']

/-- A line without its comment is its code. -/
theorem dropComment_eq_iff {line code : List Char} :
    dropComment line = code ↔ IsCode line code := by
  have hmark : ['-', '-'] ≠ [] := List.cons_ne_nil '-' ['-']
  unfold dropComment IsCode
  cases hcut : Text.cutAt? ['-', '-'] line with
  | none =>
    have hnot := (Text.cutAt?_eq_none_iff hmark).mp hcut
    refine ⟨fun h => .inl ⟨h, hnot⟩, ?_⟩
    rintro (⟨h, -⟩ | ⟨comment, rfl, -⟩)
    · exact h
    · exact absurd ⟨code, comment, by simp⟩ hnot
  | some parts =>
    obtain ⟨before, comment⟩ := parts
    obtain ⟨hline, hfirst⟩ := (Text.cutAt?_eq_some_iff hmark).mp hcut
    constructor
    · rintro rfl
      exact .inr ⟨comment, hline, hfirst⟩
    · rintro (⟨-, hnot⟩ | ⟨comment', hline', hfirst'⟩)
      · exact absurd ⟨before, comment, by simp [hline]⟩ hnot
      · have hcut' := (Text.cutAt?_eq_some_iff hmark).mpr ⟨hline', hfirst'⟩
        rw [hcut] at hcut'
        exact congrArg Prod.fst (Option.some.inj hcut')

/-- The words of a text are those of the code of its lines. -/
theorem tokens_eq {sql : String} {codes : List (List Char)}
    (h : List.Forall₂ IsCode (Text.lines sql.toList) codes) :
    tokens sql = codes.flatMap Text.words := by
  rw [tokens]
  generalize Text.lines sql.toList = lines at h ⊢
  induction h with
  | nil => rfl
  | cons hcode _ ih => rw [List.flatMap_cons, List.flatMap_cons, dropComment_eq_iff.mpr hcode, ih]

/-! ### Names -/

/-- The name for which a word stands: what is left of the word without the list of arguments, which
begins with the first parenthesis, without the schema, which ends with the last point before them,
and without the marks around the name. -/
def IsNamed (word : Token) (name : String) : Prop :=
  name ≠ "" ∧ ∃ schema left right arguments : List Char,
    word = schema ++ (left ++ (name.toList ++ right)) ++ arguments ∧
    '(' ∉ schema ++ (left ++ (name.toList ++ right)) ∧ (∀ c ∈ arguments.head?, c = '(') ∧
    '.' ∉ left ++ (name.toList ++ right) ∧ (∀ c ∈ schema.getLast?, c = '.') ∧
    (∀ c ∈ left ++ right, isNameMark c = true) ∧
    (∀ c ∈ name.toList.head?, isNameMark c = false) ∧
    ∀ c ∈ name.toList.getLast?, isNameMark c = false

theorem forall_bne_iff {c : Char} {l : List Char} : (∀ x ∈ l, (x != c) = true) ↔ c ∉ l := by
  simp only [bne_iff_ne]
  exact ⟨fun h hmem => h c hmem rfl, fun h x hx heq => h (heq ▸ hx)⟩

theorem objectName?_eq_some_iff_trimBy {word : Token} {name : String} :
    objectName? word = some name ↔ name ≠ "" ∧ Text.trimBy isNameMark
      ((word.takeWhile (· != '(')).reverse.takeWhile (· != '.')).reverse = name.toList := by
  simp only [objectName?]
  generalize Text.trimBy isNameMark _ = found
  rw [Ne, ← String.toList_eq_nil_iff]
  constructor
  · intro h
    split_ifs at h with hempty
    obtain rfl := Option.some.inj h
    rw [String.toList_ofList]
    exact ⟨fun hnil => hempty (List.isEmpty_iff.mpr hnil), rfl⟩
  · rintro ⟨hne, rfl⟩
    rw [if_neg fun hempty => hne (List.isEmpty_iff.mp hempty), String.ofList_toList]

/-- The scan takes a word for the name for which it stands. -/
theorem objectName?_eq_some_iff {word : Token} {name : String} :
    objectName? word = some name ↔ IsNamed word name := by
  rw [objectName?_eq_some_iff_trimBy, IsNamed]
  refine and_congr_right fun hne => ?_
  rw [Text.trimBy_eq_iff (mt String.toList_eq_nil_iff.mp hne)]
  constructor
  · rintro ⟨left, right, hlast, hmarks, hends⟩
    obtain ⟨hword, hbare, harguments⟩ := Text.takeWhile_dropWhile_iff.mp
      ⟨Eq.refl (word.takeWhile (· != '(')), rfl⟩
    obtain ⟨hqualified, hplain, hschema⟩ :=
      Text.takeWhile_dropWhile_reverse_iff.mp ⟨hlast, rfl⟩
    rw [hqualified] at hword hbare
    exact ⟨_, left, right, _, hword, forall_bne_iff.mp hbare, by simpa using harguments,
      forall_bne_iff.mp hplain, by simpa using hschema, hmarks, hends⟩
  · rintro ⟨schema, left, right, arguments, hword, hbare, harguments, hplain, hschema, hmarks,
      hends⟩
    have hqualified := (Text.takeWhile_dropWhile_iff.mpr
      ⟨hword, forall_bne_iff.mpr hbare, by simpa using harguments⟩).1
    refine ⟨left, right, ?_, hmarks, hends⟩
    rw [hqualified]
    exact (Text.takeWhile_dropWhile_reverse_iff.mpr
      ⟨rfl, forall_bne_iff.mpr hplain, by simpa using hschema⟩).1

/-! ### Distinct names -/

/-- The elements of a list in the order in which they first occur in it. None is there twice, as its
place would be before itself. -/
structure FirstOccurrences {α : Type} [BEq α] (l distinct : List α) : Prop where
  mem_iff : ∀ x, x ∈ distinct ↔ x ∈ l
  pairwise : distinct.Pairwise fun x y => l.idxOf x < l.idxOf y

theorem firstOccurrences_eraseDups {α : Type} [BEq α] [LawfulBEq α] (l : List α) :
    FirstOccurrences l l.eraseDups := by
  refine ⟨fun x => List.mem_eraseDups, ?_⟩
  induction l using List.reverseRecOn with
  | nil => exact List.Pairwise.nil
  | append_singleton l x ih =>
    -- A further element moves none of the others.
    have hkept : l.eraseDups.Pairwise fun y z => (l ++ [x]).idxOf y < (l ++ [x]).idxOf z := by
      refine ih.imp_of_mem fun {y z} hy hz hlt => ?_
      rwa [List.idxOf_append_of_mem (List.mem_eraseDups.mp hy),
        List.idxOf_append_of_mem (List.mem_eraseDups.mp hz)]
    rw [List.eraseDups_append]
    by_cases hx : x ∈ l
    · have hold : [x].removeAll l = [] := by simp [List.removeAll, hx]
      rwa [hold, List.eraseDups_nil, List.append_nil]
    · have hnew : [x].removeAll l = [x] := by simp [List.removeAll, hx]
      rw [hnew, List.eraseDups_cons, List.filter_nil, List.eraseDups_nil, List.pairwise_append]
      refine ⟨hkept, List.pairwise_singleton _ x, fun y hy z hz => ?_⟩
      obtain rfl := List.mem_singleton.mp hz
      have hy := List.mem_eraseDups.mp hy
      rw [List.idxOf_append_of_mem hy, List.idxOf_append_of_notMem hx]
      exact Nat.lt_add_right _ (List.idxOf_lt_length_of_mem hy)

/-! ### Scripts -/

/-- Words that spell one of some phrases, in letters of any case. -/
def Spells (words : List Token) (phrases : List (List String)) : Prop :=
  ∃ phrase ∈ phrases, List.Forall₂ (fun word keyword => Token.is word keyword = true) words phrase

instance (words : List Token) (phrases : List (List String)) : Decidable (Spells words phrases) :=
  inferInstanceAs (Decidable (∃ phrase ∈ phrases, _))

/-- How a statement begins that creates something. -/
def openings : List (List String) := [["create"], ["create", "or", "replace"]]

/-- What follows when it creates a table. -/
def tableWords : List (List String) := [["table"], ["table", "if", "not", "exists"]]

/-- What follows when it creates a function. A procedure counts as one. -/
def functionWords : List (List String) := [["function"], ["procedure"]]

/-- Scripts, with the objects that their statements create, in order. -/
inductive Script : List Token → List Created → Prop
  | nil : Script [] []
  | table {opening object rest : List Token} {word : Token} {name : String}
      {objects : List Created} :
      Spells opening openings → Spells object tableWords →
      IsNamed word name → word.is "create" = false → word.is "if" = false →
      Script rest objects → Script (opening ++ object ++ word :: rest) (.table name :: objects)
  | function {opening object rest : List Token} {word : Token} {name : String}
      {objects : List Created} :
      Spells opening openings → Spells object functionWords →
      IsNamed word name → word.is "create" = false →
      Script rest objects → Script (opening ++ object ++ word :: rest) (.function name :: objects)
  /-- A statement that creates something else. -/
  | other {opening rest : List Token} {word : Token} {objects : List Created} :
      Spells opening openings →
      (∀ keyword ∈ ["create", "or", "table", "function", "procedure"], word.is keyword = false) →
      Script rest objects → Script (opening ++ word :: rest) objects
  /-- A word that does not begin a statement. -/
  | filler {rest : List Token} {word : Token} {objects : List Created} :
      word.is "create" = false → Script rest objects → Script (word :: rest) objects

/-! ### Scanning -/

section Steps

variable {opening object : List Token} {word : Token} {name : String}

/-- A word is at most one keyword. -/
theorem is_of_is {keyword keyword' : String} (h : word.is keyword = true)
    (hne : Text.sameIgnoringCase keyword.toList keyword'.toList = false) :
    word.is keyword' = false := by
  rwa [Token.is, Text.sameIgnoringCase, eq_of_beq h]

theorem skipOrReplace_of_not_or (h : word.is "or" = false) (rest : List Token) :
    skipOrReplace (word :: rest) = word :: rest := by
  cases rest with
  | nil => rfl
  | cons next rest => exact if_neg (by simp [h])

theorem skipIfNotExists_of_not_if (h : word.is "if" = false) (rest : List Token) :
    skipIfNotExists (word :: rest) = word :: rest := by
  match rest with
  | [] => rfl
  | [next] => rfl
  | next :: after :: rest => exact if_neg (by simp [h])

/-- The part of an opening that may be left out is skipped. -/
theorem exists_opening (h : Spells opening openings) (hor : word.is "or" = false)
    (rest : List Token) : ∃ create replace, Token.is create "create" = true ∧
      skipOrReplace (replace ++ word :: rest) = word :: rest ∧ opening = create :: replace := by
  obtain ⟨phrase, hphrase, hwords⟩ := h
  rcases List.mem_pair.mp hphrase with rfl | rfl
  · obtain _ | ⟨hcreate, _ | _⟩ := hwords
    exact ⟨_, [], hcreate, skipOrReplace_of_not_or hor rest, rfl⟩
  · obtain _ | ⟨hcreate, _ | ⟨hreplacing, _ | ⟨hreplace, _ | _⟩⟩⟩ := hwords
    exact ⟨_, [_, _], hcreate, if_pos (by simp [hreplacing, hreplace]), rfl⟩

/-- The condition before the name of a table is skipped. -/
theorem exists_table (h : Spells object tableWords) (hif : word.is "if" = false)
    (rest : List Token) : ∃ table guard, Token.is table "table" = true ∧
      skipIfNotExists (guard ++ word :: rest) = word :: rest ∧ object = table :: guard := by
  obtain ⟨phrase, hphrase, hwords⟩ := h
  rcases List.mem_pair.mp hphrase with rfl | rfl
  · obtain _ | ⟨htable, _ | _⟩ := hwords
    exact ⟨_, [], htable, skipIfNotExists_of_not_if hif rest, rfl⟩
  · obtain _ | ⟨htable, _ | ⟨hguard, _ | ⟨hnot, _ | ⟨hexists, _ | _⟩⟩⟩⟩ := hwords
    exact ⟨_, [_, _, _], htable, if_pos (by simp [hguard, hnot, hexists]), rfl⟩

theorem exists_function (h : Spells object functionWords) :
    ∃ function, (Token.is function "function" = true ∨ Token.is function "procedure" = true) ∧
      object = [function] := by
  obtain ⟨phrase, hphrase, hwords⟩ := h
  rcases List.mem_pair.mp hphrase with rfl | rfl
  · obtain _ | ⟨hfunction, _ | _⟩ := hwords
    exact ⟨_, .inl hfunction, rfl⟩
  · obtain _ | ⟨hprocedure, _ | _⟩ := hwords
    exact ⟨_, .inr hprocedure, rfl⟩

theorem readCreated_cons (hor : word.is "or" = false) (rest : List Token) :
    readCreated (word :: rest) =
      if word.is "table" then
        (((skipIfNotExists rest).head?.bind objectName?).map .table, skipIfNotExists rest)
      else if word.is "function" || word.is "procedure" then
        ((rest.head?.bind objectName?).map .function, rest)
      else (none, rest) := by
  rw [readCreated, skipOrReplace_of_not_or hor]

theorem created_filler (h : word.is "create" = false) (rest : List Token) :
    created (word :: rest) = created rest := by
  rw [created, if_neg (by simp [h])]

/-- What follows an opening is read in the same way with `or replace` and without. -/
theorem created_opening (hopening : Spells opening openings) (hor : word.is "or" = false)
    (rest : List Token) :
    created (opening ++ word :: rest) =
      (readCreated (word :: rest)).1.toList ++ created (readCreated (word :: rest)).2 := by
  obtain ⟨create, replace, hcreate, hskip, rfl⟩ := exists_opening hopening hor rest
  have hread : readCreated (replace ++ word :: rest) = readCreated (word :: rest) := by
    rw [readCreated, hskip, readCreated, skipOrReplace_of_not_or hor]
  rw [List.cons_append, created, if_pos hcreate, hread]

theorem created_table (hopening : Spells opening openings) (hobject : Spells object tableWords)
    (hname : IsNamed word name) (hcreate : word.is "create" = false) (hif : word.is "if" = false)
    (rest : List Token) :
    created (opening ++ object ++ word :: rest) = .table name :: created rest := by
  obtain ⟨table, guard, htable, hskip, rfl⟩ := exists_table hobject hif rest
  have hor : Token.is table "or" = false := is_of_is htable (by decide)
  rw [List.append_assoc, List.cons_append, created_opening hopening hor, readCreated_cons hor,
    if_pos htable, hskip, List.head?_cons, Option.bind_some, objectName?_eq_some_iff.mpr hname,
    created_filler hcreate]
  rfl

theorem created_function (hopening : Spells opening openings)
    (hobject : Spells object functionWords) (hname : IsNamed word name)
    (hcreate : word.is "create" = false) (rest : List Token) :
    created (opening ++ object ++ word :: rest) = .function name :: created rest := by
  obtain ⟨function, hfunction, rfl⟩ := exists_function hobject
  have hor : Token.is function "or" = false :=
    hfunction.elim (is_of_is · (by decide)) (is_of_is · (by decide))
  have htable : Token.is function "table" = false :=
    hfunction.elim (is_of_is · (by decide)) (is_of_is · (by decide))
  rw [List.append_assoc, List.singleton_append, created_opening hopening hor, readCreated_cons hor,
    if_neg (by simp [htable]), if_pos (by simpa using hfunction), List.head?_cons,
    Option.bind_some, objectName?_eq_some_iff.mpr hname, created_filler hcreate]
  rfl

theorem created_other (hopening : Spells opening openings)
    (hother : ∀ keyword ∈ ["or", "table", "function", "procedure"], word.is keyword = false)
    (rest : List Token) : created (opening ++ word :: rest) = created rest := by
  simp only [List.forall_mem_cons] at hother
  obtain ⟨hor, htable, hfunction, hprocedure, -⟩ := hother
  rw [created_opening hopening hor, readCreated_cons hor, if_neg (by simp [htable]),
    if_neg (by simp [hfunction, hprocedure])]
  rfl

end Steps

/-- The objects that are found in a script are those that its statements create. -/
theorem created_of_script {words : List Token} {objects : List Created}
    (h : Script words objects) : created words = objects := by
  induction h with
  | nil => rw [created]
  | table hopening hobject hname hcreate hif _ ih =>
    rw [created_table hopening hobject hname hcreate hif, ih]
  | function hopening hobject hname hcreate _ ih =>
    rw [created_function hopening hobject hname hcreate, ih]
  | other hopening hother _ ih =>
    rw [created_other hopening fun keyword hkeyword => hother keyword (.tail _ hkeyword), ih]
  | filler hcreate _ ih => rw [created_filler hcreate, ih]

/-- **A script provides what it creates.** If the words of a text that are not in comments are a
script, the scan proposes the distinct names of its tables and those of its functions, in the order
in which they first occur, and nothing else. -/
theorem scan_script {sql : String} {codes : List (List Char)} {objects : List Created}
    (hcodes : List.Forall₂ IsCode (Text.lines sql.toList) codes)
    (hscript : Script (codes.flatMap Text.words) objects) :
    ∃ tables functions, scan sql = ⟨tables, functions.map ProvidedFunction.named⟩ ∧
      FirstOccurrences (objects.filterMap Created.tableName?) tables ∧
      FirstOccurrences (objects.filterMap Created.functionName?) functions := by
  have hobjects : created (tokens sql) = objects := by
    rw [tokens_eq hcodes, created_of_script hscript]
  refine ⟨_, _, ?_, firstOccurrences_eraseDups _, firstOccurrences_eraseDups _⟩
  rw [scan, hobjects]
  rfl

/-- A script in four lines, with comments in two of them, each kind of statement, and two names that
occur twice. -/
theorem scan_script_repeated :
    let sql := "-- create table t\n" ++ "create table if not exists \"s\".\"vpc\"(x int); -- y\n" ++
      "Create Or Replace Function f(a) create index i\n" ++
      "create procedure s.f; CREATE TABLE vpc"
    let codes := ["", "create table if not exists \"s\".\"vpc\"(x int); ",
      "Create Or Replace Function f(a) create index i",
      "create procedure s.f; CREATE TABLE vpc"].map String.toList
    let objects : List Created := [.table "vpc", .function "f", .function "f", .table "vpc"]
    List.Forall₂ IsCode (Text.lines sql.toList) codes ∧
      Script (codes.flatMap Text.words) objects ∧
      ∃ tables functions, scan sql = ⟨tables, functions.map ProvidedFunction.named⟩ ∧
        FirstOccurrences (objects.filterMap Created.tableName?) tables ∧
        FirstOccurrences (objects.filterMap Created.functionName?) functions := by
  intro sql codes objects
  have hcodes : List.Forall₂ IsCode (Text.lines sql.toList) codes := by
    -- The kernel is slow at the characters of a long text.
    have hlines : (Text.lines sql.toList).map dropComment = codes := by
      simp only [sql, codes, String.toList_append]
      decide +kernel
    rw [← hlines, List.forall₂_map_right_iff]
    exact List.forall₂_same.mpr fun line _ => dropComment_eq_iff.mp rfl
  have hscript : Script (codes.flatMap Text.words) objects := by
    have hwords : codes.flatMap Text.words =
        (["create"] ++ ["table", "if", "not", "exists"] ++ "\"s\".\"vpc\"(x" :: "int);" ::
          (["Create", "Or", "Replace"] ++ ["Function"] ++ "f(a)" ::
          (["create"] ++ "index" :: "i" ::
          (["create"] ++ ["procedure"] ++ "s.f;" ::
          (["CREATE"] ++ ["TABLE"] ++ ["vpc"]))))).map String.toList := by
      decide +kernel
    have hquoted : IsNamed "\"s\".\"vpc\"(x".toList "vpc" :=
      objectName?_eq_some_iff.mp (by decide +kernel)
    have hcalled : IsNamed "f(a)".toList "f" := objectName?_eq_some_iff.mp (by decide +kernel)
    have hended : IsNamed "s.f;".toList "f" := objectName?_eq_some_iff.mp (by decide +kernel)
    have hbare : IsNamed "vpc".toList "vpc" := objectName?_eq_some_iff.mp (by decide +kernel)
    rw [hwords]
    simp only [List.map_append, List.map_cons]
    refine .table (by decide) (by decide) hquoted (by decide) (by decide) ?_
    refine .filler (by decide) ?_
    refine .function (by decide) (by decide) hcalled (by decide) ?_
    refine .other (by decide) (by decide) ?_
    refine .filler (by decide) ?_
    refine .function (by decide) (by decide) hended (by decide) ?_
    exact .table (by decide) (by decide) hbare (by decide) (by decide) .nil
  exact ⟨hcodes, hscript, scan_script hcodes hscript⟩

end Reconcile.Sql
