import Mathlib.Data.List.Infix
import Reconcile.Text.Blank

/-!
# Pieces of a text

Cutting a text at a character is the splitting of lists that the library has, so that joining the
pieces again gives the text. No piece contains the character.

Cutting at a mark of several characters is cutting in two at the first place where it stands
(`Text.cutAt?_eq_some_iff`). No mark stands earlier, not even one that reaches into the first one:
it would be seen in the text up to the last character of the first one.
-/

namespace Reconcile.Text

variable {α : Type} {c : Char} {s : String}

/-- Cutting is the splitting of lists that the library has. -/
theorem splitBy_eq_splitOnP (p : α → Bool) (l : List α) : splitBy p l = l.splitOnP p := by
  induction l with
  | nil => rfl
  | cons x xs ih =>
    have hne := xs.splitOnP_ne_nil p
    unfold splitBy
    rw [ih, List.splitOnP_cons_eq_if_modifyHead]
    generalize xs.splitOnP p = pieces at hne ⊢
    cases hx : p x with
    | true => rfl
    | false =>
      obtain ⟨piece, rest, rfl⟩ := List.exists_cons_of_ne_nil hne
      rfl

theorem splitAt_eq (c : Char) (s : String) :
    splitAt c s = (s.toList.splitOn c).map String.ofList := by
  rw [splitAt, splitBy_eq_splitOnP, List.splitOn_eq_splitOnP]

/-- There is at least one piece. -/
theorem splitAt_ne_nil (c : Char) (s : String) : splitAt c s ≠ [] := by
  rw [splitAt_eq, Ne, List.map_eq_nil_iff]
  exact List.splitOn_ne_nil c s.toList

/-- A text without the separator is its only piece. -/
theorem splitAt_of_not_mem (h : c ∉ s.toList) : splitAt c s = [s] := by
  rw [splitAt_eq, List.splitOn_eq_singleton h, List.map_singleton, String.ofList_toList]

/-- No piece contains the separator. -/
theorem not_mem_of_mem_splitAt {piece : String} (h : piece ∈ splitAt c s) : c ∉ piece.toList := by
  have hpieces : ∀ l : List Char, ∀ piece ∈ splitBy (· == c) l, c ∉ piece := by
    intro l
    induction l with
    | nil => simp [splitBy]
    | cons x xs ih =>
      unfold splitBy
      cases hx : x == c with
      | true => exact List.forall_mem_cons.mpr ⟨List.not_mem_nil, ih⟩
      | false =>
        have hne := splitBy_ne_nil (· == c) xs
        generalize splitBy (· == c) xs = pieces at ih hne ⊢
        obtain ⟨piece, rest, rfl⟩ := List.exists_cons_of_ne_nil hne
        obtain ⟨hpiece, hrest⟩ := List.forall_mem_cons.mp ih
        refine List.forall_mem_cons.mpr ⟨fun hmem => ?_, hrest⟩
        rcases List.mem_cons.mp hmem with rfl | hmem
        · simp at hx
        · exact hpiece hmem
  obtain ⟨l, hl, rfl⟩ := List.mem_map.mp h
  rw [String.toList_ofList]
  exact hpieces s.toList l hl

/-! ### Cutting at a mark -/

section Mark

variable {mark l before after : List α}

/-- A mark stands nowhere in itself without its last element. -/
theorem not_infix_dropLast (hmark : mark ≠ []) : ¬ mark <:+: mark.dropLast := by
  intro h
  have hle := h.length_le
  have hpos := List.length_pos_of_ne_nil hmark
  rw [List.length_dropLast] at hle
  omega

theorem append_dropLast_prefix (before mark after : List α) :
    before ++ mark.dropLast <+: before ++ (mark ++ after) :=
  (List.prefix_append_right_inj before).mpr
    ((List.dropLast_prefix mark).trans (List.prefix_append mark after))

variable [BEq α] [LawfulBEq α]

/-- A list is not cut exactly if the mark is nowhere in it. -/
theorem cutAt?_eq_none_iff (hmark : mark ≠ []) : cutAt? mark l = none ↔ ¬ mark <:+: l := by
  induction l with
  | nil => simp [cutAt?, hmark]
  | cons x xs ih =>
    rw [cutAt?, List.infix_cons_iff, ← List.isPrefixOf_iff_prefix]
    cases hstarts : mark.isPrefixOf (x :: xs) with
    | true => simp
    | false => simp [ih]

/-- A list is cut at the first mark. -/
theorem cutAt?_append (hmark : mark ≠ []) (h : ¬ mark <:+: before ++ mark.dropLast) :
    cutAt? mark (before ++ (mark ++ after)) = some (before, after) := by
  induction before with
  | nil =>
    obtain ⟨x, xs, rfl⟩ := List.exists_cons_of_ne_nil hmark
    rw [List.nil_append, List.cons_append, cutAt?]
    simp
  | cons x before ih =>
    rw [List.cons_append, List.infix_cons_iff] at h
    obtain ⟨hstarts, hinfix⟩ := not_or.mp h
    have hnot : mark.isPrefixOf (x :: (before ++ (mark ++ after))) = false := by
      rw [Bool.eq_false_iff, Ne, List.isPrefixOf_iff_prefix]
      intro hmore
      refine hstarts (List.prefix_of_prefix_length_le hmore
        (List.cons_prefix_cons.mpr ⟨rfl, append_dropLast_prefix before mark after⟩) ?_)
      rw [List.length_cons, List.length_append, List.length_dropLast]
      omega
    rw [List.cons_append, cutAt?, hnot, ih hinfix]
    rfl

/-- The two parts of a list that is cut have the first mark between them. -/
theorem cutAt?_eq_some_iff (hmark : mark ≠ []) : cutAt? mark l = some (before, after) ↔
    l = before ++ (mark ++ after) ∧ ¬ mark <:+: before ++ mark.dropLast := by
  refine ⟨fun hcut => ?_, fun ⟨hl, h⟩ => hl ▸ cutAt?_append hmark h⟩
  induction l generalizing before with
  | nil => simp [cutAt?, hmark] at hcut
  | cons x xs ih =>
    rw [cutAt?] at hcut
    cases hstarts : mark.isPrefixOf (x :: xs) with
    | true =>
      obtain ⟨rest, hrest⟩ := List.isPrefixOf_iff_prefix.mp hstarts
      rw [if_pos hstarts, ← hrest, List.drop_left] at hcut
      obtain ⟨rfl, rfl⟩ := Prod.mk.inj (Option.some.inj hcut)
      exact ⟨hrest.symm, not_infix_dropLast hmark⟩
    | false =>
      rw [if_neg (by simp [hstarts])] at hcut
      obtain ⟨⟨before, rest⟩, hrest, heq⟩ := Option.map_eq_some_iff.mp hcut
      obtain ⟨rfl, rfl⟩ := Prod.mk.inj heq
      obtain ⟨rfl, hinfix⟩ := ih hrest
      refine ⟨rfl, ?_⟩
      rw [List.cons_append, List.infix_cons_iff]
      rintro (hmore | hmore)
      · have hwhole := hmore.trans
          (List.cons_prefix_cons.mpr ⟨rfl, append_dropLast_prefix before mark rest⟩)
        rw [← List.isPrefixOf_iff_prefix, hstarts] at hwhole
        exact Bool.false_ne_true hwhole
      · exact hinfix hmore

end Mark

end Reconcile.Text
