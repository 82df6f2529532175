import Reconcile.Proofs.Except
import Reconcile.Proofs.Graph.PostOrder

/-!
# The order in which the walk lists

A walk only adds to the end of its list, and only what it reaches (`Graph.exists_append_of_visit`).
Two things follow for the order of the vertices.

* A vertex that none of those before it reaches has to wait until the walk starts from it. What
  those before it reach comes first, then what it reaches itself, and then the vertex
  (`Graph.exists_split_postOrder`).
* Vertices that come after all of their successors already are listed as they stand
  (`Graph.postOrder_of_ordered`), and so they are if others follow
  (`Graph.exists_append_postOrder`).
-/

namespace Reconcile.Graph

open Relation

variable {α : Type} {next : α → List α} {depth : Nat} {v : α}
  {way order order' starts vertices before after : List α}

/-! ### What a walk adds -/

/-- What comes before the only place of an element is in the part before it. -/
theorem mem_of_pair_sublist {first last : List α} {v w : α} (hnodup : (first ++ w :: last).Nodup)
    (h : [v, w].Sublist (first ++ w :: last)) : v ∈ first := by
  obtain ⟨l₁, l₂, heq, h₁, h₂⟩ := List.sublist_append_iff.mp h
  cases l₁ with
  | nil =>
    obtain rfl : [v, w] = l₂ := heq
    have hw : w ∈ last := h₂.tail.subset (by simp)
    exact absurd hw (List.nodup_cons.mp (List.nodup_append.mp hnodup).2.1).1
  | cons u l₁ =>
    obtain ⟨rfl, -⟩ := List.cons.inj heq
    exact h₁.subset List.mem_cons_self

/-- Walks from several vertices add what is reached from them, if each walk does so. -/
theorem exists_append_of_foldlM {walk : List α → α → Except (List α) (List α)}
    (hwalk : ∀ v ∈ starts, ∀ order order', walk order v = .ok order' →
      ∃ new, order' = order ++ new ∧ ∀ w ∈ new, ReflTransGen (Edge next) v w)
    (h : starts.foldlM walk order = .ok order') :
    ∃ new, order' = order ++ new ∧ ∀ w ∈ new, ∃ v ∈ starts, ReflTransGen (Edge next) v w := by
  induction starts generalizing order with
  | nil =>
    cases h
    exact ⟨[], by simp, by simp⟩
  | cons v starts ih =>
    obtain ⟨hfirst, hrest⟩ := List.forall_mem_cons.mp hwalk
    rw [List.foldlM_cons] at h
    obtain ⟨order₁, hv, hstarts⟩ := exists_of_bind_eq_ok h
    obtain ⟨new₁, rfl, hnew₁⟩ := hfirst order order₁ hv
    obtain ⟨new₂, rfl, hnew₂⟩ := ih hrest hstarts
    refine ⟨new₁ ++ new₂, List.append_assoc .., fun w hw => ?_⟩
    rcases List.mem_append.mp hw with hw | hw
    · exact ⟨v, List.mem_cons_self, hnew₁ w hw⟩
    · obtain ⟨u, hu, hreach⟩ := hnew₂ w hw
      exact ⟨u, List.mem_cons_of_mem v hu, hreach⟩

variable [DecidableEq α]

/-- A walk from one vertex adds what is reached from it. By induction on the depth. -/
theorem exists_append_of_visit (h : visit next depth way order v = .ok order') :
    ∃ new, order' = order ++ new ∧ ∀ w ∈ new, ReflTransGen (Edge next) v w := by
  induction depth generalizing way order order' v with
  | zero =>
    unfold visit at h
    split_ifs at h <;> cases h <;> exact ⟨[], by simp, by simp⟩
  | succ depth ih =>
    unfold visit at h
    split_ifs at h
    · cases h
      exact ⟨[], by simp, by simp⟩
    · obtain ⟨order₁, hsuccessors, rfl⟩ := exists_of_map_eq_ok h
      obtain ⟨new, rfl, hnew⟩ := exists_append_of_foldlM (fun _ _ _ _ hu => ih hu) hsuccessors
      refine ⟨new ++ [v], List.append_assoc .., fun w hw => ?_⟩
      rcases List.mem_append.mp hw with hw | hw
      · obtain ⟨u, hu, hreach⟩ := hnew w hw
        exact .head hu hreach
      · rw [List.mem_singleton.mp hw]

/-- **The place of a vertex** that none of those before it reaches: after all that they reach, and
after what it reaches itself. -/
theorem exists_split_postOrder
    (hnext : ∀ u ∈ before ++ v :: after, ∀ w ∈ next u, w ∈ before ++ v :: after)
    (h : postOrder next (before ++ v :: after) = .ok order)
    (hapart : ∀ u ∈ before, ¬ ReflTransGen (Edge next) u v) :
    ∃ first own last, order = first ++ own ++ v :: last ∧
      (∀ w, w ∈ first ↔ ∃ u ∈ before, ReflTransGen (Edge next) u w) ∧
      ∀ w ∈ own, ReflTransGen (Edge next) v w := by
  obtain ⟨depth, hdepth⟩ : ∃ depth, (before ++ v :: after).length = depth + 1 :=
    ⟨before.length + after.length, by simp; omega⟩
  have hbefore : Walked next (before ++ v :: after) [] [] before
      (before.foldlM (visit next (before ++ v :: after).length []) []) :=
    walked_starts hnext fun u hu => List.mem_append_left _ hu
  unfold postOrder at h
  rw [List.foldlM_append] at h
  obtain ⟨first, hfirst, hothers⟩ := exists_of_bind_eq_ok h
  rw [List.foldlM_cons] at hothers
  obtain ⟨order', hv, hafter⟩ := exists_of_bind_eq_ok hothers
  rw [hfirst] at hbefore
  obtain ⟨hlisted, -, hmem⟩ := hbefore
  have hiff : ∀ w, w ∈ first ↔ ∃ u ∈ before, ReflTransGen (Edge next) u w := by
    intro w
    constructor
    · intro hw
      obtain ⟨new, hnew, hreached⟩ :=
        exists_append_of_foldlM (fun _ _ _ _ hu => exists_append_of_visit hu) hfirst
      rw [List.nil_append] at hnew
      exact hreached w (hnew ▸ hw)
    · rintro ⟨u, hu, hreach⟩
      exact hlisted.ordered.mem_of_reach (hmem u hu) hreach
  have hv_new : v ∉ first := by
    intro hmem
    obtain ⟨u, hu, hreach⟩ := (hiff v).mp hmem
    exact hapart u hu hreach
  rw [hdepth, visit_of_new hv_new List.not_mem_nil] at hv
  obtain ⟨order₁, hsuccessors, rfl⟩ := exists_of_map_eq_ok hv
  obtain ⟨own, rfl, hown⟩ :=
    exists_append_of_foldlM (fun _ _ _ _ hu => exists_append_of_visit hu) hsuccessors
  obtain ⟨last, rfl, -⟩ :=
    exists_append_of_foldlM (fun _ _ _ _ hu => exists_append_of_visit hu) hafter
  refine ⟨first, own, last, by simp, hiff, fun w hw => ?_⟩
  obtain ⟨u, hu, hreach⟩ := hown w hw
  exact .head hu hreach

/-! ### Vertices that are in order -/

/-- A walk from vertices that are all listed adds nothing. -/
theorem foldlM_visit_of_mem (h : ∀ v ∈ starts, v ∈ order) :
    starts.foldlM (visit next depth way) order = .ok order := by
  induction starts with
  | nil => rfl
  | cons v starts ih =>
    obtain ⟨hv, hstarts⟩ := List.forall_mem_cons.mp h
    have hvisit : visit next depth way order v = .ok order := by
      unfold visit
      rw [if_pos hv]
    rw [List.foldlM_cons, hvisit]
    exact ih hstarts

theorem foldlM_visit_of_ordered (h : Ordered next vertices) (depth : Nat) :
    vertices.foldlM (visit next (depth + 1) []) [] = .ok vertices := by
  induction h with
  | nil => rfl
  | @snoc order v _ hnew hnext ih =>
    have hvisit : visit next (depth + 1) [] order v = .ok (order ++ [v]) := by
      rw [visit_of_new hnew List.not_mem_nil, foldlM_visit_of_mem hnext]
      rfl
    rw [List.foldlM_append, ih]
    change [v].foldlM (visit next (depth + 1) []) order = .ok (order ++ [v])
    rw [List.foldlM_cons, hvisit]
    rfl

/-- **Stability**: vertices that come after their successors are listed as they stand. -/
theorem postOrder_of_ordered (h : Ordered next vertices) :
    postOrder next vertices = .ok vertices := by
  cases vertices with
  | nil => rfl
  | cons v rest => exact foldlM_visit_of_ordered h rest.length

/-- Vertices that come after their successors are listed first if the walk starts from them. -/
theorem exists_append_postOrder (h : Ordered next before)
    (hpost : postOrder next (before ++ after) = .ok order) : ∃ rest, order = before ++ rest := by
  cases before with
  | nil => exact ⟨order, rfl⟩
  | cons v rest =>
    unfold postOrder at hpost
    rw [List.foldlM_append, List.length_append, List.length_cons, Nat.add_right_comm,
      foldlM_visit_of_ordered h] at hpost
    obtain ⟨new, hnew, -⟩ :=
      exists_append_of_foldlM (fun _ _ _ _ hu => exists_append_of_visit hu) hpost
    exact ⟨new, hnew⟩

/-- Numbers are in order if each one has smaller successors only. -/
theorem ordered_range {next : Nat → List Nat} {n : Nat} (h : ∀ i < n, ∀ j, Edge next i j → j < i) :
    Ordered next (List.range n) := by
  induction n with
  | zero => exact .nil
  | succ n ih =>
    rw [List.range_succ]
    exact (ih fun i hi => h i (Nat.lt_succ_of_lt hi)).snoc List.not_mem_range_self
      fun j hj => List.mem_range.mpr (h n n.lt_succ_self j hj)

end Reconcile.Graph
