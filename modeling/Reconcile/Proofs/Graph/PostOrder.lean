import Mathlib.Data.List.Chain
import Mathlib.Data.List.Nodup
import Mathlib.Data.List.Perm.Subperm
import Mathlib.Data.List.TakeWhile
import Reconcile.PostOrder

/-!
# What the depth-first walk finds

The walk through a finite graph ends in one of two ways (`Graph.walked_postOrder`):

* **It lists every vertex once, after all of its successors** (`Graph.Ordered`). Such a list is a
  witness that no vertex reaches itself: the successors of its first part are in the first part, so
  that whoever leaves a vertex stays among those listed before it (`Graph.Ordered.acyclic`,
  `Graph.Ordered.pairwise`).
* **It stops with a cycle** (`Graph.IsCycle`), a way along edges that ends where it begins and
  repeats no other vertex. So the walk stops only if there is a cycle, and since a list excludes
  cycles, it stops whenever there is one (`Graph.postOrder_error_iff`).

What a walk keeps is said apart for the way to the current vertex (`Graph.Way`) and for the vertices
that are listed (`Graph.Listed`). Both belong together in that no vertex on the way is listed, so a
vertex is on the way exactly while the walk is busy with it. The bound on the depth is part of the
way: the vertices that may still be met are those not on the way, so the walk never runs into it.
-/

namespace Reconcile.Graph

open Relation

variable {α : Type}

/-- The edges of a graph that is given by the successors of its vertices. -/
def Edge (next : α → List α) (v w : α) : Prop := w ∈ next v

/-! ### Orders -/

/-- Every vertex of the list comes once, and after all of its successors. -/
inductive Ordered (next : α → List α) : List α → Prop
  | nil : Ordered next []
  | snoc {order : List α} {v : α} (horder : Ordered next order) (hnew : v ∉ order)
      (hnext : ∀ w ∈ next v, w ∈ order) : Ordered next (order ++ [v])

namespace Ordered

variable {next : α → List α} {order : List α} {v w : α}

theorem nodup (h : Ordered next order) : order.Nodup := by
  induction h with
  | nil => exact List.nodup_nil
  | snoc _ hnew _ ih =>
    refine List.nodup_append.mpr ⟨ih, List.nodup_singleton _, fun a ha b hb heq => ?_⟩
    rw [heq, List.mem_singleton.mp hb] at ha
    exact hnew ha

/-- The successors of a listed vertex are listed. -/
theorem mem_of_edge (h : Ordered next order) (hv : v ∈ order) (hw : Edge next v w) :
    w ∈ order := by
  induction h with
  | nil => exact absurd hv List.not_mem_nil
  | snoc _ _ hnext ih =>
    refine List.mem_append_left _ ?_
    rcases List.mem_append.mp hv with hv | hv
    · exact ih hv
    · rw [List.mem_singleton.mp hv] at hw
      exact hnext w hw

/-- All that can be reached from a listed vertex is listed. -/
theorem mem_of_reach (h : Ordered next order) (hv : v ∈ order)
    (hw : ReflTransGen (Edge next) v w) : w ∈ order := by
  induction hw with
  | refl => exact hv
  | tail _ hedge ih => exact h.mem_of_edge ih hedge

/-- No listed vertex reaches itself: its successors are listed before it, and with them all that
they reach. -/
theorem acyclic (h : Ordered next order) (hv : v ∈ order) : ¬ TransGen (Edge next) v v := by
  induction h with
  | nil => exact absurd hv List.not_mem_nil
  | snoc horder hnew hnext ih =>
    rcases List.mem_append.mp hv with hv | hv
    · exact ih hv
    · intro hcycle
      obtain rfl := List.mem_singleton.mp hv
      obtain ⟨w, hw, hback⟩ := TransGen.head'_iff.mp hcycle
      exact hnew (horder.mem_of_reach (hnext w hw) hback)

/-- No listed vertex reaches one that is listed later. -/
theorem pairwise (h : Ordered next order) :
    order.Pairwise fun v w => ¬ TransGen (Edge next) v w := by
  induction h with
  | nil => exact List.Pairwise.nil
  | snoc horder hnew _ ih =>
    refine List.pairwise_append.mpr ⟨ih, List.pairwise_singleton _ _, fun v hv w hw hreach => ?_⟩
    rw [List.mem_singleton.mp hw] at hreach
    exact hnew (horder.mem_of_reach hv hreach.to_reflTransGen)

/-- The successors of a vertex are at smaller places of the list. -/
theorem exists_lt_of_edge {i : Nat} (h : Ordered next order) (hv : order[i]? = some v)
    (hw : Edge next v w) : ∃ j < i, order[j]? = some w := by
  induction h with
  | nil => cases hv
  | @snoc order u _ _ hnext ih =>
    have hfirst : ∀ {j w}, order[j]? = some w → (order ++ [u])[j]? = some w := fun hj => by
      rwa [List.getElem?_append_left (List.getElem?_eq_some_iff.mp hj).1]
    rcases Nat.lt_or_ge i order.length with hlt | hge
    · rw [List.getElem?_append_left hlt] at hv
      obtain ⟨j, hji, hj⟩ := ih hv
      exact ⟨j, hji, hfirst hj⟩
    · -- the vertex is the last one
      obtain ⟨hi, rfl⟩ : i - order.length = 0 ∧ u = v := by
        rw [List.getElem?_append_right hge, List.getElem?_singleton] at hv
        split_ifs at hv with hi
        exact ⟨hi, Option.some.inj hv⟩
      obtain ⟨j, hj⟩ := List.mem_iff_getElem?.mp (hnext w hw)
      have hlt := (List.getElem?_eq_some_iff.mp hj).1
      exact ⟨j, Nat.lt_of_lt_of_le hlt hge, hfirst hj⟩

end Ordered

/-! ### Cycles -/

/-- The list goes along edges from a vertex back to it and repeats no other vertex. -/
def IsCycle (next : α → List α) (cycle : List α) : Prop :=
  ∃ v path, cycle = v :: path ++ [v] ∧ (v :: path).Nodup ∧ cycle.IsChain (Edge next)

/-- The first element of a chain reaches the last one. -/
theorem transGen_of_isChain {r : α → α → Prop} {v w : α} {path : List α}
    (h : (v :: path ++ [w]).IsChain r) : TransGen r v w := by
  induction path generalizing v with
  | nil => exact .single (List.isChain_pair.mp h)
  | cons u path ih =>
    obtain ⟨hedge, hrest⟩ := List.isChain_cons_cons.mp h
    exact .head hedge (ih hrest)

/-- A way that comes once more to a vertex on it goes round a cycle. -/
theorem isCycle_closedBy [DecidableEq α] {next : α → List α} {way : List α} {v : α}
    (hnodup : way.Nodup) (hchain : (v :: way).IsChain fun w u => Edge next u w) (hv : v ∈ way) :
    IsCycle next (closedBy way v) := by
  -- what came after the vertex on the way, with the last one first
  let after := way.takeWhile fun w => ! decide (w = v)
  obtain ⟨before, hway⟩ : ∃ before, way = after ++ v :: before := by
    have hsplit := List.takeWhile_append_dropWhile (p := fun w => ! decide (w = v)) (l := way)
    cases hrest : way.dropWhile fun w => ! decide (w = v) with
    | nil =>
      rw [hrest, List.append_nil] at hsplit
      rw [← hsplit] at hv
      simpa using List.mem_takeWhile_imp hv
    | cons u before =>
      have hhead := List.head?_dropWhile_not (fun w => ! decide (w = v)) way
      rw [hrest] at hhead
      obtain rfl : u = v := by simpa using hhead
      rw [hrest] at hsplit
      exact ⟨before, hsplit.symm⟩
  refine ⟨v, after.reverse, rfl, ?_, ?_⟩
  · rw [hway] at hnodup
    have hparts := List.nodup_append.mp hnodup
    refine List.nodup_cons.mpr ⟨fun hmem => ?_, List.nodup_reverse.mpr hparts.1⟩
    exact hparts.2.2 v (List.mem_reverse.mp hmem) v List.mem_cons_self rfl
  · rw [hway] at hchain
    have hround : (v :: after ++ [v]).IsChain fun w u => Edge next u w :=
      hchain.prefix ⟨before, by simp⟩
    have hreverse : closedBy way v = (v :: after ++ [v]).reverse := by simp [closedBy, after]
    rw [hreverse]
    exact List.isChain_reverse.mpr hround

/-! ### The walk -/

/-- The way from a start to the current vertex, the last vertex first. The walk may still go as
deep as there are vertices that are not on the way. -/
structure Way (next : α → List α) (vertices : List α) (depth : Nat) (way : List α) : Prop where
  nodup : way.Nodup
  known : ∀ v ∈ way, v ∈ vertices
  chain : way.IsChain fun w u => Edge next u w
  deep : vertices.length ≤ depth + way.length

/-- The vertices that have been listed while the walk is busy with those on the way. -/
structure Listed (next : α → List α) (vertices way order : List α) : Prop where
  ordered : Ordered next order
  known : ∀ v ∈ order, v ∈ vertices
  apart : ∀ v ∈ way, v ∉ order

/-- **The outcome of a walk** from some vertices, with what was listed before: they are listed as
well, or the walk has gone round a cycle. -/
def Walked (next : α → List α) (vertices way order starts : List α) :
    Except (List α) (List α) → Prop
  | .ok order' => Listed next vertices way order' ∧ (∀ v ∈ order, v ∈ order') ∧
      ∀ v ∈ starts, v ∈ order'
  | .error cycle => IsCycle next cycle ∧ ∀ v ∈ cycle, v ∈ vertices

variable {next : α → List α} {vertices way order starts : List α} {depth : Nat} {v : α}

/-- Walks from several vertices, one after the other, each of which goes on with what the others
have listed. -/
theorem walked_foldlM {walk : List α → α → Except (List α) (List α)}
    (hwalk : ∀ v ∈ starts, ∀ order, Listed next vertices way order →
      Walked next vertices way order [v] (walk order v))
    (hlisted : Listed next vertices way order) :
    Walked next vertices way order starts (starts.foldlM walk order) := by
  induction starts generalizing order with
  | nil => exact ⟨hlisted, fun _ hv => hv, fun v hv => absurd hv List.not_mem_nil⟩
  | cons v starts ih =>
    obtain ⟨hfirst, hrest⟩ := List.forall_mem_cons.mp hwalk
    have hv := hfirst order hlisted
    rw [List.foldlM_cons]
    cases hfound : walk order v with
    | error cycle =>
      rw [hfound] at hv
      exact hv
    | ok order₁ =>
      rw [hfound] at hv
      obtain ⟨hlisted₁, hkept, hmem⟩ := hv
      have hothers := ih hrest hlisted₁
      change Walked next vertices way order (v :: starts) (starts.foldlM walk order₁)
      cases hend : starts.foldlM walk order₁ with
      | error cycle =>
        rw [hend] at hothers
        exact hothers
      | ok order₂ =>
        rw [hend] at hothers
        obtain ⟨hlisted₂, hkept₂, hmem₂⟩ := hothers
        exact ⟨hlisted₂, fun w hw => hkept₂ w (hkept w hw),
          List.forall_mem_cons.mpr ⟨hkept₂ v (hmem v List.mem_cons_self), hmem₂⟩⟩

/-- A vertex that is not on the way can be put on it: the bound leaves room for it. -/
theorem Way.cons (hway : Way next vertices depth way) (hv : v ∈ vertices) (hnew : v ∉ way)
    (hstep : ∀ u ∈ way.head?, Edge next u v) :
    ∃ depth', depth = depth' + 1 ∧ Way next vertices depth' (v :: way) := by
  have hnodup : (v :: way).Nodup := List.nodup_cons.mpr ⟨hnew, hway.nodup⟩
  have hknown : ∀ u ∈ v :: way, u ∈ vertices := List.forall_mem_cons.mpr ⟨hv, hway.known⟩
  have hroom := (List.subperm_of_subset hnodup hknown).length_le
  have hdeep := hway.deep
  rw [List.length_cons] at hroom
  refine ⟨depth - 1, by omega, hnodup, hknown, hway.chain.cons hstep, ?_⟩
  rw [List.length_cons]
  omega

variable [DecidableEq α]

/-- A walk that comes to a vertex that is listed or on the way is over at once. -/
theorem walked_visit_of_mem (hway : Way next vertices depth way)
    (hlisted : Listed next vertices way order) (hstep : ∀ u ∈ way.head?, Edge next u v)
    (hv : v ∈ order ∨ v ∈ way) :
    Walked next vertices way order [v] (visit next depth way order v) := by
  unfold visit
  split_ifs with hdone hbusy
  · exact ⟨hlisted, fun _ hw => hw, fun w hw => List.mem_singleton.mp hw ▸ hdone⟩
  · refine ⟨isCycle_closedBy hway.nodup (hway.chain.cons hstep) hbusy, fun w hw => ?_⟩
    refine hway.known w ?_
    simp only [closedBy, List.cons_append, List.mem_cons, List.mem_append, List.mem_reverse,
      List.not_mem_nil, or_false] at hw
    rcases hw with rfl | hw | rfl
    · exact hbusy
    · exact (List.takeWhile_prefix _).subset hw
    · exact hbusy
  · exact absurd hv (not_or_intro hdone hbusy)

/-- A walk that comes to a new vertex walks from its successors, and then lists the vertex. -/
theorem visit_of_new (hdone : v ∉ order) (hbusy : v ∉ way) :
    visit next (depth + 1) way order v =
      ((next v).foldlM (visit next depth (v :: way)) order).map (· ++ [v]) := by
  rw [visit, if_neg hdone, if_neg hbusy]

/-- **The walk from one vertex.** By induction on the depth; the successors are walked from with
the vertex on the way, so that they list everything but the vertex itself. -/
theorem walked_visit (hnext : ∀ u ∈ vertices, ∀ w ∈ next u, w ∈ vertices)
    (hway : Way next vertices depth way) (hlisted : Listed next vertices way order)
    (hv : v ∈ vertices) (hstep : ∀ u ∈ way.head?, Edge next u v) :
    Walked next vertices way order [v] (visit next depth way order v) := by
  induction depth generalizing way order v with
  | zero =>
    by_cases hmem : v ∈ order ∨ v ∈ way
    · exact walked_visit_of_mem hway hlisted hstep hmem
    · -- the bound leaves room for a vertex that is not on the way
      obtain ⟨depth, hdepth, -⟩ := hway.cons hv (not_or.mp hmem).2 hstep
      exact absurd hdepth (Nat.succ_ne_zero depth).symm
  | succ depth ih =>
    by_cases hmem : v ∈ order ∨ v ∈ way
    · exact walked_visit_of_mem hway hlisted hstep hmem
    obtain ⟨hdone, hbusy⟩ := not_or.mp hmem
    obtain ⟨depth', hdepth, hway'⟩ := hway.cons hv hbusy hstep
    obtain rfl := Nat.succ.inj hdepth
    have hlisted' : Listed next vertices (v :: way) order :=
      ⟨hlisted.ordered, hlisted.known, List.forall_mem_cons.mpr ⟨hdone, hlisted.apart⟩⟩
    have hsuccessors : Walked next vertices (v :: way) order (next v)
        ((next v).foldlM (visit next depth (v :: way)) order) := by
      refine walked_foldlM (fun w hw order hlisted => ?_) hlisted'
      refine ih hway' hlisted (hnext v hv w hw) fun u hu => ?_
      cases hu
      exact hw
    rw [visit_of_new hdone hbusy]
    cases hend : (next v).foldlM (visit next depth (v :: way)) order with
    | error cycle =>
      rw [hend] at hsuccessors
      exact hsuccessors
    | ok order' =>
      rw [hend] at hsuccessors
      obtain ⟨hlisted', hkept, hmem⟩ := hsuccessors
      obtain ⟨hnew, hapart⟩ := List.forall_mem_cons.mp hlisted'.apart
      refine ⟨⟨hlisted'.ordered.snoc hnew hmem, fun w hw => ?_, fun w hw hw' => ?_⟩,
        fun w hw => List.mem_append_left _ (hkept w hw), fun w hw => List.mem_append_right _ hw⟩
      · rcases List.mem_append.mp hw with hw | hw
        · exact hlisted'.known w hw
        · exact List.mem_singleton.mp hw ▸ hv
      · rcases List.mem_append.mp hw' with hw' | hw'
        · exact hapart w hw hw'
        · exact hbusy (List.mem_singleton.mp hw' ▸ hw)

/-- Walks from some of the vertices, one after the other. -/
theorem walked_starts (hnext : ∀ u ∈ vertices, ∀ w ∈ next u, w ∈ vertices)
    (hstarts : ∀ v ∈ starts, v ∈ vertices) :
    Walked next vertices [] [] starts (starts.foldlM (visit next vertices.length []) []) := by
  have hway : Way next vertices vertices.length [] :=
    ⟨List.nodup_nil, fun v hv => absurd hv List.not_mem_nil, .nil, Nat.le_refl _⟩
  have hlisted : Listed next vertices [] [] :=
    ⟨.nil, fun v hv => absurd hv List.not_mem_nil, fun v hv => absurd hv List.not_mem_nil⟩
  exact walked_foldlM
    (fun v hv order hlisted => walked_visit hnext hway hlisted (hstarts v hv) nofun) hlisted

/-- **The walk through a whole graph** lists exactly the vertices, each after its successors, or it
goes round a cycle. -/
theorem walked_postOrder (hnext : ∀ u ∈ vertices, ∀ w ∈ next u, w ∈ vertices) :
    Walked next vertices [] [] vertices (postOrder next vertices) :=
  walked_starts hnext fun _ hv => hv

/-- The list of a walk that succeeds is ordered and has the same members as the vertices. -/
theorem postOrder_ok (hnext : ∀ u ∈ vertices, ∀ w ∈ next u, w ∈ vertices)
    (h : postOrder next vertices = .ok order) :
    Ordered next order ∧ ∀ v, v ∈ order ↔ v ∈ vertices := by
  have hwalked := walked_postOrder hnext
  rw [h] at hwalked
  obtain ⟨hlisted, -, hmem⟩ := hwalked
  exact ⟨hlisted.ordered, fun v => ⟨hlisted.known v, hmem v⟩⟩

/-- A walk that fails has gone round a cycle of vertices. -/
theorem postOrder_error (hnext : ∀ u ∈ vertices, ∀ w ∈ next u, w ∈ vertices) {cycle : List α}
    (h : postOrder next vertices = .error cycle) :
    IsCycle next cycle ∧ ∀ v ∈ cycle, v ∈ vertices := by
  have hwalked := walked_postOrder hnext
  rw [h] at hwalked
  exact hwalked

/-- A walk fails exactly if a vertex reaches itself. -/
theorem postOrder_error_iff (hnext : ∀ u ∈ vertices, ∀ w ∈ next u, w ∈ vertices) :
    (∃ cycle, postOrder next vertices = .error cycle) ↔
      ∃ v ∈ vertices, TransGen (Edge next) v v := by
  constructor
  · rintro ⟨cycle, h⟩
    obtain ⟨⟨v, path, rfl, -, hchain⟩, hknown⟩ := postOrder_error hnext h
    exact ⟨v, hknown v List.mem_cons_self, transGen_of_isChain hchain⟩
  · rintro ⟨v, hv, hreach⟩
    cases h : postOrder next vertices with
    | error cycle => exact ⟨cycle, rfl⟩
    | ok order =>
      obtain ⟨hordered, hmem⟩ := postOrder_ok hnext h
      exact absurd hreach (hordered.acyclic ((hmem v).mpr hv))

end Reconcile.Graph
