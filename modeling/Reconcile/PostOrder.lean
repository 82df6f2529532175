/-!
# Depth-first post-order

A walk through a finite graph that lists every vertex after all of its successors, and otherwise in
the order in which the vertices and their successors are given. The walk stops at the first vertex
that it meets while it is still busy with it, and tells the cycle it has gone round.

* `postOrder` walks from every vertex of a list.
* `visit` walks from one vertex. Its bound on the depth is enough as long as it is not less than the
  number of vertices that are not on the way from the start; with the number of all vertices as a
  bound the walk never runs into it.
-/

namespace Reconcile.Graph

variable {α : Type} [DecidableEq α]

/-- The cycle that the way closes when it comes to a vertex on it once more. The last vertex of the
way comes first in the list; the cycle begins and ends with the repeated vertex. -/
def closedBy (way : List α) (v : α) : List α :=
  v :: (way.takeWhile fun w => ! decide (w = v)).reverse ++ [v]

/-- The walk from a vertex, given the way to it and the vertices that are listed already. -/
def visit (next : α → List α) (depth : Nat) (way order : List α) (v : α) :
    Except (List α) (List α) :=
  if v ∈ order then .ok order
  else if v ∈ way then .error (closedBy way v)
  else
    match depth with
    | 0 => .ok order
    | depth + 1 => ((next v).foldlM (visit next depth (v :: way)) order).map (· ++ [v])

/-- The vertices of a list and all that can be reached from them, each after its successors, or a
cycle. -/
def postOrder (next : α → List α) (vertices : List α) : Except (List α) (List α) :=
  vertices.foldlM (visit next vertices.length []) []

end Reconcile.Graph
