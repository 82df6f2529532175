import Reconcile.Module.Plan
import Reconcile.Proofs.Except
import Reconcile.Proofs.Module.Order
import Reconcile.Proofs.Module.Registry

/-!
# Modules and all that they depend on

A registry knows all that its modules depend on, so no look-up of a dependency fails
(`Registry.Holds.dependenciesOf_eq`), and modules of a registry do not depend on each other in a
circle, whichever of them are taken (`Registry.Holds.acyclic_dependsOn`).

The modules that others need are collected with a list of modules that are still to be looked at
(`Registry.Attaching`). Every module is taken once, and its dependencies are put on the list then.
So the list runs empty within the bound, and what has been collected by then are the modules of the
start and all that they depend on (`Registry.Holds.closure_eq`).
-/

namespace Reconcile

open Relation

variable {μ : Type} {settings : Settings} {log l start selected pending : List (Module μ)}
  {m n : Module μ}

namespace Registry

variable {r : Registry μ} {text d : String}

/-- The log of a registry after calls, whether they fail or not. -/
theorem exists_holds_run (settings : Settings) (calls : List (Call μ)) :
    ∃ log, ((empty settings).run calls).Holds settings log := by
  obtain ⟨log, hlog, -⟩ := (logged_empty settings fun _ => True).run
    (fun d (_ : .define d ∈ calls) => trivial) fun _ _ => trivial
  exact ⟨log, hlog⟩

/-! ### Looking modules up -/

namespace Holds

theorem mem_of_find? (h : r.Holds settings log) (hfind : r.find? text = some m) : m ∈ log := by
  unfold find? at hfind
  cases hget : r.get? text with
  | some n =>
    rw [hget] at hfind
    obtain rfl := Option.some.inj hfind
    exact ((h.get?_iff _ _).mp hget).1
  | none =>
    simp only [hget] at hfind
    split_ifs at hfind
    exact h.listed_eq ▸ List.mem_of_find?_eq_some hfind

theorem find?_eq_some_iff (h : r.Holds settings log) (hd : isBareName d = false) :
    r.find? d = some m ↔ m ∈ log ∧ m.key = d := by
  rw [find?_of_versioned hd, h.get?_iff]

theorem find?_key (h : r.Holds settings log) (hm : m ∈ log) : r.find? m.key = some m :=
  (h.find?_eq_some_iff (isBareName_moduleKey _ _)).mpr ⟨hm, rfl⟩

theorem requires_iff (h : r.Holds settings log) (hm : m ∈ log) :
    r.Requires m.key d ↔ d ∈ m.dependencies := by
  constructor
  · rintro ⟨n, hget, hd⟩
    obtain ⟨hn, hkey⟩ := (h.get?_iff _ _).mp hget
    exact h.registrable.key_inj hn hm hkey ▸ hd
  · exact fun hd => ⟨m, (h.get?_iff _ _).mpr ⟨hm, rfl⟩, hd⟩

/-- All dependencies of a registered module are found. -/
theorem dependenciesOf_eq (h : r.Holds settings log) (hm : m ∈ log) :
    r.dependenciesOf m = .ok (m.dependencies.filterMap r.find?) := by
  refine mapM_of_found fun d hd => ?_
  obtain ⟨n, hn, rfl⟩ := h.registrable.exists_dependency hm hd
  exact ⟨n, h.find?_key hn, by rw [h.find?_key hn]⟩

theorem mem_dependenciesOf_iff (h : r.Holds settings log) (hm : m ∈ log) :
    n ∈ m.dependencies.filterMap r.find? ↔ n ∈ log ∧ n.key ∈ m.dependencies := by
  rw [List.mem_filterMap]
  constructor
  · rintro ⟨d, hd, hfind⟩
    have hversioned := (h.registrable.checked hm).versioned d hd
    obtain ⟨hn, rfl⟩ := (h.find?_eq_some_iff hversioned).mp hfind
    exact ⟨hn, hd⟩
  · rintro ⟨hn, hd⟩
    exact ⟨n.key, hd, h.find?_key hn⟩

end Holds

/-! ### Some of the modules -/

theorem Holds.pinned (h : r.Holds settings log) (hl : ∀ m ∈ l, m ∈ log) :
    ModuleNode.Pinned l where
  versioned m hm := (h.registrable.checked (hl m hm)).versioned
  key_inj m hm n hn := h.registrable.key_inj (hl m hm) (hl n hn)

theorem Holds.dependsOn_iff (h : r.Holds settings log) (hl : ∀ m ∈ l, m ∈ log) (hm : m ∈ l) :
    ModuleNode.DependsOn l m n ↔ n ∈ l ∧ n.key ∈ m.dependencies :=
  (h.pinned hl).dependsOn_iff hm

/-- Modules that are registered do not depend on each other in a circle. -/
theorem Holds.acyclic_dependsOn (h : r.Holds settings log) (hl : ∀ m ∈ l, m ∈ log)
    (m : Module μ) : ¬ TransGen (ModuleNode.DependsOn l) m m := by
  have hrequires : ∀ n, m ∈ l → TransGen (ModuleNode.DependsOn l) m n →
      TransGen r.Requires m.key n.key := by
    intro n hm hreach
    induction hreach with
    | single hdepends =>
      obtain ⟨-, hd⟩ := (h.dependsOn_iff hl hm).mp hdepends
      exact .single ((h.requires_iff (hl m hm)).mpr hd)
    | @tail n l' hreach hdepends ih =>
      obtain ⟨_, -, hlast⟩ := TransGen.tail'_iff.mp hreach
      obtain ⟨-, hd⟩ := (h.dependsOn_iff hl hlast.mem).mp hdepends
      exact ih.tail ((h.requires_iff (hl n hlast.mem)).mpr hd)
  intro hcycle
  obtain ⟨_, -, hlast⟩ := TransGen.tail'_iff.mp hcycle
  exact h.acyclic m.key (hrequires m hlast.mem hcycle)

/-- Modules in the order of their registration are sorted already. -/
theorem Holds.sort_of_sublist (h : r.Holds settings log) (hl : l.Sublist log)
    (leftOut : List String) :
    ModuleNode.sort l leftOut = .ok (l.filter fun m => ! ModuleNode.isIn m leftOut) := by
  have hmem : ∀ m ∈ l, m ∈ log := fun m hm => hl.subset hm
  refine ModuleNode.sort_of_pairwise (fun m hm hself => ?_) ?_ leftOut
  · exact h.registrable.key_not_mem (hmem m hm) ((h.dependsOn_iff hmem hm).mp hself).2
  · refine (h.registrable.pairwise.sublist hl).imp_of_mem fun hm _ hlater hdepends => ?_
    exact hlater ((h.dependsOn_iff hmem hm).mp hdepends).2

/-! ### Collecting modules -/

theorem contains_iff_key : contains l m = true ↔ ∃ n ∈ l, n.key = m.key := by
  simp [contains, List.any_eq_true]

theorem Holds.contains_iff (h : r.Holds settings log) (hl : ∀ m ∈ l, m ∈ log) (hm : m ∈ log) :
    contains l m = true ↔ m ∈ l := by
  rw [contains_iff_key]
  constructor
  · rintro ⟨n, hn, hkey⟩
    exact h.registrable.key_inj (hl n hn) hm hkey ▸ hn
  · exact fun hmem => ⟨m, hmem, rfl⟩

/-- **Collecting modules**: what has been selected so far, and what is still to be looked at. -/
structure Attaching (r : Registry μ) (log start selected pending : List (Module μ)) : Prop where
  known : ∀ m ∈ selected ++ pending, m ∈ log
  reached : ∀ m ∈ selected ++ pending, ∃ n ∈ start, ReflTransGen r.Requires n.key m.key
  started : ∀ m ∈ start, m ∈ selected ++ pending
  /-- What a selected module depends on is not forgotten. -/
  closed : ∀ m ∈ selected, ∀ n ∈ log, n.key ∈ m.dependencies → n ∈ selected ++ pending

/-- How many modules will still be looked at, at most: those that are pending, and each dependency
of each module that is not selected. -/
def openWork (log selected pending : List (Module μ)) : Nat :=
  pending.length +
    ((log.filter fun m => ! contains selected m).flatMap Module.dependencies).length

namespace Attaching

/-- A module that is selected already is passed over. -/
theorem skip (h : r.Attaching log start selected (m :: pending)) (hm : m ∈ selected) :
    r.Attaching log start selected pending := by
  have hmem : ∀ n, n ∈ selected ++ m :: pending ↔ n ∈ selected ++ pending := by
    intro n
    simp only [List.mem_append, List.mem_cons]
    constructor
    · rintro (hn | rfl | hn)
      · exact Or.inl hn
      · exact Or.inl hm
      · exact Or.inr hn
    · rintro (hn | hn)
      · exact Or.inl hn
      · exact Or.inr (Or.inr hn)
  obtain ⟨hknown, hreached, hstarted, hclosed⟩ := h
  simp only [hmem] at hknown hreached hstarted hclosed
  exact ⟨hknown, hreached, hstarted, hclosed⟩

/-- A module is selected, and all that it depends on is to be looked at. -/
theorem take (h : r.Attaching log start selected (m :: pending)) (hr : r.Holds settings log) :
    r.Attaching log start (selected ++ [m])
      ((m.dependencies.filterMap r.find?).reverse ++ pending) := by
  have hm : m ∈ log := h.known m (List.mem_append_right _ List.mem_cons_self)
  have hmem : ∀ n, n ∈ selected ++ [m] ++ ((m.dependencies.filterMap r.find?).reverse ++ pending) ↔
      n ∈ selected ++ m :: pending ∨ (n ∈ log ∧ n.key ∈ m.dependencies) := by
    intro n
    rw [← hr.mem_dependenciesOf_iff hm]
    simp only [List.mem_append, List.mem_cons, List.mem_reverse, List.not_mem_nil, or_false]
    tauto
  refine ⟨fun n hn => ?_, fun n hn => ?_, fun n hn => ?_, fun l hl n hn hd => ?_⟩
  · rcases (hmem n).mp hn with hn | ⟨hn, -⟩
    · exact h.known n hn
    · exact hn
  · rcases (hmem n).mp hn with hn | ⟨-, hd⟩
    · exact h.reached n hn
    · obtain ⟨s, hs, hreach⟩ := h.reached m (List.mem_append_right _ List.mem_cons_self)
      exact ⟨s, hs, hreach.tail ((hr.requires_iff hm).mpr hd)⟩
  · exact (hmem n).mpr (Or.inl (h.started n hn))
  · rcases List.mem_append.mp hl with hl | hl
    · exact (hmem n).mpr (Or.inl (h.closed l hl n hn hd))
    · rw [List.mem_singleton.mp hl] at hd
      exact (hmem n).mpr (Or.inr ⟨hn, hd⟩)

end Attaching

/-- Selecting a module makes no difference to modules of other keys. -/
theorem filter_contains_snoc (hm : m.key ∉ l.map Module.key) (selected : List (Module μ)) :
    (l.filter fun n => ! contains (selected ++ [m]) n) =
      l.filter fun n => ! contains selected n := by
  refine List.filter_congr fun n hn => ?_
  have hkey : m.key ≠ n.key := fun heq => hm (List.mem_map.mpr ⟨n, hn, heq.symm⟩)
  simp [contains, hkey]

/-- Selecting a module takes it out of the work. -/
theorem Holds.openWork_take (h : r.Holds settings log) (hselected : ∀ m ∈ selected, m ∈ log)
    (hm : m ∈ log) (hnew : m ∉ selected) (pending : List (Module μ)) :
    openWork log (selected ++ [m]) ((m.dependencies.filterMap r.find?).reverse ++ pending) <
      openWork log selected (m :: pending) := by
  obtain ⟨before, after, rfl⟩ := List.append_of_mem hm
  have hkeys := h.registrable.nodup_keys
  rw [List.map_append, List.map_cons] at hkeys
  obtain ⟨-, hafter, hapart⟩ := List.nodup_append.mp hkeys
  have hbefore : m.key ∉ before.map Module.key := fun hmem =>
    hapart _ hmem _ List.mem_cons_self rfl
  have hopen : contains selected m = false :=
    Bool.eq_false_iff.mpr (mt (h.contains_iff hselected hm).mp hnew)
  have hdone : contains (selected ++ [m]) m = true :=
    contains_iff_key.mpr ⟨m, List.mem_concat_self, rfl⟩
  have hlength : (m.dependencies.filterMap r.find?).length ≤ m.dependencies.length :=
    List.length_filterMap_le ..
  simp only [openWork, List.filter_append, List.filter_cons, hopen, hdone, Bool.not_true,
    Bool.not_false, Bool.false_eq_true, if_true, if_false, filter_contains_snoc hbefore,
    filter_contains_snoc (List.nodup_cons.mp hafter).1, List.flatMap_append, List.flatMap_cons,
    List.length_append, List.length_reverse, List.length_cons]
  omega

/-- **Collecting comes to its end**, by induction on a bound on the work: each step passes over a
module or selects one, and either way there is less to do. -/
theorem Attaching.exists_attach (h : r.Attaching log start selected pending)
    (hr : r.Holds settings log) {fuel : Nat} (hfuel : openWork log selected pending ≤ fuel) :
    ∃ selected', r.attach fuel selected pending = .ok selected' ∧
      r.Attaching log start selected' [] := by
  induction fuel generalizing selected pending with
  | zero =>
    have hdone : pending = [] := by
      unfold openWork at hfuel
      exact List.eq_nil_of_length_eq_zero (by omega)
    subst hdone
    exact ⟨selected, rfl, h⟩
  | succ fuel ih =>
    cases pending with
    | nil => exact ⟨selected, rfl, h⟩
    | cons m pending =>
      have hselected : ∀ n ∈ selected, n ∈ log := fun n hn =>
        h.known n (List.mem_append_left _ hn)
      have hm : m ∈ log := h.known m (List.mem_append_right _ List.mem_cons_self)
      unfold attach
      by_cases hmem : m ∈ selected
      · rw [if_pos ((hr.contains_iff hselected hm).mpr hmem)]
        refine ih (h.skip hmem) ?_
        simp only [openWork, List.length_cons] at hfuel ⊢
        omega
      · rw [if_neg (mt (hr.contains_iff hselected hm).mp hmem), hr.dependenciesOf_eq hm]
        refine ih (h.take hr) ?_
        have hless := hr.openWork_take hselected hm hmem pending
        omega

/-- What a collection leaves are the modules of the start and all that they depend on. -/
theorem Attaching.mem_iff (h : r.Attaching log start selected []) (hr : r.Holds settings log)
    (hm : m ∈ log) :
    m ∈ selected ↔ ∃ n ∈ start, ReflTransGen r.Requires n.key m.key := by
  have hselected : ∀ n, n ∈ selected ++ [] ↔ n ∈ selected := fun n => by rw [List.append_nil]
  constructor
  · exact fun hmem => h.reached m ((hselected m).mpr hmem)
  · rintro ⟨n, hn, hreach⟩
    suffices ∀ key, ReflTransGen r.Requires n.key key → ∃ l ∈ selected, l.key = key by
      obtain ⟨l, hl, hkey⟩ := this m.key hreach
      exact hr.registrable.key_inj (h.known l ((hselected l).mpr hl)) hm hkey ▸ hl
    intro key hreach
    induction hreach with
    | refl => exact ⟨n, (hselected n).mp (h.started n hn), rfl⟩
    | tail _ hrequires ih =>
      obtain ⟨l, hl, rfl⟩ := ih
      have hl' : l ∈ log := h.known l ((hselected l).mpr hl)
      have hd := (hr.requires_iff hl').mp hrequires
      obtain ⟨k, hk, rfl⟩ := hr.registrable.exists_dependency hl' hd
      exact ⟨k, (hselected k).mp (h.closed l hl k hk hd), rfl⟩

theorem foldl_dependencies (l : List (Module μ)) (k : Nat) :
    l.foldl (fun k m => k + m.dependencies.length) k =
      k + (l.flatMap Module.dependencies).length := by
  induction l generalizing k with
  | nil => rfl
  | cons m l ih =>
    rw [List.foldl_cons, ih, List.flatMap_cons, List.length_append, Nat.add_assoc]

/-- The bound is enough for all work from the start. -/
theorem Holds.openWork_le (h : r.Holds settings log) (start : List (Module μ)) :
    openWork log [] start.reverse ≤ r.attachBound start := by
  have hall : (log.filter fun m => ! contains [] m) = log :=
    List.filter_eq_self.mpr fun _ _ => rfl
  simp only [openWork, attachBound, hall, h.listed_eq, foldl_dependencies, List.length_reverse]
  omega

open Classical in
/-- **The closure** of modules: themselves and all that they depend on, in the order of
registration. -/
theorem Holds.closure_eq (h : r.Holds settings log) (hstart : ∀ m ∈ start, m ∈ log) :
    r.closure start =
      .ok (log.filter fun m => decide (∃ n ∈ start, ReflTransGen r.Requires n.key m.key)) := by
  have hinitial : r.Attaching log start [] start.reverse := by
    refine ⟨fun m hm => ?_, fun m hm => ?_, fun m hm => ?_, nofun⟩
    · exact hstart m (by simpa using hm)
    · exact ⟨m, by simpa using hm, .refl⟩
    · simpa using hm
  obtain ⟨selected, hattach, hend⟩ := hinitial.exists_attach h (h.openWork_le start)
  have hknown : ∀ m ∈ selected, m ∈ log := fun m hm => hend.known m (List.mem_append_left _ hm)
  unfold closure
  rw [hattach, h.listed_eq]
  refine congrArg Except.ok (List.filter_congr fun m hm => ?_)
  rw [Bool.eq_iff_iff, h.contains_iff hknown hm, hend.mem_iff h hm, decide_eq_true_iff]

end Registry

end Reconcile
