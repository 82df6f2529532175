import Reconcile.Proofs.Module.Closure
import Reconcile.Proofs.Module.Sort

/-!
# Installing modules

A plan for installing modules is determined by the registry, by what is requested and by what is
installed: it lists the modules that are requested and all that they depend on, in the order of
registration, without those that are installed (`Registry.installPlan_exact`). It exists as soon as
all that is requested can be found; nothing else can go wrong.
-/

namespace Reconcile

open Relation

variable {μ : Type} {settings : Settings} {log : List (Module μ)} {m n : Module μ}

namespace Registry

variable {r : Registry μ} {requested installed : List String}

/-! ### What is requested -/

/-- A module that a request names, by its key or by its name. -/
def Requested (r : Registry μ) (requested : List String) (m : Module μ) : Prop :=
  ∃ text ∈ requested, r.find? text = some m

theorem mem_filterMap_find?_iff : m ∈ requested.filterMap r.find? ↔ r.Requested requested m :=
  List.mem_filterMap

/-- What is requested is registered. -/
theorem Holds.known_of_requested (h : r.Holds settings log) (requested : List String) :
    ∀ m ∈ requested.filterMap r.find?, m ∈ log := by
  intro m hm
  obtain ⟨text, -, hfind⟩ := mem_filterMap_find?_iff.mp hm
  exact h.mem_of_find? hfind

/-- All that is requested can be found. -/
def AllFound (r : Registry μ) (requested : List String) : Prop :=
  ∀ text ∈ requested, ∃ m, r.find? text = some m

theorem mapM_resolve_of_found (h : r.AllFound requested) :
    requested.mapM r.resolve = .ok (requested.filterMap r.find?) := by
  refine mapM_of_found fun text htext => ?_
  obtain ⟨m, hm⟩ := h text htext
  exact ⟨m, hm, by rw [resolve, hm]⟩

/-- A request that cannot be found is the answer. -/
theorem exists_mapM_resolve_of_missing (h : ∃ text ∈ requested, r.find? text = none) :
    ∃ text ∈ requested, r.find? text = none ∧
      requested.mapM r.resolve = .error (.moduleNotFound text) := by
  obtain ⟨text, htext, hmissing⟩ := h
  have hfails : ∃ text ∈ requested, ∃ e, r.resolve text = .error e :=
    ⟨text, htext, .moduleNotFound text, by rw [resolve, hmissing]⟩
  obtain ⟨text, htext, e, he, hmapM⟩ := exists_mapM_eq_error hfails
  unfold resolve at he
  cases hfind : r.find? text with
  | some m =>
    rw [hfind] at he
    cases he
  | none =>
    rw [hfind] at he
    cases he
    exact ⟨text, htext, hfind, hmapM⟩

theorem allFound_or_missing (r : Registry μ) (requested : List String) :
    r.AllFound requested ∨ ∃ text ∈ requested, r.find? text = none := by
  refine or_iff_not_imp_right.mpr fun h text htext => ?_
  exact Option.ne_none_iff_exists'.mp fun hmissing => h ⟨text, htext, hmissing⟩

/-! ### The plan -/

/-- A module that is requested, or on which a requested module depends, directly or through
others. -/
def Wanted (r : Registry μ) (requested : List String) (m : Module μ) : Prop :=
  ∃ n, r.Requested requested n ∧ ReflTransGen r.Requires n.key m.key

open Classical in
/-- The modules of a plan: what is wanted and neither its key nor its name is installed. -/
noncomputable def planned (r : Registry μ) (requested installed : List String) :
    List (Module μ) :=
  r.listed.filter fun m =>
    decide (r.Wanted requested m ∧ m.key ∉ installed ∧ m.name ∉ installed)

theorem mem_planned_iff : m ∈ r.planned requested installed ↔
    m ∈ r.listed ∧ r.Wanted requested m ∧ m.key ∉ installed ∧ m.name ∉ installed := by
  simp [planned]

theorem Holds.planned_sublist (h : r.Holds settings log) :
    (r.planned requested installed).Sublist log := by
  rw [planned, h.listed_eq]
  exact List.filter_sublist

/-- **The plan** for requests that can be found. -/
theorem Holds.installPlan_eq (h : r.Holds settings log) (hfound : r.AllFound requested) :
    r.installPlan requested installed = .ok (r.planned requested installed) := by
  have hinstall : r.installPlan requested installed =
      (requested.mapM r.resolve).bind fun targets =>
        (r.closure targets).bind fun modules => ModuleNode.sort modules installed := rfl
  rw [hinstall, mapM_resolve_of_found hfound]
  simp only [Except.bind, h.closure_eq (h.known_of_requested requested),
    h.sort_of_sublist List.filter_sublist]
  refine congrArg Except.ok ?_
  rw [List.filter_filter, planned, h.listed_eq]
  refine List.filter_congr fun m _ => ?_
  rw [Bool.eq_iff_iff, Bool.and_eq_true, Bool.not_eq_true', ModuleNode.isIn_eq_false_iff]
  simp only [decide_eq_true_eq, mem_filterMap_find?_iff]
  exact and_comm

theorem installPlan_of_missing (h : ∃ text ∈ requested, r.find? text = none) :
    ∃ text ∈ requested, r.find? text = none ∧
      r.installPlan requested installed = .error (.moduleNotFound text) := by
  obtain ⟨text, htext, hmissing, hmapM⟩ := exists_mapM_resolve_of_missing h
  refine ⟨text, htext, hmissing, ?_⟩
  unfold installPlan
  rw [hmapM]
  rfl

/-- What a planned module depends on is installed or stands before it. -/
theorem Holds.dependency_of_planned (h : r.Holds settings log) {before later : List (Module μ)}
    (hsplit : r.planned requested installed = before ++ m :: later) {d : String}
    (hd : d ∈ m.dependencies) :
    ∃ n, r.get? d = some n ∧ (n.key ∈ installed ∨ n.name ∈ installed ∨ n ∈ before) := by
  have hmem : m ∈ r.planned requested installed := hsplit ▸ by simp
  obtain ⟨hm, ⟨s, hs, hreach⟩, -⟩ := mem_planned_iff.mp hmem
  rw [h.listed_eq] at hm
  obtain ⟨n, hn, rfl⟩ := h.registrable.exists_dependency hm hd
  refine ⟨n, (h.get?_iff _ _).mpr ⟨hn, rfl⟩, ?_⟩
  by_contra hmissing
  obtain ⟨hkey, hname, hbefore⟩ : n.key ∉ installed ∧ n.name ∉ installed ∧ n ∉ before := by
    simpa only [not_or] using hmissing
  have hwanted : r.Wanted requested n := ⟨s, hs, hreach.tail ((h.requires_iff hm).mpr hd)⟩
  have hplanned : n ∈ before ++ m :: later :=
    hsplit ▸ mem_planned_iff.mpr ⟨h.listed_eq ▸ hn, hwanted, hkey, hname⟩
  have hlater : (before ++ m :: later).Pairwise fun m n => n.key ∉ m.dependencies :=
    hsplit ▸ h.registrable.pairwise.sublist h.planned_sublist
  -- the plan keeps the order of registration, in which no module depends on a later one
  rcases List.mem_cons.mp ((List.mem_append.mp hplanned).resolve_left hbefore) with rfl | hn'
  · exact h.registrable.key_not_mem hn hd
  · exact (List.pairwise_cons.mp (List.pairwise_append.mp hlater).2.1).1 n hn' hd

/-- **Plans for installing are exact**, in every registry that calls can make. If all that is
requested can be found, the plan are the registered modules that are requested, or on which a
requested module depends, and that are not installed, in the order of registration. Otherwise the
answer is a text that cannot be found. So what a planned module depends on is installed or stands
before it. -/
theorem installPlan_exact {calls : List (Call μ)} (hr : (empty settings).run calls = r)
    (requested installed : List String) :
    (r.AllFound requested ∧
        r.installPlan requested installed = .ok (r.planned requested installed) ∨
      ∃ text ∈ requested, r.find? text = none ∧
        r.installPlan requested installed = .error (.moduleNotFound text)) ∧
    ∀ before m later, r.planned requested installed = before ++ m :: later →
      ∀ d ∈ m.dependencies, ∃ n, r.get? d = some n ∧
        (n.key ∈ installed ∨ n.name ∈ installed ∨ n ∈ before) := by
  obtain ⟨log, hlog⟩ := exists_holds_run settings calls
  rw [hr] at hlog
  refine ⟨?_, fun before m later hsplit d hd => hlog.dependency_of_planned hsplit hd⟩
  rcases r.allFound_or_missing requested with hfound | hmissing
  · exact Or.inl ⟨hfound, hlog.installPlan_eq hfound⟩
  · exact Or.inr (installPlan_of_missing hmissing)

/-- Calls that register four modules; `b` depends on `a`, and all depend on `p`. -/
def chained : List (Call Empty) :=
  [.define (sketch "p" "1" [] []), .define (sketch "a" "1" ["p"] []),
    .define (sketch "q" "1" ["p"] []), .define (sketch "b" "1" ["a", "p"] [])]

/-- A module that is requested twice, whose dependency is brought along. -/
theorem installPlan_exact_chained :
    (sketched chained).order = ["p@1", "a@1", "q@1", "b@1"] ∧
    ((sketched chained).planned ["b", "b@1"] ["p"]).map Module.key = ["a@1", "b@1"] ∧
    (sketched chained).installPlan ["b", "b@1"] ["p"] =
      .ok ((sketched chained).planned ["b", "b@1"] ["p"]) := by
  have hkeys : ((sketched chained).installPlan ["b", "b@1"] ["p"]).map (List.map Module.key) =
      .ok ["a@1", "b@1"] := by
    decide +kernel
  rcases (installPlan_exact (rfl : _ = sketched chained) ["b", "b@1"] ["p"]).1 with
    ⟨-, hplan⟩ | ⟨text, -, -, hplan⟩
  · rw [hplan] at hkeys
    exact ⟨by decide +kernel, Except.ok.inj hkeys, hplan⟩
  · rw [hplan] at hkeys
    cases hkeys

end Registry

end Reconcile
