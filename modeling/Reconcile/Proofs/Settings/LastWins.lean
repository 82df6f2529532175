import Mathlib.Data.List.Induction
import Mathlib.Logic.Relation
import Reconcile.Proofs.Settings.Occurrence

/-!
# The last occurrence counts

Taking in an occurrence changes one setting and depends on no other, so what a document makes of a
setting is what its last occurrence says (`Occurrence.read?_foldl_take`), or its default when there
is none (`Occurrence.get_foldl_take`).

* A document can be read exactly if each of its occurrences can be taken in, also those that are
  overridden later, and the platform module keeps a name.
* What is no occurrence makes no difference. So documents may be enlarged by nodes, properties and
  arguments that are not known (`Enlarged`), with the same settings or the same error.
* Integers are taken in as they are (`Setting.Counts`) or not at all.
-/

namespace Reconcile

namespace Setting

variable {k : Setting} {limit : Nat}

/-! ### Integers -/

/-- The integers that a setting takes are those from zero up to, but without, this limit. -/
def limit? : Setting → Option Nat
  | maxWait | initialDelay _ | maxDelay _ => some UInt64.size
  | maxAttempts => some UInt32.size
  | _ => none

/-- A value is exactly an integer, which counts seconds, milliseconds or attempts. -/
def Counts : (k : Setting) → k.Value → Int → Prop
  | maxWait, d, n => (d.nanos : Int) = n * Duration.perSecond
  | initialDelay _, d, n => (d.nanos : Int) = n * Duration.perMilli
  | maxDelay _, d, n => (d.nanos : Int) = n * Duration.perMilli
  | maxAttempts, count, n => Int.ofNat count = n
  | _, _, _ => False

theorem below?_eq_some_iff {n : Int} {count : Nat} :
    (Kdl.Value.int n).below? limit = some count ↔ (count : Int) = n ∧ n < limit := by
  unfold Kdl.Value.below?
  dsimp only
  split_ifs with h
  · rw [Option.some.injEq]
    omega
  · refine iff_of_false (by simp) fun hcount => h ?_
    omega

theorem nanos_of_below? {n : Int} {unit : Nat} {d : Duration}
    (h : ((Kdl.Value.int n).below? limit).map (fun count => ⟨count * unit⟩) = some d) :
    (0 ≤ n ∧ n < limit) ∧ (d.nanos : Int) = n * unit := by
  obtain ⟨count, hbelow, rfl⟩ := Option.map_eq_some_iff.mp h
  obtain ⟨rfl, hlt⟩ := below?_eq_some_iff.mp hbelow
  exact ⟨⟨Int.natCast_nonneg count, hlt⟩, Int.natCast_mul count unit⟩

/-- An integer that a setting takes is below its limit, and the value is exactly that integer. -/
theorem counts_of_read? (hlimit : k.limit? = some limit) {n : Int} {v : k.Value}
    (h : k.read? (.int n) = some v) : (0 ≤ n ∧ n < limit) ∧ k.Counts v n := by
  cases k with
  | maxAttempts =>
    cases hlimit
    obtain ⟨rfl, hlt⟩ := below?_eq_some_iff.mp h
    exact ⟨⟨Int.natCast_nonneg _, hlt⟩, rfl⟩
  | maxWait =>
    cases hlimit
    exact nanos_of_below? h
  | initialDelay group =>
    cases hlimit
    exact nanos_of_below? h
  | maxDelay group =>
    cases hlimit
    exact nanos_of_below? h
  | _ => cases hlimit

end Setting

/-! ### Lists of occurrences -/

namespace Occurrence

variable {s s' : Settings} {o : Occurrence} {l : List Occurrence} {k : Setting} {v : Kdl.Value}

instance (o : Occurrence) : Decidable o.Fits :=
  inferInstanceAs (Decidable ((o.setting.read? o.value).isSome = true))

/-- The last value that a list of occurrences gives to a setting. -/
def lastValue? (k : Setting) (l : List Occurrence) : Option Kdl.Value :=
  (l.filter fun o => o.setting = k).getLast?.map Occurrence.value

theorem lastValue?_concat (k : Setting) (l : List Occurrence) (o : Occurrence) :
    lastValue? k (l ++ [o]) = if o.setting = k then some o.value else lastValue? k l := by
  unfold lastValue?
  rw [List.filter_append, List.filter_singleton]
  split_ifs with h
  · rw [decide_eq_true h, cond_true, List.getLast?_concat, Option.map_some]
  · rw [decide_eq_false h, cond_false, List.append_nil]

/-- Settings with the value of an occurrence, if it can be taken in. -/
def take (s : Settings) (o : Occurrence) : Settings :=
  match o.setting.read? o.value with
  | some v => s.set o.setting v
  | none => s

theorem assign_eq_ok_iff (s : Settings) (o : Occurrence) (s' : Settings) :
    assign s o = .ok s' ↔ o.Fits ∧ s' = take s o := by
  unfold assign Fits take
  cases o.setting.read? o.value with
  | none => simp
  | some v => exact ⟨fun h => ⟨rfl, (Except.ok.inj h).symm⟩, fun h => congrArg Except.ok h.2.symm⟩

theorem get_take_of_ne (s : Settings) (h : o.setting ≠ k) : (take s o).get k = s.get k := by
  unfold take
  cases o.setting.read? o.value with
  | none => rfl
  | some v => exact s.get_set_of_ne v h.symm

theorem read?_take (s : Settings) (h : o.Fits) :
    o.setting.read? o.value = some ((take s o).get o.setting) := by
  obtain ⟨v, hv⟩ := Option.isSome_iff_exists.mp h
  rw [take, hv, Settings.get_set_self]

/-- A setting of which nothing is said keeps its value. -/
theorem get_foldl_take (s : Settings) (h : lastValue? k l = none) :
    (l.foldl take s).get k = s.get k := by
  induction l using List.reverseRecOn with
  | nil => rfl
  | append_singleton l o ih =>
    rw [lastValue?_concat] at h
    split_ifs at h with hk
    rw [List.foldl_append, List.foldl_cons, List.foldl_nil, get_take_of_ne _ hk, ih h]

/-- A setting has the value that is read from its last occurrence. -/
theorem read?_foldl_take (s : Settings) (hfits : ∀ o ∈ l, o.Fits) (h : lastValue? k l = some v) :
    k.read? v = some ((l.foldl take s).get k) := by
  induction l using List.reverseRecOn with
  | nil => cases h
  | append_singleton l o ih =>
    obtain ⟨hbefore, ho⟩ := List.forall_mem_append.mp hfits
    rw [lastValue?_concat] at h
    rw [List.foldl_append, List.foldl_cons, List.foldl_nil]
    split_ifs at h with hk
    · cases h
      subst hk
      exact read?_take _ (ho o List.mem_cons_self)
    · rw [get_take_of_ne _ hk]
      exact ih hbefore h

end Occurrence

open Occurrence Kdl.Document

/-- A document can be read exactly if each of its occurrences can be taken in and the platform
module keeps a name. -/
theorem ofDocument_eq_ok_iff {document : Kdl.Document} {s : Settings} :
    Settings.ofDocument document = .ok s ↔
      (∀ o ∈ occurrences document, o.Fits) ∧ s = (occurrences document).foldl take .default ∧
        s.platform ≠ "" := by
  rw [ofDocument_eq]
  constructor
  · intro h
    obtain ⟨s', hfold, hchecked⟩ := exists_of_bind_eq_ok h
    obtain ⟨hfits, hs'⟩ := (foldlM_eq_ok_iff assign_eq_ok_iff).mp hfold
    split_ifs at hchecked with hempty
    cases hchecked
    exact ⟨hfits, hs', hempty⟩
  · rintro ⟨hfits, hs, hname⟩
    rw [(foldlM_eq_ok_iff assign_eq_ok_iff).mpr ⟨hfits, hs⟩]
    exact if_neg hname

/-! ### Enlarged documents -/

/-- A document is enlarged by something that says nothing about a setting. -/
inductive Enlarged : Kdl.Document → Kdl.Document → Prop where
  /-- A node of an unknown name. -/
  | node (before after : Kdl.Document) (node : Kdl.Node)
      (hname : node.name ∉ ["platform", "version", "modules-dir", "modules_dir", "wait", "retry"]) :
      Enlarged (before ++ after) (before ++ node :: after)
  /-- An argument or a property of an unknown name, on the node of a group. -/
  | property (before after : Kdl.Document) (group : Setting.Group) (first last : List Kdl.Entry)
      (entry : Kdl.Entry) (children : List Kdl.Node)
      (hentry : ∀ name, entry.name = some name → Setting.ofProperty? group name = none) :
      Enlarged (before ++ ⟨group.name, first ++ last, children⟩ :: after)
        (before ++ ⟨group.name, first ++ entry :: last, children⟩ :: after)
  /-- An argument or a property behind the first argument of a node that is read for a text. -/
  | further (before after : Kdl.Document) (name : String) (first last : List Kdl.Entry)
      (entry : Kdl.Entry) (children : List Kdl.Node)
      (hname : name ∈ ["platform", "version", "modules-dir", "modules_dir"])
      (hfirst : ∃ argument ∈ first, argument.name = none) :
      Enlarged (before ++ ⟨name, first ++ last, children⟩ :: after)
        (before ++ ⟨name, first ++ entry :: last, children⟩ :: after)
  /-- Anything in a block of children. -/
  | children (before after : Kdl.Document) (name : String) (entries : List Kdl.Entry)
      (children children' : List Kdl.Node) :
      Enlarged (before ++ ⟨name, entries, children⟩ :: after)
        (before ++ ⟨name, entries, children'⟩ :: after)

theorem occurrences_append (document document' : Kdl.Document) :
    occurrences (document ++ document') = occurrences document ++ occurrences document' :=
  List.flatMap_append

theorem occurrences_cons (node : Kdl.Node) (document : Kdl.Document) :
    occurrences (node :: document) = node.occurrences ++ occurrences document :=
  List.flatMap_cons

/-- A document is read alike when one of its nodes is read alike. -/
theorem occurrences_middle_congr {node node' : Kdl.Node} (h : node'.occurrences = node.occurrences)
    (before after : Kdl.Document) :
    occurrences (before ++ node' :: after) = occurrences (before ++ node :: after) := by
  rw [occurrences_append, occurrences_append, occurrences_cons, occurrences_cons, h]

/-- An enlarged document has the same occurrences. -/
theorem Enlarged.occurrences_eq {document document' : Kdl.Document}
    (h : Enlarged document document') : occurrences document' = occurrences document := by
  cases h with
  | node before after node hname =>
    simp only [List.mem_cons, List.not_mem_nil, or_false, not_or] at hname
    obtain ⟨hplatform, hversion, hdir, hdir', hwait, hretry⟩ := hname
    have hnone : node.occurrences = [] := by
      rw [Kdl.Node.occurrences_of_not_group, Setting.ofNode?, if_neg hplatform, if_neg hversion,
        if_neg (not_or.mpr ⟨hdir, hdir'⟩)]
      · rfl
      · intro group
        cases group with
        | wait => exact hwait
        | retry => exact hretry
    rw [occurrences_append, occurrences_cons, hnone, List.nil_append, occurrences_append]
  | property before after group first last entry children hentry =>
    refine occurrences_middle_congr ?_ before after
    rw [Kdl.Node.occurrences_of_group group rfl, Kdl.Node.occurrences_of_group group rfl]
    simp only [Kdl.Node.propertyOccurrences, Kdl.Node.properties, Kdl.Node.entries,
      List.filterMap_append, List.filterMap_cons]
    cases hname : entry.name with
    | none => rfl
    | some name =>
      simp only [Option.map_some, List.filterMap_cons, hentry name hname, Option.map_none]
  | further before after name first last entry children hname hfirst =>
    refine occurrences_middle_congr ?_ before after
    have hgroup : ∀ group : Setting.Group, name ≠ group.name := by
      intro group heq
      subst heq
      revert hname
      cases group <;> decide
    obtain ⟨argument, hmem, hargument⟩ := hfirst
    have hne : first.filter (fun e => e.name.isNone) ≠ [] :=
      List.ne_nil_of_mem (List.mem_filter.mpr ⟨hmem, by rw [hargument]; rfl⟩)
    have hhead : ∀ entries : List Kdl.Entry,
        Kdl.Node.firstArgument ⟨name, first ++ entries, children⟩ =
          Kdl.Node.firstArgument ⟨name, first, children⟩ := by
      intro entries
      simp only [Kdl.Node.firstArgument, Kdl.Node.arguments, Kdl.Node.entries, List.filter_append,
        List.map_append]
      rw [List.head?_append_of_ne_nil _ (mt List.map_eq_nil_iff.mp hne)]
    have htext : ∀ entries : List Kdl.Entry,
        Kdl.Node.occurrences ⟨name, entries, children⟩ = (Setting.ofNode? name).toList.map fun k =>
          ⟨k, Kdl.Node.firstArgument ⟨name, entries, children⟩⟩ :=
      fun _ => Kdl.Node.occurrences_of_not_group hgroup
    rw [htext, htext, hhead, hhead]
  | children before after name entries children children' =>
    refine occurrences_middle_congr ?_ before after
    rfl

/-- **The last occurrence counts.** A document can be read exactly if each of its occurrences can be
taken in and the last name of the platform module is not empty. Each setting is then read from its
last occurrence, and keeps its default if there is none.

Enlarging a document by what is no occurrence changes neither the settings nor the error. An integer
that is negative, or not below the limit of its setting, is an error wherever it stands; any other
one is taken in exactly. -/
theorem ofDocument_last_wins (document : Kdl.Document) :
    ((∃ s, Settings.ofDocument document = .ok s) ↔
      (∀ o ∈ occurrences document, o.Fits) ∧
        lastValue? .platform (occurrences document) ≠ some (.str "")) ∧
    (∀ s, Settings.ofDocument document = .ok s → ∀ k : Setting,
      (lastValue? k (occurrences document) = none → s.get k = Settings.default.get k) ∧
      ∀ v, lastValue? k (occurrences document) = some v → k.read? v = some (s.get k)) ∧
    (∀ document', Relation.ReflTransGen Enlarged document document' →
      Settings.ofDocument document' = Settings.ofDocument document) ∧
    ∀ (k : Setting) (limit : Nat) (n : Int), k.limit? = some limit →
      ⟨k, .int n⟩ ∈ occurrences document →
      (n < 0 ∨ limit ≤ n → ∃ e, Settings.ofDocument document = .error e) ∧
      ∀ s, Settings.ofDocument document = .ok s →
        lastValue? k (occurrences document) = some (.int n) → k.Counts (s.get k) n := by
  have hok : ∀ s, Settings.ofDocument document = .ok s →
      (∀ o ∈ occurrences document, o.Fits) ∧ s = (occurrences document).foldl take .default :=
    fun s h => ⟨(ofDocument_eq_ok_iff.mp h).1, (ofDocument_eq_ok_iff.mp h).2.1⟩
  refine ⟨⟨fun ⟨s, h⟩ => ?_, fun ⟨hfits, hname⟩ => ?_⟩, fun s h k => ?_, fun document' h => ?_,
    fun k limit n hlimit hmem => ⟨fun hout => ?_, fun s h hlast => ?_⟩⟩
  · obtain ⟨hfits, hs, hname⟩ := ofDocument_eq_ok_iff.mp h
    refine ⟨hfits, fun hlast => hname ?_⟩
    have hread := read?_foldl_take .default hfits hlast
    rw [← hs] at hread
    exact (Option.some.inj hread).symm
  · refine ⟨_, ofDocument_eq_ok_iff.mpr ⟨hfits, rfl, fun hempty => ?_⟩⟩
    cases hlast : lastValue? .platform (occurrences document) with
    | none =>
      have hdefault := get_foldl_take .default hlast
      exact absurd (hdefault.symm.trans hempty) (show "rowplane_platform" ≠ "" by decide)
    | some v =>
      have htext : v.text? = some "" := (read?_foldl_take .default hfits hlast).trans
        (congrArg some hempty)
      cases v with
      | str text => exact hname (hlast.trans (by rw [Option.some.inj htext]))
      | _ => cases htext
  · obtain ⟨hfits, rfl⟩ := hok s h
    exact ⟨get_foldl_take .default, fun v => read?_foldl_take .default hfits⟩
  · have hsame : occurrences document' = occurrences document := by
      induction h with
      | refl => rfl
      | tail _ hstep ih => exact hstep.occurrences_eq.trans ih
    rw [ofDocument_eq, ofDocument_eq, hsame]
  · cases h : Settings.ofDocument document with
    | error e => exact ⟨e, rfl⟩
    | ok s =>
      obtain ⟨v, hv⟩ := Option.isSome_iff_exists.mp ((hok s h).1 _ hmem)
      obtain ⟨⟨hle, hlt⟩, -⟩ := Setting.counts_of_read? hlimit hv
      omega
  · obtain ⟨hfits, rfl⟩ := hok s h
    exact (Setting.counts_of_read? hlimit (read?_foldl_take .default hfits hlast)).2

/-- A document that says things twice, in nodes that are mixed. -/
def repeated : Kdl.Document :=
  [⟨"wait", [⟨some "max-wait-secs", .int 5⟩, ⟨some "initial-delay-ms", .int 7⟩], []⟩,
    ⟨"platform", [⟨none, .str ""⟩], []⟩,
    ⟨"retry", [⟨some "max-attempts", .int 4294967295⟩, ⟨some "initial-delay-ms", .int 9⟩], []⟩,
    ⟨"wait", [⟨some "max-wait-secs", .int 6⟩, ⟨some "max-wait-secs", .int 8⟩], []⟩,
    ⟨"platform", [⟨none, .str "p"⟩], []⟩]

/-- Two nodes `wait` are read property by property, and what they share with the node `retry` is
apart. One attempt more than is possible is an error, even if it is overridden. -/
theorem ofDocument_last_wins_repeated :
    let known : Kdl.Node := ⟨"retry", [⟨some "max-attempts", .int 4294967296⟩], []⟩
    let unknown : Kdl.Node := ⟨"log", [⟨none, .str "all"⟩], []⟩
    (∃ s, Settings.ofDocument repeated = .ok s ∧ s.get .platform = "p" ∧
      s.get .version = "0.1.0" ∧ s.get .maxWait = .ofSecs 8 ∧
      s.get (.initialDelay .wait) = .ofMillis 7 ∧ s.get (.initialDelay .retry) = .ofMillis 9 ∧
      Setting.maxAttempts.Counts (s.get .maxAttempts) 4294967295) ∧
    Relation.ReflTransGen Enlarged repeated (unknown :: repeated) ∧
    Settings.ofDocument (unknown :: repeated) = Settings.ofDocument repeated ∧
    ∃ e, Settings.ofDocument (known :: repeated) = .error e := by
  intro known unknown
  obtain ⟨hread, hlast, henlarged, hcounts⟩ := ofDocument_last_wins repeated
  have hlarger : Relation.ReflTransGen Enlarged repeated (unknown :: repeated) :=
    .single (.node [] repeated unknown (by decide))
  obtain ⟨s, hs⟩ := hread.mpr ⟨by decide +kernel, by decide +kernel⟩
  refine ⟨⟨s, hs, ?_, ?_, ?_, ?_, ?_, ?_⟩, hlarger, henlarged _ hlarger, ?_⟩
  · exact (Option.some.inj ((hlast s hs .platform).2 (.str "p") (by decide +kernel))).symm
  · exact (hlast s hs .version).1 (by decide +kernel)
  · exact (Option.some.inj ((hlast s hs .maxWait).2 (.int 8) (by decide +kernel))).symm
  · exact (Option.some.inj
      ((hlast s hs (.initialDelay .wait)).2 (.int 7) (by decide +kernel))).symm
  · exact (Option.some.inj
      ((hlast s hs (.initialDelay .retry)).2 (.int 9) (by decide +kernel))).symm
  · exact (hcounts .maxAttempts UInt32.size 4294967295 rfl (by decide +kernel)).2 s hs
      (by decide +kernel)
  · exact ((ofDocument_last_wins (known :: repeated)).2.2.2 .maxAttempts UInt32.size 4294967296 rfl
      (by decide +kernel)).1 (by decide)

end Reconcile
