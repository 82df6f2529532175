import Mathlib.Data.List.Perm.Basic

/-!
# Steps that can fail

What follows when several steps, each of which can fail, have succeeded together, and what comes of
taking in or looking up a list element by element.
-/

namespace Reconcile

variable {ε α β : Type}

/-- What succeeds in two steps succeeds in each. -/
theorem exists_of_bind_eq_ok {x : Except ε α} {f : α → Except ε β} {b : β}
    (h : (x >>= f) = .ok b) : ∃ a, x = .ok a ∧ f a = .ok b := by
  cases x with
  | error e => cases h
  | ok a => exact ⟨a, rfl, h⟩

/-- What succeeds however its failure is reported succeeds. -/
theorem eq_ok_of_mapError {x : Except ε α} {f : ε → β} {a : α} (h : x.mapError f = .ok a) :
    x = .ok a := by
  cases x with
  | error e => cases h
  | ok b => exact congrArg Except.ok (Except.ok.inj h)

/-- What is changed after it has succeeded has succeeded. -/
theorem exists_of_map_eq_ok {x : Except ε α} {f : α → β} {b : β} (h : x.map f = .ok b) :
    ∃ a, x = .ok a ∧ f a = b := by
  cases x with
  | error e => cases h
  | ok a => exact ⟨a, rfl, Except.ok.inj h⟩

/-- A list is looked up completely if each of its elements is found. -/
theorem mapM_of_found {f : α → Except ε β} {find? : α → Option β} {l : List α}
    (h : ∀ a ∈ l, ∃ b, find? a = some b ∧ f a = .ok b) : l.mapM f = .ok (l.filterMap find?) := by
  induction l with
  | nil => rfl
  | cons a l ih =>
    obtain ⟨⟨b, hfind, hf⟩, hrest⟩ := List.forall_mem_cons.mp h
    rw [List.mapM_cons, hf, ih hrest, List.filterMap_cons_some hfind]
    rfl

/-- Steps that succeed under a condition of their own, whatever came before them, succeed together
exactly if all the conditions hold. -/
theorem foldlM_eq_ok_iff {f : β → α → Except ε β} {p : α → Prop} {g : β → α → β}
    (h : ∀ b a b', f b a = .ok b' ↔ p a ∧ b' = g b a) {l : List α} {b b' : β} :
    l.foldlM f b = .ok b' ↔ (∀ a ∈ l, p a) ∧ b' = l.foldl g b := by
  induction l generalizing b with
  | nil =>
    rw [List.foldlM_nil]
    exact ⟨fun heq => ⟨fun a ha => absurd ha List.not_mem_nil, (Except.ok.inj heq).symm⟩,
      fun heq => congrArg Except.ok heq.2.symm⟩
  | cons a l ih =>
    rw [List.foldlM_cons, List.forall_mem_cons, List.foldl_cons]
    constructor
    · intro heq
      obtain ⟨c, hfirst, hrest⟩ := exists_of_bind_eq_ok heq
      obtain ⟨hp, rfl⟩ := (h b a c).mp hfirst
      exact ⟨⟨hp, (ih.mp hrest).1⟩, (ih.mp hrest).2⟩
    · rintro ⟨⟨hp, hall⟩, heq⟩
      rw [(h b a _).mpr ⟨hp, rfl⟩]
      exact ih.mpr ⟨hall, heq⟩

/-- What is taken in alike, whatever came before it, is taken in alike in the middle of a list. -/
theorem foldlM_middle_congr {f : β → α → Except ε β} (middle middle' : List α)
    (h : ∀ b, middle'.foldlM f b = middle.foldlM f b) (before after : List α) (b : β) :
    (before ++ (middle' ++ after)).foldlM f b = (before ++ (middle ++ after)).foldlM f b := by
  simp only [List.foldlM_append, h]

/-- Taking in a list changes a part of a state as it changes the part alone, if each element
changes only the part. -/
theorem foldlM_part {σ τ : Type} (get : σ → τ) (set : σ → τ → σ)
    (get_set : ∀ s t, get (set s t) = t) (set_set : ∀ s t t', set (set s t) t' = set s t')
    (set_get : ∀ s, set s (get s) = s)
    (f : τ → α → Except ε τ) (l : List α) (s : σ) :
    (l.foldlM f (get s)).map (set s) = l.foldlM (fun s a => (f (get s) a).map (set s)) s := by
  induction l generalizing s with
  | nil => exact congrArg Except.ok (set_get s)
  | cons a l ih =>
    rw [List.foldlM_cons, List.foldlM_cons]
    cases f (get s) a with
    | error e => rfl
    | ok t =>
      have hset : set (set s t) = set s := funext (set_set s t)
      have hrest := ih (set s t)
      rwa [get_set, hset] at hrest

/-- Looking up a list fails at one of its elements, if there is one at which it fails. -/
theorem exists_mapM_eq_error {f : α → Except ε β} {l : List α} (h : ∃ a ∈ l, ∃ e, f a = .error e) :
    ∃ a ∈ l, ∃ e, f a = .error e ∧ l.mapM f = .error e := by
  induction l with
  | nil => exact absurd h (by simp)
  | cons a l ih =>
    rw [List.mapM_cons]
    cases hf : f a with
    | error e => exact ⟨a, List.mem_cons_self, e, hf, rfl⟩
    | ok b =>
      obtain ⟨a', ha', e, he⟩ := h
      rcases List.mem_cons.mp ha' with rfl | ha'
      · rw [hf] at he
        cases he
      · obtain ⟨a', ha', e, he, hrest⟩ := ih ⟨a', ha', e, he⟩
        exact ⟨a', List.mem_cons_of_mem a ha', e, he, by rw [hrest]; rfl⟩

/-- A list is looked up completely exactly if each of its elements is. -/
theorem mapM_eq_ok_iff {f : α → Except ε β} {l : List α} {found : List β} :
    l.mapM f = .ok found ↔ List.Forall₂ (fun a b => f a = .ok b) l found := by
  induction l generalizing found with
  | nil =>
    rw [List.mapM_nil, List.forall₂_nil_left_iff]
    exact ⟨fun h => (Except.ok.inj h).symm, fun h => congrArg Except.ok h.symm⟩
  | cons a l ih =>
    rw [List.mapM_cons, List.forall₂_cons_left_iff]
    constructor
    · intro h
      obtain ⟨b, hb, h⟩ := exists_of_bind_eq_ok h
      obtain ⟨rest, hrest, h⟩ := exists_of_bind_eq_ok h
      exact ⟨b, rest, hb, ih.mp hrest, (Except.ok.inj h).symm⟩
    · rintro ⟨b, rest, hb, hrest, rfl⟩
      rw [hb, ih.mpr hrest]
      rfl

/-- Each element of a list that matches another one has its match there. -/
theorem exists_mem_of_forall₂ {R : α → β → Prop} {l : List α} {l' : List β}
    (h : List.Forall₂ R l l') {b : β} (hb : b ∈ l') : ∃ a ∈ l, R a b := by
  induction h with
  | nil => exact absurd hb List.not_mem_nil
  | cons hfirst hrest ih =>
    rcases List.mem_cons.mp hb with rfl | hb
    · exact ⟨_, List.mem_cons_self, hfirst⟩
    · obtain ⟨a, ha, hab⟩ := ih hb
      exact ⟨a, List.mem_cons_of_mem _ ha, hab⟩

/-- What is found comes from an element of the list. -/
theorem exists_mem_of_mapM {f : α → Except ε β} {l : List α} {found : List β}
    (h : l.mapM f = .ok found) {b : β} (hb : b ∈ found) : ∃ a ∈ l, f a = .ok b :=
  exists_mem_of_forall₂ (mapM_eq_ok_iff.mp h) hb

/-- In another order the same is found. -/
theorem exists_mapM_of_perm {f : α → Except ε β} {l l' : List α} {found : List β}
    (hperm : l'.Perm l) (h : l.mapM f = .ok found) :
    ∃ found', l'.mapM f = .ok found' ∧ found'.Perm found := by
  obtain ⟨found', hfound', hperm'⟩ :=
    List.perm_comp_forall₂ hperm (mapM_eq_ok_iff.mp h)
  exact ⟨found', mapM_eq_ok_iff.mpr hfound', hperm'⟩

end Reconcile
