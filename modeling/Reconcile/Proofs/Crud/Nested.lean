import Mathlib.Data.Finset.Card
import Mathlib.Data.Finset.Union
import Mathlib.Data.Fintype.Defs
import Reconcile.Proofs.Cache.Kept
import Reconcile.Proofs.Crud.Run

/-!
# Cyclic references come to an end

The rows of a backend refer to other entities, and the backend reads each of these through the cache
before it answers. So reads nest, along references that may lead in circles, to nothing, or to
backends that fail. A `Catalog` is a finite number of entity types with such backends on one side,
and `Catalog.read`, `Catalog.readAll` and `Catalog.create` are the calls of `Crud` on them, with at
most `fuel` reads inside each other.

**No fuel is ever missing** (`Catalog.nested_calls_end`): the nesting is no deeper than the number
of different targets of references, and with more fuel than this the result is always the same. The
measure is the set of targets under which nothing is found (`Catalog.vacant`). It does not shrink
over a whole run, since a read that finds nothing vacates its slot again, but it does from a call to
the calls inside it: a read asks its backend only if its slot was vacant, and leaves every slot that
was taken as it was (`Catalog.Onward`).

For the same reason the backend reads that are under way inside each other are of different targets:
the slot of each is taken until it ends (`Catalog.Ready`).
-/

namespace Reconcile

open Cache

/-- The end of a read vacates no slot but that of its key. -/
theorem Crud.keeps_endRead {α : Type} (crud : Crud α) {key : String} {p : Handle} {c : Cache α}
    (hc : c.Sound) (hp : c.Admits crud.type (some p)) (answer : Except String (List α)) :
    crud.Keeps (· = Memo.slot crud.side crud.type key) c (crud.endRead key p answer c).2 ∧
      (crud.endRead key p answer c).2.Sound := by
  cases answer with
  | error cause =>
    exact ⟨keeps_evictRecord crud key (hp p rfl).1 c, (calm_evictRecord hc _ _ _).sound⟩
  | ok found => exact ⟨keeps_finishRead found hc hp, (crud.calm_finishRead found hc hp).sound⟩

/-- Where a reference leads: to an entity type and a key. -/
abbrev Target (ι : Type) := ι × String

/-- Entity types that refer to each other, with their backends on one side. The backends work on a
state of type `σ`. -/
structure Catalog (ι σ α : Type) where
  type : ι → EntityType
  side : Side
  keyOf : ι → α → String
  /-- The rows that the backend of a type holds. -/
  rows : σ → ι → List α
  /-- The rows under a key, or all rows. -/
  find : ι → Option String → σ → Except String (List α) × σ
  /-- The rows that are created for inputs. -/
  make : ι → List α → σ → Except String (List α) × σ
  /-- The references of a row, which are read when the row is found or was created. -/
  references : ι → α → List (Target ι)
  /-- The references of an input, which are read before it is created. -/
  needs : ι → α → List (Target ι)
  /-- Whether a backend goes on when a reference cannot be read. -/
  forgives : ι → Target ι → ResourceError → Bool
  /-- The entity that is made of a row and the records that its references lead to. -/
  complete : ι → α → List (Option Handle) → α
  kind_injective : Function.Injective fun i => (type i).kind
  /-- A backend finds rows that it holds. -/
  mem_rows : ∀ {i key s es}, (find i key s).1 = .ok es → ∀ e ∈ es, e ∈ rows s i
  /-- No rows are added while rows are looked for. -/
  rows_find : ∀ {i key s j}, ∀ e ∈ rows (find i key s).2 j, e ∈ rows s j

/-- The state of the backends, and what is known of the reads that reached them. -/
structure Journal (ι σ : Type) where
  backends : σ
  /-- For every read of a key that reached a backend: its target, followed by the targets of the
  backend reads inside which it was made, the innermost first. -/
  entered : List (List (Target ι))

/-- A run of nested calls. It has no result if the fuel does not suffice. -/
abbrev Nested (ι σ α : Type) := StateT (Cache α) (StateT (Journal ι σ) Option)

/-- How a backend reads what a reference leads to. -/
abbrev Reader (ι σ α : Type) := Target ι → Nested ι σ α (Except ResourceError (Option Handle))

variable {ι σ α β γ : Type}

namespace Catalog

variable (cat : Catalog ι σ α)

/-- One entity type on the side of the catalog. -/
def crud (i : ι) : Crud α := ⟨cat.type i, cat.side, cat.keyOf i⟩

/-- Lets the backends do something by themselves. -/
def ask (f : σ → β × σ) : Nested ι σ α β := fun c w =>
  some (((f w.backends).1, c), { w with backends := (f w.backends).2 })

/-- Notes that a read reached its backend. -/
def enter (chain : List (Target ι)) : Nested ι σ α Unit := fun c w =>
  some (((), c), { w with entered := chain :: w.entered })

/-- Reads what references lead to, one after the other. -/
def resolve (read : Reader ι σ α) (i : ι) :
    List (Target ι) → Nested ι σ α (Except String (List (Option Handle)))
  | [] => return .ok []
  | r :: rs => do
    match ← read r with
    | .ok found => return (← resolve read i rs).map (found :: ·)
    | .error e =>
      if cat.forgives i r e then return (← resolve read i rs).map (none :: ·)
      else return .error e.message

/-- Makes entities of rows, after reading their references. -/
def resolveAll (read : Reader ι σ α) (i : ι) :
    List α → Nested ι σ α (Except String (List α))
  | [] => return .ok []
  | e :: es => do
    match ← cat.resolve read i (cat.references i e) with
    | .error cause => return .error cause
    | .ok found => return (← resolveAll read i es).map (cat.complete i e found :: ·)

/-- Finds rows and makes entities of them. -/
def lookUp (read : Reader ι σ α) (i : ι) (key : Option String) :
    Nested ι σ α (Except String (List α)) := do
  match ← ask (cat.find i key) with
  | .error cause => return .error cause
  | .ok found => cat.resolveAll read i found

/-- Reads what the inputs need, creates rows, and makes entities of them. -/
def produce (read : Reader ι σ α) (i : ι) (es : List α) :
    Nested ι σ α (Except String (List α)) := do
  match ← cat.resolve read i (es.flatMap (cat.needs i)) with
  | .error cause => return .error cause
  | .ok _ =>
    match ← ask (cat.make i es) with
    | .error cause => return .error cause
    | .ok created => cat.resolveAll read i created

/-- The backend of a type inside the reads of a chain. It reads references when it creates and when
it reads; updates and deletions are made as they are asked for. -/
def backend (read : List (Target ι) → Reader ι σ α) (chain : List (Target ι)) (i : ι) :
    Backend (Nested ι σ α) α where
  create es := cat.produce (read chain) i es
  read
    | some key => do
      enter ((i, key) :: chain)
      cat.lookUp (read ((i, key) :: chain)) i (some key)
    | none => cat.lookUp (read chain) i none
  update es := return .ok es
  delete _ := return .ok ()

/-- Reads a target inside the reads of a chain, with at most `fuel` reads inside each other. -/
def read : Nat → List (Target ι) → Reader ι σ α
  | 0, _, _ => fun _ _ => none
  | fuel + 1, chain, (i, key) => (cat.crud i).read (cat.backend (read fuel) chain i) key

/-- Lists the entities of a type. -/
def readAll (fuel : Nat) (i : ι) : Nested ι σ α (Except ResourceError (List Handle)) :=
  (cat.crud i).readAll (cat.backend (cat.read fuel) [] i)

/-- Creates entities of a type. -/
def create (fuel : Nat) (i : ι) (es : List α) :
    Nested ι σ α (Except ResourceError (List Handle)) :=
  (cat.crud i).create (cat.backend (cat.read fuel) [] i) es

/-! ### Programs that come to an end -/

/-- With any fuel from `n` on the program has one and the same result, which satisfies `Q`. -/
def Halts (n : Nat) (x : Nat → Nested ι σ α β) (c : Cache α) (w : Journal ι σ)
    (Q : β → Cache α → Journal ι σ → Prop) : Prop :=
  ∃ b c' w', (∀ fuel, n ≤ fuel → ((x fuel).run c).run w = some ((b, c'), w')) ∧ Q b c' w'

section Halts

variable {n : Nat} {x : Nat → Nested ι σ α β} {c c' : Cache α} {w w' : Journal ι σ}
  {P : β → Cache α → Journal ι σ → Prop} {Q : γ → Cache α → Journal ι σ → Prop}

theorem Halts.ret {b : β} (h : P b c w) : Halts n (fun _ => pure b) c w P :=
  ⟨b, c, w, fun _ _ => rfl, h⟩

theorem Halts.bind {f : Nat → β → Nested ι σ α γ} (hx : Halts n x c w P)
    (hf : ∀ b c' w', P b c' w' → Halts n (fun fuel => f fuel b) c' w' Q) :
    Halts n (fun fuel => x fuel >>= f fuel) c w Q := by
  obtain ⟨b, c', w', hrun, hP⟩ := hx
  obtain ⟨b'', c'', w'', hrun', hQ⟩ := hf b c' w' hP
  refine ⟨b'', c'', w'', fun fuel hfuel => ?_, hQ⟩
  rw [StateT.run_bind, StateT.run_bind, hrun fuel hfuel]
  exact hrun' fuel hfuel

theorem Halts.imp {P' : β → Cache α → Journal ι σ → Prop} (hx : Halts n x c w P)
    (h : ∀ b c' w', P b c' w' → P' b c' w') : Halts n x c w P' := by
  obtain ⟨b, c', w', hrun, hP⟩ := hx
  exact ⟨b, c', w', hrun, h b c' w' hP⟩

theorem Halts.mono {n' : Nat} (hx : Halts n x c w P) (h : n ≤ n') : Halts n' x c w P := by
  obtain ⟨b, c', w', hrun, hP⟩ := hx
  exact ⟨b, c', w', fun fuel hfuel => hrun fuel (h.trans hfuel), hP⟩

/-- One program after the other, where the fuel for the second depends on what the first did. -/
theorem exists_halts_bind {f : Nat → β → Nested ι σ α γ} (hx : ∃ n, Halts n x c w P)
    (hf : ∀ b c' w', P b c' w' → ∃ n, Halts n (fun fuel => f fuel b) c' w' Q) :
    ∃ n, Halts n (fun fuel => x fuel >>= f fuel) c w Q := by
  obtain ⟨n, b, c', w', hrun, hP⟩ := hx
  obtain ⟨n', hf⟩ := hf b c' w' hP
  have hx : Halts n x c w fun b₁ c₁ w₁ => b₁ = b ∧ c₁ = c' ∧ w₁ = w' :=
    ⟨b, c', w', hrun, rfl, rfl, rfl⟩
  refine ⟨max n n', (hx.mono (le_max_left n n')).bind fun b₁ c₁ w₁ h => ?_⟩
  obtain ⟨rfl, rfl, rfl⟩ := h
  exact hf.mono (le_max_right n n')

/-- Fuel that is taken away before the program runs has to be there. -/
theorem Halts.succ (hx : Halts n (fun fuel => x (fuel + 1)) c w P) : Halts (n + 1) x c w P := by
  obtain ⟨b, c', w', hrun, hP⟩ := hx
  refine ⟨b, c', w', fun fuel hfuel => ?_, hP⟩
  obtain ⟨m, rfl⟩ := Nat.exists_eq_add_of_le' hfuel
  exact hrun (m + n) (Nat.le_add_left n m)

theorem Halts.ask {f : σ → β × σ} {g : Nat → β → Nested ι σ α γ}
    (h : Halts n (fun fuel => g fuel (f w.backends).1) c
      { w with backends := (f w.backends).2 } Q) :
    Halts n (fun fuel => Catalog.ask f >>= g fuel) c w Q := h

theorem Halts.enter {chain : List (Target ι)} {y : Nat → Nested ι σ α γ}
    (h : Halts n y c { w with entered := chain :: w.entered } Q) :
    Halts n (fun fuel => Catalog.enter chain >>= fun _ => y fuel) c w Q := h

/-- A call that begins with a change of the cache and ends with another one. -/
theorem Halts.call {y : Nat → Nested ι σ α γ} {f : β → Cache α → γ × Cache α}
    (hx : Halts n x c' w P)
    (hrun : ∀ fuel, (y fuel).run c = ((x fuel).run c' >>= fun r => pure (f r.1 r.2)))
    (hf : ∀ b c'' w', P b c'' w' → Q (f b c'').1 (f b c'').2 w') : Halts n y c w Q := by
  obtain ⟨b, c'', w', hx, hP⟩ := hx
  refine ⟨_, _, w', fun fuel hfuel => ?_, hf b c'' w' hP⟩
  rw [hrun, StateT.run_bind, hx fuel hfuel]
  rfl

end Halts

/-! ### What is found, and what is not -/

/-- The record that is found under a target. -/
def found? (c : Cache α) (r : Target ι) : Option Handle :=
  c.memo.find? cat.side (cat.type r.1) r.2

/-- The targets under which nothing is found. -/
def vacant (T : Finset (Target ι)) (c : Cache α) : Finset (Target ι) :=
  T.filter fun r => cat.found? c r = none

/-- The targets of a catalog: all references of all rows lead there. -/
def Within (T : Finset (Target ι)) (s : σ) : Prop :=
  ∀ i, ∀ e ∈ cat.rows s i, ∀ r ∈ cat.references i e, r ∈ T

variable {cat} {T : Finset (Target ι)} {c c' c'' : Cache α} {w w' w'' : Journal ι σ}
  {chain : List (Target ι)} {n : Nat}

/-- What the calls of a catalog keep in slots that are not loose is found there still. -/
theorem found?_of_keeps {i : ι} {loose : Slot → Prop}
    (hkeeps : (cat.crud i).Keeps loose c c') {r : Target ι} {h : Handle}
    (hloose : ¬ loose (Memo.slot cat.side (cat.type r.1) r.2))
    (hfound : cat.found? c r = some h) : cat.found? c' r = some h := by
  obtain ⟨hs, htype⟩ := find?_eq_some.mp hfound
  refine find?_eq_some.mpr ⟨hkeeps.slot (fun key hslot => ?_) hloose hs, htype⟩
  -- a slot of the type that is called is one of this type only, since kinds are distinct
  have hkind : (cat.type r.1).kind = (cat.type i).kind := congrArg Slot.kind hslot
  rw [htype, cat.kind_injective hkind]
  rfl

/-- Something is found still if what was found before is. -/
theorem found?_ne_none {r : Target ι}
    (htaken : ∀ {h}, cat.found? c r = some h → cat.found? c' r = some h)
    (hne : cat.found? c r ≠ none) : cat.found? c' r ≠ none := by
  obtain ⟨h, hh⟩ := Option.ne_none_iff_exists'.mp hne
  rw [htaken hh]
  exact Option.some_ne_none h

/-- No target becomes vacant if what was found before is found still. -/
theorem vacant_subset (htaken : ∀ {r h}, cat.found? c r = some h → cat.found? c' r = some h) :
    cat.vacant T c' ⊆ cat.vacant T c :=
  Finset.monotone_filter_right T fun _ _ hnone =>
    by_contra fun hne => found?_ne_none htaken hne hnone

/-- **Onward**: what nested calls do to a cache and a journal. What was found is found still, no
backend has got rows with other references, and the reads that reached backends meanwhile are inside
reads of other targets. -/
structure Onward (cat : Catalog ι σ α) (T : Finset (Target ι)) (c : Cache α) (w : Journal ι σ)
    (c' : Cache α) (w' : Journal ι σ) : Prop where
  sound : c'.Sound
  within : cat.Within T w'.backends
  taken : ∀ {r h}, cat.found? c r = some h → cat.found? c' r = some h
  chains : ∀ chain ∈ w'.entered, chain ∈ w.entered ∨ chain.Nodup

theorem Onward.trans (h₁ : cat.Onward T c w c' w') (h₂ : cat.Onward T c' w' c'' w'') :
    cat.Onward T c w c'' w'' :=
  ⟨h₂.sound, h₂.within, fun hfound => h₂.taken (h₁.taken hfound), fun chain hchain =>
    (h₂.chains chain hchain).elim (h₁.chains chain) Or.inr⟩

/-- **Readiness**: where the reads of a chain are under way, each of another target, their slots are
taken, and fewer targets are vacant than there is fuel. -/
structure Ready (cat : Catalog ι σ α) (T : Finset (Target ι)) (chain : List (Target ι)) (n : Nat)
    (c : Cache α) (w : Journal ι σ) : Prop where
  sound : c.Sound
  within : cat.Within T w.backends
  nodup : chain.Nodup
  taken : ∀ r ∈ chain, cat.found? c r ≠ none
  fuel : (cat.vacant T c).card < n

theorem Ready.refl (h : cat.Ready T chain n c w) : cat.Onward T c w c w :=
  ⟨h.sound, h.within, id, fun _ => Or.inl⟩

theorem Ready.onward (h : cat.Ready T chain n c w) (hon : cat.Onward T c w c' w') :
    cat.Ready T chain n c' w' :=
  ⟨hon.sound, hon.within, h.nodup, fun r hr => found?_ne_none hon.taken (h.taken r hr),
    (Finset.card_le_card (vacant_subset hon.taken)).trans_lt h.fuel⟩

/-! ### Reading references -/

section Resolve

variable {read : Nat → Reader ι σ α}
  (hread : ∀ {c w}, cat.Ready T chain n c w → ∀ r ∈ T,
    Halts n (fun fuel => read fuel r) c w fun _ => cat.Onward T c w)

include hread

theorem halts_resolve (i : ι) {rs : List (Target ι)} (hrs : ∀ r ∈ rs, r ∈ T)
    (h : cat.Ready T chain n c w) :
    Halts n (fun fuel => cat.resolve (read fuel) i rs) c w fun _ => cat.Onward T c w := by
  induction rs generalizing c w with
  | nil => exact Halts.ret h.refl
  | cons r rs ih =>
    obtain ⟨hr, hrs⟩ := List.forall_mem_cons.mp hrs
    unfold resolve
    refine (hread h r hr).bind fun result c' w' hon => ?_
    have hrest : Halts n (fun fuel => cat.resolve (read fuel) i rs) c' w' fun _ =>
        cat.Onward T c w := (ih hrs (h.onward hon)).imp fun _ _ _ => hon.trans
    cases result with
    | ok found => exact hrest.bind fun _ _ _ hon => Halts.ret hon
    | error e =>
      simp only
      split_ifs
      · exact hrest.bind fun _ _ _ hon => Halts.ret hon
      · exact Halts.ret hon

theorem halts_resolveAll (i : ι) {es : List α} (hes : ∀ e ∈ es, ∀ r ∈ cat.references i e, r ∈ T)
    (h : cat.Ready T chain n c w) :
    Halts n (fun fuel => cat.resolveAll (read fuel) i es) c w fun _ => cat.Onward T c w := by
  induction es generalizing c w with
  | nil => exact Halts.ret h.refl
  | cons e es ih =>
    obtain ⟨he, hes⟩ := List.forall_mem_cons.mp hes
    unfold resolveAll
    refine (halts_resolve hread i he h).bind fun result c' w' hon => ?_
    cases result with
    | error cause => exact Halts.ret hon
    | ok found =>
      have hrest : Halts n (fun fuel => cat.resolveAll (read fuel) i es) c' w' fun _ =>
          cat.Onward T c w := (ih hes (h.onward hon)).imp fun _ _ _ => hon.trans
      exact hrest.bind fun _ _ _ hon => Halts.ret hon

theorem halts_lookUp (i : ι) (key : Option String) (h : cat.Ready T chain n c w) :
    Halts n (fun fuel => cat.lookUp (read fuel) i key) c w fun _ => cat.Onward T c w := by
  have hon : cat.Onward T c w c { w with backends := (cat.find i key w.backends).2 } :=
    ⟨h.sound, fun j e he => h.within j e (cat.rows_find e he), id, fun _ => Or.inl⟩
  unfold lookUp
  refine Halts.ask ?_
  cases hanswer : (cat.find i key w.backends).1 with
  | error cause => exact Halts.ret hon
  | ok found =>
    exact (halts_resolveAll hread i
      (fun e he => h.within i e (cat.mem_rows hanswer e he)) (h.onward hon)).imp
        fun _ _ _ => hon.trans

end Resolve

/-! ### Reading a target -/

/-- A slot in which something is found is not the one of a target under which nothing is found. -/
theorem slot_ne_of_found {r r' : Target ι} {h : Handle} (hfound : cat.found? c r = some h)
    (hvacant : cat.found? c r' = none) :
    Memo.slot cat.side (cat.type r.1) r.2 ≠ Memo.slot cat.side (cat.type r'.1) r'.2 := by
  intro hslot
  have hr : r = r' :=
    Prod.ext (cat.kind_injective (congrArg Slot.kind hslot)) (congrArg Slot.key hslot)
  rw [hr, hvacant] at hfound
  cases hfound

/-- A read that asks its backend is ready for the reads inside it, with less fuel. -/
theorem Ready.enter (h : cat.Ready T chain (n + 1) c w) {i : ι} {key : String}
    (hr : (i, key) ∈ T) (hvacant : cat.found? c (i, key) = none) :
    cat.Ready T ((i, key) :: chain) n (c.reserve cat.side (cat.type i) key).2
      { w with entered := ((i, key) :: chain) :: w.entered } := by
  have hkeeps := Crud.keeps_reserve (cat.crud i) key c
  have hself : cat.found? (c.reserve cat.side (cat.type i) key).2 (i, key) ≠ none := by
    rw [found?, find?_reserve, if_pos rfl]
    exact Option.some_ne_none _
  have htaken : ∀ {r k}, cat.found? c r = some k →
      cat.found? (c.reserve cat.side (cat.type i) key).2 r = some k :=
    fun hfound => found?_of_keeps hkeeps id hfound
  refine ⟨h.sound.reserve _ _ _, h.within, ?_, ?_, ?_⟩
  · exact List.nodup_cons.mpr ⟨fun hmem => h.taken _ hmem hvacant, h.nodup⟩
  · exact List.forall_mem_cons.mpr
      ⟨hself, fun r hmem => found?_ne_none htaken (h.taken r hmem)⟩
  · -- the target that is read is no longer vacant
    have hsub : cat.vacant T (c.reserve cat.side (cat.type i) key).2 ⊂ cat.vacant T c := by
      refine Finset.ssubset_iff_subset_ne.mpr ⟨vacant_subset htaken, fun heq => ?_⟩
      have hmem : (i, key) ∈ cat.vacant T c := Finset.mem_filter.mpr ⟨hr, hvacant⟩
      rw [← heq] at hmem
      exact hself (Finset.mem_filter.mp hmem).2
    exact (Finset.card_lt_card hsub).trans_le (Nat.le_of_lt_succ h.fuel)

/-- The end of a read that asked its backend. The only slot that it may vacate is its own, which was
vacant before. -/
theorem Ready.leave (h : cat.Ready T chain (n + 1) c w) {i : ι} {key : String}
    (hr : (i, key) ∈ T) (hvacant : cat.found? c (i, key) = none)
    (hon : cat.Onward T (c.reserve cat.side (cat.type i) key).2
      { w with entered := ((i, key) :: chain) :: w.entered } c' w')
    (answer : Except String (List α)) :
    cat.Onward T c w ((cat.crud i).endRead key (c.nextRecord (cat.type i)) answer c').2 w' := by
  have hrecord : (c.reserve cat.side (cat.type i) key).1.record = c.nextRecord (cat.type i) := by
    rw [record_reserve, show c.memo.find? cat.side (cat.type i) key = none from hvacant,
      Option.getD_none]
  -- the placeholder is in its slot until the read ends
  have hplaceholder : cat.found? c' (i, key) = some (c.nextRecord (cat.type i)) := by
    refine hon.taken ?_
    rw [found?, find?_reserve, if_pos rfl, hrecord]
  have hp : c'.Admits (cat.type i) (some (c.nextRecord (cat.type i))) :=
    admits_some _ rfl (hon.sound.has (find?_eq_some.mp hplaceholder).1)
  obtain ⟨hkeeps, hsound⟩ := (cat.crud i).keeps_endRead hon.sound hp answer
  refine ⟨hsound, hon.within, fun hfound => ?_, fun chain' hchain => ?_⟩
  · have hreserved := found?_of_keeps (Crud.keeps_reserve (cat.crud i) key c) id hfound
    exact found?_of_keeps hkeeps (slot_ne_of_found hfound hvacant) (hon.taken hreserved)
  · rcases hon.chains chain' hchain with hmem | hnodup
    · rcases List.mem_cons.mp hmem with rfl | hmem
      · exact Or.inr (h.enter hr hvacant).nodup
      · exact Or.inl hmem
    · exact Or.inr hnodup

/-- **A read comes to an end**, with as much fuel as there are vacant targets. By induction on the
fuel: the reads inside it find one target less vacant. -/
theorem halts_read (h : cat.Ready T chain n c w) {r : Target ι} (hr : r ∈ T) :
    Halts n (fun fuel => cat.read fuel chain r) c w fun _ => cat.Onward T c w := by
  induction n generalizing chain c w r with
  | zero => exact absurd h.fuel (Nat.not_lt_zero _)
  | succ n ih =>
    obtain ⟨i, key⟩ := r
    refine Halts.succ ?_
    cases hfound : cat.found? c (i, key) with
    | some k =>
      refine ⟨.ok (some k), c, w, fun fuel _ => ?_, h.refl⟩
      change (((cat.crud i).read (cat.backend (cat.read fuel) chain i) key).run c).run w = _
      rw [Crud.run_read, Crud.beginRead_of_some (cat.crud i) hfound]
      rfl
    | none =>
      have hinside : Halts n
          (fun fuel => (cat.backend (cat.read fuel) chain i).read (some key))
          (c.reserve cat.side (cat.type i) key).2 w
          fun _ => cat.Onward T (c.reserve cat.side (cat.type i) key).2
            { w with entered := ((i, key) :: chain) :: w.entered } :=
        Halts.enter (halts_lookUp (fun h r hr => ih h hr) i (some key) (h.enter hr hfound))
      refine hinside.call (f := (cat.crud i).endRead key (c.nextRecord (cat.type i)))
        (fun fuel => ?_) fun answer c' w' hon => h.leave hr hfound hon answer
      change ((cat.crud i).read (cat.backend (cat.read fuel) chain i) key).run c = _
      rw [Crud.run_read, Crud.beginRead_of_none (cat.crud i) hfound]
      rfl

/-! ### Calls from outside -/

/-- The reads that reached backends inside each other were of different targets all along. -/
def Simple (w : Journal ι σ) : Prop := ∀ chain ∈ w.entered, chain.Nodup

theorem Onward.simple (h : cat.Onward T c w c' w') (hw : Simple w) : Simple w' :=
  fun chain hchain => (h.chains chain hchain).elim (hw chain) id

section Calls

variable [Fintype ι] [DecidableEq ι]

/-- The targets of all references of all rows. -/
def targets (cat : Catalog ι σ α) (s : σ) : Finset (Target ι) :=
  Finset.univ.biUnion fun i => ((cat.rows s i).flatMap (cat.references i)).toFinset

theorem within_of_targets {s : σ} (hT : cat.targets s ⊆ T) : cat.Within T s := fun i e he _ hr =>
  hT (Finset.mem_biUnion.mpr ⟨i, Finset.mem_univ i,
    List.mem_toFinset.mpr (List.mem_flatMap.mpr ⟨e, he, hr⟩)⟩)

/-- Where no read is under way, there is fuel enough for all targets. -/
theorem ready_outside (hc : c.Sound) (hT : cat.targets w.backends ⊆ T) :
    cat.Ready T [] (T.card + 1) c w :=
  ⟨hc, within_of_targets hT, List.nodup_nil, fun _ hr => absurd hr List.not_mem_nil,
    Nat.lt_succ_of_le (Finset.card_filter_le T _)⟩

theorem halts_readAll (hc : c.Sound) (hw : Simple w) (i : ι) :
    Halts ((cat.targets w.backends).card + 1) (fun fuel => cat.readAll fuel i) c w
      fun _ _ => Simple := by
  have hready : cat.Ready (cat.targets w.backends) [] _ c w :=
    ready_outside hc (Finset.Subset.refl _)
  have hinside := halts_lookUp (fun h _ hr => halts_read h hr) i none hready
  exact hinside.call (f := (cat.crud i).endMerge .read)
    (fun fuel => (cat.crud i).run_readAll (cat.backend (cat.read fuel) [] i) c)
    fun _ _ _ hon => hon.simple hw

/-- Whatever references are read from outside, there is fuel that suffices. -/
theorem exists_halts_resolve (hc : c.Sound) (hw : Simple w) (i : ι) (rs : List (Target ι)) :
    ∃ n, Halts n (fun fuel => cat.resolve (cat.read fuel []) i rs) c w
      fun _ c' w' => c'.Sound ∧ Simple w' := by
  have hready : cat.Ready (cat.targets w.backends ∪ rs.toFinset) [] _ c w :=
    ready_outside hc Finset.subset_union_left
  have hrs : ∀ r ∈ rs, r ∈ cat.targets w.backends ∪ rs.toFinset := fun r hr =>
    Finset.mem_union_right _ (List.mem_toFinset.mpr hr)
  exact ⟨_, (halts_resolve (fun h _ hr => halts_read h hr) i hrs hready).imp
    fun _ _ _ hon => ⟨hon.sound, hon.simple hw⟩⟩

/-- Whatever rows entities are made of from outside, there is fuel that suffices. -/
theorem exists_halts_resolveAll (hc : c.Sound) (hw : Simple w) (i : ι) (es : List α) :
    ∃ n, Halts n (fun fuel => cat.resolveAll (cat.read fuel []) i es) c w
      fun _ _ => Simple := by
  have hready : cat.Ready
      (cat.targets w.backends ∪ (es.flatMap (cat.references i)).toFinset) [] _ c w :=
    ready_outside hc Finset.subset_union_left
  have hes : ∀ e ∈ es, ∀ r ∈ cat.references i e,
      r ∈ cat.targets w.backends ∪ (es.flatMap (cat.references i)).toFinset := fun e he r hr =>
    Finset.mem_union_right _ (List.mem_toFinset.mpr (List.mem_flatMap.mpr ⟨e, he, hr⟩))
  exact ⟨_, (halts_resolveAll (fun h _ hr => halts_read h hr) i hes hready).imp
    fun _ _ _ hon => hon.simple hw⟩

theorem exists_halts_produce (hc : c.Sound) (hw : Simple w) (i : ι) (es : List α) :
    ∃ n, Halts n (fun fuel => cat.produce (cat.read fuel []) i es) c w fun _ _ => Simple := by
  unfold produce
  refine exists_halts_bind (exists_halts_resolve hc hw i _) fun needed c' w' h => ?_
  cases needed with
  | error cause => exact ⟨0, Halts.ret h.2⟩
  | ok _ =>
    have hmake : ∃ n, Halts n (fun _ => ask (cat.make i es)) c' w' fun _ c'' w'' =>
        c''.Sound ∧ Simple w'' := ⟨0, _, _, _, fun _ _ => rfl, h⟩
    refine exists_halts_bind hmake fun made c'' w'' h => ?_
    cases made with
    | error cause => exact ⟨0, Halts.ret h.2⟩
    | ok created => exact exists_halts_resolveAll h.1 h.2 i created

theorem exists_halts_create (hc : c.Sound) (hw : Simple w) (i : ι) (es : List α) :
    ∃ n, Halts n (fun fuel => cat.create fuel i es) c w fun _ _ => Simple := by
  have hsound := ((cat.crud i).calm_reserveAll es hc).sound
  obtain ⟨n, hinside⟩ := exists_halts_produce hsound hw i es
  have hrun : ∀ fuel, (cat.create fuel i es).run c =
      ((cat.produce (cat.read fuel []) i es).run ((cat.crud i).reserveAll es c).2 >>= fun r =>
        pure ((cat.crud i).endCreate ((cat.crud i).reserveAll es c).1 r.1 r.2)) := fun fuel => by
    rw [create, Crud.run_create, backend]
  exact ⟨n, hinside.call hrun fun _ _ _ hw => hw⟩

/-- **Cyclic references come to an end.** From every memo and every state of the backends, whatever
circles the references make, wherever they lead to nothing and whichever backends fail, a read, a
listing and a creation have one result, which they reach with any fuel above a bound: for a read and
a listing the number of different targets. And the backend reads that are made inside each other are
all of different targets, so that none is entered again while it is under way. -/
theorem nested_calls_end (cat : Catalog ι σ α) {c : Cache α} (hc : c.Sound) (s : σ) :
    (∀ i key, Halts ((insert (i, key) (cat.targets s)).card + 1)
      (fun fuel => cat.read fuel [] (i, key)) c ⟨s, []⟩ fun _ _ => Simple) ∧
    (∀ i, Halts ((cat.targets s).card + 1) (fun fuel => cat.readAll fuel i) c ⟨s, []⟩
      fun _ _ => Simple) ∧
    ∀ i es, ∃ n, Halts n (fun fuel => cat.create fuel i es) c ⟨s, []⟩ fun _ _ => Simple := by
  have hw : Simple (⟨s, []⟩ : Journal ι σ) := fun _ hchain => absurd hchain List.not_mem_nil
  refine ⟨fun i key => ?_, fun i => halts_readAll hc hw i, fun i es =>
    exists_halts_create hc hw i es⟩
  have hready : cat.Ready (insert (i, key) (cat.targets s)) [] _ c ⟨s, []⟩ :=
    ready_outside hc (Finset.subset_insert _ _)
  exact (halts_read hready (Finset.mem_insert_self _ _)).imp fun _ _ _ hon => hon.simple hw

end Calls

/-- A network and its default group refer to each other, and the group to another one that does not
exist. -/
def network : Catalog Bool Unit String where
  type isGroup := if isGroup then ⟨"Group", "Group"⟩ else ⟨"Vpc", "Vpc"⟩
  side := .cloud
  keyOf _ e := e
  rows _ isGroup := if isGroup then ["sg-1"] else ["vpc-1"]
  find isGroup key s :=
    (.ok ((if isGroup then ["sg-1"] else ["vpc-1"]).filter fun e => key.all (e == ·)), s)
  make _ es s := (.ok es, s)
  references isGroup _ :=
    if isGroup then [(false, "vpc-1"), (true, "sg-2")] else [(true, "sg-1")]
  needs _ _ := []
  forgives _ _ _ := false
  complete _ e _ := e
  kind_injective := by decide
  mem_rows h e he := by
    cases h
    exact (List.mem_filter.mp he).1
  rows_find _ he := he

/-- Three reads inside each other suffice. The network is read once, though the group refers back to
it, and the group that does not exist is looked for inside the two others. -/
theorem nested_calls_end_cycle :
    Halts 4 (fun fuel => network.read fuel [] (false, "vpc-1")) Cache.empty ⟨(), []⟩
      (fun _ _ => Simple) ∧
    (((network.read 4 [] (false, "vpc-1")).run Cache.empty).run ⟨(), []⟩).map (·.2.entered) =
      some [[(true, "sg-2"), (true, "sg-1"), (false, "vpc-1")],
        [(true, "sg-1"), (false, "vpc-1")], [(false, "vpc-1")]] := by
  have hends := (nested_calls_end network sound_empty ()).1 false "vpc-1"
  exact ⟨hends.mono (by decide), by decide⟩

end Catalog

end Reconcile
