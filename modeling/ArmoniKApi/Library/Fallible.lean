import Mathlib.Data.List.Basic
import Mathlib.Data.List.Forall2

/-!
# Computations that may fail

A computation in `Except` stops at its first error.  So a sequence of steps returns
only if each step returned, and a list is mapped only if the step returned for each
item.  The last section says this of computations in `Option`.

The lemmas are equivalences wherever they can be, since a claim that a call returns needs one
direction, and what follows from its result the other:

```text
bind_eq_ok_iff          a sequence returned           both steps returned
bind_eq_error_iff       a sequence stopped            at the first step, or at the second
mapM_eq_ok_iff          a list was mapped             item by item
exists_mapM_eq_ok_iff   a list can be mapped          each item can be
```

Proofs about calls peel one step after the other with `bind_eq_ok` and never unfold the monad.
`forall₂_iff_forall_mem` goes from the pairs of items and results to what is true of all items.
-/

namespace Fallible

variable {ε α β γ : Type}

/-- A sequence returns what its second step returns for the result of the first. -/
theorem bind_eq_ok_iff {x : Except ε α} {next : α → Except ε β} {b : β} :
    x >>= next = .ok b ↔ ∃ a, x = .ok a ∧ next a = .ok b := by
  constructor
  · intro h
    cases x with
    | ok a => exact ⟨a, rfl, h⟩
    | error error => cases h
  · rintro ⟨a, rfl, h⟩
    exact h

/-- A sequence that returned ran its first step. -/
theorem bind_eq_ok {x : Except ε α} {next : α → Except ε β} {b : β}
    (h : x >>= next = .ok b) : ∃ a, x = .ok a ∧ next a = .ok b :=
  bind_eq_ok_iff.mp h

/-- A sequence stops at the error of its first step, or else of its second. -/
theorem bind_eq_error_iff {x : Except ε α} {next : α → Except ε β} {error : ε} :
    x >>= next = .error error ↔ x = .error error ∨ ∃ a, x = .ok a ∧ next a = .error error := by
  cases x with
  | ok a =>
      constructor
      · intro h
        exact .inr ⟨a, rfl, h⟩
      · rintro (h | ⟨found, hfound, h⟩)
        · cases h
        · cases hfound
          exact h
  | error found =>
      constructor
      · intro h
        cases h
        exact .inl rfl
      · rintro (h | ⟨a, h, -⟩)
        · cases h
          rfl
        · cases h

/-- A sequence whose steps do not fail with an error does not either. -/
theorem bind_ne_error {x : Except ε α} {next : α → Except ε β} {error : ε}
    (hfirst : x ≠ .error error) (hnext : ∀ a, next a ≠ .error error) :
    x >>= next ≠ .error error := by
  intro h
  rcases bind_eq_error_iff.mp h with h | ⟨a, -, h⟩
  · exact hfirst h
  · exact hnext a h

theorem mapM_map_eq_ok {g : α → β} {step : β → Except ε γ} {result : α → γ}
    {items : List α} (h : ∀ item ∈ items, step (g item) = .ok (result item)) :
    (items.map g).mapM step = .ok (items.map result) := by
  induction items with
  | nil => rfl
  | cons item rest ih =>
      have hrest := ih fun other hother => h other (List.mem_cons_of_mem _ hother)
      simp only [List.map_cons, List.mapM_cons, h item (List.mem_cons_self ..), hrest]
      rfl

/-- A list that was mapped was mapped item by item. -/
theorem exists_of_mapM_eq_ok {step : α → Except ε β} {items : List α} {results : List β}
    (hok : items.mapM step = .ok results) :
    ∀ item ∈ items, ∃ result, step item = .ok result := by
  induction items generalizing results with
  | nil => exact List.forall_mem_nil _
  | cons item rest ih =>
      rw [List.mapM_cons] at hok
      obtain ⟨result, hitem, hok⟩ := bind_eq_ok hok
      obtain ⟨others, hrest, -⟩ := bind_eq_ok hok
      exact List.forall_mem_cons.mpr ⟨⟨result, hitem⟩, ih hrest⟩

/-- The results of a list are those of its items. -/
theorem mapM_eq_ok_iff {step : α → Except ε β} {items : List α} {results : List β} :
    items.mapM step = .ok results ↔
      List.Forall₂ (fun item result => step item = .ok result) items results := by
  induction items generalizing results with
  | nil =>
      rw [List.forall₂_nil_left_iff, List.mapM_nil]
      exact ⟨fun h => (Except.ok.inj h).symm, fun h => congrArg Except.ok h.symm⟩
  | cons item rest ih =>
      rw [List.mapM_cons, bind_eq_ok_iff, List.forall₂_cons_left_iff]
      refine exists_congr fun result => ?_
      rw [bind_eq_ok_iff]
      constructor
      · rintro ⟨hitem, others, hrest, hall⟩
        exact ⟨others, hitem, ih.mp hrest, (Except.ok.inj hall).symm⟩
      · rintro ⟨others, hitem, hrest, rfl⟩
        exact ⟨hitem, others, ih.mpr hrest, rfl⟩

/-- What is made of the results of a step is made of them all. -/
theorem mapM_map_eq_ok_iff {step : α → Except ε β} {f : β → γ} {items : List α}
    {results : List γ} :
    (items.mapM fun item => (step item).map f) = .ok results ↔
      ∃ found, items.mapM step = .ok found ∧ results = found.map f := by
  induction items generalizing results with
  | nil =>
      constructor
      · intro h
        cases h
        exact ⟨[], rfl, rfl⟩
      · rintro ⟨found, hfound, rfl⟩
        cases hfound
        rfl
  | cons item rest ih =>
      rw [List.mapM_cons, List.mapM_cons]
      -- the first step that fails ends both
      cases step item with
      | error error =>
          refine iff_of_false (fun h => ?_) fun ⟨_, h, _⟩ => ?_
          · cases h
          · cases h
      | ok first =>
          constructor
          · intro h
            obtain ⟨_, hfirst, h⟩ := bind_eq_ok h
            obtain ⟨others, hothers, hall⟩ := bind_eq_ok h
            obtain ⟨found, hfound, rfl⟩ := ih.mp hothers
            cases hfirst
            cases hall
            exact ⟨first :: found, bind_eq_ok_iff.mpr ⟨first, rfl,
              bind_eq_ok_iff.mpr ⟨found, hfound, rfl⟩⟩, rfl⟩
          · rintro ⟨all, h, rfl⟩
            obtain ⟨_, hfirst, h⟩ := bind_eq_ok h
            obtain ⟨found, hfound, hall⟩ := bind_eq_ok h
            cases hfirst
            cases hall
            exact bind_eq_ok_iff.mpr ⟨f first, rfl,
              bind_eq_ok_iff.mpr ⟨found.map f, ih.mpr ⟨found, hfound, rfl⟩, rfl⟩⟩

/-- A list has results if each item has one. -/
theorem exists_mapM_eq_ok_iff {step : α → Except ε β} {items : List α} :
    (∃ results, items.mapM step = .ok results) ↔
      ∀ item ∈ items, ∃ result, step item = .ok result := by
  refine ⟨fun ⟨_, hok⟩ => exists_of_mapM_eq_ok hok, fun h => ?_⟩
  induction items with
  | nil => exact ⟨[], rfl⟩
  | cons item rest ih =>
      obtain ⟨⟨result, hitem⟩, hrest⟩ := List.forall_mem_cons.mp h
      obtain ⟨others, hothers⟩ := ih hrest
      exact ⟨result :: others, mapM_eq_ok_iff.mpr (.cons hitem (mapM_eq_ok_iff.mp hothers))⟩

/-- What is said of an item and its result holds of all of them, when it comes to something that
holds of all items. -/
theorem forall₂_iff_forall_mem {R S : α → β → Prop} {P : α → Prop} {items : List α}
    {results : List β} (h : List.Forall₂ R items results)
    (hiff : ∀ item ∈ items, ∀ result, R item result → (S item result ↔ P item)) :
    List.Forall₂ S items results ↔ ∀ item ∈ items, P item := by
  induction h with
  | nil => exact iff_of_true .nil (List.forall_mem_nil _)
  | cons hfirst _ ih =>
      obtain ⟨hhead, htail⟩ := List.forall_mem_cons.mp hiff
      rw [List.forall₂_cons, List.forall_mem_cons, hhead _ hfirst, ih htail]

/-- What holds of the result of each item holds of each result. -/
theorem forall_mem_of_forall₂ {R : α → β → Prop} {P : β → Prop} {items : List α}
    {results : List β} (h : List.Forall₂ R items results)
    (hresult : ∀ item ∈ items, ∀ result, R item result → P result) :
    ∀ result ∈ results, P result := by
  induction h with
  | nil => exact List.forall_mem_nil _
  | cons hfirst _ ih =>
      obtain ⟨hhead, htail⟩ := List.forall_mem_cons.mp hresult
      exact List.forall_mem_cons.mpr ⟨hhead _ hfirst, ih htail⟩

theorem mapM_singleton_error {step : α → Except ε β} {a : α} {error : ε}
    (herror : step a = .error error) : [a].mapM step = .error error := by
  rw [List.mapM_cons, herror]
  rfl

/-! ## Options -/

section Options

variable {f g : α → Option β} {items : List α} {results : List β}

theorem mapM_congr (hsame : ∀ item ∈ items, f item = g item) : items.mapM f = items.mapM g := by
  induction items with
  | nil => rfl
  | cons item rest ih =>
      obtain ⟨hitem, hrest⟩ := List.forall_mem_cons.mp hsame
      rw [List.mapM_cons, List.mapM_cons, hitem, ih hrest]

theorem mapM_cons_eq_some_iff {item : α} {rest : List α} :
    (item :: rest).mapM f = some results ↔
      ∃ first others, f item = some first ∧ rest.mapM f = some others ∧
        results = first :: others := by
  rw [List.mapM_cons]
  constructor
  · intro h
    obtain ⟨first, hfirst, h⟩ := Option.bind_eq_some_iff.mp h
    obtain ⟨others, hothers, h⟩ := Option.bind_eq_some_iff.mp h
    exact ⟨first, others, hfirst, hothers, (Option.some.inj h).symm⟩
  · rintro ⟨first, others, hfirst, hothers, rfl⟩
    rw [hfirst, hothers]
    rfl

/-- A list has a result if each item has one. -/
theorem exists_mapM_iff :
    (∃ results, items.mapM f = some results) ↔ ∀ item ∈ items, ∃ result, f item = some result := by
  induction items with
  | nil => exact iff_of_true ⟨[], rfl⟩ (List.forall_mem_nil _)
  | cons item rest ih =>
      rw [List.forall_mem_cons, ← ih]
      constructor
      · rintro ⟨results, h⟩
        obtain ⟨first, others, hfirst, hothers, -⟩ := mapM_cons_eq_some_iff.mp h
        exact ⟨⟨first, hfirst⟩, others, hothers⟩
      · rintro ⟨⟨first, hfirst⟩, others, hothers⟩
        exact ⟨_, mapM_cons_eq_some_iff.mpr ⟨first, others, hfirst, hothers, rfl⟩⟩

/-- When the result of each item satisfies `K` just if the item satisfies `R`, all results do
just if all items do. -/
theorem exists_mapM_forall_iff {K : β → Prop} {R : α → Prop}
    (h : ∀ item ∈ items, ∃ result, f item = some result ∧ (K result ↔ R item)) :
    ∃ results, items.mapM f = some results ∧
      ((∀ result ∈ results, K result) ↔ ∀ item ∈ items, R item) := by
  induction items with
  | nil => exact ⟨[], rfl, iff_of_true (List.forall_mem_nil _) (List.forall_mem_nil _)⟩
  | cons item rest ih =>
      obtain ⟨⟨first, hfirst, hkept⟩, hrest⟩ := List.forall_mem_cons.mp h
      obtain ⟨others, hothers, hall⟩ := ih hrest
      refine ⟨first :: others, ?_, ?_⟩
      · exact mapM_cons_eq_some_iff.mpr ⟨first, others, hfirst, hothers, rfl⟩
      · rw [List.forall_mem_cons, List.forall_mem_cons, hkept, hall]

theorem mapM_eq_none {item : α} (hitem : item ∈ items) (hnone : f item = none) :
    items.mapM f = none := by
  cases hmap : items.mapM f with
  | none => rfl
  | some results =>
      obtain ⟨result, hresult⟩ := exists_mapM_iff.mp ⟨results, hmap⟩ item hitem
      rw [hnone] at hresult
      cases hresult

end Options

end Fallible
