import Mathlib.Data.List.Basic

/-!
# Loops that may not end

A loop is given by one turn: from a state the loop goes on in another state or
is left with a result.  `run` makes a limited number of turns, and is `none`
when the limit is reached; a program that contains loops is a function of the
limit too.

`Returns f a` says that the program `f` ends with `a`: it does so for every
limit that is large enough.  What a program returns is put together from what its
parts return.

A limit on the turns makes every function total, and lets a program that may not end be
evaluated on an input.  The price is that a bare equation with a limit says little: a loop
that runs out of turns satisfies anything that is said of its result.  So the results are
stated with `Returns`, which asks for the result at all large limits, and the opposite with
`run_eq_none`, which denies it at every limit.

* `exists_returns_run` is the rule of total correctness: an invariant, a measure that gets
  smaller with each turn, and what holds when the loop is left.  The induction is on the
  measure, and each turn is put in front by `returns_run_of_again`.
* `returns_run` is the same for a loop with one possible result.
* `run_eq_none` needs the invariant only, and no way out of it.
* `Returns.bind` and `Returns.mapM` take the larger one of the limits of their parts.
* `run_embed` carries a run over from one loop to another that makes the same turns.
-/

namespace Loop

variable {A B S R : Type*}

/-! ## Programs with a limit on their turns -/

/-- `f` ends, with `a`. -/
def Returns (f : ℕ → Option A) (a : A) : Prop :=
  ∃ least, ∀ turns ≥ least, f turns = some a

theorem not_returns_of_none {f : ℕ → Option A} (hnone : ∀ turns, f turns = none) (a : A) :
    ¬Returns f a := by
  rintro ⟨least, hleast⟩
  have hsome := hleast least (Nat.le_refl least)
  rw [hnone least] at hsome
  cases hsome

theorem returns_pure (a : A) : Returns (fun _ => some a) a :=
  ⟨0, fun _ _ => rfl⟩

/-- A program ends with one result. -/
theorem Returns.unique {f : ℕ → Option A} {a b : A} (ha : Returns f a) (hb : Returns f b) :
    a = b := by
  obtain ⟨m, hm⟩ := ha
  obtain ⟨n, hn⟩ := hb
  exact Option.some.inj ((hm (max m n) (by omega)).symm.trans (hn (max m n) (by omega)))

theorem Returns.bind {f : ℕ → Option A} {g : ℕ → A → Option B} {a : A} {b : B}
    (hf : Returns f a) (hg : Returns (fun turns => g turns a) b) :
    Returns (fun turns => (f turns).bind (g turns)) b := by
  obtain ⟨m, hm⟩ := hf
  obtain ⟨n, hn⟩ := hg
  refine ⟨max m n, fun turns hturns => ?_⟩
  show (f turns).bind (g turns) = some b
  rw [hm turns (by omega), Option.bind_some]
  exact hn turns (by omega)

/-- The same program for every item of a list. -/
theorem Returns.mapM {f : A → ℕ → Option B} {g : A → B} {items : List A}
    (hitems : ∀ item ∈ items, Returns (f item) (g item)) :
    Returns (fun turns => items.mapM fun item => f item turns) (items.map g) := by
  induction items with
  | nil => exact returns_pure []
  | cons item rest ih =>
      have hitem := hitems item (List.mem_cons_self ..)
      have hrest := ih fun other hother => hitems other (List.mem_cons_of_mem _ hother)
      simp only [List.mapM_cons, List.map_cons]
      exact hitem.bind (hrest.bind (returns_pure _))

/-! ## Loops -/

/-- What one turn of a loop does. -/
inductive Turn (S R : Type*)
  | again (next : S)
  | leave (result : R)

/-- At most `turns` turns, from a state. -/
def run (turn : S → Turn S R) : ℕ → S → Option R
  | 0, _ => none
  | turns + 1, s =>
      match turn s with
      | .again next => run turn turns next
      | .leave result => some result

/-- One turn more in front. -/
theorem returns_run_of_again {turn : S → Turn S R} {s next : S} {result : R}
    (hturn : turn s = .again next) (hnext : Returns (fun turns => run turn turns next) result) :
    Returns (fun turns => run turn turns s) result := by
  obtain ⟨least, hleast⟩ := hnext
  refine ⟨least + 1, fun turns hturns => ?_⟩
  obtain ⟨before, rfl⟩ : ∃ before, turns = before + 1 := ⟨turns - 1, by omega⟩
  show run turn (before + 1) s = some result
  unfold run
  rw [hturn]
  exact hleast before (by omega)

theorem returns_run_of_leave {turn : S → Turn S R} {s : S} {result : R}
    (hturn : turn s = .leave result) : Returns (fun turns => run turn turns s) result := by
  refine ⟨1, fun turns hturns => ?_⟩
  obtain ⟨before, rfl⟩ : ∃ before, turns = before + 1 := ⟨turns - 1, by omega⟩
  show run turn (before + 1) s = some result
  unfold run
  rw [hturn]

/-- A loop ends, as `Post` says, when every turn from a state of the invariant goes
on in a state of the invariant with a smaller measure, or leaves as `Post` says. -/
theorem exists_returns_run {turn : S → Turn S R} (Invariant : S → Prop) (Post : R → Prop)
    (measure : S → ℕ)
    (hturn : ∀ s, Invariant s →
      (∃ next, turn s = .again next ∧ Invariant next ∧ measure next < measure s) ∨
        ∃ r, turn s = .leave r ∧ Post r) {s : S} (hinit : Invariant s) :
    ∃ result, Returns (fun turns => run turn turns s) result ∧ Post result := by
  induction hmeasure : measure s using Nat.strongRecOn generalizing s with
  | _ n ih =>
      rcases hturn s hinit with ⟨next, hagain, hnext, hless⟩ | ⟨r, hleave, hpost⟩
      · obtain ⟨result, hreturns, hpost⟩ := ih (measure next) (by omega) hnext rfl
        exact ⟨result, returns_run_of_again hagain hreturns, hpost⟩
      · exact ⟨r, returns_run_of_leave hleave, hpost⟩

/-- A loop all of whose ways out yield the same. -/
theorem returns_run {turn : S → Turn S R} {result : R} (Invariant : S → Prop) (measure : S → ℕ)
    (hturn : ∀ s, Invariant s →
      (∃ next, turn s = .again next ∧ Invariant next ∧ measure next < measure s) ∨
        turn s = .leave result) {s : S} (hinit : Invariant s) :
    Returns (fun turns => run turn turns s) result := by
  obtain ⟨r, hreturns, rfl⟩ :=
    exists_returns_run Invariant (· = result) measure
      (fun s hs => (hturn s hs).imp_right fun hleave => ⟨result, hleave, rfl⟩) hinit
  exact hreturns

/-- A loop that goes on from every state of the invariant does not end. -/
theorem run_eq_none {turn : S → Turn S R} (Invariant : S → Prop)
    (hagain : ∀ s, Invariant s → ∃ next, turn s = .again next ∧ Invariant next) (turns : ℕ)
    {s : S} (hinit : Invariant s) : run turn turns s = none := by
  induction turns generalizing s with
  | zero => rfl
  | succ turns ih =>
      obtain ⟨next, hturn, hnext⟩ := hagain s hinit
      rw [run, hturn]
      exact ih hnext

/-- A loop that makes the turns of another one, from the states that stand for
those of the other. -/
theorem run_embed {T : Type*} {turn : S → Turn S R} {other : T → Turn T R} (embed : S → T)
    (hagain : ∀ s next, turn s = .again next → other (embed s) = .again (embed next))
    (hleave : ∀ s r, turn s = .leave r → other (embed s) = .leave r) (turns : ℕ) (s : S) :
    run other turns (embed s) = run turn turns s := by
  induction turns generalizing s with
  | zero => rfl
  | succ turns ih =>
      cases hturn : turn s with
      | again next =>
          rw [run, run, hagain s next hturn, hturn]
          exact ih next
      | leave r => rw [run, run, hleave s r hturn, hturn]

end Loop
