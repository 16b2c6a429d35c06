import ArmoniKApi.Cpp.StringView
import ArmoniKApi.Library.Loop
import ArmoniKApi.Library.Separator

/-!
# Searching a view for another one

`find(string_view)` tries the positions one after another, and compares the needle with
what stands there character by character.  The positions are unsigned and their sums
wrap, so that the loop ends only because the sum of a position and the size of the needle
stays below the largest `size_t`.

No object is as large as that: a view of memory ends at a pointer, and its size is not
`npos` (`StringView.InMemory`).

* `matchFrom_eq`: the inner loop reads inside of both views and compares them.
* `findNeedle_spec`: the search ends at the first occurrence, or at `npos`.
* `find_and_split`: this, and what the pieces of `split` are.

## Strategy

The outer loop has an invariant (`Scanned`): the needle stands at no position before `i`, and
either it still fits at `i` or `i` is one behind the last position where it does.

* `findTurn_eq` says what a turn does where the needle fits: it leaves with the position, or
  goes on with the next one.
* `Scanned.next` and `Scanned.last` keep the invariant, or read the result off it.
* `returns_findLoop` puts the turns together with the rule of the library for total
  correctness; the measure is the distance to the end.

All positions are of type `SizeT`, so that every sum has to be shown not to wrap.  The facts
about numbers are stated after `toNat`, where they are linear.

`Found` is what other functions rely on.  It has two cases, the first occurrence from `pos`
on and none at all, and does not mention the loop.
-/

namespace ArmoniKApi.Cpp

open Loop (Returns)

namespace StringView

/-! ## The code -/

/-- The inner loop of `find(string_view)`, over the characters of the needle that are left.
A character outside of a buffer is undefined, and then there is no answer. -/
def matchFrom (self needle : StringView) (i : SizeT) : ℕ → SizeT → Option Bool
  | 0, _ => some true
  | left + 1, j => do
      let c ← self.data[(i + j).toNat]?
      let d ← needle.data[j.toNat]?
      if c ≠ d then some false else matchFrom self needle i left (j + 1)

/-- A turn of the outer loop. -/
def findTurn (self needle : StringView) (i : SizeT) : Loop.Turn SizeT (Option SizeT) :=
  if i + needle.size ≤ self.size then
    match matchFrom self needle i needle.size.toNat 0 with
    | some true => .leave (some i)
    | some false => .again (i + 1)
    | none => .leave none
  else .leave (some npos)

/-- `find(string_view)`. -/
def findNeedle (self needle : StringView) (pos : SizeT) (turns : ℕ) : Option SizeT :=
  if pos > self.size then some npos
  else if needle.size = 0 then some pos
  else if needle.size > self.size - pos then some npos
  else (Loop.run (findTurn self needle) turns pos).join

/-! ## What a search finds -/

/-- The view lies in its buffer, and the buffer in memory. -/
structure InMemory (view : StringView) : Prop where
  inBuffer : view.InBuffer
  size_lt : view.size.toNat < 18446744073709551615

/-- The needle stands in the view, at `i`. -/
structure OccursAt (view needle : StringView) (i : SizeT) : Prop where
  inside : i.toNat ≤ view.size.toNat
  here : needle.chars <+: view.chars.drop i.toNat

/-- The least index from `pos` on at which the needle stands. -/
structure IsFirst (view needle : StringView) (pos i : SizeT) : Prop where
  after_pos : pos ≤ i
  occurs : view.OccursAt needle i
  least : ∀ k, pos ≤ k → k < i → ¬view.OccursAt needle k

variable {self needle : StringView}

/-- An occurrence ends inside of the view. -/
theorem OccursAt.fits {i : SizeT} (hself : self.InBuffer) (hneedle : needle.InBuffer)
    (hoccurs : self.OccursAt needle i) : i.toNat + needle.size.toNat ≤ self.size.toNat := by
  have hlength := hoccurs.here.length_le
  rw [List.length_drop, length_chars hself, length_chars hneedle] at hlength
  have hinside := hoccurs.inside
  omega

theorem OccursAt.ne_npos {i : SizeT} (hself : self.InMemory) (hoccurs : self.OccursAt needle i) :
    i ≠ npos := by
  rintro rfl
  have hinside := hoccurs.inside
  rw [toNat_npos] at hinside
  have hlt := hself.size_lt
  omega

/-- The empty view stands everywhere. -/
theorem occursAt_of_size_eq_zero {i : SizeT} (hempty : needle.size = 0)
    (hinside : i.toNat ≤ self.size.toNat) : self.OccursAt needle i := by
  refine ⟨hinside, ?_⟩
  rw [chars, hempty]
  exact List.nil_prefix

/-! ## The loops -/

theorem getElem?_data {i : ℕ} (hself : self.InBuffer) (hi : i < self.size.toNat) :
    ∃ c rest, self.data[i]? = some c ∧ self.chars.drop i = c :: rest ∧
      self.chars.drop (i + 1) = rest := by
  have hlt : i < self.chars.length := by rwa [length_chars hself]
  refine ⟨self.chars[i], _, ?_, List.drop_eq_getElem_cons hlt, rfl⟩
  rw [← List.getElem?_eq_getElem hlt, chars, List.getElem?_take_of_lt hi]

/-- The inner loop compares what is left of the needle with what stands in the view. -/
theorem matchFrom_eq (hself : self.InBuffer) (hneedle : needle.InBuffer) {i : SizeT}
    (hfits : i.toNat + needle.size.toNat ≤ self.size.toNat) (left : ℕ) (j : SizeT)
    (hleft : j.toNat + left = needle.size.toNat) :
    self.matchFrom needle i left j =
      some (decide (needle.chars.drop j.toNat <+: self.chars.drop (i.toNat + j.toNat))) := by
  have hsize := self.size.toNat_lt
  induction left generalizing j with
  | zero =>
      have hnil : needle.chars.drop j.toNat = [] :=
        List.drop_eq_nil_of_le (by rw [length_chars hneedle]; omega)
      rw [matchFrom, hnil, decide_eq_true List.nil_prefix]
  | succ left ih =>
      -- the indices stay within the view, so that their sum does not wrap
      have hsum : (i + j).toNat = i.toNat + j.toNat := by
        rw [UInt64.toNat_add]
        exact Nat.mod_eq_of_lt (by show i.toNat + j.toNat < 2 ^ 64; omega)
      have hnext : (j + 1).toNat = j.toNat + 1 := by
        rw [UInt64.toNat_add]
        exact Nat.mod_eq_of_lt (by show j.toNat + 1 < 2 ^ 64; omega)
      obtain ⟨c, rest, hc, hdropSelf, hrest⟩ :=
        getElem?_data (i := i.toNat + j.toNat) hself (by omega)
      obtain ⟨d, others, hd, hdropNeedle, hothers⟩ :=
        getElem?_data (i := j.toNat) hneedle (by omega)
      have hih := ih (j + 1) (by omega)
      rw [hnext, ← Nat.add_assoc, hrest, hothers] at hih
      rw [matchFrom, hsum, hc, hd, hdropSelf, hdropNeedle, Option.bind_eq_bind,
        Option.bind_some, Option.bind_some, hih]
      by_cases heq : c = d
      · rw [if_neg (not_not_intro heq), heq]
        simp only [List.prefix_cons_inj]
      · rw [if_pos heq, decide_eq_false]
        intro hprefix
        exact heq (List.cons_prefix_cons.mp hprefix).1.symm

/-- A turn at a position where the needle fits. -/
theorem findTurn_eq (hself : self.InBuffer) (hneedle : needle.InBuffer) {i : SizeT}
    (hfits : i.toNat + needle.size.toNat ≤ self.size.toNat) :
    findTurn self needle i =
      if needle.chars <+: self.chars.drop i.toNat then .leave (some i) else .again (i + 1) := by
  have hsize := self.size.toNat_lt
  have hsum : (i + needle.size).toNat = i.toNat + needle.size.toNat := by
    rw [UInt64.toNat_add]
    exact Nat.mod_eq_of_lt (by show i.toNat + needle.size.toNat < 2 ^ 64; omega)
  have hle : i + needle.size ≤ self.size := by
    rw [UInt64.le_iff_toNat_le, hsum]
    exact hfits
  have hmatch := matchFrom_eq hself hneedle hfits needle.size.toNat 0 (Nat.zero_add _)
  rw [findTurn, if_pos hle, hmatch]
  by_cases hhere : needle.chars <+: self.chars.drop i.toNat
  · simp [hhere]
  · simp [hhere]

/-- What the search from `pos` may end with. -/
def Found (self needle : StringView) (pos result : SizeT) : Prop :=
  self.IsFirst needle pos result ∨
    result = npos ∧ ∀ i, pos ≤ i → ¬self.OccursAt needle i

/-- The invariant of the outer loop at `i`: the needle does not stand before `i`.  At the
last turn, `i` is one behind the last position where it fits. -/
structure Scanned (view needle : StringView) (pos i : SizeT) : Prop where
  after_pos : pos ≤ i
  fits : i.toNat + needle.size.toNat ≤ view.size.toNat + 1
  none_before : ∀ k, pos ≤ k → k < i → ¬view.OccursAt needle k

/-- A turn at which the needle does not stand there. -/
theorem Scanned.next {pos i : SizeT} (hscanned : self.Scanned needle pos i)
    (hfits : i.toNat + needle.size.toNat ≤ self.size.toNat) (hsize : needle.size ≠ 0)
    (hnot : ¬needle.chars <+: self.chars.drop i.toNat) :
    self.Scanned needle pos (i + 1) ∧ (i + 1).toNat = i.toNat + 1 := by
  have hself := self.size.toNat_lt
  have hpositive : needle.size.toNat ≠ 0 := fun h => hsize (UInt64.toNat_inj.mp h)
  have hnext : (i + 1).toNat = i.toNat + 1 := by
    rw [UInt64.toNat_add]
    exact Nat.mod_eq_of_lt (by show i.toNat + 1 < 2 ^ 64; omega)
  have hpos := UInt64.le_iff_toNat_le.mp hscanned.after_pos
  refine ⟨⟨?_, by omega, ?_⟩, hnext⟩
  · rw [UInt64.le_iff_toNat_le]
    omega
  · intro k hk hlt
    rw [UInt64.lt_iff_toNat_lt, hnext] at hlt
    by_cases hki : k = i
    · rw [hki]
      exact fun hoccurs => hnot hoccurs.here
    · have hne : k.toNat ≠ i.toNat := fun h => hki (UInt64.toNat_inj.mp h)
      exact hscanned.none_before k hk (UInt64.lt_iff_toNat_lt.mpr (by omega))

/-- The last turn: the needle does not fit any more. -/
theorem Scanned.last {pos i : SizeT} (hself : self.InBuffer) (hneedle : needle.InBuffer)
    (hscanned : self.Scanned needle pos i)
    (hlast : self.size.toNat < i.toNat + needle.size.toNat) :
    ∀ k, pos ≤ k → ¬self.OccursAt needle k := by
  intro k hk hoccurs
  have hfits := hoccurs.fits hself hneedle
  exact hscanned.none_before k hk (UInt64.lt_iff_toNat_lt.mpr (by omega)) hoccurs

/-- The outer loop ends, with the first occurrence or with `npos`. -/
theorem returns_findLoop (hself : self.InMemory) (hneedle : needle.InBuffer)
    (hsize : needle.size ≠ 0) {pos : SizeT} (hpos : self.Scanned needle pos pos) :
    ∃ result, Returns (fun turns => Loop.run (findTurn self needle) turns pos) result ∧
      ∃ index, result = some index ∧ self.Found needle pos index := by
  refine Loop.exists_returns_run (self.Scanned needle pos)
    (fun result => ∃ index, result = some index ∧ self.Found needle pos index)
    (fun i => self.size.toNat + 1 - i.toNat) ?_ hpos
  intro i hscanned
  have hlt := hself.size_lt
  have hsum : (i + needle.size).toNat = i.toNat + needle.size.toNat := by
    have hfits := hscanned.fits
    rw [UInt64.toNat_add]
    exact Nat.mod_eq_of_lt (by show i.toNat + needle.size.toNat < 2 ^ 64; omega)
  by_cases hfits : i.toNat + needle.size.toNat ≤ self.size.toNat
  · rw [findTurn_eq hself.inBuffer hneedle hfits]
    split
    · rename_i hhere
      exact .inr ⟨_, rfl, i, rfl,
        .inl ⟨hscanned.after_pos, ⟨by omega, hhere⟩, hscanned.none_before⟩⟩
    -- the needle is not here, and the next position is still within the view
    · rename_i hnot
      obtain ⟨hnextScanned, hnext⟩ := hscanned.next hfits hsize hnot
      exact .inl ⟨i + 1, rfl, hnextScanned, by omega⟩
  -- the needle would end behind the view: there is none from here on
  · have hstop : ¬i + needle.size ≤ self.size := by
      rw [UInt64.le_iff_toNat_le, hsum]
      exact hfits
    rw [findTurn, if_neg hstop]
    exact .inr ⟨_, rfl, npos, rfl,
      .inr ⟨rfl, hscanned.last hself.inBuffer hneedle (Nat.lt_of_not_le hfits)⟩⟩

/-- The search ends, with the first occurrence or with `npos`. -/
theorem findNeedle_spec (hself : self.InMemory) (hneedle : needle.InBuffer) (pos : SizeT) :
    ∃ result, Returns (self.findNeedle needle pos) result ∧ self.Found needle pos result := by
  unfold findNeedle
  by_cases hpos : pos ≤ self.size
  · have hinside : ¬pos > self.size := UInt64.not_lt.mpr hpos
    simp only [if_neg hinside]
    have hposNat := UInt64.le_iff_toNat_le.mp hpos
    by_cases hempty : needle.size = 0
    · -- the empty needle stands at `pos`
      simp only [if_pos hempty]
      refine ⟨pos, Loop.returns_pure pos, .inl ⟨UInt64.le_refl pos, ?_, ?_⟩⟩
      · exact occursAt_of_size_eq_zero hempty hposNat
      · exact fun k hk hlt => absurd hk (UInt64.not_le.mpr hlt)
    · simp only [if_neg hempty]
      have hrest : (self.size - pos).toNat = self.size.toNat - pos.toNat :=
        UInt64.toNat_sub_of_le _ _ hpos
      have hpositive : needle.size.toNat ≠ 0 := fun h => hempty (UInt64.toNat_inj.mp h)
      split
      · rename_i hlong
        rw [gt_iff_lt, UInt64.lt_iff_toNat_lt, hrest] at hlong
        refine ⟨npos, Loop.returns_pure npos, .inr ⟨rfl, fun i hi hoccurs => ?_⟩⟩
        have hfits := hoccurs.fits hself.inBuffer hneedle
        have hle := UInt64.le_iff_toNat_le.mp hi
        omega
      · rename_i hshort
        rw [gt_iff_lt, UInt64.lt_iff_toNat_lt, hrest] at hshort
        obtain ⟨result, hreturns, index, rfl, hfound⟩ :=
          returns_findLoop hself hneedle hempty
            ⟨UInt64.le_refl pos, by omega, fun k hk hlt => absurd hk (UInt64.not_le.mpr hlt)⟩
        have hjoin := hreturns.bind (g := fun _ result => result) (Loop.returns_pure index)
        exact ⟨index, hjoin, hfound⟩
  · -- a position past the end
    have hpast : pos > self.size := UInt64.not_le.mp hpos
    simp only [if_pos hpast]
    refine ⟨npos, Loop.returns_pure npos, .inr ⟨rfl, fun i hi hoccurs => hpos ?_⟩⟩
    exact UInt64.le_trans hi (UInt64.le_iff_toNat_le.mpr hoccurs.inside)

/-! ## Searching and splitting -/

/-- The pieces of a view between its delimiters. -/
structure IsSplit (view : StringView) (delim : Char) (pieces : List StringView) : Prop where
  inBuffer : ∀ piece ∈ pieces, piece.InBuffer
  no_delim : ∀ piece ∈ pieces, delim ∉ piece.chars
  length_eq : pieces.length = view.chars.count delim + 1
  joined : [delim].intercalate (pieces.map chars) = view.chars

theorem split_isSplit (hself : self.InBuffer) (delim : Char) :
    self.IsSplit delim (self.split delim) := by
  obtain ⟨hchars, hbuffers⟩ := split_chars hself delim
  refine ⟨hbuffers, ?_, ?_, ?_⟩
  · intro piece hpiece
    have hmem : piece.chars ∈ self.chars.splitOn delim :=
      hchars ▸ List.mem_map_of_mem hpiece
    exact Separator.not_mem_of_mem_splitOn hmem
  · rw [← Separator.length_splitOn, ← hchars, List.length_map]
  · rw [hchars]
    exact List.intercalate_splitOn delim

/-- A search ends at the first occurrence, and with `npos` just when there is none; and a
view is the pieces it is split into, with the delimiter between them. -/
theorem find_and_split (hself : self.InMemory) (hneedle : needle.InBuffer) (pos : SizeT)
    (delim : Char) :
    (∃ result, Returns (self.findNeedle needle pos) result ∧
      (result ≠ npos → self.IsFirst needle pos result) ∧
      (result = npos ↔ ∀ i, pos ≤ i → ¬self.OccursAt needle i) ∧
      (needle.size = 0 → pos ≤ self.size → result = pos)) ∧
    self.IsSplit delim (self.split delim) := by
  refine ⟨?_, split_isSplit hself.inBuffer delim⟩
  obtain ⟨result, hreturns, hfirst | ⟨hnpos, hnone⟩⟩ := findNeedle_spec hself hneedle pos
  · have hne : result ≠ npos := hfirst.occurs.ne_npos hself
    refine ⟨result, hreturns, fun _ => hfirst, ?_, ?_⟩
    · exact iff_of_false hne fun hnone => hnone result hfirst.after_pos hfirst.occurs
    · intro hempty hpos
      have hoccurs : self.OccursAt needle pos :=
        occursAt_of_size_eq_zero hempty (UInt64.le_iff_toNat_le.mp hpos)
      -- the needle stands at `pos`, so that the first occurrence is not behind it
      by_contra hother
      have hlt : pos < result :=
        UInt64.lt_of_le_of_ne hfirst.after_pos fun h => hother h.symm
      exact hfirst.least pos (UInt64.le_refl pos) hlt hoccurs
  · refine ⟨result, hreturns, fun hne => absurd hnpos hne, iff_of_true hnpos hnone, ?_⟩
    intro hempty hpos
    exact absurd (occursAt_of_size_eq_zero hempty (UInt64.le_iff_toNat_le.mp hpos))
      (hnone pos (UInt64.le_refl pos))

/-- A needle that overlaps itself, and a delimiter at the end. -/
theorem find_and_split_overlap :
    (StringView.mk "a:aa:aa:".toList 8).InMemory ∧ (StringView.mk "aa:aa".toList 5).InBuffer ∧
      (∃ result, Returns ((StringView.mk "a:aa:aa:".toList 8).findNeedle ⟨"aa:aa".toList, 5⟩ 1)
          result ∧
        (result ≠ npos →
          (StringView.mk "a:aa:aa:".toList 8).IsFirst ⟨"aa:aa".toList, 5⟩ 1 result) ∧
        (result = npos ↔
          ∀ i, 1 ≤ i → ¬(StringView.mk "a:aa:aa:".toList 8).OccursAt ⟨"aa:aa".toList, 5⟩ i) ∧
        ((5 : SizeT) = 0 → (1 : SizeT) ≤ 8 → result = 1)) ∧
      (StringView.mk "a:aa:aa:".toList 8).IsSplit ':'
        ((StringView.mk "a:aa:aa:".toList 8).split ':') := by
  have hself : (StringView.mk "a:aa:aa:".toList 8).InMemory :=
    ⟨by unfold InBuffer; decide, by decide⟩
  have hneedle : (StringView.mk "aa:aa".toList 5).InBuffer := by unfold InBuffer; decide
  exact ⟨hself, hneedle, find_and_split hself hneedle 1 ':'⟩

end StringView

end ArmoniKApi.Cpp
