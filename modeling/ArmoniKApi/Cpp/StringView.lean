import Mathlib.Data.List.Basic

/-!
# The strings and the string views of the C++ packages

A `string_view` is a pointer and a number of characters.  The characters are those
from the pointer on, so that a view lies in its buffer if the buffer has as many of
them left (`StringView.InBuffer`).  The number is a `size_t`, whose arithmetic wraps.

`substr` clamps the position to the size, and then the length to what is left.  It
compares the sum of the two with the size, and when this sum wraps the length is not
clamped: the result reaches out of the view it was taken from
(`substr_clamped_iff`).

`split` cuts a view at a character and keeps every piece (`split_chars`).

A view is a buffer and a size that are not tied to each other, as in the source: the size may
say more than the buffer has, and then the characters of the view are not there.  The
invariant that ties them is `InBuffer`, and each operation is shown to keep it or to break it.

* `toNat_clamp` and `toNat_size_substr` compute the numbers of `substr`, wraps included.
* `isClamped_substr` is the good case and `substr_clamped_iff` says that there is only one
  exception to the bad one, the length `npos`, which the source treats by itself.
* `found_spec` and `lastPiece_chars` are one turn of `split`: the piece before the delimiter
  and the rest behind it.  `splitFrom_chars` is the induction over the number of turns, with
  the start of the next piece generalized.
-/

namespace ArmoniKApi.Cpp

/-- `std::size_t`, of 64 bits. -/
abbrev SizeT := UInt64

/-- `std::string::npos`. -/
def npos : SizeT := 18446744073709551615

/-- A `string_view`.  `data` is what the pointer leads to, up to the end of the
buffer. -/
structure StringView where
  data : List Char
  size : SizeT
  deriving DecidableEq

/-- `std::string`.  Its size is a `size_t`. -/
structure StdString where
  chars : List Char
  length_lt : chars.length < 18446744073709551616

/-- `std::isspace` in the "C" locale. -/
def isSpace (ch : Char) : Bool :=
  ch = ' ' || ch = '\t' || ch = '\n' || ch = '\x0b' || ch = '\x0c' || ch = '\r'

namespace StringView

/-- The view of a string. -/
def ofString (s : StdString) : StringView := ⟨s.chars, UInt64.ofNat s.chars.length⟩

/-- The view lies in its buffer. -/
def InBuffer (self : StringView) : Prop := self.size.toNat ≤ self.data.length

/-- The characters of the view. -/
def chars (self : StringView) : List Char := self.data.take self.size.toNat

/-! ## The operations -/

/-- `substr`. -/
def substr (self : StringView) (pos len : SizeT) : StringView where
  data := self.data.drop (if pos < self.size then pos else self.size).toNat
  size :=
    if len = npos ∨ (if pos < self.size then pos else self.size) + len > self.size then
      self.size - (if pos < self.size then pos else self.size)
    else len

/-- The loop of `find(char)`, over the indices that are left. -/
def findFrom (self : StringView) (c : Char) : ℕ → SizeT → SizeT
  | 0, _ => npos
  | left + 1, i => if self.data[i.toNat]? = some c then i else findFrom self c left (i + 1)

/-- `find(char)`. -/
def find (self : StringView) (c : Char) (pos : SizeT) : SizeT :=
  self.findFrom c (self.size.toNat - pos.toNat) pos

/-- `contains`. -/
def contains (self : StringView) (c : Char) : Bool := self.find c 0 ≠ npos

/-- The loop of `split`.  Each turn moves `start` behind a delimiter, so that there are
no more turns than characters. -/
def splitFrom (self : StringView) (delim : Char) : ℕ → SizeT → List StringView
  | 0, start => [⟨self.data.drop start.toNat, self.size - start⟩]
  | turns + 1, start =>
      let pos := self.find delim start
      if pos = npos then [⟨self.data.drop start.toNat, self.size - start⟩]
      else ⟨self.data.drop start.toNat, pos - start⟩ :: splitFrom self delim turns (pos + 1)

/-- `split`. -/
def split (self : StringView) (delim : Char) : List StringView :=
  self.splitFrom delim self.size.toNat 0

/-! ## Parts of a view -/

theorem toNat_npos : npos.toNat = 18446744073709551615 := rfl

/-- The position of `substr` is clamped to the size. -/
theorem toNat_clamp (pos size : SizeT) :
    (if pos < size then pos else size).toNat = min pos.toNat size.toNat := by
  split
  · rename_i hlt
    rw [UInt64.lt_iff_toNat_lt] at hlt
    omega
  · rename_i hge
    rw [UInt64.lt_iff_toNat_lt] at hge
    omega

/-- The size of `substr`, with the sum that wraps. -/
theorem toNat_size_substr (self : StringView) (pos len : SizeT) :
    (self.substr pos len).size.toNat =
      if len = npos ∨
          self.size.toNat < (min pos.toNat self.size.toNat + len.toNat) % 18446744073709551616 then
        self.size.toNat - min pos.toNat self.size.toNat
      else len.toNat := by
  have hclamp := toNat_clamp pos self.size
  have hle : (if pos < self.size then pos else self.size) ≤ self.size := by
    rw [UInt64.le_iff_toNat_le, hclamp]
    exact Nat.min_le_right _ _
  unfold substr
  generalize (if pos < self.size then pos else self.size) = start at hclamp hle ⊢
  have hsum : start + len > self.size ↔
      self.size.toNat < (min pos.toNat self.size.toNat + len.toNat) % 18446744073709551616 := by
    rw [gt_iff_lt, UInt64.lt_iff_toNat_lt, UInt64.toNat_add, hclamp]
  simp only [hsum]
  split
  · rw [UInt64.toNat_sub_of_le _ _ hle, hclamp]
  · rfl

/-- The view of the characters from `pos` to `pos + len`, both clamped to the size,
which lies inside the view. -/
structure IsClamped (whole : StringView) (pos len : ℕ) (view : StringView) : Prop where
  data : view.data = whole.data.drop (min pos whole.size.toNat)
  size : view.size.toNat = min (pos + len) whole.size.toNat - min pos whole.size.toNat
  inside : min pos whole.size.toNat + view.size.toNat ≤ whole.size.toNat

theorem data_substr (self : StringView) (pos len : SizeT) :
    (self.substr pos len).data = self.data.drop (min pos.toNat self.size.toNat) :=
  congrArg (List.drop · self.data) (toNat_clamp pos self.size)

/-- The result is clamped if the sum of the clamped position and the length does not
wrap. -/
theorem isClamped_substr (self : StringView) (pos len : SizeT)
    (hfits : min pos.toNat self.size.toNat + len.toNat < 18446744073709551616) :
    self.IsClamped pos.toNat len.toNat (self.substr pos len) := by
  have hsize := toNat_size_substr self pos len
  have hdata := data_substr self pos len
  have hself := self.size.toNat_lt
  rw [Nat.mod_eq_of_lt hfits] at hsize
  split at hsize
  · rename_i hrest
    have hlen : self.size.toNat ≤ min pos.toNat self.size.toNat + len.toNat := by
      rcases hrest with rfl | hlt
      · rw [toNat_npos]
        omega
      · exact Nat.le_of_lt hlt
    exact ⟨hdata, by omega, by omega⟩
  · exact ⟨hdata, by omega, by omega⟩

/-- With `npos` it is all that is left. -/
theorem isClamped_substr_npos (self : StringView) (pos : SizeT) :
    self.IsClamped pos.toNat npos.toNat (self.substr pos npos) := by
  have hsize := toNat_size_substr self pos npos
  have hself := self.size.toNat_lt
  rw [if_pos (.inl rfl)] at hsize
  rw [toNat_npos]
  exact ⟨data_substr self pos npos, by omega, by omega⟩

/-- The result is clamped exactly if that sum does not wrap, or the length is `npos`. -/
theorem substr_clamped_iff (self : StringView) (pos len : SizeT) :
    self.IsClamped pos.toNat len.toNat (self.substr pos len) ↔
      len = npos ∨ min pos.toNat self.size.toNat + len.toNat < 18446744073709551616 := by
  have hsize := toNat_size_substr self pos len
  have hlen := len.toNat_lt
  have hself := self.size.toNat_lt
  by_cases hnpos : len = npos
  · exact iff_of_true (hnpos ▸ isClamped_substr_npos self pos) (.inl hnpos)
  · have hne : len.toNat ≠ 18446744073709551615 := fun h => hnpos (UInt64.toNat_inj.mp h)
    simp only [hnpos, false_or] at hsize ⊢
    refine ⟨?_, isClamped_substr self pos len⟩
    intro hclamped
    by_contra hwraps
    -- a sum that wraps is small, and the length is kept
    rw [if_neg (by omega)] at hsize
    have hinside := hclamped.inside
    omega

/-- A length that is not `npos`, but almost. -/
theorem substr_reaches_out :
    ¬(StringView.mk "armonik".toList 7).IsClamped 3 18446744073709551614
      ((StringView.mk "armonik".toList 7).substr 3 18446744073709551614) := by
  intro hclamped
  have hinside := hclamped.inside
  revert hinside
  decide

/-! ## Pieces of a view -/

theorem toNat_size_ofString (s : StdString) : (ofString s).size.toNat = s.chars.length :=
  UInt64.toNat_ofNat'.trans (Nat.mod_eq_of_lt s.length_lt)

theorem inBuffer_ofString (s : StdString) : (ofString s).InBuffer :=
  Nat.le_of_eq (toNat_size_ofString s)

theorem chars_ofString (s : StdString) : (ofString s).chars = s.chars := by
  rw [chars, toNat_size_ofString]
  exact List.take_length

theorem length_chars {self : StringView} (hbuffer : self.InBuffer) :
    self.chars.length = self.size.toNat := by
  rw [chars, List.length_take]
  exact Nat.min_eq_left hbuffer

/-- `find` goes to the first occurrence in the rest of the view, if there is one. -/
theorem find_cases {self : StringView} (hbuffer : self.InBuffer) (c : Char) (pos : SizeT)
    (hpos : pos.toNat ≤ self.size.toNat) :
    (c ∉ self.chars.drop pos.toNat ∧ self.find c pos = npos) ∨
      ∃ before after, self.chars.drop pos.toNat = before ++ c :: after ∧ c ∉ before ∧
        (self.find c pos).toNat = pos.toNat + before.length := by
  unfold find
  have hself := self.size.toNat_lt
  have hlength := length_chars hbuffer
  induction hleft : self.size.toNat - pos.toNat generalizing pos with
  | zero =>
      refine .inl ⟨?_, rfl⟩
      rw [List.drop_eq_nil_of_le (by omega)]
      exact List.not_mem_nil
  | succ left ih =>
      have hlt : pos.toNat < self.chars.length := by omega
      have hdata : self.data[pos.toNat]? = some self.chars[pos.toNat] := by
        rw [← List.getElem?_eq_getElem hlt, chars, List.getElem?_take_of_lt (by omega)]
      have hdrop := List.drop_eq_getElem_cons hlt
      rw [findFrom, hdata, hdrop]
      by_cases hc : self.chars[pos.toNat] = c
      · rw [if_pos (congrArg some hc), hc]
        exact .inr ⟨[], self.chars.drop (pos.toNat + 1), rfl, List.not_mem_nil, rfl⟩
      · have hnext : (pos + 1).toNat = pos.toNat + 1 := by
          rw [UInt64.toNat_add]
          exact Nat.mod_eq_of_lt (by show pos.toNat + 1 < 2 ^ 64; omega)
        -- the next position does not wrap, as it is within the view
        rw [if_neg fun h => hc (Option.some.inj h), ← hnext]
        rcases ih (pos + 1) (by omega) (by omega) with
          ⟨hnone, hfind⟩ | ⟨before, after, hrest, hbefore, hfind⟩
        · exact .inl ⟨List.not_mem_cons_of_ne_of_not_mem (Ne.symm hc) hnone, hfind⟩
        · refine .inr ⟨self.chars[pos.toNat] :: before, after, ?_, ?_, ?_⟩
          · rw [hrest, List.cons_append]
          · exact List.not_mem_cons_of_ne_of_not_mem (Ne.symm hc) hbefore
          · rw [hfind, hnext, List.length_cons]
            omega

theorem contains_iff {self : StringView} (hbuffer : self.InBuffer) (c : Char) :
    self.contains c = true ↔ c ∈ self.chars := by
  have hself := self.size.toNat_lt
  have hlength := length_chars hbuffer
  rw [contains, decide_eq_true_iff]
  rcases find_cases hbuffer c 0 (Nat.zero_le _) with
    ⟨hnone, hfind⟩ | ⟨before, after, hsplit, -, hfind⟩
  · exact iff_of_false (not_not_intro hfind) hnone
  · have hchars : self.chars = before ++ c :: after := hsplit
    have hlt : before.length < self.chars.length := by
      rw [hchars, List.length_append, List.length_cons]
      omega
    refine iff_of_true ?_ (hchars ▸ List.mem_append_right before List.mem_cons_self)
    intro hnpos
    rw [hnpos, toNat_npos] at hfind
    have hzero : (0 : SizeT).toNat = 0 := rfl
    omega

/-- The characters of a part of the view. -/
theorem chars_part {self : StringView} {start length : SizeT}
    (hpart : start.toNat + length.toNat ≤ self.size.toNat) :
    (StringView.mk (self.data.drop start.toNat) length).chars =
      (self.chars.drop start.toNat).take length.toNat := by
  unfold chars
  rw [List.drop_take, List.take_take, Nat.min_eq_left (by omega)]

/-- The characters of `substr`. -/
theorem chars_substr {self : StringView} {pos len : SizeT} (hpos : pos.toNat ≤ self.size.toNat)
    (hfits : pos.toNat + len.toNat < 18446744073709551616) :
    (self.substr pos len).chars = (self.chars.drop pos.toNat).take len.toNat := by
  have hmin := Nat.min_eq_left hpos
  obtain ⟨hdata, hsize, -⟩ := isClamped_substr self pos len
    (by rw [hmin]; exact hfits)
  unfold chars
  rw [hdata, hsize, hmin, List.drop_take, List.take_take]
  congr 1
  omega

theorem inBuffer_part {self : StringView} (hbuffer : self.InBuffer) {start length : SizeT}
    (hpart : start.toNat + length.toNat ≤ self.size.toNat) :
    (StringView.mk (self.data.drop start.toNat) length).InBuffer := by
  unfold InBuffer at hbuffer
  show length.toNat ≤ (self.data.drop start.toNat).length
  rw [List.length_drop]
  omega

/-- The last piece is the rest of the view, which has no delimiter. -/
theorem lastPiece_chars {self : StringView} (hbuffer : self.InBuffer) {delim : Char}
    {start : SizeT} (hstart : start.toNat ≤ self.size.toNat)
    (hnone : delim ∉ self.chars.drop start.toNat) :
    [StringView.mk (self.data.drop start.toNat) (self.size - start)].map chars =
        (self.chars.drop start.toNat).splitOn delim ∧
      ∀ piece ∈ [StringView.mk (self.data.drop start.toNat) (self.size - start)],
        piece.InBuffer := by
  have hlength := length_chars hbuffer
  have hrest : (self.size - start).toNat = self.size.toNat - start.toNat :=
    UInt64.toNat_sub_of_le _ _ (UInt64.le_iff_toNat_le.mpr hstart)
  have hlast : start.toNat + (self.size - start).toNat ≤ self.size.toNat := by omega
  constructor
  · rw [List.splitOn_eq_singleton hnone, List.map_singleton, chars_part hlast,
      List.take_of_length_le (by rw [List.length_drop]; omega)]
  · simpa using inBuffer_part hbuffer hlast

/-- A delimiter that was found, the piece before it, and the rest after it. -/
theorem found_spec {self : StringView} (hbuffer : self.InBuffer) {delim : Char}
    {before after : List Char} {start found : SizeT} (hstart : start.toNat ≤ self.size.toNat)
    (hsplit : self.chars.drop start.toNat = before ++ delim :: after)
    (hfound : found.toNat = start.toNat + before.length) :
    found.toNat < self.size.toNat ∧ (found + 1).toNat = found.toNat + 1 ∧
      (found - start).toNat = before.length ∧ self.chars.drop (found + 1).toNat = after := by
  have hself := self.size.toNat_lt
  have hlong := congrArg List.length hsplit
  rw [List.length_drop, length_chars hbuffer, List.length_append, List.length_cons] at hlong
  have hnext : (found + 1).toNat = found.toNat + 1 := by
    rw [UInt64.toNat_add]
    exact Nat.mod_eq_of_lt (by show found.toNat + 1 < 2 ^ 64; omega)
  refine ⟨by omega, hnext, ?_, ?_⟩
  · rw [UInt64.toNat_sub_of_le _ _ (UInt64.le_iff_toNat_le.mpr (by omega)), hfound]
    omega
  · rw [hnext, hfound, Nat.add_assoc, ← List.drop_drop, hsplit, ← List.singleton_append,
      ← List.append_assoc]
    exact List.drop_left' (by simp)

/-- The pieces from `start` on, each of which lies in its buffer. -/
theorem splitFrom_chars {self : StringView} (hbuffer : self.InBuffer) (delim : Char) {turns : ℕ}
    (start : SizeT) (hstart : start.toNat ≤ self.size.toNat)
    (hturns : self.size.toNat - start.toNat ≤ turns) :
    (self.splitFrom delim turns start).map chars =
        (self.chars.drop start.toNat).splitOn delim ∧
      ∀ piece ∈ self.splitFrom delim turns start, piece.InBuffer := by
  have hself := self.size.toNat_lt
  have hlength := length_chars hbuffer
  induction turns generalizing start with
  -- no turn is left only when nothing is left of the view
  | zero =>
      refine lastPiece_chars hbuffer hstart ?_
      rw [List.drop_eq_nil_of_le (by omega)]
      exact List.not_mem_nil
  | succ turns ih =>
      rcases find_cases hbuffer delim start hstart with
        ⟨hnone, hfind⟩ | ⟨before, after, hsplit, hbefore, hfind⟩
      · rw [splitFrom]
        simp only [hfind, if_true]
        exact lastPiece_chars hbuffer hstart hnone
      · obtain ⟨hlt, hnext, hpiece, hafter⟩ := found_spec hbuffer hstart hsplit hfind
        have hfound : self.find delim start ≠ npos := by
          intro h
          rw [h, toNat_npos] at hlt
          omega
        -- the piece ends before the separator, and the rest begins behind it
        have hpart : start.toNat + (self.find delim start - start).toNat ≤ self.size.toNat := by
          omega
        obtain ⟨hchars, hbuffers⟩ := ih (self.find delim start + 1) (by omega) (by omega)
        rw [splitFrom]
        simp only [if_neg hfound]
        constructor
        · rw [List.map_cons, hchars, hafter, chars_part hpart, hpiece, hsplit,
            List.take_left, List.splitOn_append_cons_self_of_not_mem hbefore]
        · exact List.forall_mem_cons.mpr ⟨inBuffer_part hbuffer hpart, hbuffers⟩

/-- The pieces between the delimiters, all of them. -/
theorem split_chars {self : StringView} (hbuffer : self.InBuffer) (delim : Char) :
    (self.split delim).map chars = self.chars.splitOn delim ∧
      ∀ piece ∈ self.split delim, piece.InBuffer :=
  splitFrom_chars hbuffer delim 0 (Nat.zero_le _) (Nat.sub_le _ _)

end StringView

end ArmoniKApi.Cpp
