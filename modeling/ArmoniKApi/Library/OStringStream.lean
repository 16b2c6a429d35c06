import Mathlib.Data.List.Basic

/-!
# An output stream into a string

The part of the C++ standard's `std::ostringstream` that a program relies on
when it copies other streams into one.  Inserting a stream buffer copies its
characters; a buffer that yields none sets `failbit`, and a stream whose
`failbit` is set ignores every later insertion.  `str("")` empties the string
and leaves the state alone.

So a stream that is used for several buffers in turn, with `str("")` in between,
gives nothing back from the first empty buffer on: `failbit_insert` and
`str_insert` say what one insertion does to it.

Only two parts of the state are kept, the characters and `failbit`; the programs that are
modelled set no other flag and read nothing else.
-/

variable {α : Type*}

/-- An output string stream over characters `α`. -/
structure OStringStream (α : Type*) where
  str : List α
  failbit : Bool
  deriving DecidableEq, Repr

namespace OStringStream

/-- A new stream. -/
def empty : OStringStream α := ⟨[], false⟩

/-- `stream << buffer`, for a stream buffer that yields `chars`. -/
def insert (stream : OStringStream α) (chars : List α) : OStringStream α :=
  if stream.failbit then stream
  else if chars.isEmpty then { stream with failbit := true }
  else { stream with str := stream.str ++ chars }

/-- `stream.str("")`. -/
def clearStr (stream : OStringStream α) : OStringStream α := { stream with str := [] }

@[simp] theorem failbit_insert (stream : OStringStream α) (chars : List α) :
    (stream.insert chars).failbit = (stream.failbit || chars.isEmpty) := by
  unfold insert
  split_ifs <;> simp_all

theorem str_insert (stream : OStringStream α) (chars : List α) :
    (stream.insert chars).str = stream.str ++ if stream.failbit then [] else chars := by
  unfold insert
  split_ifs <;> simp_all

end OStringStream
