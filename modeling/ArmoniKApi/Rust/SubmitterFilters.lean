import ArmoniKApi.Proto.Submitter
import ArmoniKApi.Rust.Enums

/-!
# The filters of the submitter service in the Rust client

A `TaskFilter` and a `SessionFilter` select by ids and by a list of statuses to
include or to exclude.  The conversion to the wire writes an `Include` list into
the arm `Excluded` and an `Exclude` list into the arm `Included`; the conversion
back reads each arm under its own name.  The ids come back unchanged.

So no filter comes back as it was, and the wire message lets through exactly the
statuses that the filter does not: `submitter_filters_never_kept`.

```text
   domain            wire                 domain again
   Include [4]       Excluded [4]         Exclude [4]
   Exclude [4]       Included [4]         Include [4]
```

The slip is in the conversion of the statuses alone, so most lemmas are about `FilterStatuses`
over any enumeration that has a codec:

* `ofV3_toV3`, `flip_ne`: what comes back is the other list, and that is never the same.
* `not_sameArm_toV3`: the list does not stand in the arm of the same name.
* `toV3_selects_iff`: the message lets through the statuses that the filter does not.

`crossed` puts the last two together, and both filters use it at their statuses.
-/

namespace ArmoniKApi.Rust

variable {S : Type}

/-! ## Statuses -/

/-- `TaskFilterStatuses` and `SessionFilterStatuses`. -/
inductive FilterStatuses (S : Type)
  | «include» (statuses : List S)
  | exclude (statuses : List S)
  deriving DecidableEq, Repr

namespace FilterStatuses

instance : Inhabited (FilterStatuses S) := ⟨.exclude []⟩

/-- The two arms are crossed, as they are in the source. -/
def toV3 (asI32 : S → Int) : FilterStatuses S → Proto.Statuses
  | .«include» statuses => .excluded ⟨statuses.map asI32⟩
  | .exclude statuses => .included ⟨statuses.map asI32⟩

/-- The arms in the other direction, with the numbers read as statuses. -/
def ofV3 (ofI32 : Int → S) : Proto.Statuses → FilterStatuses S
  | .excluded request => .exclude (request.statuses.map ofI32)
  | .included request => .«include» (request.statuses.map ofI32)

/-- The statuses that the filter lets through. -/
def Selects : FilterStatuses S → S → Prop
  | .«include» statuses, status => status ∈ statuses
  | .exclude statuses, status => status ∉ statuses

/-- The list stands in the arm of the same name. -/
def SameArm : FilterStatuses S → Proto.Statuses → Prop
  | .«include» _, .included _ => True
  | .exclude _, .excluded _ => True
  | _, _ => False

/-- Including what is excluded and the other way round. -/
def flip : FilterStatuses S → FilterStatuses S
  | .«include» statuses => .exclude statuses
  | .exclude statuses => .«include» statuses

theorem flip_ne (filter : FilterStatuses S) : filter.flip ≠ filter := by
  cases filter <;> simp [flip]

theorem not_sameArm_toV3 (asI32 : S → Int) (filter : FilterStatuses S) :
    ¬ filter.SameArm (filter.toV3 asI32) := by
  cases filter <;> simp [toV3, SameArm]

variable {codec : Codec S Int} {P : Int → Prop}

theorem ofV3_toV3 (hcodec : codec.Lawful P) (filter : FilterStatuses S) :
    ofV3 codec.decode (filter.toV3 codec.encode) = filter.flip := by
  have hlist := hcodec.list.decode_encode
  cases filter with
  | «include» statuses => exact congrArg FilterStatuses.exclude (hlist statuses)
  | exclude statuses => exact congrArg FilterStatuses.«include» (hlist statuses)

/-- A number is in the encoded list just when its status is in the list. -/
theorem mem_map_encode_iff (hcodec : codec.Lawful P) (statuses : List S) (status : S) :
    codec.encode status ∈ statuses.map codec.encode ↔ status ∈ statuses := by
  have hinjective : Function.Injective codec.encode :=
    Function.LeftInverse.injective hcodec.decode_encode
  exact List.mem_map_of_injective hinjective

theorem toV3_selects_iff (hcodec : codec.Lawful P) (filter : FilterStatuses S) (status : S) :
    (filter.toV3 codec.encode).Selects (codec.encode status) ↔ ¬ filter.Selects status := by
  cases filter with
  | «include» statuses => exact not_congr (mem_map_encode_iff hcodec statuses status)
  | exclude statuses =>
      have hmem := mem_map_encode_iff hcodec statuses status
      simp only [toV3, Selects, Proto.Statuses.Selects, hmem, not_not]

/-- The list stands in the other arm, where it lets through what the filter
does not. -/
theorem crossed (hcodec : codec.Lawful P) (filter : FilterStatuses S) :
    ¬ filter.SameArm (filter.toV3 codec.encode) ∧
      ∀ status, (filter.toV3 codec.encode).Selects (codec.encode status) ↔
        ¬ filter.Selects status :=
  ⟨filter.not_sameArm_toV3 codec.encode, filter.toV3_selects_iff hcodec⟩

end FilterStatuses

/-- `submitter::TaskFilterStatuses`. -/
abbrev TaskFilterStatuses := FilterStatuses TaskStatus

/-- `submitter::SessionFilterStatuses`. -/
abbrev SessionFilterStatuses := FilterStatuses SessionStatus

/-! ## Task filters -/

/-- `submitter::TaskFilterIds`: whole sessions, or single tasks. -/
inductive TaskFilterIds
  | sessions (ids : List String)
  | tasks (ids : List String)
  deriving DecidableEq, Repr

namespace TaskFilterIds

instance : Inhabited TaskFilterIds := ⟨.sessions []⟩

/-- Each arm by its name. -/
def codec : Codec TaskFilterIds Proto.TaskFilter.Ids where
  encode
    | .sessions ids => .session ⟨ids⟩
    | .tasks ids => .task ⟨ids⟩
  decode
    | .session request => .sessions request.ids
    | .task request => .tasks request.ids

theorem codec_lawful : codec.Lawful fun _ => True where
  decode_encode := fun ids => by cases ids <;> rfl
  encode_decode := fun ids _ => by cases ids <;> rfl

end TaskFilterIds

/-- `submitter::TaskFilter`. -/
structure TaskFilter where
  ids : TaskFilterIds
  statuses : TaskFilterStatuses
  deriving DecidableEq, Repr

namespace TaskFilter

/-- `ids = option ids, statuses = option statuses`. -/
def toV3 (filter : TaskFilter) : Proto.TaskFilter where
  ids := TaskFilterIds.codec.option.encode filter.ids
  statuses := some (filter.statuses.toV3 TaskStatus.asI32)

/-- `From<v3::submitter::TaskFilter>`: what is absent is the default. -/
def ofV3 (message : Proto.TaskFilter) : TaskFilter where
  ids := TaskFilterIds.codec.option.decode message.ids
  statuses := message.statuses.elim default (FilterStatuses.ofV3 TaskStatus.ofI32)

/-- The filter comes back, its list of statuses is in the arm of the same name,
and the message lets through the statuses that the filter does. -/
structure Kept (filter : TaskFilter) : Prop where
  roundTrip : ofV3 filter.toV3 = filter
  sameArm : ∀ statuses ∈ filter.toV3.statuses, filter.statuses.SameArm statuses
  selects : ∀ statuses ∈ filter.toV3.statuses, ∀ status,
    statuses.Selects (TaskStatus.asI32 status) ↔ filter.statuses.Selects status

theorem ofV3_toV3 (filter : TaskFilter) :
    ofV3 filter.toV3 = { filter with statuses := filter.statuses.flip } := by
  have hids : (ofV3 filter.toV3).ids = filter.ids :=
    TaskFilterIds.codec_lawful.option.decode_encode filter.ids
  have hstatuses : (ofV3 filter.toV3).statuses = filter.statuses.flip :=
    FilterStatuses.ofV3_toV3 TaskStatus.codec_lawful filter.statuses
  exact congrArg₂ TaskFilter.mk hids hstatuses

end TaskFilter

/-! ## Session filters -/

/-- `submitter::SessionFilter`. -/
structure SessionFilter where
  ids : List String
  statuses : SessionFilterStatuses
  deriving DecidableEq, Repr

namespace SessionFilter

/-- `list ids = list sessions, statuses = option statuses`. -/
def toV3 (filter : SessionFilter) : Proto.SessionFilter where
  sessions := (Codec.id String).list.encode filter.ids
  statuses := some (filter.statuses.toV3 SessionStatus.asI32)

/-- `From<v3::submitter::SessionFilter>`: what is absent is the default. -/
def ofV3 (message : Proto.SessionFilter) : SessionFilter where
  ids := (Codec.id String).list.decode message.sessions
  statuses := message.statuses.elim default (FilterStatuses.ofV3 SessionStatus.ofI32)

/-- The filter comes back, its list of statuses is in the arm of the same name,
and the message lets through the statuses that the filter does. -/
structure Kept (filter : SessionFilter) : Prop where
  roundTrip : ofV3 filter.toV3 = filter
  sameArm : ∀ statuses ∈ filter.toV3.statuses, filter.statuses.SameArm statuses
  selects : ∀ statuses ∈ filter.toV3.statuses, ∀ status,
    statuses.Selects (SessionStatus.asI32 status) ↔ filter.statuses.Selects status

theorem ofV3_toV3 (filter : SessionFilter) :
    ofV3 filter.toV3 = { filter with statuses := filter.statuses.flip } := by
  have hids : (ofV3 filter.toV3).ids = filter.ids :=
    (Codec.id_lawful String).list.decode_encode filter.ids
  have hstatuses : (ofV3 filter.toV3).statuses = filter.statuses.flip :=
    FilterStatuses.ofV3_toV3 SessionStatus.codec_lawful filter.statuses
  exact congrArg₂ SessionFilter.mk hids hstatuses

end SessionFilter

/-! ## No filter is kept -/

/-- No filter of the submitter service survives the conversion: none of the
three promises holds, and what comes back includes what was to be excluded. -/
theorem submitter_filters_never_kept (tasks : TaskFilter) (sessions : SessionFilter) :
    (¬ tasks.Kept ∧
      TaskFilter.ofV3 tasks.toV3 = { tasks with statuses := tasks.statuses.flip } ∧
      ∀ statuses ∈ tasks.toV3.statuses, ¬ tasks.statuses.SameArm statuses ∧
        ∀ status, statuses.Selects (TaskStatus.asI32 status) ↔
          ¬ tasks.statuses.Selects status) ∧
    (¬ sessions.Kept ∧
      SessionFilter.ofV3 sessions.toV3 = { sessions with statuses := sessions.statuses.flip } ∧
      ∀ statuses ∈ sessions.toV3.statuses, ¬ sessions.statuses.SameArm statuses ∧
        ∀ status, statuses.Selects (SessionStatus.asI32 status) ↔
          ¬ sessions.statuses.Selects status) := by
  constructor
  · refine ⟨fun hkept => ?_, tasks.ofV3_toV3, ?_⟩
    · have hsame := tasks.ofV3_toV3.symm.trans hkept.roundTrip
      exact tasks.statuses.flip_ne (congrArg TaskFilter.statuses hsame)
    · rintro statuses ⟨⟩
      exact tasks.statuses.crossed TaskStatus.codec_lawful
  · refine ⟨fun hkept => ?_, sessions.ofV3_toV3, ?_⟩
    · have hsame := sessions.ofV3_toV3.symm.trans hkept.roundTrip
      exact sessions.statuses.flip_ne (congrArg SessionFilter.statuses hsame)
    · rintro statuses ⟨⟩
      exact sessions.statuses.crossed SessionStatus.codec_lawful

/-- Cancelling the completed tasks of a session: the message asks for all but
the completed ones. -/
theorem submitter_filters_invert_include :
    let filter : TaskFilter := ⟨.sessions ["session"], .«include» [.completed]⟩
    ¬ filter.Kept ∧
      filter.toV3 = ⟨some (.session ⟨["session"]⟩), some (.excluded ⟨[4]⟩)⟩ ∧
      TaskFilter.ofV3 filter.toV3 = ⟨.sessions ["session"], .exclude [.completed]⟩ := by
  intro filter
  refine ⟨?_, rfl, rfl⟩
  intro hkept
  exact absurd hkept.roundTrip (by decide)

end ArmoniKApi.Rust
