import ArmoniKApi.Library.Layers
import Mathlib.Data.Finset.Insert
import Mathlib.Data.List.AList

/-!
# The configuration of the C++ clients

A `Configuration` holds the values that were set, and may have the environment
of the process among its layers.  The environment is not copied: `get` consults
it, for the keys that were not set after it was added.

Each operation is a layer on top of the ones before (`get_apply`), so `get`
reads what the last operation that provides the key has written
(`get_run`).

The class has a map, a flag for the environment, and a set of the keys that were set after the
flag was raised.  So the proof is a case split over what the three say about a key, one
operation at a time (`get_set`, `get_addEnvConfiguration`), and `set(other)` is a fold of sets
over the items of the other configuration, whose order does not matter because the keys of a
map are distinct (`get_setAll`).

The environment is a parameter of every theorem.  A variable may be in it with an empty text,
and then it hides what was set before, as any other value does.
-/

namespace ArmoniKApi.Cpp.Utils

/-- `getenv name` is what `std::getenv(name.c_str())` finds, for an environment
that does not change. -/
abbrev Environment := String → Option String

/-- `Configuration`.  `options` is the map that the keys are set in.  `aboveEnvKeys` are
those that were set after the environment was added, so that the environment does not hide
them. -/
structure Configuration where
  options : AList fun _ : String => String
  aboveEnvKeys : Finset String
  useEnvironment : Bool

namespace Configuration

/-! ## The operations -/

/-- The default constructor. -/
def empty : Configuration := ⟨∅, ∅, false⟩

/-- `set(key, value)`. -/
def set (self : Configuration) (key value : String) : Configuration where
  options := self.options.insert key value
  aboveEnvKeys := if self.useEnvironment then insert key self.aboveEnvKeys else self.aboveEnvKeys
  useEnvironment := self.useEnvironment

/-- `list`. -/
def list (self : Configuration) : AList fun _ : String => String := self.options

/-- `set(other)`. -/
def setAll (self other : Configuration) : Configuration :=
  other.list.entries.foldl (fun config kv => config.set kv.1 kv.2) self

/-- `add_env_configuration`. -/
def addEnvConfiguration (self : Configuration) : Configuration :=
  { self with useEnvironment := true, aboveEnvKeys := ∅ }

/-- `get`. -/
def get (getenv : Environment) (self : Configuration) (key : String) : String :=
  let stored := (self.options.lookup key).getD ""
  if self.useEnvironment ∧ key ∉ self.aboveEnvKeys then
    match getenv key with
    | some value => value
    | none => stored
  else stored

/-! ## Sequences of operations -/

/-- What is done to a configuration. -/
inductive Operation
  | set (key value : String)
  | setAll (other : Configuration)
  | addEnvConfiguration

/-- The configuration after an operation. -/
def apply (self : Configuration) : Operation → Configuration
  | .set key value => self.set key value
  | .setAll other => self.setAll other
  | .addEnvConfiguration => self.addEnvConfiguration

/-- The operations, one after the other, on an empty configuration. -/
def run (operations : List Operation) : Configuration := operations.foldl apply empty

/-- The values that an operation provides. -/
def Operation.provides (getenv : Environment) : Operation → Layers.Layer String String
  | .set key value => Layers.single (key, value)
  | .setAll other => fun key => other.list.lookup key
  | .addEnvConfiguration => getenv

/-! ## Each operation is a layer -/

variable (getenv : Environment) (config : Configuration)

theorem get_set (key value other : String) :
    (config.set key value).get getenv other =
      (Layers.single (key, value) other).getD (config.get getenv other) := by
  unfold Layers.single
  by_cases hkey : other = key
  · -- the key is above the environment if there is one
    subst hkey
    cases huse : config.useEnvironment <;> simp [get, set, huse]
  · cases huse : config.useEnvironment <;>
      simp [get, set, huse, hkey, AList.lookup_insert_ne hkey]

theorem get_addEnvConfiguration (key : String) :
    config.addEnvConfiguration.get getenv key = (getenv key).getD (config.get getenv key) := by
  cases hvalue : getenv key <;> simp [get, addEnvConfiguration, hvalue]

/-- The items of another configuration, one layer each. -/
theorem get_setAll (other : Configuration) (key : String) :
    (config.setAll other).get getenv key =
      (other.list.lookup key).getD (config.get getenv key) := by
  -- the order of the items does not matter, as their keys are distinct
  let items := other.list.entries.map fun entry => (entry.1, entry.2)
  have hlayers := Layers.read_foldl
    (fun config (kv : String × String) key => get_set getenv config kv.1 kv.2 key)
    items config key
  have hsame : config.setAll other =
      items.foldl (fun config kv => config.set kv.1 kv.2) config := by
    rw [setAll, List.foldl_map]
  have hnodup : (items.map Prod.fst).Nodup := by
    rw [List.map_map]
    exact other.list.nodupKeys
  rw [hsame, hlayers]
  congr 1
  cases hvalue : other.list.lookup key with
  | none =>
      apply Layers.top_single_of_notMem
      intro hmem
      obtain ⟨entry, hentry, rfl⟩ := List.mem_map.mp (List.map_map ▸ hmem)
      exact AList.lookup_eq_none.mp hvalue (List.mem_keys_of_mem hentry)
  | some value =>
      have hentry : (⟨key, value⟩ : Sigma fun _ : String => String) ∈ other.list.entries :=
        AList.mem_lookup_iff.mp hvalue
      exact Layers.top_single_of_mem hnodup (List.mem_map_of_mem hentry)

theorem get_apply (operation : Operation) (key : String) :
    (config.apply operation).get getenv key =
      (operation.provides getenv key).getD (config.get getenv key) := by
  cases operation with
  | set first value => exact get_set getenv config first value key
  | setAll other => exact get_setAll getenv config other key
  | addEnvConfiguration => exact get_addEnvConfiguration getenv config key

/-! ## The precedence of the operations -/

/-- A configuration reads the value that was written by the last operation that
provides the key, and the empty string if there is none. -/
theorem get_run (operations : List Operation) (key : String) :
    (run operations).get getenv key =
      ((operations.reverse.findSome? fun operation => operation.provides getenv key).getD "") := by
  have hempty : empty.get getenv key = "" := by simp [get, empty]
  rw [run, Layers.read_foldl (get_apply getenv) operations empty key, hempty, Layers.top,
    ← List.map_reverse, List.findSome?_map]
  rfl

end Configuration

end ArmoniKApi.Cpp.Utils
