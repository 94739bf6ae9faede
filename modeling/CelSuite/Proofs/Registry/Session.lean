import CelSuite.Proofs.Registry.History

/-! # A builder at work

The tables of factories lie in a store. A builder writes to the table at its own address; to build copies that table
to a free address, and a registry is what lies there. The builder never writes to an address that a registry has, so
a registry stays what it was when it was built: it means the history before the build. -/

namespace CelSuite.Registry

inductive Call where
  | object (typeUrl : String) (factory : Factory)
  | wellKnown
  | build

namespace Call

def registers : Call → History
  | .object typeUrl factory => [(typeUrl, factory)]
  | .wellKnown => [(durationNamespace, durationOfFields)]
  | .build => []

def isBuild : Call → Bool
  | .build => true
  | _ => false

/-- What was registered by some calls, in order. -/
def history (calls : List Call) : History := calls.flatMap registers

/-- How many registries were built by some calls. -/
def builds (calls : List Call) : Nat := calls.countP isBuild

end Call

/-! ### The store -/

/-- The tables by their addresses, the first free address, and the addresses of the registries in the order in which
    they were built. -/
structure Session where
  tables : Nat → Builder
  free : Nat
  registries : List Nat

namespace Session

/-- The address of the builder's table. -/
def builder : Nat := 0

def start : Session := ⟨fun _ => Builder.empty, builder + 1, []⟩

def built? (s : Session) (i : Nat) : Option Registry := s.registries[i]?.map fun a => (s.tables a).build

/-- The builder's table changed in place. -/
def write (s : Session) (change : Builder → Builder) : Session :=
  { s with tables := Function.update s.tables builder (change (s.tables builder)) }

/-- The builder's table copied for a registry. -/
def copy (s : Session) : Session :=
  ⟨Function.update s.tables s.free (s.tables builder), s.free + 1, s.registries ++ [s.free]⟩

def perform (s : Session) : Call → Session
  | .object typeUrl factory => s.write (·.object typeUrl factory)
  | .wellKnown => s.write (·.wellKnown)
  | .build => s.copy

def run (calls : List Call) : Session := calls.foldl perform start

theorem run_concat (calls : List Call) (call : Call) : run (calls ++ [call]) = (run calls).perform call :=
  List.foldl_append

section
variable {s : Session} {change : Builder → Builder} {a i : Nat}

theorem tables_write : (s.write change).tables builder = change (s.tables builder) := by
  simp [write]

theorem tables_write_of_ne (ha : a ≠ builder) : (s.write change).tables a = s.tables a := Function.update_of_ne ha _ _

theorem tables_copy : s.copy.tables s.free = s.tables builder := Function.update_self _ _ _

theorem tables_copy_of_ne (ha : a ≠ s.free) : s.copy.tables a = s.tables a := Function.update_of_ne ha _ _

theorem built?_eq (ha : s.registries[i]? = some a) : s.built? i = some (s.tables a).build := by
  rw [built?, ha, Option.map_some]

end

end Session

open Call Session

variable {s : Session} {calls : List Call} {call : Call} {i : Nat} {r : Registry}

/-! ### The builder has its history, and the registries have tables of their own -/

/-- A store in which the builder's table has the history of some calls and no registry has that table. -/
structure Traces (s : Session) (calls : List Call) : Prop where
  told : s.tables builder = Builder.told (history calls)
  free : builder < s.free
  registries : ∀ a ∈ s.registries, builder < a ∧ a < s.free
  count : s.registries.length = builds calls

namespace Traces

theorem write (ht : Traces s calls) (change : Builder → Builder) (hbuild : call.isBuild = false)
    (hchange : change (Builder.told (history calls)) = Builder.told (history (calls ++ [call]))) :
    Traces (s.write change) (calls ++ [call]) := by
  constructor
  case told => rw [tables_write, ht.told, hchange]
  case free => exact ht.free
  case registries => exact ht.registries
  case count =>
    rw [builds, List.countP_append, List.countP_singleton, hbuild]
    exact ht.count

theorem copy (ht : Traces s calls) : Traces s.copy (calls ++ [.build]) := by
  constructor
  case told =>
    rw [tables_copy_of_ne ht.free.ne, ht.told, history, history, List.flatMap_append]
    exact congrArg Builder.told (List.append_nil _).symm
  case free => exact Nat.lt_succ_of_lt ht.free
  case registries =>
    intro a ha
    rcases List.mem_append.mp ha with hold | hnew
    · exact (ht.registries a hold).imp_right Nat.lt_succ_of_lt
    · cases List.mem_singleton.mp hnew
      exact ⟨ht.free, Nat.lt_succ_self _⟩
  case count =>
    rw [Session.copy, List.length_append, ht.count, builds, builds, List.countP_append]
    rfl

theorem perform (ht : Traces s calls) (call : Call) : Traces (s.perform call) (calls ++ [call]) := by
  have hhistory : history (calls ++ [call]) = history calls ++ call.registers := by
    rw [history, List.flatMap_append, List.flatMap_singleton]
    rfl
  cases call with
  | object typeUrl factory =>
    exact ht.write (·.object typeUrl factory) rfl (hhistory ▸ (Builder.told_concat _ _ _).symm)
  | wellKnown => exact ht.write (·.wellKnown) rfl (hhistory ▸ (Builder.told_concat _ _ _).symm)
  | build => exact ht.copy

end Traces

theorem traces_run (calls : List Call) : Traces (run calls) calls := by
  induction calls using List.reverseRecOn with
  | nil => exact ⟨rfl, Nat.lt_succ_self _, nofun, rfl⟩
  | append_singleton calls call ih =>
    rw [run_concat]
    exact ih.perform call

/-! ### Registries stay -/

theorem Traces.built?_perform (ht : Traces s calls) (hr : s.built? i = some r) (call : Call) :
    (s.perform call).built? i = some r := by
  obtain ⟨a, ha, rfl⟩ := Option.map_eq_some_iff.mp hr
  obtain ⟨hlow, hhigh⟩ := ht.registries a (List.mem_of_getElem? ha)
  have hwrite (change : Builder → Builder) : (s.write change).built? i = some (s.tables a).build := by
    rw [built?_eq (s := s.write change) ha, tables_write_of_ne hlow.ne']
  cases call with
  | object typeUrl factory => exact hwrite _
  | wellKnown => exact hwrite _
  | build =>
    -- The copy goes to the free address, and the registry lies below it.
    obtain ⟨hi, -⟩ := List.getElem?_eq_some_iff.mp ha
    have hkept : s.copy.registries[i]? = some a := (List.getElem?_append_left hi).trans ha
    rw [Session.perform, built?_eq hkept, tables_copy_of_ne hhigh.ne]

theorem built?_run_append (hr : (run calls).built? i = some r) (later : List Call) :
    (run (calls ++ later)).built? i = some r := by
  induction later using List.reverseRecOn with
  | nil => rwa [List.append_nil]
  | append_singleton later call ih =>
    rw [← List.append_assoc, run_concat]
    exact (traces_run _).built?_perform ih call

/-- A build makes a registry of all that was registered before. -/
theorem built?_build (before : List Call) :
    (run (before ++ [.build])).built? (builds before) = some (Builder.told (history before)).build := by
  have ht := traces_run before
  have hnew : (run before).copy.registries[builds before]? = some (run before).free :=
    ht.count ▸ List.getElem?_concat_length
  rw [run_concat, Session.perform, built?_eq hnew, tables_copy, ht.told]

/-- A registry is a snapshot of its builder: it means what was registered before it was built, and no later call changes
    it. There are as many registries as builds. -/
theorem registry_is_snapshot (before : List Call) :
    (∃ r, Means (history before) r ∧
      ∀ later, (run (before ++ .build :: later)).built? (builds before) = some r) ∧
    (run before).registries.length = builds before := by
  refine ⟨⟨_, means_told _, fun later => ?_⟩, (traces_run before).count⟩
  rw [List.append_cons]
  exact built?_run_append (built?_build before) later

example (f g : Factory) :
    ((run [.object "a" f, .build, .object "a" g, .object "b" g]).built? 0).map (·.factories) = some [("a", f)] :=
  rfl

end CelSuite.Registry
