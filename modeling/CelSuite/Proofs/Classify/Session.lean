import CelSuite.Proofs.Classify.History
import CelSuite.Proofs.Related

/-! # Builders and classifiers at work

Tables lie in a store. A builder writes to the table at its address; to build copies that table to an address of its
own, and a classifier is what lies there. No two of them have one address, so a classifier stays what it was when it
was built: it means the history that led to it. -/

namespace CelSuite.Classifier

/-- A call on a builder or a classifier, each told by its number in the order in which they were made. -/
inductive Call where
  | start
  | register (builder : Nat) (r : Registration)
  | build (builder : Nat)
  | reopen (classifier : Nat)

/-! ### The store -/

/-- The tables, and the addresses of the builders and of the classifiers. -/
structure Session where
  tables : List Builder
  builders : List Nat
  classifiers : List Nat

namespace Session

def empty : Session := ⟨[], [], []⟩

/-- The table that a builder writes to. -/
def builder? (s : Session) (i : Nat) : Option Builder := s.builders[i]?.bind fun a => s.tables[a]?

/-- What a classifier holds. -/
def classifier? (s : Session) (i : Nat) : Option Classifier :=
  (s.classifiers[i]?.bind fun a => s.tables[a]?).map Builder.build

/-- A builder with a table at a new address. -/
def addBuilder (s : Session) (table : Builder) : Session :=
  { s with tables := s.tables ++ [table], builders := s.builders ++ [s.tables.length] }

/-- A classifier with a table at a new address. -/
def addClassifier (s : Session) (table : Builder) : Session :=
  { s with tables := s.tables ++ [table], classifiers := s.classifiers ++ [s.tables.length] }

def perform (s : Session) : Call → Session
  | .start => s.addBuilder Builder.empty
  | .register i r =>
    match s.builders[i]? with
    | some a => { s with tables := s.tables.modify a (·.register r) }
    | none => s
  | .build i =>
    match s.builder? i with
    | some table => s.addClassifier table
    | none => s
  | .reopen i =>
    match s.classifier? i with
    | some c => s.addBuilder c.toBuilder
    | none => s

def run (calls : List Call) : Session := calls.foldl perform empty

theorem run_concat (calls : List Call) (call : Call) : run (calls ++ [call]) = (run calls).perform call :=
  List.foldl_append

end Session

/-! ### Histories -/

/-- The history of each builder, and of each classifier the one that led to its build. -/
structure Lineage where
  builders : List History
  classifiers : List History

namespace Lineage

def empty : Lineage := ⟨[], []⟩

/-- What a call adds to the histories: a builder begins with the history of the classifier that it is made from. -/
def perform (l : Lineage) : Call → Lineage
  | .start => { l with builders := l.builders ++ [[]] }
  | .register i r => { l with builders := l.builders.modify i (· ++ [r]) }
  | .build i => { l with classifiers := l.classifiers ++ l.builders[i]?.toList }
  | .reopen i => { l with builders := l.builders ++ l.classifiers[i]?.toList }

def run (calls : List Call) : Lineage := calls.foldl perform empty

theorem run_concat (calls : List Call) (call : Call) : run (calls ++ [call]) = (run calls).perform call :=
  List.foldl_append

/-- A classifier keeps the history that led to it. -/
theorem classifiers_perform (l : Lineage) (call : Call) : l.classifiers <+: (l.perform call).classifiers := by
  cases call with
  | start => exact List.prefix_rfl
  | register i r => exact List.prefix_rfl
  | build i => exact List.prefix_append _ _
  | reopen i => exact List.prefix_rfl

theorem classifiers_run (calls later : List Call) :
    (run calls).classifiers <+: (run (calls ++ later)).classifiers := by
  induction later using List.reverseRecOn with
  | nil => simp
  | append_singleton later call ih =>
    rw [← List.append_assoc, run_concat]
    exact ih.trans (classifiers_perform _ call)

end Lineage

/-! ### Each table has its history -/

/-- An address whose table is that of an empty builder after a history. -/
def Told (tables : List Builder) (a : Nat) (h : History) : Prop := tables[a]? = some (Builder.empty.told h)

section
variable {tables : List Builder} {a a' : Nat} {h : History}

theorem Told.lt (ht : Told tables a h) : a < tables.length := (List.getElem?_eq_some_iff.mp ht).1

theorem Told.append (ht : Told tables a h) (table : Builder) : Told (tables ++ [table]) a h :=
  (List.getElem?_append_left ht.lt).trans ht

theorem told_new (tables : List Builder) (h : History) : Told (tables ++ [Builder.empty.told h]) tables.length h :=
  List.getElem?_concat_length

theorem Told.register (ht : Told tables a h) (r : Registration) :
    Told (tables.modify a (·.register r)) a (h ++ [r]) := by
  rw [Told, List.getElem?_modify_eq, ht, told_concat]
  rfl

theorem Told.register_other (ht : Told tables a h) (hne : a ≠ a') (r : Registration) :
    Told (tables.modify a' (·.register r)) a h :=
  (List.getElem?_modify_ne _ _ hne.symm).trans ht

end

/-- A store in which every builder and every classifier has a table of its own, with its history. -/
structure Traces (s : Session) (l : Lineage) : Prop where
  builders : List.Forall₂ (Told s.tables) s.builders l.builders
  classifiers : List.Forall₂ (Told s.tables) s.classifiers l.classifiers
  apart : (s.builders ++ s.classifiers).Nodup

namespace Traces

variable {s : Session} {l : Lineage} {h : History}

/-- The next address belongs to nobody. -/
theorem fresh (ht : Traces s l) : s.tables.length ∉ s.builders ++ s.classifiers := by
  intro hmem
  rcases List.mem_append.mp hmem with ha | ha
  · obtain ⟨h, hh⟩ := exists_of_forall₂ ht.builders _ ha
    exact Nat.lt_irrefl _ hh.lt
  · obtain ⟨h, hh⟩ := exists_of_forall₂ ht.classifiers _ ha
    exact Nat.lt_irrefl _ hh.lt

theorem addBuilder (ht : Traces s l) (h : History) :
    Traces (s.addBuilder (Builder.empty.told h)) { l with builders := l.builders ++ [h] } := by
  constructor
  case builders =>
    exact List.rel_append (ht.builders.imp fun a h hh => hh.append _) (.cons (told_new _ _) .nil)
  case classifiers => exact ht.classifiers.imp fun a h hh => hh.append _
  case apart =>
    have hperm : (s.tables.length :: (s.builders ++ s.classifiers)).Perm
        (s.builders ++ [s.tables.length] ++ s.classifiers) := by
      rw [List.append_assoc]
      exact List.perm_middle.symm
    exact hperm.nodup_iff.mp (List.nodup_cons.mpr ⟨ht.fresh, ht.apart⟩)

theorem addClassifier (ht : Traces s l) (h : History) :
    Traces (s.addClassifier (Builder.empty.told h)) { l with classifiers := l.classifiers ++ [h] } := by
  constructor
  case builders => exact ht.builders.imp fun a h hh => hh.append _
  case classifiers =>
    exact List.rel_append (ht.classifiers.imp fun a h hh => hh.append _) (.cons (told_new _ _) .nil)
  case apart =>
    have happ : s.builders ++ (s.classifiers ++ [s.tables.length]) = s.builders ++ s.classifiers ++ [s.tables.length] :=
      (List.append_assoc _ _ _).symm
    show (s.builders ++ (s.classifiers ++ [s.tables.length])).Nodup
    rw [happ]
    exact (List.perm_append_singleton _ _).nodup_iff.mpr (List.nodup_cons.mpr ⟨ht.fresh, ht.apart⟩)

theorem register (ht : Traces s l) (i : Nat) (r : Registration) :
    Traces (s.perform (.register i r)) (l.perform (.register i r)) := by
  rw [Session.perform, Lineage.perform]
  rcases rel_cases (rel_getElem? ht.builders i) with ⟨a, -, ha, -, -⟩ | ⟨ha, hh⟩
  · rw [ha]
    obtain ⟨hbuilders, -, hdisjoint⟩ := List.nodup_append.mp ht.apart
    constructor
    case builders =>
      exact forall₂_modify ht.builders hbuilders ha (fun h hh => hh.register r) fun x h hne hh =>
        hh.register_other hne r
    case classifiers =>
      -- The builder writes to a table that no classifier has.
      refine forall₂_imp_of_mem ht.classifiers fun x hx h _ hh => hh.register_other ?_ r
      exact (hdisjoint a (List.mem_of_getElem? ha) x hx).symm
    case apart => exact ht.apart
  · rw [ha, List.modify_eq_self (List.getElem?_eq_none_iff.mp hh)]
    exact ht

theorem perform (ht : Traces s l) (call : Call) : Traces (s.perform call) (l.perform call) := by
  cases call with
  | start => exact ht.addBuilder []
  | register i r => exact ht.register i r
  | build i =>
    rw [Session.perform, Lineage.perform, Session.builder?]
    rcases rel_cases (rel_getElem? ht.builders i) with ⟨a, h, ha, hh, htold⟩ | ⟨ha, hh⟩
    · rw [ha, hh, Option.bind_some, htold]
      exact ht.addClassifier h
    · rw [ha, hh, Option.toList_none, List.append_nil]
      exact ht
  | reopen i =>
    rw [Session.perform, Lineage.perform, Session.classifier?]
    rcases rel_cases (rel_getElem? ht.classifiers i) with ⟨a, h, ha, hh, htold⟩ | ⟨ha, hh⟩
    · rw [ha, hh, Option.bind_some, htold]
      exact ht.addBuilder h
    · rw [ha, hh, Option.toList_none, List.append_nil]
      exact ht

end Traces

theorem traces_run (calls : List Call) : Traces (Session.run calls) (Lineage.run calls) := by
  induction calls using List.reverseRecOn with
  | nil => exact ⟨.nil, .nil, List.nodup_nil⟩
  | append_singleton calls call ih =>
    rw [Session.run_concat, Lineage.run_concat]
    exact ih.perform call

/-! ### What a classifier means -/

theorem Traces.classifier? {s : Session} {l : Lineage} (ht : Traces s l) (i : Nat) :
    s.classifier? i = l.classifiers[i]?.map fun h => (Builder.empty.told h).build := by
  rw [Session.classifier?]
  rcases rel_cases (rel_getElem? ht.classifiers i) with ⟨a, h, ha, hh, htold⟩ | ⟨ha, hh⟩
  · rw [ha, hh, Option.bind_some, htold]
    rfl
  · rw [ha, hh]
    rfl

/-- A classifier means the history that led to its build, and no later call changes it. -/
theorem classifier_means_history (calls later : List Call) (i : Nat) :
    Option.Rel Means (Lineage.run calls).classifiers[i]? ((Session.run calls).classifier? i) ∧
      ∀ c, (Session.run calls).classifier? i = some c → (Session.run (calls ++ later)).classifier? i = some c := by
  constructor
  · rw [(traces_run calls).classifier? i]
    cases (Lineage.run calls).classifiers[i]? with
    | none => exact .none
    | some h => exact .some (means_told h)
  · intro c hc
    rw [(traces_run calls).classifier? i] at hc
    obtain ⟨h, hh, rfl⟩ := Option.map_eq_some_iff.mp hc
    obtain ⟨added, hadded⟩ := Lineage.classifiers_run calls later
    obtain ⟨hi, -⟩ := List.getElem?_eq_some_iff.mp hh
    rw [(traces_run (calls ++ later)).classifier? i, ← hadded, List.getElem?_append_left hi, hh]
    rfl

/-- A phrasing is told anew after a build, and a rule is added to a builder that is made from the classifier. -/
theorem first_build_stays :
    let calls := [.start, .register 0 (.phrasing "oops" "divide_by_zero"), .build 0]
    let later := [.register 0 (.phrasing "oops" "modulus_by_zero"), .build 0, .reopen 0,
      .register 1 (.rule (.beginning "no such" false) "no_such_overload"), .build 1]
    (Session.run calls).classifier? 0 = some ⟨[("oops", "divide_by_zero")], []⟩ ∧
      (Session.run (calls ++ later)).classifier? 0 = some ⟨[("oops", "divide_by_zero")], []⟩ ∧
      (Session.run (calls ++ later)).classifier? 1 = some ⟨[("oops", "modulus_by_zero")], []⟩ := by
  intro calls later
  have hbuilt : (Session.run calls).classifier? 0 = some ⟨[("oops", "divide_by_zero")], []⟩ := by cbv
  exact ⟨hbuilt, (classifier_means_history calls later 0).2 _ hbuilt, by cbv⟩

end CelSuite.Classifier
