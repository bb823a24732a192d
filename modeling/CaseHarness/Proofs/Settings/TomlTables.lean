import CaseHarness.Proofs.Settings.TomlGrammar
import Mathlib.Logic.Function.Basic

/-!
# The table that a TOML document defines

The statements of a document build its top-level table one after another.  A key stands for one
thing only: a value that is assigned is never changed, and a table is opened by a header at most
once.  In between tables come into being where a key leads through them.
-/

namespace CaseHarness.Toml

/-- How a table came into being: by a dotted key, by its own header, or by the header of a table
or an array within it. -/
inductive Origin where
  | dotted
  | header
  | implied

/-- What a key stands for: a value, a table, or an array of tables that is not empty. -/
inductive Node where
  | leaf (value : Value)
  | table (origin : Origin) (content : String → Option Node)
  | tables (earlier : List (String → Option Node)) (last : String → Option Node)

abbrev Table :=
  String → Option Node

namespace Table

def empty : Table :=
  fun _ => none

def put (table : Table) (name : String) (node : Node) : Table :=
  Function.update table name (some node)

theorem put_self (table : Table) (name : String) (node : Node) :
    table.put name node name = some node := by
  rw [put, Function.update_self]

theorem put_of_ne {name other : String} (differs : other ≠ name) (table : Table) (node : Node) :
    table.put name node other = table other := by
  rw [put, Function.update_of_ne differs]

/-- What a new key is put into is kept. -/
theorem put_of_some {name other : String} {table : Table} {found : Node}
    (new : table name = none) (isFound : table other = some found) (node : Node) :
    table.put name node other = some found := by
  have differs : other ≠ name := by
    rintro rfl
    rw [new] at isFound
    cases isFound
  rw [put_of_ne differs, isFound]

/-- Assign a value to a new key. -/
def assign (name : String) (value : Value) (table : Table) : Option Table :=
  match table name with
  | none => some (table.put name (.leaf value))
  | some _ => none

/-- Open a table by its header, at most once. -/
def openTable (name : String) (table : Table) : Option Table :=
  match table name with
  | none => some (table.put name (.table .header empty))
  | some (.table .implied content) => some (table.put name (.table .header content))
  | some _ => none

/-- Begin an element of an array of tables. -/
def openElement (name : String) (table : Table) : Option Table :=
  match table name with
  | none => some (table.put name (.tables [] empty))
  | some (.tables earlier last) => some (table.put name (.tables (earlier ++ [last]) empty))
  | some _ => none

/-- Act on the table that the front of a dotted key leads to.  It leads through tables that no
header has opened. -/
def through (act : Table → Option Table) : List String → Table → Option Table
  | [], table => act table
  | name :: names, table =>
      match table name with
      | none => (through act names empty).map fun content => table.put name (.table .dotted content)
      | some (.table .header _) => none
      | some (.table _ content) =>
          (through act names content).map fun content => table.put name (.table .dotted content)
      | some _ => none

/-- Act on the table that the names of a header lead to.  They lead through tables of any origin
and into the last element of an array of tables. -/
def under (act : Table → Option Table) : List String → Table → Option Table
  | [], table => act table
  | name :: names, table =>
      match table name with
      | none => (under act names empty).map fun content => table.put name (.table .implied content)
      | some (.table origin content) =>
          (under act names content).map fun content => table.put name (.table origin content)
      | some (.tables earlier last) =>
          (under act names last).map fun last => table.put name (.tables earlier last)
      | some (.leaf _) => none

/-- Assign a value to a dotted key. -/
def assignKey (key : Key) (value : Value) : Table → Option Table :=
  through (assign key.name value) key.parents

end Table

/-- A value whose tables in braces define no key twice. -/
inductive Valid : Value → Prop
  | text (content : String) : Valid (.text content)
  | integer (number : Int) : Valid (.integer number)
  | float (spelling : String) : Valid (.float spelling)
  | boolean (truth : Bool) : Valid (.boolean truth)
  | moment (spelling : String) : Valid (.moment spelling)
  | array {elements : List Value} (valid : ∀ element ∈ elements, Valid element) :
      Valid (.array elements)
  | table {assignments : List (Key × Value)} {content : Table}
      (valid : ∀ assignment ∈ assignments, Valid assignment.2)
      (built : assignments.foldlM (fun table assignment =>
        Table.assignKey assignment.1 assignment.2 table) Table.empty = some content) :
      Valid (.table assignments)

/-- The top-level table so far, and the names of the header that assignments stand under. -/
structure State where
  root : Table
  current : List String

namespace State

def start : State :=
  ⟨Table.empty, []⟩

def next (state : State) : Statement → Option State
  | .assign key value =>
      (Table.under (Table.assignKey key value) state.current state.root).map fun root =>
        ⟨root, state.current⟩
  | .table key =>
      (Table.under (Table.openTable key.name) key.parents state.root).map fun root =>
        ⟨root, key.parents ++ [key.name]⟩
  | .element key =>
      (Table.under (Table.openElement key.name) key.parents state.root).map fun root =>
        ⟨root, key.parents ++ [key.name]⟩

end State

/-- The statements of a document define its top-level table. -/
structure Defines (statements : List Statement) (table : Table) : Prop where
  valid : ∀ key value, .assign key value ∈ statements → Valid value
  built : ∃ current, statements.foldlM State.next State.start = some ⟨table, current⟩

theorem Defines.unique {statements : List Statement} {first second : Table}
    (one : Defines statements first) (other : Defines statements second) : first = second := by
  obtain ⟨current, built⟩ := one.built
  obtain ⟨current', built'⟩ := other.built
  rw [built] at built'
  cases built'
  rfl

/-! ## Tables of strings and integers -/

/-- A string or an integer. -/
inductive Plain : Node → Prop
  | text (content : String) : Plain (.leaf (.text content))
  | integer (number : Int) : Plain (.leaf (.integer number))

/-- A table of nothing but strings and integers. -/
def Simple (table : Table) : Prop :=
  ∀ name node, table name = some node → Plain node

variable {table built : Table} {node : Node} {name : String} {names : List String} {value : Value}

theorem Simple.of_put (simple : Simple (table.put name node)) (new : table name = none) :
    Simple table :=
  fun other found isFound => simple other found (Table.put_of_some new isFound node)

theorem Simple.plain (simple : Simple (table.put name node)) : Plain node :=
  simple name node (table.put_self name node)

/-- A table within a table does not vanish. -/
theorem not_simple_put (compound : ¬ Plain node) : ¬ Simple (table.put name node) :=
  fun simple => compound simple.plain

theorem not_plain_table (origin : Origin) (content : Table) : ¬ Plain (.table origin content) := by
  rintro ⟨⟩

theorem not_plain_tables (earlier : List Table) (last : Table) :
    ¬ Plain (.tables earlier last) := by
  rintro ⟨⟩

theorem Table.not_simple_openTable (opened : Table.openTable name table = some built) :
    ¬ Simple built := by
  unfold openTable at opened
  split at opened <;> cases opened <;> exact not_simple_put (not_plain_table _ _)

theorem Table.not_simple_openElement (opened : Table.openElement name table = some built) :
    ¬ Simple built := by
  unfold openElement at opened
  split at opened <;> cases opened <;> exact not_simple_put (not_plain_tables _ _)

theorem Table.not_simple_through {act : Table → Option Table}
    (led : Table.through act (name :: names) table = some built) : ¬ Simple built := by
  unfold through at led
  split at led
  case h_2 => cases led
  case h_4 => cases led
  all_goals
    obtain ⟨content, -, rfl⟩ := Option.map_eq_some_iff.mp led
    exact not_simple_put (not_plain_table _ _)

theorem Table.not_simple_under {act : Table → Option Table}
    (led : Table.under act (name :: names) table = some built) : ¬ Simple built := by
  unfold under at led
  split at led
  case h_4 => cases led
  all_goals
    obtain ⟨content, -, rfl⟩ := Option.map_eq_some_iff.mp led
  · exact not_simple_put (not_plain_table _ _)
  · exact not_simple_put (not_plain_table _ _)
  · exact not_simple_put (not_plain_tables _ _)

theorem Table.assign_eq_some_iff :
    Table.assign name value table = some built ↔
      table name = none ∧ built = table.put name (.leaf value) := by
  unfold assign
  split <;> simp_all [eq_comm]

/-- A step to a simple table assigns a string or an integer to a name without dots. -/
theorem State.assigns_of_next_simple {state next : State} {statement : Statement}
    (step : state.next statement = some next) (simple : Simple next.root) :
    ∃ name value, statement = .assign ⟨[], name⟩ value ∧ Plain (.leaf value) ∧
      Table.assign name value state.root = some next.root := by
  cases statement with
  | assign key value =>
      obtain ⟨root, led, rfl⟩ := Option.map_eq_some_iff.mp step
      match current : state.current, key with
      | _ :: _, _ =>
          rw [current] at led
          exact absurd simple (Table.not_simple_under led)
      | [], ⟨_ :: _, _⟩ =>
          rw [current] at led
          exact absurd simple (Table.not_simple_through led)
      | [], ⟨[], name⟩ =>
          rw [current] at led
          have assigned : Table.assign name value state.root = some root := led
          obtain ⟨-, rfl⟩ := Table.assign_eq_some_iff.mp assigned
          exact ⟨name, value, rfl, simple.plain, assigned⟩
  | table key =>
      obtain ⟨root, led, rfl⟩ := Option.map_eq_some_iff.mp step
      match key with
      | ⟨_ :: _, _⟩ => exact absurd simple (Table.not_simple_under led)
      | ⟨[], _⟩ => exact absurd simple (Table.not_simple_openTable led)
  | element key =>
      obtain ⟨root, led, rfl⟩ := Option.map_eq_some_iff.mp step
      match key with
      | ⟨_ :: _, _⟩ => exact absurd simple (Table.not_simple_under led)
      | ⟨[], _⟩ => exact absurd simple (Table.not_simple_openElement led)

/-- A document whose table is simple holds nothing but assignments of strings and integers to
names without dots. -/
theorem assigns_of_run_simple {statements : List Statement} {state final : State}
    (run : statements.foldlM State.next state = some final) (simple : Simple final.root) :
    Simple state.root ∧ ∀ statement ∈ statements,
      ∃ name value, statement = .assign ⟨[], name⟩ value ∧ Plain (.leaf value) := by
  induction statements generalizing state with
  | nil =>
      cases run
      exact ⟨simple, List.forall_mem_nil _⟩
  | cons statement others ih =>
      rw [List.foldlM_cons] at run
      obtain ⟨next, step, run⟩ := Option.bind_eq_some_iff.mp run
      obtain ⟨simpleNext, assigns⟩ := ih run
      obtain ⟨name, value, statementEq, plain, assigned⟩ :=
        State.assigns_of_next_simple step simpleNext
      obtain ⟨new, rootEq⟩ := Table.assign_eq_some_iff.mp assigned
      refine ⟨(rootEq ▸ simpleNext).of_put new, ?_⟩
      exact List.forall_mem_cons.mpr ⟨⟨name, value, statementEq, plain⟩, assigns⟩

end CaseHarness.Toml
