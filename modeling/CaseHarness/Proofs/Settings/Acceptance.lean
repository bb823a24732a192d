import CaseHarness.Proofs.Settings.Documents
import CaseHarness.Proofs.Settings.TomlTables
import CaseHarness.Proofs.Text.Decoding
import CaseHarness.Proofs.Run.OneLanguage
import Mathlib.Data.Set.List

/-!
# Which settings files are accepted

A settings file is accepted exactly if it is a TOML document whose top-level table has none but
the three known keys, with values of their kinds.  The settings are then the values of the table,
so they depend on nothing else in the text.  Of any other file nothing takes effect.
-/

namespace CaseHarness.Settings

open Toml (Statement Table Defines Simple SpellsDocument)
open File (Entry entryOf entries add addAll)

/-- The table has no other keys than those of the settings, and the values of the settings. -/
structure Conforms (table : Table) (settings : Settings) : Prop where
  known : ∀ key node, table key = some node → key ∈ ["language", "timeout_secs", "report"]
  language : table "language" = settings.language.map fun language => .leaf (.text language)
  timeout : table "timeout_secs" =
    settings.timeoutSeconds.map fun (seconds : Nat) => .leaf (.integer seconds)
  report : table "report" = settings.report.map fun report => .leaf (.text report)

/-- The integers that a document assigns fit in 64 signed bits. -/
def IntegersFit (document : String) : Prop :=
  ∀ statements, SpellsDocument statements document → ∀ key number,
    Statement.assign key (.integer number) ∈ statements → -2 ^ 63 ≤ number ∧ number < 2 ^ 63

variable {table built : Table} {settings next : Settings} {entry : Entry}

theorem Conforms.simple (conforms : Conforms table settings) : Simple table := by
  intro key node found
  have known := conforms.known key node found
  simp only [List.mem_cons, List.not_mem_nil, or_false] at known
  rcases known with rfl | rfl | rfl
  · rw [conforms.language] at found
    obtain ⟨_, -, rfl⟩ := Option.map_eq_some_iff.mp found
    exact .text _
  · rw [conforms.timeout] at found
    obtain ⟨_, -, rfl⟩ := Option.map_eq_some_iff.mp found
    exact .integer _
  · rw [conforms.report] at found
    obtain ⟨_, -, rfl⟩ := Option.map_eq_some_iff.mp found
    exact .text _

/-- Assign the value of an entry in a table. -/
def assignEntry (table : Table) (entry : Entry) : Option Table :=
  Table.assign entry.key entry.value.written table

theorem assignEntry_eq_some_iff :
    assignEntry table entry = some built ↔
      table entry.key = none ∧ built = table.put entry.key (.leaf entry.value.written) :=
  Table.assign_eq_some_iff

theorem Conforms.known_put {name : String} (conforms : Conforms table settings)
    (isKnown : name ∈ ["language", "timeout_secs", "report"]) (node : Toml.Node) :
    ∀ key found, table.put name node key = some found →
      key ∈ ["language", "timeout_secs", "report"] := by
  intro key found isFound
  by_cases same : key = name
  · exact same ▸ isKnown
  · rw [Table.put_of_ne same] at isFound
    exact conforms.known key found isFound

/-- Adding an entry to settings is assigning its value in their table. -/
theorem exists_conforms_of_add (conforms : Conforms table settings)
    (added : add settings entry = some next) :
    ∃ built, assignEntry table entry = some built ∧ Conforms built next := by
  obtain ⟨key, value⟩ := entry
  have others := fun {name other} (differs : other ≠ name) =>
    Table.put_of_ne differs table (.leaf value.written)
  unfold add at added
  split at added
  · next _ _ language keyEq valueEq =>
    obtain rfl : key = "language" := keyEq
    obtain rfl : value = .text language := valueEq
    split_ifs at added with given
    cases added
    have new : table "language" = none := by simp_all [conforms.language]
    refine ⟨_, assignEntry_eq_some_iff.mpr ⟨new, rfl⟩, conforms.known_put (by simp) _, ?_, ?_, ?_⟩
    · exact Table.put_self _ _ _
    · rw [others (by simp), conforms.timeout]
    · rw [others (by simp), conforms.report]
  · next _ _ seconds keyEq valueEq =>
    obtain rfl : key = "timeout_secs" := keyEq
    obtain rfl : value = .integer seconds := valueEq
    split_ifs at added with given inRange
    cases added
    have new : table "timeout_secs" = none := by simp_all [conforms.timeout]
    refine ⟨_, assignEntry_eq_some_iff.mpr ⟨new, rfl⟩, conforms.known_put (by simp) _, ?_, ?_, ?_⟩
    · rw [others (by simp), conforms.language]
    · simp [Table.put_self, inRange.1, File.Value.written]
    · rw [others (by simp), conforms.report]
  · next _ _ report keyEq valueEq =>
    obtain rfl : key = "report" := keyEq
    obtain rfl : value = .text report := valueEq
    split_ifs at added with given
    cases added
    have new : table "report" = none := by simp_all [conforms.report]
    refine ⟨_, assignEntry_eq_some_iff.mpr ⟨new, rfl⟩, conforms.known_put (by simp) _, ?_, ?_, ?_⟩
    · rw [others (by simp), conforms.language]
    · rw [others (by simp), conforms.timeout]
    · exact Table.put_self _ _ _
  · cases added

theorem written_injective : Function.Injective File.Value.written := by
  rintro (content | number) (content' | number') same <;> cases same <;> rfl

/-- If the table conforms once a value is assigned, it did so before, to settings that lack this
value. -/
theorem add_of_conforms (assigned : assignEntry table entry = some built)
    (conforms : Conforms built next)
    (fits : ∀ number, entry.value = .integer number → number < 2 ^ 63) :
    ∃ settings, Conforms table settings ∧ add settings entry = some next := by
  obtain ⟨key, value⟩ := entry
  obtain ⟨new, rfl⟩ := assignEntry_eq_some_iff.mp assigned
  dsimp only at new conforms fits
  have self := Table.put_self table key (.leaf value.written)
  have others := fun other (differs : other ≠ key) =>
    Table.put_of_ne differs table (.leaf value.written)
  have known : ∀ other node, table other = some node →
      other ∈ ["language", "timeout_secs", "report"] :=
    fun other node found => conforms.known other node (Table.put_of_some new found _)
  have isKnown := conforms.known key _ self
  simp only [List.mem_cons, List.not_mem_nil, or_false] at isKnown
  rcases isKnown with rfl | rfl | rfl
  · refine ⟨{ next with language := none }, ⟨known, new, ?_, ?_⟩, ?_⟩
    · rw [← others _ (by simp), conforms.timeout]
    · rw [← others _ (by simp), conforms.report]
    · rw [conforms.language] at self
      obtain ⟨language, given, leafEq⟩ := Option.map_eq_some_iff.mp self
      obtain rfl : .text language = value := written_injective (Toml.Node.leaf.inj leafEq)
      simp [add, ← given]
  · refine ⟨{ next with timeoutSeconds := none }, ⟨known, ?_, new, ?_⟩, ?_⟩
    · rw [← others _ (by simp), conforms.language]
    · rw [← others _ (by simp), conforms.report]
    · rw [conforms.timeout] at self
      obtain ⟨seconds, given, leafEq⟩ := Option.map_eq_some_iff.mp self
      obtain rfl : .integer seconds = value := written_injective (Toml.Node.leaf.inj leafEq)
      have small := fits seconds rfl
      have inRange : seconds ≤ Text.Numeral.maxUInt64 := by
        rw [Text.Numeral.maxUInt64]
        omega
      simp [add, inRange, ← given]
  · refine ⟨{ next with report := none }, ⟨known, ?_, ?_, new⟩, ?_⟩
    · rw [← others _ (by simp), conforms.language]
    · rw [← others _ (by simp), conforms.timeout]
    · rw [conforms.report] at self
      obtain ⟨report, given, leafEq⟩ := Option.map_eq_some_iff.mp self
      obtain rfl : .text report = value := written_injective (Toml.Node.leaf.inj leafEq)
      simp [add, ← given]

/-! ## Documents -/

theorem exists_conforms_of_addAll {read : List Entry} (conforms : Conforms table settings)
    (added : addAll settings read = some next) :
    ∃ built, read.foldlM assignEntry table = some built ∧ Conforms built next := by
  induction read generalizing table settings with
  | nil =>
      cases added
      exact ⟨table, rfl, conforms⟩
  | cons first others ih =>
      unfold addAll at added
      split at added
      · next between addedFirst =>
        obtain ⟨mid, assigned, conformsMid⟩ := exists_conforms_of_add conforms addedFirst
        obtain ⟨built, run, conformsBuilt⟩ := ih conformsMid added
        exact ⟨built, by rw [List.foldlM_cons, assigned]; exact run, conformsBuilt⟩
      · cases added

theorem addAll_of_conforms {read : List Entry} (run : read.foldlM assignEntry table = some built)
    (conforms : Conforms built next)
    (fits : ∀ entry ∈ read, ∀ number, entry.value = .integer number → number < 2 ^ 63) :
    ∃ settings, Conforms table settings ∧ addAll settings read = some next := by
  induction read generalizing table with
  | nil =>
      cases run
      exact ⟨next, conforms, rfl⟩
  | cons first others ih =>
      rw [List.foldlM_cons] at run
      obtain ⟨mid, assigned, run⟩ := Option.bind_eq_some_iff.mp run
      obtain ⟨fitsFirst, fitsOthers⟩ := List.forall_mem_cons.mp fits
      obtain ⟨between, conformsMid, added⟩ := ih run fitsOthers
      obtain ⟨settings, conformsTable, addedFirst⟩ := add_of_conforms assigned conformsMid fitsFirst
      exact ⟨settings, conformsTable, by rw [addAll, addedFirst]; exact added⟩

theorem conforms_empty_iff : Conforms Table.empty settings ↔ settings = {} := by
  constructor
  · rintro ⟨-, language, timeout, report⟩
    obtain ⟨_, _, _⟩ := settings
    simp_all [Table.empty]
  · rintro rfl
    refine ⟨fun _ _ found => ?_, rfl, rfl, rfl⟩
    cases found

theorem valid_written (value : File.Value) : Toml.Valid value.written := by
  cases value with
  | text content => exact .text content
  | integer number => exact .integer number

theorem foldlM_next_statements (read : List Entry) (table : Table) :
    (read.map Entry.statement).foldlM Toml.State.next ⟨table, []⟩ =
      (read.foldlM assignEntry table).map fun root => ⟨root, []⟩ := by
  induction read generalizing table with
  | nil => rfl
  | cons first others ih =>
      have step : Toml.State.next ⟨table, []⟩ first.statement =
          (assignEntry table first).map fun root => ⟨root, []⟩ := rfl
      rw [List.map_cons, List.foldlM_cons, List.foldlM_cons, step]
      cases assignEntry table first with
      | none => rfl
      | some root => exact ih root

theorem defines_statements_iff {read : List Entry} :
    Defines (read.map Entry.statement) table ↔
      read.foldlM assignEntry Table.empty = some table := by
  constructor
  · rintro ⟨-, current, built⟩
    rw [Toml.State.start, foldlM_next_statements] at built
    obtain ⟨root, run, rootEq⟩ := Option.map_eq_some_iff.mp built
    cases rootEq
    exact run
  · intro run
    refine ⟨fun key value member => ?_, [], ?_⟩
    · obtain ⟨entry, -, entryEq⟩ := List.mem_map.mp member
      cases entryEq
      exact valid_written entry.value
    · rw [Toml.State.start, foldlM_next_statements, run]
      rfl

theorem exists_entries_of_conforms {statements : List Statement}
    (defines : Defines statements table) (conforms : Conforms table settings) :
    ∃ read : List Entry, statements = read.map Entry.statement := by
  obtain ⟨current, built⟩ := defines.built
  obtain ⟨-, assigns⟩ := Toml.assigns_of_run_simple built conforms.simple
  have inRange : statements ∈ Set.range (List.map Entry.statement) := by
    rw [Set.range_list_map]
    intro statement member
    obtain ⟨name, value, rfl, plain⟩ := assigns statement member
    cases plain with
    | text content => exact ⟨⟨name, .text content⟩, rfl⟩
    | integer number => exact ⟨⟨name, .integer number⟩, rfl⟩
  obtain ⟨read, rfl⟩ := inRange
  exact ⟨read, rfl⟩

theorem read_eq_some_iff {statements : List Statement} {document : String}
    (spelled : SpellsDocument statements document) (fits : IntegersFit document) :
    File.read document = some settings ↔
      ∃ table, Defines statements table ∧ Conforms table settings := by
  rw [File.read, File.entries_of_document spelled, Option.bind_eq_some_iff]
  constructor
  · rintro ⟨read, isRead, added⟩
    obtain rfl := File.mapM_entryOf_eq_some_iff.mp isRead
    obtain ⟨table, run, conforms⟩ := exists_conforms_of_addAll (conforms_empty_iff.mpr rfl) added
    exact ⟨table, defines_statements_iff.mpr run, conforms⟩
  · rintro ⟨table, defines, conforms⟩
    obtain ⟨read, rfl⟩ := exists_entries_of_conforms defines conforms
    have small : ∀ entry ∈ read, ∀ number, entry.value = .integer number → number < 2 ^ 63 := by
      intro entry member number valueEq
      have assigned : Statement.assign ⟨[], entry.key⟩ (.integer number) ∈
          read.map Entry.statement := by
        refine List.mem_map.mpr ⟨entry, member, ?_⟩
        rw [Entry.statement, valueEq]
        rfl
      exact (fits _ spelled _ _ assigned).2
    obtain ⟨initial, conformsEmpty, added⟩ :=
      addAll_of_conforms (defines_statements_iff.mp defines) conforms small
    obtain rfl := conforms_empty_iff.mp conformsEmpty
    exact ⟨read, File.mapM_entryOf_eq_some_iff.mpr rfl, added⟩

/-! ## Files -/

variable {files : Tree} {directory : Location} {path document : String}

theorem load_of_document (found : files.read directory path = .ok (Text.Utf8.encode document)) :
    load files directory path =
      ((File.read document).map Except.ok).getD (.error (.configMalformed path)) := by
  have isText : Text.Utf8.decode? (Text.Utf8.encode document) = some document := by
    rw [Text.Utf8.decode?, Text.Utf8.decode_encode, if_pos rfl]
  unfold load
  simp only [found, isText]
  cases File.read document <;> rfl

theorem load_eq_ok_iff (found : files.read directory path = .ok (Text.Utf8.encode document)) :
    load files directory path = .ok settings ↔ File.read document = some settings := by
  rw [load_of_document found]
  cases File.read document <;> simp

theorem runArguments_of_error {launch : Launcher} {environment : Environment}
    {arguments : CommandLine.Arguments} {session : Session} {fatal : FatalError}
    (fails : loadOptional session.files session.directory arguments.options.config = .error fatal) :
    Harness.runArguments launch environment arguments session =
      Harness.giveUp fatal (Harness.adoptRequested arguments.options session) := by
  unfold Harness.runArguments
  rw [Harness.adoptRequested_eq]
  simp [fails]

/-- A settings file with integers of 64 bits is loaded exactly if it is a TOML document whose
table has none but the three keys, with two strings and a number that is not negative, and then
the settings are the values of the table.  They are the same whatever else the text says to define
this table.  Any other file ends the run with one error, and of the file nothing takes effect. -/
theorem accepts_exactly_conforming_documents {files : Tree} {directory : Location}
    {path document : String}
    (found : files.read directory path = .ok (Text.Utf8.encode document))
    (fits : IntegersFit document) :
    (∀ settings, load files directory path = .ok settings ↔
      ∃ statements table, SpellsDocument statements document ∧ Defines statements table ∧
        Conforms table settings) ∧
    (∀ statements table, SpellsDocument statements document → Defines statements table →
      ∀ settings, load files directory path = .ok settings ↔ Conforms table settings) ∧
    ((¬ ∃ settings statements table, SpellsDocument statements document ∧
        Defines statements table ∧ Conforms table settings) →
      load files directory path = .error (.configMalformed path) ∧
      ∀ launch environment words arguments (session : Session),
        CommandLine.answer environment words = .run arguments →
        arguments.options.config = some path → session.files = files →
        session.directory = directory →
        Harness.run launch environment words session =
          Harness.giveUp (.configMalformed path)
            (Harness.adoptRequested arguments.options session)) := by
  have accepted : ∀ settings, load files directory path = .ok settings ↔
      ∃ statements table, SpellsDocument statements document ∧ Defines statements table ∧
        Conforms table settings := by
    intro settings
    rw [load_eq_ok_iff found]
    constructor
    · intro read
      obtain ⟨read', isRead, -⟩ := Option.bind_eq_some_iff.mp read
      have spelled := File.document_of_entries isRead
      obtain ⟨table, defines, conforms⟩ := (read_eq_some_iff spelled fits).mp read
      exact ⟨_, table, spelled, defines, conforms⟩
    · rintro ⟨statements, table, spelled, defines, conforms⟩
      exact (read_eq_some_iff spelled fits).mpr ⟨table, defines, conforms⟩
  refine ⟨accepted, fun statements table spelled defines settings => ?_, fun other => ?_⟩
  · rw [load_eq_ok_iff found, read_eq_some_iff spelled fits]
    constructor
    · rintro ⟨defined, definesDefined, conforms⟩
      exact defines.unique definesDefined ▸ conforms
    · exact fun conforms => ⟨table, defines, conforms⟩
  · have refused : load files directory path = .error (.configMalformed path) := by
      have fromRead := load_of_document found
      cases read : File.read document with
      | none => simp [fromRead, read]
      | some settings =>
          rw [read] at fromRead
          exact absurd ⟨settings, (accepted settings).mp fromRead⟩ other
    refine ⟨refused, ?_⟩
    rintro launch environment words arguments session asked configured rfl rfl
    rw [Harness.run, asked]
    exact runArguments_of_error (by rw [configured]; exact refused)

/-- A string of two lines with a line end that is passed over, a number in base sixteen, a comment
and a key with an escape. -/
theorem spelling_of_settings_accepted :
    let document := "report = \"\"\"\na\\\n  .json\"\"\"\ntimeout_secs = 0x1_e # short\n" ++
      "\"lang\\u0075age\" = 'zh'\n"
    let files : Tree := ⟨[(["s.toml"], .file (Text.Utf8.encode document) false)]⟩
    files.read [] "s.toml" = .ok (Text.Utf8.encode document) ∧ IntegersFit document ∧
      ∀ statements table, SpellsDocument statements document → Defines statements table →
        Conforms table ⟨some "zh", some 30, some "a.json"⟩ := by
  intro document files
  have found : files.read [] "s.toml" = .ok (Text.Utf8.encode document) := by decide +kernel
  have loads : load files [] "s.toml" = .ok ⟨some "zh", some 30, some "a.json"⟩ := by
    decide +kernel
  have fits : IntegersFit document := by
    intro statements spelled key number member
    have read : entries document = some [⟨"report", .text "a.json"⟩,
        ⟨"timeout_secs", .integer 30⟩, ⟨"language", .text "zh"⟩] := by decide +kernel
    rw [File.entries_of_document spelled, File.mapM_entryOf_eq_some_iff] at read
    have isTimeout : key = ⟨[], "timeout_secs"⟩ ∧ number = 30 := by
      simpa [read, Entry.statement, File.Value.written] using member
    rw [isTimeout.2]
    decide
  obtain ⟨-, decides, -⟩ := accepts_exactly_conforming_documents found fits
  exact ⟨found, fits, fun statements table spelled defines =>
    (decides statements table spelled defines _).mp loads⟩

end CaseHarness.Settings
