import CaseHarness.Run.Harness

/-!
# One language for a run

Headers, verdicts and notices carry the tag of the plan, and a fatal error is rendered in
the tag in force when the harness gives up.  Once the settings are known the two agree, so
whatever happens afterwards is said in one language.  Before that only a language given on
the command line is in force: a fault in the settings file is explained in English where
the environment asks for another language.
-/

namespace CaseHarness

namespace Language

theorem exists_tag_eq_resolve (requested : String) :
    ∃ language : Language, language.tag = resolve requested := by
  have bundledTag {tag : String} (mem : tag ∈ bundled) :
      ∃ language : Language, language.tag = tag := by
    rcases mem_bundled_iff.mp mem with rfl | rfl
    · exact ⟨english, rfl⟩
    · exact ⟨chinese, rfl⟩
  unfold resolve resolveAmong
  split
  · next available => exact bundledTag available
  · cases found : bundled.find? fun tag => primary tag = requestedPrimary requested with
    | none => exact ⟨english, rfl⟩
    | some tag => exact bundledTag (List.mem_of_find?_eq_some found)

end Language

/-- The message of a piece, if it has one, is the text of the catalogue of a language. -/
def Console.Piece.Speaks (language : Language) : Console.Piece → Prop
  | message _ tag content => content.text tag = language.render content
  | output _ | emptyLine => True

/-- What an action of a run tells the user is the text of the catalogue of a language.  An
answer is not an action of a run. -/
def Action.Speaks (language : Language) : Action → Prop
  | printed pieces => ∀ piece ∈ pieces, piece.Speaks language
  | gaveUp fatal tag => fatal.message.text tag = language.render fatal.message
  | answered _ => False
  | started _ | reported .. => True

/-- Everything said so far was in a language, and this language is in force. -/
structure Session.Speaks (language : Language) (session : Session) : Prop where
  inForce : Language.lookup session.tag = language
  actions : ∀ action ∈ session.actions, action.Speaks language

variable {language : Language} {tag : String} {session : Session}

namespace Console

theorem Piece.speaks_message (tagged : Language.lookup tag = language) (style : Style)
    (content : Message) : (Piece.message style tag content).Speaks language := by
  rw [← tagged]
  rfl

theorem header_speaks (tagged : Language.lookup tag = language) (line directory : String)
    (limit : Option Duration) :
    ∀ piece ∈ header tag line directory limit, piece.Speaks language := by
  intro piece mem
  simp only [header, List.mem_append, List.mem_cons, List.mem_map, List.not_mem_nil,
    or_false] at mem
  rcases mem with (rfl | rfl) | ⟨duration, -, rfl⟩
  all_goals exact Piece.speaks_message tagged _ _

theorem outcome_speaks (tagged : Language.lookup tag = language) (name output : String)
    (outcome : Outcome) :
    ∀ piece ∈ Console.outcome tag name output outcome, piece.Speaks language := by
  intro piece mem
  rcases List.mem_append.mp mem with failed | summed
  · obtain ⟨failure, -, pieceMem⟩ := List.mem_flatMap.mp failed
    rcases List.mem_cons.mp pieceMem with rfl | echoed
    · exact Piece.speaks_message tagged _ _
    · split at echoed
      · simp only [List.mem_cons, List.not_mem_nil, or_false] at echoed
        rcases echoed with rfl | rfl <;> trivial
      · cases echoed
  · rw [List.mem_singleton.mp summed]
    unfold summary
    split
    all_goals exact Piece.speaks_message tagged _ _

end Console

namespace Session.Speaks

theorem perform (speaks : session.Speaks language) (action : Action)
    (spoken : action.Speaks language) : (session.perform action).Speaks language where
  inForce := speaks.inForce
  actions := by
    intro other mem
    rcases List.mem_append.mp mem with earlier | now
    · exact speaks.actions other earlier
    · rw [List.mem_singleton.mp now]
      exact spoken

theorem print (speaks : session.Speaks language) {pieces : List Console.Piece}
    (spoken : ∀ piece ∈ pieces, piece.Speaks language) :
    (session.print pieces).Speaks language :=
  speaks.perform (.printed pieces) spoken

theorem withFiles (speaks : session.Speaks language) (files : Tree) :
    ({ session with files := files } : Session).Speaks language :=
  ⟨speaks.inForce, speaks.actions⟩

theorem giveUp (speaks : session.Speaks language) (fatal : FatalError) :
    (Harness.giveUp fatal session).1.Speaks language := by
  refine speaks.perform (.gaveUp fatal session.tag) ?_
  rw [← speaks.inForce]
  rfl

theorem runTarget (speaks : session.Speaks language) (launch : Launcher) (case : TestCase)
    (command : List String) (limit : Option Duration) :
    (CaseHarness.runTarget launch case command limit session).1.Speaks language := by
  unfold CaseHarness.runTarget
  split
  · exact speaks
  · split
    · exact speaks
    · dsimp only
      split
      · exact speaks
      · exact (speaks.perform (.started _) trivial).withFiles _

variable {plan : Plan}

theorem announce (speaks : session.Speaks language)
    (tagged : Language.lookup plan.tag = language) (case : TestCase) :
    (plan.announce case session).Speaks language := by
  unfold Plan.announce
  split
  · exact speaks.print (Console.header_speaks tagged _ _ _)
  · exact speaks

theorem writeReport (speaks : session.Speaks language)
    (tagged : Language.lookup plan.tag = language) (report : Report) :
    (plan.writeReport report session).1.Speaks language := by
  unfold Plan.writeReport
  split
  · exact speaks
  · next path _ =>
    split
    · exact speaks
    · next files _ =>
      have reported := (speaks.withFiles files).perform (.reported path report) trivial
      dsimp only
      split
      · refine reported.print fun piece mem => ?_
        rw [List.mem_singleton.mp mem]
        exact Console.Piece.speaks_message tagged _ _
      · exact reported

theorem conclude (speaks : session.Speaks language)
    (tagged : Language.lookup plan.tag = language) (case : TestCase)
    (expectations : Expectations) (execution : Execution) :
    (plan.conclude case expectations execution session).1.Speaks language := by
  have echoed : (session.print [.output execution.output]).Speaks language := by
    refine speaks.print fun piece mem => ?_
    rw [List.mem_singleton.mp mem]
    trivial
  have printed := echoed.print (Console.outcome_speaks tagged case.name execution.output
    (Verification.verify expectations execution))
  have written := printed.writeReport tagged
    (.ofRun case plan.command expectations execution (Verification.verify expectations execution))
  unfold Plan.conclude
  dsimp only
  split
  all_goals
    next writes =>
      rw [writes] at written
      exact written

/-- A plan whose tag is in force is carried out in one language, however it ends. -/
theorem execute (speaks : session.Speaks language)
    (tagged : Language.lookup plan.tag = language) (launch : Launcher) :
    (plan.execute launch session).1.Speaks language := by
  unfold Plan.execute
  split
  · exact speaks
  · next case expectations _ =>
    have launched := (speaks.announce tagged case).runTarget launch case plan.command plan.limit
    dsimp only
    split
    · next after execution ran =>
      rw [ran] at launched
      exact launched.conclude tagged case expectations execution
    all_goals
      next ran =>
        rw [ran] at launched
        exact launched

end Session.Speaks

namespace FatalError

private theorem append_ne_of_head_ne {first second : Char} (other : first ≠ second)
    (firsts seconds : List Char) (path : String) :
    String.ofList (first :: firsts) ++ path ≠ String.ofList (second :: seconds) ++ path := by
  intro same
  have listsEq := congrArg String.toList same
  simp only [String.toList_append, String.toList_ofList, List.cons_append,
    List.cons.injEq] at listsEq
  exact other listsEq.1

/-- A fault in the settings file is told differently in the two languages. -/
theorem english_ne_chinese_of_load {files : Tree} {directory : Location} {path : String}
    {fatal : FatalError} (failed : Settings.load files directory path = .error fatal) :
    fatal.message.english ≠ fatal.message.chinese := by
  unfold Settings.load at failed
  split at failed
  · cases failed
    exact append_ne_of_head_ne (by decide) _ _ path
  · split at failed
    · cases failed
      exact append_ne_of_head_ne (by decide) _ _ path
    · split at failed
      · cases failed
        exact append_ne_of_head_ne (by decide) _ _ path
      · cases failed

theorem english_ne_chinese_of_loadOptional {files : Tree} {directory : Location}
    {config : Option String} {fatal : FatalError}
    (failed : Settings.loadOptional files directory config = .error fatal) :
    fatal.message.english ≠ fatal.message.chinese := by
  cases config with
  | none => cases failed
  | some path => exact english_ne_chinese_of_load failed

end FatalError

namespace Harness

open CommandLine (Arguments Options)

variable {environment : Environment} {words : List String} {arguments : Arguments}

/-- The tag of the language of a run: of the one asked for on the command line, else of the
one that the settings ask for, if they were loaded, else of the one that suits the
environment. -/
def runTag (environment : Environment) (options : Options)
    (loaded : Except FatalError Settings) : String :=
  match options.language.or (loaded.toOption.bind Settings.language) with
  | some requested => Language.resolve requested
  | none => environment.detect

theorem exists_tag_eq_runTag (environment : Environment) (options : Options)
    (loaded : Except FatalError Settings) :
    ∃ language : Language, language.tag = runTag environment options loaded := by
  unfold runTag
  split
  all_goals exact Language.exists_tag_eq_resolve _

section Arguments

variable {settings : Settings} {fatal : FatalError}

theorem adoptRequested_eq (options : Options) (session : Session) :
    adoptRequested options session =
      { session with tag := (options.language.map Language.resolve).getD session.tag } := by
  unfold adoptRequested
  cases options.language <;> rfl

/-- With the settings loaded, the plan has the tag of the run, and so has the session in which
it is carried out. -/
theorem runArguments_of_loaded (session : Session) (launch : Launcher)
    (invoked : arguments.invocation ≠ [])
    (loads : Settings.loadOptional session.files session.directory arguments.options.config =
      .ok settings) :
    runArguments launch environment arguments session =
      let tag := runTag environment arguments.options (.ok settings)
      ended ((planOf arguments (settings.override (settingsOf arguments.options)) tag).execute
        launch { session with tag := tag }) := by
  unfold runArguments
  rw [adoptRequested_eq]
  simp only [loads, if_neg invoked]
  rfl

/-- Once the settings are loaded, everything is said in the language of the run. -/
theorem runArguments_speaks (session : Session) (launch : Launcher)
    (invoked : arguments.invocation ≠ [])
    (loads : Settings.loadOptional session.files session.directory arguments.options.config =
      .ok settings)
    (languageEq : language.tag = runTag environment arguments.options (.ok settings))
    (silent : session.actions = []) :
    (runArguments launch environment arguments session).1.Speaks language := by
  have tagged : Language.lookup language.tag = language := Language.lookup_tag language
  have ready : ({ session with tag := language.tag } : Session).Speaks language :=
    ⟨tagged, by simp [silent]⟩
  rw [runArguments_of_loaded session launch invoked loads, ← languageEq]
  dsimp only
  -- The plan carries the tag that is in force when it is carried out.
  generalize planEq : planOf arguments (settings.override (settingsOf arguments.options))
    language.tag = plan
  have planTagged : Language.lookup plan.tag = language := by
    rw [← planEq]
    exact tagged
  have executed := ready.execute planTagged launch
  rcases ended_cases (plan.execute launch { session with tag := language.tag }) with
    same | ⟨fatal, -, gaveUp⟩
  · rw [same]
    exact executed
  · rw [gaveUp]
    exact executed.giveUp fatal

/-- Without settings the harness only gives up, in the language given on the command line or
else in the one that was in force. -/
theorem runArguments_actions_of_error (session : Session) (launch : Launcher)
    (fails : Settings.loadOptional session.files session.directory arguments.options.config =
      .error fatal)
    (silent : session.actions = []) :
    (runArguments launch environment arguments session).1.actions =
      [.gaveUp fatal ((arguments.options.language.map Language.resolve).getD session.tag)] := by
  unfold runArguments
  rw [adoptRequested_eq]
  simp [fails, giveUp, Session.perform, silent]

/-- A fault in the settings file is told in the language of the run only if the command line
gives it or it is English. -/
theorem gaveUp_speaks_iff {files : Tree} {directory : Location} {options : Options}
    (fails : Settings.loadOptional files directory options.config = .error fatal)
    (languageEq : language.tag = runTag environment options (.error fatal)) :
    (Action.gaveUp fatal ((options.language.map Language.resolve).getD
        Language.fallbackTag)).Speaks language ↔
      options.language.isSome ∨ environment.detect = Language.fallbackTag := by
  cases requested : options.language with
  | some wanted =>
      have wantedEq : language.tag = Language.resolve wanted := by
        rw [languageEq, runTag, requested]
        rfl
      simp [Action.Speaks, Message.text, ← wantedEq]
  | none =>
      have detectedEq : language.tag = environment.detect := by
        rw [languageEq, runTag, requested]
        rfl
      have inEnglish : Language.lookup Language.fallbackTag = .english := by decide
      have said : (Action.gaveUp fatal Language.fallbackTag).Speaks language ↔
          fatal.message.english = language.render fatal.message := by
        simp only [Action.Speaks, Message.text, inEnglish, Language.render]
      rw [Option.map_none, Option.getD_none, said, ← detectedEq]
      cases language with
      | english => simp [Language.render, Language.tag, Language.fallbackTag]
      | chinese =>
          have tellsApart := FatalError.english_ne_chinese_of_loadOptional fails
          simp [Language.render, Language.tag, Language.fallbackTag, tellsApart]

end Arguments

/-- Whatever a run tells its user is in one language, that of its tag, exactly if the command
line gives a language or the settings are loaded or the environment asks for English. -/
theorem speaks_one_language_iff
    (asked : CommandLine.answer environment words = .run arguments) (launch : Launcher)
    (files : Tree) (directory : Location) :
    let loaded := Settings.loadOptional files directory arguments.options.config
    let session : Session := { files := files, directory := directory }
    ∃ language : Language, language.tag = runTag environment arguments.options loaded ∧
      ((∀ action ∈ (run launch environment words session).1.actions, action.Speaks language) ↔
        arguments.options.language.isSome ∨ (∃ settings, loaded = .ok settings) ∨
          environment.detect = Language.fallbackTag) := by
  intro loaded session
  obtain ⟨language, languageEq⟩ := exists_tag_eq_runTag environment arguments.options loaded
  refine ⟨language, languageEq, ?_⟩
  simp only [run, asked]
  cases loads : loaded with
  | ok settings =>
      rw [loads] at languageEq
      have invoked := CommandLine.invocation_ne_nil asked
      have speaks := runArguments_speaks session launch invoked loads languageEq rfl
      exact ⟨fun _ => Or.inr (Or.inl ⟨settings, rfl⟩), fun _ => speaks.actions⟩
  | error fatal =>
      rw [loads] at languageEq
      rw [runArguments_actions_of_error session launch loads rfl]
      simpa using gaveUp_speaks_iff loads languageEq

/-- Without a settings file the language of the environment is in force when the program
cannot be started. -/
theorem speaks_language_of_environment :
    let session : Session := { files := ⟨[(["t.tcf"], .file [] false)]⟩, directory := [] }
    let final := (run (fun _ _ => .error .notFound) { lang := some "zh_CN.UTF-8" }
      ["tcf-runner", "true", "t.tcf"] session).1
    final.actions = [.gaveUp (.spawnFailed "true" (.notStarted .notFound)) "zh-CN"] ∧
      ∀ action ∈ final.actions, action.Speaks .chinese := by
  intro session final
  have asked : CommandLine.answer { lang := some "zh_CN.UTF-8" }
      ["tcf-runner", "true", "t.tcf"] = .run ⟨{}, ["true", "t.tcf"]⟩ := by decide
  obtain ⟨language, tagEq, speaksIff⟩ := speaks_one_language_iff asked
    (fun _ _ => .error .notFound) session.files session.directory
  have chinese : language = .chinese := by
    have runTagEq : runTag { lang := some "zh_CN.UTF-8" } {} (.ok {}) = "zh-CN" := by decide
    cases language with
    | english => exact absurd (tagEq.trans runTagEq) (by decide)
    | chinese => rfl
  refine ⟨by decide +kernel, ?_⟩
  rw [← chinese]
  exact speaksIff.mpr (Or.inr (Or.inl ⟨{}, rfl⟩))

/-- A settings file that cannot be read is explained in English where the environment asks
for Chinese. -/
theorem settings_fault_told_in_english :
    let environment : Environment := { lang := some "zh_CN.UTF-8" }
    let words := ["tcf-runner", "-c", "missing.toml", "true", "t.tcf"]
    let options : Options := { config := some "missing.toml" }
    let final := (run (fun _ _ => .error .notFound) environment words
      { files := {}, directory := [] }).1
    CommandLine.answer environment words = .run ⟨options, ["true", "t.tcf"]⟩ ∧
      runTag environment options (Settings.loadOptional {} [] options.config) =
        Language.chinese.tag ∧
      final.errors = "Error: Failed to read config file: missing.toml: " ++
        "No such file or directory (os error 2)\n" ∧
      ¬ ∀ action ∈ final.actions, action.Speaks .chinese := by
  intro environment words options final
  have actionsEq : final.actions = [.gaveUp (.configUnreadable "missing.toml" .notFound) "en"] := by
    decide
  refine ⟨by decide, by decide, by decide, ?_⟩
  rw [actionsEq, List.forall_mem_singleton]
  unfold Action.Speaks
  decide

end Harness

end CaseHarness
