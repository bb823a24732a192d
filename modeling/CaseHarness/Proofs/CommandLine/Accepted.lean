import CaseHarness.CommandLine.Arguments

/-!
# Accepted command lines

The reader of a command line keeps an option pending until it has seen the word behind the
value.  `Accepts` tells what it accepts without that delay, option by option: a word that
says all by itself, a word that waits and the plain word that is its value, and at last
the words from the first positional one on.  A command line is read exactly if it is
accepted in this way.
-/

namespace CaseHarness.CommandLine

/-- Words that turn options into arguments. -/
inductive Accepts : Options → List String → Arguments → Prop
  | nothing {options : Options} : Accepts options [] ⟨options, []⟩
  | separated {options : Options} {word : String} {rest : List String}
      (token : Token.ofWord word = .separator) : Accepts options (word :: rest) ⟨options, rest⟩
  | positional {options : Options} {word : String} {rest : List String}
      (token : Token.ofWord word = .plain) :
      Accepts options (word :: rest) ⟨options, word :: rest⟩
  | flag {options raised : Options} {word : String} {rest : List String} {flag : Flag}
      {arguments : Arguments} (token : Token.ofWord word = .flag flag)
      (raises : options.raise flag = .ok raised) (others : Accepts raised rest arguments) :
      Accepts options (word :: rest) arguments
  | joined {options assigned : Options} {word value : String} {rest : List String}
      {option : ValueOption} {arguments : Arguments}
      (token : Token.ofWord word = .optionValue option value)
      (assigns : options.assign option value = .ok assigned)
      (others : Accepts assigned rest arguments) : Accepts options (word :: rest) arguments
  | apart {options assigned : Options} {word value : String} {rest : List String}
      {option : ValueOption} {arguments : Arguments}
      (token : Token.ofWord word = .option option) (plain : Token.ofWord value = .plain)
      (assigns : options.assign option value = .ok assigned)
      (others : Accepts assigned rest arguments) :
      Accepts options (word :: value :: rest) arguments
  | cluster {options applied : Options} {word : String} {rest : List String} {cluster : Cluster}
      {arguments : Arguments} (token : Token.ofWord word = .cluster cluster)
      (applies : options.applyCluster cluster = .ok (applied, none))
      (others : Accepts applied rest arguments) : Accepts options (word :: rest) arguments
  | clusterApart {options applied assigned : Options} {word value : String}
      {rest : List String} {cluster : Cluster} {option : ValueOption} {arguments : Arguments}
      (token : Token.ofWord word = .cluster cluster)
      (applies : options.applyCluster cluster = .ok (applied, some ⟨option, none⟩))
      (plain : Token.ofWord value = .plain)
      (assigns : applied.assign option value = .ok assigned)
      (others : Accepts assigned rest arguments) :
      Accepts options (word :: value :: rest) arguments

/-- Words that turn options into arguments while an option is pending. -/
def AcceptsPending (options : Options) : Option Pending → List String → Arguments → Prop
  | none, words, arguments => Accepts options words arguments
  | some ⟨option, some value⟩, words, arguments =>
      ∃ assigned, options.assign option value = .ok assigned ∧ Accepts assigned words arguments
  | some ⟨option, none⟩, words, arguments =>
      ∃ value rest assigned, words = value :: rest ∧ Token.ofWord value = .plain ∧
        options.assign option value = .ok assigned ∧ Accepts assigned rest arguments

variable {options applied : Options} {pending : Option Pending} {words : List String}
  {arguments : Arguments}

/-- What follows a pending option that has its value is read as if that value stood
assigned. -/
theorem AcceptsPending.of_settle {settled : Options}
    (settles : options.settle pending = .ok settled) (accepts : Accepts settled words arguments) :
    AcceptsPending options pending words arguments := by
  rcases pending with _ | ⟨option, _ | value⟩
  · cases settles
    exact accepts
  · cases settles
  · exact ⟨settled, settles, accepts⟩

theorem applyCluster_eq_ok {cluster : Cluster} {waiting : Option Pending}
    (applies : options.applyCluster cluster = .ok (applied, waiting)) :
    ∃ raised, options.raiseAll cluster.flags = .ok raised ∧
      ((cluster.option = none ∧ applied = raised ∧ waiting = none) ∨
        (∃ option value, cluster.option = some (option, some value) ∧
          raised.assign option value = .ok applied ∧ waiting = none) ∨
        ∃ option, cluster.option = some (option, none) ∧ applied = raised ∧
          waiting = some ⟨option, none⟩) := by
  unfold Options.applyCluster at applies
  split at applies
  · cases applies
  · next raised raises =>
    refine ⟨raised, raises, ?_⟩
    split at applies
    · next optionEq =>
      cases applies
      exact Or.inl ⟨optionEq, rfl, rfl⟩
    · next option optionEq =>
      cases applies
      exact Or.inr (Or.inr ⟨option, optionEq, rfl, rfl⟩)
    · next option value optionEq =>
      cases assigns : raised.assign option value with
      | error stop => simp [assigns, Except.map] at applies
      | ok next =>
          simp only [assigns, Except.map, Except.ok.injEq, Prod.mk.injEq] at applies
          obtain ⟨rfl, rfl⟩ := applies
          exact Or.inr (Or.inl ⟨option, value, optionEq, assigns, rfl⟩)

/-- An option is left waiting exactly if it ends the cluster without a value. -/
theorem waits_iff_of_applyCluster {cluster : Cluster} {waiting : Option Pending}
    {option : ValueOption} (applies : options.applyCluster cluster = .ok (applied, waiting)) :
    waiting = some ⟨option, none⟩ ↔ cluster.option = some (option, none) := by
  obtain ⟨raised, -, ⟨optionEq, -, rfl⟩ | ⟨given, value, optionEq, -, rfl⟩ |
    ⟨given, optionEq, -, rfl⟩⟩ := applyCluster_eq_ok applies
  all_goals simp [optionEq]

theorem finish_eq_ok {invocation : List String}
    (finishes : finish options pending invocation = .ok arguments) :
    ∃ settled, options.settle pending = .ok settled ∧ arguments = ⟨settled, invocation⟩ := by
  unfold finish at finishes
  cases settles : options.settle pending with
  | error stop => simp [settles, Except.map] at finishes
  | ok settled =>
      simp only [settles, Except.map, Except.ok.injEq] at finishes
      exact ⟨settled, rfl, finishes.symm⟩

/-- Whatever is pending, words that are read are accepted. -/
theorem acceptsPending_of_readFrom
    (reads : readFrom options pending words = .ok arguments) :
    AcceptsPending options pending words arguments := by
  induction words generalizing options pending with
  | nil =>
      obtain ⟨settled, settles, rfl⟩ := finish_eq_ok reads
      exact .of_settle settles .nothing
  | cons word rest ih =>
      unfold readFrom at reads
      split at reads
      · cases reads
      · next token =>
        obtain ⟨settled, settles, rfl⟩ := finish_eq_ok reads
        exact .of_settle settles (.separated token)
      · next token =>
        split at reads
        · next option =>
          obtain ⟨assigned, assigns, accepts⟩ := ih reads
          exact ⟨word, rest, assigned, rfl, token, assigns, accepts⟩
        · obtain ⟨settled, settles, rfl⟩ := finish_eq_ok reads
          exact .of_settle settles (.positional token)
      · next flag token =>
        split at reads
        · cases reads
        · next settled settles =>
          split at reads
          · cases reads
          · next raised raises => exact .of_settle settles (.flag token raises (ih reads))
      · next option token =>
        split at reads
        · cases reads
        · next settled settles =>
          obtain ⟨value, others, assigned, rfl, plain, assigns, accepts⟩ := ih reads
          exact .of_settle settles (.apart token plain assigns accepts)
      · next option value token =>
        split at reads
        · cases reads
        · next settled settles =>
          split at reads
          · cases reads
          · next assigned assigns => exact .of_settle settles (.joined token assigns (ih reads))
      · next cluster token =>
        split at reads
        · cases reads
        · next settled settles =>
          split at reads
          · cases reads
          · next applied waiting applies =>
            have accepts := ih reads
            obtain ⟨raised, -, ⟨-, -, rfl⟩ | ⟨-, -, -, -, rfl⟩ | ⟨option, -, -, rfl⟩⟩ :=
              applyCluster_eq_ok applies
            · exact .of_settle settles (.cluster token applies accepts)
            · exact .of_settle settles (.cluster token applies accepts)
            · obtain ⟨value, others, assigned, rfl, plain, assigns, accepts⟩ := accepts
              exact .of_settle settles (.clusterApart token applies plain assigns accepts)

/-- Every command line that is read is accepted. -/
theorem accepts_of_read (reads : read words = .ok arguments) :
    Accepts {} words.tail arguments :=
  acceptsPending_of_readFrom reads

/-- Words that are accepted are read, also if the options in front of them are still pending. -/
theorem readFrom_of_accepts {base : Options} (accepts : Accepts options words arguments)
    (settles : base.settle pending = .ok options) :
    readFrom base pending words = .ok arguments := by
  induction accepts generalizing base pending with
  | nothing => simp [readFrom, finish, settles, Except.map]
  | separated token => simp [readFrom, token, finish, settles, Except.map]
  | @positional options word rest token =>
      have finishes (invocation : List String) :
          finish base pending invocation = .ok ⟨options, invocation⟩ := by
        rw [finish, settles]
        rfl
      unfold readFrom
      rw [token]
      -- An option without its value cannot be settled.
      rcases pending with _ | ⟨option, _ | value⟩
      · exact finishes _
      · cases settles
      · exact finishes _
  | flag token raises others ih =>
      simp only [readFrom, token, settles, raises]
      exact ih rfl
  | joined token assigns others ih =>
      simp only [readFrom, token, settles, assigns]
      exact ih rfl
  | apart token plain assigns others ih =>
      simp only [readFrom, token, settles, plain]
      exact ih assigns
  | cluster token applies others ih =>
      simp only [readFrom, token, settles, applies]
      exact ih rfl
  | clusterApart token applies plain assigns others ih =>
      simp only [readFrom, token, settles, applies, plain]
      exact ih assigns

/-- A command line is read exactly if it is accepted. -/
theorem read_eq_ok_iff : read words = .ok arguments ↔ Accepts {} words.tail arguments :=
  ⟨accepts_of_read, fun accepts => readFrom_of_accepts accepts rfl⟩

end CaseHarness.CommandLine
