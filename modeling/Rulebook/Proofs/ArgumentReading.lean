import Rulebook.Proofs.CommandReport

/-!
Argument lists that name a command to carry out. Such a list starts with the name of the command,
and the arguments after it are read without a spare one: each of them is the file, a mark beside it,
an option, or the value of an option.
-/

namespace Rulebook.CommandLine

def afterMark : List (List Char × Kind) → List (List Char × Kind)
  | (_, .separator) :: others => others
  | others => others

/-- The arguments lead from the settings before them to those behind them, and none is spare. -/
inductive Reads (level : Level) : List (List Char × Kind) → Settings → Settings → Prop where
  | done {settings : Settings} : Reads level [] settings settings
  | file {argument : List Char} {others : List (List Char × Kind)} {settings result : Settings}
      (new : settings.file = none)
      (rest : Reads level (afterMark others) { settings with file := some argument } result) :
      Reads level ((argument, .operand) :: others) settings result
  | mark {argument : List Char} {others : List (List Char × Kind)} {settings result : Settings}
      (new : settings.file = none) (followed : others ≠ [])
      (rest : Reads level others settings result) :
      Reads level ((argument, .separator) :: others) settings result
  | attached {argument : List Char} {others : List (List Char × Kind)} {settings result : Settings}
      {switch : Switch} {short : Bool} {attached : Attached} (valued : switch.takesValue = true)
      (rest : Reads level others { settings with rule := some attached.value } result) :
      Reads level ((argument, .option switch short (some attached)) :: others) settings result
  | value {argument value : List Char} {others : List (List Char × Kind)}
      {settings result : Settings} {switch : Switch} {short : Bool}
      (valued : switch.takesValue = true)
      (rest : Reads level others { settings with rule := some value } result) :
      Reads level ((argument, .option switch short none) :: (value, .operand) :: others)
        settings result
  | switches {argument : List Char} {others : List (List Char × Kind)}
      {settings next result : Settings} {switch : Switch} {short : Bool}
      {attached : Option Attached} {found : List Switch × Option (List Char)}
      (plain : switch.takesValue = false)
      (joined : level.switches switch short attached = .ok found)
      (acted : settings.act level found = .ok next) (known : next.extras = settings.extras)
      (rest : Reads level others next result) :
      Reads level ((argument, .option switch short attached) :: others) settings result

variable {level : Level} {command : Command} {settings next result : Settings}
  {invocation : Invocation} {switch : Switch} {short : Bool}
  {argument : List Char} {arguments extras front back : List (List Char)}
  {kinds others : List (List Char × Kind)}

/-! ## Classifying -/

theorem classifyAll_cons (plain : argument ≠ "--".toList) :
    level.classifyAll (argument :: arguments) = .ok kinds ↔
      ∃ kind others, level.classify argument = .ok kind ∧
        level.classifyAll arguments = .ok others ∧ kinds = (argument, kind) :: others := by
  rw [Level.classifyAll, if_neg plain]
  cases level.classify argument with
  | error => simp
  | ok kind => cases level.classifyAll arguments <;> simp [eq_comm]

theorem classifyAll_append (unmarked : "--".toList ∉ front) :
    level.classifyAll (front ++ back) = .ok kinds ↔
      ∃ before behind, level.classifyAll front = .ok before ∧
        level.classifyAll back = .ok behind ∧ kinds = before ++ behind := by
  induction front generalizing kinds with
  | nil => simp [Level.classifyAll]
  | cons argument front ih =>
      have plain : argument ≠ "--".toList := fun same => unmarked (same ▸ List.mem_cons_self)
      have unmarked := mt (List.mem_cons_of_mem argument) unmarked
      simp only [List.cons_append, classifyAll_cons plain, ih unmarked]
      constructor
      · rintro ⟨kind, _, classified, ⟨before, behind, first, second, rfl⟩, rfl⟩
        exact ⟨_, _, ⟨kind, before, classified, first, rfl⟩, second, rfl⟩
      · rintro ⟨_, behind, ⟨kind, before, classified, first, rfl⟩, second, rfl⟩
        exact ⟨kind, _, classified, ⟨before, behind, first, second, rfl⟩, rfl⟩

theorem classifyAll_keeps (classified : level.classifyAll arguments = .ok kinds) :
    kinds.map Prod.fst = arguments := by
  induction arguments generalizing kinds with
  | nil =>
      cases classified
      rfl
  | cons argument arguments ih =>
      by_cases plain : argument = "--".toList
      · rw [Level.classifyAll, if_pos plain] at classified
        cases classified
        simp [Function.comp_def]
      · obtain ⟨kind, others, _, later, rfl⟩ := (classifyAll_cons plain).mp classified
        rw [List.map_cons, ih later]

/-! ## Reading -/

namespace Reads

theorem extras_eq (reads : Reads level kinds settings result) :
    result.extras = settings.extras := by
  induction reads with
  | done => rfl
  | file _ _ ih | mark _ _ _ ih | attached _ _ ih | value _ _ ih => exact ih
  | switches _ _ _ known _ ih => exact ih.trans known

theorem read (reads : Reads level kinds settings result) :
    Settings.read level kinds settings = .ok result := by
  induction reads with
  | done => rfl
  | @file settings others result argument new _ ih =>
      rw [Settings.read.eq_def]
      simp only [new]
      cases others with
      | nil => exact ih
      | cons head others =>
          obtain ⟨argument, kind⟩ := head
          cases kind <;> exact ih
  | @mark settings others _ _ new followed _ ih =>
      obtain ⟨head, others, rfl⟩ := List.exists_cons_of_ne_nil followed
      rw [Settings.read.eq_def]
      simp only [new]
      exact ih
  | attached valued _ ih =>
      rw [Settings.read.eq_def]
      simp only [valued, if_true]
      exact ih
  | value valued _ ih =>
      rw [Settings.read.eq_def]
      simp only [valued, if_true]
      exact ih
  | switches plain joined acted _ _ ih =>
      rw [Settings.read.eq_def]
      simp only [plain, joined, acted]
      exact ih

end Reads

theorem extras_of_act {found : List Switch × Option (List Char)}
    (acted : settings.act level found = .ok next) :
    next.extras = settings.extras ++ found.2.toList := by
  obtain ⟨switches, extra⟩ := found
  rw [Settings.act] at acted
  split at acted
  · cases acted
  · cases acted
    rfl

theorem afterMark_eq_self (unmarked : ∀ mark rest, others ≠ (mark, .separator) :: rest) :
    afterMark others = others := by
  unfold afterMark
  split
  · exact absurd rfl (unmarked _ _)
  · rfl

theorem extras_le (read : Reads level kinds settings result ∨
      settings.extras.length < result.extras.length) :
    settings.extras.length ≤ result.extras.length := by
  rcases read with reads | spare
  · exact Nat.le_of_eq (congrArg List.length reads.extras_eq.symm)
  · exact Nat.le_of_lt spare

theorem reads_or_spare (read : Settings.read level kinds settings = .ok result) :
    Reads level kinds settings result ∨ settings.extras.length < result.extras.length := by
  fun_induction Settings.read level kinds settings with
  | case1 =>
      cases read
      exact .inl .done
  | case2 argument _ _ ih | case4 argument _ _ _ ih | case5 argument _ _ _ _ ih =>
      have kept := extras_le (ih read)
      rw [Settings.withExtras, List.length_append, List.length_singleton] at kept
      exact .inr kept
  | case3 _ _ _ _ new ih => exact (ih read).imp_left (.mark new (List.cons_ne_nil _ _))
  | case6 _ _ new _ _ ih => exact (ih read).imp_left (.file new)
  | case7 _ _ new _ noMark ih =>
      refine (ih read).imp_left fun rest => .file new ?_
      rwa [afterMark_eq_self noMark]
  | case8 _ _ _ _ _ valued _ ih => exact (ih read).imp_left (.attached valued)
  | case9 _ _ _ _ valued _ _ ih => exact (ih read).imp_left (.value valued)
  | case10 | case11 | case12 => cases read
  | case13 _ _ _ _ _ _ plain found joined _ acted ih =>
      have grown := extras_of_act acted
      have plain := Bool.eq_false_iff.mpr plain
      cases extra : found.2 with
      | none =>
          rw [extra, Option.toList_none, List.append_nil] at grown
          rw [← grown]
          exact (ih read).imp_left (.switches plain joined acted grown)
      | some text =>
          have kept := extras_le (ih read)
          rw [grown, extra, Option.toList_some, List.length_append, List.length_singleton] at kept
          exact .inr kept

theorem reads_iff : Reads level kinds settings result ↔
    Settings.read level kinds settings = .ok result ∧ result.extras = settings.extras := by
  refine ⟨fun reads => ⟨reads.read, reads.extras_eq⟩, fun ⟨read, same⟩ => ?_⟩
  rcases reads_or_spare read with reads | spare
  · exact reads
  · rw [same] at spare
    exact absurd spare (Nat.lt_irrefl _)

/-! ## Commands -/

theorem command_read_iff : command.read arguments extras = .ok invocation ↔
    extras = [] ∧ ∃ kinds settings file,
      (Level.command command).classifyAll arguments = .ok kinds ∧
      Reads (.command command) kinds Settings.initial settings ∧ settings.file = some file ∧
      invocation = ⟨command, file, settings.rule.getD [], settings.debug⟩ := by
  simp only [reads_iff]
  constructor
  · intro read
    simp only [Command.read] at read
    split at read
    · cases read
    rename_i kinds classified
    split at read
    · cases read
    rename_i settings found
    split at read
    · cases read
    rename_i file named
    split at read
    · rename_i known
      obtain ⟨rfl, known⟩ := List.append_eq_nil_iff.mp known
      cases read
      exact ⟨rfl, kinds, settings, file, classified, ⟨found, known⟩, named, rfl⟩
    · cases read
  · rintro ⟨rfl, kinds, settings, file, classified, ⟨found, known⟩, named, rfl⟩
    simp only [Command.read, classified, found, named, known]
    rfl

/-! ## The program -/

def Kind.AsksHelp (kind : Kind) : Prop :=
  ∀ switch short attached, kind = .option switch short attached → switch = .help

theorem asksHelp_kindOf (spelling : List Char) (attached : Option Attached) :
    (kindOf spelling .help attached).AsksHelp := by
  rintro _ _ _ ⟨⟩
  rfl

theorem help_of_mem_spellings {spelling : List Char}
    (spelled : (spelling, switch) ∈ Level.program.spellings) : switch = .help := by
  simp only [Level.spellings, List.mem_cons, Prod.mk.injEq, List.not_mem_nil] at spelled
  grind

theorem help_of_lookup {spelling : List Char}
    (found : Level.program.spellings.lookup spelling = some switch) : switch = .help := by
  obtain ⟨front, back, split, _⟩ := List.lookup_eq_some_iff.mp found
  have spelled : (spelling, switch) ∈ Level.program.spellings := by simp [split]
  exact help_of_mem_spellings spelled

theorem asksHelp_of_candidates {candidate : List Char × Kind}
    (listed : candidate ∈ Level.program.candidates argument) : candidate.2.AsksHelp := by
  unfold Level.candidates at listed
  split at listed
  all_goals
    obtain ⟨⟨spelling, switch⟩, spelled, taken⟩ := List.mem_filterMap.mp listed
    cases help_of_mem_spellings spelled
    grind [asksHelp_kindOf]

theorem filterMap_pair_length {α β : Type} {choose : α → Option β} {first second : α}
    (missed : choose first = none ∨ choose second = none) :
    ([first, second].filterMap choose).length ≤ 1 := by
  rcases missed with missed | missed
  · rw [List.filterMap_cons_none missed]
    exact List.length_filterMap_le _ _
  · rw [List.filterMap_cons, List.filterMap_cons_none missed, List.filterMap_nil]
    cases choose first <;> simp

theorem candidates_program_length (first : Char) (rest : List Char) :
    (Level.program.candidates ('-' :: first :: rest)).length ≤ 1 := by
  unfold Level.candidates
  by_cases long : first = '-'
  · subst long
    have unshort : ¬ isShort ('-' :: '-' :: rest) = true := nofun
    rw [if_neg unshort]
    exact filterMap_pair_length (.inl (if_neg nofun))
  · have short : isShort ('-' :: first :: rest) = true := by
      simp [isShort, List.isPrefixOf, Ne.symm long]
    have prefixed : ¬ ('-' :: first :: rest).isPrefixOf "--help".toList = true := by
      simp [List.isPrefixOf, long]
    rw [if_pos short]
    exact filterMap_pair_length (.inr ((if_neg nofun).trans (if_neg prefixed)))

theorem classify_program (argument : List Char) :
    ∃ kind, Level.program.classify argument = .ok kind ∧ kind.AsksHelp := by
  unfold Level.classify
  split
  · rename_i first rest
    split
    · rename_i found
      cases help_of_lookup found
      exact ⟨_, rfl, asksHelp_kindOf _ _⟩
    · simp only
      split
      · rename_i found
        cases help_of_lookup found
        exact ⟨_, rfl, asksHelp_kindOf _ _⟩
      · split
        · split <;> exact ⟨_, rfl, nofun⟩
        · rename_i one
          exact ⟨_, rfl, asksHelp_of_candidates (one ▸ List.mem_cons_self)⟩
        · rename_i several noSeveral
          -- the program has one option in two spellings, and no argument is short for both
          have few := candidates_program_length first rest
          rcases listed : Level.program.candidates ('-' :: first :: rest) with
            _ | ⟨candidate, _ | ⟨next, others⟩⟩
          · exact absurd listed several
          · exact absurd listed (noSeveral _ _)
          · rw [listed, List.length_cons, List.length_cons] at few
            omega
  · exact ⟨_, rfl, nofun⟩

theorem classifyAll_program (arguments : List (List Char)) :
    ∃ kinds, Level.program.classifyAll arguments = .ok kinds ∧
      ∀ argument kind, (argument, kind) ∈ kinds → kind.AsksHelp := by
  induction arguments with
  | nil => exact ⟨[], rfl, nofun⟩
  | cons argument arguments ih =>
      obtain ⟨kind, classified, asks⟩ := classify_program argument
      obtain ⟨others, later, asksLater⟩ := ih
      by_cases plain : argument = "--".toList
      · refine ⟨_, by rw [Level.classifyAll, if_pos plain], ?_⟩
        grind [Kind.AsksHelp]
      · refine ⟨_, (classifyAll_cons plain).mpr ⟨kind, others, classified, later, rfl⟩, ?_⟩
        grind

theorem map_eq_ok {α β ε : Type} {f : α → β} {result : Except ε α} {value : β}
    (mapped : result.map f = .ok value) : ∃ found, result = .ok found ∧ f found = value := by
  cases result with
  | error fault => cases mapped
  | ok found => exact ⟨found, rfl, Except.ok.inj mapped⟩

theorem mem_of_joined {equals : Bool} {text : List Char} {found : List Switch × Option (List Char)}
    (joined : level.joined switch equals text = .ok found) : switch ∈ found.1 := by
  fun_induction Level.joined level switch equals text with
  | case1 | case2 => cases joined
  | case3 | case4 =>
      cases joined
      exact List.mem_cons_self
  | case5 | case6 =>
      obtain ⟨later, _, rfl⟩ := map_eq_ok joined
      exact List.mem_cons_self

theorem mem_of_switches {attached : Option Attached} {found : List Switch × Option (List Char)}
    (joined : level.switches switch short attached = .ok found) : switch ∈ found.1 := by
  unfold Level.switches at joined
  split at joined
  · cases joined
    exact List.mem_cons_self
  · split at joined
    · exact mem_of_joined joined
    · cases joined

theorem act_of_help {found : List Switch × Option (List Char)} (asked : .help ∈ found.1) :
    settings.act level found = .error (.help level) := by
  rw [Settings.act, if_pos (List.contains_iff_mem.mpr asked)]

theorem name_of_ofName? {name : List Char} (named : Command.ofName? name = some command) :
    name = command.name := by
  have same := List.find?_some named
  exact (beq_iff_eq.mp same).symm

theorem ofName?_name (command : Command) : Command.ofName? command.name = some command := by
  cases command <;> rfl

theorem readKinds_ok (asks : ∀ argument kind, (argument, kind) ∈ kinds → kind.AsksHelp)
    (read : readKinds kinds settings = .ok invocation) : settings.extras = [] ∧
      ∃ others, kinds = (invocation.command.name, .operand) :: others ∧
        invocation.command.read (others.map Prod.fst) [] = .ok invocation := by
  fun_induction readKinds kinds settings with
  | case1 | case3 | case4 | case5 | case7 | case8 => cases read
  | case2 argument others settings ih =>
      have spare := (ih (fun _ _ later => asks _ _ (.tail _ later)) read).1
      exact absurd spare (List.append_ne_nil_of_right_ne_nil _ (List.cons_ne_nil _ _))
  | case6 argument others settings command named =>
      obtain ⟨none, taken⟩ := command_read_iff.mp read
      obtain ⟨_, _, _, _, _, _, rfl⟩ := taken
      rw [none] at read
      exact ⟨none, others, by rw [name_of_ofName? named], read⟩
  | case9 _ _ _ _ _ _ found joined _ acted =>
      have help := asks _ _ List.mem_cons_self _ _ _ rfl
      subst help
      rw [act_of_help (mem_of_switches joined)] at acted
      cases acted

/-- What is carried out is the command that the arguments start with. -/
theorem read_iff : Invocation.read arguments = .ok invocation ↔
    ∃ rest, arguments = invocation.command.name :: rest ∧
      invocation.command.read rest [] = .ok invocation := by
  obtain ⟨kinds, classified, asks⟩ := classifyAll_program arguments
  rw [Invocation.read, classified]
  constructor
  · intro read
    obtain ⟨_, others, rfl, taken⟩ := readKinds_ok asks read
    exact ⟨_, (classifyAll_keeps classified).symm, taken⟩
  · rintro ⟨rest, rfl, taken⟩
    have named : Plain invocation.command.name := by cases invocation.command <;> decide
    rw [classifyAll_plain _ named] at classified
    obtain ⟨others, later, rfl⟩ := map_eq_ok classified
    simp only [readKinds, ofName?_name, classifyAll_keeps later]
    exact taken

theorem read_name_iff : Invocation.read (command.name :: arguments) = .ok invocation ↔
    command.read arguments [] = .ok invocation := by
  rw [read_iff]
  constructor
  · rintro ⟨rest, same, taken⟩
    obtain ⟨names, rfl⟩ := List.cons.inj same
    have both := ofName?_name command
    rw [names, ofName?_name] at both
    rwa [← Option.some.inj both]
  · intro taken
    obtain ⟨_, _, _, _, _, _, _, rfl⟩ := command_read_iff.mp taken
    exact ⟨arguments, rfl, taken⟩

end Rulebook.CommandLine
