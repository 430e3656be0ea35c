import Rulebook.Proofs.ArgumentReading

/-!
The debug option. It may be put in front of the arguments of a command, and it may be taken out of
them wherever it stands before a separator. Either way the same is carried out, with the debug switch
on where the option is given.
-/

namespace Rulebook.CommandLine

variable {level : Level} {command : Command} {settings next result : Settings}
  {invocation : Invocation} {short : Bool} {option : List Char}
  {arguments front back : List (List Char)} {kinds others before behind : List (List Char × Kind)}

/-! ## The switch -/

def Settings.asking (settings : Settings) (debug : Bool) : Settings :=
  { settings with debug := debug }

def Invocation.asking (invocation : Invocation) (debug : Bool) : Invocation :=
  { invocation with debug := debug }

theorem act_asking {found : List Switch × Option (List Char)}
    (acted : settings.act level found = .ok next) (debug : Bool) :
    next.debug = (settings.debug || found.1.contains .debug) ∧
      (settings.asking debug).act level found =
        .ok (next.asking (debug || found.1.contains .debug)) := by
  obtain ⟨switches, extra⟩ := found
  rw [Settings.act] at acted
  split at acted
  · cases acted
  · rename_i noHelp
    cases acted
    exact ⟨rfl, by rw [Settings.act, if_neg noHelp]; rfl⟩

/-- Whether progress was asked for before decides nothing but whether it is asked for in the end. -/
theorem Reads.asking (reads : Reads level kinds settings result) : ∃ asked : Bool,
    result.debug = (settings.debug || asked) ∧
      ∀ debug, Reads level kinds (settings.asking debug) (result.asking (debug || asked)) := by
  induction reads with
  | done => exact ⟨false, by simp, fun debug => by rw [Bool.or_false]; exact .done⟩
  | file new _ ih =>
      obtain ⟨asked, same, rest⟩ := ih
      exact ⟨asked, same, fun debug => .file new (rest debug)⟩
  | mark new followed _ ih =>
      obtain ⟨asked, same, rest⟩ := ih
      exact ⟨asked, same, fun debug => .mark new followed (rest debug)⟩
  | attached valued _ ih =>
      obtain ⟨asked, same, rest⟩ := ih
      exact ⟨asked, same, fun debug => .attached valued (rest debug)⟩
  | value valued _ ih =>
      obtain ⟨asked, same, rest⟩ := ih
      exact ⟨asked, same, fun debug => .value valued (rest debug)⟩
  | @switches _ _ _ _ _ _ _ _ found plain joined acted known _ ih =>
      obtain ⟨asked, same, rest⟩ := ih
      refine ⟨found.1.contains .debug || asked, ?_, fun debug => ?_⟩
      · rw [same, (act_asking acted false).1, Bool.or_assoc]
      · rw [← Bool.or_assoc]
        exact .switches plain joined (act_asking acted debug).2 known (rest _)

theorem Reads.asking_true (reads : Reads level kinds settings result) :
    Reads level kinds (settings.asking true) (result.asking true) := by
  obtain ⟨asked, _, rest⟩ := reads.asking
  simpa using rest true

theorem Reads.of_asking_true (reads : Reads level kinds (settings.asking true) result) :
    ∃ quiet, Reads level kinds settings quiet ∧ result = quiet.asking true := by
  obtain ⟨asked, same, rest⟩ := reads.asking
  refine ⟨_, rest settings.debug, ?_⟩
  have loud : result.debug = true := same
  rw [← loud]
  rfl

/-! ## The option among the arguments -/

def debugOption (option : List Char) (short : Bool) : List Char × Kind :=
  (option, .option .debug short none)

theorem reads_debugOption_iff :
    Reads level (debugOption option short :: kinds) settings result ↔
      Reads level kinds (settings.asking true) result := by
  have acted : settings.act level ([.debug], none) = .ok (settings.asking true) := by
    rw [Settings.act, if_neg (by decide)]
    simp [Settings.asking]
  constructor
  · intro reads
    cases reads with
    | value valued => cases valued
    | switches plain joined acted' known rest =>
        cases joined
        cases acted.symm.trans acted'
        exact rest
  · exact fun reads => .switches rfl rfl acted rfl reads

theorem Reads.afterMark_eq (reads : Reads level kinds settings result)
    (taken : settings.file ≠ none) : afterMark kinds = kinds := by
  cases reads with
  | mark new => exact absurd new taken
  | _ => rfl

theorem afterMark_append (filled : before ≠ []) (others : List (List Char × Kind)) :
    afterMark (before ++ others) = afterMark before ++ others := by
  obtain ⟨⟨argument, kind⟩, rest, rfl⟩ := List.exists_cons_of_ne_nil filled
  cases kind <;> rfl

theorem Reads.without
    (reads : Reads level (before ++ debugOption option short :: behind) settings result)
    (named : result.file ≠ none) :
    ∃ quiet, Reads level (before ++ behind) settings quiet ∧ result = quiet.asking true := by
  -- By induction on the reading: the option is its first argument, or it stands behind that one and
  -- the rest of the reading has it. Only a reading of switches can start with it.
  generalize same : before ++ debugOption option short :: behind = kinds at reads
  induction reads generalizing before with
  | done => simp at same
  | file new rest ih =>
      obtain ⟨rfl, same⟩ | ⟨before, rfl, rfl⟩ := List.append_eq_cons_iff.mp same
      · cases same
      rw [List.cons_append]
      -- a separator behind the file goes with it, so behind the option there cannot be one
      cases before with
      | nil =>
          obtain ⟨quiet, reads, loud⟩ := ih named (List.nil_append _)
          rw [List.nil_append, ← reads.afterMark_eq (Option.some_ne_none _)] at reads
          exact ⟨quiet, .file new reads, loud⟩
      | cons head before =>
          have cut := afterMark_append (List.cons_ne_nil head before)
          obtain ⟨quiet, reads, loud⟩ := ih named (cut _).symm
          exact ⟨quiet, .file new (cut _ ▸ reads), loud⟩
  | mark new followed rest ih =>
      obtain ⟨rfl, same⟩ | ⟨before, rfl, rfl⟩ := List.append_eq_cons_iff.mp same
      · cases same
      rw [List.cons_append]
      obtain ⟨quiet, reads, loud⟩ := ih named rfl
      refine ⟨quiet, .mark new ?_ reads, loud⟩
      -- One of the arguments behind the mark is the file.
      intro none
      rw [none] at reads
      cases reads
      exact named (loud ▸ new)
  | attached valued rest ih =>
      obtain ⟨rfl, same⟩ | ⟨before, rfl, rfl⟩ := List.append_eq_cons_iff.mp same
      · cases same
      obtain ⟨quiet, reads, loud⟩ := ih named rfl
      exact ⟨quiet, .attached valued reads, loud⟩
  | value valued rest ih =>
      obtain ⟨rfl, same⟩ | ⟨before, rfl, follows⟩ := List.append_eq_cons_iff.mp same
      · cases same
        cases valued
      obtain ⟨rfl, same⟩ | ⟨before, rfl, rfl⟩ := List.append_eq_cons_iff.mp follows.symm
      · cases same
      obtain ⟨quiet, reads, loud⟩ := ih named rfl
      exact ⟨quiet, .value valued reads, loud⟩
  | switches plain joined acted known rest ih =>
      obtain ⟨rfl, same⟩ | ⟨before, rfl, rfl⟩ := List.append_eq_cons_iff.mp same
      · cases same
        have reads : Reads level (debugOption option short :: behind) _ _ :=
          .switches plain joined acted known rest
        exact (reads_debugOption_iff.mp reads).of_asking_true
      · obtain ⟨quiet, reads, loud⟩ := ih named rfl
        exact ⟨quiet, .switches plain joined acted known reads, loud⟩

/-! ## Commands -/

theorem classify_debugOption (spelled : (option, .debug) ∈ (Level.command command).spellings) :
    option ≠ "--".toList ∧ (Level.command command).classify option =
      .ok (.option .debug (isShort option) none) := by
  have named : option = "-D".toList ∨ option = "--debug".toList := by
    cases command <;> simpa only [Level.spellings, List.mem_cons, Prod.mk.injEq, reduceCtorEq,
      and_false, and_true, false_or, List.not_mem_nil, or_false] using spelled
  rcases named with rfl | rfl <;> cases command <;> exact ⟨by decide, rfl⟩

theorem classifyAll_debugOption (spelled : (option, .debug) ∈ (Level.command command).spellings) :
    (Level.command command).classifyAll (option :: arguments) = .ok kinds ↔
      ∃ others, (Level.command command).classifyAll arguments = .ok others ∧
        kinds = debugOption option (isShort option) :: others := by
  obtain ⟨plain, classified⟩ := classify_debugOption spelled
  rw [classifyAll_cons plain, classified]
  simp [debugOption]

theorem read_debugOption (spelled : (option, .debug) ∈ (Level.command command).spellings)
    (read : command.read arguments [] = .ok invocation) :
    command.read (option :: arguments) [] = .ok (invocation.asking true) := by
  obtain ⟨_, kinds, settings, file, classified, reads, named, rfl⟩ := command_read_iff.mp read
  exact command_read_iff.mpr ⟨rfl, _, settings.asking true, file,
    (classifyAll_debugOption spelled).mpr ⟨kinds, classified, rfl⟩,
    reads_debugOption_iff.mpr reads.asking_true, named, rfl⟩

theorem read_without_debugOption
    (spelled : (option, .debug) ∈ (Level.command command).spellings)
    (unmarked : "--".toList ∉ front)
    (read : command.read (front ++ option :: back) [] = .ok invocation) :
    ∃ quiet, command.read (front ++ back) [] = .ok quiet ∧ invocation = quiet.asking true := by
  obtain ⟨_, _, _, file, classified, reads, named, rfl⟩ := command_read_iff.mp read
  obtain ⟨before, _, first, later, rfl⟩ := (classifyAll_append unmarked).mp classified
  obtain ⟨behind, second, rfl⟩ := (classifyAll_debugOption spelled).mp later
  obtain ⟨quiet, left, rfl⟩ := reads.without (named ▸ Option.some_ne_none file)
  have classified := (classifyAll_append unmarked).mpr ⟨before, behind, first, second, rfl⟩
  exact ⟨_, command_read_iff.mpr ⟨rfl, _, quiet, file, classified, left, named, rfl⟩, rfl⟩

end Rulebook.CommandLine
