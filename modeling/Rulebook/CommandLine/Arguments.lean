import Rulebook.Text.Listed
import Rulebook.Text.Quoted
import Rulebook.Unicode.DecimalDigit

/-!
The arguments of the command line. The first operand names the command; everything after it is
read by the command's own rules, where options may stand before or after the file. Long options may
be shortened as long as one option is meant, short ones may be joined, and after `--` nothing is an
option.
-/

namespace Rulebook.CommandLine

inductive Command where
  | check
  | ast
  deriving DecidableEq, Repr

inductive Level where
  | program
  | command (command : Command)
  deriving DecidableEq, Repr

inductive Switch where
  | help
  | debug
  | rule
  deriving DecidableEq, Repr

def Command.name : Command → List Char
  | .check => "check".toList
  | .ast => "ast".toList

def Command.ofName? (name : List Char) : Option Command :=
  [Command.check, .ast].find? (·.name == name)

def Level.title : Level → List Char
  | .program => "pcombc".toList
  | .command chosen => "pcombc ".toList ++ chosen.name

def Level.usage : Level → List Char
  | .program => "usage: pcombc [-h] \x7bcheck,ast\x7d ...".toList
  | .command .check => "usage: pcombc check [-h] [-D] file".toList
  | .command .ast => "usage: pcombc ast [-h] [--rule RULE] [-D] file".toList

/-- The spellings of the options, in the order in which an ambiguity lists them. -/
def Level.spellings : Level → List (List Char × Switch)
  | .program => [("-h".toList, .help), ("--help".toList, .help)]
  | .command .check =>
      [("-h".toList, .help), ("--help".toList, .help), ("-D".toList, .debug),
        ("--debug".toList, .debug)]
  | .command .ast =>
      [("-h".toList, .help), ("--help".toList, .help), ("--rule".toList, .rule),
        ("-D".toList, .debug), ("--debug".toList, .debug)]

def Switch.title : Switch → List Char
  | .help => "-h/--help".toList
  | .debug => "-D/--debug".toList
  | .rule => "--rule".toList

def Switch.takesValue : Switch → Bool
  | .rule => true
  | _ => false

inductive Misuse where
  | missing (operand : List Char)
  | unknownCommand (given : List Char)
  | ambiguous (given : List Char) (spellings : List (List Char))
  | needlessValue (switch : Switch) (value : List Char)
  | missingValue (switch : Switch)
  | unrecognized (arguments : List (List Char))
  deriving DecidableEq, Repr

def spaced : List (List Char) → List Char
  | [] => []
  | [last] => last
  | first :: next :: others => first ++ ' ' :: spaced (next :: others)

def Misuse.message : Misuse → List Char
  | .missing operand => "the following arguments are required: ".toList ++ operand
  | .unknownCommand given =>
      "argument cmd: invalid choice: ".toList ++ Quoted.encode given ++ " (choose from ".toList ++
        Listed.commas ([Command.check, .ast].map fun command => Quoted.encode command.name) ++ [')']
  | .ambiguous given spellings =>
      "ambiguous option: ".toList ++ given ++ " could match ".toList ++ Listed.commas spellings
  | .needlessValue switch value =>
      "argument ".toList ++ switch.title ++ ": ignored explicit argument ".toList ++
        Quoted.encode value
  | .missingValue switch => "argument ".toList ++ switch.title ++ ": expected one argument".toList
  | .unrecognized arguments => "unrecognized arguments: ".toList ++ spaced arguments

inductive Stop where
  | help (level : Level)
  | misuse (level : Level) (complaint : Misuse)
  deriving DecidableEq, Repr

/-! ## Kinds of argument -/

structure Attached where
  /-- An equals sign stands before it. -/
  equals : Bool
  value : List Char
  deriving DecidableEq, Repr

inductive Kind where
  | operand
  | separator
  | option (switch : Switch) (short : Bool) (attached : Option Attached)
  | unknown
  deriving DecidableEq, Repr

def isShort (spelling : List Char) : Bool := !"--".toList.isPrefixOf spelling

def kindOf (spelling : List Char) (switch : Switch) (attached : Option Attached) : Kind :=
  .option switch (isShort spelling) attached

def cutAtEquals : List Char → List Char × Option (List Char)
  | [] => ([], none)
  | char :: rest =>
      if char = '=' then ([], some rest)
      else
        let later := cutAtEquals rest
        (char :: later.1, later.2)

def Level.candidates (level : Level) (argument : List Char) : List (List Char × Kind) :=
  if isShort argument then
    level.spellings.filterMap fun (spelling, switch) =>
      if spelling = argument.take 2 then
        some (spelling, kindOf spelling switch (some ⟨false, argument.drop 2⟩))
      else if argument.isPrefixOf spelling then some (spelling, kindOf spelling switch none)
      else none
  else
    let cut := cutAtEquals argument
    level.spellings.filterMap fun (spelling, switch) =>
      if cut.1.isPrefixOf spelling then
        some (spelling, kindOf spelling switch (cut.2.map fun value => ⟨true, value⟩))
      else none

def isDigits (text : List Char) : Bool := text.all fun char => Unicode.isDecimalDigit char.toNat

/-- Digits with a minus sign before them and at most one point, which digits must follow. A line
feed at the end does not count. -/
def isNegativeNumber : List Char → Bool
  | '-' :: rest =>
      let number := if rest.getLast? = some '\n' then rest.dropLast else rest
      let whole := number.takeWhile (· != '.')
      match number.drop whole.length with
      | [] => isDigits whole && !whole.isEmpty
      | _ :: fraction => isDigits whole && isDigits fraction && !fraction.isEmpty
  | _ => false

def Level.classify (level : Level) (argument : List Char) : Except Misuse Kind :=
  match argument with
  | '-' :: _ :: _ =>
      match level.spellings.lookup argument with
      | some switch => .ok (kindOf argument switch none)
      | none =>
          let cut := cutAtEquals argument
          match cut.2, level.spellings.lookup cut.1 with
          | some value, some switch => .ok (kindOf cut.1 switch (some ⟨true, value⟩))
          | _, _ =>
              match level.candidates argument with
              | [] =>
                  if isNegativeNumber argument || argument.contains ' ' then .ok .operand
                  else .ok .unknown
              | [(_, kind)] => .ok kind
              | several => .error (.ambiguous argument (several.map Prod.fst))
  | _ => .ok .operand

def Level.classifyAll (level : Level) :
    List (List Char) → Except Misuse (List (List Char × Kind))
  | [] => .ok []
  | argument :: others =>
      if argument = "--".toList then
        .ok ((argument, .separator) :: others.map fun argument => (argument, .operand))
      else
        match level.classify argument with
        | .error misuse => .error misuse
        | .ok kind =>
            match level.classifyAll others with
            | .error misuse => .error misuse
            | .ok kinds => .ok ((argument, kind) :: kinds)

/-! ## Options without a value -/

/-- Reads the text joined to a short option as further short options: the switches in order, and
what is left when a letter is no option. -/
def Level.joined (level : Level) :
    Switch → Bool → List Char → Except Misuse (List Switch × Option (List Char))
  | switch, _, [] => .error (.needlessValue switch [])
  | switch, equals, char :: rest =>
      if equals || char = '-' then .error (.needlessValue switch (char :: rest))
      else
        match level.spellings.lookup ['-', char] with
        | none => .ok ([switch], some ('-' :: char :: rest))
        | some next =>
            match rest with
            | [] => .ok ([switch, next], none)
            | '=' :: value =>
                (level.joined next true value).map fun found => (switch :: found.1, found.2)
            | more =>
                (level.joined next false more).map fun found => (switch :: found.1, found.2)

def Level.switches (level : Level) (switch : Switch) (short : Bool) :
    Option Attached → Except Misuse (List Switch × Option (List Char))
  | none => .ok ([switch], none)
  | some attached =>
      if short then level.joined switch attached.equals attached.value
      else .error (.needlessValue switch attached.value)

/-! ## Reading -/

structure Settings where
  file : Option (List Char)
  rule : Option (List Char)
  debug : Bool
  /-- Arguments that mean nothing to the command. -/
  extras : List (List Char)
  deriving DecidableEq, Repr

def Settings.initial : Settings := ⟨none, none, false, []⟩

def Settings.withExtras (settings : Settings) (extras : List (List Char)) : Settings :=
  { settings with extras := settings.extras ++ extras }

def Settings.act (level : Level) (settings : Settings) :
    List Switch × Option (List Char) → Except Stop Settings
  | (switches, extra) =>
      if switches.contains .help then .error (.help level)
      else
        .ok
          { settings with
            debug := settings.debug || switches.contains .debug
            extras := settings.extras ++ extra.toList }

/-- Reads the arguments of a command. A separator belongs to the file next to it. -/
def Settings.read (level : Level) :
    List (List Char × Kind) → Settings → Except Stop Settings
  | [], settings => .ok settings
  | (argument, .unknown) :: others, settings =>
      Settings.read level others (settings.withExtras [argument])
  | (argument, .separator) :: others, settings =>
      match settings.file, others with
      | none, _ :: _ => Settings.read level others settings
      | _, _ => Settings.read level others (settings.withExtras [argument])
  | (argument, .operand) :: others, settings =>
      match settings.file with
      | some _ => Settings.read level others (settings.withExtras [argument])
      | none =>
          match others with
          | (_, .separator) :: others =>
              Settings.read level others { settings with file := some argument }
          | others => Settings.read level others { settings with file := some argument }
  | (_, .option switch short attached) :: others, settings =>
      if switch.takesValue then
        match attached with
        | some attached => Settings.read level others { settings with rule := some attached.value }
        | none =>
            match others with
            | (value, .operand) :: others =>
                Settings.read level others { settings with rule := some value }
            | _ => .error (.misuse level (.missingValue switch))
      else
        match level.switches switch short attached with
        | .error misuse => .error (.misuse level misuse)
        | .ok found =>
            match settings.act level found with
            | .error stop => .error stop
            | .ok settings => Settings.read level others settings

/-- A command to carry out. An empty rule name asks for all rules. -/
structure Invocation where
  command : Command
  file : List Char
  rule : List Char
  debug : Bool
  deriving DecidableEq, Repr

/-- Reads what follows the name of a command; `extras` are the arguments before it that mean
nothing to the program. -/
def Command.read (command : Command) (arguments extras : List (List Char)) :
    Except Stop Invocation :=
  let level := Level.command command
  match level.classifyAll arguments with
  | .error misuse => .error (.misuse level misuse)
  | .ok kinds =>
      match Settings.read level kinds Settings.initial with
      | .error stop => .error stop
      | .ok settings =>
          match settings.file with
          | none => .error (.misuse level (.missing "file".toList))
          | some file =>
              match extras ++ settings.extras with
              | [] => .ok ⟨command, file, settings.rule.getD [], settings.debug⟩
              | unrecognized => .error (.misuse .program (.unrecognized unrecognized))

def readKinds : List (List Char × Kind) → Settings → Except Stop Invocation
  | [], _ => .error (.misuse .program (.missing "cmd".toList))
  | (argument, .unknown) :: others, settings =>
      readKinds others (settings.withExtras [argument])
  | (argument, .separator) :: others, settings =>
      match others with
      | [] => readKinds others (settings.withExtras [argument])
      | _ :: _ => .error (.misuse .program (.unknownCommand argument))
  | (argument, .operand) :: others, settings =>
      match Command.ofName? argument with
      | none => .error (.misuse .program (.unknownCommand argument))
      | some command => command.read (others.map Prod.fst) settings.extras
  | (_, .option switch short attached) :: others, settings =>
      match Level.program.switches switch short attached with
      | .error misuse => .error (.misuse .program misuse)
      | .ok found =>
          match settings.act .program found with
          | .error stop => .error stop
          | .ok settings => readKinds others settings

def Invocation.read (arguments : List (List Char)) : Except Stop Invocation :=
  match Level.program.classifyAll arguments with
  | .error misuse => .error (.misuse .program misuse)
  | .ok kinds => readKinds kinds Settings.initial

end Rulebook.CommandLine
