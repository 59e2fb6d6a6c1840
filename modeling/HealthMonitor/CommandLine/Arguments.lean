import HealthMonitor.Text.Cut

/-!
# Arguments

What the words of a command line mean. A command has options with a value each: the value follows
in the next word, behind an equals sign, or right behind a one-letter option. `Command.ofWords`
reads the words from left to right; the first that makes no sense decides, and so does the first
that asks for help.
-/

namespace HealthMonitor

/-- The commands that have options. -/
inductive Verb where
  | run
  | init
  | validate
  deriving DecidableEq, Repr

/-- An option of a command. -/
structure Flag where
  name : String
  letter : Option Char
  /-- Whether the value may be empty. -/
  mayBeEmpty : Bool
  deriving DecidableEq, Repr

/-- What help can be asked about. -/
inductive Topic where
  | program
  | verb (verb : Verb)
  | help
  deriving DecidableEq, Repr

/-- What a command line asks for. -/
inductive Command where
  | help (topic : Topic)
  | version
  | run (config : String) (listen : Option String)
  | init (name : String)
  | validate (config : String)
  deriving DecidableEq, Repr

/-- Why a command line makes no sense. -/
inductive UsageError where
  | missingCommand
  | unknownCommand (word : String)
  | unexpected (word : String)
  | missingValue (flag : Flag)
  | repeated (flag : Flag)
  deriving DecidableEq, Repr

namespace Verb

def word : Verb → String
  | run => "run"
  | init => "init"
  | validate => "validate"

def all : List Verb := [run, init, validate]

def ofWord? (word : String) : Option Verb :=
  all.find? fun v => v.word == word

end Verb

namespace Flag

def config : Flag := ⟨"config", some 'c', false⟩

def listen : Flag := ⟨"listen", none, true⟩

def instanceName : Flag := ⟨"name", none, true⟩

/-- The options of a command. -/
def ofVerb : Verb → List Flag
  | .run => [config, listen]
  | .init => [instanceName]
  | .validate => [config]

end Flag

/-- The word that an option is written as. -/
def Flag.text (f : Flag) : String := "--" ++ f.name

def UsageError.message : UsageError → String
  | .missingCommand => "a subcommand is required but one was not provided"
  | .unknownCommand word => "unrecognized subcommand \x27" ++ word ++ "\x27"
  | .unexpected word => "unexpected argument \x27" ++ word ++ "\x27 found"
  | .missingValue flag =>
    "a value is required for \x27" ++ flag.text ++ "\x27 but none was supplied"
  | .repeated flag => "the argument \x27" ++ flag.text ++ "\x27 cannot be used multiple times"

/-- The values of options. -/
abbrev Choices := List (Flag × String)

namespace Choices

def value? (c : Choices) (f : Flag) : Option String :=
  c.lookup f

/-- Adds the value of an option that has none yet. -/
def add (c : Choices) (f : Flag) (value : String) : Except UsageError Choices :=
  if value.isEmpty && !f.mayBeEmpty then .error (.missingValue f)
  else if (c.value? f).isSome then .error (.repeated f)
  else .ok (c ++ [(f, value)])

end Choices

/-- What a word that starts with a hyphen means. -/
inductive Switch where
  | help
  /-- An option with its value. -/
  | given (flag : Flag) (value : String)
  /-- An option whose value is the next word. -/
  | wanting (flag : Flag)
  deriving DecidableEq, Repr

namespace Switch

/-- The word that asks for help. -/
def helpName : String := "help"

/-- The letter that asks for help. -/
def helpLetter : Char := 'h'

/-- The meaning of a word after its two hyphens. -/
def ofName? (flags : List Flag) (body : List Char) : Option Switch :=
  match Text.cut '=' body with
  | some (name, value) =>
    (flags.find? fun f => f.name == String.ofList name).map fun f =>
      given f (String.ofList value)
  | none =>
    if String.ofList body == helpName then some help
    else (flags.find? fun f => f.name == String.ofList body).map wanting

/-- The meaning of a word after its only hyphen: a letter and what follows it. -/
def ofLetter? (flags : List Flag) (letter : Char) (rest : List Char) : Option Switch :=
  if letter = helpLetter then some help
  else
    (flags.find? fun f => f.letter == some letter).map fun f =>
      match rest with
      | [] => wanting f
      | '=' :: value => given f (String.ofList value)
      | value => given f (String.ofList value)

end Switch

namespace Command

/-- Whether a word can be the value of the option before it. -/
def isValue (word : String) : Bool :=
  word == "-" || word.toList.head? != some '-'

/-- The options among the words of a command; nothing when they ask for help. -/
def choices (flags : List Flag) : Choices → List String → Except UsageError (Option Choices)
  | c, [] => .ok (some c)
  | c, word :: rest =>
    let switch := match word.toList with
      | '-' :: '-' :: body => Switch.ofName? flags body
      | '-' :: letter :: body => Switch.ofLetter? flags letter body
      | _ => none
    match switch, rest with
    | some .help, _ => .ok none
    | some (.given f value), rest =>
      match c.add f value with
      | .ok c => choices flags c rest
      | .error e => .error e
    | some (.wanting f), value :: rest =>
      if isValue value then
        match c.add f value with
        | .ok c => choices flags c rest
        | .error e => .error e
      else .error (.missingValue f)
    | some (.wanting f), [] => .error (.missingValue f)
    | none, rest => if word == "--" && rest.isEmpty then .ok (some c) else .error (.unexpected word)

/-- The configuration file when none is named. -/
def usualConfig : String := "depwatch.toml"

/-- The name in a first configuration when none is given. -/
def usualName : String := "my-service"

/-- The command of a verb with options. -/
def ofChoices (c : Choices) : Verb → Command
  | .run => run ((c.value? Flag.config).getD usualConfig) (c.value? Flag.listen)
  | .init => init ((c.value? Flag.instanceName).getD usualName)
  | .validate => validate ((c.value? Flag.config).getD usualConfig)

/-- The command of a verb and the words after it. -/
def ofVerb (v : Verb) (words : List String) : Except UsageError Command :=
  (choices (Flag.ofVerb v) [] words).map fun
    | some c => ofChoices c v
    | none => help (.verb v)

/-- The topic that the words after a request for help name. -/
def topic (words : List String) : Except UsageError Topic :=
  match words with
  | [] => .ok .program
  | word :: rest =>
    match rest with
    | extra :: _ => .error (.unknownCommand extra)
    | [] =>
      if word == Switch.helpName then .ok .help
      else
        match Verb.ofWord? word with
        | some v => .ok (.verb v)
        | none => .error (.unknownCommand word)

/-- Reads a command line without the name of the program. -/
def ofWords (words : List String) : Except UsageError Command :=
  match words with
  | [] => .error .missingCommand
  | word :: rest =>
    match word.toList with
    | ['-', '-'] => .error .missingCommand
    | '-' :: '-' :: body =>
      if String.ofList body == "version" then .ok version
      else if String.ofList body == Switch.helpName then .ok (help .program)
      else .error (.unexpected word)
    | '-' :: letter :: _ =>
      if letter = 'V' then .ok version
      else if letter = Switch.helpLetter then .ok (help .program)
      else .error (.unexpected word)
    | _ =>
      if word == Switch.helpName then (topic rest).map help
      else
        match Verb.ofWord? word with
        | some v => ofVerb v rest
        | none => .error (.unknownCommand word)

/-- The configuration file that a command reads. -/
def configPath? : Command → Option String
  | run config _ => some config
  | validate config => some config
  | _ => none

end Command

end HealthMonitor
