import SoundScenes.Command.Families
import SoundScenes.Command.Generate
import SoundScenes.Command.Validate
import SoundScenes.Decimal.Reading

/-!
# Arguments

A command line is a command with options before and behind it. An option has a long name, perhaps a
letter, and perhaps a value: `--name value`, `--name=value`, `-n value`, `-nvalue`. Letters without
value may stand together. Nothing else may stand behind a command.

* `Word.scan` — the options of a command line, in order;
* `Grammar.read` — what they make of a request;
* `Request.ofArguments` — the request of a whole command line.
-/

namespace SoundScenes

/-- Why a command line asks for no work. -/
inductive Stop where
  | usage
  | help
  | version
  deriving DecidableEq, Repr

/-- An option as it stands in a command line. -/
inductive Word where
  | given (name value : String)
  | switch (name : String)
  /-- Something that belongs nowhere. -/
  | stray
  deriving DecidableEq, Repr

/-- What an option does to a request under construction. -/
inductive Effect (α : Type) where
  | stop (why : Stop)
  /-- An option without value that may be repeated. -/
  | repeated (change : α → α)
  | switch (change : α → α)
  | valued (change : String → Option (α → α))

/-- An option of a command. -/
structure OptionRule (α : Type) where
  long : String
  letter : Option Char
  effect : Effect α

/-- Whether an option has a value. -/
def OptionRule.takesValue {α : Type} (o : OptionRule α) : Bool :=
  match o.effect with
  | .valued _ => true
  | _ => false

/-- The options of a command. -/
abbrev Grammar (α : Type) := List (OptionRule α)

namespace Word

variable {α : Type}

/-- Whether an argument can be the value of an option before it. -/
def isValue (arg : String) : Bool := arg.toList.head? ≠ some '-' ∨ arg = "-"

/-- The option that letters behind each other spell, and the option at their end that still lacks
its value. -/
def ofLetters (g : Grammar α) : List Char → List Word × Option String
  | [] => ([], none)
  | c :: cs =>
    match g.find? fun o => o.letter = some c with
    | none => ([stray], none)
    | some o =>
      if o.takesValue then
        match cs with
        | [] => ([], some o.long)
        | '=' :: value => ([given o.long (String.ofList value)], none)
        | value => ([given o.long (String.ofList value)], none)
      else
        let (words, open?) := ofLetters g cs
        (switch o.long :: words, open?)

/-- The option that a long name spells, and the option that still lacks its value. -/
def ofLong (g : Grammar α) (text : List Char) : List Word × Option String :=
  let name := String.ofList (text.takeWhile (· ≠ '='))
  let attached := (text.dropWhile (· ≠ '=')).tail?.map String.ofList
  match g.find? fun o => o.long = name with
  | none => ([stray], none)
  | some o =>
    match o.takesValue, attached with
    | true, some value => ([given name value], none)
    | true, none => ([], some name)
    | false, some _ => ([stray], none)
    | false, none => ([switch name], none)

/-- The options that an argument spells, and the one that still lacks its value. -/
def ofArgument (g : Grammar α) (arg : String) : List Word × Option String :=
  match arg.toList with
  | '-' :: '-' :: text => ofLong g text
  | '-' :: c :: cs => ofLetters g (c :: cs)
  | _ => ([stray], none)

/-- The options of a command line. Nothing may follow two dashes by themselves. -/
def scan (g : Grammar α) : List String → List Word
  | [] => []
  | "--" :: rest => if rest.isEmpty then [] else [stray]
  | arg :: rest =>
    match ofArgument g arg with
    | (words, none) => words ++ scan g rest
    | (words, some name) =>
      match rest with
      | [] => words ++ [stray]
      | value :: rest =>
        words ++ if isValue value then given name value :: scan g rest else [stray]

end Word

namespace Grammar

variable {α : Type}

/-- What the option with a name does. -/
def effect? (g : Grammar α) (name : String) : Option (Effect α) :=
  (g.find? fun o => o.long = name).map fun o => o.effect

/-- What options make of a request. Options that may not be repeated are given at most once. -/
def read (g : Grammar α) : List Word → List String → α → Except Stop α
  | [], _, a => .ok a
  | .stray :: _, _, _ => .error .usage
  | .given name value :: ws, seen, a =>
    match effect? g name with
    | some (.valued change) =>
      match change value with
      | some change =>
        if name ∈ seen then .error .usage else read g ws (name :: seen) (change a)
      | none => .error .usage
    | _ => .error .usage
  | .switch name :: ws, seen, a =>
    match effect? g name with
    | some (.stop why) => .error why
    | some (.repeated change) => read g ws seen (change a)
    | some (.switch change) =>
      if name ∈ seen then .error .usage else read g ws (name :: seen) (change a)
    | _ => .error .usage

/-- The options that every command has. -/
def always : Grammar α := [
  ⟨"verbose", some 'v', .repeated id⟩,
  ⟨"help", some 'h', .stop .help⟩,
  ⟨"version", some 'V', .stop .version⟩]

end Grammar

/-! ## Values -/

namespace Argument

/-- A natural number up to a limit, perhaps with a plus sign. -/
def natural (limit : Nat) (text : String) : Option Nat :=
  let digits := match text.toList with
    | '+' :: ds => ds
    | ds => ds
  if digits ≠ [] ∧ digits.all Char.isDigit ∧ Decimal.ofDigits digits ≤ limit then
    some (Decimal.ofDigits digits)
  else none

/-- A seed: a natural number of 32 bits. Zero may have a minus sign. -/
def seed (text : String) : Option Nat :=
  match text.toList with
  | '-' :: ds => if ds ≠ [] ∧ ds.all (· = '0') then some 0 else none
  | _ => natural (UInt32.size - 1) text

/-- A path, which is not empty. -/
def path (text : String) : Option String := if text = "" then none else some text

end Argument

/-! ## Requests -/

/-- What a command line may say. -/
structure Arguments where
  catalog : Option String
  config : Option String
  root : Option String
  settings : List Setting
  strict : Bool
  json : Bool

namespace Arguments

/-- A command line that says nothing. -/
def blank : Arguments := ⟨none, none, none, [], false, false⟩

/-- One more setting. -/
def add (a : Arguments) (s : Setting) : Arguments := { a with settings := a.settings ++ [s] }

/-- An option whose value is a setting. -/
def setting {β : Type} (long : String) (read : String → Option β) (put : β → Setting) :
    OptionRule Arguments :=
  ⟨long, none, .valued fun text => (read text).map fun v a => a.add (put v)⟩

/-- The options that change the configuration. -/
def settingRules : Grammar Arguments :=
  let count := Argument.natural countLimit
  [ setting "scene-length" count .sceneLength,
    setting "tree-width" count .treeWidth,
    setting "min-families" count .minFamilies,
    setting "min-objects-per-family" count .quota,
    setting "min-families-meeting-quota" count .minQuotaFamilies,
    setting "training-ratio" Decimal.ofText? .trainingRatio,
    setting "seed" Argument.seed .seed,
    setting "max-scenes" count .maxScenes,
    setting "step-budget" count .stepBudget,
    setting "time-budget-ms" count .timeBudget,
    ⟨"no-shuffle", none, .switch fun a => a.add (.shuffle false)⟩,
    setting "prefix" some .stem,
    setting "dataset-version" some .version ]

/-- The option that names the catalog, and the one that asks for a document. -/
def catalogRules : Grammar Arguments := [
  ⟨"catalog", some 'c', .valued fun text =>
    (Argument.path text).map fun p a => { a with catalog := some p }⟩,
  ⟨"json", none, .switch fun a => { a with json := true }⟩]

/-- The option that names a file with the configuration. -/
def configRules : Grammar Arguments := [
  ⟨"config", none, .valued fun text =>
    (Argument.path text).map fun p a => { a with config := some p }⟩]

/-- The options of the command that generates besides those. -/
def outputRules : Grammar Arguments := [
  ⟨"out-root", some 'o', .valued fun text =>
    (Argument.path text).map fun p a => { a with root := some p }⟩,
  ⟨"strict-budget", none, .switch fun a => { a with strict := true }⟩]

/-- The layers of the configuration. -/
def layers (a : Arguments) : Layers := ⟨a.config, a.settings⟩

end Arguments

/-- The work that a command line asks for. -/
inductive Task where
  | generate (c : GenerateCommand)
  | validate (c : ValidateCommand)
  | families (catalog : String)

/-- A command: its name, its options, and its work on a catalog. -/
structure CommandRule where
  name : String
  grammar : Grammar Arguments
  task : Arguments → String → Task

namespace CommandRule

open Arguments

/-- All commands. -/
def all : List CommandRule := [
  { name := "generate"
    grammar := Grammar.always ++ catalogRules ++ configRules ++ outputRules ++ settingRules
    task := fun a catalog => .generate ⟨catalog, a.layers, a.root.getD ".", a.strict⟩ },
  { name := "validate"
    grammar := Grammar.always ++ catalogRules ++ configRules ++ settingRules
    task := fun a catalog => .validate ⟨catalog, a.layers⟩ },
  { name := "catalog"
    grammar := Grammar.always ++ catalogRules
    task := fun _ catalog => .families catalog }]

end CommandRule

/-- What a command line asks for. -/
inductive Request where
  | run (task : Task) (json : Bool)
  | version (program : String)
  | help
  | usage

namespace Request

/-- The name of the program. -/
def program : String := "aqa"

/-- A command line that asks for no work. -/
def ofStop (program : String) : Stop → Request
  | .usage => usage
  | .help => help
  | .version => version program

/-- The request of what stands behind a command. -/
def ofCommand (c : CommandRule) (args : List String) : Request :=
  match c.grammar.read (Word.scan c.grammar args) [] .blank with
  | .error why => ofStop (program ++ "-" ++ c.name) why
  | .ok a =>
    match a.catalog with
    | some catalog => run (c.task a catalog) a.json
    | none => usage

/-- The request of what stands behind `help`: the name of at most one command. -/
def ofHelp : List String → Request
  | [] => help
  | [name] => if name = "help" ∨ CommandRule.all.any (·.name = name) then help else usage
  | _ => usage

/-- The request of a command line. -/
def ofArguments : List String → Request
  | [] => usage
  | arg :: rest =>
    if arg = "help" then ofHelp rest
    else match CommandRule.all.find? fun c => c.name = arg with
    | some c => ofCommand c rest
    | none =>
      match (Grammar.always : Grammar Unit).read (Word.scan (Grammar.always : Grammar Unit) [arg])
        [] () with
      | .error why => ofStop program why
      | .ok () => if arg = "--" then usage else ofArguments rest

end Request

end SoundScenes
