import MigrationBench.CommandLine.Usage

/-!
# Words of a command line

Words are options, their values, and arguments. An option begins with a hyphen; a word `--` ends the
options.

* `OptionSpec` — an option that is known.
* `Words` — the options and the arguments of a command line.
* `Words.ofList` — the words taken apart.
-/

namespace MigrationBench

/-- An option that is known: its name, and whether it takes a value. -/
structure OptionSpec where
  name : String
  takesValue : Bool
deriving DecidableEq, Repr

/-- The options of a command line in order, with their values, and its arguments. -/
structure Words where
  options : List (String × Option String) := []
  arguments : List String := []
deriving DecidableEq, Repr

namespace Words

/-- The words with an option in front. -/
def withOption (name : String) (value : Option String) (w : Words) : Words :=
  { w with options := (name, value) :: w.options }

/-- The words with an argument in front. -/
def withArgument (argument : String) (w : Words) : Words :=
  { w with arguments := argument :: w.arguments }

/-- Whether a word is an option: a hyphen alone is none. -/
def isOption (word : String) : Bool :=
  word.toList.head? == some '-' && word != "-"

/-- The name in a word, and the value behind an equals sign. -/
def splitValue (word : String) : String × Option String :=
  let name := String.ofList (word.toList.takeWhile (· != '='))
  match word.toList.dropWhile (· != '=') with
  | '=' :: value => (name, some (String.ofList value))
  | _ => (name, none)

/-- The fault of an option that is not known. Behind one hyphen only the first letter is a name, and
there are no suggestions for it. -/
def unknown (specs : List OptionSpec) (word : String) : UsageFault :=
  if ['-', '-'].isPrefixOf word.toList then
    .unknownOption (splitValue word).1 (specs.map OptionSpec.name)
  else .unknownOption (String.ofList (word.toList.take 2)) []

/-- The words of a command line taken apart. The value of an option is what stands behind its equals
sign, or else the next word. Options may stand behind arguments if `mixed` is set. -/
def ofList (specs : List OptionSpec) (mixed : Bool) : List String → Except UsageFault Words
  | [] => .ok {}
  | word :: rest =>
    if word = "--" then .ok { arguments := rest }
    else if isOption word then
      let (name, attached) := splitValue word
      match specs.find? (·.name == name) with
      | none => .error (unknown specs word)
      | some spec =>
        if spec.takesValue then
          match attached, rest with
          | some value, rest => (ofList specs mixed rest).map (withOption name (some value))
          | none, value :: rest => (ofList specs mixed rest).map (withOption name (some value))
          | none, [] => .error (.missingValue name)
        else if attached.isSome then .error (.uselessValue name)
        else (ofList specs mixed rest).map (withOption name none)
    else if mixed then (ofList specs mixed rest).map (withArgument word)
    else .ok { arguments := word :: rest }

/-- The values of an option in order. -/
def values (w : Words) (name : String) : List String :=
  w.options.filterMap fun (n, value) => if n = name then value else none

/-- Whether an option is given. -/
def has (w : Words) (name : String) : Bool :=
  w.options.any (·.1 == name)

end Words

end MigrationBench
