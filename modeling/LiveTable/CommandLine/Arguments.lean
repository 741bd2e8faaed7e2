import LiveTable.Text.Split

/-!
# Arguments

Options and words of a command line. An option is named after two hyphens, or by a letter after one;
letters may stand together. Its value follows an equals sign, or the letter, or is the next word,
which must not begin with a hyphen then. Behind two hyphens that stand alone there are only words.
-/

namespace LiveTable.CommandLine

/-- An option that a command knows. -/
structure OptionForm where
  name : String
  letter : Option Char
  takesValue : Bool
  deriving DecidableEq

/-- An option that is given, with its value if it takes one. -/
structure Occurrence where
  name : String
  value : Option String
  deriving DecidableEq

/-- The options and the words of a command line, each in order. -/
structure Arguments where
  options : List Occurrence
  words : List String
  deriving DecidableEq

/-- A word that is no option. -/
def isWord (word : String) : Bool :=
  match word.toList with
  | '-' :: _ :: _ => false
  | _ => true

/-- Options of one argument, and the name of the last one if its value is still to come. -/
abbrev Partial := List Occurrence × Option String

/-- The options that letters stand for. -/
def lettersOf? (forms : List OptionForm) : List Char → Option Partial
  | [] => some ([], none)
  | c :: rest => do
    let form ← forms.find? (·.letter = some c)
    if form.takesValue then
      match rest with
      | [] => some ([], some form.name)
      | '=' :: value => some ([⟨form.name, some (String.ofList value)⟩], none)
      | value => some ([⟨form.name, some (String.ofList value)⟩], none)
    else
      let (more, waiting) ← lettersOf? forms rest
      some (⟨form.name, none⟩ :: more, waiting)

/-- The option of a name, which may have its value behind an equals sign. -/
def namedOption? (forms : List OptionForm) (cs : List Char) : Option Partial := do
  let (name, value) := match Text.splitOnce? '=' cs with
    | some (name, value) => (String.ofList name, some (String.ofList value))
    | none => (String.ofList cs, none)
  let form ← forms.find? (·.name = name)
  match form.takesValue, value with
  | true, none => some ([], some name)
  | false, some _ => none
  | _, value => some ([⟨name, value⟩], none)

/-- The options of an argument that is no word. -/
def optionsOf? (forms : List OptionForm) (argument : String) : Option Partial :=
  match argument.toList with
  | '-' :: '-' :: cs => namedOption? forms cs
  | _ :: cs => lettersOf? forms cs
  | [] => none

namespace Arguments

/-- Put options in front. -/
def withOptions (options : List Occurrence) (a : Arguments) : Arguments :=
  { a with options := options ++ a.options }

/-- Read a command line. If it is the one of a command inside another, the first word names that
command, and all behind it belongs to it. -/
def read? (forms : List OptionForm) (outer : Bool) : List String → Option Arguments
  | [] => some ⟨[], []⟩
  | argument :: rest =>
    if argument = "--" then if outer then none else some ⟨[], rest⟩
    else if isWord argument then
      if outer then some ⟨[], argument :: rest⟩
      else (read? forms outer rest).map fun a => { a with words := argument :: a.words }
    else
      match optionsOf? forms argument, rest with
      | none, _ => none
      | some (options, none), rest => (read? forms outer rest).map (withOptions options)
      | some (options, some name), value :: rest =>
        if isWord value then
          (read? forms outer rest).map (withOptions (options ++ [⟨name, some value⟩]))
        else none
      | some (_, some _), [] => none

/-- The values of an option, in order. -/
def values (a : Arguments) (name : String) : List String :=
  a.options.filterMap fun o => if o.name = name then o.value else none

/-- How often an option is given. -/
def count (a : Arguments) (name : String) : Nat := a.options.countP (·.name = name)

/-- The value of an option that may be given once. -/
def value? (a : Arguments) (name : String) : Option (Option String) :=
  match a.values name with
  | [] => some none
  | [value] => some (some value)
  | _ => none

end Arguments

end LiveTable.CommandLine
