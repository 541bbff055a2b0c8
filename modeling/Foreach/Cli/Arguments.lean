/-!
Taking the arguments of a command apart.

Options may stand among the other words. A long option is `--name`, with its value behind `=` or in the
next argument; short ones are single letters that may stand together behind one dash, the value of the
last one being the rest of the argument or the next argument. A value is taken whatever it looks like.
Behind `--` there are only words. Of an option that is given twice the later one counts.
-/

namespace Foreach.Cli

/-- An option of a command: its spellings, and whether it takes a value. -/
structure Form where
  name : String
  letter : Option Char
  valued : Bool
  deriving DecidableEq, Repr

/-- The options that a command takes, and whether it leaves others among its words. -/
structure Forms where
  forms : List Form
  lenient : Bool

/-- Arguments taken apart: the options with their values, the latest first, and the words. -/
structure Arguments where
  given : List (String × String)
  words : List String
  deriving DecidableEq, Repr

namespace Arguments

def empty : Arguments := ⟨[], []⟩

/-- The value of an option. -/
def value? (a : Arguments) (name : String) : Option String := a.given.lookup name

/-- Whether an option is given. -/
def isGiven (a : Arguments) (name : String) : Bool := (a.value? name).isSome

/-- The arguments with one more option. -/
def give (a : Arguments) (name value : String) : Arguments :=
  { a with given := (name, value) :: a.given }

/-- The arguments with more words. -/
def say (a : Arguments) (words : List String) : Arguments := { a with words := a.words ++ words }

end Arguments

namespace Forms

/-- The option of a long spelling. -/
def long? (fs : Forms) (name : List Char) : Option Form :=
  fs.forms.find? fun f => f.name.toList = name

/-- The option of a letter. -/
def short? (fs : Forms) (letter : Char) : Option Form :=
  fs.forms.find? fun f => f.letter = some letter

/-- What an argument means for those behind it: nothing, or that the next one is a value. -/
inductive Step where
  | done (a : Arguments)
  | awaits (a : Arguments) (name : String) (words : List String)

/-- The letters behind one dash, `unknown` being those so far that are no options. -/
def cluster (fs : Forms) (a : Arguments) (unknown : List Char) : List Char → Option Step
  | [] => some (.done (a.say (unknownWord unknown)))
  | c :: rest =>
    match fs.short? c with
    | none => if fs.lenient then cluster fs a (unknown ++ [c]) rest else none
    | some f =>
      if !f.valued then cluster fs (a.give f.name "") unknown rest
      else if rest = [] then some (.awaits a f.name (unknownWord unknown))
      else some (.done ((a.give f.name (String.ofList rest)).say (unknownWord unknown)))
where
  /-- The word that is left of letters that are no options. -/
  unknownWord (letters : List Char) : List String :=
    if letters = [] then [] else [String.ofList ('-' :: letters)]

/-- A long option, with the value behind `=` if there is one. -/
def longOption (fs : Forms) (a : Arguments) (token : String) (name : List Char)
    (inline : Option String) : Option Step :=
  match fs.long? name with
  | none => if fs.lenient then some (.done (a.say [token])) else none
  | some f =>
    match f.valued, inline with
    | true, some v => some (.done (a.give f.name v))
    | true, none => some (.awaits a f.name [])
    | false, none => some (.done (a.give f.name ""))
    | false, some _ => none

/-- One argument in front of `--`. -/
def step (fs : Forms) (a : Arguments) (token : String) : Option Step :=
  match token.toList with
  | '-' :: '-' :: body =>
    match body.dropWhile (· != '=') with
    | [] => fs.longOption a token body none
    | _ :: v => fs.longOption a token (body.takeWhile (· != '=')) (some (String.ofList v))
  | '-' :: c :: rest => fs.cluster a [] (c :: rest)
  | _ => some (.done (a.say [token]))

/-- Takes arguments apart, from what there is so far; none if an option is unknown, lacks its value or
has one that it does not take. -/
def parseFrom (fs : Forms) : Arguments → List String → Option Arguments
  | a, [] => some a
  | a, token :: rest =>
    if token = "--" then some (a.say rest)
    else
      match fs.step a token with
      | none => none
      | some (.done a) => parseFrom fs a rest
      | some (.awaits a name words) =>
        match rest with
        | [] => none
        | v :: rest => parseFrom fs ((a.give name v).say words) rest

def parse (fs : Forms) (args : List String) : Option Arguments := fs.parseFrom .empty args

end Forms
end Foreach.Cli
