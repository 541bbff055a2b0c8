import Foreach.Shell.Utility.Basic

/-!
Options of programs: letters behind a dash, some of them with values, and names behind two.

Options may stand behind other words, up to a pair of dashes.
-/

namespace Foreach.Shell.Utility

/-- The options of a program: the letters, each with whether it takes a value, and names for some. -/
structure Accepted where
  letters : List (Char × Bool)
  names : List (String × Char)

/-- The letters of a text, a colon standing behind those that take a value. -/
def lettersOf : List Char → List (Char × Bool)
  | [] => []
  | c :: ':' :: cs => (c, true) :: lettersOf cs
  | c :: cs => (c, false) :: lettersOf cs

def accepting (letters : String) (names : List (String × Char)) : Accepted :=
  ⟨lettersOf letters.toList, names⟩

/-- The options that are given, in their order, and the other words. -/
structure Given where
  options : List (Char × List Char)
  words : Arguments

namespace Given

def has (g : Given) (c : Char) : Bool := g.options.any (·.1 = c)

def hasAny (g : Given) (letters : String) : Bool := letters.toList.any g.has

/-- The value of an option; the last one counts. -/
def value? (g : Given) (c : Char) : Option (List Char) := g.options.reverse.lookup c

/-- All values of an option. -/
def values (g : Given) (c : Char) : Arguments := (g.options.filter (·.1 = c)).map (·.2)

def withOptions (options : List (Char × List Char)) (g : Given) : Given :=
  { g with options := options ++ g.options }

def withWord (word : List Char) (g : Given) : Given := { g with words := word :: g.words }

end Given

/-- What is wrong with options. -/
inductive OptionFlaw where
  | unknown (letter : Char)
  | unknownName (name : List Char)
  | noValue (letter : Char)
  | noNamedValue (name : List Char)
  | needlessValue (name : List Char)

def OptionFlaw.message : OptionFlaw → List Char
  | .unknown letter => octetsOf "invalid option -- '" ++ [letter, '\'']
  | .unknownName name => octetsOf "unrecognized option '--" ++ name ++ ['\'']
  | .noValue letter => octetsOf "option requires an argument -- '" ++ [letter, '\'']
  | .noNamedValue name => octetsOf "option '--" ++ name ++ octetsOf "' requires an argument"
  | .needlessValue name => octetsOf "option '--" ++ name ++ octetsOf "' doesn't allow an argument"

/-- The options in a word of letters; the last one may still wait for its value. -/
def readLetters (a : Accepted) : List Char → Except OptionFlaw (List (Char × List Char) × Option Char)
  | [] => .ok ([], none)
  | c :: cs =>
    match a.letters.lookup c with
    | none => .error (.unknown c)
    | some false => (readLetters a cs).map fun (os, waiting) => ((c, []) :: os, waiting)
    | some true => .ok (if cs.isEmpty then ([], some c) else ([(c, cs)], none))

/-- The option that a name stands for, which may be cut short. -/
def named? (a : Accepted) (name : List Char) : Option (String × Char) :=
  match a.names.find? fun (n, _) => octetsOf n = name with
  | some found => some found
  | none =>
    match a.names.filter fun (n, _) => name.isPrefixOf (octetsOf n) with
    | [found] => some found
    | _ => none

/-- The option that a name with perhaps a value behind it gives. -/
def readName (a : Accepted) (cs : List Char) :
    Except OptionFlaw (List (Char × List Char) × Option Char) :=
  let name := cs.takeWhile (· != '=')
  match named? a name with
  | none => .error (.unknownName cs)
  | some (full, c) =>
    let takes := (a.letters.lookup c).getD false
    match cs.drop name.length with
    | _ :: value => if takes then .ok ([(c, value)], none) else .error (.needlessValue (octetsOf full))
    | [] => .ok (if takes then ([], some c) else ([(c, [])], none))

/-- The options and words among some arguments; `waiting` is an option whose value comes first. With
`strict`, the first other word ends the options. -/
def readOptions (a : Accepted) (strict : Bool) : Option Char → Arguments → Except OptionFlaw Given
  | none, [] => .ok ⟨[], []⟩
  | some c, [] => .error (.noValue c)
  | some c, value :: rest => (readOptions a strict none rest).map (·.withOptions [(c, value)])
  | none, word :: rest =>
    match word with
    | ['-', '-'] => .ok ⟨[], rest⟩
    | '-' :: '-' :: cs => do
      let (os, waiting) ← readName a cs
      return (← readOptions a strict waiting rest).withOptions os
    | '-' :: c :: cs => do
      let (os, waiting) ← readLetters a (c :: cs)
      return (← readOptions a strict waiting rest).withOptions os
    | word =>
      if strict then .ok ⟨[], word :: rest⟩
      else (readOptions a strict none rest).map (·.withWord word)

/-- A program with options; `status` is that of its misuse. -/
def withGiven (who : String) (status : Nat) (a : Accepted) (run : Given → Machine → Machine) : Utility :=
  fun args m =>
    match readOptions a false none args with
    | .ok g => run g m
    | .error flaw => misused who status flaw.message m

end Foreach.Shell.Utility
