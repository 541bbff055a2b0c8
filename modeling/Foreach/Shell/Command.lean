import Foreach.Shell.Token

/-!
Shell commands as trees.

The text of a command is read line by line: `Command.readLine` gives the command of the first line, so
that it can run before a later line is found to be wrong.
-/

namespace Foreach.Shell

/-- A redirection of a stream to what a word names, or of the input to a text. -/
inductive Redirect where
  | route (stream : Option Nat) (direction : Direction) (target : Word)
  | document (stream : Option Nat) (text : Word)

/-- A command. Those that complain of themselves know their line. -/
inductive Command where
  | nothing
  | simple (line : Nat) (words : List Word) (redirects : List Redirect)
  | sequence (first second : Command)
  | andThen (first second : Command)
  | orElse (first second : Command)
  | invert (c : Command)
  | pipe (first second : Command)
  /-- A command that nobody waits for. -/
  | background (c : Command)
  /-- A group, on its own (`apart`) or in the same shell. -/
  | group (line : Nat) (apart : Bool) (c : Command) (redirects : List Redirect)
  | choose (condition yes no : Command)
  /-- Repeats while the condition succeeds or, with `inverted`, until it does. -/
  | loop (inverted : Bool) (condition body : Command)
  /-- Repeats for each field of some words; without words, for each argument of the shell. -/
  | each (line : Nat) (name : List Char) (words : Option (List Word)) (body : Command)
  /-- The arms are tried with the text of the word. -/
  | select (line : Nat) (subject : Word) (arms : Command)
  /-- An arm for texts that fit one of the patterns, and the arms behind it. -/
  | arm (patterns : List Word) (body next : Command)
  /-- A function and its body. -/
  | function (name : List Char) (body : Command)

/-- The word of a redirection. -/
def Redirect.word : Redirect → Word
  | .route _ _ w | .document _ w => w

/-- What is wrong with a text, and in which line; without one it is the last. -/
structure Mistake where
  flaw : Flaw
  line : Option Nat

/-- What is wrong with the text of a command inside a word, which begins in a line of the whole if it
stands in parentheses. -/
def Mistake.inOutput (line : Option Nat) (text : List Char) (m : Mistake) : Mistake where
  flaw := match m.flaw, line with
    | .unexpected "end of file" expected, some _ => .unexpected "\")\"" expected
    | flaw, _ => flaw
  line := m.line <|> some (Token.lastLine (line.getD 1) text)

namespace Command

/-- The words that a command of its own kind begins or ends with. -/
def reserved : List String :=
  ["!", "case", "do", "done", "elif", "else", "esac", "fi", "for", "if", "in", "then", "until",
    "while", "\x7b", "\x7d"]

/-- The reserved word that a token is. -/
def reserved? (t : Token) : Option String :=
  match t.sign with
  | .word w => ((Word.plain? w).map String.ofList).filter reserved.contains
  | _ => none

def isKeyword (word : String) (t : Token) : Bool := reserved? t == some word

def inQuotes (text : String) : String := "\"" ++ text ++ "\""

/-- How a token is called. -/
def nameOf (t : Token) : String :=
  match t.sign with
  | .operator "\n" => "newline"
  | .operator text => inQuotes text
  | .redirect _ _ | .document _ _ => "redirection"
  | .word _ => ((reserved? t).map inQuotes).getD "word"
  | .flaw _ => ""

/-- What is wrong with tokens that stand where they must not. -/
def unexpected (expected : Option String) : List Token → Mistake
  | [] => ⟨.unexpected "end of file" expected, none⟩
  | ⟨line, .flaw f⟩ :: _ => ⟨f, some line⟩
  | t :: _ => ⟨.unexpected (nameOf t) expected, some t.line⟩

/-- The rest after an operator. -/
def expectOperator (text : String) (ts : List Token) : Except Mistake (List Token) :=
  let flaw := unexpected (some (inQuotes text)) ts
  match ts with
  | ⟨_, .operator found⟩ :: rest => if found = text then .ok rest else .error flaw
  | _ => .error flaw

/-- The rest after a reserved word. -/
def expectWord (word : String) (ts : List Token) : Except Mistake (List Token) :=
  let flaw := unexpected (some (inQuotes word)) ts
  match ts with
  | t :: rest => if isKeyword word t then .ok rest else .error flaw
  | [] => .error flaw

def dropLines : List Token → List Token
  | ⟨_, .operator "\n"⟩ :: rest => dropLines rest
  | ts => ts

/-- Redirections in front of the rest. -/
def takeRedirects : List Token → Except Mistake (List Redirect × List Token)
  | ⟨_, .redirect stream direction⟩ :: ⟨_, .word target⟩ :: rest =>
    (takeRedirects rest).map fun (rs, r) => (.route stream direction target :: rs, r)
  | ⟨_, .redirect _ _⟩ :: rest => .error (unexpected none rest)
  | ⟨_, .document stream w⟩ :: rest =>
    (takeRedirects rest).map fun (rs, r) => (.document stream w :: rs, r)
  | rest => .ok ([], rest)

/-- Redirections and words up to an operator. -/
def takeSimple : List Token → Except Mistake (List Word × List Redirect × List Token)
  | ⟨_, .word w⟩ :: rest => (takeSimple rest).map fun (ws, rs, r) => (w :: ws, rs, r)
  | ⟨_, .redirect stream direction⟩ :: ⟨_, .word target⟩ :: rest =>
    (takeSimple rest).map fun (ws, rs, r) => (ws, .route stream direction target :: rs, r)
  | ⟨_, .redirect _ _⟩ :: rest => .error (unexpected none rest)
  | ⟨_, .document stream w⟩ :: rest =>
    (takeSimple rest).map fun (ws, rs, r) => (ws, .document stream w :: rs, r)
  | rest => .ok ([], [], rest)

/-- The words of a list that ends with its line. -/
def takeWords : List Token → Except Mistake (List Word × List Token)
  | ⟨_, .word w⟩ :: rest => (takeWords rest).map fun (ws, r) => (w :: ws, r)
  | ⟨_, .operator ";"⟩ :: rest => .ok ([], rest)
  | ⟨_, .operator "\n"⟩ :: rest => .ok ([], rest)
  | ts => .error (unexpected none ts)

/-- The patterns of an arm, up to the parenthesis behind them. -/
def takePatterns : List Token → Except Mistake (List Word × List Token)
  | ⟨_, .word w⟩ :: ⟨_, .operator "|"⟩ :: rest => (takePatterns rest).map fun (ws, r) => (w :: ws, r)
  | ⟨_, .word w⟩ :: rest => (expectOperator ")" rest).map fun rest => ([w], rest)
  | ts => .error (unexpected (some (inQuotes ")")) ts)

/-- Whether a list of commands ends here. -/
def endsList : List Token → Bool
  | [] => true
  | ⟨_, .operator text⟩ :: _ => text = ")" || text = ";;"
  | t :: _ =>
    ((reserved? t).map ["then", "elif", "else", "fi", "do", "done", "esac", "\x7d"].contains).getD false

/-- The commands that are more a part of the shell than others: no function has the name of one. -/
def special : List String :=
  [".", ":", "break", "continue", "eval", "exec", "exit", "export", "local", "readonly", "return", "set",
    "shift", "times", "trap", "unset"]

/-- The name of a function that begins here, and what follows its parentheses; or none begins here. -/
def takeFunctionName : List Token → Except Mistake (Option (List Char × List Token))
  | ⟨_, .word w⟩ :: ⟨_, .operator "("⟩ :: rest => do
    let behind ← expectOperator ")" rest
    match (Word.plain? w).filter isName with
    | some name =>
      if special.contains (String.ofList name) then
        .error ⟨.badFunctionName, rest.head?.map Token.line⟩
      return some (name, dropLines behind)
    | none => .error ⟨.badFunctionName, rest.head?.map Token.line⟩
  | _ => .ok none

mutual

/-- A list of commands up to a word or operator that ends it; `fuel` bounds what is read. Where there is no
text at all, it is for the reader of the whole to say what is missing. -/
def readList : Nat → List Token → Except Mistake (Command × List Token)
  | 0, ts => .error (unexpected none ts)
  | fuel + 1, ts =>
    match dropLines ts with
    | [] => .ok (.nothing, [])
    | ts => do
      let (c, rest) ← readChain fuel ts
      readMore fuel c rest

/-- What follows a command in a list. -/
def readMore : Nat → Command → List Token → Except Mistake (Command × List Token)
  | 0, _, ts => .error (unexpected none ts)
  | fuel + 1, c, ts =>
    let goOn (c : Command) (rest : List Token) : Except Mistake (Command × List Token) := do
      let rest := dropLines rest
      if endsList rest then return (c, rest)
      let (d, rest) ← readList fuel rest
      return (.sequence c d, rest)
    match ts with
    | ⟨_, .operator ";"⟩ :: rest => goOn c rest
    | ⟨_, .operator "\n"⟩ :: rest => goOn c rest
    | ⟨_, .operator "&"⟩ :: rest => goOn (.background c) rest
    | ts => if endsList ts then .ok (c, ts) else .error (unexpected none ts)

/-- A list of commands that may be empty. -/
def readArm : Nat → List Token → Except Mistake (Command × List Token)
  | 0, ts => .error (unexpected none ts)
  | fuel + 1, ts => if endsList (dropLines ts) then .ok (.nothing, dropLines ts) else readList fuel ts

/-- Pipelines with `&&` and `||` between them. -/
def readChain : Nat → List Token → Except Mistake (Command × List Token)
  | 0, ts => .error (unexpected none ts)
  | fuel + 1, ts => do
    let (c, rest) ← readPipeline fuel ts
    readLinks fuel c rest

def readLinks : Nat → Command → List Token → Except Mistake (Command × List Token)
  | 0, _, ts => .error (unexpected none ts)
  | fuel + 1, c, ts =>
    match ts with
    | ⟨_, .operator "&&"⟩ :: rest => do
      let (d, rest) ← readPipeline fuel (dropLines rest)
      readLinks fuel (.andThen c d) rest
    | ⟨_, .operator "||"⟩ :: rest => do
      let (d, rest) ← readPipeline fuel (dropLines rest)
      readLinks fuel (.orElse c d) rest
    | ts => .ok (c, ts)

def readPipeline : Nat → List Token → Except Mistake (Command × List Token)
  | 0, ts => .error (unexpected none ts)
  | fuel + 1, ts =>
    match ts with
    | [] => .error (unexpected none [])
    | t :: rest => do
      let inverted := isKeyword "!" t
      let (c, rest) ← readSingle fuel (if inverted then rest else t :: rest)
      let (c, rest) ← readPipes fuel c rest
      return (if inverted then .invert c else c, rest)

def readPipes : Nat → Command → List Token → Except Mistake (Command × List Token)
  | 0, _, ts => .error (unexpected none ts)
  | fuel + 1, c, ts =>
    match ts with
    | ⟨_, .operator "|"⟩ :: rest => do
      let (d, rest) ← readSingle fuel (dropLines rest)
      readPipes fuel (.pipe c d) rest
    | ts => .ok (c, ts)

/-- A command of its own. -/
def readSingle : Nat → List Token → Except Mistake (Command × List Token)
  | 0, ts => .error (unexpected none ts)
  | fuel + 1, ts =>
    let line := (ts.head?.map Token.line).getD 0
    match ts with
    | ⟨_, .operator "("⟩ :: rest => do
      let (c, rest) ← readList fuel rest
      let (rs, rest) ← takeRedirects (← expectOperator ")" rest)
      return (.group line true c rs, rest)
    | t :: rest =>
      match reserved? t with
      | none => do
        match ← takeFunctionName ts with
        | some (name, rest) =>
          let (body, rest) ← readSingle fuel rest
          return (.function name body, rest)
        | none =>
          let (ws, rs, after) ← takeSimple ts
          if ws.isEmpty && rs.isEmpty then .error (unexpected none ts)
          return (.simple line ws rs, after)
      | some word => do
        let (c, rest) ← readReserved fuel line word ts rest
        let (rs, rest) ← takeRedirects rest
        return (if rs.isEmpty then c else .group line false c rs, rest)
    | [] => .error (unexpected none [])

/-- A command that begins with a reserved word, in a line; `ts` are the tokens with that word. -/
def readReserved :
    Nat → Nat → String → List Token → List Token → Except Mistake (Command × List Token)
  | 0, _, _, ts, _ => .error (unexpected none ts)
  | fuel + 1, line, word, ts, rest =>
    match word with
    | "\x7b" => do
      let (c, rest) ← readList fuel rest
      return (c, ← expectWord "\x7d" rest)
    | "if" => readIf fuel rest
    | "while" => readLoop fuel false rest
    | "until" => readLoop fuel true rest
    | "for" => readFor fuel line rest
    | "case" =>
      match rest with
      | ⟨_, .word subject⟩ :: rest => do
        let (arms, rest) ← readArms fuel (dropLines (← expectWord "in" (dropLines rest)))
        return (.select line subject arms, rest)
      | rest => .error (unexpected (some "word") rest)
    | _ => .error (unexpected none ts)

def readIf : Nat → List Token → Except Mistake (Command × List Token)
  | 0, ts => .error (unexpected none ts)
  | fuel + 1, ts => do
    let (condition, rest) ← readCondition fuel "then" ts
    let (yes, rest) ← readList fuel rest
    match rest with
    | [] => .error (unexpected (some (inQuotes "fi")) [])
    | t :: rest =>
      if isKeyword "elif" t then
        let (no, rest) ← readIf fuel rest
        return (.choose condition yes no, rest)
      else if isKeyword "else" t then
        let (no, rest) ← readList fuel rest
        return (.choose condition yes no, ← expectWord "fi" rest)
      else return (.choose condition yes .nothing, ← expectWord "fi" (t :: rest))

/-- A condition and the word behind it. -/
def readCondition : Nat → String → List Token → Except Mistake (Command × List Token)
  | 0, _, ts => .error (unexpected none ts)
  | fuel + 1, word, ts => do
    let (condition, rest) ← readList fuel ts
    return (condition, ← expectWord word rest)

/-- What a loop repeats, up to the word at its end. -/
def readBody : Nat → List Token → Except Mistake (Command × List Token)
  | 0, ts => .error (unexpected none ts)
  | fuel + 1, ts => do
    let (body, rest) ← readList fuel ts
    return (body, ← expectWord "done" rest)

def readLoop : Nat → Bool → List Token → Except Mistake (Command × List Token)
  | 0, _, ts => .error (unexpected none ts)
  | fuel + 1, inverted, ts => do
    let (condition, rest) ← readCondition fuel "do" ts
    let (body, rest) ← readBody fuel rest
    return (.loop inverted condition body, rest)

def readFor : Nat → Nat → List Token → Except Mistake (Command × List Token)
  | 0, _, ts => .error (unexpected none ts)
  | fuel + 1, line, ts => do
    let (name, rest) ← match ts with
      | ⟨line, .word w⟩ :: rest =>
        match (Word.plain? w).filter isName with
        | some name => .ok (name, rest)
        | none => .error (Mistake.mk .badLoopVariable (some line))
      | ⟨line, .flaw f⟩ :: _ => .error ⟨f, some line⟩
      | ts => .error ⟨.badLoopVariable, ts.head?.map Token.line⟩
    let (words, rest) ← match dropLines rest with
      | t :: rest =>
        if isKeyword "in" t then do
          let (ws, rest) ← takeWords rest
          pure (some ws, rest)
        else pure (none, t :: rest)
      | [] => pure (none, [])
    let rest := if words.isNone then
        match rest with
        | ⟨_, .operator ";"⟩ :: rest => rest
        | rest => rest
      else rest
    let (body, rest) ← readBody fuel (← expectWord "do" (dropLines rest))
    return (.each line name words body, rest)

/-- The arms of a choice by patterns, up to the word at its end. -/
def readArms : Nat → List Token → Except Mistake (Command × List Token)
  | 0, ts => .error (unexpected none ts)
  | fuel + 1, ts => do
    let behind := match ts with
      | ⟨_, .operator "("⟩ :: rest => rest
      | ts => ts
    match behind with
    | t :: after =>
      if isKeyword "esac" t then return (.nothing, after)
    | [] => pure ()
    let (patterns, rest) ← takePatterns behind
    let (body, rest) ← readArm fuel rest
    match rest with
    | ⟨_, .operator ";;"⟩ :: rest =>
      let (next, rest) ← readArms fuel (dropLines rest)
      return (.arm patterns body next, rest)
    | t :: after =>
      if isKeyword "esac" t then return (.arm patterns body .nothing, after)
      else .error (unexpected (some (inQuotes ";;")) (t :: after))
    | [] => .error (unexpected (some (inQuotes ";;")) [])

end

/-- What follows a command in its line, up to the end of the line. -/
def finishLine (fuel : Nat) : Nat → Command → List Token → Except Mistake (Command × List Token)
  | 0, _, ts => .error (unexpected none ts)
  | steps + 1, c, ts =>
    let goOn (c : Command) (rest : List Token) : Except Mistake (Command × List Token) :=
      match rest with
      | [] => .ok (c, [])
      | ⟨_, .operator "\n"⟩ :: rest => .ok (c, rest)
      | rest => do
        let (d, rest) ← readChain fuel rest
        finishLine fuel steps (.sequence c d) rest
    match ts with
    | [] => .ok (c, [])
    | ⟨_, .operator "\n"⟩ :: rest => .ok (c, rest)
    | ⟨_, .operator ";"⟩ :: rest => goOn c rest
    | ⟨_, .operator "&"⟩ :: rest => goOn (.background c) rest
    | ts => .error (unexpected none ts)

/-- The command of the first line, and the tokens behind it. -/
def readLine (ts : List Token) : Except Mistake (Command × List Token) := do
  let fuel := 16 * ts.length + 16
  let (c, rest) ← readChain fuel ts
  finishLine fuel fuel c rest

/-! ### Commands inside words -/

/-- The words of a command and of all commands in it. -/
def allWords : Command → List Word
  | .nothing => []
  | .simple _ words rs => words ++ rs.map Redirect.word
  | .sequence a b | .andThen a b | .orElse a b | .pipe a b => allWords a ++ allWords b
  | .invert c | .background c | .function _ c => allWords c
  | .group _ _ c rs => allWords c ++ rs.map Redirect.word
  | .choose a b c => allWords a ++ allWords b ++ allWords c
  | .loop _ a b => allWords a ++ allWords b
  | .each _ _ words body => words.getD [] ++ allWords body
  | .select _ subject arms => subject :: allWords arms
  | .arm patterns body next => patterns ++ allWords body ++ allWords next

/-- What is wrong with the commands in words, or in those of a text that begins in a line; `fuel` bounds
how deep it is looked and how many lines are. A text in parentheses ends with the closing one. -/
def mistakeIn : Nat → List Token → Option Mistake
  | 0, _ => none
  | fuel + 1, ts =>
    match dropLines ts with
    | [] => none
    | ts =>
      match readLine ts with
      | .error mistake => some mistake
      | .ok (c, rest) =>
        ((allWords c).flatMap Word.outputs).findSome? (fun (line, text) =>
          mistakeIn fuel (Token.ofText (line.getD 1) text)
            |>.map (Mistake.inOutput line text)) <|> mistakeIn fuel rest

/-- What is wrong with the commands inside the words of a command. -/
def inner? (c : Command) : Option Mistake :=
  ((allWords c).flatMap Word.outputs).findSome? fun (line, text) =>
    (mistakeIn (text.length + 1) (Token.ofText (line.getD 1) text)).map (Mistake.inOutput line text)

end Command
end Foreach.Shell
