import Foreach.Shell.Builtin
import Foreach.Shell.Redirection

/-!
Calling what a name stands for: a function, a command of the shell, a program or a text.
-/

namespace Foreach.Shell

/-- Calls a function with arguments. -/
def callFunction (d : Deeper) (body : Command) (args : Arguments) (m : Machine) : Machine :=
  let after := d.invoke body { m with arguments := args, locals := some [], within := true, loops := 0 }
  let restored := (after.locals.getD []).foldl (fun m (name, value) => m.resetVariable name value) after
  { restored with
    arguments := m.arguments
    locals := m.locals
    within := m.within
    loops := m.loops
    jump := if after.jump = some .back then none else after.jump }

/-! ### Shells -/

/-- How a shell is called: its settings, whether its text is the first argument, and the arguments. -/
def takeShellOptions : List Char → Bool → Arguments → List Char × Bool × Arguments
  | flags, text, [] => (flags, text, [])
  | flags, text, a :: rest =>
    if a = ['-', '-'] || a = ['-'] then (flags, text, rest)
    else
      match a with
      | '-' :: letters =>
        takeShellOptions (letters.filter (· != 'c') ++ flags) (text || letters.contains 'c') rest
      | a => (flags, text, a :: rest)

/-- A new shell, which knows only what is exported. -/
def childOf (m : Machine) (name : List Char) (args : Arguments) (flags : List Char) : Machine :=
  { Machine.start m.environment m.files m.directory [] with
    name := name
    arguments := args
    flags := flags
    streams := m.streams
    sources := m.sources
    origins := m.origins
    output := m.output
    fresh := m.fresh
    mask := m.mask
    executable := m.executable
    traps := m.traps.filter fun (_, action) => action.isEmpty
    slept := m.slept }

/-- Runs a text in a shell to its end, with what is to be run then. -/
def runToEnd (d : Deeper) (text : List Char) (m : Machine) : Machine := atEnd d (d.run 1 text m)

/-- Runs a text in a new shell. A signal to a process of its own ends only that one. -/
def runChild (d : Deeper) (text : List Char) (m child : Machine) : Machine :=
  let after := runToEnd d text child
  let back := m.rejoin { after with ending := after.ending.filter (· = .killed 9 ∧ after.endless) }
  match after.ending with
  | some (.killed signal) =>
    if after.endless then back
    else
      ((Signal.farewell? signal).elim back fun words => back.complain (octetsOf words ++ ['\n'])).finish
        (128 + signal)
  | some (.exited status) => back.finish status
  | none => back.finish after.status

/-- Runs a new shell. -/
def callShell (d : Deeper) (name : List Char) (args : Arguments) (m : Machine) : Machine :=
  let (flags, isText, rest) := takeShellOptions [] false args
  match isText, rest with
  | true, [] => m.refuse 2 (name ++ octetsOf ": 0: -c requires an argument")
  | true, text :: rest => runChild d text m (childOf m (rest.headD name) (rest.drop 1) flags)
  | false, [] =>
    let (text, m) := m.takeInput
    runChild d text m (childOf m name [] flags)
  | false, file :: rest =>
    match if flags.contains 's' then none else some (m.files.read (m.placeOf file)) with
    | none =>
      let (text, m) := m.takeInput
      runChild d text m (childOf m name (file :: rest) flags)
    | some (.ok bytes) => runChild d (octets bytes) m (childOf m file rest flags)
    | some (.error _) => m.refuse 2 (name ++ octetsOf ": 0: cannot open " ++ file ++ octetsOf ": No such file")

/-- Runs a file as a program. -/
def callScript (d : Deeper) (name : List Char) (args : Arguments) (m : Machine) : Machine :=
  let p := m.placeOf name
  match m.files.read p with
  | .error (.file .isDirectory _) => m.protest 126 (name ++ octetsOf ": Permission denied")
  | .error _ => m.protest 127 (name ++ octetsOf ": not found")
  | .ok bytes =>
    if m.executable.contains p then runChild d (octets bytes) m (childOf m name args [])
    else m.protest 126 (name ++ octetsOf ": Permission denied")

/-! ### Texts -/

/-- Runs a text in the name of a command. -/
def callText (d : Deeper) (speaker text : List Char) (m : Machine) : Machine :=
  m.speaking speaker fun m => d.run 1 text (m.finish 0)

/-- Runs the text of a file in the same shell. -/
def callFile (d : Deeper) (args : Arguments) (m : Machine) : Machine :=
  match args with
  | [] => m.finish 0
  | route :: _ =>
    if !route.contains '/' then m.speaking ['.'] fun m => m.abandon (route ++ octetsOf ": not found")
    else
      match m.files.read (m.placeOf route) with
      | .ok bytes =>
        let after := callText d route (octets bytes) { m with within := true }
        { after with within := m.within, jump := if after.jump = some .back then none else after.jump }
      | .error _ =>
        m.speaking ['.'] fun m => m.abandon (octetsOf "cannot open " ++ route ++ octetsOf ": No such file")

/-! ### Programs that call others -/

/-- The assignments in front of a command of `env`, and the command. -/
def takeSettings : Arguments → List (List Char × List Char) × Arguments
  | [] => ([], [])
  | a :: rest =>
    match a.dropWhile (· != '=') with
    | _ :: value =>
      let (more, command) := takeSettings rest
      ((a.takeWhile (· != '='), value) :: more, command)
    | [] => ([], a :: rest)

/-- The environment that the options of `env` leave, and the words behind them; or the letter of an
option that there is not. The number bounds how many options are read. -/
def takeEnvironment : Nat → Machine → Arguments → Except Char (Machine × Arguments)
  | fuel + 1, m, a :: rest =>
    if a = ['-'] ∨ a = ['-', 'i'] then takeEnvironment fuel { m with exported := [] } rest
    else if a = ['-', '-'] then .ok (m, rest)
    else
      match a with
      | ['-', 'u'] => takeEnvironment fuel (m.dropVariable (rest.headD [])) (rest.drop 1)
      | '-' :: 'u' :: name => takeEnvironment fuel (m.dropVariable name) rest
      | '-' :: letter :: _ => .error letter
      | a => .ok (m, a :: rest)
  | _, m, rest => .ok (m, rest)

/-- Words with quotes, as `xargs` takes them from a text, `word` being under construction; a quote that stays
open is an error. The number is more than the length of the text. -/
def quotedWords : Nat → Option (List Char) → List Char → Except Char Arguments
  | fuel + 1, word, c :: cs =>
    if c = '\'' ∨ c = '"' then
      let body := cs.takeWhile (· != c)
      if body.length < cs.length ∧ !body.contains '\n' then
        quotedWords fuel (some (word.getD [] ++ body)) (cs.drop (body.length + 1))
      else .error c
    else if c = '\\' then
      match cs with
      | [] => .ok word.toList
      | d :: rest => quotedWords fuel (some (word.getD [] ++ [d])) rest
    else if c = ' ' ∨ c = '\t' ∨ c = '\n' then
      match word with
      | none => quotedWords fuel none cs
      | some w => (quotedWords fuel none cs).map (w :: ·)
    else quotedWords fuel (some (word.getD [] ++ [c])) cs
  | _, word, _ => .ok word.toList

/-- The words of a text. -/
def wordsOf (text : List Char) : Except Char Arguments := quotedWords (text.length + 1) none text

/-- Every occurrence of a text in another replaced. -/
def substituted (sign value : List Char) : Nat → List Char → List Char
  | 0, cs => cs
  | _, [] => []
  | fuel + 1, c :: cs =>
    if sign.isPrefixOf (c :: cs) then value ++ substituted sign value fuel ((c :: cs).drop sign.length)
    else c :: substituted sign value fuel cs

/-- What `xargs` is asked to do. -/
structure Spreading where
  /-- The word in the command that stands for a line. -/
  slot : Option (List Char)
  /-- The most words for one command. -/
  limit : Option Nat
  /-- Words are taken line by line. -/
  byLine : Bool
  /-- What ends a word, where it is not blanks. -/
  separator : Option Char
  /-- No words, no command. -/
  idle : Bool
  /-- Commands are shown before they run. -/
  shows : Bool
  command : Arguments

/-- The rows of words for the commands of `xargs`. -/
def Spreading.rows (s : Spreading) (text : List Char) : Except Char (List Arguments) := do
  let apart (sign : Char) : Arguments :=
    let parts := Text.split sign text
    if parts.getLast? = some [] then parts.dropLast else parts
  match s.slot with
  | some _ =>
    let ls := apart (s.separator.getD '\n')
    let ls := if s.separator.isSome then ls else (ls.map (·.dropWhile Utility.isBlankChar)).filter (!·.isEmpty)
    return ls.map ([·])
  | none =>
    if s.byLine then (Utility.lines text).filter (!·.all Utility.isBlankChar) |>.mapM wordsOf
    else
      let ws ← s.separator.elim (wordsOf text) fun sign => .ok (apart sign)
      if ws.isEmpty then return if s.idle then [] else [[]]
      return s.limit.elim [ws] fun n => Utility.rowsOf n (ws.length + 1) ws

/-- The commands of `xargs`. -/
def Spreading.commands (s : Spreading) (text : List Char) : Except Char (List Arguments) :=
  (s.rows text).map fun rows => rows.map fun ws =>
    match s.slot with
    | some sign => s.command.map fun a => substituted sign (ws.headD []) (a.length + 1) a
    | none => s.command ++ ws

/-- Reads the options of `xargs`, `s` being what is asked for by those in front. -/
def takeSpreading : Nat → Spreading → Arguments → Except (List Char) Spreading
  | 0, s, _ => .ok s
  | fuel + 1, s, args =>
    let goOn (s : Spreading) (args : Arguments) := takeSpreading fuel s args
    let command (ws : Arguments) : Spreading := { s with command := if ws.isEmpty then [octetsOf "echo"] else ws }
    match args with
    | [] => .ok (command [])
    | a :: rest =>
      match a with
      | ['-', '-'] => .ok (command rest)
      | ['-', '0'] => goOn { s with separator := some (Char.ofNat 0) } rest
      | ['-', 'r'] => goOn { s with idle := true } rest
      | ['-', 't'] => goOn { s with shows := true } rest
      | '-' :: letter :: inline =>
        let value := if inline.isEmpty then rest.headD [] else inline
        let behind := if inline.isEmpty then rest.drop 1 else rest
        match letter with
        | 'I' => goOn { s with slot := some value, limit := none, byLine := false } behind
        | 'n' =>
          if Text.numeral value = 0 ∨ !value.all Text.isDigit then .error value
          else goOn { s with limit := some (Text.numeral value), byLine := false } behind
        | 'L' => goOn { s with byLine := true } behind
        | 'P' => goOn s behind
        | 'd' =>
          goOn { s with separator := some (if value = ['\\', 'n'] then '\n' else value.headD ' ') } behind
        | 'r' => goOn { s with idle := true } (('-' :: inline) :: rest)
        | 't' => goOn { s with shows := true } (('-' :: inline) :: rest)
        | '0' => goOn { s with separator := some (Char.ofNat 0) } (('-' :: inline) :: rest)
        | letter => .error ['-', letter]
      | a => .ok (command (a :: rest))

/-- Runs the commands of `xargs`, up to one that cannot go on. -/
def spread (run : Arguments → Machine → Machine) (shows : Bool) : List Arguments → Machine → Machine
  | [], m => m
  | c :: cs, m =>
    let before := m.status
    let m := run c (if shows then m.complain (Utility.spaced c ++ ['\n']) else m)
    if m.stopped || m.status = 126 || m.status = 127 then m
    else if m.status = 255 then
      m.refuse 124 (octetsOf "xargs: " ++ c.headD [] ++ octetsOf ": exited with status 255; aborting")
    else spread run shows cs (m.finish (if m.status = 0 then before else 123))

/-- Calls commands with words of the input. -/
def callSpread (run : Arguments → Machine → Machine) (args : Arguments) (m : Machine) : Machine :=
  match takeSpreading (2 * (args.flatten.length + args.length) + 1) ⟨none, none, false, none, false, false, []⟩ args with
  | .error ['-', letter] => Utility.misused "xargs" 1 (octetsOf s!"invalid option -- '{letter}'") m
  | .error value =>
    Utility.misused "xargs" 1 (octetsOf "value " ++ value ++ octetsOf " for -n option should be >= 1") m
  | .ok s =>
    let (text, m) := m.takeInput
    match s.commands text with
    | .ok commands => spread run s.shows commands (m.finish 0)
    | .error quote =>
      let kind := if quote = '"' then "double" else "single"
      m.refuse 1 (octetsOf (s!"xargs: unmatched {kind} quote; "
        ++ "by default quotes are special to xargs unless you use the -0 option"))

/-! ### Names -/

/-- Calls a program that calls no other. -/
def callProgram (d : Deeper) (name : List Char) (args : Arguments) (m : Machine) : Machine :=
  match Builtin.route? m name with
  | none =>
    if name.contains '/' then callScript d name args m
    else if name.isEmpty then m.protest 127 (octetsOf ": Permission denied")
    else m.protest 127 (name ++ octetsOf ": not found")
  | some route =>
    let bare := Utility.bareName route
    if bare = octetsOf "sh" ∨ bare = octetsOf "dash" then callShell d name args m
    else if bare = octetsOf "which" then Builtin.which args m
    else
      match Utility.programs.lookup (Utility.textOf bare) with
      | some utility => utility args m
      | none => callScript d route args m

/-- Ends a call whose output was closed while it wrote: a command of the shell or another one. -/
def missed (own : Bool) (name : List Char) (m : Machine) : Machine :=
  if !m.lost then m
  else
    let m := { m with lost := false }
    if own then m.protest 1 (name ++ octetsOf ": I/O error")
    else
      let what := if name = octetsOf "cat" then ": standard output" else ": write error"
      m.refuse (if name = octetsOf "ls" then 2 else 1) (name ++ octetsOf s!"{what}: Bad file descriptor")

/-- Runs a command by its name; `fuel` bounds how many commands are given to one another. -/
def call (d : Deeper) : Nat → Arguments → Machine → Machine
  | 0, _, m => m.finish 127
  | _, [], m => m
  | fuel + 1, name :: args, m =>
    /- Programs know nothing of the shell's functions and commands. -/
    let outside (who : String) (args : Arguments) (m : Machine) : Machine :=
      match args with
      | [] => m
      | first :: _ =>
        if (Builtin.route? m first).isNone then
          let shown := if who = "env" then '\'' :: first ++ ['\''] else first
          m.refuse 127 (Utility.complaint who shown "No such file or directory")
        else { call d fuel args { m with functions := [] } with functions := m.functions }
    match m.functions.lookup name with
    | some body => callFunction d body args m
    | none =>
      match Utility.textOf name with
      | "eval" => callText d name (Utility.spaced args) m
      | "." => callFile d args m
      | "type" => Builtin.type args m
      | "command" =>
        match args with
        | [] => m.finish 0
        | ['-', 'v'] :: names => names.head?.elim (m.finish 0) (Builtin.describe m)
        | ['-', 'V'] :: names => names.foldl Builtin.explain (m.finish 0)
        | ['-', 'p'] :: args | ['-', '-'] :: args | args =>
          match args with
          | ('-' :: letter :: _) :: _ =>
            m.speaking name fun m => m.protest 2 (octetsOf "Illegal option -" ++ [letter])
          | args => { call d fuel args { m with functions := [] } with functions := m.functions }
      | "exec" =>
        match args with
        | [] => m.finish 0
        | first :: _ =>
          if (Builtin.route? m first).isNone ∧ !first.contains '/' then
            let told := m.speaking name fun m => m.protest 127 (first ++ octetsOf ": not found")
            { told with ending := some (.exited 127) }
          else
            let after := call d fuel args
              { m with functions := [], traps := m.traps.filter fun (n, _) => n != 0 }
            { after with ending := after.ending <|> some (.exited after.status) }
      | "env" =>
        match takeEnvironment args.length m args with
        | .error letter =>
          Utility.misused "env" 125 (octetsOf s!"invalid option -- '{letter}'") m
        | .ok (inner, words) =>
          let (settings, command) := takeSettings words
          let inner := settings.foldl (fun m (n, v) => (m.setVariable n v).publish n) inner
          let after := if command.isEmpty then Utility.printEnvironment inner else outside "env" command inner
          { after with vars := m.vars, exported := m.exported }
      | "xargs" => callSpread (outside "xargs") args m
      | shown =>
        match Builtin.all.lookup shown <|> Utility.builtin.lookup shown with
        | some utility =>
          let after := m.speaking name fun m => missed true name (utility args m)
          match after.ending with
          | some (.exited _) => if Builtin.isSpecial name then after else { after with ending := m.ending }
          | _ => after
        | none => missed false name (callProgram d name args m)

end Foreach.Shell
