/-
# Command-line arguments

A command with its arguments. Long options may be shortened as long as one option is meant; short
ones may be joined, and a value may be attached. After two dashes everything is an argument.
-/

namespace AikenForge

/-- What the command line asks for. -/
inductive Command
  | init (name directory : String)
  | compile (input : String) (output : Option String) (verbose : Bool)
  | check (input : String) (verbose : Bool)
  | serve (host number : String)

/-- What the arguments amount to. -/
inductive Invocation
  | command (c : Command)
  | help
  | misuse

namespace Arguments

/-- An option: its letter if it has one, its name, and whether it takes a value. -/
structure OptionForm where
  letter : Option Char := none
  name : String
  takesValue : Bool

/-- What an argument is. -/
inductive Token
  | argument (text : String)
  | dashes
  | named (form : OptionForm) (attached : Option String)
  | letters (form : OptionForm) (attached : Option (List Char))
  | unknown

/-- Whether a text is a negative number, which is an argument although it starts with a dash. -/
def isNegativeNumber : List Char → Bool
  | '-' :: digits =>
    match digits.dropWhile Char.isDigit with
    | [] => !digits.isEmpty
    | '.' :: fraction => !fraction.isEmpty && fraction.all Char.isDigit
    | _ => false
  | _ => false

/-- The part before the first equals sign and what follows it. -/
def splitValue (cs : List Char) : List Char × Option (List Char) :=
  match cs.dropWhile (· != '=') with
  | _ :: value => (cs.takeWhile (· != '='), some value)
  | [] => (cs, none)

/-- The options whose name starts with a text; the full name is meant alone. -/
def formsNamed (forms : List OptionForm) (name : List Char) : List OptionForm :=
  match forms.filter fun form => form.name.toList == name with
  | [] => forms.filter fun form => name.isPrefixOf form.name.toList
  | exact => exact

/-- What an argument that is no option of the command is: an argument if it is a number or has a
blank. -/
def otherToken (text : String) : Token :=
  if isNegativeNumber text.toList || text.toList.contains ' ' then .argument text else .unknown

/-- What an argument is, unless several options could be meant. -/
def token? (forms : List OptionForm) (text : String) : Option Token :=
  match text.toList with
  | ['-'] => some (.argument text)
  | '-' :: '-' :: long =>
    let (name, value) := splitValue long
    match formsNamed forms name with
    | [form] => some (.named form (value.map String.ofList))
    | [] => some (otherToken text)
    | _ => none
  | '-' :: letter :: attached =>
    match forms.find? fun form => form.letter == some letter with
    | some form =>
      match attached with
      | [] => some (.letters form none)
      | '=' :: value => some (.letters form (some value))
      | _ => some (.letters form (some attached))
    | none => some (otherToken text)
  | _ => some (.argument text)

/-- What the arguments are, up to two dashes and after them. -/
def tokens? (forms : List OptionForm) : List String → Option (List Token)
  | [] => some []
  | text :: rest =>
    if text == "--" then some (.dashes :: rest.map .argument)
    else do
      let first ← token? forms text
      let others ← tokens? forms rest
      return first :: others

/-- The arguments of a command: its one argument, the values of options and the options given. -/
structure Parsed where
  argument : Option String := none
  values : List (String × String) := []
  flags : List String := []

/-- The outcome of reading arguments. -/
inductive Result
  | parsed (p : Parsed)
  | help
  | misuse

/-- The last value of an option. -/
def Parsed.value? (p : Parsed) (name : String) : Option String :=
  p.values.lookup name

/-- What joined letters ask for: flags, and an option that takes the rest, or still needs a
value. -/
inductive Joined
  | flags (names : List String)
  | value (names : List String) (form : OptionForm) (value : String)
  | pending (names : List String) (form : OptionForm)
  | misuse

/-- Read the letters after that of an option; a flag may be followed by another option's letter. -/
def join (forms : List OptionForm) (names : List String) (form : OptionForm) :
    List Char → Joined
  | [] => if form.takesValue then .pending names form else .flags (form.name :: names)
  | letter :: rest =>
    if form.takesValue then .value names form (.ofList (letter :: rest))
    else
      match forms.find? fun other => other.letter == some letter with
      | some other => join forms (form.name :: names) other rest
      | none => .misuse

/-- Read what is attached to the letter of an option. An empty text is a value, and no flag. -/
def joinAttached (forms : List OptionForm) (form : OptionForm) : Option (List Char) → Joined
  | none => join forms [] form []
  | some [] => if form.takesValue then .value [] form "" else .misuse
  | some attached => join forms [] form attached

/-- Add flags. -/
def Parsed.addFlags (p : Parsed) (names : List String) : Parsed :=
  { p with flags := names ++ p.flags }

/-- Add a value; the latest comes first. -/
def Parsed.addValue (p : Parsed) (form : OptionForm) (value : String) : Parsed :=
  { p with values := (form.name, value) :: p.values }

/-- Read tokens. `pending` is an option that needs a value, and `follows` says whether the last
token was the command's argument. -/
def readTokens (forms : List OptionForm) (takesArgument : Bool) (p : Parsed)
    (pending : Option OptionForm) (follows : Bool) : List Token → Result
  | [] => if pending.isSome then .misuse else .parsed p
  | token :: rest =>
    match pending, token with
    | some form, .argument text =>
      readTokens forms takesArgument (p.addValue form text) none false rest
    | some _, _ => .misuse
    | none, .argument text =>
      if takesArgument && p.argument.isNone then
        readTokens forms takesArgument { p with argument := some text } none true rest
      else .misuse
    | none, .dashes =>
      if follows then
        if rest.isEmpty then .parsed p else .misuse
      else if takesArgument && p.argument.isNone then
        match rest with
        | [.argument text] => .parsed { p with argument := some text }
        | _ => .misuse
      else .misuse
    | none, .named form attached =>
      match form.takesValue, attached with
      | true, some value =>
        readTokens forms takesArgument (p.addValue form value) none false rest
      | true, none => readTokens forms takesArgument p (some form) false rest
      | false, some _ => .misuse
      | false, none =>
        if form.name == "help" then .help
        else readTokens forms takesArgument (p.addFlags [form.name]) none false rest
    | none, .letters form attached =>
      match joinAttached forms form attached with
      | .misuse => .misuse
      | .flags names =>
        if names.contains "help" then .help
        else readTokens forms takesArgument (p.addFlags names) none false rest
      | .value names form value =>
        readTokens forms takesArgument ((p.addFlags names).addValue form value) none false rest
      | .pending names form =>
        readTokens forms takesArgument (p.addFlags names) (some form) false rest
    | none, .unknown => .misuse

/-- Read the arguments of a command with these options. -/
def read (forms : List OptionForm) (takesArgument : Bool) (args : List String) : Result :=
  let forms := { letter := some 'h', name := "help", takesValue := false } :: forms
  match tokens? forms args with
  | none => .misuse
  | some tokens =>
    match readTokens forms takesArgument {} none false tokens with
    | .parsed p => if takesArgument && p.argument.isNone then .misuse else .parsed p
    | result => result

/-- The option for more output. -/
def verbose : OptionForm :=
  { letter := some 'v', name := "verbose", takesValue := false }

/-- Whether a text is a whole number. -/
def isWholeNumber (text : String) : Bool :=
  match text.toList with
  | '-' :: digits | '+' :: digits => !digits.isEmpty && digits.all Char.isDigit
  | digits => !digits.isEmpty && digits.all Char.isDigit

/-- Build a command of what was read. -/
def Result.toInvocation (build : Parsed → Invocation) : Result → Invocation
  | .parsed p => build p
  | .help => .help
  | .misuse => .misuse

/-- The invocation of a command by its name. -/
def invocationOf (name : String) (args : List String) : Invocation :=
  match name with
  | "init" =>
    (read [{ name := "directory", takesValue := true }] true args).toInvocation fun p =>
      .command (.init (p.argument.getD "") ((p.value? "directory").getD "."))
  | "compile" =>
    (read [{ letter := some 'o', name := "output", takesValue := true }, verbose] true
      args).toInvocation fun p =>
        .command (.compile (p.argument.getD "") (p.value? "output") (p.flags.contains "verbose"))
  | "check" =>
    (read [verbose] true args).toInvocation fun p =>
      .command (.check (p.argument.getD "") (p.flags.contains "verbose"))
  | "serve" =>
    (read [{ name := "host", takesValue := true }, { name := "port", takesValue := true }] false
      args).toInvocation fun p =>
        if p.values.all fun (name, value) => name != "port" || isWholeNumber value then
          .command (.serve ((p.value? "host").getD "127.0.0.1") ((p.value? "port").getD "8000"))
        else .misuse
  | _ => .misuse

/-- Whether an argument asks for help before any command. -/
def asksForHelp (text : String) : Bool :=
  text == "-h" || ("--h".toList.isPrefixOf text.toList && text.toList.isPrefixOf "--help".toList)

/-- What the arguments of the program ask for. -/
def parse : List String → Invocation
  | [] => .misuse
  | first :: rest => if asksForHelp first then .help else invocationOf first rest

end Arguments

end AikenForge
