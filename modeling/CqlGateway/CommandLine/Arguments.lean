import CqlGateway.Catalog.Query
import CqlGateway.Text.Case
import CqlGateway.Text.Distance
import CqlGateway.Text.Record

/-!
# Arguments

The words of a command line name a command and give it flags and arguments, in any order. A flag
is a name behind two dashes; its value follows behind an equals sign or as the next word. Two
dashes alone end the flags.

The command is found first: words that can be values of flags are passed over, and the first of
the others names it. Then all words but the names of commands are read as flags and arguments of
the command.
-/

namespace CqlGateway.CommandLine

/-- What the gateway can be told to do. -/
inductive Command where
  | root
  | translate
  | exec
  | perms
  | grant
  | revoke
  | importCatalog
  | help
  | completion
  deriving DecidableEq, Repr

namespace Command

def name : Command → String
  | .root => "cqlbridge"
  | .translate => "translate"
  | .exec => "exec"
  | .perms => "perms"
  | .grant => "grant"
  | .revoke => "revoke"
  | .importCatalog => "import"
  | .help => "help"
  | .completion => "completion"

def children : Command → List Command
  | .root => [.translate, .exec, .perms, .importCatalog, .help, .completion]
  | .perms => [.grant, .revoke]
  | _ => []

/-- The words for a command and those above it. -/
def path (c : Command) : String :=
  match c with
  | .root => Command.root.name
  | .grant | .revoke => Command.root.name ++ " " ++ Command.perms.name ++ " " ++ c.name
  | _ => Command.root.name ++ " " ++ c.name

/-- The flags that every command takes. -/
def commonFlags : List String := ["config", "metrics-file"]

def flags : Command → List String
  | .translate => "ast" :: commonFlags
  | .exec => ["ast", "subject", "credential"] ++ commonFlags
  | .perms | .grant | .revoke => ["subject", "credential"] ++ commonFlags
  | .importCatalog => ["keyspace", "tables", "save", "since"] ++ commonFlags
  | _ => commonFlags

/-- The flags without which a command is refused. -/
def requiredFlags : Command → List String
  | .perms | .grant | .revoke => ["subject"]
  | _ => []

def child? (c : Command) (word : String) : Option Command :=
  c.children.find? (·.name = word)

end Command

/-! ### Finding the command -/

/-- Whether a word is a flag whose value is the next word. -/
def takesNext (word : String) : Bool :=
  match word.toList with
  | '-' :: '-' :: cs => !cs.contains '='
  | ['-', c] => c ≠ '=' && c.utf8Size = 1
  | _ => false

def isFlag (word : String) : Bool :=
  word.toList.head? = some '-'

/-- The words that are neither flags nor can be values of flags. -/
def plainWords : List String → List String
  | [] => []
  | word :: rest =>
    if word = "--" then []
    else if takesNext word then
      match rest with
      | _ :: next :: rest => plainWords (next :: rest)
      | _ => []
    else if word = "" || isFlag word then plainWords rest
    else word :: plainWords rest

def withoutCommand (command : String) : List String → List String
  | [] => []
  | word :: rest =>
    if word = "--" then word :: rest
    else if takesNext word then
      match rest with
      | value :: rest => word :: value :: withoutCommand command rest
      | [] => [word]
    else if word = command then rest
    else word :: withoutCommand command rest

/-- The command that words name below a command, and the words for it. The first argument bounds
how far commands are nested. -/
def findBelow : Nat → Command → List String → Command × List String
  | 0, c, words => (c, words)
  | depth + 1, c, words =>
    match (plainWords words).head?.bind c.child? with
    | some next => findBelow depth next (withoutCommand next.name words)
    | none => (c, words)

/-- Whether a command is close to a word. -/
def Command.isLike (c : Command) (word : String) : Bool :=
  let a := Text.lower word
  Text.distance (Text.bytes a) (Text.bytes c.name) ≤ 2
    || a.toList.isPrefixOf c.name.toList

/-- The commands that a word may be meant for. -/
def suggestions (word : String) : String :=
  match (Command.root.children.filter (· ≠ .help)).filter (·.isLike word) with
  | [] => ""
  | like =>
    "\n\nDid you mean this?\n" ++ String.join (like.map fun c => "\t" ++ c.name ++ "\n")

def unknownCommand (c : Command) (word more : String) : Failure :=
  .foreign ("unknown command " ++ Text.quote word ++ " for " ++ Text.quote c.path ++ more)

def findCommand (words : List String) : Except Failure (Command × List String) :=
  match findBelow 2 .root words with
  | (.root, rest) =>
    match plainWords rest with
    | word :: _ => .error (unknownCommand .root word (suggestions word))
    | [] => .ok (.root, rest)
  | found => .ok found

/-! ### Flags -/

structure Options where
  config : String := ""
  metricsFile : String := ""
  ast : String := ""
  subject : String := ""
  credential : String := ""
  keyspace : String := ""
  tables : List String := []
  save : String := ""
  since : String := ""
  help : Bool := false
  given : List String := []
  deriving DecidableEq, Repr

def valueFailure (flag value problem : String) : Failure :=
  .foreign ("invalid argument " ++ Text.quote value ++ " for " ++ Text.quote flag ++ " flag: "
    ++ problem)

def Options.setHelp (o : Options) (value : String) : Except Failure Options :=
  match Catalog.Cell.flagOfText? value with
  | some b => .ok { o with help := b }
  | none =>
    .error (valueFailure "-h, --help" value
      ("strconv.ParseBool: parsing " ++ Text.quote value ++ ": invalid syntax"))

/-- Set a flag. A flag for several values collects them. -/
def Options.set (o : Options) (name value : String) : Except Failure Options :=
  let o := { o with given := o.given ++ [name] }
  match name with
  | "config" => .ok { o with config := value }
  | "metrics-file" => .ok { o with metricsFile := value }
  | "ast" => .ok { o with ast := value }
  | "subject" => .ok { o with subject := value }
  | "credential" => .ok { o with credential := value }
  | "keyspace" => .ok { o with keyspace := value }
  | "save" => .ok { o with save := value }
  | "since" => .ok { o with since := value }
  | "tables" =>
    match Text.record value with
    | .ok names => .ok { o with tables := o.tables ++ names }
    | .error fault => .error (valueFailure "--tables" value fault.message)
  | _ => .ok o

def quotedLetter (c : Char) : String :=
  String.ofList
    ('\x27' :: (if c = '\x27' then ['\\', c] else if c = '"' then [c] else Text.quoteChar c)
      ++ ['\x27'])

/-- Read letters behind a single dash. The only one that is known asks for help. -/
def readLetters (o : Options) : List Char → Except Failure Options
  | [] => .ok o
  | 'h' :: '=' :: c :: cs => o.setHelp (String.ofList (c :: cs))
  | 'h' :: cs => readLetters { o with help := true } cs
  | cs =>
    if "test.".toList.isPrefixOf cs then .ok o
    else
      let letter := Char.ofNat (((Text.bytes (String.ofList cs)).head?.map UInt8.toNat).getD 0)
      .error (.foreign ("unknown shorthand flag: " ++ quotedLetter letter ++ " in -"
        ++ String.ofList cs))

/-- A flag without its dashes: its name, and its value if that follows an equals sign. -/
def flagParts (cs : List Char) : String × Option String :=
  let name := String.ofList (cs.takeWhile (· ≠ '='))
  match cs.dropWhile (· ≠ '=') with
  | [] => (name, none)
  | _ :: value => (name, some (String.ofList value))

/-- What words give a command: flags and arguments. -/
structure Given where
  options : Options := {}
  arguments : List String := []
  deriving DecidableEq, Repr

/-- Read words for a command that takes certain flags. -/
def readWords (flags : List String) : Given → List String → Except Failure Given
  | g, [] => .ok g
  | g, word :: rest =>
    match word.toList with
    | ['-', '-'] => .ok { g with arguments := g.arguments ++ rest }
    | '-' :: '-' :: cs =>
      if cs.head? = some '-' || cs.head? = some '=' then
        .error (.foreign ("bad flag syntax: " ++ word))
      else
        match flagParts cs with
        | ("help", value?) =>
          match g.options.setHelp (value?.getD "true") with
          | .ok o => readWords flags { g with options := o } rest
          | .error f => .error f
        | (name, value?) =>
          if !flags.contains name then .error (.foreign ("unknown flag: --" ++ name))
          else
            match value?, rest with
            | some value, rest =>
              match g.options.set name value with
              | .ok o => readWords flags { g with options := o } rest
              | .error f => .error f
            | none, value :: rest =>
              match g.options.set name value with
              | .ok o => readWords flags { g with options := o } rest
              | .error f => .error f
            | none, [] => .error (.foreign ("flag needs an argument: " ++ word))
    | '-' :: c :: cs =>
      match readLetters g.options (c :: cs) with
      | .ok o => readWords flags { g with options := o } rest
      | .error f => .error f
    | _ => readWords flags { g with arguments := g.arguments ++ [word] } rest

/-! ### Invocations -/

structure Invocation where
  command : Command
  options : Options := {}
  arguments : List String := []
  deriving DecidableEq, Repr

namespace Invocation

def asksForUsage (i : Invocation) : Bool :=
  i.options.help || [Command.root, .help, .completion].contains i.command

def checkArguments (i : Invocation) : Except Failure Unit :=
  match i.command, i.arguments with
  | .perms, word :: _ => .error (unknownCommand .perms word "")
  | .importCatalog, word :: _ => .error (unknownCommand .importCatalog word "")
  | .grant, [] | .revoke, [] =>
    .error (.foreign "requires at least 1 arg(s), only received 0")
  | _, _ => .ok ()

def checkFlags (i : Invocation) : Except Failure Unit :=
  match i.command.requiredFlags.filter fun name => !i.options.given.contains name with
  | [] => .ok ()
  | missing =>
    .error (.foreign ("required flag(s) "
      ++ String.intercalate ", " (missing.map fun name => "\"" ++ name ++ "\"") ++ " not set"))

def ofWords (words : List String) : Except Failure Invocation := do
  let (command, words) ← findCommand words
  let given ← readWords command.flags {} words
  let i : Invocation := ⟨command, given.options, given.arguments⟩
  if i.asksForUsage then return i
  i.checkArguments
  i.checkFlags
  return i

end Invocation

end CqlGateway.CommandLine
