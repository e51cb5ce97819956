namespace LineCalc.Console

/-- How a session is shown. -/
structure Options where
  /-- The text before each line, if one was asked for. -/
  prompt : Option String
  /-- Show tokens, report and table for each line, in place of the value alone. -/
  echo : Bool
  /-- Show no prompt. -/
  quiet : Bool
deriving DecidableEq, Repr

namespace Options

/-- Nothing was asked for. -/
def default : Options := ⟨none, false, false⟩

/-- The text before each line. -/
def promptText (o : Options) : String :=
  if o.quiet then "" else o.prompt.getD "> "

end Options

/-- Why arguments are refused. -/
inductive Misuse where
  | unexpected (argument : String)
  | valueExpected (option : String)
  | repeated (option : String)
deriving DecidableEq, Repr

/-- The refusal in words. -/
def Misuse.message : Misuse → String
  | unexpected argument => s!"unexpected argument '{argument}'"
  | valueExpected option => s!"a value is required for '{option}'"
  | repeated option => s!"'{option}' is given more than once"

/-- What the arguments ask for. -/
inductive Request where
  | run (options : Options)
  | help
  | version
  | misuse (cause : Misuse)
deriving DecidableEq, Repr

/-- The options that take no value. -/
inductive Switch where
  | echo
  | quiet
  | help
  | version

namespace Switch

/-- The switch of a long name. -/
def ofName? : List Char → Option Switch
  | ['e', 'c', 'h', 'o'] => some echo
  | ['q', 'u', 'i', 'e', 't'] => some quiet
  | ['h', 'e', 'l', 'p'] => some help
  | ['v', 'e', 'r', 's', 'i', 'o', 'n'] => some version
  | _ => none

/-- The switch of a letter. -/
def ofLetter? : Char → Option Switch
  | 'e' => some echo
  | 'q' => some quiet
  | 'h' => some help
  | 'V' => some version
  | _ => none

/-- Turns a switch on, or settles the request: by what the switch asks for, or because it is on
already. -/
def turnOn (s : Switch) (o : Options) : Except Request Options :=
  match s with
  | echo =>
    if o.echo then .error (.misuse (.repeated "--echo")) else .ok { o with echo := true }
  | quiet =>
    if o.quiet then .error (.misuse (.repeated "--quiet")) else .ok { o with quiet := true }
  | help => .error .help
  | version => .error .version

end Switch

namespace Options

/-- Turns on the switches of a cluster of letters such as `-eq`, from the left. -/
def turnOnLetters (argument : String) (o : Options) (letters : List Char) :
    Except Request Options :=
  letters.foldlM
    (fun o letter =>
      match Switch.ofLetter? letter with
      | some s => s.turnOn o
      | none => .error (.misuse (.unexpected argument)))
    o

/-- Turns on the switch of a long name, which takes no value. -/
def turnOnName (argument : String) (o : Options) (name : List Char) : Except Request Options :=
  match Switch.ofName? name with
  | some s => s.turnOn o
  | none => .error (.misuse (.unexpected argument))

/-- Sets the prompt, if it has not been set. -/
def setPrompt (o : Options) (text : String) : Except Request Options :=
  match o.prompt with
  | some _ => .error (.misuse (.repeated "--prompt"))
  | none => .ok { o with prompt := some text }

end Options

/-- An argument that cannot be the value of the option before it: it begins with a hyphen, and is
more than a hyphen. -/
def looksLikeOption (argument : String) : Bool :=
  match argument.toList with
  | '-' :: _ :: _ => true
  | _ => false

/-- Takes the arguments one by one; the first that settles the request ends the matter. An option is
given once at most, and there are no other arguments. -/
def requestFrom (o : Options) : List String → Request
  | [] => .run o
  | argument :: rest =>
    match argument.toList with
    | ['-', '-'] =>
      match rest with
      | [] => .run o
      | extra :: _ => .misuse (.unexpected extra)
    | '-' :: '-' :: 'p' :: 'r' :: 'o' :: 'm' :: 'p' :: 't' :: '=' :: text =>
      match o.setPrompt (String.ofList text) with
      | .ok o => requestFrom o rest
      | .error settled => settled
    | ['-', '-', 'p', 'r', 'o', 'm', 'p', 't'] =>
      match rest with
      | [] => .misuse (.valueExpected "--prompt")
      | text :: rest =>
        if looksLikeOption text then .misuse (.valueExpected "--prompt")
        else
          match o.setPrompt text with
          | .ok o => requestFrom o rest
          | .error settled => settled
    | '-' :: '-' :: name =>
      match o.turnOnName argument name with
      | .ok o => requestFrom o rest
      | .error settled => settled
    | '-' :: letter :: letters =>
      match o.turnOnLetters argument (letter :: letters) with
      | .ok o => requestFrom o rest
      | .error settled => settled
    | _ => .misuse (.unexpected argument)

/-- What the arguments of the command line ask for. -/
def Request.ofArguments (arguments : List String) : Request :=
  requestFrom .default arguments

end LineCalc.Console
