/-
  The arguments of the command.

  The command has subcommands.  The flag `--verbose` may stand before or after
  the name of the subcommand; an option takes its value from behind `=` or from
  the next argument, and that one must not look like an option.  After `--`
  everything is an operand.  Arguments are checked in the order in which they
  stand, and the first that asks for help, or is wrong, decides.

  * `Request` is what can be asked for;
  * `parse` reads the arguments.
-/
import NamedMutex.Binary64
import NamedMutex.Text.Utf8

namespace NamedMutex

/-- A subcommand with its operands and options. -/
inductive Command where
  /-- Print the name derived from a text. -/
  | hash (raw first : String)
  /-- Make one attempt and hold the mutex for some seconds. -/
  | hold (name : String) (seconds : Nat)
  /-- Acquire within a time budget and hold for some milliseconds. -/
  | acquire (name : String) (timeout : Option Binary64) (holdMillis : Nat)
  /-- Show the lock file and its owner. -/
  | status (name : String)
  /-- Print diagnostics. -/
  | doctor
  deriving DecidableEq, Repr

/-- What the arguments ask for. -/
inductive Request where
  | perform (verbose : Bool) (command : Command)
  | help
  | version
  | usageError
  deriving DecidableEq, Repr

namespace Arguments

/-- Why reading stops before the end. -/
inductive Stop where
  | help
  | version
  | usageError
  deriving DecidableEq, Repr

/-- The form of an argument. -/
inductive Form where
  /-- The end of all options. -/
  | separator
  /-- `--name` or `--name=value`. -/
  | long (name : String) (value : Option String)
  /-- `-x` with whatever follows. -/
  | short (letter : Char)
  | operand (text : String)
  deriving DecidableEq, Repr

/-- The form of an argument; a lone dash is an operand. -/
def Form.of (text : String) : Form :=
  match text.toList with
  | ['-', '-'] => .separator
  | '-' :: '-' :: name =>
    match name.dropWhile (· ≠ '=') with
    | _ :: value => .long (String.ofList (name.takeWhile (· ≠ '='))) (some (String.ofList value))
    | [] => .long (String.ofList name) none
  | '-' :: letter :: _ => .short letter
  | _ => .operand text

/-- What a subcommand takes: how many operands, and its options, each with the
    values that it accepts. -/
structure Signature where
  operands : Nat
  options : List (String × (String → Bool))

/-- What has been read of a subcommand's arguments. -/
structure Reading where
  verbose : Bool
  operands : List String
  values : List (String × String)

namespace Reading

def empty : Reading := ⟨false, [], []⟩

/-- The flag `--verbose`, at most once. -/
def withVerbose (r : Reading) : Except Stop Reading :=
  if r.verbose then .error .usageError else .ok { r with verbose := true }

/-- One more operand, if the subcommand takes it. -/
def withOperand (sig : Signature) (r : Reading) (text : String) : Except Stop Reading :=
  if r.operands.length < sig.operands then .ok { r with operands := r.operands ++ [text] }
  else .error .usageError

/-- The value of an option, which may be given once. -/
def withValue (accepts : String → Bool) (r : Reading) (option value : String) :
    Except Stop Reading :=
  if (r.values.lookup option).isNone && accepts value then
    .ok { r with values := r.values ++ [(option, value)] }
  else .error .usageError

end Reading

/-- Whether an argument can be the value of the option before it. -/
def isValue (text : String) : Bool :=
  match Form.of text with
  | .operand _ => true
  | _ => false

/-- Reads operands only. -/
def readOperands (sig : Signature) (r : Reading) : List Bytes → Except Stop Reading
  | [] => .ok r
  | arg :: rest =>
    match Utf8.decode? arg with
    | none => .error .usageError
    | some text => do
      let r ← r.withOperand sig text
      readOperands sig r rest

/-- Reads the arguments of a subcommand. -/
def read (sig : Signature) (r : Reading) : List Bytes → Except Stop Reading
  | [] => .ok r
  | arg :: rest =>
    match Utf8.decode? arg with
    | none => .error .usageError
    | some text =>
      match Form.of text with
      | .separator => readOperands sig r rest
      | .operand text => do
        let r ← r.withOperand sig text
        read sig r rest
      | .short letter => .error (if letter = 'h' then .help else .usageError)
      | .long "help" none => .error .help
      | .long "verbose" none => do
        let r ← r.withVerbose
        read sig r rest
      | .long option given =>
        match sig.options.lookup option with
        | none => .error .usageError
        | some accepts =>
          match given with
          | some value => do
            let r ← r.withValue accepts option value
            read sig r rest
          | none =>
            match rest with
            | [] => .error .usageError
            | next :: rest =>
              match Utf8.decode? next with
              | none => .error .usageError
              | some value =>
                if isValue value then do
                  let r ← r.withValue accepts option value
                  read sig r rest
                else .error .usageError

/-- Reads a number below `2^64`. -/
def number? (s : String) : Option Nat := Numeral.parse? Numeral.wordLimit s.toList

def acceptsText (_ : String) : Bool := true

def acceptsNumber (s : String) : Bool := (number? s).isSome

def acceptsSeconds (s : String) : Bool := (Binary64.parse? s).isSome

/-- The subcommands. -/
inductive Subcommand where
  | hash
  | hold
  | acquire
  | status
  | doctor
  deriving DecidableEq, Repr

namespace Subcommand

def ofName? : String → Option Subcommand
  | "hash" => some hash
  | "hold" => some hold
  | "acquire" => some acquire
  | "status" => some status
  | "doctor" => some doctor
  | _ => none

def signature : Subcommand → Signature
  | hash => ⟨1, [("prefix", acceptsText)]⟩
  | hold => ⟨1, [("seconds", acceptsNumber)]⟩
  | acquire => ⟨1, [("timeout", acceptsSeconds), ("hold-ms", acceptsNumber)]⟩
  | status => ⟨1, []⟩
  | doctor => ⟨0, []⟩

/-- The number given for an option, if any. -/
def numberOf (r : Reading) (option : String) (otherwise : Nat) : Nat :=
  ((r.values.lookup option).bind number?).getD otherwise

/-- The command that the arguments of a subcommand make, unless one is missing. -/
def command? (r : Reading) : Subcommand → Option Command
  | hash => r.operands.head?.map fun raw => .hash raw ((r.values.lookup "prefix").getD "")
  | hold => r.operands.head?.map fun name => .hold name (numberOf r "seconds" 30)
  | acquire => r.operands.head?.map fun name =>
    .acquire name ((r.values.lookup "timeout").bind Binary64.parse?) (numberOf r "hold-ms" 0)
  | status => r.operands.head?.map .status
  | doctor => some .doctor

/-- Reads the arguments behind the name of a subcommand. -/
def request (verbose : Bool) (args : List Bytes) (sub : Subcommand) : Request :=
  match read sub.signature .empty args with
  | .error .help => .help
  | .error .version => .version
  | .error .usageError => .usageError
  | .ok r => match command? r sub with
    | some command => .perform (verbose || r.verbose) command
    | none => .usageError

end Subcommand

/-- Help about subcommands: their names follow, one at most. -/
def helpRequest : List Bytes → Request
  | [] => .help
  | [arg] =>
    match Utf8.decode? arg with
    | some name => if name = "help" ∨ (Subcommand.ofName? name).isSome then .help else .usageError
    | none => .usageError
  | _ => .usageError

/-- Reads the arguments before the name of a subcommand. -/
def requestFrom (verbose : Bool) : List Bytes → Request
  | [] => .usageError
  | arg :: rest =>
    match Utf8.decode? arg with
    | none => .usageError
    | some text =>
      match Form.of text with
      | .separator => .usageError
      | .short letter =>
        if letter = 'V' then .version else if letter = 'h' then .help else .usageError
      | .long "help" none => .help
      | .long "version" none => .version
      | .long "verbose" none => if verbose then .usageError else requestFrom true rest
      | .long _ _ => .usageError
      | .operand "help" => helpRequest rest
      | .operand name =>
        match Subcommand.ofName? name with
        | some sub => sub.request verbose rest
        | none => .usageError

end Arguments

/-- Reads the arguments of the command. -/
def Request.parse (args : List Bytes) : Request :=
  Arguments.requestFrom false args

end NamedMutex
