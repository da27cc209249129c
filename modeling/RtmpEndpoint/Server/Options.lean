import RtmpEndpoint.Session.Config

/-!
# Options

The command line of the server. Options are long, with their value in the same word behind an
equals sign or in the next word. What the command line leaves open is looked up in the environment,
then a default holds.
-/

namespace RtmpEndpoint.Server

/-- The options that take a value, in the order in which the environment is asked for them. -/
inductive OptionName where
  | bind
  | chunkSize
  | windowAckSize
  | peerBandwidth
  | app
  deriving DecidableEq, Repr

namespace OptionName

def all : List OptionName := [bind, chunkSize, windowAckSize, peerBandwidth, app]

def long : OptionName → String
  | bind => "bind"
  | chunkSize => "chunk-size"
  | windowAckSize => "window-ack-size"
  | peerBandwidth => "peer-bandwidth"
  | app => "app"

def environmentName : OptionName → String
  | bind => "RTMP_BIND"
  | chunkSize => "RTMP_CHUNK_SIZE"
  | windowAckSize => "RTMP_WINDOW_ACK_SIZE"
  | peerBandwidth => "RTMP_PEER_BANDWIDTH"
  | app => "RTMP_APPS"

def ofLong? (name : String) : Option OptionName := all.find? (·.long == name)

end OptionName

inductive OptionError where
  | unknownArgument (word : String)
  | missingValue (name : OptionName)
  /-- Help takes no value. -/
  | unwantedValue
  | notANumber (name : OptionName) (value : String)
  /-- Only `--app` may be given more than once. -/
  | repeated (name : OptionName)
  | helpRequested
  deriving DecidableEq, Repr

def OptionError.message : OptionError → String
  | unknownArgument word => "unexpected argument " ++ word
  | missingValue name => "a value is required for --" ++ name.long
  | unwantedValue => "--help takes no value"
  | notANumber name value => "invalid value " ++ value ++ " for --" ++ name.long
  | repeated name => "--" ++ name.long ++ " cannot be used more than once"
  | helpRequested => "usage: [--bind ADDRESS] [--chunk-size N] [--window-ack-size N] "
      ++ "[--peer-bandwidth N] [--app NAME,...]"

/-- What has been given so far. -/
structure Given where
  bind : Option String := none
  chunkSize : Option UInt32 := none
  windowAckSize : Option UInt32 := none
  peerBandwidth : Option UInt32 := none
  apps : Option (List String) := none
  deriving DecidableEq, Repr

namespace Given

def has (given : Given) : OptionName → Bool
  | .bind => given.bind.isSome
  | .chunkSize => given.chunkSize.isSome
  | .windowAckSize => given.windowAckSize.isSome
  | .peerBandwidth => given.peerBandwidth.isSome
  | .app => given.apps.isSome

/-- The number of 32 bits that the digits spell. -/
def ofDigits? (digits : List Char) : Option UInt32 :=
  if digits.isEmpty || !digits.all Char.isDigit then none
  else
    let n := digits.foldl (fun n c => 10 * n + (c.toNat - '0'.toNat)) 0
    if n ≤ 0xffffffff then some (UInt32.ofNat n) else none

/-- A decimal number with an optional sign. Of the negative ones only zero is in range. -/
def number? (text : String) : Option UInt32 :=
  match text.toList with
  | '+' :: digits => ofDigits? digits
  | '-' :: digits => (ofDigits? digits).filter (· = 0)
  | digits => ofDigits? digits

def readNumber (name : OptionName) (value : String) : Except OptionError UInt32 :=
  match number? value with
  | some n => .ok n
  | none => .error (.notANumber name value)

/-- Takes up the value of an option. App names are separated by commas. -/
def add (given : Given) (name : OptionName) (value : String) : Except OptionError Given :=
  if name ≠ .app ∧ given.has name then .error (.repeated name)
  else match name with
    | .bind => .ok { given with bind := some value }
    | .chunkSize => (readNumber name value).map fun n => { given with chunkSize := some n }
    | .windowAckSize =>
      (readNumber name value).map fun n => { given with windowAckSize := some n }
    | .peerBandwidth =>
      (readNumber name value).map fun n => { given with peerBandwidth := some n }
    | .app => .ok { given with apps := some (given.apps.getD [] ++ value.splitOn ",") }

end Given

/-- The option that the last word belonged to. Its value is judged when the next option comes. -/
inductive Pending where
  | none
  | named (name : OptionName)
  | valued (name : OptionName) (value : String)

def Given.settle (given : Given) : Pending → Except OptionError Given
  | .none => .ok given
  | .named name => .error (.missingValue name)
  | .valued name value => given.add name value

/-- The meaning of a word of a command line. -/
inductive Word where
  | endOfOptions
  | long (name : String) (value : Option String)
  | short (flags : List Char)
  | plain
  deriving DecidableEq, Repr

/-- A single dash is no flag. -/
def Word.ofString (word : String) : Word :=
  match word.toList with
  | ['-', '-'] => .endOfOptions
  | '-' :: '-' :: rest =>
    match rest.dropWhile (· ≠ '=') with
    | [] => .long (String.ofList rest) .none
    | _ :: value => .long (String.ofList (rest.takeWhile (· ≠ '='))) (some (String.ofList value))
  | '-' :: flag :: flags => .short (flag :: flags)
  | _ => .plain

/-- Reads the words of a command line. A word that belongs to no option is refused before what
came in front of it is judged. -/
def readWords (given : Given) (pending : Pending) : List String → Except OptionError Given
  | [] => given.settle pending
  | word :: words =>
    match Word.ofString word, pending with
    | .endOfOptions, _ =>
      match words with
      | [] => given.settle pending
      | word :: _ => .error (.unknownArgument word)
    | .long "help" (some _), _ => .error .unwantedValue
    | .long "help" .none, _ | .short ('h' :: _), _ =>
      match given.settle pending with
      | .ok _ => .error .helpRequested
      | .error error => .error error
    | .long long value, _ =>
      match OptionName.ofLong? long with
      | none => .error (.unknownArgument word)
      | some name =>
        match given.settle pending, value with
        | .error error, _ => .error error
        | .ok given, .none => readWords given (.named name) words
        | .ok given, some value =>
          match given.add name value with
          | .ok given => readWords given .none words
          | .error error => .error error
    | .short _, _ => .error (.unknownArgument word)
    | .plain, .named name => readWords given (.valued name word) words
    | .plain, _ => .error (.unknownArgument word)

/-- Asks the environment for the options that were not given. -/
def addVariables (environment : String → Option String) (given : Given) :
    List OptionName → Except OptionError Given
  | [] => .ok given
  | name :: names =>
    match given.has name, environment name.environmentName with
    | false, some value =>
      match given.add name value with
      | .ok given => addVariables environment given names
      | .error error => .error error
    | _, _ => addVariables environment given names

structure Options where
  bind : String := "0.0.0.0:1935"
  chunkSize : UInt32 := 4096
  windowAckSize : UInt32 := 2500000
  peerBandwidth : UInt32 := 2500000
  /-- The app names that clients may connect to. -/
  apps : List String := ["live"]
  deriving DecidableEq, Repr

namespace Options

def ofGiven (given : Given) : Options :=
  let defaults : Options := {}
  { bind := given.bind.getD defaults.bind
    chunkSize := given.chunkSize.getD defaults.chunkSize
    windowAckSize := given.windowAckSize.getD defaults.windowAckSize
    peerBandwidth := given.peerBandwidth.getD defaults.peerBandwidth
    apps := given.apps.getD defaults.apps }

def parse (words : List String) (environment : String → Option String) :
    Except OptionError Options :=
  match readWords {} .none words with
  | .error error => .error error
  | .ok given =>
    match addVariables environment given OptionName.all with
    | .error error => .error error
    | .ok given => .ok (ofGiven given)

def config (options : Options) : Config :=
  { chunkSize := options.chunkSize
    windowAckSize := options.windowAckSize
    peerBandwidth := options.peerBandwidth }

end Options

end RtmpEndpoint.Server
