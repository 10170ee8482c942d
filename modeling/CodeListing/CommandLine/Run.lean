import CodeListing.CommandLine.Arguments
import CodeListing.Listing
import CodeListing.Report.Basic
import CodeListing.Settings.Json

/-! # Runs of the program

A run maps arguments, the standard input and the files to what is written and
an exit code. It loads the settings before it reads its input, and writes
nothing to the standard output unless it succeeds. Two things are left out: what
is said about wrong arguments, and a system that refuses to hand over the standard
input or to take the output.
-/

namespace CodeListing.CommandLine

/-- Why a file could not be read as text. -/
inductive ReadProblem where
  | notFound
  | isDirectory
  | notText
  /-- Any other reason, as the system tells it. -/
  | other (reason : String)
  deriving Repr, DecidableEq

namespace ReadProblem

def message : ReadProblem → String
  | .notFound => "No such file or directory (os error 2)"
  | .isDirectory => "Is a directory (os error 21)"
  | .notText => "stream did not contain valid UTF-8"
  | .other reason => reason

end ReadProblem

/-- What a run can read. -/
structure Sources where
  standardInput : ByteArray
  file : String → Except ReadProblem ByteArray

inductive Failure where
  /-- The settings or the input could not be read. -/
  | cannotRead (name : String) (problem : ReadProblem)
  | settings (error : SettingsError)
  deriving Repr

namespace Failure

def message : Failure → String
  | .cannotRead name problem => "Cannot read '" ++ name ++ "': " ++ problem.message
  | .settings error => error.message

end Failure

/-- What a run leaves behind. -/
structure Outcome where
  code : UInt32
  output : String
  errors : String
  deriving Repr, DecidableEq

/-- The text of bytes that were read under the given name. -/
def decode (name : String) (bytes : Except ReadProblem ByteArray) : Except Failure String :=
  match bytes with
  | .error problem => .error (.cannotRead name problem)
  | .ok bytes =>
    match String.fromUTF8? bytes with
    | none => .error (.cannotRead name .notText)
    | some text => .ok text

/-- The settings of the file that the arguments name, or else the default. -/
def fileSettings (sources : Sources) (invocation : Invocation) : Except Failure Settings :=
  match invocation.config with
  | none => .ok {}
  | some name =>
    match decode name (sources.file name) with
    | .error failure => .error failure
    | .ok text => (Settings.ofJson text).mapError .settings

/-- The settings of a run. The arguments go before the file. -/
def loadSettings (sources : Sources) (invocation : Invocation) : Except Failure Settings :=
  (fileSettings sources invocation).map fun settings =>
    match invocation.indentUnit with
    | none => settings
    | some unit => { settings with indentUnit := unit }

/-- The name under which the input is reported. -/
def inputName (invocation : Invocation) : String :=
  if invocation.input = "-" then "<stdin>" else invocation.input

def loadInput (sources : Sources) (invocation : Invocation) : Except Failure String :=
  decode (inputName invocation)
    (if invocation.input = "-" then .ok sources.standardInput else sources.file invocation.input)

def present (wrap : Bool) (settings : Settings) (listing : Listing) : String :=
  let items := listing.html.toList
  let text :=
    if wrap then Markup.orderedList settings.classPrefix.toList listing.lineCount items else items
  String.ofList (text ++ ['\n'])

/-- The reports of warnings about a source text called `name`. -/
def reports (name source : String) (warnings : List Warning) : String :=
  String.ofList (warnings.flatMap (Report.write true name (Text.normalize source.toList)))

/-- The listing that the arguments ask for, as it is written, and the reports. -/
def list (sources : Sources) (invocation : Invocation) : Except Failure (String × String) :=
  match loadSettings sources invocation with
  | .error failure => .error failure
  | .ok settings =>
    match loadInput sources invocation with
    | .error failure => .error failure
    | .ok source =>
      let listing := Listing.ofSource settings source
      let errors :=
        if invocation.warnings then reports (inputName invocation) source listing.warnings else ""
      .ok (present invocation.wrap settings listing, errors)

def versionText : String :=
  "prettifier 0.1.0\n"

def helpText : String :=
  "Highlight JavaScript source as HTML list items\n\n" ++
  "Usage: prettifier [OPTIONS] [INPUT]\n\n" ++
  "Arguments:\n" ++
  "  [INPUT]  Source file to format, or `-` for stdin [default: -]\n\n" ++
  "Options:\n" ++
  "      --config <FILE>     JSON configuration file\n" ++
  "      --indent-unit <PX>  Pixels of left padding per nesting level\n" ++
  "      --wrap              Wrap the list items in an `<ol>` carrying the line count\n" ++
  "      --warnings          Report constructs that were highlighted on a best-effort basis\n" ++
  "  -v, --verbose...        Increase logging verbosity\n" ++
  "  -h, --help              Print help\n" ++
  "  -V, --version           Print version\n"

/-- What a run leaves behind. The code is 2 if the arguments are wrong and 1 if the run
fails. -/
def run (sources : Sources) (arguments : List String) : Outcome :=
  match Invocation.ofArguments arguments with
  | .error .version => ⟨0, versionText, ""⟩
  | .error .help => ⟨0, helpText, ""⟩
  | .error (.misuse _) => ⟨2, "", ""⟩
  | .ok invocation =>
    match list sources invocation with
    | .error failure => ⟨1, "", "prettifier: " ++ failure.message ++ "\n"⟩
    | .ok (output, errors) => ⟨0, output, errors⟩

def files (arguments : List String) : List String :=
  match Invocation.ofArguments arguments with
  | .error _ => []
  | .ok invocation =>
    invocation.config.toList ++ (if invocation.input = "-" then [] else [invocation.input])

/-- Whether a run looks at the standard input, which it does only with good settings. -/
def readsStandardInput (sources : Sources) (arguments : List String) : Bool :=
  match Invocation.ofArguments arguments with
  | .error _ => false
  | .ok invocation => invocation.input = "-" && (loadSettings sources invocation).isOk

end CodeListing.CommandLine
