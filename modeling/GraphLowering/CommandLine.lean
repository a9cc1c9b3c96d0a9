import GraphLowering.Compile.Compiler
import GraphLowering.Document.Load
import GraphLowering.FileSystem
import GraphLowering.Text.Blank

/-!
# The command line

The words of a command line, what they ask for, and what is reported. Reading the graph document and
printing the report is left to the caller.

* `shapeOption?`, `staticOption?` — the values of the two options.
* `Command.ofWords` — what the words ask for.
* `Request.arguments` — the arguments of a run.
* `Command.report` — what is printed and the exit status, once the document has been read.
* `FileSystem.report` — the same on words and known files.
-/

namespace GraphLowering

/-- A shape such as `1x28x28x1`; `scalar` is the shape without dimensions. -/
def shapeOption? (text : String) : Option (List Int) :=
  if text = "scalar" then some []
  else (Text.splitAt 'x' text.toList).mapM Text.int64?

/-- The value of a static argument, such as `1=3,-1`: its position and its integers, with blanks
around them allowed. -/
def staticOption? (text : String) : Option (Nat × List Int) := do
  let (index, values) ← Text.splitFirst? '=' text.toList
  let values ← (Text.splitAt ',' values).mapM fun value => Text.int64? (Text.trim value)
  return (← Text.size? index, values)

/-- What a lowering is asked for: the path of the document, the shapes of the arguments in order,
and the values of static arguments, the latest first. -/
structure Request where
  path : String
  shapes : List (List Int)
  statics : List (Nat × List Int)
  deriving DecidableEq

/-- What has been read of the words of a request. -/
structure Options where
  path : Option String := none
  shapes : List (List Int) := []
  statics : List (Nat × List Int) := []
  deriving DecidableEq

/-- What a command line asks for. -/
inductive Command where
  | usage
  | unknown (word : String)
  | help
  | misuse (message : String)
  | lower (request : Request)
  deriving DecidableEq

/-- The request that the words of a lowering make. -/
def readOptions : List String → Options → Command
  | [], options =>
    match options.path with
    | some path => .lower ⟨path, options.shapes, options.statics⟩
    | none => .misuse "missing <graph.json>"
  | word :: rest, options =>
    if word = "--input" ∨ word = "-i" then
      match rest with
      | value :: rest =>
        match shapeOption? value with
        | some shape => readOptions rest { options with shapes := options.shapes ++ [shape] }
        | none => .misuse "--input requires a shape such as 1x28x28x1"
      | [] => .misuse "--input requires a shape such as 1x28x28x1"
    else if word = "--static" ∨ word = "-s" then
      match rest with
      | value :: rest =>
        match staticOption? value with
        | some entry => readOptions rest { options with statics := entry :: options.statics }
        | none => .misuse "--static requires <index>=<v,v,..>"
      | [] => .misuse "--static requires <index>=<v,v,..>"
    else if word = "--help" ∨ word = "-h" then .help
    else if options.path.isNone then readOptions rest { options with path := some word }
    else .misuse ("Unexpected argument: " ++ word)

namespace Command

/-- What a command line asks for; a leading `ngtf` is passed over. -/
def ofWords (words : List String) : Command :=
  let words := match words with
    | "ngtf" :: rest => rest
    | _ => words
  match words with
  | [] => .usage
  | "translate" :: rest => readOptions rest {}
  | word :: _ => if word = "--help" ∨ word = "-h" then .usage else .unknown word

/-- The path of the document that a command needs. -/
def path? : Command → Option String
  | .lower request => some request.path
  | _ => none

end Command

/-- The positions and types that the argument nodes of a graph declare. -/
def argumentTypes (g : Source.Graph) : List (Nat × DataType) :=
  g.nodes.toList.filterMap fun v =>
    match v.isArgument, v.int "index", v.type "T" with
    | true, .ok index, .ok type => if 0 ≤ index then some (index.toNat, type) else none
    | _, _, _ => none

/-- The type of the argument at a position: the last one declared, or floating-point. -/
def argumentType (g : Source.Graph) (index : Nat) : DataType :=
  ((argumentTypes g).reverse.lookup index).getD .float

/-- The value of a static argument as a vector of the argument's type. -/
def staticVector (type : DataType) (values : List Int) : Tensor :=
  match type with
  | .int32 => .vector32 values
  | _ => .vector64 values

namespace Request

/-- The arguments of a run, one for each shape. -/
def arguments (request : Request) (g : Source.Graph) : List Argument :=
  request.shapes.zipIdx.map fun (shape, index) =>
    let type := argumentType g index
    { type, shape, value := (request.statics.lookup index).map (staticVector type) }

end Request

/-- What a command prints and how it ends. -/
structure Report where
  status : Nat
  out : String := ""
  err : List String := []
  deriving DecidableEq

/-- The usage of the program. -/
def usageLines : List String :=
  ["cargo ngtf: dataflow graph translator",
   "",
   "Usage:",
   "  cargo ngtf translate <graph.json> [--input <shape>]... [--static <i>=<values>]...",
   "",
   "Subcommands:",
   "  translate   Translate a GraphDef JSON file and print the resulting function"]

/-- The usage of a lowering in one line. -/
def requestUsage : String :=
  "Usage: cargo ngtf translate <graph.json> [--input <shape>]... [--static <i>=<values>]..."

/-- The help on a lowering. -/
def helpLines : List String :=
  [requestUsage,
   "",
   "Translate a GraphDef JSON file and print the target function.",
   "",
   "Options:",
   "  -i, --input <SHAPE>     Shape of the next argument, e.g. 1x28x28x1 or scalar",
   "  -s, --static <I=VALS>   Value of static argument I, e.g. 1=3,-1",
   "",
   "Set RUST_LOG=debug to trace each translated op."]

/-- A failure on one line. -/
def failure (line : String) : Report := { status := 1, err := [line] }

namespace Request

/-- The report on a document that has been read. -/
def report (request : Request) (text : String) : Report :=
  match loadGraph text with
  | .error e => failure s!"Error loading {request.path}: {e.message}"
  | .ok g =>
    match prepare g with
    | .error e => failure s!"Error: {e.message}"
    | .ok compiled =>
      match compiled.lower (request.arguments g) with
      | .error e => failure s!"Error translating {request.path}: {e.message}"
      | .ok f =>
        let parameters := f.parameters.length
        let results := f.results.length
        { status := 0
          out := f.text
          err := [s!"Translated {request.path}: {parameters} parameter(s), {results} result(s), " ++
            s!"{f.graph.size} node(s)"] }

end Request

/-- The report on a command, given the document it needs or why that could not be read. -/
def Command.report (command : Command) (document : Except String String) : Report :=
  match command with
  | .usage => { status := 0, err := usageLines }
  | .unknown word =>
    { status := 1, err := ["error: unknown subcommand '" ++ word ++ "'", ""] ++ usageLines }
  | .help => { status := 0, err := helpLines }
  | .misuse message => { status := 1, err := [message, requestUsage] }
  | .lower request =>
    match document with
    | .error reason => failure s!"Error reading {request.path}: {reason}"
    | .ok text => request.report text

/-- The report on the words of a command line that is run among known files. -/
def FileSystem.report (fs : FileSystem) (words : List String) : Report :=
  let command := Command.ofWords words
  let document := match command.path? with
    | some path => (fs.read path).mapError ReadFault.message
    | none => .ok ""
  command.report document

end GraphLowering
