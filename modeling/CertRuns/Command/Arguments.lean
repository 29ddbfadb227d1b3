/-!
# The command line

The operator's program has three commands. Options may stand anywhere behind the command that knows
them; the option that names a configuration may also stand in front of the command.

* `Command`, `Invocation` : what a command line asks for;
* `Flag`, `Given` : options and the values that they are given;
* `readOptions` : the options up to the next word;
* `Invocation.ofArguments` : what a command line asks for. Anything else is a misuse.
-/

namespace CertRuns

inductive Command where
  /-- Run the operator. -/
  | serve (listen ns : Option String)
  /-- Harvest the results of a run. -/
  | harvest
  /-- Show the pod that a run would get. -/
  | renderPod (run podName : String)
  deriving DecidableEq, Repr

/-- The commands that have a page of help. -/
inductive Topic where
  | program
  | serve
  | harvest
  | renderPod
  deriving DecidableEq, Repr

/-- What a command line asks for. -/
inductive Invocation where
  | run (config : Option String) (command : Command)
  | help (topic : Topic)
  | version
  | misuse
  deriving DecidableEq, Repr

namespace CommandLine

/-- An option that takes a value. The value of a path may not be empty. -/
structure Flag where
  name : String
  path : Bool
  deriving DecidableEq, Repr

abbrev Given := List (String × String)

inductive Scan where
  /-- No option is left; the words are what follows. -/
  | words (given : Given) (rest : List String)
  | help
  | version
  | misuse

def configFlag : Flag := ⟨"config", true⟩

def isOption (arg : String) : Bool := arg.startsWith "-" && arg != "-"

/-- The name and the value in an argument with two dashes. -/
def splitLong (arg : String) : String × Option String :=
  let body := arg.toList.drop 2
  let name := body.takeWhile (· != '=')
  match body.drop name.length with
  | '=' :: value => (String.ofList name, some (String.ofList value))
  | _ => (String.ofList name, none)

/-- Give an option a value. It may have one only, and a path has a text. -/
def give? (flags : List Flag) (given : Given) (name value : String) : Option Given :=
  match flags.find? (·.name == name) with
  | none => none
  | some flag =>
    if (given.lookup name).isSome ∨ (flag.path ∧ value = "") then none
    else some ((name, value) :: given)

def short (versioned : Bool) (arg : String) : Scan :=
  match arg.toList with
  | '-' :: 'h' :: _ => .help
  | '-' :: 'V' :: _ => if versioned then .version else .misuse
  | _ => .misuse

def readOptions (flags : List Flag) (versioned : Bool) (given : Given) : List String → Scan
  | [] => .words given []
  | arg :: rest =>
    if arg = "--" ∨ !isOption arg then .words given (arg :: rest)
    else if !arg.startsWith "--" then short versioned arg
    else
      match splitLong arg with
      | ("help", none) => .help
      | ("version", none) => if versioned then .version else .misuse
      | (name, some value) =>
        match give? flags given name value with
        | some given => readOptions flags versioned given rest
        | none => .misuse
      | (name, none) =>
        match rest with
        | [] => .misuse
        | value :: rest =>
          if isOption value then .misuse
          else
            match give? flags given name value with
            | some given => readOptions flags versioned given rest
            | none => .misuse

/-- A command with its name, its options and how it is made of their values. -/
structure Spec where
  name : String
  topic : Topic
  flags : List Flag
  build : Given → Option Command

def specs : List Spec := [
  { name := "serve"
    topic := .serve
    flags := [⟨"listen", false⟩, ⟨"namespace", false⟩]
    build := fun given => some (.serve (given.lookup "listen") (given.lookup "namespace")) },
  { name := "harvest", topic := .harvest, flags := [], build := fun _ => some .harvest },
  { name := "render-pod"
    topic := .renderPod
    flags := [⟨"run", true⟩, ⟨"pod-name", false⟩]
    build := fun given => do
      let run ← given.lookup "run"
      return .renderPod run ((given.lookup "pod-name").getD "cnf-job-run-1") }]

/-- The configuration that is named behind the command, in front of it, or by the environment. A
name in the environment is read even where it is not needed, and may not be empty then. -/
def configuration? (env : Option String) (outer inner : Given) : Option (Option String) :=
  let before := outer.lookup configFlag.name
  let behind := inner.lookup configFlag.name
  if env = some "" ∧ (before.isNone ∨ behind.isNone) then none
  else some (behind <|> before <|> env)

def afterCommand (env : Option String) (outer : Given) (spec : Spec) (args : List String) :
    Invocation :=
  match readOptions (configFlag :: spec.flags) false [] args with
  | .help => .help spec.topic
  | .version => .misuse
  | .misuse => .misuse
  | .words given rest =>
    if rest ≠ [] ∧ rest ≠ ["--"] then .misuse
    else
      match spec.build given, configuration? env outer given with
      | some command, some config => .run config command
      | _, _ => .misuse

/-- What the words behind the command for help ask for. -/
def afterHelp : List String → Invocation
  | [] => .help .program
  | [name] =>
    match specs.find? (·.name == name) with
    | some spec => .help spec.topic
    | none => .misuse
  | _ => .misuse

end CommandLine

open CommandLine in
def Invocation.ofArguments (env : Option String) (args : List String) : Invocation :=
  match readOptions [configFlag] true [] args with
  | .help => .help .program
  | .version => .version
  | .misuse => .misuse
  | .words _ [] => .misuse
  | .words given (name :: rest) =>
    if name = "help" then afterHelp rest
    else
      match specs.find? (·.name == name) with
      | some spec => afterCommand env given spec rest
      | none => .misuse

end CertRuns
