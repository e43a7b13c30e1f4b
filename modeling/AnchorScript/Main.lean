import AnchorScript.Json.Printer
import AnchorScript.Settings.Basic
import AnchorScript.Web.Service

/-!
# The program

Settings are taken from the working directory and the environment. Every line
of the standard input is a request, a method and a target; every response is
written as a line with its status and a line with its body.
-/

namespace AnchorScript.Program

/-- The variables that can change settings. -/
def variableNames : List String :=
  ["STLREADER__CONTENT_DIR", "STLREADER__LISTEN", "STLREADER__LOG_LEVEL",
    "STLREADER__SOURCES__NAV", "STLREADER__SOURCES__TOOLS",
    "STLREADER__SOURCES__DOCS_NAV", "STLREADER__SOURCES__ASO"]

/-- The cause of a read that failed. -/
def causeOf : IO.Error → ReadCause
  | .noFileOrDirectory .. => .missing
  | .inappropriateType .. => .notDirectory
  | other => ⟨.other, toString other⟩

/-- Read the text of a file. -/
def readText (path : String) : IO (Except ReadCause String) := do
  try
    let content ← IO.FS.readBinFile path
    return (FileTree.file content).text
  catch failure =>
    return .error (causeOf failure)

/-- The working directory, as far as settings are concerned. -/
def settingsTree : IO FileTree := do
  let names := ["", ".toml", ".json"].map (Environment.programName ++ ·)
  let members ← names.filterMapM fun (name : String) => do
    try
      let content ← IO.FS.readBinFile name
      return some (name, FileTree.file content)
    catch _ =>
      return none
  return .directory members

/-- The variables that are set. -/
def environment : IO (List (String × String)) :=
  variableNames.filterMapM fun name => do
    return (← IO.getEnv name).map fun value => (name, value)

/-- The request in a line: a method, a blank and a target. -/
def requestOf (line : String) : Request :=
  match Text.cut? ' ' (Text.trim line.toList) with
  | some (method, target) => ⟨.ofText (String.ofList method), String.ofList target⟩
  | none => ⟨.get, String.ofList (Text.trim line.toList)⟩

/-- Read what a request needs from the content directory. -/
def sourceOf
    (settings : Settings)
    (request : Request) :
    IO (Except ReadCause String) :=
  match (Route.ofTarget? request.target).bind Route.call? with
  | none => return .error .missing
  | some call =>
      let name := call.sourceName settings.sources
      if SourceName.isInside name then
        readText (settings.contentDirectory ++ "/" ++ name)
      else
        return .error .missing

/-- Answer one request after the other. -/
partial def serve
    (settings : Settings)
    (loader : Loader) :
    IO Unit := do
  let line ← (← IO.getStdin).getLine
  if line = "" then return
  let request := requestOf line
  let started ← IO.monoMsNow
  let source ← sourceOf settings request
  let (next, response) := loader.respond (fun _ => source) request
  let elapsed := Json.integer ((← IO.monoMsNow) - started)
  IO.println (toString response.status)
  match response.body with
  | .plain message => IO.println message
  | body => IO.println (((body.envelope? elapsed).map Json.render).getD "")
  serve settings next

end AnchorScript.Program

/-- Load the settings and answer requests. -/
def main : IO UInt32 := do
  match AnchorScript.Settings.load
      (← AnchorScript.Program.settingsTree) (← AnchorScript.Program.environment) with
  | .error fault =>
      IO.eprintln fault.message
      return 1
  | .ok settings =>
      AnchorScript.Program.serve settings
        (AnchorScript.Loader.ofNames settings.sources)
      return 0
