import AnchorScript.Page.Lead
import AnchorScript.Selection.Arrangement

namespace AnchorScript

/-!
# Tools

A tool is described by the statements of one source. The first of them whose
target is `Description` carries the scalar fields; the others contribute to the
lists of features, commands, agent tools and schemas by the scope of their
target. A source without a description is no tool.
-/

/-- A capability of a tool and the call that gives it. -/
structure ToolFeature where
  capability : String
  api : String
deriving Repr, DecidableEq

/-- A command of a tool. -/
structure ToolCommand where
  usage : String
  description : String
deriving Repr, DecidableEq

/-- A tool that is offered to agents. -/
structure AgentTool where
  description : String
deriving Repr, DecidableEq

/-- A schema that a tool works with. -/
structure ToolSchema where
  domain : String
  file : String
deriving Repr, DecidableEq

/-- A tool with everything that its source says about it. -/
structure Tool where
  name : String
  description : String
  version : Option String
  language : Option String
  tests : Option String
  linesOfCode : Option String
  modules : Option String
  installation : Option String
  href : Option String
  order : Binary64
  features : List ToolFeature
  commands : List ToolCommand
  agentTools : List AgentTool
  schemas : List ToolSchema
deriving Repr, DecidableEq

namespace Tool

/-- The statement carries the scalar fields of its tool. -/
def isDescription (statement : Statement) : Bool :=
  statement.target.raw = "Description"

/-- The statements of a tool that contribute to the list of a scope. -/
def contributions
    (statements : List Statement)
    (scope : String) :
    List Statement :=
  statements.filter fun statement =>
    !isDescription statement && statement.target.isIn scope

/-- The tool that the statements of one source describe. -/
def ofStatements? (statements : List Statement) : Option Tool :=
  (statements.find? isDescription).map fun carrier =>
    { name := carrier.textOr "name" ""
      description := carrier.textOr "description" ""
      version := carrier.text? "version"
      language := carrier.text? "language"
      tests := carrier.text? "tests"
      linesOfCode := carrier.text? "loc"
      modules := carrier.text? "modules"
      installation := carrier.text? "install"
      href := carrier.text? "href"
      order := carrier.shownOrder
      features :=
        (contributions statements "Feature").map fun statement =>
          ⟨statement.textOr "capability" "", statement.textOr "api" ""⟩
      commands :=
        (contributions statements "Command").map fun statement =>
          ⟨statement.textOr "usage" "", statement.textOr "description" ""⟩
      agentTools :=
        (contributions statements "MCPTool").map fun statement =>
          ⟨statement.textOr "description" ""⟩
      schemas :=
        (contributions statements "Schema").map fun statement =>
          ⟨statement.textOr "domain" "", statement.textOr "file" ""⟩ }

/-- The tools of a document, in the order of the listed sources. -/
def allOf
    (document : Document)
    (sources : List String) :
    List Tool :=
  sources.filterMap fun source => ofStatements? (document.comingFrom source)

/-- The sources that the tools page lists unless it is told otherwise. -/
def standardSources : List String :=
  ["Tool:STL_Parser", "Tool:CLI", "Tool:MCP", "Tool:Schemas"]

/-- The tool as a record. -/
def toJson (tool : Tool) : Json :=
  .record
    ([("name", .text tool.name), ("description", .text tool.description)] ++
      Json.optionalField "version" tool.version ++
      Json.optionalField "language" tool.language ++
      Json.optionalField "tests" tool.tests ++
      Json.optionalField "loc" tool.linesOfCode ++
      Json.optionalField "modules" tool.modules ++
      Json.optionalField "install" tool.installation ++
      Json.optionalField "href" tool.href ++
      [("order", Json.ofNumber tool.order),
        ("features",
          .list (tool.features.map fun feature =>
            .record
              [("capability", .text feature.capability),
                ("api", .text feature.api)])),
        ("commands",
          .list (tool.commands.map fun command =>
            .record
              [("usage", .text command.usage),
                ("description", .text command.description)])),
        ("mcpTools",
          .list (tool.agentTools.map fun agentTool =>
            .record [("description", .text agentTool.description)])),
        ("schemas",
          .list (tool.schemas.map fun schema =>
            .record
              [("domain", .text schema.domain),
                ("file", .text schema.file)]))])

end Tool

end AnchorScript
