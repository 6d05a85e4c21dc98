import FlowGraph.Workflow.Basic

namespace FlowGraph

def TimeUnit.name : TimeUnit → String
  | .seconds => "seconds"
  | .minutes => "minutes"
  | .hours => "hours"
  | .days => "days"

def ItemType.name : ItemType → String
  | .string => "string"
  | .int => "int"
  | .bool => "bool"
  | .keyValue => "keyValue"

def TypedList.toJson (l : TypedList) : Json :=
  .object [
    ("type", .str l.type.name),
    ("stringItems", .strings l.strings),
    ("intItems", .arr (l.ints.map .int)),
    ("boolItems", .arr (l.bools.map .bool)),
    ("keyValueItems", .arr (l.keyValues.map KeyValue.toJson))]

def NodeKind.data : NodeKind → Json
  | .plain | .webhook | .events => .emptyObject
  | .interval t => .object [("interval", .nat t.length), ("intervalType", .str t.unit.name),
      ("weeks", .arr (t.weekdays.map .bool))]
  | .setVariable name value => .object [("name", .str name), ("value", value)]
  | .text message into => .object [("message", .str message), ("variable", .str into)]
  | .condition expression => .object [("expression", .str expression)]
  | .list into items => .object [("variable", .str into), ("list", items.toJson)]
  | .loop iterations => .object [("iteration", .nat iterations)]
  | .forEach listVariable => .object [("listVariable", .str listVariable)]
  | .whileHolds expression limit => .object [("expression", .str expression), ("limit", .nat limit)]
  | .api c => .object [("method", .str c.method), ("url", .str c.url),
      ("headers", .arr (c.headers.map KeyValue.toJson)), ("payload", .str c.payload),
      ("variable", .str c.into)]
  | .log message => .object [("message", .str message)]
  | .getGuid into => .object [("variable", .str into)]
  | .math expression into =>
    .object [("expression", .str expression), ("variable", .str into)]
  | .count listVariable into =>
    .object [("listVariable", .str listVariable), ("variable", .str into)]
  | .map listVariable template into =>
    .object [("listVariable", .str listVariable), ("template", .str template),
      ("variable", .str into)]
  | .replace r => .object [("text", .str r.source), ("pattern", .str r.pattern),
      ("replaceText", .str r.replacement), ("variable", .str r.into)]
  | .findAll source pattern into =>
    .object [("text", .str source), ("pattern", .str pattern), ("variable", .str into)]
  | .subprocess workflow => .object [("subProcessId", .str workflow)]
  | .unknown _ data => data

def Node.data (n : Node) : Json := n.kind.data

def Node.toJson (n : Node) : Json :=
  .object [("id", .str n.id), ("type", .str n.kind.type), ("label", .str n.label),
    ("data", n.data)]

def Edge.toJson (e : Edge) : Json :=
  .object [("id", .str e.id), ("source", .str e.source), ("sourceHandle", .str e.handle),
    ("target", .str e.target)]

def Workflow.toJson (w : Workflow) : Json :=
  .object [("id", .str w.id), ("name", .str w.name), ("description", .str w.description),
    ("nodes", .arr (w.nodes.map Node.toJson)), ("edges", .arr (w.edges.map Edge.toJson))]

end FlowGraph
