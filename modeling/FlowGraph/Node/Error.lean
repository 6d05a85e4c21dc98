import FlowGraph.Expression.Error
import FlowGraph.Scope

namespace FlowGraph

inductive HttpFault where
  | invalidMethod (given : String)
  | notBuilt
  | notAnswered
  | bodyCutShort
  | bodyNotJson
deriving DecidableEq

def HttpFault.message : HttpFault → String
  | .invalidMethod given => s!"invalid HTTP method '{given}'"
  | .notBuilt => "<builder error>"
  | .notAnswered => "<send error>"
  | .bodyCutShort => "<body error>"
  | .bodyNotJson => "response body is not valid JSON: <json error>"

def maxDepth : Nat := 32

inductive NodeError where
  | expression (text : String) (cause : Expression.Error)
  | emptyCondition
  | scope (fault : Scope.Fault)
  | invalidPattern (pattern : String)
  | http (method url : String) (fault : HttpFault)
  | workflowNotFound (id : String)
  | tooDeep
  | unknownType (type : String)
  | notALeaf (type : String)
deriving DecidableEq

def NodeError.message : NodeError → String
  | .expression text cause => s!"expression '{text}' failed: {cause.message}"
  | .emptyCondition => "condition expression is empty"
  | .scope fault => fault.message
  | .invalidPattern pattern => s!"invalid pattern '{pattern}': <regex error>"
  | .http method url fault => s!"{method} {url} failed: {fault.message}"
  | .workflowNotFound id => s!"sub-workflow '{id}' not found"
  | .tooDeep => s!"sub-workflow nesting deeper than {maxDepth} levels"
  | .unknownType type => s!"unknown node type '{type}'"
  | .notALeaf type => s!"{type} nodes are dispatched by the execution engine"

end FlowGraph
