
namespace FlowGraph.Store

inductive Fault where
  | taken
  | badJson
  | badTime
  | unknownStatus (name : String)
  | notText
deriving DecidableEq

end FlowGraph.Store
