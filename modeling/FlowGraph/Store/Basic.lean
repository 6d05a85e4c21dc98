import FlowGraph.Store.History
import FlowGraph.Store.Markers

namespace FlowGraph

structure Store where
  definitions : Store.Definitions
  replay : Store.Replay
  markers : Store.Markers
deriving DecidableEq

def Store.empty : Store := ⟨.empty, [], .empty⟩

end FlowGraph
