namespace FlowGraph.Http

def isTokenChar (c : Char) : Bool :=
  c.isAlphanum || ['!', '#', '$', '%', '&', '\'', '*', '+', '-', '.', '^', '_', '\x60', '|',
    '~'].contains c

def isToken (s : String) : Bool := s ≠ "" && s.toList.all isTokenChar

end FlowGraph.Http
