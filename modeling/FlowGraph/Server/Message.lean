import FlowGraph.Server.Media
import FlowGraph.Wire.Form

namespace FlowGraph.Server

structure Request where
  method : String
  path : String
  query : String
  contentType : Option String
  body : String
deriving DecidableEq

def Request.to (method target : String) (contentType : Option String) (body : String) :
    Request where
  method := method
  path := String.ofList (target.toList.takeWhile (· ≠ '?'))
  query := String.ofList ((target.toList.dropWhile (· ≠ '?')).drop 1)
  contentType := contentType
  body := body

inductive Content where
  | nothing
  | text (s : String)
  | json (v : Json)
deriving DecidableEq

structure Reply where
  status : Nat
  content : Content
deriving DecidableEq

namespace Reply

def ok (v : Json) : Reply := ⟨200, .json v⟩

def bare (status : Nat) : Reply := ⟨status, .nothing⟩

def problem (status : Nat) (message : String) : Reply :=
  ⟨status, .json (.object [("error", .str message)])⟩

def message (text : String) : Reply := ok (.object [("message", .str text)])

end Reply

namespace Request

def maxBody : Nat := 2 * 1024 * 1024

def tooLong (r : Request) : Bool := maxBody < r.body.utf8ByteSize

def decoded {α : Type} (r : Request) (form : Wire.Form α) : Except Nat α :=
  if !r.contentType.any Media.isJson then .error 415
  else if r.tooLong then .error 413
  else
    match form.read r.body with
    | .ok a => .ok a
    | .error .notJson => .error 400
    | .error .otherForm => .error 422

end Request

end FlowGraph.Server
