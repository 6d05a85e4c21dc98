import FlowGraph.Decimal.Nearest

namespace FlowGraph.Http.Url

def splitAt (mark : Char → Bool) : List Char → List (List Char)
  | [] => [[]]
  | c :: r =>
    match splitAt mark r with
    | [] => [[c]]
    | s :: ss => if mark c then [] :: s :: ss else (c :: s) :: ss

def isControlOrSpace (c : Char) : Bool := c.toNat ≤ 0x20

def clean (cs : List Char) : List Char :=
  let cs := ((cs.dropWhile isControlOrSpace).reverse.dropWhile isControlOrSpace).reverse
  cs.filter fun c => !(c = '\t' || c = '\n' || c = '\r')

def scheme? (cs : List Char) : Option (List Char × List Char) :=
  let s := cs.takeWhile fun c => c.isAlphanum || c = '+' || c = '-' || c = '.'
  match s, cs.drop s.length with
  | c :: _, ':' :: r => if c.isAlpha then some (s.map Char.toLower, r) else none
  | _, _ => none

def isSlash (c : Char) : Bool := c = '/' || c = '\\'

def authority (cs : List Char) : List Char :=
  (cs.dropWhile isSlash).takeWhile fun c => !(isSlash c || c = '?' || c = '#')

def isHexDigit (c : Char) : Bool :=
  c.isDigit || ('a' ≤ c && c ≤ 'f') || ('A' ≤ c && c ≤ 'F')

def hexValue (cs : List Char) : Nat :=
  cs.foldl (fun n c => 16 * n +
    if c.isDigit then c.toNat - '0'.toNat else c.toLower.toNat - 'a'.toNat + 10) 0

def decoded : List Char → List Char
  | '%' :: a :: b :: r =>
    if isHexDigit a ∧ isHexDigit b then Char.ofNat (hexValue [a, b]) :: decoded r
    else '%' :: decoded (a :: b :: r)
  | c :: r => c :: decoded r
  | [] => []

def isForbidden (c : Char) : Bool :=
  c.toNat ≤ 0x20 || c.toNat = 0x7F ||
    ['#', '/', ':', '<', '>', '?', '@', '[', '\\', ']', '^', '|', '%'].contains c

def partValue? (cs : List Char) : Option Nat :=
  match cs with
  | [] => none
  | '0' :: x :: r =>
    if x = 'x' ∨ x = 'X' then if r.all isHexDigit then some (hexValue r) else none
    else if (x :: r).all fun c => '0' ≤ c ∧ c ≤ '7' then
      some ((x :: r).foldl (fun n c => 8 * n + (c.toNat - '0'.toNat)) 0)
    else none
  | cs => if cs.all Char.isDigit then some (Decimal.digitsValue cs) else none

def labels (host : List Char) : List (List Char) :=
  let ls := splitAt (· = '.') host
  if ls.getLast? = some [] then ls.dropLast else ls

def endsInNumber (host : List Char) : Bool :=
  match (labels host).getLast? with
  | some l => l ≠ [] && (l.all Char.isDigit || (partValue? l).isSome)
  | none => false

def isIPv4 (host : List Char) : Bool :=
  match (labels host).mapM partValue? with
  | some ns =>
    ns.length ≤ 4 && ns.dropLast.all (· ≤ 255) &&
      (ns.getLast?.getD 0) < Nat.pow 256 (5 - ns.length)
  | none => false

def isIPv6Group (g : List Char) : Bool := g ≠ [] && g.length ≤ 4 && g.all isHexDigit

def groupCount? : List (List Char) → Option Nat
  | [] => some 0
  | [g] =>
    if isIPv6Group g then some 1
    else
      let ns := splitAt (· = '.') g
      if ns.length = 4 ∧ ns.all (fun n => n ≠ [] ∧ n.all Char.isDigit ∧
          Decimal.digitsValue n ≤ 255 ∧ (n.length = 1 ∨ n.head? ≠ some '0')) then some 2
      else none
  | g :: gs => if isIPv6Group g then (groupCount? gs).map (· + 1) else none

def groups (cs : List Char) : List (List Char) :=
  if cs = [] then [] else splitAt (· = ':') cs

def isIPv6 (cs : List Char) : Bool :=
  match gap cs with
  | some (p, q) =>
    match groupCount? (groups p), groupCount? (groups q) with
    | some m, some n => m + n < 8 && !(p.contains '.')
    | _, _ => false
  | none => groupCount? (groups cs) = some 8
where
  gap : List Char → Option (List Char × List Char)
    | ':' :: ':' :: r => some ([], r)
    | c :: r => (gap r).map fun (p, q) => (c :: p, q)
    | [] => none

def hostAccepted (host : List Char) : Bool :=
  match host with
  | '[' :: r => r.getLast? = some ']' && isIPv6 r.dropLast
  | host =>
    let d := decoded host
    d ≠ [] && !(d.any isForbidden) && (!(endsInNumber d) || isIPv4 d)

def portAccepted (cs : List Char) : Bool :=
  cs.all Char.isDigit && Decimal.digitsValue cs < 65536

def hostAndPort (cs : List Char) : List Char × List Char :=
  let cs := (splitAt (· = '@') cs).getLast?.getD []
  match cs with
  | '[' :: _ =>
    let host := cs.takeWhile (· ≠ ']')
    match cs.drop host.length with
    | ']' :: ':' :: port => (host ++ [']'], port)
    | ']' :: [] => (host ++ [']'], [])
    | r => (host ++ r, [])
  | cs =>
    let host := cs.takeWhile (· ≠ ':')
    (host, (cs.drop host.length).drop 1)

def accepted (s : String) : Bool :=
  match scheme? (clean s.toList) with
  | some (scheme, r) =>
    let (host, port) := hostAndPort (authority r)
    (scheme = "http".toList || scheme = "https".toList) && hostAccepted host && portAccepted port
  | none => false

def withPath (s : String) : String :=
  match s.splitOn "://" with
  | [scheme, r] =>
    let host := (r.toList.takeWhile fun c => !(c = '/' || c = '?' || c = '#'))
    match r.toList.drop host.length with
    | '/' :: _ => s
    | rest => scheme ++ "://" ++ String.ofList (host ++ '/' :: rest)
  | _ => s

end FlowGraph.Http.Url
