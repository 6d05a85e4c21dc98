import FlowGraph.Pattern.Class
import FlowGraph.Pattern.Expr
import FlowGraph.Decimal.Nearest
import FlowGraph.Text.Blank

namespace FlowGraph.Pattern.Reader

open Text

structure Flags where
  ignoreCase : Bool
  multiLine : Bool
  dotAll : Bool
  swapGreed : Bool
  unicode : Bool
  anyLineEnd : Bool
  verbose : Bool
deriving DecidableEq

def Flags.initial : Flags := ⟨false, false, false, false, true, false, false⟩

def Flags.set (f : Flags) (on : Bool) : Char → Option Flags
  | 'i' => some { f with ignoreCase := on }
  | 'm' => some { f with multiLine := on }
  | 's' => some { f with dotAll := on }
  | 'U' => some { f with swapGreed := on }
  | 'u' => some { f with unicode := on }
  | 'R' => some { f with anyLineEnd := on }
  | 'x' => some { f with verbose := on }
  | _ => none

structure State where
  rest : List Char
  groups : Nat
  names : List (String × Nat)

structure Piece where
  expr : Expr
  depth : Nat
  repeatable : Bool

def maxDepth : Nat := 250
def maxCount : Nat := Nat.pow 2 32 - 1

def skipBlanks : (comment : Bool) → List Char → List Char
  | _, [] => []
  | true, c :: r => skipBlanks (c ≠ '\n') r
  | false, c :: r =>
    if isBlank c then skipBlanks false r
    else if c = '#' then skipBlanks true r
    else c :: r

def skip (f : Flags) (cs : List Char) : List Char := if f.verbose then skipBlanks false cs else cs

inductive Atom where
  | char (code : Nat) (byte : Bool)
  | set (s : CharSet)
  | look (l : Look)

def isHexDigit (c : Char) : Bool :=
  c.isDigit || ('a' ≤ c && c ≤ 'f') || ('A' ≤ c && c ≤ 'F')

def hexCode (cs : List Char) : Option Nat :=
  let n := cs.foldl (fun n c => 16 * n + Table.hexValue c.toLower) 0
  if cs ≠ [] ∧ cs.all isHexDigit ∧ n.isValidChar then some n else none

def take (f : Flags) : Nat → List Char → Option (List Char × List Char)
  | 0, cs => some ([], cs)
  | n + 1, cs =>
    match skip f cs with
    | c :: r => (take f n r).map fun (ds, r) => (c :: ds, r)
    | [] => none

def braced (f : Flags) (cs : List Char) : Option (List Char × List Char) :=
  go (cs.length + 1) cs
where
  go : Nat → List Char → Option (List Char × List Char)
    | 0, _ => none
    | fuel + 1, cs =>
      match skip f cs with
      | '}' :: r => some ([], r)
      | c :: r => (go fuel r).map fun (ds, r) => (c :: ds, r)
      | [] => none

def hexEscape (f : Flags) (digits : Nat) (cs : List Char) : Option (Atom × List Char) :=
  match skip f cs with
  | '{' :: r => do
    let (ds, r) ← braced f r
    return (.char (← hexCode ds) false, r)
  | cs => do
    let (ds, r) ← take f digits cs
    return (.char (← hexCode ds) (digits = 2), r)

def splitOn (mark : List Char) : (fuel : Nat) → List Char → Option (List Char × List Char)
  | 0, _ => none
  | fuel + 1, cs =>
    if mark.isPrefixOf cs then some ([], cs.drop mark.length)
    else match cs with
      | c :: r => (splitOn mark fuel r).map fun (p, q) => (c :: p, q)
      | [] => none

def closed (f : Flags) (s : CharSet) : CharSet := if f.ignoreCase then Class.closeCase s else s

def turned (negated : Bool) (s : CharSet) : CharSet := if negated then s.complement else s

def propertySet (f : Flags) (negated : Bool) (name : List Char) : Option CharSet := do
  if !f.unicode then none
  let n := name.length + 1
  let (negated, s) ← match splitOn ['!', '='] n name with
    | some (p, v) => pure (!negated, ← Class.valued? p v)
    | none => match (splitOn [':'] n name).or (splitOn ['='] n name) with
      | some (p, v) => pure (negated, ← Class.valued? p v)
      | none => pure (negated, ← Class.named? name)
  return turned negated (closed f s)

def propertyEscape (f : Flags) (negated : Bool) (cs : List Char) :
    Option (Atom × List Char) :=
  match skip f cs with
  | '{' :: r => do
    let (name, r) ← braced f r
    return (.set (← propertySet f negated name), r)
  | '\\' :: _ => none
  | c :: r => do
    if !f.unicode then none
    return (.set (turned negated (closed f (← Class.category? (Class.looseName [c])))), r)
  | [] => none

def perlEscape (f : Flags) (c : Char) : Option Atom := do
  let negated := c.isUpper
  let s ← Class.perl? f.unicode c.toLower
  return .set (turned negated s)

def isBoundaryChar (c : Char) : Bool := c.isAlpha || c = '-'

def boundary (f : Flags) (cs : List Char) : Option (Look × List Char) :=
  let ascii := !f.unicode
  match cs with
  | '{' :: r =>
    match skip f r with
    | [] => none
    | c :: r' =>
      if isBoundaryChar c then do
        let (name, r) ← braced f (c :: r')
        let l ← match String.ofList name with
          | "start" => some (.wordStart ascii)
          | "end" => some (.wordEnd ascii)
          | "start-half" => some (.wordStartHalf ascii)
          | "end-half" => some (.wordEndHalf ascii)
          | _ => none
        return (l, r)
      else some (.wordBoundary ascii, cs)
  | _ => some (.wordBoundary ascii, cs)

def isEscapable (c : Char) : Bool := c.toNat < 0x80 && !c.isAlphanum

def escape (f : Flags) : List Char → Option (Atom × List Char)
  | [] => none
  | c :: r =>
    let char (n : Nat) : Option (Atom × List Char) := some (.char n false, r)
    let look (l : Look) : Option (Atom × List Char) := some (.look l, r)
    match c with
    | 'x' => hexEscape f 2 r
    | 'u' => hexEscape f 4 r
    | 'U' => hexEscape f 8 r
    | 'p' => propertyEscape f false r
    | 'P' => propertyEscape f true r
    | 'd' | 's' | 'w' | 'D' | 'S' | 'W' => (perlEscape f c).map (·, r)
    | 'a' => char 7
    | 'f' => char 12
    | 't' => char 9
    | 'n' => char 10
    | 'r' => char 13
    | 'v' => char 11
    | 'A' => look .start
    | 'z' => look .stop
    | 'b' => (boundary f r).map fun (l, r) => (.look l, r)
    | 'B' => look (.noWordBoundary !f.unicode)
    | '<' => look (.wordStart !f.unicode)
    | '>' => look (.wordEnd !f.unicode)
    | c => if isEscapable c then char c.toNat else none

def classAtom (f : Flags) : List Char → Option (Atom × List Char)
  | '\\' :: r => escape f r
  | c :: r => some (.char c.toNat false, r)
  | [] => none

def single (f : Flags) (code : Nat) (byte : Bool) : Option CharSet :=
  if !f.unicode ∧ 0x80 ≤ code ∧ byte then none else some (.single code)

def classItem (f : Flags) (cs : List Char) : Option (CharSet × List Char) := do
  let (a, r) ← classAtom f cs
  let item : Option (CharSet × List Char) := match a with
    | .char n b => (single f n b).map (·, r)
    | .set s => some (s, r)
    | .look _ => none
  match skip f r with
  | [] => none
  | '-' :: r' =>
    match skip f r' with
    | [] => none
    | ']' :: _ | '-' :: _ => item
    | r'' => do
      let (b, r) ← classAtom f r''
      match a, b with
      | .char lo _, .char hi _ => if lo ≤ hi then return (.ofList [⟨lo, hi⟩], r) else none
      | _, _ => none
  | _ => item

def asciiClass? (f : Flags) : List Char → Option (CharSet × List Char)
  | '[' :: ':' :: r =>
    let (negated, r) := match r with
      | '^' :: r => (true, r)
      | r => (false, r)
    let name := r.takeWhile (· ≠ ':')
    match r.drop name.length with
    | ':' :: ']' :: r =>
      (Class.ascii? (String.ofList name)).map fun s => (turned negated (closed f s), r)
    | _ => none
  | _ => none

inductive SetOp where
  | inter | diff | symmDiff

def SetOp.apply : SetOp → CharSet → CharSet → CharSet
  | .inter => CharSet.inter
  | .diff => CharSet.diff
  | .symmDiff => CharSet.symmDiff

def combine (f : Flags) (pending : Option (SetOp × CharSet)) (s : CharSet) : CharSet :=
  match pending with
  | some (op, lhs) => op.apply (closed f lhs) (closed f s)
  | none => s

def classOpening (f : Flags) (cs : List Char) : Bool × CharSet × List Char :=
  let (negated, cs) := match skip f cs with
    | '^' :: r => (true, skip f r)
    | cs => (false, cs)
  let (dashes, cs) := hyphens (cs.length + 1) cs
  match dashes, cs with
  | false, ']' :: r => (negated, .single ']'.toNat, r)
  | false, cs => (negated, .empty, cs)
  | true, cs => (negated, .single '-'.toNat, cs)
where
  hyphens : Nat → List Char → Bool × List Char
    | 0, cs => (false, cs)
    | fuel + 1, cs =>
      match cs with
      | '-' :: r => (true, (hyphens fuel (skip f r)).2)
      | cs => (false, cs)

def classRest (f : Flags) : (fuel : Nat) → (negated : Bool) → Option (SetOp × CharSet) →
    (items : CharSet) → (depth : Nat) → List Char → Option (CharSet × Nat × List Char)
  | 0, _, _, _, _, _ => none
  | fuel + 1, negated, pending, items, depth, cs =>
    match skip f cs with
    | [] => none
    | ']' :: r => some (turned negated (closed f (combine f pending items)), depth + 1, r)
    | '[' :: r =>
      match asciiClass? f ('[' :: r) with
      | some (s, r) => classRest f fuel negated pending (items.union s) depth r
      | none =>
        let (n, s, r) := classOpening f r
        match classRest f fuel n none s 0 r with
        | some (s, d, r) => classRest f fuel negated pending (items.union s) (max depth d) r
        | none => none
    | '&' :: '&' :: r =>
      classRest f fuel negated (some (.inter, combine f pending items)) .empty depth r
    | '-' :: '-' :: r =>
      classRest f fuel negated (some (.diff, combine f pending items)) .empty depth r
    | '~' :: '~' :: r =>
      classRest f fuel negated (some (.symmDiff, combine f pending items)) .empty depth r
    | cs =>
      match classItem f cs with
      | some (s, r) => classRest f fuel negated pending (items.union s) depth r
      | none => none

def isAscii (s : CharSet) : Bool := s.ranges.all fun r => r.hi < 0x80

def legalSet (f : Flags) (s : CharSet) : Option CharSet :=
  if f.unicode ∨ isAscii s then some s
  else
    let t := s.inter (.ofList [⟨0, 0x7F⟩])
    if f.ignoreCase ∧ closed f t = s then some t else none

def charExpr (f : Flags) (code : Nat) (byte : Bool) : Option Expr := do
  let s ← single f code byte
  if f.unicode then return .chars (closed f s)
  else if code < 0x80 then return .chars ((closed f s).inter (.ofList [⟨0, 0x7F⟩]))
  else return .chars s

def atomExpr (f : Flags) : Atom → Option Expr
  | .char n b => charExpr f n b
  | .set s => (legalSet f s).map .chars
  | .look l => some (.look l)

def dot (f : Flags) : Option Expr :=
  if !f.unicode then none
  else if f.dotAll then some (.chars CharSet.empty.complement)
  else if f.anyLineEnd then some (.chars (CharSet.ofList [⟨10, 10⟩, ⟨13, 13⟩]).complement)
  else some (.chars (CharSet.single 10).complement)

def lineStart (f : Flags) : Look :=
  if f.multiLine then if f.anyLineEnd then .anyLineStart else .lineStart else .start

def lineEnd (f : Flags) : Look :=
  if f.multiLine then if f.anyLineEnd then .anyLineEnd else .lineEnd else .stop

def concat (ps : List Piece) : Piece :=
  match ps with
  | [] => ⟨.empty, 0, true⟩
  | [p] => p
  | ps => ⟨ps.foldr (fun p e => .cat p.expr e) .empty,
      ps.foldl (fun d p => max d p.depth) 0 + 1, true⟩

def alternate (ps : List Piece) : Piece :=
  match ps with
  | [] => ⟨.empty, 0, true⟩
  | [p] => p
  | p :: rest => ⟨branch p.expr (rest.map (·.expr)),
      (p :: rest).foldl (fun d p => max d p.depth) 0 + 1, true⟩
where
  branch (e : Expr) : List Expr → Expr
    | [] => e
    | x :: xs => .alt e (branch x xs)

def greed (f : Flags) (cs : List Char) : Bool × List Char :=
  match cs with
  | '?' :: r => (f.swapGreed, r)
  | cs => (!f.swapGreed, cs)

def repetition (min : Nat) (max : Option Nat) (greedy : Bool) (p : Piece) : Piece :=
  let body := p.expr
  let expr := match max with
    | some 0 => .empty
    | some 1 => if min = 1 then body else .rep min max greedy body
    | _ => .rep min max greedy body
  ⟨expr, p.depth + 1, true⟩

def count (cs : List Char) : Option (Nat × List Char) :=
  let cs := cs.dropWhile isBlank
  let ds := cs.takeWhile Char.isDigit
  let n := Decimal.digitsValue ds
  if ds ≠ [] ∧ n ≤ maxCount then some (n, (cs.drop ds.length).dropWhile isBlank) else none

def bounds (f : Flags) (cs : List Char) : Option (Nat × Option Nat × List Char) := do
  let (min, r) ← count (skip f cs)
  match r with
  | ',' :: r =>
    match skip f r with
    | '}' :: r => return (min, none, r)
    | r => do
      let (max, r) ← count r
      match r with
      | '}' :: r => if min ≤ max then return (min, some max, r) else none
      | _ => none
  | '}' :: r => return (min, some min, r)
  | _ => none

def flagItems (f : Flags) : (on : Bool) → (seen : List Char) → List Char →
    Option (Flags × List Char × Char × List Char)
  | _, _, [] => none
  | on, seen, c :: r =>
    if c = ':' ∨ c = ')' then
      if seen.head? = some '-' then none else some (f, seen, c, r)
    else if seen.contains c then none
    else if c = '-' then flagItems f false (c :: seen) r
    else match f.set on c with
      | some f => flagItems f on (c :: seen) r
      | none => none

def isNameStart (c : Char) : Bool := c = '_' || Property.alphabetic.contains c.toNat

def isNameChar (c : Char) : Bool :=
  isNameStart c || c = '.' || c = '[' || c = ']' ||
    [Category.nd, .nl, .no].contains (Category.ofChar c)

def groupName (cs : List Char) : Option (String × List Char) :=
  let name := cs.takeWhile (· ≠ '>')
  match name, cs.drop name.length with
  | c :: r, '>' :: rest =>
    if isNameStart c ∧ r.all isNameChar then some (String.ofList (c :: r), rest) else none
  | _, _ => none

inductive Opening where
  | capture (name : Option String) (rest : List Char)
  | plain (f : Flags) (rest : List Char)
  | setFlags (f : Flags) (rest : List Char)

def opening (f : Flags) (cs : List Char) : Option Opening :=
  match skip f cs with
  | '?' :: '=' :: _ | '?' :: '!' :: _ | '?' :: '<' :: '=' :: _ | '?' :: '<' :: '!' :: _ => none
  | '?' :: 'P' :: '<' :: r | '?' :: '<' :: r =>
    (groupName r).map fun (n, r) => .capture (some n) r
  | '?' :: r =>
    match flagItems f true [] r with
    | some (g, _, ':', r) => some (.plain g r)
    | some (_, [], _, _) => none
    | some (g, _, _, r) => some (.setFlags g r)
    | none => none
  | cs => some (.capture none cs)

def State.open? (s : State) (name : Option String) (rest : List Char) : Option State :=
  match name with
  | none => some ⟨rest, s.groups + 1, s.names⟩
  | some n =>
    if (s.names.lookup n).isSome then none
    else some ⟨rest, s.groups + 1, (n, s.groups + 1) :: s.names⟩

def alternatives : (fuel : Nat) → Flags → (inGroup : Bool) → (done cur : List Piece) → State →
    Option (Piece × State)
  | 0, _, _, _, _, _ => none
  | fuel + 1, f, inGroup, done, cur, s =>
    let finish (r : List Char) : Option (Piece × State) :=
      some (alternate (concat cur.reverse :: done).reverse, { s with rest := r })
    let push (p : Piece) (r : List Char) : Option (Piece × State) :=
      alternatives fuel f inGroup done (p :: cur) { s with rest := r }
    let again (min : Nat) (max : Option Nat) (r : List Char) : Option (Piece × State) :=
      match cur with
      | p :: ps =>
        if p.repeatable then
          let (greedy, r) := greed f r
          alternatives fuel f inGroup done (repetition min max greedy p :: ps) { s with rest := r }
        else none
      | [] => none
    match skip f s.rest with
    | [] => if inGroup then none else finish []
    | ')' :: r => if inGroup then finish r else none
    | '|' :: r =>
      alternatives fuel f inGroup (concat cur.reverse :: done) [] { s with rest := r }
    | '(' :: r =>
      match opening f r with
      | none => none
      | some (.setFlags g r) =>
        alternatives fuel g inGroup done (⟨.empty, 0, false⟩ :: cur) { s with rest := r }
      | some (.plain g r) =>
        match alternatives fuel g true [] [] { s with rest := r } with
        | some (p, s) =>
          alternatives fuel f inGroup done (⟨p.expr, p.depth + 1, true⟩ :: cur) s
        | none => none
      | some (.capture name r) =>
        match s.open? name r with
        | none => none
        | some t =>
          match alternatives fuel f true [] [] t with
          | some (p, s) =>
            alternatives fuel f inGroup done
              (⟨.group t.groups p.expr, p.depth + 1, true⟩ :: cur) s
          | none => none
    | '[' :: r =>
      let (n, items, r) := classOpening f r
      match classRest f fuel n none items 0 r with
      | some (set, d, r) =>
        match legalSet f set with
        | some set => push ⟨.chars set, d, true⟩ r
        | none => none
      | none => none
    | '?' :: r => again 0 (some 1) r
    | '*' :: r => again 0 none r
    | '+' :: r => again 1 none r
    | '{' :: r =>
      match bounds f r with
      | some (min, max, r) => again min max (skip f r)
      | none => none
    | '\\' :: r =>
      match escape f r with
      | some (a, r) =>
        match atomExpr f a with
        | some e => push ⟨e, 0, true⟩ r
        | none => none
      | none => none
    | '.' :: r =>
      match dot f with
      | some e => push ⟨e, 0, true⟩ r
      | none => none
    | '^' :: r => push ⟨.look (lineStart f), 0, true⟩ r
    | '$' :: r => push ⟨.look (lineEnd f), 0, true⟩ r
    | c :: r =>
      match charExpr f c.toNat false with
      | some e => push ⟨e, 0, true⟩ r
      | none => none

def read (s : String) : Option (Expr × Nat × List (String × Nat)) :=
  let cs := s.toList
  match alternatives (cs.length + 1) .initial false [] [] ⟨cs, 0, []⟩ with
  | some (p, t) => if p.depth ≤ maxDepth then some (p.expr, t.groups, t.names) else none
  | none => none

end FlowGraph.Pattern.Reader
