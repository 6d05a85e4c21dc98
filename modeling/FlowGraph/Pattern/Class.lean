import FlowGraph.Text.Category
import FlowGraph.Text.LetterCase
import FlowGraph.Text.Property
import FlowGraph.Text.Script

namespace FlowGraph.Pattern

open Text

namespace Class

def range (lo hi : Char) : Range := ⟨lo.toNat, hi.toNat⟩

def asciiDigit : CharSet := .ofList [range '0' '9']
def asciiSpace : CharSet := .ofList [range '\t' '\r', range ' ' ' ']
def asciiWord : CharSet :=
  .ofList [range '0' '9', range 'A' 'Z', range 'a' 'z', range '_' '_']

def digit : CharSet := Category.chars [.nd]

def space : CharSet := Property.whiteSpace

def word : CharSet :=
  Property.alphabetic.union <| (Category.chars [.mn, .mc, .me, .nd, .pc]).union <|
    .ofList [⟨0x200C, 0x200D⟩]

def perl? (unicode : Bool) : Char → Option CharSet
  | 'd' => some (if unicode then digit else asciiDigit)
  | 's' => some (if unicode then space else asciiSpace)
  | 'w' => some (if unicode then word else asciiWord)
  | _ => none

def ascii? : String → Option CharSet
  | "alnum" => some (.ofList [range '0' '9', range 'A' 'Z', range 'a' 'z'])
  | "alpha" => some (.ofList [range 'A' 'Z', range 'a' 'z'])
  | "ascii" => some (.ofList [⟨0, 0x7F⟩])
  | "blank" => some (.ofList [range '\t' '\t', range ' ' ' '])
  | "cntrl" => some (.ofList [⟨0, 0x1F⟩, ⟨0x7F, 0x7F⟩])
  | "digit" => some asciiDigit
  | "graph" => some (.ofList [range '!' '~'])
  | "lower" => some (.ofList [range 'a' 'z'])
  | "print" => some (.ofList [range ' ' '~'])
  | "punct" => some (.ofList [range '!' '/', range ':' '@', range '[' '\x60', range '{' '~'])
  | "space" => some asciiSpace
  | "upper" => some (.ofList [range 'A' 'Z'])
  | "word" => some asciiWord
  | "xdigit" => some (.ofList [range '0' '9', range 'A' 'F', range 'a' 'f'])
  | _ => none

def closeCase (a : CharSet) : CharSet :=
  let met := (LetterCase.foldPairs.filter fun (c, f) => a.contains c || a.contains f).map (·.2)
  let more := LetterCase.foldPairs.filter fun (_, f) => met.contains f
  a.union (.ofList (more.flatMap fun (c, f) => [⟨c, c⟩, ⟨f, f⟩]))

def categories : List (List String × List Category) := [
  (["other", "c"], [.cc, .cf, .cn, .co, .cs]), (["control", "cc", "cntrl"], [.cc]),
  (["format", "cf"], [.cf]), (["unassigned", "cn"], [.cn]), (["privateuse", "co"], [.co]),
  (["surrogate", "cs"], [.cs]),
  (["letter", "l"], [.lu, .ll, .lt, .lm, .lo]), (["casedletter", "lc"], [.lu, .ll, .lt]),
  (["lowercaseletter", "ll"], [.ll]), (["modifierletter", "lm"], [.lm]),
  (["otherletter", "lo"], [.lo]), (["titlecaseletter", "lt"], [.lt]),
  (["uppercaseletter", "lu"], [.lu]),
  (["mark", "m", "combiningmark"], [.mn, .mc, .me]), (["spacingmark", "mc"], [.mc]),
  (["enclosingmark", "me"], [.me]), (["nonspacingmark", "mn"], [.mn]),
  (["number", "n"], [.nd, .nl, .no]), (["decimalnumber", "nd", "digit"], [.nd]),
  (["letternumber", "nl"], [.nl]), (["othernumber", "no"], [.no]),
  (["punctuation", "p", "punct"], [.pc, .pd, .ps, .pe, .pi, .pf, .po]),
  (["connectorpunctuation", "pc"], [.pc]), (["dashpunctuation", "pd"], [.pd]),
  (["closepunctuation", "pe"], [.pe]), (["finalpunctuation", "pf"], [.pf]),
  (["initialpunctuation", "pi"], [.pi]), (["otherpunctuation", "po"], [.po]),
  (["openpunctuation", "ps"], [.ps]),
  (["symbol", "s"], [.sm, .sc, .sk, .so]), (["currencysymbol", "sc"], [.sc]),
  (["modifiersymbol", "sk"], [.sk]), (["mathsymbol", "sm"], [.sm]),
  (["othersymbol", "so"], [.so]),
  (["separator", "z"], [.zs, .zl, .zp]), (["lineseparator", "zl"], [.zl]),
  (["paragraphseparator", "zp"], [.zp]), (["spaceseparator", "zs"], [.zs])]

def category? (name : String) : Option CharSet :=
  match name with
  | "any" => some CharSet.empty.complement
  | "ascii" => some (.ofList [⟨0, 0x7F⟩])
  | "assigned" => some (Category.chars [.cn]).complement
  | name => (categories.find? fun c => c.1.contains name).map fun c => Category.chars c.2

def binary? : String → Option CharSet
  | "alphabetic" | "alpha" => some Property.alphabetic
  | "uppercase" | "upper" => some Property.uppercase
  | "lowercase" | "lower" => some Property.lowercase
  | "whitespace" | "wspace" | "space" => some Property.whiteSpace
  | "graphemeextend" | "grext" => some Property.graphemeExtend
  | _ => none

def looseName (cs : List Char) : String :=
  let kept := (cs.filter fun c => !(c = ' ' || c = '_' || c = '-')).map Char.toLower
  String.ofList <| match kept with
    | 'i' :: 's' :: 'c' :: r => 'i' :: 's' :: 'c' :: r
    | 'i' :: 's' :: r => r
    | r => r

def named? (cs : List Char) : Option CharSet :=
  let name := looseName cs
  let binary := if ["cf", "sc", "lc"].contains name then none else binary? name
  binary.or ((category? name).or (Script.chars? name))

def valued? (property value : List Char) : Option CharSet :=
  match looseName property with
  | "gc" | "generalcategory" => category? (looseName value)
  | "sc" | "script" | "scx" | "scriptextensions" => Script.chars? (looseName value)
  | _ => none

end Class

end FlowGraph.Pattern
