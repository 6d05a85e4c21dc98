import FlowGraph.Pattern.Program
import FlowGraph.Pattern.Class
import Std.Data.HashSet
/-!
Matching by trying the continuations of a split in order. A step is tried at one place of the text
only once in a search, since it would fail again; so a search ends after as many tries as there
are steps and places.
-/

namespace FlowGraph.Pattern

abbrev Slots := Array (Option Nat)

namespace Search

def wordAt (ascii : Bool) (text : Array Char) (i : Nat) : Bool :=
  match text[i]? with
  | some c => (if ascii then Class.asciiWord else Class.word).contains c.toNat
  | none => false

def wordBefore (ascii : Bool) (text : Array Char) (i : Nat) : Bool :=
  0 < i && wordAt ascii text (i - 1)

def Look.holds (text : Array Char) (i : Nat) : Look → Bool
  | .start => i = 0
  | .stop => i = text.size
  | .lineStart => i = 0 || text[i - 1]? = some '\n'
  | .lineEnd => i = text.size || text[i]? = some '\n'
  | .anyLineStart => i = 0 || text[i - 1]? = some '\n' ||
      (text[i - 1]? = some '\r' && text[i]? ≠ some '\n')
  | .anyLineEnd => i = text.size || text[i]? = some '\r' ||
      (text[i]? = some '\n' && (i = 0 || text[i - 1]? ≠ some '\r'))
  | .wordBoundary a => wordBefore a text i != wordAt a text i
  | .noWordBoundary a => wordBefore a text i == wordAt a text i
  | .wordStart a => !wordBefore a text i && wordAt a text i
  | .wordEnd a => wordBefore a text i && !wordAt a text i
  | .wordStartHalf a => !wordBefore a text i
  | .wordEndHalf a => !wordAt a text i

structure Thread where
  step : Nat
  place : Nat
  slots : Slots

abbrev Tried := Std.HashSet Nat

def run (p : Program) (text : Array Char) : (fuel : Nat) → Tried → List Thread →
    Option Slots × Tried
  | 0, tried, _ => (none, tried)
  | _, tried, [] => (none, tried)
  | fuel + 1, tried, t :: rest =>
    let key := t.step * (text.size + 1) + t.place
    if tried.contains key then run p text fuel tried rest
    else
      let tried := tried.insert key
      match p.steps[t.step]? with
      | none => run p text fuel tried rest
      | some .done => (some t.slots, tried)
      | some (.take set next) =>
        match text[t.place]? with
        | some c =>
          if set.contains c.toNat then
            run p text fuel tried (⟨next, t.place + 1, t.slots⟩ :: rest)
          else run p text fuel tried rest
        | none => run p text fuel tried rest
      | some (.look l next) =>
        if Look.holds text t.place l then run p text fuel tried (⟨next, t.place, t.slots⟩ :: rest)
        else run p text fuel tried rest
      | some (.save slot next) =>
        run p text fuel tried
          (⟨next, t.place, t.slots.setIfInBounds slot (some t.place)⟩ :: rest)
      | some (.split targets) =>
        run p text fuel tried ((targets.map fun n => ⟨n, t.place, t.slots⟩) ++ rest)

def leftmost (p : Program) (text : Array Char) (slots : Slots) (fuel : Nat) :
    (more : Nat) → (place : Nat) → Tried → Option Slots
  | more, place, tried =>
    match run p text fuel tried [⟨p.start, place, slots⟩] with
    | (some s, _) => some s
    | (none, tried) =>
      match more with
      | 0 => none
      | more + 1 => leftmost p text slots fuel more (place + 1) tried

end Search

end FlowGraph.Pattern
