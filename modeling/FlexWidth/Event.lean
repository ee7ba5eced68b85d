import FlexWidth.Tree.Basic

/-!
# Events

What the front end reports about its own work, in the order in which it happens.
-/

namespace FlexWidth

/-- A step of the front end that is worth a line in the log. -/
inductive Event where
  /-- The source was cut into tokens, the end of input among them. -/
  | tokenized (count : Nat)
  /-- The tokens were read as statements. -/
  | parsed (count : Nat)
  /-- A name got a symbol in the scope of the given depth. -/
  | declared (name : String) (symbol : SymbolId) (depth : Nat)
  /-- Every name was bound; this many symbols exist. -/
  | resolved (count : Nat)
  /-- A conversion between the described types was inserted. -/
  | converted (source target : String)
  /-- A variable took the default integer type. -/
  | defaulted (name : String)
  /-- A loop variable took the default integer type. -/
  | defaultedLoop (name : String)
  /-- Every node has a type; this many types exist. -/
  | typed (count : Nat)
deriving DecidableEq, Repr

namespace Event

/-- The line that reports an event. -/
def message : Event → String
  | tokenized count => "produced " ++ toString count ++ " tokens"
  | parsed count => "parsed " ++ toString count ++ " top-level statements"
  | declared name symbol depth =>
    "declared `" ++ name ++ "` as SymbolId(" ++ toString symbol.index ++ ") at scope depth " ++
      toString depth
  | resolved count => "resolved " ++ toString count ++ " symbols"
  | converted source target => "inserted conversion " ++ source ++ " -> " ++ target
  | defaulted name => "defaulted `" ++ name ++ "` to int(32)"
  | defaultedLoop name => "defaulted loop variable `" ++ name ++ "` to int(32)"
  | typed count => "type universe holds " ++ toString count ++ " types"

end Event

end FlexWidth
