import FlexWidth.Tree.Basic

/-!
# Symbols

A symbol is one variable of a program. The symbol table owns all of them;
symbols are only ever added, and the type of a symbol is set at most once.
-/

namespace FlexWidth

/-- The statement that introduced a symbol. -/
inductive Origin where
  | declaration
  | assignment
  | loopVariable
deriving DecidableEq, Repr

/-- A variable: its name, where it comes from, and its type once that is known. -/
structure Symbol where
  name : String
  origin : Origin
  type : Option TypeId
deriving DecidableEq, Repr

/-- Every symbol of a program. -/
structure SymbolTable where
  symbols : Array Symbol
deriving DecidableEq, Repr

namespace SymbolTable

/-- The table without symbols. -/
def empty : SymbolTable := ⟨#[]⟩

/-- The number of symbols. -/
def size (table : SymbolTable) : Nat := table.symbols.size

/-- The symbol of a handle. -/
def get? (table : SymbolTable) (id : SymbolId) : Option Symbol := table.symbols[id.index]?

/-- A new symbol, still without a type. -/
def add (table : SymbolTable) (name : String) (origin : Origin) : SymbolId × SymbolTable :=
  (⟨table.symbols.size⟩, ⟨table.symbols.push ⟨name, origin, none⟩⟩)

/-- Sets the type of a symbol and says whether that was done: a symbol that has
a type keeps it. -/
def setType? (table : SymbolTable) (id : SymbolId) (type : TypeId) : Option (Bool × SymbolTable) :=
  match table.get? id with
  | some symbol =>
    match symbol.type with
    | some _ => some (false, table)
    | none => some (true, ⟨table.symbols.setIfInBounds id.index { symbol with type := some type }⟩)
  | none => none

end SymbolTable

end FlexWidth
