import Drydock.Error
import Drydock.LinkMode
import Drydock.Platform
import Drydock.Table

/-!
# Exported symbols and their owners

All modules of a package are loaded into one process, so a global symbol that two modules define
resolves to whichever copy is found first.

* `symbolsOf` — reads a symbol listing.
* `conflictsOf` — every symbol with several owners.
* `checkSymbols` — checks built modules, given a way to read the symbols of a file.
-/

namespace Drydock

/-- The exported symbols of one module. -/
abbrev SymbolTable := NameSet

/-- Kinds that are no definitions: undefined, file, debugging and weak. -/
def isSkippedKind (c : Char) : Bool := c ∈ ['U', 'F', 'N', 'W', 'w']

/-- Characters that begin a name of the toolchain. -/
def isReservedStart (c : Char) : Bool := c ∈ ['_', '$', '.', '@']

/-- The symbol behind a name in a listing: on Darwin every symbol carries an underscore. -/
def plainSymbol (platform : Platform) (name : List Char) : List Char :=
  match platform with
  | .darwin => (Text.dropStart? ['_'] name).getD name
  | .elf => name

/-- The symbol that a line of a listing exports, if it exports one.  The first word is the name and
the second one its kind. -/
def exportOf? (platform : Platform) (line : List Char) : Option String :=
  match Text.wordChars line with
  | name :: kind :: _ =>
      let symbol := plainSymbol platform name
      if kind.any isSkippedKind then none
      else if symbol = [] ∨ symbol.head?.any isReservedStart then none
      else some (.ofList symbol)
  | _ => none

/-- The symbols that a listing exports. -/
def symbolsOf (listing : String) (platform : Platform) : SymbolTable :=
  .ofNames ((Text.lineChars listing.toList).filterMap (exportOf? platform))

/-- Adds `owner` to the owners of the symbols of a table. -/
def addOwner (ignored : List String) (owners : Table (List String))
    (owner : String × SymbolTable) : Table (List String) :=
  (owner.2.keys.filter fun symbol => symbol ∉ ignored).foldl
    (fun owners symbol =>
      owners.insert symbol (((owners.get? symbol).getD []) ++ [owner.1]))
    owners

/-- The symbols that more than one module defines, by rising name, each with its owners in build
order.  Ignored symbols are left out. -/
def conflictsOf (tables : List (String × SymbolTable)) (ignored : List String) :
    List SymbolConflict :=
  ((tables.foldl (addOwner ignored) .empty).entries.filter fun e => 1 < e.2.length).map
    fun (symbol, modules) => ⟨symbol, modules⟩

/-- A module that is built, with its file. -/
structure BuiltModule where
  name : String
  output : Path
  deriving DecidableEq, Inhabited, Repr

/-- Why the symbols were not checked. -/
inductive SkipReason where
  /-- The link mode expects duplicates. -/
  | mode (m : LinkMode)
  /-- The symbols of a module could not be read. -/
  | unreadable (message : String)
  deriving DecidableEq, Repr

/-- The wording of a reason. -/
def SkipReason.text : SkipReason → String
  | mode m => m.word ++ " mode"
  | unreadable message => message

/-- The outcome of a check that found no conflict. -/
inductive SymbolCheck where
  /-- Every symbol has one owner; `symbols` counts all of them. -/
  | clean (symbols : Nat)
  /-- Nothing was checked. -/
  | skipped (reason : SkipReason)
  deriving DecidableEq, Repr

/-- Reads the tables of all modules in turn, up to the first that cannot be read. -/
def readTables [Monad m] (source : Path → m (Except String SymbolTable)) :
    List BuiltModule → m (Except String (List (String × SymbolTable)))
  | [] => return .ok []
  | b :: rest => do
      match ← source b.output with
      | .error message => return .error message
      | .ok table => return (← readTables source rest).map ((b.name, table) :: ·)

/-- The outcome for the tables of all modules. -/
def SymbolCheck.ofTables (tables : List (String × SymbolTable)) (ignored : List String) :
    Except (List SymbolConflict) SymbolCheck :=
  match conflictsOf tables ignored with
  | [] => .ok (.clean ((tables.map fun t => t.2.size).foldl (· + ·) 0))
  | conflicts => .error conflicts

/-- Checks the symbols of built modules.  Nothing is checked in a mode that expects duplicates, nor
when the symbols of some module cannot be read. -/
def checkSymbols [Monad m] (mode : LinkMode) (source : Path → m (Except String SymbolTable))
    (modules : List BuiltModule) (ignored : List String) :
    m (Except (List SymbolConflict) SymbolCheck) := do
  if !mode.checksSymbols then return .ok (.skipped (.mode mode))
  match ← readTables source modules with
  | .error message => return .ok (.skipped (.unreadable message))
  | .ok tables => return SymbolCheck.ofTables tables ignored

end Drydock
